import Mathlib.Data.List.Basic
import Mathlib.Logic.Function.Basic

/-!
# System calls on named fifos

Programs that make, open, read and write fifos. An open waits until the other
end has been opened, and is there for the other end while it waits; a read
waits for a byte or for the last writer to go; what is left in a fifo is lost
when nobody has it open. A name can be unlinked and made again while an older
file under it is still in use.
-/

namespace NetworkLayer.FifoCalls

/-- How a fifo is opened. -/
inductive Mode
  | reading | writing
  deriving DecidableEq,Repr

/-- The ends of a fifo that an open takes for reading. -/
def Mode.readers : Mode → ℕ
  | .reading => 1
  | .writing => 0

/-- And for writing. -/
def Mode.writers : Mode → ℕ
  | .reading => 0
  | .writing => 1

/-- A fifo file. -/
structure Pipe (α : Type) where
  /-- How many have it open for reading, or wait to. -/
  readers : ℕ
  /-- How many have it open for writing, or wait to. -/
  writers : ℕ
  /-- How often it was opened for reading. -/
  readerOpens : ℕ
  /-- How often it was opened for writing. -/
  writerOpens : ℕ
  /-- What was written and not read. -/
  bytes : List α

variable {α : Type}

/-- A fifo that was just made. -/
def Pipe.new : Pipe α := ⟨0,0,0,0,[]⟩

/-- Somebody opens it. -/
def Pipe.enter (p : Pipe α) (mode : Mode) : Pipe α :=
  ⟨p.readers+mode.readers,p.writers+mode.writers,p.readerOpens+mode.readers,
    p.writerOpens+mode.writers,p.bytes⟩

/-- How often the other end has been opened. -/
def Pipe.otherOpens (p : Pipe α) : Mode → ℕ
  | .reading => p.writerOpens
  | .writing => p.readerOpens

/-- What an open has seen of the other end as it begins: it waits until the
other end has been opened once more, unless somebody is there. -/
def Pipe.seen (p : Pipe α) : Mode → ℕ
  | .reading => if p.writers=0 then p.writerOpens else 0
  | .writing => if p.readers=0 then p.readerOpens else 0

/-- Somebody closes it. -/
def Pipe.leave (p : Pipe α) (mode : Mode) : Pipe α :=
  {p with
    readers := p.readers-mode.readers
    writers := p.writers-mode.writers
    bytes := if p.readers-mode.readers=0 ∧ p.writers-mode.writers=0 then [] else p.bytes}

/-- What there is under a name. -/
structure Node (α : Type) where
  /-- Whether the name is in the directory. -/
  linked : Bool
  /-- The file that it is for, or was for last. -/
  file : ℕ
  /-- All files that have had the name. -/
  pipes : ℕ → Pipe α

variable {N : Type}

/-- A descriptor: the name that was opened and the file that it was for. -/
structure Fd (N : Type) where
  /-- The name. -/
  name : N
  /-- The file. -/
  file : ℕ
  deriving DecidableEq,Repr

/-- All fifos. -/
abbrev Fifos (N α : Type) := N → Node α

/-- What a program can call. -/
inductive Call (N α : Type)
  /-- `mkfifo`. -/
  | mkfifo (name : N)
  /-- `unlink`. -/
  | unlink (name : N)
  /-- `open`, up to its wait for the other end. -/
  | enter (name : N) (mode : Mode)
  /-- The rest of `open`. -/
  | join (fd : Fd N) (mode : Mode) (seen : ℕ)
  /-- `open` with `O_WRONLY | O_NONBLOCK`. -/
  | openWriter (name : N)
  /-- `read` of one byte, on a descriptor that blocks. -/
  | read (fd : Fd N)
  /-- `write`. -/
  | write (fd : Fd N) (bytes : List α)
  /-- `close`. -/
  | close (fd : Fd N) (mode : Mode)

/-- What a write comes to. -/
inductive Written
  /-- All bytes are in the fifo. -/
  | whole
  /-- It fails. -/
  | failed
  /-- Nobody reads, and the signal for that ends the process. -/
  | killed
  deriving DecidableEq,Repr

/-- What the call returns: whether it worked, a descriptor, or a byte. -/
def Call.Result : Call N α → Type
  | .mkfifo _ => Bool
  | .unlink _ => Unit
  | .enter _ _ => Option (Fd N × ℕ)
  | .join _ _ _ => Unit
  | .openWriter _ => Option (Fd N)
  | .read _ => Option α
  | .write _ _ => Written
  | .close _ _ => Unit

variable [DecidableEq N]

/-- A file changes. -/
def onPipe (fifos : Fifos N α) (fd : Fd N) (f : Pipe α → Pipe α) : Fifos N α :=
  Function.update fifos fd.name {fifos fd.name with
    pipes := Function.update (fifos fd.name).pipes fd.file (f ((fifos fd.name).pipes fd.file))}

/-- A descriptor for the file that has a name now. -/
def fdOf (fifos : Fifos N α) (name : N) : Fd N := ⟨name,(fifos name).file⟩

/-- The file of a descriptor. -/
def pipeOf (fifos : Fifos N α) (fd : Fd N) : Pipe α := (fifos fd.name).pipes fd.file

/-- A file is made under a name. -/
def makeFifo (fifos : Fifos N α) (name : N) : Fifos N α :=
  Function.update fifos name ⟨true,(fifos name).file+1,
    Function.update (fifos name).pipes ((fifos name).file+1) Pipe.new⟩

/-- A name is taken out of the directory. -/
def unlinkFifo (fifos : Fifos N α) (name : N) : Fifos N α :=
  Function.update fifos name {fifos name with linked := false}

/-- A call is carried out, unless it has to wait. -/
def perform : (c : Call N α) → Fifos N α → Option (c.Result × Fifos N α)
  | .mkfifo name,fifos =>
    if (fifos name).linked=true then some (false,fifos)
    else some (true,makeFifo fifos name)
  | .unlink name,fifos => some ((),unlinkFifo fifos name)
  | .enter name mode,fifos =>
    if (fifos name).linked=true then
      some (some (fdOf fifos name,(pipeOf fifos (fdOf fifos name)).seen mode),
        onPipe fifos (fdOf fifos name) fun p => p.enter mode)
    else some (none,fifos)
  | .join fd mode seen,fifos =>
    if (pipeOf fifos fd).otherOpens mode≠seen then some ((),fifos) else none
  | .openWriter name,fifos =>
    if (fifos name).linked=true ∧ (pipeOf fifos (fdOf fifos name)).readers≠0 then
      some (some (fdOf fifos name),onPipe fifos (fdOf fifos name) fun p => p.enter .writing)
    else some (none,fifos)
  | .read fd,fifos =>
    match (pipeOf fifos fd).bytes with
    | b::rest => some (some b,onPipe fifos fd fun p => {p with bytes := rest})
    | [] => if (pipeOf fifos fd).writers=0 then some (none,fifos) else none
  | .write fd bytes,fifos =>
    if (pipeOf fifos fd).readers=0 then some (.killed,fifos)
    else some (.whole,onPipe fifos fd fun p => {p with bytes := p.bytes++bytes})
  | .close fd mode,fifos => some ((),onPipe fifos fd fun p => p.leave mode)

/-- A program: it has returned, or makes a call and goes on with its result. -/
inductive Prog (N α A : Type)
  /-- It has returned. -/
  | done (result : A)
  /-- It makes a call. -/
  | call (c : Call N α) (rest : c.Result → Prog N α A)

variable {A S : Type}

/-- `open` without `O_NONBLOCK`. -/
def openFifo (name : N) (mode : Mode) (rest : Option (Fd N) → Prog N α A) : Prog N α A :=
  .call (.enter name mode) fun
    | none => rest none
    | some (fd,seen) => .call (.join fd mode seen) fun _ => rest (some fd)

/-- Calls whose results are of no interest, one after the other. -/
def calling (calls : List (Call N α)) (rest : Prog N α A) : Prog N α A :=
  calls.foldr (fun c p => .call c fun _ => p) rest

/-- What a program can return, with any answers to its calls. -/
inductive Returns : Prog N α A → A → Prop
  /-- It has returned. -/
  | done (result : A) : Returns (.done result) result
  /-- It returns after one more call. -/
  | call {c : Call N α} {rest : c.Result → Prog N α A} {result : A} (answer : c.Result)
    (h : Returns (rest answer) result) : Returns (.call c rest) result

omit [DecidableEq N] in
theorem returns_done {a result : A} : Returns (Prog.done (N:=N) (α:=α) a) result ↔ result=a := by
  constructor
  · rintro ⟨⟩
    rfl
  · rintro rfl
    exact .done result

omit [DecidableEq N] in
theorem returns_call {c : Call N α} {rest : c.Result → Prog N α A} {result : A} :
    Returns (.call c rest) result ↔ ∃ answer,Returns (rest answer) result := by
  constructor
  · rintro (_|⟨answer,h⟩)
    exact ⟨answer,h⟩
  · rintro ⟨answer,h⟩
    exact .call answer h

omit [DecidableEq N] in
theorem returns_calling {calls : List (Call N α)} {p : Prog N α A} {result : A}
    (h : Returns (calling calls p) result) : Returns p result := by
  induction calls with
  | nil => exact h
  | cons c calls ih =>
    obtain ⟨_,hrest⟩ := returns_call.mp h
    exact ih hrest

/-- The next call of a program, unless it has returned or has to wait. -/
def Prog.step : Prog N α A → Fifos N α → Option (Prog N α A × Fifos N α)
  | .done _,_ => none
  | .call c rest,fifos => (perform c fifos).map fun r => (rest r.1,r.2)

theorem Prog.step_call {c : Call N α} {rest : c.Result → Prog N α A} {fifos fifos' : Fifos N α}
    {r : c.Result} (h : perform c fifos=some (r,fifos')) :
    (Prog.call c rest).step fifos=some (rest r,fifos') := by
  rw [Prog.step,h]
  rfl

theorem Prog.step_waits {c : Call N α} {rest : c.Result → Prog N α A} {fifos : Fifos N α}
    (h : perform c fifos=none) : (Prog.call c rest).step fifos=none := by
  rw [Prog.step,h]
  rfl

/-- Two processes and the fifos. The second does the same over and over, each
time from what it had at the end of the last. -/
structure Processes (N α A S : Type) where
  /-- The first. -/
  first : Prog N α A
  /-- The second. -/
  second : Prog N α S
  /-- The fifos. -/
  fifos : Fifos N α

/-- Who makes the next step. -/
inductive Turn (N α : Type)
  /-- The first process. -/
  | first
  /-- The second process. -/
  | second
  /-- Others do anything to fifos that are not the two processes' own. -/
  | others (fifos : Fifos N α)

/-- The second process when it gets its turn. -/
def resume (again : S → Prog N α S) : Prog N α S → Prog N α S
  | .done s => again s
  | p => p

/-- A step; who has to wait stays where it is. -/
def Processes.step (again : S → Prog N α S) (own : List N) (s : Processes N α A S) :
    Turn N α → Processes N α A S
  | .first => match s.first.step s.fifos with
    | some (p,fifos) => {s with first := p,fifos := fifos}
    | none => s
  | .second => match (resume again s.second).step s.fifos with
    | some (p,fifos) => {s with second := p,fifos := fifos}
    | none => {s with second := resume again s.second}
  | .others fifos => {s with fifos := fun name => if name∈own then s.fifos name else fifos name}

/-- The processes after so many turns. -/
def Processes.after (again : S → Prog N α S) (own : List N) (start : Processes N α A S)
    (turns : ℕ → Turn N α) : ℕ → Processes N α A S
  | 0 => start
  | n+1 => (start.after again own turns n).step again own (turns n)

section Steps

variable {again : S → Prog N α S} {own : List N} {s : Processes N α A S} {fifos : Fifos N α}

theorem Processes.step_first {p : Prog N α A} (h : s.first.step s.fifos=some (p,fifos)) :
    s.step again own .first={s with first := p,fifos := fifos} := by
  rw [Processes.step,h]

theorem Processes.step_first_waits (h : s.first.step s.fifos=none) :
    s.step again own .first=s := by
  rw [Processes.step,h]

theorem Processes.step_second {p : Prog N α S}
    (h : (resume again s.second).step s.fifos=some (p,fifos)) :
    s.step again own .second={s with second := p,fifos := fifos} := by
  rw [Processes.step,h]

theorem Processes.step_second_waits (h : (resume again s.second).step s.fifos=none) :
    s.step again own .second={s with second := resume again s.second} := by
  rw [Processes.step,h]

theorem Processes.others_own {name : N} (h : name∈own) (fifos : Fifos N α) :
    (s.step again own (.others fifos)).fifos name=s.fifos name := if_pos h

end Steps

/-- What there is under a name, as far as its last file goes. -/
structure Node.Is (node : Node α) (linked : Bool) (file : ℕ) (p : Pipe α) : Prop where
  linked_eq : node.linked=linked
  file_eq : node.file=file
  pipe_eq : node.pipes file=p

variable {fifos : Fifos N α} {name other : N} {linked : Bool} {file : ℕ} {p : Pipe α}

theorem onPipe_of_ne (f : Pipe α → Pipe α) (h : other≠name) :
    onPipe fifos ⟨name,file⟩ f other=fifos other := by
  rw [onPipe,Function.update_of_ne h]

theorem Node.Is.onPipe (h : (fifos name).Is linked file p) (f : Pipe α → Pipe α) :
    (onPipe fifos ⟨name,file⟩ f name).Is linked file (f p) := by
  rw [FifoCalls.onPipe,Function.update_self]
  exact ⟨h.linked_eq,h.file_eq,by simp only [Function.update_self,h.pipe_eq]⟩

theorem makeFifo_self (fifos : Fifos N α) (name : N) :
    (makeFifo fifos name name).Is true ((fifos name).file+1) Pipe.new := by
  rw [makeFifo,Function.update_self]
  exact ⟨rfl,rfl,Function.update_self ..⟩

theorem makeFifo_of_ne (h : other≠name) : makeFifo fifos name other=fifos other := by
  rw [makeFifo,Function.update_of_ne h]

theorem Node.Is.unlinkFifo (h : (fifos name).Is linked file p) :
    (unlinkFifo fifos name name).Is false file p := by
  rw [FifoCalls.unlinkFifo,Function.update_self]
  exact ⟨rfl,h.file_eq,h.pipe_eq⟩

theorem unlinkFifo_of_ne (h : other≠name) : unlinkFifo fifos name other=fifos other := by
  rw [unlinkFifo,Function.update_of_ne h]

omit [DecidableEq N] in
theorem Node.Is.pipeOf_eq (h : (fifos name).Is linked file p) : pipeOf fifos ⟨name,file⟩=p :=
  h.pipe_eq

omit [DecidableEq N] in
theorem Node.Is.fdOf_eq (h : (fifos name).Is linked file p) : fdOf fifos name=⟨name,file⟩ := by
  rw [fdOf,h.file_eq]

/-- A name that is free can be made. -/
theorem perform_mkfifo (h : (fifos name).linked=false) :
    perform (.mkfifo name) fifos=some (true,makeFifo fifos name) :=
  if_neg (by rw [h]; exact Bool.false_ne_true)

theorem perform_enter (h : (fifos name).Is true file p) (mode : Mode) :
    perform (.enter name mode) fifos=
      some (some (⟨name,file⟩,p.seen mode),onPipe fifos ⟨name,file⟩ fun p => p.enter mode) := by
  have hdone : perform (.enter name mode) fifos=some (some (fdOf fifos name,_),_) :=
    if_pos h.linked_eq
  rw [hdone,h.fdOf_eq,h.pipeOf_eq]

theorem perform_join (h : (fifos name).Is linked file p) {mode : Mode} {seen : ℕ}
    (hopened : p.otherOpens mode≠seen) :
    perform (.join ⟨name,file⟩ mode seen) fifos=some ((),fifos) :=
  if_pos (by rwa [h.pipeOf_eq])

theorem perform_join_waits (h : (fifos name).Is linked file p) {mode : Mode} {seen : ℕ}
    (hopened : p.otherOpens mode=seen) :
    perform (.join ⟨name,file⟩ mode seen) fifos=none :=
  if_neg (by rwa [h.pipeOf_eq,not_not])

theorem perform_openWriter (h : (fifos name).Is true file p) (hreaders : p.readers≠0) :
    perform (.openWriter name) fifos=
      some (some ⟨name,file⟩,onPipe fifos ⟨name,file⟩ fun p => p.enter .writing) := by
  have hdone : perform (.openWriter name) fifos=some (some (fdOf fifos name),_) :=
    if_pos ⟨h.linked_eq,by rwa [h.fdOf_eq,h.pipeOf_eq]⟩
  rw [hdone,h.fdOf_eq]

/-- Nobody reads, or the name is not there. -/
theorem perform_openWriter_none (h : (fifos name).Is linked file p)
    (hreaders : linked=true → p.readers=0) :
    perform (.openWriter name) fifos=some (none,fifos) := by
  refine if_neg ?_
  rw [h.fdOf_eq,h.pipeOf_eq,h.linked_eq]
  rintro ⟨hlinked,hne⟩
  exact hne (hreaders hlinked)

theorem perform_read (h : (fifos name).Is linked file p) {b : α} {rest : List α}
    (hbytes : p.bytes=b::rest) :
    perform (.read ⟨name,file⟩) fifos=
      some (some b,onPipe fifos ⟨name,file⟩ fun p => {p with bytes := rest}) := by
  rw [perform,h.pipeOf_eq,hbytes]
  rfl

theorem perform_read_waits (h : (fifos name).Is linked file p) (hbytes : p.bytes=[])
    (hwriters : p.writers≠0) : perform (.read ⟨name,file⟩) fifos=none := by
  rw [perform,h.pipeOf_eq,hbytes]
  exact if_neg hwriters

theorem perform_write (h : (fifos name).Is linked file p) (bytes : List α)
    (hreaders : p.readers≠0) :
    perform (.write ⟨name,file⟩ bytes) fifos=
      some (.whole,onPipe fifos ⟨name,file⟩ fun p => {p with bytes := p.bytes++bytes}) :=
  if_neg (by rwa [h.pipeOf_eq])

end NetworkLayer.FifoCalls
