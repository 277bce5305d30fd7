import NetworkLayer.FifoCalls

/-!
# Fifos with one reader and one writer

Each of the two opens the fifo once and closes it once. So what is in it, and
whether one of them has to wait there, is known from how far the two have come.
-/

namespace NetworkLayer.OneWayFifos

open FifoCalls

/-- One end of a fifo: not opened, open, or closed again. -/
inductive End
  | away | here | gone
  deriving DecidableEq,Repr

/-- How many have it open. -/
def End.count : End → ℕ
  | .here => 1
  | _ => 0

/-- How often it was opened. -/
def End.opens : End → ℕ
  | .away => 0
  | _ => 1

/-- The end of somebody who opens it at one of his places and closes it at
another. -/
def endAt (opens closes place : ℕ) : End :=
  if place ≤ opens then .away else if place ≤ closes then .here else .gone

variable {α N : Type}

/-- A fifo with two such ends. -/
def between (reader writer : End) (bytes : List α) : Pipe α :=
  ⟨reader.count,writer.count,reader.opens,writer.opens,bytes⟩

variable {opens closes place : ℕ}

theorem endAt_here (h : opens < place) (hplace : place ≤ closes) :
    endAt opens closes place=.here := by
  rw [endAt,if_neg (Nat.not_le.mpr h),if_pos hplace]

/-- Whoever has passed the place where he opens his end is not away. -/
theorem endAt_ne_away (h : opens < place) : endAt opens closes place≠.away := by
  rw [endAt,if_neg (Nat.not_le.mpr h)]
  split <;> decide

/-- Whoever has not passed the place where he closes it is not gone. -/
theorem endAt_ne_gone (h : place ≤ closes) : endAt opens closes place≠.gone := by
  rw [endAt,if_pos h]
  split <;> decide

variable {reader writer : End} {bytes : List α}

/-- A reader has seen no writer that was there and went before. -/
theorem seen_reading (h : writer≠.gone) : (between reader writer bytes).seen .reading=0 := by
  cases writer with
  | away | here => rfl
  | gone => exact absurd rfl h

theorem seen_writing (h : reader≠.gone) : (between reader writer bytes).seen .writing=0 := by
  cases reader with
  | away | here => rfl
  | gone => exact absurd rfl h

/-- An open for reading goes on once there has been a writer. -/
theorem otherOpens_reading :
    (between reader writer bytes).otherOpens .reading≠0 ↔ writer≠.away := by
  cases writer <;> simp [between,Pipe.otherOpens,End.opens]

theorem otherOpens_writing :
    (between reader writer bytes).otherOpens .writing≠0 ↔ reader≠.away := by
  cases reader <;> simp [between,Pipe.otherOpens,End.opens]

/-- What nobody has open is empty. -/
theorem leave_reading (h : writer≠.here → bytes=[]) :
    (between .here writer bytes).leave .reading=between .gone writer bytes := by
  cases writer with
  | here => rfl
  | away | gone =>
    obtain rfl := h (by decide)
    rfl

theorem leave_writing (h : reader≠.here → bytes=[]) :
    (between reader .here bytes).leave .writing=between reader .gone bytes := by
  cases reader with
  | here => rfl
  | away | gone =>
    obtain rfl := h (by decide)
    rfl

section Calls

variable [DecidableEq N] {fifos : Fifos N α} {name : N} {linked : Bool} {file : ℕ}

/-- A call on a fifo succeeds, changes it and no other, and leaves its ends and
its bytes so. -/
def Leaves (fifos : Fifos N α) (c : Call N α) (result : c.Result) (name : N) (linked : Bool)
    (file : ℕ) (p : Pipe α) : Prop :=
  ∃ fifos',perform c fifos=some (result,fifos') ∧ (∀ other≠name,fifos' other=fifos other) ∧
    (fifos' name).Is linked file p

theorem makes (h : (fifos name).linked=false) :
    Leaves fifos (.mkfifo name) true name true ((fifos name).file+1) (between .away .away []) :=
  ⟨_,perform_mkfifo h,fun _ hne => makeFifo_of_ne hne,makeFifo_self fifos name⟩

theorem unlinks {p : Pipe α} (h : (fifos name).Is linked file p) :
    Leaves fifos (.unlink name) () name false file p :=
  ⟨_,rfl,fun _ hne => unlinkFifo_of_ne hne,h.unlinkFifo⟩

/-- The reader opens its end; it has to wait only for a writer to come. -/
theorem opens_reading (h : (fifos name).Is true file (between .away writer bytes))
    (hwriter : writer≠.gone) :
    Leaves fifos (.enter name .reading) (some (⟨name,file⟩,0)) name true file
      (between .here writer bytes) := by
  refine ⟨onPipe fifos ⟨name,file⟩ fun p => p.enter .reading,?_,
    fun _ hne => onPipe_of_ne _ hne,h.onPipe fun p => p.enter .reading⟩
  rw [perform_enter h,seen_reading hwriter]
  rfl

theorem opens_writing (h : (fifos name).Is true file (between reader .away bytes))
    (hreader : reader≠.gone) :
    Leaves fifos (.enter name .writing) (some (⟨name,file⟩,0)) name true file
      (between reader .here bytes) := by
  refine ⟨onPipe fifos ⟨name,file⟩ fun p => p.enter .writing,?_,
    fun _ hne => onPipe_of_ne _ hne,h.onPipe fun p => p.enter .writing⟩
  rw [perform_enter h,seen_writing hreader]
  rfl

/-- An open that does not wait finds the reader there. -/
theorem opens_writer (h : (fifos name).Is true file (between .here .away bytes)) :
    Leaves fifos (.openWriter name) (some ⟨name,file⟩) name true file
      (between .here .here bytes) :=
  ⟨_,perform_openWriter h Nat.one_ne_zero,fun _ hne => onPipe_of_ne _ hne,
    h.onPipe fun p => p.enter .writing⟩

theorem writes (h : (fifos name).Is linked file (between .here writer bytes)) (more : List α) :
    Leaves fifos (.write ⟨name,file⟩ more) .whole name linked file
      (between .here writer (bytes++more)) :=
  ⟨_,perform_write h more Nat.one_ne_zero,fun _ hne => onPipe_of_ne _ hne,
    h.onPipe fun p => {p with bytes := p.bytes++more}⟩

theorem reads {b : α} (h : (fifos name).Is linked file (between reader writer (b::bytes))) :
    Leaves fifos (.read ⟨name,file⟩) (some b) name linked file (between reader writer bytes) :=
  ⟨_,perform_read h rfl,fun _ hne => onPipe_of_ne _ hne,h.onPipe fun p => {p with bytes := bytes}⟩

/-- The reader closes its end: what nobody has open is empty. -/
theorem closes_reading (h : (fifos name).Is linked file (between .here writer bytes))
    (hempty : writer≠.here → bytes=[]) :
    Leaves fifos (.close ⟨name,file⟩ .reading) () name linked file
      (between .gone writer bytes) := by
  refine ⟨_,rfl,fun _ hne => onPipe_of_ne _ hne,?_⟩
  rw [←leave_reading hempty]
  exact h.onPipe fun p => p.leave .reading

theorem closes_writing (h : (fifos name).Is linked file (between reader .here bytes))
    (hempty : reader≠.here → bytes=[]) :
    Leaves fifos (.close ⟨name,file⟩ .writing) () name linked file
      (between reader .gone bytes) := by
  refine ⟨_,rfl,fun _ hne => onPipe_of_ne _ hne,?_⟩
  rw [←leave_writing hempty]
  exact h.onPipe fun p => p.leave .writing

/-- An open for reading waits while no writer has come. -/
theorem join_reading_waits (h : (fifos name).Is linked file (between reader .away bytes)) :
    perform (.join ⟨name,file⟩ .reading 0) fifos=none := perform_join_waits h rfl

theorem join_writing_waits (h : (fifos name).Is linked file (between .away writer bytes)) :
    perform (.join ⟨name,file⟩ .writing 0) fifos=none := perform_join_waits h rfl

/-- And a read while the writer is there and nothing is written. -/
theorem read_waits (h : (fifos name).Is linked file (between reader .here [])) :
    perform (.read ⟨name,file⟩) fifos=none := perform_read_waits h rfl Nat.one_ne_zero

end Calls

end NetworkLayer.OneWayFifos
