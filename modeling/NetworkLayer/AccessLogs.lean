import Mathlib.Data.Int.Basic
import Mathlib.Data.List.Basic
import Mathlib.Tactic.Ring

/-!
# Programs that log their memory accesses

A program returns a value together with the accesses it made, in order, each
with the buffer it was meant for, the size of the buffer and the index; or it
never returns. What is said about a run is its value and when all of its
accesses satisfy a property, and this composes along the program.
-/

namespace NetworkLayer.AccessLogs

variable {β α γ : Type}

/-- One access to one byte of a buffer. -/
structure Access (β : Type) where
  /-- The buffer that is indexed. -/
  buffer : β
  /-- Its size in bytes. -/
  size : ℤ
  /-- The index. -/
  index : ℤ
  deriving DecidableEq

/-- The index is one of the buffer. -/
def Access.InBounds (access : Access β) : Prop := 0 ≤ access.index ∧ access.index < access.size

/-- Accesses to so many bytes in a row. -/
def touches (buffer : β) (size first : ℤ) (count : ℕ) : List (Access β) :=
  (List.range count).map fun i : ℕ => ⟨buffer,size,first+(i : ℤ)⟩

/-- A row is in bounds if its first and its last access are. -/
theorem touches_inBounds_iff (buffer : β) (size first : ℤ) (count : ℕ) :
    (∀ access∈touches buffer size first count,access.InBounds) ↔
      count=0 ∨ 0 ≤ first ∧ first+count ≤ size := by
  constructor
  · intro h
    rcases Nat.eq_zero_or_pos count with hzero|hpos
    · exact Or.inl hzero
    have hat : ∀ i < count,(⟨buffer,size,first+i⟩ : Access β).InBounds := fun i hi =>
      h _ (List.mem_map_of_mem (List.mem_range.mpr hi))
    obtain ⟨hlow,_⟩ := hat 0 hpos
    obtain ⟨_,hhigh⟩ := hat (count-1) (by omega)
    simp only at hlow hhigh
    exact Or.inr ⟨by omega,by omega⟩
  · rintro h access hmem
    obtain ⟨i,hi,rfl⟩ := List.mem_map.mp hmem
    have hlt := List.mem_range.mp hi
    rw [Access.InBounds]
    simp only
    omega

/-- A program with a value. -/
structure Logged (β α : Type) where
  /-- The value and the accesses, or nothing if the program never returns. -/
  run : Option (α × List (Access β))

/-- One program after the other, and their accesses likewise. -/
def Logged.bind (program : Logged β α) (next : α → Logged β γ) : Logged β γ :=
  ⟨program.run.bind fun r => (next r.1).run.map fun s => (s.1,r.2++s.2)⟩

instance : Monad (Logged β) where
  pure a := ⟨some (a,[])⟩
  bind := Logged.bind

/-- Accesses by themselves. -/
def touch (log : List (Access β)) : Logged β Unit := ⟨some ((),log)⟩

/-- A program that never returns. -/
def diverge : Logged β α := ⟨none⟩

/-- The value of a program, without its log. -/
def Logged.value (program : Logged β α) : Option α := program.run.map Prod.fst

@[simp] theorem value_pure (a : α) : (pure a : Logged β α).value=some a := rfl

@[simp] theorem value_touch (log : List (Access β)) : (touch log).value=some () := rfl

@[simp] theorem value_bind (program : Logged β α) (next : α → Logged β γ) :
    (program >>= next).value=program.value.bind fun a => (next a).value := by
  change Option.map Prod.fst (program.run.bind fun r =>
    (next r.1).run.map fun s => (s.1,r.2++s.2))=_
  rw [Logged.value]
  cases program.run with
  | none => rfl
  | some r =>
    rw [Option.bind_some,Option.map_map]
    rfl

/-- The program returns this value, and its accesses all satisfy the property
exactly on this condition. -/
def Runs (property : Access β → Prop) (program : Logged β α) (a : α) (condition : Prop) : Prop :=
  ∃ log,program.run=some (a,log) ∧ ((∀ access∈log,property access) ↔ condition)

variable {property : Access β → Prop} {condition later : Prop}

theorem runs_pure (a : α) : Runs property (pure a) a True := ⟨[],rfl,by simp⟩

theorem runs_touch (log : List (Access β)) :
    Runs property (touch log) () (∀ access∈log,property access) := ⟨log,rfl,Iff.rfl⟩

/-- One program runs after the other. -/
theorem Runs.bind {program : Logged β α} {a : α} (h : Runs property program a condition)
    {next : α → Logged β γ} {c : γ} (hnext : Runs property (next a) c later) :
    Runs property (program >>= next) c (condition ∧ later) := by
  obtain ⟨log,hreturned,hlog⟩ := h
  obtain ⟨log',hreturned',hlog'⟩ := hnext
  refine ⟨log++log',?_,?_⟩
  · change (program.run.bind fun r => (next r.1).run.map fun s => (s.1,r.2++s.2))=_
    rw [hreturned,Option.bind_some,hreturned',Option.map_some]
  · rw [←hlog,←hlog']
    simp only [List.mem_append,or_imp,forall_and]

/-- The condition may be put in other words. -/
theorem Runs.congr {program : Logged β α} {a : α} (h : Runs property program a condition)
    (hiff : condition ↔ later) : Runs property program a later := by
  obtain ⟨log,hreturned,hlog⟩ := h
  exact ⟨log,hreturned,hlog.trans hiff⟩

/-- After a program whose accesses satisfy the property anyway. -/
theorem Runs.then_of {program : Logged β α} {a : α} (h : Runs property program a condition)
    (hholds : condition) {next : α → Logged β γ} {c : γ}
    (hnext : Runs property (next a) c later) : Runs property (program >>= next) c later :=
  (h.bind hnext).congr (and_iff_right hholds)

/-- Before such a program. -/
theorem Runs.before {program : Logged β α} {a : α} (h : Runs property program a condition)
    {next : α → Logged β γ} {c : γ} (hnext : Runs property (next a) c True) :
    Runs property (program >>= next) c condition :=
  (h.bind hnext).congr (and_iff_left trivial)

/-- If the program returns, its accesses satisfy the property. -/
def Keeps (property : Access β → Prop) (program : Logged β α) : Prop :=
  ∀ a log,program.run=some (a,log) → ∀ access∈log,property access

theorem keeps_pure (a : α) : Keeps property (pure a : Logged β α) := by
  intro b log h
  obtain ⟨-,rfl⟩ := Prod.mk.inj (Option.some.inj h)
  simp

theorem keeps_diverge : Keeps property (diverge : Logged β α) := by
  intro a log h
  cases h

theorem keeps_touch {log : List (Access β)} (h : ∀ access∈log,property access) :
    Keeps property (touch log) := by
  intro a log' hreturned
  obtain ⟨-,rfl⟩ := Prod.mk.inj (Option.some.inj hreturned)
  exact h

/-- Programs that keep the property may follow each other. -/
theorem Keeps.bind {program : Logged β α} (h : Keeps property program)
    {next : α → Logged β γ} (hnext : ∀ a,Keeps property (next a)) :
    Keeps property (program >>= next) := by
  intro c all hreturned
  change (program.run.bind fun r => (next r.1).run.map fun s => (s.1,r.2++s.2))=_ at hreturned
  obtain ⟨⟨a,first⟩,hfirst,hmap⟩ := Option.bind_eq_some_iff.mp hreturned
  obtain ⟨⟨d,rest⟩,hrest,hpair⟩ := Option.map_eq_some_iff.mp hmap
  obtain ⟨-,rfl⟩ := Prod.mk.inj hpair
  intro access hmem
  rcases List.mem_append.mp hmem with hmem|hmem
  · exact h a first hfirst access hmem
  · exact hnext a d rest hrest access hmem

/-- A program that returns, with accesses that satisfy the property anyway. -/
theorem Keeps.runs {program : Logged β α} (h : Keeps property program) {a : α}
    (hvalue : program.value=some a) : Runs property program a True := by
  obtain ⟨⟨value,log⟩,hreturned,rfl⟩ := Option.map_eq_some_iff.mp hvalue
  exact ⟨log,hreturned,iff_true_intro (h value log hreturned)⟩

end NetworkLayer.AccessLogs
