import Mathlib.Logic.Basic

/-!
# Calls that may not come back

A computation goes from call to call, and each call may be the last: it waits
for ever, or the process dies in it. Such a computation either follows the one
in which every call comes back, or it ends in some call, with what was done
before.
-/

namespace NetworkLayer.CallCourses

/-- How a call fails to come back. -/
inductive Halt
  /-- It waits for ever. -/
  | waits
  /-- The process dies in it, or writes outside its memory. -/
  | dies
  deriving DecidableEq,Repr

/-- What a computation with a state comes to. -/
inductive Course (σ : Type*) (β : Type*)
  /-- All its calls came back. -/
  | returned (b : β)
  /-- One did not, and this had been done before. -/
  | halted (halt : Halt) (before : σ)

variable {σ : Type*} {β : Type*} {γ : Type*}

/-- One computation after another. -/
def Course.bind (course : Course σ β) (next : β → Course σ γ) : Course σ γ :=
  match course with
  | .returned b => next b
  | .halted halt before => .halted halt before

/-- One computation after another that may give nothing. -/
def Course.andThen (course : Course σ (Option β)) (next : β → Course σ (Option γ)) :
    Course σ (Option γ) :=
  course.bind fun
    | none => .returned none
    | some b => next b

@[simp] theorem Course.bind_returned (b : β) (next : β → Course σ γ) :
    (Course.returned b).bind next=next b := rfl

@[simp] theorem Course.bind_halted (halt : Halt) (before : σ) (next : β → Course σ γ) :
    (Course.halted halt before).bind next=.halted halt before := rfl

/-- The computation comes to the result that it has when every call comes
back, or it ends in a call with some property. -/
def Follows (P : Halt → σ → Prop) (result : β) : Course σ β → Prop
  | .returned b => b=result
  | .halted halt before => P halt before

variable {P : Halt → σ → Prop}

theorem Follows.returned (P : Halt → σ → Prop) (b : β) : Follows P b (.returned b) := rfl

/-- One of the two it is. -/
theorem Follows.cases {result : β} {course : Course σ β} (h : Follows P result course) :
    course=.returned result ∨ ∃ halt before,course=.halted halt before ∧ P halt before := by
  cases course with
  | returned b => exact Or.inl (congrArg Course.returned h)
  | halted halt before => exact Or.inr ⟨halt,before,rfl,h⟩

/-- Computations that follow others do so one after another. -/
theorem Follows.bind {result : β} {course : Course σ β} (h : Follows P result course)
    {next : β → Course σ γ} {last : γ} (hnext : Follows P last (next result)) :
    Follows P last (course.bind next) := by
  rcases h.cases with rfl|⟨halt,before,rfl,hhalt⟩
  · exact hnext
  · exact hhalt

/-- Also where they may give nothing. -/
theorem Follows.andThen {result : Option β} {course : Course σ (Option β)}
    (h : Follows P result course) {next : β → Course σ (Option γ)} {plain : β → Option γ}
    (hnext : ∀ b,result=some b → Follows P (plain b) (next b)) :
    Follows P (result.bind plain) (course.andThen next) := by
  refine h.bind ?_
  cases result with
  | none => exact Follows.returned P none
  | some b => exact hnext b rfl

/-- The property of the ends may be weakened. -/
theorem Follows.imp {Q : Halt → σ → Prop} {result : β} {course : Course σ β}
    (h : Follows P result course) (himp : ∀ halt before,P halt before → Q halt before) :
    Follows Q result course := by
  cases course with
  | returned b => exact h
  | halted halt before => exact himp halt before h

end NetworkLayer.CallCourses
