import Mathlib.Data.List.Basic

/-!
# Loops over a cursor

A loop that asks a first function and then a next function for its items and
ends at the first answer that is no item. The cursor is part of a state that
the body may change too. The rule is for a body that keeps the items still to
come: the loop then ends and visits exactly these, in order.
-/

namespace NetworkLayer.CursorLoops

variable {σ α : Type*} (next : σ → Option α × σ) (body : α → σ → σ)

/-- The loop from an answer on, with the items visited and the state it ends
in; without fuel it does not come to an end. -/
def cursorLoop : ℕ → Option α → σ → Option (List α × σ)
  | _,none,s => some ([],s)
  | 0,some _,_ => none
  | fuel+1,some item,s =>
    let answer := next (body item s)
    (cursorLoop fuel answer.1 answer.2).map fun r => (item::r.1,r.2)

variable {next} {body} {P : List α → σ → Prop}

/-- When the body and the next function keep track of the items still to
come, the loop visits these and ends. -/
theorem cursorLoop_visits
    (hstep : ∀ item rest s,P (item::rest) s →
      (next (body item s)).1=rest.head? ∧ P rest (next (body item s)).2)
    {items : List α} {s : σ} (h : P items s) :
    ∃ last,(∀ fuel ≥ items.length,cursorLoop next body fuel items.head? s=some (items,last)) ∧
      P [] last := by
  induction items generalizing s with
  | nil =>
    refine ⟨s,?_,h⟩
    rintro (_|fuel) _ <;> rfl
  | cons item rest ih =>
    obtain ⟨hanswer,hrest⟩ := hstep item rest s h
    obtain ⟨last,hloop,hlast⟩ := ih hrest
    refine ⟨last,?_,hlast⟩
    rintro (_|fuel) hfuel
    · exact absurd hfuel (Nat.not_succ_le_zero _)
    · have hmore := hloop fuel (Nat.le_of_succ_le_succ hfuel)
      rw [List.head?_cons,cursorLoop,hanswer,hmore,Option.map_some]

end NetworkLayer.CursorLoops
