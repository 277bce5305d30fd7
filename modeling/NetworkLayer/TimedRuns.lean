import Mathlib.Data.Int.Order.Basic
import Mathlib.Order.Filter.AtTopBot.Basic
import Mathlib.Order.Filter.Finite

/-!
# What happens when time passes

A run goes on for ever under a clock that passes every bound. What waits for a
deadline waits only until the clock is past it; then it is done, or waits at a
lower rank for another one. So it comes to its end. And of finitely many
things that can only become done, from some time on none does.
-/

namespace NetworkLayer.TimedRuns

/-- The clock passes every bound for good. -/
def Passes (clock : ℕ → ℤ) : Prop := ∀ t,∃ m,∀ n ≥ m,t < clock n

/-- A wait for one deadline after another. -/
structure Wait (σ : Type*) where
  /-- It is still to come to its end. -/
  Waiting : σ → Prop
  /-- It has come to it. -/
  Done : σ → Prop
  /-- How many deadlines are to come. -/
  rank : σ → ℕ
  /-- The next one. -/
  deadline : σ → ℤ

variable {σ : Type*} {wait : Wait σ} {clock : ℕ → ℤ} {state : ℕ → σ} {first : ℕ}

/-- From some step on each is the last, or leads to a later deadline, or finds
the clock not yet past this one. -/
def Wait.Obeyed (wait : Wait σ) (clock : ℕ → ℤ) (state : ℕ → σ) (first : ℕ) : Prop :=
  ∀ n ≥ first,wait.Waiting (state n) → wait.Done (state (n+1)) ∨
    wait.Waiting (state (n+1)) ∧ (wait.rank (state (n+1)) < wait.rank (state n) ∨
      wait.rank (state (n+1))=wait.rank (state n) ∧
      wait.deadline (state (n+1))=wait.deadline (state n) ∧ clock n ≤ wait.deadline (state n))

/-- What waits for a deadline stays at its rank no longer than that. -/
theorem Wait.Obeyed.leaves_rank (hstep : wait.Obeyed clock state first) (hclock : Passes clock)
    {n : ℕ} (hn : first ≤ n) (h : wait.Waiting (state n)) :
    ∃ m ≥ n,wait.Done (state m) ∨
      wait.Waiting (state m) ∧ wait.rank (state m) < wait.rank (state n) := by
  by_contra hnever
  push Not at hnever
  have hstays : ∀ k,wait.Waiting (state (n+k)) ∧ wait.rank (state (n+k))=wait.rank (state n) ∧
      wait.deadline (state (n+k))=wait.deadline (state n) := by
    intro k
    induction k with
    | zero => exact ⟨h,rfl,rfl⟩
    | succ k ih =>
      obtain ⟨hwaits,hrank,hdeadline⟩ := ih
      have hnext := hnever (n+k+1) (by omega)
      rcases hstep (n+k) (by omega) hwaits with hdone|⟨hwaits',hlower|⟨hrank',hdeadline',_⟩⟩
      · exact absurd hdone hnext.1
      · exact absurd (hnext.2 hwaits') (by omega)
      · exact ⟨hwaits',hrank'.trans hrank,hdeadline'.trans hdeadline⟩
  obtain ⟨m,hm⟩ := hclock (wait.deadline (state n))
  obtain ⟨hwaits,hrank,hdeadline⟩ := hstays m
  have hlate := hm (n+m) (by omega)
  have hnext := hnever (n+m+1) (by omega)
  rcases hstep (n+m) (by omega) hwaits with hdone|⟨hwaits',hlower|⟨_,_,hclock'⟩⟩
  · exact hnext.1 hdone
  · exact absurd (hnext.2 hwaits') (by omega)
  · omega

/-- So it comes to its end. -/
theorem Wait.Obeyed.eventually_done (hstep : wait.Obeyed clock state first)
    (hclock : Passes clock) {n : ℕ} (hn : first ≤ n) (h : wait.Waiting (state n)) :
    ∃ m ≥ n,wait.Done (state m) := by
  generalize hr : wait.rank (state n)=r
  induction r using Nat.strongRecOn generalizing n with
  | ind r ih =>
    obtain ⟨m,hm,hdone|⟨hwaits,hlower⟩⟩ := hstep.leaves_rank hclock hn h
    · exact ⟨m,hm,hdone⟩
    · obtain ⟨k,hk,hdone⟩ := ih _ (hr ▸ hlower) (hn.trans hm) hwaits rfl
      exact ⟨k,hm.trans hk,hdone⟩

/-- What can only become done stays so. -/
theorem stays_done {Done : ℕ → Prop} (hstep : ∀ n,Done n → Done (n+1)) {n m : ℕ} (hle : n ≤ m)
    (h : Done n) : Done m := by
  induction m,hle using Nat.le_induction with
  | base => exact h
  | succ k _ ih => exact hstep k ih

/-- Of finitely many things that can only become done, from some time on none
does. -/
theorem eventually_settles {ι : Type*} [Finite ι] {Done : ℕ → ι → Prop}
    (hstep : ∀ n i,Done n i → Done (n+1) i) :
    ∃ first,∀ n ≥ first,∀ i,Done n i → Done first i := by
  have hsettles : ∀ᶠ first in Filter.atTop,∀ i,∀ n ≥ first,Done n i → Done first i := by
    refine Filter.eventually_all.mpr fun i => ?_
    by_cases hdone : ∃ m,Done m i
    · obtain ⟨m,hm⟩ := hdone
      refine Filter.eventually_atTop.mpr ⟨m,fun first hfirst _ _ _ => ?_⟩
      exact stays_done (fun n => hstep n i) hfirst hm
    · exact Filter.Eventually.of_forall fun first n _ h => absurd ⟨n,h⟩ hdone
  obtain ⟨first,hfirst⟩ := hsettles.exists
  exact ⟨first,fun n hn i => hfirst i n hn⟩

end NetworkLayer.TimedRuns
