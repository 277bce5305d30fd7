import NetworkLayer.SlotTables

/-!
# Labels that follow the entries of a table

Bookkeeping beside a slot table: an entry that stays in its slot keeps its
label, a new entry gets the step's label, and the label of an entry that goes
away is dropped. One entry per step may be named as moved; it counts as new.
-/

namespace NetworkLayer.EntryLabels

open SlotTables

variable {n : ℕ} {α β : Type*}

/-- Labels after a step between two tables. -/
def follow (before after : Fin n → Option α) (moved : Option (Fin n)) (new : Option β)
    (label : Fin n → Option β) : Fin n → Option β :=
  fun j =>
    if (after j).isNone=true then none
    else if (before j).isNone=true ∨ moved=some j then new
    else label j

/-- Only entries have labels. -/
def Labels (table : Fin n → Option α) (label : Fin n → Option β) : Prop :=
  ∀ j,table j=none → label j=none

/-- This stays so. -/
theorem labels_follow (before after : Fin n → Option α) (moved : Option (Fin n))
    (new : Option β) (label : Fin n → Option β) :
    Labels after (follow before after moved new label) := by
  intro j hj
  rw [follow,if_pos (by rw [hj]; rfl)]

/-- Only which slots are free afterwards plays a part. -/
theorem follow_congr {before after after' : Fin n → Option α} {moved : Option (Fin n)}
    {new : Option β} {label : Fin n → Option β}
    (h : ∀ j,(after j).isNone=(after' j).isNone) :
    follow before after moved new label=follow before after' moved new label := by
  funext j
  rw [follow,follow,h j]

/-- A replaced entry leaves the free slots as they are. -/
theorem isNone_replace {table : Fin n → Option α} {i : Fin n} {a : α} (hi : table i=some a)
    (b : α) (j : Fin n) : (Function.update table i (some b) j).isNone=(table j).isNone := by
  by_cases hj : j=i
  · subst hj
    rw [Function.update_self,hi]
    rfl
  · rw [Function.update_of_ne hj]

variable {table : Fin n → Option α} {label : Fin n → Option β} (h : Labels table label)

include h

/-- Where nothing changes, all labels stay. -/
theorem follow_same (new : Option β) : follow table table none new label=label := by
  funext j
  unfold follow
  by_cases hj : table j=none
  · rw [if_pos (by rw [hj]; rfl),h j hj]
  · obtain ⟨a,ha⟩ := Option.ne_none_iff_exists'.mp hj
    simp only [ha,Option.isNone_some,Bool.false_eq_true,if_false,reduceCtorEq,or_self]

/-- An entry that is replaced in its slot keeps its label. -/
theorem follow_replace {i : Fin n} {a : α} (hi : table i=some a) (b : α) (new : Option β) :
    follow table (Function.update table i (some b)) none new label=label :=
  (follow_congr (isNone_replace hi b)).trans (follow_same h new)

/-- An entry in a free slot gets the new label. -/
theorem follow_fill {i : Fin n} (hi : table i=none) (b : α) (new : Option β) :
    follow table (Function.update table i (some b)) none new label=
      Function.update label i new := by
  have hsame := follow_same h new
  funext j
  by_cases hj : j=i
  · subst hj
    simp only [follow,Function.update_self,Option.isNone_some,Bool.false_eq_true,if_false,hi,
      Option.isNone_none,true_or,if_true]
  · have hj' := congrFun hsame j
    simp only [follow] at hj'
    simp only [follow,Function.update_of_ne hj]
    exact hj'

/-- An entry in a free slot, while another one is replaced. -/
theorem follow_fill_replace {i j : Fin n} {a : α} (hi : table i=some a) (hj : table j=none)
    (b c : α) (new : Option β) :
    follow table (Function.update (Function.update table j (some b)) i (some c)) none new label=
      Function.update label j new := by
  have hne : i≠j := by
    rintro rfl
    rw [hj] at hi
    cases hi
  have hfilled : Function.update table j (some b) i=some a := by
    rw [Function.update_of_ne hne,hi]
  exact (follow_congr (isNone_replace hfilled c)).trans (follow_fill h hj b new)

/-- The label of an entry that goes away is dropped. -/
theorem follow_clear (i : Fin n) (new : Option β) :
    follow table (Function.update table i none) none new label=Function.update label i none := by
  have hsame := follow_same h new
  funext j
  by_cases hj : j=i
  · subst hj
    simp only [follow,Function.update_self,Option.isNone_none,if_true]
  · have hj' := congrFun hsame j
    simp only [follow] at hj'
    simp only [follow,Function.update_of_ne hj]
    exact hj'

/-- An entry that moves gets the new label in its new slot. -/
theorem follow_move {i k : Fin n} (hk : k=i ∨ table k=none) (b : α) (new : Option β) :
    follow table (Function.update (Function.update table i none) k (some b)) (some i) new label=
      Function.update (Function.update label i none) k new := by
  have hsame := follow_same h new
  funext j
  by_cases hj : j=k
  · subst hj
    have hnew : (table j).isNone=true ∨ some i=some j := by
      rcases hk with rfl|hfree
      · exact Or.inr rfl
      · exact Or.inl (by rw [hfree]; rfl)
    simp only [follow,Function.update_self,Option.isNone_some,Bool.false_eq_true,if_false,
      if_pos hnew]
  · by_cases hi : j=i
    · subst hi
      simp only [follow,Function.update_of_ne hj,Function.update_self,Option.isNone_none,if_true]
    · have hne : some i≠some j := fun he => hi (Option.some.inj he).symm
      have hj' := congrFun hsame j
      simp only [follow,reduceCtorEq,or_false] at hj'
      simp only [follow,Function.update_of_ne hj,Function.update_of_ne hi,hne,or_false]
      exact hj'

/-- A label that moves with its entry is counted as before. -/
theorem occupied_move {i k : Fin n} (hk : k=i ∨ table k=none) :
    occupied (Function.update (Function.update label i none) k (label i))=occupied label := by
  by_cases hki : k=i
  · rw [hki,Function.update_idem,Function.update_eq_self]
  have hfree : label k=none := h k (hk.resolve_left hki)
  cases hi : label i with
  | none =>
    have hsame : Function.update label i none=label := by rw [←hi,Function.update_eq_self]
    rw [hsame,←hfree,Function.update_eq_self]
  | some b =>
    have hclear := occupied_clear label hi
    have hfree' : Function.update label i none k=none := by rw [Function.update_of_ne hki,hfree]
    rw [occupied_fill _ hfree' b]
    exact hclear

end NetworkLayer.EntryLabels
