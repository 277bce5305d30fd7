import Mathlib.Data.Fintype.Card
import Mathlib.Data.List.FinRange

/-!
# Slot tables

A table of finitely many slots, each empty or holding one entry, searched
from slot zero on by a key computed from the entry. The rules say when the
search finds an entry, how single-slot writes act on all lookups, and that
distinct keys and the number of occupied slots follow those writes.
-/

namespace NetworkLayer.SlotTables

variable {n : ℕ} {α κ : Type*}

/-- The first index a linear scan stops at. -/
def firstIndex (p : Fin n → Bool) : Option (Fin n) := (List.finRange n).find? p

/-- A scan stops only where its test succeeds. -/
theorem firstIndex_spec {p : Fin n → Bool} {i : Fin n} (h : firstIndex p=some i) : p i=true :=
  List.find?_some h

/-- A scan finds nothing exactly when its test fails everywhere. -/
theorem firstIndex_eq_none_iff {p : Fin n → Bool} : firstIndex p=none ↔ ∀ i,p i=false := by
  simp only [firstIndex,List.find?_eq_none,List.mem_finRange,forall_const,Bool.not_eq_true]

/-- A scan stops no later than at an index where its test succeeds. -/
theorem firstIndex_le {p : Fin n → Bool} {i k : Fin n} (h : firstIndex p=some k)
    (hi : p i=true) : k ≤ i := by
  obtain ⟨_,before,after,hsplit,hbefore⟩ := List.find?_eq_some_iff_append.mp h
  have hsorted := List.pairwise_lt_finRange n
  rw [hsplit,List.pairwise_append,List.pairwise_cons] at hsorted
  have hmem : i∈before++k::after := hsplit ▸ List.mem_finRange i
  rcases List.mem_append.mp hmem with hb|hk
  · have hfalse := hbefore i hb
    rw [hi] at hfalse
    contradiction
  · rcases List.mem_cons.mp hk with rfl|ha
    · exact le_rfl
    · exact (hsorted.2.1.1 i ha).le

/-- A test that succeeds at one index only stops the scan there. -/
theorem firstIndex_eq_some_of_unique {p : Fin n → Bool} {i : Fin n} (hi : p i=true)
    (hu : ∀ j,p j=true → j=i) : firstIndex p=some i := by
  cases hf : firstIndex p with
  | none =>
    have hfalse := firstIndex_eq_none_iff.mp hf i
    rw [hi] at hfalse
    contradiction
  | some j => rw [hu j (firstIndex_spec hf)]

/-- The entries from a slot on, in slot order. -/
def entriesFrom (table : Fin n → Option α) (k : ℕ) : List α :=
  (List.finRange n).filterMap fun i => if k ≤ i.val then table i else none

/-- The first occupied slot from `k` on holds the first of the entries from
there, and the others come after it. -/
theorem entriesFrom_eq_cons {table : Fin n → Option α} {k : ℕ} {i : Fin n} {a : α}
    (h : firstIndex (fun j => k ≤ j.val && (table j).isSome)=some i) (ha : table i=some a) :
    entriesFrom table k=a::entriesFrom table (i.val+1) := by
  obtain ⟨hi,before,after,hsplit,hbefore⟩ := List.find?_eq_some_iff_append.mp h
  have hsorted := List.pairwise_lt_finRange n
  rw [hsplit,List.pairwise_append,List.pairwise_cons] at hsorted
  have hki : k ≤ i.val := by
    simp only [Bool.and_eq_true,decide_eq_true_eq] at hi
    exact hi.1
  have hskip : before.filterMap (fun j => if k ≤ j.val then table j else none)=[] := by
    refine List.filterMap_eq_nil_iff.mpr fun j hj => ?_
    have hnot := hbefore j hj
    simp only [Bool.not_eq_true',Bool.and_eq_false_iff,decide_eq_false_iff_not] at hnot
    split
    · next hk =>
      have hnone := hnot.resolve_left (not_not_intro hk)
      simpa using hnone
    · rfl
  have hpast : before.filterMap (fun j => if i.val+1 ≤ j.val then table j else none)=[] := by
    refine List.filterMap_eq_nil_iff.mpr fun j hj => if_neg ?_
    have hlt : j.val < i.val := hsorted.2.2 j hj i List.mem_cons_self
    omega
  have hsame : after.filterMap (fun j => if k ≤ j.val then table j else none)=
      after.filterMap fun j => if i.val+1 ≤ j.val then table j else none := by
    refine List.filterMap_congr fun j hj => ?_
    have hlt : i.val < j.val := hsorted.2.1.1 j hj
    rw [if_pos (by omega),if_pos (by omega)]
  rw [entriesFrom,entriesFrom,hsplit,List.filterMap_append,List.filterMap_append,hskip,hpast,
    List.nil_append,List.nil_append,List.filterMap_cons,List.filterMap_cons,if_pos hki,ha,hsame,
    if_neg (by omega)]

/-- Without an occupied slot there are no entries. -/
theorem entriesFrom_eq_nil {table : Fin n → Option α} {k : ℕ}
    (h : firstIndex (fun j => k ≤ j.val && (table j).isSome)=none) : entriesFrom table k=[] := by
  refine List.filterMap_eq_nil_iff.mpr fun j _ => ?_
  have hj := firstIndex_eq_none_iff.mp h j
  simp only [Bool.and_eq_false_iff,decide_eq_false_iff_not] at hj
  split
  · next hk =>
    have hnone := hj.resolve_left (not_not_intro hk)
    simpa using hnone
  · rfl

/-- Tables that agree from a slot on have the same entries from there. -/
theorem entriesFrom_congr {table table' : Fin n → Option α} {k : ℕ}
    (h : ∀ i : Fin n,k ≤ i.val → table i=table' i) : entriesFrom table k=entriesFrom table' k := by
  refine List.filterMap_congr fun i _ => ?_
  split
  · next hk => exact h i hk
  · rfl

/-- The first empty slot. -/
def freeSlot (table : Fin n → Option α) : Option (Fin n) :=
  firstIndex fun i => (table i).isNone

/-- The number of occupied slots. -/
def occupied (table : Fin n → Option α) : ℕ :=
  (Finset.univ.filter fun i => (table i).isSome=true).card

/-- The slot found as free is empty. -/
theorem freeSlot_spec {table : Fin n → Option α} {i : Fin n} (h : freeSlot table=some i) :
    table i=none := by
  have hi := firstIndex_spec h
  exact Option.isNone_iff_eq_none.mp hi

/-- No slot is free exactly when every slot is occupied. -/
theorem freeSlot_eq_none_iff (table : Fin n → Option α) :
    freeSlot table=none ↔ occupied table=n := by
  have hcard : occupied table=n ↔
      (Finset.univ.filter fun i => (table i).isSome=true)=Finset.univ := by
    rw [occupied,←Finset.card_eq_iff_eq_univ,Fintype.card_fin]
  rw [hcard,freeSlot,firstIndex_eq_none_iff,Finset.filter_eq_self]
  simp only [Finset.mem_univ,forall_const]
  refine forall_congr' fun i => ?_
  cases table i <;> simp

/-- A table has at most as many entries as slots. -/
theorem occupied_le (table : Fin n → Option α) : occupied table ≤ n := by
  have hle := Finset.card_le_univ (Finset.univ.filter fun i => (table i).isSome=true)
  rwa [Fintype.card_fin] at hle

@[simp] theorem occupied_empty : occupied (fun _ : Fin n => (none : Option α))=0 := by
  simp [occupied]

/-- No slot is occupied exactly when all are empty. -/
theorem occupied_eq_zero_iff (table : Fin n → Option α) :
    occupied table=0 ↔ ∀ i,table i=none := by
  simp only [occupied,Finset.card_eq_zero,Finset.filter_eq_empty_iff,Finset.mem_univ,forall_const,
    Option.not_isSome_iff_eq_none]

/-- Filling an empty slot adds one occupied slot. -/
theorem occupied_fill (table : Fin n → Option α) {i : Fin n} (hi : table i=none) (a : α) :
    occupied (Function.update table i (some a))=occupied table+1 := by
  have hset : (Finset.univ.filter fun j => (Function.update table i (some a) j).isSome=true)=
      insert i (Finset.univ.filter fun j => (table j).isSome=true) := by
    ext j
    by_cases hj : j=i
    · subst hj
      simp
    · simp [hj]
  rw [occupied,hset,Finset.card_insert_of_notMem (by simp [hi]),occupied]

/-- Emptying an occupied slot takes one occupied slot away. -/
theorem occupied_clear (table : Fin n → Option α) {i : Fin n} {a : α} (hi : table i=some a) :
    occupied (Function.update table i none)+1=occupied table := by
  have hback := occupied_fill (Function.update table i none) (Function.update_self i none table) a
  rw [Function.update_idem,←hi,Function.update_eq_self] at hback
  exact hback.symm

/-- Replacing an entry keeps the number of occupied slots. -/
theorem occupied_replace (table : Fin n → Option α) {i : Fin n} {a : α} (hi : table i=some a)
    (b : α) : occupied (Function.update table i (some b))=occupied table := by
  have hclear := occupied_clear table hi
  have hfill := occupied_fill (Function.update table i none) (Function.update_self i none table) b
  rw [Function.update_idem] at hfill
  omega

/-- What is found after a write is the written entry or was there before. -/
theorem update_some_cases {table : Fin n → Option α} {i j : Fin n} {a b : α}
    (h : Function.update table i (some a) j=some b) :
    j=i ∧ b=a ∨ j≠i ∧ table j=some b := by
  by_cases hj : j=i
  · subst hj
    rw [Function.update_self,Option.some.injEq] at h
    exact Or.inl ⟨rfl,h.symm⟩
  · rw [Function.update_of_ne hj] at h
    exact Or.inr ⟨hj,h⟩

section Keys

variable (key : α → κ)

/-- The first slot whose entry has the key. -/
def findKey [DecidableEq κ] (table : Fin n → Option α) (k : κ) : Option (Fin n) :=
  firstIndex fun i => (table i).any fun a => decide (key a=k)

/-- No two occupied slots hold entries with equal keys. -/
def DistinctKeys (table : Fin n → Option α) : Prop :=
  ∀ i j a b,table i=some a → table j=some b → key a=key b → i=j

variable {key} {table : Fin n → Option α}

/-- The search ends at an entry with the key. -/
theorem findKey_spec [DecidableEq κ] {k : κ} {i : Fin n} (h : findKey key table k=some i) :
    ∃ a,table i=some a ∧ key a=k := by
  have hi := firstIndex_spec h
  obtain ⟨a,ha,hk⟩ := (Option.any_eq_true _ _).mp hi
  exact ⟨a,ha,of_decide_eq_true hk⟩

/-- The search finds nothing exactly when no entry has the key. -/
theorem findKey_eq_none_iff [DecidableEq κ] {k : κ} :
    findKey key table k=none ↔ ∀ i a,table i=some a → key a≠k := by
  rw [findKey,firstIndex_eq_none_iff]
  refine forall_congr' fun i => ?_
  cases table i <;> simp

/-- With distinct keys, the search finds an entry at the slot it is in. -/
theorem DistinctKeys.findKey_eq_some_iff [DecidableEq κ] (hd : DistinctKeys key table) {k : κ}
    {i : Fin n} :
    findKey key table k=some i ↔ ∃ a,table i=some a ∧ key a=k := by
  constructor
  · exact findKey_spec
  · rintro ⟨a,ha,hk⟩
    apply firstIndex_eq_some_of_unique
    · simp [ha,hk]
    · intro j hj
      obtain ⟨b,hb,hkb⟩ := (Option.any_eq_true _ _).mp hj
      exact hd j i b a hb ha ((of_decide_eq_true hkb).trans hk.symm)

/-- The empty table has distinct keys. -/
theorem distinctKeys_empty : DistinctKeys key (fun _ : Fin n => none) := by
  intro i j a b ha
  cases ha

/-- Writing an entry whose key no other slot holds keeps keys distinct, and
this is the only way to keep them distinct. -/
theorem DistinctKeys.update_iff (hd : DistinctKeys key table) (i : Fin n) (a : α) :
    DistinctKeys key (Function.update table i (some a)) ↔
      ∀ j b,j≠i → table j=some b → key b≠key a := by
  constructor
  · intro h j b hj hb hk
    exact hj (h j i b a (by rw [Function.update_of_ne hj,hb]) (Function.update_self ..) hk)
  · intro h j k b c hb hc hk
    by_cases hj : j=i
    · by_cases hki : k=i
      · rw [hj,hki]
      · subst hj
        rw [Function.update_self,Option.some.injEq] at hb
        rw [Function.update_of_ne hki] at hc
        exact absurd (by rw [hb,hk]) (h k c hki hc)
    · rw [Function.update_of_ne hj] at hb
      by_cases hki : k=i
      · subst hki
        rw [Function.update_self,Option.some.injEq] at hc
        exact absurd (by rw [hk,hc]) (h j b hj hb)
      · rw [Function.update_of_ne hki] at hc
        exact hd j k b c hb hc hk

/-- Emptying a slot keeps keys distinct. -/
theorem DistinctKeys.clear (hd : DistinctKeys key table) (i : Fin n) :
    DistinctKeys key (Function.update table i none) := by
  intro j k b c hb hc
  by_cases hj : j=i
  · subst hj
    rw [Function.update_self] at hb
    cases hb
  · by_cases hk : k=i
    · subst hk
      rw [Function.update_self] at hc
      cases hc
    · rw [Function.update_of_ne hj] at hb
      rw [Function.update_of_ne hk] at hc
      exact hd j k b c hb hc

/-- Replacing an entry by one with the same key keeps keys distinct. -/
theorem DistinctKeys.replace (hd : DistinctKeys key table) {i : Fin n} {a b : α}
    (ha : table i=some a) (hk : key b=key a) :
    DistinctKeys key (Function.update table i (some b)) := by
  rw [hd.update_iff]
  intro j c hj hc he
  exact hj (hd j i c a hc ha (he.trans hk))

end Keys

end NetworkLayer.SlotTables
