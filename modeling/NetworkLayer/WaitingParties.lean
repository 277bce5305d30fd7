import Mathlib.Order.Basic
import Mathlib.Tactic.Linarith

/-!
# Two parties that wait for one another

Each of two parties goes through its places in order. At some of them it waits
until the other has come to a place of its own. If at no two places both wait,
then both come to their ends, whatever the order of their turns.
-/

namespace NetworkLayer.WaitingParties

/-- The two parties. -/
inductive Party
  | first | second
  deriving DecidableEq,Repr

/-- Where they are. -/
structure Places where
  /-- How many places the first has passed. -/
  first : ℕ
  /-- And the second. -/
  second : ℕ
  deriving DecidableEq,Repr

/-- How far each has to go, and what it waits for on the way. -/
structure Guards where
  /-- The places of the first. -/
  firstEnd : ℕ
  /-- The places of the second. -/
  secondEnd : ℕ
  /-- How many places the second has to have passed before the first passes
  one of its own. -/
  first : ℕ → ℕ
  /-- The other way round. -/
  second : ℕ → ℕ

/-- Whether a party can pass the place it is at. -/
def Guards.Passes (g : Guards) (p : Places) : Party → Prop
  | .first => p.first < g.firstEnd ∧ g.first p.first ≤ p.second
  | .second => p.second < g.secondEnd ∧ g.second p.second ≤ p.first

instance (g : Guards) (p : Places) : (party : Party) → Decidable (g.Passes p party)
  | .first => instDecidableAnd
  | .second => instDecidableAnd

/-- Its next place. -/
def Places.next (p : Places) : Party → Places
  | .first => {p with first := p.first+1}
  | .second => {p with second := p.second+1}

/-- A party gets its turn, or somebody else does. -/
def Guards.step (g : Guards) (p : Places) : Option Party → Places
  | some party => if g.Passes p party then p.next party else p
  | none => p

/-- They are where their guards let them be. -/
structure Guards.Within (g : Guards) (p : Places) : Prop where
  first_le : p.first ≤ g.firstEnd
  second_le : p.second ≤ g.secondEnd
  first_passed : ∀ k < p.first,g.first k ≤ p.second
  second_passed : ∀ k < p.second,g.second k ≤ p.first

/-- Nobody waits for the other to be beyond its end, and at no two places both
wait. -/
structure Guards.Live (g : Guards) : Prop where
  first_le : ∀ a < g.firstEnd,g.first a ≤ g.secondEnd
  second_le : ∀ b < g.secondEnd,g.second b ≤ g.firstEnd
  apart : ∀ a < g.firstEnd,∀ b < g.secondEnd,g.first a ≤ b ∨ g.second b ≤ a

variable {g : Guards} {p : Places}

theorem Guards.within_start (g : Guards) : g.Within ⟨0,0⟩ :=
  ⟨Nat.zero_le _,Nat.zero_le _,fun _ h => absurd h (Nat.not_lt_zero _),
    fun _ h => absurd h (Nat.not_lt_zero _)⟩

theorem Guards.Within.step (h : g.Within p) (turn : Option Party) : g.Within (g.step p turn) := by
  cases turn with
  | none => exact h
  | some party =>
    rw [Guards.step]
    split
    case isFalse => exact h
    case isTrue hpasses =>
      cases party with
      | first =>
        refine ⟨hpasses.1,h.second_le,?_,fun k hk => (h.second_passed k hk).trans (Nat.le_succ _)⟩
        intro k hk
        rcases Nat.lt_succ_iff_lt_or_eq.mp hk with hlt|rfl
        · exact h.first_passed k hlt
        · exact hpasses.2
      | second =>
        refine ⟨h.first_le,hpasses.1,fun k hk => (h.first_passed k hk).trans (Nat.le_succ _),?_⟩
        intro k hk
        rcases Nat.lt_succ_iff_lt_or_eq.mp hk with hlt|rfl
        · exact h.second_passed k hlt
        · exact hpasses.2

/-- How many places are still to be passed. -/
def Guards.left (g : Guards) (p : Places) : ℕ := g.firstEnd-p.first+(g.secondEnd-p.second)

/-- As long as there are some, one of the parties can pass its own. -/
theorem Guards.Live.passes (hlive : g.Live) (h : g.Within p) (hleft : g.left p≠0) :
    ∃ party,g.Passes p party := by
  have hfirst := h.first_le
  have hsecond := h.second_le
  unfold Guards.left at hleft
  by_cases hf : p.first < g.firstEnd
  · by_cases hs : p.second < g.secondEnd
    · rcases hlive.apart _ hf _ hs with hfree|hfree
      · exact ⟨.first,hf,hfree⟩
      · exact ⟨.second,hs,hfree⟩
    · exact ⟨.first,hf,(hlive.first_le _ hf).trans (Nat.le_of_not_lt hs)⟩
  · exact ⟨.second,by omega,(hlive.second_le _ (by omega)).trans (Nat.le_of_not_lt hf)⟩

/-- A turn either changes nothing, of a party that has to wait, or leaves one
place less to pass. -/
theorem Guards.step_cases (g : Guards) (p : Places) (turn : Option Party) :
    g.step p turn=p ∧ (∀ party,turn=some party → ¬g.Passes p party) ∨
      g.left (g.step p turn) < g.left p := by
  cases turn with
  | none => exact .inl ⟨rfl,fun _ h => nomatch h⟩
  | some party =>
    rw [Guards.step]
    split
    case isFalse hwaits =>
      refine .inl ⟨rfl,?_⟩
      rintro _ ⟨⟩
      exact hwaits
    case isTrue hpasses =>
      refine .inr ?_
      unfold Guards.left
      cases party with
      | first =>
        have hlt : p.first < g.firstEnd := hpasses.1
        simp only [Places.next]
        omega
      | second =>
        have hlt : p.second < g.secondEnd := hpasses.1
        simp only [Places.next]
        omega

/-- Everybody gets a turn again and again. -/
def Fair (turns : ℕ → Option Party) : Prop := ∀ party n,∃ m ≥ n,turns m=some party

/-- The places after so many turns. -/
def Guards.after (g : Guards) (start : Places) (turns : ℕ → Option Party) : ℕ → Places
  | 0 => start
  | n+1 => g.step (g.after start turns n) (turns n)

variable {start : Places} {turns : ℕ → Option Party}

theorem Guards.Within.after (h : g.Within start) (turns : ℕ → Option Party) (n : ℕ) :
    g.Within (g.after start turns n) := by
  induction n with
  | zero => exact h
  | succ n ih => exact ih.step _

/-- With places left, there are fewer some time later. -/
theorem Guards.Live.progress (hlive : g.Live) (h : g.Within start) (hfair : Fair turns) {n : ℕ}
    (hleft : g.left (g.after start turns n)≠0) :
    ∃ m ≥ n,g.left (g.after start turns m) < g.left (g.after start turns n) := by
  obtain ⟨party,hpasses⟩ := hlive.passes (h.after turns n) hleft
  obtain ⟨m,hm,hturn⟩ := hfair party n
  by_contra hnever
  push Not at hnever
  -- nothing has changed when the party gets its turn
  have hstays : ∀ k,g.after start turns (n+k)=g.after start turns n := by
    intro k
    induction k with
    | zero => rfl
    | succ k ih =>
      rcases g.step_cases (g.after start turns (n+k)) (turns (n+k)) with ⟨hsame,_⟩|hless
      · exact hsame.trans ih
      · rw [ih] at hless
        refine absurd hless (Nat.not_lt.mpr ?_)
        have hle := hnever (n+(k+1)) (Nat.le_add_right _ _)
        rwa [←Nat.add_assoc,Guards.after,ih] at hle
  obtain ⟨k,rfl⟩ := Nat.exists_eq_add_of_le hm
  rcases g.step_cases (g.after start turns (n+k)) (turns (n+k)) with ⟨_,hwaits⟩|hless
  · rw [hstays] at hwaits
    exact hwaits party hturn hpasses
  · have hle := hnever (n+k+1) (by omega)
    rw [Guards.after] at hle
    rw [hstays] at hless hle
    omega

/-- Both come to their ends. -/
theorem Guards.Live.ends (hlive : g.Live) (h : g.Within start) (hfair : Fair turns) :
    ∃ n,∀ m ≥ n,g.after start turns m=⟨g.firstEnd,g.secondEnd⟩ := by
  have hzero : ∀ k n,g.left (g.after start turns n)=k →
      ∃ m ≥ n,g.left (g.after start turns m)=0 := by
    intro k
    induction k using Nat.strongRecOn with
    | ind k ih =>
      intro n hn
      rcases Nat.eq_zero_or_pos k with rfl|hpos
      · exact ⟨n,le_rfl,hn⟩
      · obtain ⟨m,hm,hless⟩ := hlive.progress h hfair (n:=n) (by omega)
        obtain ⟨last,hlast,hz⟩ := ih _ (hn ▸ hless) m rfl
        exact ⟨last,hm.trans hlast,hz⟩
  obtain ⟨n,_,hn⟩ := hzero _ 0 rfl
  refine ⟨n,?_⟩
  intro m hm
  have hleft : g.left (g.after start turns m)=0 := by
    induction m,hm using Nat.le_induction with
    | base => exact hn
    | succ m _ ih =>
      rcases g.step_cases (g.after start turns m) (turns m) with ⟨hsame,_⟩|hless
      · rw [Guards.after,hsame,ih]
      · omega
  have hwithin := h.after turns m
  have hfirst := hwithin.first_le
  have hsecond := hwithin.second_le
  unfold Guards.left at hleft
  generalize g.after start turns m=p at hleft hfirst hsecond
  obtain ⟨a,b⟩ := p
  simp only [Places.mk.injEq]
  dsimp only at hleft hfirst hsecond
  omega

end NetworkLayer.WaitingParties
