import Mathlib.Data.List.Basic

/-!
# Runs of a step function

A system is a state type with a total step function over labelled actions.
A run is a list of actions; nondeterminism lives in the labels. The rules
here pass one step's preservation to every state and every step of a run,
with or without a side condition on the steps that are taken.
-/

namespace NetworkLayer.StepRuns

variable {σ α : Type*} (step : σ → α → σ)

/-- The state reached after all actions of a run, in order. -/
def run (s : σ) (actions : List α) : σ := actions.foldl step s

/-- Every step of the run, seen from the state it starts in, meets `P`. -/
def EachStep (P : σ → α → Prop) : σ → List α → Prop
  | _,[] => True
  | s,a::rest => P s a ∧ EachStep P (step s a) rest

/-- Every state on the run, both ends included, meets `P`. -/
def EachState (P : σ → Prop) : σ → List α → Prop
  | s,[] => P s
  | s,a::rest => P s ∧ EachState P (step s a) rest

@[simp] theorem run_nil (s : σ) : run step s []=s := rfl

@[simp] theorem run_cons (s : σ) (a : α) (rest : List α) :
    run step s (a::rest)=run step (step s a) rest := rfl

/-- A run does not leave a state that no action leaves. -/
theorem run_of_fixed {s : σ} (h : ∀ a,step s a=s) (actions : List α) : run step s actions=s := by
  induction actions with
  | nil => rfl
  | cons a rest ih => rw [run_cons,h,ih]

/-- A run may be cut anywhere and continued from the state reached there. -/
theorem run_append (s : σ) (first second : List α) :
    run step s (first++second)=run step (run step s first) second := by
  simp only [run,List.foldl_append]

variable {step} {P : σ → Prop} {C Q : σ → α → Prop}

/-- The first state of a run is one of its states. -/
theorem EachState.head {s : σ} {actions : List α} (h : EachState step P s actions) : P s := by
  cases actions with
  | nil => exact h
  | cons a rest => exact h.1

/-- A property of every state on a run holds where the run ends. -/
theorem EachState.last {s : σ} {actions : List α} (h : EachState step P s actions) :
    P (run step s actions) := by
  induction actions generalizing s with
  | nil => exact h
  | cons a rest ih => exact ih h.2

/-- The states on a run are those that its first steps lead to. -/
theorem eachState_of_take {s : σ} {actions : List α}
    (h : ∀ k ≤ actions.length,P (run step s (actions.take k))) : EachState step P s actions := by
  induction actions generalizing s with
  | nil => exact h 0 (Nat.le_refl _)
  | cons a rest ih =>
    refine ⟨h 0 (Nat.zero_le _),ih ?_⟩
    intro k hk
    exact h (k+1) (Nat.succ_le_succ hk)

/-- What holds of every step of a run holds of every step of its end. -/
theorem EachStep.of_append {s : σ} {first second : List α}
    (h : EachStep step C s (first++second)) : EachStep step C (run step s first) second := by
  induction first generalizing s with
  | nil => exact h
  | cons a rest ih => exact ih h.2

/-- What holds of every step of a run holds of every step of its start. -/
theorem EachStep.of_append_left {s : σ} {first second : List α}
    (h : EachStep step C s (first++second)) : EachStep step C s first := by
  induction first generalizing s with
  | nil => trivial
  | cons a rest ih => exact ⟨h.1,ih h.2⟩

/-- What holds of every step of two runs, the second from where the first ends,
holds of every step of both together. -/
theorem EachStep.append {s : σ} {first second : List α} (hfirst : EachStep step C s first)
    (hsecond : EachStep step C (run step s first) second) :
    EachStep step C s (first++second) := by
  induction first generalizing s with
  | nil => exact hsecond
  | cons a rest ih => exact ⟨hfirst.1,ih hfirst.2 hsecond⟩

/-- Preservation under a side condition carries an invariant through every
run whose steps all meet that condition. -/
theorem eachState_of_guarded (hstep : ∀ s a, P s → C s a → P (step s a)) {s : σ}
    {actions : List α} (hs : P s) (hc : EachStep step C s actions) :
    EachState step P s actions := by
  induction actions generalizing s with
  | nil => exact hs
  | cons a rest ih => exact ⟨hs,ih (hstep s a hs hc.1) hc.2⟩

/-- An invariant that every step preserves holds in every state of a run. -/
theorem eachState_of_invariant (hstep : ∀ s a, P s → P (step s a)) {s : σ} (hs : P s)
    (actions : List α) : EachState step P s actions := by
  induction actions generalizing s with
  | nil => exact hs
  | cons a rest ih => exact ⟨hs,ih (hstep s a hs)⟩

/-- What an invariant implies about a state holds in every state of a run. -/
theorem eachState_imp {R : σ → Prop} (himp : ∀ s,P s → R s) {s : σ} {actions : List α}
    (h : EachState step P s actions) : EachState step R s actions := by
  induction actions generalizing s with
  | nil => exact himp s h
  | cons a rest ih => exact ⟨himp s h.1,ih h.2⟩

/-- What an invariant implies about one step holds of every step of a run
whose steps all meet the side condition. -/
theorem eachStep_of_guarded (hstep : ∀ s a, P s → C s a → P (step s a))
    (hq : ∀ s a, P s → C s a → Q s a) {s : σ} {actions : List α} (hs : P s)
    (hc : EachStep step C s actions) : EachStep step Q s actions := by
  induction actions generalizing s with
  | nil => trivial
  | cons a rest ih => exact ⟨hq s a hs hc.1,ih (hstep s a hs hc.1) hc.2⟩

/-- What an invariant implies about one step holds of every step of a run. -/
theorem eachStep_of_invariant (hstep : ∀ s a, P s → P (step s a))
    (hq : ∀ s a, P s → Q s a) {s : σ} (hs : P s) (actions : List α) :
    EachStep step Q s actions := by
  induction actions generalizing s with
  | nil => trivial
  | cons a rest ih => exact ⟨hq s a hs,ih (hstep s a hs)⟩

/-- A property of all steps may be weakened step by step. -/
theorem EachStep.imp (h : ∀ s a, C s a → Q s a) {s : σ} {actions : List α}
    (hc : EachStep step C s actions) : EachStep step Q s actions := by
  induction actions generalizing s with
  | nil => trivial
  | cons a rest ih => exact ⟨h s a hc.1,ih hc.2⟩

/-- What holds of every step, and what holds in every state, holds of every
step together. -/
theorem EachStep.and_state {s : σ} {actions : List α} (hc : EachStep step C s actions)
    (hs : EachState step P s actions) : EachStep step (fun s a => P s ∧ C s a) s actions := by
  induction actions generalizing s with
  | nil => trivial
  | cons a rest ih => exact ⟨⟨hs.1,hc.1⟩,ih hc.2 hs.2⟩

/-- Two properties that agree on every step agree on every run. -/
theorem eachStep_congr (h : ∀ s a,C s a ↔ Q s a) (s : σ) (actions : List α) :
    EachStep step C s actions ↔ EachStep step Q s actions :=
  ⟨EachStep.imp fun s a => (h s a).mp,EachStep.imp fun s a => (h s a).mpr⟩

/-- Two properties that agree on every step from a state of an invariant agree
on every run that starts in one. -/
theorem eachStep_congr_of_invariant (hstep : ∀ s a,P s → P (step s a))
    (h : ∀ s a,P s → (C s a ↔ Q s a)) {s : σ} (hs : P s) (actions : List α) :
    EachStep step C s actions ↔ EachStep step Q s actions := by
  induction actions generalizing s with
  | nil => exact Iff.rfl
  | cons a rest ih => exact and_congr (h s a hs) (ih (hstep s a hs))

/-- When the side condition is exactly what one step between states of `H`
needs, it is exactly what a whole run through such states needs. -/
theorem eachState_iff_along {H : σ → Prop}
    (hstep : ∀ s a,H s → H (step s a) → P s → (P (step s a) ↔ C s a)) {s : σ} (hs : P s)
    {actions : List α} (hH : EachState step H s actions) :
    EachState step P s actions ↔ EachStep step C s actions := by
  induction actions generalizing s with
  | nil => exact iff_of_true hs trivial
  | cons a rest ih =>
    have hiff := hstep s a hH.1 hH.2.head hs
    constructor
    · intro h
      have hnext : P (step s a) := h.2.head
      exact ⟨hiff.mp hnext,(ih hnext hH.2).mp h.2⟩
    · intro h
      have hnext : P (step s a) := hiff.mpr h.1
      exact ⟨hs,(ih hnext hH.2).mpr h.2⟩

/-- When the side condition is exactly what one step needs, it is exactly
what a whole run needs. -/
theorem eachState_iff_guarded (hstep : ∀ s a, P s → (P (step s a) ↔ C s a)) {s : σ}
    (hs : P s) (actions : List α) :
    EachState step P s actions ↔ EachStep step C s actions :=
  eachState_iff_along (H:=fun _ => True) (fun s a _ _ => hstep s a) hs
    (eachState_of_invariant (fun _ _ _ => trivial) trivial actions)

section Outputs

variable {τ ρ : Type*}

/-- All outputs of a run, in order. -/
def outputs (answer : σ → α → ρ) (step : σ → α → σ) : σ → List α → List ρ
  | _,[] => []
  | s,a::rest => answer s a::outputs answer step (step s a) rest

/-- The outputs of two runs, the second from where the first ends. -/
theorem outputs_append (answer : σ → α → ρ) (step : σ → α → σ) (s : σ) (first second : List α) :
    outputs answer step s (first++second)=
      outputs answer step s first++outputs answer step (run step s first) second := by
  induction first generalizing s with
  | nil => rfl
  | cons a rest ih => rw [List.cons_append,outputs,outputs,ih,run_cons,List.cons_append]

variable {answer : σ → α → ρ} {answer' : τ → α → ρ} {step' : τ → α → τ} {R : σ → τ → Prop}

/-- Two machines whose steps keep a relation and answer alike while it holds
answer alike on every run. -/
theorem outputs_eq_of_simulation (hstep : ∀ s t a,R s t → R (step s a) (step' t a))
    (hanswer : ∀ s t a,R s t → answer s a=answer' t a) {s : σ} {t : τ} (h : R s t)
    (actions : List α) :
    outputs answer step s actions=outputs answer' step' t actions := by
  induction actions generalizing s t with
  | nil => rfl
  | cons a rest ih =>
    rw [outputs,outputs,hanswer s t a h,ih (hstep s t a h)]

/-- And the relation holds where the runs end. -/
theorem run_related (hstep : ∀ s t a,R s t → R (step s a) (step' t a)) {s : σ} {t : τ}
    (h : R s t) (actions : List α) : R (run step s actions) (run step' t actions) := by
  induction actions generalizing s t with
  | nil => exact h
  | cons a rest ih => exact ih (hstep s t a h)

end Outputs

end NetworkLayer.StepRuns
