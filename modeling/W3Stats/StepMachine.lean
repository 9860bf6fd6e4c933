import Mathlib.Logic.Relation
import Mathlib.Tactic.Common

/-!
# Runs of machines whose steps may trap

A machine is a step function `σ → ε → Except τ σ`: from a state and an event it
goes on to a next state or stops with a trap.  Every choice the environment
makes is part of the event, so one event list determines one run.  This module
has the run of an event list, the rule that lifts what one step preserves to
whole runs, the rule that turns an exact description of the trapping steps into
an exact description of the trapping runs, and the simulation rule between two
machines that also answer each event.
-/

namespace StepMachine

variable {σ σ' ε τ ο : Type*}

/-! ### Runs -/

/-- Execute the events from left to right until one of them traps. -/
def run (step : σ → ε → Except τ σ) : σ → List ε → Except τ σ
  | s, [] => .ok s
  | s, e :: es =>
      match step s e with
      | .ok t => run step t es
      | .error x => .error x

variable {step : σ → ε → Except τ σ}

@[simp] theorem run_nil (s : σ) : run step s [] = .ok s := rfl

theorem run_cons_of_ok {s t : σ} {e : ε} (h : step s e = .ok t) (es : List ε) :
    run step s (e :: es) = run step t es := by
  simp only [run, h]

theorem run_cons_of_error {s : σ} {e : ε} {x : τ} (h : step s e = .error x)
    (es : List ε) : run step s (e :: es) = .error x := by
  simp only [run, h]

theorem run_cons_eq_ok {s u : σ} {e : ε} {es : List ε} :
    run step s (e :: es) = .ok u ↔ ∃ t, step s e = .ok t ∧ run step t es = .ok u := by
  constructor
  · intro h
    cases he : step s e with
    | ok t => exact ⟨t, rfl, by rwa [run_cons_of_ok he] at h⟩
    | error x =>
      rw [run_cons_of_error he] at h
      cases h
  · rintro ⟨t, he, h⟩
    rw [run_cons_of_ok he, h]

/-- A state some event list leads to. -/
def Reachable (step : σ → ε → Except τ σ) (s t : σ) : Prop :=
  ∃ es, run step s es = .ok t

/-! ### Invariants -/

/-- What every step that goes on preserves, every run preserves.  The events may
    be restricted to those that satisfy `P`. -/
theorem run_preserves {I : σ → Prop} {P : ε → Prop}
    (hstep : ∀ s e t, I s → P e → step s e = .ok t → I t)
    {s t : σ} {es : List ε} (hs : I s) (hP : ∀ e ∈ es, P e)
    (h : run step s es = .ok t) : I t := by
  induction es generalizing s with
  | nil =>
    rw [run_nil] at h
    cases h
    exact hs
  | cons e es ih =>
    obtain ⟨u, he, hu⟩ := run_cons_eq_ok.mp h
    exact ih (hstep s e u hs (hP e (by simp)) he) (fun f hf => hP f (by simp [hf])) hu

theorem Reachable.preserves {I : σ → Prop}
    (hstep : ∀ s e t, I s → step s e = .ok t → I t)
    {s t : σ} (hs : I s) (h : Reachable step s t) : I t := by
  obtain ⟨es, hes⟩ := h
  exact run_preserves (P := fun _ => True) (fun s e t hI _ => hstep s e t hI) hs
    (fun _ _ => trivial) hes

/-! ### Conditions along a run -/

/-- `C` holds of the state and the event at every step the run takes, the one
    that traps included. -/
def AllSteps (step : σ → ε → Except τ σ) (C : σ → ε → Prop) : σ → List ε → Prop
  | _, [] => True
  | s, e :: es => C s e ∧ ∀ t, step s e = .ok t → AllSteps step C t es

theorem AllSteps.at {C : σ → ε → Prop} {s t : σ} {es fs : List ε} {e : ε}
    (h : AllSteps step C s (es ++ e :: fs)) (hes : run step s es = .ok t) : C t e := by
  induction es generalizing s with
  | nil =>
    rw [run_nil] at hes
    cases hes
    exact h.1
  | cons f es ih =>
    obtain ⟨u, hf, hu⟩ := run_cons_eq_ok.mp hes
    exact ih (h.2 u hf) hu

theorem AllSteps.mono {C D : σ → ε → Prop} {I : σ → Prop}
    (hstep : ∀ s e t, I s → C s e → step s e = .ok t → I t)
    (hCD : ∀ s e, I s → C s e → D s e) {s : σ} {es : List ε} (hs : I s)
    (h : AllSteps step C s es) : AllSteps step D s es := by
  induction es generalizing s with
  | nil => trivial
  | cons e es ih =>
    exact ⟨hCD s e hs h.1, fun t he => ih (hstep s e t hs h.1 he) (h.2 t he)⟩

/-- Two conditions that agree wherever the invariant holds agree along a run; the
    invariant need only survive the steps that meet the condition. -/
theorem allSteps_congr {C D : σ → ε → Prop} {I : σ → Prop}
    (hstep : ∀ s e t, I s → C s e → step s e = .ok t → I t)
    (hCD : ∀ s e, I s → (C s e ↔ D s e)) {s : σ} {es : List ε} (hs : I s) :
    AllSteps step C s es ↔ AllSteps step D s es :=
  ⟨AllSteps.mono hstep (fun s e hI => (hCD s e hI).mp) hs,
   AllSteps.mono (fun s e t hI hD => hstep s e t hI ((hCD s e hI).mpr hD))
    (fun s e hI => (hCD s e hI).mpr) hs⟩

theorem allSteps_iff {C : σ → ε → Prop} {s : σ} {es : List ε} :
    AllSteps step C s es ↔
      ∀ pre e post t, es = pre ++ e :: post → run step s pre = .ok t → C t e := by
  constructor
  · rintro h pre e post t rfl ht
    exact h.at ht
  · intro h
    induction es generalizing s with
    | nil => trivial
    | cons e es ih =>
      refine ⟨h [] e es s rfl rfl, fun t ht => ih fun pre e' post u hes hu => ?_⟩
      exact h (e :: pre) e' post u (by rw [hes, List.cons_append])
        (by rw [run_cons_of_ok ht, hu])

/-- What the invariant implies at one step holds at every step. -/
theorem allSteps_of_invariant {C : σ → ε → Prop} {I : σ → Prop}
    (hstep : ∀ s e t, I s → step s e = .ok t → I t) (hC : ∀ s e, I s → C s e)
    {s : σ} {es : List ε} (hs : I s) : AllSteps step C s es := by
  apply allSteps_iff.mpr
  intro pre e post t hes ht
  exact hC t e (Reachable.preserves hstep hs ⟨pre, ht⟩)

/-- `P` holds of every state the run reaches, the first one included. -/
def AllStates (step : σ → ε → Except τ σ) (P : σ → Prop) : σ → List ε → Prop
  | s, [] => P s
  | s, e :: es => P s ∧ ∀ t, step s e = .ok t → AllStates step P t es

theorem AllStates.head {P : σ → Prop} {s : σ} {es : List ε} (h : AllStates step P s es) :
    P s := by
  cases es with
  | nil => exact h
  | cons e es => exact h.1

theorem AllStates.of_run {P : σ → Prop} {s t : σ} {es fs : List ε}
    (h : AllStates step P s (es ++ fs)) (hes : run step s es = .ok t) : P t := by
  induction es generalizing s with
  | nil =>
    rw [run_nil] at hes
    cases hes
    exact h.head
  | cons e es ih =>
    obtain ⟨u, he, hu⟩ := run_cons_eq_ok.mp hes
    exact ih (h.2 u he) hu

/-- If `C` says exactly which steps keep `P`, and the others go on, then `P` holds in
    every state of a run exactly when every one of its steps satisfies `C`. -/
theorem allStates_iff_allSteps {C : σ → ε → Prop} {P I : σ → Prop}
    (hI : ∀ s e t, I s → step s e = .ok t → I t)
    (hP : ∀ s e t, I s → P s → step s e = .ok t → (P t ↔ C s e))
    (hgo : ∀ s e, I s → P s → ¬ C s e → ∃ t, step s e = .ok t)
    {s : σ} {es : List ε} (hIs : I s) (hs : P s) :
    AllStates step P s es ↔ AllSteps step C s es := by
  induction es generalizing s with
  | nil => exact ⟨fun _ => trivial, fun _ => hs⟩
  | cons e es ih =>
    constructor
    · rintro ⟨-, hall⟩
      have hC : C s e := by
        by_contra hnot
        obtain ⟨t, ht⟩ := hgo s e hIs hs hnot
        have hPt : P t := (hall t ht).head
        exact hnot ((hP s e t hIs hs ht).mp hPt)
      refine ⟨hC, ?_⟩
      intro t ht
      exact (ih (hI s e t hIs ht) ((hP s e t hIs hs ht).mpr hC)).mp (hall t ht)
    · rintro ⟨hC, hall⟩
      refine ⟨hs, ?_⟩
      intro t ht
      exact (ih (hI s e t hIs ht) ((hP s e t hIs hs ht).mpr hC)).mpr (hall t ht)

/-- An invariant holds of every state a run reaches. -/
theorem allStates_of_invariant {P : σ → Prop}
    (hP : ∀ s e t, P s → step s e = .ok t → P t) {s : σ} {es : List ε} (hs : P s) :
    AllStates step P s es := by
  induction es generalizing s with
  | nil => exact hs
  | cons e es ih =>
    refine ⟨hs, ?_⟩
    intro t ht
    exact ih (hP s e t hs ht)

/-- If `C` says exactly which steps stop with the trap `x`, then a run avoids `x`
    exactly when every one of its steps satisfies `C`. -/
theorem run_ne_error_iff {C : σ → ε → Prop} {I : σ → Prop} {x : τ}
    (hstep : ∀ s e t, I s → step s e = .ok t → I t)
    (htrap : ∀ s e, I s → (step s e ≠ .error x ↔ C s e))
    {s : σ} {es : List ε} (hs : I s) :
    run step s es ≠ .error x ↔ AllSteps step C s es := by
  induction es generalizing s with
  | nil => simp [AllSteps]
  | cons e es ih =>
    cases he : step s e with
    | ok t =>
      have hC : C s e := (htrap s e hs).mp (by simp [he])
      rw [run_cons_of_ok he, ih (hstep s e t hs he)]
      constructor
      · intro h
        refine ⟨hC, ?_⟩
        intro u hu
        rw [he] at hu
        cases hu
        exact h
      · intro h
        exact h.2 t he
    | error y =>
      rw [run_cons_of_error he]
      constructor
      · intro h
        refine ⟨(htrap s e hs).mp (by rwa [he]), ?_⟩
        intro u hu
        rw [he] at hu
        cases hu
      · intro h
        have := (htrap s e hs).mpr h.1
        rwa [he] at this

/-- If no step stops with any trap but `x`, no run does. -/
theorem eq_of_run_eq_error {I : σ → Prop} {x : τ}
    (hstep : ∀ s e t, I s → step s e = .ok t → I t)
    (htrap : ∀ s e y, I s → step s e = .error y → y = x)
    {s : σ} {es : List ε} {y : τ} (hs : I s) (h : run step s es = .error y) : y = x := by
  induction es generalizing s with
  | nil => cases h
  | cons e es ih =>
    cases he : step s e with
    | ok t =>
      rw [run_cons_of_ok he] at h
      exact ih (hstep s e t hs he) h
    | error z =>
      rw [run_cons_of_error he] at h
      cases h
      exact htrap s e _ hs he

/-! ### Histories -/

/-- `C` holds of each event and of what the history before it says. -/
def Along {γ : Type*} (next : γ → ε → γ) (C : γ → ε → Prop) : γ → List ε → Prop
  | _, [] => True
  | g, e :: es => C g e ∧ Along next C (next g e) es

/-- If a history kept beside the machine tells which steps go on, and the others
    stop with a trap of the kind `B`, then it tells which runs go on. -/
theorem run_cases_of_history {γ : Type*} {next : γ → ε → γ} {C : γ → ε → Prop}
    {R : σ → γ → Prop} {B : τ → Prop}
    (hgo : ∀ s g e, R s g → C g e → ∃ t, step s e = .ok t ∧ R t (next g e))
    (hstop : ∀ s g e, R s g → ¬ C g e → ∃ x, step s e = .error x ∧ B x)
    {s : σ} {g : γ} (h : R s g) (es : List ε) :
    (Along next C g es ∧ ∃ t, run step s es = .ok t) ∨
      (¬ Along next C g es ∧ ∃ x, run step s es = .error x ∧ B x) := by
  induction es generalizing s g with
  | nil => exact Or.inl ⟨trivial, s, rfl⟩
  | cons e es ih =>
    by_cases hC : C g e
    · obtain ⟨t, he, ht⟩ := hgo s g e h hC
      rcases ih ht with ⟨hall, hrun⟩ | ⟨hnot, hrun⟩
      · left
        rw [run_cons_of_ok he]
        exact ⟨⟨hC, hall⟩, hrun⟩
      · right
        rw [run_cons_of_ok he]
        exact ⟨fun hall => hnot hall.2, hrun⟩
    · obtain ⟨x, he, hx⟩ := hstop s g e h hC
      right
      exact ⟨fun hall => hC hall.1, x, run_cons_of_error he es, hx⟩

/-- What every step that goes on keeps between the state and the history, a run
    keeps. -/
theorem run_foldl {γ : Type*} {next : γ → ε → γ} {R : σ → γ → Prop}
    (hstep : ∀ s g e t, R s g → step s e = .ok t → R t (next g e)) {s t : σ} {g : γ}
    {es : List ε} (hs : R s g) (h : run step s es = .ok t) : R t (es.foldl next g) := by
  induction es generalizing s g with
  | nil =>
    rw [run_nil] at h
    cases h
    exact hs
  | cons e es ih =>
    obtain ⟨u, he, hu⟩ := run_cons_eq_ok.mp h
    exact ih (hstep s g e u hs he) hu

/-! ### Accounts -/

/-- A value kept beside a run, which every step that goes on updates. -/
def account {γ : Type*} (step : σ → ε → Except τ σ) (next : γ → σ → ε → γ) : γ → σ → List ε → γ
  | g, _, [] => g
  | g, s, e :: es =>
      match step s e with
      | .ok t => account step next (next g s e) t es
      | .error _ => g

/-- An invariant between the account and the state that every step preserves holds
    after a run. -/
theorem run_account {γ : Type*} {next : γ → σ → ε → γ} {I : γ → σ → Prop} {P : ε → Prop}
    (hstep : ∀ g s e t, I g s → P e → step s e = .ok t → I (next g s e) t)
    {g : γ} {s t : σ} {es : List ε} (hs : I g s) (hP : ∀ e ∈ es, P e)
    (h : run step s es = .ok t) : I (account step next g s es) t := by
  induction es generalizing g s with
  | nil =>
    rw [run_nil] at h
    cases h
    exact hs
  | cons e es ih =>
    obtain ⟨u, he, hu⟩ := run_cons_eq_ok.mp h
    have hnext := hstep g s e u hs (hP e (by simp)) he
    have hrest := ih hnext (fun f hf => hP f (by simp [hf])) hu
    simpa only [account, he] using hrest

/-! ### Simulation with answers -/

/-- Two results that either go on in related values or stop with the same trap. -/
def Agree {α β : Type*} (R : α → β → Prop) : Except τ α → Except τ β → Prop
  | .ok a, .ok b => R a b
  | .error x, .error y => x = y
  | _, _ => False

theorem Agree.of_ok {α β : Type*} {R : α → β → Prop} {a : α} {y : Except τ β}
    (h : Agree R (.ok a) y) : ∃ b, y = .ok b ∧ R a b := by
  cases y with
  | ok b => exact ⟨b, rfl, h⟩
  | error x => exact h.elim

theorem Agree.exists_ok {α β : Type*} {R : α → β → Prop} {x : Except τ α} {b : β}
    (h : Agree R x (.ok b)) : ∃ a, x = .ok a ∧ R a b := by
  cases x with
  | ok a => exact ⟨a, rfl, h⟩
  | error t => exact h.elim

theorem Agree.of_error {α β : Type*} {R : α → β → Prop} {x : τ} {y : Except τ β}
    (h : Agree R (.error x) y) : y = .error x := by
  cases y with
  | ok b => exact h.elim
  | error z => exact congrArg Except.error h.symm

theorem Agree.eq_error {α β : Type*} {R : α → β → Prop} {x : Except τ α} {t : τ}
    (h : Agree R x (.error t : Except τ β)) : x = .error t := by
  cases x with
  | ok a => exact h.elim
  | error t' => exact congrArg Except.error h

theorem Agree.mono {α β : Type*} {R S : α → β → Prop} {x : Except τ α} {y : Except τ β}
    (h : Agree R x y) (hRS : ∀ a b, R a b → S a b) : Agree S x y := by
  rcases x with t | a
  · rw [h.of_error]
    rfl
  · obtain ⟨b, rfl, hab⟩ := h.of_ok
    exact hRS a b hab

theorem Agree.refl {α : Type*} (x : Except τ α) : Agree Eq x x := by
  rcases x with t | a
  · rfl
  · rfl

theorem Agree.bind {α β α' β' : Type} {S : α → β → Prop} {R : α' → β' → Prop}
    {x : Except τ α} {y : Except τ β} {f : α → Except τ α'} {g : β → Except τ β'}
    (h : Agree S x y) (hfg : ∀ a b, S a b → Agree R (f a) (g b)) :
    Agree R (x >>= f) (y >>= g) := by
  rcases x with t | a
  · rw [h.of_error]
    rfl
  · obtain ⟨b, rfl, hab⟩ := h.of_ok
    exact hfg a b hab

/-- A step simulation relates the ends of whole runs. -/
theorem run_agree {R : σ → σ' → Prop} {step : σ → ε → Except τ σ} {step' : σ' → ε → Except τ σ'}
    (hstep : ∀ s s' e, R s s' → Agree R (step s e) (step' s' e)) {s : σ} {s' : σ'} (hs : R s s')
    (es : List ε) : Agree R (run step s es) (run step' s' es) := by
  induction es generalizing s s' with
  | nil => exact hs
  | cons e es ih =>
    have h := hstep s s' e hs
    rcases he : step s e with x | t
    · rw [he] at h
      rw [run_cons_of_error he, run_cons_of_error h.of_error]
      rfl
    · rw [he] at h
      obtain ⟨t', he', hR⟩ := h.of_ok
      rw [run_cons_of_ok he, run_cons_of_ok he']
      exact ih hR

/-- The state a run comes to, and the trap that stopped it there. -/
def runUntil (step : σ → ε → Except τ σ) : σ → List ε → σ × Option τ
  | s, [] => (s, none)
  | s, e :: es =>
      match step s e with
      | .ok t => runUntil step t es
      | .error x => (s, some x)

theorem runUntil_agree {R : σ → σ' → Prop} {step : σ → ε → Except τ σ}
    {step' : σ' → ε → Except τ σ'}
    (hstep : ∀ s s' e, R s s' → Agree R (step s e) (step' s' e)) {s : σ} {s' : σ'} (hs : R s s')
    (es : List ε) :
    R (runUntil step s es).1 (runUntil step' s' es).1 ∧
      (runUntil step s es).2 = (runUntil step' s' es).2 := by
  induction es generalizing s s' with
  | nil => exact ⟨hs, rfl⟩
  | cons e es ih =>
    have h := hstep s s' e hs
    unfold runUntil
    rcases he : step s e with x | t
    · rw [he] at h
      rw [h.of_error]
      exact ⟨hs, rfl⟩
    · rw [he] at h
      obtain ⟨t', he', hR⟩ := h.of_ok
      rw [he']
      exact ih hR

/-! ### Translations -/

/-- One step, or none. -/
def stepOption {ε' : Type*} (step' : σ' → ε' → Except τ σ') (s' : σ') :
    Option ε' → Except τ σ'
  | none => .ok s'
  | some e' => step' s' e'

/-- What a machine below is given while one above it runs: each event of the one
    above is at most one event below. -/
def translate {ε' : Type*} (step : σ → ε → Except τ σ) (lower : σ → ε → Option ε') :
    σ → List ε → List ε'
  | _, [] => []
  | s, e :: es =>
      (lower s e).toList ++
        match step s e with
        | .ok t => translate step lower t es
        | .error _ => []

section Translate

variable {ε' : Type*} {step : σ → ε → Except τ σ} {step' : σ' → ε' → Except τ σ'}
  {lower : σ → ε → Option ε'} {below : σ → σ'} {I : σ → Prop}

/-- If each step above is the step below of its translation, or leaves the state below
    alone, then each run above is the run below of its translation. -/
theorem run_translate (hI : ∀ s e t, I s → step s e = .ok t → I t)
    (hstep : ∀ s e, I s → Agree (fun t t' => t' = below t) (step s e)
      (stepOption step' (below s) (lower s e)))
    {s : σ} (hs : I s) (es : List ε) :
    Agree (fun t t' => t' = below t) (run step s es)
      (run step' (below s) (translate step lower s es)) := by
  induction es generalizing s with
  | nil => rfl
  | cons e es ih =>
    have h := hstep s e hs
    simp only [translate]
    rcases he : step s e with x | t
    · rw [he] at h
      rw [run_cons_of_error he]
      rcases hlower : lower s e with _ | e'
      · rw [hlower] at h
        exact h.elim
      · rw [hlower] at h
        have hstop : step' (below s) e' = .error x := h.of_error
        rw [Option.toList_some, List.singleton_append, run_cons_of_error hstop]
        rfl
    · rw [he] at h
      have hrest := ih (hI s e t hs he)
      rw [run_cons_of_ok he]
      rcases hlower : lower s e with _ | e'
      · rw [hlower] at h
        rw [show below s = below t from h]
        exact hrest
      · rw [hlower] at h
        obtain ⟨t', hgo, rfl⟩ := h.of_ok
        have he' : step' (below s) e' = .ok (below t) := hgo
        rw [Option.toList_some, List.singleton_append, run_cons_of_ok he']
        exact hrest

end Translate

/-- The state after an event list and the answers given on the way. -/
def trace (step : σ → ε → Except τ (σ × ο)) : σ → List ε → Except τ (σ × List ο)
  | s, [] => .ok (s, [])
  | s, e :: es =>
      match step s e with
      | .error x => .error x
      | .ok (t, o) =>
          match trace step t es with
          | .error x => .error x
          | .ok (u, os) => .ok (u, o :: os)

/-- A step simulation that keeps the answers equal keeps the answers of whole
    runs equal, traps included. -/
theorem trace_agree {R : σ → σ' → Prop} {P : ε → Prop}
    {step : σ → ε → Except τ (σ × ο)} {step' : σ' → ε → Except τ (σ' × ο)}
    (hstep : ∀ s s' e, R s s' → P e →
      Agree (fun a b => R a.1 b.1 ∧ a.2 = b.2) (step s e) (step' s' e))
    {s : σ} {s' : σ'} (hs : R s s') {es : List ε} (hP : ∀ e ∈ es, P e) :
    Agree (fun a b => R a.1 b.1 ∧ a.2 = b.2) (trace step s es) (trace step' s' es) := by
  induction es generalizing s s' with
  | nil => exact ⟨hs, rfl⟩
  | cons e es ih =>
    have h := hstep s s' e hs (hP e (by simp))
    simp only [trace]
    cases he : step s e with
    | error x =>
      rw [he] at h
      rw [h.of_error]
      rfl
    | ok a =>
      rw [he] at h
      obtain ⟨b, hb, hR, ho⟩ := h.of_ok
      have hrest := ih hR (fun f hf => hP f (by simp [hf]))
      obtain ⟨t, o⟩ := a
      obtain ⟨t', o'⟩ := b
      simp only at hR ho hrest
      subst ho
      rw [hb]
      simp only
      cases hes : trace step t es with
      | error x =>
        rw [hes] at hrest
        rw [hrest.of_error]
        rfl
      | ok c =>
        rw [hes] at hrest
        obtain ⟨d, hd, hR', hos⟩ := hrest.of_ok
        rw [hd]
        exact ⟨hR', congrArg (o :: ·) hos⟩

end StepMachine
