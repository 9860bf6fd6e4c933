import Mathlib.Tactic.Common

/-!
# Machines that are started again

A machine has a state while it is up and a store that outlives it.  An event may
trap, and then the machine is down with what the step had stored by then; it may
also be stopped between two events.  Started again, it begins with what is
stored.  The rules carry an invariant of the machine, and one of the store while
the machine is down, over any number of such sessions, together with an account
of the events.
-/

namespace Sessions

variable {σ ε τ δ γ : Type*}

structure Machine (σ ε τ δ : Type*) where
  step : σ → ε → Except τ σ
  /-- What is stored when a step is over, whether it went on or trapped. -/
  left : σ → ε → δ
  /-- What is stored between two events. -/
  stored : σ → δ
  start : δ → σ

inductive Phase (σ δ : Type*) where
  | up (s : σ)
  | down (d : δ)
deriving DecidableEq

inductive Signal (ε : Type*) where
  | event (e : ε)
  | stop
  | start
deriving DecidableEq

/-- The invariant of the phase the machine is in. -/
def Phase.Holds (I : σ → Prop) (D : δ → Prop) : Phase σ δ → Prop
  | .up s => I s
  | .down d => D d

namespace Machine

variable (m : Machine σ ε τ δ)

/-- Events reach a machine that is up; it can be started when it is down. -/
def next : Phase σ δ → Signal ε → Phase σ δ
  | .up s, .event e =>
      match m.step s e with
      | .ok t => .up t
      | .error _ => .down (m.left s e)
  | .up s, .stop => .down (m.stored s)
  | .up s, .start => .up s
  | .down d, .start => .up (m.start d)
  | .down d, _ => .down d

def sessions (phase : Phase σ δ) (signals : List (Signal ε)) : Phase σ δ :=
  signals.foldl m.next phase

/-- What is stored in a phase. -/
def kept : Phase σ δ → δ
  | .up s => m.stored s
  | .down d => d

/-- `C` holds of each event that reaches the machine, and of the state it finds. -/
def AllEvents (C : σ → ε → Prop) : Phase σ δ → List (Signal ε) → Prop
  | _, [] => True
  | phase, signal :: signals =>
      (∀ s e, phase = .up s → signal = .event e → C s e) ∧ AllEvents C (m.next phase signal) signals

/-- A value kept beside the machine, which every event that reaches it updates. -/
def accountStep (next : γ → σ → ε → γ) (g : γ) : Phase σ δ → Signal ε → γ
  | .up s, .event e => next g s e
  | _, _ => g

def account (next : γ → σ → ε → γ) : γ → Phase σ δ → List (Signal ε) → γ
  | g, _, [] => g
  | g, phase, signal :: signals =>
      account next (accountStep next g phase signal) (m.next phase signal) signals

variable {m}

/-- What events, stops and starts preserve, any number of sessions preserves. -/
theorem sessions_account {next : γ → σ → ε → γ} {C : σ → ε → Prop} {I : γ → σ → Prop}
    {D : γ → δ → Prop}
    (hgo : ∀ g s e t, I g s → C s e → m.step s e = .ok t → I (next g s e) t)
    (htrap : ∀ g s e x, I g s → C s e → m.step s e = .error x → D (next g s e) (m.left s e))
    (hstop : ∀ g s, I g s → D g (m.stored s)) (hstart : ∀ g d, D g d → I g (m.start d))
    {g : γ} {phase : Phase σ δ} {signals : List (Signal ε)} (h : phase.Holds (I g) (D g))
    (hC : m.AllEvents C phase signals) :
    (m.sessions phase signals).Holds (I (m.account next g phase signals))
      (D (m.account next g phase signals)) := by
  induction signals generalizing g phase with
  | nil => exact h
  | cons signal signals ih =>
    obtain ⟨hevent, hrest⟩ := hC
    apply ih ?_ hrest
    cases phase with
    | up s =>
      cases signal with
      | event e =>
        have hs : C s e := hevent s e rfl rfl
        rcases hstep : m.step s e with x | t
        · simp only [Machine.next, hstep]
          exact htrap g s e x h hs hstep
        · simp only [Machine.next, hstep]
          exact hgo g s e t h hs hstep
      | stop => exact hstop g s h
      | start => exact h
    | down d =>
      cases signal with
      | start => exact hstart g d h
      | event e => exact h
      | stop => exact h

/-- The rule without an account. -/
theorem sessions_preserve {C : σ → ε → Prop} {I : σ → Prop} {D : δ → Prop}
    (hgo : ∀ s e t, I s → C s e → m.step s e = .ok t → I t)
    (htrap : ∀ s e x, I s → C s e → m.step s e = .error x → D (m.left s e))
    (hstop : ∀ s, I s → D (m.stored s)) (hstart : ∀ d, D d → I (m.start d))
    {phase : Phase σ δ} {signals : List (Signal ε)} (h : phase.Holds I D)
    (hC : m.AllEvents C phase signals) : (m.sessions phase signals).Holds I D :=
  @sessions_account _ _ _ _ Unit m (fun g _ _ => g) C (fun _ => I) (fun _ => D)
    (fun _ => hgo) (fun _ => htrap) (fun _ => hstop) (fun _ => hstart) () phase signals h hC

/-- A condition that holds of each event sent, in whatever state it arrives. -/
theorem allEvents_of_mem {C : σ → ε → Prop} {signals : List (Signal ε)}
    (hC : ∀ s e, .event e ∈ signals → C s e) (phase : Phase σ δ) :
    m.AllEvents C phase signals := by
  induction signals generalizing phase with
  | nil => trivial
  | cons signal signals ih =>
    refine ⟨?_, ih (fun s e he => hC s e (List.mem_cons_of_mem _ he)) _⟩
    rintro s e - rfl
    exact hC s e List.mem_cons_self

end Machine

end Sessions
