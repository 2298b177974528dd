import Mathlib

/-!
# Runs of a partial step function

A system is a step function: it takes a state and an action to the next state and the events the action shows, or to nothing where the action is impossible. A run is a sequence of such steps. What is known about every state of every run is one induction, `Run.invariant`; a concrete run is found by evaluation, `exec`.
-/

namespace Transition

variable {σ α ε : Type*} {step : σ → α → Option (σ × List ε)} {ok : σ → α → Prop} {s₀ : σ}

/-- A run from `s₀` whose steps all meet `ok`: the events it has shown, oldest first, and the state it has reached. -/
inductive Run (step : σ → α → Option (σ × List ε)) (ok : σ → α → Prop) (s₀ : σ) : List ε → σ → Prop
  | start : Run step ok s₀ [] s₀
  | next {trace : List ε} {s : σ} {a : α} {s' : σ} {events : List ε} :
      Run step ok s₀ trace s → ok s a → step s a = some (s', events) → Run step ok s₀ (trace ++ events) s'

/-- A property of the events and the state that holds at the start and is kept by every step holds of every run. -/
theorem Run.invariant {I : List ε → σ → Prop} (hstart : I [] s₀)
    (hstep : ∀ trace s a s' events, I trace s → ok s a → step s a = some (s', events) → I (trace ++ events) s')
    {trace : List ε} {s : σ} (hrun : Run step ok s₀ trace s) : I trace s := by
  induction hrun with
  | start => exact hstart
  | next _ hok hs ih => exact hstep _ _ _ _ _ ih hok hs

theorem Run.state_invariant {I : σ → Prop} (hstart : I s₀)
    (hstep : ∀ s a s' events, I s → ok s a → step s a = some (s', events) → I s')
    {trace : List ε} {s : σ} (hrun : Run step ok s₀ trace s) : I s :=
  hrun.invariant (I := fun _ s => I s) hstart fun _ s a s' events => hstep s a s' events

/-- A run under a condition is a run under any condition that is weaker in the states such runs reach. -/
theorem Run.mono {ok' : σ → α → Prop} (hmono : ∀ trace s a, Run step ok s₀ trace s → ok s a → ok' s a)
    {trace : List ε} {s : σ} (hrun : Run step ok s₀ trace s) : Run step ok' s₀ trace s := by
  induction hrun with
  | start => exact .start
  | next hbefore hok hs ih => exact .next ih (hmono _ _ _ hbefore hok) hs

/-- A system whose steps another system can follow, with the same events, shows only what the other shows. -/
theorem Run.refines {τ β : Type*} {step' : τ → β → Option (τ × List ε)} {t₀ : τ} {R : σ → τ → Prop} (hstart : R s₀ t₀)
    (hstep : ∀ s t a s' events, R s t → ok s a → step s a = some (s', events) →
      ∃ b t', step' t b = some (t', events) ∧ R s' t')
    {trace : List ε} {s : σ} (hrun : Run step ok s₀ trace s) :
    ∃ t, Run step' (fun _ _ => True) t₀ trace t ∧ R s t := by
  induction hrun with
  | start => exact ⟨t₀, .start, hstart⟩
  | next _ hok hs ih =>
    obtain ⟨t, ht, hR⟩ := ih
    obtain ⟨b, t', hs', hR'⟩ := hstep _ t _ _ _ hR hok hs
    exact ⟨t', ht.next trivial hs', hR'⟩

theorem Run.trans {trace trace' : List ε} {s s' : σ} (hrun : Run step ok s₀ trace s) (hnext : Run step ok s trace' s') :
    Run step ok s₀ (trace ++ trace') s' := by
  induction hnext with
  | start => simpa using hrun
  | next _ hok hs ih =>
    rw [← List.append_assoc]
    exact ih.next hok hs

/-- Perform a list of actions, checking `ok` before each. -/
def exec (step : σ → α → Option (σ × List ε)) (ok : σ → α → Prop) [∀ s a, Decidable (ok s a)] :
    σ → List α → Option (List ε × σ)
  | s, [] => some ([], s)
  | s, a :: rest =>
    if ok s a then
      match step s a with
      | none => none
      | some (s', events) => (exec step ok s' rest).map fun r => (events ++ r.1, r.2)
    else none

theorem Run.exec [∀ s a, Decidable (ok s a)] {trace : List ε} {s : σ} (hrun : Run step ok s₀ trace s) :
    ∀ {actions : List α} {events : List ε} {s' : σ},
      Transition.exec step ok s actions = some (events, s') → Run step ok s₀ (trace ++ events) s' := by
  intro actions
  induction actions generalizing trace s with
  | nil =>
    intro events s' h
    simp only [Transition.exec, Option.some.injEq, Prod.mk.injEq] at h
    obtain ⟨rfl, rfl⟩ := h
    simpa using hrun
  | cons a rest ih =>
    intro events s' h
    rw [Transition.exec] at h
    split at h
    · rename_i hok
      split at h
      · cases h
      · rename_i s₁ first hs
        obtain ⟨⟨later, s₂⟩, hrest, heq⟩ := Option.map_eq_some_iff.mp h
        obtain ⟨rfl, rfl⟩ := Prod.mk.inj heq
        rw [← List.append_assoc]
        exact ih (hrun.next hok hs) hrest
    · cases h

theorem exists_run_of_exec [∀ s a, Decidable (ok s a)] (actions : List α) (found : List ε → σ → Bool)
    (h : ((exec step ok s₀ actions).any fun r => found r.1 r.2) = true) :
    ∃ trace s, Run step ok s₀ trace s ∧ found trace s = true := by
  cases hexec : exec step ok s₀ actions with
  | none => simp [hexec] at h
  | some r =>
    rw [hexec] at h
    exact ⟨r.1, r.2, by simpa using Run.start.exec hexec, by simpa using h⟩

end Transition
