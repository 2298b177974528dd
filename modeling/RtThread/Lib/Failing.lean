import Mathlib

/-!
# Programs that go on behind an error

A program over a state with an error flag, which may also not end. An error is not taken back: what ends well has begun well, and all of its parts have ended well. `Ends` says what holds if a run ends well; it goes through a sequence of programs part by part.
-/

namespace Failing

variable {σ α β : Type} {good : σ → Prop}

def Sticky (good : σ → Prop) (x : StateT σ Option α) : Prop :=
  ∀ s a s', x s = some (a, s') → good s' → good s

def Ends (good : σ → Prop) (x : StateT σ Option α) (s : σ) (Q : α → σ → Prop) : Prop :=
  ∀ a s', x s = some (a, s') → good s' → Q a s'

theorem bind_eq_some {x : StateT σ Option α} {f : α → StateT σ Option β} {s : σ} {r : β × σ} (h : (x >>= f) s = some r) :
    ∃ a s₁, x s = some (a, s₁) ∧ f a s₁ = some r := by
  obtain ⟨⟨a, s₁⟩, hx, hf⟩ := Option.bind_eq_some_iff.1 h
  exact ⟨a, s₁, hx, hf⟩

theorem bind_run {x : StateT σ Option α} {s s₁ : σ} {a : α} (h : x s = some (a, s₁)) (f : α → StateT σ Option β) :
    (x >>= f) s = f a s₁ := by
  change (x s).bind _ = _
  rw [h]
  rfl

theorem Sticky.pure (a : α) : Sticky good (Pure.pure a : StateT σ Option α) := by
  intro s b s' h hgood
  obtain ⟨-, rfl⟩ := Prod.mk.inj (Option.some.inj h)
  exact hgood

theorem Sticky.bind {x : StateT σ Option α} {f : α → StateT σ Option β} (hx : Sticky good x) (hf : ∀ a, Sticky good (f a)) :
    Sticky good (x >>= f) := by
  intro s b s' h hgood
  obtain ⟨a, s₁, hxs, hfs⟩ := bind_eq_some h
  exact hx s a s₁ hxs (hf a s₁ b s' hfs hgood)

theorem Sticky.ite {c : Prop} [Decidable c] {x y : StateT σ Option α} (hx : Sticky good x) (hy : Sticky good y) :
    Sticky good (if c then x else y) := by
  by_cases hc : c
  · rwa [if_pos hc]
  · rwa [if_neg hc]

theorem Ends.mono {x : StateT σ Option α} {s : σ} {Q Q' : α → σ → Prop} (h : Ends good x s Q) (hQ : ∀ a s', Q a s' → Q' a s') :
    Ends good x s Q' :=
  fun a s' hx hgood => hQ a s' (h a s' hx hgood)

theorem Ends.pure {a : α} {s : σ} {Q : α → σ → Prop} (h : Q a s) : Ends good (Pure.pure a : StateT σ Option α) s Q := by
  intro b s' hx _
  obtain ⟨rfl, rfl⟩ := Prod.mk.inj (Option.some.inj hx)
  exact h

theorem Ends.bind {x : StateT σ Option α} {f : α → StateT σ Option β} {s : σ} {Q : β → σ → Prop} (hf : ∀ a, Sticky good (f a))
    (h : Ends good x s fun a s₁ => Ends good (f a) s₁ Q) : Ends good (x >>= f) s Q := by
  intro b s' hx hgood
  obtain ⟨a, s₁, hxs, hfs⟩ := bind_eq_some hx
  exact h a s₁ hxs (hf a s₁ b s' hfs hgood) b s' hfs hgood

theorem Ends.of_run {x : StateT σ Option α} {s s' : σ} {a : α} {Q : α → σ → Prop} (h : x s = some (a, s')) (hQ : Q a s') :
    Ends good x s Q := by
  intro b s'' hx _
  obtain ⟨rfl, rfl⟩ := Prod.mk.inj (Option.some.inj (h.symm.trans hx))
  exact hQ

theorem Ends.step {x : StateT σ Option α} {f : α → StateT σ Option β} {s s₁ : σ} {a : α} {Q : β → σ → Prop} (h : x s = some (a, s₁))
    (hf : Ends good (f a) s₁ Q) : Ends good (x >>= f) s Q := by
  intro b s' hx
  rw [bind_run h] at hx
  exact hf b s' hx

theorem Ends.ite {c : Prop} [Decidable c] {x y : StateT σ Option α} {s : σ} {Q : α → σ → Prop} (hx : c → Ends good x s Q)
    (hy : ¬c → Ends good y s Q) : Ends good (if c then x else y) s Q := by
  by_cases hc : c
  · rw [if_pos hc]
    exact hx hc
  · rw [if_neg hc]
    exact hy hc

end Failing
