import Mathlib

/-!
# What the events of a trace find around them

A property of traces that speaks of every event with the events before and behind it. Such a property is kept when a trace goes on if it holds of the new events, and is not lost by what comes behind.
-/

variable {ε : Type*} {P Q : List ε → ε → List ε → Prop} {trace events before after : List ε} {e e' : ε}

/-- Every event of the trace meets `P`, with the events before it and those behind it. -/
def EachEvent (P : List ε → ε → List ε → Prop) (trace : List ε) : Prop :=
  ∀ before e after, trace = before ++ e :: after → P before e after

namespace EachEvent

theorem nil : EachEvent P [] := by
  intro before e after heq
  cases before <;> cases heq

theorem append (h : EachEvent P trace) (hmono : ∀ before e after, P before e after → P before e (after ++ events))
    (hnew : ∀ before e after, events = before ++ e :: after → P (trace ++ before) e after) :
    EachEvent P (trace ++ events) := by
  intro before e after heq
  rcases List.append_eq_append_iff.1 heq with ⟨rest, rfl, hevents⟩ | ⟨rest, htrace, hcons⟩
  · exact hnew rest e after hevents
  · cases rest with
    | nil =>
      have hP := hnew [] e after hcons.symm
      rw [htrace, List.append_nil, List.append_nil] at hP
      exact hP
    | cons e' rest =>
      obtain ⟨rfl, rfl⟩ := List.cons.inj hcons
      exact hmono _ _ _ (h before e rest htrace)

theorem concat (h : EachEvent P trace) (hmono : ∀ before e after, P before e after → P before e (after ++ [e']))
    (hnew : P trace e' []) : EachEvent P (trace ++ [e']) := by
  apply h.append hmono
  intro before e after heq
  cases before with
  | nil =>
    obtain ⟨rfl, rfl⟩ := List.cons.inj heq
    rw [List.append_nil]
    exact hnew
  | cons e₁ before => cases before <;> cases (List.cons.inj heq).2

end EachEvent
