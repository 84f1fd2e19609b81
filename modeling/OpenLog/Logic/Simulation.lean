import Mathlib.Data.Option.Basic
import Mathlib.Data.List.Basic

/-!
# Systems that do what a simpler one does

Systems whose actions come with a result: a step of one is a partial function
`next : σ → α → Option (σ × β)`. One of them *simulates* another along a relation of their states
(`OpenLog.Logic.Simulates`) if in related states each action that the other one can do is possible
in it, with the same result, and leads to related states. What the other one cannot do is left
open. Then each run of the other is one of the first, with the same results
(`OpenLog.Logic.Simulates.results`).
-/

namespace OpenLog

namespace Logic

variable {σ τ α β : Type*} {next : σ → α → Option (σ × β)} {next' : τ → α → Option (τ × β)}
variable {R : σ → τ → Prop} {s : σ} {t : τ}

/-- The results of a list of actions and the state that they lead to, `none` if one of them is not
possible. -/
def results (next : σ → α → Option (σ × β)) : σ → List α → Option (σ × List β)
  | s, [] => some (s, [])
  | s, a :: as =>
    (next s a).bind fun r => (results next r.1 as).map fun rs => (rs.1, r.2 :: rs.2)

/-- In related states, what is possible in the second system is possible in the first, with the
same result. -/
def Simulates (next : σ → α → Option (σ × β)) (next' : τ → α → Option (τ × β))
    (R : σ → τ → Prop) : Prop :=
  ∀ s t a t' b, R s t → next' t a = some (t', b) → ∃ s', next s a = some (s', b) ∧ R s' t'

/-- **Runs of a system that is simulated.** -/
theorem Simulates.results {as : List α} {t' : τ} {bs : List β} (h : Simulates next next' R)
    (hR : R s t) (hrun : results next' t as = some (t', bs)) :
    ∃ s', Logic.results next s as = some (s', bs) ∧ R s' t' := by
  induction as generalizing s t bs with
  | nil =>
    obtain ⟨rfl, rfl⟩ := Prod.mk.inj (Option.some.inj hrun)
    exact ⟨s, rfl, hR⟩
  | cons a as ih =>
    obtain ⟨⟨t₁, b⟩, hstep, hcons⟩ := Option.bind_eq_some_iff.mp hrun
    obtain ⟨⟨t₂, bs'⟩, hrest, heq⟩ := Option.map_eq_some_iff.mp hcons
    obtain ⟨rfl, rfl⟩ := Prod.mk.inj heq
    obtain ⟨s₁, hstep', hR₁⟩ := h s t a t₁ b hR hstep
    obtain ⟨s₂, hrest', hR₂⟩ := ih hR₁ hrest
    exact ⟨s₂, Option.bind_eq_some_iff.mpr ⟨(s₁, b), hstep',
      Option.map_eq_some_iff.mpr ⟨(s₂, bs'), hrest', rfl⟩⟩, hR₂⟩

end Logic

end OpenLog
