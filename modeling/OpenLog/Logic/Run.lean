import Mathlib.Logic.Relation
import Mathlib.Data.Option.Basic

/-!
# Runs of a transition system

A transition system is a partial function `next : σ → α → Option σ`: the state
reached from a state by an action, `none` where the action is not enabled. All
the nondeterminism of a system sits in its actions.

`OpenLog.Logic.ReachVia` collects the states reached from the initial ones by
actions that all meet a condition `C` on the state they start from and on
themselves; `OpenLog.Logic.Reach` is the case of no condition. The rule for both is
`OpenLog.Logic.ReachVia.invariant`: what holds initially and survives every step
that meets the condition holds in every state reached. A concrete run is checked
by computing it, with `OpenLog.Logic.exec`.
-/

namespace OpenLog

namespace Logic

variable {σ α : Type*} {next : σ → α → Option σ} {I : σ → Prop} {C D : σ → α → Prop}
variable {s s' : σ} {a : α}

/-! ### States reached -/

/-- One move of a system: a step by some action that meets the condition. -/
def Moves (next : σ → α → Option σ) (C : σ → α → Prop) (s s' : σ) : Prop :=
  ∃ a, C s a ∧ next s a = some s'

/-- The states reached from a state of `I` by steps that all meet `C`. -/
def ReachVia (next : σ → α → Option σ) (I : σ → Prop) (C : σ → α → Prop) (s : σ) : Prop :=
  ∃ s₀, I s₀ ∧ Relation.ReflTransGen (Moves next C) s₀ s

/-- The states reached from a state of `I`. -/
def Reach (next : σ → α → Option σ) (I : σ → Prop) (s : σ) : Prop :=
  ReachVia next I (fun _ _ => True) s

/-- An initial state is reached. -/
theorem ReachVia.start (h : I s) : ReachVia next I C s :=
  ⟨s, h, Relation.ReflTransGen.refl⟩

/-- A step that meets the condition leads from a state reached to another. -/
theorem ReachVia.step (h : ReachVia next I C s) (hC : C s a) (hs : next s a = some s') :
    ReachVia next I C s' := by
  obtain ⟨s₀, h₀, hr⟩ := h
  exact ⟨s₀, h₀, hr.tail ⟨a, hC, hs⟩⟩

/-- The same without a condition. -/
theorem Reach.start (h : I s) : Reach next I s :=
  ReachVia.start h

theorem Reach.step (h : Reach next I s) (hs : next s a = some s') : Reach next I s' :=
  ReachVia.step h trivial hs

/-- A weaker condition reaches at least as much. -/
theorem ReachVia.mono (hCD : ∀ s a, C s a → D s a) (h : ReachVia next I C s) :
    ReachVia next I D s := by
  obtain ⟨s₀, h₀, hr⟩ := h
  have hmoves : Moves next C ≤ Moves next D := by
    rintro s₁ s₂ ⟨a, hC, hs⟩
    exact ⟨a, hCD s₁ a hC, hs⟩
  exact ⟨s₀, h₀, Relation.ReflTransGen.mono hmoves s₀ s hr⟩

/-- What is reached under a condition is reached. -/
theorem ReachVia.reach (h : ReachVia next I C s) : Reach next I s :=
  h.mono fun _ _ _ => trivial

/-- **The invariant rule.** What holds initially and survives every step that
meets the condition holds in every state reached. -/
theorem ReachVia.invariant {P : σ → Prop} (hinit : ∀ s, I s → P s)
    (hstep : ∀ s a s', P s → C s a → next s a = some s' → P s') (h : ReachVia next I C s) :
    P s := by
  obtain ⟨s₀, h₀, hr⟩ := h
  induction hr with
  | refl => exact hinit _ h₀
  | tail _ hm ih =>
    obtain ⟨a, hC, hs⟩ := hm
    exact hstep _ a _ ih hC hs

/-- The invariant rule without a condition. -/
theorem Reach.invariant {P : σ → Prop} (hinit : ∀ s, I s → P s)
    (hstep : ∀ s a s', P s → next s a = some s' → P s') (h : Reach next I s) : P s :=
  ReachVia.invariant hinit (fun s a s' hP _ => hstep s a s' hP) h

/-! ### Computed runs -/

/-- The state reached by a list of actions, `none` if one of them is not enabled. -/
def exec (next : σ → α → Option σ) : σ → List α → Option σ
  | s, [] => some s
  | s, a :: as => (next s a).bind fun s' => exec next s' as

/-- A system restricted to the steps that meet a condition. -/
def restrict (next : σ → α → Option σ) (C : σ → α → Prop) [∀ s a, Decidable (C s a)]
    (s : σ) (a : α) : Option σ :=
  if C s a then next s a else none

/-- A run that is computed in the restricted system reaches its last state. -/
theorem ReachVia.of_exec [∀ s a, Decidable (C s a)] {as : List α}
    (h : ReachVia next I C s) (he : exec (restrict next C) s as = some s') :
    ReachVia next I C s' := by
  induction as generalizing s with
  | nil =>
    obtain rfl : s = s' := by simpa [exec] using he
    exact h
  | cons a as ih =>
    obtain ⟨s₁, h₁, h₂⟩ := Option.bind_eq_some_iff.mp he
    by_cases hC : C s a
    · exact ih (h.step hC (by simpa [restrict, hC] using h₁)) h₂
    · simp [restrict, hC] at h₁

/-- A computed run reaches its last state. -/
theorem Reach.of_exec {as : List α} (h : Reach next I s) (he : exec next s as = some s') :
    Reach next I s' := by
  induction as generalizing s with
  | nil =>
    obtain rfl : s = s' := by simpa [exec] using he
    exact h
  | cons a as ih =>
    obtain ⟨s₁, h₁, h₂⟩ := Option.bind_eq_some_iff.mp he
    exact ih (h.step h₁) h₂

end Logic

end OpenLog
