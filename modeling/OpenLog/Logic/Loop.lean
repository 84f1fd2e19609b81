import Mathlib.Data.Nat.Init
import Mathlib.Logic.Relation

/-!
# Loops that are left from inside

A loop `while true` whose body either leaves it with a result or ends in the state in which the
body is entered again: a function `body : σ → β ⊕ σ`. `OpenLog.Logic.Reaches` relates the states
at the head of the loop, and `OpenLog.Logic.Ends` says that the loop is left with a result.

What holds at every turn is proved with `OpenLog.Logic.Reaches.invariant`.

## Leaving and staying

A loop whose states get smaller at every turn is left
(`OpenLog.Logic.exists_ends_of_measure`), and one that keeps returning into a set of states from
which it is not left is not (`OpenLog.Logic.not_ends_of_invariant`). One that can also stay as it
is comes to a state in which it does so for ever, or is left
(`OpenLog.Logic.ends_or_spins_of_measure`).
-/

namespace OpenLog

namespace Logic

variable {σ β : Type*} {body : σ → β ⊕ σ} {s s' : σ} {b b' : β}

/-- The states at the head of the loop, from the one in which it is entered. -/
def Reaches (body : σ → β ⊕ σ) : σ → σ → Prop :=
  Relation.ReflTransGen fun s s' => body s = .inr s'

/-- The loop, entered in a state, is left with a result. -/
def Ends (body : σ → β ⊕ σ) (s : σ) (b : β) : Prop :=
  ∃ s', Reaches body s s' ∧ body s' = .inl b

theorem Reaches.refl (s : σ) : Reaches body s s := Relation.ReflTransGen.refl

theorem Reaches.tail {s₀ : σ} (h : Reaches body s₀ s) (hs : body s = .inr s') :
    Reaches body s₀ s' :=
  Relation.ReflTransGen.tail h hs

theorem Reaches.head {s₀ : σ} (hs : body s₀ = .inr s) (h : Reaches body s s') :
    Reaches body s₀ s' :=
  Relation.ReflTransGen.head hs h

/-- **The invariant rule.** -/
theorem Reaches.invariant {P : σ → Prop} (h : Reaches body s s') (hinit : P s)
    (hstep : ∀ s s', P s → body s = .inr s' → P s') : P s' := by
  induction h with
  | refl => exact hinit
  | tail _ hs ih => exact hstep _ _ ih hs

/-! ### Leaving the loop -/

theorem Ends.of_inl (h : body s = .inl b) : Ends body s b := ⟨s, .refl s, h⟩

/-- A turn of the loop does not change how it is left. -/
theorem ends_iff_of_inr (h : body s = .inr s') : Ends body s b ↔ Ends body s' b := by
  constructor
  · rintro ⟨t, hr, ht⟩
    rcases Relation.ReflTransGen.cases_head hr with rfl | ⟨u, hu, hr⟩
    · rw [h] at ht
      cases ht
    · rw [h] at hu
      obtain rfl := Sum.inr.inj hu
      exact ⟨t, hr, ht⟩
  · rintro ⟨t, hr, ht⟩
    exact ⟨t, hr.head h, ht⟩

/-- Nor do the turns up to a state that is reached. -/
theorem Reaches.ends_iff (h : Reaches body s s') : Ends body s b ↔ Ends body s' b := by
  induction h with
  | refl => exact Iff.rfl
  | tail _ hs ih => exact ih.trans (ends_iff_of_inr hs)

/-- **A loop whose states get smaller is left.** -/
theorem exists_ends_of_measure (m : σ → ℕ) {P : σ → Prop} (hP : P s)
    (hstep : ∀ s s', P s → body s = .inr s' → P s' ∧ m s' < m s) : ∃ b, Ends body s b := by
  induction hn : m s using Nat.strong_induction_on generalizing s with
  | _ n ih =>
    rcases hs : body s with b | s'
    · exact ⟨b, .of_inl hs⟩
    · obtain ⟨hP', hlt⟩ := hstep s s' hP hs
      obtain ⟨b, hb⟩ := ih (m s') (hn ▸ hlt) hP' rfl
      exact ⟨b, (ends_iff_of_inr hs).mpr hb⟩

/-- **A loop that keeps returning into a set of states** is not left. -/
theorem not_ends_of_invariant {P : σ → Prop} (hP : P s)
    (hstep : ∀ s, P s → ∃ s', body s = .inr s' ∧ P s') (b : β) : ¬Ends body s b := by
  rintro ⟨t, hr, ht⟩
  have hPt : P t := by
    refine hr.invariant hP fun u u' hu hs => ?_
    obtain ⟨u'', hs', hu''⟩ := hstep u hu
    rw [hs'] at hs
    exact Sum.inr.inj hs ▸ hu''
  obtain ⟨t', ht', -⟩ := hstep t hPt
  rw [ht] at ht'
  cases ht'

/-! ### Staying in the loop -/

/-- The loop, entered in a state, comes to one whose turn leads back to itself. -/
def Spins (body : σ → β ⊕ σ) (s : σ) : Prop := ∃ s', Reaches body s s' ∧ body s' = .inr s'

/-- Then it is not left. -/
theorem Spins.not_ends (h : Spins body s) (b : β) : ¬Ends body s b := by
  obtain ⟨t, hr, ht⟩ := h
  intro hends
  refine not_ends_of_invariant (P := (· = t)) rfl ?_ b (hr.ends_iff.mp hends)
  intro u hu
  exact ⟨t, hu ▸ ht, rfl⟩

theorem Spins.head (hs : body s = .inr s') (h : Spins body s') : Spins body s := by
  obtain ⟨t, hr, ht⟩ := h
  exact ⟨t, hr.head hs, ht⟩

/-- **A loop whose turns make its states smaller or leave them as they are** is left or spins. -/
theorem ends_or_spins_of_measure (m : σ → ℕ) {P : σ → Prop} (hP : P s)
    (hstep : ∀ s s', P s → body s = .inr s' → P s' ∧ (m s' < m s ∨ s' = s)) :
    (∃ b, Ends body s b) ∨ Spins body s := by
  induction hn : m s using Nat.strong_induction_on generalizing s with
  | _ n ih =>
    rcases hs : body s with b | s'
    · exact .inl ⟨b, .of_inl hs⟩
    · obtain ⟨hP', hlt | rfl⟩ := hstep s s' hP hs
      · rcases ih (m s') (hn ▸ hlt) hP' rfl with ⟨b, hb⟩ | hspins
        · exact .inl ⟨b, (ends_iff_of_inr hs).mpr hb⟩
        · exact .inr (hspins.head hs)
      · exact .inr ⟨s', .refl s', hs⟩

end Logic

end OpenLog
