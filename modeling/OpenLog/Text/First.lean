import Mathlib.Data.List.Basic
import Mathlib.Order.Basic

/-!
# The first element with a property

Where a list has an element with a property it falls apart into what comes before the first such
element, that element, and the rest (`OpenLog.Text.exists_first`); what comes before, with the
element, is a beginning of the list (`OpenLog.Text.exists_first_take`). In a list that falls the
first element with a property is the greatest that has it
(`OpenLog.Text.find?_eq_some_iff_of_pairwise`).
-/

namespace OpenLog

namespace Text

variable {α : Type*} {P : α → Prop} {as l : List α} {c : α}

open Classical in
/-- A list is cut in front of its first element with a property. -/
theorem exists_first (h : ∃ a ∈ as, P a) :
    ∃ bs a cs, as = bs ++ a :: cs ∧ P a ∧ ∀ b ∈ bs, ¬P b := by
  have hsome : (as.find? fun a => decide (P a)).isSome = true := by
    simpa [List.find?_isSome] using h
  obtain ⟨a, ha⟩ := Option.isSome_iff_exists.mp hsome
  obtain ⟨hPa, bs, cs, rfl, hbs⟩ := List.find?_eq_some_iff_append.mp ha
  exact ⟨bs, a, cs, rfl, by simpa using hPa, fun b hb => by simpa using hbs b hb⟩

/-- A list up to its first element with a property, which is a beginning of it. -/
theorem exists_first_take (h : ∃ a ∈ as, P a) :
    ∃ bs a, bs ++ [a] = as.take (bs.length + 1) ∧ P a ∧ (∀ b ∈ bs, ¬P b) ∧
      ∀ b ∈ bs ++ [a], b ∈ as := by
  obtain ⟨bs, a, cs, rfl, ha, hbs⟩ := exists_first h
  have htake : bs ++ [a] = (bs ++ a :: cs).take (bs.length + 1) := by
    simp [List.take_append, List.take_of_length_le]
  exact ⟨bs, a, htake, ha, hbs, fun b hb => List.mem_of_mem_take (htake ▸ hb)⟩

/-- **In a list that falls**, the first element with a property is the greatest that has it. -/
theorem find?_eq_some_iff_of_pairwise [Preorder α] {p : α → Bool} (hl : l.Pairwise (· > ·)) :
    l.find? p = some c ↔ c ∈ l ∧ p c = true ∧ ∀ d ∈ l, c < d → p d = false := by
  induction l with
  | nil => simp
  | cons a l ih =>
    obtain ⟨ha, hl⟩ := List.pairwise_cons.mp hl
    rw [List.find?_cons]
    cases hp : p a with
    | false =>
      rw [ih hl]
      grind
    | true =>
      rw [Option.some_inj]
      constructor
      · rintro rfl
        refine ⟨List.mem_cons_self, hp, fun d hd hlt => ?_⟩
        rcases List.mem_cons.mp hd with rfl | hd
        · exact absurd hlt (lt_irrefl _)
        · exact absurd hlt (lt_asymm (ha d hd))
      · rintro ⟨hc, -, hlast⟩
        rcases List.mem_cons.mp hc with rfl | hc
        · rfl
        · rw [hlast a List.mem_cons_self (ha c hc)] at hp
          cases hp

end Text

end OpenLog
