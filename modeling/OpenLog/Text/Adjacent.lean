import Mathlib

/-!
# Neighbours in a sorted list

Two entries of a list are *adjacent* if one directly follows the other. In a sorted list
nothing of the list lies strictly between two adjacent entries
(`OpenLog.Text.Adjacent.not_between`), and an entry that is not the greatest has a next one
that is greater (`OpenLog.Text.exists_adjacent`). The list may have repetitions.
`OpenLog.Text.neighbours` lists the adjacent pairs by their positions.
-/

namespace OpenLog

namespace Text

variable {α : Type*}

/-- `b` directly follows `a` somewhere in the list. -/
def Adjacent (l : List α) (a b : α) : Prop := [a, b] <:+: l

theorem not_adjacent_nil {a b : α} : ¬Adjacent [] a b := by
  simp [Adjacent]

/-- One entry has no neighbour. -/
theorem not_adjacent_singleton {a b c : α} : ¬Adjacent [c] a b := by
  intro h
  have hlen := h.length_le
  simp at hlen

/-- Two entries are adjacent at the beginning of a list or behind its first entry. The
inductions below go along this case split. -/
theorem adjacent_cons_cons {a b c d : α} {l : List α} :
    Adjacent (c :: d :: l) a b ↔ (a = c ∧ b = d) ∨ Adjacent (d :: l) a b := by
  simp [Adjacent, List.infix_cons_iff (a := c)]

theorem Adjacent.mem_left {l : List α} {a b : α} (h : Adjacent l a b) : a ∈ l :=
  h.subset List.mem_cons_self

theorem Adjacent.mem_right {l : List α} {a b : α} (h : Adjacent l a b) : b ∈ l :=
  h.subset (List.mem_cons_of_mem _ List.mem_cons_self)

/-- The adjacent pairs of a list, in order. -/
def neighbours (l : List α) : List (α × α) := l.zip l.tail

@[simp] theorem neighbours_nil : neighbours ([] : List α) = [] := rfl

@[simp] theorem neighbours_singleton (a : α) : neighbours [a] = [] := rfl

@[simp] theorem neighbours_cons_cons (a b : α) (l : List α) :
    neighbours (a :: b :: l) = (a, b) :: neighbours (b :: l) := rfl

/-- The pairs that are listed are the adjacent ones. -/
theorem mem_neighbours {l : List α} {p : α × α} : p ∈ neighbours l ↔ Adjacent l p.1 p.2 := by
  induction l with
  | nil => simp [not_adjacent_nil]
  | cons a l ih =>
    cases l with
    | nil => simp [not_adjacent_singleton]
    | cons b l => rw [neighbours_cons_cons, List.mem_cons, ih, adjacent_cons_cons, Prod.ext_iff]

/-- The pair at a position consists of the entries at this position and the next. -/
theorem getElem?_neighbours {l : List α} {i : ℕ} {p : α × α} :
    (neighbours l)[i]? = some p ↔ l[i]? = some p.1 ∧ l[i + 1]? = some p.2 := by
  rw [neighbours, List.getElem?_zip_eq_some, List.getElem?_tail]

section Order

variable [LinearOrder α] {l : List α} {a b c : α}

/-- Nothing lies strictly between two adjacent entries. -/
theorem Adjacent.not_between (hl : l.Pairwise (· ≤ ·)) (h : Adjacent l a b) (hc : c ∈ l) :
    c ≤ a ∨ b ≤ c := by
  induction l with
  | nil => exact absurd h not_adjacent_nil
  | cons d l ih =>
    obtain ⟨hd, hsorted⟩ := List.pairwise_cons.mp hl
    cases l with
    | nil => exact absurd h not_adjacent_singleton
    | cons e l =>
      rcases adjacent_cons_cons.mp h with ⟨rfl, rfl⟩ | hrest
      · rcases List.mem_cons.mp hc with rfl | hc
        · exact .inl (le_refl _)
        · rcases List.mem_cons.mp hc with rfl | hc
          · exact .inr (le_refl _)
          · exact .inr ((List.pairwise_cons.mp hsorted).1 c hc)
      · rcases List.mem_cons.mp hc with rfl | hc
        · exact .inl (hd a hrest.mem_left)
        · exact ih hsorted hrest hc

/-- An entry with a greater one in the list has a next greater one, which stands next to it. -/
theorem exists_adjacent (hl : l.Pairwise (· ≤ ·)) (ha : a ∈ l) (hc : c ∈ l) (hac : a < c) :
    ∃ b, Adjacent l a b ∧ a < b := by
  induction l with
  | nil => cases ha
  | cons d l ih =>
    obtain ⟨hd, hsorted⟩ := List.pairwise_cons.mp hl
    have hcl : c ∈ l := by
      rcases List.mem_cons.mp hc with rfl | hcl
      · rcases List.mem_cons.mp ha with rfl | hal
        · exact absurd hac (lt_irrefl _)
        · exact absurd hac (not_lt_of_ge (hd a hal))
      · exact hcl
    by_cases hal : a ∈ l
    · obtain ⟨b, hb, hab⟩ := ih hsorted hal hcl
      cases l with
      | nil => cases hal
      | cons e l => exact ⟨b, adjacent_cons_cons.mpr (.inr hb), hab⟩
    · -- the last copy of `a` is followed by something else
      obtain rfl : a = d := (List.mem_cons.mp ha).resolve_right hal
      cases l with
      | nil => cases hcl
      | cons e l =>
        refine ⟨e, adjacent_cons_cons.mpr (.inl ⟨rfl, rfl⟩), ?_⟩
        exact lt_of_le_of_ne (hd e List.mem_cons_self) fun h => hal (h ▸ List.mem_cons_self)

/-- The adjacent pairs of a sorted list are sorted. -/
theorem neighbours_pairwise (hl : l.Pairwise (· ≤ ·)) :
    (neighbours l).Pairwise fun p q => p.2 ≤ q.1 := by
  induction l with
  | nil => exact List.Pairwise.nil
  | cons a l ih =>
    cases l with
    | nil => exact List.Pairwise.nil
    | cons b l =>
      obtain ⟨-, hsorted⟩ := List.pairwise_cons.mp hl
      refine List.pairwise_cons.mpr ⟨fun p hp => ?_, ih hsorted⟩
      rcases List.mem_cons.mp (mem_neighbours.mp hp).mem_left with heq | hmem
      · exact le_of_eq heq.symm
      · exact (List.pairwise_cons.mp hsorted).1 p.1 hmem

end Order

end Text

end OpenLog
