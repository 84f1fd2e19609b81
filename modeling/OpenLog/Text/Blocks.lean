import Mathlib.Data.List.Basic

/-!
# Blocks of a list

A list is cut at the elements that satisfy a test: every such element opens a
**block**, which runs up to but not including the next one or the end of the list.
What stands before the first of them belongs to no block.

`OpenLog.Text.blocks` computes the cut from the right, so that a prefix of the
list never has to be remembered. That it is the intended cut is said by three
facts: the list is the leading part followed by the blocks
(`OpenLog.Text.blocks_join`), every block is opened by an element that satisfies
the test and continued by elements that do not (`OpenLog.Text.blocks_head`,
`OpenLog.Text.blocks_body`), and no other cut has these two properties
(`OpenLog.Text.blocks_unique`).
-/

namespace OpenLog

namespace Text

variable {α : Type*} {p : α → Bool}

/-- The part of a list before its first opening element, and its blocks, each
given by the opening element and the elements after it. -/
def blocks (p : α → Bool) : List α → List α × List (α × List α)
  | [] => ([], [])
  | a :: l =>
    if p a then ([], (a, (blocks p l).1) :: (blocks p l).2)
    else (a :: (blocks p l).1, (blocks p l).2)

/-- The elements of a block. -/
def blockElems (b : α × List α) : List α := b.1 :: b.2

@[simp] theorem blocks_nil : blocks p [] = ([], []) := rfl

theorem blocks_cons_of_pos {a : α} (h : p a = true) (l : List α) :
    blocks p (a :: l) = ([], (a, (blocks p l).1) :: (blocks p l).2) := by
  simp [blocks, h]

theorem blocks_cons_of_neg {a : α} (h : p a = false) (l : List α) :
    blocks p (a :: l) = (a :: (blocks p l).1, (blocks p l).2) := by
  simp [blocks, h]

/-- The cut loses nothing and repeats nothing. -/
theorem blocks_join (l : List α) :
    (blocks p l).1 ++ (blocks p l).2.flatMap blockElems = l := by
  induction l with
  | nil => rfl
  | cons a l ih =>
    rcases h : p a with _ | _
    · rw [blocks_cons_of_neg h]
      simpa using ih
    · rw [blocks_cons_of_pos h]
      simpa [blockElems] using ih

/-- Every block is opened by an element that satisfies the test. -/
theorem blocks_head {l : List α} {b : α × List α} (hb : b ∈ (blocks p l).2) : p b.1 = true := by
  induction l with
  | nil => simp at hb
  | cons a l ih =>
    rcases h : p a with _ | _
    · rw [blocks_cons_of_neg h] at hb
      exact ih hb
    · rw [blocks_cons_of_pos h] at hb
      rcases List.mem_cons.mp hb with rfl | hb
      · exact h
      · exact ih hb

/-- The leading part contains no opening element. -/
theorem blocks_lead {l : List α} : ∀ a ∈ (blocks p l).1, p a = false := by
  induction l with
  | nil => simp
  | cons a l ih =>
    rcases h : p a with _ | _
    · rw [blocks_cons_of_neg h]
      simpa [h] using ih
    · rw [blocks_cons_of_pos h]
      simp

/-- A block contains no opening element after its first. -/
theorem blocks_body {l : List α} {b : α × List α} (hb : b ∈ (blocks p l).2) :
    ∀ a ∈ b.2, p a = false := by
  induction l with
  | nil => simp at hb
  | cons a l ih =>
    rcases h : p a with _ | _
    · rw [blocks_cons_of_neg h] at hb
      exact ih hb
    · rw [blocks_cons_of_pos h] at hb
      rcases List.mem_cons.mp hb with rfl | hb
      · exact blocks_lead
      · exact ih hb

/-- A run of elements that open no block joins the part before the first block. -/
theorem blocks_append_of_neg {as : List α} (h : ∀ a ∈ as, p a = false) (l : List α) :
    blocks p (as ++ l) = (as ++ (blocks p l).1, (blocks p l).2) := by
  induction as with
  | nil => rfl
  | cons a as ih =>
    rw [List.cons_append, blocks_cons_of_neg (h a List.mem_cons_self),
      ih fun a' ha' => h a' (List.mem_cons_of_mem _ ha')]
    rfl

/-- **The cut is the only one** into a leading part without an opening element and
blocks that are each opened by one and contain no other. -/
theorem blocks_unique {as : List α} {bs : List (α × List α)} (has : ∀ a ∈ as, p a = false)
    (hhead : ∀ b ∈ bs, p b.1 = true) (hbody : ∀ b ∈ bs, ∀ a ∈ b.2, p a = false) :
    blocks p (as ++ bs.flatMap blockElems) = (as, bs) := by
  induction bs generalizing as with
  | nil =>
    rw [List.flatMap_nil, blocks_append_of_neg has]
    simp
  | cons b bs ih =>
    -- the body of `b` is the leading part of what follows its head
    have hrest : blocks p (b.2 ++ bs.flatMap blockElems) = (b.2, bs) :=
      ih (hbody b List.mem_cons_self)
        (fun b' hb' => hhead b' (List.mem_cons_of_mem _ hb'))
        (fun b' hb' => hbody b' (List.mem_cons_of_mem _ hb'))
    rw [blocks_append_of_neg has, List.flatMap_cons, blockElems, List.cons_append,
      blocks_cons_of_pos (hhead b List.mem_cons_self), hrest, List.append_nil]

end Text

end OpenLog
