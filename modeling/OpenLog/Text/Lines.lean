import Mathlib.Data.List.Basic

/-!
# Files as lists of lines

A file is a list of symbols, one of which ends a line. `OpenLog.Text.readLines`
cuts a file into its lines the way a line reader with `chomp` does: every line
loses its terminator, and a last line without a terminator still counts.
`OpenLog.Text.writeLines` writes lines back, each of them terminated.

The two are inverse where they can be: what is written reads back unchanged
(`OpenLog.Text.readLines_writeLines`) as soon as no line contains the terminator,
and the lines of a file never do (`OpenLog.Text.not_mem_of_mem_readLines`). The
other way round fails for a file whose last line is not terminated.
-/

namespace OpenLog

namespace Text

variable {α : Type*} [DecidableEq α] {nl : α}

variable (nl) in
/-- The lines of a file, without their terminators. -/
def readLines : List α → List (List α)
  | [] => []
  | c :: cs =>
    if c = nl then [] :: readLines cs
    else match readLines cs with
      | [] => [[c]]
      | l :: ls => (c :: l) :: ls

/-- Lines written one after the other, each followed by the terminator. -/
def writeLines {α : Type*} (nl : α) (ls : List (List α)) : List α :=
  ls.flatMap fun l => l ++ [nl]

@[simp] theorem readLines_nil : readLines nl [] = [] := rfl

/-- A terminator at the beginning is the end of an empty line. -/
@[simp] theorem readLines_terminator (cs : List α) :
    readLines nl (nl :: cs) = [] :: readLines nl cs := by
  simp [readLines]

omit [DecidableEq α] in
@[simp] theorem writeLines_nil : writeLines nl [] = [] := rfl

omit [DecidableEq α] in
@[simp] theorem writeLines_cons (l : List α) (ls : List (List α)) :
    writeLines nl (l :: ls) = l ++ nl :: writeLines nl ls := by
  simp [writeLines]

omit [DecidableEq α] in
@[simp] theorem writeLines_append (ls ls' : List (List α)) :
    writeLines nl (ls ++ ls') = writeLines nl ls ++ writeLines nl ls' := by
  simp [writeLines]

/-- A line of a file never contains the terminator. -/
theorem not_mem_of_mem_readLines {cs : List α} : ∀ {l}, l ∈ readLines nl cs → nl ∉ l := by
  induction cs with
  | nil => simp
  | cons c cs ih =>
    intro l hl
    by_cases hc : c = nl
    · rw [hc, readLines_terminator] at hl
      rcases List.mem_cons.mp hl with rfl | hl
      · simp
      · exact ih hl
    · rw [readLines, if_neg hc] at hl
      rcases hls : readLines nl cs with _ | ⟨l', ls⟩
      · rw [hls] at hl
        obtain rfl : l = [c] := by simpa using hl
        simpa using Ne.symm hc
      · rw [hls] at hl ih
        rcases List.mem_cons.mp hl with rfl | hl
        · have hl' : nl ∉ l' := ih List.mem_cons_self
          simpa [Ne.symm hc] using hl'
        · exact ih (List.mem_cons_of_mem _ hl)

/-- The first line of a file that starts with a whole line. -/
theorem readLines_append_terminator {l : List α} (hl : nl ∉ l) (cs : List α) :
    readLines nl (l ++ nl :: cs) = l :: readLines nl cs := by
  induction l with
  | nil => simp
  | cons c l ih =>
    have hc : c ≠ nl := fun h => hl (h ▸ List.mem_cons_self)
    have hl' : nl ∉ l := fun h => hl (List.mem_cons_of_mem _ h)
    rw [List.cons_append, readLines, if_neg hc, ih hl']

/-- **What is written reads back unchanged.** -/
theorem readLines_writeLines {ls : List (List α)} (h : ∀ l ∈ ls, nl ∉ l) :
    readLines nl (writeLines nl ls) = ls := by
  induction ls with
  | nil => rfl
  | cons l ls ih =>
    rw [writeLines_cons, readLines_append_terminator (h l List.mem_cons_self),
      ih fun l' hl' => h l' (List.mem_cons_of_mem _ hl')]

/-! ### The end of a file -/

variable (nl) in
/-- What stands after the last terminator. -/
def unfinished : List α → List α
  | [] => []
  | c :: cs => if nl ∈ c :: cs then unfinished cs else c :: cs

/-- Every file consists of whole lines and what stands after the last terminator. -/
theorem exists_writeLines (nl : α) (cs : List α) : ∃ ls rest, cs = writeLines nl ls ++ rest ∧
    (∀ l ∈ ls, nl ∉ l) ∧ nl ∉ rest := by
  induction cs with
  | nil => exact ⟨[], [], rfl, by simp, by simp⟩
  | cons c cs ih =>
    obtain ⟨ls, rest, rfl, hls, hrest⟩ := ih
    by_cases hc : c = nl
    · exact ⟨[] :: ls, rest, by simp [hc], by simpa using hls, hrest⟩
    · cases ls with
      | nil => exact ⟨[], c :: rest, rfl, by simp, by simpa [Ne.symm hc] using hrest⟩
      | cons l ls =>
        rw [List.forall_mem_cons] at hls
        refine ⟨(c :: l) :: ls, rest, by simp, ?_, hrest⟩
        rw [List.forall_mem_cons]
        exact ⟨by simpa [Ne.symm hc] using hls.1, hls.2⟩

/-- Whole lines in front of a file are its first lines. -/
theorem readLines_writeLines_append {ls : List (List α)} (h : ∀ l ∈ ls, nl ∉ l) (cs : List α) :
    readLines nl (writeLines nl ls ++ cs) = ls ++ readLines nl cs := by
  induction ls with
  | nil => rfl
  | cons l ls ih =>
    rw [List.forall_mem_cons] at h
    rw [writeLines_cons, List.append_assoc, List.cons_append, readLines_append_terminator h.1,
      ih h.2, List.cons_append]

/-- A file without a terminator is one line, unless it is empty. -/
theorem readLines_of_not_mem {l : List α} (hl : nl ∉ l) :
    readLines nl l = if l = [] then [] else [l] := by
  induction l with
  | nil => rfl
  | cons c l ih =>
    obtain ⟨hc, hl⟩ := List.ne_and_not_mem_of_not_mem_cons hl
    rw [readLines, if_neg hc.symm, ih hl]
    cases l <;> simp

/-- A file without a terminator is all unfinished. -/
theorem unfinished_of_not_mem {l : List α} (hl : nl ∉ l) : unfinished nl l = l := by
  cases l with
  | nil => rfl
  | cons c l => rw [unfinished, if_neg hl]

/-- What stands before a terminator is not at the end. -/
theorem unfinished_append_terminator (l cs : List α) :
    unfinished nl (l ++ nl :: cs) = unfinished nl cs := by
  induction l with
  | nil => simp [unfinished]
  | cons c l ih =>
    rw [List.cons_append, unfinished, if_pos (by simp), ih]

/-- Behind whole lines stands what no terminator follows. -/
theorem unfinished_writeLines_append (ls : List (List α)) {rest : List α} (h : nl ∉ rest) :
    unfinished nl (writeLines nl ls ++ rest) = rest := by
  induction ls with
  | nil => exact unfinished_of_not_mem h
  | cons l ls ih =>
    rw [writeLines_cons, List.append_assoc, List.cons_append, unfinished_append_terminator, ih]

/-- There are as many terminators as whole lines. -/
theorem count_writeLines_append {ls : List (List α)} (h : ∀ l ∈ ls, nl ∉ l) {rest : List α}
    (hrest : nl ∉ rest) : (writeLines nl ls ++ rest).count nl = ls.length := by
  induction ls with
  | nil => exact List.count_eq_zero_of_not_mem hrest
  | cons l ls ih =>
    rw [List.forall_mem_cons] at h
    rw [writeLines_cons, List.append_assoc, List.cons_append, List.count_append,
      List.count_eq_zero_of_not_mem h.1, List.count_cons_self, ih h.2, List.length_cons,
      Nat.zero_add]

/-! ### Numbered lines -/

section Numbered

variable {β : Type*} {l : List β} {n : ℕ} {a : β}

/-- The elements of a list with their numbers, from `1` on. -/
def numbered {β : Type*} (l : List β) : List (ℕ × β) := (l.zipIdx 1).map Prod.swap

/-- The element at position `i` has the number `i + 1`. -/
theorem getElem?_numbered (l : List β) (i : ℕ) :
    (numbered l)[i]? = l[i]?.map fun a => (i + 1, a) := by
  simp [numbered, Function.comp_def, Nat.add_comm]

/-- A number belongs to the element at the position before it. -/
theorem mem_numbered : (n, a) ∈ numbered l ↔ ∃ i, n = i + 1 ∧ l[i]? = some a := by
  rw [List.mem_iff_getElem?]
  refine exists_congr fun i => ?_
  rw [getElem?_numbered, Option.map_eq_some_iff]
  constructor
  · rintro ⟨b, hb, heq⟩
    obtain ⟨rfl, rfl⟩ := Prod.mk.inj heq
    exact ⟨rfl, hb⟩
  · rintro ⟨rfl, ha⟩
    exact ⟨a, ha, rfl⟩

/-- Every element gets one number. -/
theorem length_numbered (l : List β) : (numbered l).length = l.length := by
  simp [numbered]

/-- The numbers run from `1` to the length. -/
theorem le_of_mem_numbered (h : (n, a) ∈ numbered l) : 1 ≤ n ∧ n ≤ l.length := by
  obtain ⟨i, rfl, hi⟩ := mem_numbered.mp h
  obtain ⟨hlt, -⟩ := List.getElem?_eq_some_iff.mp hi
  omega

theorem mem_of_mem_numbered (h : (n, a) ∈ numbered l) : a ∈ l := by
  obtain ⟨i, -, hi⟩ := mem_numbered.mp h
  exact List.mem_of_getElem? hi

/-- A number is that of one element. -/
theorem eq_of_mem_numbered {b : β} (ha : (n, a) ∈ numbered l) (hb : (n, b) ∈ numbered l) :
    a = b := by
  obtain ⟨i, rfl, hi⟩ := mem_numbered.mp ha
  obtain ⟨j, hj, hb⟩ := mem_numbered.mp hb
  obtain rfl : i = j := by omega
  exact Option.some.inj (hi.symm.trans hb)

/-- Every number up to the length is that of an element. -/
theorem exists_mem_numbered (hn : 1 ≤ n) (hl : n ≤ l.length) : ∃ a, (n, a) ∈ numbered l :=
  ⟨l[n - 1], mem_numbered.mpr ⟨n - 1, by omega, List.getElem?_eq_getElem (by omega)⟩⟩

/-- What is appended does not change the numbers before it. -/
theorem mem_numbered_append {l' : List β} (hn : n ≤ l.length) :
    (n, a) ∈ numbered (l ++ l') ↔ (n, a) ∈ numbered l := by
  rw [mem_numbered, mem_numbered]
  refine exists_congr fun i => and_congr_right fun hi => ?_
  rw [List.getElem?_append_left (by omega)]

/-- A further element gets the next number. -/
theorem mem_numbered_concat {b : β} :
    (n, a) ∈ numbered (l ++ [b]) ↔ (n, a) ∈ numbered l ∨ (n = l.length + 1 ∧ a = b) := by
  by_cases hn : n ≤ l.length
  · rw [mem_numbered_append hn]
    exact ⟨.inl, fun h => h.resolve_right fun h => by omega⟩
  · constructor
    · intro h
      obtain ⟨i, rfl, hi⟩ := mem_numbered.mp h
      have hle := (le_of_mem_numbered h).2
      rw [List.length_append, List.length_singleton] at hle
      obtain rfl : i = l.length := by omega
      rw [List.getElem?_concat_length] at hi
      exact .inr ⟨rfl, (Option.some.inj hi).symm⟩
    · rintro (h | ⟨rfl, rfl⟩)
      · exact absurd (le_of_mem_numbered h).2 hn
      · exact mem_numbered.mpr ⟨l.length, rfl, List.getElem?_concat_length⟩

/-- The numbers go up. -/
theorem numbered_pairwise (l : List β) : (numbered l).Pairwise fun x y => x.1 < y.1 := by
  have hfst : (numbered l).map Prod.fst = List.range' 1 l.length := by
    rw [numbered, List.map_map, ← List.zipIdx_map_snd 1 l]
    rfl
  exact List.pairwise_map.mp (hfst ▸ List.pairwise_lt_range')

end Numbered

end Text

end OpenLog
