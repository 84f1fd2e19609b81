import Mathlib.Data.List.Infix
import Mathlib.Data.List.TakeDrop
import OpenLog.Text.Lines

/-!
# Reading a file in pieces

A reader with a buffer takes a file in pieces: up to the next terminator, which belongs to the
piece, or as many symbols as the buffer holds, whichever comes first
(`OpenLog.Text.getPiece`). `OpenLog.Text.pieces` lists the pieces of a file.

A line that fits into the buffer is one piece, and a longer one is cut at the multiples of the
size of the buffer (`OpenLog.Text.getElem?_pieces`). Pieces do not reach over the end of a line
(`OpenLog.Text.pieces_eq_flatMap`).
-/

namespace OpenLog

namespace Text

variable {α : Type*} [DecidableEq α] {nl : α} {size room : ℕ} {cs : List α}

variable (nl) in
/-- The next piece of a file, of at most `room` symbols, and what is left of the file. -/
def getPiece : ℕ → List α → List α × List α
  | 0, cs => ([], cs)
  | _ + 1, [] => ([], [])
  | room + 1, c :: cs =>
    if c = nl then ([c], cs) else (c :: (getPiece room cs).1, (getPiece room cs).2)

variable (nl size) in
/-- The pieces of a file, the first of them of at most `room` symbols. -/
def piecesFrom : ℕ → List α → List (List α)
  | _, [] => []
  | room, c :: cs =>
    if c = nl ∨ room ≤ 1 then [c] :: piecesFrom size cs
    else match piecesFrom (room - 1) cs with
      | [] => [[c]]
      | p :: ps => (c :: p) :: ps

variable (nl size) in
/-- The pieces of a file that is read with a buffer for `size` symbols. -/
def pieces (file : List α) : List (List α) := piecesFrom nl size size file

@[simp] theorem pieces_nil : pieces nl size [] = [] := rfl

/-- The definition of `piecesFrom` follows the symbols, so that it recurses structurally; this
is the same function piece by piece, as the reader calls `getPiece`. -/
theorem piecesFrom_eq (hroom : 0 < room) (hcs : cs ≠ []) : piecesFrom nl size room cs =
    (getPiece nl room cs).1 :: pieces nl size (getPiece nl room cs).2 := by
  induction cs generalizing room with
  | nil => exact absurd rfl hcs
  | cons c cs ih =>
    obtain ⟨room, rfl⟩ : ∃ n, room = n + 1 := ⟨room - 1, by omega⟩
    rw [piecesFrom, getPiece]
    by_cases hc : c = nl
    · simp [hc, pieces]
    · cases room with
      | zero => simp [hc, getPiece, pieces]
      | succ room =>
        have hlast : ¬(c = nl ∨ room + 1 + 1 ≤ 1) := by
          rintro (h | h)
          · exact hc h
          · omega
        rw [if_neg hlast, if_neg hc, Nat.add_sub_cancel]
        cases cs with
        | nil => simp [piecesFrom, getPiece]
        | cons d cs => rw [ih (Nat.succ_pos _) (List.cons_ne_nil _ _)]

/-- **The pieces are read one after the other.** -/
theorem pieces_eq (hsize : 0 < size) (hcs : cs ≠ []) : pieces nl size cs =
    (getPiece nl size cs).1 :: pieces nl size (getPiece nl size cs).2 :=
  piecesFrom_eq hsize hcs

/-! ### One line -/

/-- A line: a terminator only at its end, if at all. -/
def IsLine (nl : α) (l : List α) : Prop := nl ∉ l.dropLast

omit [DecidableEq α] in
/-- What has no terminator is a line, the last of a file, -/
theorem isLine_of_not_mem {l : List α} (h : nl ∉ l) : IsLine nl l :=
  fun hmem => h (List.mem_of_mem_dropLast hmem)

omit [DecidableEq α] in
/-- and so is what ends with its only one. -/
theorem isLine_terminated {l : List α} (h : nl ∉ l) : IsLine nl (l ++ [nl]) := by
  rwa [IsLine, List.dropLast_concat]

omit [DecidableEq α] in
/-- The rest of a line is a line. -/
theorem IsLine.drop {l : List α} (h : IsLine nl l) (n : ℕ) : IsLine nl (l.drop n) := by
  rw [IsLine, List.dropLast_drop_eq_drop_dropLast]
  exact fun hmem => h (List.mem_of_mem_drop hmem)

/-- Of a line a piece is what fits into the buffer. -/
theorem getPiece_line {l : List α} (h : IsLine nl l) (room : ℕ) :
    getPiece nl room l = (l.take room, l.drop room) := by
  induction l generalizing room with
  | nil => cases room <;> rfl
  | cons c l ih =>
    cases room with
    | zero => rfl
    | succ room =>
      rw [getPiece, List.take_succ_cons, List.drop_succ_cons]
      cases l with
      | nil => cases room <;> simp [getPiece]
      | cons d l =>
        rw [IsLine, List.dropLast_cons_cons, List.mem_cons, not_or] at h
        rw [if_neg (Ne.symm h.1), ih h.2]

/-- The first piece of a line is as much of it as the buffer holds. -/
theorem pieces_line (hsize : 0 < size) {l : List α} (h : IsLine nl l) (hl : l ≠ []) :
    pieces nl size l = l.take size :: pieces nl size (l.drop size) := by
  rw [pieces_eq hsize hl, getPiece_line h]

/-- **The pieces of a line** begin at the multiples of the size of the buffer. -/
theorem getElem?_pieces (hsize : 0 < size) {l : List α} (h : IsLine nl l) (k : ℕ) :
    (pieces nl size l)[k]? =
      if size * k < l.length then some ((l.drop (size * k)).take size) else none := by
  induction k generalizing l with
  | zero =>
    by_cases hl : l = []
    · simp [hl]
    · have hpos : 0 < l.length := List.length_pos_iff.mpr hl
      rw [pieces_line hsize h hl]
      simp [hpos]
  | succ k ih =>
    by_cases hl : l = []
    · simp [hl]
    · rw [pieces_line hsize h hl, List.getElem?_cons_succ, ih (h.drop size), List.length_drop,
        List.drop_drop, Nat.mul_succ, Nat.add_comm size]
      congr 1
      rw [eq_iff_iff]
      omega

/-- A line that fits into the buffer is one piece. -/
theorem pieces_short {l : List α} (h : IsLine nl l) (hl : l ≠ []) (hsize : l.length ≤ size) :
    pieces nl size l = [l] := by
  rw [pieces_line (Nat.lt_of_lt_of_le (List.length_pos_iff.mpr hl) hsize) h hl,
    List.take_of_length_le hsize, List.drop_of_length_le hsize, pieces_nil]

/-- A piece does not reach over the end of a line. -/
theorem pieces_line_append (hsize : 0 < size) {l : List α} (h : nl ∉ l) (cs : List α) :
    pieces nl size (l ++ nl :: cs) = pieces nl size (l ++ [nl]) ++ pieces nl size cs := by
  have hgen : ∀ room, 0 < room → piecesFrom nl size room (l ++ nl :: cs) =
      piecesFrom nl size room (l ++ [nl]) ++ pieces nl size cs := by
    induction l with
    | nil =>
      intro room _
      simp [piecesFrom, pieces]
    | cons c l ih =>
      obtain ⟨hc, hl⟩ := List.ne_and_not_mem_of_not_mem_cons h
      intro room hroom
      rw [List.cons_append, List.cons_append, piecesFrom, piecesFrom]
      by_cases hlast : c = nl ∨ room ≤ 1
      · rw [if_pos hlast, if_pos hlast, ih hl size hsize, List.cons_append]
      · have hroom' : 0 < room - 1 := by
          rw [not_or] at hlast
          omega
        rw [if_neg hlast, if_neg hlast, ih hl _ hroom', piecesFrom_eq hroom' (by simp)]
        rfl
  exact hgen size hsize

/-! ### All lines -/

variable (nl) in
/-- The lines of a file, with their terminators. -/
def fullLines : List α → List (List α)
  | [] => []
  | c :: cs =>
    if c = nl then [c] :: fullLines cs
    else match fullLines cs with
      | [] => [[c]]
      | l :: ls => (c :: l) :: ls

/-- A line with its terminator. -/
def Terminated (nl : α) (l : List α) : Prop := ∃ l', nl ∉ l' ∧ l = l' ++ [nl]

omit [DecidableEq α] in
/-- What is terminated is a line. -/
theorem Terminated.isLine {l : List α} (h : Terminated nl l) : IsLine nl l := by
  obtain ⟨l', hl', rfl⟩ := h
  exact isLine_terminated hl'

omit [DecidableEq α] in
theorem Terminated.ne_nil {l : List α} (h : Terminated nl l) : l ≠ [] := by
  obtain ⟨l', -, rfl⟩ := h
  simp

/-- The first line of a file that starts with a whole line. -/
theorem fullLines_terminated_append {l : List α} (hl : Terminated nl l) (cs : List α) :
    fullLines nl (l ++ cs) = l :: fullLines nl cs := by
  obtain ⟨l, hl, rfl⟩ := hl
  induction l with
  | nil => simp [fullLines]
  | cons c l ih =>
    obtain ⟨hc, hl⟩ := List.ne_and_not_mem_of_not_mem_cons hl
    rw [List.cons_append, List.cons_append, fullLines, if_neg hc.symm, ih hl]

/-- Whole lines in front of a file are its first lines. -/
theorem fullLines_flatten_append {ls : List (List α)} (h : ∀ l ∈ ls, Terminated nl l)
    (cs : List α) : fullLines nl (ls.flatten ++ cs) = ls ++ fullLines nl cs := by
  induction ls with
  | nil => rfl
  | cons l ls ih =>
    rw [List.forall_mem_cons] at h
    rw [List.flatten_cons, List.append_assoc, fullLines_terminated_append h.1, ih h.2,
      List.cons_append]

/-- Whole lines one after the other are the lines of what they make up. -/
theorem fullLines_flatten {ls : List (List α)} (h : ∀ l ∈ ls, Terminated nl l) :
    fullLines nl ls.flatten = ls := by
  have happend := fullLines_flatten_append h []
  rwa [List.append_nil, show fullLines nl [] = [] from rfl, List.append_nil] at happend

/-- A file without a terminator is one line, unless it is empty. -/
theorem fullLines_of_not_mem {l : List α} (hl : nl ∉ l) :
    fullLines nl l = if l = [] then [] else [l] := by
  induction l with
  | nil => rfl
  | cons c l ih =>
    obtain ⟨hc, hl⟩ := List.ne_and_not_mem_of_not_mem_cons hl
    rw [fullLines, if_neg hc.symm, ih hl]
    cases l <;> simp

/-- Every file consists of whole lines and what stands after them. -/
theorem exists_flatten (nl : α) (cs : List α) : ∃ ls rest, cs = List.flatten ls ++ rest ∧
    (∀ l ∈ ls, Terminated nl l) ∧ nl ∉ rest := by
  obtain ⟨ls, rest, rfl, hls, hrest⟩ := exists_writeLines nl cs
  refine ⟨ls.map (· ++ [nl]), rest, ?_, ?_, hrest⟩
  · rw [writeLines, List.flatMap_def]
  · intro l hl
    obtain ⟨l', hl', rfl⟩ := List.mem_map.mp hl
    exact ⟨l', hls l' hl', rfl⟩

/-- The lines of a file are lines, and none of them is empty. -/
theorem isLine_of_mem_fullLines {l : List α} (h : l ∈ fullLines nl cs) :
    IsLine nl l ∧ l ≠ [] := by
  obtain ⟨ls, rest, rfl, hls, hrest⟩ := exists_flatten nl cs
  rw [fullLines_flatten_append hls, fullLines_of_not_mem hrest, List.mem_append] at h
  rcases h with h | h
  · exact ⟨(hls l h).isLine, (hls l h).ne_nil⟩
  · split_ifs at h with hnil
    · cases h
    · obtain rfl := List.mem_singleton.mp h
      exact ⟨isLine_of_not_mem hrest, hnil⟩

/-- **The pieces of a file** are those of its lines. -/
theorem pieces_eq_flatMap (hsize : 0 < size) (file : List α) :
    pieces nl size file = (fullLines nl file).flatMap (pieces nl size) := by
  obtain ⟨ls, rest, rfl, hls, hrest⟩ := exists_flatten nl file
  rw [fullLines_flatten_append hls, fullLines_of_not_mem hrest, List.flatMap_append]
  induction ls with
  | nil =>
    split_ifs with hnil
    · simp [hnil]
    · simp
  | cons l ls ih =>
    rw [List.forall_mem_cons] at hls
    obtain ⟨l', hl', rfl⟩ := hls.1
    rw [List.flatten_cons, List.append_assoc, List.append_assoc, List.singleton_append,
      pieces_line_append hsize hl', ih hls.2, List.flatMap_cons, List.append_assoc]

/-- The pieces of a file whose lines fit into the buffer are its lines. -/
theorem pieces_eq_fullLines (file : List α)
    (h : ∀ l ∈ fullLines nl file, l.length ≤ size) (hsize : 0 < size) :
    pieces nl size file = fullLines nl file := by
  rw [pieces_eq_flatMap hsize]
  have hline : ∀ l ∈ fullLines nl file, pieces nl size l = [l] := fun l hl =>
    pieces_short (isLine_of_mem_fullLines hl).1 (isLine_of_mem_fullLines hl).2 (h l hl)
  rw [List.flatMap_congr hline, List.flatMap_singleton']

end Text

end OpenLog
