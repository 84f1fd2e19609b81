import OpenLog.LogAssistant.ReadLineNum
import OpenLog.Text.First

/-!
# Files that `readLineNum` reads

The files that `fileOutput` reads consist of lines that start with a number and a colon. Of short
lines those that start otherwise are to be skipped, which goes wrong behind a line that starts
with digits and something else than a colon (`OpenLog.LogAssistant.reads_short_iff`). Of long
lines, which the seg file has, the number at the start is to be returned and nothing else, which
goes wrong where a line has a digit at a multiple of 99 bytes from its start
(`OpenLog.LogAssistant.reads_long_iff`).

What is read wrongly can come out right by chance: behind `12 a`, skipping `125:` and taking
` at 5:` for its number. So the conditions are exact for the beginnings of a file, whatever they
go on with.
-/

namespace OpenLog

namespace LogAssistant

open Text

variable {file : List Char} {l p q : List Char} {ls ps mid : List (List Char)} {n : ℕ}

/-! ### Files of whole lines -/

/-- `fgets` never reads over a newline: what the calls on a file return is what they return on
its lines, one after the other. -/
theorem fgets_eq_flatMap (file : List Char) :
    fgets file = (fullLines '\n' file).flatMap fgets :=
  pieces_eq_flatMap (by decide) file

/-- Behind whole lines the calls go on as at the beginning of a file. This is what makes
statements about the beginnings of a file possible. -/
theorem fgets_flatten_append (h : ∀ l ∈ ls, Terminated '\n' l) (rest : List Char) :
    fgets (ls.flatten ++ rest) = ls.flatMap fgets ++ fgets rest := by
  rw [fgets_eq_flatMap, fullLines_flatten_append h, List.flatMap_append, ← fgets_eq_flatMap rest]

/-- The same with nothing behind the lines. -/
theorem fgets_flatten (h : ∀ l ∈ ls, Terminated '\n' l) :
    fgets ls.flatten = ls.flatMap fgets := by
  have happend := fgets_flatten_append h []
  rwa [List.append_nil, show fgets [] = [] from rfl, List.append_nil] at happend

theorem terminated_lostLine : Terminated '\n' (lostLine ++ ['\n']) :=
  ⟨lostLine, by decide, rfl⟩

/-- The further line that the refutations append fits into the buffer. -/
theorem fgets_lostLine : fgets (lostLine ++ ['\n']) = [lostLine ++ ['\n']] :=
  pieces_short terminated_lostLine.isLine terminated_lostLine.ne_nil (by decide)

/-- What holds of the lines of the two parts of a file holds of the lines of the whole. -/
theorem forall_fullLines_append {P : List Char → Prop} {rest : List Char}
    (hls : ∀ l ∈ ls, Terminated '\n' l) (h : ∀ l ∈ ls, P l)
    (hrest : ∀ l ∈ fullLines '\n' rest, P l) : ∀ l ∈ fullLines '\n' (ls.flatten ++ rest), P l := by
  intro l hl
  rw [fullLines_flatten_append hls] at hl
  rcases List.mem_append.mp hl with hl | hl
  · exact h l hl
  · exact hrest l hl

/-- A file is read right up to its last piece if the others are regular. -/
theorem readsFrom_concat (hps : ∀ p ∈ ps, Regular p)
    (hdigits : (leadingDigits p).length < charArrayLen) :
    ReadsFrom Locals.init (ps ++ [p]) ((ps ++ [p]).filterMap lineNumber) := by
  obtain ⟨newLine, h⟩ := readsFrom_append hps []
  rw [List.filterMap_append]
  refine (h _ _).mpr ?_
  cases hnumber : lineNumber p with
  | none =>
    rw [List.filterMap_cons_none hnumber]
    exact readsFrom_singleton hdigits hnumber
  | some n =>
    rw [List.filterMap_cons_some hnumber]
    exact .next (startReadLine_number hdigits hnumber) (.last rfl)

/-- A file with an irregular piece is read wrongly, as it is or with a further line: behind the
piece the pointers are not set back, so that either a number is read that is none, or that of
the further line goes unnoticed. -/
theorem not_reads_of_digit (hls : ∀ l ∈ ls, Terminated '\n' l)
    (hfile : ls.flatMap fgets = ps ++ q :: mid) (hps : ∀ p ∈ ps, Regular p)
    (hq : leadingDigits q ≠ []) (hreads : Reads ls.flatten (ps.filterMap lineNumber)) :
    ¬Reads (ls.flatten ++ (lostLine ++ ['\n'])) (ps.filterMap lineNumber ++ [1]) := by
  obtain ⟨newLine, h⟩ := readsFrom_append hps []
  rw [Reads, fgets_flatten hls, hfile, ← List.append_nil (ps.filterMap lineNumber)] at hreads
  rw [Reads, fgets_flatten_append hls, fgets_lostLine, hfile, List.append_assoc]
  exact fun hlost => not_readsFrom_of_digit hq ((h _ _).mp hreads) ((h _ _).mp hlost)

/-- **Beginnings of a file.** If good lines are read right, and a file whose last line is bad is
not, as it is or with a further line, then the beginnings of a file are read right however they go
on exactly if its lines are good. -/
theorem forall_beginnings_iff {P Q R S : List Char → Prop}
    (hgood : ∀ (as : List (List Char)) rest, (∀ l ∈ as, l ∈ ls) → (∀ l ∈ as, P l) → R rest →
      S rest → Q (as.flatten ++ rest))
    (hbad : ∀ as l, (∀ l' ∈ as ++ [l], l' ∈ ls) → (∀ l' ∈ as, P l') → ¬P l →
      Q (as ++ [l]).flatten → ¬Q ((as ++ [l]).flatten ++ (lostLine ++ ['\n'])))
    (hnil : R [] ∧ S []) (hlost : R (lostLine ++ ['\n']) ∧ S (lostLine ++ ['\n'])) :
    (∀ k rest, R rest → S rest → Q ((ls.take k).flatten ++ rest)) ↔ ∀ l ∈ ls, P l := by
  constructor
  · intro hright
    by_contra! hexists
    obtain ⟨as, l, hread, hl, has, hmem⟩ := exists_first_take hexists
    have hnow := hright (as.length + 1) [] hnil.1 hnil.2
    have hlater := hright (as.length + 1) _ hlost.1 hlost.2
    rw [← hread, List.append_nil] at hnow
    rw [← hread] at hlater
    exact hbad as l hmem (fun l' hl' => not_not.mp (has l' hl')) hl hnow hlater
  · intro hall k rest hrest hrest'
    have htake : ∀ l ∈ ls.take k, l ∈ ls := fun l hl => List.mem_of_mem_take hl
    exact hgood _ rest htake (fun l hl => hall l (htake l hl)) hrest hrest'

/-! ### Short lines -/

/-- The numbers of the lines of a file that start with digits and a colon. -/
def numbers (file : List Char) : List ℕ := (fullLines '\n' file).filterMap lineNumber

/-- The lines of a file with their newlines have at most 99 bytes, and they start with at most
five digits. -/
def Short (file : List Char) : Prop :=
  ∀ l ∈ fullLines '\n' file, l.length ≤ 99 ∧ (leadingDigits l).length ≤ 5

/-- No line of the file starts with digits and then something else than a colon. -/
def Unbroken (file : List Char) : Prop := ∀ l ∈ fullLines '\n' file, ¬Broken l

instance (file : List Char) : Decidable (Short file) :=
  inferInstanceAs (Decidable (∀ l ∈ fullLines '\n' file, _ ∧ _))

instance (file : List Char) : Decidable (Unbroken file) :=
  inferInstanceAs (Decidable (∀ l ∈ fullLines '\n' file, _))

/-- Each call of `fgets` on a file of short lines returns one of its lines. -/
theorem Short.fgets_eq (h : Short file) : fgets file = fullLines '\n' file :=
  pieces_eq_fullLines file (fun l hl => (h l hl).1) (by decide)

/-- The digits of such a line fit into `charArray` with the final zero. -/
theorem Short.digits (h : Short file) (hl : l ∈ fullLines '\n' file) :
    (leadingDigits l).length < charArrayLen :=
  Nat.lt_succ_of_le (h l hl).2

/-- A file of short lines is read right if none of them is broken. Only the last line may be:
there is no number behind it that could be lost. -/
theorem reads_short (h : Short file) (hdrop : ∀ l ∈ (fullLines '\n' file).dropLast, ¬Broken l) :
    Reads file (numbers file) := by
  rw [Reads, h.fgets_eq, numbers]
  rcases List.eq_nil_or_concat' (fullLines '\n' file) with hnil | ⟨ls, l, hlines⟩
  · rw [hnil]
    exact .last rfl
  · rw [hlines, List.dropLast_concat] at hdrop
    have hmem : ∀ l' ∈ ls ++ [l], (leadingDigits l').length < charArrayLen := fun l' hl' =>
      h.digits (hlines ▸ hl')
    rw [hlines]
    exact readsFrom_concat (fun l' hl' => ⟨hmem l' (List.mem_append_left _ hl'), hdrop l' hl'⟩)
      (hmem l (by simp))

/-- The further line starts with a number. -/
theorem numbers_append_lostLine (hls : ∀ l ∈ ls, Terminated '\n' l) :
    numbers (ls.flatten ++ (lostLine ++ ['\n'])) = numbers ls.flatten ++ [1] := by
  rw [numbers, numbers, fullLines_flatten_append hls, fullLines_flatten hls,
    List.filterMap_append]
  rfl

/-- A broken line is read wrongly, as it is or with a further line. -/
theorem not_reads_of_broken (hls : ∀ l' ∈ ls ++ [l], Terminated '\n' l')
    (hshort : Short (ls ++ [l]).flatten) (hunbroken : ∀ l' ∈ ls, ¬Broken l') (hl : Broken l)
    (hreads : Reads (ls ++ [l]).flatten (numbers (ls ++ [l]).flatten)) :
    ¬Reads ((ls ++ [l]).flatten ++ (lostLine ++ ['\n']))
      (numbers ((ls ++ [l]).flatten ++ (lostLine ++ ['\n']))) := by
  have hpieces : (ls ++ [l]).flatMap fgets = ls ++ l :: [] := by
    rw [← fgets_flatten hls, hshort.fgets_eq, fullLines_flatten hls]
  have hnumbers : numbers (ls ++ [l]).flatten = ls.filterMap lineNumber := by
    rw [numbers, fullLines_flatten hls, List.filterMap_append]
    simp [hl.2]
  have hregular : ∀ p ∈ ls, Regular p := by
    intro p hp
    refine ⟨hshort.digits ?_, hunbroken p hp⟩
    rw [fullLines_flatten hls]
    exact List.mem_append_left _ hp
  rw [hnumbers] at hreads
  rw [numbers_append_lostLine hls, hnumbers]
  exact not_reads_of_digit hls hpieces hregular hl.1 hreads

/-- The beginnings of a file are read right, however they go on without broken lines, exactly if no
line is broken. -/
theorem reads_beginnings_iff_short (hls : ∀ l ∈ ls, Terminated '\n' l) (hshort : Short ls.flatten) :
    (∀ k rest, Short rest → Unbroken rest →
      Reads ((ls.take k).flatten ++ rest) (numbers ((ls.take k).flatten ++ rest))) ↔
        ∀ l ∈ ls, ¬Broken l := by
  rw [Short, fullLines_flatten hls] at hshort
  have hshort' : ∀ as : List (List Char), (∀ l ∈ as, l ∈ ls) → Short as.flatten := by
    intro as has l hl
    rw [fullLines_flatten fun l hl => hls l (has l hl)] at hl
    exact hshort l (has l hl)
  refine forall_beginnings_iff (Q := fun file => Reads file (numbers file))
    (fun as rest has hunbroken hrest hrest' => ?_) (fun as l has hunbroken hl => ?_)
    ⟨by decide, by decide⟩ ⟨by decide, by decide⟩
  · have hls' : ∀ l ∈ as, Terminated '\n' l := fun l hl => hls l (has l hl)
    refine reads_short (forall_fullLines_append hls' (fun l hl => hshort l (has l hl)) hrest) ?_
    intro l hl
    exact forall_fullLines_append hls' hunbroken hrest' l (List.mem_of_mem_dropLast hl)
  · exact not_reads_of_broken (fun l' hl' => hls l' (has l' hl')) (hshort' _ has) hunbroken
      (not_not.mp hl)

/-- The whole lines that a file starts with. -/
theorem forall_of_flatten_isStart {P : List Char → Prop} (hls : ∀ l ∈ ls, Terminated '\n' l)
    (hstart : ls.flatten <+: file) (h : ∀ l ∈ fullLines '\n' file, P l) : ∀ l ∈ ls, P l := by
  obtain ⟨rest, rfl⟩ := hstart
  rw [fullLines_flatten_append hls] at h
  exact fun l hl => h l (List.mem_append_left _ hl)

/-- **Short lines.** A file is read right if no line but its last is broken. Conversely the
beginnings of its whole lines are read right, however they go on without broken lines, exactly
if none of them is broken. The numbers that are to be read are those of the lines that start
with digits and a colon. -/
theorem reads_short_iff (file : List Char) (hshort : Short file) :
    ((∀ l ∈ (fullLines '\n' file).dropLast, ¬Broken l) → Reads file (numbers file)) ∧
    ∀ ls : List (List Char), (∀ l ∈ ls, Terminated '\n' l) → ls.flatten <+: file →
      ((∀ k rest, Short rest → Unbroken rest →
        Reads ((ls.take k).flatten ++ rest) (numbers ((ls.take k).flatten ++ rest))) ↔
          ∀ l ∈ ls, ¬Broken l) := by
  refine ⟨reads_short hshort, fun ls hls hstart => reads_beginnings_iff_short hls ?_⟩
  rw [Short, fullLines_flatten hls]
  exact forall_of_flatten_isStart hls hstart hshort

/-- The conditions of the result on short lines are met by a file with a line that starts with
no number and with digits in the last line that no colon follows. -/
theorem reads_short_example : Reads "12:a\nfoo\n3:b\n9".toList [12, 3] :=
  (reads_short_iff "12:a\nfoo\n3:b\n9".toList (by decide)).1 (by decide)

/-- **A number is lost** behind a broken line. -/
theorem number_lost : Short "12 a\n34:foo\n".toList ∧ numbers "12 a\n34:foo\n".toList = [34] ∧
    ¬Reads "12 a\n34:foo\n".toList [34] := by
  refine ⟨by decide, by decide, fun hreads => ?_⟩
  have hend : readLineNum (fgets "12 a\n34:foo\n".toList) = some (none, []) := by
    decide
  cases hreads.eq_nil hend

/-! ### Long lines -/

/-- A line that starts with one to five digits and a colon. -/
def Marked (l : List Char) : Prop :=
  1 ≤ (leadingDigits l).length ∧ (leadingDigits l).length ≤ 5 ∧
    (l.dropWhile Char.isDigit).head? = some seperater

/-- No piece of the line but the first starts with a digit. -/
def CutsClean (l : List Char) : Prop := ∀ k, ∀ c ∈ l[99 * (k + 1)]?, c.isDigit = false

/-- All lines of the file start with a number. -/
def AllMarked (file : List Char) : Prop := ∀ l ∈ fullLines '\n' file, Marked l

/-- No line of the file has a digit at a cut. -/
def AllCutClean (file : List Char) : Prop := ∀ l ∈ fullLines '\n' file, CutsClean l

/-- The number that each line starts with. -/
def startNumbers (file : List Char) : List ℕ :=
  (fullLines '\n' file).map fun l => atoi (leadingDigits l)

instance (l : List Char) : Decidable (Marked l) := inferInstanceAs (Decidable (_ ∧ _ ∧ _))

instance (file : List Char) : Decidable (AllMarked file) :=
  inferInstanceAs (Decidable (∀ l ∈ fullLines '\n' file, _))

/-- The number of a line with a mark is read off its digits. -/
theorem Marked.lineNumber_eq (h : Marked l) : lineNumber l = some (atoi (leadingDigits l)) := by
  rw [lineNumber, if_pos ⟨List.ne_nil_of_length_pos h.1, h.2.2⟩]

/-- The first piece of a line has the digits and the colon. -/
theorem Marked.take (h : Marked l) : Marked (l.take (lineLen - 1)) ∧
    leadingDigits (l.take (lineLen - 1)) = leadingDigits l := by
  obtain ⟨hpos, hdigits, hsep⟩ := h
  obtain ⟨cs, hl⟩ := exists_eq_append_seperater hsep
  have htake : l.take (lineLen - 1) =
      leadingDigits l ++ seperater :: cs.take (98 - (leadingDigits l).length) := by
    nth_rewrite 1 [hl]
    rw [List.take_append, List.take_of_length_le (by rw [lineLen]; omega),
      show lineLen - 1 - (leadingDigits l).length = 98 - (leadingDigits l).length + 1 by
        rw [lineLen]; omega, List.take_succ_cons]
  have hdigits' : leadingDigits (l.take (lineLen - 1)) = leadingDigits l := by
    rw [htake]
    conv_lhs => rw [leadingDigits]
    rw [List.takeWhile_append_of_pos isDigit_of_mem_leadingDigits]
    simp [show seperater.isDigit = false from rfl]
  refine ⟨⟨by rw [hdigits']; exact hpos, by rw [hdigits']; exact hdigits, ?_⟩, hdigits'⟩
  rw [htake, List.dropWhile_append_of_pos isDigit_of_mem_leadingDigits]
  rfl

/-- The pieces of a line behind the first begin at the multiples of 99 bytes. So a line has no
digit at a cut exactly if none of these pieces is taken for a numbered line. -/
theorem cutsClean_iff (hl : IsLine '\n' l) :
    CutsClean l ↔ ∀ p ∈ (fgets l).tail, leadingDigits p = [] := by
  have hpiece : ∀ k, (fgets l).tail[k]? = if 99 * (k + 1) < l.length then
      some ((l.drop (99 * (k + 1))).take 99) else none := by
    intro k
    rw [List.getElem?_tail]
    exact getElem?_pieces (by decide) hl (k + 1)
  have hhead : ∀ k, ((l.drop (99 * (k + 1))).take 99).head? = l[99 * (k + 1)]? := by
    intro k
    rw [List.head?_take, if_neg (by decide), List.head?_drop]
  constructor
  · intro hclean p hp
    obtain ⟨k, hk⟩ := List.mem_iff_getElem?.mp hp
    rw [hpiece] at hk
    split_ifs at hk
    rw [leadingDigits_nil_iff, ← Option.some.inj hk, hhead]
    exact hclean k
  · intro hplain k
    rw [← hhead, ← leadingDigits_nil_iff]
    by_cases hlt : 99 * (k + 1) < l.length
    · have hk := hpiece k
      rw [if_pos hlt] at hk
      exact hplain _ (List.mem_of_getElem? hk)
    · rw [List.drop_of_length_le (Nat.not_lt.mp hlt)]
      rfl

/-- A piece that starts with no digit is skipped, and skipping it is right. -/
theorem regular_of_plain (h : leadingDigits p = []) : Regular p :=
  ⟨by rw [h]; decide, fun hbroken => hbroken.1 h⟩

/-- A line with a mark is neither too long in its digits nor broken. -/
theorem Marked.regular (h : Marked l) : Regular l :=
  ⟨Nat.lt_succ_of_le h.2.1, fun hbroken => by
    rw [Broken, h.lineNumber_eq] at hbroken
    cases hbroken.2⟩

theorem Marked.ne_nil (h : Marked l) : l ≠ [] := by
  rintro rfl
  exact absurd h.1 (by decide)

/-- The first piece of a line with a mark is what fits into the buffer. -/
theorem Marked.fgets_eq (h : Marked l) (hl : IsLine '\n' l) :
    fgets l = l.take (lineLen - 1) :: (fgets l).tail := by
  rw [fgets, pieces_line (by decide) hl h.ne_nil]
  rfl

/-- Of a piece that starts with no digit no number is read. -/
theorem filterMap_plain (h : ∀ p ∈ ps, leadingDigits p = []) : ps.filterMap lineNumber = [] :=
  List.filterMap_eq_nil_iff.mpr fun p hp => lineNumber_of_leadingDigits (h p hp)

/-- Of the pieces of a line up to one that starts with a digit the first gives the number. -/
theorem Marked.filterMap_cons (h : Marked l) (hps : ∀ p ∈ ps, leadingDigits p = []) :
    (l.take (lineLen - 1) :: ps).filterMap lineNumber = [atoi (leadingDigits l)] := by
  rw [List.filterMap_cons_some h.take.1.lineNumber_eq, filterMap_plain hps, h.take.2]

/-- All pieces of such a line are regular if those behind the first start with no digit. -/
theorem Marked.regular_cons (h : Marked l) (hps : ∀ p ∈ ps, leadingDigits p = []) :
    ∀ p ∈ l.take (lineLen - 1) :: ps, Regular p :=
  List.forall_mem_cons.mpr ⟨h.take.1.regular, fun p hp => regular_of_plain (hps p hp)⟩

section CutClean

variable (hline : ∀ l ∈ ls, IsLine '\n' l) (hmarked : ∀ l ∈ ls, Marked l)
  (hclean : ∀ l ∈ ls, CutsClean l)
include hline hmarked hclean

/-- All pieces of such lines are regular. -/
theorem regular_of_cutsClean : ∀ p ∈ ls.flatMap fgets, Regular p := by
  intro p hp
  obtain ⟨l, hl, hp⟩ := List.mem_flatMap.mp hp
  rw [(hmarked l hl).fgets_eq (hline l hl)] at hp
  exact (hmarked l hl).regular_cons ((cutsClean_iff (hline l hl)).mp (hclean l hl)) p hp

/-- The numbers read from the pieces of such lines are those that the lines start with, one for
each line. -/
theorem filterMap_of_cutsClean : (ls.flatMap fgets).filterMap lineNumber =
    ls.map fun l => atoi (leadingDigits l) := by
  have hone : ∀ l ∈ ls, (fgets l).filterMap lineNumber = [atoi (leadingDigits l)] := by
    intro l hl
    rw [(hmarked l hl).fgets_eq (hline l hl)]
    exact (hmarked l hl).filterMap_cons ((cutsClean_iff (hline l hl)).mp (hclean l hl))
  rw [List.filterMap_flatMap, List.flatMap_congr hone, ← List.map_eq_flatMap]

end CutClean

/-- Where no piece but the first of a line starts with a digit, each line gives its number. -/
theorem reads_long (hmarked : AllMarked file) (hclean : AllCutClean file) :
    Reads file (startNumbers file) := by
  have hline : ∀ l ∈ fullLines '\n' file, IsLine '\n' l := fun l hl =>
    (isLine_of_mem_fullLines hl).1
  obtain ⟨newLine, h⟩ := readsFrom_append (regular_of_cutsClean hline hmarked hclean) []
  rw [Reads, startNumbers, fgets_eq_flatMap, ← filterMap_of_cutsClean hline hmarked hclean]
  have hreads := (h [] []).mpr (.last rfl)
  rwa [List.append_nil, List.append_nil] at hreads

/-- The numbers of whole lines and what follows them. -/
theorem startNumbers_append (hls : ∀ l ∈ ls, Terminated '\n' l) (rest : List Char) :
    startNumbers (ls.flatten ++ rest) =
      (ls.map fun l => atoi (leadingDigits l)) ++ startNumbers rest := by
  rw [startNumbers, fullLines_flatten_append hls, List.map_append]
  rfl

/-- A line whose digits are all in its first piece is not cut before one. -/
theorem cutsClean_append (hp : p.length ≤ 99) (hq : ∀ c ∈ q, c.isDigit = false) :
    CutsClean (p ++ q) := by
  intro k c hc
  rw [List.getElem?_append_right (by omega)] at hc
  exact hq c (List.mem_of_getElem? hc)

/-- The further line starts with a number, -/
theorem allMarked_lostLine : AllMarked (lostLine ++ ['\n']) := by
  decide

/-- and it is too short to be cut. -/
theorem allCutClean_lostLine : AllCutClean (lostLine ++ ['\n']) := by
  intro l hl
  rw [show fullLines '\n' (lostLine ++ ['\n']) = [lostLine ++ ['\n']] from rfl,
    List.mem_singleton] at hl
  exact hl ▸ cutsClean_append (by decide) (by simp)

/-- A line with an unclean cut is read wrongly, as it is or with a further line. -/
theorem not_reads_of_cut (hls : ∀ l' ∈ ls ++ [l], Terminated '\n' l')
    (hmarked : ∀ l' ∈ ls ++ [l], Marked l') (hclean : ∀ l' ∈ ls, CutsClean l')
    (hl : ¬CutsClean l) (hreads : Reads (ls ++ [l]).flatten (startNumbers (ls ++ [l]).flatten)) :
    ¬Reads ((ls ++ [l]).flatten ++ (lostLine ++ ['\n']))
      (startNumbers ((ls ++ [l]).flatten ++ (lostLine ++ ['\n']))) := by
  have hlast : l ∈ ls ++ [l] := by simp
  have hline : ∀ l' ∈ ls, IsLine '\n' l' := fun l' hl' =>
    (hls l' (List.mem_append_left _ hl')).isLine
  have hmarked' : ∀ l' ∈ ls, Marked l' := fun l' hl' => hmarked l' (List.mem_append_left _ hl')
  -- the first piece behind a cut that starts with a digit
  rw [cutsClean_iff (hls l hlast).isLine] at hl
  push Not at hl
  obtain ⟨plains, q, mid, htail, hq, hplains⟩ := exists_first hl
  have hplains' : ∀ p ∈ plains, leadingDigits p = [] := fun p hp => not_not.mp (hplains p hp)
  have hpieces : (ls ++ [l]).flatMap fgets =
      (ls.flatMap fgets ++ l.take (lineLen - 1) :: plains) ++ q :: mid := by
    rw [List.flatMap_append, List.flatMap_singleton,
      (hmarked l hlast).fgets_eq (hls l hlast).isLine, htail, List.append_assoc, List.cons_append]
  have hregular : ∀ p ∈ ls.flatMap fgets ++ l.take (lineLen - 1) :: plains, Regular p := by
    intro p hp
    rcases List.mem_append.mp hp with hp | hp
    · exact regular_of_cutsClean hline hmarked' hclean p hp
    · exact (hmarked l hlast).regular_cons hplains' p hp
  have hnumbers : (ls.flatMap fgets ++ l.take (lineLen - 1) :: plains).filterMap lineNumber =
      (ls ++ [l]).map fun l => atoi (leadingDigits l) := by
    rw [List.filterMap_append, filterMap_of_cutsClean hline hmarked' hclean,
      (hmarked l hlast).filterMap_cons hplains', List.map_append]
    rfl
  have hnow := startNumbers_append hls []
  rw [List.append_nil, show startNumbers [] = [] from rfl, List.append_nil] at hnow
  rw [hnow, ← hnumbers] at hreads
  rw [startNumbers_append hls, ← hnumbers]
  exact not_reads_of_digit hls hpieces hregular hq hreads

/-- The beginnings of a file are read right, however they go on without a digit at a cut, exactly
if no line has one. -/
theorem reads_beginnings_iff_long (hls : ∀ l ∈ ls, Terminated '\n' l)
    (hmarked : ∀ l ∈ ls, Marked l) :
    (∀ k rest, AllMarked rest → AllCutClean rest →
      Reads ((ls.take k).flatten ++ rest) (startNumbers ((ls.take k).flatten ++ rest))) ↔
        ∀ l ∈ ls, CutsClean l := by
  refine forall_beginnings_iff (Q := fun file => Reads file (startNumbers file))
    (fun as rest has hclean hrest hrest' => ?_) (fun as l has hclean hl => ?_)
    ⟨by decide, by simp [AllCutClean, fullLines]⟩ ⟨allMarked_lostLine, allCutClean_lostLine⟩
  · have hls' : ∀ l ∈ as, Terminated '\n' l := fun l hl => hls l (has l hl)
    exact reads_long (forall_fullLines_append hls' (fun l hl => hmarked l (has l hl)) hrest)
      (forall_fullLines_append hls' hclean hrest')
  · exact not_reads_of_cut (fun l' hl' => hls l' (has l' hl'))
      (fun l' hl' => hmarked l' (has l' hl')) hclean hl

/-- **Long lines.** A file whose lines start with a number is read right if no line has a digit
at a cut. Conversely the beginnings of its whole lines are read right, however they go on
without one, exactly if none of them has. The lines may have any length; each is to give its
number once. -/
theorem reads_long_iff (file : List Char) (hmarked : AllMarked file) :
    (AllCutClean file → Reads file (startNumbers file)) ∧
    ∀ ls : List (List Char), (∀ l ∈ ls, Terminated '\n' l) → ls.flatten <+: file →
      ((∀ k rest, AllMarked rest → AllCutClean rest →
        Reads ((ls.take k).flatten ++ rest) (startNumbers ((ls.take k).flatten ++ rest))) ↔
          ∀ l ∈ ls, CutsClean l) :=
  ⟨reads_long hmarked, fun _ hls hstart =>
    reads_beginnings_iff_long hls (forall_of_flatten_isStart hls hstart hmarked)⟩

/-- A line of three pieces. -/
def longLine : List Char := "41:".toList ++ (List.replicate 200 'x' ++ ['\n'])

/-- The conditions of the result on long lines are met by a file with a line of three pieces.
-/
theorem reads_long_example : Reads ["3:foo\n".toList, longLine].flatten [3, 41] := by
  have hterminated : ∀ l ∈ ["3:foo\n".toList, longLine], Terminated '\n' l := by
    intro l hl
    rcases List.mem_pair.mp hl with rfl | rfl
    · exact ⟨"3:foo".toList, by decide, rfl⟩
    · refine ⟨"41:".toList ++ List.replicate 200 'x', fun hmem => ?_, rfl⟩
      rcases List.mem_append.mp hmem with hmem | hmem
      · exact absurd hmem (by decide)
      · cases List.eq_of_mem_replicate hmem
  have hlines := fullLines_flatten hterminated
  have hmarked : AllMarked ["3:foo\n".toList, longLine].flatten := by
    rw [AllMarked, hlines]
    decide
  have hclean : AllCutClean ["3:foo\n".toList, longLine].flatten := by
    rw [AllCutClean, hlines]
    intro l hl
    rcases List.mem_pair.mp hl with rfl | rfl
    · exact cutsClean_append (p := "3:foo\n".toList) (q := []) (by decide) (by simp)
    · refine cutsClean_append (by decide) fun c hc => ?_
      rcases List.mem_append.mp hc with hc | hc
      · rw [List.eq_of_mem_replicate hc]
        rfl
      · rw [List.mem_singleton.mp hc]
        rfl
  have hnumbers : startNumbers ["3:foo\n".toList, longLine].flatten = [3, 41] := by
    rw [startNumbers, hlines]
    decide
  exact hnumbers ▸ (reads_long_iff _ hmarked).1 hclean

/-- A log line with the digits of a time at its hundredth byte. -/
def cutFile : List Char := "1:".toList ++ List.replicate 97 'x' ++ "7:30\n".toList

/-- **The rest of a long line** is taken for a line of its own: the file has one line, and two
numbers are read from it. -/
theorem rest_read : AllMarked cutFile ∧ startNumbers cutFile = [1] ∧ Reads cutFile [1, 7] ∧
    ¬Reads cutFile [1] := by
  have hfirst : startReadLine Locals.init (fgets cutFile) = some (some 1, ["7:30\n".toList]) := by
    decide +kernel
  have hsecond : startReadLine Locals.init ["7:30\n".toList] = some (some 7, []) := by
    decide +kernel
  refine ⟨by decide +kernel, by decide +kernel, .next hfirst (.next hsecond (.last rfl)), ?_⟩
  intro hreads
  have hrest := (readsFrom_cons_iff hfirst).mp hreads
  rcases hrest with hend | _
  rw [hsecond] at hend
  cases hend

end LogAssistant

end OpenLog
