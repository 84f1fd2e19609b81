import OpenLog.LogAssistant.FileOutput
import OpenLog.Text.Pieces

/-!
# `readLineNum`

`fileOutput` reads its two files, which `grep -n` has written, with `readLineNum`: the number at
the start of the next line that starts with digits and a colon. A line that does not is skipped
with a jump back to the call of `fgets`. The jump leaves the two pointers where they are, so that
behind a line with digits and something else than a colon the next lines are looked at from the
middle, with the digits of that line before theirs.

`fgets` takes 99 bytes at a time. Of a longer line the rest is taken for further lines, which
does no harm as long as none of them starts with a digit.

So the numbers of a file are read as far as the pieces that `fgets` returns are regular
(`OpenLog.LogAssistant.readsFrom_append`), and a single one that is not spoils what comes behind
it (`OpenLog.LogAssistant.not_readsFrom_of_digit`).
-/

namespace OpenLog

namespace LogAssistant

open Text

/-! ### The function -/

/-- `SEPERATER`. -/
def seperater : Char := ':'

/-- `CHAR_ARRAY_LEN`. -/
def charArrayLen : ℕ := 6

/-- `LINE_LEN`. -/
def lineLen : ℕ := 100

/-- `atoi` on digits. -/
def atoi (digits : List Char) : ℕ :=
  digits.foldl (fun n c => 10 * n + (c.toNat - '0'.toNat)) 0

/-- The variables that keep their values over `goto startReadLine`. -/
structure Locals where
  /-- `newLine`, as far as it has been written. -/
  newLine : List Char
  /-- The index of `newLinePt` in `newLine`. -/
  newLinePt : ℕ
  /-- `digitArray` up to `digitArrayPt`. -/
  digitArray : List Char

/-- How the inner loop ends. -/
inductive Scanned
  /-- At the separator, with `lineNum`. -/
  | number (lineNum : ℕ)
  /-- At the end of the string. -/
  | ended
  /-- With `goto startReadLine`. -/
  | again (newLinePt : ℕ) (digitArray : List Char)
  /-- With a write past the end of `digitArray`, or a byte that has never been written. -/
  | undefined

/-- The inner loop, from what `newLinePt` points to on. -/
def scan (newLinePt : ℕ) (digitArray : List Char) : List Char → Scanned
  | [] => .undefined
  | c :: cs =>
    -- `*digitArrayPt = *newLinePt++`
    if charArrayLen ≤ digitArray.length then .undefined
    else if c = '\x00' then .ended
    else if c.isDigit then scan (newLinePt + 1) (digitArray ++ [c]) cs
    else if c = seperater then .number (atoi digitArray)
    else .again (newLinePt + 1) digitArray

/-- `fgets` writes the piece and a zero; what stands behind them stays. -/
def overwrite (newLine piece : List Char) : List Char :=
  piece ++ '\x00' :: newLine.drop (piece.length + 1)

/-- From `startReadLine` on, given what the calls of `fgets` return: the number, or `none` for
`-1`, and what is left of the file. Where the program does something undefined there is no
result. -/
def startReadLine : Locals → List (List Char) → Option (Option ℕ × List (List Char))
  | _, [] => some (none, [])
  | v, piece :: file =>
    let newLine := overwrite v.newLine piece
    match newLine.drop v.newLinePt with
    | [] => none
    | c :: cs =>
      if c.isDigit then
        match scan v.newLinePt v.digitArray (c :: cs) with
        | .number lineNum => some (some lineNum, file)
        | .ended => some (none, file)
        | .again newLinePt digitArray => startReadLine ⟨newLine, newLinePt, digitArray⟩ file
        | .undefined => none
      else startReadLine { v with newLine := newLine } file

/-- The variables when `readLineNum` is called. -/
def Locals.init : Locals := ⟨[], 0, []⟩

/-- `readLineNum`. -/
def readLineNum (file : List (List Char)) : Option (Option ℕ × List (List Char)) :=
  startReadLine Locals.init file

/-- What `fgets(newLine, LINE_LEN, fp)` returns, call by call. -/
def fgets (file : List Char) : List (List Char) := pieces '\n' (lineLen - 1) file

/-- The calls of `readLineNum`, the first of them under way, return these numbers and then
`-1`. -/
inductive ReadsFrom : Locals → List (List Char) → List ℕ → Prop
  | last {v : Locals} {file rest : List (List Char)}
    (h : startReadLine v file = some (none, rest)) : ReadsFrom v file []
  | next {v : Locals} {file rest : List (List Char)} {n : ℕ} {ns : List ℕ}
    (h : startReadLine v file = some (some n, rest)) (hrest : ReadsFrom Locals.init rest ns) :
    ReadsFrom v file (n :: ns)

/-- The calls of `readLineNum` on a file return these numbers and then `-1`. -/
def Reads (file : List Char) (ns : List ℕ) : Prop := ReadsFrom Locals.init (fgets file) ns

/-! ### Lines with numbers -/

/-- The digits that a line starts with. -/
def leadingDigits (l : List Char) : List Char := l.takeWhile Char.isDigit

/-- The number of a line that starts with digits and a colon. -/
def lineNumber (l : List Char) : Option ℕ :=
  if leadingDigits l ≠ [] ∧ (l.dropWhile Char.isDigit).head? = some seperater then
    some (atoi (leadingDigits l))
  else none

/-- A line that starts with digits and then something else than a colon. -/
def Broken (l : List Char) : Prop := leadingDigits l ≠ [] ∧ lineNumber l = none

instance (l : List Char) : Decidable (Broken l) := inferInstanceAs (Decidable (_ ∧ _))

variable {l p : List Char} {n : ℕ} {c : Char}

theorem leadingDigits_nil_iff : leadingDigits l = [] ↔ ∀ c ∈ l.head?, c.isDigit = false := by
  cases l with
  | nil => simp [leadingDigits]
  | cons c l => cases hc : c.isDigit <;> simp [leadingDigits, hc]

theorem isDigit_of_mem_leadingDigits : ∀ c ∈ leadingDigits l, c.isDigit = true := fun _ hc =>
  List.mem_takeWhile_imp hc

theorem leadingDigits_append (l : List Char) :
    leadingDigits l ++ l.dropWhile Char.isDigit = l :=
  List.takeWhile_append_dropWhile

/-- A line with a colon behind its digits. -/
theorem exists_eq_append_seperater (h : (l.dropWhile Char.isDigit).head? = some seperater) :
    ∃ cs, l = leadingDigits l ++ seperater :: cs := by
  obtain ⟨cs, hcs⟩ := List.head?_eq_some_iff.mp h
  exact ⟨cs, by rw [← hcs, leadingDigits_append]⟩

theorem lineNumber_of_leadingDigits (h : leadingDigits l = []) : lineNumber l = none := by
  simp [lineNumber, h]

/-! ### The inner loop -/

section Scan

variable {pt : ℕ} {digitArray : List Char}

/-- The loop takes the digits that there is room for. -/
theorem scan_digits {digits : List Char} (hdigits : ∀ c ∈ digits, c.isDigit = true)
    (hroom : digitArray.length + digits.length ≤ charArrayLen) (cs : List Char) :
    scan pt digitArray (digits ++ cs) =
      scan (pt + digits.length) (digitArray ++ digits) cs := by
  induction digits generalizing pt digitArray with
  | nil => simp
  | cons c digits ih =>
    rw [List.forall_mem_cons] at hdigits
    rw [List.length_cons] at hroom
    have hzero : c ≠ '\x00' := by
      rintro rfl
      exact absurd hdigits.1 (by decide)
    rw [List.cons_append, scan, if_neg (by omega), if_neg hzero, if_pos hdigits.1,
      ih hdigits.2 (by simp; omega)]
    simp [Nat.add_comm, Nat.add_left_comm]

/-- Where the loop jumps, the pointers have moved past the digits that it has taken and the
character behind them. -/
theorem scan_again {cs : List Char} {pt' : ℕ} {digitArray' : List Char}
    (h : scan pt digitArray cs = .again pt' digitArray') :
    digitArray.length ≤ digitArray'.length ∧ digitArray'.length < charArrayLen ∧
      pt' + digitArray.length = pt + digitArray'.length + 1 := by
  induction cs generalizing pt digitArray with
  | nil => cases h
  | cons c cs ih =>
    rw [scan] at h
    split_ifs at h with hroom
    · obtain ⟨hlength, hlt, hpt⟩ := ih h
      rw [List.length_append, List.length_singleton] at hlength hpt
      exact ⟨by omega, hlt, by omega⟩
    · obtain ⟨rfl, rfl⟩ := Scanned.again.inj h
      exact ⟨Nat.le_refl _, by omega, by omega⟩

/-- The first digit is taken. -/
theorem scan_again_of_digit {cs : List Char} {pt' : ℕ} {digitArray' : List Char}
    (hc : c.isDigit = true) (h : scan pt digitArray (c :: cs) = .again pt' digitArray') :
    digitArray.length < digitArray'.length := by
  have hzero : c ≠ '\x00' := by
    rintro rfl
    exact absurd hc (by decide)
  rw [scan, if_neg hzero, if_pos hc] at h
  split_ifs at h
  have hlength := (scan_again h).1
  rwa [List.length_append, List.length_singleton] at hlength

end Scan

/-- The inner loop on a piece, from its start: it ends with the number of the piece. -/
theorem scan_number (hdigits : (leadingDigits p).length < charArrayLen) (stale : List Char)
    (h : lineNumber p = some n) : scan 0 [] (p ++ stale) = .number n := by
  rw [lineNumber] at h
  split_ifs at h with hnumber
  obtain rfl := Option.some.inj h
  obtain ⟨cs, hp⟩ := exists_eq_append_seperater hnumber.2
  rw [hp, List.append_assoc, scan_digits isDigit_of_mem_leadingDigits (by simp; omega),
    List.nil_append, ← hp, List.cons_append, scan, if_neg (by omega)]
  rfl

/-- On a broken piece it ends without a number. -/
theorem scan_broken (hdigits : (leadingDigits p).length < charArrayLen) (stale : List Char)
    (h : Broken p) : scan 0 [] (p ++ '\x00' :: stale) = .ended ∨
      scan 0 [] (p ++ '\x00' :: stale) =
        .again ((leadingDigits p).length + 1) (leadingDigits p) := by
  obtain ⟨hne, hnone⟩ := h
  have hscan : scan 0 [] (p ++ '\x00' :: stale) = scan (leadingDigits p).length
      (leadingDigits p) (p.dropWhile Char.isDigit ++ '\x00' :: stale) := by
    nth_rewrite 1 [← leadingDigits_append p]
    rw [List.append_assoc, scan_digits isDigit_of_mem_leadingDigits (by simp; omega),
      List.nil_append, Nat.zero_add]
  rw [hscan]
  rcases hrest : p.dropWhile Char.isDigit with _ | ⟨c, cs⟩
  · left
    rw [List.nil_append, scan, if_neg (by omega), if_pos rfl]
  · have hc : c.isDigit = false := by
      have hhead := List.head?_dropWhile_not Char.isDigit p
      rw [hrest] at hhead
      simpa using hhead
    have hsep : c ≠ seperater := by
      rintro rfl
      rw [lineNumber, if_pos ⟨hne, by rw [hrest]; rfl⟩] at hnone
      cases hnone
    rw [List.cons_append, scan, if_neg (by omega)]
    split_ifs with hzero hdigit
    · exact .inl rfl
    · rw [hc] at hdigit
      cases hdigit
    · exact .inr rfl

theorem scan_full {pt : ℕ} {digitArray : List Char} (h : charArrayLen ≤ digitArray.length)
    (cs : List Char) : scan pt digitArray cs = .undefined := by
  cases cs with
  | nil => rfl
  | cons c cs => rw [scan, if_pos h]

/-- On more digits than there is room for it does something undefined. -/
theorem scan_undefined (hdigits : charArrayLen ≤ (leadingDigits p).length) (stale : List Char) :
    scan 0 [] (p ++ stale) = .undefined := by
  have htaken : ∀ c ∈ (leadingDigits p).take charArrayLen, c.isDigit = true := fun c hc =>
    isDigit_of_mem_leadingDigits c (List.mem_of_mem_take hc)
  have hlength : ((leadingDigits p).take charArrayLen).length = charArrayLen := by
    rw [List.length_take, Nat.min_eq_left hdigits]
  have hp : p = (leadingDigits p).take charArrayLen ++
      ((leadingDigits p).drop charArrayLen ++ p.dropWhile Char.isDigit) := by
    rw [← List.append_assoc, List.take_append_drop, leadingDigits_append]
  rw [hp, List.append_assoc, scan_digits htaken (by rw [hlength]; simp)]
  exact scan_full (by rw [List.nil_append, hlength]) _

/-! ### One piece -/

section Piece

variable {v v' : Locals} {newLine : List Char} {file file' ps rest : List (List Char)}
  {ns : List ℕ}

/-- Whatever `fgets` writes over, the pointer at the start finds the piece. -/
theorem startReadLine_cons (newLine p : List Char) (file : List (List Char)) :
    startReadLine ⟨newLine, 0, []⟩ (p :: file) =
      if leadingDigits p = [] then startReadLine ⟨overwrite newLine p, 0, []⟩ file
      else match scan 0 [] (overwrite newLine p) with
        | .number lineNum => some (some lineNum, file)
        | .ended => some (none, file)
        | .again newLinePt digitArray =>
          startReadLine ⟨overwrite newLine p, newLinePt, digitArray⟩ file
        | .undefined => none := by
  cases p with
  | nil => rfl
  | cons c p => cases hc : c.isDigit <;> simp [startReadLine, overwrite, leadingDigits, hc]

/-- A piece that does not start with a digit is skipped. -/
theorem startReadLine_plain (hp : leadingDigits p = []) :
    startReadLine ⟨newLine, 0, []⟩ (p :: file) =
      startReadLine ⟨overwrite newLine p, 0, []⟩ file := by
  rw [startReadLine_cons, if_pos hp]

/-- The number of a piece is returned. -/
theorem startReadLine_number (hdigits : (leadingDigits p).length < charArrayLen)
    (h : lineNumber p = some n) :
    startReadLine ⟨newLine, 0, []⟩ (p :: file) = some (some n, file) := by
  have hne : leadingDigits p ≠ [] := by
    intro hnil
    rw [lineNumber_of_leadingDigits hnil] at h
    cases h
  rw [startReadLine_cons, if_neg hne, overwrite, scan_number hdigits _ h]

/-- A broken piece ends the file, or the pointers are left where they are. -/
theorem startReadLine_broken (newLine : List Char)
    (hdigits : (leadingDigits p).length < charArrayLen) (h : Broken p) :
    (∀ file, startReadLine ⟨newLine, 0, []⟩ (p :: file) = some (none, file)) ∨
      ∀ file, startReadLine ⟨newLine, 0, []⟩ (p :: file) = startReadLine
        ⟨overwrite newLine p, (leadingDigits p).length + 1, leadingDigits p⟩ file := by
  rcases scan_broken hdigits (newLine.drop (p.length + 1)) h with hended | hagain
  · refine .inl fun file => ?_
    rw [startReadLine_cons, if_neg h.1, overwrite, hended]
  · refine .inr fun file => ?_
    rw [startReadLine_cons, if_neg h.1, overwrite, hagain]

/-! ### Regular pieces -/

/-- A piece that `readLineNum` makes the right thing of: it starts with no digit, or with up to
five and a colon. -/
structure Regular (p : List Char) : Prop where
  digits : (leadingDigits p).length < charArrayLen
  not_broken : ¬Broken p

theorem Regular.plain (h : Regular p) (hnone : lineNumber p = none) : leadingDigits p = [] := by
  by_contra hne
  exact h.not_broken ⟨hne, hnone⟩

theorem readsFrom_congr (h : startReadLine v file = startReadLine v' file') :
    ReadsFrom v file ns ↔ ReadsFrom v' file' ns := by
  constructor
  · rintro (hlast | ⟨hnext, hrest⟩)
    · exact .last (h ▸ hlast)
    · exact .next (h ▸ hnext) hrest
  · rintro (hlast | ⟨hnext, hrest⟩)
    · exact .last (h ▸ hlast)
    · exact .next (h ▸ hnext) hrest

theorem readsFrom_cons_iff (h : startReadLine v file = some (some n, rest)) :
    ReadsFrom v file (n :: ns) ↔ ReadsFrom Locals.init rest ns := by
  constructor
  · rintro (_ | ⟨hnext, hrest⟩)
    rw [h] at hnext
    obtain ⟨-, rfl⟩ := Prod.mk.inj (Option.some.inj hnext)
    exact hrest
  · exact .next h

theorem ReadsFrom.eq_nil (h : ReadsFrom v file ns)
    (hend : startReadLine v file = some (none, rest)) : ns = [] := by
  rcases h with _ | ⟨hnext, -⟩
  · rfl
  · rw [hend] at hnext
    cases hnext

/-- **Regular pieces** are read one by one: what comes behind them is read as if they were not
there, but for what they leave in the buffer. -/
theorem readsFrom_append (hps : ∀ p ∈ ps, Regular p) (newLine : List Char) :
    ∃ newLine', ∀ file ns,
      ReadsFrom ⟨newLine, 0, []⟩ (ps ++ file) (ps.filterMap lineNumber ++ ns) ↔
        ReadsFrom ⟨newLine', 0, []⟩ file ns := by
  induction ps generalizing newLine with
  | nil => exact ⟨newLine, fun _ _ => Iff.rfl⟩
  | cons p ps ih =>
    obtain ⟨hp, hps⟩ := List.forall_mem_cons.mp hps
    cases hnumber : lineNumber p with
    | none =>
      obtain ⟨newLine', h⟩ := ih hps (overwrite newLine p)
      refine ⟨newLine', fun file ns => ?_⟩
      rw [List.cons_append, List.filterMap_cons_none hnumber, ← h]
      exact readsFrom_congr (startReadLine_plain (hp.plain hnumber))
    | some n =>
      obtain ⟨newLine', h⟩ := ih hps []
      refine ⟨newLine', fun file ns => ?_⟩
      rw [List.cons_append, List.filterMap_cons_some hnumber, List.cons_append, ← h]
      exact readsFrom_cons_iff (startReadLine_number hp.digits hnumber)

/-- The last piece may be any that has no number. -/
theorem readsFrom_singleton (hdigits : (leadingDigits p).length < charArrayLen)
    (hnone : lineNumber p = none) : ReadsFrom ⟨newLine, 0, []⟩ [p] [] := by
  by_cases hne : leadingDigits p = []
  · exact .last (startReadLine_plain hne)
  · rcases startReadLine_broken newLine hdigits ⟨hne, hnone⟩ with hended | hagain
    · exact .last (hended [])
    · exact .last (hagain [])

/-! ### A broken piece -/

/-- The pointers have moved, past a bounded number of bytes. -/
structure Stuck (v : Locals) : Prop where
  moved : 2 ≤ v.newLinePt
  bounded : v.newLinePt ≤ 2 * v.digitArray.length
  room : v.digitArray.length < charArrayLen

/-- A line with a number that is not found from behind the number. -/
def lostLine : List Char := "1:xxxxxxxxxx".toList

theorem startReadLine_lostLine (hv : Stuck v) :
    startReadLine v [lostLine ++ ['\n']] = some (none, []) := by
  obtain ⟨newLine, newLinePt, digitArray⟩ := v
  have hlow : 2 ≤ newLinePt := hv.moved
  have hhigh : newLinePt ≤ 10 := by
    have hbounded : newLinePt ≤ 2 * digitArray.length := hv.bounded
    have hroom : digitArray.length < 6 := hv.room
    omega
  interval_cases newLinePt <;> rfl

/-- Once the pointers have moved, a further line with a number goes unnoticed at the end of the
file. -/
theorem startReadLine_append_lostLine (hv : Stuck v)
    (h : startReadLine v file = some (none, rest)) :
    ∃ rest', startReadLine v (file ++ [lostLine ++ ['\n']]) = some (none, rest') := by
  induction file generalizing v with
  | nil => exact ⟨[], startReadLine_lostLine hv⟩
  | cons p file ih =>
    rw [startReadLine] at h
    rw [List.cons_append, startReadLine]
    rcases hdrop : (overwrite v.newLine p).drop v.newLinePt with _ | ⟨c, cs⟩
    · simp [hdrop] at h
    · simp only [hdrop] at h ⊢
      cases hc : c.isDigit with
      | false =>
        simp only [hc, Bool.false_eq_true, if_false] at h ⊢
        exact ih ⟨hv.moved, hv.bounded, hv.room⟩ h
      | true =>
        simp only [hc, if_true] at h ⊢
        cases hscan : scan v.newLinePt v.digitArray (c :: cs) with
        | number lineNum => simp [hscan] at h
        | ended => exact ⟨_, rfl⟩
        | again newLinePt digitArray =>
          obtain ⟨-, hroom, hpt⟩ := scan_again hscan
          have hdigit := scan_again_of_digit hc hscan
          have hmoved := hv.moved
          have hbounded := hv.bounded
          simp only [hscan] at h
          exact ih ⟨by simp only; omega, by simp only; omega, hroom⟩ h
        | undefined => simp [hscan] at h

/-- **A piece that starts with a digit** and is not to be read spoils the file, whatever stands
behind it: either a number is read, or the number of a further line is not. -/
theorem not_readsFrom_of_digit (hp : leadingDigits p ≠ [])
    (hreads : ReadsFrom ⟨newLine, 0, []⟩ (p :: file) []) :
    ¬ReadsFrom ⟨newLine, 0, []⟩ (p :: file ++ [lostLine ++ ['\n']]) [1] := by
  intro hlost
  rcases hreads with hend | _
  by_cases hdigits : (leadingDigits p).length < charArrayLen
  · cases hnumber : lineNumber p with
    | some n =>
      rw [startReadLine_number hdigits hnumber] at hend
      cases hend
    | none =>
      rw [List.cons_append] at hlost
      rcases startReadLine_broken newLine hdigits ⟨hp, hnumber⟩ with hended | hagain
      · cases hlost.eq_nil (hended _)
      · have hpos : 0 < (leadingDigits p).length := List.length_pos_iff.mpr hp
        rw [hagain] at hend
        obtain ⟨rest', hend'⟩ := startReadLine_append_lostLine
          ⟨by simp only; omega, by simp only; omega, hdigits⟩ hend
        cases hlost.eq_nil ((hagain _).trans hend')
  · rw [startReadLine_cons, if_neg hp, overwrite, scan_undefined (Nat.not_lt.mp hdigits)] at hend
    cases hend

end Piece

end LogAssistant

end OpenLog
