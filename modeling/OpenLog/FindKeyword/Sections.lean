import Mathlib.Algebra.GroupWithZero.Nat
import OpenLog.FindKeyword.Scan
import OpenLog.Text.Blocks

/-!
# What the scanner finds

The purpose of `find_keyword.pl`, stated without its buffers: cut every file into
sections at the date lines, keep the sections whose keyword line matches, and write
those that also have a matching line in their text
(`OpenLog.FindKeyword.findKeyword_eq`).

The scanner reaches this through five states and two buffers that are written in two
different places. The link is one description of what is still *pending* in a state,
given the lines left of the current section: `OpenLog.FindKeyword.pendingOut` for the
output file and `OpenLog.FindKeyword.pendingCount` for the number of matches. A line
that opens no section does not change what is pending
(`OpenLog.FindKeyword.outputFile_scanLine_of_not_header` and its companions), so the
whole file is one induction (`OpenLog.FindKeyword.foldl_scanLine`).
-/

namespace OpenLog

namespace FindKeyword

open Text

/-! ### Sections -/

/-- A section: its date line and the lines after it. -/
abbrev Section := Line × List Line

/-- The sections of a file. -/
def sections (file : List Char) : List Section := (blocks isHeader (readLines '\n' file)).2

/-- What follows the date line and the parenthesised dates behind it: the keyword
line, if there is one, and the text. -/
def afterDates (ls : List Line) : List Line := ls.dropWhile isParenDate

/-- The keyword line matches every keyword. A section without a keyword line is not
wanted. -/
def keywordMatch (a : Args) (s : Section) : Bool :=
  match afterDates s.2 with
  | [] => false
  | keywordLine :: _ => a.keywordList.all fun keyword => (keyword keywordLine).isSome

/-- The number of lines behind the keyword line that match the content key. -/
def contentCount (key : Line → Bool) (s : Section) : ℕ := (afterDates s.2).tail.countP key

/-- The sections that go to the output file. -/
def wanted (a : Args) (key : Line → Bool) (s : Section) : Bool :=
  keywordMatch a s && (afterDates s.2).tail.any key

/-! ### The loop over the keywords -/

/-- The column does not influence whether the keywords match, and the keywords behind
the first one decide as much as they do alone. -/
theorem keywordLoop_fst (a : Args) (l : Line) (ks : List (Line → Option Line)) (m : Bool)
    (c : ℕ) : (keywordLoop a l ks m c).1 =
      if ks = [] then m else ks.all fun k => (k l).isSome := by
  induction ks generalizing m c with
  | nil => rfl
  | cons k ks ih =>
    rw [keywordLoop]
    rcases hk : k l with _ | before
    · simp [hk]
    · rw [ih]
      by_cases hks : ks = []
      · simp [hks, hk]
      · simp [hks, hk]

/-- **The loop finds a match exactly when every keyword matches.** -/
theorem keywordLoop_isMatch {a : Args} (hne : a.keywordList ≠ []) (l : Line) :
    (keywordLoop a l a.keywordList false 0).1 = a.keywordList.all fun k => (k l).isSome := by
  rw [keywordLoop_fst, if_neg hne]

/-! ### What is still pending -/

section Pending

variable (a : Args) (key : Line → Bool)

/-- The lines of a section as the buffers hold them. -/
def terminated (ls : List Line) : List Char := writeLines '\n' ls

/-- What a section contributes to the output file, given the header printed so far
and the lines that are left of it. -/
def pendingOut (st : Scan) (rest : List Line) : List Char :=
  match st.status with
  | .idle | .keyword => []
  | .date =>
    if wanted a key ([], rest) then st.sectionHeader.flatten ++ terminated rest else []
  | .content =>
    if rest.any key then
      st.sectionHeader.flatten ++ st.sectionLines.flatten ++ terminated rest
    else []
  | .found => st.sectionHeader.flatten ++ st.sectionLines.flatten ++ terminated rest

/-- What a section contributes to `$match_count`. -/
def pendingCount (st : Scan) (rest : List Line) : ℕ :=
  match st.status with
  | .idle | .keyword => 0
  | .date => if keywordMatch a ([], rest) then contentCount key ([], rest) else 0
  | .content | .found => rest.countP key

end Pending

/-- **The states between two lines**: never at the keyword line, the text buffer never
quite empty, and behind a date line still untouched. -/
structure Between (st : Scan) : Prop where
  status : st.status ≠ .keyword
  nonempty : st.sectionLines ≠ []
  date : st.status = .date → st.sectionLines = [[]]

/-- **What a line inside a section does**: it prints nothing, and what is pending with
the line still to come is what is pending behind it. -/
structure Continues (a : Args) (key : Line → Bool) (st : Scan) (l : Line) (st' : Scan) :
    Prop where
  between : Between st'
  outputFile : st'.outputFile = st.outputFile
  out (rest : List Line) : pendingOut a key st' rest = pendingOut a key st (l :: rest)
  count (rest : List Line) :
    st'.matchCount + pendingCount a key st' rest =
      st.matchCount + pendingCount a key st (l :: rest)

section Lines

variable {a : Args} {key : Line → Bool} {curFile : Line} {st : Scan} {l : Line}

/-- The dates in parentheses behind the date line are passed over, -/
theorem afterDates_cons_of_paren (h : isParenDate l = true) (rest : List Line) :
    afterDates (l :: rest) = afterDates rest := by
  simp [afterDates, h]

/-- up to the keyword line. -/
theorem afterDates_cons_of_not_paren (h : isParenDate l = false) (rest : List Line) :
    afterDates (l :: rest) = l :: rest := by
  simp [afterDates, h]

/-- A date in parentheses does not change which line is the keyword line. -/
theorem keywordMatch_cons_of_paren (h : isParenDate l = true) (d : Line) (rest : List Line) :
    keywordMatch a (d, l :: rest) = keywordMatch a (d, rest) := by
  simp only [keywordMatch, afterDates_cons_of_paren h]

/-- Nor does it change what is counted behind it. -/
theorem contentCount_cons_of_paren (h : isParenDate l = true) (d : Line) (rest : List Line) :
    contentCount key (d, l :: rest) = contentCount key (d, rest) := by
  simp only [contentCount, afterDates_cons_of_paren h]

variable (a key) in
/-- A date in parentheses behind the date line joins the header. -/
theorem continues_paren (hst : Between st) (hdate : st.status = .date)
    (hl : isParenDate l = true) :
    Continues a key st l { st with sectionHeader := st.sectionHeader ++ [l ++ ['\n']] } where
  between := ⟨hst.status, hst.nonempty, hst.date⟩
  outputFile := rfl
  out rest := by
    have hw : wanted a key ([], l :: rest) = wanted a key ([], rest) := by
      simp only [wanted, keywordMatch_cons_of_paren hl, afterDates_cons_of_paren hl]
    simp only [pendingOut, hdate, hw, terminated, writeLines_cons]
    simp
  count rest := by
    simp only [pendingCount, hdate, keywordMatch_cons_of_paren hl, contentCount_cons_of_paren hl]

variable (curFile) in
/-- At the keyword line of a section the scanner decides as `keywordMatch` does. -/
theorem continues_keyword (hne : a.keywordList ≠ []) (hkey : a.contentKey = some key)
    (hst : Between st) (hdate : st.status = .date) (hl : isParenDate l = false) :
    Continues a key st l (scanKeyword a curFile { st with status := .keyword } l) := by
  have hmatch : ∀ rest, keywordMatch a ([], l :: rest) =
      (keywordLoop a l a.keywordList false 0).1 := by
    intro rest
    rw [keywordLoop_isMatch hne]
    simp only [keywordMatch, afterDates_cons_of_not_paren hl]
  have hbuf : st.sectionLines = [[]] := hst.date hdate
  rcases hm : keywordLoop a l a.keywordList false 0 with ⟨isMatch, column⟩
  rw [hm] at hmatch
  cases isMatch with
  | true =>
    simp only [scanKeyword, hm, hkey, if_true]
    refine ⟨⟨by simp, hst.nonempty, by simp⟩, rfl, fun rest => ?_, fun rest => ?_⟩
    · simp only [pendingOut, hdate, wanted, hmatch, afterDates_cons_of_not_paren hl, hbuf,
        terminated, writeLines_cons]
      simp
    · simp only [pendingCount, hdate, hmatch, contentCount, afterDates_cons_of_not_paren hl]
      simp
  | false =>
    simp only [scanKeyword, hm, Bool.false_eq_true, if_false]
    refine ⟨⟨by simp, hst.nonempty, by simp⟩, rfl, fun rest => ?_, fun rest => ?_⟩
    · simp [pendingOut, hdate, wanted, hmatch]
    · simp [pendingCount, hdate, hmatch]

/-- A line of the text of a wanted section is kept, and counted if it matches. -/
theorem continues_content (hst : Between st)
    (hs : st.status = .content ∨ st.status = .found) :
    Continues a key st l (scanContent a curFile key st l) := by
  rcases hk : key l with _ | _
  · simp only [scanContent, hk, Bool.false_eq_true, if_false]
    refine ⟨⟨hst.status, by simp, ?_⟩, rfl, fun rest => ?_, fun rest => ?_⟩
    · rcases hs with hs | hs <;> simp [hs]
    · rcases hs with hs | hs <;> simp [pendingOut, hs, hk, terminated]
    · rcases hs with hs | hs <;> simp [pendingCount, hs, hk]
  · simp only [scanContent, hk, if_true]
    refine ⟨⟨by simp, by simp, by simp⟩, ?_, fun rest => ?_, fun rest => ?_⟩
    · rcases hs with hs | hs <;> simp [hs, printContent]
    · rcases hs with hs | hs <;> simp [pendingOut, hs, hk, terminated, printContent]
    · rcases hs with hs | hs <;> simp [pendingCount, hs, hk, printContent] <;> omega

variable (curFile) in
/-- **One line inside a section.** -/
theorem scanLine_of_not_header (hne : a.keywordList ≠ []) (hkey : a.contentKey = some key)
    (hst : Between st) (hl : isHeader l = false) :
    Continues a key st l (scanLine a curFile st l) := by
  have hst' : Between { st with i := st.i + 1 } := ⟨hst.status, hst.nonempty, hst.date⟩
  -- the line number is not read by anything that is pending
  suffices h : Continues a key { st with i := st.i + 1 } l (scanLine a curFile st l) from
    ⟨h.between, h.outputFile, h.out, h.count⟩
  simp only [scanLine, hl, Bool.false_eq_true, if_false, skipParenDate, hkey]
  cases hs : st.status with
  | idle =>
    refine ⟨by simpa [hs] using hst', by simp, ?_, ?_⟩ <;> simp [pendingOut, pendingCount]
  | date =>
    rcases hp : isParenDate l with _ | _
    · simpa [hs] using continues_keyword curFile hne hkey hst' (by simpa using hs) hp
    · simpa [hs] using continues_paren a key hst' (by simpa using hs) hp
  | keyword => exact absurd hs hst.status
  | content => simpa [hs] using continues_content hst' (by simp [hs])
  | found => simpa [hs] using continues_content hst' (by simp [hs])

end Lines

/-! ### One file -/

section Files

variable {a : Args} {key : Line → Bool} {curFile : Line} {st : Scan}

/-- What a section contributes to the output file. -/
def emit (a : Args) (key : Line → Bool) (s : Section) : List Char :=
  if wanted a key s then terminated (blockElems s) else []

/-- What a section contributes to `$match_count`. -/
def hits (a : Args) (key : Line → Bool) (s : Section) : ℕ :=
  if keywordMatch a s then contentCount key s else 0

variable (a key) in
/-- Where a section ends, what is pending is what `flush` prints. -/
theorem outputFile_flush (hst : Between st) :
    (flush st).outputFile = st.outputFile ++ pendingOut a key st [] := by
  have hlen : st.sectionLines.length ≠ 0 := by simpa using hst.nonempty
  cases hs : st.status <;>
    simp [flush, hs, hlen, pendingOut, wanted, keywordMatch, afterDates, terminated]

/-- Printing counts nothing. -/
@[simp] theorem matchCount_flush : (flush st).matchCount = st.matchCount := by
  rw [flush]
  split_ifs <;> rfl

@[simp] theorem pendingCount_nil : pendingCount a key st [] = 0 := by
  cases hs : st.status <;> simp [pendingCount, hs, keywordMatch, afterDates]

/-- **A date line ends the section before it**: what was pending is printed, and the
new section is pending in its place. -/
theorem scanLine_of_header {l : Line} (hl : isHeader l = true) :
    scanLine a curFile st l = newSection (flush { st with i := st.i + 1 }) l := by
  simp [scanLine, hl]

/-- A section begins between two lines, with an untouched buffer for its text. -/
theorem between_newSection (st : Scan) (l : Line) : Between (newSection st l) :=
  ⟨by simp [newSection], by simp [newSection], fun _ => rfl⟩

/-- Behind its date line all that a section contributes is pending, -/
theorem pendingOut_newSection (st : Scan) (l : Line) (rest : List Line) :
    pendingOut a key (newSection st l) rest = emit a key (l, rest) := by
  have hw : wanted a key ([], rest) = wanted a key (l, rest) := rfl
  simp [pendingOut, newSection, emit, hw, terminated, blockElems]

/-- and so are its matches. -/
theorem pendingCount_newSection (st : Scan) (l : Line) (rest : List Line) :
    pendingCount a key (newSection st l) rest = hits a key (l, rest) := rfl

variable (curFile) in
/-- **The lines of a file**, from any state between two lines: the rest of the current
section counts as pending, every later section for itself. -/
theorem foldl_scanLine (hne : a.keywordList ≠ []) (hkey : a.contentKey = some key)
    (ls : List Line) (hst : Between st) :
    Between (ls.foldl (scanLine a curFile) st) ∧
      (flush (ls.foldl (scanLine a curFile) st)).outputFile =
        st.outputFile ++ pendingOut a key st (blocks isHeader ls).1 ++
          (blocks isHeader ls).2.flatMap (emit a key) ∧
      (ls.foldl (scanLine a curFile) st).matchCount =
        st.matchCount + pendingCount a key st (blocks isHeader ls).1 +
          ((blocks isHeader ls).2.map (hits a key)).sum := by
  induction ls generalizing st with
  | nil =>
    refine ⟨hst, ?_, ?_⟩
    · simpa using outputFile_flush a key hst
    · simp
  | cons l ls ih =>
    rw [List.foldl_cons]
    rcases hl : isHeader l with _ | _
    -- a line of the current section: it moves from the rest to what is pending
    · have hstep := scanLine_of_not_header curFile hne hkey hst hl
      obtain ⟨hb, hout, hcount⟩ := ih hstep.between
      rw [blocks_cons_of_neg hl]
      refine ⟨hb, ?_, ?_⟩
      · rw [hout, hstep.outputFile, hstep.out]
      · rw [hcount, hstep.count]
    -- a date line: what is pending is printed, and `ih` starts from the new section
    · have hst' : Between { st with i := st.i + 1 } := ⟨hst.status, hst.nonempty, hst.date⟩
      have hflush := outputFile_flush a key hst'
      rw [scanLine_of_header hl, blocks_cons_of_pos hl]
      obtain ⟨hb, hout, hcount⟩ := ih (between_newSection (flush { st with i := st.i + 1 }) l)
      refine ⟨hb, ?_, ?_⟩
      · rw [hout, pendingOut_newSection]
        simp only [newSection, hflush, List.flatMap_cons, List.append_assoc]
        rfl
      · rw [hcount, pendingCount_newSection, pendingCount_nil]
        simp [newSection, Nat.add_assoc]

/-- **One file**: every section of it is written or not, and counted or not, on its
own. -/
theorem scanFile_eq (hne : a.keywordList ≠ []) (hkey : a.contentKey = some key)
    (st : Scan) (file : Line × List Char) :
    (scanFile a st file).outputFile =
        st.outputFile ++ (sections file.2).flatMap (emit a key) ∧
      (scanFile a st file).matchCount =
        st.matchCount + ((sections file.2).map (hits a key)).sum := by
  have h0 : Between
      { st with i := 0, status := .idle, sectionHeader := [[]], sectionLines := [[]] } :=
    ⟨by simp, by simp, by simp⟩
  obtain ⟨-, hout, hcount⟩ :=
    foldl_scanLine file.1 hne hkey (readLines '\n' file.2) h0
  refine ⟨?_, ?_⟩
  · simpa [scanFile, sections, pendingOut] using hout
  · simpa [scanFile, sections, pendingCount] using hcount

/-! ### The script -/

/-- **The loop over the files**: each file contributes its sections, and no state is carried
from one to the next. -/
theorem foldl_scanFile (hne : a.keywordList ≠ []) (hkey : a.contentKey = some key) (st : Scan)
    (filelist : List (Line × List Char)) :
    (filelist.foldl (scanFile a) st).outputFile =
        st.outputFile ++ (filelist.flatMap fun f => sections f.2).flatMap (emit a key) ∧
      (filelist.foldl (scanFile a) st).matchCount =
        st.matchCount + ((filelist.flatMap fun f => sections f.2).map (hits a key)).sum := by
  induction filelist generalizing st with
  | nil => simp
  | cons f fs ih =>
    obtain ⟨hout, hcount⟩ := scanFile_eq hne hkey st f
    obtain ⟨ihout, ihcount⟩ := ih (scanFile a st f)
    refine ⟨?_, ?_⟩
    · rw [List.foldl_cons, ihout, hout]
      simp [List.flatMap_append]
    · rw [List.foldl_cons, ihcount, hcount]
      simp [Nat.add_assoc]

/-- What the sections contribute are the lines of the wanted ones, -/
theorem flatMap_emit (ss : List Section) :
    ss.flatMap (emit a key) = writeLines '\n' ((ss.filter (wanted a key)).flatMap blockElems) := by
  induction ss with
  | nil => rfl
  | cons s ss ih =>
    rw [List.flatMap_cons, ih, emit]
    by_cases hw : wanted a key s
    · simp [hw, terminated]
    · simp [hw]

/-- and the matches of those whose keyword line matches. -/
theorem sum_hits (ss : List Section) :
    (ss.map (hits a key)).sum = ((ss.filter (keywordMatch a)).map (contentCount key)).sum := by
  induction ss with
  | nil => rfl
  | cons s ss ih =>
    rw [List.map_cons, List.sum_cons, ih, hits]
    by_cases hm : keywordMatch a s
    · simp [hm]
    · simp [hm]

/-- The script, section by section: what each of them contributes to the output file and
to the number of matches. -/
theorem findKeyword_emit (hne : a.keywordList ≠ []) (hkey : a.contentKey = some key)
    (filelist : List (Line × List Char)) :
    (findKeyword a filelist).outputFile =
        '\n' :: (filelist.flatMap fun f => sections f.2).flatMap (emit a key) ∧
      (findKeyword a filelist).matchCount =
        ((filelist.flatMap fun f => sections f.2).map (hits a key)).sum := by
  obtain ⟨hout, hcount⟩ := foldl_scanFile hne hkey Scan.init filelist
  exact ⟨hout, hcount.trans (Nat.zero_add _)⟩

/-- **What `find_keyword.pl` finds**, with a content key and at least one keyword: for every
list of files, the output file has the lines of the wanted sections in order, behind an empty
line, and `$match_count` is the number of lines that match the content key in the sections
whose keyword line matches. The buffers, the five states and the places where they are flushed
have no part in it. -/
theorem findKeyword_eq (a : Args) (key : Line → Bool) (hkey : a.contentKey = some key)
    (hne : a.keywordList ≠ []) (filelist : List (Line × List Char)) :
    (findKeyword a filelist).outputFile =
        '\n' :: writeLines '\n'
          (((filelist.flatMap fun f => sections f.2).filter (wanted a key)).flatMap blockElems) ∧
      (findKeyword a filelist).matchCount =
        (((filelist.flatMap fun f => sections f.2).filter (keywordMatch a)).map
          (contentCount key)).sum := by
  obtain ⟨hout, hcount⟩ := findKeyword_emit hne hkey filelist
  exact ⟨by rw [hout, flatMap_emit], by rw [hcount, sum_hits]⟩

/-- A log of two sections and a search that wants the first of them. -/
def sampleArgs : Args where
  keywordList := [fun l => if 'V' ∈ l then some (l.takeWhile (· ≠ 'V')) else none]
  contentKey := some fun l => l.contains 'n'
  curEnvLocale := .utf8
  fromTo := id

/-- The log that `sampleArgs` searches. -/
def sampleLog : List Char :=
  "15:16 2009-12-7\n(9:05 2009-12-8)\nVC0882\nnote\n15:17 2009-12-9\nother\nnote".toList

/-- Of the two sections of a log the first is wanted. -/
theorem findKeyword_sample :
    (findKeyword sampleArgs [([], sampleLog)]).outputFile =
        "\n15:16 2009-12-7\n(9:05 2009-12-8)\nVC0882\nnote\n".toList ∧
      (findKeyword sampleArgs [([], sampleLog)]).matchCount = 1 := by
  obtain ⟨hout, hcount⟩ :=
    findKeyword_eq sampleArgs (fun l => l.contains 'n') rfl (by simp [sampleArgs])
      [([], sampleLog)]
  exact ⟨hout.trans (by decide), hcount.trans (by decide)⟩

end Files

end FindKeyword

end OpenLog
