import OpenLog.FindKeyword.Sections

/-!
# What the scanner reports

The lines that `find_keyword.pl` prints to the terminal, stated section by section
(`OpenLog.FindKeyword.sectionReports`): without a content key one report of the
keyword line, with the number of this line and the date line of its section; with
one a marker and the numbered lines of the text that match.

The number, the date line, the keyword line and the column are variables that the
scanner sets on different lines and that outlive the section they belong to. As for
the output file, the link is what is still pending in a state
(`OpenLog.FindKeyword.pendingReports`), given the numbered lines left of the current
section. A line that opens no section leaves the reports that have been printed and
the pending ones together as they are (`OpenLog.FindKeyword.ReportsOn`), so that the
variables are only looked at where they belong to the section at hand.
-/

namespace OpenLog

namespace FindKeyword

open Text

/-! ### The reports of a section -/

/-- A line of a file and its number. -/
abbrev NumberedLine := Line × ℕ

/-- The sections of a file, with the numbers of the lines, which start at `1`. -/
def numberedSections (file : List Char) : List (NumberedLine × List NumberedLine) :=
  (blocks (fun l => isHeader l.1) ((readLines '\n' file).zipIdx 1)).2

/-- A date line opens a section, whatever its number. -/
theorem blocks_numbered_of_header {l : Line} (h : isHeader l = true) (n : ℕ)
    (ls : List NumberedLine) : blocks (fun l => isHeader l.1) ((l, n) :: ls) =
      ([], ((l, n), (blocks (fun l => isHeader l.1) ls).1) ::
        (blocks (fun l => isHeader l.1) ls).2) :=
  blocks_cons_of_pos (a := (l, n)) h ls

/-- Any other line belongs to the section before it. -/
theorem blocks_numbered_of_not_header {l : Line} (h : isHeader l = false) (n : ℕ)
    (ls : List NumberedLine) : blocks (fun l => isHeader l.1) ((l, n) :: ls) =
      ((l, n) :: (blocks (fun l => isHeader l.1) ls).1,
        (blocks (fun l => isHeader l.1) ls).2) :=
  blocks_cons_of_neg (a := (l, n)) h ls

section Reports

variable (text : Line → Line) (len : Line → ℕ)

/-- The column of the first keyword on a line that it matches. -/
def keywordColumn (keywordList : List (Line → Option Line)) (l : Line) : ℕ :=
  match keywordList.head?.bind fun keyword => keyword l with
  | some before => 1 + len before
  | none => 0

/-- The report of a line of the text of a section. -/
def contentReport (filename : Line) (l : NumberedLine) : Report :=
  ⟨text l.1, filename, num l.2, num 0, []⟩

/-- The report of the keyword line that precedes the reports of the text. -/
def markerReport (keywordLine : Line) : Report := ⟨text keywordLine, marker, marker, marker, marker⟩

/-- The reports of the text of a section whose keyword line matches. -/
def contentReports (filename : Line) (key : Line → Bool) (keywordLine : Line)
    (ls : List NumberedLine) : List Report :=
  if ls.any fun l => key l.1 then
    markerReport text keywordLine ::
      (ls.filter fun l => key l.1).map (contentReport text filename)
  else []

/-- The reports of a section, given its date line and the lines behind it. The texts are printed
in the form `text`, and `len` counts the columns of a text. -/
def sectionReports (a : Args) (filename dateLine : Line) (ls : List NumberedLine) :
    List Report :=
  match ls.dropWhile fun l => isParenDate l.1 with
  | [] => []
  | keywordLine :: ls =>
    if a.keywordList.all fun keyword => (keyword keywordLine.1).isSome then
      match a.contentKey with
      | none => [⟨text keywordLine.1, filename, num keywordLine.2,
          num (keywordColumn len a.keywordList keywordLine.1), dateLine⟩]
      | some key => contentReports text filename key keywordLine.1 ls
    else []

end Reports

/-! ### What is still pending -/

/-- A text as it is printed in the current locale. -/
def toLocale (a : Args) (content : Line) : Line :=
  match a.curEnvLocale with
  | .gb2312 => a.fromTo content
  | .utf8 => content

section Pending

variable {a : Args} {curFile : Line} {st st' : Scan} {l : Line} {n : ℕ}

variable (a curFile) in
/-- The reports that are still to come of the current section, given the lines that are left of
it. -/
def pendingReports (st : Scan) (rest : List NumberedLine) : List Report :=
  match st.status, a.contentKey with
  | .date, _ => sectionReports (toLocale a) (strlen a) a curFile st.dateLine rest
  | .content, some key => contentReports (toLocale a) curFile key st.keywordLine rest
  | .found, some key =>
    (rest.filter fun l => key l.1).map (contentReport (toLocale a) curFile)
  | _, _ => []

variable (a curFile) in
/-- **What a line inside a section does**: the reports that it prints are those that are no longer
pending behind it. -/
structure ReportsOn (st : Scan) (l : Line) (st' : Scan) : Prop where
  status : st'.status ≠ .keyword
  i : st'.i = st.i
  reports (rest : List NumberedLine) : st'.reports ++ pendingReports a curFile st' rest =
    st.reports ++ pendingReports a curFile st ((l, st.i) :: rest)

/-- `printContent` prints one report and changes nothing else that is looked at here. -/
@[simp] theorem reports_printContent
    (content filename contentLineNum contentColumn time : Line) (st : Scan) :
    (printContent a content filename contentLineNum contentColumn time st).reports =
      st.reports ++ [⟨toLocale a content, filename, contentLineNum, contentColumn, time⟩] := rfl

@[simp] theorem i_printContent (content filename contentLineNum contentColumn time : Line)
    (st : Scan) :
    (printContent a content filename contentLineNum contentColumn time st).i = st.i := rfl

@[simp] theorem status_printContent (content filename contentLineNum contentColumn time : Line)
    (st : Scan) :
    (printContent a content filename contentLineNum contentColumn time st).status = st.status :=
  rfl

/-- Behind the first keyword the column stays. -/
theorem keywordLoop_true (ks : List (Line → Option Line)) (c : ℕ)
    (h : ∀ keyword ∈ ks, (keyword l).isSome = true) :
    keywordLoop a l ks true c = (true, c) := by
  induction ks with
  | nil => rfl
  | cons k ks ih =>
    rw [List.forall_mem_cons] at h
    obtain ⟨before, hbefore⟩ := Option.isSome_iff_exists.mp h.1
    rw [keywordLoop, hbefore]
    exact ih h.2

/-- The column is that of the first keyword. -/
theorem keywordLoop_column (hne : a.keywordList ≠ [])
    (h : a.keywordList.all (fun keyword => (keyword l).isSome) = true) :
    keywordLoop a l a.keywordList false 0 =
      (true, keywordColumn (strlen a) a.keywordList l) := by
  rw [List.all_eq_true] at h
  rcases hks : a.keywordList with _ | ⟨k, ks⟩
  · exact absurd hks hne
  · rw [hks, List.forall_mem_cons] at h
    obtain ⟨before, hbefore⟩ := Option.isSome_iff_exists.mp h.1
    rw [keywordLoop, hbefore]
    simp only [keywordColumn, List.head?_cons, Option.bind_some, hbefore]
    rw [keywordLoop_true ks _ h.2]
    simp [Nat.add_comm]

/-- A date in parentheses does not change which line is the keyword line. -/
theorem sectionReports_cons_of_paren (h : isParenDate l = true) (text : Line → Line)
    (len : Line → ℕ) (dateLine : Line) (rest : List NumberedLine) :
    sectionReports text len a curFile dateLine ((l, n) :: rest) =
      sectionReports text len a curFile dateLine rest := by
  have hdrop := List.dropWhile_cons_of_pos (p := fun l : NumberedLine => isParenDate l.1)
    (a := (l, n)) (l := rest) h
  rw [sectionReports, hdrop, sectionReports]

/-- A date in parentheses behind the date line reports nothing. -/
theorem reportsOn_paren (hdate : st.status = .date) (hl : isParenDate l = true) :
    ReportsOn a curFile st l { st with sectionHeader := st.sectionHeader ++ [l ++ ['\n']] } where
  status := by
    rw [hdate]
    simp
  i := rfl
  reports rest := by
    simp only [pendingReports, hdate, sectionReports_cons_of_paren hl]

/-- At the keyword line the section is reported, or its text becomes pending. -/
theorem reportsOn_keyword (hne : a.keywordList ≠ []) (hdate : st.status = .date)
    (hl : isParenDate l = false) :
    ReportsOn a curFile st l (scanKeyword a curFile { st with status := .keyword } l) := by
  have hpending : ∀ rest, pendingReports a curFile st ((l, st.i) :: rest) =
      if a.keywordList.all fun keyword => (keyword l).isSome then
        match a.contentKey with
        | none => [⟨toLocale a l, curFile, num st.i,
            num (keywordColumn (strlen a) a.keywordList l), st.dateLine⟩]
        | some key => contentReports (toLocale a) curFile key l rest
      else [] := by
    intro rest
    simp only [pendingReports, hdate, sectionReports, List.dropWhile, hl]
  rcases hall : a.keywordList.all fun keyword => (keyword l).isSome with _ | _
  · have hloop : (keywordLoop a l a.keywordList false 0).1 = false := by
      rw [keywordLoop_isMatch hne, hall]
    simp only [hall, Bool.false_eq_true, if_false] at hpending
    simp only [scanKeyword, hloop, Bool.false_eq_true, if_false]
    exact ⟨by simp, rfl, fun rest => by rw [hpending]; rfl⟩
  · simp only [hall, if_true] at hpending
    simp only [scanKeyword, keywordLoop_column hne hall, if_true]
    rcases hkey : a.contentKey with _ | key
    · refine ⟨by simp, rfl, fun rest => ?_⟩
      rw [hpending, hkey]
      simp [pendingReports]
    · refine ⟨by simp, rfl, fun rest => ?_⟩
      rw [hpending, hkey]
      simp [pendingReports, hkey]

/-- A line of the text is reported if it matches, behind the marker if it is the first. -/
theorem reportsOn_content {key : Line → Bool} (hkey : a.contentKey = some key)
    (hs : st.status = .content ∨ st.status = .found) :
    ReportsOn a curFile st l (scanContent a curFile key st l) := by
  rcases hk : key l with _ | _
  · simp only [scanContent, hk, Bool.false_eq_true, if_false]
    refine ⟨?_, rfl, fun rest => ?_⟩
    · rcases hs with hs | hs <;> simp [hs]
    · rcases hs with hs | hs <;>
        simp only [pendingReports, contentReports, hs, hkey, List.any_cons, List.filter_cons, hk,
          Bool.false_or, Bool.false_eq_true, if_false]
  · simp only [scanContent, hk, if_true]
    refine ⟨by simp, ?_, fun rest => ?_⟩
    · rcases hs with hs | hs <;> simp [hs]
    · rcases hs with hs | hs <;>
        simp [pendingReports, contentReports, hs, hkey, hk, markerReport, contentReport]

variable (curFile) in
/-- **One line inside a section.** -/
theorem reportsOn_scanLine (hne : a.keywordList ≠ []) (hst : st.status ≠ .keyword)
    (hl : isHeader l = false) :
    ReportsOn a curFile { st with i := st.i + 1 } l (scanLine a curFile st l) := by
  simp only [scanLine, hl, Bool.false_eq_true, if_false, skipParenDate]
  have hidle : ∀ {st : Scan}, (∀ rest, pendingReports a curFile st rest = []) →
      st.status ≠ .keyword → ReportsOn a curFile st l st := fun hnone hst =>
    ⟨hst, rfl, fun rest => by rw [hnone, hnone]⟩
  cases hs : st.status with
  | idle =>
    simp only [reduceCtorEq, if_false]
    exact hidle (fun rest => by simp [pendingReports]) (by simp)
  | date =>
    rcases hp : isParenDate l with _ | _
    · simp only [if_true, Bool.false_eq_true, if_false]
      exact reportsOn_keyword hne rfl hp
    · simp only [if_true]
      exact reportsOn_paren rfl hp
  | keyword => exact absurd hs hst
  | content =>
    simp only [reduceCtorEq, if_false]
    rcases hkey : a.contentKey with _ | key
    · exact hidle (fun rest => by simp [pendingReports, hkey]) (by simp)
    · exact reportsOn_content hkey (.inl rfl)
  | found =>
    simp only [reduceCtorEq, if_false]
    rcases hkey : a.contentKey with _ | key
    · exact hidle (fun rest => by simp [pendingReports, hkey]) (by simp)
    · exact reportsOn_content hkey (.inr rfl)

/-! ### One file -/

/-- At the end of a section nothing is pending. -/
@[simp] theorem pendingReports_nil : pendingReports a curFile st [] = [] := by
  cases hs : st.status <;> cases hkey : a.contentKey <;>
    simp [pendingReports, hs, hkey, sectionReports, contentReports]

/-- The output file is written without a report. -/
@[simp] theorem reports_flush : (flush st).reports = st.reports := by
  rw [flush]
  split_ifs <;> rfl

@[simp] theorem i_flush : (flush st).i = st.i := by
  rw [flush]
  split_ifs <;> rfl

/-- Behind its date line all of a section is pending. -/
theorem pendingReports_newSection (st : Scan) (l : Line) (rest : List NumberedLine) :
    pendingReports a curFile (newSection st l) rest =
      sectionReports (toLocale a) (strlen a) a curFile l rest := rfl

variable (curFile) in
/-- **The lines of a file**, from any state between two lines: the reports that are pending of the
current section, and then those of every later section. -/
theorem reports_foldl_scanLine (hne : a.keywordList ≠ []) (ls : List Line)
    (hst : st.status ≠ .keyword) :
    (ls.foldl (scanLine a curFile) st).reports = st.reports ++
      pendingReports a curFile st (blocks (fun l => isHeader l.1) (ls.zipIdx (st.i + 1))).1 ++
      (blocks (fun l => isHeader l.1) (ls.zipIdx (st.i + 1))).2.flatMap fun s =>
        sectionReports (toLocale a) (strlen a) a curFile s.1.1 s.2 := by
  induction ls generalizing st with
  | nil => simp
  | cons l ls ih =>
    rw [List.foldl_cons, List.zipIdx_cons]
    rcases hl : isHeader l with _ | _
    · have hstep := reportsOn_scanLine curFile hne hst hl
      have hreports := hstep.reports
      rw [blocks_numbered_of_not_header hl, ih hstep.status, hstep.i, hreports]
      rfl
    -- a date line: nothing is pending any more but the new section
    · rw [scanLine_of_header hl, blocks_numbered_of_header hl, ih (by simp [newSection]),
        pendingReports_newSection, pendingReports_nil, List.flatMap_cons, List.append_nil,
        List.append_assoc]
      simp [newSection]

/-- **One file**: the state that the file before it has left does not matter, for the scan
begins outside of all sections. -/
theorem reports_scanFile (hne : a.keywordList ≠ []) (st : Scan) (file : Line × List Char) :
    (scanFile a st file).reports = st.reports ++ (numberedSections file.2).flatMap fun s =>
      sectionReports (toLocale a) (strlen a) a file.1 s.1.1 s.2 := by
  rw [scanFile, reports_flush, reports_foldl_scanLine file.1 hne _ (by simp)]
  simp [pendingReports, numberedSections]

end Pending

/-! ### The script -/

variable {a : Args}

/-- The reports of the script in any locale. -/
theorem reports_findKeyword (hne : a.keywordList ≠ []) (filelist : List (Line × List Char)) :
    (findKeyword a filelist).reports = filelist.flatMap fun file =>
      (numberedSections file.2).flatMap fun s =>
        sectionReports (toLocale a) (strlen a) a file.1 s.1.1 s.2 := by
  have hgen : ∀ st : Scan, (filelist.foldl (scanFile a) st).reports =
      st.reports ++ filelist.flatMap fun file => (numberedSections file.2).flatMap fun s =>
        sectionReports (toLocale a) (strlen a) a file.1 s.1.1 s.2 := by
    induction filelist with
    | nil => simp
    | cons file filelist ih =>
      intro st
      rw [List.foldl_cons, ih, reports_scanFile hne, List.append_assoc, List.flatMap_cons]
  rw [findKeyword, hgen]
  rfl

/-- **What `find_keyword.pl` prints** in a UTF-8 environment: the reports of every section, in
the order of the files and of the lines in them. Without a content key a section has one
report, with the number of its keyword line, its date line and the column of the first keyword;
with one it has a marker and a report for each line that matches. -/
theorem reports_utf8 (a : Args) (hutf8 : a.curEnvLocale = .utf8) (hne : a.keywordList ≠ [])
    (filelist : List (Line × List Char)) :
    (findKeyword a filelist).reports = filelist.flatMap fun file =>
      (numberedSections file.2).flatMap fun s =>
        sectionReports id List.length a file.1 s.1.1 s.2 := by
  have htext : toLocale a = id := by
    funext content
    rw [toLocale, hutf8]
    rfl
  have hlen : strlen a = List.length := by
    funext str
    rw [strlen, hutf8]
  rw [reports_findKeyword hne, htext, hlen]

theorem reports_sample : (findKeyword sampleArgs [("log".toList, sampleLog)]).reports =
    [⟨"VC0882".toList, marker, marker, marker, marker⟩,
      ⟨"note".toList, "log".toList, ['4'], ['0'], []⟩] :=
  (reports_utf8 sampleArgs rfl (by simp [sampleArgs]) [("log".toList, sampleLog)]).trans
    (by decide)

end FindKeyword

end OpenLog
