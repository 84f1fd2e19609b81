import OpenLog.FindKeyword.Reports

/-!
# The version of `find_keyword.pl` that reads ahead

The first version of the script, which is kept beside the shell scripts, has no states: behind a
date line it reads the keyword line in the body of the loop and counts it there. It knows nothing
of dates in parentheses, and takes whatever follows a date line for its keywords, be it a date
line itself or the end of the file.

Where every date line is followed by a line of keywords the two versions report the same
(`OpenLog.FindKeyword.ReadAhead.findKeyword_agrees`): both go through the sections of the file,
and the read-ahead lands on the line that the states single out
(`OpenLog.FindKeyword.ReadAhead.whileLoop_eq`).
-/

namespace OpenLog

namespace FindKeyword

namespace ReadAhead

open Text

/-! ### The script -/

/-- The alternatives of the regular expression for a date line. -/
def dateLines : List (List Item) :=
  [ -- "15:16 2009-12-7"
    [.digits 1 2, .chr ':', .digits 1 2, .chr ' ', .chr '2', .chr '0', .digits 1 1, .digits 1 1,
      .chr '-', .digits 1 2, .chr '-', .digits 1 2],
    -- "#2006-8-7 21:07"
    [.chr '#', .chr '2', .chr '0', .digits 1 1, .digits 1 1, .chr '-', .digits 1 2, .chr '-',
      .digits 1 2, .chr ' ', .digits 1 2, .chr ':', .digits 1 2],
    -- "#15:20 2006-3-10"
    [.chr '#', .digits 1 2, .chr ':', .digits 1 2, .chr ' ', .chr '2', .chr '0', .digits 1 1,
      .digits 1 1, .chr '-', .digits 1 2, .chr '-', .digits 1 2],
    -- "#20060519 2345"
    [.chr '#', .chr '2', .chr '0', .digits 6 6, .chr ' ', .digits 4 4] ]

/-- The test on `$_` in the loop. -/
def isDateLine (line : Line) : Bool := dateLines.any fun p => matchesPrefix p line

/-- The loop over `@keyword_list`, with `$is_match`. -/
def keywordLoop (keywordLine : Line) : List (Line → Option Line) → Bool → Bool
  | [], isMatch => isMatch
  | keyword :: ks, _ =>
    if (keyword keywordLine).isSome then keywordLoop keywordLine ks true else false

/-- The body of the test: `$i` is the number of the keyword line. The column is always `0`. -/
def hit (a : Args) (curFile : Line) (i : ℕ) (dateLine keywordLine : Line) : List Report :=
  if keywordLoop keywordLine a.keywordList false then
    let keywordLine := match a.curEnvLocale with
      | .gb2312 => a.fromTo keywordLine
      | .utf8 => keywordLine
    [⟨keywordLine, curFile, num i, num 0, dateLine⟩]
  else []

/-- `while (<>)`, from the value `i` of `$i` on: what is printed of the lines that are left. -/
def whileLoop (a : Args) (curFile : Line) : ℕ → List Line → List Report
  | _, [] => []
  -- at the end of the file `$_=<>` yields `undef`, which is matched as an empty line
  | i, [curLine] => if isDateLine curLine then hit a curFile (i + 2) curLine [] else []
  | i, curLine :: nextLine :: rest =>
    if isDateLine curLine then
      hit a curFile (i + 2) curLine nextLine ++ whileLoop a curFile (i + 2) rest
    else whileLoop a curFile (i + 1) (nextLine :: rest)

/-- The script, without the texts printed before the loop. -/
def findKeyword (a : Args) (filelist : List (Line × List Char)) : List Report :=
  filelist.flatMap fun file => whileLoop a file.1 0 (readLines '\n' file.2)

example : findKeyword sampleArgs [([], "15:16 2009-12-7\nVC0882\nnote".toList)] =
    [⟨"VC0882".toList, [], ['2'], ['0'], "15:16 2009-12-7".toList⟩] := by decide

/-! ### The same sections -/

/-- Every date line is followed by a line that is neither a date line nor starts with a date in
parentheses. -/
def DatesFollowed (ls : List Line) : Prop :=
  ls.IsChain (fun d l => isHeader d = true → isHeader l = false ∧ isParenDate l = false) ∧
    ∀ l ∈ ls.getLast?, isHeader l = false

instance (ls : List Line) : Decidable (DatesFollowed ls) := inferInstanceAs (Decidable (_ ∧ _))

/-- The line number, the date line and the keyword line of a report. -/
def lineDateKeyword (r : Report) : Line × Line × Line := (r.contentLineNum, r.time, r.content)

variable {a : Args} {curFile d l : Line} {ls : List Line}

theorem isDateLine_eq (l : Line) : isDateLine l = isHeader l := rfl

variable (a) in
/-- The loop over the keywords is the one of the later version, without the column. -/
theorem keywordLoop_eq (ks : List (Line → Option Line)) (isMatch : Bool) (column : ℕ) :
    keywordLoop l ks isMatch = (FindKeyword.keywordLoop a l ks isMatch column).1 := by
  induction ks generalizing isMatch column with
  | nil => rfl
  | cons k ks ih =>
    rw [keywordLoop, FindKeyword.keywordLoop]
    rcases hk : k l with _ | before
    · rfl
    · exact ih true _

theorem DatesFollowed.tail (h : DatesFollowed (d :: l :: ls)) : DatesFollowed (l :: ls) :=
  ⟨(List.isChain_cons_cons.mp h.1).2, fun l' hl' => h.2 l' (by rwa [List.getLast?_cons_cons])⟩

theorem DatesFollowed.tail' (h : DatesFollowed (l :: ls)) : DatesFollowed ls := by
  cases ls with
  | nil => exact ⟨.nil, by simp⟩
  | cons l' ls => exact h.tail

variable (curFile) in
/-- The section of a date line that is followed by its keyword line. -/
theorem lineDateKeyword_hit (hne : a.keywordList ≠ []) (hkey : a.contentKey = none)
    (hl : isParenDate l = false) (i : ℕ) (rest : List NumberedLine) :
    (hit a curFile i d l).map lineDateKeyword =
      (sectionReports (toLocale a) (strlen a) a curFile d ((l, i) :: rest)).map
        lineDateKeyword := by
  have hdrop : ((l, i) :: rest).dropWhile (fun l => isParenDate l.1) = (l, i) :: rest :=
    List.dropWhile_cons_of_neg (by simp [hl])
  rw [hit, sectionReports, hdrop, keywordLoop_eq a _ _ 0, keywordLoop_isMatch hne]
  simp only [hkey]
  split_ifs
  · rfl
  · rfl

variable (curFile) in
/-- **The loop goes through the sections**: what it prints of the lines that are left is what the
sections among them report. -/
theorem whileLoop_eq (hne : a.keywordList ≠ []) (hkey : a.contentKey = none) (i : ℕ)
    (ls : List Line) (h : DatesFollowed ls) :
    (whileLoop a curFile i ls).map lineDateKeyword =
      ((blocks (fun l => isHeader l.1) (ls.zipIdx (i + 1))).2.flatMap fun s =>
        sectionReports (toLocale a) (strlen a) a curFile s.1.1 s.2).map lineDateKeyword := by
  induction i, ls using whileLoop.induct with
  | case1 i => rfl
  | case2 i curLine hdate =>
    -- a date line at the end of the file
    have hlast := h.2 curLine rfl
    rw [isDateLine_eq, hlast] at hdate
    cases hdate
  | case3 i curLine hdate =>
    rw [whileLoop, if_neg hdate]
    simp [blocks, ← isDateLine_eq, hdate]
  | case4 i curLine nextLine rest hdate ih =>
    rw [isDateLine_eq] at hdate
    obtain ⟨hhead, hparen⟩ := (List.isChain_cons_cons.mp h.1).1 hdate
    rw [whileLoop, isDateLine_eq, if_pos hdate, List.map_append, ih h.tail.tail',
      List.zipIdx_cons, List.zipIdx_cons, blocks_numbered_of_header hdate,
      blocks_numbered_of_not_header hhead, List.flatMap_cons, List.map_append,
      lineDateKeyword_hit curFile hne hkey hparen (i + 1 + 1)]
  | case5 i curLine nextLine rest hdate ih =>
    have hhead : isHeader curLine = false := by
      rwa [isDateLine_eq, Bool.not_eq_true] at hdate
    rw [whileLoop, if_neg hdate, List.zipIdx_cons, blocks_numbered_of_not_header hhead,
      ih h.tail]

/-- **The versions agree** on a file whose date lines are followed by keyword lines: for every
list of keywords, they report the same keyword lines with the same numbers and date lines, in
the same order. The columns differ, since the first version always reports `0`. -/
theorem findKeyword_agrees (a : Args) (hne : a.keywordList ≠ []) (hkey : a.contentKey = none)
    (file : Line × List Char) (h : DatesFollowed (readLines '\n' file.2)) :
    (FindKeyword.findKeyword a [file]).reports.map lineDateKeyword =
      (findKeyword a [file]).map lineDateKeyword := by
  rw [reports_findKeyword hne, findKeyword, List.flatMap_singleton, List.flatMap_singleton,
    whileLoop_eq file.1 hne hkey 0 _ h]
  rfl

/-- A search without a content key. -/
def sampleSearch : Args := { sampleArgs with contentKey := none }

theorem findKeyword_agrees_sample :
    (FindKeyword.findKeyword sampleSearch
      [([], "15:16 2009-12-7\nVC0882\nnote".toList)]).reports.map lineDateKeyword =
      [(['2'], "15:16 2009-12-7".toList, "VC0882".toList)] :=
  (findKeyword_agrees sampleSearch (by simp [sampleSearch, sampleArgs]) rfl
    ([], "15:16 2009-12-7\nVC0882\nnote".toList) (by decide)).trans (by decide)

end ReadAhead

end FindKeyword

end OpenLog
