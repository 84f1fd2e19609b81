import OpenLog.Text.Lines

/-!
# The scanner of `find_keyword.pl`

The work logs that `logAssistant/perl/find_keyword.pl` searches are sequences of
*sections*: a date line, possibly more dates in parentheses, a line of keywords,
and the text of the section. This file is the main loop of the script: one pass
over the lines of every input file, a five-valued `$status`, and the two buffers
`@section_header` and `@section` that are written to `OUTPUT_FILE` when a section
turns out to be a hit.

The file names are the order in which the script visits them (`reverse sort` of
the glob), the regular expressions of the user enter as what Perl's match operator
yields on a line – for a keyword the text before the leftmost match, since
`print_content` reports a column, for the content key only whether it matches –
and the texts printed before and after the loop are left out. Lines are strings of
bytes; `chomp` is the line reader of `OpenLog.Text`.
-/

namespace OpenLog

namespace FindKeyword

open Text

/-- A line of a log file, or any other byte string of the script. -/
abbrev Line := List Char

/-! ### The date lines -/

/-- The building blocks of the four date patterns: a literal character and
`\d{lo,hi}`. -/
inductive Item
  /-- A literal character. -/
  | chr (c : Char)
  /-- Between `lo` and `hi` decimal digits. -/
  | digits (lo hi : ℕ)
  deriving DecidableEq

/-- Whether a pattern matches at the start of a line, as `=~ /^…/` decides it. -/
def matchesPrefix : List Item → Line → Bool
  | [], _ => true
  | .chr _ :: _, [] => false
  | .chr c :: p, d :: l => c == d && matchesPrefix p l
  | .digits lo hi :: p, l =>
    (List.range (hi + 1)).any fun k =>
      lo ≤ k && k ≤ l.length && (l.take k).all Char.isDigit && matchesPrefix p (l.drop k)

/-- `@section_start_keywords`: the four shapes of a date line. -/
def sectionStartKeywords : List (List Item) :=
  [ -- "15:16 2009-12-7"
    [.digits 1 2, .chr ':', .digits 1 2, .chr ' ', .chr '2', .chr '0', .digits 1 1, .digits 1 1,
      .chr '-', .digits 1 2, .chr '-', .digits 1 2],
    -- "#2006-8-7 21:07"
    [.chr '#', .chr '2', .chr '0', .digits 1 1, .digits 1 1, .chr '-', .digits 1 2, .chr '-',
      .digits 1 2, .chr ' ', .digits 1 2, .chr ':', .digits 1 2],
    -- "#15:20 2006-3-10"
    [.chr '#', .digits 1 2, .chr ':', .digits 1 2, .chr ' ', .chr '2', .chr '0', .digits 1 1,
      .digits 1 1, .chr '-', .digits 1 2, .chr '-', .digits 1 2],
    -- "#20060519 2345"
    [.chr '#', .chr '2', .chr '0', .digits 6 6, .chr ' ', .digits 4 4] ]

/-- `match_section_start`: the line begins with one of the date patterns, the
patterns `start` and `fin` put around it. -/
def matchSectionStart (line : Line) (start fin : List Item) : Bool :=
  sectionStartKeywords.any fun p => matchesPrefix (start ++ p ++ fin) line

/-- A line on which the scanner opens a section. -/
def isHeader (line : Line) : Bool := matchSectionStart line [] []

/-- A parenthesised date, which may follow the date line of a section. -/
def isParenDate (line : Line) : Bool := matchSectionStart line [.chr '('] [.chr ')']

example : isHeader "15:16 2009-12-7 novell".toList = true := by decide

example : isParenDate "(9:05 2012-6-14)".toList = true := by decide

/-! ### The state of the main loop -/

/-- `$cur_env_locale`. -/
inductive Locale
  | utf8
  | gb2312
  deriving DecidableEq

/-- What the script was called with: the keywords, the content key if there is
one that Perl treats as true, the locale, and the conversion `Encode::from_to`
from UTF-8 to GB2312. -/
structure Args where
  /-- `@keyword_list`: on a line each keyword yields the text before its leftmost
  match, or `none`. -/
  keywordList : List (Line → Option Line)
  /-- `$content_key`. -/
  contentKey : Option (Line → Bool)
  /-- `$cur_env_locale`. -/
  curEnvLocale : Locale
  /-- `Encode::from_to($str, "utf8", "gb2312")`. -/
  fromTo : Line → Line

/-- One call of `print_content`: the five values it prints. -/
structure Report where
  content : Line
  filename : Line
  contentLineNum : Line
  contentColumn : Line
  time : Line
  deriving DecidableEq

/-- `$status`, in the order of its values `0` to `4`. -/
inductive Status
  /-- `0`: not in a section, or in one that does not match. -/
  | idle
  /-- `1`: behind the date line of a section. -/
  | date
  /-- `2`: at the keyword line of a section. -/
  | keyword
  /-- `3`: in a section whose keyword line matches. -/
  | content
  /-- `4`: in such a section, and a line of it matched the content key. -/
  | found
  deriving DecidableEq

/-- The variables of the main loop, `OUTPUT_FILE`, and what went to the terminal. -/
structure Scan where
  status : Status
  /-- `@section_header`. -/
  sectionHeader : List Line
  /-- `@section`. -/
  sectionLines : List Line
  /-- `$i`, the number of the current line in its file. -/
  i : ℕ
  dateLine : Line
  keywordLine : Line
  keywordLineNum : ℕ
  matchCount : ℕ
  /-- What has been printed to `OUTPUT_FILE`. -/
  outputFile : List Char
  /-- The calls of `print_content`, in order. -/
  reports : List Report

/-- The state before the first file: `OUTPUT_FILE` starts with an empty line. The script's comment
beside it, that a date on the first line is not recognised, no longer holds of the input files:
every line of a file is tried as a date, the first included. -/
def Scan.init : Scan where
  status := .idle
  sectionHeader := []
  sectionLines := []
  i := 0
  dateLine := []
  keywordLine := []
  keywordLineNum := 0
  matchCount := 0
  outputFile := ['\n']
  reports := []

/-- `strlen`: the length of a text in the current locale. -/
def strlen (a : Args) (str : Line) : ℕ :=
  match a.curEnvLocale with
  | .gb2312 => (a.fromTo str).length
  | .utf8 => str.length

/-- `print_content`. -/
def printContent (a : Args) (content filename contentLineNum contentColumn time : Line)
    (st : Scan) : Scan :=
  let content := match a.curEnvLocale with
    | .gb2312 => a.fromTo content
    | .utf8 => content
  { st with
    reports := st.reports ++ [⟨content, filename, contentLineNum, contentColumn, time⟩] }

/-- A number as `print` interpolates it. -/
def num (n : ℕ) : Line := (toString n).toList

/-! ### One line -/

/-- Print the section to `OUTPUT_FILE` if a line of it matched. `@section` always
has an element, the `undef` it was created with, which prints as nothing. -/
def flush (st : Scan) : Scan :=
  if st.status = .found then
    if st.sectionLines.length ≠ 0 then
      { st with outputFile := st.outputFile ++ st.sectionHeader.flatten ++ st.sectionLines.flatten }
    else st
  else st

/-- Start the section whose date line is `curLine`. -/
def newSection (st : Scan) (curLine : Line) : Scan :=
  { st with
    dateLine := curLine
    status := .date
    sectionLines := [[]]
    sectionHeader := [[], curLine ++ ['\n']] }

/-- The first test behind a date line: another date, in parentheses, belongs to the
header, and any other line is the keyword line. -/
def skipParenDate (st : Scan) (curLine : Line) : Scan :=
  if st.status = .date then
    if isParenDate curLine then
      { st with sectionHeader := st.sectionHeader ++ [curLine ++ ['\n']] }
    else { st with status := .keyword }
  else st

/-- The loop over `@keyword_list`: `$is_match` and `$keyword_column`, the column of
the first keyword. The loop ends at the first keyword that does not match. -/
def keywordLoop (a : Args) (keywordLine : Line) :
    List (Line → Option Line) → Bool → ℕ → Bool × ℕ
  | [], isMatch, column => (isMatch, column)
  | keyword :: ks, isMatch, column =>
    match keyword keywordLine with
    | some before =>
      keywordLoop a keywordLine ks true (if isMatch then column else strlen a before + 1)
    | none => (false, column)

/-- `$status == 2`: decide whether the section is wanted. -/
def scanKeyword (a : Args) (curFile : Line) (st : Scan) (curLine : Line) : Scan :=
  let st := { st with keywordLine := curLine }
  let (isMatch, column) := keywordLoop a curLine a.keywordList false 0
  if isMatch then
    let st := { st with
      sectionHeader := st.sectionHeader ++ [curLine ++ ['\n']]
      keywordLineNum := st.i }
    match a.contentKey with
    | some _ => { st with status := .content }
    | none =>
      printContent a curLine curFile (num st.i) (num column) st.dateLine
        { st with status := .idle, matchCount := st.matchCount + 1 }
  else { st with status := .idle }

/-- The text printed for the four numbers and names of the report that opens the
hits of a section. -/
def marker : Line := List.replicate 18 '#'

/-- `$status == 3 || $status == 4`: a line of the text of a wanted section. -/
def scanContent (a : Args) (curFile : Line) (contentKey : Line → Bool) (st : Scan)
    (curLine : Line) : Scan :=
  let st :=
    if contentKey curLine then
      let st := { st with matchCount := st.matchCount + 1 }
      let st :=
        if st.status = .content then
          printContent a st.keywordLine marker marker marker marker st
        else st
      let st := printContent a curLine curFile (num st.i) (num 0) [] st
      { st with status := .found }
    else st
  { st with sectionLines := st.sectionLines ++ [curLine ++ ['\n']] }

/-- The body of `while (<>)`. Only a content key leads to the states that look at
it. -/
def scanLine (a : Args) (curFile : Line) (st : Scan) (curLine : Line) : Scan :=
  let st := { st with i := st.i + 1 }
  if isHeader curLine then newSection (flush st) curLine
  else
    let st := skipParenDate st curLine
    match st.status, a.contentKey with
    | .keyword, _ => scanKeyword a curFile st curLine
    | .content, some key | .found, some key => scanContent a curFile key st curLine
    | _, _ => st

/-! ### Files -/

/-- The body of `foreach (@filelist)`: the name and the content of one file. The
state is declared inside the loop, so no section reaches from one file into the
next. -/
def scanFile (a : Args) (st : Scan) (file : Line × List Char) : Scan :=
  let st := { st with i := 0, status := .idle, sectionHeader := [[]], sectionLines := [[]] }
  flush ((readLines '\n' file.2).foldl (scanLine a file.1) st)

/-- **The script**, from the empty line at the start of `OUTPUT_FILE` to the
`$match_count` it prints at the end. -/
def findKeyword (a : Args) (filelist : List (Line × List Char)) : Scan :=
  filelist.foldl (scanFile a) Scan.init

end FindKeyword

end OpenLog
