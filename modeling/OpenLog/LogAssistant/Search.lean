import Mathlib.Data.List.Sort
import OpenLog.LogAssistant.FileOutput
import OpenLog.Text.Lines

/-!
# The search of `logAssistant.sh`

For one log file the script looks for the keyword and for the date lines, and has `fileOutput`
write a script that prints the segments with hits. So that what comes after the last date line
is found too, a temporary date line is added to the end of the file before it is searched.

Some hits are lost. Where the file does not end with a newline, the temporary date joins its
last line, which is a date line then (or none at all, with a bracket or a quote in it), so that a
hit on it lies on the border of the segment. `grep -o` prints the non-empty matches of a line
only. `$keyword` is not quoted, so that the shell makes words of it and puts names of files for a
word which matches some: of several words the first is the pattern and the others are files. And
once `grep` takes a file for a binary one it reports no line of it any more. The hits that are
printed are those whose section has one that is found
(`OpenLog.LogAssistant.finds_every_hit_iff`).

What the shell and `grep` make of a keyword and of a file is a parameter
(`OpenLog.LogAssistant.Host`). A result of `grep -n` is its number and its line.
-/

namespace OpenLog

namespace LogAssistant

open Text FindKeyword

/-! ### `grep` and the shell -/

/-- A basic regular expression without anchors, built from characters and digits. -/
def grep (pattern : List Item) (l : Line) : Bool := l.tails.any (matchesPrefix pattern)

/-- The patterns of dates that the script greps for. -/
inductive DatePattern
  /-- `"[0-9]\{1,2\}:[0-9]\{1,2\} 200[0-9]-[0-9]\{1,2\}-[0-9]\{1,2\}"`. -/
  | timeFirst
  /-- `"#200[0-9]-[0-9]\{1,2\}-[0-9]\{1,2\} [0-9]\{1,2\}:[0-9]\{1,2\}"`. -/
  | dateFirst
  /-- `"#200[0-9]\{5,5\} [0-9]\{4,4\}"`. -/
  | compact
  deriving DecidableEq

namespace DatePattern

def items : DatePattern → List Item
  | timeFirst => [.digits 1 2, .chr ':', .digits 1 2, .chr ' ', .chr '2', .chr '0', .chr '0',
      .digits 1 1, .chr '-', .digits 1 2, .chr '-', .digits 1 2]
  | dateFirst => [.chr '#', .chr '2', .chr '0', .chr '0', .digits 1 1, .chr '-', .digits 1 2,
      .chr '-', .digits 1 2, .chr ' ', .digits 1 2, .chr ':', .digits 1 2]
  | compact => [.chr '#', .chr '2', .chr '0', .chr '0', .digits 5 5, .chr ' ', .digits 4 4]

/-- In the order of the script. -/
def all : List DatePattern := [timeFirst, dateFirst, compact]

end DatePattern

/-- What `grep -v -E "(\(|\))"` lets through. -/
def noBracket (l : Line) : Bool := !l.contains '(' && !l.contains ')'

/-- What `grep -v -E "(\"|\")"` lets through. -/
def noQuote (l : Line) : Bool := !l.contains '"'

/-- What the shell and `grep` make of things. Whether `grep` takes a file for a binary one can
depend on how far it has read, and so is asked line by line. -/
structure Host where
  /-- The names that the shell puts for a word, none where the word matches no file. -/
  pathnames : Line → List Line
  /-- A pattern matches a line. -/
  accepts : Line → Line → Bool
  /-- What `grep -o` with one more word prints of a line: the matches that are not empty. -/
  parts : Line → Line → List Line
  /-- What it prints with several words of which some are options. -/
  optionParts : List Line → Line → List Line
  /-- The file is no binary one to the run for the keyword, up to the line with a number. -/
  keywordText (file : Line) : ℕ → Bool
  /-- Nor is it to the run for a date, and the result of that run to those which it is piped to. -/
  dateText (file : Line) : DatePattern → ℕ → Bool

/-- The fields that the shell makes of a variable that is not quoted. -/
def fields (s : Line) : List Line :=
  (s.splitOnP fun c => c == ' ' || c == '\t' || c == '\n').filter (!·.isEmpty)

/-- An argument that a command takes for an option. -/
def isOption (word : Line) : Bool := word.head? == some '-'

namespace Host

variable (host : Host)

/-- The words that the shell makes of `$keyword`. -/
def words (keyword : Line) : List Line :=
  (fields keyword).flatMap fun w => if host.pathnames w = [] then [w] else host.pathnames w

/-- What `grep -n -o $keyword $currentFile` prints of a line behind its number. Of more words
than one `grep` takes the further ones for files and puts a file name before each number, where
`readLineNum` finds none. -/
def results (keyword l : Line) : List Line :=
  match host.words keyword with
  | [word] => host.parts word l
  | words => if words.any isOption then host.optionParts words l else []

/-- One of the runs for a date reports the line with a number of a file. -/
def reportsDate (file : Line) (n : ℕ) (l : Line) : Bool :=
  DatePattern.all.any fun p => grep p.items l && host.dateText file p n

/-- The run for the keyword does. -/
def reportsKeyword (keyword file : Line) (n : ℕ) (l : Line) : Bool :=
  host.keywordText file n && !(host.results keyword l).isEmpty

end Host

/-! ### The files -/

/-- `99:99 2009-99-99`. -/
def tempDate : Line := "99:99 2009-99-99".toList

/-- The lines of a log file. -/
def logLines (file : Line) : List Line := readLines '\n' file

/-- The file with `echo "99:99 2009-99-99" >> $currentFile`. -/
def addTempDate (file : Line) : Line := file ++ tempDate ++ ['\n']

/-- `$currentFileSeg`. -/
def currentFileSeg (host : Host) (file : Line) : List (ℕ × Line) :=
  let temp := DatePattern.all.flatMap fun p =>
    (numbered (logLines file)).filter fun x => grep p.items x.2 && host.dateText file p x.1
  let seg := (temp.filter fun x => noBracket x.2).filter fun x => noQuote x.2
  seg.insertionSort fun x y => x.1 ≤ y.1

/-- `$currentFileKeyword`. -/
def currentFileKeyword (host : Host) (keyword file : Line) : List (ℕ × Line) :=
  (numbered (logLines file)).flatMap fun x =>
    if host.keywordText file x.1 then (host.results keyword x.2).map fun part => (x.1, part)
    else []

/-- What the script written by `fileOutput` prints of the file: lines with their numbers. -/
def printed (host : Host) (keyword filename file : Line) : List (ℕ × Line) :=
  let searched := addTempDate file
  match fileOutput (filename ++ ".keyword".toList)
      ((currentFileKeyword host keyword searched).map Prod.fst)
      ((currentFileSeg host searched).map Prod.fst) with
  | none => []
  | some commands => commands.flatMap (Command.prints (numbered (logLines searched)))

/-! ### Hits and sections -/

/-- A date line: `grep` finds a date in it, and it has no bracket and no quote. -/
def isDateLine (l : Line) : Bool :=
  DatePattern.all.any (fun p => grep p.items l) && noBracket l && noQuote l

/-- The numbers of the date lines of a file. -/
def dates (file : Line) : List ℕ :=
  ((numbered (logLines file)).filter fun x => isDateLine x.2).map Prod.fst

/-- The numbers of the lines after the first date line that match the keyword. -/
def hits (host : Host) (keyword file : Line) : List ℕ :=
  ((numbered (logLines file)).filter fun x =>
    host.accepts keyword x.2 && (dates file).any (· < x.1)).map Prod.fst

/-- The numbers of the lines of a file that end with a newline and that are reported. -/
def wholeLines (file : Line) (reported : ℕ → Line → Bool) : List ℕ :=
  ((numbered (logLines file)).filter fun x =>
    x.1 ≤ file.count '\n' && reported x.1 x.2).map Prod.fst

/-- The whole lines of a file that `grep -n -o $keyword` reports. -/
def found (host : Host) (keyword file : Line) : List ℕ :=
  wholeLines file (host.reportsKeyword keyword (addTempDate file))

/-- The date lines among the whole lines of a file that are reported. -/
def separators (host : Host) (file : Line) : List ℕ :=
  wholeLines file fun n l =>
    host.reportsDate (addTempDate file) n l && noBracket l && noQuote l

/-- The temporary date is reported: what stands before it on its line has no bracket and no
quote. -/
def LastDate (host : Host) (file : Line) : Prop :=
  host.reportsDate (addTempDate file) (file.count '\n' + 1) (unfinished '\n' file ++ tempDate) ∧
    noBracket (unfinished '\n' file) ∧ noQuote (unfinished '\n' file)

instance (host : Host) (file : Line) : Decidable (LastDate host file) :=
  inferInstanceAs (Decidable (_ ∧ _))

/-- The line `n` is in the section that the date line `s` opens. -/
def InSection (host : Host) (file : Line) (s n : ℕ) : Prop :=
  s < n ∧ ∀ d ∈ separators host file, d ≤ s ∨ n < d

instance (host : Host) (file : Line) (s n : ℕ) : Decidable (InSection host file s n) :=
  inferInstanceAs (Decidable (_ ∧ _))

/-- The section of the line `n` ends with a date line: that of the next one, or the temporary
one. -/
def Closed (host : Host) (file : Line) (n : ℕ) : Prop :=
  (∃ d ∈ separators host file, n < d) ∨ LastDate host file

instance (host : Host) (file : Line) (n : ℕ) : Decidable (Closed host file n) :=
  inferInstanceAs (Decidable (_ ∨ _))

/-- The section of the line `n` is closed and has a line that is found, and that is not its date
line. -/
def Reported (host : Host) (keyword file : Line) (n : ℕ) : Prop :=
  ∃ s ∈ separators host file, InSection host file s n ∧ Closed host file n ∧
    s ∉ found host keyword file ∧ ∃ k ∈ found host keyword file, InSection host file s k

instance (host : Host) (keyword file : Line) (n : ℕ) : Decidable (Reported host keyword file n) :=
  inferInstanceAs (Decidable (∃ s ∈ separators host file, _))

/-! ### The files of a log -/

variable {host : Host} {keyword filename file : Line} {n : ℕ} {l : Line}

/-- A line is among the results if one of the three runs reports it and the two filters let it
through. -/
theorem mem_currentFileSeg : (n, l) ∈ currentFileSeg host file ↔
    (n, l) ∈ numbered (logLines file) ∧ host.reportsDate file n l = true ∧
      noBracket l = true ∧ noQuote l = true := by
  simp only [currentFileSeg, List.mem_insertionSort, List.mem_filter, List.mem_flatMap,
    Host.reportsDate, Bool.and_eq_true, List.any_eq_true]
  constructor
  · rintro ⟨⟨⟨p, hp, hl, hgrep⟩, hbracket⟩, hquote⟩
    exact ⟨hl, ⟨p, hp, hgrep⟩, hbracket, hquote⟩
  · rintro ⟨hl, ⟨p, hp, hgrep⟩, hbracket, hquote⟩
    exact ⟨⟨⟨p, hp, hl, hgrep⟩, hbracket⟩, hquote⟩

/-- The results are sorted by number, as `sort -n` leaves them. -/
theorem currentFileSeg_sorted (host : Host) (file : Line) :
    ((currentFileSeg host file).map Prod.fst).Pairwise (· ≤ ·) := by
  rw [List.pairwise_map]
  exact List.pairwise_insertionSort _ _

/-- A line is among the results if the run for the keyword reports it. -/
theorem mem_currentFileKeyword : n ∈ (currentFileKeyword host keyword file).map Prod.fst ↔
    ∃ l, (n, l) ∈ numbered (logLines file) ∧ host.reportsKeyword keyword file n l = true := by
  simp only [Host.reportsKeyword, Bool.and_eq_true, Bool.not_eq_true', List.isEmpty_eq_false_iff]
  constructor
  · intro hn
    obtain ⟨x, hx, rfl⟩ := List.mem_map.mp hn
    obtain ⟨y, hy, hx⟩ := List.mem_flatMap.mp hx
    split_ifs at hx with htext
    · obtain ⟨part, hmem, rfl⟩ := List.mem_map.mp hx
      exact ⟨y.2, hy, htext, List.ne_nil_of_mem hmem⟩
    · cases hx
  · rintro ⟨l, hl, htext, hresults⟩
    obtain ⟨part, hpart⟩ := List.exists_mem_of_ne_nil _ hresults
    refine List.mem_map.mpr ⟨(n, part), List.mem_flatMap.mpr ⟨(n, l), hl, ?_⟩, rfl⟩
    rw [if_pos htext]
    exact List.mem_map_of_mem hpart

/-- They come in the order of the lines, with several results of one line next to each other.
-/
theorem currentFileKeyword_sorted (host : Host) (keyword file : Line) :
    ((currentFileKeyword host keyword file).map Prod.fst).Pairwise (· ≤ ·) := by
  have hfst : ∀ x : ℕ × Line, ∀ a ∈ (if host.keywordText file x.1 then
      (host.results keyword x.2).map fun part => (x.1, part) else []), a.1 = x.1 := by
    rintro x a ha
    split_ifs at ha
    · obtain ⟨_, _, rfl⟩ := List.mem_map.mp ha
      rfl
    · cases ha
  rw [currentFileKeyword, List.pairwise_map, List.pairwise_flatMap]
  constructor
  · intro x _
    refine List.Pairwise.imp_of_mem ?_ (List.pairwise_of_forall fun _ _ => trivial)
    rintro a b ha hb -
    rw [hfst x a ha, hfst x b hb]
  · refine (numbered_pairwise (logLines file)).imp fun {x y} hxy a ha b hb => ?_
    rw [hfst x a ha, hfst y b hb]
    exact Nat.le_of_lt hxy

/-- The numbers of the date lines, -/
theorem mem_dates :
    n ∈ dates file ↔ ∃ l, (n, l) ∈ numbered (logLines file) ∧ isDateLine l = true := by
  simp [dates]

/-- of the lines that are hit, -/
theorem mem_hits : n ∈ hits host keyword file ↔
    (∃ l, (n, l) ∈ numbered (logLines file) ∧ host.accepts keyword l = true) ∧
      ∃ d ∈ dates file, d < n := by
  simp only [hits, List.mem_map, List.mem_filter, Bool.and_eq_true, List.any_eq_true,
    decide_eq_true_eq]
  constructor
  · rintro ⟨⟨n, l⟩, ⟨hl, haccepts, hd⟩, rfl⟩
    exact ⟨⟨l, hl, haccepts⟩, hd⟩
  · rintro ⟨⟨l, hl, haccepts⟩, hd⟩
    exact ⟨(n, l), ⟨hl, haccepts, hd⟩, rfl⟩

/-- and of the whole lines that are reported. -/
theorem mem_wholeLines {reported : ℕ → Line → Bool} : n ∈ wholeLines file reported ↔
    n ≤ file.count '\n' ∧ ∃ l, (n, l) ∈ numbered (logLines file) ∧ reported n l = true := by
  simp only [wholeLines, List.mem_map, List.mem_filter, Bool.and_eq_true, decide_eq_true_eq]
  constructor
  · rintro ⟨⟨n, l⟩, ⟨hl, hn, hreported⟩, rfl⟩
    exact ⟨hn, l, hl, hreported⟩
  · rintro ⟨hn, l, hl, hreported⟩
    exact ⟨(n, l), ⟨hl, hn, hreported⟩, rfl⟩

/-- What is reported as a date is one. -/
theorem mem_dates_of_mem_separators (h : n ∈ separators host file) : n ∈ dates file := by
  obtain ⟨-, l, hl, hreported⟩ := mem_wholeLines.mp h
  simp only [Host.reportsDate, Bool.and_eq_true, List.any_eq_true] at hreported
  obtain ⟨⟨⟨p, hp, hgrep, -⟩, hbracket⟩, hquote⟩ := hreported
  refine mem_dates.mpr ⟨l, hl, ?_⟩
  simp only [isDateLine, Bool.and_eq_true, List.any_eq_true]
  exact ⟨⟨⟨p, hp, hgrep⟩, hbracket⟩, hquote⟩

/-! ### The temporary date -/

/-- The lines of a file before and after the temporary date is added. -/
theorem exists_lines (file : Line) : ∃ whole : List Line, whole.length = file.count '\n' ∧
    logLines file = whole ++ (if unfinished '\n' file = [] then [] else [unfinished '\n' file]) ∧
      logLines (addTempDate file) = whole ++ [unfinished '\n' file ++ tempDate] := by
  obtain ⟨whole, rest, rfl, hwhole, hrest⟩ := exists_writeLines '\n' file
  refine ⟨whole, (count_writeLines_append hwhole hrest).symm, ?_, ?_⟩
  · rw [logLines, readLines_writeLines_append hwhole, readLines_of_not_mem hrest,
      unfinished_writeLines_append whole hrest]
  · have hlast : '\n' ∉ rest ++ tempDate := by
      rw [List.mem_append, not_or]
      exact ⟨hrest, by decide⟩
    rw [logLines, addTempDate, unfinished_writeLines_append whole hrest, List.append_assoc,
      List.append_assoc, readLines_writeLines_append hwhole, ← List.append_assoc rest,
      readLines_append_terminator hlast, readLines_nil]

/-- With the temporary date there is one line more than there are newlines. -/
theorem length_addTempDate (file : Line) :
    (logLines (addTempDate file)).length = file.count '\n' + 1 := by
  obtain ⟨whole, hlength, -, hadded⟩ := exists_lines file
  rw [hadded, List.length_append, hlength, List.length_singleton]

/-- The whole lines stay as they are. -/
theorem mem_numbered_addTempDate (hn : n ≤ file.count '\n') :
    (n, l) ∈ numbered (logLines (addTempDate file)) ↔ (n, l) ∈ numbered (logLines file) := by
  obtain ⟨whole, hlength, hlines, hadded⟩ := exists_lines file
  rw [hlines, hadded, mem_numbered_append (hlength ▸ hn), mem_numbered_append (hlength ▸ hn)]

/-- The last line is what was not finished, with the temporary date. -/
theorem last_numbered_addTempDate :
    (file.count '\n' + 1, l) ∈ numbered (logLines (addTempDate file)) ↔
      l = unfinished '\n' file ++ tempDate := by
  obtain ⟨whole, hlength, -, hadded⟩ := exists_lines file
  rw [hadded, mem_numbered_concat, hlength]
  refine ⟨fun h => ?_, fun h => .inr ⟨rfl, h⟩⟩
  rcases h with hmem | ⟨-, hl⟩
  · have hle := (le_of_mem_numbered hmem).2
    omega
  · exact hl

/-- Without it there is at most one line behind the last newline. -/
theorem le_of_mem_logLines (h : (n, l) ∈ numbered (logLines file)) : n ≤ file.count '\n' + 1 := by
  obtain ⟨whole, hlength, hlines, -⟩ := exists_lines file
  have hle := (le_of_mem_numbered h).2
  rw [hlines, List.length_append, hlength] at hle
  refine Nat.le_trans hle (Nat.add_le_add_left ?_ _)
  split_ifs <;> simp

/-- A bracket or a quote on the unfinished last line is on the line of the temporary date, too.
-/
@[simp] theorem noBracket_append (l l' : Line) :
    noBracket (l ++ l') = (noBracket l && noBracket l') := by
  simp only [noBracket, List.contains_append, Bool.not_or]
  ac_rfl

@[simp] theorem noQuote_append (l l' : Line) : noQuote (l ++ l') = (noQuote l && noQuote l') := by
  simp only [noQuote, List.contains_append, Bool.not_or]

/-! ### The numbers that `fileOutput` reads -/

variable (host keyword file) in
/-- The numbers in `$currentFileKeyword`. -/
def keywordNums : List ℕ := (currentFileKeyword host keyword (addTempDate file)).map Prod.fst

variable (host file) in
/-- The numbers in `$currentFileSeg`. -/
def segNums : List ℕ := (currentFileSeg host (addTempDate file)).map Prod.fst

/-- Of the whole lines `fileOutput` reads the numbers of those that are found in the file as it
was. The last line is left out here: it has changed. -/
theorem mem_keywordNums (hn : n ≤ file.count '\n') :
    n ∈ keywordNums host keyword file ↔ n ∈ found host keyword file := by
  rw [keywordNums, mem_currentFileKeyword, found, mem_wholeLines, and_iff_right hn]
  exact exists_congr fun l => and_congr_left fun _ => mem_numbered_addTempDate hn

/-- The separators that it reads are those of the file as it was, and the line of the temporary
date if that is still a date line. -/
theorem mem_segNums : n ∈ segNums host file ↔
    n ∈ separators host file ∨ (n = file.count '\n' + 1 ∧ LastDate host file) := by
  have hmem : n ∈ segNums host file ↔ ∃ l, (n, l) ∈ numbered (logLines (addTempDate file)) ∧
      host.reportsDate (addTempDate file) n l = true ∧ noBracket l = true ∧ noQuote l = true := by
    simp [segNums, mem_currentFileSeg]
  simp only [hmem, separators, mem_wholeLines, LastDate, Bool.and_eq_true, and_assoc]
  have htemp : noBracket tempDate = true ∧ noQuote tempDate = true := by decide
  constructor
  · rintro ⟨l, hl, hreported, hbracket, hquote⟩
    by_cases hn : n ≤ file.count '\n'
    · exact .inl ⟨hn, l, (mem_numbered_addTempDate hn).mp hl, hreported, hbracket, hquote⟩
    · have hle := (le_of_mem_numbered hl).2
      rw [length_addTempDate] at hle
      obtain rfl : n = file.count '\n' + 1 := by omega
      obtain rfl := last_numbered_addTempDate.mp hl
      rw [noBracket_append, Bool.and_eq_true] at hbracket
      rw [noQuote_append, Bool.and_eq_true] at hquote
      exact .inr ⟨rfl, hreported, hbracket.1, hquote.1⟩
  · rintro (⟨hn, l, hl, hreported⟩ | ⟨rfl, hreported, hbracket, hquote⟩)
    · exact ⟨l, (mem_numbered_addTempDate hn).mpr hl, hreported⟩
    · refine ⟨_, last_numbered_addTempDate.mpr rfl, hreported, ?_, ?_⟩
      · rw [noBracket_append, hbracket, htemp.1, Bool.and_true]
      · rw [noQuote_append, hquote, htemp.2, Bool.and_true]

/-- They are numbers of lines. -/
theorem le_of_mem_segNums (h : n ∈ segNums host file) : 1 ≤ n ∧ n ≤ file.count '\n' + 1 := by
  rcases mem_segNums.mp h with hseparator | ⟨rfl, -⟩
  · obtain ⟨hn, l, hl, -⟩ := mem_wholeLines.mp hseparator
    exact ⟨(le_of_mem_numbered hl).1, by omega⟩
  · omega

/-- What the script prints are the lines of the segments, from one separator to the next, that
have a result strictly inside and none on the first of the two. That `fileOutput` chooses these
segments is shown in `OpenLog.LogAssistant.FileOutput`; here its conditions on the numbers are
met. -/
theorem mem_printed : (n, l) ∈ printed host keyword filename file ↔
    (n, l) ∈ numbered (logLines (addTempDate file)) ∧ ∃ a b, Adjacent (segNums host file) a b ∧
      (∃ k ∈ keywordNums host keyword file, a < k ∧ k < b) ∧ a ∉ keywordNums host keyword file ∧
        a ≤ n ∧ n ≤ b := by
  have hscript : (n, l) ∈ printed host keyword filename file ↔
      ∃ commands ∈ fileOutput (filename ++ ".keyword".toList) (keywordNums host keyword file)
        (segNums host file), (n, l) ∈ commands.flatMap
          (Command.prints (numbered (logLines (addTempDate file)))) := by
    rw [printed, keywordNums, segNums]
    split
    · rename_i hnone
      rw [hnone]
      simp only [List.not_mem_nil, Option.mem_def, reduceCtorEq, false_and, exists_false]
    · rename_i commands hsome
      rw [hsome]
      simp only [Option.mem_def, Option.some.injEq, exists_eq_left']
  rw [hscript]
  cases hsegs : segNums host file with
  | nil =>
    constructor
    · rintro ⟨commands, hcommands, -⟩
      cases hcommands
    · rintro ⟨-, a, b, hadj, -⟩
      exact absurd hadj not_adjacent_nil
  | cons last segs =>
    refine mem_script (fun s hs => ?_) (fun s hs => ?_) ?_ (currentFileKeyword_sorted _ _ _)
    · exact (le_of_mem_segNums (hsegs ▸ hs)).1
    · rw [length_addTempDate]
      exact (le_of_mem_segNums (hsegs ▸ hs)).2
    · rw [← hsegs]
      exact currentFileSeg_sorted _ _

/-! ### Every hit -/

/-- A hit is on no date line, of a keyword that matches none. -/
theorem not_mem_dates_of_mem_hits
    (hdates : ∀ l ∈ logLines file, isDateLine l = true → host.accepts keyword l = false)
    (hn : n ∈ hits host keyword file) : n ∉ dates file := by
  intro hdate
  obtain ⟨⟨l, hl, haccepts⟩, -⟩ := mem_hits.mp hn
  obtain ⟨l', hl', hdate⟩ := mem_dates.mp hdate
  obtain rfl := eq_of_mem_numbered hl hl'
  rw [hdates l (mem_of_mem_numbered hl) hdate] at haccepts
  cases haccepts

/-- A segment with a key inside begins with a whole line, since the temporary date is the last
separator. -/
theorem mem_separators_of_adjacent {a b : ℕ} (hadj : Adjacent (segNums host file) a b)
    (hab : a + 1 < b) : a ∈ separators host file ∧ a ≤ file.count '\n' := by
  have hb := (le_of_mem_segNums hadj.mem_right).2
  rcases mem_segNums.mp hadj.mem_left with ha | ⟨rfl, -⟩
  · exact ⟨ha, (mem_wholeLines.mp ha).1⟩
  · omega

/-- No separator is lost by adding the temporary date. -/
theorem mem_segNums_of_mem_separators (h : n ∈ separators host file) : n ∈ segNums host file :=
  mem_segNums.mpr (.inl h)

/-- **What is printed**: a hit is printed if and only if its section is reported. The section is
the segment between two neighbours among the separators, the second of which can be the
temporary date. -/
theorem mem_printed_iff_reported
    (hdates : ∀ l ∈ logLines file, isDateLine l = true → host.accepts keyword l = false)
    (hn : n ∈ hits host keyword file) :
    n ∈ (printed host keyword filename file).map Prod.fst ↔ Reported host keyword file n := by
  have hnot : n ∉ separators host file := fun h =>
    not_mem_dates_of_mem_hits hdates hn (mem_dates_of_mem_separators h)
  obtain ⟨⟨l, hl, -⟩, -⟩ := mem_hits.mp hn
  have hle := le_of_mem_logLines hl
  constructor
  · intro hprinted
    obtain ⟨⟨n, l⟩, hmem, rfl⟩ := List.mem_map.mp hprinted
    obtain ⟨-, a, b, hadj, ⟨k, hk, hak, hkb⟩, hkey, han, hnb⟩ := mem_printed.mp hmem
    have hb := (le_of_mem_segNums hadj.mem_right).2
    obtain ⟨ha, hcount⟩ := mem_separators_of_adjacent hadj (by omega)
    have hbetween : ∀ d ∈ separators host file, d ≤ a ∨ b ≤ d := fun d hd =>
      hadj.not_between (currentFileSeg_sorted _ _) (mem_segNums_of_mem_separators hd)
    refine ⟨a, ha, ⟨?_, fun d hd => ?_⟩, ?_, ?_, k, ?_, hak, fun d hd => ?_⟩
    · exact Nat.lt_of_le_of_ne han fun heq => hnot (heq ▸ ha)
    · refine (hbetween d hd).imp_right fun hbd => ?_
      exact Nat.lt_of_le_of_ne (Nat.le_trans hnb hbd) fun heq => hnot (heq ▸ hd)
    · rcases mem_segNums.mp hadj.mem_right with hbdate | ⟨-, hlast⟩
      · exact .inl ⟨b, hbdate, Nat.lt_of_le_of_ne hnb fun heq => hnot (heq ▸ hbdate)⟩
      · exact .inr hlast
    · rwa [← mem_keywordNums hcount]
    · exact (mem_keywordNums (by omega)).mp hk
    · exact (hbetween d hd).imp_right fun hbd => Nat.lt_of_lt_of_le hkb hbd
  · rintro ⟨s, hs, ⟨hsn, hsection⟩, hclosed, hkey, k, hk, hsk, hksection⟩
    have hcount : s ≤ file.count '\n' := (mem_wholeLines.mp hs).1
    have hfound : k ≤ file.count '\n' := (mem_wholeLines.mp hk).1
    obtain ⟨c, hc, hsc⟩ : ∃ c ∈ segNums host file, s < c := by
      rcases hclosed with ⟨d, hd, hnd⟩ | hlast
      · exact ⟨d, mem_segNums_of_mem_separators hd, by omega⟩
      · exact ⟨_, mem_segNums.mpr (.inr ⟨rfl, hlast⟩), by omega⟩
    obtain ⟨b, hadj, hsb⟩ := exists_adjacent (currentFileSeg_sorted _ _)
      (mem_segNums_of_mem_separators hs) hc hsc
    -- the next separator is after the hit and after the line that is found
    obtain ⟨hnb, hkb⟩ : n ≤ b ∧ k < b := by
      rcases mem_segNums.mp hadj.mem_right with hb | ⟨rfl, -⟩
      · have hafter := hsection b hb
        have hkafter := hksection b hb
        omega
      · omega
    obtain ⟨l', hl'⟩ := exists_mem_numbered (l := logLines (addTempDate file)) (n := n) (by omega)
      (by rw [length_addTempDate]; exact hle)
    refine List.mem_map.mpr ⟨(n, l'), mem_printed.mpr ⟨hl', s, b, hadj, ⟨k, ?_, hsk, hkb⟩, ?_,
      Nat.le_of_lt hsn, hnb⟩, rfl⟩
    · exact (mem_keywordNums hfound).mpr hk
    · rwa [mem_keywordNums hcount]

/-- The occurrences of a word, of which the first `skip` characters are passed over. -/
def occurrences (word : Line) : ℕ → Line → List Line
  | _, [] => []
  | skip + 1, _ :: l => occurrences word skip l
  | 0, c :: l =>
    if word ≠ [] ∧ word <+: c :: l then word :: occurrences word (word.length - 1) l
    else occurrences word 0 l

/-- A host with files of text only, for keywords without special characters. -/
def plainHost : Host where
  pathnames _ := []
  accepts word l := l.tails.any fun t => word <+: t
  parts word := occurrences word 0
  optionParts _ _ := []
  keywordText _ _ := true
  dateText _ _ _ := true

/-- A log of two sections that ends with a newline. -/
def finishedLog : Line :=
  "22:51 2007-08-01\nfoo\n16:11 2007-08-02\nbar\nfoo bar\n".toList

/-- A log whose last line is not finished. -/
def unfinishedLog : Line := "22:51 2007-08-01\nfoo".toList

/-- A host where `fo*` is the name of the file `foo.txt` to the shell, and matches `foo`. -/
def starHost : Host where
  pathnames word := if word = "fo*".toList then ["foo.txt".toList] else []
  accepts word l := word = "fo*".toList ∧ l = "foo".toList
  parts word l := if word = "fo*".toList ∧ l = "foo".toList then [l] else []
  optionParts _ _ := []
  keywordText _ _ := true
  dateText _ _ _ := true

/-- The shell puts the name of a file for the keyword, and no hit is reported. -/
example : 2 ∈ hits starHost "fo*".toList finishedLog ∧
    ¬Reported starHost "fo*".toList finishedLog 2 := by
  decide

end LogAssistant

end OpenLog
