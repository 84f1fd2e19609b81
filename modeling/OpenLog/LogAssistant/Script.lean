import OpenLog.LogAssistant.Search
import OpenLog.LogAssistant.WorkFiles
import OpenLog.Text.Files

/-!
# What the words of `logAssistant.sh` are the names of

No variable is quoted in the script. So the shell splits each word at blanks and puts the names
of files for it if it is a pattern that some match: for a log `a[b].txt` the script copies to
`a[b].txt.bak`, but where there is a file `ab.txt.bak` that is the word that `cp` gets. And the
entry that a word leads to can be a link, or a second name of a file. The names of an expansion
and the entries are those of the moment at which the command runs.

What the shell makes of words is a parameter (`OpenLog.LogAssistant.Shell`), and so is what the
commands print (`OpenLog.LogAssistant.Tools`).

## The result

The words of a log are literal (`OpenLog.LogAssistant.Shell.Literal`) if the shell leaves each of
them as it is, whichever of the working files are there, and if none of their entries is a link
or of a file with a second name. Then the commands do to the directory what those of
`OpenLog.LogAssistant.WorkFiles` do, and the files of the user are left alone if and only if each
log is clear (`OpenLog.LogAssistant.leavesAlone_iff`).
-/

namespace OpenLog

namespace LogAssistant

open Text FindKeyword

/-! ### The shell -/

/-- What the shell makes of words. -/
structure Shell (ν : Type*) where
  /-- The words for one that is not quoted: its fields, with the names of the entries that are
  there for a field which matches some. -/
  expand : (ν → Bool) → Line → List Line
  /-- The entry that a path leads to. `./log.txt` and `log.txt` are the same. -/
  place : Line → ν
  /-- The working files of a log are next to it. -/
  place_work_injective : ∀ f, Function.Injective fun w : Work => place (w.name f)
  place_work_ne : ∀ f (w : Work), place (w.name f) ≠ place f

namespace Shell

variable {ν : Type*} (sh : Shell ν)

/-- The entries of a log and of its working files. -/
def names (f : Line) : LogNames ν where
  log := sh.place f
  work w := sh.place (w.name f)
  work_injective := sh.place_work_injective f
  work_ne_log := sh.place_work_ne f

variable (fs : Files ν Char)

/-- The words for one, with the entries that there are. -/
def words (w : Line) : List Line := sh.expand (fun n => (fs.entry n).isSome) w

/-- The entry for a word that must be one: in a test, or behind `>`, where bash calls several
words ambiguous. -/
def target (w : Line) : Option ν :=
  match sh.words fs w with
  | [word] => some (sh.place word)
  | _ => none

/-- The entries for the arguments of a command that takes names. None of these commands has an
option that looks like the words of the script, so that one which looks like an option fails
it. -/
def operands (ws : List Line) : Option (List ν) :=
  if (ws.flatMap (sh.words fs)).any isOption then none
  else some ((ws.flatMap (sh.words fs)).map sh.place)

/-- The entries for the arguments of `cp` and `mv`, of which there must be two. -/
def pair (a b : Line) : Option (ν × ν) :=
  match sh.operands fs [a, b] with
  | some [m, n] => some (m, n)
  | _ => none

end Shell

/-! ### The commands -/

/-- What the commands print, `none` where they fail. The words of the arguments are those that
the shell has made of them, and the files can be any. -/
structure Tools (ν : Type*) where
  /-- `grep -n -o $keyword`. -/
  grepKeyword : Files ν Char → List Line → Option Line
  /-- The three `grep -n` for a date. -/
  grepDate : Fin 3 → Files ν Char → List Line → Option Line
  /-- The two `grep -v`. -/
  grepPlain : Files ν Char → List Line → Option Line
  sort : Files ν Char → List Line → Option Line
  /-- `fileOutput` on the keyword and the seg file: the script that it writes. -/
  fileOutput : Files ν Char → Line → Line → Option Line
  /-- What such a script prints, with its arguments. -/
  run : Line → Files ν Char → List Line → Option Line
  /-- The first command of the script is an `echo`. -/
  run_ne_nil : ∀ {fs fs' k s script args r}, fileOutput fs k s = some script →
    run script fs' args = some r → r ≠ []
  /-- `[ $currentFile -nt $currentFileSeg ]`, where both are there. -/
  newer : Files ν Char → ν → ν → Bool

section Script

variable {ν : Type*} [DecidableEq ν] (sh : Shell ν) (tools : Tools ν) (out : Line)

/-- `command $a > $b`. The words are looked up before the file is written. -/
def redirect (command : Files ν Char → List Line → Option Line) (a b : Line)
    (fs : Files ν Char) : Option (Files ν Char) :=
  (sh.target fs b).bind fun n => (fs.put n []).bind fun fs' =>
    (command fs' (sh.words fs a)).bind fun c => fs'.put n c

/-- `command $a >> $b`. -/
def redirectAdd (command : Files ν Char → List Line → Option Line) (a b : Line)
    (fs : Files ν Char) : Option (Files ν Char) :=
  (sh.target fs b).bind fun n => (fs.append n []).bind fun fs' =>
    (command fs' (sh.words fs a)).bind fun c => fs'.append n c

/-- `mv $a $b`. -/
def move (a b : Line) (fs : Files ν Char) : Option (Files ν Char) :=
  (sh.pair fs a b).bind fun p => fs.mv p.1 p.2

/-- `if [ -f $a ]; then mv $a $b; fi`. -/
def moveIf (a b : Line) (fs : Files ν Char) : Option (Files ν Char) :=
  (sh.target fs a).bind fun n => if fs.isFile n then move sh a b fs else some fs

/-- `rm $a`. -/
def remove (a : Line) (fs : Files ν Char) : Option (Files ν Char) :=
  (sh.operands fs [a]).bind fun ns => ns.foldlM (fun fs n => fs.rm n) fs

/-- `[ $a -nt $b ]`. -/
def isNewer (a b : Line) (fs : Files ν Char) : Option Bool :=
  (sh.target fs a).bind fun m => (sh.target fs b).map fun n =>
    fs.isFile m && (!fs.isFile n || tools.newer fs m n)

/-- The log is kept, and the temporary date is added to it. -/
def mark (f : Line) (fs : Files ν Char) : Option (Files ν Char) :=
  (sh.pair fs f (Work.bak.name f)).bind fun p => (fs.cp p.1 p.2).bind fun fs =>
    (sh.target fs f).bind fun n => fs.append n ("99:99 2009-99-99".toList ++ ['\n'])

/-- `$currentFileKeyword` and `$currentFileSeg` are made. -/
def search (f : Line) (fs : Files ν Char) : Option (Files ν Char) :=
  (redirect sh tools.grepKeyword f (Work.keyword.name f) fs).bind fun fs =>
    (isNewer sh tools f (Work.seg.name f) fs).bind fun newer =>
      if newer then
        redirect sh (tools.grepDate 0) f (Work.segTemp.name f) fs
          >>= redirectAdd sh (tools.grepDate 1) f (Work.segTemp.name f)
          >>= redirectAdd sh (tools.grepDate 2) f (Work.segTemp.name f)
          >>= redirect sh tools.grepPlain (Work.segTemp.name f) (Work.seg.name f)
          >>= redirect sh tools.sort (Work.seg.name f) (Work.segResult.name f)
          >>= move sh (Work.segResult.name f) (Work.seg.name f)
      else some fs

/-- `fileOutput $currentFileKeyword $currentFileSeg ${currentFile}_output`. With two arguments
it writes no file, and with more than three it crashes. -/
def writeScript (f : Line) (fs : Files ν Char) : Option (Files ν Char) :=
  match sh.words fs (Work.keyword.name f) ++ sh.words fs (Work.seg.name f) ++
      sh.words fs (Work.output.name f) with
  | [k, s, o] => (tools.fileOutput fs k s).bind fun script =>
      fs.append (sh.place o) script
  | _ => none

/-- `./${currentFile}_output $currentFile >> $outputFile`. A script whose output is added to
itself comes to run it, and `result` is no command. -/
def runScript (f : Line) (fs : Files ν Char) : Option (Files ν Char) :=
  match sh.words fs ("./".toList ++ Work.output.name f) ++ sh.words fs f with
  | [] => none
  | command :: args => (sh.target fs out).bind fun n => (fs.append n []).bind fun fs =>
      (fs.read (sh.place command)).bind fun script => (tools.run script fs args).bind fun r =>
        if fs.node n = fs.node (sh.place command) then none else fs.append n r

/-- The script for the log is written and run. -/
def writeOutput (f : Line) (fs : Files ν Char) : Option (Files ν Char) :=
  moveIf sh (Work.output.name f) (Work.outputBak.name f) fs
    >>= writeScript sh tools f >>= runScript sh tools out f
    >>= moveIf sh (Work.outputBak.name f) (Work.output.name f)

/-- The log is put back and the working files are deleted. -/
def restore (f : Line) (fs : Files ν Char) : Option (Files ν Char) :=
  move sh (Work.bak.name f) f fs >>= remove sh (Work.keyword.name f)
    >>= remove sh (Work.seg.name f) >>= remove sh (Work.segTemp.name f)
    >>= fun fs => (sh.operands fs [Work.output.name f]).map fun ns => ns.foldl Files.erase fs

/-- The body of the loop. A word that is no file is passed over. -/
def searchLog (fs : Files ν Char) (f : Line) : Option (Files ν Char) :=
  (sh.target fs f).bind fun n =>
    if fs.isFile n then
      mark sh f fs >>= search sh tools f >>= writeOutput sh tools out f >>= restore sh f
    else some fs

/-- The script, with the words of `$filename`: `none` where a command fails. -/
def logAssistant (words : List Line) (fs : Files ν Char) : Option (Files ν Char) :=
  match sh.words fs out with
  | [] => some fs
  | [word] => if fs.isFile (sh.place word) then some fs
      else words.foldlM (searchLog sh tools out) fs
  | _ => none

end Script

/-! ### The files of the user -/

/-- Every file that could be read is read as before, and only the output file is new. -/
def LeavesAlone {ν : Type*} (out : ν) (fs fs' : Files ν Char) : Prop :=
  (∀ n c, fs.read n = some c → fs'.read n = some c) ∧
    ∀ n, fs.entry n = none → fs'.entry n ≠ none → n = out

namespace Shell

variable {ν : Type*} (sh : Shell ν) (fs : Files ν Char) (out f : Line)

/-- No file but the output file has the name of a working file of the log, and the output file
is not the log's backup. -/
def Clear : Prop :=
  (∀ w : Work, sh.place (w.name f) ≠ sh.place out → fs.entry (sh.place (w.name f)) = none) ∧
    sh.place out ≠ sh.place (Work.bak.name f)

/-- The shell leaves a word as it is, whichever of some entries are there. -/
def Stands (E : Set ν) (w : Line) : Prop :=
  ∀ there : ν → Bool, (∀ n, there n = true → n ∈ E) → sh.expand there w = [w]

/-- The entries that the script works on for a log. -/
def own : Set ν := {n | n = sh.place out ∨ n = sh.place f ∨ ∃ w : Work, n = sh.place (w.name f)}

/-- The entries that can be there while a log is searched. -/
def around : Set ν := {n | fs.entry n ≠ none} ∪ sh.own out f

/-- The words for a log that is searched stand for themselves, and the entries for them are no
links and of no files with a second name. -/
structure Used : Prop where
  log : sh.Stands (sh.around fs out f) f
  work : ∀ w : Work, sh.Stands (sh.around fs out f) (w.name f)
  output : sh.Stands (sh.around fs out f) out
  run : sh.Stands (sh.around fs out f) ("./".toList ++ Work.output.name f)
  /-- The name of the log is no path from the root, to which `./` does not lead. -/
  place_run : sh.place ("./".toList ++ Work.output.name f) = sh.place (Work.output.name f)
  plain : fs.Plain (sh.own out f)

/-- A word of the list stands for itself and is no link. If it is a file, this is so of the other
words too that the script makes from it. -/
structure Literal : Prop where
  word : sh.Stands ({n | fs.entry n ≠ none} ∪ {sh.place out}) f
  no_link : ∀ t, fs.entry (sh.place f) ≠ some (.link t)
  used : fs.isFile (sh.place f) = true → sh.Used fs out f

end Shell

/-! ### The commands on literal words -/

section Views

variable {ν : Type*} {sh : Shell ν} {tools : Tools ν} {fs₀ fs fs' : Files ν Char}
  {out f a b w : Line} {E : Set ν}

namespace Shell

/-- A word that stands for itself beside many entries does so beside fewer. -/
theorem Stands.mono {F : Set ν} (h : sh.Stands E w) (hsub : F ⊆ E) : sh.Stands F w :=
  fun there hthere => h there fun n hn => hsub (hthere n hn)

/-- It is expanded to itself, whichever of the entries are there. -/
theorem Stands.words_eq (h : sh.Stands E w) (hthere : ∀ n, fs.entry n ≠ none → n ∈ E) :
    sh.words fs w = [w] :=
  h _ fun n hn => hthere n (Option.isSome_iff_ne_none.mp hn)

variable (sh fs₀ out f) in
/-- A word that stands for itself while a log is searched, of an entry that the script works
on. -/
structure Usable (w : Line) : Prop where
  stands : sh.Stands (sh.around fs₀ out f) w
  mem : sh.place w ∈ sh.own out f

namespace Used

/-- The log is a word that can be used, of an entry that the script works on. -/
theorem usable_log (h : sh.Used fs₀ out f) : sh.Usable fs₀ out f f := ⟨h.log, .inr (.inl rfl)⟩

/-- So is each of its working files. -/
theorem usable_work (h : sh.Used fs₀ out f) (w : Work) : sh.Usable fs₀ out f (w.name f) :=
  ⟨h.work w, .inr (.inr ⟨w, rfl⟩)⟩

/-- So is the output file. -/
theorem usable_output (h : sh.Used fs₀ out f) : sh.Usable fs₀ out f out := ⟨h.output, .inl rfl⟩

end Used

variable (sh fs₀ out f) in
/-- What is so of the files while a log is searched: the entries of the script are plain, and no
others have come. -/
structure During (fs : Files ν Char) : Prop where
  plain : fs.Plain (sh.own out f)
  there : ∀ n, fs.entry n ≠ none → n ∈ sh.around fs₀ out f

namespace During

variable (h : sh.During fs₀ out f fs)

include h

/-- What is so of the files is so after a command that keeps to the entries of the script. -/
theorem next (hkeeps : Files.Keeps (sh.own out f) fs fs') : sh.During fs₀ out f fs' := by
  refine ⟨hkeeps.plain, fun n hn => ?_⟩
  by_cases hown : n ∈ sh.own out f
  · exact .inr hown
  · rw [hkeeps.frame n hown] at hn
    exact h.there n hn

/-- The shell leaves a word that can be used as it is. -/
theorem words_eq (hw : sh.Usable fs₀ out f w) : sh.words fs w = [w] :=
  hw.stands.words_eq h.there

/-- So a redirection to it goes to its own entry. -/
theorem target_eq (hw : sh.Usable fs₀ out f w) : sh.target fs w = some (sh.place w) := by
  rw [target, h.words_eq hw]

/-- What is read there is what the directory shows, as no entry of the script is a link. -/
theorem read_eq (hw : sh.Usable fs₀ out f w) : fs.read (sh.place w) = fs.view (sh.place w) :=
  h.plain.read_eq hw.mem

/-- The operand of `rm` is the entry of the word. -/
theorem operands_eq {ns : List ν} (hw : sh.Usable fs₀ out f w)
    (hns : sh.operands fs [w] = some ns) : ns = [sh.place w] := by
  rw [operands, List.flatMap_singleton, h.words_eq hw] at hns
  split_ifs at hns
  exact (Option.some.inj hns).symm

/-- The two operands of `cp` and `mv` are the entries of the two words. -/
theorem pair_eq {p : ν × ν} (ha : sh.Usable fs₀ out f a) (hb : sh.Usable fs₀ out f b)
    (hp : sh.pair fs a b = some p) : p = (sh.place a, sh.place b) := by
  have hwords : [a, b].flatMap (sh.words fs) = [a, b] := by
    rw [List.flatMap_cons, List.flatMap_singleton, h.words_eq ha, h.words_eq hb]
    rfl
  rw [pair, operands, hwords] at hp
  split_ifs at hp
  exact (Option.some.inj hp).symm

end During

end Shell

variable [DecidableEq ν]

open Shell

section Commands

variable (h : sh.During fs₀ out f fs)

include h

/-- **`command a > b`** puts the output of the command under the name of `b`. It is emptied
first, and written to when the command has read its input. -/
theorem redirect_view {command} (hb : sh.Usable fs₀ out f b)
    (hrun : redirect sh command a b fs = some fs') :
    (∃ c, fs'.view = fs.view.put (sh.place b) c) ∧ Files.Keeps (sh.own out f) fs fs' := by
  obtain ⟨n, hn, hrun⟩ := Option.bind_eq_some_iff.mp hrun
  obtain ⟨fs₁, hempty, hrun⟩ := Option.bind_eq_some_iff.mp hrun
  obtain ⟨c, -, hput⟩ := Option.bind_eq_some_iff.mp hrun
  rw [h.target_eq hb] at hn
  obtain rfl := Option.some.inj hn
  obtain ⟨hview₁, hkeeps₁⟩ := h.plain.view_put hb.mem hempty
  obtain ⟨hview, hkeeps⟩ := (h.next hkeeps₁).plain.view_put hb.mem hput
  refine ⟨⟨c, ?_⟩, hkeeps₁.trans hkeeps⟩
  rw [hview, hview₁, Dir.put_put]

/-- **`command a >> b`** puts something under the name of `b`, what was there being part of it.
-/
theorem redirectAdd_view {command} (hb : sh.Usable fs₀ out f b)
    (hrun : redirectAdd sh command a b fs = some fs') :
    (∃ c, fs'.view = fs.view.put (sh.place b) c) ∧ Files.Keeps (sh.own out f) fs fs' := by
  obtain ⟨n, hn, hrun⟩ := Option.bind_eq_some_iff.mp hrun
  obtain ⟨fs₁, hopen, hrun⟩ := Option.bind_eq_some_iff.mp hrun
  obtain ⟨c, -, happend⟩ := Option.bind_eq_some_iff.mp hrun
  rw [h.target_eq hb] at hn
  obtain rfl := Option.some.inj hn
  obtain ⟨hview₁, hkeeps₁⟩ := h.plain.view_append hb.mem hopen
  obtain ⟨hview, hkeeps⟩ := (h.next hkeeps₁).plain.view_append hb.mem happend
  rw [hview₁, Dir.append_append] at hview
  exact ⟨⟨_, hview⟩, hkeeps₁.trans hkeeps⟩

/-- `mv` with two words that can be used does to the directory what `mv` with two names does.
-/
theorem move_view (ha : sh.Usable fs₀ out f a) (hb : sh.Usable fs₀ out f b)
    (hrun : move sh a b fs = some fs') :
    fs.view.mv (sh.place a) (sh.place b) = some fs'.view ∧
      Files.Keeps (sh.own out f) fs fs' := by
  obtain ⟨p, hp, hrun⟩ := Option.bind_eq_some_iff.mp hrun
  obtain rfl := h.pair_eq ha hb hp
  exact h.plain.view_mv ha.mem hb.mem hrun

/-- So does `mv` where the file has to be there. -/
theorem moveIf_view (ha : sh.Usable fs₀ out f a) (hb : sh.Usable fs₀ out f b)
    (hrun : moveIf sh a b fs = some fs') :
    fs.view.mvIf (sh.place a) (sh.place b) = some fs'.view ∧
      Files.Keeps (sh.own out f) fs fs' := by
  obtain ⟨n, hn, hrun⟩ := Option.bind_eq_some_iff.mp hrun
  rw [h.target_eq ha] at hn
  obtain rfl := Option.some.inj hn
  rw [Files.isFile, h.read_eq ha] at hrun
  rw [Dir.mvIf]
  split_ifs at hrun ⊢ with hthere
  · exact move_view h ha hb hrun
  · obtain rfl := Option.some.inj hrun
    exact ⟨rfl, .refl h.plain⟩

/-- So does `rm`. -/
theorem remove_view (ha : sh.Usable fs₀ out f a) (hrun : remove sh a fs = some fs') :
    fs.view.rm (sh.place a) = some fs'.view ∧ Files.Keeps (sh.own out f) fs fs' := by
  obtain ⟨ns, hns, hrun⟩ := Option.bind_eq_some_iff.mp hrun
  obtain rfl := h.operands_eq ha hns
  obtain ⟨fs₁, hrm, hnil⟩ := Option.bind_eq_some_iff.mp hrun
  obtain rfl := Option.some.inj hnil
  exact h.plain.view_rm ha.mem hrm

end Commands

/-! ### One log -/

section Log

variable (h : sh.During fs₀ out f fs) (hused : sh.Used fs₀ out f)

include h hused

/-- **The copy of the log**, and the date at its end, before the search. -/
theorem mark_view (hrun : mark sh f fs = some fs') :
    (sh.names f).mark fs.view = some fs'.view ∧ fs'.view (sh.place f) ≠ none ∧
      Files.Keeps (sh.own out f) fs fs' := by
  obtain ⟨p, hp, hrun⟩ := Option.bind_eq_some_iff.mp hrun
  obtain ⟨fs₁, hcp, hrun⟩ := Option.bind_eq_some_iff.mp hrun
  obtain ⟨n, hn, happend⟩ := Option.bind_eq_some_iff.mp hrun
  have hlog := hused.usable_log
  obtain rfl := h.pair_eq hlog (hused.usable_work .bak) hp
  obtain ⟨hview₁, hkeeps₁⟩ := h.plain.view_cp hlog.mem (hused.usable_work .bak).mem hcp
  rw [(h.next hkeeps₁).target_eq hlog] at hn
  obtain rfl := Option.some.inj hn
  obtain ⟨hview, hkeeps⟩ := (h.next hkeeps₁).plain.view_append hlog.mem happend
  refine ⟨?_, ?_, hkeeps₁.trans hkeeps⟩
  · rw [LogNames.mark, hview]
    exact Option.bind_eq_some_iff.mpr ⟨_, hview₁, rfl⟩
  · rw [hview, Dir.append_apply, if_pos rfl]
    exact Option.some_ne_none _

/-- **The search.** The segments are made anew if there are none, or if the log is newer; each
of the seven commands between keeps to the entries of the script, and what the test sees are
the files of that moment. -/
theorem search_view (hthere : fs.view (sh.place f) ≠ none)
    (hrun : search sh tools f fs = some fs') :
    (∃ keyword temp seg sorted newer, (sh.names f).search keyword temp seg sorted newer fs.view =
      some fs'.view) ∧ Files.Keeps (sh.own out f) fs fs' := by
  obtain ⟨fs₁, hkeyword, hrun⟩ := Option.bind_eq_some_iff.mp hrun
  obtain ⟨newer, hnewer, hrun⟩ := Option.bind_eq_some_iff.mp hrun
  obtain ⟨⟨keyword, hview₁⟩, hkeeps₁⟩ := redirect_view h (hused.usable_work .keyword) hkeyword
  have h₁ := h.next hkeeps₁
  have hlog := hused.usable_log
  have hseg := hused.usable_work .seg
  have htemp := hused.usable_work .segTemp
  have hresult := hused.usable_work .segResult
  -- the log is there, so that the test is whether the seg file is there or older
  rw [isNewer, h₁.target_eq hlog, h₁.target_eq hseg, Option.bind_some, Option.map_some,
    Option.some.injEq, Files.isFile, Files.isFile, h₁.read_eq hlog, h₁.read_eq hseg] at hnewer
  have hthere₁ : (fs₁.view (sh.place f)).isSome = true := by
    rw [hview₁, Dir.put_apply, if_neg (sh.place_work_ne f .keyword).symm]
    exact Option.isSome_iff_ne_none.mpr hthere
  rw [hthere₁, Bool.true_and, Option.not_isSome] at hnewer
  cases newer with
  | true =>
    rw [if_pos rfl] at hrun
    obtain ⟨fs₇, hrun, hmove⟩ := Option.bind_eq_some_iff.mp hrun
    obtain ⟨fs₆, hrun, hsort⟩ := Option.bind_eq_some_iff.mp hrun
    obtain ⟨fs₅, hrun, hplain⟩ := Option.bind_eq_some_iff.mp hrun
    obtain ⟨fs₄, hrun, hdate₂⟩ := Option.bind_eq_some_iff.mp hrun
    obtain ⟨fs₃, hdate₀, hdate₁⟩ := Option.bind_eq_some_iff.mp hrun
    obtain ⟨⟨c₀, hview₂⟩, hkeeps₂⟩ := redirect_view h₁ htemp hdate₀
    have h₂ := h₁.next hkeeps₂
    obtain ⟨⟨c₁, hview₃⟩, hkeeps₃⟩ := redirectAdd_view h₂ htemp hdate₁
    have h₃ := h₂.next hkeeps₃
    obtain ⟨⟨temp, hview₄⟩, hkeeps₄⟩ := redirectAdd_view h₃ htemp hdate₂
    have h₄ := h₃.next hkeeps₄
    obtain ⟨⟨seg, hview₅⟩, hkeeps₅⟩ := redirect_view h₄ hseg hplain
    have h₅ := h₄.next hkeeps₅
    obtain ⟨⟨sorted, hview₆⟩, hkeeps₆⟩ := redirect_view h₅ hresult hsort
    obtain ⟨hview, hkeeps⟩ := move_view (h₅.next hkeeps₆) hresult hseg hmove
    refine ⟨⟨keyword, temp, seg, sorted,
        tools.newer fs₁ (sh.place f) (sh.place (Work.seg.name f)), ?_⟩,
      (((((hkeeps₁.trans hkeeps₂).trans hkeeps₃).trans hkeeps₄).trans hkeeps₅).trans
        hkeeps₆).trans hkeeps⟩
    rw [hview₆, hview₅, hview₄, hview₃, hview₂, Dir.put_put, Dir.put_put, hview₁] at hview
    rw [hview₁] at hnewer
    rw [LogNames.search]
    exact (if_pos hnewer).trans hview
  | false =>
    obtain rfl := Option.some.inj hrun
    refine ⟨⟨keyword, [], [], [],
      tools.newer fs₁ (sh.place f) (sh.place (Work.seg.name f)), ?_⟩, hkeeps₁⟩
    rw [hview₁] at hnewer
    rw [LogNames.search, hview₁]
    exact if_neg (Bool.eq_false_iff.mp hnewer)

/-- **The output.** What was under the name of the script is moved away, so that the script
that is run is the one that was written. -/
theorem writeOutput_view (hrun : writeOutput sh tools out f fs = some fs') :
    (∃ script r, r ≠ [] ∧ (sh.names f).writeOutput (sh.place out) script r fs.view =
      some fs'.view) ∧ Files.Keeps (sh.own out f) fs fs' := by
  obtain ⟨fs₃, hrun, hback⟩ := Option.bind_eq_some_iff.mp hrun
  obtain ⟨fs₂, hrun, hprint⟩ := Option.bind_eq_some_iff.mp hrun
  obtain ⟨fs₁, haway, hwrite⟩ := Option.bind_eq_some_iff.mp hrun
  have houtput := hused.usable_work .output
  obtain ⟨hview₁, hkeeps₁⟩ := moveIf_view h houtput (hused.usable_work .outputBak) haway
  have h₁ := h.next hkeeps₁
  rw [writeScript, h₁.words_eq (hused.usable_work .keyword),
    h₁.words_eq (hused.usable_work .seg), h₁.words_eq houtput] at hwrite
  obtain ⟨script, hscript, hwrite⟩ := Option.bind_eq_some_iff.mp hwrite
  obtain ⟨hview₂, hkeeps₂⟩ := h₁.plain.view_append houtput.mem hwrite
  have h₂ := h₁.next hkeeps₂
  rw [runScript, hused.run.words_eq h₂.there, h₂.words_eq hused.usable_log,
    h₂.target_eq hused.usable_output] at hprint
  obtain ⟨n, hn, hprint⟩ := Option.bind_eq_some_iff.mp hprint
  obtain rfl := Option.some.inj hn
  obtain ⟨fs₂', hopen, hprint⟩ := Option.bind_eq_some_iff.mp hprint
  obtain ⟨script', hread, hprint⟩ := Option.bind_eq_some_iff.mp hprint
  obtain ⟨r, hr, hadd⟩ := Option.bind_eq_some_iff.mp hprint
  obtain ⟨hview₂', hkeeps₂'⟩ := h₂.plain.view_append hused.usable_output.mem hopen
  have h₂' := h₂.next hkeeps₂'
  rw [hused.place_run] at hread hadd
  split_ifs at hadd with hsame
  have hne : sh.place out ≠ sh.place (Work.output.name f) := fun heq => hsame (by rw [heq])
  -- the script is new, since what was there has been moved away
  obtain rfl : script = script' := by
    rw [h₂'.read_eq houtput, hview₂', Dir.append_apply, if_neg hne.symm, hview₂, Dir.append_apply,
      if_pos rfl, (Dir.mvIf_apply hview₁).1] at hread
    exact Option.some.inj hread
  obtain ⟨hview₃, hkeeps₃⟩ := h₂'.plain.view_append hused.usable_output.mem hadd
  obtain ⟨hview, hkeeps⟩ :=
    moveIf_view (h₂'.next hkeeps₃) (hused.usable_work .outputBak) houtput hback
  refine ⟨⟨script, r, tools.run_ne_nil hscript hr, ?_⟩,
    (((hkeeps₁.trans hkeeps₂).trans hkeeps₂').trans hkeeps₃).trans hkeeps⟩
  rw [hview₃, hview₂', Dir.append_append, hview₂] at hview
  refine Option.bind_eq_some_iff.mpr ⟨_, hview₁, ?_⟩
  exact (if_neg hne).trans hview

/-- **The end.** The log is put back, and the working files are erased. -/
theorem restore_view (hrun : restore sh f fs = some fs') :
    (sh.names f).restore fs.view = some fs'.view ∧ Files.Keeps (sh.own out f) fs fs' := by
  obtain ⟨fs₄, hrun, herase⟩ := Option.bind_eq_some_iff.mp hrun
  obtain ⟨fs₃, hrun, htemp⟩ := Option.bind_eq_some_iff.mp hrun
  obtain ⟨fs₂, hrun, hseg⟩ := Option.bind_eq_some_iff.mp hrun
  obtain ⟨fs₁, hmove, hkeyword⟩ := Option.bind_eq_some_iff.mp hrun
  obtain ⟨hview₁, hkeeps₁⟩ := move_view h (hused.usable_work .bak) hused.usable_log hmove
  have h₁ := h.next hkeeps₁
  obtain ⟨hview₂, hkeeps₂⟩ := remove_view h₁ (hused.usable_work .keyword) hkeyword
  have h₂ := h₁.next hkeeps₂
  obtain ⟨hview₃, hkeeps₃⟩ := remove_view h₂ (hused.usable_work .seg) hseg
  have h₃ := h₂.next hkeeps₃
  obtain ⟨hview₄, hkeeps₄⟩ := remove_view h₃ (hused.usable_work .segTemp) htemp
  have h₄ := h₃.next hkeeps₄
  have houtput := hused.usable_work .output
  obtain ⟨ns, hns, rfl⟩ := Option.map_eq_some_iff.mp herase
  obtain rfl := h₄.operands_eq houtput hns
  refine ⟨?_, (((hkeeps₁.trans hkeeps₂).trans hkeeps₃).trans hkeeps₄).trans
    (h₄.plain.keeps_erase houtput.mem)⟩
  refine Option.bind_eq_some_iff.mpr ⟨_, hview₁, Option.bind_eq_some_iff.mpr ⟨_, hview₂, ?_⟩⟩
  refine Option.bind_eq_some_iff.mpr ⟨_, hview₃, Option.bind_eq_some_iff.mpr ⟨_, hview₄, ?_⟩⟩
  exact congrArg some (Files.view_erase _ _).symm

/-- **The body of the loop** does to the directory what its four parts do, one after the other.
-/
theorem searchLog_view (hthere : fs.view (sh.place f) ≠ none)
    (hrun : searchLog sh tools out fs f = some fs') :
    Searched (sh.place out) fs.view fs'.view (sh.names f) ∧
      Files.Keeps (sh.own out f) fs fs' := by
  rw [searchLog, h.target_eq hused.usable_log, Option.bind_some, Files.isFile,
    h.read_eq hused.usable_log, if_pos (Option.isSome_iff_ne_none.mpr hthere)] at hrun
  obtain ⟨fs₃, hrun, hrestore⟩ := Option.bind_eq_some_iff.mp hrun
  obtain ⟨fs₂, hrun, hwrite⟩ := Option.bind_eq_some_iff.mp hrun
  obtain ⟨fs₁, hmark, hsearch⟩ := Option.bind_eq_some_iff.mp hrun
  obtain ⟨hview₁, hthere₁, hkeeps₁⟩ := mark_view h hused hmark
  have h₁ := h.next hkeeps₁
  obtain ⟨⟨keyword, temp, seg, sorted, newer, hview₂⟩, hkeeps₂⟩ :=
    search_view h₁ hused hthere₁ hsearch
  have h₂ := h₁.next hkeeps₂
  obtain ⟨⟨script, r, hr, hview₃⟩, hkeeps₃⟩ := writeOutput_view h₂ hused hwrite
  obtain ⟨hview₄, hkeeps₄⟩ := restore_view (h₂.next hkeeps₃) hused hrestore
  exact ⟨searched hr hview₁ hview₂ hview₃ hview₄,
    ((hkeeps₁.trans hkeeps₂).trans hkeeps₃).trans hkeeps₄⟩

end Log

/-! ### All logs -/

variable (sh fs₀ out) in
/-- What is so of the files between two logs: only the output file has come, the links are those
that there were, and the entries for the words of a log are plain as they were. -/
structure Shell.Between (fs : Files ν Char) : Prop where
  there : ∀ n, fs.entry n ≠ none → fs₀.entry n ≠ none ∨ n = sh.place out
  link : ∀ n t, fs.entry n = some (.link t) ↔ fs₀.entry n = some (.link t)
  plain : ∀ f, sh.Used fs₀ out f → fs.Plain (sh.own out f)

namespace Shell.Between

omit [DecidableEq ν]

/-- Before the first log nothing has happened. -/
theorem init : sh.Between fs₀ out fs₀ :=
  ⟨fun _ hn => .inl hn, fun _ _ => Iff.rfl, fun _ hused => hused.plain⟩

/-- A log can be searched between two others. -/
theorem during (h : sh.Between fs₀ out fs) (hused : sh.Used fs₀ out f) :
    sh.During fs₀ out f fs :=
  ⟨h.plain f hused, fun n hn => (h.there n hn).imp_right fun heq => .inl heq⟩

/-- After a log has been searched the files are again as between two logs: the working files
are gone, and what grew were files that were there. -/
theorem next (h : sh.Between fs₀ out fs) (hused : sh.Used fs₀ out f)
    (hsearched : Searched (sh.place out) fs.view fs'.view (sh.names f))
    (hkeeps : Files.Keeps (sh.own out f) fs fs') : sh.Between fs₀ out fs' := by
  have hplain := h.plain f hused
  have hlink : ∀ n t, fs'.entry n = some (.link t) ↔ fs₀.entry n = some (.link t) :=
    fun n t => (hkeeps.link_iff hplain).trans (h.link n t)
  refine ⟨fun n hn => ?_, hlink, fun g hg => hkeeps.plain_of_plain hplain (h.plain g hg)⟩
  by_cases hout : n = sh.place out
  · exact .inr hout
  refine .inl ?_
  obtain ⟨e, he⟩ := Option.ne_none_iff_exists'.mp hn
  cases e with
  | link t =>
    rw [(hlink n t).mp he]
    exact Option.some_ne_none _
  | file i =>
    obtain ⟨c, hc, -⟩ := hsearched.grows hout (Files.view_eq_some.mpr ⟨i, he, rfl⟩)
    obtain ⟨j, hj, -⟩ := Files.view_eq_some.mp hc
    refine (h.there n ?_).resolve_right hout
    rw [hj]
    exact Option.some_ne_none _

end Shell.Between

omit [DecidableEq ν] in
/-- A word that was no file is none later. -/
theorem isFile_of_between (h : sh.Between fs₀ out fs) (hliteral : sh.Literal fs₀ out f)
    (hout : sh.place f ≠ sh.place out) (hthere : fs.view (sh.place f) ≠ none) :
    fs₀.isFile (sh.place f) = true := by
  obtain ⟨c, hc⟩ := Option.ne_none_iff_exists'.mp hthere
  obtain ⟨i, hi, -⟩ := Files.view_eq_some.mp hc
  have hentry : fs₀.entry (sh.place f) ≠ none := by
    refine (h.there _ ?_).resolve_right hout
    rw [hi]
    exact Option.some_ne_none _
  obtain ⟨e, he⟩ := Option.ne_none_iff_exists'.mp hentry
  cases e with
  | link t => exact absurd he (hliteral.no_link t)
  | file j =>
    rw [Files.isFile, Files.read_eq_view hliteral.no_link, Option.isSome_iff_ne_none]
    rw [Files.view_eq_some.mpr ⟨j, he, rfl⟩]
    exact Option.some_ne_none _

/-- The loop does to the directory what `Run` says, of literal words. -/
theorem run_view {words : List Line} (h : sh.Between fs₀ out fs)
    (hliteral : ∀ f ∈ words, sh.Literal fs₀ out f)
    (hwords : ∀ f ∈ words, sh.place f ≠ sh.place out)
    (hrun : words.foldlM (searchLog sh tools out) fs = some fs') :
    Run (sh.place out) (words.map sh.names) fs.view fs'.view ∧ sh.Between fs₀ out fs' := by
  induction words generalizing fs with
  | nil =>
    obtain rfl := Option.some.inj hrun
    exact ⟨.nil _, h⟩
  | cons f words ih =>
    obtain ⟨hf, hliteral⟩ := List.forall_mem_cons.mp hliteral
    obtain ⟨hout, hwords⟩ := List.forall_mem_cons.mp hwords
    rw [List.foldlM_cons] at hrun
    obtain ⟨fs₁, hlog, hrest⟩ := Option.bind_eq_some_iff.mp hrun
    by_cases hthere : fs.view (sh.place f) = none
    · have hlink : ∀ t, fs.entry (sh.place f) ≠ some (.link t) := fun t ht =>
        hf.no_link t ((h.link _ t).mp ht)
      have hwords' : sh.words fs f = [f] := hf.word.words_eq h.there
      rw [searchLog, target, hwords', Option.bind_some, Files.isFile, Files.read_eq_view hlink,
        hthere] at hlog
      obtain rfl := Option.some.inj hlog
      obtain ⟨hrun, hbetween⟩ := ih h hliteral hwords hrest
      exact ⟨.skip hthere hrun, hbetween⟩
    · have hused := hf.used (isFile_of_between h hf hout hthere)
      obtain ⟨hsearched, hkeeps⟩ := searchLog_view (h.during hused) hused hthere hlog
      obtain ⟨hrun, hbetween⟩ := ih (h.next hused hsearched hkeeps) hliteral hwords hrest
      exact ⟨.log hthere hsearched hrun, hbetween⟩

omit [DecidableEq ν] in
/-- The files of the user are left alone if and only if the directory is the same but for the
output file, where the links stay. -/
theorem leavesAlone_iff_view {out : ν} (hout : fs.entry out = none)
    (hlink : ∀ n t, fs'.entry n = some (.link t) ↔ fs.entry n = some (.link t)) :
    LeavesAlone out fs fs' ↔ ∀ n, n ≠ out → fs'.view n = fs.view n := by
  constructor
  · rintro ⟨hold, hnew⟩ n hn
    cases hentry : fs.entry n with
    | none =>
      have hentry' : fs'.entry n = none := by
        by_contra hne
        exact hn (hnew n hentry hne)
      rw [Files.view, Files.view, hentry, hentry']
    | some e =>
      cases e with
      | link t => rw [Files.view, Files.view, hentry, (hlink n t).mpr hentry]
      | file i =>
        have hno : ∀ t, fs.entry n ≠ some (.link t) := by
          intro t ht
          rw [hentry] at ht
          cases ht
        have hview : fs.view n = some (fs.content i) := Files.view_eq_some.mpr ⟨i, hentry, rfl⟩
        rw [hview, ← Files.read_eq_view fun t ht => hno t ((hlink n t).mp ht)]
        exact hold n _ (by rw [Files.read_eq_view hno, hview])
  · intro h
    constructor
    · intro n c hc
      rw [Files.read_eq_bind] at hc ⊢
      obtain ⟨m, hm, hview⟩ := Option.bind_eq_some_iff.mp hc
      rw [Files.resolve, Files.follow_congr hlink]
      refine Option.bind_eq_some_iff.mpr ⟨m, hm, ?_⟩
      rw [h m, hview]
      rintro rfl
      obtain ⟨i, hi, -⟩ := Files.view_eq_some.mp hview
      rw [hout] at hi
      cases hi
    · intro n hnone hsome
      by_contra hn
      obtain ⟨e, he⟩ := Option.ne_none_iff_exists'.mp hsome
      cases e with
      | link t =>
        rw [(hlink n t).mp he] at hnone
        cases hnone
      | file i =>
        have hview := (h n hn).symm.trans (Files.view_eq_some.mpr ⟨i, he, rfl⟩)
        obtain ⟨j, hj, -⟩ := Files.view_eq_some.mp hview
        rw [hnone] at hj
        cases hj

omit [DecidableEq ν] in
/-- The test `-f` sees a file under the name of a log whose words are literal. -/
theorem isFile_iff (hliteral : sh.Literal fs out f) :
    fs.isFile (sh.place f) = true ↔ fs.view (sh.place f) ≠ none := by
  rw [Files.isFile, Files.read_eq_view hliteral.no_link, Option.isSome_iff_ne_none]

omit [DecidableEq ν] in
/-- Whether a log is clear can be read off the files themselves. -/
theorem clear_iff (hused : sh.Used fs out f) :
    (sh.names f).Clear (sh.place out) fs.view ↔ sh.Clear fs out f :=
  and_congr_left fun _ => forall_congr' fun w => forall_congr' fun _ =>
    hused.plain.view_eq_none (hused.usable_work w).mem

/-- The loop is reached, or there is no log and nothing is done. -/
theorem loop_of_logAssistant {words : List Line} (hout : fs.entry (sh.place out) = none)
    (hliteral : ∀ f ∈ words, sh.Literal fs out f)
    (hrun : logAssistant sh tools out words fs = some fs') :
    words.foldlM (searchLog sh tools out) fs = some fs' ∨
      (fs' = fs ∧ ∀ f ∈ words, fs.isFile (sh.place f) = false) := by
  by_cases hlog : ∃ f ∈ words, fs.isFile (sh.place f) = true
  · obtain ⟨f, hf, hfile⟩ := hlog
    have hused := (hliteral f hf).used hfile
    have hwords : sh.words fs out = [out] := hused.output.words_eq fun n hn => .inl hn
    have hlink : ∀ t, fs.entry (sh.place out) ≠ some (.link t) := by
      intro t ht
      rw [hout] at ht
      cases ht
    have hnone : fs.isFile (sh.place out) = false := by
      rw [Files.isFile, Files.read_eq_view hlink, Files.view, hout, Option.isSome_none]
    rw [logAssistant, hwords] at hrun
    dsimp only at hrun
    rw [hnone] at hrun
    exact .inl hrun
  · have hnone : ∀ f ∈ words, fs.isFile (sh.place f) = false := fun f hf =>
      Bool.eq_false_iff.mpr fun hfile => hlog ⟨f, hf, hfile⟩
    rw [logAssistant] at hrun
    split at hrun
    · exact .inr ⟨(Option.some.inj hrun).symm, hnone⟩
    · split_ifs at hrun
      · exact .inr ⟨(Option.some.inj hrun).symm, hnone⟩
      · exact .inl hrun
    · cases hrun

end Views

/-! ### Some directories -/

/-- The path without the `./` before it. -/
def bareName (l : Line) : Line := if ['.', '/'] <+: l then l.drop 2 else l

/-- A suffix without a slash belongs to the last part of a path. -/
theorem bareName_append {f s : Line} (hs : '/' ∉ s) : bareName (f ++ s) = bareName f ++ s := by
  have hiff : ['.', '/'] <+: f ++ s ↔ ['.', '/'] <+: f := by
    constructor
    · intro h
      cases f with
      | nil => exact absurd (h.subset (by simp)) hs
      | cons a l =>
        cases l with
        | nil =>
          have hslash : ['/'] <+: s := (List.cons_prefix_cons.mp h).2
          exact absurd (hslash.subset (by simp)) hs
        | cons b l =>
          rw [List.cons_append, List.cons_append, List.cons_prefix_cons,
            List.cons_prefix_cons] at h
          rw [List.cons_prefix_cons, List.cons_prefix_cons]
          exact ⟨h.1, h.2.1, List.nil_prefix⟩
    · intro h
      exact h.trans (List.prefix_append f s)
  rw [bareName, bareName]
  by_cases h : ['.', '/'] <+: f
  · rw [if_pos h, if_pos (hiff.mpr h)]
    exact List.drop_append_of_le_length h.length_le
  · rw [if_neg h, if_neg (mt hiff.mp h)]

/-- A working file is named after the log, in the same directory. -/
theorem bareName_name (f : Line) (w : Work) : bareName (w.name f) = bareName f ++ w.suffix :=
  bareName_append (by cases w <;> decide)
/-- A directory where the only patterns are words with single characters in brackets. -/
def bracketShell : Shell Line where
  expand there w :=
    if there (bareName (w.filter fun c => c ≠ '[' && c ≠ ']')) then
      [w.filter fun c => c ≠ '[' && c ≠ ']']
    else [w]
  place := bareName
  place_work_injective f w w' h := by
    simpa [bareName_name, Work.suffix_injective.eq_iff] using h
  place_work_ne f w h := by
    have hnil : w.suffix = [] := by simpa [bareName_name] using h
    cases w <;> exact absurd hnil (by decide)

/-- Words without brackets are left as they are. -/
theorem stands_bracketShell {E : Set Line} {w : Line} (h : w.all fun c => c ≠ '[' && c ≠ ']') :
    bracketShell.Stands E w := by
  intro there _
  have hfilter : (w.filter fun c => c ≠ '[' && c ≠ ']') = w :=
    List.filter_eq_self.mpr (List.all_eq_true.mp h)
  simp only [bracketShell, hfilter, ite_self]

/-- The commands on the log `22:51 2007-08-01`, `foo`, searched for `foo`. -/
def fooTools : Tools Line where
  grepKeyword _ _ := some "2:foo\n".toList
  grepDate i _ _ :=
    some (if i = 0 then "1:22:51 2007-08-01\n3:99:99 2009-99-99\n".toList else [])
  grepPlain fs args := args.head?.bind fun f => fs.read (bareName f)
  sort fs args := args.head?.bind fun f => fs.read (bareName f)
  fileOutput _ _ _ := some ("echo \"result in log.txt.keyword\"\necho start at\n" ++
    "head -n 3 $1 | tail -n 3\necho This segment end\necho\n").toList
  run _ _ _ := some ("result in log.txt.keyword\nstart at\n22:51 2007-08-01\nfoo\n" ++
    "99:99 2009-99-99\nThis segment end\n\n").toList
  run_ne_nil _ h := by
    rw [← Option.some.inj h]
    decide
  newer _ _ _ := true

/-- A directory with a log and another name: of a file of the user's, or of the log itself. -/
def fooFiles (log own : Line) (i : Fin 2) : Files Line Char where
  entry n := if n = log then some (.file 0) else if n = own then some (.file i) else none
  content j := if j = 0 then "22:51 2007-08-01\nfoo\n".toList else "mine\n".toList
  fresh := 2
  inode_lt {n j} h := by
    split_ifs at h
    · cases h
      decide
    · cases h
      exact i.isLt

/-- The own name is that of a second file. -/
theorem plain_fooFiles {log own : Line} {N : Set Line} : (fooFiles log own 1).Plain N := by
  have hentry : ∀ n, (fooFiles log own 1).entry n =
      if n = log then some (.file 0) else if n = own then some (.file 1) else none :=
    fun _ => rfl
  constructor
  · intro n _ t
    rw [hentry]
    split_ifs <;> simp
  · intro n _ m j hn hm
    rw [hentry] at hn hm
    by_cases hlog : n = log
    · rw [if_pos hlog] at hn
      cases hn
      by_contra hne
      rw [if_neg fun hm => hne (hm.trans hlog.symm)] at hm
      split_ifs at hm
      cases hm
    · rw [if_neg hlog] at hn
      split_ifs at hn with hown
      cases hn
      split_ifs at hm with hmlog hmown
      · cases hm
      · rw [hmown, hown]

/-- The backup of `a[b].txt` is the user's `ab.txt.bak` to the shell, which is lost. -/
example : (logAssistant bracketShell fooTools "output.keyword".toList ["a[b].txt".toList]
    (fooFiles "a[b].txt".toList "ab.txt.bak".toList 1)).map
      (fun fs' => fs'.read "ab.txt.bak".toList) = some none := by
  decide

/-- The date stays in a second name of the log. -/
example : (logAssistant bracketShell fooTools "output.keyword".toList ["log.txt".toList]
    (fooFiles "log.txt".toList "copy.txt".toList 0)).bind
      (fun fs' => fs'.read "copy.txt".toList) =
        some "22:51 2007-08-01\nfoo\n99:99 2009-99-99\n".toList := by
  decide

end LogAssistant

end OpenLog
