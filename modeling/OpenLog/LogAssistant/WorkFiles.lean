import Mathlib
import OpenLog.LogAssistant.FileOutput
import OpenLog.Text.Directory

/-!
# The working files of `logAssistant.sh`

The script adds a date to each log while it searches it, and derives seven more names from that
of the log for its working files. It puts the log back and deletes the working files. A file of
the user's that has one of these names is deleted as well: `mv` and `>` write over it, and a
`_output` file that has been moved out of the way and back is caught by the last
`rm -f ${currentFile}_output`.

This is what the commands do to a directory in which the log and its working files have eight
different names (`OpenLog.LogAssistant.LogNames`), whatever their contents are. What the words of
the script are the names of is the subject of `OpenLog.LogAssistant.Script`.

## The result

One log leaves the other files as they were if and only if it is clear
(`OpenLog.LogAssistant.LogNames.Clear`): no file has the name of one of its working files, and
the output file is not its backup. Where it is not, some file is lost or gets longer, and that
stays so through the logs that follow (`OpenLog.LogAssistant.Run.eq_iff`).
-/

namespace OpenLog

namespace LogAssistant

open Text FindKeyword

/-! ### Names -/

/-- The working files of a log. -/
inductive Work
  /-- `${currentFile}.bak`. -/
  | bak
  /-- `$currentFileKeyword`. -/
  | keyword
  /-- `$currentFileSeg`. -/
  | seg
  /-- `${currentFileSeg}.temp`. -/
  | segTemp
  /-- `${currentFileSeg}_result`. -/
  | segResult
  /-- `${currentFile}_output`. -/
  | output
  /-- `${currentFile}_output.bak`. -/
  | outputBak
  deriving DecidableEq

namespace Work

def suffix : Work → Line
  | bak => ".bak".toList
  | keyword => ".keyword".toList
  | seg => "_seg".toList
  | segTemp => "_seg.temp".toList
  | segResult => "_seg_result".toList
  | output => "_output".toList
  | outputBak => "_output.bak".toList

/-- The name of a working file of a log. -/
def name (f : Line) (w : Work) : Line := f ++ w.suffix

/-- No two of them have the same name, -/
theorem suffix_injective : Function.Injective suffix := by
  intro w w' h
  cases w <;> cases w' <;> first | rfl | exact absurd h (by decide)

end Work

/-- The entries of a log and of its working files. -/
structure LogNames (ν : Type*) where
  log : ν
  work : Work → ν
  work_injective : Function.Injective work
  work_ne_log : ∀ w, work w ≠ log

namespace LogNames

variable {ν : Type*} (x : LogNames ν)

/-- nor the same entry, -/
@[simp] theorem work_inj {w w' : Work} : x.work w = x.work w' ↔ w = w' := x.work_injective.eq_iff

/-- and none of them is the log. -/
@[simp] theorem work_ne (w : Work) : x.work w ≠ x.log := x.work_ne_log w

@[simp] theorem ne_work (w : Work) : x.log ≠ x.work w := (x.work_ne w).symm

/-! ### The commands for one log -/

variable [DecidableEq ν] (out : ν)

/-- The log is kept, and the temporary date is added to it. -/
def mark (d : Dir ν Char) : Option (Dir ν Char) := do
  let d ← d.cp x.log (x.work .bak)
  return d.append x.log ("99:99 2009-99-99".toList ++ ['\n'])

/-- `$currentFileKeyword` and `$currentFileSeg` are made, the second one if it is not there or if
the log is newer. -/
def search (keyword temp seg sorted : Line) (newer : Bool) (d : Dir ν Char) :
    Option (Dir ν Char) :=
  let d := d.put (x.work .keyword) keyword
  if (d (x.work .seg)).isNone || newer then
    let d := d.put (x.work .segTemp) temp
    let d := d.put (x.work .seg) seg
    let d := d.put (x.work .segResult) sorted
    d.mv (x.work .segResult) (x.work .seg)
  else some d

/-- The script for the log is written and run, and prints `r` to the output file. -/
def writeOutput (script r : Line) (d : Dir ν Char) : Option (Dir ν Char) := do
  let d ← d.mvIf (x.work .output) (x.work .outputBak)
  let d := d.append (x.work .output) script
  if out = x.work .output then none
  else (d.append out r).mvIf (x.work .outputBak) (x.work .output)

/-- The log is put back and the working files are deleted. -/
def restore (d : Dir ν Char) : Option (Dir ν Char) := do
  let d ← d.mv (x.work .bak) x.log
  let d ← d.rm (x.work .keyword)
  let d ← d.rm (x.work .seg)
  let d ← d.rm (x.work .segTemp)
  return d.erase (x.work .output)

/-- No file but the output file has the name of a working file of the log, and the output file
is not the log's backup. -/
def Clear (out : ν) (d : Dir ν Char) : Prop :=
  (∀ w : Work, x.work w ≠ out → d (x.work w) = none) ∧ out ≠ x.work .bak

/-! ### What each part does -/

variable {x out} {n : ν} {d d' : Dir ν Char}

/-- The log is there, it is copied to its backup, and only these two files change. -/
theorem mark_spec (h : x.mark d = some d') : ∃ c, d x.log = some c ∧
    d' (x.work .bak) = some c ∧ ∀ n, n ≠ x.log → n ≠ x.work .bak → d' n = d n := by
  obtain ⟨d₁, hcp, happend⟩ := Option.bind_eq_some_iff.mp h
  obtain ⟨c, hc, rfl⟩ := Dir.cp_eq_some.mp hcp
  obtain rfl := Option.some.inj happend
  refine ⟨c, hc, ?_, fun n hlog hbak => ?_⟩
  · rw [Dir.append_apply, if_neg (x.work_ne .bak), Dir.put_apply, if_pos rfl]
  · rw [Dir.append_apply, if_neg hlog, Dir.put_apply, if_neg hbak]

/-- The search writes to four working files. The file that is sorted to is moved away, unless
the seg file is there already and is not made anew. -/
theorem search_spec {keyword temp seg sorted : Line} {newer : Bool}
    (h : x.search keyword temp seg sorted newer d = some d') :
    (∀ n, n ≠ x.work .keyword → n ≠ x.work .seg → n ≠ x.work .segTemp →
      n ≠ x.work .segResult → d' n = d n) ∧
    (d' (x.work .segResult) = none ∨ d (x.work .seg) ≠ none ∧
      ∀ n, n ≠ x.work .keyword → d' n = d n) := by
  rw [search] at h
  dsimp only at h
  split_ifs at h with hnew
  · obtain ⟨result, -, rfl⟩ := Dir.mv_eq_some.mp h
    constructor
    · intro n hkeyword hseg htemp hresult
      simp only [Dir.erase_apply, Dir.put_apply, if_neg hkeyword, if_neg hseg, if_neg htemp,
        if_neg hresult]
    · left
      rw [Dir.erase_apply, if_pos rfl]
  · obtain rfl := Option.some.inj h
    have hother : ∀ n, n ≠ x.work .keyword → d.put (x.work .keyword) keyword n = d n := by
      intro n hn
      rw [Dir.put_apply, if_neg hn]
    refine ⟨fun n hn _ _ _ => hother n hn, .inr ⟨?_, hother⟩⟩
    rw [Bool.or_eq_true, not_or, hother _ (by simp)] at hnew
    exact fun hnone => hnew.1 (by rw [hnone]; rfl)

/-- The output file is added to, and no file is left under the name of the backup. -/
theorem writeOutput_spec {script r : Line} (h : x.writeOutput out script r d = some d') :
    (∀ n, n ≠ x.work .output → n ≠ x.work .outputBak → n ≠ out → d' n = d n) ∧
    d' (x.work .outputBak) = none ∧ out ≠ x.work .output ∧
      (out ≠ x.work .outputBak → d' out = some ((d out).getD [] ++ r)) := by
  obtain ⟨d₁, hmove, h⟩ := Option.bind_eq_some_iff.mp h
  dsimp only at h
  split_ifs at h with hout
  obtain ⟨houtput, hothers⟩ := Dir.mvIf_apply hmove
  obtain ⟨hbak, hothers'⟩ := Dir.mvIf_apply h
  refine ⟨fun n ho hb hn => ?_, hbak, hout, fun hb => ?_⟩
  · rw [hothers' n hb ho, Dir.append_apply, if_neg hn, Dir.append_apply, if_neg ho, hothers n ho hb]
  · rw [hothers' out hb hout, Dir.append_apply, if_pos rfl, Dir.append_apply, if_neg hout,
      hothers out hout hb]

/-- The log gets the content of its backup. Of the working files two stay as they are, the file
that was sorted to and the backup of the output, and the others are gone; no other file
changes. -/
theorem restore_spec (h : x.restore d = some d') :
    (∀ n, n ≠ x.log → (∀ w : Work, n ≠ x.work w) → d' n = d n) ∧ d' x.log = d (x.work .bak) ∧
    (∀ w : Work, w ≠ .segResult → w ≠ .outputBak → d' (x.work w) = none) ∧
    (∀ w : Work, w = .segResult ∨ w = .outputBak → d' (x.work w) = d (x.work w)) ∧
    d (x.work .segTemp) ≠ none := by
  obtain ⟨d₁, hmv, h⟩ := Option.bind_eq_some_iff.mp h
  obtain ⟨d₂, hkeyword, h⟩ := Option.bind_eq_some_iff.mp h
  obtain ⟨d₃, hseg, h⟩ := Option.bind_eq_some_iff.mp h
  obtain ⟨d₄, htemp, h⟩ := Option.bind_eq_some_iff.mp h
  obtain ⟨c, hc, rfl⟩ := Dir.mv_eq_some.mp hmv
  obtain ⟨-, rfl⟩ := Dir.rm_eq_some.mp hkeyword
  obtain ⟨-, rfl⟩ := Dir.rm_eq_some.mp hseg
  obtain ⟨hthere, rfl⟩ := Dir.rm_eq_some.mp htemp
  obtain rfl := Option.some.inj h
  refine ⟨fun n hn hw => ?_, ?_, fun w hresult hbak => ?_, fun w hw => ?_, ?_⟩
  · simp [Dir.erase_apply, Dir.put_apply, hn, hw]
  · simp [Dir.erase_apply, Dir.put_apply, hc]
  · cases w <;> simp [Dir.erase_apply] at *
  · rcases hw with rfl | rfl <;> simp [Dir.erase_apply, Dir.put_apply]
  · intro hnone
    simp [Dir.erase_apply, Dir.put_apply, hnone] at hthere

end LogNames

/-! ### One log -/

variable {ν : Type*} {x : LogNames ν} {out n : ν} {d d' : Dir ν Char}

/-- What the body of the loop does to the files other than the output file. -/
structure Searched (out : ν) (d d' : Dir ν Char) (x : LogNames ν) : Prop where
  frame : ∀ n, n ≠ x.log → n ≠ out → (∀ w : Work, n ≠ x.work w) → d' n = d n
  log : out ≠ x.work .bak → d' x.log = d x.log
  /-- What has been found stays in a log whose backup is the output file. -/
  grown : out = x.work .bak → ∃ c, d x.log = some c ∧ ∃ r ≠ [], d' x.log = some (c ++ r)
  removed : ∀ w : Work, w ≠ .segResult → x.work w ≠ out → d' (x.work w) = none
  result : x.work .segResult ≠ out → d' (x.work .segResult) = none ∨
    d' (x.work .segResult) = d (x.work .segResult) ∧ d (x.work .seg) ≠ none ∧
      (x.work .segTemp ≠ out → d (x.work .segTemp) ≠ none)

/-- The four parts of the body, one after the other, whatever the contents of the working files
are, where the script that is run prints something. -/
theorem searched [DecidableEq ν] {d₁ d₂ d₃ : Dir ν Char}
    {keyword temp seg sorted script r : Line} {newer : Bool} (hr : r ≠ [])
    (hmark : x.mark d = some d₁) (hsearch : x.search keyword temp seg sorted newer d₁ = some d₂)
    (hwrite : x.writeOutput out script r d₂ = some d₃) (hrestore : x.restore d₃ = some d') :
    Searched out d d' x := by
  obtain ⟨c, hc, hbak, hmark⟩ := LogNames.mark_spec hmark
  obtain ⟨hsearch, hsort⟩ := LogNames.search_spec hsearch
  obtain ⟨hwrite, hmoved, houtput, hadded⟩ := LogNames.writeOutput_spec hwrite
  obtain ⟨hrestore, hback, hremoved, hkept, htemp⟩ := LogNames.restore_spec hrestore
  -- the backup is not touched before the output is written
  have hbak₂ : d₂ (x.work .bak) = some c := by
    rw [hsearch _ (by simp) (by simp) (by simp) (by simp), hbak]
  constructor
  · intro n hn hne hw
    rw [hrestore n hn hw, hwrite n (hw _) (hw _) hne, hsearch n (hw _) (hw _) (hw _) (hw _),
      hmark n hn (hw _)]
  · intro hne
    rw [hback, hwrite _ (by simp) (by simp) hne.symm, hbak₂, hc]
  · intro heq
    refine ⟨c, hc, r, hr, ?_⟩
    rw [heq] at hadded
    rw [hback, hadded (by simp), hbak₂, Option.getD_some]
  · intro w hresult hne
    by_cases hw : w = .outputBak
    · rw [hkept w (.inr hw), hw, hmoved]
    · exact hremoved w hresult hw
  · intro hne
    rw [hkept _ (.inl rfl), hwrite _ (by simp) (by simp) hne]
    refine hsort.imp_right fun ⟨hseg, hold⟩ => ⟨?_, ?_, fun hne' => ?_⟩
    · rw [hold _ (by simp), hmark _ (by simp) (by simp)]
    · rwa [hmark _ (by simp) (by simp)] at hseg
    · rwa [hwrite _ (by simp) (by simp) hne', hold _ (by simp),
        hmark _ (by simp) (by simp)] at htemp

/-- Nothing appears but the output file, and no file gets shorter. -/
theorem Searched.grows {c' : Line} (h : Searched out d d' x) (hn : n ≠ out) (hc : d' n = some c') :
    ∃ c, d n = some c ∧ c.length ≤ c'.length := by
  have hsame : d' n = d n → ∃ c, d n = some c ∧ c.length ≤ c'.length := fun heq =>
    ⟨c', heq ▸ hc, Nat.le_refl _⟩
  by_cases hf : n = x.log
  · subst hf
    by_cases hbak : out = x.work .bak
    · obtain ⟨c, hold, r, -, hnew⟩ := h.grown hbak
      obtain rfl : c ++ r = c' := Option.some.inj (hnew.symm.trans hc)
      exact ⟨c, hold, by simp⟩
    · exact hsame (h.log hbak)
  · by_cases hw : ∃ w : Work, n = x.work w
    · obtain ⟨w, rfl⟩ := hw
      by_cases hresult : w = .segResult
      · subst hresult
        rcases h.result hn with hnone | ⟨heq, -⟩
        · rw [hnone] at hc
          cases hc
        · exact hsame heq
      · rw [h.removed w hresult hn] at hc
        cases hc
    · exact hsame (h.frame n hf hn fun w heq => hw ⟨w, heq⟩)

/-- A log that is clear is put back, and nothing is left of its working files. -/
theorem Searched.of_clear (h : Searched out d d' x) (hclear : x.Clear out d) (hn : n ≠ out) :
    d' n = d n := by
  by_cases hf : n = x.log
  · exact hf ▸ h.log hclear.2
  · by_cases hw : ∃ w : Work, n = x.work w
    · obtain ⟨w, rfl⟩ := hw
      rw [hclear.1 w hn]
      by_cases hresult : w = .segResult
      · subst hresult
        rcases h.result hn with hnone | ⟨heq, -⟩
        · exact hnone
        · rw [heq, hclear.1 _ hn]
      · exact h.removed w hresult hn
    · exact h.frame n hf hn fun w heq => hw ⟨w, heq⟩

/-- Where a log is not clear, a file is lost or gets longer. -/
theorem Searched.of_not_clear (h : Searched out d d' x) (hf : x.log ≠ out)
    (hclear : ¬x.Clear out d) :
    ∃ n c, n ≠ out ∧ d n = some c ∧ ∀ c', d' n = some c' → c.length < c'.length := by
  have hlost : ∀ w : Work, w ≠ .segResult → x.work w ≠ out → d (x.work w) ≠ none →
      ∃ n c, n ≠ out ∧ d n = some c ∧ ∀ c', d' n = some c' → c.length < c'.length := by
    intro w hresult hne hold
    obtain ⟨c, hc⟩ := Option.ne_none_iff_exists'.mp hold
    refine ⟨_, c, hne, hc, fun c' hc' => ?_⟩
    rw [h.removed w hresult hne] at hc'
    cases hc'
  by_cases hbak : out = x.work .bak
  · obtain ⟨c, hc, r, hr, hnew⟩ := h.grown hbak
    refine ⟨x.log, c, hf, hc, fun c' hc' => ?_⟩
    obtain rfl : c ++ r = c' := Option.some.inj (hnew.symm.trans hc')
    rw [List.length_append]
    exact Nat.lt_add_of_pos_right (List.length_pos_iff.mpr hr)
  · obtain ⟨w, hne, hold⟩ : ∃ w : Work, x.work w ≠ out ∧ d (x.work w) ≠ none := by
      by_contra hall
      refine hclear ⟨fun w hne => ?_, hbak⟩
      by_contra hold
      exact hall ⟨w, hne, hold⟩
    by_cases hresult : w = .segResult
    · subst hresult
      rcases h.result hne with hnone | ⟨-, hseg, htemp⟩
      · obtain ⟨c, hc⟩ := Option.ne_none_iff_exists'.mp hold
        refine ⟨_, c, hne, hc, fun c' hc' => ?_⟩
        rw [hnone] at hc'
        cases hc'
      · -- the seg file was there, and so was the one that it is filtered x.logrom
        by_cases hout : x.work .seg = out
        · have htempOut : x.work .segTemp ≠ out := by
            rw [← hout]
            simp
          exact hlost .segTemp (by simp) htempOut (htemp htempOut)
        · exact hlost .seg (by simp) hout hseg
    · exact hlost w hresult hne hold

/-! ### All logs -/

/-- What the loop does to the directory: one log after the other is searched, and a word that is
no file is passed over. -/
inductive Run (out : ν) : List (LogNames ν) → Dir ν Char → Dir ν Char → Prop
  | nil (d : Dir ν Char) : Run out [] d d
  | skip {x xs} {d d' : Dir ν Char} : d x.log = none → Run out xs d d' → Run out (x :: xs) d d'
  | log {x xs} {d d₁ d' : Dir ν Char} : d x.log ≠ none → Searched out d d₁ x →
      Run out xs d₁ d' → Run out (x :: xs) d d'

variable {xs : List (LogNames ν)}

/-- Through all logs nothing appears but the output file, and no file gets shorter. -/
theorem Run.grows (h : Run out xs d d') {c' : Line} (hn : n ≠ out) (hc : d' n = some c') :
    ∃ c, d n = some c ∧ c.length ≤ c'.length := by
  induction h with
  | nil d => exact ⟨c', hc, Nat.le_refl _⟩
  | skip _ _ ih => exact ih hc
  | log _ hlog _ ih =>
    obtain ⟨c₁, hc₁, hle⟩ := ih hc
    obtain ⟨c, hc, hle'⟩ := hlog.grows hn hc₁
    exact ⟨c, hc, Nat.le_trans hle' hle⟩

/-- Whether a log is clear depends on the files but the output file. -/
theorem LogNames.clear_congr (h : ∀ n, n ≠ out → d' n = d n) : x.Clear out d' ↔ x.Clear out d :=
  and_congr_left fun _ => forall_congr' fun _ => forall_congr' fun hne => by rw [h _ hne]

/-- **The logs together**: the files stay as they were if and only if each log is clear. The
first log that is not makes a file longer or loses it, and no later one makes up for that. -/
theorem Run.eq_iff {d₁ : Dir ν Char} (h : Run out xs d₁ d') (hlogs : ∀ x ∈ xs, x.log ≠ out)
    (hd : ∀ n, n ≠ out → d₁ n = d n) :
    (∀ n, n ≠ out → d' n = d n) ↔ ∀ x ∈ xs, d x.log ≠ none → x.Clear out d := by
  induction h with
  | nil d₁ => exact iff_of_true hd nofun
  | skip hnone _ ih =>
    obtain ⟨hlog, hlogs⟩ := List.forall_mem_cons.mp hlogs
    rw [ih hlogs hd, List.forall_mem_cons]
    rw [hd _ hlog] at hnone
    exact (and_iff_right fun hsome => absurd hnone hsome).symm
  | @log x xs d₁ d₂ d' hthere hsearched hrest ih =>
    obtain ⟨hlog, hlogs⟩ := List.forall_mem_cons.mp hlogs
    rw [List.forall_mem_cons]
    rw [hd _ hlog] at hthere
    by_cases hclear : x.Clear out d
    · rw [ih hlogs fun n hn => ?_]
      · exact (and_iff_right fun _ => hclear).symm
      · rw [hsearched.of_clear ((LogNames.clear_congr hd).mpr hclear) hn, hd n hn]
    · refine iff_of_false (fun hall => ?_) fun hall => hclear (hall.1 hthere)
      obtain ⟨n, c, hn, hc, hlonger⟩ :=
        hsearched.of_not_clear hlog (mt (LogNames.clear_congr hd).mp hclear)
      rw [hd n hn] at hc
      obtain ⟨c₂, hc₂, hle⟩ := hrest.grows hn ((hall n hn).trans hc)
      exact absurd (hlonger c₂ hc₂) (Nat.not_lt_of_le hle)

end LogAssistant

end OpenLog
