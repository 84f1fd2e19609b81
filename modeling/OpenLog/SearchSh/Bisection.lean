import OpenLog.Logic.Loop
import OpenLog.SearchSh.Git

/-!
# The bisection of `search.sh`

Given a range of commits in whose changes the keyword is found, the second loop of `search.sh`
halves the range: it goes on with the older half if the keyword is found there, else with the
newer one if it is found there, and stops at two adjacent commits. The middle of a range comes
from counting its commits, both ends included, and listing as many as a half of them from the
newer end (`OpenLog.SearchSh.start_eq`).

## What it finds

If the changes of a range that has the keyword have it in one of the halves, the loop ends at a
commit that has brought it (`OpenLog.SearchSh.bisection_finds`). The invariant is that the loop
looks at a part of the first range, of two commits or more, that has the keyword
(`OpenLog.SearchSh.Within`), and the part gets shorter in every turn.

## Where it does not end

There is no branch for a range with the keyword in neither half, which the loop then looks at for
ever, nor for a range from the root on, of which `git log` lists nothing. Nothing else goes wrong
(`OpenLog.SearchSh.bisection_progress_iff`).
-/

namespace OpenLog

namespace SearchSh

open Logic

/-! ### The loop -/

/-- The variables of the loop. -/
structure Bisect where
  old : Var
  new : Var
  mid : Var
  number : ℕ
  deriving DecidableEq

variable (r : Repo)

/-- `number` and `mid`, computed for the range from `old` to `new`. -/
def halve (old new : Var) : ℕ × Var :=
  let number := (r.logBetween old new).length
  let number := (number + 1) / 2
  (number, (r.logLast new number).getLast?)

/-- The first midpoint. -/
def start (old new : ℕ) : Bisect :=
  let (number, mid) := halve r (some old) (some new)
  ⟨some old, some new, mid, number⟩

/-- The body of the loop: it is left with `$result`, or entered again. -/
def bisect (v : Bisect) : Var ⊕ Bisect :=
  if r.diff v.old v.mid then
    if v.number = 1 then .inl v.mid
    else
      let (number, mid) := halve r v.old v.mid
      .inr { v with new := v.mid, mid, number }
  else if r.diff v.mid v.new then
    if v.number = 1 then .inl v.new
    else
      let (number, mid) := halve r v.mid v.new
      .inr { v with old := v.mid, mid, number }
  else .inr v

variable {r} {old new lo hi : ℕ} {v v' : Bisect}

/-! ### Ranges -/

/-- The middle of a range. -/
def middle (lo hi : ℕ) : ℕ := hi - (hi - lo) / 2

/-- The variables when the loop looks at a range. -/
def atRange (lo hi : ℕ) : Bisect := ⟨some lo, some hi, some (middle lo hi), (hi - lo) / 2 + 1⟩

/-- The middle is in the range. -/
theorem middle_le (lo hi : ℕ) : middle lo hi ≤ hi := Nat.sub_le _ _

/-- It is not the older end. -/
theorem lt_middle (h : lo < hi) : lo < middle lo hi := by
  rw [middle]
  omega

/-- Nor the newer one, if there are three commits or more. -/
theorem middle_lt (h : lo + 1 < hi) : middle lo hi < hi := by
  rw [middle]
  omega

/-- Of two adjacent commits it is the newer one. -/
theorem middle_succ (lo : ℕ) : middle lo (lo + 1) = lo + 1 := by
  rw [middle]
  omega

/-- **Halving a range** that does not start at the root. -/
theorem halve_eq (hlo : 0 < lo) (h : lo ≤ hi) :
    halve r (some lo) (some hi) = ((hi - lo) / 2 + 1, some (middle lo hi)) := by
  have hnumber : (hi + 1 - lo + 1) / 2 = (hi - lo) / 2 + 1 := by omega
  have hmid : hi + 1 - ((hi - lo) / 2 + 1) = middle lo hi := by
    rw [middle]
    omega
  simp only [halve, Repo.length_logBetween hlo, hnumber]
  rw [Repo.getLast?_logLast (Nat.succ_pos _) (by omega), hmid]

/-- **The loop begins at the range that it is given.** -/
theorem start_eq (hold : 0 < old) (h : old ≤ new) : start r old new = atRange old new := by
  simp only [start, halve_eq hold h]
  rfl

/-- **What the loop does at a range** of two or more commits. -/
theorem bisect_atRange (hlo : 0 < lo) (h : lo < hi) : bisect r (atRange lo hi) =
    if r.Finds lo (middle lo hi) then
      if hi = lo + 1 then .inl (some hi) else .inr (atRange lo (middle lo hi))
    else if r.Finds (middle lo hi) hi then
      if hi = lo + 1 then .inl (some hi) else .inr (atRange (middle lo hi) hi)
    else .inr (atRange lo hi) := by
  have hone : (hi - lo) / 2 + 1 = 1 ↔ hi = lo + 1 := by omega
  have holder := halve_eq (r := r) hlo (Nat.le_of_lt (lt_middle h))
  have hnewer := halve_eq (r := r) (hlo.trans (lt_middle h)) (middle_le lo hi)
  simp only [bisect, atRange, Repo.diff_some, hone, holder, hnewer]
  split_ifs with hfound hadjacent
  · rw [hadjacent, middle_succ]
  all_goals rfl

/-- A state in which the keyword is in one of the halves. -/
def OneHalf (r : Repo) (v : Bisect) : Prop := r.diff v.old v.mid = true ∨ r.diff v.mid v.new = true

/-- Where the keyword is in one of the halves, the loop is left or goes on with a shorter
range. -/
theorem bisect_oneHalf (hlo : 0 < lo) (h : lo < hi) (hhalf : OneHalf r (atRange lo hi)) :
    (hi = lo + 1 ∧ bisect r (atRange lo hi) = .inl (some hi)) ∨
      ∃ lo' hi', bisect r (atRange lo hi) = .inr (atRange lo' hi') ∧ lo ≤ lo' ∧ lo' < hi' ∧
        hi' ≤ hi ∧ hi' - lo' < hi - lo ∧ r.Finds lo' hi' := by
  rw [bisect_atRange hlo h]
  have hmid := lt_middle h
  by_cases hadjacent : hi = lo + 1
  · left
    refine ⟨hadjacent, ?_⟩
    rw [if_pos hadjacent, if_pos hadjacent]
    split_ifs with hfound hfound'
    · rfl
    · rfl
    · exact absurd hhalf (not_or.mpr ⟨hfound, hfound'⟩)
  · right
    have hmid' : middle lo hi < hi := middle_lt (by omega)
    rw [if_neg hadjacent, if_neg hadjacent]
    split_ifs with hfound hfound'
    · exact ⟨lo, middle lo hi, rfl, Nat.le_refl _, hmid, hmid'.le, by omega, hfound⟩
    · exact ⟨middle lo hi, hi, rfl, hmid.le, hmid', Nat.le_refl _, by omega, hfound'⟩
    · exact absurd hhalf (not_or.mpr ⟨hfound, hfound'⟩)

/-! ### Runs -/

/-- The loop looks at a part of the range that has the keyword. -/
def Within (r : Repo) (old new : ℕ) (v : Bisect) : Prop :=
  ∃ lo hi, v = atRange lo hi ∧ old ≤ lo ∧ lo < hi ∧ hi ≤ new ∧ r.Finds lo hi

/-- The number of commits of the range that the loop looks at, less one. -/
def rangeLength (v : Bisect) : ℕ := v.new.getD 0 - v.old.getD 0

/-- The range has become strictly shorter. -/
def Shorter (v' v : Bisect) : Prop :=
  ∃ lo hi lo' hi', v.old = some lo ∧ v.new = some hi ∧ v'.old = some lo' ∧ v'.new = some hi' ∧
    lo ≤ lo' ∧ hi' ≤ hi ∧ hi' - lo' < hi - lo

/-- An iteration leaves the loop or makes the range strictly shorter. -/
def Progresses (r : Repo) (v : Bisect) : Prop := ∀ v', bisect r v = .inr v' → Shorter v' v

/-- A shorter range has fewer commits. -/
theorem Shorter.rangeLength_lt (h : Shorter v' v) : rangeLength v' < rangeLength v := by
  obtain ⟨lo, hi, lo', hi', hlo, hhi, hlo', hhi', -, -, hlt⟩ := h
  simpa only [rangeLength, hlo, hhi, hlo', hhi', Option.getD_some] using hlt

/-- The first range is within itself. -/
theorem within_start (hold : 0 < old) (hlt : old < new) (hfound : r.Finds old new) :
    Within r old new (start r old new) :=
  ⟨old, new, start_eq hold hlt.le, Nat.le_refl _, hlt, Nat.le_refl _, hfound⟩

/-- One turn of the loop within a range. -/
theorem Within.step (hold : 0 < old) (h : Within r old new v) (hhalf : OneHalf r v)
    (hv : bisect r v = .inr v') : Within r old new v' ∧ Shorter v' v := by
  obtain ⟨lo, hi, rfl, hlo, hlt, hhi, hfound⟩ := h
  rcases bisect_oneHalf (hold.trans_le hlo) hlt hhalf with
    ⟨-, hleft⟩ | ⟨lo', hi', hnext, hlo', hlt', hhi', hshorter, hfound'⟩
  · rw [hleft] at hv
    cases hv
  · rw [hnext] at hv
    obtain rfl := Sum.inr.inj hv
    exact ⟨⟨lo', hi', rfl, hlo.trans hlo', hlt', hhi'.trans hhi, hfound'⟩,
      ⟨lo, hi, lo', hi', rfl, rfl, rfl, rfl, hlo', hhi', hshorter⟩⟩

section OneHalf

variable (hold : 0 < old) (hlt : old < new) (hfound : r.Finds old new)
  (hhalf : ∀ v, Reaches (bisect r) (start r old new) v → OneHalf r v)
include hold hlt hfound hhalf

/-- All ranges that the loop comes to are within the first, where the keyword is in one of the
halves each time. -/
theorem within_of_reaches (h : Reaches (bisect r) (start r old new) v) : Within r old new v := by
  have hinv : Reaches (bisect r) (start r old new) v ∧ Within r old new v := by
    refine h.invariant (P := fun u => Reaches (bisect r) (start r old new) u ∧ Within r old new u)
      ⟨.refl _, within_start hold hlt hfound⟩ fun u u' hu hstep => ?_
    exact ⟨hu.1.tail hstep, (hu.2.step hold (hhalf u hu.1) hstep).1⟩
  exact hinv.2

/-- So every iteration leaves the loop or makes the range shorter. -/
theorem progresses_of_reaches (h : Reaches (bisect r) (start r old new) v) : Progresses r v :=
  fun _ hstep => ((within_of_reaches hold hlt hfound hhalf h).step hold (hhalf v h) hstep).2

/-- So the loop is left: the ranges cannot get shorter for ever. -/
theorem exists_ends_of_oneHalf : ∃ c, Ends (bisect r) (start r old new) c := by
  refine exists_ends_of_measure rangeLength (P := Reaches (bisect r) (start r old new)) (.refl _)
    fun u u' hu hstep => ⟨hu.tail hstep, ?_⟩
  exact (progresses_of_reaches hold hlt hfound hhalf hu u' hstep).rangeLength_lt

end OneHalf

/-- **The bisection finds a commit that brings the keyword.** If a range of changes has the
keyword only if one of its halves has it, the loop is left, and with a commit of the range
whose own change has the keyword. The ranges that the loop comes to have the keyword
throughout, and the last of them has two commits. -/
theorem bisection_finds (r : Repo) (old new : ℕ) (hold : 0 < old) (hlt : old < new)
    (hfound : r.Finds old new)
    (hsplit : ∀ a b c, old ≤ a → a ≤ b → b ≤ c → c ≤ new → r.Finds a c →
      r.Finds a b ∨ r.Finds b c) :
    ∃ c, Ends (bisect r) (start r old new) (some c) ∧ old < c ∧ c ≤ new ∧ r.Finds (c - 1) c := by
  have hsplits : ∀ v, Within r old new v → OneHalf r v := by
    rintro v ⟨lo, hi, rfl, hlo, hlt, hhi, hfound⟩
    exact hsplit lo (middle lo hi) hi hlo (lt_middle hlt).le (middle_le lo hi) hhi hfound
  have hwithin : ∀ v, Reaches (bisect r) (start r old new) v → Within r old new v := fun v hv =>
    hv.invariant (within_start hold hlt hfound) fun u u' hu hstep =>
      (hu.step hold (hsplits u hu) hstep).1
  obtain ⟨c, v, hv, hend⟩ := exists_ends_of_oneHalf hold hlt hfound fun v hv =>
    hsplits v (hwithin v hv)
  -- the range that the loop is left at has two commits
  obtain ⟨lo, hi, rfl, hlo, hlt', hhi, hfound'⟩ := hwithin v hv
  rcases bisect_oneHalf (hold.trans_le hlo) hlt' (hsplits _ (hwithin _ hv)) with
    ⟨rfl, hleft⟩ | ⟨lo', hi', hnext, -⟩
  · rw [hleft] at hend
    obtain rfl := Sum.inl.inj hend
    exact ⟨lo + 1, ⟨_, hv, hleft⟩, by omega, hhi, hfound'⟩
  · rw [hnext] at hend
    cases hend

/-- A history of six commits, the fourth of which brings the keyword. -/
def sampleRepo : Repo where
  head := 5
  date c := c
  grepDiff
    | [a, b] => a < 3 && 3 ≤ b
    | _ => false

theorem bisection_finds_sample : ∃ c, Ends (bisect sampleRepo) (start sampleRepo 1 5) (some c) ∧
    1 < c ∧ c ≤ 5 ∧ sampleRepo.Finds (c - 1) c := by
  refine bisection_finds sampleRepo 1 5 (by decide) (by decide) (by decide) ?_
  intro a b c _ _ _ _ hac
  simp only [Repo.Finds, sampleRepo, Bool.and_eq_true, decide_eq_true_eq] at hac ⊢
  omega

/-! ### Ranges that the loop does not leave -/

/-- A state whose halves do not have the keyword. -/
theorem bisect_not_oneHalf (h : ¬OneHalf r v) : bisect r v = .inr v := by
  obtain ⟨holder, hnewer⟩ := not_or.mp h
  rw [bisect, if_neg holder, if_neg hnewer]

/-- **A range with the keyword in neither half** is looked at for ever. -/
theorem not_ends_of_not_oneHalf (h : ¬OneHalf r v) (c : Var) : ¬Ends (bisect r) v c :=
  Spins.not_ends ⟨v, .refl v, bisect_not_oneHalf h⟩ c

/-- The variables once `git log` has listed nothing. -/
structure Lost (v : Bisect) : Prop where
  number : v.number = 0
  mid : v.mid = none
  old : v.old = none ∨ v.old = some 0

/-- Of a range that is not listed there is no middle. -/
theorem halve_eq_of_nil {old new : Var} (h : r.logBetween old new = []) :
    halve r old new = (0, none) := by
  simp [halve, h, Repo.logLast]

/-- From such variables on no half is listed. -/
theorem Lost.halve_old (h : Lost v) (new : Var) : halve r v.old new = (0, none) := by
  refine halve_eq_of_nil ?_
  rcases h.old with hold | hold
  · rw [hold]
    rfl
  · rw [hold]
    rfl

/-- A range from the root on is not listed. -/
theorem lost_start (r : Repo) (new : ℕ) : Lost (start r 0 new) := by
  have hstart : start r 0 new = ⟨some 0, some new, none, 0⟩ := by
    rw [start, halve_eq_of_nil rfl]
  rw [hstart]
  exact ⟨rfl, rfl, .inr rfl⟩

/-- From such a state the loop comes to such a state again. -/
theorem Lost.step (h : Lost v) :
    ∃ v', bisect r v = .inr v' ∧ Lost v' ∧ (v'.old = none ∨ v'.new = none ∨ v' = v) := by
  have hnumber : v.number ≠ 1 := by
    rw [h.number]
    decide
  have hmid : halve r v.mid v.new = (0, none) := by
    refine halve_eq_of_nil ?_
    rw [h.mid]
    rfl
  simp only [bisect, if_neg hnumber, h.halve_old, hmid]
  split_ifs
  · exact ⟨_, rfl, ⟨rfl, rfl, h.old⟩, .inr (.inl h.mid)⟩
  · exact ⟨_, rfl, ⟨rfl, rfl, .inl h.mid⟩, .inl h.mid⟩
  · exact ⟨v, rfl, h, .inr (.inr rfl)⟩

/-- So the loop is not left. -/
theorem not_ends_of_lost (h : Lost v) (c : Var) : ¬Ends (bisect r) v c :=
  not_ends_of_invariant h (fun _ hu =>
    let ⟨u', hstep, hu', _⟩ := hu.step
    ⟨u', hstep, hu'⟩) c

/-- A range is not shorter than itself. -/
theorem not_shorter_self (v : Bisect) : ¬Shorter v v := fun h => Nat.lt_irrefl _ h.rangeLength_lt

/-- Nor does the range get shorter, since one of its ends is lost. -/
theorem not_progresses_of_lost (h : Lost v) : ¬Progresses r v := by
  intro hprogress
  obtain ⟨v', hstep, -, hempty⟩ := h.step
  obtain ⟨lo, hi, lo', hi', -, -, hlo', hhi', -⟩ := hprogress v' hstep
  rcases hempty with hempty | hempty | rfl
  · rw [hempty] at hlo'
    cases hlo'
  · rw [hempty] at hhi'
    cases hhi'
  · exact not_shorter_self v' (hprogress v' hstep)

/-- **When the bisection makes progress.** Every iteration leaves the loop or makes the range
shorter, and the loop is left, exactly if the range does not start at the root and the loop
comes to no range with the keyword in neither half. Where it fails it fails for ever: the
variables of such an iteration are those of the next, or are lost. -/
theorem bisection_progress_iff (r : Repo) (old new : ℕ) (hlt : old < new)
    (hfound : r.Finds old new) :
    ((∀ v, Reaches (bisect r) (start r old new) v → Progresses r v) ↔
        0 < old ∧ ∀ v, Reaches (bisect r) (start r old new) v → OneHalf r v) ∧
      ((∃ c, Ends (bisect r) (start r old new) c) ↔
        0 < old ∧ ∀ v, Reaches (bisect r) (start r old new) v → OneHalf r v) := by
  have hroot : old = 0 → Lost (start r old new) := by
    rintro rfl
    exact lost_start r new
  refine ⟨⟨fun hprogress => ⟨?_, fun v hv => ?_⟩, ?_⟩, ⟨?_, ?_⟩⟩
  · by_contra hold
    exact not_progresses_of_lost (hroot (by omega)) (hprogress _ (.refl _))
  · by_contra hhalf
    exact not_shorter_self v (hprogress v hv v (bisect_not_oneHalf hhalf))
  · rintro ⟨hold, hhalf⟩ v hv
    exact progresses_of_reaches hold hlt hfound hhalf hv
  · rintro ⟨c, hc⟩
    refine ⟨?_, fun v hv => ?_⟩
    · by_contra hold
      exact not_ends_of_lost (hroot (by omega)) c hc
    · by_contra hhalf
      exact not_ends_of_not_oneHalf hhalf c (hv.ends_iff.mp hc)
  · rintro ⟨hold, hhalf⟩
    exact exists_ends_of_oneHalf hold hlt hfound hhalf

theorem bisection_progress_sample : (∃ c, Ends (bisect sampleRepo) (start sampleRepo 1 5) c) ↔
    0 < 1 ∧ ∀ v, Reaches (bisect sampleRepo) (start sampleRepo 1 5) v → OneHalf sampleRepo v :=
  (bisection_progress_iff sampleRepo 1 5 (by decide) (by decide)).2

/-- A history with a keyword that is only found in the changes from the second commit to the
fourth, such as the old and the new name of a file that is renamed twice. -/
def stuckRepo : Repo where
  head := 3
  date c := c
  grepDiff args := args == [1, 3]

/-- **The bisection does not end**: at a range whose halves do not have the keyword, and at a range
from the root on. -/
theorem bisection_stuck :
    (stuckRepo.Finds 1 3 ∧ (∀ a, ¬stuckRepo.Finds a a) ∧
      ¬Progresses stuckRepo (start stuckRepo 1 3) ∧
      ∀ c, ¬Ends (bisect stuckRepo) (start stuckRepo 1 3) c) ∧
    sampleRepo.Finds 0 5 ∧ (∀ a, ¬sampleRepo.Finds a a) ∧
      ¬Progresses sampleRepo (start sampleRepo 0 5) ∧
      ∀ c, ¬Ends (bisect sampleRepo) (start sampleRepo 0 5) c := by
  have hhalf : ¬OneHalf stuckRepo (start stuckRepo 1 3) := by
    simp only [OneHalf]
    decide
  have hlost := lost_start sampleRepo 5
  refine ⟨⟨by decide, fun a => ?_, fun hprogress => ?_, not_ends_of_not_oneHalf hhalf⟩, by decide,
    fun a => ?_, not_progresses_of_lost hlost, not_ends_of_lost hlost⟩
  · simp only [Repo.Finds, stuckRepo, beq_iff_eq, List.cons.injEq, and_true]
    omega
  · exact not_shorter_self _ (hprogress _ (bisect_not_oneHalf hhalf))
  · simp only [Repo.Finds, sampleRepo, Bool.and_eq_true, decide_eq_true_eq]
    omega

end SearchSh

end OpenLog
