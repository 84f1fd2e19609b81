import Mathlib
import OpenLog.Logic.Loop
import OpenLog.SearchSh.Git

/-!
# The year loop of `search.sh`

Before the bisection `search.sh` looks for a range in whose changes the keyword is found: from the
base commit back to the newest commit that is a year old, from there to the newest commit that is
two years old, and so on.

The ends of the ranges are the newest commits of the whole history up to a date, and the first of
them need not be older than the base. If it is, the ranges follow each other from the base
backwards; if it is not, the first range goes forwards from the base, or all the ranges lie
elsewhere (`OpenLog.SearchSh.yearLoop_range_iff`).
-/

namespace OpenLog

namespace SearchSh

open Logic

/-! ### The loop -/

/-- The variables of the loop. -/
structure Years where
  currentYear : ℤ
  new : ℕ
  /-- The pairs of commits that have been compared in vain, which are printed. -/
  compared : List (ℕ × ℕ)
  deriving DecidableEq

/-- The body of the loop: it is left with `exit 1`, with `$old` and the other variables where the
keyword has been found, or entered again. The dates of the option `--before` are given by
`before`. -/
def previousYear (r : Repo) (before : ℤ → ℤ) (v : Years) : Option (ℕ × Years) ⊕ Years :=
  let currentYear := v.currentYear - 1
  match r.logBefore (before currentYear) with
  | none => .inl none
  | some old =>
    if r.Finds old v.new then .inl (some (old, { v with currentYear }))
    else .inr ⟨currentYear, old, v.compared ++ [(old, v.new)]⟩

/-- The variables before the loop. -/
def Years.init (currentYear : ℤ) (base : ℕ) : Years := ⟨currentYear, base, []⟩

/-! ### Ranges without gaps -/

/-- The pairs cover the history from `new` to `base`, each of them going back from where the pair
before it begins. -/
def Tiles : List (ℕ × ℕ) → ℕ → ℕ → Prop
  | [], new, base => new = base
  | (old, new') :: ps, new, base => new' = base ∧ old ≤ new' ∧ Tiles ps new old

/-- The pair that the loop leaves is a range that ends at the base or before it and has the
keyword, and the pairs that have been compared before cover what lies between. -/
def ProperRange (r : Repo) (base old : ℕ) (v : Years) : Prop :=
  old < v.new ∧ v.new ≤ base ∧ r.Finds old v.new ∧ Tiles v.compared v.new base

variable {r : Repo} {before : ℤ → ℤ} {year : ℤ} {base old new : ℕ} {v v' : Years}
  {ps : List (ℕ × ℕ)}

/-- One more pair behind the others. -/
theorem Tiles.concat (h : Tiles ps new base) (hold : old ≤ new) :
    Tiles (ps ++ [(old, new)]) old base := by
  induction ps generalizing base with
  | nil =>
    obtain rfl : new = base := h
    exact ⟨rfl, hold, rfl⟩
  | cons p ps ih =>
    obtain ⟨hbase, hle, hrest⟩ := h
    exact ⟨hbase, hle, ih hrest⟩

/-- The pairs go back. -/
theorem Tiles.le (h : Tiles ps new base) : new ≤ base := by
  induction ps generalizing base with
  | nil => exact Nat.le_of_eq h
  | cons p ps ih =>
    obtain ⟨rfl, hle, hrest⟩ := h
    exact (ih hrest).trans hle

/-! ### One year -/

/-- A year in which the keyword is not found moves on to the newest commit up to its date, -/
theorem previousYear_inr (h : previousYear r before v = .inr v') :
    ∃ old, r.logBefore (before (v.currentYear - 1)) = some old ∧
      v' = ⟨v.currentYear - 1, old, v.compared ++ [(old, v.new)]⟩ := by
  rw [previousYear] at h
  rcases hold : r.logBefore (before (v.currentYear - 1)) with _ | old
  · simp [hold] at h
  · simp only [hold] at h
    split_ifs at h
    exact ⟨old, rfl, (Sum.inr.inj h).symm⟩

/-- and one in which it is found leaves the range as it is. -/
theorem previousYear_inl (h : previousYear r before v = .inl (some (old, v'))) :
    r.logBefore (before (v.currentYear - 1)) = some old ∧ r.Finds old v.new ∧
      v'.new = v.new ∧ v'.compared = v.compared := by
  rw [previousYear] at h
  rcases hold : r.logBefore (before (v.currentYear - 1)) with _ | old'
  · simp [hold] at h
  · simp only [hold] at h
    split_ifs at h with hfound
    obtain ⟨rfl, rfl⟩ := Prod.mk.inj (Option.some.inj (Sum.inl.inj h))
    exact ⟨rfl, hfound, rfl, rfl⟩

/-- The newest commit up to an earlier date is not newer. -/
theorem logBefore_mono {date date' : ℤ} {c c' : ℕ} (hdate : date' ≤ date)
    (h : r.logBefore date = some c) (h' : r.logBefore date' = some c') : c' ≤ c := by
  obtain ⟨-, -, hlast⟩ := Repo.logBefore_eq_some_iff.mp h
  obtain ⟨hhead', hdate', -⟩ := Repo.logBefore_eq_some_iff.mp h'
  by_contra hlt
  have hnewer := hlast c' (Nat.not_le.mp hlt) hhead'
  omega

/-- The newest commit up to a date is not newer than the base if all commits behind the base are
newer than the date. -/
theorem logBefore_le_iff {date : ℤ} {c : ℕ} (h : r.logBefore date = some c) :
    c ≤ base ↔ ∀ d, base < d → d ≤ r.head → date < r.date d := by
  obtain ⟨hhead, hdate, hlast⟩ := Repo.logBefore_eq_some_iff.mp h
  constructor
  · intro hle d hd hd'
    exact hlast d (hle.trans_lt hd) hd'
  · intro hnewer
    by_contra hlt
    have hlate := hnewer c (Nat.not_le.mp hlt) hhead
    omega

/-! ### All years -/

/-- Between two years the pairs compared so far cover the history from `new` to the base, and the
next range goes back from `new`. -/
structure Backwards (r : Repo) (before : ℤ → ℤ) (base : ℕ) (v : Years) : Prop where
  tiles : Tiles v.compared v.new base
  next (old : ℕ) : r.logBefore (before (v.currentYear - 1)) = some old → old ≤ v.new

/-- A year keeps that, since the newest commit up to an earlier date is not newer. -/
theorem Backwards.step (hmono : Monotone before) (hv : Backwards r before base v)
    (h : previousYear r before v = .inr v') : Backwards r before base v' := by
  obtain ⟨old, hold, rfl⟩ := previousYear_inr h
  refine ⟨hv.tiles.concat (hv.next old hold), fun old' hold' => ?_⟩
  have hyear : v.currentYear - 1 - 1 ≤ v.currentYear - 1 := by omega
  exact logBefore_mono (hmono hyear) hold hold'

/-- The first pair that has been compared, if any. -/
theorem compared_head (h : Reaches (previousYear r before) (Years.init year base) v) :
    v = Years.init year base ∨ ∃ old ps, r.logBefore (before (year - 1)) = some old ∧
      v.compared = (old, base) :: ps := by
  refine h.invariant (P := fun v => v = Years.init year base ∨ ∃ old ps,
    r.logBefore (before (year - 1)) = some old ∧ v.compared = (old, base) :: ps) (.inl rfl) ?_
  rintro u u' (rfl | ⟨first, ps, hfirst, hps⟩) hstep
  · obtain ⟨old, hold, rfl⟩ := previousYear_inr hstep
    exact .inr ⟨old, [], hold, rfl⟩
  · obtain ⟨old, -, rfl⟩ := previousYear_inr hstep
    exact .inr ⟨first, ps ++ [(old, u.new)], hfirst, by rw [hps, List.cons_append]⟩

/-- **When the year loop hands over a proper range**: exactly if all commits behind the base
are newer than the date of the first year back. For `git log` starts at the head and not at the
commit that the loop has come to; where the newest commit up to that date lies behind the base,
the ranges do not go back from the base. -/
theorem yearLoop_range_iff (r : Repo) (before : ℤ → ℤ) (hmono : Monotone before)
    (hself : ∀ c, ¬r.Finds c c) (year : ℤ) (base old : ℕ) (v : Years)
    (h : Ends (previousYear r before) (Years.init year base) (some (old, v))) :
    ProperRange r base old v ↔ ∀ c, base < c → c ≤ r.head → before (year - 1) < r.date c := by
  obtain ⟨u, hu, hend⟩ := h
  obtain ⟨hold, hfound, hnew, hcompared⟩ := previousYear_inl hend
  constructor
  · rintro ⟨hlt, -, -, htiles⟩
    rw [hnew] at hlt
    rw [hcompared, hnew] at htiles
    rcases compared_head hu with rfl | ⟨first, ps, hfirst, hps⟩
    · exact (logBefore_le_iff hold).mp hlt.le
    · rw [hps] at htiles
      exact (logBefore_le_iff hfirst).mp htiles.2.1
  · intro hnewer
    have hinit : Backwards r before base (Years.init year base) :=
      ⟨rfl, fun first hfirst => (logBefore_le_iff hfirst).mpr hnewer⟩
    have hback : Backwards r before base u :=
      hu.invariant hinit fun _ _ hv hstep => hv.step hmono hstep
    have hlt : old ≠ u.new := by
      rintro rfl
      exact hself _ hfound
    have hle := hback.next old hold
    rw [ProperRange, hnew, hcompared]
    exact ⟨by omega, hback.tiles.le, hfound, hback.tiles⟩

/-- A history with one commit a year and a keyword in the changes from the last commit back to the
second. -/
def yearlyRepo : Repo where
  head := 3
  date c := c
  grepDiff args := args == [3, 1] || args == [1, 3]

/-- A commit has no changes to itself. -/
theorem not_finds_self (c : ℕ) : ¬yearlyRepo.Finds c c := by
  simp only [Repo.Finds, yearlyRepo, Bool.or_eq_true, beq_iff_eq, List.cons.injEq, and_true]
  omega

/-- From the last commit the ranges go back. -/
theorem yearLoop_range_last : ProperRange yearlyRepo 3 1 ⟨1, 3, []⟩ :=
  (yearLoop_range_iff yearlyRepo id monotone_id not_finds_self 2 3 1 ⟨1, 3, []⟩
    (.of_inl (by decide))).mpr fun _ hlt hle => absurd (hlt.trans_le hle) (Nat.lt_irrefl _)

/-- **A range that goes forwards**: with the second commit as the base, and commits behind it that
are more than a year old, the first range is one from the last commit to the second. -/
theorem yearLoop_forwards : Monotone yearlyRepo.date ∧
    Ends (previousYear yearlyRepo id) (Years.init 4 1) (some (3, ⟨3, 1, []⟩)) ∧
      ¬ProperRange yearlyRepo 1 3 ⟨3, 1, []⟩ := by
  refine ⟨fun a b h => Int.ofNat_le.mpr h, .of_inl (by decide), fun hproper => ?_⟩
  exact absurd hproper.1 (by decide)

end SearchSh

end OpenLog
