import Mathlib.Data.List.Range
import Mathlib.Data.List.ReduceOption
import Mathlib.Order.Basic
import OpenLog.Text.First

/-!
# The history that `search.sh` looks at

`productivity/Linux_environment/utils/search.sh` looks for the commit whose changes contain a
keyword. Everything it knows of the repository it gets from `git log` and `git diff`, through
pipes that keep the hashes of the commits, their number, or whether the keyword has been found.

The history is linear, so a commit is given by its number, from the root `0` on. A variable of
the shell holds a commit or the empty string, which a command with an error message leaves
behind; an unquoted empty variable is no argument at all.
-/

namespace OpenLog

namespace SearchSh

/-- What the script looks at. -/
structure Repo where
  /-- The number of `HEAD`. -/
  head : ℕ
  /-- The dates of the commits. -/
  date : ℕ → ℤ
  /-- The outcome of `git diff --no-ext-diff … | grep $keyword` with these commits as arguments. -/
  grepDiff : List ℕ → Bool

/-- A variable of the shell that is to hold a commit. -/
abbrev Var := Option ℕ

namespace Repo

variable (r : Repo)

/-- `git log $old^..$new | grep ^commit`, the newest commit first. The root has no parent, and an
empty variable leaves no name of a commit before `^`: then there is only an error message. -/
def logBetween : Var → Var → List ℕ
  | none, _ => []
  | some 0, _ => []
  | some (parent + 1), new => ((List.range (new.getD r.head + 1)).drop (parent + 1)).reverse

/-- `git log $new -n $number | grep ^commit`. -/
def logLast (new : Var) (number : ℕ) : List ℕ :=
  (List.range (new.getD r.head + 1)).reverse.take number

/-- `git log --before=… -n 1 | grep ^commit`, given the date that git takes the option for. -/
def logBefore (date : ℤ) : Var := (List.range (r.head + 1)).reverse.find? fun c => r.date c ≤ date

/-- `git diff --no-ext-diff $a $b | grep $keyword`. -/
def diff (a b : Var) : Bool := r.grepDiff [a, b].reduceOption

/-- The keyword is in the changes from one commit to another. -/
def Finds (a b : ℕ) : Prop := r.grepDiff [a, b] = true

instance (a b : ℕ) : Decidable (r.Finds a b) := inferInstanceAs (Decidable (_ = true))

variable {r} {a b c : ℕ} {date : ℤ}

@[simp] theorem diff_some : r.diff (some a) (some b) = true ↔ r.Finds a b := Iff.rfl

/-- The commits from one that is not the root to a later one, both of them counted. -/
theorem length_logBetween (ha : 0 < a) : (r.logBetween (some a) (some b)).length = b + 1 - a := by
  obtain ⟨parent, rfl⟩ : ∃ n, a = n + 1 := ⟨a - 1, by omega⟩
  simp [logBetween]

/-- The oldest of the commits that are listed up to a commit. -/
theorem getLast?_logLast {number : ℕ} (hpos : 0 < number) (hle : number ≤ b + 1) :
    (r.logLast (some b) number).getLast? = some (b + 1 - number) := by
  have hlength : (r.logLast (some b) number).length = number := by
    simp [logLast, hle]
  rw [List.getLast?_eq_getElem?, hlength, logLast, Option.getD_some,
    List.getElem?_take_of_lt (by omega), List.getElem?_reverse (by simp; omega),
    List.length_range, List.getElem?_range (by omega)]
  congr 1
  omega

/-- **The newest commit up to a date.** -/
theorem logBefore_eq_some_iff : r.logBefore date = some c ↔
    c ≤ r.head ∧ r.date c ≤ date ∧ ∀ d, c < d → d ≤ r.head → date < r.date d := by
  have hfalls : (List.range (r.head + 1)).reverse.Pairwise (· > ·) :=
    List.pairwise_reverse.mpr List.pairwise_lt_range
  rw [logBefore, Text.find?_eq_some_iff_of_pairwise hfalls]
  simp only [List.mem_reverse, List.mem_range, decide_eq_true_eq, decide_eq_false_iff_not,
    Int.not_le, Nat.lt_succ_iff]
  exact and_congr_right fun _ => and_congr_right fun _ =>
    ⟨fun h d hlt hle => h d hle hlt, fun h d hle hlt => h d hlt hle⟩

end Repo

end SearchSh

end OpenLog
