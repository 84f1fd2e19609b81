import Mathlib.Algebra.Ring.Nat
import Mathlib.Data.Nat.Notation
import Mathlib.Data.List.Basic

/-!
# Numbers as bytes

A number is stored in a fixed number of bytes, in the order of the machine
(`OpenLog.Format.Endian`). `OpenLog.Format.Endian.word` gives the bytes of a number and
`OpenLog.Format.Endian.value` the number that bytes stand for. What is written is read
back as far as it fits (`OpenLog.Format.Endian.value_word`), and there is only one way to
write it (`OpenLog.Format.Endian.word_value`).
-/

namespace OpenLog

namespace Format

/-- The `k` low bytes of a number, the lowest first. -/
def lowBytes : ℕ → ℕ → List UInt8
  | 0, _ => []
  | k + 1, n => UInt8.ofNat n :: lowBytes k (n / 256)

/-- The number with the given bytes, the lowest first. -/
def ofLowBytes : List UInt8 → ℕ
  | [] => 0
  | b :: bs => b.toNat + 256 * ofLowBytes bs

@[simp] theorem length_lowBytes (k n : ℕ) : (lowBytes k n).length = k := by
  induction k generalizing n with
  | zero => rfl
  | succ k ih => simp [lowBytes, ih]

/-- What is written and read again is the number up to the bytes that do not fit, -/
theorem ofLowBytes_lowBytes (k n : ℕ) : ofLowBytes (lowBytes k n) = n % 256 ^ k := by
  induction k generalizing n with
  | zero => simp [lowBytes, ofLowBytes, Nat.mod_one]
  | succ k ih =>
    have hlow : (UInt8.ofNat n).toNat = n % 256 := UInt8.toNat_ofNat'
    rw [lowBytes, ofLowBytes, ih, hlow, Nat.pow_succ', Nat.mod_mul]

/-- and what is read and written again are the same bytes. -/
theorem lowBytes_ofLowBytes (bs : List UInt8) : lowBytes bs.length (ofLowBytes bs) = bs := by
  induction bs with
  | nil => rfl
  | cons b bs ih =>
    have hb : b.toNat < 256 := b.toNat_lt
    have hlow : UInt8.ofNat (b.toNat + 256 * ofLowBytes bs) = b := by
      apply UInt8.toNat_inj.mp
      rw [UInt8.toNat_ofNat', Nat.add_mul_mod_self_left, Nat.mod_eq_of_lt hb]
    have hhigh : (b.toNat + 256 * ofLowBytes bs) / 256 = ofLowBytes bs := by
      omega
    rw [List.length_cons, ofLowBytes, lowBytes, hlow, hhigh, ih]

/-- So the bytes bound the number that they stand for. -/
theorem ofLowBytes_lt (bs : List UInt8) : ofLowBytes bs < 256 ^ bs.length := by
  rw [← lowBytes_ofLowBytes bs, ofLowBytes_lowBytes, length_lowBytes]
  exact Nat.mod_lt _ (Nat.pow_pos (by decide))

/-- The order of the bytes of a number in memory. -/
inductive Endian where
  | little
  | big
  deriving DecidableEq, Repr

namespace Endian

variable {e e' : Endian} {k n m : ℕ} {bs : List UInt8}

/-- The bytes of a number, `k` of them. -/
def word : Endian → ℕ → ℕ → List UInt8
  | little, k, n => lowBytes k n
  | big, k, n => (lowBytes k n).reverse

/-- The number that bytes stand for. -/
def value : Endian → List UInt8 → ℕ
  | little, bs => ofLowBytes bs
  | big, bs => ofLowBytes bs.reverse

@[simp] theorem length_word (e : Endian) (k n : ℕ) : (e.word k n).length = k := by
  cases e <;> simp [word]

/-- **What is written is read back**, as far as it fits. -/
theorem value_word (e : Endian) (k n : ℕ) : e.value (e.word k n) = n % 256 ^ k := by
  cases e <;> simp [word, value, ofLowBytes_lowBytes]

/-- **What is read would be written the same way.** -/
theorem word_value (e : Endian) (bs : List UInt8) : e.word bs.length (e.value bs) = bs := by
  cases e with
  | little => exact lowBytes_ofLowBytes bs
  | big =>
    show (lowBytes bs.length (ofLowBytes bs.reverse)).reverse = bs
    rw [← List.length_reverse, lowBytes_ofLowBytes, List.reverse_reverse]

/-- A number that is read from `k` bytes fits into them. -/
theorem value_lt (e : Endian) (bs : List UInt8) : e.value bs < 256 ^ bs.length := by
  cases e with
  | little => exact ofLowBytes_lt bs
  | big => simpa [value] using ofLowBytes_lt bs.reverse

end Endian

end Format

end OpenLog
