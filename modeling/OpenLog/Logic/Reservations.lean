import Mathlib.Data.Finset.Basic
import Mathlib.Logic.Function.Basic

/-!
# Reservations

Clients that reserve resources, one each at most, and a record of the resources that are
taken. The record is exact (`OpenLog.Logic.Reservations.Exact`) if it agrees with
what the clients hold and no two of them hold the same. Reserving what is not taken
keeps it exact (`OpenLog.Logic.Reservations.Exact.reserve`); giving back keeps it exact
just where a client gives back what it holds
(`OpenLog.Logic.Reservations.Exact.release_iff`).
-/

namespace OpenLog

namespace Logic

/-- Resources taken, and what each client holds. -/
structure Reservations (κ β : Type*) where
  taken : Finset β
  holds : κ → Option β

namespace Reservations

variable {κ β : Type*} {r : Reservations κ β} {k : κ} {b : β}

/-- The record agrees with what is held, and nothing is held twice. -/
structure Exact (r : Reservations κ β) : Prop where
  taken_iff : ∀ b, b ∈ r.taken ↔ ∃ k, r.holds k = some b
  unique : ∀ k k' b, r.holds k = some b → r.holds k' = some b → k = k'

/-- Nothing is taken. -/
def empty (κ β : Type*) : Reservations κ β := ⟨∅, fun _ => none⟩

/-- Nobody holds anything then. -/
theorem exact_empty : (empty κ β).Exact := ⟨by simp [empty], by simp [empty]⟩

variable [DecidableEq β]

/-- The record without a resource. -/
def without (taken : Finset β) (b : Option β) : Finset β := b.elim taken taken.erase

/-- What is left is what was there and is not given back. -/
@[simp] theorem mem_without {taken : Finset β} {c : Option β} :
    b ∈ without taken c ↔ b ∈ taken ∧ c ≠ some b := by
  cases c with
  | none => simp [without]
  | some c => simp [without, and_comm, eq_comm]

/-- A resource that is taken by nobody spoils the record. -/
theorem Exact.not_leak (h : r.Exact) (hb : b ∉ r.taken) : ¬Exact ⟨insert b r.taken, r.holds⟩ := by
  intro hleak
  obtain ⟨k, hk⟩ := (hleak.taken_iff b).mp (Finset.mem_insert_self b r.taken)
  exact hb ((h.taken_iff b).mpr ⟨k, hk⟩)

variable [DecidableEq κ]

/-- `k` takes `b`. -/
def reserve (r : Reservations κ β) (k : κ) (b : β) : Reservations κ β :=
  ⟨insert b r.taken, Function.update r.holds k (some b)⟩

/-- `k` is done, and `c` is given back. -/
def release (r : Reservations κ β) (k : κ) (c : Option β) : Reservations κ β :=
  ⟨without r.taken c, Function.update r.holds k none⟩

/-- What the clients hold after one has taken something, -/
theorem reserve_holds_iff {k' : κ} {b' : β} : (r.reserve k b).holds k' = some b' ↔
    k' = k ∧ b = b' ∨ k' ≠ k ∧ r.holds k' = some b' := by
  by_cases hk : k' = k <;> simp [reserve, hk]

/-- and after one has given back what it held. -/
theorem release_holds_iff {c : Option β} {k' : κ} :
    (r.release k c).holds k' = some b ↔ k' ≠ k ∧ r.holds k' = some b := by
  by_cases hk : k' = k <;> simp [release, hk]

/-- **A client takes** what nobody has, and has held nothing before. -/
theorem Exact.reserve (h : r.Exact) (hk : r.holds k = none) (hb : b ∉ r.taken) :
    (r.reserve k b).Exact := by
  have hfree : ∀ k', r.holds k' ≠ some b := fun k' hk' => hb ((h.taken_iff b).mpr ⟨k', hk'⟩)
  refine ⟨fun b' => ?_, fun k₁ k₂ b' h₁ h₂ => ?_⟩
  · show b' ∈ insert b r.taken ↔ _
    rw [Finset.mem_insert, h.taken_iff]
    constructor
    · rintro (rfl | ⟨k', hk'⟩)
      · exact ⟨k, reserve_holds_iff.mpr (Or.inl ⟨rfl, rfl⟩)⟩
      · have hne : k' ≠ k := by
          rintro rfl
          simp [hk] at hk'
        exact ⟨k', reserve_holds_iff.mpr (Or.inr ⟨hne, hk'⟩)⟩
    · rintro ⟨k', hk'⟩
      obtain ⟨-, rfl⟩ | ⟨-, hk'⟩ := reserve_holds_iff.mp hk'
      · exact Or.inl rfl
      · exact Or.inr ⟨k', hk'⟩
  · obtain ⟨rfl, rfl⟩ | ⟨-, h₁⟩ := reserve_holds_iff.mp h₁
    · obtain ⟨rfl, -⟩ | ⟨-, h₂⟩ := reserve_holds_iff.mp h₂
      · rfl
      · exact (hfree k₂ h₂).elim
    · obtain ⟨-, rfl⟩ | ⟨-, h₂⟩ := reserve_holds_iff.mp h₂
      · exact (hfree k₁ h₁).elim
      · exact h.unique k₁ k₂ b' h₁ h₂

/-- **A client that is done must give back just what it holds**: neither may it keep its
resource in the record, nor may it take another's out. -/
theorem Exact.release_iff (h : r.Exact) {c : Option β} : (r.release k c).Exact ↔
    (∀ b, r.holds k = some b → c = some b) ∧
      ∀ b, c = some b → b ∈ r.taken → r.holds k = some b := by
  constructor
  · intro hexact
    refine ⟨fun b hb => ?_, fun b hc hb => ?_⟩
    · -- otherwise `b` stays taken, by nobody
      by_contra hc
      have htaken : b ∈ (r.release k c).taken :=
        mem_without.mpr ⟨(h.taken_iff b).mpr ⟨k, hb⟩, hc⟩
      obtain ⟨k', hk'⟩ := (hexact.taken_iff b).mp htaken
      obtain ⟨hne, hk'⟩ := release_holds_iff.mp hk'
      exact hne (h.unique k' k b hk' hb)
    · -- otherwise `b` is still held, but not taken
      obtain ⟨k', hk'⟩ := (h.taken_iff b).mp hb
      by_cases hkk : k' = k
      · exact hkk ▸ hk'
      · have htaken := (hexact.taken_iff b).mpr ⟨k', release_holds_iff.mpr ⟨hkk, hk'⟩⟩
        exact ((mem_without.mp htaken).2 hc).elim
  · rintro ⟨hgives, honly⟩
    refine ⟨fun b => ?_, fun k₁ k₂ b h₁ h₂ => ?_⟩
    · show b ∈ without r.taken c ↔ _
      rw [mem_without, h.taken_iff]
      constructor
      · rintro ⟨⟨k', hk'⟩, hc⟩
        have hne : k' ≠ k := by
          rintro rfl
          exact hc (hgives b hk')
        exact ⟨k', release_holds_iff.mpr ⟨hne, hk'⟩⟩
      · rintro ⟨k', hk'⟩
        obtain ⟨hne, hk'⟩ := release_holds_iff.mp hk'
        have htaken : b ∈ r.taken := (h.taken_iff b).mpr ⟨k', hk'⟩
        exact ⟨⟨k', hk'⟩, fun hc => hne (h.unique k' k b hk' (honly b hc htaken))⟩
    · exact h.unique k₁ k₂ b (release_holds_iff.mp h₁).2 (release_holds_iff.mp h₂).2

end Reservations

end Logic

end OpenLog
