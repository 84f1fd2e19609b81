import Mathlib.Data.List.Nodup
import Mathlib.Data.List.Sort
import Mathlib.Logic.Function.Basic
import OpenLog.Logic.Simulation
import OpenLog.Logic.Pool
import OpenLog.Logic.Run

/-!
# Timeouts of a context

What libxl does for its timeouts where the application has registered hooks. The application is
given a nexus for each registration, and calls back once for it, in its own time: no lock is held
when it sets out to do so, and much may have happened before libxl is called. A nexus outlives the
registration, therefore, and is used again only after the call back has come
(`OpenLog.Xen.Timeouts.occurredTimeout`).

What timeouts are for is said by `OpenLog.Xen.Alarms`, where a registration has a number of its own
that is never used again: a call back for a registration that is in force reaches its timeout, and
one for a registration that was taken back reaches none.

## The callers

The functions do not check that a timeout is registered only once and that one which is
deregistered is registered: `time_deregister` asks for `infinite` only, and that stays as it is
when the timeout occurs. `TAILQ_REMOVE` of an entry that is not in its list would go by the links
that the entry had, and the nexus may be that of another timeout by then. So the results are about
runs in which the callers keep to it, which is what the alarms ask for
(`OpenLog.Xen.Alarms.next`).

## The results

What the alarms can do libxl can, with the same timeouts at the same call backs
(`OpenLog.Xen.timeouts_agree`), although it gets along with as many nexi as there are call backs
that have not come yet (`OpenLog.Xen.timeouts_made_le`). The macro that inserts a timeout into the
sorted list is a parameter.
-/

namespace OpenLog

namespace Xen

open Logic

variable {Ev : Type}

/-! ### libxl -/

/-- A `libxl__ev_time`, but for its function. -/
structure EvTime where
  infinite : Bool
  abs : ℕ
  nexus : Option ℕ

inductive TimeoutAct (Ev : Type) where
  /-- `time_register_finite`; `ok` is what the hook `timeout_register` comes back with. -/
  | register (ev : Ev) (absolute : ℕ) (ok : Bool)
  /-- `time_deregister`. -/
  | deregister (ev : Ev)
  /-- The application calls back for the registration with a number. -/
  | occurred (number : ℕ)

/-- The timeouts of a context, and the application. -/
structure Timeouts (Ev : Type) where
  /-- The nexi, and `hook_timeout_nexi_idle`. -/
  nexi : Pool
  /-- `nexus->ev`. -/
  ev : ℕ → Option Ev
  time : Ev → EvTime
  etimes : List Ev
  /-- The registrations for which the application will call back, with the nexus it was given. -/
  due : List (ℕ × ℕ)
  /-- The number of registrations that there were. -/
  registered : ℕ

namespace Timeouts

variable [DecidableEq Ev]

/-- `osevent_release_nexus`. -/
def releaseNexus (s : Timeouts Ev) (nexus : ℕ) : Timeouts Ev :=
  { s with ev := Function.update s.ev nexus none, nexi := s.nexi.release nexus }

/-- `osevent_hook_pre_alloc`. -/
def preAlloc (s : Timeouts Ev) (ev : Ev) : Timeouts Ev :=
  { s with
    nexi := s.nexi.alloc.2
    ev := Function.update s.ev s.nexi.alloc.1 (some ev)
    time := Function.update s.time ev { s.time ev with nexus := some s.nexi.alloc.1 } }

variable (insertSorted : (Ev → ℕ) → Ev → List Ev → List Ev)

/-- `time_register_finite`. A hook that fails has not registered the timeout. -/
def timeRegisterFinite (s : Timeouts Ev) (ev : Ev) (absolute : ℕ) (ok : Bool) : Timeouts Ev :=
  let nexus := s.nexi.alloc.1
  let s := s.preAlloc ev
  if ok then
    let time := Function.update s.time ev { s.time ev with infinite := false, abs := absolute }
    { s with
      time
      etimes := insertSorted (fun e => (time e).abs) ev s.etimes
      due := (nexus, s.registered) :: s.due
      registered := s.registered + 1 }
  else s.releaseNexus nexus

/-- `time_deregister`. The hook `timeout_modify` makes the application call back at once; the nexus
is kept until it does. That the timeout is in the list is not checked, and what `TAILQ_REMOVE`
does where it is not is left out. -/
def timeDeregister (s : Timeouts Ev) (ev : Ev) : Timeouts Ev :=
  if (s.time ev).infinite then s
  else
    let s :=
      match (s.time ev).nexus with
      | some nexus => { s with ev := Function.update s.ev nexus none }
      | none => s
    { s with etimes := s.etimes.erase ev }

/-- `libxl_osevent_occurred_timeout`: the timeout whose function is called, with its time. It comes
back with `none` where an assertion fails. -/
def occurredTimeout (s : Timeouts Ev) (nexus : ℕ) : Option (Timeouts Ev × Option (Ev × ℕ)) :=
  let ev := s.ev nexus
  let s := s.releaseNexus nexus
  match ev with
  | none => some (s, none)
  | some ev =>
    if (s.time ev).infinite then none
    else some ({ s with etimes := s.etimes.erase ev }, some (ev, (s.time ev).abs))

/-- What happens, with the timeout that occurs. The application calls back once for a
registration. -/
def next (s : Timeouts Ev) : TimeoutAct Ev → Option (Timeouts Ev × Option (Ev × ℕ))
  | .register ev absolute ok => some (s.timeRegisterFinite insertSorted ev absolute ok, none)
  | .deregister ev => some (s.timeDeregister ev, none)
  | .occurred number =>
    (s.due.find? (·.2 = number)).bind fun r =>
      { s with due := s.due.filter (·.2 ≠ number) }.occurredTimeout r.1

/-- A context without timeouts; what is in those that were not registered yet is left open. -/
def init (time : Ev → EvTime) : Timeouts Ev := ⟨Pool.empty, fun _ => none, time, [], [], 0⟩

end Timeouts

/-! ### What timeouts are for -/

/-- The registrations that are in force, with their numbers and times, and those for which there
will be a call back. -/
structure Alarms (Ev : Type) where
  live : Ev → Option (ℕ × ℕ)
  due : List (ℕ × Ev)
  registered : ℕ

namespace Alarms

variable [DecidableEq Ev]

/-- A timeout is registered when it is not, and deregistered when it is. -/
def next (t : Alarms Ev) : TimeoutAct Ev → Option (Alarms Ev × Option (Ev × ℕ))
  | .register ev absolute ok =>
    if (t.live ev).isSome then none
    else if ok then
      some (⟨Function.update t.live ev (some (t.registered, absolute)), (t.registered, ev) :: t.due,
        t.registered + 1⟩, none)
    else some (t, none)
  | .deregister ev =>
    if (t.live ev).isSome then some ({ t with live := Function.update t.live ev none }, none)
    else none
  | .occurred number =>
    (t.due.find? (·.1 = number)).map fun r =>
      let t := { t with due := t.due.filter (·.1 ≠ number) }
      if (t.live r.2).map Prod.fst = some number then
        ({ t with live := Function.update t.live r.2 none }, (t.live r.2).map fun x => (r.2, x.2))
      else (t, none)

def init : Alarms Ev := ⟨fun _ => none, [], 0⟩

end Alarms

/-! ### They do the same -/

/-- What the macro `LIBXL_TAILQ_INSERT_SORTED` does here. -/
structure InsertsByTime (insertSorted : (Ev → ℕ) → Ev → List Ev → List Ev) : Prop where
  perm : ∀ abs ev l, (insertSorted abs ev l).Perm (ev :: l)
  sorted : ∀ abs ev l, l.Pairwise (abs · ≤ abs ·) →
    (insertSorted abs ev l).Pairwise (abs · ≤ abs ·)

/-- A registration for which there will be a call back. -/
structure Reg (Ev : Type) where
  nexus : ℕ
  number : ℕ
  ev : Ev

/-- The registrations behind a state of libxl and one of the alarms. -/
structure Matches (s : Timeouts Ev) (t : Alarms Ev) (regs : List (Reg Ev)) : Prop where
  due : s.due = regs.map fun r => (r.nexus, r.number)
  due' : t.due = regs.map fun r => (r.number, r.ev)
  registered : s.registered = t.registered
  numbers : (regs.map (·.number)).Nodup
  fresh : ∀ r ∈ regs, r.number < t.registered
  uses : s.nexi.Uses (regs.map (·.nexus))
  /-- A nexus leads to its timeout as long as the registration is in force. -/
  target : ∀ r ∈ regs, s.ev r.nexus =
    (t.live r.ev).bind fun x => if x.1 = r.number then some r.ev else none
  live : ∀ ev number abs, t.live ev = some (number, abs) → ∃ r ∈ regs,
    r.number = number ∧ r.ev = ev ∧ s.time ev = ⟨false, abs, some r.nexus⟩
  etimes : ∀ ev, ev ∈ s.etimes ↔ (t.live ev).isSome
  nodup : s.etimes.Nodup
  sorted : s.etimes.Pairwise fun e e' => (s.time e).abs ≤ (s.time e').abs

section

variable {regs : List (Reg Ev)} {r : Reg Ev}

/-- A registration and the others. -/
theorem perm_cons_filter (hnodup : (regs.map (·.number)).Nodup) (hr : r ∈ regs) :
    regs.Perm (r :: regs.filter (·.number ≠ r.number)) := by
  induction regs with
  | nil => cases hr
  | cons x regs ih =>
    rw [List.map_cons, List.nodup_cons] at hnodup
    obtain ⟨hx, hrest⟩ := hnodup
    rcases List.mem_cons.mp hr with rfl | hr
    · have hall : ∀ y ∈ regs, decide (y.number ≠ r.number) = true := by
        intro y hy
        refine decide_eq_true fun heq => hx ?_
        rw [← heq]
        exact List.mem_map_of_mem hy
      rw [List.filter_cons_of_neg (by simp), List.filter_eq_self.mpr hall]
    · have hne : x.number ≠ r.number := by
        intro heq
        rw [heq] at hx
        exact hx (List.mem_map_of_mem hr)
      rw [List.filter_cons_of_pos (by simpa using hne)]
      exact ((ih hrest hr).cons x).trans (List.Perm.swap r x _)

end

section

variable {s : Timeouts Ev} {t : Alarms Ev} {regs : List (Reg Ev)}

/-- Numbers tell registrations apart. -/
theorem Matches.eq_of_number (h : Matches s t regs) {r r' : Reg Ev} (hr : r ∈ regs)
    (hr' : r' ∈ regs) (heq : r.number = r'.number) : r = r' :=
  List.inj_on_of_nodup_map h.numbers hr hr' heq

/-- And so do nexi. -/
theorem Matches.eq_of_nexus (h : Matches s t regs) {r r' : Reg Ev} (hr : r ∈ regs)
    (hr' : r' ∈ regs) (heq : r.nexus = r'.nexus) : r = r' :=
  List.inj_on_of_nodup_map h.uses.nodup hr hr' heq

theorem matches_init (time : Ev → EvTime) :
    Matches (Timeouts.init time) (Alarms.init : Alarms Ev) [] where
  due := rfl
  due' := rfl
  registered := rfl
  numbers := List.nodup_nil
  fresh := nofun
  uses := Pool.uses_empty
  target := nofun
  live := nofun
  etimes := by simp [Timeouts.init, Alarms.init]
  nodup := List.nodup_nil
  sorted := List.Pairwise.nil

/-- **The nexus of a registration that is not in force is taken back.** -/
theorem Matches.released (h : Matches s t regs) {r : Reg Ev} (hr : r ∈ regs)
    (hstale : ∀ abs, t.live r.ev ≠ some (r.number, abs)) :
    Matches ({ s with due := s.due.filter (·.2 ≠ r.number) }.releaseNexus r.nexus)
      { t with due := t.due.filter (·.1 ≠ r.number) } (regs.filter (·.number ≠ r.number)) := by
  have hsub : (regs.filter (·.number ≠ r.number)).Sublist regs := List.filter_sublist
  have huses := (h.uses.perm ((perm_cons_filter h.numbers hr).map (·.nexus))).release
  refine ⟨?_, ?_, h.registered, h.numbers.sublist (hsub.map _),
    fun r hr => h.fresh r (hsub.subset hr), huses, ?_, ?_, h.etimes, h.nodup, h.sorted⟩
  · simp only [Timeouts.releaseNexus, h.due, List.filter_map]
    rfl
  · simp only [h.due', List.filter_map]
    rfl
  · rintro r' hr'
    obtain ⟨hmem, hne⟩ := List.mem_filter.mp hr'
    have hnexus : r'.nexus ≠ r.nexus := by
      intro heq
      rw [h.eq_of_nexus hmem hr heq] at hne
      simp at hne
    exact (Function.update_of_ne hnexus none s.ev).trans (h.target r' hmem)
  · rintro e number abs hlive
    obtain ⟨r', hr', hnumber, hrev, htime⟩ := h.live e number abs hlive
    refine ⟨r', List.mem_filter.mpr ⟨hr', ?_⟩, hnumber, hrev, htime⟩
    refine decide_eq_true fun heq => hstale abs ?_
    rw [← h.eq_of_number hr' hr heq, hrev, hnumber]
    exact hlive

/-- libxl and the alarms find the same registration. -/
theorem Matches.find (h : Matches s t regs) (number : ℕ) :
    s.due.find? (·.2 = number) =
        (regs.find? (·.number = number)).map (fun r => (r.nexus, r.number)) ∧
      t.due.find? (·.1 = number) =
        (regs.find? (·.number = number)).map fun r => (r.number, r.ev) := by
  rw [h.due, h.due', List.find?_map, List.find?_map]
  exact ⟨rfl, rfl⟩

variable [DecidableEq Ev] {insertSorted : (Ev → ℕ) → Ev → List Ev → List Ev}

theorem timeRegisterFinite_true (ev : Ev) (absolute : ℕ) :
    s.timeRegisterFinite insertSorted ev absolute true =
      { nexi := s.nexi.alloc.2
        ev := Function.update s.ev s.nexi.alloc.1 (some ev)
        time := Function.update s.time ev ⟨false, absolute, some s.nexi.alloc.1⟩
        etimes := insertSorted
          (fun e => (Function.update s.time ev ⟨false, absolute, some s.nexi.alloc.1⟩ e).abs)
          ev s.etimes
        due := (s.nexi.alloc.1, s.registered) :: s.due
        registered := s.registered + 1 } := by
  simp [Timeouts.timeRegisterFinite, Timeouts.preAlloc]

/-- **A timeout is registered.** -/
theorem Matches.register (hins : InsertsByTime insertSorted) (h : Matches s t regs) {ev : Ev}
    (hev : t.live ev = none) (absolute : ℕ) :
    Matches (s.timeRegisterFinite insertSorted ev absolute true)
      ⟨Function.update t.live ev (some (t.registered, absolute)), (t.registered, ev) :: t.due,
        t.registered + 1⟩
      (⟨s.nexi.alloc.1, t.registered, ev⟩ :: regs) := by
  rw [timeRegisterFinite_true]
  have hnew : s.nexi.alloc.1 ∉ regs.map (·.nexus) := h.uses.alloc_notMem
  have hnotin : ev ∉ s.etimes := by simp [h.etimes, hev]
  have hperm := hins.perm (fun e =>
    (Function.update s.time ev ⟨false, absolute, some s.nexi.alloc.1⟩ e).abs) ev s.etimes
  refine ⟨?_, ?_, ?_, ?_, ?_, h.uses.alloc, ?_, ?_, ?_, ?_, ?_⟩
  · simp [h.due, h.registered]
  · simp [h.due']
  · simp [h.registered]
  · refine List.nodup_cons.mpr ⟨?_, h.numbers⟩
    rintro hmem
    obtain ⟨r, hr, heq⟩ := List.mem_map.mp hmem
    exact absurd heq (Nat.ne_of_lt (h.fresh r hr))
  · rintro r hr
    rcases List.mem_cons.mp hr with rfl | hr
    · exact Nat.lt_succ_self _
    · exact Nat.lt_succ_of_lt (h.fresh r hr)
  · rintro r hr
    rcases List.mem_cons.mp hr with rfl | hr
    · simp
    · have hne : r.nexus ≠ s.nexi.alloc.1 := by
        intro heq
        exact hnew (heq ▸ List.mem_map_of_mem hr)
      have hnumber := Nat.ne_of_gt (h.fresh r hr)
      dsimp only
      rw [Function.update_of_ne hne, h.target r hr]
      by_cases hrev : r.ev = ev
      · simp [hrev, hev, hnumber]
      · rw [Function.update_of_ne hrev]
  · rintro e number abs hlive
    dsimp only at hlive
    by_cases he : e = ev
    · subst he
      rw [Function.update_self] at hlive
      obtain ⟨rfl, rfl⟩ := Prod.mk.inj (Option.some.inj hlive)
      exact ⟨_, List.mem_cons_self, rfl, rfl, by simp⟩
    · rw [Function.update_of_ne he] at hlive
      obtain ⟨r, hr, hnumber, hrev, htime⟩ := h.live e number abs hlive
      refine ⟨r, List.mem_cons_of_mem _ hr, hnumber, hrev, ?_⟩
      dsimp only
      rw [Function.update_of_ne he, htime]
  · intro e
    rw [hperm.mem_iff, List.mem_cons, h.etimes]
    by_cases he : e = ev
    · simp [he]
    · simp [he]
  · exact hperm.nodup_iff.mpr (List.nodup_cons.mpr ⟨hnotin, h.nodup⟩)
  · refine hins.sorted _ _ _ (h.sorted.imp_of_mem ?_)
    rintro e e' he he' hle
    have hne : e ≠ ev := fun heq => hnotin (heq ▸ he)
    have hne' : e' ≠ ev := fun heq => hnotin (heq ▸ he')
    dsimp only
    rwa [Function.update_of_ne hne, Function.update_of_ne hne']

/-- The hook fails. -/
theorem Matches.register_failed (h : Matches s t regs) {ev : Ev} (hev : t.live ev = none)
    (absolute : ℕ) : Matches (s.timeRegisterFinite insertSorted ev absolute false) t regs := by
  have hnew : s.nexi.alloc.1 ∉ regs.map (·.nexus) := h.uses.alloc_notMem
  have hnotin : ev ∉ s.etimes := by simp [h.etimes, hev]
  refine ⟨h.due, h.due', h.registered, h.numbers, h.fresh, h.uses.alloc.release, ?_, ?_, h.etimes,
    h.nodup, ?_⟩
  · rintro r hr
    have hne : r.nexus ≠ s.nexi.alloc.1 := by
      intro heq
      exact hnew (heq ▸ List.mem_map_of_mem hr)
    rw [← h.target r hr]
    simp [Timeouts.timeRegisterFinite, Timeouts.preAlloc, Timeouts.releaseNexus,
      Function.update_of_ne hne]
  · rintro e number abs hlive
    obtain ⟨r, hr, hnumber, hrev, htime⟩ := h.live e number abs hlive
    have hne : e ≠ ev := by
      rintro rfl
      simp [hev] at hlive
    refine ⟨r, hr, hnumber, hrev, ?_⟩
    rw [← htime]
    simp [Timeouts.timeRegisterFinite, Timeouts.preAlloc, Timeouts.releaseNexus,
      Function.update_of_ne hne]
  · refine h.sorted.imp_of_mem ?_
    rintro e e' he he' hle
    have hne : e ≠ ev := fun heq => hnotin (heq ▸ he)
    have hne' : e' ≠ ev := fun heq => hnotin (heq ▸ he')
    simpa [Timeouts.timeRegisterFinite, Timeouts.preAlloc, Timeouts.releaseNexus,
      Function.update_of_ne hne, Function.update_of_ne hne'] using hle

/-- The registration of a timeout that is deregistered. -/
theorem Matches.timeDeregister_eq (h : Matches s t regs) {ev : Ev} (hev : (t.live ev).isSome) :
    ∃ r ∈ regs, r.ev = ev ∧ ∃ abs, t.live ev = some (r.number, abs) ∧
      s.timeDeregister ev =
        { s with ev := Function.update s.ev r.nexus none, etimes := s.etimes.erase ev } := by
  obtain ⟨⟨number, abs⟩, hlive⟩ := Option.isSome_iff_exists.mp hev
  obtain ⟨r, hr, hnumber, hrev, htime⟩ := h.live ev number abs hlive
  refine ⟨r, hr, hrev, abs, by rw [hlive, hnumber], ?_⟩
  simp [Timeouts.timeDeregister, htime]

/-- What remains of the list of timeouts without `ev`. -/
theorem Matches.erase (h : Matches s t regs) (ev : Ev) :
    (∀ e, e ∈ s.etimes.erase ev ↔ (Function.update t.live ev none e).isSome) ∧
      (s.etimes.erase ev).Nodup ∧
      (s.etimes.erase ev).Pairwise fun e e' => (s.time e).abs ≤ (s.time e').abs := by
  refine ⟨?_, h.nodup.erase ev, h.sorted.sublist List.erase_sublist⟩
  intro e
  rw [h.nodup.mem_erase_iff, h.etimes]
  by_cases he : e = ev
  · simp [he]
  · simp [he]

/-- **A timeout is deregistered.** -/
theorem Matches.deregister (h : Matches s t regs) {ev : Ev} (hev : (t.live ev).isSome) :
    Matches (s.timeDeregister ev) { t with live := Function.update t.live ev none } regs := by
  obtain ⟨r, hr, hrev, abs, hlive, heq⟩ := h.timeDeregister_eq hev
  obtain ⟨hetimes, hnodup, hsorted⟩ := h.erase ev
  rw [heq]
  refine ⟨h.due, h.due', h.registered, h.numbers, h.fresh, h.uses, ?_, ?_, hetimes, hnodup,
    hsorted⟩
  · rintro r' hr'
    dsimp only
    by_cases hne : r' = r
    · simp [hne, hrev]
    · have hnexus : r'.nexus ≠ r.nexus := fun heq => hne (h.eq_of_nexus hr' hr heq)
      rw [Function.update_of_ne hnexus, h.target r' hr']
      by_cases hev' : r'.ev = ev
      · have hnumber' : r.number ≠ r'.number :=
          fun heq => hne (h.eq_of_number hr' hr heq.symm)
        simp [hev', hlive, hnumber']
      · rw [Function.update_of_ne hev']
  · rintro e number abs hlive
    dsimp only at hlive
    have hne : e ≠ ev := by
      rintro rfl
      simp at hlive
    rw [Function.update_of_ne hne] at hlive
    exact h.live e number abs hlive

/-- A call back for a registration that is in force. -/
theorem Matches.occurred_live (h : Matches s t regs) {r : Reg Ev} (hr : r ∈ regs) {abs : ℕ}
    (hlive : t.live r.ev = some (r.number, abs)) :
    ∃ s', { s with due := s.due.filter (·.2 ≠ r.number) }.occurredTimeout r.nexus =
        some (s', some (r.ev, abs)) ∧
      Matches s' ⟨Function.update t.live r.ev none, t.due.filter (·.1 ≠ r.number), t.registered⟩
        (regs.filter (·.number ≠ r.number)) := by
  obtain ⟨r', hr', hnumber, hrev, htime⟩ := h.live _ _ _ hlive
  obtain rfl : r' = r := h.eq_of_number hr' hr hnumber
  have hsome : (t.live r'.ev).isSome := by simp [hlive]
  have hstale : ∀ abs, Function.update t.live r'.ev none r'.ev ≠ some (r'.number, abs) := by simp
  have htarget : s.ev r'.nexus = some r'.ev := by simp [h.target r' hr, hlive]
  have hreleased := (h.deregister hsome).released hr hstale
  refine ⟨_, ?_, hreleased⟩
  simp [Timeouts.occurredTimeout, Timeouts.releaseNexus, Timeouts.timeDeregister, htarget, htime]

/-- A call back for one that was taken back. -/
theorem Matches.occurred_stale (h : Matches s t regs) {r : Reg Ev} (hr : r ∈ regs)
    (hstale : ∀ abs, t.live r.ev ≠ some (r.number, abs)) :
    { s with due := s.due.filter (·.2 ≠ r.number) }.occurredTimeout r.nexus =
      some ({ s with due := s.due.filter (·.2 ≠ r.number) }.releaseNexus r.nexus, none) := by
  have htarget : s.ev r.nexus = none := by
    rw [h.target r hr, Option.bind_eq_none_iff]
    rintro ⟨number, abs⟩ hlive
    refine if_neg ?_
    rintro rfl
    exact hstale abs hlive
  simp [Timeouts.occurredTimeout, htarget]

/-- **The application calls back.** -/
theorem Matches.occurred (h : Matches s t regs) {number : ℕ} {t' : Alarms Ev}
    {o : Option (Ev × ℕ)} (hnext : t.next (.occurred number) = some (t', o)) :
    ∃ s', s.next insertSorted (.occurred number) = some (s', o) ∧ ∃ regs, Matches s' t' regs := by
  obtain ⟨hs, ht⟩ := h.find number
  rcases hfind : regs.find? (·.number = number) with - | r <;> rw [hfind] at hs ht
  · simp only [Alarms.next, ht] at hnext
    cases hnext
  have hr : r ∈ regs := List.mem_of_find?_eq_some hfind
  obtain rfl : r.number = number := by simpa using List.find?_some hfind
  simp only [Alarms.next, ht, Option.map_some, Option.some.injEq] at hnext
  simp only [Timeouts.next, hs, Option.map_some, Option.bind_some]
  by_cases hlive : ∃ abs, t.live r.ev = some (r.number, abs)
  · obtain ⟨abs, hlive⟩ := hlive
    obtain ⟨s', heq, hmatches⟩ := h.occurred_live hr hlive
    rw [if_pos (by rw [hlive]; rfl), hlive] at hnext
    obtain ⟨rfl, rfl⟩ := Prod.mk.inj hnext
    exact ⟨s', heq, _, hmatches⟩
  · have hstale : ∀ abs, t.live r.ev ≠ some (r.number, abs) := fun abs heq => hlive ⟨abs, heq⟩
    have hne : ¬(t.live r.ev).map Prod.fst = some r.number := by
      rw [Option.map_eq_some_iff]
      rintro ⟨⟨number, abs⟩, heq, rfl⟩
      exact hstale abs heq
    rw [if_neg hne] at hnext
    obtain ⟨rfl, rfl⟩ := Prod.mk.inj hnext
    exact ⟨_, h.occurred_stale hr hstale, _, h.released hr hstale⟩

/-- **libxl simulates the alarms**: what they can do it can, with the same result. -/
theorem simulates (hins : InsertsByTime insertSorted) :
    Simulates (Timeouts.next insertSorted) Alarms.next fun s t => ∃ regs, Matches s t regs := by
  rintro s t (⟨ev, absolute, ok⟩ | ev | number) t' o ⟨regs, h⟩ hnext
  · simp only [Alarms.next] at hnext
    split_ifs at hnext with hev hok
    · obtain ⟨rfl, rfl⟩ := Prod.mk.inj (Option.some.inj hnext)
      subst hok
      have hnone : t.live ev = none := by simpa using hev
      exact ⟨_, rfl, _, h.register hins hnone absolute⟩
    · obtain ⟨rfl, rfl⟩ := Prod.mk.inj (Option.some.inj hnext)
      have hnone : t.live ev = none := by simpa using hev
      obtain rfl : ok = false := by simpa using hok
      have hfailed : Matches (s.timeRegisterFinite insertSorted ev absolute false) t regs :=
        h.register_failed hnone absolute
      exact ⟨_, rfl, _, hfailed⟩
  · simp only [Alarms.next] at hnext
    split_ifs at hnext with hev
    obtain ⟨rfl, rfl⟩ := Prod.mk.inj (Option.some.inj hnext)
    exact ⟨_, rfl, _, h.deregister hev⟩
  · exact h.occurred hnext

/-- The callers keep to it: a timeout is registered when it is not, and deregistered when it is. -/
def Orderly (s : Timeouts Ev) : TimeoutAct Ev → Prop
  | .register ev _ _ => ev ∉ s.etimes
  | .deregister ev => ev ∈ s.etimes
  | .occurred _ => True

/-- Where the callers keep to it, what libxl can do the alarms can. -/
theorem Matches.alarms (h : Matches s t regs) {a : TimeoutAct Ev} (horderly : Orderly s a)
    {s' : Timeouts Ev} {o : Option (Ev × ℕ)} (hnext : s.next insertSorted a = some (s', o)) :
    ∃ t' o', t.next a = some (t', o') := by
  rcases a with ⟨ev, absolute, ok⟩ | ev | number
  · have hev : ¬(t.live ev).isSome := mt (h.etimes ev).mpr horderly
    simp only [Alarms.next, if_neg hev]
    split_ifs
    · exact ⟨_, _, rfl⟩
    · exact ⟨_, _, rfl⟩
  · have hev : (t.live ev).isSome := (h.etimes ev).mp horderly
    exact ⟨_, _, if_pos hev⟩
  · obtain ⟨r, hfind, -⟩ := Option.bind_eq_some_iff.mp hnext
    obtain ⟨hs, ht⟩ := h.find number
    rw [hs] at hfind
    obtain ⟨r', hr', -⟩ := Option.map_eq_some_iff.mp hfind
    rw [hr', Option.map_some] at ht
    simp only [Alarms.next, ht, Option.map_some]
    exact ⟨_, _, rfl⟩

/-- The nexi that a step leaves made. -/
theorem made_next {a : TimeoutAct Ev} {s' : Timeouts Ev} {o : Option (Ev × ℕ)}
    (hnext : s.next insertSorted a = some (s', o)) :
    s'.nexi.made = s.nexi.made ∨
      (∃ ev absolute ok, a = .register ev absolute ok) ∧ s'.nexi.made = s.nexi.alloc.2.made := by
  rcases a with ⟨ev, absolute, ok⟩ | ev | number
  · right
    refine ⟨⟨ev, absolute, ok, rfl⟩, ?_⟩
    obtain ⟨rfl, -⟩ := Prod.mk.inj (Option.some.inj hnext)
    rcases ok with _ | _ <;> rfl
  · left
    obtain ⟨rfl, -⟩ := Prod.mk.inj (Option.some.inj hnext)
    simp only [Timeouts.timeDeregister]
    split_ifs
    · rfl
    · rcases (s.time ev).nexus with - | nexus <;> rfl
  · left
    obtain ⟨r, -, hr⟩ := Option.bind_eq_some_iff.mp hnext
    simp only [Timeouts.occurredTimeout] at hr
    rcases hev : s.ev r.1 with - | ev <;> rw [hev] at hr <;> dsimp only at hr
    · obtain ⟨rfl, -⟩ := Prod.mk.inj (Option.some.inj hr)
      rfl
    · split_ifs at hr
      obtain ⟨rfl, -⟩ := Prod.mk.inj (Option.some.inj hr)
      rfl

end

/-! ### Every run -/

section

variable [DecidableEq Ev] {insertSorted : (Ev → ℕ) → Ev → List Ev → List Ev}

/-- **libxl does for its timeouts what they are for**: whatever is registered, fails to be and is
taken back, and however late the application calls back, all of this is possible, and the same
timeouts occur at the same call backs. -/
theorem timeouts_agree (hins : InsertsByTime insertSorted) (time : Ev → EvTime)
    (as : List (TimeoutAct Ev)) (has : (results Alarms.next Alarms.init as).isSome) :
    (results (Timeouts.next insertSorted) (Timeouts.init time) as).map Prod.snd =
      (results Alarms.next Alarms.init as).map Prod.snd := by
  obtain ⟨⟨t, os⟩, hrun⟩ := Option.isSome_iff_exists.mp has
  obtain ⟨s, hs, -⟩ := (simulates hins).results ⟨[], matches_init time⟩ hrun
  rw [hs, hrun]
  rfl

/-- There are fewer than `n` call backs to come when a timeout is registered. -/
def FewDue (n : ℕ) (s : Timeouts Ev) (a : TimeoutAct Ev) : Prop :=
  (∃ ev absolute ok, a = .register ev absolute ok) → s.due.length < n

/-- **Nexi are used again**: `n` of them are enough as long as fewer than `n` call backs are to come
whenever a timeout is registered. The timeouts stay in the order of their times, each of them
once. The invariant is that the state matches one of the alarms. -/
theorem timeouts_made_le (hins : InsertsByTime insertSorted) {time : Ev → EvTime} {n : ℕ}
    {s : Timeouts Ev}
    (h : ReachVia (fun s a => (s.next insertSorted a).map Prod.fst) (· = Timeouts.init time)
      (fun s a => Orderly s a ∧ FewDue n s a) s) :
    s.nexi.made ≤ n ∧ s.etimes.Nodup ∧
      s.etimes.Pairwise fun e e' => (s.time e).abs ≤ (s.time e').abs := by
  have hinv : (∃ t regs, Matches s t regs) ∧ s.nexi.made ≤ n := by
    refine h.invariant (P := fun s => (∃ t regs, Matches s t regs) ∧ s.nexi.made ≤ n) ?_ ?_
    · rintro s rfl
      exact ⟨⟨_, _, matches_init time⟩, Nat.zero_le n⟩
    · rintro s a s' ⟨⟨t, regs, hmatches⟩, hmade⟩ ⟨horderly, hfew⟩ hnext
      obtain ⟨⟨s', o⟩, hstep, rfl⟩ := Option.map_eq_some_iff.mp hnext
      refine ⟨?_, ?_⟩
      · obtain ⟨t', o', ht⟩ := hmatches.alarms horderly hstep
        obtain ⟨s'', hstep', regs', hmatches'⟩ := simulates hins s t a t' o' ⟨regs, hmatches⟩ ht
        obtain ⟨rfl, rfl⟩ := Prod.mk.inj (Option.some.inj (hstep.symm.trans hstep'))
        exact ⟨t', regs', hmatches'⟩
      · rcases made_next hstep with heq | ⟨hregister, heq⟩
        · exact heq ▸ hmade
        · have hdue : s.due.length = (regs.map (·.nexus)).length := by simp [hmatches.due]
          rw [heq]
          exact hmatches.uses.made_alloc_le hmade (hdue ▸ hfew hregister)
  obtain ⟨⟨t, regs, hmatches⟩, hmade⟩ := hinv
  exact ⟨hmade, hmatches.nodup, hmatches.sorted⟩

end

/-! ### A run -/

/-- A new timeout goes before the first one that is not earlier. -/
def insertByTime (abs : Ev → ℕ) (ev : Ev) (l : List Ev) : List Ev :=
  l.orderedInsert (abs · ≤ abs ·) ev

theorem insertsByTime : InsertsByTime (@insertByTime Ev) where
  perm _ ev l := l.perm_orderedInsert _ ev
  sorted _ ev l h := h.orderedInsert ev l

/-- A timeout is registered for `5`, taken back and registered for `9`; the call back for the first
registration comes then. -/
def lateCallBack : List (TimeoutAct Unit) :=
  [.register () 5 true, .deregister (), .register () 9 true, .occurred 0, .occurred 1]

theorem timeouts_agree_late :
    (results (Timeouts.next insertByTime) (Timeouts.init fun _ => ⟨true, 0, none⟩)
        lateCallBack).map Prod.snd = some [none, none, none, none, some ((), 9)] :=
  (timeouts_agree insertsByTime _ lateCallBack (by decide)).trans (by decide)

theorem timeouts_made_le_late :
    ∃ s : Timeouts Unit, s.due.length = 2 ∧ s.nexi.made ≤ 2 ∧ s.etimes.Nodup ∧
      s.etimes.Pairwise fun e e' => (s.time e).abs ≤ (s.time e').abs := by
  have hstart : ReachVia (fun s a => (s.next insertByTime a).map Prod.fst)
      (· = Timeouts.init fun _ : Unit => ⟨true, 0, none⟩)
      (fun s a => Orderly s a ∧ FewDue 2 s a) _ := ReachVia.start rfl
  have hone := hstart.step (a := .register () 5 true)
    ⟨by exact List.not_mem_nil, fun _ => Nat.zero_lt_two⟩ rfl
  have htwo := hone.step (a := .deregister ())
    ⟨by exact List.mem_singleton_self _, by rintro ⟨ev, absolute, ok, ⟨⟩⟩⟩ rfl
  have hthree := htwo.step (a := .register () 9 true)
    ⟨by exact List.not_mem_nil, fun _ => Nat.one_lt_two⟩ rfl
  exact ⟨_, rfl, timeouts_made_le insertsByTime hthree⟩

end Xen

end OpenLog
