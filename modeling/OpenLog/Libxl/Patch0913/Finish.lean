import OpenLog.Logic.Assume
import OpenLog.Libxl.Migrate

/-!
# Finish3 in the patch of September 2012

The later patch changes one line of Finish3: a status that cannot be saved is only warned
about. The braces of that `if` are missing, so that its second line, the jump to the label
`error`, is reached after every unpause, and Finish3 destroys the guest that it has just
unpaused. Only a guest that is to stay paused survives
(`OpenLog.Libxl.Patch0913.finish_fate_iff`). Confirm3 is the function of
`OpenLog.Libxl.Migrate`.
-/

namespace OpenLog

namespace Libxl

namespace Patch0913

open Logic

variable {strToLong : List Char → Option ℤ} {uri : Option Uri} {flags : MigrateFlags}

/-! ### The function -/

/-- `libxlDomainMigrateFinish3` of the patch: is a domain handle returned? Its other labels
are as before. -/
def migrateFinish3 (strToLong : List Char → Option ℤ) (uri : Option Uri) (flags : MigrateFlags)
    (cancelled : Bool) : Code Bool := do
  if flags.unsupported then
    report .invalidArg "unsupported flags (0x%lx)"
    return false
  else
    act .driverLock
    match ← doParseURI strToLong uri with
    | none => Libxl.migrateFinish3.release 0
    | some (_, port) => Libxl.migrateFinish3.release port
    lookup
where
  lookup : Code Bool := do
    let vm ← ask .findByName
    if !vm then Libxl.migrateFinish3.cleanup vm none false
    else if cancelled then Libxl.migrateFinish3.error
    else if flags.paused then Libxl.migrateFinish3.handle
    else if !(← prim .libxlDomainUnpause) then
      report .operationFailed "Failed to unpause domain"
      Libxl.migrateFinish3.error
    else
      act (.setState .runningBooted)
      let _ ← prim .virDomainSaveStatus
      -- only the warning before this `goto` depends on the status
      Libxl.migrateFinish3.error

/-! ### The guest in Finish3 -/

/-- What becomes of the guest, with the answers that should decide it. -/
structure Fate where
  /-- The domain was looked up and found. -/
  found : Bool
  unpauseFailed : Bool
  /-- `libxlVmReap` has been called. -/
  reaped : Bool
  /-- The handle, once it has been asked for. -/
  handle : Option Bool
  deriving DecidableEq

namespace Fate

/-- Nothing has happened yet. -/
def start : Fate := ⟨false, false, false, none⟩

/-- What an operation does to the guest. -/
def next (g : Fate) : (o : Op) → Res o → Fate
  | .ask .findByName, found => { g with found := found }
  | .ask (.prim .libxlDomainUnpause), ok => { g with unpauseFailed := !ok }
  | .ask (.prim .libxlDomainDestroy), _ => { g with reaped := true }
  | .ask (.prim .virGetDomain), got => { g with handle := some got }
  | _, _ => g

/-- The fate of the guest as a monitor without requirements. -/
def monitor : Monitor Res Fate := ⟨next, fun _ _ => True⟩

@[simp] theorem monitor_next : monitor.next = next := rfl

@[simp] theorem monitor_ok (g : Fate) (o : Op) : monitor.ok g o := trivial

/-- The guest is reaped exactly where the migration is cancelled or the guest cannot be
unpaused, and a guest that is kept is handed out as `virGetDomain` has it. -/
def Right (g : Fate) (cancelled dom : Bool) : Prop :=
  (g.reaped = true ↔ cancelled = true ∨ g.unpauseFailed = true) ∧
    (g.reaped = false → g.handle = some dom)

instance (g : Fate) (cancelled dom : Bool) : Decidable (g.Right cancelled dom) :=
  inferInstanceAs (Decidable (_ ∧ _))

@[simp] theorem ignores_cleanup (g : Fate) : monitor.Ignores Op.Cleanup g := by
  rw [ignores_cleanup_iff]
  simp [next]

@[simp] theorem ignores_parse (g : Fate) : monitor.Ignores Op.Parse g := by
  rw [ignores_parse_iff]
  simp [next]

attribute [local simp] next start Right

/-- Once the domain has been looked up. -/
theorem wp_lookup (cancelled : Bool) : (migrateFinish3.lookup flags cancelled).wp monitor
    (fun dom g => g.found = true →
      (g.Right cancelled dom ↔ cancelled = true ∨ flags.paused = true ∨ g.unpauseFailed = true))
    (fun g => g.found = false) start := by
  cases cancelled <;> cases hpaused : flags.paused <;>
  simp [migrateFinish3.lookup, Libxl.migrateFinish3.handle, Libxl.migrateFinish3.error,
    Libxl.migrateFinish3.cleanup, Libxl.migrateFinish3.finish, hpaused]

/-- **Finish3** releases the port that the uri names, or `0`, and looks the domain up. -/
theorem wp_finish3 (cancelled : Bool) : (migrateFinish3 strToLong uri flags cancelled).wp monitor
    (fun dom g => g.found = true →
      (g.Right cancelled dom ↔ cancelled = true ∨ flags.paused = true ∨ g.unpauseFailed = true))
    (fun g => g.found = false) start := by
  rw [migrateFinish3]
  split_ifs with hflags
  · simp
  · refine wp_act.mpr ⟨trivial, Prog.wpOn_true.mp ?_⟩
    refine wpOn_release (migrateFinish3.lookup flags cancelled) ?_ (ignores_parse _)
      (fun _ => ⟨trivial, rfl⟩) (Prog.wpOn_of_wp (wp_lookup cancelled))
    rintro (_ | ⟨hostname, port⟩)
    · exact ⟨0, rfl⟩
    · exact ⟨port, rfl⟩

end Fate

/-! ### The hand-over -/

/-- Finish3 and Confirm3 as the coordinator calls them once the guest has been sent. -/
def handOver (strToLong : List Char → Option ℤ) (uri : Option Uri) (flags : MigrateFlags) :
    Prog (fun o : Call × Op => Res o.2) Unit := do
  let dom ← (migrateFinish3 strToLong uri flags false).tag Call.finish3
  let _ ← (migrateConfirm3 flags (!dom)).tag Call.confirm3
  return ()

/-- Where the guest is. -/
structure Whereabouts where
  /-- It is on the destination. -/
  dst : Bool
  /-- It has been reaped on the source. -/
  srcReaped : Bool
  deriving DecidableEq

namespace Whereabouts

/-- The guest has been sent. -/
def sent : Whereabouts := ⟨true, false⟩

/-- What an operation does to the guest on the host that it is called on. -/
def next (w : Whereabouts) : (o : Call × Op) → Res o.2 → Whereabouts
  | (.finish3, .ask (.prim .libxlDomainDestroy)), true => { w with dst := false }
  | (.confirm3, .ask (.prim .libxlDomainDestroy)), true => { w with srcReaped := true }
  | _, _ => w

/-- The whereabouts of the guest as a monitor without requirements. -/
def monitor : Monitor (fun o : Call × Op => Res o.2) Whereabouts := ⟨next, fun _ _ => True⟩

@[simp] theorem monitor_next : monitor.next = next := rfl

@[simp] theorem monitor_ok (w : Whereabouts) (o : Call × Op) : monitor.ok w o := trivial

/-- The answers of a run in which nothing fails. -/
def AllSucceed (_ : Whereabouts) (o : Call × Op) (r : Res o.2) : Prop :=
  succeeds o.2 r = true

@[simp] theorem ignores_parse (c : Call) (w : Whereabouts) :
    (monitor.at c).Ignores Op.Parse w := by
  rw [ignores_parse_iff]
  cases c <;> simp [next]

attribute [local simp] next sent AllSucceed succeeds Query.succeeds

/-- Finish3 keeps the guest, and has a handle for it, exactly if it is to stay paused. -/
theorem wpOn_lookup : (migrateFinish3.lookup flags false).wpOn
    (fun w o => AllSucceed w (.finish3, o)) (monitor.at .finish3)
    (fun dom w => dom = flags.paused ∧ w = ⟨flags.paused, false⟩) (fun _ => False) sent := by
  cases hpaused : flags.paused <;>
  simp [migrateFinish3.lookup, Libxl.migrateFinish3.handle, Libxl.migrateFinish3.error,
    Libxl.migrateFinish3.cleanup, Libxl.migrateFinish3.finish, vmCleanup, hpaused]

/-- Finish3 of the hand-over, with flags that are supported. -/
theorem wpOn_finish3 (hflags : flags.unsupported = false) :
    (migrateFinish3 strToLong uri flags false).wpOn (fun w o => AllSucceed w (.finish3, o))
      (monitor.at .finish3) (fun dom w => dom = flags.paused ∧ w = ⟨flags.paused, false⟩)
      (fun _ => False) sent := by
  rw [migrateFinish3, hflags]
  refine wpOn_act.mpr ⟨trivial, fun _ => ?_⟩
  refine wpOn_release (migrateFinish3.lookup flags false) ?_ (ignores_parse _ _)
    (fun _ => ⟨trivial, rfl⟩) wpOn_lookup
  rintro (_ | ⟨hostname, port⟩)
  · exact ⟨0, rfl⟩
  · exact ⟨port, rfl⟩

/-- Confirm3 reaps the source where Finish3 has returned a handle. -/
theorem wpOn_confirm3 (dst dom : Bool) (hflags : flags.unsupported = false) :
    (migrateConfirm3 flags (!dom)).wpOn (fun w o => AllSucceed w (.confirm3, o))
      (monitor.at .confirm3) (fun _ w => w = ⟨dst, dom⟩) (fun _ => False) ⟨dst, false⟩ := by
  cases dom <;> cases hundef : flags.undefineSource <;>
  simp [migrateConfirm3, migrateConfirm3.cleanup, vmCleanup, hflags, hundef]

/-- Where nothing fails the guest ends up where it should exactly if it is to stay
paused. -/
theorem wpOn_handOver : (handOver strToLong uri flags).wpOn AllSucceed monitor
    (fun _ w => w = ⟨true, true⟩ ↔ flags.unsupported = false ∧ flags.paused = true)
    (fun _ => False) sent := by
  refine Prog.wpOn_bind.mpr (Prog.wpOn_tag.mpr ?_)
  cases hflags : flags.unsupported with
  | false =>
    refine Prog.wpOn_mono ?_ (fun _ => id) (wpOn_finish3 hflags)
    rintro _ _ ⟨rfl, rfl⟩
    refine Prog.wpOn_bind.mpr (Prog.wpOn_tag.mpr ?_)
    refine Prog.wpOn_mono ?_ (fun _ => id) (wpOn_confirm3 flags.paused flags.paused hflags)
    rintro _ _ rfl
    cases flags.paused <;> simp
  | true =>
    -- neither call does anything
    rw [migrateFinish3, if_pos hflags]
    refine wpOn_act.mpr ⟨trivial, fun _ => Prog.wpOn_bind.mpr (Prog.wpOn_tag.mpr ?_)⟩
    rw [migrateConfirm3, if_pos hflags]
    exact wpOn_act.mpr ⟨trivial, fun _ => by simp⟩

end Whereabouts

/-! ### Runs -/

/-- What has become of the guest after a run of Finish3. -/
def fateAfter (tr : List (Event Res)) : Fate := Fate.monitor.run Fate.start tr

/-- Where the guest is after a run of the hand-over. -/
def whereaboutsAfter (tr : List (Event fun o : Call × Op => Res o.2)) : Whereabouts :=
  Whereabouts.monitor.run Whereabouts.sent tr

/-- **The fate of the guest.** Where the domain is found, Finish3 treats the guest as it should
exactly if the migration is cancelled, the guest is to stay paused or it cannot be unpaused: in
the first and the last case the guest is to be reaped, and in the second the line with the jump
is not reached. And where nothing fails the guest ends up on the destination, reaped on the
source, exactly if it is to stay paused. -/
theorem finish_fate_iff (strToLong : List Char → Option ℤ) (uri : Option Uri)
    (flags : MigrateFlags) :
    (∀ cancelled tr out, (migrateFinish3 strToLong uri flags cancelled).Runs tr out →
      (fateAfter tr).found = true → ∃ dom, out = some dom ∧
        ((fateAfter tr).Right cancelled dom ↔
          cancelled = true ∨ flags.paused = true ∨ (fateAfter tr).unpauseFailed = true)) ∧
    ∀ tr out, (handOver strToLong uri flags).Runs tr out → (∀ e ∈ tr, succeeds e.1.2 e.2 = true) →
      out = some () ∧ (whereaboutsAfter tr = ⟨true, true⟩ ↔
        flags.unsupported = false ∧ flags.paused = true) := by
  constructor
  · intro cancelled tr out hrun hfound
    obtain ⟨hret, hcrash⟩ := Prog.wp_sound (Fate.wp_finish3 cancelled) hrun
    cases out with
    | none => exact absurd (hcrash rfl) (by rw [← fateAfter, hfound]; decide)
    | some dom => exact ⟨dom, rfl, hret dom rfl hfound⟩
  · intro tr out hrun hsucceed
    obtain ⟨hret, hcrash⟩ := Prog.wpOn_sound Whereabouts.wpOn_handOver hrun
      (Monitor.follows_of_forall hsucceed)
    cases out with
    | none => exact (hcrash rfl).elim
    | some u => exact ⟨rfl, hret u rfl⟩

/-- A guest that is to stay paused is handed over. -/
theorem finish_fate_paused :
    (fateAfter ((migrateFinish3 readDecimal (some ['h', ':', '7']) ⟨false, false, true, false⟩
      false).eval allWell).1).Right false true := by
  obtain ⟨dom, hdom, hright⟩ := (finish_fate_iff readDecimal (some ['h', ':', '7'])
    ⟨false, false, true, false⟩).1 false _ _ (Prog.runs_eval allWell _) (by decide)
  obtain rfl : true = dom := Option.some.inj ((by decide : _ = some true).symm.trans hdom)
  exact hright.mpr (Or.inr (Or.inl rfl))

/-- **Finish3 destroys the guest that it has unpaused**, although all goes well, and the
guest is left where it came from. -/
theorem finish_reaps_guest :
    (∃ tr, (migrateFinish3 readDecimal (some ['h', ':', '7']) noFlags false).Runs tr
      (some false) ∧ (fateAfter tr).found = true ∧ ¬(fateAfter tr).Right false false) ∧
    ∃ tr, (handOver readDecimal (some ['h', ':', '7']) noFlags).Runs tr (some ()) ∧
      (∀ e ∈ tr, succeeds e.1.2 e.2 = true) ∧ whereaboutsAfter tr = ⟨false, false⟩ :=
  ⟨⟨_, Prog.runs_eval allWell _, by decide, by decide⟩,
    ⟨_, Prog.runs_eval (fun o : Call × Op => allWell o.2) _, by decide, by decide⟩⟩

end Patch0913

end Libxl

end OpenLog
