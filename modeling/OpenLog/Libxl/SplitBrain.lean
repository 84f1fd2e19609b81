import OpenLog.Logic.Run
import OpenLog.Libxl.Migrate

/-!
# One guest, two hosts

A migration together with the thread that receives the guest, call by call in any
order, and what their calls do to the guest on either host. The guest must not execute
on both (`OpenLog.Libxl.MigrationState.SplitBrain`).

The coordinator goes by what Finish3 returns, and Finish3 can return no handle although
the guest runs on its host: the handle could not be made, or the guest could not be
destroyed. And nothing tells the thread that the source has been suspended, since the
exchange of messages between the two sides is disabled. That is all that goes wrong:
where the thread unpauses the guest in time and Finish3 leaves no running guest behind,
there is only one guest (`OpenLog.Libxl.MigrationState.no_split_brain`).
-/

namespace OpenLog

namespace Libxl

open Logic

/-! ### The guest on the two hosts -/

/-- The guest on the destination host. -/
inductive Guest where
  | absent
  | paused
  | running
  deriving DecidableEq, Repr

/-- `libxl_domain_unpause`, successful. -/
def Guest.unpause : Guest → Guest
  | .absent => .absent
  | .paused | .running => .running

/-- How far a migration has got. -/
structure Progress where
  /-- Perform3 has suspended the guest on the source. -/
  sent : Bool
  /-- Finish3 has tried to destroy the guest on the destination, or has not got a
  handle for it. -/
  givenUp : Bool
  deriving DecidableEq

/-- The guest on both hosts. -/
structure Hosts where
  /-- The guest executes on the source. -/
  src : Bool
  dst : Guest
  deriving DecidableEq

/-- What a call of the coordinator does to the progress. -/
def Progress.next (p : Progress) : (o : Call × Op) → Res o.2 → Progress
  | (.perform3, .ask (.prim (.libxlDomainSuspend _))), true => { p with sent := true }
  | (.finish3, .ask (.prim .libxlDomainDestroy)), _ => { p with givenUp := true }
  | (.finish3, .ask (.prim .virGetDomain)), false => { p with givenUp := true }
  | _, _ => p

/-- What a call of the coordinator does to the guest. -/
def Hosts.next (h : Hosts) : (o : Call × Op) → Res o.2 → Hosts
  | (.perform3, .ask (.prim (.libxlDomainSuspend _))), true => { h with src := false }
  | (.finish3, .ask (.prim .libxlDomainUnpause)), true => { h with dst := h.dst.unpause }
  | (.finish3, .ask (.prim .libxlDomainDestroy)), true => { h with dst := .absent }
  | (.confirm3, .ask (.prim .libxlDomainResume)), true => { h with src := true }
  | (.confirm3, .ask (.prim .libxlDomainDestroy)), true => { h with src := false }
  | _, _ => h

/-- What a call of the receiving thread does to the guest. A guest is restored paused. -/
def Hosts.receive (h : Hosts) : (o : Op) → Res o → Hosts
  | .create _, .ok => { h with dst := .paused }
  | .ask (.prim .libxlDomainUnpause), true => { h with dst := h.dst.unpause }
  | .ask (.prim .libxlDomainDestroy), true => { h with dst := .absent }
  | _, _ => h

/-! ### The system -/

/-- The coordinator, the receiving thread if it has been started, and the guest. -/
structure MigrationState where
  coordinator : Prog (fun o : Call × Op => Res o.2) Unit
  receiver : Option (Code Unit)
  progress : Progress
  hosts : Hosts

/-- A call of the coordinator or of the receiving thread, with the answers. -/
inductive MigrationAct where
  | coordinate (ω : (o : Call × Op) → Res o.2)
  | receive (ω : (o : Op) → Res o)

namespace MigrationState

/-- The thread is started by `virThreadCreate` in Prepare3. -/
def startReceiver (receiver : Option (Code Unit)) : (o : Call × Op) → Res o.2 → Option (Code Unit)
  | (.prepare3, .ask (.prim .virThreadCreate)), true => some doMigrateReceive
  | _, _ => receiver

def step (s : MigrationState) : MigrationAct → Option MigrationState
  | .coordinate ω => (s.coordinator.advance ω).map fun (e, rest) =>
    { coordinator := rest
      receiver := startReceiver s.receiver e.1 e.2
      progress := s.progress.next e.1 e.2
      hosts := s.hosts.next e.1 e.2 }
  | .receive ω => (s.receiver.bind fun p => p.advance ω).map fun (e, rest) =>
    { s with receiver := some rest, hosts := s.hosts.receive e.1 e.2 }

/-- The guest is on the source, whether it executes or not. -/
def Initial (m : Migration) (s : MigrationState) : Prop :=
  s.coordinator = migrate m ∧ s.receiver = none ∧ s.progress = ⟨false, false⟩ ∧
    s.hosts.dst = .absent

/-- The guest executes on both hosts. -/
def SplitBrain (s : MigrationState) : Prop := s.hosts.src = true ∧ s.hosts.dst = .running

/-- Finish3 cannot destroy its guest, or has no handle to return. -/
def finish3Fails : (o : Call × Op) → Res o.2 → Bool
  | (.finish3, .ask (.prim .libxlDomainDestroy)), false => true
  | (.finish3, .ask (.prim .virGetDomain)), false => true
  | _, _ => false

/-- The receiving thread unpauses its guest. -/
def receiverUnpauses : (o : Op) → Res o → Bool
  | .ask (.prim .libxlDomainUnpause), true => true
  | _, _ => false

/-- The step does not go wrong: Finish3 fails so only where the guest does not run, and
the thread unpauses only a guest that has been sent and not been given up. -/
def Sound (s : MigrationState) : MigrationAct → Prop
  | .coordinate ω => ∀ x ∈ s.coordinator.advance ω,
    finish3Fails x.1.1 x.1.2 = true → s.hosts.dst ≠ .running
  | .receive ω => ∀ x ∈ s.receiver.bind fun p => p.advance ω,
    receiverUnpauses x.1.1 x.1.2 = true → s.progress.sent = true ∧ s.progress.givenUp = false

instance (s : MigrationState) : (a : MigrationAct) → Decidable (Sound s a)
  | .coordinate ω => inferInstanceAs (Decidable (∀ x ∈ s.coordinator.advance ω, _ → _))
  | .receive _ => inferInstanceAs (Decidable (∀ x ∈ s.receiver.bind _, _ → _))

end MigrationState

/-! ### The coordinator -/

namespace Progress

/-- What the coordinator observes: it unpauses the guest only after the source has been
suspended and before it is given up, and resumes the source only afterwards. -/
def Observes (p : Progress) : Call × Op → Prop
  | (.finish3, .ask (.prim .libxlDomainUnpause)) => p.sent = true ∧ p.givenUp = false
  | (.confirm3, .ask (.prim .libxlDomainResume)) => p.givenUp = true
  | _ => True

def monitor : Monitor (fun o : Call × Op => Res o.2) Progress := ⟨next, Observes⟩

@[simp] theorem monitor_next : monitor.next = next := rfl

@[simp] theorem monitor_ok : monitor.ok = Observes := rfl

variable {strToLong : List Char → Option ℤ} {uri : Option Uri} {flags : MigrateFlags}

attribute [local simp] next Observes

/-- Begin3 and Prepare3 do nothing to the progress, whatever they do otherwise. -/
theorem wp_begin3 {p : Progress} {code : Code Bool} : code.wp (monitor.at .begin3)
    (fun _ p' => p' = p) (fun p' => p' = p) p :=
  Prog.wp_idle (fun _ => trivial) fun _ _ => rfl

theorem wp_prepare3 {p : Progress} {code : Code (Int × Option Uri)} : code.wp (monitor.at .prepare3)
    (fun _ p' => p' = p) (fun p' => p' = p) p :=
  Prog.wp_idle (fun _ => trivial) fun _ _ => rfl

/-- What the calls do besides the guest is not looked at. -/
@[simp] theorem ignores_aside (c : Call) (p : Progress) : (monitor.at c).Ignores Op.Aside p := by
  rw [ignores_aside_iff, ignores_cleanup_iff, ignores_parse_iff, ignores_port_iff]
  cases c <;> simp

/-- Perform3 succeeds only where it has suspended the guest on the source. -/
theorem wp_perform3 : (migratePerform3 strToLong uri flags).wp (monitor.at .perform3)
    (fun ret p => 0 ≤ ret → p = ⟨true, false⟩) (fun _ => True) ⟨false, false⟩ := by
  simp [migratePerform3, Option.forall]

/-- Finish3 after a failure does not unpause the guest. -/
theorem wp_finish3_cancelled {p : Progress} : (migrateFinish3 strToLong uri flags true).wp
    (monitor.at .finish3) (fun _ _ => True) (fun _ => True) p := by
  simp [migrateFinish3, migrateFinish3.lookup, migrateFinish3.cleanup, Option.forall]

/-- Without a handle the guest has been given up. -/
theorem wp_finish3 : (migrateFinish3 strToLong uri flags false).wp (monitor.at .finish3)
    (fun dom p => dom = false → flags.unsupported = false → p.givenUp = true) (fun _ => True)
    ⟨true, false⟩ := by
  cases hpaused : flags.paused <;>
  simp [migrateFinish3, migrateFinish3.lookup, migrateFinish3.cleanup, hpaused, Option.forall]

/-- Confirm3 resumes the source if it is cancelled, which it is only for a guest that was given
up. -/
theorem wp_confirm3 {p : Progress} {cancelled : Bool}
    (hp : cancelled = true → flags.unsupported = false → p.givenUp = true) :
    (migrateConfirm3 flags cancelled).wp (monitor.at .confirm3) (fun _ _ => True)
      (fun _ => True) p := by
  cases cancelled with
  | false =>
    cases hundef : flags.undefineSource <;>
    simp [migrateConfirm3, hundef]
  | true =>
    simpa [migrateConfirm3] using hp rfl

/-- **The coordinator observes its rules**, however its calls are answered. -/
theorem wp_migrate (m : Migration) : (migrate m).wp monitor (fun _ _ => True) (fun _ => True)
    ⟨false, false⟩ := by
  refine wp_migrate_of (fun p => p = ⟨false, false⟩) (fun p => p = ⟨false, false⟩)
    (fun _ => True) (fun p => p = ⟨true, false⟩)
    (fun dom p => dom = false → m.flags.unsupported = false → p.givenUp = true) ?_ ?_ ?_ ?_ ?_ ?_
  · refine Prog.wp_mono ?_ (fun _ _ => trivial) wp_begin3
    rintro xml p rfl
    split_ifs
    rfl
  · rintro p rfl
    refine Prog.wp_mono ?_ (fun _ _ => trivial) wp_prepare3
    rintro r p rfl
    split_ifs
    rfl
  · rintro uri p rfl
    refine Prog.wp_mono ?_ (fun _ => id) wp_perform3
    intro ret p hp
    split_ifs with hret
    exact hp (Int.not_lt.mp hret)
  · exact fun uri p _ => wp_finish3_cancelled
  · rintro uri p rfl
    exact wp_finish3
  · exact fun dom p hp => wp_confirm3 fun hdom => hp (by simpa using hdom)

end Progress

/-! ### One guest -/

namespace MigrationState

/-- The guest runs on the destination only between the suspension of the source and
Finish3 giving it up, and does not execute on the source then. -/
structure Consistent (p : Progress) (h : Hosts) : Prop where
  dst : h.dst = .running → p.sent = true ∧ p.givenUp = false
  src : p.sent = true → p.givenUp = false → h.src = false

/-- A call of the coordinator that observes its rules and is clean. -/
theorem Consistent.next {p : Progress} {h : Hosts} (hc : Consistent p h) {o : Call × Op}
    {r : Res o.2} (hobs : p.Observes o) (hclean : finish3Fails o r = true → h.dst ≠ .running) :
    Consistent (p.next o r) (h.next o r) := by
  unfold Progress.next
  split
  · -- the source is suspended
    refine ⟨fun hrun => ⟨rfl, (hc.dst hrun).2⟩, fun _ _ => rfl⟩
  -- Finish3 destroys its guest, or fails to
  · rename_i destroyed
    cases destroyed with
    | false => exact ⟨fun hrun => absurd hrun (hclean rfl), nofun⟩
    | true => exact ⟨nofun, nofun⟩
  · exact ⟨fun hrun => absurd hrun (hclean rfl), nofun⟩
  · unfold Hosts.next
    split
    · rename_i hother _ _
      exact (hother _ rfl HEq.rfl).elim
    · exact ⟨fun _ => hobs, hc.src⟩
    · exact ⟨nofun, hc.src⟩
    -- Confirm3 resumes the source, which it does for a guest that is given up only
    · have hgiven : p.givenUp = true := hobs
      exact ⟨hc.dst, fun _ hnot => by simp [hgiven] at hnot⟩
    · exact ⟨hc.dst, fun _ _ => rfl⟩
    · exact hc

/-- A call of the thread that is in time. -/
theorem Consistent.receive {p : Progress} {h : Hosts} (hc : Consistent p h) {o : Op}
    {r : Res o} (htime : receiverUnpauses o r = true → p.sent = true ∧ p.givenUp = false) :
    Consistent p (h.receive o r) := by
  unfold Hosts.receive
  split
  · exact ⟨nofun, hc.src⟩
  · exact ⟨fun _ => htime rfl, hc.src⟩
  · exact ⟨nofun, hc.src⟩
  · exact hc

/-- What holds where no step has gone wrong: the coordinator keeps to its rules from where it
stands, however its calls are answered, and the guest is consistent with how far it has got. -/
def Inv (s : MigrationState) : Prop :=
  s.coordinator.wp Progress.monitor (fun _ _ => True) (fun _ => True) s.progress ∧
    Consistent s.progress s.hosts

/-- The guest is on the source, and the rules are kept from the beginning. -/
theorem Inv.init {m : Migration} {s : MigrationState} (h : Initial m s) : s.Inv := by
  obtain ⟨hcoord, -, hprog, hdst⟩ := h
  refine ⟨?_, ?_, ?_⟩
  · rw [hcoord, hprog]
    exact Progress.wp_migrate m
  · simp [hdst]
  · simp [hprog]

/-- **Step.** A call of the coordinator keeps to the rules, and one of the thread is in time.
-/
theorem Inv.step {s s' : MigrationState} {a : MigrationAct} (h : s.Inv) (hs : Sound s a)
    (ha : step s a = some s') : s'.Inv := by
  cases a with
  | coordinate ω =>
    obtain ⟨⟨e, rest⟩, hadv, rfl⟩ := Option.map_eq_some_iff.mp ha
    obtain ⟨hobs, hrest⟩ := Prog.wp_advance h.1 hadv
    exact ⟨hrest, h.2.next hobs (hs _ hadv)⟩
  | receive ω =>
    obtain ⟨⟨e, rest⟩, hbind, rfl⟩ := Option.map_eq_some_iff.mp ha
    exact ⟨h.1, h.2.receive (hs _ hbind)⟩

/-- **There is only one guest**, in every state of a migration whose thread unpauses the guest
in time and whose Finish3 leaves no running guest behind, in whichever order the coordinator
and the thread go on. -/
theorem no_split_brain {m : Migration} {s : MigrationState}
    (h : ReachVia step (Initial m) Sound s) : ¬s.SplitBrain := by
  have hinv : s.Inv := h.invariant (fun _ => Inv.init) fun _ _ _ hs hC hstep => hs.step hC hstep
  rintro ⟨hsrc, hdst⟩
  obtain ⟨hsent, hgiven⟩ := hinv.2.dst hdst
  rw [hinv.2.src hsent hgiven] at hsrc
  cases hsrc

/-- All calls of Begin3, Prepare3 and Perform3, then those of the thread, then the rest. -/
def receiveInBetween (ω : (o : Call × Op) → Res o.2) : List MigrationAct :=
  List.replicate 37 (.coordinate ω) ++ List.replicate 26 (.receive allWell) ++
    List.replicate 17 (.coordinate ω)

/-- The migration of a guest that executes, before it starts. -/
def plainStart : MigrationState := ⟨migrate plainMigration, none, ⟨false, false⟩, ⟨true, .absent⟩⟩

/-- A migration can begin so. -/
theorem initial_plainStart : Initial plainMigration plainStart := ⟨rfl, rfl, rfl, rfl⟩

/-- If all goes well the guest ends up on the destination alone. -/
theorem no_split_brain_allWell : ∃ s, ReachVia step (Initial plainMigration) Sound s ∧
    s.hosts = ⟨false, .running⟩ ∧ ¬s.SplitBrain := by
  have hrun : (exec (restrict step Sound) plainStart
      (receiveInBetween fun o : Call × Op => allWell o.2)).map hosts = some ⟨false, .running⟩ := by
    decide
  obtain ⟨s, hs, hhosts⟩ := Option.map_eq_some_iff.mp hrun
  have hreach := (ReachVia.start initial_plainStart).of_exec hs
  exact ⟨s, hreach, hhosts, no_split_brain hreach⟩

/-- **Two guests**: all goes well but the handle in Finish3, so that Confirm3 resumes
the source while the guest runs on the destination. -/
theorem split_brain : ∃ s, Reach step (Initial plainMigration) s ∧ s.SplitBrain := by
  have hrun : (exec step plainStart (receiveInBetween noHandle)).map hosts =
      some ⟨true, .running⟩ := by
    decide
  obtain ⟨s, hs, hhosts⟩ := Option.map_eq_some_iff.mp hrun
  exact ⟨s, (Reach.start initial_plainStart).of_exec hs, by simp [SplitBrain, hhosts]⟩

end MigrationState

end Libxl

end OpenLog
