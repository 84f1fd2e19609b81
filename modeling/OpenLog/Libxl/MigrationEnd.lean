import OpenLog.Libxl.SplitBrain

/-!
# The end of a migration in which nothing fails

The coordinator and the receiving thread as in `OpenLog.Libxl.SplitBrain`, in runs in which
every call succeeds and the thread has finished before Finish3 starts. The thread accepts a
connection only when Perform3 has made it.

Six functions on two hosts contribute to the end of such a run, and it is as it should be
(`OpenLog.Libxl.Ends.Well`) but for one flag: the thread starts the guest without a look at the
flags, so that a guest that is to stay paused executes
(`OpenLog.Libxl.SmoothState.ends_well_iff`).
-/

namespace OpenLog

namespace Libxl

open Logic

/-! ### Both hosts -/

/-- What the calls leave behind on the two hosts. -/
structure Ends where
  /-- The guest on the source. -/
  src : Guest
  /-- The domain is in the source's list. -/
  srcListed : Bool
  /-- The source holds a migration job. -/
  srcJob : Bool
  /-- The guest on the destination. -/
  dst : Guest
  dstListed : Bool
  dstJob : Bool
  /-- Perform3 has connected to the receiving thread. -/
  connected : Bool
  /-- Finish3 has got a handle. -/
  handle : Bool
  deriving DecidableEq

/-- What an operation changes on the two hosts. -/
inductive Change where
  | src (guest : Guest)
  | srcListed (listed : Bool)
  | srcJob (held : Bool)
  | dstUnpaused
  | dstDestroyed
  | dstListed (listed : Bool)
  | dstJob (held : Bool)
  | connected (ok : Bool)
  | handle (got : Bool)
  | nothing

/-- A call of the coordinator. -/
def change : (o : Call × Op) → Res o.2 → Change
  | (.begin3, .begin _), .ok => .srcJob true
  | (.begin3, .ask .endAsyncJob), _ => .srcJob false
  | (.prepare3, .begin _), .ok => .dstJob true
  | (.prepare3, .ask .endAsyncJob), _ => .dstJob false
  | (.prepare3, .ask .assignDef), given => .dstListed given
  | (.perform3, .ask (.prim .virNetSocketNewConnectTCP)), ok => .connected ok
  | (.perform3, .ask (.prim (.libxlDomainSuspend _))), true => .src .paused
  | (.perform3, .ask .endAsyncJob), _ => .srcJob false
  | (.finish3, .ask (.prim .libxlDomainUnpause)), true => .dstUnpaused
  | (.finish3, .ask (.prim .libxlDomainDestroy)), true => .dstDestroyed
  | (.finish3, .ask (.prim .virGetDomain)), got => .handle got
  | (.finish3, .ask .endAsyncJob), _ => .dstJob false
  | (.finish3, .act .removeInactive), _ => .dstListed false
  | (.confirm3, .ask (.prim .libxlDomainDestroy)), true => .src .absent
  | (.confirm3, .ask (.prim .libxlDomainResume)), true => .src .running
  | (.confirm3, .ask .endAsyncJob), _ => .srcJob false
  | (.confirm3, .act .removeInactive), _ => .srcListed false
  | _, _ => .nothing

namespace Ends

def apply (w : Ends) : Change → Ends
  | .src guest => { w with src := guest }
  | .srcListed listed => { w with srcListed := listed }
  | .srcJob held => { w with srcJob := held }
  | .dstUnpaused => { w with dst := w.dst.unpause }
  | .dstDestroyed => { w with dst := .absent }
  | .dstListed listed => { w with dstListed := listed }
  | .dstJob held => { w with dstJob := held }
  | .connected ok => { w with connected := ok }
  | .handle got => { w with handle := got }
  | .nothing => w

def next (w : Ends) (o : Call × Op) (r : Res o.2) : Ends := w.apply (change o r)

/-- The coordinator as a monitor without requirements. -/
def monitor : Monitor (fun o : Call × Op => Res o.2) Ends := ⟨next, fun _ _ => True⟩

@[simp] theorem monitor_next : monitor.next = next := rfl

@[simp] theorem monitor_ok (w : Ends) (o : Call × Op) : monitor.ok w o := trivial

/-- What a call is told where nothing fails. The list of domains keeps a reference to each
of its members. -/
def smoothQuery (srcPersistent : Bool) (w : Ends) (c : Call) (q : Query) (answer : Bool) : Bool :=
  if q = .endAsyncJob then answer
  else if q = .isActive then
    match c with
    | .begin3 => answer
    | .finish3 => decide (w.dst ≠ .absent) == answer
    | .prepare3 | .perform3 | .confirm3 => true
  else if q = .isPersistent then
    match c with
    | .confirm3 => srcPersistent == answer
    | .begin3 | .prepare3 | .perform3 | .finish3 => true
  else q.succeeds answer

/-- The answers of the two hosts where nothing fails. -/
def smooth (srcPersistent : Bool) (w : Ends) (o : Call × Op) : Res o.2 → Bool :=
  match o.2 with
  | .ask q => fun answer => smoothQuery srcPersistent w o.1 q answer
  | .act a => fun r => succeeds (.act a) r
  | .begin call => fun r => succeeds (.begin call) r
  | .create restore => fun r => succeeds (.create restore) r
  | .getHostname => fun r => succeeds .getHostname r
  | .probePort port => fun r => succeeds (.probePort port) r

/-- A migration has ended well: the guest is on the destination only, executing unless it
is to stay paused; the source has been reaped, and removed where it is transient or to be
undefined; there is a handle; and no migration job is held. -/
structure Well (srcPersistent : Bool) (flags : MigrateFlags) (w : Ends) : Prop where
  src : w.src = .absent
  srcListed : w.srcListed = (srcPersistent && !flags.undefineSource)
  dst : w.dst = if flags.paused then .paused else .running
  dstListed : w.dstListed = true
  handle : w.handle = true
  srcJob : w.srcJob = false
  dstJob : w.dstJob = false

variable {srcPersistent : Bool} {strToLong : List Char → Option ℤ} {uri : Option Uri}
variable {flags : MigrateFlags}

/-- The migration has not got as far as the connection. The guest on the destination is
taken to be what the thread leaves behind. -/
def UnderWay (w : Ends) : Prop := w.srcListed = true ∧ w.dst = .running ∧ w.connected = false

/-- What the calls do besides, to the driver's locks, the events and the domain's definition,
changes none of the ends. -/
@[simp] theorem ignores_aside (c : Call) (w : Ends) :
    (monitor.at c).Ignores Op.Aside w := by
  rw [ignores_aside_iff, ignores_cleanup_iff, ignores_parse_iff, ignores_port_iff]
  cases c <;> simp [next, change, apply]

/-- What a call may rely on, and what the coordinator promises for its own end. -/
abbrev Smooth (srcPersistent : Bool) (w : Ends) (o : Call × Op) (r : Res o.2) : Prop :=
  smooth srcPersistent w o r = true

/-- What the coordinator promises for its own end: if it got as far as a connection, the
migration has ended well exactly if the guest was not to stay paused. -/
def Promise (srcPersistent : Bool) (flags : MigrateFlags) (w : Ends) : Prop :=
  w.connected = true → (w.Well srcPersistent flags ↔ flags.paused = false)

attribute [local simp] next change apply Smooth smooth smoothQuery succeeds Query.succeeds

/-- Begin3 changes nothing but the job on the source, -/
theorem wp_begin3 (xmlin : Bool) {w : Ends} (hw : w.UnderWay) :
    (migrateBegin3 xmlin flags).wp (monitor.at .begin3) (fun _ w' => w'.UnderWay)
      (fun w' => w'.UnderWay) w := by
  simpa [migrateBegin3, UnderWay] using hw

/-- and Prepare3 nothing but the job on the destination and its list, to which it has added the
domain if it succeeds. -/
theorem wp_prepare3 (domXml dname : Bool) {w : Ends} (hw : w.UnderWay) :
    (migratePrepare3 strToLong domXml dname uri flags).wp (monitor.at .prepare3)
      (fun r w' => w'.UnderWay ∧ (0 ≤ r.1 → w'.dstListed = true))
      (fun w' => w'.UnderWay) w := by
  obtain ⟨hlisted, hdst, hconn⟩ := hw
  cases uri <;>
  simp [migratePrepare3, migratePrepare3.assign, migratePrepare3.choosePort,
    migratePrepare3.receive, UnderWay, Option.forall, hlisted, hdst, hconn]

/-- The guest has been sent. -/
def Sent (w : Ends) : Prop := w.srcListed = true ∧ w.dst = .running ∧ w.dstListed = true

/-- Perform3 succeeds once it has a connection. -/
theorem wpOn_perform3 {w : Ends} (hw : w.UnderWay) (hlisted : w.dstListed = true) :
    (migratePerform3 strToLong uri flags).wpOn (fun w o => Smooth srcPersistent w (.perform3, o))
      (monitor.at .perform3) (fun ret w' => if ret < 0 then w'.connected = false else w'.Sent)
      (fun w' => w'.connected = false) w := by
  obtain ⟨hsrc, hdst, hconn⟩ := hw
  rw [migratePerform3]
  split_ifs with hflags
  · simp [hconn]
  · simp
    refine (doParseURI_calls strToLong uri).wpOn_bind (ignores_parse (ignores_aside _ _)) ?_
    rintro (_ | ⟨hostname, port⟩) -
    · simp [migratePerform3.cleanup, migratePerform3.finish, hconn]
    · by_cases hport : port ≤ 0 <;>
      simp [migratePerform3.cleanup, migratePerform3.finish, doMigrateSend, Sent, hport, hsrc,
        hdst, hconn, hlisted]

/-- Finish3 after a failure. -/
theorem wp_finish3_cancelled {w : Ends} (hconn : w.connected = false) :
    (migrateFinish3 strToLong uri flags true).wp (monitor.at .finish3)
      (fun _ w' => w'.connected = false) (fun w' => w'.connected = false) w := by
  simp [migrateFinish3, migrateFinish3.lookup, migrateFinish3.cleanup, hconn, Option.forall]

/-- What Finish3 leaves to Confirm3. -/
def Finished (dom : Bool) (w : Ends) : Prop :=
  dom = true ∧ w.srcListed = true ∧ w.dst = .running ∧ w.dstListed = true ∧ w.dstJob = false ∧
    w.handle = true

/-- Finish3 from the lookup of the domain on: the domain is there, and active, since the thread
has started its guest. -/
theorem wpOn_lookup {w : Ends} (hw : w.Sent) : (migrateFinish3.lookup flags false).wpOn
    (fun w o => Smooth srcPersistent w (.finish3, o)) (monitor.at .finish3) Finished
    (fun _ => False) w := by
  obtain ⟨hsrc, hdst, hlisted⟩ := hw
  cases hpaused : flags.paused <;>
  simp [migrateFinish3.lookup, migrateFinish3.handle, migrateFinish3.cleanup,
    migrateFinish3.finish, Finished, Guest.unpause, hpaused, hsrc, hdst, hlisted]

/-- Finish3 after the guest was sent. It unpauses the guest unless it is to stay paused, which
changes nothing: the guest executes already. -/
theorem wpOn_finish3 {w : Ends} (hw : w.Sent) (hflags : flags.unsupported = false) :
    (migrateFinish3 strToLong uri flags false).wpOn
      (fun w o => Smooth srcPersistent w (.finish3, o)) (monitor.at .finish3) Finished
      (fun _ => False) w := by
  rw [migrateFinish3, hflags]
  refine wpOn_act.mpr ⟨trivial, fun _ => ?_⟩
  refine wpOn_release (migrateFinish3.lookup flags false) ?_ (ignores_parse (ignores_aside _ _))
    (fun _ => ⟨trivial, rfl⟩) (wpOn_lookup hw)
  rintro (_ | ⟨hostname, port⟩)
  · exact ⟨0, rfl⟩
  · exact ⟨port, rfl⟩

/-- Confirm3 reaps the source and, where it should, removes it. -/
theorem wpOn_confirm3 {w : Ends} (hsrc : w.srcListed = true) (hflags : flags.unsupported = false) :
    (migrateConfirm3 flags false).wpOn (fun w o => Smooth srcPersistent w (.confirm3, o))
      (monitor.at .confirm3)
      (fun _ w' => w' = { w with
        src := .absent, srcListed := srcPersistent && !flags.undefineSource, srcJob := false })
      (fun _ => False) w := by
  cases hpers : srcPersistent <;> cases hundef : flags.undefineSource <;>
  simp [migrateConfirm3, migrateConfirm3.cleanup, vmCleanup, hflags, hundef, hsrc]

/-- What Finish3 and Confirm3 leave behind is as it should be unless the guest was to stay
paused. -/
theorem well_iff {w : Ends} (hw : w.Finished true) : ({ w with
    src := .absent, srcListed := srcPersistent && !flags.undefineSource,
    srcJob := false } : Ends).Well srcPersistent flags ↔ flags.paused = false := by
  obtain ⟨-, -, hdst, hlisted, hjob, hhandle⟩ := hw
  constructor
  · intro hwell
    have hguest : w.dst = if flags.paused then .paused else .running := hwell.dst
    cases hpaused : flags.paused with
    | false => rfl
    | true => simp [hpaused, hdst] at hguest
  · intro hpaused
    exact ⟨rfl, rfl, by simp [hpaused, hdst], hlisted, hhandle, rfl, hjob⟩

variable (srcPersistent) in
/-- **The coordinator keeps its promise** where nothing fails. -/
theorem wpOn_migrate (m : Migration) {w : Ends} (hw : w.UnderWay) :
    (migrate m).wpOn (Smooth srcPersistent) monitor (fun _ w => w.Promise srcPersistent m.flags)
      (fun w => w.Promise srcPersistent m.flags) w := by
  have hearly : ∀ {w : Ends}, w.connected = false → w.Promise srcPersistent m.flags :=
    fun hconn hcon => by rw [hconn] at hcon; cases hcon
  cases hflags : m.flags.unsupported with
  | true =>
    -- Begin3 gives no description
    refine wpOn_migrate_of (fun _ => False) (fun _ => False) (fun _ => False) (fun _ => False)
      (fun _ _ => False) ?_ (fun _ => False.elim) (fun _ _ => False.elim) (fun _ _ => False.elim)
      (fun _ _ => False.elim) fun _ _ => False.elim
    rw [migrateBegin3, if_pos hflags]
    exact wpOn_act.mpr ⟨trivial, fun _ => hearly hw.2.2⟩
  | false =>
    refine wpOn_migrate_of UnderWay (fun w => w.UnderWay ∧ w.dstListed = true)
      (fun w => w.connected = false) Sent Finished ?_ ?_ ?_ ?_ ?_ ?_
    · refine Prog.wpOn_mono ?_ (fun _ h => hearly h.2.2) (Prog.wpOn_of_wp (wp_begin3 m.xmlin hw))
      intro xml w hw
      cases xml with
      | false => exact hearly hw.2.2
      | true => exact hw
    · intro w hw
      refine Prog.wpOn_mono ?_ (fun _ h => hearly h.2.2)
        (Prog.wpOn_of_wp (wp_prepare3 true m.dname hw))
      intro r w hw
      split_ifs with hret
      · exact hearly hw.1.2.2
      · exact ⟨hw.1, hw.2 (Int.not_lt.mp hret)⟩
    · intro uri w hw
      exact Prog.wpOn_mono (fun _ _ h => h) (fun _ h => hearly h) (wpOn_perform3 hw.1 hw.2)
    · intro uri w hconn
      exact Prog.wpOn_mono (fun _ _ h => hearly h) (fun _ h => hearly h)
        (Prog.wpOn_of_wp (wp_finish3_cancelled hconn))
    · intro uri w hw
      exact Prog.wpOn_mono (fun _ _ h => h) (fun _ h => h.elim) (wpOn_finish3 hw hflags)
    · rintro dom w hw
      obtain rfl : dom = true := hw.1
      refine Prog.wpOn_mono ?_ (fun _ h => h.elim) (wpOn_confirm3 hw.2.1 hflags)
      rintro _ _ rfl _
      exact well_iff hw

end Ends

/-! ### The receiving thread -/

/-- What the receiving thread does to the guest on its host. -/
structure Receiving where
  /-- The thread has accepted a connection. -/
  accepted : Bool
  guest : Guest
  deriving DecidableEq

namespace Receiving

def next (g : Receiving) : (o : Op) → Res o → Receiving
  | .ask (.prim .accept), ok => { g with accepted := ok }
  | .create _, .ok => { g with guest := .paused }
  | .ask (.prim .libxlDomainUnpause), true => { g with guest := g.guest.unpause }
  | .ask (.prim .libxlDomainDestroy), true => { g with guest := .absent }
  | _, _ => g

def monitor : Monitor Res Receiving := ⟨next, fun _ _ => True⟩

@[simp] theorem monitor_next : monitor.next = next := rfl

@[simp] theorem monitor_ok (g : Receiving) (o : Op) : monitor.ok g o := trivial

/-- **The thread leaves an executing guest behind**, whatever the flags of the migration. -/
theorem wpOn_doMigrateReceive (g : Receiving) : doMigrateReceive.wpOn
    (fun _ o r => succeeds o r = true) monitor (fun _ g => g = ⟨true, .running⟩) (fun _ => False)
    g := by
  simp [doMigrateReceive, doMigrateReceive.cleanup, vmStart, vmStartBuild,
    vmStartError.closeManaged, createDomEvents, next, succeeds, Query.succeeds, Guest.unpause]

end Receiving

/-! ### The system -/

/-- A migration in which nothing fails. -/
structure SmoothState where
  coordinator : Prog (fun o : Call × Op => Res o.2) Unit
  receiver : Option (Code Unit)
  /-- The thread has accepted a connection. -/
  accepted : Bool
  /-- Finish3 has started. -/
  finishing : Bool
  ends : Ends

namespace SmoothState

/-- What the thread has done, as its monitor has it. -/
def receiving (s : SmoothState) : Receiving := ⟨s.accepted, s.ends.dst⟩

def step (s : SmoothState) : MigrationAct → Option SmoothState
  | .coordinate ω => (s.coordinator.advance ω).map fun (e, rest) =>
    { s with
      coordinator := rest
      receiver := MigrationState.startReceiver s.receiver e.1 e.2
      finishing := s.finishing || decide (e.1.1 = .finish3)
      ends := s.ends.next e.1 e.2 }
  | .receive ω => (s.receiver.bind fun p => p.advance ω).map fun (e, rest) =>
    { s with
      receiver := some rest
      accepted := (s.receiving.next e.1 e.2).accepted
      ends := { s.ends with dst := (s.receiving.next e.1 e.2).guest } }

/-- The thread is over. -/
def received (s : SmoothState) : Bool :=
  s.receiver.any fun p => p.result.isSome

/-- Nothing fails in the step; a connection is accepted only where one has been made, and
the thread is over before Finish3 starts. -/
def Smooth (srcPersistent : Bool) (s : SmoothState) : MigrationAct → Prop
  | .coordinate ω => ∀ x ∈ s.coordinator.advance ω,
    s.ends.Smooth srcPersistent x.1.1 x.1.2 ∧ (x.1.1.1 = .finish3 → s.received = true)
  | .receive ω => ∀ x ∈ s.receiver.bind fun p => p.advance ω, s.finishing = false ∧
    succeeds x.1.1 x.1.2 = true ∧ (x.1.1 = .ask (.prim .accept) → s.ends.connected = true)

instance (srcPersistent : Bool) (s : SmoothState) : (a : MigrationAct) →
    Decidable (s.Smooth srcPersistent a)
  | .coordinate ω => inferInstanceAs (Decidable (∀ x ∈ s.coordinator.advance ω, _ ∧ _))
  | .receive ω => inferInstanceAs (Decidable (∀ x ∈ s.receiver.bind fun p => p.advance ω, _ ∧ _))

/-- A guest on the source, whose domain is in its list, and no trace of it on the
destination. -/
def start (m : Migration) (src : Guest) : SmoothState :=
  ⟨migrate m, none, false, false, ⟨src, true, false, .absent, false, false, false, false⟩⟩

def Initial (m : Migration) (s : SmoothState) : Prop := ∃ src, s = start m src

/-! ### The end -/

/-- The ends as the coordinator may take them to be: before Finish3, with the guest that the
thread will leave behind. -/
def expected (s : SmoothState) : Ends :=
  if s.finishing then s.ends else { s.ends with dst := .running }

/-- What holds while nothing fails, an invariant of the two programs together. The coordinator
keeps its promise from where it stands, if the thread leaves behind what is expected; the
thread does so as long as Finish3 has not started; and Finish3 starts only behind a thread that
has accepted the connection. -/
structure Inv (srcPersistent : Bool) (flags : MigrateFlags) (s : SmoothState) : Prop where
  coordinator : s.coordinator.wpOn (Ends.Smooth srcPersistent) Ends.monitor
    (fun _ w => w.Promise srcPersistent flags) (fun w => w.Promise srcPersistent flags) s.expected
  receiver : s.finishing = false → ∀ p ∈ s.receiver, p.wpOn (fun _ o r => succeeds o r = true)
    Receiving.monitor (fun _ g => g = ⟨true, .running⟩) (fun _ => False) s.receiving
  accepted : s.accepted = true → s.ends.connected = true
  finishing : s.finishing = true → s.accepted = true

variable {srcPersistent : Bool} {flags : MigrateFlags} {m : Migration} {s s' : SmoothState}

/-- The programs keep what they are to keep from their beginnings, by `wpOn_migrate`. -/
theorem Inv.init (h : Initial m s) : s.Inv srcPersistent m.flags := by
  obtain ⟨src, rfl⟩ := h
  exact ⟨Ends.wpOn_migrate srcPersistent m ⟨rfl, rfl, rfl⟩, fun _ => nofun, nofun, nofun⟩

/-- A call before Finish3 leaves the guest on the destination alone. -/
theorem change_ne_of_ne_finish3 {o : Call × Op} (r : Res o.2) (ho : o.1 ≠ .finish3) :
    change o r ≠ .dstUnpaused ∧ change o r ≠ .dstDestroyed := by
  unfold change
  split <;> first | exact absurd rfl ho | exact ⟨nofun, nofun⟩

/-- So what the calls make of the other ends does not depend on that guest. -/
theorem next_dst (w : Ends) (g : Guest) {o : Call × Op} (r : Res o.2) (ho : o.1 ≠ .finish3) :
    ({ w with dst := g } : Ends).next o r = { w.next o r with dst := g } ∧
      (w.next o r).dst = w.dst := by
  obtain ⟨hunpaused, hdestroyed⟩ := change_ne_of_ne_finish3 r ho
  rw [Ends.next, Ends.next]
  cases hchange : change o r with
  | dstUnpaused => exact absurd hchange hunpaused
  | dstDestroyed => exact absurd hchange hdestroyed
  | _ => exact ⟨rfl, rfl⟩

/-- Nor does it read whether that guest is active. -/
theorem smooth_dst {w : Ends} (g : Guest) {o : Call × Op} {r : Res o.2} (ho : o.1 ≠ .finish3)
    (h : Ends.Smooth srcPersistent w o r) : Ends.Smooth srcPersistent { w with dst := g } o r := by
  obtain ⟨c, o⟩ := o
  cases o with
  | ask q => cases c <;> first | exact absurd rfl ho | exact h
  | _ => exact h

/-- A connection that was made is not lost where nothing fails. -/
theorem connected_next {w : Ends} {o : Call × Op} {r : Res o.2}
    (hsmooth : Ends.Smooth srcPersistent w o r) (hconn : w.connected = true) :
    (w.next o r).connected = true := by
  have hchange : change o r ≠ .connected false := by
    intro hfalse
    unfold change at hfalse
    split at hfalse <;> cases hfalse
    exact Bool.false_ne_true hsmooth
  rw [Ends.next]
  cases hch : change o r with
  | connected ok =>
    rw [hch] at hchange
    cases ok with
    | false => exact absurd rfl hchange
    | true => rfl
  | _ => exact hconn

/-- The thread starts anew, or goes on. -/
theorem startReceiver_mem {receiver : Option (Code Unit)} {o : Call × Op} {r : Res o.2}
    {p : Code Unit} (h : p ∈ MigrationState.startReceiver receiver o r) :
    p = doMigrateReceive ∨ p ∈ receiver := by
  unfold MigrationState.startReceiver at h
  split at h
  · exact Or.inl (Option.some.inj h).symm
  · exact Or.inr h

/-- A thread that is over has accepted a connection and left an executing guest. -/
theorem Inv.over (h : s.Inv srcPersistent flags) (hreceived : s.received = true)
    (hnot : s.finishing = false) : s.receiving = ⟨true, .running⟩ := by
  obtain ⟨p, hp, hover⟩ := (Option.any_eq_true _ _).mp hreceived
  have hwp := h.receiver hnot p hp
  obtain ⟨u, hu⟩ := Option.isSome_iff_exists.mp hover
  rw [Prog.result_eq_some.mp hu] at hwp
  exact hwp

/-- The thread, after an operation of the coordinator. -/
theorem Inv.started (h : s.Inv srcPersistent flags) (hnot : s.finishing = false)
    {o : Call × Op} {r : Res o.2} {p : Code Unit}
    (hp : p ∈ MigrationState.startReceiver s.receiver o r) :
    p.wpOn (fun _ o r => succeeds o r = true) Receiving.monitor (fun _ g => g = ⟨true, .running⟩)
      (fun _ => False) s.receiving := by
  rcases startReceiver_mem hp with rfl | hold
  · exact Receiving.wpOn_doMigrateReceive s.receiving
  · exact h.receiver hnot p hold

/-- **The coordinator goes on.** Before Finish3 its calls do not look at the guest on the
destination, so that they run as if it were the one that the thread will leave; when Finish3
starts, the thread is over and it is. -/
theorem Inv.coordinate {ω : (o : Call × Op) → Res o.2} (h : s.Inv srcPersistent flags)
    (hC : s.Smooth srcPersistent (.coordinate ω)) (hs : s.step (.coordinate ω) = some s') :
    s'.Inv srcPersistent flags := by
  obtain ⟨⟨e, rest⟩, hadv, rfl⟩ := Option.map_eq_some_iff.mp hs
  obtain ⟨hsmooth, hwait⟩ := hC _ hadv
  have haccepted : s.accepted = true → (s.ends.next e.1 e.2).connected = true :=
    fun haccepted => connected_next hsmooth (h.accepted haccepted)
  have hcoord := h.coordinator
  rw [expected] at hcoord
  cases hfinishing : s.finishing with
  | true =>
    rw [hfinishing, if_pos rfl] at hcoord
    obtain ⟨-, hrest⟩ := Prog.wpOn_advance hcoord hadv hsmooth
    refine ⟨?_, ?_, haccepted, fun _ => h.finishing hfinishing⟩
    · simpa [expected, hfinishing] using hrest
    · simp
  | false =>
    rw [hfinishing, if_neg Bool.false_ne_true] at hcoord
    by_cases hfinish : e.1.1 = .finish3
    · -- Finish3 starts, and the thread has left the guest that is expected
      have hover := h.over (hwait hfinish) hfinishing
      have hdst : s.ends.dst = .running := congrArg Receiving.guest hover
      rw [← hdst] at hcoord
      obtain ⟨-, hrest⟩ := Prog.wpOn_advance hcoord hadv hsmooth
      refine ⟨?_, ?_, haccepted, fun _ => congrArg Receiving.accepted hover⟩
      · simpa [expected, hfinish] using hrest
      · simp [hfinish]
    · -- any other call leaves the guest on the destination to the thread
      obtain ⟨-, hrest⟩ := Prog.wpOn_advance hcoord hadv (smooth_dst .running hfinish hsmooth)
      obtain ⟨hnext, hsame⟩ := next_dst s.ends .running e.2 hfinish
      rw [Ends.monitor_next, hnext] at hrest
      refine ⟨?_, fun _ p hp => ?_, haccepted, ?_⟩
      · simpa [expected, hfinishing, hfinish] using hrest
      · have hreceiving := h.started hfinishing hp
        rw [receiving, ← hsame] at hreceiving
        exact hreceiving
      · simp [hfinish]

/-- The thread accepts in one place. -/
theorem accepted_next {g : Receiving} {o : Op} {r : Res o} (h : (g.next o r).accepted = true) :
    g.accepted = true ∨ o = .ask (.prim .accept) := by
  unfold Receiving.next at h
  split at h
  · exact Or.inr rfl
  all_goals exact Or.inl h

/-- **The thread goes on,** which it does only before Finish3. -/
theorem Inv.receive {ω : (o : Op) → Res o} (h : s.Inv srcPersistent flags)
    (hC : s.Smooth srcPersistent (.receive ω)) (hs : s.step (.receive ω) = some s') :
    s'.Inv srcPersistent flags := by
  obtain ⟨⟨e, rest⟩, hbind, rfl⟩ := Option.map_eq_some_iff.mp hs
  obtain ⟨p, hp, hadv⟩ := Option.bind_eq_some_iff.mp hbind
  obtain ⟨hfinishing, hsucceeds, haccept⟩ := hC _ hbind
  obtain ⟨-, hrest⟩ := Prog.wpOn_advance (h.receiver hfinishing p hp) hadv hsucceeds
  refine ⟨?_, fun _ q hq => ?_, fun haccepted => ?_, fun hcon => ?_⟩
  · have hcoord := h.coordinator
    rw [expected, hfinishing] at hcoord
    simpa [expected, hfinishing] using hcoord
  · obtain rfl := Option.some.inj hq
    exact hrest
  · rcases accepted_next haccepted with hold | hnow
    · exact h.accepted hold
    · exact haccept hnow
  · rw [hfinishing] at hcon
    cases hcon

theorem Inv.step {a : MigrationAct} (h : s.Inv srcPersistent flags)
    (hC : s.Smooth srcPersistent a) (hs : s.step a = some s') : s'.Inv srcPersistent flags := by
  cases a with
  | coordinate ω => exact h.coordinate hC hs
  | receive ω => exact h.receive hC hs

/-- **The end of a migration in which nothing fails.** Once the coordinator and the thread are
over, the migration has ended well exactly if the guest was not to stay paused, whatever the
interleaving was. The flag is looked at by Finish3 only, which unpauses no guest that is to
stay paused; but the thread has unpaused it before. -/
theorem ends_well_iff (h : ReachVia SmoothState.step (Initial m) (Smooth srcPersistent) s)
    (hover : s.coordinator.result = some ()) (hreceived : s.received = true) :
    s.ends.Well srcPersistent m.flags ↔ m.flags.paused = false := by
  have hinv : s.Inv srcPersistent m.flags :=
    h.invariant (fun _ => Inv.init) fun _ _ _ hs hC hstep => hs.step hC hstep
  have hcoord := hinv.coordinator
  rw [Prog.result_eq_some.mp hover] at hcoord
  have hpromise : s.expected.Promise srcPersistent m.flags := hcoord
  rw [expected] at hpromise
  cases hfinishing : s.finishing with
  | true =>
    rw [hfinishing, if_pos rfl] at hpromise
    exact hpromise (hinv.accepted (hinv.finishing hfinishing))
  | false =>
    have hreceiving := hinv.over hreceived hfinishing
    have hdst : s.ends.dst = .running := congrArg Receiving.guest hreceiving
    rw [hfinishing, if_neg Bool.false_ne_true, ← hdst] at hpromise
    exact hpromise (hinv.accepted (congrArg Receiving.accepted hreceiving))

/-- The answers where all goes well, to the coordinator. -/
def coordinatorWell (o : Call × Op) : Res o.2 := allWell o.2

/-- The calls as far as Perform3, those of the thread, then `n` more. -/
def smoothRun (n : ℕ) : List MigrationAct :=
  List.replicate 37 (.coordinate coordinatorWell) ++ List.replicate 26 (.receive allWell) ++
    List.replicate n (.coordinate coordinatorWell)

/-- A migration without flags ends well. -/
theorem ends_well_plain : ∃ s, ReachVia SmoothState.step (Initial plainMigration) (Smooth true) s ∧
    s.coordinator.result = some () ∧ s.received = true ∧ s.ends.Well true noFlags := by
  have hrun : (exec (restrict SmoothState.step (Smooth true)) (start plainMigration .running)
      (smoothRun 35)).map (fun s => (s.coordinator.result, s.received)) =
        some (some (), true) := by
    decide
  obtain ⟨s, hs, hend⟩ := Option.map_eq_some_iff.mp hrun
  simp only [Prod.mk.injEq] at hend
  have hreach := (ReachVia.start (I := Initial plainMigration) ⟨.running, rfl⟩).of_exec hs
  exact ⟨s, hreach, hend.1, hend.2, (ends_well_iff hreach hend.1 hend.2).mpr rfl⟩

/-- The migration of a guest that is to stay paused. -/
def pausedMigration : Migration := { plainMigration with flags := ⟨false, false, true, false⟩ }

/-- **A guest that was to stay paused executes** at the end of a migration in which all goes
well. -/
theorem paused_guest_executes : ∃ s,
    ReachVia SmoothState.step (Initial pausedMigration) (Smooth true) s ∧
      s.coordinator.result = some () ∧ s.received = true ∧ s.ends.dst = .running ∧
        ¬s.ends.Well true pausedMigration.flags := by
  have hrun : (exec (restrict SmoothState.step (Smooth true)) (start pausedMigration .running)
      (smoothRun 32)).map (fun s => (s.coordinator.result, s.received, s.ends.dst)) =
        some (some (), true, .running) := by
    decide
  obtain ⟨s, hs, hend⟩ := Option.map_eq_some_iff.mp hrun
  simp only [Prod.mk.injEq] at hend
  have hreach := (ReachVia.start (I := Initial pausedMigration) ⟨.running, rfl⟩).of_exec hs
  refine ⟨s, hreach, hend.1, hend.2.1, hend.2.2, fun hwell => ?_⟩
  have hguest : s.ends.dst = .paused := hwell.dst
  rw [hend.2.2] at hguest
  cases hguest

end SmoothState

end Libxl

end OpenLog
