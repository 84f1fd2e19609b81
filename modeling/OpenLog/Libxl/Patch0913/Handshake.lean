import OpenLog.Libxl.Migrate
import OpenLog.Logic.Run

/-!
# The exchange of banners in the patch of September 2012

The later patch has the two sides of a migration talk: the thread that receives the guest writes a
banner when it is ready for the guest's data and another one when it has started the guest, and
the sender reads the first before it suspends the guest and the second before it is done. Each
side learns of a failure of the other only through the socket.

## The system

A state of the system is what is left of both programs and what is under way between them, byte by
byte: a banner is read in pieces, a piece may be answered with `EAGAIN`, which makes the sender
forget what it has read of the banner, and the connection may end or fail anywhere.

## What goes wrong

The sender goes wrong where it cannot read the second banner: it resumes the guest, as it should,
but returns the `0` of `libxl_domain_suspend`. That is all that goes wrong
(`OpenLog.Libxl.Patch0913.HandshakeState.agreement`). The invariant counts bytes: what the sender
has read it cannot have read before the receiver has written it, and of the second banner nothing
is written before the guest is started.
-/

namespace OpenLog

namespace Libxl

namespace Patch0913

open Logic

/-! ### Operations -/

/-- The operations of the two sides: those on a host and those on the socket. -/
inductive WireOp where
  | host (o : Op)
  /-- `libxlVmStart` on the descriptor that the guest's data comes from. -/
  | vmStart
  | safewrite (bytes : List Char)
  /-- `libxlCheckMessageBanner`. -/
  | checkMessageBanner (banner : List Char)

/-- Their answers: whether a call succeeds, and how many bytes are written. -/
def WireRes : WireOp → Type
  | .host o => Res o
  | .vmStart => Bool
  | .safewrite _ => ℕ
  | .checkMessageBanner _ => Bool

/-- Programs of the two sides. -/
abbrev WireCode (α : Type) : Type := Prog WireRes α

/-- A program that leaves the socket alone. -/
def lift {α : Type} (p : Code α) : WireCode α :=
  @Prog.embed Op α WireOp WireRes WireOp.host p

instance : MonadLift (Prog Res) (Prog WireRes) := ⟨lift⟩

@[simp] theorem liftM_eq {α : Type} (p : Code α) : (liftM p : WireCode α) = lift p := rfl

def vmStart : WireCode Bool := .call .vmStart .ret

def safewrite (bytes : List Char) : WireCode ℕ := .call (.safewrite bytes) .ret

def checkMessageBanner (banner : List Char) : WireCode Bool :=
  .call (.checkMessageBanner banner) .ret

section Rules

variable {α β : Type} {σ : Type*} {A : σ → (o : WireOp) → WireRes o → Prop}
variable {M : Monitor WireRes σ} {s : σ} {Q : α → σ → Prop} {E : σ → Prop}

@[simp] theorem lift_ret (a : α) : lift (.ret a) = .ret a := rfl

@[simp] theorem lift_fault : lift (.fault : Code α) = .fault := rfl

@[simp] theorem lift_bind (p : Code α) (f : α → Code β) :
    lift (p >>= f) = lift p >>= fun a => lift (f a) :=
  @Prog.embed_bind Op α β WireOp WireRes WireOp.host p f

@[simp] theorem lift_ite (c : Prop) [Decidable c] (p q : Code α) :
    lift (if c then p else q) = if c then lift p else lift q := by
  split <;> rfl

/-- A question of the driver, within a program that also reads and writes. -/
@[simp] theorem wpOn_liftAsk {q : Query} {f : Bool → WireCode α} :
    (lift (ask q) >>= f).wpOn A M Q E s ↔ M.ok s (.host (.ask q)) ∧
      ∀ b : Bool, A s (.host (.ask q)) b →
        (f b).wpOn A M Q E (M.next s (.host (.ask q)) b) := Iff.rfl

/-- An action of the driver, within such a program. -/
@[simp] theorem wpOn_liftAct {a : Action} {f : Unit → WireCode α} :
    (lift (act a) >>= f).wpOn A M Q E s ↔ M.ok s (.host (.act a)) ∧
      (A s (.host (.act a)) () → (f ()).wpOn A M Q E (M.next s (.host (.act a)) ())) :=
  ⟨fun h => ⟨h.1, h.2 ()⟩, fun h => ⟨h.1, fun _ => h.2⟩⟩

/-- The start of the guest is one operation here, which succeeds or fails. -/
@[simp] theorem wpOn_vmStart {f : Bool → WireCode α} :
    (vmStart >>= f).wpOn A M Q E s ↔ M.ok s .vmStart ∧
      ∀ b : Bool, A s .vmStart b → (f b).wpOn A M Q E (M.next s .vmStart b) := Iff.rfl

/-- A write goes on with the number of bytes that were taken. -/
@[simp] theorem wpOn_safewrite {bytes : List Char} {f : ℕ → WireCode α} :
    (safewrite bytes >>= f).wpOn A M Q E s ↔ M.ok s (.safewrite bytes) ∧
      ∀ n : ℕ, A s (.safewrite bytes) n → (f n).wpOn A M Q E (M.next s (.safewrite bytes) n) :=
  Iff.rfl

/-- The check of a banner goes on with whether it was the right one. -/
@[simp] theorem wpOn_checkMessageBanner {banner : List Char} {f : Bool → WireCode α} :
    (checkMessageBanner banner >>= f).wpOn A M Q E s ↔ M.ok s (.checkMessageBanner banner) ∧
      ∀ b : Bool, A s (.checkMessageBanner banner) b →
        (f b).wpOn A M Q E (M.next s (.checkMessageBanner banner) b) := Iff.rfl

/-- A part on the host that a monitor does not look at. -/
theorem wpOn_liftSkip {S : Op → Prop} {p : Code β} {f : β → WireCode α} (hp : p.Calls S)
    (hS : (M.comap WireOp.host).Ignores S s)
    (hf : ∀ b, p.CanReturn b → (f b).wpOn A M Q E s) : (lift p >>= f).wpOn A M Q E s := by
  refine Prog.wpOn_bind.mpr (Prog.wpOn_embed.mpr ?_)
  rw [← Prog.bind_ret p]
  exact hp.wpOn_bind hS hf

end Rules

/-! ### The two sides -/

/-- `migrate_receiver_banner`, with the zero that ends it. -/
def migrateReceiverBanner : List Char :=
  "xl migration receiver ready, send binary domain data\x00".toList

/-- `migrate_receiver_ready`, with the zero that ends it. -/
def migrateReceiverReady : List Char := "domain received, ready to unpause\x00".toList

/-- `doMigrateReceive` of the patch. -/
def doMigrateReceive : WireCode Unit := do
  if !(← prim .accept) then
    report .operationFailed "Could not accept migration connection"
    cleanup true .invalid
  else if (← safewrite migrateReceiverBanner) ≠ migrateReceiverBanner.length then
    report .operationFailed "Failed to write migrate_receiver_banner"
    cleanup true .opened
  else
    act .objUnlock
    act .driverUnlock
    let started ← vmStart
    act .driverLock
    act .objLock
    if !started then
      report .internalError "Failed to restore domain with libxenlight"
      if !(← ask .isPersistent) then
        act .removeInactive
        cleanup false .opened
      else cleanup true .opened
    else
      if (← safewrite migrateReceiverReady) ≠ migrateReceiverReady.length then
        report .operationFailed "Failed to write migrate_receiver_ready"
      cleanup true .opened
where
  cleanup (vm : Bool) (recvFd : Fd) : WireCode Unit := do
    closeFd recvFd "cannot close recv_fd"
    closeFd .opened "cannot close sockfd"
    unlockIf vm
    act .driverUnlock
    return ()

/-- `doMigrateSend` of the patch. -/
def doMigrateSend (flags : MigrateFlags) : WireCode Int := do
  if !(← checkMessageBanner migrateReceiverBanner) then cleanup none (-1)
  else
    act .objUnlock
    act .driverUnlock
    let suspended ← prim (.libxlDomainSuspend flags.live)
    act .driverLock
    act .objLock
    if !suspended then
      report .internalError "Failed to save domain '%d' with libxenlight"
      cleanup none (-1)
    else if !(← checkMessageBanner migrateReceiverReady) then
      -- `ret` is still the `0` of `libxl_domain_suspend`
      if ← prim .libxlDomainResume then cleanup none 0
      else
        act (.setState .pausedMigration)
        let event ← eventNew .suspendedMigrated
        let _ ← prim .virDomainSaveStatus
        cleanup event 0
    else cleanup none 0
where
  cleanup (event : Option DomEvent) (ret : Int) : WireCode Int := do
    queueIf event
    return ret

/-- `libxlDomainMigratePerform3` of the patch, whose end is as before. -/
def migratePerform3 (strToLong : List Char → Option ℤ) (uri : Option Uri) (flags : MigrateFlags) :
    WireCode Int := do
  if flags.unsupported then
    report .invalidArg "unsupported flags (0x%lx)"
    return -1
  else
    act .driverLock
    let vm ← ask .findByUUID
    if !vm then
      report .operationInvalid "no domain with matching uuid '%s'"
      Libxl.migratePerform3.cleanup vm (-1) false
    else
      match ← doParseURI strToLong uri with
      | none => Libxl.migratePerform3.cleanup true (-1) false
      | some (_, port) =>
        if port ≤ 0 then Libxl.migratePerform3.cleanup true (-1) false
        else if !(← prim .virAsprintf) then
          report .noMemory ""
          Libxl.migratePerform3.cleanup true (-1) false
        else if !(← prim .virNetSocketNewConnectTCP) then
          report .operationFailed "Failed to create socket"
          Libxl.migratePerform3.cleanup true (-1) true
        else
          let ret ← doMigrateSend flags
          Libxl.migratePerform3.cleanup true ret true

/-! ### What each side keeps track of -/

/-- How far the sender has got. -/
structure SendStage where
  /-- The bytes of the banners that it has read and found right. -/
  checked : ℕ
  /-- The guest has been suspended. -/
  suspended : Bool
  /-- The guest has been resumed. -/
  resumed : Bool
  deriving DecidableEq

namespace SendStage

def start : SendStage := ⟨0, false, false⟩

/-- What an operation of the sender changes. -/
def next (g : SendStage) : (o : WireOp) → WireRes o → SendStage
  | .checkMessageBanner banner, true => { g with checked := g.checked + banner.length }
  | .host (.ask (.prim (.libxlDomainSuspend _))), true => { g with suspended := true }
  | .host (.ask (.prim .libxlDomainResume)), true => { g with resumed := true }
  | _, _ => g

/-- The sender as a monitor without requirements. -/
def monitor : Monitor WireRes SendStage := ⟨next, fun _ _ => True⟩

@[simp] theorem monitor_next : monitor.next = next := rfl

@[simp] theorem monitor_ok (g : SendStage) (o : WireOp) : monitor.ok g o := trivial

/-- Once the guest is suspended, a banner is read and found right. -/
def Answered (g : SendStage) : (o : WireOp) → WireRes o → Prop
  | .checkMessageBanner _, right => g.suspended = true → right = true
  | _, _ => True

/-- The sender is done: it has read both banners, and the guest is still suspended. -/
def Done (g : SendStage) : Prop := migrateReceiverBanner.length < g.checked ∧ g.resumed = false

/-- What the sender promises with its result. -/
def Promise (ret : Int) (g : SendStage) : Prop := ret = 0 → g.Done

attribute [local simp] next start Answered

/-- The second banner is not empty: a sender that has read both of them has read more than the
first one holds. -/
theorem ready_length_pos : 0 < migrateReceiverReady.length := by
  decide

/-- **The sender keeps its promise** where the banner that it checks once the guest is
suspended is found right: a result of `0` says that both banners were read and that the guest
is still suspended. -/
theorem wpOn_doMigrateSend {flags : MigrateFlags} :
    (doMigrateSend flags).wpOn Answered monitor Promise (fun _ => True) start := by
  simp [doMigrateSend, doMigrateSend.cleanup, prim, report, queueIf, eventNew, Promise, Done,
    ready_length_pos]

/-- The end of Perform3 returns what it is given. -/
theorem wpOn_cleanup {vm sockAssigned : Bool} {ret : Int} {g : SendStage} (h : Promise ret g) :
    (lift (Libxl.migratePerform3.cleanup vm ret sockAssigned)).wpOn Answered monitor Promise
      (fun _ => True) g := by
  cases vm <;>
  simp [Libxl.migratePerform3.cleanup, Libxl.migratePerform3.finish, migrationJobFinish, deref,
    unlockIf, h]

@[simp] theorem ignores_parse (g : SendStage) :
    (monitor.comap WireOp.host).Ignores Op.Parse g := by
  refine ignores_parse_iff.mpr ⟨⟨trivial, ?_⟩, fun code text => ⟨trivial, ?_⟩⟩
  · intro r
    rfl
  · intro r
    rfl

/-- Perform3 keeps it as well: it returns what the sender has returned, or fails before it
sends. -/
theorem wpOn_migratePerform3 {strToLong : List Char → Option ℤ} {uri : Option Uri}
    {flags : MigrateFlags} : (migratePerform3 strToLong uri flags).wpOn Answered monitor Promise
      (fun _ => True) start := by
  have hfailed : Promise (-1) start := nofun
  rw [migratePerform3]
  split_ifs with hflags
  · simp [report, Promise]
  · simp [report]
    refine ⟨wpOn_cleanup hfailed, ?_⟩
    refine wpOn_liftSkip (doParseURI_calls strToLong uri) (ignores_parse _) ?_
    rintro (_ | ⟨hostname, port⟩) -
    · exact wpOn_cleanup hfailed
    · by_cases hport : port ≤ 0
      · simpa [hport] using wpOn_cleanup hfailed
      · simp [prim, hport]
        refine ⟨wpOn_cleanup hfailed, wpOn_cleanup hfailed, Prog.wpOn_bind.mpr ?_⟩
        exact Prog.wpOn_mono (fun ret g h => wpOn_cleanup h) (fun _ => id) wpOn_doMigrateSend

end SendStage

/-- How far the receiver has got. -/
structure ReceiveStage where
  /-- The bytes that it has written. -/
  written : ℕ
  /-- `libxlVmStart` has succeeded. -/
  started : Bool
  deriving DecidableEq

namespace ReceiveStage

def start : ReceiveStage := ⟨0, false⟩

/-- What an operation of the receiver changes. -/
def next (g : ReceiveStage) : (o : WireOp) → WireRes o → ReceiveStage
  | .safewrite bytes, n => { g with written := g.written + (bytes.take n).length }
  | .vmStart, true => { g with started := true }
  | _, _ => g

/-- Before the guest is started nothing is written past the first banner. -/
def Observes (g : ReceiveStage) : WireOp → Prop
  | .safewrite bytes =>
    g.started = true ∨ g.written + bytes.length ≤ migrateReceiverBanner.length
  | _ => True

def monitor : Monitor WireRes ReceiveStage := ⟨next, Observes⟩

@[simp] theorem monitor_next : monitor.next = next := rfl

@[simp] theorem monitor_ok : monitor.ok = Observes := rfl

attribute [local simp] next start Observes

/-- **The receiver observes the order**, whatever it is answered: until the guest is started it
writes nothing past the first banner. -/
theorem wpOn_doMigrateReceive : doMigrateReceive.wpOn (fun _ _ _ => True) monitor
    (fun _ _ => True) (fun _ => True) start := by
  simp [doMigrateReceive, doMigrateReceive.cleanup, closeFd, unlockIf, prim, report]

end ReceiveStage

/-! ### The system -/

/-- Both sides, and what is under way from the receiver to the sender. -/
structure HandshakeState where
  sender : WireCode Int
  receiver : WireCode Unit
  /-- The bytes that the sender has not read yet. -/
  wire : List Char
  /-- What the sender has read of the banner that it is checking. -/
  buf : List Char
  /-- The receiver has closed the connection. -/
  closed : Bool
  sendStage : SendStage
  receiveStage : ReceiveStage

/-- A step of one of the sides. A banner is checked `read` by `read`. -/
inductive HandshakeAct where
  | send (ω : (o : WireOp) → WireRes o)
  | read (n : ℕ)
  /-- The `read` is answered with `EAGAIN`. -/
  | again
  | eof
  | readError
  | receive (ω : (o : WireOp) → WireRes o)

/-- What the sender may run. -/
inductive Sending where
  | send (flags : MigrateFlags)
  | perform3 (strToLong : List Char → Option ℤ) (uri : Option Uri) (flags : MigrateFlags)

def Sending.code : Sending → WireCode Int
  | send flags => doMigrateSend flags
  | perform3 strToLong uri flags => migratePerform3 strToLong uri flags

/-- The banner that a program is about to check, and what follows. -/
def checking {α : Type} : WireCode α → Option (List Char × (Bool → WireCode α))
  | .call (.checkMessageBanner banner) k => some (banner, k)
  | _ => none

/-- The bytes that an operation puts on the wire. -/
def put : (o : WireOp) → WireRes o → List Char
  | .safewrite bytes, n => bytes.take n
  | _, _ => []

def WireOp.isCheck : WireOp → Bool
  | .checkMessageBanner _ => true
  | _ => false

def WireOp.isClose : WireOp → Bool
  | .host (.ask (.close _)) => true
  | _ => false

namespace HandshakeState

/-- Both sides are about to start. -/
def start (c : Sending) : HandshakeState :=
  ⟨c.code, doMigrateReceive, [], [], false, SendStage.start, ReceiveStage.start⟩

def Initial (c : Sending) (s : HandshakeState) : Prop := s = start c

/-- The sender goes on with the outcome of a check. -/
def answer (s : HandshakeState) (banner : List Char) (k : Bool → WireCode Int) (right : Bool) :
    HandshakeState :=
  { s with
    sender := k right
    buf := []
    sendStage := s.sendStage.next (.checkMessageBanner banner) right }

/-- `n` bytes go from the wire into the buffer. -/
def take (s : HandshakeState) (n : ℕ) : HandshakeState :=
  { s with wire := s.wire.drop n, buf := s.buf ++ s.wire.take n }

def step (s : HandshakeState) : HandshakeAct → Option HandshakeState
  | .send ω => (s.sender.advance ω).bind fun (e, rest) =>
    if e.1.isCheck then none
    else some { s with sender := rest, sendStage := s.sendStage.next e.1 e.2 }
  | .read n => (checking s.sender).bind fun (banner, k) =>
    if 0 < n ∧ n ≤ s.wire.length ∧ s.buf.length + n ≤ banner.length then
      if (s.take n).buf.length = banner.length then
        some ((s.take n).answer banner k (decide ((s.take n).buf = banner)))
      else some (s.take n)
    else none
  -- `saferead` gives up what it has read so far, and is called once more
  | .again => (checking s.sender).map fun _ => { s with buf := [] }
  | .eof => (checking s.sender).bind fun (banner, k) =>
    if s.wire = [] ∧ s.closed = true then some (s.answer banner k false) else none
  | .readError => (checking s.sender).map fun (banner, k) => s.answer banner k false
  | .receive ω => (s.receiver.advance ω).map fun (e, rest) =>
    { s with
      receiver := rest
      wire := s.wire ++ put e.1 e.2
      closed := s.closed || e.1.isClose
      receiveStage := s.receiveStage.next e.1 e.2 }

/-- The step does not have the sender fail to check a banner once the guest is
suspended. -/
def Checked (s : HandshakeState) : HandshakeAct → Prop
  | .send _ | .again | .receive _ => True
  | .read n => s.sendStage.suspended = true → ∀ x ∈ checking s.sender,
    (s.take n).buf.length = x.1.length → (s.take n).buf = x.1
  | .eof | .readError => s.sendStage.suspended = false

instance (s : HandshakeState) : (a : HandshakeAct) → Decidable (Checked s a)
  | .send _ | .again | .receive _ => .isTrue trivial
  | .read _ => inferInstanceAs (Decidable (_ → ∀ x ∈ checking s.sender, _ → _))
  | .eof | .readError => inferInstanceAs (Decidable (_ = _))

/-! ### Agreement -/

/-- What holds where no check has failed after the suspension. The first two parts say what the
rest of each program still has to do, the third counts bytes: all that the sender has checked,
holds in its buffer or has yet to read was written by the receiver. -/
structure Inv (s : HandshakeState) : Prop where
  sender : s.sender.wpOn SendStage.Answered SendStage.monitor SendStage.Promise (fun _ => True)
    s.sendStage
  receiver : s.receiver.wpOn (fun _ _ _ => True) ReceiveStage.monitor (fun _ _ => True)
    (fun _ => True) s.receiveStage
  /-- What has been read and what is on the wire has been written. -/
  bytes : s.sendStage.checked + s.buf.length + s.wire.length ≤ s.receiveStage.written
  /-- The second banner is not written before the guest is started. -/
  banner : s.receiveStage.started = false →
    s.receiveStage.written ≤ migrateReceiverBanner.length

/-- The invariant holds of two sides that are about to start, which have written and read
nothing. -/
theorem Inv.init (c : Sending) : (start c).Inv := by
  refine ⟨?_, ReceiveStage.wpOn_doMigrateReceive, Nat.le_refl 0, fun _ => Nat.zero_le _⟩
  cases c with
  | send flags => exact SendStage.wpOn_doMigrateSend
  | perform3 strToLong uri flags => exact SendStage.wpOn_migratePerform3

/-- A program whose next operation is the check of a banner is that call. -/
theorem checking_eq_some {α : Type} {p : WireCode α} {banner : List Char}
    {k : Bool → WireCode α} (h : checking p = some (banner, k)) :
    p = .call (.checkMessageBanner banner) k := by
  unfold checking at h
  split at h
  · cases h
    rfl
  · cases h

/-- An operation other than a check. -/
theorem answered_of_not_check {g : SendStage} {o : WireOp} {r : WireRes o}
    (ho : o.isCheck = false) : g.Answered o r ∧ (g.next o r).checked = g.checked := by
  cases o with
  | checkMessageBanner banner => cases ho
  | vmStart => exact ⟨trivial, rfl⟩
  | safewrite bytes => exact ⟨trivial, rfl⟩
  | host o =>
    refine ⟨trivial, ?_⟩
    unfold SendStage.next
    split <;> first | rfl | contradiction

/-- **A check is answered.** If the banner was found right its bytes move from the buffer to
those that are checked; if not, the buffer is given up, and fewer bytes are accounted for. -/
theorem Inv.answer {s : HandshakeState} (h : s.Inv) {banner : List Char}
    {k : Bool → WireCode Int} {right : Bool} (hk : checking s.sender = some (banner, k))
    (hanswered : s.sendStage.Answered (.checkMessageBanner banner) right)
    (hright : right = true → s.buf.length = banner.length) : (s.answer banner k right).Inv := by
  have hsender := h.sender
  rw [checking_eq_some hk] at hsender
  refine ⟨hsender.2 right hanswered, h.receiver, ?_, h.banner⟩
  have hbytes := h.bytes
  cases right with
  | false =>
    show s.sendStage.checked + 0 + s.wire.length ≤ s.receiveStage.written
    omega
  | true =>
    have hlen := hright rfl
    show s.sendStage.checked + banner.length + 0 + s.wire.length ≤ s.receiveStage.written
    omega

/-- Bytes that are read move from the wire into the buffer. -/
theorem Inv.take {s : HandshakeState} (h : s.Inv) {n : ℕ} (hn : n ≤ s.wire.length) :
    (s.take n).Inv := by
  refine ⟨h.sender, h.receiver, ?_, h.banner⟩
  have hbytes := h.bytes
  show s.sendStage.checked + (s.buf ++ s.wire.take n).length + (s.wire.drop n).length ≤
    s.receiveStage.written
  rw [List.length_append, List.length_take, List.length_drop]
  omega

/-- The count of what was written grows by the bytes that the operation puts on the wire. -/
theorem written_next (g : ReceiveStage) (o : WireOp) (r : WireRes o) :
    (g.next o r).written = g.written + (put o r).length := by
  cases o with
  | safewrite bytes => rfl
  | checkMessageBanner banner => rfl
  | host o => rfl
  | vmStart => cases r <;> rfl

/-- The receiver keeps to the first banner until it has started the guest. -/
theorem banner_next {g : ReceiveStage} {o : WireOp} {r : WireRes o} (hobs : g.Observes o)
    (hg : g.started = false → g.written ≤ migrateReceiverBanner.length)
    (hnot : (g.next o r).started = false) :
    (g.next o r).written ≤ migrateReceiverBanner.length := by
  cases o with
  | safewrite bytes =>
    have hwritten : g.written + bytes.length ≤ migrateReceiverBanner.length :=
      hobs.resolve_left (Bool.eq_false_iff.mp hnot)
    exact Nat.le_trans (Nat.add_le_add_left (List.length_take_le' _ _) _) hwritten
  | vmStart =>
    cases r with
    | false => exact hg hnot
    | true => cases hnot
  | checkMessageBanner banner => exact hg hnot
  | host o => exact hg hnot

/-- A step of the receiver keeps the invariant: what it writes is on the wire, and it observes
the order. -/
theorem Inv.receive {s s' : HandshakeState} {ω : (o : WireOp) → WireRes o} (h : s.Inv)
    (hs : s.step (.receive ω) = some s') : s'.Inv := by
  obtain ⟨⟨e, rest⟩, hadv, rfl⟩ := Option.map_eq_some_iff.mp hs
  obtain ⟨hobs, hrest⟩ := Prog.wpOn_advance h.receiver hadv trivial
  refine ⟨h.sender, hrest, ?_, banner_next hobs h.banner⟩
  have hbytes := h.bytes
  show s.sendStage.checked + s.buf.length + (s.wire ++ put e.1 e.2).length ≤
    (s.receiveStage.next e.1 e.2).written
  rw [written_next, List.length_append]
  omega

/-- So does a step of the sender that is not part of a check. -/
theorem Inv.send {s s' : HandshakeState} {ω : (o : WireOp) → WireRes o} (h : s.Inv)
    (hs : s.step (.send ω) = some s') : s'.Inv := by
  obtain ⟨⟨e, rest⟩, hadv, hstep⟩ := Option.bind_eq_some_iff.mp hs
  dsimp only at hstep
  split_ifs at hstep with hcheck
  obtain rfl := Option.some.inj hstep
  obtain ⟨hanswered, hchecked⟩ :=
    answered_of_not_check (g := s.sendStage) (r := e.2) (Bool.eq_false_iff.mpr hcheck)
  refine ⟨(Prog.wpOn_advance h.sender hadv hanswered).2, h.receiver, ?_, h.banner⟩
  have hbytes := h.bytes
  show (s.sendStage.next e.1 e.2).checked + s.buf.length + s.wire.length ≤
    s.receiveStage.written
  rw [hchecked]
  exact hbytes

/-- So does a `read` within a check, whether it completes the banner or not. -/
theorem Inv.read {s s' : HandshakeState} {n : ℕ} (h : s.Inv) (hC : Checked s (.read n))
    (hs : s.step (.read n) = some s') : s'.Inv := by
  obtain ⟨⟨banner, k⟩, hk, hstep⟩ := Option.bind_eq_some_iff.mp hs
  dsimp only at hstep
  split_ifs at hstep with hn hlen
  · obtain rfl := Option.some.inj hstep
    refine (h.take hn.2.1).answer hk (fun hsuspended => ?_) fun _ => hlen
    exact decide_eq_true (hC hsuspended _ hk hlen)
  · obtain rfl := Option.some.inj hstep
    exact h.take hn.2.1

/-- A failed check leaves nothing to be said about the buffer. -/
theorem Inv.failed {s : HandshakeState} (h : s.Inv) {banner : List Char}
    {k : Bool → WireCode Int} (hk : checking s.sender = some (banner, k))
    (hnot : s.sendStage.suspended = false) : (s.answer banner k false).Inv :=
  h.answer hk (fun hsuspended => by rw [hnot] at hsuspended; cases hsuspended) nofun

/-- **One step of either side keeps the invariant**, as long as no check fails once the guest
is suspended. A check that fails before does no harm: the sender returns `-1` then. -/
theorem Inv.step {s s' : HandshakeState} {a : HandshakeAct} (h : s.Inv) (hC : Checked s a)
    (hs : s.step a = some s') : s'.Inv := by
  cases a with
  | send ω => exact h.send hs
  | read n => exact h.read hC hs
  | again =>
    obtain ⟨_, -, rfl⟩ := Option.map_eq_some_iff.mp hs
    refine ⟨h.sender, h.receiver, ?_, h.banner⟩
    have hbytes := h.bytes
    show s.sendStage.checked + 0 + s.wire.length ≤ s.receiveStage.written
    omega
  | eof =>
    obtain ⟨⟨banner, k⟩, hk, hstep⟩ := Option.bind_eq_some_iff.mp hs
    dsimp only at hstep
    split_ifs at hstep
    obtain rfl := Option.some.inj hstep
    exact h.failed hk hC
  | readError =>
    obtain ⟨⟨banner, k⟩, hk, rfl⟩ := Option.map_eq_some_iff.mp hs
    exact h.failed hk hC
  | receive ω => exact h.receive hs

/-- **Agreement.** In a run in which no check of a banner fails once the guest is suspended, a
sender that returns `0` has had the guest started on the other side, and has not resumed it: it
has read more bytes than the first banner has, and these are not written before the guest is
started. -/
theorem agreement {c : Sending} {s : HandshakeState}
    (h : ReachVia step (Initial c) Checked s) (hret : s.sender.result = some 0) :
    s.receiveStage.started = true ∧ s.sendStage.resumed = false := by
  have hinv : s.Inv := by
    refine h.invariant ?_ fun _ _ _ hs hC hstep => hs.step hC hstep
    rintro _ rfl
    exact Inv.init c
  have hdone := hinv.sender
  rw [Prog.result_eq_some.mp hret] at hdone
  obtain ⟨hchecked, hresumed⟩ : s.sendStage.Done := hdone rfl
  refine ⟨?_, hresumed⟩
  by_contra hnot
  have hwritten := hinv.banner (Bool.eq_false_iff.mpr hnot)
  have hbytes := hinv.bytes
  omega

/-- The answers of the sender and the receiver where all goes well. -/
def wireWell : (o : WireOp) → WireRes o
  | .host o => allWell o
  | .vmStart => true
  | .safewrite bytes => bytes.length
  | .checkMessageBanner _ => true

/-- The receiver gets as far as its first banner, the sender takes it in and suspends the
guest. -/
def handshakeBegun : List HandshakeAct :=
  List.replicate 2 (.receive wireWell) ++ [.read migrateReceiverBanner.length] ++
    List.replicate 5 (.send wireWell)

/-- The guest is started and the sender is told. -/
def handshakeDone : List HandshakeAct := List.flatten
  [ handshakeBegun, List.replicate 6 (.receive wireWell), [.read migrateReceiverReady.length] ]

/-- A handshake without a failure. -/
theorem agreement_allWell : ∃ s,
    ReachVia step (Initial (.send noFlags)) Checked s ∧ s.sender.result = some 0 ∧
      s.receiveStage.started = true ∧ s.sendStage.resumed = false := by
  have hrun : (exec (restrict step Checked) (start (.send noFlags)) handshakeDone).map
      (fun s => s.sender.result) = some (some 0) := by
    decide
  obtain ⟨s, hs, hret⟩ := Option.map_eq_some_iff.mp hrun
  have hreach := (ReachVia.start (I := Initial (.send noFlags)) rfl).of_exec hs
  exact ⟨s, hreach, hret, agreement hreach hret⟩

/-- The answers where the guest cannot be started. -/
def guestNotStarted : (o : WireOp) → WireRes o
  | .vmStart => false
  | o => wireWell o

/-- The receiver gives up, and the sender goes on at the end of its stream. -/
def handshakeLost : List HandshakeAct := List.flatten
  [ handshakeBegun, List.replicate 8 (.receive guestNotStarted), [.eof, .send wireWell] ]

/-- **A failed transfer is a success to the sender**: the guest is not started on the
other side and resumed on this one, and `doMigrateSend` returns `0`. -/
theorem sender_returns_zero : ∃ s, Reach step (Initial (.send noFlags)) s ∧
    s.sender.result = some 0 ∧ s.receiveStage.started = false ∧ s.sendStage.resumed = true := by
  have hrun : (exec step (start (.send noFlags)) handshakeLost).map
      (fun s => (s.sender.result, s.receiveStage.started, s.sendStage.resumed)) =
        some (some 0, false, true) := by
    decide
  obtain ⟨s, hs, hend⟩ := Option.map_eq_some_iff.mp hrun
  simp only [Prod.mk.injEq] at hend
  exact ⟨s, (Reach.start (I := Initial (.send noFlags)) rfl).of_exec hs, hend⟩

end HandshakeState

end Patch0913

end Libxl

end OpenLog
