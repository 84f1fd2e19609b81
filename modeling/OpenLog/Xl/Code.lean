import OpenLog.Logic.Assume
import OpenLog.Xl.SaveFile

/-!
# The two sides of a migration with xl

`migrate_domain` on the host that the guest leaves and `migrate_receive` on the one that it goes
to, with the functions that they share or call, as programs over the operations of
`OpenLog.Xl.XlOp`. A call of `exit` inside a function is an `error` of its result, and what a
side returns is its exit status.

The texts that are printed are left out, and so is `migration_child_report`, which waits two
seconds at most and looks at nothing but the status of the child.
-/

namespace OpenLog

namespace Xl

open Format Logic

/-! ### Operations -/

/-- Calls on the own host that return a code. -/
inductive HostCall where
  /-- `save_domain_core_begin`. -/
  | saveDomainCoreBegin
  | pipe
  | asprintf
  | parseConfigData
  | strdup
  | acquireLock
  | freemem
  | setVcpuaffinity
  | userdataStore
  | releaseLock
  /-- `fork` and the wait for the child that becomes the daemon. -/
  | daemonize
  deriving DecidableEq, Repr

/-- The operations of both sides. -/
inductive XlOp where
  | host (c : HostCall)
  | writeExactly (data : List UInt8)
  | readExactly (n : ℕ)
  /-- `close(send_fd)`. -/
  | closeSend
  | suspend
  | restore
  | rename
  | unpause
  | resume
  | destroy
  deriving DecidableEq, Repr

/-- How `libxl_write_exactly` comes back: if it fails, `count` bytes have been written. -/
structure WriteEnd where
  rc : ℤ
  count : ℕ

/-- How `libxl_domain_suspend` comes back: if it fails, the guest may be suspended or not. -/
structure SuspendEnd where
  rc : ℤ
  suspended : Bool

/-- How `libxl_domain_create_restore` comes back: if it fails, there may be a domain or not, and
`count` items have been taken from the stream. -/
structure RestoreEnd where
  rc : ℤ
  domidSet : Bool
  count : ℕ

/-- The answers. That of `libxl_domain_resume` says whether the guest is running again, which its
code does not tell. -/
def XlRes : XlOp → Type
  | .host _ => ℤ
  | .writeExactly _ => WriteEnd
  | .readExactly _ => ReadEnd
  | .closeSend => Unit
  | .suspend => SuspendEnd
  | .restore => RestoreEnd
  | .rename => ℤ
  | .unpause => ℤ
  | .resume => Bool
  | .destroy => Bool

/-- Programs of xl. -/
abbrev XlCode (α : Type) : Type := Prog XlRes α

def host (c : HostCall) : XlCode ℤ := .call (.host c) .ret

def writeExactly (data : List UInt8) : XlCode WriteEnd := .call (.writeExactly data) .ret

def readExactly (n : ℕ) : XlCode ReadEnd := .call (.readExactly n) .ret

def closeSend : XlCode Unit := .call .closeSend .ret

def suspend : XlCode SuspendEnd := .call .suspend .ret

def restore : XlCode RestoreEnd := .call .restore .ret

def rename : XlCode ℤ := .call .rename .ret

def unpause : XlCode ℤ := .call .unpause .ret

def resume : XlCode Bool := .call .resume .ret

def destroy : XlCode Bool := .call .destroy .ret

/-! ### Messages and codes -/

/-- `migrate_receiver_banner`, which is sent without the zero that ends it. -/
def migrateReceiverBanner : List UInt8 :=
  bytes "xl migration receiver ready, send binary domain data.\n"

/-- `migrate_receiver_ready`, with the zero that ends it. -/
def migrateReceiverReady : List UInt8 := bytes "domain received, ready to unpause\x00"

/-- `migrate_permission_to_go`, with the zero that ends it. -/
def migratePermissionToGo : List UInt8 := bytes "domain is yours, you are cleared to unpause\x00"

/-- `migrate_report`, with the zero that ends it. -/
def migrateReport : List UInt8 := bytes "my copy unpause results are as follows\x00"

/-- `ERROR_FAIL`. -/
def errorFail : ℤ := -3

/-- `ERROR_INVAL`. -/
def errorInval : ℤ := -6

/-- `ERROR_BADFAIL`. -/
def errorBadfail : ℤ := -7

/-- `ERROR_GUEST_TIMEDOUT`. -/
def errorGuestTimedout : ℤ := -8

/-! ### The sending side -/

/-- `migrate_read_fixedmessage`. -/
def migrateReadFixedmessage (msg : List UInt8) : XlCode ℤ := do
  let r ← readExactly msg.length
  if r.rc ≠ 0 then return errorFail
  else if r.buf ≠ msg then return errorFail
  else return 0

/-- `save_domain_core_writeconfig`. `CHK_ERRNO` exits if the code is negative. -/
def saveDomainCoreWriteconfig (e : Endian) (config : List UInt8) : XlCode (Except ℤ Unit) := do
  let w ← writeExactly ((header e config).toBytes e)
  if w.rc < 0 then return .error (-errorFail)
  else
    let w ← writeExactly (optdata e config).data
    if w.rc < 0 then return .error (-errorFail)
    else return .ok ()

/-- `migrate_do_preamble`. -/
def migrateDoPreamble (e : Endian) (config : List UInt8) : XlCode (Except ℤ Unit) := do
  let rc ← migrateReadFixedmessage migrateReceiverBanner
  if rc ≠ 0 then
    closeSend
    return .error (-rc)
  else saveDomainCoreWriteconfig e config

/-- `migrate_domain`; `named` says whether the domain has a name, and `config` is the
configuration that is stored for it. -/
def migrateDomain (e : Endian) (named : Bool) (config : List UInt8) : XlCode ℤ := do
  if (← host .saveDomainCoreBegin) ≠ 0 then return 2
  else if config.length = 0 then return 1
  else
    -- `create_migration_child`
    let rc ← host .pipe
    if rc < 0 then return -rc
    else
      let rc ← host .pipe
      if rc < 0 then return -rc
      else
        match ← migrateDoPreamble e config with
        | .error status => return status
        | .ok () => send
where
  send : XlCode ℤ := do
    let s ← suspend
    if s.rc ≠ 0 then
      if s.rc = errorGuestTimedout then failedSuspend else failedResume
    else if (← migrateReadFixedmessage migrateReceiverReady) ≠ 0 then failedResume
    else if !named then giveGo
    else if (← host .asprintf) < 0 then failedResume
    else if (← rename) ≠ 0 then failedResume
    else giveGo
  /-- From the point of no return on. -/
  giveGo : XlCode ℤ := do
    let w ← writeExactly migratePermissionToGo
    if w.rc ≠ 0 then failedBadly
    else if (← migrateReadFixedmessage migrateReport) ≠ 0 then failedBadly
    else
      let r ← readExactly 1
      if r.rc ≠ 0 then failedBadly
      else if r.buf ≠ [0] then
        if (← migrateReadFixedmessage migratePermissionToGo) ≠ 0 then failedBadly
        else
          -- the codes of both calls are not looked at
          if named then let _ ← rename
          let _ ← resume
          return -errorFail
      else
        let _ ← destroy
        return 0
  failedSuspend : XlCode ℤ := do
    closeSend
    return -errorFail
  failedResume : XlCode ℤ := do
    closeSend
    let _ ← resume
    return -errorFail
  failedBadly : XlCode ℤ := do
    closeSend
    return -errorBadfail

/-! ### The receiving side -/

/-- `create_domain` for a domain that comes from the other side: what it returns, and whether
the name under which the domain is created could be copied. Left out are the monitoring of the
domain by the child that becomes the daemon (`monitor`), the option `-F`, with which the caller
monitors the domain itself and does not come back, and a failing `fork` or `xmalloc`, with which
the process exits. -/
def createDomain (e : Endian) (daemonize : Bool) : XlCode (Except ℤ (ℤ × Bool)) := do
  let r ← readExactly SaveFileHeader.size
  if r.rc < 0 then return .error (-errorFail)
  else
    let hdr := SaveFileHeader.ofBytes e r.buf
    if checkHeader hdr ≠ none then return .ok (errorInval, false)
    else if hdr.optionalDataLen = 0 then load []
    else
      let r ← readExactly hdr.optionalDataLen.toNat
      if r.rc < 0 then return .error (-errorFail)
      else load r.buf
where
  load (data : List UInt8) : XlCode (Except ℤ (ℤ × Bool)) :=
    match savedConfig e data with
    | .error .noMemory => return .error (-errorFail)
    | .error _ => return .ok (errorInval, false)
    | .ok none => return .ok (errorInval, false)
    | .ok (some _) => do
      if (← host .parseConfigData) ≠ 0 then return .error 1
      else if (← host .asprintf) < 0 then return .error 1
      else
        let copied := (← host .strdup) = 0
        -- `ret` is `0` from here on
        if (← host .acquireLock) < 0 then errorOut 0 copied false
        else if (← host .freemem) < 0 then errorOut errorFail copied false
        else
          let r ← restore
          if r.rc ≠ 0 then errorOut r.rc copied r.domidSet
          else if (← host .setVcpuaffinity) ≠ 0 then errorOut errorFail copied true
          else if (← host .userdataStore) ≠ 0 then errorOut errorFail copied true
          else
            let _ ← host .releaseLock
            if !daemonize then return .ok (0, copied)
            else if (← host .daemonize) ≠ 0 then return .ok (errorFail, copied)
            -- the id of the domain, which is not negative
            else return .ok (0, copied)
  errorOut (ret : ℤ) (copied valid : Bool) : XlCode (Except ℤ (ℤ × Bool)) := do
    let _ ← host .releaseLock
    if valid then let _ ← destroy
    return .ok (ret, copied)

/-- `migrate_receive`. -/
def migrateReceive (e : Endian) (daemonize remus : Bool) : XlCode ℤ := do
  let w ← writeExactly migrateReceiverBanner
  if w.rc < 0 then return -errorFail
  else
    match ← createDomain e daemonize with
    | .error status => return status
    | .ok (rc, copied) =>
      if rc < 0 then return -rc
      else if remus then failover copied
      else start copied
where
  failover (copied : Bool) : XlCode ℤ := do
    if copied then let _ ← rename
    if (← unpause) ≠ 0 then return -errorFail
    else return 0
  start (copied : Bool) : XlCode ℤ := do
    let w ← writeExactly migrateReceiverReady
    if w.rc ≠ 0 then return -w.rc
    else
      let rc ← migrateReadFixedmessage migratePermissionToGo
      if rc ≠ 0 then perhapsDestroyNotifyRc rc
      else if !copied then perhapsDestroyNotifyRc (← unpause)
      else
        let rc ← rename
        if rc ≠ 0 then perhapsDestroyNotifyRc rc
        else perhapsDestroyNotifyRc (← unpause)
  perhapsDestroyNotifyRc (rc : ℤ) : XlCode ℤ := do
    let w ← writeExactly migrateReport
    if w.rc ≠ 0 then return -errorBadfail
    else
      let rcBuf := UInt8.ofInt (-rc)
      -- `assert(!!rc_buf == !!rc)`
      if rcBuf = 0 ∧ rc ≠ 0 then .fault
      else
        let w ← writeExactly [rcBuf]
        if w.rc ≠ 0 then return -errorBadfail
        else if rc = 0 then return 0
        else if !(← destroy) then return -errorBadfail
        else
          let w ← writeExactly migratePermissionToGo
          if w.rc ≠ 0 then return -errorBadfail
          else return 0

/-! ### Rules -/

section Rules

variable {α : Type} {σ : Type*} {A : σ → (o : XlOp) → XlRes o → Prop} {M : Monitor XlRes σ}
variable {s : σ} {Q : α → σ → Prop} {E : σ → Prop}

/-- Each operation is one call: what it asks of the monitor is asked here, and the rest of the
program goes on with every answer that is assumed. -/
@[simp] theorem wpOn_host {c : HostCall} {f : ℤ → XlCode α} :
    (host c >>= f).wpOn A M Q E s ↔ M.ok s (.host c) ∧
      ∀ rc : ℤ, A s (.host c) rc → (f rc).wpOn A M Q E (M.next s (.host c) rc) := Iff.rfl

@[simp] theorem wpOn_writeExactly {data : List UInt8} {f : WriteEnd → XlCode α} :
    (writeExactly data >>= f).wpOn A M Q E s ↔ M.ok s (.writeExactly data) ∧
      ∀ w : WriteEnd, A s (.writeExactly data) w →
        (f w).wpOn A M Q E (M.next s (.writeExactly data) w) := Iff.rfl

@[simp] theorem wpOn_readExactly {n : ℕ} {f : ReadEnd → XlCode α} :
    (readExactly n >>= f).wpOn A M Q E s ↔ M.ok s (.readExactly n) ∧
      ∀ r : ReadEnd, A s (.readExactly n) r →
        (f r).wpOn A M Q E (M.next s (.readExactly n) r) := Iff.rfl

@[simp] theorem wpOn_closeSend {f : Unit → XlCode α} :
    (closeSend >>= f).wpOn A M Q E s ↔ M.ok s .closeSend ∧
      (A s .closeSend () → (f ()).wpOn A M Q E (M.next s .closeSend ())) :=
  ⟨fun h => ⟨h.1, h.2 ()⟩, fun h => ⟨h.1, fun _ => h.2⟩⟩

@[simp] theorem wpOn_suspend {f : SuspendEnd → XlCode α} :
    (suspend >>= f).wpOn A M Q E s ↔ M.ok s .suspend ∧
      ∀ r : SuspendEnd, A s .suspend r → (f r).wpOn A M Q E (M.next s .suspend r) := Iff.rfl

@[simp] theorem wpOn_restore {f : RestoreEnd → XlCode α} :
    (restore >>= f).wpOn A M Q E s ↔ M.ok s .restore ∧
      ∀ r : RestoreEnd, A s .restore r → (f r).wpOn A M Q E (M.next s .restore r) := Iff.rfl

@[simp] theorem wpOn_rename {f : ℤ → XlCode α} :
    (rename >>= f).wpOn A M Q E s ↔ M.ok s .rename ∧
      ∀ rc : ℤ, A s .rename rc → (f rc).wpOn A M Q E (M.next s .rename rc) := Iff.rfl

@[simp] theorem wpOn_unpause {f : ℤ → XlCode α} :
    (unpause >>= f).wpOn A M Q E s ↔ M.ok s .unpause ∧
      ∀ rc : ℤ, A s .unpause rc → (f rc).wpOn A M Q E (M.next s .unpause rc) := Iff.rfl

@[simp] theorem wpOn_resume {f : Bool → XlCode α} :
    (resume >>= f).wpOn A M Q E s ↔ M.ok s .resume ∧
      ∀ b : Bool, A s .resume b → (f b).wpOn A M Q E (M.next s .resume b) := Iff.rfl

@[simp] theorem wpOn_destroy {f : Bool → XlCode α} :
    (destroy >>= f).wpOn A M Q E s ↔ M.ok s .destroy ∧
      ∀ b : Bool, A s .destroy b → (f b).wpOn A M Q E (M.next s .destroy b) := Iff.rfl

/-- A call on the own host that is looked at and does not show otherwise. -/
theorem wpOn_check {c : HostCall} {bad : ℤ → Prop} [DecidablePred bad] {p q : ℤ → XlCode α}
    (hok : M.ok s (.host c)) (hnext : ∀ rc : ℤ, M.next s (.host c) rc = s)
    (hbad : ∀ rc, bad rc → (p rc).wpOn A M Q E s) (hgood : ∀ rc, (q rc).wpOn A M Q E s) :
    (host c >>= fun rc => if bad rc then p rc else q rc).wpOn A M Q E s := by
  refine wpOn_host.mpr ⟨hok, fun rc _ => ?_⟩
  rw [hnext rc]
  split_ifs with hrc
  · exact hbad rc hrc
  · exact hgood rc

end Rules

end Xl

end OpenLog
