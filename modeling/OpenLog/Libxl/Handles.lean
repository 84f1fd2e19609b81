import OpenLog.Libxl.Migrate

/-!
# Pointers, descriptors and sockets

What a call has in its variables: the pointer to the domain, which is `NULL` until a lookup
finds one and is no good any more after the domain has been removed or its last reference
dropped, a file descriptor and a socket, which C does not initialise. Using one of them
that is no good is a misuse (`OpenLog.Libxl.Handles.misused`).

The calls looked at here misuse them on their error paths, and SaveFlags and CoreDump also when
all goes well: the former for a transient domain, the latter for one that is to be
crashed. `OpenLog.Libxl.HandleCall.Careful` names the runs that do not
(`OpenLog.Libxl.handles_valid_iff`).
-/

namespace OpenLog

namespace Libxl

open Logic

/-! ### Uses of the domain -/

/-- The messages with the id of the domain, which is read through the pointer. -/
def textsWithId : List String :=
  ["Domain '%d' has to be running because libxenlight will suspend it",
    "Failed to save domain '%d' with libxenlight", "Failed to destroy domain '%d'",
    "Unable to cleanup domain %d"]

/-- The functions that are passed nothing of the domain. -/
def Prim.outside : Prim → Bool
  | .virDomainDefParseString | .virAsprintf | .strdup | .virAlloc | .virThreadCreate
  | .virFileOpenAs | .safewriteHeader | .safewriteXml | .virNetSocketNewConnectTCP | .socket | .bind
  | .listen | .accept | .libxlSaveImageOpen => true
  | _ => false

/-- The operation goes through the pointer to the domain. -/
def Op.usesVm : Op → Bool
  | .ask (.prim p) => !p.outside
  | .ask .findByUUID | .ask .findByName | .ask .isDuplicate | .ask .assignDef
  | .ask .managedSaveExists | .ask (.close _) | .ask (.getBit _) => false
  | .ask _ => true
  | .act .driverLock | .act .driverUnlock | .act (.eventQueue _) | .act .unlinkManagedSave
  | .act (.setBit _) | .act (.clearBit _) | .act (.netSocketFree _) => false
  | .act (.report _ text) => textsWithId.contains text
  | .act _ => true
  | .begin _ => true
  | .create _ => true
  | .getHostname => false
  | .probePort _ => false

/-- The operation closes or frees a variable that was never assigned. -/
def Op.usesUnassigned : Op → Bool
  | .ask (.close .unassigned) | .act (.netSocketFree false) => true
  | _ => false

/-! ### The variables of a call -/

/-- A pointer to a domain. -/
inductive VmPtr where
  | null
  | valid
  /-- The domain has been removed, or its last reference dropped. -/
  | givenUp
  deriving DecidableEq, Repr

/-- The variables of a call, with the answers that decide how it gets on. -/
structure Handles where
  vm : VmPtr
  /-- Something was used that was no good. -/
  misused : Bool
  /-- The domain was looked up and found. -/
  found : Bool
  /-- The job was not started. -/
  noJob : Bool
  /-- The guest was paused. -/
  paused : Bool
  /-- The last answer to the question whether the domain is persistent was no. -/
  transient : Bool
  /-- The end of the job has taken the last reference to the domain. -/
  lastRef : Bool
  outOfMemory : Bool
  deriving DecidableEq

namespace Handles

/-- Nothing looked up, nothing assigned. -/
def start : Handles := ⟨.null, false, false, false, false, false, false, false⟩

/-- Whether an operation is a misuse. -/
def misuses (h : Handles) (o : Op) : Bool := o.usesVm && h.vm ≠ .valid || o.usesUnassigned

/-- A lookup. -/
def lookedUp (h : Handles) (found : Bool) : Handles :=
  if found then { h with vm := .valid, found := true } else h

/-- The end of a job, with references left or not. -/
def endedJob (h : Handles) (more : Bool) : Handles :=
  if more then h else { h with vm := .givenUp, lastRef := true }

/-- What an operation leaves in the variables. -/
def assign (h : Handles) : (o : Op) → Res o → Handles
  | .ask .findByUUID, found => h.lookedUp found
  | .ask .findByName, found => h.lookedUp found
  | .ask .assignDef, found => h.lookedUp found
  | .ask .endJob, more => h.endedJob more
  | .ask .endAsyncJob, more => h.endedJob more
  | .act .removeInactive, _ => { h with vm := .givenUp }
  | .begin _, .refused | .begin _, .clockFailed => { h with noJob := true }
  | .ask .isPaused, paused => { h with paused := paused }
  | .ask .isPersistent, persistent => { h with transient := !persistent }
  | .act (.report .noMemory _), _ => { h with outOfMemory := true }
  | _, _ => h

def next (h : Handles) (o : Op) (r : Res o) : Handles :=
  { h.assign o r with misused := h.misused || h.misuses o }

/-- The variables as a monitor without requirements. -/
def monitor : Monitor Res Handles := ⟨next, fun _ _ => True⟩

@[simp] theorem monitor_next : monitor.next = next := rfl

@[simp] theorem monitor_ok (h : Handles) (o : Op) : monitor.ok h o := trivial

/-- A call that is over has misused nothing. A crash is the use of a pointer that is
`NULL`. -/
def Valid (h : Handles) (returned : Bool) : Prop := h.misused = false ∧ returned = true

instance (h : Handles) (returned : Bool) : Decidable (h.Valid returned) :=
  inferInstanceAs (Decidable (_ ∧ _))

section

variable {α : Type} {Q : α → Handles → Prop} {E : Handles → Prop} {h : Handles}

attribute [local simp] next assign misuses lookedUp endedJob Op.usesVm Op.usesUnassigned
  Prim.outside textsWithId

/-- Cleaning up after a domain asks whether it is persistent. -/
@[simp] theorem wp_vmCleanup {reason : DomState} {f : Unit → Code α} (hvm : h.vm = .valid) :
    (vmCleanup reason >>= f).wp monitor Q E h ↔
      ∀ persistent : Bool, (f ()).wp monitor Q E { h with transient := !persistent } := by
  simp [vmCleanup, hvm]

variable {strToLong : List Char → Option ℤ} {uri : Option Uri}

/-- Parsing a URI fails for want of memory, or gives what is read off it. -/
theorem wp_doParseURI : (doParseURI strToLong uri).wp monitor
    (fun res h' => ∃ oom, h' = { h with outOfMemory := h.outOfMemory || oom } ∧
      res = if oom then none else parseUri strToLong uri) E h := by
  unfold doParseURI parseUri
  split
  · exact ⟨false, by simp⟩
  · split
    · simp
    · split
      · rename_i hport
        simp [hport]
      · rename_i hport
        simpa [hport] using fun hnil => Or.inl hnil

/-- What comes after parsing a URI. -/
theorem wp_doParseURI_bind {f : Option (List Char × ℤ) → Code α}
    (hf : ∀ oom : Bool, (f (if oom then none else parseUri strToLong uri)).wp monitor Q E
      { h with outOfMemory := h.outOfMemory || oom }) :
    (doParseURI strToLong uri >>= f).wp monitor Q E h := by
  refine Prog.wp_bind.mpr (Prog.wp_mono ?_ (fun _ => id) wp_doParseURI)
  rintro res h' ⟨oom, rfl, rfl⟩
  exact hf oom

end

end Handles

/-! ### The calls -/

/-- The calls whose variables are looked at, with their arguments. -/
inductive HandleCall where
  | saveFlags (flagsOk dxml : Bool)
  | coreDump (flags : DumpFlags)
  | perform3 (uri : Option Uri) (flags : MigrateFlags)
  | finish3 (uri : Option Uri) (flags : MigrateFlags) (cancelled : Bool)

namespace HandleCall

variable (strToLong : List Char → Option ℤ)

/-- The program of a call, whose result does not matter. -/
def code : HandleCall → Code Unit
  | saveFlags flagsOk dxml => do
    let _ ← domainSaveFlags flagsOk dxml
    return ()
  | coreDump flags => do
    let _ ← domainCoreDump flags
    return ()
  | perform3 uri flags => do
    let _ ← migratePerform3 strToLong uri flags
    return ()
  | finish3 uri flags cancelled => do
    let _ ← migrateFinish3 strToLong uri flags cancelled
    return ()

/-- What keeps a run of the call from a misuse. SaveFlags needs its job, a guest that is not
paused, and a persistent domain that stays referenced; CoreDump may not find the domain
transient, which it only asks after it has reaped it; Perform3 has to get as far as its
socket; Finish3 has to find its domain. -/
def Careful (h : Handles) : HandleCall → Prop
  | saveFlags _ _ =>
    h.noJob = false ∧ h.paused = false ∧ h.transient = false ∧ h.lastRef = false
  | coreDump _ => h.transient = false
  | perform3 uri flags => flags.unsupported = true ∨
    h.found = true ∧ h.outOfMemory = false ∧ ∃ parsed ∈ parseUri strToLong uri, 0 < parsed.2
  | finish3 _ flags _ => flags.unsupported = true ∨ h.found = true

end HandleCall

namespace Handles

open HandleCall

attribute [local simp] next assign misuses lookedUp endedJob Op.usesVm Op.usesUnassigned
  Prim.outside textsWithId start Careful Valid

/-- The code misuses nothing exactly if `careful`. -/
def ValidIff {α : Type} (careful : Handles → Prop) (code : Code α) : Prop :=
  code.wp monitor (fun _ h => h.Valid true ↔ careful h) (fun h => h.Valid false ↔ careful h) start

variable {strToLong : List Char → Option ℤ}

/-- SaveFlags goes on to `vm` after it has given it up: where no job was begun, where the guest
is paused, and at the end where a transient domain was removed or the last reference is gone.
-/
theorem validIff_saveFlags (flagsOk dxml : Bool) :
    ValidIff (fun h => (saveFlags flagsOk dxml).Careful strToLong h)
      (domainSaveFlags flagsOk dxml) := by
  simp [ValidIff, domainSaveFlags, doDomainSave]

/-- CoreDump removes a transient domain once it has reaped it, and goes on to use it. -/
theorem validIff_coreDump (flags : DumpFlags) :
    ValidIff (fun h => (coreDump flags).Careful strToLong h) (domainCoreDump flags) := by
  simp [ValidIff, domainCoreDump, domainCoreDump.dump]

/-- Perform3 frees its socket on the way out, also where it was never assigned. How far it gets
depends on what is read off the uri. -/
theorem validIff_perform3 (uri : Option Uri) (flags : MigrateFlags) :
    ValidIff (fun h => (perform3 uri flags).Careful strToLong h)
      (migratePerform3 strToLong uri flags) := by
  cases hflags : flags.unsupported with
  | true => simp [ValidIff, migratePerform3, hflags]
  | false =>
    simp [ValidIff, migratePerform3, hflags]
    refine wp_doParseURI_bind fun oom => ?_
    cases oom with
    | true => simp
    | false =>
      rcases hparse : parseUri strToLong uri with - | ⟨hostname, port⟩
      · simp
      · by_cases hport : port ≤ 0
        · simp [hport]
        · have hpos : ∃ a b, (hostname = a ∧ port = b) ∧ 0 < b :=
            ⟨hostname, port, ⟨rfl, rfl⟩, Int.not_le.mp hport⟩
          simpa [hport] using hpos

/-- Finish3 after it has parsed the URI. -/
theorem wp_lookup (flags : MigrateFlags) (cancelled oom : Bool) :
    (migrateFinish3.lookup flags cancelled).wp monitor (fun _ h => h.Valid true ↔ h.found = true)
      (fun h => h.Valid false ↔ h.found = true) { start with outOfMemory := oom } := by
  cases cancelled <;> cases hpaused : flags.paused <;>
  simp [migrateFinish3.lookup, migrateFinish3.cleanup, hpaused]

/-- To release a port touches none of the variables. -/
theorem wp_release {α : Type} {port : ℤ} {f : Unit → Code α} {Q : α → Handles → Prop}
    {E : Handles → Prop} {h : Handles} :
    (migrateFinish3.release port >>= f).wp monitor Q E h ↔ (f ()).wp monitor Q E h := by
  rw [wp_finish3_release]
  split_ifs <;> simp

/-- Finish3 goes through `vm` also where the lookup has found nothing. -/
theorem validIff_finish3 (uri : Option Uri) (flags : MigrateFlags) (cancelled : Bool) :
    ValidIff (fun h => (finish3 uri flags cancelled).Careful strToLong h)
      (migrateFinish3 strToLong uri flags cancelled) := by
  cases hflags : flags.unsupported with
  | true => simp [ValidIff, migrateFinish3, hflags]
  | false =>
    have hlocked : monitor.next start (.act .driverLock) () = start := rfl
    simp only [ValidIff, migrateFinish3, hflags, Careful, Bool.false_eq_true, if_false, false_or]
    refine wp_act.mpr ⟨trivial, wp_doParseURI_bind fun oom => ?_⟩
    rw [hlocked]
    cases (if oom then none else parseUri strToLong uri) with
    | none => exact wp_release.mpr (wp_lookup flags cancelled oom)
    | some parsed => exact wp_release.mpr (wp_lookup flags cancelled oom)

variable (strToLong) in
/-- **The variables of a call.** -/
theorem validIff_code (c : HandleCall) :
    ValidIff (fun h => c.Careful strToLong h) (c.code strToLong) := by
  cases c with
  | saveFlags flagsOk dxml => exact Prog.wp_bind.mpr (validIff_saveFlags flagsOk dxml)
  | coreDump flags => exact Prog.wp_bind.mpr (validIff_coreDump flags)
  | perform3 uri flags => exact Prog.wp_bind.mpr (validIff_perform3 uri flags)
  | finish3 uri flags cancelled => exact Prog.wp_bind.mpr (validIff_finish3 uri flags cancelled)

end Handles

/-! ### Runs -/

/-- The variables of a call, after a run. -/
def handlesAfter (tr : List (Event Res)) : Handles := Handles.monitor.run Handles.start tr

/-- **Which calls misuse nothing.** However its operations are answered, a call uses no pointer
that is `NULL` or given up, and closes or frees nothing that was not assigned, exactly if it is
careful. The conditions are those of `OpenLog.Libxl.HandleCall.Careful`, one for each call; a
run that crashes has used a pointer that is `NULL`, and counts as misused. -/
theorem handles_valid_iff {strToLong : List Char → Option ℤ} {c : HandleCall}
    {tr : List (Event Res)} {out : Option Unit} (h : (c.code strToLong).Runs tr out) :
    (handlesAfter tr).Valid out.isSome ↔ c.Careful strToLong (handlesAfter tr) := by
  obtain ⟨hret, hcrash⟩ := Prog.wp_sound (Handles.validIff_code strToLong c) h
  cases out with
  | none => exact hcrash rfl
  | some u => exact hret u rfl

/-- The answers of a domain that runs and is persistent. -/
def runningGuest : (o : Op) → Res o
  | .ask .isPaused => false
  | o => allWell o

/-- A persistent domain is saved without a misuse. -/
theorem handles_valid_save :
    (handlesAfter (((HandleCall.saveFlags true false).code readDecimal).eval runningGuest).1).Valid
      true :=
  (handles_valid_iff (Prog.runs_eval runningGuest _)).mpr
    ⟨by decide, by decide, by decide, by decide⟩

/-- The answers of a domain that runs and is transient. -/
def runningTransient : (o : Op) → Res o
  | .ask .isPersistent => false
  | o => runningGuest o

/-- **SaveFlags unlocks a domain that is gone**, although all goes well: it is transient,
and `libxlDoDomainSave` has removed it. -/
theorem save_misuses_domain : ∃ tr,
    ((HandleCall.saveFlags true false).code readDecimal).Runs tr (some ()) ∧
      (handlesAfter tr).misused = true ∧ ¬(handlesAfter tr).Valid true :=
  ⟨_, Prog.runs_eval runningTransient _, by decide, by decide⟩

end Libxl

end OpenLog
