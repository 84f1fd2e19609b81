import OpenLog.Libxl.Job

/-!
# One call that starts a job

`libxlDomainObjBeginJobInternal` as the thread that calls it goes through it, with the two
mutexes that it holds, drops and takes again. While it has dropped that of the domain, in a wait
or on its way back to the driver's, the other threads may do to the domain what they like
(`OpenLog.Libxl.BeginJob.Meanwhile`).

A call that comes back with `-1` should have left nothing of its own behind: what it finds when
it returns is what it found when it was called, changed by the others alone. That is so unless
the clock cannot be read (`OpenLog.Libxl.BeginJob.refused_traceless_iff`), since `jobs_queued` is
raised before.
-/

namespace OpenLog

namespace Libxl

namespace BeginJob

/-! ### What the thread sees -/

/-- The domain as the job functions see it, and the mutexes that the thread holds. -/
structure View (Tid : Type*) where
  job : JobObj Tid
  jobsQueued : ℤ
  refs : ℤ
  domainHeld : Bool
  driverHeld : Bool

/-- What the other threads do to the domain while it is not locked by this one: how far they
raise the counter and the references, and what they make of the job object. -/
structure Meanwhile (Tid : Type*) where
  jobsQueued : ℤ
  refs : ℤ
  job : JobObj Tid → JobObj Tid

/-- A wait on a condition variable that is over. -/
structure Wait (Tid : Type*) where
  meanwhile : Meanwhile Tid
  /-- `virCondWaitUntil` returns a negative value. -/
  failed : Bool
  /-- `errno` after it. -/
  errno : Errno

/-- What a call meets. -/
structure Schedule (Tid : Type*) where
  /-- What `virTimeMillisNow` gives, if it succeeds. -/
  clock : Option ℕ
  /-- What an earlier call has left in `errno`. -/
  errno : Errno
  waits : List (Wait Tid)
  /-- While the driver's mutex is taken again. -/
  relocking : Meanwhile Tid

variable {Tid : Type*}

namespace View

/-- The thread holds the mutex of the domain, and that of the driver if it says so. -/
def enter (driverLocked : Bool) (job : JobObj Tid) (jobsQueued refs : ℤ) : View Tid :=
  ⟨job, jobsQueued, refs, true, driverLocked⟩

/-- The others have acted. -/
def after (v : View Tid) (m : Meanwhile Tid) : View Tid :=
  { v with
    job := m.job v.job
    jobsQueued := v.jobsQueued + m.jobsQueued
    refs := v.refs + m.refs }

/-- The others have acted again and again, and this thread has done nothing. -/
def afterAll (v : View Tid) (ms : List (Meanwhile Tid)) : View Tid := ms.foldl after v

/-- `virDomainObjUnlock`, `none` if the mutex is not held. -/
def unlockDomain (v : View Tid) : Option (View Tid) :=
  if v.domainHeld then some { v with domainHeld := false } else none

/-- `virDomainObjLock`, `none` if the thread already holds the mutex. -/
def lockDomain (v : View Tid) : Option (View Tid) :=
  if v.domainHeld then none else some { v with domainHeld := true }

/-- `libxlDriverUnlock`. -/
def unlockDriver (v : View Tid) : Option (View Tid) :=
  if v.driverHeld then some { v with driverHeld := false } else none

/-- `libxlDriverLock`. -/
def lockDriver (v : View Tid) : Option (View Tid) :=
  if v.driverHeld then none else some { v with driverHeld := true }

/-- `virCondWaitUntil`, which drops the mutex of the domain and takes it again. -/
def condWait (v : View Tid) (m : Meanwhile Tid) : Option (View Tid) := do
  let v ← v.unlockDomain
  (v.after m).lockDomain

/-- The three calls that take the driver's mutex again, which comes before the domain's. -/
def relock (v : View Tid) (m : Meanwhile Tid) : Option (View Tid) := do
  let v ← v.unlockDomain
  let v ← (v.after m).lockDriver
  v.lockDomain

end View

/-! ### The function -/

/-- How far a call has come. -/
inductive Result (Tid : Type*) where
  /-- It sleeps. -/
  | asleep
  /-- It has returned `ret`, and reported `error`; `meanwhile` is what the others have done
  since it was made. -/
  | returned (ret : ℤ) (error : Option BeginError) (meanwhile : List (Meanwhile Tid))
    (view : View Tid)

section Call

variable (maxQueued : ℤ) (t : Tid) (call : BeginCall) (now : ℕ) (relocking : Meanwhile Tid)

/-- The label `error`. -/
def refuse (errno : Errno) (ms : List (Meanwhile Tid)) (v : View Tid) : Option (Result Tid) :=
  let error := beginError errno maxQueued v.jobsQueued
  let v := { v with jobsQueued := v.jobsQueued - 1 }
  if call.driverLocked then do
    let v ← v.relock relocking
    return .returned (-1) (some error) (ms ++ [relocking]) { v with refs := v.refs - 1 }
  else return .returned (-1) (some error) ms { v with refs := v.refs - 1 }

/-- The job is taken. -/
def take (ms : List (Meanwhile Tid)) (v : View Tid) : Option (Result Tid) :=
  let v := { v with job := takeJob v.job t call now }
  if call.driverLocked then do
    let v ← v.relock relocking
    return .returned 0 none (ms ++ [relocking]) v
  else return .returned 0 none ms v

/-- The section that starts at a wake-up. -/
def resume (v : View Tid) : CondVar → Outcome
  | .asyncCond => asyncLoop maxQueued v.jobsQueued v.job call.job
  | .cond => condLoop maxQueued v.jobsQueued v.job call.job

/-- From the end of a section on. -/
def goOn : List (Wait Tid) → Errno → Outcome → List (Meanwhile Tid) → View Tid →
    Option (Result Tid)
  | _, errno, .error, ms, v => refuse maxQueued call relocking errno ms v
  | _, _, .start, ms, v => take t call now relocking ms v
  | [], _, .wait _, _, _ => some .asleep
  | w :: ws, _, .wait cv, ms, v => do
    let v ← v.condWait w.meanwhile
    if w.failed then refuse maxQueued call relocking w.errno (ms ++ [w.meanwhile]) v
    else goOn ws w.errno (resume maxQueued call v cv) (ms ++ [w.meanwhile]) v

end Call

/-- `libxlDomainObjBeginJobInternal`. Where it does something undefined with a mutex there is no
result. -/
def beginJobInternal (maxQueued : ℤ) (t : Tid) (call : BeginCall) (s : Schedule Tid)
    (v : View Tid) : Option (Result Tid) :=
  let v := { v with jobsQueued := v.jobsQueued + 1 }
  match s.clock with
  -- the one way out that does not lead by the label `error`
  | none => return .returned (-1) none [] v
  | some now => do
    let v := { v with refs := v.refs + 1 }
    let v ← if call.driverLocked then v.unlockDriver else some v
    goOn maxQueued t call now s.relocking s.waits s.errno
      (retry maxQueued v.jobsQueued v.job call.job) [] v

/-! ### Inside a call -/

namespace View

variable {v : View Tid} {m : Meanwhile Tid}

@[simp] theorem afterAll_nil (v : View Tid) : v.afterAll [] = v := rfl

@[simp] theorem afterAll_concat (v : View Tid) (ms : List (Meanwhile Tid)) (m : Meanwhile Tid) :
    v.afterAll (ms ++ [m]) = (v.afterAll ms).after m := by
  simp [afterAll]

/-- What the thread holds is its own. -/
theorem held_afterAll (v : View Tid) (ms : List (Meanwhile Tid)) :
    (v.afterAll ms).domainHeld = v.domainHeld ∧ (v.afterAll ms).driverHeld = v.driverHeld := by
  induction ms generalizing v with
  | nil => exact ⟨rfl, rfl⟩
  | cons m ms ih => exact ih (v.after m)

/-- What the thread sees between the start of its call and the end: one in the counter and one
reference are its own, and the driver's mutex is dropped. -/
def counted (v : View Tid) : View Tid :=
  { v with jobsQueued := v.jobsQueued + 1, refs := v.refs + 1, driverHeld := false }

/-- The others do to a counted domain what they do without the count. -/
theorem counted_condWait (hdomain : v.domainHeld = true) :
    v.counted.condWait m = some (v.after m).counted := by
  have hqueued : v.jobsQueued + 1 + m.jobsQueued = v.jobsQueued + m.jobsQueued + 1 := by omega
  have hrefs : v.refs + 1 + m.refs = v.refs + m.refs + 1 := by omega
  simp [condWait, unlockDomain, lockDomain, counted, after, hdomain, hqueued, hrefs]

theorem relock_of_held (hdomain : v.domainHeld = true) (hdriver : v.driverHeld = false) :
    v.relock m = some { v.after m with driverHeld := true } := by
  simp [relock, unlockDomain, lockDriver, lockDomain, after, hdomain, hdriver]

end View

/-- The call is asleep or taken, or it has returned `-1` and left no trace: its view is what the
others have made of `v₀`. -/
def Result.Traceless (v₀ : View Tid) : Result Tid → Prop
  | .asleep => True
  | .returned ret _ ms v => ret = 0 ∨ ret = -1 ∧ v = v₀.afterAll ms

section Inside

variable {maxQueued : ℤ} {t : Tid} {call : BeginCall} {now : ℕ} {relocking : Meanwhile Tid}
variable {ms : List (Meanwhile Tid)} {v₀ : View Tid}

/-- **The label `error`** takes back what the call has counted, and the mutexes are held again
that were held at the start. -/
theorem refuse_traceless (hdomain : v₀.domainHeld = true)
    (hdriver : v₀.driverHeld = call.driverLocked) (errno : Errno) (ms : List (Meanwhile Tid)) :
    ∃ r, refuse maxQueued call relocking errno ms (v₀.afterAll ms).counted = some r ∧
      r.Traceless v₀ := by
  obtain ⟨hheld, hheld'⟩ := v₀.held_afterAll ms
  rw [hdomain] at hheld
  rw [hdriver] at hheld'
  unfold refuse
  cases hlocked : call.driverLocked with
  | false =>
    refine ⟨_, rfl, .inr ⟨rfl, ?_⟩⟩
    rw [hlocked] at hheld'
    simp [View.counted, ← hheld']
  | true =>
    rw [hlocked] at hheld'
    have hrelock := View.relock_of_held (m := relocking)
      (v := { (v₀.afterAll ms).counted with jobsQueued := (v₀.afterAll ms).counted.jobsQueued - 1 })
      hheld rfl
    simp only [if_true, hrelock]
    refine ⟨_, rfl, .inr ⟨rfl, ?_⟩⟩
    have hrefs : (v₀.afterAll ms).refs + 1 + relocking.refs - 1 =
        (v₀.afterAll ms).refs + relocking.refs := by omega
    simp [View.counted, View.after, hheld', hrefs]

theorem take_traceless (hdomain : v₀.domainHeld = true) (ms : List (Meanwhile Tid)) :
    ∃ r, take t call now relocking ms (v₀.afterAll ms).counted = some r ∧ r.Traceless v₀ := by
  obtain ⟨hheld, -⟩ := v₀.held_afterAll ms
  rw [hdomain] at hheld
  unfold take
  cases call.driverLocked with
  | false => exact ⟨_, rfl, .inl rfl⟩
  | true =>
    have hrelock := View.relock_of_held (m := relocking)
      (v := { (v₀.afterAll ms).counted with
        job := takeJob (v₀.afterAll ms).counted.job t call now }) hheld rfl
    simp only [if_true, hrelock]
    exact ⟨_, rfl, .inl rfl⟩

/-- **However long a call waits**, it does nothing undefined, and if it comes back with `-1` it
has left no trace. -/
theorem goOn_traceless (hdomain : v₀.domainHeld = true)
    (hdriver : v₀.driverHeld = call.driverLocked) (ws : List (Wait Tid)) (errno : Errno)
    (out : Outcome) (ms : List (Meanwhile Tid)) :
    ∃ r, goOn maxQueued t call now relocking ws errno out ms (v₀.afterAll ms).counted = some r ∧
      r.Traceless v₀ := by
  induction ws generalizing errno out ms with
  | nil =>
    cases out with
    | wait cv => exact ⟨.asleep, rfl, trivial⟩
    | error => exact refuse_traceless hdomain hdriver errno ms
    | start => exact take_traceless hdomain ms
  | cons w ws ih =>
    cases out with
    | wait cv =>
      have hheld : (v₀.afterAll ms).domainHeld = true := (v₀.held_afterAll ms).1.trans hdomain
      rw [goOn, View.counted_condWait hheld, ← View.afterAll_concat]
      show ∃ r, (if w.failed then _ else _) = some r ∧ _
      split_ifs
      · exact refuse_traceless hdomain hdriver w.errno _
      · exact ih w.errno _ _
    | error => exact refuse_traceless hdomain hdriver errno ms
    | start => exact take_traceless hdomain ms

end Inside

/-! ### Calls that come back with `-1` -/

section Refused

variable {maxQueued jobsQueued refs : ℤ} {t : Tid} {call : BeginCall} {s : Schedule Tid}
variable {job : JobObj Tid} {error : Option BeginError} {ms : List (Meanwhile Tid)} {v : View Tid}

/-- A call that can read the clock is inside. -/
theorem beginJobInternal_of_clock {now : ℕ} (hclock : s.clock = some now) :
    ∃ r, beginJobInternal maxQueued t call s (.enter call.driverLocked job jobsQueued refs) =
      some r ∧ r.Traceless (.enter call.driverLocked job jobsQueued refs) := by
  have hgoOn : ∃ r, goOn maxQueued t call now s.relocking s.waits s.errno
      (retry maxQueued (jobsQueued + 1) job call.job) []
      (View.enter call.driverLocked job jobsQueued refs).counted = some r ∧
        r.Traceless (.enter call.driverLocked job jobsQueued refs) :=
    goOn_traceless rfl rfl s.waits s.errno _ []
  simp only [beginJobInternal, hclock]
  cases hlocked : call.driverLocked with
  | false =>
    rw [hlocked] at hgoOn
    exact hgoOn
  | true =>
    rw [hlocked] at hgoOn
    exact hgoOn

/-- **A call never does anything undefined** with the mutexes. -/
theorem beginJobInternal_isSome :
    (beginJobInternal maxQueued t call s
      (.enter call.driverLocked job jobsQueued refs)).isSome := by
  cases hclock : s.clock with
  | none => simp [beginJobInternal, hclock]
  | some now =>
    obtain ⟨r, hr, -⟩ := beginJobInternal_of_clock (s := s) hclock
    rw [hr]
    rfl

/-- **Refused without a trace.** A call that returns `-1` leaves the counter, the references,
the job object and the mutexes that it holds as the others alone would have left them exactly
if it could read the clock. The others may act at every place where the domain is unlocked, and
the call may be of any of the four kinds. -/
theorem refused_traceless_iff (h : beginJobInternal maxQueued t call s
    (.enter call.driverLocked job jobsQueued refs) = some (.returned (-1) error ms v)) :
    v = (View.enter call.driverLocked job jobsQueued refs).afterAll ms ↔ s.clock ≠ none := by
  cases hclock : s.clock with
  | none =>
    simp only [beginJobInternal, hclock] at h
    obtain ⟨-, -, rfl, rfl⟩ := Result.returned.inj (Option.some.inj h)
    constructor
    · intro htrace
      have hqueued : jobsQueued + 1 = jobsQueued := congrArg View.jobsQueued htrace
      omega
    · exact fun hne => absurd rfl hne
  | some now =>
    obtain ⟨r, hr, htraceless⟩ := beginJobInternal_of_clock (s := s) hclock
    rw [hr] at h
    obtain rfl := Option.some.inj h
    rcases htraceless with hret | ⟨-, hview⟩
    · exact absurd hret (by decide)
    · exact ⟨fun _ => nofun, fun _ => hview⟩

end Refused

/-- A save of thread `true`. -/
def saveCall : BeginCall := domainObjBeginAsyncJobWithDriver .save save_ne_none

/-- The job object while thread `false` dumps the domain. -/
def dumping : JobObj Bool :=
  takeJob domainObjInitJob false (domainObjBeginAsyncJobWithDriver .dump dump_ne_none) 5

/-- The save times out, while another thread queues up. -/
def timesOut : Schedule Bool where
  clock := some 7
  errno := .other 0
  waits := [⟨⟨1, 1, id⟩, true, .etimedout⟩]
  relocking := ⟨0, 0, id⟩

/-- A save that waits for a dump until its time is up leaves no trace. -/
theorem refused_traceless_timeout : ∃ error ms v, beginJobInternal 0 true saveCall timesOut
    (.enter saveCall.driverLocked dumping 1 2) = some (.returned (-1) error ms v) ∧
      v = (View.enter saveCall.driverLocked dumping 1 2).afterAll ms := by
  obtain ⟨error, ms, v, h⟩ : ∃ error ms v, beginJobInternal 0 true saveCall timesOut
      (.enter saveCall.driverLocked dumping 1 2) = some (.returned (-1) error ms v) :=
    ⟨_, _, _, rfl⟩
  exact ⟨error, ms, v, h, (refused_traceless_iff h).mpr (Option.some_ne_none 7)⟩

/-- **A save that cannot read the clock** leaves the counter raised, with nobody else around. -/
theorem clockFailed_traced : ∃ error ms v, beginJobInternal 0 true saveCall
    { timesOut with clock := none } (.enter saveCall.driverLocked domainObjInitJob 0 1) =
      some (.returned (-1) error ms v) ∧ v.jobsQueued = 1 ∧
      v ≠ (View.enter saveCall.driverLocked domainObjInitJob 0 1).afterAll ms := by
  refine ⟨none, [], _, rfl, rfl, fun h => ?_⟩
  have hqueued : (1 : ℤ) = 0 := congrArg View.jobsQueued h
  exact absurd hqueued (by decide)

end BeginJob

end Libxl

end OpenLog
