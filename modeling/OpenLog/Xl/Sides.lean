import OpenLog.Xl.Code

/-!
# What the two sides of a migration promise

Each side of a migration is followed by itself: the sender by what it has read, and by whether it
has tried to give the permission to go (`OpenLog.Xl.SendStage`), the receiver by what it has
written and what it has done with its copy of the guest (`OpenLog.Xl.ReceiveStage`).

The sender wakes the guest up only before it has tried to give the permission, or when it has read
all that the receiver can have to say, and gives the guest up only for what it takes for success
(`OpenLog.Xl.SendStage.wpOn_migrateDomain`). The receiver says its last word only when its copy is
gone, does not say what the sender takes for success before the guest is started, and starts it
only after it has read something behind the image (`OpenLog.Xl.ReceiveStage.wpOn_migrateReceive`).
-/

namespace OpenLog

namespace Xl

open Format Logic

/-! ### Messages -/

/-- The messages of the receiver that the sender takes for success. -/
def successText : List UInt8 :=
  migrateReceiverBanner ++ (migrateReceiverReady ++ (migrateReport ++ [0]))

@[simp] theorem length_banner : migrateReceiverBanner.length = 54 := by
  decide

@[simp] theorem length_ready : migrateReceiverReady.length = 34 := by
  decide

@[simp] theorem length_report : migrateReport.length = 39 := by
  decide

@[simp] theorem length_go : migratePermissionToGo.length = 44 := by
  decide

/-! ### What each side keeps track of -/

/-- How far the sender has got. -/
structure SendStage where
  /-- The bytes that it has read. -/
  got : List UInt8
  /-- A read has failed. -/
  failed : Bool
  /-- It has written the image of the guest. -/
  imagePut : Bool
  /-- It has tried to write behind the image. -/
  goTried : Bool
  /-- The items that it has written behind the image. -/
  goPut : ℕ
  /-- It may have left the guest running. -/
  awake : Bool
  deriving DecidableEq

namespace SendStage

def start : SendStage := ⟨[], false, false, false, 0, true⟩

/-- The bytes that a write has put on the wire. -/
def written (data : List UInt8) (w : WriteEnd) : List UInt8 :=
  if w.rc = 0 then data else data.take w.count

/-- What an operation of the sender changes. -/
def next (g : SendStage) : (o : XlOp) → XlRes o → SendStage
  | .writeExactly data, w =>
    if g.imagePut then { g with goTried := true, goPut := g.goPut + (written data w).length }
    else g
  | .readExactly _, r =>
    if r.rc = 0 then { g with got := g.got ++ r.buf } else { g with failed := true }
  | .suspend, r => if r.rc = 0 then { g with imagePut := true, awake := false } else g
  | .resume, _ => { g with awake := true }
  | _, _ => g

/-- The sender has read all that the receiver can have to say. -/
def Cleared (g : SendStage) : Prop := 54 + 34 + 39 + 1 + 44 ≤ g.got.length

/-- What the sender observes: it reads no further after a failure, it writes behind the image
only while the guest is suspended, and wakes the guest up before that or when it is cleared; the
guest is given up only for success. -/
def Observes (g : SendStage) : XlOp → Prop
  | .readExactly _ => g.failed = false
  | .writeExactly _ => g.imagePut = true → g.awake = false
  | .suspend => g.imagePut = false
  | .resume => g.goTried = false ∨ g.Cleared
  | .destroy => g.got = successText
  | _ => True

/-- A read that succeeds fills the buffer. -/
def Filled (_ : SendStage) : (o : XlOp) → XlRes o → Prop
  | .readExactly n, r => r.rc = 0 → r.buf.length = n
  | _, _ => True

def monitor : Monitor XlRes SendStage := ⟨next, Observes⟩

@[simp] theorem monitor_next : monitor.next = next := rfl

@[simp] theorem monitor_ok : monitor.ok = Observes := rfl

/-- What the exit status of the sender promises. -/
def Promise (status : ℤ) (g : SendStage) : Prop :=
  (status = 0 → g.got = successText) ∧
    (status ≠ 0 → status ≠ -errorBadfail → g.goTried = false ∨ g.Cleared)

end SendStage

/-- How far the receiver has got. -/
structure ReceiveStage where
  /-- The bytes that it has written. -/
  put : List UInt8
  /-- It has restored the guest. -/
  restored : Bool
  /-- The items that it has read since then. -/
  goTaken : ℕ
  /-- It has unpaused the guest. -/
  started : Bool
  /-- It has destroyed its copy of the guest. -/
  gone : Bool
  deriving DecidableEq

namespace ReceiveStage

def start : ReceiveStage := ⟨[], false, 0, false, false⟩

/-- `libxl_domain_unpause` comes back. -/
def unpaused (g : ReceiveStage) (rc : ℤ) : ReceiveStage :=
  if rc = 0 then { g with started := true } else g

/-- What an operation of the receiver changes. -/
def next (g : ReceiveStage) : (o : XlOp) → XlRes o → ReceiveStage
  | .writeExactly data, w => { g with put := g.put ++ SendStage.written data w }
  | .readExactly n, r =>
    if g.restored = true ∧ r.rc = 0 then { g with goTaken := g.goTaken + n } else g
  | .restore, r => if r.rc = 0 then { g with restored := true } else g
  | .unpause, rc => g.unpaused rc
  | .destroy, true => { g with gone := true }
  | _, _ => g

/-- What the receiver observes: the last of its messages is written only when its copy is gone,
nothing that the sender would take for success is written before the guest is started, and the
guest is not started before something has been read behind its image. -/
def Observes (g : ReceiveStage) : XlOp → Prop
  | .writeExactly data =>
    (g.gone = true ∨ g.put.length + data.length ≤ 54 + 34 + 39 + 1) ∧
      (g.started = true ∨ ¬successText <+: g.put ++ data)
  | .restore => g.restored = false ∧ g.gone = false
  | .unpause => g.restored = true → 0 < g.goTaken
  | .destroy => g.started = false
  | _ => True

def monitor : Monitor XlRes ReceiveStage := ⟨next, Observes⟩

@[simp] theorem monitor_next : monitor.next = next := rfl

@[simp] theorem monitor_ok : monitor.ok = Observes := rfl

end ReceiveStage

/-! ### The sender -/

namespace SendStage

attribute [local simp] next start Observes Filled Cleared

theorem promise_exit {status : ℤ} {g : SendStage} (hstatus : status ≠ 0)
    (hgo : g.goTried = false) : Promise status g :=
  ⟨fun h => absurd h hstatus, fun _ _ => Or.inl hgo⟩

/-- A message is read: then it is what the buffer holds. -/
theorem wpOn_readFixedmessage {α : Type} {msg : List UInt8} {f : ℤ → XlCode α} {g : SendStage}
    {Q : α → SendStage → Prop} {E : SendStage → Prop} (hg : g.failed = false)
    (hright : (f 0).wpOn Filled monitor Q E { g with got := g.got ++ msg })
    (hwrong : ∀ g' : SendStage, g'.imagePut = g.imagePut → g'.goTried = g.goTried →
      (f errorFail).wpOn Filled monitor Q E g') :
    (migrateReadFixedmessage msg >>= f).wpOn Filled monitor Q E g := by
  simp only [migrateReadFixedmessage, bind_assoc, wpOn_readExactly, monitor_next, monitor_ok]
  refine ⟨hg, fun r _ => ?_⟩
  by_cases hrc : r.rc = 0
  · by_cases hbuf : r.buf = msg
    · simpa [hrc, hbuf] using hright
    · have hother := hwrong (g.next (.readExactly msg.length) r) (by simp [hrc]) (by simp [hrc])
      simpa [hrc, hbuf] using hother
  · have hother := hwrong (g.next (.readExactly msg.length) r) (by simp [hrc]) (by simp [hrc])
    simpa [hrc] using hother

variable {g : SendStage} {named : Bool} {e : Endian} {config : List UInt8}

/-- After a failure behind the point of no return nothing is promised. -/
theorem wpOn_failedBadly : migrateDomain.failedBadly.wpOn Filled monitor Promise
    (fun _ => True) g := by
  simp [migrateDomain.failedBadly, Promise, errorBadfail]

theorem wpOn_failedResume (hgo : g.goTried = false) :
    migrateDomain.failedResume.wpOn Filled monitor Promise (fun _ => True) g := by
  simp [migrateDomain.failedResume, Promise, errorFail, hgo]

theorem wpOn_failedSuspend (hgo : g.goTried = false) :
    migrateDomain.failedSuspend.wpOn Filled monitor Promise (fun _ => True) g := by
  simp [migrateDomain.failedSuspend, Promise, errorFail, hgo]

/-- From the point of no return on. -/
theorem wpOn_giveGo (hfailed : g.failed = false) (himage : g.imagePut = true)
    (hawake : g.awake = false) (hgot : g.got = migrateReceiverBanner ++ migrateReceiverReady) :
    (migrateDomain.giveGo named).wpOn Filled monitor Promise (fun _ => True) g := by
  rw [migrateDomain.giveGo]
  simp only [wpOn_writeExactly, monitor_next, monitor_ok]
  refine ⟨fun _ => hawake, fun w _ => ?_⟩
  by_cases hw : w.rc = 0
  · rw [if_neg (not_not.mpr hw)]
    refine wpOn_readFixedmessage (by simp [hfailed, himage]) ?_ fun _ _ _ => wpOn_failedBadly
    rw [if_neg (not_not.mpr rfl)]
    simp only [wpOn_readExactly, monitor_next, monitor_ok]
    refine ⟨by simp [hfailed, himage], fun r hr => ?_⟩
    by_cases hrc : r.rc = 0
    · have hlen : r.buf.length = 1 := hr hrc
      rw [if_neg (not_not.mpr hrc)]
      by_cases hbuf : r.buf = [0]
      · rw [if_neg (not_not.mpr hbuf)]
        simp [himage, hrc, hbuf, hgot, Promise, successText, errorBadfail]
      · rw [if_pos hbuf]
        refine wpOn_readFixedmessage (by simp [hfailed, himage, hrc]) ?_
          fun _ _ _ => wpOn_failedBadly
        cases named <;> simp [himage, hrc, hgot, hlen, Promise, errorFail]
    · rw [if_pos hrc]
      exact wpOn_failedBadly
  · rw [if_pos hw]
    exact wpOn_failedBadly

/-- From the suspension of the guest on. -/
theorem wpOn_send (hfailed : g.failed = false) (himage : g.imagePut = false)
    (hgo : g.goTried = false) (hgot : g.got = migrateReceiverBanner) :
    (migrateDomain.send named).wpOn Filled monitor Promise (fun _ => True) g := by
  rw [migrateDomain.send]
  simp only [wpOn_suspend, monitor_next, monitor_ok]
  refine ⟨himage, fun r _ => ?_⟩
  by_cases hr : r.rc = 0
  · rw [if_neg (not_not.mpr hr)]
    refine wpOn_readFixedmessage (by simp [hr, hfailed]) ?_ fun g' _ hgo' => ?_
    · have hgive : (migrateDomain.giveGo named).wpOn Filled monitor Promise (fun _ => True)
          { g.next .suspend r with got := (g.next .suspend r).got ++ migrateReceiverReady } :=
        wpOn_giveGo (by simp [hr, hfailed]) (by simp [hr]) (by simp [hr]) (by simp [hr, hgot])
      have hresume : migrateDomain.failedResume.wpOn Filled monitor Promise (fun _ => True)
          { g.next .suspend r with got := (g.next .suspend r).got ++ migrateReceiverReady } :=
        wpOn_failedResume (by simp [hr, hgo])
      rw [if_neg (not_not.mpr rfl)]
      cases named with
      | false => exact hgive
      | true =>
        simp only [Bool.not_true, Bool.false_eq_true, if_false, wpOn_host, monitor_next,
          monitor_ok]
        refine ⟨trivial, fun rc _ => ?_⟩
        split_ifs
        · exact hresume
        · simp only [wpOn_rename, monitor_next, monitor_ok]
          refine ⟨trivial, fun rc _ => ?_⟩
          split_ifs
          · exact hresume
          · exact hgive
    · rw [if_pos (by decide)]
      exact wpOn_failedResume (by simpa [hr, hgo] using hgo')
  · rw [if_pos hr]
    have hnext : g.next .suspend r = g := if_neg hr
    rw [hnext]
    split_ifs
    · exact wpOn_failedSuspend hgo
    · exact wpOn_failedResume hgo

/-- Up to the head of the stream. -/
theorem wpOn_migrateDoPreamble {f : Except ℤ Unit → XlCode ℤ} (hfailed : g.failed = false)
    (himage : g.imagePut = false) (hgo : g.goTried = false)
    (hok : (f (.ok ())).wpOn Filled monitor Promise (fun _ => True)
      { g with got := g.got ++ migrateReceiverBanner })
    (herror : ∀ g' : SendStage, g'.goTried = false →
      (f (.error (-errorFail))).wpOn Filled monitor Promise (fun _ => True) g') :
    (migrateDoPreamble e config >>= f).wpOn Filled monitor Promise (fun _ => True) g := by
  rw [migrateDoPreamble, bind_assoc]
  refine wpOn_readFixedmessage hfailed ?_ fun g' _ hgo' => ?_
  · simp only [himage, hgo] at hok
    simp [saveDomainCoreWriteconfig, himage, herror, hgo]
    exact fun _ _ _ _ => hok
  · simpa [errorFail] using herror g' (hgo'.trans hgo)

/-- **The sender keeps its promise.** -/
theorem wpOn_migrateDomain (e : Endian) (named : Bool) (config : List UInt8) :
    (migrateDomain e named config).wpOn Filled monitor Promise (fun _ => True) start := by
  have hexit (status : ℤ) (hstatus : status ≠ 0) : Promise status start :=
    promise_exit hstatus rfl
  have hpipe (rc : ℤ) (hrc : rc < 0) : Promise (-rc) start := hexit _ (by omega)
  rw [migrateDomain]
  refine wpOn_check trivial (fun _ => rfl) (fun _ _ => hexit 2 (by decide)) fun _ => ?_
  split_ifs
  · exact hexit 1 (by decide)
  refine wpOn_check trivial (fun _ => rfl) hpipe fun _ => ?_
  refine wpOn_check trivial (fun _ => rfl) hpipe fun _ => ?_
  refine wpOn_migrateDoPreamble rfl rfl rfl ?_ fun g' hgo => promise_exit (by decide) hgo
  exact wpOn_send rfl rfl rfl rfl

end SendStage

/-! ### The receiver -/

namespace ReceiveStage

attribute [local simp] next start Observes unpaused

/-- What the receiver has written before it says that it is ready: its banner, or a part of it
behind which the ready message does not make up for the rest. -/
def Opened (p : List UInt8) : Prop :=
  p.length ≤ 54 ∧ (p = migrateReceiverBanner ∨
    ∀ t, ¬migrateReceiverBanner <+: p ++ (migrateReceiverReady ++ t))

/-- The ready message does not go on where the banner breaks off. -/
theorem not_prefix_torn {k : ℕ} (hk : k < 54) (t : List UInt8) :
    ¬migrateReceiverBanner <+: migrateReceiverBanner.take k ++ (migrateReceiverReady ++ t) := by
  have hapart : ∀ k < 54, ¬migrateReceiverBanner.drop k <+: migrateReceiverReady ∧
      ¬migrateReceiverReady <+: migrateReceiverBanner.drop k := by
    decide
  intro h
  nth_rewrite 1 [← List.take_append_drop k migrateReceiverBanner] at h
  rw [List.prefix_append_right_inj] at h
  rcases List.prefix_or_prefix_of_prefix h (List.prefix_append migrateReceiverReady t) with h | h
  · exact (hapart k hk).1 h
  · exact (hapart k hk).2 h

theorem opened_written (w : WriteEnd) :
    Opened (SendStage.written migrateReceiverBanner w) := by
  unfold SendStage.written
  split_ifs with hw
  · exact ⟨Nat.le_of_eq length_banner, Or.inl rfl⟩
  · by_cases hk : w.count < 54
    · exact ⟨Nat.le_trans (List.length_take_le _ _) (Nat.le_of_lt hk),
        Or.inr (not_prefix_torn hk)⟩
    · have hall : migrateReceiverBanner.take w.count = migrateReceiverBanner :=
        List.take_of_length_le (length_banner ▸ Nat.not_lt.mp hk)
      rw [hall]
      exact ⟨Nat.le_of_eq length_banner, Or.inl rfl⟩

/-- What is too short is not taken for success. -/
theorem not_success_of_length {p : List UInt8} (hp : p.length < 128) : ¬successText <+: p := by
  intro h
  have hlen := h.length_le
  simp [successText] at hlen
  omega

/-- With another code than `0`, nothing is taken for success. -/
theorem Opened.not_success {p : List UInt8} (hp : Opened p) {c : UInt8} (hc : c ≠ 0)
    (t : List UInt8) :
    ¬successText <+: p ++ (migrateReceiverReady ++ (migrateReport ++ (c :: t))) := by
  intro h
  rcases hp.2 with rfl | htorn
  · rw [successText, List.prefix_append_right_inj, List.prefix_append_right_inj,
      List.prefix_append_right_inj] at h
    exact hc (List.cons_prefix_cons.mp h).1.symm
  · exact htorn _ ((List.prefix_append _ _).trans h)

/-- What the exit status of the receiver promises. -/
def Promise (status : ℤ) (g : ReceiveStage) : Prop :=
  status = 0 → g.started = true ∨ g.gone = true

/-- Any answer may come. -/
def Any (_ : ReceiveStage) (o : XlOp) (_ : XlRes o) : Prop := True

variable {g : ReceiveStage} {e : Endian} {daemonize copied : Bool}

/-- The end of the receiver, with what it has found out. -/
theorem wpOn_perhapsDestroyNotifyRc {p : List UInt8} {rc : ℤ} (hp : Opened p)
    (hput : g.put = p ++ migrateReceiverReady) (hzero : rc = 0 → g.started = true)
    (hother : rc ≠ 0 → g.started = false) :
    (migrateReceive.perhapsDestroyNotifyRc rc).wpOn Any monitor Promise (fun _ => True) g := by
  have hlen := hp.1
  rw [migrateReceive.perhapsDestroyNotifyRc]
  simp only [wpOn_writeExactly, monitor_next, monitor_ok]
  refine ⟨⟨Or.inr ?_, Or.inr ?_⟩, fun w _ => ?_⟩
  · simp [hput]
    omega
  · apply not_success_of_length
    simp [hput]
    omega
  by_cases hw : w.rc = 0
  swap
  · rw [if_pos hw]
    simp [Promise, errorBadfail]
  rw [if_neg (not_not.mpr hw)]
  by_cases hassert : UInt8.ofInt (-rc) = 0 ∧ rc ≠ 0
  · rw [if_pos hassert]
    trivial
  rw [if_neg hassert]
  have hc (hrc : rc ≠ 0) : UInt8.ofInt (-rc) ≠ 0 := fun h => hassert ⟨h, hrc⟩
  simp only [wpOn_writeExactly, monitor_next, monitor_ok]
  refine ⟨⟨Or.inr ?_, ?_⟩, fun w' _ => ?_⟩
  · simp [hput, SendStage.written, hw]
    omega
  · by_cases hrc : rc = 0
    · exact Or.inl (hzero hrc)
    · exact Or.inr (by simpa [hput, SendStage.written, hw] using hp.not_success (hc hrc) [])
  by_cases hw' : w'.rc = 0
  swap
  · rw [if_pos hw']
    simp [Promise, errorBadfail]
  rw [if_neg (not_not.mpr hw')]
  by_cases hrc : rc = 0
  · rw [if_pos hrc]
    exact fun _ => Or.inl (hzero hrc)
  rw [if_neg hrc]
  simp only [wpOn_destroy, monitor_next, monitor_ok]
  refine ⟨hother hrc, fun b _ => ?_⟩
  cases b with
  | false => simp [Promise, errorBadfail]
  | true =>
    simp only [Bool.not_true, Bool.false_eq_true, if_false, wpOn_writeExactly, monitor_next,
      monitor_ok]
    refine ⟨⟨Or.inl rfl, Or.inr ?_⟩, fun w'' _ => ?_⟩
    · simpa [hput, SendStage.written, hw, hw'] using
        hp.not_success (hc hrc) migratePermissionToGo
    · split_ifs <;> simp [Promise, errorBadfail]

/-- A message is read: then something has been taken from the stream. -/
theorem wpOn_readFixedmessage {α : Type} {msg : List UInt8} {f : ℤ → XlCode α}
    {Q : α → ReceiveStage → Prop} {E : ReceiveStage → Prop}
    (hright : ∀ g' : ReceiveStage, g'.put = g.put → g'.started = g.started →
      (g'.restored = true → msg.length ≤ g'.goTaken) → (f 0).wpOn Any monitor Q E g')
    (hwrong : ∀ g' : ReceiveStage, g'.put = g.put → g'.started = g.started →
      (f errorFail).wpOn Any monitor Q E g') :
    (migrateReadFixedmessage msg >>= f).wpOn Any monitor Q E g := by
  simp only [migrateReadFixedmessage, bind_assoc, wpOn_readExactly, monitor_next, monitor_ok]
  refine ⟨trivial, fun r _ => ?_⟩
  have hput : (g.next (.readExactly msg.length) r).put = g.put := by
    simp only [next]
    split_ifs <;> rfl
  have hstarted : (g.next (.readExactly msg.length) r).started = g.started := by
    simp only [next]
    split_ifs <;> rfl
  by_cases hrc : r.rc = 0
  · rw [if_neg (not_not.mpr hrc)]
    by_cases hbuf : r.buf = msg
    · rw [if_neg (not_not.mpr hbuf)]
      refine hright _ hput hstarted fun hrestored => ?_
      cases hg : g.restored <;> simp_all
    · rw [if_pos hbuf]
      exact hwrong _ hput hstarted
  · rw [if_pos hrc]
    exact hwrong _ hput hstarted

/-- From the call that unpauses the guest on. -/
theorem wpOn_unpause_notify {p : List UInt8} (hp : Opened p)
    (hput : g.put = p ++ migrateReceiverReady) (hstarted : g.started = false)
    (hgo : g.restored = true → 0 < g.goTaken) :
    (unpause >>= migrateReceive.perhapsDestroyNotifyRc).wpOn Any monitor Promise
      (fun _ => True) g := by
  simp only [wpOn_unpause, monitor_next, monitor_ok]
  refine ⟨hgo, fun rc _ => wpOn_perhapsDestroyNotifyRc hp ?_ ?_ ?_⟩
  · simp only [next, unpaused]
    split_ifs <;> exact hput
  · intro hrc
    simp [hrc]
  · intro hrc
    simp [hrc, hstarted]

/-- From the ready message on. -/
theorem wpOn_start (hp : Opened g.put) (hstarted : g.started = false) :
    (migrateReceive.start copied).wpOn Any monitor Promise (fun _ => True) g := by
  have hlen := hp.1
  rw [migrateReceive.start]
  simp only [wpOn_writeExactly, monitor_next, monitor_ok]
  refine ⟨⟨Or.inr ?_, Or.inr ?_⟩, fun w _ => ?_⟩
  · rw [length_ready]
    omega
  · apply not_success_of_length
    rw [List.length_append, length_ready]
    omega
  by_cases hw : w.rc = 0
  swap
  · rw [if_pos hw]
    intro hstatus
    omega
  rw [if_neg (not_not.mpr hw)]
  have hput : (g.next (.writeExactly migrateReceiverReady) w).put =
      g.put ++ migrateReceiverReady := by
    simp [SendStage.written, hw]
  refine wpOn_readFixedmessage (fun g' hput' hstarted' htaken => ?_) fun g' hput' hstarted' => ?_
  · have hgo (hrestored : g'.restored = true) : 0 < g'.goTaken := by
      have htaken := htaken hrestored
      rw [length_go] at htaken
      omega
    rw [if_neg (not_not.mpr rfl)]
    cases copied with
    | false => exact wpOn_unpause_notify hp (hput'.trans hput) (hstarted'.trans hstarted) hgo
    | true =>
      simp only [Bool.not_true, Bool.false_eq_true, if_false, wpOn_rename, monitor_next,
        monitor_ok]
      refine ⟨trivial, fun rc _ => ?_⟩
      by_cases hrc : rc = 0
      · rw [if_neg (not_not.mpr hrc)]
        exact wpOn_unpause_notify hp (hput'.trans hput) (hstarted'.trans hstarted) hgo
      · rw [if_pos hrc]
        exact wpOn_perhapsDestroyNotifyRc hp (hput'.trans hput) (fun h => absurd h hrc)
          fun _ => hstarted'.trans hstarted
  · rw [if_pos (by decide)]
    exact wpOn_perhapsDestroyNotifyRc hp (hput'.trans hput) (fun h => absurd h (by decide))
      fun _ => hstarted'.trans hstarted

section Create

variable {f : Except ℤ (ℤ × Bool) → XlCode ℤ}

/-- The label `error_out` of the creation of a domain. -/
theorem wpOn_errorOut {ret : ℤ} {valid : Bool} (hstarted : g.started = false)
    (hret : ∀ ret g', g'.put = g.put → g'.started = false →
      (f (.ok ret)).wpOn Any monitor Promise (fun _ => True) g') :
    (createDomain.errorOut ret copied valid >>= f).wpOn Any monitor Promise (fun _ => True) g := by
  rw [createDomain.errorOut]
  simp only [bind_assoc, wpOn_host, monitor_next, monitor_ok]
  refine ⟨trivial, fun rc _ => ?_⟩
  cases valid with
  | false => exact hret _ g rfl hstarted
  | true =>
    simp only [if_true, bind_assoc, wpOn_destroy, monitor_next, monitor_ok]
    refine ⟨hstarted, fun b _ => ?_⟩
    cases b <;> exact hret _ _ rfl hstarted

/-- Creating the domain writes nothing and starts nothing, from its configuration on. -/
theorem wpOn_load {data : List UInt8} (hrestored : g.restored = false) (hgone : g.gone = false)
    (hstarted : g.started = false)
    (hexit : ∀ status, status ≠ 0 → (f (.error status)).wpOn Any monitor Promise (fun _ => True) g)
    (hret : ∀ ret g', g'.put = g.put → g'.started = false →
      (f (.ok ret)).wpOn Any monitor Promise (fun _ => True) g') :
    (createDomain.load e daemonize data >>= f).wpOn Any monitor Promise (fun _ => True) g := by
  have hout (ret : ℤ) (copied valid : Bool) : (createDomain.errorOut ret copied valid >>= f).wpOn
      Any monitor Promise (fun _ => True) g :=
    wpOn_errorOut hstarted hret
  have herror (r : RestoreEnd) (ret : ℤ) (copied valid : Bool) :
      (createDomain.errorOut ret copied valid >>= f).wpOn Any monitor Promise (fun _ => True)
        (g.next .restore r) := by
    refine wpOn_errorOut ?_ fun ret' g' hput => hret ret' g' (hput.trans ?_)
    · simp only [next]
      split_ifs <;> exact hstarted
    · simp only [next]
      split_ifs <;> rfl
  have hcreated (r : RestoreEnd) (ret : ℤ × Bool) :
      (f (.ok ret)).wpOn Any monitor Promise (fun _ => True) (g.next .restore r) := by
    refine hret ret _ ?_ ?_
    · simp only [next]
      split_ifs <;> rfl
    · simp only [next]
      split_ifs <;> exact hstarted
  rw [createDomain.load]
  rcases savedConfig e data with refusal | (_ | config)
  · cases refusal <;> first | exact hexit _ (by decide) | exact hret _ g rfl hstarted
  · exact hret _ g rfl hstarted
  simp only [bind_assoc, Prog.ite_bind]
  refine wpOn_check trivial (fun _ => rfl) (fun _ _ => hexit 1 (by decide)) fun _ => ?_
  refine wpOn_check trivial (fun _ => rfl) (fun _ _ => hexit 1 (by decide)) fun _ => ?_
  refine wpOn_host.mpr ⟨trivial, fun copied _ => ?_⟩
  refine wpOn_check trivial (fun _ => rfl) (fun _ _ => hout _ _ _) fun _ => ?_
  refine wpOn_check trivial (fun _ => rfl) (fun _ _ => hout _ _ _) fun _ => ?_
  refine wpOn_restore.mpr ⟨⟨hrestored, hgone⟩, fun r _ => ?_⟩
  split_ifs with hr hdaemon
  · exact herror r _ _ _
  · refine wpOn_check trivial (fun _ => rfl) (fun _ _ => herror r _ _ _) fun _ => ?_
    refine wpOn_check trivial (fun _ => rfl) (fun _ _ => herror r _ _ _) fun _ => ?_
    exact wpOn_host.mpr ⟨trivial, fun _ _ => hcreated r _⟩
  · refine wpOn_check trivial (fun _ => rfl) (fun _ _ => herror r _ _ _) fun _ => ?_
    refine wpOn_check trivial (fun _ => rfl) (fun _ _ => herror r _ _ _) fun _ => ?_
    refine wpOn_host.mpr ⟨trivial, fun _ _ => ?_⟩
    exact wpOn_check trivial (fun _ => rfl) (fun _ _ => hcreated r _) fun _ => hcreated r _

/-- Creating the domain writes nothing and starts nothing. -/
theorem wpOn_createDomain (hrestored : g.restored = false) (hgone : g.gone = false)
    (hstarted : g.started = false)
    (hexit : ∀ status, status ≠ 0 → (f (.error status)).wpOn Any monitor Promise (fun _ => True) g)
    (hret : ∀ ret g', g'.put = g.put → g'.started = false →
      (f (.ok ret)).wpOn Any monitor Promise (fun _ => True) g') :
    (createDomain e daemonize >>= f).wpOn Any monitor Promise (fun _ => True) g := by
  have hread (n : ℕ) (r : ReadEnd) : g.next (.readExactly n) r = g := by
    simp [hrestored]
  rw [createDomain]
  simp only [bind_assoc, wpOn_readExactly, monitor_next, monitor_ok, hread]
  refine ⟨trivial, fun r _ => ?_⟩
  by_cases hr : r.rc < 0
  · rw [if_pos hr]
    exact hexit _ (by decide)
  rw [if_neg hr]
  by_cases hcheck : checkHeader (SaveFileHeader.ofBytes e r.buf) = none
  swap
  · simp only [ne_eq, hcheck, not_false_eq_true, if_true]
    exact hret _ g rfl hstarted
  simp only [ne_eq, hcheck, not_true_eq_false, if_false]
  by_cases hlen : (SaveFileHeader.ofBytes e r.buf).optionalDataLen = 0
  · simp only [hlen, if_true]
    exact wpOn_load hrestored hgone hstarted hexit hret
  simp only [hlen, if_false, bind_assoc, wpOn_readExactly, monitor_next, monitor_ok, hread]
  refine ⟨trivial, fun r' _ => ?_⟩
  by_cases hr' : r'.rc < 0
  · rw [if_pos hr']
    exact hexit _ (by decide)
  · rw [if_neg hr']
    exact wpOn_load hrestored hgone hstarted hexit hret

end Create

/-- **The receiver keeps its promise.** -/
theorem wpOn_migrateReceive (e : Endian) (daemonize : Bool) :
    (migrateReceive e daemonize false).wpOn Any monitor Promise (fun _ => True) start := by
  rw [migrateReceive]
  simp only [wpOn_writeExactly, monitor_next, monitor_ok]
  refine ⟨⟨Or.inr (by simp), Or.inr ?_⟩, fun w _ => ?_⟩
  · exact not_success_of_length (by simp)
  by_cases hw : w.rc < 0
  · rw [if_pos hw]
    simp [Promise, errorFail]
  rw [if_neg hw]
  refine wpOn_createDomain rfl rfl rfl (fun status hstatus h => absurd h hstatus) ?_
  rintro ⟨rc, copied⟩ g' hput hstarted
  dsimp only
  split_ifs with hrc
  · intro hstatus
    omega
  · contradiction
  · refine wpOn_start ?_ hstarted
    rw [hput]
    exact opened_written w

end ReceiveStage

end Xl

end OpenLog
