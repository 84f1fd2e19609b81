import OpenLog.Logic.Run
import OpenLog.Xl.Sides

/-!
# One guest in a migration with xl

The two sides of a migration, operation by operation in any order, with what is under way between
them and what has become of the guest on either host. Any operation may fail, and each of the two
processes may be killed at any time.

## The stream

The image of the guest is one item of the stream: what `libxl_domain_suspend` has written,
`libxl_domain_create_restore` reads to its end and not beyond. Whoever reads bytes where an image
stands may get any, and leaves a part of it.

## One guest

The guest never runs on both hosts (`OpenLog.Xl.Handover.one_guest`), and what the sender's exit
status says about it is true: in particular the guest is not given up on its own host before it
runs on the other one (`OpenLog.Xl.Handover.verdict`).

Both follow from one invariant (`OpenLog.Xl.Handover.Inv`), which says of each side what is left
of its program and counts bytes in both directions. The receiver unpauses the guest only behind a
byte of the permission to go, and such a byte is only written while the guest is suspended; the
sender resumes the guest only where it has not tried to write one, or has heard that the guest is
gone; and it destroys it only where it has read that the guest was started.
-/

namespace OpenLog

namespace Xl

open Format Logic

/-! ### The stream -/

/-- An item of the stream to the receiver. -/
inductive Item where
  | byte (b : UInt8)
  /-- The image of the guest. -/
  | image
  /-- A part of an image. -/
  | torn
  deriving DecidableEq

def Item.isByte : Item → Bool
  | byte _ => true
  | image | torn => false

/-- `n` items are read as bytes. -/
def consume (n : ℕ) (down : List Item) : List Item :=
  if (down.take n).all Item.isByte then down.drop n
  else .torn :: (down.dropWhile Item.isByte).tail

/-- The stream behind the image, if it holds one. -/
def Behind (P : List Item → Prop) (down : List Item) : Prop :=
  ∀ pre post, down = pre ++ .image :: post → P post

section Stream

variable {P P' : List Item → Prop} {down : List Item}

theorem behind_of_suffix {down' : List Item} (h : Behind P down) (hsuff : down' <:+ down) :
    Behind P down' := by
  obtain ⟨front, rfl⟩ := hsuff
  rintro pre post rfl
  exact h (front ++ pre) post (List.append_assoc _ _ _).symm

theorem behind_cons {i : Item} (hi : i ≠ .image) (h : Behind P down) : Behind P (i :: down) := by
  rintro (_ | ⟨i', pre⟩) post heq
  · exact absurd (List.cons.inj heq).1 hi
  · exact h pre post (List.cons.inj heq).2

/-- Reading leaves what stands behind the image. -/
theorem behind_consume (n : ℕ) (h : Behind P down) : Behind P (consume n down) := by
  unfold consume
  split_ifs
  · exact behind_of_suffix h (List.drop_suffix n down)
  · exact behind_cons nofun (behind_of_suffix h
      ((List.tail_suffix _).trans (List.dropWhile_suffix _)))

theorem behind_of_notMem (h : .image ∉ down) : Behind P down := by
  rintro pre post rfl
  exact absurd (List.mem_append_right _ List.mem_cons_self) h

/-- Behind an image that has just been written there is nothing. -/
theorem behind_concat (h : .image ∉ down) (hP : P []) : Behind P (down ++ [.image]) := by
  intro pre post heq
  rcases List.append_eq_append_iff.mp heq with ⟨_ | ⟨i, rest⟩, -, hrest⟩ | ⟨rest, rfl, hrest⟩
  · obtain rfl := (List.cons.inj hrest).2
    exact hP
  · simp at hrest
  · cases rest with
    | nil =>
      obtain rfl := (List.cons.inj hrest).2
      exact hP
    | cons i rest =>
      obtain ⟨rfl, -⟩ := List.cons.inj hrest
      exact absurd (List.mem_append_right _ List.mem_cons_self) h

theorem notMem_consume (n : ℕ) (h : .image ∉ down) : .image ∉ consume n down := by
  unfold consume
  split_ifs
  · exact fun hmem => h (List.mem_of_mem_drop hmem)
  · rw [List.mem_cons, not_or]
    refine ⟨nofun, fun hmem => h ?_⟩
    exact (List.dropWhile_suffix _).subset (List.mem_of_mem_tail hmem)

/-- Where there are only bytes, they are read. -/
theorem consume_of_bytes (n : ℕ) (h : ∀ i ∈ down, i.isByte = true) :
    consume n down = down.drop n := by
  refine if_pos (List.all_eq_true.mpr fun i hi => h i (List.mem_of_mem_take hi))

theorem behind_append {data : List Item} (hdata : .image ∉ data) (h : Behind P down)
    (hP : ∀ post, P post → P' (post ++ data)) : Behind P' (down ++ data) := by
  intro pre post heq
  rcases List.append_eq_append_iff.mp heq with ⟨rest, -, hrest⟩ | ⟨_ | ⟨i, rest⟩, hdown, hrest⟩
  · rw [hrest] at hdata
    exact absurd (List.mem_append_right _ List.mem_cons_self) hdata
  · rw [← show .image :: post = data from hrest] at hdata
    exact absurd List.mem_cons_self hdata
  · obtain ⟨rfl, rfl⟩ := List.cons.inj hrest
    exact hP rest (h pre rest hdown)

end Stream

/-! ### The system -/

/-- The guest on its own host. -/
inductive SourceGuest where
  | running
  | suspended
  | destroyed
  deriving DecidableEq, Repr

/-- The guest on the other host. -/
inductive DestGuest where
  | absent
  | paused
  | running
  deriving DecidableEq, Repr

/-- Both sides, what is under way between them, and the guest. -/
structure Handover where
  sender : XlCode ℤ
  receiver : XlCode ℤ
  /-- What the receiver has not read yet. -/
  down : List Item
  /-- What the sender has not read yet. -/
  up : List UInt8
  /-- The sender has closed its end. -/
  sendClosed : Bool
  source : SourceGuest
  dest : DestGuest
  sendStage : SendStage
  receiveStage : ReceiveStage

/-- A step of one of the sides, or its end. -/
inductive HandoverAct where
  | sender (ω : (o : XlOp) → XlRes o)
  | receiver (ω : (o : XlOp) → XlRes o)
  | killSender
  | killReceiver

/-- The arguments of a migration. -/
structure Migration where
  /-- The byte orders of the two hosts. -/
  sendEndian : Endian
  receiveEndian : Endian
  named : Bool
  config : List UInt8
  daemonize : Bool

namespace Handover

/-- The guest runs on its own host, and both sides are about to start. -/
def start (m : Migration) : Handover :=
  ⟨migrateDomain m.sendEndian m.named m.config,
    migrateReceive m.receiveEndian m.daemonize false, [], [], false, .running, .absent,
    SendStage.start, ReceiveStage.start⟩

def Initial (s : Handover) : Prop := ∃ m, s = start m

/-- The answers that the sender can get. -/
def SenderMay (s : Handover) : (o : XlOp) → XlRes o → Prop
  | .readExactly n, r => r.rc = 0 → n ≤ s.up.length ∧ r.buf = s.up.take n
  | _, _ => True

instance (s : Handover) : (o : XlOp) → (r : XlRes o) → Decidable (s.SenderMay o r)
  | .readExactly _, _ => inferInstanceAs (Decidable (_ → _))
  | .host _, _ | .writeExactly _, _ | .closeSend, _ | .suspend, _ | .restore, _ | .rename, _
  | .unpause, _ | .resume, _ | .destroy, _ => .isTrue trivial

/-- `libxl_domain_unpause` succeeds on a domain that is there. -/
def MayUnpause (s : Handover) (rc : ℤ) : Prop := rc = 0 → s.dest = .paused

/-- `libxl_domain_rename` succeeds on a domain that is there. -/
def MayRename (s : Handover) (rc : ℤ) : Prop := rc = 0 → s.dest ≠ .absent

instance decidableMayUnpause (s : Handover) (rc : ℤ) : Decidable (s.MayUnpause rc) :=
  inferInstanceAs (Decidable (_ → _))

instance decidableMayRename (s : Handover) (rc : ℤ) : Decidable (s.MayRename rc) :=
  inferInstanceAs (Decidable (_ → _))

/-- The answers that the receiver can get. -/
def ReceiverMay (s : Handover) : (o : XlOp) → XlRes o → Prop
  | .readExactly n, r => r.rc = 0 → r.buf.length = n ∧ n ≤ s.down.length ∧
      ((s.down.take n).all Item.isByte = true → r.buf.map .byte = s.down.take n)
  | .restore, r => r.rc = 0 → s.down.head? = some .image
  | .unpause, rc => s.MayUnpause rc
  | .rename, rc => s.MayRename rc
  | _, _ => True

instance (s : Handover) : (o : XlOp) → (r : XlRes o) → Decidable (s.ReceiverMay o r)
  | .readExactly _, _ => inferInstanceAs (Decidable (_ → _))
  | .restore, _ => inferInstanceAs (Decidable (_ → _))
  | .unpause, rc => decidableMayUnpause s rc
  | .rename, rc => decidableMayRename s rc
  | .host _, _ | .writeExactly _, _ | .closeSend, _ | .suspend, _ | .resume, _
  | .destroy, _ => .isTrue trivial

/-- What an operation of the sender does. -/
def senderEffect (s : Handover) : (o : XlOp) → XlRes o → Handover
  | .writeExactly data, w => { s with down := s.down ++ (SendStage.written data w).map .byte }
  | .readExactly n, r => { s with up := s.up.drop (if r.rc = 0 then n else r.count) }
  | .closeSend, _ => { s with sendClosed := true }
  | .suspend, r =>
    if r.rc = 0 then { s with down := s.down ++ [.image], source := .suspended }
    else
      { s with
        down := s.down ++ [.torn]
        source := if r.suspended then .suspended else s.source }
  | .resume, true => if s.source = .destroyed then s else { s with source := .running }
  | .destroy, true => { s with source := .destroyed }
  | _, _ => s

/-- What `libxl_domain_unpause` does. -/
def unpaused (s : Handover) (rc : ℤ) : Handover :=
  if rc = 0 then { s with dest := .running } else s

/-- What an operation of the receiver does. -/
def receiverEffect (s : Handover) : (o : XlOp) → XlRes o → Handover
  | .writeExactly data, w => { s with up := s.up ++ SendStage.written data w }
  | .readExactly n, r => { s with down := consume (if r.rc = 0 then n else r.count) s.down }
  | .restore, r =>
    if r.rc = 0 then { s with down := s.down.tail, dest := .paused }
    else { s with down := consume r.count s.down }
  | .unpause, rc => s.unpaused rc
  | .destroy, true => { s with dest := .absent }
  | _, _ => s

def step (s : Handover) : HandoverAct → Option Handover
  | .sender ω => (s.sender.advance ω).bind fun (e, rest) =>
    if s.SenderMay e.1 e.2 then
      some { s.senderEffect e.1 e.2 with
        sender := rest
        sendStage := s.sendStage.next e.1 e.2 }
    else none
  | .receiver ω => (s.receiver.advance ω).bind fun (e, rest) =>
    if s.ReceiverMay e.1 e.2 then
      some { s.receiverEffect e.1 e.2 with
        receiver := rest
        receiveStage := s.receiveStage.next e.1 e.2 }
    else none
  | .killSender => if s.sender.result.isSome then none else some { s with sender := .fault }
  | .killReceiver => if s.receiver.result.isSome then none else some { s with receiver := .fault }

/-! ### One guest -/

/-- What holds in every state. -/
structure Inv (s : Handover) : Prop where
  sender : s.sender.wpOn SendStage.Filled SendStage.monitor SendStage.Promise (fun _ => True)
    s.sendStage
  receiver : s.receiver.wpOn ReceiveStage.Any ReceiveStage.monitor ReceiveStage.Promise
    (fun _ => True) s.receiveStage
  /-- What the sender has read, the receiver has written. -/
  got : s.sendStage.got <+: s.receiveStage.put
  up : s.sendStage.failed = false → s.sendStage.got ++ s.up = s.receiveStage.put
  /-- Before there is an image, there is nothing behind it. -/
  image : s.sendStage.imagePut = false → .image ∉ s.down ∧ s.sendStage.goPut = 0 ∧
    s.receiveStage.restored = false
  behind : Behind (fun post => post.length ≤ s.sendStage.goPut ∧ ∀ i ∈ post, i.isByte = true)
    s.down
  /-- Once the image is read, all that is under way has been written behind it. -/
  after : s.receiveStage.restored = true →
    s.receiveStage.goTaken + s.down.length ≤ s.sendStage.goPut ∧ ∀ i ∈ s.down, i.isByte = true
  fresh : s.receiveStage.restored = false → s.receiveStage.goTaken = 0
  tried : s.sendStage.goTried = false → s.sendStage.goPut = 0
  asleep : s.sendStage.awake = false → s.source ≠ .running
  source : s.source = .running → s.sendStage.goTried = false ∨ s.sendStage.Cleared
  destroyed : s.source = .destroyed → successText <+: s.sendStage.got
  dest : s.dest ≠ .absent → s.receiveStage.restored = true
  running : s.dest = .running → 0 < s.receiveStage.goTaken
  gone : s.receiveStage.gone = true → s.dest = .absent
  started : s.receiveStage.started = true → s.dest = .running
  said : s.receiveStage.gone = false → s.receiveStage.put.length ≤ 54 + 34 + 39 + 1
  honest : s.receiveStage.started = false → ¬successText <+: s.receiveStage.put

theorem Inv.init (m : Migration) : (start m).Inv where
  sender := SendStage.wpOn_migrateDomain m.sendEndian m.named m.config
  receiver := ReceiveStage.wpOn_migrateReceive m.receiveEndian m.daemonize
  got := List.prefix_rfl
  up _ := rfl
  image _ := ⟨nofun, rfl, rfl⟩
  behind pre post h := by simp [start] at h
  after := nofun
  fresh _ := rfl
  tried _ := rfl
  asleep := nofun
  source _ := Or.inl rfl
  destroyed := nofun
  dest h := absurd rfl h
  running := nofun
  gone := nofun
  started := nofun
  said _ := Nat.zero_le _
  honest _ h := by simpa [start, ReceiveStage.start, successText] using h.length_le

variable {s s' : Handover}

theorem filled_of_senderMay {o : XlOp} {r : XlRes o} (h : s.SenderMay o r) :
    s.sendStage.Filled o r := by
  cases o with
  | readExactly n =>
    intro hr
    obtain ⟨hn, hbuf⟩ := h hr
    rw [hbuf, List.length_take, Nat.min_eq_left hn]
  | _ => trivial

/-- **The sender writes**: before the image, or behind it while the guest is suspended. -/
theorem Inv.sender_write {rest : XlCode ℤ} {data : List UInt8} {w : WriteEnd} (h : s.Inv)
    (hobs : s.sendStage.imagePut = true → s.sendStage.awake = false)
    (hrest : rest.wpOn SendStage.Filled SendStage.monitor SendStage.Promise (fun _ => True)
      (s.sendStage.next (.writeExactly data) w)) :
    Inv { s with
      sender := rest
      down := s.down ++ (SendStage.written data w).map .byte
      sendStage := s.sendStage.next (.writeExactly data) w } := by
  have hbytes : Item.image ∉ (SendStage.written data w).map Item.byte := by
    simp
  have hall (items : List Item) (hitems : ∀ i ∈ items, i.isByte = true) :
      ∀ i ∈ items ++ (SendStage.written data w).map Item.byte, i.isByte = true := by
    simpa [or_imp, forall_and, Item.isByte] using hitems
  cases himage : s.sendStage.imagePut with
  | false =>
    have hnext : s.sendStage.next (.writeExactly data) w = s.sendStage := by
      simp [SendStage.next, himage]
    obtain ⟨hnone, hzero, hnot⟩ := h.image himage
    rw [hnext] at hrest ⊢
    refine { h with
      sender := hrest
      image := fun _ => ⟨?_, hzero, hnot⟩
      behind := ?_
      after := ?_ }
    · rw [List.mem_append]
      exact not_or.mpr ⟨hnone, hbytes⟩
    · apply behind_of_notMem
      rw [List.mem_append]
      exact not_or.mpr ⟨hnone, hbytes⟩
    · exact fun hyes => (Bool.false_ne_true (hnot.symm.trans hyes)).elim
  | true =>
    have hnext : s.sendStage.next (.writeExactly data) w =
        { s.sendStage with
          goTried := true
          goPut := s.sendStage.goPut + (SendStage.written data w).length } := by
      simp [SendStage.next, himage]
    rw [hnext] at hrest ⊢
    exact { h with
      sender := hrest
      image := fun hnot => (Bool.false_ne_true (hnot.symm.trans himage)).elim
      behind := behind_append hbytes h.behind fun post hpost =>
        ⟨by
          rw [List.length_append, List.length_map]
          exact Nat.add_le_add_right hpost.1 _, hall post hpost.2⟩
      after := fun hrestored =>
        ⟨by
          have hafter := (h.after hrestored).1
          show s.receiveStage.goTaken + (s.down ++ _).length ≤ s.sendStage.goPut + _
          rw [List.length_append, List.length_map]
          omega, hall s.down (h.after hrestored).2⟩
      tried := nofun
      source := fun hrunning => absurd hrunning (h.asleep (hobs himage)) }

/-- **The sender reads.** -/
theorem Inv.sender_read {rest : XlCode ℤ} {n : ℕ} {r : ReadEnd} (h : s.Inv)
    (hobs : s.sendStage.failed = false) (hmay : s.SenderMay (.readExactly n) r)
    (hrest : rest.wpOn SendStage.Filled SendStage.monitor SendStage.Promise (fun _ => True)
      (s.sendStage.next (.readExactly n) r)) :
    Inv { s with
      sender := rest
      up := s.up.drop (if r.rc = 0 then n else r.count)
      sendStage := s.sendStage.next (.readExactly n) r } := by
  by_cases hr : r.rc = 0
  · obtain ⟨-, hbuf⟩ := hmay hr
    have hnext : s.sendStage.next (.readExactly n) r =
        { s.sendStage with got := s.sendStage.got ++ s.up.take n } := by
      simp [SendStage.next, hr, hbuf]
    have hput : (s.sendStage.got ++ s.up.take n) ++ s.up.drop n = s.receiveStage.put := by
      rw [List.append_assoc, List.take_append_drop]
      exact h.up hobs
    rw [hnext] at hrest ⊢
    rw [if_pos hr]
    refine { h with
      sender := hrest
      got := ⟨_, hput⟩
      up := fun _ => hput
      source := fun hrunning => (h.source hrunning).imp_right fun hcleared => ?_
      destroyed := fun hdestroyed => (h.destroyed hdestroyed).trans (List.prefix_append _ _) }
    show _ ≤ (s.sendStage.got ++ _).length
    rw [List.length_append]
    exact Nat.le_add_right_of_le hcleared
  · have hnext : s.sendStage.next (.readExactly n) r = { s.sendStage with failed := true } := by
      simp [SendStage.next, hr]
    rw [hnext] at hrest ⊢
    exact { h with sender := hrest, up := nofun }

/-- **The sender suspends the guest** and writes its image, once. -/
theorem Inv.sender_suspend {rest : XlCode ℤ} {r : SuspendEnd} (h : s.Inv)
    (hobs : s.sendStage.imagePut = false)
    (hrest : rest.wpOn SendStage.Filled SendStage.monitor SendStage.Promise (fun _ => True)
      (s.sendStage.next .suspend r)) :
    Inv { s.senderEffect .suspend r with
      sender := rest
      sendStage := s.sendStage.next .suspend r } := by
  obtain ⟨hnone, hzero, hnot⟩ := h.image hobs
  have hrestored {P : Prop} (hyes : s.receiveStage.restored = true) : P :=
    (Bool.false_ne_true (hnot.symm.trans hyes)).elim
  by_cases hr : r.rc = 0
  · have hnext : s.sendStage.next .suspend r =
        { s.sendStage with imagePut := true, awake := false } := if_pos hr
    have heffect : s.senderEffect .suspend r =
        { s with down := s.down ++ [.image], source := .suspended } := if_pos hr
    rw [hnext] at hrest ⊢
    rw [heffect]
    exact { h with
      sender := hrest
      image := nofun
      behind := behind_concat hnone ⟨Nat.zero_le _, nofun⟩
      after := fun hyes => hrestored hyes
      asleep := nofun
      source := nofun
      destroyed := nofun }
  · have hnext : s.sendStage.next .suspend r = s.sendStage := if_neg hr
    have heffect : s.senderEffect .suspend r = { s with
        down := s.down ++ [.torn]
        source := if r.suspended then .suspended else s.source } := if_neg hr
    have htorn : Item.image ∉ s.down ++ [.torn] := by
      simpa using hnone
    rw [hnext] at hrest ⊢
    rw [heffect]
    refine { h with
      sender := hrest
      image := fun _ => ⟨htorn, hzero, hnot⟩
      behind := behind_of_notMem htorn
      after := fun hyes => hrestored hyes
      asleep := fun hawake => ?_
      source := fun hrunning => ?_
      destroyed := fun hdestroyed => ?_ }
    all_goals cases hsus : r.suspended <;> simp_all
    · exact h.asleep hawake
    · exact h.source hrunning
    · exact h.destroyed hdestroyed

/-- **The sender wakes the guest up.** -/
theorem Inv.sender_resume {rest : XlCode ℤ} {executes : Bool} (h : s.Inv)
    (hobs : s.sendStage.goTried = false ∨ s.sendStage.Cleared)
    (hrest : rest.wpOn SendStage.Filled SendStage.monitor SendStage.Promise (fun _ => True)
      (s.sendStage.next .resume executes)) :
    Inv { s.senderEffect .resume executes with
      sender := rest
      sendStage := s.sendStage.next .resume executes } := by
  cases executes with
  | false => exact { h with sender := hrest, asleep := nofun }
  | true =>
    by_cases hsource : s.source = .destroyed
    · have heffect : s.senderEffect .resume true = s := if_pos hsource
      rw [heffect]
      exact { h with sender := hrest, asleep := nofun }
    · have heffect : s.senderEffect .resume true = { s with source := .running } := if_neg hsource
      rw [heffect]
      exact { h with sender := hrest, asleep := nofun, source := fun _ => hobs, destroyed := nofun }

/-- **The sender gives the guest up.** -/
theorem Inv.sender_destroy {rest : XlCode ℤ} {done : Bool} (h : s.Inv)
    (hobs : s.sendStage.got = successText)
    (hrest : rest.wpOn SendStage.Filled SendStage.monitor SendStage.Promise (fun _ => True)
      (s.sendStage.next .destroy done)) :
    Inv { s.senderEffect .destroy done with
      sender := rest
      sendStage := s.sendStage.next .destroy done } := by
  cases done with
  | false => exact { h with sender := hrest }
  | true =>
    exact { h with
      sender := hrest
      asleep := fun _ => nofun
      source := nofun
      destroyed := fun _ => hobs ▸ List.prefix_rfl }

theorem Inv.sender_step {ω : (o : XlOp) → XlRes o} (h : s.Inv)
    (hs : s.step (.sender ω) = some s') : s'.Inv := by
  obtain ⟨⟨⟨o, r⟩, rest⟩, hadv, hstep⟩ := Option.bind_eq_some_iff.mp hs
  dsimp only at hstep
  split_ifs at hstep with hmay
  obtain rfl := Option.some.inj hstep
  obtain ⟨hobs, hrest⟩ := Prog.wpOn_advance h.sender hadv (filled_of_senderMay hmay)
  cases o with
  | writeExactly data => exact h.sender_write hobs hrest
  | readExactly n => exact h.sender_read hobs hmay hrest
  | suspend => exact h.sender_suspend hobs hrest
  | resume => exact h.sender_resume hobs hrest
  | destroy => exact h.sender_destroy hobs hrest
  | closeSend => exact { h with sender := hrest }
  | host c => exact { h with sender := hrest }
  | rename => exact { h with sender := hrest }
  | unpause => exact { h with sender := hrest }
  | restore => exact { h with sender := hrest }

/-- **The receiver writes.** -/
theorem Inv.receiver_write {rest : XlCode ℤ} {data : List UInt8} {w : WriteEnd} (h : s.Inv)
    (hobs : s.receiveStage.Observes (.writeExactly data))
    (hrest : rest.wpOn ReceiveStage.Any ReceiveStage.monitor ReceiveStage.Promise (fun _ => True)
      (s.receiveStage.next (.writeExactly data) w)) :
    Inv { s with
      receiver := rest
      up := s.up ++ SendStage.written data w
      receiveStage := s.receiveStage.next (.writeExactly data) w } := by
  obtain ⟨hsaid, hhonest⟩ := hobs
  have hwritten : SendStage.written data w <+: data := by
    unfold SendStage.written
    split_ifs
    · exact List.prefix_rfl
    · exact List.take_prefix _ _
  refine { h with
    receiver := hrest
    got := h.got.trans (List.prefix_append _ _)
    up := fun hfailed => ?_
    said := fun hgone => ?_
    honest := fun hstarted hsuccess => ?_ }
  · show _ ++ (_ ++ _) = s.receiveStage.put ++ _
    rw [← h.up hfailed, List.append_assoc]
  · have hlen := hwritten.length_le
    have hroom := hsaid.resolve_left (Bool.eq_false_iff.mp hgone)
    show (s.receiveStage.put ++ _).length ≤ _
    rw [List.length_append]
    omega
  · refine hhonest.resolve_left (Bool.eq_false_iff.mp hstarted) ?_
    exact List.IsPrefix.trans hsuccess ((List.prefix_append_right_inj _).mpr hwritten)

/-- **The receiver reads.** -/
theorem Inv.receiver_read {rest : XlCode ℤ} {n : ℕ} {r : ReadEnd} (h : s.Inv)
    (hmay : s.ReceiverMay (.readExactly n) r)
    (hrest : rest.wpOn ReceiveStage.Any ReceiveStage.monitor ReceiveStage.Promise (fun _ => True)
      (s.receiveStage.next (.readExactly n) r)) :
    Inv { s with
      receiver := rest
      down := consume (if r.rc = 0 then n else r.count) s.down
      receiveStage := s.receiveStage.next (.readExactly n) r } := by
  cases hrestored : s.receiveStage.restored with
  | false =>
    have hnext : s.receiveStage.next (.readExactly n) r = s.receiveStage := by
      simp [ReceiveStage.next, hrestored]
    rw [hnext] at hrest ⊢
    exact { h with
      receiver := hrest
      image := fun himage => ⟨notMem_consume _ (h.image himage).1, (h.image himage).2⟩
      behind := behind_consume _ h.behind
      after := fun hyes => (Bool.false_ne_true (hrestored.symm.trans hyes)).elim }
  | true =>
    obtain ⟨hafter, hbytes⟩ := h.after hrestored
    have hsub (k : ℕ) : ∀ i ∈ s.down.drop k, i.isByte = true :=
      fun i hi => hbytes i (List.mem_of_mem_drop hi)
    have himage (himage : s.sendStage.imagePut = false) : False :=
      Bool.false_ne_true ((h.image himage).2.2.symm.trans hrestored)
    rw [consume_of_bytes _ hbytes]
    by_cases hr : r.rc = 0
    · have hnext : s.receiveStage.next (.readExactly n) r =
          { s.receiveStage with goTaken := s.receiveStage.goTaken + n } :=
        if_pos ⟨hrestored, hr⟩
      have hn := (hmay hr).2.1
      rw [hnext] at hrest ⊢
      rw [if_pos hr]
      refine { h with
        receiver := hrest
        image := fun hno => (himage hno).elim
        behind := behind_of_suffix h.behind (List.drop_suffix _ _)
        after := fun _ => ⟨?_, hsub n⟩
        fresh := fun hno => (Bool.false_ne_true (hno.symm.trans hrestored)).elim
        running := fun hrunning => Nat.lt_of_lt_of_le (h.running hrunning) (Nat.le_add_right _ _) }
      show s.receiveStage.goTaken + n + (s.down.drop n).length ≤ s.sendStage.goPut
      rw [List.length_drop]
      omega
    · have hnext : s.receiveStage.next (.readExactly n) r = s.receiveStage := by
        simp [ReceiveStage.next, hr]
      rw [hnext] at hrest ⊢
      rw [if_neg hr]
      refine { h with
        receiver := hrest
        image := fun hno => (himage hno).elim
        behind := behind_of_suffix h.behind (List.drop_suffix _ _)
        after := fun _ => ⟨?_, hsub _⟩ }
      show s.receiveStage.goTaken + (s.down.drop r.count).length ≤ s.sendStage.goPut
      rw [List.length_drop]
      omega

/-- **The receiver restores the guest**, once. -/
theorem Inv.receiver_restore {rest : XlCode ℤ} {r : RestoreEnd} (h : s.Inv)
    (hobs : s.receiveStage.Observes .restore) (hmay : s.ReceiverMay .restore r)
    (hrest : rest.wpOn ReceiveStage.Any ReceiveStage.monitor ReceiveStage.Promise (fun _ => True)
      (s.receiveStage.next .restore r)) :
    Inv { s.receiverEffect .restore r with
      receiver := rest
      receiveStage := s.receiveStage.next .restore r } := by
  obtain ⟨hfresh, hgone⟩ := hobs
  have hdest : s.dest = .absent := by
    by_contra hpresent
    exact Bool.false_ne_true (hfresh.symm.trans (h.dest hpresent))
  by_cases hr : r.rc = 0
  · obtain ⟨post, hdown⟩ : ∃ post, s.down = .image :: post := by
      obtain ⟨i, post, hcons⟩ := List.exists_cons_of_ne_nil (fun hnil : s.down = [] => by
        have hhead := hmay hr
        rw [hnil] at hhead
        cases hhead)
      have hhead := hmay hr
      rw [hcons] at hhead
      exact ⟨post, by rw [hcons, Option.some.inj hhead]⟩
    have hnext : s.receiveStage.next .restore r = { s.receiveStage with restored := true } :=
      if_pos hr
    have heffect : s.receiverEffect .restore r =
        { s with down := s.down.tail, dest := .paused } := if_pos hr
    rw [hnext] at hrest ⊢
    rw [heffect]
    obtain ⟨hlen, hbytes⟩ := h.behind [] post hdown
    refine { h with
      receiver := hrest
      image := fun himage => ?_
      behind := behind_of_suffix h.behind (List.tail_suffix _)
      after := fun _ => ?_
      fresh := nofun
      dest := fun _ => rfl
      running := nofun
      gone := fun hyes => absurd hyes (Bool.eq_false_iff.mp hgone)
      started := fun hstarted => ?_ }
    · refine absurd ?_ (h.image himage).1
      rw [hdown]
      exact List.mem_cons_self
    · rw [hdown, h.fresh hfresh, Nat.zero_add]
      exact ⟨hlen, hbytes⟩
    · have hrunning := h.started hstarted
      rw [hdest] at hrunning
      cases hrunning
  · have hnext : s.receiveStage.next .restore r = s.receiveStage := if_neg hr
    have heffect : s.receiverEffect .restore r = { s with down := consume r.count s.down } :=
      if_neg hr
    rw [hnext] at hrest ⊢
    rw [heffect]
    exact { h with
      receiver := hrest
      image := fun himage => ⟨notMem_consume _ (h.image himage).1, (h.image himage).2⟩
      behind := behind_consume _ h.behind
      after := fun hyes => (Bool.false_ne_true (hfresh.symm.trans hyes)).elim }

/-- **The receiver unpauses the guest.** -/
theorem Inv.receiver_unpause {rest : XlCode ℤ} {rc : ℤ} (h : s.Inv)
    (hobs : s.receiveStage.Observes .unpause) (hmay : s.MayUnpause rc)
    (hrest : rest.wpOn ReceiveStage.Any ReceiveStage.monitor ReceiveStage.Promise (fun _ => True)
      (s.receiveStage.unpaused rc)) :
    Inv { s.unpaused rc with
      receiver := rest
      receiveStage := s.receiveStage.unpaused rc } := by
  by_cases hrc : rc = 0
  · have hnext : s.receiveStage.unpaused rc = { s.receiveStage with started := true } := if_pos hrc
    have heffect : s.unpaused rc = { s with dest := .running } := if_pos hrc
    have hpaused := hmay hrc
    have hrestored : s.receiveStage.restored = true := h.dest (by rw [hpaused]; nofun)
    rw [hnext] at hrest ⊢
    rw [heffect]
    refine { h with
      receiver := hrest
      dest := fun _ => hrestored
      running := fun _ => hobs hrestored
      gone := fun hgone => ?_
      started := fun _ => rfl
      honest := nofun }
    have habsent := h.gone hgone
    rw [hpaused] at habsent
    cases habsent
  · have hnext : s.receiveStage.unpaused rc = s.receiveStage := if_neg hrc
    have heffect : s.unpaused rc = s := if_neg hrc
    rw [hnext] at hrest ⊢
    rw [heffect]
    exact { h with receiver := hrest }

/-- **The receiver destroys its copy.** -/
theorem Inv.receiver_destroy {rest : XlCode ℤ} {done : Bool} (h : s.Inv)
    (hobs : s.receiveStage.started = false)
    (hrest : rest.wpOn ReceiveStage.Any ReceiveStage.monitor ReceiveStage.Promise (fun _ => True)
      (s.receiveStage.next .destroy done)) :
    Inv { s.receiverEffect .destroy done with
      receiver := rest
      receiveStage := s.receiveStage.next .destroy done } := by
  cases done with
  | false => exact { h with receiver := hrest }
  | true =>
    exact { h with
      receiver := hrest
      dest := fun hpresent => absurd rfl hpresent
      running := nofun
      gone := fun _ => rfl
      started := fun hstarted => absurd hstarted (Bool.eq_false_iff.mp hobs)
      said := nofun }

theorem Inv.receiver_step {ω : (o : XlOp) → XlRes o} (h : s.Inv)
    (hs : s.step (.receiver ω) = some s') : s'.Inv := by
  obtain ⟨⟨⟨o, r⟩, rest⟩, hadv, hstep⟩ := Option.bind_eq_some_iff.mp hs
  dsimp only at hstep
  split_ifs at hstep with hmay
  obtain rfl := Option.some.inj hstep
  obtain ⟨hobs, hrest⟩ := Prog.wpOn_advance h.receiver hadv trivial
  cases o with
  | writeExactly data => exact h.receiver_write hobs hrest
  | readExactly n => exact h.receiver_read hmay hrest
  | restore => exact h.receiver_restore hobs hmay hrest
  | unpause => exact h.receiver_unpause hobs hmay hrest
  | destroy => exact h.receiver_destroy hobs hrest
  | closeSend => exact { h with receiver := hrest }
  | host c => exact { h with receiver := hrest }
  | rename => exact { h with receiver := hrest }
  | suspend => exact { h with receiver := hrest }
  | resume => exact { h with receiver := hrest }

theorem Inv.step {a : HandoverAct} (h : s.Inv) (hs : s.step a = some s') : s'.Inv := by
  cases a with
  | sender ω => exact h.sender_step hs
  | receiver ω => exact h.receiver_step hs
  | killSender =>
    rw [Handover.step] at hs
    split_ifs at hs
    obtain rfl := Option.some.inj hs
    exact { h with sender := trivial }
  | killReceiver =>
    rw [Handover.step] at hs
    split_ifs at hs
    obtain rfl := Option.some.inj hs
    exact { h with receiver := trivial }

theorem inv_of_reach (h : Reach step Initial s) : s.Inv := by
  refine h.invariant ?_ fun _ _ _ hinv hs => hinv.step hs
  rintro _ ⟨m, rfl⟩
  exact Inv.init m

/-- A guest that runs on the other host has been given the permission to go. -/
theorem Inv.tried_of_running (h : s.Inv) (hdest : s.dest = .running) :
    s.sendStage.goTried = true := by
  have hrestored : s.receiveStage.restored = true := h.dest (by rw [hdest]; nofun)
  have htaken := h.running hdest
  have hafter := (h.after hrestored).1
  by_contra hnot
  have hput := h.tried (Bool.eq_false_iff.mpr hnot)
  omega

/-- A sender that is cleared faces an empty host. -/
theorem Inv.absent_of_cleared (h : s.Inv) (hcleared : s.sendStage.Cleared) : s.dest = .absent := by
  by_contra hpresent
  have hgone : s.receiveStage.gone = false := by
    by_contra hgone
    exact hpresent (h.gone (Bool.not_eq_false _ ▸ hgone))
  have hsaid := h.said hgone
  have hlen := h.got.length_le
  have hcleared : 54 + 34 + 39 + 1 + 44 ≤ s.sendStage.got.length := hcleared
  omega

/-- What the sender takes for success is success. -/
theorem Inv.running_of_success (h : s.Inv) (hsuccess : successText <+: s.sendStage.got) :
    s.dest = .running := by
  by_contra hnot
  have hstarted : s.receiveStage.started = false := by
    by_contra hstarted
    exact hnot (h.started (Bool.not_eq_false _ ▸ hstarted))
  exact h.honest hstarted (hsuccess.trans h.got)

/-- Where the sender has not tried to give the permission or is cleared, the guest does not run
on the other host. -/
theorem Inv.not_running (h : s.Inv)
    (hown : s.sendStage.goTried = false ∨ s.sendStage.Cleared) : s.dest ≠ .running := by
  intro hdest
  rcases hown with hnot | hcleared
  · exact Bool.false_ne_true (hnot.symm.trans (h.tried_of_running hdest))
  · rw [h.absent_of_cleared hcleared] at hdest
    cases hdest

/-- **One guest.** The guest never runs on both hosts, in any interleaving of the two sides,
whichever of their operations fail, and whenever one of the processes is killed. -/
theorem one_guest (h : Reach step Initial s) : ¬(s.source = .running ∧ s.dest = .running) := by
  rintro ⟨hsource, hdest⟩
  have hinv := inv_of_reach h
  exact hinv.not_running (hinv.source hsource) hdest

/-- Answers under which everything succeeds. -/
def xlWell : (o : XlOp) → XlRes o
  | .host _ => (0 : ℤ)
  | .writeExactly data => ⟨0, data.length⟩
  | .readExactly _ => ⟨0, [], 0⟩
  | .closeSend => ()
  | .suspend => ⟨0, true⟩
  | .restore => ⟨0, true, 0⟩
  | .rename => (0 : ℤ)
  | .unpause => (0 : ℤ)
  | .resume => true
  | .destroy => true

/-- The same with something read. -/
def reading (buf : List UInt8) : (o : XlOp) → XlRes o
  | .readExactly _ => ⟨0, buf, 0⟩
  | o => xlWell o

/-- A guest with a configuration of one byte. -/
def oneByte : Migration := ⟨.little, .little, false, [7], false⟩

/-- A migration in which nothing fails. -/
def smoothRun : List HandoverAct := List.flatten
  [ [.receiver xlWell], List.replicate 3 (.sender xlWell),
    [.sender (reading migrateReceiverBanner)], List.replicate 3 (.sender xlWell),
    [.receiver (reading ((header .little [7]).toBytes .little)),
      .receiver (reading (optdata .little [7]).data)], List.replicate 10 (.receiver xlWell),
    [.sender (reading migrateReceiverReady), .sender xlWell,
      .receiver (reading migratePermissionToGo)], List.replicate 4 (.receiver xlWell),
    [.sender (reading migrateReport), .sender (reading [0]), .sender xlWell] ]

theorem smoothRun_ends : (exec step (start oneByte) smoothRun).map
    (fun s => (s.sender.result, s.receiver.result, s.source, s.dest)) =
      some (some 0, some 0, .destroyed, .running) := by
  decide

/-- The guest is on the other host at the end. -/
theorem one_guest_smooth : ∃ s, Reach step Initial s ∧ s.dest = .running ∧
    ¬(s.source = .running ∧ s.dest = .running) := by
  obtain ⟨s, hs, hend⟩ := Option.map_eq_some_iff.mp smoothRun_ends
  simp only [Prod.mk.injEq] at hend
  have hreach := (Reach.start (I := Initial) ⟨oneByte, rfl⟩).of_exec hs
  exact ⟨s, hreach, hend.2.2.2, one_guest hreach⟩

/-- **What the exit status says.** A guest that is given up on its own host runs on the other one.
A sender that reports success has had the guest started there. One that fails otherwise than
badly has kept the guest, and it will not run on the other host. A receiver that reports success
has the guest running or has destroyed it. -/
theorem verdict (h : Reach step Initial s) :
    (s.source = .destroyed → s.dest = .running) ∧
      (s.sender.result = some 0 → s.dest = .running) ∧
      (∀ status, s.sender.result = some status → status ≠ 0 → status ≠ -errorBadfail →
        s.dest ≠ .running ∧ s.source ≠ .destroyed) ∧
      (s.receiver.result = some 0 → s.dest = .running ∨ s.dest = .absent) := by
  have hinv := inv_of_reach h
  have hdestroyed (hs : s.source = .destroyed) : s.dest = .running :=
    hinv.running_of_success (hinv.destroyed hs)
  have hpromise (status : ℤ) (hret : s.sender.result = some status) :
      s.sendStage.Promise status := by
    have hsender := hinv.sender
    rwa [Prog.result_eq_some.mp hret] at hsender
  refine ⟨hdestroyed, fun hret => ?_, fun status hret hfail hbad => ?_, fun hret => ?_⟩
  · exact hinv.running_of_success ((hpromise 0 hret).1 rfl ▸ List.prefix_rfl)
  · have hnot := hinv.not_running ((hpromise status hret).2 hfail hbad)
    exact ⟨hnot, fun hs => hnot (hdestroyed hs)⟩
  · have hreceiver := hinv.receiver
    rw [Prog.result_eq_some.mp hret] at hreceiver
    exact (hreceiver rfl).imp hinv.started hinv.gone

/-- A migration in which nothing fails. -/
theorem verdict_smooth : ∃ s, Reach step Initial s ∧ s.sender.result = some 0 ∧
    s.source = .destroyed ∧ (s.source = .destroyed → s.dest = .running) := by
  obtain ⟨s, hs, hend⟩ := Option.map_eq_some_iff.mp smoothRun_ends
  simp only [Prod.mk.injEq] at hend
  have hreach := (Reach.start (I := Initial) ⟨oneByte, rfl⟩).of_exec hs
  exact ⟨s, hreach, hend.1, hend.2.2.1, (verdict hreach).1⟩

end Handover

end Xl

end OpenLog
