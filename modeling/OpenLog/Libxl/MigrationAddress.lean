import Mathlib
import OpenLog.Libxl.Migrate

/-!
# The address of a migration

Prepare3 binds a port on the destination host, and Perform3 on the source host connects to what
it reads off a URI: the one that Prepare3 has left in `uri_out`, or else the client's. Finish3
reads the same URI. The function that picks the address in Prepare3 is cut out here
(`OpenLog.Libxl.prepareAddress`, `OpenLog.Libxl.assign_eq`).

What Prepare3 writes is read back as it was written (`OpenLog.Libxl.parseUri_formatUri`). So
both ends use the same address unless the client gives an empty URI, whose empty host name
Prepare3 accepts and the other two refuse, or one with a port that does not fit into the 16 bits
of a TCP port (`OpenLog.Libxl.same_address_iff`).
-/

namespace OpenLog

namespace Libxl

open Logic

/-! ### Writing and reading -/

/-- The last colon of a URI stands before a part without colons. -/
theorem splitLastColon_append (hostname : List Char) {port : List Char} (h : ':' ∉ port) :
    splitLastColon (hostname ++ ':' :: port) = some (hostname, port) := by
  have hnone : splitLastColon port = none := by
    induction port with
    | nil => rfl
    | cons c cs ih =>
      obtain ⟨hc, hcs⟩ := List.ne_and_not_mem_of_not_mem_cons h
      simp [splitLastColon, ih hcs, hc.symm]
  induction hostname with
  | nil => simp [splitLastColon, hnone]
  | cons c hostname ih => simp [splitLastColon, ih]

/-- The digits of a number. -/
theorem toList_toString {n : ℤ} (hn : 0 ≤ n) :
    (toString n).toList = Nat.toDigits 10 n.toNat := by
  rw [Int.toString_eq_repr, Int.repr_eq_if, if_pos hn, Nat.toList_repr]

theorem colon_not_mem_toString {n : ℤ} (hn : 0 ≤ n) : ':' ∉ (toString n).toList := by
  rw [toList_toString hn]
  intro hmem
  exact absurd (Nat.isDigit_of_mem_toDigits (by decide) (by decide) hmem) (by decide)

/-- `virStrToLong_i` reads back what `%d` writes, at least without a sign. -/
def Exact (strToLong : List Char → Option ℤ) : Prop :=
  ∀ n : ℤ, 0 ≤ n → n < 2 ^ 31 → strToLong (toString n).toList = some n

theorem exact_readDecimal : Exact readDecimal := by
  intro n hn hlt
  rw [toList_toString hn, readDecimal]
  have hdigits : (Nat.toDigits 10 n.toNat).all Char.isDigit = true := by
    rw [List.all_eq_true]
    exact fun c hc => Nat.isDigit_of_mem_toDigits (by decide) (by decide) hc
  have hread : (Nat.toDigits 10 n.toNat).foldl (fun n c => 10 * n + (c.toNat - '0'.toNat)) 0 =
      n.toNat := by
    rw [← Nat.ofDigitChars_eq_foldl, Nat.ofDigitChars_ten_toDigits]
  simp only [hread, hdigits, ne_eq, Nat.toDigits_ne_nil, not_false_eq_true, and_self, if_true]
  rw [if_pos (by omega), Int.toNat_of_nonneg hn]

section Parse

variable {strToLong : List Char → Option ℤ} {uri : Option Uri}

/-- **Writing and reading an address.** -/
theorem parseUri_formatUri (hexact : Exact strToLong) (hostname : List Char) {port : ℤ}
    (hport : 0 ≤ port) (hlt : port < 2 ^ 31) :
    parseUri strToLong (some (formatUri hostname port)) =
      if hostname = [] then none else some (hostname, port) := by
  rw [formatUri, parseUri, splitLastColon_append hostname (colon_not_mem_toString hport)]
  show (strToLong _).bind _ = _
  rw [hexact port hport hlt]
  rfl

/-- Memory permitting, parsing gives what is read off the URI. -/
theorem canReturn_doParseURI {parsed : List Char × ℤ} :
    (doParseURI strToLong uri).CanReturn (some parsed) ↔ parseUri strToLong uri = some parsed := by
  rcases uri with _ | uri
  · simp [doParseURI, parseUri]
  · rcases hsplit : splitLastColon uri with _ | ⟨hostname, port⟩
    · simp [doParseURI, parseUri, hsplit, prim, report]
    · rcases hnumber : strToLong port with _ | n
      · simp [doParseURI, parseUri, hsplit, hnumber, report]
      · by_cases hnil : hostname = []
        · simp [doParseURI, parseUri, hsplit, hnumber, hnil, report]
        · simp [doParseURI, parseUri, hsplit, hnumber, hnil, prim, report]

end Parse

/-! ### The address in Prepare3 -/

/-- What Prepare3 has when it comes to its socket. -/
structure Address where
  hostname : List Char
  port : ℤ
  uriOut : Option Uri
  deriving DecidableEq

/-- `htons(port)`, the port that is bound. -/
def Address.sinPort (a : Address) : ℤ := a.port % 2 ^ 16

/-- The URI that the coordinator hands on. -/
def Address.handedOn (a : Address) (uriIn : Option Uri) : Option Uri := a.uriOut <|> uriIn

/-- The part of `libxlDomainMigratePrepare3` that picks the address. -/
def prepareAddress (strToLong : List Char → Option ℤ) (uriIn : Option Uri) :
    Code (Option Address) := do
  match uriIn with
  | none =>
    match ← getHostname with
    | none => return none
    | some hostname => choosePort hostname
  | some uri =>
    match ← doParseURI strToLong (some uri) with
    | none => return none
    | some (hostname, port) =>
      if port ≤ 0 then choosePort hostname
      else return some ⟨hostname, port, none⟩
where
  choosePort (hostname : List Char) : Code (Option Address) := do
    let port ← nextFreePort
    if port < 0 then
      report .internalError "Unable to find an unused migration port"
      return none
    else if !(← prim .virAsprintf) then
      report .noMemory ""
      return none
    else return some ⟨hostname, port, some (formatUri hostname port)⟩

/-- The rest of Prepare3. -/
def receiveAt : Option Address → Code (Int × Option Uri)
  | none => migratePrepare3.endjob .invalid none
  | some a => migratePrepare3.receive a.uriOut

theorem choosePort_bind (hostname : List Char) :
    prepareAddress.choosePort hostname >>= receiveAt = migratePrepare3.choosePort hostname := by
  simp only [prepareAddress.choosePort, migratePrepare3.choosePort, bind_assoc, Prog.ite_bind]
  rfl

theorem prepareAddress_bind (strToLong : List Char → Option ℤ) (uriIn : Option Uri) :
    prepareAddress strToLong uriIn >>= receiveAt = (do
      match uriIn with
      | none =>
        match ← getHostname with
        | none => migratePrepare3.endjob .invalid none
        | some hostname => migratePrepare3.choosePort hostname
      | some uri =>
        match ← doParseURI strToLong (some uri) with
        | none => migratePrepare3.endjob .invalid none
        | some (hostname, port) =>
          if port ≤ 0 then migratePrepare3.choosePort hostname
          else migratePrepare3.receive none) := by
  rcases uriIn with _ | uri
  · simp only [prepareAddress, bind_assoc]
    refine bind_congr fun hostname => ?_
    rcases hostname with _ | hostname
    · rfl
    · exact choosePort_bind hostname
  · simp only [prepareAddress, bind_assoc]
    refine bind_congr fun parsed => ?_
    rcases parsed with _ | ⟨hostname, port⟩
    · rfl
    · show (if port ≤ 0 then _ else _) >>= receiveAt = _
      rw [Prog.ite_bind, choosePort_bind]
      rfl

/-- **The part cut out is where it was.** -/
theorem assign_eq (strToLong : List Char → Option ℤ) (uriIn : Option Uri) (defn : Bool) :
    migratePrepare3.assign strToLong uriIn defn = (do
      deref defn
      if ← ask .isDuplicate then migratePrepare3.cleanup .invalid none
      else if !(← ask .assignDef) then migratePrepare3.cleanup .invalid none
      else if (← migrationJobStart .migrationOut migrationOut_ne_none) < 0 then
        migratePrepare3.cleanup .invalid none
      else prepareAddress strToLong uriIn >>= receiveAt) := by
  rw [prepareAddress_bind]
  rcases uriIn with _ | uri
  · rfl
  · rfl

/-! ### The same address at both ends -/

section Same

variable {strToLong : List Char → Option ℤ} {uriIn : Option Uri} {a : Address}

/-- Parsing the URI that is handed on yields the host that Prepare3 has, and the port that it
binds. -/
def SameAddress (strToLong : List Char → Option ℤ) (uriIn : Option Uri) (a : Address) : Prop :=
  (doParseURI strToLong (a.handedOn uriIn)).CanReturn (some (a.hostname, a.sinPort))

/-- The client's URI is not empty, and the number behind its last colon, if there is one, fits
into a TCP port. -/
def Fits (strToLong : List Char → Option ℤ) (uriIn : Option Uri) : Prop :=
  ∀ uri ∈ uriIn, uri ≠ [] ∧ ∀ hostname port n, splitLastColon uri = some (hostname, port) →
    strToLong port = some n → n < 2 ^ 16

/-- The ports that the loop tries. -/
theorem nextFreePortFrom_canReturn {startPort bit left : ℕ} {port : ℤ}
    (h : (nextFreePortFrom startPort bit left).CanReturn port) :
    port = -1 ∨ startPort + bit ≤ port ∧ port < startPort + bit + left := by
  induction left generalizing bit with
  | zero => exact .inl h.symm
  | succ left ih =>
    obtain ⟨used, h⟩ := canReturn_ask.mp h
    rcases used with _ | _
    · obtain ⟨probe, h⟩ := h
      rcases probe with _ | _ | _
      · obtain ⟨_, h⟩ := h
        have hport : (startPort + bit : ℤ) = port := h
        omega
      · rcases ih h with hnone | hport
        · exact .inl hnone
        · omega
      · exact .inl h.symm
    · rcases ih h with hnone | hport
      · exact .inl hnone
      · omega

/-- A port that Prepare3 picks is read back. -/
theorem sameAddress_of_picked (hexact : Exact strToLong) {hostname : List Char} {port : ℤ}
    (hport : nextFreePort.CanReturn port) (hfree : ¬port < 0) :
    SameAddress strToLong uriIn ⟨hostname, port, some (formatUri hostname port)⟩ ↔
      hostname ≠ [] := by
  have hrange : port = -1 ∨ 49512 + 0 ≤ port ∧ port < 49512 + 0 + 64 :=
    nextFreePortFrom_canReturn hport
  have hfits : port % 2 ^ 16 = port := by omega
  rw [SameAddress, canReturn_doParseURI]
  show parseUri strToLong (some (formatUri hostname port)) = some (hostname, port % 2 ^ 16) ↔ _
  rw [parseUri_formatUri hexact hostname (by omega) (by omega), hfits]
  by_cases hnil : hostname = []
  · simp [hnil]
  · simp [hnil]

/-- What parsing yields tells whether a URI fits. -/
theorem fits_iff_of_parse {uri : Uri} {hostname : List Char} {port : ℤ}
    (h : parseUri strToLong (some uri) = some (hostname, port)) :
    (Fits strToLong (some uri) ↔ hostname ≠ [] ∧ port < 2 ^ 16) ∧ (0 < port → hostname ≠ []) := by
  rcases hsplit : splitLastColon uri with _ | ⟨hostname', digits⟩
  · simp only [parseUri, hsplit, Option.some.injEq, Prod.mk.injEq] at h
    obtain ⟨rfl, rfl⟩ := h
    simp [Fits, hsplit]
  · have huri : uri ≠ [] := by
      rintro rfl
      cases hsplit
    rcases hnumber : strToLong digits with _ | n
    · simp [parseUri, hsplit, hnumber] at h
    · simp only [parseUri, hsplit, hnumber, Option.bind_some] at h
      split_ifs at h with hnil
      obtain ⟨rfl, rfl⟩ := Prod.mk.inj (Option.some.inj h)
      refine ⟨⟨fun hfits => ⟨hnil, (hfits uri rfl).2 _ _ _ hsplit hnumber⟩, ?_⟩, fun _ => hnil⟩
      rintro ⟨-, hlt⟩ _ ⟨⟩
      refine ⟨huri, fun hostname port n' hsplit' hnumber' => ?_⟩
      rw [hsplit] at hsplit'
      obtain ⟨rfl, rfl⟩ := Prod.mk.inj (Option.some.inj hsplit')
      rw [hnumber] at hnumber'
      obtain rfl := Option.some.inj hnumber'
      exact hlt

/-- A port that the client has picked is bound as it is read if it fits. -/
theorem sameAddress_of_given {uri : Uri} {hostname : List Char} {port : ℤ}
    (h : parseUri strToLong (some uri) = some (hostname, port)) (hport : 0 < port) :
    SameAddress strToLong (some uri) ⟨hostname, port, none⟩ ↔ Fits strToLong (some uri) := by
  obtain ⟨hfits, hne⟩ := fits_iff_of_parse h
  rw [SameAddress, canReturn_doParseURI, hfits]
  show parseUri strToLong (some uri) = some (hostname, port % 2 ^ 16) ↔ _
  rw [h, Option.some_inj, Prod.mk.injEq]
  constructor
  · rintro ⟨-, heq⟩
    exact ⟨hne hport, by omega⟩
  · rintro ⟨-, hlt⟩
    exact ⟨rfl, by omega⟩

/-- The monitor that sees nothing. -/
def blind : Monitor Res Unit := ⟨fun _ _ _ => (), fun _ _ => True⟩

theorem blind_ignores (S : Op → Prop) (s : Unit) : blind.Ignores S s :=
  fun _ _ => ⟨trivial, fun _ => rfl⟩

/-- `virGetHostname` does not return an empty string. -/
def HostnameOk : (o : Op) → Res o → Prop
  | .getHostname, hostname => hostname ≠ some []
  | _, _ => True

/-- What is to be shown of the address, if there is one. -/
def Judged (strToLong : List Char → Option ℤ) (uriIn : Option Uri) (res : Option Address) : Prop :=
  ∀ a ∈ res, SameAddress strToLong uriIn a ↔ Fits strToLong uriIn

theorem judged_choosePort (hexact : Exact strToLong) {hostname : List Char}
    (hfits : hostname ≠ [] ↔ Fits strToLong uriIn) :
    (prepareAddress.choosePort hostname).wpOn (fun _ => HostnameOk) blind
      (fun res _ => Judged strToLong uriIn res) (fun _ => False) () := by
  refine nextFreePort_calls.wpOn_bind (blind_ignores _ _) fun port hport => ?_
  split_ifs with hneg
  · exact ⟨trivial, fun _ _ => nofun⟩
  · refine ⟨trivial, fun allocated _ => ?_⟩
    rcases allocated with _ | _
    · exact ⟨trivial, fun _ _ => nofun⟩
    · rintro a ⟨⟩
      exact (sameAddress_of_picked hexact hport hneg).trans hfits

theorem judged_prepareAddress (hexact : Exact strToLong) (uriIn : Option Uri) :
    (prepareAddress strToLong uriIn).wpOn (fun _ => HostnameOk) blind
      (fun res _ => Judged strToLong uriIn res) (fun _ => False) () := by
  rcases uriIn with _ | uri
  · refine ⟨trivial, fun hostname hhostname => ?_⟩
    rcases hostname with _ | hostname
    · exact nofun
    · refine judged_choosePort hexact ⟨fun _ => nofun, fun _ hnil => ?_⟩
      exact hhostname (congrArg some hnil)
  · refine (doParseURI_calls strToLong (some uri)).wpOn_bind (blind_ignores _ _) ?_
    rintro (_ | ⟨hostname, port⟩) hparsed
    · exact nofun
    · rw [canReturn_doParseURI] at hparsed
      show (if port ≤ 0 then _ else _ : Code (Option Address)).wpOn _ _ _ _ _
      split_ifs with hport
      · refine judged_choosePort hexact ?_
        rw [(fits_iff_of_parse hparsed).1]
        exact ⟨fun hne => ⟨hne, by omega⟩, And.left⟩
      · rintro a ⟨⟩
        exact sameAddress_of_given hparsed (Int.not_le.mp hport)

/-- **Both ends use the same address.** Where Prepare3 comes as far as its socket, what Perform3
and Finish3 read off the URI that is handed on is the host that it has and the port that it
binds, exactly if the client's URI fits or there is none. -/
theorem same_address_iff (hexact : Exact strToLong) {tr : List (Event Res)}
    (h : (prepareAddress strToLong uriIn).Runs tr (some (some a)))
    (hhostname : ∀ e ∈ tr, HostnameOk e.1 e.2) :
    SameAddress strToLong uriIn a ↔ Fits strToLong uriIn :=
  (Prog.wpOn_sound (judged_prepareAddress hexact uriIn) h
    (Monitor.follows_of_forall hhostname)).1 (some a) rfl a rfl

end Same

theorem hostnameOk_allWell (o : Op) : HostnameOk o (allWell o) := by
  rcases o with q | a | call | restore | _ | port
  case getHostname =>
    show some ['h'] ≠ some []
    decide
  all_goals trivial

/-- A URI with several colons and without a port to use. -/
def colonsUri : Uri := ['a', ':', ':', '1', ':', '0']

/-- The address that Prepare3 picks for it. -/
def colonsAddress : Address :=
  ⟨['a', ':', ':', '1'], 49512, some (formatUri ['a', ':', ':', '1'] 49512)⟩

/-- The port that Prepare3 picks for such a URI is read back, with its host. -/
theorem same_address_picked : SameAddress readDecimal (some colonsUri) colonsAddress := by
  have hrun : (prepareAddress readDecimal (some colonsUri)).Runs _ (some (some colonsAddress)) :=
    Prog.runs_eval allWell _
  refine (same_address_iff exact_readDecimal hrun
    (Prog.forall_mem_eval hostnameOk_allWell _)).mpr ?_
  rintro _ ⟨⟩
  refine ⟨by decide, fun hostname port n hsplit hnumber => ?_⟩
  obtain ⟨rfl, rfl⟩ : ['a', ':', ':', '1'] = hostname ∧ ['0'] = port :=
    Prod.mk.inj (Option.some.inj hsplit)
  obtain rfl : 0 = n := Option.some.inj hnumber
  decide

/-- **A port that is bound modulo `2 ^ 16`**: the client gives the port 70000, Prepare3 binds
4464, and the source connects to 70000. The empty URI is the other case: what Prepare3 makes of
it cannot be read. -/
theorem not_same_address :
    (∃ tr, (prepareAddress readDecimal (some "h:70000".toList)).Runs tr
      (some (some ⟨['h'], 70000, none⟩)) ∧ (⟨['h'], 70000, none⟩ : Address).sinPort = 4464 ∧
      parseUri readDecimal (some "h:70000".toList) = some (['h'], 70000) ∧
      ¬SameAddress readDecimal (some "h:70000".toList) ⟨['h'], 70000, none⟩) ∧
    ∃ tr, (prepareAddress readDecimal (some [])).Runs tr
      (some (some ⟨[], 49512, some (formatUri [] 49512)⟩)) ∧
      ¬SameAddress readDecimal (some []) ⟨[], 49512, some (formatUri [] 49512)⟩ := by
  refine ⟨⟨_, Prog.runs_eval allWell _, by decide, by decide, ?_⟩,
    ⟨_, Prog.runs_eval allWell _, ?_⟩⟩
  · rw [SameAddress, canReturn_doParseURI]
    decide
  · rw [SameAddress, canReturn_doParseURI]
    decide

end Libxl

end OpenLog
