import OpenLog.Format.Words
import Mathlib.Data.Int.Notation
import Mathlib.Tactic.SplitIfs

/-!
# The head of a save file

What xl writes in front of the image of a guest, into a file or to the other side of a
migration, and how it reads it again: a header of a magic text and four words, and optional
data, which holds the length of the guest's configuration and the configuration itself.

## A stream that ends too early

`libxl_read_exactly` returns a positive code then, and the bytes that are missing stay in the
buffer what they were. `CHK_ERRNO` looks for negative codes only, so that the reader goes on with
this buffer. What the two buffers hold before they are read into is a parameter
(`OpenLog.Xl.Held`).

## The results

What is written is read back, and the reader stops where the image starts. Cut inside of the
configuration it is taken as well, with what the buffer held for the missing end
(`OpenLog.Xl.writeconfig_read`). The reader also takes heads that xl does not write, with
optional flags and with data behind the configuration, and these are all
(`OpenLog.Xl.loadConfig_eq_ok_iff`).
-/

namespace OpenLog

namespace Xl

open Format

/-! ### The header -/

/-- The characters of a text as bytes. -/
def bytes (text : String) : List UInt8 :=
  text.toList.map fun c => UInt8.ofNat c.toNat

/-- `savefileheader_magic`. The text has as many characters as there is room for, and no zero
ends it. -/
def savefileheaderMagic : List UInt8 := bytes "Xen saved domain, xl format\n \x00 \r"

/-- `SAVEFILE_BYTEORDER_VALUE`. -/
def byteorderValue : UInt32 := 0x01020304

/-- The word that bytes stand for. -/
def u32 (e : Endian) (bs : List UInt8) : UInt32 := UInt32.ofNat (e.value bs)

/-- `struct save_file_header`. -/
structure SaveFileHeader where
  magic : List UInt8
  byteorder : UInt32
  mandatoryFlags : UInt32
  optionalFlags : UInt32
  optionalDataLen : UInt32
  deriving DecidableEq

namespace SaveFileHeader

/-- The size of the header. -/
def size : ℕ := 48

/-- The header in memory. -/
def toBytes (e : Endian) (h : SaveFileHeader) : List UInt8 :=
  h.magic ++ (e.word 4 h.byteorder.toNat ++ (e.word 4 h.mandatoryFlags.toNat ++
    (e.word 4 h.optionalFlags.toNat ++ e.word 4 h.optionalDataLen.toNat)))

/-- The header that bytes are taken for. -/
def ofBytes (e : Endian) (bs : List UInt8) : SaveFileHeader where
  magic := bs.take 32
  byteorder := u32 e ((bs.drop 32).take 4)
  mandatoryFlags := u32 e ((bs.drop 36).take 4)
  optionalFlags := u32 e ((bs.drop 40).take 4)
  optionalDataLen := u32 e ((bs.drop 44).take 4)

end SaveFileHeader

/-! ### Writing -/

/-- `hdr.optional_data_len` and the optional data. -/
structure OptData where
  len : UInt32
  data : List UInt8

/-- `ADD_OPTDATA`. -/
def addOptdata (o : OptData) (data : List UInt8) : OptData :=
  if data.length ≠ 0 then ⟨o.len + UInt32.ofNat data.length, o.data ++ data⟩ else o

/-- The optional data of `save_domain_core_writeconfig`. -/
def optdata (e : Endian) (config : List UInt8) : OptData :=
  addOptdata (addOptdata ⟨0, []⟩ (e.word 4 config.length)) config

/-- The header of `save_domain_core_writeconfig`. -/
def header (e : Endian) (config : List UInt8) : SaveFileHeader :=
  ⟨savefileheaderMagic, byteorderValue, 0, 0, (optdata e config).len⟩

/-- What `save_domain_core_writeconfig` writes. -/
def writeconfig (e : Endian) (config : List UInt8) : List UInt8 :=
  (header e config).toBytes e ++ (optdata e config).data

/-! ### Reading -/

/-- Why a head is not taken. -/
inductive Refusal where
  /-- `CHK_ERRNO` exits. -/
  | exited
  | wrongMagic
  | wrongByteOrder
  | mandatoryFlags
  | truncated
  /-- `xmalloc` is asked for a negative length. -/
  | noMemory
  /-- There is no configuration, neither given nor saved. -/
  | noConfig
  deriving DecidableEq, Repr

/-- What `create_domain` looks at in a header. -/
def checkHeader (h : SaveFileHeader) : Option Refusal :=
  if h.magic ≠ savefileheaderMagic then some .wrongMagic
  else if h.byteorder ≠ byteorderValue then some .wrongByteOrder
  else if h.mandatoryFlags ≠ 0 then some .mandatoryFlags
  else none

/-- A word as the `int` that it is assigned to. -/
def toInt (n : UInt32) : ℤ := n.toBitVec.toInt

/-- The configuration that `create_domain` finds in the optional data. What is left of the data
is compared with the length as a signed number. -/
def savedConfig (e : Endian) (data : List UInt8) : Except Refusal (Option (List UInt8)) :=
  if data.length = 0 then .ok none
  else if data.length < 4 then .error .truncated
  else if (data.length - 4 : ℤ) < toInt (u32 e (data.take 4)) then .error .truncated
  else if toInt (u32 e (data.take 4)) < 0 then .error .noMemory
  else .ok (some ((data.drop 4).take (toInt (u32 e (data.take 4))).toNat))

/-- How `libxl_read_exactly` comes back, with the bytes in the buffer. If it fails they can be
anything, and `count` bytes have been taken from the stream. -/
structure ReadEnd where
  rc : ℤ
  buf : List UInt8
  count : ℕ

/-- `EPROTO`. -/
def eproto : ℤ := 71

/-- The first `n` bytes of a stream, with what the buffer held where it has fewer. -/
def filled (held : ℕ → UInt8) (n : ℕ) (stream : List UInt8) : List UInt8 :=
  stream.take n ++ (List.range' stream.length (n - stream.length)).map held

/-- `libxl_read_exactly` on a stream, which may end. -/
def readEnd (held : ℕ → UInt8) (n : ℕ) (stream : List UInt8) : ReadEnd where
  rc := if stream.length < n then eproto else 0
  buf := filled held n stream
  count := min n stream.length

/-- What the memory of `hdr` and that of `optdata_begin` hold before they are read into. -/
structure Held where
  hdr : ℕ → UInt8
  optdata : ℕ → UInt8

/-- The configuration saved in a stream, and what follows the head. -/
def loadSaved (e : Endian) (held : Held) (stream : List UInt8) :
    Except Refusal (Option (List UInt8) × List UInt8) :=
  let r := readEnd held.hdr SaveFileHeader.size stream
  let stream := stream.drop r.count
  if r.rc < 0 then .error .exited
  else
    let hdr := SaveFileHeader.ofBytes e r.buf
    match checkHeader hdr with
    | some refusal => .error refusal
    | none =>
      if hdr.optionalDataLen = 0 then .ok (none, stream)
      else
        let r := readEnd held.optdata hdr.optionalDataLen.toNat stream
        let stream := stream.drop r.count
        if r.rc < 0 then .error .exited
        else
          match savedConfig e r.buf with
          | .error refusal => .error refusal
          | .ok saved => .ok (saved, stream)

/-- The configuration that `create_domain` goes by when it restores, and what follows the
head. A configuration file that is given takes the place of the one that is saved. -/
def loadConfig (e : Endian) (held : Held) (configFile : Option (List UInt8))
    (stream : List UInt8) : Except Refusal (List UInt8 × List UInt8) :=
  match loadSaved e held stream with
  | .error refusal => .error refusal
  | .ok (saved, rest) =>
    match configFile, saved with
    | some config, _ => .ok (config, rest)
    | none, some config => .ok (config, rest)
    | none, none => .error .noConfig

/-! ### Words and headers -/

section Words

variable {e e' : Endian} {h : SaveFileHeader} {bs config rest : List UInt8}

theorem u32_word (e : Endian) (n : UInt32) : u32 e (e.word 4 n.toNat) = n := by
  have hmod : n.toNat % 256 ^ 4 = n.toNat := Nat.mod_eq_of_lt n.toNat_lt
  rw [u32, Endian.value_word, hmod]
  exact UInt32.ofNat_toNat

theorem word_u32 (hlen : bs.length = 4) : e.word 4 (u32 e bs).toNat = bs := by
  have hlt : e.value bs < 2 ^ 32 := by
    simpa [hlen] using e.value_lt bs
  have hval : (u32 e bs).toNat = e.value bs := by
    rw [u32, UInt32.toNat_ofNat', Nat.mod_eq_of_lt hlt]
  rw [hval, ← hlen]
  exact e.word_value bs

@[simp] theorem length_magic : savefileheaderMagic.length = 32 := by
  decide

@[simp] theorem length_toBytes (e : Endian) (h : SaveFileHeader) :
    (h.toBytes e).length = h.magic.length + 16 := by
  simp [SaveFileHeader.toBytes]

/-- A header that was written in the byte order `e'` and is read in the byte order `e`. -/
theorem ofBytes_toBytes_eq (e e' : Endian) (hmagic : h.magic.length = 32) :
    SaveFileHeader.ofBytes e (h.toBytes e') =
      ⟨h.magic, u32 e (e'.word 4 h.byteorder.toNat), u32 e (e'.word 4 h.mandatoryFlags.toNat),
        u32 e (e'.word 4 h.optionalFlags.toNat), u32 e (e'.word 4 h.optionalDataLen.toNat)⟩ := by
  obtain ⟨magic, byteorder, mandatory, optional, len⟩ := h
  replace hmagic : magic.length = 32 := hmagic
  have hpast (n : ℕ) (hn : 32 ≤ n) : magic.drop n = [] :=
    List.drop_eq_nil_of_le (hmagic ▸ hn)
  have hword (k n : ℕ) (hk : 4 ≤ k) : (e'.word 4 n).drop k = [] :=
    List.drop_eq_nil_of_le (by rwa [Endian.length_word])
  have htake (n : ℕ) : (e'.word 4 n).take 4 = e'.word 4 n :=
    List.take_of_length_le (Nat.le_of_eq (Endian.length_word e' 4 n))
  simp [SaveFileHeader.ofBytes, SaveFileHeader.toBytes, List.drop_append, hmagic,
    hpast, hword, htake]

/-- A header that is written is read back. -/
theorem ofBytes_toBytes (hmagic : h.magic.length = 32) :
    SaveFileHeader.ofBytes e (h.toBytes e) = h := by
  rw [ofBytes_toBytes_eq e e hmagic]
  simp only [u32_word]

/-- What is read as a header would be written as it was. -/
theorem toBytes_ofBytes (hlen : bs.length = SaveFileHeader.size) :
    (SaveFileHeader.ofBytes e bs).toBytes e = bs := by
  have hbs : bs.length = 48 := hlen
  have hword (n : ℕ) (hn : n ≤ 44) :
      e.word 4 (u32 e ((bs.drop n).take 4)).toNat = (bs.drop n).take 4 := by
    apply word_u32
    rw [List.length_take, List.length_drop]
    omega
  have hjoin (n : ℕ) : (bs.drop n).take 4 ++ bs.drop (n + 4) = bs.drop n := by
    rw [← List.drop_drop]
    exact List.take_append_drop 4 _
  have hlast : (bs.drop 44).take 4 = bs.drop 44 := by
    apply List.take_of_length_le
    rw [List.length_drop]
    omega
  show bs.take 32 ++ _ = bs
  simp only [SaveFileHeader.ofBytes, hword 32 (by decide), hword 36 (by decide),
    hword 40 (by decide), hword 44 (by decide)]
  rw [hlast, hjoin 40, hjoin 36, hjoin 32]
  exact List.take_append_drop 32 bs

/-- The header of what is written passes. -/
theorem checkHeader_eq_none_iff : checkHeader h = none ↔
    h.magic = savefileheaderMagic ∧ h.byteorder = byteorderValue ∧ h.mandatoryFlags = 0 := by
  unfold checkHeader
  split_ifs <;> simp_all

end Words

/-! ### The optional data -/

section Optional

variable {e : Endian} {config data tail : List UInt8}

theorem optdata_eq (e : Endian) (config : List UInt8) :
    optdata e config = ⟨UInt32.ofNat (4 + config.length), e.word 4 config.length ++ config⟩ := by
  cases config with
  | nil => simp [optdata, addOptdata]
  | cons b bs => simp [optdata, addOptdata, UInt32.ofNat_add]

/-- A length that an `int` holds is read back. -/
theorem toInt_u32_word {n : ℕ} (hn : n < 2 ^ 31) : toInt (u32 e (e.word 4 n)) = n := by
  have hword : u32 e (e.word 4 n) = UInt32.ofNat n := by
    rw [u32, Endian.value_word, Nat.mod_eq_of_lt (by omega)]
  have hval : (UInt32.ofNat n).toBitVec.toNat = n := by
    show (UInt32.ofNat n).toNat = n
    rw [UInt32.toNat_ofNat', Nat.mod_eq_of_lt (by omega)]
  rw [hword, toInt, BitVec.toInt_eq_toNat_of_lt (by omega), hval]

/-- A length that is not negative is the number that its bytes stand for. -/
theorem toInt_u32_of_nonneg (hlen : data.length = 4) (hpos : 0 ≤ toInt (u32 e data)) :
    ∃ n : ℕ, n < 2 ^ 31 ∧ toInt (u32 e data) = n ∧ data = e.word 4 n := by
  have hlt : (u32 e data).toBitVec.toNat < 2 ^ 31 := by
    by_contra hge
    have hneg : toInt (u32 e data) < 0 := by
      rw [toInt, BitVec.toInt_eq_toNat_cond]
      omega
    omega
  refine ⟨(u32 e data).toNat, hlt, ?_, (word_u32 hlen).symm⟩
  rw [toInt, BitVec.toInt_eq_toNat_of_lt (by omega)]
  rfl

/-- **The configuration in the optional data**: its length, then the configuration, then
anything. -/
theorem savedConfig_eq_some_iff : savedConfig e data = .ok (some config) ↔
    ∃ tail, config.length < 2 ^ 31 ∧ data = e.word 4 config.length ++ (config ++ tail) := by
  constructor
  · intro h
    unfold savedConfig at h
    split_ifs at h with hempty hshort htrunc hneg
    · cases h
    · have hfour : (data.take 4).length = 4 := by
        rw [List.length_take]
        exact Nat.min_eq_left (Nat.not_lt.mp hshort)
      obtain ⟨n, hn, hint, hword⟩ := toInt_u32_of_nonneg hfour (Int.not_lt.mp hneg)
      rw [hint, Int.toNat_natCast] at h
      obtain rfl : (data.drop 4).take n = config := by simpa using h
      have hlen : ((data.drop 4).take n).length = n := by
        rw [List.length_take, List.length_drop]
        omega
      refine ⟨(data.drop 4).drop n, by rwa [hlen], ?_⟩
      rw [hlen, ← hword, List.take_append_drop, List.take_append_drop]
  · rintro ⟨tail, hlen, rfl⟩
    have hfour : (e.word 4 config.length).length = 4 := e.length_word 4 _
    have htake : (e.word 4 config.length ++ (config ++ tail)).take 4 = e.word 4 config.length :=
      List.take_left' hfour
    have hdrop : (e.word 4 config.length ++ (config ++ tail)).drop 4 = config ++ tail :=
      List.drop_left' hfour
    unfold savedConfig
    rw [htake, hdrop, toInt_u32_word hlen, List.length_append, hfour, List.length_append]
    rw [if_neg (by omega), if_neg (by omega), if_neg (by omega), if_neg (by omega)]
    simp

end Optional

/-! ### Streams -/

section Streams

variable {e e' : Endian} {held : Held} {stream config data rest : List UInt8}

theorem readEnd_rc_nonneg (held : ℕ → UInt8) (n : ℕ) (stream : List UInt8) :
    ¬(readEnd held n stream).rc < 0 := by
  show ¬(if stream.length < n then eproto else 0) < 0
  split_ifs <;> decide

@[simp] theorem length_filled (held : ℕ → UInt8) (n : ℕ) (stream : List UInt8) :
    (filled held n stream).length = n := by
  rw [filled, List.length_append, List.length_take, List.length_map, List.length_range']
  omega

/-- A stream that is long enough. -/
theorem filled_append {held : ℕ → UInt8} {n : ℕ} (hdata : data.length = n) :
    filled held n (data ++ rest) = data := by
  rw [filled, List.take_left' hdata, List.length_append, hdata, Nat.sub_eq_zero_of_le (by omega),
    List.range'_zero, List.map_nil, List.append_nil]

theorem drop_count (held : ℕ → UInt8) (n : ℕ) (stream : List UInt8) :
    stream.drop (readEnd held n stream).count = stream.drop n := by
  rw [readEnd]
  rcases Nat.le_total n stream.length with hle | hle
  · rw [Nat.min_eq_left hle]
  · rw [Nat.min_eq_right hle, List.drop_length, List.drop_eq_nil_of_le hle]

/-- **The streams from which a configuration is taken**: a header that passes, and optional data
that begin with one, as they are in the buffers. -/
theorem loadSaved_eq_ok_iff : loadSaved e held stream = .ok (some config, rest) ↔
    ∃ h data, checkHeader h = none ∧ data.length = h.optionalDataLen.toNat ∧
      savedConfig e data = .ok (some config) ∧
      filled held.hdr SaveFileHeader.size stream = h.toBytes e ∧
      filled held.optdata data.length (stream.drop SaveFileHeader.size) = data ∧
      rest = stream.drop (SaveFileHeader.size + data.length) := by
  rw [loadSaved]
  dsimp only
  rw [if_neg (readEnd_rc_nonneg _ _ _), drop_count]
  constructor
  · intro hload
    split at hload
    · cases hload
    rename_i hcheck
    split_ifs at hload with hlen
    · cases hload
    rw [drop_count, List.drop_drop] at hload
    split at hload
    · cases hload
    rename_i saved hsaved
    simp only [Except.ok.injEq, Prod.mk.injEq] at hload
    obtain ⟨rfl, rfl⟩ := hload
    refine ⟨_, _, hcheck, length_filled _ _ _, hsaved, ?_, ?_, ?_⟩
    · exact (toBytes_ofBytes (length_filled _ _ _)).symm
    · rw [readEnd, length_filled]
    · rw [readEnd, length_filled]
  · rintro ⟨h, data, hcheck, hdata, hsaved, hheader, hfilled, rfl⟩
    have hmagic : h.magic.length = 32 := by
      rw [(checkHeader_eq_none_iff.mp hcheck).1, length_magic]
    have hread :
        SaveFileHeader.ofBytes e (readEnd held.hdr SaveFileHeader.size stream).buf = h := by
      rw [readEnd, hheader, ofBytes_toBytes hmagic]
    have hlen : h.optionalDataLen ≠ 0 := by
      intro hzero
      rw [hzero, UInt32.toNat_zero, List.length_eq_zero_iff] at hdata
      rw [hdata] at hsaved
      cases hsaved
    rw [hdata] at hfilled
    rw [hread, hcheck]
    dsimp only
    rw [if_neg hlen, if_neg (readEnd_rc_nonneg _ _ _), drop_count, List.drop_drop, readEnd,
      hfilled, hsaved, hdata]

theorem length_header (e : Endian) (config : List UInt8) :
    ((header e config).toBytes e).length = SaveFileHeader.size := by
  rw [length_toBytes, header, length_magic]
  rfl

theorem length_optdata (hlen : config.length < 2 ^ 31) :
    (optdata e config).data.length = (header e config).optionalDataLen.toNat := by
  show _ = (optdata e config).len.toNat
  rw [optdata_eq, UInt32.toNat_ofNat', List.length_append, e.length_word]
  omega

theorem loadConfig_eq_ok_iff_loadSaved :
    loadConfig e held none stream = .ok (config, rest) ↔
      loadSaved e held stream = .ok (some config, rest) := by
  rw [loadConfig]
  rcases loadSaved e held stream with refusal | ⟨_ | saved, rest'⟩ <;> simp

/-- What xl writes is read back, and the reader stops where the image starts. -/
theorem loadConfig_writeconfig (e : Endian) (held : Held) (config rest : List UInt8)
    (hlen : config.length < 2 ^ 31) :
    loadConfig e held none (writeconfig e config ++ rest) = .ok (config, rest) := by
  have hsize := length_header e config
  rw [loadConfig_eq_ok_iff_loadSaved, loadSaved_eq_ok_iff, writeconfig, List.append_assoc]
  refine ⟨header e config, (optdata e config).data, ?_, length_optdata hlen, ?_, ?_, ?_, ?_⟩
  · exact checkHeader_eq_none_iff.mpr ⟨rfl, rfl, rfl⟩
  · rw [savedConfig_eq_some_iff, optdata_eq]
    exact ⟨[], hlen, by rw [List.append_nil]⟩
  · exact filled_append hsize
  · rw [List.drop_left' hsize]
    exact filled_append rfl
  · rw [← List.drop_drop, List.drop_left' hsize, List.drop_left' rfl]

/-- **A stream that ends inside of the configuration** is taken as well. -/
theorem loadConfig_take (e : Endian) (held : Held) (config : List UInt8)
    (hlen : config.length < 2 ^ 31) {k : ℕ} (hk : k ≤ config.length) :
    loadConfig e held none ((writeconfig e config).take (SaveFileHeader.size + (4 + k))) =
      .ok (config.take k ++ (List.range' (4 + k) (config.length - k)).map held.optdata, []) := by
  have hsize := length_header e config
  have hfour := e.length_word 4 config.length
  have hcut : (writeconfig e config).take (SaveFileHeader.size + (4 + k)) =
      (header e config).toBytes e ++ (e.word 4 config.length ++ config.take k) := by
    have hskip : 4 + k = (e.word 4 config.length).length + k := by
      rw [hfour]
    rw [writeconfig, ← hsize, List.take_length_add_append, optdata_eq, hskip]
    dsimp only
    rw [List.take_length_add_append]
  have hend : (config.take k ++
      (List.range' (4 + k) (config.length - k)).map held.optdata).length = config.length := by
    rw [List.length_append, List.length_take, List.length_map, List.length_range']
    omega
  rw [loadConfig_eq_ok_iff_loadSaved, loadSaved_eq_ok_iff, hcut]
  refine ⟨header e config, e.word 4 config.length ++ (config.take k ++
    (List.range' (4 + k) (config.length - k)).map held.optdata),
    checkHeader_eq_none_iff.mpr ⟨rfl, rfl, rfl⟩, ?_, ?_, filled_append hsize, ?_, ?_⟩
  · rw [← length_optdata hlen, optdata_eq, List.length_append, hend, List.length_append]
  · rw [savedConfig_eq_some_iff]
    exact ⟨[], by rwa [hend], by rw [hend, List.append_nil]⟩
  · have hshort : (e.word 4 config.length ++ config.take k).length = 4 + k := by
      rw [List.length_append, hfour, List.length_take, Nat.min_eq_left hk]
    rw [List.drop_left' hsize, filled, hshort, List.length_append, hfour, hend,
      List.take_of_length_le (by omega), List.append_assoc, Nat.add_sub_add_left]
  · refine (List.drop_eq_nil_of_le ?_).symm
    rw [List.length_append, hsize, List.length_append, List.length_append, hend,
      List.length_take]
    omega

/-- A head in the other byte order is refused for its magic word. -/
theorem loadConfig_foreign (held : Held) (config rest : List UInt8) (he : e' ≠ e) :
    loadConfig e' held none (writeconfig e config ++ rest) = .error .wrongByteOrder := by
  have hread : checkHeader (SaveFileHeader.ofBytes e' ((header e config).toBytes e)) =
      some .wrongByteOrder := by
    have hother : u32 e' (e.word 4 byteorderValue.toNat) ≠ byteorderValue := by
      rcases e with _ | _ <;> rcases e' with _ | _ <;> first | exact absurd rfl he | decide
    rw [ofBytes_toBytes_eq e' e (by rw [header, length_magic]), checkHeader]
    simp [header, hother]
  have hforeign : loadSaved e' held (writeconfig e config ++ rest) = .error .wrongByteOrder := by
    rw [loadSaved]
    dsimp only
    rw [if_neg (readEnd_rc_nonneg _ _ _), readEnd, writeconfig, List.append_assoc,
      filled_append (length_header e config), hread]
  rw [loadConfig, hforeign]

/-- **A head that xl writes** is read back whole, up to where the image starts. One that comes
from a machine of the other byte order is refused. A stream that ends inside of the configuration
is not: the reader goes by a configuration of the same length, with what the buffer held in place
of the bytes that are missing. -/
theorem writeconfig_read (e : Endian) (held : Held) (config rest : List UInt8)
    (hlen : config.length < 2 ^ 31) :
    loadConfig e held none (writeconfig e config ++ rest) = .ok (config, rest) ∧
      (∀ e' ≠ e, loadConfig e' held none (writeconfig e config ++ rest) =
        .error .wrongByteOrder) ∧
      ∀ k ≤ config.length,
        loadConfig e held none ((writeconfig e config).take (SaveFileHeader.size + (4 + k))) =
          .ok (config.take k ++ (List.range' (4 + k) (config.length - k)).map held.optdata, []) :=
  ⟨loadConfig_writeconfig e held config rest hlen,
    fun _ he => loadConfig_foreign held config rest he,
    fun _ hk => loadConfig_take e held config hlen hk⟩

/-- The configuration `name="a"`, with one byte of an image behind it; and cut before the `a`. -/
theorem writeconfig_read_named :
    loadConfig .little ⟨fun _ => 0, fun _ => 255⟩ none
      (writeconfig .little (bytes "name=\"a\"") ++ [7]) = .ok (bytes "name=\"a\"", [7]) ∧
    loadConfig .little ⟨fun _ => 0, fun _ => 255⟩ none
      ((writeconfig .little (bytes "name=\"a\"")).take (SaveFileHeader.size + (4 + 6))) =
        .ok (bytes "name=\"" ++ [255, 255], []) := by
  have hread := writeconfig_read .little ⟨fun _ => 0, fun _ => 255⟩ (bytes "name=\"a\"") [7]
    (by decide)
  exact ⟨hread.1, (hread.2.2 6 (by decide)).trans (congrArg Except.ok (by decide))⟩

/-- **The heads that are taken**: a stream whose first bytes are those of such a head, where the
buffers hold the ones that it has not. Optional flags are not looked at, and neither is what stands
behind the configuration in the optional data. -/
theorem loadConfig_eq_ok_iff : loadConfig e held none stream = .ok (config, rest) ↔
    ∃ (flags : UInt32) (tail : List UInt8), config.length < 2 ^ 31 ∧
      4 + config.length + tail.length < 2 ^ 32 ∧
      filled held.hdr SaveFileHeader.size stream =
        (⟨savefileheaderMagic, byteorderValue, 0, flags,
          UInt32.ofNat (4 + config.length + tail.length)⟩ : SaveFileHeader).toBytes e ∧
      filled held.optdata (4 + config.length + tail.length) (stream.drop SaveFileHeader.size) =
        e.word 4 config.length ++ (config ++ tail) ∧
      rest = stream.drop (SaveFileHeader.size + (4 + config.length + tail.length)) := by
  rw [loadConfig_eq_ok_iff_loadSaved, loadSaved_eq_ok_iff]
  have hlength (tail : List UInt8) :
      (e.word 4 config.length ++ (config ++ tail)).length = 4 + config.length + tail.length := by
    rw [List.length_append, e.length_word, List.length_append]
    omega
  constructor
  · rintro ⟨⟨magic, byteorder, mandatory, flags, len⟩, data, hcheck, hdata, hsaved, hheader,
      hfilled, rfl⟩
    obtain ⟨rfl, rfl, rfl⟩ := checkHeader_eq_none_iff.mp hcheck
    obtain ⟨tail, hlen, rfl⟩ := savedConfig_eq_some_iff.mp hsaved
    have htotal : 4 + config.length + tail.length = len.toNat := by
      rw [← show _ = len.toNat from hdata, hlength]
    rw [hlength] at hfilled ⊢
    refine ⟨flags, tail, hlen, htotal ▸ len.toNat_lt, ?_, hfilled, rfl⟩
    rw [htotal, UInt32.ofNat_toNat, hheader]
  · rintro ⟨flags, tail, hlen, htotal, hheader, hfilled, rfl⟩
    refine ⟨_, e.word 4 config.length ++ (config ++ tail),
      checkHeader_eq_none_iff.mpr ⟨rfl, rfl, rfl⟩, ?_,
      savedConfig_eq_some_iff.mpr ⟨tail, hlen, rfl⟩, hheader, ?_, ?_⟩
    · show _ = (UInt32.ofNat (4 + config.length + tail.length)).toNat
      rw [UInt32.toNat_ofNat', Nat.mod_eq_of_lt htotal, hlength]
    · rw [hlength, hfilled]
    · rw [hlength]

end Streams

end Xl

end OpenLog
