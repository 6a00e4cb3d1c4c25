import ExchangeClient.Lib.Keystream
import ExchangeClient.Lib.LittleEndian

/-!
# WebSocket frames

`frame.hpp` of the WebSocket library: the opcodes, the two parts of a frame
header with their accessors, and the masking of payloads byte by byte and word by
word. A machine word has eight bytes, least significant first.
-/

namespace ExchangeClient.Websocketpp

/-! ### Opcodes -/

inductive Opcode where
  | continuation
  | text
  | binary
  | rsv3
  | rsv4
  | rsv5
  | rsv6
  | rsv7
  | close
  | ping
  | pong
  | controlRsvb
  | controlRsvc
  | controlRsvd
  | controlRsve
  | controlRsvf
deriving DecidableEq, Repr

namespace Opcode

def value : Opcode → UInt8
  | continuation => 0x0
  | text => 0x1
  | binary => 0x2
  | rsv3 => 0x3
  | rsv4 => 0x4
  | rsv5 => 0x5
  | rsv6 => 0x6
  | rsv7 => 0x7
  | close => 0x8
  | ping => 0x9
  | pong => 0xA
  | controlRsvb => 0xB
  | controlRsvc => 0xC
  | controlRsvd => 0xD
  | controlRsve => 0xE
  | controlRsvf => 0xF

/-- The cast of a number of at most four bits to an opcode. -/
def ofByte (b : UInt8) : Opcode :=
  if b = 0x0 then continuation else if b = 0x1 then text else if b = 0x2 then binary
  else if b = 0x3 then rsv3 else if b = 0x4 then rsv4 else if b = 0x5 then rsv5
  else if b = 0x6 then rsv6 else if b = 0x7 then rsv7 else if b = 0x8 then close
  else if b = 0x9 then ping else if b = 0xA then pong else if b = 0xB then controlRsvb
  else if b = 0xC then controlRsvc else if b = 0xD then controlRsvd
  else if b = 0xE then controlRsve else controlRsvf

def reserved (op : Opcode) : Bool :=
  (rsv3.value ≤ op.value && op.value ≤ rsv7.value) ||
    (controlRsvb.value ≤ op.value && op.value ≤ controlRsvf.value)

def invalid (op : Opcode) : Bool := op.value > 0xF

def isControl (op : Opcode) : Bool := op.value ≥ 0x8

@[simp] theorem ofByte_value (op : Opcode) : ofByte op.value = op := by
  cases op <;> rfl

@[simp] theorem invalid_eq_false (op : Opcode) : op.invalid = false := by
  cases op <;> rfl

end Opcode

/-! ### Memory and byte order -/

/-- `std::copy` into a buffer from index `start` on. A copy past the end lengthens the
list, where the buffer of the source would be overrun. -/
def overwrite (buffer : Bytes) (start : Nat) (source : Bytes) : Bytes :=
  buffer.take start ++ source ++ buffer.drop (start + source.length)

theorem length_overwrite {buffer source : Bytes} {start : Nat}
    (h : start + source.length ≤ buffer.length) :
    (overwrite buffer start source).length = buffer.length := by
  simp only [overwrite, List.length_append, List.length_take, List.length_drop]
  omega

/-- `_htonll`, and `_ntohll`, which is the same function. -/
def htonll (src : UInt64) : UInt64 :=
  UInt64.ofNat (LittleEndian.value (LittleEndian.bytes 8 src.toNat).reverse)

/-- `ntohs` and `htons`. -/
def ntohs (src : UInt16) : UInt16 :=
  UInt16.ofNat (LittleEndian.value (LittleEndian.bytes 2 src.toNat).reverse)

/-- A masking key, `uint32_converter`: an integer that shares its memory with four
bytes. -/
structure MaskingKey where
  i : UInt32
deriving DecidableEq, Repr

def MaskingKey.c (key : MaskingKey) : Bytes := LittleEndian.bytes 4 key.i.toNat

@[simp] theorem MaskingKey.length_c (key : MaskingKey) : key.c.length = 4 :=
  LittleEndian.length_bytes 4 _

/-! ### Headers -/

def basicHeaderLength : Nat := 2
def maxExtendedHeaderLength : Nat := 12
def payloadSizeBasic : UInt64 := 125
def payloadSizeExtended : UInt64 := 0xFFFF
def payloadSizeCode16bit : UInt8 := 0x7E
def payloadSizeCode64bit : UInt8 := 0x7F

/-- The constant size component of a frame header. -/
structure BasicHeader where
  b0 : UInt8
  b1 : UInt8
deriving DecidableEq, Repr

namespace BasicHeader

def basicValue (size : UInt64) : UInt8 :=
  if size ≤ payloadSizeBasic then size.toUInt8
  else if size ≤ payloadSizeExtended then payloadSizeCode16bit
  else payloadSizeCode64bit

/-- The constructor `basic_header`. -/
def make (op : Opcode) (size : UInt64) (fin mask : Bool) (rsv1 rsv2 rsv3 : Bool) :
    BasicHeader where
  b0 := (if fin then 0x80 else 0x00) ||| (if rsv1 then 0x40 else 0x00) |||
    (if rsv2 then 0x20 else 0x00) ||| (if rsv3 then 0x10 else 0x00) ||| (op.value &&& 0x0F)
  b1 := (if mask then 0x80 else 0x00) ||| basicValue size

variable (h : BasicHeader)

def getFin : Bool := h.b0 &&& 0x80 = 0x80
def getRsv1 : Bool := h.b0 &&& 0x40 = 0x40
def getRsv2 : Bool := h.b0 &&& 0x20 = 0x20
def getRsv3 : Bool := h.b0 &&& 0x10 = 0x10
def getOpcode : Opcode := Opcode.ofByte (h.b0 &&& 0x0F)
def getMasked : Bool := h.b1 &&& 0x80 = 0x80
def getBasicSize : UInt8 := h.b1 &&& 0x7F

def getMaskingKeyOffset : Nat :=
  if h.getBasicSize = payloadSizeCode16bit then 2
  else if h.getBasicSize = payloadSizeCode64bit then 8
  else 0

def getHeaderLen : Nat :=
  basicHeaderLength + h.getMaskingKeyOffset + if h.getMasked then 4 else 0

end BasicHeader

/-- The variable size component of a frame header. -/
structure ExtendedHeader where
  bytes : Bytes
deriving DecidableEq, Repr

namespace ExtendedHeader

def zero : ExtendedHeader := ⟨List.replicate maxExtendedHeaderLength 0x00⟩

def payloadOffset (size : UInt64) : Nat :=
  if size ≤ payloadSizeBasic then 8 else if size ≤ payloadSizeExtended then 6 else 0

/-- `copy_payload`: the header with the size written at its start, and the number of
bytes that took. -/
def copyPayload (e : ExtendedHeader) (size : UInt64) : ExtendedHeader × Nat :=
  let temp64 := LittleEndian.bytes 8 (htonll size).toNat
  (⟨overwrite e.bytes 0 (temp64.drop (payloadOffset size))⟩, 8 - payloadOffset size)

/-- The constructor of an unmasked frame's `extended_header`. -/
def make (size : UInt64) : ExtendedHeader := (zero.copyPayload size).1

/-- The constructor of a masked frame's `extended_header`. -/
def makeMasked (size : UInt64) (maskingKey : MaskingKey) : ExtendedHeader :=
  let copied := zero.copyPayload size
  ⟨overwrite copied.1.bytes copied.2 maskingKey.c⟩

end ExtendedHeader

def prepareHeader (h : BasicHeader) (e : ExtendedHeader) : Bytes :=
  h.b0 :: h.b1 :: e.bytes.take (h.getHeaderLen - basicHeaderLength)

def getMaskingKey (h : BasicHeader) (e : ExtendedHeader) : MaskingKey :=
  if h.getMasked then
    ⟨UInt32.ofNat (LittleEndian.value ((e.bytes.drop h.getMaskingKeyOffset).take 4))⟩
  else ⟨0⟩

def getExtendedSize (e : ExtendedHeader) : UInt16 :=
  ntohs (UInt16.ofNat (LittleEndian.value (e.bytes.take 2)))

def getJumboSize (e : ExtendedHeader) : UInt64 :=
  htonll (UInt64.ofNat (LittleEndian.value (e.bytes.take 8)))

def getPayloadSize (h : BasicHeader) (e : ExtendedHeader) : UInt64 :=
  if h.getBasicSize.toUInt64 ≤ payloadSizeBasic then h.getBasicSize.toUInt64
  else if h.getBasicSize = payloadSizeCode16bit then (getExtendedSize e).toUInt64
  else getJumboSize e

/-! ### What is written can be read -/

theorem toNat_uint64_value {row : Bytes} (hrow : row.length = 8) :
    (UInt64.ofNat (LittleEndian.value row)).toNat = LittleEndian.value row := by
  have hlt := LittleEndian.value_lt row
  rw [hrow] at hlt
  rw [UInt64.toNat_ofNat']
  exact Nat.mod_eq_of_lt hlt

theorem toNat_uint16_value {row : Bytes} (hrow : row.length = 2) :
    (UInt16.ofNat (LittleEndian.value row)).toNat = LittleEndian.value row := by
  have hlt := LittleEndian.value_lt row
  rw [hrow] at hlt
  rw [UInt16.toNat_ofNat']
  exact Nat.mod_eq_of_lt hlt

theorem bytes_uint64_value {row : Bytes} (hrow : row.length = 8) :
    LittleEndian.bytes 8 (UInt64.ofNat (LittleEndian.value row)).toNat = row := by
  rw [toNat_uint64_value hrow, ← hrow, LittleEndian.bytes_value]

theorem bytes_uint16_value {row : Bytes} (hrow : row.length = 2) :
    LittleEndian.bytes 2 (UInt16.ofNat (LittleEndian.value row)).toNat = row := by
  rw [toNat_uint16_value hrow, ← hrow, LittleEndian.bytes_value]

theorem bytes_htonll (src : UInt64) :
    LittleEndian.bytes 8 (htonll src).toNat = (LittleEndian.bytes 8 src.toNat).reverse :=
  bytes_uint64_value (by simp)

theorem toNat_htonll_value {row : Bytes} (hrow : row.length = 8) :
    (htonll (UInt64.ofNat (LittleEndian.value row))).toNat = LittleEndian.value row.reverse := by
  rw [htonll, bytes_uint64_value hrow, toNat_uint64_value (by simpa using hrow)]

theorem toNat_ntohs_value {row : Bytes} (hrow : row.length = 2) :
    (ntohs (UInt16.ofNat (LittleEndian.value row))).toNat = LittleEndian.value row.reverse := by
  rw [ntohs, bytes_uint16_value hrow, toNat_uint16_value (by simpa using hrow)]

theorem MaskingKey.ofNat_value_c (key : MaskingKey) :
    UInt32.ofNat (LittleEndian.value key.c) = key.i := by
  rw [MaskingKey.c, LittleEndian.value_bytes key.i.toNat_lt, UInt32.ofNat_toNat]

namespace BasicHeader

theorem basicValue_le (size : UInt64) : basicValue size ≤ 0x7F := by
  unfold basicValue
  split
  · next h =>
      have hle : size.toNat ≤ 125 := UInt64.le_iff_toNat_le.mp h
      rw [UInt8.le_iff_toNat_le, UInt64.toNat_toUInt8]
      exact (Nat.mod_le _ _).trans (hle.trans (by decide))
  · split <;> decide

section Fields

variable (op : Opcode) (size : UInt64) (fin mask rsv1 rsv2 rsv3 : Bool)

theorem b0_fields : ∀ value : UInt8, value ≤ 0x0F → ∀ fin rsv1 rsv2 rsv3 : Bool,
    let b0 := (if fin then 0x80 else 0x00) ||| (if rsv1 then 0x40 else 0x00) |||
      (if rsv2 then 0x20 else 0x00) ||| (if rsv3 then 0x10 else 0x00) ||| (value &&& 0x0F)
    decide (b0 &&& 0x80 = 0x80) = fin ∧ decide (b0 &&& 0x40 = 0x40) = rsv1 ∧
      decide (b0 &&& 0x20 = 0x20) = rsv2 ∧ decide (b0 &&& 0x10 = 0x10) = rsv3 ∧
      b0 &&& 0x0F = value :=
  forall_uint8 (by decide +kernel)

theorem value_le (op : Opcode) : op.value ≤ 0x0F := by
  cases op <;> decide

@[simp] theorem getFin_make : (make op size fin mask rsv1 rsv2 rsv3).getFin = fin :=
  (b0_fields op.value (value_le op) fin rsv1 rsv2 rsv3).1

@[simp] theorem getRsv1_make : (make op size fin mask rsv1 rsv2 rsv3).getRsv1 = rsv1 :=
  (b0_fields op.value (value_le op) fin rsv1 rsv2 rsv3).2.1

@[simp] theorem getRsv2_make : (make op size fin mask rsv1 rsv2 rsv3).getRsv2 = rsv2 :=
  (b0_fields op.value (value_le op) fin rsv1 rsv2 rsv3).2.2.1

@[simp] theorem getRsv3_make : (make op size fin mask rsv1 rsv2 rsv3).getRsv3 = rsv3 :=
  (b0_fields op.value (value_le op) fin rsv1 rsv2 rsv3).2.2.2.1

@[simp] theorem getOpcode_make : (make op size fin mask rsv1 rsv2 rsv3).getOpcode = op := by
  have h := (b0_fields op.value (value_le op) fin rsv1 rsv2 rsv3).2.2.2.2
  exact (congrArg Opcode.ofByte h).trans (Opcode.ofByte_value op)

theorem b1_fields : ∀ value : UInt8, value ≤ 0x7F → ∀ mask : Bool,
    let b1 := (if mask then 0x80 else 0x00) ||| value
    decide (b1 &&& 0x80 = 0x80) = mask ∧ b1 &&& 0x7F = value :=
  forall_uint8 (by decide +kernel)

@[simp] theorem getMasked_make : (make op size fin mask rsv1 rsv2 rsv3).getMasked = mask :=
  (b1_fields (basicValue size) (basicValue_le size) mask).1

@[simp] theorem getBasicSize_make :
    (make op size fin mask rsv1 rsv2 rsv3).getBasicSize = basicValue size :=
  (b1_fields (basicValue size) (basicValue_le size) mask).2

end Fields

end BasicHeader

/-- The length field that follows the basic header: nothing, or two or eight bytes in
network order. -/
def sizeField (size : UInt64) : Bytes :=
  (LittleEndian.bytes (8 - ExtendedHeader.payloadOffset size) size.toNat).reverse

@[simp] theorem length_sizeField (size : UInt64) :
    (sizeField size).length = 8 - ExtendedHeader.payloadOffset size := by
  simp [sizeField]

namespace ExtendedHeader

theorem payloadOffset_le (size : UInt64) : payloadOffset size ≤ 8 := by
  unfold payloadOffset
  split
  · exact Nat.le_refl 8
  · split <;> decide

theorem drop_bytes_htonll (size : UInt64) :
    (LittleEndian.bytes 8 (htonll size).toNat).drop (payloadOffset size) = sizeField size := by
  have hle := payloadOffset_le size
  have hsplit := LittleEndian.bytes_add (8 - payloadOffset size) (payloadOffset size) size.toNat
  rw [Nat.sub_add_cancel hle] at hsplit
  rw [bytes_htonll, List.drop_reverse, LittleEndian.length_bytes, hsplit,
    List.take_left' (LittleEndian.length_bytes _ _), sizeField]

theorem overwrite_replicate (row : Bytes) (n : Nat) (b : UInt8) :
    overwrite (List.replicate n b) 0 row = row ++ List.replicate (n - row.length) b := by
  simp [overwrite]

theorem copyPayload_zero (size : UInt64) :
    zero.copyPayload size =
      (⟨sizeField size ++ List.replicate (12 - (sizeField size).length) 0⟩,
        (sizeField size).length) := by
  rw [copyPayload, drop_bytes_htonll]
  simp only [zero, overwrite_replicate, length_sizeField]
  rfl

theorem make_bytes (size : UInt64) :
    (make size).bytes = sizeField size ++ List.replicate (12 - (sizeField size).length) 0 := by
  rw [make, copyPayload_zero]

theorem makeMasked_bytes (size : UInt64) (key : MaskingKey) :
    (makeMasked size key).bytes =
      (sizeField size ++ key.c) ++ List.replicate (8 - (sizeField size).length) 0 := by
  simp only [makeMasked, copyPayload_zero, overwrite, List.take_left, List.drop_append,
    MaskingKey.length_c, List.drop_replicate]
  rw [List.drop_eq_nil_of_le (by omega), List.nil_append]
  congr 2
  omega

end ExtendedHeader

section Reading

variable {h : BasicHeader} {e : ExtendedHeader} {size : UInt64} {more : Bytes}

theorem getMaskingKeyOffset_eq (hsize : h.getBasicSize = BasicHeader.basicValue size) :
    h.getMaskingKeyOffset = (sizeField size).length := by
  rw [length_sizeField, BasicHeader.getMaskingKeyOffset, hsize, ExtendedHeader.payloadOffset,
    BasicHeader.basicValue]
  split
  · next hle =>
      have hbound : size.toNat ≤ 125 := UInt64.le_iff_toNat_le.mp hle
      have hbyte : size.toUInt8.toNat ≤ 125 := by
        rw [UInt64.toNat_toUInt8]
        exact (Nat.mod_le _ _).trans hbound
      rw [if_neg, if_neg]
      · rintro hcode
        rw [hcode] at hbyte
        exact absurd hbyte (by decide)
      · rintro hcode
        rw [hcode] at hbyte
        exact absurd hbyte (by decide)
  · split <;> rfl

/-- The size read from a header that carries it. -/
theorem getPayloadSize_eq (hsize : h.getBasicSize = BasicHeader.basicValue size)
    (he : e.bytes = sizeField size ++ more) : getPayloadSize h e = size := by
  rw [getPayloadSize, hsize]
  rcases Nat.lt_or_ge 125 size.toNat with hbig | hsmall
  · have hbasic : ¬ size ≤ payloadSizeBasic := fun hle =>
      absurd (UInt64.le_iff_toNat_le.mp hle) (Nat.not_le.mpr hbig)
    rcases Nat.lt_or_ge 0xFFFF size.toNat with hjumbo | hextended
    · have hcode : ¬ size ≤ payloadSizeExtended := fun hle =>
        absurd (UInt64.le_iff_toNat_le.mp hle) (Nat.not_le.mpr hjumbo)
      have hfield : sizeField size = (LittleEndian.bytes 8 size.toNat).reverse := by
        rw [sizeField, ExtendedHeader.payloadOffset, if_neg hbasic, if_neg hcode]
      rw [BasicHeader.basicValue, if_neg hbasic, if_neg hcode, if_neg (by decide),
        if_neg (by decide), getJumboSize, he, hfield,
        List.take_left' (by simp), ← UInt64.toNat_inj, toNat_htonll_value (by simp),
        List.reverse_reverse, LittleEndian.value_bytes size.toNat_lt]
    · have hcode : size ≤ payloadSizeExtended := UInt64.le_iff_toNat_le.mpr hextended
      have hfield : sizeField size = (LittleEndian.bytes 2 size.toNat).reverse := by
        rw [sizeField, ExtendedHeader.payloadOffset, if_neg hbasic, if_pos hcode]
      rw [BasicHeader.basicValue, if_neg hbasic, if_pos hcode, if_neg (by decide), if_pos rfl,
        getExtendedSize, he, hfield, List.take_left' (by simp), ← UInt64.toNat_inj,
        UInt16.toNat_toUInt64, toNat_ntohs_value (by simp), List.reverse_reverse,
        LittleEndian.value_bytes (Nat.lt_of_le_of_lt hextended (by decide))]
  · have hbasic : size ≤ payloadSizeBasic := UInt64.le_iff_toNat_le.mpr hsmall
    have hvalue : size.toUInt8.toUInt64 = size := by
      rw [← UInt64.toNat_inj, UInt8.toNat_toUInt64, UInt64.toNat_toUInt8]
      exact Nat.mod_eq_of_lt (by omega)
    rw [BasicHeader.basicValue, if_pos hbasic, hvalue, if_pos hbasic]

theorem getMaskingKey_eq {key : MaskingKey} (hmask : h.getMasked = true)
    (hsize : h.getBasicSize = BasicHeader.basicValue size)
    (he : e.bytes = sizeField size ++ key.c ++ more) : getMaskingKey h e = key := by
  rw [getMaskingKey, if_pos hmask, getMaskingKeyOffset_eq hsize, he, List.append_assoc,
    List.drop_left, List.take_left' key.length_c, MaskingKey.ofNat_value_c]

end Reading

/-- The header of an unmasked frame on the wire. -/
theorem prepareHeader_make (op : Opcode) (size : UInt64) (fin rsv1 rsv2 rsv3 : Bool) :
    let h := BasicHeader.make op size fin false rsv1 rsv2 rsv3
    prepareHeader h (ExtendedHeader.make size) = h.b0 :: h.b1 :: sizeField size := by
  intro h
  have hlen : h.getHeaderLen - basicHeaderLength = (sizeField size).length := by
    rw [BasicHeader.getHeaderLen, getMaskingKeyOffset_eq (BasicHeader.getBasicSize_make ..),
      BasicHeader.getMasked_make, if_neg Bool.false_ne_true]
    omega
  rw [prepareHeader, hlen, ExtendedHeader.make_bytes, List.take_left]

/-- The header of a masked frame on the wire. -/
theorem prepareHeader_makeMasked (op : Opcode) (size : UInt64) (fin rsv1 rsv2 rsv3 : Bool)
    (key : MaskingKey) :
    let h := BasicHeader.make op size fin true rsv1 rsv2 rsv3
    prepareHeader h (ExtendedHeader.makeMasked size key) =
      h.b0 :: h.b1 :: (sizeField size ++ key.c) := by
  intro h
  have hlen : h.getHeaderLen - basicHeaderLength = (sizeField size ++ key.c).length := by
    rw [BasicHeader.getHeaderLen, getMaskingKeyOffset_eq (BasicHeader.getBasicSize_make ..),
      BasicHeader.getMasked_make, if_pos rfl, List.length_append, key.length_c]
    omega
  rw [prepareHeader, hlen, ExtendedHeader.makeMasked_bytes, List.take_left]

end ExchangeClient.Websocketpp
