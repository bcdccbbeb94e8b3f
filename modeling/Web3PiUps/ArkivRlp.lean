import Web3PiUps.ArkivWriterSeq
import Web3PiUps.Lib.Rlp

/-! The encoder of `rlp.cpp`, and that what it builds is the encoding of the tree
of items that was put in, for as long as the bytes fit a vector. -/
namespace Web3PiUps.ArkivRlp
open WupsProtocol
open Rlp (Item)

/-- The loop both lengths and integers go through: the bytes of a 64-bit value from the
top, without the zeros in front. -/
def bigEndian (value : UInt64) : Bytes :=
  [7,6,5,4,3,2,1,0].foldl (fun be i =>
    let b := ((value >>> UInt64.ofNat (i*8)) &&& 0xff).toUInt8
    if be.length > 0 ∨ b ≠ 0 then be ++ [b] else be) []

def emitLength (len : Nat) (shortBase longBase : UInt8) (out : Bytes) : Bytes :=
  if len < 56 then out ++ [shortBase + UInt8.ofNat len]
  else
    let be := bigEndian (UInt64.ofNat len)
    out ++ [longBase + UInt8.ofNat be.length] ++ be

def encodeBytes (data out : Bytes) : Bytes :=
  if data.length = 1 ∧ byteAt data < 0x80 then out ++ [byteAt data]
  else emitLength data.length 0x80 0xb7 out ++ data
where byteAt (data : Bytes) : UInt8 := data.headD 0

def encodeUint (value : UInt64) (out : Bytes) : Bytes :=
  if value = 0 then out ++ [0x80] else encodeBytes (bigEndian value) out

def encodeListRaw (children out : Bytes) : Bytes :=
  emitLength children.length 0xc0 0xf7 out ++ children

structure ListEncoder where
  children : Bytes

namespace ListEncoder

def new : ListEncoder := ⟨[]⟩
def appendBytes (e : ListEncoder) (data : Bytes) : ListEncoder := ⟨encodeBytes data e.children⟩
def appendUint (e : ListEncoder) (v : UInt64) : ListEncoder := ⟨encodeUint v e.children⟩
def appendRaw (e : ListEncoder) (alreadyEncoded : Bytes) : ListEncoder := ⟨e.children ++ alreadyEncoded⟩

/-- Into an empty vector. -/
def finish (e : ListEncoder) : Bytes := encodeListRaw e.children []

end ListEncoder

/-- What a `std::vector<uint8_t>` can hold. -/
def Held (b : Bytes) : Prop := b.length < 2 ^ 64
instance (b) : Decidable (Held b) := by unfold Held; infer_instance

def Encodes (b : Bytes) (item : Item) : Prop := Held b → b = Rlp.encode item

def Holds (e : ListEncoder) (items : List Item) : Prop := Held e.children → e.children = Rlp.encodeAll items

theorem stripLoop (bytes be : Bytes) :
    bytes.foldl (fun be b => if be.length > 0 ∨ b ≠ 0 then be ++ [b] else be) be =
      if be.length > 0 then be ++ bytes else bytes.dropWhile (· = 0) := by
  induction bytes generalizing be with
  | nil => cases be <;> simp
  | cons b rest ih =>
    rw [List.foldl_cons,ih]
    by_cases begun : be.length > 0
    · simp [begun]
    · have none : be = [] := by simpa using begun
      by_cases zero : b = 0
      · simp [none,zero]
      · simp [none,zero]

def topByte (value : UInt64) (i : Nat) : UInt8 := ((value >>> UInt64.ofNat (i*8)) &&& 0xff).toUInt8

theorem topByteValue (value : UInt64) (i : Nat) (inWord : i < 8) :
    (topByte value i).toNat = value.toNat / 2 ^ (i*8) % 256 := by
  have size : (UInt64.ofNat (i*8)).toNat = i*8 := by
    rw [UInt64.toNat_ofNat']
    omega
  have mask : (0xff : UInt64).toNat = 2^8-1 := rfl
  rw [topByte,UInt64.toNat_toUInt8,UInt64.toNat_and,UInt64.toNat_shiftRight,size,mask,
    Nat.and_two_pow_sub_one_eq_mod,Nat.mod_eq_of_lt (show i*8 < 64 by omega),Nat.shiftRight_eq_div_pow,
    Nat.mod_mod]

theorem bigEndianBytes (value : UInt64) : bigEndian value = Rlp.beBytes value.toNat := by
  have loop : bigEndian value = ([7,6,5,4,3,2,1,0].map (topByte value)).dropWhile (· = 0) := by
    have run := stripLoop ([7,6,5,4,3,2,1,0].map (topByte value)) []
    rw [List.foldl_map] at run
    exact run
  have sum : Rlp.beValue ([7,6,5,4,3,2,1,0].map (topByte value)) = value.toNat := by
    have bound := value.toNat_lt
    simp only [Rlp.beValue,List.map_cons,List.map_nil,List.reverse_cons,List.reverse_nil,List.nil_append,
      List.cons_append,Nat.ofDigits_cons,Nat.ofDigits_nil,topByteValue value 0 (by decide),
      topByteValue value 1 (by decide),topByteValue value 2 (by decide),topByteValue value 3 (by decide),
      topByteValue value 4 (by decide),topByteValue value 5 (by decide),topByteValue value 6 (by decide),
      topByteValue value 7 (by decide)]
    norm_num
    omega
  rw [loop,Rlp.stripped,sum]

/-! Every append adds the encoding of its item. -/

theorem emitLengthBytes {len : Nat} (fits : len < 2 ^ 64) (shortBase longBase : UInt8) (out : Bytes) :
    emitLength len shortBase longBase out = out ++ Rlp.encodeLength shortBase longBase len := by
  have kept : (UInt64.ofNat len).toNat = len := by
    rw [UInt64.toNat_ofNat']
    exact Nat.mod_eq_of_lt fits
  unfold emitLength Rlp.encodeLength
  split
  · rfl
  · simp only [bigEndianBytes,kept,List.append_assoc,List.singleton_append]

theorem smallByte (data : Bytes) :
    (data.length = 1 ∧ encodeBytes.byteAt data < 0x80) ↔ Rlp.small data = true := by
  match data with
  | [] => simp [Rlp.small]
  | [b] => simp [Rlp.small,encodeBytes.byteAt]
  | _::_::_ => simp [Rlp.small]

theorem encodeBytesLonger (data out : Bytes) : data.length ≤ (encodeBytes data out).length ∧
    out.length ≤ (encodeBytes data out).length := by
  unfold encodeBytes emitLength
  split
  · rename_i one
    rw [List.length_append,one.1]
    exact ⟨Nat.le_add_left _ _,Nat.le_add_right _ _⟩
  · split
    · simp only [List.length_append]
      omega
    · simp only [List.length_append]
      omega

theorem encodeBytesItem {data out : Bytes} (held : Held (encodeBytes data out)) :
    encodeBytes data out = out ++ Rlp.encodeString data := by
  have fits : data.length < 2 ^ 64 := Nat.lt_of_le_of_lt (encodeBytesLonger data out).1 held
  unfold encodeBytes Rlp.encodeString
  by_cases alone : Rlp.small data = true
  · have one := (smallByte data).mpr alone
    rw [if_pos one,if_pos alone]
    obtain ⟨b,rfl⟩ := List.length_eq_one_iff.mp one.1
    rfl
  · rw [if_neg (fun one => alone ((smallByte data).mp one)),if_neg alone,emitLengthBytes fits,
      List.append_assoc]

theorem encodeUintItem {value : UInt64} {out : Bytes} (held : Held (encodeUint value out)) :
    encodeUint value out = out ++ Rlp.encodeString (Rlp.beBytes value.toNat) := by
  unfold encodeUint at held ⊢
  by_cases zero : value = 0
  · rw [if_pos zero,zero]
    have empty : Rlp.beBytes (UInt64.toNat 0) = [] := Rlp.bytesNil.mpr rfl
    rw [empty]
    rfl
  · rw [if_neg zero] at held ⊢
    rw [encodeBytesItem held,bigEndianBytes]

namespace Holds
variable {e : ListEncoder} {items : List Item}

theorem new : Holds .new [] := fun _ => by simp [ListEncoder.new,Rlp.encodeAll]

theorem appendAll (items more : List Item) : Rlp.encodeAll (items ++ more) =
    Rlp.encodeAll items ++ Rlp.encodeAll more := by
  induction items with
  | nil => simp [Rlp.encodeAll]
  | cons item items ih => simp [Rlp.encodeAll,ih]

theorem appendOne (items : List Item) (item : Item) : Rlp.encodeAll (items ++ [item]) =
    Rlp.encodeAll items ++ Rlp.encode item := by
  simp [appendAll,Rlp.encodeAll]

theorem appendBytes (h : Holds e items) (data : Bytes) :
    Holds (e.appendBytes data) (items ++ [.bytes data]) := by
  intro held
  have before : Held e.children := Nat.lt_of_le_of_lt (encodeBytesLonger data e.children).2 held
  rw [appendOne,← h before,Rlp.encode]
  exact encodeBytesItem held

theorem appendUint (h : Holds e items) (v : UInt64) :
    Holds (e.appendUint v) (items ++ [.bytes (Rlp.beBytes v.toNat)]) := by
  intro held
  have longer : e.children.length ≤ (encodeUint v e.children).length := by
    unfold encodeUint
    split
    · simp
    · exact (encodeBytesLonger _ _).2
  rw [appendOne,← h (Nat.lt_of_le_of_lt longer held),Rlp.encode]
  exact encodeUintItem held

theorem appendRaw (h : Holds e items) {raw : Bytes} {item : Item} (raws : Encodes raw item) :
    Holds (e.appendRaw raw) (items ++ [item]) := by
  intro held
  have total : e.children.length + raw.length < 2 ^ 64 := by
    rw [← List.length_append]
    exact held
  rw [appendOne,← h (show e.children.length < 2 ^ 64 by omega),← raws (show raw.length < 2 ^ 64 by omega)]
  rfl

theorem finish (h : Holds e items) : Encodes e.finish (.list items) := by
  intro held
  have longer : e.children.length ≤ e.finish.length := by
    show e.children.length ≤ (emitLength e.children.length 0xc0 0xf7 [] ++ e.children).length
    rw [List.length_append]
    exact Nat.le_add_left _ _
  have fits : e.children.length < 2 ^ 64 := Nat.lt_of_le_of_lt longer held
  have children := h fits
  rw [Rlp.encode,Rlp.encodeList,← children]
  show emitLength e.children.length 0xc0 0xf7 [] ++ e.children = _
  rw [emitLengthBytes fits,List.nil_append]

theorem appendEach {α : Type} (h : Holds e items) {encode : α → Bytes} {item : α → Item}
    (encodes : ∀ a, Encodes (encode a) (item a)) (all : List α) :
    Holds (all.foldl (fun e a => e.appendRaw (encode a)) e) (items ++ all.map item) := by
  induction all generalizing e items with
  | nil => simpa using h
  | cons a rest ih =>
    have next := ih (h.appendRaw (encodes a))
    rwa [List.append_assoc] at next

end Holds

theorem decodesItem {b : Bytes} {item : Item} (encodes : Encodes b item) (held : Held b) :
    Rlp.decode b = some item := by
  have same := encodes held
  unfold Held at held
  rw [same] at held ⊢
  exact Rlp.decodeEncode item held

end Web3PiUps.ArkivRlp
