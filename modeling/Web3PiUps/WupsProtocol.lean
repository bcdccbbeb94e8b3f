import Mathlib.Data.List.Basic

/-! The WUPS wire protocol as `common/protocol.h` fixes it for the three
firmwares: constants, addresses, the frame and its Fletcher-8 checksum.
Lengths are `Nat`; bytes wrap as `uint8_t` does. Of a frame's buffer only the
first `len` bytes are kept. -/
namespace Web3PiUps.WupsProtocol

abbrev Bytes := List UInt8

/-- A string literal of the source. -/
def ascii (text : String) : Bytes := text.toList.map Char.toUInt8

abbrev wupsSync1 : UInt8 := 0xAA
abbrev wupsSync2 : UInt8 := 0x55
abbrev wupsEnd1 : UInt8 := 0x55
abbrev wupsEnd2 : UInt8 := 0xAA
abbrev wupsGuardByte : UInt8 := 0x00

abbrev wupsHeaderBytes : Nat := 10
abbrev wupsTrailerBytes : Nat := 4
abbrev wupsFramingBytes : Nat := wupsHeaderBytes + wupsTrailerBytes
abbrev wupsMaxPayload : Nat := 240
abbrev wupsMaxFrame : Nat := wupsFramingBytes + wupsMaxPayload

abbrev wupsAddrRpi : UInt8 := 0x01
abbrev wupsAddrRp2040 : UInt8 := 0x02
abbrev wupsAddrCh32x : UInt8 := 0x03
abbrev wupsAddrEsp32 : UInt8 := 0x04
abbrev wupsAddrInternal : UInt8 := 0x05
abbrev wupsAddrBroadcast : UInt8 := 0xFF

abbrev wupsFlagResp : UInt8 := 0x02
abbrev wupsFlagEvent : UInt8 := 0x04

abbrev wupsClassSystem : UInt8 := 0x01
abbrev wupsClassNet : UInt8 := 0x03

def fletcherStep (ck : UInt8 × UInt8) (x : UInt8) : UInt8 × UInt8 := (ck.1+x,ck.2+(ck.1+x))

def wupsFletcher8 (buf : Bytes) : UInt8 × UInt8 := buf.foldl fletcherStep (0,0)

theorem fletcherAppend (a b : Bytes) :
    wupsFletcher8 (a ++ b) = b.foldl fletcherStep (wupsFletcher8 a) := by
  simp [wupsFletcher8]

theorem fletcherConcat (a : Bytes) (x : UInt8) :
    wupsFletcher8 (a ++ [x]) = fletcherStep (wupsFletcher8 a) x := by
  simp [wupsFletcher8]

structure WupsFrame where
  dst : UInt8
  src : UInt8
  cls : UInt8
  op : UInt8
  flags : UInt8
  seq : UInt8
  payload : Bytes
  bounded : payload.length ≤ wupsMaxPayload
  deriving DecidableEq, Repr

def WupsFrame.len (f : WupsFrame) : Nat := f.payload.length

theorem WupsFrame.lenBound (f : WupsFrame) : f.len ≤ 240 := f.bounded

/-! The 16-bit length field: `len & 0xFF`, `(len >> 8) & 0xFF`, and back by
`lo | hi << 8`. -/
def lenLow (n : Nat) : UInt8 := UInt8.ofNat (n &&& 0xFF)
def lenHigh (n : Nat) : UInt8 := UInt8.ofNat ((n >>> 8) &&& 0xFF)
def lenWord (lo hi : UInt8) : Nat := lo.toNat ||| (hi.toNat <<< 8)

theorem lenWordSum (lo hi : UInt8) : lenWord lo hi = lo.toNat + 256*hi.toNat := by
  have small : lo.toNat < 2^8 := lo.toNat_lt
  unfold lenWord
  rw [Nat.or_comm,← Nat.shiftLeft_add_eq_or_of_lt small,Nat.shiftLeft_eq]
  omega

theorem lenLowNat (n : Nat) : (lenLow n).toNat = n % 256 := by
  have mask : n &&& 0xFF = n % 256 := Nat.and_two_pow_sub_one_eq_mod n 8
  simp [lenLow,mask]

theorem lenHighNat (n : Nat) : (lenHigh n).toNat = n / 256 % 256 := by
  have mask : (n >>> 8) &&& 0xFF = (n >>> 8) % 256 := Nat.and_two_pow_sub_one_eq_mod _ 8
  rw [lenHigh,mask]
  simp [Nat.shiftRight_eq_div_pow]

theorem lenWordBytes {n : Nat} (h : n < 65536) : lenWord (lenLow n) (lenHigh n) = n := by
  rw [lenWordSum,lenLowNat,lenHighNat]
  omega

theorem lenBytesWord (lo hi : UInt8) :
    lenLow (lenWord lo hi) = lo ∧ lenHigh (lenWord lo hi) = hi := by
  have hl := lo.toNat_lt
  have hh := hi.toNat_lt
  constructor
  · apply UInt8.toNat_inj.mp
    rw [lenLowNat,lenWordSum]
    omega
  · apply UInt8.toNat_inj.mp
    rw [lenHighNat,lenWordSum]
    omega

end Web3PiUps.WupsProtocol
