import Mathlib.Algebra.GroupWithZero.Nat
import Mathlib.Algebra.Group.Nat.Defs
/-! Fields of bits in a sequence of bytes, the low bit of a byte first: how a
number and a byte lie in the sequence, and a reader that takes fields, padding
and whole bytes from it. -/
namespace Web3PiUps.LsbBits

def lowBits (n v : Nat) : List Bool := (List.range n).map v.testBit

def valueOf : List Bool → Nat
  | [] => 0
  | b::bits => b.toNat + 2 * valueOf bits

def byteBits (b : UInt8) : List Bool := lowBits 8 b.toNat

def bitsOf (bytes : List UInt8) : List Bool := bytes.flatMap byteBits

def takeField (n : Nat) (bits : List Bool) : Option (Nat × List Bool) :=
  if n ≤ bits.length then some (valueOf (bits.take n),bits.drop n) else none

/-- What is left of the current byte has to be zero. -/
def takePadding (bits : List Bool) : Option (List Bool) :=
  let pad := bits.length % 8
  if (bits.take pad).all (!·) then some (bits.drop pad) else none

def takeBytes : Nat → List Bool → Option (List UInt8 × List Bool)
  | 0, bits => some ([],bits)
  | n+1, bits => do
    let (v,bits) ← takeField 8 bits
    let (bytes,bits) ← takeBytes n bits
    some (UInt8.ofNat v :: bytes,bits)

@[simp] theorem lowBitsLength (n v) : (lowBits n v).length = n := by simp [lowBits]

@[simp] theorem lowBitsNone (v) : lowBits 0 v = [] := rfl

theorem lowBitsCons (n v) : lowBits (n+1) v = v.testBit 0 :: lowBits n (v/2) := by
  simp only [lowBits,List.range_succ_eq_map,List.map_cons,List.map_map]
  congr 1
  apply List.map_congr_left
  intro i _
  simp [Function.comp,Nat.testBit_succ]

theorem lowBitsSnoc (n v) : lowBits (n+1) v = lowBits n v ++ [v.testBit n] := by
  simp [lowBits,List.range_succ]

theorem valueLowBits (n v) : valueOf (lowBits n v) = v % 2 ^ n := by
  induction n generalizing v with
  | zero => simp [lowBits,valueOf,Nat.mod_one]
  | succ n ih =>
    have lowBit : (v.testBit 0).toNat = v % 2 := by
      rw [Nat.testBit_zero]
      rcases Nat.mod_two_eq_zero_or_one v with h | h <;> simp [h]
    rw [lowBitsCons,valueOf,ih,lowBit,Nat.pow_succ,Nat.mul_comm (2 ^ n) 2,Nat.mod_mul]

@[simp] theorem bitsOfNil : bitsOf [] = [] := rfl

@[simp] theorem bitsOfAppend (a b) : bitsOf (a ++ b) = bitsOf a ++ bitsOf b := by
  simp [bitsOf]

@[simp] theorem bitsOfSingle (b) : bitsOf [b] = lowBits 8 b.toNat := by simp [bitsOf,byteBits]

@[simp] theorem bitsOfLength (bytes) : (bitsOf bytes).length = 8 * bytes.length := by
  induction bytes with
  | nil => rfl
  | cons b rest ih =>
    rw [← List.singleton_append,bitsOfAppend,List.length_append,ih]
    simp [Nat.mul_add]
    omega

theorem fieldTaken (n v : Nat) (rest : List Bool) (bound : v < 2 ^ n) :
    takeField n (lowBits n v ++ rest) = some (v,rest) := by
  have enough : n ≤ (lowBits n v ++ rest).length := by simp
  have front : (lowBits n v ++ rest).take n = lowBits n v := by simp
  have back : (lowBits n v ++ rest).drop n = rest := by simp
  rw [takeField,if_pos enough,front,back,valueLowBits,Nat.mod_eq_of_lt bound]

theorem paddingTaken (k : Nat) (rest : List Bool) (short : k < 8) (whole : rest.length % 8 = 0) :
    takePadding (List.replicate k false ++ rest) = some rest := by
  have pad : (List.replicate k false ++ rest).length % 8 = k := by
    rw [List.length_append,List.length_replicate,Nat.add_mod,whole]
    omega
  have front : (List.replicate k false ++ rest).take k = List.replicate k false := by simp
  have back : (List.replicate k false ++ rest).drop k = rest := by simp
  simp only [takePadding,pad,front,back]
  simp

theorem bytesTaken (bytes : List UInt8) (rest : List Bool) :
    takeBytes bytes.length (bitsOf bytes ++ rest) = some (bytes,rest) := by
  induction bytes with
  | nil => rfl
  | cons b tail ih =>
    have first : bitsOf (b::tail) ++ rest = lowBits 8 b.toNat ++ (bitsOf tail ++ rest) := by
      rw [← List.singleton_append,bitsOfAppend,bitsOfSingle,List.append_assoc]
    rw [List.length_cons,takeBytes,first,fieldTaken 8 b.toNat _ b.toNat_lt]
    simp [ih]

/-- A bit put above the pending ones. The byte keeps what it held below it. -/
theorem lowBitsSet (v b k : Nat) (pending : v < 2 ^ k) :
    lowBits (k+1) (v ||| b <<< k) = lowBits k v ++ [b.testBit 0] := by
  have below : lowBits k (v ||| b <<< k) = lowBits k v := by
    apply List.map_congr_left
    intro i inside
    have small : i < k := List.mem_range.mp inside
    have free : ¬ k ≤ i := by omega
    simp [Nat.testBit_or,Nat.testBit_shiftLeft,free]
  have top : (v ||| b <<< k).testBit k = b.testBit 0 := by
    simp [Nat.testBit_or,Nat.testBit_shiftLeft,Nat.testBit_lt_two_pow pending]
  rw [lowBitsSnoc,below,top]

theorem pendingSet (v b k : Nat) (pending : v < 2 ^ k) (bit : b < 2) :
    v ||| b <<< k < 2 ^ (k+1) := by
  apply Nat.or_lt_two_pow
  · exact Nat.lt_of_lt_of_le pending (Nat.pow_le_pow_right (by decide) (Nat.le_succ k))
  · rw [Nat.shiftLeft_eq,Nat.pow_succ,Nat.mul_comm (2 ^ k) 2]
    exact Nat.mul_lt_mul_of_pos_right bit (Nat.two_pow_pos k)

theorem lowBitsPadded (v k : Nat) (pending : v < 2 ^ k) (short : k ≤ 8) :
    lowBits 8 v = lowBits k v ++ List.replicate (8-k) false := by
  apply List.ext_getElem
  · simp; omega
  · intro i inByte _
    have bound : i < 8 := by simpa using inByte
    by_cases low : i < k
    · simp [lowBits,low]
    · have high : v < 2 ^ i :=
        Nat.lt_of_lt_of_le pending (Nat.pow_le_pow_right (by decide) (by omega))
      simp [List.getElem_append,lowBits,low,Nat.testBit_lt_two_pow high]

end Web3PiUps.LsbBits
