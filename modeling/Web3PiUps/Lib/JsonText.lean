import Mathlib.Algebra.Group.Int.Defs
import Mathlib.Algebra.Group.Nat.Defs
import Mathlib.Algebra.GroupWithZero.Nat
import Mathlib.Data.List.Basic

/-! JSON values and their text without blanks, every octet below 0x20 escaped; what a value
takes, and what an object takes field by field. The text of a number is a parameter. -/
namespace Web3PiUps.JsonText

inductive Json where
  | null
  | number (value : Int)
  | string (text : List UInt8)
  | array (items : List Json)
  | object (fields : List (List UInt8 × Json))

def hexDigit (n : UInt8) : UInt8 := if n < 10 then 0x30+n else 0x57+n

def escape (b : UInt8) : List UInt8 :=
  if b = 0x22 ∨ b = 0x5C then [0x5C,b]
  else if b = 0x08 then [0x5C,0x62]
  else if b = 0x09 then [0x5C,0x74]
  else if b = 0x0A then [0x5C,0x6E]
  else if b = 0x0C then [0x5C,0x66]
  else if b = 0x0D then [0x5C,0x72]
  else if b < 0x20 then [0x5C,0x75,0x30,0x30,hexDigit (b >>> 4),hexDigit (b &&& 0x0F)]
  else [b]

def quote (text : List UInt8) : List UInt8 := 0x22 :: text.flatMap escape ++ [0x22]

def digits (n : Nat) : List UInt8 := (Nat.toDigits 10 n).map Char.toUInt8

def decimal (n : Int) : List UInt8 := if n < 0 then 0x2D :: digits n.natAbs else digits n.natAbs

def nullText : List UInt8 := [0x6E,0x75,0x6C,0x6C]

mutual

def print (number : Int → List UInt8) : Json → List UInt8
  | .null => nullText
  | .number value => number value
  | .string text => quote text
  | .array items => 0x5B :: printItems number items ++ [0x5D]
  | .object fields => 0x7B :: printFields number fields ++ [0x7D]

def printItems (number : Int → List UInt8) : List Json → List UInt8
  | [] => []
  | [item] => print number item
  | item :: next :: rest => print number item ++ 0x2C :: printItems number (next :: rest)

def printFields (number : Int → List UInt8) : List (List UInt8 × Json) → List UInt8
  | [] => []
  | [(key,value)] => quote key ++ 0x3A :: print number value
  | (key,value) :: next :: rest =>
    quote key ++ 0x3A :: print number value ++ 0x2C :: printFields number (next :: rest)

end

variable {number : Int → List UInt8}

def size (number : Int → List UInt8) (j : Json) : Nat := (print number j).length

/-- What a list of values takes, each with the comma behind it. -/
def itemsCost (number : Int → List UInt8) (items : List Json) : Nat :=
  (items.map fun item => size number item+1).sum

/-- The same for the fields of an object, each with its key. -/
def fieldsCost (number : Int → List UInt8) (fields : List (List UInt8 × Json)) : Nat :=
  (fields.map fun field => (quote field.1).length+size number field.2+2).sum

theorem fieldsCostAppend (a b : List (List UInt8 × Json)) :
    fieldsCost number (a ++ b) = fieldsCost number a+fieldsCost number b := by
  simp [fieldsCost]

theorem fieldsCostCons (key : List UInt8) (value : Json) (rest : List (List UInt8 × Json)) :
    fieldsCost number ((key,value) :: rest) = (quote key).length+size number value+2+fieldsCost number rest := by
  simp [fieldsCost]

@[simp] theorem fieldsCostNil : fieldsCost number [] = 0 := rfl

theorem itemsLength (item : Json) (rest : List Json) :
    (printItems number (item :: rest)).length+1 = itemsCost number (item :: rest) := by
  induction rest generalizing item with
  | nil => simp [printItems,itemsCost,size]
  | cons next rest ih =>
    have tail := ih next
    simp only [printItems,itemsCost,List.length_append,List.length_cons,List.map_cons,List.sum_cons,size] at tail ⊢
    omega

theorem fieldsLength (field : List UInt8 × Json) (rest : List (List UInt8 × Json)) :
    (printFields number (field :: rest)).length+1 = fieldsCost number (field :: rest) := by
  induction rest generalizing field with
  | nil =>
    simp only [printFields,fieldsCost,List.length_append,List.length_cons,List.map_cons,List.map_nil,List.sum_cons,
      List.sum_nil,size]
    omega
  | cons next rest ih =>
    have tail := ih next
    simp only [printFields,fieldsCost,List.length_append,List.length_cons,List.map_cons,List.sum_cons,size] at tail ⊢
    omega

theorem arraySize (items : List Json) :
    size number (.array items) = max 1 (itemsCost number items)+1 := by
  cases items with
  | nil => rfl
  | cons item rest =>
    have inner : (printItems number (item :: rest)).length+1 = itemsCost number (item :: rest) :=
      itemsLength item rest
    simp only [size,print,List.length_append,List.length_cons,List.length_nil]
    omega

theorem objectSize (fields : List (List UInt8 × Json)) :
    size number (.object fields) = max 1 (fieldsCost number fields)+1 := by
  cases fields with
  | nil => rfl
  | cons field rest =>
    have inner : (printFields number (field :: rest)).length+1 = fieldsCost number (field :: rest) :=
      fieldsLength field rest
    simp only [size,print,List.length_append,List.length_cons,List.length_nil]
    omega

theorem quoteLength (text : List UInt8) : (quote text).length = (text.flatMap escape).length+2 := by
  simp [quote]

theorem digitsLength {n k : Nat} (positive : 0 < k) (small : n < 10^k) : (digits n).length ≤ k := by
  simpa only [digits,List.length_map] using (Nat.length_toDigits_le_iff (by decide) positive).mpr small

theorem decimalLength {n : Int} {k : Nat} (positive : 0 < k) (low : -10^k < n) (high : n < 10^k) :
    (decimal n).length ≤ k+1 ∧ (0 ≤ n → (decimal n).length ≤ k) := by
  have small : n.natAbs < 10^k := by
    have cast : ((10^k : Nat) : Int) = 10^k := by simp
    omega
  have inner := digitsLength positive small
  unfold decimal
  split
  · exact ⟨Nat.succ_le_succ inner,fun nonneg => by omega⟩
  · exact ⟨Nat.le_succ_of_le inner,fun _ => inner⟩

/-- An octet that stands for itself. -/
def Plain (b : UInt8) : Prop := b ≠ 0x22 ∧ b ≠ 0x5C ∧ 0x20 ≤ b
instance (b) : Decidable (Plain b) := by unfold Plain; infer_instance

theorem escapePlain {b : UInt8} (plain : Plain b) : escape b = [b] := by
  unfold escape
  obtain ⟨quoted,slash,high⟩ := plain
  have big : 0x20 ≤ b.toNat := UInt8.le_iff_toNat_le.mp high
  have apart {c : UInt8} (low : c.toNat < 0x20) : b ≠ c := by
    rintro rfl
    omega
  rw [if_neg (by simp [quoted,slash]),if_neg (apart (by decide)),if_neg (apart (by decide)),if_neg (apart (by decide)),
    if_neg (apart (by decide)),if_neg (apart (by decide)),if_neg (UInt8.not_lt.mpr high)]

theorem quotePlain {text : List UInt8} (plain : ∀ b ∈ text, Plain b) : (quote text).length = text.length+2 := by
  have same : text.flatMap escape = text := by
    induction text with
    | nil => rfl
    | cons b rest ih =>
      rw [List.flatMap_cons,escapePlain (plain b (.head _)),ih fun b mem => plain b (.tail _ mem)]
      rfl
  rw [quoteLength,same]

end Web3PiUps.JsonText
