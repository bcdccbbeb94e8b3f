import Web3PiUps.WupsProtocol
import Mathlib.Algebra.Group.Nat.Defs

/-! A `w3pups-cmd` entity as `cJSON_Parse` leaves it, and the readers of
`arkiv_rpc.c` over it. A C string is the list of its bytes before the
terminator; a null pointer is `none`. A JSON number is kept as its value cast to
`uint64_t`, which is all the readers take of it. -/
namespace Web3PiUps.ArkivEntity
open WupsProtocol

inductive Json where
  | null
  | bool (value : Bool)
  | number (valuedouble : UInt64)
  | string (valuestring : Bytes)
  | array (items : List Json)
  | object (fields : List (Bytes × Json))

def children : Option Json → List Json
  | some (.array items) => items
  | some (.object fields) => fields.map Prod.snd
  | _ => []

def getObjectItem (json : Option Json) (key : Bytes) : Option Json :=
  match json with
  | some (.object fields) => (fields.find? (fun field => decide (field.1 = key))).map Prod.snd
  | _ => none

def valueString : Option Json → Option Bytes
  | some (.string s) => some s
  | _ => none

def hexnib (c : UInt8) : Option UInt8 :=
  if 0x30 ≤ c ∧ c ≤ 0x39 then some (c-0x30)
  else if 0x61 ≤ c ∧ c ≤ 0x66 then some (c-0x61+10)
  else if 0x41 ≤ c ∧ c ≤ 0x46 then some (c-0x41+10)
  else none

def skipHexMark : Bytes → Bytes
  | 0x30::x::rest => if x = 0x78 ∨ x = 0x58 then rest else 0x30::x::rest
  | hex => hex

def hexPairs : Bytes → Option Bytes
  | [] => some []
  | [_] => none
  | hi::lo::rest => do
    let hi ← hexnib hi
    let lo ← hexnib lo
    let bytes ← hexPairs rest
    some (((hi <<< 4) ||| lo)::bytes)

def hexDecode (hex : Bytes) (outLen : Nat) : Option Bytes :=
  let hex := skipHexMark hex
  if hex.length ≠ outLen*2 then none else hexPairs hex

def hexDecodeVar (hex : Bytes) (outCap : Nat) : Option Bytes :=
  let hex := skipHexMark hex
  if hex.length % 2 ≠ 0 then none else
  if hex.length/2 = 0 ∨ hex.length/2 > outCap then none else hexPairs hex

/-! `strtoull` in base 0: blanks, a sign, `0x` or `0` for the base, the digits;
an overflow saturates. -/

def isBlank (c : UInt8) : Bool := c == 0x20 || (0x09 ≤ c && c ≤ 0x0D)

def digitOf (base : Nat) (c : UInt8) : Option Nat :=
  ((hexnib c).map UInt8.toNat).filter (fun digit => decide (digit < base))

def readDigits (base : Nat) : Nat → Bytes → Nat
  | acc, [] => acc
  | acc, c::rest =>
    match digitOf base c with
    | some digit => readDigits base (acc*base+digit) rest
    | none => acc

def readSign : Bytes → Bool × Bytes
  | 0x2D::rest => (true,rest)
  | 0x2B::rest => (false,rest)
  | text => (false,text)

def readBase : Bytes → Nat × Bytes
  | 0x30::x::rest => if x = 0x78 ∨ x = 0x58 then (16,rest) else (8,0x30::x::rest)
  | 0x30::rest => (8,0x30::rest)
  | text => (10,text)

def strtoull (text : Bytes) : Nat :=
  let (negative,unsigned_) := readSign (text.dropWhile isBlank)
  let (base,digits) := readBase unsigned_
  let value := readDigits base 0 digits
  if value > 2^64-1 then 2^64-1 else if negative then (2^64-value) % 2^64 else value

/-! Attributes: arrays of `{"key": …, "value": …}`. -/

def attrKey (it : Json) : Option Bytes := valueString (getObjectItem (some it) (ascii "key"))
def attrValue (it : Json) : Option Json := getObjectItem (some it) (ascii "value")

def strAttr (arr : Option Json) (key : Bytes) : Option Bytes :=
  (children arr).findSome? (fun it =>
    if attrKey it = some key then valueString (attrValue it) else none)

def numValue : Option Json → Option Nat
  | some (.number n) => some n.toNat
  | some (.string s) => some (strtoull s)
  | _ => none

def numAttr (arr : Option Json) (key : Bytes) : Nat :=
  ((children arr).findSome? (fun it =>
    if attrKey it = some key then numValue (attrValue it) else none)).getD 0

end Web3PiUps.ArkivEntity
