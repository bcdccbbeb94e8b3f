import Web3PiUps.Lib.DeterministicNonce
import Web3PiUps.MicroEcc
import Web3PiUps.WupsProtocol

/-! The recoverable signatures of `arkiv_crypto/src/secp256k1.c`. The hash and the point multiplication
of micro-ecc are parameters. -/
namespace Web3PiUps.ArkivSecp256k1
open WupsProtocol DeterministicNonce MicroEcc

abbrev Bytes32 : Type := {b : Bytes // b.length = 32}

def curveP : Nat := 0xFFFFFFFFFFFFFFFFFFFFFFFFFFFFFFFFFFFFFFFFFFFFFFFFFFFFFFFEFFFFFC2F
def curveN : Nat := 0xFFFFFFFFFFFFFFFFFFFFFFFFFFFFFFFEBAAEDCE6AF48A03BBFD25E8CD0364141
def curveG : Nat × Nat :=
  (0x79BE667EF9DCBBAC55A06295CE870B07029BFCDB2DCE28D959F2815B16F81798,
   0x483ADA7726A3C4655DA4FBFC0E1108A8FD17B448A68554199C47D08FFB10D4B8)

variable (sha256 : Bytes → Bytes32)

def kPad (key : Bytes) (mask : UInt8) : Bytes :=
  (key ++ List.replicate (64-key.length) 0).map (· ^^^ mask)

def arkivHmacSha256 (key msg : Bytes) : Bytes32 :=
  let key := if 64 < key.length then (sha256 key).val else key
  let inner := sha256 (kPad key 0x36 ++ msg)
  sha256 (kPad key 0x5c ++ inner.val)

structure Rfc6979Ctx where
  K : Bytes32
  V : Bytes32
  deriving DecidableEq, Repr

def rfc6979Init (priv hashModN : Bytes32) : Rfc6979Ctx :=
  let V : Bytes32 := ⟨List.replicate 32 0x01,List.length_replicate ..⟩
  let K : Bytes32 := ⟨List.replicate 32 0x00,List.length_replicate ..⟩
  let K := arkivHmacSha256 sha256 K.val (V.val ++ [0x00] ++ priv.val ++ hashModN.val)
  let V := arkivHmacSha256 sha256 K.val V.val
  let K := arkivHmacSha256 sha256 K.val (V.val ++ [0x01] ++ priv.val ++ hashModN.val)
  let V := arkivHmacSha256 sha256 K.val V.val
  ⟨K,V⟩

def rfc6979NextT (r : Rfc6979Ctx) : Rfc6979Ctx × Bytes32 :=
  let V := arkivHmacSha256 sha256 r.K.val r.V.val
  (⟨r.K,V⟩,V)

def rfc6979Reseed (r : Rfc6979Ctx) : Rfc6979Ctx :=
  let K := arkivHmacSha256 sha256 r.K.val (r.V.val ++ [0x00])
  ⟨K,arkivHmacSha256 sha256 K.val r.V.val⟩

def bytes32ToScalarModN (b : Bytes32) : Nat :=
  let out := value b.val
  if 0 ≤ vliCmp out curveN then (vliSub out curveN).1 else out

def nativeToBytes (native : Nat) : Bytes32 := ⟨octets 32 native,octetsLength 32 native⟩

structure Signed where
  r : Nat
  s : Nat
  recid : Nat
  deriving DecidableEq, Repr

/-- The scalar `k⁻¹(z+rd)`. -/
def signScalar (d z k r : Nat) : Nat :=
  let rd := vliModMult r d curveN
  let zPlusRd := vliModAdd z rd curveN
  let kinv := vliModInv k curveN (by decide)
  vliModMult kinv zPlusRd curveN

/-- The signature from `R = kG`, with the lower of the two scalars. -/
def signWith (d z k : Nat) (R : Nat × Nat) : Option Signed :=
  let rxWrapped := if 0 ≤ vliCmp R.1 curveN then 1 else 0
  let r := if 0 ≤ vliCmp R.1 curveN then (vliSub R.1 curveN).1 else R.1
  if vliIsZero r then none
  else
    let candRecid := (R.2 &&& 1) ||| (rxWrapped <<< 1)
    let s := signScalar d z k r
    if vliIsZero s then none
    else if 0 < vliCmp s (vliRshift1 curveN) then some ⟨r,(vliSub curveN s).1,candRecid ^^^ 1⟩
    else some ⟨r,s,candRecid⟩

variable (pointMult : Nat × Nat → Nat → Nat × Nat)

/-- One turn of the signing loop, `none` where it goes on with another candidate. -/
def attempt (d z : Nat) (t : Bytes32) : Option Signed :=
  let k := value t.val
  if vliIsZero k ∨ 0 ≤ vliCmp k curveN then none
  else signWith d z k (pointMult curveG k)

def signLoop (d z : Nat) : Nat → Rfc6979Ctx → Option Signed
  | 0, _ => none
  | tries+1, rfc =>
    let (rfc,t) := rfc6979NextT sha256 rfc
    match attempt pointMult d z t with
    | none => signLoop d z tries (rfc6979Reseed sha256 rfc)
    | some signed => some signed

/-- The return code, and what is written to `sig_out`. -/
def arkivSecp256k1SignRecoverable (priv digest : Bytes32) : Int × Option Bytes :=
  let d := value priv.val
  if vliIsZero d then (-1,none)
  else if 0 ≤ vliCmp d curveN then (-2,none)
  else
    let z := bytes32ToScalarModN digest
    let rfc := rfc6979Init sha256 priv (nativeToBytes z)
    match signLoop sha256 pointMult d z 16 rfc with
    | none => (-3,none)
    | some signed => (signed.recid,some ((nativeToBytes signed.r).val ++ (nativeToBytes signed.s).val))

end Web3PiUps.ArkivSecp256k1
