import Web3PiUps.Lib.Slices
import Web3PiUps.WupsProtocol

/-! `firmware-rp2040/src/sha256.cpp`. Of the block buffer only the `datalen` bytes
in use are kept. -/
namespace Web3PiUps.FwSha256
open WupsProtocol Slices

structure Ctx where
  state : List UInt32
  bitlen : UInt64
  data : Bytes
  deriving DecidableEq, Repr

def rotr (x n : UInt32) : UInt32 := (x >>> n) ||| (x <<< (32-n))
def ch (x y z : UInt32) : UInt32 := (x &&& y) ^^^ (~~~x &&& z)
def maj (x y z : UInt32) : UInt32 := (x &&& y) ^^^ (x &&& z) ^^^ (y &&& z)
def ep0 (x : UInt32) : UInt32 := rotr x 2 ^^^ rotr x 13 ^^^ rotr x 22
def ep1 (x : UInt32) : UInt32 := rotr x 6 ^^^ rotr x 11 ^^^ rotr x 25
def sig0 (x : UInt32) : UInt32 := rotr x 7 ^^^ rotr x 18 ^^^ (x >>> 3)
def sig1 (x : UInt32) : UInt32 := rotr x 17 ^^^ rotr x 19 ^^^ (x >>> 10)

def roundConstants : List UInt32 := [
  0x428a2f98,0x71374491,0xb5c0fbcf,0xe9b5dba5,0x3956c25b,0x59f111f1,0x923f82a4,0xab1c5ed5,
  0xd807aa98,0x12835b01,0x243185be,0x550c7dc3,0x72be5d74,0x80deb1fe,0x9bdc06a7,0xc19bf174,
  0xe49b69c1,0xefbe4786,0x0fc19dc6,0x240ca1cc,0x2de92c6f,0x4a7484aa,0x5cb0a9dc,0x76f988da,
  0x983e5152,0xa831c66d,0xb00327c8,0xbf597fc7,0xc6e00bf3,0xd5a79147,0x06ca6351,0x14292967,
  0x27b70a85,0x2e1b2138,0x4d2c6dfc,0x53380d13,0x650a7354,0x766a0abb,0x81c2c92e,0x92722c85,
  0xa2bfe8a1,0xa81a664b,0xc24b8b70,0xc76c51a3,0xd192e819,0xd6990624,0xf40e3585,0x106aa070,
  0x19a4c116,0x1e376c08,0x2748774c,0x34b0bcb5,0x391c0cb3,0x4ed8aa4a,0x5b9cca4f,0x682e6ff3,
  0x748f82ee,0x78a5636f,0x84c87814,0x8cc70208,0x90befffa,0xa4506ceb,0xbef9a3f7,0xc67178f2]

def word (data : Bytes) (i : Nat) : UInt32 :=
  ((data.getD (4*i) 0).toUInt32 <<< 24) ||| ((data.getD (4*i+1) 0).toUInt32 <<< 16) |||
    ((data.getD (4*i+2) 0).toUInt32 <<< 8) ||| (data.getD (4*i+3) 0).toUInt32

def schedule (data : Bytes) : List UInt32 :=
  (List.range 48).foldl
    (fun m i => m ++ [sig1 (m.getD (i+14) 0) + m.getD (i+9) 0 + sig0 (m.getD (i+1) 0) + m.getD i 0])
    ((List.range 16).map (word data))

/-- One round on the working variables `[a,b,c,d,e,f,g,h]`. -/
def round : List UInt32 → UInt32 × UInt32 → List UInt32
  | [a,b,c,d,e,f,g,h], (k,m) =>
    let t1 := h + ep1 e + ch e f g + k + m
    let t2 := ep0 a + maj a b c
    [t1+t2,a,b,c,d+t1,e,f,g]
  | other, _ => other

def sha256Transform (state : List UInt32) (data : Bytes) : List UInt32 :=
  List.zipWith (·+·) state ((roundConstants.zip (schedule data)).foldl round state)

def fwSha256Init : Ctx :=
  ⟨[0x6a09e667,0xbb67ae85,0x3c6ef372,0xa54ff53a,0x510e527f,0x9b05688c,0x1f83d9ab,0x5be0cd19],0,[]⟩

def absorb (ctx : Ctx) (b : UInt8) : Ctx :=
  let data := ctx.data ++ [b]
  if data.length = 64 then ⟨sha256Transform ctx.state data,ctx.bitlen+512,[]⟩ else { ctx with data := data }

def fwSha256Update (ctx : Ctx) (data : Bytes) : Ctx := data.foldl absorb ctx

def bigEndian (x : UInt32) : Bytes := [(x >>> 24).toUInt8,(x >>> 16).toUInt8,(x >>> 8).toUInt8,x.toUInt8]

def fwSha256Final (ctx : Ctx) : Bytes :=
  let padded := ctx.data ++ [0x80]
  let full := padded.length > 56
  let state := if full then sha256Transform ctx.state (padded ++ List.replicate (64-padded.length) 0) else ctx.state
  let head := if full then List.replicate 56 0 else padded ++ List.replicate (56-padded.length) 0
  let bitlen := ctx.bitlen + UInt64.ofNat ctx.data.length*8
  let tail := (List.range 8).map (fun j => (bitlen >>> UInt64.ofNat (8*(7-j))).toUInt8)
  (sha256Transform state (head ++ tail)).flatMap bigEndian

def sha256 (data : Bytes) : Bytes := fwSha256Final (fwSha256Update fwSha256Init data)

theorem roundLength (state : List UInt32) (km : UInt32 × UInt32) : (round state km).length = state.length := by
  unfold round; split <;> rfl

theorem transformLength (state : List UInt32) (data : Bytes) :
    (sha256Transform state data).length = state.length := by
  have rounds : ∀ (l : List (UInt32 × UInt32)) (s : List UInt32), (l.foldl round s).length = s.length := by
    intro l
    induction l with
    | nil => exact fun _ => rfl
    | cons km rest ih => exact fun s => (ih _).trans (roundLength s km)
  rw [sha256Transform,List.length_zipWith,rounds,Nat.min_self]

theorem absorbLength (ctx : Ctx) (b : UInt8) : (absorb ctx b).state.length = ctx.state.length := by
  unfold absorb
  dsimp only
  split
  · exact transformLength _ _
  · rfl

theorem updateLength (ctx : Ctx) (data : Bytes) : (fwSha256Update ctx data).state.length = ctx.state.length := by
  unfold fwSha256Update
  induction data generalizing ctx with
  | nil => rfl
  | cons b rest ih => exact (ih _).trans (absorbLength ctx b)

theorem finalLength (ctx : Ctx) : (fwSha256Final ctx).length = 4*ctx.state.length := by
  have words : ∀ l : List UInt32, (l.flatMap bigEndian).length = 4*l.length := by
    intro l
    induction l with
    | nil => rfl
    | cons x rest ih =>
      have four : (bigEndian x).length = 4 := rfl
      rw [List.flatMap_cons,List.length_append,ih,four,List.length_cons]
      omega
  unfold fwSha256Final
  dsimp only
  rw [words,transformLength]
  split
  · rw [transformLength]
  · rfl

theorem sha256Length (data : Bytes) : (sha256 data).length = 32 := by
  rw [sha256,finalLength,updateLength]; rfl

theorem sliced {size : Nat} (positive : 0 < size) (data : Bytes) :
    fwSha256Final ((slices size data).foldl fwSha256Update fwSha256Init) = sha256 data := by
  have joined : ∀ (parts : List Bytes) (ctx : Ctx),
      parts.foldl fwSha256Update ctx = fwSha256Update ctx parts.flatten := by
    intro parts
    induction parts with
    | nil => exact fun _ => rfl
    | cons first rest ih =>
      intro ctx
      rw [List.foldl_cons,ih,List.flatten_cons]
      exact (List.foldl_append ..).symm
  rw [joined,slicesFlatten positive,sha256]

end Web3PiUps.FwSha256
