import Web3PiUps.ArkivTelemetry
import Web3PiUps.CmdauthArkivLife
import Web3PiUps.Lib.JsonText
import Web3PiUps.Lib.StampedCache

/-! The keys of `arkiv_writer_payload_seal`, kept by `arkiv_writer.cpp` under the generation of the
binding, while another task binds, ratchets or clears it. ECDH and HKDF are parameters; a payload is
sealed under the lock, the binding changes without one. -/
namespace Web3PiUps.ArkivSealKeys
open WupsProtocol (Bytes ascii)
open ArkivAead (Gcm purposeForType)
open ArkivTelemetry (Binding arkivWriterPayloadSeal hexEncode)
open CmdauthArkivLife (Device Keys Op)
open StampedCache (Filled Reader Cache look)

structure Derivation (Key : Type) where
  ecdh : (devPriv encPub : Bytes) → Option Bytes
  hkdf : (ikm salt info : Bytes) → Except Int Key

variable {Key : Type} (c : Derivation Key)

def arkivAeadDeriveKey (sharedX ownerAddrLower devicePubhexLower : Bytes) (typeTag : UInt8) (epoch : UInt32) :
    Except Int Key :=
  match purposeForType typeTag with
  | none => .error (-1)
  | some purpose =>
    let salt := ownerAddrLower ++ ascii "|" ++ devicePubhexLower
    if 200 ≤ salt.length then .error (-2)
    else
      let info := ascii "w3pups-arkiv-" ++ ascii purpose ++ ascii "|epoch=" ++ JsonText.digits epoch.toNat
      if 64 ≤ info.length then .error (-3)
      else c.hkdf sharedX salt info

structure DevKey where
  priv : Bytes
  pub : Bytes

structure Fields where
  ownerAddr : Bytes
  encPub : Bytes
  keyEpoch : UInt32

structure DirKeys (Key : Type) where
  epoch : UInt32
  tlm : Key
  ack : Key
  event : Key

def DirKeys.key (k : DirKeys Key) (typeTag : UInt8) : Option Key :=
  if typeTag = 1 then some k.tlm
  else if typeTag = 2 then some k.ack
  else if typeTag = 3 then some k.event
  else none

def fieldsOf (d : Device) : Fields := ⟨d.auth.ownerAddr,d.encPub,UInt32.ofNat d.auth.keyEpoch⟩

/-- Neither `cmdauth_arkiv_enc_pub` nor `cmdauth_arkiv_owner_addr` is null. -/
def bound (d : Device) : Bool := d.haveEnc && d.auth.haveOwner

/-- Past the hit; a key that cannot be derived loses the kept ones, a failed ECDH does not. -/
def derive (dev : DevKey) (f : Fields) : Except Bool (DirKeys Key) :=
  match c.ecdh dev.priv f.encPub with
  | none => .error false
  | some sharedX =>
    let ownerLower := ascii "0x" ++ hexEncode f.ownerAddr
    let devpubLower := hexEncode dev.pub
    let kDir := fun typeTag => arkivAeadDeriveKey c sharedX ownerLower devpubLower typeTag f.keyEpoch
    match kDir 1,kDir 2,kDir 3 with
    | .ok tlm,.ok ack,.ok event => .ok ⟨f.keyEpoch,tlm,ack,event⟩
    | _,_,_ => .error true

abbrev Kept (Key : Type) : Type := Option (Filled UInt32 (DirKeys Key))

/-- What is kept after it, and what the payload is sealed under. -/
def sealRefreshKeysLocked (dev : DevKey) (owned : Bool) (kept : Kept Key) (gen : UInt32) (count : Nat) (f : Fields) :
    Kept Key × Option (DirKeys Key) :=
  if !owned then (kept,none) else look (derive c dev) kept gen count f

structure Call where
  typeTag : UInt8
  seq : UInt64
  iccid : Option Bytes
  entityType : Option Bytes
  commandId : Option Bytes
  pt : Bytes
  outCap : Nat

def payloadSeal (gcm : Gcm Key) (keys : Option (DirKeys Key)) (call : Call) : Except Int (Bytes × UInt32) :=
  arkivWriterPayloadSeal gcm ⟨true,call.iccid,keys.map fun k => (k.epoch,k.key)⟩ call.typeTag call.seq call.entityType
    call.commandId call.pt call.outCap

/-- A payload sealed, and the state it was sealed in. -/
structure Seal (Key : Type) where
  disturbed : Bool
  count : Nat
  life : Device
  dev : DevKey
  call : Call
  result : Except Int (Bytes × UInt32)

/-- `owned` and `gen` are locals of the reader, `changing` is the change that has begun to write. -/
structure Writer (Key : Type) where
  life : Device
  dev : DevKey
  changing : Option Op
  cache : Cache Fields UInt32 (DirKeys Key)
  owned : Bool
  gen : UInt32
  seals : List (Seal Key)

def Writer.boot (life : Device) (dev : DevKey) (seals : List (Seal Key)) : Writer Key :=
  ⟨life,dev,none,.boot (fieldsOf life),false,0,seals⟩

def Op.inBoot : Op → Bool
  | .reboot _ _ => false
  | _ => true

def after (env : Keys) (d : Device) (op : Op) : Device := (CmdauthArkivLife.step env d op).1

/-- The end of a refresh; without a call it is a prewarm. -/
def refreshed (gcm : Gcm Key) (w : Writer Key) (r : Reader) (n : Nat) (sample : Fields) (call : Option Call) : Writer Key :=
  let (kept,keys) := sealRefreshKeysLocked c w.dev w.owned w.cache.filled w.gen n sample
  { w with
    cache := w.cache.leave kept
    seals := w.seals ++ call.toList.map fun call =>
      ⟨r.disturbed,w.cache.count,w.life,w.dev,call,payloadSeal gcm keys call⟩ }

inductive Step (env : Keys) (gcm : Gcm Key) : Writer Key → Writer Key → Prop where
  /-- A command checked, a change refused. -/
  | other {w : Writer Key} {o : Op} (inBoot : Op.inBoot o = true)
      (same : (after env w.life o).bindingGen = w.life.bindingGen) : Step env gcm w { w with life := after env w.life o }
  | begin_ {w : Writer Key} {o : Op} (inBoot : Op.inBoot o = true) (idle : w.changing = none) :
      Step env gcm w { w with changing := some o, cache := w.cache.begin_ }
  | finish {w : Writer Key} {o : Op} (inBoot : Op.inBoot o = true) (changing : w.changing = some o)
      (counted : (after env w.life o).bindingGen = w.life.bindingGen+1) :
      Step env gcm w { w with
        life := after env w.life o
        changing := none
        cache := w.cache.finish (fieldsOf (after env w.life o)) }
  | reboot {w : Writer Key} (provisioned opens : Bool) (dev : DevKey) :
      Step env gcm w (.boot (after env w.life (.reboot provisioned opens)) dev w.seals)
  | start {w : Writer Key} (free : w.cache.reader = none) (owned : Bool)
      (seen : w.changing = none → owned = bound w.life) : Step env gcm w { w with cache := w.cache.start, owned }
  | take {w : Writer Key} {r : Reader} (here : w.cache.reader = some r) (first : r.counted = none) :
      Step env gcm w { w with cache := w.cache.take r, gen := w.life.bindingGen }
  | refresh {w : Writer Key} {r : Reader} {n : Nat} (here : w.cache.reader = some r) (counted : r.counted = some n)
      (sample : Fields) (sampled : w.cache.Sampled r sample) (call : Option Call) :
      Step env gcm w (refreshed c gcm w r n sample call)

inductive Reach (env : Keys) (gcm : Gcm Key) : Writer Key → Prop where
  | boot (life : Device) (dev : DevKey) (cleared : life.bindingGen = 0) : Reach env gcm (.boot life dev [])
  | step {w w' : Writer Key} (before : Reach env gcm w) (next : Step c env gcm w w') : Reach env gcm w'

end Web3PiUps.ArkivSealKeys
