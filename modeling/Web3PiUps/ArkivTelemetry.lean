import Web3PiUps.ArkivAead
import Web3PiUps.ArkivOpsTxData
import Web3PiUps.HttpBody

/-! The entities an Arkiv unit writes of itself: the telemetry of `arkiv_tlm.c`, the alerts of
`arkiv_event.c`, and `arkiv_writer.cpp` from the seal to the signed transaction. The keys of a
binding and the cryptography are parameters. -/
namespace Web3PiUps.ArkivTelemetry
open WupsProtocol ArkivAead ArkivOpsTxData
open HttpBackend (Slot Slots observeTelemetryFrame wupsClassPower wupsClassHost wupsOpPwrStatus wupsOpHostStatus
  wupsOpNetStatus)

abbrev arkivTlmFreshnessMs : Int := 90000
abbrev arkivTlmMaxInner : Nat := 64
abbrev tlmPayloadBytes : Nat := 2+3*(4+arkivTlmMaxInner)
abbrev arkivTlmDevpubPeriod : Nat := 60
abbrev wupsOpPwrEvent : UInt8 := 0x10
abbrev wupsOpHostEvent : UInt8 := 0x10
abbrev gasPriceFloorWei : UInt64 := 1000
abbrev gasLimitDefault : UInt64 := 300000
abbrev arkivChainId : UInt64 := 1999859817

/-! The cache. `arkiv_tlm_observe_frame` is the one of the HTTP backend, with the same bound. -/

def arkivTlmObserveFrame (s : Slots) (nowUs : Int) (frame : Bytes) : Slots := observeTelemetryFrame s nowUs frame

inductive Kind where | power | host | net deriving DecidableEq, Repr

def Kind.all : List Kind := [.power,.host,.net]

def Kind.cls : Kind → UInt8
  | .power => wupsClassPower
  | .host => wupsClassHost
  | .net => wupsClassNet

def Kind.op : Kind → UInt8
  | .power => wupsOpPwrStatus
  | .host => wupsOpHostStatus
  | .net => wupsOpNetStatus

def slotOf (s : Slots) : Kind → Option Slot
  | .power => s.power
  | .host => s.host
  | .net => s.net

structure Blob where
  out : Bytes
  any : Bool
  full : Bool

def buildItem (s : Slots) (cutoff : Int) (outCap : Nat) (b : Blob) (k : Kind) : Blob :=
  if b.full then b
  else
    match slotOf s k with
    | none => b
    | some slot =>
      if slot.observedUs < cutoff then b
      else if b.out.length+4+slot.data.length > outCap then { b with full := true }
      else
        { b with
          out := b.out ++ [k.cls,k.op,lenLow slot.data.length,lenHigh slot.data.length] ++ slot.data
          any := true }

/-- No bytes where nothing is fresh. -/
def buildPayload (s : Slots) (nowUs : Int) (outCap : Nat) : Bytes :=
  if outCap < 2 then []
  else
    let b := Kind.all.foldl (buildItem s (nowUs-arkivTlmFreshnessMs*1000) outCap) ⟨[1,0],false,false⟩
    if b.any then b.out else []

variable {Key : Type}

/-- What `arkiv_writer_payload_seal` goes by: `keys` are the epoch and the keys of the streams,
`none` on a unit without an owner. -/
structure Binding (Key : Type) where
  ready : Bool
  iccid : Option Bytes
  keys : Option (UInt32 × (UInt8 → Option Key))

def arkivWriterPayloadSeal (gcm : Gcm Key) (w : Binding Key) (typeTag : UInt8) (seq : UInt64)
    (entityType commandId : Option Bytes) (pt : Bytes) (outCap : Nat) : Except Int (Bytes × UInt32) :=
  if !w.ready then .error (-1)
  else if seq = 0 then .error (-2)
  else
    match w.iccid with
    | none => .error (-3)
    | some iccid =>
      if iccid = [] then .error (-3)
      else
        match w.keys with
        | none => .error (-4)
        | some (epoch,key) =>
          match key typeTag with
          | none => .error (-5)
          | some kDir =>
            match arkivAeadSeal gcm typeTag epoch seq kDir (some iccid) entityType commandId pt outCap with
            | .error _ => .error (-6)
            | .ok body => .ok (body,epoch)

def text (key value : String) : Attribute := ⟨ascii key,ascii value,0,false⟩
def bytesAttr (key : String) (value : Bytes) : Attribute := ⟨ascii key,value,0,false⟩
def number (key : String) (value : UInt64) : Attribute := ⟨ascii key,[],value.toInt64,true⟩

def hexDigit (n : UInt8) : UInt8 := (ascii "0123456789abcdef").getD n.toNat 0
def hexEncode (b : Bytes) : Bytes := b.flatMap fun (x : UInt8) => [hexDigit (x >>> 4),hexDigit (x &&& 0x0F)]

/-- `submitted` counts the telemetry entities sent since boot. -/
def tlmEntity (gcm : Gcm Key) (w : Binding Key) (devPub fwVersion : Bytes) (submitted : Nat) (s : Slots) (nowUs : Int)
    (seq : UInt64) : Option CreateOp :=
  match w.iccid with
  | none => none
  | some iccid =>
    let payload := buildPayload s nowUs tlmPayloadBytes
    if payload = [] then none
    else
      match arkivWriterPayloadSeal gcm w 1 seq (some (ascii "w3pups-telemetry")) none payload (tlmPayloadBytes+overhead) with
      | .error _ => none
      | .ok (sealed_,epoch) =>
        let attrs :=
          [text "type" "w3pups-telemetry",bytesAttr "device_id" iccid,number "seq" seq,number "epoch" epoch.toUInt64,
            number "scheme" 3]
        let announced :=
          if submitted % arkivTlmDevpubPeriod = 0 then [bytesAttr "dev_pub" (hexEncode devPub),bytesAttr "fw" fwVersion]
          else []
        some ⟨ascii "application/octet-stream",sealed_,attrs ++ announced,5*60⟩

def powerEventClass (evt : UInt8) : Option String :=
  if evt = 1 then some "power_loss"
  else if evt = 2 then some "mains_restored"
  else if evt = 3 then some "battery_low"
  else if evt = 4 then some "charge_full"
  else if evt = 5 then some "fault"
  else none

/-- The class and the inner payload of a frame that is an event to write. -/
def eventClass (frame : Bytes) : Option (String × Bytes) :=
  if frame.length < wupsHeaderBytes+2 then none
  else
    let innerLen := lenWord (frame.getD 8 0) (frame.getD 9 0)
    if wupsHeaderBytes+innerLen+2 > frame.length ∨ innerLen < 2 then none
    else
      let inner := (frame.drop wupsHeaderBytes).take innerLen
      -- a host event has no class yet
      if frame.getD 4 0 = wupsClassPower ∧ frame.getD 5 0 = wupsOpPwrEvent then
        if inner.getD 0 0 ≠ 1 then none else (powerEventClass (inner.getD 1 0)).map (·,inner)
      else none

def eventEntity (gcm : Gcm Key) (w : Binding Key) (frame : Bytes) (seq : UInt64) : Option CreateOp :=
  match eventClass frame with
  | none => none
  | some (class_,inner) =>
    if inner.length > 256 then none
    else
      match arkivWriterPayloadSeal gcm w 3 seq (some (ascii "w3pups-event")) none inner (256+overhead) with
      | .error _ => none
      | .ok (sealed_,epoch) =>
        some ⟨ascii "application/octet-stream",sealed_,
          [text "type" "w3pups-event",bytesAttr "device_id" (w.iccid.getD (ascii "0")),text "class" class_,number "seq" seq,
            number "epoch" epoch.toUInt64,number "scheme" 3],60*60⟩

def storageAddrBytes : Bytes := List.replicate 15 0 ++ [0x61,0x72,0x6b,0x69,0x76]

def createTx (nonce gasPrice : UInt64) (create : CreateOp) : LegacyTx where
  nonce := nonce
  gasPriceWei := if gasPrice < gasPriceFloorWei then gasPriceFloorWei else gasPrice
  gasLimit := gasLimitDefault
  to_ := storageAddrBytes
  valueWei := 0
  data := buildOpsTxData ⟨[create],[],[],[],[]⟩
  chainId := arkivChainId

/-- What `submit_create` hands to the node. -/
def submitRaw (keccak256 : Bytes → Bytes) (signRecoverable : Bytes → Bytes → Option Signature) (devPriv : Bytes)
    (nonce gasPrice : UInt64) (create : CreateOp) : Bytes :=
  signLegacyTx keccak256 signRecoverable (createTx nonce gasPrice create) devPriv

end Web3PiUps.ArkivTelemetry
