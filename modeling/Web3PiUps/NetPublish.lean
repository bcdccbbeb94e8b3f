import Web3PiUps.WupsRouter
import Web3PiUps.MqttReceipts
import Web3PiUps.HttpBody

/-! The way of a publication: `wupsRequestPublish` and `wupsBuildFrame` of the RP2040's `main.cpp`,
the net.publish frame between the two, and `handle_net_publish` of `wups_link.c` with its two
classifiers. A C string is the bytes before its terminator. -/
namespace Web3PiUps.NetPublish
open WupsProtocol WupsFraming WupsWholeBuffer WupsEncoders StepMachine
open MqttReceipts (Publication publishRaw publishCritical publishSnapshot)

abbrev wupsPortEsp32 : UInt8 := 3
abbrev wupsFlagReq : UInt8 := 0x01
abbrev wupsOpNetPublish : UInt8 := 0x02
abbrev wupsOpNetStatus : UInt8 := 0x01
abbrev wupsClassPower : UInt8 := 0x02
abbrev wupsClassHost : UInt8 := 0x04
abbrev wupsOpPwrStatus : UInt8 := 0x01
abbrev wupsOpPwrEvent : UInt8 := 0x10
abbrev wupsOpHostStatus : UInt8 := 0x01
abbrev wupsOpHostEvent : UInt8 := 0x10
abbrev wupsPwrEvtMainsLost : UInt8 := 1
abbrev wupsPwrEvtMainsRestored : UInt8 := 2
abbrev wupsPwrEvtChargeLow : UInt8 := 3
abbrev wupsPwrEvtFault : UInt8 := 5
abbrev wupsHostEvtShutdownImminent : UInt8 := 1
abbrev wupsHostEvtLowDisk : UInt8 := 2
abbrev wupsHostEvtEthSynced : UInt8 := 3
abbrev wupsHostEvtEthLost : UInt8 := 4
abbrev netPublishHdrBytes : Nat := 6
abbrev powerStatusV1 : Nat := 20
abbrev powerStatusV2 : Nat := 40
abbrev hostStatusV1 : Nat := 12
abbrev netStatusV1 : Nat := 20
abbrev netStatusV2 : Nat := 30
abbrev netStatusV3 : Nat := 31
abbrev eventV1 : Nat := 2
abbrev relBytes : Nat := 201
abbrev topicBytes : Nat := 64

structure Request where
  topic : Bytes
  qos : UInt8
  retain : UInt8
  payload : Bytes
  deriving DecidableEq, Repr

/-- The payload of the net.publish frame, when one is sent. -/
def wupsRequestPublish (r : Request) : Option Bytes :=
  if r.topic.length = 0 ∨ r.topic.length > 200 then none
  else if netPublishHdrBytes+r.topic.length+r.payload.length > wupsMaxPayload then none
  else some ([1,r.qos,r.retain,UInt8.ofNat r.topic.length,lenLow r.payload.length,lenHigh r.payload.length] ++
    r.topic ++ r.payload)

structure Sender where
  txSeq : UInt8
  tx : Rp2040.Tx

def wupsSend (s : Sender) (port dst cls op flags : UInt8) (payload : Bytes) : Sender :=
  { txSeq := s.txSeq+1
    tx := Rp2040.wupsSendWithSrc s.tx port dst wupsAddrRp2040 cls op flags s.txSeq payload }

def publish (s : Sender) (r : Request) : Sender :=
  match wupsRequestPublish r with
  | none => s
  | some payload => wupsSend s wupsPortEsp32 wupsAddrEsp32 wupsClassNet wupsOpNetPublish wupsFlagReq payload

/-- What the firmware writes to its ports: publications, frames of its own, and frames it passes on
or answers under a given sequence number. -/
inductive Write where
  | publish (r : Request)
  | send (port dst cls op flags : UInt8) (payload : Bytes)
  | sendWithSrc (port dst src cls op flags seq : UInt8) (payload : Bytes)
  deriving DecidableEq, Repr

def write (s : Sender) : Write → Sender
  | .publish r => publish s r
  | .send port dst cls op flags payload => wupsSend s port dst cls op flags payload
  | .sendWithSrc port dst src cls op flags seq payload =>
    { s with tx := Rp2040.wupsSendWithSrc s.tx port dst src cls op flags seq payload }

/-- A result of no bytes is a return value of 0. -/
def wupsBuildFrame (cap : Nat) (dst src cls op flags seq : UInt8) (payload : Bytes) : Bytes :=
  if cap < wupsFramingBytes+payload.length then []
  else
    let body := [wupsSync1,wupsSync2,dst,src,cls,op,flags,seq,lenLow payload.length,lenHigh payload.length] ++ payload
    let ck := wupsFletcher8 (slice body 2 (10+payload.length))
    body ++ [ck.1,ck.2,wupsEnd1,wupsEnd2]

def mqttWupsSnapshotKey (frame : Bytes) : UInt32 :=
  let len := frame.length
  if mqttWupsFrameValid (some frame) = false ∨ byteAt frame 6 ≠ wupsFlagEvent ∨ len = wupsFramingBytes then 0
  else if byteAt frame 3 ≠ wupsAddrRpi ∧ byteAt frame 3 ≠ wupsAddrRp2040 ∧ byteAt frame 3 ≠ wupsAddrCh32x ∧
      byteAt frame 3 ≠ wupsAddrEsp32 then 0
  else
    let payloadLen := len-wupsFramingBytes
    let version := byteAt frame wupsHeaderBytes
    let known :=
      if byteAt frame 4 = wupsClassPower ∧ byteAt frame 5 = wupsOpPwrStatus then
        (version = 1 ∧ payloadLen = powerStatusV1) ∨ (version = 2 ∧ payloadLen = powerStatusV2)
      else if byteAt frame 4 = wupsClassHost ∧ byteAt frame 5 = wupsOpHostStatus then
        version = 1 ∧ payloadLen = hostStatusV1
      else if byteAt frame 4 = wupsClassNet ∧ byteAt frame 5 = wupsOpNetStatus then
        (version = 1 ∧ payloadLen = netStatusV1) ∨ (version = 2 ∧ payloadLen = netStatusV2) ∨
          (version = 3 ∧ payloadLen = netStatusV3)
      else False
    if known then ((byteAt frame 3).toUInt32 <<< 16) ||| ((byteAt frame 4).toUInt32 <<< 8) ||| (byteAt frame 5).toUInt32
    else 0

def mqttWupsCriticalEvent (frame : Bytes) : Bool :=
  let len := frame.length
  if mqttWupsFrameValid (some frame) = false ∨ byteAt frame 6 ≠ wupsFlagEvent ∨ len < wupsFramingBytes+2 ∨
      byteAt frame wupsHeaderBytes ≠ 1 then false
  else
    let event := byteAt frame (wupsHeaderBytes+1)
    if byteAt frame 4 = wupsClassPower ∧ byteAt frame 5 = wupsOpPwrEvent ∧ len = wupsFramingBytes+eventV1 then
      event = wupsPwrEvtMainsLost || event = wupsPwrEvtMainsRestored || event = wupsPwrEvtChargeLow || event = wupsPwrEvtFault
    else if byteAt frame 4 = wupsClassHost ∧ byteAt frame 5 = wupsOpHostEvent ∧ len = wupsFramingBytes+eventV1 then
      event = wupsHostEvtShutdownImminent || event = wupsHostEvtLowDisk || event = wupsHostEvtEthSynced ||
        event = wupsHostEvtEthLost
    else false

/-- What the handler asks of the rest of the firmware: the ICCID, whether the claim state is
`ARKIV_CLAIMED`, whether the backend mode is HTTP, and the book of commands that await an ack. -/
structure Setting where
  iccid : Option Bytes
  claimed : Bool
  httpMode : Bool
  hasPending : UInt8 → Bool
  emits : UInt8 → Bytes → Bool

inductive Effect where
  | arkivTlm (frame : Bytes)
  | httpTlm (frame : Bytes)
  | arkivEvent (frame : Bytes)
  | ack (seq : UInt8) (inner : Bytes)
  | submitted (p : Publication)
  deriving DecidableEq, Repr

def cString (b : Bytes) : Bytes := b.takeWhile (· ≠ 0)

/-- The two letters that let a topic through as it is. -/
def absolute (topic : Bytes) : Bool :=
  2 ≤ topic.length && (byteAt topic 0 = 0x74 || byteAt topic 0 = 0x63) && byteAt topic 1 = 0x2F

def mqttTopic (e : Setting) (topic : Bytes) : Option Bytes :=
  if absolute topic then
    if topic.length+1 > topicBytes then none else some (cString topic)
  else
    match e.iccid with
    | none => none
    | some iccid =>
      if iccid = [] then none
      else
        let whole := ascii "t/" ++ iccid ++ ascii "/" ++ cString topic
        if whole.length ≥ topicBytes then none else some whole

def observers (e : Setting) (topic payload : Bytes) : List Effect :=
  (if !absolute topic ∧ cString topic = ascii "telemetry" ∧ e.claimed then [.arkivTlm payload] else []) ++
  (if !absolute topic ∧ cString topic = ascii "telemetry" ∧ e.httpMode then [.httpTlm payload] else []) ++
  (if !absolute topic ∧ cString topic = ascii "event" ∧ e.claimed then [.arkivEvent payload] else [])

/-- The part of the inner payload that is there. -/
def innerPayload (payload : Bytes) : Bytes :=
  let avail := payload.length-wupsHeaderBytes
  (payload.drop wupsHeaderBytes).take (min (lenWord (byteAt payload 8) (byteAt payload 9)) avail)

def submission (topic whole payload : Bytes) (qos retain : UInt8) : Publication :=
  let snapshotKey := if !absolute topic ∧ cString topic = ascii "telemetry" then mqttWupsSnapshotKey payload else 0
  let critical := !absolute topic && (cString topic = ascii "cmd/response" ||
    (cString topic = ascii "event" && mqttWupsCriticalEvent payload))
  if snapshotKey ≠ 0 then
    publishSnapshot (some whole) (some payload) payload.length qos.toNat retain.toNat snapshotKey
  else if critical then publishCritical (some whole) (some payload) payload.length qos.toNat retain.toNat
  else publishRaw (some whole) (some payload) payload.length qos.toNat retain.toNat

/-- What becomes of a publication whose lengths have passed. -/
def deliver (e : Setting) (r : Request) : List Effect :=
  match mqttTopic e r.topic with
  | none => []
  | some whole =>
    let seen := observers e r.topic r.payload
    let last : Effect := .submitted (submission r.topic whole r.payload r.qos r.retain)
    if !absolute r.topic ∧ cString r.topic = ascii "cmd/response" ∧ e.claimed ∧ r.payload.length ≥ wupsHeaderBytes ∧
        e.hasPending (byteAt r.payload 7) then
      let inner := innerPayload r.payload
      if e.emits (byteAt r.payload 7) inner then seen ++ [.ack (byteAt r.payload 7) inner]
      else seen ++ [.ack (byteAt r.payload 7) inner,last]
    else seen ++ [last]

def parsePublish (payload : Bytes) : Option Request :=
  let len := payload.length
  if len < netPublishHdrBytes then none
  else
    let topicLen := (byteAt payload 3).toNat
    let payloadLen := lenWord (byteAt payload 4) (byteAt payload 5)
    if byteAt payload 0 ≠ 1 then none
    else if netPublishHdrBytes+topicLen+payloadLen > len then none
    else if topicLen = 0 then none
    else if topicLen ≥ relBytes then none
    else some
      ⟨slice payload netPublishHdrBytes (netPublishHdrBytes+topicLen),byteAt payload 1,byteAt payload 2,
        slice payload (netPublishHdrBytes+topicLen) (netPublishHdrBytes+topicLen+payloadLen)⟩

def handleNetPublish (e : Setting) (payload : Bytes) : List Effect := ((parsePublish payload).map (deliver e)).getD []

/-- Of `on_local_frame`, the frames it hands to `handle_net_publish`. -/
def onLocalFrame (e : Setting) (f : WupsFrame) : List Effect :=
  if f.cls = wupsClassNet ∧ f.op = wupsOpNetPublish ∧ f.flags &&& wupsFlagReq ≠ 0 then handleNetPublish e f.payload else []

def deliverFrame (e : Setting) (f : WupsFrame) : List Effect :=
  if f.dst ≠ wupsAddrEsp32 ∧ f.dst ≠ wupsAddrBroadcast ∧ f.dst ≠ wupsAddrInternal then [] else onLocalFrame e f

end Web3PiUps.NetPublish
