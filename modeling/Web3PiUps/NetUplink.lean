import Web3PiUps.NetPublish
import Web3PiUps.CmdauthArkiv

/-! What the RP2040 sends up, after `wups_on_local_frame` of `main.cpp`: the events and the answers
of the RPi as they come, the power status of the CH32X on a change and now and then, and its own
answers to commands. One reading of the clock stands for those a call makes. -/
namespace Web3PiUps.NetUplink
open WupsProtocol WupsFraming WupsWholeBuffer NetPublish
open WupsRouter (wupsPortRpi isHostResp isNetDownlink)
open CmdauthArkiv (littleEndian)

abbrev wupsPortCh32x : UInt8 := 2
abbrev wupsClassUi : UInt8 := 0x05
abbrev wupsOpUiBeep : UInt8 := 0x03
abbrev wupsOpSysPing : UInt8 := 0x01
abbrev wupsOpNetFwXferBegin : UInt8 := 0x23
abbrev wupsOpNetFwXferData : UInt8 := 0x24
abbrev wupsOpNetFwXferEnd : UInt8 := 0x25
abbrev fwVersionU16 : Nat := 0x0102
abbrev wupsOpPwrEnable : UInt8 := 0x02
abbrev wupsOpPwrDisable : UInt8 := 0x03
abbrev wupsOpPwrCycle : UInt8 := 0x04
abbrev wupsOpPwrReset : UInt8 := 0x05
abbrev uiBeepV1 : Nat := 6
abbrev telemetryUplinkIntervalMs : Nat := 30000

structure Uplink where
  primed : Bool
  lastPg : Bool
  lastFaults : Nat
  lastMs : UInt32
  pwrRaw : Bytes
  lastStatusMs : UInt32
  deriving DecidableEq, Repr

def boot : Uplink := ⟨false,false,0,0,[],0⟩

def publishFrame (topic : Bytes) (qos : UInt8) (frame : Bytes) : List Write :=
  if frame = [] then [] else [.publish ⟨topic,qos,0,frame⟩]

def wupsPublishCmdResponse (cls op seq code : UInt8) : List Write :=
  publishFrame (ascii "cmd/response") 1
    (wupsBuildFrame (wupsFramingBytes+1) wupsAddrRpi wupsAddrRp2040 cls op wupsFlagResp seq [code])

def wupsPublishTelemetryStatus (seq : UInt8) (payload : Bytes) : List Write :=
  if payload.length = 0 ∨ payload.length > wupsMaxPayload then []
  else
    publishFrame (ascii "telemetry") 0
      (wupsBuildFrame (wupsFramingBytes+wupsMaxPayload) wupsAddrBroadcast wupsAddrCh32x wupsClassPower wupsOpPwrStatus
        wupsFlagEvent seq payload)

def wupsPublishHostStatus (seq : UInt8) (s : Bytes) : List Write :=
  publishFrame (ascii "telemetry") 0
    (wupsBuildFrame (wupsFramingBytes+hostStatusV1) wupsAddrBroadcast wupsAddrRpi wupsClassHost wupsOpHostStatus
      wupsFlagEvent seq s)

/-- The two that pass a frame on as it is, with room for 64 bytes of payload. -/
def publishVerbatim (topic : Bytes) (f : WupsFrame) : List Write :=
  publishFrame topic 1 (wupsBuildFrame (wupsFramingBytes+64) f.dst f.src f.cls f.op f.flags f.seq f.payload)

def wupsPublishEventFrame (f : WupsFrame) : List Write := publishVerbatim (ascii "event") f

def wupsPublishCmdResponseFrame (f : WupsFrame) : List Write := publishVerbatim (ascii "cmd/response") f

def isEvent (inbound : UInt8) (f : WupsFrame) : Bool :=
  f.flags &&& wupsFlagEvent ≠ 0 ∧ inbound ≠ wupsPortEsp32 ∧
    ((f.cls = wupsClassPower ∧ f.op = wupsOpPwrEvent) ∨ (f.cls = wupsClassHost ∧ f.op = wupsOpHostEvent))

def isPowerStatus (f : WupsFrame) : Bool :=
  f.cls = wupsClassPower ∧ f.op = wupsOpPwrStatus ∧ f.src = wupsAddrCh32x ∧ f.len ≥ 1

/-- Whether the input is good, and the faults, when the payload has a layout the RP2040 knows. -/
def decodeStatus (p : Bytes) : Option (Bool × Nat) :=
  if byteAt p 0 = 2 ∧ p.length ≥ powerStatusV2 then
    some (lenWord (byteAt p 4) (byteAt p 5) > 5000,lenWord (byteAt p 34) (byteAt p 35))
  else if byteAt p 0 = 1 ∧ p.length ≥ powerStatusV1 then
    some (lenWord (byteAt p 2) (byteAt p 3) > 5000,lenWord (byteAt p 18) (byteAt p 19))
  else none

def publishNow (s : Uplink) (nowMs : UInt32) (pgNow : Bool) (faultsNow : Nat) : Bool :=
  if !s.primed then true
  else if pgNow ≠ s.lastPg ∨ faultsNow ≠ s.lastFaults then true
  else nowMs-s.lastMs ≥ UInt32.ofNat telemetryUplinkIntervalMs

def onPowerStatus (s : Uplink) (nowMs : UInt32) (f : WupsFrame) : Uplink × List Write :=
  match decodeStatus f.payload with
  | none => (s,[])
  | some (pgNow,faultsNow) =>
    let s := { s with pwrRaw := f.payload, lastStatusMs := nowMs }
    let toRpi := .sendWithSrc wupsPortRpi wupsAddrRpi wupsAddrCh32x wupsClassPower wupsOpPwrStatus wupsFlagEvent f.seq f.payload
    if publishNow s nowMs pgNow faultsNow then
      ({ s with lastMs := nowMs, lastPg := pgNow, lastFaults := faultsNow, primed := true },
        toRpi::wupsPublishTelemetryStatus f.seq f.payload)
    else (s,[toRpi])

def replyPort (src : UInt8) : Option UInt8 :=
  if src = wupsAddrRpi then some wupsPortRpi
  else if src = wupsAddrCh32x then some wupsPortCh32x
  else if src = wupsAddrEsp32 then some wupsPortEsp32
  else none

/-- An answer on the port of the sender. -/
def reply (f : WupsFrame) (payload : Bytes) : List Write :=
  (replyPort f.src).toList.map fun port =>
    .sendWithSrc port f.src wupsAddrRp2040 f.cls f.op wupsFlagResp f.seq payload

def isFwXfer (f : WupsFrame) : Bool :=
  f.cls = wupsClassNet ∧ f.flags &&& wupsFlagReq ≠ 0 ∧ f.dst = wupsAddrRp2040 ∧
    (f.op = wupsOpNetFwXferBegin ∨ f.op = wupsOpNetFwXferData ∨ f.op = wupsOpNetFwXferEnd)

/-- The pong with its tail, the version as text. -/
def sysPong (uptimeMs : UInt32) : Bytes :=
  [1,0] ++ littleEndian 2 fwVersionU16 ++ littleEndian 4 uptimeMs.toNat ++ ascii "rp2040:1.2.4"

/-- The requests that the last part of the handler answers, and the status of the host. -/
def onRequest (s : Uplink) (nowMs : UInt32) (f : WupsFrame) : Uplink × List Write :=
  if f.cls = wupsClassPower ∧ f.op = wupsOpPwrStatus ∧ f.flags &&& wupsFlagReq ≠ 0 then
    (s,(if s.lastStatusMs ≠ 0 ∧ s.pwrRaw ≠ [] then wupsPublishTelemetryStatus f.seq s.pwrRaw else []) ++
      wupsPublishCmdResponse f.cls f.op f.seq 0)
  else if f.cls = wupsClassPower ∧ f.flags &&& wupsFlagReq ≠ 0 ∧
      (f.op = wupsOpPwrEnable ∨ f.op = wupsOpPwrDisable ∨ f.op = wupsOpPwrCycle ∨ f.op = wupsOpPwrReset) then
    (s,wupsPublishCmdResponse f.cls f.op f.seq 0)
  else if f.cls = wupsClassUi ∧ f.op = wupsOpUiBeep ∧ f.flags &&& wupsFlagReq ≠ 0 ∧ f.len ≥ uiBeepV1 then
    (s,reply f [] ++ wupsPublishCmdResponse f.cls f.op f.seq 0)
  else if f.cls = wupsClassSystem ∧ f.op = wupsOpSysPing ∧ f.flags &&& wupsFlagReq ≠ 0 then
    (s,reply f (sysPong nowMs))
  else if f.cls = wupsClassHost ∧ f.op = wupsOpHostStatus ∧ f.src = wupsAddrRpi ∧ f.len ≥ hostStatusV1 then
    if byteAt f.payload 0 ≠ 1 then (s,[]) else (s,wupsPublishHostStatus f.seq (f.payload.take hostStatusV1))
  else (s,[])

/-- `result` is what the `fw_update_handle_*` of a fw_xfer returns. -/
def wupsOnLocalFrame (s : Uplink) (nowMs : UInt32) (inbound : UInt8) (f : WupsFrame) (result : UInt8) :
    Uplink × List Write :=
  if isHostResp inbound f then (s,wupsPublishCmdResponseFrame f)
  else if isEvent inbound f then (s,wupsPublishEventFrame f)
  else if isPowerStatus f then onPowerStatus s nowMs f
  -- the frame inside goes through the router, which calls the handler again
  else if isNetDownlink f then (s,[])
  -- a commit that is armed reboots after its answer, and no call follows
  else if isFwXfer f then (s,reply f [result])
  else onRequest s nowMs f

/-- One call of the handler: when, from which port, with what, and what a fw_xfer returns. -/
structure Arrival where
  ms : Nat
  inbound : UInt8
  frame : WupsFrame
  xferResult : UInt8
  deriving DecidableEq, Repr

def step (s : Uplink) (a : Arrival) : Uplink × List Write :=
  wupsOnLocalFrame s (UInt32.ofNat a.ms) a.inbound a.frame a.xferResult

end Web3PiUps.NetUplink
