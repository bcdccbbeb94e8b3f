import Web3PiUps.WupsProtocol

/-! The USB-PD source of the CH32X: `PD_Process.c`, the rail functions of `main.c`
and the setpoints of `tps55289.c`, which count in tenths of a volt and an ampere.
`PD_Main_Proc` is kept in two pieces, the state switch and the dispatch of a
received message, since an interrupt may fall between them and before the tail. -/
namespace Web3PiUps.Ch32xPdSource
open WupsProtocol (Bytes)

structure Rail where
  vbusOutEn : Bool
  output : Bool
  voltage : Nat
  current : Nat
  voltageSet : Nat
  currentSet : Nat
  deriving DecidableEq, Repr

def tps55289SetCurrentLimit (a10 : Nat) (r : Rail) : Rail :=
  if a10 > 63 then r else { r with current := a10, currentSet := a10 }

def tps55289SetVoltage (v10 : Nat) (r : Rail) : Rail :=
  if v10 < 33 ∨ v10 > 200 then r else { r with voltage := v10, voltageSet := v10 }

def tps55289EnableOutput (enable : Bool) (r : Rail) : Rail := { r with output := enable }

def tps55289ClearSetCache (r : Rail) : Rail := { r with voltageSet := 0, currentSet := 0 }

def tps55289Apply (v10 a10 : Nat) (r : Rail) : Rail :=
  tps55289EnableOutput true (tps55289SetVoltage v10 (tps55289SetCurrentLimit a10 r))

inductive Sta where
  | idle | disconnect | rxAcceptWait | rxPsRdyWait | sinkConnect | txSrcCap | rxReqWait
  | txAccept | txPsRdy | txSoftRst | txHrst | txVdmRpi
  deriving DecidableEq, Repr

/-- The bytes of `PD_Rx_Buf` that are looked at. -/
structure RxBuf where
  b0 : UInt8
  b1 : UInt8
  b2 : UInt8
  b3 : UInt8
  b4 : UInt8
  b5 : UInt8
  deriving DecidableEq, Repr

/-- `PD_Ctl` with `DRSwap_Last_MsgID`, the receive buffer and the PHY: which pull the CC
pins present, the selected pin, and whether the receiver is on. -/
structure Port where
  state : Sta
  msgId : UInt8
  detTimer : UInt8
  detCnt : UInt8
  commTimer : UInt16
  reqPdoIdx : UInt8
  msgRecvd : Bool
  connected : Bool
  stopDetChk : Bool
  pdRole : Bool
  prRole : Bool
  pdVersion : Bool
  drSwapLastMsgId : UInt8
  ccPd : Bool
  ccSel : Bool
  listening : Bool
  rxBuf : RxBuf
  rail : Rail
  deriving DecidableEq, Repr

abbrev noMsgId : UInt8 := 0xFF

def vbusDisable (p : Port) : Port :=
  { p with
    rail := tps55289ClearSetCache (tps55289EnableOutput false { p.rail with vbusOutEn := false })
    reqPdoIdx := 0 }

def vbusSet5V (p : Port) : Port := { p with rail := tps55289Apply 50 30 { p.rail with vbusOutEn := true } }

def pdDataRoleReset (p : Port) : Port := { p with pdRole := true, drSwapLastMsgId := noMsgId }

def powerOutputRestart (p : Port) : Port :=
  { pdDataRoleReset (vbusSet5V p) with state := .sinkConnect, commTimer := 0 }

def pdRxMode (p : Port) : Port := { p with listening := true }
def pdSrcInit (p : Port) : Port := { p with prRole := true, ccPd := false }
def pdSinkInit (p : Port) : Port := { p with prRole := false, ccPd := true }

def pdPhyReset (p : Port) : Port :=
  pdRxMode (pdSrcInit { p with
    msgRecvd := false
    msgId := 0
    pdVersion := true
    detCnt := 0
    connected := false
    commTimer := 0
    pdRole := true
    drSwapLastMsgId := noMsgId
    stopDetChk := false
    state := .idle })

/-- `USBPD_IRQHandler` for a message; a GoodCRC is not one. -/
def messageReceived (buf : RxBuf) (p : Port) : Port :=
  if ¬ p.listening then p else
  if buf.b0 &&& 0x1F = 0x01 ∧ buf.b1 &&& 0x70 = 0 then { p with rxBuf := buf } else
  { p with rxBuf := buf, msgRecvd := true, listening := false }

/-- `USBPD_IRQHandler` for a Hard Reset. -/
def hardResetReceived (p : Port) : Port := if p.listening then pdSinkInit p else p

/-- The comparators of both CC pins. -/
structure CcLines where
  cc1At22 : Bool
  cc1At66 : Bool
  cc1At220 : Bool
  cc2At22 : Bool
  cc2At66 : Bool
  cc2At220 : Bool
  deriving DecidableEq, Repr

def pdDetect (p : Port) (cc : CcLines) : UInt8 :=
  if p.ccPd then 0 else
  if p.connected then
    if p.ccSel then (if cc.cc2At220 then 0 else 2) else (if cc.cc1At220 then 0 else 1)
  else
    let ret : UInt8 :=
      if cc.cc1At66 ∧ ¬ cc.cc1At220 ∧ (cc.cc2At22 ∧ ¬ cc.cc2At66 ∨ cc.cc2At220) then 1 else 0
    if cc.cc2At66 ∧ ¬ cc.cc2At220 then
      if ret ≠ 0 then 0 else
      if cc.cc1At22 ∧ ¬ cc.cc1At66 ∨ cc.cc1At220 then 2 else 0
    else ret

/-- The trace of `PD_Evt` and the messages put on the wire. -/
inductive Evt where
  | sent (msgType : UInt8) (message : Bytes) (acked : Bool)
  | connect
  | srcCapTx
  | reqRx (idx : UInt8)
  | acceptTx
  | psRdyTx
  | vdmRpiTx
  | drswapRx (arg : UInt8)
  | drswapAcc (role : Bool)
  | drswapFail
  | softrstRx
  | softrstTx
  | hrstTx
  | disconnect
  | protoReply (arg ext : UInt8)
  | enterUsb (accepted : Bool) (mode : UInt8)
  deriving DecidableEq, Repr

def pdDetProc (cc : CcLines) (p : Port) : Port × List Evt :=
  let status := pdDetect p cc
  if p.connected then
    if status ≠ 0 then ({ p with detCnt := 0 },[]) else
    if p.detCnt+1 ≥ 5 then
      let p := { p with detCnt := 0, connected := false }
      if p.stopDetChk then (p,[]) else ({ p with state := .disconnect },[])
    else ({ p with detCnt := p.detCnt+1 },[])
  else
    let detCnt := if status = 0 then 0 else p.detCnt+1
    if detCnt ≥ 5 then
      let p := { p with detCnt := 0, connected := true }
      if p.stopDetChk then (p,[]) else
      (vbusSet5V { p with ccSel := status ≠ 1, state := .sinkConnect, commTimer := 0 },[.connect])
    else ({ p with detCnt },[])

abbrev typeSrcCap : UInt8 := 0x01
abbrev typeAccept : UInt8 := 0x03
abbrev typeReject : UInt8 := 0x04
abbrev typePsRdy : UInt8 := 0x06
abbrev typeWait : UInt8 := 0x0C
abbrev typeSoftReset : UInt8 := 0x0D
abbrev typeVendorDefined : UInt8 := 0x0F
abbrev typeNotSupport : UInt8 := 0x10

def srcCap5V5ATab : Bytes :=
  [0xF4,0x91,0x01,0x0E, 0x2C,0xD1,0x02,0x00, 0xE1,0xC0,0x03,0x00, 0xB4,0xB0,0x04,0x00]
def vdmRpiTxTab : Bytes :=
  [0x41,0xA0,0x00,0xFF, 0x8A,0x2E,0xC0,0x01, 0x00,0x00,0x00,0x00, 0x00,0x00,0x0F,0x00, 0x01,0x00,0x80,0x20]
def vdmUfpIdAckTab : Bytes :=
  [0x41,0xA0,0x00,0xFF, 0x8A,0x2E,0x40,0x50, 0x00,0x00,0x00,0x00, 0x00,0x01,0x0A,0x00, 0x00,0x00,0x00,0x21]

def pdLoadHeader (p : Port) (msgType : UInt8) : UInt8 × UInt8 :=
  (msgType ||| (if p.pdRole then 0x20 else 0) ||| (if p.pdVersion then 0x80 else 0x40),
    (p.msgId &&& 0x0E) ||| (if p.prRole then 0x01 else 0))

/-- `PD_Load_Header` and `PD_Send_Handle`: up to three tries, then back to reception. The
GoodCRC lands in the receive buffer, over whatever waits there. -/
def pdSend (msgType : UInt8) (payload : Bytes) (acked : Bool) (p : Port) : Port × Evt :=
  let header := pdLoadHeader p msgType
  let cnt := UInt8.ofNat (payload.length/4)
  ({ p with
      msgId := if acked then p.msgId+2 else p.msgId
      rxBuf := if acked then { p.rxBuf with b0 := 0x41, b1 := p.msgId &&& 0x0E } else p.rxBuf
      listening := true },
    .sent msgType ([header.1,header.2 ||| (cnt <<< 4)] ++ payload) acked)

/-! The state switch of `PD_Main_Proc`. -/

/-- Voltage and current limit of an accepted PDO; anything else gets the safe defaults. -/
def pdoSetpoint (idx : UInt8) : Nat × Nat :=
  if idx = 1 then (50,52) else
  if idx = 2 then (90,31) else
  if idx = 3 then (120,23) else
  if idx = 4 then (150,19) else (50,30)

def mainSwitch (dlt : UInt8) (acked : Bool) (p : Port) : Port × List Evt :=
  let timer := p.commTimer+dlt.toUInt16
  match p.state with
  | .disconnect => (pdPhyReset (vbusDisable p),[.disconnect])
  | .sinkConnect =>
    if timer > 159 then ({ p with stopDetChk := false, commTimer := 0, state := .txSrcCap },[])
    else ({ p with commTimer := timer },[])
  | .txSrcCap =>
    if timer > 159 then
      let (p,sent) := pdSend typeSrcCap srcCap5V5ATab acked p
      if acked then ({ p with commTimer := 0, state := .rxReqWait },[sent,.srcCapTx])
      else ({ p with commTimer := 0 },[sent])
    else ({ p with commTimer := timer },[])
  | .rxReqWait =>
    let p := { p with commTimer := timer }
    if timer > 29 ∧ ¬ p.msgRecvd then ({ p with state := .txHrst },[]) else (p,[])
  | .txAccept =>
    if timer > 2 then
      let (p,sent) := pdSend typeAccept [] acked p
      if acked then
        let (volt,curr) := pdoSetpoint p.reqPdoIdx
        ({ p with rail := tps55289Apply volt curr p.rail, state := .txPsRdy, commTimer := 0 },[sent,.acceptTx])
      else ({ p with state := .txSoftRst, commTimer := 0 },[sent])
    else ({ p with commTimer := timer },[])
  | .txPsRdy =>
    if timer > 19 then
      let (p,sent) := pdSend typePsRdy [] acked p
      if acked then ({ p with state := .idle, commTimer := 0 },[sent,.psRdyTx])
      else ({ p with state := .txSoftRst, commTimer := 0 },[sent])
    else ({ p with commTimer := timer },[])
  | .txSoftRst =>
    let (p,sent) := pdSend typeSoftReset [] acked { p with drSwapLastMsgId := noMsgId }
    ({ p with state := if acked then .idle else .txHrst, commTimer := 0 },[.softrstTx,sent])
  | .txHrst =>
    ({ pdRxMode p with
        stopDetChk := true
        msgRecvd := false
        pdRole := true
        drSwapLastMsgId := noMsgId
        state := .idle
        commTimer := 0 },[.hrstTx])
  | .txVdmRpi =>
    if timer > 10 then
      let (p,sent) := pdSend typeVendorDefined vdmRpiTxTab acked p
      ({ p with commTimer := 0, state := .idle },[sent,.vdmRpiTx])
    else ({ p with commTimer := timer },[])
  | .idle | .rxAcceptWait | .rxPsRdyWait => (p,[])

inductive MsgType where
  | accept | request | wait | softReset | drSwap | vendorDefined | getSrcCap | getSnkCap | vconnSwap | other
  deriving DecidableEq, Repr

def msgType (b : RxBuf) : MsgType :=
  let t := b.b0 &&& 0x1F
  if t = 0x03 then .accept else
  if t = 0x02 then .request else
  if t = 0x0C then .wait else
  if t = 0x0D then .softReset else
  if t = 0x09 then .drSwap else
  if t = 0x0F then .vendorDefined else
  if t = 0x07 then .getSrcCap else
  if t = 0x08 then .getSnkCap else
  if t = 0x0B then .vconnSwap else .other

def RxBuf.hasData (b : RxBuf) : Bool := b.b1 &&& 0x70 ≠ 0
def RxBuf.msgId (b : RxBuf) : UInt8 := (b.b1 >>> 1) &&& 0x07
def RxBuf.objectPosition (b : RxBuf) : UInt8 := (b.b5 &&& 0x70) >>> 4

def handleRequest (p : Port) : Port × List Evt :=
  let idx := p.rxBuf.objectPosition
  let p := { p with reqPdoIdx := idx }
  if idx = 0 ∨ idx > 4 then ({ p with state := .txHrst },[.reqRx idx]) else
  ({ p with pdVersion := p.rxBuf.b0 &&& 0xC0 = 0x80, state := .txAccept, commTimer := 0 },[.reqRx idx])

def handleSoftReset (acked : Bool) (p : Port) : Port × List Evt :=
  let (p,sent) := pdSend typeAccept [] acked { p with msgId := 0, drSwapLastMsgId := noMsgId }
  ({ p with state := .txSrcCap, commTimer := 0 },[.softrstRx,sent])

/-- With data objects the type is `EPR_REQUEST`, which is let pass. -/
def handleDrSwap (acked : Bool) (p : Port) : Port × List Evt :=
  if p.rxBuf.hasData then (p,[]) else
  if p.state = .idle then
    let rxMsgId := p.rxBuf.msgId
    if p.drSwapLastMsgId ≠ rxMsgId then
      let (p,sent) := pdSend typeAccept [] acked p
      if acked then
        let pdRole := !p.pdRole
        ({ p with drSwapLastMsgId := rxMsgId, pdRole },[.drswapRx 0,sent,.drswapAcc pdRole])
      else ({ p with state := .txHrst },[.drswapRx 0,sent,.drswapFail])
    else (p,[.drswapRx 1])
  else
    let (p,sent) := pdSend typeWait [] acked p
    (p,[.drswapRx 2,sent])

def RxBuf.discovery (b : RxBuf) : Bool := b.b2 = 0x01 ∧ b.b3 = 0xA0 ∧ b.b4 = 0x00 ∧ b.b5 = 0xFF

def handleVendorDefined (acked : Bool) (p : Port) : Port × List Evt :=
  let b := p.rxBuf
  if p.pdRole ∧ b.discovery then ({ p with state := .txVdmRpi, commTimer := 0 },[]) else
  if ¬ p.pdRole ∧ b.b3 &&& 0x80 = 0x80 ∧ b.b2 &&& 0xC0 = 0 then
    if b.b2 &&& 0x1F = 0x01 then
      let (p,sent) := pdSend typeVendorDefined vdmUfpIdAckTab acked p
      (p,[sent,.protoReply 5 0])
    else
      let (p,sent) := pdSend typeVendorDefined [(b.b2 &&& 0x1F) ||| 0x80,b.b3,b.b4,b.b5] acked p
      (p,[sent,.protoReply 1 0])
  else (p,[])

def handleGetSrcCap (acked : Bool) (p : Port) : Port × List Evt :=
  let (p,sent) := pdSend typeSrcCap srcCap5V5ATab acked p
  (p,[sent,.protoReply 3 0])

/-- With data objects the type is `Enter_USB`. -/
def handleGetSnkCap (acked : Bool) (p : Port) : Port × List Evt :=
  if p.rxBuf.hasData then
    let usbMode := (p.rxBuf.b5 >>> 4) &&& 0x07
    let (p,sent) := pdSend (if usbMode = 0 then typeAccept else typeReject) [] acked p
    (p,[sent,.enterUsb (usbMode = 0) usbMode])
  else
    let (p,sent) := pdSend (if p.pdVersion then typeNotSupport else typeReject) [] acked p
    (p,[sent,.protoReply 2 0x08])

def handleVconnSwap (acked : Bool) (p : Port) : Port × List Evt :=
  let (p,sent) := pdSend typeReject [] acked p
  (p,[sent,.protoReply 4 0])

def handleOther (acked : Bool) (p : Port) : Port × List Evt :=
  if p.pdVersion then
    let (p,sent) := pdSend typeNotSupport [] acked p
    -- The buffer is read after the send, when the GoodCRC lies over the header of the message.
    let ext := (p.rxBuf.b0 &&& 0x1F) ||| (if p.rxBuf.hasData then 0x80 else 0)
    (p,[sent,.protoReply 2 ext])
  else (p,[])

def dispatch (acked : Bool) (p : Port) : Port × List Evt :=
  let t := msgType p.rxBuf
  let p := { p with drSwapLastMsgId := if t ≠ .drSwap then noMsgId else p.drSwapLastMsgId }
  match t with
  | .accept => ({ p with commTimer := 0, state := if p.state = .rxAcceptWait then .rxPsRdyWait else p.state },[])
  | .request => handleRequest p
  | .wait => (p,[])
  | .softReset => handleSoftReset acked p
  | .drSwap => handleDrSwap acked p
  | .vendorDefined => handleVendorDefined acked p
  | .getSrcCap => handleGetSrcCap acked p
  | .getSnkCap => handleGetSnkCap acked p
  | .vconnSwap => handleVconnSwap acked p
  | .other => handleOther acked p

/-- The end of the dispatch; what arrived since the answer is dropped. -/
def dispatchTail (p : Port) : Port := { pdRxMode p with msgRecvd := false }

end Web3PiUps.Ch32xPdSource
