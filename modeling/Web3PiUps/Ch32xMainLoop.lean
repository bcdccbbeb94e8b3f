import Web3PiUps.Ch32xPdSource
import Web3PiUps.Lib.StepMachine

/-! The main loop of the CH32X around the PD source, one piece of it at a time, with
what interrupts it: passing milliseconds, a received message, a received Hard Reset.
`clock` counts the milliseconds that have really passed. -/
namespace Web3PiUps.Ch32xMainLoop
open Ch32xPdSource StepMachine

/-- The calls of `PD_Service` in one pass. -/
inductive Service where | first | afterTps | afterChg | afterDiag deriving DecidableEq, Repr

inductive Place where
  | top
  | drain
  | cycle
  | detect
  | service (s : Service)
  | dispatch (s : Service)
  | tail (s : Service)
  | tps
  | diag
  deriving DecidableEq, Repr

structure Loop where
  place : Place
  port : Port
  timMsCnt : UInt8
  tmrMsCntLast : UInt8
  tmrMsDlt : UInt8
  serviceLast : UInt8
  powercycleWait : Bool
  powercycleTimer : UInt16
  tpsTimer : UInt16
  diagTimer : UInt16
  clock : Nat
  deriving DecidableEq, Repr

/-- `PD_Init` and `tps55289_init` on cleared memory. -/
def bootPort : Port :=
  pdPhyReset ⟨.idle,0,0,0,0,0,false,false,false,false,false,false,0,false,false,false,⟨0,0,0,0,0,0⟩,
    ⟨false,false,0,0,0,0⟩⟩

def boot : Loop := ⟨.top,bootPort,0,0,0,0,false,0,0,0,0⟩

inductive Power where | enable | disable | cycle deriving DecidableEq, Repr

/-- What the hardware gives a piece of the loop: the next power request on the wire, the
CC pins, whether the partner acknowledges a message sent. -/
structure Hw where
  power : Option Power
  cc : CcLines
  acked : Bool
  deriving DecidableEq, Repr

def wupsHandlePower (l : Loop) : Power → Loop
  | .enable => { l with port := powerOutputRestart l.port }
  | .disable => { l with port := vbusDisable l.port }
  | .cycle => { l with port := vbusDisable l.port, powercycleTimer := 0, powercycleWait := true }

abbrev powercycleOffMs : UInt16 := 1500

def cycleTick (l : Loop) : Loop :=
  if ¬ l.powercycleWait then l else
  let timer := l.powercycleTimer+l.tmrMsDlt.toUInt16
  if timer ≥ powercycleOffMs then
    { l with powercycleTimer := timer, port := powerOutputRestart l.port, powercycleWait := false }
  else { l with powercycleTimer := timer }

def detectTick (cc : CcLines) (l : Loop) : Loop × List Evt :=
  let detTimer := l.port.detTimer+l.tmrMsDlt
  if detTimer > 4 then
    let (port,evts) := pdDetProc cc { l.port with detTimer := 0 }
    ({ l with port },evts)
  else ({ l with port := { l.port with detTimer } },[])

def tpsTick (l : Loop) : Loop :=
  let tpsTimer := l.tpsTimer+l.tmrMsDlt.toUInt16
  if tpsTimer ≥ 2000 then
    let r := l.port.rail
    let rail := if r.voltageSet > 0 ∧ r.currentSet > 0 then tps55289Apply r.voltageSet r.currentSet r else r
    { l with tpsTimer := 0, port := { l.port with rail } }
  else { l with tpsTimer }

def afterService : Service → Place
  | .first => .tps
  | .afterTps => .service .afterChg
  | .afterChg => .diag
  | .afterDiag => .top

def mainPass (hw : Hw) (l : Loop) : Loop × List Evt :=
  match l.place with
  | .top =>
    ({ l with tmrMsDlt := l.timMsCnt-l.tmrMsCntLast, tmrMsCntLast := l.timMsCnt, place := .drain },[])
  | .drain =>
    match hw.power with
    | some power => (wupsHandlePower l power,[])
    | none => ({ l with place := .cycle },[])
  | .cycle => ({ cycleTick l with place := .detect },[])
  | .detect =>
    let (l,evts) := detectTick hw.cc l
    ({ l with place := .service .first },evts)
  | .service s =>
    let (port,evts) := mainSwitch (l.timMsCnt-l.serviceLast) hw.acked l.port
    ({ l with serviceLast := l.timMsCnt, port, place := .dispatch s },evts)
  | .dispatch s =>
    if l.port.msgRecvd then
      let (port,evts) := dispatch hw.acked l.port
      ({ l with port, place := .tail s },evts)
    else ({ l with place := afterService s },[])
  | .tail s => ({ l with port := dispatchTail l.port, place := afterService s },[])
  | .tps => ({ tpsTick l with place := .service .afterTps },[])
  | .diag =>
    let diagTimer := l.diagTimer+l.tmrMsDlt.toUInt16
    if diagTimer ≥ 5000 then ({ l with diagTimer := 0, place := .service .afterDiag },[])
    else ({ l with diagTimer, place := .top },[])

inductive Op where
  | tick (ms : Nat)
  | message (buf : RxBuf)
  | hardReset
  | run (hw : Hw)
  deriving DecidableEq, Repr

def step (l : Loop) : Op → Loop × List Evt
  | .tick ms => ({ l with timMsCnt := l.timMsCnt+UInt8.ofNat ms, clock := l.clock+ms },[])
  | .message buf => ({ l with port := messageReceived buf l.port },[])
  | .hardReset => ({ l with port := hardResetReceived l.port },[])
  | .run hw => mainPass hw l

/-- `pd_out_contract`, in millivolts and milliamperes. -/
def pdOutContract (p : Port) : Nat × Nat :=
  if p.reqPdoIdx = 1 then (5000,5000) else
  if p.reqPdoIdx = 2 then (9000,3000) else
  if p.reqPdoIdx = 3 then (12000,2250) else
  if p.reqPdoIdx = 4 then (15000,1800) else (0,0)

/-- The step is the one that has its Accept acknowledged. -/
def Accepting (l : Loop) (op : Op) : Prop := ∃ s hw, l.place = .service s ∧ op = .run hw ∧
  l.port.state = .txAccept ∧ l.port.commTimer+(l.timMsCnt-l.serviceLast).toUInt16 > 2 ∧ hw.acked = true

section Runs
variable (ops : List Op)

abbrev at_ (n : Nat) : Loop := stateAt step boot ops n

def evtsAt (n : Nat) : List Evt := ((outs step boot ops)[n]?).getD []

def CommandAt (n : Nat) (power : Power) : Prop :=
  (at_ ops n).place = .drain ∧ ∃ hw, ops[n]? = some (.run hw) ∧ hw.power = some power

/-- The state switch of `PD_Main_Proc` runs in `state`. -/
def ServedAt (n : Nat) (state : Sta) : Prop := (∃ s, (at_ ops n).place = .service s) ∧
  (∃ hw, ops[n]? = some (.run hw)) ∧ (at_ ops n).port.state = state
def AcceptedAt (n : Nat) : Prop := ∃ op, ops[n]? = some op ∧ Accepting (at_ ops n) op

/-- `PD_Det_Proc` gives up the connection, or finds one. -/
def DetachedAt (n : Nat) : Prop := (at_ ops n).place = .detect ∧
  (at_ ops n).port.connected = true ∧ (at_ ops (n+1)).port.connected = false
def AttachedAt (n : Nat) : Prop := (at_ ops n).place = .detect ∧
  (at_ ops n).port.connected = false ∧ (at_ ops (n+1)).port.connected = true

/-- The power cycle turns the output on. -/
def CycleOnAt (n : Nat) : Prop := (at_ ops n).place = .cycle ∧
  (at_ ops n).powercycleWait = true ∧ (at_ ops (n+1)).powercycleWait = false

end Runs

def Off (r : Rail) : Prop := r.output = false ∧ r.vbusOutEn = false ∧ r.voltageSet = 0
instance (r) : Decidable (Off r) := by unfold Off; infer_instance

def At5V (r : Rail) : Prop := r.output = true ∧ r.vbusOutEn = true ∧ r.voltage = 50
instance (r) : Decidable (At5V r) := by unfold At5V; infer_instance

/-! Schedules for runs on fixed inputs: whole laps of the loop, and what a sink does. -/

def sinkOnCc1 : CcLines := ⟨true,true,false,true,true,true⟩
def openPins : CcLines := ⟨true,true,true,true,true,true⟩

def passes (k : Nat) (cc : CcLines) (acked : Bool) : List Op := List.replicate k (.run ⟨none,cc,acked⟩)
def lap (ms : Nat) (cc : CcLines) (acked : Bool) : List Op := .tick ms :: passes 12 cc acked
def messageLap (buf : RxBuf) (ms : Nat) (acked : Bool) : List Op :=
  .tick ms :: .message buf :: passes 13 sinkOnCc1 acked
def laps (k ms : Nat) (cc : CcLines) : List Op := (List.replicate k (lap ms cc true)).flatten

def request (idx msgId : UInt8) : RxBuf := ⟨0x82,(0x10 : UInt8) ||| (msgId <<< 1),0,0,0,idx <<< 4⟩

/-- Five samples, then the wait for the sink and for its first Source_Capabilities. -/
def attaching : List Op := laps 5 5 sinkOnCc1 ++ laps 2 160 sinkOnCc1
def negotiating (idx msgId : UInt8) : List Op :=
  messageLap (request idx msgId) 5 true ++ lap 5 sinkOnCc1 true ++ lap 20 sinkOnCc1 true

def unasked : Op → Bool
  | .run hw => hw.power = none
  | _ => true

theorem noCommand {ops : List Op} {m n : Nat} (quiet : (ops.drop m).all unasked = true) (late : m ≤ n)
    (power : Power) : ¬ CommandAt ops n power := by
  rintro ⟨-,hw,here,wanted⟩
  have dropped : (ops.drop m)[n-m]? = some (.run hw) := by
    rw [List.getElem?_drop,Nat.add_sub_cancel' late]; exact here
  have none_ := List.all_eq_true.mp quiet _ (List.mem_of_getElem? dropped)
  have empty : hw.power = none := of_decide_eq_true none_
  exact nomatch wanted.symm.trans empty

end Web3PiUps.Ch32xMainLoop
