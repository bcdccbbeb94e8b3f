import Web3PiUps.MqttReceiptLedger
import Web3PiUps.WupsWholeBuffer
import Web3PiUps.ArkivOpsTxData
import Web3PiUps.ArkivEntity

/-! The confirmation after a mode switch (`backend_mode.c`), called from the heartbeat until it
reports itself done. One call has at most one critical section of `mqtt.c`, so it is one step
here, between any steps of the MQTT runtime. -/
namespace Web3PiUps.BackendModeConfirm
open StepMachine MqttReceipts
open WupsProtocol (Bytes ascii)
open WupsWholeBuffer (buildModeChangedPayload emitViaMqttFrame)
open ArkivOpsTxData (Attribute CreateOp)

abbrev wupsBackendModeUnknown : UInt8 := 0
abbrev wupsBackendModeMqtt : UInt8 := 1
abbrev wupsBackendModeArkiv : UInt8 := 2
abbrev wupsBackendModeHttp : UInt8 := 3

def backendModeName (mode : UInt8) : String :=
  if mode = wupsBackendModeMqtt then "mqtt"
  else if mode = wupsBackendModeArkiv then "arkiv"
  else if mode = wupsBackendModeHttp then "http"
  else if mode = wupsBackendModeUnknown then "unknown"
  else "invalid"

def isKnownMode (m : UInt8) : Bool :=
  m = wupsBackendModeMqtt || m = wupsBackendModeArkiv || m = wupsBackendModeHttp

inductive EspErr where
  | ok | fail | invalidState | notSupported
  deriving DecidableEq, Repr

inductive NvsErr where
  | ok | notFound | failed
  deriving DecidableEq, Repr

/-- `prev_mode`, as this boot reads it and as the next one will find it: an erase without a commit
may or may not reach the flash. -/
structure Nvs where
  prevMode : Option UInt8
  flash : Option UInt8
  deriving DecidableEq, Repr

/-- The three statics of the confirmation. -/
structure Confirm where
  receipt : Nat
  sdkAccepted : Bool
  done : Bool
  deriving DecidableEq, Repr

structure State where
  curMode : UInt8
  confirm : Confirm
  nvs : Nvs
  mqtt : Runtime

/-- What one call meets outside the module. -/
structure Env where
  openRead : NvsErr
  getFails : Bool
  openWrite : Bool
  eraseFails : Bool
  eraseSettles : Bool
  commits : Bool
  /-- `mqtt_topic_event`, empty while the topics are not ready -/
  topic : Bytes
  mqttReady : Bool
  now : Nat
  claimed : Bool
  writerReady : Bool
  iccid : Option Bytes
  seq : UInt64
  enqueued : Bool
  deriving DecidableEq, Repr

inductive Event where
  | submitted (token : Nat)
  | queued (entity : CreateOp)
  | sdkTook (token : Nat)

def emitViaMqtt (env : Env) (mode : UInt8) (m : Runtime) (from_ to_ : UInt8) (pending : Bool) (receipt : Option Nat) :
    Runtime × EspErr × Option Nat :=
  let frame := emitViaMqttFrame from_ to_ pending
  if frame.length = 0 then (m,.fail,receipt)
  else if env.topic = [] then (m,.fail,receipt)
  else
    let publish := if receipt.isSome then publishTracked else publishCritical
    let available := env.mqttReady && decide (mode = wupsBackendModeMqtt)
    let done := submit m (publish (some env.topic) (some frame) frame.length 1 0) available env.now
    (done.1,if 0 ≤ done.2.rc then .ok else .fail,receipt.map fun _ => done.2.receipt)

def modeChangedEntity (env : Env) (from_ to_ : UInt8) (pending : Bool) : CreateOp where
  contentType := ascii "application/octet-stream"
  payload := buildModeChangedPayload from_ to_ pending
  attributes := [
    ⟨ascii "type",ascii "w3pups-event",0,false⟩,
    ⟨ascii "device_id",if (env.iccid.getD []) = [] then ascii "0" else env.iccid.getD [],0,false⟩,
    ⟨ascii "class",ascii "mode_changed",0,false⟩,
    ⟨ascii "from",ascii (backendModeName from_),0,false⟩,
    ⟨ascii "to",ascii (backendModeName to_),0,false⟩,
    ⟨ascii "pending",ascii (if pending then "1" else "0"),0,false⟩,
    ⟨ascii "seq",[],env.seq.toInt64,true⟩,
    ⟨ascii "scheme",[],0,true⟩]
  expiresInSeconds := 3600

def emitViaArkiv (env : Env) (from_ to_ : UInt8) (pending : Bool) : EspErr × List Event :=
  if env.claimed = false then (.invalidState,[])
  else if env.writerReady = false then (.invalidState,[])
  else if env.enqueued then (.ok,[.queued (modeChangedEntity env from_ to_ pending)])
  else (.fail,[])

def emitModeChanged (env : Env) (mode : UInt8) (m : Runtime) (from_ to_ : UInt8) (pending : Bool) :
    Runtime × EspErr × List Event :=
  if mode = wupsBackendModeMqtt then
    let done := emitViaMqtt env mode m from_ to_ pending none
    (done.1,done.2.1,[])
  else if mode = wupsBackendModeArkiv then (m,emitViaArkiv env from_ to_ pending)
  else if mode = wupsBackendModeHttp then (m,.notSupported,[])
  else (m,.invalidState,[])

def nvsGetPrevMode (env : Env) (nvs : Nvs) : NvsErr × UInt8 :=
  if env.getFails then (.failed,wupsBackendModeUnknown)
  else match nvs.prevMode with
    | none => (.notFound,wupsBackendModeUnknown)
    | some prev => (.ok,prev)

def nvsErasePrevMode (env : Env) (nvs : Nvs) : Nvs × NvsErr :=
  if env.eraseFails then (nvs,.failed)
  else match nvs.prevMode with
    | none => (nvs,.notFound)
    | some _ => (⟨none,if env.eraseSettles then none else nvs.flash⟩,.ok)

def nvsCommit (env : Env) (nvs : Nvs) : Nvs × Bool :=
  if env.commits then (⟨nvs.prevMode,nvs.prevMode⟩,true) else (nvs,false)

def clearPostSwitchMarker (env : Env) (nvs : Nvs) : Nvs × Bool :=
  if env.openWrite = false then (nvs,false)
  else
    let erased := nvsErasePrevMode env nvs
    if erased.2 = .failed then (erased.1,false) else nvsCommit env erased.1

def forgetReceipt (s : State) : State :=
  { s with
    mqtt := if s.confirm.receipt ≠ 0 then receiptForget s.mqtt s.confirm.receipt else s.mqtt
    confirm := { s.confirm with receipt := 0 } }

/-- `s_confirm_done = clear_post_switch_marker()`. -/
def finishConfirm (env : Env) (s : State) : State :=
  let cleared := clearPostSwitchMarker env s.nvs
  { s with nvs := cleared.1, confirm := { s.confirm with done := cleared.2 } }

/-- In MQTT mode, with the marker read. -/
def confirmViaMqtt (env : Env) (s : State) (prev : UInt8) : State × List Event :=
  if s.confirm.receipt = 0 then
    let done := emitViaMqtt env s.curMode s.mqtt prev s.curMode false (some s.confirm.receipt)
    let receipt := done.2.2.getD s.confirm.receipt
    ({ s with mqtt := done.1, confirm := { s.confirm with receipt } },
      if done.2.1 = .ok then [.submitted receipt] else [])
  else
    let taken := receiptTake s.mqtt s.confirm.receipt
    if taken.2 = .pending then ({ s with mqtt := taken.1 },[])
    else if taken.2 ≠ .sdkAccepted then
      ({ s with mqtt := taken.1, confirm := { s.confirm with receipt := 0 } },[])
    else
      (finishConfirm env { s with mqtt := taken.1, confirm := { s.confirm with receipt := 0, sdkAccepted := true } },[])

/-- In another mode, with the marker read. -/
def confirmElsewhere (env : Env) (s : State) (prev : UInt8) : State × List Event :=
  let done := emitModeChanged env s.curMode s.mqtt prev s.curMode false
  if done.2.1 ≠ .ok then ({ s with mqtt := done.1 },done.2.2)
  else (finishConfirm env { s with mqtt := done.1 },done.2.2)

def emitPostSwitchConfirm (env : Env) (s : State) : State × List Event :=
  if s.confirm.done then (s,[])
  else if s.confirm.sdkAccepted then (finishConfirm env s,[])
  else if env.openRead = .notFound then ({ s with confirm := { s.confirm with done := true } },[])
  else if env.openRead = .failed then (s,[])
  else
    let read := nvsGetPrevMode env s.nvs
    if read.1 = .notFound then
      let s := forgetReceipt s
      ({ s with confirm := { s.confirm with done := true } },[])
    else if read.1 = .failed then (s,[])
    else if isKnownMode read.2 = false ∨ read.2 = s.curMode then (forgetReceipt (finishConfirm env s),[])
    else if s.curMode = wupsBackendModeMqtt then confirmViaMqtt env s read.2
    else confirmElsewhere env s read.2

/-! A boot. The confirmation is the only one that uses receipts; everything else that runs the MQTT
runtime is here. -/

inductive Other where
  | publish (p : Publication) (available : Bool) (now : Nat)
  | sweep (now : Nat)
  | monitor (now : Nat)
  | claim (now : Nat)
  | finish (rc : Int) (now : Nat)
  | sdkStopped (now : Nat)
  deriving DecidableEq, Repr

def Other.call : Other → Call
  | .publish p available now => .submit { p with tracked := false } available now
  | .sweep now => .sweep now
  | .monitor now => .monitor now
  | .claim now => .claim now
  | .finish rc now => .finish rc now
  | .sdkStopped now => .sdkStopped now

/-- The SDK takes the message that the owner has claimed when it answers with no error. -/
def taken (m : Runtime) : Other → List Event
  | .finish rc _ => if 0 ≤ rc then (m.claimed.map fun c => Event.sdkTook c.item.token).toList else []
  | _ => []

inductive Input where
  | confirm (env : Env)
  | mqtt (other : Other)

def step (s : State) : Input → State × List Event
  | .confirm env => emitPostSwitchConfirm env s
  | .mqtt other => ({ s with mqtt := (MqttReceipts.step s.mqtt other.call).1 },taken s.mqtt other)

def boot (curMode : UInt8) (flash : Option UInt8) (health : MqttHealth.Health) : State :=
  ⟨curMode,⟨0,false,false⟩,⟨flash,flash⟩,MqttReceipts.boot health⟩

def history (s : State) (inputs : List Input) : List Event := (outs step s inputs).flatten

def tokens (past : List Event) : List Nat :=
  past.filterMap fun | .submitted token => some token | _ => none

/-- How often a confirmation was admitted by the SDK or queued on the writer; `ts` are the tokens of
those submitted before. -/
def emitted (ts : List Nat) : List Event → Nat
  | [] => 0
  | .submitted token::rest => emitted (ts ++ [token]) rest
  | .queued _::rest => 1 + emitted ts rest
  | .sdkTook token::rest => (if token ∈ ts then 1 else 0) + emitted ts rest

/-- No switch is to be announced with this marker. -/
def Stale (curMode : UInt8) (marker : Option UInt8) : Prop :=
  ∃ prev, marker = some prev ∧ (isKnownMode prev = false ∨ prev = curMode)

structure ConfirmedOnce (curMode : UInt8) (marker : Option UInt8) (s : State) (past : List Event) : Prop where
  once : emitted [] past ≤ 1
  erased : s.nvs.prevMode ≠ marker ∨ s.nvs.flash ≠ marker → emitted [] past = 1 ∨ Stale curMode marker
  retried : emitted [] past = 0 → ¬Stale curMode marker →
    ∀ health, boot curMode s.nvs.flash health = boot curMode marker health
  settled : s.confirm.done = true → ∀ token, token ∈ tokens past → ∀ i, (s.mqtt.receipts i).token ≠ token

/-! The condition: what is queued on the writer loses its marker in the same call, and the
namespace does not disappear under an outstanding receipt. -/

/-- The call reads a marker that is to be announced. -/
structure Announces (env : Env) (s : State) : Prop where
  busy : s.confirm.done = false ∧ s.confirm.sdkAccepted = false
  opened : env.openRead = .ok
  read : (nvsGetPrevMode env s.nvs).1 = .ok
  known : isKnownMode (nvsGetPrevMode env s.nvs).2 = true
  other : (nvsGetPrevMode env s.nvs).2 ≠ s.curMode

def WriterTakes (env : Env) (s : State) : Prop :=
  s.curMode = wupsBackendModeArkiv ∧ env.claimed = true ∧ env.writerReady = true ∧ env.enqueued = true

def Erases (env : Env) : Prop := env.openWrite = true ∧ env.eraseFails = false

def Meets (s : State) : Input → Prop
  | .confirm env => (Announces env s → WriterTakes env s → Erases env) ∧
      (s.confirm.receipt ≠ 0 → env.openRead ≠ .notFound)
  | .mqtt _ => True

def AllMeet : State → List Input → Prop
  | _, [] => True
  | s, input::rest => Meets s input ∧ AllMeet (step s input).1 rest

end Web3PiUps.BackendModeConfirm
