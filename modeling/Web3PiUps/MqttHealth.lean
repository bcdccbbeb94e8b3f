import Web3PiUps.Lib.StepMachine
import Mathlib.Algebra.Group.Nat.Defs
import Mathlib.Order.Lattice

/-! The MQTT health monitor, function by function after `mqtt_health.c`.
Times and counters are `uint64_t` kept as `Nat`: a time is only observed,
compared and added with saturation, and both counters stop below 2^64. -/
namespace Web3PiUps.MqttHealth
open StepMachine

abbrev uint64Max : Nat := 2^64-1

structure Token where
  generation : Nat
  sequence : Nat
  deriving DecidableEq, Repr

structure Config where
  probeIntervalMs : Nat
  probeDeadlineMs : Nat
  workerStallMs : Nat
  deriving DecidableEq, Repr

inductive Failure where
  | none | admissionTimeout | ackTimeout | probeFailed | eventLoss
  deriving DecidableEq, Repr

structure Snapshot where
  connected : Bool
  otaActive : Bool
  probeDue : Bool
  probePending : Bool
  probeAdmitted : Bool
  proofFresh : Bool
  degraded : Bool
  workerBusy : Bool
  workerStalled : Bool
  failure : Failure
  generation : Nat
  nextProbeDueMs : Nat
  probeDeadlineMs : Nat
  lastAckMs : Nat
  workerCheckpointMs : Nat
  pendingToken : Token
  deriving DecidableEq, Repr

structure Health where
  config : Config
  nowMs : Nat
  generation : Nat
  sequence : Nat
  nextProbeDueMs : Nat
  probeDeadlineMs : Nat
  lastAckMs : Nat
  workerCheckpointMs : Nat
  pendingToken : Token
  failure : Failure
  connected : Bool
  otaActive : Bool
  probePending : Bool
  probeAdmitted : Bool
  proofValid : Bool
  workerBusy : Bool
  -- not in the C record: some timestamp addition has met the cap
  saturated : Bool
  deriving DecidableEq, Repr

-- Every C caller goes on with the clamped time, which is then `nowMs`.
def observeTime (h : Health) (now : Nat) : Health := { h with nowMs := max h.nowMs now }

def addSaturated (a b : Nat) : Nat := if uint64Max - a < b then uint64Max else a + b
def saturates (a b : Nat) : Bool := decide (uint64Max - a < b)

def clearPending (h : Health) : Health :=
  { h with probePending := false, probeAdmitted := false, pendingToken := ⟨0,0⟩ }

def schedule (h : Health) (due : Nat) : Health :=
  { h with
    nextProbeDueMs := due
    probeDeadlineMs := addSaturated due h.config.probeDeadlineMs
    saturated := h.saturated || saturates due h.config.probeDeadlineMs }

def scheduleNext (h : Health) (now : Nat) : Health :=
  let due := addSaturated h.nextProbeDueMs h.config.probeIntervalMs
  schedule { h with saturated := h.saturated || saturates h.nextProbeDueMs h.config.probeIntervalMs }
    (if due < now then now else due)

def failWindow (h : Health) (now : Nat) (reason : Failure) : Health :=
  scheduleNext (clearPending { h with proofValid := false, failure := reason }) now

/-- The window is past its deadline once the clock has been observed. -/
def Expired (h : Health) : Prop := h.connected = true ∧ h.otaActive = false ∧ h.probeDeadlineMs ≤ h.nowMs
instance (h) : Decidable (Expired h) := by unfold Expired; infer_instance

def advance (h : Health) (now : Nat) : Health :=
  let h := observeTime h now
  if Expired h then
    failWindow h h.nowMs (if h.probeAdmitted then .ackTimeout else .admissionTimeout)
  else h

def Matches (h : Health) (token : Token) : Prop :=
  h.connected = true ∧ h.otaActive = false ∧ h.probePending = true ∧
    token.generation = h.pendingToken.generation ∧ token.sequence = h.pendingToken.sequence
instance (h token) : Decidable (Matches h token) := by unfold Matches; infer_instance

def defaultConfig : Config := ⟨120000,60000,30000⟩

def ConfigValid (cfg : Config) : Prop :=
  cfg.probeDeadlineMs ≠ 0 ∧ cfg.workerStallMs ≠ 0 ∧ cfg.probeDeadlineMs ≤ cfg.probeIntervalMs
instance (cfg) : Decidable (ConfigValid cfg) := by unfold ConfigValid; infer_instance

example : ConfigValid defaultConfig := by decide

def fresh (cfg : Config) (now : Nat) : Health :=
  ⟨cfg,now,0,0,0,0,0,0,⟨0,0⟩,.none,false,false,false,false,false,false,false⟩

def init (now : Nat) (config : Option Config) : Option Health :=
  let cfg := config.getD defaultConfig
  if ConfigValid cfg then some (fresh cfg now) else none

def onConnected (h : Health) (now : Nat) : Health :=
  let h := observeTime h now
  -- the sequence goes on, even where the generation has stopped
  let h := if h.generation ≠ uint64Max then { h with generation := h.generation+1 } else h
  schedule (clearPending { h with connected := true, proofValid := false, failure := .none }) h.nowMs

def onDisconnected (h : Health) (now : Nat) : Health :=
  let h := observeTime h now
  { clearPending { h with connected := false, proofValid := false, failure := .none } with
    nextProbeDueMs := 0, probeDeadlineMs := 0 }

def snapshot (h : Health) : Snapshot where
  connected := h.connected
  otaActive := h.otaActive
  probeDue := h.connected && !h.otaActive && !h.probePending &&
    decide (h.nextProbeDueMs ≤ h.nowMs) && decide (h.nowMs < h.probeDeadlineMs)
  probePending := h.probePending
  probeAdmitted := h.probeAdmitted
  proofFresh := h.connected && !h.otaActive && h.proofValid
  degraded := decide (h.failure ≠ .none)
  workerBusy := h.workerBusy
  workerStalled := h.workerBusy && decide (h.config.workerStallMs ≤ h.nowMs - h.workerCheckpointMs)
  failure := h.failure
  generation := h.generation
  nextProbeDueMs := h.nextProbeDueMs
  probeDeadlineMs := h.probeDeadlineMs
  lastAckMs := h.lastAckMs
  workerCheckpointMs := h.workerCheckpointMs
  pendingToken := h.pendingToken

def poll (h : Health) (now : Nat) : Health × Snapshot :=
  let h := advance h now
  (h,snapshot h)

-- `given` is a caller's pointer that is not null.
def MayBegin (h : Health) (given : Bool) : Prop :=
  given = true ∧ h.connected = true ∧ h.otaActive = false ∧ h.probePending = false ∧
    h.nextProbeDueMs ≤ h.nowMs ∧ h.nowMs < h.probeDeadlineMs ∧ h.sequence ≠ uint64Max
instance (h given) : Decidable (MayBegin h given) := by unfold MayBegin; infer_instance

def beginProbe (h : Health) (now : Nat) (given : Bool) : Health × Option Token :=
  let h := advance h now
  if MayBegin h given then
    let token : Token := ⟨h.generation,h.sequence+1⟩
    ({ h with sequence := h.sequence+1, pendingToken := token, probePending := true,
              probeAdmitted := false },some token)
  else (h,none)

def probeAdmitted (h : Health) (token : Token) (now : Nat) : Health × Bool :=
  let h := advance h now
  if Matches h token ∧ h.probeAdmitted = false then ({ h with probeAdmitted := true },true)
  else (h,false)

def probeAck (h : Health) (token : Token) (now : Nat) : Health × Bool :=
  let h := advance h now
  if Matches h token ∧ h.probeAdmitted = true then
    (scheduleNext (clearPending { h with lastAckMs := h.nowMs, proofValid := true, failure := .none })
      h.nowMs,true)
  else (h,false)

def probeFailed (h : Health) (token : Token) (now : Nat) : Health × Bool :=
  let h := advance h now
  if Matches h token then (failWindow h h.nowMs .probeFailed,true) else (h,false)

def onEventLoss (h : Health) (now : Nat) : Health :=
  let h := clearPending { observeTime h now with proofValid := false }
  if h.connected = true ∧ h.otaActive = false then
    scheduleNext { h with failure := .eventLoss } h.nowMs
  else h

def setOtaActive (h : Health) (now : Nat) (active : Bool) : Health :=
  let h := observeTime h now
  if h.otaActive = active then h
  else
    let h := clearPending { h with otaActive := active, proofValid := false, failure := .none }
    if h.connected = true ∧ active = false then schedule h h.nowMs else h

def workerBegin (h : Health) (now : Nat) : Health :=
  let h := observeTime h now
  if h.workerBusy = false then { h with workerBusy := true, workerCheckpointMs := h.nowMs } else h

def workerCheckpoint (h : Health) (now : Nat) : Health :=
  let h := observeTime h now
  if h.workerBusy = true then { h with workerCheckpointMs := h.nowMs } else h

def workerEnd (h : Health) (now : Nat) : Health :=
  let h := observeTime h now
  { h with workerBusy := false, workerCheckpointMs := h.nowMs }

/-! A run of the monitor: any calls, at any times, with any tokens. -/

inductive Call where
  | connected (now : Nat)
  | disconnected (now : Nat)
  | poll (now : Nat)
  | beginProbe (now : Nat) (given : Bool)
  | admitted (token : Token) (now : Nat)
  | ack (token : Token) (now : Nat)
  | failed (token : Token) (now : Nat)
  | eventLoss (now : Nat)
  | ota (now : Nat) (active : Bool)
  | workerBegin (now : Nat)
  | workerCheckpoint (now : Nat)
  | workerEnd (now : Nat)
  deriving DecidableEq, Repr

inductive Reply where
  | done
  | health (s : Snapshot)
  | token (t : Option Token)
  | answer (ok : Bool)
  deriving DecidableEq, Repr

def step (h : Health) : Call → Health × Reply
  | .connected now => (onConnected h now,.done)
  | .disconnected now => (onDisconnected h now,.done)
  | .poll now => ((poll h now).1,.health (poll h now).2)
  | .beginProbe now given => ((beginProbe h now given).1,.token (beginProbe h now given).2)
  | .admitted t now => ((probeAdmitted h t now).1,.answer (probeAdmitted h t now).2)
  | .ack t now => ((probeAck h t now).1,.answer (probeAck h t now).2)
  | .failed t now => ((probeFailed h t now).1,.answer (probeFailed h t now).2)
  | .eventLoss now => (onEventLoss h now,.done)
  | .ota now active => (setOtaActive h now active,.done)
  | .workerBegin now => (workerBegin h now,.done)
  | .workerCheckpoint now => (workerCheckpoint h now,.done)
  | .workerEnd now => (workerEnd h now,.done)

end Web3PiUps.MqttHealth
