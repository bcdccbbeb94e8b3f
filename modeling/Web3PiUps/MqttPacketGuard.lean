import Web3PiUps.Lib.StepMachine
import Web3PiUps.Lib.CyclicIds
import Mathlib.Algebra.Group.Nat.Defs

/-! The MQTT packet guard, function by function after `mqtt_packet_guard.c`.
A packet identifier comes as a C `int`, an `Int` here, and is kept as a `Nat`
once it is known to fit 16 bits. Times, serials and generations are `uint64_t`
kept as `Nat`: both counters stop below 2^64, times are compared and subtracted
only where the difference is not negative, and the two attempt counters stay
within the budget. The early acknowledgements are the first `early_ack_count`
entries of the C array. -/
namespace Web3PiUps.MqttPacketGuard
open StepMachine

abbrev budget : Nat := 60000
abbrev earlyAcks : Nat := 8
abbrev uint16Max : Nat := 65535
abbrev uint64Max : Nat := 2^64-1

inductive ProbeState where
  | idle | arming | pending | acked | retired | failed | expired
  deriving DecidableEq, Repr

structure EarlyAck where
  packetId : Nat
  receivedMs : Nat
  deriving DecidableEq, Repr

structure Guard where
  generation : Nat
  attempts : Nat
  attemptsSinceId : Nat
  operationSerial : Nat
  completedOperationSerial : Nat
  completedPacketId : Int
  lastPacketId : Nat
  haveLastPacketId : Bool
  connected : Bool
  operationPending : Bool
  isUnsafe : Bool
  resetArmed : Bool
  resetBoundarySeen : Bool
  probeState : ProbeState
  probeToken : Nat
  probeGeneration : Nat
  probeOperationSerial : Nat
  probeStartedMs : Nat
  probeTimeoutMs : Nat
  probePacketId : Nat
  early : List EarlyAck
  proofAtMs : Nat
  proofGeneration : Nat
  proofValid : Bool
  deriving DecidableEq, Repr

def probeActive (g : Guard) : Prop := g.probeState = .arming ∨ g.probeState = .pending
instance (g) : Decidable (probeActive g) := by unfold probeActive; infer_instance

def withinDeadline (g : Guard) (nowMs : Nat) : Prop :=
  g.probeStartedMs ≤ nowMs ∧ nowMs - g.probeStartedMs < g.probeTimeoutMs
instance (g nowMs) : Decidable (withinDeadline g nowMs) := by unfold withinDeadline; infer_instance

def failProbe (g : Guard) : Guard := { g with probeState := .failed, early := [], proofValid := false }

def markUnsafe (g : Guard) : Guard × Bool := (failProbe { g with isUnsafe := true },false)

def acceptAck (g : Guard) (receivedMs : Nat) : Guard × Bool :=
  if ¬withinDeadline g receivedMs then ({ g with probeState := .expired, proofValid := false },false)
  else
    ({ g with probeState := .acked, early := [], proofAtMs := receivedMs,
              proofGeneration := g.generation, proofValid := true },true)

def init : Guard :=
  ⟨0,0,0,0,0,-1,0,false,false,false,false,false,false,.idle,0,0,0,0,0,0,[],0,0,false⟩

def probeRetire (g : Guard) : Guard := { g with probeState := .retired, early := [], proofValid := false }

def packetBegin (g : Guard) : Guard × Bool :=
  if g.operationPending = true ∨ g.operationSerial = uint64Max then markUnsafe g
  else if g.isUnsafe = true ∨ g.resetArmed = true ∨ budget ≤ g.attempts then (g,false)
  else
    ({ g with attempts := g.attempts+1, attemptsSinceId := g.attemptsSinceId+1,
              operationSerial := g.operationSerial+1, operationPending := true },true)

def distance (g : Guard) (packetId : Nat) : Nat := CyclicIds.distance uint16Max g.lastPacketId packetId

/-- The reported identifier does not fit the attempts made since the last one. -/
def Ambiguous (g : Guard) (packetId : Nat) : Prop :=
  g.haveLastPacketId = true ∧ (distance g packetId = 0 ∨ g.attemptsSinceId < distance g packetId)
instance (g packetId) : Decidable (Ambiguous g packetId) := by unfold Ambiguous; infer_instance

def completed (g : Guard) (packetId : Int) : Guard :=
  { g with operationPending := false, completedOperationSerial := g.operationSerial,
           completedPacketId := packetId }

def packetResult (g : Guard) (packetId : Int) : Guard × Bool :=
  if g.operationPending = false then markUnsafe g
  else
    let g := completed g packetId
    if g.isUnsafe = true then (g,false)
    -- a failed call may have used up one identifier before it failed
    else if packetId < 0 then (g,true)
    else if packetId = 0 ∨ uint16Max < packetId then markUnsafe g
    else if Ambiguous g packetId.toNat then markUnsafe g
    else
      ({ g with lastPacketId := packetId.toNat, haveLastPacketId := true, attemptsSinceId := 0 },true)

def armReset (g : Guard) (outboxEmpty : Bool) : Guard × Bool :=
  if outboxEmpty = false ∨ g.operationPending = true then (g,false)
  else
    let g := if g.resetArmed = false then { g with resetArmed := true, resetBoundarySeen := !g.connected }
      else g
    (probeRetire g,true)

def onDisconnected (g : Guard) : Guard :=
  probeRetire { g with connected := false,
                       resetBoundarySeen := if g.resetArmed then true else g.resetBoundarySeen }

def onConnected (g : Guard) : Guard :=
  if g.connected = true ∨ g.generation = uint64Max then (markUnsafe g).1
  else
    let g := probeRetire { g with connected := true, generation := g.generation+1 }
    if g.resetArmed = true ∧ g.resetBoundarySeen = true ∧ g.operationPending = false then
      { g with attempts := 0, attemptsSinceId := 0, haveLastPacketId := false, isUnsafe := false,
               resetArmed := false, resetBoundarySeen := false, completedPacketId := -1 }
    else g

def MayProbe (g : Guard) (token timeoutMs : Nat) : Prop :=
  g.connected = true ∧ g.operationPending = true ∧ g.isUnsafe = false ∧ g.resetArmed = false ∧
    ¬probeActive g ∧ token ≠ 0 ∧ token ≠ g.probeToken ∧ timeoutMs ≠ 0
instance (g token timeoutMs) : Decidable (MayProbe g token timeoutMs) := by unfold MayProbe; infer_instance

def probeBegin (g : Guard) (token startedMs timeoutMs : Nat) : Guard × Bool :=
  if ¬MayProbe g token timeoutMs then (g,false)
  else
    ({ g with probeState := .arming, probeToken := token, probeGeneration := g.generation,
              probeOperationSerial := g.operationSerial, probeStartedMs := startedMs,
              probeTimeoutMs := timeoutMs, probePacketId := 0, early := [] },true)

/-- The result reported for the probe is the one of the operation it was begun for. -/
def OwnResult (g : Guard) (packetId : Int) : Prop :=
  g.isUnsafe = false ∧ g.connected = true ∧ g.probeGeneration = g.generation ∧
    g.operationPending = false ∧ g.completedOperationSerial = g.probeOperationSerial ∧
    g.completedPacketId = packetId ∧ 0 < packetId ∧ packetId ≤ uint16Max
instance (g packetId) : Decidable (OwnResult g packetId) := by unfold OwnResult; infer_instance

/-- The first early acknowledgement of the identifier, where there is one, is accepted now. -/
def matchEarly (g : Guard) (packetId : Nat) : Guard × Bool :=
  match g.early.find? (fun ack => ack.packetId = packetId) with
  | some ack => acceptAck g ack.receivedMs
  | none => ({ g with early := [] },false)

def probeResult (g : Guard) (token : Nat) (packetId : Int) (nowMs : Nat) : Guard × Bool :=
  if g.probeState ≠ .arming ∨ token ≠ g.probeToken then (g,false)
  else if ¬OwnResult g packetId then (failProbe g,false)
  else if ¬withinDeadline g nowMs then
    ({ g with probeState := .expired, early := [], proofValid := false },false)
  else
    matchEarly { g with probePacketId := packetId.toNat, probeState := .pending } packetId.toNat

def probeExpire (g : Guard) (nowMs : Nat) : Guard :=
  if probeActive g ∧ g.probeStartedMs ≤ nowMs ∧ ¬withinDeadline g nowMs then
    { g with probeState := .expired, early := [], proofValid := false }
  else g

def Concerns (g : Guard) (generation : Nat) (packetId : Int) : Prop :=
  g.connected = true ∧ g.isUnsafe = false ∧ probeActive g ∧ generation = g.generation ∧
    generation = g.probeGeneration ∧ 0 < packetId ∧ packetId ≤ uint16Max
instance (g generation packetId) : Decidable (Concerns g generation packetId) := by
  unfold Concerns; infer_instance

def onPuback (g : Guard) (generation : Nat) (packetId : Int) (receivedMs : Nat) : Guard × Bool :=
  if ¬Concerns g generation packetId then (g,false)
  else if receivedMs < g.probeStartedMs then (g,false)
  else if ¬withinDeadline g receivedMs then (probeExpire g receivedMs,false)
  else if g.probeState = .pending then
    if packetId.toNat ≠ g.probePacketId then (g,false) else acceptAck g receivedMs
  -- the first receipt stands, a duplicate proves nothing more
  else if g.early.any (fun ack => ack.packetId = packetId.toNat) then (g,false)
  else if g.early.length = earlyAcks then (failProbe g,false)
  else ({ g with early := g.early ++ [⟨packetId.toNat,receivedMs⟩] },false)

/-! A run of the guard: any calls in any order, with any arguments. -/

inductive Call where
  | packetBegin
  | packetResult (packetId : Int)
  | armReset (outboxEmpty : Bool)
  | disconnected
  | connected
  | probeBegin (token startedMs timeoutMs : Nat)
  | probeResult (token : Nat) (packetId : Int) (nowMs : Nat)
  | puback (generation : Nat) (packetId : Int) (receivedMs : Nat)
  | probeExpire (nowMs : Nat)
  | probeRetire
  deriving DecidableEq, Repr

def step (g : Guard) : Call → Guard × Option Bool
  | .packetBegin => ((packetBegin g).1,some (packetBegin g).2)
  | .packetResult id => ((packetResult g id).1,some (packetResult g id).2)
  | .armReset empty => ((armReset g empty).1,some (armReset g empty).2)
  | .disconnected => (onDisconnected g,none)
  | .connected => (onConnected g,none)
  | .probeBegin token started timeout =>
    ((probeBegin g token started timeout).1,some (probeBegin g token started timeout).2)
  | .probeResult token id now => ((probeResult g token id now).1,some (probeResult g token id now).2)
  | .puback generation id received =>
    ((onPuback g generation id received).1,some (onPuback g generation id received).2)
  | .probeExpire now => (probeExpire g now,none)
  | .probeRetire => (probeRetire g,none)

end Web3PiUps.MqttPacketGuard
