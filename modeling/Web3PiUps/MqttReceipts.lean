import Web3PiUps.MqttDispatchQueue
import Web3PiUps.MqttPacketGuard
import Web3PiUps.MqttHealth

/-! Publishing through the dispatch queue, after `mqtt.c`: the receipt table and
every critical section that touches it or the queue. One application lock makes
each of them a single step; the owner task keeps its claim between two of its
own, and other tasks may run there. -/
namespace Web3PiUps.MqttReceipts
open StepMachine MqttDispatchQueue

abbrev receiptCapacity : Nat := 8
abbrev itemTtlMs : Nat := 3600000
abbrev snapshotTtlMs : Nat := 120000

inductive ReceiptStatus where
  | unknown | pending | sdkAccepted | failed
  deriving DecidableEq, Repr

structure Receipt where
  token : Nat
  status : ReceiptStatus
  deriving DecidableEq, Repr

abbrev Receipts := Fin receiptCapacity → Receipt

structure Runtime where
  queue : Queue
  receipts : Receipts
  -- `claim` of the owner task, while it is inside the SDK
  claimed : Option Claim
  guard : MqttPacketGuard.Guard
  health : MqttHealth.Health

def receiptFinish (rs : Receipts) (token : Nat) (status : ReceiptStatus) : Receipts :=
  fun i => if (rs i).token = token then { rs i with status := status } else rs i

def freeReceipt (rs : Receipts) : Option (Fin receiptCapacity) :=
  (List.finRange receiptCapacity).find? fun i => (rs i).token = 0

structure Publication where
  topic : Option Bytes
  payload : Option Bytes
  len : Nat
  qos : Int
  retain : Int
  critical : Bool
  key : UInt32
  /-- the caller passes a place for the receipt -/
  tracked : Bool
  deriving DecidableEq, Repr

def publishRaw (topic payload : Option Bytes) (len : Nat) (qos retain : Int) : Publication :=
  ⟨topic,payload,len,qos,retain,false,0,false⟩
def publishCritical (topic payload : Option Bytes) (len : Nat) (qos retain : Int) : Publication :=
  ⟨topic,payload,len,qos,retain,true,0,false⟩
def publishSnapshot (topic payload : Option Bytes) (len : Nat) (qos retain : Int) (key : UInt32) :
    Publication := ⟨topic,payload,len,qos,retain,false,key,false⟩
def publishTracked (topic payload : Option Bytes) (len : Nat) (qos retain : Int) : Publication :=
  ⟨topic,payload,len,qos,retain,true,0,true⟩

def request (p : Publication) (now : Nat) : Request :=
  ⟨p.topic,p.payload,p.len,p.qos,decide (p.retain ≠ 0),p.critical,p.key,
    now + (if p.key ≠ 0 then snapshotTtlMs else itemTtlMs)⟩

structure Submission where
  rc : Int
  receipt : Nat
  deriving DecidableEq, Repr

def submitCode : SubmitResult → Int
  | .accepted => 0
  | .full => -2
  | .tooLarge => -3
  | .invalid => -1

def settleReplaced (rs : Receipts) (replaced : Nat) : Receipts :=
  if replaced ≠ 0 then receiptFinish rs replaced .failed else rs

def record (rs : Receipts) (slot : Option (Fin receiptCapacity)) (token : Nat) : Receipts :=
  match slot with
  | some i => Function.update rs i ⟨token,.pending⟩
  | none => rs

/-- `available`: the runtime is ready and the backend is MQTT. -/
def submit (s : Runtime) (p : Publication) (available : Bool) (now : Nat) : Runtime × Submission :=
  if available = false ∨ p.retain < 0 ∨ 1 < p.retain then (s,⟨-1,0⟩)
  else
    let slot := if p.tracked then freeReceipt s.receipts else none
    if p.tracked = true ∧ slot = none then (s,⟨-2,0⟩)
    else
      let done := MqttDispatchQueue.submit s.queue (some (request p now))
      if done.2.result = .accepted then
        ({ s with queue := done.1,
                  receipts := record (settleReplaced s.receipts done.2.replacedToken) slot done.2.token },
          ⟨0,if p.tracked then done.2.token else 0⟩)
      else ({ s with queue := done.1 },⟨submitCode done.2.result,0⟩)

def receiptTake (s : Runtime) (token : Nat) : Runtime × ReceiptStatus :=
  if token = 0 then (s,.unknown)
  else
    match (List.finRange receiptCapacity).find? fun i => (s.receipts i).token = token with
    | none => (s,.unknown)
    | some i =>
      if (s.receipts i).status ≠ .pending then
        ({ s with receipts := Function.update s.receipts i { s.receipts i with token := 0 } },
          (s.receipts i).status)
      else (s,.pending)

def receiptForget (s : Runtime) (token : Nat) : Runtime :=
  { s with receipts := fun i =>
      if (s.receipts i).token = token then { s.receipts i with token := 0 } else s.receipts i }

/-- The sweep that the owner and the monitor share. -/
def expireReceipts (s : Runtime) (now : Nat) : Runtime :=
  let swept := expire s.queue now
  { s with queue := swept.1,
           receipts := swept.2.foldl (fun rs token => receiptFinish rs token .failed) s.receipts }

def monitor (s : Runtime) (now : Nat) : Runtime :=
  expireReceipts
    { s with guard := MqttPacketGuard.probeExpire s.guard now
             health := (MqttHealth.poll s.health now).1 } now

def ownerClaim (s : Runtime) (now : Nat) : Runtime :=
  match s.claimed with
  | some _ => s
  | none => { s with queue := (claim s.queue now).1, claimed := (claim s.queue now).2 }

/-- The owner is back from the SDK with `rc`. -/
def ownerFinish (s : Runtime) (rc : Int) (now : Nat) : Runtime :=
  match s.claimed with
  | none => s
  | some c =>
    let result := if 0 ≤ rc then dispatchSent else dispatchRetry
    { s with
      queue := (finish s.queue (some c) result now (now+1000)).1
      receipts :=
        if 0 ≤ rc then receiptFinish s.receipts c.item.token .sdkAccepted
        else if expired c.item now then receiptFinish s.receipts c.item.token .failed
        else s.receipts
      claimed := none }

def onSdkStopped (s : Runtime) (now : Nat) : Runtime :=
  { s with
    guard := (MqttPacketGuard.armReset (MqttPacketGuard.onDisconnected s.guard) true).1
    health := MqttHealth.onDisconnected s.health now }

def boot (health : MqttHealth.Health) : Runtime :=
  ⟨MqttDispatchQueue.init,fun _ => ⟨0,.unknown⟩,none,MqttPacketGuard.init,health⟩

inductive Call where
  | submit (p : Publication) (available : Bool) (now : Nat)
  | take (token : Nat)
  | forget (token : Nat)
  | sweep (now : Nat)
  | monitor (now : Nat)
  | claim (now : Nat)
  | finish (rc : Int) (now : Nat)
  | sdkStopped (now : Nat)
  deriving DecidableEq, Repr

inductive Reply where
  | done
  | submitted (s : Submission)
  | status (s : ReceiptStatus)
  deriving DecidableEq, Repr

def step (s : Runtime) : Call → Runtime × Reply
  | .submit p available now => ((submit s p available now).1,.submitted (submit s p available now).2)
  | .take token => ((receiptTake s token).1,.status (receiptTake s token).2)
  | .forget token => (receiptForget s token,.done)
  | .sweep now => (expireReceipts s now,.done)
  | .monitor now => (monitor s now,.done)
  | .claim now => (ownerClaim s now,.done)
  | .finish rc now => (ownerFinish s rc now,.done)
  | .sdkStopped now => (onSdkStopped s now,.done)

end Web3PiUps.MqttReceipts
