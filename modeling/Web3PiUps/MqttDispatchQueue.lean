import Web3PiUps.Lib.StepMachine
import Mathlib.Algebra.Group.Nat.Defs
import Mathlib.Data.Finset.Card
import Mathlib.Data.Fintype.Basic
import Mathlib.Logic.Function.Basic

/-! The MQTT dispatch queue, function by function after `mqtt_dispatch_queue.c`.
A pool of 32 slots; a slot number equal to the capacity, which the source uses
for "none", is `none` here. Tokens, orders and times are `uint64_t` kept as
`Nat`: `last_token` stops below 2^64, and times are only compared. The counters
wrap. A C string is the list of its characters before the terminator. -/
namespace Web3PiUps.MqttDispatchQueue
open StepMachine

abbrev Bytes := List UInt8
abbrev capacity : Nat := 32
abbrev criticalReserve : Nat := 8
abbrev topicCapacity : Nat := 64
abbrev payloadCapacity : Nat := 256
abbrev criticalBurst : Nat := 8
abbrev uint64Max : Nat := 2^64-1

inductive SubmitResult where
  | accepted | full | tooLarge | invalid
  deriving DecidableEq, Repr

structure Request where
  topic : Option Bytes
  payload : Option Bytes
  payloadLen : Nat
  qos : Int
  retain : Bool
  critical : Bool
  coalesceKey : UInt32
  deadlineMs : Nat
  deriving DecidableEq, Repr

structure Item where
  topic : Bytes
  payload : Bytes
  payloadLen : Nat
  qos : Int
  retain : Bool
  critical : Bool
  coalesceKey : UInt32
  token : Nat
  deadlineMs : Nat
  deriving DecidableEq, Repr

inductive SlotState where
  | free | queued | inflight
  deriving DecidableEq, Repr

structure Slot where
  item : Item
  order : Nat
  retryAfterMs : Nat
  state : SlotState
  deriving DecidableEq, Repr

structure Stats where
  accepted : Nat
  coalesced : Nat
  full : Nat
  expired : Nat
  dropped : Nat
  depth : Nat
  highwater : Nat
  deriving DecidableEq, Repr

structure Queue where
  slots : Fin capacity → Slot
  counters : Stats
  lastToken : Nat
  criticalStreak : Nat

structure Claim where
  slot : Nat
  item : Item
  deriving DecidableEq, Repr

def Item.zero : Item := ⟨[],[],0,0,false,false,0,0,0⟩
def Slot.zero : Slot := ⟨.zero,0,0,.free⟩
def init : Queue := ⟨fun _ => .zero,⟨0,0,0,0,0,0,0⟩,0,0⟩

def inc64 (n : Nat) : Nat := (n+1) % 2^64
def inc32 (n : Nat) : Nat := (n+1) % 2^32
def dec32 (n : Nat) : Nat := if n = 0 then 2^32-1 else n-1

def expired (item : Item) (nowMs : Nat) : Prop := item.deadlineMs ≠ 0 ∧ item.deadlineMs ≤ nowMs
instance (item nowMs) : Decidable (expired item nowMs) := by unfold expired; infer_instance

def releaseSlot (q : Queue) (index : Fin capacity) : Queue :=
  { q with
    slots := Function.update q.slots index .zero
    counters := { q.counters with depth := dec32 q.counters.depth } }

@[simp] theorem releaseSlots (q : Queue) (i : Fin capacity) :
    (releaseSlot q i).slots = Function.update q.slots i .zero := rfl
@[simp] theorem releaseDepth (q : Queue) (i : Fin capacity) :
    (releaseSlot q i).counters.depth = dec32 q.counters.depth := rfl
@[simp] theorem releaseHighwater (q : Queue) (i : Fin capacity) :
    (releaseSlot q i).counters.highwater = q.counters.highwater := rfl

/-! Submit: one pass over the slots finds the first free one, the last one that
may be replaced, and how many are not critical. -/

def Replaceable (r : Request) (topic : Bytes) (slot : Slot) : Prop :=
  slot.state = .queued ∧ r.critical = false ∧ slot.item.critical = false ∧ r.coalesceKey ≠ 0 ∧
    slot.item.coalesceKey = r.coalesceKey ∧ slot.item.qos = r.qos ∧ slot.item.retain = r.retain ∧
    slot.item.topic = topic
instance (r topic slot) : Decidable (Replaceable r topic slot) := by
  unfold Replaceable; infer_instance

structure Scan where
  freeSlot : Option (Fin capacity)
  replacement : Option (Fin capacity)
  noncritical : Nat

def scanSlot (q : Queue) (r : Request) (topic : Bytes) (acc : Scan) (i : Fin capacity) : Scan :=
  let slot := q.slots i
  if slot.state = .free then
    { acc with freeSlot := if acc.freeSlot = none then some i else acc.freeSlot }
  else
    { acc with
      noncritical := if slot.item.critical = false then acc.noncritical+1 else acc.noncritical
      replacement := if Replaceable r topic slot then some i else acc.replacement }

def scanSlots (q : Queue) (r : Request) (topic : Bytes) : Scan :=
  (List.finRange capacity).foldl (scanSlot q r topic) ⟨none,none,0⟩

structure Submitted where
  result : SubmitResult
  token : Nat
  replacedToken : Nat
  deriving DecidableEq, Repr

def acceptedItem (r : Request) (topic : Bytes) (token : Nat) : Item where
  topic := topic
  payload := (r.payload.getD []).take r.payloadLen
  payloadLen := r.payloadLen
  qos := r.qos
  retain := r.retain
  critical := r.critical
  coalesceKey := r.coalesceKey
  token := token
  deadlineMs := r.deadlineMs

def store (q : Queue) (r : Request) (topic : Bytes) (index : Fin capacity) (replaces : Bool) :
    Queue × Submitted :=
  let old := q.slots index
  let token := q.lastToken+1
  let slot := if replaces then old else { old with order := q.lastToken+1, retryAfterMs := 0 }
  let counters :=
    if replaces then { q.counters with coalesced := inc64 q.counters.coalesced } else
      let depth := inc32 q.counters.depth
      { q.counters with depth := depth
                        highwater := if depth > q.counters.highwater then depth else q.counters.highwater }
  ({ q with
      slots := Function.update q.slots index
        { slot with item := acceptedItem r topic token, state := .queued }
      counters := { counters with accepted := inc64 counters.accepted }
      lastToken := token },
    ⟨.accepted,token,if replaces then old.item.token else 0⟩)

def Invalid (q : Queue) (r : Request) : Prop :=
  r.topic = none ∨ r.topic = some [] ∨ (r.payload = none ∧ r.payloadLen ≠ 0) ∨ r.qos < 0 ∨ r.qos > 2 ∨
    q.lastToken = uint64Max
instance (q r) : Decidable (Invalid q r) := by unfold Invalid; infer_instance

def submit (q : Queue) : Option Request → Queue × Submitted
  | none => (q,⟨.invalid,0,0⟩)
  | some r =>
    let topic := r.topic.getD []
    if Invalid q r then (q,⟨.invalid,0,0⟩) else
    if topic.length ≥ topicCapacity ∨ r.payloadLen > payloadCapacity then (q,⟨.tooLarge,0,0⟩) else
    let scan := scanSlots q r topic
    let refused := ({ q with counters := { q.counters with full := inc64 q.counters.full } },
      (⟨.full,0,0⟩ : Submitted))
    match scan.replacement, scan.freeSlot with
    | some index, _ => store q r topic index true
    | none, some index =>
      if r.critical = false ∧ scan.noncritical ≥ capacity-criticalReserve then refused
      else store q r topic index false
    | none, none => refused

def expireSlot (nowMs : Nat) (acc : Queue × List Nat) (i : Fin capacity) : Queue × List Nat :=
  let (q,tokens) := acc
  let slot := q.slots i
  if slot.state ≠ .queued ∨ ¬ expired slot.item nowMs then (q,tokens) else
    (releaseSlot { q with counters := { q.counters with expired := inc64 q.counters.expired } } i,
      tokens ++ [slot.item.token])

def expire (q : Queue) (nowMs : Nat) : Queue × List Nat :=
  (List.finRange capacity).foldl (expireSlot nowMs) (q,[])

/-! Claim: the least order of each class among queued, unexpired slots. -/

structure Heads where
  critical : Option (Fin capacity)
  other : Option (Fin capacity)

def earlier (q : Queue) (i : Fin capacity) : Option (Fin capacity) → Option (Fin capacity)
  | none => some i
  | some best => if (q.slots i).order < (q.slots best).order then some i else some best

/-- `none` when a slot is in flight: the source returns at once. -/
def claimScan (q : Queue) (nowMs : Nat) : List (Fin capacity) → Heads → Option Heads
  | [], heads => some heads
  | i::rest, heads =>
    let slot := q.slots i
    if slot.state = .inflight then none else
    if slot.state ≠ .queued ∨ expired slot.item nowMs then claimScan q nowMs rest heads else
    claimScan q nowMs rest
      (if slot.item.critical then { heads with critical := earlier q i heads.critical }
       else { heads with other := earlier q i heads.other })

def undelayed (q : Queue) (nowMs : Nat) (head : Option (Fin capacity)) : Option (Fin capacity) :=
  head.filter (fun i => decide ((q.slots i).retryAfterMs ≤ nowMs))

def hand (q : Queue) (index : Fin capacity) (streak : Nat) : Queue × Option Claim :=
  ({ q with
      slots := Function.update q.slots index { q.slots index with state := .inflight }
      criticalStreak := streak },
    some ⟨index,(q.slots index).item⟩)

def claim (q : Queue) (nowMs : Nat) : Queue × Option Claim :=
  match claimScan q nowMs (List.finRange capacity) ⟨none,none⟩ with
  | none => (q,none)
  | some heads =>
    let critical := undelayed q nowMs heads.critical
    let other := undelayed q nowMs heads.other
    match critical, other with
    | some index, none =>
      hand q index (if q.criticalStreak < criticalBurst then q.criticalStreak+1 else q.criticalStreak)
    | some index, some rival =>
      if q.criticalStreak < criticalBurst then hand q index (q.criticalStreak+1)
      else hand q rival 0
    | none, some index => hand q index 0
    | none, none => (q,none)

/-! Finish: `result` is the C enumeration, checked for its range. -/

abbrev dispatchSent : Int := 0
abbrev dispatchRetry : Int := 1
abbrev dispatchDrop : Int := 2

def finish (q : Queue) (claim : Option Claim) (result : Int) (nowMs retryAfterMs : Nat) : Queue × Bool :=
  match claim with
  | none => (q,false)
  | some claim =>
    if inside : claim.slot < capacity then
      if result < dispatchSent ∨ result > dispatchDrop then (q,false) else
      let index : Fin capacity := ⟨claim.slot,inside⟩
      let slot := q.slots index
      if slot.state ≠ .inflight ∨ slot.item.token ≠ claim.item.token then (q,false) else
      if result = dispatchRetry ∧ ¬ expired slot.item nowMs then
        let slot := { slot with state := .queued, retryAfterMs := retryAfterMs }
        ({ q with slots := Function.update q.slots index slot },true)
      else
        let counters :=
          if result = dispatchRetry then { q.counters with expired := inc64 q.counters.expired }
          else if result = dispatchDrop then { q.counters with dropped := inc64 q.counters.dropped }
          else q.counters
        (releaseSlot { q with counters := counters } index,true)
    else (q,false)

/-! The queue as a machine: its callers serialise every operation. -/

inductive Op where
  | submit (request : Option Request)
  | expire (nowMs : Nat)
  | claim (nowMs : Nat)
  | finish (claim : Option Claim) (result : Int) (nowMs retryAfterMs : Nat)
  deriving DecidableEq, Repr

inductive Out where
  | submitted (s : Submitted)
  | expired (tokens : List Nat)
  | claimed (claim : Option Claim)
  | finished (ok : Bool)
  deriving DecidableEq, Repr

def step (q : Queue) : Op → Queue × Out
  | .submit request => ((submit q request).1,.submitted (submit q request).2)
  | .expire nowMs => ((expire q nowMs).1,.expired (expire q nowMs).2)
  | .claim nowMs => ((claim q nowMs).1,.claimed (claim q nowMs).2)
  | .finish c result nowMs retryAfterMs =>
    ((finish q c result nowMs retryAfterMs).1,.finished (finish q c result nowMs retryAfterMs).2)

end Web3PiUps.MqttDispatchQueue
