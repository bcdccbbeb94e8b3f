import Mathlib.Logic.Function.Basic
import Web3PiUps.Lib.StepMachine
import Web3PiUps.WupsDeframers
import Web3PiUps.WupsEncoders

/-! The receive ring of `firmware-ch32x/User/main.c`. DMA channel 6 fills
`Dma_Rx_Buf` behind the program's back, `Cmd_Rx_Drain` reads it up to a head taken
before its loop, and `Usart2_Send_Bytes` starts USART and ring over at the eighth
expiry of the TC guard in a row. The loop of a drain and the reply of
`wups_handle_frame` are taken apart, so that bytes may arrive between any two steps. -/
namespace Web3PiUps.Ch32xRxRing
open WupsProtocol WupsDeframers StepMachine
open WupsEncoders.Ch32x (Usart2 usart2TxReinitAfter tcGuard waitTc)

abbrev dmaRxBufSize : Nat := 256

abbrev wupsFlagReq : UInt8 := 0x01
abbrev wupsClassPower : UInt8 := 0x02
abbrev wupsOpSysPing : UInt8 := 0x01
abbrev wupsOpSysStatusQuery : UInt8 := 0x03
abbrev wupsOpPwrReset : UInt8 := 0x05

/-- A cell of `Dma_Rx_Buf`. `arrival` numbers the byte among those received; no step reads it. -/
structure Cell where
  value : UInt8
  arrival : Option Nat
  deriving DecidableEq, Repr

/-- In the main loop, at the top of a drain's loop, in a handler with `sends` calls of
`Usart2_Send_Bytes` to go, or after NVIC_SystemReset. -/
inductive Place where
  | main
  | loop (head : Nat)
  | reply (head sends : Nat)
  | reset
  deriving DecidableEq, Repr

/-- `received`, `since` and `begun` only record: the bytes that arrived, and how many had
when the last finished drain and the latest drain began. -/
structure Ring where
  buf : Nat → Cell
  cntr : Nat
  tail : Nat
  rx : Ch32x.WupsRx
  tcTimeouts : Nat
  place : Place
  received : Bytes
  since : Nat
  begun : Nat

def Ring.boot : Ring :=
  ⟨fun _ => ⟨0,none⟩,dmaRxBufSize,0,⟨.zero,0,0⟩,0,.main,[],0,0⟩

/-- How a call of `Usart2_Send_Bytes` ends: all sent, or the guard ran out, on the first
byte or after some. -/
inductive SendEnd where
  | complete
  | timedOut (sentSome : Bool)
  deriving DecidableEq, Repr

/-- `Usart2_Tc_Timeouts` after the call, and whether it re-initialised. -/
def tcTimeoutsAfter (timeouts : Nat) : SendEnd → Nat × Bool
  | .complete => (0,false)
  | .timedOut sentSome =>
    let timeouts := (if sentSome then 0 else timeouts)+1
    if timeouts ≥ usart2TxReinitAfter then (0,true) else (timeouts,false)

def usart2SendBytes (r : Ring) (e : SendEnd) : Ring :=
  let after := tcTimeoutsAfter r.tcTimeouts e
  if after.2 then { r with tcTimeouts := after.1, cntr := dmaRxBufSize, tail := 0 }
  else { r with tcTimeouts := after.1 }

/-- The calls of `Usart2_Send_Bytes` that a frame is answered with: header, payload and
trailer of one reply, or none; `none` resets the chip. -/
def wupsHandleFrame (f : WupsFrame) : Option Nat :=
  if f.dst ≠ wupsAddrCh32x ∧ f.dst ≠ wupsAddrBroadcast ∧ f.dst ≠ wupsAddrInternal then some 0
  else if f.cls = wupsClassSystem then
    if f.op = wupsOpSysPing ∧ f.flags &&& wupsFlagReq ≠ 0 then some 3
    else if f.op = wupsOpSysStatusQuery ∧ f.flags &&& wupsFlagReq ≠ 0 then some 3
    else some 0
  else if f.cls = wupsClassPower ∧ f.flags &&& wupsFlagReq ≠ 0 then
    if f.op = wupsOpPwrReset then none else some 0
  else some 0

def handled (head : Nat) : Option WupsFrame → Place
  | none => .loop head
  | some f =>
    match wupsHandleFrame f with
    | none => .reset
    | some sends => .reply head sends

/-- The DMA takes a byte; at 0 the counter is reloaded first. -/
def arrive (r : Ring) (b : UInt8) : Ring :=
  let cntr := if r.cntr = 0 then dmaRxBufSize else r.cntr
  { r with
    buf := Function.update r.buf (dmaRxBufSize-cntr) ⟨b,some r.received.length⟩
    cntr := cntr-1
    received := r.received ++ [b] }

def reload (r : Ring) : Ring := if r.cntr = 0 then { r with cntr := dmaRxBufSize } else r

def cmdRxDrain (r : Ring) : Ring :=
  { r with place := .loop (dmaRxBufSize-r.cntr), begun := r.received.length }

/-- One turn of `while (Dma_Rx_Tail != head)`, with the cell it hands to `wups_rx_byte`. -/
def drainTurn (r : Ring) (head : Nat) : Ring × Option Cell :=
  if r.tail ≠ head then
    let c := r.buf r.tail
    let fed := Ch32x.wupsRxByte r.rx c.value
    ({ r with tail := (r.tail+1) % dmaRxBufSize, rx := fed.1, place := handled head fed.2 },some c)
  else ({ r with place := .main, since := r.begun },none)

inductive Event where
  | arrive (b : UInt8)
  | reload
  | cpu (drains : Bool) (sent : SendEnd)
  deriving DecidableEq, Repr

/-- The program's next step: the main loop drains or sends, a drain goes on. -/
def turn (r : Ring) (drains : Bool) (sent : SendEnd) : Ring × Option Cell :=
  match r.place with
  | .main => (if drains then cmdRxDrain r else usart2SendBytes r sent,none)
  | .loop head => drainTurn r head
  | .reply head 0 => ({ r with place := .loop head },none)
  | .reply head (sends+1) => ({ usart2SendBytes r sent with place := .reply head sends },none)
  | .reset => (r,none)

def step (r : Ring) : Event → Ring × Option Cell
  | .arrive b => (arrive r b,none)
  | .reload => (reload r,none)
  | .cpu drains sent => turn r drains sent

abbrev at' (calls : List Event) (n : Nat) : Ring := stateAt step .boot calls n

/-- What `Cmd_Rx_Drain` hands to the deframer, in order. -/
def fed (calls : List Event) : List Cell := (outs step .boot calls).reduceOption

def Event.byte : Event → Option UInt8
  | .arrive b => some b
  | _ => none

/-- What the USART has received, in order. -/
def receivedBytes (calls : List Event) : Bytes := calls.filterMap Event.byte

def Event.isCpu : Event → Bool
  | .cpu _ _ => true
  | _ => false

def Place.head : Place → Option Nat
  | .loop head => some head
  | .reply head _ => some head
  | _ => none

/-- Turns of the program enough for any drain: one for a byte and four for its reply. -/
abbrev drainTurns : Nat := 5*dmaRxBufSize

structure RingSound (calls : List Event) : Prop where
  received : ∀ c ∈ fed calls, ∃ a, c.arrival = some a ∧ (receivedBytes calls)[a]? = some c.value
  ordered : (fed calls).Pairwise
    (fun c d => ∃ a b, c.arrival = some a ∧ d.arrival = some b ∧ a < b)
  ended : ∀ n m, drainTurns ≤ ((calls.take m).drop n).countP Event.isCpu →
    ∃ k, n ≤ k ∧ k ≤ m ∧ (at' calls k).place.head = none

/-- From the start of a drain to the end of the next, fewer than 256 bytes arrive. -/
def SpacedDrains (calls : List Event) : Prop :=
  ∀ n, n < calls.length+1 → (at' calls n).received.length < (at' calls n).since+dmaRxBufSize

/-- No drain takes its head while CNTR stands at 0, and no send inside a drain
re-initialises unless the head it still goes for is 0. -/
def Resynced (r : Ring) : Event → Prop
  | .cpu drains sent =>
    match r.place with
    | .main => drains = true → r.cntr ≠ 0
    | .reply head (_+1) => (tcTimeoutsAfter r.tcTimeouts sent).2 = true → head = 0
    | _ => True
  | _ => True
instance (r e) : Decidable (Resynced r e) := by
  unfold Resynced; split
  · split <;> infer_instance
  · infer_instance

def Resyncs (calls : List Event) : Prop :=
  ∀ n (inside : n < calls.length), Resynced (at' calls n) calls[n]

/-! The send of the ring is the send of the encoder: what `SendEnd` keeps of it. -/

theorem sendEnds (tc : Nat → Bool) (u : Usart2) {buf : Bytes} (filled : buf ≠ []) :
    ∃ sent, (WupsEncoders.Ch32x.usart2SendBytes tc u buf).tcTimeouts = (tcTimeoutsAfter u.tcTimeouts sent).1 ∧
      (WupsEncoders.Ch32x.usart2SendBytes tc u buf).inits =
        u.inits + if (tcTimeoutsAfter u.tcTimeouts sent).2 then 1 else 0 := by
  induction buf generalizing u with
  | nil => exact absurd rfl filled
  | cons b rest ih =>
    cases wait : waitTc tc tcGuard u.polls with
    | none =>
      refine ⟨.timedOut false,?_⟩
      simp only [WupsEncoders.Ch32x.usart2SendBytes,wait,tcTimeoutsAfter,Bool.false_eq_true,if_false]
      split <;> simp
    | some poll =>
      simp only [WupsEncoders.Ch32x.usart2SendBytes,wait]
      by_cases last : rest = []
      · exact ⟨.complete,by rw [last]; simp [WupsEncoders.Ch32x.usart2SendBytes,tcTimeoutsAfter]⟩
      · obtain ⟨sent,timeouts,inits⟩ := ih _ last
        -- The count is back at 0 once a byte is out, so the rest ends as a send that sent some.
        have begun : ∃ sent', tcTimeoutsAfter 0 sent = tcTimeoutsAfter u.tcTimeouts sent' := by
          cases sent with
          | complete => exact ⟨.complete,rfl⟩
          | timedOut sentSome => exact ⟨.timedOut true,by cases sentSome <;> rfl⟩
        obtain ⟨sent',same⟩ := begun
        exact ⟨sent',by rw [timeouts,same],by rw [inits,same]⟩

end Web3PiUps.Ch32xRxRing
