import Web3PiUps.WupsFraming

/-! The three receive state machines, each as its firmware writes it: `rx_byte`
of the ESP32 (`wups_link.c`) and of the RP2040 (`wups_router.cpp`), and
`wups_rx_byte` of the CH32X (`main.c`). A step reads one byte and gives the
frame it completes, if any: the arguments of `deliver_frame` or of
`wups_handle_frame`. `idle` is the look of the
receiving loop that finds 50 ms of silence inside a frame. What the boards then do
with the frame, and the timestamp of the ESP32's link watchdog, are not part of
the receiver. -/
namespace Web3PiUps.WupsDeframers
open WupsProtocol

inductive RxState where
  | sync1 | sync2 | dst | src | cls | op | flags | seq | lenL | lenH | payload
  | ckA | ckB | end1 | end2
  deriving DecidableEq, Repr

/-- The static receive record all three firmwares keep. `len` and `pidx` are
`uint16_t`; a write past the buffer, which C would let corrupt memory, is lost. -/
structure RxFields where
  state : RxState
  dst : UInt8
  src : UInt8
  cls : UInt8
  op : UInt8
  flags : UInt8
  seq : UInt8
  len : Nat
  pidx : Nat
  payload : Vector UInt8 240
  rxCkA : UInt8
  expA : UInt8
  expB : UInt8
  deriving DecidableEq, Repr

def RxFields.zero : RxFields :=
  ⟨.sync1,0,0,0,0,0,0,0,0,Vector.replicate 240 0,0,0,0⟩

def RxFields.frame (s : RxFields) : WupsFrame where
  dst := s.dst
  src := s.src
  cls := s.cls
  op := s.op
  flags := s.flags
  seq := s.seq
  payload := s.payload.toList.take s.len
  bounded := (List.length_take_le' _ _).trans (by simp)

def rxReset (s : RxFields) : RxFields := { s with state := .sync1 }

def rxResetWith (s : RxFields) (b : UInt8) : RxFields :=
  { s with state := if b = wupsSync1 then .sync2 else .sync1 }

def rxStep (s : RxFields) (b : UInt8) : RxFields :=
  { s with expA := s.expA+b, expB := s.expB+(s.expA+b) }

/-! `wups_router.cpp`. -/
namespace Rp2040

def rxByte (s : RxFields) (b : UInt8) : RxFields × Option WupsFrame :=
  match s.state with
  | .sync1 => (if b = wupsSync1 then { s with state := .sync2 } else s,none)
  | .sync2 =>
    if b = wupsSync2 then ({ s with expA := 0, expB := 0, pidx := 0, state := .dst },none)
    else (rxResetWith s b,none)
  | .dst => ({ rxStep { s with dst := b } b with state := .src },none)
  | .src => ({ rxStep { s with src := b } b with state := .cls },none)
  | .cls => ({ rxStep { s with cls := b } b with state := .op },none)
  | .op => ({ rxStep { s with op := b } b with state := .flags },none)
  | .flags => ({ rxStep { s with flags := b } b with state := .seq },none)
  | .seq => ({ rxStep { s with seq := b } b with state := .lenL },none)
  | .lenL => ({ rxStep { s with len := b.toNat } b with state := .lenH },none)
  | .lenH =>
    let s := rxStep { s with len := s.len ||| (b.toNat <<< 8) } b
    if s.len > wupsMaxPayload then (rxResetWith s b,none)
    else ({ s with state := if s.len = 0 then .ckA else .payload },none)
  | .payload =>
    let s := rxStep { s with payload := s.payload.setIfInBounds s.pidx b, pidx := (s.pidx+1) % 65536 } b
    (if s.pidx ≥ s.len then { s with state := .ckA } else s,none)
  | .ckA => ({ s with rxCkA := b, state := .ckB },none)
  | .ckB =>
    if s.rxCkA = s.expA ∧ b = s.expB then ({ s with state := .end1 },none)
    else (rxResetWith s b,none)
  | .end1 => if b = wupsEnd1 then ({ s with state := .end2 },none) else (rxResetWith s b,none)
  | .end2 => if b = wupsEnd2 then (rxReset s,some s.frame) else (rxResetWith s b,none)

def idle (s : RxFields) : RxFields := if s.state ≠ .sync1 then rxReset s else s

inductive Reachable : RxFields → Prop
  | init : Reachable .zero
  | byte {s} (b : UInt8) : Reachable s → Reachable (rxByte s b).1
  | idle {s} : Reachable s → Reachable (idle s)

end Rp2040

/-! `wups_link.c`: the same record `s_rx`, and the diagnostic counters. -/
namespace Esp32

structure Link where
  rx : RxFields
  rxResync : UInt32
  rxBad : UInt32
  framesRx : UInt32
  framesRxUnicast : UInt32
  idleResets : UInt32
  onLocalFrame : List WupsFrame
  deriving DecidableEq, Repr

def Link.init : Link := ⟨.zero,0,0,0,0,0,[]⟩

def deliverFrame (l : Link) : Link :=
  let dst := l.rx.dst
  if dst ≠ wupsAddrEsp32 ∧ dst ≠ wupsAddrBroadcast ∧ dst ≠ wupsAddrInternal then l
  else { l with
    framesRx := l.framesRx+1
    framesRxUnicast := if dst = wupsAddrEsp32 then l.framesRxUnicast+1 else l.framesRxUnicast
    onLocalFrame := l.onLocalFrame ++ [l.rx.frame] }

def bad (l : Link) (s : RxFields) (b : UInt8) : Link :=
  { l with rxBad := l.rxBad+1, rx := rxResetWith s b }

def rxByte (l : Link) (b : UInt8) : Link × Option WupsFrame :=
  let s := l.rx
  match s.state with
  | .sync1 => ({ l with rx := if b = wupsSync1 then { s with state := .sync2 } else s },none)
  | .sync2 =>
    if b = wupsSync2 then
      ({ l with rx := { s with expA := 0, expB := 0, pidx := 0, state := .dst } },none)
    else ({ l with rxResync := l.rxResync+1, rx := rxResetWith s b },none)
  | .dst => ({ l with rx := { rxStep { s with dst := b } b with state := .src } },none)
  | .src => ({ l with rx := { rxStep { s with src := b } b with state := .cls } },none)
  | .cls => ({ l with rx := { rxStep { s with cls := b } b with state := .op } },none)
  | .op => ({ l with rx := { rxStep { s with op := b } b with state := .flags } },none)
  | .flags => ({ l with rx := { rxStep { s with flags := b } b with state := .seq } },none)
  | .seq => ({ l with rx := { rxStep { s with seq := b } b with state := .lenL } },none)
  | .lenL => ({ l with rx := { rxStep { s with len := b.toNat } b with state := .lenH } },none)
  | .lenH =>
    let s := rxStep { s with len := s.len ||| (b.toNat <<< 8) } b
    if s.len > wupsMaxPayload then (bad l s b,none)
    else ({ l with rx := { s with state := if s.len = 0 then .ckA else .payload } },none)
  | .payload =>
    let s := rxStep { s with payload := s.payload.setIfInBounds s.pidx b, pidx := (s.pidx+1) % 65536 } b
    ({ l with rx := if s.pidx ≥ s.len then { s with state := .ckA } else s },none)
  | .ckA => ({ l with rx := { s with rxCkA := b, state := .ckB } },none)
  | .ckB =>
    if s.rxCkA = s.expA ∧ b = s.expB then ({ l with rx := { s with state := .end1 } },none)
    else (bad l s b,none)
  | .end1 =>
    if b = wupsEnd1 then ({ l with rx := { s with state := .end2 } },none) else (bad l s b,none)
  | .end2 =>
    if b = wupsEnd2 then
      let l := deliverFrame l
      ({ l with rx := rxReset l.rx },some s.frame)
    else (bad l s b,none)

def idle (l : Link) : Link :=
  if l.rx.state ≠ .sync1 then { l with idleResets := l.idleResets+1, rx := rxReset l.rx } else l

inductive Reachable : Link → Prop
  | init : Reachable .init
  | byte {l} (b : UInt8) : Reachable l → Reachable (rxByte l b).1
  | idle {l} : Reachable l → Reachable (idle l)

end Esp32

/-! `firmware-ch32x/User/main.c`: this copy also stores CK_B. -/
namespace Ch32x

structure WupsRx extends RxFields where
  rxCkB : UInt8
  framesDispatched : UInt32
  deriving DecidableEq, Repr

def wupsRxReset (s : WupsRx) : WupsRx := { s with state := .sync1 }
def wupsRxResetWith (s : WupsRx) (b : UInt8) : WupsRx :=
  { s with state := if b = wupsSync1 then .sync2 else .sync1 }
def wupsRxStep (s : WupsRx) (b : UInt8) : WupsRx :=
  { s with expA := s.expA+b, expB := s.expB+(s.expA+b) }

def wupsRxByte (s : WupsRx) (b : UInt8) : WupsRx × Option WupsFrame :=
  match s.state with
  | .sync1 => (if b = wupsSync1 then { s with state := .sync2 } else s,none)
  | .sync2 =>
    if b = wupsSync2 then ({ s with expA := 0, expB := 0, pidx := 0, state := .dst },none)
    else (wupsRxResetWith s b,none)
  | .dst => ({ wupsRxStep { s with dst := b } b with state := .src },none)
  | .src => ({ wupsRxStep { s with src := b } b with state := .cls },none)
  | .cls => ({ wupsRxStep { s with cls := b } b with state := .op },none)
  | .op => ({ wupsRxStep { s with op := b } b with state := .flags },none)
  | .flags => ({ wupsRxStep { s with flags := b } b with state := .seq },none)
  | .seq => ({ wupsRxStep { s with seq := b } b with state := .lenL },none)
  | .lenL => ({ wupsRxStep { s with len := b.toNat } b with state := .lenH },none)
  | .lenH =>
    let s := wupsRxStep { s with len := s.len ||| (b.toNat <<< 8) } b
    if s.len > wupsMaxPayload then (wupsRxResetWith s b,none)
    else ({ s with state := if s.len = 0 then .ckA else .payload },none)
  | .payload =>
    let s := wupsRxStep
      { s with payload := s.payload.setIfInBounds s.pidx b, pidx := (s.pidx+1) % 65536 } b
    (if s.pidx ≥ s.len then { s with state := .ckA } else s,none)
  | .ckA => ({ s with rxCkA := b, state := .ckB },none)
  | .ckB =>
    let s := { s with rxCkB := b }
    if s.rxCkA = s.expA ∧ s.rxCkB = s.expB then ({ s with state := .end1 },none)
    else (wupsRxResetWith s b,none)
  | .end1 => if b = wupsEnd1 then ({ s with state := .end2 },none) else (wupsRxResetWith s b,none)
  | .end2 =>
    if b = wupsEnd2 then
      (wupsRxReset { s with framesDispatched := s.framesDispatched+1 },some s.toRxFields.frame)
    else (wupsRxResetWith s b,none)

end Ch32x

/-! The copies agree: forgetting what each firmware counts or stores besides,
its step is the RP2040's. -/

theorem esp32Step (l : Esp32.Link) (b : UInt8) :
    (Esp32.rxByte l b).1.rx = (Rp2040.rxByte l.rx b).1 ∧
    (Esp32.rxByte l b).2 = (Rp2040.rxByte l.rx b).2 := by
  have delivered : (Esp32.deliverFrame l).rx = l.rx := by
    unfold Esp32.deliverFrame; dsimp only; split <;> rfl
  obtain ⟨s,_,_,_,_,_,_⟩ := l
  unfold Esp32.rxByte Rp2040.rxByte
  dsimp only
  cases s.state
  case end2 =>
    dsimp only
    split
    · exact ⟨congrArg rxReset delivered,rfl⟩
    · exact ⟨rfl,rfl⟩
  all_goals (dsimp only [Esp32.bad]; (try split) <;> exact ⟨rfl,rfl⟩)

theorem ch32xStep (s : Ch32x.WupsRx) (b : UInt8) :
    (Ch32x.wupsRxByte s b).1.toRxFields = (Rp2040.rxByte s.toRxFields b).1 ∧
    (Ch32x.wupsRxByte s b).2 = (Rp2040.rxByte s.toRxFields b).2 := by
  unfold Ch32x.wupsRxByte Rp2040.rxByte
  cases s.state <;> dsimp only [Ch32x.wupsRxStep,rxStep] <;> (try split) <;> exact ⟨rfl,rfl⟩

end Web3PiUps.WupsDeframers
