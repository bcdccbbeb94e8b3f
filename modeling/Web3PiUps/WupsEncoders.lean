import Web3PiUps.WupsFraming

/-! The three senders, each as its firmware writes it: `send_frame_full` of the
ESP32, `wups_send_with_src` of the RP2040 and `wups_send_frame` of the CH32X.
A sender is a function on the state of its output: what has been written to
the line, and the counters. The mutex of the ESP32 keeps one frame together. -/
namespace Web3PiUps.WupsEncoders
open WupsProtocol WupsFraming

/-! `wups_link.c`. -/
namespace Esp32

structure Tx where
  written : Bytes
  framesTx : UInt32
  bytesTx : UInt32
  deriving DecidableEq, Repr

def sendFrameFull (t : Tx) (dst src cls op flags seq : UInt8) (payload : Bytes) : Tx :=
  if payload.length > wupsMaxPayload then t else
    let header := [wupsSync1,wupsSync2,dst,src,cls,op,flags,seq,
      lenLow payload.length,lenHigh payload.length]
    let ck := payload.foldl fletcherStep ((header.drop 2).foldl fletcherStep (0,0))
    let trailer := [ck.1,ck.2,wupsEnd1,wupsEnd2,wupsGuardByte]
    { written := t.written ++ header ++ payload ++ trailer
      framesTx := t.framesTx+1
      bytesTx := t.bytesTx + UInt32.ofNat (wupsHeaderBytes+payload.length+trailer.length) }

end Esp32

/-! `wups_router.cpp`: a port without a stream sends nothing. -/
namespace Rp2040

abbrev wupsPortNone : UInt8 := 0
abbrev wupsPortCount : UInt8 := 4

structure Tx where
  portStreams : UInt8 → Option Bytes
  framesTx : UInt8 → UInt32

def Attached (t : Tx) (port : UInt8) : Prop :=
  port ≠ wupsPortNone ∧ port < wupsPortCount ∧ (t.portStreams port).isSome
instance (t port) : Decidable (Attached t port) := by unfold Attached; infer_instance

def wupsSendWithSrc (t : Tx) (port dst src cls op flags seq : UInt8) (payload : Bytes) : Tx :=
  if port = wupsPortNone ∨ port ≥ wupsPortCount then t else
    match t.portStreams port with
    | none => t
    | some stream =>
      if payload.length > wupsMaxPayload then t else
        let header := [wupsSync1,wupsSync2,dst,src,cls,op,flags,seq,
          lenLow payload.length,lenHigh payload.length]
        let ck := payload.foldl fletcherStep ((header.drop 2).foldl fletcherStep (0,0))
        let trailer := [ck.1,ck.2,wupsEnd1,wupsEnd2,wupsGuardByte]
        { portStreams := Function.update t.portStreams port (some (stream ++ header ++ payload ++ trailer))
          framesTx := Function.update t.framesTx port (t.framesTx port+1) }

def written (t : Tx) (port : UInt8) : Bytes := (t.portStreams port).getD []

end Rp2040

/-! `firmware-ch32x/User/main.c`: USART2 written byte by byte, each byte after
a bounded wait for the transmission-complete flag. `tc` is that flag as poll
number `n` reads it. -/
namespace Ch32x

abbrev tcGuard : Nat := 50000
abbrev usart2TxReinitAfter : Nat := 8

structure Usart2 where
  sent : Bytes
  polls : Nat
  tcTimeouts : Nat
  inits : Nat
  deriving DecidableEq, Repr

def waitTc (tc : Nat → Bool) : Nat → Nat → Option Nat
  | 0, _ => none
  | guard+1, poll => if tc poll then some (poll+1) else waitTc tc guard (poll+1)

def usart2SendBytes (tc : Nat → Bool) (u : Usart2) : Bytes → Usart2
  | [] => u
  | b::rest =>
    match waitTc tc tcGuard u.polls with
    | none =>
      let u := { u with polls := u.polls+tcGuard, tcTimeouts := u.tcTimeouts+1 }
      if u.tcTimeouts ≥ usart2TxReinitAfter then { u with tcTimeouts := 0, inits := u.inits+1 } else u
    | some poll => usart2SendBytes tc { u with sent := u.sent ++ [b], polls := poll, tcTimeouts := 0 } rest

def wupsSendFrame (tc : Nat → Bool) (u : Usart2) (dst cls op flags seq : UInt8) (payload : Bytes) : Usart2 :=
  let header := [wupsSync1,wupsSync2,dst,wupsAddrCh32x,cls,op,flags,seq,
    lenLow payload.length,lenHigh payload.length]
  let ck := payload.foldl fletcherStep ((header.drop 2).foldl fletcherStep (0,0))
  let trailer := [ck.1,ck.2,wupsEnd1,wupsEnd2,wupsGuardByte]
  let u := usart2SendBytes tc u header
  let u := if payload.length ≠ 0 then usart2SendBytes tc u payload else u
  usart2SendBytes tc u trailer

/-- The flag comes back within the guard, as it does while the USART runs. -/
def TcReady (tc : Nat → Bool) : Prop := ∀ poll, ∃ n, n < tcGuard ∧ tc (poll+n) = true

theorem waitReady {tc : Nat → Bool} {guard poll n : Nat} (soon : n < guard) (flag : tc (poll+n) = true) :
    ∃ next, waitTc tc guard poll = some next := by
  induction guard generalizing poll n with
  | zero => omega
  | succ guard ih =>
    unfold waitTc
    by_cases now : tc poll = true
    · exact ⟨poll+1,by rw [if_pos now]⟩
    · rw [if_neg now]
      cases n with
      | zero => exact absurd flag now
      | succ n =>
        have shifted : tc (poll+1+n) = true := by rw [← flag,Nat.add_right_comm,Nat.add_assoc]
        exact ih (by omega) shifted

theorem sendBytesReady {tc : Nat → Bool} (ready : TcReady tc) (u : Usart2) (buf : Bytes) :
    (usart2SendBytes tc u buf).sent = u.sent ++ buf := by
  induction buf generalizing u with
  | nil => simp [usart2SendBytes]
  | cons b rest ih =>
    obtain ⟨n,soon,flag⟩ := ready u.polls
    obtain ⟨next,wait⟩ := waitReady soon flag
    simp [usart2SendBytes,wait,ih]

end Ch32x

/-! Each sender puts the frame's wire form and one guard byte on its line. -/

def guarded (f : WupsFrame) : Bytes := wire f ++ [wupsGuardByte]

theorem encodedGuarded (f : WupsFrame) :
    let header := [wupsSync1,wupsSync2,f.dst,f.src,f.cls,f.op,f.flags,f.seq,
      lenLow f.payload.length,lenHigh f.payload.length]
    let ck := f.payload.foldl fletcherStep ((header.drop 2).foldl fletcherStep (0,0))
    header ++ f.payload ++ [ck.1,ck.2,wupsEnd1,wupsEnd2,wupsGuardByte] = guarded f := by
  have covered : wupsFletcher8 (headerFields f ++ f.payload) =
      f.payload.foldl fletcherStep ((headerFields f).foldl fletcherStep (0,0)) := fletcherAppend _ _
  simp only [guarded,wire,trailer,covered]
  simp [headerFields,WupsFrame.len]

theorem esp32Sends (t : Esp32.Tx) (f : WupsFrame) :
    (Esp32.sendFrameFull t f.dst f.src f.cls f.op f.flags f.seq f.payload).written =
      t.written ++ guarded f := by
  rw [Esp32.sendFrameFull,if_neg (Nat.not_lt.mpr f.bounded),← encodedGuarded]
  simp only [List.append_assoc]

theorem rp2040Sends {t : Rp2040.Tx} {port : UInt8} (attached : Rp2040.Attached t port) (f : WupsFrame) :
    Rp2040.written (Rp2040.wupsSendWithSrc t port f.dst f.src f.cls f.op f.flags f.seq f.payload) port =
      Rp2040.written t port ++ guarded f := by
  obtain ⟨real,inside,stream⟩ := attached
  obtain ⟨bytes,opened⟩ := Option.isSome_iff_exists.mp stream
  have served : ¬ (port = Rp2040.wupsPortNone ∨ port ≥ Rp2040.wupsPortCount) := by
    rintro (none | above)
    · exact real none
    · exact absurd inside (UInt8.not_lt.mpr above)
  rw [Rp2040.wupsSendWithSrc,if_neg served]
  simp only [opened]
  rw [if_neg (Nat.not_lt.mpr f.bounded),← encodedGuarded]
  simp only [Rp2040.written,Function.update_self,opened,Option.getD_some,List.append_assoc]

theorem ch32xSends {tc : Nat → Bool} (ready : Ch32x.TcReady tc) (u : Ch32x.Usart2) (f : WupsFrame)
    (own : f.src = wupsAddrCh32x) :
    (Ch32x.wupsSendFrame tc u f.dst f.cls f.op f.flags f.seq f.payload).sent = u.sent ++ guarded f := by
  have body : ∀ u : Ch32x.Usart2,
      (if f.payload.length ≠ 0 then Ch32x.usart2SendBytes tc u f.payload else u).sent =
        u.sent ++ f.payload := by
    intro u
    split
    · exact Ch32x.sendBytesReady ready u f.payload
    · rename_i empty
      rw [List.length_eq_zero_iff.mp (not_not.mp empty),List.append_nil]
  rw [Ch32x.wupsSendFrame,← encodedGuarded,own]
  simp only [Ch32x.sendBytesReady ready,body,List.append_assoc]

end Web3PiUps.WupsEncoders
