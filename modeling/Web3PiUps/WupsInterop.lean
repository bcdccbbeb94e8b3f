import Web3PiUps.WupsStreams

/-! The three firmwares speak one framing: their receivers run in lockstep on
every byte stream, and their senders write the same bytes. -/
namespace Web3PiUps.WupsInterop
open WupsProtocol WupsFraming WupsDeframers WupsEncoders WupsTracking StepMachine Scanner

theorem receiversLockstep (l : Esp32.Link) (s : RxFields) (c : Ch32x.WupsRx) (xs : Bytes) :
    let esp32 : Esp32.Link := { l with rx := rxReset l.rx }
    let rp2040 := rxReset s
    let ch32x := Ch32x.wupsRxReset c
    (outs Esp32.rxByte esp32 xs = outs Rp2040.rxByte rp2040 xs ∧
      outs Ch32x.wupsRxByte ch32x xs = outs Rp2040.rxByte rp2040 xs) ∧
    (final Esp32.rxByte esp32 xs).rx.state = (final Rp2040.rxByte rp2040 xs).state ∧
      (final Ch32x.wupsRxByte ch32x xs).state = (final Rp2040.rxByte rp2040 xs).state := by
  intro esp32 rp2040 ch32x
  have startE : Tracks esp32.rx [] := resetTracks l.rx
  have startC : Tracks ch32x.toRxFields [] := resetTracks c.toRxFields
  obtain ⟨lastE,givenE⟩ := esp32Run startE xs
  obtain ⟨lastR,givenR⟩ := rp2040Run (resetTracks s) xs
  obtain ⟨lastC,givenC⟩ := ch32xRun startC xs
  refine ⟨⟨givenE.trans givenR.symm,givenC.trans givenR.symm⟩,?_,?_⟩
  · exact (trackedState lastE).trans (trackedState lastR).symm
  · exact (trackedState lastC).trans (trackedState lastR).symm

theorem sendersAlike {tc : Nat → Bool} (ready : Ch32x.TcReady tc) {r : Rp2040.Tx} {port : UInt8}
    (attached : Rp2040.Attached r port) (t : Esp32.Tx) (u : Ch32x.Usart2) (f : WupsFrame) :
    (Esp32.sendFrameFull t f.dst f.src f.cls f.op f.flags f.seq f.payload).written =
        t.written ++ guarded f ∧
    Rp2040.written (Rp2040.wupsSendWithSrc r port f.dst f.src f.cls f.op f.flags f.seq f.payload) port =
        Rp2040.written r port ++ guarded f ∧
    (f.src = wupsAddrCh32x →
      (Ch32x.wupsSendFrame tc u f.dst f.cls f.op f.flags f.seq f.payload).sent = u.sent ++ guarded f) :=
  ⟨esp32Sends t f,rp2040Sends attached f,ch32xSends ready u f⟩

theorem oneFraming {tc : Nat → Bool} (ready : Ch32x.TcReady tc) :
    (∀ (l : Esp32.Link) (s : RxFields) (c : Ch32x.WupsRx) (xs : Bytes),
      let esp32 : Esp32.Link := { l with rx := rxReset l.rx }
      let rp2040 := rxReset s
      let ch32x := Ch32x.wupsRxReset c
      (outs Esp32.rxByte esp32 xs = outs Rp2040.rxByte rp2040 xs ∧
        outs Ch32x.wupsRxByte ch32x xs = outs Rp2040.rxByte rp2040 xs) ∧
      (final Esp32.rxByte esp32 xs).rx.state = (final Rp2040.rxByte rp2040 xs).state ∧
        (final Ch32x.wupsRxByte ch32x xs).state = (final Rp2040.rxByte rp2040 xs).state) ∧
    ∀ (t : Esp32.Tx) (r : Rp2040.Tx) (port : UInt8) (u : Ch32x.Usart2) (f : WupsFrame),
      Rp2040.Attached r port → ∃ w : Bytes,
        (Esp32.sendFrameFull t f.dst f.src f.cls f.op f.flags f.seq f.payload).written =
          t.written ++ w ∧
        Rp2040.written (Rp2040.wupsSendWithSrc r port f.dst f.src f.cls f.op f.flags f.seq f.payload)
          port = Rp2040.written r port ++ w ∧
        (f.src = wupsAddrCh32x →
          (Ch32x.wupsSendFrame tc u f.dst f.cls f.op f.flags f.seq f.payload).sent = u.sent ++ w) :=
  ⟨receiversLockstep,fun t _ _ u f attached => ⟨guarded f,sendersAlike ready attached t u f⟩⟩

theorem flagAlwaysUp : Ch32x.TcReady (fun _ => true) := fun _ => ⟨0,by decide,rfl⟩

theorem oneFramingPing :
    let up : Rp2040.Tx := ⟨fun port => if port = 2 then some [] else none,fun _ => 0⟩
    let ping : WupsFrame := ⟨0x04,0x03,0x01,0x01,0x01,7,[],by decide⟩
    ∃ w : Bytes,
      (Esp32.sendFrameFull ⟨[],0,0⟩ ping.dst ping.src ping.cls ping.op ping.flags ping.seq
        ping.payload).written = [] ++ w ∧
      Rp2040.written (Rp2040.wupsSendWithSrc up 2 ping.dst ping.src ping.cls ping.op ping.flags ping.seq
        ping.payload) 2 = Rp2040.written up 2 ++ w ∧
      (ping.src = wupsAddrCh32x →
        (Ch32x.wupsSendFrame (fun _ => true) ⟨[],0,0,0⟩ ping.dst ping.cls ping.op ping.flags ping.seq
          ping.payload).sent = [] ++ w) := by
  intro up ping
  exact (oneFraming flagAlwaysUp).2 ⟨[],0,0⟩ up 2 ⟨[],0,0,0⟩ ping (by decide)

end Web3PiUps.WupsInterop
