import Web3PiUps.WupsEncoders
import Web3PiUps.WupsTracking

/-! What the receivers make of a byte stream: the frames the senders put into
it, the frames that follow garbage, and, on any stream at all, nothing but
frames that are there. Delivery `(n,f)` happens at byte number `n`, so the
frame's first byte stands at `n` less its wire length. -/
namespace Web3PiUps.WupsStreams
open WupsProtocol WupsFraming WupsDeframers WupsEncoders WupsTracking StepMachine Scanner WordStream

inductive Encoder where
  | esp32 (t : Esp32.Tx)
  | rp2040 (t : Rp2040.Tx) (port : {port // Rp2040.Attached t port})

def Encoder.output (f : WupsFrame) : Encoder → Bytes
  | .esp32 t =>
    (Esp32.sendFrameFull t f.dst f.src f.cls f.op f.flags f.seq f.payload).written.drop t.written.length
  | .rp2040 t port =>
    (Rp2040.written (Rp2040.wupsSendWithSrc t port f.dst f.src f.cls f.op f.flags f.seq f.payload)
      port).drop (Rp2040.written t port).length

structure Sent where
  frame : WupsFrame
  encoder : Encoder
  guard : Bool

def Sent.bytes (s : Sent) : Bytes :=
  if s.guard then s.encoder.output s.frame else (s.encoder.output s.frame).dropLast

def sentStream (sent : List Sent) : Bytes := sent.flatMap Sent.bytes

def item (frame : WupsFrame) (guard : Bool) : WupsFrame × Bytes :=
  (frame,if guard then [wupsGuardByte] else [])

theorem outputGuarded (f : WupsFrame) (e : Encoder) : e.output f = guarded f := by
  cases e with
  | esp32 t => simp only [Encoder.output,esp32Sends,List.drop_left]
  | rp2040 t port => simp only [Encoder.output,rp2040Sends port.property,List.drop_left]

theorem sentBytes (s : Sent) : s.bytes = wire s.frame ++ (item s.frame s.guard).2 := by
  unfold Sent.bytes item
  rw [outputGuarded,guarded]
  split <;> simp

theorem sentStreamItems (sent : List Sent) :
    sentStream sent = stream format (sent.map (fun s => item s.frame s.guard)) := by
  induction sent with
  | nil => rfl
  | cons s rest ih =>
    have step : sentStream (s::rest) = s.bytes ++ sentStream rest := rfl
    rw [step,ih,sentBytes]
    rfl

theorem itemsInert {items : List (WupsFrame × Bytes)} (made : ∀ i ∈ items, ∃ f guard, i = item f guard) :
    ∀ i ∈ items, ∀ x ∈ i.2, x ≠ wupsSync1 := by
  intro i hi x hx
  obtain ⟨f,guard,rfl⟩ := made i hi
  cases guard with
  | false => simp [item] at hx
  | true =>
    have same : x = wupsGuardByte := by simpa [item] using hx
    rw [same]; decide

theorem sentDelivers (sent : List Sent) :
    (outs (scan format) [] (sentStream sent)).reduceOption = sent.map Sent.frame ∧
      final (scan format) [] (sentStream sent) = [] := by
  have inert : ∀ i ∈ sent.map (fun s => item s.frame s.guard), ∀ x ∈ i.2, x ≠ wupsSync1 := by
    apply itemsInert
    intro i hi
    obtain ⟨s,-,rfl⟩ := List.mem_map.mp hi
    exact ⟨s.frame,s.guard,rfl⟩
  obtain ⟨events,idle⟩ := streamDelivers formatLawful 0 inert (Or.inl rfl)
  rw [sentStreamItems]
  refine ⟨?_,idle⟩
  rw [← stampedEvents 0,events,expectedEvents,List.map_map]
  rfl

theorem deframesWhatWasSent (sent : List Sent) (l : Esp32.Link) (s : RxFields) :
    ((outs Esp32.rxByte { l with rx := rxReset l.rx } (sentStream sent)).reduceOption =
        sent.map Sent.frame ∧
      (final Esp32.rxByte { l with rx := rxReset l.rx } (sentStream sent)).rx.state = .sync1) ∧
    (outs Rp2040.rxByte (rxReset s) (sentStream sent)).reduceOption = sent.map Sent.frame ∧
      (final Rp2040.rxByte (rxReset s) (sentStream sent)).state = .sync1 := by
  obtain ⟨events,idle⟩ := sentDelivers sent
  constructor
  · have start : Tracks ({ l with rx := rxReset l.rx } : Esp32.Link).rx [] := resetTracks l.rx
    obtain ⟨last,given⟩ := esp32Run start (sentStream sent)
    rw [idle] at last
    exact ⟨by rw [given,events],idleState last⟩
  · obtain ⟨last,given⟩ := rp2040Run (resetTracks s) (sentStream sent)
    rw [idle] at last
    exact ⟨by rw [given,events],idleState last⟩

theorem scanResynchronises {p : Bytes} (live : p = [] ∨ format.viable p = true) (g : Bytes)
    {items : List (WupsFrame × Bytes)} (inert : ∀ i ∈ items, ∀ x ∈ i.2, x ≠ wupsSync1)
    (pair : PairOnlyAtStarts format wupsSync1 wupsSync2 items) :
    (stamped 0 (outs (scan format) p (g ++ stream format items))).filter (late format (g.length+252)) =
      (expected format g.length items).filter (late format (g.length+252)) := by
  have before : (stamped 0 (outs (scan format) p g)).filter (late format (g.length+252)) = [] := by
    rw [List.filter_eq_nil_iff]
    intro d hd
    have bounds := stampedBounds hd
    simp only [outsLength] at bounds
    simp only [late,decide_eq_true_eq]
    omega
  have after := resynchronises formatLawful inert pair (finalViable format live g) g.length (by decide)
  rw [outsAppend,stampedAppend,List.filter_append,before,List.nil_append,outsLength,Nat.zero_add]
  exact after

theorem resynchronisesIn252 {l : Esp32.Link} (hl : Esp32.Reachable l) {s : RxFields}
    (hs : Rp2040.Reachable s) (g : Bytes) (frames : List (WupsFrame × Bool))
    (pair : PairOnlyAtStarts format wupsSync1 wupsSync2 (frames.map (fun x => item x.1 x.2))) :
    let follow := frames.map (fun x => item x.1 x.2)
    let owed := (expected format g.length follow).filter (late format (g.length+252))
    (stamped 0 (outs Esp32.rxByte l (g ++ stream format follow))).filter
        (late format (g.length+252)) = owed ∧
    (stamped 0 (outs Rp2040.rxByte s (g ++ stream format follow))).filter
        (late format (g.length+252)) = owed := by
  intro follow owed
  have inert : ∀ i ∈ follow, ∀ x ∈ i.2, x ≠ wupsSync1 := by
    apply itemsInert
    intro i hi
    obtain ⟨x,-,rfl⟩ := List.mem_map.mp hi
    exact ⟨x.1,x.2,rfl⟩
  constructor
  · obtain ⟨inv,live⟩ := esp32Reachable hl
    rw [(esp32Run ⟨inv,rfl⟩ _).2]
    exact scanResynchronises live g inert pair
  · obtain ⟨inv,live⟩ := rp2040Reachable hs
    rw [(rp2040Run ⟨inv,rfl⟩ _).2]
    exact scanResynchronises live g inert pair

theorem resynchronisesAfterLoneSync :
    let ping : WupsFrame := ⟨0x04,0x02,0x01,0x01,0x01,7,[],by decide⟩
    let full : WupsFrame := ⟨0xFF,0x03,0x02,0x10,0x04,9,List.replicate 240 0,List.length_replicate.le⟩
    let follow := [item full true,item ping false]
    (stamped 0 (outs Rp2040.rxByte RxFields.zero ([0xAA] ++ stream format follow))).filter
      (late format 253) = [(270,ping)] := by
  intro ping full follow
  have run := resynchronisesIn252 Esp32.Reachable.init Rp2040.Reachable.init [0xAA]
    [(full,true),(ping,false)] (by decide +kernel)
  exact run.2.trans (by decide +kernel)

structure Genuine (xs : Bytes) (deliveries : List (Nat × WupsFrame)) : Prop where
  substring : ∀ d ∈ deliveries, ∃ front, xs.take d.1 = front ++ wire d.2
  apart : deliveries.Pairwise (fun d e => d.1 + (wire e.2).length ≤ e.1)

theorem scanGenuine (xs : Bytes) : Genuine xs (stamped 0 (outs (scan format) [] xs)) where
  substring d hd := by
    obtain ⟨n,f⟩ := d
    obtain ⟨front,eq⟩ := deliveredSubstring formatLawful hd
    exact ⟨front,eq.symm⟩
  apart := deliveriesApart formatLawful 0 [] xs

theorem deliveriesGenuine (xs : Bytes) (l : Esp32.Link) (s : RxFields) :
    Genuine xs (stamped 0 (outs Esp32.rxByte { l with rx := rxReset l.rx } xs)) ∧
    Genuine xs (stamped 0 (outs Rp2040.rxByte (rxReset s) xs)) ∧
    (∀ l, Esp32.Reachable l → l.rx.state = .payload → l.rx.pidx < l.rx.len ∧ l.rx.pidx < 240) ∧
    ∀ s, Rp2040.Reachable s → s.state = .payload → s.pidx < s.len ∧ s.pidx < 240 := by
  refine ⟨?_,?_,fun l hl h => payloadIndex (esp32Reachable hl).inv h,
    fun s hs h => payloadIndex (rp2040Reachable hs).inv h⟩
  · have start : Tracks ({ l with rx := rxReset l.rx } : Esp32.Link).rx [] := resetTracks l.rx
    rw [(esp32Run start xs).2]
    exact scanGenuine xs
  · rw [(rp2040Run (resetTracks s) xs).2]
    exact scanGenuine xs

end Web3PiUps.WupsStreams
