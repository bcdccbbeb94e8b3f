import Web3PiUps.WupsStreams

/-! Frames held whole in a buffer: the validators `mqtt_wups_frame_valid`
(`wups_link.c`) and the net.downlink unwrap of the RP2040 (`main.cpp`), and the
four encoders of the ESP32 that fill a buffer instead of the line. Each repeats
the wire layout by hand; a read outside the buffer never happens and gives 0. -/
namespace Web3PiUps.WupsWholeBuffer
open WupsProtocol WupsFraming WupsDeframers WupsTracking WupsStreams StepMachine Scanner WordStream

abbrev wupsOpSysModeChanged : UInt8 := 0x10
abbrev wupsOpNetDownlink : UInt8 := 0x10
abbrev wupsOpNetFwUpdate : UInt8 := 0x22
abbrev wupsModeChangedFlagPending : UInt8 := 0x01
abbrev wupsNetDownlinkHdrBytes : Nat := 6

def byteAt (b : Bytes) (i : Nat) : UInt8 := b.getD i 0
def slice (b : Bytes) (start stop : Nat) : Bytes := (b.take stop).drop start

def mqttWupsFrameValid : Option Bytes → Bool
  | none => false
  | some frame =>
    let len := frame.length
    if len < wupsFramingBytes ∨ len > wupsMaxFrame ∨ byteAt frame 0 ≠ wupsSync1 ∨
        byteAt frame 1 ≠ wupsSync2 ∨ byteAt frame (len-2) ≠ wupsEnd1 ∨
        byteAt frame (len-1) ≠ wupsEnd2 then false else
    let payloadLen := (byteAt frame 8).toNat ||| ((byteAt frame 9).toNat <<< 8)
    if payloadLen + wupsFramingBytes ≠ len then false else
    let ck := wupsFletcher8 (slice frame 2 (2+(8+payloadLen)))
    ck.1 == byteAt frame (wupsHeaderBytes+payloadLen) &&
      ck.2 == byteAt frame (wupsHeaderBytes+payloadLen+1)

def unwrapInner (inner : Bytes) : Option WupsFrame :=
  if inner.length < wupsFramingBytes then none else
  if byteAt inner 0 ≠ wupsSync1 ∨ byteAt inner 1 ≠ wupsSync2 then none else
  let innerLen := (byteAt inner 8).toNat ||| ((byteAt inner 9).toNat <<< 8)
  if small : innerLen > wupsMaxPayload then none else
  if wupsFramingBytes + innerLen ≠ inner.length then none else
  if byteAt inner (wupsHeaderBytes+innerLen+2) ≠ wupsEnd1 then none else
  if byteAt inner (wupsHeaderBytes+innerLen+3) ≠ wupsEnd2 then none else
  let ck := wupsFletcher8 (slice inner 2 (wupsHeaderBytes+innerLen))
  if ck.1 ≠ byteAt inner (wupsHeaderBytes+innerLen) ∨
      ck.2 ≠ byteAt inner (wupsHeaderBytes+innerLen+1) then none else
  some
    { dst := byteAt inner 2
      src := byteAt inner 3
      cls := byteAt inner 4
      op := byteAt inner 5
      flags := byteAt inner 6
      seq := byteAt inner 7
      payload := slice inner wupsHeaderBytes (wupsHeaderBytes+innerLen)
      bounded := by
        have cut : (slice inner wupsHeaderBytes (wupsHeaderBytes+innerLen)).length ≤ innerLen := by
          simp only [slice,List.length_drop,List.length_take]; omega
        omega }

def netDownlinkUnwrap (f : WupsFrame) : Option WupsFrame :=
  if f.cls = wupsClassNet ∧ f.op = wupsOpNetDownlink ∧ f.flags &&& wupsFlagEvent ≠ 0 ∧
      f.len ≥ wupsNetDownlinkHdrBytes then
    let version := byteAt f.payload 0
    let topicLen := (byteAt f.payload 3).toNat
    let payloadLen := lenWord (byteAt f.payload 4) (byteAt f.payload 5)
    if version ≠ 1 then none else
    if wupsNetDownlinkHdrBytes+topicLen+payloadLen > f.len then none else
    unwrapInner (slice f.payload (wupsNetDownlinkHdrBytes+topicLen)
      (wupsNetDownlinkHdrBytes+topicLen+payloadLen))
  else none

/-! The encoders: `wups_link_render_frame` with the next `s_tx_seq`, and those of
`backend_mode.c` (with the frame of its one caller, `emit_via_mqtt`), `http_backend.c`
and `fw_ota.c`. A result of no bytes is a return value of 0. -/

def wupsLinkRenderFrame (txSeq : UInt8) (out : Option Nat) (dst cls op flags : UInt8) (payload : Bytes) :
    UInt8 × Bytes :=
  match out with
  | none => (txSeq,[])
  | some cap =>
    if payload.length > wupsMaxPayload then (txSeq,[]) else
    if cap < wupsFramingBytes+payload.length then (txSeq,[]) else
    let body := [wupsSync1,wupsSync2,dst,wupsAddrEsp32,cls,op,flags,txSeq,
      lenLow payload.length,lenHigh payload.length] ++ payload
    let ck := wupsFletcher8 (slice body 2 (2+(8+payload.length)))
    (txSeq+1,body ++ [ck.1,ck.2,wupsEnd1,wupsEnd2])

def encodeMqttFrame (cap : Nat) (cls op : UInt8) (payload : Bytes) : Bytes :=
  let total := (wupsHeaderBytes+payload.length+4) % 65536
  if total > cap then [] else
  let body := [wupsSync1,wupsSync2,wupsAddrRpi,wupsAddrEsp32,cls,op,wupsFlagEvent,0,
    lenLow payload.length,lenHigh payload.length] ++ payload
  let ck := wupsFletcher8 (slice body 2 (wupsHeaderBytes+payload.length))
  body ++ [ck.1,ck.2,wupsEnd1,wupsEnd2]

def buildModeChangedPayload (from_ to_ : UInt8) (pending : Bool) : Bytes :=
  [1,from_,to_,if pending then wupsModeChangedFlagPending else 0]

def emitViaMqttFrame (from_ to_ : UInt8) (pending : Bool) : Bytes :=
  encodeMqttFrame (wupsHeaderBytes+4+4) wupsClassSystem wupsOpSysModeChanged
    (buildModeChangedPayload from_ to_ pending)

def encodeFrame (cap : Nat) (dst src cls op flags seq : UInt8) (payload : Bytes) : Bytes :=
  let total := (wupsHeaderBytes+payload.length+wupsTrailerBytes) % 65536
  if total > cap ∨ payload.length > wupsMaxPayload then [] else
  let body := [wupsSync1,wupsSync2,dst,src,cls,op,flags,seq,
    lenLow payload.length,lenHigh payload.length] ++ payload
  let ck := wupsFletcher8 (slice body 2 (wupsHeaderBytes+payload.length))
  body ++ [ck.1,ck.2,wupsEnd1,wupsEnd2]

def encodeRespFrame (cap : Nat) (dst seq result : UInt8) : Bytes :=
  let total := wupsFramingBytes+1
  if cap < total then [] else
  let body := [wupsSync1,wupsSync2,dst,wupsAddrEsp32,wupsClassNet,wupsOpNetFwUpdate,
    wupsFlagResp,seq,1,0,result]
  let ck := wupsFletcher8 (slice body 2 (2+9))
  body ++ [ck.1,ck.2,wupsEnd1,wupsEnd2]

/-! What all the checks come to, read off the buffer by index. -/

def lengthField (b : Bytes) : Nat := lenWord (byteAt b 8) (byteAt b 9)

structure WellFormed (b : Bytes) : Prop where
  enough : 14 ≤ b.length
  sync : byteAt b 0 = wupsSync1 ∧ byteAt b 1 = wupsSync2
  small : lengthField b ≤ 240
  total : b.length = 14 + lengthField b
  sum : wupsFletcher8 (slice b 2 (10+lengthField b)) =
    (byteAt b (10+lengthField b),byteAt b (10+lengthField b+1))
  marker : byteAt b (10+lengthField b+2) = wupsEnd1 ∧ byteAt b (10+lengthField b+3) = wupsEnd2

def fields (b : Bytes) (small : lengthField b ≤ 240) : WupsFrame where
  dst := byteAt b 2
  src := byteAt b 3
  cls := byteAt b 4
  op := byteAt b 5
  flags := byteAt b 6
  seq := byteAt b 7
  payload := slice b 10 (10+lengthField b)
  bounded := by
    have cut : (slice b 10 (10+lengthField b)).length ≤ lengthField b := by
      simp only [slice,List.length_drop,List.length_take]; omega
    exact cut.trans small

theorem dropFour {rest : Bytes} {n : Nat} (size : rest.length = n+4) :
    rest.drop n = [byteAt rest n,byteAt rest (n+1),byteAt rest (n+2),byteAt rest (n+3)] := by
  apply List.ext_getElem
  · simp [size]
  · intro i hi _
    have inside : i < 4 := by simpa [size] using hi
    match i with
    | 0 | 1 | 2 | 3 => simp [byteAt,List.getD_eq_getElem?_getD,size]

theorem trailerFour (c : Bytes) (x y z w : UInt8) : [x,y,z,w] = trailer c ↔
    wupsFletcher8 c = (x,y) ∧ z = wupsEnd1 ∧ w = wupsEnd2 := by
  simp only [trailer,List.cons.injEq,and_true,Prod.ext_iff]
  constructor
  · rintro ⟨rfl,rfl,rfl,rfl⟩; exact ⟨⟨rfl,rfl⟩,rfl,rfl⟩
  · rintro ⟨⟨rfl,rfl⟩,rfl,rfl⟩; exact ⟨rfl,rfl,rfl,rfl⟩

section Body
variable (s1 s2 dst src cls op flags seq lo hi : UInt8) (rest : Bytes)

theorem bodyByte (k : Nat) :
    byteAt (s1::s2::dst::src::cls::op::flags::seq::lo::hi::rest) (10+k) = byteAt rest k := by
  rw [Nat.add_comm]
  rfl

theorem bodySlice (k : Nat) : slice (s1::s2::dst::src::cls::op::flags::seq::lo::hi::rest) 2 (10+k) =
    [dst,src,cls,op,flags,seq,lo,hi] ++ rest.take k := by
  rw [slice,Nat.add_comm]
  rfl

theorem wellFormedBody : WellFormed (s1::s2::dst::src::cls::op::flags::seq::lo::hi::rest) ↔
    s1 = wupsSync1 ∧ s2 = wupsSync2 ∧ lenWord lo hi ≤ 240 ∧ rest.length = lenWord lo hi + 4 ∧
      rest.drop (lenWord lo hi) =
        trailer ([dst,src,cls,op,flags,seq,lo,hi] ++ rest.take (lenWord lo hi)) := by
  have field : lengthField (s1::s2::dst::src::cls::op::flags::seq::lo::hi::rest) = lenWord lo hi := rfl
  constructor
  · rintro ⟨-,sync,small,total,sum,marker⟩
    rw [field] at small total sum marker
    rw [bodySlice,bodyByte,Nat.add_assoc,bodyByte] at sum
    rw [Nat.add_assoc,bodyByte,Nat.add_assoc,bodyByte] at marker
    simp only [List.length_cons] at total
    have size : rest.length = lenWord lo hi + 4 := by omega
    exact ⟨sync.1,sync.2,small,size,by rw [dropFour size,trailerFour]; exact ⟨sum,marker⟩⟩
  · rintro ⟨sync1,sync2,small,size,tail⟩
    rw [dropFour size,trailerFour] at tail
    refine ⟨by simp only [List.length_cons]; omega,⟨sync1,sync2⟩,small,?_,?_,?_⟩
    · rw [field]; simp only [List.length_cons]; omega
    · rw [field,bodySlice,bodyByte,Nat.add_assoc,bodyByte]; exact tail.1
    · rw [field,Nat.add_assoc,bodyByte,Nat.add_assoc,bodyByte]; exact tail.2

end Body

theorem decodeWellFormed (b : Bytes) (f : WupsFrame) :
    decode b = some f ↔ ∃ ok : WellFormed b, f = fields b ok.small := by
  by_cases enough : 10 ≤ b.length
  · obtain ⟨s1,s2,dst,src,cls,op,flags,seq,lo,hi,rest,rfl⟩ := headerSplit enough
    have same : ∀ small, fields (s1::s2::dst::src::cls::op::flags::seq::lo::hi::rest) small =
        ⟨dst,src,cls,op,flags,seq,rest.take (lenWord lo hi),(List.length_take_le _ rest).trans small⟩ := by
      intro small
      simp only [fields,WupsFrame.mk.injEq,slice,Nat.add_comm 10]
      exact ⟨rfl,rfl,rfl,rfl,rfl,rfl,rfl⟩
    unfold decode
    dsimp only
    by_cases ok : WellFormed (s1::s2::dst::src::cls::op::flags::seq::lo::hi::rest)
    · rw [dif_pos ((wellFormedBody ..).mp ok)]
      constructor
      · intro h; exact ⟨ok,by rw [same]; exact (Option.some.inj h).symm⟩
      · rintro ⟨_,rfl⟩; rw [same]
    · rw [dif_neg (fun h => ok ((wellFormedBody ..).mpr h))]
      simp only [reduceCtorEq,false_iff]
      rintro ⟨bad,-⟩
      exact ok bad
  · constructor
    · intro h
      rw [wireDecode h,wireLength] at enough
      omega
    · rintro ⟨ok,-⟩
      have := ok.enough
      omega

theorem mqttValidWellFormed (b : Bytes) : mqttWupsFrameValid (some b) = true ↔ WellFormed b := by
  have span : 2+(8+lengthField b) = 10+lengthField b := by omega
  have word : (byteAt b 8).toNat ||| ((byteAt b 9).toNat <<< 8) = lengthField b := rfl
  simp only [mqttWupsFrameValid,word,wupsFramingBytes,wupsHeaderBytes,wupsTrailerBytes,wupsMaxFrame,
    wupsMaxPayload]
  constructor
  · intro h
    split at h <;> try contradiction
    rename_i header
    split at h <;> try contradiction
    rename_i total
    simp only [not_or,not_lt,not_not] at header total
    obtain ⟨enough,most,sync1,sync2,end1,end2⟩ := header
    have size : b.length = 14+lengthField b := by omega
    simp only [Bool.and_eq_true,beq_iff_eq,span] at h
    refine ⟨enough,⟨sync1,sync2⟩,by omega,size,Prod.ext h.1 h.2,?_,?_⟩
    · rw [← end1]; congr 1; omega
    · rw [← end2]; congr 1; omega
  · rintro ⟨enough,⟨sync1,sync2⟩,small,total,sum,end1,end2⟩
    have last : b.length-2 = 10+lengthField b+2 ∧ b.length-1 = 10+lengthField b+3 := by omega
    rw [if_neg,if_neg (by omega),span,sum]
    · simp
    · simp only [not_or,not_lt,not_not,last.1,last.2]
      exact ⟨enough,by omega,sync1,sync2,end1,end2⟩

theorem unwrapWellFormed (b : Bytes) (f : WupsFrame) :
    unwrapInner b = some f ↔ ∃ ok : WellFormed b, f = fields b ok.small := by
  have word : (byteAt b 8).toNat ||| ((byteAt b 9).toNat <<< 8) = lengthField b := rfl
  simp only [unwrapInner,word,wupsFramingBytes,wupsHeaderBytes,wupsTrailerBytes,wupsMaxPayload]
  constructor
  · intro h
    iterate 7 (split at h <;> try contradiction)
    rename_i enough sync small total end1 end2 sum
    simp only [not_or,not_lt,not_not] at enough sync small total end1 end2 sum
    exact ⟨⟨enough,sync,small,total.symm,Prod.ext sum.1 sum.2,end1,end2⟩,(Option.some.inj h).symm⟩
  · rintro ⟨ok,rfl⟩
    obtain ⟨enough,sync,small,total,sum,end1,end2⟩ := ok
    rw [if_neg (Nat.not_lt.mpr enough),if_neg (by simp [sync.1,sync.2]),dif_neg (Nat.not_lt.mpr small),
      if_neg (by simp [total]),if_neg (by simp [end1]),if_neg (by simp [end2]),if_neg (by simp [sum])]
    rfl

theorem unwrapDecodes (b : Bytes) : unwrapInner b = decode b := by
  apply Option.ext
  intro f
  rw [unwrapWellFormed,decodeWellFormed]

theorem mqttValidDecodes (b : Bytes) : mqttWupsFrameValid (some b) = true ↔ (decode b).isSome := by
  rw [mqttValidWellFormed,Option.isSome_iff_exists]
  constructor
  · intro ok; exact ⟨_,(decodeWellFormed b _).mpr ⟨ok,rfl⟩⟩
  · rintro ⟨f,h⟩; exact ((decodeWellFormed b f).mp h).1

theorem scanWholeBuffer (b : Bytes) (f : WupsFrame) :
    stamped 0 (outs (scan format) [] b) = [(b.length,f)] ∧ b.length = 14+f.len ↔ decode b = some f := by
  rw [decodeExact]
  constructor
  · rintro ⟨events,size⟩
    have event : (b.length,f) ∈ stamped 0 (outs (scan format) [] b) := by simp [events]
    have tail := deliveredSubstring formatLawful event
    rw [List.nil_append,List.take_length] at tail
    exact (tail.eq_of_length (by rw [size]; exact wireLength f)).symm
  · rintro rfl
    obtain ⟨events,-⟩ := scanWord formatLawful (Or.inl rfl) f
    change outs (scan format) [] (wire f) = _ at events
    have long : 0 < (wire f).length := by rw [wireLength]; omega
    rw [events,stampedAppend,stampedQuiet]
    refine ⟨?_,wireLength f⟩
    simp only [List.nil_append,stamped,List.length_replicate,List.cons.injEq,Prod.mk.injEq,and_true]
    change 0+((wire f).length-1)+1 = (wire f).length
    omega

theorem downlinkCarries (qos retain flags : UInt8) (topic inner : Bytes) (event : flags &&& wupsFlagEvent ≠ 0)
    (f : WupsFrame) (kind : f.cls = wupsClassNet ∧ f.op = wupsOpNetDownlink ∧ f.flags = flags)
    (carried : f.payload = [1,qos,retain,UInt8.ofNat topic.length,lenLow inner.length,lenHigh inner.length] ++
      topic ++ inner) : netDownlinkUnwrap f = decode inner := by
  have bounded := f.lenBound
  have size : f.len = 6+topic.length+inner.length := by
    simp only [WupsFrame.len,carried,List.length_append,List.length_cons,List.length_nil]
  have topicLen : (byteAt f.payload 3).toNat = topic.length := by
    have low : topic.length % 256 = topic.length := Nat.mod_eq_of_lt (by omega)
    rw [carried]
    exact UInt8.toNat_ofNat'.trans low
  have innerLen : lenWord (byteAt f.payload 4) (byteAt f.payload 5) = inner.length := by
    rw [carried]
    exact lenWordBytes (by omega)
  have version : byteAt f.payload 0 = 1 := by rw [carried]; rfl
  have span : slice f.payload (6+topic.length) (6+topic.length+inner.length) = inner := by
    have whole : f.payload.take (6+topic.length+inner.length) = f.payload :=
      List.take_of_length_le (Nat.le_of_eq size)
    rw [slice,whole,carried]
    exact List.drop_left' (by simp only [List.length_append,List.length_cons,List.length_nil])
  have enough : wupsNetDownlinkHdrBytes ≤ f.len := by
    rw [size,Nat.add_assoc]
    exact Nat.le_add_right 6 _
  rw [netDownlinkUnwrap,if_pos ⟨kind.1,kind.2.1,by rw [kind.2.2]; exact event,enough⟩]
  simp only [version,topicLen,innerLen,wupsNetDownlinkHdrBytes]
  rw [if_neg (by simp),if_neg (by omega),span,unwrapDecodes]

/-! The encoders fill the buffer with the wire form, or leave it alone. -/

theorem bodyWire (f : WupsFrame) :
    let body := [wupsSync1,wupsSync2,f.dst,f.src,f.cls,f.op,f.flags,f.seq,
      lenLow f.payload.length,lenHigh f.payload.length] ++ f.payload
    let ck := wupsFletcher8 (slice body 2 (10+f.payload.length))
    body ++ [ck.1,ck.2,wupsEnd1,wupsEnd2] = wire f := by
  intro body ck
  have span : slice body 2 (10+f.payload.length) = headerFields f ++ f.payload := by
    rw [slice,List.take_of_length_le (by simp [body]; omega)]
    rfl
  have sums : ck = wupsFletcher8 (headerFields f ++ f.payload) := congrArg wupsFletcher8 span
  rw [wire,trailer,← sums]
  simp only [body,headerFields,WupsFrame.len]
  rfl

def Accepted (out : Bytes) (f : WupsFrame) : Prop :=
  mqttWupsFrameValid (some out) = true ∧ unwrapInner out = some f ∧
    ∀ s, stamped 0 (outs Rp2040.rxByte (rxReset s) out) = [(out.length,f)]

theorem receivedAlone (s : RxFields) (b : Bytes) :
    stamped 0 (outs Rp2040.rxByte (rxReset s) b) = stamped 0 (outs (scan format) [] b) := by
  rw [(rp2040Run (resetTracks s) b).2]

theorem wireAccepted (f : WupsFrame) : Accepted (wire f) f := by
  have whole := decodeWire f
  refine ⟨(mqttValidDecodes _).mpr (by simp [whole]),by rw [unwrapDecodes,whole],fun s => ?_⟩
  rw [receivedAlone]
  exact ((scanWholeBuffer _ f).mpr whole).1

theorem renderFrameAccepted (txSeq dst cls op flags : UInt8) (cap : Nat) (payload : Bytes) :
    let run := wupsLinkRenderFrame txSeq (some cap) dst cls op flags payload
    if fits : payload.length ≤ 240 ∧ 14+payload.length ≤ cap then
      run.1 = txSeq+1 ∧ Accepted run.2 ⟨dst,wupsAddrEsp32,cls,op,flags,txSeq,payload,fits.1⟩
    else run = (txSeq,[]) := by
  have span : 2+(8+payload.length) = 10+payload.length := by omega
  simp only [wupsLinkRenderFrame,wupsFramingBytes,wupsHeaderBytes,wupsTrailerBytes,wupsMaxPayload,span]
  split
  · rename_i fits
    rw [if_neg (by omega),if_neg (by omega)]
    refine ⟨rfl,?_⟩
    rw [bodyWire ⟨dst,wupsAddrEsp32,cls,op,flags,txSeq,payload,fits.1⟩]
    exact wireAccepted _
  · rename_i large
    by_cases long : payload.length > 240
    · rw [if_pos long]
    · rw [if_neg long,if_pos (by omega)]

theorem mqttFrameAccepted (cap : Nat) (cls op : UInt8) (payload : Bytes) (small : payload.length ≤ 240) :
    if 14+payload.length ≤ cap then
      Accepted (encodeMqttFrame cap cls op payload)
        ⟨wupsAddrRpi,wupsAddrEsp32,cls,op,wupsFlagEvent,0,payload,small⟩
    else encodeMqttFrame cap cls op payload = [] := by
  have total : (10+payload.length+4) % 65536 = 14+payload.length := by omega
  simp only [encodeMqttFrame,wupsHeaderBytes,total]
  split
  · rw [if_neg (by omega),bodyWire ⟨wupsAddrRpi,wupsAddrEsp32,cls,op,wupsFlagEvent,0,payload,small⟩]
    exact wireAccepted _
  · rw [if_pos (by omega)]

theorem fourBytes (from_ to_ : UInt8) (pending : Bool) :
    (buildModeChangedPayload from_ to_ pending).length ≤ wupsMaxPayload := Nat.le_of_ble_eq_true rfl

theorem oneByte (result : UInt8) : [result].length ≤ wupsMaxPayload := Nat.le_of_ble_eq_true rfl

theorem modeChangedAccepted (from_ to_ : UInt8) (pending : Bool) :
    Accepted (emitViaMqttFrame from_ to_ pending)
      ⟨wupsAddrRpi,wupsAddrEsp32,wupsClassSystem,wupsOpSysModeChanged,wupsFlagEvent,0,
        buildModeChangedPayload from_ to_ pending,fourBytes from_ to_ pending⟩ := by
  have built := mqttFrameAccepted (10+4+4) wupsClassSystem wupsOpSysModeChanged
    (buildModeChangedPayload from_ to_ pending) (fourBytes from_ to_ pending)
  rw [if_pos (by simp [buildModeChangedPayload])] at built
  exact built

theorem encodeFrameAccepted (cap : Nat) (dst src cls op flags seq : UInt8) (payload : Bytes) :
    if fits : payload.length ≤ 240 ∧ 14+payload.length ≤ cap then
      Accepted (encodeFrame cap dst src cls op flags seq payload) ⟨dst,src,cls,op,flags,seq,payload,fits.1⟩
    else encodeFrame cap dst src cls op flags seq payload = [] := by
  simp only [encodeFrame,wupsHeaderBytes,wupsTrailerBytes,wupsMaxPayload]
  split
  · rename_i fits
    rw [if_neg (by omega),bodyWire ⟨dst,src,cls,op,flags,seq,payload,fits.1⟩]
    exact wireAccepted _
  · rw [if_pos (by omega)]

theorem respFrameAccepted (cap : Nat) (dst seq result : UInt8) :
    if 15 ≤ cap then
      Accepted (encodeRespFrame cap dst seq result)
        ⟨dst,wupsAddrEsp32,wupsClassNet,wupsOpNetFwUpdate,wupsFlagResp,seq,[result],oneByte result⟩
    else encodeRespFrame cap dst seq result = [] := by
  simp only [encodeRespFrame,wupsFramingBytes,wupsHeaderBytes,wupsTrailerBytes]
  split
  · rw [if_neg (by omega)]
    let f : WupsFrame := ⟨dst,wupsAddrEsp32,wupsClassNet,wupsOpNetFwUpdate,wupsFlagResp,seq,[result],
      oneByte result⟩
    have low : lenLow 1 = 1 := by decide
    have high : lenHigh 1 = 0 := by decide
    have whole := bodyWire f
    simp only [f,List.length_singleton,low,high] at whole
    exact (congrArg (fun w => Accepted w f) whole).mpr (wireAccepted f)
  · rw [if_pos (by omega)]

theorem wholeBufferAgrees :
    (∀ b : Bytes, (mqttWupsFrameValid (some b) = true ↔ (unwrapInner b).isSome) ∧
      ∀ (l : Esp32.Link) (s : RxFields) (f : WupsFrame),
        (unwrapInner b = some f ↔
          stamped 0 (outs Rp2040.rxByte (rxReset s) b) = [(b.length,f)] ∧ b.length = 14+f.len) ∧
        (unwrapInner b = some f ↔
          stamped 0 (outs Esp32.rxByte { l with rx := rxReset l.rx } b) = [(b.length,f)] ∧
            b.length = 14+f.len)) ∧
    (∀ txSeq dst cls op flags cap payload,
      let run := wupsLinkRenderFrame txSeq (some cap) dst cls op flags payload
      if fits : payload.length ≤ 240 ∧ 14+payload.length ≤ cap then
        run.1 = txSeq+1 ∧ Accepted run.2 ⟨dst,wupsAddrEsp32,cls,op,flags,txSeq,payload,fits.1⟩
      else run = (txSeq,[])) ∧
    (∀ cap cls op (f : WupsFrame),
      if 14+f.len ≤ cap then
        Accepted (encodeMqttFrame cap cls op f.payload)
          ⟨wupsAddrRpi,wupsAddrEsp32,cls,op,wupsFlagEvent,0,f.payload,f.bounded⟩
      else encodeMqttFrame cap cls op f.payload = []) ∧
    (∀ from_ to_ pending, Accepted (emitViaMqttFrame from_ to_ pending)
      ⟨wupsAddrRpi,wupsAddrEsp32,wupsClassSystem,wupsOpSysModeChanged,wupsFlagEvent,0,
        buildModeChangedPayload from_ to_ pending,fourBytes from_ to_ pending⟩) ∧
    (∀ cap dst src cls op flags seq payload,
      if fits : payload.length ≤ 240 ∧ 14+payload.length ≤ cap then
        Accepted (encodeFrame cap dst src cls op flags seq payload)
          ⟨dst,src,cls,op,flags,seq,payload,fits.1⟩
      else encodeFrame cap dst src cls op flags seq payload = []) ∧
    ∀ cap dst seq result,
      if 15 ≤ cap then
        Accepted (encodeRespFrame cap dst seq result)
          ⟨dst,wupsAddrEsp32,wupsClassNet,wupsOpNetFwUpdate,wupsFlagResp,seq,[result],oneByte result⟩
      else encodeRespFrame cap dst seq result = [] := by
  refine ⟨fun b => ⟨by rw [unwrapDecodes,mqttValidDecodes],fun l s f => ⟨?_,?_⟩⟩,renderFrameAccepted,
    fun cap cls op f => mqttFrameAccepted cap cls op f.payload f.bounded,modeChangedAccepted,
    encodeFrameAccepted,respFrameAccepted⟩
  · rw [unwrapDecodes,receivedAlone,scanWholeBuffer]
  · have start : Tracks ({ l with rx := rxReset l.rx } : Esp32.Link).rx [] := resetTracks l.rx
    rw [unwrapDecodes,(esp32Run start b).2,scanWholeBuffer]

end Web3PiUps.WupsWholeBuffer
