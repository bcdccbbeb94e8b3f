import Web3PiUps.WupsRouter

/-! The net.downlink unwrap of the hub byte by byte: every read of the payload can
fail, and so can a call nested too deep. Neither happens. -/
namespace Web3PiUps.WupsDownlinkBounds
open WupsProtocol WupsFraming WupsWholeBuffer WupsRouter
open WupsEncoders.Rp2040 (wupsPortNone)

/-- Outside the received bytes a read gives nothing. -/
def readByte (payload : Bytes) (i : Nat) : Option UInt8 := payload[i]?

/-- A `memcpy` of `n` bytes. -/
def readBytes (payload : Bytes) (start n : Nat) : Option { b : Bytes // b.length = n } :=
  if h : start+n ≤ payload.length then
    some ⟨slice payload start (start+n),by simp only [slice,List.length_drop,List.length_take]; omega⟩
  else none

/-- The checksum loop over `n` bytes. -/
def readSums (payload : Bytes) (start n : Nat) : Option (UInt8 × UInt8) :=
  (List.range' start n).foldlM (fun ck i => (readByte payload i).map (fletcherStep ck)) (0,0)

/-- The inner frame at `inner`, of which the header says `innerPlLen` bytes are there.
The outer result is `none` when a read leaves the payload. -/
def innerReads (payload : Bytes) (inner innerPlLen : Nat) : Option (Option WupsFrame) :=
  if innerPlLen < wupsFramingBytes then some none else do
  let sync1 ← readByte payload inner
  if sync1 ≠ wupsSync1 then some none else do
  let sync2 ← readByte payload (inner+1)
  if sync2 ≠ wupsSync2 then some none else do
  let lo ← readByte payload (inner+8)
  let hi ← readByte payload (inner+9)
  let innerLen := lo.toNat ||| (hi.toNat <<< 8)
  if small : innerLen > wupsMaxPayload then some none else
  if wupsFramingBytes + innerLen ≠ innerPlLen then some none else do
  let end1 ← readByte payload (inner+(wupsHeaderBytes+innerLen+2))
  if end1 ≠ wupsEnd1 then some none else do
  let end2 ← readByte payload (inner+(wupsHeaderBytes+innerLen+3))
  if end2 ≠ wupsEnd2 then some none else do
  let ck ← readSums payload (inner+2) (8+innerLen)
  let a ← readByte payload (inner+(wupsHeaderBytes+innerLen))
  if ck.1 ≠ a then some none else do
  let b ← readByte payload (inner+(wupsHeaderBytes+innerLen+1))
  if ck.2 ≠ b then some none else do
  let dst ← readByte payload (inner+2)
  let src ← readByte payload (inner+3)
  let cls ← readByte payload (inner+4)
  let op ← readByte payload (inner+5)
  let flags ← readByte payload (inner+6)
  let seq ← readByte payload (inner+7)
  let body ← readBytes payload (inner+wupsHeaderBytes) innerLen
  some (some ⟨dst,src,cls,op,flags,seq,body.val,by have size := body.property; omega⟩)

def netDownlinkReads (f : WupsFrame) : Option (Option WupsFrame) :=
  if f.cls = wupsClassNet ∧ f.op = wupsOpNetDownlink ∧ f.flags &&& wupsFlagEvent ≠ 0 ∧
      f.len ≥ wupsNetDownlinkHdrBytes then do
    let dl ← readBytes f.payload 0 wupsNetDownlinkHdrBytes
    let version := byteAt dl.val 0
    let topicLen := (byteAt dl.val 3).toNat
    let payloadLen := lenWord (byteAt dl.val 4) (byteAt dl.val 5)
    if version ≠ 1 then some none else
    let need := wupsNetDownlinkHdrBytes+topicLen+payloadLen
    if need > f.len then some none else
    innerReads f.payload (wupsNetDownlinkHdrBytes+topicLen) payloadLen
  else some none

section Calls
variable {σ : Type} (answer : σ → UInt8 → WupsFrame → σ × List Send)

/-- `wups_route_frame` for a local handler that may fail. -/
def routeWith (onLocal : Router σ → Option (Router σ)) (r : Router σ) (inbound : UInt8) (f : WupsFrame) :
    Option (Router σ) :=
  let toSelf := f.dst = wupsAddrRp2040
  let isBcast := f.dst = wupsAddrBroadcast
  let isInternal := f.dst = wupsAddrInternal
  let handled := if toSelf ∨ isBcast ∨ isInternal then onLocal r else some r
  handled.bind fun r =>
  if isBcast then
    some ([1,2,3].foldl (fun r p => if p ≠ inbound then emitForward r p f else r) r)
  else if isInternal then
    some ([1,2,3].foldl (fun r p => if p = wupsPortRpi then r else if p = inbound then r else emitForward r p f) r)
  else if toSelf then some r
  else if isHostResp inbound f then onLocal r
  else
    let outPort := r.addrToPort f.dst
    some (if outPort ≠ wupsPortNone ∧ outPort ≠ inbound then emitForward r outPort f else r)

/-- `wups_on_local_frame` with at most `depth` calls of itself inside. The result is `none`
when a read leaves its payload or a call would go deeper. -/
def onLocalWithin (depth : Nat) (r : Router σ) (inbound : UInt8) (f : WupsFrame) : Option (Router σ) :=
  let r := { r with log := .handled f::r.log }
  if isNetDownlink f then
    match netDownlinkReads f with
    | none => none
    | some none => some r
    | some (some inner) =>
      match depth with
      | 0 => none
      | depth+1 => routeWith (fun r => onLocalWithin depth r inbound inner) r inbound inner
  else
    let (app,sends) := answer r.app inbound f
    some (sends.foldl send { r with app := app })

end Calls

theorem readInside {payload : Bytes} {i : Nat} (inside : i < payload.length) :
    readByte payload i = some (byteAt payload i) := by
  simp [readByte,byteAt,inside]

theorem byteOfSlice (payload : Bytes) {start stop i : Nat} (inside : start+i < stop) :
    byteAt (slice payload start stop) i = byteAt payload (start+i) := by
  simp only [byteAt,slice,List.getD_eq_getElem?_getD,List.getElem?_drop,List.getElem?_take,if_pos inside]

theorem bytesInside (payload : Bytes) (start n : Nat) (inside : start+n ≤ payload.length) :
    ∃ size, readBytes payload start n = some ⟨slice payload start (start+n),size⟩ := by
  have size : (slice payload start (start+n)).length = n := by
    simp only [slice,List.length_drop,List.length_take]
    omega
  exact ⟨size,by rw [readBytes,dif_pos inside]⟩

theorem sumsInside {payload : Bytes} {start n : Nat} (inside : start+n ≤ payload.length) :
    readSums payload start n = some (wupsFletcher8 (slice payload start (start+n))) := by
  have loop : ∀ n start ck, start+n ≤ payload.length →
      (List.range' start n).foldlM (fun ck i => (readByte payload i).map (fletcherStep ck)) ck =
        some ((slice payload start (start+n)).foldl fletcherStep ck) := by
    intro n
    induction n with
    | zero => intro start ck _; simp [slice]
    | succ n ih =>
      intro start ck bound
      have here : start < payload.length := by omega
      have first : slice payload start (start+(n+1)) =
          byteAt payload start :: slice payload (start+1) (start+1+n) := by
        have stop : start+(n+1) = start+1+n := by omega
        have at_ : start < (payload.take (start+1+n)).length := by
          rw [List.length_take]
          omega
        rw [slice,slice,stop,List.drop_eq_getElem_cons at_]
        simp [byteAt,here]
      rw [List.range'_succ,List.foldlM_cons,readInside here,first]
      exact ih (start+1) (fletcherStep ck (byteAt payload start)) (by omega)
  exact loop n start (0,0) inside

theorem slicesNest (payload : Bytes) {start stop a b : Nat} (inside : start+b ≤ stop) :
    slice (slice payload start stop) a b = slice payload (start+a) (start+b) := by
  simp only [slice,List.drop_take,List.drop_drop,List.take_take]
  congr 1
  omega

theorem innerInside {payload : Bytes} {inner innerPlLen : Nat} (inside : inner+innerPlLen ≤ payload.length) :
    innerReads payload inner innerPlLen = some (unwrapInner (slice payload inner (inner+innerPlLen))) := by
  have length : (slice payload inner (inner+innerPlLen)).length = innerPlLen := by
    simp only [slice,List.length_drop,List.length_take]
    omega
  have byte : ∀ i < innerPlLen, readByte payload (inner+i) =
      some (byteAt (slice payload inner (inner+innerPlLen)) i) := by
    intro i small
    rw [readInside (by omega),byteOfSlice payload (by omega)]
  have first : readByte payload inner = readByte payload (inner+0) := rfl
  have part : ∀ a b, b ≤ innerPlLen → slice (slice payload inner (inner+innerPlLen)) a b =
      slice payload (inner+a) (inner+b) := fun a b bound => slicesNest payload (by omega)
  generalize slice payload inner (inner+innerPlLen) = w at length byte part
  unfold innerReads unwrapInner
  rw [length]
  by_cases short : innerPlLen < wupsFramingBytes
  · rw [if_pos short,if_pos short]
  have header : 14 ≤ innerPlLen := Nat.le_of_not_lt short
  rw [if_neg short,if_neg short,first,byte 0 (by omega),byte 1 (by omega),byte 8 (by omega),
    byte 9 (by omega)]
  simp only [Option.bind_eq_bind,Option.bind_some]
  by_cases sync1 : byteAt w 0 ≠ wupsSync1
  · rw [if_pos sync1,if_pos (.inl sync1)]
  by_cases sync2 : byteAt w 1 ≠ wupsSync2
  · rw [if_neg sync1,if_pos sync2,if_pos (.inr sync2)]
  rw [if_neg sync1,if_neg sync2,if_neg (not_or.mpr ⟨sync1,sync2⟩)]
  obtain ⟨innerLen,said⟩ : ∃ n, (byteAt w 8).toNat ||| (byteAt w 9).toNat <<< 8 = n := ⟨_,rfl⟩
  simp only [said]
  by_cases large : innerLen > wupsMaxPayload
  · rw [dif_pos large,dif_pos large]
  rw [dif_neg large,dif_neg large]
  by_cases other : wupsFramingBytes + innerLen ≠ innerPlLen
  · rw [if_pos other,if_pos other]
  have total : 14 + innerLen = innerPlLen := Decidable.not_not.mp other
  rw [if_neg other,if_neg other,byte (10+innerLen+2) (by omega)]
  simp only [Option.bind_some]
  by_cases end1 : byteAt w (10+innerLen+2) ≠ wupsEnd1
  · rw [if_pos end1,if_pos end1]
  rw [if_neg end1,if_neg end1,byte (10+innerLen+3) (by omega)]
  simp only [Option.bind_some]
  by_cases end2 : byteAt w (10+innerLen+3) ≠ wupsEnd2
  · rw [if_pos end2,if_pos end2]
  have summed : readSums payload (inner+2) (8+innerLen) = some (wupsFletcher8 (slice w 2 (10+innerLen))) := by
    rw [sumsInside (by omega),part 2 (10+innerLen) (by omega)]
    congr 3
    omega
  rw [if_neg end2,if_neg end2,summed,byte (10+innerLen) (by omega)]
  simp only [Option.bind_some]
  by_cases a : (wupsFletcher8 (slice w 2 (10+innerLen))).1 ≠ byteAt w (10+innerLen)
  · rw [if_pos a,if_pos (.inl a)]
  rw [if_neg a,byte (10+innerLen+1) (by omega)]
  simp only [Option.bind_some]
  by_cases b : (wupsFletcher8 (slice w 2 (10+innerLen))).2 ≠ byteAt w (10+innerLen+1)
  · rw [if_pos b,if_pos (.inr b)]
  obtain ⟨size,body⟩ := bytesInside payload (inner+10) ((byteAt w 8).toNat ||| (byteAt w 9).toNat <<< 8)
    (by omega)
  have copied : slice w 10 (10+innerLen) = slice payload (inner+10) (inner+10+innerLen) := by
    rw [part 10 (10+innerLen) (by omega),Nat.add_assoc]
  rw [if_neg b,if_neg (not_or.mpr ⟨a,b⟩),byte 2 (by omega),byte 3 (by omega),byte 4 (by omega),
    byte 5 (by omega),byte 6 (by omega),byte 7 (by omega)]
  simp only [Option.bind_some,wupsHeaderBytes,body]
  simp only [said,copied]

theorem readsInside (f : WupsFrame) : netDownlinkReads f = some (netDownlinkUnwrap f) := by
  unfold netDownlinkReads netDownlinkUnwrap
  by_cases downlink : f.cls = wupsClassNet ∧ f.op = wupsOpNetDownlink ∧ f.flags &&& wupsFlagEvent ≠ 0 ∧
      f.len ≥ wupsNetDownlinkHdrBytes
  · rw [if_pos downlink,if_pos downlink]
    have header : 6 ≤ f.payload.length := downlink.2.2.2
    obtain ⟨size,dl⟩ := bytesInside f.payload 0 6 (by omega)
    have field : ∀ i < 6, byteAt (slice f.payload 0 (0+6)) i = byteAt f.payload i := by
      intro i small
      rw [byteOfSlice f.payload (by omega),Nat.zero_add]
    simp only [wupsNetDownlinkHdrBytes,dl,Option.bind_eq_bind,Option.bind_some,field 0 (by decide),
      field 3 (by decide),field 4 (by decide),field 5 (by decide)]
    by_cases version : byteAt f.payload 0 ≠ 1
    · rw [if_pos version,if_pos version]
    rw [if_neg version,if_neg version]
    by_cases need : 6+(byteAt f.payload 3).toNat+lenWord (byteAt f.payload 4) (byteAt f.payload 5) > f.len
    · rw [if_pos need,if_pos need]
    rw [if_neg need,if_neg need]
    exact innerInside (Nat.le_of_not_lt need)
  · rw [if_neg downlink,if_neg downlink]

/-- What is unwrapped lies in the payload behind the two headers. -/
structure Within (f inner : WupsFrame) : Prop where
  shorter : inner.len + 20 ≤ f.len
  part : inner.payload <:+: f.payload

theorem unwrapWithin {f inner : WupsFrame} (unwraps : netDownlinkUnwrap f = some inner) : Within f inner := by
  unfold netDownlinkUnwrap at unwraps
  split at unwraps
  case isFalse => cases unwraps
  simp only at unwraps
  split at unwraps
  · cases unwraps
  split at unwraps
  · cases unwraps
  rename_i room
  rw [unwrapDecodes] at unwraps
  have whole := wireDecode unwraps
  have length := wireLength inner
  rw [← whole] at length
  simp only [slice,List.length_drop,List.length_take] at length
  simp only [WupsFrame.len,wupsNetDownlinkHdrBytes] at room length
  refine ⟨by simp only [WupsFrame.len]; omega,?_⟩
  have inWire : inner.payload <:+: wire inner := ⟨_,_,rfl⟩
  rw [← whole] at inWire
  exact inWire.trans ((List.drop_suffix _ _).isInfix.trans (List.take_prefix _ _).isInfix)

/-- `g` is what `n` unwraps make of `f`. -/
inductive Nested : Nat → WupsFrame → WupsFrame → Prop where
  | self (f : WupsFrame) : Nested 0 f f
  | inner {n : Nat} {f g h : WupsFrame} (unwraps : netDownlinkUnwrap f = some g) (rest : Nested n g h) :
      Nested (n+1) f h

/-- A frame `n` levels down. -/
structure AtDepth (n : Nat) (f g : WupsFrame) : Prop where
  shorter : g.len + 20*n ≤ f.len
  shallow : n ≤ 12
  part : g.payload <:+: f.payload

theorem nestedDepth {n : Nat} {f g : WupsFrame} (nested : Nested n f g) : AtDepth n f g := by
  have sized : g.len + 20*n ≤ f.len ∧ g.payload <:+: f.payload := by
    induction nested with
    | self f => exact ⟨Nat.le_refl _,List.infix_rfl⟩
    | inner unwraps rest ih =>
      obtain ⟨shorter,part⟩ := unwrapWithin unwraps
      exact ⟨by omega,ih.2.trans part⟩
  have most : f.len ≤ 240 := f.lenBound
  exact ⟨sized.1,by omega,sized.2⟩

section Calls
variable {σ : Type} (answer : σ → UInt8 → WupsFrame → σ × List Send)

theorem routeWithLocal {onLocal : Router σ → Option (Router σ)} {inbound : UInt8} {f : WupsFrame}
    (handles : ∀ r, onLocal r = some (wupsOnLocalFrame answer r inbound f)) (r : Router σ) :
    routeWith onLocal r inbound f = some (wupsRouteFrame answer r inbound f) := by
  have first : (if f.dst = wupsAddrRp2040 ∨ f.dst = wupsAddrBroadcast ∨ f.dst = wupsAddrInternal then
      onLocal r else some r) =
      some (if f.dst = wupsAddrRp2040 ∨ f.dst = wupsAddrBroadcast ∨ f.dst = wupsAddrInternal then
        wupsOnLocalFrame answer r inbound f else r) := by
    split
    · exact handles r
    · rfl
  rw [wupsRouteFrame]
  simp only [routeWith,first,Option.bind_some]
  by_cases bcast : f.dst = wupsAddrBroadcast
  · simp only [if_pos bcast]
  by_cases internal : f.dst = wupsAddrInternal
  · simp only [if_neg bcast,if_pos internal]
  by_cases toSelf : f.dst = wupsAddrRp2040
  · simp only [if_neg bcast,if_neg internal,if_pos toSelf]
  by_cases bridge : isHostResp inbound f = true
  · simp only [if_neg bcast,if_neg internal,if_neg toSelf,if_pos bridge,handles]
  · simp only [if_neg bcast,if_neg internal,if_neg toSelf,if_neg bridge]

theorem localWithin (depth : Nat) (r : Router σ) (inbound : UInt8) (f : WupsFrame)
    (enough : f.len < 20*(depth+1)) :
    onLocalWithin answer depth r inbound f = some (wupsOnLocalFrame answer r inbound f) := by
  induction depth generalizing r f with
  | zero =>
    rw [onLocalWithin.eq_def,wupsOnLocalFrame,readsInside]
    cases unwraps : netDownlinkUnwrap f with
    | none =>
      simp only
      split <;> rfl
    | some inner =>
      have shorter := (unwrapWithin unwraps).shorter
      omega
  | succ depth ih =>
    rw [onLocalWithin.eq_def,wupsOnLocalFrame,readsInside]
    cases unwraps : netDownlinkUnwrap f with
    | none =>
      simp only
      split <;> rfl
    | some inner =>
      have shorter := (unwrapWithin unwraps).shorter
      have rest : ∀ r, onLocalWithin answer depth r inbound inner =
          some (wupsOnLocalFrame answer r inbound inner) := fun r => ih r inner (by omega)
      simp only [if_pos (unwrapsDownlink unwraps)]
      exact routeWithLocal answer rest _

structure DownlinkBounded : Prop where
  ends : ∀ r inbound f, onLocalWithin answer 12 r inbound f = some (wupsOnLocalFrame answer r inbound f)
  reads : ∀ f, netDownlinkReads f = some (netDownlinkUnwrap f)
  within : ∀ f inner, netDownlinkUnwrap f = some inner → Within f inner
  depth : ∀ n f g, Nested n f g → AtDepth n f g

theorem downlinkBounded : DownlinkBounded answer where
  ends r inbound f := localWithin answer 12 r inbound f (Nat.lt_of_le_of_lt f.lenBound (by decide))
  reads := readsInside
  within _ _ := unwrapWithin
  depth _ _ _ := nestedDepth

end Calls

end Web3PiUps.WupsDownlinkBounds
