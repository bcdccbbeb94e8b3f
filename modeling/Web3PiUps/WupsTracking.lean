import Web3PiUps.WupsDeframers

/-! The receive record refines the scanner of the frame format. `attempt` reads
back from the record the bytes of the frame in progress; `RxInv` says that the
running checksum covers them and that the write index stays inside the buffer.
One received byte moves both as one scanner step does. -/
namespace Web3PiUps.WupsTracking
open WupsProtocol WupsFraming WupsDeframers StepMachine Scanner

def opened (s : RxFields) : Bytes :=
  [wupsSync1,wupsSync2,s.dst,s.src,s.cls,s.op,s.flags,s.seq]

def headed (s : RxFields) : Bytes := opened s ++ [lenLow s.len,lenHigh s.len]

def stored (s : RxFields) (n : Nat) : Bytes := s.payload.toList.take n

def attempt (s : RxFields) : Bytes :=
  match s.state with
  | .sync1 => []
  | .sync2 => [wupsSync1]
  | .dst => [wupsSync1,wupsSync2]
  | .src => [wupsSync1,wupsSync2,s.dst]
  | .cls => [wupsSync1,wupsSync2,s.dst,s.src]
  | .op => [wupsSync1,wupsSync2,s.dst,s.src,s.cls]
  | .flags => [wupsSync1,wupsSync2,s.dst,s.src,s.cls,s.op]
  | .seq => [wupsSync1,wupsSync2,s.dst,s.src,s.cls,s.op,s.flags]
  | .lenL => opened s
  | .lenH => opened s ++ [lenLow s.len]
  | .payload => headed s ++ stored s s.pidx
  | .ckA => headed s ++ stored s s.len
  | .ckB => headed s ++ stored s s.len ++ [s.rxCkA]
  | .end1 => headed s ++ stored s s.len ++ [s.expA,s.expB]
  | .end2 => headed s ++ stored s s.len ++ [s.expA,s.expB,wupsEnd1]

def Sums (s : RxFields) (covered : Bytes) : Prop :=
  wupsFletcher8 (covered.drop 2) = (s.expA,s.expB)

def RxInv (s : RxFields) : Prop :=
  match s.state with
  | .sync1 | .sync2 => True
  | .dst | .src | .cls | .op | .flags | .seq | .lenL => s.pidx = 0 ∧ Sums s (attempt s)
  | .lenH => s.pidx = 0 ∧ s.len < 256 ∧ Sums s (attempt s)
  | .payload => s.len ≤ 240 ∧ s.pidx < s.len ∧ Sums s (attempt s)
  | .ckA | .ckB | .end1 | .end2 => s.len ≤ 240 ∧ Sums s (headed s ++ stored s s.len)

structure Follows (s : RxFields) (b : UInt8) (next : RxFields × Option WupsFrame) : Prop where
  attempt : WupsTracking.attempt next.1 = (scan format (WupsTracking.attempt s) b).1
  delivers : next.2 = (scan format (WupsTracking.attempt s) b).2
  keeps : RxInv next.1

theorem resetInv (s : RxFields) (b : UInt8) : RxInv (rxResetWith s b) := by
  unfold rxResetWith RxInv
  split <;> simp_all <;> split at * <;> simp_all

theorem resetAttempt (s : RxFields) (b : UInt8) :
    attempt (rxResetWith s b) = if format.viable [b] then [b] else [] := by
  have first : format.viable [b] = true ↔ b = wupsSync1 := viableSingle formatLawful
  unfold rxResetWith attempt
  by_cases same : b = wupsSync1
  · simp [same,formatLawful.starts]
  · have stuck : format.viable [b] = false := by
      rw [Bool.eq_false_iff]; exact fun bad => same (first.mp bad)
    simp [same,stuck]

theorem refusedFollows {s b} (stuck : viable (attempt s ++ [b]) = false)
    (unfinished : decode (attempt s ++ [b]) = none) : Follows s b (rxResetWith s b,none) := by
  have step : scan format (attempt s) b = (if format.viable [b] then [b] else [],none) := by
    simp only [scan,format,unfinished,stuck]
    rfl
  exact ⟨by rw [step,resetAttempt],by rw [step],resetInv s b⟩

theorem extendFollows {s b n} (live : viable (attempt s ++ [b]) = true)
    (next : attempt n = attempt s ++ [b]) (keeps : RxInv n) : Follows s b (n,none) := by
  have step : scan format (attempt s) b = (attempt s ++ [b],none) := scanViable formatLawful live
  exact ⟨by rw [step,next],by rw [step],keeps⟩

theorem shortLive {q : Bytes} (opened : q.take 2 = [wupsSync1,wupsSync2]) (short : q.length < 10) :
    viable q = true := by
  rw [viableShort short,decide_eq_true_eq,opened]
  exact ⟨fun none => by simp [none] at opened,List.prefix_rfl⟩

theorem sumsConcat {c : Bytes} {x a₀ b₀ : UInt8} (two : 2 ≤ c.length)
    (h : wupsFletcher8 (c.drop 2) = (a₀,b₀)) :
    wupsFletcher8 ((c ++ [x]).drop 2) = (a₀+x,b₀+(a₀+x)) := by
  rw [List.drop_append_of_le_length two,fletcherConcat,h]
  rfl

theorem storedLength {s : RxFields} {n : Nat} (h : n ≤ 240) : (stored s n).length = n := by
  simp [stored]; omega

theorem storedWrite {s : RxFields} {n : Nat} (b : UInt8) (h : n < 240) :
    (s.payload.setIfInBounds n b).toList.take (n+1) = stored s n ++ [b] := by
  have inside : n < s.payload.toList.length := by simpa using h
  have same : (s.payload.setIfInBounds n b).toList = s.payload.toList.set n b := by
    simp
  rw [same,List.set_eq_take_append_cons_drop,if_pos inside,stored]
  have len : (s.payload.toList.take n).length = n := by rw [List.length_take]; omega
  rw [List.take_append,len,List.take_of_length_le (by omega)]
  simp

theorem headedTail (s : RxFields) (tl : Bytes) : headed s ++ stored s s.len ++ tl =
    wupsSync1::wupsSync2::s.dst::s.src::s.cls::s.op::s.flags::s.seq::lenLow s.len::lenHigh s.len::
      (stored s s.len ++ tl) := by simp [headed,opened]

theorem headedCover (s : RxFields) :
    [s.dst,s.src,s.cls,s.op,s.flags,s.seq,lenLow s.len,lenHigh s.len] ++ stored s s.len =
      (headed s ++ stored s s.len).drop 2 := by simp [headed,opened]

theorem frameTrailer {s : RxFields} (sums : Sums s (headed s ++ stored s s.len)) :
    trailer ((headed s ++ stored s s.len).drop 2) = [s.expA,s.expB,wupsEnd1,wupsEnd2] := by
  have pair : wupsFletcher8 ((headed s ++ stored s s.len).drop 2) = (s.expA,s.expB) := sums
  rw [trailer,pair]

section Tail
variable {s : RxFields} (small : s.len ≤ 240)
include small

theorem frameLen : s.frame.len = s.len := by
  change (stored s s.len).length = s.len
  exact storedLength small

theorem storedSplit (tl : Bytes) : lenWord (lenLow s.len) (lenHigh s.len) = s.len ∧
    (stored s s.len ++ tl).take s.len = stored s s.len ∧ (stored s s.len ++ tl).drop s.len = tl := by
  have len : (stored s s.len).length = s.len := storedLength small
  refine ⟨lenWordBytes (by omega),?_,?_⟩
  · rw [List.take_append_of_le_length (by omega),List.take_of_length_le (by omega)]
  · rw [List.drop_append_of_le_length (by omega),List.drop_of_length_le (by omega)]; rfl

variable (sums : Sums s (headed s ++ stored s s.len))
include sums

theorem tailWire : headed s ++ stored s s.len ++ [s.expA,s.expB,wupsEnd1,wupsEnd2] = wire s.frame := by
  rw [← frameTrailer sums,wire,headerFields,frameLen small]
  simp [headed,opened,RxFields.frame,stored]

theorem tailViable (tl : Bytes) : viable (headed s ++ stored s s.len ++ tl) = true ↔
    tl.length < 4 ∧ (2 ≤ tl.length → tl <+: [s.expA,s.expB,wupsEnd1,wupsEnd2]) := by
  obtain ⟨word,body,rest⟩ := storedSplit small tl
  have len : (stored s s.len).length = s.len := storedLength small
  rw [headedTail,viableBody,word,body,rest,headedCover,frameTrailer sums]
  simp only [List.length_append,len,true_and]
  constructor
  · rintro ⟨-,short,tail⟩
    exact ⟨by omega,fun two => tail (by omega)⟩
  · rintro ⟨short,tail⟩
    exact ⟨small,by omega,fun two => tail (by omega)⟩

theorem tailDecode {tl : Bytes} (other : tl ≠ [s.expA,s.expB,wupsEnd1,wupsEnd2]) :
    decode (headed s ++ stored s s.len ++ tl) = none := by
  obtain ⟨word,body,rest⟩ := storedSplit small tl
  rw [headedTail,decode,dif_neg]
  rw [word,body,rest,headedCover,frameTrailer sums]
  exact fun whole => other whole.2.2.2.2

end Tail

theorem startStep (b : UInt8) {s : RxFields} (h : s.state = .sync1) : Follows s b (Rp2040.rxByte s b) := by
  have start : attempt s = [] := by simp [attempt,h]
  simp only [Rp2040.rxByte,h]
  by_cases same : b = wupsSync1
  · rw [if_pos same]
    refine extendFollows ?_ ?_ ?_
    · rw [start,same]; decide
    · simp [attempt,h,same]
    · simp [RxInv]
  · rw [if_neg same]
    have idle : scan format [] b = ([],none) := scanIdle formatLawful same
    refine ⟨?_,?_,?_⟩
    · rw [start,idle]
    · rw [start,idle]
    · simp [RxInv,h]

theorem preambleStep (b : UInt8) {s : RxFields} (h : s.state = .sync2) :
    Follows s b (Rp2040.rxByte s b) := by
  have start : attempt s = [wupsSync1] := by simp [attempt,h]
  simp only [Rp2040.rxByte,h]
  by_cases same : b = wupsSync2
  · rw [if_pos same]
    refine extendFollows ?_ ?_ ?_
    · rw [start,same]; decide
    · simp [attempt,h,same]
    · exact ⟨rfl,rfl⟩
  · rw [if_neg same]
    refine refusedFollows ?_ ?_
    · rw [start,Bool.eq_false_iff]
      intro live
      have pair := formatLawful.preamble ([wupsSync1] ++ [b]) live
      simp only [List.cons_append,List.nil_append,List.take_succ_cons,List.take_zero,
        List.cons_prefix_cons,true_and] at pair
      exact same pair.1
    · rw [start]; rfl

theorem sumsNext {s n : RxFields} {b : UInt8} {c d : Bytes} (next : d = c ++ [b])
    (two : 2 ≤ c.length) (sums : Sums s c) (addA : n.expA = s.expA+b)
    (addB : n.expB = s.expB+(s.expA+b)) : Sums n d := by
  rw [Sums,next,addA,addB]
  exact sumsConcat two sums

theorem sumsSame {s n : RxFields} {c d : Bytes} (sums : Sums s c) (sameA : n.expA = s.expA)
    (sameB : n.expB = s.expB) (same : d = c) : Sums n d := by
  rw [Sums,same,sameA,sameB]
  exact sums

theorem fieldStep (b : UInt8) {s : RxFields} (inv : RxInv s)
    (h : s.state ∈ [RxState.dst,.src,.cls,.op,.flags,.seq]) : Follows s b (Rp2040.rxByte s b) := by
  obtain ⟨state,dst,src,cls,op,flags,seq,len,pidx,payload,ckA,expA,expB⟩ := s
  simp only [List.mem_cons,List.not_mem_nil,or_false] at h
  rcases h with rfl | rfl | rfl | rfl | rfl | rfl
  all_goals
    refine extendFollows (shortLive rfl (by simp [attempt])) rfl ⟨inv.1,?_⟩
    exact sumsConcat (by simp [attempt]) inv.2

theorem lowLengthStep (b : UInt8) {s : RxFields} (inv : RxInv s) (h : s.state = .lenL) :
    Follows s b (Rp2040.rxByte s b) := by
  have low : lenLow b.toNat = b := UInt8.toNat_inj.mp (by rw [lenLowNat]; have := b.toNat_lt; omega)
  have start : attempt s = opened s := by simp [attempt,h]
  simp only [RxInv,h] at inv
  have next : attempt (Rp2040.rxByte s b).1 = attempt s ++ [b] := by
    simp [attempt,Rp2040.rxByte,h,rxStep,opened,low]
  have sums : Sums (Rp2040.rxByte s b).1 (attempt (Rp2040.rxByte s b).1) :=
    sumsNext next (by simp [start,opened]) inv.2 (by simp [Rp2040.rxByte,h,rxStep])
      (by simp [Rp2040.rxByte,h,rxStep])
  simp only [Rp2040.rxByte,h] at next sums ⊢
  exact extendFollows (shortLive (by simp [start,opened]) (by simp [start,opened])) next
    ⟨inv.1,b.toNat_lt,sums⟩

theorem highLengthStep (b : UInt8) {s : RxFields} (inv : RxInv s) (h : s.state = .lenH) :
    Follows s b (Rp2040.rxByte s b) := by
  have start : attempt s = opened s ++ [lenLow s.len] := by simp [attempt,h]
  simp only [RxInv,h,start] at inv
  obtain ⟨index,low,sums⟩ := inv
  have lowByte : (lenLow s.len).toNat = s.len := by rw [lenLowNat]; omega
  have word : s.len ||| (b.toNat <<< 8) = lenWord (lenLow s.len) b := by rw [lenWord,lowByte]
  obtain ⟨backLow,backHigh⟩ := lenBytesWord (lenLow s.len) b
  have full : opened s ++ [lenLow s.len] ++ [b] =
      wupsSync1::wupsSync2::s.dst::s.src::s.cls::s.op::s.flags::s.seq::lenLow s.len::b::[] := by
    simp [opened]
  have covered : Sums (rxStep s b) (opened s ++ [lenLow s.len] ++ [b]) :=
    sumsNext rfl (by simp [opened]) sums rfl rfl
  simp only [Rp2040.rxByte,h,rxStep,word]
  by_cases big : lenWord (lenLow s.len) b > wupsMaxPayload
  · rw [if_pos big]
    obtain ⟨same,quiet,-⟩ : Follows s b (rxResetWith s b,none) := by
      refine refusedFollows ?_ ?_
      · rw [start,full,Bool.eq_false_iff]
        intro live
        exact absurd (viableBody.mp live).2.2.1 (Nat.not_le.mpr big)
      · rw [start,full,decode,dif_neg]
        exact fun ok => absurd ok.2.2.1 (Nat.not_le.mpr big)
    refine ⟨?_,quiet,resetInv _ b⟩
    rw [← same,resetAttempt,resetAttempt]
  · rw [if_neg big]
    have small := Nat.not_lt.mp big
    have live : viable (attempt s ++ [b]) = true := by
      rw [start,full,viableBody]
      exact ⟨rfl,rfl,small,by simp,by simp⟩
    by_cases none : lenWord (lenLow s.len) b = 0
    · have bytes : [lenLow 0,lenHigh 0] = [lenLow s.len,b] := by rw [← none,backLow,backHigh]
      simp only [none,if_true]
      refine extendFollows live ?_ ⟨by simp,sumsSame covered rfl rfl ?_⟩
      · rw [start]; simp [attempt,headed,opened,stored,bytes]
      · simp [headed,opened,stored,bytes]
    · simp only [none,if_false]
      refine extendFollows live ?_ ⟨small,?_,sumsSame covered rfl rfl ?_⟩
      · rw [start]; simp [attempt,headed,opened,stored,index,backLow,backHigh]
      · change s.pidx < lenWord (lenLow s.len) b
        omega
      · simp [attempt,headed,opened,stored,index,backLow,backHigh]

theorem payloadStep (b : UInt8) {s : RxFields} (inv : RxInv s) (h : s.state = .payload) :
    Follows s b (Rp2040.rxByte s b) := by
  have start : attempt s = headed s ++ stored s s.pidx := by simp [attempt,h]
  simp only [RxInv,h,start] at inv
  obtain ⟨small,inside,sums⟩ := inv
  have word : lenWord (lenLow s.len) (lenHigh s.len) = s.len := lenWordBytes (by omega)
  have index : (s.pidx+1) % 65536 = s.pidx+1 := Nat.mod_eq_of_lt (by omega)
  have room : s.pidx < 240 := by omega
  have written : (s.payload.setIfInBounds s.pidx b).toList.take (s.pidx+1) = stored s s.pidx ++ [b] :=
    storedWrite b room
  have covered : Sums (rxStep s b) (headed s ++ stored s s.pidx ++ [b]) :=
    sumsNext rfl (by simp [headed,opened]) sums rfl rfl
  have live : viable (attempt s ++ [b]) = true := by
    have len : (stored s s.pidx).length = s.pidx := storedLength (by omega)
    have full : headed s ++ stored s s.pidx ++ [b] =
        wupsSync1::wupsSync2::s.dst::s.src::s.cls::s.op::s.flags::s.seq::lenLow s.len::lenHigh s.len::
          (stored s s.pidx ++ [b]) := by simp [headed,opened]
    rw [start,full,viableBody,word]
    refine ⟨rfl,rfl,small,?_,fun enough => ?_⟩
    · simp only [List.length_append,List.length_singleton,len]; omega
    · simp only [List.length_append,List.length_singleton,len] at enough; omega
  simp only [Rp2040.rxByte,h,rxStep,index]
  by_cases last : s.pidx+1 ≥ s.len
  · have exactly : s.len = s.pidx+1 := by omega
    rw [if_pos last]
    refine extendFollows live ?_ ⟨small,sumsSame covered rfl rfl ?_⟩
    · rw [start]; simp only [attempt,headed,opened,stored,exactly,written,List.append_assoc]
    · simp only [headed,opened,stored,exactly,written,List.append_assoc]
  · rw [if_neg last]
    refine extendFollows live ?_ ⟨small,Nat.not_le.mp last,sumsSame covered rfl rfl ?_⟩
    · rw [start]; simp only [attempt,headed,opened,stored,written,List.append_assoc]
    · simp only [attempt,headed,opened,stored,written,List.append_assoc]

theorem checksumStep (b : UInt8) {s : RxFields} (inv : RxInv s) (h : s.state = .ckA ∨ s.state = .ckB) :
    Follows s b (Rp2040.rxByte s b) := by
  rcases h with h | h
  · have start : attempt s = headed s ++ stored s s.len := by simp [attempt,h]
    simp only [RxInv,h] at inv
    simp only [Rp2040.rxByte,h]
    refine extendFollows ?_ (by rw [start]; simp [attempt,headed,opened,stored]) inv
    rw [start,tailViable inv.1 inv.2]
    exact ⟨by simp,by simp⟩
  · have start : attempt s = headed s ++ stored s s.len ++ [s.rxCkA] := by simp [attempt,h]
    simp only [RxInv,h] at inv
    obtain ⟨small,sums⟩ := inv
    have full : attempt s ++ [b] = headed s ++ stored s s.len ++ [s.rxCkA,b] := by
      rw [start,List.append_assoc]; rfl
    simp only [Rp2040.rxByte,h]
    by_cases same : s.rxCkA = s.expA ∧ b = s.expB
    · rw [if_pos same]
      refine extendFollows ?_ ?_ ⟨small,sums⟩
      · rw [full,tailViable small sums,same.1,same.2]
        exact ⟨by simp,fun _ => ⟨_,rfl⟩⟩
      · rw [full,same.1,same.2]; rfl
    · rw [if_neg same]
      refine refusedFollows ?_ ?_
      · rw [full,Bool.eq_false_iff,Ne,tailViable small sums]
        intro live
        have pair := live.2 (by simp)
        simp only [List.cons_prefix_cons] at pair
        exact same ⟨pair.1,pair.2.1⟩
      · rw [full]
        exact tailDecode small sums (by simp)

theorem endStep (b : UInt8) {s : RxFields} (inv : RxInv s) (h : s.state = .end1 ∨ s.state = .end2) :
    Follows s b (Rp2040.rxByte s b) := by
  rcases h with h | h
  · have full : attempt s ++ [b] = headed s ++ stored s s.len ++ [s.expA,s.expB,b] := by
      simp [attempt,h]
    simp only [RxInv,h] at inv
    obtain ⟨small,sums⟩ := inv
    simp only [Rp2040.rxByte,h]
    by_cases same : b = wupsEnd1
    · rw [if_pos same]
      refine extendFollows ?_ ?_ ⟨small,sums⟩
      · rw [full,tailViable small sums,same]
        exact ⟨by simp,fun _ => ⟨_,rfl⟩⟩
      · rw [full,same]; rfl
    · rw [if_neg same]
      refine refusedFollows ?_ ?_
      · rw [full,Bool.eq_false_iff,Ne,tailViable small sums]
        intro live
        have tail := live.2 (by simp)
        simp only [List.cons_prefix_cons,true_and] at tail
        exact same tail.1
      · rw [full]
        exact tailDecode small sums (by simp)
  · have full : attempt s ++ [b] = headed s ++ stored s s.len ++ [s.expA,s.expB,wupsEnd1,b] := by
      simp [attempt,h]
    simp only [RxInv,h] at inv
    obtain ⟨small,sums⟩ := inv
    simp only [Rp2040.rxByte,h]
    by_cases same : b = wupsEnd2
    · rw [if_pos same]
      have whole : attempt s ++ [b] = wire s.frame := by rw [full,same,tailWire small sums]
      have step : scan format (attempt s) b = ([],some s.frame) := scanDone formatLawful whole
      exact ⟨by rw [step]; rfl,by rw [step],trivial⟩
    · rw [if_neg same]
      refine refusedFollows ?_ ?_
      · rw [full,Bool.eq_false_iff,Ne,tailViable small sums]
        intro live
        simp at live
      · rw [full]
        exact tailDecode small sums (by simp [same])

theorem rxByteFollows (b : UInt8) {s : RxFields} (inv : RxInv s) : Follows s b (Rp2040.rxByte s b) := by
  cases h : s.state with
  | sync1 => exact startStep b h
  | sync2 => exact preambleStep b h
  | lenL => exact lowLengthStep b inv h
  | lenH => exact highLengthStep b inv h
  | payload => exact payloadStep b inv h
  | ckA => exact checksumStep b inv (Or.inl h)
  | ckB => exact checksumStep b inv (Or.inr h)
  | end1 => exact endStep b inv (Or.inl h)
  | end2 => exact endStep b inv (Or.inr h)
  | dst | src | cls | op | flags | seq => exact fieldStep b inv (by simp [h])

/-! Runs: a record that tracks an attempt goes on tracking the scanner's. -/

structure Tracks (s : RxFields) (p : Bytes) : Prop where
  inv : RxInv s
  same : attempt s = p

structure Sound (s : RxFields) : Prop where
  inv : RxInv s
  live : attempt s = [] ∨ format.viable (attempt s) = true

theorem soundByte {s} (h : Sound s) (b : UInt8) : Sound (Rp2040.rxByte s b).1 := by
  obtain ⟨next,-,keeps⟩ := rxByteFollows b h.inv
  refine ⟨keeps,?_⟩
  rw [next]
  exact scanKeeps format _ b

theorem rp2040Reachable {s} (h : Rp2040.Reachable s) : Sound s := by
  induction h with
  | init => exact ⟨trivial,Or.inl rfl⟩
  | byte b _ ih => exact soundByte ih b
  | idle _ ih =>
    unfold Rp2040.idle
    split
    · exact ⟨trivial,Or.inl rfl⟩
    · exact ih

theorem esp32Reachable {l} (h : Esp32.Reachable l) : Sound l.rx := by
  induction h with
  | init => exact ⟨trivial,Or.inl rfl⟩
  | @byte l b _ ih => exact (esp32Step l b).1 ▸ soundByte ih b
  | idle _ ih =>
    unfold Esp32.idle
    split
    · exact ⟨trivial,Or.inl rfl⟩
    · exact ih

theorem payloadIndex {s} (inv : RxInv s) (h : s.state = .payload) : s.pidx < s.len ∧ s.pidx < 240 := by
  simp only [RxInv,h] at inv
  exact ⟨inv.2.1,by omega⟩

theorem resetTracks (s : RxFields) : Tracks (rxReset s) [] := ⟨trivial,rfl⟩

theorem rxByteTracks {s p} (h : Tracks s p) (b : UInt8) :
    Tracks (Rp2040.rxByte s b).1 (scan format p b).1 ∧ (Rp2040.rxByte s b).2 = (scan format p b).2 := by
  obtain ⟨inv,rfl⟩ := h
  obtain ⟨next,delivers,keeps⟩ := rxByteFollows b inv
  exact ⟨⟨keeps,next⟩,delivers⟩

theorem rp2040Run {s p} (start : Tracks s p) (xs : Bytes) :
    Tracks (final Rp2040.rxByte s xs) (final (scan format) p xs) ∧
      outs Rp2040.rxByte s xs = outs (scan format) p xs :=
  simulates Tracks (fun _ _ b h => rxByteTracks h b) start xs

theorem esp32Run {l : Esp32.Link} {p} (start : Tracks l.rx p) (xs : Bytes) :
    Tracks (final Esp32.rxByte l xs).rx (final (scan format) p xs) ∧
      outs Esp32.rxByte l xs = outs (scan format) p xs := by
  refine simulates (fun (l : Esp32.Link) p => Tracks l.rx p) (fun l p b h => ?_) start xs
  obtain ⟨record,delivers⟩ := esp32Step l b
  rw [record,delivers]
  exact rxByteTracks h b

theorem ch32xRun {c : Ch32x.WupsRx} {p} (start : Tracks c.toRxFields p) (xs : Bytes) :
    Tracks (final Ch32x.wupsRxByte c xs).toRxFields (final (scan format) p xs) ∧
      outs Ch32x.wupsRxByte c xs = outs (scan format) p xs := by
  refine simulates (fun (c : Ch32x.WupsRx) p => Tracks c.toRxFields p) (fun c p b h => ?_) start xs
  obtain ⟨record,delivers⟩ := ch32xStep c b
  rw [record,delivers]
  exact rxByteTracks h b

def phase (q : Bytes) : RxState :=
  match q with
  | [] => .sync1
  | [_] => .sync2
  | [_,_] => .dst
  | [_,_,_] => .src
  | [_,_,_,_] => .cls
  | [_,_,_,_,_] => .op
  | [_,_,_,_,_,_] => .flags
  | [_,_,_,_,_,_,_] => .seq
  | [_,_,_,_,_,_,_,_] => .lenL
  | [_,_,_,_,_,_,_,_,_] => .lenH
  | _::_::_::_::_::_::_::_::lo::hi::rest =>
    if rest.length < lenWord lo hi then .payload
    else if rest.length = lenWord lo hi then .ckA
    else if rest.length = lenWord lo hi + 1 then .ckB
    else if rest.length = lenWord lo hi + 2 then .end1
    else .end2

theorem phaseHeaded (s : RxFields) (tl : Bytes) (small : s.len ≤ 240) : phase (headed s ++ tl) =
    if tl.length < s.len then .payload
    else if tl.length = s.len then .ckA
    else if tl.length = s.len+1 then .ckB
    else if tl.length = s.len+2 then .end1
    else .end2 := by
  have word : lenWord (lenLow s.len) (lenHigh s.len) = s.len := lenWordBytes (by omega)
  simp only [headed,opened,phase,List.cons_append,List.nil_append,word]

theorem stateOfAttempt {s : RxFields} (inv : RxInv s) : s.state = phase (attempt s) := by
  cases h : s.state with
  | sync1 | sync2 | dst | src | cls | op | flags | seq | lenL | lenH =>
    simp [attempt,h,phase,opened]
  | payload =>
    simp only [RxInv,h] at inv
    have len : (stored s s.pidx).length = s.pidx := storedLength (by omega)
    simp [attempt,h,phaseHeaded s _ inv.1,len,inv.2.1]
  | ckA | ckB | end1 | end2 =>
    simp only [RxInv,h] at inv
    have len : (stored s s.len).length = s.len := storedLength inv.1
    simp [attempt,h,phaseHeaded s _ inv.1,len]

theorem trackedState {s p} (h : Tracks s p) : s.state = phase p := by
  rw [stateOfAttempt h.inv,h.same]

theorem idleState {s} (h : Tracks s []) : s.state = .sync1 := trackedState h

end Web3PiUps.WupsTracking
