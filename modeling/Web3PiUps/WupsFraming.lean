import Web3PiUps.WupsProtocol
import Web3PiUps.Lib.WordStream

/-! What a frame is on the wire, and how far a partial one has been checked.
This is the framing's own statement, independent of any firmware: `wire` lays a
frame out, `decode` inverts it, and `viable` holds of the beginnings that no
check made so far has refused. CK_A is compared only together with CK_B, and
LEN_L only together with LEN_H. -/
namespace Web3PiUps.WupsFraming
open WupsProtocol Scanner

def headerFields (f : WupsFrame) : Bytes :=
  [f.dst,f.src,f.cls,f.op,f.flags,f.seq,lenLow f.len,lenHigh f.len]

def trailer (covered : Bytes) : Bytes :=
  [(wupsFletcher8 covered).1,(wupsFletcher8 covered).2,wupsEnd1,wupsEnd2]

def wire (f : WupsFrame) : Bytes :=
  [wupsSync1,wupsSync2] ++ headerFields f ++ f.payload ++ trailer (headerFields f ++ f.payload)

def decode : Bytes → Option WupsFrame
  | s1::s2::dst::src::cls::op::flags::seq::lo::hi::rest =>
    let payload := rest.take (lenWord lo hi)
    if h : s1 = wupsSync1 ∧ s2 = wupsSync2 ∧ lenWord lo hi ≤ 240 ∧
        rest.length = lenWord lo hi + 4 ∧
        rest.drop (lenWord lo hi) = trailer ([dst,src,cls,op,flags,seq,lo,hi] ++ payload) then
      some ⟨dst,src,cls,op,flags,seq,payload,(List.length_take_le _ rest).trans h.2.2.1⟩
    else none
  | _ => none

def viable : Bytes → Bool
  | s1::s2::dst::src::cls::op::flags::seq::lo::hi::rest =>
    decide (s1 = wupsSync1 ∧ s2 = wupsSync2 ∧ lenWord lo hi ≤ 240 ∧
      rest.length < lenWord lo hi + 4 ∧
      (lenWord lo hi + 2 ≤ rest.length → rest.drop (lenWord lo hi) <+:
        trailer ([dst,src,cls,op,flags,seq,lo,hi] ++ rest.take (lenWord lo hi))))
  | q => decide (q ≠ [] ∧ q.take 2 <+: [wupsSync1,wupsSync2])

def format : Format UInt8 WupsFrame where
  encode := wire
  decode := decode
  viable := viable

theorem wireCons (f : WupsFrame) : wire f =
    wupsSync1::wupsSync2::f.dst::f.src::f.cls::f.op::f.flags::f.seq::lenLow f.len::lenHigh f.len::
      (f.payload ++ trailer (headerFields f ++ f.payload)) := by
  simp [wire,headerFields]

theorem wireLength (f : WupsFrame) : (wire f).length = 14 + f.len := by
  simp [wireCons,trailer,WupsFrame.len]
  omega

theorem frameLenWord (f : WupsFrame) : lenWord (lenLow f.len) (lenHigh f.len) = f.len :=
  lenWordBytes (by have := f.lenBound; omega)

theorem decodeWire (f : WupsFrame) : decode (wire f) = some f := by
  have word := frameLenWord f
  have bounded := f.lenBound
  rw [wireCons]
  simp only [decode,word]
  rw [dif_pos]
  · simp [WupsFrame.len]
  · refine ⟨trivial,trivial,bounded,by simp [trailer,WupsFrame.len],?_⟩
    simp [WupsFrame.len,headerFields]

theorem wireDecode {w f} (h : decode w = some f) : w = wire f := by
  unfold decode at h
  split at h <;> try contradiction
  rename_i s1 s2 dst src cls op flags seq lo hi rest
  dsimp only at h
  split at h <;> try contradiction
  rename_i ok
  cases Option.some.inj h
  obtain ⟨rfl,rfl,small,size,tail⟩ := ok
  have len : (rest.take (lenWord lo hi)).length = lenWord lo hi := by
    rw [List.length_take]; omega
  have bytes := lenBytesWord lo hi
  rw [wireCons]
  simp only [WupsFrame.len,headerFields,len,bytes.1,bytes.2,List.cons.injEq,true_and]
  rw [← tail,List.take_append_drop]

theorem decodeExact (w : Bytes) (f : WupsFrame) : decode w = some f ↔ w = wire f :=
  ⟨wireDecode,fun h => h ▸ decodeWire f⟩

theorem headerSplit {q : Bytes} (enough : 10 ≤ q.length) :
    ∃ s1 s2 dst src cls op flags seq lo hi rest,
      q = s1::s2::dst::src::cls::op::flags::seq::lo::hi::rest := by
  rcases q with _|⟨s1,_|⟨s2,_|⟨dst,_|⟨src,_|⟨cls,_|⟨op,_|⟨flags,_|⟨seq,_|⟨lo,_|⟨hi,rest⟩⟩⟩⟩⟩⟩⟩⟩⟩⟩
  all_goals first
    | exact ⟨s1,s2,dst,src,cls,op,flags,seq,lo,hi,rest,rfl⟩
    | exact absurd enough (by simp)

theorem viableShort {q : Bytes} (short : q.length < 10) :
    viable q = decide (q ≠ [] ∧ q.take 2 <+: [wupsSync1,wupsSync2]) := by
  unfold viable
  split
  · simp only [List.length_cons] at short; omega
  · rfl

theorem viableBody {s1 s2 dst src cls op flags seq lo hi : UInt8} {rest : Bytes} :
    viable (s1::s2::dst::src::cls::op::flags::seq::lo::hi::rest) = true ↔
    s1 = wupsSync1 ∧ s2 = wupsSync2 ∧ lenWord lo hi ≤ 240 ∧
      rest.length < lenWord lo hi + 4 ∧
      (lenWord lo hi + 2 ≤ rest.length → rest.drop (lenWord lo hi) <+:
        trailer ([dst,src,cls,op,flags,seq,lo,hi] ++ rest.take (lenWord lo hi))) := by
  simp only [viable,decide_eq_true_eq]

theorem prefixViable {f : WupsFrame} {p : Bytes} (pre : p <+: wire f) (less : p ≠ wire f)
    (filled : p ≠ []) : viable p = true := by
  by_cases short : p.length < 10
  · rw [viableShort short,decide_eq_true_eq]
    refine ⟨filled,?_⟩
    obtain ⟨rest,eq⟩ := pre
    have two := congrArg (List.take 2) eq
    rw [wireCons] at two
    exact ⟨rest.take (2-p.length),by rw [← List.take_append,two]; rfl⟩
  · have shorter : p.length < (wire f).length := by
      refine Nat.lt_of_le_of_ne pre.length_le (fun same => less (pre.eq_of_length same))
    have word := frameLenWord f
    rw [List.prefix_iff_eq_take.mp pre]
    rw [wireLength] at shorter
    obtain ⟨k,hk⟩ : ∃ k, p.length = k+10 := ⟨p.length-10,by omega⟩
    rw [hk,wireCons]
    simp only [List.take_succ_cons,viableBody,word,true_and]
    have total : (f.payload ++ trailer (headerFields f ++ f.payload)).length = f.len+4 := by
      simp [trailer,WupsFrame.len]
    refine ⟨f.lenBound,by rw [List.length_take,total]; omega,?_⟩
    intro enough
    rw [List.length_take,total] at enough
    rw [List.take_take,List.drop_take,Nat.min_eq_left (by omega)]
    have whole : (f.payload ++ trailer (headerFields f ++ f.payload)).take f.len = f.payload := by
      simp [WupsFrame.len]
    have tail : (f.payload ++ trailer (headerFields f ++ f.payload)).drop f.len =
        trailer (headerFields f ++ f.payload) := by simp [WupsFrame.len]
    rw [whole,tail]
    exact List.take_prefix _ _

theorem viableNotWhole {q : Bytes} {f : WupsFrame} (live : viable q = true) : ¬ wire f <+: q := by
  rintro ⟨back,rfl⟩
  have word := frameLenWord f
  rw [wireCons] at live
  simp only [List.cons_append,viableBody,word] at live
  have size := live.2.2.2.1
  simp [WupsFrame.len,trailer] at size
  omega

theorem formatLawful : Lawful format wupsSync1 wupsSync2 254 where
  differ := by decide
  decodes := decodeExact
  proper _ _ := prefixViable
  closed _ _ := viableNotWhole
  preamble q live := by
    change viable q = true at live
    unfold viable at live
    split at live
    · rw [decide_eq_true_eq] at live
      simp [live.1,live.2.1]
    · rw [decide_eq_true_eq] at live
      exact live.2
  opens f := ⟨_,(wireCons f).symm⟩
  starts := by decide
  bounded q live := by
    by_cases short : q.length < 10
    · exact short.trans (by decide)
    · obtain ⟨s1,s2,dst,src,cls,op,flags,seq,lo,hi,rest,rfl⟩ := headerSplit (Nat.not_lt.mp short)
      obtain ⟨-,-,small,size,-⟩ := viableBody.mp live
      simp only [List.length_cons]
      omega

end Web3PiUps.WupsFraming
