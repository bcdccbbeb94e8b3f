import Web3PiUps.NetPublish
import Web3PiUps.WupsStreams

/-! The frame between the RP2040 and the ESP32 carries a publication whole, and the policies of the
ESP32 read off its payload what the frame in it says. -/
namespace Web3PiUps.NetPublish
open WupsProtocol WupsFraming WupsDeframers WupsWholeBuffer WupsEncoders WupsStreams StepMachine

theorem requestBytes {r : Request} {body : Bytes} : wupsRequestPublish r = some body ↔
    (r.topic.length ≠ 0 ∧ r.topic.length ≤ 200 ∧ 6+r.topic.length+r.payload.length ≤ 240) ∧
      body = [1,r.qos,r.retain,UInt8.ofNat r.topic.length,lenLow r.payload.length,lenHigh r.payload.length] ++
        r.topic ++ r.payload := by
  rw [wupsRequestPublish]
  split
  · exact ⟨(fun h => by cases h),fun h => by omega⟩
  · split
    · exact ⟨(fun h => by cases h),fun h => by simp only [netPublishHdrBytes,wupsMaxPayload] at *; omega⟩
    · rw [Option.some_inj,eq_comm]
      exact ⟨fun same => ⟨by simp only [netPublishHdrBytes,wupsMaxPayload] at *; omega,same⟩,And.right⟩

theorem sentBounded {r : Request} {sent : Bytes} (made : wupsRequestPublish r = some sent) :
    sent.length ≤ wupsMaxPayload := by
  obtain ⟨⟨-,-,fits⟩,same⟩ := requestBytes.mp made
  rw [same]
  simp only [List.length_append,List.length_cons,List.length_nil,wupsMaxPayload]
  omega

theorem lenParts (lo hi : UInt8) : lenLow (lenWord lo hi) = lo ∧ lenHigh (lenWord lo hi) = hi := by
  have low := lo.toNat_lt
  have high := hi.toNat_lt
  refine ⟨UInt8.toNat_inj.mp ?_,UInt8.toNat_inj.mp ?_⟩
  · rw [lenLowNat,lenWordSum]
    omega
  · rw [lenHighNat,lenWordSum]
    omega

/-- The receiver takes what the sender makes, with anything behind it, and nothing else. -/
theorem parseBytes {body : Bytes} {r : Request} (short : body.length ≤ wupsMaxPayload) : parsePublish body = some r ↔
    ∃ sent rest, wupsRequestPublish r = some sent ∧ body = sent ++ rest := by
  constructor
  · intro parsed
    rw [parsePublish] at parsed
    dsimp only at parsed
    split at parsed
    · cases parsed
    rename_i enough
    rcases body with _ | ⟨version,_ | ⟨qos,_ | ⟨retain,_ | ⟨topicLen,_ | ⟨lo,_ | ⟨hi,tail⟩⟩⟩⟩⟩⟩
    all_goals simp only [List.length_cons,List.length_nil,netPublishHdrBytes,wupsMaxPayload] at enough short
    all_goals try omega
    have fields : byteAt (version::qos::retain::topicLen::lo::hi::tail) 0 = version ∧
        byteAt (version::qos::retain::topicLen::lo::hi::tail) 1 = qos ∧
        byteAt (version::qos::retain::topicLen::lo::hi::tail) 2 = retain ∧
        byteAt (version::qos::retain::topicLen::lo::hi::tail) 3 = topicLen ∧
        byteAt (version::qos::retain::topicLen::lo::hi::tail) 4 = lo ∧
        byteAt (version::qos::retain::topicLen::lo::hi::tail) 5 = hi := ⟨rfl,rfl,rfl,rfl,rfl,rfl⟩
    obtain ⟨f0,f1,f2,f3,f4,f5⟩ := fields
    rw [f0,f1,f2,f3,f4,f5] at parsed
    generalize long : lenWord lo hi = payloadLen at parsed
    split at parsed
    · cases parsed
    rename_i one
    split at parsed
    · cases parsed
    rename_i whole
    split at parsed
    · cases parsed
    rename_i some_
    split at parsed
    · cases parsed
    rename_i few
    obtain rfl := not_not.mp one
    simp only [netPublishHdrBytes,relBytes,List.length_cons] at whole few parsed
    have topic : slice (1::qos::retain::topicLen::lo::hi::tail) 6 (6+topicLen.toNat) = tail.take topicLen.toNat := by
      simp [slice,Nat.add_comm 6,List.drop_take]
    have payload : slice (1::qos::retain::topicLen::lo::hi::tail) (6+topicLen.toNat) (6+topicLen.toNat+payloadLen) =
        (tail.drop topicLen.toNat).take payloadLen := by
      have order : 6+topicLen.toNat+payloadLen = topicLen.toNat+payloadLen+6 := by omega
      rw [slice,order,Nat.add_comm 6]
      simp [List.drop_take]
    rw [topic,payload] at parsed
    obtain rfl := Option.some.inj parsed
    have topicLength : (tail.take topicLen.toNat).length = topicLen.toNat := List.length_take_of_le (by omega)
    have payloadLength : ((tail.drop topicLen.toNat).take payloadLen).length = payloadLen :=
      List.length_take_of_le (by rw [List.length_drop]; omega)
    refine ⟨_,tail.drop (topicLen.toNat+payloadLen),requestBytes.mpr ⟨?_,rfl⟩,?_⟩
    · dsimp only
      rw [topicLength,payloadLength]
      omega
    · dsimp only
      rw [topicLength,payloadLength,← long,(lenParts lo hi).1,(lenParts lo hi).2,UInt8.ofNat_toNat,long]
      simp only [List.cons_append,List.nil_append,List.append_assoc,List.cons.injEq,true_and]
      rw [← List.drop_drop,List.take_append_drop,List.take_append_drop]
  · rintro ⟨sent,rest,made,rfl⟩
    obtain ⟨⟨some_,few,fits⟩,rfl⟩ := requestBytes.mp made
    have topicLen : (UInt8.ofNat r.topic.length).toNat = r.topic.length :=
      UInt8.toNat_ofNat'.trans (Nat.mod_eq_of_lt (by omega))
    have payloadLen : lenWord (lenLow r.payload.length) (lenHigh r.payload.length) = r.payload.length :=
      lenWordBytes (by omega)
    generalize body_ : [1,r.qos,r.retain,UInt8.ofNat r.topic.length,lenLow r.payload.length,lenHigh r.payload.length] ++
      r.topic ++ r.payload ++ rest = body
    have parts : body = 1::r.qos::r.retain::UInt8.ofNat r.topic.length::lenLow r.payload.length::lenHigh r.payload.length::
        (r.topic ++ (r.payload ++ rest)) := by
      rw [← body_]
      simp
    have size : body.length = 6+(r.topic.length+(r.payload.length+rest.length)) := by
      rw [parts]
      simp only [List.length_cons,List.length_append]
      omega
    have fields : byteAt body 0 = 1 ∧ byteAt body 1 = r.qos ∧ byteAt body 2 = r.retain ∧
        (byteAt body 3).toNat = r.topic.length ∧ lenWord (byteAt body 4) (byteAt body 5) = r.payload.length := by
      rw [parts]
      exact ⟨rfl,rfl,rfl,topicLen,payloadLen⟩
    obtain ⟨f0,f1,f2,f3,f4⟩ := fields
    have topic : slice body 6 (6+r.topic.length) = r.topic := by
      rw [parts,slice,Nat.add_comm 6]
      simp
    have payload : slice body (6+r.topic.length) (6+r.topic.length+r.payload.length) = r.payload := by
      have order : 6+r.topic.length+r.payload.length = r.topic.length+r.payload.length+6 := by omega
      rw [parts,slice,order,Nat.add_comm 6]
      simp [List.take_append]
    rw [parsePublish]
    simp only [f0,f1,f2,f3,f4,netPublishHdrBytes,relBytes]
    rw [if_neg (by omega),if_neg (by simp),if_neg (by omega),if_neg some_,if_neg (by omega),topic,payload]

theorem sendAttached {t : Rp2040.Tx} {port : UInt8} (attached : Rp2040.Attached t port)
    (out dst src cls op flags seq : UInt8) (payload : Bytes) :
    Rp2040.Attached (Rp2040.wupsSendWithSrc t out dst src cls op flags seq payload) port := by
  obtain ⟨real,inside,stream⟩ := attached
  refine ⟨real,inside,?_⟩
  rw [Rp2040.wupsSendWithSrc]
  split
  · exact stream
  · split
    · exact stream
    · split
      · exact stream
      · by_cases here : port = out
        · rw [here]
          simp
        · dsimp only
          rwa [Function.update_of_ne here]

/-- What one send puts on the ESP32's port. -/
def onLine (out dst src cls op flags seq : UInt8) (payload : Bytes) : Option WupsFrame :=
  if fits : out = wupsPortEsp32 ∧ payload.length ≤ wupsMaxPayload then some ⟨dst,src,cls,op,flags,seq,payload,fits.2⟩
  else none

theorem sendWrites {t : Rp2040.Tx} (attached : Rp2040.Attached t wupsPortEsp32) (out dst src cls op flags seq : UInt8)
    (payload : Bytes) :
    Rp2040.written (Rp2040.wupsSendWithSrc t out dst src cls op flags seq payload) wupsPortEsp32 =
      Rp2040.written t wupsPortEsp32 ++ (onLine out dst src cls op flags seq payload).toList.flatMap guarded := by
  rw [onLine]
  split
  · rename_i fits
    obtain ⟨rfl,short⟩ := fits
    have sent := rp2040Sends attached ⟨dst,src,cls,op,flags,seq,payload,short⟩
    rw [Option.toList_some,List.flatMap_singleton]
    exact sent
  · rename_i unfit
    rw [Option.toList_none,List.flatMap_nil,List.append_nil,Rp2040.wupsSendWithSrc]
    split
    · rfl
    · split
      · rfl
      · split
        · rfl
        · have other : wupsPortEsp32 ≠ out := fun here => unfit ⟨here.symm,by omega⟩
          simp only [Rp2040.written]
          rw [Function.update_of_ne other]

/-- A publication that one frame can carry. -/
def Fits (r : Request) : Prop :=
  r.topic.length ≠ 0 ∧ r.topic.length ≤ 200 ∧ netPublishHdrBytes+r.topic.length+r.payload.length ≤ wupsMaxPayload
instance (r) : Decidable (Fits r) := by unfold Fits; infer_instance

theorem fitsSends (r : Request) : Fits r ↔ ∃ sent, wupsRequestPublish r = some sent :=
  ⟨fun fits => ⟨_,requestBytes.mpr ⟨fits,rfl⟩⟩,fun ⟨_,made⟩ => (requestBytes.mp made).1⟩

theorem handlesSent {r : Request} {sent : Bytes} (e : Setting) (made : wupsRequestPublish r = some sent) :
    handleNetPublish e sent = deliver e r := by
  have parsed : parsePublish sent = some r := (parseBytes (sentBounded made)).mpr ⟨sent,[],made,(List.append_nil _).symm⟩
  rw [handleNetPublish,parsed]
  rfl

def toEsp32 (seq : UInt8) : Write → Option WupsFrame
  | .publish r => (wupsRequestPublish r).bind (onLine wupsPortEsp32 wupsAddrEsp32 wupsAddrRp2040 wupsClassNet wupsOpNetPublish
      wupsFlagReq seq)
  | .send port dst cls op flags payload => onLine port dst wupsAddrRp2040 cls op flags seq payload
  | .sendWithSrc port dst src cls op flags own payload => onLine port dst src cls op flags own payload

theorem writeStep {s : Sender} (attached : Rp2040.Attached s.tx wupsPortEsp32) (w : Write) :
    Rp2040.Attached (write s w).tx wupsPortEsp32 ∧ Rp2040.written (write s w).tx wupsPortEsp32 =
      Rp2040.written s.tx wupsPortEsp32 ++ (toEsp32 s.txSeq w).toList.flatMap guarded := by
  cases w with
  | publish r =>
    rw [write,publish,toEsp32]
    cases wupsRequestPublish r with
    | none => exact ⟨attached,(List.append_nil _).symm⟩
    | some payload => exact ⟨sendAttached attached _ _ _ _ _ _ _ _,sendWrites attached _ _ _ _ _ _ _ _⟩
  | send port dst cls op flags payload => exact ⟨sendAttached attached _ _ _ _ _ _ _ _,sendWrites attached _ _ _ _ _ _ _ _⟩
  | sendWithSrc port dst src cls op flags seq payload =>
    exact ⟨sendAttached attached _ _ _ _ _ _ _ _,sendWrites attached _ _ _ _ _ _ _ _⟩

def heard (s : Sender) : List Write → List WupsFrame
  | [] => []
  | w::ws => (toEsp32 s.txSeq w).toList ++ heard (write s w) ws

theorem runWrites (ws : List Write) {s : Sender} (attached : Rp2040.Attached s.tx wupsPortEsp32) :
    Rp2040.written (ws.foldl write s).tx wupsPortEsp32 =
      Rp2040.written s.tx wupsPortEsp32 ++ (heard s ws).flatMap guarded := by
  induction ws generalizing s with
  | nil => simp [heard]
  | cons w ws ih =>
    obtain ⟨still,step⟩ := writeStep attached w
    rw [List.foldl_cons,ih still,step,heard,List.flatMap_append,List.append_assoc]

/-- What the ESP32 is to do for one write. -/
def wanted (e : Setting) : Write → List Effect
  | .publish r => if Fits r then deliver e r else []
  | .send port dst cls op flags payload =>
    (onLine port dst wupsAddrRp2040 cls op flags 0 payload).toList.flatMap (deliverFrame e)
  | .sendWithSrc port dst src cls op flags seq payload =>
    (onLine port dst src cls op flags seq payload).toList.flatMap (deliverFrame e)

theorem writeDelivers (e : Setting) (seq : UInt8) (w : Write) :
    (toEsp32 seq w).toList.flatMap (deliverFrame e) = wanted e w := by
  cases w with
  | publish r =>
    rw [toEsp32,wanted]
    cases made : wupsRequestPublish r with
    | none =>
      have unfit : ¬ Fits r := by
        rw [fitsSends,made]
        rintro ⟨_,some_⟩
        cases some_
      rw [if_neg unfit]
      rfl
    | some payload =>
      have asked : wupsFlagReq &&& wupsFlagReq ≠ 0 := by decide
      rw [if_pos ((fitsSends r).mpr ⟨payload,made⟩),Option.bind_some,onLine,dif_pos ⟨rfl,sentBounded made⟩,Option.toList_some,
        List.flatMap_singleton,deliverFrame,if_neg (fun other => other.1 rfl),onLocalFrame,if_pos ⟨rfl,rfl,asked⟩]
      exact handlesSent e made
  | send port dst cls op flags payload =>
    rw [toEsp32,wanted,onLine,onLine]
    split <;> rfl
  | sendWithSrc port dst src cls op flags own payload => rfl

theorem heardDelivers (e : Setting) (ws : List Write) (s : Sender) :
    (heard s ws).flatMap (deliverFrame e) = ws.flatMap (wanted e) := by
  induction ws generalizing s with
  | nil => rfl
  | cons w ws ih => rw [heard,List.flatMap_append,List.flatMap_cons,ih,writeDelivers]

theorem guardedStream (fs : List WupsFrame) {t : Rp2040.Tx} {port : UInt8} (attached : Rp2040.Attached t port) :
    fs.flatMap guarded = sentStream (fs.map (fun f => ⟨f,.rp2040 t ⟨port,attached⟩,true⟩)) := by
  rw [sentStream,List.flatMap_map]
  refine List.flatMap_congr fun f _ => ?_
  rw [Sent.bytes,if_pos rfl,outputGuarded]

/-- Publications reach the policies of the ESP32 whole, in their order and once each, whatever they
carry and whatever else is written to the ports in between. -/
theorem publishesArrive (ws : List Write) {s : Sender} (attached : Rp2040.Attached s.tx wupsPortEsp32) (l : Esp32.Link)
    (e : Setting) :
    ∃ line, Rp2040.written (ws.foldl write s).tx wupsPortEsp32 = Rp2040.written s.tx wupsPortEsp32 ++ line ∧
      (outs Esp32.rxByte { l with rx := rxReset l.rx } line).reduceOption.flatMap (deliverFrame e) = ws.flatMap (wanted e) ∧
      (final Esp32.rxByte { l with rx := rxReset l.rx } line).rx.state = .sync1 := by
  refine ⟨_,runWrites ws attached,?_⟩
  rw [guardedStream _ attached]
  obtain ⟨⟨taken,idle⟩,-⟩ := deframesWhatWasSent
    ((heard s ws).map (fun f => ⟨f,.rp2040 s.tx ⟨wupsPortEsp32,attached⟩,true⟩)) l RxFields.zero
  refine ⟨?_,idle⟩
  have same : ∀ fs : List WupsFrame,
      (fs.map (fun f => (⟨f,.rp2040 s.tx ⟨wupsPortEsp32,attached⟩,true⟩ : Sent))).map Sent.frame = fs := by
    intro fs
    rw [List.map_map]
    exact List.map_id fs
  rw [taken,same,heardDelivers]

def litSetting : Setting := ⟨some (ascii "89"),false,false,fun _ => false,fun _ _ => false⟩

def litSender : Sender := ⟨7,⟨fun port => if port = wupsPortEsp32 then some [] else none,fun _ => 0⟩⟩

theorem oneArrives :
    ∃ line, Rp2040.written ([.send 1 1 1 1 1 [],.publish ⟨ascii "event",1,0,[1,2]⟩].foldl write litSender).tx wupsPortEsp32 =
        Rp2040.written litSender.tx wupsPortEsp32 ++ line ∧
      (outs Esp32.rxByte { Esp32.Link.init with rx := rxReset Esp32.Link.init.rx } line).reduceOption.flatMap
          (deliverFrame litSetting) =
        ([.send 1 1 1 1 1 [],.publish ⟨ascii "event",1,0,[1,2]⟩] : List Write).flatMap (wanted litSetting) ∧
      (final Esp32.rxByte { Esp32.Link.init with rx := rxReset Esp32.Link.init.rx } line).rx.state = .sync1 :=
  publishesArrive [.send 1 1 1 1 1 [],.publish ⟨ascii "event",1,0,[1,2]⟩] (by decide) Esp32.Link.init litSetting

end Web3PiUps.NetPublish
