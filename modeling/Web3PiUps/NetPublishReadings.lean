import Mathlib.Data.List.GetD
import Web3PiUps.NetPublishProof
import Web3PiUps.MqttReceiptLedger

/-! Status readings. The key of a reading names where it is from and what it is, nothing but a
reading has one, and so the dispatch queue lets go of a waiting message for a later one only where
both are readings of one thing. -/
namespace Web3PiUps.NetPublish
open WupsProtocol WupsFraming WupsWholeBuffer StepMachine MqttQueueMoves
open MqttDispatchQueue hiding Bytes
open MqttReceipts (Publication Runtime Call boot publishRaw publishCritical publishSnapshot)

structure Reading (f : WupsFrame) : Prop where
  event : f.flags = wupsFlagEvent
  known : f.src = wupsAddrRpi ∨ f.src = wupsAddrRp2040 ∨ f.src = wupsAddrCh32x ∨ f.src = wupsAddrEsp32
  laidOut : ∃ version rest, f.payload = version::rest ∧
    ((f.cls = wupsClassPower ∧ f.op = wupsOpPwrStatus ∧
        ((version = 1 ∧ f.len = powerStatusV1) ∨ (version = 2 ∧ f.len = powerStatusV2))) ∨
      (f.cls = wupsClassHost ∧ f.op = wupsOpHostStatus ∧ version = 1 ∧ f.len = hostStatusV1) ∨
      (f.cls = wupsClassNet ∧ f.op = wupsOpNetStatus ∧
        ((version = 1 ∧ f.len = netStatusV1) ∨ (version = 2 ∧ f.len = netStatusV2) ∨
          (version = 3 ∧ f.len = netStatusV3))))

structure Critical (f : WupsFrame) : Prop where
  event : f.flags = wupsFlagEvent
  laidOut : ∃ kind, f.payload = [1,kind] ∧
    ((f.cls = wupsClassPower ∧ f.op = wupsOpPwrEvent ∧
        (kind = wupsPwrEvtMainsLost ∨ kind = wupsPwrEvtMainsRestored ∨ kind = wupsPwrEvtChargeLow ∨ kind = wupsPwrEvtFault)) ∨
      (f.cls = wupsClassHost ∧ f.op = wupsOpHostEvent ∧
        (kind = wupsHostEvtShutdownImminent ∨ kind = wupsHostEvtLowDisk ∨ kind = wupsHostEvtEthSynced ∨
          kind = wupsHostEvtEthLost)))

def identity (f : WupsFrame) : UInt32 := (f.src.toUInt32 <<< 16) ||| (f.cls.toUInt32 <<< 8) ||| f.op.toUInt32

theorem identityNat (f : WupsFrame) : (identity f).toNat = f.src.toNat*2^16+f.cls.toNat*2^8+f.op.toNat := by
  have src := f.src.toNat_lt
  have cls := f.cls.toNat_lt
  have op := f.op.toNat_lt
  have sixteen : UInt32.toNat 16 % 32 = 16 := rfl
  have eight : UInt32.toNat 8 % 32 = 8 := rfl
  have top : (f.src.toUInt32 <<< 16).toNat = 2^16*f.src.toNat := by
    rw [UInt32.toNat_shiftLeft,UInt8.toNat_toUInt32,sixteen,Nat.shiftLeft_eq]
    omega
  have middle : (f.cls.toUInt32 <<< 8).toNat = 2^8*f.cls.toNat := by
    rw [UInt32.toNat_shiftLeft,UInt8.toNat_toUInt32,eight,Nat.shiftLeft_eq]
    omega
  rw [identity,UInt32.toNat_or,UInt32.toNat_or,top,middle,UInt8.toNat_toUInt32,Nat.or_assoc,
    ← Nat.two_pow_add_eq_or_of_lt op,← Nat.two_pow_add_eq_or_of_lt (by omega)]
  omega

theorem identitySame {f g : WupsFrame} (same : identity f = identity g) : f.src = g.src ∧ f.cls = g.cls ∧ f.op = g.op := by
  have numbers := congrArg UInt32.toNat same
  rw [identityNat,identityNat] at numbers
  have := f.cls.toNat_lt
  have := f.op.toNat_lt
  have := g.cls.toNat_lt
  have := g.op.toNat_lt
  refine ⟨UInt8.toNat_inj.mp ?_,UInt8.toNat_inj.mp ?_,UInt8.toNat_inj.mp ?_⟩ <;> omega

theorem validWire (f : WupsFrame) : mqttWupsFrameValid (some (wire f)) = true :=
  (mqttValidDecodes _).mpr (by rw [decodeWire]; rfl)

theorem validIsWire {b : Bytes} (valid : mqttWupsFrameValid (some b) = true) : ∃ f, b = wire f := by
  obtain ⟨f,decoded⟩ := Option.isSome_iff_exists.mp ((mqttValidDecodes b).mp valid)
  exact ⟨f,(decodeExact b f).mp decoded⟩

theorem wireFields (f : WupsFrame) : byteAt (wire f) 3 = f.src ∧ byteAt (wire f) 4 = f.cls ∧ byteAt (wire f) 5 = f.op ∧
    byteAt (wire f) 6 = f.flags := by
  rw [wireCons]
  exact ⟨rfl,rfl,rfl,rfl⟩

theorem wirePayload (f : WupsFrame) (front : Bytes) {rest : Bytes} (parts : f.payload = front ++ rest)
    {i : Nat} (inside : i < front.length) :
    byteAt (wire f) (wupsHeaderBytes+i) = byteAt front i := by
  rw [wireCons,parts,byteAt,byteAt,wupsHeaderBytes,Nat.add_comm 10]
  simp only [List.getD_cons_succ]
  rw [List.append_assoc,List.getD_append _ _ _ _ inside]

theorem wireSize (f : WupsFrame) : (wire f).length = wupsFramingBytes+f.len := wireLength f

theorem keyOfReading {f : WupsFrame} (reading : Reading f) : mqttWupsSnapshotKey (wire f) = identity f := by
  obtain ⟨event,known,version,rest,parts,laidOut⟩ := reading
  obtain ⟨src,cls,op,flags⟩ := wireFields f
  have first : byteAt (wire f) wupsHeaderBytes = version := wirePayload f [version] parts Nat.one_pos
  have some_ : 0 < f.len := by
    rw [WupsFrame.len,parts]
    exact Nat.succ_pos _
  rw [mqttWupsSnapshotKey]
  simp only [validWire,src,cls,op,flags,first,wireSize,Nat.add_sub_cancel_left]
  rw [if_neg (by simp [event,some_.ne']),if_neg (by tauto),if_pos]
  · rfl
  rcases laidOut with ⟨power,status,sizes⟩ | ⟨host,status,size⟩ | ⟨net,status,sizes⟩
  · rwa [if_pos ⟨power,status⟩]
  · rwa [if_neg (by rw [host]; exact fun power => absurd power.1 (by decide)),if_pos ⟨host,status⟩]
  · rwa [if_neg (by rw [net]; exact fun power => absurd power.1 (by decide)),
      if_neg (by rw [net]; exact fun host => absurd host.1 (by decide)),if_pos ⟨net,status⟩]

theorem readingOfKey {b : Bytes} (keyed : mqttWupsSnapshotKey b ≠ 0) : ∃ f, b = wire f ∧ Reading f := by
  rw [mqttWupsSnapshotKey] at keyed
  dsimp only at keyed
  split at keyed
  · exact absurd rfl keyed
  rename_i plain
  simp only [not_or,Bool.not_eq_false,not_not] at plain
  obtain ⟨f,rfl⟩ := validIsWire plain.1
  refine ⟨f,rfl,?_⟩
  obtain ⟨src,cls,op,flags⟩ := wireFields f
  rw [src,cls,op,wireSize,Nat.add_sub_cancel_left] at keyed
  rw [flags,wireSize] at plain
  split at keyed
  · exact absurd rfl keyed
  rename_i stranger
  obtain ⟨laidOut,-⟩ := ite_ne_right_iff.mp keyed
  cases parts : f.payload with
  | nil =>
    have empty : f.len = 0 := congrArg List.length parts
    omega
  | cons version rest =>
    have first : byteAt (wire f) wupsHeaderBytes = version := wirePayload f [version] parts Nat.one_pos
    rw [first] at laidOut
    refine ⟨plain.2.1,by tauto,version,rest,parts,?_⟩
    split at laidOut
    · rename_i power
      exact .inl ⟨power.1,power.2,laidOut⟩
    · split at laidOut
      · rename_i host
        exact .inr (.inl ⟨host.1,host.2,laidOut⟩)
      · split at laidOut
        · rename_i net
          exact .inr (.inr ⟨net.1,net.2,laidOut⟩)
        · exact laidOut.elim

theorem identityBounds {f : WupsFrame} (reading : Reading f) : identity f ≠ 0 ∧ (identity f).toNat < 2^24 := by
  have number := identityNat f
  have src := f.src.toNat_lt
  have cls := f.cls.toNat_lt
  have op := f.op.toNat_lt
  constructor
  · intro none_
    rw [none_] at number
    have none' : (0 : UInt32).toNat = 0 := rfl
    have zero : f.src = 0 := UInt8.toNat_inj.mp (by rw [UInt8.toNat_zero]; omega)
    rcases reading.known with same | same | same | same <;> rw [zero] at same <;> exact absurd same (by decide)
  · omega

theorem criticalEvent (b : Bytes) : mqttWupsCriticalEvent b = true ↔ ∃ f, b = wire f ∧ Critical f := by
  constructor
  · intro said
    rw [mqttWupsCriticalEvent] at said
    dsimp only at said
    split at said
    · cases said
    rename_i plain
    simp only [not_or,Bool.not_eq_false,not_not,not_lt] at plain
    obtain ⟨f,rfl⟩ := validIsWire plain.1
    refine ⟨f,rfl,?_⟩
    obtain ⟨src,cls,op,flags⟩ := wireFields f
    rw [cls,op,wireSize] at said
    rw [flags,wireSize] at plain
    have pair : ∀ two : f.len = 2, ∃ kind, f.payload = [1,kind] ∧ byteAt (wire f) (wupsHeaderBytes+1) = kind := by
      intro two
      obtain ⟨version,kind,parts⟩ := List.length_eq_two.mp two
      have first : byteAt (wire f) wupsHeaderBytes = version := wirePayload f [version] parts Nat.one_pos
      have second : byteAt (wire f) (wupsHeaderBytes+1) = kind :=
        wirePayload f [version,kind] parts Nat.one_lt_two
      have one : version = 1 := first.symm.trans plain.2.2.2
      exact ⟨kind,by rw [parts,one],second⟩
    refine ⟨plain.2.1,?_⟩
    split at said
    · rename_i power
      obtain ⟨kind,parts,last⟩ := pair (Nat.add_left_cancel power.2.2)
      rw [last] at said
      exact ⟨kind,parts,.inl ⟨power.1,power.2.1,by simpa [or_assoc] using said⟩⟩
    · split at said
      · rename_i host
        obtain ⟨kind,parts,last⟩ := pair (Nat.add_left_cancel host.2.2)
        rw [last] at said
        exact ⟨kind,parts,.inr ⟨host.1,host.2.1,by simpa [or_assoc] using said⟩⟩
      · cases said
  · rintro ⟨f,rfl,event,kind,parts,laidOut⟩
    obtain ⟨src,cls,op,flags⟩ := wireFields f
    have first : byteAt (wire f) wupsHeaderBytes = 1 := wirePayload f [1,kind] parts Nat.two_pos
    have second : byteAt (wire f) (wupsHeaderBytes+1) = kind := wirePayload f [1,kind] parts Nat.one_lt_two
    have two : f.len = 2 := by rw [WupsFrame.len,parts]; rfl
    rw [mqttWupsCriticalEvent]
    simp only [validWire,cls,op,flags,first,second,wireSize,two,event]
    rw [if_neg (by simp)]
    rcases laidOut with ⟨power,happened,kinds⟩ | ⟨host,happened,kinds⟩
    · rw [if_pos ⟨power,happened,trivial⟩]
      simpa [or_assoc] using kinds
    · rw [if_neg (by rw [host]; exact fun power => absurd power.1 (by decide)),if_pos ⟨host,happened,trivial⟩]
      simpa [or_assoc] using kinds

/-- The two classifiers take whole frames only, never one frame both ways, and two payloads share a
key just when they are readings of one thing from one source. -/
theorem classified (b : Bytes) :
    (mqttWupsSnapshotKey b ≠ 0 ↔ ∃ f, b = wire f ∧ Reading f) ∧
    (mqttWupsCriticalEvent b = true ↔ ∃ f, b = wire f ∧ Critical f) ∧
    ¬ (mqttWupsSnapshotKey b ≠ 0 ∧ mqttWupsCriticalEvent b = true) ∧
    ∀ b', mqttWupsSnapshotKey b ≠ 0 → (mqttWupsSnapshotKey b = mqttWupsSnapshotKey b' ↔
      ∃ f g, b = wire f ∧ b' = wire g ∧ Reading f ∧ Reading g ∧ f.src = g.src ∧ f.cls = g.cls ∧ f.op = g.op) := by
  have keyed : mqttWupsSnapshotKey b ≠ 0 ↔ ∃ f, b = wire f ∧ Reading f := by
    refine ⟨readingOfKey,?_⟩
    rintro ⟨f,rfl,reading⟩
    rw [keyOfReading reading]
    exact (identityBounds reading).1
  refine ⟨keyed,criticalEvent b,?_,fun b' some_ => ⟨fun same => ?_,?_⟩⟩
  · rintro ⟨some_,said⟩
    obtain ⟨f,rfl,reading⟩ := keyed.mp some_
    obtain ⟨g,same,-,kind,parts,-⟩ := (criticalEvent _).mp said
    obtain rfl := Option.some.inj ((decodeWire f).symm.trans ((decodeExact _ g).mpr same))
    obtain ⟨-,-,version,rest,whole,sizes⟩ := reading
    have two : f.len = 2 := congrArg List.length parts
    rw [two] at sizes
    simp at sizes
  · obtain ⟨f,rfl,readingF⟩ := keyed.mp some_
    obtain ⟨g,rfl,readingG⟩ := readingOfKey (same ▸ some_)
    rw [keyOfReading readingF,keyOfReading readingG] at same
    exact ⟨f,g,rfl,rfl,readingF,readingG,identitySame same⟩
  · rintro ⟨f,g,rfl,rfl,readingF,readingG,src,cls,op⟩
    rw [keyOfReading readingF,keyOfReading readingG,identity,identity,src,cls,op]

/-! What is submitted. The modules of the ESP32 firmware itself submit either without a key or under
one of two that lie above every reading's. -/

def netStatusKey : UInt32 := 0xE0000301
def fwProgressKey : UInt32 := 0xF0000001

/-- A key below 2^24 is a reading's, and the payload is that reading. -/
def Names (key : UInt32) (payload : Bytes) : Prop :=
  key ≠ 0 → key.toNat < 2^24 → ∃ f, payload = wire f ∧ Reading f ∧ key = identity f

def Submits (p : Publication) : Prop := ∃ e body, Effect.submitted p ∈ handleNetPublish e body

def FromFirmware (p : Publication) : Prop := p.key = 0 ∨ p.key = netStatusKey ∨ p.key = fwProgressKey ∨ Submits p

theorem submittedFrom {e : Setting} {body : Bytes} {p : Publication} (there : .submitted p ∈ handleNetPublish e body) :
    ∃ r whole, parsePublish body = some r ∧ mqttTopic e r.topic = some whole ∧
      p = submission r.topic whole r.payload r.qos r.retain := by
  rw [handleNetPublish] at there
  cases parsed : parsePublish body with
  | none => simp [parsed] at there
  | some r =>
    rw [parsed,Option.map_some,Option.getD_some,deliver] at there
    cases named : mqttTopic e r.topic with
    | none => simp [named] at there
    | some whole =>
      refine ⟨r,whole,rfl,named,?_⟩
      rw [named] at there
      have only : .submitted p ∉ observers e r.topic r.payload := by
        simp only [observers,List.mem_append]
        rintro ((seen | seen) | seen) <;> split at seen <;> simp at seen
      dsimp only at there
      split at there
      · split at there
        · simp [only] at there
        · simpa [only] using there
      · simpa [only] using there

theorem submissionNames {p : Publication} (submits : Submits p) (keyed : p.key ≠ 0) :
    ∃ f, p.payload = some (wire f) ∧ p.len = (wire f).length ∧ Reading f ∧ p.key = identity f := by
  obtain ⟨e,body,there⟩ := submits
  obtain ⟨r,whole,-,-,rfl⟩ := submittedFrom there
  rw [submission] at keyed ⊢
  generalize key_ : (if (!absolute r.topic) = true ∧ cString r.topic = ascii "telemetry" then mqttWupsSnapshotKey r.payload
    else 0) = key at keyed ⊢
  by_cases plain : key = 0
  · rw [if_neg (not_not.mpr plain)] at keyed
    exact absurd (by split <;> rfl) keyed
  · rw [if_pos plain]
    split at key_
    · obtain ⟨f,same,reading⟩ := readingOfKey (key_ ▸ plain)
      refine ⟨f,congrArg some same,congrArg List.length same,reading,?_⟩
      rw [publishSnapshot,← key_,same,keyOfReading reading]
    · exact absurd key_.symm plain

theorem storedNames {p : Publication} (firmware : FromFirmware p) (now : Nat) (topic : Bytes) (token : Nat) :
    Names (acceptedItem (MqttReceipts.request p now) topic token).coalesceKey
      (acceptedItem (MqttReceipts.request p now) topic token).payload := by
  intro keyed small
  change p.key ≠ 0 at keyed
  change p.key.toNat < 2^24 at small
  rcases firmware with none_ | own | own | submits
  · exact absurd none_ keyed
  · rw [own] at small
    exact absurd small (by decide)
  · rw [own] at small
    exact absurd small (by decide)
  · obtain ⟨f,payload,len,reading,key⟩ := submissionNames submits keyed
    refine ⟨f,?_,reading,key⟩
    simp only [acceptedItem,MqttReceipts.request,payload,len,Option.getD_some,List.take_length]

def Named (q : Queue) : Prop := ∀ i, Names (q.slots i).item.coalesceKey (q.slots i).item.payload

theorem updateNamed {q : Queue} (named : Named q) (i : Fin capacity) {s : Slot} (names : Names s.item.coalesceKey s.item.payload)
    {q' : Queue} (same : q'.slots = Function.update q.slots i s) : Named q' := by
  intro j
  rw [same]
  by_cases here : j = i
  · rw [here,Function.update_self]
    exact names
  · rw [Function.update_of_ne here]
    exact named j

theorem zeroNames : Names Slot.zero.item.coalesceKey Slot.zero.item.payload := fun keyed => absurd rfl keyed

theorem submitNamed {q : Queue} (named : Named q) {p : Publication} (firmware : FromFirmware p) (now : Nat) :
    Named (MqttDispatchQueue.submit q (some (MqttReceipts.request p now))).1 := by
  rcases submitCases q (some (MqttReceipts.request p now)) with ⟨-,-,-,same | move⟩ | ⟨r,i,asked,-,⟨stored,-⟩ | ⟨stored,-⟩⟩
  · rw [same]
    exact named
  · generalize (MqttDispatchQueue.submit q (some (MqttReceipts.request p now))).1 = q' at move ⊢
    cases move
    exact named
  · cases asked
    rw [stored]
    exact updateNamed named i (storedNames firmware now _ _) rfl
  · cases asked
    rw [stored]
    exact updateNamed named i (storedNames firmware now _ _) rfl

theorem lapsedNamed {q : Queue} {tokens : List Nat} {q' : Queue} (moves : Moves q (tokens.map .lapsed) q') (named : Named q) :
    Named q' := by
  induction tokens generalizing q with
  | nil =>
    cases moves
    exact named
  | cons token rest ih =>
    cases moves with
    | more first tail =>
      refine ih tail ?_
      cases first with
      | lapsed => exact updateNamed named _ zeroNames (releaseSlots _ _)

theorem opNamed {q : Queue} (named : Named q) (op : Op)
    (firmware : ∀ r, op = .submit r → ∃ p now, r = some (MqttReceipts.request p now) ∧ FromFirmware p) :
    Named (MqttDispatchQueue.step q op).1 := by
  cases op with
  | submit r =>
    obtain ⟨p,now,rfl,from_⟩ := firmware r rfl
    exact submitNamed named from_ now
  | expire now =>
    have moves := expireMoves q now
    simp only [MqttDispatchQueue.step]
    exact lapsedNamed moves named
  | claim now =>
    simp only [MqttDispatchQueue.step]
    rcases claimCases q now with ⟨same,-⟩ | ⟨i,streak,handed,-⟩
    · rw [same]
      exact named
    · rw [handed]
      exact updateNamed (s := { q.slots i with state := .inflight }) named i (named i) rfl
  | finish c result now retry =>
    simp only [MqttDispatchQueue.step]
    rcases finishCases q c result now retry with same | ⟨claim,i,-,-,-,-,-,⟨-,-,moved⟩ | ⟨fate,-,-,-,moved⟩⟩
    · rw [same]
      exact named
    · rw [moved]
      exact updateNamed (s := { q.slots i with state := .queued, retryAfterMs := retry }) named i (named i) rfl
    · rw [moved]
      exact updateNamed named i zeroNames (releaseSlots _ _)

theorem callNamed {s : Runtime} (named : Named s.queue) {c : Call}
    (firmware : ∀ p available now, c = .submit p available now → FromFirmware p) : Named (MqttReceipts.step s c).1.queue := by
  cases c with
  | submit p available now =>
    rcases MqttReceipts.submitOutcome s p available now with ⟨same,-⟩ | ⟨⟨moved,-⟩,-⟩ | ⟨slot,-,-,-,moved⟩
    · exact (congrArg Runtime.queue same).symm ▸ named
    · exact (congrArg Runtime.queue moved).symm ▸ submitNamed named (firmware p available now rfl) now
    · exact (congrArg (fun done => done.1.queue) moved).symm ▸ submitNamed named (firmware p available now rfl) now
  | take token =>
    rcases MqttReceipts.takeOutcome s token with ⟨same,-⟩ | ⟨j,-,-,moved⟩
    · exact (congrArg Runtime.queue same).symm ▸ named
    · exact (congrArg (fun done => done.1.queue) moved).symm ▸ named
  | forget token => exact named
  | sweep now => exact opNamed named (.expire now) fun r same => by cases same
  | monitor now => exact opNamed named (.expire now) fun r same => by cases same
  | claim now =>
    cases busy : s.claimed with
    | some c =>
      simp only [MqttReceipts.step,MqttReceipts.ownerClaim,busy]
      exact named
    | none =>
      simp only [MqttReceipts.step,MqttReceipts.ownerClaim,busy]
      exact opNamed named (.claim now) fun r same => by cases same
  | finish rc now =>
    cases busy : s.claimed with
    | none =>
      simp only [MqttReceipts.step,MqttReceipts.ownerFinish,busy]
      exact named
    | some c =>
      simp only [MqttReceipts.step,MqttReceipts.ownerFinish,busy]
      exact opNamed named (.finish (some c) (if 0 ≤ rc then dispatchSent else dispatchRetry) now (now+1000))
        fun r same => by cases same
  | sdkStopped now => exact named

theorem runNamed (health : MqttHealth.Health) {calls : List Call}
    (firmware : ∀ p available now, .submit p available now ∈ calls → FromFirmware p) :
    Named (final MqttReceipts.step (boot health) calls).queue := by
  have start : Named (boot health).queue := fun i => zeroNames
  have run : ∀ s : Runtime, Named s.queue → Named (final MqttReceipts.step s calls).queue := by
    induction calls with
    | nil => exact fun s named => named
    | cons c rest ih =>
      intro s named
      refine ih (fun p available now there => firmware p available now (List.mem_cons_of_mem _ there)) _ ?_
      exact callNamed named fun p available now same => firmware p available now (same ▸ List.mem_cons_self)
  exact run _ start

/-- Whatever the firmware has submitted, sent, retried and let lapse, a submission pushes a waiting
message out only under one topic, and then both are readings of one thing from one source, or both
are the ESP32's own under one key. -/
theorem onlySuperseded (health : MqttHealth.Health) {calls : List Call}
    (firmware : ∀ p available now, .submit p available now ∈ calls → FromFirmware p) {p : Publication}
    (next : FromFirmware p) (now : Nat) :
    let q := (final MqttReceipts.step (boot health) calls).queue
    let done := MqttDispatchQueue.submit q (some (MqttReceipts.request p now))
    done.2.replacedToken ≠ 0 → ∃ i, (q.slots i).state = .queued ∧ (q.slots i).item.token = done.2.replacedToken ∧
      p.topic.getD [] = (q.slots i).item.topic ∧
      ((∃ f g, (q.slots i).item.payload = wire f ∧ p.payload = some (wire g) ∧ Reading f ∧ Reading g ∧
          f.src = g.src ∧ f.cls = g.cls ∧ f.op = g.op) ∨
        ((p.key = netStatusKey ∨ p.key = fwProgressKey) ∧ (q.slots i).item.coalesceKey = p.key)) := by
  intro q done replaced
  have named : Named q := runNamed health firmware
  rcases submitCases q (some (MqttReceipts.request p now)) with ⟨-,-,none_,-⟩ | ⟨r,i,asked,-,⟨stored,-⟩ | ⟨stored,fits,-⟩⟩
  · exact absurd none_ replaced
  · refine absurd ?_ replaced
    change (MqttDispatchQueue.submit q (some (MqttReceipts.request p now))).2.replacedToken = 0
    rw [stored,storeOut]
    rfl
  · cases asked
    obtain ⟨queued,-,-,keyed,sameKey,-,-,topic⟩ := fits
    change p.key ≠ 0 at keyed
    change (q.slots i).item.coalesceKey = p.key at sameKey
    refine ⟨i,queued,?_,topic.symm,?_⟩
    · change _ = (MqttDispatchQueue.submit q (some (MqttReceipts.request p now))).2.replacedToken
      rw [stored,storeOut]
      rfl
    · rcases next with none_ | own | own | submits
      · exact absurd none_ keyed
      · exact .inr ⟨.inl own,sameKey⟩
      · exact .inr ⟨.inr own,sameKey⟩
      · obtain ⟨g,payload,-,readingG,keyG⟩ := submissionNames submits keyed
        have small : (q.slots i).item.coalesceKey.toNat < 2^24 := by
          rw [sameKey,keyG]
          exact (identityBounds readingG).2
        obtain ⟨f,held,readingF,keyF⟩ := named i (by rwa [sameKey]) small
        exact .inl ⟨f,g,held,payload,readingF,readingG,identitySame (keyF.symm.trans (sameKey.trans keyG))⟩

def litReading (seq : UInt8) : WupsFrame := ⟨0xFF,0x03,0x02,0x01,0x04,seq,1::seq::List.replicate 18 0,by simp [wupsMaxPayload]⟩

def litPublication (seq : UInt8) : Publication :=
  publishSnapshot (some (ascii "t/89/telemetry")) (some (wire (litReading seq))) 34 0 0 0x030201

theorem litSubmits : FromFirmware (litPublication 1) ∧ FromFirmware (litPublication 2) :=
  ⟨.inr (.inr (.inr ⟨litSetting,(wupsRequestPublish ⟨ascii "telemetry",0,0,wire (litReading 1)⟩).getD [],by decide⟩)),
    .inr (.inr (.inr ⟨litSetting,(wupsRequestPublish ⟨ascii "telemetry",0,0,wire (litReading 2)⟩).getD [],by decide⟩))⟩

theorem litSuperseded :
    let q := (final MqttReceipts.step (boot MqttReceipts.freshHealth) [.submit (litPublication 1) true 0]).queue
    ∃ i, (q.slots i).state = .queued ∧ (q.slots i).item.token = 1 ∧
      (litPublication 2).topic.getD [] = (q.slots i).item.topic ∧
      ((∃ f g, (q.slots i).item.payload = wire f ∧ (litPublication 2).payload = some (wire g) ∧ Reading f ∧ Reading g ∧
          f.src = g.src ∧ f.cls = g.cls ∧ f.op = g.op) ∨
        (((litPublication 2).key = netStatusKey ∨ (litPublication 2).key = fwProgressKey) ∧
          (q.slots i).item.coalesceKey = (litPublication 2).key)) :=
  onlySuperseded MqttReceipts.freshHealth
    (fun p available now there => by
      cases List.mem_singleton.mp there
      exact litSubmits.1)
    litSubmits.2 5 (by decide +kernel)

end Web3PiUps.NetPublish
