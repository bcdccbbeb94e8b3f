import Web3PiUps.ArkivTelemetry
import Web3PiUps.NetPublishReadings
import Web3PiUps.WupsWholeBuffer

/-! What the owner reads back from the chain: the readings the unit has seen, each the latest of its
kind and none older than 90 s, and the alerts with the class they are filed under. -/
namespace Web3PiUps.ArkivTelemetry
open WupsProtocol WupsFraming ArkivAead ArkivOpsTxData
open ArkivRlp (Held)
open ArkivWriterSeq (packNonce)
open HttpBackend (Slot Slots observeTelemetryFrame wupsClassPower wupsClassHost wupsOpPwrStatus wupsOpHostStatus
  wupsOpNetStatus)

abbrev Item := UInt8 × UInt8 × Bytes

def readItems : Nat → Bytes → Option (List Item)
  | _,[] => some []
  | fuel+1,cls::op::lo::hi::rest =>
    let n := lenWord lo hi
    if rest.length < n then none else (readItems fuel (rest.drop n)).map ((cls,op,rest.take n)::·)
  | _,_ => none

def readTlv : Bytes → Option (List Item)
  | 1::0::items => readItems items.length items
  | _ => none

def itemBytes (i : Item) : Bytes := [i.1,i.2.1,lenLow i.2.2.length,lenHigh i.2.2.length] ++ i.2.2

theorem itemsRead {items : List Item} (small : ∀ i ∈ items, i.2.2.length ≤ arkivTlmMaxInner) {fuel : Nat}
    (enough : items.length ≤ fuel) : readItems fuel (items.flatMap itemBytes) = some items := by
  induction items generalizing fuel with
  | nil => cases fuel <;> rfl
  | cons i items ih =>
    cases fuel with
    | zero => cases enough
    | succ fuel =>
      obtain ⟨cls,op,data⟩ := i
      have length : lenWord (lenLow data.length) (lenHigh data.length) = data.length := by
        have bound := small _ List.mem_cons_self
        exact lenWordBytes (by simp only [arkivTlmMaxInner] at bound; omega)
      have rest := ih (fun j there => small j (List.mem_cons_of_mem _ there)) (Nat.le_of_succ_le_succ enough)
      simp only [List.flatMap_cons,itemBytes,List.cons_append,List.nil_append,readItems,length]
      rw [if_neg (by rw [List.length_append]; omega),List.drop_left,List.take_left,rest]
      rfl

theorem itemsLong (items : List Item) : items.length ≤ (items.flatMap itemBytes).length := by
  induction items with
  | nil => exact Nat.le_refl _
  | cons i items ih =>
    rw [List.flatMap_cons,List.length_append,List.length_cons,itemBytes,List.length_append]
    simp only [List.length_cons]
    omega

theorem blobRead {items : List Item} (small : ∀ i ∈ items, i.2.2.length ≤ arkivTlmMaxInner) :
    readTlv ([1,0] ++ items.flatMap itemBytes) = some items :=
  itemsRead small (itemsLong items)

def kindOf (cls op : UInt8) : Option Kind :=
  if cls = wupsClassPower ∧ op = wupsOpPwrStatus then some .power
  else if cls = wupsClassHost ∧ op = wupsOpHostStatus then some .host
  else if cls = wupsClassNet ∧ op = wupsOpNetStatus then some .net
  else none

/-- What kind of status a frame is, and its inner payload. -/
def statusOf (frame : Bytes) : Option (Kind × Bytes) :=
  let innerLen := lenWord (frame.getD 8 0) (frame.getD 9 0)
  if frame.length < wupsHeaderBytes+2 ∨ wupsHeaderBytes+innerLen+2 > frame.length ∨ innerLen = 0 ∨
      innerLen > arkivTlmMaxInner then none
  else
    (kindOf (frame.getD 4 0) (frame.getD 5 0)).map (·,(frame.drop wupsHeaderBytes).take innerLen)

def put (s : Slots) (slot : Slot) : Kind → Slots
  | .power => { s with power := some slot }
  | .host => { s with host := some slot }
  | .net => { s with net := some slot }

theorem observeStatus (s : Slots) (nowUs : Int) (frame : Bytes) : arkivTlmObserveFrame s nowUs frame =
    match statusOf frame with
    | none => s
    | some (k,data) => put s ⟨nowUs,data⟩ k := by
  rw [arkivTlmObserveFrame,observeTelemetryFrame,statusOf]
  dsimp only
  by_cases short : frame.length < wupsHeaderBytes+2
  · rw [if_pos short,if_pos (.inl short)]
  by_cases cut : wupsHeaderBytes+lenWord (frame.getD 8 0) (frame.getD 9 0)+2 > frame.length
  · rw [if_neg short,if_pos cut,if_pos (.inr (.inl cut))]
  by_cases odd : lenWord (frame.getD 8 0) (frame.getD 9 0) = 0 ∨ lenWord (frame.getD 8 0) (frame.getD 9 0) > arkivTlmMaxInner
  · rw [if_neg short,if_neg cut,if_pos odd,if_pos (.inr (.inr odd))]
  rw [if_neg short,if_neg cut,if_neg odd,if_neg (not_or.mpr ⟨short,not_or.mpr ⟨cut,odd⟩⟩)]
  rw [kindOf]
  split
  · rfl
  split
  · rfl
  split <;> rfl

theorem statusSmall {frame data : Bytes} {k : Kind} (status : statusOf frame = some (k,data)) :
    data.length ≤ arkivTlmMaxInner := by
  rw [statusOf] at status
  split at status
  · cases status
  · rename_i fits
    rw [not_or,not_or,not_or] at fits
    obtain ⟨kind,-,same⟩ := Option.map_eq_some_iff.mp status
    cases same
    exact Nat.le_trans (List.length_take_le _ _) (Nat.not_lt.mp fits.2.2.2)

/-! A run: frames, each with the time it was seen. -/

abbrev Seen := Int × Bytes

def observed (seen : List Seen) : Slots := seen.foldl (fun s x => arkivTlmObserveFrame s x.1 x.2) ⟨none,none,none⟩

def reading (k : Kind) (x : Seen) : Option Slot :=
  match statusOf x.2 with
  | none => none
  | some (k',data) => if k' = k then some ⟨x.1,data⟩ else none

/-- The last status of a kind, with its time. -/
def latest (seen : List Seen) (k : Kind) : Option Slot := (seen.filterMap (reading k)).getLast?

theorem observedLatest (seen : List Seen) (k : Kind) : slotOf (observed seen) k = latest seen k := by
  induction seen using List.reverseRecOn with
  | nil => cases k <;> rfl
  | append_singleton seen x ih =>
    rw [observed,List.foldl_append,List.foldl_cons,List.foldl_nil,← observed,observeStatus,latest,List.filterMap_append,
      List.getLast?_append]
    rw [latest] at ih
    simp only [List.filterMap_cons,List.filterMap_nil,reading]
    split
    · exact ih
    · rename_i k' data _
      by_cases same : k' = k
      · rw [same,if_pos rfl]
        cases k <;> rfl
      · rw [if_neg same]
        refine Eq.trans ?_ ih
        cases k <;> cases k' <;> first | rfl | exact absurd rfl same

theorem latestSmall {seen : List Seen} {k : Kind} {slot : Slot} (here : latest seen k = some slot) :
    slot.data.length ≤ arkivTlmMaxInner := by
  obtain ⟨x,-,read⟩ := List.mem_filterMap.mp (List.mem_of_getLast? here)
  rw [reading] at read
  split at read
  · cases read
  · rename_i k' data status
    split at read
    · cases read
      exact statusSmall status
    · cases read

/-- The readings that are fresh at a time, in the order of the blob. -/
def fresh (seen : List Seen) (nowUs : Int) : List Item :=
  Kind.all.filterMap fun k =>
    ((latest seen k).filter fun slot => nowUs-arkivTlmFreshnessMs*1000 ≤ slot.observedUs).map (k.cls,k.op,·.data)

theorem freshSmall {seen : List Seen} {nowUs : Int} : ∀ i ∈ fresh seen nowUs, i.2.2.length ≤ arkivTlmMaxInner := by
  intro i there
  obtain ⟨k,-,made⟩ := List.mem_filterMap.mp there
  obtain ⟨slot,held,rfl⟩ := Option.map_eq_some_iff.mp made
  exact latestSmall (Option.eq_some_of_filter_eq_some held)

def slotItem (s : Slots) (cutoff : Int) (k : Kind) : Option Item :=
  ((slotOf s k).filter fun slot => cutoff ≤ slot.observedUs).map (k.cls,k.op,·.data)

structure Built (s : Slots) (cutoff : Int) (ks : List Kind) (b b' : Blob) : Prop where
  out : b'.out = b.out ++ (ks.filterMap (slotItem s cutoff)).flatMap itemBytes
  any : b'.any = true ↔ b.any = true ∨ ks.filterMap (slotItem s cutoff) ≠ []
  full : b'.full = false

theorem itemBuilt {s : Slots} (small : ∀ k slot, slotOf s k = some slot → slot.data.length ≤ arkivTlmMaxInner) (cutoff : Int)
    {outCap : Nat} {b : Blob} (room : b.out.length+4+arkivTlmMaxInner ≤ outCap) (open_ : b.full = false) (k : Kind) :
    Built s cutoff [k] b (buildItem s cutoff outCap b k) ∧
      (buildItem s cutoff outCap b k).out.length ≤ b.out.length+4+arkivTlmMaxInner := by
  rw [buildItem,open_,if_neg Bool.false_ne_true]
  cases held : slotOf s k with
  | none =>
    have none_ : slotItem s cutoff k = none := by rw [slotItem,held]; rfl
    exact ⟨⟨by simp [none_],by simp [none_],open_⟩,by dsimp only; omega⟩
  | some slot =>
    have short := small k slot held
    dsimp only
    by_cases stale : slot.observedUs < cutoff
    · have none_ : slotItem s cutoff k = none := by simp [slotItem,held,stale]
      rw [if_pos stale]
      exact ⟨⟨by simp [none_],by simp [none_],open_⟩,by omega⟩
    · have here : cutoff ≤ slot.observedUs := by omega
      have some_ : slotItem s cutoff k = some (k.cls,k.op,slot.data) := by simp [slotItem,held,here]
      rw [if_neg stale,if_neg (by omega)]
      refine ⟨⟨by simp [some_,itemBytes],by simp [some_],rfl⟩,?_⟩
      simp only [List.length_append,List.length_cons,List.length_nil]
      omega

theorem allBuilt {s : Slots} (small : ∀ k slot, slotOf s k = some slot → slot.data.length ≤ arkivTlmMaxInner) (cutoff : Int)
    (outCap : Nat) (ks : List Kind) {b : Blob} (room : b.out.length+ks.length*(4+arkivTlmMaxInner) ≤ outCap)
    (open_ : b.full = false) : Built s cutoff ks b (ks.foldl (buildItem s cutoff outCap) b) := by
  induction ks generalizing b with
  | nil => exact ⟨by simp,by simp,open_⟩
  | cons k ks ih =>
    rw [List.length_cons,Nat.succ_mul] at room
    have here : b.out.length+4+arkivTlmMaxInner ≤ outCap := by omega
    obtain ⟨first,longer⟩ := itemBuilt small cutoff here open_ k
    have rest := ih (b := buildItem s cutoff outCap b k) (by omega) first.full
    have parts : (k::ks).filterMap (slotItem s cutoff) = [k].filterMap (slotItem s cutoff) ++
      ks.filterMap (slotItem s cutoff) := by
      rw [← List.filterMap_append]
      rfl
    rw [List.foldl_cons]
    refine ⟨?_,?_,rest.full⟩
    · rw [rest.out,first.out,List.append_assoc,← List.flatMap_append,parts]
    · rw [rest.any,first.any,or_assoc,parts,ne_eq,ne_eq,ne_eq,List.append_eq_nil_iff]
      tauto

/-- The blob holds exactly the fresh readings, and there is none where nothing is fresh. -/
theorem telemetryBlob (seen : List Seen) (nowUs : Int) :
    (fresh seen nowUs = [] → buildPayload (observed seen) nowUs tlmPayloadBytes = []) ∧
    (fresh seen nowUs ≠ [] → buildPayload (observed seen) nowUs tlmPayloadBytes ≠ [] ∧
      readTlv (buildPayload (observed seen) nowUs tlmPayloadBytes) = some (fresh seen nowUs)) := by
  have small : ∀ k slot, slotOf (observed seen) k = some slot → slot.data.length ≤ arkivTlmMaxInner := by
    intro k slot held
    exact latestSmall ((observedLatest seen k).symm.trans held)
  have built := allBuilt small (nowUs-arkivTlmFreshnessMs*1000) tlmPayloadBytes Kind.all (b := ⟨[1,0],false,false⟩)
    (by decide) rfl
  have items : Kind.all.filterMap (slotItem (observed seen) (nowUs-arkivTlmFreshnessMs*1000)) = fresh seen nowUs :=
    List.filterMap_congr fun k _ => by rw [slotItem,observedLatest]
  have out := built.out
  have any := built.any
  rw [items] at out any
  rw [buildPayload,if_neg (by decide)]
  dsimp only
  constructor
  · intro none_
    rw [if_neg]
    rw [any,none_]
    simp
  · intro some_
    rw [if_pos (any.mpr (.inr some_)),out]
    exact ⟨List.append_ne_nil_of_left_ne_nil (List.cons_ne_nil _ _) _,blobRead freshSmall⟩

section Chain
variable {Key : Type} {gcm : Gcm Key} (inverts : gcm.Inverts) {w : Binding Key}

/-- A sealed body and what it is sealed under. -/
structure SealedUnder (gcm : Gcm Key) (w : Binding Key) (typeTag : UInt8) (seq : UInt64) (entityType : Bytes) (pt body : Bytes)
    (epoch : UInt32) (iccid : Bytes) (kDir : Key) : Prop where
  device : w.iccid = some iccid
  bound : ∃ key, w.keys = some (epoch,key) ∧ key typeTag = some kDir
  issued : seq ≠ 0
  header : body.take hdrLen = packNonce typeTag epoch seq
  opens : ∀ cap, pt.length ≤ cap → arkivAeadOpen gcm body kDir (some iccid) (some entityType) none cap = .ok pt

include inverts in
theorem sealReads {typeTag : UInt8} {seq : UInt64} {entityType pt body : Bytes} {outCap : Nat} {epoch : UInt32}
    (sealed_ : arkivWriterPayloadSeal gcm w typeTag seq (some entityType) none pt outCap = .ok (body,epoch)) :
    ∃ iccid kDir, SealedUnder gcm w typeTag seq entityType pt body epoch iccid kDir := by
  rw [arkivWriterPayloadSeal] at sealed_
  split at sealed_
  · cases sealed_
  split at sealed_
  · cases sealed_
  rename_i issued
  split at sealed_
  · cases sealed_
  rename_i iccid device
  split at sealed_
  · cases sealed_
  split at sealed_
  · cases sealed_
  rename_i epoch' key bound
  split at sealed_
  · cases sealed_
  rename_i kDir named
  split at sealed_
  · cases sealed_
  rename_i body' under
  cases sealed_
  obtain ⟨ct,tag,parts⟩ := sealedParts under
  refine ⟨iccid,kDir,device,⟨key,bound,named⟩,issued,?_,fun cap room => (openReturns inverts parts cap room).2⟩
  rw [parts.laid,List.append_assoc,← nonceLength typeTag epoch seq,List.take_left]

def createView (c : CreateOp) : CreateView :=
  ⟨ceilBlocks c.expiresInSeconds,c.contentType,c.payload,strings c.attributes,numbers c.attributes⟩

/-- The transaction creates one entity at the storage contract. -/
def FoundOnChain (raw : Bytes) (nonce : UInt64) (c : CreateView) : Prop :=
  ∃ v, decodeTx raw = some v ∧ v.nonce = nonce.toNat ∧ v.to_ = storageAddrBytes ∧ v.valueWei = 0 ∧
    decodeOps v.data = some ⟨[c],[],[],[],[]⟩

variable {keccak256 : Bytes → Bytes} {signRecoverable : Bytes → Bytes → Option Signature} {devPriv : Bytes}
  {nonce gasPrice : UInt64} {create : CreateOp} {s : Signature}

theorem submitReads (signs : signRecoverable devPriv (keccak256 (preimage (createTx nonce gasPrice create))) = some s)
    (held : Held (submitRaw keccak256 signRecoverable devPriv nonce gasPrice create))
    (heldOps : Held (opsRlp ⟨[create],[],[],[],[]⟩)) (ends : create.expiresInSeconds ≠ lastSecond) :
    FoundOnChain (submitRaw keccak256 signRecoverable devPriv nonce gasPrice create) nonce (createView create) := by
  have decoded := signedDecoded keccak256 signRecoverable signs held
  have lossless : decodeOps (buildOpsTxData ⟨[create],[],[],[],[]⟩) = some ⟨[createView create],[],[],[],[]⟩ := by
    refine (opsLossless heldOps).mpr fun seconds there => ?_
    cases List.mem_singleton.mp there
    exact ends
  refine ⟨_,decoded,?_,?_,?_,?_⟩
  · rw [txView,createTx]
  · rw [txView,createTx]
  · rw [txView,createTx,UInt64.toNat_zero]
  · rw [txView,createTx]
    dsimp only
    rw [lossless]

include inverts in
/-- From the frames a unit has seen to what its owner opens on the chain: the blob in the entity says
exactly what was fresh, under the key of the entity's own epoch and stream. -/
theorem telemetryOnChain {devPub fwVersion : Bytes} {submitted : Nat} {seen : List Seen} {nowUs : Int} {seq : UInt64}
    (entity : tlmEntity gcm w devPub fwVersion submitted (observed seen) nowUs seq = some create)
    (signs : signRecoverable devPriv (keccak256 (preimage (createTx nonce gasPrice create))) = some s)
    (held : Held (submitRaw keccak256 signRecoverable devPriv nonce gasPrice create))
    (heldOps : Held (opsRlp ⟨[create],[],[],[],[]⟩)) :
    ∃ c blob epoch iccid kDir, FoundOnChain (submitRaw keccak256 signRecoverable devPriv nonce gasPrice create) nonce c ∧
      c.btl = 150 ∧ (ascii "type",ascii "w3pups-telemetry") ∈ c.strings ∧ (ascii "device_id",iccid) ∈ c.strings ∧
      (ascii "seq",seq.toInt64) ∈ c.numbers ∧ (ascii "epoch",epoch.toUInt64.toInt64) ∈ c.numbers ∧
      SealedUnder gcm w 1 seq (ascii "w3pups-telemetry") blob c.payload epoch iccid kDir ∧
      fresh seen nowUs ≠ [] ∧ readTlv blob = some (fresh seen nowUs) := by
  obtain ⟨nothing,something⟩ := telemetryBlob seen nowUs
  rw [tlmEntity] at entity
  split at entity
  · cases entity
  rename_i iccid device
  dsimp only at entity
  split at entity
  · cases entity
  rename_i some_
  split at entity
  · cases entity
  rename_i body epoch under
  obtain ⟨iccid',kDir,under⟩ := sealReads inverts under
  obtain rfl := Option.some.inj (device.symm.trans under.device)
  obtain rfl := Option.some.inj entity
  have fresh_ : fresh seen nowUs ≠ [] := fun none_ => some_ (nothing none_)
  have lasts : (5*60 : UInt32) ≠ lastSecond := by decide
  have blocks : ceilBlocks (5*60) = 150 := by decide
  refine ⟨createView _,_,epoch,iccid,kDir,submitReads signs held heldOps lasts,blocks,?_,?_,?_,?_,under,fresh_,
    (something fresh_).2⟩
  all_goals simp [createView,strings,numbers,text,bytesAttr,number]

theorem wireStatus (f : WupsFrame) : (wire f).getD 4 0 = f.cls ∧ (wire f).getD 5 0 = f.op ∧
    lenWord ((wire f).getD 8 0) ((wire f).getD 9 0) = f.len ∧ ((wire f).drop wupsHeaderBytes).take f.len = f.payload := by
  rw [wireCons]
  exact ⟨rfl,rfl,frameLenWord f,List.take_left⟩

theorem eventFiled {f : WupsFrame} {class_ : String} {inner : Bytes} (filed : eventClass (wire f) = some (class_,inner)) :
    inner = f.payload ∧ f.cls = wupsClassPower ∧ f.op = wupsOpPwrEvent ∧ f.payload.getD 0 0 = 1 ∧
      powerEventClass (f.payload.getD 1 0) = some class_ := by
  obtain ⟨cls,op,len,body⟩ := wireStatus f
  rw [eventClass] at filed
  split at filed
  · cases filed
  rw [len,cls,op] at filed
  dsimp only at filed
  rw [body] at filed
  split at filed
  · cases filed
  split at filed
  · rename_i power
    split at filed
    · cases filed
    · rename_i version
      obtain ⟨name,named,same⟩ := Option.map_eq_some_iff.mp filed
      cases same
      exact ⟨rfl,power.1,power.2,not_not.mp version,named⟩
  · cases filed

include inverts in
theorem alertOnChain {f : WupsFrame} {seq : UInt64} (entity : eventEntity gcm w (wire f) seq = some create)
    (signs : signRecoverable devPriv (keccak256 (preimage (createTx nonce gasPrice create))) = some s)
    (held : Held (submitRaw keccak256 signRecoverable devPriv nonce gasPrice create))
    (heldOps : Held (opsRlp ⟨[create],[],[],[],[]⟩)) :
    ∃ c class_ epoch iccid kDir, FoundOnChain (submitRaw keccak256 signRecoverable devPriv nonce gasPrice create) nonce c ∧
      (ascii "type",ascii "w3pups-event") ∈ c.strings ∧ (ascii "device_id",iccid) ∈ c.strings ∧
      (ascii "class",ascii class_) ∈ c.strings ∧ (ascii "seq",seq.toInt64) ∈ c.numbers ∧
      (ascii "epoch",epoch.toUInt64.toInt64) ∈ c.numbers ∧
      SealedUnder gcm w 3 seq (ascii "w3pups-event") f.payload c.payload epoch iccid kDir ∧
      f.cls = wupsClassPower ∧ f.op = wupsOpPwrEvent ∧ f.payload.getD 0 0 = 1 ∧
      powerEventClass (f.payload.getD 1 0) = some class_ := by
  rw [eventEntity] at entity
  split at entity
  · cases entity
  rename_i class_ inner filed
  obtain ⟨rfl,power,event,version,named⟩ := eventFiled filed
  split at entity
  · cases entity
  split at entity
  · cases entity
  rename_i body epoch under
  obtain ⟨iccid,kDir,under⟩ := sealReads inverts under
  obtain rfl := Option.some.inj entity
  have lasts : (60*60 : UInt32) ≠ lastSecond := by decide
  refine ⟨createView _,class_,epoch,iccid,kDir,submitReads signs held heldOps lasts,?_,?_,?_,?_,?_,under,power,event,
    version,named⟩
  all_goals simp [createView,strings,numbers,text,bytesAttr,number,under.device]

end Chain

/-! One reading and one alert, as the unit writes them. -/

def litGcm (key nonce aad pt ct tag : Bytes) : Gcm Bytes where
  encrypt k n a p :=
    if k = key ∧ n = nonce ∧ a = aad ∧ p = pt then some (ct,tag) else some (p,List.replicate tagLen 0)
  decrypt k n a c t :=
    if t = tag then if k = key ∧ n = nonce ∧ a = aad ∧ c = ct then .ok pt else .error authFail
    else if t = List.replicate tagLen 0 then .ok c
    else .error authFail

theorem litGcmInverts {key nonce aad pt ct tag : Bytes} (sizes : ct.length = pt.length ∧ tag.length = tagLen)
    (other : List.replicate tagLen 0 ≠ tag) : (litGcm key nonce aad pt ct tag).Inverts where
  sizes := by
    intro k n a p c t encrypted
    simp only [litGcm] at encrypted
    split at encrypted
    · rename_i vector
      cases encrypted
      rw [vector.2.2.2]
      exact sizes
    · cases encrypted
      exact ⟨rfl,rfl⟩
  inverse := by
    intro k n a p c t encrypted
    simp only [litGcm] at encrypted ⊢
    split at encrypted
    · rename_i vector
      cases encrypted
      rw [if_pos rfl,if_pos ⟨vector.1,vector.2.1,vector.2.2.1,rfl⟩,vector.2.2.2]
    · cases encrypted
      rw [if_neg other,if_pos rfl]

def telemetryGcm : Gcm Bytes :=
  litGcm ackKey (packNonce 1 1 5) (packNonce 1 1 5 ++ ascii "89" ++ ascii "w3pups-telemetry")
    ([1,0,2,1,20,0,1,1] ++ List.replicate 18 0)
    [0xe1,0x0e,0x04,0xb8,0x95,0xb3,0x6b,0xc7,0xb7,0x48,0x81,0x05,0x8e,0x68,0x42,0xe2,0xdc,0xaf,0x0e,0x9d,0x02,0x48,
      0x58,0x6b,0x52,0xc9]
    [0xed,0x01,0xb2,0x9e,0xdc,0xdf,0x63,0x60,0x98,0x4b,0xc5,0x37,0xca,0xc5,0xd8,0x14]

def eventGcm : Gcm Bytes :=
  litGcm ackKey (packNonce 3 1 6) (packNonce 3 1 6 ++ ascii "89" ++ ascii "w3pups-event") [1,1] [0xf7,0x76]
    [0x07,0xdb,0x7a,0x31,0x96,0x8d,0xac,0xa2,0xff,0xb3,0x81,0xe9,0xc5,0x9f,0xb6,0xaf]

def litBinding : Binding Bytes := ⟨true,some (ascii "89"),some (1,fun _ => some ackKey)⟩
def litSeen : List Seen := [(1000,wire (NetPublish.litReading 1))]
def mainsLost : WupsFrame := ⟨0xFF,0x03,0x02,0x10,0x04,9,[1,1],by simp [wupsMaxPayload]⟩

def telemetryCreate : CreateOp where
  contentType := ascii "application/octet-stream"
  payload :=
    [3,1,0,0,0,1,0,0,0,0,0,5,0xe1,0x0e,0x04,0xb8,0x95,0xb3,0x6b,0xc7,0xb7,0x48,0x81,0x05,0x8e,0x68,0x42,0xe2,0xdc,0xaf,0x0e,
      0x9d,0x02,0x48,0x58,0x6b,0x52,0xc9,0xed,0x01,0xb2,0x9e,0xdc,0xdf,0x63,0x60,0x98,0x4b,0xc5,0x37,0xca,0xc5,0xd8,0x14]
  attributes :=
    [text "type" "w3pups-telemetry",text "device_id" "89",number "seq" 5,number "epoch" 1,number "scheme" 3]
  expiresInSeconds := 300

def eventCreate : CreateOp where
  contentType := ascii "application/octet-stream"
  payload :=
    [3,3,0,0,0,1,0,0,0,0,0,6,0xf7,0x76,0x07,0xdb,0x7a,0x31,0x96,0x8d,0xac,0xa2,0xff,0xb3,0x81,0xe9,0xc5,0x9f,0xb6,0xaf]
  attributes :=
    [text "type" "w3pups-event",text "device_id" "89",text "class" "power_loss",number "seq" 6,number "epoch" 1,
      number "scheme" 3]
  expiresInSeconds := 3600

def telemetryDigest : Bytes :=
  [0x22,0xa4,0x9e,0x87,0x62,0x60,0xec,0x65,0xc5,0xbd,0x11,0x19,0x9b,0xac,0x46,0xab,0xff,0x00,0x52,0xd6,0x93,0x7d,0x06,0x7b,
    0x45,0xb7,0x90,0x7c,0x7e,0x43,0x15,0xe9]

def eventDigest : Bytes :=
  [0x9e,0x61,0x46,0x43,0xe4,0x0e,0x9c,0x19,0xb4,0xc3,0xdb,0xb2,0x86,0x94,0xf4,0x36,0x22,0xd4,0x39,0x9c,0x23,0x11,0xb4,0xeb,
    0xae,0x77,0xfc,0x5d,0x48,0x45,0xb7,0x32]

def telemetrySignature : Signature where
  recid := 1
  sig :=
    [0x76,0x6f,0xc7,0xbb,0xba,0x78,0x32,0x3b,0xd4,0xf1,0x83,0xb8,0x72,0xdb,0xff,0x35,0x84,0xc6,0x36,0x2e,0xf7,0xa1,0x8b,0xfc,
      0x81,0x21,0x04,0xb2,0x40,0x67,0xd5,0x02,0x44,0x22,0xca,0x13,0x65,0x05,0x4d,0x9e,0xb5,0x14,0x6a,0xb5,0xd8,0x41,0xd6,0x85,
      0xdb,0xce,0x89,0x16,0xd9,0xd3,0xe3,0xee,0x4e,0x8d,0xc4,0xc2,0x8d,0x2a,0x3e,0xca]
  size := rfl

def eventSignature : Signature where
  recid := 0
  sig :=
    [0x73,0x08,0x3e,0x7d,0x75,0x94,0xa7,0x5f,0x4d,0x2b,0xd0,0x44,0x8f,0xaa,0xc9,0x31,0x2f,0x98,0x83,0x11,0x43,0x30,0xcb,0xba,
      0xa0,0xdf,0x0c,0xc2,0x1d,0x46,0xf4,0x63,0x53,0x96,0x8d,0x25,0xa2,0x1d,0x8b,0xa8,0x3a,0xc7,0xe8,0xb3,0x83,0x8a,0x00,0x13,
      0xe2,0x64,0x62,0xd1,0x1f,0x5e,0x7b,0xe7,0x12,0x3e,0xc2,0x22,0xa0,0x1d,0x05,0x84]
  size := rfl

def litKeccak (digest : Bytes) : Bytes → Bytes := fun _ => digest
def litSigner (priv digest : Bytes) : Option Signature :=
  if priv = List.replicate 32 0x46 then
    if digest = telemetryDigest then some telemetrySignature
    else if digest = eventDigest then some eventSignature
    else none
  else none

theorem telemetryInverts : telemetryGcm.Inverts := litGcmInverts ⟨rfl,rfl⟩ (by decide)
theorem eventInverts : eventGcm.Inverts := litGcmInverts ⟨rfl,rfl⟩ (by decide)

theorem telemetryCreated :
    tlmEntity telemetryGcm litBinding [2,3] (ascii "v2.1") 1 (observed litSeen) 2000 5 = some telemetryCreate := by rfl

theorem eventCreated : eventEntity eventGcm litBinding (wire mainsLost) 6 = some eventCreate := by rfl

theorem telemetryFound :
    ∃ c blob epoch iccid kDir,
      FoundOnChain (submitRaw (litKeccak telemetryDigest) litSigner (List.replicate 32 0x46) 1 0 telemetryCreate) 1 c ∧
      c.btl = 150 ∧ (ascii "type",ascii "w3pups-telemetry") ∈ c.strings ∧ (ascii "device_id",iccid) ∈ c.strings ∧
      (ascii "seq",(5 : UInt64).toInt64) ∈ c.numbers ∧ (ascii "epoch",epoch.toUInt64.toInt64) ∈ c.numbers ∧
      SealedUnder telemetryGcm litBinding 1 5 (ascii "w3pups-telemetry") blob c.payload epoch iccid kDir ∧
      fresh litSeen 2000 ≠ [] ∧ readTlv blob = some (fresh litSeen 2000) :=
  telemetryOnChain telemetryInverts telemetryCreated rfl (by decide +kernel) (by decide +kernel)

theorem alertFound :
    ∃ c class_ epoch iccid kDir,
      FoundOnChain (submitRaw (litKeccak eventDigest) litSigner (List.replicate 32 0x46) 2 0 eventCreate) 2 c ∧
      (ascii "type",ascii "w3pups-event") ∈ c.strings ∧ (ascii "device_id",iccid) ∈ c.strings ∧
      (ascii "class",ascii class_) ∈ c.strings ∧ (ascii "seq",(6 : UInt64).toInt64) ∈ c.numbers ∧
      (ascii "epoch",epoch.toUInt64.toInt64) ∈ c.numbers ∧
      SealedUnder eventGcm litBinding 3 6 (ascii "w3pups-event") mainsLost.payload c.payload epoch iccid kDir ∧
      mainsLost.cls = wupsClassPower ∧ mainsLost.op = wupsOpPwrEvent ∧ mainsLost.payload.getD 0 0 = 1 ∧
      powerEventClass (mainsLost.payload.getD 1 0) = some class_ :=
  alertOnChain eventInverts eventCreated rfl (by decide +kernel) (by decide +kernel)

end Web3PiUps.ArkivTelemetry
