import Web3PiUps.ArkivEntity
import Web3PiUps.ArkivWriterSeq

/-! The payload seal of `aead.c`: the header that is the nonce, the associated
data, seal and open. AES-256-GCM is a parameter. -/
namespace Web3PiUps.ArkivAead
open WupsProtocol ArkivEntity ArkivWriterSeq

def scheme : UInt8 := 0x03
abbrev hdrLen : Nat := 12
abbrev tagLen : Nat := 16
abbrev overhead : Nat := hdrLen + tagLen
abbrev authFail : Int := -3

variable {Key : Type}

/-- `arkiv_aead_gcm_encrypt` and `arkiv_aead_gcm_decrypt`: key, nonce, AAD and text in.
An encryption gives the ciphertext and the tag, or nothing on an internal error. -/
structure Gcm (Key : Type) where
  encrypt : Key → Bytes → Bytes → Bytes → Option (Bytes × Bytes)
  decrypt : Key → Bytes → Bytes → Bytes → Bytes → Except Int Bytes

def purposeForType (typeTag : UInt8) : Option String :=
  if typeTag = 1 then some "telemetry"
  else if typeTag = 2 then some "ack"
  else if typeTag = 3 then some "event"
  else none

/-- A string is the bytes before its NUL, and `none` the null pointer. -/
def aadBytes (nonce : Bytes) (deviceId entityType commandId : Option Bytes) : Bytes :=
  nonce ++ deviceId.getD [] ++ entityType.getD [] ++ commandId.getD []

def buildAad (cap : Nat) (nonce : Bytes) (deviceId entityType commandId : Option Bytes) : Option Bytes :=
  let dl := (deviceId.getD []).length
  let el := (entityType.getD []).length
  let cl := (commandId.getD []).length
  if hdrLen + dl + el + cl > cap then none
  else some (aadBytes nonce deviceId entityType commandId)

def arkivAeadSeal (gcm : Gcm Key) (typeTag : UInt8) (epoch : UInt32) (seq : UInt64) (kDir : Key)
    (deviceId entityType commandId : Option Bytes) (pt : Bytes) (outCap : Nat) : Except Int Bytes :=
  if purposeForType typeTag = none then .error (-1)
  else if outCap < pt.length + overhead then .error (-2)
  else
    let nonce := packNonce typeTag epoch seq
    match buildAad (hdrLen+256) nonce deviceId entityType commandId with
    | none => .error (-3)
    | some aad =>
      match gcm.encrypt kDir nonce aad pt with
      | none => .error (-4)
      | some (ct,tag) => .ok (nonce ++ ct ++ tag)

def arkivAeadOpen (gcm : Gcm Key) (body : Bytes) (kDir : Key)
    (deviceId entityType commandId : Option Bytes) (ptCap : Nat) : Except Int Bytes :=
  if body.length < overhead then .error (-1)
  else if body.head? ≠ some scheme then .error (-2)
  else
    let ctLen := body.length - overhead
    if ptCap < ctLen then .error (-3)
    else
      let nonce := body.take hdrLen
      match buildAad (hdrLen+256) nonce deviceId entityType commandId with
      | none => .error (-4)
      | some aad =>
        let ct := (body.drop hdrLen).take ctLen
        let tag := body.drop (hdrLen+ctLen)
        gcm.decrypt kDir nonce aad ct tag

/-- The three kinds of entity, with the tag and the name their writers seal them with. -/
inductive Stream where | telemetry | ack | event deriving DecidableEq, Repr

def Stream.typeTag : Stream → UInt8
  | .telemetry => 1
  | .ack => 2
  | .event => 3

def Stream.entityType : Stream → Bytes
  | .telemetry => ascii "w3pups-telemetry"
  | .ack => ascii "w3pups-ack"
  | .event => ascii "w3pups-event"

def isDigit (b : UInt8) : Bool := 0x30 ≤ b && b ≤ 0x39

structure Context where
  stream : Stream
  epoch : UInt32
  seq : UInt64
  deviceId : Bytes
  commandId : Bytes
  inHeader : seq.toNat < 2^48
  digits : ∀ b ∈ deviceId, isDigit b

namespace Context

def nonce (c : Context) : Bytes := packNonce c.stream.typeTag c.epoch c.seq

def aad (c : Context) : Bytes :=
  aadBytes c.nonce (some c.deviceId) (some c.stream.entityType) (some c.commandId)

end Context

def sealIn (gcm : Gcm Key) (c : Context) (key : Key) (pt : Bytes) (outCap : Nat) : Except Int Bytes :=
  arkivAeadSeal gcm c.stream.typeTag c.epoch c.seq key (some c.deviceId) (some c.stream.entityType)
    (some c.commandId) pt outCap

/-- A reader of a body: its header comes with the body. -/
structure Reader (Key : Type) where
  key : Key
  stream : Stream
  deviceId : Bytes
  commandId : Bytes
  digits : ∀ b ∈ deviceId, isDigit b

def openBy (gcm : Gcm Key) (r : Reader Key) (body : Bytes) (ptCap : Nat) : Except Int Bytes :=
  arkivAeadOpen gcm body r.key (some r.deviceId) (some r.stream.entityType) (some r.commandId) ptCap

/-- Decryption inverts encryption, the ciphertext is as long as the text and the tag has 16 bytes. -/
structure Gcm.Inverts (gcm : Gcm Key) : Prop where
  sizes : ∀ k n a p ct tag, gcm.encrypt k n a p = some (ct,tag) → ct.length = p.length ∧ tag.length = tagLen
  inverse : ∀ k n a p ct tag, gcm.encrypt k n a p = some (ct,tag) → gcm.decrypt k n a ct tag = .ok p

/-- What one encryption gave is rejected under a changed key, nonce or AAD. -/
def Gcm.RejectsElsewhere (gcm : Gcm Key) (k : Key) (n a p : Bytes) : Prop :=
  ∀ ct tag, gcm.encrypt k n a p = some (ct,tag) →
    ∀ k' n' a' p', gcm.decrypt k' n' a' ct tag = .ok p' → k' = k ∧ n' = n ∧ a' = a

/-- A sealed body as a reader finds it, whatever header it came with. -/
structure OpenedBy (c : Context) (key : Key) (pt body : Bytes) (r : Reader Key) (body' pt' : Bytes) : Prop where
  whole : body' = body
  key : r.key = key
  stream : r.stream = c.stream
  device : r.deviceId = c.deviceId
  command : r.commandId = c.commandId
  text : pt' = pt
  context : ∀ c' : Context, body'.take hdrLen = c'.nonce → r.stream = c'.stream →
    r.deviceId = c'.deviceId → r.commandId = c'.commandId → c' = c

structure SealFraming (gcm : Gcm Key) (c : Context) (key : Key) (pt : Bytes) : Prop where
  returns : ∀ typeTag epoch seq kDir deviceId entityType commandId text outCap body,
    arkivAeadSeal gcm typeTag epoch seq kDir deviceId entityType commandId text outCap = .ok body →
      body.length = text.length + overhead ∧
      ∀ ptCap, text.length ≤ ptCap →
        arkivAeadOpen gcm body kDir deviceId entityType commandId ptCap = .ok text
  seals : ∀ typeTag epoch seq kDir deviceId entityType commandId text outCap,
    (∃ body, arkivAeadSeal gcm typeTag epoch seq kDir deviceId entityType commandId text outCap = .ok body) ↔
      purposeForType typeTag ≠ none ∧ text.length + overhead ≤ outCap ∧
      (deviceId.getD []).length + (entityType.getD []).length + (commandId.getD []).length ≤ 256 ∧
      (gcm.encrypt kDir (packNonce typeTag epoch seq)
        (aadBytes (packNonce typeTag epoch seq) deviceId entityType commandId) text).isSome
  injective : ∀ a b : Context, a.nonce = b.nonce → a.aad = b.aad → a = b
  noCommand : ∀ nonce deviceId entityType,
    aadBytes nonce deviceId entityType none = aadBytes nonce deviceId entityType (some [])
  elsewhere : ∀ outCap body, sealIn gcm c key pt outCap = .ok body →
    ∀ (r : Reader Key) (body' : Bytes) (ptCap : Nat) (pt' : Bytes), body'.drop hdrLen = body.drop hdrLen →
      openBy gcm r body' ptCap = .ok pt' → OpenedBy c key pt body r body' pt'

theorem aadBuilt {cap : Nat} {nonce : Bytes} {deviceId entityType commandId : Option Bytes} {aad : Bytes}
    (built : buildAad cap nonce deviceId entityType commandId = some aad) :
    hdrLen + (deviceId.getD []).length + (entityType.getD []).length + (commandId.getD []).length ≤ cap ∧
      aad = aadBytes nonce deviceId entityType commandId := by
  simp only [buildAad] at built
  split at built
  · cases built
  · rename_i fits
    exact ⟨Nat.le_of_not_lt fits,(Option.some.inj built).symm⟩

theorem aadFits {cap : Nat} {nonce : Bytes} {deviceId entityType commandId : Option Bytes}
    (fits : hdrLen + (deviceId.getD []).length + (entityType.getD []).length +
      (commandId.getD []).length ≤ cap) :
    buildAad cap nonce deviceId entityType commandId = some (aadBytes nonce deviceId entityType commandId) :=
  if_neg (Nat.not_lt.mpr fits)

theorem overheadParts : overhead = hdrLen + tagLen := rfl

theorem nonceLength (typeTag : UInt8) (epoch : UInt32) (seq : UInt64) :
    (packNonce typeTag epoch seq).length = hdrLen := rfl

section Seal
variable {gcm : Gcm Key} {typeTag : UInt8} {epoch : UInt32} {seq : UInt64} {kDir : Key}
  {deviceId entityType commandId : Option Bytes} {pt : Bytes} {outCap : Nat}

structure Sealed (gcm : Gcm Key) (typeTag : UInt8) (epoch : UInt32) (seq : UInt64) (kDir : Key)
    (deviceId entityType commandId : Option Bytes) (pt : Bytes) (outCap : Nat) (body ct tag : Bytes) : Prop where
  known : purposeForType typeTag ≠ none
  room : pt.length + overhead ≤ outCap
  fits : (deviceId.getD []).length + (entityType.getD []).length + (commandId.getD []).length ≤ 256
  encrypted : gcm.encrypt kDir (packNonce typeTag epoch seq)
    (aadBytes (packNonce typeTag epoch seq) deviceId entityType commandId) pt = some (ct,tag)
  laid : body = packNonce typeTag epoch seq ++ ct ++ tag

theorem sealedParts {body : Bytes}
    (sealed : arkivAeadSeal gcm typeTag epoch seq kDir deviceId entityType commandId pt outCap = .ok body) :
    ∃ ct tag, Sealed gcm typeTag epoch seq kDir deviceId entityType commandId pt outCap body ct tag := by
  unfold arkivAeadSeal at sealed
  by_cases unknown : purposeForType typeTag = none
  · simp only [if_pos unknown] at sealed
    cases sealed
  by_cases small : outCap < pt.length + overhead
  · simp only [if_neg unknown,if_pos small] at sealed
    cases sealed
  simp only [if_neg unknown,if_neg small] at sealed
  cases built : buildAad (hdrLen+256) (packNonce typeTag epoch seq) deviceId entityType commandId with
  | none => rw [built] at sealed; cases sealed
  | some aad =>
    obtain ⟨fits,rfl⟩ := aadBuilt built
    rw [built] at sealed
    simp only at sealed
    cases enc : gcm.encrypt kDir (packNonce typeTag epoch seq)
      (aadBytes (packNonce typeTag epoch seq) deviceId entityType commandId) pt with
    | none => rw [enc] at sealed; cases sealed
    | some parts =>
      obtain ⟨ct,tag⟩ := parts
      rw [enc] at sealed
      exact ⟨ct,tag,unknown,Nat.le_of_not_lt small,by omega,enc,(Except.ok.inj sealed).symm⟩

theorem sealSucceeds (known : purposeForType typeTag ≠ none) (room : pt.length + overhead ≤ outCap)
    (fits : (deviceId.getD []).length + (entityType.getD []).length + (commandId.getD []).length ≤ 256)
    {ct tag : Bytes} (encrypted : gcm.encrypt kDir (packNonce typeTag epoch seq)
      (aadBytes (packNonce typeTag epoch seq) deviceId entityType commandId) pt = some (ct,tag)) :
    arkivAeadSeal gcm typeTag epoch seq kDir deviceId entityType commandId pt outCap =
      .ok (packNonce typeTag epoch seq ++ ct ++ tag) := by
  have built : buildAad (hdrLen+256) (packNonce typeTag epoch seq) deviceId entityType commandId =
      some (aadBytes (packNonce typeTag epoch seq) deviceId entityType commandId) :=
    aadFits (by omega)
  rw [arkivAeadSeal,if_neg known,if_neg (Nat.not_lt.mpr room)]
  simp only [built,encrypted]

end Seal

/-- How a body is taken apart does not depend on its header. -/
structure Opened (gcm : Gcm Key) (body : Bytes) (kDir : Key) (deviceId entityType commandId : Option Bytes)
    (pt : Bytes) : Prop where
  long : overhead ≤ body.length
  accepted : gcm.decrypt kDir (body.take hdrLen)
    (aadBytes (body.take hdrLen) deviceId entityType commandId)
    ((body.drop hdrLen).take (body.length-overhead)) (body.drop (hdrLen+(body.length-overhead))) = .ok pt

theorem openedParts {gcm : Gcm Key} {body : Bytes} {kDir : Key} {deviceId entityType commandId : Option Bytes}
    {ptCap : Nat} {pt : Bytes}
    (opened : arkivAeadOpen gcm body kDir deviceId entityType commandId ptCap = .ok pt) :
    Opened gcm body kDir deviceId entityType commandId pt := by
  unfold arkivAeadOpen at opened
  by_cases short : body.length < overhead
  · simp only [if_pos short] at opened
    cases opened
  by_cases foreign : body.head? ≠ some scheme
  · simp only [if_neg short,if_pos foreign] at opened
    cases opened
  by_cases small : ptCap < body.length - overhead
  · simp only [if_neg short,if_neg foreign,if_pos small] at opened
    cases opened
  simp only [if_neg short,if_neg foreign,if_neg small] at opened
  cases built : buildAad (hdrLen+256) (body.take hdrLen) deviceId entityType commandId with
  | none => rw [built] at opened; cases opened
  | some aad =>
    obtain ⟨-,rfl⟩ := aadBuilt built
    rw [built] at opened
    exact ⟨Nat.le_of_not_lt short,opened⟩

theorem partsFound {body ct tag : Bytes} (long : overhead ≤ body.length)
    (behind : body.drop hdrLen = ct ++ tag) (size : tag.length = tagLen) :
    (body.drop hdrLen).take (body.length-overhead) = ct ∧
      body.drop (hdrLen+(body.length-overhead)) = tag := by
  have lengths := congrArg List.length behind
  simp only [List.length_drop,List.length_append,size] at lengths
  have ctLen : body.length - overhead = ct.length := by
    have parts := overheadParts
    omega
  rw [ctLen,← List.drop_drop,behind,List.take_left,List.drop_left]
  exact ⟨rfl,rfl⟩

theorem openReturns {gcm : Gcm Key} (inverts : gcm.Inverts) {typeTag : UInt8} {epoch : UInt32} {seq : UInt64}
    {kDir : Key} {deviceId entityType commandId : Option Bytes} {pt body ct tag : Bytes} {outCap : Nat}
    (s : Sealed gcm typeTag epoch seq kDir deviceId entityType commandId pt outCap body ct tag)
    (ptCap : Nat) (room : pt.length ≤ ptCap) :
    body.length = pt.length + overhead ∧
      arkivAeadOpen gcm body kDir deviceId entityType commandId ptCap = .ok pt := by
  obtain ⟨ctSize,tagSize⟩ := inverts.sizes _ _ _ _ _ _ s.encrypted
  have header := nonceLength typeTag epoch seq
  have length : body.length = pt.length + overhead := by
    rw [s.laid,List.length_append,List.length_append,header,ctSize,tagSize,overheadParts]
    omega
  have nonce : body.take hdrLen = packNonce typeTag epoch seq := by
    rw [s.laid,List.append_assoc,← header,List.take_left]
  have behind : body.drop hdrLen = ct ++ tag := by
    rw [s.laid,List.append_assoc,← header,List.drop_left]
  have first : body.head? = some scheme := by
    rw [s.laid]
    rfl
  have built : buildAad (hdrLen+256) (packNonce typeTag epoch seq) deviceId entityType commandId =
      some (aadBytes (packNonce typeTag epoch seq) deviceId entityType commandId) := by
    have fits := s.fits
    exact aadFits (by omega)
  obtain ⟨ctFound,tagFound⟩ := partsFound (by omega) behind tagSize
  have notShort : ¬ body.length < overhead := by omega
  have notSmall : ¬ ptCap < body.length - overhead := by omega
  refine ⟨length,?_⟩
  unfold arkivAeadOpen
  simp only [if_neg notShort,first,ne_eq,not_true_eq_false,if_false,if_neg notSmall,nonce,built,
    ctFound,tagFound]
  exact inverts.inverse _ _ _ _ _ _ s.encrypted

theorem epochByteAt (v : UInt32) (k : Nat) (small : k < 32) :
    ((v >>> UInt32.ofNat k).toUInt8).toNat = v.toNat/2^k % 256 := by
  have size : (UInt32.ofNat k).toNat = k := by
    rw [UInt32.toNat_ofNat']
    omega
  rw [UInt32.toNat_toUInt8,UInt32.toNat_shiftRight,size,Nat.mod_eq_of_lt small,Nat.shiftRight_eq_div_pow]

theorem packNonceType {tag tag' : UInt8} {epoch epoch' : UInt32} {v v' : UInt64}
    (same : packNonce tag epoch v = packNonce tag' epoch' v') : tag = tag' := by
  simp only [packNonce,List.cons.injEq] at same
  exact same.2.1

theorem packNonceEpoch {tag tag' : UInt8} {epoch epoch' : UInt32} {v v' : UInt64}
    (same : packNonce tag epoch v = packNonce tag' epoch' v') : epoch = epoch' := by
  simp only [packNonce,List.cons.injEq] at same
  obtain ⟨-,-,e24,e16,e8,e0,-⟩ := same
  have b24 : epoch.toNat/2^24 % 256 = epoch'.toNat/2^24 % 256 := by
    rw [← epochByteAt epoch 24 (by decide),← epochByteAt epoch' 24 (by decide)]
    exact congrArg UInt8.toNat e24
  have b16 : epoch.toNat/2^16 % 256 = epoch'.toNat/2^16 % 256 := by
    rw [← epochByteAt epoch 16 (by decide),← epochByteAt epoch' 16 (by decide)]
    exact congrArg UInt8.toNat e16
  have b8 : epoch.toNat/2^8 % 256 = epoch'.toNat/2^8 % 256 := by
    rw [← epochByteAt epoch 8 (by decide),← epochByteAt epoch' 8 (by decide)]
    exact congrArg UInt8.toNat e8
  have b0 : epoch.toNat % 256 = epoch'.toNat % 256 := by
    rw [← UInt32.toNat_toUInt8,← UInt32.toNat_toUInt8]
    exact congrArg UInt8.toNat e0
  have low := epoch.toNat_lt
  have low' := epoch'.toNat_lt
  exact UInt32.toNat_inj.mp (by omega)

/-- Where a run of one kind of symbol ends shows from the symbol after it. -/
theorem runUnique {α : Type} {P : α → Prop} {d d' s s' : List α} (all : ∀ x ∈ d, P x) (all' : ∀ x ∈ d', P x)
    (ends : ∀ x ∈ s.head?, ¬ P x) (ends' : ∀ x ∈ s'.head?, ¬ P x) (same : d ++ s = d' ++ s') :
    d = d' ∧ s = s' := by
  induction d generalizing d' with
  | nil =>
    cases d' with
    | nil => exact ⟨rfl,same⟩
    | cons x rest =>
      have here : s = x :: (rest ++ s') := same
      exact absurd (all' x (List.mem_cons_self ..)) (ends x (by rw [here]; rfl))
  | cons x rest ih =>
    cases d' with
    | nil =>
      have here : x :: (rest ++ s) = s' := same
      exact absurd (all x (List.mem_cons_self ..)) (ends' x (by rw [← here]; rfl))
    | cons y rest' =>
      obtain ⟨first,behind⟩ := List.cons.inj same
      obtain ⟨restSame,sSame⟩ := ih (fun z inside => all z (List.mem_cons_of_mem x inside))
        (fun z inside => all' z (List.mem_cons_of_mem y inside)) behind
      exact ⟨by rw [first,restSame],sSame⟩

namespace Stream

theorem letterFirst (s : Stream) (c : Bytes) : ∀ b ∈ (s.entityType ++ c).head?, ¬ isDigit b = true := by
  cases s <;> intro b first <;> cases first <;> decide

theorem tagsApart {s t : Stream} (same : s.typeTag = t.typeTag) : s = t := by
  cases s <;> cases t <;> first | rfl | exact absurd same (by decide)

theorem namesApart {s t : Stream} {c d : Bytes} (same : s.entityType ++ c = t.entityType ++ d) :
    s = t ∧ c = d := by
  have letter (u : Stream) (rest : Bytes) : (u.entityType ++ rest)[7]? = u.entityType[7]? := by
    cases u <;> rfl
  have eighth : s.entityType[7]? = t.entityType[7]? := by
    rw [← letter s c,same,letter t d]
  have stream : s = t := by
    cases s <;> cases t <;> first | rfl | exact absurd eighth (by decide)
  subst stream
  exact ⟨rfl,List.append_cancel_left same⟩

end Stream

theorem aadApart {nonce device device' command command' : Bytes} {s t : Stream}
    (digits : ∀ b ∈ device, isDigit b) (digits' : ∀ b ∈ device', isDigit b)
    (same : aadBytes nonce (some device) (some s.entityType) (some command) =
      aadBytes nonce (some device') (some t.entityType) (some command')) :
    device = device' ∧ s = t ∧ command = command' := by
  simp only [aadBytes,Option.getD_some,List.append_assoc] at same
  obtain ⟨devices,behind⟩ := runUnique digits digits' (s.letterFirst command) (t.letterFirst command')
    (List.append_cancel_left same)
  exact ⟨devices,Stream.namesApart behind⟩

theorem contextsApart (a b : Context) (nonces : a.nonce = b.nonce) (aads : a.aad = b.aad) : a = b := by
  have stream : a.stream = b.stream := Stream.tagsApart (packNonceType nonces)
  have epoch : a.epoch = b.epoch := packNonceEpoch nonces
  have seq : a.seq = b.seq := packNonceSeq a.inHeader b.inHeader nonces
  have ids : a.deviceId = b.deviceId ∧ a.stream = b.stream ∧ a.commandId = b.commandId := by
    unfold Context.aad at aads
    rw [nonces] at aads
    exact aadApart a.digits b.digits aads
  cases a
  cases b
  simp_all

theorem openedElsewhere {gcm : Gcm Key} (inverts : gcm.Inverts) {c : Context} {key : Key} {pt : Bytes}
    (rejects : gcm.RejectsElsewhere key c.nonce c.aad pt) {outCap : Nat} {body : Bytes}
    (sealed : sealIn gcm c key pt outCap = .ok body) {r : Reader Key} {body' : Bytes} {ptCap : Nat}
    {pt' : Bytes} (behind : body'.drop hdrLen = body.drop hdrLen)
    (opened : openBy gcm r body' ptCap = .ok pt') : OpenedBy c key pt body r body' pt' := by
  obtain ⟨ct,tag,s⟩ := sealedParts sealed
  obtain ⟨ctSize,tagSize⟩ := inverts.sizes _ _ _ _ _ _ s.encrypted
  have header : body.take hdrLen = c.nonce := by
    rw [s.laid,List.append_assoc]
    rfl
  have parts : body'.drop hdrLen = ct ++ tag := by
    rw [behind,s.laid,List.append_assoc]
    rfl
  obtain ⟨long,accepted⟩ := openedParts opened
  obtain ⟨ctFound,tagFound⟩ := partsFound long parts tagSize
  rw [ctFound,tagFound] at accepted
  obtain ⟨keys,nonces,aads⟩ := rejects ct tag s.encrypted _ _ _ _ accepted
  rw [nonces] at aads
  obtain ⟨devices,streams,commands⟩ := aadApart r.digits c.digits aads
  have whole : body' = body := by
    rw [← List.take_append_drop hdrLen body',← List.take_append_drop hdrLen body,nonces,header,behind]
  have text : pt' = pt := by
    have back := inverts.inverse _ _ _ _ _ _ s.encrypted
    have here : gcm.decrypt key c.nonce c.aad ct tag = .ok pt' := by
      rw [nonces,keys,devices,streams,commands] at accepted
      exact accepted
    exact Except.ok.inj (here.symm.trans back)
  refine ⟨whole,keys,streams,devices,commands,text,?_⟩
  intro c' rebuilt sameStream sameDevice sameCommand
  have nonce : c'.nonce = c.nonce := rebuilt.symm.trans nonces
  apply contextsApart c' c nonce
  rw [Context.aad,Context.aad,nonce,← sameStream,← sameDevice,← sameCommand,streams,devices,commands]

theorem sealFraming (gcm : Gcm Key) (inverts : gcm.Inverts) (c : Context) (key : Key) (pt : Bytes)
    (rejects : gcm.RejectsElsewhere key c.nonce c.aad pt) : SealFraming gcm c key pt where
  returns := by
    intro typeTag epoch seq kDir deviceId entityType commandId text outCap body sealed
    obtain ⟨ct,tag,s⟩ := sealedParts sealed
    refine ⟨(openReturns inverts s text.length (Nat.le_refl _)).1,?_⟩
    intro ptCap room
    exact (openReturns inverts s ptCap room).2
  seals := by
    intro typeTag epoch seq kDir deviceId entityType commandId text outCap
    constructor
    · rintro ⟨body,sealed⟩
      obtain ⟨ct,tag,s⟩ := sealedParts sealed
      exact ⟨s.known,s.room,s.fits,by rw [s.encrypted]; rfl⟩
    · rintro ⟨known,room,fits,encrypts⟩
      obtain ⟨⟨ct,tag⟩,encrypted⟩ := Option.isSome_iff_exists.mp encrypts
      exact ⟨_,sealSucceeds known room fits encrypted⟩
  injective := contextsApart
  noCommand := fun _ _ _ => rfl
  elsewhere := by
    intro outCap body sealed r body' ptCap pt' behind opened
    exact openedElsewhere inverts rejects sealed behind opened

/-! The acknowledgement of `seal_vectors.h`. -/

def ackKey : Bytes :=
  [0x06,0xec,0x92,0x44,0x4f,0x7c,0x21,0xba,0xc4,0x43,0xc3,0x21,0x24,0x18,0x8e,0xd1,
    0xe7,0x5b,0xbb,0xaa,0xb1,0x03,0x1f,0x33,0xdb,0xce,0x36,0xee,0x81,0xe8,0x53,0xf6]

def ackContext : Context where
  stream := .ack
  epoch := 7
  seq := 1235
  deviceId := ascii "8988228066614189920"
  commandId := ascii "550e8400-e29b-41d4-a716-446655440000"
  inHeader := by decide
  digits := by decide +kernel

def ackText : Bytes := [0x01,0x00,0x2a,0xff]
def ackCt : Bytes := [0xa8,0x63,0x5a,0x37]
def ackTag : Bytes :=
  [0x70,0xb7,0x70,0x91,0x49,0x51,0x65,0x48,0xeb,0x46,0xb6,0x67,0x9a,0xc3,0x6c,0xd7]

/-- The cipher on that acknowledgement. Anything else it copies under a tag of zeros. -/
def ackGcm : Gcm Bytes where
  encrypt k n a p :=
    if k = ackKey ∧ n = ackContext.nonce ∧ a = ackContext.aad ∧ p = ackText then some (ackCt,ackTag)
    else some (p,List.replicate tagLen 0)
  decrypt k n a ct tag :=
    if tag = ackTag then
      if k = ackKey ∧ n = ackContext.nonce ∧ a = ackContext.aad ∧ ct = ackCt then .ok ackText
      else .error authFail
    else if tag = List.replicate tagLen 0 then .ok ct
    else .error authFail

theorem ackGcmEncrypt {k n a p ct tag : Bytes} (encrypted : ackGcm.encrypt k n a p = some (ct,tag)) :
    (k = ackKey ∧ n = ackContext.nonce ∧ a = ackContext.aad ∧ p = ackText) ∧ ct = ackCt ∧ tag = ackTag ∨
      ct = p ∧ tag = List.replicate tagLen 0 := by
  simp only [ackGcm] at encrypted
  split at encrypted
  · rename_i vector
    cases encrypted
    exact .inl ⟨vector,rfl,rfl⟩
  · cases encrypted
    exact .inr ⟨rfl,rfl⟩

theorem ackGcmInverts : ackGcm.Inverts where
  sizes := by
    intro k n a p ct tag encrypted
    obtain ⟨⟨-,-,-,rfl⟩,rfl,rfl⟩ | ⟨rfl,rfl⟩ := ackGcmEncrypt encrypted
    · exact ⟨rfl,rfl⟩
    · exact ⟨rfl,rfl⟩
  inverse := by
    intro k n a p ct tag encrypted
    obtain ⟨⟨rfl,rfl,rfl,rfl⟩,rfl,rfl⟩ | ⟨rfl,rfl⟩ := ackGcmEncrypt encrypted
    · simp only [ackGcm,and_self,if_true]
    · have other : List.replicate tagLen 0 ≠ ackTag := by decide
      simp only [ackGcm,if_neg other,if_true]

theorem ackGcmRejects : ackGcm.RejectsElsewhere ackKey ackContext.nonce ackContext.aad ackText := by
  intro ct tag encrypted k n a p accepted
  simp only [ackGcm,and_self,if_true] at encrypted
  cases encrypted
  simp only [ackGcm,if_true] at accepted
  split at accepted
  · rename_i vector
    exact ⟨vector.1,vector.2.1,vector.2.2.1⟩
  · cases accepted

theorem ackFraming :
    SealFraming ackGcm ackContext ackKey ackText ∧
      sealIn ackGcm ackContext ackKey ackText 32 = .ok (ackContext.nonce ++ ackCt ++ ackTag) :=
  ⟨sealFraming ackGcm ackGcmInverts ackContext ackKey ackText ackGcmRejects,by rfl⟩

end Web3PiUps.ArkivAead
