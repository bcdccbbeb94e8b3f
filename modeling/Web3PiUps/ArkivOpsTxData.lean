import Web3PiUps.ArkivBrotliStore
import Web3PiUps.ArkivRlp

/-! The data of an Arkiv transaction (`ops_tx_data.cpp`) and the legacy transaction
around it (`tx_signer.cpp`), with what a strict decoder reads from the bytes. Hash and
signature are parameters. -/
namespace Web3PiUps.ArkivOpsTxData
open WupsProtocol ArkivRlp ArkivBrotliStore
open Rlp (Item)

structure Attribute where
  key : Bytes
  stringValue : Bytes
  numericValue : Int64
  isNumeric : Bool

structure CreateOp where
  contentType : Bytes
  payload : Bytes
  attributes : List Attribute
  expiresInSeconds : UInt32

structure UpdateOp where
  entityKey : Bytes
  contentType : Bytes
  payload : Bytes
  attributes : List Attribute
  expiresInSeconds : UInt32

structure ExtensionOp where
  entityKey : Bytes
  expiresInSeconds : UInt32

structure OwnershipChangeOp where
  entityKey : Bytes
  newOwner : Bytes

structure OpsTxData where
  creates : List CreateOp
  updates : List UpdateOp
  deletes : List Bytes
  extensions : List ExtensionOp
  ownershipChanges : List OwnershipChangeOp

def blockTimeSeconds : UInt32 := 2

def secondsToBlocks (seconds : UInt32) : UInt32 := (seconds + blockTimeSeconds - 1) / blockTimeSeconds

/-- `append_uint` of the `uint32_t`. -/
def appendBlocks (e : ListEncoder) (seconds : UInt32) : ListEncoder :=
  e.appendUint (secondsToBlocks seconds).toUInt64

def attributePair (a : Attribute) (numericVariant : Bool) : Bytes :=
  let pair := ListEncoder.new.appendBytes a.key
  let pair :=
    if numericVariant then
      if a.numericValue = 0 then pair.appendBytes [] else pair.appendUint a.numericValue.toUInt64
    else pair.appendBytes a.stringValue
  pair.finish

def encodeAttributeList (attrs : List Attribute) (numeric : Bool) : Bytes :=
  let list := attrs.foldl (fun (list : ListEncoder) a =>
    if a.isNumeric ≠ numeric then list else list.appendRaw (attributePair a numeric)) ListEncoder.new
  list.finish

def encodeCreate (c : CreateOp) : Bytes :=
  let item := appendBlocks .new c.expiresInSeconds
  let item := item.appendBytes c.contentType
  let item := item.appendBytes c.payload
  let item := item.appendRaw (encodeAttributeList c.attributes false)
  let item := item.appendRaw (encodeAttributeList c.attributes true)
  item.finish

def encodeUpdate (u : UpdateOp) : Bytes :=
  let item := ListEncoder.new.appendBytes u.entityKey
  let item := item.appendBytes u.contentType
  let item := appendBlocks item u.expiresInSeconds
  let item := item.appendBytes u.payload
  let item := item.appendRaw (encodeAttributeList u.attributes false)
  let item := item.appendRaw (encodeAttributeList u.attributes true)
  item.finish

def encodeExtension (e : ExtensionOp) : Bytes :=
  let item := ListEncoder.new.appendBytes e.entityKey
  let item := appendBlocks item e.expiresInSeconds
  item.finish

def encodeOwnershipChange (o : OwnershipChangeOp) : Bytes :=
  let item := ListEncoder.new.appendBytes o.entityKey
  let item := item.appendBytes o.newOwner
  item.finish

/-- The loops that append one encoding after another. -/
def eachRaw {α : Type} (encode : α → Bytes) (all : List α) : ListEncoder :=
  all.foldl (fun e a => e.appendRaw (encode a)) ListEncoder.new

/-- `rlp_out`. -/
def opsRlp (ops : OpsTxData) : Bytes :=
  let outer := ListEncoder.new
  let creates := eachRaw encodeCreate ops.creates
  let outer := outer.appendRaw creates.finish
  let updates := eachRaw encodeUpdate ops.updates
  let outer := outer.appendRaw updates.finish
  let deletes := ops.deletes.foldl (fun (e : ListEncoder) key => e.appendBytes key) ListEncoder.new
  let outer := outer.appendRaw deletes.finish
  let extensions := eachRaw encodeExtension ops.extensions
  let outer := outer.appendRaw extensions.finish
  let ownership := eachRaw encodeOwnershipChange ops.ownershipChanges
  let outer := outer.appendRaw ownership.finish
  outer.finish

def buildOpsTxData (ops : OpsTxData) : Bytes := brotliStoreEncode (opsRlp ops)

structure LegacyTx where
  nonce : UInt64
  gasPriceWei : UInt64
  gasLimit : UInt64
  to_ : Bytes
  valueWei : UInt64
  data : Bytes
  chainId : UInt64

def encodeTxFields (l : ListEncoder) (tx : LegacyTx) : ListEncoder :=
  let l := l.appendUint tx.nonce
  let l := l.appendUint tx.gasPriceWei
  let l := l.appendUint tx.gasLimit
  let l := l.appendBytes tx.to_
  let l := l.appendUint tx.valueWei
  l.appendBytes tx.data

def stripLeadingZeros (b : Bytes) : Bytes := b.dropWhile (· = 0)

/-- `pre_rlp`, what is hashed and signed. -/
def preimage (tx : LegacyTx) : Bytes :=
  let l := encodeTxFields .new tx
  let l := l.appendUint tx.chainId
  let l := l.appendUint 0
  let l := l.appendUint 0
  l.finish

structure Signature where
  recid : Nat
  sig : Bytes
  size : sig.length = 64

def eip155 (chainId : UInt64) (recid : Nat) : UInt64 := chainId * 2 + 35 + UInt64.ofNat recid

def signLegacyTx (keccak256 : Bytes → Bytes) (signRecoverable : Bytes → Bytes → Option Signature)
    (tx : LegacyTx) (priv : Bytes) : Bytes :=
  let digest := keccak256 (preimage tx)
  match signRecoverable priv digest with
  | none => []
  | some s =>
    let l := encodeTxFields .new tx
    let l := l.appendUint (eip155 tx.chainId s.recid)
    let l := l.appendBytes (stripLeadingZeros (s.sig.take 32))
    let l := l.appendBytes (stripLeadingZeros (s.sig.drop 32))
    l.finish

/-! What a reader gets: operations with a lifetime in blocks and their attributes parted. -/

structure CreateView where
  btl : Nat
  contentType : Bytes
  payload : Bytes
  strings : List (Bytes × Bytes)
  numbers : List (Bytes × Int64)
  deriving DecidableEq

structure UpdateView where
  entityKey : Bytes
  contentType : Bytes
  btl : Nat
  payload : Bytes
  strings : List (Bytes × Bytes)
  numbers : List (Bytes × Int64)
  deriving DecidableEq

structure OpsView where
  creates : List CreateView
  updates : List UpdateView
  deletes : List Bytes
  extensions : List (Bytes × Nat)
  ownershipChanges : List (Bytes × Bytes)
  deriving DecidableEq

def strings (attrs : List Attribute) : List (Bytes × Bytes) :=
  (attrs.filter (·.isNumeric = false)).map fun a => (a.key,a.stringValue)

def numbers (attrs : List Attribute) : List (Bytes × Int64) :=
  (attrs.filter (·.isNumeric = true)).map fun a => (a.key,a.numericValue)

/-- The operations with `blocks` for the lifetimes. -/
def view (blocks : UInt32 → Nat) (ops : OpsTxData) : OpsView where
  creates := ops.creates.map fun c =>
    ⟨blocks c.expiresInSeconds,c.contentType,c.payload,strings c.attributes,numbers c.attributes⟩
  updates := ops.updates.map fun u =>
    ⟨u.entityKey,u.contentType,blocks u.expiresInSeconds,u.payload,strings u.attributes,numbers u.attributes⟩
  deletes := ops.deletes
  extensions := ops.extensions.map fun e => (e.entityKey,blocks e.expiresInSeconds)
  ownershipChanges := ops.ownershipChanges.map fun o => (o.entityKey,o.newOwner)

/-- Half the seconds, rounded up. -/
def ceilBlocks (seconds : UInt32) : Nat := (seconds.toNat + 1) / 2

def lifetimes (ops : OpsTxData) : List UInt32 :=
  ops.creates.map (·.expiresInSeconds) ++ ops.updates.map (·.expiresInSeconds) ++
    ops.extensions.map (·.expiresInSeconds)

/-! The reader. An integer is taken in its minimal form only. -/

def readString : Item → Option Bytes
  | .bytes b => some b
  | .list _ => none

def readInt : Item → Option Nat
  | .bytes b => if Rlp.Minimal b then some (Rlp.beValue b) else none
  | .list _ => none

def readList {α : Type} (read : Item → Option α) : Item → Option (List α)
  | .bytes _ => none
  | .list items => items.mapM read

def readStringPair : Item → Option (Bytes × Bytes)
  | .list [key,value] => do
    let key ← readString key
    let value ← readString value
    some (key,value)
  | _ => none

def readNumberPair : Item → Option (Bytes × Int64)
  | .list [key,value] => do
    let key ← readString key
    let value ← readInt value
    if value < 2 ^ 64 then some (key,(UInt64.ofNat value).toInt64) else none
  | _ => none

def readCreate : Item → Option CreateView
  | .list [btl,contentType,payload,strings,numbers] => do
    let btl ← readInt btl
    let contentType ← readString contentType
    let payload ← readString payload
    let strings ← readList readStringPair strings
    let numbers ← readList readNumberPair numbers
    some ⟨btl,contentType,payload,strings,numbers⟩
  | _ => none

def readUpdate : Item → Option UpdateView
  | .list [entityKey,contentType,btl,payload,strings,numbers] => do
    let entityKey ← readString entityKey
    let contentType ← readString contentType
    let btl ← readInt btl
    let payload ← readString payload
    let strings ← readList readStringPair strings
    let numbers ← readList readNumberPair numbers
    some ⟨entityKey,contentType,btl,payload,strings,numbers⟩
  | _ => none

def readExtension : Item → Option (Bytes × Nat)
  | .list [entityKey,btl] => do
    let entityKey ← readString entityKey
    let btl ← readInt btl
    some (entityKey,btl)
  | _ => none

def readOps : Item → Option OpsView
  | .list [creates,updates,deletes,extensions,ownership] => do
    let creates ← readList readCreate creates
    let updates ← readList readUpdate updates
    let deletes ← readList readString deletes
    let extensions ← readList readExtension extensions
    let ownership ← readList readStringPair ownership
    some ⟨creates,updates,deletes,extensions,ownership⟩
  | _ => none

/-- The whole stream, then the whole encoding in it. -/
def decodeOps (stream : Bytes) : Option OpsView := do
  let (rlp,rest) ← brotliDecode stream
  if rest ≠ [] then none
  else
    let item ← Rlp.decode rlp
    readOps item

structure TxView where
  nonce : Nat
  gasPriceWei : Nat
  gasLimit : Nat
  to_ : Bytes
  valueWei : Nat
  data : Bytes
  v : Nat
  r : Nat
  s : Nat
  deriving DecidableEq

def readTx : Item → Option TxView
  | .list [nonce,gasPrice,gasLimit,to_,value,data,v,r,s] => do
    let nonce ← readInt nonce
    let gasPrice ← readInt gasPrice
    let gasLimit ← readInt gasLimit
    let to_ ← readString to_
    let value ← readInt value
    let data ← readString data
    let v ← readInt v
    let r ← readInt r
    let s ← readInt s
    some ⟨nonce,gasPrice,gasLimit,to_,value,data,v,r,s⟩
  | _ => none

def decodeTx (raw : Bytes) : Option TxView := do
  let item ← Rlp.decode raw
  readTx item

/-- The fields of a transaction with the three numbers after them. -/
def txView (tx : LegacyTx) (v r s : Nat) : TxView :=
  ⟨tx.nonce.toNat,tx.gasPriceWei.toNat,tx.gasLimit.toNat,tx.to_,tx.valueWei.toNat,tx.data,v,r,s⟩

def intItem (n : Nat) : Item := .bytes (Rlp.beBytes n)

def stringPairItem (a : Attribute) : Item := .list [.bytes a.key,.bytes a.stringValue]

def numberPairItem (a : Attribute) : Item := .list [.bytes a.key,intItem a.numericValue.toUInt64.toNat]

def blocksItem (seconds : UInt32) : Item := intItem (secondsToBlocks seconds).toNat

def attributeItem (attrs : List Attribute) (numeric : Bool) : Item :=
  .list ((attrs.filter (·.isNumeric = numeric)).map fun a =>
    if numeric then numberPairItem a else stringPairItem a)

def createItem (c : CreateOp) : Item :=
  .list [blocksItem c.expiresInSeconds,.bytes c.contentType,.bytes c.payload,
    attributeItem c.attributes false,attributeItem c.attributes true]

def updateItem (u : UpdateOp) : Item :=
  .list [.bytes u.entityKey,.bytes u.contentType,blocksItem u.expiresInSeconds,.bytes u.payload,
    attributeItem u.attributes false,attributeItem u.attributes true]

def extensionItem (e : ExtensionOp) : Item := .list [.bytes e.entityKey,blocksItem e.expiresInSeconds]

def ownershipItem (o : OwnershipChangeOp) : Item := .list [.bytes o.entityKey,.bytes o.newOwner]

def opsItem (ops : OpsTxData) : Item :=
  .list [.list (ops.creates.map createItem),.list (ops.updates.map updateItem),
    .list (ops.deletes.map Item.bytes),.list (ops.extensions.map extensionItem),
    .list (ops.ownershipChanges.map ownershipItem)]

def txItem (tx : LegacyTx) (v r s : Nat) : Item :=
  .list [intItem tx.nonce.toNat,intItem tx.gasPriceWei.toNat,intItem tx.gasLimit.toNat,.bytes tx.to_,
    intItem tx.valueWei.toNat,.bytes tx.data,intItem v,intItem r,intItem s]

theorem blocksAppended {e : ListEncoder} {items : List Item} (h : Holds e items) (seconds : UInt32) :
    Holds (appendBlocks e seconds) (items ++ [blocksItem seconds]) := by
  have appended := h.appendUint (secondsToBlocks seconds).toUInt64
  rw [UInt32.toNat_toUInt64] at appended
  exact appended

theorem pairEncodes (a : Attribute) (numeric : Bool) :
    Encodes (attributePair a numeric) (if numeric then numberPairItem a else stringPairItem a) := by
  have key := Holds.new.appendBytes a.key
  cases numeric with
  | false => exact (key.appendBytes a.stringValue).finish
  | true =>
    by_cases zero : a.numericValue = 0
    · have pair : attributePair a true = ((ListEncoder.new.appendBytes a.key).appendBytes []).finish := by
        simp only [attributePair,zero,if_true]
      have empty : Rlp.beBytes (Int64.toUInt64 0).toNat = [] := Rlp.bytesNil.mpr rfl
      rw [pair,if_pos rfl,numberPairItem,intItem,zero,empty]
      exact (key.appendBytes []).finish
    · have pair : attributePair a true =
          ((ListEncoder.new.appendBytes a.key).appendUint a.numericValue.toUInt64).finish := by
        simp only [attributePair,zero,if_true,if_false]
      rw [pair,if_pos rfl]
      exact (key.appendUint a.numericValue.toUInt64).finish

theorem attributesEncode (attrs : List Attribute) (numeric : Bool) :
    Encodes (encodeAttributeList attrs numeric) (attributeItem attrs numeric) := by
  have loop : ∀ (attrs : List Attribute) (e : ListEncoder) (items : List Item), Holds e items →
      Holds (attrs.foldl (fun (list : ListEncoder) a =>
        if a.isNumeric ≠ numeric then list else list.appendRaw (attributePair a numeric)) e)
        (items ++ (attrs.filter (·.isNumeric = numeric)).map fun a =>
          if numeric then numberPairItem a else stringPairItem a) := by
    intro attrs
    induction attrs with
    | nil => intro e items h; simpa using h
    | cons a rest ih =>
      intro e items h
      rw [List.foldl_cons]
      by_cases kind : a.isNumeric = numeric
      · rw [if_neg (not_not_intro kind),List.filter_cons_of_pos (by simpa using kind),List.map_cons]
        have next := ih _ _ (h.appendRaw (pairEncodes a numeric))
        rwa [List.append_assoc] at next
      · rw [if_pos kind,List.filter_cons_of_neg (by simpa using kind)]
        exact ih e items h
  exact (loop attrs .new [] .new).finish

theorem createEncodes (c : CreateOp) : Encodes (encodeCreate c) (createItem c) :=
  (((((blocksAppended .new c.expiresInSeconds).appendBytes c.contentType).appendBytes c.payload).appendRaw
    (attributesEncode c.attributes false)).appendRaw (attributesEncode c.attributes true)).finish

theorem updateEncodes (u : UpdateOp) : Encodes (encodeUpdate u) (updateItem u) :=
  ((((blocksAppended ((Holds.new.appendBytes u.entityKey).appendBytes u.contentType)
    u.expiresInSeconds).appendBytes u.payload).appendRaw
    (attributesEncode u.attributes false)).appendRaw (attributesEncode u.attributes true)).finish

theorem extensionEncodes (e : ExtensionOp) : Encodes (encodeExtension e) (extensionItem e) :=
  (blocksAppended (Holds.new.appendBytes e.entityKey) e.expiresInSeconds).finish

theorem ownershipEncodes (o : OwnershipChangeOp) : Encodes (encodeOwnershipChange o) (ownershipItem o) :=
  ((Holds.new.appendBytes o.entityKey).appendBytes o.newOwner).finish

theorem eachEncodes {α : Type} {encode : α → Bytes} {item : α → Item}
    (encodes : ∀ a, Encodes (encode a) (item a)) (all : List α) :
    Encodes (eachRaw encode all).finish (.list (all.map item)) :=
  (Holds.new.appendEach encodes all).finish

theorem deletesEncode (deletes : List Bytes) :
    Encodes (deletes.foldl (fun (e : ListEncoder) key => e.appendBytes key) ListEncoder.new).finish
      (.list (deletes.map Item.bytes)) := by
  have loop : ∀ (deletes : List Bytes) (e : ListEncoder) (items : List Item), Holds e items →
      Holds (deletes.foldl (fun (e : ListEncoder) key => e.appendBytes key) e)
        (items ++ deletes.map Item.bytes) := by
    intro deletes
    induction deletes with
    | nil => intro e items h; simpa using h
    | cons key rest ih =>
      intro e items h
      have next := ih _ _ (h.appendBytes key)
      rwa [List.append_assoc] at next
  exact (loop deletes .new [] .new).finish

theorem opsEncode (ops : OpsTxData) : Encodes (opsRlp ops) (opsItem ops) :=
  (((((Holds.new.appendRaw (eachEncodes createEncodes ops.creates)).appendRaw
    (eachEncodes updateEncodes ops.updates)).appendRaw (deletesEncode ops.deletes)).appendRaw
    (eachEncodes extensionEncodes ops.extensions)).appendRaw
    (eachEncodes ownershipEncodes ops.ownershipChanges)).finish

theorem intRead (n : Nat) : readInt (intItem n) = some n := by
  rw [intItem,readInt,if_pos (Rlp.bytesMinimal n),Rlp.valueBytes]

theorem listRead {α β : Type} {read : Item → Option β} {item : α → Item} {value : α → β} (all : List α)
    (reads : ∀ a ∈ all, read (item a) = some (value a)) :
    readList read (.list (all.map item)) = some (all.map value) := by
  induction all with
  | nil => rfl
  | cons a rest ih =>
    have tail : (rest.map item).mapM read = some (rest.map value) :=
      ih fun b later => reads b (List.mem_cons_of_mem a later)
    show ((a::rest).map item).mapM read = _
    rw [List.map_cons,List.mapM_cons,reads a (List.mem_cons_self ..)]
    simp only [Option.bind_eq_bind,Option.bind_some,tail]
    rfl

theorem stringsRead (attrs : List Attribute) :
    readList readStringPair (attributeItem attrs false) = some (strings attrs) :=
  listRead _ fun _ _ => rfl

theorem numbersRead (attrs : List Attribute) :
    readList readNumberPair (attributeItem attrs true) = some (numbers attrs) := by
  apply listRead
  intro a _
  have bound : a.numericValue.toUInt64.toNat < 2 ^ 64 := UInt64.toNat_lt _
  have back : (UInt64.ofNat a.numericValue.toUInt64.toNat).toInt64 = a.numericValue := by simp
  show readNumberPair (numberPairItem a) = some (a.key,a.numericValue)
  simp only [numberPairItem,readNumberPair,readString,intRead,Option.bind_eq_bind,Option.bind_some,
    if_pos bound,back]

theorem createRead (c : CreateOp) : readCreate (createItem c) =
    some ⟨(secondsToBlocks c.expiresInSeconds).toNat,c.contentType,c.payload,strings c.attributes,
      numbers c.attributes⟩ := by
  simp [createItem,readCreate,blocksItem,intRead,readString,stringsRead,numbersRead]

theorem updateRead (u : UpdateOp) : readUpdate (updateItem u) =
    some ⟨u.entityKey,u.contentType,(secondsToBlocks u.expiresInSeconds).toNat,u.payload,
      strings u.attributes,numbers u.attributes⟩ := by
  simp [updateItem,readUpdate,blocksItem,intRead,readString,stringsRead,numbersRead]

theorem extensionRead (e : ExtensionOp) : readExtension (extensionItem e) =
    some (e.entityKey,(secondsToBlocks e.expiresInSeconds).toNat) := by
  simp [extensionItem,readExtension,blocksItem,intRead,readString]

theorem opsRead (ops : OpsTxData) :
    readOps (opsItem ops) = some (view (fun s => (secondsToBlocks s).toNat) ops) := by
  have creates := listRead ops.creates (fun c _ => createRead c)
  have updates := listRead ops.updates (fun u _ => updateRead u)
  have deletes : readList readString (.list (ops.deletes.map Item.bytes)) = some (ops.deletes.map id) :=
    listRead ops.deletes fun _ _ => rfl
  have extensions := listRead ops.extensions (fun e _ => extensionRead e)
  have ownership : readList readStringPair (.list (ops.ownershipChanges.map ownershipItem)) =
      some (ops.ownershipChanges.map fun o => (o.entityKey,o.newOwner)) :=
    listRead ops.ownershipChanges fun _ _ => rfl
  rw [List.map_id] at deletes
  simp [opsItem,readOps,creates,updates,deletes,extensions,ownership,view]

theorem opsDecoded {ops : OpsTxData} (held : Held (opsRlp ops)) :
    decodeOps (buildOpsTxData ops) = some (view (fun s => (secondsToBlocks s).toNat) ops) := by
  have stream : brotliDecode (buildOpsTxData ops) = some (opsRlp ops,[]) := storeRead _
  simp [decodeOps,stream,decodesItem (opsEncode ops) held,opsRead]

def lastSecond : UInt32 := 0xFFFFFFFF

theorem blocksCeil (seconds : UInt32) :
    (secondsToBlocks seconds).toNat = ceilBlocks seconds ↔ seconds ≠ lastSecond := by
  have bound := seconds.toNat_lt
  have value : (secondsToBlocks seconds).toNat = (seconds.toNat + 1) % 2^32 / 2 := by
    have two : (2 : UInt32).toNat = 2 := rfl
    have one : (1 : UInt32).toNat = 1 := rfl
    have sum : seconds + blockTimeSeconds - 1 = seconds + 1 := by
      show seconds + 2 - 1 = seconds + 1
      rw [show (2 : UInt32) = 1 + 1 from rfl,← UInt32.add_assoc,UInt32.add_sub_cancel]
    show ((seconds + blockTimeSeconds - 1) / 2).toNat = _
    rw [sum,UInt32.toNat_div,UInt32.toNat_add,two,one]
  have last : seconds = lastSecond ↔ seconds.toNat = 4294967295 := by
    rw [← UInt32.toNat_inj]
    rfl
  rw [value,ceilBlocks,Ne,last]
  omega

theorem viewSame (f g : UInt32 → Nat) (ops : OpsTxData) :
    view f ops = view g ops ↔ ∀ s ∈ lifetimes ops, f s = g s := by
  simp only [view,OpsView.mk.injEq,List.map_inj_left,CreateView.mk.injEq,UpdateView.mk.injEq,Prod.mk.injEq,
    lifetimes,List.mem_append,List.mem_map,true_and,and_true]
  constructor
  · rintro ⟨creates,updates,extensions⟩ s ((⟨c,there,rfl⟩ | ⟨u,there,rfl⟩) | ⟨e,there,rfl⟩)
    · exact creates c there
    · exact updates u there
    · exact extensions e there
  · intro all
    exact ⟨fun c there => all _ (.inl (.inl ⟨c,there,rfl⟩)),
      fun u there => all _ (.inl (.inr ⟨u,there,rfl⟩)),fun e there => all _ (.inr ⟨e,there,rfl⟩)⟩

theorem txFieldsHold (tx : LegacyTx) : Holds (encodeTxFields .new tx)
    [intItem tx.nonce.toNat,intItem tx.gasPriceWei.toNat,intItem tx.gasLimit.toNat,.bytes tx.to_,
      intItem tx.valueWei.toNat,.bytes tx.data] :=
  (((((Holds.new.appendUint tx.nonce).appendUint tx.gasPriceWei).appendUint tx.gasLimit).appendBytes
    tx.to_).appendUint tx.valueWei).appendBytes tx.data

theorem preimageEncodes (tx : LegacyTx) : Encodes (preimage tx) (txItem tx tx.chainId.toNat 0 0) :=
  ((((txFieldsHold tx).appendUint tx.chainId).appendUint 0).appendUint 0).finish

def signedR (s : Signature) : Nat := Rlp.beValue (s.sig.take 32)
def signedS (s : Signature) : Nat := Rlp.beValue (s.sig.drop 32)

theorem txRead (tx : LegacyTx) (v r s : Nat) : readTx (txItem tx v r s) = some (txView tx v r s) := by
  simp [txItem,readTx,intRead,readString,txView]

theorem preimageDecoded {tx : LegacyTx} (held : Held (preimage tx)) :
    decodeTx (preimage tx) = some (txView tx tx.chainId.toNat 0 0) := by
  simp [decodeTx,decodesItem (preimageEncodes tx) held,txRead]

section Signed
variable (keccak256 : Bytes → Bytes) (signRecoverable : Bytes → Bytes → Option Signature)

theorem signedDecoded {tx : LegacyTx} {priv : Bytes} {s : Signature}
    (signs : signRecoverable priv (keccak256 (preimage tx)) = some s)
    (held : Held (signLegacyTx keccak256 signRecoverable tx priv)) :
    decodeTx (signLegacyTx keccak256 signRecoverable tx priv) =
      some (txView tx (eip155 tx.chainId s.recid).toNat (signedR s) (signedS s)) := by
  have encodes : Encodes (signLegacyTx keccak256 signRecoverable tx priv)
      (txItem tx (eip155 tx.chainId s.recid).toNat (signedR s) (signedS s)) := by
    have all := ((((txFieldsHold tx).appendUint (eip155 tx.chainId s.recid)).appendBytes
      (stripLeadingZeros (s.sig.take 32))).appendBytes (stripLeadingZeros (s.sig.drop 32))).finish
    simp only [signLegacyTx,signs]
    rw [stripLeadingZeros,stripLeadingZeros,Rlp.stripped,Rlp.stripped] at all
    rw [stripLeadingZeros,stripLeadingZeros,Rlp.stripped,Rlp.stripped]
    exact all
  simp [decodeTx,decodesItem encodes held,txRead]

theorem eip155Value (chainId : UInt64) (recid : Nat) :
    (eip155 chainId recid).toNat = 2*chainId.toNat+35+recid ↔ 2*chainId.toNat+35+recid < 2 ^ 64 := by
  have value : (eip155 chainId recid).toNat = (2*chainId.toNat+35+recid) % 2^64 := by
    have two : (2 : UInt64).toNat = 2 := rfl
    have base : (35 : UInt64).toNat = 35 := rfl
    rw [eip155,UInt64.toNat_add,UInt64.toNat_add,UInt64.toNat_mul,UInt64.toNat_ofNat',two,base]
    omega
  rw [value]
  omega

/-- What the encodings give back, and exactly when. -/
structure Canonical : Prop where
  ops : ∀ ops, Held (opsRlp ops) →
    (decodeOps (buildOpsTxData ops) = some (view ceilBlocks ops) ↔ ∀ s ∈ lifetimes ops, s ≠ lastSecond)
  opsInjective : ∀ a b, Held (opsRlp a) → Held (opsRlp b) → (∀ s ∈ lifetimes a, s ≠ lastSecond) →
    (∀ s ∈ lifetimes b, s ≠ lastSecond) → buildOpsTxData a = buildOpsTxData b →
    view ceilBlocks a = view ceilBlocks b
  preimage : ∀ tx, Held (preimage tx) → decodeTx (preimage tx) = some (txView tx tx.chainId.toNat 0 0)
  preimageInjective : ∀ a b, Held (ArkivOpsTxData.preimage a) → Held (ArkivOpsTxData.preimage b) →
    ArkivOpsTxData.preimage a = ArkivOpsTxData.preimage b → a = b
  signed : ∀ tx priv s, signRecoverable priv (keccak256 (ArkivOpsTxData.preimage tx)) = some s →
    Held (signLegacyTx keccak256 signRecoverable tx priv) →
    (decodeTx (signLegacyTx keccak256 signRecoverable tx priv) =
      some (txView tx (2*tx.chainId.toNat+35+s.recid) (signedR s) (signedS s)) ↔
      2*tx.chainId.toNat+35+s.recid < 2 ^ 64)
  signedInjective : ∀ a b priv priv' s s',
    signRecoverable priv (keccak256 (ArkivOpsTxData.preimage a)) = some s →
    signRecoverable priv' (keccak256 (ArkivOpsTxData.preimage b)) = some s' →
    Held (signLegacyTx keccak256 signRecoverable a priv) →
    2*a.chainId.toNat+35+s.recid < 2 ^ 64 → 2*b.chainId.toNat+35+s'.recid < 2 ^ 64 →
    signLegacyTx keccak256 signRecoverable a priv = signLegacyTx keccak256 signRecoverable b priv' →
    txView a (2*a.chainId.toNat+35+s.recid) (signedR s) (signedS s) =
      txView b (2*b.chainId.toNat+35+s'.recid) (signedR s') (signedS s')

theorem opsLossless {ops : OpsTxData} (held : Held (opsRlp ops)) :
    decodeOps (buildOpsTxData ops) = some (view ceilBlocks ops) ↔ ∀ s ∈ lifetimes ops, s ≠ lastSecond := by
  rw [opsDecoded held,Option.some.injEq,viewSame]
  simp only [blocksCeil]

theorem txViewSame {a b : LegacyTx} {v r s v' r' s' : Nat} (same : txView a v r s = txView b v' r' s') :
    { a with chainId := 0 } = { b with chainId := 0 } ∧ v = v' := by
  simp only [txView,TxView.mk.injEq,UInt64.toNat_inj] at same
  obtain ⟨nonce,gasPrice,gasLimit,to_,value,data,v,-,-⟩ := same
  simp only [LegacyTx.mk.injEq]
  exact ⟨⟨nonce,gasPrice,gasLimit,to_,value,data,trivial⟩,v⟩

theorem canonical : Canonical keccak256 signRecoverable where
  ops _ held := opsLossless held
  opsInjective a b heldA heldB inA inB same := by
    have fromA := (opsLossless heldA).mpr inA
    rw [same,(opsLossless heldB).mpr inB] at fromA
    exact (Option.some.inj fromA).symm
  preimage _ held := preimageDecoded held
  preimageInjective a b heldA heldB same := by
    have fromA := preimageDecoded heldA
    rw [same,preimageDecoded heldB] at fromA
    obtain ⟨fields,chain⟩ := txViewSame (Option.some.inj fromA)
    cases a
    cases b
    simp only [LegacyTx.mk.injEq,UInt64.toNat_inj] at fields chain ⊢
    exact ⟨fields.1.symm,fields.2.1.symm,fields.2.2.1.symm,fields.2.2.2.1.symm,fields.2.2.2.2.1.symm,
      fields.2.2.2.2.2.1.symm,chain.symm⟩
  signed tx priv s signs held := by
    rw [signedDecoded keccak256 signRecoverable signs held,Option.some.injEq,← eip155Value]
    constructor
    · intro same
      exact (txViewSame same).2
    · intro same
      rw [same]
  signedInjective a b priv priv' s s' signs signs' held fitsA fitsB same := by
    have fromA := signedDecoded keccak256 signRecoverable signs held
    rw [same] at held fromA
    rw [signedDecoded keccak256 signRecoverable signs' held,(eip155Value ..).mpr fitsA,
      (eip155Value ..).mpr fitsB] at fromA
    exact (Option.some.inj fromA).symm

end Signed

def oneExtension (seconds : UInt32) : OpsTxData := ⟨[],[],[],[⟨List.replicate 32 7,seconds⟩],[]⟩

theorem lastSecondLost :
    decodeOps (buildOpsTxData (oneExtension lastSecond)) ≠ some (view ceilBlocks (oneExtension lastSecond)) := by
  have held : Held (opsRlp (oneExtension lastSecond)) := by decide
  intro whole
  exact (opsLossless held).mp whole lastSecond (List.mem_singleton.mpr rfl) rfl

end Web3PiUps.ArkivOpsTxData
