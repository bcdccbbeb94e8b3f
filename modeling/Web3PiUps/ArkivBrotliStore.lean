import Web3PiUps.Lib.LsbBits

/-! The stored-block Brotli writer of the chain payloads, and the decoder of the
stream format cut down to what a stored stream uses: the window size, the
header of an uncompressed meta-block and the empty last meta-block. -/
namespace Web3PiUps.ArkivBrotliStore
open LsbBits

structure BitWriter where
  buf : List UInt8
  cur : UInt8
  bitsInCur : Nat

namespace BitWriter

def flushByte (bw : BitWriter) : BitWriter := ⟨bw.buf ++ [bw.cur],0,0⟩

def writeBit (bw : BitWriter) (b : UInt32) : BitWriter :=
  let cur := bw.cur ||| ((b &&& 1) <<< UInt32.ofNat bw.bitsInCur).toUInt8
  let bw := { bw with cur, bitsInCur := bw.bitsInCur+1 }
  if bw.bitsInCur = 8 then bw.flushByte else bw

def writeBits (bw : BitWriter) (value : UInt32) (n : Nat) : BitWriter :=
  (List.range n).foldl (fun bw i => bw.writeBit ((value >>> UInt32.ofNat i) &&& 1)) bw

def alignToByte (bw : BitWriter) : BitWriter :=
  if bw.bitsInCur ≠ 0 then bw.flushByte else bw

end BitWriter

def writeUncompressedChunk (bw : BitWriter) (data : List UInt8) : BitWriter :=
  let bw := bw.writeBit 0
  let bw := bw.writeBits 0 2
  let bw := bw.writeBits (UInt32.ofNat (data.length-1)) 16
  let bw := bw.writeBit 1
  let bw := bw.alignToByte
  { bw with buf := bw.buf ++ data }

def kMaxChunk : Nat := 65536

def writeChunks (input : List UInt8) (offset : Nat) (bw : BitWriter) : BitWriter :=
  if offset < input.length then
    let remaining := input.length - offset
    let chunk := if remaining > kMaxChunk then kMaxChunk else remaining
    writeChunks input (offset+chunk) (writeUncompressedChunk bw ((input.drop offset).take chunk))
  else bw
termination_by input.length - offset
decreasing_by
  by_cases large : input.length - offset > kMaxChunk
  · simp only [large,dite_true]
    simp only [kMaxChunk] at large ⊢
    omega
  · simp only [large,dite_false]
    omega

def writeLast (bw : BitWriter) : BitWriter :=
  let bw := bw.writeBit 1
  let bw := bw.writeBit 1
  bw.alignToByte

def brotliStoreEncode (input : List UInt8) : List UInt8 :=
  let bw : BitWriter := ⟨[],0,0⟩
  let bw := bw.writeBit 0
  if input.isEmpty then (writeLast bw).buf
  else (writeLast (writeChunks input 0 bw)).buf

/-- The window size in front of the stream, 10 to 24. -/
def windowBits (bits : List Bool) : Option (Nat × List Bool) := do
  let (large,bits) ← takeField 1 bits
  if large = 0 then some (16,bits)
  else
    let (n,bits) ← takeField 3 bits
    if n ≠ 0 then some (17+n,bits)
    else
      let (m,bits) ← takeField 3 bits
      if m = 0 then some (17,bits)
      else if m = 1 then none
      else some (8+m,bits)

/-- MLEN. A length in more nibbles than it needs is rejected. -/
def metaLength (bits : List Bool) : Option (Nat × List Bool) := do
  let (mnibbles,bits) ← takeField 2 bits
  if mnibbles = 3 then none
  else
    let nibbles := 4+mnibbles
    let (lessOne,bits) ← takeField (4*nibbles) bits
    if nibbles > 4 ∧ lessOne < 2 ^ (4*(nibbles-1)) then none
    else some (lessOne+1,bits)

inductive MetaBlock where
  | lastEmpty (bits : List Bool)
  | stored (data : List UInt8) (bits : List Bool)

def metaBlock (bits : List Bool) : Option MetaBlock := do
  let (isLast,bits) ← takeField 1 bits
  if isLast = 1 then
    let (isLastEmpty,bits) ← takeField 1 bits
    if isLastEmpty = 1 then
      let bits ← takePadding bits
      some (.lastEmpty bits)
    else none
  else
    let (mlen,bits) ← metaLength bits
    let (isUncompressed,bits) ← takeField 1 bits
    if isUncompressed = 1 then
      let bits ← takePadding bits
      let (data,bits) ← takeBytes mlen bits
      some (.stored data bits)
    else none

def metaBlocks : Nat → List Bool → Option (List UInt8 × List Bool)
  | 0, _ => none
  | fuel+1, bits => do
    match ← metaBlock bits with
    | .lastEmpty bits => some ([],bits)
    | .stored data bits =>
      let (rest,bits) ← metaBlocks fuel bits
      some (data ++ rest,bits)

/-- The bytes of a stream and the bits after it. Every meta-block takes bits,
so that there are fewer of them than bits. -/
def brotliDecode (stream : List UInt8) : Option (List UInt8 × List Bool) := do
  let bits := bitsOf stream
  let (_,bits) ← windowBits bits
  metaBlocks (bits.length+1) bits

namespace BitWriter

/-- The bits written so far. -/
def bits (bw : BitWriter) : List Bool := bitsOf bw.buf ++ lowBits bw.bitsInCur bw.cur.toNat

structure Pending (bw : BitWriter) : Prop where
  short : bw.bitsInCur < 8
  clean : bw.cur.toNat < 2 ^ bw.bitsInCur

theorem curSet (cur : UInt8) (b : UInt32) (k : Nat) (short : k < 8) :
    (cur ||| ((b &&& 1) <<< UInt32.ofNat k).toUInt8).toNat = cur.toNat ||| (b.toNat % 2) <<< k := by
  have shift : (UInt32.ofNat k).toNat % 32 = k := by
    rw [UInt32.toNat_ofNat']
    omega
  have bit : (b &&& 1).toNat = b.toNat % 2 := by
    rw [UInt32.toNat_and,UInt32.toNat_one,Nat.and_one_is_mod]
  have inByte : (b.toNat % 2) <<< k < 2 ^ 8 := by
    rw [Nat.shiftLeft_eq]
    calc b.toNat % 2 * 2 ^ k ≤ 1 * 2 ^ 7 :=
          Nat.mul_le_mul (by omega) (Nat.pow_le_pow_right (by decide) (by omega))
      _ < 2 ^ 8 := by decide
  rw [UInt8.toNat_or,UInt32.toNat_toUInt8,UInt32.toNat_shiftLeft,shift,bit,
    Nat.mod_eq_of_lt (Nat.lt_trans inByte (by decide)),Nat.mod_eq_of_lt inByte]

theorem bitWritten {bw : BitWriter} (pending : bw.Pending) (b : UInt32) :
    (bw.writeBit b).bits = bw.bits ++ [b.toNat.testBit 0] ∧ (bw.writeBit b).Pending := by
  obtain ⟨short,clean⟩ := pending
  have cur := curSet bw.cur b bw.bitsInCur short
  have low : (b.toNat % 2).testBit 0 = b.toNat.testBit 0 := by simp [Nat.testBit_zero]
  have written := lowBitsSet bw.cur.toNat (b.toNat % 2) bw.bitsInCur clean
  rw [low,← cur] at written
  by_cases full : bw.bitsInCur + 1 = 8
  · have flushed : bw.writeBit b =
        ⟨bw.buf ++ [bw.cur ||| ((b &&& 1) <<< UInt32.ofNat bw.bitsInCur).toUInt8],0,0⟩ := by
      simp [writeBit,full,flushByte]
    rw [full] at written
    rw [flushed]
    refine ⟨?_,⟨by simp,by simp⟩⟩
    simp only [bits,bitsOfAppend,bitsOfSingle,written,lowBitsNone,List.append_nil,List.append_assoc]
  · have kept : bw.writeBit b =
        ⟨bw.buf,bw.cur ||| ((b &&& 1) <<< UInt32.ofNat bw.bitsInCur).toUInt8,bw.bitsInCur+1⟩ := by
      simp [writeBit,full]
    rw [kept]
    refine ⟨by simp only [bits,written,List.append_assoc],⟨by simp only []; omega,?_⟩⟩
    simp only [cur]
    exact pendingSet bw.cur.toNat (b.toNat % 2) bw.bitsInCur clean (by omega)

theorem bitsWritten {bw : BitWriter} (pending : bw.Pending) (value : UInt32) (n : Nat)
    (inWord : n ≤ 32) :
    (bw.writeBits value n).bits = bw.bits ++ lowBits n value.toNat ∧
      (bw.writeBits value n).Pending := by
  induction n with
  | zero => exact ⟨by simp [writeBits,lowBits],pending⟩
  | succ n ih =>
    obtain ⟨before,still⟩ := ih (by omega)
    have one : bw.writeBits value (n+1) =
        (bw.writeBits value n).writeBit ((value >>> UInt32.ofNat n) &&& 1) := by
      simp [writeBits,List.range_succ]
    have bit : ((value >>> UInt32.ofNat n) &&& 1).toNat.testBit 0 = value.toNat.testBit n := by
      have shift : (UInt32.ofNat n).toNat % 32 = n := by
        rw [UInt32.toNat_ofNat']
        omega
      rw [UInt32.toNat_and,UInt32.toNat_shiftRight,shift]
      simp
    obtain ⟨written,pends⟩ := bitWritten still ((value >>> UInt32.ofNat n) &&& 1)
    rw [one]
    exact ⟨by rw [written,before,bit,lowBitsSnoc,List.append_assoc],pends⟩

theorem aligned {bw : BitWriter} (pending : bw.Pending) :
    ∃ pad buf, pad < 8 ∧ bw.alignToByte = ⟨buf,0,0⟩ ∧
      bitsOf buf = bw.bits ++ List.replicate pad false := by
  obtain ⟨short,clean⟩ := pending
  by_cases partly : bw.bitsInCur ≠ 0
  · refine ⟨8-bw.bitsInCur,bw.buf ++ [bw.cur],by omega,by simp [alignToByte,partly,flushByte],?_⟩
    have filled := lowBitsPadded bw.cur.toNat bw.bitsInCur clean (by omega)
    simp only [bits,bitsOfAppend,bitsOfSingle,filled,List.append_assoc]
  · have none : bw.bitsInCur = 0 := Decidable.not_not.mp partly
    have empty : bw.cur = 0 := by
      rw [none] at clean
      exact UInt8.toNat_inj.mp (Nat.lt_one_iff.mp clean)
    refine ⟨0,bw.buf,by decide,?_,by simp [bits,none]⟩
    rw [alignToByte,if_neg partly]
    cases bw
    simp_all

end BitWriter

open BitWriter

/-- The bits of one stored meta-block, `pad` zeros before its bytes. -/
def storedBits (pad : Nat) (data : List UInt8) : List Bool :=
  lowBits 1 0 ++ (lowBits 2 0 ++ (lowBits 16 (data.length-1) ++ (lowBits 1 1 ++
    (List.replicate pad false ++ bitsOf data))))

def lastBits (pad : Nat) : List Bool :=
  lowBits 1 1 ++ (lowBits 1 1 ++ List.replicate pad false)

structure FitsChunk (data : List UInt8) : Prop where
  some : 0 < data.length
  most : data.length ≤ kMaxChunk

theorem chunkWritten {bw : BitWriter} (pending : bw.Pending) {data : List UInt8}
    (fits : FitsChunk data) :
    ∃ pad buf, pad < 8 ∧ writeUncompressedChunk bw data = ⟨buf,0,0⟩ ∧
      bitsOf buf = bw.bits ++ storedBits pad data := by
  have lengthKept : (UInt32.ofNat (data.length-1)).toNat = data.length-1 := by
    have most : data.length ≤ 65536 := fits.most
    rw [UInt32.toNat_ofNat']
    omega
  obtain ⟨isLast,h1⟩ := bitWritten pending 0
  obtain ⟨mnibbles,h2⟩ := bitsWritten h1 0 2 (by decide)
  obtain ⟨mlen,h3⟩ := bitsWritten h2 (UInt32.ofNat (data.length-1)) 16 (by decide)
  obtain ⟨isUncompressed,h4⟩ := bitWritten h3 1
  obtain ⟨pad,buf,short,whole,padded⟩ := aligned h4
  refine ⟨pad,buf ++ data,short,by simp only [writeUncompressedChunk,whole],?_⟩
  rw [bitsOfAppend,padded,isUncompressed,mlen,mnibbles,isLast,lengthKept]
  simp [storedBits,lowBits]

theorem lastWritten {bw : BitWriter} (pending : bw.Pending) :
    ∃ pad, pad < 8 ∧ bitsOf (writeLast bw).buf = bw.bits ++ lastBits pad := by
  obtain ⟨isLast,h1⟩ := bitWritten pending 1
  obtain ⟨isLastEmpty,h2⟩ := bitWritten h1 1
  obtain ⟨pad,buf,short,whole,padded⟩ := aligned h2
  refine ⟨pad,short,?_⟩
  rw [isLastEmpty,isLast] at padded
  simp [writeLast,whole,padded,lastBits,lowBits]

theorem storedRead {pad : Nat} {data : List UInt8} {rest : List Bool} (short : pad < 8)
    (fits : FitsChunk data) (whole : rest.length % 8 = 0) :
    metaBlock (storedBits pad data ++ rest) = some (.stored data rest) := by
  have lessOne : data.length-1 < 2 ^ 16 := by
    have most : data.length ≤ 65536 := fits.most
    omega
  have length : data.length-1+1 = data.length := Nat.sub_add_cancel fits.some
  have afterPad : (bitsOf data ++ rest).length % 8 = 0 := by
    rw [List.length_append,bitsOfLength]
    omega
  simp [metaBlock,metaLength,storedBits,List.append_assoc,
    fieldTaken 1 0 _ (by decide),fieldTaken 2 0 _ (by decide),fieldTaken 1 1 _ (by decide),
    fieldTaken 16 _ _ lessOne,length,paddingTaken pad _ short afterPad,bytesTaken]

theorem lastRead {pad : Nat} (short : pad < 8) :
    metaBlock (lastBits pad) = some (.lastEmpty []) := by
  have padding : takePadding (List.replicate pad false) = some [] := by
    simpa using paddingTaken pad [] short rfl
  simp [metaBlock,lastBits,fieldTaken 1 1 _ (by decide),padding]

/-- By the loop of the writer. Fuel for more meta-blocks than there are bits is
enough, each takes one at least. -/
theorem chunksRead (input : List UInt8) (offset : Nat) (bw : BitWriter) (pending : bw.Pending) :
    ∃ t, bitsOf (writeLast (writeChunks input offset bw)).buf = bw.bits ++ t ∧
      ∀ fuel, t.length < fuel → metaBlocks fuel t = some (input.drop offset,[]) := by
  fun_induction writeChunks input offset bw with
  | case1 offset bw inside remaining chunk ih =>
    have fits : FitsChunk ((input.drop offset).take chunk) := by
      have size : 0 < chunk ∧ chunk ≤ kMaxChunk ∧ chunk ≤ remaining := by
        by_cases large : remaining > kMaxChunk
        · simp only [chunk,large,dite_true]
          exact ⟨by decide,Nat.le_refl _,Nat.le_of_lt large⟩
        · simp only [chunk,large,dite_false]
          exact ⟨Nat.sub_pos_of_lt inside,Nat.le_of_not_lt large,Nat.le_refl _⟩
      have length : ((input.drop offset).take chunk).length = chunk := by
        rw [List.length_take,List.length_drop]
        exact Nat.min_eq_left size.2.2
      exact ⟨by rw [length]; exact size.1,by rw [length]; exact size.2.1⟩
    obtain ⟨pad,buf,short,state,written⟩ := chunkWritten pending fits
    have flushed : (writeUncompressedChunk bw ((input.drop offset).take chunk)).Pending := by
      rw [state]
      exact ⟨by simp,by simp⟩
    obtain ⟨t,bits,read⟩ := ih flushed
    simp only [state,BitWriter.bits,lowBitsNone,List.append_nil] at bits
    have whole : t.length % 8 = 0 := by
      have lengths := congrArg List.length bits
      simp only [bitsOfLength,List.length_append] at lengths
      omega
    refine ⟨storedBits pad ((input.drop offset).take chunk) ++ t,?_,?_⟩
    · rw [state,bits,written,List.append_assoc]
    · intro fuel enough
      cases fuel with
      | zero => cases enough
      | succ fuel =>
        have less : t.length < fuel := by
          simp [storedBits] at enough
          omega
        have rest : (input.drop offset).take chunk ++ input.drop (offset+chunk) =
            input.drop offset := by
          rw [← List.drop_drop,List.take_append_drop]
        simp [metaBlocks,storedRead short fits whole,read fuel less,rest]
  | case2 offset bw ends =>
    obtain ⟨pad,short,written⟩ := lastWritten pending
    refine ⟨lastBits pad,written,?_⟩
    intro fuel enough
    cases fuel with
    | zero => cases enough
    | succ fuel => simp [metaBlocks,lastRead short,List.drop_eq_nil_of_le (Nat.le_of_not_lt ends)]

theorem emptyAsChunks (input : List UInt8) :
    brotliStoreEncode input =
      (writeLast (writeChunks input 0 (BitWriter.writeBit ⟨[],0,0⟩ 0))).buf := by
  cases input with
  | nil => rw [brotliStoreEncode,writeChunks]; rfl
  | cons b rest => rfl

theorem storeRead (x : List UInt8) : brotliDecode (brotliStoreEncode x) = some (x,[]) := by
  have start : BitWriter.Pending ⟨[],0,0⟩ := ⟨by decide,by decide⟩
  obtain ⟨header,pending⟩ := bitWritten start 0
  obtain ⟨t,bits,read⟩ := chunksRead x 0 _ pending
  have stream : bitsOf (brotliStoreEncode x) = lowBits 1 0 ++ t := by
    rw [emptyAsChunks,bits,header]
    rfl
  have window : windowBits (lowBits 1 0 ++ t) = some (16,t) := by
    simp [windowBits,fieldTaken 1 0 _ (by decide)]
  simp [brotliDecode,stream,window,read (t.length+1) (Nat.lt_succ_self _)]

theorem storeDecoded (x : List UInt8) : brotliDecode (brotliStoreEncode x) = some (x,[]) := storeRead x

example : brotliStoreEncode [] = [6] := by decide
example : brotliStoreEncode [104,105] = [16,0,16,104,105,3] := by
  rw [emptyAsChunks,writeChunks,writeChunks]
  rfl

end Web3PiUps.ArkivBrotliStore
