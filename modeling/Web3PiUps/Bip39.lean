import Web3PiUps.ArkivClaim
import Web3PiUps.Bip39Words
import Web3PiUps.Lib.BitFields
import Web3PiUps.Lib.DeterministicNonce

/-! `bip39.c` with its checks, and the two renderings of a claim code: the words that the owner is
shown and the packed bytes that are compared. -/
namespace Web3PiUps.Bip39
open WupsProtocol ArkivClaim BitFields
open DeterministicNonce (octets)

abbrev bip39BitsPerWord : Nat := 11
abbrev bip39WordCount : Nat := 2048
abbrev arkivCcWords : Nat := 4
/-- `sizeof(s_cc_words)`. -/
abbrev ccWordsSize : Nat := 96
def blank : UInt8 := 0x20

def wordAt (idx : Nat) : Bytes := letters (bip39Words.getD idx "")

/-- One round of `bip39_words_from_bits`; `out` is what is written before the closing zero. -/
def writeWord (data : Bytes) (outSz : Nat) (out : Bytes) (w : Nat) : Option Bytes :=
  let idx := take11 data (w*bip39BitsPerWord)
  if idx ≥ bip39WordCount then none
  else
    let word := wordAt idx
    let add := word.length + if w > 0 then 1 else 0
    if out.length + add + 1 > outSz then none
    else some (out ++ (if w > 0 then [blank] else []) ++ word)

def bip39WordsFromBits (data : Bytes) (nwords outSz : Nat) : Option Bytes :=
  if nwords = 0 ∨ outSz = 0 then none
  else if data.length*8 < nwords*bip39BitsPerWord then none
  else (List.range nwords).foldlM (writeWord data outSz) []

def setBit (digest out : Bytes) (i : Nat) : Bytes :=
  out.modify (i >>> 3) fun byte => UInt8.ofNat (byte.toNat ||| (bitAt digest i <<< (7 - (i &&& 7))))

def bip39PackTopBits (digest : Bytes) (nbits outLen : Nat) : Option Bytes :=
  let nbytes := (nbits+7)/8
  if nbits = 0 then none
  else if digest.length*8 < nbits ∨ outLen < nbytes then none
  else some ((List.range nbits).foldl (setBit digest) (List.replicate nbytes 0))

/-- What `arkiv_keccak256_finish` leaves. -/
structure Digest where
  bytes : Bytes
  size : bytes.length = 32

/-- The last two calls of `claim_code_regen`. -/
def claimCode (cc : Digest) : Option Bytes := bip39PackTopBits cc.bytes arkivCcBits arkivCcBytes
def claimWords (cc : Digest) : Option Bytes := bip39WordsFromBits cc.bytes arkivCcWords ccWordsSize

def bitOf (data : Bytes) (b : Nat) : Bool := bitAt data b = 1

/-- The first `n` bits alone. -/
def masked (data : Bytes) (n b : Nat) : Bool := decide (b < n) && bitOf data b

theorem bitAtOf (data : Bytes) (b : Nat) : bitAt data b = (bitOf data b).toNat := by
  have small : bitAt data b ≤ 1 := Nat.and_le_right
  rw [bitOf]
  interval_cases bitAt data b <;> rfl

theorem shiftOr (v : Nat) (b : Bool) : (v <<< 1) ||| b.toNat = v*2 + b.toNat := by
  have small : b.toNat < 2^1 := by cases b <;> decide
  rw [← Nat.shiftLeft_add_eq_or_of_lt small,Nat.shiftLeft_eq]

theorem take11Field (data : Bytes) (off : Nat) : take11 data off = field (bitOf data) off 11 := by
  have all (n : Nat) : (List.range n).foldl (fun v i => (v <<< 1) ||| bitAt data (off+i)) 0 = field (bitOf data) off n := by
    induction n with
    | zero => rfl
    | succ n ih => rw [List.range_succ,List.foldl_append,ih,List.foldl_cons,List.foldl_nil,bitAtOf,shiftOr,field]
  exact all 11

/-- The bytes that hold the first `n` bits. -/
def packed (data : Bytes) (n size : Nat) : Bytes :=
  (List.range size).map fun k => UInt8.ofNat (field (masked data n) (8*k) 8)

theorem fieldNext (data : Bytes) (n k : Nat) : field (masked data (n+1)) (8*k) 8 =
    if k = n/8 then field (masked data n) (8*k) 8 ||| ((bitOf data n).toNat <<< (7-n%8)) else field (masked data n) (8*k) 8 := by
  split
  · rename_i here
    refine Nat.eq_of_testBit_eq fun j => ?_
    rw [Nat.testBit_or,fieldTestBit,fieldTestBit,Nat.testBit_shiftLeft,Nat.testBit_bool_toNat]
    by_cases small : j < 8
    · rw [decide_eq_true small,Bool.true_and,Bool.true_and,masked,masked]
      by_cases this : 8*k+(8-1-j) = n
      · have place : j = 7-n%8 := by omega
        rw [this,place]
        simp
      · have before : 8*k+(8-1-j) < n+1 ↔ 8*k+(8-1-j) < n := by omega
        have apart : ¬(j ≥ 7-n%8 ∧ j-(7-n%8) = 0) := by omega
        have clear : (decide (j ≥ 7-n%8) && (decide (j-(7-n%8) = 0) && bitOf data n)) = false := by
          rw [← Bool.and_assoc,← Bool.decide_and,decide_eq_false apart,Bool.false_and]
        rw [clear,Bool.or_false,decide_eq_decide.mpr before]
    · have high : ¬(j ≥ 7-n%8 ∧ j-(7-n%8) = 0) := by omega
      have clear : (decide (j ≥ 7-n%8) && (decide (j-(7-n%8) = 0) && bitOf data n)) = false := by
        rw [← Bool.and_assoc,← Bool.decide_and,decide_eq_false high,Bool.false_and]
      rw [clear,decide_eq_false small]
      rfl
  · rename_i other
    refine fieldSame.mpr fun i small => ?_
    have apart : 8*k+i < n+1 ↔ 8*k+i < n := by omega
    rw [masked,masked,decide_eq_decide.mpr apart]

theorem ofNatOr {a b : Nat} (small : a < 256) : UInt8.ofNat ((UInt8.ofNat a).toNat ||| b) = UInt8.ofNat (a ||| b) := by
  rw [UInt8.toNat_ofNat',Nat.mod_eq_of_lt small]

theorem packedNext (data : Bytes) (n size : Nat) : setBit data (packed data n size) n = packed data (n+1) size := by
  have eighth : n >>> 3 = n/8 := Nat.shiftRight_eq_div_pow n 3
  have within : n &&& 7 = n%8 := Nat.and_two_pow_sub_one_eq_mod n 3
  rw [setBit,eighth,within,bitAtOf]
  apply List.ext_getElem
  · simp [packed]
  · intro k small _
    have bound := fieldLt (masked data n) (8*k) 8
    rw [List.getElem_modify]
    simp only [packed,List.getElem_map,List.getElem_range,fieldNext]
    by_cases here : k = n/8
    · rw [if_pos here.symm,if_pos here,ofNatOr bound]
    · rw [if_neg (Ne.symm here),if_neg here]

theorem packedAll (data : Bytes) (n size : Nat) :
    (List.range n).foldl (setBit data) (List.replicate size 0) = packed data n size := by
  induction n with
  | zero =>
    rw [List.range_zero,List.foldl_nil,packed]
    refine List.ext_getElem (by simp) fun k _ _ => ?_
    have clear : field (masked data 0) (8*k) 8 = 0 := fieldClear fun i _ => rfl
    simp [clear]
  | succ n ih => rw [List.range_succ,List.foldl_append,ih,List.foldl_cons,List.foldl_nil,packedNext]

theorem octetsField (bit : Nat → Bool) (off w : Nat) :
    octets w (field bit off (8*w)) = (List.range w).map fun k => UInt8.ofNat (field bit (off+8*k) 8) := by
  induction w with
  | zero => rfl
  | succ w ih =>
    have last := fieldLt bit (off+8*w) 8
    have parts := fieldSplit bit off (8*w) 8
    have front : field bit off (8*w+8)/256 = field bit off (8*w) := by omega
    have back : UInt8.ofNat (field bit off (8*w+8)) = UInt8.ofNat (field bit (off+8*w) 8) := by
      apply UInt8.toNat_inj.mp
      rw [UInt8.toNat_ofNat',UInt8.toNat_ofNat']
      omega
    rw [Nat.mul_succ,octets,front,back,ih,List.range_succ,List.map_append]
    rfl

/-- As one number, in big endian: the first bits, and zeros behind them. -/
theorem packedOctets (data : Bytes) {n size : Nat} (fits : n ≤ 8*size) :
    packed data n size = octets size (field (bitOf data) 0 n*2^(8*size-n)) := by
  have bits : field (masked data n) 0 (8*size) = field (bitOf data) 0 n*2^(8*size-n) := by
    have parts := fieldSplit (masked data n) 0 n (8*size-n)
    have kept : field (masked data n) 0 n = field (bitOf data) 0 n := by
      refine fieldSame.mpr fun i small => ?_
      rw [masked,Nat.zero_add,decide_eq_true small,Bool.true_and]
    have clear : field (masked data n) (0+n) (8*size-n) = 0 := by
      refine fieldClear fun i _ => ?_
      rw [masked,decide_eq_false (by omega),Bool.false_and]
    rw [Nat.add_sub_cancel' fits,kept,clear] at parts
    exact parts
  rw [← bits,octetsField]
  simp [packed]

/-- `bip39_pack_top_bits` of the earlier model, without its checks. -/
theorem packedModel (data : Bytes) (n : Nat) : ArkivClaim.bip39PackTopBits data n = packed data n ((n+7)/8) := by
  have byte (k m : Nat) (small : m ≤ 8) : (List.range m).foldl (fun byte i =>
      if 8*k+i < n then byte ||| (bitAt data (8*k+i) <<< (7-i)) else byte) 0 = field (masked data n) (8*k) m <<< (8-m) := by
    induction m with
    | zero => simp [field]
    | succ m ih =>
      have next : field (masked data n) (8*k) (m+1) = (field (masked data n) (8*k) m <<< 1) |||
        (masked data n (8*k+m)).toNat := by
        rw [shiftOr,field]
      have place : 8-m = 1+(8-(m+1)) := by omega
      have place_ : 7-m = 8-(m+1) := by omega
      rw [List.range_succ,List.foldl_append,ih (by omega),List.foldl_cons,List.foldl_nil,next,place,Nat.shiftLeft_add,
        bitAtOf,place_,masked]
      split
      · rename_i early
        rw [decide_eq_true early,Bool.true_and,Nat.shiftLeft_or_distrib]
      · rename_i late
        rw [decide_eq_false late,Bool.false_and,Bool.toNat_false,Nat.or_zero]
  rw [ArkivClaim.bip39PackTopBits,packed]
  refine List.map_congr_left fun k _ => ?_
  rw [byte k 8 le_rfl]
  rfl

def shown (data : Bytes) (n : Nat) : Bytes := [blank].intercalate ((List.range n).map fun w => wordAt (take11 data (w*11)))

theorem wordPlain (idx : Nat) : plain (wordAt idx) = true := by
  rw [wordAt,List.getD_eq_getElem?_getD]
  cases found : bip39Words[idx]? with
  | none => decide
  | some word => exact List.all_eq_true.mp wordsPlain _ (List.mem_map_of_mem (List.mem_of_getElem? found))

theorem wordShort (idx : Nat) : (wordAt idx).length ≤ 8 := by
  have whole := wordPlain idx
  rw [plain,Bool.and_eq_true,decide_eq_true_iff] at whole
  exact whole.1

theorem wordUnbroken (idx : Nat) : blank ∉ wordAt idx := by
  have whole := wordPlain idx
  rw [plain,Bool.and_eq_true,List.all_eq_true] at whole
  exact fun mem => absurd (whole.2 blank mem) (by decide)

theorem wordInj {a b : Nat} (small : a < 2048) (small' : b < 2048) (same : wordAt a = wordAt b) : a = b := by
  have a_ : a < (bip39Words.map letters).length := by rwa [List.length_map,wordCount]
  have b_ : b < (bip39Words.map letters).length := by rwa [List.length_map,wordCount]
  refine (@List.Nodup.getElem_inj_iff _ _ wordsNodup a a_ b b_).mp ?_
  rw [List.length_map] at a_ b_
  rw [wordAt,wordAt,List.getD_eq_getElem _ _ a_,List.getD_eq_getElem _ _ b_] at same
  rw [List.getElem_map,List.getElem_map]
  exact same

theorem joinNext {α : Type} (c : α) {ls : List (List α)} (some_ : ls ≠ []) (x : List α) :
    [c].intercalate (ls ++ [x]) = [c].intercalate ls ++ [c] ++ x := by
  induction ls with
  | nil => exact absurd rfl some_
  | cons l ls ih =>
    cases ls with
    | nil => simp
    | cons m ls =>
      have rest := ih (List.cons_ne_nil m ls)
      rw [List.cons_append] at rest
      rw [List.cons_append,List.cons_append,List.intercalate_cons_cons,rest,List.intercalate_cons_cons]
      simp

theorem shownNext (data : Bytes) (n : Nat) :
    shown data (n+1) = shown data n ++ (if n > 0 then [blank] else []) ++ wordAt (take11 data (n*11)) := by
  rw [shown,List.range_succ,List.map_append,List.map_singleton]
  cases n with
  | zero => simp [shown]
  | succ n =>
    have some_ : (List.range (n+1)).map (fun w => wordAt (take11 data (w*11))) ≠ [] := by simp
    rw [joinNext blank some_,if_pos (Nat.succ_pos n),shown]

theorem shownLength (data : Bytes) (n : Nat) : (shown data n).length + (if n > 0 then 1 else 0) ≤ 9*n := by
  induction n with
  | zero => exact Nat.le_refl 0
  | succ n ih =>
    have short := wordShort (take11 data (n*11))
    rw [shownNext,List.length_append,List.length_append,if_pos (Nat.succ_pos n)]
    split_ifs at ih ⊢ <;> simp only [List.length_singleton,List.length_nil] <;> omega

theorem indexSmall (data : Bytes) (off : Nat) : take11 data off < 2048 := by
  rw [take11Field]
  exact fieldLt _ off 11

theorem wordsWritten (data : Bytes) {n outSz : Nat} (fits : 9*n ≤ outSz) :
    (List.range n).foldlM (writeWord data outSz) [] = some (shown data n) := by
  induction n with
  | zero => rfl
  | succ n ih =>
    have size := shownLength data n
    have short := wordShort (take11 data (n*11))
    have index := indexSmall data (n*11)
    have room : ¬(shown data n).length + ((wordAt (take11 data (n*11))).length + if n > 0 then 1 else 0) + 1 > outSz := by
      split_ifs at size ⊢ <;> omega
    rw [List.range_succ,List.foldlM_append,ih (by omega)]
    change (writeWord data outSz (shown data n) n >>= fun out => pure out) = _
    rw [bind_pure,writeWord]
    dsimp only
    rw [if_neg (Nat.not_le.mpr index),if_neg room,shownNext]

theorem shownModel (env : ClaimEnv) (table : env.bip39Words = wordAt) (data : Bytes) (n : Nat) :
    ArkivClaim.bip39WordsFromBits env data n = shown data n := by
  rw [ArkivClaim.bip39WordsFromBits,table]
  rfl

def SameBits (n : Nat) (a b : Bytes) : Prop := ∀ i < n, bitAt a i = bitAt b i

theorem sameBitOf {a b : Bytes} (i : Nat) : bitOf a i = bitOf b i ↔ bitAt a i = bitAt b i := by
  rw [bitAtOf,bitAtOf]
  cases bitOf a i <;> cases bitOf b i <;> decide

theorem shownSame {a b : Bytes} {n : Nat} : shown a n = shown b n ↔ SameBits (11*n) a b := by
  have words : shown a n = shown b n ↔ ∀ w < n, take11 a (w*11) = take11 b (w*11) := by
    constructor
    · intro same w small
      have some_ (data : Bytes) : (List.range n).map (fun w => wordAt (take11 data (w*11))) ≠ [] := by
        rw [ne_eq,List.map_eq_nil_iff,List.range_eq_nil]
        omega
      have whole (data : Bytes) : ∀ word ∈ (List.range n).map (fun w => wordAt (take11 data (w*11))), blank ∉ word :=
        List.forall_mem_map.mpr fun w _ => wordUnbroken _
      have parts := congrArg (List.splitOn blank) same
      rw [shown,shown,List.splitOn_intercalate blank (whole a) (some_ a),
        List.splitOn_intercalate blank (whole b) (some_ b)] at parts
      exact wordInj (indexSmall a _) (indexSmall b _) (List.map_inj_left.mp parts w (List.mem_range.mpr small))
    · intro same
      rw [shown,shown]
      exact congrArg _ (List.map_congr_left fun w mem => by rw [same w (List.mem_range.mp mem)])
  rw [words]
  simp only [take11Field,fieldSame]
  constructor
  · intro same i small
    have place : i/11*11+i%11 = i := by omega
    have here := same (i/11) (by omega) (i%11) (by omega)
    rw [place] at here
    exact (sameBitOf i).mp here
  · exact fun same w small i within => (sameBitOf _).mpr (same _ (by omega))

theorem packedSame {a b : Bytes} {n size : Nat} (fits : n ≤ 8*size) : packed a n size = packed b n size ↔ SameBits n a b := by
  have bytes : packed a n size = packed b n size ↔
      ∀ k < size, field (masked a n) (8*k) 8 = field (masked b n) (8*k) 8 := by
    rw [packed,packed,List.map_inj_left]
    refine ⟨fun same k small => ?_,fun same k mem => by rw [same k (List.mem_range.mp mem)]⟩
    have left := fieldLt (masked a n) (8*k) 8
    have right := fieldLt (masked b n) (8*k) 8
    have here := congrArg UInt8.toNat (same k (List.mem_range.mpr small))
    rw [UInt8.toNat_ofNat',UInt8.toNat_ofNat'] at here
    omega
  rw [bytes]
  simp only [fieldSame]
  constructor
  · intro same i small
    have place : 8*(i/8)+i%8 = i := by omega
    have here := same (i/8) (by omega) (i%8) (by omega)
    rw [place,masked,masked,decide_eq_true small,Bool.true_and,Bool.true_and] at here
    exact (sameBitOf i).mp here
  · intro same k small i within
    rw [masked,masked]
    by_cases early : 8*k+i < n
    · rw [(sameBitOf _).mpr (same _ early)]
    · rw [decide_eq_false early,Bool.false_and,Bool.false_and]

theorem codePacked (cc : Digest) : claimCode cc = some (packed cc.bytes arkivCcBits arkivCcBytes) := by
  have enough : ¬(cc.bytes.length*8 < arkivCcBits ∨ arkivCcBytes < (arkivCcBits+7)/8) := by
    rw [cc.size]
    decide
  rw [claimCode,bip39PackTopBits,if_neg (by decide),if_neg enough]
  exact congrArg some (packedAll cc.bytes arkivCcBits ((arkivCcBits+7)/8))

theorem wordsShown (cc : Digest) : claimWords cc = some (shown cc.bytes arkivCcWords) := by
  have enough : ¬cc.bytes.length*8 < arkivCcWords*bip39BitsPerWord := by
    rw [cc.size]
    decide
  rw [claimWords,bip39WordsFromBits,if_neg (by decide),if_neg enough]
  exact wordsWritten cc.bytes (by decide)

/-- Of `claim_code_regen`, the code is the one that `ArkivClaim` binds. -/
theorem regenCode (env : ClaimEnv) (bootNonce : Bytes) (cc : Digest)
    (digest : cc.bytes = env.keccak256 (env.devicePub ++ bootNonce)) : claimCode cc = some (claimCodeRegen env bootNonce) := by
  rw [codePacked,claimCodeRegen,packedModel,digest]
  rfl

/-- The index of each of the words. -/
def index (cc : Digest) (w : Nat) : Nat := take11 cc.bytes (w*bip39BitsPerWord)

theorem indicesJoin (cc : Digest) : field (bitOf cc.bytes) 0 arkivCcBits =
    ((index cc 0*2^11 + index cc 1)*2^11 + index cc 2)*2^11 + index cc 3 := by
  have first := fieldSplit (bitOf cc.bytes) 0 11 11
  have second := fieldSplit (bitOf cc.bytes) 0 22 11
  have third := fieldSplit (bitOf cc.bytes) 0 33 11
  simp only [index,take11Field]
  rw [third,second,first]
  rfl

theorem claimCodeWords (d e : Digest) :
    (bip39Words.length = bip39WordCount ∧ (bip39Words.map letters).Nodup ∧ ∀ w, index d w < bip39WordCount) ∧
      claimWords d = some ([blank].intercalate ([index d 0,index d 1,index d 2,index d 3].map wordAt)) ∧
      claimCode d = some (octets arkivCcBytes
        ((((index d 0*2^11 + index d 1)*2^11 + index d 2)*2^11 + index d 3)*2^4)) ∧
      (claimWords d = claimWords e ↔ claimCode d = claimCode e) ∧
      (SameBits arkivCcBits d.bytes e.bytes ↔ claimCode d = claimCode e) := by
  have code : claimCode d = claimCode e ↔ SameBits arkivCcBits d.bytes e.bytes := by
    rw [codePacked,codePacked,Option.some_inj]
    exact packedSame (by decide)
  refine ⟨⟨wordCount,wordsNodup,fun w => indexSmall _ _⟩,wordsShown d,?_,?_,code.symm⟩
  · rw [codePacked,packedOctets d.bytes (by decide),indicesJoin]
    rfl
  · rw [code,wordsShown,wordsShown,Option.some_inj]
    exact shownSame

end Web3PiUps.Bip39
