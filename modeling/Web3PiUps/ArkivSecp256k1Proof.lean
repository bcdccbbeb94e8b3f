import Web3PiUps.ArkivSecp256k1
import Web3PiUps.FwSha256
import Web3PiUps.Lib.Primality
import Web3PiUps.Lib.ShortCurve

/-! What the recoverable signatures are worth on the curve itself: the group of its points, its prime
order, and the key that verification and recovery find. -/
namespace Web3PiUps.ArkivSecp256k1
open WupsProtocol DeterministicNonce MicroEcc Primality

/-! The two primes, each with the factors of its predecessor. -/

def linesN : List Line := [
  ⟨631,3,[2,3,3,5,7]⟩,⟨16699,3,[2,3,11,11,23]⟩,⟨2861,2,[2,2,5,11,13]⟩,⟨85831,3,[2,3,5,2861]⟩,⟨2011,3,[2,3,5,67]⟩,
  ⟨4681609,23,[2,2,2,3,97,2011]⟩,⟨107361793816595537,3,[2,2,2,2,16699,85831,4681609]⟩,⟨4051,10,[2,3,3,3,3,5,5]⟩,
  ⟨120233,3,[2,2,2,7,19,113]⟩,⟨797,2,[2,2,199]⟩,⟨9349,2,[2,2,3,19,41]⟩,⟨44706919,6,[2,3,797,9349]⟩,
  ⟨174723607534414371449,3,[2,2,2,17,59,4051,120233,44706919]⟩,⟨2731,3,[2,3,5,7,13]⟩,⟨305873,3,[2,2,2,2,7,2731]⟩,
  ⟨1409,3,[2,2,2,2,2,2,2,11]⟩,⟨28181,2,[2,2,5,1409]⟩,⟨545358713,5,[2,2,2,41,59,28181]⟩,⟨461,2,[2,2,5,23]⟩,
  ⟨1871,14,[2,5,11,17]⟩,⟨1627771,3,[2,3,5,29,1871]⟩,⟨297159362677,2,[2,2,3,3,11,461,1627771]⟩,
  ⟨29047611873442575647497758179,2,[2,293,305873,545358713,297159362677]⟩,
  ⟨341948486974166000522343609283189,2,[2,2,3,3,3,109,29047611873442575647497758179]⟩,
  ⟨curveN,7,[2,2,2,2,2,2,3,149,631,107361793816595537,174723607534414371449,341948486974166000522343609283189]⟩]

def linesP : List Line := [
  ⟨13441,11,[2,2,2,2,2,2,2,3,5,7]⟩,⟨7723,3,[2,3,3,3,11,13]⟩,⟨443,2,[2,13,17]⟩,⟨887,5,[2,443]⟩,⟨5323,5,[2,3,887]⟩,
  ⟨2621,2,[2,2,5,131]⟩,⟨24809,6,[2,2,2,7,443]⟩,⟨971,6,[2,5,97]⟩,⟨1373,2,[2,2,7,7,7]⟩,⟨13331831,13,[2,5,971,1373]⟩,
  ⟨173378833005251801,6,[2,2,2,5,5,2621,24809,13331831]⟩,
  ⟨22149492674086928081353,5,[2,2,2,3,5323,173378833005251801]⟩,
  ⟨132896956044521568488119,6,[2,3,22149492674086928081353]⟩,⟨1627,3,[2,3,271]⟩,⟨2657,3,[2,2,2,2,2,83]⟩,
  ⟨4423,3,[2,3,11,67]⟩,⟨41201,3,[2,2,2,2,5,5,103]⟩,⟨96557,2,[2,2,101,239]⟩,⟨419,2,[2,11,19]⟩,
  ⟨20113,10,[2,2,2,2,3,419]⟩,⟨1206781,10,[2,2,3,5,20113]⟩,⟨7240687,3,[2,3,1206781]⟩,
  ⟨107590001,3,[2,2,2,2,5,5,5,5,7,29,53]⟩,
  ⟨255515944373312847190720520512484175977,3,[2,2,2,7,7,11,1627,2657,4423,41201,96557,7240687,107590001]⟩,
  ⟨205115282021455665897114700593932402728804164701536103180137503955397371,10,
    [2,3,5,29,29,31,7723,132896956044521568488119,255515944373312847190720520512484175977]⟩,
  ⟨curveP,3,[2,3,7,13441,205115282021455665897114700593932402728804164701536103180137503955397371]⟩]

instance curveNPrime : Fact curveN.Prime := ⟨certified (show holds [] linesN = true by decide +kernel) (by simp [linesN])⟩

instance curvePPrime : Fact curveP.Prime := ⟨certified (show holds [] linesP = true by decide +kernel) (by simp [linesP])⟩

abbrev Point : Type := ShortCurve.Pt curveP 7

def plane : Ecdsa.Plane Point := ShortCurve.plane (by decide)

theorem onCurve : (ShortCurve.curve curveP 7).toAffine.Nonsingular (curveG.1 : ZMod curveP) (curveG.2 : ZMod curveP) :=
  ShortCurve.nonsingularNat (by decide +kernel) (by decide +kernel)

def generator : Point := .some _ _ onCurve

theorem generatorReal : generator ≠ 0 := nofun

theorem generatorOrder : curveN • generator = 0 := by
  refine @ShortCurve.orderFromLadder curveP 7 _ curveG.1 curveG.2 255 curveN onCurve ?_ ?_ ?_ ?_ ?_
  all_goals decide +kernel

theorem xBelow (A : Point) : plane.x A < curveP := by
  rcases A with _ | ⟨x,y,on⟩
  · exact curvePPrime.out.pos
  · exact ZMod.val_lt x

theorem xBelow256 (A : Point) : plane.x A < 2^256 := by
  have fits : curveP < 2^256 := by decide
  exact Nat.lt_trans (xBelow A) fits

/-- What is taken for granted of micro-ecc's ladder. -/
def Multiplies (pointMult : Nat × Nat → Nat → Nat × Nat) : Prop :=
  ∀ k, 0 < k → k < curveN → pointMult curveG k = (plane.x (k • generator),plane.y (k • generator))

def hmac (sha256 : Bytes → Bytes32) (key msg : Octets) : Octets := (arkivHmacSha256 sha256 key msg).val

def nonce (sha256 : Bytes → Bytes32) (d z i : Nat) : Nat := candidate (hmac sha256) 32 d z i

def rOf (k : Nat) : Nat := plane.x (k • generator) % curveN

def sOf (d z k : Nat) : ZMod curveN := (k : ZMod curveN)⁻¹ * (z + rOf k * d)

structure Suitable (d z k : Nat) : Prop where
  kReal : 0 < k ∧ k < curveN
  rReal : rOf k ≠ 0
  sReal : sOf d z k ≠ 0

/-- A signature of the digest `e`, with `z` for its reduction, by the key `d` and the nonce `k`. -/
structure Correct (d z e k : Nat) (signed : Signed) : Prop where
  rNonce : signed.r = rOf k
  sNonce : (signed.s : ZMod curveN) = sOf d z k ∨ (signed.s : ZMod curveN) = -sOf d z k
  rReal : 0 < signed.r ∧ signed.r < curveN
  sLow : 0 < signed.s ∧ signed.s ≤ curveN/2
  recidReal : signed.recid < 4
  verifies : Ecdsa.Verifies plane curveN generator (d • generator) e signed.r signed.s
  recovers : ∀ A, Ecdsa.Recovers plane curveN generator e signed.r signed.s signed.recid A ↔ A = d • generator

theorem recidBits (y : Nat) {wrapped : Nat} (bit : wrapped = 0 ∨ wrapped = 1) :
    ((y &&& 1) ||| (wrapped <<< 1)) = y % 2 + 2*wrapped ∧
      (((y &&& 1) ||| (wrapped <<< 1)) ^^^ 1) = 1-y % 2 + 2*wrapped := by
  rw [Nat.and_one_is_mod]
  rcases Nat.mod_two_eq_zero_or_one y with even | odd
  · rcases bit with rfl | rfl <;> rw [even] <;> decide
  · rcases bit with rfl | rfl <;> rw [odd] <;> decide

theorem atLeast {a b : Nat} (aFits : a < 2^256) (bFits : b < 2^256) : 0 ≤ vliCmp a b ↔ b ≤ a := by
  rw [cmpValue aFits bFits]
  split_ifs <;> omega

theorem above {a b : Nat} (aFits : a < 2^256) (bFits : b < 2^256) : 0 < vliCmp a b ↔ b < a := by
  rw [cmpValue aFits bFits]
  split_ifs <;> omega

theorem reducedOnce {a : Nat} (fits : a < 2^256) :
    (if 0 ≤ vliCmp a curveN then (vliSub a curveN).1 else a) = a % curveN ∧
      (if 0 ≤ vliCmp a curveN then 1 else 0) = a/curveN := by
  have twice : 2^256 < 2*curveN := by decide
  have compare := atLeast fits (b := curveN) (by decide)
  by_cases le : curveN ≤ a
  · have once : a/curveN = 1 := Nat.div_eq_of_lt_le (by omega) (by omega)
    rw [if_pos (compare.mpr le),if_pos (compare.mpr le),subExact fits le,Nat.mod_eq_sub_mod le,
      Nat.mod_eq_of_lt (by omega),once]
    exact ⟨rfl,rfl⟩
  · have below : ¬0 ≤ vliCmp a curveN := fun atLeast => le (compare.mp atLeast)
    rw [if_neg below,if_neg below,Nat.mod_eq_of_lt (by omega),Nat.div_eq_of_lt (by omega)]
    exact ⟨rfl,rfl⟩

theorem fits256 (b : Bytes32) : value b.val < 2^256 := by
  have bound := valueBound b.val
  rw [b.property] at bound
  exact bound

theorem digestReduced (b : Bytes32) : bytes32ToScalarModN b = value b.val % curveN :=
  (reducedOnce (fits256 b)).1

theorem scalarCast {d z k : Nat} (dReal : d < curveN) (zReal : z < curveN) (kReal : 0 < k ∧ k < curveN) :
    signScalar d z k (rOf k) < curveN ∧ (signScalar d z k (rOf k) : ZMod curveN) = sOf d z k := by
  have fits : curveN < 2^256 := by decide
  have pos : 0 < curveN := by decide
  have inverse := @modInvValue curveN _ k (by decide) fits kReal.1 kReal.2
  have rReal : rOf k < curveN := Nat.mod_lt _ pos
  have product := modMultValue pos fits (Nat.lt_trans rReal fits) (Nat.lt_trans dReal fits)
  have sum := modAddValue fits zReal (Nat.mod_lt (rOf k*d) pos)
  have quotient := modMultValue pos fits (Nat.lt_trans inverse.1 fits)
    (Nat.lt_trans (Nat.mod_lt (z+rOf k*d % curveN) pos) fits)
  have kInverse : ((vliModInv k curveN (by decide) : Nat) : ZMod curveN) = (k : ZMod curveN)⁻¹ :=
    eq_inv_of_mul_eq_one_left inverse.2
  rw [signScalar,product,sum,quotient,sOf]
  refine ⟨Nat.mod_lt _ pos,?_⟩
  rw [ZMod.natCast_mod,Nat.cast_mul,kInverse,ZMod.natCast_mod,Nat.cast_add,ZMod.natCast_mod,Nat.cast_mul]

def rawRecid (k : Nat) : Nat := (plane.y (k • generator) &&& 1) ||| ((plane.x (k • generator)/curveN) <<< 1)

theorem signWithValue (d z k : Nat) :
    signWith d z k (plane.x (k • generator),plane.y (k • generator)) =
      if vliIsZero (rOf k) then none
      else if vliIsZero (signScalar d z k (rOf k)) then none
      else if 0 < vliCmp (signScalar d z k (rOf k)) (vliRshift1 curveN) then
        some ⟨rOf k,(vliSub curveN (signScalar d z k (rOf k))).1,rawRecid k ^^^ 1⟩
      else some ⟨rOf k,signScalar d z k (rOf k),rawRecid k⟩ := by
  have reduced := reducedOnce (xBelow256 (k • generator))
  rw [signWith,reduced.1,reduced.2]
  rfl

theorem isZero (a : Nat) : vliIsZero a = true ↔ a = 0 := decide_eq_true_iff

theorem rawBits (k : Nat) :
    rawRecid k = plane.y (k • generator) % 2 + 2*(plane.x (k • generator)/curveN) ∧
      (rawRecid k ^^^ 1) = 1-plane.y (k • generator) % 2 + 2*(plane.x (k • generator)/curveN) ∧
      plane.x (k • generator)/curveN < 2 := by
  have twice : 2^256 < curveN*2 := by decide
  have small := Nat.div_lt_of_lt_mul (Nat.lt_trans (xBelow256 (k • generator)) twice)
  have wrapped : plane.x (k • generator)/curveN = 0 ∨ plane.x (k • generator)/curveN = 1 := by
    generalize plane.x (k • generator)/curveN = quotient at small
    omega
  have bits := recidBits (plane.y (k • generator)) wrapped
  exact ⟨bits.1,bits.2,small⟩

variable {pointMult : Nat × Nat → Nat → Nat × Nat} {d z e : Nat} {t : Bytes32}

theorem attemptOutside (outside : value t.val = 0 ∨ curveN ≤ value t.val) : attempt pointMult d z t = none := by
  have refused : vliIsZero (value t.val) ∨ 0 ≤ vliCmp (value t.val) curveN := by
    rw [isZero,atLeast (fits256 t) (by decide)]
    exact outside
  rw [attempt]
  exact if_pos refused

theorem attemptInside (multiplies : Multiplies pointMult) (inside : 0 < value t.val ∧ value t.val < curveN) :
    attempt pointMult d z t =
      signWith d z (value t.val) (plane.x (value t.val • generator),plane.y (value t.val • generator)) := by
  have taken : ¬(vliIsZero (value t.val) ∨ 0 ≤ vliCmp (value t.val) curveN) := by
    rw [isZero,atLeast (fits256 t) (by decide)]
    omega
  rw [attempt,← multiplies _ inside.1 inside.2]
  exact if_neg taken

theorem attemptRefuses (multiplies : Multiplies pointMult) (dReal : d < curveN) (zReal : z < curveN)
    (unsuitable : ¬Suitable d z (value t.val)) : attempt pointMult d z t = none := by
  by_cases inside : 0 < value t.val ∧ value t.val < curveN
  · rw [attemptInside multiplies inside,signWithValue]
    by_cases rZero : vliIsZero (rOf (value t.val)) = true
    · exact if_pos rZero
    by_cases sZero : vliIsZero (signScalar d z (value t.val) (rOf (value t.val))) = true
    · rw [if_neg rZero,if_pos sZero]
    refine absurd ⟨inside,?_,?_⟩ unsuitable
    · exact fun zero => rZero ((isZero _).mpr zero)
    · have scalar := scalarCast dReal zReal inside
      rw [← scalar.2]
      apply Ecdsa.castReal
      rw [isZero] at sZero
      exact ⟨Nat.pos_of_ne_zero sZero,scalar.1⟩
  · exact attemptOutside (by omega)

theorem rawSigning (dReal : d < curveN) (zReal : z < curveN) (same : (z : ZMod curveN) = e) {k : Nat}
    (suitable : Suitable d z k) : Ecdsa.Signing curveN k d e (rOf k) (signScalar d z k (rOf k)) where
  kReal := suitable.kReal
  rReal := ⟨Nat.pos_of_ne_zero suitable.rReal,Nat.mod_lt _ curveNPrime.out.pos⟩
  sReal := by
    have scalar := scalarCast dReal zReal suitable.kReal
    refine ⟨Nat.pos_of_ne_zero fun zero => suitable.sReal ?_,scalar.1⟩
    rw [← scalar.2,zero,Nat.cast_zero]
  equation := by
    have kCast := Ecdsa.castReal suitable.kReal
    rw [(scalarCast dReal zReal suitable.kReal).2,sOf,← same]
    field_simp

/-- Either sign of the nonce gives a signature, with its own parity bit. -/
theorem correctFrom {k k' s recid : Nat} (signing : Ecdsa.Signing curveN k' d e (rOf k) s)
    (sNonce : (s : ZMod curveN) = sOf d z k ∨ (s : ZMod curveN) = -sOf d z k) (low : s ≤ curveN/2)
    (recidReal : recid < 4) (sameX : plane.x (k' • generator) = plane.x (k • generator))
    (upper : recid/2 = plane.x (k • generator)/curveN) (parity : plane.y (k' • generator) % 2 = recid % 2) :
    Correct d z e k ⟨rOf k,s,recid⟩ := by
  have whole := Nat.mod_add_div (plane.x (k • generator)) curveN
  have abscissa : plane.x (k' • generator) = rOf k + curveN*(recid/2) := by
    rw [upper,sameX,rOf,whole]
  have reduced : plane.x (k' • generator) % curveN = rOf k := by rw [sameX,rOf]
  exact {
    rNonce := rfl
    sNonce := sNonce
    rReal := signing.rReal
    sLow := ⟨signing.sReal.1,low⟩
    recidReal := recidReal
    verifies := Ecdsa.signatureVerifies generatorOrder generatorReal signing reduced
    recovers := Ecdsa.signatureRecovers generatorOrder generatorReal signing abscissa parity }

theorem correctLow (dReal : d < curveN) (zReal : z < curveN) (same : (z : ZMod curveN) = e) {k : Nat}
    (suitable : Suitable d z k) (low : signScalar d z k (rOf k) ≤ curveN/2) :
    Correct d z e k ⟨rOf k,signScalar d z k (rOf k),rawRecid k⟩ := by
  have scalar := scalarCast dReal zReal suitable.kReal
  have bits := rawBits k
  exact correctFrom (rawSigning dReal zReal same suitable) (Or.inl scalar.2) low (by omega) rfl (by omega) (by omega)

theorem correctHigh (dReal : d < curveN) (zReal : z < curveN) (same : (z : ZMod curveN) = e) {k : Nat}
    (suitable : Suitable d z k) (high : curveN/2 < signScalar d z k (rOf k)) :
    Correct d z e k ⟨rOf k,curveN-signScalar d z k (rOf k),rawRecid k ^^^ 1⟩ := by
  have raw := rawSigning dReal zReal same suitable
  have scalar := scalarCast dReal zReal suitable.kReal
  have opposite := Ecdsa.opposite generatorOrder suitable.kReal.2.le
  have sameX : plane.x ((curveN-k) • generator) = plane.x (k • generator) := by
    rw [opposite,plane.oppositeX]
  have otherY : (plane.y (k • generator) + plane.y ((curveN-k) • generator)) % 2 = 1 := by
    rw [opposite]
    exact plane.oppositeY (Ecdsa.multipleApart generatorOrder generatorReal (by decide) suitable.kReal)
  have negated : ((curveN-signScalar d z k (rOf k) : Nat) : ZMod curveN) = -sOf d z k := by
    rw [Nat.cast_sub raw.sReal.2.le,ZMod.natCast_self,zero_sub,scalar.2]
  have bits := rawBits k
  exact correctFrom (Ecdsa.signingFlipped raw) (Or.inr negated) (by omega) (by omega) sameX (by omega) (by omega)

theorem attemptSigns (multiplies : Multiplies pointMult) (dReal : d < curveN) (zReal : z < curveN)
    (same : (z : ZMod curveN) = e) (suitable : Suitable d z (value t.val)) :
    ∃ signed, attempt pointMult d z t = some signed ∧ Correct d z e (value t.val) signed := by
  have fits : curveN < 2^256 := by decide
  have halfFits : curveN/2 < 2^256 := by decide
  have signing := rawSigning dReal zReal same suitable
  have half : vliRshift1 curveN = curveN/2 := Nat.shiftRight_one _
  rw [attemptInside multiplies suitable.kReal,signWithValue]
  generalize value t.val = k at *
  have rReal : ¬vliIsZero (rOf k) = true := fun zero => suitable.rReal ((isZero _).mp zero)
  have sReal : ¬vliIsZero (signScalar d z k (rOf k)) = true := fun zero =>
    signing.sReal.1.ne' ((isZero _).mp zero)
  have compare := above (Nat.lt_trans signing.sReal.2 fits) halfFits
  rw [if_neg rReal,if_neg sReal,half]
  by_cases high : curveN/2 < signScalar d z k (rOf k)
  · rw [if_pos (compare.mpr high),subExact fits signing.sReal.2.le]
    exact ⟨_,rfl,correctHigh dReal zReal same suitable high⟩
  · rw [if_neg fun higher => high (compare.mp higher)]
    exact ⟨_,rfl,correctLow dReal zReal same suitable (by omega)⟩

section Loop
variable {sha256 : Bytes → Bytes32}

def Follows (rfc : Rfc6979Ctx) (s : State) : Prop := rfc.K.val = s.key ∧ rfc.V.val = s.value

theorem initFollows (priv : Bytes32) (z : Nat) :
    Follows (rfc6979Init sha256 priv (nativeToBytes z)) (chain (hmac sha256) 32 (value priv.val) z 0) := by
  have key : octets 32 (value priv.val) = priv.val := by
    have kept := octetsValue priv.val
    rw [priv.property] at kept
    exact kept
  simp only [Follows,rfc6979Init,nativeToBytes,chain,seeded,hmac,key,List.append_assoc,List.cons_append,List.nil_append,and_self]

theorem reseedFollows {rfc : Rfc6979Ctx} {s : State} (follows : Follows rfc s) :
    Follows (rfc6979Reseed sha256 (rfc6979NextT sha256 rfc).1) (refused (hmac sha256) s) := by
  simp only [Follows,rfc6979Reseed,rfc6979NextT,refused,hmac,follows.1,follows.2,and_self]

theorem nextTValue {rfc : Rfc6979Ctx} {s : State} (follows : Follows rfc s) :
    (rfc6979NextT sha256 rfc).2.val = hmac sha256 s.key s.value := by
  rw [rfc6979NextT,hmac,follows.1,follows.2]

variable (multiplies : Multiplies pointMult) (dReal : d < curveN) (zReal : z < curveN)
include multiplies dReal zReal

theorem loopExhausts (tries i : Nat) {rfc : Rfc6979Ctx} (follows : Follows rfc (chain (hmac sha256) 32 d z i))
    (none : ∀ j, i ≤ j → j < i+tries → ¬Suitable d z (nonce sha256 d z j)) :
    signLoop sha256 pointMult d z tries rfc = Option.none := by
  induction tries generalizing i rfc with
  | zero => rfl
  | succ tries ih =>
    have offered : value (rfc6979NextT sha256 rfc).2.val = nonce sha256 d z i := by
      rw [nextTValue follows,nonce,candidate]
    have refusal := attemptRefuses multiplies dReal zReal (offered.symm ▸ none i (le_refl i) (by omega))
    rw [signLoop]
    dsimp only
    rw [refusal]
    exact ih (i+1) (reseedFollows follows) fun j low high => none j (by omega) (by omega)

theorem loopSigns (same : (z : ZMod curveN) = e) (tries i : Nat) {rfc : Rfc6979Ctx}
    (follows : Follows rfc (chain (hmac sha256) 32 d z i)) {j : Nat} (low : i ≤ j) (high : j < i+tries)
    (suitable : Suitable d z (nonce sha256 d z j))
    (first : ∀ l, i ≤ l → l < j → ¬Suitable d z (nonce sha256 d z l)) :
    ∃ signed, signLoop sha256 pointMult d z tries rfc = some signed ∧ Correct d z e (nonce sha256 d z j) signed := by
  induction tries generalizing i rfc with
  | zero => omega
  | succ tries ih =>
    have offered : value (rfc6979NextT sha256 rfc).2.val = nonce sha256 d z i := by
      rw [nextTValue follows,nonce,candidate]
    rw [signLoop]
    dsimp only
    rcases Nat.lt_or_eq_of_le low with later | rfl
    · have refusal := attemptRefuses multiplies dReal zReal (offered.symm ▸ first i (le_refl i) later)
      rw [refusal]
      exact ih (i+1) (reseedFollows follows) later (by omega) fun l after => first l (by omega)
    · obtain ⟨signed,taken,correct⟩ := attemptSigns multiplies dReal zReal same (offered.symm ▸ suitable)
      rw [taken]
      exact ⟨signed,rfl,offered ▸ correct⟩

/-- The loop signs with the first suitable candidate, and ends with nothing where there is none. -/
theorem loopEmpty (tries : Nat) {rfc : Rfc6979Ctx} (follows : Follows rfc (chain (hmac sha256) 32 d z 0)) :
    signLoop sha256 pointMult d z tries rfc = none ↔ ∀ i, i < tries → ¬Suitable d z (nonce sha256 d z i) := by
  constructor
  · intro empty i high suitable
    have found : ∃ i, i < tries ∧ Suitable d z (nonce sha256 d z i) := ⟨i,high,suitable⟩
    classical
    have least := Nat.find_spec found
    have first : ∀ l, 0 ≤ l → l < Nat.find found → ¬Suitable d z (nonce sha256 d z l) :=
      fun l _ less unsuited => Nat.find_min found less ⟨by omega,unsuited⟩
    obtain ⟨signed,taken,-⟩ :=
      loopSigns multiplies dReal zReal rfl tries 0 follows (Nat.zero_le _) (by omega) least.2 first
    rw [empty] at taken
    exact nomatch taken
  · intro unsuited
    exact loopExhausts multiplies dReal zReal tries 0 follows fun j _ less => unsuited j (by omega)

end Loop

/-- What the signer answers for a key and a digest. -/
structure Answers (sha256 : Bytes → Bytes32) (priv digest : Bytes32) (answer : Int × Option Bytes) : Prop where
  zeroKey : answer.1 = -1 ↔ value priv.val = 0
  bigKey : answer.1 = -2 ↔ curveN ≤ value priv.val
  exhausted : 0 < value priv.val → value priv.val < curveN →
    (answer.1 = -3 ↔ ∀ i, i < 16 → ¬Suitable (value priv.val) (value digest.val % curveN)
      (nonce sha256 (value priv.val) (value digest.val % curveN) i))
  signs : 0 < value priv.val → value priv.val < curveN → ∀ i, i < 16 →
    Suitable (value priv.val) (value digest.val % curveN) (nonce sha256 (value priv.val) (value digest.val % curveN) i) →
    (∀ j, j < i → ¬Suitable (value priv.val) (value digest.val % curveN)
      (nonce sha256 (value priv.val) (value digest.val % curveN) j)) →
    ∃ signed, answer = ((signed.recid : Int),some (octets 32 signed.r ++ octets 32 signed.s)) ∧
      Correct (value priv.val) (value digest.val % curveN) (value digest.val)
        (nonce sha256 (value priv.val) (value digest.val % curveN) i) signed
  refusal : answer.1 < 0 → answer.2 = none

section Answer
variable {sha256 : Bytes → Bytes32} {priv digest : Bytes32}

theorem answerZero (zero : value priv.val = 0) :
    arkivSecp256k1SignRecoverable sha256 pointMult priv digest = (-1,none) := by
  rw [arkivSecp256k1SignRecoverable]
  exact if_pos ((isZero _).mpr zero)

theorem answerBig (big : curveN ≤ value priv.val) :
    arkivSecp256k1SignRecoverable sha256 pointMult priv digest = (-2,none) := by
  have real : ¬vliIsZero (value priv.val) = true := by
    have pos : 0 < curveN := by decide
    rw [isZero]
    omega
  have compare := (atLeast (fits256 priv) (b := curveN) (by decide)).mpr big
  rw [arkivSecp256k1SignRecoverable]
  exact (if_neg real).trans (if_pos compare)

theorem answerInside (dReal : 0 < value priv.val ∧ value priv.val < curveN) :
    arkivSecp256k1SignRecoverable sha256 pointMult priv digest =
      match signLoop sha256 pointMult (value priv.val) (value digest.val % curveN) 16
          (rfc6979Init sha256 priv (nativeToBytes (value digest.val % curveN))) with
      | none => (-3,none)
      | some signed => (signed.recid,some ((nativeToBytes signed.r).val ++ (nativeToBytes signed.s).val)) := by
  have real : ¬vliIsZero (value priv.val) = true := by
    rw [isZero]
    omega
  have compare : ¬0 ≤ vliCmp (value priv.val) curveN := by
    rw [atLeast (fits256 priv) (by decide)]
    omega
  rw [arkivSecp256k1SignRecoverable,digestReduced]
  exact (if_neg real).trans (if_neg compare)

end Answer

noncomputable def groupMult (_ : Nat × Nat) (k : Nat) : Nat × Nat := (plane.x (k • generator),plane.y (k • generator))

end Web3PiUps.ArkivSecp256k1
