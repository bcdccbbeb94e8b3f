import Mathlib.Algebra.Field.ZMod
import Mathlib.GroupTheory.OrderOfElement
import Mathlib.Tactic.FieldSimp
import Mathlib.Tactic.LinearCombination
import Mathlib.Tactic.Ring

/-! Signatures over a group of prime order: what verification and key recovery compute, and why a
signature that meets the signing equation passes both. -/
namespace Web3PiUps.Ecdsa

/-- Affine coordinates of the elements of a group. The parity of `y` tells an element from its negation. -/
structure Plane (P : Type) [AddCommGroup P] where
  x : P → Nat
  y : P → Nat
  oppositeX (A : P) : x (-A) = x A
  oppositeY {A : P} (twofold : A ≠ -A) : (y A + y (-A)) % 2 = 1
  sameX {A B : P} (a : A ≠ 0) (b : B ≠ 0) (same : x A = x B) : B = A ∨ B = -A

section
variable {P : Type} [AddCommGroup P] (plane : Plane P) (n : Nat) (G : P)

def checkSum (A : P) (e r s : Nat) : P :=
  ((e : ZMod n) * (s : ZMod n)⁻¹).val • G + ((r : ZMod n) * (s : ZMod n)⁻¹).val • A

/-- The verification equation for the public key `A`. -/
structure Verifies (A : P) (e r s : Nat) : Prop where
  rReal : 0 < r ∧ r < n
  sReal : 0 < s ∧ s < n
  finite : checkSum n G A e r s ≠ 0
  abscissa : plane.x (checkSum n G A e r s) % n = r

/-- The public key that recovery takes from a signature: the upper bit of `recid` tells that the
`x` of the nonce's point is not below `n`, the lower one is the parity of its `y`. -/
def Recovers (e r s recid : Nat) (A : P) : Prop :=
  ∃ R, R ≠ 0 ∧ plane.x R = r + n*(recid/2) ∧ plane.y R % 2 = recid % 2 ∧
    A = ((s : ZMod n) * (r : ZMod n)⁻¹).val • R + (-(e : ZMod n) * (r : ZMod n)⁻¹).val • G

/-- What the signer solves for `s`: `s = k⁻¹(e+rd)`, with the nonce `k` and the private key `d`. -/
structure Signing (k d e r s : Nat) : Prop where
  kReal : 0 < k ∧ k < n
  rReal : 0 < r ∧ r < n
  sReal : 0 < s ∧ s < n
  equation : (s * k : ZMod n) = e + r * d

variable {plane n G}

theorem castReal {a : Nat} (aReal : 0 < a ∧ a < n) : (a : ZMod n) ≠ 0 := by
  intro zero
  have divides := (ZMod.natCast_eq_zero_iff a n).mp zero
  have le := Nat.le_of_dvd aReal.1 divides
  omega

/-- The other sign of the nonce goes with the other sign of `s`. -/
theorem signingFlipped {k d e r s : Nat} (signing : Signing n k d e r s) : Signing n (n-k) d e r (n-s) where
  kReal := by
    have := signing.kReal
    omega
  rReal := signing.rReal
  sReal := by
    have := signing.sReal
    omega
  equation := by
    rw [Nat.cast_sub signing.sReal.2.le,Nat.cast_sub signing.kReal.2.le,ZMod.natCast_self,zero_sub,zero_sub,neg_mul_neg]
    exact signing.equation

section Order
variable (order : n • G = 0)
include order

theorem scalars {a b : Nat} (same : (a : ZMod n) = b) : a • G = b • G := by
  have equal := (ZMod.natCast_eq_natCast_iff a b n).mp same
  exact nsmul_eq_nsmul_iff_modEq.mpr (equal.of_dvd (addOrderOf_dvd_of_nsmul_eq_zero order))

theorem opposite {k : Nat} (le : k ≤ n) : (n-k) • G = -(k • G) := by
  rw [eq_neg_iff_add_eq_zero,← add_nsmul,Nat.sub_add_cancel le,order]

variable [Fact n.Prime] {k d e r s : Nat}

theorem checkSumNonce (signing : Signing n k d e r s) : checkSum n G (d • G) e r s = k • G := by
  have sCast := castReal signing.sReal
  rw [checkSum,← mul_nsmul',← add_nsmul]
  apply scalars order
  push_cast
  rw [ZMod.natCast_zmod_val,ZMod.natCast_zmod_val]
  field_simp
  linear_combination -signing.equation

theorem recoveredKey (signing : Signing n k d e r s) :
    ((s : ZMod n) * (r : ZMod n)⁻¹).val • k • G + (-(e : ZMod n) * (r : ZMod n)⁻¹).val • G = d • G := by
  have rCast := castReal signing.rReal
  rw [← mul_nsmul',← add_nsmul]
  apply scalars order
  push_cast
  rw [ZMod.natCast_zmod_val,ZMod.natCast_zmod_val]
  field_simp
  linear_combination signing.equation

variable (real : G ≠ 0)
include real

theorem multipleReal (kReal : 0 < k ∧ k < n) : k • G ≠ 0 := by
  intro zero
  have divides := addOrderOf_dvd_of_nsmul_eq_zero zero
  rw [addOrderOf_eq_prime order real] at divides
  have le := Nat.le_of_dvd kReal.1 divides
  omega

theorem multipleApart (odd : n % 2 = 1) (kReal : 0 < k ∧ k < n) : k • G ≠ -(k • G) := by
  intro same
  have twice : (2*k) • G = 0 := by
    rw [two_mul,add_nsmul]
    exact eq_neg_iff_add_eq_zero.mp same
  have divides := addOrderOf_dvd_of_nsmul_eq_zero twice
  rw [addOrderOf_eq_prime order real] at divides
  have coprime : Nat.Coprime n 2 := (Nat.odd_iff.mpr odd).coprime_two_right
  have le := Nat.le_of_dvd kReal.1 (coprime.dvd_of_dvd_mul_left divides)
  omega

theorem signatureVerifies (signing : Signing n k d e r s) (abscissa : plane.x (k • G) % n = r) :
    Verifies plane n G (d • G) e r s where
  rReal := signing.rReal
  sReal := signing.sReal
  finite := by
    rw [checkSumNonce order signing]
    exact multipleReal order real signing.kReal
  abscissa := by rwa [checkSumNonce order signing]

theorem signatureRecovers {recid : Nat} (signing : Signing n k d e r s) (abscissa : plane.x (k • G) = r + n*(recid/2))
    (parity : plane.y (k • G) % 2 = recid % 2) (A : P) : Recovers plane n G e r s recid A ↔ A = d • G := by
  have there := multipleReal order real signing.kReal
  constructor
  · intro ⟨R,finite,same,even,key⟩
    -- the same `x` leaves the point and its negation, which have different parities
    have nonce : R = k • G := by
      rcases plane.sameX there finite (abscissa.trans same.symm) with equal | flipped
      · exact equal
      · by_contra apart
        have twofold : k • G ≠ -(k • G) := fun own => apart (flipped.trans own.symm)
        have differ := plane.oppositeY twofold
        rw [← flipped] at differ
        omega
    rw [key,nonce,recoveredKey order signing]
  · intro key
    exact ⟨k • G,there,abscissa,parity,key.trans (recoveredKey order signing).symm⟩

end Order

end

end Web3PiUps.Ecdsa
