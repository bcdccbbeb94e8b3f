import Web3PiUps.Lib.Ecdsa
import Mathlib.AlgebraicGeometry.EllipticCurve.Affine.Point
import Mathlib.FieldTheory.Finite.Basic

/-! Curves `y² = x³ + b` over a prime field: multiples of a point in Jacobian coordinates over natural
numbers, which the kernel can evaluate, and the group of the curve that they stand for. -/
namespace Web3PiUps.ShortCurve
open WeierstrassCurve

variable (p b : Nat)

def curve : WeierstrassCurve (ZMod p) := ⟨0,0,0,0,b⟩

structure Jac where
  x : Nat
  y : Nat
  z : Nat
  deriving DecidableEq, Repr

def minus (a : Nat) : Nat := p - a % p

def double (j : Jac) : Jac :=
  let yy := j.y*j.y % p
  let d := 4*(j.x*yy) % p
  let e := 3*(j.x*j.x) % p
  let x := (e*e + minus p (2*d)) % p
  ⟨x,(e*(d + minus p x) + minus p (8*(yy*yy))) % p,2*(j.y*j.z) % p⟩

/-- The sum with a point in affine coordinates. -/
def addAffine (gx gy : Nat) (j : Jac) : Jac :=
  let zz := j.z*j.z % p
  let h := (gx*zz + minus p j.x) % p
  let r := (gy*(zz*j.z % p) + minus p j.y) % p
  let hh := h*h % p
  let v := j.x*hh % p
  let x := (r*r + minus p (h*hh + 2*v)) % p
  ⟨x,(r*(v + minus p x) + minus p (j.y*(h*hh % p))) % p,j.z*h % p⟩

/-- The `k`-th multiple, for `0 < k < 2 ^ (fuel+1)`. -/
def multiple (gx gy : Nat) : Nat → Nat → Jac
  | 0, _ => ⟨gx,gy,1⟩
  | fuel+1, k =>
    if k ≤ 1 then ⟨gx,gy,1⟩
    else if k % 2 = 1 then addAffine p gx gy (double p (multiple gx gy fuel (k/2)))
    else double p (multiple gx gy fuel (k/2))

section Field
variable {p b} [Fact p.Prime]

abbrev Pt (p b : Nat) [Fact p.Prime] : Type := (curve p b).toAffine.Point

@[simp] theorem minusCast (a : Nat) : ((minus p a : Nat) : ZMod p) = -a := by
  have below : a % p ≤ p := (Nat.mod_lt a (Fact.out : p.Prime).pos).le
  rw [minus,Nat.cast_sub below,ZMod.natCast_self,ZMod.natCast_mod,zero_sub]

theorem negYEq (x y : ZMod p) : (curve p b).toAffine.negY x y = -y := by simp [curve,Affine.negY]

theorem slopeSelf {x y : ZMod p} (apart : y ≠ -y) :
    (curve p b).toAffine.slope x x y y = 3*x^2/(2*y) := by
  rw [Affine.slope_of_Y_ne rfl (by rwa [negYEq]),negYEq]
  simp [curve]
  ring

theorem slopeApart {x₁ x₂ y₁ y₂ : ZMod p} (apart : x₁ ≠ x₂) :
    (curve p b).toAffine.slope x₁ x₂ y₁ y₂ = (y₁-y₂)/(x₁-x₂) := Affine.slope_of_X_ne apart

theorem addXEq (x₁ x₂ l : ZMod p) : (curve p b).toAffine.addX x₁ x₂ l = l^2-x₁-x₂ := by
  simp [curve,Affine.addX]

theorem addYEq (x₁ x₂ y₁ l : ZMod p) :
    (curve p b).toAffine.addY x₁ x₂ y₁ l = -(l*(l^2-x₁-x₂-x₁)+y₁) := by
  rw [Affine.addY,negYEq,Affine.negAddY,addXEq]

theorem nonsingularNat {gx gy : Nat} (on : gy^2 % p = (gx^3+b) % p) (twofold : 2*gy % p ≠ 0) :
    (curve p b).toAffine.Nonsingular (gx : ZMod p) (gy : ZMod p) := by
  rw [Affine.nonsingular_iff,Affine.equation_iff]
  constructor
  · have cast := (ZMod.natCast_eq_natCast_iff' _ _ p).mpr on
    push_cast at cast
    simp [curve,cast]
  · right
    intro same
    apply twofold
    apply Nat.mod_eq_zero_of_dvd
    rw [← ZMod.natCast_eq_zero_iff]
    simp only [curve,zero_mul,sub_zero] at same
    push_cast
    linear_combination same

/-- The triple stands for the point. -/
def Rep (j : Jac) (P : Pt p b) : Prop :=
  (j.z : ZMod p) ≠ 0 ∧ ∃ h, P = .some ((j.x : ZMod p)/j.z^2) ((j.y : ZMod p)/j.z^3) h

omit [Fact p.Prime] in
theorem sameSome {x y x' y' : ZMod p} (hx : x = x') (hy : y = y') (h : (curve p b).toAffine.Nonsingular x y) :
    ∃ h', Affine.Point.some x y h = .some x' y' h' := by
  subst hx hy
  exact ⟨h,rfl⟩

theorem doubleZ (j : Jac) : ((double p j).z : ZMod p) = 2*(j.y*j.z) := by simp [double]

theorem doubleRep {j : Jac} {P : Pt p b} (rep : Rep j P) (last : ((double p j).z : ZMod p) ≠ 0) :
    Rep (double p j) (P+P) := by
  obtain ⟨z,on,rfl⟩ := rep
  refine ⟨last,?_⟩
  rw [doubleZ] at last
  have two : (2 : ZMod p) ≠ 0 := left_ne_zero_of_mul last
  have y : (j.y : ZMod p) ≠ 0 := left_ne_zero_of_mul (right_ne_zero_of_mul last)
  have apart : (j.y : ZMod p)/j.z^3 ≠ -((j.y : ZMod p)/j.z^3) := by
    intro same
    have twice : 2*((j.y : ZMod p)/j.z^3) = 0 := by linear_combination same
    exact (mul_ne_zero two (div_ne_zero y (pow_ne_zero 3 z))) twice
  rw [Affine.Point.add_self_of_Y_ne (by rwa [negYEq])]
  have hx : (curve p b).toAffine.addX ((j.x : ZMod p)/j.z^2) ((j.x : ZMod p)/j.z^2)
      ((curve p b).toAffine.slope ((j.x : ZMod p)/j.z^2) ((j.x : ZMod p)/j.z^2) ((j.y : ZMod p)/j.z^3) ((j.y : ZMod p)/j.z^3)) =
      ((double p j).x : ZMod p)/((double p j).z : ZMod p)^2 := by
    rw [slopeSelf apart,addXEq,doubleZ]
    simp only [double,ZMod.natCast_mod,Nat.cast_add,Nat.cast_mul,minusCast,Nat.cast_ofNat]
    field_simp
    ring
  have hy : (curve p b).toAffine.addY ((j.x : ZMod p)/j.z^2) ((j.x : ZMod p)/j.z^2) ((j.y : ZMod p)/j.z^3)
      ((curve p b).toAffine.slope ((j.x : ZMod p)/j.z^2) ((j.x : ZMod p)/j.z^2) ((j.y : ZMod p)/j.z^3) ((j.y : ZMod p)/j.z^3)) =
      ((double p j).y : ZMod p)/((double p j).z : ZMod p)^3 := by
    rw [slopeSelf apart,addYEq,doubleZ]
    simp only [double,ZMod.natCast_mod,Nat.cast_add,Nat.cast_mul,minusCast,Nat.cast_ofNat]
    field_simp
    ring
  exact sameSome hx hy _

theorem addZ (gx gy : Nat) (j : Jac) : ((addAffine p gx gy j).z : ZMod p) = j.z*(gx*j.z^2-j.x) := by
  simp only [addAffine,ZMod.natCast_mod,Nat.cast_add,Nat.cast_mul,minusCast]
  ring

theorem addRep {gx gy : Nat} {on : (curve p b).toAffine.Nonsingular (gx : ZMod p) (gy : ZMod p)} {j : Jac} {P : Pt p b}
    (rep : Rep j P) (last : ((addAffine p gx gy j).z : ZMod p) ≠ 0) : Rep (addAffine p gx gy j) (P + .some _ _ on) := by
  obtain ⟨z,on',rfl⟩ := rep
  refine ⟨last,?_⟩
  rw [addZ] at last
  have h : gx*(j.z : ZMod p)^2-j.x ≠ 0 := right_ne_zero_of_mul last
  have h' : (j.x : ZMod p)-gx*(j.z : ZMod p)^2 ≠ 0 := fun zero => h (by linear_combination -zero)
  have apart : (j.x : ZMod p)/j.z^2 ≠ gx := by
    intro same
    rw [div_eq_iff (pow_ne_zero 2 z)] at same
    exact h' (by rw [same,sub_self])
  have slope : (curve p b).toAffine.slope ((j.x : ZMod p)/j.z^2) gx ((j.y : ZMod p)/j.z^3) gy =
      (gy*(j.z : ZMod p)^3-j.y)/(j.z*(gx*(j.z : ZMod p)^2-j.x)) := by
    rw [slopeApart apart,div_eq_div_iff (sub_ne_zero.mpr apart) last]
    field_simp
    ring
  -- the difference of the `x` is one symbol, or the denominators do not cancel
  obtain ⟨d,width⟩ : ∃ d, d = gx*(j.z : ZMod p)^2-j.x := ⟨_,rfl⟩
  have place : (j.x : ZMod p) = gx*(j.z : ZMod p)^2-d := by
    rw [width]
    ring
  rw [Affine.Point.add_of_X_ne apart]
  have hx : (curve p b).toAffine.addX ((j.x : ZMod p)/j.z^2) gx
      ((curve p b).toAffine.slope ((j.x : ZMod p)/j.z^2) gx ((j.y : ZMod p)/j.z^3) gy) =
      ((addAffine p gx gy j).x : ZMod p)/((addAffine p gx gy j).z : ZMod p)^2 := by
    rw [slope,addXEq,addZ]
    simp only [addAffine,ZMod.natCast_mod,Nat.cast_add,Nat.cast_mul,minusCast,Nat.cast_ofNat]
    rw [← width] at h ⊢
    rw [place]
    field_simp
    ring
  have hy : (curve p b).toAffine.addY ((j.x : ZMod p)/j.z^2) gx ((j.y : ZMod p)/j.z^3)
      ((curve p b).toAffine.slope ((j.x : ZMod p)/j.z^2) gx ((j.y : ZMod p)/j.z^3) gy) =
      ((addAffine p gx gy j).y : ZMod p)/((addAffine p gx gy j).z : ZMod p)^3 := by
    rw [slope,addYEq,addZ]
    simp only [addAffine,ZMod.natCast_mod,Nat.cast_add,Nat.cast_mul,minusCast,Nat.cast_ofNat]
    rw [← width] at h ⊢
    rw [place]
    field_simp
    ring
  exact sameSome hx hy _

/-- A triple with `z ≠ 0` has come through no exception, since `z = 0` stays. -/
theorem multipleRep {gx gy : Nat} (on : (curve p b).toAffine.Nonsingular (gx : ZMod p) (gy : ZMod p)) (fuel k : Nat)
    (pos : 0 < k) (enough : k < 2^(fuel+1)) (last : ((multiple p gx gy fuel k).z : ZMod p) ≠ 0) :
    Rep (multiple p gx gy fuel k) (k • (.some _ _ on : Pt p b)) := by
  have base : Rep ⟨gx,gy,1⟩ ((1 : Nat) • (.some _ _ on : Pt p b)) := by
    refine ⟨by simp,?_⟩
    rw [one_nsmul]
    exact sameSome (by simp) (by simp) on
  induction fuel generalizing k with
  | zero =>
    obtain rfl : k = 1 := by omega
    exact base
  | succ fuel ih =>
    rw [multiple] at last ⊢
    by_cases one : k ≤ 1
    · obtain rfl : k = 1 := by omega
      exact base
    · rw [if_neg one] at last ⊢
      have half : k/2 < 2^(fuel+1) := by
        rw [pow_succ] at enough
        omega
      have twice : ∀ j : Jac, ((double p j).z : ZMod p) ≠ 0 → (j.z : ZMod p) ≠ 0 := by
        intro j there
        rw [doubleZ] at there
        exact right_ne_zero_of_mul (right_ne_zero_of_mul there)
      by_cases odd : k % 2 = 1
      · rw [if_pos odd] at last ⊢
        have doubled : ((double p (multiple p gx gy fuel (k/2))).z : ZMod p) ≠ 0 := by
          rw [addZ] at last
          exact left_ne_zero_of_mul last
        have rep := doubleRep (ih (k/2) (by omega) half (twice _ doubled)) doubled
        have whole : k • (.some _ _ on : Pt p b) =
            (k/2) • (.some _ _ on : Pt p b) + (k/2) • (.some _ _ on : Pt p b) + .some _ _ on := by
          rw [← add_nsmul,← succ_nsmul]
          congr 1
          omega
        rw [whole]
        exact addRep rep last
      · rw [if_neg odd] at last ⊢
        have rep := doubleRep (ih (k/2) (by omega) half (twice _ last)) last
        have whole : k • (.some _ _ on : Pt p b) = (k/2) • (.some _ _ on : Pt p b) + (k/2) • (.some _ _ on : Pt p b) := by
          rw [← add_nsmul]
          congr 1
          omega
        rw [whole]
        exact rep

/-- The point that the kernel finds for `n-1` tells that `n` is a multiple of the order. -/
theorem orderFromLadder {gx gy fuel n : Nat} (on : (curve p b).toAffine.Nonsingular (gx : ZMod p) (gy : ZMod p))
    (above : 1 < n) (enough : n ≤ 2^(fuel+1))
    (finite : (multiple p gx gy fuel (n-1)).z % p ≠ 0)
    (sameX : (multiple p gx gy fuel (n-1)).x % p = gx*(multiple p gx gy fuel (n-1)).z^2 % p)
    (oppositeY : ((multiple p gx gy fuel (n-1)).y + gy*(multiple p gx gy fuel (n-1)).z^3) % p = 0) :
    n • (.some _ _ on : Pt p b) = 0 := by
  generalize last : multiple p gx gy fuel (n-1) = j at *
  have zReal : (j.z : ZMod p) ≠ 0 := by
    intro zero
    exact finite (Nat.mod_eq_zero_of_dvd ((ZMod.natCast_eq_zero_iff j.z p).mp zero))
  have rep := multipleRep on fuel (n-1) (by omega) (by omega) (last.symm ▸ zReal)
  rw [last] at rep
  obtain ⟨-,inside,point⟩ := rep
  have x : (j.x : ZMod p)/j.z^2 = gx := by
    have cast := (ZMod.natCast_eq_natCast_iff' _ _ p).mpr sameX
    push_cast at cast
    rw [cast]
    field_simp
  have y : (j.y : ZMod p)/j.z^3 = -gy := by
    have cast := (ZMod.natCast_eq_zero_iff _ p).mpr (Nat.dvd_of_mod_eq_zero oppositeY)
    push_cast at cast
    rw [div_eq_iff (pow_ne_zero 3 zReal)]
    linear_combination cast
  have opposite : (n-1) • (.some _ _ on : Pt p b) = -.some _ _ on := by
    rw [point,Affine.Point.neg_some]
    simp only [x,y,negYEq]
  have whole : n = n-1+1 := by omega
  rw [whole,succ_nsmul,opposite,neg_add_cancel]

def xOf : Pt p b → Nat
  | .zero => 0
  | .some x _ _ => x.val

def yOf : Pt p b → Nat
  | .zero => 0
  | .some _ y _ => y.val

theorem yOpposite (odd : p % 2 = 1) {A : Pt p b} (twofold : A ≠ -A) : (yOf A + yOf (-A)) % 2 = 1 := by
  rcases A with _ | ⟨x,y,on⟩
  · exact absurd rfl twofold
  · have real : y ≠ 0 := by
      rintro rfl
      apply twofold
      rw [Affine.Point.neg_some]
      simp only [negYEq,neg_zero]
    have opposite : (-y).val = p-y.val := by rw [ZMod.neg_val,if_neg real]
    have below := ZMod.val_lt y
    simp only [Affine.Point.neg_some,yOf,negYEq,opposite]
    omega

theorem xSame {A B : Pt p b} (a : A ≠ 0) (b : B ≠ 0) (same : xOf A = xOf B) : B = A ∨ B = -A := by
  rcases A with _ | ⟨x,y,on⟩
  · exact absurd rfl a
  rcases B with _ | ⟨x',y',on'⟩
  · exact absurd rfl b
  obtain rfl : x = x' := ZMod.val_injective p same
  rcases Affine.Y_eq_of_X_eq on'.1 on.1 rfl with rfl | flipped
  · exact Or.inl rfl
  · right
    subst flipped
    rw [Affine.Point.neg_some]

def plane (odd : p % 2 = 1) : Ecdsa.Plane (Pt p b) where
  x := xOf
  y := yOf
  oppositeX A := by
    rcases A with _ | ⟨x,y,on⟩ <;> rfl
  oppositeY := yOpposite odd
  sameX := xSame

end Field

end Web3PiUps.ShortCurve
