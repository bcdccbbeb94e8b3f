import Mathlib.Algebra.Field.ZMod
import Mathlib.Data.Nat.Size
import Mathlib.Tactic.LinearCombination
import Mathlib.Tactic.Ring

/-! The numbers of `components/microecc/uECC.c` for a curve of 256 bits, each as the natural number
that its words spell. The products are the only ones of twice the words. -/
namespace Web3PiUps.MicroEcc

def vliIsZero (vli : Nat) : Bool := vli = 0

/-- The sum and the carry. -/
def vliAdd (left right : Nat) : Nat × Bool := ((left+right) % 2^256,2^256 ≤ left+right)

/-- The difference and the borrow. -/
def vliSub (left right : Nat) : Nat × Bool := ((left+2^256-right) % 2^256,left < right)

def vliCmpUnsafe (left right : Nat) : Int := if right < left then 1 else if left < right then -1 else 0

def vliCmp (left right : Nat) : Int :=
  let (tmp,neg) := vliSub left right
  (if vliIsZero tmp then 0 else 1) - 2*(if neg then 1 else 0)

def vliRshift1 (vli : Nat) : Nat := vli >>> 1

def vliNumBits (vli : Nat) : Nat := vli.size

def vliModAdd (left right mod : Nat) : Nat :=
  let (result,carry) := vliAdd left right
  if carry ∨ vliCmpUnsafe mod result ≠ 1 then (vliSub result mod).1 else result

/-- The rounds of `uECC_vli_mmod`, for the shifts from `shift` down to 0. -/
def mmodRounds : Nat → Nat → Nat → Nat
  | 0, modMultiple, v => if modMultiple ≤ v then v-modMultiple else v
  | shift+1, modMultiple, v =>
    mmodRounds shift (vliRshift1 modMultiple) (if modMultiple ≤ v then v-modMultiple else v)

def vliMmod (product mod : Nat) : Nat :=
  let shift := 512-vliNumBits mod
  mmodRounds shift (mod <<< shift) product

def vliModMult (left right mod : Nat) : Nat := vliMmod (left*right) mod

def vliModInvUpdate (uv mod : Nat) : Nat :=
  let (uv,carry) := if uv % 2 = 0 then (uv,false) else vliAdd uv mod
  if carry then vliRshift1 uv ||| 2^255 else vliRshift1 uv

/-- The loop of `uECC_vli_modInv`. Neither `a` nor `b` ever gets to zero. -/
def modInvLoop (mod a b u v : Nat) (aPos : 0 < a) (bPos : 0 < b) : Nat :=
  if same : a = b then u
  else if even : a % 2 = 0 then modInvLoop mod (a/2) b (vliModInvUpdate u mod) v (by omega) bPos
  else if even : b % 2 = 0 then modInvLoop mod a (b/2) u (vliModInvUpdate v mod) aPos (by omega)
  else if above : b < a then
    let u := if vliCmpUnsafe u v < 0 then (vliAdd u mod).1 else u
    modInvLoop mod ((a-b)/2) b (vliModInvUpdate (vliSub u v).1 mod) v (by omega) bPos
  else
    let v := if vliCmpUnsafe v u < 0 then (vliAdd v mod).1 else v
    modInvLoop mod a ((b-a)/2) u (vliModInvUpdate (vliSub v u).1 mod) aPos (by omega)
termination_by a+b

def vliModInv (input mod : Nat) (modPos : 0 < mod) : Nat :=
  if zero : input = 0 then 0 else modInvLoop mod input mod 1 0 (by omega) modPos

theorem subExact {left right : Nat} (l : left < 2^256) (le : right ≤ left) : (vliSub left right).1 = left-right := by
  rw [vliSub]
  dsimp only
  omega

theorem subZero {left right : Nat} (l : left < 2^256) (r : right < 2^256) :
    vliIsZero (vliSub left right).1 = true ↔ left = right := by
  rw [vliIsZero,vliSub,decide_eq_true_eq]
  dsimp only
  omega

theorem cmpValue {left right : Nat} (l : left < 2^256) (r : right < 2^256) :
    vliCmp left right = if right < left then 1 else if left < right then -1 else 0 := by
  have zero := subZero l r
  have neg : (vliSub left right).2 = decide (left < right) := rfl
  simp only [vliCmp,neg,decide_eq_true_eq,zero]
  split_ifs <;> omega

theorem modAddValue {left right mod : Nat} (fits : mod < 2^256) (l : left < mod) (r : right < mod) :
    vliModAdd left right mod = (left+right) % mod := by
  have beyond : (vliAdd left right).2 = true ∨ vliCmpUnsafe mod (vliAdd left right).1 ≠ 1 ↔ mod ≤ left+right := by
    rw [vliCmpUnsafe,vliAdd,decide_eq_true_eq]
    dsimp only
    split_ifs <;> omega
  simp only [vliModAdd,beyond]
  split_ifs with le
  · rw [Nat.mod_eq_sub_mod le,Nat.mod_eq_of_lt (by omega),vliSub,vliAdd]
    dsimp only
    omega
  · rw [Nat.mod_eq_of_lt (by omega),vliAdd]
    dsimp only
    omega

theorem roundsValue (shift mod : Nat) {v : Nat} (bound : v < 2*(mod*2^shift)) :
    mmodRounds shift (mod*2^shift) v = v % mod := by
  induction shift generalizing v with
  | zero =>
    rw [mmodRounds,pow_zero,mul_one] at *
    split_ifs with le
    · rw [Nat.mod_eq_sub_mod le,Nat.mod_eq_of_lt (by omega)]
    · rw [Nat.mod_eq_of_lt (by omega)]
  | succ shift ih =>
    have half : vliRshift1 (mod*2^(shift+1)) = mod*2^shift := by
      rw [vliRshift1,Nat.shiftRight_one,pow_succ,← mul_assoc,Nat.mul_div_cancel _ (by decide)]
    have twice : mod*2^(shift+1) = 2*(mod*2^shift) := by ring
    rw [mmodRounds,half]
    split_ifs with le
    · rw [ih (by omega)]
      exact Nat.sub_mul_mod le
    · exact ih (by omega)

theorem modMultValue {left right mod : Nat} (pos : 0 < mod) (fits : mod < 2^256) (l : left < 2^256) (r : right < 2^256) :
    vliModMult left right mod = left*right % mod := by
  have product : left*right < 2^512 := by
    calc left*right < 2^256*2^256 := Nat.mul_lt_mul'' l r
      _ = 2^512 := by rw [← pow_add]
  rw [vliModMult,vliMmod,Nat.shiftLeft_eq]
  -- the highest bit of the modulus is moved to the highest place
  have top : 2^511 ≤ mod*2^(512-vliNumBits mod) := by
    have bits : vliNumBits mod ≤ 256 := Nat.size_le.mpr fits
    have high : 2^(vliNumBits mod-1) ≤ mod := Nat.lt_size.mp (Nat.sub_lt (Nat.size_pos.mpr pos) Nat.one_pos)
    have some_ : 0 < vliNumBits mod := Nat.size_pos.mpr pos
    calc 2^511 = 2^(vliNumBits mod-1)*2^(512-vliNumBits mod) := by
          rw [← pow_add]
          congr 1
          omega
      _ ≤ mod*2^(512-vliNumBits mod) := Nat.mul_le_mul_right _ high
  apply roundsValue
  omega

theorem updateHalf {uv mod : Nat} (odd : mod % 2 = 1) (fits : mod < 2^256) (below : uv < mod) :
    vliModInvUpdate uv mod = if uv % 2 = 0 then uv/2 else (uv+mod)/2 := by
  have half : ∀ a, vliRshift1 a = a/2 := fun a => Nat.shiftRight_one a
  rw [vliModInvUpdate]
  split_ifs with even
  · simp [half]
  · simp only [vliAdd,half,decide_eq_true_eq]
    split_ifs with carry
    · -- the carry comes back as the highest bit
      have low : (uv+mod) % 2^256/2 < 2^255 := by omega
      have joined := Nat.two_pow_add_eq_or_of_lt low 1
      rw [mul_one,Nat.or_comm] at joined
      rw [← joined]
      omega
    · omega

variable {mod : Nat} [Fact mod.Prime]

theorem twoReal (odd : mod % 2 = 1) : (2 : ZMod mod) ≠ 0 := by
  intro zero
  have divides : mod ∣ 2 := (ZMod.natCast_eq_zero_iff 2 mod).mp (by exact_mod_cast zero)
  have prime : mod.Prime := Fact.out
  have two := (Nat.prime_dvd_prime_iff_eq prime Nat.prime_two).mp divides
  omega

/-- The number is below the modulus and takes the input to `a`. -/
structure Takes (mod input u a : Nat) : Prop where
  below : u < mod
  cast : (u*input : ZMod mod) = a

theorem updateTakes {input u a : Nat} (odd : mod % 2 = 1) (fits : mod < 2^256) (takes : Takes mod input u (2*a)) :
    Takes mod input (vliModInvUpdate u mod) a := by
  have below := takes.below
  have twice : ((2*vliModInvUpdate u mod : Nat) : ZMod mod) = u := by
    rw [updateHalf odd fits below]
    split_ifs with even
    · congr 1
      omega
    · have whole : 2*((u+mod)/2) = u+mod := by omega
      rw [whole,Nat.cast_add,ZMod.natCast_self,add_zero]
  constructor
  · rw [updateHalf odd fits below]
    split_ifs <;> omega
  · have same := takes.cast
    push_cast at same twice
    apply mul_left_cancel₀ (twoReal odd)
    rw [← same,← twice]
    ring

/-- The difference of two numbers that are taken, as the code computes it through the borrow. -/
theorem subTakes {input u v a b : Nat} (fits : mod < 2^256) (le : b ≤ a) (first : Takes mod input u a)
    (second : Takes mod input v b) :
    Takes mod input (vliSub (if vliCmpUnsafe u v < 0 then (vliAdd u mod).1 else u) v).1 (a-b) := by
  have uBelow := first.below
  have vBelow := second.below
  have value : (vliSub (if vliCmpUnsafe u v < 0 then (vliAdd u mod).1 else u) v).1 =
      if u < v then u+mod-v else u-v := by
    simp only [vliCmpUnsafe,vliAdd,vliSub]
    split_ifs <;> omega
  constructor
  · rw [value]
    split_ifs <;> omega
  · have cast : ((if u < v then u+mod-v else u-v : Nat) : ZMod mod) = u-v := by
      split_ifs with less
      · rw [Nat.cast_sub (by omega),Nat.cast_add,ZMod.natCast_self,add_zero]
      · rw [Nat.cast_sub (by omega)]
    rw [value,cast,Nat.cast_sub le,← first.cast,← second.cast]
    ring

theorem loopTakes {input a b u v : Nat} (odd : mod % 2 = 1) (fits : mod < 2^256) (aPos : 0 < a) (bPos : 0 < b)
    (first : Takes mod input u a) (second : Takes mod input v b) (coprime : a.Coprime b) :
    Takes mod input (modInvLoop mod a b u v aPos bPos) 1 := by
  fun_induction modInvLoop mod a b u v aPos bPos with
  | case1 a u v aPos bPos =>
    have one : a = 1 := (Nat.coprime_self a).mp coprime
    rwa [one] at first
  | case2 a b u v aPos bPos apart even ih =>
    have whole : 2*(a/2) = a := by omega
    rw [← whole] at first
    exact ih (updateTakes odd fits first) second (coprime.coprime_dvd_left (Nat.div_dvd_of_dvd (Nat.dvd_of_mod_eq_zero even)))
  | case3 a b u v aPos bPos apart aOdd even ih =>
    have whole : 2*(b/2) = b := by omega
    rw [← whole] at second
    exact ih first (updateTakes odd fits second) (coprime.coprime_dvd_right (Nat.div_dvd_of_dvd (Nat.dvd_of_mod_eq_zero even)))
  | case4 a b u v aPos bPos apart aOdd bOdd above u' ih =>
    have whole : 2*((a-b)/2) = a-b := by omega
    have difference := subTakes fits above.le first second
    rw [← whole] at difference
    have half : (a-b)/2 ∣ a-b := Nat.div_dvd_of_dvd (Nat.dvd_of_mod_eq_zero (by omega))
    exact ih (updateTakes odd fits difference) second
      (((Nat.coprime_sub_self_left above.le).mpr coprime).coprime_dvd_left half)
  | case5 a b u v aPos bPos apart aOdd bOdd above v' ih =>
    have le : a ≤ b := by omega
    have whole : 2*((b-a)/2) = b-a := by omega
    have difference := subTakes fits le second first
    rw [← whole] at difference
    have half : (b-a)/2 ∣ b-a := Nat.div_dvd_of_dvd (Nat.dvd_of_mod_eq_zero (by omega))
    exact ih first (updateTakes odd fits difference)
      (((Nat.coprime_sub_self_right le).mpr coprime).coprime_dvd_right half)

theorem modInvValue {input : Nat} (odd : mod % 2 = 1) (fits : mod < 2^256) (real : 0 < input) (below : input < mod) :
    vliModInv input mod (Fact.out : mod.Prime).pos < mod ∧
      (vliModInv input mod (Fact.out : mod.Prime).pos * input : ZMod mod) = 1 := by
  have prime : mod.Prime := Fact.out
  have coprime : input.Coprime mod := ((Nat.Prime.coprime_iff_not_dvd prime).mpr (Nat.not_dvd_of_pos_of_lt real below)).symm
  have first : Takes mod input 1 input := ⟨prime.one_lt,by rw [Nat.cast_one,one_mul]⟩
  have second : Takes mod input 0 mod := ⟨prime.pos,by rw [Nat.cast_zero,zero_mul,ZMod.natCast_self]⟩
  have takes := loopTakes odd fits real prime.pos first second coprime
  rw [vliModInv,dif_neg (by omega)]
  exact ⟨takes.below,takes.cast.trans Nat.cast_one⟩

end Web3PiUps.MicroEcc
