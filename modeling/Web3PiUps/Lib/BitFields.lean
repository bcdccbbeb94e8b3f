import Mathlib.Data.Nat.Bitwise

/-! Fields of a string of bits, read from the most significant bit on. -/
namespace Web3PiUps.BitFields

/-- The number of `n` bits from `off` on. -/
def field (bit : Nat → Bool) (off : Nat) : Nat → Nat
  | 0 => 0
  | n+1 => field bit off n*2 + (bit (off+n)).toNat

variable {bit other : Nat → Bool}

theorem fieldTestBit (bit : Nat → Bool) (off n j : Nat) :
    (field bit off n).testBit j = (decide (j < n) && bit (off+(n-1-j))) := by
  induction n generalizing j with
  | zero => simp [field]
  | succ n ih =>
    have top := Bool.toNat_le (bit (off+n))
    cases j with
    | zero =>
      have last : (field bit off n*2 + (bit (off+n)).toNat)%2 = (bit (off+n)).toNat := by omega
      rw [field,Nat.testBit_zero,last]
      cases here : bit (off+n) <;> simp [here]
    | succ j =>
      have rest : (field bit off n*2 + (bit (off+n)).toNat)/2 = field bit off n := by omega
      have place : n+1-1-(j+1) = n-1-j := by omega
      rw [field,Nat.testBit_succ,rest,ih,place]
      simp

theorem fieldSplit (bit : Nat → Bool) (off m n : Nat) :
    field bit off (m+n) = field bit off m*2^n + field bit (off+m) n := by
  induction n with
  | zero => simp [field]
  | succ n ih =>
    rw [← Nat.add_assoc,field,ih,field,Nat.pow_succ,Nat.add_assoc off m n,Nat.add_mul,Nat.mul_assoc,Nat.add_assoc]

theorem fieldLt (bit : Nat → Bool) (off n : Nat) : field bit off n < 2^n := by
  induction n with
  | zero => exact Nat.one_pos
  | succ n ih =>
    have top := Bool.toNat_le (bit (off+n))
    rw [field,Nat.pow_succ]
    omega

theorem fieldSame {off off' n : Nat} : field bit off n = field other off' n ↔ ∀ i < n, bit (off+i) = other (off'+i) := by
  constructor
  · intro same i small
    have bits := congrArg (Nat.testBit · (n-1-i)) same
    have back : n-1-(n-1-i) = i := by omega
    simpa [fieldTestBit,back,show n-1-i < n by omega] using bits
  · intro same
    refine Nat.eq_of_testBit_eq fun j => ?_
    rw [fieldTestBit,fieldTestBit]
    by_cases small : j < n
    · rw [same (n-1-j) (by omega)]
    · simp [small]

theorem fieldClear {off n : Nat} (clear : ∀ i < n, bit (off+i) = false) : field bit off n = 0 := by
  induction n with
  | zero => rfl
  | succ n ih =>
    rw [field,ih fun i small => clear i (by omega),clear n (Nat.lt_succ_self n)]
    rfl

end Web3PiUps.BitFields
