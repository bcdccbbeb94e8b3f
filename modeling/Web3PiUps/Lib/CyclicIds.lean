import Mathlib.Data.Nat.ModEq

/-! Identifiers that walk `1, …, size` and start again: moving on by a number of
places, and how far one identifier lies ahead of another. -/
namespace Web3PiUps.CyclicIds

variable {size : Nat}

def Valid (size a : Nat) : Prop := 0 < a ∧ a ≤ size

def ahead (size a d : Nat) : Nat := (a - 1 + d) % size + 1

def distance (size a b : Nat) : Nat := if a ≤ b then b - a else size - a + b

theorem aheadValid {a : Nat} (valid : Valid size a) (d : Nat) : Valid size (ahead size a d) := by
  have positive : 0 < size := Nat.lt_of_lt_of_le valid.1 valid.2
  exact ⟨Nat.succ_pos _,Nat.mod_lt _ positive⟩

@[simp] theorem aheadZero {a : Nat} (valid : Valid size a) : ahead size a 0 = a := by
  obtain ⟨low,high⟩ := valid
  rw [ahead,Nat.add_zero,Nat.mod_eq_of_lt (by omega)]
  omega

theorem aheadAdd (a d e : Nat) : ahead size (ahead size a d) e = ahead size a (d+e) := by
  simp only [ahead,Nat.add_sub_cancel,Nat.mod_add_mod,Nat.add_assoc]

theorem aheadDistance {a b : Nat} (left : Valid size a) (right : Valid size b) :
    ahead size a (distance size a b) = b := by
  obtain ⟨low,high⟩ := left
  obtain ⟨low',high'⟩ := right
  unfold ahead distance
  split
  · rw [Nat.mod_eq_of_lt (by omega)]
    omega
  · have turn : a - 1 + (size - a + b) = (b - 1) + size := by omega
    rw [turn,Nat.add_mod_right,Nat.mod_eq_of_lt (by omega)]
    omega

theorem distanceLt {a b : Nat} (left : Valid size a) (right : Valid size b) : distance size a b < size := by
  obtain ⟨low,high⟩ := left
  obtain ⟨low',high'⟩ := right
  unfold distance
  split <;> omega

theorem aheadInjective {a d e : Nat} (small : d < size) (small' : e < size)
    (same : ahead size a d = ahead size a e) : d = e := by
  have equal : a - 1 + d ≡ a - 1 + e [MOD size] := Nat.succ.inj same
  have cancelled := Nat.ModEq.add_left_cancel' (a-1) equal
  rwa [Nat.ModEq,Nat.mod_eq_of_lt small,Nat.mod_eq_of_lt small'] at cancelled

theorem distanceAhead {a d : Nat} (valid : Valid size a) (small : d < size) :
    distance size a (ahead size a d) = d :=
  aheadInjective (distanceLt valid (aheadValid valid d)) small
    (aheadDistance valid (aheadValid valid d))

/-- Fewer moves than there are identifiers never come back to the same one. -/
theorem aheadNe {a d : Nat} (valid : Valid size a) (moved : 0 < d) (small : d < size) :
    ahead size a d ≠ a := by
  intro back
  have none : d = 0 := aheadInjective small (Nat.lt_trans moved small) (back.trans (aheadZero valid).symm)
  omega

def next (size c : Nat) : Nat := if c < size then c+1 else 1

theorem nextValid (positive : 0 < size) (c : Nat) : Valid size (next size c) := by
  unfold next Valid
  split <;> omega

theorem nextAhead {c : Nat} (valid : Valid size c) : next size c = ahead size c 1 := by
  obtain ⟨low,high⟩ := valid
  unfold next ahead
  split
  · rw [Nat.mod_eq_of_lt (by omega)]
    omega
  · have turn : c - 1 + 1 = size := by omega
    rw [turn,Nat.mod_self]

end Web3PiUps.CyclicIds
