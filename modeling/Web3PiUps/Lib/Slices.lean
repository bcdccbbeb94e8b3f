import Mathlib.Data.List.Basic

/-! A list cut into slices of one size, the last one shorter where it does not fit:
what a loop reads through a buffer of that size. -/
namespace Web3PiUps.Slices

universe u
variable {α : Type u}

def slicesWithin (size : Nat) : Nat → List α → List (List α)
  | 0, _ => []
  | _+1, [] => []
  | fuel+1, a::rest => (a::rest).take size :: slicesWithin size fuel ((a::rest).drop size)

def slices (size : Nat) (l : List α) : List (List α) := slicesWithin size l.length l

theorem withinFlatten {size : Nat} (positive : 0 < size) {fuel : Nat} {l : List α} (enough : l.length ≤ fuel) :
    (slicesWithin size fuel l).flatten = l := by
  induction fuel generalizing l with
  | zero => rw [List.length_eq_zero_iff.mp (Nat.le_zero.mp enough)]; rfl
  | succ fuel ih =>
    cases l with
    | nil => rfl
    | cons a rest =>
      have shorter : ((a::rest).drop size).length ≤ fuel := by
        rw [List.length_drop]; simp only [List.length_cons] at enough ⊢; omega
      rw [slicesWithin,List.flatten_cons,ih shorter,List.take_append_drop]

theorem slicesFlatten {size : Nat} (positive : 0 < size) (l : List α) : (slices size l).flatten = l :=
  withinFlatten positive (Nat.le_refl _)

theorem withinBounds {size : Nat} (positive : 0 < size) {fuel : Nat} {l s : List α}
    (member : s ∈ slicesWithin size fuel l) : 0 < s.length ∧ s.length ≤ size := by
  induction fuel generalizing l with
  | zero => exact absurd member (by simp [slicesWithin])
  | succ fuel ih =>
    cases l with
    | nil => exact absurd member (by simp [slicesWithin])
    | cons a rest =>
      rcases List.mem_cons.mp member with same | later
      · rw [same,List.length_take,List.length_cons]; omega
      · exact ih later

theorem sliceBounds {size : Nat} (positive : 0 < size) {l s : List α} (member : s ∈ slices size l) :
    0 < s.length ∧ s.length ≤ size := withinBounds positive member

end Web3PiUps.Slices
