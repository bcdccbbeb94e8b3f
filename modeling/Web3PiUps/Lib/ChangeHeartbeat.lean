import Mathlib.Order.Basic
import Mathlib.Tactic.Push
import Web3PiUps.Lib.StepMachine

/-! Passing on a stream of readings: the first one, every one whose value differs from the last one
passed on, and one whenever the clock says an interval has gone by. The clock counts modulo a size. -/
namespace Web3PiUps.ChangeHeartbeat
open StepMachine

variable {α : Type} (size interval : Nat)

/-- The last reading passed on, with its time. -/
abbrev Gate (α : Type) := Option (Nat × α)

def Due (g : Gate α) (x : Nat × α) : Prop := ∀ l ∈ g, x.2 ≠ l.2 ∨ interval ≤ (x.1-l.1) % size
instance [DecidableEq α] (g : Gate α) (x) : Decidable (Due size interval g x) := by unfold Due; infer_instance

theorem dueSome {l x : Nat × α} : Due size interval (some l) x ↔ x.2 ≠ l.2 ∨ interval ≤ (x.1-l.1) % size := by
  simp [Due]

theorem firstDue (x : Nat × α) : Due size interval none x := by
  intro l none_
  cases none_

def Timed (t : Nat) : List (Nat × α) → Prop
  | [] => True
  | x::xs => t ≤ x.1 ∧ Timed x.1 xs

/-- No two readings in a row are further apart than `gap`. -/
def Close (gap t : Nat) : List (Nat × α) → Prop
  | [] => True
  | x::xs => x.1-t ≤ gap ∧ Close gap x.1 xs

def lastOf (x : Nat × α) : List (Nat × α) → Nat × α
  | [] => x
  | y::ys => lastOf y ys

theorem lastTimed {x : Nat × α} {xs : List (Nat × α)} (timed : Timed x.1 xs) : x.1 ≤ (lastOf x xs).1 := by
  induction xs generalizing x with
  | nil => exact Nat.le_refl _
  | cons y ys ih => exact Nat.le_trans timed.1 (ih timed.2)

variable [DecidableEq α]

def step (g : Gate α) (x : Nat × α) : Gate α × List (Nat × α) :=
  if Due size interval g x then (some x,[x]) else (g,[])

/-- The readings of a run that are passed on. -/
def passed (g : Gate α) (xs : List (Nat × α)) : List (Nat × α) := (outs (step size interval) g xs).flatten

def changes (v : α) : List (Nat × α) → Nat
  | [] => 0
  | x::xs => (if x.2 ≠ v then 1 else 0)+changes x.2 xs

variable {size interval}

theorem passedCons (g : Gate α) (x : Nat × α) (xs : List (Nat × α)) : passed size interval g (x::xs) =
    (step size interval g x).2 ++ passed size interval (step size interval g x).1 xs := rfl

theorem passedLast (size interval : Nat) (g : Gate α) (xs : List (Nat × α)) :
    final (step size interval) g xs = ((passed size interval g xs).getLast?).or g := by
  induction xs generalizing g with
  | nil => rfl
  | cons x xs ih =>
    rw [passedCons,final,ih,step]
    split
    · cases rest : passed size interval (some x) xs with
      | nil => rfl
      | cons y ys => simp [List.getLast?_cons]
    · rfl

theorem stepHolds (size interval : Nat) (l x : Nat × α) : ∃ l', (step size interval (some l) x).1 = some l' ∧ l'.2 = x.2 := by
  rw [step]
  split
  · exact ⟨x,rfl,rfl⟩
  · rename_i idle
    rw [dueSome size interval] at idle
    push Not at idle
    exact ⟨l,rfl,idle.1.symm⟩

theorem stepFresh {l x : Nat × α} {t gap : Nat} (fresh : t-l.1 < interval) (before : l.1 ≤ t) (later : t ≤ x.1)
    (close : x.1-t ≤ gap) (room : gap+interval ≤ size) :
    ∃ l', (step size interval (some l) x).1 = some l' ∧ l'.2 = x.2 ∧ l'.1 ≤ x.1 ∧ x.1-l'.1 < interval := by
  rw [step]
  split
  · exact ⟨x,rfl,rfl,Nat.le_refl _,by omega⟩
  · rename_i idle
    rw [dueSome size interval] at idle
    push Not at idle
    have whole : (x.1-l.1) % size = x.1-l.1 := Nat.mod_eq_of_lt (by omega)
    exact ⟨l,rfl,idle.1.symm,by omega,by omega⟩

theorem runHolds (size interval : Nat) (l : Nat × α) (xs : List (Nat × α)) :
    ∃ l', final (step size interval) (some l) xs = some l' ∧ l'.2 = (lastOf l xs).2 := by
  induction xs generalizing l with
  | nil => exact ⟨l,rfl,rfl⟩
  | cons x xs ih =>
    obtain ⟨l₁,held,same⟩ := stepHolds size interval l x
    obtain ⟨l₂,after,last⟩ := ih l₁
    refine ⟨l₂,?_,?_⟩
    · rw [← after,← held]
      rfl
    · rw [last]
      cases xs with
      | nil => exact same
      | cons y ys => rfl

theorem runFresh {l : Nat × α} {t gap : Nat} {xs : List (Nat × α)} (fresh : t-l.1 < interval) (before : l.1 ≤ t)
    (timed : Timed t xs) (close : Close gap t xs) (room : gap+interval ≤ size) :
    ∃ l', final (step size interval) (some l) xs = some l' ∧ l'.1 ≤ (lastOf (t,l.2) xs).1 ∧
      (lastOf (t,l.2) xs).1-l'.1 < interval := by
  induction xs generalizing l t with
  | nil => exact ⟨l,rfl,before,fresh⟩
  | cons x xs ih =>
    obtain ⟨l₁,held,same,early,young⟩ := stepFresh fresh before timed.1 close.1 room
    obtain ⟨l₂,after,late⟩ := ih young early timed.2 close.2
    refine ⟨l₂,?_,?_⟩
    · rw [← after,← held]
      rfl
    · rw [same] at late
      exact late

/-- Every passing past the first is paid for by a change or by an interval gone by. -/
theorem passedBudget {l : Nat × α} {xs : List (Nat × α)} (timed : Timed l.1 xs) :
    (passed size interval (some l) xs).length*interval ≤ changes l.2 xs*interval+((lastOf l xs).1-l.1) := by
  induction xs generalizing l with
  | nil => simp [passed,outs]
  | cons x xs ih =>
    obtain ⟨later,rest⟩ := timed
    have reach := lastTimed rest
    rw [passedCons,step,changes,lastOf]
    by_cases due : Due size interval (some l) x
    · rw [if_pos due]
      dsimp only
      have tail := ih rest
      rw [List.singleton_append,List.length_cons,Nat.succ_mul]
      by_cases same : x.2 = l.2
      · have gone : interval ≤ x.1-l.1 :=
          Nat.le_trans (((dueSome size interval).mp due).resolve_left (not_not.mpr same)) (Nat.mod_le _ _)
        rw [if_neg (not_not.mpr same),Nat.zero_add]
        omega
      · rw [if_pos same,Nat.add_mul,Nat.one_mul]
        omega
    · rw [if_neg due]
      have same : x.2 = l.2 := by
        rw [dueSome size interval] at due
        push Not at due
        exact due.1
      have before : Timed l.1 xs := by
        cases xs with
        | nil => trivial
        | cons y ys => exact ⟨Nat.le_trans later rest.1,rest.2⟩
      have tail := ih before
      have last : (lastOf l xs).1 = (lastOf x xs).1 ∨ xs = [] := by
        cases xs with
        | nil => exact .inr rfl
        | cons y ys => exact .inl rfl
      rw [List.nil_append,if_neg (not_not.mpr same),Nat.zero_add,same]
      rcases last with there | rfl
      · rwa [there] at tail
      · simp [passed,outs]

end Web3PiUps.ChangeHeartbeat
