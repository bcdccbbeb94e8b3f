import Mathlib.Algebra.BigOperators.Group.Finset.Piecewise
import Mathlib.Data.Fintype.Card
import Mathlib.Logic.Function.Basic

/-! Tables of slots over a finite index. How many slots satisfy a predicate, and
whether the occupied ones carry distinct keys, as one slot is rewritten. -/
namespace Web3PiUps.SlotTable

universe u v w
variable {ι : Type u} {σ : Type v} {κ : Type w}

section Counting
variable [Fintype ι] (p : σ → Prop) [DecidablePred p]

def occupied (t : ι → σ) : Nat := (Finset.univ.filter (fun i => p (t i))).card

theorem occupiedLe (t : ι → σ) : occupied p t ≤ Fintype.card ι := Finset.card_le_univ _

theorem occupiedNone {t : ι → σ} (none : ∀ i, ¬ p (t i)) : occupied p t = 0 := by
  rw [occupied,Finset.card_eq_zero,Finset.filter_eq_empty_iff]
  exact fun i _ => none i

theorem occupiedPos {t : ι → σ} {i : ι} (h : p (t i)) : 0 < occupied p t :=
  Finset.card_pos.mpr ⟨i,by simp [h]⟩

variable [DecidableEq ι]

theorem occupiedUpdate (t : ι → σ) (i : ι) (s : σ) :
    occupied p (Function.update t i s) + (if p (t i) then 1 else 0) =
      occupied p t + (if p s then 1 else 0) := by
  have split : ∀ t : ι → σ, occupied p t =
      (if p (t i) then 1 else 0) + ∑ j ∈ Finset.univ.erase i, if p (t j) then 1 else 0 := by
    intro t
    rw [occupied,Finset.card_filter]
    exact (Finset.add_sum_erase _ (fun j => if p (t j) then 1 else 0) (Finset.mem_univ i)).symm
  have rest : ∑ j ∈ Finset.univ.erase i, (if p (Function.update t i s j) then 1 else 0) =
      ∑ j ∈ Finset.univ.erase i, if p (t j) then 1 else 0 := by
    refine Finset.sum_congr rfl (fun j hj => ?_)
    rw [Function.update_of_ne (Finset.ne_of_mem_erase hj)]
  rw [split (Function.update t i s),split t,rest,Function.update_self]
  omega

theorem occupiedFill {t : ι → σ} {i : ι} {s : σ} (before : ¬ p (t i)) (after : p s) :
    occupied p (Function.update t i s) = occupied p t + 1 := by
  have step := occupiedUpdate p t i s
  rw [if_neg before,if_pos after] at step
  exact step

theorem occupiedClear {t : ι → σ} {i : ι} {s : σ} (before : p (t i)) (after : ¬ p s) :
    occupied p (Function.update t i s) + 1 = occupied p t := by
  have step := occupiedUpdate p t i s
  rw [if_pos before,if_neg after] at step
  exact step

theorem occupiedKeep {t : ι → σ} {i : ι} {s : σ} (same : p (t i) ↔ p s) :
    occupied p (Function.update t i s) = occupied p t := by
  have step := occupiedUpdate p t i s
  simp only [same] at step
  omega

end Counting

section Keys
variable (p : σ → Prop) (key : σ → κ)

def Distinct (t : ι → σ) : Prop := ∀ i j, p (t i) → p (t j) → key (t i) = key (t j) → i = j

variable {p key} [DecidableEq ι]

theorem distinctUpdate {t : ι → σ} {i : ι} {s : σ} (h : Distinct p key t)
    (fresh : p s → ∀ j, j ≠ i → p (t j) → key (t j) ≠ key s) :
    Distinct p key (Function.update t i s) := by
  intro j k hj hk same
  by_cases atJ : j = i
  · by_cases atK : k = i
    · rw [atJ,atK]
    · subst atJ
      rw [Function.update_self] at hj same
      rw [Function.update_of_ne atK] at hk same
      exact absurd same.symm (fresh hj k atK hk)
  · rw [Function.update_of_ne atJ] at hj same
    by_cases atK : k = i
    · subst atK
      rw [Function.update_self] at hk same
      exact absurd same (fresh hk j atJ hj)
    · rw [Function.update_of_ne atK] at hk same
      exact h j k hj hk same

theorem distinctClear {t : ι → σ} {i : ι} {s : σ} (h : Distinct p key t) (cleared : ¬ p s) :
    Distinct p key (Function.update t i s) :=
  distinctUpdate h (fun bad => absurd bad cleared)

theorem distinctKeep {t : ι → σ} {i : ι} {s : σ} (h : Distinct p key t) (before : p (t i))
    (same : key s = key (t i)) : Distinct p key (Function.update t i s) :=
  distinctUpdate h (fun _ j other hj eq => other (h j i hj before (eq.trans same)))

end Keys

section Every
variable (p r : σ → Prop)

def Every (t : ι → σ) : Prop := ∀ i, p (t i) → r (t i)

variable {p r} [DecidableEq ι]

theorem everyUpdate {t : ι → σ} {i : ι} {s : σ} (every : Every p r t) (new : p s → r s) :
    Every p r (Function.update t i s) := by
  intro j hj
  by_cases here : j = i
  · subst here
    rw [Function.update_self] at hj ⊢
    exact new hj
  · rw [Function.update_of_ne here] at hj ⊢
    exact every j hj

end Every

section Pairs
variable (p : σ → Prop) (R : σ → σ → Prop)

def Pairs (t : ι → σ) : Prop := ∀ i j, i ≠ j → p (t i) → p (t j) → R (t i) (t j)

variable {p R} [DecidableEq ι]

theorem pairsUpdate {t : ι → σ} {i : ι} {s : σ} (symm : ∀ a b, R a b → R b a) (pairs : Pairs p R t)
    (new : p s → ∀ j, j ≠ i → p (t j) → R s (t j)) : Pairs p R (Function.update t i s) := by
  intro j k apart hj hk
  by_cases atJ : j = i
  · subst atJ
    rw [Function.update_self] at hj ⊢
    rw [Function.update_of_ne apart.symm] at hk ⊢
    exact new hj k apart.symm hk
  · rw [Function.update_of_ne atJ] at hj ⊢
    by_cases atK : k = i
    · subst atK
      rw [Function.update_self] at hk ⊢
      exact symm _ _ (new hk j atJ hj)
    · rw [Function.update_of_ne atK] at hk ⊢
      exact pairs j k apart hj hk

end Pairs
end Web3PiUps.SlotTable
