import Mathlib.Data.Nat.Init
import Mathlib.Order.Lattice
import Mathlib.Tactic.ByContra
import Mathlib.Order.Basic

/-! Endless runs of a step function that may refuse an action, and what fairness to some of its
actions gives. Facts about a run are predicates on its positions. -/
namespace Web3PiUps.FairRuns

universe u v
variable {σ : Type u} {α : Type v}

structure Run (step : σ → α → Option σ) where
  states : Nat → σ
  acts : Nat → α
  next : ∀ i, step (states i) (acts i) = some (states (i+1))

def Enabled (step : σ → α → Option σ) (mine : α → Prop) (s : σ) : Prop := ∃ a, mine a ∧ (step s a).isSome = true

variable {step : σ → α → Option σ} (r : Run step)

/-- Strong fairness: actions that are possible again and again are taken again and again. -/
def Fair (mine : α → Prop) : Prop :=
  (∀ i, ∃ j, i ≤ j ∧ Enabled step mine (r.states j)) → ∀ i, ∃ j, i ≤ j ∧ mine (r.acts j)

variable {r}

theorem always {P : σ → Prop} (first : P (r.states 0))
    (keeps : ∀ s a t, P s → step s a = some t → P t) (i : Nat) : P (r.states i) := by
  induction i with
  | zero => exact first
  | succ i ih => exact keeps _ _ _ ih (r.next i)

theorem alwaysFrom {P : Nat → Prop} {i : Nat} (first : P i) (keeps : ∀ j, i ≤ j → P j → P (j+1))
    {j : Nat} (later : i ≤ j) : P j := by
  induction j, later using Nat.le_induction with
  | base => exact first
  | succ j later ih => exact keeps j later ih

/-- What waits for a fair action waits no longer than to that action. -/
theorem moves {mine : α → Prop} {P Q : Nat → Prop} (fair : Fair r mine)
    (stays : ∀ i, P i → ¬mine (r.acts i) → Q i ∨ P (i+1))
    (possible : ∀ i, P i → ∃ j, i ≤ j ∧ (Q j ∨ Enabled step mine (r.states j)))
    {i : Nat} (at_ : P i) : ∃ j, i ≤ j ∧ (Q j ∨ P j ∧ mine (r.acts j)) := by
  by_contra none
  have never : ∀ j, i ≤ j → ¬Q j ∧ ¬(P j ∧ mine (r.acts j)) := by
    intro j later
    exact not_or.mp (fun both => none ⟨j,later,both⟩)
  have still : ∀ j, i ≤ j → P j := by
    intro j later
    refine alwaysFrom at_ (fun k later holds => ?_) later
    exact (stays k holds (fun moved => (never k later).2 ⟨holds,moved⟩)).resolve_left (never k later).1
  have often : ∀ k, ∃ j, k ≤ j ∧ Enabled step mine (r.states j) := by
    intro k
    obtain ⟨j,later,outcome⟩ := possible (max i k) (still _ (le_max_left i k))
    have start := (le_max_left i k).trans later
    exact ⟨j,(le_max_right i k).trans later,outcome.resolve_left (never j start).1⟩
  obtain ⟨j,later,moved⟩ := fair often i
  exact (never j later).2 ⟨still j later,moved⟩

theorem reaches {mine : α → Prop} {P Q : Nat → Prop} (rank : Nat → Nat) (fair : Fair r mine)
    (keeps : ∀ i, P i → Q i ∨ P (i+1) ∧ rank (i+1) ≤ rank i ∧ (mine (r.acts i) → rank (i+1) < rank i))
    (possible : ∀ i, P i → ∃ j, i ≤ j ∧ (Q j ∨ Enabled step mine (r.states j)))
    {i : Nat} (at_ : P i) : ∃ j, i ≤ j ∧ Q j := by
  induction below : rank i using Nat.strong_induction_on generalizing i with
  | h n ih =>
    subst below
    -- the rank stays at or below its first value until the action comes
    have waits : ∃ j, i ≤ j ∧ (Q j ∨ (P j ∧ rank j ≤ rank i) ∧ mine (r.acts j)) := by
      refine moves fair ?_ (fun k holds => possible k holds.1) ⟨at_,le_refl _⟩
      intro k holds _
      rcases keeps k holds.1 with goal | ⟨next,low,-⟩
      · exact Or.inl goal
      · exact Or.inr ⟨next,low.trans holds.2⟩
    obtain ⟨j,later,goal | ⟨⟨holds,low⟩,moved⟩⟩ := waits
    · exact ⟨j,later,goal⟩
    · rcases keeps j holds with goal | ⟨next,-,lower⟩
      · exact ⟨j,later,goal⟩
      · obtain ⟨k,last,goal⟩ := ih (rank (j+1)) ((lower moved).trans_le low) next rfl
        exact ⟨k,by omega,goal⟩

end Web3PiUps.FairRuns
