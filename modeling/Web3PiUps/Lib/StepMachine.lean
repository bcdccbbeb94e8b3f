import Mathlib.Data.List.Basic
import Mathlib.Data.List.Infix
import Mathlib.Data.List.ReduceOption

/-! Deterministic machines that read one input and give one output per step.
A run is kept as the list of its outputs; an output at position `n` belongs to
the input at position `n`. Optional outputs are also read as a list of events,
each stamped with the number of inputs consumed when it happened. -/
namespace Web3PiUps.StepMachine

universe u v w x
variable {σ : Type u} {τ : Type v} {ι : Type w} {ο : Type x}

def final (step : σ → ι → σ × ο) : σ → List ι → σ
  | s, [] => s
  | s, i::rest => final step (step s i).1 rest

def outs (step : σ → ι → σ × ο) : σ → List ι → List ο
  | _, [] => []
  | s, i::rest => (step s i).2 :: outs step (step s i).1 rest

@[simp] theorem finalNil (step : σ → ι → σ × ο) (s) : final step s [] = s := rfl
@[simp] theorem finalCons (step : σ → ι → σ × ο) (s i rest) :
    final step s (i::rest) = final step (step s i).1 rest := rfl
@[simp] theorem outsNil (step : σ → ι → σ × ο) (s) : outs step s [] = [] := rfl
@[simp] theorem outsCons (step : σ → ι → σ × ο) (s i rest) :
    outs step s (i::rest) = (step s i).2 :: outs step (step s i).1 rest := rfl

theorem finalAppend (step : σ → ι → σ × ο) (s : σ) (a b : List ι) :
    final step s (a ++ b) = final step (final step s a) b := by
  induction a generalizing s with
  | nil => rfl
  | cons i rest ih => exact ih _

theorem outsAppend (step : σ → ι → σ × ο) (s : σ) (a b : List ι) :
    outs step s (a ++ b) = outs step s a ++ outs step (final step s a) b := by
  induction a generalizing s with
  | nil => rfl
  | cons i rest ih => simp [ih]

@[simp] theorem outsLength (step : σ → ι → σ × ο) (s : σ) (a : List ι) :
    (outs step s a).length = a.length := by
  induction a generalizing s with
  | nil => rfl
  | cons i rest ih => simp [ih]

theorem outsTake (step : σ → ι → σ × ο) (s : σ) (a : List ι) (n : Nat) :
    outs step s (a.take n) = (outs step s a).take n := by
  induction a generalizing s n with
  | nil => simp
  | cons i rest ih =>
    cases n with
    | zero => rfl
    | succ n => exact congrArg _ (ih _ n)

theorem finalConcat (step : σ → ι → σ × ο) (s : σ) (a : List ι) (i : ι) :
    final step s (a ++ [i]) = (step (final step s a) i).1 := by simp [finalAppend]

theorem outAt (step : σ → ι → σ × ο) (s : σ) (a : List ι) (n : Nat) :
    (outs step s a)[n]? = a[n]?.map (fun i => (step (final step s (a.take n)) i).2) := by
  induction a generalizing s n with
  | nil => simp
  | cons i rest ih =>
    cases n with
    | zero => simp
    | succ n => simpa using ih (step s i).1 n

def stateAt (step : σ → ι → σ × ο) (s : σ) (a : List ι) (n : Nat) : σ := final step s (a.take n)

theorem stateNext (step : σ → ι → σ × ο) (s : σ) {a : List ι} {n : Nat} {i : ι} (here : a[n]? = some i) :
    stateAt step s a (n+1) = (step (stateAt step s a n) i).1 := by
  rw [stateAt,List.take_add_one,here]
  exact finalConcat step s (a.take n) i

theorem stateEnd (step : σ → ι → σ × ο) (s : σ) {a : List ι} {n : Nat} (past : a[n]? = none) :
    stateAt step s a (n+1) = stateAt step s a n := by
  rw [stateAt,List.take_add_one,past]
  simp [stateAt]

theorem outStep (step : σ → ι → σ × ο) (s : σ) {a : List ι} {n : Nat} {i : ι} {o : ο}
    (here : a[n]? = some i) (out : (outs step s a)[n]? = some o) :
    o = (step (stateAt step s a n) i).2 := by
  rw [outAt,here] at out
  exact (Option.some.inj out).symm

theorem stateBeyond (step : σ → ι → σ × ο) (s : σ) {a : List ι} {n : Nat} (late : a.length ≤ n) :
    stateAt step s a n = stateAt step s a a.length := by
  rw [stateAt,stateAt,List.take_of_length_le late,List.take_length]

theorem keepsBetween (step : σ → ι → σ × ο) (s : σ) (a : List ι) {P : σ → Prop} {m n : Nat}
    (start : P (stateAt step s a m)) (ordered : m ≤ n)
    (keeps : ∀ k i, m ≤ k → k < n → a[k]? = some i → P (stateAt step s a k) →
      P (step (stateAt step s a k) i).1) : P (stateAt step s a n) := by
  induction n, ordered using Nat.le_induction with
  | base => exact start
  | succ n late ih =>
    have before := ih (fun k i low high => keeps k i low (Nat.lt_succ_of_lt high))
    cases here : a[n]? with
    | none => rw [stateEnd step s here]; exact before
    | some i => rw [stateNext step s here]; exact keeps n i late (Nat.lt_succ_self n) here before

/-- A check of every step, made along the run. -/
def allSteps (step : σ → ι → σ × ο) (P : σ → ι → Bool) : σ → List ι → Bool
  | _, [] => true
  | s, i::rest => P s i && allSteps step P (step s i).1 rest

theorem allStepsAt (step : σ → ι → σ × ο) {P : σ → ι → Bool} {s : σ} {a : List ι} {n : Nat} {i : ι}
    (all : allSteps step P s a = true) (here : a[n]? = some i) : P (stateAt step s a n) i = true := by
  induction a generalizing s n with
  | nil => exact nomatch here
  | cons j rest ih =>
    obtain ⟨first,later⟩ := Bool.and_eq_true_iff.mp all
    cases n with
    | zero => cases Option.some.inj here; exact first
    | succ n => exact ih later here

section Simulation
variable {step : σ → ι → σ × ο} {other : τ → ι → τ × ο} (R : σ → τ → Prop)

theorem simulates (sim : ∀ s t i, R s t → R (step s i).1 (other t i).1 ∧ (step s i).2 = (other t i).2)
    {s : σ} {t : τ} (start : R s t) (a : List ι) :
    R (final step s a) (final other t a) ∧ outs step s a = outs other t a := by
  induction a generalizing s t with
  | nil => exact ⟨start,rfl⟩
  | cons i rest ih =>
    obtain ⟨next,same⟩ := sim s t i start
    obtain ⟨last,tail⟩ := ih next
    exact ⟨last,by simp only [outsCons,same,tail]⟩

end Simulation

section Stamps
variable {β : Type x}

def stamped : Nat → List (Option β) → List (Nat × β)
  | _, [] => []
  | n, none::rest => stamped (n+1) rest
  | n, some f::rest => (n+1,f) :: stamped (n+1) rest

theorem stampedAppend (n : Nat) (a b : List (Option β)) :
    stamped n (a ++ b) = stamped n a ++ stamped (n+a.length) b := by
  induction a generalizing n with
  | nil => rfl
  | cons o rest ih =>
    have shift : n+1+rest.length = n+(o::rest).length := by simp; omega
    cases o <;> simp only [List.cons_append,stamped,ih,shift]

theorem memStamped {n m : Nat} {f : β} {a : List (Option β)} :
    (m,f) ∈ stamped n a ↔ ∃ i, a[i]? = some (some f) ∧ m = n+i+1 := by
  induction a generalizing n with
  | nil => simp [stamped]
  | cons o rest ih =>
    constructor
    · intro h
      cases o with
      | none =>
        obtain ⟨i,hi,hm⟩ := ih.mp h
        exact ⟨i+1,by simpa using hi,by omega⟩
      | some g =>
        rcases List.mem_cons.mp h with same | inside
        · cases same; exact ⟨0,by simp,by omega⟩
        · obtain ⟨i,hi,hm⟩ := ih.mp inside
          exact ⟨i+1,by simpa using hi,by omega⟩
    · rintro ⟨i,hi,rfl⟩
      cases i with
      | zero =>
        have same : o = some f := by simpa using hi
        subst same; simp [stamped]
      | succ i =>
        have later : rest[i]? = some (some f) := by simpa using hi
        have inside : (n+(i+1)+1,f) ∈ stamped (n+1) rest := ih.mpr ⟨i,later,by omega⟩
        cases o with
        | none => exact inside
        | some g => exact List.mem_cons_of_mem _ inside

theorem stampedEvents (n : Nat) (a : List (Option β)) :
    (stamped n a).map Prod.snd = a.reduceOption := by
  induction a generalizing n with
  | nil => rfl
  | cons o rest ih => cases o <;> simp [stamped,ih]

theorem stampedBounds {n : Nat} {a : List (Option β)} {d : Nat × β} (h : d ∈ stamped n a) :
    n < d.1 ∧ d.1 ≤ n+a.length := by
  obtain ⟨m,f⟩ := d
  obtain ⟨i,hi,rfl⟩ := memStamped.mp h
  have inside := (List.getElem?_eq_some_iff.mp hi).1
  exact ⟨by omega,by omega⟩

theorem stampedQuiet (n k : Nat) : stamped n (List.replicate k (none : Option β)) = [] := by
  induction k generalizing n with
  | zero => rfl
  | succ k ih => exact ih (n+1)

end Stamps
end Web3PiUps.StepMachine
