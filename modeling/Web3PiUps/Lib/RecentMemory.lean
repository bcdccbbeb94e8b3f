import Mathlib.Data.Finset.Card
import Mathlib.Data.Finset.Dedup
import Mathlib.Data.List.DropRight

/-! A memory of the last `cap` items that takes in only what it does not hold. -/
namespace Web3PiUps.RecentMemory

variable {α : Type} [DecidableEq α] {cap : Nat}

def remember (cap : Nat) (seen : List α) (x : α) : Option (List α) :=
  if x ∈ seen then none
  else
    let seen := seen ++ [x]
    some (if cap < seen.length then seen.drop 1 else seen)

/-- The memory is the last `cap` of all it ever took in. -/
theorem rememberRecent {xs seen : List α} {x : α} (admitted : remember cap (xs.rtake cap) x = some seen) :
    seen = (xs ++ [x]).rtake cap ∧ x ∉ xs.rtake cap := by
  rw [remember] at admitted
  split at admitted
  · cases admitted
  · rename_i new
    refine ⟨?_,new⟩
    cases admitted
    have size : (xs.rtake cap).length = min cap xs.length := by
      rw [List.rtake.eq_def,List.length_drop]
      omega
    rw [List.length_append,size,List.length_singleton]
    rw [List.rtake.eq_def,List.rtake.eq_def,List.length_append,List.length_singleton]
    split
    · rename_i full
      have shift : xs.length+1-cap = (xs.length-cap)+1 := by omega
      rw [← List.drop_append_of_le_length (by omega),List.drop_drop,shift]
    · rename_i room
      have none_ : xs.length-cap = 0 := by omega
      have still : xs.length+1-cap = 0 := by omega
      rw [none_,still]
      rfl

omit [DecidableEq α] in
/-- What is forgotten has had `cap` others after it. -/
theorem forgottenAfter {a b : List α} {x : α} (forgotten : x ∉ (a ++ [x] ++ b).rtake cap) : cap ≤ b.length := by
  by_contra short
  refine forgotten ?_
  rw [List.rtake.eq_def,List.length_append,List.length_append,List.length_singleton,List.append_assoc,
    List.drop_append_of_le_length (by omega)]
  exact List.mem_append_right _ (List.mem_append_left _ List.mem_cons_self)

/-- A run of items, each new to the memory. -/
inductive Takes (cap : Nat) : List α → List α → List α → Prop where
  | nil (seen : List α) : Takes cap seen [] seen
  | cons {seen next last : List α} {x : α} {xs : List α} (first : remember cap seen x = some next)
      (rest : Takes cap next xs last) :
      Takes cap seen (x :: xs) last

theorem memory_le {seen next : List α} {x : α} (fits : seen.length ≤ cap) (admitted : remember cap seen x = some next) :
    next.length ≤ cap := by
  rw [remember] at admitted
  split at admitted
  · cases admitted
  · cases admitted
    rw [List.length_append,List.length_singleton]
    split
    · rw [List.length_drop,List.length_append,List.length_singleton]
      omega
    · rw [List.length_append,List.length_singleton]
      omega

/-- Of `cap` other items one is new while the memory holds `x`. -/
theorem oneNew {seen others : List α} {x : α} (fits : seen.length ≤ cap) (here : x ∈ seen) (apart : x ∉ others)
    (distinct : others.Nodup) (enough : cap ≤ others.length) : ∃ y ∈ others, y ∉ seen := by
  by_contra none_
  have all : ∀ y ∈ x :: others, y ∈ seen := by
    intro y there
    rcases List.mem_cons.mp there with rfl | there
    · exact here
    · by_contra out
      exact none_ ⟨y,there,out⟩
  have bound : (x :: others).toFinset.card ≤ seen.toFinset.card :=
    Finset.card_le_card fun y there => List.mem_toFinset.mpr (all y (List.mem_toFinset.mp there))
  rw [List.toFinset_card_of_nodup (List.nodup_cons.mpr ⟨apart,distinct⟩),List.length_cons] at bound
  have small := List.toFinset_card_le seen
  omega

theorem movesOn {seen next : List α} {x y : α} (other : y ≠ x) (admitted : remember cap seen y = some next) (here : x ∈ next) :
    next.reverse.idxOf x = seen.reverse.idxOf x+1 := by
  rw [remember] at admitted
  split at admitted
  · cases admitted
  have grown : (seen ++ [y]).reverse.idxOf x = seen.reverse.idxOf x+1 := by
    rw [List.reverse_append,List.reverse_singleton,List.singleton_append,List.idxOf_cons_ne _ other]
  dsimp only at admitted
  split at admitted
  · cases admitted
    rw [← grown]
    conv_rhs => rw [← List.take_append_drop 1 (seen ++ [y]),List.reverse_append]
    exact (List.idxOf_append_of_mem (List.mem_reverse.mpr here)).symm
  · cases admitted
    exact grown

/-- `cap` others are enough to make the memory forget an item, whatever it holds. -/
theorem flushed {others : List α} {x : α} (apart : x ∉ others) (distinct : others.Nodup) (enough : cap ≤ others.length)
    {seen : List α} (fits : seen.length ≤ cap) :
    ∃ xs last, (∀ y ∈ xs, y ∈ others) ∧ Takes cap seen xs last ∧ x ∉ last ∧ last.length ≤ cap := by
  induction left : cap-seen.reverse.idxOf x using Nat.strong_induction_on generalizing seen with
  | _ n ih =>
    by_cases here : x ∈ seen
    · obtain ⟨y,there,new⟩ := oneNew fits here apart distinct enough
      have other : y ≠ x := fun same => apart (same ▸ there)
      obtain ⟨next,admitted⟩ : ∃ next, remember cap seen y = some next := ⟨_,if_neg new⟩
      have short := memory_le fits admitted
      by_cases still : x ∈ next
      · have moved := movesOn other admitted still
        have inside : next.reverse.idxOf x < next.reverse.length := List.idxOf_lt_length_of_mem (List.mem_reverse.mpr still)
        rw [List.length_reverse] at inside
        obtain ⟨xs,last,only,takes,gone,size⟩ := ih _ (by omega) short rfl
        exact ⟨y :: xs,last,List.forall_mem_cons.mpr ⟨there,only⟩,.cons admitted takes,gone,size⟩
      · exact ⟨[y],next,fun z only => by rwa [List.mem_singleton.mp only],.cons admitted (.nil next),still,short⟩
    · exact ⟨[],seen,fun z none_ => absurd none_ List.not_mem_nil,.nil seen,here,fits⟩

end Web3PiUps.RecentMemory
