import Mathlib.Data.List.DropRight
import Mathlib.Data.List.Pairwise
import Mathlib.Order.Lattice

/-! Ranking a stream by a key with an insertion from the back, first come first
among equals, and a table that keeps the lowest `bound` of the stream: the table
is the beginning of the ranking of everything offered to it. -/
namespace Web3PiUps.LowestKept

universe u v
variable {α : Type u} {κ : Type v} [LinearOrder κ] (key : α → κ)

def place (l : List α) (x : α) : List α :=
  l.rdropWhile (fun y => decide (key x < key y)) ++ x :: l.rtakeWhile (fun y => decide (key x < key y))

def rank (l : List α) : List α := l.foldl (place key) []

@[simp] theorem placeNil (x : α) : place key [] x = [x] := rfl

theorem placeAbove {l : List α} {x z : α} (above : key x < key z) :
    place key (l ++ [z]) x = place key l x ++ [z] := by
  simp [place,above]

theorem placeLast {l : List α} {x z : α} (below : key z ≤ key x) :
    place key (l ++ [z]) x = l ++ [z] ++ [x] := by
  simp [place,not_lt.mpr below]

theorem placePerm (l : List α) (x : α) : (place key l x).Perm (x::l) := by
  induction l using List.reverseRecOn with
  | nil => exact List.Perm.refl _
  | append_singleton l z ih =>
    by_cases above : key x < key z
    · rw [placeAbove key above,← List.cons_append]
      exact ih.append_right [z]
    · rw [placeLast key (not_lt.mp above)]
      exact List.perm_append_singleton x (l ++ [z])

theorem placeLength (l : List α) (x : α) : (place key l x).length = l.length+1 :=
  (placePerm key l x).length_eq

theorem rankConcat (l : List α) (x : α) : rank key (l ++ [x]) = place key (rank key l) x := by
  simp [rank]

theorem rankPerm (l : List α) : (rank key l).Perm l := by
  induction l using List.reverseRecOn with
  | nil => exact List.Perm.refl _
  | append_singleton l x ih =>
    rw [rankConcat]
    exact ((placePerm key (rank key l) x).trans (ih.cons x)).trans (List.perm_append_singleton x l).symm

abbrev Ascends (l : List α) : Prop := l.Pairwise (fun a b => key a ≤ key b)

variable {key}

theorem ascendsLast {l : List α} {z y : α} (ascends : Ascends key (l ++ [z])) (inside : y ∈ l) :
    key y ≤ key z :=
  (List.pairwise_append.mp ascends).2.2 y inside z (List.mem_singleton_self z)

theorem placeAscends {l : List α} (x : α) (ascends : Ascends key l) : Ascends key (place key l x) := by
  induction l using List.reverseRecOn with
  | nil => exact List.pairwise_singleton _ x
  | append_singleton l z ih =>
    by_cases above : key x < key z
    · rw [placeAbove key above]
      refine List.pairwise_append.mpr ⟨ih (List.pairwise_append.mp ascends).1,List.pairwise_singleton _ z,?_⟩
      intro y inside w last
      cases List.mem_singleton.mp last
      rcases List.mem_cons.mp ((placePerm key l x).mem_iff.mp inside) with rfl | old
      · exact above.le
      · exact ascendsLast ascends old
    · have below := not_lt.mp above
      rw [placeLast key below]
      refine List.pairwise_append.mpr ⟨ascends,List.pairwise_singleton _ x,?_⟩
      intro y inside w last
      cases List.mem_singleton.mp last
      rcases List.mem_append.mp inside with old | new
      · exact (ascendsLast ascends old).trans below
      · cases List.mem_singleton.mp new
        exact below

variable (key) in
theorem rankAscends (l : List α) : Ascends key (rank key l) := by
  induction l using List.reverseRecOn with
  | nil => exact List.Pairwise.nil
  | append_singleton l x ih =>
    rw [rankConcat]
    exact placeAscends x ih

theorem placeStable (v : κ) (l : List α) (x : α) :
    (place key l x).filter (fun y => decide (key y = v)) = (l ++ [x]).filter (fun y => decide (key y = v)) := by
  induction l using List.reverseRecOn with
  | nil => rfl
  | append_singleton l z ih =>
    by_cases above : key x < key z
    · rw [placeAbove key above,List.filter_append,ih]
      simp only [List.filter_append,List.append_assoc]
      congr 1
      -- of two that differ at most one has the key `v`
      by_cases equal : key x = v
      · have other : key z ≠ v := fun same => above.ne (equal.trans same.symm)
        simp [equal,other]
      · simp [equal]
    · rw [placeLast key (not_lt.mp above)]

variable (key) in
theorem rankStable (v : κ) (l : List α) :
    (rank key l).filter (fun y => decide (key y = v)) = l.filter (fun y => decide (key y = v)) := by
  induction l using List.reverseRecOn with
  | nil => rfl
  | append_singleton l x ih => rw [rankConcat,placeStable,List.filter_append,List.filter_append,ih]

variable (key) in
theorem keptOrAbove {l : List α} {x : α} (bound : Nat) (inside : x ∈ l) :
    x ∈ (rank key l).take bound ∨ ∀ y ∈ (rank key l).take bound, key y ≤ key x := by
  have ascends := rankAscends key l
  have mem := (rankPerm key l).mem_iff.mpr inside
  rw [← List.take_append_drop bound (rank key l)] at ascends mem
  rcases List.mem_append.mp mem with kept | left
  · exact Or.inl kept
  · exact Or.inr (fun y first => (List.pairwise_append.mp ascends).2.2 y first x left)

/-! The first of a ranking, where no two keys are the same. -/

theorem rankStrict {l : List α} (distinct : (l.map key).Nodup) : (rank key l).Pairwise (fun a b => key a < key b) := by
  have keys : ((rank key l).map key).Nodup := ((rankPerm key l).map key).nodup_iff.mpr distinct
  refine (rankAscends key l).imp₂ (fun a b le ne => lt_of_le_of_ne le ne) ?_
  exact List.pairwise_map.mp keys

theorem belowFirst {l : List α} {n : Nat} {x y : α} (first : x ∈ (rank key l).take n)
    (inside : y ∈ l) (lower : key y < key x) : y ∈ (rank key l).take n := by
  rcases keptOrAbove key n inside with kept | above
  · exact kept
  · exact absurd (above x first) (not_le.mpr lower)

/-- Fewer than `n` are below one of the first `n`. -/
theorem fewBelow {l : List α} {n : Nat} {x : α} (distinct : (l.map key).Nodup) (first : x ∈ (rank key l).take n) :
    (l.filter (fun y => decide (key y < key x))).length < n := by
  have ascends := rankStrict distinct
  have count := ((rankPerm key l).filter (fun y => decide (key y < key x))).length_eq
  rw [← List.take_append_drop n (rank key l)] at ascends count
  have after : ((rank key l).drop n).filter (fun y => decide (key y < key x)) = [] := by
    refine List.filter_eq_nil_iff.mpr fun y later => ?_
    have less := (List.pairwise_append.mp ascends).2.2 x first y later
    simpa using less.le
  rw [List.filter_append,after,List.append_nil] at count
  rw [← count]
  have fewer := (List.length_filter_lt_length_iff_exists (p := fun y => decide (key y < key x))).mpr ⟨x,first,by simp⟩
  exact fewer.trans_le (List.length_take_le _ _)

theorem strictUnique {l m : List α} (ascends : l.Pairwise (fun a b => key a < key b))
    (ascends' : m.Pairwise (fun a b => key a < key b)) (perm : l.Perm m) : l = m :=
  perm.eq_of_pairwise (fun _ _ _ _ less more => absurd less more.asymm) ascends ascends'

variable (key)

def keep (bound : Nat) (l : List α) (x : α) : List α × Bool :=
  if l.length < bound then (place key l x,false) else
    match l.getLast? with
    | none => (l,true)
    | some last => if key last ≤ key x then (l,true) else (place key l.dropLast x,true)

variable {key}

theorem placeBeyond {l r : List α} {x z : α} (below : key z ≤ key x) :
    place key (l ++ [z] ++ r) x = l ++ [z] ++ place key r x := by
  induction r using List.reverseRecOn with
  | nil => rw [List.append_nil,placeLast key below,placeNil]
  | append_singleton r w ih =>
    rw [← List.append_assoc]
    by_cases above : key x < key w
    · rw [placeAbove key above,placeAbove key above,ih,List.append_assoc]
    · have under := not_lt.mp above
      rw [placeLast key under,placeLast key under]
      simp only [List.append_assoc]

theorem placeWithin {l r : List α} {x : α} (above : ∀ y ∈ r, key x < key y) :
    place key (l ++ r) x = place key l x ++ r := by
  induction r using List.reverseRecOn with
  | nil => rw [List.append_nil,List.append_nil]
  | append_singleton r w ih =>
    rw [← List.append_assoc,placeAbove key (above w (by simp)),
      ih (fun y inside => above y (by simp [inside])),List.append_assoc]

theorem keepTake {bound : Nat} (positive : 0 < bound) {l : List α} (x : α) (ascends : Ascends key l) :
    (keep key bound (l.take bound) x).1 = (place key l x).take bound ∧
      ((keep key bound (l.take bound) x).2 = true ↔ bound ≤ l.length) := by
  by_cases room : l.length < bound
  · have whole : l.take bound = l := List.take_of_length_le room.le
    have fits : (place key l x).length ≤ bound := by rw [placeLength]; exact room
    rw [whole,keep,if_pos room,List.take_of_length_le fits]
    simpa using room
  · have full := Nat.not_lt.mp room
    have size : (l.take bound).length = bound := List.length_take_of_le full
    obtain ⟨first,z,cut⟩ : ∃ first z, l.take bound = first ++ [z] :=
      ⟨_,_,(List.dropLast_append_getLast (l := l.take bound) (by
        rw [ne_eq,← List.length_eq_zero_iff,size]
        exact positive.ne')).symm⟩
    have split : l = first ++ [z] ++ l.drop bound := by rw [← cut,List.take_append_drop]
    have count : first.length+1 = bound := by rw [← size,cut,List.length_append,List.length_singleton]
    have stuck : ¬ (first ++ [z]).length < bound := by rw [← cut,size]; exact lt_irrefl bound
    rw [cut,keep,if_neg stuck,List.getLast?_concat]
    dsimp only
    by_cases below : key z ≤ key x
    · rw [if_pos below]
      refine ⟨?_,by simpa using full⟩
      conv_rhs => rw [split,placeBeyond below]
      rw [List.take_append_of_le_length (by rw [← cut,size]),← cut,List.take_take,min_self]
    · rw [if_neg below]
      refine ⟨?_,by simpa using full⟩
      have beyond := not_le.mp below
      have rest : ∀ y ∈ l.drop bound, key x < key y := by
        intro y inside
        rw [split] at ascends
        exact beyond.trans_le ((List.pairwise_append.mp ascends).2.2 z (by simp) y inside)
      conv_rhs => rw [split,placeWithin rest,placeAbove key beyond]
      rw [List.dropLast_concat,List.append_assoc,List.take_append_of_le_length,List.take_of_length_le]
      · rw [placeLength,count]
      · rw [placeLength,count]

theorem keepAll {bound : Nat} (positive : 0 < bound) (l : List α) :
    l.foldl (fun kept x => ((keep key bound kept.1 x).1,kept.2 || (keep key bound kept.1 x).2)) ([],false) =
      ((rank key l).take bound,decide (bound < l.length)) := by
  induction l using List.reverseRecOn with
  | nil => simp [rank]
  | append_singleton l x ih =>
    have step := keepTake positive x (rankAscends key l)
    have size := (rankPerm key l).length_eq
    rw [List.foldl_append,ih,List.foldl_cons,List.foldl_nil,step.1,← rankConcat]
    congr 1
    rw [Bool.eq_iff_iff,Bool.or_eq_true,step.2,decide_eq_true_iff,decide_eq_true_iff,size,List.length_append,
      List.length_singleton]
    omega

end Web3PiUps.LowestKept
