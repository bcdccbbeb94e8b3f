import Web3PiUps.ArkivSweep

/-! `cand_insert` of `arkiv_rpc.c` in its array: the slots below `nc` are in use, and an insertion moves
the higher ones up by one place each. -/
namespace Web3PiUps.ArkivCandidates
open ArkivSweep hiding candInsert
open LowestKept

/-- The `while` loop and the write behind it, with the free place at `i`. -/
def shiftIn (c : Cand) : Nat → List Cand → List Cand
  | 0, cand => cand.set 0 c
  | i+1, cand =>
    match cand[i]? with
    | some below => if c.seq < below.seq then shiftIn c i (cand.set (i+1) below) else cand.set (i+1) c
    | none => cand

theorem shiftInLength (c : Cand) (i : Nat) (cand : List Cand) : (shiftIn c i cand).length = cand.length := by
  induction i generalizing cand with
  | zero => exact List.length_set
  | succ i ih =>
    rw [shiftIn]
    split
    · split
      · exact (ih _).trans List.length_set
      · exact List.length_set
    · rfl

structure Candidates where
  cand : List Cand
  nc : Nat
  evicted : Bool
  size : cand.length = cmdCandMax
  fits : nc ≤ cmdCandMax

def Candidates.live (t : Candidates) : List Cand := t.cand.take t.nc

/-- What the sweep starts with: `junk` is what the stack held before. -/
def fresh (junk : {l : List Cand // l.length = cmdCandMax}) : Candidates :=
  ⟨junk.val,0,false,junk.property,Nat.zero_le _⟩

def candInsert (t : Candidates) (c : Cand) : Candidates :=
  if full : cmdCandMax ≤ t.nc then
    if (t.cand.get ⟨cmdCandMax-1,by rw [t.size]; decide⟩).seq ≤ c.seq then { t with evicted := true }
    else ⟨shiftIn c (cmdCandMax-1) t.cand,cmdCandMax,true,by rw [shiftInLength,t.size],le_refl _⟩
  else ⟨shiftIn c t.nc t.cand,t.nc+1,t.evicted,by rw [shiftInLength,t.size],by omega⟩

/-! One insertion is the insertion from the back of the list in use. -/

theorem shiftInPlaces (c : Cand) {i : Nat} {cand : List Cand} (inside : i < cand.length) :
    shiftIn c i cand = place Cand.seq (cand.take i) c ++ cand.drop (i+1) := by
  induction i generalizing cand with
  | zero =>
    rw [shiftIn,List.take_zero,placeNil,List.set_eq_take_append_cons_drop,if_pos inside]
    rfl
  | succ i ih =>
    have before : i < cand.length := by omega
    have last : cand.take (i+1) = cand.take i ++ [cand[i]] := List.take_succ_eq_append_getElem before
    rw [shiftIn,List.getElem?_eq_getElem before]
    dsimp only
    split_ifs with above
    · have moved : i < (cand.set (i+1) cand[i]).length := by rwa [List.length_set]
      rw [ih moved,last,placeAbove Cand.seq above,List.take_set_of_le (by omega),List.append_assoc]
      congr 1
      have moveUp : (cand.set (i+1) cand[i]).drop (i+1) = cand[i]::cand.drop (i+2) := by
        rw [List.set_eq_take_append_cons_drop,if_pos inside,List.drop_left' (List.length_take_of_le inside.le)]
      exact moveUp
    · rw [last,placeLast Cand.seq (Nat.not_lt.mp above),← last,List.set_eq_take_append_cons_drop,if_pos inside,
        List.append_assoc,List.singleton_append]

theorem insertLive (t : Candidates) (c : Cand) :
    ((candInsert t c).live,(candInsert t c).evicted) = ArkivSweep.candInsert t.live t.evicted c := by
  have size := t.size
  have fits := t.fits
  have used : t.live.length = t.nc := List.length_take_of_le (by omega)
  rw [ArkivSweep.candInsert,keep]
  by_cases full : cmdCandMax ≤ t.nc
  · have whole : t.live = t.cand := List.take_of_length_le (by omega)
    have inside : cmdCandMax-1 < t.cand.length := by rw [size]; decide
    have cut : t.cand = t.cand.take (cmdCandMax-1) ++ [t.cand[cmdCandMax-1]] := by
      have all : t.cand.take (cmdCandMax-1+1) = t.cand := List.take_of_length_le size.le
      rw [← List.take_succ_eq_append_getElem inside,all]
    have last : t.cand.getLast? = some t.cand[cmdCandMax-1] := by
      conv_lhs => rw [cut,List.getLast?_concat]
    have front : t.cand.dropLast = t.cand.take (cmdCandMax-1) := by
      conv_lhs => rw [cut,List.dropLast_concat]
    rw [if_neg (by omega),whole,last,candInsert,dif_pos full]
    dsimp only
    by_cases above : t.cand[cmdCandMax-1].seq ≤ c.seq
    · rw [if_pos above,if_pos (show (t.cand.get _).seq ≤ c.seq from above),Bool.or_true]
      exact Prod.ext whole rfl
    · rw [if_neg above,if_neg (show ¬(t.cand.get _).seq ≤ c.seq from above),Bool.or_true,front]
      have rest : t.cand.drop (cmdCandMax-1+1) = [] := List.drop_of_length_le size.le
      have placed := shiftInPlaces c inside
      rw [rest,List.append_nil] at placed
      have length : (place Cand.seq (t.cand.take (cmdCandMax-1)) c).length = cmdCandMax := by
        rw [placeLength,List.length_take_of_le inside.le]
        rfl
      simp only [Candidates.live,placed]
      rw [List.take_of_length_le length.le]
  · rw [if_pos (by omega),candInsert,dif_neg full,Bool.or_false]
    have placed := shiftInPlaces c (show t.nc < t.cand.length by omega)
    have length : (place Cand.seq (t.cand.take t.nc) c).length = t.nc+1 := by
      rw [placeLength,List.length_take_of_le (by omega)]
    simp only [Candidates.live,placed]
    rw [List.take_left' length]

theorem insertAll (junk : {l : List Cand // l.length = cmdCandMax}) (offered : List Cand) :
    (offered.foldl candInsert (fresh junk)).live = (rank Cand.seq offered).take cmdCandMax ∧
      (offered.foldl candInsert (fresh junk)).evicted = decide (cmdCandMax < offered.length) := by
  have follow : ∀ (rest : List Cand) (t : Candidates),
      ((rest.foldl candInsert t).live,(rest.foldl candInsert t).evicted) =
        rest.foldl (fun kept x => ((keep Cand.seq cmdCandMax kept.1 x).1,kept.2 || (keep Cand.seq cmdCandMax kept.1 x).2))
          (t.live,t.evicted) := by
    intro rest
    induction rest with
    | nil => exact fun _ => rfl
    | cons c rest ih =>
      intro t
      rw [List.foldl_cons,ih,insertLive,List.foldl_cons]
      rfl
  have start := follow offered (fresh junk)
  have all := @LowestKept.keepAll _ _ _ Cand.seq cmdCandMax (by decide) offered
  have empty : (fresh junk).live = [] := List.take_zero
  rw [empty] at start
  exact Prod.mk.inj (start.trans all)

/-- The array is what a stable sort of the offers begins with. -/
structure Lowest (offered : List Cand) (t : Candidates) : Prop where
  ascending : t.live.Pairwise (fun c x => c.seq ≤ x.seq)
  bounded : t.live.length = min cmdCandMax offered.length
  lowest : ∃ left, (t.live ++ left).Perm offered ∧ (∀ c ∈ t.live, ∀ x ∈ left, c.seq ≤ x.seq) ∧
    (t.evicted = true ↔ left ≠ [])
  firstCome : ∀ seq, (t.live.filter (fun c => decide (c.seq = seq))).IsPrefix
    (offered.filter (fun c => decide (c.seq = seq)))

theorem keepsLowest (junk : {l : List Cand // l.length = cmdCandMax}) (offered : List Cand) :
    Lowest offered (offered.foldl candInsert (fresh junk)) := by
  have all := insertAll junk offered
  have ranked := rankPerm Cand.seq offered
  have ascends := rankAscends Cand.seq offered
  have cut := List.take_append_drop cmdCandMax (rank Cand.seq offered)
  have sorted := ascends
  rw [← cut] at sorted
  refine ⟨?_,?_,⟨(rank Cand.seq offered).drop cmdCandMax,?_,?_,?_⟩,fun seq => ?_⟩
  · rw [all.1]
    exact (List.pairwise_append.mp sorted).1
  · rw [all.1,List.length_take,ranked.length_eq]
  · rw [all.1,cut]
    exact ranked
  · rw [all.1]
    exact (List.pairwise_append.mp sorted).2.2
  · rw [all.2,decide_eq_true_iff,Ne,List.drop_eq_nil_iff,ranked.length_eq,Nat.not_le]
  · rw [all.1,← rankStable Cand.seq seq offered]
    exact (List.take_prefix _ _).filter _

end Web3PiUps.ArkivCandidates
