import Web3PiUps.ArkivSkips

/-! Whether a complete sweep serves the owner: the lowest commands that are pending, as many as a
sweep dispatches, whatever a few foreign entities among them look like. -/
namespace Web3PiUps.ArkivStarvation
open WupsProtocol ArkivEntity CmdauthArkiv ArkivSweep ArkivListing ArkivSkips LowestKept AscendingPass

section Sweep
variable (env : Env) (iccid : Bytes) (a : Auth) (entities : List Json)

def pending : List Json := entities.filter (fun e => decide (a.lastCtr < seqOf e))

/-- The commands that the device can take. -/
def acceptable : List Cand := ((pending a entities).map candOf).filter (fun c => decide (Takes env iccid a c))

def lowestAcceptable : List Cand := (rank Cand.seq (acceptable env iccid a entities)).take arkivCmdMaxPerSweep

/-- Exactly the lowest acceptable commands were accepted, in this order, and the last of them is
the new baseline. -/
structure Served (s : Sweep) : Prop where
  accepted : s.outcome.accepted = lowestAcceptable env iccid a entities
  baseline : s.outcome.auth.lastCtr = top Cand.seq a.lastCtr (lowestAcceptable env iccid a entities)

/-- No seq twice, and at most a page of entities that the device cannot take. -/
structure FewForeign : Prop where
  distinct : ((pending a entities).map seqOf).Nodup
  few : (((pending a entities).map candOf).filter (fun c => decide (¬Takes env iccid a c))).length ≤ arkivCmdPageN

variable {env iccid a entities}

theorem candSeqs (l : List Json) : (l.map candOf).map Cand.seq = l.map seqOf := by
  rw [List.map_map]
  rfl

theorem acceptableDistinct (h : FewForeign env iccid a entities) :
    ((acceptable env iccid a entities).map Cand.seq).Nodup := by
  have all := h.distinct
  rw [← candSeqs] at all
  exact all.sublist (List.filter_sublist.map _)

theorem shownPending {lastCtr floor : Nat} :
    List.Sublist (shown entities ⟨lastCtr,floor⟩) (entities.filter (fun e => decide (lastCtr < seqOf e))) := by
  have inside : List.Sublist (shown entities ⟨lastCtr,floor⟩)
      ((entities.filter (fun e => decide (InWindow ⟨lastCtr,floor⟩ e))).filter
        (fun e => decide (Fresh ⟨lastCtr,floor⟩ e))) := (List.take_sublist _ _).filter _
  rw [List.filter_filter] at inside
  refine inside.trans (List.monotone_filter_right _ fun e both => ?_)
  rw [Bool.and_eq_true] at both
  exact decide_eq_true (of_decide_eq_true both.1).1

theorem listingDistinct {lastCtr : Nat}
    (distinct : ((entities.filter (fun e => decide (lastCtr < seqOf e))).map seqOf).Nodup) (pages floor : Nat) :
    ((listing entities lastCtr pages floor).map seqOf).Nodup := by
  induction pages generalizing floor with
  | zero => exact List.nodup_nil
  | succ pages ih =>
    rw [listing,List.map_append]
    refine (distinct.sublist (shownPending.map seqOf)).append (ih _) ?_
    intro seq here later
    obtain ⟨e,shown_,rfl⟩ := List.mem_map.mp here
    obtain ⟨w,listed_,same⟩ := List.mem_map.mp later
    have low := (lowestLe floor _).2 e shown_
    have below := (listingMember listed_).2.2
    omega

theorem keptDistinct (h : FewForeign env iccid a entities) : ((kept a entities).map Cand.seq).Nodup := by
  have all : (((listed a entities).map candOf).map Cand.seq).Nodup := by
    rw [candSeqs]
    exact listingDistinct h.distinct _ _
  have ranked := ((rankPerm Cand.seq _).map Cand.seq).nodup_iff.mpr all
  exact ranked.sublist ((List.take_sublist _ _).map _)

theorem keptPending {c : Cand} (mem : c ∈ kept a entities) : c ∈ (pending a entities).map candOf := by
  obtain ⟨e,listed_,rfl⟩ := keptListed mem
  obtain ⟨inside,above,-⟩ := listingMember listed_
  exact List.mem_map_of_mem (List.mem_filter.mpr ⟨inside,decide_eq_true above⟩)

theorem keptAcceptable {c : Cand} (mem : c ∈ kept a entities) (takes : Takes env iccid a c) :
    c ∈ acceptable env iccid a entities := List.mem_filter.mpr ⟨keptPending mem,decide_eq_true takes⟩

/-- Of the acceptable candidates that are kept, few are below one of the lowest. -/
theorem keptBelow (h : FewForeign env iccid a entities) {t : Cand} (low : t ∈ lowestAcceptable env iccid a entities)
    {l : List Cand} (sub : List.Sublist l (kept a entities)) (takes : ∀ c ∈ l, Takes env iccid a c ∧ c.seq < t.seq) :
    l.length < arkivCmdMaxPerSweep := by
  have nodup : l.Nodup := (List.Nodup.of_map _ (keptDistinct h)).sublist sub
  refine Nat.lt_of_le_of_lt ?_ (fewBelow (acceptableDistinct h) low)
  refine (nodup.subperm fun c mem => ?_).length_le
  exact List.mem_filter.mpr ⟨keptAcceptable (sub.subset mem) (takes c mem).1,decide_eq_true (takes c mem).2⟩

/-- A command that is among the lowest and listed is kept, whatever else is listed. -/
theorem lowestKept (h : FewForeign env iccid a entities) {t : Cand} (low : t ∈ lowestAcceptable env iccid a entities)
    (listed_ : t.e ∈ listed a entities) : t ∈ kept a entities := by
  have takes : t ∈ acceptable env iccid a entities := (rankPerm _ _).mem_iff.mp (List.mem_of_mem_take low)
  obtain ⟨pending_,takes⟩ := List.mem_filter.mp takes
  obtain ⟨e,-,rfl⟩ := List.mem_map.mp pending_
  have takes := of_decide_eq_true takes
  by_contra out
  have full : (kept a entities).length = cmdCandMax := by
    refine List.length_take_of_le ?_
    by_contra short
    rw [kept,List.take_of_length_le (Nat.le_of_lt (Nat.not_le.mp short))] at out
    exact out ((rankPerm _ _).mem_iff.mpr (List.mem_map_of_mem listed_))
  have above := (keptOrAbove Cand.seq cmdCandMax (List.mem_map_of_mem (f := candOf) listed_)).resolve_left out
  -- below it are fewer than eight acceptable ones, and six others
  have split := List.length_eq_length_filter_add (l := kept a entities) (fun c => decide (Takes env iccid a c))
  have own : ((kept a entities).filter (fun c => decide (Takes env iccid a c))).length < arkivCmdMaxPerSweep := by
    refine keptBelow h low List.filter_sublist fun c mem => ?_
    obtain ⟨inside,ok⟩ := List.mem_filter.mp mem
    refine ⟨of_decide_eq_true ok,lt_of_le_of_ne (above c inside) fun same => out ?_⟩
    have one := List.inj_on_of_nodup_map (acceptableDistinct h) (keptAcceptable inside (of_decide_eq_true ok))
      (List.mem_filter.mpr ⟨pending_,decide_eq_true takes⟩) same
    rw [← one]
    exact inside
  have foreign : ((kept a entities).filter (fun c => !decide (Takes env iccid a c))).length ≤ arkivCmdPageN := by
    have nodup : ((kept a entities).filter (fun c => !decide (Takes env iccid a c))).Nodup :=
      (List.Nodup.of_map _ (keptDistinct h)).sublist List.filter_sublist
    refine (nodup.subperm fun c mem => ?_).length_le.trans h.few
    obtain ⟨inside,bad⟩ := List.mem_filter.mp mem
    exact List.mem_filter.mpr ⟨keptPending inside,by simpa using bad⟩
  rw [full] at split
  have room : cmdCandMax = arkivCmdMaxPerSweep + arkivCmdPageN := rfl
  omega

/-! The lowest commands, all kept, are accepted, and then nothing else is. -/

theorem lowestDue (h : FewForeign env iccid a entities)
    (all : ∀ t ∈ lowestAcceptable env iccid a entities, t ∈ kept a entities)
    (remote : ∀ c ∈ (accepting env iccid a (kept a entities)).accepted, ¬LocalOp iccid c) (seq : Nat) :
    ∀ t ∈ lowestAcceptable env iccid a entities, t.seq = seq →
      t ∈ (accepting env iccid a (kept a entities)).accepted := by
  induction seq using Nat.strong_induction_on with
  | _ seq ih =>
    intro t low here
    have settled := keptSettled env iccid a entities
    have strict : (kept a entities).Pairwise (fun x y => x.seq < y.seq) := by
      have ascends := (rankAscends Cand.seq ((listed a entities).map candOf)).sublist (List.take_sublist cmdCandMax _)
      exact ascends.imp₂ (fun x y le ne => lt_of_le_of_ne le ne) (List.pairwise_map.mp (keptDistinct h))
    have acceptable_ : t ∈ acceptable env iccid a entities := (rankPerm _ _).mem_iff.mp (List.mem_of_mem_take low)
    have takes : Takes env iccid a t := of_decide_eq_true (List.mem_filter.mp acceptable_).2
    obtain ⟨before,after,same⟩ := List.append_of_mem (all t low)
    have lower : ∀ w ∈ before, w.seq < t.seq := by
      rw [same] at strict
      exact fun w mem => (List.pairwise_append.mp strict).2.2 w mem t List.mem_cons_self
    have sub : List.Sublist before (kept a entities) := by
      rw [same]
      exact List.sublist_append_left ..
    refine settled.reached t ⟨before,after,same,⟨takes,fun w mem _ => lower w mem⟩,?_,fun first w rest split leads => ?_⟩
    · refine Nat.lt_of_le_of_lt (List.dedup_sublist _).length_le ?_
      rw [List.length_map]
      exact keptBelow h low (List.filter_sublist.trans sub) fun c mem =>
        ⟨of_decide_eq_true (List.mem_filter.mp mem).2,lower c (List.mem_filter.mp mem).1⟩
    · have mem : w ∈ before := by
        rw [split]
        simp
      have lowToo : w ∈ lowestAcceptable env iccid a entities :=
        belowFirst low (keptAcceptable (sub.subset mem) leads.1) (lower w mem)
      exact remote w (ih w.seq (here ▸ lower w mem) w lowToo rfl)

theorem lowestAccepted (h : FewForeign env iccid a entities)
    (all : ∀ t ∈ lowestAcceptable env iccid a entities, t ∈ kept a entities)
    (remote : ∀ c ∈ (accepting env iccid a (kept a entities)).accepted, ¬LocalOp iccid c) :
    (accepting env iccid a (kept a entities)).accepted = lowestAcceptable env iccid a entities := by
  have settled := keptSettled env iccid a entities
  have strict := (rankStrict (acceptableDistinct h)).sublist (List.take_sublist arkivCmdMaxPerSweep _)
  have nodup : (lowestAcceptable env iccid a entities).Nodup := strict.imp fun less same => absurd (same ▸ less) (lt_irrefl _)
  have nodup' : (accepting env iccid a (kept a entities)).accepted.Nodup :=
    settled.ascending.imp fun less same => absurd (same ▸ less) (lt_irrefl _)
  have within : (accepting env iccid a (kept a entities)).accepted ⊆ acceptable env iccid a entities := fun c mem =>
    keptAcceptable (dueMember (settled.due c mem)).1 (dueMember (settled.due c mem)).2
  have size : (accepting env iccid a (kept a entities)).accepted.length ≤
      (lowestAcceptable env iccid a entities).length := by
    rw [lowestAcceptable,List.length_take,(rankPerm _ _).length_eq]
    exact le_min settled.size (nodup'.subperm within).length_le
  have perm := (nodup.subperm fun t low => lowestDue h all remote t.seq t low rfl).perm_of_length_le size
  exact strictUnique settled.ascending strict perm.symm

variable {fails : Nat → Bool}

/-- The lowest commands are served exactly when the pages list them all. -/
theorem servedWhere (complete : (pollOnce env (node entities fails) iccid a).gathered.complete = true)
    (h : FewForeign env iccid a entities)
    (remote : ∀ c ∈ (pollOnce env (node entities fails) iccid a).outcome.accepted, ¬LocalOp iccid c) :
    Served env iccid a entities (pollOnce env (node entities fails) iccid a) ↔
      ∀ c ∈ lowestAcceptable env iccid a entities, c.e ∈ listed a entities := by
  have follows := sweepFollows complete
  rw [follows.accepted] at remote
  constructor
  · intro served c low
    rw [← served.accepted,follows.accepted] at low
    obtain ⟨e,listed_,rfl⟩ := keptListed (dueMember ((keptSettled env iccid a entities).due c low)).1
    exact listed_
  · intro all
    have accepted := lowestAccepted h (fun t low => lowestKept h low (all t low)) remote
    exact ⟨follows.accepted.trans accepted,by rw [follows.baseline,accepted]⟩

end Sweep

/-! Two commands of the owner, seq 4 and 5, and five newer entities of strangers. The one of
seq 1 ends the listing after a page, without the command of seq 4. -/

def starving : List Json := [stranger 1,stranger 9,stranger 8,stranger 7,stranger 6,newer.entity,older.entity]

abbrev starvingSweep : Sweep := pollOnce crypto (node starving fun _ => false) iccid device

theorem starvingRun : starvingSweep.gathered.complete = true ∧ starvingSweep.outcome.accepted.map Cand.seq = [5] ∧
    ∀ c ∈ starvingSweep.outcome.accepted, ¬LocalOp iccid c := by decide +kernel

theorem starvingForeign : FewForeign crypto iccid device starving where
  distinct := by decide +kernel
  few := by decide +kernel

theorem starvingLowest : (lowestAcceptable crypto iccid device starving).map Cand.seq = [4,5] := by decide +kernel

theorem starvingWhere : Served crypto iccid device starving starvingSweep ↔
    ∀ c ∈ lowestAcceptable crypto iccid device starving, c.e ∈ listed device starving :=
  servedWhere starvingRun.1 starvingForeign starvingRun.2.2

theorem ownerStarved : starvingSweep.gathered.complete = true ∧ FewForeign crypto iccid device starving ∧
    (∀ c ∈ starvingSweep.outcome.accepted, ¬LocalOp iccid c) ∧ ¬Served crypto iccid device starving starvingSweep := by
  obtain ⟨complete,accepted,remote⟩ := starvingRun
  refine ⟨complete,starvingForeign,remote,fun served => ?_⟩
  rw [served.accepted,starvingLowest] at accepted
  exact absurd accepted (by decide)

end Web3PiUps.ArkivStarvation
