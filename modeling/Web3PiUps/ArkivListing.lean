import Web3PiUps.ArkivSweep

/-! What a sweep gets to see of the pending entities. The node answers a window
with its newest entities, one page of them; the next window ends below the lowest
seq of the page. A complete gather keeps the lowest of what these pages list. -/
namespace Web3PiUps.ArkivListing
open WupsProtocol ArkivEntity ArkivSweep LowestKept

/-! The node: its entities newest first, and the queries that fail. -/

def InWindow (q : Query) (e : Json) : Prop :=
  q.lastCtr < seqOf e ∧ (q.floor = uint64Max ∨ seqOf e < q.floor)
instance (q e) : Decidable (InWindow q e) := by unfold InWindow; infer_instance

def newest (entities : List Json) (q : Query) : List Json :=
  (entities.filter (fun e => decide (InWindow q e))).take arkivCmdPageN

def response (data : List Json) : Json :=
  .object [(ascii "result",.object [(ascii "data",.array data)])]

def node (entities : List Json) (fails : Nat → Bool) : Rpc := fun n q =>
  if fails n then none else some (response (newest entities q))

theorem responseData (data : List Json) : pageData (response data) = some data := by
  simp [pageData,response,getObjectItem]

def Fresh (q : Query) (e : Json) : Prop := q.lastCtr < seqOf e ∧ seqOf e < q.floor
instance (q e) : Decidable (Fresh q e) := by unfold Fresh; infer_instance

def shown (entities : List Json) (q : Query) : List Json :=
  (newest entities q).filter (fun e => decide (Fresh q e))

def lowest (floor : Nat) (page : List Json) : Nat := (page.map seqOf).foldl min floor

def listing (entities : List Json) (lastCtr : Nat) : (pages : Nat) → (floor : Nat) → List Json
  | 0, _ => []
  | pages+1, floor =>
    let page := shown entities ⟨lastCtr,floor⟩
    page ++ listing entities lastCtr pages (lowest floor page)

theorem shownMember {entities q e} (mem : e ∈ shown entities q) : e ∈ entities ∧ Fresh q e := by
  obtain ⟨page,fresh⟩ := List.mem_filter.mp mem
  exact ⟨(List.mem_filter.mp (List.mem_of_mem_take page)).1,by simpa using fresh⟩

theorem lowestLe (floor : Nat) (page : List Json) :
    lowest floor page ≤ floor ∧ ∀ e ∈ page, lowest floor page ≤ seqOf e := by
  induction page generalizing floor with
  | nil => exact ⟨Nat.le_refl _,by simp⟩
  | cons e rest ih =>
    obtain ⟨start,all⟩ := ih (min floor (seqOf e))
    refine ⟨start.trans (Nat.min_le_left _ _),fun x mem => ?_⟩
    rcases List.mem_cons.mp mem with rfl | inside
    · exact start.trans (Nat.min_le_right _ _)
    · exact all x inside

theorem listingMember {entities lastCtr pages floor e} (mem : e ∈ listing entities lastCtr pages floor) :
    e ∈ entities ∧ lastCtr < seqOf e ∧ seqOf e < floor := by
  induction pages generalizing floor with
  | zero => simp [listing] at mem
  | succ pages ih =>
    rcases List.mem_append.mp mem with here | later
    · obtain ⟨inside,fresh⟩ := shownMember here
      exact ⟨inside,fresh.1,fresh.2⟩
    · obtain ⟨inside,above,below⟩ := ih later
      exact ⟨inside,above,below.trans_le (lowestLe floor _).1⟩

theorem listingNone {entities lastCtr floor} (pages : Nat)
    (none : ∀ e ∈ entities, lastCtr < seqOf e → floor ≤ seqOf e) :
    listing entities lastCtr pages floor = [] := by
  refine List.eq_nil_iff_forall_not_mem.mpr (fun e mem => ?_)
  obtain ⟨inside,above,below⟩ := listingMember mem
  exact absurd (none e inside above) (Nat.not_le.mpr below)

def candOf (e : Json) : Cand := ⟨seqOf e,e⟩

def offer (kept : List Cand × Bool) (c : Cand) : List Cand × Bool := candInsert kept.1 kept.2 c

theorem gatherPage (q : Query) (data : List Json) (p : Page) :
    let fresh := data.filter (fun e => decide (Fresh q e))
    let kept := (fresh.map candOf).foldl offer (p.cand,p.evicted)
    data.foldl (gatherEntity q) p =
      ⟨p.count+data.length,p.added+fresh.length,lowest p.min fresh,kept.1,kept.2⟩ := by
  induction data generalizing p with
  | nil => rfl
  | cons e rest ih =>
    rw [List.foldl_cons,ih]
    by_cases fresh : Fresh q e
    · have inside : ¬ (seqOf e ≤ q.lastCtr ∨ seqOf e ≥ q.floor) := by
        have both := fresh
        unfold Fresh at both
        omega
      have least : (if seqOf e < p.min then seqOf e else p.min) = min p.min (seqOf e) := by
        split <;> omega
      simp only [gatherEntity,if_neg inside,List.filter_cons,fresh,decide_true,if_true,
        List.length_cons,least,lowest,List.map_cons,List.foldl_cons,offer,candOf]
      rw [Nat.add_right_comm p.count,Nat.add_assoc p.count,Nat.add_right_comm p.added,Nat.add_assoc p.added]
    · have outside : seqOf e ≤ q.lastCtr ∨ seqOf e ≥ q.floor := by
        by_contra within
        exact fresh (by unfold Fresh; omega)
      simp only [gatherEntity,if_pos outside,List.filter_cons,fresh,decide_false,Bool.false_eq_true,
        if_false,List.length_cons]
      rw [Nat.add_right_comm,Nat.add_assoc]

theorem offerRanked (seen more : List Cand) (evicted : Bool) :
    (more.foldl offer ((rank Cand.seq seen).take cmdCandMax,evicted)).1 =
      (rank Cand.seq (seen ++ more)).take cmdCandMax := by
  induction more generalizing seen evicted with
  | nil => rw [List.foldl_nil,List.append_nil]
  | cons c rest ih =>
    have positive : 0 < cmdCandMax := by decide
    have one := (keepTake positive c (rankAscends Cand.seq seen)).1
    rw [← rankConcat] at one
    rw [List.foldl_cons,offer,candInsert,one,ih,List.append_assoc,List.singleton_append]

theorem shortPage {entities q} (short : (newest entities q).length < arkivCmdPageN) :
    ∀ e ∈ entities, InWindow q e → e ∈ newest entities q := by
  intro e mem inside
  have all : newest entities q = entities.filter (fun e => decide (InWindow q e)) := by
    refine List.take_of_length_le ?_
    by_contra long
    rw [newest,List.length_take_of_le (Nat.le_of_lt (Nat.not_le.mp long))] at short
    exact lt_irrefl _ short
  rw [all]
  exact List.mem_filter.mpr ⟨mem,by simpa using inside⟩

theorem belowShort {entities lastCtr floor} (short : (newest entities ⟨lastCtr,floor⟩).length < arkivCmdPageN) :
    ∀ e ∈ entities, lastCtr < seqOf e → lowest floor (shown entities ⟨lastCtr,floor⟩) ≤ seqOf e := by
  intro e mem above
  by_cases below : seqOf e < floor
  · have inside : e ∈ shown entities ⟨lastCtr,floor⟩ :=
      List.mem_filter.mpr ⟨shortPage short e mem ⟨above,Or.inr below⟩,by simpa using ⟨above,below⟩⟩
    exact (lowestLe floor _).2 e inside
  · exact (lowestLe floor _).1.trans (Nat.not_lt.mp below)

theorem lowestFrom {floor : Nat} {page : List Json} (start : floor ≤ uint64Max) (filled : page ≠ [])
    (below : ∀ e ∈ page, seqOf e < floor) : lowest uint64Max page = lowest floor page := by
  cases page with
  | nil => exact absurd rfl filled
  | cons e rest =>
    have first := below e List.mem_cons_self
    simp only [lowest,List.map_cons,List.foldl_cons]
    rw [Nat.min_eq_right (first.le.trans start),Nat.min_eq_right first.le]

def afterPage (entities : List Json) (q : Query) (g : Gather) : Gather :=
  let kept := ((shown entities q).map candOf).foldl offer (g.cand,g.evicted)
  { g with pages := g.pages+1, cand := kept.1, evicted := kept.2, seen := g.seen+(newest entities q).length }

theorem gatherNext (entities : List Json) (fails : Nat → Bool) (iccid : Bytes) (lastCtr pages floor : Nat)
    (g : Gather) :
    let q : Query := ⟨lastCtr,floor⟩
    gather (node entities fails) iccid lastCtr (pages+1) floor g =
      if (queryBody iccid q).length ≥ bodyCap then { g with aborted := true } else
      if fails (g.pages+1) = true then { g with pages := g.pages+1, aborted := true } else
      if (newest entities q).length < arkivCmdPageN then { afterPage entities q g with complete := true } else
      if (shown entities q).length = 0 then afterPage entities q g else
      if lowest uint64Max (shown entities q) ≤ (lastCtr+1) % 2^64 then
        { afterPage entities q g with complete := true } else
      gather (node entities fails) iccid lastCtr pages (lowest uint64Max (shown entities q))
        (afterPage entities q g) := by
  intro q
  have page := gatherPage q (newest entities q) ⟨0,0,uint64Max,g.cand,g.evicted⟩
  rw [gather]
  dsimp only
  by_cases long : (queryBody iccid q).length ≥ bodyCap
  · rw [if_pos long,if_pos long]
  · rw [if_neg long,if_neg long]
    cases down : fails (g.pages+1) with
    | true => simp only [node,down,if_true]
    | false =>
      simp only [node,down,Bool.false_eq_true,if_false,responseData]
      simp only [Nat.zero_add] at page
      rw [page]
      rfl

section Complete
variable {entities : List Json} {fails : Nat → Bool} {iccid : Bytes} {lastCtr floor : Nat} {g : Gather}

/-- A complete gather ends on a page with nothing pending below it, or goes on. -/
theorem gatherEnds (pages : Nat) (start : floor ≤ uint64Max) (fresh : g.complete = false)
    (complete : (gather (node entities fails) iccid lastCtr (pages+1) floor g).complete = true) :
    let q : Query := ⟨lastCtr,floor⟩
    (gather (node entities fails) iccid lastCtr (pages+1) floor g =
        { afterPage entities q g with complete := true } ∧
      ∀ e ∈ entities, lastCtr < seqOf e → lowest floor (shown entities q) ≤ seqOf e) ∨
    gather (node entities fails) iccid lastCtr (pages+1) floor g =
      gather (node entities fails) iccid lastCtr pages (lowest floor (shown entities q)) (afterPage entities q g) := by
  intro q
  rw [gatherNext] at complete ⊢
  by_cases long : (queryBody iccid q).length ≥ bodyCap
  · rw [if_pos long] at complete
    exact absurd (fresh.symm.trans complete) Bool.false_ne_true
  rw [if_neg long] at complete ⊢
  by_cases down : fails (g.pages+1) = true
  · rw [if_pos down] at complete
    exact absurd (fresh.symm.trans complete) Bool.false_ne_true
  rw [if_neg down] at complete ⊢
  by_cases short : (newest entities q).length < arkivCmdPageN
  · rw [if_pos short]
    exact Or.inl ⟨rfl,belowShort short⟩
  rw [if_neg short] at complete ⊢
  by_cases idle : (shown entities q).length = 0
  · rw [if_pos idle] at complete
    exact absurd (fresh.symm.trans complete) Bool.false_ne_true
  have filled : shown entities q ≠ [] := fun none => idle (by rw [none]; rfl)
  rw [if_neg idle,lowestFrom start filled (fun e mem => (shownMember mem).2.2)]
  by_cases bottom : lowest floor (shown entities q) ≤ (lastCtr+1) % 2^64
  · rw [if_pos bottom]
    exact Or.inl ⟨rfl,fun e _ above => (bottom.trans (Nat.mod_le _ _)).trans above⟩
  · rw [if_neg bottom]
    exact Or.inr rfl

theorem gatherLists (pages : Nat) {seen : List Cand} (start : floor ≤ uint64Max)
    (fresh : g.complete = false) (sound : g.aborted = false)
    (ranked : g.cand = (rank Cand.seq seen).take cmdCandMax)
    (complete : (gather (node entities fails) iccid lastCtr pages floor g).complete = true) :
    (gather (node entities fails) iccid lastCtr pages floor g).cand =
        (rank Cand.seq (seen ++ (listing entities lastCtr pages floor).map candOf)).take cmdCandMax ∧
      (gather (node entities fails) iccid lastCtr pages floor g).aborted = false := by
  induction pages generalizing floor g seen with
  | zero =>
    rw [gather,fresh] at complete
    exact absurd complete Bool.false_ne_true
  | succ pages ih =>
    have kept : (afterPage entities ⟨lastCtr,floor⟩ g).cand =
        (rank Cand.seq (seen ++ (shown entities ⟨lastCtr,floor⟩).map candOf)).take cmdCandMax := by
      have offered := offerRanked seen ((shown entities ⟨lastCtr,floor⟩).map candOf) g.evicted
      rw [← ranked] at offered
      exact offered
    simp only [listing,List.map_append,← List.append_assoc]
    rcases gatherEnds pages start fresh complete with ⟨ended,emptied⟩ | more
    · rw [ended,listingNone pages emptied,List.map_nil,List.append_nil]
      exact ⟨kept,sound⟩
    · rw [more] at complete ⊢
      exact ih ((lowestLe floor _).1.trans start) fresh sound kept complete

end Complete

/-! Where newer means higher, a complete gather lists everything pending. -/

def Orderly (entities : List Json) (lastCtr : Nat) : Prop :=
  (entities.filter (fun e => decide (lastCtr < seqOf e))).Pairwise (fun newer older => seqOf older < seqOf newer)

theorem orderlyPage {entities lastCtr floor} (orderly : Orderly entities lastCtr) {e : Json} (mem : e ∈ entities)
    (inside : InWindow ⟨lastCtr,floor⟩ e) : e ∈ newest entities ⟨lastCtr,floor⟩ ∨
      ∀ w ∈ newest entities ⟨lastCtr,floor⟩, seqOf e < seqOf w := by
  have window : (entities.filter (fun e => decide (InWindow ⟨lastCtr,floor⟩ e))).Pairwise
      (fun newer older => seqOf older < seqOf newer) := by
    refine List.Pairwise.sublist ?_ orderly
    exact List.monotone_filter_right _ (fun w within => by simpa using (of_decide_eq_true within).1)
  have held : e ∈ entities.filter (fun e => decide (InWindow ⟨lastCtr,floor⟩ e)) :=
    List.mem_filter.mpr ⟨mem,by simpa using inside⟩
  rw [← List.take_append_drop arkivCmdPageN (entities.filter _)] at window held
  rcases List.mem_append.mp held with first | later
  · exact Or.inl first
  · exact Or.inr (fun w page => (List.pairwise_append.mp window).2.2 w page e later)

theorem lowestAttained (floor : Nat) (page : List Json) :
    lowest floor page = floor ∨ ∃ e ∈ page, seqOf e = lowest floor page := by
  induction page generalizing floor with
  | nil => exact Or.inl rfl
  | cons e rest ih =>
    rcases ih (min floor (seqOf e)) with start | ⟨w,mem,same⟩
    · rcases Nat.le_total floor (seqOf e) with low | high
      · rw [Nat.min_eq_left low] at start
        exact Or.inl (by simpa [lowest,Nat.min_eq_left low] using start)
      · rw [Nat.min_eq_right high] at start
        exact Or.inr ⟨e,List.mem_cons_self,by simpa [lowest,Nat.min_eq_right high] using start.symm⟩
    · exact Or.inr ⟨w,List.mem_cons_of_mem _ mem,same⟩

theorem orderlyShown {entities lastCtr floor} (orderly : Orderly entities lastCtr)
    {e : Json} (mem : e ∈ entities) (above : lastCtr < seqOf e) (below : seqOf e < floor) :
    e ∈ shown entities ⟨lastCtr,floor⟩ ∨ seqOf e < lowest floor (shown entities ⟨lastCtr,floor⟩) := by
  rcases orderlyPage orderly mem ⟨above,Or.inr below⟩ with page | older
  · exact Or.inl (List.mem_filter.mpr ⟨page,by simpa using ⟨above,below⟩⟩)
  · refine Or.inr ?_
    rcases lowestAttained floor (shown entities ⟨lastCtr,floor⟩) with none | ⟨w,page,least⟩
    · rwa [none]
    · rw [← least]
      exact older w (List.mem_filter.mp page).1

theorem orderlyListed {entities fails iccid lastCtr} (orderly : Orderly entities lastCtr) (pages : Nat)
    {floor : Nat} {g : Gather} (start : floor ≤ uint64Max) (fresh : g.complete = false)
    (complete : (gather (node entities fails) iccid lastCtr pages floor g).complete = true) :
    ∀ e ∈ entities, lastCtr < seqOf e → seqOf e < floor → e ∈ listing entities lastCtr pages floor := by
  intro e mem above below
  induction pages generalizing floor g with
  | zero =>
    rw [gather,fresh] at complete
    exact absurd complete Bool.false_ne_true
  | succ pages ih =>
    rcases orderlyShown orderly mem above below with here | lower
    · exact List.mem_append_left _ here
    rcases gatherEnds pages start fresh complete with ⟨-,emptied⟩ | more
    · exact absurd (emptied e mem above) (Nat.not_le.mpr lower)
    · rw [more] at complete
      refine List.mem_append_right _ (ih ((lowestLe floor _).1.trans start) ?_ complete lower)
      exact fresh

end Web3PiUps.ArkivListing
