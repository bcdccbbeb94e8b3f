import Mathlib.Data.List.Perm.Subperm
import Web3PiUps.ArkivListing

/-! How a sweep ends, whatever the node answers: a failed query undoes it, and
what it leaves behind arms the next one. `asked` are the queries of a gather with
their answers, `offered` the candidates their pages put forward, `tried` those
that `try_dispatch_entity` got to see. -/
namespace Web3PiUps.ArkivAtomicity
open WupsProtocol ArkivEntity CmdauthArkiv ArkivSweep ArkivListing LowestKept

structure Asked where
  query : Query
  answer : Option Json

def Asked.page (x : Asked) : Option (List Json) := x.answer.bind pageData

def asked (rpc : Rpc) (iccid : Bytes) (lastCtr : Nat) : (pages : Nat) → (floor : Nat) → (sent : Nat) → List Asked
  | 0, _, _ => []
  | pages+1, floor, sent =>
    let q : Query := ⟨lastCtr,floor⟩
    if (queryBody iccid q).length ≥ bodyCap then [] else
    let x : Asked := ⟨q,rpc (sent+1) q⟩
    match x.page with
    | none => [x]
    | some data =>
      let fresh := data.filter (fun e => decide (Fresh q e))
      let min := lowest uint64Max fresh
      if data.length < arkivCmdPageN ∨ fresh.length = 0 ∨ min ≤ (lastCtr+1) % 2^64 then [x] else
      x :: asked rpc iccid lastCtr pages min (sent+1)

def Asked.offers (x : Asked) : List Cand :=
  ((x.page.getD []).filter (fun e => decide (Fresh x.query e))).map candOf

def offered (queries : List Asked) : List Cand := queries.flatMap Asked.offers

def tried (env : Env) (iccid : Bytes) : Dispatch → List Cand → List Cand
  | _, [] => []
  | s, c::rest =>
    let later := tried env iccid (dispatchNext env iccid s c) rest
    if s.stop = false ∧ c.seq > s.auth.lastCtr then c::later else later

def takePage (data : List Json) (q : Query) (g : Gather) : Gather :=
  let fresh := data.filter (fun e => decide (Fresh q e))
  let kept := (fresh.map candOf).foldl offer (g.cand,g.evicted)
  { g with pages := g.pages+1, cand := kept.1, evicted := kept.2, seen := g.seen+data.length }

structure Traced (g r : Gather) (queries : List Asked) (pages : Nat) : Prop where
  count : r.pages = g.pages+queries.length
  few : queries.length ≤ pages
  failed : (∃ x ∈ queries, x.page = none) → r.aborted = true
  kept : (r.cand,r.evicted) = (offered queries).foldl offer (g.cand,g.evicted)

section Gathering
variable (rpc : Rpc) (iccid : Bytes) (lastCtr : Nat)

theorem gatherAnswered {pages floor : Nat} {g : Gather} {data : List Json} :
    let q : Query := ⟨lastCtr,floor⟩
    let fresh := data.filter (fun e => decide (Fresh q e))
    let min := lowest uint64Max fresh
    ¬ (queryBody iccid q).length ≥ bodyCap → (⟨q,rpc (g.pages+1) q⟩ : Asked).page = some data →
    gather rpc iccid lastCtr (pages+1) floor g =
      if data.length < arkivCmdPageN then { takePage data q g with complete := true } else
      if fresh.length = 0 then takePage data q g else
      if min ≤ (lastCtr+1) % 2^64 then { takePage data q g with complete := true } else
      gather rpc iccid lastCtr pages min (takePage data q g) := by
  intro q fresh min sendable page
  obtain ⟨root,answered,parsed⟩ := Option.bind_eq_some_iff.mp page
  have read := gatherPage q data ⟨0,0,uint64Max,g.cand,g.evicted⟩
  simp only [Nat.zero_add] at read
  rw [gather]
  dsimp only at answered ⊢
  rw [if_neg sendable,answered]
  dsimp only
  rw [parsed]
  dsimp only
  rw [read]
  rfl

theorem tracedLast {g r : Gather} {pages : Nat} {x : Asked} {data : List Json} (page : x.page = some data)
    (same : r.pages = (takePage data x.query g).pages ∧ r.cand = (takePage data x.query g).cand ∧
      r.evicted = (takePage data x.query g).evicted) : Traced g r [x] (pages+1) where
  count := same.1
  few := Nat.succ_le_succ (Nat.zero_le pages)
  failed := by
    rintro ⟨y,mem,none⟩
    rw [List.mem_singleton.mp mem,page] at none
    contradiction
  kept := by
    rw [same.2.1,same.2.2]
    simp [offered,Asked.offers,page,takePage]

theorem tracedMore {g r : Gather} {pages : Nat} {x : Asked} {rest : List Asked} {data : List Json}
    (page : x.page = some data) (later : Traced (takePage data x.query g) r rest pages) :
    Traced g r (x::rest) (pages+1) where
  count := by
    rw [later.count,List.length_cons]
    simp only [takePage]
    omega
  few := Nat.succ_le_succ later.few
  failed := by
    rintro ⟨y,mem,none⟩
    rcases List.mem_cons.mp mem with rfl | inside
    · rw [page] at none
      contradiction
    · exact later.failed ⟨y,inside,none⟩
  kept := by
    rw [later.kept]
    simp [offered,Asked.offers,page,takePage]

theorem gatherTraced (pages floor : Nat) (g : Gather) :
    Traced g (gather rpc iccid lastCtr pages floor g) (asked rpc iccid lastCtr pages floor g.pages) pages := by
  induction pages generalizing floor g with
  | zero => exact ⟨rfl,Nat.le_refl 0,by simp [asked],rfl⟩
  | succ pages ih =>
    rw [asked]
    dsimp only
    by_cases long : (queryBody iccid ⟨lastCtr,floor⟩).length ≥ bodyCap
    · rw [if_pos long,gather]
      dsimp only
      rw [if_pos long]
      exact ⟨rfl,Nat.zero_le _,by simp,rfl⟩
    rw [if_neg long]
    cases page : (⟨⟨lastCtr,floor⟩,rpc (g.pages+1) ⟨lastCtr,floor⟩⟩ : Asked).page with
    | none =>
      have aborts : gather rpc iccid lastCtr (pages+1) floor g =
          { g with pages := g.pages+1, aborted := true } := by
        rw [gather]
        dsimp only
        rw [if_neg long]
        simp only [Asked.page] at page
        cases answered : rpc (g.pages+1) ⟨lastCtr,floor⟩ with
        | none => rfl
        | some root =>
          rw [answered,Option.bind_some] at page
          dsimp only
          rw [page]
      rw [aborts]
      exact ⟨rfl,Nat.succ_le_succ (Nat.zero_le pages),fun _ => rfl,by simp [offered,Asked.offers,page]⟩
    | some data =>
      rw [gatherAnswered rpc iccid lastCtr long page]
      dsimp only
      by_cases short : data.length < arkivCmdPageN
      · rw [if_pos short,if_pos (Or.inl short)]
        exact tracedLast page ⟨rfl,rfl,rfl⟩
      rw [if_neg short]
      by_cases idle : (data.filter (fun e => decide (Fresh ⟨lastCtr,floor⟩ e))).length = 0
      · rw [if_pos idle,if_pos (Or.inr (Or.inl idle))]
        exact tracedLast page ⟨rfl,rfl,rfl⟩
      rw [if_neg idle]
      by_cases bottom : lowest uint64Max (data.filter (fun e => decide (Fresh ⟨lastCtr,floor⟩ e))) ≤ (lastCtr+1) % 2^64
      · rw [if_pos bottom,if_pos (Or.inr (Or.inr bottom))]
        exact tracedLast page ⟨rfl,rfl,rfl⟩
      rw [if_neg bottom,if_neg (by simp only [short,idle,bottom,or_self,not_false_eq_true])]
      exact tracedMore page (ih _ _)

end Gathering

/-! Nothing evicted: the candidates are what was offered. -/

theorem offerEvicts (more kept : List Cand) : (more.foldl offer (kept,true)).2 = true := by
  induction more generalizing kept with
  | nil => rfl
  | cons c rest ih => exact ih _

theorem offerPerm {more kept : List Cand} {out : List Cand × Bool}
    (all : more.foldl offer (kept,false) = out) (room : out.2 = false) : out.1.Perm (kept ++ more) := by
  induction more generalizing kept with
  | nil =>
    subst all
    rw [List.append_nil]
    exact List.Perm.refl kept
  | cons c rest ih =>
    rw [List.foldl_cons,offer,candInsert,Bool.false_or] at all
    by_cases fits : kept.length < cmdCandMax
    · rw [keep,if_pos fits] at all
      have placed := (placePerm Cand.seq kept c).append_right rest
      refine ((ih all).trans placed).trans ?_
      rw [List.cons_append]
      exact List.perm_middle.symm
    · have full : (keep Cand.seq cmdCandMax kept c).2 = true := by
        rw [keep,if_neg fits]
        split
        · rfl
        · split <;> rfl
      rw [full] at all
      have evicted := offerEvicts rest (keep Cand.seq cmdCandMax kept c).1
      rw [all,room] at evicted
      contradiction

section Dispatching
variable (env : Env) (iccid : Bytes)

theorem tryBaseline (a : Auth) (c : Cand) : a.lastCtr ≤ (tryDispatchEntity env iccid a c).1.lastCtr := by
  unfold tryDispatchEntity
  cases readCmd iccid c.seq c.e with
  | none => exact Nat.le_refl _
  | some cmd =>
    rcases checkCases env a cmd with ⟨refused,-⟩ | ⟨frame,-,accepted,-,-,above⟩
    · simp only [refused]
      exact Nat.le_refl _
    · simp only [accepted]
      exact above.le

theorem dispatchStep (s : Dispatch) (c : Cand) :
    s.auth.lastCtr ≤ (dispatchNext env iccid s c).auth.lastCtr ∧
      (s.stop = true → dispatchNext env iccid s c = s) ∧
      (s.stop = false → (dispatchNext env iccid s c).i = s.i+1) := by
  unfold dispatchNext
  by_cases stopped : s.stop = true
  · rw [if_pos stopped]
    exact ⟨Nat.le_refl _,fun _ => rfl,fun running => absurd (running.symm.trans stopped) Bool.false_ne_true⟩
  rw [if_neg stopped]
  refine ⟨?_,fun bad => absurd bad stopped,fun _ => ?_⟩
  · by_cases above : c.seq > s.auth.lastCtr
    · rw [if_pos above]
      have grown := tryBaseline env iccid s.auth c
      generalize tryDispatchEntity env iccid s.auth c = result at grown
      obtain ⟨auth,outcome,effects⟩ := result
      cases outcome <;> dsimp only <;> split <;> exact grown
    · rw [if_neg above]
  · by_cases above : c.seq > s.auth.lastCtr
    · rw [if_pos above]
      generalize tryDispatchEntity env iccid s.auth c = result
      obtain ⟨auth,outcome,effects⟩ := result
      cases outcome <;> dsimp only <;> split <;> rfl
    · rw [if_neg above]

theorem dispatchCounts (l : List Cand) (s : Dispatch) :
    (l.foldl (dispatchNext env iccid) s).i ≤ s.i+l.length := by
  induction l generalizing s with
  | nil => exact Nat.le_refl _
  | cons c rest ih =>
    obtain ⟨-,halted,moved⟩ := dispatchStep env iccid s c
    have later := ih (dispatchNext env iccid s c)
    rw [List.foldl_cons,List.length_cons]
    cases stop : s.stop with
    | true => rw [halted stop] at later ⊢; omega
    | false => rw [moved stop] at later; omega

theorem dispatchBaseline (l : List Cand) (s : Dispatch) :
    s.auth.lastCtr ≤ (l.foldl (dispatchNext env iccid) s).auth.lastCtr := by
  induction l generalizing s with
  | nil => exact Nat.le_refl _
  | cons c rest ih => exact (dispatchStep env iccid s c).1.trans (ih _)

theorem triedAll {l : List Cand} {s last : Dispatch} (run : l.foldl (dispatchNext env iccid) s = last)
    (reached : last.i = s.i+l.length) :
    (l.filter (fun c => decide (last.auth.lastCtr < c.seq))).Sublist (tried env iccid s l) := by
  induction l generalizing s with
  | nil => exact List.Sublist.refl _
  | cons c rest ih =>
    obtain ⟨grown,halted,moved⟩ := dispatchStep env iccid s c
    rw [List.foldl_cons] at run
    rw [List.length_cons] at reached
    have running : s.stop = false := by
      cases stop : s.stop with
      | false => rfl
      | true =>
        have bound := dispatchCounts env iccid rest s
        rw [halted stop] at run
        rw [run] at bound
        omega
    have later := ih run (by rw [moved running]; omega)
    have final := dispatchBaseline env iccid rest (dispatchNext env iccid s c)
    rw [run] at final
    rw [List.filter_cons,tried]
    by_cases above : last.auth.lastCtr < c.seq
    · rw [if_pos (decide_eq_true above),if_pos ⟨running,by omega⟩]
      exact later.cons_cons c
    · rw [if_neg (by simpa using above)]
      split
      · exact later.cons c
      · exact later

end Dispatching

section Sweep
variable (env : Env) (rpc : Rpc) (iccid : Bytes) (a : Auth)

def queries : List Asked := asked rpc iccid a.lastCtr arkivCmdMaxPages uint64Max 0

/-- Above the final baseline something was offered more often than it was tried. -/
def LeftUntried : Prop :=
  let sweep := pollOnce env rpc iccid a
  ¬ ((offered (queries rpc iccid a)).filter (fun c => decide (sweep.outcome.auth.lastCtr < c.seq))).Subperm
    (tried env iccid (.start a) sweep.gathered.cand)

theorem moreFlag : (pollOnce env rpc iccid a).outMore = decide (0 < (pollOnce env rpc iccid a).outcome.dispatched ∧
    ((pollOnce env rpc iccid a).outcome.i < (pollOnce env rpc iccid a).gathered.cand.length ∨
      (pollOnce env rpc iccid a).gathered.evicted = true ∨
      (pollOnce env rpc iccid a).gathered.complete = false)) := by
  rw [pollOnce]

theorem sweepTraced : Traced .start (pollOnce env rpc iccid a).gathered (queries rpc iccid a) arkivCmdMaxPages :=
  gatherTraced rpc iccid a.lastCtr arkivCmdMaxPages uint64Max .start

theorem failedUndone (failed : ∃ x ∈ queries rpc iccid a, x.page = none) :
    (pollOnce env rpc iccid a).outcome = .start a ∧ (pollOnce env rpc iccid a).outMore = false := by
  have aborted := (sweepTraced env rpc iccid a).failed failed
  simp only [pollOnce] at aborted ⊢
  rw [if_pos aborted]
  exact ⟨rfl,rfl⟩

theorem nothingLeft (progress : 0 < (pollOnce env rpc iccid a).outcome.dispatched)
    (quiet : (pollOnce env rpc iccid a).outMore = false) :
    (pollOnce env rpc iccid a).gathered.complete = true ∧ ¬ LeftUntried env rpc iccid a := by
  have traced := sweepTraced env rpc iccid a
  have parts : (pollOnce env rpc iccid a).gathered.cand.length ≤ (pollOnce env rpc iccid a).outcome.i ∧
      (pollOnce env rpc iccid a).gathered.evicted = false ∧
      (pollOnce env rpc iccid a).gathered.complete = true := by
    rw [moreFlag,decide_eq_false_iff_not] at quiet
    simp only [progress,true_and,not_or,Nat.not_lt,Bool.not_eq_true,Bool.not_eq_false] at quiet
    exact quiet
  obtain ⟨through,room,complete⟩ := parts
  refine ⟨complete,not_not.mpr ?_⟩
  have ran : (pollOnce env rpc iccid a).outcome =
      (pollOnce env rpc iccid a).gathered.cand.foldl (dispatchNext env iccid) (.start a) := by
    by_cases aborted : (pollOnce env rpc iccid a).gathered.aborted = true
    · have idle : (pollOnce env rpc iccid a).outcome = .start a := by
        simp only [pollOnce] at aborted ⊢
        rw [if_pos aborted]
      rw [idle] at progress
      exact absurd progress (Nat.lt_irrefl 0)
    · simp only [pollOnce] at aborted ⊢
      rw [if_neg aborted]
  have bound := dispatchCounts env iccid (pollOnce env rpc iccid a).gathered.cand (.start a)
  have start : (Dispatch.start a).i = 0 := rfl
  rw [← ran,start] at bound
  have sublist := triedAll env iccid ran.symm (by rw [start]; omega)
  have same := offerPerm traced.kept.symm room
  rw [show Gather.start.cand = [] from rfl,List.nil_append] at same
  exact (same.symm.filter _).subperm.trans sublist.subperm

end Sweep

theorem sweepAtomic (env : Env) (rpc : Rpc) (iccid : Bytes) (a : Auth) :
    let sweep := pollOnce env rpc iccid a
    ((∃ x ∈ queries rpc iccid a, x.page = none) → sweep.outcome = .start a ∧ sweep.outMore = false) ∧
    (sweep.gathered.pages = (queries rpc iccid a).length ∧ (queries rpc iccid a).length ≤ 3) ∧
    (sweep.outMore = true → 0 < sweep.outcome.dispatched) ∧
    (0 < sweep.outcome.dispatched → (LeftUntried env rpc iccid a ∨ sweep.gathered.complete = false) →
      sweep.outMore = true) := by
  have traced := sweepTraced env rpc iccid a
  have asks := traced.count
  rw [show Gather.start.pages = 0 from rfl,Nat.zero_add] at asks
  refine ⟨failedUndone env rpc iccid a,⟨asks,traced.few⟩,fun more => ?_,fun progress left => ?_⟩
  · rw [moreFlag,decide_eq_true_eq] at more
    exact more.1
  · by_contra quiet
    rw [Bool.not_eq_true] at quiet
    obtain ⟨complete,reached⟩ := nothingLeft env rpc iccid a progress quiet
    rcases left with untried | incomplete
    · exact reached untried
    · exact absurd (incomplete.symm.trans complete) Bool.false_ne_true

end Web3PiUps.ArkivAtomicity
