import Web3PiUps.MqttQueueScans

/-! What an operation can do to the queue. Every operation is a list of moves:
none, one, or for `expire` one for each slot it releases. A move states its
guard and its whole effect, so an invariant is proved once for each move. -/
namespace Web3PiUps.MqttQueueMoves
open MqttDispatchQueue MqttQueueScans SlotTable

inductive Fate where
  | coalesced | expired | dropped | sent
  deriving DecidableEq, Repr

inductive Event where
  | refused
  | admitted (token : Nat)
  | replaced (token old : Nat)
  | lapsed (token : Nat)
  | taken (token nowMs : Nat)
  | putBack (token : Nat)
  | closed (token : Nat) (fate : Fate)
  deriving DecidableEq, Repr

def countFate (c : Stats) : Fate → Stats
  | .expired => { c with expired := inc64 c.expired }
  | .dropped => { c with dropped := inc64 c.dropped }
  | .sent | .coalesced => c

def Eligible (q : Queue) (nowMs : Nat) (critical : Bool) : Prop :=
  ∃ i, Head q nowMs critical (some i) ∧ (q.slots i).retryAfterMs ≤ nowMs
instance (q nowMs critical) : Decidable (Eligible q nowMs critical) := by unfold Eligible; infer_instance

/-- The burst rule: which streak a claim leaves, and when a critical one may go first. -/
def Turn (q : Queue) (nowMs : Nat) (critical : Bool) (streak : Nat) : Prop :=
  if critical then
    streak = (if q.criticalStreak < criticalBurst then q.criticalStreak+1 else q.criticalStreak) ∧
      (q.criticalStreak < criticalBurst ∨
        ∃ h, Head q nowMs false h ∧ ∀ i, h = some i → nowMs < (q.slots i).retryAfterMs)
  else streak = 0

inductive Move (q : Queue) : Event → Queue → Prop where
  | refused : Move q .refused { q with counters := { q.counters with full := inc64 q.counters.full } }
  | admitted {r topic i} (free : (q.slots i).state = .free)
      (room : r.critical = false → occupied Plain q.slots < capacity-criticalReserve)
      (below : q.lastToken ≠ uint64Max) :
      Move q (.admitted (q.lastToken+1)) (store q r topic i false).1
  | replaced {r topic i} (fits : Replaceable r topic (q.slots i))
      (last : ∀ j, Replaceable r topic (q.slots j) → j ≤ i) (below : q.lastToken ≠ uint64Max) :
      Move q (.replaced (q.lastToken+1) (q.slots i).item.token) (store q r topic i true).1
  | lapsed {i nowMs} (queued : (q.slots i).state = .queued) (late : expired (q.slots i).item nowMs) :
      Move q (.lapsed (q.slots i).item.token)
        (releaseSlot { q with counters := countFate q.counters .expired } i)
  | taken {i nowMs streak} (quiet : ∀ j, (q.slots j).state ≠ .inflight)
      (head : Head q nowMs (q.slots i).item.critical (some i)) (due : (q.slots i).retryAfterMs ≤ nowMs)
      (turn : Turn q nowMs (q.slots i).item.critical streak) :
      Move q (.taken (q.slots i).item.token nowMs) (hand q i streak).1
  | putBack {i} (retryAfterMs : Nat) (flying : (q.slots i).state = .inflight) :
      Move q (.putBack (q.slots i).item.token)
        { q with
          slots := Function.update q.slots i
            { q.slots i with state := .queued, retryAfterMs := retryAfterMs } }
  | closed {i} {fate : Fate} (flying : (q.slots i).state = .inflight) (ended : fate ≠ .coalesced) :
      Move q (.closed (q.slots i).item.token fate)
        (releaseSlot { q with counters := countFate q.counters fate } i)

inductive Moves : Queue → List Event → Queue → Prop where
  | done (q) : Moves q [] q
  | more {q e q' rest last} (first : Move q e q') (tail : Moves q' rest last) : Moves q (e::rest) last

theorem oneMove {q e q'} (m : Move q e q') : Moves q [e] q' := .more m (.done _)

theorem movesKeep {P : Queue → Prop} (keeps : ∀ {q e q'}, P q → Move q e q' → P q') {q es q'}
    (start : P q) (m : Moves q es q') : P q' := by
  induction m with
  | done => exact start
  | more first _ ih => exact ih (keeps start first)

def topicOf (r : Request) : Bytes := r.topic.getD []

def Acceptable (q : Queue) (r : Request) : Prop :=
  ¬ Invalid q r ∧ (topicOf r).length < topicCapacity ∧ r.payloadLen ≤ payloadCapacity
instance (q r) : Decidable (Acceptable q r) := by unfold Acceptable; infer_instance

theorem acceptableBelow {q r} (h : Acceptable q r) : q.lastToken ≠ uint64Max :=
  fun last => h.1 (by simp [Invalid,last])

theorem submitCases (q : Queue) (r : Option Request) :
    ((submit q r).2.result ≠ .accepted ∧ (submit q r).2.token = 0 ∧ (submit q r).2.replacedToken = 0 ∧
      ((submit q r).1 = q ∨ Move q .refused (submit q r).1)) ∨
    ∃ req i, r = some req ∧ Acceptable q req ∧
      ((submit q r = store q req (topicOf req) i false ∧ (q.slots i).state = .free ∧
          (∀ j, ¬ Replaceable req (topicOf req) (q.slots j)) ∧
          (req.critical = false → occupied Plain q.slots < capacity-criticalReserve)) ∨
        (submit q r = store q req (topicOf req) i true ∧ Replaceable req (topicOf req) (q.slots i) ∧
          ∀ j, Replaceable req (topicOf req) (q.slots j) → j ≤ i)) := by
  cases r with
  | none => exact Or.inl ⟨by simp [submit],rfl,rfl,Or.inl rfl⟩
  | some r =>
    have scan := scanSlotsSpec q r (topicOf r)
    unfold submit
    by_cases bad : Invalid q r
    · simp [bad]
    · simp only [if_neg bad]
      by_cases large : (r.topic.getD []).length ≥ topicCapacity ∨ r.payloadLen > payloadCapacity
      · simp [large]
      · have fine : Acceptable q r := by
          rw [not_or,not_le,not_lt] at large
          exact ⟨bad,large⟩
        simp only [if_neg large]
        change ScanSpec q r (topicOf r) _ (scanSlots q r (r.topic.getD [])) at scan
        generalize scanSlots q r (r.topic.getD []) = s at scan
        obtain ⟨free,replacement,noncritical⟩ := s
        have count : noncritical = occupied Plain q.slots := by
          rw [← countSlots]; exact scan.noncritical
        cases replacement with
        | some i =>
          obtain ⟨fits,last⟩ := scan.replace i rfl
          exact Or.inr ⟨r,i,rfl,fine,Or.inr ⟨rfl,fits,fun j => last j (List.mem_finRange j)⟩⟩
        | none =>
          have fresh := fun j => scan.fresh rfl j (List.mem_finRange j)
          cases free with
          | none => exact Or.inl ⟨by simp,rfl,rfl,Or.inr .refused⟩
          | some i =>
            by_cases crowded : r.critical = false ∧ noncritical ≥ capacity-criticalReserve
            · simp only [if_pos crowded]
              exact Or.inl ⟨by simp,trivial,trivial,Or.inr .refused⟩
            · simp only [if_neg crowded]
              refine Or.inr ⟨r,i,rfl,fine,Or.inl ⟨rfl,scan.free i rfl,fresh,fun plain => ?_⟩⟩
              rw [← count]
              exact Nat.not_le.mp (fun many => crowded ⟨plain,many⟩)

theorem expireSlotMoves (nowMs : Nat) (q : Queue) (tokens : List Nat) (i : Fin capacity) :
    ∃ ended, Moves q (ended.map .lapsed) (expireSlot nowMs (q,tokens) i).1 ∧
      (expireSlot nowMs (q,tokens) i).2 = tokens ++ ended := by
  unfold expireSlot
  dsimp only
  split
  · exact ⟨[],.done q,by simp⟩
  · rename_i out
    rw [not_or,not_not,not_not] at out
    exact ⟨[(q.slots i).item.token],oneMove (.lapsed out.1 out.2),rfl⟩

theorem movesAppend {q q' last es fs} (first : Moves q es q') (next : Moves q' fs last) :
    Moves q (es ++ fs) last := by
  induction first with
  | done => exact next
  | more move _ ih => exact .more move (ih next)

theorem expireMoves (q : Queue) (nowMs : Nat) :
    Moves q ((expire q nowMs).2.map .lapsed) (expire q nowMs).1 := by
  have fold : ∀ (l : List (Fin capacity)) (tokens : List Nat), ∃ ended,
      Moves q (ended.map .lapsed) (l.foldl (expireSlot nowMs) (q,tokens)).1 ∧
        (l.foldl (expireSlot nowMs) (q,tokens)).2 = tokens ++ ended := by
    intro l
    induction l generalizing q with
    | nil => exact fun tokens => ⟨[],.done q,by simp⟩
    | cons i rest ih =>
      intro tokens
      obtain ⟨now,first,report⟩ := expireSlotMoves nowMs q tokens i
      obtain ⟨later,tail,more⟩ := ih (expireSlot nowMs (q,tokens) i).1 (expireSlot nowMs (q,tokens) i).2
      refine ⟨now ++ later,?_,?_⟩
      · rw [List.map_append,List.foldl_cons]
        exact movesAppend first tail
      · rw [List.foldl_cons,more,report,List.append_assoc]
  obtain ⟨ended,moves,report⟩ := fold (List.finRange capacity) []
  rw [List.nil_append] at report
  change Moves q (((List.finRange capacity).foldl (expireSlot nowMs) (q,[])).2.map .lapsed) _
  rw [report]
  exact moves

theorem undelayedSome {q nowMs h i} (found : undelayed q nowMs h = some i) :
    h = some i ∧ (q.slots i).retryAfterMs ≤ nowMs := by
  obtain ⟨same,due⟩ := Option.filter_eq_some_iff.mp found
  exact ⟨same,by simpa using due⟩

theorem undelayedNone {q nowMs h} (none : undelayed q nowMs h = none) :
    ∀ i, h = some i → nowMs < (q.slots i).retryAfterMs := by
  intro i same
  subst same
  by_contra due
  have kept : undelayed q nowMs (some i) = some i :=
    Option.filter_eq_some_iff.mpr ⟨rfl,by simpa using due⟩
  rw [kept] at none
  contradiction

structure Taken (q : Queue) (nowMs : Nat) (i : Fin capacity) (streak : Nat) : Prop where
  quiet : ∀ j, (q.slots j).state ≠ .inflight
  head : Head q nowMs (q.slots i).item.critical (some i)
  due : (q.slots i).retryAfterMs ≤ nowMs
  turn : Turn q nowMs (q.slots i).item.critical streak

theorem headClass {q nowMs c i} (head : Head q nowMs c (some i)) : (q.slots i).item.critical = c :=
  head.1.2.2

theorem claimCases (q : Queue) (nowMs : Nat) :
    (claim q nowMs = (q,none) ∧ ((∃ i, (q.slots i).state = .inflight) ∨
      ∀ c, ∃ h, Head q nowMs c h ∧ ∀ i, h = some i → nowMs < (q.slots i).retryAfterMs)) ∨
    ∃ i streak, claim q nowMs = hand q i streak ∧ Taken q nowMs i streak := by
  obtain ⟨busy,found⟩ := claimHeads q nowMs
  unfold claim
  cases scan : claimScan q nowMs (List.finRange capacity) ⟨none,none⟩ with
  | none => exact Or.inl ⟨rfl,Or.inl (busy scan)⟩
  | some heads =>
    obtain ⟨quiet,critical,other⟩ := found heads scan
    have takeOther : ∀ {i}, undelayed q nowMs heads.other = some i → Taken q nowMs i 0 := by
      intro i rival
      obtain ⟨same,due⟩ := undelayedSome rival
      rw [same] at other
      have plain := headClass other
      exact ⟨quiet,plain ▸ other,due,by simp [Turn,plain]⟩
    dsimp only
    cases first : undelayed q nowMs heads.critical with
    | none =>
      cases second : undelayed q nowMs heads.other with
      | none =>
        refine Or.inl ⟨rfl,Or.inr (fun c => ?_)⟩
        cases c with
        | true => exact ⟨_,critical,undelayedNone first⟩
        | false => exact ⟨_,other,undelayedNone second⟩
      | some i => exact Or.inr ⟨i,0,rfl,takeOther second⟩
    | some i =>
      obtain ⟨same,due⟩ := undelayedSome first
      rw [same] at critical
      have urgent := headClass critical
      have take : ∀ (why : q.criticalStreak < criticalBurst ∨
          ∃ h, Head q nowMs false h ∧ ∀ j, h = some j → nowMs < (q.slots j).retryAfterMs),
          Taken q nowMs i
            (if q.criticalStreak < criticalBurst then q.criticalStreak+1 else q.criticalStreak) :=
        fun why => ⟨quiet,urgent ▸ critical,due,by rw [Turn,if_pos urgent]; exact ⟨rfl,why⟩⟩
      cases second : undelayed q nowMs heads.other with
      | none => exact Or.inr ⟨i,_,rfl,take (Or.inr ⟨_,other,undelayedNone second⟩)⟩
      | some j =>
        by_cases short : q.criticalStreak < criticalBurst
        · have taken := take (Or.inl short)
          simp only [if_pos short] at taken ⊢
          exact Or.inr ⟨i,_,rfl,taken⟩
        · simp only [if_neg short]
          exact Or.inr ⟨j,0,rfl,takeOther second⟩

def slotAt (q : Queue) (n : Nat) : Slot := if inside : n < capacity then q.slots ⟨n,inside⟩ else .zero

def finishFate (q : Queue) (c : Claim) (result : Int) (nowMs : Nat) : Option Fate :=
  if result = dispatchSent then some .sent
  else if result = dispatchDrop then some .dropped
  else if expired (slotAt q c.slot).item nowMs then some .expired else none

theorem finishCases (q : Queue) (c : Option Claim) (result : Int) (nowMs retryAfterMs : Nat) :
    finish q c result nowMs retryAfterMs = (q,false) ∨
    ∃ claim i, c = some claim ∧ claim.slot = i.val ∧ (q.slots i).state = .inflight ∧
      (q.slots i).item.token = claim.item.token ∧
      (finish q c result nowMs retryAfterMs).2 = true ∧
      ((finishFate q claim result nowMs = none ∧ result = dispatchRetry ∧
          (finish q c result nowMs retryAfterMs).1 = { q with
            slots := Function.update q.slots i
              { q.slots i with state := .queued, retryAfterMs := retryAfterMs } }) ∨
        ∃ fate, finishFate q claim result nowMs = some fate ∧ fate ≠ .coalesced ∧
          (fate = .sent ↔ result = dispatchSent) ∧
          (finish q c result nowMs retryAfterMs).1 =
            releaseSlot { q with counters := countFate q.counters fate } i) := by
  cases c with
  | none => exact Or.inl rfl
  | some c =>
    unfold finish
    dsimp only
    by_cases inside : c.slot < capacity
    · rw [dif_pos inside]
      by_cases range : result < dispatchSent ∨ result > dispatchDrop
      · rw [if_pos range]; exact Or.inl rfl
      · rw [if_neg range]
        by_cases stale : (q.slots ⟨c.slot,inside⟩).state ≠ .inflight ∨
            (q.slots ⟨c.slot,inside⟩).item.token ≠ c.item.token
        · rw [if_pos stale]; exact Or.inl rfl
        · rw [if_neg stale]
          rw [not_or,not_not,not_not] at stale
          have codes : dispatchSent ≠ dispatchRetry ∧ dispatchSent ≠ dispatchDrop ∧
              dispatchDrop ≠ dispatchSent ∧ dispatchDrop ≠ dispatchRetry ∧
              dispatchRetry ≠ dispatchSent ∧ dispatchRetry ≠ dispatchDrop := by decide
          have here : slotAt q c.slot = q.slots ⟨c.slot,inside⟩ := dif_pos inside
          have three : result = dispatchSent ∨ result = dispatchDrop ∨ result = dispatchRetry := by
            simp only [dispatchSent,dispatchDrop,dispatchRetry] at range ⊢
            omega
          refine Or.inr ⟨c,⟨c.slot,inside⟩,rfl,rfl,stale.1,stale.2,?_⟩
          rcases three with rfl | rfl | rfl
          · exact ⟨by simp [codes],Or.inr ⟨.sent,by simp [finishFate],by simp,by simp,
              by simp [countFate,codes]⟩⟩
          · exact ⟨by simp [codes],Or.inr ⟨.dropped,by simp [finishFate,codes],by simp,by simp [codes],
              by simp [countFate,codes]⟩⟩
          · by_cases late : expired (q.slots ⟨c.slot,inside⟩).item nowMs
            · exact ⟨by simp [late],Or.inr ⟨.expired,by simp [finishFate,here,late,codes],by simp,
                by simp [codes],by simp [countFate,late]⟩⟩
            · exact ⟨by simp [late],Or.inl ⟨by simp [finishFate,here,late,codes],rfl,by simp [late]⟩⟩
    · rw [dif_neg inside]; exact Or.inl rfl

/-! The tokens an operation accepts and those it ends, read off its answer. -/

def Event.arrivals : Event → List Nat
  | .admitted token => [token]
  | .replaced token _ => [token]
  | _ => []

def Event.endings : Event → List (Nat × Fate)
  | .replaced _ old => [(old,.coalesced)]
  | .lapsed token => [(token,.expired)]
  | .closed token fate => [(token,fate)]
  | _ => []

def arrivals : Out → List Nat
  | .submitted ⟨.accepted,token,_⟩ => [token]
  | _ => []

def endings (q : Queue) : Op → Out → List (Nat × Fate)
  | .submit _, .submitted s => if s.replacedToken ≠ 0 then [(s.replacedToken,.coalesced)] else []
  | .expire _, .expired tokens => tokens.map (fun token => (token,.expired))
  | .finish (some c) result nowMs _, .finished true =>
    (finishFate q c result nowMs).toList.map (fun fate => (c.item.token,fate))
  | _, _ => []

theorem storeOut (q : Queue) (r : Request) (topic : Bytes) (i : Fin capacity) (replaces : Bool) :
    (store q r topic i replaces).2 =
      ⟨.accepted,q.lastToken+1,if replaces then (q.slots i).item.token else 0⟩ := rfl

/-- Every operation is a list of moves, and its answer tells their tokens. -/
theorem stepMoves {q : Queue} (positive : ∀ i, Held (q.slots i) → 0 < (q.slots i).item.token) (op : Op) :
    ∃ es, Moves q es (step q op).1 ∧ es.flatMap Event.arrivals = arrivals (step q op).2 ∧
      es.flatMap Event.endings = endings q op (step q op).2 ∧
      ∀ token nowMs, .taken token nowMs ∈ es → op = .claim nowMs := by
  cases op with
  | submit r =>
    simp only [step]
    rcases submitCases q r with ⟨refused,noToken,noOld,same | move⟩ | ⟨req,i,rfl,fine,fresh | fit⟩
    · refine ⟨[],by rw [same]; exact .done q,?_,by simp [endings,noOld],by simp⟩
      generalize submit q r = run at refused
      obtain ⟨_,⟨result,_,_⟩⟩ := run
      cases result <;> first | rfl | exact absurd rfl refused
    · refine ⟨[.refused],oneMove move,?_,by simp [endings,noOld,Event.endings],by simp⟩
      generalize submit q r = run at refused
      obtain ⟨_,⟨result,_,_⟩⟩ := run
      cases result <;> first | rfl | exact absurd rfl refused
    · obtain ⟨run,free,-,room⟩ := fresh
      rw [run]
      refine ⟨[_],oneMove (.admitted free room (acceptableBelow fine)),?_,?_,by simp⟩
      · simp [arrivals,storeOut,Event.arrivals]
      · simp [endings,storeOut,Event.endings]
    · obtain ⟨run,fits,last⟩ := fit
      have held : Held (q.slots i) := by simp [Held,fits.1]
      rw [run]
      refine ⟨[_],oneMove (.replaced fits last (acceptableBelow fine)),?_,?_,by simp⟩
      · simp [arrivals,storeOut,Event.arrivals]
      · simp [endings,storeOut,Event.endings,Nat.pos_iff_ne_zero.mp (positive i held)]
  | expire nowMs =>
    simp only [step,arrivals,endings]
    refine ⟨_,expireMoves q nowMs,?_,?_,by simp⟩
    · rw [List.flatMap_map]
      simp [Event.arrivals]
    · rw [List.flatMap_map,← List.flatMap_pure_eq_map]
      rfl
  | claim nowMs =>
    simp only [step]
    rcases claimCases q nowMs with ⟨run,-⟩ | ⟨i,streak,run,taken⟩
    · rw [run]
      exact ⟨[],.done q,rfl,rfl,by simp⟩
    · rw [run]
      refine ⟨[_],oneMove (.taken taken.quiet taken.head taken.due taken.turn),rfl,rfl,?_⟩
      intro token now mem
      simp only [List.mem_singleton,Event.taken.injEq] at mem
      rw [mem.2]
  | finish c result nowMs retryAfterMs =>
    simp only [step]
    rcases finishCases q c result nowMs retryAfterMs with run | ⟨claim,i,rfl,-,flying,same,ok,outcome⟩
    · rw [run]
      refine ⟨[],.done q,rfl,?_,by simp⟩
      cases c <;> rfl
    · rcases outcome with ⟨fate,-,after⟩ | ⟨fate,found,ended,-,after⟩
      · rw [after,ok]
        refine ⟨[_],oneMove (.putBack retryAfterMs flying),rfl,?_,by simp⟩
        simp [endings,fate,Event.endings]
      · rw [after,ok]
        refine ⟨[_],oneMove (.closed flying ended),rfl,?_,by simp⟩
        simp [endings,found,Event.endings,same]

end Web3PiUps.MqttQueueMoves
