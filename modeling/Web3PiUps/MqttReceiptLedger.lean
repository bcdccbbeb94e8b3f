import Web3PiUps.MqttReceipts
import Web3PiUps.MqttQueueConservation

/-! Receipts against the queue. A receipt is pending exactly while a slot carries
its token, so the step at which the message leaves the queue settles it, and no
other step writes it. -/
namespace Web3PiUps.MqttReceipts
open StepMachine MqttDispatchQueue MqttQueueScans MqttQueueMoves MqttQueueConservation SlotTable

def Carried (token : Nat) (q : Queue) : Prop := ∃ j, Carries token (q.slots j)
instance (token q) : Decidable (Carried token q) := by unfold Carried; infer_instance

section Queue
variable {q : Queue} {a : List Nat} {e : List (Nat × Fate)} {t : Nat}

theorem carriedIff (h : Books q a e) : Carried t q ↔ t ∈ a ∧ t ∉ e.map Prod.fst := by
  have place := h.place t
  have once : a.count t ≤ 1 := by
    rw [h.tokens]
    exact List.nodup_iff_count_le_one.mp (List.nodup_range') t
  constructor
  · rintro ⟨j,carries⟩
    have filled := occupiedPos (Carries t) carries
    refine ⟨List.count_pos_iff.mp (by omega),fun gone => ?_⟩
    have left := List.count_pos_iff.mpr gone
    omega
  · rintro ⟨come,stays⟩
    have arrived := List.count_pos_iff.mpr come
    have kept := List.count_eq_zero.mpr stays
    by_contra none
    have empty : occupied (Carries t) q.slots = 0 := occupiedNone _ fun j carries => none ⟨j,carries⟩
    omega

theorem endedArrived (h : Books q a e) (gone : t ∈ e.map Prod.fst) : t ∈ a := by
  have place := h.place t
  have left := List.count_pos_iff.mpr gone
  exact List.count_pos_iff.mp (by omega)

theorem knownIff (h : Books q a e) : t ∈ a ↔ 0 < t ∧ t ≤ q.lastToken := by
  rw [h.tokens,List.mem_range'_1]
  omega

theorem carriedStep (h : Books q a e) (op : Op) :
    Carried t (MqttDispatchQueue.step q op).1 ↔
      (Carried t q ∨ t ∈ arrivals (MqttDispatchQueue.step q op).2) ∧
        t ∉ (endings q op (MqttDispatchQueue.step q op).2).map Prod.fst := by
  have after := stepBooks h op
  have fresh : (a ++ arrivals (MqttDispatchQueue.step q op).2).Nodup := by
    rw [after.tokens]
    exact List.nodup_range'
  rw [carriedIff after,carriedIff h,List.mem_append,List.map_append,List.mem_append]
  constructor
  · rintro ⟨come | new,stays⟩
    · exact ⟨.inl ⟨come,fun gone => stays (.inl gone)⟩,fun ends => stays (.inr ends)⟩
    · exact ⟨.inr new,fun ends => stays (.inr ends)⟩
  · rintro ⟨⟨come,stays⟩ | new,goesOn⟩
    · exact ⟨.inl come,by rintro (gone | ends); exacts [stays gone,goesOn ends]⟩
    · refine ⟨.inr new,?_⟩
      rintro (gone | ends)
      · exact (List.nodup_append.mp fresh).2.2 t (endedArrived h gone) t new rfl
      · exact goesOn ends

theorem lastTokenGrows (h : Books q a e) (op : Op) :
    q.lastToken ≤ (MqttDispatchQueue.step q op).1.lastToken := by
  have after := stepBooks h op
  rcases Nat.eq_zero_or_pos q.lastToken with none | some_
  · omega
  · exact ((knownIff after).mp (List.mem_append_left _ ((knownIff h).mpr ⟨some_,Nat.le_refl _⟩))).2

theorem arrivalFresh (h : Books q a e) (op : Op) (new : t ∈ arrivals (MqttDispatchQueue.step q op).2) :
    q.lastToken < t ∧ t ≤ (MqttDispatchQueue.step q op).1.lastToken := by
  have after := stepBooks h op
  have range := (knownIff after).mp (List.mem_append_right a new)
  have fresh : (a ++ arrivals (MqttDispatchQueue.step q op).2).Nodup := by
    rw [after.tokens]
    exact List.nodup_range'
  refine ⟨Nat.lt_of_not_le fun old => ?_,range.2⟩
  exact (List.nodup_append.mp fresh).2.2 t ((knownIff h).mpr ⟨range.1,old⟩) t new rfl

theorem carriedKnown (h : Books q a e) (carried : Carried t q) : 0 < t ∧ t ≤ q.lastToken :=
  (knownIff h).mp ((carriedIff h).mp carried).1

theorem endingCarried (h : Books q a e) (op : Op)
    (gone : t ∈ (endings q op (MqttDispatchQueue.step q op).2).map Prod.fst) (known : t ≤ q.lastToken) :
    Carried t q := by
  have after := stepBooks h op
  have come : t ∈ a := by
    have both := endedArrived after (by rw [List.map_append]; exact List.mem_append_right _ gone)
    rcases List.mem_append.mp both with old | new
    · exact old
    · have late := (arrivalFresh h op new).1
      omega
  refine (carriedIff h).mpr ⟨come,fun twice => ?_⟩
  have place := after.place t
  have once : (a ++ arrivals (MqttDispatchQueue.step q op).2).count t ≤ 1 := by
    rw [after.tokens]
    exact List.nodup_iff_count_le_one.mp List.nodup_range' t
  simp only [List.map_append,List.count_append] at place once
  have first := List.count_pos_iff.mpr twice
  have second := List.count_pos_iff.mpr gone
  omega

end Queue

section Flights
variable {q : Queue} {i : Fin capacity}

theorem submitFlying (r : Option Request) (flying : (q.slots i).state = .inflight) :
    (MqttDispatchQueue.submit q r).1.slots i = q.slots i := by
  rcases submitCases q r with ⟨-,-,-,same | move⟩ | ⟨req,j,-,-,⟨run,free,-⟩ | ⟨run,fits,-⟩⟩
  · rw [same]
  · rw [(refusedSame move).1]
  · have other : i ≠ j := by
      rintro rfl
      exact nomatch flying.symm.trans free
    rw [run]
    exact Function.update_of_ne other _ _
  · have other : i ≠ j := by
      rintro rfl
      exact nomatch flying.symm.trans fits.1
    rw [run]
    exact Function.update_of_ne other _ _

theorem lapsedFlying {tokens : List Nat} {q' : Queue} (moves : Moves q (tokens.map .lapsed) q')
    (flying : (q.slots i).state = .inflight) : q'.slots i = q.slots i := by
  generalize listed : tokens.map Event.lapsed = es at moves
  induction moves generalizing tokens with
  | done => rfl
  | @more q e q' events last first tail ih =>
    cases tokens with
    | nil => exact nomatch listed
    | cons token rest =>
      obtain ⟨rfl,later⟩ := List.cons.inj listed
      cases first with
      | @lapsed j nowMs queued late =>
        have other : i ≠ j := by
          rintro rfl
          exact nomatch flying.symm.trans queued
        have kept : (releaseSlot { q with counters := countFate q.counters .expired } j).slots i = q.slots i :=
          Function.update_of_ne other _ _
        rw [← kept]
        exact ih (by rw [kept]; exact flying) later

theorem expireFlying (now : Nat) (flying : (q.slots i).state = .inflight) :
    (expire q now).1.slots i = q.slots i :=
  lapsedFlying (expireMoves q now) flying

end Flights

/-- The owner's claim is the slot it has in flight. -/
def Holds (s : Runtime) (c : Claim) : Prop :=
  ∃ i : Fin capacity, c.slot = i.val ∧ (s.queue.slots i).state = .inflight ∧
    (s.queue.slots i).item = c.item

structure Ledger (s : Runtime) : Prop where
  books : ∃ a e, Books s.queue a e
  distinct : ∀ i j, (s.receipts i).token ≠ 0 → (s.receipts i).token = (s.receipts j).token → i = j
  known : ∀ i, (s.receipts i).token ≤ s.queue.lastToken
  stated : ∀ i, (s.receipts i).token ≠ 0 → (s.receipts i).status ≠ .unknown
  pending : ∀ i, (s.receipts i).token ≠ 0 →
    ((s.receipts i).status = .pending ↔ Carried (s.receipts i).token s.queue)
  claim : ∀ c, s.claimed = some c → Holds s c

def Final (status : ReceiptStatus) : Prop := status = .sdkAccepted ∨ status = .failed

/-- What one call does to one receipt. -/
inductive Change (s : Runtime) (c : Call) (s' : Runtime) (r : Reply) (i : Fin receiptCapacity) : Prop where
  | same (kept : s'.receipts i = s.receipts i)
      (place : (s.receipts i).token ≠ 0 →
        (Carried (s.receipts i).token s'.queue ↔ Carried (s.receipts i).token s.queue))
  | settled (held : (s.receipts i).token ≠ 0) (token : (s'.receipts i).token = (s.receipts i).token)
      (final : Final (s'.receipts i).status) (before : Carried (s.receipts i).token s.queue)
      (after : ¬Carried (s.receipts i).token s'.queue)
  | released (gone : (s'.receipts i).token = 0)
      (why : c = .forget (s.receipts i).token ∨
        c = .take (s.receipts i).token ∧ (s.receipts i).status ≠ .pending)
  | issued (free : (s.receipts i).token = 0) (pending : (s'.receipts i).status = .pending)
      (carried : Carried (s'.receipts i).token s'.queue)
      (fresh : s.queue.lastToken < (s'.receipts i).token)
      (alone : ∀ j, j ≠ i → (s'.receipts j).token = (s.receipts j).token)

section Changes
variable {s : Runtime}

theorem finishStatus (rs : Receipts) (token : Nat) (status : ReceiptStatus) (i : Fin receiptCapacity) :
    receiptFinish rs token status i =
      if (rs i).token = token then { rs i with status := status } else rs i := rfl

theorem finishAll (tokens : List Nat) (rs : Receipts) (i : Fin receiptCapacity) :
    tokens.foldl (fun rs token => receiptFinish rs token .failed) rs i =
      if (rs i).token ∈ tokens then { rs i with status := .failed } else rs i := by
  induction tokens generalizing rs with
  | nil => simp
  | cons token rest ih =>
    rw [List.foldl_cons,ih,finishStatus]
    by_cases here : (rs i).token = token
    · simp [here]
    · simp [here]

/-- A queue operation without arrivals, with the receipts of what it ended settled. -/
theorem endingChange (ledger : Ledger s) {op : Op} {s' : Runtime} {c : Call} {r : Reply} {ended : List Nat}
    (i : Fin receiptCapacity) (queue : s'.queue = (MqttDispatchQueue.step s.queue op).1)
    (old : (s.receipts i).token ∉ arrivals (MqttDispatchQueue.step s.queue op).2)
    (listed : (endings s.queue op (MqttDispatchQueue.step s.queue op).2).map Prod.fst = ended)
    (settles : (s.receipts i).token ≠ 0 → (s.receipts i).token ∈ ended →
      (s'.receipts i).token = (s.receipts i).token ∧ Final (s'.receipts i).status)
    (keeps : (s.receipts i).token ∉ ended → s'.receipts i = s.receipts i) : Change s c s' r i := by
  obtain ⟨a,e,books⟩ := ledger.books
  have place := carriedStep (t := (s.receipts i).token) books op
  have gone := endingCarried (t := (s.receipts i).token) books op
  rw [listed] at place gone
  by_cases ends : (s.receipts i).token ∈ ended
  · have carried := gone ends (ledger.known i)
    have held := Nat.ne_of_gt (carriedKnown books carried).1
    obtain ⟨token,final⟩ := settles held ends
    refine .settled held token final carried ?_
    rw [queue,place]
    exact fun both => both.2 ends
  · refine .same (keeps ends) fun _ => ?_
    rw [queue,place]
    simp [ends,old]

theorem expireChange (ledger : Ledger s) (c : Call) (r : Reply) (now : Nat) (i : Fin receiptCapacity) :
    Change s c (expireReceipts s now) r i := by
  have queue : (expireReceipts s now).queue = (MqttDispatchQueue.step s.queue (.expire now)).1 := by
    simp only [expireReceipts,MqttDispatchQueue.step]
  have silent : arrivals (MqttDispatchQueue.step s.queue (.expire now)).2 = [] := by
    simp only [MqttDispatchQueue.step,arrivals]
  have listed : (endings s.queue (.expire now) (MqttDispatchQueue.step s.queue (.expire now)).2).map Prod.fst =
      (expire s.queue now).2 := by
    simp [MqttDispatchQueue.step,endings,Function.comp_def]
  have receipt : (expireReceipts s now).receipts i = if (s.receipts i).token ∈ (expire s.queue now).2
      then { s.receipts i with status := .failed } else s.receipts i := by
    simp only [expireReceipts,finishAll]
  generalize (expire s.queue now).2 = ended at listed receipt
  refine endingChange ledger i queue (by rw [silent]; exact List.not_mem_nil) listed ?_ ?_
  · intro held ends
    rw [receipt,if_pos ends]
    exact ⟨rfl,.inr rfl⟩
  · intro stays
    rw [receipt,if_neg stays]

theorem claimChange (ledger : Ledger s) (now : Nat) (i : Fin receiptCapacity) :
    Change s (.claim now) (ownerClaim s now) .done i := by
  cases busy : s.claimed with
  | some c =>
    have same : ownerClaim s now = s := by rw [ownerClaim,busy]
    rw [same]
    exact .same rfl fun _ => Iff.rfl
  | none =>
    have moved : ownerClaim s now = { s with queue := (claim s.queue now).1, claimed := (claim s.queue now).2 } := by
      rw [ownerClaim,busy]
    have queue : (ownerClaim s now).queue = (MqttDispatchQueue.step s.queue (.claim now)).1 := by rw [moved]; rfl
    refine endingChange ledger i queue List.not_mem_nil rfl (fun _ ends => nomatch ends) fun _ => ?_
    rw [moved]

theorem finishOk {c : Claim} (result : Int) (holds : Holds s c) (range : dispatchSent ≤ result ∧ result ≤ dispatchDrop)
    (now later : Nat) : (finish s.queue (some c) result now later).2 = true := by
  obtain ⟨j,slot,flying,item⟩ := holds
  have inside : c.slot < capacity := slot ▸ j.isLt
  have here : (⟨c.slot,inside⟩ : Fin capacity) = j := Fin.ext slot
  have fits : ¬(result < dispatchSent ∨ result > dispatchDrop) := by omega
  have own : ¬((s.queue.slots j).state ≠ .inflight ∨ (s.queue.slots j).item.token ≠ c.item.token) := by
    simp [flying,item]
  simp only [finish,dif_pos inside,here,if_neg fits,if_neg own]
  split <;> rfl

theorem finishEndings {c : Claim} {rc : Int} (holds : Holds s c) (now : Nat) :
    (endings s.queue (.finish (some c) (if 0 ≤ rc then dispatchSent else dispatchRetry) now (now+1000))
      (MqttDispatchQueue.step s.queue (.finish (some c) (if 0 ≤ rc then dispatchSent else dispatchRetry)
        now (now+1000))).2).map Prod.fst =
      if 0 ≤ rc ∨ expired c.item now then [c.item.token] else [] := by
  have ok := finishOk (if 0 ≤ rc then dispatchSent else dispatchRetry) holds
    (by split <;> decide) now (now+1000)
  obtain ⟨j,slot,flying,item⟩ := holds
  have inside : c.slot < capacity := slot ▸ j.isLt
  have here : (slotAt s.queue c.slot).item = c.item := by
    rw [slotAt,dif_pos inside,← item]
    exact congrArg (fun k => (s.queue.slots k).item) (Fin.ext slot)
  simp only [MqttDispatchQueue.step,ok,endings,finishFate,here]
  by_cases sent : 0 ≤ rc
  · simp [sent]
  · by_cases late : expired c.item now
    · simp [sent,late,dispatchSent,dispatchRetry,dispatchDrop]
    · simp [sent,late,dispatchSent,dispatchRetry,dispatchDrop]

theorem finishChange (ledger : Ledger s) (rc : Int) (now : Nat) (i : Fin receiptCapacity) :
    Change s (.finish rc now) (ownerFinish s rc now) .done i := by
  cases busy : s.claimed with
  | none =>
    have same : ownerFinish s rc now = s := by rw [ownerFinish,busy]
    rw [same]
    exact .same rfl fun _ => Iff.rfl
  | some c =>
    have holds := ledger.claim c busy
    have receipts : (ownerFinish s rc now).receipts =
        if 0 ≤ rc then receiptFinish s.receipts c.item.token .sdkAccepted
        else if expired c.item now then receiptFinish s.receipts c.item.token .failed else s.receipts := by
      rw [ownerFinish,busy]
    have queue : (ownerFinish s rc now).queue = (MqttDispatchQueue.step s.queue
        (.finish (some c) (if 0 ≤ rc then dispatchSent else dispatchRetry) now (now+1000))).1 := by
      rw [ownerFinish,busy]
      rfl
    refine endingChange ledger i queue List.not_mem_nil (finishEndings holds now) ?_ ?_
    · intro held ends
      rw [receipts]
      split at ends
      · rename_i closes
        have own := List.mem_singleton.mp ends
        by_cases sent : 0 ≤ rc
        · rw [if_pos sent,finishStatus,if_pos own]
          exact ⟨rfl,.inl rfl⟩
        · rw [if_neg sent,if_pos (closes.resolve_left sent),finishStatus,if_pos own]
          exact ⟨rfl,.inr rfl⟩
      · exact nomatch ends
    · intro stays
      rw [receipts]
      by_cases sent : 0 ≤ rc
      · rw [if_pos (.inl sent),List.mem_singleton] at stays
        rw [if_pos sent,finishStatus,if_neg stays]
      · rw [if_neg sent]
        by_cases late : expired c.item now
        · rw [if_pos (.inr late),List.mem_singleton] at stays
          rw [if_pos late,finishStatus,if_neg stays]
        · rw [if_neg late]

theorem freeSlot {rs : Receipts} {i : Fin receiptCapacity} (found : freeReceipt rs = some i) :
    (rs i).token = 0 := by
  have here := List.find?_some found
  simpa using here

theorem submitOutcome (s : Runtime) (p : Publication) (available : Bool) (now : Nat) :
    ((submit s p available now).1 = s ∧ (submit s p available now).2.rc ≠ 0) ∨
    (((submit s p available now).1 =
        { s with queue := (MqttDispatchQueue.submit s.queue (some (request p now))).1 } ∧
      (submit s p available now).2.rc ≠ 0) ∧
      (MqttDispatchQueue.submit s.queue (some (request p now))).2.result ≠ .accepted) ∨
    ∃ slot : Option (Fin receiptCapacity), (p.tracked = true ↔ slot ≠ none) ∧
      (∀ i, slot = some i → (s.receipts i).token = 0) ∧
      (MqttDispatchQueue.submit s.queue (some (request p now))).2.result = .accepted ∧
      submit s p available now =
        ({ s with
            queue := (MqttDispatchQueue.submit s.queue (some (request p now))).1
            receipts := record (settleReplaced s.receipts
                (MqttDispatchQueue.submit s.queue (some (request p now))).2.replacedToken) slot
              (MqttDispatchQueue.submit s.queue (some (request p now))).2.token },
          ⟨0,if p.tracked then (MqttDispatchQueue.submit s.queue (some (request p now))).2.token else 0⟩) := by
  unfold submit
  by_cases refused : available = false ∨ p.retain < 0 ∨ 1 < p.retain
  · rw [if_pos refused]
    exact .inl ⟨rfl,by simp⟩
  rw [if_neg refused]
  dsimp only
  by_cases crowded : p.tracked = true ∧ (if p.tracked then freeReceipt s.receipts else none) = none
  · rw [if_pos crowded]
    exact .inl ⟨rfl,by simp⟩
  rw [if_neg crowded]
  generalize MqttDispatchQueue.submit s.queue (some (request p now)) = done
  by_cases accepted : done.2.result = .accepted
  · rw [if_pos accepted]
    refine .inr (.inr ⟨_,?_,?_,accepted,rfl⟩)
    · cases tracked : p.tracked
      · simp
      · simpa [tracked] using crowded
    · intro i found
      cases tracked : p.tracked
      · rw [tracked] at found
        exact nomatch found
      · rw [tracked,if_pos rfl] at found
        exact freeSlot found
  · rw [if_neg accepted]
    refine .inr (.inl ⟨⟨rfl,?_⟩,accepted⟩)
    cases code : done.2.result
    · exact absurd code accepted
    all_goals simp [submitCode]

theorem submitAnswer (ledger : Ledger s) (r : Option Request)
    (accepted : (MqttDispatchQueue.submit s.queue r).2.result = .accepted) :
    (MqttDispatchQueue.submit s.queue r).2.token = s.queue.lastToken + 1 ∧
      (MqttDispatchQueue.submit s.queue r).2.replacedToken ≤ s.queue.lastToken := by
  obtain ⟨a,e,books⟩ := ledger.books
  rcases submitCases s.queue r with ⟨refused,-⟩ | ⟨req,j,-,-,⟨run,-⟩ | ⟨run,fits,-⟩⟩
  · exact absurd accepted refused
  · rw [run]
    exact ⟨rfl,Nat.zero_le _⟩
  · rw [run]
    exact ⟨rfl,(books.shape.tokenRange j (by simp [Held,fits.1])).2⟩

theorem acceptedAnswer {q : Queue} {r : Option Request}
    (accepted : (MqttDispatchQueue.submit q r).2.result = .accepted) :
    arrivals (MqttDispatchQueue.step q (.submit r)).2 = [(MqttDispatchQueue.submit q r).2.token] ∧
      endings q (.submit r) (MqttDispatchQueue.step q (.submit r)).2 =
        if (MqttDispatchQueue.submit q r).2.replacedToken ≠ 0 then
          [((MqttDispatchQueue.submit q r).2.replacedToken,Fate.coalesced)] else [] := by
  change arrivals (.submitted (MqttDispatchQueue.submit q r).2) = _ ∧
    endings q (.submit r) (.submitted (MqttDispatchQueue.submit q r).2) = _
  generalize MqttDispatchQueue.submit q r = done at accepted
  obtain ⟨_,⟨result,_,_⟩⟩ := done
  subst accepted
  exact ⟨rfl,rfl⟩

theorem refusedAnswer {q : Queue} {r : Option Request}
    (refused : (MqttDispatchQueue.submit q r).2.result ≠ .accepted) :
    arrivals (MqttDispatchQueue.step q (.submit r)).2 = [] ∧
      endings q (.submit r) (MqttDispatchQueue.step q (.submit r)).2 = [] := by
  have none : (MqttDispatchQueue.submit q r).2.replacedToken = 0 := by
    rcases submitCases q r with ⟨-,-,none,-⟩ | ⟨req,j,-,-,⟨run,-⟩ | ⟨run,-⟩⟩
    · exact none
    all_goals
      rw [run] at refused
      exact absurd rfl refused
  simp only [MqttDispatchQueue.step,endings,none]
  generalize MqttDispatchQueue.submit q r = done at refused
  obtain ⟨_,⟨result,_,_⟩⟩ := done
  cases result <;> first | exact absurd rfl refused | exact ⟨rfl,rfl⟩

theorem settledReceipt (rs : Receipts) (replaced : Nat) (i : Fin receiptCapacity) :
    settleReplaced rs replaced i =
      if replaced ≠ 0 ∧ (rs i).token = replaced then { rs i with status := .failed } else rs i := by
  unfold settleReplaced
  by_cases none : replaced = 0
  · rw [if_neg (not_not_intro none),if_neg fun both => both.1 none]
  · rw [if_pos none,finishStatus]
    simp [none]

theorem submitChange (ledger : Ledger s) (p : Publication) (available : Bool) (now : Nat)
    (i : Fin receiptCapacity) :
    Change s (.submit p available now) (submit s p available now).1
      (.submitted (submit s p available now).2) i := by
  rcases submitOutcome s p available now with ⟨same,-⟩ | ⟨⟨moved,-⟩,refused⟩ | ⟨slot,-,free,accepted,moved⟩
  · rw [same]
    exact .same rfl fun _ => Iff.rfl
  · obtain ⟨silent,none⟩ := refusedAnswer refused
    have queue : (submit s p available now).1.queue =
        (MqttDispatchQueue.step s.queue (.submit (some (request p now)))).1 := by rw [moved]; rfl
    refine endingChange ledger i queue (by rw [silent]; exact List.not_mem_nil) (show _ = ([] : List Nat) by rw [none]; rfl)
      (fun _ ends => nomatch ends) fun _ => ?_
    rw [moved]
  · obtain ⟨a,e,books⟩ := ledger.books
    obtain ⟨token,older⟩ := submitAnswer ledger (some (request p now)) accepted
    obtain ⟨answer,ends⟩ := acceptedAnswer accepted
    have queue : (submit s p available now).1.queue =
        (MqttDispatchQueue.step s.queue (.submit (some (request p now)))).1 := by rw [moved]; rfl
    have receipts : (submit s p available now).1.receipts = record (settleReplaced s.receipts
          (MqttDispatchQueue.submit s.queue (some (request p now))).2.replacedToken) slot
        (s.queue.lastToken + 1) := by rw [moved,token]
    rw [token] at answer
    generalize (MqttDispatchQueue.submit s.queue (some (request p now))).2.replacedToken = replaced
      at older ends receipts
    have settledToken (j : Fin receiptCapacity) :
        (settleReplaced s.receipts replaced j).token = (s.receipts j).token := by
      rw [settledReceipt]
      split <;> rfl
    by_cases mine : slot = some i
    · subst mine
      have here : (submit s p available now).1.receipts i = ⟨s.queue.lastToken+1,.pending⟩ := by
        rw [receipts]
        exact Function.update_self _ _ _
      refine .issued (free i rfl) (by rw [here]) ?_ (by rw [here]; exact Nat.lt_succ_self _) fun j other => ?_
      · rw [here,queue,carriedStep books,answer,ends]
        refine ⟨.inr (List.mem_singleton.mpr rfl),?_⟩
        split <;> simp
        omega
      · rw [receipts]
        exact (congrArg Receipt.token (Function.update_of_ne other _ _)).trans (settledToken j)
    · have here : (submit s p available now).1.receipts i = settleReplaced s.receipts replaced i := by
        rw [receipts]
        cases slot with
        | none => rfl
        | some j => exact Function.update_of_ne (fun same => mine (congrArg some same.symm)) _ _
      have known := ledger.known i
      refine endingChange ledger i queue (by rw [answer,List.mem_singleton]; omega) (congrArg _ ends) ?_ ?_
      · intro held gone
        rw [here,settledReceipt]
        by_cases some_ : replaced ≠ 0
        · rw [if_pos some_] at gone
          rw [if_pos ⟨some_,List.mem_singleton.mp gone⟩]
          exact ⟨rfl,.inr rfl⟩
        · rw [if_neg some_] at gone
          exact nomatch gone
      · intro stays
        rw [here,settledReceipt,if_neg]
        rintro ⟨some_,same⟩
        rw [if_pos some_] at stays
        exact stays (List.mem_singleton.mpr same)

theorem takeOutcome (s : Runtime) (token : Nat) :
    ((receiptTake s token).1 = s ∧ ((receiptTake s token).2 = .unknown ∧
        (token = 0 ∨ ∀ i, (s.receipts i).token ≠ token) ∨
      ∃ i, (s.receipts i).token = token ∧ (s.receipts i).status = .pending ∧
        (receiptTake s token).2 = .pending)) ∨
    ∃ i, (s.receipts i).token = token ∧ (s.receipts i).status ≠ .pending ∧
      receiptTake s token =
        ({ s with receipts := Function.update s.receipts i { s.receipts i with token := 0 } },
          (s.receipts i).status) := by
  unfold receiptTake
  by_cases none : token = 0
  · rw [if_pos none]
    exact .inl ⟨rfl,.inl ⟨rfl,.inl none⟩⟩
  rw [if_neg none]
  cases found : (List.finRange receiptCapacity).find? fun i => (s.receipts i).token = token with
  | none =>
    refine .inl ⟨rfl,.inl ⟨rfl,.inr fun i same => ?_⟩⟩
    have missed := List.find?_eq_none.mp found i (List.mem_finRange i)
    exact missed (by simpa using same)
  | some i =>
    have here : (s.receipts i).token = token := by simpa using List.find?_some found
    dsimp only
    by_cases settled : (s.receipts i).status ≠ .pending
    · rw [if_pos settled]
      exact .inr ⟨i,here,settled,rfl⟩
    · rw [if_neg settled]
      exact .inl ⟨rfl,.inr ⟨i,here,not_not.mp settled,rfl⟩⟩

theorem takeChange (token : Nat) (i : Fin receiptCapacity) :
    Change s (.take token) (receiptTake s token).1 (.status (receiptTake s token).2) i := by
  rcases takeOutcome s token with ⟨same,-⟩ | ⟨j,here,settled,moved⟩
  · rw [same]
    exact .same rfl fun _ => Iff.rfl
  · rw [moved]
    by_cases mine : i = j
    · subst mine
      refine .released ?_ (.inr ⟨by rw [here],settled⟩)
      simp only [Function.update_self]
    · exact .same (Function.update_of_ne mine _ _) fun _ => Iff.rfl

theorem forgetChange (token : Nat) (i : Fin receiptCapacity) :
    Change s (.forget token) (receiptForget s token) .done i := by
  by_cases mine : (s.receipts i).token = token
  · refine .released ?_ (.inl (by rw [mine]))
    simp only [receiptForget,if_pos mine]
  · refine .same ?_ fun _ => Iff.rfl
    simp only [receiptForget,if_neg mine]

theorem change (ledger : Ledger s) (c : Call) (i : Fin receiptCapacity) :
    Change s c (step s c).1 (step s c).2 i := by
  cases c with
  | submit p available now => exact submitChange ledger p available now i
  | take token => exact takeChange token i
  | forget token => exact forgetChange token i
  | sweep now => exact expireChange ledger (.sweep now) .done now i
  | monitor now =>
    obtain ⟨books,distinct,known,stated,pending,claim⟩ := ledger
    have watched : Ledger { s with guard := MqttPacketGuard.probeExpire s.guard now
                                   health := (MqttHealth.poll s.health now).1 } :=
      ⟨books,distinct,known,stated,pending,claim⟩
    cases expireChange watched (.monitor now) .done now i with
    | same kept place => exact .same kept place
    | settled held token final before after => exact .settled held token final before after
    | released gone why => exact .released gone why
    | issued free pending carried fresh alone => exact .issued free pending carried fresh alone
  | claim now => exact claimChange ledger now i
  | finish rc now => exact finishChange ledger rc now i
  | sdkStopped now => exact .same rfl fun _ => Iff.rfl

theorem queueStep (s : Runtime) (c : Call) : (step s c).1.queue = s.queue ∨
    ∃ op, (step s c).1.queue = (MqttDispatchQueue.step s.queue op).1 := by
  cases c with
  | submit p available now =>
    rcases submitOutcome s p available now with ⟨same,-⟩ | ⟨⟨moved,-⟩,-⟩ | ⟨slot,-,-,-,moved⟩
    · exact .inl (congrArg Runtime.queue same)
    · exact .inr ⟨.submit (some (request p now)),congrArg Runtime.queue moved⟩
    · exact .inr ⟨.submit (some (request p now)),congrArg (fun done => done.1.queue) moved⟩
  | take token =>
    rcases takeOutcome s token with ⟨same,-⟩ | ⟨j,-,-,moved⟩
    · exact .inl (congrArg Runtime.queue same)
    · exact .inl (congrArg (fun done => done.1.queue) moved)
  | forget token => exact .inl rfl
  | sweep now => exact .inr ⟨.expire now,rfl⟩
  | monitor now => exact .inr ⟨.expire now,rfl⟩
  | claim now =>
    cases busy : s.claimed with
    | some c => exact .inl (by simp only [step,ownerClaim,busy])
    | none => exact .inr ⟨.claim now,by simp only [step,ownerClaim,busy,MqttDispatchQueue.step]⟩
  | finish rc now =>
    cases busy : s.claimed with
    | none => exact .inl (by simp only [step,ownerFinish,busy])
    | some c =>
      exact .inr ⟨.finish (some c) (if 0 ≤ rc then dispatchSent else dispatchRetry) now (now+1000),
        by simp only [step,ownerFinish,busy,MqttDispatchQueue.step]⟩
  | sdkStopped now => exact .inl rfl

theorem booksStep (ledger : Ledger s) (c : Call) : ∃ a e, Books (step s c).1.queue a e := by
  obtain ⟨a,e,books⟩ := ledger.books
  rcases queueStep s c with same | ⟨op,moved⟩
  · rw [same]
    exact ⟨a,e,books⟩
  · rw [moved]
    exact ⟨_,_,stepBooks books op⟩

theorem tokensGrow (ledger : Ledger s) (c : Call) : s.queue.lastToken ≤ (step s c).1.queue.lastToken := by
  obtain ⟨a,e,books⟩ := ledger.books
  rcases queueStep s c with same | ⟨op,moved⟩
  · rw [same]
  · rw [moved]
    exact lastTokenGrows books op

theorem staysGone (ledger : Ledger s) (c : Call) {t : Nat} (known : t ≤ s.queue.lastToken)
    (gone : ¬Carried t s.queue) : ¬Carried t (step s c).1.queue := by
  obtain ⟨a,e,books⟩ := ledger.books
  rcases queueStep s c with same | ⟨op,moved⟩
  · rw [same]
    exact gone
  · rw [moved,carriedStep books op]
    rintro ⟨still | new,-⟩
    · exact gone still
    · have late := (arrivalFresh books op new).1
      omega

theorem claimStep (ledger : Ledger s) (c : Call) (k : Claim) (held : (step s c).1.claimed = some k) :
    Holds (step s c).1 k := by
  have keep (s' : Runtime) (same : s'.claimed = s.claimed)
      (slots : ∀ i, (s.queue.slots i).state = .inflight → s'.queue.slots i = s.queue.slots i)
      (here : s'.claimed = some k) : Holds s' k := by
    obtain ⟨i,slot,flying,item⟩ := ledger.claim k (same ▸ here)
    refine ⟨i,slot,?_,?_⟩
    · rw [slots i flying]
      exact flying
    · rw [slots i flying]
      exact item
  cases c with
  | submit p available now =>
    change (submit s p available now).1.claimed = some k at held
    change Holds (submit s p available now).1 k
    rcases submitOutcome s p available now with ⟨same,-⟩ | ⟨⟨moved,-⟩,-⟩ | ⟨slot,-,-,-,moved⟩
    · rw [same] at held ⊢
      exact ledger.claim k held
    · rw [moved] at held ⊢
      exact keep _ rfl (fun i flying => submitFlying _ flying) held
    · rw [moved] at held ⊢
      exact keep _ rfl (fun i flying => submitFlying _ flying) held
  | take token =>
    change (receiptTake s token).1.claimed = some k at held
    change Holds (receiptTake s token).1 k
    rcases takeOutcome s token with ⟨same,-⟩ | ⟨j,-,-,moved⟩
    · rw [same] at held ⊢
      exact ledger.claim k held
    · rw [moved] at held ⊢
      exact ledger.claim k held
  | forget token => exact ledger.claim k held
  | sweep now =>
    refine keep _ (by simp only [step,expireReceipts]) (fun i flying => ?_) held
    simp only [step,expireReceipts]
    exact expireFlying now flying
  | monitor now =>
    refine keep _ (by simp only [step,monitor,expireReceipts]) (fun i flying => ?_) held
    simp only [step,monitor,expireReceipts]
    exact expireFlying now flying
  | claim now =>
    cases busy : s.claimed with
    | some c =>
      have same : (step s (.claim now)).1 = s := by simp only [step,ownerClaim,busy]
      rw [same] at held ⊢
      exact ledger.claim k held
    | none =>
      have moved : (step s (.claim now)).1 =
          { s with queue := (MqttDispatchQueue.claim s.queue now).1,
                   claimed := (MqttDispatchQueue.claim s.queue now).2 } := by
        simp only [step,ownerClaim,busy]
      rw [moved] at held ⊢
      rcases claimCases s.queue now with ⟨run,-⟩ | ⟨i,streak,run,taken⟩
      · rw [run] at held
        exact nomatch held
      · rw [run] at held ⊢
        cases Option.some.inj held
        exact ⟨i,rfl,by simp [hand],by simp [hand]⟩
  | finish rc now =>
    cases busy : s.claimed with
    | none =>
      have same : (step s (.finish rc now)).1 = s := by simp only [step,ownerFinish,busy]
      rw [same] at held
      exact nomatch busy.symm.trans held
    | some c =>
      have idle : (step s (.finish rc now)).1.claimed = none := by simp only [step,ownerFinish,busy]
      exact nomatch idle.symm.trans held
  | sdkStopped now => exact keep _ rfl (fun _ _ => rfl) held

theorem tokenAfter {c : Call} {s' : Runtime} {r : Reply} {i : Fin receiptCapacity} (ch : Change s c s' r i)
    (held : (s'.receipts i).token ≠ 0) :
    (s'.receipts i).token = (s.receipts i).token ∨
      s.queue.lastToken < (s'.receipts i).token ∧
        ∀ j, j ≠ i → (s'.receipts j).token = (s.receipts j).token := by
  cases ch with
  | same kept => exact .inl (by rw [kept])
  | settled _ token => exact .inl token
  | released gone => exact absurd gone held
  | issued _ _ _ fresh alone => exact .inr ⟨fresh,alone⟩

theorem ledgerStep (ledger : Ledger s) (c : Call) : Ledger (step s c).1 where
  books := booksStep ledger c
  distinct := by
    intro i j held same
    by_contra apart
    have old (k : Fin receiptCapacity) := ledger.known k
    rcases tokenAfter (change ledger c i) held with left | ⟨fresh,alone⟩
    · rcases tokenAfter (change ledger c j) (same ▸ held) with right | ⟨fresh,alone⟩
      · exact apart (ledger.distinct i j (left ▸ held) (left.symm.trans (same.trans right)))
      · rw [← same,left] at fresh
        exact absurd (old i) (Nat.not_le_of_lt fresh)
    · rw [same,alone j (Ne.symm apart)] at fresh
      exact absurd (old j) (Nat.not_le_of_lt fresh)
  known := by
    intro i
    have grows := tokensGrow ledger c
    obtain ⟨a,e,books⟩ := booksStep ledger c
    cases change ledger c i with
    | same kept =>
      rw [kept]
      exact Nat.le_trans (ledger.known i) grows
    | settled _ token =>
      rw [token]
      exact Nat.le_trans (ledger.known i) grows
    | released gone => omega
    | issued _ _ carried => exact (carriedKnown books carried).2
  stated := by
    intro i held
    cases change ledger c i with
    | same kept =>
      rw [kept] at held ⊢
      exact ledger.stated i held
    | settled _ _ final =>
      rcases final with sent | failed
      · simp [sent]
      · simp [failed]
    | released gone => exact absurd gone held
    | issued _ pending => simp [pending]
  pending := by
    intro i held
    cases change ledger c i with
    | same kept place =>
      rw [kept] at held ⊢
      rw [place held]
      exact ledger.pending i held
    | settled _ token final before after =>
      rw [token]
      refine ⟨fun pending => ?_,fun carried => absurd carried after⟩
      rcases final with sent | failed
      · exact nomatch sent.symm.trans pending
      · exact nomatch failed.symm.trans pending
    | released gone => exact absurd gone held
    | issued _ pending carried => exact ⟨fun _ => carried,fun _ => pending⟩
  claim := claimStep ledger c

theorem bootLedger (health : MqttHealth.Health) : Ledger (boot health) where
  books := ⟨[],[],initBooks⟩
  distinct _ _ held := absurd rfl held
  known _ := Nat.le_refl 0
  stated _ held := absurd rfl held
  pending _ held := absurd rfl held
  claim _ held := nomatch held

theorem carriedOnce (ledger : Ledger s) {t : Nat} (carried : Carried t s.queue) :
    ∃! j, Carries t (s.queue.slots j) := by
  obtain ⟨a,e,books⟩ := ledger.books
  obtain ⟨j,carries⟩ := carried
  exact ⟨j,carries,fun k other => books.shape.tokens k j other.1 carries.1 (other.2.trans carries.2.symm)⟩

theorem takeAnswer (ledger : Ledger s) {t : Nat} {i : Fin receiptCapacity} (held : t ≠ 0)
    (here : (s.receipts i).token = t) : (receiptTake s t).2 = (s.receipts i).status := by
  have only (j : Fin receiptCapacity) (same : (s.receipts j).token = t) : j = i :=
    ledger.distinct j i (by rw [same]; exact held) (same.trans here.symm)
  rcases takeOutcome s t with ⟨-,⟨-,none | missing⟩ | ⟨j,same,pending,reply⟩⟩ | ⟨j,same,-,moved⟩
  · exact absurd none held
  · exact absurd here (missing i)
  · obtain rfl := only j same
    rw [reply,pending]
  · obtain rfl := only j same
    rw [moved]

end Changes

section Run
variable (health : MqttHealth.Health) (calls : List Call)

abbrev at' (n : Nat) : Runtime := stateAt step (boot health) calls n

theorem ledgerAt (n : Nat) : Ledger (at' health calls n) :=
  keepsBetween step (boot health) calls (P := Ledger) (m := 0) (bootLedger health) (Nat.zero_le n)
    fun _ c _ _ _ held => ledgerStep held c

/-- Call `n` changes the status of the receipt that is issued under `t`. -/
def Settles (n t : Nat) : Prop :=
  t ≠ 0 ∧ ∃ i, ((at' health calls n).receipts i).token = t ∧ ((at' health calls (n+1)).receipts i).token = t ∧
    ((at' health calls (n+1)).receipts i).status ≠ ((at' health calls n).receipts i).status

def Issued (n t : Nat) : Prop :=
  ∃ p available now, calls[n]? = some (.submit p available now) ∧ p.tracked = true ∧
    (outs step (boot health) calls)[n]? = some (.submitted ⟨0,t⟩)

/-- Between `n` and `m` the receipt is neither forgotten nor taken with a final answer. -/
def Open (n m t : Nat) : Prop :=
  ∀ k, n < k → k < m → calls[k]? ≠ some (.forget t) ∧
    (calls[k]? = some (.take t) → (outs step (boot health) calls)[k]? = some (.status .pending))

variable {health calls}

theorem settlesThere {n t : Nat} (settles : Settles health calls n t) :
    ∃ i, (at' health calls n).receipts i = ⟨t,.pending⟩ ∧ Final ((at' health calls (n+1)).receipts i).status ∧
      Carried t (at' health calls n).queue ∧ ¬Carried t (at' health calls (n+1)).queue := by
  obtain ⟨held,i,here,after,changed⟩ := settles
  cases call : calls[n]? with
  | none =>
    have same : at' health calls (n+1) = at' health calls n := stateEnd step _ call
    rw [same] at changed
    exact absurd rfl changed
  | some c =>
    have next : at' health calls (n+1) = (step (at' health calls n) c).1 := stateNext step _ call
    have ledger := ledgerAt health calls n
    rw [next] at after changed ⊢
    cases change ledger c i with
    | same kept =>
      rw [kept] at changed
      exact absurd rfl changed
    | settled _ _ final before gone =>
      rw [here] at before gone
      refine ⟨i,?_,final,before,gone⟩
      have pending := (ledger.pending i (here ▸ held)).mpr (here ▸ before)
      rw [← here,← pending]
    | released gone => exact absurd (after.symm.trans gone) held
    | issued free => exact absurd (here.symm.trans free) held

theorem settlesOnce {n k t : Nat} (first : Settles health calls n t) (second : Settles health calls k t) :
    n = k := by
  have never {n k : Nat} (earlier : n < k) (first : Settles health calls n t)
      (second : Settles health calls k t) : False := by
    obtain ⟨i,-,-,before,gone⟩ := settlesThere first
    obtain ⟨j,-,-,carried,-⟩ := settlesThere second
    have ledger := ledgerAt health calls n
    obtain ⟨a,e,books⟩ := ledger.books
    have known := (carriedKnown books before).2
    have late := keepsBetween step (boot health) calls
      (P := fun s => Ledger s ∧ t ≤ s.queue.lastToken ∧ ¬Carried t s.queue) (m := n+1)
      ⟨ledgerAt health calls (n+1),?_,gone⟩ earlier
      (fun _ c _ _ _ held => ⟨ledgerStep held.1 c,Nat.le_trans held.2.1 (tokensGrow held.1 c),
        staysGone held.1 c held.2.1 held.2.2⟩)
    · exact late.2.2 carried
    · cases call : calls[n]? with
      | none =>
        rw [stateEnd step _ call]
        exact known
      | some c =>
        rw [stateNext step _ call]
        exact Nat.le_trans known (tokensGrow ledger c)
  rcases Nat.lt_trichotomy n k with earlier | same | later
  · exact (never earlier first second).elim
  · exact same
  · exact (never later second first).elim

theorem issuedThere {n t : Nat} (issued : Issued health calls n t) :
    t ≠ 0 ∧ ∃ i, (at' health calls (n+1)).receipts i = ⟨t,.pending⟩ := by
  obtain ⟨p,available,now,call,tracked,reply⟩ := issued
  have answer := outStep step (boot health) call reply
  have next : at' health calls (n+1) = (step (at' health calls n) (.submit p available now)).1 :=
    stateNext step _ call
  simp only [step,Reply.submitted.injEq] at answer next
  rcases submitOutcome (at' health calls n) p available now with
    ⟨-,failed⟩ | ⟨⟨-,failed⟩,-⟩ | ⟨slot,wanted,-,accepted,moved⟩
  · exact absurd (congrArg Submission.rc answer).symm failed
  · exact absurd (congrArg Submission.rc answer).symm failed
  · obtain ⟨token,-⟩ := submitAnswer (ledgerAt health calls n) _ accepted
    have mine : t = (at' health calls n).queue.lastToken + 1 := by
      have own := congrArg Submission.receipt answer
      rw [moved] at own
      simpa [tracked,token] using own
    obtain ⟨i,rfl⟩ := Option.ne_none_iff_exists'.mp (wanted.mp tracked)
    refine ⟨by omega,i,?_⟩
    rw [next,moved,mine,← token]
    simp only [record,Function.update_self]

/-- A receipt that is neither forgotten nor taken with a final answer stays in its place. -/
theorem openThere {n m t : Nat} {i : Fin receiptCapacity} (held : t ≠ 0)
    (here : ((at' health calls (n+1)).receipts i).token = t) (later : n + 1 ≤ m)
    (open_ : Open health calls n m t) : ((at' health calls m).receipts i).token = t := by
  refine keepsBetween step (boot health) calls (P := fun s => (s.receipts i).token = t) here later ?_
  intro k c low high call same
  have ledger := ledgerAt health calls k
  obtain ⟨unforgotten,untaken⟩ := open_ k low high
  cases change ledger c i with
  | same kept => rw [kept]; exact same
  | settled _ token => exact token.trans same
  | issued free => exact absurd (same.symm.trans free) held
  | released gone why =>
    rw [same] at why
    rcases why with rfl | ⟨rfl,settled⟩
    · exact absurd call unforgotten
    · have reply := outStep step (boot health) call (untaken call)
      have answer := takeAnswer ledger held same
      exact absurd (answer.symm.trans (Reply.status.inj reply).symm) settled

theorem settledBy {n m t : Nat} {i : Fin receiptCapacity} (held : t ≠ 0)
    (here : (at' health calls (n+1)).receipts i = ⟨t,.pending⟩) (later : n + 1 ≤ m)
    (open_ : Open health calls n m t) :
    ((at' health calls m).receipts i).status = .pending ∨ ∃ k, n < k ∧ k < m ∧ Settles health calls k t := by
  induction m, later using Nat.le_induction with
  | base => exact .inl (by rw [here])
  | succ m late ih =>
    have earlier : Open health calls n m t := fun k low high => open_ k low (Nat.lt_succ_of_lt high)
    rcases ih earlier with pending | ⟨k,low,high,settles⟩
    · by_cases still : ((at' health calls (m+1)).receipts i).status = .pending
      · exact .inl still
      · have before := openThere held (by rw [here]) late earlier
        have after := openThere held (by rw [here]) (Nat.le_succ_of_le late) open_
        exact .inr ⟨m,late,Nat.lt_succ_self m,held,i,before,after,by rw [pending]; exact still⟩
    · exact .inr ⟨k,low,Nat.lt_succ_of_lt high,settles⟩

variable (health calls) in
/-- A pending receipt names a message in exactly one slot. A receipt changes once, as its
message leaves the queue, and to a final status; from then on a caller that has kept it
gets that answer. -/
theorem receiptsSettle :
    (∀ n i, ((at' health calls n).receipts i).token ≠ 0 →
      ((at' health calls n).receipts i).status = .pending →
      ∃! j, Carries ((at' health calls n).receipts i).token ((at' health calls n).queue.slots j)) ∧
    (∀ n k t, Settles health calls n t → (Settles health calls k t → n = k) ∧
      Carried t (at' health calls n).queue ∧ ¬Carried t (at' health calls (n+1)).queue) ∧
    ∀ n m t, Issued health calls n t → n < m → Open health calls n m t →
      ¬Carried t (at' health calls m).queue →
      (∃ k, n < k ∧ k < m ∧ Settles health calls k t) ∧
      (calls[m]? = some (.take t) → ∃ status, Final status ∧
        (outs step (boot health) calls)[m]? = some (.status status)) := by
  refine ⟨fun n i held pending => ?_,fun n k t settles => ?_,fun n m t issued later open_ gone => ?_⟩
  · have ledger := ledgerAt health calls n
    exact carriedOnce ledger ((ledger.pending i held).mp pending)
  · obtain ⟨i,-,-,before,after⟩ := settlesThere settles
    exact ⟨settlesOnce settles,before,after⟩
  · obtain ⟨held,i,here⟩ := issuedThere issued
    have ledger := ledgerAt health calls m
    have place := openThere held (by rw [here]) later open_
    have settled : ((at' health calls m).receipts i).status ≠ .pending := by
      intro pending
      have carried := (ledger.pending i (place ▸ held)).mp pending
      rw [place] at carried
      exact gone carried
    refine ⟨(settledBy held here later open_).resolve_left settled,fun call => ?_⟩
    refine ⟨((at' health calls m).receipts i).status,?_,?_⟩
    · have stated := ledger.stated i (place ▸ held)
      cases status : ((at' health calls m).receipts i).status with
      | unknown => exact absurd status stated
      | pending => exact absurd status settled
      | sdkAccepted => exact .inl rfl
      | failed => exact .inr rfl
    · rw [outAt,call]
      exact congrArg (fun r => some (Reply.status r)) (takeAnswer ledger held place)

end Run

def trackedCall : Call := .submit (publishTracked (some [116]) (some [1]) 1 1 0) true 0

def sentCalls : List Call := [trackedCall,.claim 5,.finish 0 6,.take 1]

def freshHealth : MqttHealth.Health := MqttHealth.fresh MqttHealth.defaultConfig 0

theorem sentReceipt : (∃ k, 0 < k ∧ k < 3 ∧ Settles freshHealth sentCalls k 1) ∧
    ∃ status, Final status ∧ (outs step (boot freshHealth) sentCalls)[3]? = some (.status status) := by
  have issued : Issued freshHealth sentCalls 0 1 := ⟨_,_,_,rfl,rfl,by decide +kernel⟩
  have kept : Open freshHealth sentCalls 0 3 1 := by
    intro k low high
    obtain rfl | rfl : k = 1 ∨ k = 2 := by omega
    all_goals exact ⟨by decide,by decide⟩
  obtain ⟨settled,answered⟩ := (receiptsSettle freshHealth sentCalls).2.2 0 3 1 issued (by decide) kept
    (by decide +kernel)
  exact ⟨settled,answered rfl⟩

end Web3PiUps.MqttReceipts
