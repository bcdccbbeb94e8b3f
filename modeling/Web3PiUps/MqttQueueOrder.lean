import Web3PiUps.MqttQueueFairness

/-! The order of delivery. A claim that passes an older item over finds it
expired, and with a clock that does not run backwards an expired item is never
claimed again. Claim times are the clock: the queue takes absolute monotonic
milliseconds from its one owner. -/
namespace Web3PiUps.MqttQueueOrder
open MqttDispatchQueue MqttQueueScans MqttQueueMoves MqttQueueConservation MqttQueueFairness
open SlotTable StepMachine

theorem moveLast {q e q'} (m : Move q e q') : q.lastToken ≤ q'.lastToken := by
  cases m with
  | admitted | replaced => exact Nat.le_succ _
  | refused | lapsed | taken | putBack | closed => exact Nat.le_refl _

theorem movesLast {q es q'} (m : Moves q es q') : q.lastToken ≤ q'.lastToken := by
  induction m with
  | done => exact Nat.le_refl _
  | more first _ ih => exact (moveLast first).trans ih

theorem stepLast {q} (shape : Shape q) (op : Op) : q.lastToken ≤ (step q op).1.lastToken := by
  obtain ⟨es,moves,-⟩ := stepMoves (fun i held => (shape.tokenRange i held).1) op
  exact movesLast moves

theorem storedOther {q : Queue} {r topic i replaces token} {P : Slot → Prop} (known : token ≤ q.lastToken)
    (h : Every (Carries token) P q.slots) :
    Every (Carries token) P (store q r topic i replaces).1.slots := by
  have slots : (store q r topic i replaces).1.slots =
      Function.update q.slots i ((store q r topic i replaces).1.slots i) := by simp [store]
  rw [slots]
  refine everyUpdate h (fun carries => ?_)
  have fresh : q.lastToken+1 = token := by simpa [store,acceptedItem] using carries.2
  omega

theorem releasedOther {q : Queue} {i token} {P : Slot → Prop} (h : Every (Carries token) P q.slots) :
    Every (Carries token) P (Function.update q.slots i .zero) :=
  everyUpdate h (fun carries => absurd rfl carries.1)

theorem moveItem {q e q' token} {P : Item → Prop} (known : token ≤ q.lastToken) (m : Move q e q')
    (h : Every (Carries token) (fun s => P s.item) q.slots) :
    Every (Carries token) (fun s => P s.item) q'.slots := by
  cases m with
  | refused => exact h
  | admitted | replaced => exact storedOther known h
  | lapsed | closed => exact releasedOther h
  | @taken i nowMs streak quiet head due turn =>
    refine everyUpdate h (fun carries => h i ⟨?_,carries.2⟩)
    simp [Held,head.1.1]
  | @putBack i retryAfterMs flying =>
    refine everyUpdate h (fun carries => h i ⟨?_,carries.2⟩)
    simp [Held,flying]

/-- Held only in wait, and already expired when the clock showed `clock`. -/
def Late (token clock : Nat) (q : Queue) : Prop :=
  Every (Carries token) (fun s => s.state = .queued ∧ expired s.item clock) q.slots

theorem expiredLater {item : Item} {a b : Nat} (h : expired item a) (later : a ≤ b) : expired item b :=
  ⟨h.1,h.2.trans later⟩

theorem moveLate {q e q' token clock} (known : token ≤ q.lastToken) (m : Move q e q')
    (forward : ∀ t nowMs, e = .taken t nowMs → clock ≤ nowMs) (h : Late token clock q) :
    Late token clock q' := by
  cases m with
  | refused => exact h
  | admitted | replaced => exact storedOther known h
  | lapsed | closed => exact releasedOther h
  | @taken i nowMs streak quiet head due turn =>
    refine everyUpdate h (fun carries => ?_)
    have held : Held (q.slots i) := by simp [Held,head.1.1]
    have late := (h i ⟨held,carries.2⟩).2
    exact absurd (expiredLater late (forward _ _ rfl)) head.1.2.1
  | @putBack i retryAfterMs flying =>
    refine everyUpdate h (fun carries => ?_)
    have held : Held (q.slots i) := by simp [Held,flying]
    have waiting := (h i ⟨held,carries.2⟩).1
    rw [flying] at waiting
    contradiction

theorem stepCarriers (P : Queue → Prop) {q token} (shape : Shape q) (known : token ≤ q.lastToken) (op : Op)
    (keeps : ∀ {q e q'}, token ≤ q.lastToken → Move q e q' →
      (∀ t nowMs, e = .taken t nowMs → op = .claim nowMs) → P q → P q') (h : P q) : P (step q op).1 := by
  obtain ⟨es,moves,-,-,claims⟩ := stepMoves (fun i held => (shape.tokenRange i held).1) op
  clear shape
  generalize (step q op).1 = last at moves ⊢
  induction moves with
  | done => exact h
  | more first _ ih =>
    refine ih (known.trans (moveLast first)) ?_ ?_
    · exact keeps known first (fun t nowMs same => claims t nowMs (by simp [same])) h
    · exact fun t nowMs mem => claims t nowMs (List.mem_cons_of_mem _ mem)

theorem stepItem (P : Item → Prop) {q token} (shape : Shape q) (known : token ≤ q.lastToken) (op : Op)
    (h : Every (Carries token) (fun s => P s.item) q.slots) :
    Every (Carries token) (fun s => P s.item) (step q op).1.slots :=
  stepCarriers (fun q => Every (Carries token) (fun s => P s.item) q.slots) shape known op
    (fun known m _ => moveItem known m) h

theorem stepLate {q token clock} (shape : Shape q) (known : token ≤ q.lastToken) (op : Op)
    (forward : ∀ nowMs, op = .claim nowMs → clock ≤ nowMs) (h : Late token clock q) :
    Late token clock (step q op).1 :=
  stepCarriers (Late token clock) shape known op
    (fun known m claims => moveLate known m (fun t nowMs same => forward nowMs (claims t nowMs same))) h

theorem passedOver {q nowMs i streak token} (taken : Taken q nowMs i streak)
    (other : token ≠ (q.slots i).item.token)
    (older : Every (Carries token) (fun s => s.item.critical = (q.slots i).item.critical ∧
      s.order < (q.slots i).order) q.slots) : Late token nowMs (hand q i streak).1 := by
  have waiting : Late token nowMs q := by
    intro j carries
    obtain ⟨same,before⟩ := older j carries
    have queued : (q.slots j).state = .queued := by
      cases state : (q.slots j).state with
      | free => exact absurd state carries.1
      | queued => rfl
      | inflight => exact absurd state (taken.quiet j)
    refine ⟨queued,?_⟩
    by_contra alive
    have first := taken.head.2 j (List.mem_finRange j) ⟨queued,alive,same⟩
    omega
  exact everyUpdate waiting (fun carries => absurd carries.2.symm other)

def Grounded (token : Nat) (q : Queue) : Prop := Every Flying (fun s => s.item.token ≠ token) q.slots

theorem moveGrounded {q e q' token} (m : Move q e q') (other : ∀ nowMs, e ≠ .taken token nowMs)
    (h : Grounded token q) : Grounded token q' := by
  cases m with
  | refused => exact h
  | @admitted r topic i | @replaced r topic i => exact everyUpdate h (by simp [Flying])
  | lapsed | closed | putBack => exact everyUpdate h (by simp [Flying,Slot.zero])
  | @taken i nowMs streak quiet head due turn =>
    exact everyUpdate h (fun _ same => other nowMs (congrArg (Event.taken · nowMs) same))

theorem movesGrounded {q es q' token} (m : Moves q es q') (none : ∀ nowMs, .taken token nowMs ∉ es)
    (h : Grounded token q) : Grounded token q' := by
  induction m with
  | done => exact h
  | more first _ ih =>
    refine ih (fun nowMs mem => none nowMs (List.mem_cons_of_mem _ mem)) ?_
    exact moveGrounded first (fun nowMs same => none nowMs (by simp [same])) h

theorem stepGrounded {q op token} (shape : Shape q)
    (other : ∀ nowMs c, op = .claim nowMs → (claim q nowMs).2 = some c → c.item.token ≠ token)
    (h : Grounded token q) : Grounded token (step q op).1 := by
  obtain ⟨es,moves,-,-,claims⟩ := stepMoves (fun i held => (shape.tokenRange i held).1) op
  cases op with
  | claim nowMs =>
    simp only [step]
    rcases claimCases q nowMs with ⟨run,-⟩ | ⟨i,streak,run,-⟩
    · rw [run]; exact h
    · rw [run]
      exact everyUpdate h (fun _ => other nowMs _ rfl (by rw [run]; rfl))
  | submit | expire | finish =>
    have after := movesGrounded moves (fun nowMs mem => Op.noConfusion (claims token nowMs mem)) h
    exact after

def Ordered (q : Queue) : Prop :=
  Every Held (fun s => s.item.critical = true ∨ s.item.coalesceKey = 0 → s.order = s.item.token) q.slots

theorem moveOrdered {q e q'} (m : Move q e q') (h : Ordered q) : Ordered q' := by
  cases m with
  | refused => exact h
  | @admitted r topic i => exact everyUpdate h (fun _ _ => rfl)
  | @replaced r topic i fits =>
    refine everyUpdate h (fun _ own => ?_)
    simp [acceptedItem,fits.2.1,fits.2.2.2.1] at own
  | lapsed | closed => exact everyUpdate h (fun bad => absurd rfl bad)
  | @taken i nowMs streak quiet head =>
    exact everyUpdate h (fun _ => h i (by simp [Held,head.1.1]))
  | @putBack i retryAfterMs flying =>
    exact everyUpdate h (fun _ => h i (by simp [Held,flying]))

theorem initOrdered : Ordered init := fun i bad => absurd bad (initEmpty i)

/-! What a run's inputs and answers say of one token. -/

def AcceptedAt (ops : List Op) (n : Nat) (r : Request) (token : Nat) : Prop :=
  ops[n]? = some (.submit (some r)) ∧
    ∃ old, (outs step init ops)[n]? = some (.submitted ⟨.accepted,token,old⟩)

def ClaimedAt (ops : List Op) (n nowMs token : Nat) : Prop :=
  ops[n]? = some (.claim nowMs) ∧
    ∃ c, (outs step init ops)[n]? = some (.claimed (some c)) ∧ c.item.token = token

def SentAt (ops : List Op) (n token : Nat) : Prop :=
  ∃ c nowMs retryAfterMs, ops[n]? = some (.finish (some c) dispatchSent nowMs retryAfterMs) ∧
    (outs step init ops)[n]? = some (.finished true) ∧ c.item.token = token

def claimTime : Op → Option Nat
  | .claim nowMs => some nowMs
  | _ => none

def ClaimTimesMonotone (ops : List Op) : Prop := (ops.filterMap claimTime).Pairwise (· ≤ ·)
instance (ops) : Decidable (ClaimTimesMonotone ops) := by unfold ClaimTimesMonotone; infer_instance

theorem claimTimesAt {ops : List Op} (clock : ClaimTimesMonotone ops) {i j a b : Nat} (ordered : i < j)
    (first : ops[i]? = some (.claim a)) (second : ops[j]? = some (.claim b)) : a ≤ b := by
  obtain ⟨hi,atI⟩ := List.getElem?_eq_some_iff.mp first
  obtain ⟨hj,atJ⟩ := List.getElem?_eq_some_iff.mp second
  have pair := List.pairwise_iff_getElem.mp (List.pairwise_filterMap.mp clock) i j hi hj ordered
  exact pair a (by rw [atI]; rfl) b (by rw [atJ]; rfl)

section Runs
variable (ops : List Op)

abbrev at_ (n : Nat) : Queue := stateAt step init ops n

theorem shapeAt (n : Nat) : Shape (at_ ops n) := reachableShape (ops.take n)

theorem lastMonotone {m n : Nat} (ordered : m ≤ n) : (at_ ops m).lastToken ≤ (at_ ops n).lastToken :=
  keepsBetween step init ops (P := fun q => (at_ ops m).lastToken ≤ q.lastToken) (Nat.le_refl _) ordered
    (fun k i _ _ _ before => before.trans (stepLast (shapeAt ops k) i))

theorem orderedAt (n : Nat) : Ordered (at_ ops n) := by
  refine keepsBetween step init ops (m := 0) initOrdered (Nat.zero_le n) (fun k op _ _ _ before => ?_)
  obtain ⟨es,moves,-⟩ := stepMoves (fun i held => ((shapeAt ops k).tokenRange i held).1) op
  exact movesKeep (fun h m => moveOrdered m h) before moves

theorem acceptedState {n r token} (h : AcceptedAt ops n r token) : token = (at_ ops n).lastToken+1 ∧
    ∃ i replaces, at_ ops (n+1) = (store (at_ ops n) r (topicOf r) i replaces).1 := by
  obtain ⟨op,old,out⟩ := h
  have answer := outStep step init op out
  simp only [step,Out.submitted.injEq] at answer
  have next : at_ ops (n+1) = (submit (at_ ops n) (some r)).1 := stateNext step init op
  rcases submitCases (at_ ops n) (some r) with ⟨refused,-⟩ | ⟨req,i,same,-,⟨run,-⟩ | ⟨run,-⟩⟩
  · rw [← answer] at refused
    exact absurd rfl refused
  · cases Option.some.inj same
    rw [run,storeOut] at answer
    rw [run] at next
    exact ⟨(Submitted.mk.inj answer).2.1,i,false,next⟩
  · cases Option.some.inj same
    rw [run,storeOut] at answer
    rw [run] at next
    exact ⟨(Submitted.mk.inj answer).2.1,i,true,next⟩

theorem originAt {a n r token} (h : AcceptedAt ops a r token) (later : a < n) :
    Every (Carries token) (fun s => s.item = acceptedItem r (topicOf r) token) (at_ ops n).slots := by
  obtain ⟨fresh,i,replaces,next⟩ := acceptedState ops h
  have known : ∀ k, a+1 ≤ k → token ≤ (at_ ops k).lastToken := by
    intro k since
    have here : (at_ ops (a+1)).lastToken = token := by rw [next,fresh]; rfl
    exact here ▸ lastMonotone ops since
  refine keepsBetween step init ops (m := a+1)
    (P := fun q => Every (Carries token) (fun s => s.item = acceptedItem r (topicOf r) token) q.slots)
    ?_ later (fun k op since _ _ before =>
      stepItem (fun item => item = acceptedItem r (topicOf r) token) (shapeAt ops k) (known k since) op before)
  change Every _ _ (at_ ops (a+1)).slots
  rw [next,fresh]
  have slots : (store (at_ ops a) r (topicOf r) i replaces).1.slots =
      Function.update (at_ ops a).slots i ((store (at_ ops a) r (topicOf r) i replaces).1.slots i) := by
    simp [store]
  rw [slots]
  refine everyUpdate (fun j carries => ?_) (fun _ => by simp [store])
  have old := ((shapeAt ops a).tokenRange j carries.1).2
  have new := carries.2
  omega

theorem claimedState {n nowMs token} (h : ClaimedAt ops n nowMs token) : ∃ i streak,
    Taken (at_ ops n) nowMs i streak ∧ ((at_ ops n).slots i).item.token = token ∧
      at_ ops (n+1) = (hand (at_ ops n) i streak).1 := by
  obtain ⟨op,c,out,same⟩ := h
  have answer := outStep step init op out
  have next : at_ ops (n+1) = (claim (at_ ops n) nowMs).1 := stateNext step init op
  simp only [step,Out.claimed.injEq] at answer
  rcases claimCases (at_ ops n) nowMs with ⟨run,-⟩ | ⟨i,streak,run,taken⟩
  · rw [run] at answer
    contradiction
  · rw [run] at answer next
    cases Option.some.inj answer
    exact ⟨i,streak,taken,same,next⟩

theorem sentState {n token} (h : SentAt ops n token) :
    ∃ i, ((at_ ops n).slots i).state = .inflight ∧ ((at_ ops n).slots i).item.token = token := by
  obtain ⟨c,nowMs,retryAfterMs,op,out,same⟩ := h
  have answer := outStep step init op out
  simp only [step,Out.finished.injEq] at answer
  rcases finishCases (at_ ops n) (some c) dispatchSent nowMs retryAfterMs with
    run | ⟨claim,i,found,-,flying,carries,-⟩
  · rw [run] at answer
    contradiction
  · cases Option.some.inj found
    exact ⟨i,flying,carries.trans same⟩

theorem claimedBefore {n i token} (flying : ((at_ ops n).slots i).state = .inflight)
    (same : ((at_ ops n).slots i).item.token = token) : ∃ k nowMs, k < n ∧ ClaimedAt ops k nowMs token := by
  by_contra none
  have grounded : Grounded token (at_ ops n) := by
    refine keepsBetween step init ops (m := 0) ?_ (Nat.zero_le n) (fun k op _ before here h => ?_)
    · exact fun j bad => by simp [stateAt,init,Slot.zero,Flying] at bad
    · refine stepGrounded (shapeAt ops k) (fun nowMs c claims run other => ?_) h
      subst claims
      refine none ⟨k,nowMs,before,here,c,?_,other⟩
      rw [outAt,here]
      simp only [Option.map_some,step]
      exact congrArg (fun c => some (Out.claimed c)) run
  exact grounded i flying same

theorem lateNeverSent (clock : ClaimTimesMonotone ops) {n nowMs token j} (op : ops[n]? = some (.claim nowMs))
    (known : token ≤ (at_ ops (n+1)).lastToken) (late : Late token nowMs (at_ ops (n+1)))
    (sent : SentAt ops j token) : j ≤ n := by
  by_contra after
  have still : Late token nowMs (at_ ops j) := by
    refine keepsBetween step init ops (m := n+1) late (by omega) (fun k op' since _ here h => ?_)
    refine stepLate (shapeAt ops k) (known.trans (lastMonotone ops since)) op' (fun now same => ?_) h
    subst same
    exact claimTimesAt clock (by omega) op here
  obtain ⟨i,flying,same⟩ := sentState ops sent
  have waiting := (still i ⟨by simp [Held,flying],same⟩).1
  rw [flying] at waiting
  contradiction

theorem acceptedOrder {a b r s x y} (first : AcceptedAt ops a r x) (second : AcceptedAt ops b s y)
    (before : a < b) : x < y := by
  obtain ⟨fresh,i,replaces,next⟩ := acceptedState ops first
  obtain ⟨later,-⟩ := acceptedState ops second
  have here : (at_ ops (a+1)).lastToken = x := by rw [next,fresh]; rfl
  have grown := lastMonotone ops (show a+1 ≤ b by omega)
  omega

theorem acceptedBefore {a n r token i} (h : AcceptedAt ops a r token) (held : Held ((at_ ops n).slots i))
    (same : ((at_ ops n).slots i).item.token = token) : a < n := by
  obtain ⟨fresh,-⟩ := acceptedState ops h
  have known := ((shapeAt ops n).tokenRange i held).2
  by_contra before
  have grown := lastMonotone ops (Nat.not_lt.mp before)
  omega

def SameFifo (r s : Request) : Prop :=
  r.critical = s.critical ∧ (r.critical = false → r.coalesceKey = 0 ∧ s.coalesceKey = 0)

theorem fifoOrder (clock : ClaimTimesMonotone ops) {a b r s x y j k} (first : AcceptedAt ops a r x)
    (second : AcceptedAt ops b s y) (before : a < b) (same : SameFifo r s) (sentX : SentAt ops j x)
    (sentY : SentAt ops k y) : j < k := by
  have less := acceptedOrder ops first second before
  obtain ⟨i,flying,token⟩ := sentState ops sentY
  obtain ⟨n,nowMs,early,claimed⟩ := claimedBefore ops flying token
  obtain ⟨i,streak,taken,token,next⟩ := claimedState ops claimed
  have held : Held ((at_ ops n).slots i) := by simp [Held,taken.head.1.1]
  have accepted := acceptedBefore ops second held token
  have itemX := originAt ops first (before.trans accepted)
  have itemY := originAt ops second accepted i ⟨held,token⟩
  have ordered := orderedAt ops n
  have own : ∀ t : Request, t = r ∨ t = s → t.critical = true ∨ t.coalesceKey = 0 := by
    rintro t (rfl | rfl)
    · cases c : t.critical with
      | true => exact Or.inl rfl
      | false => exact Or.inr (same.2 c).1
    · cases c : t.critical with
      | true => exact Or.inl rfl
      | false => exact Or.inr (same.2 (same.1.trans c)).2
  have late : Late x nowMs (at_ ops (n+1)) := by
    rw [next]
    refine passedOver taken (by rw [token]; omega) (fun m carries => ?_)
    have itemM := itemX m carries
    have orderM := ordered m carries.1 (by rw [itemM]; exact own r (Or.inl rfl))
    have orderI := ordered i held (by rw [itemY]; exact own s (Or.inr rfl))
    refine ⟨by rw [itemM,itemY]; exact same.1,?_⟩
    rw [orderM,orderI,carries.2,token]
    exact less
  have known : x ≤ (at_ ops (n+1)).lastToken := by
    have bound := ((shapeAt ops n).tokenRange i held).2
    have grown : (at_ ops n).lastToken ≤ (at_ ops (n+1)).lastToken := lastMonotone ops (Nat.le_succ n)
    omega
  have bound := lateNeverSent ops clock claimed.1 known late sentX
  omega

theorem delayedHeadBlocks {n nowMs critical i} (head : Head (at_ ops n) nowMs critical (some i))
    (delayed : nowMs < ((at_ ops n).slots i).retryAfterMs) {c} (run : (claim (at_ ops n) nowMs).2 = some c) :
    c.item.critical ≠ critical := by
  rcases claimCases (at_ ops n) nowMs with ⟨idle,-⟩ | ⟨j,streak,won,taken⟩
  · rw [idle] at run
    contradiction
  · rw [won] at run
    cases Option.some.inj run
    intro same
    have rival : Head (at_ ops n) nowMs critical (some j) := same ▸ taken.head
    cases Option.some.inj (headUnique (shapeAt ops n) head rival)
    have due := taken.due
    omega

end Runs

theorem fifoWithRetries (ops : List Op) :
    (ClaimTimesMonotone ops → ∀ a b r s x y j k, AcceptedAt ops a r x → AcceptedAt ops b s y → a < b →
      SameFifo r s → SentAt ops j x → SentAt ops k y → j < k) ∧
    (∀ n i, Held ((at_ ops n).slots i) →
      ((at_ ops n).slots i).item.critical = true ∨ ((at_ ops n).slots i).item.coalesceKey = 0 →
      ((at_ ops n).slots i).order = ((at_ ops n).slots i).item.token) ∧
    ∀ n nowMs critical i c, Head (at_ ops n) nowMs critical (some i) →
      nowMs < ((at_ ops n).slots i).retryAfterMs → (claim (at_ ops n) nowMs).2 = some c →
      c.item.critical ≠ critical :=
  ⟨fun clock _ _ _ _ _ _ _ _ => fifoOrder ops clock,fun n => orderedAt ops n,
    fun _ _ _ _ _ head delayed => delayedHeadBlocks ops head delayed⟩

def urgent (payload : UInt8) : Request := ⟨some [99],some [payload],1,1,false,true,0,0⟩
def receipt (slot token : Nat) : Option Claim := some ⟨slot,{ Item.zero with token := token }⟩
def retryRun : List Op :=
  [.submit (some (urgent 1)),.submit (some (urgent 2)),.claim 0,.finish (receipt 0 1) dispatchRetry 1 5,
    .claim 3,.claim 5,.finish (receipt 0 1) dispatchSent 6 0,.claim 7,.finish (receipt 1 2) dispatchSent 8 0]

theorem retryAnswers : outs step init retryRun =
    [.submitted ⟨.accepted,1,0⟩,.submitted ⟨.accepted,2,0⟩,
      .claimed (some ⟨0,acceptedItem (urgent 1) [99] 1⟩),.finished true,.claimed none,
      .claimed (some ⟨0,acceptedItem (urgent 1) [99] 1⟩),.finished true,
      .claimed (some ⟨1,acceptedItem (urgent 2) [99] 2⟩),.finished true] := by decide +kernel

theorem fifoRun : ClaimTimesMonotone retryRun ∧ SentAt retryRun 6 1 ∧ SentAt retryRun 8 2 ∧ 6 < 8 := by
  have out : ∀ n : Nat, (outs step init retryRun)[n]? = _ := fun n =>
    congrArg (fun l : List Out => l[n]?) retryAnswers
  have first : SentAt retryRun 6 1 := ⟨_,_,_,rfl,out 6,rfl⟩
  have second : SentAt retryRun 8 2 := ⟨_,_,_,rfl,out 8,rfl⟩
  refine ⟨by decide,first,second,?_⟩
  exact (fifoWithRetries retryRun).1 (by decide) 0 1 (urgent 1) (urgent 2) 1 2 6 8 ⟨rfl,_,out 0⟩
    ⟨rfl,_,out 1⟩ (by decide) (by simp [SameFifo,urgent]) first second

end Web3PiUps.MqttQueueOrder
