import Web3PiUps.MqttQueueOrder

/-! Freshness of snapshots. A submit replaces the last matching slot, whatever
the orders say: after a retry two items of one group wait, and the newer one can
be the one passed over. Where every submit replaces the newest waiting item of
its group, and no retry comes back on the wrong side of one, a sent snapshot is
never older than one claimed before it. -/
namespace Web3PiUps.MqttQueueFreshness
open MqttDispatchQueue MqttQueueScans MqttQueueMoves MqttQueueConservation MqttQueueOrder
open SlotTable StepMachine

def SameSnapshot (r s : Request) : Prop :=
  r.critical = false ∧ s.critical = false ∧ r.coalesceKey ≠ 0 ∧ r.coalesceKey = s.coalesceKey ∧
    topicOf r = topicOf s ∧ r.qos = s.qos ∧ r.retain = s.retain

def ClaimSentAt (ops : List Op) (i j token : Nat) : Prop :=
  (∃ nowMs, ClaimedAt ops i nowMs token) ∧ SentAt ops j token ∧ i < j ∧
    ∀ k, i < k → k < j → (outs step init ops)[k]? ≠ some (.finished true)

def SnapshotsFresh (ops : List Op) : Prop :=
  ∀ a b r s x y i j k l, AcceptedAt ops a r x → AcceptedAt ops b s y → SameSnapshot r s → x < y →
    ClaimSentAt ops i j x → ClaimSentAt ops k l y → i < k

def SameGroup (a b : Item) : Prop :=
  a.critical = false ∧ b.critical = false ∧ a.coalesceKey ≠ 0 ∧ a.coalesceKey = b.coalesceKey ∧
    a.topic = b.topic ∧ a.qos = b.qos ∧ a.retain = b.retain
instance (a b) : Decidable (SameGroup a b) := by unfold SameGroup; infer_instance

theorem sameGroupSymm {a b : Item} (h : SameGroup a b) : SameGroup b a := by
  obtain ⟨plainA,plainB,key,sameKey,topic,qos,retain⟩ := h
  exact ⟨plainB,plainA,sameKey ▸ key,sameKey.symm,topic.symm,qos.symm,retain.symm⟩

def Queued (s : Slot) : Prop := s.state = .queued
instance (s) : Decidable (Queued s) := by unfold Queued; infer_instance

def InPlace (s t : Slot) : Prop :=
  SameGroup s.item t.item →
    (s.item.token < t.item.token → s.order < t.order) ∧ (t.item.token < s.item.token → t.order < s.order)
instance (s t) : Decidable (InPlace s t) := by unfold InPlace; infer_instance

theorem inPlaceSymm (s t : Slot) (h : InPlace s t) : InPlace t s :=
  fun group => (h (sameGroupSymm group)).symm

def InOrder (q : Queue) : Prop := Pairs Queued InPlace q.slots

theorem dropInOrder {q : Queue} {i s} (gone : ¬ Queued s) (h : InOrder q) :
    Pairs Queued InPlace (Function.update q.slots i s) :=
  pairsUpdate inPlaceSymm h (fun bad => absurd bad gone)

theorem zeroNotQueued : ¬ Queued .zero := by decide

def Event.drops : Event → Prop
  | .refused | .lapsed _ | .taken _ _ | .closed _ _ => True
  | .admitted _ | .replaced _ _ | .putBack _ => False

theorem moveInOrder {q e q'} (m : Move q e q') (drops : Event.drops e) (h : InOrder q) : InOrder q' := by
  cases m with
  | refused => exact h
  | lapsed | closed => exact dropInOrder zeroNotQueued h
  | taken => exact dropInOrder (by simp [Queued]) h
  | admitted | replaced | putBack => exact drops.elim

theorem movesInOrder {q es q'} (m : Moves q es q') (drops : ∀ e ∈ es, Event.drops e) (h : InOrder q) :
    InOrder q' := by
  induction m with
  | done => exact h
  | more first _ ih =>
    refine ih (fun e mem => drops e (List.mem_cons_of_mem _ mem)) ?_
    exact moveInOrder first (drops _ List.mem_cons_self) h

def ReplacesNewest (q : Queue) (r : Request) : Prop :=
  Acceptable q r → ∀ i, Replaceable r (topicOf r) (q.slots i) →
    (∀ j, Replaceable r (topicOf r) (q.slots j) → j ≤ i) →
    ∀ j, Replaceable r (topicOf r) (q.slots j) → (q.slots j).order ≤ (q.slots i).order
instance (q r) : Decidable (ReplacesNewest q r) := by unfold ReplacesNewest; infer_instance

def ReturnsInPlace (q : Queue) (c : Claim) (nowMs : Nat) : Prop :=
  ∀ i : Fin capacity, c.slot = i.val → Flying (q.slots i) → (q.slots i).item.token = c.item.token →
    ¬ expired (q.slots i).item nowMs → ∀ j, Queued (q.slots j) → InPlace (q.slots i) (q.slots j)
instance (q c nowMs) : Decidable (ReturnsInPlace q c nowMs) := by unfold ReturnsInPlace; infer_instance

def KeepsNewest (q : Queue) : Op → Prop
  | .submit (some r) => ReplacesNewest q r
  | .finish (some c) result nowMs _ => result = dispatchRetry → ReturnsInPlace q c nowMs
  | .submit none | .expire _ | .claim _ | .finish none _ _ _ => True
instance (q op) : Decidable (KeepsNewest q op) := by unfold KeepsNewest; split <;> infer_instance

theorem admitInOrder {q : Queue} {r i} (shape : Shape q) (h : InOrder q) :
    InOrder (store q r (topicOf r) i false).1 := by
  refine pairsUpdate inPlaceSymm h (fun _ j _ queued _ => ?_)
  have held : Held (q.slots j) := by simp [Held,show (q.slots j).state = .queued from queued]
  have token := (shape.tokenRange j held).2
  have order := shape.orderRange j held
  simp only [Bool.false_eq_true,if_false,acceptedItem]
  exact ⟨fun _ => by omega,fun _ => by omega⟩

theorem sameGroupFits {r : Request} {token : Nat} {s : Slot} (queued : Queued s)
    (group : SameGroup (acceptedItem r (topicOf r) token) s.item) : Replaceable r (topicOf r) s := by
  obtain ⟨plainR,plainS,key,sameKey,topic,qos,retain⟩ := group
  exact ⟨queued,plainR,plainS,key,sameKey.symm,qos.symm,retain.symm,topic.symm⟩

theorem replaceInOrder {q : Queue} {r i} (shape : Shape q) (fits : Replaceable r (topicOf r) (q.slots i))
    (newest : ∀ j, Replaceable r (topicOf r) (q.slots j) → (q.slots j).order ≤ (q.slots i).order)
    (h : InOrder q) : InOrder (store q r (topicOf r) i true).1 := by
  refine pairsUpdate inPlaceSymm h (fun _ j other queued group => ?_)
  have held : ∀ k, Queued (q.slots k) → Held (q.slots k) := by
    intro k waiting
    simp [Held,show (q.slots k).state = .queued from waiting]
  have token := (shape.tokenRange j (held j queued)).2
  have behind := newest j (sameGroupFits queued group)
  have apart : (q.slots j).order ≠ (q.slots i).order :=
    fun same => other (shape.orders j i (held j queued) (held i fits.1) same)
  simp only [if_true,acceptedItem]
  exact ⟨fun _ => by omega,fun _ => by omega⟩

theorem stepInOrder {q op} (shape : Shape q) (keeps : KeepsNewest q op) (h : InOrder q) :
    InOrder (step q op).1 := by
  cases op with
  | submit r =>
    simp only [step]
    rcases submitCases q r with ⟨-,-,-,same | move⟩ | ⟨req,i,rfl,fine,⟨run,-⟩ | ⟨run,fits,last⟩⟩
    · rw [same]; exact h
    · exact moveInOrder move trivial h
    · rw [run]; exact admitInOrder shape h
    · rw [run]; exact replaceInOrder shape fits (keeps fine i fits last) h
  | expire nowMs =>
    simp only [step]
    refine movesInOrder (expireMoves q nowMs) (fun e mem => ?_) h
    obtain ⟨token,-,rfl⟩ := List.mem_map.mp mem
    trivial
  | claim nowMs =>
    simp only [step]
    rcases claimCases q nowMs with ⟨run,-⟩ | ⟨i,streak,run,-⟩
    · rw [run]; exact h
    · rw [run]; exact dropInOrder (by simp [Queued]) h
  | finish c result nowMs retryAfterMs =>
    simp only [step]
    rcases finishCases q c result nowMs retryAfterMs with run | ⟨claim,i,rfl,slot,flying,token,-,back | closed⟩
    · rw [run]; exact h
    · obtain ⟨fate,retry,after⟩ := back
      have alive : ¬ expired (q.slots i).item nowMs := by
        intro late
        simp [finishFate,slotAt,slot,retry,dispatchRetry,dispatchSent,dispatchDrop,late] at fate
      rw [after]
      exact pairsUpdate inPlaceSymm h
        (fun _ j _ queued => keeps retry i slot flying token alive j queued)
    · obtain ⟨fate,-,-,-,after⟩ := closed
      rw [after]
      exact dropInOrder zeroNotQueued h

section Runs
variable (ops : List Op)

theorem inOrderAt (newest : ∀ n op, ops[n]? = some op → KeepsNewest (at_ ops n) op) (n : Nat) :
    InOrder (at_ ops n) :=
  keepsBetween step init ops (m := 0) (fun i _ _ bad => absurd bad (by simp [stateAt,init,zeroNotQueued]))
    (Nat.zero_le n) (fun k op _ _ here before => stepInOrder (shapeAt ops k) (newest k op here) before)

theorem acceptedInTurn {a b r s x y} (first : AcceptedAt ops a r x) (second : AcceptedAt ops b s y)
    (less : x < y) : a < b := by
  rcases Nat.lt_trichotomy a b with before | same | after
  · exact before
  · subst same
    have tokenX := (acceptedState ops first).1
    have tokenY := (acceptedState ops second).1
    omega
  · have greater := acceptedOrder ops second first after
    omega

theorem newerPasses (inOrder : ∀ n, InOrder (at_ ops n)) {a b r s x y k nowMs} (first : AcceptedAt ops a r x)
    (second : AcceptedAt ops b s y) (same : SameSnapshot r s) (less : x < y)
    (claimed : ClaimedAt ops k nowMs y) : x ≤ (at_ ops (k+1)).lastToken ∧ Late x nowMs (at_ ops (k+1)) := by
  obtain ⟨i,streak,taken,token,next⟩ := claimedState ops claimed
  have held : Held ((at_ ops k).slots i) := by simp [Held,taken.head.1.1]
  have accepted := acceptedBefore ops second held token
  have itemY := originAt ops second accepted i ⟨held,token⟩
  have itemX := originAt ops first ((acceptedInTurn ops first second less).trans accepted)
  obtain ⟨plainR,plainS,key,sameKey,topic,qos,retain⟩ := same
  refine ⟨?_,?_⟩
  · have known := ((shapeAt ops k).tokenRange i held).2
    have grown : (at_ ops k).lastToken ≤ (at_ ops (k+1)).lastToken := lastMonotone ops (Nat.le_succ k)
    omega
  · rw [next]
    refine passedOver taken (by rw [token]; omega) (fun m carries => ?_)
    have itemM := itemX m carries
    have queued : Queued ((at_ ops k).slots m) := by
      cases state : ((at_ ops k).slots m).state with
      | free => exact absurd state carries.1
      | queued => exact state
      | inflight => exact absurd state (taken.quiet m)
    have apart : m ≠ i := fun bad => by
      subst bad
      have tokenX := carries.2
      omega
    have group : SameGroup ((at_ ops k).slots m).item ((at_ ops k).slots i).item := by
      rw [itemM,itemY]
      exact ⟨plainR,plainS,key,sameKey,topic,qos,retain⟩
    refine ⟨by rw [itemM,itemY]; exact plainR.trans plainS.symm,?_⟩
    exact (inOrder k m i apart queued taken.head.1.1 group).1 (by rw [carries.2,token]; exact less)

end Runs

theorem freshWhenNewestReplaced (ops : List Op) (clock : ClaimTimesMonotone ops)
    (newest : ∀ n op, ops[n]? = some op → KeepsNewest (at_ ops n) op) : SnapshotsFresh ops := by
  intro a b r s x y i j k l first second same less sentX sentY
  obtain ⟨⟨nowX,claimX⟩,finishX,beforeJ,-⟩ := sentX
  obtain ⟨⟨nowY,claimY⟩,-,-,-⟩ := sentY
  by_contra late
  have inOrder := inOrderAt ops newest
  obtain ⟨known,passed⟩ := newerPasses ops inOrder first second same less claimY
  have bound := lateNeverSent ops clock claimY.1 known passed finishX
  omega

def snapshot (payload : UInt8) : Request := ⟨some [116],some [payload],1,0,false,false,11,0⟩

def freshRun : List Op :=
  [.submit (some (snapshot 1)),.submit (some (snapshot 2)),.claim 0,.finish (receipt 0 2) dispatchRetry 1 5,
    .claim 5,.finish (receipt 0 2) dispatchSent 6 0,.submit (some (snapshot 3)),.claim 7,
    .finish (receipt 0 3) dispatchSent 8 0]

theorem freshRunKeeps : ∀ n : Fin 9, KeepsNewest (at_ freshRun n) freshRun[n] := by decide +kernel

theorem freshRunFresh : ClaimTimesMonotone freshRun ∧ SnapshotsFresh freshRun := by
  refine ⟨by decide,freshWhenNewestReplaced freshRun (by decide) (fun n op here => ?_)⟩
  obtain ⟨inside,rfl⟩ := List.getElem?_eq_some_iff.mp here
  exact freshRunKeeps ⟨n,inside⟩

/-- Snapshot 1 waits again after a retry, snapshot 2 in a lower slot behind it.
Snapshot 3 replaces snapshot 1, the last match, and is sent before snapshot 2. -/
def staleRun : List Op :=
  [.submit (some ⟨some [99],some [9],1,1,false,true,0,0⟩),.submit (some (snapshot 1)),.claim 0,
    .finish (receipt 0 1) dispatchSent 0 0,.claim 0,.submit (some (snapshot 2)),
    .finish (receipt 1 2) dispatchRetry 0 0,.submit (some (snapshot 3)),.claim 0,
    .finish (receipt 1 4) dispatchSent 0 0,.claim 0,.finish (receipt 0 3) dispatchSent 0 0]

theorem staleAnswers : (outs step init staleRun).drop 5 =
    [.submitted ⟨.accepted,3,0⟩,.finished true,.submitted ⟨.accepted,4,2⟩,
      .claimed (some ⟨1,acceptedItem (snapshot 3) [116] 4⟩),.finished true,
      .claimed (some ⟨0,acceptedItem (snapshot 2) [116] 3⟩),.finished true] := by decide +kernel

theorem staleAfterNewer : ClaimTimesMonotone staleRun ∧ ¬ SnapshotsFresh staleRun := by
  refine ⟨by decide,fun fresh => ?_⟩
  have out : ∀ n, (outs step init staleRun)[5+n]? = _ := fun n => List.getElem?_drop.symm.trans
    (congrArg (fun l : List Out => l[n]?) staleAnswers)
  have older : ClaimSentAt staleRun 10 11 3 :=
    ⟨⟨0,rfl,_,out 5,rfl⟩,⟨_,_,_,rfl,out 6,rfl⟩,by decide,fun k low high => by omega⟩
  have newer : ClaimSentAt staleRun 8 9 4 :=
    ⟨⟨0,rfl,_,out 3,rfl⟩,⟨_,_,_,rfl,out 4,rfl⟩,by decide,fun k low high => by omega⟩
  have backwards := fresh 5 7 (snapshot 2) (snapshot 3) 3 4 10 11 8 9 ⟨rfl,_,out 0⟩ ⟨rfl,_,out 2⟩
    (by simp [SameSnapshot,snapshot,topicOf]) (by decide) older newer
  omega

end Web3PiUps.MqttQueueFreshness
