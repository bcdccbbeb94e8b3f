import Web3PiUps.MqttQueueConservation

/-! Bounded priority inversion: while a non-critical head is eligible, critical
claims raise the streak, and the burst limit ends them. -/
namespace Web3PiUps.MqttQueueFairness
open MqttDispatchQueue MqttQueueScans MqttQueueMoves MqttQueueConservation SlotTable StepMachine

theorem headUnique {q nowMs c i h} (shape : Shape q) (first : Head q nowMs c (some i))
    (second : Head q nowMs c h) : h = some i := by
  cases h with
  | none => exact absurd first.1 (second i (List.mem_finRange i))
  | some j =>
    have below := first.2 j (List.mem_finRange j) second.1
    have above := second.2 i (List.mem_finRange i) first.1
    have heldI : Held (q.slots i) := by simp [Held,first.1.1]
    have heldJ : Held (q.slots j) := by simp [Held,second.1.1]
    rw [shape.orders i j heldI heldJ (Nat.le_antisymm below above)]

theorem delayedNotEligible {q nowMs c h} (shape : Shape q) (head : Head q nowMs c h)
    (delayed : ∀ i, h = some i → nowMs < (q.slots i).retryAfterMs) : ¬ Eligible q nowMs c := by
  rintro ⟨i,first,due⟩
  have late := delayed i (headUnique shape first head)
  omega

theorem claimFails {q nowMs} (shape : Shape q) (none : (claim q nowMs).2 = none) :
    (∃ i, (q.slots i).state = .inflight) ∨ ∀ c, ¬ Eligible q nowMs c := by
  rcases claimCases q nowMs with ⟨-,busy | delayed⟩ | ⟨i,streak,run,-⟩
  · exact Or.inl busy
  · refine Or.inr (fun c => ?_)
    obtain ⟨h,head,late⟩ := delayed c
    exact delayedNotEligible shape head late
  · rw [run] at none
    contradiction

theorem criticalClaim {q nowMs c} (shape : Shape q) (run : (claim q nowMs).2 = some c)
    (rival : Eligible q nowMs false) (urgent : c.item.critical = true) :
    q.criticalStreak < 8 ∧ (claim q nowMs).1.criticalStreak = q.criticalStreak+1 := by
  rcases claimCases q nowMs with ⟨idle,-⟩ | ⟨i,streak,won,taken⟩
  · rw [idle] at run
    contradiction
  · rw [won] at run ⊢
    cases Option.some.inj run
    have turn := taken.turn
    rw [Turn,if_pos urgent] at turn
    obtain ⟨next,short | ⟨h,head,late⟩⟩ := turn
    · rw [if_pos short] at next
      exact ⟨short,next⟩
    · exact absurd rival (delayedNotEligible shape head late)

theorem movesStreak {q es q'} (m : Moves q es q') (none : ∀ token nowMs, .taken token nowMs ∉ es) :
    q'.criticalStreak = q.criticalStreak := by
  induction m with
  | done => rfl
  | @more q e q' rest last first _ ih =>
    rw [ih (fun token nowMs mem => none token nowMs (List.mem_cons_of_mem _ mem))]
    cases first with
    | taken => exact absurd (List.mem_cons_self) (none _ _)
    | refused | admitted | replaced | lapsed | putBack | closed => rfl

theorem stepShape {q} (shape : Shape q) (op : Op) : Shape (step q op).1 := by
  obtain ⟨es,moves,-⟩ := stepMoves (fun i held => (shape.tokenRange i held).1) op
  exact movesKeep moveShape shape moves

def won : Out → Option Item
  | .claimed (some c) => some c.item
  | _ => none

theorem idleStreak {q op} (shape : Shape q) (idle : won (step q op).2 = none) :
    (step q op).1.criticalStreak = q.criticalStreak := by
  obtain ⟨es,moves,-,-,claims⟩ := stepMoves (fun i held => (shape.tokenRange i held).1) op
  cases op with
  | claim nowMs =>
    rcases claimCases q nowMs with ⟨run,-⟩ | ⟨i,streak,run,-⟩
    · simp only [step,run]
    · simp [step,run,won,hand] at idle
  | submit | expire | finish =>
    have same := movesStreak moves (fun token nowMs mem => Op.noConfusion (claims token nowMs mem))
    exact same

def EligibleThroughout (q : Queue) (ops : List Op) : Prop :=
  ∀ k nowMs c, ops[k]? = some (.claim nowMs) → (outs step q ops)[k]? = some (.claimed (some c)) →
    Eligible (stateAt step q ops k) nowMs false

theorem burstFrom {q ops} (shape : Shape q) (eligible : EligibleThroughout q ops)
    (critical : ∀ item ∈ (outs step q ops).filterMap won, item.critical = true) :
    ((outs step q ops).filterMap won).length + q.criticalStreak ≤ max q.criticalStreak 8 := by
  induction ops generalizing q with
  | nil => simp
  | cons op rest ih =>
    have later : EligibleThroughout (step q op).1 rest :=
      fun k nowMs c here out => eligible (k+1) nowMs c (by simpa using here) (by simpa using out)
    rw [outsCons] at critical ⊢
    cases out : won (step q op).2 with
    | none =>
      rw [List.filterMap_cons_none out] at critical ⊢
      have tail := ih (stepShape shape op) later critical
      rwa [idleStreak shape out] at tail
    | some item =>
      rw [List.filterMap_cons_some out] at critical ⊢
      have tail := ih (stepShape shape op) later (fun i hi => critical i (List.mem_cons_of_mem _ hi))
      cases op with
      | claim nowMs =>
        obtain ⟨c,run,same⟩ : ∃ c, (claim q nowMs).2 = some c ∧ c.item = item := by
          cases run : (claim q nowMs).2 with
          | none => simp [step,run,won] at out
          | some c => exact ⟨c,rfl,by simpa [step,run,won] using out⟩
        have rival := eligible 0 nowMs c (by simp) (by simp [step,run])
        obtain ⟨short,next⟩ := criticalClaim shape run rival (same ▸ critical item List.mem_cons_self)
        change _ + (claim q nowMs).1.criticalStreak ≤ max (claim q nowMs).1.criticalStreak 8 at tail
        rw [next] at tail
        rw [List.length_cons]
        omega
      | submit | expire | finish => simp [step,won] at out

theorem reachableShape (ops : List Op) : Shape (final step init ops) := (reachableBooks ops).shape

theorem boundedInversion (before ops : List Op) :
    let q := final step init before
    (EligibleThroughout q ops → (∀ item ∈ (outs step q ops).filterMap won, item.critical = true) →
      ((outs step q ops).filterMap won).length ≤ 8) ∧
    ∀ nowMs, (claim q nowMs).2 = none →
      (∃ i, (q.slots i).state = .inflight) ∨ (¬ Eligible q nowMs true ∧ ¬ Eligible q nowMs false) := by
  intro q
  have shape : Shape q := reachableShape before
  refine ⟨fun eligible critical => ?_,fun nowMs none => ?_⟩
  · have bound := burstFrom shape eligible critical
    omega
  · exact (claimFails shape none).imp_right (fun all => ⟨all true,all false⟩)

def crowd : List Op :=
  .submit (some ⟨some [116],some [0],1,0,false,false,0,0⟩) ::
    (List.range 9).map (fun n => .submit (some ⟨some [99],some [n.toUInt8],1,1,false,true,0,0⟩))
def burst : List Op :=
  (List.range 8).flatMap (fun n =>
    [.claim 0,.finish (some ⟨n+1,{ Item.zero with token := n+2 }⟩) dispatchSent 0 0])

def Rivalled (q : Queue) : Option Op → Prop
  | some (.claim nowMs) => Eligible q nowMs false
  | _ => True
instance (q op) : Decidable (Rivalled q op) := by unfold Rivalled; split <;> infer_instance

theorem burstRivalled : ∀ k : Fin 16,
    Rivalled (stateAt step (final step init crowd) burst k) burst[k.val]? := by decide +kernel

theorem burstWinners : ((outs step (final step init crowd) burst).filterMap won).map Item.critical =
    List.replicate 8 true := by decide +kernel

theorem burstRun : ((outs step (final step init crowd) burst).filterMap won).length ≤ 8 := by
  refine (boundedInversion crowd burst).1 (fun k nowMs c here _ => ?_) (fun item mem => ?_)
  · have inside : k < 16 := (List.getElem?_eq_some_iff.mp here).1
    have rivalled := burstRivalled ⟨k,inside⟩
    rw [here] at rivalled
    exact rivalled
  · have mapped := List.mem_map_of_mem (f := Item.critical) mem
    rw [burstWinners] at mapped
    exact List.eq_of_mem_replicate mapped

end Web3PiUps.MqttQueueFairness
