import Web3PiUps.MqttDispatchQueue
import Web3PiUps.Lib.SlotTable

/-! What the two passes over the slots find: the one of `submit` a free slot, the
last replaceable slot and the number of slots that are not critical, the one of
`claim` the least order of each class. -/
namespace Web3PiUps.MqttQueueScans
open MqttDispatchQueue SlotTable

def Held (s : Slot) : Prop := s.state ≠ .free
instance (s) : Decidable (Held s) := by unfold Held; infer_instance
def Plain (s : Slot) : Prop := Held s ∧ s.item.critical = false
instance (s) : Decidable (Plain s) := by unfold Plain; infer_instance

def Ready (q : Queue) (nowMs : Nat) (critical : Bool) (i : Fin capacity) : Prop :=
  (q.slots i).state = .queued ∧ ¬ expired (q.slots i).item nowMs ∧ (q.slots i).item.critical = critical
instance (q nowMs critical i) : Decidable (Ready q nowMs critical i) := by unfold Ready; infer_instance

def IsHead (q : Queue) (nowMs : Nat) (critical : Bool) (l : List (Fin capacity)) :
    Option (Fin capacity) → Prop
  | none => ∀ i ∈ l, ¬ Ready q nowMs critical i
  | some h => Ready q nowMs critical h ∧
      ∀ i ∈ l, Ready q nowMs critical i → (q.slots h).order ≤ (q.slots i).order

instance (q nowMs critical l h) : Decidable (IsHead q nowMs critical l h) := by
  cases h <;> (unfold IsHead; infer_instance)

/-! The pass of `submit`. -/

structure ScanSpec (q : Queue) (r : Request) (topic : Bytes) (l : List (Fin capacity)) (s : Scan) : Prop where
  free : ∀ i, s.freeSlot = some i → (q.slots i).state = .free
  full : s.freeSlot = none → ∀ i ∈ l, Held (q.slots i)
  replace : ∀ i, s.replacement = some i →
    Replaceable r topic (q.slots i) ∧ ∀ j ∈ l, Replaceable r topic (q.slots j) → j ≤ i
  fresh : s.replacement = none → ∀ j ∈ l, ¬ Replaceable r topic (q.slots j)
  noncritical : s.noncritical = l.countP (fun i => decide (Plain (q.slots i)))

theorem concatAll {P : Fin capacity → Prop} {l : List (Fin capacity)} {x : Fin capacity}
    (old : ∀ i ∈ l, P i) (new : P x) : ∀ i ∈ l ++ [x], P i :=
  List.forall_mem_append.mpr ⟨old,List.forall_mem_singleton.mpr new⟩

theorem scanFree {q r topic l s} {x : Fin capacity} (empty : (q.slots x).state = .free)
    (h : ScanSpec q r topic l s) : ScanSpec q r topic (l ++ [x]) (scanSlot q r topic s x) := by
  obtain ⟨free,full,replace,fresh,noncritical⟩ := h
  have stuck : ¬ Replaceable r topic (q.slots x) := fun bad => by simp [bad.1] at empty
  have skip : ¬ Plain (q.slots x) := fun bad => bad.1 empty
  simp only [scanSlot,empty,if_true]
  refine ⟨fun i found => ?_,fun none => ?_,fun i found => ?_,fun none => ?_,?_⟩
  · dsimp only at found
    split at found
    · cases found; exact empty
    · exact free i found
  · dsimp only at none
    split at none
    · contradiction
    · contradiction
  · obtain ⟨fits,last⟩ := replace i found
    exact ⟨fits,concatAll last (fun bad => absurd bad stuck)⟩
  · exact concatAll (fresh none) stuck
  · simp [noncritical,skip]

theorem scanHeld {q r topic l s} {x : Fin capacity} (above : ∀ j ∈ l, j < x)
    (held : (q.slots x).state ≠ .free) (h : ScanSpec q r topic l s) :
    ScanSpec q r topic (l ++ [x]) (scanSlot q r topic s x) := by
  obtain ⟨free,full,replace,fresh,noncritical⟩ := h
  simp only [scanSlot,held,if_false]
  refine ⟨free,fun none => concatAll (full none) held,fun i found => ?_,fun none => ?_,?_⟩
  · dsimp only at found
    split at found
    · rename_i fits
      cases found
      exact ⟨fits,concatAll (fun j mem _ => Nat.le_of_lt (above j mem)) (fun _ => Nat.le_refl _)⟩
    · rename_i stuck
      obtain ⟨fits,last⟩ := replace i found
      exact ⟨fits,concatAll last (fun bad => absurd bad stuck)⟩
  · dsimp only at none
    split at none
    · contradiction
    · rename_i stuck
      exact concatAll (fresh none) stuck
  · by_cases plain : (q.slots x).item.critical = false
    · simp [noncritical,plain,Plain,Held,held]
    · simp [noncritical,plain,Plain]

theorem scanSlotSpec {q r topic l s} (x : Fin capacity) (above : ∀ j ∈ l, j < x)
    (h : ScanSpec q r topic l s) : ScanSpec q r topic (l ++ [x]) (scanSlot q r topic s x) := by
  by_cases empty : (q.slots x).state = .free
  · exact scanFree empty h
  · exact scanHeld above empty h

theorem scanSpec (q : Queue) (r : Request) (topic : Bytes) (l : List (Fin capacity))
    (sorted : l.Pairwise (· < ·)) : ScanSpec q r topic l (l.foldl (scanSlot q r topic) ⟨none,none,0⟩) := by
  induction l using List.reverseRecOn with
  | nil => exact ⟨by simp,by simp,by simp,by simp,rfl⟩
  | append_singleton l x ih =>
    rw [List.foldl_append,List.foldl_cons,List.foldl_nil]
    rw [List.pairwise_append] at sorted
    exact scanSlotSpec x (fun j hj => sorted.2.2 j hj x (by simp)) (ih sorted.1)

theorem countSlots (p : Slot → Prop) [DecidablePred p] (q : Queue) :
    (List.finRange capacity).countP (fun i => decide (p (q.slots i))) = occupied p q.slots := by
  rw [List.countP_eq_length_filter]
  rfl

theorem scanSlotsSpec (q : Queue) (r : Request) (topic : Bytes) :
    ScanSpec q r topic (List.finRange capacity) (scanSlots q r topic) :=
  scanSpec q r topic _ (List.pairwise_lt_finRange capacity)

/-! The pass of `claim`. -/

theorem headSkip {q nowMs critical l h x} (head : IsHead q nowMs critical l h)
    (other : ¬ Ready q nowMs critical x) : IsHead q nowMs critical (l ++ [x]) h := by
  cases h with
  | none => exact concatAll head other
  | some h => exact ⟨head.1,concatAll head.2 (fun ready => absurd ready other)⟩

theorem headMeet {q nowMs critical l h x} (head : IsHead q nowMs critical l h)
    (ready : Ready q nowMs critical x) : IsHead q nowMs critical (l ++ [x]) (earlier q x h) := by
  cases h with
  | none => exact ⟨ready,concatAll (fun i mem late => absurd late (head i mem)) (fun _ => Nat.le_refl _)⟩
  | some h =>
    by_cases less : (q.slots x).order < (q.slots h).order
    · rw [earlier,if_pos less]
      refine ⟨ready,concatAll (fun i mem late => ?_) (fun _ => Nat.le_refl _)⟩
      exact (Nat.le_of_lt less).trans (head.2 i mem late)
    · rw [earlier,if_neg less]
      exact ⟨head.1,concatAll head.2 (fun _ => Nat.not_lt.mp less)⟩

structure Scanned (q : Queue) (nowMs : Nat) (l : List (Fin capacity)) (h : Heads) : Prop where
  quiet : ∀ i ∈ l, (q.slots i).state ≠ .inflight
  critical : IsHead q nowMs true l h.critical
  other : IsHead q nowMs false l h.other

def nextHeads (q : Queue) (nowMs : Nat) (h : Heads) (x : Fin capacity) : Heads :=
  if (q.slots x).state ≠ .queued ∨ expired (q.slots x).item nowMs then h
  else if (q.slots x).item.critical then { h with critical := earlier q x h.critical }
  else { h with other := earlier q x h.other }

theorem claimScanCons (q : Queue) (nowMs : Nat) (x rest h) : claimScan q nowMs (x::rest) h =
    if (q.slots x).state = .inflight then none else claimScan q nowMs rest (nextHeads q nowMs h x) := by
  rw [claimScan,nextHeads]
  split
  · rfl
  · split <;> rfl

theorem scannedNext {q nowMs l h x} (scanned : Scanned q nowMs l h) (quiet : (q.slots x).state ≠ .inflight) :
    Scanned q nowMs (l ++ [x]) (nextHeads q nowMs h x) := by
  have still := concatAll scanned.quiet quiet
  unfold nextHeads
  split
  · rename_i out
    have stuck : ∀ critical, ¬ Ready q nowMs critical x := fun critical ready =>
      out.elim (fun bad => bad ready.1) ready.2.1
    exact ⟨still,headSkip scanned.critical (stuck true),headSkip scanned.other (stuck false)⟩
  · rename_i alive
    rw [not_or,not_not] at alive
    split
    · rename_i urgent
      have wrong : ¬ Ready q nowMs false x := fun ready => by simp [ready.2.2] at urgent
      exact ⟨still,headMeet scanned.critical ⟨alive.1,alive.2,urgent⟩,headSkip scanned.other wrong⟩
    · rename_i plain
      have wrong : ¬ Ready q nowMs true x := fun ready => plain ready.2.2
      exact ⟨still,headSkip scanned.critical wrong,
        headMeet scanned.other ⟨alive.1,alive.2,by simpa using plain⟩⟩

theorem claimScanSpec {q nowMs} (l seen : List (Fin capacity)) (h : Heads)
    (scanned : Scanned q nowMs seen h) :
    (claimScan q nowMs l h = none → ∃ i ∈ l, (q.slots i).state = .inflight) ∧
    ∀ heads, claimScan q nowMs l h = some heads → Scanned q nowMs (seen ++ l) heads := by
  induction l generalizing seen h with
  | nil =>
    refine ⟨by simp [claimScan],fun heads same => ?_⟩
    cases Option.some.inj same
    rw [List.append_nil]
    exact scanned
  | cons x rest ih =>
    rw [claimScanCons]
    by_cases flying : (q.slots x).state = .inflight
    · rw [if_pos flying]
      exact ⟨fun _ => ⟨x,by simp,flying⟩,by simp⟩
    · rw [if_neg flying]
      obtain ⟨busy,found⟩ := ih (seen ++ [x]) _ (scannedNext scanned flying)
      refine ⟨fun none => ?_,fun heads same => ?_⟩
      · obtain ⟨i,hi,state⟩ := busy none
        exact ⟨i,by simp [hi],state⟩
      · rw [← List.append_cons] at found
        exact found heads same

abbrev Head (q : Queue) (nowMs : Nat) (critical : Bool) (h : Option (Fin capacity)) : Prop :=
  IsHead q nowMs critical (List.finRange capacity) h

theorem claimHeads (q : Queue) (nowMs : Nat) :
    (claimScan q nowMs (List.finRange capacity) ⟨none,none⟩ = none → ∃ i, (q.slots i).state = .inflight) ∧
    ∀ heads, claimScan q nowMs (List.finRange capacity) ⟨none,none⟩ = some heads →
      (∀ i, (q.slots i).state ≠ .inflight) ∧ Head q nowMs true heads.critical ∧
        Head q nowMs false heads.other := by
  have start : Scanned q nowMs [] ⟨none,none⟩ := ⟨by simp,by simp [IsHead],by simp [IsHead]⟩
  obtain ⟨busy,found⟩ := claimScanSpec (List.finRange capacity) [] _ start
  refine ⟨fun none => ?_,fun heads same => ?_⟩
  · obtain ⟨i,-,state⟩ := busy none
    exact ⟨i,state⟩
  · obtain ⟨quiet,critical,other⟩ := found heads same
    exact ⟨fun i => quiet i (List.mem_finRange i),critical,other⟩

end Web3PiUps.MqttQueueScans
