import Web3PiUps.MqttQueueMoves

/-! The queue loses and duplicates nothing. `Shape` is what the slots and the
counters say in every reachable state; `Books` weighs them against the tokens
accepted and the tokens ended so far. -/
namespace Web3PiUps.MqttQueueConservation
open MqttDispatchQueue MqttQueueScans MqttQueueMoves SlotTable StepMachine

def Flying (s : Slot) : Prop := s.state = .inflight
instance (s) : Decidable (Flying s) := by unfold Flying; infer_instance
def Carries (token : Nat) (s : Slot) : Prop := Held s ∧ s.item.token = token
instance (token s) : Decidable (Carries token s) := by unfold Carries; infer_instance

structure Shape (q : Queue) : Prop where
  depth : q.counters.depth = occupied Held q.slots
  plain : occupied Plain q.slots ≤ capacity-criticalReserve
  single : Distinct Flying (fun _ => ()) q.slots
  tokens : Distinct Held (fun s => s.item.token) q.slots
  orders : Distinct Held Slot.order q.slots
  tokenRange : Every Held (fun s => 0 < s.item.token ∧ s.item.token ≤ q.lastToken) q.slots
  orderRange : Every Held (fun s => s.order ≤ q.lastToken) q.slots
  highwater : q.counters.depth ≤ q.counters.highwater
  streak : q.criticalStreak ≤ criticalBurst

theorem initShape : Shape init where
  depth := (occupiedNone Held (fun _ bad => bad rfl)).symm
  plain := by rw [occupiedNone Plain (fun _ bad => bad.1 rfl)]; decide
  single _ _ bad := by simp [init,Slot.zero,Flying] at bad
  tokens _ _ bad := absurd rfl bad
  orders _ _ bad := absurd rfl bad
  tokenRange _ bad := absurd rfl bad
  orderRange _ bad := absurd rfl bad
  highwater := Nat.le_refl _
  streak := by decide

theorem depthBound {q} (h : Shape q) : q.counters.depth ≤ 32 := by
  rw [h.depth]
  exact (occupiedLe Held q.slots).trans (by simp)

theorem heldDepth {q i} (h : Shape q) (held : Held (q.slots i)) : 0 < q.counters.depth := by
  rw [h.depth]
  exact occupiedPos Held held

theorem releaseShape {q i} (h : Shape q) (held : Held (q.slots i)) (fate : Fate) :
    Shape (releaseSlot { q with counters := countFate q.counters fate } i) := by
  have empty : ¬ Held Slot.zero := fun bad => bad rfl
  have fewer := occupiedClear Held held empty
  have depthSame : (countFate q.counters fate).depth = q.counters.depth := by cases fate <;> rfl
  have waterSame : (countFate q.counters fate).highwater = q.counters.highwater := by cases fate <;> rfl
  have bound := depthBound h
  have filled := heldDepth h held
  have down : dec32 q.counters.depth = q.counters.depth-1 := if_neg (by omega)
  have depth := h.depth
  exact {
    depth := by
      rw [releaseDepth,releaseSlots,depthSame,down]
      change q.counters.depth-1 = occupied Held (Function.update q.slots i .zero)
      omega
    plain := by
      have step := occupiedUpdate Plain q.slots i .zero
      rw [if_neg (fun bad : Plain Slot.zero => empty bad.1)] at step
      have := h.plain
      change occupied Plain (Function.update q.slots i .zero) ≤ _
      omega
    single := distinctClear h.single (by simp [Flying,Slot.zero])
    tokens := distinctClear h.tokens empty
    orders := distinctClear h.orders empty
    tokenRange := everyUpdate h.tokenRange (fun bad => absurd bad empty)
    orderRange := everyUpdate h.orderRange (fun bad => absurd bad empty)
    highwater := by
      have before := h.highwater
      rw [releaseDepth,releaseHighwater,depthSame,waterSame,down]
      omega
    streak := h.streak }

theorem restateShape {q i s streak} (h : Shape q) (held : Held (q.slots i)) (stays : Held s)
    (same : s.item = (q.slots i).item ∧ s.order = (q.slots i).order)
    (alone : Flying s → ∀ j, j ≠ i → ¬ Flying (q.slots j)) (short : streak ≤ criticalBurst) :
    Shape { q with slots := Function.update q.slots i s, criticalStreak := streak } where
  depth := by
    rw [h.depth]
    exact (occupiedKeep Held (iff_of_true held stays)).symm
  plain := by
    have keep : Plain (q.slots i) ↔ Plain s := by simp [Plain,held,stays,same.1]
    change occupied Plain (Function.update q.slots i s) ≤ _
    rw [occupiedKeep Plain keep]
    exact h.plain
  single := distinctUpdate h.single (fun fly j other bad => absurd bad (alone fly j other))
  tokens := distinctKeep h.tokens held (by rw [same.1])
  orders := distinctKeep h.orders held same.2
  tokenRange := everyUpdate h.tokenRange (fun _ => by rw [same.1]; exact h.tokenRange i held)
  orderRange := everyUpdate h.orderRange (fun _ => by rw [same.2]; exact h.orderRange i held)
  highwater := h.highwater
  streak := short

theorem turnShort {q nowMs c streak} (h : Shape q) (turn : Turn q nowMs c streak) :
    streak ≤ criticalBurst := by
  have before := h.streak
  unfold Turn at turn
  split at turn
  · rw [turn.1]
    split <;> omega
  · rw [turn]; exact Nat.zero_le _

theorem replaceShape {q r topic i} (h : Shape q) (fits : Replaceable r topic (q.slots i)) :
    Shape (store q r topic i true).1 := by
  have held : Held (q.slots i) := by simp [Held,fits.1]
  have keep : Plain (q.slots i) ↔
      Plain ⟨acceptedItem r topic (q.lastToken+1),(q.slots i).order,(q.slots i).retryAfterMs,.queued⟩ := by
    simp [Plain,Held,fits.1,fits.2.2.1,acceptedItem,fits.2.1]
  exact {
    depth := h.depth.trans (occupiedKeep Held (iff_of_true held (by simp [Held]))).symm
    plain := (occupiedKeep Plain keep).trans_le h.plain
    single := distinctUpdate h.single (by simp [Flying])
    tokens := distinctUpdate h.tokens (fun _ j _ hj same => by
      have := (h.tokenRange j hj).2
      simp only [acceptedItem] at same
      omega)
    orders := distinctKeep h.orders held rfl
    tokenRange := everyUpdate (fun j hj => ⟨(h.tokenRange j hj).1,Nat.le_succ_of_le (h.tokenRange j hj).2⟩)
      (fun _ => ⟨Nat.succ_pos _,Nat.le_refl _⟩)
    orderRange := everyUpdate (fun j hj => Nat.le_succ_of_le (h.orderRange j hj))
      (fun _ => Nat.le_succ_of_le (h.orderRange i held))
    highwater := h.highwater
    streak := h.streak }

theorem admitShape {q r topic i} (h : Shape q) (free : (q.slots i).state = .free)
    (room : r.critical = false → occupied Plain q.slots < capacity-criticalReserve) :
    Shape (store q r topic i false).1 := by
  have empty : ¬ Held (q.slots i) := fun bad => bad free
  have held : Held ⟨acceptedItem r topic (q.lastToken+1),q.lastToken+1,0,.queued⟩ := by simp [Held]
  have more := occupiedFill Held empty held
  have bound : occupied Held (Function.update q.slots i
      ⟨acceptedItem r topic (q.lastToken+1),q.lastToken+1,0,.queued⟩) ≤ 32 :=
    (occupiedLe Held _).trans_eq (Fintype.card_fin 32)
  have up : inc32 q.counters.depth = q.counters.depth+1 := by
    have := h.depth
    unfold inc32
    omega
  exact {
    depth := by
      change inc32 q.counters.depth = _
      rw [up,h.depth]
      exact more.symm
    plain := by
      by_cases urgent : r.critical
      · refine (occupiedKeep Plain ?_).trans_le h.plain
        simp [Plain,empty,acceptedItem,urgent]
      · have plain : r.critical = false := by simpa using urgent
        have filled : occupied Plain (Function.update q.slots i
            ⟨acceptedItem r topic (q.lastToken+1),q.lastToken+1,0,.queued⟩) = occupied Plain q.slots + 1 :=
          occupiedFill Plain (fun bad => empty bad.1) ⟨held,plain⟩
        exact filled.trans_le (room plain)
    single := distinctUpdate h.single (by simp [Flying])
    tokens := distinctUpdate h.tokens (fun _ j _ hj same => by
      have := (h.tokenRange j hj).2
      simp only [acceptedItem] at same
      omega)
    orders := distinctUpdate h.orders (fun _ j _ hj same => by
      have below : (q.slots j).order ≤ q.lastToken := h.orderRange j hj
      have above : (q.slots j).order = q.lastToken+1 := same
      omega)
    tokenRange := everyUpdate (fun j hj => ⟨(h.tokenRange j hj).1,Nat.le_succ_of_le (h.tokenRange j hj).2⟩)
      (fun _ => ⟨Nat.succ_pos _,Nat.le_refl _⟩)
    orderRange := everyUpdate (fun j hj => Nat.le_succ_of_le (h.orderRange j hj)) (fun _ => Nat.le_refl _)
    highwater := by
      change inc32 q.counters.depth ≤
        if inc32 q.counters.depth > q.counters.highwater then inc32 q.counters.depth else q.counters.highwater
      split <;> omega
    streak := h.streak }

theorem moveShape {q e q'} (h : Shape q) (m : Move q e q') : Shape q' := by
  cases m with
  | refused => exact ⟨h.depth,h.plain,h.single,h.tokens,h.orders,h.tokenRange,h.orderRange,h.highwater,h.streak⟩
  | admitted free room below => exact admitShape h free room
  | replaced fits last below => exact replaceShape h fits
  | lapsed queued late => exact releaseShape h (by simp [Held,queued]) .expired
  | taken quiet head due turn =>
    have queued := head.1.1
    exact restateShape h (by simp [Held,queued]) (by simp [Held]) ⟨rfl,rfl⟩
      (fun _ j _ => quiet j) (turnShort h turn)
  | putBack retryAfterMs flying =>
    exact restateShape h (by simp [Held,flying]) (by simp [Held]) ⟨rfl,rfl⟩ (by simp [Flying]) h.streak
  | closed flying ended => exact releaseShape h (by simp [Held,flying]) _

/-! The books. `arrived` are the tokens accepted so far, `ended` those that left. -/

def fated (fate : Fate) (ended : List (Nat × Fate)) : Nat := (ended.map Prod.snd).count fate

structure Books (q : Queue) (arrived : List Nat) (ended : List (Nat × Fate)) : Prop where
  shape : Shape q
  last : q.lastToken ≤ uint64Max
  tokens : arrived = List.range' 1 q.lastToken
  place : ∀ token, arrived.count token =
    occupied (Carries token) q.slots + (ended.map Prod.fst).count token
  accepted : q.counters.accepted = q.lastToken
  coalesced : q.counters.coalesced = fated .coalesced ended
  expired : q.counters.expired = fated .expired ended
  dropped : q.counters.dropped = fated .dropped ended
  total : ended.length + occupied Held q.slots = q.lastToken

theorem initEmpty (i : Fin capacity) : ¬ Held (init.slots i) := fun bad => bad rfl

theorem initBooks : Books init [] [] where
  shape := initShape
  last := Nat.zero_le _
  tokens := rfl
  place token := by
    have none : occupied (Carries token) init.slots = 0 := occupiedNone _ (fun i bad => initEmpty i bad.1)
    rw [none]
    rfl
  accepted := rfl
  coalesced := rfl
  expired := rfl
  dropped := rfl
  total := occupiedNone Held initEmpty

theorem fatedEnd (fate f : Fate) (ended : List (Nat × Fate)) (token : Nat) :
    fated fate (ended ++ [(token,f)]) = fated fate ended + if f = fate then 1 else 0 := by
  simp [fated,List.count_singleton]

theorem fatedBound (fate : Fate) (ended : List (Nat × Fate)) : fated fate ended ≤ ended.length := by
  have bound : (ended.map Prod.snd).count fate ≤ (ended.map Prod.snd).length := List.count_le_length
  rwa [List.length_map] at bound

theorem inc64Small {n : Nat} (h : n < uint64Max) : inc64 n = n+1 := Nat.mod_eq_of_lt (by
  have : uint64Max = 2^64-1 := rfl
  omega)

theorem fatedRoom {q arrived ended} (h : Books q arrived ended) (filled : 0 < occupied Held q.slots)
    (fate : Fate) : fated fate ended < uint64Max := by
  have bound := fatedBound fate ended
  have total := h.total
  have last := h.last
  omega

theorem releaseBooks {q i arrived ended} {fate : Fate} (h : Books q arrived ended) (held : Held (q.slots i))
    (ends : fate ≠ .coalesced) :
    Books (releaseSlot { q with counters := countFate q.counters fate } i) arrived
      (ended ++ [((q.slots i).item.token,fate)]) := by
  have empty : ¬ Held Slot.zero := fun bad => bad rfl
  have room := fatedRoom h (occupiedPos Held held)
  have fewer := occupiedClear Held held empty
  exact {
    shape := releaseShape h.shape held fate
    last := h.last
    tokens := h.tokens
    place token := by
      have carried := occupiedUpdate (Carries token) q.slots i .zero
      have gone : ¬ Carries token Slot.zero := fun bad => empty bad.1
      have here : Carries token (q.slots i) ↔ (q.slots i).item.token = token := and_iff_right held
      rw [if_neg gone] at carried
      simp only [here] at carried
      rw [h.place token,releaseSlots,List.map_append,List.count_append]
      simp only [List.map_cons,List.map_nil,List.count_singleton,beq_iff_eq]
      omega
    accepted := by
      have same : (countFate q.counters fate).accepted = q.counters.accepted := by cases fate <;> rfl
      exact same.trans h.accepted
    coalesced := by
      have same : (countFate q.counters fate).coalesced = q.counters.coalesced := by cases fate <;> rfl
      rw [fatedEnd,if_neg ends]
      exact same.trans h.coalesced
    expired := by
      rw [fatedEnd]
      by_cases lapses : fate = .expired
      · subst lapses
        exact (inc64Small (h.expired ▸ room .expired)).trans (by rw [h.expired]; rfl)
      · have same : (countFate q.counters fate).expired = q.counters.expired := by
          cases fate <;> first | rfl | exact absurd rfl lapses
        rw [if_neg lapses]
        exact same.trans h.expired
    dropped := by
      rw [fatedEnd]
      by_cases drops : fate = .dropped
      · subst drops
        exact (inc64Small (h.dropped ▸ room .dropped)).trans (by rw [h.dropped]; rfl)
      · have same : (countFate q.counters fate).dropped = q.counters.dropped := by
          cases fate <;> first | rfl | exact absurd rfl drops
        rw [if_neg drops]
        exact same.trans h.dropped
    total := by
      have total := h.total
      rw [releaseSlots,List.length_append]
      change ended.length + 1 + occupied Held (Function.update q.slots i .zero) = q.lastToken
      omega }

theorem restateBooks {q i s streak arrived ended} (h : Books q arrived ended)
    (shape : Shape { q with slots := Function.update q.slots i s, criticalStreak := streak })
    (held : Held (q.slots i)) (stays : Held s) (same : s.item = (q.slots i).item) :
    Books { q with slots := Function.update q.slots i s, criticalStreak := streak } arrived ended where
  shape := shape
  last := h.last
  tokens := h.tokens
  place token := by
    rw [h.place token]
    have keep : Carries token (q.slots i) ↔ Carries token s := by simp [Carries,held,stays,same]
    exact congrArg (· + _) (occupiedKeep (Carries token) keep).symm
  accepted := h.accepted
  coalesced := h.coalesced
  expired := h.expired
  dropped := h.dropped
  total := by
    rw [← h.total]
    exact congrArg (_ + ·) (occupiedKeep Held (iff_of_true held stays))

theorem storedPlace {q arrived ended} (h : Books q arrived ended) (r topic i replaces) (token : Nat) :
    (arrived ++ [q.lastToken+1]).count token = occupied (Carries token) (store q r topic i replaces).1.slots +
      (if Carries token (q.slots i) then 1 else 0) + (ended.map Prod.fst).count token := by
  let s := (store q r topic i replaces).1.slots i
  have slots : (store q r topic i replaces).1.slots = Function.update q.slots i s := by
    simp [s,store]
  have carries : Carries token s ↔ q.lastToken+1 = token := by
    simp [s,store,Carries,Held,acceptedItem]
  have step := occupiedUpdate (Carries token) q.slots i s
  simp only [carries] at step
  rw [slots,List.count_append,h.place token,List.count_singleton]
  simp only [beq_iff_eq]
  omega

theorem rangeNext (n : Nat) : List.range' 1 n ++ [n+1] = List.range' 1 (n+1) := by
  rw [List.range'_concat]
  simp [Nat.add_comm]

theorem admitBooks {q r topic i arrived ended} (h : Books q arrived ended)
    (free : (q.slots i).state = .free) (below : q.lastToken ≠ uint64Max)
    (shape : Shape (store q r topic i false).1) :
    Books (store q r topic i false).1 (arrived ++ [q.lastToken+1]) ended := by
  have empty : ¬ Held (q.slots i) := fun bad => bad free
  have held : Held ((store q r topic i false).1.slots i) := by simp [store,Held]
  have more := occupiedFill Held empty held
  have slots : (store q r topic i false).1.slots =
      Function.update q.slots i ((store q r topic i false).1.slots i) := by simp [store]
  have least := h.last
  have before := h.accepted
  exact {
    shape := shape
    last := by change q.lastToken+1 ≤ uint64Max; omega
    tokens := by rw [h.tokens,rangeNext]; rfl
    place token := by
      rw [storedPlace h r topic i false token,if_neg (fun bad : Carries token (q.slots i) => empty bad.1)]
      rfl
    accepted := by
      change inc64 q.counters.accepted = q.lastToken+1
      rw [inc64Small (by omega),before]
    coalesced := h.coalesced
    expired := h.expired
    dropped := h.dropped
    total := by
      have total := h.total
      rw [slots]
      change _ = q.lastToken+1
      omega }

theorem replaceBooks {q r topic i arrived ended} (h : Books q arrived ended)
    (queued : (q.slots i).state = .queued) (below : q.lastToken ≠ uint64Max)
    (shape : Shape (store q r topic i true).1) :
    Books (store q r topic i true).1 (arrived ++ [q.lastToken+1])
      (ended ++ [((q.slots i).item.token,.coalesced)]) := by
  have held : Held (q.slots i) := by simp [Held,queued]
  have stays : Held ((store q r topic i true).1.slots i) := by simp [store,Held]
  have same := occupiedKeep Held (iff_of_true held stays)
  have slots : (store q r topic i true).1.slots =
      Function.update q.slots i ((store q r topic i true).1.slots i) := by simp [store]
  have least := h.last
  have before := h.accepted
  have room := fatedRoom h (occupiedPos Held held) .coalesced
  exact {
    shape := shape
    last := by change q.lastToken+1 ≤ uint64Max; omega
    tokens := by rw [h.tokens,rangeNext]; rfl
    place token := by
      have here : Carries token (q.slots i) ↔ (q.slots i).item.token = token := and_iff_right held
      rw [storedPlace h r topic i true token,List.map_append,List.count_append]
      simp only [here,List.map_cons,List.map_nil,List.count_singleton,beq_iff_eq]
      omega
    accepted := by
      change inc64 q.counters.accepted = q.lastToken+1
      rw [inc64Small (by omega),before]
    coalesced := by
      rw [fatedEnd,if_pos rfl]
      exact (inc64Small (h.coalesced ▸ room)).trans (congrArg (· + 1) h.coalesced)
    expired := by rw [fatedEnd]; exact h.expired
    dropped := by rw [fatedEnd]; exact h.dropped
    total := by
      have total := h.total
      rw [slots,List.length_append]
      change _ = q.lastToken+1
      simp only [List.length_singleton]
      omega }

theorem moveBooks {q e q' arrived ended} (h : Books q arrived ended) (m : Move q e q') :
    Books q' (arrived ++ e.arrivals) (ended ++ e.endings) := by
  have shape := moveShape h.shape m
  cases m with
  | refused =>
    simp only [Event.arrivals,Event.endings,List.append_nil]
    exact ⟨shape,h.last,h.tokens,h.place,h.accepted,h.coalesced,h.expired,h.dropped,h.total⟩
  | admitted free room below =>
    simp only [Event.endings,List.append_nil]
    exact admitBooks h free below shape
  | replaced fits last below => exact replaceBooks h fits.1 below shape
  | lapsed queued late =>
    simp only [Event.arrivals,List.append_nil]
    exact releaseBooks h (by simp [Held,queued]) (by decide)
  | taken quiet head due turn =>
    simp only [Event.arrivals,Event.endings,List.append_nil]
    exact restateBooks h shape (by simp [Held,head.1.1]) (by simp [Held]) rfl
  | putBack retryAfterMs flying =>
    simp only [Event.arrivals,Event.endings,List.append_nil]
    exact restateBooks h shape (by simp [Held,flying]) (by simp [Held]) rfl
  | closed flying ends =>
    simp only [Event.arrivals,List.append_nil]
    exact releaseBooks h (by simp [Held,flying]) ends

theorem movesBooks {q es q' arrived ended} (h : Books q arrived ended) (m : Moves q es q') :
    Books q' (arrived ++ es.flatMap Event.arrivals) (ended ++ es.flatMap Event.endings) := by
  induction m generalizing arrived ended with
  | done => simpa using h
  | more first _ ih =>
    have next := ih (moveBooks h first)
    simpa only [List.flatMap_cons,List.append_assoc] using next

theorem stepBooks {q arrived ended} (h : Books q arrived ended) (op : Op) :
    Books (step q op).1 (arrived ++ arrivals (step q op).2) (ended ++ endings q op (step q op).2) := by
  obtain ⟨es,moves,come,go,-⟩ := stepMoves (fun i held => (h.shape.tokenRange i held).1) op
  rw [← come,← go]
  exact movesBooks h moves

def arrivedIn (q : Queue) : List Op → List Nat
  | [] => []
  | op::rest => arrivals (step q op).2 ++ arrivedIn (step q op).1 rest

def endedIn (q : Queue) : List Op → List (Nat × Fate)
  | [] => []
  | op::rest => endings q op (step q op).2 ++ endedIn (step q op).1 rest

theorem runBooks {q arrived ended} (h : Books q arrived ended) (ops : List Op) :
    Books (final step q ops) (arrived ++ arrivedIn q ops) (ended ++ endedIn q ops) := by
  induction ops generalizing q arrived ended with
  | nil => simpa [arrivedIn,endedIn] using h
  | cons op rest ih =>
    have next := ih (stepBooks h op)
    simpa only [arrivedIn,endedIn,List.append_assoc,finalCons] using next

theorem reachableBooks (ops : List Op) :
    Books (final step init ops) (arrivedIn init ops) (endedIn init ops) := by
  simpa using runBooks initBooks ops

theorem fatedPartition (ended : List (Nat × Fate)) : ended.length =
    fated .coalesced ended + fated .expired ended + fated .dropped ended + fated .sent ended := by
  induction ended with
  | nil => rfl
  | cons e rest ih =>
    obtain ⟨token,fate⟩ := e
    simp only [fated,List.map_cons,List.length_cons,List.count_cons] at ih ⊢
    cases fate <;> simp <;> omega

theorem refusedSame {q q'} (m : Move q .refused q') :
    q'.slots = q.slots ∧ q'.lastToken = q.lastToken := by
  cases m
  exact ⟨rfl,rfl⟩

theorem refusedKeeps (q : Queue) (r : Option Request) (refused : (submit q r).2.result ≠ .accepted) :
    (submit q r).1.slots = q.slots ∧ (submit q r).1.lastToken = q.lastToken := by
  rcases submitCases q r with ⟨-,-,-,same | move⟩ | ⟨req,i,-,-,⟨run,-⟩ | ⟨run,-⟩⟩
  · rw [same]; exact ⟨rfl,rfl⟩
  · exact refusedSame move
  · rw [run] at refused; exact absurd rfl refused
  · rw [run] at refused; exact absurd rfl refused

theorem queueConserves (ops : List Op) :
    let q := final step init ops
    let accepted := arrivedIn init ops
    let ended := endedIn init ops
    (q.counters.depth = occupied Held q.slots ∧ q.counters.depth ≤ 32) ∧
    occupied Plain q.slots ≤ 24 ∧
    (∀ i j, (q.slots i).state = .inflight → (q.slots j).state = .inflight → i = j) ∧
    (∀ i, Held (q.slots i) → (q.slots i).item.token ≤ q.lastToken ∧ (q.slots i).order ≤ q.lastToken) ∧
    (∀ i j, Held (q.slots i) → Held (q.slots j) → i ≠ j →
      (q.slots i).item.token ≠ (q.slots j).item.token ∧ (q.slots i).order ≠ (q.slots j).order) ∧
    q.counters.depth ≤ q.counters.highwater ∧ q.criticalStreak ≤ 8 ∧
    accepted = List.range' 1 q.lastToken ∧
    (∀ token ∈ accepted,
      occupied (Carries token) q.slots + (ended.map Prod.fst).count token = 1) ∧
    (q.counters.coalesced = fated .coalesced ended ∧ q.counters.expired = fated .expired ended ∧
      q.counters.dropped = fated .dropped ended) ∧
    (q.counters.accepted = accepted.length ∧ q.counters.accepted = q.counters.coalesced +
      q.counters.depth + q.counters.expired + q.counters.dropped + fated .sent ended) ∧
    ∀ r, (submit q r).2.result ≠ .accepted →
      (submit q r).1.slots = q.slots ∧ (submit q r).1.lastToken = q.lastToken := by
  intro q accepted ended
  obtain ⟨shape,last,tokens,place,count,coalesced,expired,dropped,total⟩ := reachableBooks ops
  have parts := fatedPartition (endedIn init ops)
  have depth := shape.depth
  have length := congrArg List.length tokens
  have sum : (final step init ops).counters.accepted = (final step init ops).counters.coalesced +
      (final step init ops).counters.depth + (final step init ops).counters.expired +
      (final step init ops).counters.dropped + fated .sent (endedIn init ops) := by omega
  rw [List.length_range'] at length
  have once : ∀ token ∈ arrivedIn init ops, (arrivedIn init ops).count token = 1 := by
    rw [tokens]
    exact fun token mem => List.count_eq_one_of_mem (List.nodup_range') mem
  refine ⟨⟨depth,depthBound shape⟩,shape.plain,fun i j hi hj => shape.single i j hi hj rfl,
    fun i held => ⟨(shape.tokenRange i held).2,shape.orderRange i held⟩,
    fun i j hi hj other => ⟨fun same => other (shape.tokens i j hi hj same),
      fun same => other (shape.orders i j hi hj same)⟩,
    shape.highwater,shape.streak,tokens,fun token mem => (place token).symm.trans (once token mem),⟨coalesced,expired,dropped⟩,
    ⟨count.trans length.symm,sum⟩,refusedKeeps q⟩

end Web3PiUps.MqttQueueConservation
