import Web3PiUps.Ch32xRxRing

/-! The receive ring over whole runs: the three views of it (the DMA counter, the read
index and the head of a running drain) count from the same byte, the one the DMA was
last started on, as long as no drain goes on with a head from before a restart. -/
namespace Web3PiUps.Ch32xRxOrder
open Ch32xRxRing StepMachine WupsProtocol

/-- What a running drain has before it: the bytes from `next` up to `last`. -/
structure Drains (r : Ring) (origin next head last : Nat) : Prop where
  ahead : next ≤ last
  near : last ≤ next+255
  come : last ≤ r.received.length
  head : head = (last-origin) % 256
  begun : r.begun ≤ last

/-- The DMA was last started on byte `origin`, and `next` is the byte to be read next. -/
structure Ledger (r : Ring) (origin next : Nat) : Prop where
  started : origin ≤ next
  reached : next ≤ r.received.length
  since : r.since ≤ next
  tail : r.tail = (next-origin) % 256
  cntr : r.cntr ≤ 256
  written : (256-r.cntr) % 256 = (r.received.length-origin) % 256
  cells : ∀ a b, r.received[a]? = some b → origin ≤ a → r.received.length ≤ a+256 →
    r.buf ((a-origin) % 256) = ⟨b,some a⟩
  drains : ∀ head, r.place.head = some head → ∃ last, Drains r origin next head last
  sends : ∀ head sends, r.place = .reply head sends → sends ≤ 3

/-- What one step does: the bytes it reads move `next` on. -/
def Follows (r : Ring) (next : Nat) (e : Event) : Prop :=
  ∃ origin' next', Ledger (step r e).1 origin' next' ∧ next ≤ next' ∧
    ∀ c, (step r e).2 = some c → ∃ a, c.arrival = some a ∧ next ≤ a ∧ a < next' ∧
      (step r e).1.received[a]? = some c.value

section Steps
variable {r : Ring} {origin next : Nat}

theorem bootLedger : Ledger .boot 0 0 where
  started := Nat.le_refl 0
  reached := Nat.le_refl 0
  since := Nat.le_refl 0
  tail := rfl
  cntr := Nat.le_refl 256
  written := rfl
  cells a b here := absurd here (by simp [Ring.boot])
  drains head running := absurd running (by simp [Ring.boot,Place.head])
  sends head sends place := absurd place (by simp [Ring.boot])

theorem quietFollows {e : Event} (origin' : Nat) (none_ : (step r e).2 = none)
    (kept : Ledger (step r e).1 origin' next) : Follows r next e :=
  ⟨origin',next,kept,Nat.le_refl next,fun c out => absurd (none_.symm.trans out) (by simp)⟩

theorem arriveKeeps (b : UInt8) (l : Ledger r origin next) : Ledger (arrive r b) origin next := by
  have moved : (if r.cntr = 0 then dmaRxBufSize else r.cntr) ≤ 256 ∧
      1 ≤ (if r.cntr = 0 then dmaRxBufSize else r.cntr) ∧
      256-(if r.cntr = 0 then dmaRxBufSize else r.cntr) = (r.received.length-origin) % 256 := by
    have low := l.cntr
    have place := l.written
    by_cases empty : r.cntr = 0
    · rw [if_pos empty]; rw [empty] at place; simp only [dmaRxBufSize]; omega
    · rw [if_neg empty]; omega
  obtain ⟨high,positive,slot⟩ := moved
  have started := l.started
  have reached := l.reached
  refine ⟨started,?_,l.since,l.tail,?_,?_,?_,?_,l.sends⟩
  · simp only [arrive,List.length_append,List.length_singleton]; omega
  · simp only [arrive]; omega
  · simp only [arrive,List.length_append,List.length_singleton]; omega
  · intro a c here above room
    simp only [arrive,List.length_append,List.length_singleton] at here room ⊢
    rw [slot]
    by_cases new : a = r.received.length
    · subst new
      rw [List.getElem?_concat_length] at here
      rw [Function.update_self,Option.some.inj here]
    · have bound := (List.getElem?_eq_some_iff.mp here).1
      simp only [List.length_append,List.length_singleton] at bound
      have old : a < r.received.length := by omega
      rw [List.getElem?_append_left old] at here
      rw [Function.update_of_ne (by omega)]
      exact l.cells a c here above (by omega)
  · intro head running
    obtain ⟨last,d⟩ := l.drains head running
    exact ⟨last,d.ahead,d.near,by
      simp only [arrive,List.length_append,List.length_singleton]; exact Nat.le_succ_of_le d.come,d.head,d.begun⟩

theorem reloadKeeps (l : Ledger r origin next) : Ledger (reload r) origin next := by
  by_cases empty : r.cntr = 0
  · have moved : reload r = { r with cntr := dmaRxBufSize } := if_pos empty
    rw [moved]
    have place := l.written
    have slot : (256-dmaRxBufSize) % 256 = (r.received.length-origin) % 256 := by rw [← place,empty]; rfl
    exact ⟨l.started,l.reached,l.since,l.tail,Nat.le_refl 256,slot,l.cells,
      fun head running => (l.drains head running).imp fun _ d => ⟨d.ahead,d.near,d.come,d.head,d.begun⟩,l.sends⟩
  · have moved : reload r = r := if_neg empty
    rw [moved]; exact l

/-- The bytes still unread at a restart are lost: the next to be read is the next to come. -/
theorem sendKeeps (sent : SendEnd) (l : Ledger r origin next)
    (fits : (tcTimeoutsAfter r.tcTimeouts sent).2 = true → ∀ head, r.place.head = some head → head = 0) :
    ∃ origin' next', Ledger (usart2SendBytes r sent) origin' next' ∧ next ≤ next' := by
  by_cases again : (tcTimeoutsAfter r.tcTimeouts sent).2 = true
  · have moved : usart2SendBytes r sent =
        { r with tcTimeouts := (tcTimeoutsAfter r.tcTimeouts sent).1, cntr := dmaRxBufSize, tail := 0 } :=
      if_pos again
    rw [moved]
    refine ⟨r.received.length,r.received.length,?_,l.reached⟩
    refine ⟨Nat.le_refl _,Nat.le_refl _,l.since.trans l.reached,?_,Nat.le_refl 256,?_,?_,?_,l.sends⟩
    · simp only [Nat.sub_self,Nat.zero_mod]
    · simp only [Nat.sub_self,Nat.zero_mod]
    · intro a b here above
      exact absurd (List.getElem?_eq_some_iff.mp here).1 (Nat.not_lt.mpr above)
    · intro head running
      obtain ⟨last,d⟩ := l.drains head running
      refine ⟨r.received.length,Nat.le_refl _,Nat.le_add_right _ _,Nat.le_refl _,?_,d.begun.trans d.come⟩
      rw [fits again head running,Nat.sub_self,Nat.zero_mod]
  · have moved : usart2SendBytes r sent =
        { r with tcTimeouts := (tcTimeoutsAfter r.tcTimeouts sent).1 } := if_neg again
    rw [moved]
    exact ⟨origin,next,⟨l.started,l.reached,l.since,l.tail,l.cntr,l.written,l.cells,
      fun head running => (l.drains head running).imp fun _ d => ⟨d.ahead,d.near,d.come,d.head,d.begun⟩,l.sends⟩,
      Nat.le_refl next⟩

theorem drainStarts (l : Ledger r origin next) (loaded : r.cntr ≠ 0)
    (spaced : r.received.length < r.since+dmaRxBufSize) : Ledger (cmdRxDrain r) origin next := by
  have low := l.cntr
  have place := l.written
  have behind := l.since
  refine ⟨l.started,l.reached,l.since,l.tail,l.cntr,l.written,l.cells,fun head running => ?_,
    fun head sends place => absurd place (by simp [cmdRxDrain])⟩
  cases Option.some.inj running
  refine ⟨r.received.length,l.reached,?_,Nat.le_refl _,?_,Nat.le_refl _⟩
  · simp only [dmaRxBufSize] at spaced; omega
  · simp only [dmaRxBufSize]; omega

theorem headHandled (head : Nat) (f : Option WupsFrame) :
    (handled head f).head = some head ∨ (handled head f).head = none := by
  unfold handled
  split
  · exact .inl rfl
  · split
    · exact .inr rfl
    · exact .inl rfl

theorem handledSends {head : Nat} {f : Option WupsFrame} {head' sends : Nat}
    (replies : handled head f = .reply head' sends) : sends ≤ 3 := by
  cases f with
  | none => exact absurd replies (by simp [handled])
  | some f =>
    cases asked : wupsHandleFrame f with
    | none => exact absurd replies (by simp [handled,asked])
    | some n =>
      have same : n = sends := by simp only [handled,asked,Place.reply.injEq] at replies; exact replies.2
      rw [← same]
      unfold wupsHandleFrame at asked
      split at asked
      · cases asked; exact Nat.zero_le 3
      · split at asked
        · split at asked
          · cases asked; exact Nat.le_refl 3
          · split at asked <;> cases asked <;> decide
        · split at asked
          · split at asked <;> cases asked; exact Nat.zero_le 3
          · cases asked; exact Nat.zero_le 3

theorem turnRead {head : Nat} (more : r.tail ≠ head) :
    drainTurn r head =
      ({ r with tail := (r.tail+1) % dmaRxBufSize, rx := (WupsDeframers.Ch32x.wupsRxByte r.rx (r.buf r.tail).value).1,
                place := handled head (WupsDeframers.Ch32x.wupsRxByte r.rx (r.buf r.tail).value).2 },
        some (r.buf r.tail)) := if_pos more

theorem drainReads {head : Nat} (l : Ledger r origin next) (here : r.place = .loop head)
    (spaced : r.received.length < r.since+dmaRxBufSize) (more : r.tail ≠ head) :
    Ledger (drainTurn r head).1 origin (next+1) ∧
      ∃ b, r.received[next]? = some b ∧ (drainTurn r head).2 = some ⟨b,some next⟩ := by
  obtain ⟨last,d⟩ := l.drains head (by rw [here]; rfl)
  have started := l.started
  have behind := l.since
  have ahead : next < last := by
    rcases Nat.lt_or_eq_of_le d.ahead with low | same
    · exact low
    · exact absurd (l.tail.trans (by rw [same,d.head])) more
  have come := d.come
  have near := d.near
  have inside : next < r.received.length := Nat.lt_of_lt_of_le ahead come
  have byte : r.received[next]? = some r.received[next] := List.getElem?_eq_getElem inside
  have cell : r.buf r.tail = ⟨r.received[next],some next⟩ := by
    rw [l.tail]
    refine l.cells next _ byte started ?_
    simp only [dmaRxBufSize] at spaced; omega
  rw [turnRead more]
  refine ⟨⟨by omega,inside,Nat.le_succ_of_le behind,?_,l.cntr,l.written,l.cells,?_,
    fun _ _ replies => handledSends replies⟩,_,byte,by rw [cell]⟩
  · simp only [l.tail,dmaRxBufSize]; omega
  · intro head' running
    have same : head' = head := by
      rcases headHandled head (WupsDeframers.Ch32x.wupsRxByte r.rx (r.buf r.tail).value).2 with kept | gone
      · exact (Option.some.inj (kept.symm.trans running)).symm
      · exact absurd (gone.symm.trans running) (by simp)
    rw [same]
    exact ⟨last,ahead,by omega,come,d.head,d.begun⟩

theorem drainEnds {head : Nat} (l : Ledger r origin next) (here : r.place = .loop head)
    (done : ¬ r.tail ≠ head) : Ledger (drainTurn r head).1 origin next := by
  have moved : drainTurn r head = ({ r with place := .main, since := r.begun },none) := if_neg done
  rw [moved]
  obtain ⟨last,d⟩ := l.drains head (by rw [here]; rfl)
  have started := l.started
  have tail := l.tail
  have head_ := d.head
  have ahead := d.ahead
  have near := d.near
  have all : last = next := by
    have same : r.tail = head := not_not.mp done
    omega
  refine ⟨l.started,l.reached,all ▸ d.begun,l.tail,l.cntr,l.written,l.cells,fun head' running => ?_,
    fun _ _ replies => absurd replies (by simp)⟩
  exact absurd running (by simp [Place.head])

theorem turnKeeps {drains : Bool} {sent : SendEnd} (l : Ledger r origin next)
    (spaced : r.received.length < r.since+dmaRxBufSize) (resynced : Resynced r (.cpu drains sent)) :
    Follows r next (.cpu drains sent) := by
  cases here : r.place with
  | main =>
    simp only [Resynced,here] at resynced
    cases drains with
    | true =>
      have moved : step r (.cpu true sent) = (cmdRxDrain r,none) := by simp [step,turn,here]
      refine quietFollows origin (by rw [moved]) ?_
      rw [moved]; exact drainStarts l (resynced rfl) spaced
    | false =>
      have moved : step r (.cpu false sent) = (usart2SendBytes r sent,none) := by simp [step,turn,here]
      obtain ⟨origin',next',kept,later⟩ := sendKeeps sent l
        (fun _ head running => absurd running (by rw [here]; simp [Place.head]))
      exact ⟨origin',next',by rw [moved]; exact kept,later,fun c out => absurd out (by rw [moved]; simp)⟩
  | loop head =>
    have moved : step r (.cpu drains sent) = drainTurn r head := by simp [step,turn,here]
    by_cases more : r.tail ≠ head
    · obtain ⟨kept,b,byte,out⟩ := drainReads l here spaced more
      refine ⟨origin,next+1,by rw [moved]; exact kept,Nat.le_succ next,fun c read => ?_⟩
      rw [moved,out] at read
      cases Option.some.inj read
      have same : (drainTurn r head).1.received = r.received := by rw [turnRead more]
      exact ⟨next,rfl,Nat.le_refl next,Nat.lt_succ_self next,by rw [moved,same]; exact byte⟩
    · refine quietFollows origin ?_ (by rw [moved]; exact drainEnds l here more)
      rw [moved,drainTurn,if_neg more]
  | reply head sends =>
    cases sends with
    | zero =>
      have moved : step r (.cpu drains sent) = ({ r with place := .loop head },none) := by simp [step,turn,here]
      refine quietFollows origin (by rw [moved]) ?_
      rw [moved]
      refine ⟨l.started,l.reached,l.since,l.tail,l.cntr,l.written,l.cells,fun head' running => ?_,
        fun _ _ replies => absurd replies (by simp)⟩
      obtain ⟨last,d⟩ := l.drains head' (by rw [here]; exact running)
      exact ⟨last,d.ahead,d.near,d.come,d.head,d.begun⟩
    | succ sends =>
      have moved : step r (.cpu drains sent) = ({ usart2SendBytes r sent with place := .reply head sends },none) := by
        simp [step,turn,here]
      simp only [Resynced,here] at resynced
      have stays : (usart2SendBytes r sent).place = .reply head (sends+1) := by
        unfold usart2SendBytes; dsimp only; split <;> exact here
      obtain ⟨origin',next',kept,later⟩ := sendKeeps sent l (fun again head' running => by
        rw [here] at running; rw [← Option.some.inj running]; exact resynced again)
      refine ⟨origin',next',?_,later,fun c out => absurd out (by rw [moved]; simp)⟩
      rw [moved]
      refine ⟨kept.started,kept.reached,kept.since,kept.tail,kept.cntr,kept.written,kept.cells,fun head' running => ?_,
        fun head' n replies => ?_⟩
      case refine_2 => cases replies; exact Nat.le_of_succ_le (kept.sends head (sends+1) stays)
      obtain ⟨last,d⟩ := kept.drains head' (by rw [stays]; exact running)
      exact ⟨last,d.ahead,d.near,d.come,d.head,d.begun⟩
  | reset =>
    have moved : step r (.cpu drains sent) = (r,none) := by simp [step,turn,here]
    exact quietFollows origin (by rw [moved]) (by rw [moved]; exact l)

theorem stepKeeps {e : Event} (l : Ledger r origin next)
    (spaced : r.received.length < r.since+dmaRxBufSize) (resynced : Resynced r e) : Follows r next e := by
  cases e with
  | arrive b => exact quietFollows origin rfl (arriveKeeps b l)
  | reload => exact quietFollows origin rfl (reloadKeeps l)
  | cpu drains sent => exact turnKeeps l spaced resynced

end Steps

theorem receivedStep (r : Ring) (e : Event) : (step r e).1.received = r.received ++ e.byte.toList := by
  have sends : ∀ sent, (usart2SendBytes r sent).received = r.received := by
    intro sent; unfold usart2SendBytes; dsimp only; split <;> rfl
  cases e with
  | arrive b => rfl
  | reload =>
    have same : (reload r).received = r.received := by unfold reload; split <;> rfl
    exact same.trans (List.append_nil _).symm
  | cpu drains sent =>
    have same : (turn r drains sent).1.received = r.received := by
      unfold turn
      split
      · cases drains
        · exact sends sent
        · rfl
      · unfold drainTurn; split <;> rfl
      · rfl
      · exact sends sent
      · rfl
    exact same.trans (List.append_nil _).symm

theorem receivedRun (r : Ring) (calls : List Event) :
    (final step r calls).received = r.received ++ receivedBytes calls := by
  induction calls generalizing r with
  | nil => exact (List.append_nil _).symm
  | cons e rest ih =>
    have first : e.byte.toList ++ receivedBytes rest = receivedBytes (e::rest) := by
      cases e <;> rfl
    rw [finalCons,ih,receivedStep,List.append_assoc,first]

theorem readInOrder {r : Ring} {origin next : Nat} {calls : List Event} (l : Ledger r origin next)
    (spaced : ∀ n, n < calls.length+1 →
      (stateAt step r calls n).received.length < (stateAt step r calls n).since+dmaRxBufSize)
    (resynced : ∀ n (inside : n < calls.length), Resynced (stateAt step r calls n) calls[n]) :
    (∀ c ∈ (outs step r calls).reduceOption, ∃ a, c.arrival = some a ∧ next ≤ a ∧
      (final step r calls).received[a]? = some c.value) ∧
    (outs step r calls).reduceOption.Pairwise (fun c d => ∃ a b, c.arrival = some a ∧ d.arrival = some b ∧ a < b) := by
  induction calls generalizing r origin next with
  | nil => exact ⟨fun c listed => absurd listed (by simp),.nil⟩
  | cons e rest ih =>
    have followed : Follows r next e := stepKeeps l (spaced 0 (by simp)) (resynced 0 (by simp))
    obtain ⟨origin',next',kept,later,read⟩ := followed
    obtain ⟨tracked,ordered⟩ := ih kept (fun n inside => spaced (n+1) (by simpa using inside))
      (fun n inside => resynced (n+1) (by simpa using inside))
    have rest_ : ∀ c ∈ (outs step (step r e).1 rest).reduceOption, ∃ a, c.arrival = some a ∧ next ≤ a ∧
        (final step (step r e).1 rest).received[a]? = some c.value := by
      intro c listed
      obtain ⟨a,stamp,low,value⟩ := tracked c listed
      exact ⟨a,stamp,later.trans low,value⟩
    rw [outsCons,finalCons]
    cases out : (step r e).2 with
    | none => exact ⟨rest_,ordered⟩
    | some c =>
      obtain ⟨a,stamp,low,below,value⟩ := read c out
      have grown : (final step (step r e).1 rest).received[a]? = some c.value := by
        rw [receivedRun,List.getElem?_append_left (List.getElem?_eq_some_iff.mp value).1]
        exact value
      refine ⟨fun d listed => ?_,List.pairwise_cons.mpr ⟨fun d listed => ?_,ordered⟩⟩
      · rcases List.mem_cons.mp listed with same | later
        · rw [same]; exact ⟨a,stamp,low,grown⟩
        · exact rest_ d later
      · obtain ⟨b,stamp',low',-⟩ := tracked d listed
        exact ⟨a,b,stamp,stamp',Nat.lt_of_lt_of_le below low'⟩

section Turns
variable {calls : List Event}

theorem ledgerAt (spaced : SpacedDrains calls) (resynced : Resyncs calls) (n : Nat) :
    ∃ origin next, Ledger (at' calls n) origin next := by
  induction n with
  | zero => exact ⟨0,0,bootLedger⟩
  | succ n ih =>
    obtain ⟨origin,next,l⟩ := ih
    cases here : calls[n]? with
    | none => rw [at',stateEnd step _ here]; exact ⟨origin,next,l⟩
    | some e =>
      obtain ⟨inside,same⟩ := List.getElem?_eq_some_iff.mp here
      obtain ⟨origin',next',kept,-⟩ := stepKeeps l (spaced n (by omega)) (resynced n inside)
      rw [at',stateNext step _ here,← same]
      exact ⟨origin',next',kept⟩

/-- The turns a running drain has to go, at most. -/
def turnsLeft (r : Ring) : Nat :=
  match r.place with
  | .loop head => 5*((head+dmaRxBufSize-r.tail) % dmaRxBufSize)+1
  | .reply head sends => 5*((head+dmaRxBufSize-r.tail) % dmaRxBufSize)+sends+2
  | _ => 0

theorem turnsBounded {r : Ring} {origin next : Nat} (l : Ledger r origin next) : turnsLeft r ≤ drainTurns := by
  unfold turnsLeft drainTurns dmaRxBufSize
  split
  · omega
  · rename_i head sends place
    have few := l.sends head sends place
    obtain ⟨last,d⟩ := l.drains head (by rw [place]; rfl)
    omega
  · omega

theorem turnsRunning {r : Ring} (running : r.place.head ≠ none) : 0 < turnsLeft r := by
  cases here : r.place with
  | main => exact absurd (by rw [here]; rfl) running
  | loop head => simp [turnsLeft,here]
  | reply head sends => simp [turnsLeft,here]
  | reset => exact absurd (by rw [here]; rfl) running

theorem stepTurns {r : Ring} {origin next : Nat} {e : Event} (l : Ledger r origin next) (resynced : Resynced r e)
    (running : r.place.head ≠ none) (goes : (step r e).1.place.head ≠ none) :
    turnsLeft (step r e).1 + (if e.isCpu then 1 else 0) ≤ turnsLeft r := by
  cases e with
  | arrive b => exact Nat.le_refl _
  | reload =>
    have same : turnsLeft (reload r) = turnsLeft r := by unfold reload; split <;> rfl
    exact Nat.le_of_eq same
  | cpu drains sent =>
    have size : dmaRxBufSize = 256 := rfl
    have tail := l.tail
    cases here : r.place with
    | main => exact absurd (by rw [here]; rfl) running
    | reset => exact absurd (by rw [here]; rfl) running
    | loop head =>
      have moved : step r (.cpu drains sent) = drainTurn r head := by simp [step,turn,here]
      obtain ⟨last,d⟩ := l.drains head (by rw [here]; rfl)
      have head_ := d.head
      have before : turnsLeft r = 5*((head+dmaRxBufSize-r.tail) % dmaRxBufSize)+1 := by simp only [turnsLeft,here]
      by_cases more : r.tail ≠ head
      · rw [moved,turnRead more] at goes ⊢
        rw [before]
        cases place : handled head (WupsDeframers.Ch32x.wupsRxByte r.rx (r.buf r.tail).value).2 with
        | main => exact absurd (by simp only [place]; rfl) goes
        | reset => exact absurd (by simp only [place]; rfl) goes
        | loop head' =>
          have kept := headHandled head (WupsDeframers.Ch32x.wupsRxByte r.rx (r.buf r.tail).value).2
          simp only [place,Place.head,Option.some.injEq,or_false,reduceCtorEq] at kept
          simp only [turnsLeft,Event.isCpu,if_true,kept,size]
          omega
        | reply head' sends =>
          have kept := headHandled head (WupsDeframers.Ch32x.wupsRxByte r.rx (r.buf r.tail).value).2
          simp only [place,Place.head,Option.some.injEq,or_false,reduceCtorEq] at kept
          have few := handledSends place
          simp only [turnsLeft,Event.isCpu,if_true,kept,size]
          omega
      · refine absurd ?_ goes
        rw [moved,drainTurn,if_neg more]
        rfl
    | reply head sends =>
      cases sends with
      | zero =>
        have moved : step r (.cpu drains sent) = ({ r with place := .loop head },none) := by simp [step,turn,here]
        rw [moved]
        simp only [turnsLeft,here,Event.isCpu,if_true]
        omega
      | succ sends =>
        have moved : step r (.cpu drains sent) = ({ usart2SendBytes r sent with place := .reply head sends },none) := by
          simp [step,turn,here]
        simp only [Resynced,here] at resynced
        rw [moved]
        simp only [turnsLeft,here,Event.isCpu,if_true]
        by_cases again : (tcTimeoutsAfter r.tcTimeouts sent).2 = true
        · have tail_ : (usart2SendBytes r sent).tail = 0 := by unfold usart2SendBytes; rw [if_pos again]
          rw [tail_,resynced again,size]
          omega
        · have tail_ : (usart2SendBytes r sent).tail = r.tail := by unfold usart2SendBytes; rw [if_neg again]
          rw [tail_]
          omega

theorem turnsRun (spaced : SpacedDrains calls) (resynced : Resyncs calls) {n m : Nat} (ordered : n ≤ m)
    (running : ∀ k, n ≤ k → k ≤ m → (at' calls k).place.head ≠ none) :
    turnsLeft (at' calls m) + ((calls.take m).drop n).countP Event.isCpu ≤ turnsLeft (at' calls n) := by
  induction m, ordered using Nat.le_induction with
  | base => simp
  | succ m late ih =>
    have before := ih (fun k low high => running k low (Nat.le_succ_of_le high))
    rw [List.take_add_one]
    cases here : calls[m]? with
    | none =>
      rw [at',stateEnd step _ here,Option.toList_none,List.append_nil]
      exact before
    | some e =>
      obtain ⟨inside,same⟩ := List.getElem?_eq_some_iff.mp here
      obtain ⟨origin,next,l⟩ := ledgerAt spaced resynced m
      have moved : at' calls (m+1) = (step (at' calls m) e).1 := stateNext step _ here
      have goes := running (m+1) (Nat.le_succ_of_le late) (Nat.le_refl _)
      rw [moved] at goes
      have turned := stepTurns l (by rw [← same]; exact resynced m inside) (running m late (Nat.le_succ m)) goes
      rw [Option.toList_some,List.drop_append_of_le_length (by rw [List.length_take]; omega),List.countP_append,
        List.countP_singleton,moved]
      omega

/-- As long as no drain outlives its head, the deframer is fed what came, once and in
order, and every drain ends. -/
theorem ringSound (calls : List Event) (spaced : SpacedDrains calls) (resynced : Resyncs calls) :
    RingSound calls := by
  obtain ⟨tracked,ordered⟩ := readInOrder bootLedger spaced resynced
  refine ⟨fun c listed => ?_,ordered,fun n m enough => ?_⟩
  · obtain ⟨a,stamp,-,value⟩ := tracked c listed
    rw [receivedRun] at value
    exact ⟨a,stamp,value⟩
  · by_contra never
    push Not at never
    have ordered : n ≤ m := by
      by_contra late
      have short : (calls.take m).drop n = [] := List.drop_eq_nil_of_le (by rw [List.length_take]; omega)
      rw [short] at enough
      exact absurd enough (by decide)
    obtain ⟨origin,next,l⟩ := ledgerAt spaced resynced n
    have counted := turnsRun spaced resynced ordered never
    have still := turnsRunning (never m ordered (Nat.le_refl m))
    have most := turnsBounded l
    omega

end Turns

theorem ringSoundTwoBytes :
    let calls := [.arrive 1,.arrive 2,.cpu true .complete,.arrive 3] ++ List.replicate 3 (.cpu false .complete)
    fed calls = [⟨1,some 0⟩,⟨2,some 1⟩] ∧ RingSound calls :=
  ⟨by decide +kernel,ringSound _ (by unfold SpacedDrains; decide +kernel) (by unfold Resyncs; decide +kernel)⟩

/-- A system.ping with its guard byte. -/
def pingBytes : Bytes := [0xAA,0x55,0x03,0x02,0x01,0x01,0x01,0x07,0x00,0x00,0x0F,0x4A,0x55,0xAA,0x00]

/-- Seven sends have run into the guard when the ping is read, and so does the header of its reply. -/
def stuckReply : List Event :=
  List.replicate 7 (.cpu false (.timedOut false)) ++ pingBytes.map Event.arrive ++ [.cpu true .complete] ++
    List.replicate 14 (.cpu false .complete) ++ [.cpu false (.timedOut false)] ++
    List.replicate 4 (.cpu false .complete)

/-- After the restart the drain goes on from cell 0 to its old head: the ping is read again. -/
theorem pingReadTwice : ¬ (∀ calls, SpacedDrains calls → RingSound calls) := by
  intro sound
  have spaced : SpacedDrains stuckReply := by unfold SpacedDrains; decide +kernel
  have again : [⟨0xAA,some 13⟩,⟨0xAA,some 0⟩].Sublist (fed stuckReply) := by decide +kernel
  have ordered := (sound stuckReply spaced).ordered.sublist again
  obtain ⟨a,b,first,second,less⟩ := (List.pairwise_cons.mp ordered).1 _ (List.mem_singleton.mpr rfl)
  cases first
  cases second
  exact absurd less (by decide)

/-! The other end of the counter: a drain that takes its head while CNTR stands at 0
goes for 256, which the read index never is. -/

theorem tailInside {r : Ring} (e : Event) (inside : r.tail < dmaRxBufSize) : (step r e).1.tail < dmaRxBufSize := by
  have sends : ∀ sent, (usart2SendBytes r sent).tail < dmaRxBufSize := by
    intro sent; unfold usart2SendBytes; dsimp only; split
    · exact Nat.zero_lt_succ 255
    · exact inside
  cases e with
  | arrive b => exact inside
  | reload => simp only [step,reload]; split <;> exact inside
  | cpu drains sent =>
    simp only [step,turn]
    split
    · cases drains
      · exact sends sent
      · exact inside
    · unfold drainTurn; split
      · exact Nat.mod_lt _ (by decide)
      · exact inside
    · exact inside
    · exact sends sent
    · exact inside

theorem beyondKept {r : Ring} (e : Event) (inside : r.tail < dmaRxBufSize)
    (beyond : r.place.head = some dmaRxBufSize ∨ r.place = .reset) :
    (step r e).1.place.head = some dmaRxBufSize ∨ (step r e).1.place = .reset := by
  cases e with
  | arrive b => exact beyond
  | reload =>
    have same : (reload r).place = r.place := by unfold reload; split <;> rfl
    simp only [step,same]; exact beyond
  | cpu drains sent =>
    cases here : r.place with
    | main => rw [here] at beyond; exact absurd beyond (by simp [Place.head])
    | reset => simp only [step,turn,here]; exact .inr trivial
    | loop head =>
      have far : head = dmaRxBufSize := by simpa [here,Place.head] using beyond
      have moved : step r (.cpu drains sent) = drainTurn r head := by simp [step,turn,here]
      rw [moved,turnRead (by omega)]
      unfold handled
      split
      · exact .inl (by rw [far]; rfl)
      · split
        · exact .inr rfl
        · exact .inl (by rw [far]; rfl)
    | reply head sends =>
      have far : head = dmaRxBufSize := by simpa [here,Place.head] using beyond
      cases sends with
      | zero => simp only [step,turn,here]; exact .inl (by rw [far]; rfl)
      | succ sends => simp only [step,turn,here]; exact .inl (by rw [far]; rfl)

theorem neverReturns {calls : List Event} {n m : Nat} {sent : SendEnd} (main : (at' calls n).place = .main)
    (empty : (at' calls n).cntr = 0) (drains : calls[n]? = some (.cpu true sent)) (later : n < m) :
    (at' calls m).place ≠ .main := by
  have inside : ∀ k, (at' calls k).tail < dmaRxBufSize := fun k =>
    keepsBetween step .boot calls (m := 0) (P := fun r => r.tail < dmaRxBufSize)
      (Nat.zero_lt_succ 255) (Nat.zero_le k)
      (fun _ e _ _ _ before => tailInside e before)
  have begun : (at' calls (n+1)).place.head = some dmaRxBufSize := by
    have moved : step (at' calls n) (.cpu true sent) = (cmdRxDrain (at' calls n),none) := by
      simp only [step,turn,main]; rfl
    rw [at',stateNext step _ drains,moved]
    simp only [cmdRxDrain,empty,Place.head,Nat.sub_zero]
  have kept := keepsBetween step .boot calls
    (P := fun r => r.place.head = some dmaRxBufSize ∨ r.place = .reset) (.inl begun) (Nat.succ_le_of_lt later)
    (fun k e _ _ _ before => beyondKept e (inside k) before)
  intro back
  rcases kept with running | gone
  · exact absurd (congrArg Place.head back) (by rw [running]; simp [Place.head])
  · exact absurd (back.symm.trans gone) (by simp)

end Web3PiUps.Ch32xRxOrder
