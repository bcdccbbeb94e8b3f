import Web3PiUps.Ch32xPdSteps

/-! A Request from its reception to PS_RDY, in runs without power commands. -/
namespace Web3PiUps.Ch32xNegotiation
open Ch32xPdSource Ch32xMainLoop Ch32xPdSteps StepMachine

def Offered (idx : UInt8) : Prop := ¬ (idx = 0 ∨ idx > 4)
instance (idx) : Decidable (Offered idx) := by unfold Offered; infer_instance

/-- The dispatch takes the message in the buffer, of type `t`. -/
def Dispatching (l : Loop) (op : Op) (t : MsgType) : Prop :=
  ∃ s hw, l.place = .dispatch s ∧ op = .run hw ∧ l.port.msgRecvd = true ∧ msgType l.port.rxBuf = t

def Taking (l : Loop) (op : Op) (idx : UInt8) : Prop :=
  Dispatching l op .request ∧ l.port.rxBuf.objectPosition = idx

/-- The VDM discovery that is answered as a Raspberry Pi supply. -/
def Discovering (l : Loop) (op : Op) : Prop :=
  Dispatching l op .vendorDefined ∧ l.port.pdRole = true ∧ l.port.rxBuf.discovery = true

/-- The fifth sink sample, when it starts a connection anew. -/
def Connecting (l : Loop) (op : Op) : Prop :=
  l.place = .detect ∧ l.port.connected = false ∧ l.port.stopDetChk = false ∧ (step l op).1.port.connected = true

/-- The state switch puts a message of its own on the wire, a reset apart, and it is acknowledged. -/
def Sending (l : Loop) (op : Op) : Prop := ∃ s hw, l.place = .service s ∧ op = .run hw ∧ hw.acked = true ∧
  let timer := l.port.commTimer+(l.timMsCnt-l.serviceLast).toUInt16
  (l.port.state = .txSrcCap ∧ timer > 159 ∨ l.port.state = .txAccept ∧ timer > 2 ∨
    l.port.state = .txPsRdy ∧ timer > 19 ∨ l.port.state = .txVdmRpi ∧ timer > 10)

section Runs
variable (ops : List Op)

def StepAt (P : Loop → Op → Prop) (n : Nat) : Prop := ∃ op, ops[n]? = some op ∧ P (at_ ops n) op

def TakenAt (n : Nat) (idx : UInt8) : Prop := StepAt ops (fun l op => Taking l op idx) n

/-- A Request for an offered object is received. -/
def ReceivedAt (n : Nat) : Prop := ∃ buf, ops[n]? = some (.message buf) ∧ (at_ ops n).port.listening = true ∧
  msgType buf = .request ∧ Offered buf.objectPosition

/-- What ends a negotiation whose Accept was acknowledged. -/
def EndedAt (n : Nat) : Prop := .psRdyTx ∈ evtsAt ops n ∨ .softrstTx ∈ evtsAt ops n ∨ .hrstTx ∈ evtsAt ops n ∨
  .softrstRx ∈ evtsAt ops n ∨ (∃ idx, Offered idx ∧ TakenAt ops n idx) ∨ DetachedAt ops n

def Unfinished (n k : Nat) : Prop := AcceptedAt ops n ∧ n < k ∧ ∀ j, n < j → j < k → ¬ EndedAt ops j

/-- The Request received at `n` is answered by Accept or a reset. -/
def AnsweredAt (n j : Nat) : Prop := (AcceptedAt ops j ∧ ∃ i idx, n < i ∧ i < j ∧ TakenAt ops i idx) ∨
  .softrstTx ∈ evtsAt ops j ∨ .hrstTx ∈ evtsAt ops j ∨ .softrstRx ∈ evtsAt ops j

def Unanswered (n k : Nat) : Prop := ReceivedAt ops n ∧ n < k ∧ ∀ j, n < j → j < k → ¬ AnsweredAt ops n j

/-- The milliseconds the state switch has counted since a message was last dispatched. -/
def waited : Nat → Nat
  | 0 => 0
  | n+1 =>
    match (at_ ops n).place, ops[n]? with
    | .service _, some (.run _) => waited n+((at_ ops n).timMsCnt-(at_ ops n).serviceLast).toNat
    | .dispatch _, some (.run _) => if (at_ ops n).port.msgRecvd then 0 else waited n
    | _, _ => waited n

def PassesDispatch (n : Nat) : Prop := StepAt ops (fun l op => ∃ s hw, l.place = .dispatch s ∧ op = .run hw) n
def Served (n : Nat) : Prop := StepAt ops (fun l op => ∃ s hw, l.place = .service s ∧ op = .run hw) n

structure Completed : Prop where
  finished : ∀ n k, Unfinished ops n k →
    (at_ ops k).port.state = .txPsRdy ∨ (at_ ops k).port.state = .txSoftRst ∨ (at_ ops k).port.state = .txHrst
  answered : ∀ n d m k, ReceivedAt ops n → n < d → PassesDispatch ops d → d < m → waited ops m ≥ 3 →
    Served ops m → m < k → ∃ j, n < j ∧ j < k ∧ AnsweredAt ops n j
  setpoint : ∀ k message acked, .sent typePsRdy message acked ∈ evtsAt ops k →
    ∃ i n idx, i < n ∧ n < k ∧ Offered idx ∧ TakenAt ops i idx ∧ AcceptedAt ops n ∧
      (∀ j idx, i < j → j < n → ¬ TakenAt ops j idx) ∧ (∀ j, n < j → j < k → ¬ AcceptedAt ops j) ∧
      (at_ ops k).port.rail.voltageSet = (pdoSetpoint idx).1

/-- The runs in which nothing diverts the state from a Request. -/
structure Undiverted : Prop where
  noDiscovery : ∀ n k, Unfinished ops n k ∨ Unanswered ops n k → ¬ StepAt ops Discovering k
  noConnect : ∀ n k, Unfinished ops n k ∨ Unanswered ops n k → ¬ StepAt ops Connecting k
  noDetach : ∀ n k, Unanswered ops n k → (at_ ops k).port.state ≠ .disconnect
  inTime : ∀ n s, ReceivedAt ops n → (at_ ops n).place ≠ .tail s
  unshadowed : ∀ n k, Unanswered ops n k → (∀ i idx, n < i → i < k → ¬ TakenAt ops i idx) →
    ¬ StepAt ops Sending k ∧ ∀ buf, ops[k]? = some (.message buf) → (at_ ops k).port.listening = false

end Runs

/-- From `STA_TX_ACCEPT`, `STA_TX_PS_RDY` or one of the resets. -/
inductive Advanced (l : Loop) (op : Op) (state : Sta) (evts : List Evt) : Prop
  | same : state = l.port.state → Advanced l op state evts
  | accepted : Accepting l op → state = .txPsRdy → Advanced l op state evts
  | acceptLost : l.port.state = .txAccept → state = .txSoftRst → Advanced l op state evts
  | ready : l.port.state = .txPsRdy → .psRdyTx ∈ evts → Advanced l op state evts
  | readyLost : l.port.state = .txPsRdy → state = .txSoftRst → Advanced l op state evts
  | softRst : .softrstTx ∈ evts → Advanced l op state evts
  | hrst : .hrstTx ∈ evts → Advanced l op state evts
  | softReset : .softrstRx ∈ evts → Advanced l op state evts
  | request (idx) : Taking l op idx → Offered idx → state = .txAccept → Advanced l op state evts
  | invalid (idx) : Taking l op idx → state = .txHrst → Advanced l op state evts
  | detached : l.place = .detect → l.port.connected = true → (step l op).1.port.connected = false →
      state = .disconnect → Advanced l op state evts

def Negotiates (s : Sta) : Prop := s = .txAccept ∨ s = .txPsRdy ∨ s = .txSoftRst ∨ s = .txHrst

instance (s) : Decidable (Negotiates s) := by unfold Negotiates; infer_instance

/-- No power command, nor what is left of one. -/
structure Untouched (l : Loop) (op : Op) : Prop where
  noCommand : ∀ hw, op = .run hw → l.place = .drain → hw.power = none
  noWait : l.powercycleWait = false

theorem switchAdvanced {l : Loop} {s : Service} {hw : Hw} {p' : Port} {evts : List Evt} (place : l.place = .service s)
    (h : Switched (l.timMsCnt-l.serviceLast) hw.acked l.port p' evts) (negotiates : Negotiates l.port.state) :
    Advanced l (.run hw) p'.state evts := by
  have other : ∀ {t}, l.port.state = t → ¬ Negotiates t → False := fun here no => no (here ▸ negotiates)
  cases h with
  | disconnect state | ready state | srcCap state | srcCapLost state | timeout _ state | vdm state =>
    exact (other state (by decide)).elim
  | still | wait => exact .same rfl
  | accepted state due acked => exact .accepted ⟨s,hw,place,rfl,state,due,acked⟩ rfl
  | acceptLost state => exact .acceptLost state rfl
  | psRdy state => exact .ready state (by simp)
  | psRdyLost state => exact .readyLost state rfl
  | softRst state => exact .softRst (by simp)
  | hrst state => exact .hrst (by simp)

theorem dispatchAdvanced {l : Loop} {s : Service} {hw : Hw} {p' : Port} {evts : List Evt}
    (place : l.place = .dispatch s) (waiting : l.port.msgRecvd = true) (h : Dispatched hw.acked l.port p' evts)
    (negotiates : Negotiates l.port.state) (noDiscovery : ¬ Discovering l (.run hw)) :
    Advanced l (.run hw) p'.state evts := by
  have other : ∀ {t}, l.port.state = t → ¬ Negotiates t → False := fun here no => no (here ▸ negotiates)
  cases h with
  | accept | eprRequest | swapWait | passed | answered => exact .same rfl
  | acceptAwaited _ state => exact (other state (by decide)).elim
  | invalid is bad => exact .invalid _ ⟨⟨s,hw,place,rfl,waiting,is⟩,rfl⟩ rfl
  | request _ is good => exact .request _ ⟨⟨s,hw,place,rfl,waiting,is⟩,rfl⟩ good rfl
  | softReset => exact .softReset (by simp)
  | swapped _ _ state | swapLost _ _ state | duplicate _ _ state => exact (other state (by decide)).elim
  | discovery is role found => exact absurd ⟨⟨s,hw,place,rfl,waiting,is⟩,role,found⟩ noDiscovery

theorem didAdvanced {l : Loop} {op : Op} {p' : Port} {evts : List Evt} (h : Did l op p' evts)
    (port : (step l op).1.port = p') (negotiates : Negotiates l.port.state) (untouched : Untouched l op)
    (noDiscovery : ¬ Discovering l op) (noConnect : ¬ Connecting l op) : Advanced l op p'.state evts := by
  cases h with
  | quiet | detTimer | tail | tps => exact .same rfl
  | message buf =>
    obtain ⟨_,_,_,eq⟩ := messageKeeps buf l.port
    rw [eq]; exact .same rfl
  | hardReset =>
    obtain ⟨_,_,eq⟩ := hardResetKeeps l.port
    rw [eq]; exact .same rfl
  | enable hw place wanted => exact nomatch wanted.symm.trans (untouched.noCommand hw rfl place)
  | disable hw power place wanted => exact nomatch wanted.symm.trans (untouched.noCommand hw rfl place)
  | cycleOn hw place waiting => exact nomatch waiting.symm.trans untouched.noWait
  | detProc hw place due =>
    have sampled := detProcSampled hw.cc { l.port with detTimer := 0 }
    revert port
    generalize (pdDetProc hw.cc { l.port with detTimer := 0 }).1 = p',
      (pdDetProc hw.cc { l.port with detTimer := 0 }).2 = evts at sampled
    intro port
    cases sampled with
    | present | missing | lost | absent | found | ignored => exact .same rfl
    | detached joined => exact .detached place joined (by rw [port]) rfl
    | attached _ apart _ _ checking => exact absurd ⟨place,apart,checking,by rw [port]; rfl⟩ noConnect
  | switch s hw place => exact switchAdvanced place (switchSwitched _ _ _) negotiates
  | dispatch s hw place waiting =>
    exact dispatchAdvanced place waiting (dispatchDispatched _ _) negotiates noDiscovery

theorem acceptingNext {l : Loop} {op : Op} (h : Accepting l op) : (step l op).1.port =
    { (pdSend typeAccept [] true l.port).1 with
      rail := tps55289Apply (pdoSetpoint l.port.reqPdoIdx).1 (pdoSetpoint l.port.reqPdoIdx).2 l.port.rail
      state := .txPsRdy
      commTimer := 0 } := by
  obtain ⟨s,hw,place,rfl,state,due,acked⟩ := h
  simp only [serviceStep hw place,mainSwitch,state,if_pos due,acked,if_pos]
  rfl

section Runs
variable {ops : List Op}

theorem untouchedAt (unasked : ∀ n power, ¬ CommandAt ops n power) {n : Nat} {op : Op} (here : ops[n]? = some op) :
    Untouched (at_ ops n) op := by
  refine ⟨?_,?_⟩
  · intro hw ran place
    cases wanted : hw.power with
    | none => rfl
    | some power => exact absurd ⟨place,hw,ran ▸ here,wanted⟩ (unasked n power)
  · clear here
    induction n with
    | zero => rfl
    | succ n ih =>
      rcases waitAt ops n with same | ⟨command,-⟩ | on
      · exact same.trans ih
      · exact absurd command (unasked n _)
      · exact on.2.2

theorem advancedAt (unasked : ∀ n power, ¬ CommandAt ops n power) {n : Nat} {op : Op} (here : ops[n]? = some op)
    (negotiates : Negotiates (at_ ops n).port.state) (noDiscovery : ¬ StepAt ops Discovering n)
    (noConnect : ¬ StepAt ops Connecting n) :
    Advanced (at_ ops n) op (at_ ops (n+1)).port.state (evtsAt ops n) := by
  rw [atNext here,evtsHere here]
  exact didAdvanced (stepDid _ op) rfl negotiates (untouchedAt unasked here)
    (fun found => noDiscovery ⟨op,here,found⟩) (fun found => noConnect ⟨op,here,found⟩)

def Finishing (s : Sta) : Prop := s = .txPsRdy ∨ s = .txSoftRst ∨ s = .txHrst

theorem finishingKept (unasked : ∀ n power, ¬ CommandAt ops n power) {n : Nat}
    (finishing : Finishing (at_ ops n).port.state) (goesOn : ¬ EndedAt ops n)
    (noDiscovery : ¬ StepAt ops Discovering n) (noConnect : ¬ StepAt ops Connecting n) :
    Finishing (at_ ops (n+1)).port.state := by
  have notAccept : (at_ ops n).port.state ≠ .txAccept := by
    intro state
    rw [state] at finishing
    rcases finishing with h | h | h <;> exact nomatch h
  cases here : ops[n]? with
  | none => rw [stays here]; exact finishing
  | some op =>
    cases advancedAt unasked here (Or.inr finishing) noDiscovery noConnect with
    | same kept => rw [kept]; exact finishing
    | accepted accepting =>
      obtain ⟨-,-,-,-,state,-⟩ := accepting
      exact absurd state notAccept
    | acceptLost state => exact absurd state notAccept
    | ready _ sent => exact absurd (Or.inl sent) goesOn
    | readyLost _ state => exact Or.inr (Or.inl state)
    | softRst sent => exact absurd (Or.inr (Or.inl sent)) goesOn
    | hrst sent => exact absurd (Or.inr (Or.inr (Or.inl sent))) goesOn
    | softReset got => exact absurd (Or.inr (Or.inr (Or.inr (Or.inl got)))) goesOn
    | request idx taking offered =>
      exact absurd (Or.inr (Or.inr (Or.inr (Or.inr (Or.inl ⟨idx,offered,op,here,taking⟩))))) goesOn
    | invalid _ _ state => exact Or.inr (Or.inr state)
    | detached place joined apart =>
      rw [← atNext here] at apart
      exact absurd (Or.inr (Or.inr (Or.inr (Or.inr (Or.inr ⟨place,joined,apart⟩))))) goesOn

theorem finishedAt (unasked : ∀ n power, ¬ CommandAt ops n power) (undiverted : Undiverted ops) {n k : Nat}
    (unfinished : Unfinished ops n k) : Finishing (at_ ops k).port.state := by
  obtain ⟨⟨op,here,accepting⟩,low,goesOn⟩ := unfinished
  induction k, low using Nat.le_induction with
  | base =>
    rw [atNext here,acceptingNext accepting]
    exact Or.inl rfl
  | succ k low ih =>
    have before := ih (fun j a b => goesOn j a (by omega))
    have window : Unfinished ops n k := ⟨⟨op,here,accepting⟩,low,fun j a b => goesOn j a (by omega)⟩
    exact finishingKept unasked before (goesOn k (by omega) (Nat.lt_succ_self k))
      (undiverted.noDiscovery n k (Or.inl window)) (undiverted.noConnect n k (Or.inl window))

end Runs

/-! How `STA_TX_ACCEPT` is reached and kept. -/

inductive ToAccept (l : Loop) (op : Op) (p' : Port) : Prop
  | taken : Taking l op p'.reqPdoIdx → Offered p'.reqPdoIdx → p'.commTimer = 0 → ToAccept l op p'
  | waits (s hw) : l.place = .service s → op = .run hw → l.port.state = .txAccept →
      ¬ l.port.commTimer+(l.timMsCnt-l.serviceLast).toUInt16 > 2 →
      p'.commTimer = l.port.commTimer+(l.timMsCnt-l.serviceLast).toUInt16 → p'.reqPdoIdx = l.port.reqPdoIdx →
      ToAccept l op p'
  | kept : l.port.state = .txAccept → (∀ s hw, l.place = .service s → op ≠ .run hw) → (∀ idx, ¬ Taking l op idx) →
      (p'.commTimer = 0 ∧ Dispatching l op .accept ∨ p'.commTimer = l.port.commTimer) →
      p'.reqPdoIdx = l.port.reqPdoIdx → ToAccept l op p'

theorem switchToAccept {l : Loop} {s : Service} {hw : Hw} {p' : Port} {evts : List Evt} (place : l.place = .service s)
    (h : Switched (l.timMsCnt-l.serviceLast) hw.acked l.port p' evts) (state' : p'.state = .txAccept) :
    ToAccept l (.run hw) p' := by
  cases h with
  | still state => rw [state'] at state; simp at state
  | wait _ _ _ early => exact .waits s hw place rfl state' (early state') rfl rfl
  | srcCapLost state => exact nomatch state.symm.trans state'
  | softRst =>
    dsimp only at state'
    split at state' <;> exact nomatch state'
  | disconnect | ready | srcCap | timeout | accepted | acceptLost | psRdy | psRdyLost | hrst | vdm =>
    exact nomatch state'

theorem dispatchToAccept {l : Loop} {s : Service} {hw : Hw} {p' : Port} {evts : List Evt}
    (place : l.place = .dispatch s) (waiting : l.port.msgRecvd = true) (h : Dispatched hw.acked l.port p' evts)
    (state' : p'.state = .txAccept) : ToAccept l (.run hw) p' := by
  have apart : ∀ s' hw', l.place = .service s' → Op.run hw ≠ .run hw' := fun _ _ here => nomatch place.symm.trans here
  have plain : msgType l.port.rxBuf ≠ .request → ∀ idx, ¬ Taking l (.run hw) idx := by
    rintro no idx ⟨⟨_,_,_,_,_,is⟩,-⟩
    exact no is
  cases h with
  | accept is => exact .kept state' apart (plain (is ▸ nofun)) (Or.inl ⟨rfl,s,hw,place,rfl,waiting,is⟩) rfl
  | request _ is offered => exact .taken ⟨⟨s,hw,place,rfl,waiting,is⟩,rfl⟩ offered rfl
  | eprRequest is | swapWait is => exact .kept state' apart (plain (is ▸ nofun)) (Or.inr rfl) rfl
  | passed no => exact .kept state' apart (plain no) (Or.inr rfl) rfl
  | answered _ _ _ _ no => exact .kept state' apart (plain no) (Or.inr rfl) rfl
  | swapped _ _ state | duplicate _ _ state => exact nomatch state.symm.trans state'
  | acceptAwaited | invalid | softReset | swapLost | discovery => exact nomatch state'

theorem didToAccept {l : Loop} {op : Op} {p' : Port} {evts : List Evt} (h : Did l op p' evts)
    (untouched : Untouched l op) (state' : p'.state = .txAccept) : ToAccept l op p' := by
  have kept : p'.commTimer = l.port.commTimer → p'.reqPdoIdx = l.port.reqPdoIdx → p'.state = l.port.state →
      (∀ hw, op = .run hw → (∀ s, l.place ≠ .service s) ∧ ∀ s, l.place = .dispatch s → l.port.msgRecvd = false) →
      ToAccept l op p' := by
    intro timer idx state elsewhere
    refine .kept (state.symm.trans state') ?_ ?_ (Or.inr timer) idx
    · exact fun s hw place ran => (elsewhere hw ran).1 s place
    · rintro idx ⟨⟨s,hw,place,ran,waiting,-⟩,-⟩
      exact nomatch waiting.symm.trans ((elsewhere hw ran).2 s place)
  have away : ∀ {place}, l.place = place → (∀ s, place ≠ .service s) → (∀ s, place ≠ .dispatch s) →
      ∀ hw, op = .run hw → (∀ s, l.place ≠ .service s) ∧ ∀ s, l.place = .dispatch s → l.port.msgRecvd = false :=
    fun here a b _ _ => ⟨fun s => here ▸ a s,fun s there => absurd (here.symm.trans there) (b s)⟩
  cases h with
  | quiet _ apart =>
    exact kept rfl rfl rfl (fun hw ran => (apart hw ran).2)
  | message buf =>
    obtain ⟨_,_,_,eq⟩ := messageKeeps buf l.port
    rw [eq] at kept
    rw [eq]
    exact kept rfl rfl rfl nofun
  | hardReset =>
    obtain ⟨_,_,eq⟩ := hardResetKeeps l.port
    rw [eq] at kept; rw [eq]; exact kept rfl rfl rfl nofun
  | enable => exact nomatch state'
  | disable hw power place wanted => exact nomatch wanted.symm.trans (untouched.noCommand hw rfl place)
  | cycleOn => exact nomatch state'
  | detTimer hw place => exact kept rfl rfl rfl (away place nofun nofun)
  | tail s hw place => exact kept rfl rfl rfl (away place nofun nofun)
  | tps hw place => exact kept rfl rfl rfl (away place nofun nofun)
  | detProc hw place due =>
    have sampled := detProcSampled hw.cc { l.port with detTimer := 0 }
    revert kept state'
    generalize (pdDetProc hw.cc { l.port with detTimer := 0 }).1 = p',
      (pdDetProc hw.cc { l.port with detTimer := 0 }).2 = evts at sampled
    intro state' kept
    cases sampled with
    | present | missing | lost | absent | found | ignored => exact kept rfl rfl rfl (away place nofun nofun)
    | detached | attached => exact nomatch state'
  | switch s hw place => exact switchToAccept place (switchSwitched _ _ _) state'
  | dispatch s hw place waiting => exact dispatchToAccept place waiting (dispatchDispatched _ _) state'

section Runs
variable {ops : List Op}

/-- In `STA_TX_ACCEPT`: the Request last taken is the one to accept, and its wait is short. -/
structure Accepts (ops : List Op) (k : Nat) : Prop where
  taken : ∃ i, i < k ∧ TakenAt ops i (at_ ops k).port.reqPdoIdx ∧ ∀ j idx, i < j → j < k → ¬ TakenAt ops j idx
  offered : Offered (at_ ops k).port.reqPdoIdx
  early : ¬ (at_ ops k).port.commTimer > 2
  counted : waited ops k ≤ (at_ ops k).port.commTimer.toNat

theorem notTaken {n : Nat} {op : Op} (here : ops[n]? = some op) (not : ∀ idx, ¬ Taking (at_ ops n) op idx) (idx : UInt8) :
    ¬ TakenAt ops n idx := by
  rintro ⟨op',here',taking⟩
  cases here.symm.trans here'
  exact not idx taking

theorem waitedTaken {n : Nat} {op : Op} {t : MsgType} (here : ops[n]? = some op) (taking : Dispatching (at_ ops n) op t) :
    waited ops (n+1) = 0 := by
  obtain ⟨s,hw,place,rfl,waiting,-⟩ := taking
  rw [waited]
  simp only [place,here,waiting,if_pos]

theorem waitedServed {n : Nat} {s : Service} {hw : Hw} (here : ops[n]? = some (.run hw))
    (place : (at_ ops n).place = .service s) :
    waited ops (n+1) = waited ops n+((at_ ops n).timMsCnt-(at_ ops n).serviceLast).toNat := by
  rw [waited]
  simp only [place,here]

theorem waitedElse {n : Nat} (elsewhere : ∀ hw s, ops[n]? = some (.run hw) → (at_ ops n).place ≠ .service s) :
    waited ops (n+1) ≤ waited ops n := by
  rw [waited]
  split
  · next s hw place here => exact absurd place (elsewhere hw s here)
  · split
    · exact Nat.zero_le _
    · exact Nat.le_refl _
  · exact Nat.le_refl _

theorem acceptTimer {timer : UInt16} {dlt : UInt8} (early : ¬ timer > 2) :
    (timer+dlt.toUInt16).toNat = timer.toNat+dlt.toNat := by
  have low : timer.toNat ≤ 2 := UInt16.le_iff_toNat_le.mp (UInt16.not_lt.mp early)
  have step_ : dlt.toNat < 256 := dlt.toNat_lt
  rw [UInt16.toNat_add,UInt8.toNat_toUInt16]
  exact Nat.mod_eq_of_lt (by omega)

theorem acceptsAt (unasked : ∀ n power, ¬ CommandAt ops n power) (k : Nat) :
    (at_ ops k).port.state = .txAccept → Accepts ops k := by
  induction k with
  | zero => exact nofun
  | succ k ih =>
    intro state'
    cases here : ops[k]? with
    | none =>
      rw [stays here] at state'
      obtain ⟨⟨i,low,taken,last⟩,offered,early,counted⟩ := ih state'
      have none_ : ∀ idx, ¬ TakenAt ops k idx := fun idx ⟨op,here',_⟩ => nomatch here.symm.trans here'
      have same := stays here
      refine ⟨⟨i,by omega,by rw [same]; exact taken,fun j idx a b => ?_⟩,by rw [same]; exact offered,
        by rw [same]; exact early,?_⟩
      · by_cases end_ : j = k
        · exact end_ ▸ none_ idx
        · exact last j idx a (by omega)
      · rw [same]
        exact (waitedElse (fun hw s there => nomatch here.symm.trans there)).trans counted
    | some op =>
      rw [atNext here] at state'
      have arrives := didToAccept (stepDid (at_ ops k) op) (untouchedAt unasked here) state'
      rw [← atNext here] at arrives
      have last : ∀ {i}, (∀ j idx, i < j → j < k → ¬ TakenAt ops j idx) → (∀ idx, ¬ Taking (at_ ops k) op idx) →
          ∀ j idx, i < j → j < k+1 → ¬ TakenAt ops j idx := by
        intro i before not j idx a b
        by_cases end_ : j = k
        · exact end_ ▸ notTaken here not idx
        · exact before j idx a (by omega)
      cases arrives with
      | taken taking offered zero =>
        refine ⟨⟨k,Nat.lt_succ_self k,⟨op,here,taking⟩,fun j _ a b => by omega⟩,offered,?_,?_⟩
        · rw [zero]; decide
        · rw [waitedTaken here taking.1]; exact Nat.zero_le _
      | waits s hw place ran state early timer idx =>
        obtain ⟨⟨i,low,taken,before⟩,offered,was,counted⟩ := ih state
        have not : ∀ idx, ¬ Taking (at_ ops k) op idx := by
          rintro idx ⟨⟨_,_,there,-⟩,-⟩
          exact nomatch place.symm.trans there
        refine ⟨⟨i,by omega,idx ▸ taken,last before not⟩,idx ▸ offered,by rw [timer]; exact early,?_⟩
        rw [waitedServed (ran ▸ here) place,timer,acceptTimer was]
        omega
      | kept state away not timer idx =>
        obtain ⟨⟨i,low,taken,before⟩,offered,was,counted⟩ := ih state
        have less : waited ops (k+1) ≤ waited ops k :=
          waitedElse (fun hw s there place => away s hw place (Option.some.inj (here.symm.trans there)))
        refine ⟨⟨i,by omega,idx ▸ taken,last before not⟩,idx ▸ offered,?_,?_⟩
        · rcases timer with ⟨zero,-⟩ | same
          · rw [zero]; decide
          · rw [same]; exact was
        · rcases timer with ⟨-,dispatching⟩ | same
          · rw [waitedTaken here dispatching]; exact Nat.zero_le _
          · rw [same]; exact less.trans counted

structure Buffered (l : Loop) : Prop where
  msgRecvd : l.port.msgRecvd = true
  request : msgType l.port.rxBuf = .request
  offered : Offered l.port.rxBuf.objectPosition
  open_ : ∀ s, l.place ≠ .tail s

def Held (s : Sta) : Prop := s = .txAccept ∨ s = .txSoftRst ∨ s = .txHrst

theorem switchBuffer {l : Loop} {s : Service} {hw : Hw} {p' : Port} {evts : List Evt} (place : l.place = .service s)
    (h : Switched (l.timMsCnt-l.serviceLast) hw.acked l.port p' evts) (open_ : l.port.state ≠ .disconnect)
    (noSend : ¬ Sending l (.run hw)) :
    .softrstTx ∈ evts ∨ .hrstTx ∈ evts ∨ p'.msgRecvd = l.port.msgRecvd ∧ p'.rxBuf = l.port.rxBuf := by
  cases h with
  | disconnect state => exact absurd state open_
  | still | wait | ready | timeout => exact Or.inr (Or.inr ⟨rfl,rfl⟩)
  | srcCap state due acked => exact absurd ⟨s,hw,place,rfl,acked,Or.inl ⟨state,due⟩⟩ noSend
  | accepted state due acked => exact absurd ⟨s,hw,place,rfl,acked,Or.inr (Or.inl ⟨state,due⟩)⟩ noSend
  | psRdy state due acked => exact absurd ⟨s,hw,place,rfl,acked,Or.inr (Or.inr (Or.inl ⟨state,due⟩))⟩ noSend
  | srcCapLost _ _ acked => exact Or.inr (Or.inr ⟨rfl,by simp [pdSend,acked]⟩)
  | acceptLost _ _ acked => exact Or.inr (Or.inr ⟨rfl,by simp [pdSend,acked]⟩)
  | psRdyLost _ _ acked => exact Or.inr (Or.inr ⟨rfl,by simp [pdSend,acked]⟩)
  | softRst => exact Or.inl (by simp)
  | hrst => exact Or.inr (Or.inl (by simp))
  | vdm state due =>
    have acked : hw.acked = false := by
      by_contra acked
      exact noSend ⟨s,hw,place,rfl,by simpa using acked,Or.inr (Or.inr (Or.inr ⟨state,due⟩))⟩
    exact Or.inr (Or.inr ⟨rfl,by simp [pdSend,acked]⟩)

theorem didBuffer {l : Loop} {op : Op} {p' : Port} {evts : List Evt} (h : Did l op p' evts)
    (apart : ¬ ∃ hw s, op = .run hw ∧ (l.place = .dispatch s ∨ l.place = .tail s))
    (open_ : l.port.state ≠ .disconnect) (noSend : ¬ Sending l op)
    (noMessage : ∀ buf, op = .message buf → l.port.listening = false) :
    .softrstTx ∈ evts ∨ .hrstTx ∈ evts ∨ p'.msgRecvd = l.port.msgRecvd ∧ p'.rxBuf = l.port.rxBuf := by
  cases h with
  | quiet | enable | disable | cycleOn | detTimer | tps => exact Or.inr (Or.inr ⟨rfl,rfl⟩)
  | message buf =>
    have deaf : messageReceived buf l.port = l.port := if_pos (by simp [noMessage buf rfl])
    rw [deaf]; exact Or.inr (Or.inr ⟨rfl,rfl⟩)
  | hardReset =>
    obtain ⟨_,_,eq⟩ := hardResetKeeps l.port
    rw [eq]; exact Or.inr (Or.inr ⟨rfl,rfl⟩)
  | detProc hw place due =>
    have sampled := detProcSampled hw.cc { l.port with detTimer := 0 }
    generalize (pdDetProc hw.cc { l.port with detTimer := 0 }).1 = p',
      (pdDetProc hw.cc { l.port with detTimer := 0 }).2 = evts at sampled
    cases sampled with
    | present | missing | lost | absent | found | ignored | detached | attached => exact Or.inr (Or.inr ⟨rfl,rfl⟩)
  | switch s hw place => exact switchBuffer place (switchSwitched _ _ _) open_ noSend
  | dispatch s hw place => exact absurd ⟨hw,s,rfl,Or.inl place⟩ apart
  | tail s hw place => exact absurd ⟨hw,s,rfl,Or.inr place⟩ apart

theorem bufferedTaken {l : Loop} {s : Service} (h : Buffered l) (hw : Hw) (place : l.place = .dispatch s) :
    Taking l (.run hw) l.port.rxBuf.objectPosition ∧ Held (step l (.run hw)).1.port.state := by
  refine ⟨⟨⟨s,hw,place,rfl,h.msgRecvd,h.request⟩,rfl⟩,Or.inl ?_⟩
  have request : (dispatch hw.acked l.port).1 = (handleRequest (unlatched l.port)).1 := by
    simp only [dispatch,h.request]; rfl
  rw [dispatchStep hw place h.msgRecvd]
  rw [request]
  exact congrArg (fun r : Port × List Evt => r.1.state) (if_neg h.offered)

theorem bufferedKept {l : Loop} {op : Op} (h : Buffered l) (away : ¬ ∃ s hw, l.place = .dispatch s ∧ op = .run hw)
    (open_ : l.port.state ≠ .disconnect) (noSend : ¬ Sending l op)
    (noMessage : ∀ buf, op = .message buf → l.port.listening = false) :
    .softrstTx ∈ (step l op).2 ∨ .hrstTx ∈ (step l op).2 ∨ Buffered (step l op).1 := by
  have apart : ¬ ∃ hw s, op = .run hw ∧ (l.place = .dispatch s ∨ l.place = .tail s) := by
    rintro ⟨hw,s,ran,here | tail⟩
    · exact away ⟨s,hw,here,ran⟩
    · exact h.open_ s tail
  refine (didBuffer (stepDid l op) apart open_ noSend noMessage).imp_right (Or.imp_right ?_)
  rintro ⟨waiting,same⟩
  refine ⟨waiting.trans h.msgRecvd,by rw [same]; exact h.request,by rw [same]; exact h.offered,?_⟩
  intro s tail
  rcases placeTail tail with was | ⟨hw,ran,place⟩
  · exact h.open_ s was
  · exact away ⟨s,hw,place,ran⟩

end Runs

section Runs
variable {ops : List Op} {n k : Nat}

theorem heldNegotiates {s : Sta} (held : Held s) : Negotiates s :=
  held.elim Or.inl (fun rest => Or.inr (Or.inr rest))

theorem heldKept (unasked : ∀ n power, ¬ CommandAt ops n power) (undiverted : Undiverted ops)
    (unanswered : Unanswered ops n k) (goesOn : ¬ AnsweredAt ops n k)
    (taken : ∃ i idx, n < i ∧ i < k ∧ TakenAt ops i idx) (open_ : (at_ ops (k+1)).port.state ≠ .disconnect)
    (held : Held (at_ ops k).port.state) : Held (at_ ops (k+1)).port.state := by
  have notReady : (at_ ops k).port.state ≠ .txPsRdy := by
    intro state
    rw [state] at held
    rcases held with h | h | h <;> exact nomatch h
  cases here : ops[k]? with
  | none => rw [stays here]; exact held
  | some op =>
    cases advancedAt unasked here (heldNegotiates held) (undiverted.noDiscovery n k (Or.inr unanswered))
      (undiverted.noConnect n k (Or.inr unanswered)) with
    | same kept => rw [kept]; exact held
    | accepted accepting => exact absurd (Or.inl ⟨⟨op,here,accepting⟩,taken⟩) goesOn
    | acceptLost _ state => exact Or.inr (Or.inl state)
    | ready state => exact absurd state notReady
    | readyLost state => exact absurd state notReady
    | softRst sent => exact absurd (Or.inr (Or.inl sent)) goesOn
    | hrst sent => exact absurd (Or.inr (Or.inr (Or.inl sent))) goesOn
    | softReset got => exact absurd (Or.inr (Or.inr (Or.inr got))) goesOn
    | request _ _ _ state => exact Or.inl state
    | invalid _ _ state => exact Or.inr (Or.inr state)
    | detached _ _ _ state => exact absurd state open_

/-- Not yet answered: still in the buffer, or taken and held. -/
def Pending (ops : List Op) (n k : Nat) : Prop :=
  Buffered (at_ ops k) ∧ (∀ j, n < j → j < k → ¬ PassesDispatch ops j) ∨
  Held (at_ ops k).port.state ∧ ∃ i idx, n < i ∧ i < k ∧ TakenAt ops i idx

theorem receivedBuffered (undiverted : Undiverted ops) (received : ReceivedAt ops n) : Buffered (at_ ops (n+1)) := by
  have inTime := fun s => undiverted.inTime n s received
  obtain ⟨buf,here,listening,request,offered⟩ := received
  have kept : messageReceived buf (at_ ops n).port =
      { (at_ ops n).port with rxBuf := buf, msgRecvd := true, listening := false } := by
    have data : ¬ (buf.b0 &&& 0x1F = 0x01 ∧ buf.b1 &&& 0x70 = 0) := by
      rintro ⟨goodCrc,-⟩
      simp [msgType,goodCrc] at request
    simp only [messageReceived,listening]
    rw [if_neg (by simp),if_neg data]
  rw [atNext here]
  refine ⟨?_,?_,?_,inTime⟩
  · simp only [step,kept]
  · simp only [step,kept]; exact request
  · simp only [step,kept]; exact offered

theorem pendingAt (unasked : ∀ n power, ¬ CommandAt ops n power) (undiverted : Undiverted ops)
    (unanswered : Unanswered ops n k) : Pending ops n k := by
  obtain ⟨received,low,goesOn⟩ := unanswered
  induction k, low using Nat.le_induction with
  | base => exact Or.inl ⟨receivedBuffered undiverted received,fun j a b => by omega⟩
  | succ k low ih =>
    have now : Unanswered ops n k := ⟨received,low,fun j a b => goesOn j a (by omega)⟩
    have next : Unanswered ops n (k+1) := ⟨received,by omega,goesOn⟩
    have open_ := undiverted.noDetach n (k+1) next
    have still := goesOn k low (Nat.lt_succ_self k)
    rcases ih (fun j a b => goesOn j a (by omega)) with ⟨buffered,undispatched⟩ | ⟨held,i,idx,a,b,taken⟩
    · have untaken : ∀ i idx, n < i → i < k → ¬ TakenAt ops i idx := by
        rintro i idx a b ⟨op,here,⟨s,hw,place,ran,-,-⟩,-⟩
        exact undispatched i a b ⟨op,here,s,hw,place,ran⟩
      obtain ⟨noSend,deaf⟩ := undiverted.unshadowed n k now untaken
      by_cases passes : PassesDispatch ops k
      · obtain ⟨op,here,s,hw,place,rfl⟩ := passes
        obtain ⟨taking,held⟩ := bufferedTaken buffered hw place
        rw [← atNext here] at held
        exact Or.inr ⟨held,k,_,low,Nat.lt_succ_self k,⟨_,here,taking⟩⟩
      · have quiet : ∀ j, n < j → j < k+1 → ¬ PassesDispatch ops j := by
          intro j a b
          by_cases last : j = k
          · exact last ▸ passes
          · exact undispatched j a (by omega)
        cases here : ops[k]? with
        | none => rw [Pending,stays here]; exact Or.inl ⟨buffered,quiet⟩
        | some op =>
          have carried := bufferedKept buffered (fun away => passes ⟨op,here,away⟩) (undiverted.noDetach n k now)
            (fun sending => noSend ⟨op,here,sending⟩) (fun buf ran => deaf buf (ran ▸ here))
          rw [← evtsHere here,← atNext here] at carried
          rcases carried with soft | hard | buffered
          · exact absurd (Or.inr (Or.inl soft)) still
          · exact absurd (Or.inr (Or.inr (Or.inl hard))) still
          · exact Or.inl ⟨buffered,quiet⟩
    · exact Or.inr ⟨heldKept unasked undiverted now still ⟨i,idx,a,b,taken⟩ open_ held,i,idx,a,by omega,taken⟩

theorem servedReset {op : Op} (here : ops[k]? = some op) (served : ∃ s hw, (at_ ops k).place = .service s ∧ op = .run hw)
    (resets : (at_ ops k).port.state = .txSoftRst ∨ (at_ ops k).port.state = .txHrst) :
    .softrstTx ∈ evtsAt ops k ∨ .hrstTx ∈ evtsAt ops k := by
  obtain ⟨s,hw,place,rfl⟩ := served
  rw [evtsHere here]
  rcases resets with state | state
  · exact Or.inl (by simp [serviceStep hw place,mainSwitch,state])
  · exact Or.inr (by simp [serviceStep hw place,mainSwitch,state])

theorem requestAnswered (unasked : ∀ n power, ¬ CommandAt ops n power) (undiverted : Undiverted ops) {d m : Nat}
    (received : ReceivedAt ops n) (after : n < d) (passes : PassesDispatch ops d) (before : d < m)
    (long : waited ops m ≥ 3) (served : Served ops m) (high : m < k) : ∃ j, n < j ∧ j < k ∧ AnsweredAt ops n j := by
  by_contra never
  have silent : ∀ j, n < j → j < k → ¬ AnsweredAt ops n j := fun j a b answered => never ⟨j,a,b,answered⟩
  have unanswered : Unanswered ops n m := ⟨received,by omega,fun j a b => silent j a (by omega)⟩
  rcases pendingAt unasked undiverted unanswered with ⟨-,undispatched⟩ | ⟨held,-⟩
  · exact undispatched d after before passes
  · obtain ⟨op,here,serving⟩ := served
    have resets : (at_ ops m).port.state = .txSoftRst ∨ (at_ ops m).port.state = .txHrst := by
      rcases held with state | state
      · obtain ⟨-,-,early,counted⟩ := acceptsAt unasked m state
        have low : (at_ ops m).port.commTimer.toNat ≤ 2 := UInt16.le_iff_toNat_le.mp (UInt16.not_lt.mp early)
        omega
      · exact state
    rcases servedReset here serving resets with soft | hard
    · exact silent m (by omega) high (Or.inr (Or.inl soft))
    · exact silent m (by omega) high (Or.inr (Or.inr (Or.inl hard)))

end Runs

theorem reappliedVoltageSet (r : Rail) : (reapplied r).voltageSet = r.voltageSet := by
  unfold reapplied
  split
  · simp only [tps55289Apply,tps55289EnableOutput,tps55289SetVoltage,tps55289SetCurrentLimit]
    split
    · split <;> rfl
    · split <;> rfl
  · rfl

theorem setpointRange (idx : UInt8) :
    ¬ ((pdoSetpoint idx).1 < 33 ∨ (pdoSetpoint idx).1 > 200) ∧ ¬ (pdoSetpoint idx).2 > 63 := by
  unfold pdoSetpoint
  split
  · decide
  split
  · decide
  split
  · decide
  split
  · decide
  · decide

theorem setpointApplied (idx : UInt8) (r : Rail) :
    (tps55289Apply (pdoSetpoint idx).1 (pdoSetpoint idx).2 r).voltageSet = (pdoSetpoint idx).1 := by
  obtain ⟨voltage,current⟩ := setpointRange idx
  simp only [tps55289Apply,tps55289EnableOutput,tps55289SetVoltage,tps55289SetCurrentLimit,if_neg voltage]

inductive ToReady (l : Loop) (op : Op) (p' : Port) : Prop
  | accepted : Accepting l op → ToReady l op p'
  | kept : l.port.state = .txPsRdy → p'.rail.voltageSet = l.port.rail.voltageSet → ToReady l op p'

theorem switchToReady {l : Loop} {s : Service} {hw : Hw} {p' : Port} {evts : List Evt} (place : l.place = .service s)
    (h : Switched (l.timMsCnt-l.serviceLast) hw.acked l.port p' evts) (state' : p'.state = .txPsRdy) :
    ToReady l (.run hw) p' := by
  cases h with
  | still | wait => exact .kept state' rfl
  | accepted state due acked => exact .accepted ⟨s,hw,place,rfl,state,due,acked⟩
  | srcCapLost state => exact nomatch state.symm.trans state'
  | softRst =>
    dsimp only at state'
    split at state' <;> exact nomatch state'
  | disconnect | ready | srcCap | timeout | acceptLost | psRdy | psRdyLost | hrst | vdm => exact nomatch state'

theorem dispatchToReady {l : Loop} {hw : Hw} {p' : Port} {evts : List Evt} (h : Dispatched hw.acked l.port p' evts)
    (state' : p'.state = .txPsRdy) : ToReady l (.run hw) p' := by
  cases h with
  | accept | eprRequest | swapped | duplicate | swapWait | passed | answered => exact .kept state' rfl
  | acceptAwaited | invalid | request | softReset | swapLost | discovery => exact nomatch state'

theorem didToReady {l : Loop} {op : Op} {p' : Port} {evts : List Evt} (h : Did l op p' evts)
    (untouched : Untouched l op) (state' : p'.state = .txPsRdy) : ToReady l op p' := by
  cases h with
  | quiet | detTimer | tail => exact .kept state' rfl
  | tps => exact .kept state' (reappliedVoltageSet _)
  | message buf =>
    obtain ⟨_,_,_,eq⟩ := messageKeeps buf l.port
    rw [eq] at state' ⊢
    exact .kept state' rfl
  | hardReset =>
    obtain ⟨_,_,eq⟩ := hardResetKeeps l.port
    rw [eq] at state' ⊢; exact .kept state' rfl
  | enable | cycleOn => exact nomatch state'
  | disable hw power place wanted => exact nomatch wanted.symm.trans (untouched.noCommand hw rfl place)
  | detProc hw place due =>
    have sampled := detProcSampled hw.cc { l.port with detTimer := 0 }
    revert state'
    generalize (pdDetProc hw.cc { l.port with detTimer := 0 }).1 = p',
      (pdDetProc hw.cc { l.port with detTimer := 0 }).2 = evts at sampled
    intro state'
    cases sampled with
    | present | missing | lost | absent | found | ignored => exact .kept state' rfl
    | detached | attached => exact nomatch state'
  | switch s hw place => exact switchToReady place (switchSwitched _ _ _) state'
  | dispatch s hw place waiting => exact dispatchToReady (dispatchDispatched _ _) state'

section Runs
variable {ops : List Op}

/-- The Request taken at `i` is the last one accepted before `k`, at `n`. -/
structure LastAccepted (ops : List Op) (i n k : Nat) (idx : UInt8) : Prop where
  taken : TakenAt ops i idx
  offered : Offered idx
  accepted : AcceptedAt ops n
  first : i < n
  low : n < k
  lastTaken : ∀ j idx, i < j → j < n → ¬ TakenAt ops j idx
  lastAccepted : ∀ j, n < j → j < k → ¬ AcceptedAt ops j

theorem lastAcceptedNext {i n k : Nat} {idx : UInt8} (h : LastAccepted ops i n k idx) (not : ¬ AcceptedAt ops k) :
    LastAccepted ops i n (k+1) idx := by
  refine { h with low := Nat.lt_succ_of_lt h.low, lastAccepted := fun j a b => ?_ }
  by_cases last : j = k
  · exact last ▸ not
  · exact h.lastAccepted j a (by omega)

theorem readyAt (unasked : ∀ n power, ¬ CommandAt ops n power) (k : Nat) : (at_ ops k).port.state = .txPsRdy →
    ∃ i n idx, LastAccepted ops i n k idx ∧ (at_ ops k).port.rail.voltageSet = (pdoSetpoint idx).1 := by
  induction k with
  | zero => exact nofun
  | succ k ih =>
    intro state'
    have unready : (at_ ops k).port.state = .txPsRdy → ¬ AcceptedAt ops k := by
      rintro state ⟨op,-,-,-,-,-,accept,-⟩
      exact nomatch state.symm.trans accept
    cases here : ops[k]? with
    | none =>
      rw [stays here] at state' ⊢
      obtain ⟨i,n,idx,last,setpoint⟩ := ih state'
      exact ⟨i,n,idx,lastAcceptedNext last (unready state'),setpoint⟩
    | some op =>
      rw [atNext here] at state'
      cases didToReady (stepDid (at_ ops k) op) (untouchedAt unasked here) state' with
      | accepted accepting =>
        obtain ⟨⟨i,low,taken,before⟩,offered,-⟩ := acceptsAt unasked k accepting.choose_spec.choose_spec.2.2.1
        refine ⟨i,k,_,⟨taken,offered,⟨op,here,accepting⟩,low,Nat.lt_succ_self k,before,fun j a b => by omega⟩,?_⟩
        rw [atNext here,acceptingNext accepting]
        exact setpointApplied _ _
      | kept state same =>
        obtain ⟨i,n,idx,last,setpoint⟩ := ih state
        refine ⟨i,n,idx,lastAcceptedNext last (unready state),?_⟩
        rw [atNext here,same]; exact setpoint

theorem psRdySent {l : Loop} {op : Op} {p' : Port} {evts : List Evt} (h : Did l op p' evts) {message : WupsProtocol.Bytes}
    {acked : Bool} (sent : .sent typePsRdy message acked ∈ evts) : l.port.state = .txPsRdy := by
  cases h with
  | quiet | message | hardReset | enable | disable | cycleOn | detTimer | tail | tps => exact nomatch sent
  | detProc hw place due =>
    have sampled := detProcSampled hw.cc { l.port with detTimer := 0 }
    generalize (pdDetProc hw.cc { l.port with detTimer := 0 }).1 = p',
      (pdDetProc hw.cc { l.port with detTimer := 0 }).2 = evts at sampled sent
    cases sampled with
    | present | missing | lost | absent | found | ignored | detached => exact nomatch sent
    | attached => simp at sent
  | switch s hw place =>
    have switched := switchSwitched (l.timMsCnt-l.serviceLast) hw.acked l.port
    generalize (mainSwitch (l.timMsCnt-l.serviceLast) hw.acked l.port).1 = p',
      (mainSwitch (l.timMsCnt-l.serviceLast) hw.acked l.port).2 = evts at switched sent
    cases switched with
    | psRdy state | psRdyLost state => exact state
    | still | wait | ready | timeout => exact nomatch sent
    | disconnect | hrst => simp at sent
    | srcCap | srcCapLost | accepted | acceptLost | softRst | vdm =>
      simp [pdSend] at sent
      exact absurd sent.1 (by decide)
  | dispatch s hw place waiting =>
    have dispatched := dispatchDispatched hw.acked l.port
    generalize (dispatch hw.acked l.port).1 = p',(dispatch hw.acked l.port).2 = evts at dispatched sent
    cases dispatched with
    | accept | acceptAwaited | eprRequest | discovery | passed => exact nomatch sent
    | invalid | request | duplicate => simp at sent
    | softReset | swapped | swapLost | swapWait =>
      simp [pdSend] at sent
      exact absurd sent.1 (by decide)
    | answered t payload e other _ _ _ replied =>
      simp only [pdSend,List.mem_cons,List.not_mem_nil,or_false] at sent
      rcases sent with same | same
      · exact absurd (Evt.sent.inj same).1.symm other
      · rw [← same] at replied; exact nomatch replied

theorem completed (ops : List Op) (unasked : ∀ n power, ¬ CommandAt ops n power) (undiverted : Undiverted ops) :
    Completed ops := by
  refine ⟨fun n k unfinished => finishedAt unasked undiverted unfinished,?_,?_⟩
  · intro n d m k received after passes before long served high
    exact requestAnswered unasked undiverted received after passes before long served high
  · intro k message acked sent
    have state : (at_ ops k).port.state = .txPsRdy := by
      cases here : ops[k]? with
      | none => rw [evtsEnd here] at sent; exact nomatch sent
      | some op => exact psRdySent (didAt here) sent
    obtain ⟨i,n,idx,last,setpoint⟩ := readyAt unasked k state
    exact ⟨i,n,idx,last.first,last.low,last.offered,last.taken,last.accepted,last.lastTaken,last.lastAccepted,setpoint⟩

end Runs

def negotiated : List Op := attaching ++ negotiating 2 0

def discovery (msgId : UInt8) : RxBuf := ⟨0x8F,(0x10 : UInt8) ||| (msgId <<< 1),0x01,0xA0,0x00,0xFF⟩

/-- The sink asks who the source is while it waits for PS_RDY. -/
def askedInBetween : List Op :=
  attaching ++ messageLap (request 2 0) 5 true ++ lap 5 sinkOnCc1 true ++ messageLap (discovery 1) 5 true

def isMessage : Option Op → Bool
  | some (.message _) => true
  | _ => false

theorem negotiatedUndiverted : Undiverted negotiated := by
  have received : ∀ {n}, ReceivedAt negotiated n → n = 92 := by
    rintro n ⟨buf,here,-⟩
    have only : ∀ i < 132, i ≠ 92 → isMessage negotiated[i]? = false := by decide +kernel
    have inside : n < 132 := (List.getElem?_eq_some_iff.mp here).1
    by_contra other
    have none_ := only n inside other
    rw [here] at none_
    exact nomatch none_
  have discoveries : allSteps step (fun l _ => msgType l.port.rxBuf ≠ .vendorDefined) boot negotiated = true := by
    decide +kernel
  have joined : ∀ i < 76, (at_ negotiated (57+i)).port.connected = true := by decide +kernel
  have accepts : ∀ i < 57, (at_ negotiated i).port.state ≠ .txAccept := by decide +kernel
  have open_ : ∀ i < 133, (at_ negotiated i).port.state ≠ .disconnect := by decide +kernel
  have awaits : ∀ i < 6, (at_ negotiated (93+i)).port.state = .rxReqWait := by decide +kernel
  refine ⟨?_,?_,?_,?_,?_⟩
  · rintro n k - ⟨op,here,⟨_,_,_,_,_,is⟩,-⟩
    have not := allStepsAt step discoveries here
    exact of_decide_eq_true not is
  · rintro n k window ⟨op,here,-,apart,-⟩
    have inside : k < 132 := (List.getElem?_eq_some_iff.mp here).1
    have early : k < 57 := by
      by_contra late
      have on := joined (k-57) (by omega)
      rw [show 57+(k-57) = k by omega] at on
      exact nomatch on.symm.trans apart
    rcases window with ⟨⟨_,_,_,_,_,_,state,-⟩,low,-⟩ | ⟨request,low,-⟩
    · exact accepts n (by omega) state
    · have start := received request
      omega
  · intro n k _
    by_cases inside : k < 133
    · exact open_ k inside
    · rw [show at_ negotiated k = at_ negotiated 132 from stateBeyond step boot (by
        rw [show negotiated.length = 132 by decide +kernel]; omega)]
      exact open_ 132 (by decide)
  · intro n s request
    rw [received request]
    have top : (at_ negotiated 92).place = .top := by decide +kernel
    rw [top]; nofun
  · rintro n k ⟨request,low,-⟩ untaken
    have start := received request
    subst start
    have early : k ≤ 98 := by
      by_contra late
      refine untaken 98 2 (by omega) (by omega) ⟨.run ⟨none,sinkOnCc1,true⟩,by decide +kernel,
        ⟨.first,⟨none,sinkOnCc1,true⟩,by decide +kernel,rfl,by decide +kernel,by decide +kernel⟩,by decide +kernel⟩
    have state := awaits (k-93) (by omega)
    rw [show 93+(k-93) = k by omega] at state
    refine ⟨?_,fun buf here => ?_⟩
    · rintro ⟨op,here,s,hw,-,-,-,sends⟩
      simp [state] at sends
    · have only : ∀ i < 6, isMessage negotiated[93+i]? = false := by decide +kernel
      have none_ := only (k-93) (by omega)
      rw [show 93+(k-93) = k by omega,here] at none_
      exact nomatch none_

theorem negotiatedCompletes : (∃ j, 92 < j ∧ j < 115 ∧ AnsweredAt negotiated 92 j) ∧
    ∃ i idx, TakenAt negotiated i idx ∧ (at_ negotiated 124).port.rail.voltageSet = (pdoSetpoint idx).1 := by
  have quiet : (negotiated.drop 0).all unasked = true := by decide +kernel
  have law := completed negotiated (fun n power => noCommand quiet (Nat.zero_le n) power) negotiatedUndiverted
  have received : ReceivedAt negotiated 92 :=
    ⟨request 2 0,by decide +kernel,by decide +kernel,by decide +kernel,by decide +kernel⟩
  have passes : PassesDispatch negotiated 98 :=
    ⟨.run ⟨none,sinkOnCc1,true⟩,by decide +kernel,.first,⟨none,sinkOnCc1,true⟩,by decide +kernel,rfl⟩
  have served : Served negotiated 114 :=
    ⟨.run ⟨none,sinkOnCc1,true⟩,by decide +kernel,.afterTps,⟨none,sinkOnCc1,true⟩,by decide +kernel,rfl⟩
  have sent : .sent typePsRdy [0xA6,0x05] true ∈ evtsAt negotiated 124 := by decide +kernel
  refine ⟨law.answered 92 98 114 115 received (by decide) passes (by decide) (by decide +kernel) served (by decide),?_⟩
  obtain ⟨i,_,idx,-,-,-,taken,-,-,-,setpoint⟩ := law.setpoint 124 _ _ sent
  exact ⟨i,idx,taken,setpoint⟩

theorem takenEvt {ops : List Op} {n : Nat} {idx : UInt8} (taken : TakenAt ops n idx) : .reqRx idx ∈ evtsAt ops n := by
  obtain ⟨op,here,⟨s,hw,place,rfl,waiting,is⟩,rfl⟩ := taken
  rw [evtsHere here]
  simp only [dispatchStep hw place waiting,dispatch,is,handleRequest]
  split
  · exact List.mem_singleton.mpr rfl
  · exact List.mem_singleton.mpr rfl

theorem requestDropped : (∀ n power, ¬ CommandAt askedInBetween n power) ∧ ¬ Completed askedInBetween := by
  have quiet : (askedInBetween.drop 0).all unasked = true := by decide +kernel
  refine ⟨fun n power => noCommand quiet (Nat.zero_le n) power,fun claimed => ?_⟩
  have silent : ∀ i < 15, evtsAt askedInBetween (112+i) = [] := by decide +kernel
  have joined : ∀ i < 15, (at_ askedInBetween (113+i)).port.connected = true := by decide +kernel
  have accepted : AcceptedAt askedInBetween 111 :=
    ⟨.run ⟨none,sinkOnCc1,true⟩,by decide +kernel,.first,⟨none,sinkOnCc1,true⟩,by decide +kernel,rfl,
      by decide +kernel,by decide +kernel,rfl⟩
  have unfinished : Unfinished askedInBetween 111 127 := by
    refine ⟨accepted,by decide,fun j low high ended => ?_⟩
    have none_ := silent (j-112) (by omega)
    have on := joined (j-112) (by omega)
    rw [show 112+(j-112) = j by omega] at none_
    rw [show 113+(j-112) = j+1 by omega] at on
    rcases ended with sent | sent | sent | sent | ⟨idx,-,taken⟩ | ⟨-,-,apart⟩
    · rw [none_] at sent; exact nomatch sent
    · rw [none_] at sent; exact nomatch sent
    · rw [none_] at sent; exact nomatch sent
    · rw [none_] at sent; exact nomatch sent
    · have got := takenEvt taken
      rw [none_] at got; exact nomatch got
    · exact nomatch on.symm.trans apart
  have state : (at_ askedInBetween 127).port.state = .txVdmRpi := by decide +kernel
  rcases claimed.finished 111 127 unfinished with other | other | other
  · exact nomatch state.symm.trans other
  · exact nomatch state.symm.trans other
  · exact nomatch state.symm.trans other

end Web3PiUps.Ch32xNegotiation
