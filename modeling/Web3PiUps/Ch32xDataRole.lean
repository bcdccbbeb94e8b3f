import Web3PiUps.Ch32xContract

/-! Data roles under DR_Swap. Which DR_Swap is a retransmission is read off the history of
the run; `DRSwap_Last_MsgID` is compared with it. -/
namespace Web3PiUps.Ch32xDataRole
open Ch32xPdSource Ch32xMainLoop Ch32xPdSteps Ch32xNegotiation Ch32xContract StepMachine

/-- A DR_Swap control message with this MessageID is dispatched. -/
def SwapMessage (l : Loop) (op : Op) (msgId : UInt8) : Prop :=
  Dispatching l op .drSwap ∧ l.port.rxBuf.hasData = false ∧ l.port.rxBuf.msgId = msgId

def OtherMessage (l : Loop) (op : Op) (msgId : UInt8) : Prop :=
  (∃ t, Dispatching l op t) ∧ ¬ SwapMessage l op msgId

section Runs
variable (ops : List Op)

def SwapAt (n : Nat) (msgId : UInt8) : Prop :=
  StepAt ops (fun l op => SwapMessage l op msgId ∧ l.port.state = .idle) n
def OtherAt (n : Nat) (msgId : UInt8) : Prop := StepAt ops (fun l op => OtherMessage l op msgId) n

/-- The partner's GoodCRC comes to what is sent in the step. -/
def AckedAt (n : Nat) : Prop := ∃ hw, ops[n]? = some (.run hw) ∧ hw.acked = true

def HardResetReceivedAt (n : Nat) : Prop := ops[n]? = some .hardReset ∧ (at_ ops n).port.listening = true

/-- The port resets its data role. -/
def PortResetAt (n : Nat) : Prop :=
  ServedAt ops n .txHrst ∨ ServedAt ops n .disconnect ∨ CommandAt ops n .enable ∨ CycleOnAt ops n

/-- The last DR_Swap accepted has this MessageID, and since then there was no other message and
no reset: what repeats it is its retransmission. -/
def LastSwap : Nat → UInt8 → Prop
  | 0, _ => False
  | n+1, msgId =>
    SwapAt ops n msgId ∧ AckedAt ops n ∧ ¬ LastSwap n msgId ∨
    LastSwap n msgId ∧ ¬ OtherAt ops n msgId ∧ ¬ PortResetAt ops n ∧ ¬ ServedAt ops n .txSoftRst ∧
      ¬ HardResetReceivedAt ops n

/-- A distinct DR_Swap whose Accept is acknowledged, or is not. -/
def SwapAcceptedAt (n : Nat) : Prop := ∃ msgId, SwapAt ops n msgId ∧ ¬ LastSwap ops n msgId ∧ AckedAt ops n
def SwapLostAt (n : Nat) : Prop := ∃ msgId, SwapAt ops n msgId ∧ ¬ LastSwap ops n msgId ∧ ¬ AckedAt ops n

def SourceCapSentAt (n : Nat) : Prop := ∃ message acked, .sent typeSrcCap message acked ∈ evtsAt ops n

def ResetAt (n : Nat) : Prop := .hrstTx ∈ evtsAt ops n ∨ HardResetReceivedAt ops n ∨ DetachedAt ops n ∨
  CommandAt ops n .enable ∨ CycleOnAt ops n

def Default (p : Port) : Prop := p.pdRole = true ∧ p.drSwapLastMsgId = noMsgId

structure RolesInStep : Prop where
  toggles : ∀ n, (at_ ops (n+1)).port.pdRole ≠ (at_ ops n).port.pdRole →
    SwapAcceptedAt ops n ∨ PortResetAt ops n ∧ (at_ ops (n+1)).port.pdRole = true
  swapped : ∀ n, SwapAcceptedAt ops n → (at_ ops (n+1)).port.pdRole = !(at_ ops n).port.pdRole
  repeated : ∀ n msgId, SwapAt ops n msgId → LastSwap ops n msgId →
    (at_ ops (n+1)).port.pdRole = (at_ ops n).port.pdRole
  swapBack : ∀ j n msgId, OtherAt ops j msgId → j < n → (∀ i, j < i → i < n → ¬ SwapAcceptedAt ops i) →
    SwapAt ops n msgId → AckedAt ops n → (at_ ops (n+1)).port.pdRole = !(at_ ops n).port.pdRole
  failed : ∀ n k t message acked, SwapLostAt ops n → n < k → .sent t message acked ∈ evtsAt ops k →
    ∃ j, n < j ∧ j < k ∧ .hrstTx ∈ evtsAt ops j
  reset : ∀ n k, ResetAt ops n → n < k → SourceCapSentAt ops k →
    ∃ m, n < m ∧ m ≤ k ∧ Default (at_ ops m).port

/-- The latch outlives an EPR_REQUEST, dispatched under the type of DR_Swap, and a Hard Reset
that is received. -/
def StaleAt (n : Nat) : Prop :=
  StepAt ops (fun l op => Dispatching l op .drSwap ∧ l.port.rxBuf.hasData = true) n ∨ HardResetReceivedAt ops n

/-- The Accept of a DR_Swap failed, and its Hard Reset is still to come. -/
def Unreset (n k : Nat) : Prop := SwapLostAt ops n ∧ n < k ∧ ∀ j, n < j → j < k → .hrstTx ∉ evtsAt ops j

/-- A Hard Reset received, or a detach that is not acted on, leaves a swapped role as it is. -/
def Unnoticed (n : Nat) : Prop :=
  (HardResetReceivedAt ops n ∨ DetachedAt ops n ∧ (at_ ops n).port.stopDetChk = true) ∧ ¬ Default (at_ ops n).port

structure Clean : Prop where
  unstale : ∀ i n msgId, StaleAt ops i → i < n → SwapAt ops n msgId → (at_ ops n).port.drSwapLastMsgId = msgId →
    ∃ j, i < j ∧ j < n ∧ SwapAcceptedAt ops j
  unbroken : ∀ n k, Unreset ops n k →
    ¬ StepAt ops Restarting k ∧ ¬ (DetachedAt ops k ∧ (at_ ops k).port.stopDetChk = false)
  noticed : ∀ n k, Unnoticed ops n → n < k → SourceCapSentAt ops k → ∃ j, n < j ∧ j < k ∧ PortResetAt ops j

end Runs

/-! What one step does to the latch and the role. -/

theorem swapDispatched {l : Loop} {op : Op} {msgId : UInt8} (swap : SwapMessage l op msgId)
    (idle : l.port.state = .idle) : ∃ hw, op = .run hw ∧
    (l.port.drSwapLastMsgId = msgId ∧ (step l op).1.port = l.port ∨
      l.port.drSwapLastMsgId ≠ msgId ∧ hw.acked = true ∧ (step l op).1.port =
        { (pdSend typeAccept [] hw.acked l.port).1 with drSwapLastMsgId := msgId, pdRole := !l.port.pdRole } ∨
      l.port.drSwapLastMsgId ≠ msgId ∧ hw.acked = false ∧ (step l op).1.port =
        { (pdSend typeAccept [] hw.acked l.port).1 with state := .txHrst }) := by
  obtain ⟨⟨s,hw,place,rfl,waiting,is⟩,control,rfl⟩ := swap
  refine ⟨hw,rfl,?_⟩
  have next : (step l (.run hw)).1.port = (dispatch hw.acked l.port).1 := by
    rw [dispatchStep hw place waiting]
  rw [next]
  have dispatched := dispatchDispatched hw.acked l.port
  generalize (dispatch hw.acked l.port).1 = p',(dispatch hw.acked l.port).2 = evts at dispatched
  cases dispatched with
  | duplicate _ _ _ same => exact Or.inl ⟨same,rfl⟩
  | swapped _ _ _ fresh acked => exact Or.inr (Or.inl ⟨fresh,acked,rfl⟩)
  | swapLost _ _ _ fresh lost => exact Or.inr (Or.inr ⟨fresh,lost,rfl⟩)
  | swapWait _ _ busy => exact absurd idle busy
  | eprRequest _ data => exact nomatch data.symm.trans control
  | accept other | acceptAwaited other | invalid other | request _ other | softReset other | discovery other =>
    exact nomatch other.symm.trans is
  | passed _ _ other | answered _ _ _ _ _ _ other => exact absurd is other

/-- The states in which nothing is latched. -/
def Busy (s : Sta) : Prop := s = .txAccept ∨ s = .txPsRdy ∨ s = .txSoftRst ∨ s = .txVdmRpi

def PortResetting (l : Loop) (op : Op) : Prop :=
  (∃ s hw, op = .run hw ∧ l.place = .service s ∧ (l.port.state = .txHrst ∨ l.port.state = .disconnect)) ∨
  (∃ hw, op = .run hw ∧ l.place = .drain ∧ hw.power = some .enable) ∨
  ∃ hw, op = .run hw ∧ l.place = .cycle ∧ l.powercycleWait = true ∧ (step l op).1.powercycleWait = false

inductive Roles (l : Loop) (op : Op) (p' : Port) : Prop
  | kept : p'.drSwapLastMsgId = l.port.drSwapLastMsgId → p'.pdRole = l.port.pdRole →
      (p'.state = .idle → l.port.state = .idle ∨ Busy l.port.state) → (Busy p'.state → Busy l.port.state) →
      (∀ t, Dispatching l op t → t = .drSwap) → Roles l op p'
  | reset : PortResetting l op → Default p' → Roles l op p'
  | softRst (s hw) : op = .run hw → l.place = .service s → l.port.state = .txSoftRst → p'.drSwapLastMsgId = noMsgId →
      p'.pdRole = l.port.pdRole → Roles l op p'
  | cleared (t) : Dispatching l op t → t ≠ .drSwap → p'.drSwapLastMsgId = noMsgId → p'.pdRole = l.port.pdRole →
      Roles l op p'
  | swapped (msgId) : SwapMessage l op msgId → l.port.state = .idle → l.port.drSwapLastMsgId ≠ msgId →
      (∃ hw, op = .run hw ∧ hw.acked = true) → p'.drSwapLastMsgId = msgId → p'.pdRole = (!l.port.pdRole) →
      p'.state = .idle → Roles l op p'

instance (s) : Decidable (Busy s) := by unfold Busy; infer_instance

theorem switchRoles {l : Loop} {s : Service} {hw : Hw} {p' : Port} {evts : List Evt} (place : l.place = .service s)
    (h : Switched (l.timMsCnt-l.serviceLast) hw.acked l.port p' evts) : Roles l (.run hw) p' := by
  have elsewhere : ∀ t, Dispatching l (.run hw) t → t = .drSwap := by
    rintro t ⟨_,_,there,-⟩
    exact nomatch place.symm.trans there
  cases h with
  | disconnect state => exact .reset (Or.inl ⟨s,hw,rfl,place,Or.inr state⟩) ⟨rfl,rfl⟩
  | hrst state => exact .reset (Or.inl ⟨s,hw,rfl,place,Or.inl state⟩) ⟨rfl,rfl⟩
  | softRst state => exact .softRst s hw rfl place state rfl rfl
  | still | wait => exact .kept rfl rfl Or.inl id elsewhere
  | srcCapLost state => exact .kept rfl rfl Or.inl id elsewhere
  | ready | srcCap | timeout => exact .kept rfl rfl nofun (fun busy => by simp [Busy] at busy) elsewhere
  | accepted state | acceptLost state => exact .kept rfl rfl nofun (fun _ => Or.inl state) elsewhere
  | psRdy state => exact .kept rfl rfl (fun _ => Or.inr (Or.inr (Or.inl state))) (fun busy => by simp [Busy] at busy) elsewhere
  | psRdyLost state => exact .kept rfl rfl nofun (fun _ => Or.inr (Or.inl state)) elsewhere
  | vdm state =>
    exact .kept rfl rfl (fun _ => Or.inr (Or.inr (Or.inr (Or.inr state)))) (fun busy => by simp [Busy] at busy) elsewhere

theorem dispatchRoles {l : Loop} {s : Service} {hw : Hw} {p' : Port} {evts : List Evt} (place : l.place = .dispatch s)
    (waiting : l.port.msgRecvd = true) (h : Dispatched hw.acked l.port p' evts) : Roles l (.run hw) p' := by
  have this_ : Dispatching l (.run hw) (msgType l.port.rxBuf) := ⟨s,hw,place,rfl,waiting,rfl⟩
  have swap : msgType l.port.rxBuf = .drSwap → ∀ t, Dispatching l (.run hw) t → t = .drSwap := by
    rintro is t ⟨_,_,_,_,_,same⟩
    exact same.symm.trans is
  cases h with
  | accept is | acceptAwaited is | invalid is | request _ is | softReset is | discovery is =>
    exact .cleared _ this_ (is ▸ nofun) rfl rfl
  | passed _ _ other => exact .cleared _ this_ other rfl rfl
  | answered _ _ _ _ _ _ other => exact .cleared _ this_ other rfl rfl
  | eprRequest is | duplicate is => exact .kept rfl rfl Or.inl id (swap is)
  | swapWait is => exact .kept rfl rfl Or.inl id (swap is)
  | swapLost is => exact .kept rfl rfl nofun (fun busy => by simp [Busy] at busy) (swap is)
  | swapped is control idle fresh acked =>
    exact .swapped _ ⟨⟨s,hw,place,rfl,waiting,is⟩,control,rfl⟩ idle fresh ⟨hw,rfl,acked⟩ rfl rfl idle

theorem didRoles {l : Loop} {op : Op} {p' : Port} {evts : List Evt} (h : Did l op p' evts) : Roles l op p' := by
  have away : ∀ {hw place}, l.place = place → (∀ s, place ≠ .dispatch s) → ∀ t, Dispatching l (.run hw) t → t = .drSwap := by
    rintro hw place here not t ⟨s,_,there,-⟩
    exact absurd (here.symm.trans there) (not s)
  cases h with
  | quiet op apart =>
    refine .kept rfl rfl Or.inl id ?_
    rintro t ⟨s,hw,place,ran,waiting,-⟩
    exact nomatch waiting.symm.trans ((apart hw ran).2.2 s place)
  | message buf =>
    obtain ⟨_,_,_,eq⟩ := messageKeeps buf l.port
    rw [eq]
    exact .kept rfl rfl Or.inl id (fun t ⟨_,_,_,ran,_⟩ => nomatch ran)
  | hardReset =>
    have passive : ∀ t, Dispatching l .hardReset t → t = .drSwap := fun t ⟨_,_,_,ran,_⟩ => nomatch ran
    obtain ⟨_,_,eq⟩ := hardResetKeeps l.port
    rw [eq]; exact .kept rfl rfl Or.inl id passive
  | enable hw place wanted => exact .reset (Or.inr (Or.inl ⟨hw,rfl,place,wanted⟩)) ⟨rfl,rfl⟩
  | cycleOn hw place waiting done => exact .reset (Or.inr (Or.inr ⟨hw,rfl,place,waiting,done⟩)) ⟨rfl,rfl⟩
  | disable hw power place => exact .kept rfl rfl Or.inl id (away place nofun)
  | detTimer hw place => exact .kept rfl rfl Or.inl id (away place nofun)
  | tail s hw place => exact .kept rfl rfl Or.inl id (away place nofun)
  | tps hw place => exact .kept rfl rfl Or.inl id (away place nofun)
  | detProc hw place due =>
    have sampled := detProcSampled hw.cc { l.port with detTimer := 0 }
    generalize (pdDetProc hw.cc { l.port with detTimer := 0 }).1 = p',
      (pdDetProc hw.cc { l.port with detTimer := 0 }).2 = evts at sampled
    cases sampled with
    | present | missing | lost | absent | found | ignored => exact .kept rfl rfl Or.inl id (away place nofun)
    | detached => exact .kept rfl rfl nofun (fun busy => by simp [Busy] at busy) (away place nofun)
    | attached => exact .kept rfl rfl nofun (fun busy => by simp [Busy,vbusSet5V] at busy) (away place nofun)
  | switch s hw place => exact switchRoles place (switchSwitched _ _ _)
  | dispatch s hw place waiting => exact dispatchRoles place waiting (dispatchDispatched _ _)

section Runs
variable {ops : List Op} {n : Nat} {op : Op}

theorem rolesAt (here : ops[n]? = some op) : Roles (at_ ops n) op (at_ ops (n+1)).port := by
  rw [atNext here]; exact didRoles (stepDid _ op)

theorem resettingAt (here : ops[n]? = some op) (resetting : PortResetting (at_ ops n) op) : PortResetAt ops n := by
  rcases resetting with ⟨s,hw,rfl,place,state | state⟩ | ⟨hw,rfl,place,wanted⟩ | ⟨hw,rfl,place,waiting,done⟩
  · exact Or.inl ⟨⟨s,place⟩,⟨hw,here⟩,state⟩
  · exact Or.inr (Or.inl ⟨⟨s,place⟩,⟨hw,here⟩,state⟩)
  · exact Or.inr (Or.inr (Or.inl ⟨place,hw,here,wanted⟩))
  · exact Or.inr (Or.inr (Or.inr ⟨place,waiting,by rw [atNext here]; exact done⟩))

theorem resetDefault (reset : PortResetAt ops n) : Default (at_ ops (n+1)).port := by
  rcases reset with ⟨⟨s,place⟩,⟨hw,here⟩,state⟩ | ⟨⟨s,place⟩,⟨hw,here⟩,state⟩ | ⟨place,hw,here,wanted⟩ | on
  · rw [atNext here,(hrstStep hw place state).1]
    exact ⟨rfl,rfl⟩
  · rw [atNext here,(disconnectStep hw place state).1]
    exact ⟨rfl,rfl⟩
  · rw [atNext here]
    rw [commandStep hw place wanted]
    exact ⟨rfl,rfl⟩
  · obtain ⟨-,-,-,port⟩ := cycleOnStep on
    rw [port]; exact ⟨rfl,rfl⟩

theorem swapsDiffer {l : Loop} {msgId : UInt8} (swap : SwapMessage l op msgId) : msgId ≠ noMsgId := by
  obtain ⟨-,-,rfl⟩ := swap
  intro same
  have low : l.port.rxBuf.msgId.toNat ≤ 7 := by
    rw [RxBuf.msgId,UInt8.toNat_and]
    exact Nat.and_le_right
  rw [same] at low
  exact absurd low (by decide)

theorem latchFree (n : Nat) : (at_ ops n).port.drSwapLastMsgId ≠ noMsgId → ¬ Busy (at_ ops n).port.state := by
  induction n with
  | zero => exact fun latched => absurd rfl latched
  | succ n ih =>
    intro latched
    cases here : ops[n]? with
    | none => rw [stays here] at latched ⊢; exact ih latched
    | some op =>
      cases rolesAt here with
      | kept latch _ _ busy => exact fun now => ih (latch ▸ latched) (busy now)
      | reset _ default => exact absurd default.2 latched
      | softRst _ _ _ _ _ latch | cleared _ _ _ latch => exact absurd latch latched
      | swapped _ _ _ _ _ _ _ idle => rw [idle]; decide

theorem lastLatched (n : Nat) : ∀ msgId, LastSwap ops n msgId → (at_ ops n).port.drSwapLastMsgId = msgId := by
  induction n with
  | zero => exact fun _ => nofun
  | succ n ih =>
    rintro msgId (⟨⟨op,here,swap,idle⟩,⟨hw,there,acked⟩,_⟩ | ⟨last,noOther,noReset,noSoft,-⟩)
    · cases here.symm.trans there
      obtain ⟨hw',ran,moved⟩ := swapDispatched swap idle
      cases ran
      rw [atNext here]
      rcases moved with ⟨same,port⟩ | ⟨-,-,port⟩ | ⟨-,lost,-⟩
      · rw [port]; exact same
      · rw [port]
      · exact nomatch acked.symm.trans lost
    · have latched := ih msgId last
      cases here : ops[n]? with
      | none => rw [stays here]; exact latched
      | some op =>
        cases rolesAt here with
        | kept latch => exact latch.trans latched
        | reset resetting => exact absurd (resettingAt here resetting) noReset
        | softRst s hw ran place state =>
          exact absurd ⟨⟨s,place⟩,⟨hw,ran ▸ here⟩,state⟩ noSoft
        | cleared t dispatching other =>
          refine absurd ⟨op,here,⟨t,dispatching⟩,?_⟩ noOther
          rintro ⟨⟨_,_,_,_,_,is⟩,-⟩
          obtain ⟨_,_,_,_,_,same⟩ := dispatching
          exact other (same.symm.trans is)
        | swapped msgId' swap _ _ _ latch =>
          by_cases same : msgId' = msgId
          · exact latch.trans same
          · refine absurd ⟨op,here,⟨_,swap.1⟩,?_⟩ noOther
            exact fun again => same (swap.2.2.symm.trans again.2.2)

theorem nothingPast (past : ops[n]? = none) : ¬ PortResetAt ops n ∧ (∀ state, ¬ ServedAt ops n state) ∧
    ¬ HardResetReceivedAt ops n ∧ ∀ {P}, ¬ StepAt ops P n := by
  have served : ∀ state, ¬ ServedAt ops n state := fun _ ⟨_,⟨_,here⟩,_⟩ => nomatch past.symm.trans here
  refine ⟨?_,served,fun ⟨here,_⟩ => (nomatch past.symm.trans here),fun ⟨_,here,_⟩ => nomatch past.symm.trans here⟩
  rintro (hard | closed | ⟨_,_,here,_⟩ | ⟨_,waiting,done⟩)
  · exact served _ hard
  · exact served _ closed
  · exact nomatch past.symm.trans here
  · rw [stays past] at done
    exact nomatch waiting.symm.trans done

/-- A DR_Swap dispatched in `STA_IDLE` that leaves the latch and the state has the latched MessageID. -/
theorem swapLeaves {msgId : UInt8} (swap : SwapAt ops n msgId) (idle : (at_ ops (n+1)).port.state = .idle)
    (kept : (at_ ops (n+1)).port.drSwapLastMsgId = (at_ ops n).port.drSwapLastMsgId) :
    (at_ ops n).port.drSwapLastMsgId = msgId := by
  obtain ⟨op,here,message,idle_⟩ := swap
  obtain ⟨hw,-,moved⟩ := swapDispatched message idle_
  rw [atNext here] at idle kept
  rcases moved with ⟨same,-⟩ | ⟨-,-,port⟩ | ⟨-,-,port⟩
  · exact same
  · rw [port] at kept; exact kept.symm
  · rw [port] at idle; exact nomatch idle

def Stale (ops : List Op) (n : Nat) : Prop := ∃ i, i < n ∧ StaleAt ops i ∧ ∀ j, i < j → j < n → ¬ SwapAcceptedAt ops j

theorem staleNext (stale : Stale ops n) (none_ : ¬ SwapAcceptedAt ops n) : Stale ops (n+1) := by
  obtain ⟨i,low,was,never⟩ := stale
  refine ⟨i,by omega,was,fun j a b => ?_⟩
  by_cases last : j = n
  · exact last ▸ none_
  · exact never j a (by omega)

theorem staleHere (stale : StaleAt ops n) : Stale ops (n+1) :=
  ⟨n,Nat.lt_succ_self n,stale,fun j a b => by omega⟩

/-- What stays latched in `STA_IDLE` is still the last DR_Swap, or the latch is stale. -/
theorem keptLast (clean : Clean ops) {msgId : UInt8} (real : msgId ≠ noMsgId)
    (idle : (at_ ops n).port.state = .idle) (idle' : (at_ ops (n+1)).port.state = .idle)
    (latched : (at_ ops n).port.drSwapLastMsgId = msgId) (latched' : (at_ ops (n+1)).port.drSwapLastMsgId = msgId)
    (only : ∀ t, StepAt ops (fun l op => Dispatching l op t) n → t = .drSwap)
    (before : LastSwap ops n msgId ∨ Stale ops n) : LastSwap ops (n+1) msgId ∨ Stale ops (n+1) := by
  have leaves : ∀ {other}, SwapAt ops n other → other = msgId := fun swap =>
    (swapLeaves swap idle' (latched'.trans latched.symm)).symm.trans latched
  rcases before with last | stale
  · by_cases other : OtherAt ops n msgId
    · obtain ⟨op,here,⟨t,dispatching⟩,different⟩ := other
      have is := only t ⟨op,here,dispatching⟩
      subst is
      by_cases data : (at_ ops n).port.rxBuf.hasData = true
      · exact Or.inr (staleHere (Or.inl ⟨op,here,dispatching,data⟩))
      · have message : SwapMessage (at_ ops n) op (at_ ops n).port.rxBuf.msgId :=
          ⟨dispatching,Bool.eq_false_iff.mpr data,rfl⟩
        have same := leaves ⟨op,here,message,idle⟩
        exact absurd (same ▸ message) different
    · by_cases hard : HardResetReceivedAt ops n
      · exact Or.inr (staleHere (Or.inr hard))
      · refine Or.inl (Or.inr ⟨last,other,?_,?_,hard⟩)
        · exact fun reset => real (latched'.symm.trans (resetDefault reset).2)
        · exact fun served => nomatch idle.symm.trans served.2.2
  · refine Or.inr (staleNext stale ?_)
    rintro ⟨other,swap,fresh,-⟩
    have same := leaves swap
    subst same
    obtain ⟨i,low,was,never⟩ := stale
    obtain ⟨j,a,b,accepted⟩ := clean.unstale i n _ was low swap latched
    exact never j a b accepted

theorem latchedLast (clean : Clean ops) (n : Nat) : (at_ ops n).port.state = .idle → ∀ msgId, msgId ≠ noMsgId →
    (at_ ops n).port.drSwapLastMsgId = msgId → LastSwap ops n msgId ∨ Stale ops n := by
  induction n with
  | zero => exact fun _ msgId real same => absurd same.symm real
  | succ n ih =>
    intro idle' msgId real latched'
    cases here : ops[n]? with
    | none =>
      have same := stays here
      obtain ⟨-,-,-,nothing⟩ := nothingPast here
      have idle := same ▸ idle'
      have latched := same ▸ latched'
      exact keptLast clean real idle idle' latched latched' (fun t step_ => absurd step_ nothing) (ih idle msgId real latched)
    | some op =>
      cases rolesAt here with
      | kept latch _ back _ only =>
        have latched := latch.symm.trans latched'
        have idle : (at_ ops n).port.state = .idle := by
          rcases back idle' with idle | busy
          · exact idle
          · exact absurd busy (latchFree n (latched ▸ real))
        refine keptLast clean real idle idle' latched latched' ?_ (ih idle msgId real latched)
        rintro t ⟨op',here',dispatching⟩
        cases here.symm.trans here'
        exact only t dispatching
      | reset _ default => exact absurd (latched'.symm.trans default.2) real
      | softRst _ _ _ _ _ latch | cleared _ _ _ latch => exact absurd (latched'.symm.trans latch) real
      | swapped other swap idle fresh acked latch =>
        have same : other = msgId := latch.symm.trans latched'
        subst same
        obtain ⟨hw,ran,yes⟩ := acked
        exact Or.inl (Or.inl ⟨⟨op,here,swap,idle⟩,⟨hw,ran ▸ here,yes⟩,fun last => fresh (lastLatched n _ last)⟩)

theorem distinctUnlatched (clean : Clean ops) {msgId : UInt8} (swap : SwapAt ops n msgId) (fresh : ¬ LastSwap ops n msgId) :
    (at_ ops n).port.drSwapLastMsgId ≠ msgId := by
  intro latched
  obtain ⟨op,here,message,idle⟩ := swap
  rcases latchedLast clean n idle msgId (swapsDiffer message) latched with last | ⟨i,low,was,never⟩
  · exact fresh last
  · obtain ⟨j,a,b,accepted⟩ := clean.unstale i n msgId was low ⟨op,here,message,idle⟩ latched
    exact never j a b accepted

theorem roleToggles (differs : (at_ ops (n+1)).port.pdRole ≠ (at_ ops n).port.pdRole) :
    SwapAcceptedAt ops n ∨ PortResetAt ops n ∧ (at_ ops (n+1)).port.pdRole = true := by
  cases here : ops[n]? with
  | none => rw [stays here] at differs; exact absurd rfl differs
  | some op =>
    cases rolesAt here with
    | kept _ role => exact absurd role differs
    | softRst _ _ _ _ _ _ role | cleared _ _ _ _ role => exact absurd role differs
    | reset resetting default => exact Or.inr ⟨resettingAt here resetting,default.1⟩
    | swapped msgId swap idle fresh acked =>
      obtain ⟨hw,ran,yes⟩ := acked
      exact Or.inl ⟨msgId,⟨op,here,swap,idle⟩,fun last => fresh (lastLatched n _ last),⟨hw,ran ▸ here,yes⟩⟩

theorem roleSwapped (clean : Clean ops) (accepted : SwapAcceptedAt ops n) :
    (at_ ops (n+1)).port.pdRole = !(at_ ops n).port.pdRole := by
  obtain ⟨msgId,swap,fresh,⟨hw,there,acked⟩⟩ := accepted
  have unlatched_ := distinctUnlatched clean swap fresh
  obtain ⟨op,here,message,idle⟩ := swap
  cases here.symm.trans there
  obtain ⟨hw',ran,moved⟩ := swapDispatched message idle
  cases ran
  rw [atNext here]
  rcases moved with ⟨same,-⟩ | ⟨-,-,port⟩ | ⟨-,lost,-⟩
  · exact absurd same unlatched_
  · rw [port]
  · exact nomatch acked.symm.trans lost

theorem roleRepeated {msgId : UInt8} (swap : SwapAt ops n msgId) (last : LastSwap ops n msgId) :
    (at_ ops (n+1)).port.pdRole = (at_ ops n).port.pdRole := by
  have latched := lastLatched n msgId last
  obtain ⟨op,here,message,idle⟩ := swap
  obtain ⟨hw,-,moved⟩ := swapDispatched message idle
  rw [atNext here]
  rcases moved with ⟨-,port⟩ | ⟨differs,-⟩ | ⟨differs,-⟩
  · rw [port]
  · exact absurd latched differs
  · exact absurd latched differs

theorem otherForgets {j : Nat} {msgId : UInt8} (other : OtherAt ops j msgId) (low : j < n)
    (none_ : ∀ i, j < i → i < n → ¬ SwapAcceptedAt ops i) : ¬ LastSwap ops n msgId := by
  induction n, low using Nat.le_induction with
  | base =>
    rintro (⟨⟨op,here,swap,-⟩,-⟩ | ⟨-,noOther,-⟩)
    · obtain ⟨op',here',-,different⟩ := other
      cases here.symm.trans here'
      exact different swap
    · exact noOther other
  | succ n low ih =>
    have before := ih (fun i a b => none_ i a (by omega))
    rintro (⟨swap,acked,fresh⟩ | ⟨last,-⟩)
    · exact none_ n low (Nat.lt_succ_self n) ⟨msgId,swap,fresh,acked⟩
    · exact before last

/-- `STA_TX_HRST` is due, and no message is dispatched before it. -/
def HardResetDue (l : Loop) : Prop := l.port.state = .txHrst ∧ ∀ s, l.place ≠ .dispatch s

theorem didHardReset {l : Loop} {op : Op} {p' : Port} {evts : List Evt} (h : Did l op p' evts)
    (port : (step l op).1.port = p') (due : HardResetDue l) (noRestart : ¬ Restarting l op)
    (noDetach : l.place = .detect → l.port.connected = true → l.port.stopDetChk = false →
      (step l op).1.port.connected = true) :
    (.hrstTx ∈ evts ∨ p'.state = .txHrst ∧ ∀ s hw, l.place = .service s → op ≠ .run hw) ∧
      ∀ t message acked, .sent t message acked ∉ evts := by
  obtain ⟨state,away⟩ := due
  have kept : ∀ {place}, l.place = place → (∀ s, place ≠ .service s) → ∀ s hw, l.place = .service s → op ≠ .run hw :=
    fun here not s _ there => absurd (here.symm.trans there) (not s)
  cases h with
  | quiet op apart => exact ⟨Or.inr ⟨state,fun s hw place ran => (apart hw ran).2.1 s place⟩,fun _ _ _ => nofun⟩
  | message buf =>
    obtain ⟨_,_,_,eq⟩ := messageKeeps buf l.port
    rw [eq]; exact ⟨Or.inr ⟨state,fun _ _ _ => nofun⟩,fun _ _ _ => nofun⟩
  | hardReset =>
    obtain ⟨_,_,eq⟩ := hardResetKeeps l.port
    rw [eq]; exact ⟨Or.inr ⟨state,fun _ _ _ => nofun⟩,fun _ _ _ => nofun⟩
  | enable hw place wanted => exact absurd (Or.inl ⟨hw,rfl,place,wanted⟩) noRestart
  | cycleOn hw place waiting done => exact absurd (Or.inr (Or.inl ⟨hw,rfl,place,waiting,done⟩)) noRestart
  | disable hw power place => exact ⟨Or.inr ⟨state,kept place nofun⟩,fun _ _ _ => nofun⟩
  | detTimer hw place => exact ⟨Or.inr ⟨state,kept place nofun⟩,fun _ _ _ => nofun⟩
  | tail s hw place => exact ⟨Or.inr ⟨state,kept place nofun⟩,fun _ _ _ => nofun⟩
  | tps hw place => exact ⟨Or.inr ⟨state,kept place nofun⟩,fun _ _ _ => nofun⟩
  | detProc hw place _ =>
    have sampled := detProcSampled hw.cc { l.port with detTimer := 0 }
    revert port
    generalize (pdDetProc hw.cc { l.port with detTimer := 0 }).1 = p',
      (pdDetProc hw.cc { l.port with detTimer := 0 }).2 = evts at sampled
    intro port
    cases sampled with
    | present | missing | lost | absent | found | ignored =>
      exact ⟨Or.inr ⟨state,kept place nofun⟩,fun _ _ _ => nofun⟩
    | detached joined _ _ checking =>
      have still := noDetach place joined checking
      rw [port] at still; exact nomatch still
    | attached _ apart _ _ checking =>
      exact absurd (Or.inr (Or.inr ⟨⟨hw,rfl⟩,place,apart,checking,by rw [port]; rfl⟩)) noRestart
  | switch s hw place =>
    have served : mainSwitch (l.timMsCnt-l.serviceLast) hw.acked l.port =
        ((mainSwitch (l.timMsCnt-l.serviceLast) hw.acked l.port).1,[.hrstTx]) := by
      simp only [mainSwitch,state]
    rw [served]
    exact ⟨Or.inl (List.mem_singleton.mpr rfl),fun t message acked sent => by simp at sent⟩
  | dispatch s hw place => exact absurd place (away s)

theorem hardResetDueKept {l : Loop} {op : Op} (due : HardResetDue l) (noRestart : ¬ Restarting l op)
    (noDetach : l.place = .detect → l.port.connected = true → l.port.stopDetChk = false →
      (step l op).1.port.connected = true) :
    (.hrstTx ∈ (step l op).2 ∨ HardResetDue (step l op).1) ∧ ∀ t message acked, .sent t message acked ∉ (step l op).2 := by
  obtain ⟨next,silent⟩ := didHardReset (stepDid l op) rfl due noRestart noDetach
  refine ⟨next.imp_right (fun ⟨state,unserved⟩ => ⟨state,fun s dispatch => ?_⟩),silent⟩
  rcases placeDispatch dispatch with was | ⟨hw,ran,place⟩
  · exact due.2 s was
  · exact unserved s hw place ran

theorem lostDue (clean : Clean ops) (lost : SwapLostAt ops n) : HardResetDue (at_ ops (n+1)) := by
  obtain ⟨msgId,swap,fresh,unacked⟩ := lost
  have unlatched_ := distinctUnlatched clean swap fresh
  obtain ⟨op,here,message,idle⟩ := swap
  obtain ⟨hw,ran,moved⟩ := swapDispatched message idle
  have place : (at_ ops (n+1)).place ≠ .top ∧ ∀ s, (at_ ops (n+1)).place ≠ .dispatch s := by
    obtain ⟨⟨s,_,there,_,waiting,-⟩,-⟩ := message
    subst ran
    have next : (step (at_ ops n) (.run hw)).1.place = .tail s := by
      rw [dispatchStep hw there waiting]
    rw [atNext here,next]
    exact ⟨nofun,nofun⟩
  refine ⟨?_,place.2⟩
  rw [atNext here]
  rcases moved with ⟨same,-⟩ | ⟨-,acked,-⟩ | ⟨-,-,port⟩
  · exact absurd same unlatched_
  · exact absurd ⟨hw,ran ▸ here,acked⟩ unacked
  · rw [port]

theorem dueUntilSent (clean : Clean ops) {k : Nat} (lost : SwapLostAt ops n) (low : n < k)
    (unsent : ∀ j, n < j → j < k → .hrstTx ∉ evtsAt ops j) : HardResetDue (at_ ops k) := by
  induction k, low using Nat.le_induction with
  | base => exact lostDue clean lost
  | succ k low ih =>
    have due := ih (fun j a b => unsent j a (by omega))
    cases here : ops[k]? with
    | none => rw [stays here]; exact due
    | some op =>
      obtain ⟨noRestart,noDetach⟩ := clean.unbroken n k ⟨lost,low,fun j a b => unsent j a (by omega)⟩
      obtain ⟨next,-⟩ := hardResetDueKept due (fun r => noRestart ⟨op,here,r⟩) (by
        intro place joined checking
        rw [← atNext here]
        by_contra apart
        exact noDetach ⟨⟨place,joined,by simpa using apart⟩,checking⟩)
      rw [← evtsHere here,← atNext here] at next
      rcases next with sent | due
      · exact absurd sent (unsent k low (Nat.lt_succ_self k))
      · exact due

theorem failedReset (clean : Clean ops) {k : Nat} {t : UInt8} {message : WupsProtocol.Bytes} {acked : Bool}
    (lost : SwapLostAt ops n) (low : n < k) (sent : .sent t message acked ∈ evtsAt ops k) :
    ∃ j, n < j ∧ j < k ∧ .hrstTx ∈ evtsAt ops j := by
  by_contra never
  have unsent : ∀ j, n < j → j < k → .hrstTx ∉ evtsAt ops j := fun j a b here => never ⟨j,a,b,here⟩
  have due := dueUntilSent clean lost low unsent
  cases here : ops[k]? with
  | none => rw [evtsEnd here] at sent; exact nomatch sent
  | some op =>
    obtain ⟨noRestart,noDetach⟩ := clean.unbroken n k ⟨lost,low,unsent⟩
    obtain ⟨-,silent⟩ := hardResetDueKept due (fun r => noRestart ⟨op,here,r⟩) (by
      intro place joined checking
      rw [← atNext here]
      by_contra apart
      exact noDetach ⟨⟨place,joined,by simpa using apart⟩,checking⟩)
    rw [evtsHere here] at sent
    exact silent t message acked sent

theorem hrstUnsent {t : UInt8} {payload : WupsProtocol.Bytes} {acked : Bool} {p : Port} :
    Evt.hrstTx ≠ (pdSend t payload acked p).2 := Evt.noConfusion

theorem hrstState {l : Loop} {op : Op} {p' : Port} {evts : List Evt} (h : Did l op p' evts) (sent : .hrstTx ∈ evts) :
    ∃ s hw, op = .run hw ∧ l.place = .service s ∧ l.port.state = .txHrst := by
  cases h with
  | quiet | message | hardReset | enable | disable | cycleOn | detTimer | tail | tps => exact nomatch sent
  | detProc hw place due =>
    have sampled := detProcSampled hw.cc { l.port with detTimer := 0 }
    generalize (pdDetProc hw.cc { l.port with detTimer := 0 }).1 = p',
      (pdDetProc hw.cc { l.port with detTimer := 0 }).2 = evts at sampled sent
    cases sampled with
    | present | missing | lost | absent | found | ignored | detached => exact nomatch sent
    | attached => simp at sent
  | switch s hw place =>
    refine ⟨s,hw,rfl,place,?_⟩
    have switched := switchSwitched (l.timMsCnt-l.serviceLast) hw.acked l.port
    generalize (mainSwitch (l.timMsCnt-l.serviceLast) hw.acked l.port).1 = p',
      (mainSwitch (l.timMsCnt-l.serviceLast) hw.acked l.port).2 = evts at switched sent
    cases switched with
    | hrst state => exact state
    | still | wait | ready | timeout => exact nomatch sent
    | disconnect | srcCap | srcCapLost | accepted | acceptLost | psRdy | psRdyLost | softRst | vdm =>
      simp [hrstUnsent] at sent
  | dispatch s hw place waiting =>
    have dispatched := dispatchDispatched hw.acked l.port
    generalize (dispatch hw.acked l.port).1 = p',(dispatch hw.acked l.port).2 = evts at dispatched sent
    cases dispatched with
    | accept | acceptAwaited | eprRequest | discovery | passed => exact nomatch sent
    | invalid | request | softReset | swapped | swapLost | duplicate | swapWait =>
      simp [hrstUnsent] at sent
    | answered t payload e _ _ _ _ replied =>
      simp only [List.mem_cons,List.not_mem_nil,or_false] at sent
      rcases sent with same | same
      · exact absurd same hrstUnsent
      · rw [← same] at replied; exact nomatch replied

theorem hrstServed (sent : .hrstTx ∈ evtsAt ops n) : PortResetAt ops n := by
  cases here : ops[n]? with
  | none => rw [evtsEnd here] at sent; exact nomatch sent
  | some op =>
    obtain ⟨s,hw,rfl,place,state⟩ := hrstState (didAt here) sent
    exact Or.inl ⟨⟨s,place⟩,⟨hw,here⟩,state⟩

def Closing (l : Loop) : Prop := l.place = .service .first ∧ l.port.state = .disconnect

theorem detachedRuns (detached : DetachedAt ops n) : ∃ hw, ops[n]? = some (.run hw) := by
  obtain ⟨-,joined,apart⟩ := detached
  cases here : ops[n]? with
  | none => rw [stays here] at apart; exact nomatch joined.symm.trans apart
  | some op =>
    by_contra never
    have passive : ∀ hw, op ≠ .run hw := fun hw ran => never ⟨hw,congrArg some ran⟩
    obtain ⟨-,-,-,same,-⟩ := passiveKeeps (at_ ops n) passive
    rw [atNext here,same] at apart
    exact nomatch joined.symm.trans apart

theorem detachedStep (detached : DetachedAt ops n) :
    (at_ ops n).port.stopDetChk = false ∧ Closing (at_ ops (n+1)) ∨
    (at_ ops n).port.stopDetChk = true ∧ (at_ ops (n+1)).port.pdRole = (at_ ops n).port.pdRole ∧
      (at_ ops (n+1)).port.drSwapLastMsgId = (at_ ops n).port.drSwapLastMsgId := by
  obtain ⟨hw,here⟩ := detachedRuns detached
  obtain ⟨place,joined,apart⟩ := detached
  rw [atNext here] at apart ⊢
  by_cases due : (at_ ops n).port.detTimer+(at_ ops n).tmrMsDlt > 4
  · rw [detProcStep hw place due] at apart ⊢
    have sampled := detProcSampled hw.cc { (at_ ops n).port with detTimer := 0 }
    revert apart
    dsimp only
    generalize (pdDetProc hw.cc { (at_ ops n).port with detTimer := 0 }).1 = p',
      (pdDetProc hw.cc { (at_ ops n).port with detTimer := 0 }).2 = evts at sampled
    intro apart
    cases sampled with
    | detached _ _ _ checking => exact Or.inl ⟨checking,rfl,rfl⟩
    | lost _ _ _ stopped => exact Or.inr ⟨stopped,rfl,rfl⟩
    | present | missing => exact nomatch joined.symm.trans apart
    | absent away | found away => exact nomatch joined.symm.trans away
    | attached | ignored => exact nomatch apart
  · rw [detTimerStep hw place due] at apart
    exact nomatch joined.symm.trans apart

theorem closingStep {l : Loop} (closing : Closing l) (op : Op) :
    (Default (step l op).1.port ∨ Closing (step l op).1) ∧ ∀ t message acked, .sent t message acked ∉ (step l op).2 := by
  obtain ⟨place,state⟩ := closing
  by_cases running : ∃ hw, op = .run hw
  · obtain ⟨hw,rfl⟩ := running
    obtain ⟨port,evts⟩ := disconnectStep hw place state
    rw [port,evts]
    exact ⟨Or.inl ⟨rfl,rfl⟩,fun t message acked sent => nomatch List.mem_singleton.mp sent⟩
  · obtain ⟨place',-,state',-,evts⟩ := passiveKeeps l (fun hw ran => running ⟨hw,ran⟩)
    rw [evts]
    exact ⟨Or.inr ⟨place'.trans place,state'.trans state⟩,fun _ _ _ => List.not_mem_nil⟩

theorem closingUntil {m k : Nat} (closing : Closing (at_ ops m)) (ordered : m ≤ k) :
    Closing (at_ ops k) ∨ ∃ j, m < j ∧ j ≤ k ∧ Default (at_ ops j).port := by
  induction k, ordered using Nat.le_induction with
  | base => exact Or.inl closing
  | succ k late ih =>
    rcases ih with closing | ⟨j,low,high,default⟩
    · cases here : ops[k]? with
      | none => rw [stays here]; exact Or.inl closing
      | some op =>
        rcases (closingStep closing op).1 with default | closing
        · exact Or.inr ⟨k+1,by omega,le_refl _,by rw [atNext here]; exact default⟩
        · exact Or.inl (by rw [atNext here]; exact closing)
    · exact Or.inr ⟨j,low,by omega,default⟩

theorem closingReset {m k : Nat} (closing : Closing (at_ ops m)) (ordered : m ≤ k) (sent : SourceCapSentAt ops k) :
    ∃ j, m < j ∧ j ≤ k ∧ Default (at_ ops j).port := by
  rcases closingUntil closing ordered with closing | default
  · obtain ⟨message,acked,sent⟩ := sent
    cases here : ops[k]? with
    | none => rw [evtsEnd here] at sent; exact nomatch sent
    | some op =>
      rw [evtsHere here] at sent
      exact absurd sent ((closingStep closing op).2 typeSrcCap message acked)
  · exact default

theorem hardResetRoles (received : HardResetReceivedAt ops n) :
    (at_ ops (n+1)).port.pdRole = (at_ ops n).port.pdRole ∧
    (at_ ops (n+1)).port.drSwapLastMsgId = (at_ ops n).port.drSwapLastMsgId := by
  rw [atNext received.1]
  obtain ⟨_,_,eq⟩ := hardResetKeeps (at_ ops n).port
  simp only [step,eq]; exact ⟨trivial,trivial⟩

theorem resetDefaults (clean : Clean ops) {k : Nat} (reset : ResetAt ops n) (low : n < k)
    (sent : SourceCapSentAt ops k) : ∃ m, n < m ∧ m ≤ k ∧ Default (at_ ops m).port := by
  have portReset : ∀ {j}, n ≤ j → j < k → PortResetAt ops j → ∃ m, n < m ∧ m ≤ k ∧ Default (at_ ops m).port :=
    fun {j} above below reset => ⟨j+1,by omega,by omega,resetDefault reset⟩
  -- The role and the latch stay: they were the defaults already, or a reset follows.
  have unmoved : (at_ ops (n+1)).port.pdRole = (at_ ops n).port.pdRole →
      (at_ ops (n+1)).port.drSwapLastMsgId = (at_ ops n).port.drSwapLastMsgId →
      (¬ Default (at_ ops n).port → Unnoticed ops n) → ∃ m, n < m ∧ m ≤ k ∧ Default (at_ ops m).port := by
    intro role latch unnoticed
    by_cases default : Default (at_ ops n).port
    · exact ⟨n+1,by omega,low,role.trans default.1,latch.trans default.2⟩
    · obtain ⟨j,above,below,reset⟩ := clean.noticed n k (unnoticed default) low sent
      exact portReset (Nat.le_of_lt above) below reset
  rcases reset with hrst | received | detached | enabled | cycled
  · exact portReset (le_refl n) low (hrstServed hrst)
  · obtain ⟨role,latch⟩ := hardResetRoles received
    exact unmoved role latch (fun default => ⟨Or.inl received,default⟩)
  · rcases detachedStep detached with ⟨-,closing⟩ | ⟨stopped,role,latch⟩
    · obtain ⟨j,above,below,default⟩ := closingReset closing low sent
      exact ⟨j,by omega,below,default⟩
    · exact unmoved role latch (fun default => ⟨Or.inr ⟨detached,stopped⟩,default⟩)
  · exact portReset (le_refl n) low (Or.inr (Or.inr (Or.inl enabled)))
  · exact portReset (le_refl n) low (Or.inr (Or.inr (Or.inr cycled)))

theorem rolesInStep (ops : List Op) (clean : Clean ops) : RolesInStep ops where
  toggles _ := roleToggles
  swapped _ := roleSwapped clean
  repeated _ _ := roleRepeated
  swapBack _ _ msgId other low none_ swap acked :=
    roleSwapped clean ⟨msgId,swap,otherForgets other low none_,acked⟩
  failed _ _ _ _ _ := failedReset clean
  reset _ _ := resetDefaults clean

end Runs

def drSwap (msgId : UInt8) : RxBuf := ⟨0x89,msgId <<< 1,0,0,0,0⟩
def eprRequest (msgId : UInt8) : RxBuf := ⟨0x89,(0x20 : UInt8) ||| (msgId <<< 1),0,0,0,0⟩

def swappedOnce : List Op := attaching ++ negotiating 2 0 ++ messageLap (drSwap 1) 5 true

/-- Nothing in the step is lost, reset or sent under the type of DR_Swap. -/
def smooth (l : Loop) : Op → Bool
  | .run hw => hw.acked && !l.port.stopDetChk && !(msgType l.port.rxBuf = .drSwap && l.port.rxBuf.hasData)
  | .hardReset => false
  | _ => true

theorem smoothClean {ops : List Op} (all : allSteps step smooth boot ops = true) : Clean ops := by
  have at_ : ∀ n op, ops[n]? = some op → smooth (at_ ops n) op = true := fun n op => allStepsAt step all
  have noHardReset : ∀ n, ¬ HardResetReceivedAt ops n := fun n received => nomatch at_ n _ received.1
  refine ⟨?_,?_,?_⟩
  · rintro i n msgId (⟨op,here,⟨s,hw,-,rfl,-,is⟩,data⟩ | received) - - -
    · have smooth_ := at_ i _ here
      simp only [smooth,is,data,Bool.and_eq_true] at smooth_
      exact nomatch smooth_.2
    · exact absurd received (noHardReset i)
  · rintro n k ⟨⟨msgId,⟨op,here,⟨⟨s,hw,-,rfl,-⟩,-⟩,-⟩,-,unacked⟩,-⟩
    have smooth_ := at_ n _ here
    simp only [smooth,Bool.and_eq_true] at smooth_
    exact absurd ⟨hw,here,smooth_.1.1⟩ unacked
  · rintro n k ⟨received | ⟨detached,stopped⟩,-⟩ - -
    · exact absurd received (noHardReset n)
    · obtain ⟨hw,here⟩ := detachedRuns detached
      have smooth_ := at_ n _ here
      simp only [smooth,stopped,Bool.and_eq_true] at smooth_
      exact nomatch smooth_.1.2

theorem swappedOnceToggles : SwapAcceptedAt swappedOnce 139 ∧ (at_ swappedOnce 139).port.pdRole = true ∧
    (at_ swappedOnce (139+1)).port.pdRole = false := by
  have clean : Clean swappedOnce := smoothClean (by decide +kernel)
  have there : swappedOnce[139]? = some (.run ⟨none,sinkOnCc1,true⟩) := by decide +kernel
  have swap : SwapAt swappedOnce 139 1 := ⟨_,there,
    ⟨⟨.first,_,by decide +kernel,rfl,by decide +kernel,by decide +kernel⟩,by decide +kernel,by decide +kernel⟩,
    by decide +kernel⟩
  have fresh : ¬ LastSwap swappedOnce 139 1 := by
    intro last
    have latched := lastLatched 139 1 last
    have empty : (at_ swappedOnce 139).port.drSwapLastMsgId ≠ 1 := by decide +kernel
    exact empty latched
  have accepted : SwapAcceptedAt swappedOnce 139 := ⟨1,swap,fresh,⟨_,there,rfl⟩⟩
  have host : (at_ swappedOnce 139).port.pdRole = true := by decide +kernel
  have toggled := (rolesInStep swappedOnce clean).swapped 139 accepted
  rw [host] at toggled
  exact ⟨accepted,host,toggled⟩

/-- The MessageIDs wrap over seven EPR_REQUESTs, and the sink swaps back. -/
def swappedBack : List Op := swappedOnce ++
  ([2,3,4,5,6,7,0].map (fun msgId => messageLap (eprRequest msgId) 5 true)).flatten ++ messageLap (drSwap 1) 5 true

theorem swapBackSwallowed : ¬ RolesInStep swappedBack := by
  intro claimed
  have there : swappedBack[259]? = some (.run ⟨none,sinkOnCc1,true⟩) := by decide +kernel
  have swap : SwapAt swappedBack 259 1 := ⟨_,there,
    ⟨⟨.first,_,by decide +kernel,rfl,by decide +kernel,by decide +kernel⟩,by decide +kernel,by decide +kernel⟩,
    by decide +kernel⟩
  have epr : OtherAt swappedBack 244 1 := by
    have here : swappedBack[244]? = some (.run ⟨none,sinkOnCc1,true⟩) := by decide +kernel
    refine ⟨_,here,⟨.drSwap,.first,_,by decide +kernel,rfl,by decide +kernel,by decide +kernel⟩,?_⟩
    rintro ⟨-,control,-⟩
    have data : (at_ swappedBack 244).port.rxBuf.hasData = true := by decide +kernel
    exact nomatch data.symm.trans control
  have between : ∀ i, 244 < i → i < 259 → ¬ SwapAcceptedAt swappedBack i := by
    rintro i low high ⟨msgId,⟨op,here,⟨⟨s,hw,place,-,waiting,-⟩,-⟩,-⟩,-⟩
    have elsewhere : ∀ d < 14, (at_ swappedBack (245+d)).port.msgRecvd = true →
        ∀ s ∈ [Service.first,.afterTps,.afterChg,.afterDiag], (at_ swappedBack (245+d)).place ≠ .dispatch s := by
      decide +kernel
    have nowhere := elsewhere (i-245) (by omega)
    rw [show 245+(i-245) = i by omega] at nowhere
    exact nowhere waiting s (by cases s <;> decide) place
  have toggled := claimed.swapBack 244 259 1 epr (by decide) between swap ⟨_,there,rfl⟩
  have kept : (at_ swappedBack (259+1)).port.pdRole = (at_ swappedBack 259).port.pdRole := by decide +kernel
  rw [kept] at toggled
  exact absurd toggled (by decide +kernel)

end Web3PiUps.Ch32xDataRole
