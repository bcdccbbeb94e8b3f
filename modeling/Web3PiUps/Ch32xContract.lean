import Web3PiUps.Ch32xNegotiation

/-! The output contract that power.status reports, against the rail. The index and the
rail part and meet again only at a few kinds of step; `Adrift` follows them along the run,
and the port agrees with it exactly. -/
namespace Web3PiUps.Ch32xContract
open Ch32xPdSource Ch32xMainLoop Ch32xPdSteps Ch32xNegotiation StepMachine

/-- The contract of the port is the one in force; voltages of the rail are in tenths. -/
structure Real (p : Port) : Prop where
  reported : (pdOutContract p).1 ≠ 0 → p.rail.output = true ∧ 100*p.rail.voltage = (pdOutContract p).1
  unreported : (pdOutContract p).1 = 0 → p.rail.output = false ∨ p.rail.voltage = 50

/-- power.disable, power.cycle, or `STA_DISCONNECT`. -/
def Disabling (l : Loop) (op : Op) : Prop :=
  (∃ hw power, op = .run hw ∧ l.place = .drain ∧ hw.power = some power ∧ power ≠ .enable) ∨
  ∃ s hw, op = .run hw ∧ l.place = .service s ∧ l.port.state = .disconnect

/-- power.enable, the end of a power cycle, or a new connection: 5 V, and the index stays. -/
def Restarting (l : Loop) (op : Op) : Prop :=
  (∃ hw, op = .run hw ∧ l.place = .drain ∧ hw.power = some .enable) ∨
  (∃ hw, op = .run hw ∧ l.place = .cycle ∧ l.powercycleWait = true ∧ (step l op).1.powercycleWait = false) ∨
  (∃ hw, op = .run hw) ∧ Connecting l op

/-- Back to `STA_IDLE` without a PS_RDY. -/
def Returning (l : Loop) (op : Op) : Prop := ∃ s hw, op = .run hw ∧ l.place = .service s ∧
  (l.port.state = .txSoftRst ∧ hw.acked = true ∨ l.port.state = .txHrst ∨
    l.port.state = .txVdmRpi ∧ l.port.commTimer+(l.timMsCnt-l.serviceLast).toUInt16 > 10)

section Runs
variable (ops : List Op)

/-- The index names another PDO than the rail has. -/
def Adrift : Nat → Prop
  | 0 => False
  | n+1 =>
    ¬ StepAt ops Disabling n ∧ ¬ AcceptedAt ops n ∧
    (StepAt ops Restarting n → 2 ≤ (at_ ops n).port.reqPdoIdx ∧ (at_ ops n).port.reqPdoIdx ≤ 4) ∧
    (∀ idx, TakenAt ops n idx → ¬ Real { (at_ ops n).port with reqPdoIdx := idx }) ∧
    (StepAt ops Restarting n ∨ (∃ idx, TakenAt ops n idx) ∨ Adrift n)

def ContractReal : Prop := ∀ n, (at_ ops n).port.state = .idle → Real (at_ ops n).port

end Runs

/-! What each kind of step makes of the contract. -/

theorem realOf {p q : Port} (idx : q.reqPdoIdx = p.reqPdoIdx) (output : q.rail.output = p.rail.output)
    (voltage : q.rail.voltage = p.rail.voltage) : Real q ↔ Real p := by
  have contract : pdOutContract q = pdOutContract p := by simp only [pdOutContract,idx]
  constructor
  · rintro ⟨a,b⟩
    rw [contract,output,voltage] at a b
    exact ⟨a,b⟩
  · rintro ⟨a,b⟩
    rw [← contract,← output,← voltage] at a b
    exact ⟨a,b⟩

theorem offReal {p : Port} (idx : p.reqPdoIdx = 0) (off : p.rail.output = false) : Real p := by
  have none_ : (pdOutContract p).1 = 0 := by simp [pdOutContract,idx]
  exact ⟨fun some_ => absurd none_ some_,fun _ => Or.inl off⟩

theorem contractSetpoint (p : Port) : (pdOutContract p).1 = 100*(pdoSetpoint p.reqPdoIdx).1 ∨
    (pdOutContract p).1 = 0 ∧ (pdoSetpoint p.reqPdoIdx).1 = 50 := by
  unfold pdOutContract pdoSetpoint
  by_cases one : p.reqPdoIdx = 1
  · simp [one]
  by_cases two : p.reqPdoIdx = 2
  · simp [two]
  by_cases three : p.reqPdoIdx = 3
  · simp [three]
  by_cases four : p.reqPdoIdx = 4
  · simp [four]
  · simp [one,two,three,four]

theorem acceptedReal {p : Port} (r : Rail)
    (applied : p.rail = tps55289Apply (pdoSetpoint p.reqPdoIdx).1 (pdoSetpoint p.reqPdoIdx).2 r) : Real p := by
  obtain ⟨voltage,-⟩ := setpointRange p.reqPdoIdx
  have output : p.rail.output = true := by rw [applied]; rfl
  have volts : p.rail.voltage = (pdoSetpoint p.reqPdoIdx).1 := by
    rw [applied]
    simp only [tps55289Apply,tps55289EnableOutput,tps55289SetVoltage,tps55289SetCurrentLimit,if_neg voltage]
  rcases contractSetpoint p with same | ⟨none_,default_⟩
  · refine ⟨fun _ => ⟨output,by rw [volts,same]⟩,fun none_ => ?_⟩
    omega
  · exact ⟨fun some_ => absurd none_ some_,fun _ => Or.inr (volts.trans default_)⟩

theorem higherPdo {idx : UInt8} : (2 ≤ idx ∧ idx ≤ 4) ↔ idx = 2 ∨ idx = 3 ∨ idx = 4 := by
  rw [UInt8.le_iff_toNat_le,UInt8.le_iff_toNat_le,← UInt8.toNat_inj,← UInt8.toNat_inj,← UInt8.toNat_inj]
  show 2 ≤ idx.toNat ∧ idx.toNat ≤ 4 ↔ idx.toNat = 2 ∨ idx.toNat = 3 ∨ idx.toNat = 4
  omega

theorem restartedReal {p : Port} (at5V : At5V p.rail) : Real p ↔ ¬ (2 ≤ p.reqPdoIdx ∧ p.reqPdoIdx ≤ 4) := by
  obtain ⟨output,-,voltage⟩ := at5V
  rw [higherPdo]
  have low : ∀ mv, (pdOutContract p).1 = mv → mv = 0 ∨ mv = 5000 → Real p := by
    intro mv contract within
    refine ⟨fun some_ => ⟨output,?_⟩,fun _ => Or.inr voltage⟩
    rw [voltage]
    omega
  have high : ∀ mv, (pdOutContract p).1 = mv → 5000 < mv → ¬ Real p := by
    intro mv contract over_ real
    have volts := (real.reported (by omega)).2
    rw [voltage] at volts
    omega
  by_cases two : p.reqPdoIdx = 2
  · simp [two,high 9000 (by simp [pdOutContract,two]) (by decide)]
  by_cases three : p.reqPdoIdx = 3
  · simp [three,high 12000 (by simp [pdOutContract,three]) (by decide)]
  by_cases four : p.reqPdoIdx = 4
  · simp [four,high 15000 (by simp [pdOutContract,four]) (by decide)]
  by_cases one : p.reqPdoIdx = 1
  · simp [one,low 5000 (by simp [pdOutContract,one]) (by decide)]
  · simp [two,three,four,low 0 (by simp [pdOutContract,one,two,three,four]) (by decide)]

/-! The cache of the rail: what it holds, when in use, is what the rail is set to. -/

def Cached (r : Rail) : Prop := r.voltageSet > 0 ∧ r.currentSet > 0 → r.output = true ∧ r.voltage = r.voltageSet

theorem applyCached {v10 a10 : Nat} (range : ¬ (v10 < 33 ∨ v10 > 200)) (r : Rail) : Cached (tps55289Apply v10 a10 r) := by
  intro _
  simp only [tps55289Apply,tps55289EnableOutput,tps55289SetVoltage,tps55289SetCurrentLimit,if_neg range,and_self]

theorem reappliedSame {r : Rail} (cached : Cached r) :
    (reapplied r).output = r.output ∧ (reapplied r).voltage = r.voltage ∧ (reapplied r).voltageSet = r.voltageSet := by
  unfold reapplied
  by_cases used : r.voltageSet > 0 ∧ r.currentSet > 0
  · obtain ⟨output,voltage⟩ := cached used
    rw [if_pos used]
    simp only [tps55289Apply,tps55289EnableOutput,tps55289SetVoltage,tps55289SetCurrentLimit]
    split
    · split
      · exact ⟨output.symm,rfl,rfl⟩
      · exact ⟨output.symm,rfl,rfl⟩
    · split
      · exact ⟨output.symm,voltage.symm,rfl⟩
      · exact ⟨output.symm,voltage.symm,rfl⟩
  · rw [if_neg used]
    exact ⟨rfl,rfl,rfl⟩

theorem cachedStep {l : Loop} {op : Op} (cached : Cached l.port.rail) : Cached (step l op).1.port.rail := by
  have moved := stepRail l op
  revert moved
  generalize (step l op).1.port.rail = r
  intro moved
  cases moved with
  | same => exact cached
  | reapplied =>
    obtain ⟨output,voltage,voltageSet⟩ := reappliedSame cached
    intro used
    rw [output,voltage,voltageSet]
    by_cases was : l.port.rail.voltageSet > 0 ∧ l.port.rail.currentSet > 0
    · exact cached was
    · rw [reapplied,if_neg was] at used
      exact absurd used was
  | off => exact fun used => absurd used.1 (Nat.lt_irrefl 0)
  | enabled | cycled | attached => exact applyCached (by decide) _
  | accepted => exact applyCached (setpointRange _).1 _

theorem cachedAt (ops : List Op) (n : Nat) : Cached (at_ ops n).port.rail :=
  keepsBetween step boot ops (P := fun l => Cached l.port.rail) (m := 0) (fun used => absurd used.1 (Nat.lt_irrefl 0))
    (Nat.zero_le n) (fun _ _ _ _ _ before => cachedStep before)

structure Plain (l : Loop) (op : Op) : Prop where
  noDisable : ¬ Disabling l op
  noRestart : ¬ Restarting l op
  noAccept : ¬ Accepting l op
  noRequest : ∀ idx, ¬ Taking l op idx

structure Level (p p' : Port) : Prop where
  idx : p'.reqPdoIdx = p.reqPdoIdx
  rail : p'.rail = p.rail ∨ p'.rail = reapplied p.rail

theorem switchLevel {l : Loop} {s : Service} {hw : Hw} {p' : Port} {evts : List Evt} (place : l.place = .service s)
    (h : Switched (l.timMsCnt-l.serviceLast) hw.acked l.port p' evts) (plain : Plain l (.run hw)) :
    Level l.port p' := by
  cases h with
  | disconnect state => exact absurd (Or.inr ⟨s,hw,rfl,place,state⟩) plain.noDisable
  | accepted state due acked => exact absurd ⟨s,hw,place,rfl,state,due,acked⟩ plain.noAccept
  | still | wait | ready | srcCap | srcCapLost | timeout | acceptLost | psRdy | psRdyLost | softRst | hrst | vdm =>
    exact ⟨rfl,Or.inl rfl⟩

theorem dispatchLevel {l : Loop} {s : Service} {hw : Hw} {p' : Port} {evts : List Evt} (place : l.place = .dispatch s)
    (waiting : l.port.msgRecvd = true) (h : Dispatched hw.acked l.port p' evts) (plain : Plain l (.run hw)) :
    Level l.port p' := by
  cases h with
  | invalid is | request _ is => exact absurd ⟨⟨s,hw,place,rfl,waiting,is⟩,rfl⟩ (plain.noRequest _)
  | accept | acceptAwaited | softReset | eprRequest | swapped | swapLost | duplicate | swapWait | discovery | passed
    | answered => exact ⟨rfl,Or.inl rfl⟩

theorem didLevel {l : Loop} {op : Op} {p' : Port} {evts : List Evt} (h : Did l op p' evts)
    (port : (step l op).1.port = p') (plain : Plain l op) : Level l.port p' := by
  cases h with
  | quiet | detTimer | tail => exact ⟨rfl,Or.inl rfl⟩
  | tps => exact ⟨rfl,Or.inr rfl⟩
  | message buf =>
    obtain ⟨_,_,_,eq⟩ := messageKeeps buf l.port
    rw [eq]; exact ⟨rfl,Or.inl rfl⟩
  | hardReset =>
    obtain ⟨_,_,eq⟩ := hardResetKeeps l.port
    rw [eq]; exact ⟨rfl,Or.inl rfl⟩
  | enable hw place wanted => exact absurd (Or.inl ⟨hw,rfl,place,wanted⟩) plain.noRestart
  | disable hw power place wanted other => exact absurd (Or.inl ⟨hw,power,rfl,place,wanted,other⟩) plain.noDisable
  | cycleOn hw place waiting done => exact absurd (Or.inr (Or.inl ⟨hw,rfl,place,waiting,done⟩)) plain.noRestart
  | detProc hw place due =>
    have sampled := detProcSampled hw.cc { l.port with detTimer := 0 }
    revert port
    generalize (pdDetProc hw.cc { l.port with detTimer := 0 }).1 = p',
      (pdDetProc hw.cc { l.port with detTimer := 0 }).2 = evts at sampled
    intro port
    cases sampled with
    | present | missing | lost | absent | found | ignored | detached => exact ⟨rfl,Or.inl rfl⟩
    | attached _ apart _ _ checking =>
      exact absurd (Or.inr (Or.inr ⟨⟨hw,rfl⟩,place,apart,checking,by rw [port]; rfl⟩)) plain.noRestart
  | switch s hw place => exact switchLevel place (switchSwitched _ _ _) plain
  | dispatch s hw place waiting => exact dispatchLevel place waiting (dispatchDispatched _ _) plain

theorem plainReal {l : Loop} {op : Op} (cached : Cached l.port.rail) (plain : Plain l op) :
    Real (step l op).1.port ↔ Real l.port := by
  obtain ⟨idx,rail⟩ := didLevel (stepDid l op) rfl plain
  rcases rail with same | again
  · exact realOf idx (by rw [same]) (by rw [same])
  · obtain ⟨output,voltage,-⟩ := reappliedSame cached
    exact realOf idx (by rw [again,output]) (by rw [again,voltage])

theorem disablingReal {l : Loop} {op : Op} (h : Disabling l op) : Real (step l op).1.port := by
  rcases h with ⟨hw,power,rfl,place,wanted,other⟩ | ⟨s,hw,rfl,place,state⟩
  · cases power with
    | enable => exact absurd rfl other
    | disable => rw [commandStep hw place wanted]; exact offReal rfl rfl
    | cycle => rw [commandStep hw place wanted]; exact offReal rfl rfl
  · rw [(disconnectStep hw place state).1]; exact offReal rfl rfl

theorem acceptingReal {l : Loop} {op : Op} (h : Accepting l op) : Real (step l op).1.port := by
  rw [acceptingNext h]
  exact acceptedReal l.port.rail rfl

theorem restartingPort {l : Loop} {op : Op} (h : Restarting l op) : (step l op).1.port.state = .sinkConnect ∧
    (step l op).1.port.reqPdoIdx = l.port.reqPdoIdx ∧ At5V (step l op).1.port.rail := by
  rcases h with ⟨hw,rfl,place,wanted⟩ | ⟨hw,rfl,place,waiting,done⟩ | ⟨⟨hw,rfl⟩,place,apart,checking,joined⟩
  · rw [commandStep hw place wanted]
    exact ⟨rfl,rfl,rfl,rfl,rfl⟩
  · rw [cycleStep hw place] at done ⊢
    rcases cycleTickCases l with ⟨-,same⟩ | ⟨-,-,restarted,-⟩
    · exact nomatch waiting.symm.trans (same.symm.trans done)
    · rw [restarted]; exact ⟨rfl,rfl,rfl,rfl,rfl⟩
  · by_cases due : l.port.detTimer+l.tmrMsDlt > 4
    · rw [detProcStep hw place due] at joined ⊢
      have sampled := detProcSampled hw.cc { l.port with detTimer := 0 }
      revert joined
      generalize (pdDetProc hw.cc { l.port with detTimer := 0 }).1 = p',
        (pdDetProc hw.cc { l.port with detTimer := 0 }).2 = evts at sampled
      intro joined
      cases sampled with
      | present was | missing was | detached was | lost was => exact nomatch was.symm.trans apart
      | absent | found => exact nomatch joined.symm.trans apart
      | ignored _ _ _ stopped => exact nomatch stopped.symm.trans checking
      | attached => exact ⟨rfl,rfl,rfl,rfl,rfl⟩
    · rw [detTimerStep hw place due] at joined
      exact nomatch joined.symm.trans apart

theorem takingPort {l : Loop} {op : Op} {idx : UInt8} (h : Taking l op idx) :
    ((step l op).1.port.state = .txAccept ∨ (step l op).1.port.state = .txHrst) ∧
    (step l op).1.port.reqPdoIdx = idx ∧ (step l op).1.port.rail = l.port.rail := by
  obtain ⟨⟨s,hw,place,rfl,waiting,is⟩,rfl⟩ := h
  simp only [dispatchStep hw place waiting,dispatch,is,handleRequest]
  split
  · exact ⟨Or.inr rfl,rfl,rfl⟩
  · exact ⟨Or.inl rfl,rfl,rfl⟩

theorem takingApart {l : Loop} {op : Op} {idx : UInt8} (taking : Taking l op idx) : ¬ Restarting l op := by
  obtain ⟨⟨s,_,there,-⟩,-⟩ := taking
  rintro (⟨_,_,place,_⟩ | ⟨_,_,place,_⟩ | ⟨_,place,_⟩)
  · exact nomatch place.symm.trans there
  · exact nomatch place.symm.trans there
  · exact nomatch place.symm.trans there

section Runs
variable {ops : List Op}

theorem stepAtHere {P : Loop → Op → Prop} {n : Nat} {op : Op} (here : ops[n]? = some op) :
    StepAt ops P n ↔ P (at_ ops n) op := by
  constructor
  · rintro ⟨op',here',holds⟩
    cases here.symm.trans here'
    exact holds
  · exact fun holds => ⟨op,here,holds⟩

theorem adriftReal (n : Nat) : Real (at_ ops n).port ↔ ¬ Adrift ops n := by
  induction n with
  | zero => exact ⟨fun _ => id,fun _ => offReal rfl rfl⟩
  | succ n ih =>
    cases here : ops[n]? with
    | none =>
      have none_ : ∀ {P}, ¬ StepAt ops P n := fun ⟨op,here',_⟩ => nomatch here.symm.trans here'
      rw [stays here,ih,Adrift]
      constructor
      · rintro level ⟨-,-,-,-,restart | ⟨_,taken⟩ | before⟩
        · exact none_ restart
        · exact none_ taken
        · exact level before
      · exact fun level before => level ⟨none_,none_,fun restart => absurd restart none_,
          fun _ taken => absurd taken none_,Or.inr (Or.inr before)⟩
    | some op =>
      have cached := cachedAt ops n
      have restart : StepAt ops Restarting n ↔ Restarting (at_ ops n) op := stepAtHere here
      have accept : AcceptedAt ops n ↔ Accepting (at_ ops n) op := stepAtHere here
      have taken : ∀ idx, TakenAt ops n idx ↔ Taking (at_ ops n) op idx := fun idx => stepAtHere here
      rw [Adrift,stepAtHere here,accept,restart]
      simp only [taken]
      rw [atNext here]
      by_cases disable : Disabling (at_ ops n) op
      · exact ⟨fun _ adrift => adrift.1 disable,fun _ => disablingReal disable⟩
      by_cases accepting : Accepting (at_ ops n) op
      · exact ⟨fun _ adrift => adrift.2.1 accepting,fun _ => acceptingReal accepting⟩
      by_cases taking : ∃ idx, Taking (at_ ops n) op idx
      · obtain ⟨idx,taking⟩ := taking
        obtain ⟨-,named,rail⟩ := takingPort taking
        have moved : Real (step (at_ ops n) op).1.port ↔ Real { (at_ ops n).port with reqPdoIdx := idx } :=
          realOf named (by rw [rail]) (by rw [rail])
        rw [moved]
        refine ⟨fun real adrift => adrift.2.2.2.1 idx taking real,fun level => ?_⟩
        by_contra apart
        refine level ⟨disable,accepting,fun restarting => absurd restarting (takingApart taking),?_,
          Or.inr (Or.inl ⟨idx,taking⟩)⟩
        intro idx' taking'
        exact taking.2.symm.trans taking'.2 ▸ apart
      by_cases restarting : Restarting (at_ ops n) op
      · obtain ⟨-,named,at5V⟩ := restartingPort restarting
        rw [restartedReal at5V,named]
        exact ⟨fun low adrift => low (adrift.2.2.1 restarting),fun level high => level
          ⟨disable,accepting,fun _ => high,fun idx t => absurd ⟨idx,t⟩ taking,Or.inl restarting⟩⟩
      · have plain : Plain (at_ ops n) op := ⟨disable,restarting,accepting,fun idx t => taking ⟨idx,t⟩⟩
        rw [plainReal cached plain,ih]
        constructor
        · rintro level ⟨-,-,-,-,restart | taken | before⟩
          · exact restarting restart
          · exact taking taken
          · exact level before
        · exact fun level before => level ⟨disable,accepting,fun r => absurd r restarting,
            fun idx t => absurd ⟨idx,t⟩ taking,Or.inr (Or.inr before)⟩

end Runs

/-! How `STA_IDLE` is reached and kept. -/

/-- `STA_IDLE`, or one acknowledged PS_RDY before it. -/
def Settled (s : Sta) : Prop := s = .idle ∨ s = .txPsRdy

theorem switchSettled {l : Loop} {s : Service} {hw : Hw} {p' : Port} {evts : List Evt} (place : l.place = .service s)
    (h : Switched (l.timMsCnt-l.serviceLast) hw.acked l.port p' evts) (settled : Settled p'.state)
    (plain : Plain l (.run hw)) : Settled l.port.state ∨ Returning l (.run hw) := by
  cases h with
  | disconnect state => exact absurd (Or.inr ⟨s,hw,rfl,place,state⟩) plain.noDisable
  | accepted state due acked => exact absurd ⟨s,hw,place,rfl,state,due,acked⟩ plain.noAccept
  | still | wait => exact Or.inl settled
  | psRdy state => exact Or.inl (Or.inr state)
  | softRst state =>
    refine Or.inr ⟨s,hw,rfl,place,Or.inl ⟨state,?_⟩⟩
    by_contra lost
    simp [lost,Settled] at settled
  | hrst state => exact Or.inr ⟨s,hw,rfl,place,Or.inr (Or.inl state)⟩
  | vdm state due => exact Or.inr ⟨s,hw,rfl,place,Or.inr (Or.inr ⟨state,due⟩)⟩
  | srcCapLost state =>
    have again : Settled l.port.state := settled
    rw [state] at again
    simp [Settled] at again
  | ready | srcCap | timeout | acceptLost | psRdyLost => simp [Settled] at settled

theorem dispatchSettled {l : Loop} {hw : Hw} {p' : Port} {evts : List Evt}
    (h : Dispatched hw.acked l.port p' evts) (settled : Settled p'.state) : Settled l.port.state := by
  cases h with
  | accept | eprRequest | swapped | duplicate | swapWait | passed | answered => exact settled
  | acceptAwaited | invalid | request | softReset | swapLost | discovery => simp [Settled] at settled

theorem didSettled {l : Loop} {op : Op} {p' : Port} {evts : List Evt} (h : Did l op p' evts)
    (settled : Settled p'.state) (plain : Plain l op) : Settled l.port.state ∨ Returning l op := by
  cases h with
  | quiet | detTimer | tail | tps | disable => exact Or.inl settled
  | message buf =>
    obtain ⟨_,_,_,eq⟩ := messageKeeps buf l.port
    rw [eq] at settled; exact Or.inl settled
  | hardReset =>
    obtain ⟨_,_,eq⟩ := hardResetKeeps l.port
    rw [eq] at settled; exact Or.inl settled
  | enable hw place wanted => exact absurd (Or.inl ⟨hw,rfl,place,wanted⟩) plain.noRestart
  | cycleOn hw place waiting done => exact absurd (Or.inr (Or.inl ⟨hw,rfl,place,waiting,done⟩)) plain.noRestart
  | detProc hw place due =>
    have sampled := detProcSampled hw.cc { l.port with detTimer := 0 }
    revert settled
    generalize (pdDetProc hw.cc { l.port with detTimer := 0 }).1 = p',
      (pdDetProc hw.cc { l.port with detTimer := 0 }).2 = evts at sampled
    intro settled
    cases sampled with
    | present | missing | lost | absent | found | ignored => exact Or.inl settled
    | detached | attached => simp [Settled,vbusSet5V] at settled
  | switch s hw place => exact switchSettled place (switchSwitched _ _ _) settled plain
  | dispatch s hw place waiting => exact Or.inl (dispatchSettled (dispatchDispatched _ _) settled)

theorem servicePlain {l : Loop} {s : Service} {hw : Hw} (place : l.place = .service s)
    (open_ : l.port.state ≠ .disconnect) (other : l.port.state ≠ .txAccept) : Plain l (.run hw) := by
  refine ⟨?_,?_,?_,?_⟩
  · rintro (⟨_,_,_,drain,_⟩ | ⟨_,_,_,_,state⟩)
    · exact nomatch place.symm.trans drain
    · exact open_ state
  · rintro (⟨_,_,drain,_⟩ | ⟨_,_,cycle,_⟩ | ⟨_,detect,_⟩)
    · exact nomatch place.symm.trans drain
    · exact nomatch place.symm.trans cycle
    · exact nomatch place.symm.trans detect
  · rintro ⟨_,_,_,_,state,_⟩
    exact other state
  · rintro _ ⟨⟨_,_,dispatch,_⟩,_⟩
    exact nomatch place.symm.trans dispatch

theorem returningIdle {l : Loop} {op : Op} (h : Returning l op) : (step l op).1.port.state = .idle := by
  obtain ⟨s,hw,rfl,place,⟨state,acked⟩ | state | ⟨state,due⟩⟩ := h
  · simp [serviceStep hw place,mainSwitch,state,acked]
  · rw [(hrstStep hw place state).1]
  · simp only [serviceStep hw place,mainSwitch,state,if_pos due]

theorem returningPlain {l : Loop} {op : Op} (h : Returning l op) : Plain l op := by
  obtain ⟨s,hw,rfl,place,⟨state,-⟩ | state | ⟨state,-⟩⟩ := h
  · exact servicePlain place (state ▸ nofun) (state ▸ nofun)
  · exact servicePlain place (state ▸ nofun) (state ▸ nofun)
  · exact servicePlain place (state ▸ nofun) (state ▸ nofun)

section Runs
variable {ops : List Op}

theorem settledReal (level : ∀ n, StepAt ops Returning n → ¬ Adrift ops n) (n : Nat) :
    Settled (at_ ops n).port.state → Real (at_ ops n).port := by
  induction n with
  | zero => exact fun _ => offReal rfl rfl
  | succ n ih =>
    intro settled
    cases here : ops[n]? with
    | none => rw [stays here] at settled ⊢; exact ih settled
    | some op =>
      rw [atNext here] at settled ⊢
      by_cases disable : Disabling (at_ ops n) op
      · exact disablingReal disable
      by_cases accepting : Accepting (at_ ops n) op
      · exact acceptingReal accepting
      by_cases taking : ∃ idx, Taking (at_ ops n) op idx
      · obtain ⟨idx,taking⟩ := taking
        obtain ⟨state | state,-⟩ := takingPort taking
        · rw [state] at settled; simp [Settled] at settled
        · rw [state] at settled; simp [Settled] at settled
      by_cases restarting : Restarting (at_ ops n) op
      · rw [(restartingPort restarting).1] at settled; simp [Settled] at settled
      have plain : Plain (at_ ops n) op := ⟨disable,restarting,accepting,fun idx t => taking ⟨idx,t⟩⟩
      rw [plainReal (cachedAt ops n) plain]
      rcases didSettled (stepDid (at_ ops n) op) settled plain with before | returning
      · exact ih before
      · exact (adriftReal n).mpr (level n ⟨op,here,returning⟩)

theorem contractReal (ops : List Op) : ContractReal ops ↔ ∀ n, StepAt ops Returning n → ¬ Adrift ops n := by
  constructor
  · rintro real n ⟨op,here,returning⟩
    have after := real (n+1) (by rw [atNext here]; exact returningIdle returning)
    rw [atNext here,plainReal (cachedAt ops n) (returningPlain returning)] at after
    exact (adriftReal n).mp after
  · exact fun level n idle => settledReal level n (Or.inl idle)

end Runs

/-- A sink asks for 9 V, and misses the Accept but not the Soft_Reset after it. -/
def acceptLost : List Op := attaching ++ messageLap (request 2 0) 5 true ++
  .tick 5 :: (passes 5 sinkOnCc1 false ++ passes 7 sinkOnCc1 true)

theorem contractStale : ¬ ContractReal acceptLost := by
  intro claimed
  have idle : (at_ acceptLost 119).port.state = .idle := by decide +kernel
  have contract : (pdOutContract (at_ acceptLost 119).port).1 = 9000 := by decide +kernel
  have voltage : (at_ acceptLost 119).port.rail.voltage = 50 := by decide +kernel
  have volts := ((claimed 119 idle).reported (by rw [contract]; decide)).2
  rw [contract,voltage] at volts
  exact nomatch volts

end Web3PiUps.Ch32xContract
