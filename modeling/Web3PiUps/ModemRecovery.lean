import Web3PiUps.FwOtaTasks
import Web3PiUps.ModemPpp
import Web3PiUps.MqttHealth

/-! The commit of a modem reset, `firmware-ESP32-LTE-M/main/modem.c` with the guards of
`fw_ota.c` and `mqtt.c`. The call of `fw_ota_try_modem_recovery` is its sections: under the
claim mux it reads the backend mode, takes the lock of `mqtt.c` in MQTT mode and then the
lock of the lifecycle. Between two of them the other tasks take any section whose lock the
call does not hold. -/
namespace Web3PiUps.ModemRecovery
open FwOta (Claims ConfirmReason claimInProgress releaseInProgress fwOtaTryModemRecovery
  fwOtaFinishModemRecovery confirmEnter confirmLeave rollbackEnter rollbackLeave)
open ModemPpp (PppState Modem Observation modemRecoveryCommitPpp modemPppIsUp)
open MqttHealth (Health Snapshot)

inductive BackendMode where
  | unknown
  | mqtt
  | arkiv
  | http
  deriving DecidableEq, Repr

/-! `mqtt.c`. -/

abbrev authRefusedLatch : UInt32 := 3

/-- The part under `s_lock`; `health` is there from `s_ready` on. -/
structure MqttVars where
  health : Option Health
  authRefusals : UInt32
  deriving DecidableEq, Repr

def mqttAuthRefused (v : MqttVars) : Bool := authRefusedLatch ≤ v.authRefusals

def noHealth : Snapshot :=
  ⟨false,false,false,false,false,false,false,false,false,.none,0,0,0,0,0,⟨0,0⟩⟩

def mqttGetHealth (v : MqttVars) (now : Nat) : MqttVars × Snapshot :=
  match v.health with
  | none => (v,noHealth)
  | some h => ({ v with health := some (MqttHealth.poll h now).1 },(MqttHealth.poll h now).2)

def mqttOtaStateChanged (v : MqttVars) (now : Nat) (active : Bool) : MqttVars :=
  { v with health := v.health.map fun h => MqttHealth.setOtaActive h now active }

def mqttRecoveryEligible (expected : Snapshot) (now : Nat) (otaActive : Bool) (v : MqttVars) : MqttVars × Bool :=
  let (v,current) := mqttGetHealth v now
  (v,!otaActive && !mqttAuthRefused v && !current.otaActive && !current.connected && !current.proofFresh &&
    !current.workerStalled && current.generation == expected.generation &&
    current.lastAckMs == expected.lastAckMs)

def mqttRecoveryTryCommit {σ : Type} (expected : Snapshot) (now : Nat) (commit : σ → Bool × σ)
    (otaActive : Bool) (v : MqttVars) (context : σ) : Bool × MqttVars × σ :=
  let (v,eligible) := mqttRecoveryEligible expected now otaActive v
  if eligible then ((commit context).1,v,(commit context).2) else (false,v,context)

/-! `modem.c`. -/

/-- `modem_recovery_commit_t`. -/
structure Recovery where
  ppp : PppState
  mqtt : Snapshot
  backend : BackendMode
  deriving DecidableEq, Repr

def commitPpp (expected : Recovery) (s : PppState) : Bool × PppState := (modemRecoveryCommitPpp expected.ppp s).swap

def modemRecoveryCommitBackend (expected : Recovery) (now : Nat) (mode : BackendMode) (otaActive : Bool)
    (s : MqttVars × PppState) : Bool × MqttVars × PppState :=
  if mode ≠ expected.backend then (false,s)
  else if expected.backend = .mqtt then
    mqttRecoveryTryCommit expected.mqtt now (commitPpp expected) otaActive s.1 s.2
  else ((commitPpp expected s.2).1,s.1,(commitPpp expected s.2).2)

/-- Where the supervisor stands between two decisions; from `entered` to `committed` it
holds the claim mux, at `guarded` in MQTT mode the lock of `mqtt.c` too. -/
inductive Place where
  | idle
  | snapped (expected : Recovery)
  | entered (expected : Recovery)
  | matched (expected : Recovery)
  | guarded (expected : Recovery)
  | committed
  | recovering
  deriving DecidableEq, Repr

/-- `since` counts the observations after the last snapshot of the lifecycle. -/
structure Device where
  modem : Modem
  claims : Claims
  mode : BackendMode
  storedMode : BackendMode
  mqtt : MqttVars
  place : Place
  since : Nat
  deriving DecidableEq, Repr

def Device.boot (mode : BackendMode) (pendingVerify : Bool) : Device :=
  ⟨.boot,⟨false,false,false,pendingVerify,false,false⟩,mode,mode,⟨none,0⟩,.idle,0⟩

def Place.holdsClaim : Place → Bool
  | .entered _ => true
  | .matched _ => true
  | .guarded _ => true
  | .committed => true
  | _ => false

def Place.holdsMqtt : Place → Bool
  | .guarded expected => expected.backend == .mqtt
  | _ => false

inductive ClaimStep where
  | claim
  | release
  | confirmEnter (reason : ConfirmReason) (us : Nat) (fresh : Bool)
  | confirmLeave (ok : Bool)
  | rollbackEnter (us : Nat)
  | rollbackLeave
  deriving DecidableEq, Repr

inductive MqttStep where
  | ready (config : MqttHealth.Config)
  | call (call : MqttHealth.Call)
  | refused
  | reached
  deriving DecidableEq, Repr

/-- `backend_mode_request_switch` stores the mode, which only the next boot reads. -/
inductive Other where
  | observe (observation : Observation) (error : Int)
  | claim (now : Nat) (c : ClaimStep)
  | mqtt (now : Nat) (m : MqttStep)
  | requestSwitch (mode : BackendMode)
  deriving DecidableEq, Repr

inductive Input where
  | other (o : Other)
  | lifecycle (i : ModemPpp.Input)
  | snapshot
  | readHealth (now : Nat)
  | drop
  | takeLoss
  | enter
  | matchMode
  | guard (now : Nat)
  | commit
  | leave
  | finish
  deriving DecidableEq, Repr

def claimStep (now : Nat) (isMqtt : Bool) (c : Claims) (v : MqttVars) : ClaimStep → Claims × MqttVars
  | .claim =>
    match claimInProgress c with
    | (true,c) => (c,mqttOtaStateChanged v now true)
    | (false,c) => (c,v)
  | .release => (releaseInProgress c,mqttOtaStateChanged v now false)
  | .confirmEnter reason us fresh => ((confirmEnter c reason us isMqtt fresh).2,v)
  | .confirmLeave ok => (confirmLeave c ok,v)
  | .rollbackEnter us => ((rollbackEnter c us).2,v)
  | .rollbackLeave => (rollbackLeave c,v)

def mqttStep (now : Nat) (otaActive : Bool) (v : MqttVars) : MqttStep → MqttVars
  | .ready config =>
    match v.health with
    | some _ => v
    | none => { v with
        health := (MqttHealth.init now (some config)).map fun h => MqttHealth.setOtaActive h now otaActive }
  | .call call => { v with health := v.health.map fun h => (MqttHealth.step h call).1 }
  | .refused => { v with authRefusals := v.authRefusals+1 }
  | .reached => { v with authRefusals := 0 }

def otherStep (d : Device) : Other → Device
  | .observe o error => { d with modem := ModemPpp.step d.modem (.observe o error), since := d.since+1 }
  | .claim now c =>
    if d.place.holdsClaim then d
    else
      let r := claimStep now (d.mode == .mqtt) d.claims d.mqtt c
      { d with claims := r.1, mqtt := r.2 }
  | .mqtt now m =>
    if d.place.holdsMqtt then d else { d with mqtt := mqttStep now d.claims.otaActive d.mqtt m }
  | .requestSwitch mode => { d with storedMode := mode }

/-- What the supervisor itself may do to the lifecycle outside a decision. -/
def supervises : ModemPpp.Input → Bool
  | .observe _ _ => false
  | .commit _ => false
  | _ => true

def step (d : Device) : Input → Device
  | .other o => otherStep d o
  | .lifecycle i =>
    match d.place with
    | .idle => if supervises i then { d with modem := ModemPpp.step d.modem i } else d
    | .recovering => { d with modem := ModemPpp.step d.modem .beginStop }
    | _ => d
  | .snapshot =>
    match d.place with
    | .idle =>
      if d.modem.place = .session then { d with place := .snapped ⟨d.modem.ppp,noHealth,d.mode⟩, since := 0 } else d
    | _ => d
  | .readHealth now =>
    match d.place with
    | .snapped expected =>
      if d.mode = .mqtt then
        let r := mqttGetHealth d.mqtt now
        { d with mqtt := r.1, place := .snapped { expected with mqtt := r.2 } }
      else d
    | _ => d
  | .drop =>
    match d.place with
    | .snapped _ => { d with place := .idle }
    | _ => d
  | .takeLoss =>
    match d.place with
    | .snapped expected =>
      { d with
        modem := ModemPpp.step d.modem .takeLoss
        place := if d.modem.ppp.phase = .down then .idle else .snapped expected }
    | _ => d
  | .enter =>
    match d.place with
    | .snapped expected =>
      let free := !d.claims.inProgress && !d.claims.validationBusy && !d.claims.modemRecoveryBusy
      { d with place := if free then .entered expected else .idle }
    | _ => d
  | .matchMode =>
    match d.place with
    | .entered expected => { d with place := if d.mode = expected.backend then .matched expected else .idle }
    | _ => d
  | .guard now =>
    match d.place with
    | .matched expected =>
      if expected.backend = .mqtt then
        let r := mqttRecoveryEligible expected.mqtt now d.claims.otaActive d.mqtt
        { d with mqtt := r.1, place := if r.2 then .guarded expected else .idle }
      else { d with place := .guarded expected }
    | _ => d
  | .commit =>
    match d.place with
    | .guarded expected =>
      if (commitPpp expected d.modem.ppp).1 then
        { d with modem := ModemPpp.step d.modem (.commit expected.ppp), place := .committed }
      else { d with place := .idle }
    | _ => d
  | .leave =>
    match d.place with
    | .committed => { d with claims := { d.claims with modemRecoveryBusy := true }, place := .recovering }
    | _ => d
  | .finish =>
    match d.place with
    | .idle => { d with claims := fwOtaFinishModemRecovery d.claims }
    | .recovering =>
      if d.modem.place = .attempt then
        { d with claims := fwOtaFinishModemRecovery d.claims, place := .idle }
      else d
    | _ => d

def run (mode : BackendMode) (pendingVerify : Bool) (inputs : List Input) : Device :=
  inputs.foldl step (.boot mode pendingVerify)

variable {mode : BackendMode} {pendingVerify : Bool}

theorem runConcat (a : List Input) (i : Input) :
    run mode pendingVerify (a ++ [i]) = step (run mode pendingVerify a) i := by
  simp only [run,List.foldl_append,List.foldl_cons,List.foldl_nil]

/-- The sections of one call. -/
def sections (now : Nat) : List Input := [.enter,.matchMode,.guard now,.commit,.leave]

def called (d : Device) (expected : Recovery) (now : Nat) : Bool × Claims × MqttVars × PppState :=
  fwOtaTryModemRecovery (modemRecoveryCommitBackend expected now d.mode d.claims.otaActive) d.claims
    (d.mqtt,d.modem.ppp)

def outcome (d : Device) : Bool × Claims × MqttVars × PppState :=
  (d.place == .recovering,d.claims,d.mqtt,d.modem.ppp)

def Free (c : Claims) : Prop := c.inProgress = false ∧ c.validationBusy = false ∧ c.modemRecoveryBusy = false
instance (c) : Decidable (Free c) := by unfold Free; infer_instance

theorem freeTest (c : Claims) : (!c.inProgress && !c.validationBusy && !c.modemRecoveryBusy) = decide (Free c) := by
  rw [Bool.eq_iff_iff,decide_eq_true_iff]
  simp [Free,and_assoc]

theorem enterFrom {d : Device} {expected : Recovery} (at_ : d.place = .snapped expected) :
    step d .enter = { d with place := if Free d.claims then .entered expected else .idle } := by
  simp only [step,at_,freeTest,decide_eq_true_eq]

theorem matchFrom {d : Device} {expected : Recovery} (at_ : d.place = .entered expected) :
    step d .matchMode = { d with place := if d.mode = expected.backend then .matched expected else .idle } := by
  simp only [step,at_]

theorem guardFrom {d : Device} {expected : Recovery} (at_ : d.place = .matched expected)
    (isMqtt : expected.backend = .mqtt) (now : Nat) :
    step d (.guard now) =
      { d with
        mqtt := (mqttRecoveryEligible expected.mqtt now d.claims.otaActive d.mqtt).1
        place := if (mqttRecoveryEligible expected.mqtt now d.claims.otaActive d.mqtt).2 then .guarded expected
          else .idle } := by
  simp only [step,at_,isMqtt,if_true]

theorem passFrom {d : Device} {expected : Recovery} (at_ : d.place = .matched expected)
    (notMqtt : expected.backend ≠ .mqtt) (now : Nat) : step d (.guard now) = { d with place := .guarded expected } := by
  simp only [step,at_,notMqtt,if_false]

theorem idleLeaves {d : Device} (at_ : d.place = .idle) : [Input.commit,.leave].foldl step d = d := by
  simp only [List.foldl_cons,List.foldl_nil,step,at_]

theorem idleGuards {d : Device} (at_ : d.place = .idle) (now : Nat) :
    [Input.guard now,.commit,.leave].foldl step d = d := by
  simp only [List.foldl_cons,List.foldl_nil,step,at_]

theorem idleMatches {d : Device} (at_ : d.place = .idle) (now : Nat) :
    [Input.matchMode,.guard now,.commit,.leave].foldl step d = d := by
  simp only [List.foldl_cons,List.foldl_nil,step,at_]

/-- What the outer function makes of an answer of the commit. -/
def settled (c : Claims) (r : Bool × MqttVars × PppState) : Bool × Claims × MqttVars × PppState :=
  (r.1,if r.1 then { c with modemRecoveryBusy := true } else c,r.2)

theorem calledFree {d : Device} (free : Free d.claims) (expected : Recovery) (now : Nat) :
    called d expected now = settled d.claims
      (modemRecoveryCommitBackend expected now d.mode d.claims.otaActive (d.mqtt,d.modem.ppp)) := by
  unfold called fwOtaTryModemRecovery settled
  rw [freeTest,decide_eq_true free,if_pos rfl]
  split <;> simp [*]

theorem committedAlone {d : Device} {expected : Recovery} (at_ : d.place = .guarded expected)
    (session : d.modem.place = .session) :
    outcome ([Input.commit,.leave].foldl step d) = settled d.claims
      ((commitPpp expected d.modem.ppp).1,d.mqtt,(commitPpp expected d.modem.ppp).2) := by
  by_cases current : d.modem.ppp.phase = .up ∧ d.modem.ppp.attempt = expected.ppp.attempt ∧
      d.modem.ppp.sequence = expected.ppp.sequence
  · simp [step,at_,outcome,settled,commitPpp,modemRecoveryCommitPpp,ModemPpp.step,session,current,Modem.end_]
  · simp [step,at_,outcome,settled,commitPpp,modemRecoveryCommitPpp,current]

/-- With nothing between them the sections are the source's nested calls. -/
theorem sectionsAlone {d : Device} {expected : Recovery} (at_ : d.place = .snapped expected)
    (session : d.modem.place = .session) (now : Nat) :
    outcome ((sections now).foldl step d) = called d expected now := by
  unfold sections
  rw [List.foldl_cons,enterFrom at_]
  by_cases free : Free d.claims
  · rw [if_pos free,calledFree free,List.foldl_cons,matchFrom rfl]
    unfold modemRecoveryCommitBackend
    by_cases same : d.mode = expected.backend
    · rw [if_pos same,if_neg (not_not.mpr same),List.foldl_cons]
      by_cases isMqtt : expected.backend = .mqtt
      · rw [guardFrom rfl isMqtt,if_pos isMqtt]
        unfold mqttRecoveryTryCommit
        by_cases eligible : (mqttRecoveryEligible expected.mqtt now d.claims.otaActive d.mqtt).2 = true
        · simp only [eligible,if_true]
          exact committedAlone rfl session
        · simp only [eligible]
          rw [idleLeaves rfl]
          rfl
      · rw [passFrom rfl isMqtt,if_neg isMqtt]
        exact committedAlone rfl session
    · rw [if_neg same,if_pos same,idleGuards rfl]
      rfl
  · rw [if_neg free,idleMatches rfl]
    unfold called fwOtaTryModemRecovery
    rw [freeTest,decide_eq_false free]
    rfl

/-! What the call rests on at each of its sections. -/

def mqttHealth (v : MqttVars) : Snapshot :=
  match v.health with
  | none => noHealth
  | some h => MqttHealth.snapshot h

structure MqttEvidence (v : MqttVars) (expected : Snapshot) : Prop where
  refused : mqttAuthRefused v = false
  connected : (mqttHealth v).connected = false
  proofFresh : (mqttHealth v).proofFresh = false
  workerStalled : (mqttHealth v).workerStalled = false
  generation : (mqttHealth v).generation = expected.generation
  lastAck : (mqttHealth v).lastAckMs = expected.lastAckMs

theorem mqttGetHealthCurrent (v : MqttVars) (now : Nat) :
    (mqttGetHealth v now).2 = mqttHealth (mqttGetHealth v now).1 := by
  unfold mqttGetHealth mqttHealth
  cases found : v.health with
  | none => simp only [found]
  | some h => rfl

theorem eligibleEvidence {expected : Snapshot} {now : Nat} {otaActive : Bool} {v : MqttVars}
    (eligible : (mqttRecoveryEligible expected now otaActive v).2 = true) :
    MqttEvidence (mqttRecoveryEligible expected now otaActive v).1 expected := by
  have current := mqttGetHealthCurrent v now
  simp only [mqttRecoveryEligible,current,Bool.and_eq_true,Bool.not_eq_true',beq_iff_eq] at eligible ⊢
  obtain ⟨⟨⟨⟨⟨⟨⟨_,refused⟩,_⟩,connected⟩,proof⟩,stalled⟩,generation⟩,ack⟩ := eligible
  exact ⟨refused,connected,proof,stalled,generation,ack⟩

/-- The session of the snapshot still runs, and the sequence has counted what came. -/
def Session (d : Device) (expected : Recovery) : Prop :=
  d.modem.place = .session ∧ d.modem.ppp.sequence = expected.ppp.sequence + UInt32.ofNat d.since

def Law (d : Device) : Prop :=
  match d.place with
  | .idle => True
  | .snapped expected => Session d expected
  | .entered expected => Session d expected ∧ Free d.claims
  | .matched expected => Session d expected ∧ Free d.claims ∧ d.mode = expected.backend
  | .guarded expected => Session d expected ∧ Free d.claims ∧ d.mode = expected.backend ∧
      (expected.backend = .mqtt → MqttEvidence d.mqtt expected.mqtt)
  | .committed => d.modem.ppp.phase = .stopping
  | .recovering => d.modem.ppp.phase = .stopping ∧ d.claims.modemRecoveryBusy = true

theorem observedSession {d : Device} {expected : Recovery} (before : Session d expected) (o : Observation)
    (error : Int) :
    Session { d with modem := ModemPpp.observed d.modem o error, since := d.since+1 } expected := by
  refine ⟨before.1,?_⟩
  show (ModemPpp.observed d.modem o error).ppp.sequence = expected.ppp.sequence + UInt32.ofNat (d.since+1)
  rw [ModemPpp.observedSequence,before.2,UInt32.ofNat_add,UInt32.add_assoc]
  rfl

theorem observedLaw {d : Device} (law : Law d) (o : Observation) (error : Int) :
    Law (otherStep d (.observe o error)) := by
  have kept := fun expected (before : Session d expected) => observedSession before o error
  have stopped : d.modem.ppp.phase = .stopping → (ModemPpp.observed d.modem o error).ppp.phase = .stopping :=
    fun phase => (ModemPpp.observedShut (.inl phase) o error).trans phase
  unfold Law at law ⊢
  cases at_ : d.place with
  | idle => simp only [otherStep,at_]
  | snapped expected =>
    simp only [otherStep,at_] at law ⊢
    exact kept _ law
  | entered expected =>
    simp only [otherStep,at_] at law ⊢
    exact ⟨kept _ law.1,law.2⟩
  | matched expected =>
    simp only [otherStep,at_] at law ⊢
    exact ⟨kept _ law.1,law.2⟩
  | guarded expected =>
    simp only [otherStep,at_] at law ⊢
    exact ⟨kept _ law.1,law.2⟩
  | committed =>
    simp only [otherStep,at_] at law ⊢
    exact stopped law
  | recovering =>
    simp only [otherStep,at_] at law ⊢
    exact ⟨stopped law.1,law.2⟩

theorem claimStepBusy (now : Nat) (isMqtt : Bool) (c : Claims) (v : MqttVars) (taken : ClaimStep) :
    (claimStep now isMqtt c v taken).1.modemRecoveryBusy = c.modemRecoveryBusy := by
  cases taken with
  | claim =>
    simp only [claimStep,claimInProgress]
    by_cases free : (!c.inProgress && !c.validationBusy && !c.modemRecoveryBusy) = true
    · rw [if_pos free]
    · rw [if_neg free]
  | release => rfl
  | confirmEnter reason us fresh =>
    simp only [claimStep,confirmEnter]
    repeat' split
    all_goals rfl
  | confirmLeave ok => cases ok <;> rfl
  | rollbackEnter us =>
    simp only [claimStep,rollbackEnter]
    split <;> rfl
  | rollbackLeave => rfl

theorem otherLaw {d : Device} (law : Law d) (o : Other) : Law (otherStep d o) := by
  cases o with
  | observe o error => exact observedLaw law o error
  | requestSwitch mode => exact law
  | claim now c =>
    by_cases held : d.place.holdsClaim = true
    · rw [otherStep,if_pos held]; exact law
    · have busy := claimStepBusy now (d.mode == .mqtt) d.claims d.mqtt c
      rw [otherStep,if_neg held]
      unfold Law at law ⊢
      cases at_ : d.place with
      | idle => trivial
      | snapped expected => simp only [at_] at law ⊢; exact law
      | recovering => simp only [at_] at law ⊢; exact ⟨law.1,busy.trans law.2⟩
      | entered | matched | guarded | committed => exact absurd (congrArg Place.holdsClaim at_) held
  | mqtt now m =>
    by_cases held : d.place.holdsMqtt = true
    · rw [otherStep,if_pos held]; exact law
    · rw [otherStep,if_neg held]
      unfold Law at law ⊢
      cases at_ : d.place with
      | guarded expected =>
        simp only [at_] at law ⊢
        refine ⟨law.1,law.2.1,law.2.2.1,fun isMqtt => absurd ?_ held⟩
        simp [at_,Place.holdsMqtt,isMqtt]
      | idle => trivial
      | snapped | entered | matched | committed | recovering => simp only [at_] at law ⊢; exact law

theorem lawAt {d : Device} (law : Law d) {place : Place} (at_ : d.place = place) : Law { d with place := place } := by
  subst at_; exact law

theorem enterLaw {d : Device} (law : Law d) : Law (step d .enter) := by
  cases at_ : d.place with
  | snapped expected =>
    rw [enterFrom at_]
    by_cases free : Free d.claims
    · rw [if_pos free]
      exact ⟨lawAt law at_,free⟩
    · rw [if_neg free]; trivial
  | idle | entered | matched | guarded | committed | recovering => simp only [step,at_]; exact law

theorem matchLaw {d : Device} (law : Law d) : Law (step d .matchMode) := by
  cases at_ : d.place with
  | entered expected =>
    rw [matchFrom at_]
    have held : Session d expected ∧ Free d.claims := lawAt law at_
    by_cases same : d.mode = expected.backend
    · rw [if_pos same]
      exact ⟨held.1,held.2,same⟩
    · rw [if_neg same]; trivial
  | idle | snapped | matched | guarded | committed | recovering => simp only [step,at_]; exact law

theorem guardLaw {d : Device} (law : Law d) (now : Nat) : Law (step d (.guard now)) := by
  cases at_ : d.place with
  | matched expected =>
    have held : Session d expected ∧ Free d.claims ∧ d.mode = expected.backend := lawAt law at_
    by_cases isMqtt : expected.backend = .mqtt
    · rw [guardFrom at_ isMqtt]
      by_cases eligible : (mqttRecoveryEligible expected.mqtt now d.claims.otaActive d.mqtt).2 = true
      · rw [if_pos eligible]
        exact ⟨held.1,held.2.1,held.2.2,fun _ => eligibleEvidence eligible⟩
      · rw [if_neg eligible]; trivial
    · rw [passFrom at_ isMqtt]
      exact ⟨held.1,held.2.1,held.2.2,fun isMqtt' => (isMqtt isMqtt').elim⟩
  | idle | snapped | entered | guarded | committed | recovering => simp only [step,at_]; exact law

theorem commitFrom {d : Device} {expected : Recovery} (at_ : d.place = .guarded expected)
    (session : d.modem.place = .session) :
    d.modem.ppp.phase = .up ∧ d.modem.ppp.attempt = expected.ppp.attempt ∧
        d.modem.ppp.sequence = expected.ppp.sequence ∧ (step d .commit).place = .committed ∧
        (step d .commit).modem.ppp.phase = .stopping ∨
      step d .commit = { d with place := .idle } := by
  by_cases current : d.modem.ppp.phase = .up ∧ d.modem.ppp.attempt = expected.ppp.attempt ∧
      d.modem.ppp.sequence = expected.ppp.sequence
  · left
    simp [step,at_,commitPpp,modemRecoveryCommitPpp,ModemPpp.step,session,current,Modem.end_,
      ModemPpp.pppEventsBeginStop]
  · right
    simp [step,at_,commitPpp,modemRecoveryCommitPpp,current]

theorem commitLaw {d : Device} (law : Law d) : Law (step d .commit) := by
  cases at_ : d.place with
  | guarded expected =>
    have held : Session d expected ∧ _ := lawAt law at_
    rcases commitFrom at_ held.1.1 with ⟨_,_,_,committed,stopping⟩ | same
    · unfold Law
      rw [committed]
      exact stopping
    · rw [same]; trivial
  | idle | snapped | entered | matched | committed | recovering => simp only [step,at_]; exact law

theorem lifecycleLaw {d : Device} (law : Law d) (i : ModemPpp.Input) : Law (step d (.lifecycle i)) := by
  cases at_ : d.place with
  | idle =>
    simp only [step,at_]
    split <;> (unfold Law; simp only [at_])
  | recovering =>
    have held : d.modem.ppp.phase = .stopping ∧ d.claims.modemRecoveryBusy = true := lawAt law at_
    simp only [step,at_,Law]
    refine ⟨?_,held.2⟩
    by_cases stop : d.modem.place = .stop
    · rw [ModemPpp.step,if_pos stop]; rfl
    · rw [ModemPpp.step,if_neg stop]; exact held.1
  | snapped | entered | matched | guarded | committed => simp only [step,at_]; exact law

theorem stepLaw {d : Device} (law : Law d) (i : Input) : Law (step d i) := by
  cases i with
  | other o => exact otherLaw law o
  | lifecycle i => exact lifecycleLaw law i
  | enter => exact enterLaw law
  | matchMode => exact matchLaw law
  | guard now => exact guardLaw law now
  | commit => exact commitLaw law
  | snapshot =>
    cases at_ : d.place with
    | idle =>
      simp only [step,at_]
      by_cases session : d.modem.place = .session
      · rw [if_pos session]
        exact ⟨session,(UInt32.add_zero _).symm⟩
      · rw [if_neg session]; exact law
    | snapped | entered | matched | guarded | committed | recovering => simp only [step,at_]; exact law
  | readHealth now =>
    cases at_ : d.place with
    | snapped expected =>
      simp only [step,at_]
      split
      · exact lawAt law at_
      · exact law
    | idle | entered | matched | guarded | committed | recovering => simp only [step,at_]; exact law
  | drop =>
    cases at_ : d.place with
    | snapped expected => simp only [step,at_]; trivial
    | idle | entered | matched | guarded | committed | recovering => simp only [step,at_]; exact law
  | takeLoss =>
    cases at_ : d.place with
    | snapped expected =>
      have held : Session d expected := lawAt law at_
      by_cases lost : d.modem.ppp.phase = .down
      · simp only [step,at_,lost,if_true]; trivial
      · simp only [step,at_,lost,if_false,ModemPpp.step,held.1,if_true,ModemPpp.pppEventsTakeLoss]
        exact held
    | idle | entered | matched | guarded | committed | recovering => simp only [step,at_]; exact law
  | leave =>
    cases at_ : d.place with
    | committed =>
      have held : d.modem.ppp.phase = .stopping := lawAt law at_
      simp only [step,at_]
      exact ⟨held,rfl⟩
    | idle | snapped | entered | matched | guarded | recovering => simp only [step,at_]; exact law
  | finish =>
    cases at_ : d.place with
    | idle => simp only [step,at_,Law]
    | recovering =>
      simp only [step,at_]
      split
      · trivial
      · exact law
    | snapped | entered | matched | guarded | committed => simp only [step,at_]; exact law

def Place.expected : Place → Option Recovery
  | .snapped expected => some expected
  | .entered expected => some expected
  | .matched expected => some expected
  | .guarded expected => some expected
  | _ => none

def isObserve : Input → Bool
  | .other (.observe _ _) => true
  | _ => false

def observations (c : List Input) : Nat := c.countP isObserve

theorem observationsConcat (c : List Input) (i : Input) :
    observations (c ++ [i]) = observations c + if isObserve i then 1 else 0 := by
  simp [observations,List.countP_append,List.countP_cons]

inductive Sourced (d : Device) (i : Input) (expected : Recovery) : Prop where
  | snapshot (is : i = .snapshot) (ppp : expected.ppp = d.modem.ppp) (backend : expected.backend = d.mode)
      (mqtt : expected.mqtt = noHealth) (since : (step d i).since = 0)
  | readHealth (now : Nat) (is : i = .readHealth now) (old : Recovery) (before : d.place.expected = some old)
      (ppp : expected.ppp = old.ppp) (backend : expected.backend = old.backend)
      (mqtt : expected.mqtt = (mqttGetHealth d.mqtt now).2) (since : (step d i).since = d.since)
  | kept (before : d.place.expected = some expected)
      (since : (step d i).since = d.since + if isObserve i then 1 else 0)

theorem stepSince {d : Device} {i : Input} (other : i ≠ .snapshot) :
    (step d i).since = d.since + if isObserve i then 1 else 0 := by
  cases i with
  | other o =>
    cases o with
    | observe o error => rfl
    | requestSwitch mode => rfl
    | claim now c => simp only [step,otherStep]; split <;> rfl
    | mqtt now m => simp only [step,otherStep]; split <;> rfl
  | snapshot => exact absurd rfl other
  | lifecycle i => cases at_ : d.place <;> simp only [step,at_] <;> first | rfl | (split <;> rfl)
  | readHealth now => cases at_ : d.place <;> simp only [step,at_] <;> first | rfl | (split <;> rfl)
  | drop => cases at_ : d.place <;> simp only [step,at_] <;> rfl
  | takeLoss => cases at_ : d.place <;> simp only [step,at_] <;> rfl
  | enter => cases at_ : d.place <;> simp only [step,at_] <;> rfl
  | matchMode => cases at_ : d.place <;> simp only [step,at_] <;> rfl
  | guard now => cases at_ : d.place <;> simp only [step,at_] <;> first | rfl | (split <;> rfl)
  | commit => cases at_ : d.place <;> simp only [step,at_] <;> first | rfl | (split <;> rfl)
  | leave => cases at_ : d.place <;> simp only [step,at_] <;> rfl
  | finish => cases at_ : d.place <;> simp only [step,at_] <;> first | rfl | (split <;> rfl)

theorem idleExpected {c : Prop} [Decidable c] {p : Place} {e : Recovery}
    (holds : (if c then p else .idle).expected = some e) : p.expected = some e := by
  split at holds
  · exact holds
  · exact nomatch holds

theorem otherPlace (d : Device) (o : Other) : (otherStep d o).place = d.place := by
  cases o with
  | observe o error => rfl
  | requestSwitch mode => rfl
  | claim now c => simp only [otherStep]; split <;> rfl
  | mqtt now m => simp only [otherStep]; split <;> rfl

theorem keptExpected {d : Device} {i : Input} {e : Recovery} (notSnapshot : i ≠ .snapshot)
    (notHealth : ∀ now, i ≠ .readHealth now) (holds : (step d i).place.expected = some e) :
    d.place.expected = some e := by
  cases i with
  | other o => rwa [step,otherPlace] at holds
  | snapshot => exact absurd rfl notSnapshot
  | readHealth now => exact absurd rfl (notHealth now)
  | lifecycle i =>
    cases at_ : d.place <;> simp only [step,at_] at holds
    case idle =>
      split at holds
      · exact at_ ▸ holds
      · exact at_ ▸ holds
    all_goals exact holds
  | drop =>
    cases at_ : d.place <;> simp only [step,at_] at holds
    case snapped => exact nomatch holds
    all_goals exact holds
  | takeLoss =>
    cases at_ : d.place <;> simp only [step,at_] at holds
    case snapped expected =>
      split at holds
      · exact nomatch holds
      · exact holds
    all_goals exact holds
  | enter =>
    cases at_ : d.place <;> simp only [step,at_] at holds
    case snapped expected => exact idleExpected (p := .entered expected) holds
    all_goals exact holds
  | matchMode =>
    cases at_ : d.place <;> simp only [step,at_] at holds
    case entered expected => exact idleExpected (p := .matched expected) holds
    all_goals exact holds
  | guard now =>
    cases at_ : d.place <;> simp only [step,at_] at holds
    case matched expected =>
      split at holds
      · exact idleExpected (p := .guarded expected) holds
      · exact holds
    all_goals exact holds
  | commit =>
    cases at_ : d.place <;> simp only [step,at_] at holds
    case guarded expected => split at holds <;> exact nomatch holds
    all_goals exact holds
  | leave =>
    cases at_ : d.place <;> simp only [step,at_] at holds
    all_goals exact holds
  | finish =>
    cases at_ : d.place <;> simp only [step,at_] at holds
    case recovering =>
      split at holds
      · exact nomatch holds
      · exact nomatch at_ ▸ holds
    all_goals exact holds

theorem stepExpected {d : Device} {i : Input} {expected : Recovery}
    (holds : (step d i).place.expected = some expected) : Sourced d i expected := by
  by_cases snapshot : i = .snapshot
  · subst snapshot
    cases at_ : d.place with
    | idle =>
      simp only [step,at_] at holds
      by_cases session : d.modem.place = .session
      · rw [if_pos session] at holds
        obtain rfl := Option.some.inj holds
        exact .snapshot rfl rfl rfl rfl (by simp [step,at_,session])
      · rw [if_neg session,at_] at holds
        exact nomatch holds
    | snapped | entered | matched | guarded | committed | recovering =>
      simp only [step,at_] at holds
      exact .kept (at_ ▸ holds) (by simp [step,at_,isObserve])
  · by_cases health : ∃ now, i = .readHealth now
    · obtain ⟨now,rfl⟩ := health
      have since := stepSince (d := d) snapshot
      cases at_ : d.place with
      | snapped old =>
        simp only [step,at_] at holds
        by_cases isMqtt : d.mode = .mqtt
        · rw [if_pos isMqtt] at holds
          obtain rfl := Option.some.inj holds
          exact .readHealth now rfl old (congrArg Place.expected at_) rfl rfl rfl since
        · rw [if_neg isMqtt] at holds
          exact .kept holds since
      | idle | entered | matched | guarded | committed | recovering =>
        simp only [step,at_] at holds
        exact .kept (at_ ▸ holds) since
    · exact .kept (keptExpected snapshot (fun now is => health ⟨now,is⟩) holds) (stepSince snapshot)

/-- In the run `a` the values expected now were read at the last snapshot and, for MQTT,
after it. -/
def Taken (mode : BackendMode) (pendingVerify : Bool) (a : List Input) (expected : Recovery) : Prop :=
  ∃ b c, a = b ++ .snapshot::c ∧ expected.ppp = (run mode pendingVerify b).modem.ppp ∧
    expected.backend = (run mode pendingVerify b).mode ∧
    (run mode pendingVerify a).since = observations c ∧
    (expected.mqtt = noHealth ∨ ∃ before now after, c = before ++ .readHealth now::after ∧
      expected.mqtt = (mqttGetHealth (run mode pendingVerify (b ++ .snapshot::before)).mqtt now).2)

theorem takenRun {a : List Input} {expected : Recovery}
    (holds : (run mode pendingVerify a).place.expected = some expected) : Taken mode pendingVerify a expected := by
  induction a using List.reverseRecOn generalizing expected with
  | nil => exact nomatch holds
  | append_singleton a i ih =>
    rw [runConcat] at holds
    cases stepExpected holds with
    | snapshot is ppp backend mqtt since =>
      subst is
      refine ⟨a,[],rfl,ppp,backend,?_,.inl mqtt⟩
      rw [runConcat]; exact since
    | readHealth now is old before ppp backend mqtt since =>
      subst is
      obtain ⟨b,c,same,ppp',backend',since',_⟩ := ih before
      refine ⟨b,c ++ [.readHealth now],by simp [same],ppp.trans ppp',backend.trans backend',?_,
        .inr ⟨c,now,[],rfl,?_⟩⟩
      · rw [runConcat,since,since',observationsConcat]; rfl
      · rw [← same]; exact mqtt
    | kept before since =>
      obtain ⟨b,c,same,ppp,backend,since',source⟩ := ih before
      refine ⟨b,c ++ [i],by simp [same],ppp,backend,?_,source.imp_right ?_⟩
      · rw [runConcat,since,since',observationsConcat]
      · rintro ⟨first,now,after,rfl,read⟩
        exact ⟨first,now,after ++ [i],by simp,read⟩

theorem lawRun (a : List Input) : Law (run mode pendingVerify a) := by
  induction a using List.reverseRecOn with
  | nil => trivial
  | append_singleton a i ih => rw [runConcat]; exact stepLaw ih i

/-- What stands when the lifecycle is stopped for a reset. -/
structure Evidence (d : Device) (expected : Recovery) : Prop where
  free : Free d.claims
  mode : d.mode = expected.backend
  isUp : modemPppIsUp d.modem.ppp = true
  attempt : d.modem.ppp.attempt = expected.ppp.attempt
  sequence : d.modem.ppp.sequence = expected.ppp.sequence
  unobserved : d.since < 4294967296 → d.since = 0
  mqtt : expected.backend = .mqtt → MqttEvidence d.mqtt expected.mqtt

/-- This step is the one at which a call decides for the reset. -/
def Commits (d : Device) (i : Input) : Prop := d.place ≠ .committed ∧ (step d i).place = .committed

def isSection : Input → Bool
  | .enter => true
  | .matchMode => true
  | .guard _ => true
  | .commit => true
  | .leave => true
  | _ => false

theorem committedFrom {d : Device} {i : Input} (commits : Commits d i) :
    i = .commit ∧ ∃ expected, d.place = .guarded expected := by
  obtain ⟨fresh,now⟩ := commits
  cases i with
  | other o => exact absurd ((otherPlace d o).symm.trans now) fresh
  | commit =>
    cases at_ : d.place with
    | guarded expected => exact ⟨rfl,expected,rfl⟩
    | idle | snapped | entered | matched | committed | recovering => simp [step,at_] at now fresh
  | lifecycle | snapshot | readHealth | drop | takeLoss | enter | matchMode | guard | leave | finish =>
    exfalso
    cases at_ : d.place
    all_goals simp only [at_,step] at now fresh
    all_goals grind

theorem commitEvidence {d : Device} (law : Law d) {expected : Recovery} (at_ : d.place = .guarded expected)
    (commits : Commits d .commit) : Evidence d expected ∧ (step d .commit).modem.ppp.phase = .stopping := by
  obtain ⟨session,free,same,mqtt⟩ : Session d expected ∧ Free d.claims ∧ d.mode = expected.backend ∧
      (expected.backend = .mqtt → MqttEvidence d.mqtt expected.mqtt) := lawAt law at_
  rcases commitFrom at_ session.1 with ⟨isUp,attempt,sequence,_,stopping⟩ | refused
  · refine ⟨⟨free,same,(ModemPpp.isUpIff _).mpr isUp,attempt,sequence,fun few => ?_,mqtt⟩,stopping⟩
    have none : expected.ppp.sequence + UInt32.ofNat d.since = expected.ppp.sequence + 0 := by
      rw [← session.2,sequence,UInt32.add_zero]
    have zero := congrArg UInt32.toNat ((UInt32.add_right_inj _).mp none)
    rwa [UInt32.toNat_ofNat',Nat.mod_eq_of_lt few] at zero
  · have now := commits.2
    rw [refused] at now
    exact nomatch now

theorem recoveringFrom {d : Device} {i : Input} (before : d.place ≠ .recovering)
    (now : (step d i).place = .recovering) : i = .leave ∧ d.place = .committed := by
  cases i with
  | other o => exact absurd ((otherPlace d o).symm.trans now) before
  | leave =>
    cases at_ : d.place with
    | committed => exact ⟨rfl,rfl⟩
    | idle | snapped | entered | matched | guarded | recovering => simp [step,at_] at now before
  | lifecycle | snapshot | readHealth | drop | takeLoss | enter | matchMode | guard | commit | finish =>
    exfalso
    cases at_ : d.place
    all_goals simp only [at_,step] at now before
    all_goals grind

/-- A call that has not decided for the reset has changed neither the lifecycle nor a claim. -/
theorem sectionKeeps {d : Device} {i : Input} (of : isSection i = true)
    (refused : (step d i).place ≠ .committed ∧ (step d i).place ≠ .recovering) :
    (step d i).modem = d.modem ∧ (step d i).claims = d.claims := by
  cases i with
  | enter | matchMode => cases at_ : d.place <;> simp [step,at_]
  | guard now =>
    cases at_ : d.place <;> simp only [step,at_,and_self]
    split <;> exact ⟨rfl,rfl⟩
  | commit =>
    cases at_ : d.place <;> simp only [step,at_,and_self]
    rename_i expected
    simp only [step,at_] at refused
    split at refused
    · exact absurd rfl refused.1
    · rename_i no
      rw [if_neg no]; exact ⟨rfl,rfl⟩
  | leave =>
    cases at_ : d.place <;> simp only [step,at_,and_self]
    simp [step,at_] at refused
  | other | lifecycle | snapshot | readHealth | drop | takeLoss | finish => exact nomatch of

theorem recoveringKept {d : Device} (at_ : d.place = .recovering) {i : Input} (notFinish : i ≠ .finish) :
    (step d i).place = .recovering := by
  cases i with
  | other o => rw [step,otherPlace]; exact at_
  | finish => exact absurd rfl notFinish
  | lifecycle | snapshot | readHealth | drop | takeLoss | enter | matchMode | guard | commit | leave =>
    simp only [step,at_]

theorem recoveringRun {a b : List Input} (at_ : (run mode pendingVerify a).place = .recovering)
    (notFinish : .finish ∉ b) : (run mode pendingVerify (a ++ b)).place = .recovering := by
  induction b using List.reverseRecOn with
  | nil => rwa [List.append_nil]
  | append_singleton b i ih =>
    rw [← List.append_assoc,runConcat]
    have before := ih fun found => notFinish (List.mem_append_left _ found)
    exact recoveringKept before fun is => notFinish (by simp [is])

theorem recoveringLaw {a : List Input} (at_ : (run mode pendingVerify a).place = .recovering) :
    (run mode pendingVerify a).modem.ppp.phase = .stopping ∧
      (run mode pendingVerify a).claims.modemRecoveryBusy = true :=
  lawAt (lawRun a) at_

theorem busyRefuses {c : Claims} (busy : c.modemRecoveryBusy = true) : claimInProgress c = (false,c) := by
  simp [claimInProgress,busy]

structure CurrentEvidence : Prop where
  decides : ∀ mode pendingVerify a i, Commits (run mode pendingVerify a) i →
    i = .commit ∧ ∃ expected, Taken mode pendingVerify a expected ∧
      Evidence (run mode pendingVerify a) expected ∧
      (run mode pendingVerify (a ++ [i])).modem.ppp.phase = .stopping
  returnsTrue : ∀ mode pendingVerify a i, (run mode pendingVerify a).place ≠ .recovering →
    (run mode pendingVerify (a ++ [i])).place = .recovering →
    i = .leave ∧ (run mode pendingVerify a).place = .committed
  refused : ∀ mode pendingVerify a i, isSection i = true →
    (run mode pendingVerify (a ++ [i])).place ≠ .committed →
    (run mode pendingVerify (a ++ [i])).place ≠ .recovering →
    (run mode pendingVerify (a ++ [i])).modem = (run mode pendingVerify a).modem ∧
      (run mode pendingVerify (a ++ [i])).claims = (run mode pendingVerify a).claims
  excluded : ∀ mode pendingVerify a b, (run mode pendingVerify a).place = .recovering → .finish ∉ b →
    (run mode pendingVerify (a ++ b)).modem.ppp.phase = .stopping ∧
      claimInProgress (run mode pendingVerify (a ++ b)).claims =
        (false,(run mode pendingVerify (a ++ b)).claims)

theorem currentEvidence : CurrentEvidence where
  decides mode pendingVerify a i commits := by
    obtain ⟨rfl,expected,at_⟩ := committedFrom commits
    obtain ⟨evidence,stopping⟩ := commitEvidence (lawRun a) at_ commits
    refine ⟨rfl,expected,takenRun (congrArg Place.expected at_),evidence,?_⟩
    rw [runConcat]; exact stopping
  returnsTrue mode pendingVerify a i before now := by
    rw [runConcat] at now; exact recoveringFrom before now
  refused mode pendingVerify a i of notCommitted notRecovering := by
    rw [runConcat] at notCommitted notRecovering ⊢
    exact sectionKeeps of ⟨notCommitted,notRecovering⟩
  excluded mode pendingVerify a b at_ notFinish := by
    obtain ⟨stopping,busy⟩ := recoveringLaw (recoveringRun at_ notFinish)
    exact ⟨stopping,busyRefuses busy⟩

/-! The sequence is 32 bits wide: a multiple of 2^32 observations leaves it where it was. -/

def renewal : Input := .other (.observe .gotIp 0)

def opening : List Input :=
  [.lifecycle .beginAttempt,.lifecycle .startDial,.lifecycle .bringupDone,renewal,.lifecycle (.waitTurn false),
    .snapshot]

def renewed (n : Nat) : List Input := opening ++ List.replicate n renewal ++ [.enter,.matchMode,.guard 0]

theorem renewalsKeep {d : Device} (isUp : d.modem.ppp.phase = .up) (n : Nat) :
    let e := (List.replicate n renewal).foldl step d
    e.modem.ppp.phase = .up ∧ e.modem.place = d.modem.place ∧ e.modem.ppp.attempt = d.modem.ppp.attempt ∧
      e.modem.ppp.sequence = d.modem.ppp.sequence + UInt32.ofNat n ∧ e.place = d.place ∧ e.claims = d.claims ∧
      e.mode = d.mode ∧ e.since = d.since + n := by
  induction n generalizing d with
  | zero => simp [isUp]
  | succ n ih =>
    have moved : (step d renewal).modem.ppp =
        { d.modem.ppp with
          sequence := d.modem.ppp.sequence+1, observation := .gotIp, error := 0, phase := .up, hadIp := true } := by
      simp [renewal,step,otherStep,ModemPpp.step,ModemPpp.observed,ModemPpp.pppEventsObserve,isUp]
    obtain ⟨up,place,attempt,sequence,rest⟩ := ih (d := step d renewal) (by rw [moved])
    rw [moved] at attempt sequence
    refine ⟨up,place,attempt,sequence.trans ?_,rest.1,rest.2.1,rest.2.2.1,rest.2.2.2.trans ?_⟩
    · rw [UInt32.ofNat_add,UInt32.add_assoc,UInt32.add_comm 1]
      rfl
    · show d.since + 1 + n = d.since + (n+1)
      omega

theorem guardedAlone {d : Device} {expected : Recovery} (at_ : d.place = .snapped expected) (free : Free d.claims)
    (same : d.mode = expected.backend) (notMqtt : expected.backend ≠ .mqtt) (now : Nat) :
    [Input.enter,.matchMode,.guard now].foldl step d = { d with place := .guarded expected } := by
  simp only [List.foldl_cons,List.foldl_nil]
  rw [enterFrom at_,if_pos free,matchFrom rfl,if_pos same,passFrom rfl notMqtt]

theorem renewedCommits {n : Nat} (wraps : UInt32.ofNat n = 0) :
    Commits (run .http false (renewed n)) .commit ∧ (run .http false (renewed n)).since = n := by
  let opened := run .http false opening
  let expected : Recovery := ⟨opened.modem.ppp,noHealth,.http⟩
  let d := (List.replicate n renewal).foldl step opened
  obtain ⟨isUp,place,attempt,sequence,at_,claims,mode,since⟩ :=
    renewalsKeep (d := opened) (by decide) n
  have guarded : run .http false (renewed n) = { d with place := .guarded expected } := by
    rw [renewed,run,List.foldl_append,List.foldl_append]
    exact guardedAlone at_ (claims ▸ by decide) mode (by decide) 0
  rw [guarded]
  rw [wraps,UInt32.add_zero] at sequence
  refine ⟨⟨nofun,?_⟩,since.trans (Nat.zero_add n)⟩
  have current : d.modem.ppp.phase = .up ∧ d.modem.ppp.attempt = expected.ppp.attempt ∧
      d.modem.ppp.sequence = expected.ppp.sequence := ⟨isUp,attempt,sequence⟩
  simp [step,commitPpp,modemRecoveryCommitPpp,current]

/-- The sequence alone does not show every observation. -/
theorem wrappedSequence : ¬∀ mode pendingVerify a i, Commits (run mode pendingVerify a) i →
    (run mode pendingVerify a).since = 0 := by
  intro unobserved
  obtain ⟨commits,since⟩ := renewedCommits (n := 4294967296) (by decide)
  have none := unobserved _ _ _ _ commits
  rw [since] at none
  exact absurd none (by decide)

end Web3PiUps.ModemRecovery
