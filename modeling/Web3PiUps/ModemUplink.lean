import Mathlib.Algebra.Group.Nat.Defs
import Web3PiUps.FwOtaTasks

/-! `supervise_uplink` and the bookkeeping around it in
`firmware-ESP32-LTE-M/main/modem.c`, with `modem_recovery.c`. A pass of the loop is `wake`, up
to the health sample, and `judge`, the rest; each field of an input is one answer the code
asks for, in its order, or the seconds until its next reading of the clock. -/
namespace Web3PiUps.ModemUplink
open FwOta (Claims fwOtaTryModemRecovery)

abbrev uplinkDeadSecs : UInt32 := 300
abbrev uplinkHoldAlertS : UInt32 := 6*uplinkDeadSecs
abbrev inetProbeCacheS : UInt32 := 120
abbrev modemRecoveryRegGraceS : UInt32 := 90
abbrev modemFailsBeforeAlert : Nat := 4
abbrev alertClearResends : Nat := 3
abbrev alertClearResendS : UInt32 := 60

/-- `modem_fail_t`. -/
inductive ModemFail where
  | none
  | noAt
  | radio
  | awake
  | sim
  | net
  | uplink
  deriving DecidableEq, Repr

/-- The stages a bring-up without an IP leaves behind. -/
inductive BringupFail where
  | noAt
  | radio
  | awake
  | sim
  | net
  deriving DecidableEq, Repr

def BringupFail.stage : BringupFail → ModemFail
  | .noAt => .noAt
  | .radio => .radio
  | .awake => .awake
  | .sim => .sim
  | .net => .net

inductive TeardownAction where
  | moduleReset
  | pwrcycle
  deriving DecidableEq, Repr

/-! `modem_recovery.c`; a reply is what the parser makes of it. -/

/-- `modem_recovery_t`. -/
structure Recovery where
  registrationKnown : Bool
  registered : Bool
  graceUsed : Bool
  graceStartedS : UInt32
  deriving DecidableEq, Repr

def modemRecoveryInit : Recovery := ⟨false,false,false,0⟩

def modemRecoveryObserveRegistration (r : Recovery) (reply : Option Bool) (now : UInt32) : Recovery × Bool :=
  match reply with
  | none => (r,false)
  | some registered =>
    let returned := r.registrationKnown && !r.registered && registered
    let known := { r with registrationKnown := true, registered := registered }
    if !returned || r.graceUsed then (known,false)
    else ({ known with graceUsed := true, graceStartedS := now },true)

def modemRecoveryGraceActive (r : Recovery) (now : UInt32) : Bool :=
  r.graceUsed && now-r.graceStartedS < modemRecoveryRegGraceS

def modemRecoveryBackendHealthy (r : Recovery) : Recovery := { r with graceUsed := false, graceStartedS := 0 }

/-- The locals of `supervise_uplink`; it resets `s_uplink_recovery` on entry. -/
structure Session where
  recovery : Recovery
  lastHealthyS : UInt32
  lastClearS : UInt32
  lastProbeOkS : UInt32
  deriving DecidableEq, Repr

inductive Place where
  | down
  | waiting (x : Session)
  | sampled (x : Session) (wdHealthy : Bool)
  deriving DecidableEq, Repr

/-- `t` counts the seconds since the boot; `clock` is `s_uplink_last_healthy_s`. -/
structure Supervisor where
  t : Nat
  trips : Nat
  clock : UInt32
  failStage : ModemFail
  failsSinceOk : Nat
  alertActive : Bool
  alertClearPending : Nat
  place : Place
  deriving DecidableEq, Repr

def Supervisor.nowS (s : Supervisor) : UInt32 := .ofNat s.t

def Supervisor.after (s : Supervisor) (seconds : Nat) : Supervisor := { s with t := s.t+seconds }

inductive Sight where
  | atStart
  | afterDiagnostics
  | afterProbe
  | afterSnapshot
  deriving DecidableEq, Repr

/-- What a pass did, with the second of the clock reading it used. -/
inductive Event where
  | began (t : Nat)
  | healthy (t : Nat)
  | ota (sight : Sight) (t : Nat)
  | returned (t : Nat)
  | answered (t : Nat)
  | alert (stage : ModemFail)
  | clear
  | trip (action : TeardownAction) (t : Nat)
  deriving DecidableEq, Repr

abbrev Result := Supervisor × List Event

def Result.behind (seen : List Event) (r : Result) : Result := (r.1,seen ++ r.2)

/-- The bookkeeping of `ppp_supervisor_task` once the link is up. -/
def gotIp (s : Supervisor) : Result :=
  if s.trips = 0 ∧ s.failStage ≠ .uplink then
    if s.alertActive then
      ({ s with
          failsSinceOk := 0, failStage := .none, alertActive := false
          alertClearPending := alertClearResends },[.clear])
    else ({ s with failsSinceOk := 0, failStage := .none },[])
  else (s,[])

/-- The head of `supervise_uplink`. -/
def superviseUplink (s : Supervisor) : Result :=
  ({ s with
      clock := if s.clock = 0 ∨ (s.trips = 0 ∧ s.failStage ≠ .uplink) then s.nowS else s.clock
      place := .waiting ⟨modemRecoveryInit,s.nowS,s.nowS,0⟩ },[.began s.t])

/-- From `stop_ppp` to the next attempt. -/
def stopPpp (s : Supervisor) : Result :=
  if modemFailsBeforeAlert ≤ s.failsSinceOk then
    ({ s with place := .down, alertActive := true },[.alert s.failStage])
  else ({ s with place := .down },[])

def backendHealthy (s : Supervisor) (x : Session) : Result :=
  let s := { s with clock := s.nowS }
  let x := { x with recovery := modemRecoveryBackendHealthy x.recovery, lastHealthyS := s.nowS }
  if s.trips ≠ 0 ∨ s.alertActive then
    if s.alertActive then
      ({ s with
          trips := 0, failsSinceOk := 0, failStage := .none, alertActive := false
          alertClearPending := alertClearResends, place := .sampled { x with lastClearS := s.nowS } true },
        [.healthy s.t,.clear])
    else
      ({ s with trips := 0, failsSinceOk := 0, failStage := .none, place := .sampled x true },[.healthy s.t])
  else ({ s with place := .sampled x true },[.healthy s.t])

structure Wake where
  slept : Nat
  loss : Bool
  ota : Option Nat
  healthy : Bool
  deriving DecidableEq, Repr

def otaRestart (s : Supervisor) (x : Session) (sight : Sight) : Result :=
  ({ s with clock := s.nowS, place := .waiting { x with lastHealthyS := s.nowS } },[.ota sight s.t])

def wake (s : Supervisor) (x : Session) (w : Wake) : Result :=
  let s := s.after w.slept
  if w.loss then stopPpp s
  else
    match w.ota with
    | some seconds => otaRestart (s.after seconds) x .atStart
    | none =>
      if w.healthy then backendHealthy s x
      else if s.alertActive ∧ s.failStage = .uplink then
        ({ s with place := .sampled x false },[.alert .uplink])
      else ({ s with place := .sampled x false },[])

/-- Registration reads, each after some seconds. -/
def snapshots (s : Supervisor) (x : Session) : List (Nat × Option Bool) → Supervisor × Session × List Event
  | [] => (s,x,[])
  | (seconds,reply) :: rest =>
    let s := s.after seconds
    let (recovery,returned) := modemRecoveryObserveRegistration x.recovery reply s.nowS
    let (s',x',seen) := snapshots s { x with recovery } rest
    (s',x',if returned then .returned s.t :: seen else seen)

/-- The part past the internet probe. -/
structure Recheck where
  waited : Nat
  lossAfterProbe : Bool
  otaAfterProbe : Option Nat
  healthyAfterProbe : Bool
  graceRead : Nat
  snapshot : List (Nat × Option Bool)
  lossAfterSnapshot : Bool
  otaAfterSnapshot : Option Nat
  reread : Nat
  healthyAfterSnapshot : Bool
  claims : Claims
  commit : Bool
  deriving DecidableEq, Repr

structure Judge where
  radioPoll : List (Nat × Option Bool)
  loss : Bool
  ota : Option Nat
  reread : Nat
  mqttOwnedFault : Bool
  clientMissing : Bool
  inetProbe : Bool
  recheck : Recheck
  deriving DecidableEq, Repr

def tryModemRecovery (c : Claims) (commit : Bool) : Bool := (fwOtaTryModemRecovery (fun _ => (commit,())) c ()).1

def trip (s : Supervisor) : Result :=
  let s := { s with
    trips := s.trips+1
    failStage := if s.failStage ≠ .uplink then .net else s.failStage
    failsSinceOk := s.failsSinceOk+1 }
  (stopPpp s).behind [.trip (if 2 ≤ s.trips then .pwrcycle else .moduleReset) s.t]

def commitRecovery (s : Supervisor) (x : Session) (r : Recheck) : Result :=
  if r.lossAfterSnapshot then stopPpp s
  else
    match r.otaAfterSnapshot with
    | some seconds => otaRestart (s.after seconds) x .afterSnapshot
    | none =>
      let s := s.after r.reread
      if r.healthyAfterSnapshot then ({ s with place := .waiting x },[])
      else if modemRecoveryGraceActive x.recovery s.nowS then ({ s with place := .waiting x },[])
      else if !tryModemRecovery r.claims r.commit then ({ s with place := .waiting x },[])
      else trip s

def recheck (s : Supervisor) (x : Session) (r : Recheck) : Result :=
  let s := s.after r.waited
  if r.lossAfterProbe then stopPpp s
  else
    match r.otaAfterProbe with
    | some seconds => otaRestart (s.after seconds) x .afterProbe
    | none =>
      if r.healthyAfterProbe then ({ s with place := .waiting x },[])
      else
        let s := s.after r.graceRead
        if modemRecoveryGraceActive x.recovery s.nowS then ({ s with place := .waiting x },[])
        else
          let (s,x,seen) := snapshots s x r.snapshot
          (commitRecovery s x r).behind seen

def hold (s : Supervisor) (x : Session) : Result :=
  if uplinkHoldAlertS ≤ s.nowS-s.clock then
    ({ s with failStage := .uplink, alertActive := true, place := .waiting x },[.alert .uplink])
  else ({ s with place := .waiting x },[])

def decideRecovery (s : Supervisor) (x : Session) (j : Judge) : Result :=
  let cached := decide (s.nowS-x.lastProbeOkS < inetProbeCacheS)
  let answers := !j.mqttOwnedFault && !cached && !j.clientMissing && j.inetProbe
  let x := if answers then { x with lastProbeOkS := s.nowS } else x
  let inetOk := cached || answers
  Result.behind (if answers then [.answered s.t] else [])
    (if j.mqttOwnedFault || (inetOk && !j.clientMissing) then hold s x else recheck s x j.recheck)

def resendClear (s : Supervisor) (x : Session) (wdHealthy : Bool) : Supervisor × Session × List Event :=
  if 0 < s.alertClearPending ∧ wdHealthy ∧ alertClearResendS ≤ s.nowS-x.lastClearS then
    ({ s with alertClearPending := s.alertClearPending-1 },{ x with lastClearS := s.nowS },[.clear])
  else (s,x,[])

def judge (s : Supervisor) (x : Session) (wdHealthy : Bool) (j : Judge) : Result :=
  let (s,x,seen) := snapshots s x j.radioPoll
  Result.behind seen
    (if j.loss then stopPpp s
    else
      match j.ota with
      | some seconds =>
        let s := s.after seconds
        ({ s with place := .waiting { x with lastHealthyS := s.nowS } },[.ota .afterDiagnostics s.t])
      | none =>
        let (s,x,sent) := resendClear (s.after j.reread) x wdHealthy
        Result.behind sent
          (if uplinkDeadSecs ≤ s.nowS-x.lastHealthyS then decideRecovery s x j
          else ({ s with place := .waiting x },[])))

/-- `failed` is an attempt without an IP, `up` one with; `up` is lost before the loop
unless `entered`. -/
inductive Input where
  | failed (seconds : Nat) (stage : Option BringupFail)
  | up (seconds : Nat) (entered : Bool)
  | wake (w : Wake)
  | judge (j : Judge)
  deriving DecidableEq, Repr

def failed (s : Supervisor) (stage : Option BringupFail) : Result :=
  stopPpp { s with
    failStage := match stage with
      | some f => f.stage
      | none => s.failStage
    failsSinceOk := s.failsSinceOk+1 }

def up (s : Supervisor) (entered : Bool) : Result :=
  let (s,sent) := gotIp s
  Result.behind sent (if entered then superviseUplink s else stopPpp s)

def step (s : Supervisor) : Input → Result
  | .failed seconds stage =>
    match s.place with
    | .down => failed (s.after seconds) stage
    | _ => (s,[])
  | .up seconds entered =>
    match s.place with
    | .down => up (s.after seconds) entered
    | _ => (s,[])
  | .wake w =>
    match s.place with
    | .waiting x => wake s x w
    | _ => (s,[])
  | .judge j =>
    match s.place with
    | .sampled x wdHealthy => judge s x wdHealthy j
    | _ => (s,[])

def Supervisor.boot (t : Nat) : Supervisor := ⟨t,0,0,.none,0,false,0,.down⟩

/-- The supervisor and everything done so far, the latest first. -/
def advance (r : Result) (i : Input) : Result := ((step r.1 i).1,(step r.1 i).2.reverse ++ r.2)

def run (t : Nat) (inputs : List Input) : Result := inputs.foldl advance (.boot t,[])

theorem runConcat (t : Nat) (a : List Input) (i : Input) : run t (a ++ [i]) = advance (run t a) i := by
  simp only [run,List.foldl_append,List.foldl_cons,List.foldl_nil]

/-- What the loop in progress did, with its start. -/
def session : List Event → List Event
  | [] => []
  | .began t :: _ => [.began t]
  | e :: rest => e :: session rest

/-- The trips since the last healthy sample. -/
def tripsSince : List Event → Nat
  | [] => 0
  | .healthy _ :: _ => 0
  | .trip _ _ :: rest => tripsSince rest+1
  | _ :: rest => tripsSince rest

/-- Time goes by; registration is read and a clear sent again. -/
inductive Elapsed : Supervisor → Session → Supervisor → Session → List Event → Prop where
  | refl (s x) : Elapsed s x s x []
  | later {s x s' x' seen} (seconds) (next : Elapsed (s.after seconds) x s' x' seen) : Elapsed s x s' x' seen
  | unread {s x s' x' seen} (recovery : Recovery) (same : recovery.graceUsed = x.recovery.graceUsed)
      (started : recovery.graceStartedS = x.recovery.graceStartedS)
      (next : Elapsed s { x with recovery } s' x' seen) : Elapsed s x s' x' seen
  | returned {s x s' x' seen} (recovery : Recovery) (first : x.recovery.graceUsed = false)
      (used : recovery.graceUsed = true) (started : recovery.graceStartedS = s.nowS)
      (next : Elapsed s { x with recovery } s' x' seen) : Elapsed s x s' x' (.returned s.t :: seen)
  | resent {s x s' x' seen} (pending : Nat) (lastClearS : UInt32)
      (next : Elapsed { s with alertClearPending := pending } { x with lastClearS } s' x' seen) :
      Elapsed s x s' x' (.clear :: seen)

theorem Elapsed.trans {s x s₁ x₁ s₂ x₂ a b} (first : Elapsed s x s₁ x₁ a) (second : Elapsed s₁ x₁ s₂ x₂ b) :
    Elapsed s x s₂ x₂ (a ++ b) := by
  induction first with
  | refl => exact second
  | later seconds _ ih => exact .later seconds (ih second)
  | unread recovery same started _ ih => exact .unread recovery same started (ih second)
  | returned recovery first used started _ ih => exact .returned recovery first used started (ih second)
  | resent pending lastClearS _ ih => exact .resent pending lastClearS (ih second)

theorem Elapsed.waits {s x s₁ x₁ a} (first : Elapsed s x s₁ x₁ a) (seconds : Nat) :
    Elapsed s x (s₁.after seconds) x₁ a := by
  simpa using first.trans (.later seconds (.refl _ _))

structure Elapsed.Same (s : Supervisor) (x : Session) (s' : Supervisor) (x' : Session) : Prop where
  trips : s'.trips = s.trips
  clock : s'.clock = s.clock
  failStage : s'.failStage = s.failStage
  failsSinceOk : s'.failsSinceOk = s.failsSinceOk
  alertActive : s'.alertActive = s.alertActive
  lastHealthyS : x'.lastHealthyS = x.lastHealthyS
  lastProbeOkS : x'.lastProbeOkS = x.lastProbeOkS
  forward : s.t ≤ s'.t

theorem Elapsed.same {s x s' x' seen} (e : Elapsed s x s' x' seen) : Elapsed.Same s x s' x' := by
  induction e with
  | refl => exact ⟨rfl,rfl,rfl,rfl,rfl,rfl,rfl,Nat.le_refl _⟩
  | later seconds _ ih => exact { ih with forward := Nat.le_trans (Nat.le_add_right _ seconds) ih.forward }
  | unread _ _ _ _ ih => exact { ih with }
  | returned _ _ _ _ _ ih => exact { ih with }
  | resent _ _ _ ih => exact { ih with }

theorem Elapsed.events {s x s' x' seen} (e : Elapsed s x s' x' seen) :
    ∀ ev ∈ seen, ev = .clear ∨ ∃ t, ev = .returned t := by
  induction e with
  | refl => simp
  | later _ _ ih => exact ih
  | unread _ _ _ _ ih => exact ih
  | @returned s _ _ _ _ _ _ _ _ _ ih =>
    intro ev mem
    rcases List.mem_cons.mp mem with rfl | rest
    · exact .inr ⟨s.t,rfl⟩
    · exact ih ev rest
  | resent _ _ _ ih =>
    intro ev mem
    rcases List.mem_cons.mp mem with rfl | rest
    · exact .inl rfl
    · exact ih ev rest

theorem snapshotsElapse (reads : List (Nat × Option Bool)) (s : Supervisor) (x : Session) :
    Elapsed s x (snapshots s x reads).1 (snapshots s x reads).2.1 (snapshots s x reads).2.2 := by
  induction reads generalizing s x with
  | nil => exact .refl s x
  | cons r rest ih =>
    obtain ⟨seconds,reply⟩ := r
    refine .later seconds ?_
    have next := ih (s.after seconds)
      { x with recovery := (modemRecoveryObserveRegistration x.recovery reply (s.after seconds).nowS).1 }
    simp only [snapshots]
    revert next
    fun_cases modemRecoveryObserveRegistration x.recovery reply (s.after seconds).nowS with
    | case1 => exact fun next => .unread _ rfl rfl next
    | case2 registered returned known skip =>
      intro next
      simp only [Bool.false_eq_true,if_false]
      exact .unread known rfl rfl next
    | case3 registered returned known fresh =>
      intro next
      have unused : x.recovery.graceUsed = false := by simp at fresh; exact fresh.2
      exact .returned _ unused rfl rfl next

/-- The seconds that the reads take. -/
def readSeconds (reads : List (Nat × Option Bool)) : Nat := reads.foldr (fun r rest => r.1+rest) 0

theorem snapshotsTime (reads : List (Nat × Option Bool)) (s : Supervisor) (x : Session) :
    (snapshots s x reads).1.t = s.t+readSeconds reads := by
  induction reads generalizing s x with
  | nil => rfl
  | cons r rest ih =>
    have more : readSeconds (r :: rest) = r.1+readSeconds rest := rfl
    simp only [snapshots,ih,more,Supervisor.after]
    omega

theorem resendClearElapses (s : Supervisor) (x : Session) (wdHealthy : Bool) :
    Elapsed s x (resendClear s x wdHealthy).1 (resendClear s x wdHealthy).2.1 (resendClear s x wdHealthy).2.2 := by
  unfold resendClear
  split
  · exact .resent _ _ (.refl _ _)
  · exact .refl s x

/-- What a trip was decided on: `d` and `x` stand at the decision, `s` and `y` at the commit. -/
structure Warranted (j : Judge) (d : Supervisor) (x : Session) (s : Supervisor) (y : Session) : Prop where
  dead : uplinkDeadSecs ≤ d.nowS-x.lastHealthyS
  notOwned : j.mqttOwnedFault = false
  noAnswer : j.clientMissing = true ∨ inetProbeCacheS ≤ d.nowS-x.lastProbeOkS
  noTransfer : j.ota = none ∧ j.recheck.otaAfterProbe = none ∧ j.recheck.otaAfterSnapshot = none
  unhealthy : j.recheck.healthyAfterProbe = false ∧ j.recheck.healthyAfterSnapshot = false
  noGrace : modemRecoveryGraceActive y.recovery s.nowS = false
  committed : tryModemRecovery j.recheck.claims j.recheck.commit = true

def stamped (answers : Bool) (s : Supervisor) (x : Session) : Session :=
  if answers then { x with lastProbeOkS := s.nowS } else x

def stamp (answers : Bool) (s : Supervisor) : List Event := if answers then [.answered s.t] else []

inductive Judged (s : Supervisor) (x : Session) (j : Judge) : Result → Prop where
  | lost {s' x' seen} (e : Elapsed s x s' x' seen) : Judged s x j ((stopPpp s').behind seen)
  | frozen {s' x' seen} (e : Elapsed s x s' x' seen) :
      Judged s x j ({ s' with place := .waiting { x' with lastHealthyS := s'.nowS } },
        seen ++ [.ota .afterDiagnostics s'.t])
  | restarted {s' x' seen} (e : Elapsed s x s' x' seen) (sight) (late : sight ≠ .afterDiagnostics)
      (seen_ : (j.recheck.otaAfterProbe.isSome || j.recheck.otaAfterSnapshot.isSome) = true) :
      Judged s x j ((otaRestart s' x' sight).behind seen)
  | stays {s' x' seen} (e : Elapsed s x s' x' seen) (answers : Bool) :
      Judged s x j ({ s' with place := .waiting (stamped answers s' x') },seen ++ stamp answers s')
  | held {s' x' seen} (e : Elapsed s x s' x' seen) (answers : Bool) :
      Judged s x j ({ s' with
        failStage := .uplink, alertActive := true, place := .waiting (stamped answers s' x') },
        seen ++ stamp answers s' ++ [.alert .uplink])
  | tripped {d y s' x' early late} (before : Elapsed s x d y early) (after : Elapsed d y s' x' late)
      (why : Warranted j d y s' x') : Judged s x j ((trip s').behind (early ++ late))

theorem Judged.behind {s x s₁ x₁ a j r} (first : Elapsed s x s₁ x₁ a) (next : Judged s₁ x₁ j r) :
    Judged s x j (r.behind a) := by
  cases next with
  | lost e => simpa [Result.behind] using Judged.lost (j := j) (first.trans e)
  | frozen e => simpa [Result.behind] using Judged.frozen (j := j) (first.trans e)
  | restarted e sight late seen_ =>
    simpa [Result.behind] using Judged.restarted (j := j) (first.trans e) sight late seen_
  | stays e answers => simpa [Result.behind] using Judged.stays (j := j) (first.trans e) answers
  | held e answers => simpa [Result.behind] using Judged.held (j := j) (first.trans e) answers
  | tripped before after why => simpa [Result.behind] using Judged.tripped (first.trans before) after why

theorem Judged.quiet {s x s' x' seen j} (e : Elapsed s x s' x' seen) :
    Judged s x j ({ s' with place := .waiting x' },seen) := by
  simpa [stamp,stamped] using Judged.stays (j := j) e false

/-- What held when the rechecks began. -/
structure Suspected (j : Judge) (d : Supervisor) (x : Session) : Prop where
  dead : uplinkDeadSecs ≤ d.nowS-x.lastHealthyS
  notOwned : j.mqttOwnedFault = false
  noAnswer : j.clientMissing = true ∨ inetProbeCacheS ≤ d.nowS-x.lastProbeOkS
  noTransfer : j.ota = none

theorem commitJudged {d y s x late j} (after : Elapsed d y s x late) (suspected : Suspected j d y)
    (noTransfer : j.recheck.otaAfterProbe = none) (unhealthy : j.recheck.healthyAfterProbe = false) :
    Judged d y j ((commitRecovery s x j.recheck).behind late) := by
  fun_cases commitRecovery s x j.recheck with
  | case1 => exact .lost after
  | case2 _ seconds some => exact .restarted (after.waits seconds) .afterSnapshot (by decide) (by simp [some])
  | case3 => simpa [Result.behind] using Judged.quiet (after.waits j.recheck.reread)
  | case4 => simpa [Result.behind] using Judged.quiet (after.waits j.recheck.reread)
  | case5 => simpa [Result.behind] using Judged.quiet (after.waits j.recheck.reread)
  | case6 _ none _ ill grace committed =>
    have why : Warranted j d y (s.after j.recheck.reread) x :=
      ⟨suspected.dead,suspected.notOwned,suspected.noAnswer,⟨suspected.noTransfer,noTransfer,none⟩,
        ⟨unhealthy,by simpa using ill⟩,by simpa using grace,by simpa using committed⟩
    simpa using Judged.tripped (.refl d y) (after.waits j.recheck.reread) why

theorem recheckJudged {d y j} (suspected : Suspected j d y) : Judged d y j (recheck d y j.recheck) := by
  have waited : Elapsed d y (d.after j.recheck.waited) y [] := (Elapsed.refl d y).waits _
  fun_cases recheck d y j.recheck with
  | case1 => simpa [Result.behind] using Judged.lost (j := j) waited
  | case2 _ _ seconds some =>
    have probed : (j.recheck.otaAfterProbe.isSome || j.recheck.otaAfterSnapshot.isSome) = true := by simp [some]
    simpa [Result.behind] using Judged.restarted (j := j) (waited.waits seconds) .afterProbe (by decide) probed
  | case3 => exact .quiet waited
  | case4 => exact .quiet (waited.waits j.recheck.graceRead)
  | case5 s _ none ill s₁ _ s₂ x₂ seen taken =>
    have taken' := snapshotsElapse j.recheck.snapshot s₁ y
    rw [taken] at taken'
    exact commitJudged (by simpa using (waited.waits j.recheck.graceRead).trans taken') suspected none (by simpa using ill)

theorem holdJudged (s : Supervisor) (x : Session) (answers : Bool) (j : Judge) :
    Judged s x j ((hold s (stamped answers s x)).behind (stamp answers s)) := by
  unfold hold
  split
  · exact .held (.refl s x) answers
  · simpa [Result.behind] using Judged.stays (j := j) (.refl s x) answers

def probeAnswers (s : Supervisor) (x : Session) (j : Judge) : Bool :=
  !j.mqttOwnedFault && !decide (s.nowS-x.lastProbeOkS < inetProbeCacheS) && !j.clientMissing && j.inetProbe

def holds (s : Supervisor) (x : Session) (j : Judge) : Bool :=
  j.mqttOwnedFault || ((decide (s.nowS-x.lastProbeOkS < inetProbeCacheS) || probeAnswers s x j) && !j.clientMissing)

theorem decideEq (s : Supervisor) (x : Session) (j : Judge) :
    decideRecovery s x j = Result.behind (stamp (probeAnswers s x j) s)
      (if holds s x j then hold s (stamped (probeAnswers s x j) s x)
      else recheck s (stamped (probeAnswers s x j) s x) j.recheck) := rfl

theorem decideJudged {s x j} (dead : uplinkDeadSecs ≤ s.nowS-x.lastHealthyS) (noTransfer : j.ota = none) :
    Judged s x j (decideRecovery s x j) := by
  rw [decideEq]
  split
  · exact holdJudged s x (probeAnswers s x j) j
  · rename_i go
    rw [holds,Bool.or_eq_true,not_or,Bool.and_eq_true,not_and,Bool.or_eq_true] at go
    obtain ⟨notOwned,noAnswer⟩ := go
    have missing (fresh : s.nowS-x.lastProbeOkS < inetProbeCacheS) : j.clientMissing = true := by
      simpa using noAnswer (.inl (decide_eq_true fresh))
    have silent : probeAnswers s x j = false := by
      rw [Bool.eq_false_iff]
      intro answers
      have here : j.clientMissing = true := by simpa using noAnswer (.inr answers)
      simp [probeAnswers,here] at answers
    have suspected : Suspected j s x := by
      refine ⟨dead,by simpa using notOwned,?_,noTransfer⟩
      by_cases fresh : s.nowS-x.lastProbeOkS < inetProbeCacheS
      · exact .inl (missing fresh)
      · exact .inr (UInt32.not_lt.mp fresh)
    rw [silent]
    exact recheckJudged suspected

theorem judged (s : Supervisor) (x : Session) (wdHealthy : Bool) (j : Judge) :
    Judged s x j (judge s x wdHealthy j) := by
  unfold judge
  have polled := snapshotsElapse j.radioPoll s x
  generalize snapshots s x j.radioPoll = taken at polled
  obtain ⟨s₁,x₁,seen⟩ := taken
  dsimp only
  split
  · exact .lost polled
  · split
    · rename_i seconds _
      exact .frozen (polled.waits seconds)
    · rename_i none
      have resent := resendClearElapses (s₁.after j.reread) x₁ wdHealthy
      refine .behind (polled.waits j.reread) (.behind resent ?_)
      split
      · rename_i dead
        exact decideJudged dead none
      · exact .quiet (.refl _ _)

end Web3PiUps.ModemUplink
