import Web3PiUps.ModemUplink

/-! The retry ladder of `ppp_supervisor_task`: the counters of failed bring-ups, the
power-cycle, the alert and the back-off. The supervisor with its session is `ModemUplink`'s;
here a bring-up fails at one of its exits, and every turn of the loop ends in `stop_ppp`. -/
namespace Web3PiUps.ModemLadder
open ModemUplink

abbrev pppBackoffMinMs : Nat := 1000
abbrev pppBackoffMaxMs : Nat := 60000
abbrev degradedBackoffMs : Nat := 10000
abbrev pppFailsBeforePwrcycle : Nat := 5
abbrev degradedFailsBeforePwrcycle : Nat := 2
abbrev regTimeoutPwrcycleEvery : Nat := 5

def modemFailMsg : ModemFail → String
  | .radio => "RADIO CONFIG"
  | .awake => "MODEM CONFIG"
  | .sim => "SIM ERROR"
  | .net => "NO NETWORK"
  | .uplink => "NO UPLINK"
  | .noAt => "MODEM FAIL"
  | .none => "MODEM FAIL"

/-- The returns of `ppp_bringup_dce` other than `ESP_OK`, in their order, and the two ways
to get no IP after it. -/
inductive BringupExit where
  | wrongCore
  | baud
  | newDev
  | sync
  | radioPrepare
  | awakePrepare
  | ccid
  | iccid
  | apn
  | attachApn
  | radioResume
  | registration
  | awakeCheck
  | cmuxMode
  | dataMode
  | pppDown
  | pppTimeout
  deriving DecidableEq, Repr

/-- The stage an exit writes. -/
def BringupExit.own : BringupExit → Option BringupFail
  | .wrongCore => none
  | .baud => some .noAt
  | .newDev => none
  | .sync => some .noAt
  | .radioPrepare => some .radio
  | .awakePrepare => some .awake
  | .ccid => some .sim
  | .iccid => some .sim
  | .apn => some .net
  | .attachApn => some .net
  | .radioResume => some .radio
  | .registration => some .net
  | .awakeCheck => some .awake
  | .cmuxMode => none
  | .dataMode => none
  | .pppDown => some .net
  | .pppTimeout => some .net

/-- `s_reg_timeout_streak` behind an exit: the ones past the registration have reset it. -/
def BringupExit.streak (before : Nat) : BringupExit → Nat
  | .registration => before+1
  | .awakeCheck => 0
  | .cmuxMode => 0
  | .dataMode => 0
  | .pppDown => 0
  | .pppTimeout => 0
  | _ => before

/-- The stage a failed bring-up is to be reported with: `none` is MODEM FAIL. -/
def BringupExit.stage (exit : BringupExit) : ModemFail := (exit.own.map BringupFail.stage).getD .none

def policy (stage : ModemFail) : Bool := stage == .radio || stage == .awake

structure Ladder where
  sup : Supervisor
  consecutiveFails : Nat
  backoffMs : Nat
  regTimeoutStreak : Nat
  deriving DecidableEq, Repr

def Ladder.boot (t : Nat) : Ladder := ⟨.boot t,0,pppBackoffMinMs,0⟩

/-- What a turn of the loop did; `bringup` is the exit of a bring-up that failed. -/
structure Turn where
  bringup : Option BringupExit
  cycled : Bool
  backoffMs : Nat
  deriving DecidableEq, Repr

/-- One step: whether the link came up in it, the supervisor's events, and the turn it ended. -/
structure Entry where
  up : Bool
  seen : List Event
  turn : Option Turn
  deriving DecidableEq, Repr

def pwrcycleThresh (alertActive : Bool) (streak : Nat) : Nat :=
  if 0 < streak then regTimeoutPwrcycleEvery
  else if alertActive then degradedFailsBeforePwrcycle
  else pppFailsBeforePwrcycle

def backoffCap (alertActive : Bool) (stage : ModemFail) : Nat :=
  if alertActive && !policy stage then degradedBackoffMs else pppBackoffMaxMs

def pwrcycleDue (alertActive : Bool) (stage : ModemFail) (streak fails : Nat) : Bool :=
  !policy stage && decide (pwrcycleThresh alertActive streak ≤ fails)

/-- The end of a turn from `stop_ppp` on; `sup` is behind the alert, `flag` is
`s_alert_active` before it. -/
def stopTurn (l : Ladder) (flag : Bool) (bringup : Option BringupExit) : Ladder × Turn :=
  let cycled := pwrcycleDue flag l.sup.failStage l.regTimeoutStreak l.consecutiveFails
  let cap := backoffCap l.sup.alertActive l.sup.failStage
  let backoffMs := min l.backoffMs cap
  (⟨l.sup,if cycled then 0 else l.consecutiveFails,min (backoffMs*2) cap,if cycled then 0 else l.regTimeoutStreak⟩,
    ⟨bringup,cycled,backoffMs⟩)

inductive Input where
  | failed (seconds : Nat) (exit : BringupExit)
  | up (seconds : Nat) (entered : Bool)
  | wake (w : Wake)
  | judge (j : Judge)

/-- A step of the session; the turn ends with it when it leaves the loop. -/
def sessionStep (l : Ladder) (flag up : Bool) (r : Result) : Ladder × Entry :=
  let l := { l with sup := r.1 }
  if r.1.place = .down then ((stopTurn l flag none).1,⟨up,r.2,some (stopTurn l flag none).2⟩)
  else (l,⟨up,r.2,none⟩)

def idleStep (l : Ladder) : Ladder × Entry := (l,⟨false,[],none⟩)

def step (l : Ladder) : Input → Ladder × Entry
  | .failed seconds exit =>
    if l.sup.place = .down then
      let r := ModemUplink.step l.sup (.failed seconds exit.own)
      let next : Ladder := ⟨r.1,l.consecutiveFails+1,l.backoffMs,exit.streak l.regTimeoutStreak⟩
      ((stopTurn next l.sup.alertActive (some exit)).1,
        ⟨false,r.2,some (stopTurn next l.sup.alertActive (some exit)).2⟩)
    else idleStep l
  | .up seconds entered =>
    if l.sup.place = .down then
      sessionStep ⟨l.sup,0,pppBackoffMinMs,0⟩ (gotIp l.sup).1.alertActive true
        (ModemUplink.step l.sup (.up seconds entered))
    else idleStep l
  | .wake w =>
    if l.sup.place = .down then idleStep l
    else sessionStep l l.sup.alertActive false (ModemUplink.step l.sup (.wake w))
  | .judge j =>
    if l.sup.place = .down then idleStep l
    else sessionStep l l.sup.alertActive false (ModemUplink.step l.sup (.judge j))

/-- The ladder and its log, newest first. -/
def advance (r : Ladder × List Entry) (i : Input) : Ladder × List Entry :=
  ((step r.1 i).1,(step r.1 i).2::r.2)

def run (t : Nat) (inputs : List Input) : Ladder × List Entry := inputs.foldl advance (.boot t,[])

/-- The bring-ups that have failed since the link was last up or the ladder cycled the power. -/
def failsSince : List Entry → Nat
  | [] => 0
  | e::before =>
    if e.up then 0
    else
      match e.turn with
      | none => failsSince before
      | some turn =>
        if turn.cycled then 0 else if turn.bringup.isSome then failsSince before+1 else failsSince before

def shownAfter (alert : Option ModemFail) : List Event → Option ModemFail
  | [] => alert
  | .alert stage::rest => shownAfter (some stage) rest
  | .clear::rest => shownAfter none rest
  | _::rest => shownAfter alert rest

/-- The alert on display. -/
def shown : List Entry → Option ModemFail
  | [] => none
  | e::before => shownAfter (shown before) e.seen

/-- The end of a failed bring-up that follows what is in `before`. -/
structure Answered (exit : BringupExit) (turn : Turn) (seen : List Event) (before : List Entry) : Prop where
  cycles : pppFailsBeforePwrcycle ≤ failsSince before+1 → policy exit.stage = false → turn.cycled = true
  spares : policy exit.stage = true → turn.cycled = false
  names : ∀ stage, .alert stage ∈ seen → modemFailMsg stage = modemFailMsg exit.stage

structure Paced (turn : Turn) (alert : Option ModemFail) : Prop where
  least : pppBackoffMinMs ≤ turn.backoffMs
  most : turn.backoffMs ≤ pppBackoffMaxMs
  degraded : ∀ stage, alert = some stage → policy stage = false → turn.backoffMs ≤ degradedBackoffMs

structure Current (log : List Entry) : Prop where
  answered : ∀ e before, e::before <:+ log → ∀ turn exit, e.turn = some turn → turn.bringup = some exit →
    Answered exit turn e.seen before
  paced : ∀ e before, e::before <:+ log → ∀ turn, e.turn = some turn → Paced turn (shown (e::before))

/-- A bring-up is about to fail at an exit without a stage of its own while the stage of an
earlier failure still stands, and either that stage holds back a power-cycle that is due or the alert
of this turn names it. -/
def stale (l : Ladder) : Input → Bool
  | .failed _ exit =>
    l.sup.place == .down && exit.own.isNone &&
      ((policy l.sup.failStage && decide (pppFailsBeforePwrcycle ≤ l.consecutiveFails+1)) ||
        (decide (modemFailsBeforeAlert ≤ l.sup.failsSinceOk+1) && modemFailMsg l.sup.failStage != modemFailMsg .none))
  | _ => false

def FreshRun (l : Ladder) : List Input → Prop
  | [] => True
  | i::rest => stale l i = false ∧ FreshRun (step l i).1 rest

def decideFreshRun : (l : Ladder) → (inputs : List Input) → Decidable (FreshRun l inputs)
  | _, [] => .isTrue trivial
  | l, i::rest =>
    have := decideFreshRun (step l i).1 rest
    inferInstanceAs (Decidable (stale l i = false ∧ FreshRun (step l i).1 rest))
instance (l inputs) : Decidable (FreshRun l inputs) := decideFreshRun l inputs

structure Good (e : Entry) (before : List Entry) : Prop where
  answered : ∀ turn exit, e.turn = some turn → turn.bringup = some exit → Answered exit turn e.seen before
  paced : ∀ turn, e.turn = some turn → Paced turn (shown (e::before))

theorem currentNil : Current [] where
  answered := fun _ _ found => nomatch List.suffix_nil.mp found
  paced := fun _ _ found => nomatch List.suffix_nil.mp found

theorem currentCons (e : Entry) (before : List Entry) : Current (e::before) ↔ Good e before ∧ Current before := by
  constructor
  · intro current
    refine ⟨⟨current.answered e before (List.suffix_refl _),current.paced e before (List.suffix_refl _)⟩,?_,?_⟩
    · exact fun e' before' found => current.answered e' before' (found.trans (List.suffix_cons e before))
    · exact fun e' before' found => current.paced e' before' (found.trans (List.suffix_cons e before))
  · rintro ⟨good,current⟩
    constructor
    · intro e' before' found
      rcases List.suffix_cons_iff.mp found with whole | within
      · obtain ⟨rfl,rfl⟩ := List.cons.inj whole
        exact good.answered
      · exact current.answered e' before' within
    · intro e' before' found
      rcases List.suffix_cons_iff.mp found with whole | within
      · obtain ⟨rfl,rfl⟩ := List.cons.inj whole
        exact good.paced
      · exact current.paced e' before' within

/-- An alert is on display only while the flag is set. -/
def Shows (alert : Option ModemFail) (s : Supervisor) : Prop := alert.isSome = true → s.alertActive = true

theorem shownConcat (alert : Option ModemFail) (a b : List Event) :
    shownAfter alert (a ++ b) = shownAfter (shownAfter alert a) b := by
  induction a generalizing alert with
  | nil => rfl
  | cons v rest ih => cases v <;> exact ih _

theorem shownQuiet {alert : Option ModemFail} {seen : List Event} (quiet : ∀ stage, .alert stage ∉ seen)
    (some_ : (shownAfter alert seen).isSome = true) : alert.isSome = true := by
  induction seen generalizing alert with
  | nil => exact some_
  | cons v rest ih =>
    have behind : ∀ stage, .alert stage ∉ rest := fun stage mem => quiet stage (.tail _ mem)
    cases v with
    | alert stage => exact absurd (.head _) (quiet stage)
    | clear => exact absurd (ih behind some_) (by decide)
    | began | healthy | ota | returned | answered | trip => exact ih behind some_

theorem shownStop (alert : Option ModemFail) {s : Supervisor} (shows : Shows alert s) :
    Shows (shownAfter alert (stopPpp s).2) (stopPpp s).1 := by
  unfold stopPpp
  split
  · exact fun _ => rfl
  · exact shows

theorem shownElapsed {alert : Option ModemFail} {s x s' x' seen} (e : Elapsed s x s' x' seen) (shows : Shows alert s) :
    Shows (shownAfter alert seen) s' := by
  intro some_
  rw [e.same.alertActive]
  refine shows (shownQuiet (fun stage mem => ?_) some_)
  rcases e.events _ mem with same | ⟨t,same⟩ <;> cases same

theorem shownGotIp {alert : Option ModemFail} {s : Supervisor} (shows : Shows alert s) :
    Shows (shownAfter alert (gotIp s).2) (gotIp s).1 := by
  unfold gotIp
  split
  · split
    · exact fun some_ => nomatch some_
    · exact shows
  · exact shows

theorem shownUp {alert : Option ModemFail} {s : Supervisor} (shows : Shows alert s) (entered : Bool) :
    Shows (shownAfter alert (up s entered).2) (up s entered).1 := by
  have got := shownGotIp shows
  simp only [up,Result.behind,shownConcat]
  cases entered with
  | true => exact got
  | false => exact shownStop _ got

theorem shownHealthy {alert : Option ModemFail} {s : Supervisor} (shows : Shows alert s) (x : Session) :
    Shows (shownAfter alert (backendHealthy s x).2) (backendHealthy s x).1 := by
  unfold backendHealthy
  dsimp only
  split
  · split
    · exact fun some_ => nomatch some_
    · exact shows
  · exact shows

theorem shownWake {alert : Option ModemFail} {s : Supervisor} (shows : Shows alert s) (x : Session) (w : Wake) :
    Shows (shownAfter alert (wake s x w).2) (wake s x w).1 := by
  unfold wake
  split
  · exact shownStop alert shows
  · split
    · exact shows
    · split
      · exact shownHealthy (s := s.after w.slept) shows x
      · dsimp only
        split
        · rename_i up
          exact fun _ => up.1
        · exact shows

theorem shownJudge {alert : Option ModemFail} {s : Supervisor} (shows : Shows alert s) {x : Session} {j : Judge} {r : Result}
    (judged : Judged s x j r) : Shows (shownAfter alert r.2) r.1 := by
  cases judged with
  | lost e =>
    simp only [Result.behind,shownConcat]
    exact shownStop _ (shownElapsed e shows)
  | frozen e | restarted e =>
    simp only [Result.behind,shownConcat]
    have here := shownElapsed e shows
    exact here
  | stays e answers =>
    simp only [shownConcat]
    have here := shownElapsed e shows
    cases answers <;> exact here
  | held e answers =>
    simp only [shownConcat]
    exact fun _ => rfl
  | tripped before after why =>
    simp only [Result.behind,shownConcat,trip]
    have here := shownElapsed after (shownElapsed before shows)
    exact shownStop _ here

structure Kept (l : Ladder) (log : List Entry) : Prop where
  counted : l.consecutiveFails = failsSince log
  up : l.sup.place ≠ .down → l.consecutiveFails = 0 ∧ l.backoffMs = pppBackoffMinMs
  least : pppBackoffMinMs ≤ l.backoffMs
  most : l.backoffMs ≤ pppBackoffMaxMs
  slow : l.backoffMs ≤ 2*pppBackoffMinMs*2^l.sup.failsSinceOk
  shows : Shows (shown log) l.sup

theorem keptBoot (t : Nat) : Kept (.boot t) [] where
  counted := rfl
  up := fun up => absurd rfl up
  least := Nat.le_refl 1000
  most := (by decide : 1000 ≤ 60000)
  slow := (by decide : 1000 ≤ 2*1000*2^0)
  shows := by nofun

theorem capRange (alertActive : Bool) (stage : ModemFail) :
    degradedBackoffMs ≤ backoffCap alertActive stage ∧ backoffCap alertActive stage ≤ pppBackoffMaxMs := by
  unfold backoffCap
  split <;> decide

theorem threshRange (alertActive : Bool) (streak : Nat) :
    0 < pwrcycleThresh alertActive streak ∧ pwrcycleThresh alertActive streak ≤ pppFailsBeforePwrcycle := by
  unfold pwrcycleThresh
  split
  · decide
  · split <;> decide

theorem stopRange (l : Ladder) (flag : Bool) (bringup : Option BringupExit) (least : pppBackoffMinMs ≤ l.backoffMs) :
    pppBackoffMinMs ≤ (stopTurn l flag bringup).1.backoffMs ∧
      (stopTurn l flag bringup).1.backoffMs ≤ pppBackoffMaxMs ∧
      (stopTurn l flag bringup).1.backoffMs ≤ 2*l.backoffMs ∧
      pppBackoffMinMs ≤ (stopTurn l flag bringup).2.backoffMs ∧
      (stopTurn l flag bringup).2.backoffMs ≤ pppBackoffMaxMs ∧
      (stopTurn l flag bringup).2.backoffMs ≤ l.backoffMs ∧
      (stopTurn l flag bringup).2.backoffMs ≤ backoffCap l.sup.alertActive l.sup.failStage := by
  obtain ⟨above,below⟩ := capRange l.sup.alertActive l.sup.failStage
  simp only [stopTurn]
  have small : pppBackoffMinMs ≤ degradedBackoffMs := by decide
  omega

theorem pwrcycleIdle (flag : Bool) (stage : ModemFail) (streak : Nat) : pwrcycleDue flag stage streak 0 = false := by
  have positive := (threshRange flag streak).1
  simp only [pwrcycleDue,Bool.and_eq_false_imp,decide_eq_false_iff_not]
  omega

theorem sessionKept {l : Ladder} {log : List Entry} (flag up : Bool) {r : Result}
    (counted : l.consecutiveFails = 0) (backoff : l.backoffMs = pppBackoffMinMs)
    (behind : up = false → failsSince log = 0) (shows : Shows (shownAfter (shown log) r.2) r.1) :
    Good (sessionStep l flag up r).2 log ∧ Kept (sessionStep l flag up r).1 ((sessionStep l flag up r).2::log) := by
  have positive := Nat.one_le_two_pow (n := r.1.failsSinceOk)
  unfold sessionStep
  dsimp only
  split
  · rename_i down
    have range := stopRange { l with sup := r.1 } flag none (Nat.le_of_eq backoff.symm)
    have uncycled : (stopTurn { l with sup := r.1 } flag none).2.cycled = false := by
      simp only [stopTurn,counted]
      exact pwrcycleIdle ..
    have counts : (stopTurn { l with sup := r.1 } flag none).1.consecutiveFails = 0 := by
      simp only [stopTurn,counted,ite_self]
    refine ⟨⟨fun turn exit found failed => ?_,fun turn found => ?_⟩,?_⟩
    · obtain rfl := Option.some.inj found
      exact nomatch failed
    · obtain rfl := Option.some.inj found
      refine ⟨range.2.2.2.1,range.2.2.2.2.1,fun _ _ _ => ?_⟩
      have short := range.2.2.2.2.2.1
      have small : pppBackoffMinMs ≤ degradedBackoffMs := by decide
      exact Nat.le_trans (Nat.le_trans short (Nat.le_of_eq backoff)) small
    · refine ⟨?_,fun up => absurd down up,range.1,range.2.1,?_,shows⟩
      · rw [counts]
        simp only [failsSince,uncycled]
        cases up with
        | true => rfl
        | false => exact (behind rfl).symm
      · have doubled := range.2.2.1
        have here : l.backoffMs = 1000 := backoff
        show (stopTurn { l with sup := r.1 } flag none).1.backoffMs ≤ 2*1000*2^r.1.failsSinceOk
        simp only at doubled
        omega
  · rename_i running
    refine ⟨⟨by nofun,by nofun⟩,?_,fun _ => ⟨counted,backoff⟩,Nat.le_of_eq backoff.symm,?_,?_,shows⟩
    · simp only [failsSince,counted]
      cases up with
      | true => rfl
      | false => exact (behind rfl).symm
    · rw [backoff]; decide
    · show l.backoffMs ≤ 2*1000*2^r.1.failsSinceOk
      have here : l.backoffMs = 1000 := backoff
      omega

/-- The supervisor behind a failed bring-up. -/
structure Failed (s : Supervisor) (stage : ModemFail) (r : Result) : Prop where
  down : r.1.place = .down
  written : r.1.failStage = stage
  fails : r.1.failsSinceOk = s.failsSinceOk+1
  alerted : modemFailsBeforeAlert ≤ s.failsSinceOk+1 → r.1.alertActive = true ∧ r.2 = [.alert stage]
  silent : s.failsSinceOk+1 < modemFailsBeforeAlert → r.1.alertActive = s.alertActive ∧ r.2 = []

theorem failedHere {s : Supervisor} (down : s.place = .down) (seconds : Nat) (own : Option BringupFail) :
    Failed s ((own.map BringupFail.stage).getD s.failStage) (ModemUplink.step s (.failed seconds own)) := by
  cases own
  all_goals
    simp only [ModemUplink.step,down,ModemUplink.failed,stopPpp,Supervisor.after]
    split
    · rename_i due
      exact ⟨rfl,rfl,rfl,fun _ => ⟨rfl,rfl⟩,fun few => absurd due (Nat.not_le.mpr few)⟩
    · rename_i few
      exact ⟨rfl,rfl,rfl,fun due => absurd due few,fun _ => ⟨rfl,rfl⟩⟩

theorem failedShows {s : Supervisor} {stage : ModemFail} {r : Result} (f : Failed s stage r) {alert : Option ModemFail}
    (shows : Shows alert s) : Shows (shownAfter alert r.2) r.1 := by
  rcases Nat.lt_or_ge (s.failsSinceOk+1) modemFailsBeforeAlert with few | due
  · obtain ⟨flag,events⟩ := f.silent few
    rw [events]
    exact fun some_ => flag.trans (shows some_)
  · exact fun _ => (f.alerted due).1

theorem failedPaced {l next : Ladder} {flag : Bool} {exit : BringupExit} {stage : ModemFail}
    {seen : List Event} {log : List Entry}
    (kept : Kept l log) (f : Failed l.sup stage (next.sup,seen)) (same : next.backoffMs = l.backoffMs) :
    Paced (stopTurn next flag (some exit)).2 (shownAfter (shown log) seen) := by
  have range := stopRange next flag (some exit) (same ▸ kept.least)
  have short := range.2.2.2.2.2
  refine ⟨range.2.2.2.1,range.2.2.2.2.1,fun stage' alert other => ?_⟩
  cases lenient : policy next.sup.failStage with
  | false =>
    have active := failedShows f kept.shows (by rw [alert]; rfl)
    refine Nat.le_trans short.2 (Nat.le_of_eq ?_)
    simp only at active
    simp [backoffCap,active,lenient]
  | true =>
    rcases Nat.lt_or_ge (l.sup.failsSinceOk+1) modemFailsBeforeAlert with few | due
    · have slow := kept.slow
      have low : 2^l.sup.failsSinceOk ≤ 2^2 := Nat.pow_le_pow_right (by decide) (by have : l.sup.failsSinceOk+1 < 4 := few; omega)
      have bound : l.backoffMs ≤ 2*1000*2^l.sup.failsSinceOk := slow
      have here := short.1
      show _ ≤ 10000
      omega
    · have events := (f.alerted due).2
      simp only at events
      rw [events] at alert
      obtain rfl := Option.some.inj alert
      rw [← f.written] at other
      exact absurd (other.symm.trans lenient) (by decide)

theorem failedKept {l next : Ladder} {flag : Bool} {exit : BringupExit} {stage : ModemFail} {seen : List Event} {log : List Entry}
    (kept : Kept l log) (f : Failed l.sup stage (next.sup,seen)) (same : next.backoffMs = l.backoffMs)
    (counts : next.consecutiveFails = l.consecutiveFails+1) :
    Kept (stopTurn next flag (some exit)).1 (⟨false,seen,some (stopTurn next flag (some exit)).2⟩::log) := by
  have range := stopRange next flag (some exit) (same ▸ kept.least)
  refine ⟨?_,fun up => absurd f.down up,range.1,range.2.1,?_,failedShows f kept.shows⟩
  · simp only [failsSince,stopTurn,counts,kept.counted]
    cases pwrcycleDue flag next.sup.failStage next.regTimeoutStreak (failsSince log+1) <;> rfl
  · have doubled := range.2.2.1
    have slow : l.backoffMs ≤ 2*1000*2^l.sup.failsSinceOk := kept.slow
    have fails : next.sup.failsSinceOk = l.sup.failsSinceOk+1 := f.fails
    show (stopTurn next flag (some exit)).1.backoffMs ≤ 2*1000*2^next.sup.failsSinceOk
    rw [fails,Nat.pow_succ]
    omega

/-- A failed bring-up is answered as asked unless a stale stage is in the way. -/
theorem failedAnswered {l next : Ladder} {flag : Bool} {exit : BringupExit} {seen : List Event} {log : List Entry}
    (kept : Kept l log) (down : l.sup.place = .down)
    (f : Failed l.sup ((exit.own.map BringupFail.stage).getD l.sup.failStage) (next.sup,seen))
    (counts : next.consecutiveFails = l.consecutiveFails+1) (seconds : Nat) :
    Answered exit (stopTurn next flag (some exit)).2 seen log ↔ stale l (.failed seconds exit) = false := by
  have thresh := (threshRange flag next.regTimeoutStreak).2
  have stage : next.sup.failStage = (exit.own.map BringupFail.stage).getD l.sup.failStage := f.written
  cases own : exit.own with
  | some own_ =>
    have here : exit.stage = own_.stage := by rw [BringupExit.stage,own]; rfl
    rw [own] at stage f
    refine iff_of_true ⟨fun due lenient => ?_,fun strict => ?_,fun named mem => ?_⟩ (by simp [stale,own])
    · rw [here] at lenient
      have enough : pwrcycleThresh flag next.regTimeoutStreak ≤ next.consecutiveFails := by
        rw [counts,kept.counted]
        exact Nat.le_trans thresh due
      simp only [stopTurn,pwrcycleDue,stage,Option.map_some,Option.getD_some,lenient,decide_eq_true enough]
      rfl
    · rw [here] at strict
      simp only [stopTurn,pwrcycleDue,stage,Option.map_some,Option.getD_some,strict]
      rfl
    · rcases Nat.lt_or_ge (l.sup.failsSinceOk+1) modemFailsBeforeAlert with few | due
      · have events := (f.silent few).2
        simp only at events
        rw [events] at mem
        exact nomatch mem
      · have events := (f.alerted due).2
        simp only at events
        rw [events] at mem
        obtain rfl := Event.alert.inj (List.mem_singleton.mp mem)
        rw [here]
        rfl
  | none =>
    rw [own] at stage f
    have unnamed : exit.stage = .none := by rw [BringupExit.stage,own]; rfl
    have cycled : (stopTurn next flag (some exit)).2.cycled = pwrcycleDue flag l.sup.failStage
        next.regTimeoutStreak (l.consecutiveFails+1) := by
      rw [← counts,← (show next.sup.failStage = l.sup.failStage from stage)]
      rfl
    have alerts : ∀ named, .alert named ∈ seen → modemFailsBeforeAlert ≤ l.sup.failsSinceOk+1 ∧ named = l.sup.failStage := by
      intro named mem
      rcases Nat.lt_or_ge (l.sup.failsSinceOk+1) modemFailsBeforeAlert with few | due
      · have events : seen = [] := (f.silent few).2
        rw [events] at mem
        exact nomatch mem
      · have events : seen = [.alert l.sup.failStage] := (f.alerted due).2
        rw [events] at mem
        exact ⟨due,Event.alert.inj (List.mem_singleton.mp mem)⟩
    simp only [stale,down,own,Option.isNone_none,BEq.rfl,Bool.true_and,Bool.or_eq_false_iff,Bool.and_eq_false_imp,
      decide_eq_false_iff_not,decide_eq_true_eq,bne_eq_false_iff_eq]
    constructor
    · intro answered
      refine ⟨fun strict due => ?_,fun due => ?_⟩
      · have cycles := answered.cycles (kept.counted ▸ due) (by rw [unnamed]; rfl)
        rw [cycled,pwrcycleDue,strict] at cycles
        exact nomatch cycles
      · have events : seen = [.alert l.sup.failStage] := (f.alerted due).2
        rw [← unnamed]
        exact answered.names _ (by rw [events]; exact .head _)
    · rintro ⟨lenient,named⟩
      refine ⟨fun due _ => ?_,fun strict => ?_,fun stage' mem => ?_⟩
      · have due : pppFailsBeforePwrcycle ≤ l.consecutiveFails+1 := kept.counted ▸ due
        have passes : policy l.sup.failStage = false := by
          cases strict : policy l.sup.failStage with
          | false => rfl
          | true => exact absurd due (lenient strict)
        rw [cycled,pwrcycleDue,passes,decide_eq_true (Nat.le_trans thresh due)]
        rfl
      · rw [unnamed] at strict
        exact nomatch strict
      · obtain ⟨due,rfl⟩ := alerts stage' mem
        rw [unnamed]
        exact named due

theorem idleKept {l : Ladder} {log : List Entry} (kept : Kept l log) :
    Good (idleStep l).2 log ∧ Kept (idleStep l).1 ((idleStep l).2::log) :=
  ⟨⟨by nofun,by nofun⟩,{ kept with counted := kept.counted }⟩

theorem stepKept {l : Ladder} {log : List Entry} (kept : Kept l log) (i : Input) :
    (Good (step l i).2 log ↔ stale l i = false) ∧ Kept (step l i).1 ((step l i).2::log) := by
  cases i with
  | failed seconds exit =>
    by_cases down : l.sup.place = .down
    · simp only [step,if_pos down]
      have f := failedHere down seconds exit.own
      refine ⟨⟨fun good => ?_,fun fresh => ⟨fun turn exit' found failed => ?_,fun turn found => ?_⟩⟩,
        failedKept kept f rfl rfl⟩
      · exact (failedAnswered kept down f rfl seconds).mp (good.answered _ _ rfl rfl)
      · obtain rfl := Option.some.inj found
        obtain rfl := Option.some.inj failed
        exact (failedAnswered kept down f rfl seconds).mpr fresh
      · obtain rfl := Option.some.inj found
        exact failedPaced kept f rfl
    · simp only [step,if_neg down]
      obtain ⟨good,next⟩ := idleKept kept
      exact ⟨iff_of_true good (by simp [stale,down]),next⟩
  | up seconds entered =>
    by_cases down : l.sup.place = .down
    · simp only [step,if_pos down]
      have shows : Shows (shownAfter (shown log) (ModemUplink.step l.sup (.up seconds entered)).2)
          (ModemUplink.step l.sup (.up seconds entered)).1 := by
        simp only [ModemUplink.step,down]
        exact shownUp (s := l.sup.after seconds) kept.shows entered
      obtain ⟨good,next⟩ := sessionKept (l := ⟨l.sup,0,pppBackoffMinMs,0⟩) (gotIp l.sup).1.alertActive true
        rfl rfl (by nofun) shows
      exact ⟨iff_of_true good rfl,next⟩
    · simp only [step,if_neg down]
      obtain ⟨good,next⟩ := idleKept kept
      exact ⟨iff_of_true good rfl,next⟩
  | wake w =>
    by_cases down : l.sup.place = .down
    · simp only [step,if_pos down]
      obtain ⟨good,next⟩ := idleKept kept
      exact ⟨iff_of_true good rfl,next⟩
    · simp only [step,if_neg down]
      obtain ⟨counted,backoff⟩ := kept.up down
      have shows : Shows (shownAfter (shown log) (ModemUplink.step l.sup (.wake w)).2)
          (ModemUplink.step l.sup (.wake w)).1 := by
        simp only [ModemUplink.step]
        split
        · exact shownWake kept.shows _ w
        · exact kept.shows
      obtain ⟨good,next⟩ := sessionKept l.sup.alertActive false counted backoff
        (fun _ => kept.counted.symm.trans counted) shows
      exact ⟨iff_of_true good rfl,next⟩
  | judge j =>
    by_cases down : l.sup.place = .down
    · simp only [step,if_pos down]
      obtain ⟨good,next⟩ := idleKept kept
      exact ⟨iff_of_true good rfl,next⟩
    · simp only [step,if_neg down]
      obtain ⟨counted,backoff⟩ := kept.up down
      have shows : Shows (shownAfter (shown log) (ModemUplink.step l.sup (.judge j)).2)
          (ModemUplink.step l.sup (.judge j)).1 := by
        simp only [ModemUplink.step]
        split
        · exact shownJudge kept.shows (judged ..)
        · exact kept.shows
      obtain ⟨good,next⟩ := sessionKept l.sup.alertActive false counted backoff
        (fun _ => kept.counted.symm.trans counted) shows
      exact ⟨iff_of_true good rfl,next⟩

theorem runCurrent {l : Ladder} {log : List Entry} (kept : Kept l log) (inputs : List Input) :
    Current (inputs.foldl advance (l,log)).2 ↔ Current log ∧ FreshRun l inputs := by
  induction inputs generalizing l log with
  | nil => exact ⟨fun current => ⟨current,trivial⟩,And.left⟩
  | cons i rest ih =>
    obtain ⟨good,next⟩ := stepKept kept i
    rw [List.foldl_cons,advance,ih next,currentCons,good]
    constructor
    · rintro ⟨⟨fresh,current⟩,behind⟩
      exact ⟨current,fresh,behind⟩
    · rintro ⟨current,fresh,behind⟩
      exact ⟨⟨fresh,current⟩,behind⟩

theorem ladderCurrent (t : Nat) (inputs : List Input) :
    Current (run t inputs).2 ↔ FreshRun (.boot t) inputs := by
  rw [run,runCurrent (keptBoot t)]
  exact ⟨And.right,fun fresh => ⟨currentNil,fresh⟩⟩

/-- The radio policy fails four times, then the driver's constructor. -/
def staleRun : List Input := List.replicate 4 (.failed 0 .radioPrepare) ++ [.failed 0 .newDev]

/-- The fifth failure has no stage and gets no power-cycle, under an alert of the radio's. -/
theorem staleLadder : ¬∀ t inputs, Current (run t inputs).2 := by
  intro current
  have fresh := ((runCurrent (keptBoot 0) staleRun).mp (current 0 staleRun)).2
  revert fresh
  decide +kernel

end Web3PiUps.ModemLadder
