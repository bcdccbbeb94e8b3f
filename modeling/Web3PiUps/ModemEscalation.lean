import Mathlib.Data.List.Induction
import Mathlib.Order.Nat
import Web3PiUps.ModemUplink

/-! The escalation over any sequence of attempts and sessions: the two clocks, the ladder, the
guards of a trip and the stage NO UPLINK. Seconds are compared as the code does, modulo 2^32. -/
namespace Web3PiUps.ModemUplink
open FwOta (fwOtaTryModemRecovery)

theorem elapsedNat {from_ to_ : Nat} (le : from_ ≤ to_) :
    (UInt32.ofNat to_-UInt32.ofNat from_).toNat = (to_-from_) % 2^32 := by
  rw [← UInt32.ofNat_sub le,UInt32.toNat_ofNat']

theorem reached {from_ to_ : Nat} {limit : UInt32} (le : from_ ≤ to_)
    (passed : limit ≤ UInt32.ofNat to_-UInt32.ofNat from_) : from_+limit.toNat ≤ to_ := by
  have here := UInt32.le_iff_toNat_le.mp passed
  rw [elapsedNat le] at here
  have := Nat.mod_le (to_-from_) (2^32)
  omega

/-- The events that restart the timer of the session. -/
def Event.restartsAt : Event → Option Nat
  | .began t => some t
  | .healthy t => some t
  | .ota _ t => some t
  | _ => none

/-- The locals against what the session did up to the second `t`: `h` is the second the timer
restarted in, `q` the one of the last answer of the probe. -/
structure Timed (h q t : Nat) (past : List Event) (x : Session) : Prop where
  before : h ≤ t
  healthy : x.lastHealthyS = .ofNat h
  marks : ∀ e ∈ session past, ∀ m, e.restartsAt = some m → m ≤ h
  graces : ∀ g, .returned g ∈ session past →
    g ≤ h ∨ (x.recovery.graceUsed = true ∧ x.recovery.graceStartedS = .ofNat g ∧ g ≤ t)
  probed : q ≤ t
  probes : ∀ p, .answered p ∈ session past → p ≤ q ∧ x.lastProbeOkS = .ofNat q

theorem Timed.later {h q t past x} (timed : Timed h q t past x) {t' : Nat} (le : t ≤ t') :
    Timed h q t' past x := by
  refine { timed with before := timed.before.trans le, probed := timed.probed.trans le, graces := fun g mem => ?_ }
  rcases timed.graces g mem with before | ⟨used,started,gle⟩
  · exact .inl before
  · exact .inr ⟨used,started,gle.trans le⟩

theorem Timed.graced {h q t past x} (timed : Timed h q t past x) {g : Nat} (mem : .returned g ∈ session past) :
    g ≤ t := by
  rcases timed.graces g mem with before | ⟨_,_,gle⟩
  · exact before.trans timed.before
  · exact gle

theorem Timed.restarted {h q t past x} (timed : Timed h q t past x) {v : Event} (at_ : v.restartsAt = some t)
    (inside : session (v :: past) = v :: session past) (recovery : Recovery) (lastClearS : UInt32) :
    Timed t q t (v :: past) { x with recovery, lastHealthyS := .ofNat t, lastClearS } := by
  have split {e} (mem : e ∈ session (v :: past)) : e = v ∨ e ∈ session past := by
    rwa [inside,List.mem_cons] at mem
  refine ⟨Nat.le_refl t,rfl,?_,?_,timed.probed,?_⟩
  · intro e mem m here
    rcases split mem with rfl | rest
    · rw [at_] at here
      exact (Option.some.inj here).ge
    · exact (timed.marks e rest m here).trans timed.before
  · intro g mem
    rcases split mem with rfl | rest
    · cases at_
    · exact .inl (timed.graced rest)
  · intro p mem
    rcases split mem with rfl | rest
    · cases at_
    · exact timed.probes p rest

/-- An event that no timer reads. -/
def Event.idle : Event → Bool
  | .alert _ => true
  | .clear => true
  | _ => false

theorem sessionIdle {ev : Event} (idle : ev.idle = true) (past : List Event) :
    session (ev :: past) = ev :: session past := by
  cases ev <;> first | rfl | cases idle

theorem Timed.ignores {h q t past x} (timed : Timed h q t past x) {v : Event} (idle : v.idle = true)
    (lastClearS : UInt32) : Timed h q t (v :: past) { x with lastClearS } := by
  have split {e} (mem : e ∈ session (v :: past)) : e = v ∨ e ∈ session past := by
    rwa [sessionIdle idle,List.mem_cons] at mem
  refine ⟨timed.before,timed.healthy,?_,?_,timed.probed,?_⟩
  · intro e mem m at_
    rcases split mem with rfl | rest
    · cases e <;> simp [Event.idle,Event.restartsAt] at idle at_
    · exact timed.marks e rest m at_
  · intro g mem
    rcases split mem with rfl | rest
    · cases idle
    · exact timed.graces g rest
  · intro p mem
    rcases split mem with rfl | rest
    · cases idle
    · exact timed.probes p rest

theorem Timed.returns {h q t past x} (timed : Timed h q t past x) {recovery : Recovery}
    (first : x.recovery.graceUsed = false) (used : recovery.graceUsed = true)
    (started : recovery.graceStartedS = .ofNat t) : Timed h q t (.returned t :: past) { x with recovery } := by
  have split {e} (mem : e ∈ session (.returned t :: past)) : e = .returned t ∨ e ∈ session past :=
    List.mem_cons.mp mem
  refine ⟨timed.before,timed.healthy,?_,?_,timed.probed,?_⟩
  · intro e mem m at_
    rcases split mem with rfl | rest
    · cases at_
    · exact timed.marks e rest m at_
  · intro g mem
    rcases split mem with same | rest
    · cases same
      exact .inr ⟨used,started,Nat.le_refl t⟩
    · rcases timed.graces g rest with before | ⟨used',_⟩
      · exact .inl before
      · rw [first] at used'
        cases used'
  · intro p mem
    rcases split mem with same | rest
    · cases same
    · exact timed.probes p rest

theorem Timed.answers {h q past x} {s : Supervisor} (timed : Timed h q s.t past x) (answers : Bool) :
    Timed h (if answers then s.t else q) s.t (stamp answers s ++ past) (stamped answers s x) := by
  cases answers with
  | false => exact timed
  | true =>
    have split {e} (mem : e ∈ session (.answered s.t :: past)) : e = .answered s.t ∨ e ∈ session past :=
      List.mem_cons.mp mem
    refine ⟨timed.before,timed.healthy,?_,?_,Nat.le_refl _,?_⟩
    · intro e mem m at_
      rcases split mem with rfl | rest
      · cases at_
      · exact timed.marks e rest m at_
    · intro g mem
      rcases split mem with same | rest
      · cases same
      · exact timed.graces g rest
    · intro p mem
      rcases split mem with same | rest
      · cases same
        exact ⟨Nat.le_refl _,rfl⟩
      · exact ⟨(timed.probes p rest).1.trans timed.probed,rfl⟩

theorem Timed.elapses {h q s x s' x' seen past} (e : Elapsed s x s' x' seen) (timed : Timed h q s.t past x) :
    Timed h q s'.t (seen.reverse ++ past) x' := by
  induction e generalizing past with
  | refl => exact timed
  | later seconds _ ih => exact ih (timed.later (Nat.le_add_right _ seconds))
  | unread recovery same started _ ih =>
    refine ih { timed with graces := ?_ }
    simpa only [same,started] using timed.graces
  | returned recovery first used started _ ih =>
    simpa using ih (timed.returns first used started)
  | resent pending lastClearS _ ih =>
    have next := timed.ignores (v := .clear) rfl lastClearS
    simpa using ih next

/-- The events that move a clock or the ladder. -/
def Event.moves : Event → Bool
  | .healthy _ => true
  | .ota _ _ => true
  | .trip _ _ => true
  | _ => false

theorem tripsBehind {evs : List Event} (quiet : ∀ ev ∈ evs, ev.moves = false) (past : List Event) :
    tripsSince (evs ++ past) = tripsSince past := by
  induction evs with
  | nil => rfl
  | cons ev rest ih =>
    have here := quiet ev (.head _)
    have next := ih fun ev mem => quiet ev (.tail _ mem)
    cases ev <;> first | exact next | cases here

def Place.session : Place → Option Session
  | .down => none
  | .waiting x => some x
  | .sampled x _ => some x

structure Kept (s : Supervisor) (past : List Event) : Prop where
  raised : s.failStage = .uplink → s.alertActive = true
  counted : s.trips = tripsSince past
  timed : ∀ x, s.place.session = some x → ∃ h q, Timed h q s.t past x
  calm : s.place ≠ .down → s.trips = 0 → s.alertActive = false → s.failStage = .none

theorem Kept.after {s past} (kept : Kept s past) (seconds : Nat) : Kept (s.after seconds) past := by
  refine ⟨kept.raised,kept.counted,fun x here => ?_,kept.calm⟩
  obtain ⟨h,q,timed⟩ := kept.timed x here
  exact ⟨h,q,timed.later (Nat.le_add_right _ seconds)⟩

theorem stopEvents (s : Supervisor) : ∀ ev ∈ (stopPpp s).2, ev.idle = true := by
  unfold stopPpp
  split <;> simp [Event.idle]

theorem stopSame (s : Supervisor) : (stopPpp s).1.trips = s.trips ∧ (stopPpp s).1.clock = s.clock ∧
    (stopPpp s).1.failStage = s.failStage ∧ (stopPpp s).1.place = .down := by
  unfold stopPpp
  split <;> exact ⟨rfl,rfl,rfl,rfl⟩

theorem stopRaised {s : Supervisor} (raised : s.alertActive = true) : (stopPpp s).1.alertActive = true := by
  unfold stopPpp
  split
  · rfl
  · exact raised

theorem idleQuiet {ev : Event} (idle : ev.idle = true) : ev.moves = false := by
  cases ev <;> first | rfl | cases idle

theorem elapsedQuiet {s x s' x' seen} (e : Elapsed s x s' x' seen) : ∀ ev ∈ seen, ev.moves = false := by
  intro ev mem
  rcases e.events ev mem with rfl | ⟨_,rfl⟩ <;> rfl

theorem keptStop {s : Supervisor} {p l : List Event} (raised : s.failStage = .uplink → s.alertActive = true)
    (counted : s.trips = tripsSince (l.reverse ++ p)) :
    Kept ((stopPpp s).behind l).1 (((stopPpp s).behind l).2.reverse ++ p) := by
  obtain ⟨trips,_,stage,down⟩ := stopSame s
  refine ⟨fun uplink => stopRaised (raised (stage ▸ uplink)),?_,?_,fun up => absurd down up⟩
  · simp only [Result.behind,List.reverse_append,List.append_assoc]
    rw [tripsBehind fun ev mem => idleQuiet (stopEvents s ev (List.mem_reverse.mp mem)),trips,counted]
  · intro x here
    simp only [Result.behind,down,Place.session] at here
    cases here

/-- An escalation is pending. -/
def Pending (s : Supervisor) : Prop := 0 < s.trips ∨ s.failStage = .uplink

theorem gotIpPending {s : Supervisor} (pending : Pending s) : gotIp s = (s,[]) := by
  refine if_neg ?_
  rintro ⟨none,other⟩
  rcases pending with some | uplink
  · omega
  · exact other uplink

theorem gotIpCalm {s : Supervisor} (calm : ¬Pending s) :
    (gotIp s).1 = { s with
        failsSinceOk := 0, failStage := .none, alertActive := false
        alertClearPending := if s.alertActive then alertClearResends else s.alertClearPending } ∧
      ∀ ev ∈ (gotIp s).2, ev.idle = true := by
  have free : s.trips = 0 ∧ s.failStage ≠ .uplink := by
    obtain ⟨none,other⟩ := not_or.mp calm
    exact ⟨by omega,other⟩
  unfold gotIp
  rw [if_pos free]
  split
  · simp [Event.idle]
  · rename_i raised
    simp [raised]

theorem begun (t : Nat) (past : List Event) :
    Timed t 0 t (.began t :: past) ⟨modemRecoveryInit,.ofNat t,.ofNat t,0⟩ := by
  refine ⟨Nat.le_refl t,rfl,?_,?_,Nat.zero_le t,?_⟩
  · intro e mem m at_
    cases List.mem_singleton.mp mem
    exact (Option.some.inj at_).ge
  · intro g mem
    cases List.mem_singleton.mp mem
  · intro p mem
    cases List.mem_singleton.mp mem

theorem keptEnter {s : Supervisor} {past l : List Event} (raised : s.failStage = .uplink → s.alertActive = true)
    (counted : s.trips = tripsSince (l.reverse ++ past))
    (calm : s.trips = 0 → s.alertActive = false → s.failStage = .none) :
    Kept ((superviseUplink s).behind l).1 (((superviseUplink s).behind l).2.reverse ++ past) := by
  have fresh : ((superviseUplink s).behind l).2.reverse ++ past = .began s.t :: (l.reverse ++ past) := by
    simp [Result.behind,superviseUplink]
  rw [fresh]
  refine ⟨raised,counted,?_,fun _ => calm⟩
  rintro x here
  cases here
  exact ⟨s.t,0,begun s.t _⟩

theorem keptUp {s : Supervisor} {past} (kept : Kept s past) (entered : Bool) :
    Kept (up s entered).1 ((up s entered).2.reverse ++ past) := by
  unfold up
  by_cases pending : Pending s
  · rw [gotIpPending pending]
    cases entered with
    | true =>
      refine keptEnter (l := []) kept.raised kept.counted fun none quiet => ?_
      have uplink := pending.resolve_left (by omega)
      rw [kept.raised uplink] at quiet
      cases quiet
    | false => exact keptStop (l := []) kept.raised kept.counted
  · obtain ⟨now,idle⟩ := gotIpCalm pending
    have counted : (gotIp s).1.trips = tripsSince ((gotIp s).2.reverse ++ past) := by
      rw [tripsBehind fun ev mem => idleQuiet (idle ev (List.mem_reverse.mp mem)),now]
      exact kept.counted
    have stage : (gotIp s).1.failStage = .none := by rw [now]
    have raised (uplink : (gotIp s).1.failStage = .uplink) : (gotIp s).1.alertActive = true := by
      rw [stage] at uplink
      cases uplink
    cases entered with
    | true => exact keptEnter raised counted fun _ _ => stage
    | false => exact keptStop raised counted

theorem keptFailed {s : Supervisor} {past} (kept : Kept s past) (stage : Option BringupFail) :
    Kept (failed s stage).1 ((failed s stage).2.reverse ++ past) := by
  refine keptStop (l := []) ?_ kept.counted
  cases stage with
  | none => exact kept.raised
  | some f => cases f <;> exact fun uplink => nomatch uplink

theorem keptRestart {h q : Nat} {s : Supervisor} {x : Session} {past l : List Event} (sight : Sight)
    (raised : s.failStage = .uplink → s.alertActive = true) (counted : s.trips = tripsSince (l.reverse ++ past))
    (timed : Timed h q s.t (l.reverse ++ past) x)
    (calm : s.trips = 0 → s.alertActive = false → s.failStage = .none) (clock : UInt32) :
    Kept { s with clock := clock, place := .waiting { x with lastHealthyS := s.nowS } }
      ((l ++ [Event.ota sight s.t]).reverse ++ past) := by
  rw [List.reverse_append,List.append_assoc]
  refine ⟨raised,counted,?_,fun _ => calm⟩
  rintro y here
  cases here
  exact ⟨s.t,q,timed.restarted (v := .ota sight s.t) rfl rfl x.recovery x.lastClearS⟩

theorem keptHealthy {h q : Nat} {s : Supervisor} {x : Session} {past : List Event} (counted : s.trips = tripsSince past)
    (timed : Timed h q s.t past x) (calm : s.trips = 0 → s.alertActive = false → s.failStage = .none) :
    Kept (backendHealthy s x).1 ((backendHealthy s x).2.reverse ++ past) ∧
      (backendHealthy s x).1.trips = 0 ∧ (backendHealthy s x).1.failStage = .none ∧
      (backendHealthy s x).1.alertActive = false := by
  have restarted (lastClearS : UInt32) :=
    timed.restarted (v := .healthy s.t) rfl rfl (modemRecoveryBackendHealthy x.recovery) lastClearS
  unfold backendHealthy
  dsimp only
  split
  · split
    · refine ⟨⟨nofun,rfl,?_,fun _ _ _ => rfl⟩,rfl,rfl,rfl⟩
      rintro y here
      cases here
      exact ⟨s.t,q,(restarted s.nowS).ignores (v := .clear) rfl s.nowS⟩
    · rename_i quiet
      have silent : s.alertActive = false := by simpa using quiet
      refine ⟨⟨nofun,rfl,?_,fun _ _ _ => rfl⟩,rfl,rfl,silent⟩
      rintro y here
      cases here
      exact ⟨s.t,q,restarted x.lastClearS⟩
  · rename_i nothing
    obtain ⟨none,quiet⟩ := not_or.mp nothing
    have none : s.trips = 0 := by omega
    have silent : s.alertActive = false := by simpa using quiet
    have stage := calm none silent
    refine ⟨⟨fun uplink => ?_,none,?_,fun _ _ _ => stage⟩,none,stage,silent⟩
    · rw [stage] at uplink
      cases uplink
    · rintro y here
      cases here
      exact ⟨s.t,q,restarted x.lastClearS⟩

theorem keptWake {s : Supervisor} {past x} (kept : Kept s past) (at_ : s.place = .waiting x) (w : Wake) :
    Kept (wake s x w).1 ((wake s x w).2.reverse ++ past) := by
  obtain ⟨h,q,timed⟩ := kept.timed x (by rw [at_]; rfl)
  have calm := kept.calm (by rw [at_]; exact nofun)
  have slept := timed.later (Nat.le_add_right _ w.slept)
  fun_cases wake s x w with
  | case1 => exact keptStop (l := []) kept.raised kept.counted
  | case2 _ _ seconds =>
    have read := slept.later (Nat.le_add_right _ seconds)
    exact keptRestart (s := (s.after w.slept).after seconds) (l := []) .atStart kept.raised kept.counted read calm _
  | case3 => exact (keptHealthy (s := s.after w.slept) kept.counted slept calm).1
  | case4 =>
    refine ⟨kept.raised,kept.counted,?_,fun _ => calm⟩
    rintro y here
    cases here
    exact ⟨h,q,slept.ignores (v := .alert .uplink) rfl x.lastClearS⟩
  | case5 =>
    refine ⟨kept.raised,kept.counted,?_,fun _ => calm⟩
    rintro y here
    cases here
    exact ⟨h,q,slept⟩

theorem stampReverse (answers : Bool) (s : Supervisor) : (stamp answers s).reverse = stamp answers s := by
  cases answers <;> rfl

theorem stampQuiet (answers : Bool) (s : Supervisor) : ∀ ev ∈ stamp answers s, ev.moves = false := by
  cases answers <;> simp [stamp,Event.moves]

theorem elapsedTrips {s x s' x' seen} (e : Elapsed s x s' x' seen) (past : List Event) :
    tripsSince (seen.reverse ++ past) = tripsSince past :=
  tripsBehind (fun ev mem => elapsedQuiet e ev (List.mem_reverse.mp mem)) past

theorem keptElapsed {s x s' x' seen past} (e : Elapsed s x s' x' seen)
    (raised : s.failStage = .uplink → s.alertActive = true) (counted : s.trips = tripsSince past)
    (calm : s.trips = 0 → s.alertActive = false → s.failStage = .none) :
    (s'.failStage = .uplink → s'.alertActive = true) ∧ s'.trips = tripsSince (seen.reverse ++ past) ∧
      (s'.trips = 0 → s'.alertActive = false → s'.failStage = .none) := by
  have same := e.same
  rw [same.failStage,same.alertActive,same.trips,elapsedTrips e]
  exact ⟨raised,counted,calm⟩

theorem keptTrip {s : Supervisor} {past seen : List Event} (raised : s.failStage = .uplink → s.alertActive = true)
    (counted : s.trips = tripsSince (seen.reverse ++ past)) :
    Kept ((trip s).behind seen).1 (((trip s).behind seen).2.reverse ++ past) := by
  have next := keptStop (p := past) (s := { s with
    trips := s.trips+1
    failStage := if s.failStage ≠ .uplink then .net else s.failStage
    failsSinceOk := s.failsSinceOk+1 })
    (l := seen ++ [.trip (if 2 ≤ s.trips+1 then .pwrcycle else .moduleReset) s.t]) ?_ ?_
  · simpa [Result.behind,trip] using next
  · intro uplink
    dsimp only at uplink
    split at uplink
    · cases uplink
    · exact raised uplink
  · simp [tripsSince,counted]

theorem keptJudge {s : Supervisor} {past x b j r} (kept : Kept s past) (at_ : s.place = .sampled x b)
    (judged : Judged s x j r) : Kept r.1 (r.2.reverse ++ past) := by
  obtain ⟨h,q,timed⟩ := kept.timed x (by rw [at_]; rfl)
  have calm := kept.calm (by rw [at_]; exact nofun)
  cases judged with
  | lost e =>
    obtain ⟨raised,counted,_⟩ := keptElapsed e kept.raised kept.counted calm
    exact keptStop raised counted
  | @frozen s' _ _ e =>
    obtain ⟨raised,counted,calm⟩ := keptElapsed e kept.raised kept.counted calm
    exact keptRestart .afterDiagnostics raised counted (timed.elapses e) calm s'.clock
  | @restarted s' _ _ e sight =>
    obtain ⟨raised,counted,calm⟩ := keptElapsed e kept.raised kept.counted calm
    exact keptRestart sight raised counted (timed.elapses e) calm s'.nowS
  | @stays s' x' seen e answers =>
    obtain ⟨raised,counted,calm⟩ := keptElapsed e kept.raised kept.counted calm
    rw [List.reverse_append,stampReverse,List.append_assoc]
    refine ⟨raised,?_,?_,fun _ => calm⟩
    · rw [tripsBehind (stampQuiet answers s')]
      exact counted
    · rintro y here
      cases here
      exact ⟨h,_,(timed.elapses e).answers answers⟩
  | @held s' x' seen e answers =>
    obtain ⟨_,counted,_⟩ := keptElapsed e kept.raised kept.counted calm
    simp only [List.reverse_append,stampReverse,List.append_assoc]
    refine ⟨fun _ => rfl,?_,?_,nofun⟩
    · rw [tripsBehind (by simp [Event.moves]),tripsBehind (stampQuiet answers s')]
      exact counted
    · rintro y here
      cases here
      have next := ((timed.elapses e).answers answers).ignores (v := .alert .uplink) rfl
        (stamped answers s' x').lastClearS
      exact ⟨h,_,next⟩
  | tripped before after why =>
    obtain ⟨raised,counted,_⟩ := keptElapsed (before.trans after) kept.raised kept.counted calm
    exact keptTrip raised counted

theorem keptBoot (t : Nat) : Kept (.boot t) [] := ⟨nofun,rfl,nofun,fun up => absurd rfl up⟩

theorem keptStep {s : Supervisor} {past} (kept : Kept s past) (i : Input) :
    Kept (step s i).1 ((step s i).2.reverse ++ past) := by
  cases i with
  | failed seconds stage =>
    simp only [step]
    split
    · exact keptFailed (kept.after seconds) stage
    · exact kept
  | up seconds entered =>
    simp only [step]
    split
    · exact keptUp (kept.after seconds) entered
    · exact kept
  | wake w =>
    simp only [step]
    split
    · exact keptWake kept (by assumption) w
    · exact kept
  | judge j =>
    simp only [step]
    split
    · exact keptJudge kept (by assumption) (judged s _ _ j)
    · exact kept

theorem keptRun (t : Nat) (inputs : List Input) : Kept (run t inputs).1 (run t inputs).2 := by
  induction inputs using List.reverseRecOn with
  | nil => exact keptBoot t
  | append_singleton a i ih =>
    rw [runConcat]
    exact keptStep ih i

/-- What the guards of a trip in second `t` saw. -/
structure Guarded (j : Judge) (past : List Event) (t : Nat) : Prop where
  transfer : j.ota = none ∧ j.recheck.otaAfterProbe = none ∧ j.recheck.otaAfterSnapshot = none ∧
    j.recheck.claims.inProgress = false
  owner : j.mqttOwnedFault = false
  probe : ∀ p, .answered p ∈ session past → j.clientMissing = true ∨ p+inetProbeCacheS.toNat ≤ t
  grace : ∀ g, .returned g ∈ session past → g+modemRecoveryRegGraceS.toNat ≤ t
  unhealthy : ∀ e ∈ session past, ∀ m, e.restartsAt = some m → m+uplinkDeadSecs.toNat ≤ t

/-- The step `i` out of `s`, with `past` done before and the result `r`. -/
structure Escalates (s : Supervisor) (past : List Event) (i : Input) (r : Result) : Prop where
  outageClock : Pending s → s.clock ≠ 0 → r.1.clock ≠ s.clock →
    ∃ t, s.t ≤ t ∧ r.1.clock = .ofNat t ∧ (.healthy t ∈ r.2 ∨ ∃ sight, .ota sight t ∈ r.2)
  otaRestarts : ∀ sight t, .ota sight t ∈ r.2 → ∃ x, r.1.place = .waiting x ∧ x.lastHealthyS = .ofNat t ∧
    (sight ≠ .afterDiagnostics → r.1.clock = .ofNat t)
  ladder : ∀ action t, .trip action t ∈ r.2 → action = if tripsSince past = 0 then .moduleReset else .pwrcycle
  guards : ∀ action t, .trip action t ∈ r.2 → ∃ j, i = .judge j ∧ Guarded j (r.2.reverse ++ past) t
  stageKept : s.failStage = .uplink → r.1.failStage = .uplink ∨ (∃ t, .healthy t ∈ r.2) ∨
    ∃ seconds f, i = .failed seconds (some f)
  reasserted : s.failStage = .uplink → ∀ x w, s.place = .waiting x → i = .wake w → w.loss = false →
    w.ota = none → w.healthy = false → .alert .uplink ∈ r.2
  healthyClears : ∀ t, .healthy t ∈ r.2 → r.1.trips = 0 ∧ r.1.failStage = .none ∧ r.1.alertActive = false

/-- Answers that hold a healthy sample or a transfer for the pass to see. -/
def Input.sees : Input → Bool
  | .wake w => !w.loss && (w.ota.isSome || w.healthy)
  | .judge j => j.recheck.otaAfterProbe.isSome || j.recheck.otaAfterSnapshot.isSome
  | .failed _ _ => false
  | .up _ _ => false

/-- The timer of the session restarted at the second `t`. -/
def Supervisor.Restarted (s : Supervisor) (t : Nat) : Prop :=
  ∃ x, s.place.session = some x ∧ x.lastHealthyS = .ofNat t

/-- What the answers `i` make of `s`. -/
structure Observes (s : Supervisor) (i : Input) (r : Result) : Prop where
  clockMoves : Pending s → s.clock ≠ 0 → r.1.clock ≠ s.clock → i.sees = true
  healthySample : ∀ x w, s.place = .waiting x → i = .wake w → w.loss = false → w.ota = none → w.healthy = true →
    (r.1.trips = 0 ∧ r.1.failStage = .none ∧ r.1.alertActive = false) ∧
      r.1.clock = .ofNat (s.t+w.slept) ∧ r.1.Restarted (s.t+w.slept)
  otaAtStart : ∀ x w seconds, s.place = .waiting x → i = .wake w → w.loss = false → w.ota = some seconds →
    r.1.clock = .ofNat (s.t+w.slept+seconds) ∧ r.1.Restarted (s.t+w.slept+seconds)
  otaAfterDiagnostics : ∀ x wdHealthy j seconds, s.place = .sampled x wdHealthy → i = .judge j → j.loss = false →
    j.ota = some seconds → r.1.Restarted (s.t+readSeconds j.radioPoll+seconds)

theorem Escalates.quiet {s past i r} (quiet : ∀ ev ∈ r.2, ev.moves = false)
    (clock : Pending s → s.clock ≠ 0 → r.1.clock = s.clock)
    (stage : s.failStage = .uplink → r.1.failStage = .uplink ∨ ∃ seconds f, i = .failed seconds (some f))
    (reasserted : s.failStage = .uplink → ∀ x w, s.place = .waiting x → i = .wake w → w.loss = false →
      w.ota = none → w.healthy = false → .alert .uplink ∈ r.2) : Escalates s past i r where
  outageClock := fun pending armed moved => absurd (clock pending armed) moved
  otaRestarts := fun _ _ mem => nomatch quiet _ mem
  ladder := fun _ _ mem => nomatch quiet _ mem
  guards := fun _ _ mem => nomatch quiet _ mem
  stageKept := fun uplink => (stage uplink).imp_right .inr
  reasserted := reasserted
  healthyClears := fun _ mem => nomatch quiet _ mem

theorem stopEscalates {s s' : Supervisor} {past i} {l : List Event} (quiet : ∀ ev ∈ l, ev.moves = false)
    (clock : s'.clock = s.clock)
    (stage : s.failStage = .uplink → s'.failStage = .uplink ∨ ∃ seconds f, i = .failed seconds (some f))
    (other : ∀ w, i = .wake w → w.loss = true) : Escalates s past i ((stopPpp s').behind l) := by
  obtain ⟨_,same,kept,_⟩ := stopSame s'
  refine .quiet ?_ (fun _ _ => same.trans clock) (fun uplink => kept ▸ stage uplink) ?_
  · intro ev mem
    rcases List.mem_append.mp mem with early | late
    · exact quiet ev early
    · exact idleQuiet (stopEvents s' ev late)
  · intro _ _ w _ woken stays
    rw [other w woken] at stays
    cases stays

theorem unfitEscalates {s past i} (other : ∀ x w, s.place = .waiting x → i ≠ .wake w) : Escalates s past i (s,[]) :=
  .quiet nofun (fun _ _ => rfl) .inl fun _ x w at_ woken => absurd woken (other x w at_)

theorem failedEscalates (s : Supervisor) (past : List Event) (seconds : Nat) (stage : Option BringupFail) :
    Escalates s past (.failed seconds stage) (failed (s.after seconds) stage) := by
  refine stopEscalates (l := []) nofun rfl (fun uplink => ?_) nofun
  cases stage with
  | none => exact .inl uplink
  | some f => exact .inr ⟨seconds,f,rfl⟩

theorem enterQuiet (s : Supervisor) : ∀ ev ∈ (superviseUplink s).2, ev.moves = false := by
  simp [superviseUplink,Event.moves]

theorem upClock {s : Supervisor} (pending : Pending s) (armed : s.clock ≠ 0) (entered : Bool) :
    (up s entered).1.clock = s.clock := by
  unfold up
  rw [gotIpPending pending]
  cases entered with
  | true =>
    refine if_neg ?_
    rintro (zero | ⟨none,other⟩)
    · exact armed zero
    · rcases pending with some | uplink
      · exact absurd none (Nat.ne_of_gt some)
      · exact other uplink
  | false => exact (stopSame s).2.1

theorem upEscalates (s : Supervisor) (past : List Event) (seconds : Nat) (entered : Bool) :
    Escalates s past (.up seconds entered) (up (s.after seconds) entered) := by
  have clock := upClock (s := s.after seconds)
  unfold up at clock ⊢
  by_cases pending : Pending s
  · rw [gotIpPending (s := s.after seconds) pending] at clock ⊢
    cases entered with
    | true =>
      refine .quiet ?_ (fun _ armed => clock pending armed true) .inl nofun
      exact enterQuiet (s.after seconds)
    | false => exact stopEscalates (l := []) nofun rfl .inl nofun
  · have idle := (gotIpCalm (s := s.after seconds) pending).2
    refine .quiet ?_ (fun here => absurd here pending) (fun uplink => absurd (.inr uplink) pending) nofun
    intro ev mem
    rcases List.mem_append.mp mem with early | late
    · exact idleQuiet (idle ev early)
    · cases entered with
      | true => cases List.mem_singleton.mp late; rfl
      | false => exact idleQuiet (stopEvents _ ev late)

theorem restartEscalates {s s' : Supervisor} {past i} {x : Session} {l : List Event} (sight : Sight)
    (quiet : ∀ ev ∈ l, ev.moves = false) (stage : s'.failStage = s.failStage) (forward : s.t ≤ s'.t)
    (clock : UInt32) (moved : clock = s'.nowS ∨ (clock = s.clock ∧ sight = .afterDiagnostics))
    (other : ∀ w, i = .wake w → w.ota.isSome) :
    Escalates s past i ({ s' with clock, place := .waiting { x with lastHealthyS := s'.nowS } },
      l ++ [.ota sight s'.t]) := by
  have seenLast {ev : Event} (moves : ev.moves = true) (mem : ev ∈ l ++ [.ota sight s'.t]) : ev = .ota sight s'.t := by
    rcases List.mem_append.mp mem with early | late
    · rw [quiet ev early] at moves
      cases moves
    · exact List.mem_singleton.mp late
  refine ⟨?_,?_,?_,?_,?_,?_,?_⟩
  · intro _ _ different
    rcases moved with now | ⟨same,_⟩
    · exact ⟨s'.t,forward,now,.inr ⟨sight,by simp⟩⟩
    · exact absurd same different
  · intro sight' t mem
    cases seenLast rfl mem
    refine ⟨_,rfl,rfl,fun late => ?_⟩
    exact moved.resolve_right fun same => late same.2
  · intro action t mem
    cases seenLast rfl mem
  · intro action t mem
    cases seenLast rfl mem
  · exact fun uplink => .inl (stage.trans uplink)
  · intro _ _ w _ woken _ none
    have some := other w woken
    rw [none] at some
    cases some
  · intro t mem
    cases seenLast rfl mem

theorem healthyEvents (s : Supervisor) (x : Session) (ev : Event) (mem : ev ∈ (backendHealthy s x).2) :
    ev = .healthy s.t ∨ ev = .clear := by
  revert mem
  unfold backendHealthy
  dsimp only
  split
  · split <;> simp +contextual
  · simp +contextual

theorem healthyClock (s : Supervisor) (x : Session) : (backendHealthy s x).1.clock = s.nowS ∧
    .healthy s.t ∈ (backendHealthy s x).2 := by
  unfold backendHealthy
  dsimp only
  split
  · split <;> simp
  · simp

theorem healthyEscalates {s r : Supervisor} {past i} {x : Session} (forward : s.t ≤ r.t)
    (cleared : (backendHealthy r x).1.trips = 0 ∧ (backendHealthy r x).1.failStage = .none ∧
      (backendHealthy r x).1.alertActive = false)
    (other : ∀ w, i = .wake w → w.healthy = true) : Escalates s past i (backendHealthy r x) := by
  obtain ⟨clock,present⟩ := healthyClock r x
  refine ⟨?_,?_,?_,?_,?_,?_,?_⟩
  · exact fun _ _ _ => ⟨r.t,forward,clock,.inl present⟩
  · intro sight t mem
    rcases healthyEvents r x _ mem with no | no <;> cases no
  · intro action t mem
    rcases healthyEvents r x _ mem with no | no <;> cases no
  · intro action t mem
    rcases healthyEvents r x _ mem with no | no <;> cases no
  · exact fun _ => .inr (.inl ⟨r.t,present⟩)
  · intro _ _ w _ woken _ _ ill
    rw [other w woken] at ill
    cases ill
  · exact fun _ _ => cleared

theorem wakeEscalates {s : Supervisor} {past x} (kept : Kept s past) (at_ : s.place = .waiting x) (w : Wake) :
    Escalates s past (.wake w) (wake s x w) := by
  obtain ⟨h,q,timed⟩ := kept.timed x (by rw [at_]; rfl)
  have calm := kept.calm (by rw [at_]; exact nofun)
  have slept := timed.later (Nat.le_add_right _ w.slept)
  fun_cases wake s x w with
  | case1 _ loss =>
    refine stopEscalates (l := []) nofun rfl .inl ?_
    rintro _ ⟨⟩
    exact loss
  | case2 _ _ seconds some =>
    have forward : s.t ≤ ((s.after w.slept).after seconds).t := (Nat.le_add_right _ _).trans (Nat.le_add_right _ _)
    refine restartEscalates (x := x) (l := []) .atStart nofun ?_ forward _ (.inl rfl) ?_
    · rfl
    · rintro _ ⟨⟩
      rw [some]
      rfl
  | case3 _ _ _ healthy =>
    refine healthyEscalates (r := s.after w.slept) (Nat.le_add_right _ _) ?_ ?_
    · exact (keptHealthy (s := s.after w.slept) kept.counted slept calm).2
    · rintro _ ⟨⟩
      exact healthy
  | case4 =>
    refine .quiet ?_ (fun _ _ => rfl) .inl ?_
    · simp [Event.moves]
    · simp
  | case5 _ _ _ _ quiet =>
    refine .quiet nofun (fun _ _ => rfl) .inl ?_
    intro uplink
    exact absurd ⟨kept.raised uplink,uplink⟩ quiet

theorem tryClaimed {c : FwOta.Claims} {commit : Bool} (ok : tryModemRecovery c commit = true) : c.inProgress = false := by
  unfold tryModemRecovery fwOtaTryModemRecovery at ok
  split at ok
  · rename_i free
    simp only [Bool.and_eq_true,Bool.not_eq_true'] at free
    exact free.1.1
  · cases ok

theorem sessionBehind {evs : List Event} (idle : ∀ ev ∈ evs, ev.idle = true ∨ ∃ a t, ev = .trip a t)
    (past : List Event) : session (evs ++ past) = evs ++ session past := by
  induction evs with
  | nil => rfl
  | cons ev rest ih =>
    have next := ih fun ev mem => idle ev (.tail _ mem)
    rcases idle ev (.head _) with here | ⟨_,_,rfl⟩
    · rw [List.cons_append,sessionIdle here,next]
      rfl
    · rw [List.cons_append,List.cons_append,← next]
      rfl

theorem graceOver {h q : Nat} {s : Supervisor} {past x} (timed : Timed h q s.t past x) {g : Nat}
    (mem : .returned g ∈ session past) (dead : h+uplinkDeadSecs.toNat ≤ s.t)
    (noGrace : modemRecoveryGraceActive x.recovery s.nowS = false) : g+modemRecoveryRegGraceS.toNat ≤ s.t := by
  rcases timed.graces g mem with before | ⟨used,started,le⟩
  · exact (Nat.add_le_add before (by decide)).trans dead
  · simp only [modemRecoveryGraceActive,used,started,Bool.true_and,decide_eq_false_iff_not,UInt32.not_lt] at noGrace
    exact reached le noGrace

theorem tripGuarded {h q : Nat} {s : Supervisor} {past x j d y s' x' early late} (timed : Timed h q s.t past x)
    (before : Elapsed s x d y early) (after : Elapsed d y s' x' late) (why : Warranted j d y s' x') :
    Guarded j ((early ++ late).reverse ++ past) s'.t := by
  have decided := timed.elapses before
  have committed : Timed h q s'.t ((early ++ late).reverse ++ past) x' := by
    simpa using decided.elapses after
  have forward := after.same.forward
  have dead : h+uplinkDeadSecs.toNat ≤ s'.t :=
    (reached decided.before (decided.healthy ▸ why.dead)).trans forward
  refine ⟨⟨why.noTransfer.1,why.noTransfer.2.1,why.noTransfer.2.2,tryClaimed why.committed⟩,why.notOwned,?_,?_,?_⟩
  · intro p mem
    obtain ⟨le,answered⟩ := committed.probes p mem
    refine why.noAnswer.imp_right fun stale => ?_
    rw [← after.same.lastProbeOkS,answered] at stale
    have := reached decided.probed stale
    exact (Nat.add_le_add_right le _).trans (this.trans forward)
  · exact fun g mem => graceOver committed mem dead why.noGrace
  · exact fun e mem m at_ => (Nat.add_le_add_right (committed.marks e mem m at_) _).trans dead

theorem Guarded.behind {j past t} (guarded : Guarded j past t) {evs : List Event}
    (idle : ∀ ev ∈ evs, ev.idle = true ∨ ∃ a t, ev = .trip a t) : Guarded j (evs ++ past) t := by
  have split {ev} (mem : ev ∈ session (evs ++ past)) :
      (ev.idle = true ∨ ∃ a t, ev = .trip a t) ∨ ev ∈ session past := by
    rw [sessionBehind idle] at mem
    exact (List.mem_append.mp mem).imp_left (idle ev)
  refine { guarded with probe := fun p mem => ?_, grace := fun g mem => ?_, unhealthy := fun e mem m at_ => ?_ }
  · rcases split mem with (no | ⟨_,_,no⟩) | here
    · cases no
    · cases no
    · exact guarded.probe p here
  · rcases split mem with (no | ⟨_,_,no⟩) | here
    · cases no
    · cases no
    · exact guarded.grace g here
  · rcases split mem with (no | ⟨_,_,rfl⟩) | here
    · cases e <;> simp [Event.idle,Event.restartsAt] at no at_
    · cases at_
    · exact guarded.unhealthy e here m at_

theorem tripDoes (s : Supervisor) : ∃ evs,
    (trip s).2 = .trip (if 2 ≤ s.trips+1 then .pwrcycle else .moduleReset) s.t :: evs ∧
      (∀ ev ∈ evs, ev.idle = true) ∧ (trip s).1.clock = s.clock ∧
      (s.failStage = .uplink → (trip s).1.failStage = .uplink) := by
  have same := stopSame { s with
    trips := s.trips+1
    failStage := if s.failStage ≠ .uplink then .net else s.failStage
    failsSinceOk := s.failsSinceOk+1 }
  refine ⟨_,rfl,stopEvents _,same.2.1,fun uplink => same.2.2.1.trans ?_⟩
  simp [uplink]

theorem tripEscalates {s : Supervisor} {past x b j d y s' x' early late} (kept : Kept s past)
    (at_ : s.place = .sampled x b) (before : Elapsed s x d y early) (after : Elapsed d y s' x' late)
    (why : Warranted j d y s' x') : Escalates s past (.judge j) ((trip s').behind (early ++ late)) := by
  obtain ⟨h,q,timed⟩ := kept.timed x (by rw [at_]; rfl)
  have elapsed := before.trans after
  have counted : s'.trips = tripsSince past := elapsed.same.trips.trans kept.counted
  obtain ⟨evs,fresh,idle,clock,stage⟩ := tripDoes s'
  have only {ev : Event} (moves : ev.moves = true) (mem : ev ∈ ((trip s').behind (early ++ late)).2) :
      ev = .trip (if 2 ≤ s'.trips+1 then .pwrcycle else .moduleReset) s'.t := by
    rcases List.mem_append.mp mem with seen | new
    · rw [elapsedQuiet elapsed ev seen] at moves
      cases moves
    · rw [fresh] at new
      rcases List.mem_cons.mp new with rfl | stop
      · rfl
      · rw [idleQuiet (idle ev stop)] at moves
        cases moves
  refine ⟨?_,?_,?_,?_,?_,nofun,?_⟩
  · exact fun _ _ moved => absurd (clock.trans elapsed.same.clock) moved
  · intro sight t mem
    cases only rfl mem
  · intro action t mem
    cases only rfl mem
    rw [← counted]
    by_cases first : s'.trips = 0
    · simp [first]
    · rw [if_pos (by omega),if_neg first]
  · intro action t mem
    cases only rfl mem
    refine ⟨j,rfl,?_⟩
    have order : ((trip s').behind (early ++ late)).2.reverse ++ past =
        (evs.reverse ++ [.trip (if 2 ≤ s'.trips+1 then .pwrcycle else .moduleReset) s'.t]) ++
          ((early ++ late).reverse ++ past) := by
      simp [Result.behind,fresh]
    rw [order]
    refine (tripGuarded timed before after why).behind fun ev mem => ?_
    rcases List.mem_append.mp mem with stop | last
    · exact .inl (idle ev (List.mem_reverse.mp stop))
    · exact .inr ⟨_,_,List.mem_singleton.mp last⟩
  · exact fun uplink => .inl (stage (elapsed.same.failStage.trans uplink))
  · intro t mem
    cases only rfl mem

theorem judgeEscalates {s : Supervisor} {past x b j r} (kept : Kept s past) (at_ : s.place = .sampled x b)
    (judged : Judged s x j r) : Escalates s past (.judge j) r := by
  cases judged with
  | lost e =>
    exact stopEscalates (elapsedQuiet e) e.same.clock (fun uplink => .inl (e.same.failStage.trans uplink)) nofun
  | @frozen s' _ _ e =>
    exact restartEscalates .afterDiagnostics (elapsedQuiet e) e.same.failStage e.same.forward s'.clock
      (.inr ⟨e.same.clock,rfl⟩) nofun
  | @restarted s' _ _ e sight =>
    exact restartEscalates sight (elapsedQuiet e) e.same.failStage e.same.forward s'.nowS (.inl rfl) nofun
  | stays e answers =>
    refine .quiet ?_ (fun _ _ => e.same.clock) (fun uplink => .inl (e.same.failStage.trans uplink)) nofun
    intro ev mem
    rcases List.mem_append.mp mem with early | late
    · exact elapsedQuiet e ev early
    · exact stampQuiet answers _ ev late
  | held e answers =>
    refine .quiet ?_ (fun _ _ => e.same.clock) (fun _ => .inl rfl) nofun
    intro ev mem
    rcases List.mem_append.mp mem with early | last
    · rcases List.mem_append.mp early with early | late
      · exact elapsedQuiet e ev early
      · exact stampQuiet answers _ ev late
    · cases List.mem_singleton.mp last
      rfl
  | tripped before after why => exact tripEscalates kept at_ before after why

theorem stepEscalates {s : Supervisor} {past : List Event} (kept : Kept s past) (i : Input) :
    Escalates s past i (step s i) := by
  cases i with
  | failed seconds stage =>
    simp only [step]
    split
    · exact failedEscalates s past seconds stage
    · exact unfitEscalates nofun
  | up seconds entered =>
    simp only [step]
    split
    · exact upEscalates s past seconds entered
    · exact unfitEscalates nofun
  | wake w =>
    simp only [step]
    split
    · exact wakeEscalates kept (by assumption) w
    · rename_i other
      exact unfitEscalates fun x _ at_ => absurd at_ (other x)
  | judge j =>
    simp only [step]
    split
    · exact judgeEscalates kept (by assumption) (judged s _ _ j)
    · exact unfitEscalates nofun

theorem wakeClock {s : Supervisor} {x : Session} {w : Wake} (moved : (wake s x w).1.clock ≠ s.clock) :
    (Input.wake w).sees = true := by
  revert moved
  fun_cases wake s x w with
  | case1 => exact fun moved => absurd (stopSame _).2.1 moved
  | case2 _ on seconds some => simp [Input.sees,on,some]
  | case3 _ on _ healthy => simp [Input.sees,on,healthy]
  | case4 | case5 => exact fun moved => absurd rfl moved

theorem judgeClock {s : Supervisor} {x : Session} {j : Judge} {r : Result} (judged : Judged s x j r)
    (moved : r.1.clock ≠ s.clock) : (Input.judge j).sees = true := by
  cases judged with
  | @lost s' _ _ e => exact absurd ((stopSame s').2.1.trans e.same.clock) moved
  | frozen e => exact absurd e.same.clock moved
  | restarted e sight late seen_ => exact seen_
  | stays e answers => exact absurd e.same.clock moved
  | held e answers => exact absurd e.same.clock moved
  | @tripped _ _ s' _ _ _ before after why =>
    obtain ⟨_,_,_,clock,_⟩ := tripDoes s'
    exact absurd (clock.trans (before.trans after).same.clock) moved

theorem healthyRestarts (s : Supervisor) (x : Session) : (backendHealthy s x).1.Restarted s.t := by
  unfold backendHealthy
  dsimp only
  split
  · split <;> exact ⟨_,rfl,rfl⟩
  · exact ⟨_,rfl,rfl⟩

theorem wakeObserves {s : Supervisor} {past x} (kept : Kept s past) (at_ : s.place = .waiting x) (w : Wake) :
    Observes s (.wake w) (wake s x w) where
  clockMoves := fun _ _ => wakeClock
  healthySample := by
    rintro y _ waiting ⟨⟩ on none healthy
    obtain rfl := Place.waiting.inj (at_.symm.trans waiting)
    obtain ⟨h,q,timed⟩ := kept.timed x (by rw [at_]; rfl)
    have calm := kept.calm (by rw [at_]; exact nofun)
    have slept := timed.later (Nat.le_add_right _ w.slept)
    have taken : wake s x w = backendHealthy (s.after w.slept) x := by simp [wake,on,none,healthy]
    rw [taken]
    exact ⟨(keptHealthy (s := s.after w.slept) kept.counted slept calm).2,(healthyClock _ x).1,healthyRestarts _ x⟩
  otaAtStart := by
    rintro y _ seconds waiting ⟨⟩ on some
    obtain rfl := Place.waiting.inj (at_.symm.trans waiting)
    have taken : wake s x w = otaRestart ((s.after w.slept).after seconds) x .atStart := by simp [wake,on,some]
    rw [taken]
    exact ⟨rfl,_,rfl,rfl⟩
  otaAfterDiagnostics := fun _ _ _ _ _ same => nomatch same

theorem judgeObserves {s : Supervisor} {x : Session} {b : Bool} (at_ : s.place = .sampled x b) (j : Judge) :
    Observes s (.judge j) (judge s x b j) where
  clockMoves := fun _ _ => judgeClock (judged s x b j)
  healthySample := fun _ _ _ same => nomatch same
  otaAtStart := fun _ _ _ _ same => nomatch same
  otaAfterDiagnostics := by
    rintro y c _ seconds sampled ⟨⟩ on some
    obtain ⟨rfl,rfl⟩ := Place.sampled.inj (at_.symm.trans sampled)
    have polled := snapshotsTime j.radioPoll s x
    refine ⟨{ (snapshots s x j.radioPoll).2.1 with
      lastHealthyS := ((snapshots s x j.radioPoll).1.after seconds).nowS },?_,?_⟩
    · simp [judge,on,some,Result.behind,Place.session]
    · simp only [Supervisor.nowS,Supervisor.after,polled]

theorem Observes.outside {s : Supervisor} {i : Input} {r : Result}
    (clock : Pending s → s.clock ≠ 0 → r.1.clock = s.clock) (waking : ∀ x w, s.place = .waiting x → i ≠ .wake w)
    (judging : ∀ x b j, s.place = .sampled x b → i ≠ .judge j) : Observes s i r where
  clockMoves := fun pending armed moved => absurd (clock pending armed) moved
  healthySample := fun x w waiting same => absurd same (waking x w waiting)
  otaAtStart := fun x w _ waiting same => absurd same (waking x w waiting)
  otaAfterDiagnostics := fun x b j _ sampled same => absurd same (judging x b j sampled)

theorem stepObserves {s : Supervisor} {past : List Event} (kept : Kept s past) (i : Input) :
    Observes s i (step s i) := by
  cases i with
  | failed seconds stage =>
    simp only [step]
    split
    · exact .outside (fun _ _ => (stopSame _).2.1) (fun _ _ _ => Input.noConfusion) (fun _ _ _ _ => Input.noConfusion)
    · exact .outside (fun _ _ => rfl) (fun _ _ _ => Input.noConfusion) (fun _ _ _ _ => Input.noConfusion)
  | up seconds entered =>
    simp only [step]
    split
    · exact .outside (fun pending armed => upClock (s := s.after seconds) pending armed entered) (fun _ _ _ => Input.noConfusion) (fun _ _ _ _ => Input.noConfusion)
    · exact .outside (fun _ _ => rfl) (fun _ _ _ => Input.noConfusion) (fun _ _ _ _ => Input.noConfusion)
  | wake w =>
    simp only [step]
    split
    · exact wakeObserves kept (by assumption) w
    · rename_i other
      exact .outside (fun _ _ => rfl) (fun x _ at_ => absurd at_ (other x)) fun _ _ _ _ => Input.noConfusion
  | judge j =>
    simp only [step]
    split
    · exact judgeObserves (by assumption) j
    · rename_i other
      exact .outside (fun _ _ => rfl) (fun _ _ _ => Input.noConfusion) fun x b _ at_ => absurd at_ (other x b)

/-- Every step of every run; a clock of 0 is one that no session has started. -/
theorem outageEscalation (t : Nat) (inputs : List Input) (i : Input) :
    Escalates (run t inputs).1 (run t inputs).2 i (step (run t inputs).1 i) ∧
      Observes (run t inputs).1 i (step (run t inputs).1 i) := by
  have kept := keptRun t inputs
  exact ⟨stepEscalates kept i,stepObserves kept i⟩

def ill (slept : Nat) : Input := .wake ⟨slept,false,none,false⟩

def answersOf (ota : Option Nat) (owned healthyAfterProbe : Bool) : Judge :=
  ⟨[],false,ota,0,owned,false,false,
    ⟨0,false,none,healthyAfterProbe,0,[],false,none,0,false,⟨false,false,false,false,false,false⟩,true⟩⟩

/-- Half an hour of an outage that the MQTT owner holds. -/
def raised : List Input := [.up 0 true,ill 1800,.judge (answersOf none true false)]

/-- NO UPLINK is up: a pass that sees a transfer does not assert it again, one that sees it
after the diagnostics leaves the outage clock, and a failed bring-up drops the stage. A health
sample of the rechecks does not put off the trip of the next pass, and a clock of 0 moves with a
session. -/
theorem plainReadingFails :
    ((run 10 raised).1.failStage = .uplink ∧
      (step (run 10 raised).1 (.wake ⟨30,false,some 0,false⟩)).2 = [.ota .atStart 1840]) ∧
    ((step (run 10 (raised ++ [ill 30])).1 (.judge (answersOf (some 0) false false))).2 =
        [.ota .afterDiagnostics 1840] ∧
      (run 10 (raised ++ [ill 30,.judge (answersOf (some 0) false false)])).1.clock = 10) ∧
    (run 10 (raised ++ [.wake ⟨30,true,none,false⟩,.failed 10 (some .net)])).1.failStage = .net ∧
    (step (run 10 [.up 0 true,ill 300,.judge (answersOf none false true),ill 30]).1
      (.judge (answersOf none false false))).2 = [.trip .moduleReset 340] ∧
    ((run 0 [.up 0 true,ill 300,.judge (answersOf none false false)]).1.trips = 1 ∧
      (run 0 [.up 0 true,ill 300,.judge (answersOf none false false)]).1.clock = 0 ∧
      (run 0 [.up 0 true,ill 300,.judge (answersOf none false false),.up 60 true]).1.clock = 360) := by
  decide

end Web3PiUps.ModemUplink
