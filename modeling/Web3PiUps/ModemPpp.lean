import Web3PiUps.Lib.CyclicIds
import Mathlib.Data.List.Basic
import Mathlib.Data.List.Induction

/-! The PPP lifecycle of `firmware-ESP32-LTE-M/main/modem.c`. Each `ppp_events_*` function
is one section under `s_ppp_event_lock`; a turn of `ppp_events_wait_for_link` is one pass of
its loop, which the event bits only wake, so that it may come at any time. -/
namespace Web3PiUps.ModemPpp

inductive Phase where
  | preparing
  | starting
  | up
  | down
  | stopping
  deriving DecidableEq, Repr

inductive Observation where
  | none
  | gotIp
  | lostIp
  | error
  deriving DecidableEq, Repr

structure PppState where
  phase : Phase
  observation : Observation
  error : Int
  attempt : UInt32
  sequence : UInt32
  generation : UInt32
  hadIp : Bool
  deriving DecidableEq, Repr

def PppState.boot : PppState := ⟨.stopping,.none,0,0,0,0,false⟩

def modemPppIsUp (s : PppState) : Bool := s.phase == .up

def modemPppGeneration (s : PppState) : UInt32 := if s.phase = .up then s.generation else 0

def pppEventsBeginAttempt (s : PppState) : PppState :=
  { s with
    attempt := s.attempt+1, sequence := s.sequence+1, phase := .preparing, observation := .none, error := 0
    hadIp := false }

def pppEventsStartDial (s : PppState) : PppState :=
  { s with phase := .starting, observation := .none, error := 0, hadIp := false, sequence := s.sequence+1 }

def pppEventsBeginStop (s : PppState) : PppState := { s with phase := .stopping, sequence := s.sequence+1 }

def pppEventsTakeLoss (s : PppState) : PppState × Bool :=
  if s.phase = .down then (pppEventsBeginStop s,true) else (s,false)

/-- `++generation`, and once more where that gives zero. -/
def nextGeneration (g : UInt32) : UInt32 := if g+1 = 0 then g+1+1 else g+1

def pppEventsObserve (s : PppState) (observation : Observation) (error : Int) : PppState × Bool :=
  let accepted := s.phase ≠ .stopping ∧ s.phase ≠ .preparing
  let s := { s with sequence := s.sequence+1 }
  if accepted then
    let s := { s with observation := observation, error := error }
    if observation = .gotIp then
      ({ s with
        generation := if s.phase ≠ .up then nextGeneration s.generation else s.generation
        phase := .up, hadIp := true },true)
    else if observation = .error ∨ s.hadIp then ({ s with phase := .down },true)
    else (s,true)
  else (s,false)

/-- One pass of the loop, and what it returns, if it does. -/
def pppEventsWaitTurn (s : PppState) (expired : Bool) : PppState × Option Phase :=
  let t := if s.phase = .down ∨ (expired ∧ s.phase ≠ .up) then pppEventsBeginStop s else s
  if s.phase = .up ∨ s.phase = .down then (t,some s.phase)
  else if expired then (t,some .starting)
  else (t,none)

def modemRecoveryCommitPpp (expected s : PppState) : PppState × Bool :=
  if s.phase = .up ∧ s.attempt = expected.attempt ∧ s.sequence = expected.sequence then
    (pppEventsBeginStop s,true)
  else (s,false)

/-- Where `ppp_supervisor_task` stands; `session` is from the UP that the wait returns to
the teardown. -/
inductive Place where
  | attempt
  | bringup
  | dialled
  | waiting
  | session
  | stop
  deriving DecidableEq, Repr

inductive Ending where
  | waitDown
  | waitTimeout
  | loss
  | recovery
  deriving DecidableEq, Repr

inductive Mark where
  | dial
  | rise
  | got
  | ended (how : Ending)
  deriving DecidableEq, Repr

/-- `log`, newest first, keeps the dials, the addresses that were applied and the endings. -/
structure Modem where
  ppp : PppState
  place : Place
  log : List Mark
  deriving DecidableEq, Repr

inductive Input where
  | observe (observation : Observation) (error : Int)
  | beginAttempt
  | bringupFails
  | startDial
  | bringupDone
  | waitTurn (expired : Bool)
  | takeLoss
  | commit (expected : PppState)
  | leave
  | beginStop
  deriving DecidableEq, Repr

def Modem.boot : Modem := ⟨.boot,.attempt,[]⟩

def Modem.end_ (m : Modem) (ppp : PppState) (how : Ending) : Modem := ⟨ppp,.stop,.ended how::m.log⟩

def observed (m : Modem) (observation : Observation) (error : Int) : Modem :=
  let r := pppEventsObserve m.ppp observation error
  let log := if r.2 = true ∧ observation = .gotIp then
      (if m.ppp.phase = .up then .got else .rise)::m.log
    else m.log
  { m with ppp := r.1, log := log }

def waited (m : Modem) (expired : Bool) : Modem :=
  match pppEventsWaitTurn m.ppp expired with
  | (ppp,some .up) => { m with ppp := ppp, place := .session }
  | (ppp,some .down) => m.end_ ppp .waitDown
  | (ppp,some _) => m.end_ ppp .waitTimeout
  | (ppp,none) => { m with ppp := ppp }

def step (m : Modem) : Input → Modem
  | .observe observation error => observed m observation error
  | .beginAttempt =>
    if m.place = .attempt then { m with ppp := pppEventsBeginAttempt m.ppp, place := .bringup } else m
  | .bringupFails => if m.place = .bringup ∨ m.place = .dialled then { m with place := .stop } else m
  | .startDial =>
    if m.place = .bringup then ⟨pppEventsStartDial m.ppp,.dialled,.dial::m.log⟩ else m
  | .bringupDone => if m.place = .dialled then { m with place := .waiting } else m
  | .waitTurn expired => if m.place = .waiting then waited m expired else m
  | .takeLoss =>
    if m.place = .session then
      match pppEventsTakeLoss m.ppp with
      | (ppp,true) => m.end_ ppp .loss
      | (_,false) => m
    else m
  | .commit expected =>
    if m.place = .session then
      match modemRecoveryCommitPpp expected m.ppp with
      | (ppp,true) => m.end_ ppp .recovery
      | (_,false) => m
    else m
  | .leave => if m.place = .session then { m with place := .stop } else m
  | .beginStop =>
    if m.place = .stop then { m with ppp := pppEventsBeginStop m.ppp, place := .attempt } else m

def run (inputs : List Input) : Modem := inputs.foldl step .boot

theorem runAppend (a b : List Input) : run (a ++ b) = b.foldl step (run a) := List.foldl_append

theorem runConcat (a : List Input) (i : Input) : run (a ++ [i]) = step (run a) i := by rw [runAppend]; rfl

/-- No address yet since the last dial. -/
def noGotYet : List Mark → Bool
  | .rise :: _ => false
  | .got :: _ => false
  | .dial :: _ => true
  | .ended _ :: older => noGotYet older
  | [] => true

/-- The last dial has had its ending. -/
def spent : List Mark → Bool
  | .ended _ :: _ => true
  | .dial :: _ => false
  | .rise :: older => spent older
  | .got :: older => spent older
  | [] => false

def rises (log : List Mark) : Nat := log.count .rise

def dials (log : List Mark) : Nat := log.count .dial

@[simp] theorem risesRise (log : List Mark) : rises (.rise::log) = rises log + 1 := by simp [rises]
@[simp] theorem risesGot (log : List Mark) : rises (.got::log) = rises log := by simp [rises]
@[simp] theorem risesDial (log : List Mark) : rises (.dial::log) = rises log := by simp [rises]
@[simp] theorem risesEnded (how : Ending) (log : List Mark) : rises (.ended how::log) = rises log := by
  simp [rises]

@[simp] theorem dialsRise (log : List Mark) : dials (.rise::log) = dials log := by simp [dials]
@[simp] theorem dialsGot (log : List Mark) : dials (.got::log) = dials log := by simp [dials]
@[simp] theorem dialsDial (log : List Mark) : dials (.dial::log) = dials log + 1 := by simp [dials]
@[simp] theorem dialsEnded (how : Ending) (log : List Mark) : dials (.ended how::log) = dials log := by
  simp [dials]

/-- Outside a dial and its session. -/
def Shut (p : Phase) : Prop := p = .stopping ∨ p = .preparing

inductive Moved (m : Modem) : Modem → Prop where
  | ignored (shut : Shut m.ppp.phase) : Moved m { m with ppp := { m.ppp with sequence := m.ppp.sequence+1 } }
  | rise (live : ¬Shut m.ppp.phase) (low : m.ppp.phase ≠ .up) (error : Int) :
      Moved m
        ⟨{ m.ppp with
            sequence := m.ppp.sequence+1, observation := .gotIp, error := error
            generation := nextGeneration m.ppp.generation, phase := .up, hadIp := true },
          m.place,.rise::m.log⟩
  | got (isUp : m.ppp.phase = .up) (error : Int) :
      Moved m
        ⟨{ m.ppp with
            sequence := m.ppp.sequence+1, observation := .gotIp, error := error, phase := .up, hadIp := true },
          m.place,.got::m.log⟩
  | fell (live : ¬Shut m.ppp.phase) (o : Observation) (error : Int) :
      Moved m
        { m with
          ppp := { m.ppp with
            sequence := m.ppp.sequence+1, observation := o, error := error, phase := .down } }
  | noted (live : ¬Shut m.ppp.phase) (o : Observation) (error : Int) :
      Moved m { m with ppp := { m.ppp with sequence := m.ppp.sequence+1, observation := o, error := error } }
  | attempt (at_ : m.place = .attempt) :
      Moved m { m with ppp := pppEventsBeginAttempt m.ppp, place := .bringup }
  | fails (at_ : m.place = .bringup ∨ m.place = .dialled) : Moved m { m with place := .stop }
  | dial (at_ : m.place = .bringup) : Moved m ⟨pppEventsStartDial m.ppp,.dialled,.dial::m.log⟩
  | done (at_ : m.place = .dialled) : Moved m { m with place := .waiting }
  | linked (at_ : m.place = .waiting) (isUp : m.ppp.phase = .up) : Moved m { m with place := .session }
  | ended (how : Ending) (at_ : m.place = .waiting ∨ m.place = .session) :
      Moved m (m.end_ (pppEventsBeginStop m.ppp) how)
  | left (at_ : m.place = .session) : Moved m { m with place := .stop }
  | stop (at_ : m.place = .stop) : Moved m { m with ppp := pppEventsBeginStop m.ppp, place := .attempt }
  | stays : Moved m m

@[simp] theorem observedPlace (m : Modem) (o : Observation) (error : Int) : (observed m o error).place = m.place := rfl

@[simp] theorem observedSequence (m : Modem) (o : Observation) (error : Int) :
    (observed m o error).ppp.sequence = m.ppp.sequence+1 := by
  simp only [observed,pppEventsObserve]
  split
  · split
    · rfl
    · split <;> rfl
  · rfl

theorem observedMoves (m : Modem) (o : Observation) (error : Int) : Moved m (observed m o error) := by
  by_cases shut : Shut m.ppp.phase
  · have ignored : observed m o error = { m with ppp := { m.ppp with sequence := m.ppp.sequence+1 } } := by
      rcases shut with phase | phase <;> simp [observed,pppEventsObserve,phase]
    rw [ignored]
    exact .ignored shut
  · have live : m.ppp.phase ≠ .stopping ∧ m.ppp.phase ≠ .preparing := not_or.mp shut
    by_cases got : o = .gotIp
    · by_cases isUp : m.ppp.phase = .up
      · simpa only [observed,pppEventsObserve,got,isUp] using .got isUp error
      · simpa [observed,pppEventsObserve,live.1,live.2,got,isUp] using .rise shut isUp error
    · by_cases falls : o = .error ∨ m.ppp.hadIp
      · simpa [observed,pppEventsObserve,live.1,live.2,got,falls] using .fell shut o error
      · simpa [observed,pppEventsObserve,live.1,live.2,got,falls] using .noted shut o error

theorem waitedMoves {m : Modem} (at_ : m.place = .waiting) (expired : Bool) : Moved m (waited m expired) := by
  unfold waited pppEventsWaitTurn
  cases phase : m.ppp.phase <;> cases expired <;> simp
  all_goals first
    | exact .stays
    | exact .linked at_ phase
    | exact .ended _ (.inl at_)

theorem movedIte {m n : Modem} {c : Prop} [Decidable c] (took : c → Moved m n) : Moved m (if c then n else m) := by
  by_cases holds : c
  · rw [if_pos holds]; exact took holds
  · rw [if_neg holds]; exact .stays

theorem stepMoves (m : Modem) (i : Input) : Moved m (step m i) := by
  cases i with
  | observe o error => exact observedMoves m o error
  | beginAttempt => exact movedIte .attempt
  | bringupFails => exact movedIte .fails
  | startDial => exact movedIte .dial
  | bringupDone => exact movedIte .done
  | waitTurn expired => exact movedIte fun at_ => waitedMoves at_ expired
  | takeLoss =>
    by_cases at_ : m.place = .session
    · by_cases down : m.ppp.phase = .down
      · simp only [step, at_, pppEventsTakeLoss, down, if_true]
        exact .ended .loss (.inr at_)
      · simp only [step, at_, pppEventsTakeLoss, down, if_false, if_true]
        exact .stays
    · simp only [step, at_, if_false]
      exact .stays
  | commit expected =>
    by_cases at_ : m.place = .session
    · by_cases current : m.ppp.phase = .up ∧ m.ppp.attempt = expected.attempt ∧ m.ppp.sequence = expected.sequence
      · simp only [step, at_, modemRecoveryCommitPpp, current, if_true]
        exact .ended .recovery (.inr at_)
      · simp only [step, at_, modemRecoveryCommitPpp, current, if_false, if_true]
        exact .stays
    · simp only [step, at_, if_false]
      exact .stays
  | leave => exact movedIte .left
  | beginStop => exact movedIte .stop

structure Kept (m : Modem) : Prop where
  attempt : m.place = .attempt → Shut m.ppp.phase
  bringup : m.place = .bringup → Shut m.ppp.phase
  gotIp : m.ppp.hadIp = true → noGotYet m.log = false
  finished : spent m.log = true → Shut m.ppp.phase ∧ (m.place = .stop ∨ m.place = .attempt ∨ m.place = .bringup)
  counted : m.ppp.generation = nextGeneration^[rises m.log] 0
  lit : m.ppp.phase = .up → 0 < rises m.log

theorem keptBoot : Kept .boot where
  attempt _ := .inl rfl
  bringup at_ := nomatch at_
  gotIp had := nomatch had
  finished was := nomatch was
  counted := rfl
  lit isUp := nomatch isUp

theorem Kept.unspent {m : Modem} (kept : Kept m) (live : ¬Shut m.ppp.phase) : ¬spent m.log = true :=
  fun was => live (kept.finished was).1

theorem notUp {p : Phase} (shut : Shut p) : p ≠ .up := by
  rcases shut with rfl | rfl <;> decide

theorem Kept.unspentAt {m : Modem} (kept : Kept m) (at_ : m.place = .waiting ∨ m.place = .session) :
    ¬spent m.log = true := by
  intro was
  rcases (kept.finished was).2 with other | other | other <;> rw [other] at at_ <;> simp at at_

theorem keptMoved {m n : Modem} (kept : Kept m) (moved : Moved m n) : Kept n := by
  cases moved with
  | ignored shut => exact ⟨kept.attempt,kept.bringup,kept.gotIp,kept.finished,kept.counted,kept.lit⟩
  | rise live low error =>
    refine ⟨fun at_ => (live (kept.attempt at_)).elim,fun at_ => (live (kept.bringup at_)).elim,fun _ => rfl,
      fun was => (kept.unspent live was).elim,?_,fun _ => by simp⟩
    rw [risesRise,Function.iterate_succ_apply',← kept.counted]
  | got isUp error =>
    have live : ¬Shut m.ppp.phase := fun shut => notUp shut isUp
    refine ⟨fun at_ => (live (kept.attempt at_)).elim,fun at_ => (live (kept.bringup at_)).elim,fun _ => rfl,
      fun was => (kept.unspent live was).elim,?_,fun _ => ?_⟩
    · rw [risesGot]; exact kept.counted
    · rw [risesGot]; exact kept.lit isUp
  | fell live o error =>
    exact ⟨fun at_ => (live (kept.attempt at_)).elim,fun at_ => (live (kept.bringup at_)).elim,kept.gotIp,
      fun was => (kept.unspent live was).elim,kept.counted,by nofun⟩
  | noted live o error => exact ⟨kept.attempt,kept.bringup,kept.gotIp,kept.finished,kept.counted,kept.lit⟩
  | attempt at_ =>
    exact ⟨by nofun,fun _ => .inr rfl,by nofun,fun was => ⟨.inr rfl,.inr (.inr rfl)⟩,kept.counted,by nofun⟩
  | fails at_ =>
    exact ⟨by nofun,by nofun,kept.gotIp,fun was => ⟨(kept.finished was).1,.inl rfl⟩,kept.counted,kept.lit⟩
  | dial at_ =>
    refine ⟨by nofun,by nofun,by nofun,by nofun,?_,by nofun⟩
    rw [risesDial]; exact kept.counted
  | done at_ =>
    refine ⟨by nofun,by nofun,kept.gotIp,fun was => ?_,kept.counted,kept.lit⟩
    rcases (kept.finished was).2 with other | other | other <;> rw [other] at at_ <;> simp at at_
  | linked at_ isUp =>
    exact ⟨by nofun,by nofun,kept.gotIp,fun was => (kept.unspentAt (.inl at_) was).elim,kept.counted,kept.lit⟩
  | ended how at_ =>
    refine ⟨by nofun,by nofun,kept.gotIp,fun _ => ⟨.inl rfl,.inl rfl⟩,?_,by nofun⟩
    rw [Modem.end_,risesEnded]; exact kept.counted
  | left at_ =>
    exact ⟨by nofun,by nofun,kept.gotIp,fun was => (kept.unspentAt (.inr at_) was).elim,kept.counted,kept.lit⟩
  | stop at_ =>
    exact ⟨fun _ => .inl rfl,by nofun,kept.gotIp,fun _ => ⟨.inl rfl,.inr (.inl rfl)⟩,kept.counted,by nofun⟩
  | stays => exact kept

theorem keptRun (a : List Input) : Kept (run a) := by
  induction a using List.reverseRecOn with
  | nil => exact keptBoot
  | append_singleton a i ih => rw [runConcat]; exact keptMoved ih (stepMoves _ i)

/-- Two endings have a dial between them. -/
def Alternating (log : List Mark) : Prop :=
  ∀ newer mid older how how', log = newer ++ .ended how::(mid ++ .ended how'::older) → .dial ∈ mid

theorem spentTail {mid older : List Mark} {how : Ending} (none : .dial ∉ mid) :
    spent (mid ++ .ended how::older) = true := by
  induction mid with
  | nil => rfl
  | cons mark mid ih =>
    have rest := ih fun later => none (.tail _ later)
    cases mark with
    | dial => exact (none (.head _)).elim
    | rise => exact rest
    | got => exact rest
    | ended how => rfl

theorem alternatingCons {mark : Mark} {log : List Mark} (before : Alternating log)
    (fresh : ∀ how, mark = .ended how → ¬spent log = true) : Alternating (mark::log) := by
  rintro (_ | ⟨first,newer⟩) mid older how how' same
  · obtain ⟨rfl,rfl⟩ := List.cons.inj same
    by_contra none
    exact fresh how rfl (spentTail none)
  · exact before newer mid older how how' (List.cons.inj same).2

theorem alternatingMoved {m n : Modem} (kept : Kept m) (before : Alternating m.log) (moved : Moved m n) :
    Alternating n.log := by
  cases moved with
  | rise => exact alternatingCons before (by nofun)
  | got => exact alternatingCons before (by nofun)
  | dial => exact alternatingCons before (by nofun)
  | ended how at_ => exact alternatingCons before fun _ _ => kept.unspentAt at_
  | ignored | fell | noted | attempt | fails | done | linked | left | stop | stays => exact before

theorem alternatingRun (a : List Input) : Alternating (run a).log := by
  induction a using List.reverseRecOn with
  | nil => rintro (_ | ⟨_,_⟩) _ _ _ _ same <;> exact nomatch same
  | append_singleton a i ih => rw [runConcat]; exact alternatingMoved (keptRun a) ih (stepMoves _ i)

/-! Outside a dial nothing but the next one opens the lifecycle again. -/

theorem shutMoved {m n : Modem} (shut : Shut m.ppp.phase) (moved : Moved m n)
    (same : dials n.log = dials m.log) : Shut n.ppp.phase := by
  cases moved with
  | rise live _ _ => exact (live shut).elim
  | got isUp _ => exact (notUp shut isUp).elim
  | fell live _ _ => exact (live shut).elim
  | dial at_ => simp at same
  | linked at_ isUp => exact (notUp shut isUp).elim
  | attempt at_ => exact .inr rfl
  | ended how at_ => exact .inl rfl
  | stop at_ => exact .inl rfl
  | ignored | noted | fails | done | left | stays => exact shut

theorem dialsMoved {m n : Modem} (moved : Moved m n) : dials m.log ≤ dials n.log := by
  cases moved <;> simp [Modem.end_]

theorem dialsRun (a b : List Input) : dials (run a).log ≤ dials (run (a ++ b)).log := by
  induction b using List.reverseRecOn with
  | nil => rw [List.append_nil]
  | append_singleton b i ih =>
    rw [← List.append_assoc,runConcat]
    exact ih.trans (dialsMoved (stepMoves _ i))

theorem shutRun {a b : List Input} (shut : Shut (run a).ppp.phase)
    (same : dials (run (a ++ b)).log = dials (run a).log) : Shut (run (a ++ b)).ppp.phase := by
  induction b using List.reverseRecOn with
  | nil => rwa [List.append_nil]
  | append_singleton b i ih =>
    rw [← List.append_assoc] at same ⊢
    rw [runConcat] at same ⊢
    have low := dialsRun a b
    have high := dialsMoved (stepMoves (run (a ++ b)) i)
    have before : dials (run (a ++ b)).log = dials (run a).log := by omega
    exact shutMoved (ih before) (stepMoves _ i) (same.trans before.symm)

theorem nextGenerationNat (g : UInt32) : (nextGeneration g).toNat = CyclicIds.next 4294967295 g.toNat := by
  have bound := g.toNat_lt
  unfold nextGeneration CyclicIds.next
  by_cases last : g.toNat = 4294967295
  · have wraps : g = 4294967295 := UInt32.toNat_inj.mp last
    subst wraps
    decide
  · have fits : (g+1).toNat = g.toNat+1 := by
      rw [UInt32.toNat_add,UInt32.toNat_one,Nat.mod_eq_of_lt (by omega)]
    have nonzero : g+1 ≠ 0 := by
      intro zero
      rw [zero] at fits
      simp at fits
    rw [if_neg nonzero,if_pos (by omega),fits]

theorem generationValid {g : UInt32} {n : Nat} (positive : 0 < n) (count : g = nextGeneration^[n] 0) :
    CyclicIds.Valid 4294967295 g.toNat := by
  obtain ⟨k,rfl⟩ := Nat.exists_eq_succ_of_ne_zero (Nat.pos_iff_ne_zero.mp positive)
  rw [count,Function.iterate_succ_apply',nextGenerationNat]
  exact CyclicIds.nextValid (by decide) _

theorem generationAhead {g : UInt32} (valid : CyclicIds.Valid 4294967295 g.toNat) (d : Nat) :
    (nextGeneration^[d] g).toNat = CyclicIds.ahead 4294967295 g.toNat d := by
  induction d with
  | zero => exact (CyclicIds.aheadZero valid).symm
  | succ d ih =>
    have moved : CyclicIds.Valid 4294967295 (nextGeneration^[d] g).toNat := by
      rw [ih]; exact CyclicIds.aheadValid valid d
    rw [Function.iterate_succ_apply',nextGenerationNat,CyclicIds.nextAhead moved,ih,CyclicIds.aheadAdd]

theorem generationNe {n k : Nat} (positive : 0 < n) (further : n < k) (small : k < 4294967296) :
    nextGeneration^[k] 0 ≠ nextGeneration^[n] 0 := by
  intro same
  have valid := generationValid positive rfl
  have moved := generationAhead valid (k-n)
  rw [← Function.iterate_add_apply,Nat.sub_add_cancel further.le,same] at moved
  exact CyclicIds.aheadNe valid (by omega) (by omega) moved.symm

theorem modemPppGenerationUp {m : Modem} (kept : Kept m) (isUp : m.ppp.phase = .up) :
    modemPppGeneration m.ppp = nextGeneration^[rises m.log] 0 ∧ modemPppGeneration m.ppp ≠ 0 := by
  have valid := generationValid (kept.lit isUp) kept.counted
  rw [modemPppGeneration,if_pos isUp]
  refine ⟨kept.counted,fun zero => ?_⟩
  rw [zero] at valid
  exact absurd valid.1 (by decide)

structure Lifecycle : Prop where
  quiet : ∀ a o error, Shut (run a).ppp.phase →
    (run (a ++ [.observe o error])).ppp.phase = (run a).ppp.phase
  staleLoss : ∀ a error, noGotYet (run a).log = true →
    (run (a ++ [.observe .lostIp error])).ppp.phase = (run a).ppp.phase
  committed : ∀ a b, (run a).ppp.phase = .stopping → dials (run (a ++ b)).log = dials (run a).log →
    modemPppIsUp (run (a ++ b)).ppp = false
  oneEnding : ∀ a, Alternating (run a).log
  current : ∀ a, modemPppGeneration (run a).ppp ≠ 0 ↔ modemPppIsUp (run a).ppp = true
  constant : ∀ a b, modemPppIsUp (run a).ppp = true → modemPppIsUp (run (a ++ b)).ppp = true →
    rises (run (a ++ b)).log = rises (run a).log →
    modemPppGeneration (run (a ++ b)).ppp = modemPppGeneration (run a).ppp
  distinct : ∀ a b, modemPppIsUp (run a).ppp = true → modemPppIsUp (run (a ++ b)).ppp = true →
    rises (run a).log < rises (run (a ++ b)).log → rises (run (a ++ b)).log < 4294967296 →
    modemPppGeneration (run (a ++ b)).ppp ≠ modemPppGeneration (run a).ppp

theorem isUpIff (s : PppState) : modemPppIsUp s = true ↔ s.phase = .up := by simp [modemPppIsUp]

theorem observedShut {m : Modem} (shut : Shut m.ppp.phase) (o : Observation) (error : Int) :
    (observed m o error).ppp.phase = m.ppp.phase := by
  rcases shut with phase | phase <;> simp [observed,pppEventsObserve,phase]

/-- The 120 s timer of an earlier netif may deliver its loss during a new dial. -/
theorem observedStaleLoss {m : Modem} (kept : Kept m) (early : noGotYet m.log = true) (error : Int) :
    (observed m .lostIp error).ppp.phase = m.ppp.phase := by
  have none : m.ppp.hadIp = false := by
    cases had : m.ppp.hadIp with
    | false => rfl
    | true => exact absurd (kept.gotIp had) (by simp [early])
  by_cases shut : Shut m.ppp.phase
  · exact observedShut shut .lostIp error
  · have live := not_or.mp shut
    simp [observed,pppEventsObserve,live.1,live.2,none]

theorem pppLifecycle : Lifecycle where
  quiet a o error shut := by rw [runConcat]; exact observedShut shut o error
  staleLoss a error early := by rw [runConcat]; exact observedStaleLoss (keptRun a) early error
  committed a b stopping same := by
    have shut := shutRun (.inl stopping) same
    exact Bool.eq_false_iff.mpr fun isUp => notUp shut ((isUpIff _).mp isUp)
  oneEnding := alternatingRun
  current a := by
    rw [isUpIff]
    refine ⟨fun nonzero => ?_,fun isUp => (modemPppGenerationUp (keptRun a) isUp).2⟩
    by_contra low
    exact nonzero (if_neg low)
  constant a b isUp isUp' same := by
    rw [isUpIff] at isUp isUp'
    rw [(modemPppGenerationUp (keptRun _) isUp').1,same,(modemPppGenerationUp (keptRun a) isUp).1]
  distinct a b isUp isUp' further small := by
    rw [isUpIff] at isUp isUp'
    rw [(modemPppGenerationUp (keptRun _) isUp').1,(modemPppGenerationUp (keptRun a) isUp).1]
    exact generationNe ((keptRun a).lit isUp) further small

end Web3PiUps.ModemPpp
