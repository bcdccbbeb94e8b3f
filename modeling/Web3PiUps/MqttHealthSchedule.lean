import Web3PiUps.MqttHealthProof

/-! When the next probe falls due. Every window but one that is lost to an event
loss is left behind only once it has opened; that one decides whether the
schedule stays within an interval of the clock. -/
namespace Web3PiUps.MqttHealth
open StepMachine

structure Timing where
  nowMs : Nat
  due : Nat
  deadline : Nat
  saturated : Bool

def Health.timing (h : Health) : Timing := ⟨h.nowMs,h.nextProbeDueMs,h.probeDeadlineMs,h.saturated⟩

def Live (h : Health) : Prop := h.connected = true ∧ h.otaActive = false

/-- Where the schedule of a live connection comes from after one call. -/
inductive Planned (h : Health) (c : Call) (v : Timing) : Prop where
  | kept (live : Live h) (clock : h.nowMs ≤ v.nowMs) (due : v.due = h.nextProbeDueMs)
      (deadline : v.deadline = h.probeDeadlineMs) (cap : v.saturated = h.saturated)
  | immediate (due : v.due = v.nowMs) (deadline : v.deadline = addSaturated v.due h.config.probeDeadlineMs)
      (cap : v.saturated = (h.saturated || saturates v.due h.config.probeDeadlineMs))
  | next (live : Live h) (clock : h.nowMs ≤ v.nowMs)
      (why : h.probeDeadlineMs ≤ v.nowMs ∨ h.probePending = true ∨
        ∃ now, c = .eventLoss now ∧ v.nowMs = max h.nowMs now)
      (due : v.due = max v.nowMs (addSaturated h.nextProbeDueMs h.config.probeIntervalMs))
      (deadline : v.deadline = addSaturated v.due h.config.probeDeadlineMs)
      (cap : v.saturated = (h.saturated || saturates h.nextProbeDueMs h.config.probeIntervalMs ||
        saturates v.due h.config.probeDeadlineMs))

theorem scheduleNextDue (h : Health) (now : Nat) :
    (scheduleNext h now).nextProbeDueMs =
      max now (addSaturated h.nextProbeDueMs h.config.probeIntervalMs) := by
  simp only [scheduleNext,schedule]
  split <;> omega

theorem plannedAdvance {h : Health} {c : Call} {now : Nat} (live : Live (advance h now)) :
    Planned h c (advance h now).timing := by
  rcases advanceCases h now with ⟨late,reason,same⟩ | ⟨-,same⟩
  · rw [same] at live ⊢
    exact .next live (Nat.le_max_left _ _) (.inl late.2.2) (scheduleNextDue _ _) rfl rfl
  · rw [same] at live ⊢
    exact .kept live (Nat.le_max_left _ _) rfl rfl rfl

theorem planned {h : Health} {c : Call} (live : Live (step h c).1) : Planned h c (step h c).1.timing := by
  cases c with
  | connected now =>
    simp only [step,onConnected]
    split <;> exact .immediate rfl rfl rfl
  | disconnected now => exact absurd live.1 Bool.false_ne_true
  | poll now => exact plannedAdvance live
  | beginProbe now given =>
    simp only [step,beginProbe] at live ⊢
    by_cases may : MayBegin (advance h now) given
    · rw [if_pos may] at live ⊢
      exact plannedAdvance live
    · rw [if_neg may] at live ⊢
      exact plannedAdvance live
  | admitted token now =>
    simp only [step,probeAdmitted] at live ⊢
    by_cases fits : Matches (advance h now) token ∧ (advance h now).probeAdmitted = false
    · rw [if_pos fits] at live ⊢
      exact plannedAdvance live
    · rw [if_neg fits] at live ⊢
      exact plannedAdvance live
  | ack token now =>
    by_cases fits : Matches (advance h now) token ∧ (advance h now).probeAdmitted = true
    · have moved : probeAck h token now = _ := if_pos fits
      obtain ⟨-,same⟩ := advanceStill (.inl fits.1.2.2.1)
      have ready := fits.1
      rw [same] at ready moved
      simp only [step,moved]
      exact .next ⟨ready.1,ready.2.1⟩ (Nat.le_max_left _ _) (.inr (.inl ready.2.2.1)) (scheduleNextDue _ _) rfl rfl
    · have moved : probeAck h token now = _ := if_neg fits
      simp only [step,moved] at live ⊢
      exact plannedAdvance live
  | failed token now =>
    by_cases fits : Matches (advance h now) token
    · have moved : probeFailed h token now = _ := if_pos fits
      obtain ⟨-,same⟩ := advanceStill (.inl fits.2.2.1)
      rw [same] at fits moved
      simp only [step,moved]
      exact .next ⟨fits.1,fits.2.1⟩ (Nat.le_max_left _ _) (.inr (.inl fits.2.2.1)) (scheduleNextDue _ _) rfl rfl
    · have moved : probeFailed h token now = _ := if_neg fits
      simp only [step,moved] at live ⊢
      exact plannedAdvance live
  | eventLoss now =>
    by_cases was : Live h
    · have moved : onEventLoss h now = _ := if_pos was
      simp only [step,moved]
      exact .next was (Nat.le_max_left _ _) (.inr (.inr ⟨now,rfl,rfl⟩)) (scheduleNextDue _ _) rfl rfl
    · have moved : onEventLoss h now = _ := if_neg was
      simp only [step,moved] at live
      exact absurd live was
  | ota now active =>
    by_cases same : (observeTime h now).otaActive = active
    · have moved : setOtaActive h now active = _ := if_pos same
      simp only [step,moved] at live ⊢
      exact .kept live (Nat.le_max_left _ _) rfl rfl rfl
    · by_cases resumed : h.connected = true ∧ active = false
      · have moved : setOtaActive h now active = _ := (if_neg same).trans (if_pos resumed)
        simp only [step,moved]
        exact .immediate rfl rfl rfl
      · have moved : setOtaActive h now active = _ := (if_neg same).trans (if_neg resumed)
        simp only [step,moved] at live
        exact absurd live resumed
  | workerBegin now =>
    obtain ⟨busy,stamp,moved⟩ := workerStep h (c := .workerBegin now) rfl
    rw [moved] at live ⊢
    exact .kept live (Nat.le_max_left _ _) rfl rfl rfl
  | workerCheckpoint now =>
    obtain ⟨busy,stamp,moved⟩ := workerStep h (c := .workerCheckpoint now) rfl
    rw [moved] at live ⊢
    exact .kept live (Nat.le_max_left _ _) rfl rfl rfl
  | workerEnd now =>
    obtain ⟨busy,stamp,moved⟩ := workerStep h (c := .workerEnd now) rfl
    rw [moved] at live ⊢
    exact .kept live (Nat.le_max_left _ _) rfl rfl rfl

theorem exactSum {a b : Nat} (fits : saturates a b = false) : addSaturated a b = a + b := by
  have small : ¬uint64Max - a < b := of_decide_eq_false fits
  exact if_neg small

theorem saturatedKept (h : Health) (c : Call) (before : h.saturated = true) :
    (step h c).1.saturated = true := by
  have advanced (now : Nat) : (advance h now).saturated = true := by
    rcases advanceCases h now with ⟨-,reason,same⟩ | ⟨-,same⟩
    · rw [same]
      simp [failWindow,scheduleNext,schedule,clearPending,observeTime,before]
    · rw [same]
      exact before
  cases c with
  | connected now => simp only [step,onConnected]; split <;> simp [schedule,clearPending,observeTime,before]
  | disconnected now => exact before
  | poll now => exact advanced now
  | beginProbe now given => simp only [step,beginProbe]; split <;> exact advanced now
  | admitted token now => simp only [step,probeAdmitted]; split <;> exact advanced now
  | ack token now =>
    simp only [step,probeAck]
    split
    · simp [scheduleNext,schedule,clearPending,advanced now]
    · exact advanced now
  | failed token now =>
    simp only [step,probeFailed]
    split
    · simp [failWindow,scheduleNext,schedule,clearPending,advanced now]
    · exact advanced now
  | eventLoss now =>
    simp only [step,onEventLoss]
    split
    · simp [scheduleNext,schedule,clearPending,observeTime,before]
    · exact before
  | ota now active =>
    simp only [step,setOtaActive]
    split
    · exact before
    · split
      · simp [schedule,clearPending,observeTime,before]
      · exact before
  | workerBegin now => simp only [step,workerBegin]; split <;> exact before
  | workerCheckpoint now => simp only [step,workerCheckpoint]; split <;> exact before
  | workerEnd now => exact before

/-- The next probe falls due within one interval of the clock, and its deadline
belongs to it. -/
def OnSchedule (h : Health) : Prop :=
  h.nextProbeDueMs ≤ h.nowMs + h.config.probeIntervalMs ∧
    h.probeDeadlineMs = h.nextProbeDueMs + h.config.probeDeadlineMs

/-- The call is not an event loss that a live connection reports while its next
probe lies ahead. -/
def LossInWindow (h : Health) : Call → Prop
  | .eventLoss now => Live h → h.nextProbeDueMs ≤ max h.nowMs now
  | _ => True

theorem onScheduleNext {h : Health} {c : Call} (held : Live h → OnSchedule h)
    (pendingDue : h.probePending = true → h.nextProbeDueMs ≤ h.nowMs)
    (inWindow : LossInWindow h c) (exact_ : (step h c).1.saturated = false)
    (live : Live (step h c).1) : OnSchedule (step h c).1 := by
  have cfg := configSame h c
  have plan := planned live
  generalize shape : (step h c).1.timing = v at plan
  cases shape
  unfold OnSchedule
  rw [cfg]
  cases plan with
  | kept was clock due deadline cap =>
    obtain ⟨near,own⟩ := held was
    simp only [Health.timing] at clock due deadline
    exact ⟨by omega,by rw [deadline,due]; exact own⟩
  | immediate due deadline cap =>
    simp only [Health.timing] at due deadline cap
    have fits : saturates (step h c).1.nextProbeDueMs h.config.probeDeadlineMs = false := by
      rw [exact_] at cap
      exact (Bool.or_eq_false_iff.mp cap.symm).2
    exact ⟨by omega,by rw [deadline,exactSum fits]⟩
  | next was clock why due deadline cap =>
    obtain ⟨near,own⟩ := held was
    simp only [Health.timing] at clock why due deadline cap
    rw [exact_] at cap
    obtain ⟨left,fits⟩ := Bool.or_eq_false_iff.mp cap.symm
    have sum := exactSum (Bool.or_eq_false_iff.mp left).2
    have reached : h.nextProbeDueMs ≤ (step h c).1.nowMs := by
      rcases why with late | pending | ⟨now,rfl,clockNow⟩
      · omega
      · exact Nat.le_trans (pendingDue pending) clock
      · rw [clockNow]
        exact inWindow was
    exact ⟨by omega,by rw [deadline,exactSum fits]⟩

section Run
variable {start : Health} {calls : List Call}

theorem saturatedUntil {m n : Nat} (ordered : m ≤ n) (exact_ : (at' start calls n).saturated = false) :
    (at' start calls m).saturated = false := by
  by_contra capped
  have stays := keepsBetween step start calls (P := fun h => h.saturated = true)
    (by simpa using capped) ordered (fun k c _ _ _ held => saturatedKept _ c held)
  exact nomatch exact_.symm.trans stays

theorem onScheduleRun (idle : start.probePending = false) (off : start.connected = false)
    (exact_ : ∀ n, (at' start calls n).saturated = false)
    (inWindow : ∀ n c, calls[n]? = some c → LossInWindow (at' start calls n) c) (n : Nat)
    (live : Live (at' start calls n)) : OnSchedule (at' start calls n) := by
  induction n with
  | zero => exact nomatch off.symm.trans live.1
  | succ n ih =>
    cases here : calls[n]? with
    | none =>
      have same : at' start calls (n+1) = at' start calls n := stateEnd step start here
      rw [same] at live ⊢
      exact ih live
    | some c =>
      have next : at' start calls (n+1) = (step (at' start calls n) c).1 := stateNext step start here
      rw [next] at live ⊢
      have pendingDue : (at' start calls n).probePending = true →
          (at' start calls n).nextProbeDueMs ≤ (at' start calls n).nowMs := by
        intro pending
        obtain ⟨b,flight⟩ := inFlight idle n pending
        exact flight.due
      exact onScheduleNext ih pendingDue (inWindow n c here) (next ▸ exact_ (n+1)) live

/-- What ends the watch on a link: a socket event, a change of OTA, an accepted acknowledgement. -/
def Renews (h : Health) : Call → Prop
  | .connected _ | .disconnected _ => True
  | .ota _ active => h.otaActive ≠ active
  | .ack token now => (probeAck h token now).2 = true
  | _ => False

/-- A failure stands, or the window ends by `limit`. -/
def Watched (limit : Nat) (h : Health) : Prop :=
  Live h ∧ (h.failure ≠ .none ∨ h.probeDeadlineMs ≤ limit)

theorem watchedAdvance {limit : Nat} {h : Health} (watched : Watched limit h) (now : Nat) :
    Watched limit (advance h now) := by
  by_cases late : Expired (observeTime h now)
  · have moved : advance h now = _ := if_pos late
    rw [moved]
    refine ⟨watched.1,.inl ?_⟩
    simp only [failWindow,scheduleNext,schedule,clearPending]
    split <;> simp
  · have moved : advance h now = _ := if_neg late
    rw [moved]
    exact watched

theorem watchedStep {limit : Nat} {h : Health} {c : Call} (watched : Watched limit h)
    (goesOn : ¬Renews h c) : Watched limit (step h c).1 := by
  cases c with
  | connected now => exact absurd trivial goesOn
  | disconnected now => exact absurd trivial goesOn
  | poll now => exact watchedAdvance watched now
  | beginProbe now given =>
    simp only [step,beginProbe]
    split <;> exact watchedAdvance watched now
  | admitted token now =>
    simp only [step,probeAdmitted]
    split <;> exact watchedAdvance watched now
  | ack token now =>
    by_cases fits : Matches (advance h now) token ∧ (advance h now).probeAdmitted = true
    · have moved : probeAck h token now = _ := if_pos fits
      exact absurd (by simp [Renews,moved]) goesOn
    · have moved : probeAck h token now = _ := if_neg fits
      simp only [step,moved]
      exact watchedAdvance watched now
  | failed token now =>
    by_cases fits : Matches (advance h now) token
    · have moved : probeFailed h token now = _ := if_pos fits
      simp only [step,moved]
      exact ⟨(watchedAdvance watched now).1,.inl (show Failure.probeFailed ≠ .none by decide)⟩
    · have moved : probeFailed h token now = _ := if_neg fits
      simp only [step,moved]
      exact watchedAdvance watched now
  | eventLoss now =>
    have moved : onEventLoss h now = _ := if_pos watched.1
    simp only [step,moved]
    exact ⟨watched.1,.inl (show Failure.eventLoss ≠ .none by decide)⟩
  | ota now active =>
    by_cases same : (observeTime h now).otaActive = active
    · have moved : setOtaActive h now active = _ := if_pos same
      simp only [step,moved]
      exact watched
    · exact absurd same goesOn
  | workerBegin now =>
    obtain ⟨busy,stamp,moved⟩ := workerStep h (c := .workerBegin now) rfl
    rw [moved]
    exact watched
  | workerCheckpoint now =>
    obtain ⟨busy,stamp,moved⟩ := workerStep h (c := .workerCheckpoint now) rfl
    rw [moved]
    exact watched
  | workerEnd now => exact watched

theorem watchedPoll {limit now : Nat} {h : Health} (watched : Watched limit h) (reached : limit ≤ now) :
    (poll h now).2.degraded = true := by
  have failure : (advance h now).failure ≠ .none := by
    rcases (watchedAdvance watched now).2 with failed | near
    · exact failed
    · by_cases late : Expired (observeTime h now)
      · have moved : advance h now = _ := if_pos late
        rw [moved]
        simp only [failWindow,scheduleNext,schedule,clearPending]
        split <;> simp
      · have moved : advance h now = _ := if_neg late
        rw [moved] at near
        exact absurd ⟨watched.1.1,watched.1.2,
          Nat.le_trans near (Nat.le_trans reached (Nat.le_max_right _ _))⟩ late
  exact decide_eq_true failure

variable (start calls) in
/-- A link that answers nothing from position `n` on is seen to have failed by every
poll from one interval and one deadline later. -/
def Detects (n : Nat) : Prop :=
  ∀ m now s, n ≤ m → (∀ j c, n ≤ j → j < m → calls[j]? = some c → ¬Renews (at' start calls j) c) →
    calls[m]? = some (.poll now) → (outs step start calls)[m]? = some (.health s) →
    (at' start calls n).nowMs + (start.config.probeIntervalMs + start.config.probeDeadlineMs) ≤ now →
    s.degraded = true

theorem detects {n : Nat} (live : Live (at' start calls n)) (planned : OnSchedule (at' start calls n)) :
    Detects start calls n := by
  intro m now s ordered goesOn call reply reached
  have cfg := configAt start calls n
  have watched : Watched now (at' start calls n) := by
    obtain ⟨due,deadline⟩ := planned
    rw [cfg] at due deadline
    exact ⟨live,.inr (by omega)⟩
  have still := keepsBetween step start calls watched ordered
    (fun j c low high here held => watchedStep held (goesOn j c low high here))
  cases Option.some.inj ((replyAt start call).symm.trans reply)
  exact watchedPoll still (Nat.le_refl now)

variable (start calls) in
def Supervised : Prop :=
  ∀ n, Live (at' start calls n) → OnSchedule (at' start calls n) ∧ Detects start calls n

theorem lossDue {h : Health} (live : Live h) (now : Nat) :
    (onEventLoss h now).nextProbeDueMs =
        max (max h.nowMs now) (addSaturated h.nextProbeDueMs h.config.probeIntervalMs) ∧
      (onEventLoss h now).nowMs = max h.nowMs now ∧
      ((onEventLoss h now).saturated = false →
        saturates h.nextProbeDueMs h.config.probeIntervalMs = false) := by
  have moved : onEventLoss h now = _ := if_pos live
  rw [moved]
  refine ⟨scheduleNextDue _ _,rfl,fun fits => ?_⟩
  exact (Bool.or_eq_false_iff.mp (Bool.or_eq_false_iff.mp fits).1).2

theorem exactEverywhere (exact_ : (final step start calls).saturated = false) (n : Nat) :
    (at' start calls n).saturated = false := by
  have atEnd : (at' start calls calls.length).saturated = false := by
    simpa [stateAt] using exact_
  rcases Nat.le_total n calls.length with inside | beyond
  · exact saturatedUntil inside atEnd
  · rw [at',stateBeyond step start beyond]
    exact atEnd

/-- Over a run without saturation, probing is supervised exactly when no event loss is
reported by a live connection ahead of its next probe. -/
theorem supervisedExactly {created : Nat} {config : Option Config} (ready : init created config = some start)
    (exact_ : (final step start calls).saturated = false) :
    Supervised start calls ↔ ∀ n c, calls[n]? = some c → LossInWindow (at' start calls n) c := by
  have everywhere := exactEverywhere exact_
  constructor
  · intro supervised n c here
    cases c with
    | eventLoss now =>
      intro live
      by_contra ahead
      have next : at' start calls (n+1) = onEventLoss (at' start calls n) now := stateNext step start here
      have moved : onEventLoss (at' start calls n) now = _ := if_pos live
      have liveNext : Live (at' start calls (n+1)) := by
        rw [next,moved]
        exact live
      obtain ⟨⟨near,-⟩,-⟩ := supervised (n+1) liveNext
      have fits := everywhere (n+1)
      rw [configAt start calls] at near
      rw [next] at near fits
      obtain ⟨due,clock,cap⟩ := lossDue live now
      have interval := configAt start calls n
      rw [due,clock,exactSum (cap fits),interval] at near
      omega
    | _ => trivial
  · intro inWindow n live
    have idle : start.probePending = false := by rw [initFresh ready]; rfl
    have off : start.connected = false := by rw [initFresh ready]; rfl
    have planned := onScheduleRun idle off everywhere inWindow n live
    exact ⟨planned,detects live planned⟩

end Run

/-! An acknowledged probe, then an event loss a millisecond later: the window at
120 s is given up before it has opened. -/

def lossCalls : List Call :=
  [.connected 0,.beginProbe 0 true,.admitted ⟨1,1⟩ 1,.ack ⟨1,1⟩ 2,.eventLoss 3]

theorem lossSkipsWindow : init 0 none = some (fresh defaultConfig 0) ∧
    (final step (fresh defaultConfig 0) lossCalls).saturated = false ∧
    Live (final step (fresh defaultConfig 0) lossCalls) ∧
    ¬OnSchedule (final step (fresh defaultConfig 0) lossCalls) := by
  refine ⟨by decide,by decide,⟨by decide,by decide⟩,?_⟩
  rintro ⟨near,-⟩
  exact absurd near (by decide)

theorem supervisedDefault : Supervised (fresh defaultConfig 0) (lossCalls.take 4) ↔
    ∀ n c, (lossCalls.take 4)[n]? = some c →
      LossInWindow (at' (fresh defaultConfig 0) (lossCalls.take 4) n) c :=
  supervisedExactly (show init 0 none = some (fresh defaultConfig 0) by decide) (by decide)

end Web3PiUps.MqttHealth
