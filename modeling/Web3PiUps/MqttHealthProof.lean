import Web3PiUps.MqttHealth

/-! What a fresh proof of health stands for: the probe behind it can be named,
with the calls that began, admitted and acknowledged it, and nothing has
disturbed it since. -/
namespace Web3PiUps.MqttHealth
open StepMachine

def Call.advancesTo : Call → Option Nat
  | .poll now | .beginProbe now _ | .admitted _ now | .ack _ now | .failed _ now => some now
  | _ => none

def Call.workerAt : Call → Option Nat
  | .workerBegin now | .workerCheckpoint now | .workerEnd now => some now
  | _ => none

def TimesOut (h : Health) (c : Call) : Prop :=
  ∃ now, c.advancesTo = some now ∧ Expired (observeTime h now)

/-- A connect, a disconnect, a change of OTA, an event loss or a probe that failed. -/
def Interrupts (h : Health) : Call → Prop
  | .connected _ | .disconnected _ | .eventLoss _ => True
  | .ota _ active => h.otaActive ≠ active
  | .failed token now => (probeFailed h token now).2 = true
  | _ => False

def Disturbs (h : Health) (c : Call) : Prop := Interrupts h c ∨ TimesOut h c

section Moves
variable {h : Health} {now : Nat}

theorem advanceCases (h : Health) (now : Nat) :
    (Expired (observeTime h now) ∧ ∃ reason,
      advance h now = failWindow (observeTime h now) (observeTime h now).nowMs reason) ∨
    (¬Expired (observeTime h now) ∧ advance h now = observeTime h now) := by
  by_cases late : Expired (observeTime h now)
  · exact .inl ⟨late,_,if_pos late⟩
  · exact .inr ⟨late,if_neg late⟩

@[simp] theorem failWindowPending (h : Health) (now : Nat) (r : Failure) :
    (failWindow h now r).probePending = false := rfl
@[simp] theorem failWindowAdmitted (h : Health) (now : Nat) (r : Failure) :
    (failWindow h now r).probeAdmitted = false := rfl
@[simp] theorem failWindowProof (h : Health) (now : Nat) (r : Failure) :
    (failWindow h now r).proofValid = false := rfl

theorem matchesToken {token : Token} (m : Matches h token) : token = h.pendingToken := by
  obtain ⟨-,-,-,generation,sequence⟩ := m
  cases token
  cases same : h.pendingToken
  simp_all

end Moves

/-- The connection, the schedule and the generation are as before; the clock may be later. -/
structure Still (h h' : Health) : Prop where
  connected : h'.connected = h.connected
  ota : h'.otaActive = h.otaActive
  generation : h'.generation = h.generation
  due : h'.nextProbeDueMs = h.nextProbeDueMs
  deadline : h'.probeDeadlineMs = h.probeDeadlineMs
  clock : h.nowMs ≤ h'.nowMs

/-- What a pending probe needs of one call: it was begun there, or it was pending
before and the call left it alone. -/
inductive PendingAfter (h : Health) (c : Call) (h' : Health) (r : Reply) : Prop where
  | begun {now : Nat} (call : c = .beginProbe now true) (reply : r = .token (some h'.pendingToken))
      (young : h'.probeAdmitted = false) (inTime : h'.nowMs < h'.probeDeadlineMs)
      (live : h'.connected = true ∧ h'.otaActive = false ∧ h'.nextProbeDueMs ≤ h'.nowMs)
      (own : h'.pendingToken.generation = h'.generation)
  | kept (before : h.probePending = true) (token : h'.pendingToken = h.pendingToken)
      (quiet : ¬Disturbs h c) (still : Still h h')
      (admission : h'.probeAdmitted = true → h.probeAdmitted = true ∨
        ∃ now, c = .admitted h.pendingToken now ∧ r = .answer true ∧ h'.nowMs < h.probeDeadlineMs)

theorem advanceStill {h : Health} {now : Nat}
    (alive : (advance h now).probePending = true ∨ (advance h now).proofValid = true) :
    ¬Expired (observeTime h now) ∧ advance h now = observeTime h now := by
  rcases advanceCases h now with ⟨-,reason,same⟩ | quiet
  · rw [same] at alive
    simp at alive
  · exact quiet

theorem quietAdvance {h : Health} {c : Call} {now : Nat} (advances : c.advancesTo = some now)
    (calm : ¬Interrupts h c) (early : ¬Expired (observeTime h now)) : ¬Disturbs h c := by
  rintro (stop | ⟨late,same,expired⟩)
  · exact calm stop
  · rw [advances] at same
    cases Option.some.inj same
    exact early expired

theorem quietOther {h : Health} {c : Call} (still : c.advancesTo = none) (calm : ¬Interrupts h c) :
    ¬Disturbs h c := by
  rintro (stop | ⟨late,same,-⟩)
  · exact calm stop
  · rw [still] at same
    exact nomatch same

theorem stillObserved (h : Health) (now : Nat) : Still h (observeTime h now) :=
  ⟨rfl,rfl,rfl,rfl,rfl,Nat.le_max_left _ _⟩

theorem workerStep (h : Health) {c : Call} {now : Nat} (worker : c.workerAt = some now) :
    ∃ busy stamp, (step h c).1 = { observeTime h now with workerBusy := busy, workerCheckpointMs := stamp } := by
  cases c with
  | workerBegin t =>
    cases Option.some.inj worker
    simp only [step,workerBegin]
    split
    · exact ⟨true,_,rfl⟩
    · exact ⟨_,_,rfl⟩
  | workerCheckpoint t =>
    cases Option.some.inj worker
    simp only [step,workerCheckpoint]
    split
    · exact ⟨_,_,rfl⟩
    · exact ⟨_,_,rfl⟩
  | workerEnd t =>
    cases Option.some.inj worker
    exact ⟨false,_,rfl⟩
  | _ => exact nomatch worker

theorem workerQuiet {h : Health} {c : Call} {now : Nat} (worker : c.workerAt = some now) :
    ¬Disturbs h c := by
  cases c
  case workerBegin => exact quietOther rfl id
  case workerCheckpoint => exact quietOther rfl id
  case workerEnd => exact quietOther rfl id
  all_goals exact nomatch worker

theorem pendingWorker {h : Health} {c : Call} {now : Nat} (worker : c.workerAt = some now)
    (pending : (step h c).1.probePending = true) : PendingAfter h c (step h c).1 (step h c).2 := by
  obtain ⟨busy,stamp,moved⟩ := workerStep h worker
  rw [moved] at pending ⊢
  exact .kept pending rfl (workerQuiet worker) ⟨rfl,rfl,rfl,rfl,rfl,Nat.le_max_left _ _⟩ .inl

theorem pendingAfter {h : Health} {c : Call} (pending : (step h c).1.probePending = true) :
    PendingAfter h c (step h c).1 (step h c).2 := by
  cases c with
  | connected now => simp [step,onConnected,schedule,clearPending] at pending
  | disconnected now => simp [step,onDisconnected,clearPending] at pending
  | eventLoss now =>
    simp only [step,onEventLoss] at pending
    split at pending <;> simp [scheduleNext,schedule,clearPending] at pending
  | poll now =>
    obtain ⟨early,same⟩ := advanceStill (.inl pending)
    have kept : (step h (.poll now)).1 = observeTime h now := same
    rw [kept] at pending ⊢
    exact .kept pending rfl (quietAdvance rfl id early) (stillObserved h now) .inl
  | beginProbe now given =>
    by_cases may : MayBegin (advance h now) given
    · have moved : beginProbe h now given = _ := if_pos may
      obtain ⟨rfl,connected,ota,-,due,inTime,-⟩ := may
      simp only [step,moved]
      exact .begun rfl rfl rfl inTime ⟨connected,ota,due⟩ rfl
    · have moved : beginProbe h now given = _ := if_neg may
      simp only [step,moved] at pending ⊢
      obtain ⟨early,same⟩ := advanceStill (.inl pending)
      rw [same] at pending ⊢
      exact .kept pending rfl (quietAdvance rfl id early) (stillObserved h now) .inl
  | admitted token now =>
    by_cases fits : Matches (advance h now) token ∧ (advance h now).probeAdmitted = false
    · have moved : probeAdmitted h token now = _ := if_pos fits
      have own := matchesToken fits.1
      simp only [step,moved] at pending ⊢
      obtain ⟨early,same⟩ := advanceStill (.inl pending)
      have ready := fits.1
      rw [same] at pending own ready ⊢
      have inTime : (observeTime h now).nowMs < h.probeDeadlineMs := by
        by_contra late
        exact early ⟨ready.1,ready.2.1,Nat.le_of_not_lt late⟩
      exact .kept pending rfl (quietAdvance rfl id early) ⟨rfl,rfl,rfl,rfl,rfl,Nat.le_max_left _ _⟩
        fun _ => .inr ⟨now,by rw [own]; rfl,rfl,inTime⟩
    · have moved : probeAdmitted h token now = _ := if_neg fits
      simp only [step,moved] at pending ⊢
      obtain ⟨early,same⟩ := advanceStill (.inl pending)
      rw [same] at pending ⊢
      exact .kept pending rfl (quietAdvance rfl id early) (stillObserved h now) .inl
  | ack token now =>
    by_cases fits : Matches (advance h now) token ∧ (advance h now).probeAdmitted = true
    · have moved : probeAck h token now = _ := if_pos fits
      simp [step,moved,scheduleNext,schedule,clearPending] at pending
    · have moved : probeAck h token now = _ := if_neg fits
      simp only [step,moved] at pending ⊢
      obtain ⟨early,same⟩ := advanceStill (.inl pending)
      rw [same] at pending ⊢
      exact .kept pending rfl (quietAdvance rfl id early) (stillObserved h now) .inl
  | failed token now =>
    by_cases fits : Matches (advance h now) token
    · have moved : probeFailed h token now = _ := if_pos fits
      simp [step,moved] at pending
    · have moved : probeFailed h token now = _ := if_neg fits
      have calm : ¬Interrupts h (.failed token now) := by simp [Interrupts,moved]
      simp only [step,moved] at pending ⊢
      obtain ⟨early,same⟩ := advanceStill (.inl pending)
      rw [same] at pending ⊢
      exact .kept pending rfl (quietAdvance rfl calm early) (stillObserved h now) .inl
  | ota now active =>
    by_cases same : (observeTime h now).otaActive = active
    · have kept : setOtaActive h now active = observeTime h now := if_pos same
      simp only [step,kept] at pending ⊢
      exact .kept pending rfl (quietOther rfl fun change => change same) (stillObserved h now) .inl
    · have moved : setOtaActive h now active = _ := if_neg same
      simp only [step,moved] at pending
      split at pending <;> simp [schedule,clearPending] at pending
  | workerBegin now => exact pendingWorker rfl pending
  | workerCheckpoint now => exact pendingWorker rfl pending
  | workerEnd now => exact pendingWorker rfl pending

/-- What a valid proof needs of one call: the probe in flight was acknowledged
there, or the proof was valid before and the call left it alone. -/
inductive ProofAfter (h : Health) (c : Call) (h' : Health) (r : Reply) : Prop where
  | acked {now : Nat} (call : c = .ack h.pendingToken now) (reply : r = .answer true)
      (pending : h.probePending = true) (admitted : h.probeAdmitted = true)
      (live : h.connected = true ∧ h.otaActive = false) (quiet : ¬Disturbs h c)
      (inTime : h'.nowMs < h.probeDeadlineMs) (stamp : h'.lastAckMs = h'.nowMs)
      (connection : h'.connected = h.connected ∧ h'.otaActive = h.otaActive ∧ h'.generation = h.generation)
      (clock : h.nowMs ≤ h'.nowMs)
      (deadline : h'.probeDeadlineMs ≤
        max h'.nowMs (h.nextProbeDueMs + h.config.probeIntervalMs) + h.config.probeDeadlineMs)
  | kept (before : h.proofValid = true) (quiet : ¬Disturbs h c) (still : Still h h')
      (stamp : h'.lastAckMs = h.lastAckMs)

theorem addSaturatedLe (a b : Nat) : addSaturated a b ≤ a + b := by
  unfold addSaturated
  split <;> omega

theorem scheduleNextDeadline (h : Health) (now : Nat) :
    (scheduleNext h now).probeDeadlineMs ≤
      max now (h.nextProbeDueMs + h.config.probeIntervalMs) + h.config.probeDeadlineMs := by
  have sum := addSaturatedLe h.nextProbeDueMs h.config.probeIntervalMs
  have deadline : (scheduleNext h now).probeDeadlineMs ≤
      (scheduleNext h now).nextProbeDueMs + h.config.probeDeadlineMs := addSaturatedLe _ _
  have due : (scheduleNext h now).nextProbeDueMs ≤
      max now (h.nextProbeDueMs + h.config.probeIntervalMs) := by
    simp only [scheduleNext,schedule]
    split <;> omega
  omega

theorem proofWorker {h : Health} {c : Call} {now : Nat} (worker : c.workerAt = some now)
    (valid : (step h c).1.proofValid = true) : ProofAfter h c (step h c).1 (step h c).2 := by
  obtain ⟨busy,stamp,moved⟩ := workerStep h worker
  rw [moved] at valid ⊢
  exact .kept valid (workerQuiet worker) ⟨rfl,rfl,rfl,rfl,rfl,Nat.le_max_left _ _⟩ rfl

theorem proofAfter {h : Health} {c : Call} (valid : (step h c).1.proofValid = true) :
    ProofAfter h c (step h c).1 (step h c).2 := by
  cases c with
  | connected now => simp [step,onConnected,schedule,clearPending] at valid
  | disconnected now => simp [step,onDisconnected,clearPending] at valid
  | eventLoss now =>
    simp only [step,onEventLoss] at valid
    split at valid <;> simp [scheduleNext,schedule,clearPending] at valid
  | poll now =>
    obtain ⟨early,same⟩ := advanceStill (.inr valid)
    have kept : (step h (.poll now)).1 = observeTime h now := same
    rw [kept] at valid ⊢
    exact .kept valid (quietAdvance rfl id early) (stillObserved h now) rfl
  | beginProbe now given =>
    by_cases may : MayBegin (advance h now) given
    · have moved : beginProbe h now given = _ := if_pos may
      simp only [step,moved] at valid ⊢
      obtain ⟨early,same⟩ := advanceStill (.inr valid)
      rw [same] at valid ⊢
      exact .kept valid (quietAdvance rfl id early) ⟨rfl,rfl,rfl,rfl,rfl,Nat.le_max_left _ _⟩ rfl
    · have moved : beginProbe h now given = _ := if_neg may
      simp only [step,moved] at valid ⊢
      obtain ⟨early,same⟩ := advanceStill (.inr valid)
      rw [same] at valid ⊢
      exact .kept valid (quietAdvance rfl id early) (stillObserved h now) rfl
  | admitted token now =>
    by_cases fits : Matches (advance h now) token ∧ (advance h now).probeAdmitted = false
    · have moved : probeAdmitted h token now = _ := if_pos fits
      simp only [step,moved] at valid ⊢
      obtain ⟨early,same⟩ := advanceStill (.inr valid)
      rw [same] at valid ⊢
      exact .kept valid (quietAdvance rfl id early) ⟨rfl,rfl,rfl,rfl,rfl,Nat.le_max_left _ _⟩ rfl
    · have moved : probeAdmitted h token now = _ := if_neg fits
      simp only [step,moved] at valid ⊢
      obtain ⟨early,same⟩ := advanceStill (.inr valid)
      rw [same] at valid ⊢
      exact .kept valid (quietAdvance rfl id early) (stillObserved h now) rfl
  | ack token now =>
    by_cases fits : Matches (advance h now) token ∧ (advance h now).probeAdmitted = true
    · have moved : probeAck h token now = _ := if_pos fits
      obtain ⟨early,same⟩ := advanceStill (.inl fits.1.2.2.1)
      have own := matchesToken fits.1
      have ready := fits.1
      have admitted := fits.2
      rw [same] at own ready admitted moved
      have inTime : (observeTime h now).nowMs < h.probeDeadlineMs := by
        by_contra late
        exact early ⟨ready.1,ready.2.1,Nat.le_of_not_lt late⟩
      have call : Call.ack token now = .ack h.pendingToken now := by rw [own]; rfl
      simp only [step,moved]
      exact .acked call rfl ready.2.2.1 admitted ⟨ready.1,ready.2.1⟩ (quietAdvance rfl id early) inTime rfl
        ⟨rfl,rfl,rfl⟩ (stillObserved h now).clock (scheduleNextDeadline _ _)
    · have moved : probeAck h token now = _ := if_neg fits
      simp only [step,moved] at valid ⊢
      obtain ⟨early,same⟩ := advanceStill (.inr valid)
      rw [same] at valid ⊢
      exact .kept valid (quietAdvance rfl id early) (stillObserved h now) rfl
  | failed token now =>
    by_cases fits : Matches (advance h now) token
    · have moved : probeFailed h token now = _ := if_pos fits
      simp [step,moved] at valid
    · have moved : probeFailed h token now = _ := if_neg fits
      have calm : ¬Interrupts h (.failed token now) := by simp [Interrupts,moved]
      simp only [step,moved] at valid ⊢
      obtain ⟨early,same⟩ := advanceStill (.inr valid)
      rw [same] at valid ⊢
      exact .kept valid (quietAdvance rfl calm early) (stillObserved h now) rfl
  | ota now active =>
    by_cases same : (observeTime h now).otaActive = active
    · have kept : setOtaActive h now active = observeTime h now := if_pos same
      simp only [step,kept] at valid ⊢
      exact .kept valid (quietOther rfl fun change => change same) (stillObserved h now) rfl
    · have moved : setOtaActive h now active = _ := if_neg same
      simp only [step,moved] at valid
      split at valid <;> simp [schedule,clearPending] at valid
  | workerBegin now => exact proofWorker rfl valid
  | workerCheckpoint now => exact proofWorker rfl valid
  | workerEnd now => exact proofWorker rfl valid

/-! The run behind a valid proof. Position `b` begins the probe, `a` admits it
and `k` acknowledges it. -/

theorem configSame (h : Health) (c : Call) : (step h c).1.config = h.config := by
  have advanced (now : Nat) : (advance h now).config = h.config := by
    rcases advanceCases h now with ⟨-,reason,same⟩ | ⟨-,same⟩ <;> rw [same] <;> rfl
  cases c with
  | connected now => simp only [step,onConnected,schedule,clearPending]; split <;> rfl
  | disconnected now => rfl
  | poll now => exact advanced now
  | beginProbe now given => simp only [step,beginProbe]; split <;> exact advanced now
  | admitted token now => simp only [step,probeAdmitted]; split <;> exact advanced now
  | ack token now => simp only [step,probeAck]; split <;> exact advanced now
  | failed token now => simp only [step,probeFailed]; split <;> exact advanced now
  | eventLoss now => simp only [step,onEventLoss]; split <;> rfl
  | ota now active =>
    simp only [step,setOtaActive]
    split
    · rfl
    · split <;> rfl
  | workerBegin now => simp only [step,workerBegin]; split <;> rfl
  | workerCheckpoint now => simp only [step,workerCheckpoint]; split <;> rfl
  | workerEnd now => rfl

section Run
variable (start : Health) (calls : List Call)

abbrev at' (n : Nat) : Health := stateAt step start calls n

structure Begun (b n : Nat) (t : Token) : Prop where
  before : b < n
  call : ∃ now, calls[b]? = some (.beginProbe now true)
  reply : (outs step start calls)[b]? = some (.token (some t))
  inTime : (at' start calls (b+1)).nowMs < (at' start calls (b+1)).probeDeadlineMs
  undisturbed : ∀ j c, b < j → j < n → calls[j]? = some c → ¬Disturbs (at' start calls j) c

structure Admitted (b a n : Nat) (t : Token) : Prop where
  after : b < a
  before : a < n
  call : ∃ now, calls[a]? = some (.admitted t now)
  reply : (outs step start calls)[a]? = some (.answer true)
  inTime : (at' start calls (a+1)).nowMs < (at' start calls (b+1)).probeDeadlineMs

structure Acknowledged (b a k n : Nat) (t : Token) : Prop where
  begun : Begun start calls b n t
  admitted : Admitted start calls b a k t
  before : k < n
  call : ∃ now, calls[k]? = some (.ack t now)
  reply : (outs step start calls)[k]? = some (.answer true)
  inTime : (at' start calls (k+1)).nowMs < (at' start calls (b+1)).probeDeadlineMs

variable {start : Health} {calls : List Call}

theorem Begun.extend {b n : Nat} {t : Token} {c : Call} (begun : Begun start calls b n t)
    (here : calls[n]? = some c) (quiet : ¬Disturbs (at' start calls n) c) :
    Begun start calls b (n+1) t := by
  refine ⟨Nat.lt_succ_of_lt begun.before,begun.call,begun.reply,begun.inTime,?_⟩
  intro j d after below call
  rcases Nat.lt_succ_iff_lt_or_eq.mp below with inside | rfl
  · exact begun.undisturbed j d after inside call
  · cases Option.some.inj (here.symm.trans call)
    exact quiet

theorem Begun.extendEnd {b n : Nat} {t : Token} (begun : Begun start calls b n t)
    (past : calls[n]? = none) : Begun start calls b (n+1) t := by
  refine ⟨Nat.lt_succ_of_lt begun.before,begun.call,begun.reply,begun.inTime,?_⟩
  intro j d after below call
  rcases Nat.lt_succ_iff_lt_or_eq.mp below with inside | rfl
  · exact begun.undisturbed j d after inside call
  · exact nomatch past.symm.trans call

variable (start) in
theorem replyAt {n : Nat} {c : Call} (here : calls[n]? = some c) :
    (outs step start calls)[n]? = some (step (at' start calls n) c).2 := by
  rw [outAt,here]
  rfl

/-- A probe in flight at position `n`, with the calls it came from. -/
structure InFlight (start : Health) (calls : List Call) (n b : Nat) : Prop where
  begun : Begun start calls b n (at' start calls n).pendingToken
  admitted : (at' start calls n).probeAdmitted = true →
    ∃ a, Admitted start calls b a n (at' start calls n).pendingToken
  live : (at' start calls n).connected = true ∧ (at' start calls n).otaActive = false
  due : (at' start calls n).nextProbeDueMs ≤ (at' start calls n).nowMs
  own : (at' start calls n).pendingToken.generation = (at' start calls n).generation
  deadline : (at' start calls n).probeDeadlineMs = (at' start calls (b+1)).probeDeadlineMs

theorem inFlight (idle : start.probePending = false) (n : Nat)
    (pending : (at' start calls n).probePending = true) : ∃ b, InFlight start calls n b := by
  induction n with
  | zero => exact nomatch idle.symm.trans pending
  | succ n ih =>
    cases here : calls[n]? with
    | none =>
      have same : at' start calls (n+1) = at' start calls n := stateEnd step start here
      rw [same] at pending
      obtain ⟨b,flight⟩ := ih pending
      refine ⟨b,?_,?_,?_,?_,?_,?_⟩
      all_goals rw [same]
      · exact flight.begun.extendEnd here
      · intro admitted
        obtain ⟨a,adm⟩ := flight.admitted admitted
        exact ⟨a,adm.after,Nat.lt_succ_of_lt adm.before,adm.call,adm.reply,adm.inTime⟩
      · exact flight.live
      · exact flight.due
      · exact flight.own
      · exact flight.deadline
    | some c =>
      have next : at' start calls (n+1) = (step (at' start calls n) c).1 := stateNext step start here
      have reply := replyAt start here
      rw [next] at pending
      cases pendingAfter pending with
      | begun call answer young inTime live own =>
        subst call
        refine ⟨n,⟨Nat.lt_succ_self n,⟨_,here⟩,?_,?_,?_⟩,?_,?_,?_,?_,rfl⟩
        all_goals try rw [next]
        · exact reply.trans (congrArg some answer)
        · exact inTime
        · intro j d after below
          omega
        · intro admitted
          exact nomatch young.symm.trans admitted
        · exact ⟨live.1,live.2.1⟩
        · exact live.2.2
        · exact own
      | kept before token quiet still admission =>
        obtain ⟨b,flight⟩ := ih before
        refine ⟨b,?_,?_,?_,?_,?_,?_⟩
        · rw [next,token]
          exact flight.begun.extend here quiet
        · rw [next,token]
          intro admitted
          rcases admission admitted with earlier | ⟨now,rfl,answer,inTime⟩
          · obtain ⟨a,adm⟩ := flight.admitted earlier
            exact ⟨a,adm.after,Nat.lt_succ_of_lt adm.before,adm.call,adm.reply,adm.inTime⟩
          · refine ⟨n,flight.begun.before,Nat.lt_succ_self n,⟨now,here⟩,reply.trans (congrArg some answer),?_⟩
            rw [← flight.deadline,next]
            exact inTime
        · rw [next,still.connected,still.ota]
          exact flight.live
        · rw [next,still.due]
          exact Nat.le_trans flight.due still.clock
        · rw [next,token,still.generation]
          exact flight.own
        · rw [next,still.deadline]
          exact flight.deadline

/-- A valid proof at position `n`, with the probe behind it. -/
structure Behind (start : Health) (calls : List Call) (n b a k : Nat) (t : Token) : Prop where
  acknowledged : Acknowledged start calls b a k n t
  live : (at' start calls n).connected = true ∧ (at' start calls n).otaActive = false
  own : t.generation = (at' start calls n).generation
  stamp : (at' start calls n).lastAckMs = (at' start calls (k+1)).nowMs
  past : (at' start calls n).lastAckMs ≤ (at' start calls n).nowMs
  deadline : (at' start calls n).probeDeadlineMs ≤ (at' start calls n).lastAckMs +
    (start.config.probeIntervalMs + start.config.probeDeadlineMs)

variable (start calls) in
theorem configAt (n : Nat) : (at' start calls n).config = start.config := by
  refine keepsBetween step start calls (P := fun h => h.config = start.config) (m := 0) rfl (Nat.zero_le n) ?_
  intro k c _ _ _ same
  exact (configSame _ c).trans same

theorem behindProof (idle : start.probePending = false) (unproved : start.proofValid = false) (n : Nat)
    (valid : (at' start calls n).proofValid = true) : ∃ b a k t, Behind start calls n b a k t := by
  induction n with
  | zero => exact nomatch unproved.symm.trans valid
  | succ n ih =>
    cases here : calls[n]? with
    | none =>
      have same : at' start calls (n+1) = at' start calls n := stateEnd step start here
      rw [same] at valid
      obtain ⟨b,a,k,t,behind⟩ := ih valid
      obtain ⟨begun,admitted,before,call,reply,inTime⟩ := behind.acknowledged
      refine ⟨b,a,k,t,⟨begun.extendEnd here,admitted,Nat.lt_succ_of_lt before,call,reply,inTime⟩,?_,?_,?_,?_,?_⟩
      all_goals rw [same]
      · exact behind.live
      · exact behind.own
      · exact behind.stamp
      · exact behind.past
      · exact behind.deadline
    | some c =>
      have next : at' start calls (n+1) = (step (at' start calls n) c).1 := stateNext step start here
      have reply := replyAt start here
      rw [next] at valid
      cases proofAfter valid with
      | acked call answer pending admitted live quiet inTime stamp connection clock deadline =>
        subst call
        obtain ⟨b,flight⟩ := inFlight idle n pending
        obtain ⟨a,adm⟩ := flight.admitted admitted
        refine ⟨b,a,n,_,⟨flight.begun.extend here quiet,adm,Nat.lt_succ_self n,⟨_,here⟩,
          reply.trans (congrArg some answer),?_⟩,?_,?_,?_,?_,?_⟩
        all_goals rw [next]
        · rw [← flight.deadline]
          exact inTime
        · rw [connection.1,connection.2.1]
          exact live
        · rw [connection.2.2]
          exact flight.own
        · exact stamp
        · exact Nat.le_of_eq stamp
        · have due := flight.due
          have cfg := configAt start calls n
          rw [stamp]
          rw [cfg] at deadline
          omega
      | kept before quiet still stamp =>
        obtain ⟨b,a,k,t,behind⟩ := ih before
        obtain ⟨begun,admitted,earlier,call,ackReply,inTime⟩ := behind.acknowledged
        refine ⟨b,a,k,t,⟨begun.extend here quiet,admitted,Nat.lt_succ_of_lt earlier,call,ackReply,inTime⟩,
          ?_,?_,?_,?_,?_⟩
        · rw [next,still.connected,still.ota]
          exact behind.live
        · rw [next,still.generation]
          exact behind.own
        · rw [next,stamp]
          exact behind.stamp
        · rw [next,stamp]
          exact Nat.le_trans behind.past still.clock
        · rw [next,stamp,still.deadline]
          exact behind.deadline

theorem initFresh {now : Nat} {config : Option Config} (created : init now config = some start) :
    start = fresh (config.getD defaultConfig) now := by
  by_cases valid : ConfigValid (config.getD defaultConfig)
  · have made : init now config = _ := if_pos valid
    exact Option.some.inj (created.symm.trans made)
  · have made : init now config = _ := if_neg valid
    exact nomatch created.symm.trans made

theorem pollInTime (h : Health) (now : Nat) (valid : (advance h now).proofValid = true)
    (live : (advance h now).connected = true ∧ (advance h now).otaActive = false) :
    (advance h now).nowMs < (advance h now).probeDeadlineMs := by
  obtain ⟨early,same⟩ := advanceStill (.inr valid)
  rw [same] at live ⊢
  by_contra late
  exact early ⟨live.1,live.2,Nat.le_of_not_lt late⟩

/-- A poll that reports a fresh proof names a probe of the present connection: begun,
admitted and acknowledged with its own token before its deadline, undisturbed up to and
including the poll, and younger than one interval and one deadline. -/
theorem freshProof {created : Nat} {config : Option Config} (ready : init created config = some start)
    (n now : Nat) (s : Snapshot) (call : calls[n]? = some (.poll now))
    (reply : (outs step start calls)[n]? = some (.health s)) (fresh : s.proofFresh = true) :
    ∃ b a k t, Acknowledged start calls b a k (n+1) t ∧ t.generation = s.generation ∧
      s.lastAckMs = (at' start calls (k+1)).nowMs ∧
      s.lastAckMs ≤ (at' start calls (n+1)).nowMs ∧
      (at' start calls (n+1)).nowMs - s.lastAckMs <
        start.config.probeIntervalMs + start.config.probeDeadlineMs := by
  have polled := Option.some.inj ((replyAt start call).symm.trans reply)
  have next : at' start calls (n+1) = advance (at' start calls n) now := stateNext step start call
  cases polled
  simp only [poll,snapshot,Bool.and_eq_true,Bool.not_eq_true'] at fresh ⊢
  have idle : start.probePending = false := by rw [initFresh ready]; rfl
  have unproved : start.proofValid = false := by rw [initFresh ready]; rfl
  have valid : (at' start calls (n+1)).proofValid = true := by rw [next]; exact fresh.2
  obtain ⟨b,a,k,t,behind⟩ := behindProof idle unproved (n+1) valid
  have inTime := pollInTime _ _ fresh.2 fresh.1
  have deadline := behind.deadline
  have past := behind.past
  rw [← next] at inTime ⊢
  exact ⟨b,a,k,t,behind.acknowledged,behind.own,behind.stamp,past,by omega⟩

end Run

def provenCalls : List Call :=
  [.connected 0,.beginProbe 0 true,.admitted ⟨1,1⟩ 1,.ack ⟨1,1⟩ 2,.poll 3]

theorem freshProofAtThree : ∃ b a k t,
    Acknowledged (fresh defaultConfig 0) provenCalls b a k 5 t ∧ t.generation = 1 := by
  have created : init 0 none = some (fresh defaultConfig 0) := by decide
  have call : provenCalls[4]? = some (.poll 3) := rfl
  obtain ⟨b,a,k,t,behind,own,-⟩ := freshProof created 4 3 _ call rfl (by decide)
  exact ⟨b,a,k,t,behind,own⟩

end Web3PiUps.MqttHealth
