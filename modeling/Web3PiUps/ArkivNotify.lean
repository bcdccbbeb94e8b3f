import Web3PiUps.Lib.FairRuns
import Mathlib.Data.Nat.Basic

/-! How command notifications wake the sweep of the chain: the websocket's events and the heartbeat
on one side, `ws_worker_task` and `poll_task` on the other, with the work queue and the sweep lock
between them. What a sweep does is left open; it ends with any report of commands left behind. -/
namespace Web3PiUps.ArkivNotify
open FairRuns

def arkivWsWorkQueueLen : Nat := 8
def arkivCmdMaxResweeps : Nat := 8

/-- The callers of `arkiv_rpc_poll_once`. -/
inductive Caller where
  | worker | poller
  deriving DecidableEq, Repr

/-- Where a call of `arkiv_rpc_poll_once` stands. -/
inductive Call where
  | asks
  | locks
  | sweeps
  | gives (more : Bool)
  deriving DecidableEq, Repr

inductive Worker where
  | receives
  | drains (key : String)
  | calls (k : Nat) (c : Call)
  | checks (k : Nat) (more : Bool)
  | delays (k : Nat)
  deriving DecidableEq, Repr

inductive Poller where
  | delays
  | calls (k : Nat) (c : Call)
  | checks (k : Nat) (more : Bool)
  | redelays (k : Nat)
  deriving DecidableEq, Repr

structure State where
  ready : Bool
  claimed : Bool
  iccid : Bool
  running : Bool
  lockMade : Bool
  holder : Option Caller
  workQ : List String
  worker : Worker
  poller : Poller
  deriving DecidableEq, Repr

def enqueueEntityKey (workQ : List String) (key : String) : List String :=
  if workQ.length < arkivWsWorkQueueLen then workQ ++ [key] else workQ

def arkivRpcPollOnce : Call := .asks

def arkivRpcFetchAndVerifyByKey (_entityKey : String) : Call := arkivRpcPollOnce

def firstCall (key : String) : Call := if key = "" then arkivRpcPollOnce else arkivRpcFetchAndVerifyByKey key

/-- The condition of both re-sweep loops. -/
def rearms (k : Nat) (more : Bool) : Bool := more && decide (k < arkivCmdMaxResweeps)

/-- The next step of a call, with what a sweep that ends here reports: the call goes on, or returns. -/
def pollOnceStep (t : Caller) (s : State) (more : Bool) : Call → Option (State × (Call ⊕ Bool))
  | .asks => some (s,if s.ready && s.claimed && s.iccid then .inl .locks else .inr false)
  | .locks =>
    if s.lockMade then
      if s.holder = none then some ({ s with holder := some t },.inl .sweeps) else none
    else some (s,.inl .sweeps)
  | .sweeps => some (s,.inl (.gives more))
  | .gives more => some ({ s with holder := if s.lockMade then none else s.holder },.inr more)

def Worker.on (k : Nat) : Call ⊕ Bool → Worker
  | .inl c => .calls k c
  | .inr more => .checks k more

def Poller.on (k : Nat) : Call ⊕ Bool → Poller
  | .inl c => .calls k c
  | .inr more => .checks k more

def wsWorkerTask (s : State) (more : Bool) : Option State :=
  match s.worker with
  | .receives =>
    match s.workQ with
    | [] => none
    | key::rest => some { s with workQ := rest, worker := .drains key }
  | .drains key =>
    match s.workQ with
    | _::rest => some { s with workQ := rest }
    | [] => some { s with worker := .calls 0 (firstCall key) }
  | .calls k c => (pollOnceStep .worker s more c).map fun (s,next) => { s with worker := .on k next }
  | .checks k more => some { s with worker := if rearms k more then .delays k else .receives }
  | .delays k => some { s with worker := .calls (k+1) arkivRpcPollOnce }

def pollTask (s : State) (more : Bool) : Option State :=
  match s.poller with
  | .delays => some { s with poller := .calls 0 arkivRpcPollOnce }
  | .calls k c => (pollOnceStep .poller s more c).map fun (s,next) => { s with poller := .on k next }
  | .checks k more => some { s with poller := if rearms k more then .redelays k else .delays }
  | .redelays k => some { s with poller := .calls (k+1) arkivRpcPollOnce }

/-- A notification's key, the catch-up after a (re)connect, both with the outcome of `strdup`; and
what else moves the state. -/
inductive Act where
  | notified (key : String) (allocated : Bool)
  | connected (allocated : Bool)
  | iccidRead
  | claimSet (claimed : Bool)
  | heartbeat
  | task (t : Caller) (more : Bool)
  deriving DecidableEq, Repr

/-- The websocket runs over PPP, which `bring_up` dials with a known ICCID only. -/
def received (s : State) (key : String) (allocated : Bool) : Option State :=
  if s.running && s.iccid then
    some (if allocated then { s with workQ := enqueueEntityKey s.workQ key } else s)
  else none

def step (s : State) : Act → Option State
  | .notified key allocated => received s key allocated
  | .connected allocated => received s "" allocated
  | .iccidRead => some { s with iccid := true }
  | .claimSet claimed => some { s with claimed := claimed }
  | .heartbeat => some (if s.ready && s.claimed then { s with running := true } else s)
  | .task .worker more => wsWorkerTask s more
  -- `arkiv_poll_start` creates no task without the lock
  | .task .poller more => if s.lockMade then pollTask s more else none

def Call.inside : Call → Bool
  | .sweeps | .gives _ => true
  | _ => false

/-- Where each task is in its call, if it is in one. -/
def State.call (s : State) : Caller → Option Call
  | .worker => match s.worker with | .calls _ c => some c | _ => none
  | .poller => match s.poller with | .calls _ c => some c | _ => none

def Sweeping (s : State) (t : Caller) : Prop := s.call t = some .sweeps
def Inside (s : State) (t : Caller) : Prop := (s.call t).any Call.inside = true

instance (s : State) (t : Caller) : Decidable (Sweeping s t) := inferInstanceAs (Decidable (_ = _))

theorem sweepingInside {s t} (h : Sweeping s t) : Inside s t := by
  rw [Inside,h]
  rfl

@[simp] theorem firstCallAsks (key : String) : firstCall key = .asks := by
  rw [firstCall]
  split <;> rfl

def able (s : State) : Bool := s.ready && s.claimed && s.iccid

inductive CallNext (t : Caller) (s : State) (more : Bool) : Call → State → Call ⊕ Bool → Prop where
  | asks (able_ : able s = true) : CallNext t s more .asks s (.inl .locks)
  | refused (shut : able s = false) : CallNext t s more .asks s (.inr false)
  | locks (made : s.lockMade = true) (free : s.holder = none) :
      CallNext t s more .locks { s with holder := some t } (.inl .sweeps)
  | unlocked (made : s.lockMade = false) : CallNext t s more .locks s (.inl .sweeps)
  | swept : CallNext t s more .sweeps s (.inl (.gives more))
  | gives {left} : CallNext t s more (.gives left)
      { s with holder := if s.lockMade then none else s.holder } (.inr left)

theorem callNext {t s more c s' next} (moved : pollOnceStep t s more c = some (s',next)) :
    CallNext t s more c s' next := by
  cases c with
  | asks =>
    obtain ⟨rfl,rfl⟩ := Prod.mk.inj (Option.some.inj moved)
    cases guards : able s with
    | true =>
      rw [able] at guards
      rw [guards]
      exact .asks guards
    | false =>
      rw [able] at guards
      rw [guards]
      exact .refused guards
  | locks =>
    simp only [pollOnceStep] at moved
    cases made : s.lockMade with
    | false =>
      simp only [made,Bool.false_eq_true,if_false,Option.some.injEq,Prod.mk.injEq] at moved
      obtain ⟨rfl,rfl⟩ := moved
      exact .unlocked made
    | true =>
      by_cases free : s.holder = none
      · simp only [made,free,if_true,Option.some.injEq,Prod.mk.injEq] at moved
        obtain ⟨rfl,rfl⟩ := moved
        have locks := @CallNext.locks t s more made free
        rwa [made] at locks
      · simp [made,free] at moved
  | sweeps =>
    obtain ⟨rfl,rfl⟩ := Prod.mk.inj (Option.some.inj moved)
    exact .swept
  | gives left =>
    obtain ⟨rfl,rfl⟩ := Prod.mk.inj (Option.some.inj moved)
    exact .gives

inductive WorkerNext (s : State) (more : Bool) : State → Prop where
  | takes {key rest} (pc : s.worker = .receives) (queue : s.workQ = key::rest) :
      WorkerNext s more { s with workQ := rest, worker := .drains key }
  | drops {key first rest} (pc : s.worker = .drains key) (queue : s.workQ = first::rest) :
      WorkerNext s more { s with workQ := rest }
  | drained {key} (pc : s.worker = .drains key) (queue : s.workQ = []) :
      WorkerNext s more { s with worker := .calls 0 .asks }
  | called {k c s' next} (pc : s.worker = .calls k c) (call : CallNext .worker s more c s' next) :
      WorkerNext s more { s' with worker := .on k next }
  | rearmed {k left} (pc : s.worker = .checks k left) (again : rearms k left = true) :
      WorkerNext s more { s with worker := .delays k }
  | rests {k left} (pc : s.worker = .checks k left) (again : rearms k left = false) :
      WorkerNext s more { s with worker := .receives }
  | delayed {k} (pc : s.worker = .delays k) : WorkerNext s more { s with worker := .calls (k+1) .asks }

theorem workerNext {s s' more} (moved : step s (.task .worker more) = some s') : WorkerNext s more s' := by
  change wsWorkerTask s more = some s' at moved
  unfold wsWorkerTask at moved
  split at moved
  · rename_i pc
    split at moved
    · exact nomatch moved
    · rename_i queue
      cases Option.some.inj moved
      exact .takes pc queue
  · rename_i pc
    split at moved
    · rename_i queue
      cases Option.some.inj moved
      exact .drops pc queue
    · rename_i queue
      rw [firstCallAsks] at moved
      cases Option.some.inj moved
      exact .drained pc queue
  · rename_i pc
    obtain ⟨⟨s₁,next⟩,call,rfl⟩ := Option.map_eq_some_iff.mp moved
    exact .called pc (callNext call)
  · rename_i pc
    split at moved
    · rename_i again
      cases Option.some.inj moved
      exact .rearmed pc again
    · rename_i again
      cases Option.some.inj moved
      exact .rests pc (Bool.eq_false_iff.mpr again)
  · rename_i pc
    cases Option.some.inj moved
    exact .delayed pc

inductive PollerNext (s : State) (more : Bool) : State → Prop where
  | wakes (pc : s.poller = .delays) : PollerNext s more { s with poller := .calls 0 .asks }
  | called {k c s' next} (pc : s.poller = .calls k c) (call : CallNext .poller s more c s' next) :
      PollerNext s more { s' with poller := .on k next }
  | rearmed {k left} (pc : s.poller = .checks k left) (again : rearms k left = true) :
      PollerNext s more { s with poller := .redelays k }
  | rests {k left} (pc : s.poller = .checks k left) (again : rearms k left = false) :
      PollerNext s more { s with poller := .delays }
  | delayed {k} (pc : s.poller = .redelays k) : PollerNext s more { s with poller := .calls (k+1) .asks }

theorem pollerNext {s s' more} (moved : step s (.task .poller more) = some s') :
    s.lockMade = true ∧ PollerNext s more s' := by
  simp only [step] at moved
  split at moved
  · rename_i made
    refine ⟨made,?_⟩
    unfold pollTask at moved
    split at moved
    · rename_i pc
      cases Option.some.inj moved
      exact .wakes pc
    · rename_i pc
      obtain ⟨⟨s₁,next⟩,call,rfl⟩ := Option.map_eq_some_iff.mp moved
      exact .called pc (callNext call)
    · rename_i pc
      split at moved
      · rename_i again
        cases Option.some.inj moved
        exact .rearmed pc again
      · rename_i again
        cases Option.some.inj moved
        exact .rests pc (Bool.eq_false_iff.mpr again)
    · rename_i pc
      cases Option.some.inj moved
      exact .delayed pc
  · exact nomatch moved

/-- What the other actions leave alone. -/
structure EnvNext (s s' : State) : Prop where
  worker : s'.worker = s.worker
  poller : s'.poller = s.poller
  holder : s'.holder = s.holder
  lockMade : s'.lockMade = s.lockMade
  ready : s'.ready = s.ready
  iccid : s.iccid = true → s'.iccid = true
  queue : s.workQ ≠ [] → s'.workQ ≠ []
  queued : s'.workQ ≠ [] → s.workQ ≠ [] ∨ s.running = true ∧ s'.iccid = true
  started : s'.running = true → s.running = true ∨ s.ready = true

theorem enqueued (workQ : List String) (key : String) : enqueueEntityKey workQ key ≠ [] := by
  unfold enqueueEntityKey
  split
  · simp
  · rename_i full
    rintro rfl
    exact full (by decide)

theorem receivedNext {s s' : State} {key allocated} (moved : received s key allocated = some s') :
    EnvNext s s' ∧ s.running = true ∧ s.iccid = true ∧ (allocated = true → s'.workQ ≠ []) := by
  unfold received at moved
  split at moved
  · rename_i up
    obtain ⟨running,iccid⟩ := Bool.and_eq_true_iff.mp up
    cases Option.some.inj moved
    cases allocated with
    | false => exact ⟨⟨rfl,rfl,rfl,rfl,rfl,id,id,.inl,.inl⟩,running,iccid,Bool.noConfusion⟩
    | true =>
      have some_ := enqueued s.workQ key
      exact ⟨⟨rfl,rfl,rfl,rfl,rfl,id,fun _ => some_,fun _ => .inr ⟨running,iccid⟩,.inl⟩,running,iccid,
        fun _ => some_⟩
  · exact nomatch moved

theorem envNext {s s' a} (moved : step s a = some s') (env : ∀ t more, a ≠ .task t more) : EnvNext s s' := by
  cases a with
  | notified key allocated => exact (receivedNext moved).1
  | connected allocated => exact (receivedNext moved).1
  | iccidRead =>
    cases Option.some.inj moved
    exact ⟨rfl,rfl,rfl,rfl,rfl,fun _ => rfl,id,.inl,.inl⟩
  | claimSet claimed =>
    cases Option.some.inj moved
    exact ⟨rfl,rfl,rfl,rfl,rfl,id,id,.inl,.inl⟩
  | heartbeat =>
    simp only [step,Option.some.injEq] at moved
    split at moved
    · rename_i up
      cases moved
      exact ⟨rfl,rfl,rfl,rfl,rfl,id,id,.inl,fun _ => .inr (Bool.and_eq_true_iff.mp up).1⟩
    · cases moved
      exact ⟨rfl,rfl,rfl,rfl,rfl,id,id,.inl,.inl⟩
  | task t more => exact absurd rfl (env t more)

theorem callFrame {t s more c s' next} (call : CallNext t s more c s' next) : s' = { s with holder := s'.holder } := by
  cases call <;> rfl

def Held (s : State) : Prop := s.lockMade = true → ∀ t, Inside s t ↔ s.holder = some t

def nextInside : Call ⊕ Bool → Bool
  | .inl c => c.inside
  | .inr _ => false

theorem heldKept {s s' : State} {t} (h : Held s) (same : s'.lockMade = s.lockMade)
    (others : ∀ u, u ≠ t → s'.call u = s.call u)
    (mine : s.lockMade = true → (Inside s t ↔ s.holder = some t) → (Inside s' t ↔ s'.holder = some t) ∧
      ∀ u, u ≠ t → (s'.holder = some u ↔ s.holder = some u)) : Held s' := by
  intro made u
  rw [same] at made
  obtain ⟨own,rest⟩ := mine made (h made t)
  by_cases own_ : u = t
  · exact own_ ▸ own
  · rw [Inside,others u own_,rest u own_]
    exact h made u

theorem workerInside (s : State) (k next) : Inside { s with worker := .on k next } .worker ↔ nextInside next = true := by
  cases next <;> rfl

theorem pollerInside (s : State) (k next) : Inside { s with poller := .on k next } .poller ↔ nextInside next = true := by
  cases next with
  | inl c => rfl
  | inr more => rfl

theorem callHolder {t s more c s' next} (call : CallNext t s more c s' next) (made : s.lockMade = true)
    (mine : c.inside = true ↔ s.holder = some t) :
    (nextInside next = true ↔ s'.holder = some t) ∧ ∀ u, u ≠ t → (s'.holder = some u ↔ s.holder = some u) := by
  cases call with
  | asks | refused => exact ⟨mine,fun _ _ => Iff.rfl⟩
  | locks _ free => simp [nextInside,Call.inside,free,eq_comm]
  | unlocked unmade => exact absurd made (by simp [unmade])
  | swept => exact ⟨mine,fun _ _ => Iff.rfl⟩
  | gives =>
    have own := mine.mp rfl
    simp [nextInside,made,own,eq_comm]

theorem idleHolder {s s' : State} {t} (before : ¬Inside s t) (after : ¬Inside s' t) (holder : s'.holder = s.holder)
    (mine : Inside s t ↔ s.holder = some t) :
    (Inside s' t ↔ s'.holder = some t) ∧ ∀ u, u ≠ t → (s'.holder = some u ↔ s.holder = some u) := by
  rw [holder]
  exact ⟨(iff_false_intro after).trans ((iff_false_intro before).symm.trans mine),fun _ _ => Iff.rfl⟩

theorem notPoller {u} (other : u ≠ Caller.worker) : u = .poller := by
  cases u with
  | worker => exact absurd rfl other
  | poller => rfl

theorem notWorker {u} (other : u ≠ Caller.poller) : u = .worker := by
  cases u with
  | worker => rfl
  | poller => exact absurd rfl other

theorem workerHeld {s s' more} (h : Held s) (next : WorkerNext s more s') : Held s' := by
  have away : ∀ {pc}, s.worker = pc → (∀ k c, pc ≠ .calls k c) → ¬Inside s .worker := by
    intro pc at_ out
    rw [Inside,State.call,at_]
    cases pc with
    | calls k c => exact absurd rfl (out k c)
    | _ => exact Bool.false_ne_true
  cases next with
  | takes pc _ | drained pc _ | rearmed pc _ | rests pc _ | delayed pc =>
    refine heldKept (t := .worker) h rfl (fun u other => by rw [notPoller other]; rfl) (fun _ => ?_)
    exact idleHolder (away pc (fun _ _ => Worker.noConfusion)) Bool.false_ne_true rfl
  | drops _ _ => exact h
  | @called k c s' next pc call =>
    have frame := callFrame call
    refine heldKept (t := .worker) h (by rw [frame]) (fun u other => ?_) (fun made mine => ?_)
    · rw [notPoller other,frame]
      rfl
    · rw [workerInside]
      have own : c.inside = true ↔ s.holder = some .worker := by
        rw [← mine,Inside,State.call,pc]
        rfl
      have both := callHolder call made own
      exact both

theorem pollerHeld {s s' more} (h : Held s) (next : PollerNext s more s') : Held s' := by
  have away : ∀ {pc}, s.poller = pc → (∀ k c, pc ≠ .calls k c) → ¬Inside s .poller := by
    intro pc at_ out
    rw [Inside,State.call,at_]
    cases pc with
    | calls k c => exact absurd rfl (out k c)
    | _ => exact Bool.false_ne_true
  cases next with
  | wakes pc | rearmed pc _ | rests pc _ | delayed pc =>
    refine heldKept (t := .poller) h rfl (fun u other => by rw [notWorker other]; rfl) (fun _ => ?_)
    exact idleHolder (away pc (fun _ _ => Poller.noConfusion)) Bool.false_ne_true rfl
  | @called k c s' next pc call =>
    have frame := callFrame call
    refine heldKept (t := .poller) h (by rw [frame]) (fun u other => ?_) (fun made mine => ?_)
    · rw [notWorker other,frame]
      rfl
    · rw [pollerInside]
      have own : c.inside = true ↔ s.holder = some .poller := by
        rw [← mine,Inside,State.call,pc]
        rfl
      have both := callHolder call made own
      exact both

structure Inv (s : State) : Prop where
  held : Held s
  alone : s.lockMade = false → s.poller = .delays
  started : s.running = true → s.ready = true
  known : s.workQ ≠ [] ∨ s.worker ≠ .receives → s.ready = true ∧ s.iccid = true

/-- What no step of a task changes. -/
structure TaskFrame (s s' : State) : Prop where
  lockMade : s'.lockMade = s.lockMade
  ready : s'.ready = s.ready
  claimed : s'.claimed = s.claimed
  iccid : s'.iccid = s.iccid
  running : s'.running = s.running

theorem workerFrame {s s' more} (next : WorkerNext s more s') :
    TaskFrame s s' ∧ s'.poller = s.poller ∧ (s'.workQ ≠ [] → s.workQ ≠ []) ∧
      (s'.worker ≠ .receives → s.workQ ≠ [] ∨ s.worker ≠ .receives) := by
  cases next with
  | takes _ queue => exact ⟨⟨rfl,rfl,rfl,rfl,rfl⟩,rfl,fun _ => by simp [queue],fun _ => .inl (by simp [queue])⟩
  | drops pc queue => exact ⟨⟨rfl,rfl,rfl,rfl,rfl⟩,rfl,fun _ => by simp [queue],fun _ => .inr (by simp [pc])⟩
  | drained pc | rearmed pc _ | rests pc _ | delayed pc =>
    exact ⟨⟨rfl,rfl,rfl,rfl,rfl⟩,rfl,id,fun _ => .inr (by simp [pc])⟩
  | @called k c s' next pc call =>
    rw [callFrame call]
    exact ⟨⟨rfl,rfl,rfl,rfl,rfl⟩,rfl,id,fun _ => .inr (by simp [pc])⟩

theorem pollerFrame {s s' more} (next : PollerNext s more s') :
    TaskFrame s s' ∧ s'.worker = s.worker ∧ s'.workQ = s.workQ := by
  cases next with
  | wakes _ | rearmed _ _ | rests _ _ | delayed _ => exact ⟨⟨rfl,rfl,rfl,rfl,rfl⟩,rfl,rfl⟩
  | @called k c s' next pc call =>
    rw [callFrame call]
    exact ⟨⟨rfl,rfl,rfl,rfl,rfl⟩,rfl,rfl⟩

theorem invStep {s s' a} (h : Inv s) (moved : step s a = some s') : Inv s' := by
  by_cases env : ∀ t more, a ≠ .task t more
  · have e := envNext moved env
    refine ⟨?_,?_,?_,?_⟩
    · refine heldKept (t := .worker) h.held e.lockMade (fun u other => ?_) (fun _ mine => ?_)
      · rw [notPoller other,State.call,e.poller]
        rfl
      · rw [Inside,State.call,e.worker,e.holder]
        exact ⟨mine,fun _ _ => Iff.rfl⟩
    · rw [e.lockMade,e.poller]
      exact h.alone
    · rw [e.ready]
      exact fun up => (e.started up).elim h.started id
    · rw [e.ready,e.worker]
      intro some_
      have known : s.workQ ≠ [] ∨ s.worker ≠ .receives → s.ready = true ∧ s'.iccid = true :=
        fun some_ => (h.known some_).imp_right e.iccid
      rcases some_ with queue | busy
      · rcases e.queued queue with queue | ⟨running,iccid⟩
        · exact known (.inl queue)
        · exact ⟨h.started running,iccid⟩
      · exact known (.inr busy)
  · push Not at env
    obtain ⟨t,more,rfl⟩ := env
    cases t with
    | worker =>
      have next := workerNext moved
      obtain ⟨frame,poller,queue,busy⟩ := workerFrame next
      refine ⟨workerHeld h.held next,?_,?_,?_⟩
      · rw [frame.lockMade,poller]
        exact h.alone
      · rw [frame.running,frame.ready]
        exact h.started
      · rw [frame.ready,frame.iccid]
        exact fun some_ => h.known (some_.elim (fun q => .inl (queue q)) busy)
    | poller =>
      obtain ⟨made,next⟩ := pollerNext moved
      obtain ⟨frame,worker,queue⟩ := pollerFrame next
      refine ⟨pollerHeld h.held next,?_,?_,?_⟩
      · rw [frame.lockMade,made]
        exact Bool.noConfusion
      · rw [frame.running,frame.ready]
        exact h.started
      · rw [frame.ready,frame.iccid,worker,queue]
        exact h.known

theorem alone {s t u} (h : Inv s) (one : Sweeping s t) (two : Sweeping s u) : t = u := by
  cases made : s.lockMade with
  | true =>
    have first := (h.held made t).mp (sweepingInside one)
    have second := (h.held made u).mp (sweepingInside two)
    exact Option.some.inj (first.symm.trans second)
  | false =>
    have idle : ¬Sweeping s .poller := by
      rw [Sweeping,State.call,h.alone made]
      exact nofun
    cases t with
    | worker =>
      cases u with
      | worker => rfl
      | poller => exact absurd two idle
    | poller => exact absurd one idle

end Web3PiUps.ArkivNotify
