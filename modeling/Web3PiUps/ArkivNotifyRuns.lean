import Mathlib.Data.Nat.Find
import Web3PiUps.ArkivNotify

/-! What becomes of a notification in an endless run with a fair scheduler. -/
namespace Web3PiUps.ArkivNotify
open FairRuns

def ofTask (t : Caller) (a : Act) : Prop := ∃ more, a = .task t more

def nextCall : Call ⊕ Bool → Option Call
  | .inl c => some c
  | .inr _ => none

theorem callStep {t s s' more c} (moved : step s (.task t more) = some s') (at_ : s.call t = some c) :
    ∃ s₁ next, CallNext t s more c s₁ next ∧ s'.holder = s₁.holder ∧ s'.call t = nextCall next := by
  cases t with
  | worker =>
    simp only [State.call] at at_
    split at at_
    · rename_i pc
      cases Option.some.inj at_
      cases workerNext moved with
      | @called _ _ s₁ next pc' call =>
        cases pc.symm.trans pc'
        exact ⟨s₁,next,call,rfl,by cases next <;> rfl⟩
      | takes pc' _ | drops pc' _ | drained pc' _ | rearmed pc' _ | rests pc' _ | delayed pc' =>
        cases pc.symm.trans pc'
    · cases at_
  | poller =>
    simp only [State.call] at at_
    split at at_
    · rename_i pc
      cases Option.some.inj at_
      cases (pollerNext moved).2 with
      | @called _ _ s₁ next pc' call =>
        cases pc.symm.trans pc'
        exact ⟨s₁,next,call,rfl,by cases next <;> rfl⟩
      | wakes pc' | rearmed pc' _ | rests pc' _ | delayed pc' => cases pc.symm.trans pc'
    · cases at_

theorem callOther {t s s' a} (moved : step s a = some s') (other : ¬ofTask t a) : s'.call t = s.call t := by
  by_cases env : ∀ t more, a ≠ .task t more
  · have e := envNext moved env
    cases t with
    | worker => rw [State.call,e.worker]; rfl
    | poller => rw [State.call,e.poller]; rfl
  · push Not at env
    obtain ⟨u,more,rfl⟩ := env
    cases u with
    | worker =>
      cases t with
      | worker => exact absurd ⟨more,rfl⟩ other
      | poller => rw [State.call,(workerFrame (workerNext moved)).2.1]; rfl
    | poller =>
      cases t with
      | worker => rw [State.call,(pollerFrame (pollerNext moved).2).2.1]; rfl
      | poller => exact absurd ⟨more,rfl⟩ other

theorem callEnabled {t s c} (at_ : s.call t = some c) (made : s.lockMade = true)
    (free : c = .locks → s.holder = none) : Enabled step (ofTask t) s := by
  have goes : (pollOnceStep t s false c).isSome = true := by
    cases c with
    | locks => simp [pollOnceStep,made,free rfl]
    | _ => rfl
  cases t with
  | worker =>
    refine ⟨.task .worker false,⟨_,rfl⟩,?_⟩
    simp only [State.call] at at_
    split at at_
    · rename_i pc
      cases Option.some.inj at_
      rw [step,wsWorkerTask,pc]
      exact Option.isSome_map.trans goes
    · cases at_
  | poller =>
    refine ⟨.task .poller false,⟨_,rfl⟩,?_⟩
    simp only [State.call] at at_
    split at at_
    · rename_i pc
      cases Option.some.inj at_
      rw [step,if_pos made,pollTask,pc]
      exact Option.isSome_map.trans goes
    · cases at_

/-! Progress of each task: every step of its own brings the start of a sweep nearer, but for the
worker's drain. -/

def Starts (t : Caller) (s s' : State) : Prop := ¬Sweeping s t ∧ Sweeping s' t

def callRank : Call → Nat
  | .asks => 3
  | .locks => 2
  | .sweeps => 8
  | .gives _ => 7

def Worker.rank : Worker → Nat
  | .receives | .delays _ => 5
  | .drains _ => 4
  | .calls _ c => callRank c
  | .checks _ _ => 6

def Poller.rank : Poller → Nat
  | .delays | .redelays _ => 5
  | .calls _ c => callRank c
  | .checks _ _ => 6

def Draining (s : State) : Prop := ∃ key, s.worker = .drains key

theorem workerRank {s s' more} (next : WorkerNext s more s') (able_ : s.worker ≠ .receives → able s = true) :
    Starts .worker s s' ∨ Draining s ∧ Draining s' ∨ s'.worker.rank < s.worker.rank := by
  cases next with
  | takes pc _ | drained pc _ | rearmed pc _ | rests pc _ | delayed pc =>
    exact .inr (.inr (by simp [pc,Worker.rank,callRank]))
  | drops pc _ => exact .inr (.inl ⟨⟨_,pc⟩,⟨_,pc⟩⟩)
  | called pc call =>
    cases call with
    | asks _ | swept | gives => exact .inr (.inr (by simp [pc,Worker.on,Worker.rank,callRank]))
    | refused shut => exact absurd (able_ (by simp [pc])) (by simp [shut])
    | locks _ _ | unlocked _ => exact .inl ⟨by simp [Sweeping,State.call,pc],rfl⟩

theorem pollerRank {s s' more} (next : PollerNext s more s') (able_ : able s = true) :
    Starts .poller s s' ∨ s'.poller.rank < s.poller.rank := by
  cases next with
  | wakes pc | rearmed pc _ | rests pc _ | delayed pc => exact .inr (by simp [pc,Poller.rank,callRank])
  | called pc call =>
    cases call with
    | asks _ | swept | gives => exact .inr (by simp [pc,Poller.on,Poller.rank,callRank])
    | refused shut => exact absurd able_ (by simp [shut])
    | locks _ _ | unlocked _ => exact .inl ⟨by simp [Sweeping,State.call,pc],rfl⟩

/-! What the worker owes: it has a notification before it that no sweep of its own has followed. -/

def Worker.due : Worker → Bool
  | .drains _ | .delays _ | .calls _ .asks | .calls _ .locks => true
  | _ => false

def Owes (s : State) : Prop := s.workQ ≠ [] ∨ s.worker.due = true

theorem workerOwes {s s' more} (next : WorkerNext s more s') (able_ : s.worker ≠ .receives → able s = true)
    (owes : Owes s) : Starts .worker s s' ∨ Owes s' := by
  have idle : s.worker.due = false → s.workQ ≠ [] := fun rests => owes.resolve_right (by simp [rests])
  cases next with
  | takes _ _ => exact .inr (.inr rfl)
  | drops pc _ => exact .inr (.inr (by simp [pc,Worker.due]))
  | drained _ _ | rearmed _ _ | delayed _ => exact .inr (.inr rfl)
  | rests pc _ => exact .inr (.inl (idle (by simp [pc,Worker.due])))
  | called pc call =>
    cases call with
    | asks _ => exact .inr (.inr rfl)
    | refused shut => exact absurd (able_ (by simp [pc])) (by simp [shut])
    | locks _ _ | unlocked _ => exact .inl ⟨by simp [Sweeping,State.call,pc],rfl⟩
    | swept | gives => exact .inr (.inl (idle (by simp [pc,Worker.due])))

theorem workerStill {s s' a} (moved : step s a = some s') (other : ¬ofTask .worker a) :
    s'.worker = s.worker ∧ (s.workQ ≠ [] → s'.workQ ≠ []) := by
  by_cases env : ∀ t more, a ≠ .task t more
  · have e := envNext moved env
    exact ⟨e.worker,e.queue⟩
  · push Not at env
    obtain ⟨t,more,rfl⟩ := env
    cases t with
    | worker => exact absurd ⟨more,rfl⟩ other
    | poller =>
      obtain ⟨-,worker,queue⟩ := pollerFrame (pollerNext moved).2
      exact ⟨worker,by rw [queue]; exact id⟩

theorem pollerStill {s s' a} (moved : step s a = some s') (other : ¬ofTask .poller a) : s'.poller = s.poller := by
  by_cases env : ∀ t more, a ≠ .task t more
  · exact (envNext moved env).poller
  · push Not at env
    obtain ⟨t,more,rfl⟩ := env
    cases t with
    | worker => exact (workerFrame (workerNext moved)).2.1
    | poller => exact absurd ⟨more,rfl⟩ other

theorem owesStep {s s' a} (moved : step s a = some s') (able_ : s.worker ≠ .receives → able s = true)
    (owes : Owes s) : Starts .worker s s' ∨ Owes s' := by
  by_cases own : ofTask .worker a
  · obtain ⟨more,rfl⟩ := own
    exact workerOwes (workerNext moved) able_ owes
  · obtain ⟨worker,queue⟩ := workerStill moved own
    exact .inr (owes.imp queue (by rw [worker]; exact id))

/-- Once known, the device's readiness and its ICCID stay known; the lock is made at boot or never. -/
theorem stays {s s' a} (moved : step s a = some s') :
    s'.lockMade = s.lockMade ∧ s'.ready = s.ready ∧ (s.iccid = true → s'.iccid = true) := by
  by_cases env : ∀ t more, a ≠ .task t more
  · have e := envNext moved env
    exact ⟨e.lockMade,e.ready,e.iccid⟩
  · push Not at env
    obtain ⟨t,more,rfl⟩ := env
    have frame : TaskFrame s s' := by
      cases t with
      | worker => exact (workerFrame (workerNext moved)).1
      | poller => exact (pollerFrame (pollerNext moved).2).1
    exact ⟨frame.lockMade,frame.ready,by rw [frame.iccid]; exact id⟩

/-- On the way to the `k`-th sweep of the batch after its first, with nothing in between. -/
def Worker.bound (k : Nat) : Worker → Bool
  | .calls n .asks | .calls n .locks => n = k
  | .delays n => n+1 = k
  | .checks n more | .calls n (.gives more) => rearms n more && n+1 = k
  | _ => false

theorem boundNext {k s s' more} (next : WorkerNext s more s') (able_ : able s = true) (bound : s.worker.bound k = true) :
    s.worker = .calls k .locks ∧ Starts .worker s s' ∨ ¬Starts .worker s s' ∧ s'.worker.bound k = true ∧
      s'.worker.rank < s.worker.rank := by
  cases next with
  | takes pc _ | drops pc _ | drained pc _ =>
    rw [pc] at bound
    cases bound
  | rearmed pc _ =>
    rw [pc] at bound
    have last : _ + 1 = k := of_decide_eq_true (Bool.and_eq_true_iff.mp bound).2
    exact .inr ⟨by simp [Starts,Sweeping,State.call],by simpa [Worker.bound] using last,
      by simp [pc,Worker.rank]⟩
  | delayed pc =>
    rw [pc] at bound
    exact .inr ⟨by simp [Starts,Sweeping,State.call],by simpa [Worker.bound] using bound,
      by simp [pc,Worker.rank,callRank]⟩
  | rests pc again =>
    rw [pc] at bound
    simp [Worker.bound,again] at bound
  | called pc call =>
    rw [pc] at bound
    cases call with
    | asks _ =>
      exact .inr ⟨by simp [Starts,Sweeping,State.call,Worker.on],bound,by simp [pc,Worker.on,Worker.rank,callRank]⟩
    | refused shut => exact absurd able_ (by simp [shut])
    | locks _ _ | unlocked _ =>
      cases of_decide_eq_true bound
      exact .inl ⟨pc,by simp [Sweeping,State.call,pc],rfl⟩
    | swept => cases bound
    | gives =>
      exact .inr ⟨by simp [Starts,Sweeping,State.call,Worker.on],bound,by simp [pc,Worker.on,Worker.rank,callRank]⟩

/-- How many sweeps the worker has started for its batch, wherever it is. -/
def Worker.counted (n : Nat) : Worker → Prop
  | .receives => n ≤ arkivCmdMaxResweeps + 1
  | .drains _ => n = 0
  | .calls k .asks | .calls k .locks => n = k ∧ k ≤ arkivCmdMaxResweeps
  | .calls k _ | .checks k _ => n = k+1 ∧ k ≤ arkivCmdMaxResweeps
  | .delays k => n = k+1 ∧ k < arkivCmdMaxResweeps

instance (t : Caller) (s s' : State) : Decidable (Starts t s s') := inferInstanceAs (Decidable (_ ∧ _))

/-- A new batch begins when the worker takes its first key. -/
def recount (n : Nat) (s s' : State) : Nat :=
  if s.worker = .receives ∧ s'.worker ≠ .receives then 0
  else if Starts .worker s s' then n + 1
  else n

theorem countNext {n s s' more} (next : WorkerNext s more s') (able_ : s.worker ≠ .receives → able s = true)
    (counted : s.worker.counted n) : s'.worker.counted (recount n s s') := by
  cases next with
  | takes pc _ => simp [recount,pc,Worker.counted]
  | drops pc _ =>
    rw [pc] at counted
    simpa [recount,pc,Worker.counted,Starts,Sweeping,State.call] using counted
  | drained pc _ =>
    rw [pc] at counted
    simpa [recount,pc,Worker.counted,Starts,Sweeping,State.call] using counted
  | rearmed pc again =>
    rw [pc] at counted
    have low : _ < arkivCmdMaxResweeps := of_decide_eq_true (Bool.and_eq_true_iff.mp again).2
    simpa [recount,pc,Worker.counted,Starts,Sweeping,State.call,low] using counted.1
  | rests pc _ =>
    rw [pc] at counted
    simp only [Worker.counted] at counted
    simp [recount,pc,Worker.counted,Starts,Sweeping,State.call]
    omega
  | delayed pc =>
    rw [pc] at counted
    simpa [recount,pc,Worker.counted,Starts,Sweeping,State.call,Nat.succ_le_iff] using counted
  | called pc call =>
    rw [pc] at counted
    cases call with
    | asks _ => simpa [recount,pc,Worker.on,Worker.counted,Starts,Sweeping,State.call] using counted
    | refused shut => exact absurd (able_ (by simp [pc])) (by simp [shut])
    | locks _ _ | unlocked _ =>
      simpa [recount,pc,Worker.on,Worker.counted,Starts,Sweeping,State.call] using counted
    | swept | gives => simpa [recount,pc,Worker.on,Worker.counted,Starts,Sweeping,State.call] using counted

structure Boot (s : State) : Prop where
  queue : s.workQ = []
  worker : s.worker = .receives
  poller : s.poller = .delays
  holder : s.holder = none
  running : s.running = false

theorem bootInv {s} (boot : Boot s) : Inv s := by
  refine ⟨fun _ t => ?_,fun _ => boot.poller,?_,?_⟩
  · rw [boot.holder]
    cases t with
    | worker => simp [Inside,State.call,boot.worker]
    | poller => simp [Inside,State.call,boot.poller]
  · rw [boot.running]
    exact Bool.noConfusion
  · rw [boot.queue,boot.worker]
    exact fun busy => absurd rfl (busy.resolve_left (fun queue => queue rfl))

section Runs
variable (r : Run step)

/-- A notification, or the catch-up after a (re)connect, that is enqueued or finds the queue full. -/
def ArrivesAt (i : Nat) : Prop := (∃ key, r.acts i = .notified key true) ∨ r.acts i = .connected true

def StartsAt (t : Caller) (i : Nat) : Prop := Starts t (r.states i) (r.states (i+1))

/-- A sweep of the worker ends here and reports commands left behind. -/
def ReportsMore (i : Nat) : Prop := Sweeping (r.states i) .worker ∧ r.acts i = .task .worker true

/-- The sweeps that the worker started for the batch it took last. -/
def batchSweeps : Nat → Nat
  | 0 => 0
  | i+1 => recount (batchSweeps i) (r.states i) (r.states (i+1))

def resweeps (i : Nat) : Nat := batchSweeps r i - 1

/-- The device stays claimed, and the sweep lock was allocated. -/
structure StaysClaimed : Prop where
  claimed : ∀ i, (r.states i).claimed = true
  allocated : (r.states 0).lockMade = true

def Scheduled : Prop := ∀ t, Fair r (ofTask t)

variable {r}
variable (boot : Boot (r.states 0))
include boot

theorem invAt (i : Nat) : Inv (r.states i) := always (bootInv boot) (fun _ _ _ => invStep) i

omit boot in
theorem madeAt (claimed : StaysClaimed r) (i : Nat) : (r.states i).lockMade = true := by
  refine always (P := fun s : State => s.lockMade = true) claimed.allocated (fun s a s' made moved => ?_) i
  rw [(stays moved).1]
  exact made

theorem ableAt (claimed : StaysClaimed r) {i : Nat} (busy : Owes (r.states i) ∨ (r.states i).worker ≠ .receives) :
    able (r.states i) = true := by
  have known := (invAt boot i).known
  have some_ : (r.states i).workQ ≠ [] ∨ (r.states i).worker ≠ .receives := by
    rcases busy with (queue | due) | busy
    · exact .inl queue
    · refine .inr fun idle => ?_
      rw [idle] at due
      exact nomatch due
    · exact .inr busy
  rw [able,(known some_).1,(known some_).2,claimed.claimed i]
  rfl

theorem owedSince {i j : Nat} (claimed : StaysClaimed r) (owes : Owes (r.states i)) (later : i ≤ j)
    (none_ : ∀ m, i ≤ m → m < j → ¬StartsAt r .worker m) : Owes (r.states j) := by
  induction j, later using Nat.le_induction with
  | base => exact owes
  | succ j later ih =>
    have before := ih (fun m low high => none_ m low (Nat.lt_succ_of_lt high))
    have able_ : (r.states j).worker ≠ .receives → able (r.states j) = true := fun busy => ableAt boot claimed (.inr busy)
    exact (owesStep (r.next j) able_ before).resolve_left (none_ j later (Nat.lt_succ_self j))

/-! The lock comes free, and the tasks that wait for it get it. -/

theorem released (claimed : StaysClaimed r) (fair : Scheduled r) (t : Caller) (i : Nat) :
    ∃ j, i ≤ j ∧ (r.states j).holder ≠ some t := by
  by_cases holds : (r.states i).holder = some t
  · have inside : ∀ k, (r.states k).holder = some t ↔ ∃ c, (r.states k).call t = some c ∧ c.inside = true := by
      intro k
      rw [← (invAt boot k).held (madeAt claimed k) t,Inside,Option.any_eq_true]
    have gone := reaches (P := fun k => (r.states k).holder = some t)
      (Q := fun k => (r.states (k+1)).holder ≠ some t)
      (fun k => ((r.states k).call t).elim 0 callRank) (fair t) (fun k held => ?_) (fun k held => ?_) holds
    · obtain ⟨j,later,free⟩ := gone
      exact ⟨j+1,by omega,free⟩
    · by_cases still : (r.states (k+1)).holder = some t
      · refine .inr ⟨still,?_⟩
        obtain ⟨c,at_,in_⟩ := (inside k).mp held
        by_cases own : ofTask t (r.acts k)
        · obtain ⟨more,act⟩ := own
          obtain ⟨s₁,next,call,-,after⟩ := callStep (act ▸ r.next k) at_
          obtain ⟨c',at',in'⟩ := (inside (k+1)).mp still
          rw [at_,after]
          cases call with
          | swept => simp [nextCall,callRank]
          | gives => cases after.symm.trans at'
          | asks _ | refused _ | locks _ _ | unlocked _ => cases in_
        · rw [callOther (r.next k) own]
          exact ⟨le_refl _,fun moved => absurd moved own⟩
      · exact .inl still
    · obtain ⟨c,at_,in_⟩ := (inside k).mp held
      refine ⟨k,le_refl k,.inr (callEnabled at_ (madeAt claimed k) ?_)⟩
      rintro rfl
      cases in_
  · exact ⟨i,le_refl i,holds⟩

def Caller.other : Caller → Caller
  | .worker => .poller
  | .poller => .worker

omit boot in
theorem holderNone {s : State} (t : Caller) (own : s.holder ≠ some t) (other : s.holder ≠ some t.other) :
    s.holder = none := by
  cases holder : s.holder with
  | none => rfl
  | some u => cases t <;> cases u <;> simp_all [Caller.other]

theorem lockOpens (claimed : StaysClaimed r) (fair : Scheduled r) {t : Caller} {i : Nat}
    (waits : (r.states i).call t = some .locks) :
    ∃ j, i ≤ j ∧ (StartsAt r t j ∨ Enabled step (ofTask t) (r.states j)) := by
  obtain ⟨j,later,free⟩ := released boot claimed fair t.other i
  have still : (∃ k, i ≤ k ∧ StartsAt r t k) ∨ (r.states j).call t = some .locks := by
    refine alwaysFrom (P := fun k => (∃ k, i ≤ k ∧ StartsAt r t k) ∨ (r.states k).call t = some .locks)
      (.inr waits) (fun k past before => ?_) later
    rcases before with started | at_
    · exact .inl started
    · by_cases own : ofTask t (r.acts k)
      · obtain ⟨more,act⟩ := own
        obtain ⟨s₁,next,call,-,after⟩ := callStep (act ▸ r.next k) at_
        have out : ¬Sweeping (r.states k) t := by simp [Sweeping,at_]
        cases call with
        | locks _ _ | unlocked _ => exact .inl ⟨k,past,out,after⟩
      · exact .inr ((callOther (r.next k) own).trans at_)
  rcases still with ⟨k,past,started⟩ | at_
  · exact ⟨k,past,.inl started⟩
  · have out : (r.states j).holder ≠ some t := by
      rw [Ne,← (invAt boot j).held (madeAt claimed j) t,Inside,at_]
      exact Bool.false_ne_true
    exact ⟨j,later,.inr (callEnabled at_ (madeAt claimed j) (fun _ => holderNone t out free))⟩

theorem workerPossible (claimed : StaysClaimed r) (fair : Scheduled r) {i : Nat}
    (queue : (r.states i).worker = .receives → (r.states i).workQ ≠ []) :
    ∃ j, i ≤ j ∧ (StartsAt r .worker j ∨ Enabled step (ofTask .worker) (r.states j)) := by
  have now : (step (r.states i) (.task .worker false)).isSome = true →
      ∃ j, i ≤ j ∧ (StartsAt r .worker j ∨ Enabled step (ofTask .worker) (r.states j)) :=
    fun goes => ⟨i,le_refl i,.inr ⟨_,⟨_,rfl⟩,goes⟩⟩
  cases pc : (r.states i).worker with
  | receives =>
    refine now ?_
    cases some_ : (r.states i).workQ with
    | nil => exact absurd some_ (queue pc)
    | cons key rest => simp [step,wsWorkerTask,pc,some_]
  | drains key =>
    refine now ?_
    cases some_ : (r.states i).workQ <;> simp [step,wsWorkerTask,pc,some_]
  | calls k c =>
    have at_ : (r.states i).call .worker = some c := by rw [State.call,pc]
    by_cases waits : c = .locks
    · exact lockOpens boot claimed fair (waits ▸ at_)
    · exact ⟨i,le_refl i,.inr (callEnabled at_ (madeAt claimed i) (fun locks => absurd locks waits))⟩
  | checks k more => exact now (by simp [step,wsWorkerTask,pc])
  | delays k => exact now (by simp [step,wsWorkerTask,pc])

theorem pollerPossible (claimed : StaysClaimed r) (fair : Scheduled r) (i : Nat) :
    ∃ j, i ≤ j ∧ (StartsAt r .poller j ∨ Enabled step (ofTask .poller) (r.states j)) := by
  have made := madeAt claimed i
  have now : (step (r.states i) (.task .poller false)).isSome = true →
      ∃ j, i ≤ j ∧ (StartsAt r .poller j ∨ Enabled step (ofTask .poller) (r.states j)) :=
    fun goes => ⟨i,le_refl i,.inr ⟨_,⟨_,rfl⟩,goes⟩⟩
  cases pc : (r.states i).poller with
  | calls k c =>
    have at_ : (r.states i).call .poller = some c := by rw [State.call,pc]
    by_cases waits : c = .locks
    · exact lockOpens boot claimed fair (waits ▸ at_)
    · exact ⟨i,le_refl i,.inr (callEnabled at_ made (fun locks => absurd locks waits))⟩
  | delays => exact now (by simp [step,pollTask,pc,made])
  | checks k more => exact now (by simp [step,pollTask,pc,made])
  | redelays k => exact now (by simp [step,pollTask,pc,made])

/-! The poll task sweeps again and again once the device is up. -/

theorem pollerSweeps (claimed : StaysClaimed r) (fair : Scheduled r) {i : Nat}
    (up : (r.states i).ready = true ∧ (r.states i).iccid = true) : ∃ j, i ≤ j ∧ StartsAt r .poller j := by
  refine reaches (P := fun k => (r.states k).ready = true ∧ (r.states k).iccid = true)
    (fun k => (r.states k).poller.rank) (fair .poller) (fun k ready => ?_)
    (fun k _ => pollerPossible boot claimed fair k) up
  obtain ⟨-,sameReady,iccid⟩ := stays (r.next k)
  have next : (r.states (k+1)).ready = true ∧ (r.states (k+1)).iccid = true :=
    ⟨sameReady.trans ready.1,iccid ready.2⟩
  by_cases own : ofTask .poller (r.acts k)
  · obtain ⟨more,act⟩ := own
    have able_ : able (r.states k) = true := by
      rw [able,ready.1,ready.2,claimed.claimed k]
      rfl
    rcases pollerRank (pollerNext (act ▸ r.next k)).2 able_ with starts | lower
    · exact .inl starts
    · exact .inr ⟨next,lower.le,fun _ => lower⟩
  · rw [pollerStill (r.next k) own]
    exact .inr ⟨next,le_refl _,fun moved => absurd moved own⟩

/-! The worker itself: a batch it has drained, or decided to sweep for again, is swept for. -/

theorem boundStays (claimed : StaysClaimed r) {k i j : Nat} (bound : (r.states i).worker.bound k = true) (later : i ≤ j)
    (none_ : ∀ m, i ≤ m → m < j → ¬StartsAt r .worker m) : (r.states j).worker.bound k = true := by
  induction j, later using Nat.le_induction with
  | base => exact bound
  | succ j later ih =>
    have before := ih (fun m low high => none_ m low (Nat.lt_succ_of_lt high))
    by_cases own : ofTask .worker (r.acts j)
    · obtain ⟨more,act⟩ := own
      have able_ := ableAt boot claimed (i := j) (.inr fun idle => by simp [idle,Worker.bound] at before)
      rcases boundNext (workerNext (act ▸ r.next j)) able_ before with ⟨-,starts⟩ | ⟨-,next,-⟩
      · exact absurd starts (none_ j later (Nat.lt_succ_self j))
      · exact next
    · rw [(workerStill (r.next j) own).1]
      exact before

omit boot in
theorem workerStarts {i : Nat} (starts : StartsAt r .worker i) : ofTask .worker (r.acts i) := by
  by_contra other
  have same := callOther (r.next i) other
  exact starts.1 (same.symm.trans starts.2)

theorem boundStarts (claimed : StaysClaimed r) (fair : Scheduled r) {k i : Nat}
    (bound : (r.states i).worker.bound k = true) :
    ∃ j, i ≤ j ∧ StartsAt r .worker j ∧ (r.states j).worker = .calls k .locks := by
  classical
  have some_ : ∃ j, i ≤ j ∧ StartsAt r .worker j := by
    refine reaches (P := fun j => (r.states j).worker.bound k = true) (fun j => (r.states j).worker.rank)
      (fair .worker) (fun j at_ => ?_) (fun j at_ => ?_) bound
    · by_cases own : ofTask .worker (r.acts j)
      · obtain ⟨more,act⟩ := own
        have able_ := ableAt boot claimed (i := j) (.inr fun idle => by simp [idle,Worker.bound] at at_)
        rcases boundNext (workerNext (act ▸ r.next j)) able_ at_ with ⟨-,starts⟩ | ⟨-,next,lower⟩
        · exact .inl starts
        · exact .inr ⟨next,lower.le,fun _ => lower⟩
      · rw [(workerStill (r.next j) own).1]
        exact .inr ⟨at_,le_refl _,fun moved => absurd moved own⟩
    · exact workerPossible boot claimed fair (fun idle => by simp [idle,Worker.bound] at at_)
  -- the first start is the one that was bound to come
  obtain ⟨later,starts⟩ := Nat.find_spec some_
  have none_ : ∀ m, i ≤ m → m < Nat.find some_ → ¬StartsAt r .worker m :=
    fun m low high starts => Nat.find_min some_ high ⟨low,starts⟩
  have at_ := boundStays boot claimed bound later none_
  obtain ⟨more,act⟩ := workerStarts starts
  have able_ := ableAt boot claimed (i := Nat.find some_) (.inr fun idle => by simp [idle,Worker.bound] at at_)
  rcases boundNext (workerNext (act ▸ r.next _)) able_ at_ with ⟨pc,-⟩ | ⟨rests,-⟩
  · exact ⟨_,later,starts,pc⟩
  · exact absurd starts rests

omit boot in
theorem drainEnds {m j : Nat} (drains : Draining (r.states m)) (later : m ≤ j) (ended : ¬Draining (r.states j)) :
    ∃ k, m ≤ k ∧ (r.states k).worker = .calls 0 .asks := by
  have either : Draining (r.states j) ∨ ∃ k, m ≤ k ∧ (r.states k).worker = .calls 0 .asks := by
    refine alwaysFrom (P := fun j => Draining (r.states j) ∨ ∃ k, m ≤ k ∧ (r.states k).worker = .calls 0 .asks)
      (.inl drains) (fun j past before => ?_) later
    rcases before with ⟨key,at_⟩ | done
    · by_cases own : ofTask .worker (r.acts j)
      · obtain ⟨more,act⟩ := own
        have next := workerNext (act ▸ r.next j)
        generalize stateNext : r.states (j+1) = s' at next
        cases next with
        | drops pc _ => exact .inl ⟨_,pc⟩
        | drained pc _ => exact .inr ⟨j+1,by omega,by rw [stateNext]⟩
        | takes pc _ | rearmed pc _ | rests pc _ | delayed pc | called pc _ => exact nomatch at_.symm.trans pc
      · exact .inl ⟨key,((workerStill (r.next j) own).1).trans at_⟩
    · exact .inr done
  exact either.resolve_left ended

theorem workerServes (claimed : StaysClaimed r) (fair : Scheduled r) {i : Nat} (owes : Owes (r.states i)) :
    (∃ j, i ≤ j ∧ StartsAt r .worker j) ∨ ∃ m, ∀ j, m ≤ j → Draining (r.states j) := by
  by_cases forever : ∃ m, ∀ j, m ≤ j → Draining (r.states j)
  · exact .inr forever
  · push Not at forever
    left
    -- a batch that is being drained is drained some day, and then swept for
    have serves : ∀ m, i ≤ m → Draining (r.states m) → ∃ j, i ≤ j ∧ StartsAt r .worker j := by
      intro m past drains
      obtain ⟨j,later,ended⟩ := forever m
      obtain ⟨k,last,pc⟩ := drainEnds drains later ended
      obtain ⟨n,after,starts,-⟩ := boundStarts boot claimed fair (k := 0) (i := k) (by rw [pc]; rfl)
      exact ⟨n,by omega,starts⟩
    by_cases now : Draining (r.states i)
    · exact serves i (le_refl i) now
    · have comes := reaches (P := fun j => Owes (r.states j) ∧ ¬Draining (r.states j))
        (Q := fun j => StartsAt r .worker j ∨ Draining (r.states (j+1)))
        (fun j => (r.states j).worker.rank) (fair .worker) (fun j at_ => ?_) (fun j at_ => ?_) ⟨owes,now⟩
      · obtain ⟨j,later,starts | drains⟩ := comes
        · exact ⟨j,later,starts⟩
        · exact serves (j+1) (by omega) drains
      · have able_ : (r.states j).worker ≠ .receives → able (r.states j) = true := fun busy => ableAt boot claimed (.inr busy)
        rcases owesStep (r.next j) able_ at_.1 with starts | owes'
        · exact .inl (.inl starts)
        · by_cases drains : Draining (r.states (j+1))
          · exact .inl (.inr drains)
          · by_cases own : ofTask .worker (r.acts j)
            · obtain ⟨more,act⟩ := own
              rcases workerRank (workerNext (act ▸ r.next j)) able_ with starts | ⟨-,drains'⟩ | lower
              · exact .inl (.inl starts)
              · exact absurd drains' drains
              · exact .inr ⟨⟨owes',drains⟩,lower.le,fun _ => lower⟩
            · rw [(workerStill (r.next j) own).1]
              exact .inr ⟨⟨owes',drains⟩,le_refl _,fun moved => absurd moved own⟩
      · have queue : (r.states j).worker = .receives → (r.states j).workQ ≠ [] := by
          intro idle
          exact at_.1.resolve_right (by simp [idle,Worker.due])
        obtain ⟨k,later,outcome⟩ := workerPossible boot claimed fair queue
        exact ⟨k,later,outcome.imp_left .inl⟩

theorem countedAt (claimed : StaysClaimed r) (i : Nat) : (r.states i).worker.counted (batchSweeps r i) := by
  induction i with
  | zero =>
    rw [boot.worker]
    exact Nat.zero_le _
  | succ i ih =>
    by_cases own : ofTask .worker (r.acts i)
    · obtain ⟨more,act⟩ := own
      exact countNext (workerNext (act ▸ r.next i)) (fun busy => ableAt boot claimed (.inr busy)) ih
    · have worker := (workerStill (r.next i) own).1
      have still : ¬Starts .worker (r.states i) (r.states (i+1)) := fun starts => own (workerStarts starts)
      have fresh : ¬((r.states i).worker = .receives ∧ (r.states (i+1)).worker ≠ .receives) := by
        rw [worker]
        exact fun both => both.2 both.1
      rw [batchSweeps,recount,if_neg fresh,if_neg still,worker]
      exact ih

/-- A sweep of the worker that reports commands left behind has a place in its batch. -/
theorem reportsAt (claimed : StaysClaimed r) {i : Nat} (reports : ReportsMore r i) :
    ∃ k, (r.states (i+1)).worker = .calls k (.gives true) ∧ batchSweeps r i = k+1 := by
  obtain ⟨sweeping,act⟩ := reports
  have counted := countedAt boot claimed i
  have next := workerNext (act ▸ r.next i)
  generalize r.states (i+1) = s' at next
  cases next with
  | @called k c s₁ next pc call =>
    simp only [Sweeping,State.call,pc,Option.some.injEq] at sweeping
    subst sweeping
    rw [pc] at counted
    cases call with
    | swept => exact ⟨k,rfl,counted.1⟩
  | takes pc _ | drops pc _ | drained pc _ | rearmed pc _ | rests pc _ | delayed pc =>
    simp [Sweeping,State.call,pc] at sweeping

theorem sweepsAgain (claimed : StaysClaimed r) (fair : Scheduled r) {i : Nat} (reports : ReportsMore r i)
    (few : resweeps r i < arkivCmdMaxResweeps) :
    ∃ j, i < j ∧ StartsAt r .worker j ∧ resweeps r (j+1) = resweeps r i + 1 := by
  obtain ⟨k,pc,made⟩ := reportsAt boot claimed reports
  rw [resweeps,made,Nat.add_sub_cancel] at few ⊢
  have bound : (r.states (i+1)).worker.bound (k+1) = true := by
    rw [pc]
    simp [Worker.bound,rearms,few]
  obtain ⟨j,later,starts,waits⟩ := boundStarts boot claimed fair bound
  have counted := countedAt boot claimed j
  rw [waits] at counted
  have here : Starts .worker (r.states j) (r.states (j+1)) := starts
  refine ⟨j,later,starts,?_⟩
  rw [resweeps,batchSweeps,recount,if_neg (by simp [waits]),if_pos here,counted.1]
  rfl

theorem resweepsBounded (claimed : StaysClaimed r) (i : Nat) : resweeps r i ≤ arkivCmdMaxResweeps := by
  have counted := countedAt boot claimed i
  have most : batchSweeps r i ≤ arkivCmdMaxResweeps + 1 := by
    generalize (r.states i).worker = w at counted
    cases w with
    | receives => exact counted
    | drains _ => exact counted.le.trans (Nat.zero_le _)
    | calls k c => cases c <;> obtain ⟨same,low⟩ := counted <;> omega
    | checks k more => obtain ⟨same,low⟩ := counted; omega
    | delays k => obtain ⟨same,low⟩ := counted; omega
  exact Nat.sub_le_of_le_add most

omit boot in
theorem arrived {i : Nat} (arrives : ArrivesAt r i) : (r.states (i+1)).workQ ≠ [] := by
  have moved := r.next i
  rcases arrives with ⟨key,act⟩ | act
  · rw [act] at moved
    exact (receivedNext moved).2.2.2 rfl
  · rw [act] at moved
    exact (receivedNext moved).2.2.2 rfl

end Runs

/-- Two sweeps never overlap. While the device stays claimed the worker owes a sweep from every
arrival to the next sweep that it starts. Under a fair scheduler a sweep starts after every arrival,
the worker's own unless new arrivals keep it draining for ever, and a report of commands left behind
is followed by another sweep of the batch until all its re-sweeps were made. -/
theorem noNotificationLost (r : Run step) (boot : Boot (r.states 0)) :
    (∀ i t u, Sweeping (r.states i) t → Sweeping (r.states i) u → t = u) ∧
    (StaysClaimed r →
      (∀ i j, ArrivesAt r i → i < j → (∀ m, i < m → m < j → ¬StartsAt r .worker m) → Owes (r.states j)) ∧
      (∀ i, resweeps r i ≤ arkivCmdMaxResweeps) ∧
      (Scheduled r →
        (∀ i, ArrivesAt r i → ∃ j t, i < j ∧ StartsAt r t j) ∧
        (∀ i, ArrivesAt r i →
          (∃ j, i < j ∧ StartsAt r .worker j) ∨ ∃ m, ∀ j, m ≤ j → Draining (r.states j)) ∧
        ∀ i, ReportsMore r i → resweeps r i < arkivCmdMaxResweeps →
          ∃ j, i < j ∧ StartsAt r .worker j ∧ resweeps r (j+1) = resweeps r i + 1)) := by
  refine ⟨fun i t u => alone (invAt boot i),fun claimed => ⟨?_,resweepsBounded boot claimed,fun fair => ⟨?_,?_,?_⟩⟩⟩
  · intro i j arrives later none_
    exact owedSince boot claimed (.inl (arrived arrives)) later none_
  · intro i arrives
    have up := (invAt boot (i+1)).known (.inl (arrived arrives))
    obtain ⟨j,later,starts⟩ := pollerSweeps boot claimed fair up
    exact ⟨j,.poller,later,starts⟩
  · intro i arrives
    exact workerServes boot claimed fair (.inl (arrived arrives))
  · intro i reports few
    exact sweepsAgain boot claimed fair reports few

/-! A run in which a notification comes, the worker serves it, the poll task sweeps, and so on. -/

def bootState : State := ⟨true,true,true,false,true,none,[],.receives,.delays⟩

def script : List Act :=
  [.heartbeat,.notified "0x01" true] ++ List.replicate 7 (.task .worker false) ++ List.replicate 6 (.task .poller false)

def scriptState (first : Bool) (p : Nat) : State :=
  (script.take p).foldl (fun s a => (step s a).getD s) { bootState with running := !first }

def scriptRun : Run step where
  states := fun i => scriptState (decide (i < 15)) (i % 15)
  acts := fun i => script.getD (i % 15) .iccidRead
  next := by
    have inside : ∀ first : Bool, ∀ p : Fin 14, step (scriptState first p) (script.getD p .iccidRead) =
        some (scriptState first (p+1)) := by decide
    have around : ∀ first : Bool, step (scriptState first 14) (script.getD 14 .iccidRead) =
        some (scriptState false 0) := by decide
    intro i
    by_cases last : i % 15 = 14
    · rw [last,show (i+1) % 15 = 0 by omega,decide_eq_false (show ¬i+1 < 15 by omega)]
      exact around _
    · rw [show (i+1) % 15 = i % 15 + 1 by omega,show decide (i+1 < 15) = decide (i < 15) from decide_eq_decide.mpr (by omega)]
      exact inside _ ⟨i % 15,by omega⟩

theorem scriptFair : Scheduled scriptRun := by
  intro t _ i
  have acts : ∀ p : Fin 15, scriptRun.acts (15*i+p) = script.getD p .iccidRead := by
    intro p
    have small : (15*i+p) % 15 = p := by omega
    exact congrArg (script.getD · .iccidRead) small
  cases t with
  | worker => exact ⟨15*i+2,by omega,false,acts 2⟩
  | poller => exact ⟨15*i+9,by omega,false,acts 9⟩

theorem scriptClaimed : StaysClaimed scriptRun := by
  have always_ : ∀ first : Bool, ∀ p : Fin 15, (scriptState first p).claimed = true := by decide
  exact ⟨fun i => always_ _ ⟨i % 15,Nat.mod_lt i (by decide)⟩,by decide⟩

theorem scriptServed : (∀ i t u, Sweeping (scriptRun.states i) t → Sweeping (scriptRun.states i) u → t = u) ∧
    ArrivesAt scriptRun 1 ∧ ∃ j t, 1 < j ∧ StartsAt scriptRun t j := by
  have arrives : ArrivesAt scriptRun 1 := .inl ⟨"0x01",rfl⟩
  obtain ⟨alone,rest⟩ := noNotificationLost scriptRun ⟨rfl,rfl,rfl,rfl,rfl⟩
  exact ⟨alone,arrives,((rest scriptClaimed).2.2 scriptFair).1 1 arrives⟩

end Web3PiUps.ArkivNotify
