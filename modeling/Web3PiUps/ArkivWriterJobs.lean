import Mathlib.Data.List.Basic
import Mathlib.Data.List.Count
import Web3PiUps.Lib.StepMachine

/-! The worker of `arkiv_writer.cpp` and the chain it writes to. One operation is
one step of `writer_task` up to its next RPC, or a move of the world: time, a new
job, a send request that reaches the node late, a transaction of another sender.
The node takes a transaction when its account nonce is unused; a nonce or tx-known
reply that arrives is true, a reply to a send is any reply. -/
namespace Web3PiUps.ArkivWriterJobs
open StepMachine

abbrev arkivWriterQueueLen : Nat := 16
abbrev arkivWriterRetries : Nat := 3
abbrev arkivWriterJobMaxAgeS : Nat := 240
abbrev gasPriceFloorWei : Nat := 1000
def backoffS : List Nat := [5,15]

variable {Entity Hash : Type}

/-- `id` numbers the jobs in the order they were queued; the program has no such field. -/
structure WriteJob (Entity : Type) where
  id : Nat
  entity : Entity
  createdUs : Nat
  attempts : Nat
  deriving DecidableEq, Repr

/-- `job` is the job that caused the transaction, and no part of its bytes. -/
structure Tx (Entity : Type) where
  nonce : Nat
  gasPrice : Nat
  entity : Entity
  job : Option Nat
  deriving DecidableEq, Repr

structure Env (Entity Hash : Type) where
  txHash : (nonce gasPrice : Nat) → Entity → Hash

def Env.hash (env : Env Entity Hash) (tx : Tx Entity) : Hash := env.txHash tx.nonce tx.gasPrice tx.entity

inductive Pc (Entity : Type) where
  | gate
  | probe
  | lock
  | nonce
  | price (nonce : Nat)
  | post (tx : Tx Entity)
  | reply
  | backoff (untilUs : Nat)
  deriving DecidableEq, Repr

/-- `maybeSent` with the hash it is about. -/
structure Work (Entity Hash : Type) where
  job : WriteJob Entity
  maybeSent : Option Hash
  pc : Pc Entity
  deriving DecidableEq, Repr

/-- `sent` are the send requests that left the device, `attempted` the attempts with their age. -/
structure World (Entity Hash : Type) where
  nowUs : Nat
  queue : List (WriteJob Entity)
  queued : Nat
  work : Option (Work Entity Hash)
  attempted : List (Nat × Nat)
  sent : List (Tx Entity)
  accepted : List (Tx Entity)
  deriving DecidableEq, Repr

def start : World Entity Hash := ⟨0,[],0,none,[],[],[]⟩

def txCount (w : World Entity Hash) : Nat := w.accepted.length

def txKnown [DecidableEq Hash] (env : Env Entity Hash) (w : World Entity Hash) (h : Hash) : Bool :=
  w.accepted.any (fun tx => env.hash tx = h)

def take (w : World Entity Hash) (tx : Tx Entity) : World Entity Hash :=
  if w.accepted.any (fun a => a.nonce = tx.nonce) then w else { w with accepted := w.accepted ++ [tx] }

inductive EspErr where | ok | fail | invalidResponse deriving DecidableEq, Repr

/-- A lost or unusable HTTP reply, a hash, an error object, or neither. -/
inductive SendReply where
  | lost
  | result
  | error (code : Int)
  | garbled
  deriving DecidableEq, Repr

def arkivEthSendRawTx : SendReply → EspErr
  | .lost => .fail
  | .result => .ok
  | .error code => if code = -32603 ∨ code = -32005 then .fail else .invalidResponse
  | .garbled => .fail

def goto (w : World Entity Hash) (k : Work Entity Hash) (pc : Pc Entity) : World Entity Hash :=
  { w with work := some { k with pc } }

def attemptFailed (w : World Entity Hash) (k : Work Entity Hash) (maybeSent : Option Hash) : World Entity Hash :=
  let attempts := k.job.attempts+1
  if attempts ≥ arkivWriterRetries then { w with work := none } else
  let bi := if attempts-1 < backoffS.length then attempts-1 else backoffS.length-1
  { w with work := some ⟨{ k.job with attempts },maybeSent,.backoff (w.nowUs+backoffS.getD bi 0*1000000)⟩ }

/-- Each step of the worker carries what it meets: whether a reply arrives in time, the
gas price told, whether the signing succeeds, whether the request leaves the device. -/
inductive Op (Entity : Type) where
  | elapse (us : Nat)
  | enqueue (entity : Entity)
  | other (gasPrice : Nat) (entity : Entity)
  | arrive (i : Nat) (wanted : Bool)
  | dequeue (ready : Bool)
  | gate
  | probe (answered : Bool)
  | lock (taken : Bool)
  | nonce (answered : Bool)
  | price (gasPrice : Option Nat) (signs : Bool)
  | post (leaves : Bool)
  | reply (reply : SendReply)
  | wake

def worker [DecidableEq Hash] (env : Env Entity Hash) (w : World Entity Hash) (k : Work Entity Hash)
    (op : Op Entity) : World Entity Hash :=
  match op, k.pc with
  | .gate, .gate =>
    let ageUs := w.nowUs-k.job.createdUs
    if ageUs/1000000 ≥ arkivWriterJobMaxAgeS then { w with work := none } else
    let w := { w with attempted := w.attempted ++ [(k.job.id,ageUs)] }
    goto w k (if k.maybeSent.isSome then .probe else .lock)
  | .probe answered, .probe =>
    match k.maybeSent with
    | none => w
    | some h =>
      if ¬ answered then attemptFailed w k (some h) else
      if txKnown env w h then { w with work := none } else goto w { k with maybeSent := none } .lock
  | .lock taken, .lock => if taken then goto w k .nonce else attemptFailed w k none
  | .nonce answered, .nonce => if answered then goto w k (.price (txCount w)) else attemptFailed w k none
  | .price gasPrice signs, .price nonce =>
    match gasPrice with
    | none => attemptFailed w k none
    | some price =>
      if ¬ signs then attemptFailed w k none else
      let tx := ⟨nonce,if price < gasPriceFloorWei then gasPriceFloorWei else price,k.job.entity,some k.job.id⟩
      goto w { k with maybeSent := some (env.hash tx) } (.post tx)
  | .post leaves, .post tx =>
    let w := if leaves then { w with sent := w.sent ++ [tx] } else w
    goto w k .reply
  | .reply reply, .reply =>
    match arkivEthSendRawTx reply with
    | .ok | .invalidResponse => { w with work := none }
    | .fail => attemptFailed w k k.maybeSent
  | .wake, .backoff untilUs => if w.nowUs ≥ untilUs then goto w k .gate else w
  | _, _ => w

def step [DecidableEq Hash] (env : Env Entity Hash) (w : World Entity Hash) (op : Op Entity) : World Entity Hash :=
  match op with
  | .elapse us => { w with nowUs := w.nowUs+us }
  | .enqueue entity =>
    if w.queue.length ≥ arkivWriterQueueLen then w else
    { w with queue := w.queue ++ [⟨w.queued,entity,w.nowUs,0⟩], queued := w.queued+1 }
  | .other gasPrice entity => take w ⟨txCount w,gasPrice,entity,none⟩
  | .arrive i wanted =>
    match w.sent[i]? with
    | some tx => if wanted then take w tx else w
    | none => w
  | .dequeue ready =>
    match w.work, w.queue with
    | none, job::rest => { w with queue := rest, work := if ready then some ⟨job,none,.gate⟩ else none }
    | _, _ => w
  | op =>
    match w.work with
    | some k => worker env w k op
    | none => w

section Runs
variable [DecidableEq Hash] (env : Env Entity Hash) (ops : List (Op Entity))

abbrev at_ (n : Nat) : World Entity Hash := stateAt (fun w op => (step env w op,())) start ops n

def acceptedOf (w : World Entity Hash) (id : Nat) : Nat := w.accepted.countP (fun tx => tx.job = some id)
def attemptsOf (w : World Entity Hash) (id : Nat) : Nat := w.attempted.countP (fun a => a.1 = id)

structure SentOnce : Prop where
  accepted : ∀ n id, acceptedOf (at_ env ops n) id ≤ 1
  attempts : ∀ n id, attemptsOf (at_ env ops n) id ≤ 3
  young : ∀ n a, a ∈ (at_ env ops n).attempted → a.2 < 240*1000000

/-- A nonce is told for a job only while the node has none of the job's transactions. -/
def NonceFresh (w : World Entity Hash) (op : Op Entity) : Prop :=
  ∀ k, op = .nonce true → w.work = some k → k.pc = .nonce → ∀ a ∈ w.accepted, a.job ≠ some k.job.id

end Runs

def Pc.attempting : Pc Entity → Bool
  | .gate | .backoff _ => false
  | .probe | .lock | .nonce | .price _ | .post _ | .reply => true

inductive Worked (w : World Entity Hash) (k : Work Entity Hash) (op : Op Entity) : World Entity Hash → Prop
  | stay : Worked w k op w
  | drop : Worked w k op { w with work := none }
  | attempt (ageUs pc) : k.pc = .gate → ageUs/1000000 < arkivWriterJobMaxAgeS → pc = .probe ∨ pc = .lock →
      Worked w k op (goto { w with attempted := w.attempted ++ [(k.job.id,ageUs)] } k pc)
  | fail (maybeSent) : k.pc.attempting = true → Worked w k op (attemptFailed w k maybeSent)
  | lock (maybeSent) : k.pc.attempting = true → Worked w k op (goto w { k with maybeSent } .lock)
  | locked : k.pc.attempting = true → Worked w k op (goto w k .nonce)
  | nonce : op = .nonce true → k.pc = .nonce → Worked w k op (goto w k (.price (txCount w)))
  | sign (n tx maybeSent) : k.pc = .price n → tx.nonce = n → tx.job = some k.job.id →
      Worked w k op (goto w { k with maybeSent } (.post tx))
  | post (tx sent) : k.pc = .post tx → sent = w.sent ∨ sent = w.sent ++ [tx] →
      Worked w k op (goto { w with sent } k .reply)
  | wake : k.pc.attempting = false → Worked w k op (goto w k .gate)

theorem workerCases [DecidableEq Hash] (env : Env Entity Hash) (w : World Entity Hash) (k : Work Entity Hash)
    (op : Op Entity) : Worked w k op (worker env w k op) := by
  unfold worker
  split
  · rename_i here
    dsimp only
    split
    · exact .drop
    · rename_i fresh
      refine .attempt _ _ here (Nat.not_le.mp fresh) ?_
      cases k.maybeSent.isSome <;> simp
  · rename_i answered here
    have attempting : k.pc.attempting = true := by rw [here]; rfl
    cases k.maybeSent with
    | none => exact .stay
    | some h =>
      dsimp only
      split
      · exact .fail _ attempting
      · split
        · exact .drop
        · exact .lock none attempting
  · rename_i taken here
    have attempting : k.pc.attempting = true := by rw [here]; rfl
    split
    · exact .locked attempting
    · exact .fail _ attempting
  · rename_i answered here
    cases answered with
    | true => exact .nonce rfl here
    | false => exact .fail _ (by rw [here]; rfl)
  · rename_i gasPrice signs n here
    have attempting : k.pc.attempting = true := by rw [here]; rfl
    cases gasPrice with
    | none => exact .fail _ attempting
    | some price =>
      dsimp only
      split
      · exact .fail _ attempting
      · exact .sign n _ _ here rfl rfl
  · rename_i leaves tx here
    cases leaves with
    | true => exact .post tx _ here (Or.inr rfl)
    | false => exact .post tx _ here (Or.inl rfl)
  · rename_i reply here
    split
    · exact .drop
    · exact .drop
    · exact .fail _ (by rw [here]; rfl)
  · rename_i untilUs here
    split
    · exact .wake (by rw [here]; rfl)
    · exact .stay
  · exact .stay

theorem attemptFailedCases (w : World Entity Hash) (k : Work Entity Hash) (maybeSent : Option Hash) :
    attemptFailed w k maybeSent = { w with work := none } ∨
    ∃ untilUs, k.job.attempts+1 < arkivWriterRetries ∧ attemptFailed w k maybeSent =
      { w with work := some ⟨{ k.job with attempts := k.job.attempts+1 },maybeSent,.backoff untilUs⟩ } := by
  unfold attemptFailed
  by_cases spent : k.job.attempts+1 ≥ arkivWriterRetries
  · exact Or.inl (if_pos spent)
  · exact Or.inr ⟨_,Nat.not_le.mp spent,if_neg spent⟩

/-! A request whose job the node already serves asks for a nonce the node has used. -/

def Low (accepted : List (Tx Entity)) (nonce : Nat) (job : Option Nat) : Prop :=
  nonce ≤ accepted.length ∧ ∀ a ∈ accepted, ∀ id, a.job = some id → job = some id → nonce ≤ a.nonce

structure Aimed (accepted : List (Tx Entity)) (k : Work Entity Hash) : Prop where
  price : ∀ n, k.pc = .price n → Low accepted n (some k.job.id)
  post : ∀ tx, k.pc = .post tx → tx.job = some k.job.id ∧ Low accepted tx.nonce tx.job

structure Chain (w : World Entity Hash) : Prop where
  numbered : ∀ (i : Nat) (a : Tx Entity), w.accepted[i]? = some a → a.nonce = i
  sent : ∀ tx ∈ w.sent, Low w.accepted tx.nonce tx.job
  work : ∀ k, w.work = some k → Aimed w.accepted k
  single : ∀ id, acceptedOf w id ≤ 1

theorem chainStart : Chain (start : World Entity Hash) where
  numbered _ _ bad := nomatch bad
  sent _ bad := nomatch bad
  work _ bad := nomatch bad
  single _ := Nat.zero_le 1

theorem lowGrown {accepted : List (Tx Entity)} {nonce : Nat} {job : Option Nat} (low : Low accepted nonce job)
    {tx : Tx Entity} (next : tx.nonce = accepted.length) : Low (accepted ++ [tx]) nonce job := by
  refine ⟨by rw [List.length_append]; exact Nat.le_add_right_of_le low.1,?_⟩
  intro a member id mine same
  rcases List.mem_append.mp member with old | new
  · exact low.2 a old id mine same
  · rw [List.mem_singleton.mp new,next]
    exact low.1

theorem chainTake {w : World Entity Hash} (chain : Chain w) {tx : Tx Entity}
    (low : Low w.accepted tx.nonce tx.job) : Chain (take w tx) := by
  unfold take
  by_cases taken : w.accepted.any (fun a => a.nonce = tx.nonce) = true
  · rw [if_pos taken]; exact chain
  rw [if_neg taken]
  have next : tx.nonce = w.accepted.length := by
    refine Nat.le_antisymm low.1 (Nat.not_lt.mp fun inside => taken ?_)
    have numbered := chain.numbered tx.nonce _ (List.getElem?_eq_getElem inside)
    exact List.any_eq_true.mpr ⟨_,List.getElem_mem inside,decide_eq_true numbered⟩
  refine ⟨?_,?_,?_,?_⟩
  · intro i a here
    rcases Nat.lt_or_ge i w.accepted.length with old | new
    · rw [List.getElem?_append_left old] at here
      exact chain.numbered i a here
    · rw [List.getElem?_append_right new,List.getElem?_singleton] at here
      by_cases last : i-w.accepted.length = 0
      · rw [if_pos last] at here
        rw [← Option.some.inj here,next]
        omega
      · rw [if_neg last] at here; cases here
  · exact fun other sent => lowGrown (chain.sent other sent) next
  · intro k working
    have aimed := chain.work k working
    exact ⟨fun n here => lowGrown (aimed.price n here) next,
      fun other here => ⟨(aimed.post other here).1,lowGrown (aimed.post other here).2 next⟩⟩
  · intro id
    have split : acceptedOf { w with accepted := w.accepted ++ [tx] } id =
        acceptedOf w id + if tx.job = some id then 1 else 0 := by
      simp [acceptedOf,List.countP_append]
    rw [split]
    by_cases mine : tx.job = some id
    · have absent : acceptedOf w id = 0 := by
        refine List.countP_eq_zero.mpr (fun a member held => ?_)
        obtain ⟨i,here⟩ := List.mem_iff_getElem?.mp member
        have early := low.2 a member id (of_decide_eq_true held) mine
        have inside := (List.getElem?_eq_some_iff.mp here).1
        rw [chain.numbered i a here,next] at early
        omega
      rw [if_pos mine,absent]
    · rw [if_neg mine]
      exact chain.single id

theorem chainWork {w : World Entity Hash} (chain : Chain w) (work : Option (Work Entity Hash))
    (aimed : ∀ k, work = some k → Aimed w.accepted k) : Chain { w with work } :=
  ⟨chain.numbered,chain.sent,aimed,chain.single⟩

theorem aimedFree {accepted : List (Tx Entity)} {k : Work Entity Hash} (price : ∀ n, k.pc ≠ .price n)
    (post : ∀ tx, k.pc ≠ .post tx) : Aimed accepted k :=
  ⟨fun n here => absurd here (price n),fun tx here => absurd here (post tx)⟩

theorem chainWorked {w w' : World Entity Hash} {k : Work Entity Hash} {op : Op Entity} (chain : Chain w)
    (working : w.work = some k) (fresh : NonceFresh w op) (worked : Worked w k op w') : Chain w' := by
  have moved : ∀ k' : Work Entity Hash, (∀ n, k'.pc ≠ .price n) → (∀ tx, k'.pc ≠ .post tx) →
      Chain { w with work := some k' } := fun k' price post =>
    chainWork chain (some k') (fun k'' same => Option.some.inj same ▸ aimedFree price post)
  have aimed := chain.work k working
  cases worked with
  | stay => exact chain
  | drop => exact chainWork chain none (fun _ bad => nomatch bad)
  | attempt ageUs pc gate young place =>
    rcases place with rfl | rfl
    · exact ⟨chain.numbered,chain.sent,(moved { k with pc := .probe } nofun nofun).work,chain.single⟩
    · exact ⟨chain.numbered,chain.sent,(moved { k with pc := .lock } nofun nofun).work,chain.single⟩
  | fail maybeSent attempting =>
    rcases attemptFailedCases w k maybeSent with dropped | ⟨untilUs,-,failed⟩
    · rw [dropped]; exact chainWork chain none (fun _ bad => nomatch bad)
    · rw [failed]; exact moved _ nofun nofun
  | lock maybeSent attempting => exact moved _ nofun nofun
  | locked attempting => exact moved _ nofun nofun
  | nonce told place =>
    refine chainWork chain _ (fun k' same => ?_)
    rw [← Option.some.inj same]
    refine ⟨fun n here => ?_,fun tx bad => nomatch bad⟩
    rw [← Pc.price.inj here]
    refine ⟨Nat.le_refl _,fun a member id mine same => ?_⟩
    exact absurd (mine.trans same.symm) (fresh k told working place a member)
  | sign n tx maybeSent place nonce job =>
    refine chainWork chain _ (fun k' same => ?_)
    rw [← Option.some.inj same]
    refine ⟨fun n bad => (nomatch bad),fun tx' here => ?_⟩
    rw [← Pc.post.inj here,nonce,job]
    exact ⟨rfl,aimed.price n place⟩
  | post tx sent place stored =>
    have kept : ∀ other ∈ sent, Low w.accepted other.nonce other.job := by
      rcases stored with rfl | rfl
      · exact chain.sent
      · intro other member
        rcases List.mem_append.mp member with old | new
        · exact chain.sent other old
        · rw [List.mem_singleton.mp new]
          exact (aimed.post tx place).2
    exact ⟨chain.numbered,kept,(moved { k with pc := .reply } nofun nofun).work,chain.single⟩
  | wake resting => exact moved _ nofun nofun

section Steps
variable [DecidableEq Hash] {env : Env Entity Hash}

theorem chainStep {w : World Entity Hash} (chain : Chain w) {op : Op Entity} (fresh : NonceFresh w op) :
    Chain (step env w op) := by
  have worker : Chain (match w.work with | some k => worker env w k op | none => w) := by
    cases working : w.work with
    | none => exact chain
    | some k => exact chainWorked chain working fresh (workerCases env w k op)
  cases op with
  | elapse us => exact ⟨chain.numbered,chain.sent,chain.work,chain.single⟩
  | enqueue entity =>
    dsimp only [step]
    split
    · exact chain
    · exact ⟨chain.numbered,chain.sent,chain.work,chain.single⟩
  | other gasPrice entity => exact chainTake chain ⟨Nat.le_refl _,fun a member id mine bad => nomatch bad⟩
  | arrive i wanted =>
    dsimp only [step]
    cases here : w.sent[i]? with
    | none => exact chain
    | some tx =>
      cases wanted with
      | false => exact chain
      | true => exact chainTake chain (chain.sent tx (List.mem_of_getElem? here))
  | dequeue ready =>
    dsimp only [step]
    split
    · refine ⟨chain.numbered,chain.sent,fun k started => ?_,chain.single⟩
      cases ready with
      | false => cases started
      | true => rw [← Option.some.inj started]; exact aimedFree nofun nofun
    · exact chain
  | gate => exact worker
  | probe answered => exact worker
  | lock taken => exact worker
  | nonce answered => exact worker
  | price gasPrice signs => exact worker
  | post leaves => exact worker
  | reply reply => exact worker
  | wake => exact worker

end Steps

/-! A job is queued once, and its attempts are counted where it is worked on. -/

structure Counted (w : World Entity Hash) : Prop where
  few : ∀ id, attemptsOf w id ≤ arkivWriterRetries
  young : ∀ a ∈ w.attempted, a.2 < 240*1000000
  unborn : ∀ id, w.queued ≤ id → attemptsOf w id = 0
  waiting : ∀ job ∈ w.queue, job.attempts = 0 ∧ job.id < w.queued ∧ attemptsOf w job.id = 0
  distinct : (w.queue.map WriteJob.id).Nodup
  work : ∀ k, w.work = some k → k.job.attempts < arkivWriterRetries ∧ k.job.id < w.queued ∧
    k.job.id ∉ w.queue.map WriteJob.id ∧
    attemptsOf w k.job.id = k.job.attempts + if k.pc.attempting then 1 else 0

theorem countedStart : Counted (start : World Entity Hash) where
  few _ := Nat.zero_le 3
  young _ bad := nomatch bad
  unborn _ _ := rfl
  waiting _ bad := nomatch bad
  distinct := List.nodup_nil
  work _ bad := nomatch bad

theorem countedWork {w : World Entity Hash} (counted : Counted w) (work : Option (Work Entity Hash))
    (right : ∀ k, work = some k → k.job.attempts < arkivWriterRetries ∧ k.job.id < w.queued ∧
      k.job.id ∉ w.queue.map WriteJob.id ∧
      attemptsOf w k.job.id = k.job.attempts + if k.pc.attempting then 1 else 0) :
    Counted { w with work } :=
  ⟨counted.few,counted.young,counted.unborn,counted.waiting,counted.distinct,right⟩

theorem countedMoved {w : World Entity Hash} {k : Work Entity Hash} (counted : Counted w) (working : w.work = some k)
    (maybeSent : Option Hash) (pc : Pc Entity) (same : k.pc.attempting = pc.attempting) :
    Counted (goto w { k with maybeSent } pc) := by
  refine countedWork counted _ (fun k' here => ?_)
  rw [← Option.some.inj here]
  have right := counted.work k working
  rw [same] at right
  exact right

theorem attemptsAppend (w : World Entity Hash) (id ageUs other : Nat) :
    attemptsOf { w with attempted := w.attempted ++ [(id,ageUs)] } other =
      attemptsOf w other + if id = other then 1 else 0 := by
  simp [attemptsOf,List.countP_append]

theorem countedAttempt {w : World Entity Hash} {k : Work Entity Hash} (counted : Counted w)
    (working : w.work = some k) {ageUs : Nat} (gate : k.pc = .gate)
    (young : ageUs/1000000 < arkivWriterJobMaxAgeS) {pc : Pc Entity} (attempting : pc.attempting = true) :
    Counted (goto { w with attempted := w.attempted ++ [(k.job.id,ageUs)] } k pc) := by
  obtain ⟨left,born,apart,spent⟩ := counted.work k working
  rw [gate,Pc.attempting,if_neg Bool.false_ne_true] at spent
  have elsewhere : ∀ id, k.job.id ≠ id →
      attemptsOf { w with attempted := w.attempted ++ [(k.job.id,ageUs)] } id = attemptsOf w id := by
    intro id other
    rw [attemptsAppend,if_neg other]
    rfl
  have here : attemptsOf { w with attempted := w.attempted ++ [(k.job.id,ageUs)] } k.job.id = k.job.attempts+1 := by
    rw [attemptsAppend,if_pos rfl,spent]
  refine ⟨?_,?_,?_,?_,counted.distinct,?_⟩
  · intro id
    by_cases same : k.job.id = id
    · subst same
      exact Nat.le_trans (Nat.le_of_eq here) left
    · exact Nat.le_trans (Nat.le_of_eq (elsewhere id same)) (counted.few id)
  · intro a member
    rcases List.mem_append.mp member with old | new
    · exact counted.young a old
    · rw [List.mem_singleton.mp new]
      have bound : ageUs/1000000 < 240 := young
      dsimp only
      omega
  · intro id late
    have other : k.job.id ≠ id := fun same => by
      rw [same] at born
      exact absurd born (Nat.not_lt.mpr late)
    exact (elsewhere id other).trans (counted.unborn id late)
  · intro job member
    obtain ⟨new,known,none⟩ := counted.waiting job member
    have other : k.job.id ≠ job.id := fun same => apart (same ▸ List.mem_map_of_mem member)
    exact ⟨new,known,(elsewhere job.id other).trans none⟩
  · intro k' same
    rw [← Option.some.inj same]
    refine ⟨left,born,apart,?_⟩
    dsimp only
    rw [if_pos attempting]
    exact here

theorem countedWorked {w w' : World Entity Hash} {k : Work Entity Hash} {op : Op Entity} (counted : Counted w)
    (working : w.work = some k) (worked : Worked w k op w') : Counted w' := by
  have dropped : Counted { w with work := none } := countedWork counted none (fun _ bad => nomatch bad)
  cases worked with
  | stay => exact counted
  | drop => exact dropped
  | attempt ageUs pc gate young place =>
    rcases place with rfl | rfl
    · exact countedAttempt counted working gate young rfl
    · exact countedAttempt counted working gate young rfl
  | fail maybeSent attempting =>
    rcases attemptFailedCases w k maybeSent with lost | ⟨untilUs,left,failed⟩
    · rw [lost]; exact dropped
    · rw [failed]
      obtain ⟨-,born,apart,spent⟩ := counted.work k working
      rw [if_pos attempting] at spent
      refine countedWork counted _ (fun k' same => ?_)
      rw [← Option.some.inj same]
      exact ⟨left,born,apart,spent⟩
  | lock maybeSent attempting => exact countedMoved counted working maybeSent .lock attempting
  | locked attempting => exact countedMoved counted working k.maybeSent .nonce attempting
  | nonce told place => exact countedMoved counted working k.maybeSent (.price _) (by rw [place]; rfl)
  | sign n tx maybeSent place nonce job =>
    exact countedMoved counted working maybeSent (.post tx) (by rw [place]; rfl)
  | post tx sent place stored =>
    have moved := countedMoved counted working k.maybeSent .reply (by rw [place]; rfl)
    exact ⟨moved.few,moved.young,moved.unborn,moved.waiting,moved.distinct,moved.work⟩
  | wake resting => exact countedMoved counted working k.maybeSent .gate resting

theorem countedTake {w : World Entity Hash} (counted : Counted w) (tx : Tx Entity) : Counted (take w tx) := by
  unfold take
  split
  · exact counted
  · exact ⟨counted.few,counted.young,counted.unborn,counted.waiting,counted.distinct,counted.work⟩

theorem countedEnqueue {w : World Entity Hash} (counted : Counted w) (entity : Entity) :
    Counted { w with queue := w.queue ++ [⟨w.queued,entity,w.nowUs,0⟩], queued := w.queued+1 } := by
  refine ⟨counted.few,counted.young,fun id late => counted.unborn id (Nat.le_of_succ_le late),?_,?_,?_⟩
  · intro job member
    rcases List.mem_append.mp member with old | new
    · obtain ⟨fresh,known,none⟩ := counted.waiting job old
      exact ⟨fresh,Nat.lt_succ_of_lt known,none⟩
    · rw [List.mem_singleton.mp new]
      exact ⟨rfl,Nat.lt_succ_self _,counted.unborn _ (Nat.le_refl _)⟩
  · rw [List.map_append,List.nodup_append]
    refine ⟨counted.distinct,(by simp),fun id old new last same => ?_⟩
    obtain ⟨job,member,rfl⟩ := List.mem_map.mp old
    rw [List.mem_singleton.mp last] at same
    exact absurd same (Nat.ne_of_lt (counted.waiting job member).2.1)
  · intro k working
    obtain ⟨left,born,apart,spent⟩ := counted.work k working
    refine ⟨left,Nat.lt_succ_of_lt born,fun member => ?_,spent⟩
    rw [List.map_append] at member
    rcases List.mem_append.mp member with old | new
    · exact apart old
    · exact absurd (List.mem_singleton.mp new) (Nat.ne_of_lt born)

theorem countedDequeue {w : World Entity Hash} (counted : Counted w) {job : WriteJob Entity}
    {rest : List (WriteJob Entity)} (front : w.queue = job::rest) (ready : Bool) :
    Counted ({ w with queue := rest, work := if ready then some ⟨job,none,.gate⟩ else none } : World Entity Hash) := by
  have distinct := counted.distinct
  rw [front,List.map_cons,List.nodup_cons] at distinct
  refine ⟨counted.few,counted.young,counted.unborn,
    fun other member => counted.waiting other (front ▸ List.mem_cons_of_mem _ member),distinct.2,?_⟩
  intro k working
  cases ready with
  | false => cases working
  | true =>
    obtain ⟨fresh,known,none⟩ := counted.waiting job (front ▸ List.mem_cons_self)
    rw [← Option.some.inj working]
    refine ⟨?_,known,distinct.1,?_⟩
    · rw [fresh]; decide
    · exact none.trans fresh.symm

section Runs
variable [DecidableEq Hash] {env : Env Entity Hash} {ops : List (Op Entity)}

theorem countedStep {w : World Entity Hash} (counted : Counted w) (op : Op Entity) : Counted (step env w op) := by
  have worker : Counted (match w.work with | some k => worker env w k op | none => w) := by
    cases working : w.work with
    | none => exact counted
    | some k => exact countedWorked counted working (workerCases env w k op)
  cases op with
  | elapse us =>
    exact ⟨counted.few,counted.young,counted.unborn,counted.waiting,counted.distinct,counted.work⟩
  | enqueue entity =>
    dsimp only [step]
    split
    · exact counted
    · exact countedEnqueue counted entity
  | other gasPrice entity => exact countedTake counted _
  | arrive i wanted =>
    dsimp only [step]
    cases w.sent[i]? with
    | none => exact counted
    | some tx =>
      cases wanted with
      | false => exact counted
      | true => exact countedTake counted tx
  | dequeue ready =>
    dsimp only [step]
    split
    · rename_i job rest idle front
      exact countedDequeue counted front ready
    · exact counted
  | gate => exact worker
  | probe answered => exact worker
  | lock taken => exact worker
  | nonce answered => exact worker
  | price gasPrice signs => exact worker
  | post leaves => exact worker
  | reply reply => exact worker
  | wake => exact worker

variable (env ops) in
theorem countedAt (n : Nat) : Counted (at_ env ops n) :=
  keepsBetween (fun w op => (step env w op,())) start ops (m := 0) countedStart (Nat.zero_le n)
    (fun _ op _ _ _ before => countedStep before op)

theorem chainAt (fresh : ∀ n op, ops[n]? = some op → NonceFresh (at_ env ops n) op) (n : Nat) :
    Chain (at_ env ops n) :=
  keepsBetween (fun w op => (step env w op,())) start ops (m := 0) chainStart (Nat.zero_le n)
    (fun n op _ _ here before => chainStep before (fresh n op here))

end Runs

theorem sentOnceWhenNonceFresh [DecidableEq Hash] (env : Env Entity Hash) (ops : List (Op Entity))
    (fresh : ∀ n op, ops[n]? = some op → NonceFresh (at_ env ops n) op) : SentOnce env ops where
  accepted n := (chainAt fresh n).single
  attempts n := (countedAt env ops n).few
  young n := (countedAt env ops n).young

/-! A send request outlives its timeout: the node takes it after the probe and before
the nonce of the second attempt is fetched. -/

def tuples : Env Nat (Nat × Nat × Nat) := ⟨fun nonce gasPrice entity => (nonce,gasPrice,entity)⟩

def attempt (gasPrice : Nat) : List (Op Nat) := [.lock true,.nonce true,.price (some gasPrice) true,.post true]

def lateRun : List (Op Nat) :=
  [.enqueue 9,.dequeue true,.gate] ++ attempt 2000 ++ [.reply .lost,.elapse 5000000,.wake,.gate,.probe true] ++
    [.arrive 0 true] ++ attempt 2000 ++ [.arrive 1 true,.reply .result]

theorem entityTwice : ¬ SentOnce tuples lateRun := by
  intro once
  have twice : acceptedOf (at_ tuples lateRun 19) 0 = 2 := by decide
  have single := once.accepted 19 0
  omega

def lostRun : List (Op Nat) :=
  [.enqueue 9,.dequeue true,.gate] ++ attempt 2000 ++ [.reply .lost,.elapse 5000000,.wake,.gate,.probe true] ++
    attempt 3000 ++ [.arrive 1 true,.arrive 0 true,.reply .garbled,.elapse 15000000,.wake,.gate,.probe true]

theorem lostFresh : ∀ n op, lostRun[n]? = some op → NonceFresh (at_ tuples lostRun n) op := by
  have early : ∀ n, lostRun[n]? = some (.nonce true) → (at_ tuples lostRun n).accepted = [] := by
    intro n here
    match n with
    | 4 | 13 => decide
    | 0 | 1 | 2 | 3 | 5 | 6 | 7 | 8 | 9 | 10 | 11 | 12 => cases here
    | 14 | 15 | 16 | 17 | 18 | 19 | 20 | 21 | 22 => cases here
    | n+23 => exact absurd here (by simp [lostRun,attempt])
  intro n op here k told working place a member
  rw [told] at here
  rw [early n here] at member
  cases member

theorem lostOnce : acceptedOf (at_ tuples lostRun 23) 0 = 1 ∧ SentOnce tuples lostRun :=
  ⟨by decide,sentOnceWhenNonceFresh tuples lostRun lostFresh⟩

end Web3PiUps.ArkivWriterJobs
