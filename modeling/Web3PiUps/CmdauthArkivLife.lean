import Web3PiUps.ArkivSkips
import Web3PiUps.Lib.StepMachine

/-! The binding of `cmdauth_arkiv.c` over the device's life. `Nvs` is what its
namespace keeps besides the progress of the check; every NVS write of a bind, an
epoch bump or a clear succeeds, and every read gives what was written last. A
reboot starts from cleared memory and runs `cmdauth_arkiv_init`. -/
namespace Web3PiUps.CmdauthArkivLife
open WupsProtocol ArkivEntity CmdauthArkiv StepMachine

abbrev pubLen : Nat := 64
abbrev Pubkey := {pub : Bytes // pub.length = pubLen}

structure Nvs where
  ownerPub : Option Bytes
  encPub : Option Bytes
  keyEpoch : Option Nat
  claimState : Option ClaimState
  deriving DecidableEq, Repr

structure Device where
  auth : Auth
  haveEnc : Bool
  encPub : Bytes
  bindingGen : UInt32
  nvs : Nvs
  deriving DecidableEq, Repr

structure Keys extends Env where
  validPubkey : Bytes → Bool

def pubToAddr (env : Keys) (pub : Bytes) : Bytes := ((env.keccak256 pub).drop 12).take 20

def cold (stored : Stored) (nvs : Nvs) : Device :=
  ⟨⟨false,.unclaimed,false,List.replicate pubLen 0,List.replicate 20 0,0,0,0,stored⟩,false,
    List.replicate pubLen 0,0,nvs⟩

def factory : Device := cold ⟨none,none⟩ ⟨none,none,none,none⟩

/-- `provisioned` and `opens`: the device key is there, the state namespace opens. -/
def cmdauthArkivInit (env : Keys) (provisioned opens : Bool) (d : Device) : Device × Bool :=
  let d := { d with auth := { d.auth with ready := false, haveOwner := false, claimState := .unclaimed } }
  if ¬ provisioned then (d,false) else
  if ¬ opens then (d,false) else
  let auth := match d.nvs.ownerPub with
    | some pub =>
      if pub.length = pubLen then
        { d.auth with ownerPub := pub, ownerAddr := pubToAddr env pub, haveOwner := true }
      else d.auth
    | none => d.auth
  let auth := { auth with
    keyEpoch := d.nvs.keyEpoch.getD 0
    lastCtr := auth.stored.lastCtr.getD 0
    curBlock := auth.stored.curBlock.getD 0
    claimState := d.nvs.claimState.getD .unclaimed
    ready := true }
  match d.nvs.encPub with
  | some enc => if enc.length = pubLen then ({ d with auth, encPub := enc, haveEnc := true },true) else ({ d with auth },true)
  | none => ({ d with auth },true)

def cmdauthArkivBindOwner (env : Keys) (d : Device) (ownerPub encPub : Pubkey) (epoch : UInt32) : Device × Bool :=
  if ¬ d.auth.ready then (d,false) else
  if env.validPubkey ownerPub ≠ true ∨ env.validPubkey encPub ≠ true then (d,false) else
  ({ d with
      auth := { d.auth with
        ownerPub := ownerPub
        ownerAddr := pubToAddr env ownerPub
        haveOwner := true
        keyEpoch := epoch.toNat
        lastCtr := 0
        claimState := .claimed
        stored := { d.auth.stored with lastCtr := some 0 } }
      encPub := encPub
      haveEnc := true
      bindingGen := d.bindingGen+1
      nvs := ⟨some ownerPub,some encPub,some epoch.toNat,some .claimed⟩ },true)

def cmdauthArkivSetEpoch (d : Device) (epoch : UInt32) : Device × Bool :=
  if ¬ d.auth.ready then (d,false) else
  if epoch.toNat ≤ d.auth.keyEpoch then (d,false) else
  ({ d with
      auth := { d.auth with keyEpoch := epoch.toNat }
      bindingGen := d.bindingGen+1
      nvs := { d.nvs with keyEpoch := some epoch.toNat } },true)

def cmdauthArkivClear (d : Device) : Device × Bool :=
  ({ d with
      auth := { d.auth with
        ownerPub := List.replicate pubLen 0
        ownerAddr := List.replicate 20 0
        haveOwner := false
        keyEpoch := 0
        lastCtr := 0
        curBlock := 0
        claimState := .unclaimed
        stored := ⟨none,none⟩ }
      encPub := List.replicate pubLen 0
      haveEnc := false
      bindingGen := d.bindingGen+1
      nvs := ⟨none,none,none,some .unclaimed⟩ },true)

inductive Op where
  | check (cmd : Option Cmd)
  | bindOwner (ownerPub encPub : Pubkey) (epoch : UInt32)
  | setEpoch (epoch : UInt32)
  | clear
  | reboot (provisioned opens : Bool)

inductive Out where
  | checked (frame : Option Bytes)
  | ended (ok : Bool)
  deriving DecidableEq, Repr

def step (env : Keys) (d : Device) : Op → Device × Out
  | .check cmd =>
    let (auth,frame) := cmdauthArkivCheck env.toEnv d.auth cmd
    ({ d with auth },.checked frame)
  | .bindOwner ownerPub encPub epoch =>
    let (d,ok) := cmdauthArkivBindOwner env d ownerPub encPub epoch
    (d,.ended ok)
  | .setEpoch epoch =>
    let (d,ok) := cmdauthArkivSetEpoch d epoch
    (d,.ended ok)
  | .clear =>
    let (d,ok) := cmdauthArkivClear d
    (d,.ended ok)
  | .reboot provisioned opens =>
    let (d,ok) := cmdauthArkivInit env provisioned opens (cold d.auth.stored d.nvs)
    (d,.ended ok)

/-! One command of the owner, and how often a run accepts it. -/

section Runs
variable (env : Keys) (ops : List Op)

abbrev at_ (n : Nat) : Device := stateAt (step env) factory ops n

def AcceptedAt (n : Nat) (cmd : Cmd) : Prop :=
  ops[n]? = some (.check (some cmd)) ∧ ∃ frame, (outs (step env) factory ops)[n]? = some (.checked (some frame))

abbrev ownerAt (n : Nat) : Bytes := (at_ env ops n).auth.ownerPub

structure SameCommand (ownerPub ownerPub' : Bytes) (c c' : Cmd) : Prop where
  owner : ownerPub = ownerPub'
  deviceId : c.deviceId = c'.deviceId
  epoch : c.epoch = c'.epoch
  counter : c.counter = c'.counter
  commandId : c.commandId = c'.commandId
  frame : c.frame = c'.frame

def ExecutesOnce : Prop :=
  ∀ m n c c', AcceptedAt env ops m c → AcceptedAt env ops n c' →
    SameCommand (ownerAt env ops m) (ownerAt env ops n) c c' → m = n

/-- The counter never restarts under an owner and epoch it has served. -/
def CounterKept (n : Nat) : Op → Prop
  | .bindOwner ownerPub encPub epoch =>
    (at_ env ops n).auth.ready = true → env.validPubkey ownerPub = true → env.validPubkey encPub = true →
      ∀ m < n, ∀ c, AcceptedAt env ops m c → ownerAt env ops m = ownerPub → c.epoch ≠ epoch.toNat
  | .setEpoch epoch =>
    (at_ env ops n).auth.keyEpoch < epoch.toNat →
      ∀ m < n, ∀ c, AcceptedAt env ops m c → (at_ env ops n).nvs.ownerPub = some (ownerAt env ops m) →
        c.epoch = epoch.toNat → c.counter ≤ (at_ env ops n).auth.lastCtr
  | .check _ | .clear | .reboot _ _ => True

end Runs

/-! Memory and NVS agree on a device that is ready. -/

structure Synced (d : Device) : Prop where
  owner : d.auth.ready = true → d.auth.haveOwner = true → d.nvs.ownerPub = some d.auth.ownerPub
  epoch : d.auth.ready = true → d.auth.keyEpoch = d.nvs.keyEpoch.getD 0
  ctr : d.auth.ready = true → d.auth.lastCtr = d.auth.stored.lastCtr.getD 0

def NvsWrites (env : Keys) : Prop := ∀ stored ctr block, env.persistProgress stored ctr block = (⟨some ctr,some block⟩,true)

theorem coldSynced (stored : Stored) (nvs : Nvs) : Synced (cold stored nvs) :=
  ⟨fun bad => absurd bad Bool.false_ne_true,fun bad => absurd bad Bool.false_ne_true,
    fun bad => absurd bad Bool.false_ne_true⟩

theorem initKeeps (env : Keys) (provisioned opens : Bool) (d : Device) :
    let result := (cmdauthArkivInit env provisioned opens d).1
    Synced result ∧ result.nvs = d.nvs ∧ result.auth.stored = d.auth.stored := by
  have down : ∀ a : Auth, a.ready = false → Synced { d with auth := a } := fun a unready =>
    ⟨fun bad => absurd (unready.symm.trans bad) Bool.false_ne_true,
      fun bad => absurd (unready.symm.trans bad) Bool.false_ne_true,
      fun bad => absurd (unready.symm.trans bad) Bool.false_ne_true⟩
  unfold cmdauthArkivInit
  cases provisioned with
  | false => exact ⟨down _ rfl,rfl,rfl⟩
  | true =>
    cases opens with
    | false => exact ⟨down _ rfl,rfl,rfl⟩
    | true =>
      simp only [not_true_eq_false,if_false]
      cases owner : d.nvs.ownerPub with
      | none =>
        cases d.nvs.encPub with
        | none => exact ⟨⟨fun _ bad => absurd bad Bool.false_ne_true,fun _ => rfl,fun _ => rfl⟩,rfl,rfl⟩
        | some enc =>
          dsimp only
          split <;> exact ⟨⟨fun _ bad => absurd bad Bool.false_ne_true,fun _ => rfl,fun _ => rfl⟩,rfl,rfl⟩
      | some pub =>
        by_cases whole : pub.length = pubLen
        · simp only [if_pos whole]
          cases d.nvs.encPub with
          | none => exact ⟨⟨fun _ _ => owner,fun _ => rfl,fun _ => rfl⟩,rfl,rfl⟩
          | some enc =>
            dsimp only
            split <;> exact ⟨⟨fun _ _ => owner,fun _ => rfl,fun _ => rfl⟩,rfl,rfl⟩
        · simp only [if_neg whole]
          cases d.nvs.encPub with
          | none => exact ⟨⟨fun _ bad => absurd bad Bool.false_ne_true,fun _ => rfl,fun _ => rfl⟩,rfl,rfl⟩
          | some enc =>
            dsimp only
            split <;> exact ⟨⟨fun _ bad => absurd bad Bool.false_ne_true,fun _ => rfl,fun _ => rfl⟩,rfl,rfl⟩

theorem bindCases (env : Keys) (d : Device) (ownerPub encPub : Pubkey) (epoch : UInt32) :
    (cmdauthArkivBindOwner env d ownerPub encPub epoch).1 = d ∨
    (d.auth.ready = true ∧ env.validPubkey ownerPub = true ∧ env.validPubkey encPub = true) ∧
      Synced (cmdauthArkivBindOwner env d ownerPub encPub epoch).1 ∧
      (cmdauthArkivBindOwner env d ownerPub encPub epoch).1.nvs =
        ⟨some ownerPub,some encPub,some epoch.toNat,some .claimed⟩ := by
  unfold cmdauthArkivBindOwner
  by_cases idle : ¬ d.auth.ready = true
  · rw [if_pos idle]; exact Or.inl rfl
  rw [if_neg idle]
  by_cases bad : env.validPubkey ownerPub ≠ true ∨ env.validPubkey encPub ≠ true
  · rw [if_pos bad]; exact Or.inl rfl
  rw [if_neg bad]
  rw [not_or,not_not,not_not] at bad
  exact Or.inr ⟨⟨not_not.mp idle,bad⟩,⟨fun _ _ => rfl,fun _ => rfl,fun _ => rfl⟩,rfl⟩

theorem epochCases (d : Device) (epoch : UInt32) :
    (cmdauthArkivSetEpoch d epoch).1 = d ∨
    (d.auth.ready = true ∧ d.auth.keyEpoch < epoch.toNat) ∧
      (cmdauthArkivSetEpoch d epoch).1 = { d with
        auth := { d.auth with keyEpoch := epoch.toNat }
        bindingGen := d.bindingGen+1
        nvs := { d.nvs with keyEpoch := some epoch.toNat } } := by
  unfold cmdauthArkivSetEpoch
  by_cases idle : ¬ d.auth.ready = true
  · rw [if_pos idle]; exact Or.inl rfl
  rw [if_neg idle]
  by_cases low : epoch.toNat ≤ d.auth.keyEpoch
  · rw [if_pos low]; exact Or.inl rfl
  rw [if_neg low]
  exact Or.inr ⟨⟨not_not.mp idle,Nat.not_le.mp low⟩,rfl⟩

theorem acceptStored {env : Keys} (writes : NvsWrites env) (a : Auth) (cmd : Cmd) :
    (accept env.toEnv a cmd).stored.lastCtr = some cmd.counter := by
  simp only [accept]
  rw [writes]

theorem acceptSynced {env : Keys} (writes : NvsWrites env) {d : Device} (synced : Synced d) (cmd : Cmd) :
    Synced { d with auth := accept env.toEnv d.auth cmd } where
  owner := synced.owner
  epoch := synced.epoch
  ctr _ := by
    dsimp only
    rw [acceptStored writes]
    rfl

theorem stepSynced {env : Keys} (writes : NvsWrites env) {d : Device} (synced : Synced d) (op : Op) :
    Synced (step env d op).1 := by
  cases op with
  | check cmd =>
    cases cmd with
    | none =>
      have same : cmdauthArkivCheck env.toEnv d.auth none = (d.auth,none) := by
        simp only [cmdauthArkivCheck,ite_self]
      simp only [step,same]
      exact synced
    | some cmd =>
      rcases checkCases env.toEnv d.auth cmd with ⟨same,-⟩ | ⟨frame,-,accepted,-⟩
      · simp only [step,same]
        exact synced
      · simp only [step,accepted]
        exact acceptSynced writes synced cmd
  | bindOwner ownerPub encPub epoch =>
    simp only [step]
    rcases bindCases env d ownerPub encPub epoch with same | ⟨-,bound,-⟩
    · rw [same]; exact synced
    · exact bound
  | setEpoch epoch =>
    simp only [step]
    rcases epochCases d epoch with same | ⟨⟨ready,-⟩,raised⟩
    · rw [same]; exact synced
    · rw [raised]
      exact ⟨synced.owner,fun _ => rfl,synced.ctr⟩
  | clear => exact ⟨fun _ bad => absurd bad Bool.false_ne_true,fun _ => rfl,fun _ => rfl⟩
  | reboot provisioned opens => exact (initKeeps env provisioned opens _).1

/-! What has been accepted lies at or below the counter on record. -/

section Seen
variable {env : Keys} {ops : List Op}

theorem acceptedState {n cmd} (accepted : AcceptedAt env ops n cmd) :
    Opened (at_ env ops n).auth cmd.block ∧ Genuine env.toEnv (at_ env ops n).auth cmd ∧
      (at_ env ops n).auth.lastCtr < cmd.counter ∧
      at_ env ops (n+1) = { at_ env ops n with auth := accept env.toEnv (at_ env ops n).auth cmd } := by
  obtain ⟨here,frame,out⟩ := accepted
  have answer := outStep (step env) factory here out
  have next : at_ env ops (n+1) = (step env (at_ env ops n) (.check (some cmd))).1 :=
    stateNext (step env) factory here
  rcases checkCases env.toEnv (at_ env ops n).auth cmd with ⟨refused,-⟩ | ⟨content,-,passed,opened,genuine,above⟩
  · simp only [step,refused] at answer
    exact absurd (Out.checked.inj answer) (by simp)
  · simp only [step,passed] at next
    exact ⟨opened,genuine,above,next⟩

def Seen (env : Keys) (ops : List Op) (n : Nat) (d : Device) : Prop :=
  ∀ m < n, ∀ c, AcceptedAt env ops m c → d.nvs.ownerPub = some (ownerAt env ops m) →
    c.epoch = d.nvs.keyEpoch.getD 0 → c.counter ≤ d.auth.stored.lastCtr.getD 0

theorem seenSame {n : Nat} {d d' : Device} (seen : Seen env ops n d) (nvs : d'.nvs = d.nvs)
    (stored : d'.auth.stored = d.auth.stored) : Seen env ops n d' := by
  intro m before c accepted owner epoch
  rw [nvs] at owner epoch
  rw [stored]
  exact seen m before c accepted owner epoch

theorem seenNext (quiet : ∀ c, ¬ AcceptedAt env ops n c) {d : Device} (seen : Seen env ops n d) :
    Seen env ops (n+1) d := by
  intro m before c accepted
  rcases Nat.lt_succ_iff_lt_or_eq.mp before with old | rfl
  · exact seen m old c accepted
  · exact absurd accepted (quiet c)

theorem seenAccepted (writes : NvsWrites env) {n cmd} (accepted : AcceptedAt env ops n cmd)
    (synced : Synced (at_ env ops n)) (seen : Seen env ops n (at_ env ops n)) :
    Seen env ops (n+1) (at_ env ops (n+1)) := by
  obtain ⟨opened,-,above,next⟩ := acceptedState accepted
  have grown : (at_ env ops (n+1)).auth.stored.lastCtr.getD 0 = cmd.counter := by
    rw [next]
    dsimp only
    rw [acceptStored writes]
    rfl
  intro m before c again owner epoch
  rw [grown]
  rw [next] at owner epoch
  rcases Nat.lt_succ_iff_lt_or_eq.mp before with old | rfl
  · have low := seen m old c again owner epoch
    rw [← synced.ctr opened.ready] at low
    omega
  · have same := accepted.1.symm.trans again.1
    cases same
    exact Nat.le_refl _

theorem stepSeen (writes : NvsWrites env) {n op} (here : ops[n]? = some op)
    (kept : CounterKept env ops n op) (synced : Synced (at_ env ops n))
    (seen : Seen env ops n (at_ env ops n)) : Seen env ops (n+1) (at_ env ops (n+1)) := by
  by_cases accepts : ∃ c, AcceptedAt env ops n c
  · obtain ⟨c,accepted⟩ := accepts
    exact seenAccepted writes accepted synced seen
  have quiet : ∀ c, ¬ AcceptedAt env ops n c := fun c accepted => accepts ⟨c,accepted⟩
  have next : at_ env ops (n+1) = (step env (at_ env ops n) op).1 := stateNext (step env) factory here
  refine seenNext quiet ?_
  rw [next]
  cases op with
  | check cmd =>
    cases cmd with
    | none =>
      have same : cmdauthArkivCheck env.toEnv (at_ env ops n).auth none = ((at_ env ops n).auth,none) := by
        simp only [cmdauthArkivCheck,ite_self]
      simp only [step,same]
      exact seen
    | some cmd =>
      rcases checkCases env.toEnv (at_ env ops n).auth cmd with ⟨same,-⟩ | ⟨frame,-,passed,-⟩
      · simp only [step,same]
        exact seen
      · refine absurd ⟨here,frame,?_⟩ (quiet cmd)
        rw [outAt,here,Option.map_some]
        change some (step env (at_ env ops n) (.check (some cmd))).2 = _
        simp only [step,passed]
  | bindOwner ownerPub encPub epoch =>
    simp only [step]
    rcases bindCases env (at_ env ops n) ownerPub encPub epoch with same | ⟨⟨ready,valid,fine⟩,-,nvs⟩
    · rw [same]; exact seen
    · intro m before c accepted owner same
      rw [nvs] at owner same
      exact absurd same (kept ready valid fine m before c accepted (Option.some.inj owner).symm)
  | setEpoch epoch =>
    simp only [step]
    rcases epochCases (at_ env ops n) epoch with same | ⟨⟨ready,higher⟩,raised⟩
    · rw [same]; exact seen
    · rw [raised]
      intro m before c accepted owner same
      have low := kept higher m before c accepted owner same
      rw [synced.ctr ready] at low
      exact low
  | clear =>
    intro m before c accepted owner
    exact absurd owner (by simp [step,cmdauthArkivClear])
  | reboot provisioned opens =>
    obtain ⟨-,nvs,stored⟩ := initKeeps env provisioned opens (cold (at_ env ops n).auth.stored (at_ env ops n).nvs)
    exact seenSame seen nvs stored

variable (env ops) in
theorem syncedAt (writes : NvsWrites env) (n : Nat) : Synced (at_ env ops n) :=
  keepsBetween (step env) factory ops (m := 0) (coldSynced _ _) (Nat.zero_le n)
    (fun _ op _ _ _ before => stepSynced writes before op)

variable (env ops) in
theorem seenAt (writes : NvsWrites env) (kept : ∀ n op, ops[n]? = some op → CounterKept env ops n op) (n : Nat) :
    Seen env ops n (at_ env ops n) := by
  induction n with
  | zero => exact fun m before => absurd before (Nat.not_lt_zero m)
  | succ n ih =>
    cases here : ops[n]? with
    | some op => exact stepSeen writes here (kept n op here) (syncedAt env ops writes n) ih
    | none =>
      have same : at_ env ops (n+1) = at_ env ops n := stateEnd (step env) factory here
      rw [same]
      exact seenNext (fun c accepted => Option.some_ne_none _ (accepted.1.symm.trans here)) ih

end Seen

theorem executesOnceWhenCounterKept (env : Keys) (ops : List Op) (writes : NvsWrites env)
    (kept : ∀ n op, ops[n]? = some op → CounterKept env ops n op) : ExecutesOnce env ops := by
  have apart : ∀ m n c c', m < n → AcceptedAt env ops m c → AcceptedAt env ops n c' →
      ¬ SameCommand (ownerAt env ops m) (ownerAt env ops n) c c' := by
    intro m n c c' before first again same
    obtain ⟨opened,genuine,above,-⟩ := acceptedState again
    have synced := syncedAt env ops writes n
    have owner : (at_ env ops n).nvs.ownerPub = some (ownerAt env ops m) := by
      rw [synced.owner opened.ready opened.owner,same.owner]
    have epoch : c.epoch = (at_ env ops n).nvs.keyEpoch.getD 0 := by
      rw [same.epoch,genuine.2.1,synced.epoch opened.ready]
    have low := seenAt env ops writes kept n m before c first owner epoch
    rw [← synced.ctr opened.ready,same.counter] at low
    omega
  intro m n c c' first again same
  rcases Nat.lt_trichotomy m n with before | equal | after
  · exact absurd same (apart m n c c' before first again)
  · exact equal
  · have back : SameCommand (ownerAt env ops n) (ownerAt env ops m) c' c :=
      ⟨same.owner.symm,same.deviceId.symm,same.epoch.symm,same.counter.symm,same.commandId.symm,same.frame.symm⟩
    exact absurd back (apart n m c' c after again first)

/-! One owner bound twice at one epoch: the command of the first binding, still
readable on the chain, passes again in the second. -/

open ArkivSkips (ownerPub ownerAddr older newer crypto iccid)

def keys : Keys :=
  { crypto with
    keccak256 := fun m =>
      if m = ownerPub then bigEndian 12 0x20534c54fd12b8259b4b9371 ++ ownerAddr else crypto.keccak256 m
    validPubkey := fun pub => decide (pub = ownerPub) }

def owner : Pubkey := ⟨ownerPub,by decide⟩

def command (s : ArkivSkips.Signing) (epoch : Nat) : Cmd :=
  ⟨ownerAddr,epoch,s.seq,0,some iccid,some s.commandId,some s.frame,some s.sig⟩

def reboundRun : List Op :=
  [.reboot true true,.bindOwner owner owner 0,.check (some (command older 0)),.check (some (command newer 0)),
    .clear,.bindOwner owner owner 0,.check (some (command older 0))]

theorem reboundAnswers : (outs (step keys) factory reboundRun).drop 2 =
    [.checked (some older.frame),.checked (some newer.frame),.ended true,.ended true,.checked (some older.frame)] := by
  decide +kernel

theorem keysWrite : NvsWrites keys := fun _ _ _ => rfl

theorem executedTwice : NvsWrites keys ∧ ¬ ExecutesOnce keys reboundRun := by
  refine ⟨keysWrite,fun once => ?_⟩
  have out : ∀ n, (outs (step keys) factory reboundRun)[2+n]? = _ := fun n => List.getElem?_drop.symm.trans
    (congrArg (fun l : List Out => l[n]?) reboundAnswers)
  have first : AcceptedAt keys reboundRun 2 (command older 0) := ⟨rfl,_,out 0⟩
  have again : AcceptedAt keys reboundRun 6 (command older 0) := ⟨rfl,_,out 4⟩
  have same : ownerAt keys reboundRun 2 = ownerAt keys reboundRun 6 := by decide +kernel
  have equal := once 2 6 _ _ first again ⟨same,rfl,rfl,rfl,rfl,rfl⟩
  contradiction

def ratchetRun : List Op :=
  [.reboot true true,.bindOwner owner owner 0,.check (some (command older 0)),.check (some (command newer 0)),
    .clear,.bindOwner owner owner 1,.check (some (command older 0))]

theorem ratchetKept : ∀ n op, ratchetRun[n]? = some op → CounterKept keys ratchetRun n op := by
  have epochs : ∀ m < 5, ∀ c, ratchetRun[m]? = some (.check (some c)) → 2 ≤ m ∧ c.epoch = 0 := by
    intro m before c here
    match m with
    | 0 | 1 | 4 => exact absurd here (by simp [ratchetRun])
    | 2 | 3 => cases here; exact ⟨by decide,rfl⟩
    | m+5 => omega
  intro n op here
  match n with
  | 0 | 2 | 3 | 4 | 6 => cases here; trivial
  | 1 =>
    cases here
    intro _ _ _ m before c accepted
    have late := (epochs m (by omega) c accepted.1).1
    omega
  | 5 =>
    cases here
    intro _ _ _ m before c accepted _
    rw [(epochs m before c accepted.1).2]
    decide
  | n+7 => exact absurd here (by simp [ratchetRun])

theorem ratchetOnce : NvsWrites keys ∧ ExecutesOnce keys ratchetRun :=
  ⟨keysWrite,executesOnceWhenCounterKept keys ratchetRun keysWrite ratchetKept⟩

end Web3PiUps.CmdauthArkivLife
