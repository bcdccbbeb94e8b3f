import Web3PiUps.ArkivEntity

/-! The command check of `cmdauth_arkiv.c` and the state it reads. Keccak-256,
the secp256k1 verification and the NVS write are parameters: the check asks the
first two for values and ignores the outcome of the third. A null pointer in a
command is `none`; `Stored` is the progress that NVS keeps. -/
namespace Web3PiUps.CmdauthArkiv
open WupsProtocol ArkivEntity

inductive ClaimState where
  | unclaimed | mqttClaimed | claimed
  deriving DecidableEq, Repr

structure Stored where
  lastCtr : Option Nat
  curBlock : Option Nat
  deriving DecidableEq, Repr

structure Auth where
  ready : Bool
  claimState : ClaimState
  haveOwner : Bool
  ownerPub : Bytes
  ownerAddr : Bytes
  keyEpoch : Nat
  lastCtr : Nat
  curBlock : Nat
  stored : Stored
  deriving DecidableEq, Repr

structure Cmd where
  writer : Bytes
  epoch : Nat
  counter : Nat
  block : Nat
  deviceId : Option Bytes
  commandId : Option Bytes
  frame : Option Bytes
  sig : Option Bytes
  deriving DecidableEq, Repr

structure Env where
  keccak256 : Bytes → Bytes
  verify : (ownerPub digest sig : Bytes) → Bool
  persistProgress : Stored → (ctr block : Nat) → Stored × Bool

abbrev arkivCommandIdLen : Nat := 36
def arkivCmdBindTag : Bytes := ascii "w3pups-cmd"
def eip191Prefix : Bytes := ascii "\x19Ethereum Signed Message:\n32"

def littleEndian (width n : Nat) : Bytes :=
  (List.range width).map (fun i => UInt8.ofNat ((n >>> (8*i)) &&& 0xFF))

def bigEndian (width n : Nat) : Bytes := (littleEndian width n).reverse

def bindDigest (env : Env) (deviceId commandId frame : Bytes) (epoch counter : Nat) : Bytes :=
  env.keccak256 (arkivCmdBindTag ++ [0] ++ deviceId ++ littleEndian 4 epoch ++ littleEndian 8 counter ++
    commandId.take arkivCommandIdLen ++ frame)

def signedDigest (env : Env) (digest : Bytes) : Bytes := env.keccak256 (eip191Prefix ++ digest)

def accept (env : Env) (a : Auth) (cmd : Cmd) : Auth :=
  let curBlock := if cmd.block > a.curBlock then cmd.block else a.curBlock
  { a with lastCtr := cmd.counter, curBlock := curBlock,
           stored := (env.persistProgress a.stored cmd.counter curBlock).1 }

def cmdauthArkivCheck (env : Env) (a : Auth) (cmd : Option Cmd) : Auth × Option Bytes :=
  if ¬ a.ready then (a,none) else
  if a.claimState ≠ .claimed ∨ ¬ a.haveOwner then (a,none) else
  match cmd with
  | none => (a,none)
  | some cmd =>
    match cmd.frame, cmd.sig with
    | some frame, some sig =>
      if frame.length = 0 then (a,none) else
      if cmd.writer ≠ a.ownerAddr then (a,none) else
      if cmd.epoch ≠ a.keyEpoch then (a,none) else
      if cmd.counter ≤ a.lastCtr then (a,none) else
      if cmd.block < a.curBlock then (a,none) else
      match cmd.deviceId, cmd.commandId with
      | some deviceId, some commandId =>
        if commandId.length ≠ arkivCommandIdLen then (a,none) else
        let digest := bindDigest env deviceId commandId frame cmd.epoch cmd.counter
        if env.verify a.ownerPub (signedDigest env digest) sig ≠ true then (a,none) else
        (accept env a cmd,some frame)
      | _, _ => (a,none)
    | _, _ => (a,none)

/-! What is accepted: a command of the owner, above the baseline, on a device
that takes commands at all. -/

structure Opened (a : Auth) (block : Nat) : Prop where
  ready : a.ready = true
  claimed : a.claimState = .claimed
  owner : a.haveOwner = true
  block : a.curBlock ≤ block

def Signed (env : Env) (a : Auth) (cmd : Cmd) (deviceId commandId frame sig : Bytes) : Prop :=
  commandId.length = arkivCommandIdLen ∧ env.verify a.ownerPub
    (signedDigest env (bindDigest env deviceId commandId frame cmd.epoch cmd.counter)) sig = true
instance (env a cmd deviceId commandId frame sig) :
    Decidable (Signed env a cmd deviceId commandId frame sig) := by unfold Signed; infer_instance

def Genuine (env : Env) (a : Auth) (cmd : Cmd) : Prop :=
  cmd.writer = a.ownerAddr ∧ cmd.epoch = a.keyEpoch ∧
    match cmd.deviceId, cmd.commandId, cmd.frame, cmd.sig with
    | some deviceId, some commandId, some frame, some sig =>
      frame.length ≠ 0 ∧ Signed env a cmd deviceId commandId frame sig
    | _, _, _, _ => False
instance (env a cmd) : Decidable (Genuine env a cmd) := by
  unfold Genuine
  cases cmd.deviceId <;> cases cmd.commandId <;> cases cmd.frame <;> cases cmd.sig <;> infer_instance

theorem missingRejected (env : Env) (a : Auth) {cmd : Cmd} (missing : cmd.deviceId = none ∨
    cmd.commandId = none ∨ cmd.frame = none ∨ cmd.sig = none) :
    cmdauthArkivCheck env a (some cmd) = (a,none) ∧ ¬ Genuine env a cmd := by
  obtain ⟨writer,epoch,counter,block,deviceId,commandId,frame,sig⟩ := cmd
  dsimp only at missing
  rcases missing with rfl | rfl | rfl | rfl
  · refine ⟨?_,fun h => h.2.2⟩
    cases frame <;> cases sig <;> simp only [cmdauthArkivCheck,ite_self]
  · refine ⟨?_,fun h => by cases deviceId <;> exact h.2.2⟩
    cases frame <;> cases sig <;> cases deviceId <;> simp only [cmdauthArkivCheck,ite_self]
  · exact ⟨by simp only [cmdauthArkivCheck,ite_self],
      fun h => by cases deviceId <;> cases commandId <;> exact h.2.2⟩
  · refine ⟨?_,fun h => by cases deviceId <;> cases commandId <;> cases frame <;> exact h.2.2⟩
    cases frame <;> simp only [cmdauthArkivCheck,ite_self]

theorem checkCases (env : Env) (a : Auth) (cmd : Cmd) :
    (cmdauthArkivCheck env a (some cmd) = (a,none) ∧
      ¬ (Opened a cmd.block ∧ Genuine env a cmd ∧ a.lastCtr < cmd.counter)) ∨
    (∃ frame, cmd.frame = some frame ∧ cmdauthArkivCheck env a (some cmd) = (accept env a cmd,some frame) ∧
      Opened a cmd.block ∧ Genuine env a cmd ∧ a.lastCtr < cmd.counter) := by
  by_cases missing : cmd.deviceId = none ∨ cmd.commandId = none ∨ cmd.frame = none ∨ cmd.sig = none
  · obtain ⟨rejected,none⟩ := missingRejected env a missing
    exact Or.inl ⟨rejected,fun h => none h.2.1⟩
  obtain ⟨writer,epoch,counter,block,deviceId,commandId,frame,sig⟩ := cmd
  simp only [not_or,← ne_eq,Option.ne_none_iff_exists'] at missing
  obtain ⟨⟨deviceId,rfl⟩,⟨commandId,rfl⟩,⟨frame,rfl⟩,⟨sig,rfl⟩⟩ := missing
  unfold cmdauthArkivCheck
  dsimp only
  -- one guard of the source after the other: each refuses what lacks one part
  by_cases idle : ¬ a.ready = true
  · rw [if_pos idle]; exact Or.inl ⟨rfl,fun h => idle h.1.ready⟩
  rw [if_neg idle]
  by_cases unbound : a.claimState ≠ .claimed ∨ ¬ a.haveOwner = true
  · rw [if_pos unbound]
    exact Or.inl ⟨rfl,fun h => unbound.elim (· h.1.claimed) (· h.1.owner)⟩
  rw [if_neg unbound]
  by_cases empty : frame.length = 0
  · rw [if_pos empty]; exact Or.inl ⟨rfl,fun h => h.2.1.2.2.1 empty⟩
  rw [if_neg empty]
  by_cases stranger : writer ≠ a.ownerAddr
  · rw [if_pos stranger]; exact Or.inl ⟨rfl,fun h => stranger h.2.1.1⟩
  rw [if_neg stranger]
  by_cases old : epoch ≠ a.keyEpoch
  · rw [if_pos old]; exact Or.inl ⟨rfl,fun h => old h.2.1.2.1⟩
  rw [if_neg old]
  by_cases replay : counter ≤ a.lastCtr
  · rw [if_pos replay]; exact Or.inl ⟨rfl,fun h => Nat.not_lt.mpr replay h.2.2⟩
  rw [if_neg replay]
  by_cases stale : block < a.curBlock
  · rw [if_pos stale]; exact Or.inl ⟨rfl,fun h => Nat.not_lt.mpr h.1.block stale⟩
  rw [if_neg stale]
  by_cases short : commandId.length ≠ arkivCommandIdLen
  · rw [if_pos short]; exact Or.inl ⟨rfl,fun h => short h.2.1.2.2.2.1⟩
  rw [if_neg short]
  by_cases forged : env.verify a.ownerPub
      (signedDigest env (bindDigest env deviceId commandId frame epoch counter)) sig ≠ true
  · rw [if_pos forged]; exact Or.inl ⟨rfl,fun h => forged h.2.1.2.2.2.2⟩
  rw [if_neg forged]
  rw [not_or,not_not,not_not] at unbound
  rw [not_not] at idle stranger old short forged
  exact Or.inr ⟨frame,rfl,rfl,⟨idle,unbound.1,unbound.2,Nat.not_lt.mp stale⟩,
    ⟨stranger,old,empty,short,forged⟩,Nat.not_le.mp replay⟩

end Web3PiUps.CmdauthArkiv
