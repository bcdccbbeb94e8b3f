import Web3PiUps.CmdauthArkiv
import Web3PiUps.Lib.StepMachine

/-! The signed command envelope `WAE1` of `cmdauth.c`. A read of the buffer goes
through an access that is `none` outside it. SHA-256 (`none` when PSA fails), the
secp256k1 verification and the read-only `prov` partition are parameters; the
outcome of each NVS write comes with the call. -/
namespace Web3PiUps.Cmdauth
open WupsProtocol ArkivEntity StepMachine
open CmdauthArkiv (littleEndian bigEndian)

abbrev envHeadLen : Nat := 26
abbrev envSigLen : Nat := 64
def envMagic : Bytes := ascii "WAE1"

structure Env where
  opPub : Option Bytes
  epoch : Option UInt32
  sha256 : Bytes → Option Bytes
  verify : (opPub digest sig : Bytes) → Bool

structure Nvs where
  curEpoch : Option UInt32
  lastCtr : Option UInt64
  deriving DecidableEq, Repr

structure Gate where
  ready : Bool
  opPub : Bytes
  curEpoch : UInt32
  lastCtr : UInt64
  nvs : Nvs
  deriving DecidableEq, Repr

def cold (nvs : Nvs) : Gate := ⟨false,List.replicate 64 0,0,0,nvs⟩

def cmdauthInit (env : Env) (provOpens stateOpens seedsEpoch seedsCtr : Bool) (g : Gate) :
    Gate × Bool :=
  if ¬ provOpens then (g,false) else
  match env.opPub with
  | none => (g,false)
  | some opPub =>
    if opPub.length ≠ 65 ∨ opPub.getD 0 0 ≠ 0x04 then (g,false) else
    let g := { g with opPub := opPub.drop 1 }
    match env.epoch with
    | none => (g,false)
    | some provEpoch =>
      if ¬ stateOpens then (g,false) else
      let curEpoch := g.nvs.curEpoch.getD provEpoch
      let lastCtr := g.nvs.lastCtr.getD 0
      let nvs := ⟨if seedsEpoch then some curEpoch else g.nvs.curEpoch,
        if seedsCtr then some lastCtr else g.nvs.lastCtr⟩
      ({ g with curEpoch, lastCtr, nvs, ready := true },true)

def span (buf : Bytes) (start len : Nat) : Option Bytes :=
  if start+len ≤ buf.length then some ((buf.drop start).take len) else none

def rdU16le (buf : Bytes) (p : Nat) : Option UInt16 := do
  let lo ← buf[p]?
  let hi ← buf[p+1]?
  some (lo.toUInt16 ||| (hi.toUInt16 <<< 8))

def rdU32le (buf : Bytes) (p : Nat) : Option UInt32 := do
  let b0 ← buf[p]?
  let b1 ← buf[p+1]?
  let b2 ← buf[p+2]?
  let b3 ← buf[p+3]?
  some (b0.toUInt32 ||| (b1.toUInt32 <<< 8) ||| (b2.toUInt32 <<< 16) ||| (b3.toUInt32 <<< 24))

def rdU64leFrom (buf : Bytes) (p : Nat) : Nat → UInt64 → Option UInt64
  | 0, v => some v
  | i+1, v => do
    let b ← buf[p+i]?
    rdU64leFrom buf p i ((v <<< 8) ||| b.toUInt64)

def rdU64le (buf : Bytes) (p : Nat) : Option UInt64 := rdU64leFrom buf p 8 0

/-- Seconds of `time()`; the clock counts as set only past a plausible date. -/
def expired (now : Int) (expiry : UInt64) : Prop :=
  expiry ≠ 0 ∧ 1700000000 < now ∧ (expiry.toNat : Int) < now
instance (now expiry) : Decidable (expired now expiry) := by unfold expired; infer_instance

structure Frame where
  start : Nat
  len : Nat
  deriving DecidableEq, Repr

/-- `none` is a read outside the buffer; `persists` is the outcome of `persist_last_ctr`. -/
def cmdauthCheckAndStrip (env : Env) (now : Int) (persists : Bool) (g : Gate) (buf : Bytes) :
    Option (Gate × Option Frame) :=
  if ¬ g.ready then some (g,none) else
  if buf.length < envHeadLen+envSigLen then some (g,none) else do
  let magic ← span buf 0 4
  if magic ≠ envMagic then some (g,none) else do
  let epoch ← rdU32le buf 4
  let counter ← rdU64le buf 8
  let expiry ← rdU64le buf 16
  let flen ← rdU16le buf 24
  if envHeadLen+flen.toNat+envSigLen ≠ buf.length then some (g,none) else
  if epoch ≠ g.curEpoch then some (g,none) else do
  let signed ← span buf 0 (envHeadLen+flen.toNat)
  match env.sha256 signed with
  | none => some (g,none)
  | some digest => do
    let sig ← span buf (envHeadLen+flen.toNat) envSigLen
    if env.verify g.opPub digest sig ≠ true then some (g,none) else
    if counter ≤ g.lastCtr then some (g,none) else
    if expired now expiry then some (g,none) else
    let nvs := if persists then { g.nvs with lastCtr := some counter } else g.nvs
    some ({ g with lastCtr := counter, nvs },some ⟨envHeadLen,flen.toNat⟩)

inductive Op where
  | check (now : Int) (persists : Bool) (buf : Bytes)
  | reboot (provOpens stateOpens seedsEpoch seedsCtr : Bool)

inductive Out where
  | fault
  | checked (frame : Option Frame)
  | booted (ok : Bool)
  deriving DecidableEq, Repr

def step (env : Env) (g : Gate) : Op → Gate × Out
  | .check now persists buf =>
    match cmdauthCheckAndStrip env now persists g buf with
    | none => (g,.fault)
    | some (g,frame) => (g,.checked frame)
  | .reboot provOpens stateOpens seedsEpoch seedsCtr =>
    let (g,ok) := cmdauthInit env provOpens stateOpens seedsEpoch seedsCtr (cold g.nvs)
    (g,.booted ok)

theorem spanInside (buf : Bytes) (start len : Nat) (inside : start+len ≤ buf.length) :
    span buf start len = some ((buf.drop start).take len) := by
  rw [span,if_pos inside]

theorem rdU16leInside (buf : Bytes) (p : Nat) (inside : p+2 ≤ buf.length) : ∃ v, rdU16le buf p = some v := by
  have h0 : p < buf.length := by omega
  have h1 : p+1 < buf.length := by omega
  simp [rdU16le,List.getElem?_eq_getElem h0,List.getElem?_eq_getElem h1]

theorem rdU32leInside (buf : Bytes) (p : Nat) (inside : p+4 ≤ buf.length) : ∃ v, rdU32le buf p = some v := by
  have h0 : p < buf.length := by omega
  have h1 : p+1 < buf.length := by omega
  have h2 : p+2 < buf.length := by omega
  have h3 : p+3 < buf.length := by omega
  simp [rdU32le,List.getElem?_eq_getElem h0,List.getElem?_eq_getElem h1,List.getElem?_eq_getElem h2,
    List.getElem?_eq_getElem h3]

theorem rdU64leFromInside {buf : Bytes} {p n : Nat} (v : UInt64) (inside : p+n ≤ buf.length) :
    ∃ w, rdU64leFrom buf p n v = some w := by
  induction n generalizing v with
  | zero => exact ⟨v,rfl⟩
  | succ n ih =>
    have here : p+n < buf.length := by omega
    simp only [rdU64leFrom,List.getElem?_eq_getElem here,bind,Option.bind]
    exact ih _ (by omega)

theorem rdU64leInside (buf : Bytes) (p : Nat) (inside : p+8 ≤ buf.length) : ∃ v, rdU64le buf p = some v :=
  rdU64leFromInside 0 inside

/-! One call either rejects and changes nothing, or accepts a checked envelope. -/

structure Envelope (buf : Bytes) where
  counter : UInt64
  expiry : UInt64
  flen : UInt16
  counterRead : rdU64le buf 8 = some counter
  expiryRead : rdU64le buf 16 = some expiry
  flenRead : rdU16le buf 24 = some flen
  covers : envHeadLen+flen.toNat+envSigLen = buf.length

def Envelope.frame {buf : Bytes} (e : Envelope buf) : Frame := ⟨envHeadLen,e.flen.toNat⟩

/-- The signature is over everything before it, and nothing stands after it. -/
structure Genuine (env : Env) (opPub : Bytes) (curEpoch : UInt32) (buf : Bytes) (frame : Frame) : Prop where
  magic : buf.take 4 = envMagic
  epoch : rdU32le buf 4 = some curEpoch
  start : frame.start = envHeadLen
  len : (rdU16le buf 24).map UInt16.toNat = some frame.len
  covers : envHeadLen+frame.len+envSigLen = buf.length
  signed : ∃ digest, env.sha256 (buf.take (envHeadLen+frame.len)) = some digest ∧
    env.verify opPub digest (buf.drop (envHeadLen+frame.len)) = true

def accept (persists : Bool) (g : Gate) (counter : UInt64) : Gate :=
  { g with lastCtr := counter, nvs := if persists then { g.nvs with lastCtr := some counter } else g.nvs }

theorem checkCases (env : Env) (now : Int) (persists : Bool) (g : Gate) (buf : Bytes) :
    cmdauthCheckAndStrip env now persists g buf = some (g,none) ∨
    ∃ e : Envelope buf, cmdauthCheckAndStrip env now persists g buf = some (accept persists g e.counter,some e.frame) ∧
      g.ready = true ∧ Genuine env g.opPub g.curEpoch buf e.frame ∧ g.lastCtr < e.counter ∧
      ¬ expired now e.expiry := by
  unfold cmdauthCheckAndStrip
  by_cases unready : ¬ g.ready = true
  · rw [if_pos unready]; exact Or.inl rfl
  rw [if_neg unready]
  by_cases short : buf.length < envHeadLen+envSigLen
  · rw [if_pos short]; exact Or.inl rfl
  rw [if_neg short]
  have long : 90 ≤ buf.length := Nat.not_lt.mp short
  obtain ⟨epoch,epochRead⟩ := rdU32leInside buf 4 (by omega)
  obtain ⟨counter,counterRead⟩ := rdU64leInside buf 8 (by omega)
  obtain ⟨expiry,expiryRead⟩ := rdU64leInside buf 16 (by omega)
  obtain ⟨flen,flenRead⟩ := rdU16leInside buf 24 (by omega)
  simp only [spanInside buf 0 4 (by omega),epochRead,counterRead,expiryRead,
    flenRead,bind,Option.bind,List.drop_zero]
  by_cases foreign : buf.take 4 ≠ envMagic
  · rw [if_pos foreign]; exact Or.inl rfl
  rw [if_neg foreign]
  by_cases uneven : envHeadLen+flen.toNat+envSigLen ≠ buf.length
  · rw [if_pos uneven]; exact Or.inl rfl
  rw [if_neg uneven]
  have covers := not_not.mp uneven
  by_cases other : epoch ≠ g.curEpoch
  · rw [if_pos other]; exact Or.inl rfl
  rw [if_neg other]
  simp only [spanInside buf 0 (envHeadLen+flen.toNat) (by omega),List.drop_zero]
  cases hash : env.sha256 (buf.take (envHeadLen+flen.toNat)) with
  | none => exact Or.inl rfl
  | some digest =>
    have tail : (buf.drop (envHeadLen+flen.toNat)).take envSigLen = buf.drop (envHeadLen+flen.toNat) :=
      List.take_of_length_le (by rw [List.length_drop]; omega)
    simp only [spanInside buf (envHeadLen+flen.toNat) envSigLen (by omega),tail]
    by_cases forged : env.verify g.opPub digest (buf.drop (envHeadLen+flen.toNat)) ≠ true
    · rw [if_pos forged]; exact Or.inl rfl
    rw [if_neg forged]
    by_cases replay : counter ≤ g.lastCtr
    · rw [if_pos replay]; exact Or.inl rfl
    rw [if_neg replay]
    by_cases late : expired now expiry
    · rw [if_pos late]; exact Or.inl rfl
    rw [if_neg late]
    refine Or.inr ⟨⟨counter,expiry,flen,counterRead,expiryRead,flenRead,covers⟩,rfl,not_not.mp unready,?_,
      UInt64.not_le.mp replay,late⟩
    exact {
      magic := not_not.mp foreign
      epoch := by rw [epochRead,not_not.mp other]
      start := rfl
      len := by rw [flenRead]; rfl
      covers
      signed := ⟨digest,hash,not_not.mp forged⟩ }

/-! Runs from power-on, over whatever the NVS holds. -/

def Op.persists : Op → Bool
  | .check _ persists _ => persists
  | .reboot .. => true

section Runs
variable (env : Env) (nvs : Nvs) (ops : List Op)

abbrev at_ (n : Nat) : Gate := stateAt (step env) (cold nvs) ops n

def AnswerAt (n : Nat) (buf : Bytes) (frame : Option Frame) : Prop :=
  (∃ now persists, ops[n]? = some (.check now persists buf)) ∧
    (outs (step env) (cold nvs) ops)[n]? = some (.checked frame)

/-- The key and the epoch the device was provisioned and seeded with. -/
structure Pinned (opPub : Bytes) (epoch : UInt32) : Prop where
  key : ∃ prov, env.opPub = some prov ∧ prov.length = 65 ∧ opPub = prov.drop 1
  epoch : ∃ prov, env.epoch = some prov ∧ epoch = nvs.curEpoch.getD prov

structure Guards : Prop where
  inside : ∀ n : Nat, (outs (step env) (cold nvs) ops)[n]? ≠ some .fault
  genuine : ∀ n buf frame, AnswerAt env nvs ops n buf (some frame) →
    ∃ opPub epoch, Pinned env nvs opPub epoch ∧ Genuine env opPub epoch buf frame
  ascending : ∀ m n buf buf' frame frame', m < n → AnswerAt env nvs ops m buf (some frame) →
    AnswerAt env nvs ops n buf' (some frame') →
      ∃ c c', rdU64le buf 8 = some c ∧ rdU64le buf' 8 = some c' ∧ c < c'
  once : ∀ m n buf frame frame', AnswerAt env nvs ops m buf (some frame) →
    AnswerAt env nvs ops n buf (some frame') → m = n
  unchanged : ∀ n buf, AnswerAt env nvs ops n buf none →
    (at_ env nvs ops (n+1)).lastCtr = (at_ env nvs ops n).lastCtr ∧
    (at_ env nvs ops (n+1)).nvs.lastCtr = (at_ env nvs ops n).nvs.lastCtr

end Runs

/-! A ready gate holds the pinned key and epoch, and its counter is the one on record. -/

structure Held (env : Env) (nvs : Nvs) (g : Gate) : Prop where
  seeded : g.nvs.curEpoch = nvs.curEpoch ∨ ∃ prov, env.epoch = some prov ∧ g.nvs.curEpoch = some (nvs.curEpoch.getD prov)
  pinned : g.ready = true → Pinned env nvs g.opPub g.curEpoch
  synced : g.ready = true → g.lastCtr = g.nvs.lastCtr.getD 0

theorem coldHeld (env : Env) (nvs : Nvs) : Held env nvs (cold nvs) :=
  ⟨Or.inl rfl,fun bad => absurd bad Bool.false_ne_true,fun bad => absurd bad Bool.false_ne_true⟩

theorem initCases (env : Env) (provOpens stateOpens seedsEpoch seedsCtr : Bool) (nvs : Nvs) :
    let result := (cmdauthInit env provOpens stateOpens seedsEpoch seedsCtr (cold nvs)).1
    (result.ready = false ∧ result.nvs = nvs) ∨
    ∃ opPub epoch, env.opPub = some opPub ∧ opPub.length = 65 ∧ env.epoch = some epoch ∧
      result = ⟨true,opPub.drop 1,nvs.curEpoch.getD epoch,nvs.lastCtr.getD 0,
        ⟨if seedsEpoch then some (nvs.curEpoch.getD epoch) else nvs.curEpoch,
          if seedsCtr then some (nvs.lastCtr.getD 0) else nvs.lastCtr⟩⟩ := by
  unfold cmdauthInit
  by_cases closed : ¬ provOpens = true
  · rw [if_pos closed]; exact Or.inl ⟨rfl,rfl⟩
  rw [if_neg closed]
  cases key : env.opPub with
  | none => exact Or.inl ⟨rfl,rfl⟩
  | some opPub =>
    dsimp only
    by_cases bad : opPub.length ≠ 65 ∨ opPub.getD 0 0 ≠ 0x04
    · rw [if_pos bad]; exact Or.inl ⟨rfl,rfl⟩
    rw [if_neg bad]
    cases pin : env.epoch with
    | none => exact Or.inl ⟨rfl,rfl⟩
    | some epoch =>
      dsimp only
      by_cases shut : ¬ stateOpens = true
      · rw [if_pos shut]; exact Or.inl ⟨rfl,rfl⟩
      rw [if_neg shut]
      exact Or.inr ⟨opPub,epoch,rfl,not_not.mp (not_or.mp bad).1,rfl,rfl⟩

theorem rebootHeld {env : Env} {nvs : Nvs} {g : Gate} (held : Held env nvs g)
    (provOpens stateOpens seedsEpoch seedsCtr : Bool) :
    Held env nvs (cmdauthInit env provOpens stateOpens seedsEpoch seedsCtr (cold g.nvs)).1 ∧
      (cmdauthInit env provOpens stateOpens seedsEpoch seedsCtr (cold g.nvs)).1.nvs.lastCtr.getD 0 =
        g.nvs.lastCtr.getD 0 := by
  rcases initCases env provOpens stateOpens seedsEpoch seedsCtr g.nvs with ⟨down,same⟩ | ⟨opPub,epoch,key,size,pin,up⟩
  · refine ⟨⟨?_,fun bad => ?_,fun bad => ?_⟩,by rw [same]⟩
    · rw [same]; exact held.seeded
    · exact absurd (down.symm.trans bad) Bool.false_ne_true
    · exact absurd (down.symm.trans bad) Bool.false_ne_true
  · have epochKept : g.nvs.curEpoch.getD epoch = nvs.curEpoch.getD epoch := by
      rcases held.seeded with same | ⟨prov,provided,same⟩
      · rw [same]
      · rw [same,Option.some.inj (provided.symm.trans pin)]
        rfl
    have counterKept : (if seedsCtr then some (g.nvs.lastCtr.getD 0) else g.nvs.lastCtr).getD 0 =
        g.nvs.lastCtr.getD 0 := by
      cases seedsCtr <;> rfl
    rw [up]
    refine ⟨⟨?_,fun _ => ⟨⟨opPub,key,size,rfl⟩,⟨epoch,pin,epochKept⟩⟩,fun _ => counterKept.symm⟩,counterKept⟩
    cases seedsEpoch with
    | false => exact held.seeded
    | true => exact Or.inr ⟨epoch,pin,congrArg some epochKept⟩

theorem acceptHeld {env : Env} {nvs : Nvs} {g : Gate} (held : Held env nvs g) (counter : UInt64) :
    Held env nvs (accept true g counter) :=
  ⟨held.seeded,held.pinned,fun _ => rfl⟩

theorem stepHeld {env : Env} {nvs : Nvs} {g : Gate} (held : Held env nvs g) {op : Op} (writes : op.persists = true) :
    Held env nvs (step env g op).1 ∧ g.nvs.lastCtr.getD 0 ≤ (step env g op).1.nvs.lastCtr.getD 0 := by
  cases op with
  | check now persists buf =>
    have stored : persists = true := writes
    subst stored
    rcases checkCases env now true g buf with same | ⟨e,passed,ready,-,above,-⟩
    · simp only [step,same]
      exact ⟨held,UInt64.le_refl _⟩
    · simp only [step,passed]
      refine ⟨acceptHeld held e.counter,?_⟩
      rw [← held.synced ready]
      exact UInt64.le_of_lt above
  | reboot provOpens stateOpens seedsEpoch seedsCtr =>
    obtain ⟨next,same⟩ := rebootHeld held provOpens stateOpens seedsEpoch seedsCtr
    simp only [step]
    exact ⟨next,by rw [same]; exact UInt64.le_refl _⟩

section Held
variable {env : Env} {nvs : Nvs} {ops : List Op}

theorem answered {n buf frame} (answer : AnswerAt env nvs ops n buf frame) :
    ∃ now persists, ops[n]? = some (.check now persists buf) ∧
      cmdauthCheckAndStrip env now persists (at_ env nvs ops n) buf = some (at_ env nvs ops (n+1),frame) := by
  obtain ⟨⟨now,persists,here⟩,out⟩ := answer
  refine ⟨now,persists,here,?_⟩
  have said := outStep (step env) (cold nvs) here out
  have next : at_ env nvs ops (n+1) = (step env (at_ env nvs ops n) (.check now persists buf)).1 :=
    stateNext (step env) (cold nvs) here
  rcases checkCases env now persists (at_ env nvs ops n) buf with same | ⟨e,passed,-⟩
  · simp only [step,same] at said next
    rw [same,next,Out.checked.inj said]
  · simp only [step,passed] at said next
    rw [passed,next,Out.checked.inj said]

theorem acceptedAt {n buf frame} (answer : AnswerAt env nvs ops n buf (some frame)) :
    ∃ now persists, ∃ e : Envelope buf, ops[n]? = some (.check now persists buf) ∧ frame = e.frame ∧
      (at_ env nvs ops n).ready = true ∧
      Genuine env (at_ env nvs ops n).opPub (at_ env nvs ops n).curEpoch buf frame ∧
      (at_ env nvs ops n).lastCtr < e.counter ∧
      at_ env nvs ops (n+1) = accept persists (at_ env nvs ops n) e.counter := by
  obtain ⟨now,persists,here,result⟩ := answered answer
  rcases checkCases env now persists (at_ env nvs ops n) buf with same | ⟨e,passed,ready,genuine,above,-⟩
  · exact absurd (same.symm.trans result) (by simp)
  · have pair := Prod.mk.inj (Option.some.inj (passed.symm.trans result))
    have framed := Option.some.inj pair.2
    refine ⟨now,persists,e,here,framed.symm,ready,?_,above,pair.1.symm⟩
    rw [← framed]
    exact genuine

theorem neverFaults (n : Nat) : (outs (step env) (cold nvs) ops)[n]? ≠ some .fault := by
  intro out
  cases here : ops[n]? with
  | none => rw [outAt,here] at out; exact absurd out (by simp)
  | some op =>
    have said := outStep (step env) (cold nvs) here out
    cases op with
    | check now persists buf =>
      change _ = (step env (at_ env nvs ops n) _).2 at said
      rcases checkCases env now persists (at_ env nvs ops n) buf with same | ⟨e,passed,-⟩
      · simp only [step,same] at said
        exact absurd said (by simp)
      · simp only [step,passed] at said
        exact absurd said (by simp)
    | reboot provOpens stateOpens seedsEpoch seedsCtr => exact absurd said (by simp [step])

variable (writes : ∀ op ∈ ops, op.persists = true)
include writes

theorem heldAt (n : Nat) : Held env nvs (at_ env nvs ops n) :=
  keepsBetween (step env) (cold nvs) ops (m := 0) (coldHeld env nvs) (Nat.zero_le n)
    (fun _ op _ _ here before => (stepHeld before (writes op (List.mem_of_getElem? here))).1)

theorem storedAscends {m n : Nat} (ordered : m ≤ n) :
    (at_ env nvs ops m).nvs.lastCtr.getD 0 ≤ (at_ env nvs ops n).nvs.lastCtr.getD 0 := by
  refine keepsBetween (step env) (cold nvs) ops
    (P := fun g => (at_ env nvs ops m).nvs.lastCtr.getD 0 ≤ g.nvs.lastCtr.getD 0) (UInt64.le_refl _) ordered ?_
  intro k op _ _ here below
  exact UInt64.le_trans below (stepHeld (heldAt writes k) (writes op (List.mem_of_getElem? here))).2

theorem countersAscend {m n buf buf' frame frame'} (before : m < n)
    (first : AnswerAt env nvs ops m buf (some frame)) (second : AnswerAt env nvs ops n buf' (some frame')) :
    ∃ c c', rdU64le buf 8 = some c ∧ rdU64le buf' 8 = some c' ∧ c < c' := by
  obtain ⟨now,persists,e,here,-,-,-,-,next⟩ := acceptedAt first
  obtain ⟨-,-,e',-,-,ready,-,above,-⟩ := acceptedAt second
  have stored : persists = true := writes _ (List.mem_of_getElem? here)
  subst stored
  refine ⟨e.counter,e'.counter,e.counterRead,e'.counterRead,?_⟩
  have grown : e.counter ≤ (at_ env nvs ops n).lastCtr := calc
    e.counter = (at_ env nvs ops (m+1)).nvs.lastCtr.getD 0 := by rw [next]; rfl
    _ ≤ (at_ env nvs ops n).nvs.lastCtr.getD 0 := storedAscends writes before
    _ = (at_ env nvs ops n).lastCtr := ((heldAt writes n).synced ready).symm
  exact UInt64.lt_of_le_of_lt grown above

theorem acceptedOnce {m n buf frame frame'} (first : AnswerAt env nvs ops m buf (some frame))
    (second : AnswerAt env nvs ops n buf (some frame')) : m = n := by
  have apart : ∀ {c c' : UInt64}, rdU64le buf 8 = some c → rdU64le buf 8 = some c' → ¬ c < c' := by
    intro c c' read again less
    rw [Option.some.inj (read.symm.trans again)] at less
    exact UInt64.lt_irrefl _ less
  rcases Nat.lt_trichotomy m n with before | equal | after
  · obtain ⟨c,c',read,again,less⟩ := countersAscend writes before first second
    exact absurd less (apart read again)
  · exact equal
  · obtain ⟨c,c',read,again,less⟩ := countersAscend writes after second first
    exact absurd less (apart read again)

end Held

theorem guards (env : Env) (nvs : Nvs) (ops : List Op) (writes : ∀ op ∈ ops, op.persists = true) :
    Guards env nvs ops where
  inside := neverFaults
  genuine n buf frame answer := by
    obtain ⟨-,-,e,-,-,ready,genuine,-,-⟩ := acceptedAt answer
    exact ⟨_,_,(heldAt writes n).pinned ready,genuine⟩
  ascending _ _ _ _ _ _ before first second := countersAscend writes before first second
  once _ _ _ _ _ first second := acceptedOnce writes first second
  unchanged n buf answer := by
    obtain ⟨now,persists,-,result⟩ := answered answer
    rcases checkCases env now persists (at_ env nvs ops n) buf with same | ⟨e,passed,-⟩
    · have kept := (Prod.mk.inj (Option.some.inj (same.symm.trans result))).1
      exact ⟨by rw [← kept],by rw [← kept]⟩
    · exact absurd (passed.symm.trans result) (by simp)

/-! Two envelopes of one operator, with a reboot and a replay between them. -/

def operator : Bytes :=
  0x04 :: bigEndian 32 0x0aa04e0032537b0524e59407d608ff870a73b44fbeb6c732e3af53927417d989 ++
    bigEndian 32 0xbf4e1fb70797664b9d6e9fb1a8f08f00d5831ef3091f265bc17ec39bb618b39e

structure Signing where
  counter : Nat
  expiry : Nat
  frame : Bytes
  digest : Bytes
  sig : Bytes

def Signing.signed (s : Signing) : Bytes :=
  envMagic ++ littleEndian 4 3 ++ littleEndian 8 s.counter ++ littleEndian 8 s.expiry ++
    littleEndian 2 s.frame.length ++ s.frame

def Signing.envelope (s : Signing) : Bytes := s.signed ++ s.sig

def first : Signing where
  counter := 1
  expiry := 0
  frame := [1,0]
  digest := bigEndian 32 0x060c984692aa592da655a490be40cbb52a0870e170f16fb07c10adbbf88312c8
  sig := bigEndian 32 0x5b7c5676693887d78c429bbdea265ce9388b748d5be1590e9052f77b1ea3780f ++
    bigEndian 32 0x69a9c89246df1893dae3185ad0571e43970e86ea1bbc4c957abffc8f8971b10b

def second : Signing where
  counter := 2
  expiry := 1800000000
  frame := [2,0]
  digest := bigEndian 32 0x0acb06fdf6e22d1563311fc0477bb235c5cafbbe90b1eb1ad62f32fdc1599a49
  sig := bigEndian 32 0xc86d1b05378dcaa026c8b521a626c51230587976bd0e6f2f314936c459664fae ++
    bigEndian 32 0x204a388f7a34d288ed78b872d67591883c76f147deb7fd78a115eb34eb7a7f5a

def operated : Env where
  opPub := some operator
  epoch := some 3
  sha256 m := if m = first.signed then some first.digest else
    if m = second.signed then some second.digest else none
  verify opPub digest sig := opPub = operator.drop 1 ∧
    (digest = first.digest ∧ sig = first.sig ∨ digest = second.digest ∧ sig = second.sig)

def replayRun : List Op :=
  [.reboot true true true true,.check 0 true first.envelope,.reboot true true true true,
    .check 0 true first.envelope,.check 1790000000 true second.envelope]

theorem replayGuarded :
    (outs (step operated) (cold ⟨none,none⟩) replayRun) =
      [.booted true,.checked (some ⟨26,2⟩),.booted true,.checked none,.checked (some ⟨26,2⟩)] ∧
    Guards operated ⟨none,none⟩ replayRun :=
  ⟨by decide +kernel,guards operated ⟨none,none⟩ replayRun (by decide)⟩

end Web3PiUps.Cmdauth
