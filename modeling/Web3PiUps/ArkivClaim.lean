import Web3PiUps.ArkivSweep
import Web3PiUps.CmdauthArkivLife

/-! The owner binding of `arkiv_claim.c` and the prompt slot of `wups_link.c` that it waits
on. Two tasks touch the slot, the claim task and the receive task, which also runs the menu
of `oled_menu.c`; a step is one access of one of them to one variable. The slot's variables
are `s_trust_nonce`, `s_trust_result`, `s_trust_armed` and the semaphore `s_trust_sig`. -/
namespace Web3PiUps.ArkivClaim
open WupsProtocol ArkivEntity ArkivSweep CmdauthArkiv CmdauthArkivLife

abbrev arkivCcBytes : Nat := 6
abbrev arkivCcBits : Nat := 44
abbrev arkivFpWords : Nat := 4
abbrev trustModeFingerprint : UInt8 := 0
abbrev trustModeClaimCode : UInt8 := 1
abbrev trustModeMenu : UInt8 := 2
abbrev trustModeWallet : UInt8 := 3
abbrev trustConfirmSecs : UInt8 := 5
abbrev exitHoldSecs : UInt8 := 2
abbrev resultConfirmed : UInt8 := 0
abbrev resultTimeout : UInt8 := 1

/-- The table of `bip39_wordlist.h` is the parameter `bip39Words`. -/
structure ClaimEnv extends Keys where
  devicePub : Pubkey
  bip39Words : Nat → Bytes

def bitAt (data : Bytes) (b : Nat) : Nat := ((data.getD (b >>> 3) 0).toNat >>> (7 - (b &&& 7))) &&& 1

def take11 (data : Bytes) (bitOff : Nat) : Nat :=
  (List.range 11).foldl (fun v i => (v <<< 1) ||| bitAt data (bitOff+i)) 0

def bip39WordsFromBits (env : ClaimEnv) (data : Bytes) (nwords : Nat) : Bytes :=
  [0x20].intercalate ((List.range nwords).map fun w => env.bip39Words (take11 data (w*11)))

def bip39PackTopBits (digest : Bytes) (nbits : Nat) : Bytes :=
  (List.range ((nbits+7)/8)).map fun k => UInt8.ofNat ((List.range 8).foldl (fun byte i =>
    if 8*k+i < nbits then byte ||| (bitAt digest (8*k+i) <<< (7-i)) else byte) 0)

/-- `claim_code_regen`: the canonical claim code for a fresh `s_boot_nonce`. -/
def claimCodeRegen (env : ClaimEnv) (bootNonce : Bytes) : Bytes :=
  bip39PackTopBits (env.keccak256 (env.devicePub ++ bootNonce)) arkivCcBits

def hexDigit (n : Nat) : UInt8 := if n < 10 then UInt8.ofNat (0x30+n) else UInt8.ofNat (0x57+n)

def ownerFingerprint (env : ClaimEnv) (ownerAddr iccid : Bytes) : Bytes :=
  let d := env.keccak256 (ownerAddr ++ iccid)
  let at_ i := (d.getD i 0).toNat
  let chk := ((at_ 5 &&& 0x0F) <<< 12) ||| (at_ 6 <<< 4) ||| (at_ 7 >>> 4)
  bip39WordsFromBits env d arkivFpWords ++ ascii " chk:" ++
    [12,8,4,0].map fun shift => hexDigit ((chk >>> shift) &&& 0x0F)

def claimBindingDigest (env : ClaimEnv) (iccid ownerPub cc : Bytes) (epoch : UInt32) (encPub : Bytes) : Bytes :=
  env.keccak256 (ascii "w3pups-claim" ++ [0] ++ iccid ++ ownerPub ++ cc ++ littleEndian 4 epoch.toNat ++ encPub)

def toPubkey (pub : Bytes) : Option Pubkey := if size : pub.length = pubLen then some ⟨pub,size⟩ else none

def decodeOwnerPub (hex : Bytes) : Option Pubkey :=
  match hexDecode hex pubLen with
  | some pub => toPubkey pub
  | none =>
    match hexDecode hex 65 with
    | some (0x04::pub) => toPubkey pub
    | _ => none

structure Candidate where
  ownerPub : Pubkey
  encPub : Pubkey
  epoch : UInt32
  deriving DecidableEq, Repr

/-- `try_candidate` up to its prompt; `cc` is `s_local_cc`. -/
def verifyCandidate (env : ClaimEnv) (iccid cc : Bytes) (e : Json) : Option Candidate := do
  let did ← strAttr (attrs e "stringAttributes") (ascii "device_id")
  let opubHex ← strAttr (attrs e "stringAttributes") (ascii "owner_pub")
  let epubHex ← strAttr (attrs e "stringAttributes") (ascii "enc_pub")
  let ccHex ← strAttr (attrs e "stringAttributes") (ascii "claim_code")
  let sigHex ← strAttr (attrs e "stringAttributes") (ascii "sig")
  let writer ← writerOf e
  if did ≠ iccid then none else
  let ccB ← hexDecode ccHex arkivCcBytes
  if ccB ≠ cc then none else
  let ownerPub ← decodeOwnerPub opubHex
  let encPub ← decodeOwnerPub epubHex
  let sig ← hexDecode sigHex 64
  let writerB ← hexDecode writer 20
  if env.validPubkey ownerPub ≠ true ∨ env.validPubkey encPub ≠ true then none else
  let epoch := UInt32.ofNat (numAttr (attrs e "numericAttributes") (ascii "epoch"))
  let digest := claimBindingDigest env iccid ownerPub cc epoch encPub
  if env.verify ownerPub (signedDigest env.toEnv digest) sig ≠ true then none else
  if writerB ≠ pubToAddr env.toKeys ownerPub then none else
  some ⟨ownerPub,encPub,epoch⟩

structure Slot where
  nonce : UInt32
  result : UInt8
  armed : Bool
  sig : Bool
  deriving DecidableEq, Repr

structure Prompt where
  mode : UInt8
  confirmSecs : UInt8
  nonce : UInt32
  text : Bytes
  deriving DecidableEq, Repr

def Prompt.arms (p : Prompt) : Bool := p.confirmSecs > 0 ∧ p.mode ≠ trustModeMenu

/-- Where a task stands in `wups_link_trust_prompt`. -/
inductive Stage where
  | nonce
  | result
  | armed
  | drain
  | send
  deriving DecidableEq, Repr

def wupsLinkTrustPrompt (s : Slot) (p : Prompt) : Stage → Slot × Option Stage
  | .nonce => if p.arms then ({ s with nonce := p.nonce },some .result) else (s,some .send)
  | .result => ({ s with result := resultTimeout },some .armed)
  | .armed => ({ s with armed := true },some .drain)
  | .drain => ({ s with sig := false },some .send)
  | .send => (s,none)

/-- The claim task; from `waitArmed` to `reading` it is in `wups_link_trust_wait`. -/
inductive ClaimPlace where
  | polling
  | showing (p : Prompt) (stage : Stage)
  | prompting (c : Candidate) (p : Prompt) (stage : Stage)
  | waitArmed (c : Candidate) (p : Prompt)
  | waitNonce (c : Candidate) (p : Prompt)
  | waiting (c : Candidate) (p : Prompt)
  | expired
  | reading (c : Candidate) (p : Prompt)
  | binding (c : Candidate) (p : Prompt)
  deriving DecidableEq, Repr

/-- The receive task. -/
inductive RxPlace where
  | idle
  | prompting (p : Prompt) (stage : Stage)
  | checkNonce (nonce : UInt32) (result : UInt8)
  | store (nonce : UInt32) (result : UInt8)
  | disarm
  | give
  deriving DecidableEq, Repr

inductive Event where
  | sent (p : Prompt)
  | returned (nonce : UInt32) (result : UInt8)
  | bound (cc : Bytes) (c : Candidate)
  deriving DecidableEq, Repr

/-- `log`, newest first: the prompts sent to the RP2040, the results it returned, and the
calls of `cmdauth_arkiv_bind_owner` with the claim code of that moment. -/
structure System where
  slot : Slot
  localCc : Bytes
  claim : ClaimPlace
  rx : RxPlace
  log : List Event
  deriving DecidableEq, Repr

def System.boot : System := ⟨⟨0,0,false,false⟩,List.replicate arkivCcBytes 0,.polling,.idle,[]⟩

inductive Input where
  | regen (bootNonce : Bytes)
  | showClaimCode (nonce : UInt32) (text : Bytes)
  | candidate (e : Json) (nonce : UInt32)
  | claim (timedOut : Bool)
  | menu (wallet : Bool) (nonce : UInt32) (text : Bytes)
  | result (nonce : UInt32) (result : UInt8)
  | rx

def fingerprintPrompt (env : ClaimEnv) (iccid : Bytes) (ownerPub : Pubkey) (nonce : UInt32) : Prompt :=
  ⟨trustModeFingerprint,trustConfirmSecs,nonce,ownerFingerprint env (pubToAddr env.toKeys ownerPub) iccid⟩

def claimNext (s : System) (timedOut : Bool) : System :=
  match s.claim with
  | .polling => s
  | .showing p stage =>
    match wupsLinkTrustPrompt s.slot p stage with
    | (slot,some stage) => { s with slot := slot, claim := .showing p stage }
    | (slot,none) => { s with slot := slot, claim := .polling, log := .sent p::s.log }
  | .prompting c p stage =>
    match wupsLinkTrustPrompt s.slot p stage with
    | (slot,some stage) => { s with slot := slot, claim := .prompting c p stage }
    | (slot,none) => { s with slot := slot, claim := .waitArmed c p, log := .sent p::s.log }
  | .waitArmed c p => { s with claim := if s.slot.armed then .waitNonce c p else .polling }
  | .waitNonce c p => { s with claim := if s.slot.nonce = p.nonce then .waiting c p else .polling }
  | .waiting c p =>
    if s.slot.sig then { s with slot := { s.slot with sig := false }, claim := .reading c p }
    else if timedOut then { s with claim := .expired }
    else s
  | .expired => { s with slot := { s.slot with armed := false }, claim := .polling }
  | .reading c p => { s with claim := if s.slot.result = resultConfirmed then .binding c p else .polling }
  | .binding c _ => { s with claim := .polling, log := .bound s.localCc c::s.log }

def rxNext (s : System) : System :=
  match s.rx with
  | .idle => s
  | .prompting p stage =>
    match wupsLinkTrustPrompt s.slot p stage with
    | (slot,some stage) => { s with slot := slot, rx := .prompting p stage }
    | (slot,none) => { s with slot := slot, rx := .idle, log := .sent p::s.log }
  | .checkNonce nonce result => { s with rx := if nonce = s.slot.nonce then .store nonce result else .idle }
  | .store _ result => { s with slot := { s.slot with result := result }, rx := .disarm }
  | .disarm => { s with slot := { s.slot with armed := false }, rx := .give }
  | .give => { s with slot := { s.slot with sig := true }, rx := .idle }

def step (env : ClaimEnv) (iccid : Bytes) (s : System) : Input → System
  | .regen bootNonce => if s.claim = .polling then { s with localCc := claimCodeRegen env bootNonce } else s
  | .showClaimCode nonce text =>
    if s.claim = .polling then { s with claim := .showing ⟨trustModeClaimCode,0,nonce,text⟩ .nonce } else s
  | .candidate e nonce =>
    if s.claim = .polling then
      match verifyCandidate env iccid s.localCc e with
      | some c => { s with claim := .prompting c (fingerprintPrompt env iccid c.ownerPub nonce) .nonce }
      | none => s
    else s
  | .claim timedOut => claimNext s timedOut
  | .menu wallet nonce text =>
    if s.rx = .idle then
      { s with
        rx := .prompting ⟨if wallet then trustModeWallet else trustModeMenu,exitHoldSecs,nonce,text⟩ .nonce }
    else s
  | .result nonce result =>
    if s.rx = .idle then
      { s with rx := if s.slot.armed then .checkNonce nonce result else .idle, log := .returned nonce result::s.log }
    else s
  | .rx => rxNext s

def runFrom (env : ClaimEnv) (iccid : Bytes) (s : System) (inputs : List Input) : System :=
  inputs.foldl (step env iccid) s

/-- The checks of one entity, with `cc` the device's claim code. -/
structure Claims (env : ClaimEnv) (iccid cc : Bytes) (e : Json) (c : Candidate) : Prop where
  device : strAttr (attrs e "stringAttributes") (ascii "device_id") = some iccid
  code : ∃ hex, strAttr (attrs e "stringAttributes") (ascii "claim_code") = some hex ∧
    hexDecode hex arkivCcBytes = some cc
  owner : ∃ hex, strAttr (attrs e "stringAttributes") (ascii "owner_pub") = some hex ∧
    decodeOwnerPub hex = some c.ownerPub
  enc : ∃ hex, strAttr (attrs e "stringAttributes") (ascii "enc_pub") = some hex ∧
    decodeOwnerPub hex = some c.encPub
  epoch : c.epoch = UInt32.ofNat (numAttr (attrs e "numericAttributes") (ascii "epoch"))
  signed : ∃ hex sig, strAttr (attrs e "stringAttributes") (ascii "sig") = some hex ∧ hexDecode hex 64 = some sig ∧
    env.verify c.ownerPub
      (signedDigest env.toEnv (claimBindingDigest env iccid c.ownerPub cc c.epoch c.encPub)) sig = true
  writer : ∃ hex, writerOf e = some hex ∧ hexDecode hex 20 = some (pubToAddr env.toKeys c.ownerPub)

theorem verifyClaims {env : ClaimEnv} {iccid cc : Bytes} {e : Json} {c : Candidate}
    (verified : verifyCandidate env iccid cc e = some c) : Claims env iccid cc e c := by
  simp only [verifyCandidate,bind,Option.bind_eq_some_iff,Option.ite_none_left_eq_some,not_not] at verified
  obtain ⟨did,device,opubHex,owner,epubHex,enc,ccHex,code,sigHex,sig,writer,creator,ours,verified⟩ := verified
  obtain ⟨ccB,codeRead,sameCode,ownerPub,ownerRead,encPub,encRead,sigB,sigRead,verified⟩ := verified
  obtain ⟨writerB,writerRead,_,signed,sameWriter,same⟩ := verified
  subst ours sameCode sameWriter
  obtain rfl := Option.some.inj same
  exact ⟨device,⟨ccHex,code,codeRead⟩,⟨opubHex,owner,ownerRead⟩,⟨epubHex,enc,encRead⟩,rfl,
    ⟨sigHex,sigB,sig,sigRead,signed⟩,⟨writer,creator,writerRead⟩⟩

/-- Among the inputs is the entity that claims `c`, taken up with the prompt nonce `nonce` when
the device's claim code was `cc`. -/
def Posed (env : ClaimEnv) (iccid : Bytes) (inputs : List Input) (cc : Bytes) (c : Candidate) (nonce : UInt32) : Prop :=
  ∃ before e after, inputs = before ++ .candidate e nonce::after ∧
    (runFrom env iccid .boot before).claim = .polling ∧ (runFrom env iccid .boot before).localCc = cc ∧
    Claims env iccid cc e c

/-- The RP2040 has confirmed the prompt that showed the fingerprint of the entity's own owner. -/
def Gated (env : ClaimEnv) (iccid : Bytes) (inputs : List Input) (log : List Event) (cc : Bytes) (c : Candidate) : Prop :=
  ∃ nonce, Posed env iccid inputs cc c nonce ∧ .sent (fingerprintPrompt env iccid c.ownerPub nonce) ∈ log ∧
    .returned nonce resultConfirmed ∈ log

theorem gatedMore {env : ClaimEnv} {iccid : Bytes} {inputs : List Input} {log : List Event} {cc : Bytes} {c : Candidate}
    (gated : Gated env iccid inputs log cc c) (more : Event) : Gated env iccid inputs (more::log) cc c := by
  obtain ⟨nonce,posed,sent,returned⟩ := gated
  exact ⟨nonce,posed,.tail _ sent,.tail _ returned⟩

/-- The prompt whose answer the claim task will take from the slot as it stands. -/
def openPrompt : ClaimPlace → Option Prompt
  | .prompting _ p .armed => some p
  | .prompting _ p .drain => some p
  | .prompting _ p .send => some p
  | .waitArmed _ p => some p
  | .waitNonce _ p => some p
  | .waiting _ p => some p
  | .reading _ p => some p
  | _ => none

/-- The receive task is about to leave a confirmation of one prompt in the slot while the
claim task waits for the answer to another. -/
def foreign (s : System) : Input → Bool
  | .rx =>
    match s.rx, openPrompt s.claim with
    | .store nonce result, some p => result == resultConfirmed && p.nonce != nonce
    | _, _ => false
  | _ => false

def OwnRun (env : ClaimEnv) (iccid : Bytes) (s : System) : List Input → Prop
  | [] => True
  | i::rest => foreign s i = false ∧ OwnRun env iccid (step env iccid s i) rest

def decideOwnRun (env : ClaimEnv) (iccid : Bytes) : (s : System) → (inputs : List Input) →
    Decidable (OwnRun env iccid s inputs)
  | _, [] => .isTrue trivial
  | s, i::rest =>
    have := decideOwnRun env iccid (step env iccid s i) rest
    inferInstanceAs (Decidable (foreign s i = false ∧ OwnRun env iccid (step env iccid s i) rest))
instance (env iccid s inputs) : Decidable (OwnRun env iccid s inputs) := decideOwnRun env iccid s inputs

/-- The candidate the claim task is at, with its prompt. -/
def candidateAt : ClaimPlace → Option (Candidate × Prompt)
  | .prompting c p _ => some (c,p)
  | .waitArmed c p => some (c,p)
  | .waitNonce c p => some (c,p)
  | .waiting c p => some (c,p)
  | .reading c p => some (c,p)
  | .binding c p => some (c,p)
  | _ => none

def sentAt : ClaimPlace → Option Prompt
  | .waitArmed _ p => some p
  | .waitNonce _ p => some p
  | .waiting _ p => some p
  | .reading _ p => some p
  | .binding _ p => some p
  | _ => none

def resultAt : RxPlace → Option (UInt32 × UInt8)
  | .checkNonce nonce result => some (nonce,result)
  | .store nonce result => some (nonce,result)
  | _ => none

structure Kept (env : ClaimEnv) (iccid : Bytes) (inputs : List Input) (s : System) : Prop where
  claims : ∀ c p, candidateAt s.claim = some (c,p) →
    Posed env iccid inputs s.localCc c p.nonce ∧ p = fingerprintPrompt env iccid c.ownerPub p.nonce
  sent : ∀ p, sentAt s.claim = some p → .sent p ∈ s.log
  returned : ∀ nonce result, resultAt s.rx = some (nonce,result) → .returned nonce result ∈ s.log
  approved : ∀ p, openPrompt s.claim = some p → s.slot.result = resultConfirmed →
    .returned p.nonce resultConfirmed ∈ s.log
  binding : ∀ c p, s.claim = .binding c p → .returned p.nonce resultConfirmed ∈ s.log
  bound : ∀ cc c, .bound cc c ∈ s.log → Gated env iccid inputs s.log cc c

section
variable {env : ClaimEnv} {iccid : Bytes} {inputs : List Input}

theorem keptBoot : Kept env iccid inputs .boot :=
  ⟨by nofun,by nofun,by nofun,by nofun,by nofun,by nofun⟩

variable {s : System}

theorem keptLog (kept : Kept env iccid inputs s) {e : Event} (notBound : ∀ cc c, e ≠ .bound cc c) :
    Kept env iccid inputs { s with log := e::s.log } where
  claims := kept.claims
  sent p at_ := .tail _ (kept.sent p at_)
  returned nonce result at_ := .tail _ (kept.returned nonce result at_)
  approved p at_ zero := .tail _ (kept.approved p at_ zero)
  binding c p at_ := .tail _ (kept.binding c p at_)
  bound cc c found := by
    rcases List.mem_cons.mp found with now | before
    · exact absurd now.symm (notBound cc c)
    · exact gatedMore (kept.bound cc c before) e

theorem keptSlot (kept : Kept env iccid inputs s) {l : Slot}
    (confirmed : l.result = resultConfirmed → s.slot.result = resultConfirmed) :
    Kept env iccid inputs { s with slot := l } :=
  ⟨kept.claims,kept.sent,kept.returned,fun p at_ zero => kept.approved p at_ (confirmed zero),kept.binding,kept.bound⟩

theorem keptRxPlace (kept : Kept env iccid inputs s) {rx : RxPlace}
    (returned : ∀ nonce result, resultAt rx = some (nonce,result) → .returned nonce result ∈ s.log) :
    Kept env iccid inputs { s with rx := rx } :=
  ⟨kept.claims,kept.sent,returned,kept.approved,kept.binding,kept.bound⟩

theorem keptPolling (kept : Kept env iccid inputs s) : Kept env iccid inputs { s with claim := .polling } :=
  ⟨by nofun,by nofun,kept.returned,by nofun,by nofun,kept.bound⟩

/-- A step to another place with the same candidate, whose answer was already awaited. -/
theorem keptWaits (kept : Kept env iccid inputs s) {c : Candidate} {p : Prompt} {claim : ClaimPlace}
    (candidate : candidateAt s.claim = some (c,p)) (awaited : openPrompt s.claim = some p)
    (sent : sentAt s.claim = some p) (candidate' : candidateAt claim = some (c,p)) (awaited' : openPrompt claim = some p)
    (sent' : sentAt claim = some p) : Kept env iccid inputs { s with claim := claim } where
  claims c' p' at_ := by
    obtain ⟨rfl,rfl⟩ := Prod.mk.inj (Option.some.inj (candidate'.symm.trans at_))
    exact kept.claims _ _ candidate
  sent p' at_ := by
    obtain rfl := Option.some.inj (sent'.symm.trans at_)
    exact kept.sent _ sent
  returned := kept.returned
  approved p' at_ := by
    obtain rfl := Option.some.inj (awaited'.symm.trans at_)
    exact kept.approved _ awaited
  binding c' p' at_ := by
    rw [show claim = .binding c' p' from at_] at awaited'
    exact nomatch awaited'
  bound := kept.bound

theorem promptResult (slot : Slot) (p : Prompt) (stage : Stage)
    (zero : (wupsLinkTrustPrompt slot p stage).1.result = resultConfirmed) : slot.result = resultConfirmed := by
  cases stage with
  | nonce =>
    simp only [wupsLinkTrustPrompt] at zero
    split at zero <;> exact zero
  | result => exact absurd (show resultTimeout = resultConfirmed from zero) (by decide)
  | armed | drain | send => exact zero

theorem keptRx (kept : Kept env iccid inputs s) (own : foreign s .rx = false) : Kept env iccid inputs (rxNext s) := by
  unfold rxNext
  cases at_ : s.rx with
  | idle => exact kept
  | prompting p stage =>
    have moved := keptSlot kept (promptResult s.slot p stage)
    simp only
    split
    · rename_i slot stage' next
      rw [next] at moved
      exact keptRxPlace moved (by nofun)
    · rename_i slot next
      rw [next] at moved
      exact keptRxPlace (keptLog moved (by nofun)) (by nofun)
  | checkNonce nonce result =>
    have returned := kept.returned nonce result (by rw [at_]; rfl)
    refine keptRxPlace kept fun nonce' result' found => ?_
    split at found
    · obtain ⟨rfl,rfl⟩ := Prod.mk.inj (Option.some.inj found)
      exact returned
    · exact nomatch found
  | store nonce result =>
    have returned := kept.returned nonce result (by rw [at_]; rfl)
    refine ⟨kept.claims,kept.sent,by nofun,fun p awaited zero => ?_,kept.binding,kept.bound⟩
    have confirmed : result = resultConfirmed := zero
    have awaited : openPrompt s.claim = some p := awaited
    subst confirmed
    simp only [foreign,at_,awaited,beq_self_eq_true,Bool.true_and,bne_eq_false_iff_eq] at own
    exact own ▸ returned
  | disarm => exact keptRxPlace (keptSlot (l := { s.slot with armed := false }) kept id) (by nofun)
  | give => exact keptRxPlace (keptSlot (l := { s.slot with sig := true }) kept id) (by nofun)

theorem fingerprintArms (ownerPub : Pubkey) (nonce : UInt32) :
    (fingerprintPrompt env iccid ownerPub nonce).arms = true := by
  rfl

/-- The claim task's own steps through `wups_link_trust_prompt`. -/
theorem keptPrompting (kept : Kept env iccid inputs s) {c : Candidate} {p : Prompt} {stage : Stage}
    (at_ : s.claim = .prompting c p stage) (timedOut : Bool) : Kept env iccid inputs (claimNext s timedOut) := by
  obtain ⟨claims,shown⟩ := kept.claims c p (by rw [at_]; rfl)
  have arms : p.arms = true := by rw [shown]; exact fingerprintArms ..
  have here : ∀ c' p', some (c,p) = some (c',p') →
      Posed env iccid inputs s.localCc c' p'.nonce ∧ p' = fingerprintPrompt env iccid c'.ownerPub p'.nonce := by
    intro c' p' same
    obtain ⟨rfl,rfl⟩ := Prod.mk.inj (Option.some.inj same)
    exact ⟨claims,shown⟩
  cases stage with
  | nonce =>
    simp only [claimNext,at_,wupsLinkTrustPrompt,arms,if_true]
    exact ⟨here,by nofun,kept.returned,by nofun,by nofun,kept.bound⟩
  | result =>
    simp only [claimNext,at_,wupsLinkTrustPrompt]
    exact ⟨here,by nofun,kept.returned,fun _ _ zero => absurd (show resultTimeout = resultConfirmed from zero) (by decide),
      by nofun,kept.bound⟩
  | armed =>
    simp only [claimNext,at_,wupsLinkTrustPrompt]
    exact ⟨here,by nofun,kept.returned,fun p' awaited zero => kept.approved p' (by rw [at_]; exact awaited) zero,
      by nofun,kept.bound⟩
  | drain =>
    simp only [claimNext,at_,wupsLinkTrustPrompt]
    exact ⟨here,by nofun,kept.returned,fun p' awaited zero => kept.approved p' (by rw [at_]; exact awaited) zero,
      by nofun,kept.bound⟩
  | send =>
    simp only [claimNext,at_,wupsLinkTrustPrompt]
    refine ⟨here,fun p' sent => ?_,fun nonce result found => .tail _ (kept.returned nonce result found),
      fun p' awaited zero => .tail _ (kept.approved p' (by rw [at_]; exact awaited) zero),by nofun,?_⟩
    · obtain rfl := Option.some.inj sent
      exact .head _
    · exact (keptLog kept (e := .sent p) (by nofun)).bound

theorem keptClaim (kept : Kept env iccid inputs s) (timedOut : Bool) : Kept env iccid inputs (claimNext s timedOut) := by
  cases at_ : s.claim with
  | polling => simp only [claimNext,at_]; exact kept
  | showing p stage =>
    have moved := keptSlot kept (promptResult s.slot p stage)
    simp only [claimNext,at_]
    split
    · rename_i slot stage' next
      rw [next] at moved
      exact ⟨by nofun,by nofun,moved.returned,by nofun,by nofun,moved.bound⟩
    · rename_i slot next
      rw [next] at moved
      exact keptPolling (keptLog moved (e := .sent p) (by nofun))
  | prompting c p stage => exact keptPrompting kept at_ timedOut
  | waitArmed c p =>
    simp only [claimNext,at_]
    split
    · exact keptWaits kept (by rw [at_]; rfl) (by rw [at_]; rfl) (by rw [at_]; rfl) rfl rfl rfl
    · exact keptPolling kept
  | waitNonce c p =>
    simp only [claimNext,at_]
    split
    · exact keptWaits kept (by rw [at_]; rfl) (by rw [at_]; rfl) (by rw [at_]; rfl) rfl rfl rfl
    · exact keptPolling kept
  | waiting c p =>
    simp only [claimNext,at_]
    split
    · exact keptWaits (keptSlot (l := { s.slot with sig := false }) kept id) (c := c) (p := p)
        (by rw [at_]; rfl) (by rw [at_]; rfl) (by rw [at_]; rfl) rfl rfl rfl
    · split
      · exact ⟨by nofun,by nofun,kept.returned,by nofun,by nofun,kept.bound⟩
      · exact kept
  | expired =>
    simp only [claimNext,at_]
    exact keptPolling (keptSlot (l := { s.slot with armed := false }) kept id)
  | reading c p =>
    have claims := kept.claims c p (by rw [at_]; rfl)
    have sent := kept.sent p (by rw [at_]; rfl)
    simp only [claimNext,at_]
    split
    · rename_i confirmed
      have approved := kept.approved p (by rw [at_]; rfl) confirmed
      refine ⟨fun c' p' same => ?_,fun p' same => ?_,kept.returned,by nofun,fun c' p' same => ?_,kept.bound⟩
      · obtain ⟨rfl,rfl⟩ := Prod.mk.inj (Option.some.inj same)
        exact claims
      · obtain rfl := Option.some.inj same
        exact sent
      · obtain ⟨rfl,rfl⟩ := ClaimPlace.binding.inj same
        exact approved
    · exact keptPolling kept
  | binding c p =>
    obtain ⟨claims,shown⟩ := kept.claims c p (by rw [at_]; rfl)
    have sent := kept.sent p (by rw [at_]; rfl)
    have returned := kept.binding c p at_
    have gated : Gated env iccid inputs s.log s.localCc c := ⟨p.nonce,claims,shown ▸ sent,returned⟩
    simp only [claimNext,at_]
    refine ⟨by nofun,by nofun,fun nonce result found => .tail _ (kept.returned nonce result found),by nofun,
      by nofun,fun cc c' found => ?_⟩
    rcases List.mem_cons.mp found with now | before
    · obtain ⟨rfl,rfl⟩ := Event.bound.inj now
      exact gatedMore gated _
    · exact gatedMore (kept.bound cc c' before) _

theorem keptStep (kept : Kept env iccid inputs s) {i : Input} {before after : List Input}
    (run : s = runFrom env iccid .boot before) (arrived : inputs = before ++ i::after) (own : foreign s i = false) :
    Kept env iccid inputs (step env iccid s i) := by
  cases i with
  | regen bootNonce =>
    simp only [step]
    split
    · rename_i polling
      refine ⟨fun c p at_ => ?_,kept.sent,kept.returned,kept.approved,kept.binding,kept.bound⟩
      have at_ : candidateAt s.claim = some (c,p) := at_
      rw [polling] at at_
      exact nomatch at_
    · exact kept
  | showClaimCode nonce text =>
    simp only [step]
    split
    · exact ⟨by nofun,by nofun,kept.returned,by nofun,by nofun,kept.bound⟩
    · exact kept
  | candidate e nonce =>
    simp only [step]
    split
    · rename_i polling
      split
      · rename_i c verified
        refine ⟨fun c' p' same => ?_,by nofun,kept.returned,by nofun,by nofun,kept.bound⟩
        obtain ⟨rfl,rfl⟩ := Prod.mk.inj (Option.some.inj same)
        exact ⟨⟨before,e,after,arrived,run ▸ polling,by rw [run],verifyClaims verified⟩,rfl⟩
      · exact kept
    · exact kept
  | claim timedOut => exact keptClaim kept timedOut
  | menu wallet nonce text =>
    simp only [step]
    split
    · exact keptRxPlace kept (by nofun)
    · exact kept
  | result nonce result =>
    simp only [step]
    split
    · refine keptRxPlace (keptLog kept (e := .returned nonce result) (by nofun)) fun nonce' result' found => ?_
      split at found
      · obtain ⟨rfl,rfl⟩ := Prod.mk.inj (Option.some.inj found)
        exact .head _
      · exact nomatch found
    · exact kept
  | rx => exact keptRx kept own

theorem runConcat (before : List Input) (i : Input) :
    runFrom env iccid .boot (before ++ [i]) = step env iccid (runFrom env iccid .boot before) i :=
  List.foldl_concat ..

theorem keptRun (kept : Kept env iccid inputs s) (before : List Input) {rest : List Input}
    (run : s = runFrom env iccid .boot before) (split : inputs = before ++ rest) (own : OwnRun env iccid s rest) :
    Kept env iccid inputs (runFrom env iccid s rest) := by
  induction rest generalizing s before with
  | nil => exact kept
  | cons i rest ih =>
    exact ih (keptStep kept run split own.1) (before ++ [i]) (by rw [runConcat,run]) (by rw [split]; simp) own.2

/-! Two tasks that keep apart never meet so: the menu arms no screen of its own from the
claim's nonce to its answer, and the claim task writes no nonce while a checked result waits
to be stored. -/

def afterNonce : ClaimPlace → Option Prompt
  | .prompting _ _ .nonce => none
  | .prompting _ p _ => some p
  | .waitArmed _ p => some p
  | .waitNonce _ p => some p
  | .waiting _ p => some p
  | .reading _ p => some p
  | _ => none

def apart (s : System) : Input → Bool
  | .rx =>
    match s.rx with
    | .prompting p .nonce => !(p.arms && (afterNonce s.claim).isSome)
    | _ => true
  | .claim _ =>
    match s.claim, s.rx with
    | .prompting _ _ .nonce, .store _ _ => false
    | _, _ => true
  | _ => true

def ApartRun (env : ClaimEnv) (iccid : Bytes) (s : System) : List Input → Prop
  | [] => True
  | i::rest => apart s i = true ∧ ApartRun env iccid (step env iccid s i) rest

/-- The slot is the claim's from its nonce on. -/
def Mine (s : System) : Prop :=
  ∀ p, afterNonce s.claim = some p → s.slot.nonce = p.nonce ∧ ∀ n r, s.rx = .store n r → n = p.nonce

theorem openAfterNonce {claim : ClaimPlace} {p : Prompt} (awaited : openPrompt claim = some p) :
    afterNonce claim = some p := by
  cases claim with
  | prompting c p' stage => cases stage <;> first | exact awaited | exact nomatch awaited
  | polling | showing | waitArmed | waitNonce | waiting | expired | reading | binding => exact awaited

theorem mineOwn (mine : Mine s) (i : Input) : foreign s i = false := by
  cases i with
  | rx =>
    cases at_ : s.rx with
    | store nonce result =>
      cases awaited : openPrompt s.claim with
      | none => simp only [foreign,at_,awaited]
      | some p =>
        obtain ⟨_,stored⟩ := mine p (openAfterNonce awaited)
        simp [foreign,at_,awaited,stored nonce result at_]
    | idle | prompting | checkNonce | disarm | give => simp only [foreign,at_]
  | _ => rfl

theorem promptNonce (slot : Slot) (p : Prompt) {stage : Stage} (later : stage ≠ .nonce ∨ p.arms = false) :
    (wupsLinkTrustPrompt slot p stage).1.nonce = slot.nonce := by
  cases stage with
  | nonce =>
    have inert := later.resolve_left (not_not.mpr rfl)
    simp [wupsLinkTrustPrompt,inert]
  | result | armed | drain | send => rfl

theorem mineRx (mine : Mine s) (kept : apart s .rx = true) : Mine (rxNext s) := by
  intro p after
  cases at_ : s.rx with
  | idle => rw [rxNext,at_] at after ⊢; exact mine p after
  | prompting q stage =>
    have here : afterNonce s.claim = some p := by
      simp only [rxNext,at_] at after
      split at after <;> exact after
    have later : stage ≠ .nonce ∨ q.arms = false := by
      by_cases first : stage = .nonce
      · right
        subst first
        simpa [apart,at_,here] using kept
      · exact .inl first
    have nonce := promptNonce s.slot q later
    simp only [rxNext,at_]
    split
    · rename_i slot stage' next
      rw [next] at nonce
      exact ⟨nonce.trans (mine p here).1,by nofun⟩
    · rename_i slot next
      rw [next] at nonce
      exact ⟨nonce.trans (mine p here).1,by nofun⟩
  | checkNonce n r =>
    simp only [rxNext,at_] at after ⊢
    refine ⟨(mine p after).1,fun n' r' stored => ?_⟩
    split at stored
    · rename_i same
      obtain ⟨rfl,rfl⟩ := RxPlace.store.inj stored
      exact same.trans (mine p after).1
    · exact nomatch stored
  | store n r =>
    simp only [rxNext,at_] at after ⊢
    exact ⟨(mine p after).1,by nofun⟩
  | disarm =>
    simp only [rxNext,at_] at after ⊢
    exact ⟨(mine p after).1,by nofun⟩
  | give =>
    simp only [rxNext,at_] at after ⊢
    exact ⟨(mine p after).1,by nofun⟩

theorem mineKept (mine : Mine s) {t : System} (claim : ∀ p, afterNonce t.claim = some p → afterNonce s.claim = some p)
    (nonce : t.slot.nonce = s.slot.nonce) (rx : ∀ n r, t.rx = .store n r → s.rx = .store n r) : Mine t := by
  intro p after
  obtain ⟨own,stored⟩ := mine p (claim p after)
  exact ⟨nonce.trans own,fun n r at_ => stored n r (rx n r at_)⟩

theorem mineClaim (kept : Kept env iccid inputs s) (mine : Mine s) (timedOut : Bool)
    (apart_ : apart s (.claim timedOut) = true) : Mine (claimNext s timedOut) := by
  cases at_ : s.claim with
  | polling => simp only [claimNext,at_]; exact mine
  | showing p stage =>
    simp only [claimNext,at_]
    split <;> exact fun p after => nomatch after
  | prompting c p stage =>
    have arms : p.arms = true := by
      rw [(kept.claims c p (by rw [at_]; rfl)).2]; exact fingerprintArms ..
    cases stage with
    | nonce =>
      simp only [claimNext,at_,wupsLinkTrustPrompt,arms,if_true]
      intro p' after
      obtain rfl := Option.some.inj after
      refine ⟨rfl,fun n r stored => ?_⟩
      have stored : s.rx = .store n r := stored
      simp [apart,at_,stored] at apart_
    | result | armed | drain | send =>
      simp only [claimNext,at_,wupsLinkTrustPrompt]
      exact mineKept mine (fun p' after => by rw [at_]; exact after) rfl fun _ _ stored => stored
  | waitArmed c p =>
    simp only [claimNext,at_]
    split
    · exact mineKept mine (fun p' after => by rw [at_]; exact after) rfl fun _ _ stored => stored
    · exact fun p after => nomatch after
  | waitNonce c p =>
    simp only [claimNext,at_]
    split
    · exact mineKept mine (fun p' after => by rw [at_]; exact after) rfl fun _ _ stored => stored
    · exact fun p after => nomatch after
  | waiting c p =>
    simp only [claimNext,at_]
    split
    · exact mineKept mine (fun p' after => by rw [at_]; exact after) rfl fun _ _ stored => stored
    · split
      · exact fun p after => nomatch after
      · exact mine
  | expired => simp only [claimNext,at_]; exact fun p after => nomatch after
  | reading c p =>
    simp only [claimNext,at_]
    split <;> exact fun p after => nomatch after
  | binding c p => simp only [claimNext,at_]; exact fun p after => nomatch after

theorem mineStep (kept : Kept env iccid inputs s) (mine : Mine s) {i : Input} (apart_ : apart s i = true) :
    Mine (step env iccid s i) := by
  cases i with
  | rx => exact mineRx mine apart_
  | claim timedOut => exact mineClaim kept mine timedOut apart_
  | regen | showClaimCode =>
    simp only [step]
    split
    · first
        | exact mineKept mine (fun _ after => after) rfl fun _ _ stored => stored
        | exact fun p after => nomatch after
    · exact mine
  | candidate e nonce =>
    simp only [step]
    split
    · split
      · exact fun p after => nomatch after
      · exact mine
    · exact mine
  | menu wallet nonce text =>
    simp only [step]
    split
    · exact mineKept mine (fun _ after => after) rfl (by nofun)
    · exact mine
  | result nonce result =>
    simp only [step]
    split
    · refine mineKept mine (fun _ after => after) rfl fun n r stored => ?_
      split at stored <;> exact nomatch stored
    · exact mine

theorem apartOwn (kept : Kept env iccid inputs s) (mine : Mine s) (before : List Input) {rest : List Input}
    (run : s = runFrom env iccid .boot before) (split : inputs = before ++ rest) (apart_ : ApartRun env iccid s rest) :
    OwnRun env iccid s rest := by
  induction rest generalizing s before with
  | nil => trivial
  | cons i rest ih =>
    have own := mineOwn mine i
    exact ⟨own,ih (keptStep kept run split own) (mineStep kept mine apart_.1) (before ++ [i])
      (by rw [runConcat,run]) (by rw [split]; simp) apart_.2⟩

end

/-- Every bind has passed the physical gate. -/
def AllGated (env : ClaimEnv) (iccid : Bytes) (inputs : List Input) : Prop :=
  ∀ cc c, .bound cc c ∈ (runFrom env iccid .boot inputs).log →
    Gated env iccid inputs (runFrom env iccid .boot inputs).log cc c

theorem boundGated (env : ClaimEnv) (iccid : Bytes) (inputs : List Input) (own : OwnRun env iccid .boot inputs) :
    AllGated env iccid inputs :=
  (keptRun keptBoot [] rfl rfl own).bound

theorem apartGated (env : ClaimEnv) (iccid : Bytes) (inputs : List Input) (apart_ : ApartRun env iccid .boot inputs) :
    AllGated env iccid inputs :=
  (keptRun keptBoot [] rfl rfl (apartOwn keptBoot (by nofun) [] rfl rfl apart_)).bound

/-! One claim, and the fund-address screen of the menu pushed while it waits: the owner's
fingerprint is off the screen, and what the RP2040 returns for the menu binds the owner. -/

open ArkivSkips (hexText attr iccid ownerPub ownerAddr)

def devicePub : Pubkey :=
  ⟨bigEndian 32 0x5833d74c7db92afa875fe6d33351c92c3dbc81a9f38f32d8af68d828fe353fbd ++
    bigEndian 32 0x1bbbcfeb2d1a3ebacd332a99264ac00ee9902423c39ded15e5e6b8b099504d0c,by decide⟩

def encPub : Pubkey :=
  ⟨bigEndian 32 0x3ec073f1c76cd04c2f5b5d1d1e6fc59f42240e7bea8e73519edc966d2c86c2e9 ++
    bigEndian 32 0x68704548b80d421d2846ae1dba3206b7b690c03d0fdfbfa61df3ca69ff96da8c,by decide⟩

def bootNonce : Bytes := (List.range 16).map UInt8.ofNat
def claimCode : Bytes := bigEndian 6 0x8cdfcb50cda0
def claimDigest : Bytes := bigEndian 32 0xfe6416205131d87c6e62bb3dd9c69daef10042b3d16d75139da4fb69a06ae02b
def claimSigned : Bytes := bigEndian 32 0x370ba0a07d48776a5b58d0a6bed317d8412468e3016d994aad30af7244c6f024
def claimSig : Bytes :=
  bigEndian 32 0x5557868be779632cf9a46c31c79b5882a0bbf85bc8063c8a89d8708d81178abe ++
    bigEndian 32 0x391c9fd6e3a8f5260e6f0528feee4b37915d0b26f4dde529f4fa2f914bc23589

/-- Keccak-256, the verification and the word list, at what these runs ask of them. -/
def gate : ClaimEnv :=
  { keys with
    keccak256 := fun m =>
      if m = devicePub.1 ++ bootNonce then
        bigEndian 32 0x8cdfcb50cdaf52462a16ddf95de270fa7afddaa553d06be1ba95f7ddcc8113b4
      else if m = ascii "w3pups-claim" ++ [0] ++ iccid ++ ownerPub ++ claimCode ++ [0,0,0,0] ++ encPub.1 then claimDigest
      else if m = eip191Prefix ++ claimDigest then claimSigned
      else if m = ownerAddr ++ iccid then
        bigEndian 32 0xd5f1817d111f82205a723873a0215851d22d380d701bee66f16c3d04d4dec881
      else keys.keccak256 m
    verify := fun pub digest sig => decide (pub = ownerPub ∧ digest = claimSigned ∧ sig = claimSig)
    validPubkey := fun pub => decide (pub = ownerPub ∨ pub = encPub.1)
    devicePub := devicePub
    bip39Words := fun i =>
      if i = 1711 then ascii "sting" else if i = 1120 then ascii "metal" else if i = 762 then ascii "gap"
      else if i = 273 then ascii "captain" else [] }

def claimEntity : Json :=
  .object [(ascii "creator",.string (hexText ownerAddr)),
    (ascii "stringAttributes",.array
      [attr "device_id" (.string iccid),attr "owner_pub" (.string (hexText ownerPub)),
        attr "enc_pub" (.string (hexText encPub)),attr "claim_code" (.string (hexText claimCode)),
        attr "sig" (.string (hexText claimSig))]),
    (ascii "numericAttributes",.array [attr "epoch" (.number 0)])]

/-- Up to the wait: the claim code, the candidate, and its prompt with the nonce 7. -/
def waitingRun : List Input := [.regen bootNonce,.candidate claimEntity 7] ++ List.replicate 7 (.claim false)

def answered (nonce : UInt32) : List Input :=
  [.result nonce resultConfirmed,.rx,.rx,.rx,.rx,.claim false,.claim false,.claim false]

def fundAddress : Bytes := hexText (bigEndian 20 0x5a67b879eab14606955251b2026b11c587d706c1)

def confirmedRun : List Input := waitingRun ++ answered 7

def swappedRun : List Input := waitingRun ++ [.menu true 9 fundAddress,.rx,.rx,.rx,.rx,.rx] ++ answered 9

def candidate : Candidate := ⟨owner,encPub,0⟩

theorem confirmedLog : (runFrom gate iccid .boot confirmedRun).log =
    [.bound claimCode candidate,.returned 7 resultConfirmed,.sent (fingerprintPrompt gate iccid owner 7)] := by
  decide +kernel

theorem boundGatedConfirmed : AllGated gate iccid confirmedRun ∧
    .bound claimCode candidate ∈ (runFrom gate iccid .boot confirmedRun).log :=
  ⟨boundGated gate iccid confirmedRun (by decide +kernel),by rw [confirmedLog]; exact .head _⟩

theorem swappedLog : (runFrom gate iccid .boot swappedRun).log =
    [.bound claimCode candidate,.returned 9 resultConfirmed,.sent ⟨trustModeWallet,exitHoldSecs,9,fundAddress⟩,
      .sent (fingerprintPrompt gate iccid owner 7)] := by
  decide +kernel

/-- The confirmation of the menu's nonce binds the owner. -/
theorem swappedApproval : ¬∀ (env : ClaimEnv) (iccid : Bytes) (inputs : List Input), AllGated env iccid inputs := by
  intro gated
  have owned := gated gate iccid swappedRun claimCode candidate
  rw [swappedLog] at owned
  obtain ⟨nonce,-,sent,returned⟩ := owned (.head _)
  simp only [List.mem_cons,reduceCtorEq,false_or,Event.returned.injEq,and_true,List.not_mem_nil,or_false] at returned
  subst returned
  simp only [List.mem_cons,reduceCtorEq,false_or,Event.sent.injEq,List.not_mem_nil,or_false] at sent
  rcases sent with wallet | other
  · exact absurd (congrArg Prompt.mode wallet) (by decide)
  · exact absurd (congrArg Prompt.nonce other) (by decide)

end Web3PiUps.ArkivClaim
