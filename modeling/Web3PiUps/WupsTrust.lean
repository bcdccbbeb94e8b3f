import Web3PiUps.OledMenu

/-! The two consumers of `ui.trust_result`: the claim task, which blocks in
`wups_link_trust_wait`, and the menu, which the receive task itself calls. A step is one
access of one of the two tasks to one variable of the prompt slot. -/
namespace Web3PiUps.WupsTrust
open WupsProtocol ArkivClaim OledMenu

/-- The payload of a trust result, as far as the dispatch reads it. -/
structure TrustResult where
  version : UInt8
  nonce : UInt32
  result : UInt8
  deriving DecidableEq, Repr

/-- What `wups_link_trust_wait` returns. -/
inductive Outcome where
  | ok (result : UInt8)
  | timeout
  | invalidState
  deriving DecidableEq, Repr

inductive Consumer where
  | claim
  | menu
  deriving DecidableEq, Repr

/-- `waitArmed` to `reading` are in `wups_link_trust_wait`. -/
inductive ClaimPlace where
  | idle
  | showing (p : Prompt) (stage : Stage)
  | prompting (p : Prompt) (stage : Stage)
  | waitArmed (p : Prompt)
  | waitNonce (p : Prompt)
  | waiting (p : Prompt)
  | expired
  | reading (p : Prompt)
  deriving DecidableEq, Repr

inductive RxPlace where
  | idle
  | prompting (p : Prompt) (stage : Stage) (rest : List Prompt)
  | checkArmed (r : TrustResult)
  | checkNonce (r : TrustResult)
  | store (r : TrustResult)
  | disarm (r : TrustResult)
  | give (r : TrustResult)
  | hand (r : TrustResult)
  deriving DecidableEq, Repr

/-- A prompt of the claim task is `sent` when `wups_link_send` has it; a result is
`delivered` when the dispatch is done with it; a wait has `returned` when its outcome is
settled, which for a timeout is before it disarms the slot. -/
inductive Event where
  | sent (p : Prompt)
  | opened (nonce : UInt32)
  | delivered (r : TrustResult) (consumer : Consumer)
  | returned (nonce : UInt32) (outcome : Outcome)
  deriving DecidableEq, Repr

/-- `log`, newest first. -/
structure System where
  slot : Slot
  menu : Menu
  claim : ClaimPlace
  rx : RxPlace
  log : List Event
  deriving DecidableEq, Repr

def System.boot : System := ⟨⟨0,0,false,false⟩,.boot,.idle,.idle,[]⟩

inductive Input where
  | showClaimCode (nonce : UInt32) (text : Bytes)
  | confirm (nonce : UInt32) (text : Bytes)
  | claim (timedOut : Bool)
  | button (e : ButtonEvent)
  | result (r : TrustResult)
  | rx

def claimNext (s : System) (timedOut : Bool) : System :=
  match s.claim with
  | .idle => s
  | .showing p stage =>
    match wupsLinkTrustPrompt s.slot p stage with
    | (slot,some stage) => { s with slot := slot, claim := .showing p stage }
    | (slot,none) => { s with slot := slot, claim := .idle, log := .sent p::s.log }
  | .prompting p stage =>
    match wupsLinkTrustPrompt s.slot p stage with
    | (slot,some stage) => { s with slot := slot, claim := .prompting p stage }
    | (slot,none) => { s with slot := slot, claim := .waitArmed p, log := .sent p::s.log }
  | .waitArmed p =>
    if s.slot.armed then { s with claim := .waitNonce p }
    else { s with claim := .idle, log := .returned p.nonce .invalidState::s.log }
  | .waitNonce p =>
    if s.slot.nonce = p.nonce then { s with claim := .waiting p }
    else { s with claim := .idle, log := .returned p.nonce .invalidState::s.log }
  | .waiting p =>
    if s.slot.sig then { s with slot := { s.slot with sig := false }, claim := .reading p }
    else if timedOut then { s with claim := .expired, log := .returned p.nonce .timeout::s.log }
    else s
  | .expired => { s with slot := { s.slot with armed := false }, claim := .idle }
  | .reading p => { s with claim := .idle, log := .returned p.nonce (.ok s.slot.result)::s.log }

/-- The receive task goes through a list of prompts, or is `idle` at its end. -/
def prompts : List Prompt → RxPlace
  | [] => .idle
  | p::rest => .prompting p .nonce rest

def rxNext (s : System) : System :=
  match s.rx with
  | .idle => s
  | .prompting p stage rest =>
    match wupsLinkTrustPrompt s.slot p stage with
    | (slot,some stage) => { s with slot := slot, rx := .prompting p stage rest }
    | (slot,none) => { s with slot := slot, rx := prompts rest }
  | .checkArmed r => { s with rx := if s.slot.armed then .checkNonce r else .hand r }
  | .checkNonce r => { s with rx := if r.nonce = s.slot.nonce then .store r else .hand r }
  | .store r => { s with slot := { s.slot with result := r.result }, rx := .disarm r }
  | .disarm r => { s with slot := { s.slot with armed := false }, rx := .give r }
  | .give r => { s with slot := { s.slot with sig := true }, rx := .idle, log := .delivered r .claim::s.log }
  | .hand r => { s with menu := oledMenuOnTrustResult s.menu r.nonce, rx := .idle, log := .delivered r .menu::s.log }

def step (s : System) : Input → System
  | .showClaimCode nonce text =>
    if s.claim = .idle then { s with claim := .showing ⟨trustModeClaimCode,0,nonce,text⟩ .nonce } else s
  | .confirm nonce text =>
    if s.claim = .idle then
      { s with claim := .prompting ⟨trustModeFingerprint,trustConfirmSecs,nonce,text⟩ .nonce }
    else s
  | .claim timedOut => claimNext s timedOut
  | .button e =>
    if s.rx = .idle then
      { s with
        menu := (buttonPrompts s.menu e).1
        rx := prompts (buttonPrompts s.menu e).2
        log := if e.opens then .opened e.nonce::s.log else s.log }
    else s
  | .result r =>
    if s.rx = .idle then { s with rx := if r.version = 1 then .checkArmed r else .idle } else s
  | .rx => rxNext s

def runFrom (s : System) (inputs : List Input) : System := inputs.foldl step s

/-- The first result with the nonce that has been delivered since its prompt was sent. -/
def answer (nonce : UInt32) : List Event → Option UInt8
  | [] => none
  | .sent p::log => if p.nonce = nonce then none else answer nonce log
  | .delivered r _::log =>
    match answer nonce log with
    | some result => some result
    | none => if r.nonce = nonce then some r.result else none
  | .opened _::log => answer nonce log
  | .returned _ _::log => answer nonce log

/-- A wait returns OK with what was delivered for its prompt, and nothing else. -/
def WaitsServed (log : List Event) : Prop :=
  ∀ nonce outcome before, .returned nonce outcome::before <:+ log →
    outcome ≠ .invalidState ∧ ∀ result, outcome = .ok result ↔ answer nonce before = some result

/-- The result the receive task is writing into the prompt slot. -/
def acceptedAt : RxPlace → Option TrustResult
  | .store r => some r
  | .disarm r => some r
  | .give r => some r
  | _ => none

/-- A result with the nonce of a menu session goes to the menu. -/
def MenuReached (log : List Event) : Prop :=
  ∀ r consumer before, .delivered r consumer::before <:+ log → .opened r.nonce ∈ before → consumer = .menu

/-- It also leaves the slot alone. -/
structure MenuServed (s : System) : Prop where
  reached : MenuReached s.log
  apart : ∀ r, acceptedAt s.rx = some r → .opened r.nonce ∉ s.log

def Stage.index : Stage → Nat
  | .nonce => 0
  | .result => 1
  | .armed => 2
  | .drain => 3
  | .send => 4

/-- The prompt of the claim task whose `stage` is done and whose wait has not returned. -/
def past (stage : Stage) : ClaimPlace → Option Prompt
  | .prompting p now => if Stage.index stage < Stage.index now then some p else none
  | .waitArmed p => some p
  | .waitNonce p => some p
  | .waiting p => some p
  | .reading p => some p
  | _ => none

def resultAt : RxPlace → Option TrustResult
  | .checkArmed r => some r
  | .checkNonce r => some r
  | .store r => some r
  | .disarm r => some r
  | .give r => some r
  | .hand r => some r
  | _ => none

def carries (r : Option TrustResult) (nonce : UInt32) : Bool := r.any (·.nonce == nonce)

/-- The claim has prompted and armed, and its wait has not yet seen the slot armed. -/
def unseen : ClaimPlace → Bool
  | .prompting _ .drain => true
  | .prompting _ .send => true
  | .waitArmed _ => true
  | _ => false

/-- The receive task is about to give the slot of an open claim another screen's nonce; to
disarm it before its wait has begun, or with a result of another nonce; to signal a result of
another nonce; or to take a result with the nonce of a menu session for the slot's. Or the
claim task prompts with a nonce of which the receive task already holds a result. -/
def crosses (s : System) : Input → Bool
  | .rx =>
    match s.rx with
    | .prompting p .nonce _ => p.arms && (past .nonce s.claim).isSome
    | .checkNonce r => r.nonce == s.slot.nonce && decide (.opened r.nonce ∈ s.log)
    | .disarm r => unseen s.claim || (past .armed s.claim).any (·.nonce != r.nonce)
    | .give r => (past .drain s.claim).any (·.nonce != r.nonce)
    | _ => false
  | .claim _ =>
    match s.claim with
    | .prompting p _ => carries (resultAt s.rx) p.nonce
    | _ => false
  | _ => false

def ApartRun (s : System) : List Input → Prop
  | [] => True
  | i::rest => crosses s i = false ∧ ApartRun (step s i) rest

def decideApartRun : (s : System) → (inputs : List Input) → Decidable (ApartRun s inputs)
  | _, [] => .isTrue trivial
  | s, i::rest =>
    have := decideApartRun (step s i) rest
    inferInstanceAs (Decidable (crosses s i = false ∧ ApartRun (step s i) rest))
instance (s inputs) : Decidable (ApartRun s inputs) := decideApartRun s inputs

end Web3PiUps.WupsTrust
