import Web3PiUps.Lib.Tasks
import Web3PiUps.FwUpdate

/-! `firmware-ESP32-LTE-M/main/fw_ota.c`: the claims on the update slot and every task that
takes or tests them. An action is one critical section, one call of the SDK or one access
to a variable of the receiver; `Outside` is what the rest of the device answers. The LTE
download and the relay are here only what they are for the claims: work between the claim
and the exit. `mbedtls` is the parameter `hash`. -/
namespace Web3PiUps.FwOta
open Tasks Code WupsProtocol
open FwUpdate (le32 xferOk xferBadReq xferSeqMismatch xferFlashErr xferVerifyFail wupsFwTargetRp2040)

abbrev fwOtaVerifyWindowUs : Nat := 600*1000000
abbrev fwXferIdleTimeoutUs : Nat := 30*1000000
abbrev fwOtaUrlMax : Nat := 168
abbrev fwRelayImageMax : Nat := 2*1024*1024
abbrev wupsFwTargetEsp32 : UInt8 := 1
abbrev xferBusy : UInt8 := 2

inductive ConfirmReason where
  | automaticUplink
  | authorizedNextUpdate
  | physicalTransfer
  deriving DecidableEq, Repr

/-! The critical sections under `s_claim_mux`. `otaActive` is what `mqtt_ota_state_changed`
was last told. -/

structure Claims where
  inProgress : Bool
  validationBusy : Bool
  modemRecoveryBusy : Bool
  pendingVerify : Bool
  markedValid : Bool
  otaActive : Bool
  deriving DecidableEq, Repr

def claimInProgress (c : Claims) : Bool × Claims :=
  if !c.inProgress && !c.validationBusy && !c.modemRecoveryBusy then
    (true,{ c with inProgress := true, otaActive := true })
  else (false,c)

def releaseInProgress (c : Claims) : Claims := { c with inProgress := false, otaActive := false }

def fwOtaTryModemRecovery {σ : Type} (commit : σ → Bool × σ) (c : Claims) (context : σ) :
    Bool × Claims × σ :=
  if !c.inProgress && !c.validationBusy && !c.modemRecoveryBusy then
    match commit context with
    | (true,x) => (true,{ c with modemRecoveryBusy := true },x)
    | (false,x) => (false,c,x)
  else (false,c,context)

def fwOtaFinishModemRecovery (c : Claims) : Claims := { c with modemRecoveryBusy := false }

inductive ConfirmEntry where
  | refused
  | notPending
  | taken
  deriving DecidableEq, Repr

/-- The first section of `confirm_running_image`; `fresh` is `mqtt_publication_proof_fresh`. -/
def confirmEnter (c : Claims) (reason : ConfirmReason) (now : Nat) (mqttMode fresh : Bool) :
    ConfirmEntry × Claims :=
  let automatic := reason == .automaticUplink
  if c.validationBusy then (.refused,c)
  else if !c.pendingVerify then (.notPending,c)
  else if c.markedValid || c.inProgress || (automatic && now ≥ fwOtaVerifyWindowUs) then (.refused,c)
  else if automatic && mqttMode && !fresh then (.refused,c)
  else (.taken,{ c with validationBusy := true })

def confirmLeave (c : Claims) (ok : Bool) : Claims :=
  let c := if ok then { c with markedValid := true, pendingVerify := false } else c
  { c with validationBusy := false }

def rollbackEnter (c : Claims) (now : Nat) : Bool × Claims :=
  if !c.pendingVerify || c.markedValid || c.validationBusy || c.inProgress ||
      now < fwOtaVerifyWindowUs then (false,c)
  else (true,{ c with validationBusy := true })

def rollbackLeave (c : Claims) : Claims := { c with markedValid := true, validationBusy := false }

/-- The `s_xfer_*` variables, which `s_xfer_lock` guards. -/
structure XferVars where
  isOpen : Bool
  imageLen : Nat
  received : Nat
  sha : Bytes
  lastUs : Nat
  deriving DecidableEq, Repr

inductive Event where
  | claimed
  | released
  | validation (reason : ConfirmReason) (now : Nat) (mqttMode fresh : Bool)
  | marked (reason : ConfirmReason) (ok : Bool)
  | rollingBack
  | opened (imageLen : Nat) (sha : Bytes)
  deriving DecidableEq, Repr

/-- `slot` is the passive partition, `written` the bytes written since the receiver's last
`esp_ota_begin`; `log` has the newest event first. -/
structure Shared where
  claims : Claims
  now : Nat
  locked : Bool
  xfer : XferVars
  handle : Bool
  slot : Nat → UInt8
  written : Bytes
  log : List Event
  restarted : Bool

def Shared.image (s : Shared) (len : Nat) : Bytes := (List.range len).map s.slot

inductive OtaEnd where
  | ok
  | validateFailed
  | failed
  deriving DecidableEq, Repr

inductive Act where
  | readInProgress
  | claim
  | release
  | tryRecovery
  | finishRecovery
  | confirmEnter (reason : ConfirmReason)
  | markAppValid (reason : ConfirmReason)
  | confirmLeave (ok : Bool)
  | rollbackEnter
  | markAppInvalid
  | rollbackLeave
  | nextUpdatePartition
  | createTask
  | download
  | relay
  | peekOpen
  | lockXfer
  | tryLockXfer
  | unlockXfer
  | storeXfer (x : XferVars)
  | readClock
  | otaBegin
  | otaWrite (chunk : Bytes)
  | otaAbort
  | otaEnd
  | verifyWrittenImage (len : Nat) (expected : Bytes)
  | setBootPartition
  | respond (result : UInt8)
  | restart
  deriving DecidableEq

def Ans : Act → Type
  | .readInProgress | .claim | .tryRecovery | .markAppValid _ | .rollbackEnter | .createTask
  | .download | .peekOpen | .otaBegin | .otaWrite _ | .verifyWrittenImage _ _ | .setBootPartition => Bool
  | .confirmEnter _ => ConfirmEntry
  | .nextUpdatePartition => Option Nat
  | .lockXfer => XferVars
  | .tryLockXfer => Option XferVars
  | .readClock => Nat
  | .otaEnd => OtaEnd
  | .restart => Empty
  | .release | .finishRecovery | .confirmLeave _ | .markAppInvalid | .rollbackLeave | .relay
  | .unlockXfer | .storeXfer _ | .otaAbort | .respond _ => Unit

/-- `slot` is what a call may leave in the cells it is free to change. -/
structure Outside where
  elapsedUs : Nat
  ok : Bool
  endResult : OtaEnd
  mqttMode : Bool
  proofFresh : Bool
  partitionSize : Option Nat
  slot : Nat → UInt8

section Exec
variable (hash : Bytes → Bytes)

def logged (s : Shared) (event : Event) : Shared := { s with log := event::s.log }

def Shared.claimed (s : Shared) (c : Claims) : Shared := { s with claims := c }

/-- `esp_ota_write` at the handle's position: below it nothing changes, above it sectors may
be erased, and a write that fails may have left anything from there on. -/
def writeSlot (s : Shared) (chunk : Bytes) (ok : Bool) (left : Nat → UInt8) : Shared :=
  let at_ := s.written.length
  if ok then
    { s with
      slot := fun i => if i < at_ then s.slot i else (chunk[i-at_]?).getD (left i)
      written := s.written ++ chunk }
  else { s with slot := fun i => if i < at_ then s.slot i else left i }

def act (e : Outside) (s : Shared) : (a : Act) → Effect (Ans a) Shared
  | .readInProgress => .returns s.claims.inProgress s
  | .claim =>
    match claimInProgress s.claims with
    | (true,c) => .returns true (logged (s.claimed c) .claimed)
    | (false,c) => .returns false (s.claimed c)
  | .release => .returns () (logged (s.claimed (releaseInProgress s.claims)) .released)
  | .tryRecovery =>
    let r := fwOtaTryModemRecovery (fun _ => (e.ok,())) s.claims ()
    .returns r.1 (s.claimed r.2.1)
  | .finishRecovery => .returns () (s.claimed (fwOtaFinishModemRecovery s.claims))
  | .confirmEnter reason =>
    match FwOta.confirmEnter s.claims reason s.now e.mqttMode (!s.claims.inProgress && e.proofFresh) with
    | (.taken,c) =>
      .returns .taken (logged (s.claimed c)
        (.validation reason s.now e.mqttMode (!s.claims.inProgress && e.proofFresh)))
    | (entry,c) => .returns entry (s.claimed c)
  | .markAppValid reason => .returns e.ok (logged s (.marked reason e.ok))
  | .confirmLeave ok => .returns () (s.claimed (FwOta.confirmLeave s.claims ok))
  | .rollbackEnter =>
    match FwOta.rollbackEnter s.claims s.now with
    | (true,c) => .returns true (logged (s.claimed c) .rollingBack)
    | (false,c) => .returns false (s.claimed c)
  | .markAppInvalid => if e.ok then .ends { s with restarted := true } else .returns () s
  | .rollbackLeave => .returns () (s.claimed (FwOta.rollbackLeave s.claims))
  | .nextUpdatePartition => .returns e.partitionSize s
  | .createTask => .returns e.ok s
  | .download => .returns e.ok { s with slot := e.slot }
  | .relay => .returns () s
  | .peekOpen => .returns s.xfer.isOpen s
  | .lockXfer => if s.locked then .waits else .returns s.xfer { s with locked := true }
  | .tryLockXfer => if s.locked then .returns none s else .returns (some s.xfer) { s with locked := true }
  | .unlockXfer => .returns () { s with locked := false }
  | .storeXfer x =>
    if x.isOpen && !s.xfer.isOpen then .returns () (logged { s with xfer := x } (.opened x.imageLen x.sha))
    else .returns () { s with xfer := x }
  | .readClock => .returns s.now s
  | .otaBegin =>
    if e.ok then .returns true { s with handle := true, slot := e.slot, written := [] }
    else .returns false { s with slot := e.slot, written := [] }
  | .otaWrite chunk => .returns e.ok (writeSlot s chunk e.ok e.slot)
  | .otaAbort => .returns () { s with handle := false }
  | .otaEnd => .returns e.endResult { s with handle := false }
  | .verifyWrittenImage len expected => .returns (e.ok && hash (s.image len) == expected) s
  | .setBootPartition => .returns e.ok s
  | .respond _ => .returns () s
  | .restart => .ends { s with restarted := true }

def exec (a : Act) (e : Outside) (s : Shared) : Effect (Ans a) Shared :=
  if s.restarted then .waits else act hash e { s with now := s.now + e.elapsedUs } a

end Exec

abbrev perform (a : Act) : Code Ans (Ans a) := call a

def confirmRunningImage (reason : ConfirmReason) : Code Ans Bool := do
  match ← perform (.confirmEnter reason) with
  | .refused => pure false
  | .notPending => pure true
  | .taken =>
    let ok : Bool ← perform (.markAppValid reason)
    let _ : Unit ← perform (.confirmLeave ok)
    pure ok

def fwOtaMarkUplinkHealthy : Code Ans Unit := do
  let _ ← confirmRunningImage .automaticUplink
  pure ()

def fwOtaRollbackTick : Code Ans Unit := do
  let due : Bool ← perform .rollbackEnter
  if due then
    let _ : Unit ← perform .markAppInvalid
    perform .rollbackLeave
  else pure ()

inductive EspErr where
  | ok
  | invalidState
  | invalidArg
  | notFound
  | noMem
  deriving DecidableEq, Repr

structure UpdateRequest where
  url : String
  sha256Hex : String
  imageLen : Nat
  target : UInt8
  deriving DecidableEq, Repr

def hexNibble (c : Char) : Option Nat :=
  if '0' ≤ c ∧ c ≤ '9' then some (c.toNat - '0'.toNat)
  else if 'a' ≤ c ∧ c ≤ 'f' then some (c.toNat - 'a'.toNat + 10)
  else if 'A' ≤ c ∧ c ≤ 'F' then some (c.toNat - 'A'.toNat + 10)
  else none

def sha256HexDecode (hex : String) : Bool := hex.toList.all fun c => (hexNibble c).isSome

/-- The branch of `fw_ota_request` on the target, up to the claim: why it returns, if it does. -/
def refuseTarget (r : UpdateRequest) : Code Ans (Option EspErr) :=
  if r.target = wupsFwTargetEsp32 then do
    let part : Option Nat ← perform .nextUpdatePartition
    match part with
    | none => pure (some .notFound)
    | some size =>
      if r.imageLen = 0 ∨ r.imageLen > size then pure (some .invalidArg)
      else
        let confirmed ← confirmRunningImage .authorizedNextUpdate
        pure (if confirmed then none else some .invalidState)
  else pure (if r.imageLen = 0 ∨ r.imageLen > fwRelayImageMax then some .invalidArg else none)

def fwOtaRequest (r : UpdateRequest) : Code Ans EspErr := do
  let busy : Bool ← perform .readInProgress
  if busy then pure .invalidState
  else if r.target ≠ wupsFwTargetEsp32 ∧ r.target ≠ wupsFwTargetRp2040 then pure .invalidArg
  else if ¬r.url.startsWith "https://" ∨ r.url.length > fwOtaUrlMax then pure .invalidArg
  else if r.sha256Hex.length ≠ 64 ∨ !sha256HexDecode r.sha256Hex then pure .invalidArg
  else
    let refused ← refuseTarget r
    match refused with
    | some error => pure error
    | none =>
      let claimed : Bool ← perform .claim
      if claimed then
        let created : Bool ← perform .createTask
        if created then pure .ok
        else
          let _ : Unit ← perform .release
          pure .noMem
      else pure .invalidState

def otaTask : Code Ans Unit := do
  let finished : Bool ← perform .download
  if finished then
    let never : Empty ← perform .restart
    nomatch never
  else perform .release

def relayTask : Code Ans Unit := do
  let _ : Unit ← perform .relay
  perform .release

/-- `fw_ota_request`, and the task it creates, which goes on where the request returns. -/
def update (r : UpdateRequest) : Code Ans Unit := do
  let result ← fwOtaRequest r
  if result = .ok then
    if r.target = wupsFwTargetRp2040 then relayTask else otaTask
  else pure ()

/-! The fw_xfer receiver; each handler is given the variables it found under the lock. -/

def xferAbortLocked (x : XferVars) : Code Ans XferVars :=
  if x.isOpen then do
    let _ : Unit ← perform .otaAbort
    let _ : Unit ← perform (.storeXfer { x with isOpen := false })
    let _ : Unit ← perform .release
    pure { x with isOpen := false }
  else pure x

def xferBegin (x : XferVars) (payload : Bytes) : Code Ans (XferVars × UInt8) :=
  let imageLen := le32 payload 4
  if payload.length < 40 then pure (x,xferBadReq)
  else if payload.getD 0 0 ≠ 1 then pure (x,xferBadReq)
  else if payload.getD 1 0 ≠ wupsFwTargetEsp32 then pure (x,xferBadReq)
  else do
    let x ← xferAbortLocked x
    let busy : Bool ← perform .readInProgress
    if busy then pure (x,xferBusy)
    else
      let part : Option Nat ← perform .nextUpdatePartition
      match part with
      | none => pure (x,xferFlashErr)
      | some size =>
        if imageLen = 0 ∨ imageLen > size then pure (x,xferBadReq)
        else
          let confirmed ← confirmRunningImage .physicalTransfer
          if !confirmed then pure (x,xferBusy)
          else
            let claimed : Bool ← perform .claim
            if !claimed then pure (x,xferBusy)
            else
              let begun : Bool ← perform .otaBegin
              if !begun then
                let _ : Unit ← perform .release
                pure (x,xferFlashErr)
              else
                let x := { x with
                  isOpen := true, imageLen := imageLen, received := 0, sha := (payload.drop 8).take 32 }
                let _ : Unit ← perform (.storeXfer x)
                pure (x,xferOk)

def xferData (x : XferVars) (payload : Bytes) : Code Ans (XferVars × UInt8) :=
  let offset := le32 payload 0
  let chunk := payload.drop 4
  if !x.isOpen then pure (x,xferBadReq)
  else if payload.length < 4 then pure (x,xferBadReq)
  else if offset ≠ x.received then do
    let x ← xferAbortLocked x
    pure (x,xferSeqMismatch)
  else if offset + chunk.length > x.imageLen then do
    let x ← xferAbortLocked x
    pure (x,xferBadReq)
  else if chunk = [] then pure (x,xferOk)
  else do
    let ok : Bool ← perform (.otaWrite chunk)
    if !ok then
      let x ← xferAbortLocked x
      pure (x,xferFlashErr)
    else
      let x := { x with received := x.received + chunk.length }
      let _ : Unit ← perform (.storeXfer x)
      pure (x,xferOk)

def xferEnd (x : XferVars) (payload : Bytes) : Code Ans (XferVars × UInt8 × Bool) :=
  if !x.isOpen then pure (x,xferBadReq,false)
  else if payload.length < 4 then pure (x,xferBadReq,false)
  else if payload.getD 0 0 ≠ 1 then pure (x,xferBadReq,false)
  else if payload.getD 1 0 = 0 then do
    let x ← xferAbortLocked x
    pure (x,xferOk,false)
  else if x.received ≠ x.imageLen then do
    let x ← xferAbortLocked x
    pure (x,xferBadReq,false)
  else do
    let x := { x with isOpen := false }
    let _ : Unit ← perform (.storeXfer x)
    let ended : OtaEnd ← perform .otaEnd
    match ended with
    | .validateFailed =>
      let _ : Unit ← perform .release
      pure (x,xferVerifyFail,false)
    | .failed =>
      let _ : Unit ← perform .release
      pure (x,xferFlashErr,false)
    | .ok =>
      let verified : Bool ← perform (.verifyWrittenImage x.imageLen x.sha)
      if !verified then
        let _ : Unit ← perform .release
        pure (x,xferVerifyFail,false)
      else
        let set : Bool ← perform .setBootPartition
        if !set then
          let _ : Unit ← perform .release
          pure (x,xferFlashErr,false)
        else pure (x,xferOk,true)

inductive XferOp where
  | begin
  | data
  | ends
  | other
  deriving DecidableEq, Repr

def xferHandle (x : XferVars) (op : XferOp) (payload : Bytes) : Code Ans (XferVars × UInt8 × Bool) :=
  match op with
  | .begin => do
    let r ← xferBegin x payload
    pure (r.1,r.2,false)
  | .data => do
    let r ← xferData x payload
    pure (r.1,r.2,false)
  | .ends => xferEnd x payload
  | .other => pure (x,xferBadReq,false)

def fwOtaXferOnReq (op : XferOp) (payload : Bytes) : Code Ans Unit := do
  let x : XferVars ← perform .lockXfer
  let r ← xferHandle x op payload
  let now : Nat ← perform .readClock
  let _ : Unit ← perform (.storeXfer { r.1 with lastUs := now })
  let _ : Unit ← perform .unlockXfer
  let _ : Unit ← perform (.respond r.2.1)
  if r.2.2 then
    let never : Empty ← perform .restart
    nomatch never
  else pure ()

def fwOtaXferTick : Code Ans Unit := do
  let open_ : Bool ← perform .peekOpen
  if !open_ then pure ()
  else
    let taken : Option XferVars ← perform .tryLockXfer
    match taken with
    | none => pure ()
    | some x =>
      let now : Nat ← perform .readClock
      if x.isOpen ∧ now > x.lastUs + fwXferIdleTimeoutUs then
        let _ ← xferAbortLocked x
        perform .unlockXfer
      else perform .unlockXfer

def modemRecovery : Code Ans Unit := do
  let taken : Bool ← perform .tryRecovery
  if taken then perform .finishRecovery else pure ()

inductive Call where
  | request (r : UpdateRequest)
  | xferReq (op : XferOp) (payload : Bytes)
  | xferTick
  | markUplinkHealthy
  | rollbackTick
  | modemRecovery
  | finishModemRecovery

def body : Call → Code Ans Unit
  | .request r => update r
  | .xferReq op payload => fwOtaXferOnReq op payload
  | .xferTick => fwOtaXferTick
  | .markUplinkHealthy => fwOtaMarkUplinkHealthy
  | .rollbackTick => fwOtaRollbackTick
  | .modemRecovery => FwOta.modemRecovery
  | .finishModemRecovery => perform .finishRecovery
end Web3PiUps.FwOta
