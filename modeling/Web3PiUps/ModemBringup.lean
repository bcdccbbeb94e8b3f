import Web3PiUps.ModemAwakePolicy
import Web3PiUps.ModemLadder

/-! The modem under `ppp_supervisor_task`: bring-up, teardown and power-cycle of `modem.c` as
code over its calls, with the policies of `modem_radio_policy.c` and `modem_awake_policy.c`
command by command. The loop around them is `ModemLadder`'s. -/
namespace Web3PiUps.ModemBringup
open Tasks Code ModemUplink ModemLadder
open Dialogue (allOf)
open ModemRadioPolicy (SettingsResult)
open ModemAwakePolicy (AwakeConfig)

abbrev cmuxEntryFailsMax : Nat := 2
abbrev cmuxFallbackRetryS : UInt32 := 24*3600

inductive Setting where
  | cnmp
  | cmnb
  | bands
  | cfun
  | csclk
  | cpsms
  | cedrx
  deriving DecidableEq, Repr

/-- `esp_modem_dce_mode_t`. -/
inductive Mode where
  | command
  | cmux
  | data
  deriving DecidableEq, Repr

/-- The calls of a bring-up that have to succeed. -/
inductive Gate where
  | baudPrepare
  | radioPrepare
  | awakePrepare
  | iccid
  | apn
  | radioResume
  | registered
  | awakeActive
  deriving DecidableEq, Repr

/-- What `ppp_events_wait_for_link` returns. -/
inductive Link where
  | up
  | down
  | starting
  deriving DecidableEq, Repr

/-- A call that the supervisor makes; `passed` notes that a gate was passed. `tell` is a
command whose reply changes nothing here. -/
inductive Act where
  | attempt
  | passed (gate : Gate)
  | rightCore
  | baudPrepare
  | newDev (apn : String)
  | sync
  | tell (command : String)
  | read (s : Setting)
  | readPsm
  | readEdrx
  | write (s : Setting) (command : String)
  | cpin
  | ccid (command : String)
  | secretReady
  | setApn (apn : String)
  | attachApn (apn : String)
  | nowS
  | regStat
  | regDeadline
  | setMode (mode : Mode)
  | moduleReset
  | pulse
  | probe
  | waitForLink
  | takeLoss
  | seconds
  | wake
  | judge
  deriving DecidableEq, Repr

/-- A setting is read as a number, or not at all; the bands as 1 where they are the wanted ones. -/
abbrev Ans : Act → Type
  | .attempt => Unit
  | .passed _ => Unit
  | .rightCore => Bool
  | .baudPrepare => Bool
  | .newDev _ => Bool
  | .sync => Bool
  | .tell _ => Bool
  | .read _ => Option Nat
  | .readPsm => Option Nat
  | .readEdrx => Option Nat
  | .write _ _ => Bool
  | .cpin => Bool
  | .ccid _ => Option (List Char)
  | .secretReady => Bool
  | .setApn _ => Bool
  | .attachApn _ => Bool
  | .nowS => UInt32
  | .regStat => Int
  | .regDeadline => Bool
  | .setMode _ => Bool
  | .moduleReset => Bool
  | .pulse => Unit
  | .probe => Bool
  | .waitForLink => Link
  | .takeLoss => Bool
  | .seconds => Nat
  | .wake => Wake
  | .judge => Judge

abbrev ask (a : Act) : Code Ans (Ans a) := call a

/-- `a && b && ..` of calls. -/
def tellAll : List String → Code Ans Unit
  | [] => pure ()
  | command::rest => do
    let _ ← ask (.tell command)
    tellAll rest

def readScalar (s : Setting) : Code Ans (Option Nat) := ask (.read s)

def commandOk (s : Setting) (command : String) : Code Ans Bool := ask (.write s command)

def reads (s : Setting) (value : Nat) : Code Ans Bool := do
  let r ← readScalar s
  pure (r == some value)

def failClosed : Code Ans Bool := do
  let _ ← commandOk .cfun "AT+CFUN=4"
  pure false

/-! `modem_radio_policy.c`. -/

def readSettings : Code Ans SettingsResult := do
  match ← readScalar .cnmp with
  | none => pure .invalid
  | some network =>
    match ← readScalar .cmnb with
    | none => pure .invalid
    | some preference =>
      match ← readScalar .bands with
      | none => pure .invalid
      | some bands => pure (if network = 38 ∧ preference = 1 ∧ bands = 1 then .matching else .mismatch)

def settingsMatch : Code Ans Bool := do
  let r ← readSettings
  pure (r == .matching)

def modemRadioPrepare : Code Ans Bool := do
  match ← readSettings with
  | .matching => pure true
  | .invalid => failClosed
  | .mismatch =>
    if ← allOf [commandOk .cfun "AT+CFUN=4",reads .cfun 4,commandOk .cnmp "AT+CNMP=38",
      commandOk .cmnb "AT+CMNB=1",commandOk .bands "AT+CBANDCFG=\"CAT-M\",3,20",settingsMatch] then
      pure true
    else failClosed

def modemRadioResume : Code Ans Bool := do
  if ← settingsMatch then
    match ← readScalar .cfun with
    | none => failClosed
    | some functionality =>
      if functionality = 1 then pure true
      else if functionality ≠ 4 then failClosed
      else if ← allOf [commandOk .cfun "AT+CFUN=1",reads .cfun 1] then pure true
      else failClosed
  else failClosed

/-! `modem_awake_policy.c`. -/

def readMode (s : Setting) : Code Ans (Option Nat) := do
  let r ← readScalar s
  pure (r.filter (· ≤ 1))

def readConfig : Code Ans (Option AwakeConfig) := do
  match ← readMode .csclk with
  | none => pure none
  | some slowClock =>
    match ← readMode .cpsms with
    | none => pure none
    | some psm =>
      match ← readMode .cedrx with
      | none => pure none
      | some edrx => pure (some ⟨slowClock,psm,edrx⟩)

def allOff (c : AwakeConfig) : Bool := c.slowClock == 0 && c.psm == 0 && c.edrx == 0

def modemAwakeVerifyConfig : Code Ans Bool := do
  let c ← readConfig
  pure (c.any allOff)

def modemAwakePrepare : Code Ans Bool := do
  match ← readConfig with
  | none => failClosed
  | some c =>
    if allOff c then pure true
    else if ← allOf (
      (if c.psm ≠ 0 ∨ c.edrx ≠ 0 then [commandOk .cfun "AT+CFUN=4",reads .cfun 4] else []) ++
      (if c.slowClock ≠ 0 then [commandOk .csclk "AT+CSCLK=0"] else []) ++
      (if c.psm ≠ 0 then [commandOk .cpsms "AT+CPSMS=0"] else []) ++
      (if c.edrx ≠ 0 then [commandOk .cedrx "AT+CEDRXS=0,4,\"0000\""] else []) ++
      [modemAwakeVerifyConfig]) then pure true
    else failClosed

def modemAwakeVerifyActive : Code Ans Bool := do
  let psm ← ask .readPsm
  if psm = some 0 then
    let edrx ← ask .readEdrx
    pure (edrx == some 0)
  else pure false

/-! `modem.c`: power. -/

def modemPowerCycle (knownRunning : Bool) : Code Ans Unit := do
  let running ← (if knownRunning then pure true else ask .probe)
  if running then
    ask .pulse
    ask .pulse
  else
    ask .pulse
    if ← ask .probe then pure ()
    else
      ask .pulse
      let _ ← ask .probe
      pure ()

def cycleIf (due knownRunning : Bool) : Code Ans Unit :=
  if due then modemPowerCycle knownRunning else pure ()

structure Vars where
  dce : Bool
  cmuxActive : Bool
  cmuxDirty : Bool
  cmuxEntryFails : Nat
  cmuxFallbackSinceS : UInt32
  iccid : Option (List Char)
  apn : String
  apnSeeded : Bool
  deriving DecidableEq, Repr

/-- `WUPS_FIXED_APN` is the parameter `fixedApn`, empty where the build gives none. -/
def Vars.boot (fixedApn : String) : Vars :=
  ⟨false,false,false,0,0,none,if fixedApn.isEmpty then "sensor.net" else fixedApn,false⟩

/-- The variables, and the exit taken if the bring-up is over. -/
abbrev Outcome : Type := Vars × Option BringupExit

def andThen (c : Code Ans Outcome) (next : Vars → Code Ans Outcome) : Code Ans Outcome :=
  c >>= fun r =>
    match r.2 with
    | some exit => pure (r.1,some exit)
    | none => next r.1

def gate (g : Gate) (exit : BringupExit) (c : Code Ans Bool) (v : Vars) : Code Ans Outcome := do
  if ← c then
    ask (.passed g)
    pure (v,none)
  else pure (v,some exit)

def syncWait : Nat → Code Ans Bool
  | 0 => pure false
  | n+1 => do if ← ask .sync then pure true else syncWait n

def openDce (v : Vars) : Code Ans Outcome := do
  if ← ask (.newDev v.apn) then
    if ← syncWait 20 then pure ({ v with dce := true },none) else pure ({ v with dce := true },some .sync)
  else pure (v,some .newDev)

def tellIdentity (v : Vars) : Code Ans Outcome := do
  tellAll ["AT+CGSN","AT+CIMI","AT+CGMM","AT+CGMR","AT+CSQ"]
  pure (v,none)

def cpinWait : Nat → Code Ans Unit
  | 0 => pure ()
  | n+1 => do if ← ask .cpin then pure () else cpinWait n

def readCcid (command : String) : Code Ans (Option (List Char)) := ask (.ccid command)

/-- Attempt 2 of 5 tries the alias too. -/
def ccidWait : Nat → Code Ans (Option (List Char))
  | 0 => pure none
  | n+1 => do
    match ← readCcid "AT+CCID" with
    | some text => pure (some text)
    | none =>
      if n+1 = 3 then
        match ← readCcid "AT+CICCID" with
        | some text => pure (some text)
        | none => ccidWait n
      else ccidWait n

def iccidDigits (text : List Char) : List Char :=
  let digits := ((text.dropWhile (!·.isDigit)).takeWhile (·.isDigit)).take 23
  if digits.length = 20 then digits.take 19 else digits

def identitySetIccid (digits : List Char) : Code Ans Bool := do
  let ready ← ask .secretReady
  pure (ready && (digits.length == 19 || digits.length == 20))

def readIccid (v : Vars) : Code Ans Outcome :=
  if v.iccid.isSome then pure (v,none)
  else do
    cpinWait 12
    match ← ccidWait 5 with
    | none => pure (v,some .ccid)
    | some text =>
      if ← identitySetIccid (iccidDigits text) then pure ({ v with iccid := some (iccidDigits text) },none)
      else pure (v,none)

def oldBatchIccids : List (List Char) :=
  ["8988228066614189920".toList,"8988280666000338870".toList,"8988280666000338871".toList,
    "8988228066618136967".toList,"8988228066618136966".toList]

def selectApn (fixedApn : String) (v : Vars) : Vars :=
  if v.apnSeeded then v
  else
    { v with
      apn := if !fixedApn.isEmpty then fixedApn
        else if oldBatchIccids.any (v.iccid == some ·) then "iot.1nce.net"
        else v.apn
      apnSeeded := true }

def attachApn (fixedApn : String) (v : Vars) : Code Ans Outcome := do
  if ← ask (.attachApn v.apn) then pure (v,none)
  else pure (v,if fixedApn.isEmpty then none else some .attachApn)

def networkSnapshot (v : Vars) : Code Ans Outcome := do
  tellAll ["AT+CEREG?","AT+COPS?","AT+CPSI?"]
  pure (v,none)

/-- The daily retry. -/
def rearmCmux (v : Vars) : Code Ans Outcome :=
  if cmuxEntryFailsMax ≤ v.cmuxEntryFails then do
    let now ← ask .nowS
    pure (if cmuxFallbackRetryS ≤ now-v.cmuxFallbackSinceS then
      { v with cmuxEntryFails := cmuxEntryFailsMax-1 } else v,none)
  else pure (v,none)

/-- The wait of 90 s in steps of 3 s. -/
def regWait : Nat → Code Ans Bool
  | 0 => do
    let stat ← ask .regStat
    pure (stat == 1 || stat == 5)
  | n+1 => do
    let stat ← ask .regStat
    if stat = 1 ∨ stat = 5 then pure true
    else if ← ask .regDeadline then pure false
    else
      tellAll (if (n+1) % 3 = 0 then ["AT+CSQ"] else [])
      regWait n

/-- `modem_awake_check_before_ppp`. -/
def awakeWait : Nat → Code Ans Bool
  | 0 => failClosed
  | n+1 => do if ← modemAwakeVerifyActive then pure true else awakeWait n

def supportCommands : List String :=
  ["AT+CGDCONT?","AT+CPSMS?","AT+CPSMRDP","AT+CEDRXS?","AT+CEDRX?","AT+CEDRXRDP","AT+CSCLK?","AT+CPSMCFG?",
    "AT+CPSMCFGEXT?"]

def supportSnapshot (v : Vars) : Code Ans Outcome := do
  tellAll supportCommands
  pure (v,none)

def enterCmux (v : Vars) : Code Ans Outcome := do
  if ← ask (.setMode .cmux) then pure ({ v with cmuxActive := true, cmuxEntryFails := 0 },none)
  else
    let v := { v with cmuxEntryFails := v.cmuxEntryFails+1, cmuxDirty := true }
    if cmuxEntryFailsMax ≤ v.cmuxEntryFails then
      let now ← ask .nowS
      pure ({ v with cmuxFallbackSinceS := now },some .cmuxMode)
    else pure (v,some .cmuxMode)

def enterData (v : Vars) : Code Ans Outcome := do
  if ← ask (.setMode .data) then pure (v,none) else pure (v,some .dataMode)

def switchMode (v : Vars) : Code Ans Outcome :=
  if v.cmuxEntryFails < cmuxEntryFailsMax then enterCmux v else enterData v

/-- `ppp_bringup_dce` behind the check of the core. -/
def bringupGates (fixedApn : String) (v : Vars) : Code Ans Outcome :=
  gate .baudPrepare .baud (ask .baudPrepare) v
    |> (andThen · openDce)
    |> (andThen · fun v => do
      let _ ← ask (.tell "AT+CMEE=2")
      gate .radioPrepare .radioPrepare modemRadioPrepare v)
    |> (andThen · (gate .awakePrepare .awakePrepare modemAwakePrepare))
    |> (andThen · tellIdentity)
    |> (andThen · readIccid)
    |> (andThen · fun v => gate .iccid .iccid (pure v.iccid.isSome) v)
    |> (andThen · fun v => gate .apn .apn (ask (.setApn (selectApn fixedApn v).apn)) (selectApn fixedApn v))
    |> (andThen · (attachApn fixedApn))
    |> (andThen · (gate .radioResume .radioResume modemRadioResume))
    |> (andThen · networkSnapshot)
    |> (andThen · rearmCmux)
    |> (andThen · (gate .registered .registration (regWait 30)))
    |> (andThen · (gate .awakeActive .awakeCheck (awakeWait 3)))
    |> (andThen · networkSnapshot)
    |> (andThen · supportSnapshot)
    |> (andThen · switchMode)

def pppBringupDce (fixedApn : String) (v : Vars) : Code Ans Outcome := do
  ask .attempt
  if ← ask .rightCore then bringupGates fixedApn v else pure (v,some .wrongCore)

/-! The teardown; `none` is `TEARDOWN_NORMAL`. -/

def leaveData (action : Option TeardownAction) : Code Ans Bool := do
  if ← ask (.setMode .command) then
    if action = some .moduleReset then
      let reset ← ask .moduleReset
      pure !reset
    else pure (action == some .pwrcycle)
  else pure (action.isSome)

/-- Whether the power is to be cycled, from the state of the DCE. -/
def closeDce (v : Vars) (action : Option TeardownAction) : Code Ans Bool :=
  if v.dce then
    if v.cmuxActive && action != some .pwrcycle then do
      let reset ← ask .moduleReset
      pure !reset
    else if !v.cmuxActive && !v.cmuxDirty then leaveData action
    else pure (action == some .pwrcycle)
  else pure (action == some .pwrcycle)

def pppTeardownDce (v : Vars) (action : Option TeardownAction) : Code Ans Vars := do
  let pwrcycle ← closeDce v action
  cycleIf (pwrcycle || v.cmuxDirty) (v.cmuxActive && !v.cmuxDirty)
  pure { v with dce := false, cmuxActive := false, cmuxDirty := false }

structure Loop where
  ladder : Ladder
  vars : Vars
  deriving DecidableEq, Repr

def Loop.boot (fixedApn : String) (t : Nat) : Loop := ⟨.boot t,.boot fixedApn⟩

/-- From `stop_ppp` to the next attempt, after the step `r` of the ladder. -/
def stopPpp (v : Vars) (action : Option TeardownAction) (r : Ladder × Entry) : Code Ans Loop := do
  let v ← pppTeardownDce v action
  cycleIf (r.2.turn.any (·.cycled)) false
  pure ⟨r.1,v⟩

def failedTurn (s : Loop) (exit : BringupExit) : Code Ans Loop := do
  let seconds ← ask .seconds
  stopPpp s.vars none (ModemLadder.step s.ladder (.failed seconds exit))

/-- The action of a watchdog trip, if the session ended with one. -/
def teardownOf (seen : List ModemUplink.Event) : Option TeardownAction :=
  seen.findSome? fun
    | .trip action _ => some action
    | _ => none

def sessionTurn (s : Loop) (input : ModemLadder.Input) : Code Ans Loop :=
  let r := ModemLadder.step s.ladder input
  if r.2.turn.isSome then stopPpp s.vars (teardownOf r.2.seen) r else pure ⟨r.1,s.vars⟩

def pppEventsWaitForLink : Code Ans Link := ask .waitForLink

def linkTurn (s : Loop) : Code Ans Loop := do
  match ← pppEventsWaitForLink with
  | .up => do
    let lost ← ask .takeLoss
    let seconds ← ask .seconds
    sessionTurn s (.up seconds !lost)
  | .down => failedTurn s .pppDown
  | .starting => failedTurn s .pppTimeout

def bringupTurn (fixedApn : String) (s : Loop) : Code Ans Loop := do
  let (v,exit) ← pppBringupDce fixedApn s.vars
  match exit with
  | some exit => failedTurn ⟨s.ladder,v⟩ exit
  | none => linkTurn ⟨s.ladder,v⟩

/-- One bring-up, or one step of `supervise_uplink`. -/
def turn (fixedApn : String) (s : Loop) : Code Ans Loop :=
  match s.ladder.sup.place with
  | .down => bringupTurn fixedApn s
  | .waiting _ => do
    let w ← ask .wake
    sessionTurn s (.wake w)
  | .sampled _ _ => do
    let j ← ask .judge
    sessionTurn s (.judge j)

/-- `ppp_supervisor_task`, for `n` turns. -/
def pppSupervisorTask (fixedApn : String) : Nat → Loop → Code Ans Unit
  | 0, _ => pure ()
  | n+1, s => do
    let s ← turn fixedApn s
    pppSupervisorTask fixedApn n s

/-- The modem and the calls so far: `tried` is the bit of a CMUX entry since its boot; `passed`
and `verified` are of the bring-up in progress, a setting being verified by reading the wanted
value and no longer once it is written; `fallback` is the first reading of the clock since the last
CMUX entry. -/
structure Watch where
  powered : Bool
  tried : Bool
  passed : List Gate
  verified : Setting → Bool
  apn : Option String
  cmuxFails : Nat
  fallback : Option UInt32
  clock : UInt32

def Watch.start (powered : Bool) : Watch := ⟨powered,false,[],fun _ => false,none,0,none,0⟩

def wanted : Setting → Nat
  | .cnmp => 38
  | .cmnb => 1
  | .bands => 1
  | .cfun => 1
  | .csclk => 0
  | .cpsms => 0
  | .cedrx => 0

def Watch.settle (w : Watch) (s : Setting) (verified : Bool) : Watch :=
  { w with verified := Function.update w.verified s verified }

def observe (w : Watch) : (a : Act) → Ans a → Watch
  | .attempt, _ => { w with passed := [], verified := fun _ => false }
  | .passed gate, _ => { w with passed := w.passed ++ [gate] }
  | .read s, r =>
    match r with
    | some value => w.settle s (value == wanted s)
    | none => w
  | .write s _, _ => w.settle s false
  | .setApn apn, _ => { w with apn := some apn }
  | .nowS, now => { w with clock := now, fallback := some (w.fallback.getD now) }
  | .setMode .cmux, entered =>
    { w with tried := w.tried || w.powered, cmuxFails := if entered then 0 else w.cmuxFails+1, fallback := none }
  | .moduleReset, acknowledged => { w with tried := w.tried && !acknowledged }
  | .pulse, _ => { w with powered := !w.powered, tried := w.tried && w.powered }
  | _, _ => w

/-- What comes of a call that the modem does not answer; the others do not ask it. -/
def silent : (a : Act) → Ans a → Ans a
  | .baudPrepare, _ => false
  | .sync, _ => false
  | .tell _, _ => false
  | .read _, _ => none
  | .readPsm, _ => none
  | .readEdrx, _ => none
  | .write _ _, _ => false
  | .cpin, _ => false
  | .ccid _, _ => none
  | .attachApn _, _ => false
  | .regStat, _ => -1
  | .setMode _, _ => false
  | .moduleReset, _ => false
  | .probe, _ => false
  | _, r => r

/-- An unpowered modem answers nothing. -/
def hear (w : Watch) (a : Act) (r : Ans a) : Ans a := if w.powered then r else silent a r

def gates : List Gate :=
  [.baudPrepare,.radioPrepare,.awakePrepare,.iccid,.apn,.radioResume,.registered,.awakeActive]

structure Verified (w : Watch) : Prop where
  passed : w.passed = gates
  settled : ∀ s, w.verified s = true

/-- What a call may be made on. -/
def Need (w : Watch) : Act → Prop
  | .setMode .cmux => Verified w ∧ w.tried = false
  | .setMode .data =>
    Verified w ∧ cmuxEntryFailsMax ≤ w.cmuxFails ∧ ∃ since, w.fallback = some since ∧ w.clock-since < cmuxFallbackRetryS
  | .newDev apn => ∀ selected, w.apn = some selected → apn = selected
  | .setApn apn => ∀ selected, w.apn = some selected → apn = selected
  | .attachApn apn => w.apn = some apn
  | _ => True

def rules : Rules Ans Watch where
  need := Need
  may := fun w a r => hear w a r = r
  after := observe

end Web3PiUps.ModemBringup
