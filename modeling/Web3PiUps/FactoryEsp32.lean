import Web3PiUps.FactoryProvision

/-! `esp32.mjs`: the station flashes app and blob, and has the unit confirm its identity. -/
namespace Web3PiUps.FactoryEsp32
open FactoryLedger FactoryProvision

variable {Digest : Type}

inductive FlashStep where
  | eraseFlash
  | flashApp
  | writeProv
  | verifyProv
  deriving DecidableEq, Repr

def stepName : FlashStep → Text
  | .eraseFlash => lit "erase-flash"
  | .flashApp => lit "flash-app"
  | .writeProv => lit "write-prov"
  | .verifyProv => lit "verify-prov"

def stepOk (step : FlashStep) (code : Option Int) (stdout stderr : Text) : Bool :=
  let text := lower (stdout ++ stderr)
  code = some 0 &&
    (step ≠ .verifyProv || occurs (lit "verify successful") text || occurs (lit "verification successful") text)

/-- A flash step, and what one that does not exit with 0 leaves on the board if it has changed it. -/
structure FlashRun where
  run : Ran
  left : Option Board

/-- What an exit code 0 says of the board. -/
def flashed (app : Text) (blob : Option File) (board : Board) : FlashStep → Board
  | .eraseFlash => ⟨none,none⟩
  | .flashApp => { board with app := some app }
  | .writeProv => { board with prov := blob }
  | .verifyProv => board

/-- The board after the step, if the step changed it. -/
def changed (app : Text) (blob : Option File) (board : Board) (step : FlashStep) (code : Option Int) (left : Option Board) :
    Option Board :=
  if step = .verifyProv then none
  else if code = some 0 then some (flashed app blob board step)
  else left

inductive FlashEnd where
  | threw
  | failed (step : FlashStep)
  | done
  deriving DecidableEq, Repr

def flashSteps (app iccid : Text) : List (FlashStep × FlashRun) → World Digest → World Digest × FlashEnd
  | [],w => (w,.done)
  | (step,a)::rest,w =>
    match a.run with
    | .threw => (w,.threw)
    | .exited code stdout stderr =>
      let w :=
        match changed app (w.batch.blobs iccid) (w.boards iccid) step code a.left with
        | none => w
        | some board => w.setBoard iccid board
      if stepOk step code stdout stderr then flashSteps app iccid rest w else (w,.failed step)

def hexRun (count : Nat) (text : Text) : Option Text :=
  let run := text.take count
  if run.length = count ∧ run.all isHex = true then some run else none

/-- `mqtt_password=([0-9a-fA-F]{8})` -/
def loggedSecret (text : Text) : Option Text :=
  firstMatch (fun text => (past (lit "mqtt_password=") text).bind (hexRun 8)) text

/-- `ICCID=(\d{19,20})` -/
def loggedIccid (text : Text) : Option Text :=
  firstMatch (fun text => do
    let rest ← past (lit "ICCID=") text
    let digits := (rest.takeWhile isDigit).take 20
    if 19 ≤ digits.length then some digits else none) text

/-- `rssi[= ]+(\d+)` -/
def rssiAt (text : Text) : Option Nat := do
  let rest ← past (lit "rssi") text
  let gap := rest.takeWhile fun c => c = '=' || c = ' '
  let digits := (rest.drop gap.length).takeWhile isDigit
  if gap ≠ [] ∧ digits ≠ [] then some (decimal digits) else none

/-- The last reading; 99 is none. -/
def loggedRssi (text : Text) : Option Nat := (((lower text).tails.filterMap rssiAt).filter (· ≠ 99)).getLast?

def unprovisioned (text : Text) : Bool :=
  occurs (lit "prov partition init failed") (lower text) || occurs (lit "not provisioned") (lower text)

/-- One look at the log of the monitor. -/
inductive Poll where
  | died
  | noLog (late : Bool)
  | log (text : Text)

inductive Watched where
  | failed (note : Text)
  | mispaired (seen : Text)
  | verified (rssi : Option Nat)

def secretPrefix (m : Manifest) : Text := lower ((m.mqttSecretHex.getD []).take 8)

structure Watch where
  secretOk : Bool
  iccidSeen : Option Text
  rssi : Option Nat

def timeoutNote (s : Watch) : Text :=
  lit "serial verify timeout (secretOk=" ++ lit (if s.secretOk then "true" else "false") ++ lit ", iccid=" ++
    s.iccidSeen.getD (lit "null") ++ lit ")"

/-- One log against what is expected of it. -/
def look (iccid want : Text) (s : Watch) (text : Text) : Watched ⊕ Watch :=
  if unprovisioned text then .inl (.failed (lit "serial: prov error after flashing"))
  else
    let secret := loggedSecret text
    if secret.any fun shown => lower shown ≠ want then
      .inl (.failed (lit "serial: secret prefix mismatch (" ++ secret.getD [] ++ lit ")"))
    else
      let secretOk := s.secretOk || secret.isSome
      let seen := (loggedIccid text).bind normalizeIccid
      match seen.filter (· ≠ iccid) with
      | some other => .inl (.mispaired other)
      | none =>
        let iccidSeen := seen.or s.iccidSeen
        let rssi := (loggedRssi text).or s.rssi
        if secretOk && iccidSeen.isSome then .inl (.verified (rssi.filter (· ≠ 0))) else .inr ⟨secretOk,iccidSeen,rssi⟩

/-- Until it is decided or the time is over, which is the end of the list; with the logs read. -/
def watch (iccid want : Text) : Watch → List Poll → List Text × Watched
  | s,[] => ([],.failed (timeoutNote s))
  | _,.died::_ => ([],.failed (lit "serial monitor died during verification"))
  | s,.noLog late::rest =>
    if late then ([],.failed (lit "serial monitor produced no log file")) else watch iccid want s rest
  | s,.log text::rest =>
    match look iccid want s text with
    | .inl watched => ([text],watched)
    | .inr s =>
      let (texts,watched) := watch iccid want s rest
      (text::texts,watched)

structure StationOpts where
  verifyOnly : Option Text
  redo : Bool
  skipSerial : Bool
  keepBlobs : Bool
  yes : Bool

/-- `saves` are the outcomes of the ledger writes in order; those beyond its end succeed. -/
structure SerialAnswers where
  started : Bool
  polls : List Poll
  saves : List Bool
  unlinks : Bool
  marks : Bool

def saveEach (iccid : Text) : List (Text × (Entry Digest → Entry Digest)) → List Bool → World Digest → World Digest × Bool
  | [],_,w => (w,true)
  | (unit,f)::rest,[],w => saveEach iccid rest [] (w.setUnit unit f)
  | (unit,f)::rest,ok::saves,w => if ok then saveEach iccid rest saves (w.setUnit unit f) else (w,false)

/-- The ledger writes of a failed verification. -/
def failing (iccid : Text) (note : Text) : List (Text × (Entry Digest → Entry Digest)) :=
  [(iccid,(·.note note)),(iccid,(·.clearStage .verified))]

/-- The ledger writes where another SIM answers. -/
def mispairing (iccid seen : Text) (known : Bool) : List (Text × (Entry Digest → Entry Digest)) :=
  (iccid,(·.clearStage .flashed))::((if known then
    [(seen,(·.clearStage .verified)),(seen,(·.clearStage .flashed)),
      (seen,(·.note (lit "board overwritten with " ++ iccid ++
        lit "'s blob during a mispaired flash — re-flash this unit")))] else []) ++
    failing iccid (lit "serial: SIM reports " ++ seen))

/-- The blob file goes after a verification, unless it is to be kept; `marks` is whether the ledger write succeeds. -/
def discardBlob (opts : StationOpts) (iccid : Text) (unlinks marks : Bool) (w : World Digest) : World Digest :=
  if opts.keepBlobs || !unlinks || (w.batch.blobs iccid).isNone then w
  else
    let w := w.setBlob iccid none
    if marks then w.setUnit iccid fun u => { u with blob := u.blob.map fun blob => { blob with deleted := true } } else w

def serialVerify (opts : StationOpts) (iccid : Text) (manifest : Option Manifest) (a : SerialAnswers) (w : World Digest) :
    World Digest × Bool :=
  if opts.skipSerial then (w,true)
  else
    match manifest with
    | none => (w,false)
    | some m =>
      if m.mqttSecretHex.isNone || !a.started then (w,false)
      else
        let want := secretPrefix m
        let (texts,watched) := watch iccid want ⟨false,none,none⟩ a.polls
        let w := w.hear iccid texts
        match watched with
        | .failed note => saveEach iccid (failing iccid note) a.saves w
        | .mispaired seen => saveEach iccid (mispairing iccid seen (w.batch.units seen).isSome) a.saves w
        | .verified rssi =>
          match saveEach iccid [(iccid,(·.setStage (.verified ⟨want,rssi⟩)))] a.saves w with
          | (w,true) => (discardBlob opts iccid a.unlinks a.marks w,true)
          | (w,false) => (w,false)

structure FlashAnswers where
  confirmed : Bool
  port : Text
  erase : FlashRun
  app : FlashRun
  prov : FlashRun
  check : FlashRun
  saves : Bool
  serial : SerialAnswers

def FlashAnswers.steps (a : FlashAnswers) : List (FlashStep × FlashRun) :=
  [(.eraseFlash,a.erase),(.flashApp,a.app),(.writeProv,a.prov),(.verifyProv,a.check)]

def flashOne (opts : StationOpts) (app iccid : Text) (u : Entry Digest) (a : FlashAnswers) (w : World Digest) :
    World Digest × Bool :=
  let manifest := w.batch.manifests iccid
  match flashSteps app iccid a.steps w with
  | (w,.threw) => (w,false)
  | (w,.failed step) => saved a.saves w (·.setUnit iccid (·.note (lit "flash step " ++ stepName step ++ lit " failed")))
  | (w,.done) =>
    match saved a.saves w (·.setUnit iccid (·.setStage (.flashed ⟨app,u.blob.map BlobStage.sha256,a.port⟩))) with
    | (w,true) => serialVerify opts iccid manifest a.serial w
    | (w,false) => (w,false)

section
variable [DecidableEq Digest] (sha256File : File → Digest)

/-- Whether the station flashes the unit now. -/
def flashable (opts : StationOpts) (iccid : Text) (u : Entry Digest) (confirmed : Bool) (w : World Digest) : Bool :=
  (u.stageOf ≠ .verified || opts.redo) &&
    (match u.blob,w.batch.blobs iccid with
      | some blob,some file => sha256File file = blob.sha256
      | _,_ => false) && (opts.yes || confirmed)

/-- One round of the station: what the operator enters, and what becomes of it. -/
def stationRound (opts : StationOpts) (app : Text) (entered : Text × FlashAnswers) (w : World Digest) : World Digest × Bool :=
  match normalizeIccid entered.1 with
  | none => (w,true)
  | some iccid =>
    match w.batch.units iccid with
    | none => (w,true)
    | some u =>
      if flashable sha256File opts iccid u entered.2.confirmed w then flashOne opts app iccid u entered.2 w else (w,true)

/-- The build that is to be flashed, recorded at the first time; none where the station does not open. -/
def checkFrozenBuild (build : Option AppBuild) (confirmed saves : Bool) (w : World Digest) : Option (World Digest × AppBuild) :=
  match build,w.batch.esp32App with
  | none,_ => none
  | some build,none => if confirmed && saves then some ({ w with batch.esp32App := some build },build) else none
  | some build,some frozen => if frozen.sha256 = build.sha256 then some (w,frozen) else none

structure StationAnswers where
  devMonitor : Bool
  build : Option AppBuild
  freeze : Bool
  freezeSaves : Bool
  entered : List (Text × FlashAnswers)
  serial : SerialAnswers

/-- Up to the operator's end. -/
def rounds (a : StationAnswers) : List (Text × FlashAnswers) :=
  a.entered.takeWhile fun x => lower x.1 ≠ lit "q" && x.1 ≠ []

def cmdFlashEsp32 (opts : StationOpts) (a : StationAnswers) (w : World Digest) : World Digest :=
  if a.devMonitor then w
  else
    match checkFrozenBuild a.build a.freeze a.freezeSaves w with
    | none => w
    | some (w,build) =>
      match opts.verifyOnly with
      | none => (through (stationRound sha256File opts build.sha256) (rounds a) w).1
      | some raw =>
        match (normalizeIccid raw).bind fun iccid => (w.batch.units iccid).map fun u => (iccid,u) with
        | none => w
        | some (iccid,u) =>
          if u.flashed.isNone then w else (serialVerify opts iccid (w.batch.manifests iccid) a.serial w).1

end
end Web3PiUps.FactoryEsp32
