import Web3PiUps.FactoryLedger

/-! `provision.mjs` and `blobs.mjs`: secrets are issued on the server, their manifests pulled and
blobs built from them. What the outside answers is an argument. -/
namespace Web3PiUps.FactoryProvision
open FactoryLedger

/-- How a process ended: not spawned at all, or with an exit code unless it was killed. -/
inductive Ran where
  | threw
  | exited (code : Option Int) (stdout stderr : Text)
  deriving DecidableEq, Repr

variable {Digest : Type}

/-- A write that throws ends the command. -/
def saved (succeeds : Bool) (w : World Digest) (f : World Digest → World Digest) : World Digest × Bool :=
  if succeeds then (f w,true) else (w,false)

/-- One unit after the other, until one throws. -/
def through {Unit : Type} (process : Unit → World Digest → World Digest × Bool) : List Unit → World Digest → World Digest × Bool
  | [],w => (w,true)
  | unit::rest,w =>
    match process unit w with
    | (w,true) => through process rest w
    | (w,false) => (w,false)

/-! What `provision-device.mjs` prints. -/

inductive Verdict where
  | fresh
  | exists_ (status : Text)
  | claimed
  | error
  deriving DecidableEq, Repr

def statusChar (c : Char) : Bool := ('a' ≤ c && c ≤ 'z') || c = '_'

/-- The status named between `start` and a closing parenthesis. -/
def statusAfter (start text : Text) : Option Text := do
  let rest ← past start text
  let status := rest.takeWhile statusChar
  if status ≠ [] ∧ (rest.drop status.length).head? = some ')' then some status else none

def interpretDryRun (code : Option Int) (stdout stderr : Text) : Verdict :=
  let text := stdout ++ stderr
  let dry := firstMatch (past (lit "[dry-run]")) text
  let absent := dry.bind (firstMatch (past (lit "absent")))
  if code = some 0 && (absent.bind (firstMatch (past (lit "INSERT")))).isSome then .fresh
  else if code = some 0 && (dry.bind (firstMatch (statusAfter (lit "exists (status=")))).isSome then
    .exists_ ((firstMatch (statusAfter (lit "exists (status=")) text).getD [])
  else if occurs (lower (lit "already CLAIMED")) (lower text) then .claimed
  else
    match firstMatch (statusAfter (lit "already provisioned (status=")) text with
    | some status => .exists_ status
    | none => .error

/-- An uncompressed public key in hex behind `start`. -/
def keyAfter (start text : Text) : Option Text := do
  let rest ← past start text
  let key := rest.take 130
  if key.length = 130 ∧ key.take 2 = lit "04" ∧ (key.drop 2).all isHex = true then some (lower key) else none

def decimal (digits : Text) : Nat := digits.foldl (fun n c => n*10 + (c.toNat - '0'.toNat)) 0

def numberAfter (start text : Text) : Option Nat := do
  let rest ← past start text
  let digits := rest.takeWhile isDigit
  if digits = [] then none else some (decimal digits)

/-- The fleet keys of the output, learned at the first time; none where it throws. -/
def extractAndCheckFleet (fleet : Option Fleet) (stderr : Text) : Option Fleet :=
  if occurs (lit "<TODO") stderr then none
  else do
    let op ← firstMatch (keyAfter (lit "--bk-op-pub ")) stderr
    let root ← firstMatch (keyAfter (lit "--bk-root-pub ")) stderr
    let epoch ← firstMatch (numberAfter (lit "--bk-epoch ")) stderr
    match fleet with
    | none => some ⟨op,root,epoch⟩
    | some known => if known = ⟨op,root,epoch⟩ then some known else none

def accepted (code : Option Int) (stderr : Text) : Bool := code = some 0 && occurs (lit "✅ provisioned") stderr

/-- What `cat` in the container gives; the text is parsed, if it is JSON. -/
inductive Fetched where
  | threw
  | failed (stderr : Text)
  | text (parsed : Option Manifest)

structure Pull where
  container : Fetched
  /-- The file of the panel checkout, if there is one. -/
  panelRepo : Option (Option Manifest)
  saves : Bool

inductive Pulled where
  | failed (error : Text)
  | ok (m : Manifest) (source : Source)

def sourceName : Source → Text
  | .container => lit "container"
  | .panelRepo => lit "panel-repo"

def readManifest (iccid : Text) (source : Source) : Option Manifest → Pulled
  | none => .failed (lit "manifest from " ++ sourceName source ++ lit " is not valid JSON")
  | some m =>
    match validateManifest m iccid with
    | [] => .ok m source
    | errs => .failed (lit "manifest from " ++ sourceName source ++ lit " invalid: " ++ (lit "; ").intercalate errs)

/-- Before it is saved; none where `ssh` cannot be spawned. -/
def fetchManifest (iccid : Text) (a : Pull) : Option Pulled :=
  match a.container with
  | .threw => none
  | .text parsed => some (readManifest iccid .container parsed)
  | .failed stderr =>
    match a.panelRepo with
    | some parsed => some (readManifest iccid .panelRepo parsed)
    | none =>
      some (.failed (if trimText stderr = [] then lit "no manifest in container nor in local panel repo" else trimText stderr))

def pullManifest (iccid : Text) (a : Pull) (w : World Digest) : World Digest × Option Pulled :=
  match fetchManifest iccid a with
  | some (.ok m source) => if a.saves then (w.setManifest iccid m,some (.ok m source)) else (w,none)
  | pulled => (w,pulled)

/-- The row of the device, as the helper prints it. -/
structure Row (Digest : Type) where
  claimTokenHash : Option Digest
  arkivDevicePubkey : Option Text

inductive RowRead (Digest : Type) where
  | threw
  | failed
  | row (r : Option (Row Digest))

structure ProvisionOpts where
  iccid : Option Text
  dryRun : Bool
  reissue : Bool

/-- What the outside does for one unit. `issued` is the set of secrets that the real run makes current. -/
structure ProvisionAnswers (Digest : Type) where
  dry : Ran
  real : Ran
  issued : Option Secrets
  pull : Pull
  row : RowRead Digest
  configSaves : Bool
  saves : Bool

section
variable [DecidableEq Digest] (sha256Text : Text → Digest)

def manifestMatchesRow (m : Manifest) (row : Option (Row Digest)) : Bool :=
  match row.bind Row.claimTokenHash with
  | none => false
  | some hash =>
    if m.claimToken.map sha256Text ≠ some hash then false
    else
      match (row.bind Row.arkivDevicePubkey).filter (· ≠ []),(m.arkiv.bind ArkivKeys.pubHex).filter (· ≠ []) with
      | some key,some own => lower key = lower own
      | _,_ => true

/-- The row exists: its manifest is taken if it is the row's. -/
def recover (iccid status : Text) (a : ProvisionAnswers Digest) (w : World Digest) : World Digest × Bool :=
  match pullManifest iccid a.pull w with
  | (w,none) => (w,false)
  | (w,some (.failed error)) =>
    saved a.saves w (·.setUnit iccid (·.note (lit "provisioned on server but manifest unrecoverable: " ++ error)))
  | (w,some (.ok m source)) =>
    match a.row with
    | .threw => (w,false)
    | .failed => (w,true)
    | .row row =>
      if manifestMatchesRow sha256Text m row then
        saved a.saves w (·.setUnit iccid (·.setStage (.provisioned (.reused source status))))
      else
        saved a.saves w (·.setUnit iccid
          (·.note (lit "stale manifest from " ++ sourceName source ++ lit " rejected (DB row mismatch)")))

/-- The real run, which inserts the row or rotates its secrets. -/
def issue (iccid : Text) (reissued : Bool) (a : ProvisionAnswers Digest) (w : World Digest) : World Digest × Bool :=
  match a.real with
  | .threw => (w,false)
  | .exited code _ stderr =>
    let w := w.setServer iccid a.issued
    if accepted code stderr = false then (w,true)
    else
      match extractAndCheckFleet w.batch.fleet stderr with
      | none => (w,false)
      | some fleet =>
        if w.batch.fleet = none ∧ a.configSaves = false then (w,false)
        else
          match pullManifest iccid a.pull (w.setFleet fleet) with
          | (w,none) => (w,false)
          | (w,some (.failed error)) => saved a.saves w (·.setUnit iccid (·.note (lit "manifest pull failed: " ++ error)))
          | (w,some (.ok _ _)) => saved a.saves w (·.setUnit iccid (·.setStage (.provisioned (.issued reissued))))

def provisionUnit (opts : ProvisionOpts) (iccid : Text) (a : ProvisionAnswers Digest) (w : World Digest) :
    World Digest × Bool :=
  match a.dry with
  | .threw => (w,false)
  | .exited code stdout stderr =>
    if opts.dryRun then (w,true)
    else
      match interpretDryRun code stdout stderr with
      | .claimed =>
        saved a.saves w (·.setUnit iccid fun u =>
          { u with serverStatus := some (lit "claimed") }.note (lit "provision skipped: already claimed on server"))
      | .error => (w,true)
      | .fresh => issue iccid false a w
      | .exists_ status => if opts.reissue then issue iccid true a w else recover sha256Text iccid status a w

/-- The units asked for; none where one of them is not of the batch. -/
def asked (iccid : Option Text) (w : World Digest) (wanted : Text → Entry Digest → Bool) : Option (List Text) :=
  let iccids := match iccid with
    | some iccid => [iccid]
    | none => w.batch.iccidOrder
  if iccids.all fun i => (w.batch.units i).isSome then some (iccids.filter fun i => (w.batch.units i).any (wanted i)) else none

def provisionTargets (opts : ProvisionOpts) (w : World Digest) : Option (List Text) :=
  asked opts.iccid w fun _ u => opts.reissue || u.provisioned.isNone

/-- `ready` is whether the container was found and the scripts pushed. -/
def cmdProvision (opts : ProvisionOpts) (ready : Bool) (answers : Text → ProvisionAnswers Digest) (w : World Digest) :
    World Digest :=
  if opts.reissue && opts.iccid.isNone then w
  else
    match provisionTargets opts w with
    | none => w
    | some targets =>
      if ready then (through (fun iccid => provisionUnit sha256Text opts iccid (answers iccid)) targets w).1 else w

end

/-! `blobs.mjs`. -/

abbrev provSize : Nat := 0x4000

structure BlobsOpts where
  iccid : Option Text
  force : Bool

/-- The run of `make-nvs-blob` and the file there is after it. -/
structure BlobAnswers where
  run : Ran
  left : Option File
  saves : Bool

def blobArgs (fleet : Fleet) (iccid : Text) (m : Manifest) : BlobArgs where
  secret := m.mqttSecretHex.getD []
  bkOpPub := fleet.bkOpPub
  bkRootPub := fleet.bkRootPub
  bkEpoch := fleet.bkEpoch
  iccid := iccid
  akDevPriv := (m.arkiv.bind ArkivKeys.privHex).filter (· ≠ [])

/-- With exit code 0 the file is the image of the arguments. -/
def madeBlob (code : Option Int) (args : BlobArgs) (left : Option File) : Option File :=
  if code = some 0 then left.map fun file => ⟨.image args,file.size⟩ else left

section
variable (sha256File : File → Digest)

def blobUnit (iccid : Text) (a : BlobAnswers) (w : World Digest) : World Digest × Bool :=
  match w.batch.manifests iccid,w.batch.fleet with
  | some m,some fleet =>
    if m.bkEpoch ≠ some fleet.bkEpoch then (w,true)
    else
      match a.run with
      | .threw => (w,false)
      | .exited code _ _ =>
        let out := madeBlob code (blobArgs fleet iccid m) a.left
        let w := w.setBlob iccid out
        match out with
        | none => (w,true)
        | some file =>
          if code ≠ some 0 ∨ file.size ≠ provSize then (w,true)
          else saved a.saves w (·.setUnit iccid (·.setStage (.blob ⟨sha256File file,m.arkiv.isSome,false⟩)))
  | _,_ => (w,true)

def wantsBlob (opts : BlobsOpts) (w : World Digest) (iccid : Text) (u : Entry Digest) : Bool :=
  u.provisioned.isSome && (opts.force ||
    match u.blob with
    | none => true
    | some blob => !blob.deleted && (w.batch.blobs iccid).isNone)

/-- `toolFound` is whether `make-nvs-blob` is there. -/
def cmdBlobs (opts : BlobsOpts) (toolFound : Bool) (answers : Text → BlobAnswers) (w : World Digest) : World Digest :=
  if w.batch.fleet.isNone || (opts.force && opts.iccid.isNone) || !toolFound then w
  else
    match asked opts.iccid w (wantsBlob opts w) with
    | none => w
    | some targets => (through (fun iccid => blobUnit sha256File iccid (answers iccid)) targets w).1

end
end Web3PiUps.FactoryProvision
