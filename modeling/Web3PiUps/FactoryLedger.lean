import Mathlib.Data.List.Nodup
import Mathlib.Logic.Function.Basic

/-! The batch of `tools/factory`: its ledger, and what stands outside of it: the server that issues
the secrets, the boards and what they print. -/
namespace Web3PiUps.FactoryLedger

abbrev Text := List Char

def lit (text : String) : Text := text.toList

def isDigit (c : Char) : Bool := '0' ≤ c && c ≤ '9'

def isHex (c : Char) : Bool := isDigit c || ('a' ≤ c && c ≤ 'f') || ('A' ≤ c && c ≤ 'F')

def lower (text : Text) : Text := text.map Char.toLower

/-! A regular expression is a reader of what it matches at the start of a text. -/

def firstMatch {α : Type} (reader : Text → Option α) : Text → Option α
  | [] => reader []
  | c::rest => (reader (c::rest)).orElse fun _ => firstMatch reader rest

/-- What stands behind it. -/
def past (start text : Text) : Option Text := if start.isPrefixOf text then some (text.drop start.length) else none

def occurs (part text : Text) : Bool := (firstMatch (past part) text).isSome

/-- The canonical form has 19 digits. -/
def normalizeIccid (raw : Text) : Option Text :=
  let d := raw.filter isDigit
  if d.length = 20 then some (d.take 19)
  else if d.length = 19 then some d
  else none

structure ArkivKeys where
  privHex : Option Text
  pubHex : Option Text
  deriving DecidableEq, Repr

/-- A manifest as parsed; none of its fields has to be there. -/
structure Manifest where
  iccid : Option Text
  claimToken : Option Text
  mqttSecretHex : Option Text
  arkiv : Option ArkivKeys
  bkEpoch : Option Int
  deriving DecidableEq, Repr

def tokenChar (c : Char) : Bool := ('A' ≤ c && c ≤ 'Z') || ('2' ≤ c && c ≤ '9')

def isClaimToken (text : Text) : Bool :=
  text.length = 11 && text[5]? = some '-' && (text.take 5).all tokenChar && (text.drop 6).all tokenChar

def isHex64 (text : Text) : Bool := text.length = 64 && text.all isHex

/-- What is wrong with it. -/
def validateManifest (m : Manifest) (iccid : Text) : List Text :=
  (if normalizeIccid (m.iccid.getD []) ≠ some iccid
    then [lit "iccid mismatch (" ++ m.iccid.getD (lit "undefined") ++ lit ")"] else []) ++
  (if isClaimToken (m.claimToken.getD []) then [] else [lit "claimToken missing/malformed"]) ++
  (if isHex64 (m.mqttSecretHex.getD []) then [] else [lit "mqttSecretHex missing/malformed"]) ++
  (if m.arkiv.all fun keys => isHex64 (keys.privHex.getD []) then [] else [lit "arkiv.privHex malformed"]) ++
  (if m.bkEpoch.any (1 ≤ ·) then [] else [lit "bkEpoch missing"])

inductive Stage where
  | pending
  | provisioned
  | blob
  | flashed
  | verified
  deriving DecidableEq, Repr

inductive Source where
  | container
  | panelRepo
  deriving DecidableEq, Repr

inductive Provisioned where
  | reused (source : Source) (serverStatus : Text)
  | issued (reissued : Bool)
  deriving DecidableEq, Repr

structure BlobStage (Digest : Type) where
  sha256 : Digest
  arkiv : Bool
  deleted : Bool

structure FlashedStage (Digest : Type) where
  appSha256 : Text
  blobSha256 : Option Digest
  port : Text

structure VerifiedStage where
  secretPrefix : Text
  rssi : Option Nat

/-- What the ledger has of a unit. -/
structure Entry (Digest : Type) where
  provisioned : Option Provisioned
  blob : Option (BlobStage Digest)
  flashed : Option (FlashedStage Digest)
  verified : Option VerifiedStage
  serverStatus : Option Text
  notes : List Text

inductive Done (Digest : Type) where
  | provisioned (details : Provisioned)
  | blob (details : BlobStage Digest)
  | flashed (details : FlashedStage Digest)
  | verified (details : VerifiedStage)

namespace Entry
variable {Digest : Type}

def stageOf (u : Entry Digest) : Stage :=
  if u.verified.isSome then .verified
  else if u.flashed.isSome then .flashed
  else if u.blob.isSome then .blob
  else if u.provisioned.isSome then .provisioned
  else .pending

/-- A stage invalidates what is downstream of it. -/
def setStage (u : Entry Digest) : Done Digest → Entry Digest
  | .provisioned details => { u with provisioned := some details, blob := none, flashed := none, verified := none }
  | .blob details => { u with blob := some details, flashed := none, verified := none }
  | .flashed details => { u with flashed := some details, verified := none }
  | .verified details => { u with verified := some details }

def clearStage (u : Entry Digest) : Stage → Entry Digest
  | .pending => u
  | .provisioned => { u with provisioned := none }
  | .blob => { u with blob := none }
  | .flashed => { u with flashed := none }
  | .verified => { u with verified := none }

def note (u : Entry Digest) (text : Text) : Entry Digest := { u with notes := u.notes ++ [text] }

def pending : Entry Digest := ⟨none,none,none,none,none,[]⟩

end Entry

/-- What a blob is made from. -/
structure BlobArgs where
  secret : Text
  bkOpPub : Text
  bkRootPub : Text
  bkEpoch : Int
  iccid : Text
  akDevPriv : Option Text
  deriving DecidableEq, Repr

inductive Content where
  | image (args : BlobArgs)
  | other (bytes : Text)
  deriving DecidableEq, Repr

structure File where
  content : Content
  size : Nat
  deriving DecidableEq, Repr

/-- The digest of the app that is completely written, and the file that the prov partition holds. -/
structure Board where
  app : Option Text
  prov : Option File
  deriving DecidableEq, Repr

/-- A set of secrets, as the server issues it. -/
structure Secrets where
  claimToken : Text
  mqttSecretHex : Text
  arkivPrivHex : Option Text
  deriving DecidableEq, Repr

def Manifest.Carries (m : Manifest) (s : Secrets) : Prop :=
  m.claimToken = some s.claimToken ∧ m.mqttSecretHex = some s.mqttSecretHex ∧ m.arkiv.bind ArkivKeys.privHex = s.arkivPrivHex

instance (m : Manifest) (s : Secrets) : Decidable (m.Carries s) := by unfold Manifest.Carries; infer_instance

structure Fleet where
  bkOpPub : Text
  bkRootPub : Text
  bkEpoch : Int
  deriving DecidableEq, Repr

structure AppBuild where
  file : Text
  sha256 : Text
  project : Text
  deriving DecidableEq, Repr

/-- The batch directory: ledger, configuration, manifests and blobs. -/
structure Batch (Digest : Type) where
  iccidOrder : List Text
  units : Text → Option (Entry Digest)
  esp32App : Option AppBuild
  fleet : Option Fleet
  manifests : Text → Option Manifest
  blobs : Text → Option File

/-- The batch, the server's current secrets of each unit, the board of each SIM, and what the board
printed since its flash last changed, verification by verification. -/
structure World (Digest : Type) where
  batch : Batch Digest
  server : Text → Option Secrets
  boards : Text → Board
  serial : Text → List (List Text)

namespace World
variable {Digest : Type}

def setUnit (w : World Digest) (iccid : Text) (f : Entry Digest → Entry Digest) : World Digest :=
  { w with batch.units := Function.update w.batch.units iccid ((w.batch.units iccid).map f) }

def setManifest (w : World Digest) (iccid : Text) (m : Manifest) : World Digest :=
  { w with batch.manifests := Function.update w.batch.manifests iccid (some m) }

def setBlob (w : World Digest) (iccid : Text) (file : Option File) : World Digest :=
  { w with batch.blobs := Function.update w.batch.blobs iccid file }

def setFleet (w : World Digest) (fleet : Fleet) : World Digest := { w with batch.fleet := some fleet }

def setServer (w : World Digest) (iccid : Text) (issued : Option Secrets) : World Digest :=
  { w with server := Function.update w.server iccid (issued.or (w.server iccid)) }

/-- The flash of the board changed; what it printed before says nothing of it. -/
def setBoard (w : World Digest) (iccid : Text) (board : Board) : World Digest :=
  { w with boards := Function.update w.boards iccid board, serial := Function.update w.serial iccid [] }

def hear (w : World Digest) (iccid : Text) (texts : List Text) : World Digest :=
  { w with serial := Function.update w.serial iccid (w.serial iccid ++ [texts]) }

end World

def blankChar (c : Char) : Bool := c = ' ' || c = '\t' || c = '\r' || c = '\n'

def trimText (text : Text) : Text := ((text.dropWhile blankChar).reverse.dropWhile blankChar).reverse

/-- The normalized ICCIDs, if no line is wrong; `seen` are those of the lines before. -/
def iccidLines (seen : List Text) : List Text → Option (List Text)
  | [] => some seen
  | line::rest =>
    let line := trimText line
    if line = [] || (lit "#").isPrefixOf line then iccidLines seen rest
    else
      match normalizeIccid line with
      | none => none
      | some norm => if norm ∈ seen then none else iccidLines (seen ++ [norm]) rest

def parseIccidList (text : Text) : Option (List Text) := iccidLines [] (text.splitOn '\n')

def createBatch (Digest : Type) (iccids : List Text) : Batch Digest where
  iccidOrder := iccids
  units iccid := if iccid ∈ iccids then some Entry.pending else none
  esp32App := none
  fleet := none
  manifests _ := none
  blobs _ := none

theorem linesDistinct {seen : List Text} {lines : List Text} {iccids : List Text} (distinct : seen.Nodup)
    (h : iccidLines seen lines = some iccids) : iccids.Nodup := by
  induction lines generalizing seen with
  | nil =>
    cases h
    exact distinct
  | cons line rest ih =>
    rw [iccidLines] at h
    split at h
    · exact ih distinct h
    · split at h
      · exact absurd h nofun
      · split at h
        · exact absurd h nofun
        · rename_i fresh
          refine ih (distinct.append (List.nodup_singleton _) ?_) h
          exact List.disjoint_singleton.mpr fresh

end Web3PiUps.FactoryLedger
