import Web3PiUps.FactoryLedgerProof

/-! The flash of a unit, and runs of commands: when a verified unit is the one to be shipped. -/
namespace Web3PiUps.FactoryLedger
open FactoryProvision FactoryEsp32

variable {Digest : Type}

/-- Each of the steps is taken for good. -/
def AllOk (steps : List (FlashStep × FlashRun)) : Prop :=
  ∀ x ∈ steps, ∃ code stdout stderr, x.2.run = .exited code stdout stderr ∧ stepOk x.1 code stdout stderr = true

/-- The board as it is written, step by step. -/
def boardAfter (app : Text) (blob : Option File) (steps : List FlashStep) (board : Board) : Board :=
  steps.foldl (flashed app blob) board

section
variable {app iccid : Text} {steps : List (FlashStep × FlashRun)} {w : World Digest}

/-- The steps of a flash change the board and nothing else. -/
structure Flashing (iccid : Text) (w w' : World Digest) : Prop where
  batch : w'.batch = w.batch
  server : w'.server = w.server
  elsewhere : Elsewhere iccid w w'

theorem Flashing.refl (iccid : Text) (w : World Digest) : Flashing iccid w w := ⟨rfl,rfl,.refl iccid w⟩

theorem flashingBoard {w' : World Digest} (before : Flashing iccid w w') (board : Board) :
    Flashing iccid w (w'.setBoard iccid board) :=
  ⟨before.batch,before.server,before.elsewhere.trans (elsewhereBoard w' board)⟩

theorem flashStepsFlashing {w' : World Digest} (before : Flashing iccid w w') :
    Flashing iccid w (flashSteps app iccid steps w').1 := by
  induction steps generalizing w' with
  | nil => exact before
  | cons x rest ih =>
    obtain ⟨step,a⟩ := x
    rw [flashSteps]
    cases a.run with
    | threw => exact before
    | exited code stdout stderr =>
      dsimp only
      cases changed app (w'.batch.blobs iccid) (w'.boards iccid) step code a.left with
      | none =>
        dsimp only
        split
        · exact ih before
        · exact before
      | some board =>
        have written := flashingBoard before board
        dsimp only
        split
        · exact ih written
        · exact written

theorem okZero {step : FlashStep} {code : Option Int} {stdout stderr : Text} (ok : stepOk step code stdout stderr = true) :
    code = some 0 := by
  unfold stepOk at ok
  exact of_decide_eq_true (Bool.and_eq_true_iff.mp ok).1

theorem changedZero (app : Text) (blob : Option File) (board : Board) (step : FlashStep) (left : Option Board) :
    (changed app blob board step (some 0) left).getD board = flashed app blob board step := by
  cases step with
  | eraseFlash => rfl
  | flashApp => rfl
  | writeProv => rfl
  | verifyProv => rfl

theorem flashStepsDone (done : (flashSteps app iccid steps w).2 = .done) : AllOk steps := by
  induction steps generalizing w with
  | nil => exact nofun
  | cons x rest ih =>
    obtain ⟨step,a⟩ := x
    rw [flashSteps] at done
    cases ran : a.run with
    | threw =>
      rw [ran] at done
      exact absurd done nofun
    | exited code stdout stderr =>
      rw [ran] at done
      dsimp only at done
      split at done
      · rename_i ok
        intro x mem
        rcases List.mem_cons.mp mem with rfl | mem
        · exact ⟨code,stdout,stderr,ran,ok⟩
        · exact ih done x mem
      · exact absurd done nofun

theorem flashStepsWritten (ok : AllOk steps) : (flashSteps app iccid steps w).2 = .done ∧
    (flashSteps app iccid steps w).1.boards iccid =
      boardAfter app (w.batch.blobs iccid) (steps.map Prod.fst) (w.boards iccid) := by
  induction steps generalizing w with
  | nil => exact ⟨rfl,rfl⟩
  | cons x rest ih =>
    obtain ⟨step,a⟩ := x
    obtain ⟨code,stdout,stderr,ran,good⟩ := ok (step,a) List.mem_cons_self
    have others : AllOk rest := fun y mem => ok y (List.mem_cons_of_mem _ mem)
    have ran : a.run = .exited code stdout stderr := ran
    have good : stepOk step code stdout stderr = true := good
    have board := changedZero app (w.batch.blobs iccid) (w.boards iccid) step a.left
    rw [flashSteps,ran]
    cases okZero good
    dsimp only
    rw [if_pos good,List.map_cons,boardAfter,List.foldl_cons,← boardAfter,← board]
    cases changed app (w.batch.blobs iccid) (w.boards iccid) step (some 0) a.left with
    | none => exact ih others
    | some board =>
      have later := ih (w := w.setBoard iccid board) others
      simp only [World.setBoard,Function.update_self] at later
      exact later

end

/-- The flash is complete and the ledger has it. -/
def Completes (a : FlashAnswers) : Prop := AllOk a.steps ∧ a.saves = true

/-- The erase fails and leaves the board as it was. -/
def Untouched (a : FlashAnswers) : Prop :=
  a.erase.run = .threw ∨ ∃ code stdout stderr, a.erase.run = .exited code stdout stderr ∧ code ≠ some 0 ∧ a.erase.left = none

theorem untouchedSame {app iccid : Text} {a : FlashAnswers} {w : World Digest} (same : Untouched a) :
    (flashSteps app iccid a.steps w).1 = w ∧ (flashSteps app iccid a.steps w).2 ≠ .done := by
  rw [FlashAnswers.steps,flashSteps]
  rcases same with threw | ⟨code,stdout,stderr,ran,fails,left⟩
  · rw [threw]
    exact ⟨rfl,nofun⟩
  · have bad : stepOk .eraseFlash code stdout stderr = false := by
      rw [← Bool.not_eq_true]
      exact fun ok => fails (okZero ok)
    have unchanged : changed app (w.batch.blobs iccid) (w.boards iccid) .eraseFlash code none = none := by
      rw [changed,if_neg nofun,if_neg fails]
    rw [ran,left]
    dsimp only
    rw [unchanged,bad]
    exact ⟨rfl,nofun⟩

section
variable {sha256File : File → Digest}

theorem keptUnverified {iccid : Text} {p q : Place} {u : Entry Digest} (kept : KeptUnit sha256File iccid p u)
    (open_ : ¬u.verified.isSome = true) (manifest : q.manifest = p.manifest) (server : q.server = p.server) :
    KeptUnit sha256File iccid q u := by
  obtain ⟨first,saved,built,flashed,-,-⟩ := kept
  rw [← manifest] at saved built
  rw [← server] at saved
  exact ⟨first,saved,built,flashed,fun some_ => absurd some_ open_,fun some_ => absurd some_ open_⟩

theorem flashingKept {iccid : Text} {w w' : World Digest} {u : Entry Digest} (kept : Kept sha256File w)
    (at_ : w.batch.units iccid = some u) (flashing : Flashing iccid w w')
    (same : u.verified.isSome = true → w' = w) : Kept sha256File w' := by
  refine keptAt kept flashing.elsewhere fun u' there => ?_
  rw [flashing.batch] at there
  cases at_.symm.trans there
  by_cases verified : u.verified.isSome = true
  · rw [same verified]
    exact kept.units iccid u at_
  · refine keptUnverified (kept.units iccid u at_) verified ?_ ?_
    · simp only [World.place,flashing.batch]
    · simp only [World.place,flashing.server]

variable [DecidableEq Digest]

theorem flashableFile {opts : StationOpts} {iccid : Text} {u : Entry Digest} {confirmed : Bool} {w : World Digest}
    (ready : flashable sha256File opts iccid u confirmed w = true) :
    ∃ file, w.batch.blobs iccid = some file ∧ u.blob.map BlobStage.sha256 = some (sha256File file) := by
  unfold flashable at ready
  have same := (Bool.and_eq_true_iff.mp (Bool.and_eq_true_iff.mp ready).1).2
  split at same
  · rename_i blob file built here
    exact ⟨file,here,by rw [built,Option.map_some,of_decide_eq_true same]⟩
  · exact absurd same nofun

theorem flashOneKeeps (filesApart : Function.Injective sha256File) {opts : StationOpts} {app iccid : Text} {u : Entry Digest}
    {a : FlashAnswers} {w : World Digest} (kept : Kept sha256File w) (at_ : w.batch.units iccid = some u)
    (ready : flashable sha256File opts iccid u a.confirmed w = true)
    (meets : u.verified.isSome = true → Completes a ∨ Untouched a) :
    Kept sha256File (flashOne opts app iccid u a w).1 := by
  obtain ⟨file,here,digest⟩ := flashableFile ready
  have flashing : Flashing iccid w (flashSteps app iccid a.steps w).1 := flashStepsFlashing (.refl iccid w)
  -- a flash that is not complete leaves a verified unit alone
  have stopped (incomplete : ¬Completes a) : Kept sha256File (flashSteps app iccid a.steps w).1 :=
    flashingKept kept at_ flashing fun verified => (untouchedSame ((meets verified).resolve_left incomplete)).1
  have done : (flashSteps app iccid a.steps w).2 = .done → AllOk a.steps := flashStepsDone
  have written : AllOk a.steps → (flashSteps app iccid a.steps w).1.boards iccid = ⟨some app,some file⟩ := by
    intro ok
    rw [(flashStepsWritten ok).2,here]
    rfl
  have ended : AllOk a.steps → (flashSteps app iccid a.steps w).2 = .done := fun ok => (flashStepsWritten ok).1
  unfold flashOne
  generalize flashSteps app iccid a.steps w = did at *
  obtain ⟨w',end_⟩ := did
  have there : w'.batch.units iccid = some u := by
    rw [flashing.batch]
    exact at_
  cases end_ with
  | threw => exact stopped fun complete => absurd (ended complete.1) (by simp)
  | failed step =>
    have stays := stopped fun complete => absurd (ended complete.1) (by simp)
    exact savedKept (fun _ => stays) fun _ => fewerKept stays (noteFewer _)
  | done =>
    dsimp only
    cases saves : a.saves with
    | false => exact stopped fun complete => absurd (saves.symm.trans complete.2) nofun
    | true =>
      have before := kept.units iccid u at_
      obtain ⟨m,file',manifest,from_,same⟩ := before.built _ digest
      cases filesApart same
      have batch : w'.batch = w.batch := flashing.batch
      have sameManifest : (w'.place iccid).manifest = (w.place iccid).manifest := by simp only [World.place,batch]
      have sameServer : (w'.place iccid).server = (w.place iccid).server := congrFun flashing.server iccid
      have holds : Written iccid (w'.place iccid) := by
        have board : (w'.place iccid).board = ⟨some app,some file⟩ := written (done rfl)
        refine ⟨m,file,sameManifest.trans manifest,from_,?_⟩
        rw [board]
        exact ⟨rfl,rfl⟩
      have flashed : Kept sha256File
          (w'.setUnit iccid (·.setStage (.flashed ⟨app,u.blob.map BlobStage.sha256,a.port⟩))) := by
        refine keptAt kept (flashing.elsewhere.trans (elsewhereUnit w' _)) fun u' now => ?_
        rw [unitSet,there] at now
        cases now
        have built : u.blob.isSome = true := by
          rw [← Option.isSome_map,digest]
          rfl
        refine ⟨fun _ => before.first (.inl built),fun provisioned => ?_,fun sha here => ?_,?_,
          (fun h => by cases h),fun h => by cases h⟩
        · obtain ⟨m,s,saved,current,carries⟩ := before.saved provisioned
          exact ⟨m,s,sameManifest.trans saved,sameServer.trans current,carries⟩
        · obtain ⟨m,file,saved,from_,same⟩ := before.built sha here
          exact ⟨m,file,sameManifest.trans saved,from_,same⟩
        · rintro f ⟨⟩
          rfl
      have now := unitSet w' iccid (·.setStage (.flashed ⟨app,u.blob.map BlobStage.sha256,a.port⟩))
      rw [there] at now
      dsimp only [saved]
      rw [← batch]
      exact serialKeeps flashed now rfl fun _ _ _ => holds

end

inductive Command (Digest : Type) where
  | provision (opts : ProvisionOpts) (ready : Bool) (answers : Text → ProvisionAnswers Digest)
  | blobs (opts : BlobsOpts) (toolFound : Bool) (answers : Text → BlobAnswers)
  | flashEsp32 (opts : StationOpts) (answers : StationAnswers)

section
variable [DecidableEq Digest] (sha256File : File → Digest) (sha256Text : Text → Digest)

def run : Command Digest → World Digest → World Digest
  | .provision opts ready answers,w => cmdProvision sha256Text opts ready answers w
  | .blobs opts toolFound answers,w => cmdBlobs sha256File opts toolFound answers w
  | .flashEsp32 opts answers,w => cmdFlashEsp32 sha256File opts answers w

/-- The command comes to these units. -/
def Starts (opts : ProvisionOpts) (ready : Bool) (w : World Digest) (targets : List Text) : Prop :=
  ready = true ∧ (opts.reissue && opts.iccid.isNone) = false ∧ provisionTargets opts w = some targets

/-- What is known of the server at each unit of a command. -/
def Law : Command Digest → World Digest → Prop
  | .provision opts ready answers,w => ∀ targets, Starts opts ready w targets →
    Along (fun iccid => provisionUnit sha256Text opts iccid (answers iccid))
      (fun iccid => ServerLaw sha256Text iccid (answers iccid)) targets w
  | .blobs ..,_ => True
  | .flashEsp32 ..,_ => True

/-- A verified unit that is flashed again gets all of it, or keeps what it has. -/
def FlashMeets (opts : StationOpts) (entered : Text × FlashAnswers) (w : World Digest) : Prop :=
  ∀ iccid u, normalizeIccid entered.1 = some iccid → w.batch.units iccid = some u → u.verified.isSome = true →
    flashable sha256File opts iccid u entered.2.confirmed w = true → Completes entered.2 ∨ Untouched entered.2

/-- The board holds what the ledger says was flashed. -/
structure StillHolds (f : FlashedStage Digest) (board : Board) : Prop where
  app : board.app = some f.appSha256
  prov : ∃ file, board.prov = some file ∧ f.blobSha256 = some (sha256File file)

/-- A unit that is to be verified without a flash holds what the ledger says. -/
def VerifyMeets (iccid : Text) (a : SerialAnswers) (w : World Digest) : Prop :=
  ∀ u f m, w.batch.units iccid = some u → u.flashed = some f → w.batch.manifests iccid = some m →
    Confirms iccid m a.polls → StillHolds sha256File f (w.boards iccid)

/-- No step of the command changes the outside of a unit and leaves its stages. -/
def Meets : Command Digest → World Digest → Prop
  | .provision opts ready answers,w => ∀ targets, Starts opts ready w targets →
    Along (fun iccid => provisionUnit sha256Text opts iccid (answers iccid))
      (fun iccid w => ToIssue opts (answers iccid) → IssueMeets iccid (answers iccid) w) targets w
  | .blobs ..,_ => True
  | .flashEsp32 opts a,w =>
    a.devMonitor = false → ∀ w' build, checkFrozenBuild a.build a.freeze a.freezeSaves w = some (w',build) →
    match opts.verifyOnly with
    | none => Along (stationRound sha256File opts build.sha256) (FlashMeets sha256File opts) (rounds a) w'
    | some raw => ∀ iccid, normalizeIccid raw = some iccid → VerifyMeets sha256File iccid a.serial w'

/-- Sequences of commands on a new batch, of which each meets the condition where it is given. -/
inductive Reached (ok : Command Digest → World Digest → Prop) : World Digest → Prop where
  | start (text iccids w) : parseIccidList text = some iccids → w.batch = createBatch Digest iccids → Reached ok w
  | command (c w) : Reached ok w → ok c w → Reached ok (run sha256File sha256Text c w)

end

section
variable {sha256File : File → Digest} {w : World Digest}

theorem alongBoth {Unit : Type} {process : Unit → World Digest → World Digest × Bool} {P Q : Unit → World Digest → Prop}
    {units : List Unit} (p : Along process P units w) (q : Along process Q units w) :
    Along process (fun unit w => P unit w ∧ Q unit w) units w := by
  induction units generalizing w with
  | nil => exact trivial
  | cons unit rest ih => exact ⟨⟨p.1,q.1⟩,fun goes => ih (p.2 goes) (q.2 goes)⟩

theorem startKept {text : Text} {iccids : List Text} (parsed : parseIccidList text = some iccids)
    (batch : w.batch = createBatch Digest iccids) : Kept sha256File w := by
  refine ⟨?_,fun iccid u at_ => ?_⟩
  · rw [batch]
    exact linesDistinct List.nodup_nil parsed
  · rw [batch,createBatch] at at_
    dsimp only at at_
    split at at_
    · cases at_
      exact ⟨fun some_ => some_.elim nofun (Or.rec nofun nofun),nofun,nofun,nofun,nofun,nofun⟩
    · exact absurd at_ nofun

theorem cmdBlobsKeeps {opts : BlobsOpts} {toolFound : Bool} {answers : Text → BlobAnswers} (kept : Kept sha256File w) :
    Kept sha256File (cmdBlobs sha256File opts toolFound answers w) := by
  unfold cmdBlobs
  split
  · exact kept
  split
  · exact kept
  rename_i targets chosen
  have first : ToBuild sha256File targets w := by
    refine ⟨kept,fun iccid mem u at_ => ?_⟩
    exact (Bool.and_eq_true_iff.mp ((askedDistinct kept.distinct chosen).2 iccid mem u at_)).1
  obtain ⟨rest,last⟩ := throughKeeps (I := ToBuild sha256File) (P := fun _ _ => True)
    (fun iccid rest w left _ => blobKeeps left) (alongAll (fun _ _ _ => trivial) w) first
  exact last.kept

theorem frozenKept {build : Option AppBuild} {confirmed saves : Bool} {w' : World Digest} {b : AppBuild}
    (kept : Kept sha256File w) (frozen : checkFrozenBuild build confirmed saves w = some (w',b)) : Kept sha256File w' := by
  unfold checkFrozenBuild at frozen
  split at frozen
  · exact absurd frozen nofun
  · split at frozen
    · cases frozen
      exact ⟨kept.distinct,kept.units⟩
    · exact absurd frozen nofun
  · split at frozen
    · cases frozen
      exact kept
    · exact absurd frozen nofun

end

section
variable [DecidableEq Digest] {sha256File : File → Digest} {sha256Text : Text → Digest} {w : World Digest}

theorem cmdProvisionKeeps (tokensApart : Function.Injective sha256Text) {opts : ProvisionOpts} {ready : Bool}
    {answers : Text → ProvisionAnswers Digest} (kept : Kept sha256File w)
    (law : Law sha256Text (.provision opts ready answers) w)
    (meets : Meets sha256File sha256Text (.provision opts ready answers) w) :
    Kept sha256File (cmdProvision sha256Text opts ready answers w) := by
  unfold cmdProvision
  split
  · exact kept
  rename_i rotates
  split
  · exact kept
  rename_i targets chosen
  split
  · rename_i found
    have starts : Starts opts ready w targets := ⟨found,Bool.eq_false_iff.mpr rotates,chosen⟩
    have along := alongBoth (law targets starts) (meets targets starts)
    obtain ⟨distinct,wanted⟩ := askedDistinct kept.distinct chosen
    have first : ToProvision sha256File opts targets w := by
      refine ⟨kept,distinct,?_⟩
      cases reissue : opts.reissue with
      | true => exact .inl rfl
      | false =>
        refine .inr fun iccid mem u at_ => ?_
        have wants := wanted iccid mem u at_
        rw [reissue,Bool.false_or] at wants
        exact Option.isNone_iff_eq_none.mp wants
    obtain ⟨rest,last⟩ := throughKeeps (I := ToProvision sha256File opts)
      (fun iccid rest w left here => provisionKeeps tokensApart left here.1 here.2) along first
    exact last.kept
  · exact kept

theorem roundKeeps (filesApart : Function.Injective sha256File) {opts : StationOpts} {app : Text}
    {entered : Text × FlashAnswers} (kept : Kept sha256File w) (meets : FlashMeets sha256File opts entered w) :
    Kept sha256File (stationRound sha256File opts app entered w).1 := by
  unfold stationRound
  split
  · exact kept
  rename_i iccid norm
  split
  · exact kept
  rename_i u at_
  split
  · rename_i ready
    exact flashOneKeeps filesApart kept at_ ready fun verified => meets iccid u norm at_ verified ready
  · exact kept

theorem cmdFlashKeeps (filesApart : Function.Injective sha256File) {opts : StationOpts} {a : StationAnswers}
    (kept : Kept sha256File w) (meets : Meets sha256File sha256Text (.flashEsp32 opts a) w) :
    Kept sha256File (cmdFlashEsp32 sha256File opts a w) := by
  unfold cmdFlashEsp32
  split
  · exact kept
  rename_i idle
  split
  · exact kept
  rename_i w' build frozen
  have opened : Kept sha256File w' := frozenKept kept frozen
  have meets := meets (Bool.eq_false_iff.mpr idle) w' build frozen
  split
  · rename_i stations
    rw [stations] at meets
    obtain ⟨-,last⟩ := throughKeeps (I := fun _ => Kept sha256File)
      (fun entered rest w kept here => roundKeeps filesApart kept here) meets opened
    exact last
  · rename_i raw only
    rw [only] at meets
    split
    · exact opened
    rename_i iccid u found
    obtain ⟨i,norm,found⟩ := Option.bind_eq_some_iff.mp found
    obtain ⟨u',at_,same⟩ := Option.map_eq_some_iff.mp found
    cases same
    split
    · exact opened
    rename_i flashed
    have flashed : u.flashed.isSome = true := Option.isSome_iff_ne_none.mpr (by simpa using flashed)
    refine serialKeeps opened at_ flashed fun m manifest confirms => ?_
    obtain ⟨f,here⟩ := Option.isSome_iff_exists.mp flashed
    obtain ⟨app,file,prov,digest⟩ := meets iccid norm u f m at_ here manifest confirms
    have before := opened.units iccid u at_
    obtain ⟨m',file',manifest',from_,same⟩ := before.built _ ((before.flashed f here).symm.trans digest)
    cases filesApart same
    have some_ : (w'.boards iccid).app.isSome = true := by
      rw [app]
      rfl
    exact ⟨m',file,manifest',from_,some_,prov⟩

/-- After every sequence of commands a unit that the ledger has as verified is the one to be shipped. -/
theorem ledgerGenuine (filesApart : Function.Injective sha256File) (tokensApart : Function.Injective sha256Text)
    (reached : Reached sha256File sha256Text (fun c w => Law sha256Text c w ∧ Meets sha256File sha256Text c w) w) :
    NeverStale w := by
  have kept : Kept sha256File w := by
    induction reached with
    | start text iccids w parsed batch => exact startKept parsed batch
    | command c w _ ok ih =>
      obtain ⟨law,meets⟩ := ok
      cases c with
      | provision opts ready answers => exact cmdProvisionKeeps tokensApart ih law meets
      | blobs opts toolFound answers => exact cmdBlobsKeeps ih
      | flashEsp32 opts a => exact cmdFlashKeeps filesApart ih meets
  exact fun iccid u at_ stage => keptGenuine (kept.units iccid u at_) stage

theorem Reached.mono {ok ok' : Command Digest → World Digest → Prop} (weaker : ∀ c w, ok c w → ok' c w)
    (reached : Reached sha256File sha256Text ok w) : Reached sha256File sha256Text ok' w := by
  induction reached with
  | start text iccids w parsed batch => exact .start text iccids w parsed batch
  | command c w _ here ih => exact .command c w ih (weaker c w here)

end

/-! One unit, from the list to its verification; then its secrets are rotated. -/

namespace Sample

abbrev Hash := File ⊕ Text

def iccid : Text := lit "8948010000000000001"

def secrets : Secrets := ⟨lit "ABCDE-FGHJK",List.replicate 64 'a',none⟩

def rotated : Secrets := ⟨lit "MNPQR-STUVW",List.replicate 64 'b',none⟩

def manifest : Manifest := ⟨some iccid,some secrets.claimToken,some secrets.mqttSecretHex,none,some 1⟩

def key : Text := lit "04" ++ List.replicate 128 'c'

def printed : Text := lit "✅ provisioned --bk-op-pub " ++ key ++ lit " --bk-root-pub " ++ key ++ lit " --bk-epoch 1"

def provision : Command Hash :=
  .provision ⟨none,false,false⟩ true fun _ =>
    { dry := .exited (some 0) (lit "[dry-run] absent: INSERT") []
      real := .exited (some 0) [] printed
      issued := some secrets
      pull := ⟨.text (some manifest),none,true⟩
      row := .threw
      configSaves := true
      saves := true }

def blobs : Command Hash :=
  .blobs ⟨none,false⟩ true fun _ => ⟨.exited (some 0) [] [],some ⟨.other [],provSize⟩,true⟩

def ran (stdout : String) : FlashRun := ⟨.exited (some 0) (lit stdout) [],none⟩

def reports : SerialAnswers :=
  ⟨true,[.log (lit "ICCID=" ++ iccid ++ lit " mqtt_password=aaaaaaaa")],[],true,true⟩

def flash : Command Hash :=
  .flashEsp32 ⟨none,false,false,false,true⟩
    { devMonitor := false
      build := some ⟨[],[],[]⟩
      freeze := true
      freezeSaves := true
      entered := [(iccid,⟨true,[],ran "",ran "",ran "",ran "verify successful",true,reports⟩)]
      serial := reports }

/-- The rotation reaches the server, its reply does not reach the station. -/
def reissue : Command Hash :=
  .provision ⟨some iccid,false,true⟩ true fun _ =>
    { dry := .exited (some 0) (lit "[dry-run] exists (status=provisioned)") []
      real := .exited none [] []
      issued := some rotated
      pull := ⟨.failed [],none,true⟩
      row := .threw
      configSaves := true
      saves := true }

def start : World Hash := ⟨createBatch Hash [iccid],fun _ => none,fun _ => ⟨none,none⟩,fun _ => []⟩

def provisioned : World Hash := run Sum.inl Sum.inr provision start

def built : World Hash := run Sum.inl Sum.inr blobs provisioned

def shipped : World Hash := run Sum.inl Sum.inr flash built

def stale : World Hash := run Sum.inl Sum.inr reissue shipped

end Sample
open Sample

theorem sampleStart (ok : Command Sample.Hash → World Sample.Hash → Prop) :
    Reached Sum.inl Sum.inr ok start :=
  .start iccid [iccid] _ (by decide +kernel) rfl

theorem provisionMeets : Law Sum.inr provision start ∧ Meets Sum.inl Sum.inr provision start := by
  have only : provisionTargets ⟨none,false,false⟩ start = some [iccid] := by decide +kernel
  refine ⟨fun targets starts => ?_,fun targets starts => ?_⟩
  · cases only.symm.trans starts.2.2
    exact ⟨⟨fun _ _ _ _ _ => rfl,nofun,fun _ _ _ _ none_ => absurd none_ nofun⟩,fun _ => trivial⟩
  · cases only.symm.trans starts.2.2
    refine ⟨fun _ => ⟨fun u at_ some_ => ?_,fun _ m source s fetched issued => ?_⟩,fun _ => trivial⟩
    · have bare : (start.batch.units iccid).map (fun u => u.provisioned.isSome) = some false := by decide +kernel
      rw [at_,Option.map_some,some_] at bare
      exact absurd bare nofun
    · have valid : validateManifest manifest iccid = [] := by decide +kernel
      simp only [fetchManifest,readManifest,valid] at fetched
      cases fetched
      cases issued
      decide +kernel

theorem flashMeets : Meets Sum.inl Sum.inr flash built := by
  intro _ w' build _
  refine alongAll (fun entered mem w iccid u _ _ _ _ => ?_) w'
  have one := List.mem_singleton.mp ((List.takeWhile_sublist _).subset mem)
  subst one
  refine .inl ⟨fun x step => ?_,rfl⟩
  simp only [FlashAnswers.steps,List.mem_cons,List.not_mem_nil,or_false] at step
  rcases step with rfl | rfl | rfl | rfl
  · exact ⟨some 0,_,_,rfl,by decide +kernel⟩
  · exact ⟨some 0,_,_,rfl,by decide +kernel⟩
  · exact ⟨some 0,_,_,rfl,by decide +kernel⟩
  · exact ⟨some 0,_,_,rfl,by decide +kernel⟩

theorem verifiedReached : Reached Sum.inl Sum.inr (fun c w => Law Sum.inr c w ∧ Meets Sum.inl Sum.inr c w)
    shipped := by
  refine .command flash built ?_ ⟨trivial,flashMeets⟩
  refine .command blobs provisioned ?_ ⟨trivial,trivial⟩
  exact .command provision start (sampleStart _) provisionMeets

theorem verifiedGenuine : (shipped.batch.units iccid).map Entry.stageOf = some .verified ∧
    NeverStale shipped :=
  ⟨by decide +kernel,ledgerGenuine (fun _ _ => Sum.inl.inj) (fun _ _ => Sum.inr.inj) verifiedReached⟩

theorem rotatedLaw : Law Sum.inr reissue shipped := by
  intro targets starts
  have only : provisionTargets ⟨some iccid,false,true⟩ shipped = some [iccid] := by decide +kernel
  cases only.symm.trans starts.2.2
  exact ⟨⟨fun _ _ _ _ _ => rfl,nofun,nofun⟩,fun _ => trivial⟩

/-- A lost reply leaves a verified unit whose secrets the server has replaced. -/
theorem rotatedStale : ¬∀ w : World Sample.Hash, Reached Sum.inl Sum.inr (Law Sum.inr) w → NeverStale w := by
  intro never
  have reached : Reached Sum.inl Sum.inr (Law Sum.inr) stale :=
    .command reissue shipped (verifiedReached.mono fun _ _ ok => ok.1) rotatedLaw
  have shown : (stale.batch.units iccid).map Entry.stageOf = some .verified := by
    decide +kernel
  obtain ⟨u,at_,stage⟩ := Option.map_eq_some_iff.mp shown
  obtain ⟨m,saved,⟨s,current,carries⟩,-⟩ := never _ reached iccid u at_ stage
  have kept : (stale.place iccid).manifest = some manifest := by decide +kernel
  have now : (stale.place iccid).server = some rotated := by decide +kernel
  cases kept.symm.trans saved
  cases now.symm.trans current
  exact absurd carries (by decide +kernel)

end Web3PiUps.FactoryLedger
