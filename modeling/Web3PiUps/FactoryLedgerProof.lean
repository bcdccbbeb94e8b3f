import Web3PiUps.FactoryEsp32

/-! What the stages of the ledger are worth, over every sequence of commands. -/
namespace Web3PiUps.FactoryLedger
open FactoryProvision FactoryEsp32

variable {Digest : Type}

/-- What a unit's secrets, board and log are, next to its entry. -/
structure Place where
  manifest : Option Manifest
  server : Option Secrets
  board : Board
  serial : List (List Text)

def World.place (w : World Digest) (iccid : Text) : Place :=
  ⟨w.batch.manifests iccid,w.server iccid,w.boards iccid,w.serial iccid⟩

/-- The image for the unit, of this manifest. -/
def BuiltFrom (iccid : Text) (m : Manifest) (file : File) : Prop :=
  ∃ fleet : Fleet, m.bkEpoch = some fleet.bkEpoch ∧ file.content = .image (blobArgs fleet iccid m)

def Holds (board : Board) (file : File) : Prop := board.app.isSome = true ∧ board.prov = some file

/-- The log shows the secret's prefix. -/
def ShowsSecret (want text : Text) : Prop := (loggedSecret text).map lower = some want

def ShowsIccid (iccid text : Text) : Prop := (loggedIccid text).bind normalizeIccid = some iccid

/-- In one verification the board printed the ICCID and the prefix of the manifest's secret. -/
def Reported (serial : List (List Text)) (iccid : Text) (m : Manifest) : Prop :=
  ∃ texts ∈ serial, (∃ text ∈ texts, ShowsSecret (secretPrefix m) text) ∧ ∃ text ∈ texts, ShowsIccid iccid text

/-- A unit as it is to be shipped. -/
structure Genuine (iccid : Text) (p : Place) (m : Manifest) : Prop where
  saved : p.manifest = some m
  current : ∃ s, p.server = some s ∧ m.Carries s
  written : ∃ file, Holds p.board file ∧ BuiltFrom iccid m file
  reported : Reported p.serial iccid m

def NeverStale (w : World Digest) : Prop :=
  ∀ iccid u, w.batch.units iccid = some u → u.stageOf = .verified → ∃ m, Genuine iccid (w.place iccid) m

/-- The board holds the app and a blob of the unit's manifest. -/
def Written (iccid : Text) (p : Place) : Prop :=
  ∃ m file, p.manifest = some m ∧ BuiltFrom iccid m file ∧ Holds p.board file

section
variable (sha256File : File → Digest)

structure KeptUnit (iccid : Text) (p : Place) (u : Entry Digest) : Prop where
  first : u.blob.isSome = true ∨ u.flashed.isSome = true ∨ u.verified.isSome = true → u.provisioned.isSome = true
  saved : u.provisioned.isSome = true → ∃ m s, p.manifest = some m ∧ p.server = some s ∧ m.Carries s
  built : ∀ sha, u.blob.map BlobStage.sha256 = some sha →
    ∃ m file, p.manifest = some m ∧ BuiltFrom iccid m file ∧ sha256File file = sha
  flashed : ∀ f, u.flashed = some f → f.blobSha256 = u.blob.map BlobStage.sha256
  written : u.verified.isSome = true → Written iccid p
  reported : u.verified.isSome = true → ∃ m, p.manifest = some m ∧ Reported p.serial iccid m

structure Kept (w : World Digest) : Prop where
  distinct : w.batch.iccidOrder.Nodup
  units : ∀ iccid u, w.batch.units iccid = some u → KeptUnit sha256File iccid (w.place iccid) u

end

/-- No more stages than before, of the same secrets. -/
structure Fewer (u' u : Entry Digest) : Prop where
  provisioned : u'.provisioned = u.provisioned
  blob : u'.blob.map BlobStage.sha256 = u.blob.map BlobStage.sha256
  flashed : ∀ f, u'.flashed = some f → u.flashed = some f
  verified : u'.verified.isSome = true → u.verified.isSome = true

/-- All that happens to units other than this one is that stages are cleared. -/
structure Elsewhere (iccid : Text) (w w' : World Digest) : Prop where
  order : w'.batch.iccidOrder = w.batch.iccidOrder
  place : ∀ j, j ≠ iccid → w'.place j = w.place j
  units : ∀ j, j ≠ iccid → ∀ u', w'.batch.units j = some u' → ∃ u, w.batch.units j = some u ∧ Fewer u' u

section
variable {sha256File : File → Digest} {iccid : Text} {p : Place} {u u' u'' : Entry Digest} {w w' w'' : World Digest}

theorem keptGenuine (h : KeptUnit sha256File iccid p u) (stage : u.stageOf = .verified) : ∃ m, Genuine iccid p m := by
  have verified : u.verified.isSome = true := by
    by_contra other
    rw [Entry.stageOf,if_neg other] at stage
    split_ifs at stage
  obtain ⟨m,s,saved,current,carries⟩ := h.saved (h.first (.inr (.inr verified)))
  obtain ⟨m',file,saved',built,holds⟩ := h.written verified
  obtain ⟨m'',saved'',reported⟩ := h.reported verified
  cases saved.symm.trans saved'
  cases saved.symm.trans saved''
  exact ⟨m,saved,⟨s,current,carries⟩,⟨file,holds,built⟩,reported⟩

theorem Fewer.refl (u : Entry Digest) : Fewer u u := ⟨rfl,rfl,fun _ => id,id⟩

theorem Fewer.trans (b : Fewer u'' u') (a : Fewer u' u) : Fewer u'' u :=
  ⟨b.provisioned.trans a.provisioned,b.blob.trans a.blob,fun f here => a.flashed f (b.flashed f here),a.verified ∘ b.verified⟩

theorem blobSome (same : u'.blob.map BlobStage.sha256 = u.blob.map BlobStage.sha256) : u'.blob.isSome = u.blob.isSome := by
  have both := congrArg Option.isSome same
  rwa [Option.isSome_map,Option.isSome_map] at both

theorem keptFewer (h : KeptUnit sha256File iccid p u) (fewer : Fewer u' u) : KeptUnit sha256File iccid p u' := by
  obtain ⟨provisioned,blob,flashed,verified⟩ := fewer
  refine ⟨fun some_ => ?_,fun some_ => h.saved (provisioned ▸ some_),fun sha some_ => h.built sha (blob ▸ some_),
    fun f here => (h.flashed f (flashed f here)).trans blob.symm,fun some_ => h.written (verified some_),
    fun some_ => h.reported (verified some_)⟩
  have still (here : u'.flashed.isSome = true) : u.flashed.isSome = true := by
    obtain ⟨f,here⟩ := Option.isSome_iff_exists.mp here
    exact Option.isSome_iff_exists.mpr ⟨f,flashed f here⟩
  rw [provisioned]
  exact h.first (some_.imp (fun b => blobSome blob ▸ b) (Or.imp still verified))

theorem keptBare (none_ : u.provisioned = none) (kept : KeptUnit sha256File iccid p u) (q : Place) :
    KeptUnit sha256File iccid q u := by
  have absent : ¬u.provisioned.isSome = true := by simp [none_]
  have nothing := mt kept.first absent
  rw [not_or,not_or] at nothing
  obtain ⟨blob,flashed,verified⟩ := nothing
  refine ⟨kept.first,fun some_ => absurd some_ absent,fun sha some_ => absurd ?_ blob,kept.flashed,
    fun some_ => absurd some_ verified,fun some_ => absurd some_ verified⟩
  obtain ⟨b,here,-⟩ := Option.map_eq_some_iff.mp some_
  rw [here]
  rfl

theorem noteFewer (text : Text) (u : Entry Digest) : Fewer (u.note text) u := ⟨rfl,rfl,fun _ => id,id⟩

theorem clearFlashed (u : Entry Digest) : Fewer (u.clearStage .flashed) u := ⟨rfl,rfl,nofun,id⟩

theorem clearVerified (u : Entry Digest) : Fewer (u.clearStage .verified) u := ⟨rfl,rfl,fun _ => id,nofun⟩

theorem Elsewhere.refl (iccid : Text) (w : World Digest) : Elsewhere iccid w w :=
  ⟨rfl,fun _ _ => rfl,fun _ _ u' here => ⟨u',here,.refl u'⟩⟩

theorem Elsewhere.trans (a : Elsewhere iccid w w') (b : Elsewhere iccid w' w'') : Elsewhere iccid w w'' := by
  refine ⟨b.order.trans a.order,fun j other => (b.place j other).trans (a.place j other),fun j other u'' here => ?_⟩
  obtain ⟨u',here',fewer'⟩ := b.units j other u'' here
  obtain ⟨u,there,fewer⟩ := a.units j other u' here'
  exact ⟨u,there,fewer'.trans fewer⟩

theorem elsewhereSame (order : w'.batch.iccidOrder = w.batch.iccidOrder) (place : ∀ j, j ≠ iccid → w'.place j = w.place j)
    (units : ∀ j, j ≠ iccid → w'.batch.units j = w.batch.units j) : Elsewhere iccid w w' :=
  ⟨order,place,fun j other u' here => ⟨u',(units j other).symm.trans here,.refl u'⟩⟩

theorem elsewhereUnit (w : World Digest) (f : Entry Digest → Entry Digest) : Elsewhere iccid w (w.setUnit iccid f) :=
  elsewhereSame rfl (fun _ _ => rfl) fun _ other => Function.update_of_ne other _ _

theorem elsewhereManifest (w : World Digest) (m : Manifest) : Elsewhere iccid w (w.setManifest iccid m) := by
  refine elsewhereSame rfl (fun j other => ?_) fun _ _ => rfl
  simp [World.place,World.setManifest,Function.update_of_ne other]

theorem elsewhereServer (w : World Digest) (issued : Option Secrets) : Elsewhere iccid w (w.setServer iccid issued) := by
  refine elsewhereSame rfl (fun j other => ?_) fun _ _ => rfl
  simp [World.place,World.setServer,Function.update_of_ne other]

theorem elsewhereBoard (w : World Digest) (board : Board) : Elsewhere iccid w (w.setBoard iccid board) := by
  refine elsewhereSame rfl (fun j other => ?_) fun _ _ => rfl
  simp [World.place,World.setBoard,Function.update_of_ne other]

theorem elsewhereHear (w : World Digest) (texts : List Text) : Elsewhere iccid w (w.hear iccid texts) := by
  refine elsewhereSame rfl (fun j other => ?_) fun _ _ => rfl
  simp [World.place,World.hear,Function.update_of_ne other]

theorem elsewhereBlob (w : World Digest) (file : Option File) : Elsewhere iccid w (w.setBlob iccid file) :=
  elsewhereSame rfl (fun _ _ => rfl) fun _ _ => rfl

theorem keptAt (kept : Kept sha256File w) (elsewhere : Elsewhere iccid w w')
    (here : ∀ u, w'.batch.units iccid = some u → KeptUnit sha256File iccid (w'.place iccid) u) : Kept sha256File w' := by
  refine ⟨elsewhere.order ▸ kept.distinct,fun j u at_ => ?_⟩
  by_cases same : j = iccid
  · subst same
    exact here u at_
  · obtain ⟨before,there,fewer⟩ := elsewhere.units j same u at_
    rw [elsewhere.place j same]
    exact keptFewer (kept.units j before there) fewer

theorem unitSet (w : World Digest) (iccid : Text) (f : Entry Digest → Entry Digest) :
    (w.setUnit iccid f).batch.units iccid = (w.batch.units iccid).map f := Function.update_self ..

theorem setKept (kept : Kept sha256File w) {f : Entry Digest → Entry Digest}
    (here : ∀ u, w.batch.units iccid = some u → KeptUnit sha256File iccid (w.place iccid) (f u)) :
    Kept sha256File (w.setUnit iccid f) := by
  refine keptAt kept (elsewhereUnit w f) fun u at_ => ?_
  rw [unitSet] at at_
  obtain ⟨before,there,rfl⟩ := Option.map_eq_some_iff.mp at_
  exact here before there

theorem fewerKept (kept : Kept sha256File w) {f : Entry Digest → Entry Digest} (fewer : ∀ u, Fewer (f u) u) :
    Kept sha256File (w.setUnit iccid f) :=
  setKept kept fun u there => keptFewer (kept.units iccid u there) (fewer u)

end

section
variable {sha256File : File → Digest} {sha256Text : Text → Digest}

/-- What is known of the server at one unit. -/
structure ServerLaw (sha256Text : Text → Digest) (iccid : Text) (a : ProvisionAnswers Digest) (w : World Digest) : Prop where
  /-- What it reports as provisioned it has issued. -/
  issues : ∀ code stdout stderr, a.real = .exited code stdout stderr → accepted code stderr = true → a.issued.isSome = true
  /-- The row has the hash of the current claim token. -/
  row : ∀ r hash, a.row = .row (some r) → r.claimTokenHash = some hash →
    ∃ s, w.server iccid = some s ∧ sha256Text s.claimToken = hash
  /-- Secrets are issued as a set. -/
  whole : ∀ m source s, fetchManifest iccid a.pull = some (.ok m source) → w.server iccid = some s →
    m.claimToken = some s.claimToken → m.Carries s

/-- The real run of a unit goes on to its ledger write. -/
structure Lands (iccid : Text) (a : ProvisionAnswers Digest) (w : World Digest) : Prop where
  fleet : ∃ code stdout stderr, a.real = .exited code stdout stderr ∧ accepted code stderr = true ∧
    (extractAndCheckFleet w.batch.fleet stderr).isSome = true
  config : w.batch.fleet = none → a.configSaves = true
  pulled : ∃ m source, fetchManifest iccid a.pull = some (.ok m source)
  pullSaves : a.pull.saves = true
  saves : a.saves = true

/-- The unit comes to a real run. -/
def ToIssue (opts : ProvisionOpts) (a : ProvisionAnswers Digest) : Prop :=
  opts.dryRun = false ∧ ∃ code stdout stderr, a.dry = .exited code stdout stderr ∧
    (interpretDryRun code stdout stderr = .fresh ∨ opts.reissue = true ∧ ∃ status,
      interpretDryRun code stdout stderr = .exists_ status)

/-- Secrets that replace those of a provisioned unit arrive in the ledger, and what arrives are the new ones. -/
structure IssueMeets (iccid : Text) (a : ProvisionAnswers Digest) (w : World Digest) : Prop where
  lands : ∀ u, w.batch.units iccid = some u → u.provisioned.isSome = true → a.issued.isSome = true → Lands iccid a w
  current : Lands iccid a w → ∀ m source s, fetchManifest iccid a.pull = some (.ok m source) → a.issued = some s → m.Carries s

theorem savedKept {succeeds : Bool} {w : World Digest} {f : World Digest → World Digest}
    (fails : succeeds = false → Kept sha256File w) (after : succeeds = true → Kept sha256File (f w)) :
    Kept sha256File (saved succeeds w f).1 := by
  cases succeeds with
  | false => exact fails rfl
  | true => exact after rfl

/-- A pull either saves a manifest that it fetched or leaves all as it was. -/
theorem pullCases (iccid : Text) (a : Pull) (w : World Digest) :
    (∃ m source, fetchManifest iccid a = some (.ok m source) ∧ a.saves = true ∧
      pullManifest iccid a w = (w.setManifest iccid m,some (.ok m source))) ∨
    ((∀ m source, fetchManifest iccid a = some (.ok m source) → a.saves = false) ∧
      (pullManifest iccid a w = (w,none) ∨ ∃ error, pullManifest iccid a w = (w,some (.failed error)))) := by
  unfold pullManifest
  cases fetched : fetchManifest iccid a with
  | none => exact .inr ⟨nofun,.inl rfl⟩
  | some pulled =>
    cases pulled with
    | failed error => exact .inr ⟨nofun,.inr ⟨error,rfl⟩⟩
    | ok m source =>
      cases saves : a.saves with
      | false => exact .inr ⟨fun _ _ _ => rfl,.inl rfl⟩
      | true => exact .inl ⟨m,source,rfl,rfl,rfl⟩

theorem provisionedKept {iccid : Text} {p : Place} {u : Entry Digest} (details : Provisioned)
    (saved : ∃ m s, p.manifest = some m ∧ p.server = some s ∧ m.Carries s) :
    KeptUnit sha256File iccid p (u.setStage (.provisioned details)) :=
  ⟨fun _ => rfl,fun _ => saved,nofun,nofun,nofun,nofun⟩

theorem manifestPlace (w : World Digest) (iccid : Text) (m : Manifest) :
    (w.setManifest iccid m).place iccid = { w.place iccid with manifest := some m } := by
  simp [World.place,World.setManifest]

theorem serverPlace (w : World Digest) (iccid : Text) (issued : Option Secrets) :
    (w.setServer iccid issued).place iccid = { w.place iccid with server := issued.or (w.server iccid) } := by
  simp [World.place,World.setServer]

theorem matchingToken [DecidableEq Digest] {m : Manifest} {row : Option (Row Digest)}
    (h : manifestMatchesRow sha256Text m row = true) : ∃ r hash token, row = some r ∧ r.claimTokenHash = some hash ∧
      m.claimToken = some token ∧ sha256Text token = hash := by
  unfold manifestMatchesRow at h
  split at h
  · exact absurd h nofun
  · rename_i hash named
    obtain ⟨r,here,hashed⟩ := Option.bind_eq_some_iff.mp named
    split at h
    · exact absurd h nofun
    · rename_i same
      obtain ⟨token,there,same⟩ := Option.map_eq_some_iff.mp (not_not.mp same)
      exact ⟨r,hash,token,here,hashed,there,same⟩

theorem recoverKeeps [DecidableEq Digest] (tokensApart : Function.Injective sha256Text) {iccid status : Text}
    {a : ProvisionAnswers Digest}
    {w : World Digest} (kept : Kept sha256File w) (law : ServerLaw sha256Text iccid a w)
    (bare : ∀ u, w.batch.units iccid = some u → u.provisioned = none) :
    Kept sha256File (recover sha256Text iccid status a w).1 := by
  unfold recover
  rcases pullCases iccid a.pull w with ⟨m,source,fetched,-,same⟩ | ⟨-,same | ⟨error,same⟩⟩
  · rw [same]
    dsimp only
    have pulled : Kept sha256File (w.setManifest iccid m) :=
      keptAt kept (elsewhereManifest w m) fun u at_ => keptBare (bare u at_) (kept.units iccid u at_) _
    cases read : a.row with
    | threw => exact pulled
    | failed => exact pulled
    | row row =>
      dsimp only
      split
      · rename_i matching
        refine savedKept (fun _ => pulled) fun _ => setKept pulled fun u at_ => provisionedKept _ ?_
        obtain ⟨r,hash,token,rfl,hashed,here,digest⟩ := matchingToken matching
        obtain ⟨s,current,digest'⟩ := law.row r hash read hashed
        have tokens : token = s.claimToken := tokensApart (digest.trans digest'.symm)
        refine ⟨m,s,?_,current,law.whole m source s fetched current (tokens ▸ here)⟩
        rw [manifestPlace]
      · exact savedKept (fun _ => pulled) fun _ => fewerKept pulled (noteFewer _)
  · rw [same]
    exact kept
  · rw [same]
    dsimp only
    exact savedKept (fun _ => kept) fun _ => fewerKept kept (noteFewer _)

theorem issueKeeps {iccid : Text} {reissued : Bool} {a : ProvisionAnswers Digest} {w : World Digest}
    (kept : Kept sha256File w) (law : ServerLaw sha256Text iccid a w) (meets : IssueMeets iccid a w) :
    Kept sha256File (issue iccid reissued a w).1 := by
  -- short of the ledger write either the server's secrets are the old ones or the unit has no stage
  have short (stops : ¬Lands iccid a w) (w' : World Digest) (elsewhere : Elsewhere iccid w w')
      (units : w'.batch.units iccid = w.batch.units iccid) (same : a.issued = none → w'.place iccid = w.place iccid) :
      Kept sha256File w' := by
    refine keptAt kept elsewhere fun u at_ => ?_
    rw [units] at at_
    cases issued : a.issued with
    | none =>
      rw [same issued]
      exact kept.units iccid u at_
    | some s =>
      have none_ : u.provisioned = none := by
        rw [← Option.not_isSome_iff_eq_none]
        exact fun provisioned => stops (meets.lands u at_ provisioned (by rw [issued]; rfl))
      exact keptBare none_ (kept.units iccid u at_) _
  have unchanged (issued : a.issued = none) : (w.setServer iccid a.issued).place iccid = w.place iccid := by
    rw [serverPlace,issued,Option.none_or]
    rfl
  unfold issue
  cases real : a.real with
  | threw => exact kept
  | exited code stdout stderr =>
    have server (stops : ¬Lands iccid a w) : Kept sha256File (w.setServer iccid a.issued) :=
      short stops _ (elsewhereServer w a.issued) rfl unchanged
    dsimp only
    split
    · rename_i refused
      refine server fun lands => ?_
      obtain ⟨code',stdout',stderr',same,ok,-⟩ := lands.fleet
      cases real.symm.trans same
      exact absurd (refused.symm.trans ok) nofun
    rename_i ok
    have ok : accepted code stderr = true := by simpa using ok
    split
    · rename_i disagrees
      refine server fun lands => ?_
      obtain ⟨code',stdout',stderr',same,-,agrees⟩ := lands.fleet
      cases real.symm.trans same
      have none_ : extractAndCheckFleet w.batch.fleet stderr = none := disagrees
      rw [none_] at agrees
      exact absurd agrees nofun
    rename_i fleet agrees
    split
    · rename_i unsaved
      refine server fun lands => ?_
      exact absurd ((lands.config unsaved.1).symm.trans unsaved.2) nofun
    rename_i configured
    have learnedElsewhere : Elsewhere iccid w ((w.setServer iccid a.issued).setFleet fleet) :=
      (elsewhereServer w a.issued).trans (elsewhereSame rfl (fun _ _ => rfl) fun _ _ => rfl)
    have learned (stops : ¬Lands iccid a w) :
        Kept sha256File ((w.setServer iccid a.issued).setFleet fleet) :=
      short stops _ learnedElsewhere rfl unchanged
    rcases pullCases iccid a.pull ((w.setServer iccid a.issued).setFleet fleet) with
      ⟨m,source,fetched,pullSaves,same⟩ | ⟨lost,same⟩
    · rw [same]
      have pulledElsewhere := learnedElsewhere.trans (elsewhereManifest _ m)
      obtain ⟨s,issued⟩ := Option.isSome_iff_exists.mp (law.issues code stdout stderr real ok)
      refine savedKept (fun unsaved => ?_) fun saves => ?_
      · refine short (fun lands => absurd (unsaved.symm.trans lands.saves) nofun) _ pulledElsewhere rfl fun none_ => ?_
        exact absurd (none_.symm.trans issued) nofun
      · have lands : Lands iccid a w := by
          refine ⟨⟨code,stdout,stderr,real,ok,?_⟩,fun unknown => ?_,⟨m,source,fetched⟩,pullSaves,saves⟩
          · exact Option.isSome_iff_exists.mpr ⟨fleet,agrees⟩
          · by_contra unsaved
            exact configured ⟨unknown,by simpa using unsaved⟩
        have carries := meets.current lands m source s fetched issued
        refine keptAt kept (pulledElsewhere.trans (elsewhereUnit _ _)) fun u at_ => ?_
        rw [unitSet] at at_
        obtain ⟨before,-,rfl⟩ := Option.map_eq_some_iff.mp at_
        refine provisionedKept _ ⟨m,s,congrArg Place.manifest (manifestPlace _ iccid m),?_,carries⟩
        have place := congrArg Place.server (serverPlace w iccid a.issued)
        rw [issued,Option.some_or] at place
        rw [issued]
        exact place
    · have fails : ¬Lands iccid a w := by
        intro lands
        obtain ⟨m,source,fetched⟩ := lands.pulled
        exact absurd ((lost m source fetched).symm.trans lands.pullSaves) nofun
      rcases same with same | ⟨error,same⟩
      · rw [same]
        exact learned fails
      · rw [same]
        exact savedKept (fun _ => learned fails) fun _ => fewerKept (learned fails) (noteFewer _)

/-- Of the steps of a command, each in the state it finds. -/
def Along {Unit : Type} (process : Unit → World Digest → World Digest × Bool) (P : Unit → World Digest → Prop) :
    List Unit → World Digest → Prop
  | [],_ => True
  | unit::rest,w => P unit w ∧ ((process unit w).2 = true → Along process P rest (process unit w).1)

/-- What each step keeps, with what it knows of the units still to come, the command keeps. -/
theorem throughKeeps {Unit : Type} {process : Unit → World Digest → World Digest × Bool} {P : Unit → World Digest → Prop}
    {I : List Unit → World Digest → Prop}
    (step : ∀ unit rest w, I (unit::rest) w → P unit w → I rest (process unit w).1) {units : List Unit} {w : World Digest}
    (along : Along process P units w) (first : I units w) : ∃ rest, I rest (through process units w).1 := by
  induction units generalizing w with
  | nil => exact ⟨[],first⟩
  | cons unit rest ih =>
    obtain ⟨here,later⟩ := along
    have next := step unit rest w first here
    rw [through]
    generalize process unit w = did at next later ⊢
    obtain ⟨w',goes⟩ := did
    cases goes with
    | false => exact ⟨rest,next⟩
    | true => exact ih (later rfl) next

theorem alongAll {Unit : Type} {process : Unit → World Digest → World Digest × Bool} {P : Unit → World Digest → Prop}
    {units : List Unit} (all : ∀ unit ∈ units, ∀ w, P unit w) (w : World Digest) : Along process P units w := by
  induction units generalizing w with
  | nil => exact trivial
  | cons unit rest ih =>
    exact ⟨all unit List.mem_cons_self w,fun _ => ih (fun other mem => all other (List.mem_cons_of_mem unit mem)) _⟩

theorem savedElsewhere {iccid : Text} {succeeds : Bool} {w w' : World Digest} {f : Entry Digest → Entry Digest}
    (before : Elsewhere iccid w w') : Elsewhere iccid w (saved succeeds w' (·.setUnit iccid f)).1 := by
  cases succeeds with
  | false => exact before
  | true => exact before.trans (elsewhereUnit w' f)

theorem pullElsewhere (iccid : Text) (a : Pull) (w : World Digest) : Elsewhere iccid w (pullManifest iccid a w).1 := by
  rcases pullCases iccid a w with ⟨m,source,-,-,same⟩ | ⟨-,same | ⟨error,same⟩⟩
  · rw [same]
    exact elsewhereManifest w m
  · rw [same]
    exact .refl iccid w
  · rw [same]
    exact .refl iccid w

theorem recoverElsewhere [DecidableEq Digest] (iccid status : Text) (a : ProvisionAnswers Digest) (w : World Digest) :
    Elsewhere iccid w (recover sha256Text iccid status a w).1 := by
  have pulled := pullElsewhere iccid a.pull w
  unfold recover
  generalize pullManifest iccid a.pull w = did at pulled ⊢
  obtain ⟨w',pulled_⟩ := did
  cases pulled_ with
  | none => exact pulled
  | some pulled_ =>
    cases pulled_ with
    | failed error => exact savedElsewhere pulled
    | ok m source =>
      cases a.row with
      | threw => exact pulled
      | failed => exact pulled
      | row row =>
        dsimp only
        split
        · exact savedElsewhere pulled
        · exact savedElsewhere pulled

theorem issueElsewhere (iccid : Text) (reissued : Bool) (a : ProvisionAnswers Digest) (w : World Digest) :
    Elsewhere iccid w (issue iccid reissued a w).1 := by
  have server : Elsewhere iccid w (w.setServer iccid a.issued) := elsewhereServer w a.issued
  unfold issue
  cases a.real with
  | threw => exact .refl iccid w
  | exited code stdout stderr =>
    dsimp only
    split
    · exact server
    split
    · exact server
    rename_i fleet agrees
    split
    · exact server
    have learned : Elsewhere iccid w ((w.setServer iccid a.issued).setFleet fleet) :=
      server.trans (elsewhereSame rfl (fun _ _ => rfl) fun _ _ => rfl)
    have pulled := learned.trans (pullElsewhere iccid a.pull _)
    generalize pullManifest iccid a.pull ((w.setServer iccid a.issued).setFleet fleet) = did at pulled ⊢
    obtain ⟨w',pulled_⟩ := did
    cases pulled_ with
    | none => exact pulled
    | some pulled_ =>
      cases pulled_ with
      | failed error => exact savedElsewhere pulled
      | ok m source => exact savedElsewhere pulled

theorem provisionElsewhere [DecidableEq Digest] (opts : ProvisionOpts) (iccid : Text) (a : ProvisionAnswers Digest)
    (w : World Digest) : Elsewhere iccid w (provisionUnit sha256Text opts iccid a w).1 := by
  unfold provisionUnit
  cases a.dry with
  | threw => exact .refl iccid w
  | exited code stdout stderr =>
    dsimp only
    split
    · exact .refl iccid w
    split
    · exact savedElsewhere (.refl iccid w)
    · exact .refl iccid w
    · exact issueElsewhere iccid false a w
    · split
      · exact issueElsewhere iccid true a w
      · exact recoverElsewhere iccid _ a w

/-- What is left to do is for units that are not provisioned, or secrets may be rotated. -/
structure ToProvision (sha256File : File → Digest) (opts : ProvisionOpts) (rest : List Text) (w : World Digest) : Prop where
  kept : Kept sha256File w
  distinct : rest.Nodup
  bare : opts.reissue = true ∨ ∀ iccid ∈ rest, ∀ u, w.batch.units iccid = some u → u.provisioned = none

theorem provisionKeeps [DecidableEq Digest] (tokensApart : Function.Injective sha256Text) {opts : ProvisionOpts} {iccid : Text}
    {rest : List Text} {a : ProvisionAnswers Digest} {w : World Digest} (left : ToProvision sha256File opts (iccid::rest) w)
    (law : ServerLaw sha256Text iccid a w) (meets : ToIssue opts a → IssueMeets iccid a w) :
    ToProvision sha256File opts rest (provisionUnit sha256Text opts iccid a w).1 := by
  obtain ⟨kept,distinct,bare⟩ := left
  obtain ⟨fresh,distinct⟩ := List.nodup_cons.mp distinct
  refine ⟨?_,distinct,bare.imp id fun all j mem u' at_ => ?_⟩
  · unfold provisionUnit
    cases dry : a.dry with
    | threw => exact kept
    | exited code stdout stderr =>
      dsimp only
      split
      · exact kept
      rename_i wet
      have wet : opts.dryRun = false := by simpa using wet
      split
      · refine savedKept (fun _ => kept) fun _ => fewerKept kept fun u => ?_
        exact ⟨rfl,rfl,fun _ => id,id⟩
      · exact kept
      · rename_i verdict
        exact issueKeeps kept law (meets ⟨wet,code,stdout,stderr,dry,.inl verdict⟩)
      · rename_i status verdict
        split
        · rename_i reissue
          exact issueKeeps kept law (meets ⟨wet,code,stdout,stderr,dry,.inr ⟨reissue,status,verdict⟩⟩)
        · rename_i only
          exact recoverKeeps tokensApart kept law (bare.resolve_left only iccid List.mem_cons_self)
  · have other : j ≠ iccid := fun same => fresh (same ▸ mem)
    obtain ⟨u,there,fewer⟩ := (provisionElsewhere opts iccid a w).units j other u' at_
    rw [fewer.provisioned]
    exact all j (List.mem_cons_of_mem iccid mem) u there

theorem askedDistinct {iccid : Option Text} {w : World Digest} {wanted : Text → Entry Digest → Bool} {targets : List Text}
    (order : w.batch.iccidOrder.Nodup) (h : asked iccid w wanted = some targets) :
    targets.Nodup ∧ ∀ i ∈ targets, ∀ u, w.batch.units i = some u → wanted i u = true := by
  have chosen {iccids : List Text} (distinct : iccids.Nodup)
      (h : (if iccids.all fun i => (w.batch.units i).isSome
        then some (iccids.filter fun i => (w.batch.units i).any (wanted i)) else none) = some targets) :
      targets.Nodup ∧ ∀ i ∈ targets, ∀ u, w.batch.units i = some u → wanted i u = true := by
    split at h
    · cases h
      refine ⟨distinct.filter _,fun i mem u at_ => ?_⟩
      have wants := (List.mem_filter.mp mem).2
      rw [at_] at wants
      exact wants
    · exact absurd h nofun
  cases iccid with
  | none => exact chosen order h
  | some i => exact chosen (List.nodup_singleton i) h

/-- What is left to build is for provisioned units. -/
structure ToBuild (sha256File : File → Digest) (rest : List Text) (w : World Digest) : Prop where
  kept : Kept sha256File w
  provisioned : ∀ iccid ∈ rest, ∀ u, w.batch.units iccid = some u → u.provisioned.isSome = true

theorem blobKeeps {iccid : Text} {rest : List Text} {a : BlobAnswers} {w : World Digest}
    (left : ToBuild sha256File (iccid::rest) w) : ToBuild sha256File rest (blobUnit sha256File iccid a w).1 := by
  obtain ⟨kept,provisioned⟩ := left
  have same : ToBuild sha256File rest w := ⟨kept,fun i mem => provisioned i (List.mem_cons_of_mem iccid mem)⟩
  unfold blobUnit
  split
  · rename_i m fleet manifest known
    split
    · exact same
    rename_i epoch
    cases a.run with
    | threw => exact same
    | exited code stdout stderr =>
      dsimp only
      have replaced (file : Option File) : ToBuild sha256File rest (w.setBlob iccid file) :=
        ⟨keptAt kept (elsewhereBlob w file) (kept.units iccid),same.provisioned⟩
      split
      · exact replaced _
      rename_i file made
      split
      · exact replaced _
      rename_i good
      obtain ⟨zero,size⟩ := not_or.mp good
      cases a.saves with
      | false => exact replaced _
      | true =>
        refine ⟨setKept (replaced _).kept fun u at_ => ?_,fun i mem u' at_ => ?_⟩
        · refine ⟨fun _ => provisioned iccid List.mem_cons_self u at_,(kept.units iccid u at_).saved,?_,nofun,nofun,nofun⟩
          rintro sha ⟨⟩
          have epoch : m.bkEpoch = some fleet.bkEpoch := not_not.mp epoch
          refine ⟨m,file,manifest,⟨fleet,epoch,?_⟩,rfl⟩
          rw [madeBlob,if_pos (not_not.mp zero)] at made
          obtain ⟨left,-,rfl⟩ := Option.map_eq_some_iff.mp made
          rfl
        · by_cases here : i = iccid
          · subst here
            obtain ⟨u,there,rfl⟩ := Option.map_eq_some_iff.mp ((unitSet _ i _).symm.trans at_)
            exact provisioned i List.mem_cons_self u there
          · obtain ⟨u,there,fewer⟩ := (elsewhereUnit _ _).units i here u' at_
            rw [fewer.provisioned]
            exact same.provisioned i mem u there
  · exact same

theorem lookShows {iccid want : Text} {s : Watch} {text : Text} :
    (∀ s', look iccid want s text = .inr s' → (s'.secretOk = true → s.secretOk = true ∨ ShowsSecret want text) ∧
      (s'.iccidSeen.isSome = true → s.iccidSeen.isSome = true ∨ ShowsIccid iccid text)) ∧
    (∀ rssi, look iccid want s text = .inl (.verified rssi) → (s.secretOk = true ∨ ShowsSecret want text) ∧
      (s.iccidSeen.isSome = true ∨ ShowsIccid iccid text)) := by
  unfold look
  dsimp only
  split
  · exact ⟨nofun,nofun⟩
  split
  · exact ⟨nofun,nofun⟩
  rename_i agrees
  have secret : (s.secretOk || (loggedSecret text).isSome) = true → s.secretOk = true ∨ ShowsSecret want text := by
    intro ok
    cases shown : loggedSecret text with
    | none =>
      rw [shown,Option.isSome_none,Bool.or_false] at ok
      exact .inl ok
    | some secret =>
      have same : lower secret = want := by simpa [shown] using agrees
      exact .inr (by rw [ShowsSecret,shown,Option.map_some,same])
  split
  · exact ⟨nofun,nofun⟩
  rename_i own
  have seen : (((loggedIccid text).bind normalizeIccid).or s.iccidSeen).isSome = true →
      s.iccidSeen.isSome = true ∨ ShowsIccid iccid text := by
    intro ok
    cases shown : (loggedIccid text).bind normalizeIccid with
    | none =>
      rw [shown,Option.none_or] at ok
      exact .inl ok
    | some other =>
      rw [shown] at own
      have same : other = iccid := by simpa using own
      exact .inr (by rw [ShowsIccid,shown,same])
  split
  · rename_i both
    obtain ⟨ok,some_⟩ := Bool.and_eq_true_iff.mp both
    exact ⟨nofun,fun _ _ => ⟨secret ok,seen some_⟩⟩
  · refine ⟨?_,nofun⟩
    rintro s' ⟨⟩
    exact ⟨secret,seen⟩

theorem watchShows {iccid want : Text} {s : Watch} {polls : List Poll} {texts : List Text} {rssi : Option Nat}
    (h : watch iccid want s polls = (texts,.verified rssi)) :
    (s.secretOk = true ∨ ∃ text ∈ texts, ShowsSecret want text) ∧
      (s.iccidSeen.isSome = true ∨ ∃ text ∈ texts, ShowsIccid iccid text) := by
  induction polls generalizing s texts with
  | nil => exact absurd (Prod.mk.inj h).2 nofun
  | cons poll rest ih =>
    cases poll with
    | died => exact absurd (Prod.mk.inj h).2 nofun
    | noLog late =>
      rw [watch] at h
      split at h
      · exact absurd (Prod.mk.inj h).2 nofun
      · exact ih h
    | log text =>
      rw [watch] at h
      split at h
      · rename_i watched looked
        obtain ⟨rfl,rfl⟩ := Prod.mk.inj h
        obtain ⟨secret,seen⟩ := lookShows.2 rssi looked
        exact ⟨secret.imp id fun here => ⟨text,List.mem_singleton_self _,here⟩,
          seen.imp id fun here => ⟨text,List.mem_singleton_self _,here⟩⟩
      · rename_i s' looked
        generalize later : watch iccid want s' rest = did at h
        obtain ⟨texts',watched⟩ := did
        obtain ⟨rfl,rfl⟩ := Prod.mk.inj h
        obtain ⟨secret,seen⟩ := ih later
        obtain ⟨secret',seen'⟩ := lookShows.1 s' looked
        constructor
        · rcases secret with ok | ⟨t,mem,here⟩
          · exact (secret' ok).imp id fun here => ⟨text,List.mem_cons_self,here⟩
          · exact .inr ⟨t,List.mem_cons_of_mem text mem,here⟩
        · rcases seen with ok | ⟨t,mem,here⟩
          · exact (seen' ok).imp id fun here => ⟨text,List.mem_cons_self,here⟩
          · exact .inr ⟨t,List.mem_cons_of_mem text mem,here⟩

theorem saveEachKeeps {iccid : Text} {writes : List (Text × (Entry Digest → Entry Digest))} {saves : List Bool}
    {w : World Digest} (kept : Kept sha256File w) (fewer : ∀ x ∈ writes, ∀ u, Fewer (x.2 u) u) :
    Kept sha256File (saveEach iccid writes saves w).1 := by
  induction writes generalizing saves w with
  | nil => exact kept
  | cons x rest ih =>
    have next : Kept sha256File (w.setUnit x.1 x.2) := fewerKept kept (fewer x List.mem_cons_self)
    have others : ∀ x ∈ rest, ∀ u, Fewer (x.2 u) u := fun y mem => fewer y (List.mem_cons_of_mem x mem)
    cases saves with
    | nil => exact ih next others
    | cons ok saves =>
      cases ok with
      | false => exact kept
      | true => exact ih next others

theorem failingFewer (iccid note : Text) : ∀ x ∈ @failing Digest iccid note, ∀ u, Fewer (x.2 u) u := by
  intro x mem u
  rcases List.mem_cons.mp mem with rfl | mem
  · exact noteFewer note u
  · cases List.mem_singleton.mp mem
    exact clearVerified u

theorem mispairingFewer (iccid seen : Text) (known : Bool) :
    ∀ x ∈ @mispairing Digest iccid seen known, ∀ u, Fewer (x.2 u) u := by
  intro x mem u
  rcases List.mem_cons.mp mem with rfl | mem
  · exact clearFlashed u
  rcases List.mem_append.mp mem with other | own
  · cases known with
    | false => exact absurd other nofun
    | true =>
      simp only [if_true,List.mem_cons,List.not_mem_nil,or_false] at other
      rcases other with rfl | rfl | rfl
      · exact clearVerified u
      · exact clearFlashed u
      · exact noteFewer _ u
  · exact failingFewer iccid _ x own u

theorem hearKeeps {iccid : Text} {w : World Digest} (kept : Kept sha256File w) (texts : List Text) :
    Kept sha256File (w.hear iccid texts) := by
  refine keptAt kept (elsewhereHear w texts) fun u at_ => ?_
  obtain ⟨first,saved,built,flashed,written,reported⟩ := kept.units iccid u at_
  refine ⟨first,saved,built,flashed,written,fun some_ => ?_⟩
  obtain ⟨m,manifest,run,mem,shown⟩ := reported some_
  refine ⟨m,manifest,run,?_,shown⟩
  simp only [World.place,World.hear,Function.update_self]
  exact List.mem_append_left _ mem

theorem discardKeeps {opts : StationOpts} {iccid : Text} {unlinks marks : Bool} {w : World Digest}
    (kept : Kept sha256File w) : Kept sha256File (discardBlob opts iccid unlinks marks w) := by
  unfold discardBlob
  split
  · exact kept
  have gone : Kept sha256File (w.setBlob iccid none) := keptAt kept (elsewhereBlob w none) (kept.units iccid)
  dsimp only
  split
  · refine fewerKept gone fun u => ⟨rfl,?_,fun _ => id,id⟩
    rw [Option.map_map]
    rfl
  · exact gone

/-- The unit prints what is expected of it. -/
def Confirms (iccid : Text) (m : Manifest) (polls : List Poll) : Prop :=
  ∃ rssi, (watch iccid (secretPrefix m) ⟨false,none,none⟩ polls).2 = .verified rssi

theorem serialKeeps {opts : StationOpts} {iccid : Text} {a : SerialAnswers} {w : World Digest} {u : Entry Digest}
    (kept : Kept sha256File w) (at_ : w.batch.units iccid = some u) (flashed : u.flashed.isSome = true)
    (written : ∀ m, w.batch.manifests iccid = some m → Confirms iccid m a.polls → Written iccid (w.place iccid)) :
    Kept sha256File (serialVerify opts iccid (w.batch.manifests iccid) a w).1 := by
  unfold serialVerify
  split
  · exact kept
  split
  · exact kept
  rename_i m manifest
  split
  · exact kept
  dsimp only
  generalize watched : watch iccid (secretPrefix m) ⟨false,none,none⟩ a.polls = did
  obtain ⟨texts,watched_⟩ := did
  have heard : Kept sha256File (w.hear iccid texts) := hearKeeps kept texts
  cases watched_ with
  | failed note => exact saveEachKeeps heard (failingFewer iccid note)
  | mispaired seen => exact saveEachKeeps heard (mispairingFewer iccid seen _)
  | verified rssi =>
    obtain ⟨secret,seen⟩ := watchShows watched
    have shown : Reported ((w.hear iccid texts).place iccid).serial iccid m := by
      refine ⟨texts,?_,secret.resolve_left nofun,seen.resolve_left nofun⟩
      simp [World.place,World.hear]
    have holds : Written iccid ((w.hear iccid texts).place iccid) := written m manifest ⟨rssi,by rw [watched]⟩
    have verified : Kept sha256File
        ((w.hear iccid texts).setUnit iccid (·.setStage (.verified ⟨secretPrefix m,rssi⟩))) := by
      refine setKept heard fun u' there => ?_
      cases at_.symm.trans there
      obtain ⟨first,saved,built,blob,-⟩ := heard.units iccid u there
      exact ⟨fun _ => first (.inr (.inl flashed)),saved,built,blob,fun _ => holds,fun _ => ⟨m,manifest,shown⟩⟩
    cases saves : a.saves with
    | nil => exact discardKeeps verified
    | cons ok rest =>
      cases ok with
      | false => exact heard
      | true => exact discardKeeps verified

end

end Web3PiUps.FactoryLedger
