import Web3PiUps.FwRelayProof
import Web3PiUps.FwRollbackLaw

/-! What the law leaves open: a ninth boot cut before it stages anything, and an image
that is sent and rolled back again and again with no cut at all. -/
namespace Web3PiUps.FwRollback
open WupsProtocol FwSha256 StepMachine Slices
open FwUpdate hiding step

def quietEnv (now : UInt32) : Env := ⟨now,2000000,0,[]⟩

def send (request : FwRelay.Request) : Input := .run (.request request.op request.payload) (quietEnv 0)

def sendChunks : Nat → List Bytes → List Input
  | _, [] => []
  | offset, c::rest => send (.data offset c) :: sendChunks (offset+c.length) rest

def upload (image : Bytes) : List Input :=
  .run .boot (quietEnv 0) :: send (.begin image.length (sha256 image)) :: sendChunks 0 (slices wupsFwXferChunk image)

structure Sendable (image : Bytes) : Prop where
  low : fwImageMinLen ≤ image.length
  high : image.length ≤ fwImageMaxLen
  sane : saneImage image image.length = true

/-- Up, with no update pending. -/
structure Up (running : Bytes) (r : Rp2040) : Prop where
  on : r.on = true
  fsOk : r.fsOk = true
  unset : r.pending = false
  empty : r.flash.disk.pending = none
  running : r.running = running
  good : FwStaging.Good r

structure Uploading (running image sent : Bytes) (r : Rp2040) : Prop where
  up : Up running r
  isOpen : r.s.isOpen = true
  imageLen : r.s.imageLen = image.length
  sha : r.s.sha = sha256 image
  sent : r.s.accepted.flatten = sent

section Upload
variable {P : Disk → Prop} {running image sent : Bytes} {r r' : Rp2040}

theorem noteUp (up : Up running r) (env : Env) : fwUpdateNoteFrameOk (ready r env) = ready r env := by
  have unset : (ready r env).pending = false := up.unset
  unfold fwUpdateNoteFrameOk
  rw [unset,if_neg (by simp)]

theorem asideUp {env : Env} (up : Up running r) (aside : Aside (Quiet r.flash.disk) (ready r env) r')
    (good : FwStaging.Good r') : Up running r' := by
  obtain ⟨on,fsOk,unset,-,same⟩ := aside.same
  exact ⟨on.trans up.on,fsOk.trans up.fsOk,unset.trans up.unset,aside.clean.disk.1,same.trans up.running,good⟩

theorem upQuiet (up : Up running r) (env : Env) : Clean (Quiet r.flash.disk) (ready r (calm env)).flash :=
  fresh ⟨up.empty,rfl⟩

theorem lengthRead {n : Nat} (small : n ≤ fwImageMaxLen) (rest : Bytes) :
    le32 (FwRelay.le32Bytes n ++ rest) 0 = n :=
  FwRelayProof.le32Read (by have bound : fwImageMaxLen = 655360 := rfl; omega) rest

theorem beginAccepts (up : Up running r) (sendable : Sendable image) (other : running.length ≤ fwImageMaxLen) :
    Uploading running image [] (step r (send (.begin image.length (sha256 image)))).1 := by
  let q := ready r (calm (quietEnv 0))
  let payload := (FwRelay.Request.begin image.length (sha256 image)).payload
  have moved : (step r (send (.begin image.length (sha256 image)))).1 =
      (fwUpdateHandleBegin q payload (calm (quietEnv 0))).1 := by
    show whole r (.request .begin payload) (quietEnv 0) = _
    rw [wholeRequest up.on]
    simp only [wupsOnRequest,noteUp up]
    rfl
  have read : le32 payload 4 = image.length := lengthRead sendable.high (sha256 image)
  have digest : (payload.drop 8).take 32 = sha256 image := by
    show (sha256 image).take 32 = _
    rw [← sha256Length image,List.take_length]
  have aside := beginAside (upQuiet up (quietEnv 0)) (quietFree _) payload (calm (quietEnv 0))
  have ok : (fwUpdateHandleBegin q payload (calm (quietEnv 0))).2 = xferOk := by
    have long : payload.length = 40 := by
      show (sha256 image).length+8 = 40
      rw [sha256Length]
    have fsOk : q.fsOk = true := up.fsOk
    have room : ¬ image.length+running.length+fwFsSlack >
        (calm (quietEnv 0)).totalBytes-(calm (quietEnv 0)).usedBytes := by
      show ¬ image.length+running.length+fwFsSlack > 2000000-0
      have high := sendable.high
      have bound : fwImageMaxLen = 655360 := rfl
      have slack : fwFsSlack = 32768 := rfl
      omega
    have same : (sessionAbort q).running = running := up.running
    have opened := ((abortAside (upQuiet up (quietEnv 0)) (quietFree _)).clean.openStage (quietFree _)).2
    unfold fwUpdateHandleBegin
    rw [if_neg (by rw [long]; decide),if_neg (fun other => other rfl),if_neg (fun other => other rfl)]
    dsimp only
    rw [read,if_neg (not_or.mpr ⟨Nat.not_lt.mpr sendable.low,Nat.not_lt.mpr sendable.high⟩),fsOk,if_neg (by simp),
      same,if_neg room,opened]
    rfl
  rw [moved]
  rcases FwStaging.beginCases q payload (calm (quietEnv 0)) with ⟨-,bad⟩ | ⟨-,bad⟩ | ⟨opened,-⟩
  · exact absurd ok bad
  · exact absurd ok bad
  · exact ⟨asideUp up aside (FwStaging.openedGood (FwStaging.readyGood up.good _) opened),opened.isOpen,
      opened.imageLen.trans read,opened.sha.trans digest,by rw [opened.fresh.2.2]; rfl⟩

theorem flushWorks (c : Clean P r.flash) (free : StageFree P) : (flushStageBuf r).2 = true := by
  unfold flushStageBuf
  split
  · rfl
  · dsimp only
    rw [(c.writeStage free _).2,if_neg (fun other => other rfl)]

theorem chunkWorks (c : Clean P r.flash) (free : StageFree P) (fuel : Nat) (p : Bytes) :
    (takeChunk r fuel p).2 = true := by
  induction fuel generalizing r p with
  | zero => rfl
  | succ fuel ih =>
    cases p with
    | nil => rfl
    | cons b rest =>
      let r' : Rp2040 := { r with s := { r.s with buf := r.s.buf ++ (b::rest).take (stageBufSize-r.s.buf.length) } }
      have flushed := flushAside (r := r') c free
      unfold takeChunk
      dsimp only
      split
      · rw [show (flushStageBuf r').2 = true from flushWorks (r := r') c free,if_pos rfl]
        exact ih flushed.clean _
      · exact ih (r := r') c _

theorem dataAccepts (u : Uploading running image sent r) (sendable : Sendable image) {chunk : Bytes}
    (some_ : 0 < chunk.length) (small : chunk.length ≤ wupsFwXferChunk)
    (fits : sent.length+chunk.length ≤ image.length) :
    Uploading running image (sent ++ chunk) (step r (send (.data sent.length chunk))).1 := by
  let q := ready r (calm (quietEnv 0))
  let payload := (FwRelay.Request.data sent.length chunk).payload
  have moved : (step r (send (.data sent.length chunk))).1 =
      (fwUpdateHandleData q payload (calm (quietEnv 0))).1 := by
    show whole r (.request .data payload) (quietEnv 0) = _
    rw [wholeRequest u.up.on]
    simp only [wupsOnRequest,noteUp u.up]
    rfl
  have high := sendable.high
  have good : FwStaging.Good q := FwStaging.readyGood u.up.good _
  have count : r.s.received = sent.length := by
    rw [(u.up.good.staged u.isOpen).received,u.sent]
  have read : le32 payload 0 = sent.length := lengthRead (by omega) chunk
  have aside := dataAside (upQuiet u.up (quietEnv 0)) (quietFree _) payload (calm (quietEnv 0))
  have ok : (fwUpdateHandleData q payload (calm (quietEnv 0))).2 = xferOk := by
    have isOpen : q.s.isOpen = true := u.isOpen
    have imageLen : q.s.imageLen = image.length := u.imageLen
    have received : q.s.received = sent.length := count
    have long : payload.length = chunk.length+4 := rfl
    have rest : payload.drop 4 = chunk := rfl
    have took : ∀ s, (takeChunk { q with s := s } chunk.length chunk).2 = true := fun s =>
      chunkWorks (r := { q with s := s }) (upQuiet u.up (quietEnv 0)) (quietFree _) chunk.length chunk
    unfold fwUpdateHandleData
    rw [isOpen,if_neg (by simp)]
    dsimp only
    rw [long,if_neg (by omega),rest,if_neg (by omega),read,received,if_neg (fun other => other rfl),imageLen,
      if_neg (by omega),took]
    rfl
  rw [moved]
  rcases FwStaging.dataCases good.staged good.small payload (calm (quietEnv 0)) with ⟨-,bad⟩ | ⟨-,bad⟩ | ⟨taken,-⟩
  · exact absurd ok bad
  · exact absurd ok bad
  · refine ⟨asideUp u.up aside (FwStaging.takenGood good taken),taken.isOpen.2,taken.announced.1.trans u.imageLen,
      taken.announced.2.trans u.sha,?_⟩
    rw [taken.accepted,List.flatten_append,List.flatten_singleton]
    show r.s.accepted.flatten ++ chunk = _
    rw [u.sent]

theorem chunksAccept (sendable : Sendable image) (chunks : List Bytes) (sent : Bytes) {r : Rp2040}
    (u : Uploading running image sent r) (small : ∀ c ∈ chunks, 0 < c.length ∧ c.length ≤ wupsFwXferChunk)
    (fits : (sent ++ chunks.flatten).length ≤ image.length) :
    Uploading running image (sent ++ chunks.flatten) (final step r (sendChunks sent.length chunks)) := by
  induction chunks generalizing sent r with
  | nil => rw [List.flatten_nil,List.append_nil]; exact u
  | cons c rest ih =>
    have sizes := small c (List.mem_cons_self ..)
    rw [List.flatten_cons,← List.append_assoc] at fits ⊢
    have here := dataAccepts u sendable sizes.1 sizes.2 (by simp only [List.length_append] at fits; omega)
    have later := ih (sent ++ c) here (fun x inside => small x (List.mem_cons_of_mem _ inside)) fits
    rw [List.length_append] at later
    exact later

/-- An update is sent and the board is off, about to copy it. -/
structure Sent (running image : Bytes) (r : Rp2040) : Prop where
  off : r.on = false
  disk : r.flash.disk = ⟨some image,some running,some (some ⟨fwPendingMagic,0⟩),some (.copy .stage)⟩
  running : r.running = running

theorem commitAccepts (u : Uploading running image image r) (sendable : Sendable image)
    (low : fwImageMinLen ≤ running.length) (high : running.length ≤ fwImageMaxLen) :
    Sent running image (step r (send .commit)).1 := by
  let q := ready r (calm (quietEnv 0))
  let payload := FwRelay.Request.commit.payload
  let p : Rp2040 := { q with s := { q.s with lastReqMs := (calm (quietEnv 0)).now } }
  have good : FwStaging.Good q := FwStaging.readyGood u.up.good _
  have clean : Clean (Quiet r.flash.disk) p.flash := upQuiet u.up (quietEnv 0)
  obtain ⟨file,here,joined⟩ := (good.staged u.isOpen).content
  have sent : r.s.accepted.flatten = image := u.sent
  have received : q.s.received = q.s.imageLen := by
    show r.s.received = r.s.imageLen
    rw [(u.up.good.staged u.isOpen).received,sent,u.imageLen]
  obtain ⟨wrote,spec⟩ := FwStaging.flushed (r := p) here
  have done : (flushStageBuf p).2 = true := flushWorks clean (quietFree _)
  obtain ⟨empty,stage⟩ := spec done
  have whole_ : (flushStageBuf p).1.flash.disk.stage = some image := by
    rw [stage]
    show some (file ++ q.s.buf) = _
    rw [joined]
    exact congrArg some sent
  obtain ⟨openSame,lenSame,shaSame,receivedSame,acceptedSame⟩ := wrote.same
  let f : Rp2040 := { (flushStageBuf p).1 with s := { (flushStageBuf p).1.s with isOpen := false } }
  have digest : verifyStageSha f = true := by
    have same : f.s.sha = sha256 image := shaSame.trans u.sha
    have there : f.flash.disk.stage = some image := whole_
    simp only [verifyStageSha,there,sliced (show 0 < stageBufSize by decide),same,beq_self_eq_true]
  have sane : sanityCheckImage f = true := by
    have same : f.s.imageLen = image.length := lenSame.trans u.imageLen
    have there : f.flash.disk.stage = some image := whole_
    simp only [sanityCheckImage,there,same,sendable.sane]
  have handled : fwUpdateHandleEnd q payload (calm (quietEnv 0)) = armStaged f := by
    have isOpen : q.s.isOpen = true := u.isOpen
    have kept : (fwUpdateHandleEnd q payload (calm (quietEnv 0))) =
        if !(flushStageBuf p).2 then (sessionAbort (flushStageBuf p).1,xferFlashErr,false)
        else if !verifyStageSha f then ({ f with flash := f.flash.remove .stage },xferVerifyFail,false)
        else if !sanityCheckImage f then ({ f with flash := f.flash.remove .stage },xferBadReq,false)
        else armStaged f := by
      unfold fwUpdateHandleEnd
      rw [if_neg (by rw [isOpen]; simp)]
      dsimp only
      rw [if_neg (by decide),if_neg (by decide),if_neg (by decide),if_neg (not_not.mpr received)]
    rw [kept,done,digest,sane]
    rfl
  have imageSame : f.running = running := wrote.running.trans u.up.running
  have flushed := flushAside clean (quietFree _)
  have quiet : ∀ d, Quiet r.flash.disk d → d.command ≠ some (.copy .prev) ∧ d.pending = none :=
    fun d here => ⟨fun command => u.up.good.disarmed ⟨.prev,here.2.symm.trans command⟩,here.1⟩
  obtain ⟨answer,-,same,marked⟩ := armsStaged (r := f) flushed.clean imageSame quiet
  obtain ⟨marker,snapshot⟩ := marked low high
  obtain ⟨-,-,⟨-,stage',command⟩ | ⟨bad,-⟩⟩ := FwStaging.armCases f
  · have moved : (step r (send .commit)).1 = reboot (armStaged f).1 := by
      show whole r (.request .commit payload) (quietEnv 0) = _
      rw [wholeRequest u.up.on]
      simp only [wupsOnRequest,noteUp u.up]
      show (if (fwUpdateHandleEnd q payload (calm (quietEnv 0))).2.2 then
        reboot (fwUpdateHandleEnd q payload (calm (quietEnv 0))).1 else _) = _
      rw [handled,answer]
      rfl
    rw [moved]
    refine ⟨rfl,?_,?_⟩
    · show (armStaged f).1.flash.disk = _
      have staged : (armStaged f).1.flash.disk.stage = some image := stage'.trans whole_
      cases disk : (armStaged f).1.flash.disk with
      | mk a b c d =>
        rw [disk] at marker snapshot command staged
        simp only at marker snapshot command staged
        rw [marker,snapshot,command,staged]
    · show (armStaged f).1.running = running
      rw [same]; exact imageSame
  · exact absurd (answer.symm.trans bad) (by decide)

/-- Off, and to come up on `running` with no update pending. -/
structure Home (running : Bytes) (r : Rp2040) : Prop where
  off : r.on = false
  empty : r.flash.disk.pending = none
  running : (bootloader r).running = running

theorem homeBoots (home : Home running r) (env : Env) : Up running (step r (.run .boot env)).1 := by
  obtain ⟨q,started,moved⟩ := bootStarts (P := fun d => d.pending = none) home.off env (fun _ => home.empty)
  have absent : (q.flash.removeExisting .command).disk.has .pending = false := by
    show (q.flash.removeExisting .command).disk.pending.isSome = false
    rw [started.marker,home.empty]; rfl
  have init := initPlain started.faults env.now absent
  have on : (fwUpdateBootInit q env.now).on = true := by rw [init]; exact started.on
  have good := FwStaging.initGood started.closed started.spent env.now on
  have clean := (bootsIdle home.off home.empty env).2
  show Up running (whole r .boot env)
  rw [moved] at clean ⊢
  refine ⟨on,?_,?_,clean.disk.2,?_,good⟩
  · rw [init]
  · rw [init]; exact started.unset
  · rw [init]; exact started.running.trans home.running

theorem uploads (home : Home running r) (sendable : Sendable image) (high : running.length ≤ fwImageMaxLen) :
    Uploading running image image (final step r (upload image)) := by
  have began := beginAccepts (homeBoots home (quietEnv 0)) sendable high
  have joined := slicesFlatten (show 0 < wupsFwXferChunk by decide) image
  have sent := chunksAccept sendable (slices wupsFwXferChunk image) [] began
    (fun c inside => sliceBounds (by decide) inside) (by rw [List.nil_append,joined])
  rw [List.nil_append,joined] at sent
  exact sent

theorem updates (home : Home running r) (sendable : Sendable image) (low : fwImageMinLen ≤ running.length)
    (high : running.length ≤ fwImageMaxLen) :
    Sent running image (final step r (upload image ++ [send .commit])) := by
  rw [finalConcat]
  exact commitAccepts (uploads home sendable high) sendable low high

/-- The new image is not seen within its window: back to the one before. -/
def unseen : List Input := [.run .boot (quietEnv 0),.run .tick (quietEnv 300001)]

theorem sentMarked (sent : Sent running image r) : Marked running 0 r.flash.disk := by
  rw [sent.disk]; exact ⟨rfl,rfl⟩

theorem unseenRollsBack (sent : Sent running image r) :
    Home running (final step r unseen) ∧ true ∈ outs step r unseen := by
  obtain ⟨f,-,marked,-,⟨late,-⟩ | ⟨-,running',last,on,ms⟩⟩ := bootsMarked sent.off (sentMarked sent) (quietEnv 0)
  · exact absurd late (by decide)
  have set : (whole r .boot (quietEnv 0)).pending = true := by
    rw [running'.flag on,last,marked.1]; rfl
  have legal : Legal (whole r .boot (quietEnv 0)).flash.disk := .inr ⟨running,1,by rw [last]; exact marked⟩
  obtain ⟨-,off,g,clean,rolled⟩ := lateRolls running' legal on (quietEnv 300001) set (by rw [ms]; decide)
  have prev : g.disk.prev = some running := by
    rw [clean.disk.2.1,last]; exact marked.2
  refine ⟨⟨off,?_,?_⟩,?_⟩
  · show (whole (whole r .boot (quietEnv 0)) .tick (quietEnv 300001)).flash.disk.pending = none
    rw [rolled]; rfl
  · show (bootloader (whole (whole r .boot (quietEnv 0)) .tick (quietEnv 300001))).running = running
    have command : (rolledBack g).disk.command = some (.copy .prev) := rfl
    have snapshot : (rolledBack g).disk.image .prev = some running := prev
    unfold bootloader
    rw [rolled,command]
    show ((rolledBack g).disk.image .prev).getD _ = _
    rw [snapshot]; rfl
  · refine List.mem_cons_of_mem _ (List.mem_singleton.mpr ?_)
    show true = stages (whole (whole r .boot (quietEnv 0)) .tick (quietEnv 300001)).flash.trail
    rw [rolled,stagesOne (d := g.disk) (by simp [rolledBack,Flash.put])]

def cycle (image : Bytes) : List Input := upload image ++ [send .commit] ++ unseen

theorem cyclesRollBack (sendable : Sendable image) (low : fwImageMinLen ≤ running.length)
    (high : running.length ≤ fwImageMaxLen) (N : Nat) {r : Rp2040} (home : Home running r) :
    N ≤ (outs step r (List.replicate N (cycle image)).flatten).count true := by
  induction N generalizing r with
  | zero => exact Nat.zero_le _
  | succ N ih =>
    obtain ⟨back,rolled⟩ := unseenRollsBack (updates home sendable low high)
    have later := ih back
    rw [← finalAppend] at later
    have first : 0 < (outs step r (cycle image)).count true := by
      refine List.count_pos_iff.mpr ?_
      rw [cycle,outsAppend]
      exact List.mem_append_right _ rolled
    rw [List.replicate_succ,List.flatten_cons,outsAppend,List.count_append]
    have rest : N ≤ (outs step (final step r (cycle image)) (List.replicate N (cycle image)).flatten).count true := later
    omega

end Upload

/-! Eight boots, each followed by a power cut, and a ninth cut in its first file step. -/

def crashes : Nat → List Input
  | 0 => [.cutIn .boot (quietEnv 0) 0]
  | n+1 => .run .boot (quietEnv 0) :: .run .cut (quietEnv 0) :: crashes n

/-- The boots along a run from any state. -/
def bootsAt (r : Rp2040) (inputs : List Input) (j : Nat) : Bool :=
  !(stateAt step r inputs j).on && inputIs inputs (fun i => i.event == .boot) j

theorem tallyShift (p : Nat → Bool) (a n : Nat) : tally p (a+n) = tally p a + tally (fun j => p (a+j)) n := by
  induction n with
  | zero => rfl
  | succ n ih =>
    show tally p (a+n) + _ = tally p a + (tally (fun j => p (a+j)) n + _)
    rw [ih,Nat.add_assoc]
    rfl

section Crashes
variable {image : Bytes} {boots : UInt32} {r : Rp2040}

theorem bootCut (off : r.on = false) (marked : Marked image boots r.flash.disk)
    (early : ¬ boots+1 > fwPendingMaxBoots) :
    (step r (.run .boot (quietEnv 0))).2 = false ∧ (step r (.run .boot (quietEnv 0))).1.on = true ∧
    (step (step r (.run .boot (quietEnv 0))).1 (.run .cut (quietEnv 0))).2 = false ∧
    (step (step r (.run .boot (quietEnv 0))).1 (.run .cut (quietEnv 0))).1.on = false ∧
    Marked image (boots+1) (step (step r (.run .boot (quietEnv 0))).1 (.run .cut (quietEnv 0))).1.flash.disk := by
  obtain ⟨f,clean,next,-,⟨late,-⟩ | ⟨-,-,last,on,-⟩⟩ := bootsMarked off marked (quietEnv 0)
  · exact absurd late early
  have ended := quietEnds (r := r) (i := .run .boot (quietEnv 0)) (fun d => unarmedPrev)
    (by rw [← last] at clean; exact clean)
  have cut' : whole (step r (.run .boot (quietEnv 0))).1 .cut (quietEnv 0) =
      reboot (ready (step r (.run .boot (quietEnv 0))).1 (calm (quietEnv 0))) := wholeCut on
  have idle := idleEnds (r := (step r (.run .boot (quietEnv 0))).1) (i := .run .cut (quietEnv 0))
    (by show (whole _ .cut (quietEnv 0)).flash.trail = []; rw [cut']; rfl)
  refine ⟨ended.2,on,idle.2,?_,?_⟩
  · show (whole _ .cut (quietEnv 0)).on = false
    rw [cut']; rfl
  · show Marked image (boots+1) (whole _ .cut (quietEnv 0)).flash.disk
    rw [cut']
    show Marked image (boots+1) (whole r .boot (quietEnv 0)).flash.disk
    rw [last]; exact next

theorem firstStepCut (off : r.on = false) (marked : Marked image boots r.flash.disk) :
    (step r (.cutIn .boot (quietEnv 0) 0)).2 = false := by
  obtain ⟨f,clean,-,some_,turned⟩ := bootsMarked off marked (quietEnv 0)
  have first : ∀ d ∈ (whole r .boot (quietEnv 0)).flash.trail.take 1, d ∈ f.trail := by
    rcases turned with ⟨-,-,last⟩ | ⟨-,-,last,-,-⟩
    · have trail : (whole r .boot (quietEnv 0)).flash.trail = f.trail ++ [withPrevArmed f.disk] ++
          [(withPrevArmed f.disk).without .pending] := by rw [last]; rfl
      intro d inside
      rw [trail,List.append_assoc,List.take_append_of_le_length some_] at inside
      exact List.mem_of_mem_take inside
    · intro d inside
      rw [last] at inside
      exact List.mem_of_mem_take inside
  exact stagesNone (fun d inside => unarmedPrev (clean.trail d (first d inside)))

theorem crashesStageNothing (n : Nat) {r : Rp2040} {boots : UInt32} (off : r.on = false)
    (marked : Marked image boots r.flash.disk) (left : boots.toNat+n ≤ 8) :
    outs step r (crashes n) = List.replicate (2*n+1) false ∧ tally (bootsAt r (crashes n)) (2*n+1) = n+1 := by
  induction n generalizing r boots with
  | zero =>
    refine ⟨?_,?_⟩
    · show [(step r (.cutIn .boot (quietEnv 0) 0)).2] = [false]
      rw [firstStepCut off marked]
    · have here : bootsAt r (crashes 0) 0 = true := by
        show (!r.on && _) = true
        rw [off]; rfl
      simp only [tally,here]
      rfl
  | succ n ih =>
    have more : (boots+1).toNat = boots.toNat+1 := by
      rw [UInt32.toNat_add]
      exact Nat.mod_eq_of_lt (by show boots.toNat+1 < 4294967296; omega)
    have early : ¬ boots+1 > fwPendingMaxBoots := by
      intro late
      have late := UInt32.lt_iff_toNat_lt.mp late
      rw [more] at late
      have eight : fwPendingMaxBoots.toNat = 8 := rfl
      omega
    obtain ⟨none_,on,none',off',next⟩ := bootCut off marked early
    obtain ⟨quiet,total⟩ := ih off' next (by rw [more]; omega)
    refine ⟨?_,?_⟩
    · rw [crashes,outsCons,outsCons,none_,none',quiet]; rfl
    · have count : 2*(n+1)+1 = 2+(2*n+1) := by omega
      rw [count,tallyShift]
      have here : bootsAt r (crashes (n+1)) 0 = true := by
        show (!r.on && _) = true
        rw [off]; rfl
      have up : bootsAt r (crashes (n+1)) 1 = false := by
        show (!(step r (.run .boot (quietEnv 0))).1.on && _) = false
        rw [on]; rfl
      have later : (fun j => bootsAt r (crashes (n+1)) (2+j)) =
          bootsAt (step (step r (.run .boot (quietEnv 0))).1 (.run .cut (quietEnv 0))).1 (crashes n) := by
        funext j
        rw [Nat.add_comm 2 j]
        rfl
      rw [later,total]
      simp only [tally,here,up]
      simp
      omega

end Crashes

/-! Where a run goes on from a first part of its inputs. -/

section Parts
variable {running : Bytes} {a b : List Input}

theorem stateAfter (running : Bytes) (a b : List Input) (k : Nat) :
    at' running (a ++ b) (a.length+k) = stateAt step (final step (factory running) a) b k := by
  rw [at',stateAt,List.take_append,List.take_of_length_le (Nat.le_add_right _ _),Nat.add_sub_cancel_left,finalAppend]
  rfl

theorem stateThen (running : Bytes) (a b : List Input) :
    at' running (a ++ b) a.length = final step (factory running) a := by
  rw [at',stateAt,List.take_left']
  rfl

theorem inputAfter (p : Input → Bool) (k : Nat) : inputIs (a ++ b) p (a.length+k) = inputIs b p k := by
  unfold inputIs
  rw [List.getElem?_append_right (Nat.le_add_right _ _),Nat.add_sub_cancel_left]

theorem stagedAfter (k : Nat) :
    staged running (a ++ b) (a.length+k) = ((outs step (final step (factory running) a) b)[k]? == some true) := by
  unfold staged
  rw [outsAppend,List.getElem?_append_right (by rw [outsLength]; exact Nat.le_add_right _ _),outsLength,
    Nat.add_sub_cancel_left]

theorem triedAfter (k : Nat) :
    tried running (a ++ b) (a.length+k) = bootsAt (final step (factory running) a) b k := by
  unfold tried bootsAt
  rw [stateAfter,inputAfter]

theorem inputNone {p : Input → Bool} {inputs : List Input} (none_ : ∀ i ∈ inputs, p i = false) (k : Nat) :
    inputIs inputs p k = false := by
  unfold inputIs
  cases here : inputs[k]? with
  | none => rfl
  | some i => exact none_ i (List.mem_of_getElem? here)

theorem tallyStaged (running : Bytes) (inputs : List Input) (n : Nat) :
    tally (staged running inputs) n = ((outs step (factory running) inputs).take n).count true := by
  induction n with
  | zero => rfl
  | succ n ih =>
    rw [tally,ih,List.take_add_one,List.count_append]
    unfold staged
    cases (outs step (factory running) inputs)[n]? with
    | none => rfl
    | some rolled => cases rolled <;> rfl

end Parts

theorem factoryHome (running : Bytes) : Home running (factory running) := ⟨rfl,rfl,rfl⟩

/-- Zeros but for the two vectors `sanity_check_image` looks at. -/
def plainImage : Bytes :=
  List.replicate 0x3000 0 ++ (FwRelay.le32Bytes 0x20000000 ++ (FwRelay.le32Bytes 0x10003001 ++ List.replicate 4088 0))

theorem plainSendable : Sendable plainImage := by
  have long : plainImage.length = 0x4000 := by
    simp only [plainImage,List.length_append,List.length_replicate]; rfl
  have shifted : ∀ (rest : Bytes) (i : Nat), le32 (List.replicate 0x3000 0 ++ rest) (0x3000+i) = le32 rest i := by
    intro rest i
    have at_ : ∀ j, (List.replicate 0x3000 (0 : UInt8) ++ rest).getD (0x3000+j) 0 = rest.getD j 0 := fun j => by
      rw [List.getD_eq_getElem?_getD,List.getD_eq_getElem?_getD,
        List.getElem?_append_right (by rw [List.length_replicate]; omega),List.length_replicate,
        Nat.add_sub_cancel_left]
    simp only [le32,Nat.add_assoc,at_]
  have sp : le32 plainImage fwAppVectorsOff = 0x20000000 := by
    exact (shifted _ 0).trans (FwRelayProof.le32Read (by omega) _)
  have rst : le32 plainImage (fwAppVectorsOff+4) = 0x10003001 := by
    exact (shifted _ 4).trans (FwRelayProof.le32Read (by omega) (List.replicate 4088 0))
  refine ⟨by rw [long],by rw [long]; decide,?_⟩
  simp only [saneImage,sp,rst,long]
  decide

theorem endMarks {image : Bytes} (sendable : Sendable image) (b : List Input) :
    marked image (upload image ++ [send .commit] ++ b) (upload image).length = true := by
  have home := factoryHome image
  have joined : upload image ++ [send .commit] ++ b = upload image ++ ([send .commit] ++ b) := List.append_assoc ..
  have length : (upload image ++ [send .commit]).length = (upload image).length+1 := List.length_append
  have before := stateThen image (upload image) ([send .commit] ++ b)
  have after := stateThen image (upload image ++ [send .commit]) b
  have input := inputAfter (a := upload image) (b := [send .commit] ++ b) (fun i => Event.isCommit i.event) 0
  rw [← joined] at before
  rw [Nat.add_zero,← joined] at input
  rw [length] at after
  unfold marked
  rw [before,after,input,(uploads home sendable sendable.high).up.on,
    (updates home sendable sendable.low sendable.high).disk]
  rfl

theorem crashesUnseen {image : Bytes} {a : List Input} {n : Nat} (length : a.length = n+1)
    (mark : marked image (a ++ crashes 8) n = true) (off : (final step (factory image) a).on = false)
    (here : Marked image 0 (final step (factory image) a).flash.disk) :
    Unseen image (a ++ crashes 8) n (a.length+17) ∧
      tally (tried image (a ++ crashes 8)) (a.length+17) = tally (tried image (a ++ crashes 8)) (n+1)+9 := by
  obtain ⟨quiet,total⟩ := crashesStageNothing 8 off here (Nat.le_refl 8)
  refine ⟨⟨mark,by omega,fun k low high => ?_⟩,?_⟩
  · obtain ⟨j,rfl⟩ : ∃ j, k = a.length+j := ⟨k-a.length,by omega⟩
    refine ⟨?_,?_⟩
    · unfold framed
      rw [inputAfter,inputNone (by decide),Bool.and_false]
    · rw [stagedAfter,quiet]
      cases entry : (List.replicate (2*8+1) false)[j]? with
      | none => rfl
      | some rolled =>
        have none_ := List.eq_of_mem_replicate (List.mem_of_getElem? entry)
        rw [none_]; rfl
  · have boots : (fun j => tried image (a ++ crashes 8) (a.length+j)) =
        bootsAt (final step (factory image) a) (crashes 8) := funext triedAfter
    rw [tallyShift,boots,← length,total]

theorem ninthBootCut {image : Bytes} (sendable : Sendable image) :
    ∃ n m, Unseen image (upload image ++ [send .commit] ++ crashes 8) n m ∧
      tally (tried image (upload image ++ [send .commit] ++ crashes 8)) m =
        tally (tried image (upload image ++ [send .commit] ++ crashes 8)) (n+1)+9 := by
  have sent := updates (factoryHome image) sendable sendable.low sendable.high
  exact ⟨_,_,crashesUnseen List.length_append (endMarks sendable _) sent.off (sentMarked sent)⟩

theorem uncut (image : Bytes) : ∀ i ∈ cycle image, i.isCut = false := by
  have chunks : ∀ (parts : List Bytes) (offset : Nat), ∀ i ∈ sendChunks offset parts, i.isCut = false := by
    intro parts
    induction parts with
    | nil => exact fun _ _ => nofun
    | cons c rest ih =>
      intro offset i inside
      rcases List.mem_cons.mp inside with rfl | later
      · rfl
      · exact ih _ i later
  intro i inside
  simp only [cycle,upload,unseen,List.mem_append,List.mem_cons,List.not_mem_nil,or_false] at inside
  rcases inside with ((rfl | rfl | sent) | rfl) | rfl | rfl
  · rfl
  · rfl
  · exact chunks _ _ i sent
  · rfl
  · rfl
  · rfl

/-- Neither bound holds of every run: nine boots, or a number of rollbacks without cuts. -/
theorem statedLawFails :
    ¬ (∀ running inputs n m, Unseen running inputs n m →
      tally (tried running inputs) m ≤ tally (tried running inputs) (n+1)+8) ∧
    ¬ (∀ running, ∃ bound, ∀ inputs, (∀ n, cut inputs n = false) →
      tally (staged running inputs) inputs.length ≤ bound) := by
  refine ⟨fun nine => ?_,fun finite => ?_⟩
  · obtain ⟨n,m,unseen',total⟩ := ninthBootCut plainSendable
    have bound := nine _ _ n m unseen'
    omega
  · obtain ⟨bound,holds⟩ := finite plainImage
    have none_ : ∀ n, cut (List.replicate (bound+1) (cycle plainImage)).flatten n = false := by
      refine inputNone fun i inside => ?_
      obtain ⟨part,listed,member⟩ := List.mem_flatten.mp inside
      rw [List.eq_of_mem_replicate listed] at member
      exact uncut plainImage i member
    have few := holds _ none_
    have many := cyclesRollBack plainSendable plainSendable.low plainSendable.high (bound+1) (factoryHome plainImage)
    rw [tallyStaged,List.take_of_length_le (by rw [outsLength])] at few
    omega

end Web3PiUps.FwRollback
