import Web3PiUps.Lib.StepMachine
import Web3PiUps.FwUpdate

/-! The staging of an image on the RP2040, over any requests, ticks, boots, power cuts
and failures of the flash: what lies in the stage file and the RAM buffer is what was
accepted, and only a commit that checked all of it leaves the board with an image armed. -/
namespace Web3PiUps.FwStaging
open WupsProtocol FwSha256 FwUpdate StepMachine

def Armed (d : Disk) : Prop := ∃ x, d.command = some (.copy x)

section Calls
variable {f : Flash}

theorem nextDisk : f.next.2.disk = f.disk := by unfold Flash.next; split <;> rfl

theorem nextEq {fault : Option Nat} {g : Flash} (turned : f.next = (fault,g)) : g.disk = f.disk := by
  have same := nextDisk (f := f)
  rw [turned] at same
  exact same

theorem removed (x : File) : (f.remove x).disk = f.disk ∨ (f.remove x).disk = f.disk.without x := by
  unfold Flash.remove
  split
  · rename_i g turned
    exact .inr (congrArg (Disk.without · x) (nextEq turned))
  · rename_i g turned
    exact .inl (nextEq turned)

theorem removedExisting (x : File) :
    (f.removeExisting x).disk = f.disk ∨ (f.removeExisting x).disk = f.disk.without x := by
  unfold Flash.removeExisting
  split
  · exact removed x
  · exact .inl rfl

theorem removeStage {x : File} (other : x ≠ .stage) : (f.remove x).disk.stage = f.disk.stage := by
  rcases removed (f := f) x with same | gone
  · rw [same]
  · rw [gone]; cases x <;> first | rfl | exact absurd rfl other

theorem removeCommand {x : File} (other : x ≠ .command) : (f.remove x).disk.command = f.disk.command := by
  rcases removed (f := f) x with same | gone
  · rw [same]
  · rw [gone]; cases x <;> first | rfl | exact absurd rfl other

theorem removeExistingStage {x : File} (other : x ≠ .stage) :
    (f.removeExisting x).disk.stage = f.disk.stage := by
  unfold Flash.removeExisting
  split
  · exact removeStage other
  · rfl

theorem removeExistingCommand {x : File} (other : x ≠ .command) :
    (f.removeExisting x).disk.command = f.disk.command := by
  unfold Flash.removeExisting
  split
  · exact removeCommand other
  · rfl

theorem blocksDisk (blocks : List Bytes) : (f.writeBlocks blocks).1.disk = f.disk := by
  induction blocks generalizing f with
  | nil => rfl
  | cons b rest ih =>
    unfold Flash.writeBlocks
    split
    · rename_i g turned
      exact ih.trans (nextEq turned)
    · rename_i g turned
      exact nextEq turned

theorem armStage (x : File) : (f.arm x).1.disk.stage = f.disk.stage := by
  unfold Flash.arm
  split
  · rename_i g turned; rw [nextEq turned]
  · rename_i g turned
    split
    · rename_i h again; rw [nextEq again,nextEq turned]
    · rename_i h again
      have same := (nextEq again).trans (nextEq turned)
      show h.disk.stage = f.disk.stage
      rw [same]

theorem armFailed {x : File} (failed : (f.arm x).2 = false) : (f.arm x).1.disk = f.disk := by
  revert failed
  unfold Flash.arm
  split
  · rename_i g turned; exact fun _ => nextEq turned
  · rename_i g turned
    split
    · rename_i h again; exact fun _ => (nextEq again).trans (nextEq turned)
    · exact fun failed => absurd failed (by simp)

theorem armDone {x : File} (done : (f.arm x).2 = true) : (f.arm x).1.disk.command = some (.copy x) := by
  revert done
  unfold Flash.arm
  split
  · exact fun done => absurd done (by simp)
  · split
    · exact fun done => absurd done (by simp)
    · exact fun _ => rfl

end Calls

section Functions
variable {r : Rp2040}

theorem abortCommand : (sessionAbort r).flash.disk.command = r.flash.disk.command := by
  unfold sessionAbort
  dsimp only
  split
  · exact removeExistingCommand (by decide)
  · rfl

theorem cleanupCommand : (cleanupPendingFiles r).flash.disk.command = r.flash.disk.command := by
  unfold cleanupPendingFiles
  split
  · rfl
  · dsimp only
    split
    · rw [removeExistingCommand (by decide),removeExistingCommand (by decide)]
    · rw [removeExistingCommand (by decide),removeExistingCommand (by decide),removeExistingCommand (by decide)]

theorem cleanupSession : (cleanupPendingFiles r).s = r.s := by
  unfold cleanupPendingFiles; split <;> rfl

theorem cleanupOn : (cleanupPendingFiles r).on = r.on := by
  unfold cleanupPendingFiles; split <;> rfl

theorem cleanupStage (opened : r.s.isOpen = true) :
    (cleanupPendingFiles r).flash.disk.stage = r.flash.disk.stage := by
  unfold cleanupPendingFiles
  split
  · rfl
  · dsimp only
    rw [removeExistingStage (by decide),removeExistingStage (by decide)]

theorem noteCommand : (fwUpdateNoteFrameOk r).flash.disk.command = r.flash.disk.command := by
  unfold fwUpdateNoteFrameOk
  split
  · exact cleanupCommand
  · rfl

theorem noteSession : (fwUpdateNoteFrameOk r).s = r.s := by
  unfold fwUpdateNoteFrameOk
  split
  · exact cleanupSession
  · rfl

theorem noteOn : (fwUpdateNoteFrameOk r).on = r.on := by
  unfold fwUpdateNoteFrameOk
  split
  · exact cleanupOn
  · rfl

theorem noteStage (opened : r.s.isOpen = true) :
    (fwUpdateNoteFrameOk r).flash.disk.stage = r.flash.disk.stage := by
  unfold fwUpdateNoteFrameOk
  split
  · exact cleanupStage opened
  · rfl

theorem restageArmed (on : (restagePreviousAndReboot r).on = true) :
    (restagePreviousAndReboot r).flash.disk.command = r.flash.disk.command := by
  revert on
  unfold restagePreviousAndReboot
  split
  · exact fun _ => rfl
  · dsimp only
    split
    · exact fun on => absurd on (by simp [reboot])
    · rename_i failed
      exact fun _ => congrArg Disk.command (armFailed (by simpa using failed))

theorem restageSession : (restagePreviousAndReboot r).s = r.s := by
  unfold restagePreviousAndReboot
  split
  · rfl
  · dsimp only; split <;> rfl

theorem restageStage : (restagePreviousAndReboot r).flash.disk.stage = r.flash.disk.stage := by
  unfold restagePreviousAndReboot
  split
  · rfl
  · dsimp only
    split
    · exact (removeStage (by decide)).trans (armStage .prev)
    · exact armStage .prev

end Functions

/-- The stage file and the RAM buffer of an open session. -/
structure Staged (r : Rp2040) : Prop where
  content : ∃ file, r.flash.disk.stage = some file ∧ file ++ r.s.buf = r.s.accepted.flatten
  received : r.s.received = r.s.accepted.flatten.length
  bounded : r.s.received ≤ r.s.imageLen

/-- `r'` is `r` but for the stage file, the buffer and the record of the flash calls. -/
structure Wrote (r r' : Rp2040) : Prop where
  session : r'.s = { r.s with buf := r'.s.buf }
  command : r'.flash.disk.command = r.flash.disk.command
  on : r'.on = r.on
  running : r'.running = r.running

theorem Wrote.trans {a b c : Rp2040} (first : Wrote a b) (second : Wrote b c) : Wrote a c :=
  ⟨by rw [second.session,first.session],second.command.trans first.command,second.on.trans first.on,
    second.running.trans first.running⟩

theorem Wrote.same {a b : Rp2040} (w : Wrote a b) : b.s.isOpen = a.s.isOpen ∧ b.s.imageLen = a.s.imageLen ∧
    b.s.sha = a.s.sha ∧ b.s.received = a.s.received ∧ b.s.accepted = a.s.accepted := by
  rw [w.session]; exact ⟨rfl,rfl,rfl,rfl,rfl⟩

theorem stageWritten {f : Flash} {file : Bytes} (data : Bytes) (here : f.disk.stage = some file) :
    (f.writeStage data).1.disk.command = f.disk.command ∧
    ((f.writeStage data).2 = data.length → (f.writeStage data).1.disk.stage = some (file ++ data)) := by
  unfold Flash.writeStage
  split
  · rename_i g turned
    have same := nextEq turned
    refine ⟨?_,fun _ => ?_⟩
    · show g.disk.command = _
      rw [same]
    · show some (g.disk.stage.getD [] ++ data) = _
      rw [same,here]; rfl
  · rename_i n g turned
    have same := nextEq turned
    refine ⟨?_,fun whole => ?_⟩
    · show g.disk.command = _
      rw [same]
    · have all : data.take n = data := List.IsPrefix.eq_of_length (List.take_prefix n data) whole
      show some (g.disk.stage.getD [] ++ data.take n) = _
      rw [same,here,all]; rfl

theorem flushed {r : Rp2040} {file : Bytes} (here : r.flash.disk.stage = some file) :
    Wrote r (flushStageBuf r).1 ∧
    ((flushStageBuf r).2 = true → (flushStageBuf r).1.s.buf = [] ∧
      (flushStageBuf r).1.flash.disk.stage = some (file ++ r.s.buf)) := by
  unfold flushStageBuf
  split
  · rename_i empty
    have none_ : r.s.buf = [] := List.length_eq_zero_iff.mp empty
    exact ⟨⟨rfl,rfl,rfl,rfl⟩,fun _ => ⟨none_,by rw [here,none_,List.append_nil]⟩⟩
  · obtain ⟨command,whole⟩ := stageWritten r.s.buf here
    dsimp only
    split
    · exact ⟨⟨rfl,command,rfl,rfl⟩,fun ok => absurd ok (by simp)⟩
    · rename_i full
      exact ⟨⟨rfl,command,rfl,rfl⟩,fun _ => ⟨rfl,whole (not_not.mp full)⟩⟩

theorem chunkTaken {fuel : Nat} {r : Rp2040} {p : Bytes} (file : Bytes) (here : r.flash.disk.stage = some file)
    (room : r.s.buf.length < stageBufSize) (enough : p.length ≤ fuel) :
    Wrote r (takeChunk r fuel p).1 ∧
    ((takeChunk r fuel p).2 = true → (takeChunk r fuel p).1.s.buf.length < stageBufSize ∧
      ∃ file', (takeChunk r fuel p).1.flash.disk.stage = some file' ∧
        file' ++ (takeChunk r fuel p).1.s.buf = file ++ r.s.buf ++ p) := by
  induction fuel generalizing r p file with
  | zero =>
    have none_ : p = [] := List.length_eq_zero_iff.mp (Nat.le_zero.mp enough)
    subst none_
    exact ⟨⟨rfl,rfl,rfl,rfl⟩,fun _ => ⟨room,file,here,by simp [takeChunk]⟩⟩
  | succ fuel ih =>
    cases p with
    | nil => exact ⟨⟨rfl,rfl,rfl,rfl⟩,fun _ => ⟨room,file,here,by simp [takeChunk]⟩⟩
    | cons b rest =>
      let space := stageBufSize-r.s.buf.length
      let r' : Rp2040 := { r with s := { r.s with buf := r.s.buf ++ (b::rest).take space } }
      have positive : 0 < space := Nat.sub_pos_of_lt room
      have shorter : ((b::rest).drop space).length ≤ fuel := by
        rw [List.length_drop]; simp only [List.length_cons] at enough ⊢; omega
      have filled : r'.s.buf.length ≤ stageBufSize := by
        show (r.s.buf ++ (b::rest).take space).length ≤ _
        rw [List.length_append,List.length_take]; omega
      have moved : Wrote r r' := ⟨rfl,rfl,rfl,rfl⟩
      by_cases full : r'.s.buf.length = stageBufSize
      · have unfolded : takeChunk r (fuel+1) (b::rest) =
            if (flushStageBuf r').2 then takeChunk (flushStageBuf r').1 fuel ((b::rest).drop space)
            else ((flushStageBuf r').1,false) := if_pos full
        obtain ⟨kept,written⟩ := flushed (r := r') here
        rw [unfolded]
        by_cases done : (flushStageBuf r').2 = true
        · obtain ⟨empty,stage⟩ := written done
          obtain ⟨later,spec⟩ := ih _ stage (by rw [empty]; exact Nat.zero_lt_succ _) shorter
          rw [if_pos done]
          refine ⟨(moved.trans kept).trans later,fun ok => ?_⟩
          obtain ⟨small,file',stage',joined⟩ := spec ok
          refine ⟨small,file',stage',?_⟩
          rw [joined,empty,List.append_nil]
          show file ++ (r.s.buf ++ (b::rest).take space) ++ (b::rest).drop space = _
          simp only [List.append_assoc,List.take_append_drop]
        · rw [if_neg done]
          exact ⟨moved.trans kept,fun ok => absurd ok (by simp)⟩
      · have unfolded : takeChunk r (fuel+1) (b::rest) = takeChunk r' fuel ((b::rest).drop space) :=
          if_neg full
        obtain ⟨later,spec⟩ := ih (r := r') file here (Nat.lt_of_le_of_ne filled full) shorter
        rw [unfolded]
        refine ⟨moved.trans later,fun ok => ?_⟩
        obtain ⟨small,file',stage',joined⟩ := spec ok
        refine ⟨small,file',stage',?_⟩
        rw [joined]
        show file ++ (r.s.buf ++ (b::rest).take space) ++ (b::rest).drop space = _
        simp only [List.append_assoc,List.take_append_drop]

/-- Turned down: the session and the disk are as before. -/
structure Refused (r r' : Rp2040) : Prop where
  session : r'.s = { r.s with lastReqMs := r'.s.lastReqMs }
  disk : r'.flash.disk = r.flash.disk
  on : r'.on = r.on

/-- No session is left. -/
structure Dropped (r r' : Rp2040) : Prop where
  closed : r'.s.isOpen = false
  empty : r'.s.buf = []
  command : r'.flash.disk.command = r.flash.disk.command
  on : r'.on = r.on

structure Opened (r : Rp2040) (payload : Bytes) (r' : Rp2040) : Prop where
  isOpen : r'.s.isOpen = true
  imageLen : r'.s.imageLen = le32 payload 4
  sha : r'.s.sha = (payload.drop 8).take 32
  fresh : r'.s.received = 0 ∧ r'.s.buf = [] ∧ r'.s.accepted = []
  stage : r'.flash.disk.stage = some []
  command : r'.flash.disk.command = r.flash.disk.command
  on : r'.on = r.on

structure Taken (r : Rp2040) (payload : Bytes) (r' : Rp2040) : Prop where
  isOpen : r.s.isOpen = true ∧ r'.s.isOpen = true
  offset : le32 payload 0 = r.s.received
  fits : r.s.received+(payload.drop 4).length ≤ r.s.imageLen
  announced : r'.s.imageLen = r.s.imageLen ∧ r'.s.sha = r.s.sha
  received : r'.s.received = r.s.received+(payload.drop 4).length
  accepted : r'.s.accepted = r.s.accepted ++ [payload.drop 4]
  small : r'.s.buf.length < stageBufSize
  stored : ∀ file, r.flash.disk.stage = some file → ∃ file', r'.flash.disk.stage = some file' ∧
    file' ++ r'.s.buf = file ++ r.s.buf ++ payload.drop 4
  command : r'.flash.disk.command = r.flash.disk.command
  on : r'.on = r.on

/-- What a commit has made sure of before it arms the image. -/
structure Committed (r r' : Rp2040) : Prop where
  wasOpen : r.s.isOpen = true
  complete : r.s.received = r.s.imageLen
  image : r'.flash.disk.stage = some r.s.accepted.flatten
  length : r.s.accepted.flatten.length = r.s.imageLen
  digest : sha256 r.s.accepted.flatten = r.s.sha
  sane : saneImage r.s.accepted.flatten r.s.imageLen = true
  armed : r'.flash.disk.command = some (.copy .stage)
  closed : r'.s.isOpen = false
  empty : r'.s.buf = []

theorem badReqNe : xferBadReq ≠ xferOk := by decide
theorem seqMismatchNe : xferSeqMismatch ≠ xferOk := by decide
theorem flashErrNe : xferFlashErr ≠ xferOk := by decide
theorem verifyFailNe : xferVerifyFail ≠ xferOk := by decide

section Handlers
variable {r : Rp2040} {payload : Bytes} {env : Env}

theorem abortDropped (r : Rp2040) : Dropped r (sessionAbort r) := ⟨rfl,rfl,abortCommand,rfl⟩

theorem stageOpened {f : Flash} :
    ((f.openStage).2 = true → (f.openStage).1.disk.stage = some []) ∧
      (f.openStage).1.disk.command = f.disk.command := by
  unfold Flash.openStage
  split
  · rename_i g turned
    refine ⟨fun _ => rfl,?_⟩
    show g.disk.command = _
    rw [nextEq turned]
  · rename_i n g turned
    exact ⟨fun ok => absurd ok (by simp),by rw [nextEq turned]⟩

theorem beginCases (r : Rp2040) (payload : Bytes) (env : Env) :
    Refused r (fwUpdateHandleBegin r payload env).1 ∧ (fwUpdateHandleBegin r payload env).2 ≠ xferOk ∨
    Dropped r (fwUpdateHandleBegin r payload env).1 ∧ (fwUpdateHandleBegin r payload env).2 ≠ xferOk ∨
    Opened r payload (fwUpdateHandleBegin r payload env).1 ∧ (fwUpdateHandleBegin r payload env).2 = xferOk := by
  have same : Refused r r := ⟨rfl,rfl,rfl⟩
  unfold fwUpdateHandleBegin
  split
  · exact .inl ⟨same,badReqNe⟩
  split
  · exact .inl ⟨same,badReqNe⟩
  split
  · exact .inl ⟨same,badReqNe⟩
  dsimp only
  split
  · exact .inl ⟨same,badReqNe⟩
  split
  · exact .inl ⟨same,flashErrNe⟩
  split
  · exact .inr (.inl ⟨abortDropped r,flashErrNe⟩)
  obtain ⟨file,command⟩ := stageOpened (f := (sessionAbort r).flash)
  split
  · exact .inr (.inl ⟨⟨rfl,rfl,command.trans abortCommand,rfl⟩,flashErrNe⟩)
  · rename_i opened
    have done : (sessionAbort r).flash.openStage.2 = true := by simpa using opened
    exact .inr (.inr ⟨⟨rfl,rfl,rfl,⟨rfl,rfl,rfl⟩,file done,command.trans abortCommand,rfl⟩,rfl⟩)

theorem dataCases (staged : r.s.isOpen = true → Staged r) (small : r.s.buf.length < stageBufSize)
    (payload : Bytes) (env : Env) :
    Refused r (fwUpdateHandleData r payload env).1 ∧ (fwUpdateHandleData r payload env).2 ≠ xferOk ∨
    Dropped r (fwUpdateHandleData r payload env).1 ∧ (fwUpdateHandleData r payload env).2 ≠ xferOk ∨
    Taken r payload (fwUpdateHandleData r payload env).1 ∧ (fwUpdateHandleData r payload env).2 = xferOk := by
  have same : Refused r { r with s := { r.s with lastReqMs := env.now } } := ⟨rfl,rfl,rfl⟩
  unfold fwUpdateHandleData
  split
  · exact .inl ⟨⟨rfl,rfl,rfl⟩,badReqNe⟩
  rename_i opened
  have isOpen : r.s.isOpen = true := by simpa using opened
  obtain ⟨file,here,-⟩ := (staged isOpen).content
  dsimp only
  split
  · exact .inl ⟨same,badReqNe⟩
  split
  · exact .inl ⟨same,badReqNe⟩
  split
  · exact .inl ⟨same,seqMismatchNe⟩
  rename_i offset
  split
  · exact .inl ⟨same,badReqNe⟩
  rename_i fits
  have took := chunkTaken (r := { r with s := { r.s with lastReqMs := env.now } }) (p := payload.drop 4)
    file here small (Nat.le_refl _)
  obtain ⟨wrote,spec⟩ := took
  split
  · refine .inr (.inl ⟨⟨rfl,rfl,?_,wrote.on⟩,flashErrNe⟩)
    exact abortCommand.trans wrote.command
  · rename_i done
    obtain ⟨less,file',stage,joined⟩ := spec (by simpa using done)
    obtain ⟨openSame,lenSame,shaSame,receivedSame,acceptedSame⟩ := wrote.same
    refine .inr (.inr ⟨⟨⟨isOpen,?_⟩,not_not.mp offset,Nat.le_of_not_lt fits,⟨?_,?_⟩,?_,?_,less,?_,wrote.command,
      wrote.on⟩,rfl⟩)
    · exact openSame.trans isOpen
    · exact lenSame
    · exact shaSame
    · exact congrArg (·+(payload.drop 4).length) receivedSame
    · exact congrArg (· ++ [payload.drop 4]) acceptedSame
    · intro other there
      cases here.symm.trans there
      exact ⟨file',stage,joined⟩

theorem snapshotKeeps (r : Rp2040) : (snapshotRunningImage r).1.s = r.s ∧
    (snapshotRunningImage r).1.on = r.on ∧
    (snapshotRunningImage r).1.flash.disk.stage = r.flash.disk.stage ∧
    (snapshotRunningImage r).1.flash.disk.command = r.flash.disk.command := by
  unfold snapshotRunningImage
  split
  · exact ⟨rfl,rfl,rfl,rfl⟩
  split
  · rename_i n g turned
    refine ⟨rfl,rfl,?_,?_⟩
    · show g.disk.stage = _
      rw [nextEq turned]
    · show g.disk.command = _
      rw [nextEq turned]
  · rename_i g turned
    have same : (g.writeBlocks (Slices.slices stageBufSize r.running)).1.disk = r.flash.disk :=
      (blocksDisk _).trans (nextEq turned)
    dsimp only
    split
    · refine ⟨rfl,rfl,?_,?_⟩
      · show (g.writeBlocks (Slices.slices stageBufSize r.running)).1.disk.stage = _
        rw [same]
      · show (g.writeBlocks (Slices.slices stageBufSize r.running)).1.disk.command = _
        rw [same]
    · refine ⟨rfl,rfl,(removeStage (by decide)).trans ?_,(removeCommand (by decide)).trans ?_⟩
      · show (g.writeBlocks (Slices.slices stageBufSize r.running)).1.disk.stage = _
        rw [same]
      · show (g.writeBlocks (Slices.slices stageBufSize r.running)).1.disk.command = _
        rw [same]

theorem markerKeeps (r : Rp2040) : (writePendingMarker r).1.s = r.s ∧ (writePendingMarker r).1.on = r.on ∧
    (writePendingMarker r).1.flash.disk.stage = r.flash.disk.stage ∧
    (writePendingMarker r).1.flash.disk.command = r.flash.disk.command := by
  unfold writePendingMarker
  split
  · rename_i n g turned
    refine ⟨rfl,rfl,?_,?_⟩
    · show g.disk.stage = _
      rw [nextEq turned]
    · show g.disk.command = _
      rw [nextEq turned]
  · rename_i g turned
    split
    · rename_i h again
      have same := (nextEq again).trans (nextEq turned)
      refine ⟨rfl,rfl,?_,?_⟩
      · show h.disk.stage = _
        rw [same]
      · show h.disk.command = _
        rw [same]
    · rename_i n h again
      have same := (nextEq again).trans (nextEq turned)
      refine ⟨rfl,rfl,(removeStage (by decide)).trans ?_,(removeCommand (by decide)).trans ?_⟩
      · show h.disk.stage = _
        rw [same]
      · show h.disk.command = _
        rw [same]

/-- Arming a staged image: done, or nothing is armed and the stage file is given up. -/
theorem armCases (r : Rp2040) : (armStaged r).1.s = r.s ∧ (armStaged r).1.on = r.on ∧
    ((armStaged r).2 = (xferOk,true) ∧ (armStaged r).1.flash.disk.stage = r.flash.disk.stage ∧
      (armStaged r).1.flash.disk.command = some (.copy .stage) ∨
    (armStaged r).2 = (xferFlashErr,false) ∧ (armStaged r).1.flash.disk.command = r.flash.disk.command) := by
  obtain ⟨session,on,stage,command⟩ := snapshotKeeps r
  -- The snapshot and the marker, with the snapshot taken back where the marker fails.
  have prepared : ∃ p : Rp2040, p.s = r.s ∧ p.on = r.on ∧ p.flash.disk.stage = r.flash.disk.stage ∧
      p.flash.disk.command = r.flash.disk.command ∧ armStaged r =
        (if (p.flash.arm .stage).2 then ({ p with flash := (p.flash.arm .stage).1 },xferOk,true)
        else
          let q := cleanupPendingFiles { p with flash := (p.flash.arm .stage).1 }
          ({ q with flash := q.flash.remove .stage },xferFlashErr,false)) := by
    by_cases snapped : (snapshotRunningImage r).2 = true
    · obtain ⟨session',on',stage',command'⟩ := markerKeeps (snapshotRunningImage r).1
      by_cases marked : (writePendingMarker (snapshotRunningImage r).1).2 = true
      · refine ⟨(writePendingMarker (snapshotRunningImage r).1).1,session'.trans session,on'.trans on,
          stage'.trans stage,command'.trans command,?_⟩
        unfold armStaged; simp only [snapped,marked,if_true]
      · refine ⟨{ (writePendingMarker (snapshotRunningImage r).1).1 with
          flash := (writePendingMarker (snapshotRunningImage r).1).1.flash.remove .prev },session'.trans session,
          on'.trans on,(removeStage (by decide)).trans (stage'.trans stage),
          (removeCommand (by decide)).trans (command'.trans command),?_⟩
        unfold armStaged; simp only [snapped,marked,if_true]; rfl
    · refine ⟨(snapshotRunningImage r).1,session,on,stage,command,?_⟩
      unfold armStaged; simp only [snapped]; rfl
  obtain ⟨p,session,on,stage,command,moved⟩ := prepared
  rw [moved]
  by_cases done : (p.flash.arm .stage).2 = true
  · rw [if_pos done]
    exact ⟨session,on,.inl ⟨rfl,(armStage .stage).trans stage,armDone done⟩⟩
  · rw [if_neg done]
    refine ⟨cleanupSession.trans session,cleanupOn.trans on,.inr ⟨rfl,?_⟩⟩
    have kept := armFailed (by simpa using done)
    refine (removeCommand (by decide)).trans (cleanupCommand.trans ?_)
    show (p.flash.arm .stage).1.disk.command = _
    rw [kept,command]

theorem endCases (staged : r.s.isOpen = true → Staged r) (payload : Bytes) (env : Env) :
    (Refused r (fwUpdateHandleEnd r payload env).1 ∧ (fwUpdateHandleEnd r payload env).2.1 ≠ xferOk ∨
      Dropped r (fwUpdateHandleEnd r payload env).1 ∧
        ((fwUpdateHandleEnd r payload env).2.1 = xferOk → payload.getD 1 0 = 0)) ∧
      (fwUpdateHandleEnd r payload env).2.2 = false ∨
    Committed r (fwUpdateHandleEnd r payload env).1 ∧ (fwUpdateHandleEnd r payload env).1.on = r.on ∧
      payload.getD 1 0 ≠ 0 ∧ (fwUpdateHandleEnd r payload env).2 = (xferOk,true) := by
  have same : Refused r { r with s := { r.s with lastReqMs := env.now } } := ⟨rfl,rfl,rfl⟩
  unfold fwUpdateHandleEnd
  split
  · exact .inl ⟨.inl ⟨⟨rfl,rfl,rfl⟩,badReqNe⟩,rfl⟩
  rename_i opened
  have isOpen : r.s.isOpen = true := by simpa using opened
  have stagedNow := staged isOpen
  obtain ⟨file,here,joined⟩ := stagedNow.content
  dsimp only
  split
  · exact .inl ⟨.inl ⟨same,badReqNe⟩,rfl⟩
  split
  · exact .inl ⟨.inl ⟨same,badReqNe⟩,rfl⟩
  split
  · rename_i abort
    exact .inl ⟨.inr ⟨⟨rfl,rfl,abortCommand,rfl⟩,fun _ => abort⟩,rfl⟩
  rename_i commits
  split
  · exact .inl ⟨.inr ⟨⟨rfl,rfl,abortCommand,rfl⟩,fun ok => absurd ok badReqNe⟩,rfl⟩
  rename_i complete
  obtain ⟨wrote,spec⟩ := flushed (r := { r with s := { r.s with lastReqMs := env.now } }) here
  split
  · exact .inl ⟨.inr ⟨⟨rfl,rfl,abortCommand.trans wrote.command,wrote.on⟩,fun ok => absurd ok flashErrNe⟩,rfl⟩
  rename_i done
  obtain ⟨empty,stage⟩ := spec (by simpa using done)
  obtain ⟨-,lenSame,shaSame,receivedSame,acceptedSame⟩ := wrote.same
  have image : file ++ r.s.buf = r.s.accepted.flatten := joined
  split
  · exact .inl ⟨.inr ⟨⟨rfl,empty,(removeCommand (by decide)).trans wrote.command,wrote.on⟩,
      fun ok => absurd ok verifyFailNe⟩,rfl⟩
  rename_i digest
  split
  · exact .inl ⟨.inr ⟨⟨rfl,empty,(removeCommand (by decide)).trans wrote.command,wrote.on⟩,
      fun ok => absurd ok badReqNe⟩,rfl⟩
  rename_i sane
  have whole : (flushStageBuf { r with s := { r.s with lastReqMs := env.now } }).1.flash.disk.stage =
      some r.s.accepted.flatten := stage.trans (congrArg some image)
  simp only [verifyStageSha,whole,sliced (show 0 < stageBufSize by decide),Bool.not_eq_true',
    Bool.not_eq_false,beq_iff_eq] at digest
  simp only [sanityCheckImage,whole,Bool.not_eq_true',Bool.not_eq_false] at sane
  obtain ⟨session,on,armed⟩ := armCases { (flushStageBuf { r with s := { r.s with lastReqMs := env.now } }).1 with
    s := { (flushStageBuf { r with s := { r.s with lastReqMs := env.now } }).1.s with isOpen := false } }
  rcases armed with ⟨answer,stage',command⟩ | ⟨answer,command⟩
  · refine .inr ⟨⟨isOpen,not_not.mp complete,stage'.trans whole,?_,digest.trans shaSame,?_,command,?_,?_⟩,
      on.trans wrote.on,commits,answer⟩
    · rw [← stagedNow.received]; exact not_not.mp complete
    · rw [← lenSame]; exact sane
    · rw [session]
    · rw [session]; exact empty
  · refine .inl ⟨.inr ⟨⟨by rw [session],by rw [session]; exact empty,command.trans wrote.command,on.trans wrote.on⟩,
      fun ok => ?_⟩,by rw [answer]⟩
    rw [answer] at ok
    exact absurd ok flashErrNe

end Handlers
structure Good (r : Rp2040) : Prop where
  staged : r.s.isOpen = true → Staged r
  small : r.s.buf.length < stageBufSize
  disarmed : ¬ Armed r.flash.disk

theorem unarmed {d d' : Disk} (same : d'.command = d.command) (none_ : ¬ Armed d) : ¬ Armed d' := by
  rintro ⟨x,command⟩
  exact none_ ⟨x,same.symm.trans command⟩

section Steps
variable {r r' : Rp2040}

theorem closedGood (closed : r'.s.isOpen = false) (empty : r'.s.buf = []) (none_ : ¬ Armed r'.flash.disk) : Good r' :=
  ⟨fun opened => absurd (closed.symm.trans opened) (by simp),by rw [empty]; exact Nat.zero_lt_succ _,none_⟩

theorem refusedGood (g : Good r) (refused : Refused r r') : Good r' := by
  have session := refused.session
  refine ⟨fun opened => ?_,by rw [session]; exact g.small,by rw [refused.disk]; exact g.disarmed⟩
  have before := g.staged (by rw [session] at opened; exact opened)
  exact ⟨by rw [session,refused.disk]; exact before.content,by rw [session]; exact before.received,
    by rw [session]; exact before.bounded⟩

theorem droppedGood (g : Good r) (dropped : Dropped r r') : Good r' :=
  closedGood dropped.closed dropped.empty (unarmed dropped.command g.disarmed)

theorem openedGood {payload : Bytes} (g : Good r) (opened : Opened r payload r') : Good r' := by
  obtain ⟨received,empty,accepted⟩ := opened.fresh
  refine ⟨fun _ => ⟨⟨[],opened.stage,by rw [empty,accepted]; rfl⟩,by rw [received,accepted]; rfl,?_⟩,?_,
    unarmed opened.command g.disarmed⟩
  · rw [received]; exact Nat.zero_le _
  · rw [empty]; exact Nat.zero_lt_succ _

theorem takenGood {payload : Bytes} (g : Good r) (taken : Taken r payload r') : Good r' := by
  have before := g.staged taken.isOpen.1
  obtain ⟨file,stage,joined⟩ := before.content
  obtain ⟨file',stage',joined'⟩ := taken.stored file stage
  refine ⟨fun _ => ⟨⟨file',stage',?_⟩,?_,?_⟩,taken.small,unarmed taken.command g.disarmed⟩
  · rw [joined',joined,taken.accepted]; simp
  · rw [taken.received,before.received,taken.accepted]; simp
  · rw [taken.received,taken.announced.1]; exact taken.fits

theorem noteGood (g : Good r) : Good (fwUpdateNoteFrameOk r) := by
  refine ⟨fun opened => ?_,by rw [noteSession]; exact g.small,unarmed noteCommand g.disarmed⟩
  rw [noteSession] at opened
  have before := g.staged opened
  exact ⟨by rw [noteSession,noteStage opened]; exact before.content,by rw [noteSession]; exact before.received,
    by rw [noteSession]; exact before.bounded⟩

theorem tickGood (g : Good r) (now : UInt32) (on : (fwUpdateTick r now).on = true) : Good (fwUpdateTick r now) := by
  have idle : Good (if r.s.isOpen ∧ now-r.s.lastReqMs > fwXferIdleMs then sessionAbort r else r) := by
    split
    · exact droppedGood g (abortDropped r)
    · exact g
  revert on
  unfold fwUpdateTick
  dsimp only
  generalize (if r.s.isOpen ∧ now-r.s.lastReqMs > fwXferIdleMs then sessionAbort r else r) = q at idle ⊢
  split
  · by_cases stays : (restagePreviousAndReboot q).on = true
    · rw [if_pos stays]
      intro _
      refine ⟨fun opened => ?_,?_,unarmed (cleanupCommand.trans (restageArmed stays)) idle.disarmed⟩
      · have same : (cleanupPendingFiles { restagePreviousAndReboot q with pending := false }).s = q.s :=
          cleanupSession.trans restageSession
        rw [same] at opened
        have before := idle.staged opened
        have stage : (cleanupPendingFiles { restagePreviousAndReboot q with pending := false }).flash.disk.stage =
            q.flash.disk.stage :=
          (cleanupStage (by rw [restageSession]; exact opened)).trans restageStage
        exact ⟨by rw [same,stage]; exact before.content,by rw [same]; exact before.received,
          by rw [same]; exact before.bounded⟩
      · rw [cleanupSession]
        show (restagePreviousAndReboot q).s.buf.length < _
        rw [restageSession]; exact idle.small
    · rw [if_neg stays]
      exact fun on => absurd on stays
  · exact fun _ => idle

theorem requestGood (g : Good r) (on : r.on = true) (op : XferOp) (payload : Bytes) (env : Env) :
    Good (wupsOnRequest r op payload env).1 ∧ (wupsOnRequest r op payload env).1.on = true ∧
      (op = .commit → payload.getD 1 0 ≠ 0 → (wupsOnRequest r op payload env).2 ≠ xferOk) ∨
    op = .commit ∧ payload.getD 1 0 ≠ 0 ∧ (wupsOnRequest r op payload env).2 = xferOk ∧
      (wupsOnRequest r op payload env).1.on = false ∧
      Committed (fwUpdateNoteFrameOk r) (wupsOnRequest r op payload env).1 := by
  have noted := noteGood g
  have stays : (fwUpdateNoteFrameOk r).on = true := noteOn.trans on
  unfold wupsOnRequest
  cases op with
  | begin =>
    refine .inl ?_
    rcases beginCases (fwUpdateNoteFrameOk r) payload env with ⟨refused,-⟩ | ⟨dropped,-⟩ | ⟨opened,-⟩
    · exact ⟨refusedGood noted refused,refused.on.trans stays,fun other => absurd other (by simp)⟩
    · exact ⟨droppedGood noted dropped,dropped.on.trans stays,fun other => absurd other (by simp)⟩
    · exact ⟨openedGood noted opened,opened.on.trans stays,fun other => absurd other (by simp)⟩
  | data =>
    refine .inl ?_
    rcases dataCases noted.staged noted.small payload env with ⟨refused,-⟩ | ⟨dropped,-⟩ | ⟨taken,-⟩
    · exact ⟨refusedGood noted refused,refused.on.trans stays,fun other => absurd other (by simp)⟩
    · exact ⟨droppedGood noted dropped,dropped.on.trans stays,fun other => absurd other (by simp)⟩
    · exact ⟨takenGood noted taken,taken.on.trans stays,fun other => absurd other (by simp)⟩
  | commit =>
    dsimp only
    rcases endCases noted.staged payload env with ⟨turned,quiet⟩ | ⟨committed,-,commits,answer⟩
    · refine .inl ?_
      rw [quiet]
      rcases turned with ⟨refused,notOk⟩ | ⟨dropped,abort⟩
      · exact ⟨refusedGood noted refused,refused.on.trans stays,fun _ _ => notOk⟩
      · exact ⟨droppedGood noted dropped,dropped.on.trans stays,fun _ commits ok => commits (abort ok)⟩
    · refine .inr ⟨rfl,commits,by rw [answer],by rw [answer]; rfl,?_⟩
      rw [answer]
      exact ⟨committed.wasOpen,committed.complete,committed.image,committed.length,committed.digest,committed.sane,
        committed.armed,committed.closed,committed.empty⟩

theorem bumpCommand {f : Flash} : (bumpMarker f).1.disk.command = f.disk.command := by
  unfold bumpMarker
  split
  · rename_i n g turned; rw [nextEq turned]
  · rename_i g turned
    split
    · split
      · dsimp only
        split
        · rename_i h again
          show h.disk.command = _
          rw [nextEq again,nextEq turned]
        · rename_i n h again
          rw [nextEq again,nextEq turned]
      · rw [nextEq turned]
    · rw [nextEq turned]

theorem bootloaderSpent (r : Rp2040) : ¬ Armed (bootloader r).flash.disk := by
  unfold bootloader
  split
  · rintro ⟨x,command⟩
    exact absurd command (by simp [Flash.put])
  · rename_i other
    rintro ⟨x,command⟩
    exact other x command

theorem initGood (closed : r.s = .closed) (none_ : ¬ Armed r.flash.disk) (now : UInt32)
    (on : (fwUpdateBootInit r now).on = true) : Good (fwUpdateBootInit r now) := by
  have session : ∀ {q : Rp2040}, q.s = .closed → ¬ Armed q.flash.disk → Good q := fun same spent =>
    closedGood (by rw [same]; rfl) (by rw [same]; rfl) spent
  revert on
  unfold fwUpdateBootInit
  split
  · rename_i n g turned
    exact fun _ => session closed (by rw [nextEq turned]; exact none_)
  rename_i g turned
  have cleared : ¬ Armed (g.removeExisting .command).disk := by
    rcases removedExisting (f := g) .command with same | gone
    · rw [same,nextEq turned]; exact none_
    · rw [gone]; rintro ⟨x,command⟩; exact absurd command (by simp [Disk.without])
  dsimp only
  split
  · have bumped : ¬ Armed (bumpMarker (g.removeExisting .command)).1.disk := unarmed bumpCommand cleared
    split
    · split
      · split
        · rename_i stays
          exact fun _ => session (cleanupSession.trans (restageSession.trans closed))
            (unarmed (cleanupCommand.trans (restageArmed stays)) bumped)
        · rename_i off
          exact fun on => absurd on off
      · exact fun _ => session closed bumped
    · exact fun _ => session (cleanupSession.trans closed) (unarmed cleanupCommand bumped)
  · refine fun _ => session closed (unarmed ?_ cleared)
    rw [removeExistingCommand (by decide),removeExistingCommand (by decide)]

theorem initSession (r : Rp2040) (now : UInt32) : (fwUpdateBootInit r now).s = r.s := by
  unfold fwUpdateBootInit
  split
  · rfl
  dsimp only
  split
  · split
    · split
      · split
        · exact cleanupSession.trans restageSession
        · exact restageSession
      · rfl
    · exact cleanupSession
  · rfl

theorem tickSession (r : Rp2040) (now : UInt32) :
    (fwUpdateTick r now).s = r.s ∨ (fwUpdateTick r now).s.isOpen = false := by
  have idle : ∀ q : Rp2040, (if q.pending ∧ now-q.pendingBootMs > fwVerifyWindowMs then
      if (restagePreviousAndReboot q).on then
        cleanupPendingFiles { restagePreviousAndReboot q with pending := false }
      else restagePreviousAndReboot q
    else q).s = q.s := by
    intro q
    split
    · split
      · exact cleanupSession.trans restageSession
      · exact restageSession
    · rfl
  unfold fwUpdateTick
  dsimp only
  rw [idle]
  split
  · exact .inr rfl
  · exact .inl rfl

theorem readyGood (g : Good r) (env : Env) : Good (ready r env) :=
  ⟨fun opened => ⟨(g.staged opened).content,(g.staged opened).received,(g.staged opened).bounded⟩,g.small,g.disarmed⟩

theorem offStays {event : Event} {env : Env} (off : r.on = false) (other : event ≠ .boot) :
    step r (event,env) = (r,none) := by
  cases event with
  | boot => exact absurd rfl other
  | frame => simp only [step,off]
  | request op payload => simp only [step,off]
  | tick => simp only [step,off]
  | cut => simp only [step,off]

theorem stepGood (good : r.on = true → Good r) (input : Event × Env) (on : (step r input).1.on = true) :
    Good (step r input).1 := by
  obtain ⟨event,env⟩ := input
  have ready_ : r.on = true → Good (ready r env) := fun running => readyGood (good running) env
  cases running : r.on with
  | false =>
    cases event with
    | boot =>
      have moved : step r (.boot,env) = (boot (ready r env) env.now,none) := by simp only [step,running]
      rw [moved] at on ⊢
      exact initGood (r := { bootloader (ready r env) with on := true, s := .closed, pending := false })
        rfl (bootloaderSpent _) _ on
    | frame => rw [offStays running (by simp)] at on; exact absurd (running.symm.trans on) (by simp)
    | request op payload => rw [offStays running (by simp)] at on; exact absurd (running.symm.trans on) (by simp)
    | tick => rw [offStays running (by simp)] at on; exact absurd (running.symm.trans on) (by simp)
    | cut => rw [offStays running (by simp)] at on; exact absurd (running.symm.trans on) (by simp)
  | true =>
    cases event with
    | boot =>
      have moved : step r (.boot,env) = (r,none) := by simp only [step,running]
      rw [moved]; exact good running
    | frame =>
      have moved : step r (.frame,env) = (fwUpdateNoteFrameOk (ready r env),none) := by simp only [step,running]
      rw [moved]; exact noteGood (ready_ running)
    | request op payload =>
      have moved : step r (.request op payload,env) = ((wupsOnRequest (ready r env) op payload env).1,
          some (wupsOnRequest (ready r env) op payload env).2) := by simp only [step,running]
      rw [moved] at on ⊢
      rcases requestGood (ready_ running) running op payload env with ⟨kept,-⟩ | ⟨-,-,-,off,-⟩
      · exact kept
      · exact absurd (off.symm.trans on) (by simp)
    | tick =>
      have moved : step r (.tick,env) = (fwUpdateTick (ready r env) env.now,none) := by simp only [step,running]
      rw [moved] at on ⊢
      exact tickGood (ready_ running) _ on
    | cut =>
      have moved : step r (.cut,env) = (reboot r,none) := by simp only [step,running]
      rw [moved] at on; exact absurd on (by simp [reboot])

end Steps

/-! The transfer that the requests of a run make up, read off the requests and their answers alone. -/

structure Transfer where
  header : Bytes
  chunks : List Bytes
  deriving DecidableEq, Repr

/-- A BEGIN answered OK starts a transfer, and a DATA answered OK adds what follows its offset. -/
def heard (x : Option Transfer) : Event → Option UInt8 → Option Transfer
  | .request .begin payload, some result => if result = xferOk then some ⟨payload,[]⟩ else x
  | .request .data payload, some result =>
    if result = xferOk then x.map fun t => { t with chunks := t.chunks ++ [payload.drop 4] } else x
  | _, _ => x

def transferOf (trace : List ((Event × Env) × Option UInt8)) : Option Transfer :=
  trace.foldl (fun x said => heard x said.1.1 said.2) none

/-- The stage file and the RAM buffer hold the chunks of `x`, within the length that its BEGIN announced. -/
structure Holds (r : Rp2040) (x : Transfer) : Prop where
  content : ∃ file, r.flash.disk.stage = some file ∧ file ++ r.s.buf = x.chunks.flatten
  received : r.s.received = x.chunks.flatten.length
  imageLen : r.s.imageLen = le32 x.header 4
  bounded : r.s.received ≤ le32 x.header 4

/-- `x` is the image its BEGIN announced, staged whole and armed. -/
structure Verified (x : Transfer) (r : Rp2040) : Prop where
  complete : x.chunks.flatten.length = le32 x.header 4
  digest : sha256 x.chunks.flatten = (x.header.drop 8).take 32
  sane : saneImage x.chunks.flatten (le32 x.header 4) = true
  image : r.flash.disk.stage = some x.chunks.flatten
  armed : r.flash.disk.command = some (.copy .stage)

/-- The session of a board is that of the transfer `x`. -/
structure SessionOf (r : Rp2040) (x : Transfer) : Prop where
  imageLen : r.s.imageLen = le32 x.header 4
  sha : r.s.sha = (x.header.drop 8).take 32
  accepted : r.s.accepted = x.chunks

def Tracks (r : Rp2040) (x : Option Transfer) : Prop :=
  r.s.isOpen = true → ∃ t, x = some t ∧ SessionOf r t

section Tracking
variable {r r' : Rp2040} {x : Option Transfer} {t : Transfer}

theorem holdsTransfer (of : SessionOf r t) (staged : Staged r) : Holds r t :=
  ⟨by rw [← of.accepted]; exact staged.content,by rw [← of.accepted]; exact staged.received,of.imageLen,
    by rw [← of.imageLen]; exact staged.bounded⟩

theorem verifiedTransfer (of : SessionOf r t) (committed : Committed r r') : Verified t r' := by
  obtain ⟨imageLen,sha,accepted⟩ := of
  refine ⟨?_,?_,?_,?_,committed.armed⟩
  · rw [← accepted,← imageLen]; exact committed.length
  · rw [← accepted,← sha]; exact committed.digest
  · rw [← accepted,← imageLen]; exact committed.sane
  · rw [← accepted]; exact committed.image

theorem tracksSame (same : r'.s = { r.s with lastReqMs := r'.s.lastReqMs }) (tracks : Tracks r x) : Tracks r' x := by
  intro opened
  rw [same] at opened
  obtain ⟨t,here,imageLen,sha,accepted⟩ := tracks opened
  exact ⟨t,here,by rw [same]; exact imageLen,by rw [same]; exact sha,by rw [same]; exact accepted⟩

theorem tracksClosed (closed : r'.s.isOpen = false) : Tracks r' x :=
  fun opened => absurd (closed.symm.trans opened) (by simp)

theorem tracksKept (same : r'.s = r.s) (tracks : Tracks r x) : Tracks r' x :=
  tracksSame (by rw [same]) tracks

theorem tracksTaken {payload : Bytes} (taken : Taken r payload r') (tracks : Tracks r x) :
    Tracks r' (x.map fun t => { t with chunks := t.chunks ++ [payload.drop 4] }) := by
  intro _
  obtain ⟨t,here,imageLen,sha,accepted⟩ := tracks taken.isOpen.1
  refine ⟨{ t with chunks := t.chunks ++ [payload.drop 4] },by rw [here]; rfl,taken.announced.1.trans imageLen,
    taken.announced.2.trans sha,?_⟩
  rw [taken.accepted,accepted]

theorem requestTracks (g : Good r) (tracks : Tracks r x) (op : XferOp) (payload : Bytes) (env : Env) :
    Tracks (wupsOnRequest r op payload env).1
      (heard x (.request op payload) (some (wupsOnRequest r op payload env).2)) := by
  have noted := noteGood g
  have tracked : Tracks (fwUpdateNoteFrameOk r) x := tracksKept noteSession tracks
  unfold wupsOnRequest
  cases op with
  | begin =>
    dsimp only [heard]
    rcases beginCases (fwUpdateNoteFrameOk r) payload env with ⟨refused,no⟩ | ⟨dropped,no⟩ | ⟨opened,ok⟩
    · rw [if_neg no]; exact tracksSame refused.session tracked
    · rw [if_neg no]; exact tracksClosed dropped.closed
    · rw [if_pos ok]; exact fun _ => ⟨_,rfl,opened.imageLen,opened.sha,opened.fresh.2.2⟩
  | data =>
    dsimp only [heard]
    rcases dataCases noted.staged noted.small payload env with ⟨refused,no⟩ | ⟨dropped,no⟩ | ⟨taken,ok⟩
    · rw [if_neg no]; exact tracksSame refused.session tracked
    · rw [if_neg no]; exact tracksClosed dropped.closed
    · rw [if_pos ok]; exact tracksTaken taken tracked
  | commit =>
    dsimp only [heard]
    rcases endCases noted.staged payload env with ⟨⟨refused,-⟩ | ⟨dropped,-⟩,quiet⟩ | ⟨committed,-,-,answer⟩
    · rw [quiet]; exact tracksSame refused.session tracked
    · rw [quiet]; exact tracksClosed dropped.closed
    · rw [answer]; exact tracksClosed committed.closed

theorem stepTracks (good : r.on = true → Good r) (tracks : r.on = true → Tracks r x) (event : Event) (env : Env)
    (on : (step r (event,env)).1.on = true) :
    Tracks (step r (event,env)).1 (heard x event (step r (event,env)).2) := by
  cases running : r.on with
  | false =>
    cases event with
    | boot =>
      have moved : step r (.boot,env) = (boot (ready r env) env.now,none) := by simp only [step,running]
      rw [moved]
      exact tracksClosed (by unfold boot; rw [initSession]; rfl)
    | frame => rw [offStays running (by simp)] at on; exact absurd (running.symm.trans on) (by simp)
    | request op payload => rw [offStays running (by simp)] at on; exact absurd (running.symm.trans on) (by simp)
    | tick => rw [offStays running (by simp)] at on; exact absurd (running.symm.trans on) (by simp)
    | cut => rw [offStays running (by simp)] at on; exact absurd (running.symm.trans on) (by simp)
  | true =>
    have now_ : Tracks (ready r env) x := tracksKept (r := r) rfl (tracks running)
    cases event with
    | boot =>
      have moved : step r (.boot,env) = (r,none) := by simp only [step,running]
      rw [moved]; exact tracks running
    | frame =>
      have moved : step r (.frame,env) = (fwUpdateNoteFrameOk (ready r env),none) := by simp only [step,running]
      rw [moved]; exact tracksKept noteSession now_
    | request op payload =>
      have moved : step r (.request op payload,env) = ((wupsOnRequest (ready r env) op payload env).1,
          some (wupsOnRequest (ready r env) op payload env).2) := by simp only [step,running]
      rw [moved]
      exact requestTracks (readyGood (good running) env) now_ op payload env
    | tick =>
      have moved : step r (.tick,env) = (fwUpdateTick (ready r env) env.now,none) := by simp only [step,running]
      rw [moved]
      rcases tickSession (ready r env) env.now with same | closed
      · exact tracksKept same now_
      · exact tracksClosed closed
    | cut =>
      have moved : step r (.cut,env) = (reboot r,none) := by simp only [step,running]
      rw [moved] at on; exact absurd on (by simp [reboot])

end Tracking

section Runs
variable (disk : Disk) (running : Bytes) (inputs : List (Event × Env))

abbrev at' (n : Nat) : Rp2040 := stateAt step (.powerOff disk running) inputs n

/-- The request with this payload is answered `result` at `n`, and leaves the board in the next state. -/
def Answers (n : Nat) (op : XferOp) (payload : Bytes) (result : UInt8) : Prop :=
  ∃ env, inputs[n]? = some (.request op payload,env) ∧
    (outs step (.powerOff disk running) inputs)[n]? = some (some result)

/-- What the requests before `n` have transferred, by the answers they were given. -/
def transferAt (n : Nat) : Option Transfer :=
  transferOf ((inputs.zip (outs step (.powerOff disk running) inputs)).take n)

structure StagingSound : Prop where
  staged : ∀ n, (at' disk running inputs n).on = true → (at' disk running inputs n).s.isOpen = true →
    ∃ x, transferAt disk running inputs n = some x ∧ Holds (at' disk running inputs n) x
  opens : ∀ n payload, Answers disk running inputs n .begin payload xferOk →
    (at' disk running inputs (n+1)).s.isOpen = true
  takes : ∀ n payload, Answers disk running inputs n .data payload xferOk →
    (at' disk running inputs n).s.isOpen = true ∧ (at' disk running inputs (n+1)).s.isOpen = true ∧
      le32 payload 0 = (at' disk running inputs n).s.received
  small : ∀ n, (at' disk running inputs n).on = true → (at' disk running inputs n).s.buf.length < stageBufSize
  disarmed : ∀ n, (at' disk running inputs n).on = true → ¬ Armed (at' disk running inputs n).flash.disk
  commits : ∀ n payload, Answers disk running inputs n .commit payload xferOk → payload.getD 1 0 ≠ 0 →
    Committed (at' disk running inputs n) (at' disk running inputs (n+1)) ∧
      ∃ x, transferAt disk running inputs n = some x ∧ Verified x (at' disk running inputs (n+1))
  reboots : ∀ n op payload result, Answers disk running inputs n op payload result →
    (at' disk running inputs (n+1)).on = false → op = .commit ∧ payload.getD 1 0 ≠ 0 ∧ result = xferOk

end Runs

theorem goodAt (disk : Disk) (running : Bytes) (inputs : List (Event × Env)) (n : Nat)
    (on : (at' disk running inputs n).on = true) : Good (at' disk running inputs n) := by
  induction n with
  | zero => exact absurd on (by simp [stateAt,Rp2040.powerOff])
  | succ n ih =>
    cases here : inputs[n]? with
    | none =>
      have stays : at' disk running inputs (n+1) = at' disk running inputs n := stateEnd step _ here
      rw [stays] at on ⊢
      exact ih on
    | some input =>
      have moved : at' disk running inputs (n+1) = (step (at' disk running inputs n) input).1 := stateNext step _ here
      rw [moved] at on ⊢
      exact stepGood ih input on

section Traces
variable {disk : Disk} {running : Bytes} {inputs : List (Event × Env)} {n : Nat}

theorem transferNext {event : Event} {env : Env} (here : inputs[n]? = some (event,env)) :
    transferAt disk running inputs (n+1) =
      heard (transferAt disk running inputs n) event (step (at' disk running inputs n) (event,env)).2 := by
  have said : (inputs.zip (outs step (.powerOff disk running) inputs))[n]? =
      some ((event,env),(step (at' disk running inputs n) (event,env)).2) :=
    List.getElem?_zip_eq_some.mpr ⟨here,by rw [outAt,here]; rfl⟩
  unfold transferAt transferOf
  rw [List.take_add_one,said,List.foldl_append]
  rfl

theorem transferEnd (past : inputs[n]? = none) :
    transferAt disk running inputs (n+1) = transferAt disk running inputs n := by
  have short : (inputs.zip (outs step (.powerOff disk running) inputs)).length ≤ n := by
    rw [List.length_zip,outsLength,Nat.min_self]; exact List.getElem?_eq_none_iff.mp past
  unfold transferAt
  rw [List.take_of_length_le short,List.take_of_length_le (Nat.le_succ_of_le short)]

theorem tracksAt (n : Nat) (on : (at' disk running inputs n).on = true) :
    Tracks (at' disk running inputs n) (transferAt disk running inputs n) := by
  induction n with
  | zero => exact absurd on (by simp [stateAt,Rp2040.powerOff])
  | succ n ih =>
    cases here : inputs[n]? with
    | none =>
      have stays : at' disk running inputs (n+1) = at' disk running inputs n := stateEnd step _ here
      rw [stays] at on ⊢
      rw [transferEnd here]
      exact ih on
    | some input =>
      have moved : at' disk running inputs (n+1) = (step (at' disk running inputs n) input).1 := stateNext step _ here
      rw [moved] at on ⊢
      rw [transferNext here]
      exact stepTracks (goodAt disk running inputs n) ih input.1 input.2 on

end Traces

/-- A request is answered only by a board that runs, and as `wups_on_local_frame` answers it. -/
theorem answered {disk : Disk} {running : Bytes} {inputs : List (Event × Env)} {n : Nat} {op : XferOp}
    {payload : Bytes} {result : UInt8} (answers : Answers disk running inputs n op payload result) :
    ∃ env, (at' disk running inputs n).on = true ∧
      at' disk running inputs (n+1) = (wupsOnRequest (ready (at' disk running inputs n) env) op payload env).1 ∧
      result = (wupsOnRequest (ready (at' disk running inputs n) env) op payload env).2 := by
  obtain ⟨env,here,out⟩ := answers
  have moved : at' disk running inputs (n+1) = (step (at' disk running inputs n) (.request op payload,env)).1 :=
    stateNext step _ here
  have said := outStep step _ here out
  cases on : (at' disk running inputs n).on with
  | false =>
    have still : step (at' disk running inputs n) (.request op payload,env) = (at' disk running inputs n,none) := by
      simp only [step,on]
    rw [still] at said
    exact absurd said (by simp)
  | true =>
    have done : step (at' disk running inputs n) (.request op payload,env) =
        ((wupsOnRequest (ready (at' disk running inputs n) env) op payload env).1,
          some (wupsOnRequest (ready (at' disk running inputs n) env) op payload env).2) := by simp only [step,on]
    rw [done] at said moved
    exact ⟨env,rfl,moved,Option.some.inj said⟩

theorem stagingSound (disk : Disk) (running : Bytes) (inputs : List (Event × Env)) :
    StagingSound disk running inputs := by
  have request : ∀ {n op payload result}, Answers disk running inputs n op payload result →
      ((at' disk running inputs (n+1)).on = true ∧ (op = .commit → payload.getD 1 0 ≠ 0 → result ≠ xferOk)) ∨
      op = .commit ∧ payload.getD 1 0 ≠ 0 ∧ result = xferOk ∧
        Committed (at' disk running inputs n) (at' disk running inputs (n+1)) := by
    intro n op payload result answers
    obtain ⟨env,on,moved,said⟩ := answered answers
    have good := goodAt disk running inputs n on
    have ready_ := readyGood good env
    rw [moved,said]
    rcases requestGood ready_ on op payload env with ⟨-,stays,refused⟩ | ⟨commit,flag,ok,-,committed⟩
    · exact .inl ⟨stays,refused⟩
    · have same : (fwUpdateNoteFrameOk (ready (at' disk running inputs n) env)).s = (at' disk running inputs n).s :=
        noteSession
      refine .inr ⟨commit,flag,ok,?_⟩
      have all := committed
      exact ⟨same ▸ all.wasOpen,same ▸ all.complete,same ▸ all.image,same ▸ all.length,same ▸ all.digest,
        same ▸ all.sane,all.armed,all.closed,all.empty⟩
  have opening : ∀ {n payload}, Answers disk running inputs n .begin payload xferOk →
      (at' disk running inputs (n+1)).s.isOpen = true := by
    intro n payload answers
    obtain ⟨env,-,moved,said⟩ := answered answers
    rw [moved]
    rcases beginCases (fwUpdateNoteFrameOk (ready (at' disk running inputs n) env)) payload env with
      ⟨-,no⟩ | ⟨-,no⟩ | ⟨opened,-⟩
    · exact absurd said.symm no
    · exact absurd said.symm no
    · exact opened.isOpen
  have taking : ∀ {n payload}, Answers disk running inputs n .data payload xferOk →
      ∃ q, q.s = (at' disk running inputs n).s ∧ Taken q payload (at' disk running inputs (n+1)) := by
    intro n payload answers
    obtain ⟨env,on,moved,said⟩ := answered answers
    have noted := noteGood (readyGood (goodAt disk running inputs n on) env)
    rw [moved]
    rcases dataCases noted.staged noted.small payload env with ⟨-,no⟩ | ⟨-,no⟩ | ⟨taken,-⟩
    · exact absurd said.symm no
    · exact absurd said.symm no
    · exact ⟨fwUpdateNoteFrameOk (ready (at' disk running inputs n) env),noteSession,taken⟩
  refine ⟨fun n on opened => ?_,fun n payload answers => opening answers,fun n payload answers => ?_,
    fun n on => (goodAt disk running inputs n on).small,fun n on => (goodAt disk running inputs n on).disarmed,
    fun n payload answers flag => ?_,fun n op payload result answers off => ?_⟩
  · obtain ⟨x,here,of⟩ := tracksAt n on opened
    exact ⟨x,here,holdsTransfer of ((goodAt disk running inputs n on).staged opened)⟩
  · obtain ⟨q,same,taken⟩ := taking answers
    exact ⟨same ▸ taken.isOpen.1,taken.isOpen.2,same ▸ taken.offset⟩
  · rcases request answers with ⟨-,refused⟩ | ⟨-,-,-,committed⟩
    · exact absurd rfl (refused rfl flag)
    · obtain ⟨_,on,-,-⟩ := answered answers
      obtain ⟨x,here,of⟩ := tracksAt n on committed.wasOpen
      exact ⟨committed,x,here,verifiedTransfer of committed⟩
  · rcases request answers with ⟨stays,-⟩ | ⟨commit,flag,ok,-⟩
    · exact absurd (off.symm.trans stays) (by simp)
    · exact ⟨commit,flag,ok⟩

end Web3PiUps.FwStaging
