import Web3PiUps.FwStaging
import Web3PiUps.FwRollback

/-! What one step of the rollback machine does to the marker, the snapshot and the armed
command, whether it ends or is cut after some file step. -/
namespace Web3PiUps.FwRollback
open WupsProtocol
open FwUpdate hiding step

/-- Every disk of the flash since the call began has `P`. -/
structure Clean (P : Disk → Prop) (f : Flash) : Prop where
  faults : f.faults = []
  trail : ∀ d ∈ f.trail, P d
  disk : P f.disk

def StageFree (P : Disk → Prop) : Prop := ∀ d stage, P d → P { d with stage := stage }

section Flash
variable {P Q : Disk → Prop} {f : Flash}

theorem fresh {d : Disk} (here : P d) : Clean P ⟨d,[],[]⟩ := ⟨rfl,nofun,here⟩

theorem firstPut {d d' : Disk} (here : P d') : Clean P (Flash.put ⟨d,[],[]⟩ d') :=
  ⟨rfl,fun x inside => by cases List.mem_singleton.mp inside; exact here,here⟩

theorem Clean.mono (c : Clean P f) (weaker : ∀ d, P d → Q d) : Clean Q f :=
  ⟨c.faults,fun d inside => weaker d (c.trail d inside),weaker _ c.disk⟩

theorem Clean.put (c : Clean P f) {d : Disk} (here : P d) : Clean P (f.put d) := by
  refine ⟨c.faults,fun x inside => ?_,here⟩
  rcases List.mem_append.mp inside with old | new
  · exact c.trail x old
  · cases List.mem_singleton.mp new; exact here

theorem works (none_ : f.faults = []) : f.next = (none,f) := by
  unfold Flash.next; rw [none_]

theorem removes (none_ : f.faults = []) (x : File) : f.remove x = f.put (f.disk.without x) := by
  unfold Flash.remove; rw [works none_]

theorem arms (none_ : f.faults = []) (x : File) :
    f.arm x = (f.put { f.disk with command := some (.copy x) },true) := by
  unfold Flash.arm; simp only [works none_]

theorem writesBlocks (none_ : f.faults = []) (blocks : List Bytes) :
    f.writeBlocks blocks = (f,blocks.flatten,true) := by
  induction blocks with
  | nil => rfl
  | cons b rest ih =>
    unfold Flash.writeBlocks
    rw [works none_]
    dsimp only
    rw [ih]
    rfl

theorem withoutAbsent {d : Disk} {x : File} (absent : d.has x = false) : d.without x = d := by
  obtain ⟨stage,prev,pending,command⟩ := d
  cases x <;> simp only [Disk.has,Option.isSome_eq_false_iff,Option.isNone_iff_eq_none] at absent <;> subst absent <;> rfl

theorem Clean.remove (c : Clean P f) {x : File} (gone : P (f.disk.without x)) :
    Clean P (f.remove x) := by
  rw [removes c.faults]; exact c.put gone

theorem Clean.removeExisting (c : Clean P f) {x : File} (gone : P (f.disk.without x)) :
    Clean P (f.removeExisting x) := by
  unfold Flash.removeExisting
  split
  · exact c.remove gone
  · exact c

theorem removedDisk (none_ : f.faults = []) (x : File) : (f.removeExisting x).disk = f.disk.without x := by
  unfold Flash.removeExisting
  split
  · rw [removes none_]; rfl
  · rename_i absent
    exact (withoutAbsent (by simpa using absent)).symm

theorem Clean.writeStage (c : Clean P f) (free : StageFree P) (data : Bytes) :
    Clean P (f.writeStage data).1 ∧ (f.writeStage data).2 = data.length := by
  unfold Flash.writeStage
  rw [works c.faults]
  exact ⟨c.put (free _ _ c.disk),rfl⟩

theorem Clean.openStage (c : Clean P f) (free : StageFree P) :
    Clean P f.openStage.1 ∧ f.openStage.2 = true := by
  unfold Flash.openStage
  rw [works c.faults]
  exact ⟨c.put (free _ _ c.disk),rfl⟩

end Flash

/-! The handlers of a session touch the stage file only. -/

structure Aside (P : Disk → Prop) (r r' : Rp2040) : Prop where
  clean : Clean P r'.flash
  rest : r' = { r with flash := r'.flash, s := r'.s }

section Session
variable {P : Disk → Prop} {r r' r'' : Rp2040}

theorem Aside.trans (a : Aside P r r') (b : Aside P r' r'') : Aside P r r'' :=
  ⟨b.clean,by rw [b.rest,a.rest]⟩

theorem Aside.same (a : Aside P r r') : r'.on = r.on ∧ r'.fsOk = r.fsOk ∧ r'.pending = r.pending ∧
    r'.pendingBootMs = r.pendingBootMs ∧ r'.running = r.running := by
  rw [a.rest]; exact ⟨rfl,rfl,rfl,rfl,rfl⟩

theorem abortAside (c : Clean P r.flash) (free : StageFree P) : Aside P r (sessionAbort r) := by
  refine ⟨?_,rfl⟩
  unfold sessionAbort
  dsimp only
  split
  · exact c.removeExisting (free _ none c.disk)
  · exact c

theorem flushAside (c : Clean P r.flash) (free : StageFree P) : Aside P r (flushStageBuf r).1 := by
  unfold flushStageBuf
  split
  · exact ⟨c,rfl⟩
  · dsimp only
    split <;> exact ⟨(c.writeStage free _).1,rfl⟩

theorem chunkAside (c : Clean P r.flash) (free : StageFree P) (fuel : Nat) (p : Bytes) :
    Aside P r (takeChunk r fuel p).1 := by
  induction fuel generalizing r p with
  | zero => exact ⟨c,rfl⟩
  | succ fuel ih =>
    cases p with
    | nil => exact ⟨c,rfl⟩
    | cons b rest =>
      let r' : Rp2040 := { r with s := { r.s with buf := r.s.buf ++ (b::rest).take (stageBufSize-r.s.buf.length) } }
      have moved : Aside P r r' := ⟨c,rfl⟩
      have flushed := flushAside (r := r') c free
      unfold takeChunk
      dsimp only
      split
      · split
        · exact (moved.trans flushed).trans (ih flushed.clean _)
        · exact moved.trans flushed
      · exact moved.trans (ih (r := r') c _)

theorem beginAside (c : Clean P r.flash) (free : StageFree P) (payload : Bytes) (env : Env) :
    Aside P r (fwUpdateHandleBegin r payload env).1 := by
  have same : Aside P r r := ⟨c,rfl⟩
  have dropped := abortAside c free
  unfold fwUpdateHandleBegin
  split
  · exact same
  split
  · exact same
  split
  · exact same
  dsimp only
  split
  · exact same
  split
  · exact same
  split
  · exact dropped
  have opened := (dropped.clean.openStage free).1
  split
  · exact dropped.trans ⟨opened,rfl⟩
  · exact dropped.trans ⟨opened,rfl⟩

theorem dataAside (c : Clean P r.flash) (free : StageFree P) (payload : Bytes) (env : Env) :
    Aside P r (fwUpdateHandleData r payload env).1 := by
  have touched : Aside P r { r with s := { r.s with lastReqMs := env.now } } := ⟨c,rfl⟩
  unfold fwUpdateHandleData
  split
  · exact ⟨c,rfl⟩
  dsimp only
  split
  · exact touched
  split
  · exact touched
  split
  · exact touched
  split
  · exact touched
  have took := touched.trans (chunkAside (r := { r with s := { r.s with lastReqMs := env.now } })
    c free (payload.drop 4).length (payload.drop 4))
  split
  · exact took.trans (abortAside took.clean free)
  · exact took.trans ⟨took.clean,rfl⟩

end Session

/-- An update over `image` is pending, after `boots` boots. -/
def Marked (image : Bytes) (boots : UInt32) (d : Disk) : Prop :=
  d.pending = some (some ⟨fwPendingMagic,boots⟩) ∧ d.prev = some image

def Committing (image : Bytes) (d : Disk) : Prop :=
  d.command ≠ some (.copy .prev) ∧ (d.pending = none ∨ Marked image 0 d)

def withPrevArmed (d : Disk) : Disk := { d with command := some (.copy .prev) }

def rolledBack (f : Flash) : Flash :=
  (f.put (withPrevArmed f.disk)).put ((withPrevArmed f.disk).without .pending)

section Calls
variable {P : Disk → Prop} {r : Rp2040}

theorem restages (none_ : r.flash.faults = []) (fsOk : r.fsOk = true) (there : r.flash.disk.has .prev = true) :
    restagePreviousAndReboot r = reboot { r with flash := rolledBack r.flash } := by
  have armed : r.flash.arm .prev = (r.flash.put (withPrevArmed r.flash.disk),true) := arms none_ .prev
  have gone : (r.flash.put (withPrevArmed r.flash.disk)).remove .pending =
      (r.flash.put (withPrevArmed r.flash.disk)).put ((withPrevArmed r.flash.disk).without .pending) :=
    removes (f := r.flash.put (withPrevArmed r.flash.disk)) none_ .pending
  unfold restagePreviousAndReboot
  rw [fsOk,there]
  simp only [Bool.not_true,Bool.or_self,Bool.false_eq_true,if_false,armed,gone,if_true]
  rfl

theorem armsStaged {image : Bytes} (c : Clean P r.flash) (running : r.running = image)
    (weaker : ∀ d, P d → d.command ≠ some (.copy .prev) ∧ d.pending = none) :
    (armStaged r).2 = (xferOk,true) ∧ Clean (Committing image) (armStaged r).1.flash ∧
    (armStaged r).1 = { r with flash := (armStaged r).1.flash } ∧
    (fwImageMinLen ≤ image.length → image.length ≤ fwImageMaxLen → Marked image 0 (armStaged r).1.flash.disk) := by
  subst running
  have start : Clean (Committing r.running) r.flash :=
    c.mono (fun d here => ⟨(weaker d here).1,.inl (weaker d here).2⟩)
  obtain ⟨quiet,empty⟩ := weaker _ c.disk
  by_cases short : r.running.length < fwImageMinLen ∨ r.running.length > fwImageMaxLen
  · have none_ : snapshotRunningImage r = (r,false) := if_pos short
    have armed : r.flash.arm .stage = (r.flash.put { r.flash.disk with command := some (.copy .stage) },true) :=
      arms c.faults .stage
    unfold armStaged
    simp only [none_,Bool.false_eq_true,if_false,armed,if_true]
    exact ⟨trivial,start.put ⟨by simp,.inl empty⟩,trivial,fun low high => by omega⟩
  · let snap : Disk := { r.flash.disk with prev := some r.running }
    let mark : Disk := { snap with pending := some (some ⟨fwPendingMagic,0⟩) }
    have snapped : snapshotRunningImage r = ({ r with flash := r.flash.put snap },true) := by
      unfold snapshotRunningImage
      rw [if_neg short,works c.faults]
      simp only [writesBlocks c.faults,Slices.slicesFlatten (show 0 < stageBufSize by decide),if_true]
      rfl
    have marked : writePendingMarker { r with flash := r.flash.put snap } =
        ({ r with flash := (r.flash.put snap).put mark },true) := by
      unfold writePendingMarker
      simp only [works (f := r.flash.put snap) c.faults]
      rfl
    have armed : ((r.flash.put snap).put mark).arm .stage =
        (((r.flash.put snap).put mark).put { mark with command := some (.copy .stage) },true) :=
      arms (f := (r.flash.put snap).put mark) c.faults .stage
    unfold armStaged
    simp only [snapped,marked,if_true,armed]
    refine ⟨trivial,((start.put ?_).put ?_).put ?_,trivial,fun _ _ => ⟨rfl,rfl⟩⟩
    · exact ⟨quiet,.inl empty⟩
    · exact ⟨quiet,.inr ⟨rfl,rfl⟩⟩
    · exact ⟨by simp,.inr ⟨rfl,rfl⟩⟩

theorem endCommits (c : Clean P r.flash) (free : StageFree P)
    (weaker : ∀ d, P d → d.command ≠ some (.copy .prev) ∧ d.pending = none) (payload : Bytes) (env : Env) :
    Aside P r (fwUpdateHandleEnd r payload env).1 ∧ (fwUpdateHandleEnd r payload env).2.2 = false ∨
    (fwUpdateHandleEnd r payload env).2.2 = true ∧
      Clean (Committing r.running) (fwUpdateHandleEnd r payload env).1.flash := by
  have touched : Aside P r { r with s := { r.s with lastReqMs := env.now } } := ⟨c,rfl⟩
  unfold fwUpdateHandleEnd
  split
  · exact .inl ⟨⟨c,rfl⟩,rfl⟩
  dsimp only
  split
  · exact .inl ⟨touched,rfl⟩
  split
  · exact .inl ⟨touched,rfl⟩
  have dropped := touched.trans (abortAside touched.clean free)
  split
  · exact .inl ⟨dropped,rfl⟩
  split
  · exact .inl ⟨dropped,rfl⟩
  have flushed := touched.trans (flushAside touched.clean free)
  split
  · exact .inl ⟨flushed.trans (abortAside flushed.clean free),rfl⟩
  have gone := flushed.clean.remove (x := .stage) (free _ none flushed.clean.disk)
  split
  · exact .inl ⟨flushed.trans ⟨gone,rfl⟩,rfl⟩
  split
  · exact .inl ⟨flushed.trans ⟨gone,rfl⟩,rfl⟩
  obtain ⟨answer,committing,-,-⟩ := armsStaged (r := { (flushStageBuf { r with s := { r.s with lastReqMs := env.now } }).1 with
    s := { (flushStageBuf { r with s := { r.s with lastReqMs := env.now } }).1.s with isOpen := false } })
    flushed.clean flushed.same.2.2.2.2 weaker
  exact .inr ⟨by rw [answer],committing⟩

end Calls

/-! A whole call, and one cut after some of its file steps. -/

structure Running (r : Rp2040) : Prop where
  fsOk : r.on = true → r.fsOk = true
  flag : r.on = true → r.pending = r.flash.disk.pending.isSome
  unarmed : r.on = true → ¬ FwStaging.Armed r.flash.disk

section Ends
variable {P : Disk → Prop} {r : Rp2040} {i : Input}

theorem offRunning (off : r.on = false) : Running r :=
  ⟨fun on => absurd (off.symm.trans on) (by simp),fun on => absurd (off.symm.trans on) (by simp),
    fun on => absurd (off.symm.trans on) (by simp)⟩

theorem stepRunning (after : Running (whole r i.event i.env)) : Running (step r i).1 := by
  cases i with
  | run event env => exact after
  | cutIn event env position => exact offRunning rfl

theorem stepWhole (uncut : i.isCut = false) : (step r i).1 = whole r i.event i.env := by
  cases i with
  | run event env => rfl
  | cutIn event env position => exact absurd uncut (by simp [Input.isCut])

theorem stagesNone {trail : List Disk} (quiet : ∀ d ∈ trail, d.command ≠ some (.copy .prev)) :
    stages trail = false := by
  refine List.any_eq_false.mpr fun d inside => ?_
  simpa using quiet d inside

theorem stagesOne {trail : List Disk} {d : Disk} (inside : withPrevArmed d ∈ trail) : stages trail = true :=
  List.any_eq_true.mpr ⟨withPrevArmed d,inside,by simp [withPrevArmed]⟩

theorem quietEnds (quiet : ∀ d, P d → d.command ≠ some (.copy .prev)) (c : Clean P (whole r i.event i.env).flash) :
    P (step r i).1.flash.disk ∧ (step r i).2 = false := by
  cases i with
  | run event env => exact ⟨c.disk,stagesNone (fun d inside => quiet d (c.trail d inside))⟩
  | cutIn event env position =>
    refine ⟨?_,stagesNone (fun d inside => quiet d (c.trail d (List.mem_of_mem_take inside)))⟩
    show P (((whole r event env).flash.trail[position]?).getD (whole r event env).flash.disk)
    cases here : (whole r event env).flash.trail[position]? with
    | none => exact c.disk
    | some d => exact c.trail d (List.mem_of_getElem? here)

theorem idleEnds (none_ : (whole r i.event i.env).flash.trail = []) :
    (step r i).1.flash.disk = (whole r i.event i.env).flash.disk ∧ (step r i).2 = false := by
  cases i with
  | run event env =>
    refine ⟨rfl,?_⟩
    show stages (whole r event env).flash.trail = false
    rw [show (whole r event env).flash.trail = [] from none_]
    rfl
  | cutIn event env position =>
    have there : (step r (.cutIn event env position)).1.flash.disk =
        (((whole r event env).flash.trail)[position]?).getD (whole r event env).flash.disk := rfl
    have out : (step r (.cutIn event env position)).2 =
        stages ((whole r event env).flash.trail.take (position+1)) := rfl
    rw [there,out,show (whole r event env).flash.trail = [] from none_]
    exact ⟨rfl,rfl⟩

theorem rolledEnds (quiet : ∀ d, P d → d.command ≠ some (.copy .prev)) {f : Flash} (c : Clean P f)
    (last : (whole r i.event i.env).flash = rolledBack f) :
    i.isCut = true ∧ P (step r i).1.flash.disk ∧ (step r i).2 = false ∨
    (step r i).2 = true ∧ ((step r i).1.flash.disk = (withPrevArmed f.disk).without .pending ∨
      i.isCut = true ∧ (step r i).1.flash.disk = withPrevArmed f.disk) := by
  have trail : (whole r i.event i.env).flash.trail =
      f.trail ++ [withPrevArmed f.disk,(withPrevArmed f.disk).without .pending] := by
    rw [last]; exact List.append_assoc ..
  have disk : (whole r i.event i.env).flash.disk = (withPrevArmed f.disk).without .pending := by rw [last]; rfl
  cases i with
  | run event env =>
    dsimp only [Input.event,Input.env] at trail
    refine .inr ⟨?_,.inl disk⟩
    show stages (whole r event env).flash.trail = true
    exact stagesOne (d := f.disk) (by rw [trail]; simp)
  | cutIn event env position =>
    dsimp only [Input.event,Input.env] at trail disk
    have there : (step r (.cutIn event env position)).1.flash.disk =
        (((whole r event env).flash.trail)[position]?).getD (whole r event env).flash.disk := rfl
    have out : (step r (.cutIn event env position)).2 =
        stages ((whole r event env).flash.trail.take (position+1)) := rfl
    rw [there,out,trail,disk]
    rcases lt_trichotomy position f.trail.length with before | at_ | after
    · refine .inl ⟨rfl,?_,stagesNone fun d inside => quiet d (c.trail d ?_)⟩
      · rw [List.getElem?_append_left before,List.getElem?_eq_getElem before]
        exact c.trail _ (List.getElem_mem before)
      · rw [List.take_append_of_le_length before] at inside
        exact List.mem_of_mem_take inside
    · subst at_
      refine .inr ⟨stagesOne (d := f.disk) ?_,.inr ⟨rfl,?_⟩⟩
      · rw [List.take_append]
        simp
      · rw [List.getElem?_append_right (Nat.le_refl _),Nat.sub_self]
        rfl
    · obtain ⟨past,rfl⟩ := Nat.exists_eq_add_of_lt after
      refine .inr ⟨stagesOne (d := f.disk) ?_,.inl ?_⟩
      · rw [List.take_of_length_le (by simp)]; simp
      · rw [List.getElem?_append_right (by omega)]
        cases past with
        | zero => rw [show f.trail.length+0+1-f.trail.length = 1 by omega]; rfl
        | succ past => rw [show f.trail.length+(past+1)+1-f.trail.length = past+2 by omega]; rfl

end Ends

section Calls
variable {r : Rp2040} {event : Event} {env : Env}

theorem wholeBoot (off : r.on = false) : whole r .boot env = boot (ready r (calm env)) env.now := by
  have still : (ready r (calm env)).on = false := off
  simp only [whole,FwUpdate.step,still]
  rfl

theorem wholeOff (off : r.on = false) (other : event ≠ .boot) : whole r event env = ready r (calm env) :=
  congrArg Prod.fst (FwStaging.offStays (r := ready r (calm env)) off other)

theorem wholeFrame (on : r.on = true) : whole r .frame env = fwUpdateNoteFrameOk (ready r (calm env)) := by
  have still : (ready r (calm env)).on = true := on
  simp only [whole,FwUpdate.step,still]
  rfl

theorem wholeRequest {op : XferOp} {payload : Bytes} (on : r.on = true) : whole r (.request op payload) env =
    (wupsOnRequest (ready r (calm env)) op payload (calm env)).1 := by
  have still : (ready r (calm env)).on = true := on
  simp only [whole,FwUpdate.step,still]
  rfl

theorem wholeTick (on : r.on = true) : whole r .tick env = fwUpdateTick (ready r (calm env)) env.now := by
  have still : (ready r (calm env)).on = true := on
  simp only [whole,FwUpdate.step,still]
  rfl

theorem wholeCut (on : r.on = true) : whole r .cut env = reboot (ready r (calm env)) := by
  have still : (ready r (calm env)).on = true := on
  simp only [whole,FwUpdate.step,still]

theorem wholeBooted (on : r.on = true) : whole r .boot env = ready r (calm env) := by
  have still : (ready r (calm env)).on = true := on
  simp only [whole,FwUpdate.step,still]

/-- No update is pending and nothing new is armed. -/
def Quiet (d d' : Disk) : Prop := d'.pending = none ∧ d'.command = d.command

theorem quietFree (d : Disk) : StageFree (Quiet d) := fun _ _ here => here

theorem noteQuiet (sound : Running r) (on : r.on = true) (env : Env) :
    Clean (Quiet r.flash.disk) (fwUpdateNoteFrameOk (ready r (calm env))).flash ∧
    fwUpdateNoteFrameOk (ready r (calm env)) =
      { ready r (calm env) with pending := false, flash := (fwUpdateNoteFrameOk (ready r (calm env))).flash } := by
  have flag := sound.flag on
  have fsOk : r.fsOk = true := sound.fsOk on
  unfold fwUpdateNoteFrameOk
  cases set : r.pending with
  | false =>
    have here : (ready r (calm env)).pending = false := set
    have empty : r.flash.disk.pending = none := by
      rw [set] at flag; simpa using flag.symm
    rw [here,if_neg (by simp)]
    refine ⟨fresh ⟨empty,rfl⟩,?_⟩
    obtain ⟨flash,running,on',fsOk',s,pending,ms⟩ := r
    cases set; rfl
  | true =>
    have here : (ready r (calm env)).pending = true := set
    have there : r.flash.disk.has .pending = true := by rw [set] at flag; exact flag.symm
    rw [here,if_pos rfl]
    have first : (Flash.removeExisting ⟨r.flash.disk,[],[]⟩ .pending) =
        Flash.put ⟨r.flash.disk,[],[]⟩ (r.flash.disk.without .pending) := by
      unfold Flash.removeExisting
      rw [if_pos there]
      exact removes rfl .pending
    have gone : Clean (Quiet r.flash.disk) (Flash.removeExisting ⟨r.flash.disk,[],[]⟩ .pending) := by
      rw [first]; exact firstPut ⟨rfl,rfl⟩
    have cleared := gone.removeExisting (x := .prev) ⟨gone.disk.1,gone.disk.2⟩
    unfold cleanupPendingFiles
    simp only [ready,fsOk,Bool.not_true,Bool.false_eq_true,if_false]
    refine ⟨?_,trivial⟩
    split
    · exact cleared
    · exact cleared.removeExisting (x := .stage) ⟨cleared.disk.1,cleared.disk.2⟩

theorem noteRunning (sound : Running r) (on : r.on = true) {r' : Rp2040}
    (kept : Aside (Quiet r.flash.disk) (fwUpdateNoteFrameOk (ready r (calm env))) r') : Running r' := by
  obtain ⟨-,noted⟩ := noteQuiet sound on env
  obtain ⟨-,fsOk,flag,-,-⟩ := kept.same
  have disk := kept.clean.disk
  refine ⟨fun _ => ?_,fun _ => ?_,fun _ => FwStaging.unarmed disk.2 (sound.unarmed on)⟩
  · rw [fsOk,noted]; exact sound.fsOk on
  · rw [flag,noted,disk.1]; rfl

theorem quietPrev (sound : Running r) (on : r.on = true) {d : Disk} (quiet : Quiet r.flash.disk d) :
    d.command ≠ some (.copy .prev) ∧ d.pending = none :=
  ⟨fun command => sound.unarmed on ⟨.prev,quiet.2.symm.trans command⟩,quiet.1⟩

theorem frameCalls (sound : Running r) (on : r.on = true) (isFrame : Event.isFrame event = true) (env : Env) :
    Running (whole r event env) ∧ (Clean (Quiet r.flash.disk) (whole r event env).flash ∨
      Event.isCommit event = true ∧ Clean (Committing r.running) (whole r event env).flash) := by
  obtain ⟨noted,same⟩ := noteQuiet sound on env
  have runs : ∀ {r' : Rp2040}, Aside (Quiet r.flash.disk) (fwUpdateNoteFrameOk (ready r (calm env))) r' →
      Running r' := fun kept => noteRunning sound on kept
  cases event with
  | boot => exact absurd isFrame (by simp [Event.isFrame])
  | tick => exact absurd isFrame (by simp [Event.isFrame])
  | cut => exact absurd isFrame (by simp [Event.isFrame])
  | frame =>
    rw [wholeFrame on]
    exact ⟨runs ⟨noted,rfl⟩,.inl noted⟩
  | request op payload =>
    rw [wholeRequest on]
    cases op with
    | begin =>
      have kept := beginAside noted (quietFree _) payload (calm env)
      exact ⟨runs kept,.inl kept.clean⟩
    | data =>
      have kept := dataAside noted (quietFree _) payload (calm env)
      exact ⟨runs kept,.inl kept.clean⟩
    | commit =>
      have image : (fwUpdateNoteFrameOk (ready r (calm env))).running = r.running := by rw [same]; rfl
      simp only [wupsOnRequest]
      rcases endCommits noted (quietFree _) (fun d quiet => quietPrev sound on quiet) payload (calm env) with
        ⟨kept,stays⟩ | ⟨commits,clean⟩
      · rw [stays,if_neg (by simp)]
        exact ⟨runs kept,.inl kept.clean⟩
      · rw [commits,if_pos rfl]
        exact ⟨offRunning rfl,.inr ⟨rfl,image ▸ clean⟩⟩

/-- The marker, the snapshot and the command are as they were. -/
def SameMark (d d' : Disk) : Prop :=
  d'.pending = d.pending ∧ d'.prev = d.prev ∧ d'.command = d.command

theorem sameFree (d : Disk) : StageFree (SameMark d) := fun _ _ here => here

theorem tickAside (now : UInt32) (clean : Clean (SameMark r.flash.disk) r.flash) :
    ∃ q, Aside (SameMark r.flash.disk) r q ∧ fwUpdateTick r now =
      if r.pending ∧ now-r.pendingBootMs > fwVerifyWindowMs then
        if (restagePreviousAndReboot q).on then
          cleanupPendingFiles { restagePreviousAndReboot q with pending := false }
        else restagePreviousAndReboot q
      else q := by
  by_cases idle : r.s.isOpen ∧ now-r.s.lastReqMs > fwXferIdleMs
  · refine ⟨sessionAbort r,abortAside clean (sameFree _),?_⟩
    unfold fwUpdateTick
    rw [if_pos idle]
    rfl
  · refine ⟨r,⟨clean,rfl⟩,?_⟩
    unfold fwUpdateTick
    rw [if_neg idle]

theorem ticked (sound : Running r) (on : r.on = true) (env : Env) :
    ¬ (r.pending ∧ env.now-r.pendingBootMs > fwVerifyWindowMs) ∧
      Aside (SameMark r.flash.disk) (ready r (calm env)) (whole r .tick env) ∨
    (r.pending ∧ env.now-r.pendingBootMs > fwVerifyWindowMs) ∧ (r.flash.disk.has .prev = true →
      (whole r .tick env).on = false ∧ ∃ f, Clean (SameMark r.flash.disk) f ∧
        (whole r .tick env).flash = rolledBack f) := by
  have fsOk := sound.fsOk on
  obtain ⟨q,kept,moved⟩ := tickAside (r := ready r (calm env)) env.now (fresh ⟨rfl,rfl,rfl⟩)
  have flag : (ready r (calm env)).pending = r.pending := rfl
  have ms : (ready r (calm env)).pendingBootMs = r.pendingBootMs := rfl
  rw [wholeTick on,moved,flag,ms]
  by_cases late : r.pending ∧ env.now-r.pendingBootMs > fwVerifyWindowMs
  · rw [if_pos late]
    refine .inr ⟨late,fun there => ?_⟩
    have prev : q.flash.disk.has .prev = true := by
      have same : q.flash.disk.prev = r.flash.disk.prev := kept.clean.disk.2.1
      show q.flash.disk.prev.isSome = true
      rw [same]; exact there
    rw [restages kept.clean.faults (kept.same.2.1.trans fsOk) prev]
    exact ⟨rfl,q.flash,kept.clean,rfl⟩
  · rw [if_neg late]
    exact .inl ⟨late,kept⟩

def Unarmed (P : Disk → Prop) (d : Disk) : Prop := ¬ FwStaging.Armed d ∧ P d

theorem unarmedPrev {P : Disk → Prop} {d : Disk} (unarmed : Unarmed P d) : d.command ≠ some (.copy .prev) :=
  fun command => unarmed.1 ⟨.prev,command⟩

/-- What boot init starts from: the bootloader's work, and no command file. -/
structure Started (P : Disk → Prop) (r q : Rp2040) : Prop where
  faults : q.flash.faults = []
  clean : Clean (Unarmed P) (q.flash.removeExisting .command)
  marker : (q.flash.removeExisting .command).disk.pending = r.flash.disk.pending
  snapshot : (q.flash.removeExisting .command).disk.prev = r.flash.disk.prev
  on : q.on = true
  unset : q.pending = false
  closed : q.s = .closed
  spent : ¬ FwStaging.Armed q.flash.disk
  running : q.running = (bootloader r).running

theorem bootloaderReady (env : Env) : (bootloader (ready r env)).running = (bootloader r).running := by
  have same : (ready r env).flash.disk = r.flash.disk := rfl
  unfold bootloader
  rw [same]
  split <;> rfl

theorem bootStarts {P : Disk → Prop} (off : r.on = false) (env : Env)
    (here : ∀ command, P { r.flash.disk with command := command }) :
    ∃ q, Started P r q ∧ whole r .boot env = fwUpdateBootInit q env.now := by
  have spent : Clean (Unarmed P) (bootloader (ready r (calm env))).flash ∧
      ∃ command, (bootloader (ready r (calm env))).flash.disk = { r.flash.disk with command := command } := by
    have none_ := FwStaging.bootloaderSpent (ready r (calm env))
    revert none_
    unfold bootloader
    split
    · exact fun none_ => ⟨firstPut ⟨none_,here _⟩,_,rfl⟩
    · exact fun none_ => ⟨fresh ⟨none_,here r.flash.disk.command⟩,_,rfl⟩
  obtain ⟨clean,command,disk⟩ := spent
  have gone : ((bootloader (ready r (calm env))).flash.removeExisting .command).disk =
      { r.flash.disk with command := none } := by
    rw [removedDisk clean.faults,disk]; rfl
  refine ⟨{ bootloader (ready r (calm env)) with on := true, s := .closed, pending := false },
    ⟨clean.faults,clean.removeExisting ⟨?_,?_⟩,?_,?_,rfl,rfl,rfl,clean.disk.1,bootloaderReady _⟩,wholeBoot off⟩
  · rintro ⟨x,armed⟩
    exact absurd armed (by simp [Disk.without])
  · rw [disk]; exact here none
  · show ((bootloader (ready r (calm env))).flash.removeExisting .command).disk.pending = _
    rw [gone]
  · show ((bootloader (ready r (calm env))).flash.removeExisting .command).disk.prev = _
    rw [gone]

theorem bumps {f : Flash} {image : Bytes} {boots : UInt32} (none_ : f.faults = []) (marked : Marked image boots f.disk) :
    bumpMarker f = (f.put { f.disk with pending := some (some ⟨fwPendingMagic,boots+1⟩) },
      some ⟨fwPendingMagic,boots+1⟩) := by
  unfold bumpMarker
  simp only [works none_,marked.1,if_true]

/-- The marker of `boots` boots, or of one more. -/
def Counting (image : Bytes) (boots : UInt32) (d : Disk) : Prop :=
  Marked image boots d ∨ Marked image (boots+1) d

theorem initPlain {q : Rp2040} (none_ : q.flash.faults = []) (now : UInt32)
    (absent : (q.flash.removeExisting .command).disk.has .pending = false) : fwUpdateBootInit q now =
      { q with fsOk := true,
               flash := ((q.flash.removeExisting .command).removeExisting .stage).removeExisting .prev } := by
  unfold fwUpdateBootInit
  simp only [works none_,absent,Bool.false_eq_true,if_false]

theorem initMarked {q : Rp2040} {g : Flash} {m : PendingMarker} (none_ : q.flash.faults = []) (now : UInt32)
    (there : (q.flash.removeExisting .command).disk.has .pending = true)
    (bumped : bumpMarker (q.flash.removeExisting .command) = (g,some m)) : fwUpdateBootInit q now =
      if m.boots > fwPendingMaxBoots then
        if (restagePreviousAndReboot { q with fsOk := true, flash := g }).on then
          cleanupPendingFiles (restagePreviousAndReboot { q with fsOk := true, flash := g })
        else restagePreviousAndReboot { q with fsOk := true, flash := g }
      else { q with fsOk := true, flash := g, pending := true, pendingBootMs := now } := by
  unfold fwUpdateBootInit
  simp only [works none_,there,bumped,if_true]

theorem bootsIdle (off : r.on = false) (empty : r.flash.disk.pending = none) (env : Env) :
    Running (whole r .boot env) ∧ Clean (Unarmed (fun d => d.pending = none)) (whole r .boot env).flash := by
  obtain ⟨q,started,moved⟩ := bootStarts (P := fun d => d.pending = none) off env (fun _ => empty)
  have absent : (q.flash.removeExisting .command).disk.has .pending = false := by
    show (q.flash.removeExisting .command).disk.pending.isSome = false
    rw [started.marker,empty]; rfl
  have first := started.clean.removeExisting (x := .stage) ⟨started.clean.disk.1,started.clean.disk.2⟩
  have second := first.removeExisting (x := .prev) ⟨first.disk.1,first.disk.2⟩
  rw [moved,initPlain started.faults env.now absent]
  refine ⟨⟨fun _ => rfl,fun _ => ?_,fun _ => second.disk.1⟩,second⟩
  show q.pending = _
  rw [started.unset]
  exact (Option.isSome_eq_false_iff.mpr (by rw [second.disk.2]; rfl)).symm

/-- A boot with a marker counts itself in it, and rolls back when that passes eight. -/
theorem bootsMarked {image : Bytes} {boots : UInt32} (off : r.on = false) (marked : Marked image boots r.flash.disk)
    (env : Env) :
    ∃ f, Clean (Unarmed (Counting image boots)) f ∧ Marked image (boots+1) f.disk ∧ 0 < f.trail.length ∧
      (boots+1 > fwPendingMaxBoots ∧ (whole r .boot env).on = false ∧ (whole r .boot env).flash = rolledBack f ∨
      ¬ boots+1 > fwPendingMaxBoots ∧ Running (whole r .boot env) ∧ (whole r .boot env).flash = f ∧
        (whole r .boot env).on = true ∧ (whole r .boot env).pendingBootMs = env.now) := by
  obtain ⟨q,started,moved⟩ := bootStarts (P := Counting image boots) off env (fun _ => .inl marked)
  have here : Marked image boots (q.flash.removeExisting .command).disk :=
    ⟨started.marker.trans marked.1,started.snapshot.trans marked.2⟩
  have there : (q.flash.removeExisting .command).disk.has .pending = true := by
    show (q.flash.removeExisting .command).disk.pending.isSome = true
    rw [here.1]; rfl
  have bumped := bumps started.clean.faults here
  let f := (q.flash.removeExisting .command).put { (q.flash.removeExisting .command).disk with
    pending := some (some ⟨fwPendingMagic,boots+1⟩) }
  have next : Marked image (boots+1) f.disk := ⟨rfl,here.2⟩
  have clean : Clean (Unarmed (Counting image boots)) f := started.clean.put ⟨started.clean.disk.1,.inr next⟩
  refine ⟨f,clean,next,by simp [f,Flash.put],?_⟩
  rw [moved,initMarked started.faults env.now there bumped]
  by_cases late : boots+1 > fwPendingMaxBoots
  · have back := restages (r := { q with fsOk := true, flash := f }) clean.faults rfl
      (by show f.disk.prev.isSome = true; rw [next.2]; rfl)
    have off' : (restagePreviousAndReboot { q with fsOk := true, flash := f }).on = false := by rw [back]; rfl
    rw [if_pos late,if_neg (by rw [off']; simp)]
    exact .inl ⟨late,off',by rw [back]; rfl⟩
  · rw [if_neg late]
    exact .inr ⟨late,⟨fun _ => rfl,fun _ => by show true = f.disk.pending.isSome; rw [next.1]; rfl,
      fun _ => clean.disk.1⟩,rfl,started.on,rfl⟩

end Calls

/-- What a step without a frame does to a pending update. -/
inductive Waits (image : Bytes) (boots : UInt32) (r : Rp2040) (i : Input) (r' : Rp2040) : Bool → Prop where
  | still : Marked image boots r'.flash.disk → (r.on = false → i.event = .boot → i.isCut = true) →
    Waits image boots r i r' false
  | counts : Marked image (boots+1) r'.flash.disk → r.on = false → i.event = .boot →
    (i.isCut = true ∨ ¬ boots+1 > fwPendingMaxBoots) → Waits image boots r i r' false
  | rolls : r'.flash.disk.command = some (.copy .prev) → r'.flash.disk.prev = some image →
    (r'.flash.disk.pending = none ∨ i.isCut = true ∧ ∃ boots', Marked image boots' r'.flash.disk) →
    Waits image boots r i r' true

/-- No update is pending, or one whose marker and snapshot are whole. -/
def Legal (d : Disk) : Prop := d.pending = none ∨ ∃ image boots, Marked image boots d

def frameStep (r : Rp2040) (i : Input) : Bool := r.on && Event.isFrame i.event

structure Moves (r : Rp2040) (i : Input) (r' : Rp2040) (rolled : Bool) : Prop where
  running : Running r'
  frame : frameStep r i = true → rolled = false ∧ (r'.flash.disk.pending = none ∨
    Event.isCommit i.event = true ∧ Marked r.running 0 r'.flash.disk)
  idle : frameStep r i = false → r.flash.disk.pending = none → rolled = false ∧ r'.flash.disk.pending = none
  waits : frameStep r i = false → ∀ image boots, Marked image boots r.flash.disk → Waits image boots r i r' rolled

section Steps
variable {r : Rp2040} {i : Input}

/-- A call without a frame that rolls back: the command is armed on a pending update. -/
theorem rolledWaits {P : Disk → Prop} {image : Bytes} {boots boots' : UInt32} {f : Flash}
    (quiet : ∀ d, P d → d.command ≠ some (.copy .prev))
    (counting : ∀ d, P d → Marked image boots d ∨ Marked image (boots+1) d ∧ r.on = false ∧ i.event = .boot)
    (c : Clean P f) (here : Marked image boots' f.disk) (last : (whole r i.event i.env).flash = rolledBack f) :
    Waits image boots r i (step r i).1 (step r i).2 := by
  rcases rolledEnds quiet c last with ⟨cut,disk,none_⟩ | ⟨rolled,disk⟩
  · rw [none_]
    rcases counting _ disk with same | ⟨next,off,boot⟩
    · exact .still same (fun _ _ => cut)
    · exact .counts next off boot (.inl cut)
  · rw [rolled]
    rcases disk with cleared | ⟨cut,armed⟩
    · exact .rolls (by rw [cleared]; rfl) (by rw [cleared]; exact here.2) (.inl (by rw [cleared]; rfl))
    · exact .rolls (by rw [armed]; rfl) (by rw [armed]; exact here.2)
        (.inr ⟨cut,boots',by rw [armed]; exact here⟩)

theorem frameMoves (sound : Running r) (on : r.on = true) (isFrame : Event.isFrame i.event = true) :
    (step r i).2 = false ∧ ((step r i).1.flash.disk.pending = none ∨
      Event.isCommit i.event = true ∧ Marked r.running 0 (step r i).1.flash.disk) := by
  obtain ⟨-,quiet | ⟨commit,committing⟩⟩ := frameCalls sound on isFrame i.env
  · obtain ⟨disk,none_⟩ := quietEnds (fun d here => (quietPrev sound on here).1) quiet
    exact ⟨none_,.inl disk.1⟩
  · obtain ⟨disk,none_⟩ := quietEnds (fun d here => here.1) committing
    exact ⟨none_,disk.2.imp_right (fun marked => ⟨commit,marked⟩)⟩

theorem stillMoves (noFrame : frameStep r i = false)
    (noBoot : r.on = false → i.event = .boot → False) (after : Running (whole r i.event i.env))
    (disk : (whole r i.event i.env).flash = ⟨r.flash.disk,[],[]⟩) : Moves r i (step r i).1 (step r i).2 := by
  obtain ⟨same,none_⟩ := idleEnds (r := r) (i := i) (by rw [disk])
  rw [disk] at same
  have same : (step r i).1.flash.disk = r.flash.disk := same
  refine ⟨stepRunning after,fun frame => absurd (noFrame.symm.trans frame) (by simp),fun _ empty => ⟨none_,?_⟩,
    fun _ image boots marked => ?_⟩
  · rw [same]; exact empty
  · rw [none_]
    exact .still (by rw [same]; exact marked) (fun off boot => (noBoot off boot).elim)

theorem markedSome {image : Bytes} {boots : UInt32} {d : Disk} (marked : Marked image boots d) :
    d.pending ≠ none := by
  rw [marked.1]; simp

theorem bootMoves (legal : Legal r.flash.disk) (off : r.on = false) (boot : i.event = .boot) :
    Moves r i (step r i).1 (step r i).2 := by
  have noFrame : frameStep r i = false := by unfold frameStep; rw [off]; rfl
  rcases legal with empty | ⟨image,boots,marked⟩
  · have idle := bootsIdle off empty i.env
    rw [← boot] at idle
    obtain ⟨disk,none_⟩ := quietEnds (fun d here => unarmedPrev here) idle.2
    exact ⟨stepRunning idle.1,fun frame => absurd (noFrame.symm.trans frame) (by simp),fun _ _ => ⟨none_,disk.2⟩,
      fun _ image boots marked => absurd empty (markedSome marked)⟩
  · have counted := bootsMarked off marked i.env
    rw [← boot] at counted
    obtain ⟨f,clean,next,-,turned⟩ := counted
    have quiet : ∀ d, Unarmed (Counting image boots) d → d.command ≠ some (.copy .prev) := fun d => unarmedPrev
    have waits : Running (whole r i.event i.env) ∧ Waits image boots r i (step r i).1 (step r i).2 := by
      rcases turned with ⟨-,off',last⟩ | ⟨early,running,last,-,-⟩
      · exact ⟨offRunning off',rolledWaits quiet (fun d here => here.2.imp_right (⟨·,off,boot⟩)) clean next last⟩
      · refine ⟨running,?_⟩
        obtain ⟨disk,none_⟩ := quietEnds quiet (show Clean _ (whole r i.event i.env).flash by rw [last]; exact clean)
        rw [none_]
        cases cut : i.isCut with
        | false =>
          refine .counts ?_ off boot (.inr early)
          rw [stepWhole cut,last]; exact next
        | true =>
          rcases disk.2 with same | next'
          · exact .still same (fun _ _ => cut)
          · exact .counts next' off boot (.inl cut)
    refine ⟨stepRunning waits.1,fun frame => absurd (noFrame.symm.trans frame) (by simp),
      fun _ empty => absurd empty (markedSome marked),fun _ image' boots' marked' => ?_⟩
    have sameMarker := marked.1.symm.trans marked'.1
    have sameImage := marked.2.symm.trans marked'.2
    cases sameMarker
    cases sameImage
    exact waits.2

theorem lateRolls (sound : Running r) (legal : Legal r.flash.disk) (on : r.on = true) (env : Env)
    (set : r.pending = true) (late : env.now-r.pendingBootMs > fwVerifyWindowMs) :
    r.flash.disk.pending ≠ none ∧ (whole r .tick env).on = false ∧
      ∃ f, Clean (SameMark r.flash.disk) f ∧ (whole r .tick env).flash = rolledBack f := by
  have some_ : r.flash.disk.pending.isSome = true := (sound.flag on).symm.trans set
  rcases legal with empty | ⟨image,boots,marked⟩
  · rw [empty] at some_; exact absurd some_ (by simp)
  have there : r.flash.disk.has .prev = true := by
    show r.flash.disk.prev.isSome = true
    rw [marked.2]; rfl
  rcases ticked sound on env with ⟨early,-⟩ | ⟨-,rolls⟩
  · exact absurd ⟨set,late⟩ early
  · exact ⟨markedSome marked,rolls there⟩

theorem tickMoves (sound : Running r) (legal : Legal r.flash.disk) (on : r.on = true) (tick : i.event = .tick) :
    Moves r i (step r i).1 (step r i).2 := by
  have noFrame : frameStep r i = false := by unfold frameStep; rw [tick,on]; rfl
  have quiet : ∀ d, SameMark r.flash.disk d → d.command ≠ some (.copy .prev) := fun d same command =>
    sound.unarmed on ⟨.prev,same.2.2.symm.trans command⟩
  rcases ticked sound on i.env with ⟨-,kept⟩ | ⟨⟨set,late⟩,-⟩
  · rw [← tick] at kept
    obtain ⟨onSame,okSame,flagSame,-,-⟩ := kept.same
    have running : Running (whole r i.event i.env) := by
      refine ⟨fun _ => okSame.trans (sound.fsOk on),fun _ => ?_,fun _ => FwStaging.unarmed kept.clean.disk.2.2
        (sound.unarmed on)⟩
      rw [flagSame,kept.clean.disk.1]; exact sound.flag on
    obtain ⟨disk,none_⟩ := quietEnds quiet kept.clean
    refine ⟨stepRunning running,fun frame => absurd (noFrame.symm.trans frame) (by simp),
      fun _ empty => ⟨none_,disk.1.trans empty⟩,fun _ image boots marked => ?_⟩
    rw [none_]
    exact .still ⟨disk.1.trans marked.1,disk.2.1.trans marked.2⟩ (fun off => absurd (off.symm.trans on) (by simp))
  · obtain ⟨some_,off',f,clean,last⟩ := lateRolls sound legal on i.env set late
    rw [← tick] at off' last
    refine ⟨stepRunning (offRunning off'),fun frame => absurd (noFrame.symm.trans frame) (by simp),
      fun _ empty => absurd empty some_,fun _ image boots marked => ?_⟩
    exact rolledWaits quiet (fun d same => .inl ⟨same.1.trans marked.1,same.2.1.trans marked.2⟩) clean
      ⟨clean.disk.1.trans marked.1,clean.disk.2.1.trans marked.2⟩ last

theorem moves (sound : Running r) (legal : Legal r.flash.disk) : Moves r i (step r i).1 (step r i).2 := by
  cases on : r.on with
  | false =>
    by_cases boot : i.event = .boot
    · exact bootMoves legal on boot
    · have idle : whole r i.event i.env = ready r (calm i.env) := wholeOff on boot
      exact stillMoves (by unfold frameStep; rw [on]; rfl) (fun _ boot' => boot boot')
        (by rw [idle]; exact offRunning on) (by rw [idle]; rfl)
  | true =>
    have noBoot : r.on = false → i.event = .boot → False := fun off => absurd (off.symm.trans on) (by simp)
    cases isFrame : Event.isFrame i.event with
    | true =>
      have frame : frameStep r i = true := by unfold frameStep; rw [on,isFrame]; rfl
      exact ⟨stepRunning (frameCalls sound on isFrame _).1,fun _ => frameMoves sound on isFrame,
        fun noFrame => absurd (noFrame.symm.trans frame) (by simp),
        fun noFrame => absurd (noFrame.symm.trans frame) (by simp)⟩
    | false =>
      have noFrame : frameStep r i = false := by unfold frameStep; rw [isFrame,Bool.and_false]
      cases event : i.event with
      | boot =>
        have idle : whole r i.event i.env = ready r (calm i.env) := by rw [event]; exact wholeBooted on
        exact stillMoves noFrame noBoot (by rw [idle]; exact ⟨sound.fsOk,sound.flag,sound.unarmed⟩) (by rw [idle]; rfl)
      | frame => rw [event] at isFrame; exact absurd isFrame (by simp [Event.isFrame])
      | request op payload => rw [event] at isFrame; exact absurd isFrame (by simp [Event.isFrame])
      | tick => exact tickMoves sound legal on event
      | cut =>
        have idle : whole r i.event i.env = reboot (ready r (calm i.env)) := by rw [event]; exact wholeCut on
        exact stillMoves noFrame noBoot (by rw [idle]; exact offRunning rfl) (by rw [idle]; rfl)

theorem movesLegal {r' : Rp2040} {rolled : Bool} (m : Moves r i r' rolled) (legal : Legal r.flash.disk) :
    Legal r'.flash.disk := by
  cases frame : frameStep r i with
  | true => exact (m.frame frame).2.imp_right (fun committed => ⟨r.running,0,committed.2⟩)
  | false =>
    rcases legal with empty | ⟨image,boots,marked⟩
    · exact .inl (m.idle frame empty).2
    cases m.waits frame image boots marked with
    | still same _ => exact .inr ⟨image,boots,same⟩
    | counts next _ _ _ => exact .inr ⟨image,boots+1,next⟩
    | rolls _ _ after => exact after.imp_right (fun cut => ⟨image,cut.2.choose,cut.2.choose_spec⟩)

/-- The verify window is counted from the boot, for as long as the board is up. -/
theorem windowKept (sound : Running r) (legal : Legal r.flash.disk) (on : r.on = true) (noFrame : frameStep r i = false)
    (up : (step r i).1.on = true) : (step r i).1.pendingBootMs = r.pendingBootMs := by
  cases cut : i.isCut with
  | true =>
    cases i with
    | run event env => exact absurd cut (by simp [Input.isCut])
    | cutIn event env position => exact absurd up (by simp [step,reboot])
  | false =>
    rw [stepWhole cut] at up ⊢
    have isFrame : Event.isFrame i.event = false := by
      unfold frameStep at noFrame
      rw [on] at noFrame; exact noFrame
    cases event : i.event with
    | boot => rw [wholeBooted on]; rfl
    | frame => rw [event] at isFrame; exact absurd isFrame (by simp [Event.isFrame])
    | request op payload => rw [event] at isFrame; exact absurd isFrame (by simp [Event.isFrame])
    | tick =>
      rw [event] at up
      rcases ticked sound on i.env with ⟨-,kept⟩ | ⟨⟨set,late⟩,-⟩
      · exact kept.same.2.2.2.1
      · exact absurd ((lateRolls sound legal on i.env set late).2.1.symm.trans up) (by simp)
    | cut => rw [event,wholeCut on] at up; exact absurd up (by simp [reboot])

end Steps
end Web3PiUps.FwRollback
