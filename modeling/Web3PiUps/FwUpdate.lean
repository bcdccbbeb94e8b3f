import Web3PiUps.FwSha256

/-! `firmware-rp2040/src/fw_update.cpp`, with the fw_xfer branch of `wups_on_local_frame`
and the boot that applies an armed image. LittleFS and PicoOTA are taken as documented:
a call works whole, or fails and says so, and how each call turns out is an input. A
call that works leaves its disk in `trail`. Reads of the flash do not fail. -/
namespace Web3PiUps.FwUpdate
open WupsProtocol Slices FwSha256

abbrev xipBase : Nat := 0x10000000
abbrev fwAppVectorsOff : Nat := 0x3000
abbrev fwImageMinLen : Nat := 0x4000
abbrev fwImageMaxLen : Nat := 640*1024
abbrev fwFsSlack : Nat := 32*1024
abbrev fwVerifyWindowMs : UInt32 := 5*60*1000
abbrev fwPendingMaxBoots : UInt32 := 8
abbrev fwXferIdleMs : UInt32 := 30*1000
abbrev fwPendingMagic : UInt32 := 0x46575550
abbrev stageBufSize : Nat := 4096

abbrev wupsFwTargetRp2040 : UInt8 := 2
abbrev wupsFwXferChunk : Nat := wupsMaxPayload-4
abbrev xferOk : UInt8 := 0
abbrev xferBadReq : UInt8 := 1
abbrev xferSeqMismatch : UInt8 := 3
abbrev xferFlashErr : UInt8 := 4
abbrev xferVerifyFail : UInt8 := 5

/-- fwstage.bin, fwprev.bin, fwpending.bin and otacommand.bin. -/
inductive File where
  | stage
  | prev
  | pending
  | command
  deriving DecidableEq, Repr

structure PendingMarker where
  magic : UInt32
  boots : UInt32
  deriving DecidableEq, Repr

/-- A committed command names the image to copy; once applied only its entry is left. -/
inductive Command where
  | copy (image : File)
  | husk
  deriving DecidableEq, Repr

/-- A `pending` file without a marker is shorter than one. -/
structure Disk where
  stage : Option Bytes
  prev : Option Bytes
  pending : Option (Option PendingMarker)
  command : Option Command
  deriving DecidableEq, Repr

def Disk.has (d : Disk) : File → Bool
  | .stage => d.stage.isSome
  | .prev => d.prev.isSome
  | .pending => d.pending.isSome
  | .command => d.command.isSome

def Disk.without (d : Disk) : File → Disk
  | .stage => { d with stage := none }
  | .prev => { d with prev := none }
  | .pending => { d with pending := none }
  | .command => { d with command := none }

def Disk.image (d : Disk) : File → Option Bytes
  | .stage => d.stage
  | .prev => d.prev
  | _ => none

/-- What a call finds beside its arguments: `millis`, `LittleFS.info`, and how its file
operations turn out in order, `some n` for a failure (of a write, after `n` bytes). -/
structure Env where
  now : UInt32
  totalBytes : Nat
  usedBytes : Nat
  faults : List (Option Nat)
  deriving DecidableEq, Repr

structure Flash where
  disk : Disk
  trail : List Disk
  faults : List (Option Nat)
  deriving DecidableEq, Repr

namespace Flash

def next (f : Flash) : Option Nat × Flash :=
  match f.faults with
  | [] => (none,f)
  | fault::rest => (fault,{ f with faults := rest })

def put (f : Flash) (d : Disk) : Flash := { f with disk := d, trail := f.trail ++ [d] }

def remove (f : Flash) (x : File) : Flash :=
  match f.next with
  | (none,f) => f.put (f.disk.without x)
  | (some _,f) => f

def removeExisting (f : Flash) (x : File) : Flash := if f.disk.has x then f.remove x else f

/-- `LittleFS.open(kStageFile, "w")`. -/
def openStage (f : Flash) : Flash × Bool :=
  match f.next with
  | (none,f) => (f.put { f.disk with stage := some [] },true)
  | (some _,f) => (f,false)

/-- `s_stage.write`, with the number of bytes written. -/
def writeStage (f : Flash) (data : Bytes) : Flash × Nat :=
  match f.next with
  | (none,f) => (f.put { f.disk with stage := some (f.disk.stage.getD [] ++ data) },data.length)
  | (some n,f) =>
    (f.put { f.disk with stage := some (f.disk.stage.getD [] ++ data.take n) },(data.take n).length)

/-- The writes of one file: what reaches it, and whether all of it did. -/
def writeBlocks (f : Flash) : List Bytes → Flash × Bytes × Bool
  | [] => (f,[],true)
  | b::rest =>
    match f.next with
    | (none,f) =>
      let later := writeBlocks f rest
      (later.1,b ++ later.2.1,later.2.2)
    | (some n,f) => (f,b.take n,false)

/-- `picoOTA.begin`, `addFile` and `commit`. -/
def arm (f : Flash) (image : File) : Flash × Bool :=
  match f.next with
  | (some _,f) => (f,false)
  | (none,f) =>
    match f.next with
    | (some _,f) => (f,false)
    | (none,f) => (f.put { f.disk with command := some (.copy image) },true)

end Flash

/-- `buf` is the part of the RAM buffer in use; `accepted` only records the chunks taken. -/
structure Session where
  isOpen : Bool
  imageLen : Nat
  received : Nat
  sha : Bytes
  lastReqMs : UInt32
  buf : Bytes
  accepted : List Bytes
  deriving DecidableEq, Repr

/-- `running` is the image in XIP flash up to `__flash_binary_end`. -/
structure Rp2040 where
  flash : Flash
  running : Bytes
  on : Bool
  fsOk : Bool
  s : Session
  pending : Bool
  pendingBootMs : UInt32
  deriving DecidableEq, Repr

def Session.closed : Session := ⟨false,0,0,[],0,[],[]⟩

/-- Before the first boot. -/
def Rp2040.powerOff (disk : Disk) (running : Bytes) : Rp2040 :=
  ⟨⟨disk,[],[]⟩,running,false,false,.closed,false,0⟩

def flushStageBuf (r : Rp2040) : Rp2040 × Bool :=
  if r.s.buf.length = 0 then (r,true)
  else
    let wrote := r.flash.writeStage r.s.buf
    if wrote.2 ≠ r.s.buf.length then ({ r with flash := wrote.1 },false)
    else ({ r with flash := wrote.1, s := { r.s with buf := [] } },true)

def sessionAbort (r : Rp2040) : Rp2040 :=
  { r with
    s := { r.s with isOpen := false, buf := [] }
    flash := if r.fsOk then r.flash.removeExisting .stage else r.flash }

def cleanupPendingFiles (r : Rp2040) : Rp2040 :=
  if !r.fsOk then r
  else
    let f := (r.flash.removeExisting .pending).removeExisting .prev
    { r with flash := if r.s.isOpen then f else f.removeExisting .stage }

def verifyStageSha (r : Rp2040) : Bool :=
  match r.flash.disk.stage with
  | none => false
  | some image => fwSha256Final ((slices stageBufSize image).foldl fwSha256Update fwSha256Init) == r.s.sha

def le32 (data : Bytes) (i : Nat) : Nat :=
  (data.getD i 0).toNat + 256*(data.getD (i+1) 0).toNat + 65536*(data.getD (i+2) 0).toNat +
    16777216*(data.getD (i+3) 0).toNat

/-- The checks of `sanity_check_image` on a file of the announced length. -/
def saneImage (image : Bytes) (imageLen : Nat) : Bool :=
  let sp := le32 image fwAppVectorsOff
  let rst := le32 image (fwAppVectorsOff+4)
  decide (fwAppVectorsOff+8 ≤ image.length) &&
    !(sp < 0x20000000 || sp > 0x20042000) && rst % 2 == 1 &&
    !(rst-1 < xipBase+fwAppVectorsOff) && !(rst-1 ≥ xipBase+imageLen)

def sanityCheckImage (r : Rp2040) : Bool :=
  match r.flash.disk.stage with
  | none => false
  | some image => saneImage image r.s.imageLen

def snapshotRunningImage (r : Rp2040) : Rp2040 × Bool :=
  if r.running.length < fwImageMinLen ∨ r.running.length > fwImageMaxLen then (r,false)
  else
    match r.flash.next with
    | (some _,f) => ({ r with flash := f },false)
    | (none,f) =>
      let wrote := f.writeBlocks (slices stageBufSize r.running)
      let f := wrote.1.put { wrote.1.disk with prev := some wrote.2.1 }
      if wrote.2.2 then ({ r with flash := f },true) else ({ r with flash := f.remove .prev },false)

def writePendingMarker (r : Rp2040) : Rp2040 × Bool :=
  match r.flash.next with
  | (some _,f) => ({ r with flash := f },false)
  | (none,f) =>
    match f.next with
    | (none,f) => ({ r with flash := f.put { f.disk with pending := some (some ⟨fwPendingMagic,0⟩) } },true)
    | (some _,f) => ({ r with flash := (f.put { f.disk with pending := some none }).remove .pending },false)

/-- `rp2040.reboot()` leaves the board off until its next boot. -/
def reboot (r : Rp2040) : Rp2040 := { r with on := false }

def restagePreviousAndReboot (r : Rp2040) : Rp2040 :=
  if !r.fsOk || !r.flash.disk.has .prev then r
  else
    let armed := r.flash.arm .prev
    if armed.2 then reboot { r with flash := armed.1.remove .pending } else { r with flash := armed.1 }

/-- The marker with one boot more; `none` where the file holds none. -/
def bumpMarker (f : Flash) : Flash × Option PendingMarker :=
  match f.next with
  | (some _,f) => (f,none)
  | (none,f) =>
    match f.disk.pending with
    | some (some m) =>
      if m.magic = fwPendingMagic then
        let m : PendingMarker := { m with boots := m.boots+1 }
        match f.next with
        | (none,f) => (f.put { f.disk with pending := some (some m) },some m)
        | (some _,f) => (f,some m)
      else (f,none)
    | _ => (f,none)

def fwUpdateBootInit (r : Rp2040) (now : UInt32) : Rp2040 :=
  match r.flash.next with
  | (some _,f) => { r with flash := f, fsOk := false }
  | (none,f) =>
    let r := { r with flash := f.removeExisting .command, fsOk := true }
    if r.flash.disk.has .pending then
      let bumped := bumpMarker r.flash
      let r := { r with flash := bumped.1 }
      match bumped.2 with
      | some m =>
        if m.boots > fwPendingMaxBoots then
          let r := restagePreviousAndReboot r
          if r.on then cleanupPendingFiles r else r
        else { r with pending := true, pendingBootMs := now }
      | none => cleanupPendingFiles r
    else { r with flash := (r.flash.removeExisting .stage).removeExisting .prev }

def fwUpdateTick (r : Rp2040) (now : UInt32) : Rp2040 :=
  let r := if r.s.isOpen ∧ now-r.s.lastReqMs > fwXferIdleMs then sessionAbort r else r
  if r.pending ∧ now-r.pendingBootMs > fwVerifyWindowMs then
    let r := restagePreviousAndReboot r
    if r.on then cleanupPendingFiles { r with pending := false } else r
  else r

def fwUpdateNoteFrameOk (r : Rp2040) : Rp2040 :=
  if r.pending then cleanupPendingFiles { r with pending := false } else r

def fwUpdateHandleBegin (r : Rp2040) (payload : Bytes) (env : Env) : Rp2040 × UInt8 :=
  if payload.length < 40 then (r,xferBadReq)
  else if payload.getD 0 0 ≠ 1 then (r,xferBadReq)
  else if payload.getD 1 0 ≠ wupsFwTargetRp2040 then (r,xferBadReq)
  else
    let imageLen := le32 payload 4
    if imageLen < fwImageMinLen ∨ imageLen > fwImageMaxLen then (r,xferBadReq)
    else if !r.fsOk then (r,xferFlashErr)
    else
      let r := sessionAbort r
      let free := env.totalBytes-env.usedBytes
      if imageLen+r.running.length+fwFsSlack > free then (r,xferFlashErr)
      else
        let opened := r.flash.openStage
        if !opened.2 then ({ r with flash := opened.1 },xferFlashErr)
        else ({ r with
          flash := opened.1
          s := { isOpen := true, imageLen := imageLen, received := 0, sha := (payload.drop 8).take 32,
                 lastReqMs := env.now, buf := [], accepted := [] } },xferOk)

/-- The loop of `fw_update_handle_data`: a chunk fills the RAM buffer, which goes to the
stage file whenever it is full. -/
def takeChunk (r : Rp2040) : Nat → Bytes → Rp2040 × Bool
  | 0, _ => (r,true)
  | _+1, [] => (r,true)
  | fuel+1, p =>
    let room := stageBufSize-r.s.buf.length
    let r := { r with s := { r.s with buf := r.s.buf ++ p.take room } }
    if r.s.buf.length = stageBufSize then
      let flushed := flushStageBuf r
      if flushed.2 then takeChunk flushed.1 fuel (p.drop room) else (flushed.1,false)
    else takeChunk r fuel (p.drop room)

def fwUpdateHandleData (r : Rp2040) (payload : Bytes) (env : Env) : Rp2040 × UInt8 :=
  if !r.s.isOpen then (r,xferBadReq)
  else
    let r := { r with s := { r.s with lastReqMs := env.now } }
    if payload.length < 5 then (r,xferBadReq)
    else
      let offset := le32 payload 0
      let p := payload.drop 4
      if p.length > wupsFwXferChunk then (r,xferBadReq)
      else if offset ≠ r.s.received then (r,xferSeqMismatch)
      else if r.s.received+p.length > r.s.imageLen then (r,xferBadReq)
      else
        let took := takeChunk r p.length p
        if !took.2 then (sessionAbort took.1,xferFlashErr)
        else ({ took.1 with s := { took.1.s with
          received := took.1.s.received+p.length, accepted := took.1.s.accepted ++ [p] } },xferOk)

/-- The commit of a staged image that has passed its checks. -/
def armStaged (r : Rp2040) : Rp2040 × UInt8 × Bool :=
  let snapped := snapshotRunningImage r
  let r :=
    if snapped.2 then
      let marked := writePendingMarker snapped.1
      if marked.2 then marked.1 else { marked.1 with flash := marked.1.flash.remove .prev }
    else snapped.1
  let armed := r.flash.arm .stage
  let r := { r with flash := armed.1 }
  if armed.2 then (r,xferOk,true)
  else
    let r := cleanupPendingFiles r
    ({ r with flash := r.flash.remove .stage },xferFlashErr,false)

/-- The new state, the result and `*reboot_after_resp`. -/
def fwUpdateHandleEnd (r : Rp2040) (payload : Bytes) (env : Env) : Rp2040 × UInt8 × Bool :=
  if !r.s.isOpen then (r,xferBadReq,false)
  else
    let r := { r with s := { r.s with lastReqMs := env.now } }
    if payload.length < 4 then (r,xferBadReq,false)
    else if payload.getD 0 0 ≠ 1 then (r,xferBadReq,false)
    else if payload.getD 1 0 = 0 then (sessionAbort r,xferOk,false)
    else if r.s.received ≠ r.s.imageLen then (sessionAbort r,xferBadReq,false)
    else
      let flushed := flushStageBuf r
      if !flushed.2 then (sessionAbort flushed.1,xferFlashErr,false)
      else
        let r := { flushed.1 with s := { flushed.1.s with isOpen := false } }
        if !verifyStageSha r then ({ r with flash := r.flash.remove .stage },xferVerifyFail,false)
        else if !sanityCheckImage r then ({ r with flash := r.flash.remove .stage },xferBadReq,false)
        else armStaged r

inductive XferOp where
  | begin
  | data
  | commit
  deriving DecidableEq, Repr

/-- `wups_on_local_frame` for a fw_xfer request: every frame confirms a pending update
first, and the reboot comes right after the response. -/
def wupsOnRequest (r : Rp2040) (op : XferOp) (payload : Bytes) (env : Env) : Rp2040 × UInt8 :=
  let r := fwUpdateNoteFrameOk r
  match op with
  | .begin => fwUpdateHandleBegin r payload env
  | .data => fwUpdateHandleData r payload env
  | .commit =>
    let handled := fwUpdateHandleEnd r payload env
    (if handled.2.2 then reboot handled.1 else handled.1,handled.2.1)

/-- The bootloader copies the image an armed command names, and spends the command. -/
def bootloader (r : Rp2040) : Rp2040 :=
  match r.flash.disk.command with
  | some (.copy x) =>
    { r with
      running := (r.flash.disk.image x).getD r.running
      flash := r.flash.put { r.flash.disk with command := some .husk } }
  | _ => r

def boot (r : Rp2040) (now : UInt32) : Rp2040 :=
  fwUpdateBootInit { bootloader r with on := true, s := .closed, pending := false } now

inductive Event where
  | boot
  | frame
  | request (op : XferOp) (payload : Bytes)
  | tick
  | cut
  deriving DecidableEq, Repr

def ready (r : Rp2040) (env : Env) : Rp2040 := { r with flash := ⟨r.flash.disk,[],env.faults⟩ }

/-- A step of the board, with the result byte of a request. Off, it only boots. -/
def step (r : Rp2040) (input : Event × Env) : Rp2040 × Option UInt8 :=
  let now := ready r input.2
  match input.1, r.on with
  | .boot, false => (boot now input.2.now,none)
  | .frame, true => (fwUpdateNoteFrameOk now,none)
  | .request op payload, true =>
    let handled := wupsOnRequest now op payload input.2
    (handled.1,some handled.2)
  | .tick, true => (fwUpdateTick now input.2.now,none)
  | .cut, true => (reboot r,none)
  | _, _ => (r,none)

end Web3PiUps.FwUpdate
