import Web3PiUps.FwOtaHttpPolicy
import Web3PiUps.Lib.Tasks

/-! `firmware-ESP32-LTE-M/main/fw_ota.c`: `ota_task` and `verify_written_image`. An action is
one call of the SDK, the clock or the flash; the loops run on fuel, and what has run out of
it is still running. `World` is what the calls do: `esp_https_ota_begin` writes nothing, a
perform appends after the last count, `abort` and `finish` consume the handle. -/
namespace Web3PiUps.FwOtaDownload
open WupsProtocol (Bytes)
open Tasks Code

abbrev fwOtaTimeoutUs : Int := 1200*1000000
abbrev noProgressUs : Int := 90000000
abbrev fwOtaReadbackChunk : Nat := 4096

/-- What a task reads that `fw_ota_request` has set, and the functions outside the sources. -/
structure Job where
  imageLen : UInt32
  shaExpected : Bytes
  sha256 : Bytes → Bytes
  espErrToName : EspErr → String

def Job.len (job : Job) : Nat := job.imageLen.toNat

inductive Status where
  | started (len : Nat)
  | progress (pct : Nat)
  | retry (attempt offset delayS : Nat)
  | verifying
  | rebooting
  | error (stage detail : String)
  deriving DecidableEq, Repr

/-- Byte `index` of the body that an attempt was answered with. -/
structure Cell where
  attempt : Nat
  index : Nat
  deriving DecidableEq, Repr

structure Began where
  err : EspErr
  callbacks : List Callback

/-- A perform reads on in the body of the response that is there: no status comes with it.
`imageLenRead` is what `esp_https_ota_get_image_len_read` says until the next one, `left`
what the slot holds where the count does not reach. -/
structure Performed where
  err : EspErr
  callbacks : List Callback
  sameResponse : ∀ e ∈ callbacks, ∀ status, e.event ≠ .onStatusCode status
  imageLenRead : Int
  left : Nat → Option Cell

inductive Act where
  | getTime
  | emitStatus (s : Status)
  | banner (shown : Bool)
  | begin (offset : Nat)
  | isChunkedResponse
  | isOverSsl
  | perform
  | captureErrors
  | isCompleteDataReceived
  | abort
  | finish
  | malloc
  | partitionRead (off n : Nat)
  | delay (ms : Nat)
  | restart
  | releaseInProgress
  deriving DecidableEq, Repr

def Ans : Act → Type
  | .getTime => Int
  | .begin _ => Began
  | .perform => Performed
  | .captureErrors => Captured
  | .finish => EspErr
  | .isChunkedResponse | .isOverSsl | .isCompleteDataReceived | .malloc => Bool
  | .partitionRead _ n => Option { chunk : Bytes // chunk.length = n }
  | .emitStatus _ | .banner _ | .abort | .delay _ | .restart | .releaseInProgress => Unit

abbrev ask (a : Act) : Code Ans (Ans a) := call a

/-- The variables of `ota_task`. -/
structure Vars where
  handle : Bool
  stage : String
  detail : String
  deadlineUs : Int
  checkpoint : Nat
  lastStepPct : Nat
  diag : OtaHttpDiag

def Vars.init (deadlineUs : Int) : Vars := ⟨false,"begin","",deadlineUs,0,0,.init 0⟩

def timeUp (v : Vars) : Vars := { v with stage := "timeout", detail := "OTA time cap exceeded" }

def capture (v : Vars) : Code Ans Vars :=
  if !v.diag.client then pure v
  else do
    let c : Captured ← ask .captureErrors
    pure { v with diag := otaHttpCapture v.diag c }

/-- How an attempt ends: with all data, at `attempt_failed`, or not yet. -/
inductive Outcome where
  | done
  | failed (retry : Bool)
  | running
  deriving DecidableEq, Repr

section Task
variable (job : Job)

def reportProgress (v : Vars) : Code Ans Vars :=
  let pct := v.checkpoint*100/job.len
  if pct ≥ v.lastStepPct+25 ∧ pct < 100 then do
    let _ : Unit ← ask (.emitStatus (.progress (pct-pct%25)))
    pure { v with lastStepPct := pct-pct%25 }
  else pure v

/-- The count that a perform has left; `progressUs` is when it last grew. -/
def written (v : Vars) (read : Nat) (progressUs : Int) : Code Ans (Vars × Int) :=
  if read > v.checkpoint then do
    let now : Int ← ask .getTime
    pure ({ v with checkpoint := read },now)
  else pure (v,progressUs)

def performLoop : Nat → Vars → Int → Code Ans (Vars × Outcome)
  | 0,v,_ => pure (v,.running)
  | fuel+1,v,progressUs => do
    let now : Int ← ask .getTime
    if now ≥ v.deadlineUs then pure (timeUp v,.failed false)
    else
      let performed : Performed ← ask .perform
      let v := { v with diag := performed.callbacks.foldl otaHttpEvent v.diag }
      if performed.err ≠ .ok ∧ performed.err ≠ .httpsOtaInProgress then
        let v ← capture v
        pure ({ v with detail := job.espErrToName performed.err },
          .failed (otaHttpRetryable performed.err v.diag))
      else
        let now : Int ← ask .getTime
        if now ≥ v.deadlineUs then pure (timeUp v,.failed false)
        else
          let read := performed.imageLenRead
          if read < 0 ∨ read.toNat < v.checkpoint ∨ read.toNat > job.len then
            pure ({ v with detail := "invalid written byte count" },.failed false)
          else
            let r ← written v read.toNat progressUs
            let v ← reportProgress job r.1
            if performed.err = .ok then pure (v,.done)
            else
              let now : Int ← ask .getTime
              if now-r.2 ≥ noProgressUs then
                pure ({ v with detail := "no download progress for 90s" },.failed true)
              else performLoop fuel v r.2

/-- The checks before any flash write. -/
def responseAccepted (v : Vars) (offset : Nat) : Code Ans Bool :=
  if !fwOtaHttpResponseValid v.diag.response offset job.len || !v.diag.client then pure false
  else do
    let chunked : Bool ← ask .isChunkedResponse
    if chunked then pure false
    else ask .isOverSsl

/-- The download of an attempt whose response was accepted, and what follows the loop. -/
def downloadBody (fuel : Nat) (v : Vars) : Code Ans (Vars × Outcome) := do
  let progressUs : Int ← ask .getTime
  let r ← performLoop job fuel { v with stage := "download" } progressUs
  match r.2 with
  | .done =>
    let complete : Bool ← ask .isCompleteDataReceived
    if !complete || r.1.checkpoint ≠ job.len then
      pure ({ r.1 with detail := "incomplete data" },.failed (r.1.checkpoint < job.len))
    else pure r
  | _ => pure r

/-- One turn of the attempt loop up to `attempt_failed`. -/
def attemptOnce (fuel : Nat) (v : Vars) : Code Ans (Vars × Outcome) := do
  let offset := if v.checkpoint < fwOtaResumeMin then 0 else v.checkpoint
  let began : Began ← ask (.begin offset)
  -- a failed begin has freed what it had made, and leaves no handle
  let v := { v with
    checkpoint := offset, stage := "begin", handle := began.err == .ok
    diag := began.callbacks.foldl otaHttpEvent (.init offset) }
  if began.err ≠ .ok then
    let v := { v with detail := job.espErrToName began.err, diag := { v.diag with client := false } }
    pure (v,.failed (otaHttpRetryable began.err v.diag))
  else
    let now : Int ← ask .getTime
    if now ≥ v.deadlineUs then pure (timeUp v,.failed false)
    else
      let v := { v with stage := "response" }
      if v.diag.rangeFallback then
        pure ({ v with checkpoint := 0, detail := "server rejected Range; restart from zero" },
          .failed (v.diag.tlsFlags == 0 && (v.diag.response.status == 200 || v.diag.response.status == 206)))
      else
        let accepted ← responseAccepted job v offset
        if !accepted then
          pure ({ v with detail := "invalid HTTP status, range or length" },.failed false)
        else downloadBody job fuel v

def abortHandle (v : Vars) : Code Ans Vars :=
  if !v.handle then pure v
  else do
    let _ : Unit ← ask .abort
    pure { v with handle := false }

/-- `attempt_failed`; whether another attempt follows. -/
def attemptFailed (attempt : Nat) (v : Vars) (retry : Bool) : Code Ans (Vars × Bool) := do
  let v ← capture v
  let v ← abortHandle v
  let v := { v with diag := { v.diag with client := false } }
  let delayS := fwOtaRetryDelayS attempt
  if !retry || delayS = 0 || v.checkpoint ≥ job.len then pure (v,false)
  else
    let now : Int ← ask .getTime
    if now+delayS*1000000 ≥ v.deadlineUs then pure (timeUp v,false)
    else
      let _ : Unit ← ask (.emitStatus (.retry (attempt+1) v.checkpoint delayS))
      let _ : Unit ← ask (.delay (delayS*1000))
      pure (v,true)

/-- `left` is also where the loop falls through after its last attempt. -/
inductive LoopEnd where
  | left
  | fail
  | running
  deriving DecidableEq, Repr

/-- The loop over `attempt`, with as many turns as remain. -/
def attemptLoop (fuel : Nat) : Nat → Nat → Vars → Code Ans (Vars × LoopEnd)
  | 0,_,v => pure (v,.left)
  | remaining+1,attempt,v => do
    let now : Int ← ask .getTime
    if now ≥ v.deadlineUs then pure (timeUp v,.fail)
    else
      let r ← attemptOnce job fuel v
      match r.2 with
      | .done => pure (r.1,.left)
      | .running => pure (r.1,.running)
      | .failed retry =>
        let s ← attemptFailed job attempt r.1 retry
        if s.2 then attemptLoop fuel remaining (attempt+1) s.1 else pure (s.1,.fail)

inductive ReadBack where
  | read (image : Bytes)
  | failed
  | running
  deriving DecidableEq, Repr

/-- The read-back loop of `verify_written_image`; `off` is a `uint32_t`. -/
def readChunks : Nat → Nat → Bytes → Code Ans ReadBack
  | 0,_,_ => pure .running
  | fuel+1,off,image =>
    if off ≥ job.len then pure (.read image)
    else do
      let chunk : Option { chunk : Bytes // chunk.length = min (job.len-off) fwOtaReadbackChunk } ←
        ask (.partitionRead off (min (job.len-off) fwOtaReadbackChunk))
      match chunk with
      | none => pure .failed
      | some chunk => readChunks fuel ((off+fwOtaReadbackChunk)%2^32) (image ++ chunk.1)

/-- `none` while the loop is running. -/
def verifyWrittenImage (fuel : Nat) : Code Ans (Option Bool) := do
  let heap : Bool ← ask .malloc
  if !heap then pure (some false)
  else
    let r ← readChunks job fuel 0 []
    match r with
    | .read image => pure (some (job.sha256 image == job.shaExpected))
    | .failed => pure (some false)
    | .running => pure none

def fail (v : Vars) : Code Ans Unit := do
  let v ← abortHandle v
  let _ : Unit ← ask (.emitStatus (.error v.stage v.detail))
  let _ : Unit ← ask (.banner false)
  ask .releaseInProgress

/-- What follows the attempts. -/
def commit (fuel : Nat) (v : Vars) : Code Ans Unit := do
  let now : Int ← ask .getTime
  if now ≥ v.deadlineUs then fail (timeUp v)
  else
    let v := { v with stage := "verify" }
    let _ : Unit ← ask (.emitStatus .verifying)
    let verified ← verifyWrittenImage job fuel
    match verified with
    | none => pure ()
    | some false => fail { v with detail := "sha256 mismatch" }
    | some true =>
      let now : Int ← ask .getTime
      if now ≥ v.deadlineUs then fail (timeUp v)
      else
        let err : EspErr ← ask .finish
        let v := { v with stage := "finish", handle := false, diag := { v.diag with client := false } }
        if err ≠ .ok then fail { v with detail := job.espErrToName err }
        else
          let _ : Unit ← ask (.emitStatus .rebooting)
          let _ : Unit ← ask (.delay 2000)
          ask .restart

def otaTask (fuel : Nat) : Code Ans Unit := do
  let now : Int ← ask .getTime
  let v := Vars.init (now+fwOtaTimeoutUs)
  let _ : Unit ← ask (.banner true)
  let _ : Unit ← ask (.emitStatus (.started job.len))
  let r ← attemptLoop job fuel fwOtaMaxAttempts 1 v
  match r.2 with
  | .left => commit job fuel r.1
  | .fail => fail r.1
  | .running => pure ()

end Task

structure Attempt where
  offset : Nat
  answer : Began

/-- `count` is what the handle counts, `consumed` how much of the body it has taken,
`reported` what the last perform that succeeded said. A cell of `slot` is `none` when no
attempt wrote it. `readBack` is what was read back, from 0 on, since the slot was written. -/
structure World where
  firstClock : Option Int
  clock : Int
  begun : List Attempt
  live : Bool
  count : Int
  consumed : Nat
  reported : Option Int
  slot : Nat → Option Cell
  complete : Bool
  readBack : Option Bytes

def World.init : World := ⟨none,0,[],false,0,0,none,fun _ => none,false,some []⟩

def Performed.succeeded (p : Performed) : Bool := p.err == .ok || p.err == .httpsOtaInProgress

def World.performed (w : World) (p : Performed) : World :=
  if p.succeeded then { w with
    count := p.imageLenRead
    consumed := w.consumed+(p.imageLenRead-w.count).toNat
    reported := some p.imageLenRead
    complete := false
    readBack := some []
    slot := fun i =>
      if i < w.count then w.slot i
      else if i < p.imageLenRead then some ⟨w.begun.length-1,w.consumed+(i-w.count).toNat⟩
      else p.left i }
  else { w with
    complete := false
    readBack := some []
    slot := fun i => if i < w.count then w.slot i else p.left i }

def World.tick (w : World) (now : Int) : World :=
  { w with firstClock := some (w.firstClock.getD now), clock := now }

def World.after (w : World) : (a : Act) → Ans a → World
  | .getTime,now => w.tick now
  | .begin offset,r =>
    { w with
      begun := w.begun ++ [⟨offset,r⟩], live := r.err == .ok, count := offset, consumed := 0
      complete := false }
  | .perform,p => w.performed p
  | .isCompleteDataReceived,complete => { w with complete := complete }
  | .abort,_ | .finish,_ => { w with live := false }
  | .partitionRead off _,r =>
    { w with readBack := do
        let image ← w.readBack
        let chunk ← r
        if off = image.length then some (image ++ chunk.1) else none }
  | _,_ => w

def Attempt.exchange (a : Attempt) : Exchange := FwOtaDownload.exchange a.answer.callbacks

/-- The final response of an attempt passed the check for its offset, and none of its
responses rejected the range. -/
structure Accepted (job : Job) (a : Attempt) : Prop where
  begun : a.answer.err = .ok
  valid : fwOtaHttpResponseValid a.exchange.final.metadata a.offset job.len = true
  kept : ∀ r ∈ a.exchange.responses, rejectsRange a.offset r.status = false

/-- Byte `i` of the slot is the byte at position `i` of the image that an accepted response
carried. -/
def Placed (job : Job) (w : World) (i : Nat) : Prop :=
  ∃ cell a, w.slot i = some cell ∧ w.begun[cell.attempt]? = some a ∧ Accepted job a ∧
    a.exchange.final.metadata.bodyStart+cell.index = i

def Act.isBegin : Act → Bool
  | .begin _ => true
  | _ => false
end Web3PiUps.FwOtaDownload
