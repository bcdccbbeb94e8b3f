import Web3PiUps.FwUpdate
import Web3PiUps.Lib.StepMachine

/-! The relay of `firmware-ESP32-LTE-M/main/fw_ota.c` (`relay_task`, `xfer_send_req`,
`fw_ota_xfer_on_resp`) and the RP2040 behind it. Requests and responses travel in two
queues: each keeps its order, loses what it loses, and delivers as late as it likes. -/
namespace Web3PiUps.FwRelay
open WupsProtocol FwUpdate StepMachine

abbrev fwRelayHttpBuf : Nat := 2048
abbrev fwRelayImageMax : Nat := 2*1024*1024
abbrev noResponse : UInt8 := 0xFF

def le32Bytes (n : Nat) : Bytes :=
  [UInt8.ofNat n,UInt8.ofNat (n/256),UInt8.ofNat (n/65536),UInt8.ofNat (n/16777216)]

/-- The calls of `xfer_send_req` in `relay_task` and `relay_send_abort`. -/
inductive Request where
  | begin (imageLen : Nat) (sha : Bytes)
  | data (offset : Nat) (chunk : Bytes)
  | commit
  | abort
  deriving DecidableEq, Repr

def Request.op : Request → XferOp
  | .begin _ _ => .begin
  | .data _ _ => .data
  | .commit => .commit
  | .abort => .commit

def Request.payload : Request → Bytes
  | .begin imageLen sha => [1,wupsFwTargetRp2040,0,0] ++ le32Bytes imageLen ++ sha
  | .data offset chunk => le32Bytes offset ++ chunk
  | .commit => [1,1,0,0]
  | .abort => [1,0,0,0]

/-- `sending` waits for the response semaphore; `expired` has timed out and not yet
disarmed; `reading` is the head of the download loop; `watching` waits for the hello. -/
inductive Place where
  | idle
  | sending (req : Request) (retried : Bool)
  | expired (req : Request) (retried : Bool)
  | reading
  | watching
  deriving DecidableEq, Repr

/-- `sentRequests`, `base`, `acked` and `observedOk` only record: the requests sent, and
in the latest transfer those sent before it, the chunks answered OK, and whether its
committing END was. `buf` is what is left of the last read, `streamed` what was hashed. -/
structure Relay where
  place : Place
  seq : UInt8
  armed : Bool
  respOp : XferOp
  respSeq : UInt8
  respResult : UInt8
  sig : Bool
  imageLen : Nat
  shaExpected : Bytes
  begun : Bool
  sent : Nat
  buf : Bytes
  streamed : Bytes
  sentRequests : Nat
  base : Nat
  acked : List Bytes
  observedOk : Bool
  deriving DecidableEq, Repr

/-- A frame in flight; `index` numbers the request it is or answers, and is read by no step. -/
structure ReqFrame where
  index : Nat
  op : XferOp
  seq : UInt8
  payload : Bytes
  deriving DecidableEq, Repr

structure RespFrame where
  index : Nat
  op : XferOp
  seq : UInt8
  result : UInt8
  deriving DecidableEq, Repr

/-- `staged` records the image that the last committing END armed. -/
structure System where
  relay : Relay
  requests : List ReqFrame
  responses : List RespFrame
  rp : Rp2040
  staged : Option Bytes
  deriving DecidableEq, Repr

def Relay.init : Relay :=
  ⟨.idle,0,false,.begin,0,0,false,0,[],false,0,[],[],0,0,[],false⟩

def System.init (disk : Disk) (running : Bytes) : System :=
  ⟨.init,[],[],.powerOff disk running,none⟩

/-- One attempt of `xfer_send_req`. -/
def sendAttempt (y : System) (req : Request) (retried : Bool) : System :=
  let seq := y.relay.seq+1
  let index := y.relay.sentRequests+1
  { y with
    relay := { y.relay with
      place := .sending req retried, seq := seq, sig := false, respOp := req.op, respSeq := seq
      respResult := noResponse, armed := true, sentRequests := index }
    requests := y.requests ++ [⟨index,req.op,seq,req.payload⟩] }

def xferSendReq (y : System) (req : Request) : System := sendAttempt y req false

/-- The end of `relay_task`. -/
def finish (y : System) : System := { y with relay := { y.relay with place := .idle } }

def fail (y : System) : System := if y.relay.begun then xferSendReq y .abort else finish y

def sendChunk (y : System) : System :=
  xferSendReq y (.data y.relay.sent (y.relay.buf.take wupsFwXferChunk))

section Relay
variable (digest : Bytes → Bytes)

/-- The download loop after a chunk was taken: the rest of the read, the next read, or the
check of the stream digest and the commit. -/
def loopOn (y : System) : System :=
  if y.relay.buf ≠ [] then sendChunk y
  else if y.relay.sent < y.relay.imageLen then { y with relay := { y.relay with place := .reading } }
  else if digest y.relay.streamed = y.relay.shaExpected then xferSendReq y .commit
  else fail y

/-- `relay_task` with the result of `xfer_send_req`. -/
def answered (y : System) (req : Request) (r : UInt8) : System :=
  match req with
  | .begin _ _ =>
    if r ≠ xferOk then fail y
    else { y with relay := { y.relay with
      begun := true, place := .reading, sent := 0, buf := [], streamed := [], acked := [] } }
  | .data _ chunk =>
    if r ≠ xferOk then fail y
    else loopOn digest { y with relay := { y.relay with
      sent := y.relay.sent+chunk.length, buf := y.relay.buf.drop chunk.length
      acked := y.relay.acked ++ [chunk] } }
  | .commit =>
    if r ≠ xferOk then fail { y with relay := { y.relay with begun := false } }
    else { y with relay := { y.relay with place := .watching, observedOk := true } }
  | .abort => finish y

/-- `fw_ota_request` with target RP2040. -/
def fwOtaRequest (y : System) (imageLen : Nat) (sha : Bytes) : System :=
  if imageLen = 0 ∨ imageLen > fwRelayImageMax ∨ sha.length ≠ 32 then y
  else xferSendReq { y with relay := { y.relay with
    imageLen := imageLen, shaExpected := sha, begun := false, observedOk := false
    base := y.relay.sentRequests } } (.begin imageLen sha)

/-- `esp_http_client_read` in the download loop; nothing read ends the transfer. -/
def httpRead (y : System) (data : Bytes) : System :=
  let want := min (y.relay.imageLen-y.relay.sent) fwRelayHttpBuf
  let data := data.take want
  if data = [] then fail y
  else sendChunk { y with relay := { y.relay with buf := data, streamed := y.relay.streamed ++ data } }

def fwOtaXferOnResp (l : Relay) (f : RespFrame) : Relay :=
  if !l.armed || f.op ≠ l.respOp || f.seq ≠ l.respSeq then l
  else { l with respResult := f.result, armed := false, sig := true }

/-- The relay task where it is not waiting for anything outside. -/
def cpu (y : System) : System :=
  match y.relay.place with
  | .sending req _ => if y.relay.sig then answered digest { y with relay := { y.relay with sig := false } } req
      y.relay.respResult else y
  | .expired req retried =>
    let y := { y with relay := { y.relay with armed := false } }
    if retried then answered digest y req noResponse else sendAttempt y req true
  | _ => y

/-- The RP2040 takes the oldest request and answers it; off, it takes nothing. -/
def receive (y : System) (env : Env) : System :=
  match y.requests with
  | [] => y
  | f::rest =>
    if !y.rp.on then y
    else
      let handled := wupsOnRequest (ready y.rp env) f.op f.payload env
      { y with
        requests := rest
        responses := y.responses ++ [⟨f.index,f.op,f.seq,handled.2⟩]
        rp := handled.1
        staged := if handled.1.flash.disk.command = some (.copy .stage) then handled.1.flash.disk.stage
          else y.staged }

/-- What else happens to the RP2040: boots, other frames, ticks and power cuts. -/
def board (y : System) (input : FwUpdate.Event × Env) : System :=
  match input.1 with
  | .request _ _ => y
  | _ => { y with rp := (FwUpdate.step y.rp input).1 }

inductive Event where
  | request (imageLen : Nat) (sha : Bytes)
  | read (data : Bytes)
  | readFails
  | timeout
  | cpu
  | watched
  | receive (env : Env)
  | board (input : FwUpdate.Event × Env)
  | loseRequest (position : Nat)
  | loseResponse (position : Nat)
  | deliver
  deriving DecidableEq, Repr

def next (y : System) : Event → System
  | .request imageLen sha => if y.relay.place = .idle then fwOtaRequest y imageLen sha else y
  | .read data => if y.relay.place = .reading then httpRead y data else y
  | .readFails => if y.relay.place = .reading then fail y else y
  | .timeout =>
    match y.relay.place with
    | .sending req retried =>
      if y.relay.sig then y else { y with relay := { y.relay with place := .expired req retried } }
    | _ => y
  | .cpu => cpu digest y
  | .watched => if y.relay.place = .watching then finish y else y
  | .receive env => receive y env
  | .board input => board y input
  | .loseRequest position => { y with requests := y.requests.eraseIdx position }
  | .loseResponse position => { y with responses := y.responses.eraseIdx position }
  | .deliver =>
    match y.responses with
    | [] => y
    | f::rest => { y with responses := rest, relay := fwOtaXferOnResp y.relay f }

def step (y : System) (e : Event) : System × Unit := (next digest y e,())

end Relay
end Web3PiUps.FwRelay
