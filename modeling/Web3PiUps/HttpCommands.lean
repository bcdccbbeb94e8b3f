import Web3PiUps.HttpBody
import Web3PiUps.WupsWholeBuffer

/-! The command bookkeeping of `http_backend.c`: the queues of acknowledgements and
rejections, the ring of executed ids, `handle_response` and `post_once`. The verdict of
`verify_response_sig` and the value cJSON parses are part of the reply; a number of it stands
for its `valueint`. -/
namespace Web3PiUps.HttpBackend
open WupsProtocol (Bytes wupsMaxPayload wupsMaxFrame wupsAddrRpi wupsAddrBroadcast lenLow lenHigh ascii)
open WupsWholeBuffer (encodeFrame)
open JsonText (Json)

abbrev wupsClassUi : UInt8 := 0x05
abbrev wupsOpPwrCycle : UInt8 := 0x04
abbrev wupsOpHostShutdown : UInt8 := 0x02
abbrev wupsOpHostReset : UInt8 := 0x03
abbrev wupsOpUiBeep : UInt8 := 0x03
abbrev wupsOpUiDisplayMsg : UInt8 := 0x04
abbrev wupsFlagReq : UInt8 := 0x01

def getObjectItem (json : Option Json) (key : String) : Option Json :=
  match json with
  | some (.object fields) => (fields.find? fun field => decide (field.1 = ascii key)).map Prod.snd
  | _ => none

def execSeen (b : Backend) (id : Bytes) : Bool := b.executed.any fun entry => entry ≠ [] ∧ entry = id

def execAdd (b : Backend) (id : Bytes) : Backend :=
  { b with executed := b.executed.set b.execIdx id, execIdx := (b.execIdx+1) % execRingMax }

/-- What left the device, with the ids a verified reply names, and what a full queue lost. -/
inductive Event where
  | posted (body : Json) (answer : Option (List Bytes))
  | dispatched (id payload : Bytes)
  | droppedOldest (id : Bytes)

def ackAdd (b : Backend) (id : Bytes) : Backend × List Event :=
  if id ∈ b.pending then (b,[])
  else if ackPendingMax ≤ b.pending.length then
    ({ b with pending := b.pending.drop 1 ++ [id] },(b.pending.take 1).map .droppedOldest)
  else ({ b with pending := b.pending ++ [id] },[])

def ackDropFront (b : Backend) (n : Nat) : Backend := { b with pending := b.pending.drop n }

/-- The first entry of the id gets the reason. -/
def refreshReason (id : Bytes) (reason : Reason) : List Rejected → List Rejected
  | [] => []
  | r :: rest => if r.id = id then { r with reason } :: rest else r :: refreshReason id reason rest

def rejAdd (b : Backend) (id : Bytes) (reason : Reason) : Backend :=
  let tid := id.take (ackIdMax-1)
  if b.rejected.any (fun r => r.id = tid) then
    { b with rejected := refreshReason tid reason b.rejected }
  else if rejMax ≤ b.rejected.length then { b with rejected := b.rejected.drop 1 ++ [⟨tid,reason⟩] }
  else { b with rejected := b.rejected ++ [⟨tid,reason⟩] }

def rejDropFront (b : Backend) (n : Nat) : Backend := { b with rejected := b.rejected.drop n }

def jsonInt (obj : Option Json) (key : String) (dflt : Int) : Int :=
  match getObjectItem obj key with
  | some (.number valueint) => valueint
  | _ => dflt

def clamp (value limit : Int) : Nat := (min (max value 0) limit).toNat

def word (n : Nat) : Bytes := [lenLow n,lenHigh n]

def buildCmdPayload (cmd : Bytes) (args : Option Json) : Option (UInt8 × UInt8 × Bytes) :=
  if cmd = ascii "host.shutdown" ∨ cmd = ascii "host.reset" then
    let delayS := clamp (jsonInt args "delay_s" 5) 0xFFFF
    some (wupsClassHost,if cmd.getD 5 0 = 0x73 then wupsOpHostShutdown else wupsOpHostReset,[1,2] ++ word delayS)
  else if cmd = ascii "power.cycle" then
    some (wupsClassPower,wupsOpPwrCycle,[1,0] ++ word (clamp (jsonInt args "off_ms" 1500) 60000))
  else if cmd = ascii "ui.beep" then
    some (wupsClassUi,wupsOpUiBeep,[1,0] ++ word (clamp (jsonInt args "freq_hz" 0) 0xFFFF) ++
      word (clamp (jsonInt args "dur_ms" 0) 0xFFFF))
  else if cmd = ascii "ui.display_msg" then
    let text := match getObjectItem args "text" with
      | some (.string valuestring) => valuestring.take 64
      | _ => []
    let line := clamp (jsonInt args "line" 0) 0xFF
    some (wupsClassUi,wupsOpUiDisplayMsg,[1,UInt8.ofNat line,UInt8.ofNat text.length,0] ++ text)
  else none

def cmdKnown (cmd : Bytes) : Bool :=
  cmd ∈ ["host.shutdown","host.reset","power.cycle","ui.beep","ui.display_msg"].map ascii

/-- The payload of the net.downlink that carries the frame, when one is sent. -/
def dispatchCommand (b : Backend) (cmd : Bytes) (args : Option Json) : Backend × Option Bytes :=
  match buildCmdPayload cmd args with
  | none => (b,none)
  | some (cls,op,payload) =>
    let inner := encodeFrame wupsMaxFrame wupsAddrBroadcast wupsAddrRpi cls op wupsFlagReq b.cmdSeq payload
    let b := { b with cmdSeq := b.cmdSeq+1 }
    if inner = [] then (b,none)
    else
      let topic := ascii "http"
      let buf := [1,0,0,UInt8.ofNat topic.length] ++ word inner.length ++ topic ++ inner
      if buf.length > wupsMaxPayload then (b,none) else (b,some buf)

/-! `handle_response`. -/

def idOf (c : Json) : Bytes :=
  match getObjectItem (some c) "id" with
  | some (.string valuestring) => valuestring
  | _ => []

def handleCommand (b : Backend) (c : Json) : Backend × List Event :=
  let id := idOf c
  if id.length = 0 ∨ ackIdMax ≤ id.length then (rejAdd b id .badId,[])
  else if execSeen b id then ackAdd b id
  else
    match getObjectItem (some c) "cmd" with
    | some (.string cmd) =>
      if !cmdKnown cmd then (rejAdd b id .unsupportedCmd,[])
      else
        match dispatchCommand b cmd (getObjectItem (some c) "args") with
        | (b,some payload) =>
          let (b,lost) := ackAdd (execAdd b id) id
          (b,.dispatched id payload :: lost)
        | (b,none) => (rejAdd b id .badArgs,[])
    | _ => (rejAdd b id .badArgs,[])

def handleCommands (b : Backend) : List Json → Backend × List Event
  | [] => (b,[])
  | c :: rest =>
    let (b,done) := handleCommand b c
    let (b,later) := handleCommands b rest
    (b,done ++ later)

/-- A 2xx reply: the bytes received, what they parse to and whether its signature holds. -/
structure Reply where
  total : Nat
  root : Option Json
  signed : Bool

def Reply.commands (r : Reply) : List Json :=
  match getObjectItem r.root "commands" with
  | some (.array items) => items
  | _ => []

def handleResponse (b : Backend) (r : Reply) : Backend × List Event :=
  if r.total = 0 ∨ r.root.isNone then (b,[])
  else if 0 < r.commands.length ∧ !r.signed then (b,[])
  else handleCommands b (r.commands.take cmdsPerRespMax)

/-- The ids that reach the loop, and those past its limit. -/
def Reply.named (r : Reply) : List Bytes := if r.signed then r.commands.map idOf else []

/-! `post_once`. -/

structure Answer where
  status : Int
  reply : Reply

/-- `ready` stands for the endpoint, the device id and the secret, `client` for the HTTP
client; an `esp_http_client_perform` that fails has no answer. -/
structure Exchange where
  ready : Bool
  client : Bool
  perform : Option Answer

def accepted (b : Backend) : Backend :=
  { rejDropFront (ackDropFront b b.pending.length) b.rejected.length with respDropped := none }

def postOnce (fits : Json → Bool) (b : Backend) (m : Moment) (x : Exchange) : Backend × List Event :=
  if !x.ready then (b,[])
  else
    match buildBody fits b m with
    | none => (b,[])
    | some body =>
      if !x.client then (b,[])
      else
        match x.perform with
        | none => (b,[.posted body none])
        | some a =>
          if a.status < 200 ∨ 300 ≤ a.status then (b,[.posted body none])
          else if a.reply.total > httpRespMax-1 then
            ({ accepted b with respDropped := some (UInt32.ofNat a.reply.total) },[.posted body (some [])])
          else
            let (b,done) := handleResponse (accepted b) a.reply
            (b,.posted body (some a.reply.named) :: done)

inductive Input where
  | observe (nowUs : Int) (frame : Bytes)
  | post (m : Moment) (x : Exchange)

def step (fits : Json → Bool) (b : Backend) : Input → Backend × List Event
  | .observe nowUs frame => ({ b with slots := observeTelemetryFrame b.slots nowUs frame },[])
  | .post m x => postOnce fits b m x

/-- The backend and everything it did, the latest last. -/
def advance (fits : Json → Bool) (r : Backend × List Event) (i : Input) : Backend × List Event :=
  ((step fits r.1 i).1,r.2 ++ (step fits r.1 i).2)

def run (fits : Json → Bool) (inputs : List Input) : Backend × List Event :=
  inputs.foldl (advance fits) (.boot,[])

theorem runConcat (fits : Json → Bool) (a : List Input) (i : Input) :
    run fits (a ++ [i]) = advance fits (run fits a) i := by
  simp only [run,List.foldl_append,List.foldl_cons,List.foldl_nil]

/-- The acknowledgements a body carries. -/
def bodyAcks (body : Json) : List Bytes :=
  match getObjectItem (some body) "acks" with
  | some (.array items) => items.filterMap fun item =>
    match item with
    | .string id => some id
    | _ => none
  | _ => []

end Web3PiUps.HttpBackend
