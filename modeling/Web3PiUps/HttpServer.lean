import Web3PiUps.HttpAtMostOnce

/-! The queue of the reference server `examples/http-control-server/server.py`. The length of what
`json.dumps` gives is a parameter; the clock counts in a unit of its own. -/
namespace Web3PiUps.HttpServer
open WupsProtocol (Bytes ascii)
open JsonText (Json)
open HttpBackend (getObjectItem bodyAcks bodyFields Backend Moment Rejected Field num powerTelemetry hostTelemetry
  netTelemetry takeSlot rejectedItem rejectedFields droppedFields findAcks)

abbrev deviceResponseMaxBytes : Nat := 2047
abbrev deviceIdMaxChars : Nat := 47

structure Queued where
  id : Bytes
  cmd : Bytes
  args : Json
  queuedAt : Nat

structure Settings where
  maxCommands : Nat
  cmdMaxAge : Nat

structure State where
  commands : List Queued
  nextId : Nat

/-- `c-` and the number, with at least four digits. -/
def commandId (n : Nat) : Bytes :=
  ascii "c-" ++ ((Nat.toDigits 10 n).leftpad 4 '0').map Char.toUInt8

def enqueue (s : State) (now : Nat) (cmd : Bytes) (args : Json) : State :=
  ⟨s.commands ++ [⟨commandId s.nextId,cmd,args,now⟩],s.nextId+1⟩

def wire (c : Queued) : Json := .object [(ascii "id",.string c.id),(ascii "cmd",.string c.cmd),(ascii "args",c.args)]

def responseBody (chosen : List Queued) : Json := .object [(ascii "commands",.array (chosen.map wire))]

section
variable (dumped : Json → Nat) (o : Settings)

/-- Expires what has been queued for too long. -/
def expire (now : Nat) (s : State) : State :=
  if 0 < o.cmdMaxAge then { s with commands := s.commands.filter fun c => now-c.queuedAt ≤ o.cmdMaxAge } else s

/-- The first `n`, less what does not fit of them. -/
def trim (maxBytes : Nat) (chosen : List Queued) : Nat → List Queued
  | 0 => []
  | n+1 => if maxBytes < dumped (responseBody (chosen.take (n+1))) then trim maxBytes chosen n else chosen.take (n+1)

/-- What one answer hands out of the queue; without a limit that is all of it, however long. -/
def handOut (commands : List Queued) : List Queued :=
  if o.maxCommands = 0 then commands
  else trim dumped deviceResponseMaxBytes commands (min o.maxCommands commands.length)

def takePending (now : Nat) (s : State) : State × List Queued :=
  let s := expire o now s
  (s,handOut dumped o s.commands)

end

/-- What the body says of rejected commands. -/
def bodyRejected (body : Json) : List (Bytes × Bytes) :=
  match getObjectItem (some body) "rejected" with
  | some (.array items) => items.filterMap fun item =>
    match getObjectItem (some item) "id",getObjectItem (some item) "reason" with
    | some (.string id),some (.string reason) => some (id,reason)
    | some (.string id),_ => some (id,[])
    | _,_ => none
  | _ => []

/-- An over-long id is reported by its first characters. -/
def hits (r : Bytes × Bytes) (c : Queued) : Bool :=
  c.id = r.1 || (r.2 = ascii "bad_id" && r.1.length = deviceIdMaxChars && r.1.isPrefixOf c.id)

def cleared (acks : List Bytes) (s : State) : State := { s with commands := s.commands.filter fun c => !acks.contains c.id }

def dropped (rejected : List (Bytes × Bytes)) (s : State) : State :=
  { s with commands := s.commands.filter fun c => !rejected.any fun r => hits r c }

def applyAcks (body : Json) (s : State) : State := dropped (bodyRejected body) (cleared (bodyAcks body) s)

end Web3PiUps.HttpServer
