import Web3PiUps.HttpServer
import Web3PiUps.Lib.WorkedQueue

/-! The device of `http_backend.c` and the reference server, with a network between them that loses,
delays, repeats and reorders the POSTs and answers with anything but the signature of a request.
What one side prints, the other parses to the same value. -/
namespace Web3PiUps.HttpServer
open WupsProtocol (Bytes ascii)
open JsonText (Json)
open HttpBackend (Backend Moment Event Answer Reply Exchange accepted handleResponse httpRespMax buildBody postOnce
  bodyAcks observeTelemetryFrame)

/-- What `post_once` does with what it gets for the body. -/
def settle (b : Backend) (body : Json) : Option Answer → Backend × List Event
  | none => (b,[.posted body none])
  | some a =>
    if a.status < 200 ∨ 300 ≤ a.status then (b,[.posted body none])
    else if a.reply.total > httpRespMax-1 then
      ({ accepted b with respDropped := some (UInt32.ofNat a.reply.total) },[.posted body (some [])])
    else
      let (b,done) := handleResponse (accepted b) a.reply
      (b,.posted body (some a.reply.named) :: done)

inductive Outcome where
  | acked
  | rejected
  | expired
  deriving DecidableEq, Repr

/-- `waiting` is the place among the POSTs of the one the device waits on. The server has a thread for
each request, which takes the lock once to apply the acknowledgements and once to take what it
answers; `handling` names the POSTs of those in between, and a reply the POST whose nonce it is
signed for. `issued` is every command of the terminal, `left` what the server
has let go. -/
structure System where
  server : State
  device : Backend
  waiting : Option Nat
  posted : List Json
  handling : List Nat
  replies : List (Nat × List Queued)
  log : List Event
  now : Nat
  issued : List Queued
  left : List (Queued × Outcome)

def System.boot : System := ⟨⟨[],1⟩,.boot,none,[],[],[],[],0,[],[]⟩

inductive Act where
  | tick (later : Nat)
  | enqueue (cmd : Bytes) (args : Json)
  | observe (nowUs : Int) (frame : Bytes)
  | post (m : Moment)
  | arrive (k : Nat)
  | take (i : Nat)
  | deliver (j : Nat)
  /-- Any answer without a signature for the request. -/
  | forge (status : Int) (total : Nat) (root : Option Json)
  | fail

section
variable (dumped : Json → Nat) (fits : Json → Bool) (o : Settings)

def arrived (s : System) (k : Nat) (body : Json) : System :=
  let unacked := cleared (bodyAcks body) s.server
  { s with
    server := applyAcks body s.server
    handling := s.handling ++ [k]
    left := s.left ++
      ((s.server.commands.filter fun c => (bodyAcks body).contains c.id).map fun c => (c,.acked)) ++
      ((unacked.commands.filter fun c => (bodyRejected body).any fun r => hits r c).map fun c => (c,.rejected)) }

def tookPending (s : System) (i k : Nat) : System :=
  let (server,chosen) := takePending dumped o s.now s.server
  { s with
    server
    handling := s.handling.eraseIdx i
    replies := s.replies ++ [(k,chosen)]
    left := s.left ++
      ((s.server.commands.filter fun c => 0 < o.cmdMaxAge ∧ o.cmdMaxAge < s.now-c.queuedAt).map fun c => (c,.expired)) }

def answered (s : System) (perform : Option Answer) : System :=
  match s.waiting with
  | none => s
  | some k =>
    let (device,events) := settle s.device (s.posted.getD k .null) perform
    { s with device, waiting := none, log := s.log ++ events }

/-- The signed answer of the server. -/
def signedAnswer (chosen : List Queued) : Answer := ⟨200,dumped (responseBody chosen),some (responseBody chosen),true⟩

def step (s : System) : Act → System
  | .tick later => { s with now := s.now+later }
  | .enqueue cmd args =>
    { s with
      server := HttpServer.enqueue s.server s.now cmd args
      issued := s.issued ++ [⟨commandId s.server.nextId,cmd,args,s.now⟩] }
  | .observe nowUs frame =>
    { s with device := { s.device with slots := observeTelemetryFrame s.device.slots nowUs frame } }
  | .post m =>
    if s.waiting.isSome then s
    else
      match buildBody fits s.device m with
      | none => s
      | some body => { s with posted := s.posted ++ [body], waiting := some s.posted.length }
  | .arrive k =>
    match s.posted[k]? with
    | none => s
    | some body => arrived s k body
  | .take i =>
    match s.handling[i]? with
    | none => s
    | some k => tookPending dumped o s i k
  | .deliver j =>
    match s.replies[j]? with
    | some (k,chosen) => if s.waiting = some k then answered s (some (signedAnswer dumped chosen)) else s
    | none => s
  | .forge status total root => answered s (some ⟨status,total,root,false⟩)
  | .fail => answered s none

def run (acts : List Act) : System := acts.foldl (step dumped fits o) .boot

theorem runConcat (acts : List Act) (a : Act) :
    run dumped fits o (acts ++ [a]) = step dumped fits o (run dumped fits o acts) a := by
  simp only [run,List.foldl_append,List.foldl_cons,List.foldl_nil]

end

end Web3PiUps.HttpServer
