import Web3PiUps.HttpControlLoop
import Web3PiUps.Lib.JsonScan
import Web3PiUps.Lib.RecentMemory

/-! The signatures of the HTTP control mode: `sign_request`, `verify_response_sig` and `post_once` of
`http_backend.c` against `do_POST` of the reference server, byte for byte, over a network that hands
either side anything it likes. The MAC and the texts of the two JSON libraries are parameters; the
clocks count seconds. -/
namespace Web3PiUps.HttpAuth
open WupsProtocol (Bytes)
open JsonText (Json print decimal)
open HttpBackend (Backend Moment Event Reply Answer httpRespMax buildBody observeTelemetryFrame)
open HttpServer (State Settings Queued enqueue applyAcks takePending responseBody settle)

abbrev tsSkewToleranceS : Nat := 300
abbrev nonceCacheMax : Nat := 512
abbrev respSigMax : Nat := 65

structure Outside where
  /-- The lower-case digest under the key of both. -/
  mac : Bytes → Bytes
  readInt : Bytes → Option Int
  loads : Bytes → Option Json
  dumps : Json → Bytes
  number : Int → Bytes
  fits : Json → Bool
  parse : Bytes → Option Json

variable (x : Outside) (o : Settings)

def lower (text : Bytes) : Bytes := text.map fun b => if 0x41 ≤ b ∧ b ≤ 0x5A then b+0x20 else b

structure Request where
  ts : Bytes
  nonce : Bytes
  body : Bytes
  sig : Bytes

def Request.message (r : Request) : Bytes := r.ts ++ r.nonce ++ r.body

def verifySignature (r : Request) : Bool := x.mac r.message = lower r.sig

structure Web where
  state : State
  seenNonces : List Bytes

inductive Verdict where
  | badSignature
  | badTimestamp
  | staleTimestamp
  | replay
  | badJson
  /-- A value that is no object raises. -/
  | raised
  | served

/-- `do_POST` up to the first of its two turns at the queue, where it applies the acknowledgements. -/
def doPost (now : Nat) (w : Web) (r : Request) : Web × Verdict :=
  if !verifySignature x r then (w,.badSignature)
  else
    match x.readInt r.ts with
    | none => (w,.badTimestamp)
    | some ts =>
      if tsSkewToleranceS < ((now : Int)-ts).natAbs then (w,.staleTimestamp)
      else
        match RecentMemory.remember nonceCacheMax w.seenNonces r.nonce with
        | none => (w,.replay)
        | some seenNonces =>
          match x.loads r.body with
          | none => ({ w with seenNonces },.badJson)
          | some (.object fields) => (⟨applyAcks (.object fields) w.state,seenNonces⟩,.served)
          | some _ => ({ w with seenNonces },.raised)

def answerText (chosen : List Queued) : Bytes := x.dumps (responseBody chosen)

def hexWord (n : UInt32) : Bytes :=
  [n >>> 28,n >>> 24,n >>> 20,n >>> 16,n >>> 12,n >>> 8,n >>> 4,n].map fun (digit : UInt32) =>
    JsonText.hexDigit (digit &&& 0xF).toUInt8

/-- A POST as the device made it. -/
structure Post where
  ts : Int
  random : UInt32 × UInt32
  json : Json

def Post.nonce (p : Post) : Bytes := hexWord p.random.1 ++ hexWord p.random.2
def Post.text (p : Post) : Bytes := print x.number p.json

def Post.request (p : Post) : Request :=
  let ts := decimal p.ts
  ⟨ts,p.nonce,p.text x,x.mac (ts ++ p.nonce ++ p.text x)⟩

structure Response where
  status : Int
  body : Bytes
  sig : Bytes

def verifyResponseSig (nonce : Bytes) (a : Response) : Bool :=
  let provided := a.sig.take (respSigMax-1)
  provided ≠ [] && lower (x.mac (nonce ++ a.body)) = lower provided

def Response.answer (p : Post) (a : Response) : Answer :=
  ⟨a.status,a.body.length,x.parse a.body,verifyResponseSig x p.nonce a⟩

/-- A request that got past the memory of nonces. -/
structure Passed where
  at_ : Nat
  request : Request
  served : Bool

/-- An answer of the server and the nonce it is signed for. -/
structure Signed where
  nonce : Bytes
  chosen : List Queued

/-- `handling` has the nonces of the requests served whose answer the server still owes. -/
structure Link where
  web : Web
  handling : List Bytes
  device : Backend
  waiting : Option Post
  posted : List Post
  answers : List Signed
  passed : List Passed
  log : List Event
  now : Nat

def Link.boot : Link := ⟨⟨⟨[],1⟩,[]⟩,[],.boot,none,[],[],[],[],0⟩

/-- Every text that either side has put its MAC to. -/
def Link.signed (s : Link) : List Bytes :=
  s.posted.map (fun p => (p.request x).message) ++ s.answers.map fun a => a.nonce ++ answerText x a.chosen

inductive Act where
  | tick (later : Nat)
  | enqueue (cmd : Bytes) (args : Json)
  | observe (nowUs : Int) (frame : Bytes)
  | post (m : Moment) (ts : Int) (random : UInt32 × UInt32)
  | request (r : Request)
  | take (i : Nat)
  | answer (a : Response)
  | fail

def requested (s : Link) (r : Request) : Link :=
  let (web,verdict) := doPost x s.now s.web r
  let s := { s with web }
  match verdict with
  | .served => { s with handling := s.handling ++ [r.nonce], passed := s.passed ++ [⟨s.now,r,true⟩] }
  | .badJson | .raised => { s with passed := s.passed ++ [⟨s.now,r,false⟩] }
  | _ => s

/-- The second turn: what is taken of the queue, signed for the nonce of the request. -/
def tookPending (s : Link) (i : Nat) : Link :=
  match s.handling[i]? with
  | none => s
  | some nonce =>
    let (state,chosen) := takePending (fun j => (x.dumps j).length) o s.now s.web.state
    { s with
      web := { s.web with state }
      handling := s.handling.eraseIdx i
      answers := s.answers ++ [⟨nonce,chosen⟩] }

def settled (s : Link) (perform : Post → Option Answer) : Link :=
  match s.waiting with
  | none => s
  | some p =>
    let (device,events) := settle s.device p.json (perform p)
    { s with device, waiting := none, log := s.log ++ events }

def step (s : Link) : Act → Link
  | .tick later => { s with now := s.now+later }
  | .enqueue cmd args => { s with web := { s.web with state := enqueue s.web.state s.now cmd args } }
  | .observe nowUs frame =>
    { s with device := { s.device with slots := observeTelemetryFrame s.device.slots nowUs frame } }
  | .post m ts random =>
    if s.waiting.isSome then s
    else
      match buildBody x.fits s.device m with
      | none => s
      | some json => { s with posted := s.posted ++ [⟨ts,random,json⟩], waiting := some ⟨ts,random,json⟩ }
  | .request r => requested x s r
  | .take i => tookPending x o s i
  | .answer a => settled s fun p => some (a.answer x p)
  | .fail => settled s fun _ => none

/-- The network forges no MAC: what verifies was signed by one of the two. -/
def Unforged (s : Link) : Act → Prop
  | .request r => verifySignature x r → r.message ∈ s.signed x
  | .answer a => ∀ p, s.waiting = some p → verifyResponseSig x p.nonce a → p.nonce ++ a.body ∈ s.signed x
  | _ => True

inductive Reach : Link → Prop where
  | boot : Reach .boot
  | step {s : Link} {a : Act} (before : Reach s) (unforged : Unforged x s a) : Reach (step x o s a)

end Web3PiUps.HttpAuth
