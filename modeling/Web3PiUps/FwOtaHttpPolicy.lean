import Web3PiUps.ArkivEntity

/-! `firmware-ESP32-LTE-M/main/fw_ota_http_policy.c`, and of `fw_ota.c` the HTTP callback,
what it remembers of an attempt (`ota_http_diag_t`) and when a failure may be retried. -/
namespace Web3PiUps.FwOtaDownload
open WupsProtocol (Bytes ascii)

abbrev fwOtaMaxAttempts : Nat := 5
abbrev fwOtaResumeMin : Nat := 1024
abbrev uint32Max : Nat := 2^32-1

/-- `fw_ota_http_response_t`: the metadata of one response. -/
structure Response where
  status : Int
  invalid : Bool
  lengths : Nat
  ranges : Nat
  length : Nat
  first : Nat
  last : Nat
  total : Nat
  deriving DecidableEq, Repr

def Response.init (status : Int) : Response := ⟨status,false,0,0,0,0,0,0⟩

def skipSpace : Bytes → Bytes
  | [] => []
  | b::rest => if b = 0x20 ∨ b = 0x09 then skipSpace rest else b::rest

def isDigit (b : UInt8) : Bool := 0x30 ≤ b && b ≤ 0x39

def decimalFrom (n : Nat) : Bytes → Option (Nat × Bytes)
  | [] => some (n,[])
  | b::rest =>
    if !isDigit b then some (n,b::rest)
    else
      let d := b.toNat-0x30
      if n > (uint32Max-d)/10 then none else decimalFrom (n*10+d) rest

def decimal (p : Bytes) : Option (Nat × Bytes) := if isDigit (p.getD 0 0) then decimalFrom 0 p else none

def lowerCase (b : UInt8) : UInt8 := if 0x41 ≤ b ∧ b ≤ 0x5A then b+0x20 else b

def strcasecmp (a b : Bytes) : Bool := a.map lowerCase == b.map lowerCase

def reject (r : Response) : Response := { r with invalid := true }

/-- The end of `fw_ota_http_header`: nothing but blanks may follow. -/
def headerEnd (r : Response) (p : Bytes) : Response := if skipSpace p = [] then r else reject r

def contentLength (r : Response) (p : Bytes) : Response :=
  let r := { r with lengths := (r.lengths+1)%2^32 }
  if r.lengths ≠ 1 then reject r
  else
    match decimal p with
    | none => reject r
    | some (n,p) => headerEnd { r with length := n } p

def contentRange (r : Response) (p : Bytes) : Response :=
  let r := { r with ranges := (r.ranges+1)%2^32 }
  if r.ranges ≠ 1 ∨ p.take 6 ≠ ascii "bytes " then reject r
  else
    match decimal (p.drop 6) with
    | none => reject r
    | some (first,p) =>
      -- a field is written as soon as it is read
      let r := { r with first := first }
      if p.head? ≠ some 0x2D then reject r
      else
        match decimal p.tail with
        | none => reject r
        | some (last,p) =>
          let r := { r with last := last }
          if p.head? ≠ some 0x2F then reject r
          else
            match decimal p.tail with
            | none => reject r
            | some (total,p) => headerEnd { r with total := total } p

def contentEncoding (r : Response) (p : Bytes) : Response :=
  if !strcasecmp (p.take 8) (ascii "identity") then reject r else headerEnd r (p.drop 8)

/-- `none` is a null pointer. -/
def fwOtaHttpHeader (r : Response) (key value : Option Bytes) : Response :=
  match key,value with
  | some key,some value =>
    let p := skipSpace value
    if strcasecmp key (ascii "Content-Length") then contentLength r p
    else if strcasecmp key (ascii "Content-Range") then contentRange r p
    else if strcasecmp key (ascii "Content-Encoding") then contentEncoding r p
    else if strcasecmp key (ascii "Transfer-Encoding") then reject r
    else r
  | _,_ => reject r

def fwOtaHttpResponseValid (r : Response) (offset imageLen : Nat) : Bool :=
  if r.invalid ∨ imageLen = 0 ∨ offset ≥ imageLen ∨ r.lengths ≠ 1 ∨ r.length ≠ imageLen-offset then false
  else if offset = 0 then r.status == 200 && r.ranges == 0
  else decide (offset ≥ fwOtaResumeMin) && r.status == 206 && r.ranges == 1 && r.first == offset &&
    r.last == imageLen-1 && r.total == imageLen

def fwOtaHttpStatusRetryable (status : Int) : Bool :=
  status == 408 || status == 429 || status == 500 || status == 502 || status == 503 || status == 504

def fwOtaRetryDelayS (completedAttempts : Nat) : Nat :=
  if completedAttempts ≠ 0 ∧ completedAttempts < fwOtaMaxAttempts then
    [5,15,30,60].getD (completedAttempts-1) 0
  else 0

inductive EspErr where
  | ok
  | httpsOtaInProgress
  | httpConnect
  | httpConnecting
  | httpWriteData
  | httpFetchHeader
  | httpEagain
  | httpReadTimeout
  | httpConnectionClosed
  | httpIncompleteData
  | mbedtlsCertPartlyOk
  | mbedtlsX509CrtParseFailed
  | mbedtlsSslHandshakeFailed
  | other (code : Int)
  deriving DecidableEq, Repr

/-- `ota_http_diag_t`; of the client only whether there is one. -/
structure OtaHttpDiag where
  response : Response
  client : Bool
  requestedOffset : Nat
  rangeFallback : Bool
  socketErrno : Int
  tlsCode : Int
  tlsFlags : UInt32
  tlsError : EspErr
  deriving DecidableEq, Repr

def OtaHttpDiag.init (requestedOffset : Nat) : OtaHttpDiag :=
  ⟨.init 0,false,requestedOffset,false,0,0,0,.ok⟩

/-- What `esp_http_client_get_errno` and `.._get_and_clear_last_tls_error` answer. -/
structure Captured where
  socketError : Int
  error : EspErr
  code : Int
  flags : UInt32
  deriving DecidableEq, Repr

def otaHttpCapture (d : OtaHttpDiag) (c : Captured) : OtaHttpDiag :=
  if !d.client then d
  else
    let d := if c.socketError > 0 then { d with socketErrno := c.socketError } else d
    let d := if c.error ≠ .ok then { d with tlsError := c.error } else d
    let d := if c.code ≠ 0 then { d with tlsCode := c.code } else d
    { d with tlsFlags := d.tlsFlags ||| c.flags }

inductive HttpEvent where
  | onStatusCode (status : Int)
  | onHeader (key value : Option Bytes)
  | error (c : Captured)
  | disconnected (c : Captured)
  | other
  deriving DecidableEq, Repr

structure Callback where
  client : Bool
  event : HttpEvent
  deriving DecidableEq, Repr

/-- A server that answers with a whole body, or refuses the range, has rejected it. -/
def rejectsRange (offset : Nat) (status : Int) : Bool :=
  decide (offset ≠ 0) && (status == 200 || status == 416)

def otaHttpEvent (d : OtaHttpDiag) (e : Callback) : OtaHttpDiag :=
  let d := { d with client := e.client }
  match e.event with
  | .onStatusCode status =>
    let d := { d with response := .init status }
    if rejectsRange d.requestedOffset status then { d with rangeFallback := true } else d
  | .onHeader key value => { d with response := fwOtaHttpHeader d.response key value }
  | .error c => otaHttpCapture d c
  | .disconnected c => { otaHttpCapture d c with client := false }
  | .other => d

def otaHttpRetryable (err : EspErr) (d : OtaHttpDiag) : Bool :=
  if d.tlsFlags ≠ 0 ∨ d.tlsError = .mbedtlsCertPartlyOk ∨ d.tlsError = .mbedtlsX509CrtParseFailed ∨
      d.tlsError = .mbedtlsSslHandshakeFailed then false
  else if d.response.status ≥ 400 then fwOtaHttpStatusRetryable d.response.status
  else
    match err with
    | .httpConnect | .httpConnecting | .httpWriteData | .httpFetchHeader | .httpEagain
    | .httpReadTimeout | .httpConnectionClosed | .httpIncompleteData => true
    | _ => false

/-! The responses behind the callbacks: redirects and repeated requests before the last one. -/

structure HttpResponse where
  status : Int
  headers : List (Option Bytes × Option Bytes)
  deriving DecidableEq, Repr

def HttpResponse.metadata (r : HttpResponse) : Response :=
  r.headers.foldl (fun m h => fwOtaHttpHeader m h.1 h.2) (.init r.status)

/-- `final` is the response whose body follows; before the first status it is empty. -/
structure Exchange where
  earlier : List HttpResponse
  final : HttpResponse
  deriving DecidableEq, Repr

def Exchange.init : Exchange := ⟨[],⟨0,[]⟩⟩

def Exchange.next (x : Exchange) (e : Callback) : Exchange :=
  match e.event with
  | .onStatusCode status => ⟨x.earlier ++ [x.final],⟨status,[]⟩⟩
  | .onHeader key value => { x with final := { x.final with headers := x.final.headers ++ [(key,value)] } }
  | _ => x

def exchange (callbacks : List Callback) : Exchange := callbacks.foldl Exchange.next .init

def Exchange.responses (x : Exchange) : List HttpResponse := x.earlier ++ [x.final]

/-- Where in the image the body of an accepted response starts. -/
def Response.bodyStart (r : Response) : Nat := if r.status = 206 then r.first else 0

/-- What the callback has to hold of the responses of an attempt. -/
structure Remembers (d : OtaHttpDiag) (offset : Nat) (x : Exchange) : Prop where
  requested : d.requestedOffset = offset
  response : d.response = x.final.metadata
  fallback : d.rangeFallback = x.responses.any fun r => rejectsRange offset r.status

theorem rejectsNothing (offset : Nat) : rejectsRange offset 0 = false := by
  simp [rejectsRange]

theorem remembersInit (offset : Nat) : Remembers (.init offset) offset .init :=
  ⟨rfl,rfl,by simp [OtaHttpDiag.init,Exchange.init,Exchange.responses,rejectsNothing]⟩

@[simp] theorem captureOffset (d : OtaHttpDiag) (c : Captured) :
    (otaHttpCapture d c).requestedOffset = d.requestedOffset := by
  unfold otaHttpCapture; split_ifs <;> rfl

@[simp] theorem captureResponse (d : OtaHttpDiag) (c : Captured) :
    (otaHttpCapture d c).response = d.response := by
  unfold otaHttpCapture; split_ifs <;> rfl

@[simp] theorem captureFallback (d : OtaHttpDiag) (c : Captured) :
    (otaHttpCapture d c).rangeFallback = d.rangeFallback := by
  unfold otaHttpCapture; split_ifs <;> rfl

theorem Remembers.event {d : OtaHttpDiag} {offset : Nat} {x : Exchange} (r : Remembers d offset x)
    (e : Callback) : Remembers (otaHttpEvent d e) offset (x.next e) := by
  obtain ⟨client,event⟩ := e
  cases event with
  | onStatusCode status =>
    have before := r.fallback
    simp only [Exchange.responses,List.any_append,List.any_cons,List.any_nil,Bool.or_false] at before
    refine ⟨?_,?_,?_⟩
    · simp only [otaHttpEvent]
      split_ifs <;> exact r.requested
    · simp only [otaHttpEvent,Exchange.next]
      split_ifs <;> rfl
    · simp only [otaHttpEvent,Exchange.next,Exchange.responses,r.requested,List.any_append,List.any_cons,
        List.any_nil,Bool.or_false]
      cases rejects : rejectsRange offset status <;> simp [before]
  | onHeader key value =>
    have final := r.response
    refine ⟨r.requested,?_,?_⟩
    · simp [otaHttpEvent,Exchange.next,HttpResponse.metadata,final]
    · simpa [otaHttpEvent,Exchange.next,Exchange.responses] using r.fallback
  | error c =>
    exact ⟨by simp [otaHttpEvent,r.requested],by simpa [otaHttpEvent,Exchange.next] using r.response,
      by simpa [otaHttpEvent,Exchange.next] using r.fallback⟩
  | disconnected c =>
    exact ⟨by simp [otaHttpEvent,r.requested],by simpa [otaHttpEvent,Exchange.next] using r.response,
      by simpa [otaHttpEvent,Exchange.next] using r.fallback⟩
  | other => exact ⟨r.requested,r.response,r.fallback⟩

/-- After the callbacks of a request the record is that of its final response, and the
fallback is set exactly when one of the responses rejected the range. -/
theorem remembers (offset : Nat) (callbacks : List Callback) :
    Remembers (callbacks.foldl otaHttpEvent (.init offset)) offset (exchange callbacks) := by
  suffices all : ∀ d x, Remembers d offset x →
      Remembers (callbacks.foldl otaHttpEvent d) offset (callbacks.foldl Exchange.next x) from
    all _ _ (remembersInit offset)
  induction callbacks with
  | nil => exact fun _ _ r => r
  | cons e rest ih => exact fun d x r => ih _ _ (r.event e)

structure Fitting (r : Response) (offset imageLen : Nat) : Prop where
  inside : offset < imageLen
  length : r.length = imageLen-offset
  start : r.bodyStart = offset

theorem validFits {r : Response} {offset imageLen : Nat}
    (valid : fwOtaHttpResponseValid r offset imageLen = true) : Fitting r offset imageLen := by
  unfold fwOtaHttpResponseValid at valid
  split_ifs at valid with bad zero
  · simp only [not_or] at bad
    simp only [Bool.and_eq_true,beq_iff_eq] at valid
    refine ⟨by omega,by omega,?_⟩
    rw [Response.bodyStart,if_neg (by omega),zero]
  · simp only [not_or] at bad
    simp only [Bool.and_eq_true,beq_iff_eq] at valid
    refine ⟨by omega,by omega,?_⟩
    rw [Response.bodyStart,if_pos (by omega)]
    omega

theorem delayBelow {attempt : Nat} (delay : fwOtaRetryDelayS attempt ≠ 0) : attempt < fwOtaMaxAttempts := by
  by_contra last
  exact delay (if_neg fun both => last both.2)
end Web3PiUps.FwOtaDownload
