import Web3PiUps.Lib.Dialogue
import Web3PiUps.ModemAtText

/-! `modem_uart_baud.c` over the UART driver: the modem's rate is detected, its capabilities are
read, and where its saved rate is not the wanted one it is changed, verified or put back. -/
namespace Web3PiUps.ModemUartBaud
open WupsProtocol ModemAtText Tasks Code Dialogue

abbrev replySize : Nat := responseCapacity
abbrev atTimeoutMs : Nat := 1500
abbrev probeAtMs : Nat := 300
abbrev escapeGuardMs : Nat := 1100
abbrev intMax : Nat := 2^31-1

/-- 921600 is detected only. -/
def rates : List Nat := [115200,230400,921600]

def takeInteger (text : Bytes) : Option (Nat × Bytes) :=
  let text := trim text
  if text.head?.any isDigit then (takeDigits intMax 0 text).map fun (value,rest) => (value,trim rest)
  else none

/-- The value of the one `+IPR` line, which comes before the OK. -/
def iprLine (terminal : Bool) (found : Option Bytes) : List Bytes → Option Bytes
  | [] => found
  | line::rest =>
    let terminal := terminal || line = okLine
    let key := ascii "+IPR"
    if key.isPrefixOf line = false then iprLine terminal found rest
    else
      let value := line.drop key.length
      if value.head?.any (fun c => c ≠ colon && c ≠ space && c ≠ tab) then iprLine terminal found rest
      else
        match trim value with
        | [] => none
        | c::value => if terminal || found.isSome || c ≠ colon then none else iprLine terminal (some (trim value)) rest

def iprValue (response : Bytes) : Option Bytes :=
  if modemRadioResponseStatus response = .ok then iprLine false none (lines response) else none

def modemUartBaudParseIpr (response : Bytes) : Option Nat :=
  match (iprValue response).bind takeInteger with
  | some (value,[]) => some value
  | _ => none

theorem trimLe (text : Bytes) : (trim text).length ≤ text.length := by
  obtain ⟨before,after,same,-,-⟩ := trimSplit text
  have count := congrArg List.length same
  simp only [List.length_append] at count
  omega

theorem integerShorter {text rest : Bytes} {value : Nat} (h : takeInteger text = some (value,rest)) :
    rest.length < text.length := by
  unfold takeInteger at h
  simp only at h
  split at h
  · rename_i starts
    obtain ⟨⟨v,left⟩,taken,same⟩ := Option.map_eq_some_iff.mp h
    cases same
    obtain ⟨digits,parts,-,-,stops⟩ := takeDigitsReads taken
    have some_ : digits ≠ [] := by
      rintro rfl
      rw [parts] at starts
      simp [stops] at starts
    have positive := List.length_pos_iff.mpr some_
    have count := congrArg List.length parts
    have shorter := trimLe text
    have rest_ := trimLe left
    simp only [List.length_append] at count
    change (trim left).length < text.length
    omega
  · exact absurd h nofun

def openParen : UInt8 := 0x28
def closeParen : UInt8 := 0x29

/-- The rates up to the closing parenthesis: whether the target is among them, and what follows. -/
def rateList (target : Nat) (supported : Bool) (text : Bytes) : Option (Bool × Bytes) :=
  match _taken : takeInteger text with
  | none => none
  | some (_,[]) => none
  | some (rate,delimiter::rest) =>
    let supported := supported || rate = target
    if delimiter = closeParen then some (supported,trim rest)
    else if delimiter = comma then rateList target supported (trim rest)
    else none
termination_by text.length
decreasing_by
  have shorter := integerShorter ‹_›
  have trimmed := trimLe rest
  simp only [List.length_cons] at shorter
  omega

theorem rateListShorter {target : Nat} {supported found : Bool} {text rest : Bytes}
    (h : rateList target supported text = some (found,rest)) : rest.length < text.length := by
  fun_induction rateList target supported text with
  | case1 => exact absurd h nofun
  | case2 => exact absurd h nofun
  | case3 supported text rate more supported' taken =>
    obtain ⟨-,rfl⟩ := Prod.mk.inj (Option.some.inj h)
    have shorter := integerShorter taken
    have trimmed := trimLe more
    simp only [List.length_cons] at shorter
    omega
  | case4 supported text rate more supported' taken open_ ih =>
    have shorter := integerShorter taken
    have trimmed := trimLe more
    have later := ih h
    simp only [List.length_cons] at shorter
    omega
  | case5 => exact absurd h nofun

/-- What follows an opening parenthesis; a group may be empty. -/
def rateGroup (target : Nat) (supported : Bool) (text : Bytes) : Option (Bool × Bytes) :=
  if text.head? = some closeParen then some (supported,trim text.tail) else rateList target supported text

theorem rateGroupLe {target : Nat} {supported found : Bool} {text rest : Bytes}
    (h : rateGroup target supported text = some (found,rest)) : rest.length ≤ text.length := by
  unfold rateGroup at h
  split at h
  · cases h
    exact (trimLe _).trans (by rw [List.length_tail]; omega)
  · exact Nat.le_of_lt (rateListShorter h)

/-- Groups of rates in parentheses, between commas. -/
def rateGroups (target : Nat) (supported : Bool) (value : Bytes) : Bool :=
  match value with
  | [] => false
  | c::rest =>
    if c ≠ openParen then false
    else
      match _group : rateGroup target supported (trim rest) with
      | none => false
      | some (supported,[]) => supported
      | some (supported,d::more) => if d = comma then rateGroups target supported (trim more) else false
termination_by value.length
decreasing_by
  have shorter := rateGroupLe ‹_›
  have before := trimLe rest
  have after := trimLe more
  simp only [List.length_cons] at shorter ⊢
  omega

def modemUartBaudSupportsIpr (response : Bytes) (target : Nat) : Bool :=
  if target = 0 then false
  else
    match iprValue response with
    | none => false
    | some value => rateGroups target false value

/-- What one `uart_read_bytes` returns; no bytes when it times out. -/
inductive Read where
  | failed
  | bytes (chunk : Bytes)
  deriving DecidableEq, Repr

/-- A call of the driver. `listen` stands for the reads of one exchange, as many as the clock
allows before the deadline, and `window` for the rounds of one detection. -/
inductive Act where
  | install
  | paramConfig
  | setPin
  | delete
  | flushInput
  | write (data : Bytes)
  | listen (timeoutMs : Nat)
  | waitTxDone
  | setBaudrate (rate : Nat)
  | delay (ms : Nat)
  | window (windowMs : Nat)
  deriving DecidableEq, Repr

/-- Of each round of a detection, whether it starts past half of the window. -/
abbrev Ans : Act → Type
  | .install => Bool
  | .paramConfig => Bool
  | .setPin => Bool
  | .delete => Bool
  | .flushInput => Bool
  | .write _ => Int
  | .listen _ => List Read
  | .waitTxDone => Bool
  | .setBaudrate _ => Bool
  | .delay _ => Unit
  | .window _ => List Bool

abbrev History := Trace Ans
abbrev ask (a : Act) : Code Ans (Ans a) := call a

def openUart (config : Bool) : Code Ans Bool := do
  if config = false then pure false
  else if ← ask .install then
    if ← allOf [ask .paramConfig,ask .setPin] then pure true
    else do
      let _ ← ask .delete
      pure false
  else pure false

/-- The reply as it comes in, until it is complete, too long or an error. -/
def receive (response : Bytes) : List Read → Option Bytes
  | [] => none
  | .failed::_ => none
  | .bytes chunk::rest =>
    if chunk = [] then receive response rest
    else if response.length + chunk.length ≥ replySize then none
    else
      match modemRadioResponseStatus (response ++ chunk) with
      | .error => none
      | .ok => some (response ++ chunk)
      | .wait => receive (response ++ chunk) rest

def crlf : Bytes := [cr,lf]

def written (data : Bytes) : Code Ans Bool := do
  let count ← ask (.write data)
  pure (count = data.length)

def exchange (command : Bytes) (timeoutMs : Nat) : Code Ans (Option Bytes) := do
  if ← allOf [ask .flushInput,written command,written crlf] then
    let reads ← ask (.listen timeoutMs)
    pure (receive [] reads)
  else pure none

def setHostRate (rate : Nat) : Code Ans Bool := allOf [ask .waitTxDone,ask (.setBaudrate rate),ask .flushInput]

def escapeData : Code Ans Bool := do
  if ← ask .waitTxDone then
    let _ ← ask (.delay escapeGuardMs)
    let sent ← written (ascii "+++")
    let drained ← ask .waitTxDone
    let _ ← ask (.delay escapeGuardMs)
    allOf [pure sent,pure drained,ask .flushInput]
  else pure false

def at_ : Bytes := ascii "AT"

def answered (command : Bytes) (timeoutMs : Nat) : Code Ans Bool := do
  let response ← exchange command timeoutMs
  pure response.isSome

/-- One round over the rates, with or without an escape at each. -/
def scanRates (escape : Bool) : List Nat → Code Ans (Option Nat)
  | [] => pure none
  | rate::rest => do
    if ← allOf [setHostRate rate,if escape then escapeData else pure true,answered at_ probeAtMs] then pure (some rate)
    else scanRates escape rest

def scanRounds (repeatEscape : Bool) : List Bool → Code Ans (Option Nat)
  | [] => pure none
  | halfway::rest => do
    let escapeRound := repeatEscape && halfway
    match ← scanRates escapeRound rates with
    | some rate => pure (some rate)
    | none => do
      let _ ← ask (.delay 20)
      scanRounds (repeatEscape && !escapeRound) rest

def detectRate (windowMs : Nat) : Code Ans (Option Nat) := do
  match ← scanRates true rates with
  | some rate => pure (some rate)
  | none => do
    let rounds ← ask (.window windowMs)
    scanRounds (windowMs ≥ 10000) rounds

def query (command : Bytes) : Code Ans (Option Bytes) := exchange command atTimeoutMs

def iprQuery : Bytes := ascii "AT+IPR?"

def verifyRate (expected : Nat) : Code Ans Bool := do
  if ← answered at_ atTimeoutMs then
    let response ← query iprQuery
    pure (response.bind modemUartBaudParseIpr = some expected)
  else pure false

/-- `AT+IPR=%d`. -/
def iprCommand (rate : Nat) : Bytes := ascii "AT+IPR=" ++ (Nat.toDigits 10 rate).map Char.toUInt8

def changeRate (target : Nat) : Code Ans Bool := do
  -- a lost answer does not mean that nothing was changed
  let _ ← exchange (iprCommand target) atTimeoutMs
  if ← ask .waitTxDone then
    let _ ← ask (.delay 100)
    if ← setHostRate target then
      let _ ← ask (.delay 100)
      verifyRate target
    else pure false
  else pure false

def restoreRate (previous : Nat) : Code Ans Unit := do
  match ← detectRate 1500 with
  | none => pure ()
  | some detected =>
    let restored ← allOf [pure (detected = previous),verifyRate previous]
    if restored then pure ()
    else do
      let _ ← changeRate previous
      pure ()

def ipr : Bytes := ascii "AT+IPR=?"
def cgmr : Bytes := ascii "AT+CGMR"
def cmux : Bytes := ascii "AT+CMUX=?"

/-- The part of `modem_uart_baud_prepare` with the driver open. -/
def migrate (targetBaud : Nat) : Code Ans Bool := do
  match ← detectRate 1500 with
  | none => pure false
  | some detected =>
    let version ← query cgmr
    let response ← query iprQuery
    let saved := response.bind modemUartBaudParseIpr
    let list ← query ipr
    let supported := list.any (modemUartBaudSupportsIpr · targetBaud)
    let mux ← query cmux
    match saved with
    | none => pure false
    | some saved =>
      if !version.isSome || !supported || !mux.isSome then pure false
      else if saved = targetBaud then
        allOf [pure (detected = targetBaud),verifyRate targetBaud]
      else do
        let ready ← changeRate targetBaud
        if ready then pure true
        else do
          restoreRate detected
          pure false

def modemUartBaudPrepare (config : Bool) (targetBaud : Nat) : Code Ans Bool := do
  if targetBaud ≠ 115200 ∧ targetBaud ≠ 230400 then pure false
  else if ← openUart config then
    let ready ← migrate targetBaud
    let deleted ← ask .delete
    pure (ready && deleted)
  else pure false

def modemUartBaudProbe (config : Bool) (windowMs : Nat) : Code Ans Bool := do
  if ← openUart config then
    let detected ← detectRate windowMs
    let deleted ← ask .delete
    pure (deleted && detected.isSome)
  else pure false

end Web3PiUps.ModemUartBaud
