import Mathlib.Data.List.Infix
import Web3PiUps.ModemUartBaud

/-! The baud migration is verified or undone, for every modem and every result of the driver. -/
namespace Web3PiUps.ModemUartBaud
open WupsProtocol ModemAtText Tasks Code Dialogue

def setsRate (rate : Nat) : ((a : Act) × Ans a) → Nat
  | ⟨.paramConfig,true⟩ => 115200
  | ⟨.setBaudrate r,true⟩ => r
  | _ => rate

/-- The rate of the host's UART. -/
def hostRate (past : History) : Nat := past.foldl setsRate 0

/-- `AT+IPR=` with a rate, not the query. -/
def iprWrite (data : Bytes) : Bool := (ascii "AT+IPR=").isPrefixOf data && data ≠ ipr

def iprWriteOf : ((a : Act) × Ans a) → Option Bytes
  | ⟨.write data,_⟩ => if iprWrite data then some data else none
  | _ => none

def iprWrites (past : History) : List Bytes := past.filterMap iprWriteOf

/-- A whole exchange: the command was written, and the text is its complete OK reply. -/
def Exchanged (past : History) (command text : Bytes) (past' : History) : Prop :=
  ∃ timeoutMs reads, past' = past ++ [⟨.flushInput,true⟩,⟨.write command,(command.length : Int)⟩,
    ⟨.write crlf,(crlf.length : Int)⟩,⟨.listen timeoutMs,reads⟩] ∧ receive [] reads = some text

/-- An OK to AT and then the saved rate, read by a host at that rate. -/
def Verified (rate : Nat) (past past' : History) : Prop :=
  hostRate past = rate ∧ ∃ middle ok text, Exchanged past at_ ok middle ∧ Exchanged middle iprQuery text past' ∧
    modemUartBaudParseIpr text = some rate

/-- AT was answered at the detected rate, and after it the four queries, as a migration needs it. -/
def Capable (targetBaud detected : Nat) (past : History) : Prop :=
  ∃ (h0 h1 h2 h3 h4 h5 later : History) (ok version saved list mux : Bytes),
    Exchanged h0 at_ ok h1 ∧ Exchanged h1 cgmr version h2 ∧ Exchanged h2 iprQuery saved h3 ∧
      Exchanged h3 ipr list h4 ∧ Exchanged h4 cmux mux h5 ∧ past = h5 ++ later ∧ hostRate h0 = detected ∧
        (modemUartBaudParseIpr saved).isSome ∧ modemUartBaudSupportsIpr list targetBaud = true

/-- The command was just written, to its end. -/
def Asked (past : History) (command : Bytes) : Prop :=
  ∃ before, past = before ++ [⟨.write command,(command.length : Int)⟩,⟨.write crlf,(crlf.length : Int)⟩]

/-- The chunks make up the reply, which its own OK line completes. -/
def Replied (reads : List Read) (reply : Bytes) : Prop :=
  (∃ (chunks : List Bytes) (more : List Read), reads = chunks.map .bytes ++ more ∧ chunks.flatten = reply) ∧
    modemRadioResponseStatus reply = .ok ∧ ∀ part, part <+: reply → part ≠ reply → modemRadioResponseStatus part ≠ .ok

def Works : (a : Act) → Ans a → Prop
  | .install, ok => ok = true
  | .paramConfig, ok => ok = true
  | .setPin, ok => ok = true
  | .delete, ok => ok = true
  | .flushInput, ok => ok = true
  | .write data, count => count = data.length
  | .listen _, reads => .failed ∉ reads
  | .waitTxDone, ok => ok = true
  | .setBaudrate _, ok => ok = true
  | .delay _, _ => True
  | .window _, _ => True

/-- A modem at the rate `rate`, after any history: no call of the driver fails, AT is answered
at its rate within 300 ms, a rate written may be taken, refused or ignored, except that the rate
it started with is taken back and, there, read back truly. -/
structure Cooperative (peer : Peer Ans) (rate : History → Nat) : Prop where
  starts : rate [] ∈ rates
  works : ∀ past a, Works a (peer past a)
  steady : ∀ past a, (∀ timeoutMs command, a = .listen timeoutMs → Asked past command → iprWrite command = false) →
    rate (past ++ [⟨a,peer past a⟩]) = rate past
  deaf : ∀ past timeoutMs, hostRate past ≠ rate past → receive [] (peer past (.listen timeoutMs)) = none
  answers : ∀ past timeoutMs, Asked past at_ → hostRate past = rate past → 300 ≤ timeoutMs →
    ∃ reply, Replied (peer past (.listen timeoutMs)) reply
  switches : ∀ past timeoutMs r, Asked past (iprCommand r) →
    rate (past ++ [⟨.listen timeoutMs,peer past (.listen timeoutMs)⟩]) = rate past ∨
      hostRate past = rate past ∧ rate (past ++ [⟨.listen timeoutMs,peer past (.listen timeoutMs)⟩]) = r
  obeys : ∀ past timeoutMs, Asked past (iprCommand (rate [])) → hostRate past = rate past →
    rate (past ++ [⟨.listen timeoutMs,peer past (.listen timeoutMs)⟩]) = rate []
  truthful : ∀ past, Asked past iprQuery → hostRate past = rate past → rate past = rate [] →
    ∃ reply, Replied (peer past (.listen atTimeoutMs)) reply ∧ modemUartBaudParseIpr reply = some (rate [])

/-- A whole conversation, and what `modem_uart_baud_prepare` returns at its end. -/
structure Migration (peer : Peer Ans) (targetBaud : Nat) (said : History × Bool) : Prop where
  writes : ∃ detected, List.Sublist (iprWrites said.1) [iprCommand targetBaud,iprCommand detected] ∧
    ∀ (before : History) data r after, said.1 = before ++ ⟨.write data,r⟩::after → iprWrite data = true →
      Capable targetBaud detected before
  verified : said.2 = true → ∃ past past', Verified targetBaud past past' ∧ said.1 = past' ++ [⟨.delete,true⟩]
  undone : ∀ rate, Cooperative peer rate → said.2 = false → rate said.1 = rate [] ∧
    (iprWrites said.1 ≠ [] → ∃ past past', Verified (rate []) past past' ∧ said.1 = past' ++ [⟨.delete,true⟩])

theorem receiveParts {reply : Bytes} (ok : modemRadioResponseStatus reply = .ok)
    (whole : ∀ part, part <+: reply → part ≠ reply → modemRadioResponseStatus part ≠ .ok) {chunks : List Bytes}
    {more : List Read} {response : Bytes} (parts : response ++ chunks.flatten = reply) (open_ : response ≠ reply) :
    receive response (chunks.map .bytes ++ more) = some reply := by
  induction chunks generalizing response with
  | nil => exact absurd (by simpa using parts) open_
  | cons c rest ih =>
    rw [List.flatten_cons,← List.append_assoc] at parts
    have fits : (response ++ c).length < replySize := by
      by_contra long
      have le := (List.prefix_append (response ++ c) rest.flatten).length_le
      rw [parts] at le
      rw [modemRadioResponseStatus,if_pos (by change reply.length ≥ replySize; omega)] at ok
      cases ok
    rw [List.length_append] at fits
    simp only [List.map_cons,List.cons_append,receive]
    split
    · rename_i empty
      subst empty
      rw [List.append_nil] at parts
      exact ih parts open_
    · rw [if_neg (by omega)]
      by_cases done : response ++ c = reply
      · rw [done,ok]
      · have notOk := whole (response ++ c) (parts ▸ List.prefix_append ..) done
        have notError : modemRadioResponseStatus (response ++ c) ≠ .error := okPart (parts ▸ ok)
        split
        · exact absurd ‹_› notError
        · exact absurd ‹_› notOk
        · exact ih parts done

theorem received {reads : List Read} {reply : Bytes} (h : Replied reads reply) : receive [] reads = some reply := by
  obtain ⟨⟨chunks,more,rfl,parts⟩,ok,whole⟩ := h
  refine receiveParts ok whole parts ?_
  rintro rfl
  exact absurd ok (by decide)

/-! What each part adds to the conversation, whatever the modem does. -/

section Steps
variable {peer : Peer Ans} {past past' : History} {α : Type} {last : α → History → Prop}

abbrev Ends (peer : Peer Ans) (last : α → History → Prop) (c : Code Ans α) (past : History) : Prop :=
  Keeps (spoken (fun _ _ => True) fun past a r => r = peer past a) last c past

/-- The conversation went on, with no write of the rate but the allowed ones, in their order. -/
def Went (past past' : History) (allowed : List Bytes) : Prop :=
  ∃ more, past' = past ++ more ∧ List.Sublist (iprWrites more) allowed

theorem Went.refl (past : History) (allowed : List Bytes) : Went past past allowed :=
  ⟨[],(List.append_nil past).symm,List.nil_sublist allowed⟩

theorem Went.trans {middle : History} {a b : List Bytes} (first : Went past middle a) (second : Went middle past' b) :
    Went past past' (a ++ b) := by
  obtain ⟨m,rfl,ma⟩ := first
  obtain ⟨n,rfl,nb⟩ := second
  refine ⟨m ++ n,List.append_assoc ..,?_⟩
  rw [iprWrites,List.filterMap_append]
  exact ma.append nb

theorem Went.weaken {a b : List Bytes} (h : Went past past' a) (more : List.Sublist a b) : Went past past' b := by
  obtain ⟨m,same,sub⟩ := h
  exact ⟨m,same,sub.trans more⟩

theorem Went.one (x : (a : Act) × Ans a) : Went past (past ++ [x]) (iprWriteOf x).toList := by
  refine ⟨[x],rfl,?_⟩
  rw [iprWrites,List.filterMap_cons]
  cases iprWriteOf x <;> exact List.Sublist.refl _

theorem Went.silent {x : (a : Act) × Ans a} (h : iprWriteOf x = none) : Went past (past ++ [x]) [] := by
  have went : Went past (past ++ [x]) (iprWriteOf x).toList := .one x
  rw [h] at went
  exact went

def own (command : Bytes) : List Bytes := if iprWrite command then [command] else []

theorem hostAppend (past more : History) : hostRate (past ++ more) = more.foldl setsRate (hostRate past) :=
  List.foldl_append ..

/-- A call that neither writes nor sets a rate. -/
def Plain (a : Act) : Prop := ∀ r : Ans a, iprWriteOf ⟨a,r⟩ = none ∧ ∀ rate, setsRate rate ⟨a,r⟩ = rate

theorem plainEnds {a : Act} (plain : Plain a) :
    Ends peer (fun _ past' => Went past past' [] ∧ hostRate past' = hostRate past) (ask a) past := by
  refine ⟨trivial,fun r _ => ?_⟩
  obtain ⟨silent,same⟩ := plain r
  exact ⟨.silent silent,(hostAppend past [⟨a,r⟩]).trans (same _)⟩

theorem plainFlush : Plain .flushInput := fun r => ⟨rfl,fun _ => by cases r <;> rfl⟩
theorem plainWait : Plain .waitTxDone := fun r => ⟨rfl,fun _ => by cases r <;> rfl⟩
theorem plainDelay (ms : Nat) : Plain (.delay ms) := fun _ => ⟨rfl,fun _ => rfl⟩
theorem plainWindow (ms : Nat) : Plain (.window ms) := fun _ => ⟨rfl,fun _ => rfl⟩

theorem writtenEnds (data : Bytes) :
    Ends peer (fun ok past' => Went past past' (own data) ∧ hostRate past' = hostRate past ∧
      (ok = true → past' = past ++ [⟨.write data,(data.length : Int)⟩])) (written data) past := by
  refine ⟨trivial,fun count _ => ⟨?_,hostAppend past _,fun ok => ?_⟩⟩
  · have went : Went past (past ++ [⟨.write data,count⟩]) (iprWriteOf ⟨.write data,count⟩).toList := .one _
    simp only [iprWriteOf] at went
    unfold own
    split at went
    · rw [if_pos ‹_›]
      exact went
    · rw [if_neg ‹_›]
      exact went
  · rw [of_decide_eq_true ok]
    rfl

theorem exchangeEnds (command : Bytes) (timeoutMs : Nat) :
    Ends peer (fun x past' => Went past past' (own command) ∧ hostRate past' = hostRate past ∧
      ∀ text, x = some text → Exchanged past command text past') (exchange command timeoutMs) past := by
  refine keepsBind (m := fun ok past' => Went past past' (own command) ∧ hostRate past' = hostRate past ∧
    (ok = true → past' = past ++ [⟨.flushInput,true⟩,⟨.write command,(command.length : Int)⟩,
      ⟨.write crlf,(crlf.length : Int)⟩])) ?_ fun ok past1 ⟨went,same,said⟩ => ?_
  · refine allOfKeeps ⟨trivial,fun flushed _ => ?_⟩
    have went : Went past (past ++ [⟨.flushInput,flushed⟩]) [] := .silent rfl
    cases flushed with
    | false => exact ⟨went.weaken (List.nil_sublist _),hostAppend past _,fun h => by cases h⟩
    | true =>
      refine allOfKeeps (keepsMono (writtenEnds command) fun ok past2 ⟨wrote,same2,exact2⟩ => ?_)
      have host2 := same2.trans (hostAppend past _)
      have went2 := went.trans wrote
      cases ok with
      | false => exact ⟨went2,host2,fun h => by cases h⟩
      | true =>
        refine allOfKeeps (keepsMono (writtenEnds crlf) fun ok past3 ⟨wrote3,same3,exact3⟩ => ?_)
        have went3 : Went past past3 (own command) := by
          have lineEnd : own crlf = [] := by decide
          simpa [lineEnd] using went2.trans wrote3
        cases ok with
        | false => exact ⟨went3,same3.trans host2,fun h => by cases h⟩
        | true =>
          refine ⟨went3,same3.trans host2,fun _ => ?_⟩
          rw [exact3 rfl,exact2 rfl]
          simp [spoken]
  · cases ok with
    | false => exact ⟨went,same,fun _ read => by cases read⟩
    | true =>
      refine ⟨trivial,fun reads _ => ⟨?_,?_,fun text here => ⟨timeoutMs,reads,?_,here⟩⟩⟩
      · have heard : Went past1 (past1 ++ [⟨.listen timeoutMs,reads⟩]) [] := .silent rfl
        have all := went.trans heard
        rw [List.append_nil] at all
        exact all
      · exact (hostAppend past1 _).trans same
      · change past1 ++ [⟨.listen timeoutMs,reads⟩] = _
        rw [said rfl]
        simp

theorem answeredEnds {command : Bytes} (silent : own command = []) (timeoutMs : Nat) :
    Ends peer (fun ok past' => Went past past' [] ∧ hostRate past' = hostRate past ∧
      (ok = true → ∃ text, Exchanged past command text past')) (answered command timeoutMs) past := by
  refine keepsBind (exchangeEnds command timeoutMs) fun x past' ⟨went,same,read⟩ => ⟨silent ▸ went,same,fun ok => ?_⟩
  obtain ⟨text,here⟩ := Option.isSome_iff_exists.mp ok
  exact ⟨text,read text here⟩

theorem queryEnds (command : Bytes) (silent : own command = []) :
    Ends peer (fun x past' => Went past past' [] ∧ hostRate past' = hostRate past ∧
      ∀ text, x = some text → Exchanged past command text past') (query command) past :=
  keepsMono (exchangeEnds command atTimeoutMs) fun _ _ ⟨went,same,read⟩ => ⟨silent ▸ went,same,read⟩

theorem setHostRateEnds (rate : Nat) :
    Ends peer (fun ok past' => Went past past' [] ∧ (ok = true → hostRate past' = rate)) (setHostRate rate) past := by
  refine allOfKeeps (keepsMono (plainEnds plainWait) fun ok past1 ⟨went1,_⟩ => ?_)
  cases ok with
  | false => exact ⟨went1,nofun⟩
  | true =>
    refine allOfKeeps ⟨trivial,fun ok _ => ?_⟩
    have went2 : Went past (past1 ++ [⟨.setBaudrate rate,ok⟩]) [] := went1.trans (.silent rfl)
    cases ok with
    | false => exact ⟨went2,nofun⟩
    | true =>
      refine allOfKeeps (keepsMono (plainEnds plainFlush) fun ok past3 ⟨went3,same⟩ => ?_)
      have went : Went past past3 [] := went2.trans went3
      have host : hostRate past3 = rate := same.trans (hostAppend past1 _)
      cases ok with
      | false => exact ⟨went,nofun⟩
      | true => exact ⟨went,fun _ => host⟩

theorem escapeDataEnds : Ends peer (fun _ past' => Went past past' [] ∧ hostRate past' = hostRate past) escapeData past := by
  refine keepsBind (plainEnds plainWait) fun ok past1 ⟨went1,same1⟩ => ?_
  cases ok with
  | false => exact ⟨went1,same1⟩
  | true =>
    refine keepsBind (plainEnds (plainDelay _)) fun _ past2 ⟨went2,same2⟩ => ?_
    refine keepsBind (writtenEnds (ascii "+++")) fun sent past3 ⟨went3,same3,_⟩ => ?_
    refine keepsBind (plainEnds plainWait) fun drained past4 ⟨went4,same4⟩ => ?_
    refine keepsBind (plainEnds (plainDelay _)) fun _ past5 ⟨went5,same5⟩ => ?_
    have plus : own (ascii "+++") = [] := by decide
    rw [plus] at went3
    have went : Went past past5 [] := (((went1.trans went2).trans went3).trans went4).trans went5
    have same : hostRate past5 = hostRate past := by rw [same5,same4,same3,same2,same1]
    cases sent with
    | false => exact ⟨went,same⟩
    | true =>
      cases drained with
      | false => exact ⟨went,same⟩
      | true =>
        refine allOfKeeps (allOfKeeps (allOfKeeps (keepsMono (plainEnds plainFlush) fun ok past6 ⟨went6,same6⟩ => ?_)))
        cases ok <;> exact ⟨went.trans went6,same6.trans same⟩

/-- AT was answered, in the last exchange, by a modem heard at the detected rate. -/
def Detected (past : History) (x : Option Nat) (past' : History) : Prop :=
  Went past past' [] ∧ ∀ rate, x = some rate → ∃ middle text, Exchanged middle at_ text past' ∧ hostRate middle = rate

theorem Detected.after {middle : History} {x : Option Nat} (went : Went past middle []) (h : Detected middle x past') :
    Detected past x past' := ⟨went.trans h.1,h.2⟩

theorem probeAtEnds (escape : Bool) (rate : Nat) :
    Ends peer (fun ok past' => Detected past (if ok then some rate else none) past')
      (allOf [setHostRate rate,if escape then escapeData else pure true,answered at_ probeAtMs]) past := by
  refine allOfKeeps (keepsMono (setHostRateEnds rate) fun ok past1 ⟨went1,host1⟩ => ?_)
  cases ok with
  | false => exact ⟨went1,nofun⟩
  | true =>
    have escaped : Ends peer (fun _ past' => Went past1 past' [] ∧ hostRate past' = hostRate past1)
        (if escape then escapeData else pure true) past1 :=
      keepsIte (fun _ => escapeDataEnds) fun _ => ⟨.refl _ _,rfl⟩
    refine allOfKeeps (keepsMono escaped fun ok past2 ⟨went2,same2⟩ => ?_)
    cases ok with
    | false => exact ⟨went1.trans went2,nofun⟩
    | true =>
      refine allOfKeeps (keepsMono (answeredEnds (by decide) probeAtMs) fun ok past3 ⟨went3,_,read⟩ => ?_)
      have went : Went past past3 [] := (went1.trans went2).trans went3
      cases ok with
      | false => exact ⟨went,nofun⟩
      | true =>
        obtain ⟨text,exchanged⟩ := read rfl
        refine ⟨went,fun r same => ⟨past2,text,exchanged,?_⟩⟩
        cases same
        exact same2.trans (host1 rfl)

theorem scanRatesEnds (escape : Bool) (l : List Nat) : Ends peer (Detected past) (scanRates escape l) past := by
  induction l generalizing past with
  | nil => exact ⟨.refl _ _,nofun⟩
  | cons rate rest ih =>
    refine keepsBind (probeAtEnds escape rate) fun ok past' found => ?_
    cases ok with
    | true => exact found
    | false => exact keepsMono ih fun x past2 later => later.after found.1

theorem scanRoundsEnds (rounds : List Bool) (repeatEscape : Bool) :
    Ends peer (Detected past) (scanRounds repeatEscape rounds) past := by
  induction rounds generalizing past repeatEscape with
  | nil => exact ⟨.refl _ _,nofun⟩
  | cons halfway rest ih =>
    refine keepsBind (scanRatesEnds _ rates) fun x past' found => ?_
    cases x with
    | some rate => exact found
    | none =>
      refine keepsBind (plainEnds (plainDelay 20)) fun _ past2 ⟨went2,_⟩ => ?_
      exact keepsMono (ih _) fun x past3 later => later.after (found.1.trans went2)

theorem detectRateEnds (windowMs : Nat) : Ends peer (Detected past) (detectRate windowMs) past := by
  refine keepsBind (scanRatesEnds true rates) fun x past' found => ?_
  cases x with
  | some rate => exact found
  | none =>
    refine keepsBind (plainEnds (plainWindow windowMs)) fun rounds past2 ⟨went2,_⟩ => ?_
    exact keepsMono (scanRoundsEnds rounds _) fun x past3 later => later.after (found.1.trans went2)

theorem verifyRateEnds (expected : Nat) :
    Ends peer (fun ok past' => Went past past' [] ∧ (ok = true → hostRate past = expected → Verified expected past past'))
      (verifyRate expected) past := by
  refine keepsBind (answeredEnds (by decide) atTimeoutMs) fun ok past1 ⟨went1,_,read1⟩ => ?_
  cases ok with
  | false => exact ⟨went1,nofun⟩
  | true =>
    refine keepsBind (queryEnds _ (by decide)) fun x past2 ⟨went2,_,read2⟩ => ⟨went1.trans went2,fun ok host => ?_⟩
    obtain ⟨first,exchanged1⟩ := read1 rfl
    obtain ⟨text,here,parsed⟩ := Option.bind_eq_some_iff.mp (of_decide_eq_true ok)
    exact ⟨host,past1,first,text,exchanged1,read2 text here,parsed⟩

theorem changeRateEnds (target : Nat) :
    Ends peer (fun ok past' => Went past past' (own (iprCommand target)) ∧
      (ok = true → ∃ middle, Verified target middle past')) (changeRate target) past := by
  refine keepsBind (exchangeEnds (iprCommand target) atTimeoutMs) fun _ past1 ⟨went1,_,_⟩ => ?_
  -- no other write follows
  have quiet {past2 : History} (went : Went past1 past2 []) : Went past past2 (own (iprCommand target)) := by
    simpa using went1.trans went
  refine keepsBind (plainEnds plainWait) fun ok past2 ⟨went2,_⟩ => ?_
  cases ok with
  | false => exact ⟨quiet went2,nofun⟩
  | true =>
    refine keepsBind (plainEnds (plainDelay 100)) fun _ past3 ⟨went3,_⟩ => ?_
    refine keepsBind (setHostRateEnds target) fun ok past4 ⟨went4,host⟩ => ?_
    cases ok with
    | false => exact ⟨quiet ((went2.trans went3).trans went4),nofun⟩
    | true =>
      refine keepsBind (plainEnds (plainDelay 100)) fun _ past5 ⟨went5,same5⟩ => ?_
      refine keepsMono (verifyRateEnds target) fun ok past6 ⟨went6,verified⟩ => ⟨quiet ?_,fun yes => ?_⟩
      · exact (((went2.trans went3).trans went4).trans went5).trans went6
      · exact ⟨past5,verified yes (same5.trans (host rfl))⟩

theorem Exchanged.host {command text : Bytes} (h : Exchanged past command text past') :
    hostRate past' = hostRate past := by
  obtain ⟨timeoutMs,reads,rfl,-⟩ := h
  exact hostAppend past _

/-- `detected == rate && verify_rate(rate)`. -/
theorem sameAndVerified (detected rate : Nat) :
    Ends peer (fun ok past' => Went past past' [] ∧ (ok = true → detected = rate ∧
      (hostRate past = rate → Verified rate past past'))) (allOf [pure (detected = rate),verifyRate rate]) past := by
  refine allOfKeeps ?_
  by_cases same : detected = rate
  · simp only [same,decide_true]
    refine allOfKeeps (keepsMono (verifyRateEnds rate) fun ok past' ⟨went,verified⟩ => ?_)
    cases ok with
    | false => exact ⟨went,nofun⟩
    | true => exact ⟨went,fun _ => ⟨trivial,verified rfl⟩⟩
  · simp only [same,decide_false]
    exact ⟨.refl _ _,nofun⟩

theorem restoreRateEnds (previous : Nat) :
    Ends peer (fun _ past' => Went past past' (own (iprCommand previous))) (restoreRate previous) past := by
  refine keepsBind (detectRateEnds 1500) fun x past1 found => ?_
  have quiet {past2 : History} (went : Went past1 past2 []) : Went past past2 (own (iprCommand previous)) :=
    (found.1.trans went).weaken (List.nil_sublist _)
  cases x with
  | none => exact found.1.weaken (List.nil_sublist _)
  | some detected =>
    refine keepsBind (sameAndVerified detected previous) fun restored past2 ⟨went2,_⟩ => ?_
    cases restored with
    | true => exact quiet went2
    | false =>
      refine keepsBind (changeRateEnds previous) fun _ past3 ⟨went3,_⟩ => ?_
      exact (found.1.trans went2).trans went3

/-- What a migration may have written, and what it ends in. -/
structure Migrated (targetBaud : Nat) (past : History) (ok : Bool) (past' : History) : Prop where
  writes : Went past past' [] ∨ ∃ detected middle, Went past middle [] ∧ Capable targetBaud detected middle ∧
    Went middle past' (own (iprCommand targetBaud) ++ own (iprCommand detected))
  verified : ok = true → ∃ middle, Verified targetBaud middle past'

theorem migrateEnds (targetBaud : Nat) : Ends peer (Migrated targetBaud past) (migrate targetBaud) past := by
  refine keepsBind (detectRateEnds 1500) fun x past1 found => ?_
  cases x with
  | none => exact ⟨.inl found.1,nofun⟩
  | some detected =>
    obtain ⟨past0,ok,exchanged0,host⟩ := found.2 detected rfl
    refine keepsBind (queryEnds cgmr (by decide)) fun version past2 ⟨went2,same2,read2⟩ => ?_
    refine keepsBind (queryEnds iprQuery (by decide)) fun response past3 ⟨went3,same3,read3⟩ => ?_
    refine keepsBind (queryEnds ipr (by decide)) fun list past4 ⟨went4,same4,read4⟩ => ?_
    refine keepsBind (queryEnds cmux (by decide)) fun mux past5 ⟨went5,same5,read5⟩ => ?_
    have went : Went past past5 [] := (((found.1.trans went2).trans went3).trans went4).trans went5
    cases saved_ : response.bind modemUartBaudParseIpr with
    | none => exact ⟨.inl went,nofun⟩
    | some saved =>
      refine keepsIte (fun _ => ⟨.inl went,nofun⟩) fun complete => keepsIte (fun _ => ?_) fun _ => ?_
      · refine keepsMono (sameAndVerified detected targetBaud) fun ok past6 ⟨went6,verified⟩ =>
          ⟨.inl (went.trans went6),fun yes => ?_⟩
        obtain ⟨rfl,verified⟩ := verified yes
        refine ⟨past5,verified ?_⟩
        rw [same5,same4,same3,same2,exchanged0.host,host]
      · simp only [Bool.or_eq_true,Bool.not_eq_true',not_or,Bool.not_eq_false] at complete
        obtain ⟨text2,version_⟩ := Option.isSome_iff_exists.mp complete.1.1
        obtain ⟨text4,list_,supported⟩ := (Option.any_eq_true _ _).mp complete.1.2
        obtain ⟨text5,mux_⟩ := Option.isSome_iff_exists.mp complete.2
        obtain ⟨text3,response_,parsed⟩ := Option.bind_eq_some_iff.mp saved_
        have capable : Capable targetBaud detected past5 :=
          ⟨past0,past1,past2,past3,past4,past5,[],ok,text2,text3,text4,text5,exchanged0,read2 text2 version_,
            read3 text3 response_,read4 text4 list_,read5 text5 mux_,(List.append_nil past5).symm,host,
            by rw [parsed]; rfl,supported⟩
        refine keepsBind (changeRateEnds targetBaud) fun ready past6 ⟨went6,verified⟩ => ?_
        cases ready with
        | true =>
          refine ⟨.inr ⟨detected,past5,went,capable,went6.weaken ?_⟩,fun _ => verified rfl⟩
          exact List.sublist_append_left ..
        | false =>
          refine keepsBind (restoreRateEnds detected) fun _ past7 went7 => ?_
          exact ⟨.inr ⟨detected,past5,went,capable,went6.trans went7⟩,nofun⟩

end Steps

theorem askedSame {past : History} {command other : Bytes} (h : Asked past command) (h' : Asked past other) :
    other = command := by
  obtain ⟨before,same⟩ := h
  obtain ⟨before',same'⟩ := h'
  rw [same] at same'
  have last := (List.append_inj' same' rfl).2
  injection last with first _
  injection first with act _
  injection act with data
  exact data.symm

section Cooperates
variable {peer : Peer Ans} {rate : History → Nat} (coop : Cooperative peer rate) {past : History}
include coop

theorem calmEnds {a : Act} (calm : ∀ timeoutMs, a ≠ .listen timeoutMs) :
    Ends peer (fun r past' => Works a r ∧ past' = past ++ [⟨a,r⟩] ∧ rate past' = rate past) (ask a) past := by
  refine ⟨trivial,fun r same => ?_⟩
  have same : r = peer past a := same
  subst same
  exact ⟨coop.works past a,rfl,coop.steady past a fun timeoutMs _ listens => absurd listens (calm timeoutMs)⟩

theorem calmWritten (data : Bytes) :
    Ends peer (fun ok past' => ok = true ∧ past' = past ++ [⟨.write data,(data.length : Int)⟩] ∧ rate past' = rate past)
      (written data) past := by
  refine keepsBind (calmEnds coop nofun) fun count past' ⟨works,same,kept⟩ => ?_
  have works : count = (data.length : Int) := works
  subst works
  exact ⟨decide_eq_true rfl,same,kept⟩

theorem calmPlain {a : Act} (calm : ∀ timeoutMs, a ≠ .listen timeoutMs) (plain : Plain a) :
    Ends peer (fun r past' => Works a r ∧ hostRate past' = hostRate past ∧ rate past' = rate past) (ask a) past :=
  keepsMono (keepsBoth (calmEnds coop calm) (plainEnds plain)) fun _ _ ⟨⟨works,_,kept⟩,_,host⟩ => ⟨works,host,kept⟩

/-- What an exchange with such a modem comes to. -/
structure Heard (rate : History → Nat) (past : History) (command : Bytes) (timeoutMs : Nat) (x : Option Bytes)
    (past' : History) : Prop where
  host : hostRate past' = hostRate past
  kept : iprWrite command = false → rate past' = rate past
  deaf : hostRate past ≠ rate past → x = none
  answered : command = at_ → hostRate past = rate past → 300 ≤ timeoutMs → x.isSome = true
  truthful : command = iprQuery → timeoutMs = atTimeoutMs → hostRate past = rate past → rate past = rate [] →
    x.bind modemUartBaudParseIpr = some (rate [])
  switched : ∀ r, command = iprCommand r → rate past' = rate past ∨ hostRate past = rate past ∧ rate past' = r
  obeyed : command = iprCommand (rate []) → hostRate past = rate past → rate past' = rate []

theorem heardEnds (command : Bytes) (timeoutMs : Nat) :
    Ends peer (Heard rate past command timeoutMs) (exchange command timeoutMs) past := by
  refine keepsBind (m := fun ok past1 => ok = true ∧ Asked past1 command ∧ hostRate past1 = hostRate past ∧
    rate past1 = rate past) ?_ fun ok past1 ⟨works,asked,host,kept⟩ => ?_
  · refine allOfKeeps (keepsMono (calmPlain coop nofun plainFlush) fun ok past1 ⟨works,host1,kept1⟩ => ?_)
    cases (works : ok = true)
    refine allOfKeeps (keepsMono (keepsBoth (calmWritten coop command) (writtenEnds command))
      fun ok past2 ⟨⟨works,said2,kept2⟩,_,host2,_⟩ => ?_)
    cases works
    refine allOfKeeps (keepsMono (keepsBoth (calmWritten coop crlf) (writtenEnds crlf))
      fun ok past3 ⟨⟨works,said3,kept3⟩,_,host3,_⟩ => ?_)
    cases works
    refine ⟨rfl,⟨past1,?_⟩,by rw [host3,host2,host1],by rw [kept3,kept2,kept1]⟩
    rw [said3,said2,List.append_assoc]
    rfl
  · cases works
    refine ⟨trivial,fun reads same => ?_⟩
    have same : reads = peer past1 (.listen timeoutMs) := same
    subst same
    refine ⟨(hostAppend past1 _).trans host,fun silent => ?_,fun apart => ?_,fun at_ level long => ?_,
      fun query long level first => ?_,fun r write => ?_,fun write level => ?_⟩
    · refine (coop.steady past1 _ fun t other _ asked' => ?_).trans kept
      rw [askedSame asked asked']
      exact silent
    · exact coop.deaf past1 timeoutMs (by rw [host,kept]; exact apart)
    · obtain ⟨reply,replied⟩ := coop.answers past1 timeoutMs (at_ ▸ asked) (by rw [host,kept]; exact level) long
      rw [received replied]
      rfl
    · subst long
      obtain ⟨reply,replied,parsed⟩ := coop.truthful past1 (query ▸ asked) (by rw [host,kept]; exact level)
        (kept.trans first)
      rw [received replied]
      exact parsed
    · have switches := coop.switches past1 timeoutMs r (write ▸ asked)
      rw [host,kept] at switches
      exact switches
    · exact coop.obeys past1 timeoutMs (write ▸ asked) (by rw [host,kept]; exact level)

theorem calmHostRate (r : Nat) :
    Ends peer (fun ok past' => ok = true ∧ hostRate past' = r ∧ rate past' = rate past) (setHostRate r) past := by
  have calm : Ends peer (fun ok past' => ok = true ∧ rate past' = rate past) (setHostRate r) past := by
    refine allOfKeeps (keepsMono (calmPlain coop nofun plainWait) fun ok past1 ⟨works,_,kept1⟩ => ?_)
    cases (works : ok = true)
    refine allOfKeeps (keepsMono (calmEnds coop nofun) fun ok past2 ⟨works,_,kept2⟩ => ?_)
    cases (works : ok = true)
    refine allOfKeeps (keepsMono (calmPlain coop nofun plainFlush) fun ok past3 ⟨works,_,kept3⟩ => ?_)
    cases (works : ok = true)
    exact ⟨rfl,by rw [kept3,kept2,kept1]⟩
  exact keepsMono (keepsBoth (setHostRateEnds r) calm) fun ok past' ⟨⟨_,host⟩,works,kept⟩ => ⟨works,host works,kept⟩

theorem calmEscape : Ends peer (fun ok past' => ok = true ∧ hostRate past' = hostRate past ∧ rate past' = rate past)
    escapeData past := by
  have calm : Ends peer (fun ok past' => ok = true ∧ rate past' = rate past) escapeData past := by
    refine keepsBind (calmPlain coop nofun plainWait) fun ok past1 ⟨works,_,kept1⟩ => ?_
    cases (works : ok = true)
    refine keepsBind (calmEnds coop nofun) fun _ past2 ⟨_,_,kept2⟩ => ?_
    refine keepsBind (calmWritten coop (ascii "+++")) fun sent past3 ⟨works,_,kept3⟩ => ?_
    cases works
    refine keepsBind (calmPlain coop nofun plainWait) fun ok past4 ⟨works,_,kept4⟩ => ?_
    cases (works : ok = true)
    refine keepsBind (calmEnds coop nofun) fun _ past5 ⟨_,_,kept5⟩ => ?_
    refine allOfKeeps (allOfKeeps (allOfKeeps (keepsMono (calmPlain coop nofun plainFlush) fun ok past6 ⟨works,_,kept6⟩ => ?_)))
    cases (works : ok = true)
    exact ⟨rfl,by rw [kept6,kept5,kept4,kept3,kept2,kept1]⟩
  exact keepsMono (keepsBoth escapeDataEnds calm) fun ok past' ⟨⟨_,host⟩,works,kept⟩ => ⟨works,host,kept⟩

theorem calmScan (l : List Nat) (mem : rate past ∈ l) :
    Ends peer (fun x past' => x = some (rate past) ∧ hostRate past' = rate past ∧ rate past' = rate past)
      (scanRates true l) past := by
  induction l generalizing past with
  | nil => exact absurd mem nofun
  | cons r rest ih =>
    refine keepsBind (m := fun ok past' => ok = decide (r = rate past) ∧ hostRate past' = r ∧ rate past' = rate past) ?_
      fun ok past1 ⟨here,host,kept⟩ => ?_
    · refine allOfKeeps (keepsMono (calmHostRate coop r) fun ok past1 ⟨works,host1,kept1⟩ => ?_)
      cases works
      refine allOfKeeps (keepsMono (calmEscape coop) fun ok past2 ⟨works,host2,kept2⟩ => ?_)
      cases works
      have heard : Ends peer (fun ok past3 => ok = decide (r = rate past) ∧ hostRate past3 = r ∧ rate past3 = rate past)
          (answered at_ probeAtMs) past2 := by
        refine keepsBind (heardEnds coop at_ probeAtMs) fun x past3 h => ⟨?_,?_,?_⟩
        · have host : hostRate past2 = r := host2.trans host1
          have kept : rate past2 = rate past := kept2.trans kept1
          by_cases same : r = rate past
          · rw [decide_eq_true same]
            exact h.answered rfl (by rw [host,kept,same]) (by decide)
          · rw [decide_eq_false same,h.deaf (by rw [host,kept]; exact same)]
            rfl
        · rw [h.host,host2,host1]
        · rw [h.kept (by decide),kept2,kept1]
      refine allOfKeeps (keepsMono heard fun ok past3 h => ?_)
      cases ok <;> exact h
    · subst here
      by_cases same : r = rate past
      · rw [decide_eq_true same]
        exact ⟨by rw [same],host.trans same,kept⟩
      · rw [decide_eq_false same]
        have later : rate past1 ∈ rest := by
          rw [kept]
          exact (List.mem_cons.mp mem).resolve_left fun h => same h.symm
        refine keepsMono (ih later) fun x past2 h => ?_
        rw [kept] at h
        exact h

theorem calmDetect (windowMs : Nat) (mem : rate past ∈ rates) :
    Ends peer (fun x past' => x = some (rate past) ∧ hostRate past' = rate past ∧ rate past' = rate past)
      (detectRate windowMs) past := by
  refine keepsBind (calmScan coop rates mem) fun x past' ⟨here,level,kept⟩ => ?_
  subst here
  exact ⟨rfl,level,kept⟩

theorem calmQuery {command : Bytes} (silent : iprWrite command = false) :
    Ends peer (fun _ past' => hostRate past' = hostRate past ∧ rate past' = rate past) (query command) past :=
  keepsMono (heardEnds coop command atTimeoutMs) fun _ _ h => ⟨h.host,h.kept silent⟩

theorem calmVerify (expected : Nat) :
    Ends peer (fun ok past' => hostRate past' = hostRate past ∧ rate past' = rate past ∧
      (hostRate past = rate past → rate past = rate [] → expected = rate [] → ok = true)) (verifyRate expected) past := by
  refine keepsBind (m := fun ok past' => hostRate past' = hostRate past ∧ rate past' = rate past ∧
    (hostRate past = rate past → ok = true)) ?_ fun ok past1 ⟨host,kept,works⟩ => ?_
  · exact keepsBind (heardEnds coop at_ atTimeoutMs) fun x past1 h =>
      ⟨h.host,h.kept (by decide),fun level => h.answered rfl level (by decide)⟩
  · cases ok with
    | false => exact ⟨host,kept,fun level => absurd (works level) nofun⟩
    | true =>
      refine keepsBind (heardEnds coop iprQuery atTimeoutMs) fun x past2 h =>
        ⟨h.host.trans host,(h.kept (by decide)).trans kept,fun level first same => ?_⟩
      rw [h.truthful rfl rfl (by rw [host,kept]; exact level) (kept.trans first),same]
      exact decide_eq_true rfl

theorem calmChange (target : Nat) (level : hostRate past = rate past) :
    Ends peer (fun ok past' => (rate past' = rate past ∨ rate past' = target) ∧
      (target = rate [] → rate past' = rate [] ∧ ok = true)) (changeRate target) past := by
  refine keepsBind (heardEnds coop (iprCommand target) atTimeoutMs) fun _ past1 h => ?_
  have either : rate past1 = rate past ∨ rate past1 = target := (h.switched target rfl).imp_right And.right
  have back (same : target = rate []) : rate past1 = rate [] := h.obeyed (by rw [same]) level
  refine keepsBind (calmPlain coop nofun plainWait) fun ok past2 ⟨works,_,kept2⟩ => ?_
  cases (works : ok = true)
  refine keepsBind (calmPlain coop nofun (plainDelay 100)) fun _ past3 ⟨_,_,kept3⟩ => ?_
  refine keepsBind (calmHostRate coop target) fun ok past4 ⟨works,host4,kept4⟩ => ?_
  cases works
  refine keepsBind (calmPlain coop nofun (plainDelay 100)) fun _ past5 ⟨_,host5,kept5⟩ => ?_
  refine keepsMono (calmVerify coop target) fun ok past6 ⟨_,kept6,verified⟩ => ?_
  have kept : rate past5 = rate past1 := by rw [kept5,kept4,kept3,kept2]
  refine ⟨by rw [kept6,kept]; exact either,fun same => ⟨by rw [kept6,kept,back same],?_⟩⟩
  exact verified (by rw [host5,host4,kept,back same,same]) (kept.trans (back same)) same

theorem calmRestore (mem : rate past ∈ rates) :
    Ends peer (fun _ past' => rate past' = rate [] ∧ ∃ middle, Verified (rate []) middle past')
      (restoreRate (rate [])) past := by
  refine keepsBind (calmDetect coop 1500 mem) fun x past1 ⟨here,level,kept⟩ => ?_
  subst here
  have checked : Ends peer (fun ok past2 => hostRate past2 = rate past2 ∧ rate past2 = rate past1 ∧
      (ok = true → rate past = rate [] ∧ Verified (rate []) past1 past2))
      (allOf [pure (rate past = rate []),verifyRate (rate [])]) past1 := by
    refine allOfKeeps ?_
    by_cases same : rate past = rate []
    · simp only [same,decide_true]
      rw [same] at level kept
      refine allOfKeeps (keepsMono (keepsBoth (calmVerify coop (rate [])) (verifyRateEnds (rate [])))
        fun ok past2 ⟨⟨host2,kept2,_⟩,_,verified⟩ => ?_)
      have level2 : hostRate past2 = rate past2 := by rw [host2,kept2,level,kept]
      cases ok with
      | false => exact ⟨level2,kept2,nofun⟩
      | true => exact ⟨level2,kept2,fun _ => ⟨trivial,verified rfl level⟩⟩
    · simp only [same,decide_false]
      exact ⟨level.trans kept.symm,rfl,nofun⟩
  refine keepsBind checked fun restored past2 ⟨level2,kept2,verified⟩ => ?_
  cases restored with
  | true =>
    obtain ⟨same,verified⟩ := verified rfl
    exact ⟨by rw [kept2,kept,same],past1,verified⟩
  | false =>
    refine keepsBind (keepsBoth (calmChange coop (rate []) level2) (changeRateEnds (rate [])))
      fun ok past3 ⟨⟨_,back⟩,_,verified⟩ => ?_
    obtain ⟨same,works⟩ := back rfl
    exact ⟨same,verified works⟩

/-- A migration that fails leaves the modem at the rate it was found at, and has verified that if
it wrote any rate. -/
theorem calmMigrate {targetBaud : Nat} (target : targetBaud ∈ rates) (first : rate past = rate []) :
    Ends peer (fun ok past' => ok = false → rate past' = rate [] ∧
      (Went past past' [] ∨ ∃ middle, Verified (rate []) middle past')) (migrate targetBaud) past := by
  have mem : rate past ∈ rates := by
    rw [first]
    exact coop.starts
  refine keepsBind (keepsBoth (calmDetect coop 1500 mem) (detectRateEnds 1500))
    fun x past1 ⟨⟨here,level1,kept1⟩,went1,_⟩ => ?_
  subst here
  refine keepsBind (keepsBoth (calmQuery coop (by decide)) (queryEnds cgmr (by decide)))
    fun version past2 ⟨⟨host2,kept2⟩,went2,_⟩ => ?_
  refine keepsBind (keepsBoth (calmQuery coop (by decide)) (queryEnds iprQuery (by decide)))
    fun response past3 ⟨⟨host3,kept3⟩,went3,_⟩ => ?_
  refine keepsBind (keepsBoth (calmQuery coop (by decide)) (queryEnds ipr (by decide)))
    fun list past4 ⟨⟨host4,kept4⟩,went4,_⟩ => ?_
  refine keepsBind (keepsBoth (calmQuery coop (by decide)) (queryEnds cmux (by decide)))
    fun mux past5 ⟨⟨host5,kept5⟩,went5,_⟩ => ?_
  have went : Went past past5 [] := (((went1.trans went2).trans went3).trans went4).trans went5
  have kept : rate past5 = rate [] := by rw [kept5,kept4,kept3,kept2,kept1,first]
  have level : hostRate past5 = rate past5 := by rw [host5,host4,host3,host2,level1,first,kept]
  cases response.bind modemUartBaudParseIpr with
  | none => exact fun _ => ⟨kept,.inl went⟩
  | some saved =>
    refine keepsIte (fun _ _ => ⟨kept,.inl went⟩) fun _ => keepsIte (fun _ => ?_) fun _ => ?_
    · have checked : Ends peer (fun _ past6 => rate past6 = rate past5 ∧ Went past5 past6 [])
          (allOf [pure (rate past = targetBaud),verifyRate targetBaud]) past5 := by
        refine allOfKeeps ?_
        by_cases same : rate past = targetBaud
        · simp only [same,decide_true]
          refine allOfKeeps (keepsMono (keepsBoth (calmVerify coop targetBaud) (verifyRateEnds targetBaud))
            fun ok past6 ⟨⟨_,kept6,_⟩,went6,_⟩ => ?_)
          cases ok <;> exact ⟨kept6,went6⟩
        · simp only [same,decide_false]
          exact ⟨rfl,Went.refl _ _⟩
      exact keepsMono checked fun _ past6 ⟨kept6,went6⟩ _ => ⟨kept6.trans kept,.inl (went.trans went6)⟩
    · refine keepsBind (calmChange coop targetBaud level) fun ready past6 ⟨either,_⟩ => ?_
      cases ready with
      | true => exact nofun
      | false =>
        have mem6 : rate past6 ∈ rates := by
          rcases either with same | same
          · rw [same,kept]
            exact coop.starts
          · rw [same]
            exact target
        rw [first]
        exact keepsBind (calmRestore coop mem6) fun _ past7 ⟨back,verified⟩ _ => ⟨back,.inr verified⟩

end Cooperates

section Whole
variable {peer : Peer Ans} {past : History}

theorem silentEnds {a : Act} (silent : ∀ r, iprWriteOf ⟨a,r⟩ = none) :
    Ends peer (fun _ past' => Went past past' []) (ask a) past := ⟨trivial,fun r _ => .silent (silent r)⟩

theorem openUartEnds (config : Bool) : Ends peer (fun _ past' => Went past past' []) (openUart config) past := by
  refine keepsIte (fun _ => Went.refl _ _) fun _ => keepsBind (silentEnds fun _ => rfl) fun ok past1 went1 => ?_
  cases ok with
  | false => exact went1
  | true =>
    have set_ : Ends peer (fun _ past' => Went past1 past' []) (allOf [ask .paramConfig,ask .setPin]) past1 := by
      refine allOfKeeps (keepsMono (silentEnds fun _ => rfl) fun ok past2 went2 => ?_)
      cases ok with
      | false => exact went2
      | true =>
        refine allOfKeeps (keepsMono (silentEnds fun _ => rfl) fun ok past3 went3 => ?_)
        cases ok <;> exact went2.trans went3
    refine keepsBind set_ fun ok past2 went2 => ?_
    cases ok with
    | true => exact went1.trans went2
    | false => exact keepsBind (silentEnds fun _ => rfl) fun _ past3 went3 => (went1.trans went2).trans went3

theorem calmOpen {rate : History → Nat} (coop : Cooperative peer rate) (config : Bool) :
    Ends peer (fun _ past' => rate past' = rate past) (openUart config) past := by
  refine keepsIte (fun _ => rfl) fun _ => keepsBind (calmEnds coop nofun) fun ok past1 ⟨works,_,kept1⟩ => ?_
  cases (works : ok = true)
  have set_ : Ends peer (fun ok past' => ok = true ∧ rate past' = rate past1) (allOf [ask .paramConfig,ask .setPin])
      past1 := by
    refine allOfKeeps (keepsMono (calmEnds coop nofun) fun ok past2 ⟨works,_,kept2⟩ => ?_)
    cases (works : ok = true)
    refine allOfKeeps (keepsMono (calmEnds coop nofun) fun ok past3 ⟨works,_,kept3⟩ => ?_)
    cases (works : ok = true)
    exact ⟨rfl,kept3.trans kept2⟩
  refine keepsBind set_ fun ok past2 ⟨works,kept2⟩ => ?_
  cases works
  exact kept2.trans kept1

theorem prepareEnds (config : Bool) (targetBaud : Nat) : Ends peer (fun ok past' =>
    (Went past past' [] ∨ ∃ detected middle, Went past middle [] ∧ Capable targetBaud detected middle ∧
      Went middle past' (own (iprCommand targetBaud) ++ own (iprCommand detected))) ∧
    (ok = true → ∃ middle last, Verified targetBaud middle last ∧ past' = last ++ [⟨.delete,true⟩]))
    (modemUartBaudPrepare config targetBaud) past := by
  refine keepsIte (fun _ => ⟨.inl (.refl _ _),nofun⟩) fun _ => keepsBind (openUartEnds config) fun ok past1 went1 => ?_
  cases ok with
  | false => exact ⟨.inl went1,nofun⟩
  | true =>
    refine keepsBind (migrateEnds targetBaud) fun ready past2 migrated => ⟨trivial,fun deleted _ => ⟨?_,fun both => ?_⟩⟩
    · have closed : Went past2 (past2 ++ [⟨.delete,deleted⟩]) [] := .silent rfl
      rcases migrated.writes with quiet | ⟨detected,middle,went,capable,wrote⟩
      · exact .inl ((went1.trans quiet).trans closed)
      · have all := wrote.trans closed
        rw [List.append_nil] at all
        exact .inr ⟨detected,middle,went1.trans went,capable,all⟩
    · obtain ⟨ready_,deleted_⟩ := Bool.and_eq_true_iff.mp both
      obtain ⟨middle,verified⟩ := migrated.verified ready_
      subst deleted_
      exact ⟨middle,past2,verified,rfl⟩

theorem calmPrepare {rate : History → Nat} (coop : Cooperative peer rate) (config : Bool) (targetBaud : Nat)
    (first : rate past = rate []) : Ends peer (fun ok past' => ok = false → rate past' = rate [] ∧
      (Went past past' [] ∨ ∃ middle last, Verified (rate []) middle last ∧ past' = last ++ [⟨.delete,true⟩]))
      (modemUartBaudPrepare config targetBaud) past := by
  refine keepsIte (fun _ _ => ⟨first,.inl (.refl _ _)⟩) fun valid => ?_
  have target : targetBaud ∈ rates := by
    simp only [rates,List.mem_cons]
    omega
  refine keepsBind (keepsBoth (calmOpen coop config) (openUartEnds config)) fun ok past1 ⟨kept1,went1⟩ => ?_
  cases ok with
  | false => exact fun _ => ⟨kept1.trans first,.inl went1⟩
  | true =>
    refine keepsBind (calmMigrate coop target (kept1.trans first)) fun ready past2 undone => ?_
    refine keepsBind (calmEnds coop nofun) fun deleted past3 ⟨works,said,kept3⟩ failed => ?_
    cases (works : deleted = true)
    obtain ⟨back,how⟩ := undone (by simpa using failed)
    subst said
    refine ⟨kept3.trans back,how.imp (fun went => ?_) fun ⟨middle,verified⟩ => ⟨middle,past2,verified,rfl⟩⟩
    exact (went1.trans went).trans (.silent rfl)

/-- Nothing is written before the whole of `middle` was said in silence. -/
theorem writtenAfter {middle later before after : History} {data : Bytes} {r : Int}
    (silent : iprWrites middle = []) (split : middle ++ later = before ++ ⟨.write data,r⟩::after)
    (write : iprWrite data = true) : ∃ between, before = middle ++ between := by
  rcases List.append_eq_append_iff.mp split with ⟨between,rfl,-⟩ | ⟨rest,rfl,same⟩
  · exact ⟨between,rfl⟩
  · cases rest with
    | nil => exact ⟨[],by simp⟩
    | cons x rest =>
      obtain ⟨rfl,-⟩ := List.cons.inj same
      have mem : data ∈ iprWrites (before ++ ⟨.write data,r⟩::rest) :=
        List.mem_filterMap.mpr ⟨⟨.write data,r⟩,by simp,if_pos write⟩
      rw [silent] at mem
      exact absurd mem nofun

theorem capableLater {targetBaud detected : Nat} {middle : History} (h : Capable targetBaud detected middle)
    (between : History) : Capable targetBaud detected (middle ++ between) := by
  obtain ⟨h0,h1,h2,h3,h4,h5,later,ok,version,saved,list,mux,e0,e1,e2,e3,e4,rfl,host,parsed,supported⟩ := h
  exact ⟨h0,h1,h2,h3,h4,h5,later ++ between,ok,version,saved,list,mux,e0,e1,e2,e3,e4,List.append_assoc ..,host,parsed,
    supported⟩

theorem ownLe (command : Bytes) : List.Sublist (own command) [command] := by
  unfold own
  split
  · exact .refl _
  · exact List.nil_sublist _

/-- The rate is written only where the modem can take it, true means that it was verified at the
target, and a failure with a modem that answers ends at the rate it began with. -/
theorem baudMigrates (peer : Peer Ans) (config : Bool) (targetBaud : Nat) :
    Migration peer targetBaud (play peer (modemUartBaudPrepare config targetBaud) []) := by
  have ends := @prepareEnds peer [] config targetBaud
  obtain ⟨writes,verified⟩ := playEnds ends fun _ _ => rfl
  refine ⟨?_,verified,fun rate coop failed => ?_⟩
  · rcases writes with ⟨more,same,none_⟩ | ⟨detected,middle,⟨said,same,silent⟩,capable,⟨later,same',wrote⟩⟩
    · rw [List.nil_append] at same
      subst same
      have none_ := List.sublist_nil.mp none_
      refine ⟨0,by rw [none_]; exact List.nil_sublist _,fun before data r after split write => ?_⟩
      obtain ⟨between,rfl⟩ := @writtenAfter _ [] _ _ _ _ none_ (by rw [List.append_nil]; exact split) write
      have mem := congrArg List.length split
      simp only [List.length_append,List.length_cons] at mem
      omega
    · rw [List.nil_append] at same
      subst same
      have silent := List.sublist_nil.mp silent
      refine ⟨detected,?_,fun before data r after split write => ?_⟩
      · rw [same',iprWrites,List.filterMap_append]
        change List.Sublist (iprWrites middle ++ iprWrites later) _
        rw [silent,List.nil_append]
        exact wrote.trans ((ownLe _).append (ownLe _))
      · rw [same'] at split
        obtain ⟨between,rfl⟩ := writtenAfter silent split write
        exact capableLater capable between
  · have ends := @calmPrepare peer [] rate coop config targetBaud rfl
    obtain ⟨back,how⟩ := playEnds ends (fun _ _ => rfl) failed
    refine ⟨back,fun wrote => how.resolve_left ?_⟩
    rintro ⟨more,same,none_⟩
    rw [List.nil_append] at same
    rw [same] at wrote
    exact wrote (List.sublist_nil.mp none_)

end Whole

/-! A modem that stays at 115200, answers AT and tells its rate, and ignores the rest. -/

def lastCommand (past : History) : Bytes :=
  match past.reverse with
  | _::⟨.write data,_⟩::_ => data
  | _ => []

def atReply : Bytes := ascii "OK\r\n"
def iprReply : Bytes := ascii "+IPR: 115200\r\nOK\r\n"

def restingPeer (past : History) : (a : Act) → Ans a
  | .install => true
  | .paramConfig => true
  | .setPin => true
  | .delete => true
  | .flushInput => true
  | .write data => data.length
  | .listen _ =>
    if hostRate past ≠ 115200 then []
    else if lastCommand past = at_ then [.bytes atReply]
    else if lastCommand past = iprQuery then [.bytes iprReply]
    else []
  | .waitTxDone => true
  | .setBaudrate _ => true
  | .delay _ => ()
  | .window _ => []

theorem lastAsked {past : History} {command : Bytes} (h : Asked past command) : lastCommand past = command := by
  obtain ⟨before,rfl⟩ := h
  rw [lastCommand,List.reverse_append]
  rfl

theorem repliedOnce {reply : Bytes} (ok : modemRadioResponseStatus reply = .ok)
    (whole : ∀ part ∈ reply.inits, part ≠ reply → modemRadioResponseStatus part ≠ .ok) : Replied [.bytes reply] reply :=
  ⟨⟨[reply],[],rfl,by simp⟩,ok,fun part inside => whole part ((List.mem_inits part reply).mpr inside)⟩

theorem restingCooperates : Cooperative restingPeer fun _ => 115200 where
  starts := by decide
  works past a := by
    cases a <;> simp only [Works,restingPeer]
    split
    · exact nofun
    · split
      · simp
      · split <;> simp
  steady _ _ _ := rfl
  deaf past timeoutMs apart := by simp only [restingPeer,if_pos apart,receive]
  answers past timeoutMs asked level _ := by
    simp only [restingPeer,level,ne_eq,not_true,if_false,lastAsked asked,if_true]
    exact ⟨atReply,repliedOnce (by decide) (by decide)⟩
  switches _ _ _ _ := .inl rfl
  obeys _ _ _ _ := rfl
  truthful past asked level _ := by
    have other : iprQuery ≠ at_ := by decide
    simp only [restingPeer,level,ne_eq,not_true,if_false,lastAsked asked,other,if_true]
    exact ⟨iprReply,repliedOnce (by decide) (by decide),by decide⟩

theorem restingMigrates : Cooperative restingPeer (fun _ => 115200) ∧
    Migration restingPeer 230400 (play restingPeer (modemUartBaudPrepare true 230400) []) :=
  ⟨restingCooperates,baudMigrates restingPeer true 230400⟩

end Web3PiUps.ModemUartBaud
