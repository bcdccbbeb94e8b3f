import Web3PiUps.Lib.Dialogue
import Web3PiUps.ModemAtText

/-! `modem_radio_policy.c` over the AT callback: the radio is configured and resumed by what the
modem says, and switched off where it says anything else. -/
namespace Web3PiUps.ModemRadioPolicy
open WupsProtocol ModemAtText Tasks Code Dialogue

abbrev radioAtTimeoutMs : Nat := 3000
abbrev radioCfunTimeoutMs : Nat := 10000

structure Command where
  text : Bytes
  timeoutMs : Nat
  deriving DecidableEq, Repr

/-- What the callback returns, and the response buffer it leaves. -/
structure Reply where
  done : Bool
  buffer : Bytes
  full : buffer.length = responseCapacity

abbrev Ans (_ : Command) : Type := Reply

inductive SettingsResult where
  | invalid
  | mismatch
  | matching
  deriving DecidableEq, Repr

/-- The response up to its NUL. -/
def Reply.text (r : Reply) : Option Bytes :=
  if r.done && r.buffer.contains 0 then some (r.buffer.takeWhile (· ≠ 0)) else none

def exchange (command : Bytes) (timeoutMs : Nat) : Code Ans (Option Bytes) := do
  let r ← call ⟨command,timeoutMs⟩
  pure (r.text.filter (modemRadioResponseStatus · = .ok))

def commandOk (command : Bytes) (timeoutMs : Nat) : Code Ans Bool := do
  let response ← exchange command timeoutMs
  pure response.isSome

def scanScalar (key : Bytes) (terminal : Bool) (found : Option Nat) : List Bytes → Option Nat
  | [] => found
  | line::rest =>
    let terminal := terminal || line = okLine
    match namedValue line key with
    | .malformed => none
    | .other => scanScalar key terminal found rest
    | .value text =>
      if terminal || found.isSome then none
      else
        match takeUnsigned text with
        | some (value,[]) => scanScalar key terminal (some value) rest
        | _ => none

def readScalar (command key : Bytes) : Code Ans (Option Nat) := do
  let timeout := if key = ascii "+CFUN" then radioCfunTimeoutMs else radioAtTimeoutMs
  let response ← exchange command timeout
  pure (response.bind fun text => scanScalar key false none (lines text))

theorem trimLe (text : Bytes) : (trim text).length ≤ text.length := by
  obtain ⟨before,after,same,-,-⟩ := trimSplit text
  have count := congrArg List.length same
  simp only [List.length_append] at count
  omega

theorem takenShorter {text rest : Bytes} {value : Nat} (h : takeUnsigned text = some (value,rest)) :
    rest.length < text.length := by
  obtain ⟨number,after,rfl,⟨before,digits,back,rfl,-,number_,-⟩,-⟩ := takenNumber h
  have positive := List.length_pos_iff.mpr number_.some_
  simp only [List.length_append]
  omega

/-- The bands of the list, in the order read; `seen` is the bitmap of those read before. -/
def bandList (seen : List Nat) (text : Bytes) : Option (List Nat) :=
  match _taken : takeUnsigned text with
  | none => none
  | some (band,rest) =>
    if band = 0 ∨ band > 255 ∨ band ∈ seen then none
    else
      match _more : rest with
      | [] => some (seen ++ [band])
      | c::numbers => if c = comma then bandList (seen ++ [band]) numbers else none
termination_by text.length
decreasing_by
  have shorter := takenShorter ‹_›
  simp only [List.length_cons] at shorter
  omega

def catM : Bytes := ascii "\"CAT-M\""
def nbIot : Bytes := ascii "\"NB-IOT\""

def scanBands (terminal : Bool) (found : Option (List Nat)) : List Bytes → Option (List Nat)
  | [] => found
  | line::rest =>
    let terminal := terminal || line = okLine
    match namedValue line (ascii "+CBANDCFG") with
    | .malformed => none
    | .other => scanBands terminal found rest
    | .value text =>
      -- the bands of the inactive technology do not matter
      if nbIot.isPrefixOf text then scanBands terminal found rest
      else if !catM.isPrefixOf text || found.isSome || terminal then none
      else
        match trim (text.drop catM.length) with
        | [] => none
        | c::numbers =>
          if c = comma then
            match bandList [] numbers with
            | none => none
            | some bands => scanBands terminal (some bands) rest
          else none

def readBands : Code Ans SettingsResult := do
  let response ← exchange (ascii "AT+CBANDCFG?") radioAtTimeoutMs
  match response.bind fun text => scanBands false none (lines text) with
  | none => pure .invalid
  | some bands => pure (if bands.length = 2 ∧ 3 ∈ bands ∧ 20 ∈ bands then .matching else .mismatch)

def readSettings : Code Ans SettingsResult := do
  match ← readScalar (ascii "AT+CNMP?") (ascii "+CNMP") with
  | none => pure .invalid
  | some network =>
    match ← readScalar (ascii "AT+CMNB?") (ascii "+CMNB") with
    | none => pure .invalid
    | some preference =>
      match ← readBands with
      | .invalid => pure .invalid
      | bands => pure (if network = 38 ∧ preference = 1 ∧ bands = .matching then .matching else .mismatch)

def failClosed : Code Ans Bool := do
  let _ ← commandOk (ascii "AT+CFUN=4") radioCfunTimeoutMs
  pure false

def readsCfun (value : Nat) : Code Ans Bool := do
  let functionality ← readScalar (ascii "AT+CFUN?") (ascii "+CFUN")
  pure (functionality = some value)

def settingsMatch : Code Ans Bool := do
  let settings ← readSettings
  pure (settings = .matching)

/-- `usable` is whether there is a callback at all. -/
def modemRadioPrepare (usable : Bool) : Code Ans Bool := do
  if usable = false then pure false
  else
    match ← readSettings with
    | .matching => pure true
    | .invalid => failClosed
    | .mismatch =>
      if ← allOf [
        commandOk (ascii "AT+CFUN=4") radioCfunTimeoutMs,
        readsCfun 4,
        commandOk (ascii "AT+CNMP=38") radioAtTimeoutMs,
        commandOk (ascii "AT+CMNB=1") radioAtTimeoutMs,
        commandOk (ascii "AT+CBANDCFG=\"CAT-M\",3,20") radioAtTimeoutMs,
        settingsMatch] then pure true else failClosed

def modemRadioResume (usable : Bool) : Code Ans Bool := do
  if usable = false then pure false
  else
    if ← settingsMatch then
      match ← readScalar (ascii "AT+CFUN?") (ascii "+CFUN") with
      | none => failClosed
      | some functionality =>
        if functionality = 1 then pure true
        else if functionality ≠ 4 then failClosed
        else if ← allOf [commandOk (ascii "AT+CFUN=1") radioCfunTimeoutMs,readsCfun 1] then pure true
        else failClosed
    else failClosed

/-- Of the lines before the final OK one is `good`; no other line is about the same. -/
def OneLine (text : Bytes) (good about : Bytes → Prop) : Prop :=
  ∃ before line after, lines text = before ++ line::after ∧ good line ∧ okLine ∉ before ∧
    ∀ l ∈ before ++ after, ¬about l

def ShowsScalar (key : Bytes) (value : Nat) (r : Reply) : Prop :=
  ∃ text, r.text = some text ∧ modemRadioResponseStatus text = .ok ∧
    OneLine text (fun line => ∃ number, Carries key line number ∧ Number number value) (Names key)

/-- The CAT-M bands 3 and 20, and no other. -/
def CatMBands (value : Bytes) : Prop :=
  ∃ gap first second, value = catM ++ gap ++ comma::(first ++ comma::second) ∧ Blank gap ∧
    (Number first 3 ∧ Number second 20 ∨ Number first 20 ∧ Number second 3)

def NbIotLine (line : Bytes) : Prop := ∃ value, Carries (ascii "+CBANDCFG") line value ∧ nbIot <+: value

def ShowsBands (r : Reply) : Prop :=
  ∃ text, r.text = some text ∧ modemRadioResponseStatus text = .ok ∧
    OneLine text (fun line => ∃ value, Carries (ascii "+CBANDCFG") line value ∧ CatMBands value)
      (fun line => Names (ascii "+CBANDCFG") line ∧ ¬NbIotLine line)

section Scans
variable {α : Type} {good : α → Bytes → Prop} {about : Bytes → Prop} {terminal : Bool} {found : Option α}
  {value v : α} {line : Bytes} {rest : List Bytes}

/-- Where a scan has its value from: it had it before, or one of the lines says it. -/
def Found (good : α → Bytes → Prop) (about : Bytes → Prop) (terminal : Bool) (found : Option α) (value : α)
    (ls : List Bytes) : Prop :=
  (found = some value ∧ ∀ l ∈ ls, ¬about l) ∨ (found = none ∧ terminal = false ∧ ∃ before line after,
    ls = before ++ line::after ∧ good value line ∧ okLine ∉ before ∧ ∀ l ∈ before ++ after, ¬about l)

theorem foundPast (aside : ¬about line) (h : Found good about (terminal || line = okLine) found value rest) :
    Found good about terminal found value (line::rest) := by
  rcases h with ⟨same,none_⟩ | ⟨open_,early,before,it,after,rfl,here,noOk,none_⟩
  · exact .inl ⟨same,List.forall_mem_cons.mpr ⟨aside,none_⟩⟩
  · obtain ⟨started,notOk⟩ := Bool.or_eq_false_iff.mp early
    refine .inr ⟨open_,started,line::before,it,after,rfl,here,?_,List.forall_mem_cons.mpr ⟨aside,none_⟩⟩
    exact List.not_mem_cons_of_ne_of_not_mem (fun same => by simp [← same] at notOk) noOk

theorem foundHere (open_ : found = none) (early : terminal = false) (here : good v line) {later : Bool}
    (h : Found good about later (some v) value rest) : Found good about terminal found value (line::rest) := by
  rcases h with ⟨same,none_⟩ | ⟨closed,-⟩
  · cases same
    exact .inr ⟨open_,early,[],line,rest,rfl,here,nofun,none_⟩
  · exact absurd closed nofun

theorem foundOne {text : Bytes} (h : Found good about false none value (lines text)) : OneLine text (good value) about := by
  rcases h with ⟨early,-⟩ | ⟨-,-,shown⟩
  · exact absurd early nofun
  · exact shown

theorem oneLineMono {text : Bytes} {good better : Bytes → Prop} (h : OneLine text good about)
    (all : ∀ line, good line → better line) : OneLine text better about := by
  obtain ⟨before,line,after,split_,here,alone⟩ := h
  exact ⟨before,line,after,split_,all line here,alone⟩

end Scans

theorem scanScalarFinds {key : Bytes} {terminal : Bool} {found : Option Nat} {ls : List Bytes} {value : Nat}
    (h : scanScalar key terminal found ls = some value) :
    Found (fun value line => ∃ number, Carries key line number ∧ Number number value) (Names key) terminal found value ls := by
  induction ls generalizing terminal found with
  | nil => exact .inl ⟨h,nofun⟩
  | cons line rest ih =>
    rw [scanScalar] at h
    split at h
    · exact absurd h nofun
    · rename_i other
      exact foundPast (namedOther other) (ih h)
    · rename_i text named
      split at h
      · exact absurd h nofun
      · rename_i free
        obtain ⟨early,open_⟩ := Bool.or_eq_false_iff.mp (Bool.eq_false_iff.mpr free)
        split at h
        · rename_i v taken
          obtain ⟨said,carries,back,rfl,blank⟩ := namedCarries named
          obtain ⟨number,after,rfl,number_,after_⟩ := takenNumber taken
          refine foundHere (Option.isNone_iff_eq_none.mp (by simpa using open_)) (Bool.or_eq_false_iff.mp early).1
            ⟨_,carries,?_⟩ (ih h)
          simpa using numberPadded number_ blankNil (blankAppend after_ blank)
        · exact absurd h nofun

/-- Numbers between commas. -/
inductive Numbers : List Nat → Bytes → Prop where
  | last {text value} (number : Number text value) : Numbers [value] text
  | next {first text value values} (number : Number first value) (rest : Numbers values text) :
      Numbers (value::values) (first ++ comma::text)

theorem numbersPadded {values : List Nat} {text after : Bytes} (h : Numbers values text) (blank : Blank after) :
    Numbers values (text ++ after) := by
  induction h with
  | last number => exact .last (numberPadded number blankNil blank)
  | next number rest ih =>
    rw [List.append_assoc,List.cons_append]
    exact .next number ih

theorem bandListReads {seen : List Nat} {text : Bytes} {bands : List Nat} (h : bandList seen text = some bands) :
    ∃ values, bands = seen ++ values ∧ Numbers values text := by
  fun_induction bandList seen text with
  | case1 => exact absurd h nofun
  | case2 => exact absurd h nofun
  | case3 seen text band valid taken =>
    cases h
    obtain ⟨number,after,rfl,number_,after_⟩ := takenNumber taken
    refine ⟨[band],rfl,.last ?_⟩
    simpa using numberPadded number_ blankNil after_
  | case4 seen text band valid numbers taken _ ih =>
    obtain ⟨values,rfl,rest⟩ := ih h
    obtain ⟨number,after,rfl,number_,after_⟩ := takenNumber taken
    refine ⟨band::values,by simp,?_⟩
    rw [List.append_assoc,List.cons_append]
    exact .next number_ (numbersPadded rest after_)
  | case5 => exact absurd h nofun

theorem twoBands {bands : List Nat} (two : bands.length = 2) (three : 3 ∈ bands) (twenty : 20 ∈ bands) :
    bands = [3,20] ∨ bands = [20,3] := by
  obtain ⟨a,b,rfl⟩ := List.length_eq_two.mp two
  simp only [List.mem_cons,List.not_mem_nil,or_false] at three twenty
  rcases three with rfl | rfl <;> rcases twenty with h | h <;> simp_all

theorem wantedBands {gap text : Bytes} {bands : List Nat} (blank : Blank gap) (numbers : Numbers bands text)
    (same : bands = [3,20] ∨ bands = [20,3]) : CatMBands (catM ++ gap ++ comma::text) := by
  cases numbers with
  | last number => exact absurd same (by simp)
  | next number rest =>
    cases rest with
    | last second =>
      refine ⟨gap,_,_,rfl,blank,?_⟩
      rcases same with same | same
      · cases same
        exact .inl ⟨number,second⟩
      · cases same
        exact .inr ⟨number,second⟩
    | next second more =>
      cases more <;> exact absurd same (by simp)

/-- A CAT-M line of the bands. -/
def BandsLine (bands : List Nat) (line : Bytes) : Prop :=
  ∃ gap text, Carries (ascii "+CBANDCFG") line (catM ++ gap ++ comma::text) ∧ Blank gap ∧ Numbers bands text

theorem scanBandsFinds {terminal : Bool} {found : Option (List Nat)} {ls : List Bytes} {bands : List Nat}
    (h : scanBands terminal found ls = some bands) :
    Found BandsLine (fun line => Names (ascii "+CBANDCFG") line ∧ ¬NbIotLine line) terminal found bands ls := by
  induction ls generalizing terminal found with
  | nil => exact .inl ⟨h,nofun⟩
  | cons line rest ih =>
    rw [scanBands] at h
    split at h
    · exact absurd h nofun
    · rename_i other
      exact foundPast (fun about => namedOther other about.1) (ih h)
    · rename_i text named
      obtain ⟨said,carries,back,rfl,blank⟩ := namedCarries named
      split at h
      · rename_i nb
        have aside : NbIotLine line := ⟨_,carries,(List.isPrefixOf_iff_prefix.mp nb).trans (List.prefix_append ..)⟩
        exact foundPast (fun about => about.2 aside) (ih h)
      · split at h
        · exact absurd h nofun
        · rename_i free
          obtain ⟨head,early⟩ := Bool.or_eq_false_iff.mp (Bool.eq_false_iff.mpr free)
          obtain ⟨starts,open_⟩ := Bool.or_eq_false_iff.mp head
          have starts : catM <+: text := List.isPrefixOf_iff_prefix.mp (by simpa using starts)
          obtain ⟨more,rfl⟩ := starts
          rw [List.drop_left] at h
          obtain ⟨gap,after,parts,gap_,after_⟩ := trimSplit more
          split at h
          · exact absurd h nofun
          · rename_i c numbers list
            split at h
            · rename_i here
              subst here
              split at h
              · exact absurd h nofun
              · rename_i read listed
                obtain ⟨values,rfl,numbers_⟩ := bandListReads listed
                have value : catM ++ more ++ back = catM ++ gap ++ comma::(numbers ++ (after ++ back)) := by
                  conv_lhs => rw [parts,list]
                  simp
                rw [value] at carries
                exact foundHere (Option.isNone_iff_eq_none.mp (by simpa using open_)) (Bool.or_eq_false_iff.mp early).1
                  ⟨gap,_,carries,gap_,numbersPadded numbers_ (blankAppend after_ blank)⟩ (ih h)
            · exact absurd h nofun

abbrev History := Trace Ans

def cfunOff : Command := ⟨ascii "AT+CFUN=4",radioCfunTimeoutMs⟩
def cfunQuery : Command := ⟨ascii "AT+CFUN?",radioCfunTimeoutMs⟩
def cnmpQuery : Command := ⟨ascii "AT+CNMP?",radioAtTimeoutMs⟩
def cmnbQuery : Command := ⟨ascii "AT+CMNB?",radioAtTimeoutMs⟩
def bandsQuery : Command := ⟨ascii "AT+CBANDCFG?",radioAtTimeoutMs⟩

/-- Writes one of the three settings. -/
def writes (command : Command) : Bool :=
  [ascii "AT+CNMP=",ascii "AT+CMNB=",ascii "AT+CBANDCFG="].any (·.isPrefixOf command.text)

def changesCfun (command : Command) : Bool := (ascii "AT+CFUN=").isPrefixOf command.text

def Answered (r : Reply) : Prop := ∃ text, r.text = some text ∧ modemRadioResponseStatus text = .ok

/-- The radio was commanded off and read back as off since its functionality was last changed. -/
def RadioOff (past : History) : Prop :=
  ∃ (before : History) (off : Reply) (between : History) (read : Reply) (after : History),
    past = before ++ ⟨cfunOff,off⟩::(between ++ ⟨cfunQuery,read⟩::after) ∧ Answered off ∧
      ShowsScalar (ascii "+CFUN") 4 read ∧ ∀ x ∈ between ++ after, changesCfun x.1 = false

/-- The last reply to the query shows it, and nothing was changed after. -/
def LastShows (changes : Command → Bool) (query : Command) (shows_ : Reply → Prop) (past : History) : Prop :=
  ∃ (before : History) (r : Reply) (after : History), past = before ++ ⟨query,r⟩::after ∧ shows_ r ∧
    ∀ x ∈ after, x.1.text ≠ query.text ∧ changes x.1 = false

structure Settled (past : History) : Prop where
  mode : LastShows writes cnmpQuery (ShowsScalar (ascii "+CNMP") 38) past
  preferred : LastShows writes cmnbQuery (ShowsScalar (ascii "+CMNB") 1) past
  bands : LastShows writes bandsQuery ShowsBands past

def EndsOff (past : History) : Prop := ∃ (before : History) (r : Reply), past = before ++ [⟨cfunOff,r⟩]

/-- A whole conversation, and what the policy returns at its end. -/
structure FailsClosed (resume : Bool) (said : History × Bool) : Prop where
  offFirst : ∀ (before : History) (command : Command) (r : Reply) (after : History),
    said.1 = before ++ ⟨command,r⟩::after → writes command = true → RadioOff before
  settled : said.2 = true → Settled said.1
  on : said.2 = true → resume = true → LastShows changesCfun cfunQuery (ShowsScalar (ascii "+CFUN") 1) said.1
  off : said.2 = false → EndsOff said.1

section Specs
variable {past past' more : History} {α : Type} {last : α → History → Prop}

def needsOff (past : History) (command : Command) : Prop := writes command = true → RadioOff past

/-- With any peer, and nothing issued before `need` allows it. -/
abbrev Speaks (need : History → Command → Prop) (last : α → History → Prop) (c : Code Ans α) (past : History) : Prop :=
  Keeps (spoken need fun _ _ _ => True) last c past

abbrev Ends (last : α → History → Prop) (c : Code Ans α) (past : History) : Prop := Speaks needsOff last c past

theorem harmless {command : Command} (h : writes command = false) : needsOff past command :=
  fun bad => absurd (bad.symm.trans h) nofun

theorem radioOffLater {command : Command} {r : Reply} (h : RadioOff past) (quiet : changesCfun command = false) :
    RadioOff (past ++ [⟨command,r⟩]) := by
  obtain ⟨before,off,between,read,after,rfl,answered,four,same⟩ := h
  refine ⟨before,off,between,read,after ++ [⟨command,r⟩],by simp,answered,four,fun x mem => ?_⟩
  rw [← List.append_assoc] at mem
  rcases List.mem_append.mp mem with old | new
  · exact same x old
  · cases List.mem_singleton.mp new
    exact quiet

theorem lastShowsLater {changes : Command → Bool} {query command : Command} {shows_ : Reply → Prop} {r : Reply}
    (h : LastShows changes query shows_ past) (quiet : command.text ≠ query.text ∧ changes command = false) :
    LastShows changes query shows_ (past ++ [⟨command,r⟩]) := by
  obtain ⟨before,first,after,rfl,shown,same⟩ := h
  refine ⟨before,first,after ++ [⟨command,r⟩],by simp,shown,fun x mem => ?_⟩
  rcases List.mem_append.mp mem with old | new
  · exact same x old
  · cases List.mem_singleton.mp new
    exact quiet

theorem lastShowsNow {changes : Command → Bool} {query : Command} {shows_ : Reply → Prop} {r : Reply} (h : shows_ r) :
    LastShows changes query shows_ (past ++ [⟨query,r⟩]) := ⟨past,r,[],rfl,h,nofun⟩

theorem exchangeEnds {need : History → Command → Prop} {command : Bytes} {timeoutMs : Nat}
    (allowed : need past ⟨command,timeoutMs⟩) :
    Speaks need (fun x past' => ∃ r, past' = past ++ [⟨⟨command,timeoutMs⟩,r⟩] ∧
      ∀ text, x = some text → r.text = some text ∧ modemRadioResponseStatus text = .ok)
      (exchange command timeoutMs) past := by
  refine ⟨allowed,fun r _ => ⟨r,rfl,fun text read => ?_⟩⟩
  obtain ⟨read,ok⟩ := Option.filter_eq_some_iff.mp read
  exact ⟨read,of_decide_eq_true ok⟩

theorem commandOkEnds {need : History → Command → Prop} {command : Bytes} {timeoutMs : Nat}
    (allowed : need past ⟨command,timeoutMs⟩) :
    Speaks need (fun ok past' => ∃ r, past' = past ++ [⟨⟨command,timeoutMs⟩,r⟩] ∧ (ok = true → Answered r))
      (commandOk command timeoutMs) past := by
  refine keepsBind (exchangeEnds allowed) fun x past' ⟨r,same,read⟩ => ⟨r,same,fun ok => ?_⟩
  obtain ⟨text,here⟩ := Option.isSome_iff_exists.mp ok
  exact ⟨text,read text here⟩

theorem readScalarEnds {command key : Bytes} (timeoutMs : Nat)
    (timeout : (if key = ascii "+CFUN" then radioCfunTimeoutMs else radioAtTimeoutMs) = timeoutMs)
    (allowed : needsOff past ⟨command,timeoutMs⟩) :
    Ends (fun x past' => ∃ r, past' = past ++ [⟨⟨command,timeoutMs⟩,r⟩] ∧ ∀ value, x = some value → ShowsScalar key value r)
      (readScalar command key) past := by
  unfold readScalar
  simp only
  rw [timeout]
  refine keepsBind (exchangeEnds allowed) fun x past' ⟨r,same,read⟩ => ⟨r,same,fun value found => ?_⟩
  obtain ⟨text,here,scanned⟩ := Option.bind_eq_some_iff.mp found
  obtain ⟨reply,ok⟩ := read text here
  exact ⟨text,reply,ok,foundOne (scanScalarFinds scanned)⟩

theorem readBandsEnds :
    Ends (fun x past' => ∃ r, past' = past ++ [⟨bandsQuery,r⟩] ∧ (x = .matching → ShowsBands r)) readBands past := by
  refine keepsBind (exchangeEnds (harmless (by decide))) fun x past' ⟨r,same,read⟩ => ?_
  cases found : x.bind fun text => scanBands false none (lines text) with
  | none => exact ⟨r,same,nofun⟩
  | some bands =>
    refine ⟨r,same,fun matching => ?_⟩
    obtain ⟨text,here,scanned⟩ := Option.bind_eq_some_iff.mp found
    obtain ⟨reply,ok⟩ := read text here
    have wanted : bands.length = 2 ∧ 3 ∈ bands ∧ 20 ∈ bands := by
      by_contra other
      rw [if_neg other] at matching
      exact absurd matching nofun
    have same := twoBands wanted.1 wanted.2.1 wanted.2.2
    refine ⟨text,reply,ok,oneLineMono (foundOne (scanBandsFinds scanned)) ?_⟩
    rintro line ⟨gap,numbers,carries,gap_,numbers_⟩
    exact ⟨_,carries,wantedBands gap_ numbers_ same⟩

/-- Reading the settings changes nothing, and they match only as read. -/
theorem readSettingsEnds :
    Ends (fun x past' => x = .matching → Settled past') readSettings past := by
  refine keepsBind (readScalarEnds radioAtTimeoutMs (by decide) (harmless (by decide)))
    fun network past1 ⟨mode,same1,mode_⟩ => ?_
  subst same1
  cases network with
  | none => exact nofun
  | some network =>
    refine keepsBind (readScalarEnds radioAtTimeoutMs (by decide) (harmless (by decide)))
      fun preference past2 ⟨preferred,same2,preferred_⟩ => ?_
    subst same2
    cases preference with
    | none => exact nofun
    | some preference =>
      refine keepsBind readBandsEnds fun bands past3 ⟨listed,same3,bands_⟩ => ?_
      subst same3
      cases bands with
      | invalid => exact nofun
      | mismatch => exact fun matching => absurd matching (by simp)
      | matching =>
        intro matching
        have values : network = 38 ∧ preference = 1 := by
          by_contra other
          rw [if_neg (fun same => other ⟨same.1,same.2.1⟩)] at matching
          exact absurd matching nofun
        obtain ⟨rfl,rfl⟩ := values
        refine ⟨?_,lastShowsLater (lastShowsNow (preferred_ 1 rfl)) (by decide),lastShowsNow (bands_ rfl)⟩
        exact lastShowsLater (lastShowsLater (lastShowsNow (mode_ 38 rfl)) (by decide)) (by decide)

theorem settingsMatchEnds : Ends (fun ok past' => ok = true → Settled past') settingsMatch past :=
  keepsBind readSettingsEnds fun _ _ settled ok => settled (of_decide_eq_true ok)

theorem readsCfunEnds (value : Nat) :
    Ends (fun ok past' => ∃ r, past' = past ++ [⟨cfunQuery,r⟩] ∧ (ok = true → ShowsScalar (ascii "+CFUN") value r))
      (readsCfun value) past :=
  keepsBind (readScalarEnds radioCfunTimeoutMs (by decide) (harmless (by decide)))
    fun _ _ ⟨r,same,shown⟩ => ⟨r,same,fun ok => shown value (of_decide_eq_true ok)⟩

theorem failClosedEnds : Ends (fun ok past' => ok = false ∧ EndsOff past') failClosed past :=
  keepsBind (commandOkEnds (harmless (by decide))) fun _ _ ⟨r,same,_⟩ => ⟨rfl,past,r,same⟩

/-- How a policy has to end. -/
def Closed (resume ok : Bool) (past : History) : Prop :=
  (ok = true → Settled past ∧
    (resume = true → LastShows changesCfun cfunQuery (ShowsScalar (ascii "+CFUN") 1) past)) ∧
    (ok = false → EndsOff past)

theorem closedOff {resume : Bool} : Ends (Closed resume) failClosed past :=
  keepsMono failClosedEnds fun ok past' ⟨off,ends⟩ => ⟨fun on => by simp [off] at on,fun _ => ends⟩

/-- The settings are written with the radio off and are then read back. -/
theorem configureEnds : Ends (fun ok past' => ok = true → Settled past') (allOf [
    commandOk (ascii "AT+CFUN=4") radioCfunTimeoutMs,readsCfun 4,commandOk (ascii "AT+CNMP=38") radioAtTimeoutMs,
    commandOk (ascii "AT+CMNB=1") radioAtTimeoutMs,commandOk (ascii "AT+CBANDCFG=\"CAT-M\",3,20") radioAtTimeoutMs,
    settingsMatch]) past := by
  refine allOfKeeps (keepsMono (commandOkEnds (harmless (by decide))) fun ok past1 ⟨off,same1,answered⟩ => ?_)
  cases ok with
  | false => exact nofun
  | true =>
    subst same1
    refine allOfKeeps (keepsMono (readsCfunEnds 4) fun ok past2 ⟨read,same2,four⟩ => ?_)
    cases ok with
    | false => exact nofun
    | true =>
      subst same2
      have silent : RadioOff (past ++ [⟨cfunOff,off⟩] ++ [⟨cfunQuery,read⟩]) :=
        ⟨past,off,[],read,[],by simp,answered rfl,four rfl,nofun⟩
      -- each write is made in silence and leaves it so
      have wrote {command : Bytes} {rest : List (Code Ans Bool)} {past : History}
          (silent : RadioOff past) (quiet : changesCfun ⟨command,radioAtTimeoutMs⟩ = false)
          (later : ∀ past', RadioOff past' → Ends (fun ok past' => ok = true → Settled past') (allOf rest) past') :
          Ends (fun ok past' => ok = true → Settled past') (allOf (commandOk command radioAtTimeoutMs::rest)) past := by
        refine allOfKeeps (keepsMono (commandOkEnds fun _ => silent) fun ok past' ⟨r,same,_⟩ => ?_)
        cases ok with
        | false => exact nofun
        | true =>
          subst same
          exact later _ (radioOffLater silent quiet)
      refine wrote silent (by decide) fun past3 silent3 => ?_
      refine wrote silent3 (by decide) fun past4 silent4 => ?_
      refine wrote silent4 (by decide) fun past5 _ => ?_
      refine allOfKeeps (keepsMono settingsMatchEnds fun ok past6 settled => ?_)
      cases ok with
      | false => exact nofun
      | true => exact settled

theorem prepareEnds : Ends (Closed false) (modemRadioPrepare true) past := by
  refine keepsBind readSettingsEnds fun settings past' settled => ?_
  cases settings with
  | matching => exact ⟨fun _ => ⟨settled rfl,nofun⟩,nofun⟩
  | invalid => exact closedOff
  | mismatch =>
    refine keepsBind configureEnds fun ok past' settled => ?_
    cases ok with
    | true => exact ⟨fun _ => ⟨settled rfl,nofun⟩,nofun⟩
    | false => exact closedOff

theorem settledLater {command : Command} {r : Reply} (h : Settled past)
    (quiet : command.text ∉ [cnmpQuery.text,cmnbQuery.text,bandsQuery.text] ∧ writes command = false) :
    Settled (past ++ [⟨command,r⟩]) := by
  obtain ⟨other,same⟩ := quiet
  simp only [List.mem_cons,List.not_mem_nil,or_false,not_or] at other
  exact ⟨lastShowsLater h.mode ⟨other.1,same⟩,lastShowsLater h.preferred ⟨other.2.1,same⟩,
    lastShowsLater h.bands ⟨other.2.2,same⟩⟩

theorem resumeEnds : Ends (Closed true) (modemRadioResume true) past := by
  refine keepsBind settingsMatchEnds fun ok past' settled => ?_
  cases ok with
  | false => exact closedOff
  | true =>
    refine keepsBind (readScalarEnds radioCfunTimeoutMs (by decide) (harmless (by decide)))
      fun functionality past1 ⟨read,same1,shown⟩ => ?_
    subst same1
    have settled1 : Settled (past' ++ [⟨cfunQuery,read⟩]) := settledLater (settled rfl) (by decide)
    cases functionality with
    | none => exact closedOff
    | some functionality =>
      refine keepsIte (fun one => ?_) fun _ => keepsIte (fun _ => closedOff) fun _ => ?_
      · subst one
        exact ⟨fun _ => ⟨settled1,fun _ => lastShowsNow (shown 1 rfl)⟩,nofun⟩
      · have woken : Ends (fun ok past' => ok = true → Settled past' ∧
            LastShows changesCfun cfunQuery (ShowsScalar (ascii "+CFUN") 1) past')
            (allOf [commandOk (ascii "AT+CFUN=1") radioCfunTimeoutMs,readsCfun 1]) (past' ++ [⟨cfunQuery,read⟩]) := by
          refine allOfKeeps (keepsMono (commandOkEnds (harmless (by decide))) fun ok past2 ⟨r,same2,_⟩ => ?_)
          cases ok with
          | false => exact nofun
          | true =>
            subst same2
            refine allOfKeeps (keepsMono (readsCfunEnds 1) fun ok past3 ⟨again,same3,one⟩ => ?_)
            cases ok with
            | false => exact nofun
            | true =>
              subst same3
              exact fun _ => ⟨settledLater (settledLater settled1 (by decide)) (by decide),lastShowsNow (one rfl)⟩
        refine keepsBind woken fun ok past4 on => ?_
        cases ok with
        | true => exact ⟨fun _ => ⟨(on rfl).1,fun _ => (on rfl).2⟩,nofun⟩
        | false => exact closedOff

end Specs

/-- Whatever the modem answers: the settings are written only with the radio off, true means that
they were read back as required, and false leaves the radio commanded off. -/
theorem policyFailsClosed (modem : Peer Ans) : FailsClosed false (play modem (modemRadioPrepare true) []) ∧
    FailsClosed true (play modem (modemRadioResume true) []) := by
  have closes {resume : Bool} {c : Code Ans Bool} (h : Ends (Closed resume) c []) :
      FailsClosed resume (play modem c []) := by
    obtain ⟨on,off⟩ := playEnds h fun _ _ => trivial
    refine ⟨fun before command r after split_ bad => ?_,fun ok => (on ok).1,fun ok => (on ok).2,off⟩
    exact playNeeds h (fun _ _ => trivial) split_ (Nat.zero_le _) bad
  exact ⟨closes prepareEnds,closes resumeEnds⟩

end Web3PiUps.ModemRadioPolicy
