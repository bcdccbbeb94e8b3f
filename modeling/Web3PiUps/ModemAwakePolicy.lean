import Web3PiUps.ModemRadioPolicy

/-! `modem_awake_policy.c` over the AT callback: nothing may put the modem to sleep. Its static
helpers for lines, values and numbers are those of `modem_radio_policy.c`. -/
namespace Web3PiUps.ModemAwakePolicy
open WupsProtocol ModemAtText Tasks Code Dialogue
open ModemRadioPolicy

abbrev awakeAtTimeoutMs : Nat := 3000
abbrev awakeCfunTimeoutMs : Nat := 10000

structure AwakeConfig where
  slowClock : Nat
  psm : Nat
  edrx : Nat
  deriving DecidableEq, Repr

inductive TailKind where
  | none
  | psmRequest
  | psmActive
  | edrxActive
  deriving DecidableEq, Repr

/-- What `next_line` leaves when it finds no more. -/
def unended (text : Bytes) : Bytes := text.rtakeWhile (· ≠ lf)

def unrelatedFragment (remaining key : Bytes) : Bool :=
  let remaining := trim remaining
  if remaining = [] then true
  else if remaining.length < key.length then !remaining.isPrefixOf key
  else namedValue remaining key = .other

def takeComma (text : Bytes) : Option Bytes :=
  match trim text with
  | [] => none
  | c::rest => if c = comma then some (trim rest) else none

def quote : UInt8 := 0x22

def binaryString (text : Bytes) (bits : Nat) : Bool :=
  text.length = bits+2 && text.head? = some quote && text.getLast? = some quote &&
    (text.tail.take bits).all fun c => c = 0x30 || c = 0x31

def fieldOk (kind : TailKind) (field : Bytes) : Bool :=
  if field = [] then true
  else if kind = .psmActive then
    match takeUnsigned field with
    | some (_,[]) => true
    | _ => false
  else binaryString field (if kind = .psmRequest then 8 else 4)

def fieldLimit (kind : TailKind) : Nat := if kind = .psmRequest then 4 else if kind = .psmActive then 5 else 3

/-- With so many more fields allowed. -/
def optionalFields (kind : TailKind) : Nat → Bytes → Bool
  | _,[] => true
  | 0,_::_ => false
  | left+1,c::text =>
    match takeComma (c::text) with
    | none => false
    | some text =>
      if fieldOk kind (trim (text.takeWhile (· ≠ comma))) then optionalFields kind left (text.dropWhile (· ≠ comma))
      else false

def optionalTail (text : Bytes) (kind : TailKind) : Bool :=
  if kind = .none then text = [] else optionalFields kind (fieldLimit kind) text

def scanMode (key : Bytes) (tail : TailKind) (terminal : Bool) (found : Option Nat) : List Bytes → Option Nat
  | [] => found
  | line::rest =>
    let terminal := terminal || line = okLine
    match namedValue line key with
    | .malformed => none
    | .other => scanMode key tail terminal found rest
    | .value text =>
      if terminal || found.isSome then none
      else
        match takeUnsigned text with
        | none => none
        | some (mode,text) => if optionalTail text tail then scanMode key tail terminal (some mode) rest else none

def modeOf (key : Bytes) (tail : TailKind) (response : Bytes) : Option Nat :=
  if unrelatedFragment (unended response) key then scanMode key tail false none (lines response) else none

def readMode (command key : Bytes) (tail : TailKind) (timeout : Nat) : Code Ans (Option Nat) := do
  let response ← exchange command timeout
  pure (response.bind (modeOf key tail))

def cedrx : Bytes := ascii "+CEDRX"

/-- The fields behind the mode of a CAT-M line. -/
def edrxFields (text : Bytes) : Option Nat := do
  let text ← takeComma text
  let (enabled,text) ← takeUnsigned text
  if enabled > 1 then none
  else
    let text ← takeComma text
    let (ptw,text) ← takeUnsigned text
    if ptw > 15 then none
    else
      let text ← takeComma text
      let (cycle,text) ← takeUnsigned text
      if cycle > 15 ∨ text ≠ [] then none else some enabled

def scanEdrx (terminal : Bool) (found : Option Nat) : List Bytes → Option Nat
  | [] => found
  | line::rest =>
    let terminal := terminal || line = okLine
    match namedValue line cedrx with
    | .malformed => none
    | .other => scanEdrx terminal found rest
    | .value text =>
      match takeUnsigned text with
      | none => none
      | some (mode,text) =>
        -- the inactive NB-IoT configuration does not matter
        if mode = 2 then scanEdrx terminal found rest
        else if mode ≠ 3 || terminal || found.isSome then none
        else
          match edrxFields text with
          | none => none
          | some enabled => scanEdrx terminal (some enabled) rest

def edrxOf (response : Bytes) : Option Nat :=
  if unrelatedFragment (unended response) cedrx then scanEdrx false none (lines response) else none

def readEdrx : Code Ans (Option Nat) := do
  let response ← exchange (ascii "AT+CEDRX?") awakeAtTimeoutMs
  pure (response.bind edrxOf)

def readConfig : Code Ans (Option AwakeConfig) := do
  match ← readMode (ascii "AT+CSCLK?") (ascii "+CSCLK") .none awakeAtTimeoutMs with
  | none => pure none
  | some slowClock =>
    if slowClock > 1 then pure none
    else
      match ← readMode (ascii "AT+CPSMS?") (ascii "+CPSMS") .psmRequest awakeAtTimeoutMs with
      | none => pure none
      | some psm =>
        if psm > 1 then pure none
        else
          match ← readEdrx with
          | none => pure none
          | some edrx => pure (some ⟨slowClock,psm,edrx⟩)

def allOff (config : AwakeConfig) : Bool := config.slowClock = 0 && config.psm = 0 && config.edrx = 0

def failClosed (usable : Bool) : Code Ans Bool := do
  if usable then
    let _ ← commandOk (ascii "AT+CFUN=4") awakeCfunTimeoutMs
    pure false
  else pure false

/-- `usable` is whether there is a callback at all. -/
def modemAwakeVerifyConfig (usable : Bool) : Code Ans Bool := do
  if usable then
    let config ← readConfig
    pure (config.any allOff)
  else pure false

/-- Commanded off, and read back so. -/
def radioOff : Code Ans Bool := do
  if ← commandOk (ascii "AT+CFUN=4") awakeCfunTimeoutMs then
    let functionality ← readMode (ascii "AT+CFUN?") (ascii "+CFUN") .none awakeCfunTimeoutMs
    pure (functionality = some 4)
  else pure false

/-- PSM and eDRX are written with the radio off. -/
def silenced (config : AwakeConfig) : Code Ans Bool :=
  if config.psm ≠ 0 ∨ config.edrx ≠ 0 then radioOff else pure true

def commandWhere (needed : Bool) (command : Bytes) : Code Ans Bool :=
  if needed then commandOk command awakeAtTimeoutMs else pure true

def modemAwakePrepare (usable : Bool) : Code Ans Bool := do
  if usable = false then pure false
  else
    match ← readConfig with
    | none => failClosed usable
    | some config =>
      if allOff config then pure true
      else
        if ← silenced config then
          if ← allOf [
            commandWhere (config.slowClock ≠ 0) (ascii "AT+CSCLK=0"),
            commandWhere (config.psm ≠ 0) (ascii "AT+CPSMS=0"),
            commandWhere (config.edrx ≠ 0) (ascii "AT+CEDRXS=0,4,\"0000\""),
            modemAwakeVerifyConfig usable] then pure true else failClosed usable
        else failClosed usable

def Quoted (bits : Nat) (text : Bytes) : Prop :=
  ∃ digits, text = quote::(digits ++ [quote]) ∧ digits.length = bits ∧ ∀ c ∈ digits, c = 0x30 ∨ c = 0x31

/-- A field of a tail: empty, or what the kind of tail has. -/
structure Field (kind : TailKind) (field : Bytes) : Prop where
  alone : comma ∉ field
  form : Blank field ∨ ∃ before text after, field = before ++ text ++ after ∧ Blank before ∧ Blank after ∧
    if kind = .psmActive then ∃ n, Number text n else Quoted (if kind = .psmRequest then 8 else 4) text

def Fields (kind : TailKind) (fields : List Bytes) : Prop :=
  if kind = .none then fields = [] else fields.length ≤ fieldLimit kind ∧ ∀ field ∈ fields, Field kind field

def commaFields (fields : List Bytes) : Bytes := fields.flatMap fun field => comma::field

def ModeLine (key : Bytes) (tail : TailKind) (mode : Nat) (line : Bytes) : Prop :=
  ∃ number fields after, Carries key line (number ++ commaFields fields ++ after) ∧ Number number mode ∧
    Fields tail fields ∧ Blank after

/-- A start of a line for the key. -/
def CutCopy (key rest : Bytes) : Prop := trim rest ≠ [] ∧ (trim rest <+: key ∨ Names key (trim rest))

def CatMLine (enabled : Nat) (line : Bytes) : Prop :=
  ∃ mode first second third ptw cycle, Carries cedrx line (mode ++ comma::(first ++ comma::(second ++ comma::third))) ∧
    Number mode 3 ∧ Number first enabled ∧ Number second ptw ∧ ptw ≤ 15 ∧ Number third cycle ∧ cycle ≤ 15

def NbIotLine (line : Bytes) : Prop :=
  ∃ number rest, Carries cedrx line (number ++ rest) ∧ Number number 2 ∧ ∀ c ∈ rest.head?, isDigit c = false

/-- An OK reply with one complete line about something, and it is a good one before the OK. No start
of another follows the last line. -/
structure ShowsLine (key : Bytes) (good about : Bytes → Prop) (response : Bytes) : Prop where
  ok : OkReply response
  line : ∃ before line after, lines response = before ++ line::after ∧ good line ∧ about line ∧ okLine ∈ after ∧
    ∀ l ∈ before ++ after, ¬about l
  whole : ¬CutCopy key (unended response)

theorem commaTaken {text rest : Bytes} (h : takeComma text = some rest) :
    ∃ gap before after, text = gap ++ comma::(before ++ rest ++ after) ∧ Blank gap ∧ Blank before ∧ Blank after := by
  unfold takeComma at h
  split at h
  · exact absurd h nofun
  · rename_i c value leads
    split at h
    · rename_i here
      cases h
      subst here
      obtain ⟨gap,back,split_,gap_,back_⟩ := trimSplit text
      obtain ⟨before,after,parts,before_,after_⟩ := trimSplit value
      refine ⟨gap,before,after ++ back,?_,gap_,before_,blankAppend after_ back_⟩
      rw [split_,leads]
      conv_lhs => rw [parts]
      simp
    · exact absurd h nofun

theorem quotedString {text : Bytes} {bits : Nat} (h : binaryString text bits = true) : Quoted bits text := by
  rw [binaryString] at h
  simp only [Bool.and_eq_true,Bool.or_eq_true,decide_eq_true_iff,List.all_eq_true] at h
  obtain ⟨⟨⟨size,first⟩,last⟩,digits⟩ := h
  obtain ⟨rest,rfl⟩ := List.head?_eq_some_iff.mp first
  rw [List.length_cons] at size
  obtain ⟨most,rfl⟩ : ∃ most, rest = most ++ [quote] := by
    cases rest using List.reverseRecOn with
    | nil => exact absurd size (by simp)
    | append_singleton most c =>
      rw [← List.cons_append,List.getLast?_append] at last
      cases last
      exact ⟨most,rfl⟩
  rw [List.length_append,List.length_singleton] at size
  have whole : most.length = bits := by omega
  rw [List.tail_cons,List.take_left' whole] at digits
  exact ⟨most,rfl,whole,digits⟩

theorem fieldForm {kind : TailKind} {field : Bytes} (h : fieldOk kind (trim field) = true) (alone : comma ∉ field) :
    Field kind field := by
  obtain ⟨before,after,split_,before_,after_⟩ := trimSplit field
  refine ⟨alone,?_⟩
  unfold fieldOk at h
  split at h
  · rename_i empty
    exact .inl (blankTrim empty)
  · refine .inr ⟨before,trim field,after,split_,before_,after_,?_⟩
    split at h
    · rename_i active
      rw [if_pos active]
      split at h
      · rename_i n taken
        obtain ⟨number,back,same,number_,back_⟩ := takenNumber taken
        refine ⟨n,?_⟩
        rw [same]
        simpa using numberPadded number_ blankNil back_
      · exact absurd h nofun
    · rename_i request
      rw [if_neg request]
      exact quotedString h

theorem fieldPadded {kind : TailKind} {field before after : Bytes} (h : Field kind field) (before_ : Blank before)
    (after_ : Blank after) : Field kind (before ++ field ++ after) := by
  have blankAlone {gap : Bytes} (blank : Blank gap) : comma ∉ gap := fun mem => absurd (blank comma mem) (by decide)
  refine ⟨?_,?_⟩
  · simp only [List.mem_append,not_or]
    exact ⟨⟨blankAlone before_,h.alone⟩,blankAlone after_⟩
  · rcases h.form with blank | ⟨front,text,back,rfl,front_,back_,here⟩
    · exact .inl (blankAppend (blankAppend before_ blank) after_)
    · exact .inr ⟨before ++ front,text,back ++ after,by simp,blankAppend before_ front_,blankAppend back_ after_,here⟩

theorem optionalFieldsForm {kind : TailKind} {left : Nat} {text : Bytes} (h : optionalFields kind left text = true) :
    ∃ gap fields after, text = gap ++ commaFields fields ++ after ∧ Blank gap ∧ Blank after ∧ fields.length ≤ left ∧
      ∀ field ∈ fields, Field kind field := by
  induction left generalizing text with
  | zero =>
    cases text with
    | nil => exact ⟨[],[],[],rfl,blankNil,blankNil,Nat.le_refl 0,nofun⟩
    | cons c text => exact absurd h nofun
  | succ left ih =>
    cases text with
    | nil => exact ⟨[],[],[],rfl,blankNil,blankNil,Nat.zero_le _,nofun⟩
    | cons c text =>
      rw [optionalFields] at h
      split at h
      · exact absurd h nofun
      · rename_i rest taken
        obtain ⟨gap,before,after,split_,gap_,before_,after_⟩ := commaTaken taken
        split at h
        · rename_i valid
          obtain ⟨inner,fields,back,more,inner_,back_,count,fields_⟩ := ih h
          have alone : comma ∉ rest.takeWhile (· ≠ comma) := fun mem => by simpa using List.mem_takeWhile_imp mem
          have first := fieldPadded (fieldForm valid alone) before_ inner_
          refine ⟨gap,(before ++ rest.takeWhile (· ≠ comma) ++ inner)::fields,back ++ after,?_,gap_,
            blankAppend back_ after_,Nat.succ_le_succ count,List.forall_mem_cons.mpr ⟨first,fields_⟩⟩
          rw [split_]
          conv_lhs => rw [← List.takeWhile_append_dropWhile (p := (· ≠ comma)) (l := rest),more]
          simp [commaFields]
        · exact absurd h nofun

theorem optionalTailForm {kind : TailKind} {text : Bytes} (h : optionalTail text kind = true) :
    ∃ gap fields after, text = gap ++ commaFields fields ++ after ∧ Blank gap ∧ Blank after ∧ Fields kind fields := by
  unfold optionalTail at h
  split at h
  · rename_i none_
    obtain rfl := of_decide_eq_true h
    exact ⟨[],[],[],rfl,blankNil,blankNil,by rw [Fields,if_pos none_]⟩
  · rename_i some_
    obtain ⟨gap,fields,after,split_,gap_,after_,fits⟩ := optionalFieldsForm h
    exact ⟨gap,fields,after,split_,gap_,after_,by rw [Fields,if_neg some_]; exact fits⟩

theorem edrxFieldsForm {text : Bytes} {enabled : Nat} (h : edrxFields text = some enabled) :
    enabled ≤ 1 ∧ ∃ gap first second third ptw cycle, text = gap ++ comma::(first ++ comma::(second ++ comma::third)) ∧
      Blank gap ∧ Number first enabled ∧ Number second ptw ∧ ptw ≤ 15 ∧ Number third cycle ∧ cycle ≤ 15 := by
  unfold edrxFields at h
  obtain ⟨text1,comma1,h⟩ := Option.bind_eq_some_iff.mp h
  obtain ⟨⟨on,text2⟩,number1,h⟩ := Option.bind_eq_some_iff.mp h
  simp only at h
  split at h
  · exact absurd h nofun
  rename_i small
  obtain ⟨text3,comma2,h⟩ := Option.bind_eq_some_iff.mp h
  obtain ⟨⟨ptw,text4⟩,number2,h⟩ := Option.bind_eq_some_iff.mp h
  simp only at h
  split at h
  · exact absurd h nofun
  rename_i narrow
  obtain ⟨text5,comma3,h⟩ := Option.bind_eq_some_iff.mp h
  obtain ⟨⟨cycle,text6⟩,number3,h⟩ := Option.bind_eq_some_iff.mp h
  simp only at h
  split at h
  · exact absurd h nofun
  rename_i last
  obtain ⟨short,empty⟩ := not_or.mp last
  cases h
  obtain rfl : text6 = [] := not_not.mp empty
  obtain ⟨gap1,before1,after1,split1,gap1_,before1_,after1_⟩ := commaTaken comma1
  obtain ⟨gap2,before2,after2,split2,gap2_,before2_,after2_⟩ := commaTaken comma2
  obtain ⟨gap3,before3,after3,split3,gap3_,before3_,after3_⟩ := commaTaken comma3
  obtain ⟨first,end1,parts1,first_,end1_⟩ := takenNumber number1
  obtain ⟨second,end2,parts2,second_,end2_⟩ := takenNumber number2
  obtain ⟨third,end3,parts3,third_,end3_⟩ := takenNumber number3
  refine ⟨Nat.not_lt.mp small,gap1,before1 ++ first ++ gap2,before2 ++ second ++ gap3,
    before3 ++ third ++ (end3 ++ after3 ++ end2 ++ after2 ++ end1 ++ after1),ptw,cycle,?_,gap1_,
    numberPadded first_ before1_ gap2_,numberPadded second_ before2_ gap3_,Nat.not_lt.mp narrow,
    numberPadded third_ before3_ ?_,Nat.not_lt.mp short⟩
  · rw [split1,parts1,split2,parts2,split3,parts3]
    simp
  · exact blankAppend (blankAppend (blankAppend (blankAppend (blankAppend end3_ after3_) end2_) after2_) end1_) after1_

theorem scanModeFinds {key : Bytes} {tail : TailKind} {terminal : Bool} {found : Option Nat} {ls : List Bytes} {mode : Nat}
    (h : scanMode key tail terminal found ls = some mode) :
    Found (ModeLine key tail) (Names key) terminal found mode ls := by
  induction ls generalizing terminal found with
  | nil => exact .inl ⟨h,nofun⟩
  | cons line rest ih =>
    rw [scanMode] at h
    split at h
    · exact absurd h nofun
    · rename_i other
      exact foundPast (namedOther other) (ih h)
    · rename_i text named
      split at h
      · exact absurd h nofun
      · rename_i free
        obtain ⟨early,open_⟩ := Bool.or_eq_false_iff.mp (Bool.eq_false_iff.mpr free)
        split at h
        · exact absurd h nofun
        · rename_i v left taken
          split at h
          · rename_i tailed
            obtain ⟨said,carries,back,rfl,blank⟩ := namedCarries named
            obtain ⟨number,after,rfl,number_,after_⟩ := takenNumber taken
            obtain ⟨gap,fields,more,rfl,gap_,more_,fields_⟩ := optionalTailForm tailed
            refine foundHere (Option.isNone_iff_eq_none.mp (by simpa using open_)) (Bool.or_eq_false_iff.mp early).1
              ⟨number ++ gap,fields,more ++ after ++ back,?_,?_,fields_,blankAppend (blankAppend more_ after_) blank⟩ (ih h)
            · simpa using carries
            · simpa using numberPadded number_ blankNil gap_
          · exact absurd h nofun

theorem scanEdrxFinds {terminal : Bool} {found : Option Nat} {ls : List Bytes} {enabled : Nat}
    (h : scanEdrx terminal found ls = some enabled) :
    Found CatMLine (fun line => Names cedrx line ∧ ¬NbIotLine line) terminal found enabled ls := by
  induction ls generalizing terminal found with
  | nil => exact .inl ⟨h,nofun⟩
  | cons line rest ih =>
    rw [scanEdrx] at h
    split at h
    · exact absurd h nofun
    · rename_i other
      exact foundPast (fun about => namedOther other about.1) (ih h)
    · rename_i text named
      obtain ⟨said,carries,back,rfl,blank⟩ := namedCarries named
      split at h
      · exact absurd h nofun
      · rename_i mode left taken
        obtain ⟨number,behind,rfl,number_,-,rfl,stops⟩ := takeBelowTakes (by decide : 9 ≤ uintMax) taken
        split at h
        · rename_i narrowBand
          subst narrowBand
          have aside : NbIotLine line := by
            refine ⟨number,behind ++ back,by simpa using carries,number_,fun c next => ?_⟩
            cases behind with
            | nil => exact blankNoDigit (blank c (List.mem_of_mem_head? next))
            | cons b behind => exact stops c next
          exact foundPast (fun about => about.2 aside) (ih h)
        · split at h
          · exact absurd h nofun
          · rename_i free
            obtain ⟨head,open_⟩ := Bool.or_eq_false_iff.mp (Bool.eq_false_iff.mpr free)
            obtain ⟨catM,early⟩ := Bool.or_eq_false_iff.mp head
            obtain rfl : mode = 3 := by simpa using catM
            split at h
            · exact absurd h nofun
            · rename_i on fields
              obtain ⟨-,gap,first,second,third,ptw,cycle,split_,gap_,first_,second_,narrow,third_,short⟩ :=
                edrxFieldsForm fields
              obtain ⟨lead,after,parts,lead_,after_⟩ := trimSplit behind
              rw [split_] at parts
              refine foundHere (Option.isNone_iff_eq_none.mp (by simpa using open_)) (Bool.or_eq_false_iff.mp early).1
                ⟨number ++ (lead ++ gap),first,second,third ++ (after ++ back),ptw,cycle,?_,?_,first_,second_,narrow,?_,short⟩
                (ih h)
              · rw [parts] at carries
                simpa using carries
              · simpa using numberPadded number_ blankNil (blankAppend lead_ gap_)
              · simpa using numberPadded third_ blankNil (blankAppend after_ blank)

/-! A reply is believed only where it shows its line. -/

theorem fragmentWhole {rest key : Bytes} (h : unrelatedFragment rest key = true) : ¬CutCopy key rest := by
  rintro ⟨some_,copy⟩
  unfold unrelatedFragment at h
  dsimp only at h
  rw [if_neg some_] at h
  split at h
  · rename_i short
    rcases copy with start | ⟨more,same,-⟩
    · rw [List.isPrefixOf_iff_prefix.mpr start] at h
      exact absurd h nofun
    · have size := congrArg List.length same
      rw [List.length_append] at size
      omega
  · rename_i long
    have unnamed := namedOther (of_decide_eq_true h)
    rcases copy with start | names
    · have whole : trim rest = key := start.eq_of_length_le (Nat.not_lt.mp long)
      exact unnamed ⟨[],by simp [whole],nofun⟩
    · exact unnamed names

theorem namesNoOk {key : Bytes} (plus : key.head? = some 0x2B) : ¬Names key okLine := by
  rintro ⟨rest,same,-⟩
  obtain ⟨more,rfl⟩ := List.head?_eq_some_iff.mp plus
  exact absurd (List.cons.inj same).1 (by decide)

theorem carriesNames {key line value : Bytes} (h : Carries key line value) : Names key line := by
  obtain ⟨before,after,rfl,before_,-⟩ := h
  refine ⟨before ++ colon::(after ++ value),List.append_assoc ..,fun c next => ?_⟩
  cases before with
  | nil => exact .inl (Option.some.inj next).symm
  | cons b before => exact .inr (before_ c (List.mem_of_mem_head? next))

theorem foundShows {key response : Bytes} {good : Nat → Bytes → Prop} {about : Bytes → Prop} {value : Nat}
    (ok : modemRadioResponseStatus response = .ok) (whole : unrelatedFragment (unended response) key = true)
    (found : Found good about false none value (lines response)) (noOk : ¬about okLine)
    (names : ∀ line, good value line → about line) : ShowsLine key (good value) about response := by
  have reply := statusOk.mp ok
  obtain ⟨before,line,after,split_,here,early,alone⟩ := foundOne found
  refine ⟨reply,⟨before,line,after,split_,here,names line here,?_,alone⟩,fragmentWhole whole⟩
  have mem : okLine ∈ lines response := List.count_pos_iff.mp (by rw [reply.ok]; exact Nat.one_pos)
  rw [split_] at mem
  rcases List.mem_cons.mp ((List.mem_append.mp mem).resolve_left early) with same | later
  · exact absurd (same ▸ names line here) noOk
  · exact later

theorem modeShows {key response : Bytes} {tail : TailKind} {mode : Nat} (plus : key.head? = some 0x2B)
    (ok : modemRadioResponseStatus response = .ok) (h : modeOf key tail response = some mode) :
    ShowsLine key (ModeLine key tail mode) (Names key) response := by
  unfold modeOf at h
  split at h
  · rename_i whole
    refine foundShows ok whole (scanModeFinds h) (namesNoOk plus) fun line ⟨_,_,_,carries,_⟩ => ?_
    exact carriesNames carries
  · exact absurd h nofun

theorem blankBehind {b b' : Bytes} {c : UInt8} {x x' : Bytes} (solid : horizontalSpace c = false) (blank : Blank b)
    (blank' : Blank b') (same : b ++ c::x = b' ++ c::x') : x = x' := by
  induction b generalizing b' with
  | nil =>
    cases b' with
    | nil => exact (List.cons.inj same).2
    | cons d b' =>
      obtain rfl := (List.cons.inj same).1
      exact absurd ((blank' c List.mem_cons_self).symm.trans solid) nofun
  | cons d b ih =>
    cases b' with
    | nil =>
      obtain rfl := (List.cons.inj same).1
      exact absurd ((blank d List.mem_cons_self).symm.trans solid) nofun
    | cons d' b' =>
      exact ih (fun x mem => blank x (List.mem_cons_of_mem d mem)) (fun x mem => blank' x (List.mem_cons_of_mem d' mem))
        (List.cons.inj same).2

theorem catMNotNb {enabled : Nat} {line : Bytes} (h : CatMLine enabled line) : ¬NbIotLine line := by
  obtain ⟨mode,first,second,third,ptw,cycle,⟨before,after,rfl,before_,after_⟩,mode_,-⟩ := h
  rintro ⟨number,rest,⟨before',after',same,before'_,after'_⟩,number_,stops⟩
  rw [List.append_assoc,List.append_assoc,List.append_cancel_left_eq] at same
  have said := blankBehind (by decide) before_ before'_ same
  rw [← List.append_assoc,← List.append_assoc] at said
  have three : Number (after ++ mode) 3 := by simpa using numberPadded mode_ after_ blankNil
  have two : Number (after' ++ number) 2 := by simpa using numberPadded number_ after'_ blankNil
  have reads := takeBelowReads (by decide : 9 ≤ uintMax) (comma::(first ++ comma::(second ++ comma::third))) three
    (by decide) (by rintro c ⟨⟩; decide)
  rw [said,takeBelowReads (by decide : 9 ≤ uintMax) rest two (by decide) stops] at reads
  exact absurd (Prod.mk.inj (Option.some.inj reads)).1 (by decide)

theorem catMNames {enabled : Nat} {line : Bytes} (h : CatMLine enabled line) : Names cedrx line := by
  obtain ⟨_,_,_,_,_,_,carries,_⟩ := h
  exact carriesNames carries

theorem edrxShows {response : Bytes} {enabled : Nat} (ok : modemRadioResponseStatus response = .ok)
    (h : edrxOf response = some enabled) :
    ShowsLine cedrx (CatMLine enabled) (fun line => Names cedrx line ∧ ¬NbIotLine line) response := by
  unfold edrxOf at h
  split at h
  · rename_i whole
    refine foundShows ok whole (scanEdrxFinds h) (fun about => namesNoOk (by decide) about.1) fun line shown => ?_
    exact ⟨catMNames shown,catMNotNb shown⟩
  · exact absurd h nofun

inductive Feature where
  | slowClock
  | psm
  | edrx
  deriving DecidableEq, Repr

namespace Feature

def key : Feature → Bytes
  | slowClock => ascii "+CSCLK"
  | psm => ascii "+CPSMS"
  | edrx => cedrx

def query : Feature → Command
  | slowClock => ⟨ascii "AT+CSCLK?",awakeAtTimeoutMs⟩
  | psm => ⟨ascii "AT+CPSMS?",awakeAtTimeoutMs⟩
  | edrx => ⟨ascii "AT+CEDRX?",awakeAtTimeoutMs⟩

def valueOf : Feature → Bytes → Option Nat
  | slowClock => modeOf (ascii "+CSCLK") .none
  | psm => modeOf (ascii "+CPSMS") .psmRequest
  | edrx => edrxOf

/-- A line that may say how the feature is set. -/
def About : Feature → Bytes → Prop
  | edrx => fun line => Names cedrx line ∧ ¬NbIotLine line
  | feature => Names feature.key

/-- A line that says so. -/
def Line : Feature → Nat → Bytes → Prop
  | slowClock => ModeLine (ascii "+CSCLK") .none
  | psm => ModeLine (ascii "+CPSMS") .psmRequest
  | edrx => CatMLine

def read : Feature → Code Ans (Option Nat)
  | slowClock => readMode (ascii "AT+CSCLK?") (ascii "+CSCLK") .none awakeAtTimeoutMs
  | psm => readMode (ascii "AT+CPSMS?") (ascii "+CPSMS") .psmRequest awakeAtTimeoutMs
  | edrx => readEdrx

/-- What a configuration has for it. -/
def of : Feature → AwakeConfig → Nat
  | slowClock => AwakeConfig.slowClock
  | psm => AwakeConfig.psm
  | edrx => AwakeConfig.edrx

/-- The policy takes the reply for the value. -/
def Taken (feature : Feature) (value : Nat) (response : Bytes) : Prop :=
  modemRadioResponseStatus response = .ok ∧ feature.valueOf response = some value

def Shows (feature : Feature) (value : Nat) : Bytes → Prop :=
  ShowsLine feature.key (feature.Line value) feature.About

end Feature

theorem takenShows {feature : Feature} {value : Nat} {response : Bytes} (h : feature.Taken value response) :
    feature.Shows value response := by
  obtain ⟨ok,read⟩ := h
  cases feature with
  | slowClock => exact modeShows (by decide) ok read
  | psm => exact modeShows (by decide) ok read
  | edrx => exact edrxShows ok read

/-! Replies that are cut, and lines said twice. -/

theorem onlyHere {ls before after x y : List Bytes} {line l : Bytes} {about : Bytes → Prop} (split_ : ls = before ++ line::after)
    (alone : ∀ l ∈ before ++ after, ¬about l) (other : ls = x ++ l::y) (here : about l) : x = before ∧ y = after := by
  rcases List.append_eq_append_iff.mp (other.symm.trans split_) with ⟨more,rfl,same⟩ | ⟨more,rfl,same⟩
  · cases more with
    | nil => exact ⟨by simp,(List.cons.inj same).2⟩
    | cons m more =>
      obtain ⟨rfl,-⟩ := List.cons.inj same
      exact absurd here (alone l (by simp))
  · cases more with
    | nil => exact ⟨by simp,(List.cons.inj same).2.symm⟩
    | cons m more =>
      obtain ⟨-,rfl⟩ := List.cons.inj same
      exact absurd here (alone l (by simp))

theorem unendedPart {a part : Bytes} (ended : Ended a) (within : lf ∉ part) : unended (a ++ part) = part := by
  have all : ∀ c ∈ part.reverse, decide (c ≠ lf) = true := fun c mem =>
    decide_eq_true fun same => within (same ▸ List.mem_reverse.mp mem)
  have stop : a.reverse.takeWhile (· ≠ lf) = [] := by
    rcases ended with rfl | ⟨text,rfl⟩
    · rfl
    · rw [List.reverse_append,List.reverse_singleton,List.singleton_append]
      exact List.takeWhile_cons_of_neg (by simp)
  rw [unended,List.rtakeWhile,List.reverse_append,List.takeWhile_append_of_pos all,stop,List.append_nil,List.reverse_reverse]

theorem partCopy {key line part : Bytes} (names : Names key (trim line)) (start : part <+: line) (some_ : trim part ≠ []) :
    CutCopy key part := by
  refine ⟨some_,?_⟩
  obtain ⟨more,rfl⟩ := start
  obtain ⟨rest,named,next⟩ := names
  have solid : part.dropWhile horizontalSpace ≠ [] := fun blank => some_ (trimBlank (List.dropWhile_eq_nil_iff.mp blank))
  -- both stand at the start of the line without its blanks
  obtain ⟨gap,left⟩ : ∃ gap, part.dropWhile horizontalSpace = trim part ++ gap :=
    ⟨_,List.rdropWhile_append_rtakeWhile.symm⟩
  obtain ⟨tail,blank,whole⟩ : ∃ tail, Blank tail ∧ (part ++ more).dropWhile horizontalSpace = key ++ rest ++ tail :=
    ⟨_,fun _ mem => List.mem_rtakeWhile_imp mem,by rw [← named]; exact List.rdropWhile_append_rtakeWhile.symm⟩
  rw [List.dropWhile_append,if_neg (by simpa using solid),left,List.append_assoc,List.append_assoc] at whole
  rcases List.append_eq_append_iff.mp whole with ⟨q,same,-⟩ | ⟨q,same,later⟩
  · exact .inl ⟨q,same.symm⟩
  · refine .inr ⟨q,same,fun c first => ?_⟩
    have here : c ∈ (rest ++ tail).head? := by
      rw [later,List.head?_append,first]
      rfl
    cases rest with
    | nil => exact .inr (blank c (List.mem_of_mem_head? here))
    | cons r rest => exact next c here

theorem aboutOnce {feature : Feature} {value : Nat} {response : Bytes} {x y : List Bytes} {line : Bytes}
    (taken : feature.Taken value response) (split_ : lines response = x ++ line::y) (about : feature.About line) :
    okLine ∉ x ∧ ∀ l ∈ y, ¬feature.About l := by
  have shown := takenShows taken
  obtain ⟨before,it,after,same,-,-,later,alone⟩ := shown.line
  obtain ⟨rfl,rfl⟩ := onlyHere same alone split_ about
  refine ⟨fun early => ?_,fun l mem => alone l (List.mem_append_right x mem)⟩
  have once := shown.ok.ok
  have first := List.count_pos_iff.mpr early
  have second := List.count_pos_iff.mpr later
  rw [same,List.count_append,List.count_cons] at once
  omega

/-- How the replies about a feature are read: for the value of its one line, never for one that is cut. -/
structure Careful (feature : Feature) : Prop where
  reads : ∀ (modem : Peer Ans) (past : History) (value : Nat), (play modem feature.read past).2 = some value ↔
    ∃ response, (modem past feature.query).text = some response ∧ feature.Taken value response
  shown : ∀ value response, feature.Taken value response → feature.Shows value response
  /-- The line, cut anywhere, of a reply that was taken. -/
  cut : ∀ (value other : Nat) (a line b part : Bytes), Ended a → lf ∉ line → feature.About (trim line) → part <+: line →
    feature.Taken value (a ++ (line ++ lf::b)) → ¬feature.Taken other (a ++ part)
  /-- Any line for the key, cut behind its first byte. -/
  fragment : ∀ (value : Nat) (a line part : Bytes), Ended a → lf ∉ line → Names feature.key (trim line) → part <+: line →
    trim part ≠ [] → ¬feature.Taken value (a ++ part)
  twice : ∀ (value : Nat) (response : Bytes) (x y z : List Bytes) (first second : Bytes),
    lines response = x ++ first::(y ++ second::z) → feature.About first → feature.About second →
      ¬feature.Taken value response

theorem featureReads (feature : Feature) (modem : Peer Ans) (past : History) (value : Nat) :
    (play modem feature.read past).2 = some value ↔
      ∃ response, (modem past feature.query).text = some response ∧ feature.Taken value response := by
  have asked : (play modem feature.read past).2 =
      ((modem past feature.query).text.filter (modemRadioResponseStatus · = .ok)).bind feature.valueOf := by
    cases feature <;> rfl
  rw [asked,Option.bind_eq_some_iff]
  constructor
  · rintro ⟨response,kept,read⟩
    obtain ⟨text,ok⟩ := Option.filter_eq_some_iff.mp kept
    exact ⟨response,text,of_decide_eq_true ok,read⟩
  · rintro ⟨response,text,ok,read⟩
    exact ⟨response,Option.filter_eq_some_iff.mpr ⟨text,decide_eq_true ok⟩,read⟩

theorem featureCareful (feature : Feature) : Careful feature where
  reads := featureReads feature
  shown _ _ taken := takenShows taken
  cut := by
    intro value other a line b part ended within about start taken again
    have within_ : lf ∉ part := fun mem => within (start.subset mem)
    have early := (aboutOnce taken (linesWhole b ended within) about).1
    have ok := (takenShows again).ok.ok
    rw [linesCut ended within_,List.count_eq_zero.mpr early] at ok
    exact absurd ok nofun
  fragment := by
    intro value a line part ended within names start some_ taken
    have within_ : lf ∉ part := fun mem => within (start.subset mem)
    have whole := (takenShows taken).whole
    rw [unendedPart ended within_] at whole
    exact whole (partCopy names start some_)
  twice := by
    intro value response x y z first second split_ about again taken
    exact (aboutOnce taken split_ about).2 second (by simp) again

/-- Writes PSM or eDRX. -/
def writes (command : Command) : Bool := [ascii "AT+CPSMS=",ascii "AT+CEDRXS="].any (·.isPrefixOf command.text)

/-- Sets any of the three. -/
def sets (command : Command) : Bool :=
  [ascii "AT+CSCLK=",ascii "AT+CPSMS=",ascii "AT+CEDRXS="].any (·.isPrefixOf command.text)

/-- The reply is taken for the value. -/
def Feature.TakenReply (feature : Feature) (value : Nat) (r : Reply) : Prop :=
  ∃ response, r.text = some response ∧ feature.Taken value response

/-- A whole conversation, and what the policy returns at its end. -/
structure AwakeClosed (said : History × Bool) : Prop where
  offFirst : ∀ (before : History) (command : Command) (r : Reply) (after : History),
    said.1 = before ++ ⟨command,r⟩::after → writes command = true → RadioOff before
  disabled : said.2 = true → ∀ feature : Feature, LastShows sets feature.query (feature.TakenReply 0) said.1
  off : said.2 = false → EndsOff said.1

section Specs
variable {past past' : History} {α : Type} {last : α → History → Prop}

def needsOff (past : History) (command : Command) : Prop := writes command = true → RadioOff past

abbrev Ends (last : α → History → Prop) (c : Code Ans α) (past : History) : Prop := Speaks needsOff last c past

theorem harmless {command : Command} (h : writes command = false) : needsOff past command :=
  fun bad => absurd (bad.symm.trans h) nofun

theorem askEnds {command : Bytes} {timeoutMs : Nat} (valueOf : Bytes → Option Nat) (allowed : needsOff past ⟨command,timeoutMs⟩) :
    Ends (fun x past' => ∃ r, past' = past ++ [⟨⟨command,timeoutMs⟩,r⟩] ∧ ∀ value, x = some value →
      ∃ response, r.text = some response ∧ modemRadioResponseStatus response = .ok ∧ valueOf response = some value)
      (do let response ← exchange command timeoutMs; pure (response.bind valueOf)) past := by
  refine keepsBind (exchangeEnds allowed) fun x past' ⟨r,same,read⟩ => ⟨r,same,fun value found => ?_⟩
  obtain ⟨response,here,value_⟩ := Option.bind_eq_some_iff.mp found
  obtain ⟨text,ok⟩ := read response here
  exact ⟨response,text,ok,value_⟩

theorem featureEnds (feature : Feature) :
    Ends (fun x past' => ∃ r, past' = past ++ [⟨feature.query,r⟩] ∧ ∀ value, x = some value → feature.TakenReply value r)
      feature.read past := by
  cases feature with
  | slowClock => exact askEnds (modeOf (ascii "+CSCLK") .none) (harmless (by decide))
  | psm => exact askEnds (modeOf (ascii "+CPSMS") .psmRequest) (harmless (by decide))
  | edrx => exact askEnds edrxOf (harmless (by decide))

def Reads (config : AwakeConfig) (past : History) : Prop :=
  ∀ feature : Feature, LastShows sets feature.query (feature.TakenReply (feature.of config)) past

theorem readConfigEnds : Ends (fun x past' => ∀ config, x = some config → Reads config past') readConfig past := by
  refine keepsBind (featureEnds .slowClock) fun slowClock past1 ⟨clocked,same1,slowClock_⟩ => ?_
  subst same1
  cases slowClock with
  | none => exact nofun
  | some slowClock =>
    refine keepsIte (fun _ => nofun) fun _ => ?_
    refine keepsBind (featureEnds .psm) fun psm past2 ⟨saved,same2,psm_⟩ => ?_
    subst same2
    cases psm with
    | none => exact nofun
    | some psm =>
      refine keepsIte (fun _ => nofun) fun _ => ?_
      refine keepsBind (featureEnds .edrx) fun edrx past3 ⟨paged,same3,edrx_⟩ => ?_
      subst same3
      cases edrx with
      | none => exact nofun
      | some edrx =>
        rintro config ⟨⟩ feature
        cases feature with
        | slowClock => exact lastShowsLater (lastShowsLater (lastShowsNow (slowClock_ _ rfl)) (by decide)) (by decide)
        | psm => exact lastShowsLater (lastShowsNow (psm_ _ rfl)) (by decide)
        | edrx => exact lastShowsNow (edrx_ _ rfl)

def Disabled (past : History) : Prop := ∀ feature : Feature, LastShows sets feature.query (feature.TakenReply 0) past

theorem offDisabled {config : AwakeConfig} (reads : Reads config past) (off : allOff config = true) : Disabled past := by
  rw [allOff,Bool.and_eq_true,Bool.and_eq_true,decide_eq_true_iff,decide_eq_true_iff,decide_eq_true_iff] at off
  obtain ⟨⟨slowClock,psm⟩,edrx⟩ := off
  intro feature
  have read := reads feature
  have zero : feature.of config = 0 := by
    cases feature with
    | slowClock => exact slowClock
    | psm => exact psm
    | edrx => exact edrx
  rw [zero] at read
  exact read

theorem verifyConfigEnds : Ends (fun ok past' => ok = true → Disabled past') (modemAwakeVerifyConfig true) past := by
  refine keepsBind readConfigEnds fun config past' reads ok => ?_
  cases config with
  | none => exact absurd ok nofun
  | some config => exact offDisabled (reads config rfl) ok

theorem failClosedEnds : Ends (fun ok past' => ok = false ∧ EndsOff past') (failClosed true) past :=
  keepsBind (commandOkEnds (harmless (by decide))) fun _ _ ⟨r,same,_⟩ => ⟨rfl,past,r,same⟩

theorem offShows {r : Reply} {response : Bytes} (text : r.text = some response)
    (ok : modemRadioResponseStatus response = .ok) (read : modeOf (ascii "+CFUN") .none response = some 4) :
    ShowsScalar (ascii "+CFUN") 4 r := by
  obtain ⟨reply,⟨before,line,after,split_,mode,-,later,alone⟩,-⟩ := modeShows (by decide) ok read
  refine ⟨response,text,ok,before,line,after,split_,?_,?_,alone⟩
  · obtain ⟨number,fields,back,carries,number_,fields_,back_⟩ := mode
    obtain rfl : fields = [] := fields_
    exact ⟨_,carries,by simpa [commaFields] using numberPadded number_ blankNil back_⟩
  · intro early
    have once := reply.ok
    have first := List.count_pos_iff.mpr early
    have second := List.count_pos_iff.mpr later
    rw [split_,List.count_append,List.count_cons] at once
    omega

theorem radioOffEnds : Ends (fun ok past' => ok = true → RadioOff past') radioOff past := by
  refine keepsBind (commandOkEnds (harmless (by decide))) fun ok past1 ⟨off,same1,answered⟩ => ?_
  subst same1
  cases ok with
  | false => exact nofun
  | true =>
    refine keepsBind (askEnds (modeOf (ascii "+CFUN") .none) (harmless (by decide))) fun mode past2 ⟨read,same2,four⟩ ok => ?_
    subst same2
    obtain ⟨response,text,status,value⟩ := four 4 (of_decide_eq_true ok)
    exact ⟨past,off,[],read,[],List.append_assoc ..,answered rfl,offShows text status value,nofun⟩

/-- The radio is off where PSM or eDRX is to be written. -/
def Silent (config : AwakeConfig) (past : History) : Prop := config.psm ≠ 0 ∨ config.edrx ≠ 0 → RadioOff past

theorem silencedEnds (config : AwakeConfig) :
    Ends (fun ok past' => ok = true → Silent config past') (silenced config) past :=
  keepsIte (fun _ => keepsMono radioOffEnds fun _ _ off ok _ => off ok) fun idle _ needed => absurd needed idle

theorem whereEnds {config : AwakeConfig} {needed : Bool} {command : Bytes} (silent : Silent config past)
    (allowed : needed = true → needsOff past ⟨command,awakeAtTimeoutMs⟩)
    (quiet : changesCfun ⟨command,awakeAtTimeoutMs⟩ = false) :
    Ends (fun _ past' => Silent config past') (commandWhere needed command) past := by
  cases needed with
  | false => exact silent
  | true =>
    refine keepsMono (commandOkEnds (allowed rfl)) fun ok past' ⟨r,same,_⟩ any => ?_
    subst same
    exact radioOffLater (silent any) quiet

/-- How the policy has to end. -/
def Closed (ok : Bool) (past : History) : Prop := (ok = true → Disabled past) ∧ (ok = false → EndsOff past)

theorem closedOff : Ends Closed (failClosed true) past :=
  keepsMono failClosedEnds fun ok past' ⟨off,ends⟩ => ⟨fun on => by simp [off] at on,fun _ => ends⟩

/-- The commands are written in silence where it is needed, and what they set is then read back. -/
theorem disableEnds {config : AwakeConfig} (silent : Silent config past) :
    Ends (fun ok past' => ok = true → Disabled past') (allOf [
      commandWhere (config.slowClock ≠ 0) (ascii "AT+CSCLK=0"),commandWhere (config.psm ≠ 0) (ascii "AT+CPSMS=0"),
      commandWhere (config.edrx ≠ 0) (ascii "AT+CEDRXS=0,4,\"0000\""),modemAwakeVerifyConfig true]) past := by
  refine allOfKeeps (keepsMono (whereEnds silent (fun _ => harmless (by decide)) (by decide)) fun ok past1 silent1 => ?_)
  cases ok with
  | false => exact nofun
  | true =>
    refine allOfKeeps (keepsMono (whereEnds silent1 (fun psm _ => silent1 (.inl (of_decide_eq_true psm))) (by decide))
      fun ok past2 silent2 => ?_)
    cases ok with
    | false => exact nofun
    | true =>
      refine allOfKeeps (keepsMono (whereEnds silent2 (fun edrx _ => silent2 (.inr (of_decide_eq_true edrx))) (by decide))
        fun ok past3 _ => ?_)
      cases ok with
      | false => exact nofun
      | true =>
        refine allOfKeeps (keepsMono verifyConfigEnds fun ok past4 disabled => ?_)
        cases ok with
        | false => exact nofun
        | true => exact disabled

theorem prepareEnds : Ends Closed (modemAwakePrepare true) past := by
  refine keepsBind readConfigEnds fun config past1 reads => ?_
  cases config with
  | none => exact closedOff
  | some config =>
    refine keepsIte (fun off => ⟨fun _ => offDisabled (reads config rfl) off,nofun⟩) fun _ => ?_
    refine keepsBind (silencedEnds config) fun ok past2 silent => ?_
    cases ok with
    | false => exact closedOff
    | true =>
      refine keepsBind (disableEnds (silent rfl)) fun ok past3 disabled => ?_
      cases ok with
      | true => exact ⟨fun _ => disabled rfl,nofun⟩
      | false => exact closedOff

end Specs

/-- Whatever the modem answers: PSM and eDRX are written only with the radio off, true means that the
last reply about each feature was taken for disabled, and false leaves the radio commanded off. A reply
is taken for what its one whole line about the feature says. -/
theorem awakeFailsClosed :
    (∀ modem : Peer Ans, AwakeClosed (play modem (modemAwakePrepare true) [])) ∧ ∀ feature, Careful feature := by
  refine ⟨fun modem => ?_,featureCareful⟩
  have ends : Ends Closed (modemAwakePrepare true) [] := prepareEnds
  have possible : ∀ (past : History) (command : Command), True := fun _ _ => trivial
  obtain ⟨on,off⟩ : Closed (play modem (modemAwakePrepare true) []).2 (play modem (modemAwakePrepare true) []).1 :=
    playEnds ends possible
  refine ⟨fun before command r after split_ bad => ?_,on,off⟩
  exact playNeeds ends possible split_ (Nat.zero_le _) bad

end Web3PiUps.ModemAwakePolicy
