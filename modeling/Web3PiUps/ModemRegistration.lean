import Web3PiUps.ModemAtText

/-! `modem_recovery.c`: the registration that a `+CEREG` reply reports, and the grace that its
return gives the modem once between two recoveries of the backend. -/
namespace Web3PiUps.ModemRegistration
open WupsProtocol ModemAtText

abbrev modemRecoveryRegGraceS : UInt32 := 90

structure ModemRecovery where
  registrationKnown : Bool
  registered : Bool
  graceUsed : Bool
  graceStartedS : UInt32
  deriving DecidableEq, Repr

def modemRecoveryInit : ModemRecovery := ⟨false,false,false,0⟩

def blank (c : UInt8) : Bool := c = space || c = tab

def skipSpace : Bytes → Bytes
  | [] => []
  | c::rest => if blank c then skipSpace rest else c::rest

def fieldDigits (maximum n : Nat) : Bytes → Option (Nat × Bytes)
  | [] => some (n,[])
  | c::rest =>
    if isDigit c then
      if n*10 + digitOf c > maximum then none else fieldDigits maximum (n*10 + digitOf c) rest
    else some (n,c::rest)

def field (p : Bytes) (maximum : Nat) : Option (Nat × Bytes) :=
  let p := skipSpace p
  if p.head?.any isDigit then (fieldDigits maximum 0 p).map fun (n,p) => (n,skipSpace p)
  else none

/-- What follows the first LF, where there is one. -/
def afterLine : Bytes → Option Bytes
  | [] => none
  | c::rest => if c = lf then some rest else afterLine rest

theorem afterLineShorter {text rest : Bytes} (next : afterLine text = some rest) : rest.length < text.length := by
  induction text with
  | nil => exact absurd next nofun
  | cons c text ih =>
    rw [afterLine] at next
    rw [List.length_cons]
    split at next
    · cases next
      exact Nat.lt_succ_self _
    · exact (ih next).trans (Nat.lt_succ_self _)

def ceregKey : Bytes := ascii "+CEREG:"

/-- The two numbers behind the key; `p` is the rest of the whole reply, as in the source. -/
def ceregStatus (p : Bytes) : Option Nat :=
  match field p 5 with
  | none => none
  | some (_,p) =>
    if p.head? ≠ some comma then none
    else
      match field p.tail 10 with
      | none => none
      | some (status,p) =>
        if p.head? ≠ some comma ∧ p.head? ≠ some cr ∧ p.head? ≠ some lf then none else some status

/-- From the start of a line; `found` holds the status once one is. -/
def ceregFrom (found : Option Nat) (line : Bytes) : Option Nat :=
  match _next : afterLine line with
  | none => found
  | some rest =>
    let p := skipSpace line
    if ceregKey.isPrefixOf p = false then ceregFrom found rest
    else if found.isSome then none
    else
      match ceregStatus (p.drop ceregKey.length) with
      | none => none
      | some status => ceregFrom (some status) rest
termination_by line.length
decreasing_by all_goals exact afterLineShorter ‹_›

def modemRecoveryParseCereg (reply : Bytes) : Option Bool :=
  if modemRadioResponseStatus reply = .ok then (ceregFrom none reply).map fun status => status = 1 || status = 5
  else none

def modemRecoveryObserveRegistration (state : ModemRecovery) (reply : Bytes) (nowS : UInt32) : ModemRecovery × Bool :=
  match modemRecoveryParseCereg reply with
  | none => (state,false)
  | some registered =>
    let returned := state.registrationKnown && !state.registered && registered
    let state := { state with registrationKnown := true, registered := registered }
    if !returned || state.graceUsed then (state,false)
    else ({ state with graceUsed := true, graceStartedS := nowS },true)

def modemRecoveryGraceActive (state : ModemRecovery) (nowS : UInt32) : Bool :=
  state.graceUsed && nowS-state.graceStartedS < modemRecoveryRegGraceS

def modemRecoveryBackendHealthy (state : ModemRecovery) : ModemRecovery :=
  { state with graceUsed := false, graceStartedS := 0 }

def Blanks (text : Bytes) : Prop := ∀ c ∈ text, blank c = true

abbrev Decimal : Bytes → Nat → Prop := Numerals.Denotes decimalDigit 10

def Keyed (line : Bytes) : Prop := ∃ before rest, line = before ++ (ceregKey ++ rest) ∧ Blanks before

/-- The digits of a number, between blanks. -/
def Field (text : Bytes) (n : Nat) : Prop :=
  ∃ before digits after, text = before ++ (digits ++ after) ∧ Blanks before ∧ Decimal digits n ∧ Blanks after

/-- Mode and state; where nothing follows in the line, its LF does. -/
structure Reports (line : Bytes) (state : Nat) : Prop where
  line : ∃ before mode status tail n, line = before ++ (ceregKey ++ (mode ++ comma::(status ++ tail))) ∧ Blanks before ∧
    Field mode n ∧ n ≤ 5 ∧ Field status state ∧ ∀ c ∈ tail.head?, c = comma ∨ c = cr
  state : state ≤ 10

structure Accepted (reply : Bytes) (state : Nat) : Prop where
  ok : OkReply reply
  one : ∃ before line after, rawLines reply = before ++ line::after ∧ Reports line state ∧ ∀ l ∈ before ++ after, ¬Keyed l

theorem byLines {motive : Bytes → Prop} (unended : ∀ text, lf ∉ text → motive text)
    (line : ∀ line rest, lf ∉ line → motive rest → motive (line ++ lf::rest)) (reply : Bytes) : motive reply := by
  by_cases ends : lf ∈ reply
  · obtain ⟨first,rest,rfl,within⟩ := List.eq_append_cons_of_mem ends
    exact line first rest within (byLines unended line rest)
  · exact unended reply ends
termination_by reply.length
decreasing_by
  subst_vars
  simp only [List.length_append,List.length_cons]
  omega

theorem afterUnended {text : Bytes} (unended : lf ∉ text) : afterLine text = none := by
  induction text with
  | nil => rfl
  | cons c text ih =>
    rw [List.mem_cons,not_or] at unended
    rw [afterLine,if_neg (Ne.symm unended.1),ih unended.2]

theorem afterFirst {line : Bytes} (rest : Bytes) (within : lf ∉ line) : afterLine (line ++ lf::rest) = some rest := by
  induction line with
  | nil => exact if_pos rfl
  | cons c line ih =>
    rw [List.mem_cons,not_or] at within
    rw [List.cons_append,afterLine,if_neg (Ne.symm within.1),ih within.2]

theorem skipSpaceDrops (p : Bytes) : skipSpace p = p.dropWhile blank := by
  induction p with
  | nil => rfl
  | cons c rest ih =>
    rw [skipSpace]
    split
    · rename_i here
      rw [List.dropWhile_cons_of_pos here,ih]
    · rename_i other
      rw [List.dropWhile_cons_of_neg other]

theorem skipBlanks {before rest : Bytes} (blanks : Blanks before) (solid : ∀ c ∈ rest.head?, blank c = false) :
    skipSpace (before ++ rest) = rest := by
  rw [skipSpaceDrops]
  exact Numerals.dropBlanks blanks solid

theorem blanksSkip (p : Bytes) : ∃ before, p = before ++ skipSpace p ∧ Blanks before := by
  obtain ⟨before,whole,blanks,-⟩ := Numerals.blanksDrop blank p
  exact ⟨before,by rw [skipSpaceDrops]; exact whole,blanks⟩

theorem blankHorizontal {c : UInt8} (here : blank c = true) : horizontalSpace c = true := by
  rw [blank,Bool.or_eq_true] at here
  rw [horizontalSpace,Bool.or_eq_true,Bool.or_eq_true]
  exact .inl here

theorem digitNoBlank {c : UInt8} (digit : isDigit c = true) : blank c = false := by
  by_contra here
  have clash := digitSolid digit
  rw [blankHorizontal (Bool.not_eq_false _ ▸ here)] at clash
  exact absurd clash nofun

theorem fieldDigitsReads (maximum n : Nat) (p : Bytes) :
    fieldDigits maximum n p = Numerals.read decimalDigit 10 maximum n p := by
  induction p generalizing n with
  | nil => rfl
  | cons c rest ih =>
    rw [fieldDigits,Numerals.read,decimalDigit]
    by_cases digit : isDigit c = true
    · rw [if_pos digit,if_pos digit,ih]
    · rw [if_neg digit,if_neg digit]

theorem fieldTakes {p left : Bytes} {maximum n : Nat} (taken : field p maximum = some (n,left)) :
    ∃ text, p = text ++ left ∧ Field text n ∧ n ≤ maximum := by
  rw [field] at taken
  dsimp only at taken
  split at taken
  · rename_i starts
    obtain ⟨⟨v,behind⟩,read,same⟩ := Option.map_eq_some_iff.mp taken
    cases same
    have first : ∃ c ∈ (skipSpace p).head?, Numerals.numeric decimalDigit c = true := by
      obtain ⟨c,here,digit⟩ := (Option.any_eq_true _ _).mp starts
      exact ⟨c,here,(decimalNumeric c).trans digit⟩
    rw [fieldDigitsReads] at read
    obtain ⟨digits,parts,digits_,fits,-⟩ := Numerals.denotesRead (by decide) first read
    obtain ⟨before,whole,before_⟩ := blanksSkip p
    obtain ⟨after,behind_,after_⟩ := blanksSkip behind
    refine ⟨before ++ (digits ++ after),?_,⟨before,digits,after,rfl,before_,digits_,after_⟩,fits⟩
    rw [List.append_assoc,List.append_assoc,← behind_,← parts,← whole]
  · exact absurd taken nofun

theorem fieldReads {text : Bytes} {maximum n : Nat} (left : Bytes) (field_ : Field text n) (fits : n ≤ maximum)
    (ends : ∀ c ∈ left.head?, blank c = false ∧ isDigit c = false) : field (text ++ left) maximum = some (n,left) := by
  obtain ⟨before,digits,after,rfl,before_,digits_,after_⟩ := field_
  have solid : ∀ c ∈ (digits ++ (after ++ left)).head?, blank c = false := by
    obtain ⟨d,more,rfl⟩ := List.exists_cons_of_ne_nil digits_.some_
    rintro c ⟨⟩
    exact digitNoBlank ((decimalNumeric d).symm.trans (digits_.digits d List.mem_cons_self))
  have starts : (digits ++ (after ++ left)).head?.any isDigit = true := by
    obtain ⟨d,more,rfl⟩ := List.exists_cons_of_ne_nil digits_.some_
    exact (decimalNumeric d).symm.trans (digits_.digits d List.mem_cons_self)
  have stops : ∀ c ∈ (after ++ left).head?, decimalDigit c = none := by
    intro c first
    refine if_neg fun digit => ?_
    cases after with
    | nil => exact absurd (digit.symm.trans (ends c first).2) nofun
    | cons b after =>
      obtain rfl : b = c := Option.some.inj first
      exact absurd ((after_ b List.mem_cons_self).symm.trans (digitNoBlank digit)) nofun
  have read := Numerals.readDenotes (by decide) digits_ fits stops
  rw [field]
  dsimp only
  rw [List.append_assoc,List.append_assoc,skipBlanks before_ solid,if_pos starts,fieldDigitsReads,read,Option.map_some,
    skipBlanks after_ fun c first => (ends c first).1]

theorem fieldWithin {text : Bytes} {n : Nat} (field_ : Field text n) : lf ∉ text := by
  obtain ⟨before,digits,after,rfl,before_,digits_,after_⟩ := field_
  rw [List.mem_append,List.mem_append]
  rintro (mem | mem | mem)
  · exact absurd (before_ lf mem) (by decide)
  · exact absurd (digits_.digits lf mem) (by decide)
  · exact absurd (after_ lf mem) (by decide)

theorem beforeEnd {text left line rest : Bytes} (within : lf ∉ text) (same : line ++ lf::rest = text ++ left) :
    ∃ more, line = text ++ more ∧ left = more ++ lf::rest := by
  rcases List.append_eq_append_iff.mp same with ⟨more,rfl,split_⟩ | ⟨more,rfl,split_⟩
  · cases more with
    | nil => exact ⟨[],by simp,split_.symm⟩
    | cons c more =>
      obtain ⟨rfl,-⟩ := List.cons.inj split_
      exact absurd (List.mem_append_right line List.mem_cons_self) within
  · exact ⟨more,rfl,split_⟩

/-- What stands behind the key of a line. -/
def Numbers (text : Bytes) (state : Nat) : Prop :=
  ∃ mode status tail n, text = mode ++ comma::(status ++ tail) ∧ Field mode n ∧ n ≤ 5 ∧ Field status state ∧
    (∀ c ∈ tail.head?, c = comma ∨ c = cr) ∧ state ≤ 10

theorem statusTakes {text rest : Bytes} {state : Nat} (within : lf ∉ text)
    (taken : ceregStatus (text ++ lf::rest) = some state) : Numbers text state := by
  rw [ceregStatus] at taken
  split at taken
  · exact absurd taken nofun
  rename_i n p modeTaken
  split at taken
  · exact absurd taken nofun
  rename_i delimiter
  split at taken
  · exact absurd taken nofun
  rename_i status q statusTaken
  split at taken
  · exact absurd taken nofun
  rename_i ends
  cases taken
  obtain ⟨mode,modeParts,mode_,modeFits⟩ := fieldTakes modeTaken
  obtain ⟨more,rfl,rfl⟩ := beforeEnd (fieldWithin mode_) modeParts
  cases more with
  | nil => exact absurd (Option.some.inj (not_not.mp delimiter)) (by decide : lf ≠ comma)
  | cons d more =>
    obtain rfl : d = comma := by simpa using delimiter
    obtain ⟨digits,parts,digits_,fits⟩ := fieldTakes statusTaken
    obtain ⟨tail,rfl,rfl⟩ := beforeEnd (fieldWithin digits_) parts
    refine ⟨mode,digits,tail,n,rfl,mode_,modeFits,digits_,?_,fits⟩
    intro c first
    obtain ⟨tail,rfl⟩ := List.head?_eq_some_iff.mp first
    have other : c ≠ lf := by
      rintro rfl
      simp at within
    by_contra none_
    rw [not_or] at none_
    simp [none_.1,none_.2,other] at ends

theorem statusReads {text : Bytes} {state : Nat} (rest : Bytes) (numbers : Numbers text state) :
    ceregStatus (text ++ lf::rest) = some state := by
  obtain ⟨mode,status,tail,n,rfl,mode_,modeFits,status_,ends,fits⟩ := numbers
  have closes : ∀ c ∈ (comma::(status ++ (tail ++ lf::rest))).head?, blank c = false ∧ isDigit c = false := by
    rintro c ⟨⟩
    decide
  have stops : (tail ++ lf::rest).head? = some comma ∨ (tail ++ lf::rest).head? = some cr ∨
    (tail ++ lf::rest).head? = some lf := by
    cases tail with
    | nil => exact .inr (.inr rfl)
    | cons c tail => rcases ends c rfl with rfl | rfl <;> simp
  have closes_ : ∀ c ∈ (tail ++ lf::rest).head?, blank c = false ∧ isDigit c = false := by
    intro c first
    rw [Option.mem_def.mp first] at stops
    rcases stops with same | same | same <;> cases same <;> decide
  have first := fieldReads _ mode_ modeFits closes
  have second := fieldReads _ status_ fits closes_
  have kept : ¬((tail ++ lf::rest).head? ≠ some comma ∧ (tail ++ lf::rest).head? ≠ some cr ∧
    (tail ++ lf::rest).head? ≠ some lf) := by
    rintro ⟨a,b,c⟩
    rcases stops with same | same | same
    · exact a same
    · exact b same
    · exact c same
  have parts : mode ++ comma::(status ++ tail) ++ lf::rest = mode ++ comma::(status ++ (tail ++ lf::rest)) := by simp
  rw [ceregStatus,parts,first]
  dsimp only
  rw [List.head?_cons,if_neg (not_not.mpr rfl),List.tail_cons,second]
  exact if_neg kept

theorem skipWithin {line : Bytes} (rest : Bytes) : skipSpace (line ++ lf::rest) = skipSpace line ++ lf::rest := by
  induction line with
  | nil => rfl
  | cons c line ih =>
    rw [List.cons_append,skipSpace,skipSpace]
    split
    · exact ih
    · rfl

theorem keyWithin : lf ∉ ceregKey := by decide

theorem keyedStarts {line : Bytes} (rest : Bytes) :
    ceregKey.isPrefixOf (skipSpace (line ++ lf::rest)) = true ↔ Keyed line := by
  rw [skipWithin,List.isPrefixOf_iff_prefix]
  constructor
  · rintro ⟨behind,same⟩
    obtain ⟨more,split_,-⟩ := beforeEnd keyWithin same.symm
    obtain ⟨before,whole,blanks⟩ := blanksSkip line
    exact ⟨before,more,by rw [← split_]; exact whole,blanks⟩
  · rintro ⟨before,more,rfl,blanks⟩
    have solid : ∀ c ∈ (ceregKey ++ more).head?, blank c = false := by
      rintro c ⟨⟩
      decide
    rw [skipBlanks blanks solid,List.append_assoc]
    exact List.prefix_append _ _

theorem reportsNumbers {line : Bytes} {state : Nat} : Reports line state ↔
    ∃ before text, line = before ++ (ceregKey ++ text) ∧ Blanks before ∧ Numbers text state := by
  constructor
  · rintro ⟨⟨before,mode,status,tail,n,rfl,blanks,mode_,modeFits,status_,ends⟩,fits⟩
    exact ⟨before,_,rfl,blanks,mode,status,tail,n,rfl,mode_,modeFits,status_,ends,fits⟩
  · rintro ⟨before,_,rfl,blanks,mode,status,tail,n,rfl,mode_,modeFits,status_,ends,fits⟩
    exact ⟨⟨before,mode,status,tail,n,rfl,blanks,mode_,modeFits,status_,ends⟩,fits⟩

theorem ceregUnended {text : Bytes} (found : Option Nat) (unended : lf ∉ text) : ceregFrom found text = found := by
  rw [ceregFrom,afterUnended unended]

theorem ceregSkips {line : Bytes} (found : Option Nat) (rest : Bytes) (within : lf ∉ line) (other : ¬Keyed line) :
    ceregFrom found (line ++ lf::rest) = ceregFrom found rest := by
  have skipped : ceregKey.isPrefixOf (skipSpace (line ++ lf::rest)) = false :=
    Bool.eq_false_iff.mpr fun keyed => other ((keyedStarts rest).mp keyed)
  rw [ceregFrom,afterFirst rest within]
  dsimp only
  rw [if_pos skipped]

theorem ceregTakes {before text : Bytes} (found : Option Nat) (rest : Bytes) (blanks : Blanks before)
    (within : lf ∉ before ++ (ceregKey ++ text)) :
    ceregFrom found (before ++ (ceregKey ++ text) ++ lf::rest) =
      if found.isSome then none
      else
        match ceregStatus (text ++ lf::rest) with
        | none => none
        | some status => ceregFrom (some status) rest := by
  have keyed : ¬ceregKey.isPrefixOf (skipSpace (before ++ (ceregKey ++ text) ++ lf::rest)) = false := by
    rw [Bool.not_eq_false,keyedStarts]
    exact ⟨before,text,rfl,blanks⟩
  have solid : ∀ c ∈ (ceregKey ++ text).head?, blank c = false := by
    rintro c ⟨⟩
    decide
  have behind : (skipSpace (before ++ (ceregKey ++ text) ++ lf::rest)).drop ceregKey.length = text ++ lf::rest := by
    rw [skipWithin,skipBlanks blanks solid,List.append_assoc,List.drop_left]
  rw [ceregFrom,afterFirst rest within]
  dsimp only
  rw [if_neg keyed,behind]

theorem ceregFound (s t : Nat) (reply : Bytes) :
    ceregFrom (some s) reply = some t ↔ s = t ∧ ∀ l ∈ rawLines reply, ¬Keyed l := by
  induction reply using byLines with
  | unended text unended =>
    rw [ceregUnended _ unended,rawLines,rawUnended [] unended,Option.some_inj]
    exact ⟨fun same => ⟨same,fun l mem => absurd mem List.not_mem_nil⟩,fun both => both.1⟩
  | line line rest within ih =>
    rw [rawLines,rawLine [] rest within,List.nil_append,List.forall_mem_cons]
    by_cases keyed : Keyed line
    · obtain ⟨before,text,rfl,blanks⟩ := id keyed
      rw [ceregTakes _ rest blanks within,Option.isSome_some,if_pos rfl]
      exact ⟨(fun found => by cases found),fun all => absurd keyed all.2.1⟩
    · rw [ceregSkips _ rest within keyed,ih]
      exact ⟨fun both => ⟨both.1,keyed,both.2⟩,fun all => ⟨all.1,all.2.2⟩⟩

/-- One line for the key, and what it reports. -/
def OneLine (ls : List Bytes) (state : Nat) : Prop :=
  ∃ before line after, ls = before ++ line::after ∧ Reports line state ∧ ∀ l ∈ before ++ after, ¬Keyed l

theorem reportsKeyed {line : Bytes} {state : Nat} (reports : Reports line state) : Keyed line := by
  obtain ⟨before,text,same,blanks,-⟩ := reportsNumbers.mp reports
  exact ⟨before,text,same,blanks⟩

theorem oneLineHere {line : Bytes} {ls : List Bytes} {state : Nat} (keyed : Keyed line) :
    OneLine (line::ls) state ↔ Reports line state ∧ ∀ l ∈ ls, ¬Keyed l := by
  constructor
  · rintro ⟨before,first,after,split_,reports,others⟩
    cases before with
    | nil =>
      obtain ⟨rfl,rfl⟩ := List.cons.inj split_
      exact ⟨reports,others⟩
    | cons b before =>
      obtain ⟨rfl,-⟩ := List.cons.inj split_
      exact absurd keyed (others line List.mem_cons_self)
  · exact fun ⟨reports,others⟩ => ⟨[],line,ls,rfl,reports,others⟩

theorem oneLineLater {line : Bytes} {ls : List Bytes} {state : Nat} (other : ¬Keyed line) :
    OneLine (line::ls) state ↔ OneLine ls state := by
  constructor
  · rintro ⟨before,first,after,split_,reports,others⟩
    cases before with
    | nil =>
      obtain ⟨rfl,rfl⟩ := List.cons.inj split_
      exact absurd (reportsKeyed reports) other
    | cons b before =>
      obtain ⟨rfl,rfl⟩ := List.cons.inj split_
      exact ⟨before,first,after,rfl,reports,fun l mem => others l (List.mem_cons_of_mem _ mem)⟩
  · rintro ⟨before,first,after,rfl,reports,others⟩
    exact ⟨line::before,first,after,rfl,reports,List.forall_mem_cons.mpr ⟨other,others⟩⟩

theorem onlyOne {ls more : List Bytes} {line : Bytes} {state : Nat} (keyed : Keyed line)
    (one : OneLine (ls ++ line::more) state) : ∀ l ∈ ls, ¬Keyed l := by
  induction ls with
  | nil => exact nofun
  | cons first ls ih =>
    have other : ¬Keyed first := fun here =>
      ((oneLineHere here).mp one).2 line (List.mem_append_right _ List.mem_cons_self) keyed
    exact List.forall_mem_cons.mpr ⟨other,ih ((oneLineLater other).mp one)⟩

theorem keyCancel {before first text more : Bytes} (before_ : Blanks before) (first_ : Blanks first)
    (same : before ++ (ceregKey ++ text) = first ++ (ceregKey ++ more)) : text = more := by
  have solid (rest : Bytes) : ∀ c ∈ (ceregKey ++ rest).head?, blank c = false := by
    rintro c ⟨⟩
    decide
  have skipped := congrArg skipSpace same
  rw [skipBlanks before_ (solid text),skipBlanks first_ (solid more)] at skipped
  exact List.append_cancel_left skipped

theorem ceregOpen (t : Nat) (reply : Bytes) : ceregFrom none reply = some t ↔ OneLine (rawLines reply) t := by
  induction reply using byLines with
  | unended text unended =>
    rw [ceregUnended _ unended,rawLines,rawUnended [] unended]
    refine ⟨(fun found => by cases found),?_⟩
    rintro ⟨before,line,after,split_,_⟩
    exact absurd (congrArg List.length split_) (by simp)
  | line line rest within ih =>
    rw [rawLines,rawLine [] rest within,List.nil_append]
    by_cases keyed : Keyed line
    · obtain ⟨before,text,rfl,blanks⟩ := id keyed
      have inner : lf ∉ text := fun mem => within (List.mem_append_right _ (List.mem_append_right _ mem))
      rw [ceregTakes _ rest blanks within,if_neg (by simp),oneLineHere keyed,reportsNumbers]
      constructor
      · intro found
        split at found
        · cases found
        · rename_i status taken
          obtain ⟨rfl,others⟩ := (ceregFound _ _ _).mp found
          exact ⟨⟨before,text,rfl,blanks,statusTakes inner taken⟩,others⟩
      · rintro ⟨⟨first,more,same,first_,numbers⟩,others⟩
        obtain rfl := keyCancel blanks first_ same
        rw [statusReads rest numbers]
        exact (ceregFound _ _ _).mpr ⟨rfl,others⟩
    · rw [ceregSkips _ rest within keyed,oneLineLater keyed,ih]

theorem registeredReads (reply : Bytes) (registered : Bool) : modemRecoveryParseCereg reply = some registered ↔
    ∃ state, Accepted reply state ∧ (registered = true ↔ state = 1 ∨ state = 5) := by
  have whole : modemRecoveryParseCereg reply = some registered ↔
      ∃ state, (modemRadioResponseStatus reply = .ok ∧ ceregFrom none reply = some state) ∧
        (decide (state = 1) || decide (state = 5)) = registered := by
    rw [modemRecoveryParseCereg]
    split
    · rename_i ok
      rw [Option.map_eq_some_iff]
      exact exists_congr fun state => and_congr_left fun _ => ⟨fun found => ⟨ok,found⟩,fun both => both.2⟩
    · rename_i other
      exact ⟨nofun,fun ⟨_,⟨ok,_⟩,_⟩ => absurd ok other⟩
  rw [whole]
  refine exists_congr fun state => and_congr ?_ ?_
  · rw [statusOk,ceregOpen]
    exact ⟨fun ⟨ok,one⟩ => ⟨ok,one⟩,fun accepted => ⟨accepted.ok,accepted.one⟩⟩
  · rw [Bool.eq_iff_iff,Bool.or_eq_true,decide_eq_true_iff,decide_eq_true_iff]
    exact ⟨Iff.symm,Iff.symm⟩

/-- Inside its `+CEREG` line or its OK line nothing of a reply is accepted. -/
theorem cutRejected {before line rest part : Bytes} (ended : Ended before) (within : lf ∉ line)
    (own : Keyed line ∨ trim line = okLine) {registered : Bool}
    (accepted : modemRecoveryParseCereg (before ++ (line ++ lf::rest)) = some registered) (cut : part <+: line) :
    modemRecoveryParseCereg (before ++ part) = none := by
  have unended : lf ∉ part := fun mem => within (cut.subset mem)
  obtain ⟨state,whole,-⟩ := (registeredReads _ _).mp accepted
  by_contra some_
  obtain ⟨again,taken⟩ := Option.ne_none_iff_exists'.mp some_
  obtain ⟨state_,short,-⟩ := (registeredReads _ _).mp taken
  rcases own with keyed | okay
  · have one : OneLine (rawLines (before ++ (line ++ lf::rest))) state := whole.one
    rw [wholeLines rest ended within] at one
    obtain ⟨front,only,after,split_,reports,-⟩ := short.one
    rw [cutLines ended unended] at split_
    have earlier : only ∈ rawLines before := split_ ▸ List.mem_append_right front List.mem_cons_self
    exact onlyOne keyed one only earlier (reportsKeyed reports)
  · have one := whole.ok.ok
    have one_ := short.ok.ok
    rw [linesRaw] at one one_
    rw [cutLines ended unended] at one_
    rw [wholeLines rest ended within,List.map_append,List.map_cons,List.count_append,one_,okay,List.count_cons_self] at one
    omega

inductive Event where
  | observe (reply : Bytes) (nowS : UInt32)
  | healthy
  deriving DecidableEq, Repr

def step (state : ModemRecovery) : Event → ModemRecovery × Bool
  | .observe reply nowS => modemRecoveryObserveRegistration state reply nowS
  | .healthy => (modemRecoveryBackendHealthy state,false)

def run (events : List Event) : ModemRecovery := events.foldl (fun state e => (step state e).1) modemRecoveryInit

def grants (before : List Event) (e : Event) : Bool := (step (run before) e).2

def reported : Event → Option Bool
  | .observe reply _ => modemRecoveryParseCereg reply
  | .healthy => none

/-- The registration that the last accepted reply reported. -/
def latest (events : List Event) : Option Bool := (events.filterMap reported).getLast?

/-- There was a grace since the backend was last healthy. -/
def Granted (events : List Event) : Prop :=
  ∃ before reply nowS since, events = before ++ Event.observe reply nowS::since ∧
    grants before (.observe reply nowS) = true ∧ Event.healthy ∉ since

theorem runNext (events : List Event) (e : Event) : run (events ++ [e]) = (step (run events) e).1 := by
  rw [run,List.foldl_append]
  rfl

theorem latestNext (events : List Event) (e : Event) : latest (events ++ [e]) = (reported e).or (latest events) := by
  rw [latest,List.filterMap_append]
  cases same : reported e with
  | none => rw [List.filterMap_cons_none same,List.filterMap_nil,List.append_nil]; rfl
  | some registered => rw [List.filterMap_cons_some same,List.filterMap_nil,List.getLast?_concat]; rfl

theorem grantedHealthy (events : List Event) : ¬Granted (events ++ [.healthy]) := by
  rintro ⟨before,reply,nowS,since,split_,-,unhealthy⟩
  cases since using List.reverseRecOn with
  | nil => exact absurd (List.append_inj_right' split_ rfl) nofun
  | append_singleton since e =>
    have last : [Event.healthy] = [e] := by
      rw [← List.cons_append,← List.append_assoc] at split_
      exact List.append_inj_right' split_ rfl
    cases last
    exact unhealthy (List.mem_append_right _ List.mem_cons_self)

theorem grantedObserve (events : List Event) (reply : Bytes) (nowS : UInt32) :
    Granted (events ++ [.observe reply nowS]) ↔ Granted events ∨ grants events (.observe reply nowS) = true := by
  constructor
  · rintro ⟨before,reply_,nowS_,since,split_,granted,unhealthy⟩
    cases since using List.reverseRecOn with
    | nil =>
      obtain ⟨rfl,same⟩ := List.append_inj' split_ rfl
      cases same
      exact .inr granted
    | append_singleton since e =>
      rw [← List.cons_append,← List.append_assoc] at split_
      obtain ⟨rfl,-⟩ := List.append_inj' split_ rfl
      exact .inl ⟨before,reply_,nowS_,since,rfl,granted,fun mem => unhealthy (List.mem_append_left _ mem)⟩
  · rintro (⟨before,reply_,nowS_,since,rfl,granted,unhealthy⟩ | granted)
    · refine ⟨before,reply_,nowS_,since ++ [.observe reply nowS],by simp,granted,?_⟩
      simpa using unhealthy
    · exact ⟨events,reply,nowS,[],rfl,granted,List.not_mem_nil⟩

structure Tracks (events : List Event) (state : ModemRecovery) : Prop where
  registration : latest events = if state.registrationKnown then some state.registered else none
  grace : state.graceUsed = true ↔ Granted events

theorem tracksObserve {events : List Event} {state : ModemRecovery} (tracks : Tracks events state)
    (reply : Bytes) (nowS : UInt32) :
    (modemRecoveryObserveRegistration state reply nowS).2 = true ↔
      modemRecoveryParseCereg reply = some true ∧ latest events = some false ∧ ¬Granted events := by
  rw [tracks.registration,← tracks.grace,modemRecoveryObserveRegistration]
  cases modemRecoveryParseCereg reply with
  | none => exact ⟨nofun,fun ⟨no,_⟩ => absurd no nofun⟩
  | some registered =>
    obtain ⟨known,before,used,started⟩ := state
    cases known <;> cases before <;> cases used <;> cases registered <;> simp

theorem observeKeeps (state : ModemRecovery) (reply : Bytes) (nowS : UInt32) :
    let after := modemRecoveryObserveRegistration state reply nowS
    (modemRecoveryParseCereg reply = none → after.1 = state) ∧
      (∀ registered, modemRecoveryParseCereg reply = some registered →
        after.1.registrationKnown = true ∧ after.1.registered = registered) ∧
      (after.1.graceUsed = (state.graceUsed || after.2)) := by
  rw [modemRecoveryObserveRegistration]
  cases modemRecoveryParseCereg reply with
  | none => exact ⟨fun _ => rfl,nofun,(Bool.or_false _).symm⟩
  | some registered =>
    refine ⟨nofun,?_,?_⟩
    · rintro _ ⟨⟩
      dsimp only
      split <;> exact ⟨rfl,rfl⟩
    · dsimp only
      split
      · exact (Bool.or_false _).symm
      · exact (Bool.or_true _).symm

theorem tracksRun (events : List Event) : Tracks events (run events) := by
  induction events using List.reverseRecOn with
  | nil =>
    refine ⟨rfl,nofun,?_⟩
    rintro ⟨before,_,_,since,split_,-⟩
    exact absurd (congrArg List.length split_) (by simp)
  | append_singleton events e ih =>
    rw [runNext]
    cases e with
    | healthy =>
      refine ⟨?_,nofun,fun granted => absurd granted (grantedHealthy events)⟩
      rw [latestNext]
      exact ih.registration
    | observe reply nowS =>
      obtain ⟨rejected,accepted,used⟩ := observeKeeps (run events) reply nowS
      constructor
      · rw [latestNext,step]
        cases read : modemRecoveryParseCereg reply with
        | none =>
          rw [rejected read,reported,read]
          exact ih.registration
        | some registered =>
          obtain ⟨known,now_⟩ := accepted registered read
          rw [known,now_,reported,read]
          rfl
      · rw [grantedObserve,← ih.grace,step,used,Bool.or_eq_true]
        rfl

theorem activeGranted (events : List Event) (nowS : UInt32) (active : modemRecoveryGraceActive (run events) nowS = true) :
    Granted events := by
  rw [modemRecoveryGraceActive,Bool.and_eq_true] at active
  exact (tracksRun events).grace.mp active.1

theorem grantedOnce {before between : List Event} {reply reply' : Bytes} {nowS nowS' : UInt32}
    (first : grants before (.observe reply nowS) = true)
    (second : grants (before ++ .observe reply nowS::between) (.observe reply' nowS') = true) : Event.healthy ∈ between := by
  obtain ⟨-,-,fresh⟩ := (tracksObserve (tracksRun _) reply' nowS').mp second
  by_contra unhealthy
  exact fresh ⟨before,reply,nowS,between,rfl,first,unhealthy⟩

theorem registrationGrace :
    (∀ reply registered, modemRecoveryParseCereg reply = some registered ↔
        ∃ state, Accepted reply state ∧ (registered = true ↔ state = 1 ∨ state = 5)) ∧
      (∀ before reply nowS, grants before (.observe reply nowS) = true ↔
        (∃ state, Accepted reply state ∧ (state = 1 ∨ state = 5)) ∧ latest before = some false ∧ ¬Granted before) ∧
      (∀ before reply nowS between reply' nowS', grants before (.observe reply nowS) = true →
        grants (before ++ .observe reply nowS::between) (.observe reply' nowS') = true → Event.healthy ∈ between) ∧
      (∀ before reply nowS, (∀ state, ¬Accepted reply state) →
        step (run before) (.observe reply nowS) = (run before,false)) ∧
      ∀ before line rest part, Ended before → lf ∉ line → (Keyed line ∨ trim line = okLine) → part <+: line →
        (∃ state, Accepted (before ++ (line ++ lf::rest)) state) → ¬∃ state, Accepted (before ++ part) state := by
  have accepted (reply : Bytes) : (∃ state, Accepted reply state) ↔
    ∃ registered, modemRecoveryParseCereg reply = some registered := by
    constructor
    · rintro ⟨state,accepted⟩
      exact ⟨decide (state = 1 ∨ state = 5),(registeredReads _ _).mpr ⟨state,accepted,decide_eq_true_iff⟩⟩
    · rintro ⟨registered,read⟩
      obtain ⟨state,accepted,-⟩ := (registeredReads _ _).mp read
      exact ⟨state,accepted⟩
  refine ⟨registeredReads,?_,fun _ _ _ _ _ _ => grantedOnce,?_,?_⟩
  · intro before reply nowS
    have granted := tracksObserve (tracksRun before) reply nowS
    rw [registeredReads] at granted
    simpa [grants,step] using granted
  · intro before reply nowS rejected
    have unread : modemRecoveryParseCereg reply = none := by
      by_contra read
      obtain ⟨state,here⟩ := (accepted reply).mpr (Option.ne_none_iff_exists'.mp read)
      exact rejected state here
    rw [step,modemRecoveryObserveRegistration,unread]
  · intro before line rest part ended within own cut whole short
    obtain ⟨registered,read⟩ := (accepted _).mp whole
    obtain ⟨again,taken⟩ := (accepted _).mp short
    rw [cutRejected ended within own read cut] at taken
    exact absurd taken nofun

end Web3PiUps.ModemRegistration
