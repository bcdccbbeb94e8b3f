import Web3PiUps.ModemUartBaud

/-! The grammar of the `+IPR` replies: the two parsers of `modem_uart_baud.c` accept exactly it. -/
namespace Web3PiUps.ModemUartBaud
open WupsProtocol ModemAtText

abbrev iprKey : Bytes := ascii "+IPR"

/-- A line for the key, not another name that starts with it. -/
def Keyed (line : Bytes) : Prop := ∃ rest, line = iprKey ++ rest ∧ ∀ c ∈ rest.head?, c = colon ∨ c = space ∨ c = tab

/-- The lines with one for the key, before an OK. -/
def OneLine (ls : List Bytes) (text : Bytes) : Prop :=
  ∃ before gap after, ls = before ++ (iprKey ++ gap ++ colon::text)::after ∧
    Keyed (iprKey ++ gap ++ colon::text) ∧ Blank gap ∧ okLine ∉ before ∧ ∀ l ∈ before ++ after, ¬Keyed l

/-- An OK reply with one line for the key, before the OK; `text` is what its colon leads to. -/
structure IprReply (response text : Bytes) : Prop where
  ok : OkReply response
  line : OneLine (lines response) text

/-- Rates between commas. -/
inductive Rates : Bytes → List Nat → Prop
  | one {text v} : Number text v → v ≤ intMax → Rates text [v]
  | more {text v rest vs} : Number text v → v ≤ intMax → Rates rest vs → Rates (text ++ comma::rest) (v::vs)

/-- What the parentheses of a group may hold. -/
inductive Inside : Bytes → List Nat → Prop
  | empty {text} : Blank text → Inside text []
  | rates {text vs} : Rates text vs → Inside text vs

structure Group (text : Bytes) (vs : List Nat) : Prop where
  parts : ∃ before inside after, text = before ++ openParen::(inside ++ closeParen::after) ∧
    Blank before ∧ Inside inside vs ∧ Blank after

/-- Groups between commas. -/
inductive Groups : Bytes → List Nat → Prop
  | one {text vs} : Group text vs → Groups text vs
  | more {text vs rest ws} : Group text vs → Groups rest ws → Groups (text ++ comma::rest) (vs ++ ws)

theorem iprSkips {line : Bytes} (other : ¬Keyed line) (terminal : Bool) (found : Option Bytes) (ls : List Bytes) :
    iprLine terminal found (line::ls) = iprLine (terminal || line = okLine) found ls := by
  rw [iprLine]
  dsimp only
  by_cases starts : iprKey.isPrefixOf line = false
  · exact if_pos starts
  obtain ⟨rest,rfl⟩ := List.isPrefixOf_iff_prefix.mp (Bool.not_eq_false _ ▸ starts)
  have left : (iprKey ++ rest).drop (ascii "+IPR").length = rest := List.drop_left
  have next : rest.head?.any (fun c => c ≠ colon && c ≠ space && c ≠ tab) = true := by
    cases rest with
    | nil => exact absurd ⟨[],rfl,nofun⟩ other
    | cons c rest =>
      by_contra ends
      refine other ⟨c::rest,rfl,fun x first => ?_⟩
      cases first
      by_contra none_
      refine ends ?_
      simp only [not_or] at none_
      simp [none_]
  rw [if_neg starts,left,if_pos next]

theorem keyNotOk (rest : Bytes) : iprKey ++ rest ≠ okLine := by
  intro same
  have heads := congrArg List.head? same
  rw [List.head?_append_of_ne_nil _ (by decide)] at heads
  exact absurd heads (by decide)

theorem iprReads {rest : Bytes} (ends : ∀ c ∈ rest.head?, c = colon ∨ c = space ∨ c = tab) (terminal : Bool)
    (found : Option Bytes) (ls : List Bytes) :
    iprLine terminal found ((iprKey ++ rest)::ls) =
      match trim rest with
      | [] => none
      | c::value => if terminal || found.isSome || c ≠ colon then none else iprLine terminal (some (trim value)) ls := by
  have starts : ¬iprKey.isPrefixOf (iprKey ++ rest) = false := by
    have whole : iprKey.isPrefixOf (iprKey ++ rest) = true := List.isPrefixOf_iff_prefix.mpr (List.prefix_append _ _)
    rw [whole]
    exact nofun
  have left : (iprKey ++ rest).drop (ascii "+IPR").length = rest := List.drop_left
  have next : ¬rest.head?.any (fun c => c ≠ colon && c ≠ space && c ≠ tab) = true := by
    cases rest with
    | nil => exact nofun
    | cons c rest => rcases ends c rfl with rfl | rfl | rfl <;> simp
  have open_ : (terminal || decide (iprKey ++ rest = okLine)) = terminal := by
    rw [decide_eq_false (keyNotOk rest),Bool.or_false]
  rw [iprLine]
  dsimp only
  rw [if_neg starts,left,if_neg next]
  cases trim rest with
  | nil => rfl
  | cons c value => simp only [open_]

theorem iprFound (terminal : Bool) (v w : Bytes) (ls : List Bytes) :
    iprLine terminal (some v) ls = some w ↔ v = w ∧ ∀ l ∈ ls, ¬Keyed l := by
  induction ls generalizing terminal with
  | nil => simp [iprLine]
  | cons line ls ih =>
    by_cases keyed : Keyed line
    · obtain ⟨rest,rfl,ends⟩ := keyed
      have refused : iprLine terminal (some v) ((iprKey ++ rest)::ls) = none := by
        rw [iprReads ends]
        split
        · rfl
        · rw [if_pos (by simp)]
      rw [refused]
      exact ⟨(fun found => by cases found),fun both => absurd ⟨rest,rfl,ends⟩ (both.2 _ List.mem_cons_self)⟩
    · rw [iprSkips keyed,ih,List.forall_mem_cons]
      exact ⟨fun both => ⟨both.1,keyed,both.2⟩,fun all => ⟨all.1,all.2.2⟩⟩

theorem iprOver (ls : List Bytes) : iprLine true none ls = none := by
  induction ls with
  | nil => rfl
  | cons line ls ih =>
    by_cases keyed : Keyed line
    · obtain ⟨rest,rfl,ends⟩ := keyed
      rw [iprReads ends]
      split
      · rfl
      · exact if_pos rfl
    · rw [iprSkips keyed]
      exact ih

theorem oneLineHere {line text : Bytes} {ls : List Bytes} (keyed : Keyed line) (one : OneLine (line::ls) text) :
    (∃ gap, line = iprKey ++ gap ++ colon::text ∧ Blank gap) ∧ ∀ l ∈ ls, ¬Keyed l := by
  obtain ⟨before,gap,after,split_,-,blank,-,others⟩ := one
  cases before with
  | nil =>
    obtain ⟨rfl,rfl⟩ := List.cons.inj split_
    exact ⟨⟨gap,rfl,blank⟩,others⟩
  | cons first before =>
    obtain ⟨rfl,-⟩ := List.cons.inj split_
    exact absurd keyed (others line (List.mem_append_left _ List.mem_cons_self))

theorem oneLineLater {line text : Bytes} {ls : List Bytes} (other : ¬Keyed line) :
    OneLine (line::ls) text ↔ line ≠ okLine ∧ OneLine ls text := by
  constructor
  · rintro ⟨before,gap,after,split_,keyed,blank,early,others⟩
    cases before with
    | nil =>
      obtain ⟨rfl,rfl⟩ := List.cons.inj split_
      exact absurd keyed other
    | cons first before =>
      obtain ⟨rfl,rfl⟩ := List.cons.inj split_
      rw [List.mem_cons,not_or] at early
      exact ⟨Ne.symm early.1,before,gap,after,rfl,keyed,blank,early.2,fun l mem => others l (List.mem_cons_of_mem _ mem)⟩
  · rintro ⟨open_,before,gap,after,rfl,keyed,blank,early,others⟩
    refine ⟨line::before,gap,after,rfl,keyed,blank,?_,List.forall_mem_cons.mpr ⟨other,others⟩⟩
    rw [List.mem_cons,not_or]
    exact ⟨Ne.symm open_,early⟩

theorem iprOpen (ls : List Bytes) (v : Bytes) : iprLine false none ls = some v ↔ ∃ text, OneLine ls text ∧ trim text = v := by
  induction ls with
  | nil =>
    refine ⟨(fun found => by cases found),?_⟩
    rintro ⟨_,⟨before,_,_,empty,_⟩,_⟩
    exact absurd (congrArg List.length empty) (by simp)
  | cons line ls ih =>
    by_cases keyed : Keyed line
    · obtain ⟨rest,rfl,ends⟩ := id keyed
      rw [iprReads ends]
      constructor
      · intro found
        split at found
        · cases found
        · rename_i c value leads
          split at found
          · cases found
          · rename_i here
            obtain rfl : c = colon := by simpa using here
            obtain ⟨rfl,others⟩ := (iprFound _ _ _ _).mp found
            obtain ⟨gap,text,rfl,blank,same⟩ := trimLeads leads
            rw [← List.append_assoc] at keyed ⊢
            exact ⟨text,⟨[],gap,ls,rfl,keyed,blank,List.not_mem_nil,others⟩,same⟩
      · rintro ⟨text,one,rfl⟩
        obtain ⟨⟨gap,line_,blank⟩,others⟩ := oneLineHere keyed one
        rw [List.append_assoc] at line_
        obtain rfl := List.append_cancel_left line_
        obtain ⟨value,trimmed,same⟩ := leadsTrim (c := colon) (by decide) text blank
        rw [trimmed]
        exact (iprFound _ _ _ _).mpr ⟨same,others⟩
    · simp only [oneLineLater keyed]
      rw [iprSkips keyed]
      by_cases ended : line = okLine
      · rw [decide_eq_true ended,Bool.or_true,iprOver]
        refine ⟨(fun found => by cases found),?_⟩
        rintro ⟨_,⟨open_,_⟩,_⟩
        exact absurd ended open_
      · rw [decide_eq_false ended,Bool.or_false,ih]
        exact exists_congr fun text => and_congr_left fun _ => ⟨fun one => ⟨ended,one⟩,And.right⟩

theorem iprValueReads (response v : Bytes) : iprValue response = some v ↔ ∃ text, IprReply response text ∧ trim text = v := by
  rw [iprValue]
  split
  · rename_i status
    rw [iprOpen]
    have ok := statusOk.mp status
    exact ⟨fun ⟨text,one,same⟩ => ⟨text,⟨ok,one⟩,same⟩,fun ⟨text,reply,same⟩ => ⟨text,reply.line,same⟩⟩
  · rename_i status
    exact ⟨nofun,fun ⟨_,reply,_⟩ => absurd (statusOk.mpr reply.ok) status⟩

theorem integerReads (response : Bytes) (v : Nat) : modemUartBaudParseIpr response = some v ↔
    ∃ text, IprReply response text ∧ Number text v ∧ v ≤ intMax := by
  have alone (text : Bytes) : takeBelow intMax text = some (v,[]) ↔ Number text v ∧ v ≤ intMax := by
    constructor
    · intro taken
      obtain ⟨number,behind,rfl,number_,fits,left,-⟩ := takeBelowTakes (by decide) taken
      exact ⟨numberPadded number_ blankNil (blankTrim left.symm),fits⟩
    · intro ⟨number_,fits⟩
      have taken := takeBelowReads (by decide) [] number_ fits nofun
      rw [List.append_nil] at taken
      exact taken
  have whole : modemUartBaudParseIpr response = some v ↔ ∃ value, iprValue response = some value ∧
    takeBelow intMax value = some (v,[]) := by
    rw [← Option.bind_eq_some_iff,modemUartBaudParseIpr]
    change _ ↔ (iprValue response).bind takeInteger = _
    split
    · rename_i taken
      rw [taken]
      simp
    · rename_i other
      exact ⟨nofun,fun taken => absurd taken (other v)⟩
  rw [whole]
  constructor
  · intro ⟨value,read,taken⟩
    obtain ⟨text,reply,rfl⟩ := (iprValueReads _ _).mp read
    rw [takeBelowTrim] at taken
    exact ⟨text,reply,(alone text).mp taken⟩
  · intro ⟨text,reply,number⟩
    exact ⟨trim text,(iprValueReads _ _).mpr ⟨text,reply,rfl⟩,by rw [takeBelowTrim]; exact (alone text).mpr number⟩

theorem ratesPadded {before after text : Bytes} {vs : List Nat} (rates : Rates text vs) (before_ : Blank before)
    (after_ : Blank after) : Rates (before ++ text ++ after) vs := by
  induction rates generalizing before with
  | one number fits => exact .one (numberPadded number before_ after_) fits
  | @more text v rest vs number fits later ih =>
    have first := numberPadded number before_ blankNil
    have later := ih blankNil
    rw [List.append_nil] at first
    rw [List.nil_append] at later
    have both := Rates.more first fits later
    simp only [List.append_assoc,List.cons_append] at both ⊢
    exact both

theorem groupPadded {before after text : Bytes} {vs : List Nat} (group : Group text vs) (before_ : Blank before)
    (after_ : Blank after) : Group (before ++ text ++ after) vs := by
  obtain ⟨front,inside,back,rfl,front_,inside_,back_⟩ := group.parts
  exact ⟨before ++ front,inside,back ++ after,by simp,blankAppend before_ front_,inside_,blankAppend back_ after_⟩

theorem groupsPadded {before after text : Bytes} {vs : List Nat} (groups : Groups text vs) (before_ : Blank before)
    (after_ : Blank after) : Groups (before ++ text ++ after) vs := by
  induction groups generalizing before with
  | one group => exact .one (groupPadded group before_ after_)
  | @more text vs rest ws group later ih =>
    have first := groupPadded group before_ blankNil
    have later := ih blankNil
    rw [List.append_nil] at first
    rw [List.nil_append] at later
    have both := Groups.more first later
    simp only [List.append_assoc,List.cons_append] at both ⊢
    exact both

theorem rateListStep (target : Nat) (supported : Bool) (text : Bytes) : rateList target supported text =
    match takeBelow intMax text with
    | none => none
    | some (_,[]) => none
    | some (rate,d::rest) =>
      if d = closeParen then some (supported || rate = target,trim rest)
      else if d = comma then rateList target (supported || rate = target) (trim rest)
      else none := by
  rw [rateList]
  split <;> rename_i taken <;> rw [show takeBelow intMax text = _ from taken]

theorem rateListTrim (target : Nat) (supported : Bool) (text : Bytes) :
    rateList target supported (trim text) = rateList target supported text := by
  rw [rateListStep,rateListStep,takeBelowTrim]

theorem rateListTakes {target : Nat} {supported found : Bool} {text left : Bytes}
    (taken : rateList target supported text = some (found,left)) :
    ∃ inside vs behind, text = inside ++ closeParen::behind ∧ Rates inside vs ∧ left = trim behind ∧
      found = (supported || target ∈ vs) := by
  fun_induction rateList target supported text with
  | case1 => cases taken
  | case2 => cases taken
  | case3 supported text rate more supported' read =>
    obtain ⟨number,after,rfl,number_,fits,left_,-⟩ := takeBelowTakes (by decide) (show takeBelow intMax text = _ from read)
    obtain ⟨gap,behind,rfl,blank,same⟩ := trimLeads left_.symm
    obtain ⟨found_,rfl⟩ := Prod.mk.inj (Option.some.inj taken)
    refine ⟨number ++ gap,[rate],behind,by simp,.one (numberPadded number_ blankNil blank) fits,same.symm,?_⟩
    simp [← found_,supported',eq_comm]
  | case4 supported text rate more supported' read open_ ih =>
    obtain ⟨number,after,rfl,number_,fits,left_,-⟩ := takeBelowTakes (by decide) (show takeBelow intMax text = _ from read)
    obtain ⟨gap,rest,rfl,blank,same⟩ := trimLeads left_.symm
    obtain ⟨inside,vs,behind,parts,rates,left_,found_⟩ := ih taken
    obtain ⟨before,after,split_,before_,after_⟩ := trimSplit rest
    have padded := ratesPadded rates before_ blankNil
    rw [List.append_nil] at padded
    rw [same,parts] at split_
    refine ⟨number ++ gap ++ comma::(before ++ inside),rate::vs,behind ++ after,by rw [split_]; simp,
      .more (numberPadded number_ blankNil blank) fits padded,?_,?_⟩
    · rw [left_,← trimPadded behind blankNil after_,List.nil_append]
    · rw [found_]
      simp [supported',eq_comm,Bool.or_assoc]
  | case5 => cases taken

/-- What a reader meets behind a number: the delimiter, and the text that follows it. -/
theorem numberThen {d : UInt8} {text : Bytes} {n : Nat} (solid : horizontalSpace d = false) (other : isDigit d = false)
    (number : Number text n) (fits : n ≤ intMax) (rest : Bytes) :
    ∃ value, takeBelow intMax (text ++ d::rest) = some (n,d::value) ∧ trim value = trim rest := by
  have ends : ∀ c ∈ (d::rest).head?, isDigit c = false := by
    rintro c ⟨⟩
    exact other
  obtain ⟨value,trimmed,same⟩ := leadsTrim solid rest blankNil
  have taken := takeBelowReads (by decide) (d::rest) number fits ends
  rw [List.nil_append] at trimmed
  rw [trimmed] at taken
  exact ⟨value,taken,same⟩

theorem rateListReads {inside : Bytes} {vs : List Nat} (rates : Rates inside vs) (target : Nat) (supported : Bool)
    (behind : Bytes) : rateList target supported (inside ++ closeParen::behind) =
      some (supported || target ∈ vs,trim behind) := by
  induction rates generalizing supported with
  | @one text v number fits =>
    obtain ⟨value,taken,same⟩ := numberThen (d := closeParen) (by decide) (by decide) number fits behind
    rw [rateListStep,taken]
    dsimp only
    rw [if_pos rfl,same]
    simp [eq_comm]
  | @more text v rest vs number fits later ih =>
    obtain ⟨value,taken,same⟩ := numberThen (d := comma) (by decide) (by decide) number fits (rest ++ closeParen::behind)
    rw [List.append_assoc,List.cons_append,rateListStep,taken]
    dsimp only
    rw [if_neg (by decide),if_pos rfl,same,rateListTrim,ih]
    simp [Bool.or_assoc,eq_comm]

theorem rateGroupTakes {target : Nat} {supported found : Bool} {text left : Bytes}
    (taken : rateGroup target supported (trim text) = some (found,left)) :
    ∃ inside vs behind, text = inside ++ closeParen::behind ∧ Inside inside vs ∧ left = trim behind ∧
      found = (supported || target ∈ vs) := by
  rw [rateGroup] at taken
  split at taken
  · rename_i closes
    obtain ⟨value,leads⟩ := List.head?_eq_some_iff.mp closes
    obtain ⟨gap,behind,rfl,blank,same⟩ := trimLeads leads
    rw [leads] at taken
    obtain ⟨rfl,rfl⟩ := Prod.mk.inj (Option.some.inj taken)
    exact ⟨gap,[],behind,rfl,.empty blank,same.symm,by simp⟩
  · rw [rateListTrim] at taken
    obtain ⟨inside,vs,behind,rfl,rates,left_,found_⟩ := rateListTakes taken
    exact ⟨inside,vs,behind,rfl,.rates rates,left_,found_⟩

theorem rateGroupReads {inside : Bytes} {vs : List Nat} (inside_ : Inside inside vs) (target : Nat) (supported : Bool)
    (behind : Bytes) : rateGroup target supported (trim (inside ++ closeParen::behind)) =
      some (supported || target ∈ vs,trim behind) := by
  cases inside_ with
  | empty blank =>
    obtain ⟨value,trimmed,same⟩ := leadsTrim (c := closeParen) (by decide) behind blank
    rw [trimmed,rateGroup,List.head?_cons,if_pos rfl,List.tail_cons,same]
    simp
  | rates rates =>
    have read := rateListReads rates target supported behind
    rw [rateGroup]
    split
    · rename_i closes
      -- no number starts with the parenthesis
      obtain ⟨value,leads⟩ := List.head?_eq_some_iff.mp closes
      have refused : takeBelow intMax (trim (inside ++ closeParen::behind)) = none := by
        rw [takeBelow]
        dsimp only
        rw [trimTrim,leads]
        rfl
      rw [← rateListTrim,rateListStep,refused] at read
      cases read
    · rw [rateListTrim,read]

theorem rateGroupsTakes {target : Nat} {supported : Bool} {value : Bytes}
    (taken : rateGroups target supported value = true) :
    ∃ vs, Groups value vs ∧ (supported = true ∨ target ∈ vs) := by
  fun_induction rateGroups target supported value with
  | case1 => exact absurd taken nofun
  | case2 => exact absurd taken nofun
  | case3 => exact absurd taken nofun
  | case4 supported c rest paren found group =>
    obtain rfl : c = openParen := not_not.mp paren
    obtain ⟨inside,vs,behind,rfl,inside_,left,found_⟩ := rateGroupTakes group
    rw [taken] at found_
    refine ⟨vs,.one ⟨[],inside,behind,rfl,blankNil,inside_,blankTrim left.symm⟩,?_⟩
    simpa using found_.symm
  | case5 supported c rest paren found more group ih =>
    obtain rfl : c = openParen := not_not.mp paren
    obtain ⟨inside,vs,behind,rfl,inside_,left,found_⟩ := rateGroupTakes group
    obtain ⟨gap,text,rfl,blank,same⟩ := trimLeads left.symm
    obtain ⟨ws,groups,among⟩ := ih taken
    obtain ⟨before,after,split_,before_,after_⟩ := trimSplit text
    rw [← same] at groups
    have padded := groupsPadded groups before_ after_
    rw [← split_] at padded
    have first : Group (openParen::(inside ++ closeParen::gap)) vs := ⟨[],inside,gap,rfl,blankNil,inside_,blank⟩
    have both := Groups.more first padded
    rw [found_] at among
    refine ⟨vs ++ ws,by simpa using both,?_⟩
    rw [List.mem_append,← or_assoc]
    simpa using among
  | case6 => exact absurd taken nofun

theorem rateGroupsStep (target : Nat) (supported : Bool) {before : Bytes} (rest : Bytes) (before_ : Blank before) :
    rateGroups target supported (trim (before ++ openParen::rest)) =
      match rateGroup target supported (trim rest) with
      | none => false
      | some (found,[]) => found
      | some (found,d::more) => if d = comma then rateGroups target found (trim more) else false := by
  obtain ⟨value,trimmed,same⟩ := leadsTrim (c := openParen) (by decide) rest before_
  rw [trimmed,rateGroups,if_neg (not_not.mpr rfl)]
  split <;> rename_i group <;> rw [← same,group]

theorem rateGroupsReads {text : Bytes} {vs : List Nat} (groups : Groups text vs) (target : Nat) (supported : Bool) :
    rateGroups target supported (trim text) = (supported || target ∈ vs) := by
  induction groups generalizing supported with
  | one group =>
    obtain ⟨before,inside,after,rfl,before_,inside_,after_⟩ := group.parts
    rw [rateGroupsStep target supported _ before_,rateGroupReads inside_,trimBlank after_]
  | @more text vs rest ws group later ih =>
    obtain ⟨before,inside,after,rfl,before_,inside_,after_⟩ := group.parts
    obtain ⟨value,trimmed,same⟩ := leadsTrim (c := comma) (by decide) rest after_
    have parts : before ++ openParen::(inside ++ closeParen::after) ++ comma::rest =
        before ++ openParen::(inside ++ closeParen::(after ++ comma::rest)) := by simp
    rw [parts,rateGroupsStep target supported _ before_,rateGroupReads inside_,trimmed]
    dsimp only
    rw [if_pos rfl,same,ih]
    simp [Bool.or_assoc]

theorem groupsRead (response : Bytes) (target : Nat) : modemUartBaudSupportsIpr response target = true ↔
    0 < target ∧ ∃ text vs, IprReply response text ∧ Groups text vs ∧ target ∈ vs := by
  rw [modemUartBaudSupportsIpr]
  split
  · rename_i zero
    exact ⟨nofun,fun ⟨positive,_⟩ => absurd zero (Nat.ne_of_gt positive)⟩
  rename_i positive
  have positive := Nat.pos_of_ne_zero positive
  split
  · rename_i unread
    refine ⟨nofun,fun ⟨_,text,_,reply,_⟩ => ?_⟩
    rw [(iprValueReads _ _).mpr ⟨text,reply,rfl⟩] at unread
    exact absurd unread nofun
  · rename_i value read
    constructor
    · intro taken
      obtain ⟨text,reply,rfl⟩ := (iprValueReads _ _).mp read
      obtain ⟨vs,groups,among⟩ := rateGroupsTakes taken
      obtain ⟨before,after,split_,before_,after_⟩ := trimSplit text
      have padded := groupsPadded groups before_ after_
      rw [← split_] at padded
      exact ⟨positive,text,vs,reply,padded,among.resolve_left nofun⟩
    · intro ⟨_,text,vs,reply,groups,among⟩
      obtain rfl := Option.some.inj (read.symm.trans ((iprValueReads _ _).mpr ⟨text,reply,rfl⟩))
      rw [rateGroupsReads groups,decide_eq_true among]
      rfl

/-- `modem_uart_baud_supports_ipr` at its own parameter type. -/
def supportsIpr (response : Bytes) (target : Int) : Bool :=
  if target ≤ 0 then false else modemUartBaudSupportsIpr response target.toNat

open Classical in
/-- The lines that the parsers look at. -/
noncomputable def ownLines (response : Bytes) : List Bytes :=
  (lines response).filter fun line => Keyed line ∨ line = okLine

open Classical in
theorem iprOthers (terminal : Bool) (found : Option Bytes) (ls : List Bytes) :
    iprLine terminal found (ls.filter fun line => Keyed line ∨ line = okLine) = iprLine terminal found ls := by
  induction ls generalizing terminal found with
  | nil => rfl
  | cons line ls ih =>
    by_cases keyed : Keyed line
    · rw [List.filter_cons_of_pos (by simp [keyed])]
      obtain ⟨rest,rfl,ends⟩ := keyed
      rw [iprReads ends,iprReads ends]
      simp only [ih]
    · by_cases ended : line = okLine
      · rw [List.filter_cons_of_pos (by simp [ended]),iprSkips keyed,iprSkips keyed,ih]
      · rw [List.filter_cons_of_neg (by simp [keyed,ended]),iprSkips keyed,ih,decide_eq_false ended,Bool.or_false]

theorem iprValueOwn {response other : Bytes} (ok : OkReply response) (ok_ : OkReply other)
    (same : ownLines response = ownLines other) : iprValue response = iprValue other := by
  rw [iprValue,iprValue,if_pos (statusOk.mpr ok),if_pos (statusOk.mpr ok_),← iprOthers,← iprOthers false none (lines other)]
  exact congrArg _ same

theorem iprGrammar (response : Bytes) :
    (modemRadioResponseStatus response = .ok ↔ OkReply response) ∧
      (∀ v, modemUartBaudParseIpr response = some v ↔ ∃ text, IprReply response text ∧ Number text v ∧ v ≤ intMax) ∧
      (∀ target, supportsIpr response target = true ↔
        0 < target ∧ ∃ text vs, IprReply response text ∧ Groups text vs ∧ target.toNat ∈ vs) ∧
      ∀ other, OkReply response → OkReply other → ownLines response = ownLines other →
        modemUartBaudParseIpr other = modemUartBaudParseIpr response ∧
          ∀ target, supportsIpr other target = supportsIpr response target := by
  refine ⟨statusOk,integerReads response,fun target => ?_,fun other ok ok_ same => ?_⟩
  · rw [supportsIpr]
    split
    · rename_i low
      exact ⟨nofun,fun ⟨positive,_⟩ => absurd positive (Int.not_lt.mpr low)⟩
    · rename_i high
      rw [groupsRead]
      exact and_congr_left fun _ => by omega
  · have value := iprValueOwn ok ok_ same
    refine ⟨by rw [modemUartBaudParseIpr,modemUartBaudParseIpr,value],fun target => ?_⟩
    rw [supportsIpr,supportsIpr,modemUartBaudSupportsIpr,modemUartBaudSupportsIpr,value]

/-- Another name that starts with the key, an empty group and one with two rates. -/
example : supportsIpr (ascii "+IPRX: 9\r\n+IPR : (),( 9600 ,115200)\r\n\r\nOK\r\n") 115200 = true := by decide +kernel

end Web3PiUps.ModemUartBaud
