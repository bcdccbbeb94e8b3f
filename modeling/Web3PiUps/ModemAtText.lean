import Mathlib.Algebra.Group.Nat.Defs
import Mathlib.Data.List.DropRight
import Mathlib.Data.List.Induction
import Web3PiUps.Lib.Numerals
import Web3PiUps.WupsProtocol

/-! The text of AT replies, as `modem_radio_policy.c` reads it: lines, the final result, named
values and numbers. -/
namespace Web3PiUps.ModemAtText
open WupsProtocol

abbrev responseCapacity : Nat := 512
abbrev cr : UInt8 := 0x0D
abbrev lf : UInt8 := 0x0A
abbrev tab : UInt8 := 0x09
abbrev space : UInt8 := 0x20
abbrev colon : UInt8 := 0x3A
abbrev comma : UInt8 := 0x2C
abbrev uintMax : Nat := 2^32-1

def horizontalSpace (c : UInt8) : Bool := c = space || c = tab || c = cr

def trim (text : Bytes) : Bytes := (text.dropWhile horizontalSpace).rdropWhile horizontalSpace

/-- The lines that `next_line` finds one after the other; only LF completes one. -/
def linesFrom (part : Bytes) : Bytes → List Bytes
  | [] => []
  | c::rest => if c = lf then trim part :: linesFrom [] rest else linesFrom (part ++ [c]) rest

def lines (text : Bytes) : List Bytes := linesFrom [] text

inductive Status where
  | wait
  | ok
  | error
  deriving DecidableEq, Repr

def illegal (c : UInt8) : Bool := (c < 0x20 && c ≠ cr && c ≠ lf && c ≠ tab) || c > 0x7E

def okLine : Bytes := ascii "OK"

def errorLine (line : Bytes) : Bool :=
  line = ascii "ERROR" || (ascii "+CME ERROR:").isPrefixOf line || (ascii "+CMS ERROR:").isPrefixOf line ||
    line = ascii "NO CARRIER" || line = ascii "NO ANSWER" || line = ascii "BUSY"

def statusFrom (ok : Bool) : List Bytes → Status
  | [] => if ok then .ok else .wait
  | line::rest =>
    if errorLine line then .error
    else if line = okLine then (if ok then .error else statusFrom true rest)
    else statusFrom ok rest

def modemRadioResponseStatus (response : Bytes) : Status :=
  if response.length ≥ responseCapacity then .error
  else if response = [] then .wait
  else if response.any illegal then .error
  else statusFrom false (lines response)

inductive Named where
  | other
  | malformed
  | value (text : Bytes)
  deriving DecidableEq, Repr

def namedValue (line key : Bytes) : Named :=
  if key.isPrefixOf line = false then .other
  else
    let rest := line.drop key.length
    if rest.head?.any (fun c => c ≠ colon && !horizontalSpace c) then .other
    else
      match trim rest with
      | [] => .malformed
      | c::value => if c = colon then .value (trim value) else .malformed

def isDigit (c : UInt8) : Bool := 0x30 ≤ c && c ≤ 0x39
def digitOf (c : UInt8) : Nat := c.toNat - 0x30

/-- The digits of `take_unsigned`, below the given maximum. -/
def takeDigits (max value : Nat) : Bytes → Option (Nat × Bytes)
  | [] => some (value,[])
  | c::rest =>
    if isDigit c then
      if value > (max - digitOf c)/10 then none else takeDigits max (value*10 + digitOf c) rest
    else some (value,c::rest)

def takeUnsigned (text : Bytes) : Option (Nat × Bytes) :=
  let text := trim text
  if text.head?.any isDigit then (takeDigits uintMax 0 text).map fun (value,rest) => (value,trim rest)
  else none

def Blank (text : Bytes) : Prop := ∀ c ∈ text, horizontalSpace c = true

def decimal (digits : Bytes) : Nat := digits.foldl (fun value c => value*10 + digitOf c) 0

structure Digits (text : Bytes) (value : Nat) : Prop where
  some_ : text ≠ []
  digits : ∀ c ∈ text, isDigit c = true
  denotes : decimal text = value

/-- The digits of `value`, between blanks. -/
def Number (text : Bytes) (value : Nat) : Prop :=
  ∃ before digits after, text = before ++ digits ++ after ∧ Blank before ∧ Digits digits value ∧ Blank after

/-- A line for the key: it follows at the start, up to a colon, a blank or the end. -/
def Names (key line : Bytes) : Prop :=
  ∃ rest, line = key ++ rest ∧ ∀ c ∈ rest.head?, c = colon ∨ horizontalSpace c = true

/-- Key, colon and value of a line, with any blanks between them. -/
def Carries (key line value : Bytes) : Prop :=
  ∃ before after, line = key ++ before ++ colon::(after ++ value) ∧ Blank before ∧ Blank after

theorem trimSplit (text : Bytes) : ∃ before after, text = before ++ trim text ++ after ∧ Blank before ∧ Blank after := by
  refine ⟨text.takeWhile horizontalSpace,(text.dropWhile horizontalSpace).rtakeWhile horizontalSpace,?_,?_,?_⟩
  · rw [trim,List.append_assoc,List.rdropWhile_append_rtakeWhile,List.takeWhile_append_dropWhile]
  · exact fun c mem => List.mem_takeWhile_imp mem
  · exact fun c mem => List.mem_rtakeWhile_imp mem

theorem blankNil : Blank [] := fun _ mem => absurd mem List.not_mem_nil

theorem blankAppend {a b : Bytes} (ha : Blank a) (hb : Blank b) : Blank (a ++ b) :=
  fun c mem => (List.mem_append.mp mem).elim (ha c) (hb c)

theorem numberPadded {text before after : Bytes} {value : Nat} (h : Number text value) (hb : Blank before)
    (ha : Blank after) : Number (before ++ text ++ after) value := by
  obtain ⟨front,digits,back,rfl,front_,digits_,back_⟩ := h
  exact ⟨before ++ front,digits,back ++ after,by simp,blankAppend hb front_,digits_,blankAppend back_ ha⟩

theorem namedOther {line key : Bytes} (h : namedValue line key = .other) : ¬Names key line := by
  rintro ⟨rest,rfl,next⟩
  have keyed : key.isPrefixOf (key ++ rest) = true := List.isPrefixOf_iff_prefix.mpr (List.prefix_append key rest)
  unfold namedValue at h
  rw [keyed,if_neg nofun,List.drop_left] at h
  simp only at h
  split at h
  · rename_i bad
    cases rest with
    | nil => exact absurd bad nofun
    | cons c rest => rcases next c rfl with here | here <;> simp [here] at bad
  · split at h
    · exact absurd h nofun
    · split at h <;> exact absurd h nofun

theorem namedCarries {line key value : Bytes} (h : namedValue line key = .value value) :
    ∃ text, Carries key line text ∧ ∃ after, text = value ++ after ∧ Blank after := by
  unfold namedValue at h
  split at h
  · exact absurd h nofun
  · rename_i keyed
    have keyed : key <+: line := List.isPrefixOf_iff_prefix.mp (by simpa using keyed)
    obtain ⟨rest,rfl⟩ := keyed
    rw [List.drop_left] at h
    simp only at h
    split at h
    · exact absurd h nofun
    · obtain ⟨before,after,split_,before_,after_⟩ := trimSplit rest
      split at h
      · exact absurd h nofun
      · rename_i c text start
        split at h
        · rename_i here
          cases h
          subst here
          obtain ⟨front,back,parts,front_,back_⟩ := trimSplit text
          refine ⟨trim text ++ back ++ after,⟨before,front,?_,before_,front_⟩,back ++ after,by simp,blankAppend back_ after_⟩
          rw [split_,start]
          conv_lhs => rw [parts]
          simp
        · exact absurd h nofun

theorem takeDigitsReads {max acc value : Nat} {text rest : Bytes} (h : takeDigits max acc text = some (value,rest)) :
    ∃ digits, text = digits ++ rest ∧ (∀ c ∈ digits, isDigit c = true) ∧
      digits.foldl (fun value c => value*10 + digitOf c) acc = value ∧ rest.head?.any isDigit = false := by
  induction text generalizing acc with
  | nil => cases h; exact ⟨[],rfl,nofun,rfl,rfl⟩
  | cons c text ih =>
    rw [takeDigits] at h
    split at h
    · rename_i digit
      split at h
      · exact absurd h nofun
      · obtain ⟨digits,rfl,all,denotes,stops⟩ := ih h
        exact ⟨c::digits,rfl,List.forall_mem_cons.mpr ⟨digit,all⟩,denotes,stops⟩
    · rename_i other
      cases h
      exact ⟨[],rfl,nofun,rfl,by simpa using other⟩

theorem linesGrow (part a b : Bytes) : ∃ more, linesFrom part (a ++ b) = linesFrom part a ++ more := by
  induction a generalizing part with
  | nil => exact ⟨_,rfl⟩
  | cons c rest ih =>
    rw [List.cons_append,linesFrom,linesFrom]
    split
    · obtain ⟨more,same⟩ := ih []
      exact ⟨more,by rw [same]; rfl⟩
    · exact ih _

theorem errorStays {ok : Bool} {ls : List Bytes} (more : List Bytes) (h : statusFrom ok ls = .error) :
    statusFrom ok (ls ++ more) = .error := by
  induction ls generalizing ok with
  | nil => cases ok <;> exact absurd h nofun
  | cons line rest ih =>
    rw [statusFrom] at h
    rw [List.cons_append,statusFrom]
    split at h
    · rw [if_pos ‹_›]
    · rw [if_neg ‹_›]
      split at h
      · rw [if_pos ‹_›]
        split at h
        · rw [if_pos ‹_›]
        · rw [if_neg ‹_›]
          exact ih h
      · rw [if_neg ‹_›]
        exact ih h

theorem okPart {a b : Bytes} (h : modemRadioResponseStatus (a ++ b) = .ok) : modemRadioResponseStatus a ≠ .error := by
  intro bad
  unfold modemRadioResponseStatus at h bad
  split at h
  · exact absurd h nofun
  rename_i fits
  split at h
  · exact absurd h nofun
  split at h
  · exact absurd h nofun
  rename_i legal
  rw [List.any_append,Bool.not_eq_true,Bool.or_eq_false_iff] at legal
  rw [List.length_append] at fits
  rw [if_neg (by omega)] at bad
  split at bad
  · exact absurd bad nofun
  rw [legal.1,if_neg nofun] at bad
  obtain ⟨more,same⟩ := linesGrow [] a b
  rw [lines,same,errorStays more (by exact bad)] at h
  exact absurd h nofun

theorem okStays (ls more : List Bytes) (h : statusFrom false ls = .ok) : statusFrom false (ls ++ more) ≠ .wait := by
  have seen : ∀ (ok : Bool) (ls more : List Bytes), statusFrom ok ls = .ok → statusFrom ok (ls ++ more) ≠ .wait := by
    intro ok ls more
    induction ls generalizing ok with
    | nil =>
      intro done
      cases ok with
      | false => exact absurd done nofun
      | true =>
        induction more with
        | nil => exact nofun
        | cons line rest ih =>
          rw [List.nil_append,statusFrom]
          split
          · exact nofun
          · split
            · exact nofun
            · exact ih
    | cons line rest ih =>
      intro done
      rw [statusFrom] at done
      rw [List.cons_append,statusFrom]
      split at done
      · exact absurd done nofun
      · rw [if_neg ‹_›]
        split at done
        · rw [if_pos ‹_›]
          split at done
          · exact absurd done nofun
          · rw [if_neg ‹_›]
            exact ih true done
        · rw [if_neg ‹_›]
          exact ih ok done
  exact seen false ls more h

theorem linesUnended (part a : Bytes) {c : Bytes} (unended : lf ∉ c) : linesFrom part (a ++ c) = linesFrom part a := by
  induction a generalizing part with
  | nil =>
    rw [List.nil_append,linesFrom]
    induction c generalizing part with
    | nil => rfl
    | cons x rest ih =>
      have other : x ≠ lf := fun same => unended (same ▸ List.mem_cons_self)
      rw [linesFrom,if_neg other]
      exact ih (fun mem => unended (List.mem_cons_of_mem _ mem)) _
  | cons x rest ih =>
    rw [List.cons_append,linesFrom,linesFrom]
    split
    · rw [ih]
    · exact ih _

/-- What the bytes themselves allow, before any line is read. -/
def Readable (response : Bytes) : Prop :=
  response.length < responseCapacity ∧ ∀ c ∈ response, illegal c = false

theorem statusReadable {response : Bytes} (readable : Readable response) :
    modemRadioResponseStatus response = statusFrom false (lines response) := by
  rw [modemRadioResponseStatus,if_neg (Nat.not_le.mpr readable.1)]
  by_cases empty : response = []
  · rw [if_pos empty,empty]
    rfl
  · have legal : ¬response.any illegal = true := by
      rw [List.any_eq_true]
      intro ⟨c,mem,bad⟩
      rw [readable.2 c mem] at bad
      exact absurd bad nofun
    rw [if_neg empty,if_neg legal]

theorem statusUnreadable {response : Bytes} (unreadable : ¬Readable response) :
    modemRadioResponseStatus response = .error := by
  rw [modemRadioResponseStatus]
  by_cases long : response.length ≥ responseCapacity
  · exact if_pos long
  have some_ : response ≠ [] := by
    rintro rfl
    exact unreadable ⟨by decide,nofun⟩
  have bad : response.any illegal = true := by
    by_contra legal
    refine unreadable ⟨Nat.not_le.mp long,fun c mem => ?_⟩
    rw [List.any_eq_true] at legal
    exact Bool.eq_false_iff.mpr fun bad => legal ⟨c,mem,bad⟩
  rw [if_neg long,if_neg some_,if_pos bad]

/-- A reply within the capacity, of readable bytes only, with one OK line and no error line. -/
structure OkReply (response : Bytes) : Prop where
  readable : Readable response
  ok : (lines response).count okLine = 1
  clean : ∀ line ∈ lines response, errorLine line = false

theorem statusFromOk (ok : Bool) (ls : List Bytes) :
    statusFrom ok ls = .ok ↔ ls.count okLine + ok.toNat = 1 ∧ ∀ line ∈ ls, errorLine line = false := by
  induction ls generalizing ok with
  | nil => cases ok <;> simp [statusFrom]
  | cons line ls ih =>
    rw [statusFrom,List.forall_mem_cons,List.count_cons]
    split
    · rename_i error
      exact ⟨nofun,fun ⟨_,clean,_⟩ => absurd (error.symm.trans clean) nofun⟩
    rename_i clean
    have clean : errorLine line = false := by simpa using clean
    by_cases here : line = okLine
    · rw [if_pos here,if_pos (beq_iff_eq.mpr here)]
      cases ok with
      | true =>
        refine ⟨nofun,fun ⟨count,_⟩ => ?_⟩
        rw [Bool.toNat_true] at count
        omega
      | false =>
        rw [if_neg nofun,ih]
        exact and_congr (by simp) (by simp [clean])
    · rw [if_neg here,if_neg (by simpa using here),ih]
      exact and_congr (by simp) (by simp [clean])

theorem statusOk {response : Bytes} : modemRadioResponseStatus response = .ok ↔ OkReply response := by
  by_cases readable : Readable response
  · rw [statusReadable readable,statusFromOk]
    exact ⟨fun ⟨ok,clean⟩ => ⟨readable,ok,clean⟩,fun reply => ⟨reply.ok,reply.clean⟩⟩
  · rw [statusUnreadable readable]
    exact ⟨nofun,fun reply => absurd reply.readable readable⟩

theorem readablePart {a b : Bytes} (readable : Readable (a ++ b)) : Readable a := by
  have size := readable.1
  rw [List.length_append] at size
  exact ⟨by omega,fun c mem => readable.2 c (List.mem_append_left b mem)⟩

theorem statusStable (b c : Bytes) :
    (modemRadioResponseStatus b = .error → modemRadioResponseStatus (b ++ c) = .error) ∧
      (modemRadioResponseStatus b = .ok → modemRadioResponseStatus (b ++ c) ≠ .wait) ∧
      (lf ∉ c → (∀ x ∈ c, illegal x = false) → (b ++ c).length < responseCapacity →
        modemRadioResponseStatus (b ++ c) = modemRadioResponseStatus b) := by
  refine ⟨fun error => ?_,fun ok => ?_,fun unended legal size => ?_⟩
  · by_cases readable : Readable (b ++ c)
    · rw [statusReadable (readablePart readable)] at error
      obtain ⟨more,same⟩ := linesGrow [] b c
      rw [statusReadable readable,lines,same]
      exact errorStays more error
    · exact statusUnreadable readable
  · by_cases readable : Readable (b ++ c)
    · rw [statusReadable (readablePart readable)] at ok
      obtain ⟨more,same⟩ := linesGrow [] b c
      rw [statusReadable readable,lines,same]
      exact okStays _ more ok
    · rw [statusUnreadable readable]
      exact nofun
  · by_cases readable : Readable b
    · have whole : Readable (b ++ c) :=
        ⟨size,fun x mem => (List.mem_append.mp mem).elim (readable.2 x) (legal x)⟩
      rw [statusReadable readable,statusReadable whole,lines,linesUnended [] b unended]
      rfl
    · have longer : ¬Readable (b ++ c) := fun whole => readable (readablePart whole)
      rw [statusUnreadable readable,statusUnreadable longer]

/-- The lines that an LF ends, as they stand. -/
def rawFrom (part : Bytes) : Bytes → List Bytes
  | [] => []
  | c::rest => if c = lf then part :: rawFrom [] rest else rawFrom (part ++ [c]) rest

def rawLines (reply : Bytes) : List Bytes := rawFrom [] reply

theorem rawTrim (part text : Bytes) : linesFrom part text = (rawFrom part text).map trim := by
  induction text generalizing part with
  | nil => rfl
  | cons c text ih =>
    rw [linesFrom,rawFrom]
    split
    · rw [ih]
      rfl
    · exact ih _

theorem rawUnended {text : Bytes} (part : Bytes) (unended : lf ∉ text) : rawFrom part text = [] := by
  induction text generalizing part with
  | nil => rfl
  | cons c text ih =>
    rw [List.mem_cons,not_or] at unended
    rw [rawFrom,if_neg (Ne.symm unended.1)]
    exact ih _ unended.2

theorem rawLine {line : Bytes} (part rest : Bytes) (within : lf ∉ line) :
    rawFrom part (line ++ lf::rest) = (part ++ line)::rawLines rest := by
  induction line generalizing part with
  | nil =>
    rw [List.nil_append,rawFrom,if_pos rfl,List.append_nil]
    rfl
  | cons c line ih =>
    rw [List.mem_cons,not_or] at within
    rw [List.cons_append,rawFrom,if_neg (Ne.symm within.1),ih _ within.2,List.append_assoc]
    rfl

/-- At the start of a line. -/
def Ended (before : Bytes) : Prop := before = [] ∨ ∃ text, before = text ++ [lf]

theorem rawAppend {before : Bytes} (ended : Ended before) (rest : Bytes) :
    rawLines (before ++ rest) = rawLines before ++ rawLines rest := by
  rcases ended with rfl | ⟨text,rfl⟩
  · rfl
  · have all : ∀ part, rawFrom part (text ++ [lf] ++ rest) = rawFrom part (text ++ [lf]) ++ rawLines rest := by
      induction text with
      | nil =>
        intro part
        rw [List.nil_append,List.cons_append,rawFrom,rawFrom,if_pos rfl,if_pos rfl]
        rfl
      | cons c text ih =>
        intro part
        rw [List.cons_append,List.cons_append,rawFrom,rawFrom]
        split
        · rw [ih]
          rfl
        · exact ih _
    exact all []

theorem linesRaw (text : Bytes) : lines text = (rawLines text).map trim := rawTrim [] text

theorem cutLines {before part : Bytes} (ended : Ended before) (unended : lf ∉ part) :
    rawLines (before ++ part) = rawLines before := by
  rw [rawAppend ended,rawLines,rawLines,rawUnended [] unended,List.append_nil]

theorem wholeLines {before line : Bytes} (rest : Bytes) (ended : Ended before) (within : lf ∉ line) :
    rawLines (before ++ (line ++ lf::rest)) = rawLines before ++ line::rawLines rest := by
  rw [rawAppend ended]
  exact congrArg _ (rawLine [] rest within)

theorem linesCut {before part : Bytes} (ended : Ended before) (unended : lf ∉ part) : lines (before ++ part) = lines before := by
  rw [linesRaw,cutLines ended unended,linesRaw]

theorem linesWhole {before line : Bytes} (rest : Bytes) (ended : Ended before) (within : lf ∉ line) :
    lines (before ++ (line ++ lf::rest)) = lines before ++ trim line::lines rest := by
  rw [linesRaw,wholeLines rest ended within,List.map_append,List.map_cons,linesRaw,linesRaw]

/-- What `take_unsigned` takes is a number, and the rest starts with no blank. -/
theorem takenNumber {text rest : Bytes} {value : Nat} (h : takeUnsigned text = some (value,rest)) :
    ∃ number after, text = number ++ rest ++ after ∧ Number number value ∧ Blank after := by
  unfold takeUnsigned at h
  simp only at h
  split at h
  · rename_i starts
    obtain ⟨⟨v,left⟩,taken,same⟩ := Option.map_eq_some_iff.mp h
    cases same
    obtain ⟨digits,parts,all,denotes,stops⟩ := takeDigitsReads taken
    obtain ⟨before,after,split_,before_,after_⟩ := trimSplit text
    obtain ⟨front,back,rest_,front_,back_⟩ := trimSplit left
    have some_ : digits ≠ [] := by
      rintro rfl
      rw [parts] at starts
      simp [stops] at starts
    refine ⟨before ++ digits ++ front,back ++ after,?_,⟨before,digits,front,rfl,before_,⟨some_,all,denotes⟩,front_⟩,
      blankAppend back_ after_⟩
    conv_lhs => rw [split_,parts,rest_]
    simp
  · exact absurd h nofun

theorem trimBlank {text : Bytes} (blank : Blank text) : trim text = [] := by
  rw [trim,List.dropWhile_eq_nil_iff.mpr blank]
  rfl

theorem blankTrim {text : Bytes} (empty : trim text = []) : Blank text := by
  obtain ⟨before,after,split_,before_,after_⟩ := trimSplit text
  rw [empty,List.append_nil] at split_
  rw [split_]
  exact blankAppend before_ after_

theorem trimPadded {before after : Bytes} (text : Bytes) (before_ : Blank before) (after_ : Blank after) :
    trim (before ++ text ++ after) = trim text := by
  have stripped : ∀ t : Bytes, (t ++ after).rdropWhile horizontalSpace = t.rdropWhile horizontalSpace := by
    intro t
    have blank : ∀ c ∈ after.reverse, horizontalSpace c = true := fun c mem => after_ c (List.mem_reverse.mp mem)
    rw [List.rdropWhile,List.rdropWhile,List.reverse_append,List.dropWhile_append_of_pos blank]
  rw [trim,List.append_assoc,List.dropWhile_append_of_pos before_]
  by_cases whole : Blank text
  · have all : Blank (text ++ after) := blankAppend whole after_
    rw [List.dropWhile_eq_nil_iff.mpr all,trimBlank whole]
    rfl
  · have some_ : text.dropWhile horizontalSpace ≠ [] := fun empty => whole (List.dropWhile_eq_nil_iff.mp empty)
    rw [List.dropWhile_append,if_neg (by simpa using some_),stripped,trim]

theorem trimTrim (text : Bytes) : trim (trim text) = trim text := by
  obtain ⟨before,after,split_,before_,after_⟩ := trimSplit text
  conv_rhs => rw [split_]
  exact (trimPadded _ before_ after_).symm

theorem dropBehind {c : UInt8} (solid : horizontalSpace c = false) (text : Bytes) :
    (c::text).rdropWhile horizontalSpace = c::text.rdropWhile horizontalSpace := by
  induction text using List.reverseRecOn with
  | nil =>
    rw [List.rdropWhile_singleton,if_neg (by simp [solid])]
    rfl
  | append_singleton text x ih =>
    rw [← List.cons_append,List.rdropWhile_concat,List.rdropWhile_concat,ih]
    split_ifs <;> rfl

theorem dropBehindAll {front : Bytes} (solid : ∀ c ∈ front, horizontalSpace c = false) (text : Bytes) :
    (front ++ text).rdropWhile horizontalSpace = front ++ text.rdropWhile horizontalSpace := by
  induction front with
  | nil => rfl
  | cons c front ih =>
    rw [List.cons_append,dropBehind (solid c List.mem_cons_self),ih fun x mem => solid x (List.mem_cons_of_mem c mem)]
    rfl

theorem trimCons {c : UInt8} (solid : horizontalSpace c = false) (text : Bytes) :
    trim (c::text) = c::text.rdropWhile horizontalSpace := by
  rw [trim,List.dropWhile_cons_of_neg (by simp [solid]),dropBehind solid]

theorem trimBehind (text : Bytes) : trim (text.rdropWhile horizontalSpace) = trim text := by
  have blank : Blank (text.rtakeWhile horizontalSpace) := fun _ mem => List.mem_rtakeWhile_imp mem
  have padded := trimPadded (text.rdropWhile horizontalSpace) blankNil blank
  rw [List.nil_append,List.rdropWhile_append_rtakeWhile] at padded
  exact padded.symm

theorem trimLeads {c : UInt8} {rest value : Bytes} (leads : trim rest = c::value) :
    ∃ gap text, rest = gap ++ c::text ∧ Blank gap ∧ trim text = trim value := by
  obtain ⟨before,after,split_,before_,after_⟩ := trimSplit rest
  rw [leads] at split_
  have padded := trimPadded value blankNil after_
  exact ⟨before,value ++ after,by rw [split_,List.append_assoc]; rfl,before_,padded⟩

theorem leadsTrim {c : UInt8} {gap : Bytes} (solid : horizontalSpace c = false) (text : Bytes) (blank : Blank gap) :
    ∃ value, trim (gap ++ c::text) = c::value ∧ trim value = trim text := by
  have padded := trimPadded (c::text) blank blankNil
  rw [List.append_nil,trimCons solid] at padded
  exact ⟨_,padded,trimBehind text⟩

/-! The bounded readers take exactly the numbers up to their bound. -/

def decimalDigit (c : UInt8) : Option Nat := if isDigit c then some (digitOf c) else none

theorem decimalNumeric (c : UInt8) : Numerals.numeric decimalDigit c = isDigit c := by
  rw [Numerals.numeric,decimalDigit]
  cases isDigit c <;> rfl

theorem digitSmall {c : UInt8} (digit : isDigit c = true) : digitOf c ≤ 9 := by
  rw [isDigit,Bool.and_eq_true,decide_eq_true_iff,decide_eq_true_iff] at digit
  have top := UInt8.le_iff_toNat_le.mp digit.2
  have nine : (0x39 : UInt8).toNat = 0x39 := rfl
  rw [digitOf]
  omega

theorem takeDigitsRead {max : Nat} (wide : 9 ≤ max) (value : Nat) (text : Bytes) :
    takeDigits max value text = Numerals.read decimalDigit 10 max value text := by
  induction text generalizing value with
  | nil => rfl
  | cons c text ih =>
    rw [takeDigits,Numerals.read,decimalDigit]
    by_cases digit : isDigit c = true
    · have small := digitSmall digit
      have same : value > (max-digitOf c)/10 ↔ max < value*10+digitOf c := by omega
      rw [if_pos digit,if_pos digit,ih]
      simp only [same]
    · rw [if_neg digit,if_neg digit]

theorem decimalValue {digits : Bytes} (all : ∀ c ∈ digits, isDigit c = true) :
    Numerals.value decimalDigit 10 digits = decimal digits := by
  rw [Numerals.value,Numerals.valueFrom,decimal]
  apply List.foldl_ext
  intro value c mem
  rw [decimalDigit,if_pos (all c mem)]
  rfl

/-- `take_unsigned` and `take_integer`, with their bounds. -/
def takeBelow (max : Nat) (text : Bytes) : Option (Nat × Bytes) :=
  let text := trim text
  if text.head?.any isDigit then (takeDigits max 0 text).map fun (value,rest) => (value,trim rest)
  else none

theorem takeBelowTrim (max : Nat) (text : Bytes) : takeBelow max (trim text) = takeBelow max text := by
  rw [takeBelow,takeBelow,trimTrim]

theorem digitSolid {c : UInt8} (digit : isDigit c = true) : horizontalSpace c = false := by
  rw [isDigit,Bool.and_eq_true,decide_eq_true_iff] at digit
  have low := UInt8.le_iff_toNat_le.mp digit.1
  have zero : (0x30 : UInt8).toNat = 0x30 := rfl
  by_contra blank
  rw [Bool.not_eq_false,horizontalSpace] at blank
  simp only [Bool.or_eq_true,decide_eq_true_iff] at blank
  rcases blank with (rfl | rfl) | rfl <;> exact absurd low (by decide)

theorem blankNoDigit {c : UInt8} (blank : horizontalSpace c = true) : isDigit c = false :=
  Bool.eq_false_iff.mpr fun digit => absurd (blank.symm.trans (digitSolid digit)) nofun

theorem takeBelowTakes {max n : Nat} (wide : 9 ≤ max) {text left : Bytes} (taken : takeBelow max text = some (n,left)) :
    ∃ number behind, text = number ++ behind ∧ Number number n ∧ n ≤ max ∧ left = trim behind ∧
      ∀ c ∈ behind.head?, isDigit c = false := by
  rw [takeBelow] at taken
  dsimp only at taken
  split at taken
  · rename_i starts
    obtain ⟨⟨v,behind⟩,read,same⟩ := Option.map_eq_some_iff.mp taken
    cases same
    rw [takeDigitsRead wide] at read
    have first : ∃ c ∈ (trim text).head?, Numerals.numeric decimalDigit c = true := by
      obtain ⟨c,here,digit⟩ := (Option.any_eq_true _ _).mp starts
      exact ⟨c,here,(decimalNumeric c).trans digit⟩
    obtain ⟨digits,parts,digits_,fits,ends⟩ := Numerals.denotesRead (by decide) first read
    obtain ⟨before,after,split_,before_,after_⟩ := trimSplit text
    have all : ∀ c ∈ digits, isDigit c = true := fun c mem => (decimalNumeric c).symm.trans (digits_.digits c mem)
    refine ⟨before ++ digits,behind ++ after,?_,⟨before,digits,[],by simp,before_,⟨digits_.some_,all,?_⟩,blankNil⟩,fits,?_,?_⟩
    · rw [List.append_assoc,← List.append_assoc _ _ after,← parts,← List.append_assoc]
      exact split_
    · rw [← decimalValue all]
      exact digits_.value
    · exact (trimPadded _ blankNil after_).symm
    · intro c next
      cases behind with
      | nil => exact blankNoDigit (after_ c (List.mem_of_mem_head? next))
      | cons b behind =>
        obtain rfl : b = c := Option.some.inj next
        have stops := ends b rfl
        rw [decimalDigit] at stops
        by_contra digit
        rw [if_pos (Bool.not_eq_false _ ▸ digit)] at stops
        exact absurd stops nofun
  · exact absurd taken nofun

theorem takeBelowReads {max n : Nat} (wide : 9 ≤ max) {number : Bytes} (behind : Bytes) (number_ : Number number n)
    (fits : n ≤ max) (ends : ∀ c ∈ behind.head?, isDigit c = false) :
    takeBelow max (number ++ behind) = some (n,trim behind) := by
  obtain ⟨before,digits,after,rfl,before_,digits_,after_⟩ := number_
  obtain ⟨d,more,rfl⟩ := List.exists_cons_of_ne_nil digits_.some_
  have solid : ∀ c ∈ d::more, horizontalSpace c = false := fun c mem => digitSolid (digits_.digits c mem)
  have trimmed : trim (before ++ (d::more) ++ after ++ behind) =
      (d::more) ++ (after ++ behind).rdropWhile horizontalSpace := by
    have padded := trimPadded ((d::more) ++ (after ++ behind)) before_ blankNil
    rw [List.append_nil] at padded
    rw [List.append_assoc,List.append_assoc,padded,← dropBehindAll solid,List.cons_append,
      trimCons (solid d List.mem_cons_self),← dropBehind (solid d List.mem_cons_self)]
  have stops : ∀ c ∈ ((after ++ behind).rdropWhile horizontalSpace).head?, decimalDigit c = none := by
    intro c first
    obtain ⟨rest,whole⟩ := List.rdropWhile_prefix horizontalSpace (l := after ++ behind)
    have start : (after ++ behind).head? = some c := by
      rw [← whole,List.head?_append,first]
      rfl
    have other : isDigit c = false := by
      cases after with
      | nil => exact ends c start
      | cons x after =>
        cases start
        exact blankNoDigit (after_ c List.mem_cons_self)
    rw [decimalDigit,if_neg (by simp [other])]
  have run := Numerals.runEnds (fun c mem => (decimalNumeric c).trans (digits_.digits c mem)) stops
  have value : Numerals.valueFrom decimalDigit 10 0 (d::more) = n := (decimalValue digits_.digits).trans digits_.denotes
  have start : ((d::more) ++ (after ++ behind).rdropWhile horizontalSpace).head?.any isDigit = true :=
    digits_.digits d List.mem_cons_self
  rw [takeBelow]
  dsimp only
  rw [trimmed,if_pos start,takeDigitsRead wide,Numerals.readValue (by decide) (Nat.zero_le _),run.1,run.2,value,
    if_pos fits]
  have last : trim ((after ++ behind).rdropWhile horizontalSpace) = trim behind := by
    have padded := trimPadded behind after_ blankNil
    rw [List.append_nil] at padded
    rw [trimBehind,padded]
  rw [Option.map_some,last]

end Web3PiUps.ModemAtText
