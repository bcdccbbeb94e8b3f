import Mathlib.Data.List.Induction
import Web3PiUps.FwOtaHttpPolicy
import Web3PiUps.Lib.Numerals

/-! What `fw_ota_http_response_valid` accepts: the response headers as a list, in any order. -/
namespace Web3PiUps.FwOtaDownload
open WupsProtocol (Bytes ascii)

def blank (c : UInt8) : Bool := c = 0x20 || c = 0x09

def Blanks (text : Bytes) : Prop := ∀ c ∈ text, blank c = true

def decimalDigit (c : UInt8) : Option Nat := if isDigit c then some (c.toNat-0x30) else none

abbrev Digits : Bytes → Nat → Prop := Numerals.Denotes decimalDigit 10

/-- The digits of a number, between blanks. -/
def Amount (value : Bytes) (n : Nat) : Prop :=
  ∃ before digits after, value = before ++ digits ++ after ∧ Blanks before ∧ Digits digits n ∧ Blanks after

/-- `bytes first-last/total`, between blanks. -/
def Range (value : Bytes) (first last total : Nat) : Prop :=
  ∃ before a b c after, value = before ++ (ascii "bytes " ++ (a ++ 0x2D::(b ++ 0x2F::(c ++ after)))) ∧
    Blanks before ∧ Digits a first ∧ Digits b last ∧ Digits c total ∧ Blanks after

/-- The word, in any case, between blanks. -/
def Identity (value : Bytes) : Prop :=
  ∃ before word after, value = before ++ word ++ after ∧ Blanks before ∧ strcasecmp word (ascii "identity") ∧ Blanks after

abbrev Headers := List (Bytes × Bytes)

def valuesOf (name : String) (headers : Headers) : List Bytes :=
  (headers.filter fun h => strcasecmp h.1 (ascii name)).map Prod.snd

structure Accepts (status : Int) (headers : Headers) (offset imageLen : Nat) : Prop where
  inside : offset < imageLen
  length : ∃ value, valuesOf "Content-Length" headers = [value] ∧ Amount value (imageLen-offset)
  encoding : ∀ value ∈ valuesOf "Content-Encoding" headers, Identity value
  transfer : valuesOf "Transfer-Encoding" headers = []
  range : offset = 0 ∧ status = 200 ∧ valuesOf "Content-Range" headers = [] ∨
    fwOtaResumeMin ≤ offset ∧ status = 206 ∧
      ∃ value, valuesOf "Content-Range" headers = [value] ∧ Range value offset (imageLen-1) imageLen

theorem skipSpaceDrops (p : Bytes) : skipSpace p = p.dropWhile blank := by
  induction p with
  | nil => rfl
  | cons b rest ih =>
    rw [skipSpace]
    split
    · rename_i here
      rw [List.dropWhile_cons_of_pos (by simpa [blank] using here),ih]
    · rename_i other
      rw [List.dropWhile_cons_of_neg (by simpa [blank] using other)]

theorem skipBlanks {before : Bytes} (blanks : Blanks before) {rest : Bytes} (solid : ∀ c ∈ rest.head?, blank c = false) :
    skipSpace (before ++ rest) = rest := by
  rw [skipSpaceDrops]
  exact Numerals.dropBlanks blanks solid

theorem blanksSkip (p : Bytes) : ∃ before, p = before ++ skipSpace p ∧ Blanks before := by
  obtain ⟨before,whole,blanks,-⟩ := Numerals.blanksDrop blank p
  exact ⟨before,by rw [skipSpaceDrops]; exact whole,blanks⟩

theorem skipAll {p : Bytes} : skipSpace p = [] ↔ Blanks p := by
  rw [skipSpaceDrops,List.dropWhile_eq_nil_iff]
  exact Iff.rfl

theorem digitNumeric (c : UInt8) : Numerals.numeric decimalDigit c = isDigit c := by
  rw [Numerals.numeric,decimalDigit]
  cases isDigit c <;> rfl

theorem blankNoDigit {c : UInt8} (here : blank c = true) : decimalDigit c = none := by
  rw [blank,Bool.or_eq_true,decide_eq_true_iff,decide_eq_true_iff] at here
  rcases here with rfl | rfl <;> rfl

theorem digitNoBlank {c : UInt8} (digit : Numerals.numeric decimalDigit c = true) : blank c = false := by
  by_contra here
  rw [Numerals.numeric,blankNoDigit (Bool.not_eq_false _ ▸ here)] at digit
  cases digit

theorem decimalFromReads (n : Nat) (p : Bytes) : decimalFrom n p = Numerals.read decimalDigit 10 uint32Max n p := by
  induction p generalizing n with
  | nil => rfl
  | cons b rest ih =>
    rw [decimalFrom,Numerals.read,decimalDigit]
    by_cases digit : isDigit b = true
    · have top : b.toNat ≤ 0x39 := UInt8.le_iff_toNat_le.mp (by
        rw [isDigit,Bool.and_eq_true,decide_eq_true_iff,decide_eq_true_iff] at digit
        exact digit.2)
      have same : n > (uint32Max-(b.toNat-0x30))/10 ↔ uint32Max < n*10+(b.toNat-0x30) := by
        simp only [uint32Max]
        omega
      rw [if_neg (by simp [digit]),if_pos digit]
      simp only [same,ih]
    · rw [if_pos (by simpa using digit),if_neg digit]

/-- The reader takes the whole run of digits, or nothing where its number does not fit. -/
theorem decimalTakes {p rest : Bytes} {n : Nat} : decimal p = some (n,rest) ↔
    ∃ digits, p = digits ++ rest ∧ Digits digits n ∧ n ≤ uint32Max ∧ ∀ c ∈ rest.head?, isDigit c = false := by
  rw [decimal]
  constructor
  · intro taken
    split at taken
    · rename_i starts
      rw [decimalFromReads] at taken
      have first : ∃ c ∈ p.head?, Numerals.numeric decimalDigit c = true := by
        cases p with
        | nil => exact absurd starts (by decide)
        | cons c p => exact ⟨c,rfl,(digitNumeric c).trans starts⟩
      obtain ⟨digits,same,digits_,fits,ends⟩ := Numerals.denotesRead (by decide) first taken
      refine ⟨digits,same,digits_,fits,fun c next => ?_⟩
      rw [← digitNumeric,Numerals.numeric,ends c next]
      rfl
    · cases taken
  · rintro ⟨digits,rfl,digits_,fits,ends⟩
    have starts : isDigit ((digits ++ rest).getD 0 0) = true := by
      obtain ⟨d,more,rfl⟩ := List.exists_cons_of_ne_nil digits_.some_
      exact (digitNumeric d).symm.trans (digits_.digits d List.mem_cons_self)
    rw [if_pos starts,decimalFromReads]
    exact Numerals.readDenotes (by decide) digits_ fits fun c next => if_neg (by simp [ends c next])

theorem blanksEnd {after : Bytes} (blanks : Blanks after) : ∀ c ∈ after.head?, isDigit c = false := by
  intro c first
  have here := blanks c (List.mem_of_mem_head? first)
  rw [← digitNumeric,Numerals.numeric,blankNoDigit here]
  rfl

theorem digitsStart {digits : Bytes} {n : Nat} (numeral : Digits digits n) (rest : Bytes) :
    ∀ c ∈ (digits ++ rest).head?, blank c = false := by
  obtain ⟨d,more,rfl⟩ := List.exists_cons_of_ne_nil numeral.some_
  rintro c ⟨⟩
  exact digitNoBlank (numeral.digits d List.mem_cons_self)

structure LengthRead (r s : Response) (value : Bytes) : Prop where
  valid : r.invalid = false
  first : (r.lengths+1)%2^32 = 1
  amount : ∃ n, Amount value n ∧ n ≤ uint32Max ∧ s = { r with lengths := 1, length := n }

theorem lengthReads {r : Response} {value : Bytes} (valid : (contentLength r (skipSpace value)).invalid = false) :
    LengthRead r (contentLength r (skipSpace value)) value := by
  rw [contentLength] at valid ⊢
  dsimp only at valid ⊢
  split at valid
  · exact absurd valid nofun
  rename_i first
  rw [if_neg first]
  split at valid
  · exact absurd valid nofun
  rename_i n p taken
  rw [headerEnd] at valid ⊢
  split at valid
  · rename_i ended
    obtain ⟨digits,parts,digits_,fits,-⟩ := decimalTakes.mp taken
    obtain ⟨before,whole,before_⟩ := blanksSkip value
    have first := not_not.mp first
    rw [if_pos ended,first]
    exact ⟨valid,first,n,⟨before,digits,p,by rw [List.append_assoc,← parts,← whole],before_,digits_,skipAll.mp ended⟩,fits,rfl⟩
  · exact absurd valid nofun

theorem lengthTaken {r : Response} {value : Bytes} {n : Nat} (first : (r.lengths+1)%2^32 = 1) (amount : Amount value n)
    (fits : n ≤ uint32Max) : contentLength r (skipSpace value) = { r with lengths := 1, length := n } := by
  obtain ⟨before,digits,after,rfl,before_,digits_,after_⟩ := amount
  have taken := decimalTakes.mpr ⟨digits,rfl,digits_,fits,blanksEnd after_⟩
  rw [List.append_assoc,skipBlanks before_ (digitsStart digits_ after),contentLength]
  dsimp only
  rw [first,if_neg (not_not.mpr rfl),taken]
  exact if_pos (skipAll.mpr after_)

structure RangeRead (r s : Response) (value : Bytes) : Prop where
  valid : r.invalid = false
  first : (r.ranges+1)%2^32 = 1
  range : ∃ first last total, Range value first last total ∧ first ≤ uint32Max ∧ last ≤ uint32Max ∧ total ≤ uint32Max ∧
    s = { r with ranges := 1, first := first, last := last, total := total }

theorem rangeReads {r : Response} {value : Bytes} (valid : (contentRange r (skipSpace value)).invalid = false) :
    RangeRead r (contentRange r (skipSpace value)) value := by
  rw [contentRange] at valid ⊢
  dsimp only at valid ⊢
  split at valid
  · exact absurd valid nofun
  rename_i start
  rw [if_neg start]
  rw [not_or,not_not,not_not] at start
  split at valid
  · exact absurd valid nofun
  rename_i first p firstTaken
  split at valid
  · exact absurd valid nofun
  rename_i minus
  rw [if_neg minus]
  split at valid
  · exact absurd valid nofun
  rename_i last q lastTaken
  split at valid
  · exact absurd valid nofun
  rename_i slash
  rw [if_neg slash]
  split at valid
  · exact absurd valid nofun
  rename_i total tail totalTaken
  rw [headerEnd] at valid ⊢
  split at valid
  · rename_i ended
    obtain ⟨a,aParts,a_,aFits,-⟩ := decimalTakes.mp firstTaken
    obtain ⟨b,bParts,b_,bFits,-⟩ := decimalTakes.mp lastTaken
    obtain ⟨c,cParts,c_,cFits,-⟩ := decimalTakes.mp totalTaken
    obtain ⟨p,rfl⟩ := List.head?_eq_some_iff.mp (not_not.mp minus)
    obtain ⟨q,rfl⟩ := List.head?_eq_some_iff.mp (not_not.mp slash)
    rw [List.tail_cons] at bParts cParts
    obtain ⟨before,whole,before_⟩ := blanksSkip value
    have parts : value = before ++ (ascii "bytes " ++ (a ++ 0x2D::(b ++ 0x2F::(c ++ tail)))) := by
      rw [← cParts,← bParts,← aParts,← start.2,List.take_append_drop]
      exact whole
    rw [if_pos ended,start.1]
    exact ⟨valid,start.1,first,last,total,⟨before,a,b,c,tail,parts,before_,a_,b_,c_,skipAll.mp ended⟩,aFits,bFits,cFits,rfl⟩
  · exact absurd valid nofun

theorem rangeTaken {r : Response} {value : Bytes} {first last total : Nat} (once : (r.ranges+1)%2^32 = 1)
    (range : Range value first last total) (first_ : first ≤ uint32Max) (last_ : last ≤ uint32Max) (total_ : total ≤ uint32Max) :
    contentRange r (skipSpace value) = { r with ranges := 1, first := first, last := last, total := total } := by
  obtain ⟨before,a,b,c,after,rfl,before_,a_,b_,c_,after_⟩ := range
  have solid : ∀ x ∈ (ascii "bytes " ++ (a ++ 0x2D::(b ++ 0x2F::(c ++ after)))).head?, blank x = false := by
    rintro x ⟨⟩
    decide
  have minus : ∀ x ∈ ((0x2D : UInt8)::(b ++ 0x2F::(c ++ after))).head?, isDigit x = false := by
    rintro x ⟨⟩
    decide
  have slash : ∀ x ∈ ((0x2F : UInt8)::(c ++ after)).head?, isDigit x = false := by
    rintro x ⟨⟩
    decide
  have firstTaken := decimalTakes.mpr ⟨a,rfl,a_,first_,minus⟩
  have lastTaken := decimalTakes.mpr ⟨b,rfl,b_,last_,slash⟩
  have totalTaken := decimalTakes.mpr ⟨c,rfl,c_,total_,blanksEnd after_⟩
  have keyword (rest : Bytes) : (ascii "bytes " ++ rest).take 6 = ascii "bytes " := List.take_left' (by decide)
  have behind (rest : Bytes) : (ascii "bytes " ++ rest).drop 6 = rest := List.drop_left' (by decide)
  rw [skipBlanks before_ solid,contentRange]
  dsimp only
  rw [once,keyword,behind,if_neg (by simp),firstTaken]
  dsimp only
  rw [List.head?_cons,List.tail_cons,if_neg (not_not.mpr rfl),lastTaken]
  dsimp only
  rw [List.head?_cons,List.tail_cons,if_neg (not_not.mpr rfl),totalTaken]
  exact if_pos (skipAll.mpr after_)

theorem lowerBlank {c : UInt8} (here : blank c = true) : lowerCase c = c := by
  rw [blank,Bool.or_eq_true,decide_eq_true_iff,decide_eq_true_iff] at here
  rcases here with rfl | rfl <;> rfl

theorem identityReads {r : Response} {value : Bytes} (valid : (contentEncoding r (skipSpace value)).invalid = false) :
    Identity value ∧ contentEncoding r (skipSpace value) = r := by
  rw [contentEncoding] at valid ⊢
  split at valid
  · exact absurd valid nofun
  rename_i word
  rw [if_neg word]
  rw [headerEnd] at valid ⊢
  split at valid
  · rename_i ended
    obtain ⟨before,whole,before_⟩ := blanksSkip value
    refine ⟨⟨before,(skipSpace value).take 8,(skipSpace value).drop 8,?_,before_,by simpa using word,
      skipAll.mp ended⟩,if_pos ended⟩
    rw [List.append_assoc,List.take_append_drop]
    exact whole
  · exact absurd valid nofun

theorem identityTaken {value : Bytes} (r : Response) (identity : Identity value) :
    contentEncoding r (skipSpace value) = r := by
  obtain ⟨before,word,after,rfl,before_,word_,after_⟩ := identity
  have same : word.map lowerCase = (ascii "identity").map lowerCase := beq_iff_eq.mp word_
  have eight : word.length = 8 := by
    have lengths := congrArg List.length same
    rw [List.length_map] at lengths
    exact lengths
  have solid : ∀ c ∈ (word ++ after).head?, blank c = false := by
    obtain ⟨w,more,rfl⟩ := List.exists_cons_of_length_eq_add_one eight
    rintro c ⟨⟩
    by_contra here
    have here := Bool.not_eq_false _ ▸ here
    have first := (List.cons.inj same).1
    rw [lowerBlank here] at first
    subst first
    exact absurd here (by decide)
  rw [List.append_assoc,skipBlanks before_ solid,contentEncoding,List.take_left' eight,List.drop_left' eight,
    if_neg (by simp [word_]),headerEnd,if_pos (skipAll.mpr after_)]

theorem otherName {key : Bytes} {a b : String} (named : strcasecmp key (ascii a) = true)
    (different : strcasecmp (ascii a) (ascii b) = false) : strcasecmp key (ascii b) = false := by
  rw [strcasecmp,beq_iff_eq] at named
  rw [strcasecmp] at different ⊢
  rw [named,different]

theorem valuesOfNamed {name : String} {key : Bytes} (hs : Headers) (value : Bytes) (named : strcasecmp key (ascii name) = true) :
    valuesOf name (hs ++ [(key,value)]) = valuesOf name hs ++ [value] := by
  have taken : [(key,value)].filter (fun h => strcasecmp h.1 (ascii name)) = [(key,value)] := List.filter_cons_of_pos named
  rw [valuesOf,valuesOf,List.filter_append,List.map_append,taken]
  rfl

theorem valuesOfOther {name : String} {key : Bytes} (hs : Headers) (value : Bytes) (other : strcasecmp key (ascii name) = false) :
    valuesOf name (hs ++ [(key,value)]) = valuesOf name hs := by
  have skipped : [(key,value)].filter (fun h => strcasecmp h.1 (ascii name)) = [] :=
    List.filter_cons_of_neg (Bool.eq_false_iff.mp other)
  rw [valuesOf,valuesOf,List.filter_append,skipped,List.append_nil]

theorem valuesOfPart (name : String) (hs more : Headers) : ∃ values, valuesOf name (hs ++ more) = valuesOf name hs ++ values := by
  rw [valuesOf,List.filter_append,List.map_append]
  exact ⟨_,rfl⟩

/-- What a record without a flag remembers of the headers so far. -/
structure Reads (status : Int) (headers : Headers) (r : Response) : Prop where
  valid : r.invalid = false
  status : r.status = status
  lengths : r.lengths = (valuesOf "Content-Length" headers).length
  lengthOnce : r.lengths ≤ 1
  length : ∀ value ∈ valuesOf "Content-Length" headers, Amount value r.length ∧ r.length ≤ uint32Max
  ranges : r.ranges = (valuesOf "Content-Range" headers).length
  rangeOnce : r.ranges ≤ 1
  range : ∀ value ∈ valuesOf "Content-Range" headers, Range value r.first r.last r.total ∧
    r.first ≤ uint32Max ∧ r.last ≤ uint32Max ∧ r.total ≤ uint32Max
  encoding : ∀ value ∈ valuesOf "Content-Encoding" headers, Identity value
  transfer : valuesOf "Transfer-Encoding" headers = []

theorem readsInit (status : Int) : Reads status [] (.init status) :=
  ⟨rfl,rfl,rfl,Nat.zero_le _,nofun,rfl,Nat.zero_le _,nofun,nofun,rfl⟩

theorem readsLength {status : Int} {hs : Headers} {r s : Response} {key value : Bytes} (reads : Reads status hs r)
    (named : strcasecmp key (ascii "Content-Length") = true) (read : LengthRead r s value) :
    Reads status (hs ++ [(key,value)]) s := by
  obtain ⟨n,amount,fits,rfl⟩ := read.amount
  have few := reads.lengthOnce
  have first := read.first
  have zero : r.lengths = 0 := by omega
  have none_ : valuesOf "Content-Length" hs = [] := List.length_eq_zero_iff.mp (reads.lengths ▸ zero)
  have lengths := valuesOfNamed hs value named
  rw [none_,List.nil_append] at lengths
  have ranges := valuesOfOther hs value (otherName named (b := "Content-Range") (by decide))
  have encodings := valuesOfOther hs value (otherName named (b := "Content-Encoding") (by decide))
  have transfers := valuesOfOther hs value (otherName named (b := "Transfer-Encoding") (by decide))
  refine ⟨reads.valid,reads.status,by rw [lengths]; rfl,le_rfl,?_,by rw [ranges,← reads.ranges],reads.rangeOnce,?_,?_,?_⟩
  · rw [lengths]
    exact List.forall_mem_singleton.mpr ⟨amount,fits⟩
  · rw [ranges]
    exact reads.range
  · rw [encodings]
    exact reads.encoding
  · rw [transfers]
    exact reads.transfer

theorem readsRange {status : Int} {hs : Headers} {r s : Response} {key value : Bytes} (reads : Reads status hs r)
    (named : strcasecmp key (ascii "Content-Range") = true) (read : RangeRead r s value) :
    Reads status (hs ++ [(key,value)]) s := by
  obtain ⟨first,last,total,range,first_,last_,total_,rfl⟩ := read.range
  have few := reads.rangeOnce
  have once := read.first
  have zero : r.ranges = 0 := by omega
  have none_ : valuesOf "Content-Range" hs = [] := List.length_eq_zero_iff.mp (reads.ranges ▸ zero)
  have ranges := valuesOfNamed hs value named
  rw [none_,List.nil_append] at ranges
  have lengths := valuesOfOther hs value (otherName named (b := "Content-Length") (by decide))
  have encodings := valuesOfOther hs value (otherName named (b := "Content-Encoding") (by decide))
  have transfers := valuesOfOther hs value (otherName named (b := "Transfer-Encoding") (by decide))
  refine ⟨reads.valid,reads.status,by rw [lengths,← reads.lengths],reads.lengthOnce,?_,by rw [ranges]; rfl,le_rfl,?_,?_,?_⟩
  · rw [lengths]
    exact reads.length
  · rw [ranges]
    exact List.forall_mem_singleton.mpr ⟨range,first_,last_,total_⟩
  · rw [encodings]
    exact reads.encoding
  · rw [transfers]
    exact reads.transfer

theorem readsEncoding {status : Int} {hs : Headers} {r : Response} {key value : Bytes} (reads : Reads status hs r)
    (named : strcasecmp key (ascii "Content-Encoding") = true) (identity : Identity value) :
    Reads status (hs ++ [(key,value)]) r := by
  have encodings := valuesOfNamed hs value named
  have lengths := valuesOfOther hs value (otherName named (b := "Content-Length") (by decide))
  have ranges := valuesOfOther hs value (otherName named (b := "Content-Range") (by decide))
  have transfers := valuesOfOther hs value (otherName named (b := "Transfer-Encoding") (by decide))
  refine { reads with lengths := ?_, length := ?_, ranges := ?_, range := ?_, encoding := ?_, transfer := ?_ }
  · rw [lengths,← reads.lengths]
  · rw [lengths]
    exact reads.length
  · rw [ranges,← reads.ranges]
  · rw [ranges]
    exact reads.range
  · rw [encodings]
    exact fun v mem => (List.mem_append.mp mem).elim (reads.encoding v) fun last => List.mem_singleton.mp last ▸ identity
  · rw [transfers]
    exact reads.transfer

theorem readsOther {status : Int} {hs : Headers} {r : Response} {key value : Bytes} (reads : Reads status hs r)
    (length : strcasecmp key (ascii "Content-Length") = false) (range : strcasecmp key (ascii "Content-Range") = false)
    (encoding : strcasecmp key (ascii "Content-Encoding") = false)
    (transfer : strcasecmp key (ascii "Transfer-Encoding") = false) : Reads status (hs ++ [(key,value)]) r := by
  have same := valuesOfOther hs value length
  have same_ := valuesOfOther hs value range
  refine { reads with lengths := ?_, length := ?_, ranges := ?_, range := ?_, encoding := ?_, transfer := ?_ }
  · rw [same,← reads.lengths]
  · rw [same]
    exact reads.length
  · rw [same_,← reads.ranges]
  · rw [same_]
    exact reads.range
  · rw [valuesOfOther hs value encoding]
    exact reads.encoding
  · rw [valuesOfOther hs value transfer]
    exact reads.transfer

/-- The response as its headers come in; no header is without key or value. -/
def sent (status : Int) (headers : Headers) : HttpResponse := ⟨status,headers.map fun h => (some h.1,some h.2)⟩

def header (r : Response) (h : Bytes × Bytes) : Response := fwOtaHttpHeader r (some h.1) (some h.2)

theorem sentNext (status : Int) (hs : Headers) (h : Bytes × Bytes) :
    (sent status (hs ++ [h])).metadata = header (sent status hs).metadata h := by
  rw [HttpResponse.metadata,HttpResponse.metadata,sent,sent,List.map_append,List.foldl_append]
  rfl

theorem flagStays {r : Response} (h : Bytes × Bytes) (valid : (header r h).invalid = false) : r.invalid = false := by
  rw [header,fwOtaHttpHeader] at valid
  split at valid
  · exact (lengthReads valid).valid
  split at valid
  · exact (rangeReads valid).valid
  split at valid
  · rw [(identityReads valid).2] at valid
    exact valid
  split at valid
  · exact absurd valid nofun
  · exact valid

theorem readsStep {status : Int} {hs : Headers} {r : Response} (reads : Reads status hs r) (h : Bytes × Bytes)
    (valid : (header r h).invalid = false) : Reads status (hs ++ [h]) (header r h) := by
  obtain ⟨key,value⟩ := h
  rw [header,fwOtaHttpHeader] at valid ⊢
  dsimp only at valid ⊢
  by_cases length : strcasecmp key (ascii "Content-Length") = true
  · rw [if_pos length] at valid ⊢
    exact readsLength reads length (lengthReads valid)
  rw [if_neg length] at valid ⊢
  by_cases range : strcasecmp key (ascii "Content-Range") = true
  · rw [if_pos range] at valid ⊢
    exact readsRange reads range (rangeReads valid)
  rw [if_neg range] at valid ⊢
  by_cases encoding : strcasecmp key (ascii "Content-Encoding") = true
  · rw [if_pos encoding] at valid ⊢
    obtain ⟨identity,same⟩ := identityReads valid
    rw [same]
    exact readsEncoding reads encoding identity
  rw [if_neg encoding] at valid ⊢
  by_cases transfer : strcasecmp key (ascii "Transfer-Encoding") = true
  · rw [if_pos transfer] at valid
    exact absurd valid nofun
  rw [if_neg transfer]
  simp only [Bool.not_eq_true] at length range encoding transfer
  exact readsOther reads length range encoding transfer

theorem sentReads {status : Int} {hs : Headers} (valid : (sent status hs).metadata.invalid = false) :
    Reads status hs (sent status hs).metadata := by
  induction hs using List.reverseRecOn with
  | nil => exact readsInit status
  | append_singleton hs h ih =>
    rw [sentNext] at valid ⊢
    exact readsStep (ih (flagStays h valid)) h valid

/-! The other way: what such a record remembers never sets the flag. -/

/-- The part of a list of headers that can be remembered can be remembered. -/
theorem readsPart {status : Int} {hs more : Headers} {r : Response} (reads : Reads status (hs ++ more) r) :
    ∃ r, Reads status hs r := by
  obtain ⟨lengths,lengths_⟩ := valuesOfPart "Content-Length" hs more
  obtain ⟨ranges,ranges_⟩ := valuesOfPart "Content-Range" hs more
  obtain ⟨encodings,encodings_⟩ := valuesOfPart "Content-Encoding" hs more
  obtain ⟨transfers,transfers_⟩ := valuesOfPart "Transfer-Encoding" hs more
  have lengthCount := reads.lengths
  have rangeCount := reads.ranges
  have length := reads.length
  have range := reads.range
  have encoding := reads.encoding
  have transfer := reads.transfer
  have lengthOnce := reads.lengthOnce
  have rangeOnce := reads.rangeOnce
  rw [lengths_,List.length_append] at lengthCount
  rw [ranges_,List.length_append] at rangeCount
  rw [lengths_] at length
  rw [ranges_] at range
  rw [encodings_] at encoding
  rw [transfers_] at transfer
  refine ⟨{ r with lengths := (valuesOf "Content-Length" hs).length, ranges := (valuesOf "Content-Range" hs).length },
    reads.valid,reads.status,rfl,?_,?_,rfl,?_,?_,?_,(List.append_eq_nil_iff.mp transfer).1⟩
  · dsimp only
    omega
  · exact fun v mem => length v (List.mem_append_left _ mem)
  · dsimp only
    omega
  · exact fun v mem => range v (List.mem_append_left _ mem)
  · exact fun v mem => encoding v (List.mem_append_left _ mem)

theorem onceMore {values : List Bytes} {value : Bytes} {count m : Nat} (before : count = values.length)
    (after : m = (values ++ [value]).length) (few : m ≤ 1) : (count+1)%2^32 = 1 := by
  rw [List.length_append,List.length_singleton] at after
  omega

theorem stepTaken {status : Int} {hs : Headers} {h : Bytes × Bytes} {r s : Response} (reads : Reads status hs r)
    (whole : Reads status (hs ++ [h]) s) : (header r h).invalid = false := by
  obtain ⟨key,value⟩ := h
  rw [header,fwOtaHttpHeader]
  dsimp only
  by_cases length : strcasecmp key (ascii "Content-Length") = true
  · have values := valuesOfNamed hs value length
    have count := whole.lengths
    have amounts := whole.length
    rw [values] at count amounts
    obtain ⟨amount,fits⟩ := amounts value (List.mem_append_right _ List.mem_cons_self)
    rw [if_pos length,lengthTaken (onceMore reads.lengths count whole.lengthOnce) amount fits]
    exact reads.valid
  rw [if_neg length]
  by_cases range : strcasecmp key (ascii "Content-Range") = true
  · have values := valuesOfNamed hs value range
    have count := whole.ranges
    have texts := whole.range
    rw [values] at count texts
    obtain ⟨text,first,last,total⟩ := texts value (List.mem_append_right _ List.mem_cons_self)
    rw [if_pos range,rangeTaken (onceMore reads.ranges count whole.rangeOnce) text first last total]
    exact reads.valid
  rw [if_neg range]
  by_cases encoding : strcasecmp key (ascii "Content-Encoding") = true
  · have identity := whole.encoding
    rw [valuesOfNamed hs value encoding] at identity
    rw [if_pos encoding,identityTaken r (identity value (List.mem_append_right _ List.mem_cons_self))]
    exact reads.valid
  rw [if_neg encoding]
  by_cases transfer : strcasecmp key (ascii "Transfer-Encoding") = true
  · have none_ := whole.transfer
    rw [valuesOfNamed hs value transfer] at none_
    exact absurd none_ (List.append_ne_nil_of_right_ne_nil _ (List.cons_ne_nil _ _))
  rw [if_neg transfer]
  exact reads.valid

theorem readsSent {status : Int} {hs : Headers} {r : Response} (reads : Reads status hs r) :
    (sent status hs).metadata.invalid = false := by
  induction hs using List.reverseRecOn generalizing r with
  | nil => rfl
  | append_singleton hs h ih =>
    obtain ⟨part,before⟩ := readsPart reads
    rw [sentNext]
    exact stepTaken (sentReads (ih before)) reads

theorem amountUnique {value : Bytes} {a b : Nat} (ha : Amount value a) (hb : Amount value b) (a_ : a ≤ uint32Max)
    (b_ : b ≤ uint32Max) : a = b := by
  have first : ((Response.init 0).lengths+1)%2^32 = 1 := rfl
  exact congrArg Response.length ((lengthTaken first ha a_).symm.trans (lengthTaken first hb b_))

theorem rangeUnique {value : Bytes} {a b c d e f : Nat} (ha : Range value a b c) (hb : Range value d e f)
    (a_ : a ≤ uint32Max ∧ b ≤ uint32Max ∧ c ≤ uint32Max) (b_ : d ≤ uint32Max ∧ e ≤ uint32Max ∧ f ≤ uint32Max) :
    a = d ∧ b = e ∧ c = f := by
  have once : ((Response.init 0).ranges+1)%2^32 = 1 := rfl
  have same := (rangeTaken once ha a_.1 a_.2.1 a_.2.2).symm.trans (rangeTaken once hb b_.1 b_.2.1 b_.2.2)
  exact ⟨congrArg Response.first same,congrArg Response.last same,congrArg Response.total same⟩

theorem oneValue {values : List Bytes} {count : Nat} (counted : count = values.length) (one : count = 1) :
    ∃ value, values = [value] := List.length_eq_one_iff.mp (counted.symm.trans one)

theorem validAccepts {status : Int} {headers : Headers} {offset imageLen : Nat}
    (valid : fwOtaHttpResponseValid (sent status headers).metadata offset imageLen = true) :
    Accepts status headers offset imageLen := by
  rw [fwOtaHttpResponseValid] at valid
  split at valid
  · exact absurd valid nofun
  rename_i kept
  simp only [not_or,not_not,Bool.not_eq_true] at kept
  obtain ⟨flag,-,inside,one,length⟩ := kept
  have reads := sentReads flag
  obtain ⟨value,only⟩ := oneValue reads.lengths one
  have amount := reads.length
  rw [only,length] at amount
  refine ⟨Nat.not_le.mp inside,⟨value,only,(amount value List.mem_cons_self).1⟩,reads.encoding,reads.transfer,?_⟩
  split at valid
  · rename_i zero
    rw [Bool.and_eq_true,beq_iff_eq,beq_iff_eq,reads.status,reads.ranges] at valid
    exact .inl ⟨zero,valid.1,List.length_eq_zero_iff.mp valid.2⟩
  · simp only [Bool.and_eq_true,beq_iff_eq,decide_eq_true_iff] at valid
    obtain ⟨⟨⟨⟨⟨resume,partial_⟩,one⟩,first⟩,last⟩,total⟩ := valid
    obtain ⟨value,only⟩ := oneValue reads.ranges one
    have range := reads.range
    rw [only,first,last,total] at range
    exact .inr ⟨resume,reads.status.symm.trans partial_,value,only,(range value List.mem_cons_self).1⟩

theorem acceptsValid {status : Int} {headers : Headers} {offset imageLen : Nat} (small : imageLen ≤ uint32Max)
    (accepts : Accepts status headers offset imageLen) :
    fwOtaHttpResponseValid (sent status headers).metadata offset imageLen = true := by
  have inside := accepts.inside
  obtain ⟨value,only,amount⟩ := accepts.length
  have fits : imageLen-offset ≤ uint32Max := by omega
  have ranges : (valuesOf "Content-Range" headers).length ≤ 1 ∧
      ∀ value ∈ valuesOf "Content-Range" headers, Range value offset (imageLen-1) imageLen := by
    rcases accepts.range with ⟨-,-,none_⟩ | ⟨-,-,value,one,range⟩
    · rw [none_]
      exact ⟨Nat.zero_le _,nofun⟩
    · rw [one]
      exact ⟨le_rfl,List.forall_mem_singleton.mpr range⟩
  have remembered : Reads status headers
      ⟨status,false,1,(valuesOf "Content-Range" headers).length,imageLen-offset,offset,imageLen-1,imageLen⟩ := by
    refine ⟨rfl,rfl,by rw [only]; rfl,le_rfl,?_,rfl,ranges.1,?_,accepts.encoding,accepts.transfer⟩
    · rw [only]
      exact List.forall_mem_singleton.mpr ⟨amount,fits⟩
    · exact fun v mem => ⟨ranges.2 v mem,by dsimp only; omega,by dsimp only; omega,small⟩
  have flag := readsSent remembered
  have reads := sentReads flag
  have one : (sent status headers).metadata.lengths = 1 := by
    rw [reads.lengths,only]
    rfl
  have length : (sent status headers).metadata.length = imageLen-offset := by
    obtain ⟨same,bound⟩ := reads.length value (by rw [only]; exact List.mem_cons_self)
    exact amountUnique same amount bound fits
  have kept : ¬((sent status headers).metadata.invalid ∨ imageLen = 0 ∨ offset ≥ imageLen ∨
      (sent status headers).metadata.lengths ≠ 1 ∨ (sent status headers).metadata.length ≠ imageLen-offset) := by
    rw [flag,one,length]
    simp only [Bool.false_eq_true,ne_eq,not_true_eq_false,or_false,false_or]
    omega
  rw [fwOtaHttpResponseValid,if_neg kept]
  rcases accepts.range with ⟨zero,whole,none_⟩ | ⟨resume,partial_,value,oneRange,range⟩
  · rw [if_pos zero,reads.status,reads.ranges,whole,none_]
    rfl
  · obtain ⟨same,bounds⟩ := reads.range value (by rw [oneRange]; exact List.mem_cons_self)
    obtain ⟨first,last,total⟩ := rangeUnique same range bounds ⟨by omega,by omega,small⟩
    have once : (sent status headers).metadata.ranges = 1 := by
      rw [reads.ranges,oneRange]
      rfl
    have positive : offset ≠ 0 := by
      simp only [fwOtaResumeMin] at resume
      omega
    rw [if_neg positive,once,first,last,total,reads.status,partial_]
    simp [resume]

theorem valuesOfPerm (name : String) {headers other : Headers} (perm : headers.Perm other) :
    (valuesOf name headers).Perm (valuesOf name other) := (perm.filter _).map _

theorem acceptsPerm {status : Int} {headers other : Headers} {offset imageLen : Nat} (perm : headers.Perm other)
    (accepts : Accepts status headers offset imageLen) : Accepts status other offset imageLen := by
  have one {name : String} {value : Bytes} (only : valuesOf name headers = [value]) : valuesOf name other = [value] :=
    List.perm_singleton.mp (only ▸ (valuesOfPerm name perm).symm)
  have none_ {name : String} (empty : valuesOf name headers = []) : valuesOf name other = [] :=
    List.perm_nil.mp (empty ▸ (valuesOfPerm name perm).symm)
  obtain ⟨value,only,amount⟩ := accepts.length
  refine ⟨accepts.inside,⟨value,one only,amount⟩,fun v mem => ?_,none_ accepts.transfer,?_⟩
  · exact accepts.encoding v ((valuesOfPerm _ perm).mem_iff.mpr mem)
  · rcases accepts.range with ⟨zero,whole,empty⟩ | ⟨resume,partial_,value,only,range⟩
    · exact .inl ⟨zero,whole,none_ empty⟩
    · exact .inr ⟨resume,partial_,value,one only,range⟩

theorem headersAccepted (status : Int) (headers : Headers) (offset imageLen : UInt32) :
    (fwOtaHttpResponseValid (sent status headers).metadata offset.toNat imageLen.toNat = true ↔
        Accepts status headers offset.toNat imageLen.toNat) ∧
      (∀ other, headers.Perm other → fwOtaHttpResponseValid (sent status other).metadata offset.toNat imageLen.toNat =
        fwOtaHttpResponseValid (sent status headers).metadata offset.toNat imageLen.toNat) ∧
      ∀ p n rest, decimal p = some (n,rest) ↔
        ∃ digits, p = digits ++ rest ∧ Digits digits n ∧ n ≤ uint32Max ∧ ∀ c ∈ rest.head?, isDigit c = false := by
  have small : imageLen.toNat ≤ uint32Max := by
    have width := imageLen.toNat_lt
    simp only [uint32Max]
    omega
  refine ⟨⟨validAccepts,acceptsValid small⟩,fun other perm => ?_,fun _ _ _ => decimalTakes⟩
  rw [Bool.eq_iff_iff]
  constructor
  · exact fun valid => acceptsValid small (acceptsPerm perm.symm (validAccepts valid))
  · exact fun valid => acceptsValid small (acceptsPerm perm (validAccepts valid))

end Web3PiUps.FwOtaDownload
