import Web3PiUps.ArkivEntity
import Web3PiUps.Lib.Numerals

/-! `parse_result_wei` of `arkiv_rpc.c`: a balance of at most 64 bits from a JSON-RPC result. -/
namespace Web3PiUps.ArkivBalance
open WupsProtocol ArkivEntity

abbrev uint64Max : Nat := 2^64-1

inductive EspErr where
  | ok
  | fail
  | invalidSize
  deriving DecidableEq, Repr

/-- The digits from `h` on, with `v` before them, and what `v` is in the end. -/
def weiDigits (v : Nat) : Bytes → EspErr × Nat
  | [] => (.ok,v)
  | h::text =>
    match hexnib h with
    | none => (.fail,v)
    | some nib => if v > uint64Max >>> 4 then (.invalidSize,v) else weiDigits ((v <<< 4) ||| nib.toNat) text

/-- The return code and what is written to `out`; `none` for `root` is a text that does not parse. -/
def parseResultWei (root : Option Json) : EspErr × Option Nat :=
  match valueString (getObjectItem root (ascii "result")) with
  | none => (.fail,none)
  | some h =>
    let h := (skipHexMark h).dropWhile (fun c => c = 0x30)
    let (rc,v) := weiDigits 0 h
    (rc,if rc = .ok then some v else none)

def nibble (c : UInt8) : Option Nat := (hexnib c).map UInt8.toNat

def weiValue (digits : Bytes) : Nat := Numerals.value nibble 16 digits

theorem nibbleBelow {c : UInt8} {d : Nat} (found : nibble c = some d) : d < 16 := by
  obtain ⟨nib,read,rfl⟩ := Option.map_eq_some_iff.mp found
  have letter : ∀ first last : UInt8, first ≤ c → c ≤ last → last.toNat < first.toNat+6 → (c-first+10).toNat < 16 := by
    intro first last above below width
    have top := UInt8.le_iff_toNat_le.mp below
    rw [UInt8.toNat_add,UInt8.toNat_sub_of_le _ _ above]
    have ten : (10 : UInt8).toNat = 10 := rfl
    omega
  unfold hexnib at read
  split at read
  · rename_i between
    cases read
    have top := UInt8.le_iff_toNat_le.mp between.2
    have nine : (0x39 : UInt8).toNat = 0x39 := rfl
    have zero : (0x30 : UInt8).toNat = 0x30 := rfl
    rw [UInt8.toNat_sub_of_le _ _ between.1]
    omega
  · split at read
    · rename_i between
      cases read
      exact letter _ _ between.1 between.2 (by decide)
    · split at read
      · rename_i between
        cases read
        exact letter _ _ between.1 between.2 (by decide)
      · exact absurd read nofun

theorem weiDigitsValue {v : Nat} (fits : v < 2^64) (text : Bytes) :
    let wei := Numerals.valueFrom nibble 16 v (Numerals.run nibble text)
    (weiDigits v text).1 =
        (if 2^64 ≤ wei then .invalidSize else if Numerals.rest nibble text = [] then .ok else .fail) ∧
      ((weiDigits v text).1 = .ok → (weiDigits v text).2 = wei) := by
  induction text generalizing v with
  | nil =>
    have start : Numerals.valueFrom nibble 16 v (Numerals.run nibble []) = v := rfl
    dsimp only
    rw [start,if_neg (by omega)]
    exact ⟨rfl,fun _ => rfl⟩
  | cons h text ih =>
    cases found : hexnib h with
    | none =>
      have none_ : nibble h = none := by rw [nibble,found]; rfl
      have ends := @Numerals.runEnds _ nibble [] (h::text) nofun (by simpa using none_)
      rw [List.nil_append] at ends
      have start : Numerals.valueFrom nibble 16 v [] = v := rfl
      dsimp only
      rw [ends.1,ends.2,start,if_neg (by omega),if_neg (List.cons_ne_nil _ _),weiDigits,found]
      exact ⟨rfl,nofun⟩
    | some nib =>
      have here : nibble h = some nib.toNat := by rw [nibble,found]; rfl
      have small := nibbleBelow here
      have next := @Numerals.valueFromCons _ _ 16 _ _ here v text
      have shift : uint64Max >>> 4 = 2^60-1 := rfl
      dsimp only
      rw [next.1,next.2,weiDigits,found]
      dsimp only
      by_cases above : v > uint64Max >>> 4
      · have grows := @Numerals.valueFromLe _ nibble 16 (by decide) (v*16+nib.toNat) (Numerals.run nibble text)
        rw [if_pos above,if_pos (by omega)]
        exact ⟨rfl,nofun⟩
      · have joined : (v <<< 4) ||| nib.toNat = v*16+nib.toNat := by
          rw [← Nat.shiftLeft_add_eq_or_of_lt small,Nat.shiftLeft_eq]
        rw [if_neg above,joined]
        exact ih (by omega)

theorem weiDigitsZeros (text : Bytes) : weiDigits 0 (text.dropWhile (fun c => c = 0x30)) = weiDigits 0 text := by
  induction text with
  | nil => rfl
  | cons c text ih =>
    by_cases zero : c = 0x30
    · subst zero
      rw [List.dropWhile_cons_of_pos (by decide),ih]
      rfl
    · rw [List.dropWhile_cons_of_neg (by simpa using zero)]

def marks : List Bytes := [ascii "0x",ascii "0X"]

/-- The result string is its mark, if it has one, the longest run of hex digits behind it and what is left. -/
structure Reads (text mark digits left : Bytes) : Prop where
  split : text = mark ++ digits ++ left
  mark : mark ∈ marks ∨ (mark = [] ∧ ∀ m ∈ marks, ¬m.IsPrefix text)
  digits : ∀ c ∈ digits, (hexnib c).isSome = true
  ends : ∀ c ∈ left.head?, hexnib c = none

/-- What is answered for a result string. -/
structure Exact (text : Bytes) (answer : EspErr × Option Nat) : Prop where
  ok : ∀ v, answer = (.ok,some v) ↔ ∃ mark digits, Reads text mark digits [] ∧ weiValue digits = v ∧ v < 2^64
  invalidSize : answer.1 = .invalidSize ↔ ∃ mark digits left, Reads text mark digits left ∧ 2^64 ≤ weiValue digits
  fail : answer.1 = .fail ↔ ∃ mark digits left, Reads text mark digits left ∧ weiValue digits < 2^64 ∧ left ≠ []
  written : answer.2.isSome = true ↔ answer.1 = .ok

theorem skipUnmarked {text : Bytes} (unmarked : ∀ m ∈ marks, ¬m.IsPrefix text) : skipHexMark text = text := by
  unfold skipHexMark
  split
  · rename_i x rest
    refine if_neg fun mark => ?_
    rcases mark with rfl | rfl
    · exact unmarked (ascii "0x") (by decide) ⟨rest,rfl⟩
    · exact unmarked (ascii "0X") (by decide) ⟨rest,rfl⟩
  · rfl

theorem skipMarked {mark : Bytes} (mem : mark ∈ marks) (text : Bytes) : skipHexMark (mark ++ text) = text := by
  rcases List.mem_cons.mp mem with rfl | mem
  · rfl
  · rcases List.mem_cons.mp mem with rfl | mem
    · rfl
    · exact absurd mem List.not_mem_nil

theorem numericNibble (c : UInt8) : Numerals.numeric nibble c = (hexnib c).isSome := Option.isSome_map

theorem readsOnly {text mark digits left : Bytes} (reads : Reads text mark digits left) :
    digits = Numerals.run nibble (skipHexMark text) ∧ left = Numerals.rest nibble (skipHexMark text) := by
  have skipped : skipHexMark text = digits ++ left := by
    rcases reads.mark with mem | ⟨rfl,unmarked⟩
    · rw [reads.split,List.append_assoc,skipMarked mem]
    · rw [skipUnmarked unmarked,reads.split,List.nil_append]
  have ends := @Numerals.runEnds _ nibble digits left
    (fun c mem => (numericNibble c).trans (reads.digits c mem))
    (fun c first => by rw [nibble,reads.ends c first]; rfl)
  rw [skipped]
  exact ⟨ends.1.symm,ends.2.symm⟩

theorem readsAll (text : Bytes) :
    ∃ mark, Reads text mark (Numerals.run nibble (skipHexMark text)) (Numerals.rest nibble (skipHexMark text)) := by
  have digits : ∀ c ∈ Numerals.run nibble (skipHexMark text), (hexnib c).isSome = true := fun c mem =>
    (numericNibble c).symm.trans (Numerals.runDigits _ c mem)
  have ends : ∀ c ∈ (Numerals.rest nibble (skipHexMark text)).head?, hexnib c = none := fun c first =>
    Option.map_eq_none_iff.mp (Numerals.restStarts _ c first)
  by_cases marked : ∃ m ∈ marks, m.IsPrefix text
  · obtain ⟨m,mem,rest,same⟩ := marked
    refine ⟨m,?_,Or.inl mem,digits,ends⟩
    rw [List.append_assoc,Numerals.runAppendRest,← same,skipMarked mem]
  · have unmarked : ∀ m ∈ marks, ¬m.IsPrefix text := fun m mem starts => marked ⟨m,mem,starts⟩
    refine ⟨[],?_,Or.inr ⟨rfl,unmarked⟩,digits,ends⟩
    rw [List.append_assoc,Numerals.runAppendRest,skipUnmarked unmarked,List.nil_append]

theorem answerExact (text : Bytes) :
    Exact text (let read := weiDigits 0 ((skipHexMark text).dropWhile (fun c => c = 0x30))
      (read.1,if read.1 = .ok then some read.2 else none)) := by
  obtain ⟨mark,reads⟩ := readsAll text
  obtain ⟨code,total⟩ := weiDigitsValue (v := 0) (by decide) (skipHexMark text)
  have only {mark' digits' left' : Bytes} (other : Reads text mark' digits' left') :
      weiValue digits' = weiValue (Numerals.run nibble (skipHexMark text)) ∧ left' = Numerals.rest nibble (skipHexMark text) :=
    ⟨congrArg weiValue (readsOnly other).1,(readsOnly other).2⟩
  rw [weiDigitsZeros]
  change _ = (if 2^64 ≤ weiValue (Numerals.run nibble (skipHexMark text)) then _ else _) at code
  change _ → _ = weiValue (Numerals.run nibble (skipHexMark text)) at total
  generalize Numerals.run nibble (skipHexMark text) = digits at *
  generalize Numerals.rest nibble (skipHexMark text) = left at *
  generalize weiDigits 0 (skipHexMark text) = read at *
  obtain ⟨rc,v⟩ := read
  dsimp only at code total ⊢
  by_cases large : 2^64 ≤ weiValue digits
  · rw [if_pos large] at code
    subst code
    refine ⟨fun v => ⟨nofun,fun ⟨_,_,other,same,fits⟩ => ?_⟩,⟨fun _ => ⟨_,_,_,reads,large⟩,fun _ => rfl⟩,
      ⟨nofun,fun ⟨_,_,_,other,fits,_⟩ => ?_⟩,⟨nofun,nofun⟩⟩
    · rw [(only other).1] at same
      omega
    · rw [(only other).1] at fits
      omega
  rw [if_neg large] at code
  by_cases ended : left = []
  · subst ended
    rw [if_pos rfl] at code
    subst code
    rw [total rfl]
    refine ⟨fun w => ⟨fun same => ?_,fun ⟨_,_,other,same,_⟩ => ?_⟩,⟨nofun,fun ⟨_,_,_,other,big⟩ => ?_⟩,
      ⟨nofun,fun ⟨_,_,_,other,_,some_⟩ => ?_⟩,⟨fun _ => rfl,fun _ => rfl⟩⟩
    · cases same
      exact ⟨_,_,reads,rfl,Nat.not_le.mp large⟩
    · rw [if_pos rfl,← same,(only other).1]
    · rw [(only other).1] at big
      exact absurd big large
    · exact absurd (only other).2 some_
  · rw [if_neg ended] at code
    subst code
    refine ⟨fun v => ⟨nofun,fun ⟨_,_,other,_,_⟩ => ?_⟩,⟨nofun,fun ⟨_,_,_,other,big⟩ => ?_⟩,
      ⟨fun _ => ⟨_,_,_,reads,Nat.not_le.mp large,ended⟩,fun _ => rfl⟩,⟨nofun,nofun⟩⟩
    · exact absurd (only other).2.symm ended
    · rw [(only other).1] at big
      exact absurd big large

/-- The result of a response; one that is no string is refused. -/
theorem balanceExact (root : Option Json) :
    match valueString (getObjectItem root (ascii "result")) with
    | none => parseResultWei root = (.fail,none)
    | some text => Exact text (parseResultWei root) := by
  unfold parseResultWei
  split
  · rfl
  · exact answerExact _

end Web3PiUps.ArkivBalance
