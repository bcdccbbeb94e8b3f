import Mathlib.Data.List.TakeWhile
import Mathlib.Tactic.GCongr

/-! Numerals in text: the digits that a text starts with, the number they denote in a base, and the
bounded reader that gives up as soon as the number passes its limit. -/
namespace Web3PiUps.Numerals

universe u
variable {α : Type u} (digit : α → Option Nat) (base : Nat)

def numeric (c : α) : Bool := (digit c).isSome
def run (text : List α) : List α := text.takeWhile (numeric digit)
def rest (text : List α) : List α := text.dropWhile (numeric digit)

/-- Number so far and digits to come. -/
def valueFrom (value : Nat) (digits : List α) : Nat := digits.foldl (fun v c => v*base + (digit c).getD 0) value

def value (digits : List α) : Nat := valueFrom digit base 0 digits

def read (limit value : Nat) : List α → Option (Nat × List α)
  | [] => some (value,[])
  | c::text =>
    match digit c with
    | none => some (value,c::text)
    | some d => if limit < value*base+d then none else read limit (value*base+d) text

/-- A numeral, and its number. -/
structure Denotes (text : List α) (n : Nat) : Prop where
  some_ : text ≠ []
  digits : ∀ c ∈ text, numeric digit c = true
  value : value digit base text = n

variable {digit base}

theorem runAppendRest (text : List α) : run digit text ++ rest digit text = text := List.takeWhile_append_dropWhile

theorem runDigits (text : List α) : ∀ c ∈ run digit text, numeric digit c = true := fun _ mem => List.mem_takeWhile_imp mem

theorem restStarts (text : List α) : ∀ c ∈ (rest digit text).head?, digit c = none := by
  intro c first
  have bad := List.head?_dropWhile_not (numeric digit) text
  rw [rest,Option.mem_def] at first
  rw [first] at bad
  simpa [numeric] using bad

theorem runEnds {digits other : List α} (all : ∀ c ∈ digits, numeric digit c = true)
    (ends : ∀ c ∈ other.head?, digit c = none) : run digit (digits ++ other) = digits ∧ rest digit (digits ++ other) = other := by
  have stops : ∀ c ∈ other.head?, ¬numeric digit c = true := fun c first => by simp [numeric,ends c first]
  constructor
  · rw [run,List.takeWhile_append_of_pos all]
    cases other with
    | nil => simp
    | cons c other => rw [List.takeWhile_cons_of_neg (stops c rfl),List.append_nil]
  · rw [rest,List.dropWhile_append_of_pos all]
    cases other with
    | nil => rfl
    | cons c other => rw [List.dropWhile_cons_of_neg (stops c rfl)]

theorem valueFromLe (positive : 0 < base) (v : Nat) (digits : List α) : v ≤ valueFrom digit base v digits := by
  induction digits generalizing v with
  | nil => exact le_rfl
  | cons c digits ih =>
    have grows : v ≤ v*base + (digit c).getD 0 := (Nat.le_mul_of_pos_right v positive).trans (Nat.le_add_right _ _)
    exact grows.trans (ih _)

theorem valueFromCons {c : α} {d : Nat} (found : digit c = some d) (v : Nat) (text : List α) :
    valueFrom digit base v (run digit (c::text)) = valueFrom digit base (v*base+d) (run digit text) ∧
      rest digit (c::text) = rest digit text := by
  have goes : numeric digit c = true := by simp [numeric,found]
  constructor
  · rw [run,List.takeWhile_cons_of_pos goes,valueFrom,List.foldl_cons,found]
    rfl
  · rw [rest,List.dropWhile_cons_of_pos goes]
    rfl

theorem readValue (positive : 0 < base) {limit v : Nat} (within : v ≤ limit) (text : List α) :
    read digit base limit v text =
      if valueFrom digit base v (run digit text) ≤ limit then
        some (valueFrom digit base v (run digit text),rest digit text)
      else none := by
  induction text generalizing v with
  | nil =>
    have start : valueFrom digit base v (run digit []) = v := rfl
    rw [read,start,if_pos within]
    rfl
  | cons c text ih =>
    rw [read]
    cases found : digit c with
    | none =>
      have ends : ¬numeric digit c = true := by simp [numeric,found]
      rw [run,rest,List.takeWhile_cons_of_neg ends,List.dropWhile_cons_of_neg ends]
      exact (if_pos within).symm
    | some d =>
      have next := @valueFromCons _ _ base _ _ found v text
      rw [next.1,next.2]
      dsimp only
      split_ifs with above fits fits
      · have grows : v*base+d ≤ valueFrom digit base (v*base+d) (run digit text) := valueFromLe positive _ _
        omega
      · rfl
      · rw [ih (by omega),if_pos fits]
      · rw [ih (by omega),if_neg fits]

theorem readDenotes (positive : 0 < base) {limit n : Nat} {digits other : List α} (numeral : Denotes digit base digits n)
    (fits : n ≤ limit) (ends : ∀ c ∈ other.head?, digit c = none) :
    read digit base limit 0 (digits ++ other) = some (n,other) := by
  have parts := runEnds numeral.digits ends
  have value : valueFrom digit base 0 digits = n := numeral.value
  rw [readValue positive (Nat.zero_le _),parts.1,parts.2,value,if_pos fits]

theorem denotesRead (positive : 0 < base) {limit n : Nat} {text other : List α}
    (starts : ∃ c ∈ text.head?, numeric digit c = true)
    (taken : read digit base limit 0 text = some (n,other)) :
    ∃ digits, text = digits ++ other ∧ Denotes digit base digits n ∧ n ≤ limit ∧ ∀ c ∈ other.head?, digit c = none := by
  rw [readValue positive (Nat.zero_le _)] at taken
  split at taken
  · rename_i fits
    cases taken
    refine ⟨run digit text,(runAppendRest text).symm,⟨?_,runDigits text,rfl⟩,fits,restStarts text⟩
    obtain ⟨c,first,goes⟩ := starts
    obtain ⟨more,rfl⟩ := List.head?_eq_some_iff.mp first
    rw [run,List.takeWhile_cons_of_pos goes]
    exact List.cons_ne_nil _ _
  · exact absurd taken nofun

theorem dropBlanks {blank : α → Bool} {before text : List α} (blanks : ∀ c ∈ before, blank c = true)
    (solid : ∀ c ∈ text.head?, blank c = false) : (before ++ text).dropWhile blank = text := by
  rw [List.dropWhile_append_of_pos blanks]
  cases text with
  | nil => rfl
  | cons c text => exact List.dropWhile_cons_of_neg (by simp [solid c rfl])

theorem blanksDrop (blank : α → Bool) (text : List α) :
    ∃ before, text = before ++ text.dropWhile blank ∧ (∀ c ∈ before, blank c = true) ∧
      ∀ c ∈ (text.dropWhile blank).head?, blank c = false := by
  refine ⟨text.takeWhile blank,List.takeWhile_append_dropWhile.symm,fun _ mem => List.mem_takeWhile_imp mem,?_⟩
  intro c first
  have other := List.head?_dropWhile_not blank text
  rw [Option.mem_def.mp first] at other
  simpa using other

end Web3PiUps.Numerals
