import Mathlib.Data.List.Basic
import Web3PiUps.Lib.JsonText

/-! The quotes and brackets of a JSON text, read byte by byte; a NUL stands in none. No end of the
text of an object, short of the whole, is the text of an object. -/
namespace Web3PiUps.JsonText

inductive Mode where | code | text | escaped deriving DecidableEq, Repr

structure Place where
  mode : Mode
  depth : Nat
  deriving DecidableEq, Repr

/-- What may follow a backslash. -/
def escapes : List UInt8 := [0x22,0x5C,0x2F,0x62,0x66,0x6E,0x72,0x74,0x75]

def scanStep (p : Place) (b : UInt8) : Option Place :=
  if b = 0 then none
  else match p.mode with
  | .code =>
    if b = 0x22 then some ⟨.text,p.depth⟩
    else if b = 0x5C then none
    else if b = 0x7B ∨ b = 0x5B then some ⟨.code,p.depth+1⟩
    else if b = 0x7D ∨ b = 0x5D then if p.depth = 0 then none else some ⟨.code,p.depth-1⟩
    else some p
  | .text => if b = 0x22 then some ⟨.code,p.depth⟩ else if b = 0x5C then some ⟨.escaped,p.depth⟩ else some p
  | .escaped => if escapes.contains b then some ⟨.text,p.depth⟩ else none

def scan (p : Place) : List UInt8 → Option Place
  | [] => some p
  | b :: rest => (scanStep p b).bind (scan · rest)

theorem scanAppend {p : Place} {a b : List UInt8} : scan p (a ++ b) = (scan p a).bind (scan · b) := by
  induction a generalizing p with
  | nil => rfl
  | cons x a ih =>
    rw [List.cons_append,scan,scan]
    cases scanStep p x with
    | none => rfl
    | some q => exact ih

theorem scanNonzero {p q : Place} {t : List UInt8} (read : scan p t = some q) : 0 ∉ t := by
  induction t generalizing p with
  | nil => exact List.not_mem_nil
  | cons b t ih =>
    obtain ⟨next,step,rest⟩ := Option.bind_eq_some_iff.mp read
    have here : b ≠ 0 := by
      rintro rfl
      cases step
    exact List.not_mem_cons_of_ne_of_not_mem here.symm (ih rest)

theorem stepDeeper {p q : Place} {b : UInt8} (k : Nat) (step : scanStep p b = some q) :
    scanStep ⟨p.mode,p.depth+k⟩ b = some ⟨q.mode,q.depth+k⟩ := by
  obtain ⟨mode,depth⟩ := p
  rw [scanStep] at step ⊢
  by_cases zero : b = 0
  · rw [if_pos zero] at step
    cases step
  rw [if_neg zero] at step ⊢
  cases mode with
  | code =>
    dsimp only at step ⊢
    by_cases quote_ : b = 0x22
    · rw [if_pos quote_] at step ⊢
      cases step
      rfl
    by_cases backslash : b = 0x5C
    · rw [if_neg quote_,if_pos backslash] at step
      cases step
    rw [if_neg quote_,if_neg backslash] at step ⊢
    by_cases in_ : b = 0x7B ∨ b = 0x5B
    · rw [if_pos in_] at step ⊢
      cases step
      rw [Nat.add_right_comm]
    rw [if_neg in_] at step ⊢
    by_cases out : b = 0x7D ∨ b = 0x5D
    · rw [if_pos out] at step ⊢
      split at step
      · cases step
      · rename_i open_
        cases step
        rw [if_neg (by omega),Nat.sub_add_comm (by omega)]
    · rw [if_neg out] at step ⊢
      cases step
      rfl
  | text =>
    dsimp only at step ⊢
    by_cases quote_ : b = 0x22
    · rw [if_pos quote_] at step ⊢
      cases step
      rfl
    rw [if_neg quote_] at step ⊢
    by_cases backslash : b = 0x5C
    · rw [if_pos backslash] at step ⊢
      cases step
      rfl
    · rw [if_neg backslash] at step ⊢
      cases step
      rfl
  | escaped =>
    dsimp only at step ⊢
    split at step
    · rename_i named
      rw [if_pos named]
      cases step
      rfl
    · cases step

theorem scanDeeper {p q : Place} {t : List UInt8} (k : Nat) (read : scan p t = some q) :
    scan ⟨p.mode,p.depth+k⟩ t = some ⟨q.mode,q.depth+k⟩ := by
  induction t generalizing p with
  | nil =>
    cases read
    rfl
  | cons b t ih =>
    rw [scan] at read ⊢
    obtain ⟨next,step,rest⟩ := Option.bind_eq_some_iff.mp read
    rw [stepDeeper k step]
    exact ih rest

/-- Two readers, one in a string where the other is not. -/
def Opposed (p q : Place) : Prop := p.mode = .text ∧ q.mode = .code ∨ p.mode = .code ∧ q.mode = .text

theorem stepOpposed {p q p' q' : Place} {b : UInt8} (apart : Opposed p q) (left : scanStep p b = some p')
    (right : scanStep q b = some q') : Opposed p' q' := by
  have side {x y x' y' : Place} (text : x.mode = .text) (code : y.mode = .code) (one : scanStep x b = some x')
      (two : scanStep y b = some y') : x'.mode = .text ∧ y'.mode = .code ∨ x'.mode = .code ∧ y'.mode = .text := by
    have zero : b ≠ 0 := by
      rintro rfl
      cases one
    rw [scanStep,if_neg zero,text] at one
    rw [scanStep,if_neg zero,code] at two
    dsimp only at one two
    split at one
    · rename_i quote_
      rw [if_pos quote_] at two
      cases one
      cases two
      exact .inr ⟨rfl,rfl⟩
    · rename_i plain
      rw [if_neg plain] at two
      split at one
      · rename_i backslash
        rw [if_pos backslash] at two
        cases two
      · rename_i simple
        rw [if_neg simple] at two
        cases one
        refine .inl ⟨text,?_⟩
        split at two
        · cases two
          rfl
        split at two
        · split at two
          · cases two
          · cases two
            rfl
        · cases two
          exact code
  rcases apart with ⟨text,code⟩ | ⟨code,text⟩
  · exact side text code left right
  · exact (side text code right left).symm.imp And.symm And.symm

theorem scanOpposed {p q p' q' : Place} {t : List UInt8} (apart : Opposed p q) (left : scan p t = some p')
    (right : scan q t = some q') : Opposed p' q' := by
  induction t generalizing p q with
  | nil =>
    cases left
    cases right
    exact apart
  | cons b t ih =>
    obtain ⟨_,stepL,restL⟩ := Option.bind_eq_some_iff.mp left
    obtain ⟨_,stepR,restR⟩ := Option.bind_eq_some_iff.mp right
    exact ih (stepOpposed apart stepL stepR) restL restR

/-- The blanks of the grammar and the bytes of a byte-order mark. -/
def blanks : List UInt8 := [0x20,0x09,0x0A,0x0D,0xEF,0xBB,0xBF]

/-- What the grammar demands of the text of an object, blanks around it allowed. -/
structure ObjectText (t : List UInt8) : Prop where
  opens : ∃ blank rest, t = blank ++ 0x7B :: rest ∧ ∀ b ∈ blank, b ∈ blanks
  closes : scan ⟨.code,0⟩ t = some ⟨.code,0⟩

/-- The text of an object from its first brace to its last. -/
def Braced (t : List UInt8) : Prop := ∃ inner, t = 0x7B :: inner ++ [0x7D] ∧ scan ⟨.code,0⟩ inner = some ⟨.code,0⟩

theorem bracedScan {t : List UInt8} (braced : Braced t) : scan ⟨.code,0⟩ t = some ⟨.code,0⟩ := by
  obtain ⟨inner,rfl,read⟩ := braced
  rw [List.cons_append,scan,scanStep]
  have deeper : scan ⟨.code,0+1⟩ inner = some ⟨.code,0+1⟩ := scanDeeper 1 read
  show scan ⟨.code,0+1⟩ (inner ++ [0x7D]) = _
  rw [scanAppend,deeper]
  rfl

/-- A reader inside the text of an object is in a string or in a bracket. -/
theorem bracedInside {pre suf : List UInt8} (braced : Braced (pre ++ suf)) (begun : pre ≠ []) (left : suf ≠ []) :
    ∃ mode depth, scan ⟨.code,0⟩ pre = some ⟨mode,depth+1⟩ := by
  obtain ⟨inner,same,read⟩ := braced
  cases pre with
  | nil => exact absurd rfl begun
  | cons b pre =>
    rw [List.cons_append,List.cons_append,List.cons.injEq] at same
    obtain ⟨rfl,same⟩ := same
    have whole : ∃ more, inner = pre ++ more := by
      have last := suf.dropLast_append_getLast left
      rw [← last,← List.append_assoc] at same
      exact ⟨suf.dropLast,(List.append_inj' same rfl).1.symm⟩
    obtain ⟨more,rfl⟩ := whole
    rw [scanAppend] at read
    obtain ⟨⟨mode,depth⟩,here,-⟩ := Option.bind_eq_some_iff.mp read
    exact ⟨mode,depth,scanDeeper 1 here⟩

theorem noObjectWithin {pre suf : List UInt8} (braced : Braced (pre ++ suf)) (begun : pre ≠ []) : ¬ObjectText suf := by
  intro object
  obtain ⟨blank,rest,starts,areBlank⟩ := object.opens
  have left : suf ≠ [] := by
    rw [starts]
    exact List.append_ne_nil_of_right_ne_nil _ (List.cons_ne_nil _ _)
  obtain ⟨mode,depth,here⟩ := bracedInside braced begun left
  have whole := bracedScan braced
  rw [scanAppend,here,Option.bind_some] at whole
  cases mode with
  | code =>
    have deeper := scanDeeper (depth+1) object.closes
    rw [Nat.zero_add] at deeper
    rw [deeper] at whole
    cases whole
  | text =>
    have apart := scanOpposed (.inl ⟨rfl,rfl⟩) whole object.closes
    rcases apart with ⟨text,-⟩ | ⟨-,text⟩ <;> cases text
  | escaped =>
    have first : ∃ b more, suf = b :: more ∧ (b ∈ blanks ∨ b = 0x7B) := by
      cases blank with
      | nil => exact ⟨_,_,starts,.inr rfl⟩
      | cons b blank => exact ⟨_,_,starts,.inl (areBlank b List.mem_cons_self)⟩
    obtain ⟨b,more,rfl,which⟩ := first
    have foreign : escapes.contains b = false := by
      rcases which with there | rfl
      · simp only [blanks,List.mem_cons,List.not_mem_nil,or_false] at there
        obtain rfl | rfl | rfl | rfl | rfl | rfl | rfl := there <;> rfl
      · rfl
    have nonzero : b ≠ 0 := by
      rintro rfl
      cases whole
    rw [scan,scanStep,if_neg nonzero] at whole
    dsimp only at whole
    rw [foreign] at whole
    cases whole

/-! The text of `print`. -/

def brackets : List UInt8 := [0,0x22,0x5C,0x7B,0x7D,0x5B,0x5D]

theorem plainScan {p : Place} {t : List UInt8} (code : p.mode = .code) (plain : ∀ b ∈ t, b ∉ brackets) : scan p t = some p := by
  induction t with
  | nil => rfl
  | cons b t ih =>
    have here := plain b List.mem_cons_self
    simp only [brackets,List.mem_cons,List.not_mem_nil,or_false,not_or] at here
    have same : scanStep p b = some p := by
      rw [scanStep,if_neg here.1,code]
      dsimp only
      rw [if_neg here.2.1,if_neg here.2.2.1,if_neg (by tauto),if_neg (by tauto)]
    rw [scan,same]
    exact ih fun x there => plain x (List.mem_cons_of_mem _ there)

theorem hexPlain (b : UInt8) :
    (hexDigit (b >>> 4) ≠ 0 ∧ hexDigit (b >>> 4) ≠ 0x22 ∧ hexDigit (b >>> 4) ≠ 0x5C) ∧
      hexDigit (b &&& 0x0F) ≠ 0 ∧ hexDigit (b &&& 0x0F) ≠ 0x22 ∧ hexDigit (b &&& 0x0F) ≠ 0x5C := by
  have all : ∀ n < 256, let b := UInt8.ofNat n
      (hexDigit (b >>> 4) ≠ 0 ∧ hexDigit (b >>> 4) ≠ 0x22 ∧ hexDigit (b >>> 4) ≠ 0x5C) ∧
        hexDigit (b &&& 0x0F) ≠ 0 ∧ hexDigit (b &&& 0x0F) ≠ 0x22 ∧ hexDigit (b &&& 0x0F) ≠ 0x5C := by decide +kernel
  have here := all b.toNat (UInt8.toNat_lt b)
  rwa [UInt8.ofNat_toNat] at here

theorem escapeScan (b : UInt8) (d : Nat) : scan ⟨.text,d⟩ (escape b) = some ⟨.text,d⟩ := by
  rw [escape]
  split
  · rename_i own
    rcases own with rfl | rfl <;> rfl
  rename_i own
  rw [not_or] at own
  split
  · rfl
  split
  · rfl
  split
  · rfl
  split
  · rfl
  split
  · rfl
  split
  · obtain ⟨high,low⟩ := hexPlain b
    simp only [scan,scanStep,if_neg high.1,if_neg high.2.1,if_neg high.2.2,if_neg low.1,if_neg low.2.1,if_neg low.2.2]
    rfl
  · rename_i printable
    have nonzero : b ≠ 0 := by
      rintro rfl
      exact printable (by decide)
    rw [scan,scanStep,if_neg nonzero]
    dsimp only
    rw [if_neg own.1,if_neg own.2]
    rfl

theorem quoteScan (text : List UInt8) (d : Nat) : scan ⟨.code,d⟩ (quote text) = some ⟨.code,d⟩ := by
  have body : scan ⟨.text,d⟩ (text.flatMap escape) = some ⟨.text,d⟩ := by
    induction text with
    | nil => rfl
    | cons b text ih => rw [List.flatMap_cons,scanAppend,escapeScan,Option.bind_some,ih]
  rw [quote,List.cons_append,scan]
  show scan ⟨.text,d⟩ _ = _
  rw [scanAppend,body]
  rfl

variable {number : Int → List UInt8}

def Bare (number : Int → List UInt8) : Prop := ∀ n, ∀ b ∈ number n, b ∉ brackets

theorem bracketScan {open_ close : UInt8} (pair : open_ = 0x7B ∧ close = 0x7D ∨ open_ = 0x5B ∧ close = 0x5D) {inner : List UInt8}
    {d : Nat} (read : scan ⟨.code,d+1⟩ inner = some ⟨.code,d+1⟩) :
    scan ⟨.code,d⟩ (open_ :: inner ++ [close]) = some ⟨.code,d⟩ := by
  have in_ : scanStep ⟨.code,d⟩ open_ = some ⟨.code,d+1⟩ := by
    rcases pair with ⟨rfl,-⟩ | ⟨rfl,-⟩ <;> rfl
  have out : scanStep ⟨.code,d+1⟩ close = some ⟨.code,d⟩ := by
    rcases pair with ⟨-,rfl⟩ | ⟨-,rfl⟩ <;> rfl
  rw [List.cons_append,scan,in_,Option.bind_some,scanAppend,read,Option.bind_some,scan,out]
  rfl

theorem colonScan {key value : List UInt8} {d : Nat} (first : scan ⟨.code,d⟩ key = some ⟨.code,d⟩) :
    scan ⟨.code,d⟩ (key ++ 0x3A :: value) = scan ⟨.code,d⟩ value := by
  rw [scanAppend,first]
  rfl

theorem commaScan {item rest : List UInt8} {d : Nat} (first : scan ⟨.code,d⟩ item = some ⟨.code,d⟩) :
    scan ⟨.code,d⟩ (item ++ 0x2C :: rest) = scan ⟨.code,d⟩ rest := by
  rw [scanAppend,first]
  rfl

mutual

theorem printScan (bare : Bare number) : ∀ (j : Json) (d : Nat), scan ⟨.code,d⟩ (print number j) = some ⟨.code,d⟩
  | .null,d => by
    rw [print]
    rfl
  | .number value,d => by
    rw [print]
    exact plainScan rfl (bare value)
  | .string text,d => by
    rw [print]
    exact quoteScan text d
  | .array items,d => by
    rw [print]
    exact bracketScan (.inr ⟨rfl,rfl⟩) (itemsScan bare items (d+1))
  | .object fields,d => by
    rw [print]
    exact bracketScan (.inl ⟨rfl,rfl⟩) (fieldsScan bare fields (d+1))

theorem itemsScan (bare : Bare number) :
    ∀ (items : List Json) (d : Nat), scan ⟨.code,d⟩ (printItems number items) = some ⟨.code,d⟩
  | [],_ => rfl
  | [item],d => by
    rw [printItems]
    exact printScan bare item d
  | item :: next :: rest,d => by
    rw [printItems,commaScan (printScan bare item d)]
    exact itemsScan bare (next :: rest) d

theorem fieldsScan (bare : Bare number) :
    ∀ (fields : List (List UInt8 × Json)) (d : Nat), scan ⟨.code,d⟩ (printFields number fields) = some ⟨.code,d⟩
  | [],_ => rfl
  | [(key,value)],d => by
    rw [printFields,colonScan (quoteScan key d)]
    exact printScan bare value d
  | (key,value) :: next :: rest,d => by
    rw [printFields,List.append_assoc,List.cons_append,colonScan (quoteScan key d),commaScan (printScan bare value d)]
    exact fieldsScan bare (next :: rest) d

end

theorem printBraced (bare : Bare number) (fields : List (List UInt8 × Json)) : Braced (print number (.object fields)) :=
  ⟨printFields number fields,by rw [print],fieldsScan bare fields 0⟩

end Web3PiUps.JsonText
