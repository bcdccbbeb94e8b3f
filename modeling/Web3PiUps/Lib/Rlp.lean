import Mathlib.Data.Nat.Digits.Lemmas

/-! Recursive length prefixes: trees of byte strings, their one encoding, and the
strict decoder, which takes no other. -/
namespace Web3PiUps.Rlp

def beValue (b : List UInt8) : Nat := Nat.ofDigits 256 (b.reverse.map UInt8.toNat)

def beBytes (n : Nat) : List UInt8 := ((Nat.digits 256 n).map UInt8.ofNat).reverse

/-- No byte in front could be left out. -/
def Minimal (b : List UInt8) : Prop := b.head? ≠ some 0
instance (b) : Decidable (Minimal b) := by unfold Minimal; infer_instance

inductive Item where
  | bytes (b : List UInt8)
  | list (items : List Item)

/-- A byte that stands for itself. -/
def small : List UInt8 → Bool
  | [b] => b < 0x80
  | _ => false

def encodeLength (shortBase longBase : UInt8) (n : Nat) : List UInt8 :=
  if n < 56 then [shortBase + UInt8.ofNat n]
  else (longBase + UInt8.ofNat (beBytes n).length) :: beBytes n

def encodeString (b : List UInt8) : List UInt8 :=
  if small b then b else encodeLength 0x80 0xb7 b.length ++ b

def encodeList (payload : List UInt8) : List UInt8 := encodeLength 0xc0 0xf7 payload.length ++ payload

mutual
def encode : Item → List UInt8
  | .bytes b => encodeString b
  | .list items => encodeList (encodeAll items)
def encodeAll : List Item → List UInt8
  | [] => []
  | item::items => encode item ++ encodeAll items
end

def takeExact (n : Nat) (bs : List UInt8) : Option (List UInt8 × List UInt8) :=
  if n ≤ bs.length then some (bs.take n,bs.drop n) else none

/-- A length of `k` bytes, none of which is too many. -/
def longLength (k : Nat) (bs : List UInt8) : Option (Nat × List UInt8) := do
  let (be,rest) ← takeExact k bs
  if ¬Minimal be then none
  else if beValue be < 56 then none
  else some (beValue be,rest)

inductive Head where
  | string (b : List UInt8)
  | list (payload : List UInt8)

def readHead : List UInt8 → Option (Head × List UInt8)
  | [] => none
  | b::bs =>
    if b.toNat < 0x80 then some (.string [b],bs)
    else if b.toNat ≤ 0xb7 then do
      let (data,rest) ← takeExact (b.toNat-0x80) bs
      if small data then none else some (.string data,rest)
    else if b.toNat ≤ 0xbf then do
      let (n,rest) ← longLength (b.toNat-0xb7) bs
      let (data,rest) ← takeExact n rest
      some (.string data,rest)
    else if b.toNat ≤ 0xf7 then do
      let (payload,rest) ← takeExact (b.toNat-0xc0) bs
      some (.list payload,rest)
    else do
      let (n,rest) ← longLength (b.toNat-0xf7) bs
      let (payload,rest) ← takeExact n rest
      some (.list payload,rest)

def decodeAll : Nat → List UInt8 → Option (List Item)
  | _, [] => some []
  | 0, _::_ => none
  | fuel+1, b::bs => do
    let (head,rest) ← readHead (b::bs)
    let item ← match head with
      | .string data => some (Item.bytes data)
      | .list payload => (decodeAll fuel payload).map Item.list
    let items ← decodeAll fuel rest
    some (item::items)

/-- One item and nothing after it. Every head takes a byte, so the fuel is not seen. -/
def decode (bs : List UInt8) : Option Item :=
  match decodeAll bs.length bs with
  | some [item] => some item
  | _ => none

theorem digitsKept (n : Nat) : ((Nat.digits 256 n).map UInt8.ofNat).map UInt8.toNat = Nat.digits 256 n := by
  rw [List.map_map]
  conv_rhs => rw [← List.map_id (Nat.digits 256 n)]
  apply List.map_congr_left
  intro d member
  exact UInt8.toNat_ofNat_of_lt' (Nat.digits_lt_base (by decide) member)

theorem bytesKept (b : List UInt8) : (b.map UInt8.toNat).map UInt8.ofNat = b := by
  simp [List.map_map,Function.comp_def]

theorem valueBytes (n : Nat) : beValue (beBytes n) = n := by
  rw [beValue,beBytes,List.reverse_reverse,digitsKept,Nat.ofDigits_digits]

theorem bytesNil {n : Nat} : beBytes n = [] ↔ n = 0 := by
  simp [beBytes,Nat.digits_eq_nil_iff_eq_zero]

theorem bytesMinimal (n : Nat) : Minimal (beBytes n) := by
  intro zero
  have nonempty : Nat.digits 256 n ≠ [] := by
    intro none
    simp [beBytes,none] at zero
  have last := Nat.getLast_digit_ne_zero 256 (Nat.digits_ne_nil_iff_ne_zero.mp nonempty)
  rw [beBytes,List.head?_reverse,List.getLast?_map,List.getLast?_eq_getLast_of_ne_nil nonempty] at zero
  have bound := Nat.digits_lt_base (b := 256) (by decide) (List.getLast_mem nonempty)
  have value := congrArg UInt8.toNat (Option.some.inj zero)
  rw [UInt8.toNat_ofNat_of_lt' bound] at value
  exact last value

theorem minimalBytes {b : List UInt8} (minimal : Minimal b) : beBytes (beValue b) = b := by
  have digits : Nat.digits 256 (Nat.ofDigits 256 (b.reverse.map UInt8.toNat)) = b.reverse.map UInt8.toNat := by
    apply Nat.digits_ofDigits 256 (by decide)
    · intro d member
      obtain ⟨x,-,rfl⟩ := List.mem_map.mp member
      exact x.toNat_lt
    · intro nonempty zero
      rw [List.getLast_map,List.getLast_reverse] at zero
      have there : b ≠ [] := by simpa using nonempty
      apply minimal
      rw [List.head?_eq_some_head there]
      exact congrArg some (UInt8.toNat_inj.mp zero)
  rw [beBytes,beValue,digits,bytesKept,List.reverse_reverse]

theorem bytesLength {n k : Nat} (bound : n < 256 ^ k) : (beBytes n).length ≤ k := by
  rw [beBytes,List.length_reverse,List.length_map]
  exact (Nat.digits_length_le_iff (by decide) n).mpr bound

theorem valueStripped (b : List UInt8) : beValue (b.dropWhile (· = 0)) = beValue b := by
  induction b with
  | nil => rfl
  | cons x rest ih =>
    by_cases zero : x = 0
    · subst zero
      rw [List.dropWhile_cons_of_pos (by decide),ih]
      simp [beValue,Nat.ofDigits_append]
    · rw [List.dropWhile_cons_of_neg (by simpa using zero)]

theorem strippedMinimal (b : List UInt8) : Minimal (b.dropWhile (· = 0)) := by
  induction b with
  | nil => simp [Minimal]
  | cons x rest ih =>
    by_cases zero : x = 0
    · rw [List.dropWhile_cons_of_pos (by simpa using zero)]
      exact ih
    · rw [List.dropWhile_cons_of_neg (by simpa using zero)]
      intro first
      exact zero (Option.some.inj first)

theorem stripped (b : List UInt8) : b.dropWhile (· = 0) = beBytes (beValue b) := by
  rw [← valueStripped b,minimalBytes (strippedMinimal b)]

theorem takeExactAppend (b rest : List UInt8) : takeExact b.length (b ++ rest) = some (b,rest) := by
  simp [takeExact]

theorem longLengthRead {n : Nat} (large : ¬n < 56) (rest : List UInt8) :
    longLength (beBytes n).length (beBytes n ++ rest) = some (n,rest) := by
  simp [longLength,takeExactAppend,bytesMinimal,valueBytes,large]

theorem lengthBytes {n : Nat} (large : ¬n < 56) (bound : n < 2 ^ 64) :
    0 < (beBytes n).length ∧ (beBytes n).length ≤ 8 := by
  constructor
  · apply List.length_pos_iff.mpr
    intro none
    have zero := bytesNil.mp none
    omega
  · exact bytesLength (Nat.lt_of_lt_of_le bound (by decide))

theorem headByte (base : UInt8) {k : Nat} (room : base.toNat + k < 256) :
    (base + UInt8.ofNat k).toNat = base.toNat + k := by
  rw [UInt8.toNat_add,UInt8.toNat_ofNat_of_lt' (show k < 256 by omega),Nat.mod_eq_of_lt room]

theorem stringRead (b rest : List UInt8) (bound : b.length < 2 ^ 64) :
    readHead (encodeString b ++ rest) = some (.string b,rest) := by
  unfold encodeString
  by_cases alone : small b
  · rw [if_pos alone]
    match b,alone with
    | [x],alone =>
      have low : x.toNat < 0x80 := by simpa [small,UInt8.lt_iff_toNat_lt] using alone
      simp [readHead,low]
  rw [if_neg alone,encodeLength]
  by_cases short : b.length < 56
  · have head : (0x80 + UInt8.ofNat b.length).toNat = 128 + b.length :=
      headByte 0x80 (by show 128 + b.length < 256; omega)
    rw [if_pos short,List.append_assoc,List.singleton_append,readHead,head,
      if_neg (by omega),if_pos (by omega),Nat.add_sub_cancel_left,takeExactAppend]
    simp [alone]
  · obtain ⟨some_,most⟩ := lengthBytes short bound
    have head : (0xb7 + UInt8.ofNat (beBytes b.length).length).toNat = 183 + (beBytes b.length).length :=
      headByte 0xb7 (by show 183 + (beBytes b.length).length < 256; omega)
    rw [if_neg short,List.cons_append,List.cons_append,List.append_assoc,readHead,head,
      if_neg (by omega),if_neg (by omega),if_pos (by omega),Nat.add_sub_cancel_left,longLengthRead short]
    simp [takeExactAppend]

theorem listRead (payload rest : List UInt8) (bound : payload.length < 2 ^ 64) :
    readHead (encodeList payload ++ rest) = some (.list payload,rest) := by
  unfold encodeList encodeLength
  by_cases short : payload.length < 56
  · have head : (0xc0 + UInt8.ofNat payload.length).toNat = 192 + payload.length :=
      headByte 0xc0 (by show 192 + payload.length < 256; omega)
    rw [if_pos short,List.append_assoc,List.singleton_append,readHead,head,if_neg (by omega),
      if_neg (by omega),if_neg (by omega),if_pos (by omega),Nat.add_sub_cancel_left,takeExactAppend]
    simp
  · obtain ⟨some_,most⟩ := lengthBytes short bound
    have head : (0xf7 + UInt8.ofNat (beBytes payload.length).length).toNat =
        247 + (beBytes payload.length).length :=
      headByte 0xf7 (by show 247 + (beBytes payload.length).length < 256; omega)
    rw [if_neg short,List.cons_append,List.cons_append,List.append_assoc,readHead,head,if_neg (by omega),
      if_neg (by omega),if_neg (by omega),if_neg (by omega),Nat.add_sub_cancel_left,longLengthRead short]
    simp [takeExactAppend]

theorem stringTaken (b : List UInt8) : b.length ≤ (encodeString b).length ∧ 0 < (encodeString b).length := by
  unfold encodeString encodeLength
  by_cases alone : small b
  · rw [if_pos alone]
    match b,alone with
    | [x],_ => exact ⟨Nat.le_refl _,Nat.one_pos⟩
  · rw [if_neg alone]
    split
    · simp
    · simp
      omega

theorem listTaken (payload : List UInt8) : payload.length < (encodeList payload).length := by
  unfold encodeList encodeLength
  split <;> simp

theorem allDecoded (fuel : Nat) (items : List Item) (enough : (encodeAll items).length ≤ fuel)
    (bound : (encodeAll items).length < 2 ^ 64) : decodeAll fuel (encodeAll items) = some items := by
  induction fuel generalizing items with
  | zero =>
    cases items with
    | nil => rfl
    | cons item items =>
      exfalso
      cases item with
      | bytes b =>
        have taken := (stringTaken b).2
        simp only [encodeAll,encode,List.length_append] at enough
        omega
      | list sub =>
        have taken := listTaken (encodeAll sub)
        simp only [encodeAll,encode,List.length_append] at enough
        omega
  | succ fuel ih =>
    cases items with
    | nil => rfl
    | cons item items =>
      simp only [encodeAll,List.length_append] at enough bound
      cases item with
      | bytes b =>
        simp only [encode] at enough bound
        obtain ⟨whole,taken⟩ := stringTaken b
        have read := stringRead b (encodeAll items) (by omega)
        have rest := ih items (by omega) (by omega)
        simp only [encodeAll,encode]
        obtain ⟨x,more,shape⟩ := List.exists_cons_of_length_pos
          (show 0 < (encodeString b ++ encodeAll items).length by rw [List.length_append]; omega)
        rw [shape] at read ⊢
        simp [decodeAll,read,rest]
      | list sub =>
        simp only [encode] at enough bound
        have taken := listTaken (encodeAll sub)
        have read := listRead (encodeAll sub) (encodeAll items) (by omega)
        have inner := ih sub (by omega) (by omega)
        have rest := ih items (by omega) (by omega)
        simp only [encodeAll,encode]
        obtain ⟨x,more,shape⟩ := List.exists_cons_of_length_pos
          (show 0 < (encodeList (encodeAll sub) ++ encodeAll items).length by rw [List.length_append]; omega)
        rw [shape] at read ⊢
        simp [decodeAll,read,inner,rest]

theorem decodeEncode (item : Item) (bound : (encode item).length < 2 ^ 64) :
    decode (encode item) = some item := by
  have one : encodeAll [item] = encode item := by simp [encodeAll]
  have all := allDecoded (encodeAll [item]).length [item] (Nat.le_refl _) (by rw [one]; exact bound)
  rw [one] at all
  rw [decode,all]

end Web3PiUps.Rlp
