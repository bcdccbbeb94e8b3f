import Mathlib.Algebra.Group.Nat.Defs
import Mathlib.Order.Nat

/-! The input contract: the choice of a source PDO in `husb238.c`, and the one-shot
negotiation of the main loop around it. Products are in the width of the code. -/
namespace Web3PiUps.Ch32xHusb238

abbrev pdoCount : Nat := 6
abbrev policyVFloorMv : UInt16 := 9000
abbrev policyVCapMv : UInt16 := 20000
abbrev policyICapMa : UInt16 := 5000
abbrev policyPEnoughMw : UInt32 := 45000
abbrev policyBandNum : UInt32 := 9
abbrev policyBandDen : UInt32 := 10
abbrev selNone : UInt8 := 0

def pdoMv : Fin pdoCount → UInt16 := fun i => [5000,9000,12000,15000,18000,20000].get i
def pdoSel : Fin pdoCount → UInt8 := fun i => [0x1,0x2,0x3,0x8,0x9,0xA].get i
def prefMv : List UInt16 := [15000,12000,18000,20000,9000]

structure SrcCaps where
  detectedMask : UInt8
  currentMa : Fin pdoCount → UInt16

def detected (caps : SrcCaps) (i : Fin pdoCount) : Bool := caps.detectedMask.toNat.testBit i

def idxOfMv (v : UInt16) : Option (Fin pdoCount) := (List.finRange pdoCount).find? fun i => pdoMv i == v

def cappedMa (caps : SrcCaps) (i : Fin pdoCount) : UInt16 :=
  if caps.currentMa i > policyICapMa then policyICapMa else caps.currentMa i

def slotMw (caps : SrcCaps) (i : Fin pdoCount) : UInt32 :=
  (pdoMv i).toUInt32 * (cappedMa caps i).toUInt32 / 1000

def slotInRange (i : Fin pdoCount) : Bool := policyVFloorMv ≤ pdoMv i ∧ pdoMv i ≤ policyVCapMv

/-- The loop over the preferred voltages that returns at the first slot it takes. -/
def firstPreferred (takes : Fin pdoCount → Bool) : Option UInt8 :=
  prefMv.findSome? fun v =>
    match idxOfMv v with
    | none => none
    | some i => if takes i then some (pdoSel i) else none

def bestMw (caps : SrcCaps) : UInt32 :=
  (List.finRange pdoCount).foldl (fun best i =>
    if detected caps i && slotInRange i then
      if slotMw caps i > best then slotMw caps i else best
    else best) 0

def bandMw (caps : SrcCaps) : UInt32 := bestMw caps * policyBandNum / policyBandDen

def fallbackSel (caps : SrcCaps) : UInt8 :=
  (List.finRange pdoCount).foldl (fun sel i =>
    if detected caps i && caps.currentMa i > 0 then pdoSel i else sel) selNone

def stageA (caps : SrcCaps) : Option UInt8 :=
  firstPreferred fun i => detected caps i && slotMw caps i ≥ policyPEnoughMw

def stageB (caps : SrcCaps) : Option UInt8 :=
  if bestMw caps > 0 then
    firstPreferred fun i => detected caps i && slotInRange i && slotMw caps i ≥ bandMw caps
  else none

def husb238PickBestPdo (caps : SrcCaps) : UInt8 :=
  match stageA caps with
  | some sel => sel
  | none =>
    match stageB caps with
    | some sel => sel
    | none => fallbackSel caps

/-- 15, 12, 18, 20, 9 V. -/
def preference : List (Fin pdoCount) := [3,2,4,5,1]

def microwatts (caps : SrcCaps) (i : Fin pdoCount) : Nat :=
  (pdoMv i).toNat * min (caps.currentMa i).toNat 5000

def milliwatts (caps : SrcCaps) (i : Fin pdoCount) : Nat := microwatts caps i / 1000

def Offers (caps : SrcCaps) (i : Fin pdoCount) : Prop := detected caps i = true ∧ 0 < (caps.currentMa i).toNat
instance (caps i) : Decidable (Offers caps i) := by unfold Offers; infer_instance

def Enough (caps : SrcCaps) (i : Fin pdoCount) : Prop := Offers caps i ∧ 45000000 ≤ microwatts caps i
instance (caps i) : Decidable (Enough caps i) := by unfold Enough; infer_instance

def Best (caps : SrcCaps) (best : Nat) : Prop :=
  (∃ i ∈ preference, Offers caps i ∧ milliwatts caps i = best) ∧
    ∀ i ∈ preference, Offers caps i → milliwatts caps i ≤ best

def InBand (caps : SrcCaps) (best : Nat) (i : Fin pdoCount) : Prop :=
  Offers caps i ∧ best * 9 / 10 ≤ milliwatts caps i
instance (caps best i) : Decidable (InBand caps best i) := by unfold InBand; infer_instance

/-- `i` is the first slot in the order of preference with `p`. -/
def First (p : Fin pdoCount → Prop) (i : Fin pdoCount) : Prop :=
  ∃ before after, preference = before ++ i::after ∧ p i ∧ ∀ j ∈ before, ¬p j

structure FollowsPolicy (caps : SrcCaps) (sel : UInt8) : Prop where
  none : sel = selNone ↔ ∀ i, ¬Offers caps i
  offered : sel ≠ selNone → ∃ i, Offers caps i ∧ sel = pdoSel i
  enough : (∃ i ∈ preference, Enough caps i) → ∃ i, First (Enough caps) i ∧ sel = pdoSel i
  tied : (∀ i ∈ preference, ¬Enough caps i) → (∃ i ∈ preference, Offers caps i) →
    ∃ best i, Best caps best ∧ First (InBand caps best) i ∧ sel = pdoSel i
  fiveVolts : sel = pdoSel 0 → ∀ i ∈ preference, ¬Offers caps i
  slotFits : ∀ i, microwatts caps i < 2^32
  bandFits : ∀ best, Best caps best → best * 9 < 2^32

theorem selDistinct : ∀ i j, pdoSel i = pdoSel j → i = j := by decide

theorem selSome : ∀ i, pdoSel i ≠ selNone := by decide

theorem preferenceRange : ∀ i, i ∈ preference ↔ i ≠ 0 := by decide

theorem inRangePreferred : ∀ i, slotInRange i = true ↔ i ∈ preference := by decide

theorem pdoMvBounds : ∀ i, 5000 ≤ (pdoMv i).toNat ∧ (pdoMv i).toNat ≤ 20000 := by decide

section Slots
variable (caps : SrcCaps) (i : Fin pdoCount)

theorem cappedNat : (cappedMa caps i).toNat = min (caps.currentMa i).toNat 5000 := by
  unfold cappedMa
  split
  · rename_i above
    have above : 5000 < (caps.currentMa i).toNat := above
    exact (Nat.min_eq_right above.le).symm
  · rename_i within
    have within : ¬5000 < (caps.currentMa i).toNat := within
    exact (Nat.min_eq_left (Nat.not_lt.mp within)).symm

theorem microwattsBound : microwatts caps i ≤ 100000000 :=
  Nat.mul_le_mul (pdoMvBounds i).2 (Nat.min_le_right _ _)

theorem slotNat : (slotMw caps i).toNat = milliwatts caps i := by
  have bound := microwattsBound caps i
  have product : ((pdoMv i).toUInt32 * (cappedMa caps i).toUInt32).toNat = microwatts caps i := by
    rw [UInt32.toNat_mul,UInt16.toNat_toUInt32,UInt16.toNat_toUInt32,cappedNat]
    exact Nat.mod_eq_of_lt (by change microwatts caps i < 2^32; omega)
  rw [slotMw,UInt32.toNat_div,product]
  rfl

theorem milliwattsPositive : 0 < milliwatts caps i ↔ 0 < (caps.currentMa i).toNat := by
  have volts := (pdoMvBounds i).1
  unfold milliwatts microwatts
  constructor
  · intro power
    by_contra none
    rw [Nat.eq_zero_of_not_pos none] at power
    simp at power
  · intro current
    refine Nat.div_pos ?_ (by decide)
    calc 1000 ≤ 5000 * 1 := by decide
      _ ≤ (pdoMv i).toNat * min (caps.currentMa i).toNat 5000 := Nat.mul_le_mul volts (by omega)

theorem enoughSlot : (detected caps i && decide (slotMw caps i ≥ policyPEnoughMw)) = true ↔ Enough caps i := by
  have power : slotMw caps i ≥ policyPEnoughMw ↔ 45000 ≤ milliwatts caps i := by
    rw [← slotNat]
    exact UInt32.le_iff_toNat_le
  have exact_ : 45000 ≤ milliwatts caps i ↔ 45000000 ≤ microwatts caps i :=
    Nat.le_div_iff_mul_le (by decide)
  rw [Bool.and_eq_true,decide_eq_true_iff,power,exact_,Enough,Offers]
  constructor
  · rintro ⟨seen,reached⟩
    exact ⟨⟨seen,(milliwattsPositive caps i).mp (by omega)⟩,reached⟩
  · rintro ⟨⟨seen,-⟩,reached⟩
    exact ⟨seen,reached⟩

end Slots

theorem preferredOrder : prefMv.filterMap idxOfMv = preference := by decide

theorem firstFound (takes : Fin pdoCount → Bool) :
    firstPreferred takes = (preference.find? takes).map pdoSel := by
  rw [← preferredOrder,firstPreferred]
  induction prefMv with
  | nil => rfl
  | cons v rest ih =>
    cases at_ : idxOfMv v with
    | none => simpa [List.findSome?_cons,at_] using ih
    | some i =>
      cases taken : takes i with
      | true => simp [at_,taken]
      | false => simpa [List.findSome?_cons,at_,taken] using ih

theorem foundFirst {takes : Fin pdoCount → Bool} {p : Fin pdoCount → Prop} {i : Fin pdoCount}
    (same : ∀ j ∈ preference, takes j = true ↔ p j) (found : preference.find? takes = some i) : First p i := by
  obtain ⟨taken,before,after,split,passed⟩ := List.find?_eq_some_iff_append.mp found
  have listed : ∀ j ∈ before ++ i::after, j ∈ preference := fun j mem => by rw [split]; exact mem
  refine ⟨before,after,split,(same i (listed i (by simp))).mp taken,fun j mem held => ?_⟩
  have taken := (same j (listed j (List.mem_append_left _ mem))).mpr held
  simpa [taken] using passed j mem

theorem foundSome (takes : Fin pdoCount → Bool) {i : Fin pdoCount} (mem : i ∈ preference) (taken : takes i = true) :
    ∃ j, preference.find? takes = some j :=
  Option.isSome_iff_exists.mp (List.find?_isSome.mpr ⟨i,mem,taken⟩)

theorem foundNone {takes : Fin pdoCount → Bool} (passed : ∀ i ∈ preference, takes i = false) :
    preference.find? takes = none :=
  List.find?_eq_none.mpr fun i mem taken => Bool.false_ne_true ((passed i mem).symm.trans taken)

section Best
variable (caps : SrcCaps)

theorem bestOver (slots : List (Fin pdoCount)) (start : UInt32) :
    let best := slots.foldl (fun best i =>
      if detected caps i && slotInRange i then
        if slotMw caps i > best then slotMw caps i else best
      else best) start
    start.toNat ≤ best.toNat ∧
      (∀ i ∈ slots, (detected caps i && slotInRange i) = true → milliwatts caps i ≤ best.toNat) ∧
      (best = start ∨ ∃ i ∈ slots, (detected caps i && slotInRange i) = true ∧ milliwatts caps i = best.toNat) := by
  induction slots generalizing start with
  | nil => exact ⟨Nat.le_refl _,nofun,.inl rfl⟩
  | cons i rest ih =>
    rw [List.foldl_cons]
    cases counts : detected caps i && slotInRange i with
    | false =>
      obtain ⟨grows,bounds,attained⟩ := ih start
      refine ⟨grows,fun j mem held => ?_,attained.imp_right fun ⟨j,mem,held⟩ => ⟨j,.tail _ mem,held⟩⟩
      rcases List.mem_cons.mp mem with rfl | later
      · exact absurd (counts.symm.trans held) Bool.false_ne_true
      · exact bounds j later held
    | true =>
      simp only [if_true]
      by_cases more : slotMw caps i > start
      · obtain ⟨grows,bounds,attained⟩ := ih (slotMw caps i)
        have higher : start.toNat < (slotMw caps i).toNat := UInt32.lt_iff_toNat_lt.mp more
        rw [slotNat] at grows higher
        rw [if_pos more]
        refine ⟨higher.le.trans grows,fun j mem held => ?_,.inr ?_⟩
        · rcases List.mem_cons.mp mem with rfl | later
          · exact grows
          · exact bounds j later held
        · rcases attained with same | ⟨j,mem,held⟩
          · exact ⟨i,.head _,counts,by rw [same,slotNat]⟩
          · exact ⟨j,.tail _ mem,held⟩
      · obtain ⟨grows,bounds,attained⟩ := ih start
        have lower : ¬start.toNat < (slotMw caps i).toNat := fun less => more (UInt32.lt_iff_toNat_lt.mpr less)
        rw [slotNat] at lower
        rw [if_neg more]
        refine ⟨grows,fun j mem held => ?_,attained.imp_right fun ⟨j,mem,held⟩ => ⟨j,.tail _ mem,held⟩⟩
        rcases List.mem_cons.mp mem with rfl | later
        · exact (Nat.not_lt.mp lower).trans grows
        · exact bounds j later held

theorem countedOffers {i : Fin pdoCount} (positive : 0 < milliwatts caps i) :
    (detected caps i && slotInRange i) = true ↔ i ∈ preference ∧ Offers caps i := by
  rw [Bool.and_eq_true,inRangePreferred,Offers,and_comm]
  exact and_congr_right fun _ => (and_iff_left ((milliwattsPositive caps i).mp positive)).symm

theorem offersPositive {i : Fin pdoCount} (offers : Offers caps i) : 0 < milliwatts caps i :=
  (milliwattsPositive caps i).mpr offers.2

theorem bestIsBest (some_ : ∃ i ∈ preference, Offers caps i) : Best caps (bestMw caps).toNat := by
  obtain ⟨-,bounds,attained⟩ := bestOver caps (List.finRange pdoCount) 0
  have top : ∀ i ∈ preference, Offers caps i → milliwatts caps i ≤ (bestMw caps).toNat := fun i mem offers =>
    bounds i (List.mem_finRange i) ((countedOffers caps (offersPositive caps offers)).mpr ⟨mem,offers⟩)
  refine ⟨?_,top⟩
  obtain ⟨i,mem,offers⟩ := some_
  have positive := (offersPositive caps offers).trans_le (top i mem offers)
  rcases attained with zero | ⟨j,-,counted,same⟩
  · have zero : bestMw caps = 0 := zero
    rw [zero] at positive
    exact absurd positive (Nat.lt_irrefl 0)
  · have power : 0 < milliwatts caps j := by rw [same]; exact positive
    obtain ⟨inside,held⟩ := (countedOffers caps power).mp counted
    exact ⟨j,inside,held,same⟩

theorem bestNone (low : ∀ i ∈ preference, ¬Offers caps i) : bestMw caps = 0 := by
  obtain ⟨-,-,attained⟩ := bestOver caps (List.finRange pdoCount) 0
  rcases attained with zero | ⟨i,-,counted,same⟩
  · exact zero
  · refine UInt32.toNat_inj.mp (same.symm.trans (Nat.eq_zero_of_not_pos fun positive => ?_))
    obtain ⟨mem,offers⟩ := (countedOffers caps positive).mp counted
    exact low i mem offers

theorem bestBound {best : Nat} (top : Best caps best) : 9 ≤ best ∧ best ≤ 100000 := by
  obtain ⟨⟨i,mem,offers,rfl⟩,-⟩ := top
  have volts : ∀ i ∈ preference, 9000 ≤ (pdoMv i).toNat := by decide
  constructor
  · refine (Nat.le_div_iff_mul_le (by decide)).mpr ?_
    calc 9 * 1000 ≤ 9000 * 1 := by decide
      _ ≤ microwatts caps i := Nat.mul_le_mul (volts i mem) (by have := offers.2; omega)
  · exact Nat.div_le_div_right (microwattsBound caps i)

theorem bandNat (top : Best caps (bestMw caps).toNat) :
    (bandMw caps).toNat = (bestMw caps).toNat * 9 / 10 := by
  have bound := bestBound caps top
  rw [bandMw,UInt32.toNat_div,UInt32.toNat_mul]
  change (bestMw caps).toNat * 9 % 2^32 / 10 = _
  rw [Nat.mod_eq_of_lt (by omega)]

theorem bandSlot (top : Best caps (bestMw caps).toNat) {i : Fin pdoCount} (mem : i ∈ preference) :
    (detected caps i && slotInRange i && decide (slotMw caps i ≥ bandMw caps)) = true ↔
      InBand caps (bestMw caps).toNat i := by
  have bound := bestBound caps top
  have power : slotMw caps i ≥ bandMw caps ↔ (bestMw caps).toNat * 9 / 10 ≤ milliwatts caps i := by
    rw [← slotNat,← bandNat caps top]
    exact UInt32.le_iff_toNat_le
  rw [Bool.and_eq_true,decide_eq_true_iff,power,InBand]
  refine and_congr_left fun reached => ?_
  have positive : 0 < milliwatts caps i := by omega
  rw [countedOffers caps positive]
  exact and_iff_right mem

end Best

section Pick
variable {caps : SrcCaps}

theorem stageATakes (some_ : ∃ i ∈ preference, Enough caps i) :
    ∃ i, First (Enough caps) i ∧ stageA caps = some (pdoSel i) := by
  obtain ⟨i,mem,enough⟩ := some_
  obtain ⟨j,found⟩ := foundSome (fun i => detected caps i && slotMw caps i ≥ policyPEnoughMw) mem
    ((enoughSlot caps i).mpr enough)
  exact ⟨j,foundFirst (fun k _ => enoughSlot caps k) found,by rw [stageA,firstFound,found]; rfl⟩

theorem stageAPasses (weak : ∀ i ∈ preference, ¬Enough caps i) : stageA caps = none := by
  have passed := foundNone fun i mem => Bool.eq_false_iff.mpr fun taken => weak i mem ((enoughSlot caps i).mp taken)
  rw [stageA,firstFound,passed,Option.map_none]

theorem stageBTakes (some_ : ∃ i ∈ preference, Offers caps i) :
    ∃ i, First (InBand caps (bestMw caps).toNat) i ∧ stageB caps = some (pdoSel i) := by
  have top := bestIsBest caps some_
  have positive : bestMw caps > 0 := by
    refine UInt32.lt_iff_toNat_lt.mpr ?_
    have bound := bestBound caps top
    change 0 < (bestMw caps).toNat
    omega
  obtain ⟨⟨i,mem,offers,same⟩,-⟩ := top
  have inBand : InBand caps (bestMw caps).toNat i := ⟨offers,by omega⟩
  obtain ⟨j,found⟩ := foundSome (fun i => detected caps i && slotInRange i && slotMw caps i ≥ bandMw caps) mem
    ((bandSlot caps (bestIsBest caps some_) mem).mpr inBand)
  exact ⟨j,foundFirst (fun k inside => bandSlot caps (bestIsBest caps some_) inside) found,
    by rw [stageB,if_pos positive,firstFound,found]; rfl⟩

theorem stageBPasses (low : ∀ i ∈ preference, ¬Offers caps i) : stageB caps = none := by
  rw [stageB,bestNone caps low]
  rfl

theorem fallbackOver (slots : List (Fin pdoCount)) (start : UInt8) :
    let sel := slots.foldl (fun sel i => if detected caps i && caps.currentMa i > 0 then pdoSel i else sel) start
    (sel = start ∧ ∀ i ∈ slots, ¬Offers caps i) ∨ ∃ i ∈ slots, Offers caps i ∧ sel = pdoSel i := by
  induction slots generalizing start with
  | nil => exact .inl ⟨rfl,nofun⟩
  | cons i rest ih =>
    rw [List.foldl_cons]
    have offers : (detected caps i && decide (caps.currentMa i > 0)) = true ↔ Offers caps i := by
      rw [Bool.and_eq_true,decide_eq_true_iff,Offers]
      exact and_congr_right fun _ => UInt16.lt_iff_toNat_lt
    by_cases here : Offers caps i
    · rw [if_pos (offers.mpr here)]
      rcases ih (pdoSel i) with ⟨same,-⟩ | ⟨j,mem,held⟩
      · exact .inr ⟨i,.head _,here,same⟩
      · exact .inr ⟨j,.tail _ mem,held⟩
    · rw [if_neg fun taken => here (offers.mp taken)]
      rcases ih start with ⟨same,none⟩ | ⟨j,mem,held⟩
      · refine .inl ⟨same,fun j mem => ?_⟩
        rcases List.mem_cons.mp mem with rfl | later
        · exact here
        · exact none j later
      · exact .inr ⟨j,.tail _ mem,held⟩

/-- Which stage decides, and on what slot. -/
inductive Picked (caps : SrcCaps) (sel : UInt8) : Prop where
  | enough (i : Fin pdoCount) (first : First (Enough caps) i) (same : sel = pdoSel i)
  | tied (i : Fin pdoCount) (weak : ∀ j ∈ preference, ¬Enough caps j) (best : Best caps (bestMw caps).toNat)
      (first : First (InBand caps (bestMw caps).toNat) i) (same : sel = pdoSel i)
  | fiveVolts (low : ∀ j ∈ preference, ¬Offers caps j) (offers : Offers caps 0) (same : sel = pdoSel 0)
  | nothing (none : ∀ i, ¬Offers caps i) (same : sel = selNone)

theorem picked (caps : SrcCaps) : Picked caps (husb238PickBestPdo caps) := by
  by_cases strong : ∃ i ∈ preference, Enough caps i
  · obtain ⟨i,first,taken⟩ := stageATakes strong
    exact .enough i first (by rw [husb238PickBestPdo,taken])
  have weak : ∀ i ∈ preference, ¬Enough caps i := fun i mem enough => strong ⟨i,mem,enough⟩
  by_cases some_ : ∃ i ∈ preference, Offers caps i
  · obtain ⟨i,first,taken⟩ := stageBTakes some_
    exact .tied i weak (bestIsBest caps some_) first (by rw [husb238PickBestPdo,stageAPasses weak,taken])
  have low : ∀ i ∈ preference, ¬Offers caps i := fun i mem offers => some_ ⟨i,mem,offers⟩
  have last : husb238PickBestPdo caps = fallbackSel caps := by
    rw [husb238PickBestPdo,stageAPasses weak,stageBPasses low]
  rcases @fallbackOver caps (List.finRange pdoCount) selNone with ⟨same,none⟩ | ⟨i,-,offers,same⟩
  · exact .nothing (fun i => none i (List.mem_finRange i)) (last.trans same)
  · have zero : i = 0 := by
      by_contra other
      exact low i ((preferenceRange i).mpr other) offers
    subst zero
    exact .fiveVolts low offers (last.trans same)

theorem firstHolds {p : Fin pdoCount → Prop} {i : Fin pdoCount} (first : First p i) : i ∈ preference ∧ p i := by
  obtain ⟨before,after,split,holds,-⟩ := first
  exact ⟨by rw [split]; simp,holds⟩

end Pick

theorem pickFollowsPolicy (caps : SrcCaps) : FollowsPolicy caps (husb238PickBestPdo caps) := by
  have slotFits : ∀ i, microwatts caps i < 2^32 := fun i => (microwattsBound caps i).trans_lt (by decide)
  have bandFits : ∀ best, Best caps best → best * 9 < 2^32 := fun best top => by
    have bound := bestBound caps top
    omega
  have notFive : ∀ {i : Fin pdoCount}, i ∈ preference → pdoSel i ≠ pdoSel 0 := fun mem same =>
    (preferenceRange _).mp mem (selDistinct _ _ same)
  cases picked caps with
  | enough i first same =>
    obtain ⟨mem,enough⟩ := firstHolds first
    rw [same]
    exact ⟨iff_of_false (selSome i) fun none => none i enough.1,fun _ => ⟨i,enough.1,rfl⟩,fun _ => ⟨i,first,rfl⟩,
      fun weak => absurd enough (weak i mem),fun five => absurd five (notFive mem),slotFits,bandFits⟩
  | tied i weak best first same =>
    obtain ⟨mem,inBand⟩ := firstHolds first
    rw [same]
    exact ⟨iff_of_false (selSome i) fun none => none i inBand.1,fun _ => ⟨i,inBand.1,rfl⟩,
      fun ⟨j,inside,enough⟩ => absurd enough (weak j inside),fun _ _ => ⟨_,i,best,first,rfl⟩,
      fun five => absurd five (notFive mem),slotFits,bandFits⟩
  | fiveVolts low offers same =>
    rw [same]
    exact ⟨iff_of_false (selSome 0) fun none => none 0 offers,fun _ => ⟨0,offers,rfl⟩,
      fun ⟨j,inside,enough⟩ => absurd enough.1 (low j inside),fun _ ⟨j,inside,held⟩ => absurd held (low j inside),
      fun _ => low,slotFits,bandFits⟩
  | nothing none same =>
    rw [same]
    exact ⟨iff_of_true rfl none,fun some_ => absurd rfl some_,fun ⟨j,_,enough⟩ => absurd enough.1 (none j),
      fun _ ⟨j,_,held⟩ => absurd held (none j),fun _ j _ => none j,slotFits,bandFits⟩

def husb238SelToMv (sel : UInt8) : UInt16 :=
  ((List.finRange pdoCount).find? fun i => pdoSel i == sel).elim 0 pdoMv

/-- `Husb_Data`, as far as it is read here. -/
structure Contract where
  attached : Bool
  voltageMv : UInt16
  currentMa : UInt16

structure OneShot where
  pdOptimized : Bool
  pickSel : UInt8
  deriving DecidableEq, Repr

inductive Request where
  | getSrcCap
  | selectPdo (sel : UInt8)
  deriving DecidableEq, Repr

def pickMa (caps : SrcCaps) (mv : UInt16) : UInt16 := (idxOfMv mv).elim 0 (cappedMa caps)

def renegotiates (live : Contract) (caps : SrcCaps) (sel : UInt8) : Prop :=
  husb238SelToMv sel ≠ live.voltageMv ∨ live.currentMa.toNat + 50 < (pickMa caps (husb238SelToMv sel)).toNat
instance (live caps sel) : Decidable (renegotiates live caps sel) := by unfold renegotiates; infer_instance

def oneShotPoll (s : OneShot) (live : Contract) (caps : SrcCaps) : OneShot × Option Request :=
  if live.attached then
    if s.pdOptimized then (s,none)
    else if caps.detectedMask = 0 then (s,some .getSrcCap)
    else
      let sel := husb238PickBestPdo caps
      if sel ≠ selNone then
        (⟨true,sel⟩,if renegotiates live caps sel then some (.selectPdo sel) else none)
      else ({ s with pickSel := sel },none)
  else (⟨false,selNone⟩,none)

theorem selVoltage : ∀ i, husb238SelToMv (pdoSel i) = pdoMv i ∧ idxOfMv (pdoMv i) = some i := by decide

/-- A poll that arms the one-shot leaves a contract at a slot the source offers, or asks for it. -/
theorem oneShotArms {s : OneShot} {live : Contract} {caps : SrcCaps} (open_ : s.pdOptimized = false)
    (armed : (oneShotPoll s live caps).1.pdOptimized = true) :
    ∃ i, Offers caps i ∧ (oneShotPoll s live caps).1.pickSel = pdoSel i ∧
      ((oneShotPoll s live caps).2 = some (.selectPdo (pdoSel i)) ∨
        (oneShotPoll s live caps).2 = none ∧ live.voltageMv = pdoMv i ∧
          (cappedMa caps i).toNat ≤ live.currentMa.toNat + 50) := by
  have policy := pickFollowsPolicy caps
  unfold oneShotPoll at armed ⊢
  by_cases attached : live.attached
  · by_cases blank : caps.detectedMask = 0
    · simp [attached,open_,blank] at armed
    by_cases nothing : husb238PickBestPdo caps = selNone
    · simp [attached,open_,blank,nothing] at armed
    obtain ⟨i,offers,same⟩ := policy.offered nothing
    obtain ⟨volts,index⟩ := selVoltage i
    refine ⟨i,offers,by simp [attached,open_,blank,same,selSome i],?_⟩
    by_cases moves : renegotiates live caps (pdoSel i)
    · exact .inl (by simp [attached,open_,blank,same,selSome i,moves])
    · have still := not_or.mp moves
      rw [volts,pickMa,index] at still
      exact .inr ⟨by simp [attached,open_,blank,same,selSome i,moves],(not_ne_iff.mp still.1).symm,Nat.not_lt.mp still.2⟩
  · simp [attached] at armed

end Web3PiUps.Ch32xHusb238
