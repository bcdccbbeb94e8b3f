import Mathlib.Data.List.Pairwise
import Mathlib.Data.Nat.Bitwise
import Web3PiUps.Lib.StepMachine

/-! The `power.event` edge detector of the CH32X main loop. A sample carries the second it
is taken at; the code sees that second in 32 bits. -/
namespace Web3PiUps.Ch32xPowerEvents
open StepMachine

abbrev pwrEvtMainsOnMv : UInt16 := 5500
abbrev pwrEvtMainsOffMv : UInt16 := 4500
abbrev pwrEvtVbatLowMv : UInt16 := 6900
abbrev pwrEvtVbatRearmMv : UInt16 := 7300
abbrev pwrEvtVbatSaneMv : UInt16 := 1000
abbrev pwrEvtFaultHoldS : UInt32 := 30
abbrev statusScpBit : UInt8 := 0x80
abbrev statusOcpBit : UInt8 := 0x40
abbrev statusOvpBit : UInt8 := 0x20

inductive PowerEvent where
  | mainsLost
  | mainsRestored
  | chargeLow
  | chargeFull
  | fault
  deriving DecidableEq, Repr

structure Sample where
  seconds : Nat
  dcInpVoltageMv : UInt16
  chgFault : UInt8
  tpsStatusLatched : UInt8
  chgState : UInt8
  vbatVoltageMv : UInt16
  deriving DecidableEq, Repr

def Sample.uptimeSec (x : Sample) : UInt32 := UInt32.ofNat x.seconds

def tpsFlags (status : UInt8) : UInt16 :=
  (if status &&& statusScpBit ≠ 0 then 0x100 else 0) ||| (if status &&& statusOcpBit ≠ 0 then 0x200 else 0) |||
    (if status &&& statusOvpBit ≠ 0 then 0x400 else 0)

def Sample.faults (x : Sample) : UInt16 := x.chgFault.toUInt16 ||| tpsFlags x.tpsStatusLatched

/-- The static variables of `wups_power_event_tick`. -/
structure Evt where
  primed : Bool
  mains : Bool
  prevFaults : UInt16
  prevCs : UInt8
  battLow : Bool
  lastFaultS : UInt32
  deriving DecidableEq, Repr

def Evt.boot : Evt := ⟨false,false,0,0,false,0⟩

def mainsOf (s : Evt) (x : Sample) : Bool :=
  if s.mains then x.dcInpVoltageMv > pwrEvtMainsOffMv else x.dcInpVoltageMv > pwrEvtMainsOnMv

def mainsEdge (s : Evt) (mains : Bool) : Evt × List PowerEvent :=
  if mains ≠ s.mains then
    ({ s with mains := mains, battLow := !mains && s.battLow },[if mains then .mainsRestored else .mainsLost])
  else (s,[])

def NewFault (s : Evt) (x : Sample) : Prop := x.faults &&& ~~~s.prevFaults ≠ 0
instance (s x) : Decidable (NewFault s x) := by unfold NewFault; infer_instance

def LimiterOpen (s : Evt) (x : Sample) : Prop := pwrEvtFaultHoldS ≤ x.uptimeSec - s.lastFaultS
instance (s x) : Decidable (LimiterOpen s x) := by unfold LimiterOpen; infer_instance

def faultEdge (s : Evt) (x : Sample) : Evt × List PowerEvent :=
  if NewFault s x ∧ LimiterOpen s x then ({ s with lastFaultS := x.uptimeSec, prevFaults := x.faults },[.fault])
  else ({ s with prevFaults := x.faults },[])

def fullEdge (s : Evt) (mains : Bool) (cs : UInt8) : Evt × List PowerEvent :=
  ({ s with prevCs := cs },if mains ∧ cs = 3 ∧ s.prevCs ≠ 3 then [.chargeFull] else [])

def lowEdge (s : Evt) (mains : Bool) (vbat : UInt16) : Evt × List PowerEvent :=
  if ¬mains ∧ ¬s.battLow ∧ vbat < pwrEvtVbatLowMv ∧ vbat > pwrEvtVbatSaneMv then
    ({ s with battLow := true },[.chargeLow])
  else if s.battLow ∧ vbat > pwrEvtVbatRearmMv then ({ s with battLow := false },[])
  else (s,[])

def wupsPowerEventTick (s : Evt) (x : Sample) : Evt × List PowerEvent :=
  let mains := mainsOf s x
  if s.primed = false then
    ({ s with primed := true, mains := mains, prevFaults := x.faults, prevCs := x.chgState },[])
  else
    let (a,mainsSent) := mainsEdge s mains
    let (b,faultSent) := faultEdge a x
    let (c,fullSent) := fullEdge b mains x.chgState
    let (d,lowSent) := lowEdge c mains x.vbatVoltageMv
    (d,mainsSent ++ faultSent ++ fullSent ++ lowSent)

section Tick
variable (s : Evt) (x : Sample)

@[simp] theorem mainsEdgeFields (mains : Bool) : (mainsEdge s mains).1.primed = s.primed ∧
    (mainsEdge s mains).1.mains = mains ∧ (mainsEdge s mains).1.prevFaults = s.prevFaults ∧
    (mainsEdge s mains).1.prevCs = s.prevCs ∧ (mainsEdge s mains).1.lastFaultS = s.lastFaultS := by
  unfold mainsEdge
  split
  · exact ⟨rfl,rfl,rfl,rfl,rfl⟩
  · rename_i same
    exact ⟨rfl,(not_ne_iff.mp same).symm,rfl,rfl,rfl⟩

theorem mainsEdgeBatt (mains : Bool) :
    (mainsEdge s mains).1.battLow = (s.battLow && !(mains && !s.mains)) := by
  unfold mainsEdge
  cases mains <;> cases s.mains <;> simp

@[simp] theorem faultEdgeFields : (faultEdge s x).1.primed = s.primed ∧ (faultEdge s x).1.mains = s.mains ∧
    (faultEdge s x).1.prevFaults = x.faults ∧ (faultEdge s x).1.prevCs = s.prevCs ∧
    (faultEdge s x).1.battLow = s.battLow := by
  unfold faultEdge
  split <;> exact ⟨rfl,rfl,rfl,rfl,rfl⟩

theorem faultEdgeLast : (faultEdge s x).1.lastFaultS =
    if NewFault s x ∧ LimiterOpen s x then x.uptimeSec else s.lastFaultS := by
  unfold faultEdge
  split <;> rfl

@[simp] theorem newFaultEdge (mains : Bool) : NewFault (mainsEdge s mains).1 x ↔ NewFault s x := by
  rw [NewFault,(mainsEdgeFields s mains).2.2.1,NewFault]

@[simp] theorem limiterEdge (mains : Bool) : LimiterOpen (mainsEdge s mains).1 x ↔ LimiterOpen s x := by
  rw [LimiterOpen,(mainsEdgeFields s mains).2.2.2.2,LimiterOpen]

@[simp] theorem lowEdgeFields (mains : Bool) (vbat : UInt16) : (lowEdge s mains vbat).1.primed = s.primed ∧
    (lowEdge s mains vbat).1.mains = s.mains ∧ (lowEdge s mains vbat).1.prevFaults = s.prevFaults ∧
    (lowEdge s mains vbat).1.lastFaultS = s.lastFaultS := by
  unfold lowEdge
  split
  · exact ⟨rfl,rfl,rfl,rfl⟩
  split <;> exact ⟨rfl,rfl,rfl,rfl⟩

theorem tickFields : (wupsPowerEventTick s x).1.primed = true ∧ (wupsPowerEventTick s x).1.mains = mainsOf s x ∧
    (wupsPowerEventTick s x).1.prevFaults = x.faults := by
  unfold wupsPowerEventTick
  split
  · exact ⟨rfl,rfl,rfl⟩
  · rename_i primed
    have primed : s.primed = true := by simpa using primed
    simp [fullEdge,primed]

theorem tickLastFault (primed : s.primed = true) : (wupsPowerEventTick s x).1.lastFaultS =
    if NewFault s x ∧ LimiterOpen s x then x.uptimeSec else s.lastFaultS := by
  simp [wupsPowerEventTick,primed,fullEdge,faultEdgeLast]

def isMains (e : PowerEvent) : Bool := e = .mainsLost ∨ e = .mainsRestored

def mainsSent (s : Evt) (x : Sample) : List PowerEvent :=
  if mainsOf s x ≠ s.mains then [if mainsOf s x then .mainsRestored else .mainsLost] else []

theorem mainsEdgeSent : (mainsEdge s (mainsOf s x)).2 = mainsSent s x := by
  unfold mainsEdge mainsSent
  split <;> rfl

theorem faultEdgeSent (mains : Bool) :
    (faultEdge (mainsEdge s mains).1 x).2 = if NewFault s x ∧ LimiterOpen s x then [.fault] else [] := by
  simp only [faultEdge,newFaultEdge,limiterEdge]
  split <;> rfl

def Low (s : Evt) (x : Sample) : Prop := mainsOf s x = false ∧ s.battLow = false ∧
  x.vbatVoltageMv < pwrEvtVbatLowMv ∧ x.vbatVoltageMv > pwrEvtVbatSaneMv
instance (s x) : Decidable (Low s x) := by unfold Low; infer_instance

theorem lowEdgeSent (a : Evt) (batt : a.battLow = (s.battLow && !(mainsOf s x && !s.mains))) :
    (lowEdge a (mainsOf s x) x.vbatVoltageMv).2 = (if Low s x then [.chargeLow] else []) ∧
      (lowEdge a (mainsOf s x) x.vbatVoltageMv).1.battLow =
        (decide (Low s x) || a.battLow && !decide (x.vbatVoltageMv > pwrEvtVbatRearmMv)) := by
  have fires : (¬mainsOf s x = true ∧ ¬a.battLow = true ∧ x.vbatVoltageMv < pwrEvtVbatLowMv ∧
      x.vbatVoltageMv > pwrEvtVbatSaneMv) ↔ Low s x := by
    unfold Low
    rw [batt]
    cases mainsOf s x <;> simp
  unfold lowEdge
  by_cases low : Low s x
  · rw [if_pos (fires.mpr low),if_pos low]
    exact ⟨rfl,by simp [low]⟩
  · rw [if_neg (fun fired => low (fires.mp fired)),if_neg low]
    by_cases rearms : a.battLow = true ∧ x.vbatVoltageMv > pwrEvtVbatRearmMv
    · rw [if_pos rearms]
      exact ⟨rfl,by simp [low,rearms.2]⟩
    · rw [if_neg rearms]
      refine ⟨rfl,?_⟩
      cases held : a.battLow with
      | false => simp [low]
      | true =>
        have flat : ¬x.vbatVoltageMv > pwrEvtVbatRearmMv := fun above => rearms ⟨held,above⟩
        simp [low,flat]

theorem mainsSentOnly {e : PowerEvent} (other : isMains e = false) : e ∉ mainsSent s x := by
  unfold mainsSent
  split
  · split <;> (intro mem; cases List.mem_singleton.mp mem; exact nomatch other)
  · exact List.not_mem_nil

theorem tickEvents (primed : s.primed = true) :
    (wupsPowerEventTick s x).2 = mainsSent s x ++ (if NewFault s x ∧ LimiterOpen s x then [.fault] else []) ++
      (if mainsOf s x ∧ x.chgState = 3 ∧ s.prevCs ≠ 3 then [.chargeFull] else []) ++
      (if Low s x then [.chargeLow] else []) := by
  have low := (lowEdgeSent s x (fullEdge (faultEdge (mainsEdge s (mainsOf s x)).1 x).1 (mainsOf s x) x.chgState).1
    (by simp [fullEdge,mainsEdgeBatt])).1
  simp only [wupsPowerEventTick,primed,Bool.true_eq_false,if_false,mainsEdgeSent,faultEdgeSent,low]
  simp [fullEdge]

theorem tickBatt (primed : s.primed = true) : (wupsPowerEventTick s x).1.battLow =
    (decide (Low s x) ||
      (s.battLow && !(mainsOf s x && !s.mains)) && !decide (x.vbatVoltageMv > pwrEvtVbatRearmMv)) := by
  have batt : (fullEdge (faultEdge (mainsEdge s (mainsOf s x)).1 x).1 (mainsOf s x) x.chgState).1.battLow =
      (s.battLow && !(mainsOf s x && !s.mains)) := by simp [fullEdge,mainsEdgeBatt]
  have low := (lowEdgeSent s x _ batt).2
  rw [batt] at low
  simpa only [wupsPowerEventTick,primed,Bool.true_eq_false,if_false] using low

theorem faultSent (primed : s.primed = true) :
    PowerEvent.fault ∈ (wupsPowerEventTick s x).2 ↔ NewFault s x ∧ LimiterOpen s x := by
  rw [tickEvents s x primed]
  by_cases sends : NewFault s x ∧ LimiterOpen s x
  · simp [sends]
  · simp [sends,mainsSentOnly s x (e := .fault) rfl]

theorem lowSent (primed : s.primed = true) : PowerEvent.chargeLow ∈ (wupsPowerEventTick s x).2 ↔ Low s x := by
  rw [tickEvents s x primed]
  by_cases sends : Low s x
  · simp [sends]
  · simp [sends,mainsSentOnly s x (e := .chargeLow) rfl]

theorem mainsOnly (primed : s.primed = true) : (wupsPowerEventTick s x).2.filter isMains = mainsSent s x := by
  have others : ∀ (p : Prop) [Decidable p] (e : PowerEvent), isMains e = false → (if p then [e] else []).filter isMains = [] := by
    intro p _ e other
    split <;> simp [other]
  have own : (mainsSent s x).filter isMains = mainsSent s x := by
    unfold mainsSent
    split
    · split <;> rfl
    · rfl
  rw [tickEvents s x primed,List.filter_append,List.filter_append,List.filter_append,own,others _ _ rfl,
    others _ _ rfl,others _ _ rfl]
  simp

end Tick

def Sample.faultBit (x : Sample) (bit : Nat) : Bool := x.faults.toBitVec.getLsbD bit

theorem newBit (a b : UInt16) : a &&& ~~~b ≠ 0 ↔ ∃ bit, a.toBitVec.getLsbD bit = true ∧ b.toBitVec.getLsbD bit = false := by
  constructor
  · intro some_
    by_contra none
    refine some_ (UInt16.toBitVec_inj.mp (BitVec.eq_of_getLsbD_eq fun bit inside => ?_))
    cases here : a.toBitVec.getLsbD bit with
    | false => simp [here]
    | true =>
      have both : b.toBitVec.getLsbD bit = true := by
        by_contra off
        exact none ⟨bit,here,by simpa using off⟩
      simp [here,both]
  · rintro ⟨bit,on,off⟩ zero
    have inside : bit < 16 := by
      by_contra beyond
      rw [BitVec.getLsbD_of_ge _ _ (Nat.not_lt.mp beyond)] at on
      exact Bool.false_ne_true on
    have bits := congrArg (fun w : UInt16 => w.toBitVec.getLsbD bit) zero
    simp only [UInt16.toBitVec_and,UInt16.toBitVec_not,BitVec.getLsbD_and,BitVec.getLsbD_not,on,off,inside] at bits
    simp at bits

section Run
variable (samples : List Sample)

abbrev before (n : Nat) : Evt := stateAt wupsPowerEventTick .boot samples n

def sent (n : Nat) : List PowerEvent := ((outs wupsPowerEventTick .boot samples)[n]?).getD []

def mainsEvents : List PowerEvent := (outs wupsPowerEventTick .boot samples).flatten.filter isMains

def Alternates : Bool → List PowerEvent → Prop
  | _, [] => True
  | present, e::rest => e = (if present then .mainsLost else .mainsRestored) ∧ Alternates (!present) rest

/-- The bit comes up at sample `i`, behind the priming one. -/
def Rises (bit i : Nat) : Prop :=
  ∃ n x y, i = n+1 ∧ samples[n]? = some x ∧ samples[i]? = some y ∧ x.faultBit bit = false ∧ y.faultBit bit = true

def Held (bit i j : Nat) : Prop :=
  i ≤ j ∧ ∀ n, i ≤ n → n ≤ j → ∃ x, samples[n]? = some x ∧ x.faultBit bit = true

/-- The bit comes up at sample `i` and stays for at least 30 s. -/
def Lasts (bit i : Nat) : Prop :=
  Rises samples bit i ∧ ∃ k x y, Held samples bit i k ∧ samples[i]? = some x ∧ samples[k]? = some y ∧
    x.seconds + 30 ≤ y.seconds

structure PowerEvents : Prop where
  mains : Alternates (before samples 1).mains (mainsEvents samples)
  spaced : ∀ i j x y, i < j → samples[i]? = some x → samples[j]? = some y →
    .fault ∈ sent samples i → .fault ∈ sent samples j → x.seconds + 30 ≤ y.seconds
  reported : ∀ bit i, Lasts samples bit i → ∃ j, Held samples bit i j ∧ .fault ∈ sent samples j
  lows : ∀ i j, i < j → .chargeLow ∈ sent samples i → .chargeLow ∈ sent samples j →
    ∃ k x, i < k ∧ k < j ∧ samples[k]? = some x ∧
      (x.vbatVoltageMv > pwrEvtVbatRearmMv ∨ .mainsRestored ∈ sent samples k)

/-- While a lasting fault is set, from its rise on, some fault bit rises at an open limiter. -/
def FaultsHeard : Prop :=
  ∀ bit i, Lasts samples bit i →
    ∃ j x other, Held samples bit i j ∧ samples[j]? = some x ∧ Rises samples other j ∧ LimiterOpen (before samples j) x

variable {samples} {n : Nat} {x : Sample}

theorem sentAt (here : samples[n]? = some x) : sent samples n = (wupsPowerEventTick (before samples n) x).2 := by
  rw [sent,outAt,here]
  rfl

theorem sentBeyond (none : samples[n]? = none) : sent samples n = [] := by
  rw [sent,outAt,none]
  rfl

theorem sentInside {e : PowerEvent} (mem : e ∈ sent samples n) :
    e ∈ (outs wupsPowerEventTick .boot samples).flatten := by
  unfold sent at mem
  cases here : (outs wupsPowerEventTick .boot samples)[n]? with
  | none => rw [here] at mem; exact absurd mem List.not_mem_nil
  | some es => rw [here] at mem; exact List.mem_flatten.mpr ⟨es,List.mem_of_getElem? here,mem⟩

theorem beforeNext (here : samples[n]? = some x) : before samples (n+1) = (wupsPowerEventTick (before samples n) x).1 :=
  stateNext wupsPowerEventTick .boot here

theorem sampleAt {i : Nat} (here : samples[n]? = some x) (earlier : i < n) : ∃ y, samples[i]? = some y :=
  ⟨_,List.getElem?_eq_getElem (earlier.trans (List.getElem?_eq_some_iff.mp here).1)⟩

theorem afterPriming (here : samples[n]? = some x) : (before samples (n+1)).primed = true := by
  rw [beforeNext here]
  exact (tickFields _ x).1

theorem primedAt (here : samples[n+1]? = some x) : (before samples (n+1)).primed = true := by
  obtain ⟨y,there⟩ := sampleAt here (Nat.lt_succ_self n)
  exact afterPriming there

theorem bootSilent (here : samples[0]? = some x) : sent samples 0 = [] := by
  rw [sentAt here]
  rfl

theorem newFaultRises (here : samples[n+1]? = some x) :
    NewFault (before samples (n+1)) x ↔ ∃ bit, Rises samples bit (n+1) := by
  obtain ⟨y,there⟩ := sampleAt here (Nat.lt_succ_self n)
  rw [NewFault,newBit,beforeNext there,(tickFields _ y).2.2]
  constructor
  · rintro ⟨bit,on,off⟩
    exact ⟨bit,n,y,x,rfl,there,here,off,on⟩
  · rintro ⟨bit,m,a,b,same,at_,at',off,on⟩
    cases Nat.succ.inj same
    cases Option.some.inj (there.symm.trans at_)
    cases Option.some.inj (here.symm.trans at')
    exact ⟨bit,on,off⟩

theorem faultAt (here : samples[n]? = some x) :
    .fault ∈ sent samples n ↔ (∃ bit, Rises samples bit n) ∧ LimiterOpen (before samples n) x := by
  cases n with
  | zero =>
    rw [bootSilent here]
    refine iff_of_false List.not_mem_nil ?_
    rintro ⟨⟨bit,m,-,-,same,-⟩,-⟩
    exact nomatch same
  | succ n => rw [sentAt here,faultSent _ x (primedAt here),newFaultRises here]

theorem faultPrimed {i : Nat} (mem : PowerEvent.fault ∈ sent samples i) :
    ∃ y, samples[i]? = some y ∧ (before samples i).primed = true := by
  cases here : samples[i]? with
  | none => rw [sentBeyond here] at mem; exact absurd mem List.not_mem_nil
  | some y =>
    cases i with
    | zero => rw [bootSilent here] at mem; exact absurd mem List.not_mem_nil
    | succ i => exact ⟨y,rfl,primedAt here⟩

theorem lastFault {i : Nat} (earlier : i < n) (inside : n ≤ samples.length) (mem : .fault ∈ sent samples i) :
    ∃ l y, i ≤ l ∧ l < n ∧ samples[l]? = some y ∧ .fault ∈ sent samples l ∧
      (before samples n).lastFaultS = y.uptimeSec := by
  obtain ⟨z,-,primed⟩ := faultPrimed mem
  induction n, earlier using Nat.le_induction with
  | base =>
    obtain ⟨y,here,primed⟩ := faultPrimed mem
    refine ⟨i,y,Nat.le_refl _,Nat.lt_succ_self _,here,mem,?_⟩
    have sends := (faultSent _ y primed).mp (by rw [← sentAt here]; exact mem)
    rw [beforeNext here,tickLastFault _ y primed,if_pos sends]
  | succ n late ih =>
    obtain ⟨l,y,from_,to_,there,sends,last⟩ := ih (Nat.le_of_succ_le inside)
    have here : samples[n]? = some (samples[n]) := List.getElem?_eq_getElem (Nat.lt_of_succ_le inside)
    have awake : (before samples n).primed = true := by
      cases n with
      | zero => exact absurd late (Nat.not_succ_le_zero i)
      | succ n => exact primedAt here
    by_cases again : NewFault (before samples n) samples[n] ∧ LimiterOpen (before samples n) samples[n]
    · refine ⟨n,samples[n],Nat.le_of_succ_le late,Nat.lt_succ_self n,here,?_,?_⟩
      · rw [sentAt here]
        exact (faultSent _ _ awake).mpr again
      · rw [beforeNext here,tickLastFault _ _ awake,if_pos again]
    · exact ⟨l,y,from_,Nat.lt_succ_of_lt to_,there,sends,by
        rw [beforeNext here,tickLastFault _ _ awake,if_neg again,last]⟩

theorem spaced (clock : samples.Pairwise (fun a b => a.seconds ≤ b.seconds)) {i j : Nat} {y : Sample} (earlier : i < j)
    (first : samples[i]? = some x) (second : samples[j]? = some y) (sends : .fault ∈ sent samples i)
    (again : .fault ∈ sent samples j) : x.seconds + 30 ≤ y.seconds := by
  have inside := (List.getElem?_eq_some_iff.mp second).1
  obtain ⟨l,z,from_,to_,there,-,last⟩ := lastFault earlier inside.le sends
  have ordered : ∀ {a b : Nat} {u v : Sample}, a ≤ b → samples[a]? = some u → samples[b]? = some v →
      u.seconds ≤ v.seconds := by
    intro a b u v le at_ at'
    rcases Nat.eq_or_lt_of_le le with rfl | less
    · rw [Option.some.inj (at_.symm.trans at')]
    · obtain ⟨wide,rfl⟩ := List.getElem?_eq_some_iff.mp at_
      obtain ⟨wide',rfl⟩ := List.getElem?_eq_some_iff.mp at'
      exact List.pairwise_iff_getElem.mp clock a b wide wide' less
  have open_ := ((faultAt second).mp again).2
  rw [LimiterOpen,last] at open_
  have gap : 30 ≤ (y.uptimeSec - z.uptimeSec).toNat := UInt32.le_iff_toNat_le.mp open_
  have low := ordered from_ first there
  have high := ordered to_.le there second
  rw [UInt32.toNat_sub] at gap
  simp only [Sample.uptimeSec,UInt32.toNat_ofNat'] at gap
  omega

theorem restoredAt (here : samples[n]? = some x) (primed : (before samples n).primed = true)
    (back : mainsOf (before samples n) x = true) (was : (before samples n).mains = false) :
    .mainsRestored ∈ sent samples n := by
  rw [sentAt here,tickEvents _ x primed,mainsSent,was,back]
  simp

theorem lowLatched {i : Nat} (earlier : i < n) (inside : n ≤ samples.length) (mem : .chargeLow ∈ sent samples i) :
    (before samples n).primed = true ∧ ((before samples n).battLow = true ∨
      ∃ k x, i < k ∧ k < n ∧ samples[k]? = some x ∧
        (x.vbatVoltageMv > pwrEvtVbatRearmMv ∨ .mainsRestored ∈ sent samples k)) := by
  induction n, earlier using Nat.le_induction with
  | base =>
    have here : samples[i]? = some samples[i] := List.getElem?_eq_getElem (Nat.lt_of_succ_le inside)
    have awake : (before samples i).primed = true := by
      cases i with
      | zero => rw [bootSilent here] at mem; exact absurd mem List.not_mem_nil
      | succ i => exact primedAt here
    have low := (lowSent _ _ awake).mp (by rw [← sentAt here]; exact mem)
    refine ⟨afterPriming here,.inl ?_⟩
    rw [beforeNext here,tickBatt _ _ awake,decide_eq_true low,Bool.true_or]
  | succ n late ih =>
    have here : samples[n]? = some samples[n] := List.getElem?_eq_getElem (Nat.lt_of_succ_le inside)
    refine ⟨afterPriming here,?_⟩
    obtain ⟨awake,latched | ⟨k,y,after,upTo,there,released⟩⟩ := ih (Nat.le_of_succ_le inside)
    · rw [beforeNext here,tickBatt _ _ awake,latched]
      by_cases rearmed : samples[n].vbatVoltageMv > pwrEvtVbatRearmMv
      · exact .inr ⟨n,samples[n],late,Nat.lt_succ_self n,here,.inl rearmed⟩
      cases back : mainsOf (before samples n) samples[n] with
      | false => exact .inl (by simp [rearmed])
      | true =>
        cases was : (before samples n).mains with
        | true => exact .inl (by simp [rearmed])
        | false => exact .inr ⟨n,samples[n],late,Nat.lt_succ_self n,here,.inr (restoredAt here awake back was)⟩
    · exact .inr ⟨k,y,after,Nat.lt_succ_of_lt upTo,there,released⟩

theorem lowsSeparated {i j : Nat} (earlier : i < j) (first : .chargeLow ∈ sent samples i)
    (second : .chargeLow ∈ sent samples j) :
    ∃ k x, i < k ∧ k < j ∧ samples[k]? = some x ∧
      (x.vbatVoltageMv > pwrEvtVbatRearmMv ∨ .mainsRestored ∈ sent samples k) := by
  cases here : samples[j]? with
  | none => rw [sentBeyond here] at second; exact absurd second List.not_mem_nil
  | some y =>
    obtain ⟨primed,latched | released⟩ := lowLatched earlier (List.getElem?_eq_some_iff.mp here).1.le first
    · rw [sentAt here] at second
      have low := (lowSent _ y primed).mp second
      exact absurd (latched.symm.trans low.2.1) nofun
    · exact released

theorem alternatesFrom {s : Evt} (primed : s.primed = true) (rest : List Sample) :
    Alternates s.mains ((outs wupsPowerEventTick s rest).flatten.filter isMains) := by
  induction rest generalizing s with
  | nil => trivial
  | cons x rest ih =>
    obtain ⟨awake,mains,-⟩ := tickFields s x
    have later := ih awake
    rw [outsCons,List.flatten_cons,List.filter_append,mainsOnly s x primed]
    rw [mains] at later
    unfold mainsSent
    by_cases same : mainsOf s x = s.mains
    · rw [if_neg (not_not.mpr same),← same]
      exact later
    · rw [if_pos same]
      cases present : mainsOf s x with
      | true =>
        have was : s.mains = false := by simpa [present] using same
        rw [present] at later
        rw [was]
        exact ⟨rfl,later⟩
      | false =>
        have was : s.mains = true := by simpa [present] using same
        rw [present] at later
        rw [was]
        exact ⟨rfl,later⟩

theorem mainsAlternate (samples : List Sample) : Alternates (before samples 1).mains (mainsEvents samples) := by
  cases samples with
  | nil => trivial
  | cons x rest => exact alternatesFrom (tickFields .boot x).1 rest

end Run

theorem powerEventsExactly (samples : List Sample) (clock : samples.Pairwise (fun a b => a.seconds ≤ b.seconds)) :
    PowerEvents samples ↔ FaultsHeard samples := by
  constructor
  · intro events bit i lasts
    obtain ⟨j,held,sends⟩ := events.reported bit i lasts
    obtain ⟨x,here,-⟩ := held.2 j held.1 (Nat.le_refl j)
    obtain ⟨⟨other,rises⟩,open_⟩ := (faultAt here).mp sends
    exact ⟨j,x,other,held,here,rises,open_⟩
  · intro heard
    refine ⟨mainsAlternate samples,fun i j x y earlier at_ at' sends again => spaced clock earlier at_ at' sends again,
      fun bit i lasts => ?_,fun i j earlier first second => lowsSeparated earlier first second⟩
    obtain ⟨j,x,other,held,here,rises,open_⟩ := heard bit i lasts
    exact ⟨j,held,(faultAt here).mpr ⟨⟨other,rises⟩,open_⟩⟩

/-! A short circuit of the output from the sixth sample on, on mains. -/

def shorted (start : Nat) : List Sample :=
  (List.range 60).map fun n => ⟨start+n,12000,0,if 5 ≤ n then statusScpBit else 0,0,8000⟩

theorem shortedAt {start n : Nat} {x : Sample} (here : (shorted start)[n]? = some x) :
    n < 60 ∧ x = ⟨start+n,12000,0,if 5 ≤ n then statusScpBit else 0,0,8000⟩ := by
  obtain ⟨inside,rfl⟩ := List.getElem?_eq_some_iff.mp here
  exact ⟨by simpa [shorted] using inside,by simp [shorted]⟩

theorem shortedSample (start : Nat) {n : Nat} (inside : n < 60) :
    (shorted start)[n]? = some ⟨start+n,12000,0,if 5 ≤ n then statusScpBit else 0,0,8000⟩ := by
  simp [shorted,inside]

theorem shortedRises {start bit i : Nat} (rises : Rises (shorted start) bit i) : i = 5 := by
  obtain ⟨n,x,y,rfl,at_,at',off,on⟩ := rises
  obtain ⟨-,rfl⟩ := shortedAt at_
  obtain ⟨-,rfl⟩ := shortedAt at'
  by_contra other
  have same : (5 ≤ n) = (5 ≤ n+1) := propext ⟨fun h => by omega,fun h => by omega⟩
  simp only [Sample.faultBit,Sample.faults,same] at off on
  exact Bool.false_ne_true (off.symm.trans on)

theorem shortedBit (start n : Nat) :
    Sample.faultBit ⟨start+n,12000,0,if 5 ≤ n then statusScpBit else 0,0,8000⟩ 8 = decide (5 ≤ n) := by
  simp only [Sample.faultBit,Sample.faults]
  by_cases set : 5 ≤ n
  · simp only [set,if_true]
    decide
  · simp only [set,if_false]
    decide

theorem shortedLasts (start : Nat) : Lasts (shorted start) 8 5 := by
  refine ⟨⟨4,_,_,rfl,shortedSample start (by decide),shortedSample start (by decide),shortedBit start 4,shortedBit start 5⟩,
    35,_,_,⟨by decide,fun n from_ upTo => ⟨_,shortedSample start (by omega),?_⟩⟩,shortedSample start (by decide),
    shortedSample start (by decide),?_⟩
  · rw [shortedBit,decide_eq_true from_]
  · exact Nat.le_refl (start+35)

theorem shortedClock (start : Nat) : (shorted start).Pairwise (fun a b => a.seconds ≤ b.seconds) := by
  refine List.pairwise_map.mpr (List.pairwise_lt_range.imp fun less => ?_)
  simp only
  omega

/-- Once the device is up for 30 s, the short circuit is reported. -/
theorem lateShortReported : PowerEvents (shorted 40) := by
  refine (powerEventsExactly (shorted 40) (shortedClock 40)).mpr fun bit i lasts => ?_
  cases shortedRises lasts.1
  obtain ⟨-,k,-,-,held,-,-,-⟩ := lasts
  refine ⟨5,_,8,⟨Nat.le_refl 5,fun n from_ upTo => held.2 n from_ (upTo.trans held.1)⟩,shortedSample 40 (by decide),
    (shortedLasts 40).1,?_⟩
  decide +kernel

/-- In the first 30 s it never is. -/
theorem earlyShortUnreported :
    (shorted 5).Pairwise (fun a b => a.seconds ≤ b.seconds) ∧ ¬PowerEvents (shorted 5) := by
  have silent : (outs wupsPowerEventTick .boot (shorted 5)).flatten = [] := by decide +kernel
  refine ⟨shortedClock 5,fun events => ?_⟩
  obtain ⟨j,-,sends⟩ := events.reported 8 5 (shortedLasts 5)
  have mem := sentInside sends
  rw [silent] at mem
  exact absurd mem List.not_mem_nil

end Web3PiUps.Ch32xPowerEvents
