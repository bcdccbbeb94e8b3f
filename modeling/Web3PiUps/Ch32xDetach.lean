import Web3PiUps.Ch32xPdSteps

/-! Unplugging. Samples of the CC pins are counted on the run itself; the port's own
counter agrees with the count, so a fifth sample that contradicts `Connected` is the one
that `PD_Det_Proc` acts on. -/
namespace Web3PiUps.Ch32xDetach
open Ch32xPdSource Ch32xMainLoop Ch32xPdSteps StepMachine

section Runs
variable (ops : List Op)

/-- What `PD_Det_Proc` sees in the step at `n`, if it runs there. -/
def sampleAt (n : Nat) : Option Bool :=
  match (at_ ops n).place, ops[n]? with
  | .detect, some (.run hw) =>
    if (at_ ops n).port.detTimer+(at_ ops n).tmrMsDlt > 4 then some (pdDetect (at_ ops n).port hw.cc ≠ 0) else none
  | _, _ => none

/-- The consecutive samples `sink` up to `n` that contradict `Connected`. -/
def streak (sink : Bool) : Nat → Nat
  | 0 => 0
  | n+1 =>
    if (at_ ops n).port.connected = sink then 0 else
    match sampleAt ops n with
    | none => streak sink n
    | some seen => if seen = sink then streak sink n+1 else 0

/-- The fifth such sample in a row is taken at `n`. -/
def FifthAt (sink : Bool) (n : Nat) : Prop :=
  sampleAt ops n = some sink ∧ (at_ ops n).port.connected = !sink ∧ streak ops sink n = 4

/-- Between the fifth no-sink sample at `n` and `k` nothing turns the output on by right. -/
def Unplugged (n k : Nat) : Prop := FifthAt ops false n ∧ n < k ∧ ∀ j, n < j → j < k →
  ¬ AttachedAt ops j ∧ ¬ CommandAt ops j .enable ∧ ¬ CommandAt ops j .cycle

/-- The runs whose unplugged port is left in peace: it was not stopped from detecting the
detach, no power cycle was under way, and afterwards no Accept is acknowledged, no Hard
Reset is sent, and none is taken in once `STA_DISCONNECT` has been served. -/
structure Safe : Prop where
  checking : ∀ n, FifthAt ops false n → (at_ ops n).port.stopDetChk = false
  cycleOver : ∀ n, FifthAt ops false n → (at_ ops n).powercycleWait = false
  noAccept : ∀ n k, Unplugged ops n k → ¬ AcceptedAt ops k
  noHardResetSent : ∀ n k, Unplugged ops n k → ¬ ServedAt ops k .txHrst
  noHardReset : ∀ n k, Unplugged ops n k → ops[k]? = some .hardReset →
    (at_ ops k).port.state ≠ .disconnect → (at_ ops k).port.listening = false

/-- The output is off and the port offers itself again, once `PD_Main_Proc` has switched
after the fifth no-sink sample. -/
def DetachedOff : Prop := ∀ n m k st, Unplugged ops n k → n < m → m < k → ServedAt ops m st →
  Off (at_ ops k).port.rail ∧ (at_ ops k).port.ccPd = false ∧
  (FifthAt ops true k → (at_ ops (k+1)).port.state = .sinkConnect ∧
    (at_ ops (k+1)).port.connected = true ∧ At5V (at_ ops (k+1)).port.rail)

end Runs

structure Counting (l : Loop) : Prop where
  few : l.port.detCnt < 5
  waiting : l.port.state = .disconnect →
    l.place = .service .first ∧ l.port.connected = false ∧ l.port.detCnt = 0

theorem zeroFew : (0 : UInt8) < 5 := by decide

theorem sampledCounting {cc : CcLines} {p p' : Port} {evts : List Evt} (h : Sampled cc p p' evts)
    (open_ : p.state ≠ .disconnect) :
    p'.detCnt < 5 ∧ (p'.state = .disconnect → p'.connected = false ∧ p'.detCnt = 0) := by
  cases h with
  | present | absent | lost | ignored => exact ⟨zeroFew,fun closed => absurd closed open_⟩
  | missing _ _ early | found _ _ early => exact ⟨early,fun closed => absurd closed open_⟩
  | detached => exact ⟨zeroFew,fun _ => ⟨rfl,rfl⟩⟩
  | attached => exact ⟨zeroFew,nofun⟩

theorem switchedCounting {dlt : UInt8} {acked : Bool} {p p' : Port} {evts : List Evt}
    (h : Switched dlt acked p p' evts) (few : p.detCnt < 5) : p'.detCnt < 5 ∧ p'.state ≠ .disconnect := by
  cases h with
  | disconnect => exact ⟨zeroFew,nofun⟩
  | still state => exact ⟨few,fun closed => by simp [closed] at state⟩
  | wait open_ => exact ⟨few,open_⟩
  | softRst => exact ⟨few,by dsimp only; split <;> nofun⟩
  | srcCapLost state => exact ⟨few,fun closed => nomatch state.symm.trans closed⟩
  | ready | srcCap | timeout | accepted | acceptLost | psRdy | psRdyLost | hrst | vdm =>
    exact ⟨few,nofun⟩

theorem placeAfterDetect (l : Loop) (hw : Hw) (place : l.place = .detect) :
    (step l (.run hw)).1.place = .service .first := by rw [detectStep hw place]

theorem didCounting {l : Loop} {op : Op} {p' : Port} {evts : List Evt} (h : Did l op p' evts)
    (port : (step l op).1.port = p') (c : Counting l) : Counting (step l op).1 := by
  have elsewhere : l.place ≠ .service .first → l.port.state ≠ .disconnect :=
    fun other closed => other (c.waiting closed).1
  have kept : (∀ hw, op = .run hw → l.place ≠ .service .first) → p'.detCnt = l.port.detCnt →
      p'.connected = l.port.connected → (p'.state = .disconnect → l.port.state = .disconnect) →
      Counting (step l op).1 := by
    intro other count joined back
    refine ⟨port ▸ count ▸ c.few,?_⟩
    rw [port,count,joined]
    intro closed
    obtain ⟨place,rest⟩ := c.waiting (back closed)
    have passive : ∀ hw, op ≠ .run hw := fun hw ran => other hw ran place
    exact ⟨(passiveKeeps l passive).1.trans place,rest⟩
  have opened : p'.detCnt < 5 → p'.state ≠ .disconnect → Counting (step l op).1 :=
    fun few open_ => ⟨port ▸ few,fun closed => absurd (port ▸ closed) open_⟩
  cases h with
  | quiet op apart => exact kept (fun hw ran => (apart hw ran).2.1 .first) rfl rfl id
  | message buf =>
    obtain ⟨_,_,_,eq⟩ := messageKeeps buf l.port
    rw [eq] at kept
    exact kept nofun rfl rfl id
  | hardReset =>
    obtain ⟨_,_,eq⟩ := hardResetKeeps l.port
    rw [eq] at kept; exact kept nofun rfl rfl id
  | enable hw place wanted => exact opened c.few nofun
  | disable hw power place wanted other => exact opened c.few (elsewhere (place ▸ nofun))
  | cycleOn hw place waiting done => exact opened c.few nofun
  | detTimer hw place early => exact opened c.few (elsewhere (place ▸ nofun))
  | detProc hw place due =>
    obtain ⟨few,waiting⟩ := sampledCounting (detProcSampled hw.cc { l.port with detTimer := 0 })
      (elsewhere (place ▸ nofun))
    refine ⟨port ▸ few,?_⟩
    rw [port]
    exact fun closed => ⟨placeAfterDetect l hw place,waiting closed⟩
  | switch s hw place =>
    obtain ⟨few,open_⟩ := switchedCounting (switchSwitched (l.timMsCnt-l.serviceLast) hw.acked l.port) c.few
    exact opened few open_
  | dispatch s hw place waiting =>
    have same := answered (dispatchDispatched hw.acked l.port)
    exact opened (same.detCnt ▸ c.few) (same.open_ (elsewhere (place ▸ nofun)))
  | tail s hw place => exact opened c.few (elsewhere (place ▸ nofun))
  | tps hw place => exact opened c.few (elsewhere (place ▸ nofun))

theorem countingAt (ops : List Op) (n : Nat) : Counting (at_ ops n) :=
  keepsBetween step boot ops (m := 0) ⟨zeroFew,nofun⟩ (Nat.zero_le n)
    (fun k op _ _ _ before => didCounting (stepDid (at_ ops k) op) rfl before)

theorem switchedUnsampled {dlt : UInt8} {acked : Bool} {p p' : Port} {evts : List Evt}
    (h : Switched dlt acked p p' evts) (closed : p.state = .disconnect → p.connected = false ∧ p.detCnt = 0) :
    p'.connected = p.connected ∧ p'.detCnt = p.detCnt := by
  cases h with
  | disconnect state =>
    obtain ⟨apart,zero⟩ := closed state
    exact ⟨apart.symm,zero.symm⟩
  | still | wait | ready | srcCap | srcCapLost | timeout | accepted | acceptLost | psRdy | psRdyLost | softRst
    | hrst | vdm => exact ⟨rfl,rfl⟩

theorem didUnsampled {l : Loop} {op : Op} {p' : Port} {evts : List Evt} (h : Did l op p' evts)
    (c : Counting l) (early : ∀ hw, op = .run hw → l.place = .detect → ¬ l.port.detTimer+l.tmrMsDlt > 4) :
    p'.connected = l.port.connected ∧ p'.detCnt = l.port.detCnt := by
  cases h with
  | quiet | enable | disable | cycleOn | detTimer | tail | tps => exact ⟨rfl,rfl⟩
  | message buf =>
    obtain ⟨_,_,_,eq⟩ := messageKeeps buf l.port
    rw [eq]; exact ⟨rfl,rfl⟩
  | hardReset =>
    obtain ⟨_,_,eq⟩ := hardResetKeeps l.port
    rw [eq]; exact ⟨rfl,rfl⟩
  | detProc hw place due => exact absurd due (early hw rfl place)
  | switch s hw place =>
    exact switchedUnsampled (switchSwitched (l.timMsCnt-l.serviceLast) hw.acked l.port)
      (fun closed => (c.waiting closed).2)
  | dispatch s hw place waiting =>
    have same := answered (dispatchDispatched hw.acked l.port)
    exact ⟨same.connected,same.detCnt⟩

theorem countedFew {count : UInt8} (few : count < 5) : (count+1).toNat = count.toNat+1 := by
  rw [UInt8.toNat_add]
  have small : count.toNat < 5 := UInt8.lt_iff_toNat_lt.mp few
  exact Nat.mod_eq_of_lt (by show count.toNat+1 < 256; omega)

/-- After a sample, for the count that contradicts the new `Connected`. -/
theorem sampledStreak {cc : CcLines} {p p' : Port} {evts : List Evt} {seen : Bool} (streak : Bool → Nat)
    (h : Sampled cc p p' evts) (present : pdDetect p cc ≠ 0 ↔ seen = true) (few : p.detCnt < 5)
    (counted : streak (!p.connected) = p.detCnt.toNat) :
    (if p.connected = !p'.connected then 0 else
      if seen = !p'.connected then streak (!p'.connected)+1 else 0) =
      p'.detCnt.toNat := by
  cases h with
  | present joined some_ => simp [joined,present.mp some_]
  | missing joined none_ early =>
    have unseen : seen = false := Bool.eq_false_iff.mpr (fun yes => present.mpr yes none_)
    rw [joined] at counted
    simp [joined,unseen,countedFew few,← counted]
  | detached joined | lost joined => simp [joined]
  | absent apart none_ =>
    have unseen : seen = false := Bool.eq_false_iff.mpr (fun yes => present.mpr yes none_)
    simp [apart,unseen]
  | found apart some_ early =>
    rw [apart] at counted
    simp [apart,present.mp some_,countedFew few,← counted]
  | attached ccSel apart | ignored apart => simp [apart,vbusSet5V]

section Runs
variable {ops : List Op} {n : Nat}

theorem sampledHere {seen : Bool} (h : sampleAt ops n = some seen) : ∃ hw, ops[n]? = some (.run hw) ∧
    (at_ ops n).place = .detect ∧ (pdDetect (at_ ops n).port hw.cc ≠ 0 ↔ seen = true) ∧
    Sampled hw.cc { (at_ ops n).port with detTimer := 0 } (at_ ops (n+1)).port (evtsAt ops n) := by
  unfold sampleAt at h
  split at h
  · next hw place here =>
    by_cases due : (at_ ops n).port.detTimer+(at_ ops n).tmrMsDlt > 4
    · rw [if_pos due] at h
      refine ⟨hw,here,place,by rw [← Option.some.inj h]; exact decide_eq_true_iff.symm,?_⟩
      rw [atNext here,evtsHere here]
      rw [detProcStep hw place due]
      exact detProcSampled hw.cc _
    · rw [if_neg due] at h
      exact nomatch h
  · exact nomatch h

theorem unsampled (untaken : sampleAt ops n = none) :
    (at_ ops (n+1)).port.connected = (at_ ops n).port.connected ∧
    (at_ ops (n+1)).port.detCnt = (at_ ops n).port.detCnt := by
  cases here : ops[n]? with
  | none => rw [show at_ ops (n+1) = at_ ops n from stateEnd step boot here]; exact ⟨rfl,rfl⟩
  | some op =>
    refine didUnsampled (didAt here) (countingAt ops n) (fun hw ran place due => ?_)
    simp only [sampleAt,place,here,ran,if_pos due] at untaken
    exact nomatch untaken

theorem streakCounted (ops : List Op) (n : Nat) :
    streak ops (!(at_ ops n).port.connected) n = (at_ ops n).port.detCnt.toNat := by
  induction n with
  | zero => rfl
  | succ n ih =>
    have few := (countingAt ops n).few
    rw [streak]
    cases taken : sampleAt ops n with
    | none =>
      obtain ⟨joined,count⟩ := unsampled taken
      rw [joined,count,if_neg (by simp),ih]
    | some seen =>
      obtain ⟨hw,here,place,present,sampled⟩ := sampledHere taken
      have next := sampledStreak (fun sink => streak ops sink n) sampled present few ih
      exact next

theorem fifthCount {sink : Bool} (fifth : FifthAt ops sink n) : (at_ ops n).port.detCnt+1 ≥ 5 := by
  have counted := streakCounted ops n
  rw [fifth.2.1,Bool.not_not,fifth.2.2] at counted
  have four : (at_ ops n).port.detCnt = 4 := UInt8.toNat_inj.mp counted.symm
  rw [four]; decide

end Runs

structure Leaving (l : Loop) : Prop where
  place : l.place = .service .first
  state : l.port.state = .disconnect
  connected : l.port.connected = false
  cycleOver : l.powercycleWait = false

structure Parked (l : Loop) : Prop where
  connected : l.port.connected = false
  checking : l.port.stopDetChk = false
  source : l.port.ccPd = false
  open_ : l.port.state ≠ .disconnect
  cycleOver : l.powercycleWait = false
  off : Off l.port.rail

theorem leavingServed {l : Loop} (h : Leaving l) (hw : Hw) : Parked (step l (.run hw)).1 := by
  have port := (disconnectStep hw h.place h.state).1
  have wait : (step l (.run hw)).1.powercycleWait = l.powercycleWait := by
    rw [serviceStep hw h.place]
  refine ⟨?_,?_,?_,?_,wait.trans h.cycleOver,?_⟩
  all_goals rw [port]
  · rfl
  · rfl
  · rfl
  · nofun
  · exact offDisabled l.port

theorem leavingKept {l : Loop} (h : Leaving l) {op : Op} (apart : ∀ hw, op ≠ .run hw) :
    Leaving (step l op).1 := by
  obtain ⟨place,wait,state,joined,-⟩ := passiveKeeps l apart
  exact ⟨place.trans h.place,state.trans h.state,joined.trans h.connected,wait.trans h.cycleOver⟩

/-- The step turns nothing on, sends no Hard Reset and takes none in. -/
structure Peaceful (l : Loop) (op : Op) : Prop extends Unlit l op where
  noCycle : ∀ hw, op = .run hw → l.place = .drain → hw.power ≠ some .cycle
  noHardResetSent : ∀ hw s, op = .run hw → l.place = .service s → l.port.state ≠ .txHrst
  noHardReset : op = .hardReset → l.port.listening = false

structure Apart (p : Port) : Prop where
  connected : p.connected = false
  checking : p.stopDetChk = false
  source : p.ccPd = false
  open_ : p.state ≠ .disconnect

theorem switchedApart {dlt : UInt8} {acked : Bool} {p p' : Port} {evts : List Evt}
    (h : Switched dlt acked p p' evts) (a : Apart p) (peace : p.state ≠ .txHrst) : Apart p' := by
  obtain ⟨connected,checking,source,open_⟩ := a
  cases h with
  | disconnect state => exact absurd state open_
  | hrst state => exact absurd state peace
  | still | wait => exact ⟨connected,checking,source,open_⟩
  | srcCapLost state => exact ⟨connected,checking,source,open_⟩
  | softRst => exact ⟨connected,checking,source,by dsimp only; split <;> nofun⟩
  | ready => exact ⟨connected,rfl,source,nofun⟩
  | srcCap | timeout | accepted | acceptLost | psRdy | psRdyLost | vdm =>
    exact ⟨connected,checking,source,nofun⟩

theorem sampledApart {cc : CcLines} {p p' : Port} {evts : List Evt} (h : Sampled cc p p' evts) (a : Apart p)
    (noAttach : p'.connected = false) : Apart p' := by
  obtain ⟨connected,checking,source,open_⟩ := a
  cases h with
  | present joined | missing joined | detached joined | lost joined => exact nomatch joined.symm.trans connected
  | absent | found => exact ⟨connected,checking,source,open_⟩
  | attached | ignored => exact nomatch noAttach

theorem didApart {l : Loop} {op : Op} {p' : Port} {evts : List Evt} (h : Did l op p' evts)
    (port : (step l op).1.port = p') (a : Apart l.port) (cycleOver : l.powercycleWait = false)
    (peace : Peaceful l op) : Apart p' := by
  have kept : ∀ {q : Port}, q.connected = l.port.connected → q.stopDetChk = l.port.stopDetChk →
      q.ccPd = l.port.ccPd → q.state = l.port.state → Apart q := fun joined stopped source state =>
    ⟨joined.trans a.connected,stopped.trans a.checking,source.trans a.source,state ▸ a.open_⟩
  cases h with
  | quiet => exact a
  | message buf =>
    obtain ⟨_,_,_,eq⟩ := messageKeeps buf l.port
    rw [eq]; exact kept rfl rfl rfl rfl
  | hardReset =>
    rcases hardResetCases l.port with eq | ⟨listening,-⟩
    · rw [eq]; exact a
    · exact nomatch listening.symm.trans (peace.noHardReset rfl)
  | enable hw place wanted => exact absurd wanted (peace.noEnable hw rfl place)
  | cycleOn hw place waiting => exact nomatch waiting.symm.trans cycleOver
  | disable | detTimer | tail | tps => exact kept rfl rfl rfl rfl
  | detProc hw place due =>
    exact sampledApart (detProcSampled hw.cc { l.port with detTimer := 0 }) (kept rfl rfl rfl rfl)
      (port ▸ peace.noAttach hw rfl place a.connected)
  | switch s hw place =>
    exact switchedApart (switchSwitched (l.timMsCnt-l.serviceLast) hw.acked l.port) a
      (peace.noHardResetSent hw s rfl place)
  | dispatch s hw place waiting =>
    have same := answered (dispatchDispatched hw.acked l.port)
    exact ⟨same.connected.trans a.connected,same.stopDetChk.trans a.checking,same.ccPd.trans a.source,
      same.open_ a.open_⟩

theorem parkedStep {l : Loop} {op : Op} (h : Parked l) (peace : Peaceful l op) : Parked (step l op).1 := by
  obtain ⟨connected,checking,source,open_⟩ :=
    didApart (stepDid l op) rfl ⟨h.connected,h.checking,h.source,h.open_⟩ h.cycleOver peace
  refine ⟨connected,checking,source,open_,?_,offKept h.off peace.toUnlit⟩
  rcases waitCases l op with same | ⟨⟨hw,ran,place,wanted⟩,-⟩ | ⟨-,-,-,done⟩
  · exact same.trans h.cycleOver
  · exact absurd wanted (peace.noCycle hw ran place)
  · exact done

section Runs
variable {ops : List Op} {n k : Nat}

theorem windowPeaceful {op : Op} (safe : Safe ops) (h : Unplugged ops n k)
    (quiet : ¬ AttachedAt ops k ∧ ¬ CommandAt ops k .enable ∧ ¬ CommandAt ops k .cycle)
    (here : ops[k]? = some op) (parked : Parked (at_ ops k)) : Peaceful (at_ ops k) op := by
  obtain ⟨noAttach,noEnable,noCycle⟩ := quiet
  have noCycleOn : ¬ CycleOnAt ops k := fun on => nomatch on.2.1.symm.trans parked.cycleOver
  refine ⟨unlitAt here noEnable noAttach noCycleOn (safe.noAccept n k h),?_,?_,?_⟩
  · intro hw ran place wanted
    exact noCycle ⟨place,hw,ran ▸ here,wanted⟩
  · exact fun hw s ran place state => safe.noHardResetSent n k h ⟨⟨s,place⟩,⟨hw,ran ▸ here⟩,state⟩
  · exact fun ran => safe.noHardReset n k h (ran ▸ here) parked.open_

/-- The port counts as detached: `STA_DISCONNECT` is due, or was served. -/
def Gone (l : Loop) : Prop := Leaving l ∨ Parked l

theorem goneNext (safe : Safe ops) (fifth : FifthAt ops false n) : Leaving (at_ ops (n+1)) := by
  obtain ⟨hw,here,place,present,sampled⟩ := sampledHere fifth.1
  have cycleOver : (at_ ops (n+1)).powercycleWait = false := by
    have overNow := safe.cycleOver n fifth
    rw [atNext here]
    rcases waitCases (at_ ops n) (.run hw) with same | ⟨⟨-,-,drain,-⟩,-⟩ | ⟨-,-,-,done⟩
    · exact same.trans overNow
    · exact nomatch drain.symm.trans place
    · exact done
  have next : (at_ ops (n+1)).place = .service .first := by
    rw [atNext here]; exact placeAfterDetect _ hw place
  have none_ : pdDetect (at_ ops n).port hw.cc = 0 := by
    by_contra some_
    exact nomatch present.mp some_
  revert sampled
  generalize port : (at_ ops (n+1)).port = p',evtsAt ops n = evts
  intro sampled
  cases sampled with
  | present _ some_ => exact absurd none_ some_
  | missing _ _ early => exact absurd (fifthCount fifth) (UInt8.not_le.mpr early)
  | detached => exact ⟨next,by rw [port],by rw [port],cycleOver⟩
  | lost _ _ _ stopped => exact nomatch stopped.symm.trans (safe.checking n fifth)
  | absent apart | found apart | attached _ apart | ignored apart => exact nomatch apart.symm.trans fifth.2.1

theorem goneKept (safe : Safe ops) (fifth : FifthAt ops false n)
    (quiet : ∀ j, n < j → j < k → ¬ AttachedAt ops j ∧ ¬ CommandAt ops j .enable ∧ ¬ CommandAt ops j .cycle)
    {m : Nat} (low : n < m) (ordered : m ≤ k) (start : Gone (at_ ops m)) : Gone (at_ ops k) := by
  refine keepsBetween step boot ops start ordered (fun j op above below here before => ?_)
  have window : Unplugged ops n j := ⟨fifth,by omega,fun i a b => quiet i a (by omega)⟩
  rcases before with leaving | parked
  · cases op with
    | run hw => exact Or.inr (leavingServed leaving hw)
    | tick ms => exact Or.inl (leavingKept leaving nofun)
    | message buf => exact Or.inl (leavingKept leaving nofun)
    | hardReset => exact Or.inl (leavingKept leaving nofun)
  · exact Or.inr (parkedStep parked
      (windowPeaceful safe window (quiet j (by omega) below) here parked))

theorem parkedAt (safe : Safe ops) {m : Nat} (h : Unplugged ops n k) (low : n < m) (high : m < k)
    {st : Sta} (served : ServedAt ops m st) : Parked (at_ ops k) := by
  obtain ⟨fifth,-,quiet⟩ := h
  have gone : Gone (at_ ops m) := goneKept safe fifth (fun j a b => quiet j a (by omega)) (Nat.lt_succ_self n)
    low (Or.inl (goneNext safe fifth))
  have parked : Parked (at_ ops (m+1)) := by
    obtain ⟨⟨s,place⟩,⟨hw,here⟩,-⟩ := served
    rw [atNext here]
    rcases gone with leaving | parked
    · exact leavingServed leaving hw
    · have window : Unplugged ops n m := ⟨fifth,low,fun i a b => quiet i a (by omega)⟩
      exact parkedStep parked (windowPeaceful safe window (quiet m low high) here parked)
  refine keepsBetween step boot ops parked high (fun j op above below here before => ?_)
  have window : Unplugged ops n j := ⟨fifth,by omega,fun i a b => quiet i a (by omega)⟩
  exact parkedStep before (windowPeaceful safe window (quiet j (by omega) below) here before)

theorem fifthAttaches (parked : Parked (at_ ops k)) (fifth : FifthAt ops true k) :
    (at_ ops (k+1)).port.state = .sinkConnect ∧ (at_ ops (k+1)).port.connected = true ∧
    At5V (at_ ops (k+1)).port.rail := by
  obtain ⟨hw,here,place,present,sampled⟩ := sampledHere fifth.1
  have seen := present.mpr rfl
  revert sampled
  generalize (at_ ops (k+1)).port = p',evtsAt ops k = evts
  intro sampled
  cases sampled with
  | present joined | missing joined | detached joined | lost joined =>
    exact nomatch joined.symm.trans fifth.2.1
  | absent _ none_ => exact absurd none_ seen
  | found _ _ early => exact absurd (fifthCount fifth) (UInt8.not_le.mpr early)
  | attached ccSel => exact ⟨rfl,rfl,rfl,rfl,rfl⟩
  | ignored _ _ _ stopped => exact nomatch stopped.symm.trans parked.checking

theorem detachedOff (ops : List Op) (safe : Safe ops) : DetachedOff ops := by
  intro n m k st window low high served
  have parked := parkedAt safe window low high served
  exact ⟨parked.off,parked.source,fifthAttaches parked⟩

theorem fifthOf {sink : Bool} (taken : sampleAt ops n = some sink) (contrary : (at_ ops n).port.connected = !sink)
    (four : (at_ ops n).port.detCnt = 4) : FifthAt ops sink n := by
  refine ⟨taken,contrary,?_⟩
  have counted := streakCounted ops n
  rw [contrary,Bool.not_not,four] at counted
  exact counted

end Runs

def replugged : List Op := laps 5 5 sinkOnCc1 ++ laps 5 5 openPins ++ laps 5 5 sinkOnCc1

def undisturbed (l : Loop) (op : Op) : Bool :=
  !l.port.stopDetChk && !l.powercycleWait && l.port.state ≠ .txAccept && l.port.state ≠ .txHrst && op ≠ .hardReset

theorem undisturbedSafe {ops : List Op} (all : allSteps step undisturbed boot ops = true) : Safe ops := by
  have at_ : ∀ n op, ops[n]? = some op → undisturbed (at_ ops n) op = true := fun n op => allStepsAt step all
  simp only [undisturbed,Bool.and_eq_true,Bool.not_eq_true',decide_eq_true_eq] at at_
  refine ⟨?_,?_,?_,?_,?_⟩
  · intro n fifth
    obtain ⟨hw,here,-⟩ := sampledHere fifth.1
    exact (at_ n _ here).1.1.1.1
  · intro n fifth
    obtain ⟨hw,here,-⟩ := sampledHere fifth.1
    exact (at_ n _ here).1.1.1.2
  · rintro n k - ⟨op,here,s,hw,-,-,state,-⟩
    exact (at_ k op here).1.1.2 state
  · rintro n k - ⟨-,⟨hw,here⟩,state⟩
    exact (at_ k _ here).1.2 state
  · intro n k _ here
    exact absurd rfl (at_ k _ here).2

theorem repluggedOn : Unplugged replugged 121 186 ∧ ServedAt replugged 122 .disconnect ∧
    Off (at_ replugged 186).port.rail ∧ At5V (at_ replugged (186+1)).port.rail := by
  have quiet : (replugged.drop 0).all unasked = true := by decide +kernel
  have window : Unplugged replugged 121 186 := by
    refine ⟨fifthOf (by decide +kernel) (by decide +kernel) (by decide +kernel),by decide,?_⟩
    intro j low high
    have apart : ∀ i < 64, (at_ replugged (123+i)).port.connected = false := by decide +kernel
    have here := apart (j-122) (by omega)
    rw [show 123+(j-122) = j+1 by omega] at here
    exact ⟨fun attached => (nomatch attached.2.2.symm.trans here),noCommand quiet (Nat.zero_le j) .enable,
      noCommand quiet (Nat.zero_le j) .cycle⟩
  have served : ServedAt replugged 122 .disconnect :=
    ⟨⟨.first,by decide +kernel⟩,⟨⟨none,openPins,true⟩,by decide +kernel⟩,by decide +kernel⟩
  have safe : Safe replugged := undisturbedSafe (by decide +kernel)
  obtain ⟨off,-,attaches⟩ := detachedOff replugged safe 121 122 186 _ window (by decide) (by decide) served
  have fifth : FifthAt replugged true 186 :=
    fifthOf (by decide +kernel) (by decide +kernel) (by decide +kernel)
  exact ⟨window,served,off,(attaches fifth).2.2⟩

/-- A sink on 9 V asks for a PDO that is not offered, gets its Hard Reset, and is pulled. -/
def pulledAfterHardReset : List Op :=
  attaching ++ negotiating 2 0 ++ messageLap (request 7 1) 5 true ++ lap 5 sinkOnCc1 true ++ laps 6 5 openPins

theorem outputLeftOn : ¬ DetachedOff pulledAfterHardReset := by
  intro claimed
  have quiet : (pulledAfterHardReset.drop 0).all unasked = true := by decide +kernel
  have window : Unplugged pulledAfterHardReset 216 219 := by
    refine ⟨fifthOf (by decide +kernel) (by decide +kernel) (by decide +kernel),by decide,?_⟩
    intro j low high
    have elsewhere : ∀ i < 2, (at_ pulledAfterHardReset (217+i)).place ≠ .detect := by decide +kernel
    have here := elsewhere (j-217) (by omega)
    rw [show 217+(j-217) = j by omega] at here
    exact ⟨fun attached => here attached.1,noCommand quiet (Nat.zero_le j) .enable,noCommand quiet (Nat.zero_le j) .cycle⟩
  have served : ServedAt pulledAfterHardReset 217 .idle :=
    ⟨⟨.first,by decide +kernel⟩,⟨⟨none,openPins,true⟩,by decide +kernel⟩,by decide +kernel⟩
  have off := (claimed 216 217 219 _ window (by decide) (by decide) served).1
  have on : (at_ pulledAfterHardReset 219).port.rail.output = true := by decide +kernel
  exact nomatch on.symm.trans off.1

end Web3PiUps.Ch32xDetach
