import Web3PiUps.Ch32xPdSteps

/-! power.enable, power.disable and power.cycle over whole runs. -/
namespace Web3PiUps.Ch32xPowerCommands
open Ch32xPdSource Ch32xMainLoop Ch32xPdSteps StepMachine

section Runs
variable (ops : List Op)

/-- No power command is handled after `n` and before `k`. -/
def Unasked (n k : Nat) : Prop := ∀ i power, n < i → i < k → ¬ CommandAt ops i power

/-- The milliseconds that the main loop counts for the power cycle after `n`. -/
def counted (n : Nat) : Nat → Nat
  | 0 => 0
  | k+1 => counted n k + if n < k ∧ (at_ ops k).place = .cycle then
      match ops[k]? with
      | some (.run _) => (at_ ops k).tmrMsDlt.toNat
      | _ => 0
    else 0

/-- `CycleOnAt` for the power.cycle at `n`: nothing was asked since, and it is the first. -/
def CycledOn (n j : Nat) : Prop := CommandAt ops n .cycle ∧ n < j ∧ CycleOnAt ops j ∧ Unasked ops n j ∧
  ∀ i, n < i → i < j → ¬ CycleOnAt ops i

structure LastWins : Prop where
  disabled : ∀ n k, CommandAt ops n .disable → n < k →
    (∀ j, n < j → j < k → ¬ CommandAt ops j .enable ∧ ¬ CommandAt ops j .cycle ∧ ¬ AttachedAt ops j) →
    Off (at_ ops k).port.rail
  asked : ∀ j, CycleOnAt ops j → ∃ n, CycledOn ops n j ∧ (at_ ops n).clock+1500 ≤ (at_ ops j).clock ∧
    ((∀ i, n < i → i < j → ¬ AttachedAt ops i) → Off (at_ ops j).port.rail) ∧ At5V (at_ ops (j+1)).port.rail
  carriedOut : ∀ n k, CommandAt ops n .cycle → Unasked ops n k → counted ops n k ≥ 1500 →
    ∃ j, j < k ∧ CycledOn ops n j

/-- The output is off by command. -/
def Held (n k : Nat) : Prop := (CommandAt ops n .disable ∨ CommandAt ops n .cycle) ∧ n < k ∧ ∀ j, n < j → j < k →
  ¬ CommandAt ops j .enable ∧ ¬ AttachedAt ops j ∧ ¬ CycleOnAt ops j

/-- The runs in which a power cycle is not overtaken, no negotiation ends while the output
is held off, and a power.cycle finds no time counted that passed before it. -/
structure Orderly : Prop where
  settled : ∀ n power, CommandAt ops n power → power ≠ .cycle → (at_ ops n).powercycleWait = false
  noAccept : ∀ n k, Held ops n k → ¬ AcceptedAt ops k
  onTime : ∀ n, CommandAt ops n .cycle → (at_ ops n).tmrMsDlt = 0 ∧ (at_ ops n).timMsCnt = (at_ ops n).tmrMsCntLast

end Runs

section Runs
variable {ops : List Op} {n k : Nat}

theorem oneCommand {a b : Power} (first : CommandAt ops n a) (second : CommandAt ops n b) : a = b := by
  obtain ⟨-,hw,here,wanted⟩ := first
  obtain ⟨-,hw',here',wanted'⟩ := second
  cases here.symm.trans here'
  exact Option.some.inj (wanted.symm.trans wanted')

theorem commandOff {power : Power} (command : CommandAt ops n power) (other : power ≠ .enable) :
    Off (at_ ops (n+1)).port.rail := by
  obtain ⟨place,hw,here,wanted⟩ := command
  rw [atNext here]
  cases power with
  | enable => exact absurd rfl other
  | disable => rw [commandStep hw place wanted]; exact offDisabled _
  | cycle => rw [commandStep hw place wanted]; exact offDisabled _

theorem heldOff (orderly : Orderly ops) (held : Held ops n k) : Off (at_ ops k).port.rail := by
  obtain ⟨command,low,quiet⟩ := held
  have start : Off (at_ ops (n+1)).port.rail :=
    command.elim (fun c => commandOff c (by decide)) (fun c => commandOff c (by decide))
  refine keepsBetween step boot ops (P := fun l => Off l.port.rail) start low (fun j op above below here before => ?_)
  have window : Held ops n j := ⟨command,by omega,fun i a b => quiet i a (by omega)⟩
  obtain ⟨noEnable,noAttach,noCycleOn⟩ := quiet j (by omega) below
  exact offKept before (unlitAt here noEnable noAttach noCycleOn (orderly.noAccept n j window))

theorem waitKept (start : (at_ ops n).powercycleWait = false) (ordered : n ≤ k)
    (noCycle : ∀ j, n ≤ j → j < k → ¬ CommandAt ops j .cycle) : (at_ ops k).powercycleWait = false := by
  induction k, ordered using Nat.le_induction with
  | base => exact start
  | succ k ordered ih =>
    have before := ih (fun j a b => noCycle j a (by omega))
    rcases waitAt ops k with same | ⟨command,-⟩ | on
    · exact same.trans before
    · exact absurd command (noCycle k ordered (Nat.lt_succ_self k))
    · exact nomatch on.2.1.symm.trans before

theorem disabledHeld (orderly : Orderly ops) (command : CommandAt ops n .disable) (low : n < k)
    (quiet : ∀ j, n < j → j < k → ¬ CommandAt ops j .enable ∧ ¬ CommandAt ops j .cycle ∧ ¬ AttachedAt ops j) :
    Held ops n k := by
  refine ⟨Or.inl command,low,fun j a b => ⟨(quiet j a b).1,(quiet j a b).2.2,fun on => ?_⟩⟩
  have overNow := orderly.settled n _ command (by decide)
  have still : (at_ ops j).powercycleWait = false := by
    refine waitKept overNow (by omega) (fun i above below cycle => ?_)
    by_cases here : i = n
    · subst here
      exact nomatch oneCommand command cycle
    · exact (quiet i (by omega) (by omega)).2.1 cycle
  exact nomatch on.2.1.symm.trans still

end Runs

/-- Milliseconds that passed and are still to be counted. -/
def uncounted (l : Loop) : Nat :=
  (match l.place with
    | .drain | .cycle => l.tmrMsDlt.toNat
    | _ => 0)+(l.timMsCnt-l.tmrMsCntLast).toNat

def CycleHandled (l : Loop) (op : Op) : Prop := l.place = .drain ∧ ∃ hw, op = .run hw ∧ hw.power = some .cycle

theorem tickUncounted (a b : UInt8) (ms : Nat) : (a+UInt8.ofNat ms-b).toNat ≤ (a-b).toNat+ms := by
  have regroup : a+UInt8.ofNat ms-b = (a-b)+UInt8.ofNat ms := by
    rw [UInt8.sub_eq_add_neg,UInt8.sub_eq_add_neg,UInt8.add_assoc,UInt8.add_comm (UInt8.ofNat ms),UInt8.add_assoc]
  rw [regroup,UInt8.toNat_add,UInt8.toNat_ofNat']
  exact (Nat.mod_le _ _).trans (Nat.add_le_add_left (Nat.mod_le _ _) _)

theorem cycleTickTimer (l : Loop) : (cycleTick l).powercycleTimer.toNat ≤ l.powercycleTimer.toNat+l.tmrMsDlt.toNat := by
  have sum : (l.powercycleTimer+l.tmrMsDlt.toUInt16).toNat ≤ l.powercycleTimer.toNat+l.tmrMsDlt.toNat := by
    rw [UInt16.toNat_add,UInt8.toNat_toUInt16]
    exact Nat.mod_le _ _
  unfold cycleTick
  split
  · exact Nat.le_add_right _ _
  · dsimp only
    split
    · exact sum
    · exact sum

theorem cycleTickFields (l : Loop) : (cycleTick l).timMsCnt = l.timMsCnt ∧
    (cycleTick l).tmrMsCntLast = l.tmrMsCntLast ∧ (cycleTick l).clock = l.clock := by
  unfold cycleTick
  split
  · exact ⟨rfl,rfl,rfl⟩
  · dsimp only
    split
    · exact ⟨rfl,rfl,rfl⟩
    · exact ⟨rfl,rfl,rfl⟩

theorem uncountedOnward {l : Loop} {place : Place} (port serviceLast tpsTimer diagTimer)
    (from_ : place = .drain ∨ place = .cycle → l.place = .drain) :
    uncounted { l with port, place, serviceLast, tpsTimer, diagTimer } ≤ uncounted l := by
  unfold uncounted
  cases place with
  | drain => rw [from_ (Or.inl rfl)]
  | cycle => rw [from_ (Or.inr rfl)]
  | top | detect | service _ | dispatch _ | tail _ | tps | diag => simp

theorem stepTimes (l : Loop) (op : Op) (other : ¬ CycleHandled l op) :
    (step l op).1.powercycleTimer.toNat+uncounted (step l op).1+l.clock ≤
      l.powercycleTimer.toNat+uncounted l+(step l op).1.clock := by
  have turned := stepTurned l op
  generalize (step l op).1 = l' at turned ⊢
  cases turned with
  | tick ms =>
    have ticked := tickUncounted l.timMsCnt l.tmrMsCntLast ms
    simp only [uncounted]
    omega
  | interrupted => exact Nat.le_refl _
  | top hw place => simp [uncounted,place]
  | cycleAsked hw place wanted => exact absurd ⟨place,hw,rfl,wanted⟩ other
  | cycle hw place =>
    have bound := cycleTickTimer l
    obtain ⟨count,last,clock⟩ := cycleTickFields l
    simp only [uncounted,place,count,last,clock]
    omega
  | onward hw port place serviceLast tpsTimer diagTimer _ _ from_ =>
    have less := uncountedOnward port serviceLast tpsTimer diagTimer from_
    dsimp only
    omega

theorem commandTimer (l : Loop) (hw : Hw) (place : l.place = .drain) (wanted : hw.power = some .cycle) :
    (step l (.run hw)).1 = { l with port := vbusDisable l.port, powercycleTimer := 0, powercycleWait := true } := by
  rw [commandStep hw place wanted]; rfl

def counts (l : Loop) : Op → Nat
  | .run _ => if l.place = .cycle then l.tmrMsDlt.toNat else 0
  | _ => 0

theorem timerElsewhere (l : Loop) (op : Op) (other : ¬ CycleHandled l op)
    (apart : ∀ hw, op = .run hw → l.place ≠ .cycle) : (step l op).1.powercycleTimer = l.powercycleTimer := by
  have turned := stepTurned l op
  generalize (step l op).1 = l' at turned ⊢
  cases turned with
  | tick | interrupted | top | onward => rfl
  | cycleAsked hw place wanted => exact absurd ⟨place,hw,rfl,wanted⟩ other
  | cycle hw place => exact absurd place (apart hw rfl)

theorem sumSmall {timer : UInt16} {dlt : UInt8} (small : timer < powercycleOffMs) :
    (timer+dlt.toUInt16).toNat = timer.toNat+dlt.toNat := by
  have low : timer.toNat < 1500 := UInt16.lt_iff_toNat_lt.mp small
  have step_ : dlt.toNat < 256 := dlt.toNat_lt
  rw [UInt16.toNat_add,UInt8.toNat_toUInt16]
  exact Nat.mod_eq_of_lt (by omega)

theorem timerCounts {l : Loop} {op : Op} (other : ¬ CycleHandled l op) (small : l.powercycleTimer < powercycleOffMs)
    (waiting : l.powercycleWait = true) (still : (step l op).1.powercycleWait = true) :
    (step l op).1.powercycleTimer.toNat = l.powercycleTimer.toNat+counts l op ∧
    (step l op).1.powercycleTimer < powercycleOffMs := by
  by_cases counting : ∃ hw, op = .run hw ∧ l.place = .cycle
  · obtain ⟨hw,rfl,place⟩ := counting
    have sum : (l.powercycleTimer+l.tmrMsDlt.toUInt16).toNat = l.powercycleTimer.toNat+l.tmrMsDlt.toNat :=
      sumSmall small
    rw [cycleStep hw place] at still ⊢
    simp only [counts,if_pos place]
    revert still
    unfold cycleTick
    rw [if_neg (not_not.mpr waiting)]
    dsimp only
    by_cases due : l.powercycleTimer+l.tmrMsDlt.toUInt16 ≥ powercycleOffMs
    · rw [if_pos due]; exact nofun
    · rw [if_neg due]; exact fun _ => ⟨sum,UInt16.not_le.mp due⟩
  · have apart : ∀ hw, op = .run hw → l.place ≠ .cycle := fun hw ran place => counting ⟨hw,ran,place⟩
    have none_ : counts l op = 0 := by
      cases op with
      | run hw => exact if_neg (apart hw rfl)
      | tick _ | message _ | hardReset => rfl
    rw [timerElsewhere l op other apart,none_]
    exact ⟨rfl,small⟩

section Runs
variable {ops : List Op} {n k : Nat}

structure Pending (ops : List Op) (n k : Nat) : Prop where
  command : CommandAt ops n .cycle
  low : n < k
  unasked : Unasked ops n k
  first : ∀ i, n < i → i < k → ¬ CycleOnAt ops i
  waiting : (at_ ops k).powercycleWait = true
  count : (at_ ops k).powercycleTimer.toNat = counted ops n k
  small : (at_ ops k).powercycleTimer < powercycleOffMs
  elapsed : (at_ ops k).powercycleTimer.toNat+uncounted (at_ ops k)+(at_ ops n).clock ≤ (at_ ops k).clock

theorem countedNone (low : k ≤ n+1) : counted ops n k = 0 := by
  induction k with
  | zero => rfl
  | succ k ih => rw [counted,ih (by omega),if_neg (by omega)]

theorem countedNext {op : Op} (here : ops[k]? = some op) (low : n < k) :
    counted ops n (k+1) = counted ops n k+counts (at_ ops k) op := by
  rw [counted]
  by_cases place : (at_ ops k).place = .cycle
  · rw [if_pos ⟨low,place⟩,here]
    cases op with
    | run hw => simp only [counts,if_pos place]
    | tick _ | message _ | hardReset => rfl
  · rw [if_neg (fun both => place both.2)]
    cases op with
    | run hw => simp only [counts,if_neg place]
    | tick _ | message _ | hardReset => rfl

theorem pendingStart (command : CommandAt ops n .cycle)
    (onTime : (at_ ops n).tmrMsDlt = 0 ∧ (at_ ops n).timMsCnt = (at_ ops n).tmrMsCntLast) :
    Pending ops n (n+1) := by
  obtain ⟨place,hw,here,wanted⟩ := command
  have next : at_ ops (n+1) = { at_ ops n with
      port := vbusDisable (at_ ops n).port, powercycleTimer := 0, powercycleWait := true } := by
    rw [atNext here]; exact commandTimer _ hw place wanted
  refine ⟨⟨place,hw,here,wanted⟩,Nat.lt_succ_self n,fun i _ a b => by omega,fun i a b => by omega,?_,?_,?_,?_⟩
  · rw [next]
  · rw [next,countedNone (Nat.le_refl _)]; rfl
  · rw [next]; show (0 : UInt16) < powercycleOffMs; decide
  · rw [next]
    simp only [uncounted,place,onTime.1,onTime.2,UInt8.sub_self]
    simp

theorem pendingNext (pending : Pending ops n k) (unasked : ∀ power, ¬ CommandAt ops k power)
    (noOn : ¬ CycleOnAt ops k) : Pending ops n (k+1) := by
  have low := pending.low
  have quiet : Unasked ops n (k+1) := by
    intro i power above below
    by_cases last : i = k
    · exact last ▸ unasked power
    · exact pending.unasked i power above (by omega)
  have first : ∀ i, n < i → i < k+1 → ¬ CycleOnAt ops i := by
    intro i above below
    by_cases last : i = k
    · exact last ▸ noOn
    · exact pending.first i above (by omega)
  have waiting : (at_ ops (k+1)).powercycleWait = true := by
    rcases waitAt ops k with same | ⟨command,-⟩ | on
    · exact same.trans pending.waiting
    · exact absurd command (unasked _)
    · exact absurd on noOn
  cases here : ops[k]? with
  | none =>
    have none_ : counted ops n (k+1) = counted ops n k := by
      rw [counted,here]; simp
    rw [stays here] at waiting
    refine ⟨pending.command,by omega,quiet,first,by rw [stays here]; exact waiting,?_,?_,?_⟩
    · rw [stays here,none_]; exact pending.count
    · rw [stays here]; exact pending.small
    · rw [stays here]; exact pending.elapsed
  | some op =>
    have other : ¬ CycleHandled (at_ ops k) op := by
      rintro ⟨place,hw,rfl,wanted⟩
      exact unasked _ ⟨place,hw,here,wanted⟩
    have times := stepTimes (at_ ops k) op other
    have elapsed := pending.elapsed
    have next := atNext here
    rw [next] at waiting
    obtain ⟨count,small⟩ := timerCounts other pending.small pending.waiting waiting
    refine ⟨pending.command,by omega,quiet,first,by rw [next]; exact waiting,?_,by rw [next]; exact small,?_⟩
    · rw [next,countedNext here low,count,pending.count]
    · rw [next]; omega

/-- A wait in progress is that of one power.cycle, the last command handled. -/
theorem pendingAt (orderly : Orderly ops) (k : Nat) : (at_ ops k).powercycleWait = true → ∃ n, Pending ops n k := by
  induction k with
  | zero => exact nofun
  | succ k ih =>
    intro waiting
    by_cases cycle : CommandAt ops k .cycle
    · exact ⟨k,pendingStart cycle (orderly.onTime k cycle)⟩
    rcases waitAt ops k with same | ⟨command,-⟩ | on
    · have before := same.symm.trans waiting
      obtain ⟨n,pending⟩ := ih before
      have unasked : ∀ power, ¬ CommandAt ops k power := by
        intro power command
        by_cases again : power = .cycle
        · exact cycle (again ▸ command)
        · exact nomatch (orderly.settled k power command again).symm.trans before
      exact ⟨n,pendingNext pending unasked (fun on => nomatch on.2.2.symm.trans waiting)⟩
    · exact absurd command cycle
    · exact nomatch on.2.2.symm.trans waiting

theorem restartAt5V (p : Port) : At5V (powerOutputRestart p).rail := ⟨rfl,rfl,rfl⟩

theorem onElapsed (pending : Pending ops n k) (on : CycleOnAt ops k) : (at_ ops n).clock+1500 ≤ (at_ ops k).clock := by
  obtain ⟨-,-,due,-⟩ := cycleOnStep on
  have sum : ((at_ ops k).powercycleTimer+(at_ ops k).tmrMsDlt.toUInt16).toNat =
    (at_ ops k).powercycleTimer.toNat+(at_ ops k).tmrMsDlt.toNat := sumSmall pending.small
  have late : 1500 ≤ ((at_ ops k).powercycleTimer+(at_ ops k).tmrMsDlt.toUInt16).toNat := UInt16.le_iff_toNat_le.mp due
  have elapsed := pending.elapsed
  simp only [uncounted,on.1] at elapsed
  omega

theorem pendingHeld (pending : Pending ops n k) (apart : ∀ i, n < i → i < k → ¬ AttachedAt ops i) : Held ops n k :=
  ⟨Or.inr pending.command,pending.low,fun j a b =>
    ⟨pending.unasked j _ a b,apart j a b,pending.first j a b⟩⟩

theorem lastWins (ops : List Op) (orderly : Orderly ops) : LastWins ops := by
  refine ⟨?_,?_,?_⟩
  · exact fun n k command low quiet => heldOff orderly (disabledHeld orderly command low quiet)
  · intro j on
    obtain ⟨n,pending⟩ := pendingAt orderly j on.2.1
    refine ⟨n,⟨pending.command,pending.low,on,pending.unasked,pending.first⟩,onElapsed pending on,?_,?_⟩
    · exact fun apart => heldOff orderly (pendingHeld pending apart)
    · obtain ⟨-,-,-,port⟩ := cycleOnStep on
      rw [port]; exact restartAt5V _
  · intro n k command unasked due
    by_contra never
    have pending : ∀ m, n+1 ≤ m → m ≤ k → Pending ops n m := by
      intro m low
      induction m, low using Nat.le_induction with
      | base => exact fun _ => pendingStart command (orderly.onTime n command)
      | succ m low ih =>
        intro high
        have before := ih (by omega)
        refine pendingNext before (fun power => unasked m power (by omega) (by omega)) (fun on => never ?_)
        exact ⟨m,by omega,command,by omega,on,before.unasked,before.first⟩
    by_cases late : n+1 ≤ k
    · have last := pending k late (Nat.le_refl k)
      have small : (at_ ops k).powercycleTimer.toNat < 1500 := UInt16.lt_iff_toNat_lt.mp last.small
      have count := last.count
      omega
    · have none_ : counted ops n k = 0 := countedNone (by omega)
      omega

end Runs

/-! On fixed inputs: one pass in which `commands` are on the wire, then six laps. -/

def asked (power : Power) : Op := .run ⟨some power,openPins,true⟩
def commanded (commands : List Power) : List Op :=
  passes 1 openPins true ++ commands.map asked ++ passes 11 openPins true ++ laps 6 250 openPins

/-- Each command handled is a power.cycle of a pass with no time to count; no Accept is due. -/
def onlyCycles (l : Loop) (op : Op) : Bool :=
  l.port.state ≠ .txAccept && match op with
  | .run hw => hw.power = none || hw.power = some .cycle && l.tmrMsDlt = 0 && l.timMsCnt = l.tmrMsCntLast
  | _ => true

theorem onlyCyclesOrderly {ops : List Op} (all : allSteps step onlyCycles boot ops = true) : Orderly ops := by
  have cycle : ∀ {n power}, CommandAt ops n power → power = .cycle ∧
      (at_ ops n).tmrMsDlt = 0 ∧ (at_ ops n).timMsCnt = (at_ ops n).tmrMsCntLast := by
    rintro n power ⟨-,hw,here,wanted⟩
    have checked := allStepsAt step all here
    simp only [onlyCycles,wanted,Bool.and_eq_true,Bool.or_eq_true,decide_eq_true_eq] at checked
    rcases checked.2 with none_ | ⟨⟨same,early⟩,last⟩
    · exact nomatch none_
    · exact ⟨Option.some.inj same,early,last⟩
  refine ⟨?_,?_,fun n command => (cycle command).2⟩
  · intro n power command other
    exact absurd (cycle command).1 other
  · rintro n k - ⟨op,here,s,hw,-,-,state,-⟩
    have checked := allStepsAt step all here
    simp only [onlyCycles,Bool.and_eq_true,decide_eq_true_eq] at checked
    exact checked.1 state

theorem cycledOnce : ∃ j, CycledOn (commanded [.cycle]) 1 j ∧ 1500 ≤ (at_ (commanded [.cycle]) j).clock ∧
    At5V (at_ (commanded [.cycle]) (j+1)).port.rail := by
  have quiet : ((commanded [.cycle]).drop 2).all unasked = true := by decide +kernel
  have command : CommandAt (commanded [.cycle]) 1 .cycle :=
    ⟨by decide +kernel,⟨some .cycle,openPins,true⟩,by decide +kernel,rfl⟩
  have law := lastWins (commanded [.cycle]) (onlyCyclesOrderly (by decide +kernel))
  obtain ⟨j,-,on⟩ := law.carriedOut 1 90 command (fun i power low _ => noCommand quiet low power) (by decide +kernel)
  obtain ⟨n,-,elapsed,-,lit⟩ := law.asked j on.2.2.1
  exact ⟨j,on,by omega,lit⟩

theorem disableOvertaken : ¬ LastWins (commanded [.cycle,.disable]) := by
  intro claimed
  have quiet : ((commanded [.cycle,.disable]).drop 3).all unasked = true := by decide +kernel
  have command : CommandAt (commanded [.cycle,.disable]) 2 .disable :=
    ⟨by decide +kernel,⟨some .disable,openPins,true⟩,by decide +kernel,rfl⟩
  have off := claimed.disabled 2 83 command (by decide) (fun j low high => by
    have apart : ∀ i < 81, (at_ (commanded [.cycle,.disable]) (3+i)).port.connected = false := by decide +kernel
    have next := apart (j-2) (by omega)
    rw [show 3+(j-2) = j+1 by omega] at next
    exact ⟨noCommand quiet low .enable,noCommand quiet low .cycle,fun attached => (nomatch attached.2.2.symm.trans next)⟩)
  have on : (at_ (commanded [.cycle,.disable]) 83).port.rail.output = true := by decide +kernel
  exact nomatch on.symm.trans off.1

end Web3PiUps.Ch32xPowerCommands
