import Web3PiUps.MqttPacketGuard
import Mathlib.Tactic.IntervalCases

/-! Identity epochs: what one call does to the identifiers and the budget, why
identifiers do not repeat within an epoch, and what it takes to start a new one. -/
namespace Web3PiUps.MqttPacketGuard
open StepMachine

structure Identity where
  attempts : Nat
  attemptsSinceId : Nat
  operationPending : Bool
  isUnsafe : Bool
  resetArmed : Bool
  resetBoundarySeen : Bool
  connected : Bool
  haveLastPacketId : Bool
  lastPacketId : Nat

def Guard.identity (g : Guard) : Identity :=
  ⟨g.attempts,g.attemptsSinceId,g.operationPending,g.isUnsafe,g.resetArmed,g.resetBoundarySeen,
    g.connected,g.haveLastPacketId,g.lastPacketId⟩

def Renews (g : Guard) : Prop :=
  g.connected = false ∧ g.generation ≠ uint64Max ∧ g.resetArmed = true ∧
    g.resetBoundarySeen = true ∧ g.operationPending = false
instance (g) : Decidable (Renews g) := by unfold Renews; infer_instance

/-- What one call does to the identity, with the answer it gives. -/
inductive IdentityStep (g : Guard) : Call → Identity → Option Bool → Prop where
  | began (free : g.operationPending = false) (safe : g.isUnsafe = false) (unarmed : g.resetArmed = false)
      (room : g.attempts < budget) :
      IdentityStep g .packetBegin
        { g.identity with attempts := g.attempts+1, attemptsSinceId := g.attemptsSinceId+1,
                          operationPending := true } (some true)
  | accepted {id : Int} (pending : g.operationPending = true) (safe : g.isUnsafe = false)
      (positive : 0 < id) (fits : id ≤ uint16Max) (clear : ¬Ambiguous g id.toNat) :
      IdentityStep g (.packetResult id)
        { g.identity with operationPending := false, lastPacketId := id.toNat, haveLastPacketId := true,
                          attemptsSinceId := 0 } (some true)
  | failed {id : Int} (pending : g.operationPending = true) (safe : g.isUnsafe = false) (negative : id < 0) :
      IdentityStep g (.packetResult id) { g.identity with operationPending := false } (some true)
  | ignored {id : Int} (pending : g.operationPending = true) (bad : g.isUnsafe = true) :
      IdentityStep g (.packetResult id) { g.identity with operationPending := false } (some false)
  | doubted {id : Int} (pending : g.operationPending = true)
      (doubt : id = 0 ∨ (uint16Max : Int) < id ∨ 0 < id ∧ Ambiguous g id.toNat) :
      IdentityStep g (.packetResult id)
        { g.identity with operationPending := false, isUnsafe := true } (some false)
  | alarmed {c : Call} {r : Option Bool} (unanswered : r ≠ some true)
      (unasked : ∀ id, c = .packetResult id → g.operationPending = false)
      (socket : c ≠ .disconnected) :
      IdentityStep g c { g.identity with isUnsafe := true } r
  | armed (free : g.operationPending = false) :
      IdentityStep g (.armReset true)
        { g.identity with
          resetArmed := true
          resetBoundarySeen := if g.resetArmed then g.resetBoundarySeen else !g.connected } (some true)
  | down :
      IdentityStep g .disconnected
        { g.identity with
          connected := false
          resetBoundarySeen := if g.resetArmed then true else g.resetBoundarySeen } none
  | renewed (renews : Renews g) :
      IdentityStep g .connected
        ⟨0,0,g.operationPending,false,false,false,true,false,g.lastPacketId⟩ none
  | up (was : g.connected = false) (kept : ¬Renews g) :
      IdentityStep g .connected { g.identity with connected := true } none
  | still {c : Call} {r : Option Bool} (socket : c ≠ .connected ∧ c ≠ .disconnected)
      (unreported : ∀ id, c ≠ .packetResult id)
      (refused : c = .packetBegin ∨ (∃ empty, c = .armReset empty) → r = some false) :
      IdentityStep g c g.identity r

theorem acceptAckIdentity (g : Guard) (receivedMs : Nat) :
    (acceptAck g receivedMs).1.identity = g.identity := by
  unfold acceptAck
  split <;> rfl

theorem matchEarlyIdentity (g : Guard) (packetId : Nat) : (matchEarly g packetId).1.identity = g.identity := by
  unfold matchEarly
  split
  · exact acceptAckIdentity _ _
  · rfl

theorem probeResultIdentity (g : Guard) (token : Nat) (id : Int) (now : Nat) :
    (probeResult g token id now).1.identity = g.identity := by
  unfold probeResult
  split
  · rfl
  · split
    · rfl
    · split
      · rfl
      · exact matchEarlyIdentity _ _

theorem pubackIdentity (g : Guard) (generation : Nat) (id : Int) (received : Nat) :
    (onPuback g generation id received).1.identity = g.identity := by
  have expire : (probeExpire g received).identity = g.identity := by
    unfold probeExpire
    split <;> rfl
  unfold onPuback
  split
  · rfl
  · split
    · rfl
    · split
      · exact expire
      · split
        · split
          · rfl
          · exact acceptAckIdentity _ _
        · split
          · rfl
          · split <;> rfl

theorem identityStep (g : Guard) (c : Call) :
    IdentityStep g c (step g c).1.identity (step g c).2 := by
  cases c with
  | packetBegin =>
    simp only [step,packetBegin]
    by_cases overlap : g.operationPending = true ∨ g.operationSerial = uint64Max
    · rw [if_pos overlap]
      exact .alarmed nofun nofun nofun
    · rw [if_neg overlap]
      have free : g.operationPending = false := by simpa using fun h => overlap (.inl h)
      by_cases stopped : g.isUnsafe = true ∨ g.resetArmed = true ∨ budget ≤ g.attempts
      · rw [if_pos stopped]
        exact .still ⟨nofun,nofun⟩ nofun fun _ => rfl
      · rw [if_neg stopped]
        simp only [not_or,Bool.not_eq_true,Nat.not_le] at stopped
        exact .began free stopped.1 stopped.2.1 stopped.2.2
  | packetResult id =>
    simp only [step,packetResult]
    by_cases unasked : g.operationPending = false
    · rw [if_pos unasked]
      exact .alarmed nofun (fun _ _ => unasked) nofun
    · rw [if_neg unasked]
      have pending : g.operationPending = true := by simpa using unasked
      by_cases bad : g.isUnsafe = true
      · rw [if_pos (by exact bad)]
        exact .ignored pending bad
      · rw [if_neg (by exact bad)]
        have safe : g.isUnsafe = false := by simpa using bad
        by_cases negative : id < 0
        · rw [if_pos negative]
          exact .failed pending safe negative
        · rw [if_neg negative]
          by_cases wide : id = 0 ∨ (uint16Max : Int) < id
          · rw [if_pos wide]
            exact .doubted pending (by tauto)
          · rw [if_neg wide]
            simp only [not_or,Int.not_lt] at wide
            have positive : 0 < id := by omega
            by_cases doubt : Ambiguous (completed g id) id.toNat
            · rw [if_pos doubt]
              exact .doubted pending (.inr (.inr ⟨positive,doubt⟩))
            · rw [if_neg doubt]
              exact .accepted pending safe positive wide.2 doubt
  | armReset empty =>
    simp only [step,armReset]
    by_cases refused : empty = false ∨ g.operationPending = true
    · rw [if_pos refused]
      exact .still ⟨nofun,nofun⟩ nofun fun _ => rfl
    · rw [if_neg refused]
      simp only [not_or,Bool.not_eq_false,Bool.not_eq_true] at refused
      obtain ⟨rfl,free⟩ := refused
      have moved := IdentityStep.armed free
      by_cases already : g.resetArmed = false
      · rw [if_pos already]
        simpa [already,Guard.identity,probeRetire] using moved
      · rw [if_neg already]
        simpa [already,Guard.identity,probeRetire] using moved
  | disconnected =>
    exact .down
  | connected =>
    simp only [step,onConnected]
    by_cases duplicate : g.connected = true ∨ g.generation = uint64Max
    · rw [if_pos duplicate]
      exact .alarmed nofun nofun nofun
    · rw [if_neg duplicate]
      simp only [not_or,Bool.not_eq_true] at duplicate
      by_cases ready : g.resetArmed = true ∧ g.resetBoundarySeen = true ∧ g.operationPending = false
      · rw [if_pos (by exact ready)]
        exact .renewed ⟨duplicate.1,duplicate.2,ready⟩
      · rw [if_neg (by exact ready)]
        exact .up duplicate.1 fun renews => ready renews.2.2
  | probeBegin token started timeout =>
    have same : (probeBegin g token started timeout).1.identity = g.identity := by
      unfold probeBegin
      split <;> rfl
    simp only [step,same]
    exact .still ⟨nofun,nofun⟩ nofun (by simp)
  | probeResult token id now =>
    simp only [step,probeResultIdentity]
    exact .still ⟨nofun,nofun⟩ nofun (by simp)
  | puback generation id received =>
    simp only [step,pubackIdentity]
    exact .still ⟨nofun,nofun⟩ nofun (by simp)
  | probeExpire now =>
    have same : (probeExpire g now).identity = g.identity := by
      unfold probeExpire
      split <;> rfl
    simp only [step,same]
    exact .still ⟨nofun,nofun⟩ nofun (by simp)
  | probeRetire => exact .still ⟨nofun,nofun⟩ nofun (by simp)

section Steps
variable {g : Guard} {c : Call} {v : Identity} {r : Option Bool}

def Bounded (v : Identity) : Prop := v.attemptsSinceId ≤ v.attempts ∧ v.attempts ≤ budget

theorem boundedStep (moved : IdentityStep g c v r) (held : Bounded g.identity) : Bounded v := by
  obtain ⟨since,total⟩ := held
  simp only [Guard.identity] at since total
  cases moved with
  | began free safe unarmed room => exact ⟨Nat.succ_le_succ since,room⟩
  | accepted => exact ⟨Nat.zero_le _,total⟩
  | renewed => exact ⟨Nat.le_refl 0,Nat.zero_le _⟩
  | _ => exact ⟨since,total⟩

open CyclicIds in
/-- The last identifier lies as many places ahead of `a` as attempts have paid for. -/
def Walked (a : Nat) (v : Identity) : Prop :=
  v.haveLastPacketId = true ∧ Valid uint16Max v.lastPacketId ∧
    ∃ d, v.lastPacketId = ahead uint16Max a d ∧ d + v.attemptsSinceId ≤ v.attempts

open CyclicIds in
theorem paidDistance {id : Nat} (have_ : g.haveLastPacketId = true) (clear : ¬Ambiguous g id) :
    0 < distance g id ∧ distance g id ≤ g.attemptsSinceId := by
  have both := not_or.mp fun bad => clear ⟨have_,bad⟩
  omega

open CyclicIds in
theorem idValid {id : Int} (positive : 0 < id) (fits : id ≤ uint16Max) : Valid uint16Max id.toNat := by
  constructor <;> omega

open CyclicIds in
theorem walkedAccepted {a : Nat} {id : Int} (walked : Walked a g.identity) (positive : 0 < id)
    (fits : id ≤ uint16Max) (clear : ¬Ambiguous g id.toNat) :
    ∃ d, id.toNat = ahead uint16Max a d ∧ 0 < d ∧ d ≤ g.attempts := by
  obtain ⟨have_,valid,d,place,paid⟩ := walked
  obtain ⟨moved,cheap⟩ := paidDistance have_ clear
  have landed := aheadDistance valid (idValid positive fits)
  simp only [Guard.identity] at landed place paid
  refine ⟨d + distance g id.toNat,?_,by omega,by omega⟩
  rw [← aheadAdd,← place]
  exact landed.symm

theorem walkedStep {a : Nat} (moved : IdentityStep g c v r) (goesOn : c = .connected → ¬Renews g)
    (walked : Walked a g.identity) : Walked a v := by
  have before := walked
  obtain ⟨have_,valid,d,place,paid⟩ := walked
  simp only [Guard.identity] at have_ valid place paid
  cases moved with
  | began => exact ⟨have_,valid,d,place,Nat.succ_le_succ paid⟩
  | accepted pending safe positive fits clear =>
    obtain ⟨e,landed,-,paidAll⟩ := walkedAccepted before positive fits clear
    exact ⟨rfl,idValid positive fits,e,landed,paidAll⟩
  | renewed renews => exact absurd renews (goesOn rfl)
  | _ => exact ⟨have_,valid,d,place,paid⟩

end Steps

section Run
variable (calls : List Call)

abbrev at' (n : Nat) : Guard := stateAt step init calls n

def Renewal (n : Nat) : Prop := calls[n]? = some .connected ∧ Renews (at' calls n)

structure Accepted (n : Nat) (id : Int) : Prop where
  call : calls[n]? = some (.packetResult id)
  positive : 0 < id
  answer : (outs step init calls)[n]? = some (some true)

theorem bounded (n : Nat) : Bounded (at' calls n).identity :=
  keepsBetween step init calls (P := fun g => Bounded g.identity) (m := 0)
    ⟨Nat.le_refl 0,Nat.zero_le _⟩ (Nat.zero_le n)
    (fun _ c _ _ _ held => boundedStep (identityStep _ c) held)

variable {calls}

theorem replyAt {n : Nat} {c : Call} {r : Option Bool} (here : calls[n]? = some c)
    (answer : (outs step init calls)[n]? = some r) : (step (at' calls n) c).2 = r :=
  (outStep step init here answer).symm

theorem acceptedStep {n : Nat} {id : Int} (accepted : Accepted calls n id) :
    id ≤ uint16Max ∧ ¬Ambiguous (at' calls n) id.toNat ∧
      (at' calls (n+1)).identity =
        { (at' calls n).identity with operationPending := false, lastPacketId := id.toNat,
                                      haveLastPacketId := true, attemptsSinceId := 0 } := by
  have next : at' calls (n+1) = (step (at' calls n) (.packetResult id)).1 := stateNext step init accepted.call
  have answer := replyAt accepted.call accepted.answer
  have positive := accepted.positive
  have moved := identityStep (at' calls n) (.packetResult id)
  rw [answer] at moved
  rw [next]
  generalize (step (at' calls n) (.packetResult id)).1.identity = v at moved
  generalize same : (some true : Option Bool) = r at moved
  cases moved with
  | accepted pending safe positive fits clear => exact ⟨fits,clear,rfl⟩
  | failed pending safe negative => omega
  | ignored => exact nomatch same
  | doubted => exact nomatch same
  | alarmed unanswered => exact absurd same.symm unanswered
  | still socket unreported => exact absurd rfl (unreported id)

open CyclicIds in
theorem acceptedDistinct {i j : Nat} {a b : Int} (ordered : i < j) (first : Accepted calls i a)
    (second : Accepted calls j b) (sameEpoch : ∀ k, i < k → k < j → ¬Renewal calls k) : a ≠ b := by
  obtain ⟨fits,-,after⟩ := acceptedStep first
  obtain ⟨fits',clear,-⟩ := acceptedStep second
  have valid := idValid first.positive fits
  have started : Walked a.toNat (at' calls (i+1)).identity := by
    rw [after]
    exact ⟨rfl,valid,0,(aheadZero valid).symm,Nat.zero_le _⟩
  have walked := keepsBetween step init calls (P := fun g => Walked a.toNat g.identity) started ordered
    (fun k c low high here held => walkedStep (identityStep _ c)
      (fun up renews => sameEpoch k low high ⟨up ▸ here,renews⟩) held)
  obtain ⟨d,landed,moved,paid⟩ := walkedAccepted walked second.positive fits' clear
  have total : (at' calls j).attempts ≤ budget := (bounded calls j).2
  have small : d < uint16Max := Nat.lt_of_le_of_lt (Nat.le_trans paid total) (by decide)
  intro same
  exact aheadNe valid moved small (landed.symm.trans (by rw [same]))

/-! An SDK whose counter walks `1, …, 65535` gives no false alarm. -/

def sdkNext (c : Nat) : Nat := CyclicIds.next uint16Max c

inductive SdkAnswer : Nat → Int → Nat → Prop where
  | success (c : Nat) : SdkAnswer c (sdkNext c) (sdkNext c)
  | unused (c : Nat) {rc : Int} (negative : rc < 0) : SdkAnswer c rc c
  | consumed (c : Nat) {rc : Int} (negative : rc < 0) : SdkAnswer c rc (sdkNext c)

/-- Every result of the run is the SDK's answer to the operation in flight. -/
structure FromSdk (calls : List Call) (counter : Nat → Nat) : Prop where
  first : counter 0 ≤ uint16Max
  answered : ∀ n id, calls[n]? = some (.packetResult id) →
    (at' calls n).operationPending = true ∧ SdkAnswer (counter n) id (counter (n+1))
  rests : ∀ n, (∀ id, calls[n]? ≠ some (.packetResult id)) → counter (n+1) = counter n

open CyclicIds in
/-- The SDK's counter lies no further ahead of the last identifier than attempts
were made since; an operation in flight has not used its attempt yet. -/
def Tracks (counter : Nat) (v : Identity) : Prop :=
  counter ≤ uint16Max ∧
    (v.isUnsafe = false → v.haveLastPacketId = true → Valid uint16Max v.lastPacketId ∧
      ∃ d, counter = ahead uint16Max v.lastPacketId d ∧
        d + v.operationPending.toNat ≤ v.attemptsSinceId)

open CyclicIds in
theorem sdkUnambiguous {g : Guard} {c : Nat} (safe : g.isUnsafe = false)
    (pending : g.operationPending = true) (bounded : Bounded g.identity) (tracks : Tracks c g.identity) :
    ¬Ambiguous g (sdkNext c) := by
  rintro ⟨have_,bad⟩
  obtain ⟨valid,d,place,paid⟩ := tracks.2 safe have_
  have total : g.attemptsSinceId ≤ budget := Nat.le_trans bounded.1 bounded.2
  simp only [Guard.identity,pending,Bool.toNat_true] at paid
  have landed : sdkNext c = ahead uint16Max g.lastPacketId (d+1) := by
    rw [sdkNext,place,nextAhead (aheadValid valid d),aheadAdd]
    rfl
  have small : d + 1 < uint16Max := Nat.lt_of_le_of_lt (Nat.le_trans paid total) (by decide)
  have apart := distanceAhead valid small
  simp only [distance,landed] at bad
  simp only [Guard.identity] at apart
  rw [apart] at bad
  omega

open CyclicIds in
theorem tracksSuccess {g : Guard} {c : Nat} {v : Identity} {r : Option Bool}
    (moved : IdentityStep g (.packetResult (sdkNext c)) v r) (bounded : Bounded g.identity)
    (pending : g.operationPending = true) (tracks : Tracks c g.identity) :
    Tracks (sdkNext c) v ∧ (g.isUnsafe = false → v.isUnsafe = false) := by
  have valid : Valid uint16Max (sdkNext c) := nextValid (by decide) c
  have range : sdkNext c ≤ uint16Max := valid.2
  cases moved with
  | accepted _ safe positive fits clear =>
    refine ⟨⟨range,fun _ _ => ⟨valid,0,(aheadZero valid).symm,Nat.le_refl 0⟩⟩,fun _ => safe⟩
  | failed _ safe negative => exact absurd negative (by omega)
  | ignored _ bad => exact ⟨⟨range,fun safe => nomatch bad.symm.trans safe⟩,fun safe => nomatch bad.symm.trans safe⟩
  | doubted _ doubt =>
    refine ⟨⟨range,nofun⟩,fun safe => ?_⟩
    rcases doubt with zero | wide | ⟨-,ambiguous⟩
    · exact absurd zero (by have := valid.1; omega)
    · exact absurd wide (by omega)
    · exact absurd ambiguous (sdkUnambiguous safe pending bounded tracks)
  | alarmed _ unasked => exact nomatch pending.symm.trans (unasked _ rfl)
  | still _ unreported => exact absurd rfl (unreported _)

open CyclicIds in
theorem tracksFailure {g : Guard} {c c' : Nat} {rc : Int} {v : Identity} {r : Option Bool}
    (moved : IdentityStep g (.packetResult rc) v r) (pending : g.operationPending = true)
    (negative : rc < 0) (used : c' = c ∨ c' = sdkNext c) (tracks : Tracks c g.identity) :
    Tracks c' v ∧ (g.isUnsafe = false → v.isUnsafe = false) := by
  have range : c' ≤ uint16Max := by
    rcases used with rfl | rfl
    · exact tracks.1
    · exact (nextValid (by decide) c).2
  cases moved with
  | accepted _ safe positive => omega
  | failed _ safe _ =>
    refine ⟨⟨range,fun _ have_ => ?_⟩,fun _ => safe⟩
    obtain ⟨valid,d,place,paid⟩ := tracks.2 safe have_
    simp only [Guard.identity,pending,Bool.toNat_true] at valid place paid
    rcases used with rfl | rfl
    · exact ⟨valid,d,place,Nat.le_of_succ_le paid⟩
    · refine ⟨valid,d+1,?_,paid⟩
      rw [sdkNext,place,nextAhead (aheadValid valid d),aheadAdd]
      rfl
  | ignored _ bad => exact ⟨⟨range,fun safe => nomatch bad.symm.trans safe⟩,fun safe => nomatch bad.symm.trans safe⟩
  | doubted _ doubt => omega
  | alarmed _ unasked => exact nomatch pending.symm.trans (unasked _ rfl)
  | still _ unreported => exact absurd rfl (unreported _)

theorem tracksResult {g : Guard} {c c' : Nat} {id : Int} {v : Identity} {r : Option Bool}
    (moved : IdentityStep g (.packetResult id) v r) (bounded : Bounded g.identity)
    (pending : g.operationPending = true) (answer : SdkAnswer c id c')
    (tracks : Tracks c g.identity) : Tracks c' v ∧ (g.isUnsafe = false → v.isUnsafe = false) := by
  cases answer with
  | success => exact tracksSuccess moved bounded pending tracks
  | unused negative => exact tracksFailure moved pending negative (.inl rfl) tracks
  | consumed negative => exact tracksFailure moved pending negative (.inr rfl) tracks

theorem tracksOther {g : Guard} {c : Nat} {k : Call} {v : Identity} {r : Option Bool}
    (moved : IdentityStep g k v r) (other : ∀ id, k ≠ .packetResult id)
    (tracks : Tracks c g.identity) : Tracks c v := by
  obtain ⟨range,held⟩ := tracks
  refine ⟨range,?_⟩
  cases moved with
  | began free safe unarmed room =>
    intro safe' have_
    obtain ⟨valid,d,place,paid⟩ := held safe have_
    simp only [Guard.identity,free,Bool.toNat_false] at paid
    exact ⟨valid,d,place,Nat.succ_le_succ paid⟩
  | accepted => exact absurd rfl (other _)
  | failed => exact absurd rfl (other _)
  | ignored => exact absurd rfl (other _)
  | doubted => exact absurd rfl (other _)
  | alarmed => exact nofun
  | renewed => exact fun _ => nofun
  | armed => exact held
  | down => exact held
  | up => exact held
  | still => exact held

theorem tracksAt {counter : Nat → Nat} (sdk : FromSdk calls counter) (n : Nat) :
    Tracks (counter n) (at' calls n).identity := by
  induction n with
  | zero => exact ⟨sdk.first,fun _ => nofun⟩
  | succ n ih =>
    cases here : calls[n]? with
    | none =>
      have same : at' calls (n+1) = at' calls n := stateEnd step init here
      rw [same,sdk.rests n (by simp [here])]
      exact ih
    | some k =>
      have next : at' calls (n+1) = (step (at' calls n) k).1 := stateNext step init here
      have moved := identityStep (at' calls n) k
      rw [next]
      by_cases reported : ∃ id, k = .packetResult id
      · obtain ⟨id,rfl⟩ := reported
        obtain ⟨pending,answer⟩ := sdk.answered n id here
        exact (tracksResult moved (bounded calls n) pending answer ih).1
      · have other : ∀ id, k ≠ .packetResult id := fun id same => reported ⟨id,same⟩
        rw [sdk.rests n (fun id same => other id (Option.some.inj (here.symm.trans same)))]
        exact tracksOther moved other ih

theorem sdkNeverUnsafe {counter : Nat → Nat} (sdk : FromSdk calls counter) {n : Nat} {id : Int}
    (here : calls[n]? = some (.packetResult id)) (safe : (at' calls n).isUnsafe = false) :
    (at' calls (n+1)).isUnsafe = false := by
  have next : at' calls (n+1) = (step (at' calls n) (.packetResult id)).1 := stateNext step init here
  obtain ⟨pending,answer⟩ := sdk.answered n id here
  have moved := identityStep (at' calls n) (.packetResult id)
  rw [next]
  exact (tracksResult moved (bounded calls n) pending answer (tracksAt sdk n)).2 safe

variable (calls) in
/-- Identifiers accepted in one epoch are pairwise distinct, and an SDK that counts
cyclically is never taken for an ambiguous one. -/
theorem packetIdentity :
    (∀ i j a b, i < j → Accepted calls i a → Accepted calls j b →
      (∀ k, i < k → k < j → ¬Renewal calls k) → a ≠ b) ∧
    ∀ counter, FromSdk calls counter → ∀ n id, calls[n]? = some (.packetResult id) →
      (at' calls n).isUnsafe = false → (at' calls (n+1)).isUnsafe = false :=
  ⟨fun _ _ _ _ ordered first second sameEpoch => acceptedDistinct ordered first second sameEpoch,
    fun _ sdk _ _ here safe => sdkNeverUnsafe sdk here safe⟩

def wrappingCalls : List Call :=
  [.connected,.packetBegin,.packetResult 65535,.packetBegin,.packetResult 1]

def wrappingCounter (n : Nat) : Nat := if n ≤ 2 then 65534 else if n ≤ 4 then 65535 else 1

theorem wrappingSdk : FromSdk wrappingCalls wrappingCounter where
  first := by decide
  answered := by
    intro n id here
    have inside : n < 5 := (List.getElem?_eq_some_iff.mp here).1
    interval_cases n
    all_goals cases here
    · exact ⟨by decide,.success 65534⟩
    · exact ⟨by decide,.success 65535⟩
  rests := by
    intro n other
    by_cases inside : n < 5
    · interval_cases n
      all_goals first | rfl | exact absurd rfl (other _)
    · simp only [wrappingCounter]
      rw [if_neg (by omega),if_neg (by omega),if_neg (by omega),if_neg (by omega)]

theorem wrappedIdentity : Accepted wrappingCalls 2 65535 ∧ Accepted wrappingCalls 4 1 ∧
    (65535 : Int) ≠ 1 ∧ (at' wrappingCalls 5).isUnsafe = false := by
  have first : Accepted wrappingCalls 2 65535 := ⟨rfl,by decide,by decide⟩
  have second : Accepted wrappingCalls 4 1 := ⟨rfl,by decide,by decide⟩
  obtain ⟨distinct,sdk⟩ := packetIdentity wrappingCalls
  refine ⟨first,second,distinct 2 4 _ _ (by decide) first second ?_,
    sdk wrappingCounter wrappingSdk 4 1 rfl (by decide)⟩
  intro k low high renewal
  obtain rfl : k = 3 := by omega
  exact nomatch renewal.1

def Begun (calls : List Call) (n : Nat) : Prop :=
  calls[n]? = some .packetBegin ∧ (outs step init calls)[n]? = some (some true)
instance (calls n) : Decidable (Begun calls n) := by unfold Begun; infer_instance

def begunIn (calls : List Call) (m n : Nat) : Nat :=
  (List.range n).countP fun k => decide (m ≤ k ∧ Begun calls k)

/-- The budget goes back, or the alarm is taken away. -/
def Cleared (calls : List Call) (n : Nat) : Prop :=
  (at' calls (n+1)).attempts < (at' calls n).attempts ∨
    (at' calls n).isUnsafe = true ∧ (at' calls (n+1)).isUnsafe = false

structure ArmedAt (calls : List Call) (a n : Nat) : Prop where
  before : a < n
  call : calls[a]? = some (.armReset true)
  answer : (outs step init calls)[a]? = some (some true)
  free : (at' calls a).operationPending = false
  silent : ∀ k, a ≤ k → k < n → ¬Begun calls k

theorem armedAt (n : Nat) (armed : (at' calls n).resetArmed = true) : ∃ a, ArmedAt calls a n := by
  induction n with
  | zero => exact nomatch armed
  | succ n ih =>
    have extend (a : Nat) (old : ArmedAt calls a n) (quiet : ¬Begun calls n) : ArmedAt calls a (n+1) := by
      refine ⟨Nat.lt_succ_of_lt old.before,old.call,old.answer,old.free,fun k low high => ?_⟩
      rcases Nat.lt_succ_iff_lt_or_eq.mp high with inside | rfl
      · exact old.silent k low inside
      · exact quiet
    cases here : calls[n]? with
    | none =>
      have same : at' calls (n+1) = at' calls n := stateEnd step init here
      rw [same] at armed
      obtain ⟨a,old⟩ := ih armed
      exact ⟨a,extend a old fun begun => nomatch here.symm.trans begun.1⟩
    | some c =>
      have next : at' calls (n+1) = (step (at' calls n) c).1 := stateNext step init here
      have answer : (outs step init calls)[n]? = some (step (at' calls n) c).2 := by
        rw [outAt,here]
        rfl
      have moved := identityStep (at' calls n) c
      have armedAfter : (step (at' calls n) c).1.identity.resetArmed = true := next ▸ armed
      generalize (step (at' calls n) c).1.identity = v at moved armedAfter
      generalize (step (at' calls n) c).2 = r at moved answer
      have kept (before : (at' calls n).resetArmed = true) (refused : c = .packetBegin → r ≠ some true) :
          ∃ a, ArmedAt calls a (n+1) := by
        obtain ⟨a,old⟩ := ih before
        refine ⟨a,extend a old fun begun => ?_⟩
        exact refused (Option.some.inj (here.symm.trans begun.1))
          (Option.some.inj (answer.symm.trans begun.2))
      cases moved with
      | began free safe unarmed => exact nomatch unarmed.symm.trans armedAfter
      | armed free =>
        refine ⟨n,Nat.lt_succ_self n,here,answer,free,fun k low high => ?_⟩
        obtain rfl : k = n := by omega
        exact fun begun => nomatch here.symm.trans begun.1
      | alarmed unanswered => exact kept armedAfter fun _ => unanswered
      | still socket unreported refused =>
        exact kept armedAfter fun begin_ answered => nomatch (refused (.inl begin_)).symm.trans answered
      | renewed => exact nomatch armedAfter
      | down => exact kept armedAfter nofun
      | up => exact kept armedAfter nofun
      | accepted => exact kept armedAfter nofun
      | failed => exact kept armedAfter nofun
      | ignored => exact kept armedAfter nofun
      | doubted => exact kept armedAfter nofun

theorem clearedRenews {n : Nat} (cleared : Cleared calls n) : Renewal calls n := by
  cases here : calls[n]? with
  | none =>
    have same : at' calls (n+1) = at' calls n := stateEnd step init here
    rcases cleared with less | ⟨bad,safe⟩
    · rw [same] at less
      omega
    · rw [same] at safe
      exact nomatch bad.symm.trans safe
  | some c =>
    have next : at' calls (n+1) = (step (at' calls n) c).1 := stateNext step init here
    have moved := identityStep (at' calls n) c
    have changed : (step (at' calls n) c).1.identity.attempts < (at' calls n).attempts ∨
        (at' calls n).isUnsafe = true ∧ (step (at' calls n) c).1.identity.isUnsafe = false := next ▸ cleared
    generalize (step (at' calls n) c).1.identity = v at moved changed
    generalize (step (at' calls n) c).2 = r at moved
    cases moved with
    | renewed renews => exact ⟨here,renews⟩
    | _ => simp_all [Guard.identity]

theorem begunStep {n : Nat} (begun : Begun calls n) :
    (at' calls (n+1)).attempts = (at' calls n).attempts + 1 := by
  obtain ⟨here,answered⟩ := begun
  have next : at' calls (n+1) = (step (at' calls n) .packetBegin).1 := stateNext step init here
  have moved := identityStep (at' calls n) .packetBegin
  rw [replyAt here answered] at moved
  have total : (at' calls (n+1)).attempts = (step (at' calls n) .packetBegin).1.identity.attempts :=
    congrArg Guard.attempts next
  rw [total]
  generalize (step (at' calls n) .packetBegin).1.identity = v at moved
  generalize same : (some true : Option Bool) = r at moved
  cases moved with
  | began => rfl
  | alarmed unanswered => exact absurd same.symm unanswered
  | still socket unreported refused => exact nomatch same.trans (refused (.inl rfl))

theorem attemptsGrow {n : Nat} (kept : ¬Cleared calls n) :
    (at' calls n).attempts + (if Begun calls n then 1 else 0) ≤ (at' calls (n+1)).attempts := by
  by_cases begun : Begun calls n
  · rw [if_pos begun,begunStep begun]
  · rw [if_neg begun]
    exact Nat.le_of_not_lt fun less => kept (.inl less)

theorem begunBudget {m n : Nat} (ordered : m ≤ n) (kept : ∀ k, m ≤ k → k < n → ¬Cleared calls k) :
    (at' calls m).attempts + begunIn calls m n ≤ (at' calls n).attempts := by
  induction n, ordered using Nat.le_induction with
  | base =>
    have none : begunIn calls m m = 0 := by
      refine List.countP_eq_zero.mpr fun k member => ?_
      have below := List.mem_range.mp member
      simp only [decide_eq_true_eq]
      omega
    omega
  | succ n late ih =>
    have before := ih fun k low high => kept k low (Nat.lt_succ_of_lt high)
    have grow := attemptsGrow (kept n late (Nat.lt_succ_self n))
    have count : begunIn calls m (n+1) = begunIn calls m n + if Begun calls n then 1 else 0 := by
      simp [begunIn,List.range_succ,List.countP_append,late]
    omega

variable (calls) in
/-- The budget and the alarm are cleared only by a CONNECTED that follows an arming with
an empty outbox and nothing in flight, then a moment with the socket down, with no packet
begun in between; so an epoch begins at most 60000 packets. -/
theorem epochRenewal :
    (∀ n, Cleared calls n → calls[n]? = some .connected ∧ ∃ a m, ArmedAt calls a n ∧
      a < m ∧ m ≤ n ∧ (at' calls m).connected = false) ∧
    ∀ m n, m ≤ n → (∀ k, m ≤ k → k < n → ¬Cleared calls k) → begunIn calls m n ≤ budget := by
  constructor
  · intro n cleared
    obtain ⟨here,renews⟩ := clearedRenews cleared
    obtain ⟨a,armed⟩ := armedAt n renews.2.2.1
    exact ⟨here,a,n,armed,armed.before,Nat.le_refl n,renews.1⟩
  · intro m n ordered kept
    have spent := begunBudget ordered kept
    have total : (at' calls n).attempts ≤ budget := (bounded calls n).2
    omega

end Run

def renewingCalls : List Call :=
  [.connected,.packetBegin,.packetResult (-1),.armReset true,.disconnected,.connected]

theorem epochRenewed : ∃ a m, ArmedAt renewingCalls a 5 ∧ a < m ∧ m ≤ 5 ∧
    (at' renewingCalls m).connected = false :=
  ((epochRenewal renewingCalls).1 5 (.inl (by decide))).2

end Web3PiUps.MqttPacketGuard
