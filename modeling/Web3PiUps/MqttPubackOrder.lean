import Web3PiUps.MqttProbeProof
import Mathlib.Data.Finset.Card
import Mathlib.Data.Finset.Dedup

/-! Acknowledgements before and after the probe's result. Those before it wait in
the early list, those after it are compared at once, and both ways the first one of
the probe's identifier counts. -/
namespace Web3PiUps.MqttPacketGuard
open StepMachine

structure Puback where
  packetId : Int
  receivedMs : Nat
  deriving DecidableEq, Repr

def Puback.call (generation : Nat) (p : Puback) : Call := .puback generation p.packetId p.receivedMs

/-- The calls of one probe from its begin on: its two results, in order, among the
acknowledgements of the current generation. -/
def orderedCalls (generation token : Nat) (id : Int) (now : Nat) (early between late : List Puback) : List Call :=
  early.map (Puback.call generation) ++ .packetResult id :: (between.map (Puback.call generation) ++
    .probeResult token id now :: late.map (Puback.call generation))

structure Verdict where
  probeState : ProbeState
  proofValid : Bool
  proofAtMs : Nat
  proofGeneration : Nat
  deriving DecidableEq, Repr

def Guard.verdict (g : Guard) : Verdict := ⟨g.probeState,g.proofValid,g.proofAtMs,g.proofGeneration⟩

/-- The first acknowledgement of the probe's identifier decides. -/
def settled (g : Guard) (id : Int) (acks : List Puback) : Verdict :=
  match acks.find? (fun p => p.packetId = id) with
  | some p => ⟨.acked,true,p.receivedMs,g.generation⟩
  | none => ⟨.pending,g.proofValid,g.proofAtMs,g.proofGeneration⟩

/-- Few enough to be kept, and in time. -/
structure Deliverable (g : Guard) (acks : List Puback) : Prop where
  few : (acks.map Puback.packetId).toFinset.card ≤ earlyAcks
  inTime : ∀ p ∈ acks, withinDeadline g p.receivedMs

/-- With no acknowledgement at all the two results succeed. -/
structure Succeeds (g : Guard) (token : Nat) (id : Int) (now : Nat) : Prop where
  packet : (packetResult g id).2 = true
  probe : (probeResult (packetResult g id).1 token id now).1.probeState = .pending

/-- `g` is the state right after the probe began. -/
structure Interchangeable (g : Guard) (token : Nat) (id : Int) (now : Nat) (acks : List Puback) : Prop where
  same : ∀ early between late early' between' late',
    early ++ between ++ late = acks → early' ++ between' ++ late' = acks →
    (final step g (orderedCalls g.generation token id now early between late)).verdict =
      (final step g (orderedCalls g.generation token id now early' between' late')).verdict
  verdict : ∀ early between late, early ++ between ++ late = acks →
    (final step g (orderedCalls g.generation token id now early between late)).verdict = settled g id acks

def noted (early : List EarlyAck) (p : Puback) : List EarlyAck :=
  if 0 < p.packetId ∧ p.packetId ≤ uint16Max ∧ ¬early.any (fun ack => ack.packetId = p.packetId.toNat) then
    early ++ [⟨p.packetId.toNat,p.receivedMs⟩]
  else early

/-- The state between the begin of a probe and its result. -/
structure Arming (g : Guard) : Prop where
  connected : g.connected = true
  safe : g.isUnsafe = false
  arming : g.probeState = .arming
  generation : g.probeGeneration = g.generation

/-- The identifiers kept so far, each once and each of one of `ids`. -/
structure Kept (ids : Finset Int) (early : List EarlyAck) : Prop where
  once : (early.map EarlyAck.packetId).Nodup
  among : ∀ ack ∈ early, (ack.packetId : Int) ∈ ids

theorem keptSize {ids : Finset Int} {early : List EarlyAck} (kept : Kept ids early) :
    early.length ≤ ids.card := by
  have nodup : (early.map fun ack => (ack.packetId : Int)).Nodup := by
    have map := kept.once.map Int.ofNat_injective
    rw [List.map_map] at map
    exact map
  have inside : (early.map fun ack => (ack.packetId : Int)).toFinset ⊆ ids := by
    intro x member
    obtain ⟨ack,there,rfl⟩ := List.mem_map.mp (List.mem_toFinset.mp member)
    exact kept.among ack there
  calc early.length = (early.map fun ack => (ack.packetId : Int)).length := (List.length_map _).symm
    _ = (early.map fun ack => (ack.packetId : Int)).toFinset.card := (List.toFinset_card_of_nodup nodup).symm
    _ ≤ ids.card := Finset.card_le_card inside

theorem notedKept {ids : Finset Int} {early : List EarlyAck} {p : Puback} (kept : Kept ids early)
    (member : p.packetId ∈ ids) : Kept ids (noted early p) := by
  unfold noted
  split
  · rename_i new
    obtain ⟨positive,-,fresh⟩ := new
    have value : ((p.packetId.toNat : Nat) : Int) = p.packetId := Int.toNat_of_nonneg (by omega)
    constructor
    · rw [List.map_append,List.nodup_append]
      refine ⟨kept.once,List.nodup_singleton _,?_⟩
      intro a inEarly b inNew same
      obtain ⟨ack,there,rfl⟩ := List.mem_map.mp inEarly
      have b' : b = p.packetId.toNat := by simpa using inNew
      exact fresh (List.any_eq_true.mpr ⟨ack,there,decide_eq_true (same.trans b')⟩)
    · intro ack there
      rcases List.mem_append.mp there with old | new
      · exact kept.among ack old
      · cases List.mem_singleton.mp new
        rw [value]
        exact member
  · exact kept

theorem armingPuback {g : Guard} {ids : Finset Int} {p : Puback} (arming : Arming g) (kept : Kept ids g.early)
    (few : ids.card ≤ earlyAcks) (member : p.packetId ∈ ids) (inTime : withinDeadline g p.receivedMs) :
    (step g (p.call g.generation)).1 = { g with early := noted g.early p } := by
  have active : probeActive g := .inl arming.arming
  show (onPuback g g.generation p.packetId p.receivedMs).1 = _
  unfold onPuback
  by_cases valid : 0 < p.packetId ∧ p.packetId ≤ uint16Max
  · have concerns : Concerns g g.generation p.packetId :=
      ⟨arming.connected,arming.safe,active,rfl,arming.generation.symm,valid.1,valid.2⟩
    have notPending : g.probeState ≠ .pending := by rw [arming.arming]; decide
    rw [if_neg (not_not_intro concerns),if_neg (Nat.not_lt.mpr inTime.1),if_neg (not_not_intro inTime),
      if_neg notPending]
    by_cases known : g.early.any (fun ack => ack.packetId = p.packetId.toNat) = true
    · have old : noted g.early p = g.early := if_neg fun new => new.2.2 known
      rw [if_pos known,old]
    · have new : noted g.early p = g.early ++ [⟨p.packetId.toNat,p.receivedMs⟩] :=
        if_pos ⟨valid.1,valid.2,known⟩
      have room : g.early.length ≠ earlyAcks := by
        intro full
        have more := keptSize (notedKept kept member)
        rw [new,List.length_append,full] at more
        exact absurd (more.trans few) (Nat.not_succ_le_self _)
      rw [if_neg known,if_neg room,new]
  · have stranger : ¬Concerns g g.generation p.packetId := fun concerns =>
      valid ⟨concerns.2.2.2.2.2.1,concerns.2.2.2.2.2.2⟩
    have old : noted g.early p = g.early := if_neg fun new => valid ⟨new.1,new.2.1⟩
    rw [if_pos stranger,old]

theorem armingRun {g : Guard} {ids : Finset Int} (few : ids.card ≤ earlyAcks) (acks : List Puback)
    (arming : Arming g) (kept : Kept ids g.early) (members : ∀ p ∈ acks, p.packetId ∈ ids)
    (inTime : ∀ p ∈ acks, withinDeadline g p.receivedMs) :
    final step g (acks.map (Puback.call g.generation)) = { g with early := acks.foldl noted g.early } ∧
      Kept ids (acks.foldl noted g.early) := by
  induction acks generalizing g with
  | nil => exact ⟨rfl,kept⟩
  | cons p rest ih =>
    have first := armingPuback arming kept few (members p (List.mem_cons_self ..))
      (inTime p (List.mem_cons_self ..))
    have next : Arming { g with early := noted g.early p } :=
      ⟨arming.connected,arming.safe,arming.arming,arming.generation⟩
    rw [List.map_cons,finalCons,first]
    exact ih next (notedKept kept (members p (List.mem_cons_self ..)))
      (fun q later => members q (List.mem_cons_of_mem p later))
      (fun q later => inTime q (List.mem_cons_of_mem p later))

theorem notedFind {id : Int} (positive : 0 < id) (fits : id ≤ uint16Max) (acks : List Puback)
    (early : List EarlyAck) :
    (acks.foldl noted early).find? (fun ack => ack.packetId = id.toNat) =
      (early.find? (fun ack => ack.packetId = id.toNat)).or
        ((acks.find? (fun p => p.packetId = id)).map fun p => ⟨id.toNat,p.receivedMs⟩) := by
  induction acks generalizing early with
  | nil => simp
  | cons p rest ih =>
    rw [List.foldl_cons,ih]
    by_cases same : p.packetId = id
    · have there : (noted early p).find? (fun ack => ack.packetId = id.toNat) =
          (early.find? (fun ack => ack.packetId = id.toNat)).or (some ⟨id.toNat,p.receivedMs⟩) := by
        cases known : early.find? (fun ack => ack.packetId = id.toNat) with
        | some ack =>
          have any : early.any (fun ack => ack.packetId = p.packetId.toNat) = true := by
            rw [same]
            exact List.any_eq_true.mpr ⟨ack,List.mem_of_find?_eq_some known,by simpa using List.find?_some known⟩
          have old : noted early p = early := if_neg fun new => new.2.2 any
          rw [old,known]
          rfl
        | none =>
          have fresh : ¬early.any (fun ack => ack.packetId = p.packetId.toNat) = true := by
            rw [same]
            intro any
            obtain ⟨ack,inEarly,equal⟩ := List.any_eq_true.mp any
            exact List.find?_eq_none.mp known ack inEarly equal
          have new : noted early p = early ++ [⟨p.packetId.toNat,p.receivedMs⟩] :=
            if_pos ⟨same ▸ positive,same ▸ fits,fresh⟩
          rw [new,List.find?_append,known,same]
          simp
      rw [there,List.find?_cons_of_pos (by simp [same])]
      cases early.find? (fun ack => ack.packetId = id.toNat) <;> rfl
    · have other : (noted early p).find? (fun ack => ack.packetId = id.toNat) =
          early.find? (fun ack => ack.packetId = id.toNat) := by
        unfold noted
        split
        · rename_i new
          have apart : p.packetId.toNat ≠ id.toNat := fun equal => same (sameId new.1 positive equal)
          rw [List.find?_append]
          simp [apart]
        · rfl
      rw [other,List.find?_cons_of_neg (by simp [same])]

theorem decidedRun {g : Guard} (idle : ¬probeActive g) (generation : Nat) (acks : List Puback) :
    final step g (acks.map (Puback.call generation)) = g := by
  induction acks with
  | nil => rfl
  | cons p rest ih =>
    have first : (step g (p.call generation)).1 = g := by
      show (onPuback g generation p.packetId p.receivedMs).1 = g
      rw [onPuback,if_pos fun concerns => idle concerns.2.2.1]
    rw [List.map_cons,finalCons,first]
    exact ih

theorem pendingRun {g : Guard} {id : Int} (positive : 0 < id) (fits : id ≤ uint16Max)
    (connected : g.connected = true) (safe : g.isUnsafe = false) (pending : g.probeState = .pending)
    (generation : g.probeGeneration = g.generation) (mine : g.probePacketId = id.toNat) (acks : List Puback)
    (inTime : ∀ p ∈ acks, withinDeadline g p.receivedMs) :
    (final step g (acks.map (Puback.call g.generation))).verdict = settled g id acks := by
  induction acks with
  | nil => simp [settled,Guard.verdict,pending]
  | cons p rest ih =>
    have here := inTime p (List.mem_cons_self ..)
    have asked : (step g (p.call g.generation)).1 = (onPuback g g.generation p.packetId p.receivedMs).1 := rfl
    rw [List.map_cons,finalCons,asked]
    by_cases same : p.packetId = id
    · have accepted : (onPuback g g.generation p.packetId p.receivedMs).1 = (acceptAck g p.receivedMs).1 := by
        have concerns : Concerns g g.generation p.packetId :=
          ⟨connected,safe,.inr pending,rfl,generation.symm,same ▸ positive,same ▸ fits⟩
        have equal : ¬p.packetId.toNat ≠ g.probePacketId := by rw [same,mine]; exact not_not_intro rfl
        rw [onPuback,if_neg (not_not_intro concerns),if_neg (Nat.not_lt.mpr here.1),
          if_neg (not_not_intro here),if_pos pending,if_neg equal]
      rw [accepted,acceptAck,if_neg (not_not_intro here),
        decidedRun (by rintro (h | h) <;> cases h)]
      rw [settled,List.find?_cons_of_pos (by simp [same])]
      rfl
    · have ignored : (onPuback g g.generation p.packetId p.receivedMs).1 = g := by
        unfold onPuback
        by_cases concerns : Concerns g g.generation p.packetId
        · have apart : p.packetId.toNat ≠ g.probePacketId := by
            rw [mine]
            exact fun equal => same (sameId concerns.2.2.2.2.2.1 positive equal)
          rw [if_neg (not_not_intro concerns),if_neg (Nat.not_lt.mpr here.1),if_neg (not_not_intro here),
            if_pos pending,if_pos apart]
        · rw [if_pos concerns]
      rw [ignored,ih fun q later => inTime q (List.mem_cons_of_mem p later)]
      rw [settled,settled,List.find?_cons_of_neg (by simp [same])]

/-- The state a successful report leaves, with `early` put by. -/
def withPacket (g : Guard) (id : Int) (last since : Nat) (have_ : Bool) (early : List EarlyAck) : Guard :=
  { completed g id with lastPacketId := last, haveLastPacketId := have_, attemptsSinceId := since,
                        early := early }

structure Reported (g : Guard) (id : Int) (last since : Nat) (have_ : Bool) : Prop where
  begun : ¬g.operationPending = false
  safe : ¬g.isUnsafe = true
  result : packetResult g id = (withPacket g id last since have_ g.early,true)
  failed : id < 0 ∧ last = g.lastPacketId ∧ have_ = g.haveLastPacketId ∧ since = g.attemptsSinceId ∨
    ¬id < 0 ∧ ¬(id = 0 ∨ uint16Max < id) ∧ ¬Ambiguous (completed g id) id.toNat ∧
      last = id.toNat ∧ have_ = true ∧ since = 0

theorem reported {g : Guard} {id : Int} (success : (packetResult g id).2 = true) :
    ∃ last since have_, Reported g id last since have_ := by
  by_cases begun : g.operationPending = false
  · have refused : packetResult g id = markUnsafe g := if_pos begun
    rw [refused] at success
    cases success
  by_cases safe : g.isUnsafe = true
  · have refused : packetResult g id = (completed g id,false) := (if_neg begun).trans (if_pos safe)
    rw [refused] at success
    cases success
  by_cases failed : id < 0
  · exact ⟨_,_,_,begun,safe,(if_neg begun).trans ((if_neg safe).trans (if_pos failed)),
      .inl ⟨failed,rfl,rfl,rfl⟩⟩
  by_cases outside : id = 0 ∨ uint16Max < id
  · have refused : packetResult g id = markUnsafe (completed g id) :=
      (if_neg begun).trans ((if_neg safe).trans ((if_neg failed).trans (if_pos outside)))
    rw [refused] at success
    cases success
  by_cases unclear : Ambiguous (completed g id) id.toNat
  · have refused : packetResult g id = markUnsafe (completed g id) :=
      (if_neg begun).trans ((if_neg safe).trans ((if_neg failed).trans ((if_neg outside).trans
        (if_pos unclear))))
    rw [refused] at success
    cases success
  exact ⟨_,_,_,begun,safe,(if_neg begun).trans ((if_neg safe).trans ((if_neg failed).trans
    ((if_neg outside).trans (if_neg unclear)))),.inr ⟨failed,outside,unclear,rfl,rfl,rfl⟩⟩

theorem reportedEarly {g : Guard} {id : Int} {last since : Nat} {have_ : Bool}
    (r : Reported g id last since have_) (early : List EarlyAck) :
    packetResult { g with early := early } id = (withPacket g id last since have_ early,true) := by
  obtain ⟨begun,safe,-,⟨failed,rfl,rfl,rfl⟩ | ⟨used,inside,clear,rfl,rfl,rfl⟩⟩ := r
  · exact (if_neg begun).trans ((if_neg safe).trans (if_pos failed))
  · exact (if_neg begun).trans ((if_neg safe).trans ((if_neg used).trans
      ((if_neg inside).trans (if_neg clear))))

structure Taken (g : Guard) (token : Nat) (id : Int) (now : Nat) : Prop where
  own : OwnResult g id
  token : token = g.probeToken
  inTime : withinDeadline g now

theorem taken {g : Guard} {token : Nat} {id : Int} {now : Nat} (arming : g.probeState = .arming)
    (pending : (probeResult g token id now).1.probeState = .pending) : Taken g token id now := by
  by_cases stranger : g.probeState ≠ .arming ∨ token ≠ g.probeToken
  · rw [probeResult,if_pos stranger,arming] at pending
    cases pending
  obtain ⟨-,mine⟩ := not_or.mp stranger
  by_cases other : ¬OwnResult g id
  · rw [probeResult,if_neg stranger,if_pos other] at pending
    cases pending
  by_cases late : ¬withinDeadline g now
  · rw [probeResult,if_neg stranger,if_neg other,if_pos late] at pending
    cases pending
  exact ⟨not_not.mp other,not_not.mp mine,not_not.mp late⟩

/-- The result of a probe with `kept` put by, and the acknowledgements still to come. -/
theorem resultRun {g : Guard} {token : Nat} {id : Int} {now : Nat} (t : Taken g token id now)
    (arming : Arming g) (ackd : List Puback) (kept : g.early = ackd.foldl noted [])
    (ackdInTime : ∀ p ∈ ackd, withinDeadline g p.receivedMs) (late : List Puback)
    (lateInTime : ∀ p ∈ late, withinDeadline g p.receivedMs) :
    (final step g (.probeResult token id now :: late.map (Puback.call g.generation))).verdict =
      settled g id (ackd ++ late) := by
  obtain ⟨own,rfl,inTime⟩ := t
  have positive : 0 < id := own.2.2.2.2.2.2.1
  have fits : id ≤ uint16Max := own.2.2.2.2.2.2.2
  have mine : ¬(g.probeState ≠ .arming ∨ g.probeToken ≠ g.probeToken) := by
    simp [arming.arming]
  have asked : (step g (.probeResult g.probeToken id now)).1 =
      (matchEarly { g with probePacketId := id.toNat, probeState := .pending } id.toNat).1 := by
    show (probeResult g g.probeToken id now).1 = _
    rw [probeResult,if_neg mine,if_neg (not_not_intro own),if_neg (not_not_intro inTime)]
  have found := notedFind positive fits ackd []
  rw [← kept,List.find?_nil,Option.none_or] at found
  rw [finalCons,asked,settled,List.find?_append]
  unfold matchEarly
  cases here : ackd.find? (fun p => p.packetId = id) with
  | some p =>
    rw [here] at found
    have early : ({ g with probePacketId := id.toNat, probeState := .pending } : Guard).early.find?
        (fun ack => ack.packetId = id.toNat) = some ⟨id.toNat,p.receivedMs⟩ := found
    have still : withinDeadline { g with probePacketId := id.toNat, probeState := .pending } p.receivedMs :=
      ackdInTime p (List.mem_of_find?_eq_some here)
    simp only [early,acceptAck,if_neg (not_not_intro still)]
    rw [decidedRun (by rintro (h | h) <;> cases h)]
    rfl
  | none =>
    rw [here] at found
    have early : ({ g with probePacketId := id.toNat, probeState := .pending } : Guard).early.find?
        (fun ack => ack.packetId = id.toNat) = none := found
    simp only [early,Option.none_or]
    exact pendingRun (g := { g with probePacketId := id.toNat, probeState := .pending, early := [] })
      positive fits arming.connected arming.safe rfl arming.generation rfl late lateInTime

theorem orderedVerdict {g : Guard} {token : Nat} {id : Int} {now : Nat} (arming : Arming g)
    (none : g.early = []) {acks : List Puback} (deliverable : Deliverable g acks)
    (succeeds : Succeeds g token id now) (early between late : List Puback)
    (order : early ++ between ++ late = acks) :
    (final step g (orderedCalls g.generation token id now early between late)).verdict =
      settled g id acks := by
  subst order
  have member : ∀ p ∈ early ++ between ++ late, p.packetId ∈
      ((early ++ between ++ late).map Puback.packetId).toFinset := fun p there =>
    List.mem_toFinset.mpr (List.mem_map_of_mem there)
  have inEarly : ∀ p ∈ early, p ∈ early ++ between ++ late := fun p there =>
    List.mem_append_left _ (List.mem_append_left _ there)
  have inBetween : ∀ p ∈ between, p ∈ early ++ between ++ late := fun p there =>
    List.mem_append_left _ (List.mem_append_right _ there)
  have inLate : ∀ p ∈ late, p ∈ early ++ between ++ late := fun p there => List.mem_append_right _ there
  obtain ⟨last,since,have_,r⟩ := reported succeeds.packet
  have start : Kept ((early ++ between ++ late).map Puback.packetId).toFinset g.early := by
    rw [none]
    exact ⟨List.nodup_nil,fun _ there => absurd there List.not_mem_nil⟩
  -- before the packet's result
  obtain ⟨first,keptFirst⟩ := armingRun deliverable.few early arming start
    (fun p there => member p (inEarly p there)) (fun p there => deliverable.inTime p (inEarly p there))
  rw [orderedCalls,finalAppend,first,none]
  rw [none] at keptFirst
  -- the packet's result
  have report : (step { g with early := early.foldl noted [] } (.packetResult id)).1 =
      withPacket g id last since have_ (early.foldl noted []) :=
    congrArg Prod.fst (reportedEarly r (early.foldl noted []))
  rw [finalCons,report]
  -- between the two results
  have still (e : List EarlyAck) : Arming (withPacket g id last since have_ e) :=
    ⟨arming.connected,arming.safe,arming.arming,arming.generation⟩
  have second : final step (withPacket g id last since have_ (early.foldl noted []))
      (between.map (Puback.call g.generation)) =
      withPacket g id last since have_ ((early ++ between).foldl noted []) := by
    rw [List.foldl_append]
    exact (armingRun deliverable.few between (still (early.foldl noted [])) keptFirst
      (fun p there => member p (inBetween p there))
      (fun p there => deliverable.inTime p (inBetween p there))).1
  rw [finalAppend,second]
  -- the probe's result
  have pending := succeeds.probe
  rw [r.result] at pending
  have own := taken (still g.early).arming pending
  exact resultRun (g := withPacket g id last since have_ ((early ++ between).foldl noted []))
    ⟨own.own,own.token,own.inTime⟩ (still _) (early ++ between) rfl
    (fun p there => deliverable.inTime p (List.mem_append_left _ there)) late
    (fun p there => deliverable.inTime p (inLate p there))

theorem pubackOrder (g : Guard) (token started timeout : Nat)
    (begun : (probeBegin g token started timeout).2 = true) (id : Int) (now : Nat) (acks : List Puback)
    (deliverable : Deliverable (probeBegin g token started timeout).1 acks)
    (succeeds : Succeeds (probeBegin g token started timeout).1 token id now) :
    Interchangeable (probeBegin g token started timeout).1 token id now acks := by
  have may : MayProbe g token timeout := by
    by_contra refused
    rw [probeBegin,if_pos refused] at begun
    cases begun
  have opened : (probeBegin g token started timeout).1 =
      { g with probeState := .arming, probeToken := token, probeGeneration := g.generation,
               probeOperationSerial := g.operationSerial, probeStartedMs := started,
               probeTimeoutMs := timeout, probePacketId := 0, early := [] } := by
    rw [probeBegin,if_neg (not_not_intro may)]
  have arming : Arming (probeBegin g token started timeout).1 := by
    rw [opened]
    exact ⟨may.1,may.2.2.1,rfl,rfl⟩
  have none : (probeBegin g token started timeout).1.early = [] := by rw [opened]
  have verdict := orderedVerdict arming none deliverable succeeds
  refine ⟨?_,verdict⟩
  intro early between late early' between' late' order order'
  rw [verdict early between late order,verdict early' between' late' order']

def strangersAndTwice : List Puback := [⟨4,110⟩,⟨3,120⟩,⟨3,125⟩,⟨5,128⟩]

theorem strangersOrder :
    Interchangeable (probeBegin (final step init [.connected,.packetBegin]) 7 100 50).1 7 3 130 strangersAndTwice ∧
      settled (probeBegin (final step init [.connected,.packetBegin]) 7 100 50).1 3 strangersAndTwice =
        ⟨.acked,true,120,1⟩ :=
  ⟨pubackOrder (final step init [.connected,.packetBegin]) 7 100 50 rfl 3 130 strangersAndTwice
    ⟨by decide,by decide⟩ ⟨rfl,rfl⟩,rfl⟩

end Web3PiUps.MqttPacketGuard
