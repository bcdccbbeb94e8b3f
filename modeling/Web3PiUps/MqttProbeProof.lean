import Web3PiUps.MqttPacketEpochs

/-! What an accepted acknowledgement stands for: one begun probe, the identifier
of the operation it was begun for, and a receipt in the same connection and in time. -/
namespace Web3PiUps.MqttPacketGuard
open StepMachine

def Call.proving : Call → Prop
  | .puback _ _ _ | .probeResult _ _ _ => True
  | _ => False

/-- What one call does to the probe, with the answer it gives. -/
inductive ProbeStep (g : Guard) : Call → Guard → Option Bool → Prop where
  | begun {token started timeout : Nat} (may : MayProbe g token timeout) :
      ProbeStep g (.probeBegin token started timeout)
        { g with probeState := .arming, probeToken := token, probeGeneration := g.generation,
                 probeOperationSerial := g.operationSerial, probeStartedMs := started,
                 probeTimeoutMs := timeout, probePacketId := 0, early := [] } (some true)
  | reserved (free : g.operationPending = false) :
      ProbeStep g .packetBegin
        { g with attempts := g.attempts+1, attemptsSinceId := g.attemptsSinceId+1,
                 operationSerial := g.operationSerial+1, operationPending := true } (some true)
  | reported {id : Int} {last since : Nat} {have_ : Bool} {r : Option Bool}
      (pending : g.operationPending = true) :
      ProbeStep g (.packetResult id)
        { completed g id with lastPacketId := last, haveLastPacketId := have_, attemptsSinceId := since } r
  | matched {id : Int} {now : Nat} (arming : g.probeState = .arming) (own : OwnResult g id) :
      ProbeStep g (.probeResult g.probeToken id now)
        { g with probePacketId := id.toNat, probeState := .pending, early := [] } (some false)
  | confirmed {id : Int} {now : Nat} {ack : EarlyAck} (arming : g.probeState = .arming)
      (own : OwnResult g id) (found : ack ∈ g.early) (same : ack.packetId = id.toNat)
      (inTime : withinDeadline g ack.receivedMs) :
      ProbeStep g (.probeResult g.probeToken id now)
        { g with probePacketId := id.toNat, probeState := .acked, early := [], proofAtMs := ack.receivedMs,
                 proofGeneration := g.generation, proofValid := true } (some true)
  | buffered {id : Int} {received : Nat} (arming : g.probeState = .arming)
      (concerns : Concerns g g.generation id) (inTime : withinDeadline g received) :
      ProbeStep g (.puback g.generation id received)
        { g with early := g.early ++ [⟨id.toNat,received⟩] } (some false)
  | acked {id : Int} {received : Nat} (pending : g.probeState = .pending)
      (concerns : Concerns g g.generation id) (same : id.toNat = g.probePacketId)
      (inTime : withinDeadline g received) :
      ProbeStep g (.puback g.generation id received)
        { g with probeState := .acked, early := [], proofAtMs := received,
                 proofGeneration := g.generation, proofValid := true } (some true)
  | ended {c : Call} {g' : Guard} {r : Option Bool} (idle : ¬probeActive g') (unproved : g'.proofValid = false)
      (refused : c.proving → r = some false) : ProbeStep g c g' r
  | still {c : Call} {r : Option Bool} (refused : c.proving → r = some false)
      (socket : c ≠ .connected ∧ c ≠ .disconnected) (unreported : ∀ id, c ≠ .packetResult id)
      (unbegun : ∀ token started timeout, c = .probeBegin token started timeout → r = some false) :
      ProbeStep g c g r

theorem failProbeEnds (g : Guard) : ¬probeActive (failProbe g) ∧ (failProbe g).proofValid = false :=
  ⟨by rintro (h | h) <;> contradiction,rfl⟩

theorem retireEnds (g : Guard) : ¬probeActive (probeRetire g) ∧ (probeRetire g).proofValid = false :=
  ⟨by rintro (h | h) <;> contradiction,rfl⟩

theorem acceptAckCases (g : Guard) (receivedMs : Nat) :
    (withinDeadline g receivedMs ∧ acceptAck g receivedMs =
      ({ g with probeState := .acked, early := [], proofAtMs := receivedMs,
                proofGeneration := g.generation, proofValid := true },true)) ∨
    acceptAck g receivedMs = ({ g with probeState := .expired, proofValid := false },false) := by
  by_cases inTime : withinDeadline g receivedMs
  · exact .inl ⟨inTime,if_neg (not_not_intro inTime)⟩
  · exact .inr (if_pos inTime)

theorem matchEarlyCases (g : Guard) (packetId : Nat) :
    (∃ ack ∈ g.early, ack.packetId = packetId ∧ matchEarly g packetId = acceptAck g ack.receivedMs) ∨
    matchEarly g packetId = ({ g with early := [] },false) := by
  cases found : g.early.find? (fun ack => ack.packetId = packetId) with
  | none => exact .inr (by rw [matchEarly,found])
  | some ack =>
    refine .inl ⟨ack,List.mem_of_find?_eq_some found,?_,by rw [matchEarly,found]⟩
    simpa using List.find?_some found

theorem probeResultStep (g : Guard) (token : Nat) (id : Int) (now : Nat) :
    ProbeStep g (.probeResult token id now) (probeResult g token id now).1
      (some (probeResult g token id now).2) := by
  unfold probeResult
  by_cases other : g.probeState ≠ .arming ∨ token ≠ g.probeToken
  · rw [if_pos other]
    exact .still (fun _ => rfl) ⟨nofun,nofun⟩ nofun nofun
  rw [if_neg other]
  obtain ⟨arming,rfl⟩ : g.probeState = .arming ∧ token = g.probeToken := by simpa using other
  by_cases foreign : ¬OwnResult g id
  · rw [if_pos foreign]
    exact .ended (failProbeEnds g).1 rfl fun _ => rfl
  rw [if_neg foreign]
  have own := not_not.mp foreign
  by_cases late : ¬withinDeadline g now
  · rw [if_pos late]
    exact .ended (by rintro (h | h) <;> contradiction) rfl fun _ => rfl
  rw [if_neg late]
  rcases matchEarlyCases { g with probePacketId := id.toNat, probeState := .pending } id.toNat with
    ⟨ack,found,same,moved⟩ | moved
  · rw [moved]
    rcases acceptAckCases { g with probePacketId := id.toNat, probeState := .pending } ack.receivedMs with
      ⟨inTime,accepted⟩ | expired
    · rw [accepted]
      exact .confirmed arming own found same inTime
    · rw [expired]
      exact .ended (by rintro (h | h) <;> contradiction) rfl fun _ => rfl
  · rw [moved]
    exact .matched arming own

theorem expireStep (g : Guard) (c : Call) (now : Nat) {r : Option Bool} (refused : c.proving → r = some false)
    (socket : c ≠ .connected ∧ c ≠ .disconnected) (unreported : ∀ id, c ≠ .packetResult id)
    (unbegun : ∀ token started timeout, c = .probeBegin token started timeout → r = some false) :
    ProbeStep g c (probeExpire g now) r := by
  unfold probeExpire
  split
  · exact .ended (by rintro (h | h) <;> contradiction) rfl refused
  · exact .still refused socket unreported unbegun

theorem pubackStep (g : Guard) (generation : Nat) (id : Int) (received : Nat) :
    ProbeStep g (.puback generation id received) (onPuback g generation id received).1
      (some (onPuback g generation id received).2) := by
  have ignored : ProbeStep g (.puback generation id received) g (some false) :=
    .still (fun _ => rfl) ⟨nofun,nofun⟩ nofun nofun
  unfold onPuback
  by_cases foreign : ¬Concerns g generation id
  · rw [if_pos foreign]
    exact ignored
  rw [if_neg foreign]
  have concerns := not_not.mp foreign
  obtain rfl := concerns.2.2.2.1
  by_cases before : received < g.probeStartedMs
  · rw [if_pos before]
    exact ignored
  rw [if_neg before]
  by_cases late : ¬withinDeadline g received
  · rw [if_pos late]
    exact expireStep g _ received (fun _ => rfl) ⟨nofun,nofun⟩ nofun nofun
  rw [if_neg late]
  have inTime := not_not.mp late
  by_cases pending : g.probeState = .pending
  · rw [if_pos pending]
    by_cases other : id.toNat ≠ g.probePacketId
    · rw [if_pos other]
      exact ignored
    rw [if_neg other]
    rcases acceptAckCases g received with ⟨-,accepted⟩ | expired
    · rw [accepted]
      exact .acked pending concerns (not_not.mp other) inTime
    · rw [expired]
      exact .ended (by rintro (h | h) <;> contradiction) rfl fun _ => rfl
  rw [if_neg pending]
  have arming : g.probeState = .arming := concerns.2.2.1.resolve_right pending
  by_cases known : g.early.any (fun ack => ack.packetId = id.toNat) = true
  · rw [if_pos known]
    exact ignored
  rw [if_neg known]
  by_cases full : g.early.length = earlyAcks
  · rw [if_pos full]
    exact .ended (failProbeEnds g).1 rfl fun _ => rfl
  · rw [if_neg full]
    exact .buffered arming concerns inTime

theorem packetResultStep (g : Guard) (id : Int) :
    ProbeStep g (.packetResult id) (packetResult g id).1 (some (packetResult g id).2) := by
  have alarmed (g' : Guard) : ProbeStep g (.packetResult id) (markUnsafe g').1 (some false) :=
    .ended (failProbeEnds _).1 rfl fun _ => rfl
  simp only [packetResult]
  by_cases unasked : g.operationPending = false
  · rw [if_pos unasked]
    exact alarmed g
  rw [if_neg unasked]
  have pending : g.operationPending = true := by simpa using unasked
  split
  · exact .reported pending
  split
  · exact .reported pending
  split
  · exact alarmed _
  split
  · exact alarmed _
  · exact .reported pending

theorem packetBeginStep (g : Guard) :
    ProbeStep g .packetBegin (packetBegin g).1 (some (packetBegin g).2) := by
  unfold packetBegin
  by_cases overlap : g.operationPending = true ∨ g.operationSerial = uint64Max
  · rw [if_pos overlap]
    exact .ended (failProbeEnds _).1 rfl False.elim
  rw [if_neg overlap]
  have free : g.operationPending = false := by simpa using fun h => overlap (.inl h)
  split
  · exact .still False.elim ⟨nofun,nofun⟩ nofun nofun
  · exact .reserved free

theorem armResetStep (g : Guard) (empty : Bool) :
    ProbeStep g (.armReset empty) (armReset g empty).1 (some (armReset g empty).2) := by
  unfold armReset
  split
  · exact .still False.elim ⟨nofun,nofun⟩ nofun nofun
  · exact .ended (retireEnds _).1 rfl False.elim

theorem connectedStep (g : Guard) : ProbeStep g .connected (onConnected g) none := by
  unfold onConnected
  split
  · exact .ended (failProbeEnds _).1 rfl False.elim
  dsimp only
  split
  · exact .ended (by rintro (h | h) <;> contradiction) rfl False.elim
  · exact .ended (retireEnds _).1 rfl False.elim

theorem probeBeginStep (g : Guard) (token started timeout : Nat) :
    ProbeStep g (.probeBegin token started timeout) (probeBegin g token started timeout).1
      (some (probeBegin g token started timeout).2) := by
  unfold probeBegin
  by_cases may : MayProbe g token timeout
  · rw [if_neg (not_not_intro may)]
    exact .begun may
  · rw [if_pos may]
    exact .still False.elim ⟨nofun,nofun⟩ nofun fun _ _ _ _ => rfl

theorem probeStep (g : Guard) (c : Call) : ProbeStep g c (step g c).1 (step g c).2 := by
  cases c with
  | packetBegin => exact packetBeginStep g
  | packetResult id => exact packetResultStep g id
  | armReset empty => exact armResetStep g empty
  | disconnected => exact .ended (retireEnds _).1 rfl False.elim
  | connected => exact connectedStep g
  | probeBegin token started timeout => exact probeBeginStep g token started timeout
  | probeResult token id now => exact probeResultStep g token id now
  | puback generation id received => exact pubackStep g generation id received
  | probeExpire now => exact expireStep g _ now False.elim ⟨nofun,nofun⟩ nofun nofun
  | probeRetire => exact .ended (retireEnds g).1 rfl False.elim

/-- A probe in flight, and a valid proof, belong to the present safe connection. -/
structure Sound (g : Guard) : Prop where
  active : probeActive g → g.connected = true ∧ g.isUnsafe = false ∧ g.resetArmed = false ∧
    g.probeGeneration = g.generation
  proof : g.proofValid = true → g.connected = true ∧ g.isUnsafe = false ∧ g.resetArmed = false ∧
    g.proofGeneration = g.generation

theorem soundStep {g g' : Guard} {c : Call} {r : Option Bool} (moved : ProbeStep g c g' r)
    (sound : Sound g) : Sound g' := by
  obtain ⟨active,proof⟩ := sound
  cases moved with
  | begun may =>
    obtain ⟨connected,-,safe,unarmed,-⟩ := may
    exact ⟨fun _ => ⟨connected,safe,unarmed,rfl⟩,proof⟩
  | reserved => exact ⟨active,proof⟩
  | reported => exact ⟨active,proof⟩
  | matched arming own => exact ⟨fun _ => active (.inl arming),proof⟩
  | confirmed arming own found same inTime =>
    obtain ⟨connected,safe,unarmed,-⟩ := active (.inl arming)
    exact ⟨by rintro (h | h) <;> contradiction,fun _ => ⟨connected,safe,unarmed,rfl⟩⟩
  | buffered => exact ⟨active,proof⟩
  | acked pending concerns same inTime =>
    obtain ⟨connected,safe,unarmed,-⟩ := active (.inr pending)
    exact ⟨by rintro (h | h) <;> contradiction,fun _ => ⟨connected,safe,unarmed,rfl⟩⟩
  | ended idle unproved => exact ⟨fun live => absurd live idle,fun valid => nomatch unproved.symm.trans valid⟩
  | still => exact ⟨active,proof⟩

section Run
variable (calls : List Call)

theorem sound (n : Nat) : Sound (at' calls n) :=
  keepsBetween step init calls (P := Sound) (m := 0)
    ⟨by rintro (h | h) <;> contradiction,nofun⟩ (Nat.zero_le n)
    (fun _ c _ _ _ held => soundStep (probeStep _ c) held)

/-- The call establishes a proof. -/
def Proves (n : Nat) : Prop :=
  (∃ c, calls[n]? = some c ∧ c.proving) ∧ (outs step init calls)[n]? = some (some true)

def BeginsProbe (n token started timeout : Nat) : Prop :=
  calls[n]? = some (.probeBegin token started timeout) ∧ (outs step init calls)[n]? = some (some true)

/-- The result of the operation in flight at position `b`. -/
def FirstResult (b r : Nat) (id : Int) : Prop :=
  b < r ∧ calls[r]? = some (.packetResult id) ∧
    ∀ k j, b < k → k < r → calls[k]? ≠ some (.packetResult j)

/-- An acknowledgement received at `p` in the connection of position `b`. -/
structure Receipt (b p : Nat) (generation : Nat) (id : Int) (received started timeout : Nat) : Prop where
  after : b < p
  call : calls[p]? = some (.puback generation id received)
  connection : (at' calls p).connected = true ∧ (at' calls p).generation = generation
  inTime : started ≤ received ∧ received < started + timeout

structure Quiet (b n : Nat) : Prop where
  proofs : ∀ k, b < k → k < n → ¬Proves calls k
  probes : ∀ k token started timeout, b < k → k < n → ¬BeginsProbe calls k token started timeout
  socket : ∀ k, b < k → k < n → calls[k]? ≠ some .connected ∧ calls[k]? ≠ some .disconnected

/-- Where the operation of the probe begun at `b` stands. -/
inductive Operation (b n : Nat) (g : Guard) : Prop where
  | running (pending : g.operationPending = true) (serial : g.operationSerial = g.probeOperationSerial)
      (unreported : ∀ k id, b < k → k < n → calls[k]? ≠ some (.packetResult id))
  | finished {r : Nat} {id : Int} (first : FirstResult calls b r id) (before : r < n)
      (serial : g.probeOperationSerial ≤ g.operationSerial)
      (fresh : g.operationPending = true → g.probeOperationSerial < g.operationSerial)
      (own : g.completedOperationSerial = g.probeOperationSerial → g.completedPacketId = id)

structure Probing (b n : Nat) (g : Guard) : Prop where
  before : b < n
  begun : BeginsProbe calls b g.probeToken g.probeStartedMs g.probeTimeoutMs
  inFlight : (at' calls b).operationPending = true
  quiet : Quiet calls b n
  operation : Operation calls b n g
  early : ∀ ack ∈ g.early, ∃ p id, id.toNat = ack.packetId ∧ 0 < id ∧ p < n ∧
    Receipt calls b p g.generation id ack.receivedMs g.probeStartedMs g.probeTimeoutMs
  matched : g.probeState = .pending → ∃ r id, FirstResult calls b r id ∧ r < n ∧ 0 < id ∧
    id.toNat = g.probePacketId

variable {calls}

theorem withinReceipt {g : Guard} {received : Nat} (inTime : withinDeadline g received) :
    g.probeStartedMs ≤ received ∧ received < g.probeStartedMs + g.probeTimeoutMs := by
  obtain ⟨after,young⟩ := inTime
  omega

theorem Quiet.extend {b n : Nat} (quiet : Quiet calls b n) (proof : ¬Proves calls n)
    (probe : ∀ token started timeout, ¬BeginsProbe calls n token started timeout)
    (socket : calls[n]? ≠ some .connected ∧ calls[n]? ≠ some .disconnected) : Quiet calls b (n+1) := by
  obtain ⟨proofs,probes,sockets⟩ := quiet
  refine ⟨fun k low high => ?_,fun k token started timeout low high => ?_,fun k low high => ?_⟩
  all_goals rcases Nat.lt_succ_iff_lt_or_eq.mp high with inside | rfl
  · exact proofs k low inside
  · exact proof
  · exact probes k token started timeout low inside
  · exact probe token started timeout
  · exact sockets k low inside
  · exact socket

theorem Probing.keep {b n : Nat} {g g' : Guard} (probing : Probing calls b n g)
    (probe : g'.probeToken = g.probeToken ∧ g'.probeStartedMs = g.probeStartedMs ∧
      g'.probeTimeoutMs = g.probeTimeoutMs ∧ g'.generation = g.generation)
    (quiet : Quiet calls b (n+1)) (operation : Operation calls b (n+1) g')
    (early : ∀ ack ∈ g'.early, ack ∈ g.early ∨ ∃ id, id.toNat = ack.packetId ∧ 0 < id ∧
      Receipt calls b n g.generation id ack.receivedMs g.probeStartedMs g.probeTimeoutMs)
    (matched : g'.probeState = .pending → (g.probeState = .pending ∧ g'.probePacketId = g.probePacketId) ∨
      ∃ r id, FirstResult calls b r id ∧ r < n ∧ 0 < id ∧ id.toNat = g'.probePacketId) :
    Probing calls b (n+1) g' := by
  obtain ⟨token,started,timeout,generation⟩ := probe
  refine ⟨Nat.lt_succ_of_lt probing.before,?_,probing.inFlight,quiet,operation,?_,?_⟩
  · rw [token,started,timeout]
    exact probing.begun
  · intro ack member
    rw [started,timeout,generation]
    rcases early ack member with old | ⟨id,same,positive,receipt⟩
    · obtain ⟨p,id,same,positive,before,receipt⟩ := probing.early ack old
      exact ⟨p,id,same,positive,Nat.lt_succ_of_lt before,receipt⟩
    · exact ⟨n,id,same,positive,Nat.lt_succ_self n,receipt⟩
  · intro pending
    rcases matched pending with ⟨was,packet⟩ | ⟨r,id,first,before,rest⟩
    · obtain ⟨r,id,first,before,positive,same⟩ := probing.matched was
      exact ⟨r,id,first,Nat.lt_succ_of_lt before,positive,same.trans packet.symm⟩
    · exact ⟨r,id,first,Nat.lt_succ_of_lt before,rest⟩

theorem Operation.keep {b n : Nat} {g g' : Guard} (operation : Operation calls b n g)
    (same : g'.operationPending = g.operationPending ∧ g'.operationSerial = g.operationSerial ∧
      g'.probeOperationSerial = g.probeOperationSerial ∧
      g'.completedOperationSerial = g.completedOperationSerial ∧ g'.completedPacketId = g.completedPacketId)
    (unreported : ∀ id, calls[n]? ≠ some (.packetResult id)) : Operation calls b (n+1) g' := by
  obtain ⟨pending,serial,probe,completedSerial,completedId⟩ := same
  cases operation with
  | running inFlight own silent =>
    refine .running (pending.trans inFlight) (serial.trans (own.trans probe.symm)) fun k id low high => ?_
    rcases Nat.lt_succ_iff_lt_or_eq.mp high with inside | rfl
    · exact silent k id low inside
    · exact unreported id
  | finished first before below fresh own =>
    refine .finished first (Nat.lt_succ_of_lt before) ?_ ?_ ?_
    · rw [probe,serial]
      exact below
    · rw [pending,probe,serial]
      exact fresh
    · rw [completedSerial,probe,completedId]
      exact own

theorem Operation.ownResult {b n : Nat} {g : Guard} {id : Int} (operation : Operation calls b n g)
    (own : OwnResult g id) : ∃ r, FirstResult calls b r id ∧ r < n := by
  obtain ⟨-,-,-,settled,serial,packet,-⟩ := own
  cases operation with
  | running pending => exact nomatch pending.symm.trans settled
  | finished first before below fresh same =>
    obtain rfl := (same serial).symm.trans packet
    exact ⟨_,first,before⟩

theorem probingStep {n : Nat} {c : Call} {g' : Guard} {r : Option Bool} (here : calls[n]? = some c)
    (answer : (outs step init calls)[n]? = some r) (moved : ProbeStep (at' calls n) c g' r)
    (old : probeActive (at' calls n) → ∃ b, Probing calls b n (at' calls n)) (active : probeActive g') :
    ∃ b, Probing calls b (n+1) g' := by
  have unproving (refused : c.proving → r = some false) : ¬Proves calls n := by
    rintro ⟨⟨c',call,proving⟩,proved⟩
    cases Option.some.inj (here.symm.trans call)
    exact nomatch (refused proving).symm.trans (Option.some.inj (answer.symm.trans proved))
  have other {c' : Call} (different : c ≠ c') : calls[n]? ≠ some c' :=
    fun same => different (Option.some.inj (here.symm.trans same))
  cases moved with
  | begun may =>
    refine ⟨n,Nat.lt_succ_self n,⟨here,answer⟩,may.2.1,⟨?_,?_,?_⟩,.running may.2.1 rfl ?_,nofun,nofun⟩
    all_goals intros; omega
  | reserved free =>
    obtain ⟨b,probing⟩ := old active
    have quiet := probing.quiet.extend (unproving nofun) (fun _ _ _ begun => absurd begun.1 (other nofun))
      ⟨other nofun,other nofun⟩
    refine ⟨b,probing.keep ⟨rfl,rfl,rfl,rfl⟩ quiet ?_ (fun _ => .inl) fun pending => .inl ⟨pending,rfl⟩⟩
    cases probing.operation with
    | running pending => exact nomatch pending.symm.trans free
    | finished first before below fresh own =>
      exact .finished first (Nat.lt_succ_of_lt before) (Nat.le_succ_of_le below)
        (fun _ => Nat.lt_succ_of_le below) own
  | reported pending =>
    obtain ⟨b,probing⟩ := old active
    have quiet := probing.quiet.extend (unproving nofun) (fun _ _ _ begun => absurd begun.1 (other nofun))
      ⟨other nofun,other nofun⟩
    refine ⟨b,probing.keep ⟨rfl,rfl,rfl,rfl⟩ quiet ?_ (fun _ => .inl) fun pending => .inl ⟨pending,rfl⟩⟩
    cases probing.operation with
    | running inFlight serial silent =>
      exact .finished ⟨probing.before,here,silent⟩ (Nat.lt_succ_self n) (Nat.le_of_eq serial.symm) nofun
        fun _ => rfl
    | finished first before below fresh own =>
      have later := fresh pending
      refine .finished first (Nat.lt_succ_of_lt before) below nofun fun same => ?_
      exact absurd same (Nat.ne_of_gt later)
  | matched arming own =>
    obtain ⟨b,probing⟩ := old (.inl arming)
    have quiet := probing.quiet.extend (unproving fun _ => rfl) (fun _ _ _ begun => absurd begun.1 (other nofun))
      ⟨other nofun,other nofun⟩
    obtain ⟨r,first,before⟩ := probing.operation.ownResult own
    exact ⟨b,probing.keep ⟨rfl,rfl,rfl,rfl⟩ quiet
      (probing.operation.keep ⟨rfl,rfl,rfl,rfl,rfl⟩ fun _ => other nofun) nofun
      fun _ => .inr ⟨r,_,first,before,own.2.2.2.2.2.2.1,rfl⟩⟩
  | confirmed => exact absurd active (by rintro (h | h) <;> contradiction)
  | acked => exact absurd active (by rintro (h | h) <;> contradiction)
  | buffered arming concerns inTime =>
    obtain ⟨b,probing⟩ := old (.inl arming)
    have quiet := probing.quiet.extend (unproving fun _ => rfl) (fun _ _ _ begun => absurd begun.1 (other nofun))
      ⟨other nofun,other nofun⟩
    refine ⟨b,probing.keep ⟨rfl,rfl,rfl,rfl⟩ quiet
      (probing.operation.keep ⟨rfl,rfl,rfl,rfl,rfl⟩ fun _ => other nofun) ?_
      fun pending => .inl ⟨pending,rfl⟩⟩
    intro ack member
    rcases List.mem_append.mp member with earlier | newest
    · exact .inl earlier
    · cases List.mem_singleton.mp newest
      exact .inr ⟨_,rfl,concerns.2.2.2.2.2.1,probing.before,here,⟨concerns.1,rfl⟩,withinReceipt inTime⟩
  | ended idle => exact absurd active idle
  | still refused socket unreported unbegun =>
    obtain ⟨b,probing⟩ := old active
    have quiet : Quiet calls b (n+1) := by
      refine probing.quiet.extend (unproving refused) ?_ ⟨other socket.1,other socket.2⟩
      rintro token started timeout ⟨call,begun⟩
      have same := Option.some.inj (here.symm.trans call)
      exact nomatch (unbegun token started timeout same).symm.trans
        (Option.some.inj (answer.symm.trans begun))
    exact ⟨b,probing.keep ⟨rfl,rfl,rfl,rfl⟩ quiet
      (probing.operation.keep ⟨rfl,rfl,rfl,rfl,rfl⟩ fun id => other (unreported id)) (fun _ => .inl)
      fun pending => .inl ⟨pending,rfl⟩⟩

theorem probing (n : Nat) (active : probeActive (at' calls n)) : ∃ b, Probing calls b n (at' calls n) := by
  induction n with
  | zero => exact absurd active (by rintro (h | h) <;> contradiction)
  | succ n ih =>
    cases here : calls[n]? with
    | none =>
      have same : at' calls (n+1) = at' calls n := stateEnd step init here
      rw [same] at active ⊢
      obtain ⟨b,old⟩ := ih active
      have other {c : Call} : calls[n]? ≠ some c := by simp [here]
      have unproved : ¬Proves calls n := fun ⟨⟨c,call,_⟩,_⟩ => other call
      have quiet := old.quiet.extend unproved (fun _ _ _ begun => other begun.1) ⟨other,other⟩
      exact ⟨b,old.keep ⟨rfl,rfl,rfl,rfl⟩ quiet
        (old.operation.keep ⟨rfl,rfl,rfl,rfl,rfl⟩ fun _ => other) (fun _ => .inl)
        fun pending => .inl ⟨pending,rfl⟩⟩
    | some c =>
      have next : at' calls (n+1) = (step (at' calls n) c).1 := stateNext step init here
      have answer : (outs step init calls)[n]? = some (step (at' calls n) c).2 := by
        rw [outAt,here]
        rfl
      rw [next] at active ⊢
      exact probingStep here answer (probeStep _ c) ih active

variable (calls) in
/-- What stands behind a proof at position `n`: the probe begun at `b`, quiet since, the
acknowledgement received at `p` and the result reported at `r` for its operation. -/
structure Proven (n b : Nat) (token started timeout : Nat) : Prop where
  before : b < n
  begun : BeginsProbe calls b token started timeout
  inFlight : (at' calls b).operationPending = true
  quiet : Quiet calls b n
  connected : (at' calls n).connected = true
  acknowledged : ∃ p r id received, p ≤ n ∧ r < n ∧ 0 < id ∧
    Receipt calls b p (at' calls n).generation id received started timeout ∧ FirstResult calls b r id

theorem sameId {a b : Int} (left : 0 < a) (right : 0 < b) (same : a.toNat = b.toNat) : a = b := by omega

theorem proven {n : Nat} (proves : Proves calls n) : ∃ b token started timeout,
    Proven calls n b token started timeout := by
  obtain ⟨⟨c,here,proving⟩,answer⟩ := proves
  have moved := probeStep (at' calls n) c
  rw [replyAt here answer] at moved
  generalize (step (at' calls n) c).1 = g' at moved
  generalize same : (some true : Option Bool) = r at moved
  cases moved with
  | confirmed arming own found ack inTime =>
    obtain ⟨b,flight⟩ := probing n (.inl arming)
    obtain ⟨r,first,before⟩ := flight.operation.ownResult own
    obtain ⟨p,id,packet,positive,early,receipt⟩ := flight.early _ found
    have mine := own.2.2.2.2.2.2.1
    obtain rfl := sameId positive mine (packet.trans ack)
    exact ⟨b,_,_,_,flight.before,flight.begun,flight.inFlight,flight.quiet,own.2.1,
      p,r,_,_,Nat.le_of_lt early,before,positive,receipt,first⟩
  | acked pending concerns packet inTime =>
    obtain ⟨b,flight⟩ := probing n (.inr pending)
    obtain ⟨r,id,first,before,positive,own⟩ := flight.matched pending
    have mine := concerns.2.2.2.2.2.1
    obtain rfl := sameId positive mine (own.trans packet.symm)
    exact ⟨b,_,_,_,flight.before,flight.begun,flight.inFlight,flight.quiet,concerns.1,
      n,r,_,_,Nat.le_refl n,before,positive,⟨flight.before,here,⟨concerns.1,rfl⟩,withinReceipt inTime⟩,first⟩
  | begun => exact absurd proving id
  | reserved => exact absurd proving id
  | reported => exact absurd proving id
  | matched => exact nomatch same
  | buffered => exact nomatch same
  | ended idle unproved refused => exact nomatch same.trans (refused proving)
  | still refused => exact nomatch same.trans (refused proving)

variable (calls) in
/-- A true answer names one begun probe, answered at most once, and an acknowledgement
of its own operation in the present connection and in time; a valid proof belongs to the
present, safe, unarmed connection. -/
theorem probeProof :
    (∀ n, Proves calls n → ∃ b token started timeout, Proven calls n b token started timeout) ∧
    (∀ m n, m < n → Proves calls m → Proves calls n → ∃ b token started timeout,
      m < b ∧ b < n ∧ BeginsProbe calls b token started timeout) ∧
    ∀ n, (at' calls n).proofValid = true → (at' calls n).connected = true ∧
      (at' calls n).isUnsafe = false ∧ (at' calls n).resetArmed = false ∧
      (at' calls n).proofGeneration = (at' calls n).generation := by
  refine ⟨fun n proves => proven proves,?_,fun n valid => (sound calls n).proof valid⟩
  intro m n ordered first second
  obtain ⟨b,token,started,timeout,behind⟩ := proven second
  refine ⟨b,token,started,timeout,?_,behind.before,behind.begun⟩
  rcases Nat.lt_trichotomy m b with earlier | rfl | later
  · exact earlier
  · obtain ⟨⟨c,here,proving⟩,-⟩ := first
    cases Option.some.inj (here.symm.trans behind.begun.1)
    exact absurd proving id
  · exact absurd first (behind.quiet.proofs m later ordered)

end Run

def earlyCalls : List Call :=
  [.connected,.packetBegin,.probeBegin 7 100 50,.puback 1 3 120,.packetResult 3,.probeResult 7 3 130]

theorem earlyProof : Proves earlyCalls 5 ∧
    ∃ b token started timeout, Proven earlyCalls 5 b token started timeout := by
  have proves : Proves earlyCalls 5 := ⟨⟨_,rfl,trivial⟩,by decide⟩
  exact ⟨proves,(probeProof earlyCalls).1 5 proves⟩

end Web3PiUps.MqttPacketGuard
