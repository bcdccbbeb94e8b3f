import Web3PiUps.FwOtaAgree

/-! The exclusion of transfers, validations and modem resets, and the confirmation of the
running image, in every run of the tasks of `fw_ota.c`. -/
namespace Web3PiUps.FwOta
open Tasks Code WupsProtocol

theorem otaSound (hash : Bytes → Bytes) (booted : Bool) :
    Sound (sys hash) (· = .nothing) (Agree hash booted) where
  enters := bodyHolds
  starts := fun _ _ agree => agree.started
  acts := by
    intro c s hs i h a e r s' agree here needs did
    change exec hash a e s = _ at did
    unfold exec at did
    split at did
    · cases did
    · exact (agree.elsewhere (s.now + e.elapsedUs) s.handle s.restarted).act here needs did
  ends := by
    intro c s hs i h a e s' agree _ _ did
    change exec hash a e s = _ at did
    unfold exec at did
    split at did
    · cases did
    · exact (agree.elsewhere (s.now + e.elapsedUs) s.handle s.restarted).ends did

/-- After `fw_ota_boot_log`. -/
def boot (pendingVerify : Bool) (now : Nat) (slot : Nat → UInt8) : Shared where
  claims := ⟨false,false,false,pendingVerify,false,false⟩
  now := now
  locked := false
  xfer := ⟨false,0,0,[],0⟩
  handle := false
  slot := slot
  written := []
  log := []
  restarted := false

abbrev Device := World Ans Shared Held Call

def device (hash : Bytes → Bytes) (pendingVerify : Bool) (now : Nat) (slot : Nat → UInt8)
    (inputs : List (Input Outside Call)) : Device :=
  run (sys hash) (start (boot pendingVerify now slot)) inputs

theorem deviceFits (hash : Bytes → Bytes) (pendingVerify : Bool) (now : Nat) (slot : Nat → UInt8)
    (inputs : List (Input Outside Call)) :
    Fits (sys hash) (· = .nothing) (Agree hash pendingVerify) (device hash pendingVerify now slot inputs) := by
  refine (startFits ?_).run (otaSound hash pendingVerify) inputs
  exact ⟨rfl,rfl,rfl,nofun,rfl,fun _ => ⟨rfl,fun _ => rfl,id⟩,nofun,rfl,trivial,nofun⟩

/-- The task is about to run, or runs, its operation on otadata. -/
def atOtadata : Code Ans Unit → Bool
  | .act (.markAppValid _) _ => true
  | .act .markAppInvalid _ => true
  | _ => false

theorem openedPast {event : Event} (plain : event.plain = true) (log : List Event) :
    openValidation (event::log) = openValidation log := by
  cases event <;> first | rfl | cases plain

theorem openedBy {log : List Event} {reason : ConfirmReason} (opened : openValidation log = some reason) :
    ∃ between older now mqttMode fresh, log = between ++ .validation reason now mqttMode fresh :: older ∧
      ∀ event ∈ between, event.plain = true := by
  induction log with
  | nil => exact nomatch opened
  | cons event rest ih =>
    cases quiet : event.plain with
    | true =>
      rw [openedPast quiet] at opened
      obtain ⟨between,older,now,mqttMode,fresh,shape,plain⟩ := ih opened
      refine ⟨event::between,older,now,mqttMode,fresh,by rw [shape]; rfl,fun other inside => ?_⟩
      rcases List.mem_cons.mp inside with rfl | inside
      · exact quiet
      · exact plain other inside
    | false =>
      cases event with
      | validation other now mqttMode fresh =>
        cases opened
        exact ⟨[],rest,now,mqttMode,fresh,rfl,nofun⟩
      | marked _ _ => exact nomatch opened
      | rollingBack => exact nomatch opened
      | claimed => cases quiet
      | released => cases quiet
      | opened len sha => cases quiet

structure Exclusive (booted : Bool) (w : Device) : Prop where
  apart : ¬(w.shared.claims.inProgress = true ∧
    (w.shared.claims.validationBusy = true ∨ w.shared.claims.modemRecoveryBusy = true))
  oneOtadata : ∀ (i j : Nat) (t u : Task Ans Held Call), w.tasks[i]? = some t → w.tasks[j]? = some u →
    atOtadata t.code = true → atOtadata u.code = true → i = j
  markedOnce : marks w.shared.log ≤ 1
  notAfterRollback : 0 < rollbacks w.shared.log → marks w.shared.log = 0
  confirmations : ∀ newer reason ok older, w.shared.log = newer ++ .marked reason ok :: older →
    ∃ between rest now mqttMode fresh, older = between ++ .validation reason now mqttMode fresh :: rest ∧
      (∀ event ∈ between, event.plain = true) ∧
      (reason = .automaticUplink → now < fwOtaVerifyWindowUs ∧ (mqttMode = true → fresh = true))
  staysPending : booted = true → marks w.shared.log = 0 → rollbacks w.shared.log = 0 →
    w.shared.claims.pendingVerify = true ∧ w.shared.claims.markedValid = false
  validationOwned : w.shared.claims.validationBusy = true →
    ∃ t ∈ w.tasks, t.held.validation.isSome = true ∧ ∀ x, t.code ≠ .done x
  confirmable : w.shared.claims.pendingVerify = true → w.shared.claims.markedValid = false →
    w.shared.claims.validationBusy = false → w.shared.claims.inProgress = false →
    ∀ reason now mqttMode fresh,
      (reason = .automaticUplink → now < fwOtaVerifyWindowUs ∧ (mqttMode = true → fresh = true)) →
      (confirmEnter w.shared.claims reason now mqttMode fresh).1 = .taken
  claimOwned : (helds w).countP Held.claim + w.shared.sessionClaim.toNat = w.shared.claims.inProgress.toNat
  releasesOwn : ∀ t ∈ w.tasks, ∀ k, t.code = .act .release k → t.held.claim = true
  releasesOnce : ∀ newer older, w.shared.log = newer ++ .released :: older →
    older.count .claimed = older.count .released + 1
  finishedEmpty : ∀ t ∈ w.tasks, ∀ x, t.code = .done x → t.held = .nothing
  signalled : w.shared.claims.otaActive = w.shared.claims.inProgress

/-! What each task holds, and what the log says, in a device that fits. -/

section Fitting
variable {hash : Bytes → Bytes} {booted : Bool} {w : Device}

abbrev FitsOta (hash : Bytes → Bytes) (booted : Bool) (w : Device) : Prop :=
  Fits (sys hash) (· = .nothing) (Agree hash booted) w

theorem taskNeeds (fits : FitsOta hash booted w) {t : Task Ans Held Call} (inside : t ∈ w.tasks) {a : Act} {k}
    (code : t.code = .act a k) : need t.call t.held a := by
  have keeps := fits.keeps t inside
  rw [code] at keeps
  exact keeps.1

theorem taskFinished (fits : FitsOta hash booted w) {t : Task Ans Held Call} (inside : t ∈ w.tasks) {x}
    (code : t.code = .done x) : t.held = .nothing := by
  have keeps := fits.keeps t inside
  rw [code] at keeps
  exact keeps

theorem otadataHeld (fits : FitsOta hash booted w) {t : Task Ans Held Call} (inside : t ∈ w.tasks)
    (at_ : atOtadata t.code = true) : t.held.validation.isSome = true := by
  unfold atOtadata at at_
  split at at_
  · rename_i code
    rw [show t.held.validation = _ from taskNeeds fits inside code]
    rfl
  · rename_i code
    rw [show t.held.validation = _ from taskNeeds fits inside code]
    rfl
  · cases at_

theorem validationHeld (fits : FitsOta hash booted w) (busy : w.shared.claims.validationBusy = true) :
    ∃ h ∈ helds w, h.validation.isSome = true := by
  have total := fits.agree.validations
  rw [busy] at total
  exact List.countP_pos_iff.mp (total ▸ Nat.one_pos)

theorem stagedOnce {s : Shared} {stage : Stage} (staged : Staged booted s stage) :
    marks s.log + rollbacks s.log ≤ 1 := by
  obtain ⟨_,_,_,count⟩ := staged
  cases stage with
  | confirming reason => exact le_of_eq_of_le (congrArg₂ _ count.1 count.2.1) (Nat.zero_le 1)
  | marked reason ok => exact le_of_eq_of_le (congrArg₂ _ count.1 count.2) (boolAtMost ok)
  | rolling => exact Nat.le_of_eq (congrArg₂ _ count.1 count.2)
  | rollFailed => exact Nat.le_of_eq (congrArg₂ _ count.1 count.2)

theorem logStands (fits : FitsOta hash booted w) :
    marks w.shared.log + rollbacks w.shared.log ≤ 1 ∧ (booted = true → marks w.shared.log = 0 →
      rollbacks w.shared.log = 0 →
      w.shared.claims.pendingVerify = true ∧ w.shared.claims.markedValid = false) := by
  cases busy : w.shared.claims.validationBusy with
  | false =>
    obtain ⟨total,still,_⟩ := fits.agree.settled busy
    refine ⟨total ▸ boolAtMost _,fun up none_ never => ?_⟩
    rw [none_,never] at total
    have unmarked : w.shared.claims.markedValid = false := by
      cases marked : w.shared.claims.markedValid with
      | false => rfl
      | true => rw [marked] at total; exact nomatch total
    exact ⟨(still unmarked).trans up,unmarked⟩
  | true =>
    obtain ⟨h,inside,holds⟩ := validationHeld fits busy
    obtain ⟨stage,holds⟩ := Option.isSome_iff_exists.mp holds
    have staged := (fits.agree.fit h inside).stage stage holds
    exact ⟨stagedOnce staged,fun _ _ _ => ⟨staged.2.1,staged.2.2.1⟩⟩

end Fitting

theorem confirmAdmits {c : Claims} (pending : c.pendingVerify = true) (unmarked : c.markedValid = false)
    (idle : c.validationBusy = false) (free : c.inProgress = false) {reason : ConfirmReason} {now : Nat}
    {mqttMode fresh : Bool}
    (proven : reason = .automaticUplink → now < fwOtaVerifyWindowUs ∧ (mqttMode = true → fresh = true)) :
    (confirmEnter c reason now mqttMode fresh).1 = .taken := by
  unfold confirmEnter
  dsimp only
  rw [if_neg (by simp [idle]),if_neg (by simp [pending])]
  rw [if_neg (by
    simp only [unmarked,free,Bool.false_or,Bool.and_eq_true,beq_iff_eq,decide_eq_true_eq,not_and,Nat.not_le]
    exact fun automatic => (proven automatic).1)]
  rw [if_neg (by
    simp only [Bool.and_eq_true,beq_iff_eq,Bool.not_eq_true',not_and,Bool.not_eq_false]
    exact fun automatic => (proven automatic.1).2 automatic.2)]

theorem otaExclusion (hash : Bytes → Bytes) (pendingVerify : Bool) (now : Nat) (slot : Nat → UInt8)
    (inputs : List (Input Outside Call)) :
    Exclusive pendingVerify (device hash pendingVerify now slot inputs) := by
  have fits : FitsOta hash pendingVerify _ := deviceFits hash pendingVerify now slot inputs
  generalize device hash pendingVerify now slot inputs = w at fits
  have agree := fits.agree
  have stands := logStands fits
  refine
    { apart := ?_
      oneOtadata := fun i j t u here there at_ at_' => ?_
      markedOnce := by have := stands.1; omega
      notAfterRollback := fun _ => by have := stands.1; omega
      confirmations := fun newer reason ok older shape => ?_
      staysPending := stands.2
      validationOwned := fun busy => ?_
      confirmable := fun pending unmarked idle free _ _ _ _ => confirmAdmits pending unmarked idle free
      claimOwned := agree.claims
      releasesOwn := fun t inside k code => (taskNeeds fits inside code).1
      releasesOnce := fun newer older shape => ?_
      finishedEmpty := fun t inside x => taskFinished fits inside
      signalled := agree.signalled }
  · rintro ⟨up,validation | recovery⟩
    · exact absurd ((agree.exclusive up).1.symm.trans validation) Bool.false_ne_true
    · exact absurd ((agree.exclusive up).2.symm.trans recovery) Bool.false_ne_true
  · refine oneHolder (p := (·.validation.isSome)) ?_ (heldAt here) (heldAt there)
      (otadataHeld fits (List.mem_of_getElem? here) at_) (otadataHeld fits (List.mem_of_getElem? there) at_')
    rw [agree.validations]
    exact boolAtMost w.shared.claims.validationBusy
  · have logs := agree.logFits
    rw [shape] at logs
    obtain ⟨between,rest,now,mqttMode,fresh,shape',plain⟩ := openedBy (logFitsAt logs)
    refine ⟨between,rest,now,mqttMode,fresh,shape',plain,?_⟩
    rw [shape',show newer ++ .marked reason ok :: (between ++ .validation reason now mqttMode fresh :: rest) =
      (newer ++ .marked reason ok :: between) ++ .validation reason now mqttMode fresh :: rest by simp] at logs
    exact logFitsAt logs
  · obtain ⟨h,inside,holds⟩ := validationHeld fits busy
    obtain ⟨t,present,rfl⟩ := List.mem_map.mp inside
    refine ⟨t,present,holds,fun x code => ?_⟩
    rw [taskFinished fits present code] at holds
    exact nomatch holds
  · have logs := agree.logFits
    rw [shape] at logs
    exact logFitsAt logs

end Web3PiUps.FwOta
