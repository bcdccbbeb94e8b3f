import Mathlib.Algebra.Group.Nat.Defs
import Web3PiUps.FwOtaHolds

/-! The claims of `fw_ota.c` under every interleaving of its tasks: a flag is up exactly
while one task, or the open transfer, holds what it stands for. -/
namespace Web3PiUps.FwOta
open Tasks Code WupsProtocol

/-- The validation the log is in the middle of. -/
def openValidation : List Event → Option ConfirmReason
  | .validation reason _ _ _ :: _ => some reason
  | .marked _ _ :: _ => none
  | .rollingBack :: _ => none
  | .claimed :: older => openValidation older
  | .released :: older => openValidation older
  | .opened _ _ :: older => openValidation older
  | [] => none

/-- The transfer opened last. -/
def lastOpened : List Event → Option (Nat × Bytes)
  | .opened len sha :: _ => some (len,sha)
  | .claimed :: older => lastOpened older
  | .released :: older => lastOpened older
  | .validation _ _ _ _ :: older => lastOpened older
  | .marked _ _ :: older => lastOpened older
  | .rollingBack :: older => lastOpened older
  | [] => none

def isMark : Event → Bool
  | .marked _ ok => ok
  | _ => false

abbrev marks (log : List Event) : Nat := log.countP isMark
abbrev rollbacks (log : List Event) : Nat := log.count .rollingBack

/-- What an event says about the log before it. -/
def EventFits (older : List Event) : Event → Prop
  | .claimed => older.count .claimed = older.count .released
  | .released => older.count .claimed = older.count .released + 1
  | .validation reason now mqttMode fresh =>
    reason = .automaticUplink → now < fwOtaVerifyWindowUs ∧ (mqttMode = true → fresh = true)
  | .marked reason _ => openValidation older = some reason
  | .rollingBack | .opened _ _ => True

def LogFits : List Event → Prop
  | [] => True
  | event::older => EventFits older event ∧ LogFits older

theorem logFitsAt {newer older : List Event} {event : Event} (fits : LogFits (newer ++ event::older)) :
    EventFits older event := by
  induction newer with
  | nil => exact fits.1
  | cons e rest ih => exact ih fits.2

def Written (s : Shared) (n : Nat) : Prop := s.written.length = n ∧ s.image n = s.written

/-- Where the image stands while a task holds the validation claim. -/
def Staged (booted : Bool) (s : Shared) (stage : Stage) : Prop :=
  booted = true ∧ s.claims.pendingVerify = true ∧ s.claims.markedValid = false ∧
    match stage with
    | .confirming reason => marks s.log = 0 ∧ rollbacks s.log = 0 ∧ openValidation s.log = some reason
    | .marked _ ok => marks s.log = ok.toNat ∧ rollbacks s.log = 0
    | .rolling => marks s.log = 0 ∧ rollbacks s.log = 1
    | .rollFailed => marks s.log = 0 ∧ rollbacks s.log = 1

/-- Where it stands while none does. -/
def Settled (booted : Bool) (s : Shared) : Prop :=
  marks s.log + rollbacks s.log = s.claims.markedValid.toNat ∧
    (s.claims.markedValid = false → s.claims.pendingVerify = booted) ∧
    (s.claims.pendingVerify = true → booted = true)

def Shared.sessionClaim (s : Shared) : Bool := !s.locked && s.xfer.isOpen

theorem sessionUnlocked {s : Shared} (unlocked : s.locked = false) : s.sessionClaim = s.xfer.isOpen := by
  unfold Shared.sessionClaim
  rw [unlocked]
  rfl

theorem sessionLocked {s : Shared} (locked : s.locked = true) : s.sessionClaim = false := by
  unfold Shared.sessionClaim
  rw [locked]
  rfl

structure Fit (hash : Bytes → Bytes) (booted : Bool) (s : Shared) (h : Held) : Prop where
  view : ∀ x, h.xfer = some x → s.xfer = x ∧ (x.isOpen = true → h.claim = true ∧ h.digest = some x.digest)
  progress : ∀ n, h.progress = some n → h.claim = true ∧ Written s n
  verified : ∀ len sha, h.verified = some (len,sha) → h.claim = true ∧ hash (s.image len) = sha
  digest : ∀ d, h.digest = some d → h.claim = true ∧ lastOpened s.log = some d
  stage : ∀ stage, h.validation = some stage → Staged booted s stage

structure Agree (hash : Bytes → Bytes) (booted : Bool) (s : Shared) (hs : List Held) : Prop where
  claims : hs.countP Held.claim + s.sessionClaim.toNat = s.claims.inProgress.toNat
  validations : hs.countP (·.validation.isSome) = s.claims.validationBusy.toNat
  lock : hs.countP (·.xfer.isSome) = s.locked.toNat
  exclusive : s.claims.inProgress = true →
    s.claims.validationBusy = false ∧ s.claims.modemRecoveryBusy = false
  signalled : s.claims.otaActive = s.claims.inProgress
  settled : s.claims.validationBusy = false → Settled booted s
  session : s.sessionClaim = true → Written s s.xfer.received ∧ s.xfer.received ≤ s.xfer.imageLen ∧
    lastOpened s.log = some s.xfer.digest
  ledger : s.log.count .claimed = s.log.count .released + s.claims.inProgress.toNat
  logFits : LogFits s.log
  fit : ∀ h ∈ hs, Fit hash booted s h

section Moves
variable {hash : Bytes → Bytes} {booted : Bool} {s s' : Shared} {hs : List Held} {i : Nat} {h h' : Held}

theorem nothingFits : Fit hash booted s .nothing := ⟨nofun,nofun,nofun,nofun,nofun⟩

/-- Only the claims, the receiver's variables, the slot and the log matter. -/
theorem Fit.elsewhere (fit : Fit hash booted s h) (now : Nat) (handle restarted : Bool) :
    Fit hash booted { s with now := now, handle := handle, restarted := restarted } h :=
  ⟨fit.view,fit.progress,fit.verified,fit.digest,fit.stage⟩

theorem Agree.elsewhere (agree : Agree hash booted s hs) (now : Nat) (handle restarted : Bool) :
    Agree hash booted { s with now := now, handle := handle, restarted := restarted } hs :=
  { claims := agree.claims
    validations := agree.validations
    lock := agree.lock
    exclusive := agree.exclusive
    signalled := agree.signalled
    settled := agree.settled
    session := agree.session
    ledger := agree.ledger
    logFits := agree.logFits
    fit := fun h inside => (agree.fit h inside).elsewhere now handle restarted }

theorem Agree.started (agree : Agree hash booted s hs) : Agree hash booted s (hs ++ [.nothing]) :=
  { claims := by simpa [List.countP_append,Held.nothing] using agree.claims
    validations := by simpa [List.countP_append,Held.nothing] using agree.validations
    lock := by simpa [List.countP_append,Held.nothing] using agree.lock
    exclusive := agree.exclusive
    signalled := agree.signalled
    settled := agree.settled
    session := agree.session
    ledger := agree.ledger
    logFits := agree.logFits
    fit := fun h inside => by
      rcases List.mem_append.mp inside with old | new
      · exact agree.fit h old
      · cases List.mem_singleton.mp new; exact nothingFits }

theorem boolAtMost (b : Bool) : b.toNat ≤ 1 := by cases b <;> decide

theorem toNatTrue {b : Bool} (positive : 0 < b.toNat) : b = true := by cases b <;> simp_all

variable (agree : Agree hash booted s hs) (here : hs[i]? = some h)
include agree here

theorem claimUp (holds : h.claim = true) : s.claims.inProgress = true := by
  have one := countHolds (p := Held.claim) here holds
  have total := agree.claims
  exact toNatTrue (by omega)

theorem claimAlone (holds : h.claim = true) {j : Nat} {g : Held} (other : j ≠ i) (there : hs[j]? = some g) :
    g.claim = false := by
  by_contra also
  have also : g.claim = true := by simpa using also
  have total := agree.claims
  have atMost := boolAtMost s.claims.inProgress
  exact other (oneHolder (by omega) there here also holds)

theorem sessionAlone (holds : h.claim = true) : s.sessionClaim = false := by
  have one := countHolds (p := Held.claim) here holds
  have total := agree.claims
  have atMost := boolAtMost s.claims.inProgress
  by_contra also
  have also : s.sessionClaim = true := by simpa using also
  rw [also] at total
  simp only [Bool.toNat_true] at total
  omega

theorem lockUp {x : XferVars} (holds : h.xfer = some x) : s.locked = true := by
  have one := countHolds (p := (·.xfer.isSome)) here (by rw [holds]; rfl)
  have total := agree.lock
  exact toNatTrue (by omega)

theorem lockAlone {x : XferVars} (holds : h.xfer = some x) {j : Nat} {g : Held} (other : j ≠ i)
    (there : hs[j]? = some g) : g.xfer = none := by
  cases also : g.xfer with
  | none => rfl
  | some y =>
    have total := agree.lock
    have atMost := boolAtMost s.locked
    exact absurd (oneHolder (p := (·.xfer.isSome)) (by omega) there here (by rw [also]; rfl)
      (by rw [holds]; rfl)) other

theorem validationUp {stage : Stage} (holds : h.validation = some stage) :
    s.claims.validationBusy = true := by
  have one := countHolds (p := (·.validation.isSome)) here (by rw [holds]; rfl)
  have total := agree.validations
  exact toNatTrue (by omega)

theorem validationAlone {stage : Stage} (holds : h.validation = some stage) {j : Nat} {g : Held}
    (other : j ≠ i) (there : hs[j]? = some g) : g.validation = none := by
  cases also : g.validation with
  | none => rfl
  | some y =>
    have total := agree.validations
    have atMost := boolAtMost s.claims.validationBusy
    exact absurd (oneHolder (p := (·.validation.isSome)) (by omega) there here (by rw [also]; rfl)
      (by rw [holds]; rfl)) other

end Moves

/-! What a move leaves of the others' knowledge. -/

section Keeping
variable {hash : Bytes → Bytes} {booted : Bool} {s s' : Shared} {g : Held} {stage : Stage}

structure SameImage (s s' : Shared) : Prop where
  pending : s'.claims.pendingVerify = s.claims.pendingVerify
  marked : s'.claims.markedValid = s.claims.markedValid
  marks : marks s'.log = marks s.log
  rollbacks : rollbacks s'.log = rollbacks s.log
  open_ : openValidation s'.log = openValidation s.log

theorem Staged.kept (same : SameImage s s') (staged : Staged booted s stage) : Staged booted s' stage := by
  unfold Staged at staged ⊢
  rw [same.pending,same.marked,same.marks,same.rollbacks,same.open_]
  exact staged

theorem Settled.kept (same : SameImage s s') (settled : Settled booted s) : Settled booted s' := by
  unfold Settled at settled ⊢
  rw [same.pending,same.marked,same.marks,same.rollbacks]
  exact settled

theorem Fit.kept (fit : Fit hash booted s g) (receiver : s'.xfer = s.xfer ∨ g.xfer = none)
    (slot : (s'.slot = s.slot ∧ s'.written = s.written ∧ lastOpened s'.log = lastOpened s.log) ∨ g.claim = false)
    (image : SameImage s s' ∨ g.validation = none) : Fit hash booted s' g := by
  have free (claimed : g.claim = true) :
      s'.slot = s.slot ∧ s'.written = s.written ∧ lastOpened s'.log = lastOpened s.log := by
    rcases slot with same | none_
    · exact same
    · exact absurd (none_.symm.trans claimed) Bool.false_ne_true
  refine ⟨fun x holds => ?_,fun n knows => ?_,fun len sha knows => ?_,fun d knows => ?_,fun stage holds => ?_⟩
  · rcases receiver with same | absent
    · rw [same]; exact fit.view x holds
    · rw [absent] at holds; exact nomatch holds
  · obtain ⟨claimed,written⟩ := fit.progress n knows
    obtain ⟨sameSlot,sameWritten,_⟩ := free claimed
    refine ⟨claimed,?_⟩
    unfold Written Shared.image at written ⊢
    rw [sameSlot,sameWritten]
    exact written
  · obtain ⟨claimed,read⟩ := fit.verified len sha knows
    refine ⟨claimed,?_⟩
    unfold Shared.image at read ⊢
    rw [(free claimed).1]
    exact read
  · obtain ⟨claimed,opened⟩ := fit.digest d knows
    exact ⟨claimed,(free claimed).2.2.trans opened⟩
  · rcases image with same | absent
    · exact (fit.stage stage holds).kept same
    · rw [absent] at holds; exact nomatch holds

end Keeping

section Acts
variable {hash : Bytes → Bytes} {booted : Bool} {s : Shared} {hs : List Held} {i : Nat} {h : Held}

theorem Agree.unchanged (agree : Agree hash booted s hs) (here : hs[i]? = some h) :
    Agree hash booted s (hs.set i h) := by
  rw [setSame here]
  exact agree

theorem Agree.noStage (agree : Agree hash booted s hs) (idle : s.claims.validationBusy = false)
    {g : Held} (inside : g ∈ hs) : g.validation = none := by
  have total := agree.validations
  rw [idle] at total
  have absent := List.countP_eq_zero.mp total g inside
  simpa using absent

/-- Events that say nothing about the image. -/
def Event.plain : Event → Bool
  | .claimed | .released | .opened _ _ => true
  | _ => false

theorem sameAround {c : Claims} (event : Event) (plain : event.plain = true)
    (pending : c.pendingVerify = s.claims.pendingVerify) (marked : c.markedValid = s.claims.markedValid) :
    SameImage s (logged (s.claimed c) event) := by
  have mark : isMark event = false := by cases event <;> first | rfl | exact nomatch plain
  have other : Event.rollingBack ≠ event := by rintro rfl; exact nomatch plain
  have opened : openValidation (event::s.log) = openValidation s.log := by
    cases event <;> first | rfl | exact nomatch plain
  exact ⟨pending,marked,List.countP_cons_of_neg (by rw [mark]; exact Bool.false_ne_true),
    List.count_cons_of_ne (Ne.symm other),opened⟩

theorem Agree.claim (agree : Agree hash booted s hs) (here : hs[i]? = some h)
    (free : s.claims.inProgress = false) (quiet : s.claims.validationBusy = false)
    (steady : s.claims.modemRecoveryBusy = false) :
    h.claim = false ∧ Agree hash booted
      (logged (s.claimed { s.claims with inProgress := true, otaActive := true }) .claimed)
      (hs.set i { h with claim := true, progress := none, verified := none, digest := none }) := by
  have same := sameAround (s := s) (c := { s.claims with inProgress := true, otaActive := true })
    .claimed rfl rfl rfl
  have total := agree.claims
  have ledger := agree.ledger
  rw [free,Bool.toNat_false] at total ledger
  have unheld : h.claim = false := by
    by_contra holds
    have one := countHolds (p := Held.claim) here (by simpa using holds)
    omega
  refine ⟨unheld,?_,?_,?_,fun _ => ⟨quiet,steady⟩,rfl,fun idle => (agree.settled idle).kept same,agree.session,
    ?_,?_,?_⟩
  · have counted := countSet Held.claim (g := { h with claim := true, progress := none, verified := none, digest := none }) here
    rw [unheld,Bool.toNat_false,Bool.toNat_true] at counted
    show _ + s.sessionClaim.toNat = 1
    omega
  · exact countKept _ here agree.validations rfl
  · exact countKept _ here agree.lock rfl
  · show (_::s.log).count _ = (_::s.log).count _ + 1
    rw [List.count_cons_self,List.count_cons_of_ne (by decide),ledger]
  · exact ⟨ledger,agree.logFits⟩
  · refine heldAfter here ?_ fun j g other there => ?_
    · have fit := agree.fit h (List.mem_of_getElem? here)
      exact ⟨fun x holds => ⟨(fit.view x holds).1,fun opened =>
          absurd (unheld.symm.trans ((fit.view x holds).2 opened).1) Bool.false_ne_true⟩,nofun,nofun,nofun,
        fun stage holds => (fit.stage stage holds).kept same⟩
    · exact (agree.fit g (List.mem_of_getElem? there)).kept (.inl rfl) (.inl ⟨rfl,rfl,rfl⟩) (.inl same)

theorem Agree.release (agree : Agree hash booted s hs) (here : hs[i]? = some h) (holds : h.claim = true)
    (closed : ∀ x, h.xfer = some x → x.isOpen = false) :
    Agree hash booted (logged (s.claimed (releaseInProgress s.claims)) .released)
      (hs.set i { h with claim := false, progress := none, verified := none, digest := none }) := by
  have same := sameAround (s := s) (c := releaseInProgress s.claims) .released rfl rfl rfl
  have up := claimUp agree here holds
  have alone := sessionAlone agree here holds
  have total := agree.claims
  have ledger := agree.ledger
  rw [up,Bool.toNat_true] at total ledger
  refine ⟨?_,?_,?_,nofun,rfl,fun idle => (agree.settled idle).kept same,agree.session,?_,?_,?_⟩
  · have counted := countSet Held.claim (g := { h with claim := false, progress := none, verified := none, digest := none }) here
    rw [holds,Bool.toNat_false,Bool.toNat_true] at counted
    show _ + s.sessionClaim.toNat = 0
    rw [alone,Bool.toNat_false] at total ⊢
    omega
  · exact countKept _ here agree.validations rfl
  · exact countKept _ here agree.lock rfl
  · show (_::s.log).count _ = (_::s.log).count _ + 0
    rw [List.count_cons_self,List.count_cons_of_ne (by decide),ledger]
  · exact ⟨ledger,agree.logFits⟩
  · refine heldAfter here ?_ fun j g other there => ?_
    · have fit := agree.fit h (List.mem_of_getElem? here)
      exact ⟨fun x locks => ⟨(fit.view x locks).1,notOpen (closed x locks)⟩,nofun,nofun,nofun,
        fun stage holds => (fit.stage stage holds).kept same⟩
    · exact (agree.fit g (List.mem_of_getElem? there)).kept (.inl rfl)
        (.inr (claimAlone agree here holds other there)) (.inl same)

theorem Agree.recovery (agree : Agree hash booted s hs) {busy : Bool}
    (free : busy = true → s.claims.inProgress = false) :
    Agree hash booted (s.claimed { s.claims with modemRecoveryBusy := busy }) hs := by
  refine ⟨agree.claims,agree.validations,agree.lock,fun up => ?_,agree.signalled,agree.settled,agree.session,
    agree.ledger,agree.logFits,fun g inside => ?_⟩
  · refine ⟨(agree.exclusive up).1,?_⟩
    show busy = false
    by_contra taken
    exact absurd ((free (by simpa using taken)).symm.trans up) Bool.false_ne_true
  · exact (agree.fit g inside).kept (.inl rfl) (.inl ⟨rfl,rfl,rfl⟩) (.inl ⟨rfl,rfl,rfl,rfl,rfl⟩)

theorem Agree.claimsKept (agree : Agree hash booted s hs) (here : hs[i]? = some h) {g : Held}
    (same : g.claim = h.claim) :
    (hs.set i g).countP Held.claim + s.sessionClaim.toNat = s.claims.inProgress.toNat := by
  rw [countKept (n := hs.countP Held.claim) _ here rfl same]
  exact agree.claims

theorem Agree.enterValidation (agree : Agree hash booted s hs) (here : hs[i]? = some h)
    (without : h.validation = none) (free : s.claims.inProgress = false) (idle : s.claims.validationBusy = false)
    {event : Event} {stage : Stage} (fits : EventFits s.log event) (other : event ≠ .claimed ∧ event ≠ .released)
    (opened : lastOpened (event::s.log) = lastOpened s.log)
    (staged : Staged booted (logged (s.claimed { s.claims with validationBusy := true }) event) stage) :
    Agree hash booted (logged (s.claimed { s.claims with validationBusy := true }) event)
      (hs.set i { h with validation := some stage }) := by
  have total := agree.validations
  rw [idle,Bool.toNat_false] at total
  refine ⟨agree.claimsKept here rfl,?_,countKept _ here agree.lock rfl,?_,agree.signalled,nofun,?_,
    ?_,⟨fits,agree.logFits⟩,?_⟩
  · have counted := countSet (·.validation.isSome) (g := { h with validation := some stage }) here
    simp only [without,Option.isSome_none,Option.isSome_some,Bool.toNat_false,Bool.toNat_true] at counted
    show _ = 1
    omega
  · exact fun up => absurd (free.symm.trans up) Bool.false_ne_true
  · show s.sessionClaim = true → _ ∧ _ ∧ lastOpened (event::s.log) = _
    rw [opened]
    exact agree.session
  · show (event::s.log).count _ = (event::s.log).count _ + _
    rw [List.count_cons_of_ne other.1,List.count_cons_of_ne other.2]
    exact agree.ledger
  · refine heldAfter here ?_ fun j g _ there => ?_
    · have fit := agree.fit h (List.mem_of_getElem? here)
      exact ⟨fit.view,fit.progress,fit.verified,fun d knows =>
        ⟨(fit.digest d knows).1,opened.trans (fit.digest d knows).2⟩,fun _ same => by cases same; exact staged⟩
    · have inside := List.mem_of_getElem? there
      exact (agree.fit g inside).kept (.inl rfl) (.inl ⟨rfl,rfl,opened⟩) (.inr (agree.noStage idle inside))

theorem Agree.moveStage (agree : Agree hash booted s hs) (here : hs[i]? = some h) {stage stage' : Stage}
    (holds : h.validation = some stage) {log : List Event} (counts : ∀ e, e = .claimed ∨ e = .released →
      log.count e = s.log.count e) (opened : lastOpened log = lastOpened s.log) (fits : LogFits log)
    (staged : Staged booted { s with log := log } stage') :
    Agree hash booted { s with log := log } (hs.set i { h with validation := some stage' }) := by
  have up := validationUp agree here holds
  refine ⟨agree.claimsKept here rfl,countKept _ here agree.validations ?_,countKept _ here agree.lock rfl,
    agree.exclusive,agree.signalled,fun idle => ?_,?_,?_,fits,?_⟩
  · rw [holds]; rfl
  · exact absurd (idle.symm.trans up) Bool.false_ne_true
  · show s.sessionClaim = true → _ ∧ _ ∧ lastOpened log = _
    rw [opened]
    exact agree.session
  · show log.count _ = log.count _ + _
    rw [counts _ (.inl rfl),counts _ (.inr rfl)]
    exact agree.ledger
  · refine heldAfter here ?_ fun j g other there => ?_
    · have fit := agree.fit h (List.mem_of_getElem? here)
      exact ⟨fit.view,fit.progress,fit.verified,fun d knows =>
        ⟨(fit.digest d knows).1,opened.trans (fit.digest d knows).2⟩,fun _ same => by cases same; exact staged⟩
    · exact (agree.fit g (List.mem_of_getElem? there)).kept (.inl rfl) (.inl ⟨rfl,rfl,opened⟩)
        (.inr (validationAlone agree here holds other there))

theorem Agree.leaveValidation (agree : Agree hash booted s hs) (here : hs[i]? = some h) {stage : Stage}
    (holds : h.validation = some stage) {c : Claims} (free : c.inProgress = s.claims.inProgress)
    (idle : c.validationBusy = false) (recovery : c.modemRecoveryBusy = s.claims.modemRecoveryBusy)
    (signalled : c.otaActive = s.claims.otaActive) (settled : Settled booted (s.claimed c)) :
    Agree hash booted (s.claimed c) (hs.set i { h with validation := none }) := by
  have up := validationUp agree here holds
  have total := agree.validations
  rw [up,Bool.toNat_true] at total
  refine ⟨(agree.claimsKept (g := { h with validation := none }) here rfl).trans (congrArg Bool.toNat free.symm),?_,
    countKept _ here agree.lock rfl,?_,signalled.trans (agree.signalled.trans free.symm),fun _ => settled,
    agree.session,agree.ledger.trans (by rw [← free]; rfl),agree.logFits,?_⟩
  · have counted := countSet (·.validation.isSome) (g := { h with validation := none }) here
    simp only [holds,Option.isSome_none,Option.isSome_some,Bool.toNat_false,Bool.toNat_true] at counted
    show _ = c.validationBusy.toNat
    rw [idle,Bool.toNat_false]
    omega
  · exact fun claimed => ⟨idle,recovery.trans (agree.exclusive (free.symm.trans claimed)).2⟩
  · refine heldAfter here ?_ fun j g other there => ?_
    · have fit := agree.fit h (List.mem_of_getElem? here)
      exact ⟨fit.view,fit.progress,fit.verified,fit.digest,nofun⟩
    · exact (agree.fit g (List.mem_of_getElem? there)).kept (.inl rfl) (.inl ⟨rfl,rfl,rfl⟩)
        (.inr (validationAlone agree here holds other there))

theorem Agree.takeLock (agree : Agree hash booted s hs) (here : hs[i]? = some .nothing) (unlocked : s.locked = false) :
    (s.xfer.isOpen = true → s.xfer.received ≤ s.xfer.imageLen) ∧
      Agree hash booted { s with locked := true } (hs.set i (.entered s.xfer)) := by
  have session := sessionUnlocked unlocked
  have known (opened : s.xfer.isOpen = true) := agree.session (session.trans opened)
  have total := agree.claims
  have locks := agree.lock
  rw [session] at total
  rw [unlocked,Bool.toNat_false] at locks
  refine ⟨fun opened => (known opened).2.1,?_⟩
  refine ⟨?_,?_,?_,agree.exclusive,agree.signalled,agree.settled,nofun,agree.ledger,agree.logFits,?_⟩
  · have counted := countSet Held.claim (g := .entered s.xfer) here
    rw [enteredClaim] at counted
    exact counted.trans total
  · exact countKept _ here agree.validations (congrArg Option.isSome (enteredValidation s.xfer))
  · have counted := countSet (·.xfer.isSome) (g := .entered s.xfer) here
    rw [enteredXfer,locks] at counted
    exact counted
  · refine heldAfter here ?_ fun j g _ there =>
      (agree.fit g (List.mem_of_getElem? there)).kept (.inl rfl) (.inl ⟨rfl,rfl,rfl⟩) (.inl ⟨rfl,rfl,rfl,rfl,rfl⟩)
    unfold Held.entered
    cases opened : s.xfer.isOpen with
    | false => exact ⟨fun x same => by cases same; exact ⟨rfl,notOpen opened⟩,nofun,nofun,nofun,nofun⟩
    | true =>
      exact ⟨fun x same => by cases same; exact ⟨rfl,fun _ => ⟨rfl,rfl⟩⟩,
        fun n same => by cases same; exact ⟨rfl,(known opened).1⟩,nofun,
        fun d same => by cases same; exact ⟨rfl,(known opened).2.2⟩,nofun⟩

theorem Agree.unlock (agree : Agree hash booted s hs) (here : hs[i]? = some h) {x : XferVars}
    (without : h.validation = none) (holds : h.xfer = some x) (ready : Ready x h) :
    Agree hash booted { s with locked := false } (hs.set i h.left) := by
  have fit := agree.fit h (List.mem_of_getElem? here)
  have sees := (fit.view x holds).1
  have up := lockUp agree here holds
  have total := agree.claims
  have locks := agree.lock
  rw [sessionLocked up,Bool.toNat_false] at total
  rw [up,Bool.toNat_true] at locks
  have session : Shared.sessionClaim { s with locked := false } = x.isOpen :=
    (sessionUnlocked rfl).trans (congrArg XferVars.isOpen sees)
  have unlocked : (hs.set i h.left).countP (·.xfer.isSome) = 0 := by
    have counted := countSet (·.xfer.isSome) (g := h.left) here
    have gone : h.left.xfer = none := by unfold Held.left; rw [holds]; dsimp only; split <;> rfl
    simp only [holds,gone,Option.isSome_some,Option.isSome_none,Bool.toNat_true,Bool.toNat_false] at counted
    omega
  have others : ∀ j g, j ≠ i → hs[j]? = some g → Fit hash booted { s with locked := false } g :=
    fun j g _ there => (agree.fit g (List.mem_of_getElem? there)).kept (.inl rfl) (.inl ⟨rfl,rfl,rfl⟩)
      (.inl ⟨rfl,rfl,rfl,rfl,rfl⟩)
  cases opened : x.isOpen with
  | false =>
    have leaves := leftClosed holds opened
    rw [leaves] at unlocked ⊢
    refine ⟨?_,countKept _ here agree.validations rfl,unlocked,agree.exclusive,agree.signalled,agree.settled,?_,
      agree.ledger,agree.logFits,
      heldAfter here ⟨nofun,fit.progress,fit.verified,fit.digest,fit.stage⟩ others⟩
    · rw [session,opened]
      exact (congrArg (· + 0)
        (countKept (g := { h with xfer := none, found := none }) Held.claim here rfl rfl)).trans total
    · rw [session]
      exact notOpen opened
  | true =>
    obtain ⟨claimed,known,bounded,digest⟩ := ready opened
    have leaves : h.left = .nothing := by unfold Held.left; rw [holds]; exact if_pos opened
    rw [leaves] at unlocked ⊢
    refine ⟨?_,countKept _ here agree.validations (by rw [without]; rfl),unlocked,agree.exclusive,
      agree.signalled,agree.settled,?_,agree.ledger,agree.logFits,heldAfter here nothingFits others⟩
    · have counted := countSet Held.claim (g := .nothing) here
      rw [claimed,Bool.toNat_true,show Held.nothing.claim.toNat = 0 from rfl] at counted
      rw [session,opened]
      show _ + 1 = s.claims.inProgress.toNat
      omega
    · intro _
      show Written s s.xfer.received ∧ s.xfer.received ≤ s.xfer.imageLen ∧ lastOpened s.log = some s.xfer.digest
      rw [sees]
      exact ⟨(fit.progress _ known).2,bounded,(fit.digest _ digest).2⟩

/-- The receiver's variables change under the lock; `s'` may also log that a transfer is open. -/
theorem Agree.store (agree : Agree hash booted s hs) (here : hs[i]? = some h) {x y : XferVars}
    (holds : h.xfer = some y) (claims : x.isOpen = true → h.claim = true)
    {log : List Event} (same : SameImage s { s with log := log })
    (ledger : log.count .claimed = s.log.count .claimed ∧ log.count .released = s.log.count .released)
    (fits : LogFits log) (opening : h.claim = false → lastOpened log = lastOpened s.log)
    {digest : Option (Nat × Bytes)} (current : x.isOpen = true → digest = some x.digest)
    (knows : ∀ d, digest = some d → h.claim = true ∧ lastOpened log = some d) :
    Agree hash booted { s with xfer := x, log := log } (hs.set i { h with xfer := some x, digest := digest }) := by
  have up := lockUp agree here holds
  have fit := agree.fit h (List.mem_of_getElem? here)
  have shut (x : XferVars) (log : List Event) : Shared.sessionClaim { s with xfer := x, log := log } = false :=
    sessionLocked up
  have same' : SameImage s { s with xfer := x, log := log } :=
    ⟨same.pending,same.marked,same.marks,same.rollbacks,same.open_⟩
  refine ⟨?_,countKept _ here agree.validations rfl,countKept _ here agree.lock (by rw [holds]; rfl),
    agree.exclusive,agree.signalled,fun idle => (agree.settled idle).kept same',?_,?_,fits,?_⟩
  · have total := agree.claimsKept (g := { h with xfer := some x, digest := digest }) here rfl
    rw [show s.sessionClaim = false from shut s.xfer s.log] at total
    rw [shut]
    exact total
  · rw [shut]
    exact nofun
  · show log.count _ = log.count _ + _
    rw [ledger.1,ledger.2]
    exact agree.ledger
  · refine heldAfter here ?_ fun j g other there => ?_
    · exact ⟨fun z same => by cases same; exact ⟨rfl,fun opened => ⟨claims opened,current opened⟩⟩,fit.progress,
        fit.verified,knows,
        fun stage holds => (fit.stage stage holds).kept same'⟩
    · refine (agree.fit g (List.mem_of_getElem? there)).kept (.inr (lockAlone agree here holds other there)) ?_
        (.inl same')
      cases claimed : h.claim with
      | true => exact .inr (claimAlone agree here claimed other there)
      | false => exact .inl ⟨rfl,rfl,opening claimed⟩

/-! The slot, which only the holder of the transfer claim writes. -/

theorem Agree.slot (agree : Agree hash booted s hs) (here : hs[i]? = some h) (claimed : h.claim = true)
    {k : Bool} {slot : Nat → UInt8} {written : Bytes} {h' : Held}
    (same : h'.claim = h.claim ∧ h'.validation = h.validation ∧ h'.xfer = h.xfer ∧ h'.digest = h.digest)
    (unread : h'.verified = none)
    (progress : ∀ n, h'.progress = some n → Written { s with slot := slot, written := written } n) :
    Agree hash booted { s with handle := k, slot := slot, written := written } (hs.set i h') := by
  have alone := sessionAlone agree here claimed
  have fit := agree.fit h (List.mem_of_getElem? here)
  refine ⟨agree.claimsKept here same.1,countKept _ here agree.validations (by rw [same.2.1]),
    countKept _ here agree.lock (by rw [same.2.2.1]),agree.exclusive,agree.signalled,agree.settled,?_,
    agree.ledger,agree.logFits,?_⟩
  · exact fun opened => absurd (alone.symm.trans opened) Bool.false_ne_true
  · refine heldAfter here ⟨?_,?_,?_,?_,?_⟩ fun j g other there => ?_
    · rw [same.2.2.1,same.1,same.2.2.2]
      exact fit.view
    · exact fun n knows => ⟨same.1.trans claimed,progress n knows⟩
    · rw [unread]
      nofun
    · rw [same.2.2.2,same.1]
      exact fit.digest
    · rw [same.2.1]
      exact fit.stage
    · exact (agree.fit g (List.mem_of_getElem? there)).kept (.inl rfl)
        (.inr (claimAlone agree here claimed other there)) (.inl ⟨rfl,rfl,rfl,rfl,rfl⟩)

theorem writtenMore {n : Nat} {chunk : Bytes} {left : Nat → UInt8} (written : Written s n) :
    Written (writeSlot s chunk true left) (n + chunk.length) := by
  obtain ⟨count,image⟩ := written
  subst count
  refine ⟨List.length_append,List.ext_getElem? fun k => ?_⟩
  have below : k < s.written.length → s.written[k]? = some (s.slot k) := fun small => by
    rw [← image]
    simp [Shared.image,small]
  show ((List.range _).map (fun i => if i < s.written.length then s.slot i
    else (chunk[i-s.written.length]?).getD (left i)))[k]? = (s.written ++ chunk)[k]?
  by_cases small : k < s.written.length
  · rw [List.getElem?_append_left small,below small,List.getElem?_map,List.getElem?_range (by omega)]
    simp [small]
  · rw [List.getElem?_append_right (by omega)]
    by_cases inside : k < s.written.length + chunk.length
    · rw [List.getElem?_map,List.getElem?_range inside]
      have there : k - s.written.length < chunk.length := by omega
      simp [small,List.getElem?_eq_getElem there]
    · rw [List.getElem?_eq_none (by simp; omega),List.getElem?_eq_none (by omega)]

theorem writtenStill {n : Nat} (chunk : Bytes) {left : Nat → UInt8} (written : Written s n) :
    Written (writeSlot s chunk false left) n := by
  obtain ⟨count,image⟩ := written
  refine ⟨count,Eq.trans (List.map_congr_left fun k inside => ?_) image⟩
  exact if_pos (by rw [count]; exact List.mem_range.mp inside)

theorem Agree.readBack (agree : Agree hash booted s hs) (here : hs[i]? = some h) (claimed : h.claim = true)
    {len : Nat} {sha : Bytes} (read : hash (s.image len) = sha) :
    Agree hash booted s (hs.set i { h with verified := some (len,sha) }) := by
  have fit := agree.fit h (List.mem_of_getElem? here)
  refine ⟨agree.claimsKept here rfl,countKept _ here agree.validations rfl,countKept _ here agree.lock rfl,
    agree.exclusive,agree.signalled,agree.settled,agree.session,agree.ledger,agree.logFits,?_⟩
  refine heldAfter here ⟨fit.view,fit.progress,fun len sha same => ?_,fit.digest,fit.stage⟩ fun j g _ there =>
    agree.fit g (List.mem_of_getElem? there)
  cases same
  exact ⟨claimed,read⟩

theorem claimTaken {c d : Claims} (taken : claimInProgress c = (true,d)) :
    c.inProgress = false ∧ c.validationBusy = false ∧ c.modemRecoveryBusy = false ∧
      d = { c with inProgress := true, otaActive := true } := by
  unfold claimInProgress at taken
  split at taken
  · rename_i free
    cases taken
    simp only [Bool.and_eq_true,Bool.not_eq_true'] at free
    exact ⟨free.1.1,free.1.2,free.2,rfl⟩
  · cases taken

theorem claimRefused {c d : Claims} (refused : claimInProgress c = (false,d)) : d = c := by
  unfold claimInProgress at refused
  split at refused <;> cases refused
  rfl

theorem recoveryTried {σ : Type} (commit : σ → Bool × σ) (c : Claims) (context : σ) :
    ∃ busy, (fwOtaTryModemRecovery commit c context).2.1 = { c with modemRecoveryBusy := busy } ∧
      (busy = true → busy = c.modemRecoveryBusy ∨ c.inProgress = false) := by
  unfold fwOtaTryModemRecovery
  split
  · rename_i free
    simp only [Bool.and_eq_true,Bool.not_eq_true'] at free
    split
    · exact ⟨true,rfl,fun _ => .inr free.1.1⟩
    · exact ⟨c.modemRecoveryBusy,rfl,fun _ => .inl rfl⟩
  · exact ⟨c.modemRecoveryBusy,rfl,fun _ => .inl rfl⟩

theorem confirmTaken {c d : Claims} {reason : ConfirmReason} {now : Nat} {mqttMode fresh : Bool}
    (taken : confirmEnter c reason now mqttMode fresh = (.taken,d)) :
    c.validationBusy = false ∧ c.pendingVerify = true ∧ c.markedValid = false ∧ c.inProgress = false ∧
      (reason = .automaticUplink → now < fwOtaVerifyWindowUs ∧ (mqttMode = true → fresh = true)) ∧
      d = { c with validationBusy := true } := by
  unfold confirmEnter at taken
  dsimp only at taken
  split at taken
  · cases taken
  split at taken
  · cases taken
  split at taken
  · cases taken
  split at taken
  · cases taken
  rename_i idle pending able proven
  cases taken
  simp only [Bool.or_eq_true,Bool.and_eq_true,beq_iff_eq,decide_eq_true_eq,not_or,not_and,Bool.not_eq_true]
    at idle pending able proven
  refine ⟨idle,by simpa using pending,able.1.1,able.1.2,fun automatic => ⟨Nat.lt_of_not_le (able.2 automatic),?_⟩,rfl⟩
  intro mode
  have known := proven ⟨automatic,mode⟩
  simpa using known

theorem confirmRefused {c d : Claims} {reason : ConfirmReason} {now : Nat} {mqttMode fresh : Bool}
    {entry : ConfirmEntry} (refused : confirmEnter c reason now mqttMode fresh = (entry,d))
    (other : entry ≠ .taken) : d = c := by
  unfold confirmEnter at refused
  dsimp only at refused
  split at refused
  · cases refused; rfl
  split at refused
  · cases refused; rfl
  split at refused
  · cases refused; rfl
  split at refused
  · cases refused; rfl
  · cases refused; exact absurd rfl other

theorem rollbackTaken {c d : Claims} {now : Nat} (taken : rollbackEnter c now = (true,d)) :
    c.validationBusy = false ∧ c.pendingVerify = true ∧ c.markedValid = false ∧ c.inProgress = false ∧
      fwOtaVerifyWindowUs ≤ now ∧ d = { c with validationBusy := true } := by
  unfold rollbackEnter at taken
  split at taken
  · cases taken
  rename_i due
  cases taken
  simp only [Bool.or_eq_true,Bool.not_eq_true',decide_eq_true_eq,not_or,Bool.not_eq_true,Bool.not_eq_false,Nat.not_lt]
    at due
  exact ⟨due.1.1.2,due.1.1.1.1,due.1.1.1.2,due.1.2,due.2,rfl⟩

theorem rollbackRefused {c d : Claims} {now : Nat} (refused : rollbackEnter c now = (false,d)) : d = c := by
  unfold rollbackEnter at refused
  split at refused <;> cases refused
  rfl

theorem claimsSame (s : Shared) : s.claimed s.claims = s := rfl

theorem Agree.confirmEntered (agree : Agree hash booted s hs) (here : hs[i]? = some h) {c : Call}
    {reason : ConfirmReason} (needs : need c h (.confirmEnter reason)) {e : Outside} {r : Ans (.confirmEnter reason)} {s' : Shared}
    (did : FwOta.act hash e s (.confirmEnter reason) = .returns r s') :
    may h (.confirmEnter reason) r ∧ Agree hash booted s' (hs.set i (after h (.confirmEnter reason) r)) := by
  simp only [FwOta.act] at did
  split at did
  · rename_i c taken
    obtain ⟨idle,pending,unmarked,free,proven,same⟩ := confirmTaken taken
    cases did
    subst same
    have settled := agree.settled idle
    have none_ := settled.1
    rw [unmarked,Bool.toNat_false] at none_
    refine ⟨trivial,agree.enterValidation here needs free idle proven ⟨nofun,nofun⟩ rfl ?_⟩
    refine ⟨settled.2.2 pending,pending,unmarked,?_,?_,rfl⟩
    · exact (List.countP_cons_of_neg (by simp [isMark])).trans (show marks s.log = 0 by omega)
    · exact (List.count_cons_of_ne (by nofun)).trans (show rollbacks s.log = 0 by omega)
  · rename_i entry c other refused
    cases did
    rw [confirmRefused refused (fun taken => other taken),claimsSame]
    cases r with
    | taken => exact absurd rfl other
    | refused | notPending => exact ⟨trivial,agree.unchanged here⟩

theorem Agree.markedValid (agree : Agree hash booted s hs) (here : hs[i]? = some h) {c : Call}
    {reason : ConfirmReason} (needs : need c h (.markAppValid reason)) {e : Outside} {r : Ans (.markAppValid reason)} {s' : Shared}
    (did : FwOta.act hash e s (.markAppValid reason) = .returns r s') :
    may h (.markAppValid reason) r ∧ Agree hash booted s' (hs.set i (after h (.markAppValid reason) r)) := by
  have fit := agree.fit h (List.mem_of_getElem? here)
  cases did
  obtain ⟨booted_,pending,unmarked,none_,never,opened⟩ := fit.stage _ needs
  refine ⟨trivial,agree.moveStage here needs (fun event plain => ?_) rfl ⟨opened,agree.logFits⟩ ?_⟩
  · rcases plain with rfl | rfl <;> exact List.count_cons_of_ne (by nofun)
  · refine ⟨booted_,pending,unmarked,?_,(List.count_cons_of_ne (by nofun)).trans never⟩
    show List.countP isMark (_::s.log) = _
    rw [List.countP_cons,show List.countP isMark s.log = 0 from none_]
    cases e.ok <;> rfl

theorem Agree.confirmLeft (agree : Agree hash booted s hs) (here : hs[i]? = some h) {c : Call}
    {ok : Bool} (needs : need c h (.confirmLeave ok)) {e : Outside} {r : Ans (.confirmLeave ok)} {s' : Shared}
    (did : FwOta.act hash e s (.confirmLeave ok) = .returns r s') :
    may h (.confirmLeave ok) r ∧ Agree hash booted s' (hs.set i (after h (.confirmLeave ok) r)) := by
  have fit := agree.fit h (List.mem_of_getElem? here)
  cases did
  obtain ⟨reason,holds⟩ := needs
  obtain ⟨booted_,pending,unmarked,count,never⟩ := fit.stage _ holds
  refine ⟨trivial,agree.leaveValidation here holds ?_ rfl ?_ ?_ ?_⟩
  · cases ok <;> rfl
  · cases ok <;> rfl
  · cases ok <;> rfl
  · cases ok with
    | true => exact ⟨show marks s.log + rollbacks s.log = 1 by rw [count,never]; rfl,nofun,nofun⟩
    | false =>
      refine ⟨?_,fun _ => pending.trans booted_.symm,fun _ => booted_⟩
      show marks s.log + rollbacks s.log = s.claims.markedValid.toNat
      rw [count,never,unmarked]
      rfl

theorem Agree.rollbackEntered (agree : Agree hash booted s hs) (here : hs[i]? = some h) {c : Call}
    (needs : need c h .rollbackEnter) {e : Outside} {r : Ans .rollbackEnter} {s' : Shared}
    (did : FwOta.act hash e s .rollbackEnter = .returns r s') :
    may h .rollbackEnter r ∧ Agree hash booted s' (hs.set i (after h .rollbackEnter r)) := by
  simp only [FwOta.act] at did
  split at did
  · rename_i c taken
    obtain ⟨idle,pending,unmarked,free,_,same⟩ := rollbackTaken taken
    cases did
    subst same
    have settled := agree.settled idle
    have none_ := settled.1
    rw [unmarked,Bool.toNat_false] at none_
    refine ⟨trivial,agree.enterValidation here needs free idle trivial ⟨nofun,nofun⟩ rfl ?_⟩
    refine ⟨settled.2.2 pending,pending,unmarked,?_,?_⟩
    · exact (List.countP_cons_of_neg (by simp [isMark])).trans (show marks s.log = 0 by omega)
    · exact List.count_cons_self.trans (show rollbacks s.log + 1 = 1 by omega)
  · rename_i c refused
    cases did
    rw [rollbackRefused refused,claimsSame]
    exact ⟨trivial,agree.unchanged here⟩

theorem Agree.stored (agree : Agree hash booted s hs) (here : hs[i]? = some h) {c : Call}
    {x : XferVars} (needs : need c h (.storeXfer x)) {e : Outside} {r : Ans (.storeXfer x)} {s' : Shared}
    (did : FwOta.act hash e s (.storeXfer x) = .returns r s') :
    may h (.storeXfer x) r ∧ Agree hash booted s' (hs.set i (after h (.storeXfer x) r)) := by
  have fit := agree.fit h (List.mem_of_getElem? here)
  obtain ⟨y,holds,claims,asks⟩ := needs
  have sees := (fit.view y holds).1
  simp only [FwOta.act,sees] at did
  split at did
  · rename_i opening
    cases did
    simp only [Bool.and_eq_true,Bool.not_eq_true'] at opening
    have claimed := claims opening.1
    refine ⟨trivial,agree.store here holds claims (sameAround (c := s.claims) (.opened x.imageLen x.sha) rfl rfl rfl)
      ⟨List.count_cons_of_ne (by nofun),List.count_cons_of_ne (by nofun)⟩ ⟨trivial,agree.logFits⟩
      (fun free => absurd (free.symm.trans claimed) Bool.false_ne_true) (fun opened => if_pos opened)
      fun d knows => ?_⟩
    rw [if_pos opening.1] at knows
    exact ⟨claimed,knows⟩
  · rename_i still
    cases did
    simp only [Bool.and_eq_true,Bool.not_eq_true',not_and,Bool.not_eq_false] at still
    rw [if_neg (fun opening => notOpen opening.2 (still opening.1))] at asks
    refine ⟨trivial,agree.store here holds claims ⟨rfl,rfl,rfl,rfl,rfl⟩ ⟨rfl,rfl⟩ agree.logFits (fun _ => rfl)
      (fun opened => if_pos opened) fun d knows => ?_⟩
    split at knows
    · rename_i opened
      cases knows
      obtain ⟨claimed,digest⟩ := (fit.view y holds).2 (still opened)
      rw [asks]
      exact ⟨claimed,(fit.digest _ digest).2⟩
    · exact fit.digest d knows

theorem Agree.wrote (agree : Agree hash booted s hs) (here : hs[i]? = some h) {c : Call}
    {chunk : Bytes} (needs : need c h (.otaWrite chunk)) {e : Outside} {r : Ans (.otaWrite chunk)} {s' : Shared}
    (did : FwOta.act hash e s (.otaWrite chunk) = .returns r s') :
    may h (.otaWrite chunk) r ∧ Agree hash booted s' (hs.set i (after h (.otaWrite chunk) r)) := by
  have fit := agree.fit h (List.mem_of_getElem? here)
  obtain ⟨unread,x,_,_,_,_,claimed,known,_⟩ := needs
  cases did
  have written := (fit.progress _ known).2
  cases works : e.ok with
  | true =>
    refine ⟨trivial,agree.slot (k := s.handle) here claimed ⟨rfl,rfl,rfl,rfl⟩ unread fun n knows => ?_⟩
    replace knows : h.progress.map (· + chunk.length) = some n := knows
    simp only [known,Option.map_some,Option.some.injEq] at knows
    subst knows
    exact writtenMore written
  | false =>
    refine ⟨trivial,agree.slot (k := s.handle) here claimed ⟨rfl,rfl,rfl,rfl⟩ unread fun n knows => ?_⟩
    cases known.symm.trans knows
    exact writtenStill chunk written

theorem Agree.act (agree : Agree hash booted s hs) (here : hs[i]? = some h) {c : Call} {a : Act}
    (needs : need c h a)
    {e : Outside} {r : Ans a} {s' : Shared} (did : FwOta.act hash e s a = .returns r s') :
    may h a r ∧ Agree hash booted s' (hs.set i (after h a r)) := by
  have fit := agree.fit h (List.mem_of_getElem? here)
  cases a with
  | readInProgress | nextUpdatePartition | createTask | relay | peekOpen | readClock | setBootPartition
  | respond result =>
    cases did
    exact ⟨trivial,agree.unchanged here⟩
  | otaAbort | otaEnd =>
    cases did
    exact ⟨trivial,(agree.unchanged here).elsewhere s.now false s.restarted⟩
  | claim =>
    simp only [FwOta.act] at did
    split at did
    · rename_i c taken
      obtain ⟨free,quiet,steady,same⟩ := claimTaken taken
      cases did
      subst same
      exact agree.claim here free quiet steady
    · rename_i c refused
      cases did
      rw [claimRefused refused,claimsSame]
      exact ⟨trivial,agree.unchanged here⟩
  | release =>
    cases did
    exact ⟨trivial,agree.release here needs.1 needs.2⟩
  | tryRecovery =>
    cases did
    obtain ⟨busy,same,free⟩ := recoveryTried (fun _ => (e.ok,())) s.claims ()
    rw [same]
    refine ⟨trivial,(agree.unchanged here).recovery fun taken => ?_⟩
    rcases free taken with kept | free
    · by_contra up
      have steady := (agree.exclusive (by simpa using up)).2
      exact absurd (steady.symm.trans (kept.symm.trans taken)) Bool.false_ne_true
    · exact free
  | finishRecovery =>
    cases did
    exact ⟨trivial,(agree.unchanged here).recovery nofun⟩
  | confirmEnter reason => exact agree.confirmEntered here needs did
  | markAppValid reason => exact agree.markedValid here needs did
  | confirmLeave ok => exact agree.confirmLeft here needs did
  | rollbackEnter => exact agree.rollbackEntered here needs did
  | markAppInvalid =>
    simp only [FwOta.act] at did
    split at did
    · cases did
    · cases did
      exact ⟨trivial,agree.moveStage here needs (fun _ _ => rfl) rfl agree.logFits (fit.stage .rolling needs)⟩
  | rollbackLeave =>
    cases did
    obtain ⟨booted_,pending,unmarked,none_,once⟩ := fit.stage _ needs
    refine ⟨trivial,agree.leaveValidation here needs rfl rfl rfl rfl ?_⟩
    exact ⟨show marks s.log + rollbacks s.log = 1 by rw [none_,once],nofun,fun _ => booted_⟩
  | download =>
    cases did
    obtain ⟨claimed,unknown,unread⟩ := needs
    refine ⟨trivial,agree.slot (k := s.handle) here claimed ⟨rfl,rfl,rfl,rfl⟩ unread fun n knows => ?_⟩
    exact absurd (unknown.symm.trans knows) nofun
  | lockXfer =>
    simp only [FwOta.act] at did
    split at did
    · cases did
    · rename_i unlocked
      cases did
      rw [needs] at here
      exact agree.takeLock here (by simpa using unlocked)
  | tryLockXfer =>
    simp only [FwOta.act] at did
    split at did
    · cases did
      exact ⟨trivial,agree.unchanged here⟩
    · rename_i unlocked
      cases did
      rw [needs] at here
      exact agree.takeLock here (by simpa using unlocked)
  | unlockXfer =>
    cases did
    obtain ⟨without,x,_,holds,_,ready,_,_⟩ := needs
    exact ⟨trivial,agree.unlock here without holds ready⟩
  | storeXfer x => exact agree.stored here needs did
  | otaBegin =>
    obtain ⟨claimed,unread,_⟩ := needs
    simp only [FwOta.act] at did
    split at did
    · cases did
      refine ⟨trivial,agree.slot here claimed ⟨rfl,rfl,rfl,rfl⟩ unread fun n knows => ?_⟩
      cases knows
      exact ⟨rfl,rfl⟩
    · cases did
      exact ⟨trivial,agree.slot (k := s.handle) here claimed ⟨rfl,rfl,rfl,rfl⟩ unread nofun⟩
  | otaWrite chunk => exact agree.wrote here needs did
  | verifyWrittenImage len expected =>
    obtain ⟨claimed,_⟩ := needs
    cases did
    cases reads : (e.ok && hash (s.image len) == expected) with
    | true =>
      simp only [Bool.and_eq_true,beq_iff_eq] at reads
      exact ⟨trivial,agree.readBack here claimed reads.2⟩
    | false => exact ⟨trivial,agree.unchanged here⟩
  | restart => exact nomatch r

theorem Agree.ends (agree : Agree hash booted s hs) {a : Act} {e : Outside} {s' : Shared}
    (did : FwOta.act hash e s a = .ends s') : Agree hash booted s' hs := by
  cases a with
  | restart =>
    cases did
    exact agree.elsewhere s.now s.handle true
  | markAppInvalid =>
    simp only [FwOta.act] at did
    split at did
    · cases did
      exact agree.elsewhere s.now s.handle true
    · cases did
  | claim | confirmEnter _ | rollbackEnter | lockXfer | tryLockXfer | storeXfer _ | otaBegin =>
    simp only [FwOta.act] at did
    split at did <;> cases did
  | _ => cases did

end Acts
end Web3PiUps.FwOta
