import Web3PiUps.FwOtaTasks

/-! What a task of `fw_ota.c` holds as it goes: the transfer claim, the validation claim and
the receiver's lock, with what the lock lets it know. No task gives back what it does not
hold, and every task that ends holds nothing. -/
namespace Web3PiUps.FwOta
open Tasks Code WupsProtocol
open FwUpdate (le32 xferOk xferBadReq xferSeqMismatch xferFlashErr xferVerifyFail wupsFwTargetRp2040)

inductive Stage where
  | confirming (reason : ConfirmReason)
  | marked (reason : ConfirmReason) (ok : Bool)
  | rolling
  | rollFailed
  deriving DecidableEq, Repr

/-- An open transfer holds the claim itself; a task that takes the lock takes the claim of
the transfer with it. `found` is the transfer as it was then, `progress` what the task knows
to be written, `verified` the image it has read back, `digest` the BEGIN of the transfer. -/
structure Held where
  claim : Bool
  validation : Option Stage
  xfer : Option XferVars
  found : Option XferVars
  progress : Option Nat
  verified : Option (Nat × Bytes)
  digest : Option (Nat × Bytes)
  deriving DecidableEq, Repr

def Held.nothing : Held := ⟨false,none,none,none,none,none,none⟩

def XferVars.digest (x : XferVars) : Nat × Bytes := (x.imageLen,x.sha)

/-- With the lock, the transfer closed. -/
def Held.idle (found x : XferVars) : Held := ⟨false,none,some x,some found,none,none,none⟩

/-- With the lock and the claim, `n` bytes written. -/
def Held.writing (found x : XferVars) (n : Nat) : Held :=
  ⟨true,none,some x,some found,some n,none,some x.digest⟩

def Held.entered (x : XferVars) : Held := if x.isOpen then .writing x x x.received else .idle x x

theorem enteredClaim (x : XferVars) : (Held.entered x).claim = x.isOpen := by
  unfold Held.entered
  split
  · rename_i opened
    exact opened.symm
  · rename_i closed
    exact (Bool.not_eq_true _ ▸ closed : x.isOpen = false).symm

theorem enteredValidation (x : XferVars) : (Held.entered x).validation = none := by
  unfold Held.entered
  split <;> rfl

theorem enteredXfer (x : XferVars) : (Held.entered x).xfer.isSome = true := by
  unfold Held.entered
  split <;> rfl

def Held.left (h : Held) : Held :=
  match h.xfer with
  | some x => if x.isOpen then .nothing else { h with xfer := none, found := none }
  | none => h

def after (h : Held) : (a : Act) → Ans a → Held
  | .claim,true => { h with claim := true, progress := none, verified := none, digest := none }
  | .release,_ => { h with claim := false, progress := none, verified := none, digest := none }
  | .confirmEnter reason,.taken => { h with validation := some (.confirming reason) }
  | .markAppValid reason,r => { h with validation := some (.marked reason r) }
  | .confirmLeave _,_ => { h with validation := none }
  | .rollbackEnter,true => { h with validation := some .rolling }
  | .markAppInvalid,_ => { h with validation := some .rollFailed }
  | .rollbackLeave,_ => { h with validation := none }
  | .lockXfer,x => .entered x
  | .tryLockXfer,some x => .entered x
  | .unlockXfer,_ => h.left
  | .storeXfer x,_ => { h with xfer := some x, digest := if x.isOpen then some x.digest else h.digest }
  | .otaBegin,true => { h with progress := some 0 }
  | .otaBegin,false => { h with progress := none }
  | .otaWrite chunk,true => { h with progress := h.progress.map (· + chunk.length) }
  | .verifyWrittenImage len expected,true => { h with verified := some (len,expected) }
  | _,_ => h

def Ready (x : XferVars) (h : Held) : Prop :=
  x.isOpen = true → h.claim = true ∧ h.progress = some x.received ∧ x.received ≤ x.imageLen ∧
    h.digest = some x.digest

/-- The transfer a BEGIN asks for. -/
def asked : Call → Option (Nat × Bytes)
  | .xferReq .begin payload => some (le32 payload 4,(payload.drop 8).take 32)
  | _ => none

/-- A DATA that has to fit where the transfer stands, and does not. -/
def Misplaced (c : Call) (found : XferVars) : Prop :=
  ∃ payload, c = .xferReq .data payload ∧ found.isOpen = true ∧ 4 ≤ payload.length ∧
    (le32 payload 0 ≠ found.received ∨ found.imageLen < le32 payload 0 + (payload.drop 4).length)

def need (c : Call) (h : Held) : Act → Prop
  | .release => h.claim = true ∧ ∀ x, h.xfer = some x → x.isOpen = false
  | .confirmEnter _ | .rollbackEnter => h.validation = none
  | .markAppValid reason => h.validation = some (.confirming reason)
  | .confirmLeave ok => ∃ reason, h.validation = some (.marked reason ok)
  | .markAppInvalid => h.validation = some .rolling
  | .rollbackLeave => h.validation = some .rollFailed
  | .download => h.claim = true ∧ h.progress = none ∧ h.verified = none
  | .lockXfer | .tryLockXfer => h = .nothing
  | .unlockXfer => h.validation = none ∧ ∃ x found, h.xfer = some x ∧ h.found = some found ∧ Ready x h ∧
      (Misplaced c found → x.isOpen = false) ∧
      (x.isOpen = false → h.claim = true → h.verified = some x.digest)
  | .storeXfer x => ∃ y, h.xfer = some y ∧ (x.isOpen = true → h.claim = true) ∧
      (if x.isOpen = true ∧ y.isOpen = false then asked c = some x.digest else x.digest = y.digest)
  | .otaBegin => h.claim = true ∧ h.verified = none ∧ ∃ x, h.xfer = some x ∧ x.isOpen = false
  | .otaWrite chunk => h.verified = none ∧ ∃ x payload, h.xfer = some x ∧ h.found = some x ∧ x.isOpen = true ∧
      h.claim = true ∧ h.progress = some x.received ∧ x.received + chunk.length ≤ x.imageLen ∧
      c = .xferReq .data payload ∧ le32 payload 0 = x.received ∧ payload.drop 4 = chunk
  | .verifyWrittenImage _ _ => h.claim = true ∧ h.progress.isSome = true
  | .setBootPartition => h.claim = true ∧ ∃ x found, h.xfer = some x ∧ h.found = some found ∧
      found.isOpen = true ∧ found.received = x.imageLen ∧ found.digest = x.digest ∧
      h.progress = some x.imageLen ∧ h.verified = some x.digest ∧ h.digest = some x.digest
  | .restart => h.claim = true ∧ h.validation = none ∧ h.xfer = none ∧
      (∀ op payload, c = .xferReq op payload →
        ∃ len sha, h.progress = some len ∧ h.verified = some (len,sha) ∧ h.digest = some (len,sha))
  | .relay => h.claim = true
  | .readInProgress | .claim | .tryRecovery | .finishRecovery | .nextUpdatePartition | .createTask
  | .peekOpen | .readClock | .otaAbort | .otaEnd | .respond _ => True

def may (h : Held) : (a : Act) → Ans a → Prop
  | .claim,true => h.claim = false
  | .lockXfer,x => x.isOpen = true → x.received ≤ x.imageLen
  | .tryLockXfer,some x => x.isOpen = true → x.received ≤ x.imageLen
  | _,_ => True

def rules (c : Call) : Rules Ans Held := ⟨need c,may,after⟩

def sys (hash : Bytes → Bytes) : System Ans Shared Held Outside Call := ⟨exec hash,body,.nothing,rules⟩

abbrev Carries {α : Type} (c : Call) (last : α → Held → Prop) (code : Code Ans α) (h : Held) : Prop :=
  Keeps (rules c) last code h

variable {c : Call}

theorem confirmHolds {h : Held} (free : h.validation = none) (reason : ConfirmReason) :
    Carries c (fun _ h' => h' = h) (confirmRunningImage reason) h := by
  obtain ⟨claim,validation,xfer,found,progress,verified,digest⟩ := h
  cases free
  refine ⟨rfl,fun entry _ => ?_⟩
  cases entry with
  | refused => exact rfl
  | notPending => exact rfl
  | taken => exact ⟨rfl,fun ok _ => ⟨⟨reason,rfl⟩,fun _ _ => rfl⟩⟩

theorem markUplinkHolds : Carries c (fun _ h => h = .nothing) fwOtaMarkUplinkHealthy .nothing :=
  keepsBind (confirmHolds rfl _) fun _ _ same => same

theorem rollbackHolds : Carries c (fun _ h => h = .nothing) fwOtaRollbackTick .nothing := by
  refine ⟨rfl,fun due _ => ?_⟩
  cases due with
  | false => exact rfl
  | true => exact ⟨rfl,fun _ _ => ⟨rfl,fun _ _ => rfl⟩⟩

def Held.claimed : Held := { Held.nothing with claim := true }

theorem refuseHolds (r : UpdateRequest) :
    Carries c (fun refused h => refused ≠ some .ok ∧ h = .nothing) (refuseTarget r) .nothing := by
  unfold refuseTarget
  split
  · refine ⟨trivial,fun part _ => ?_⟩
    cases part with
    | none => exact ⟨nofun,rfl⟩
    | some size =>
      show Carries c _ (ite _ _ _) .nothing
      split
      · exact ⟨nofun,rfl⟩
      · exact keepsBind (confirmHolds rfl _) fun confirmed _ same => ⟨by cases confirmed <;> nofun,same⟩
  · exact ⟨by split <;> nofun,rfl⟩

theorem requestHolds (r : UpdateRequest) :
    Carries c (fun result h => h = if result = .ok then .claimed else .nothing) (fwOtaRequest r) .nothing := by
  refine ⟨trivial,fun busy _ => ?_⟩
  cases busy with
  | true => exact rfl
  | false =>
    show Carries c _ (ite _ _ _) .nothing
    split
    · exact rfl
    split
    · exact rfl
    split
    · exact rfl
    refine keepsBind (refuseHolds r) fun refused h known => ?_
    obtain ⟨notOk,same⟩ := known
    subst same
    cases refused with
    | some error => exact (if_neg fun ok => notOk (congrArg some ok)).symm
    | none =>
      refine ⟨trivial,fun claimed _ => ?_⟩
      cases claimed with
      | false => exact rfl
      | true =>
        refine ⟨trivial,fun created _ => ?_⟩
        cases created with
        | true => exact rfl
        | false => exact ⟨⟨rfl,nofun⟩,fun _ _ => rfl⟩

theorem otaTaskHolds {r : UpdateRequest} : Carries (.request r) (fun _ h => h = .nothing) otaTask .claimed := by
  refine ⟨⟨rfl,rfl,rfl⟩,fun finished _ => ?_⟩
  cases finished with
  | true => exact ⟨⟨rfl,rfl,rfl,nofun⟩,nofun⟩
  | false => exact ⟨⟨rfl,nofun⟩,fun _ _ => rfl⟩

theorem relayTaskHolds : Carries c (fun _ h => h = .nothing) relayTask .claimed :=
  ⟨rfl,fun _ _ => ⟨⟨rfl,nofun⟩,fun _ _ => rfl⟩⟩

theorem updateHolds (r : UpdateRequest) : Carries (.request r) (fun _ h => h = .nothing) (update r) .nothing := by
  refine keepsBind (requestHolds r) fun result h same => ?_
  subst same
  split
  · split
    · exact relayTaskHolds
    · exact otaTaskHolds
  · exact rfl

/-- What a handler leaves: no transfer, or an open one that agrees with what is written. -/
def Handled (c : Call) (found y : XferVars) (h : Held) : Prop :=
  (y.isOpen = false ∧ h = .idle found y) ∨
    (y.isOpen = true ∧ y.received ≤ y.imageLen ∧ h = .writing found y y.received ∧ ¬Misplaced c found)

/-- What it finds. -/
def Found (x : XferVars) (h : Held) : Prop :=
  (x.isOpen = false ∧ h = .idle x x) ∨ (x.isOpen = true ∧ x.received ≤ x.imageLen ∧ h = .writing x x x.received)

theorem notOpen {y : XferVars} {P : Prop} (closed : y.isOpen = false) (opened : y.isOpen = true) : P :=
  absurd (closed.symm.trans opened) Bool.false_ne_true

theorem enteredFound {x : XferVars} (bounded : x.isOpen = true → x.received ≤ x.imageLen) : Found x (.entered x) := by
  unfold Held.entered
  cases opened : x.isOpen with
  | false => exact Or.inl ⟨opened,rfl⟩
  | true => exact Or.inr ⟨opened,bounded opened,rfl⟩

theorem Found.handled {x : XferVars} {h : Held} (found : Found x h) (placed : ¬Misplaced c x) : Handled c x x h := by
  rcases found with closed | ⟨opened,bounded,same⟩
  · exact Or.inl closed
  · exact Or.inr ⟨opened,bounded,same,placed⟩

theorem abortHolds {found x : XferVars} {n : Nat} (opened : x.isOpen = true) :
    Carries c (fun y h => y.isOpen = false ∧ h = .idle found y) (xferAbortLocked x) (.writing found x n) := by
  unfold xferAbortLocked
  rw [if_pos opened]
  exact ⟨trivial,fun _ _ => ⟨⟨x,rfl,fun _ => rfl,rfl⟩,fun _ _ =>
    ⟨⟨rfl,fun x same => by cases same; rfl⟩,fun _ _ => ⟨rfl,rfl⟩⟩⟩⟩

theorem abortedHandled {α : Type} {found x : XferVars} {n : Nat} (opened : x.isOpen = true) (result : α) :
    Carries c (fun r h => Handled c found r.1 h) (do let x ← xferAbortLocked x; pure (x,result))
      (.writing found x n) :=
  keepsBind (abortHolds opened) fun _ _ closed => Or.inl closed

theorem beginHolds {x : XferVars} {payload : Bytes} {h : Held} (entered : Found x h)
    (call : c = .xferReq .begin payload) :
    Carries c (fun r h => Handled c x r.1 h) (xferBegin x payload) h := by
  have placed : ¬Misplaced c x := by
    rintro ⟨other,data,_⟩
    rw [call] at data
    exact nomatch data
  unfold xferBegin
  dsimp only
  split
  · exact entered.handled placed
  split
  · exact entered.handled placed
  split
  · exact entered.handled placed
  refine keepsBind (m := fun y h => y.isOpen = false ∧ h = .idle x y) ?_ fun y h known => ?_
  · rcases entered with ⟨closed,rfl⟩ | ⟨opened,_,rfl⟩
    · unfold xferAbortLocked
      rw [if_neg (by rw [closed]; exact Bool.false_ne_true)]
      exact ⟨closed,rfl⟩
    · exact abortHolds opened
  · obtain ⟨closed,rfl⟩ := known
    refine ⟨trivial,fun busy _ => ?_⟩
    cases busy with
    | true => exact Or.inl ⟨closed,rfl⟩
    | false =>
      refine ⟨trivial,fun part _ => ?_⟩
      cases part with
      | none => exact Or.inl ⟨closed,rfl⟩
      | some size =>
        show Carries c _ (ite _ _ _) _
        split
        · exact Or.inl ⟨closed,rfl⟩
        refine keepsBind (confirmHolds rfl _) fun confirmed h same => ?_
        subst same
        cases confirmed with
        | false => exact Or.inl ⟨closed,rfl⟩
        | true =>
          refine ⟨trivial,fun claimed _ => ?_⟩
          cases claimed with
          | false => exact Or.inl ⟨closed,rfl⟩
          | true =>
            refine ⟨⟨rfl,rfl,y,rfl,closed⟩,fun begun _ => ?_⟩
            cases begun with
            | false =>
              exact ⟨⟨rfl,fun z same => by cases same; exact closed⟩,fun _ _ => Or.inl ⟨closed,rfl⟩⟩
            | true =>
              have asks : asked c = some (le32 payload 4,(payload.drop 8).take 32) := by rw [call]; rfl
              exact ⟨⟨y,rfl,fun _ => rfl,by rw [if_pos ⟨rfl,closed⟩]; exact asks⟩,fun _ _ =>
                Or.inr ⟨rfl,Nat.zero_le _,rfl,placed⟩⟩

theorem dataHolds {x : XferVars} {payload : Bytes} {h : Held} (entered : Found x h)
    (call : c = .xferReq .data payload) :
    Carries c (fun r h => Handled c x r.1 h) (xferData x payload) h := by
  have placed (fits : x.isOpen = true → 4 ≤ payload.length → le32 payload 0 = x.received ∧
      le32 payload 0 + (payload.drop 4).length ≤ x.imageLen) : ¬Misplaced c x := by
    rintro ⟨other,data,opened,long,wrong⟩
    rw [call] at data
    cases data
    have known := fits opened long
    omega
  unfold xferData
  dsimp only
  split
  · rename_i closed
    exact entered.handled (placed fun opened => absurd closed (by simp [opened]))
  · rename_i opened
    have opened : x.isOpen = true := by simpa using opened
    rcases entered with ⟨closed,_⟩ | ⟨_,bounded,rfl⟩
    · exact notOpen closed opened
    split
    · exact Or.inr ⟨opened,bounded,rfl,placed fun _ _ => by omega⟩
    split
    · exact abortedHandled opened _
    rename_i exactly
    have exactly : le32 payload 0 = x.received := by simpa using exactly
    split
    · exact abortedHandled opened _
    rename_i fits
    have placed := placed fun _ _ => ⟨exactly,by omega⟩
    split
    · exact Or.inr ⟨opened,bounded,rfl,placed⟩
    · refine ⟨⟨rfl,x,payload,rfl,rfl,opened,rfl,rfl,by omega,call,exactly,rfl⟩,fun ok _ => ?_⟩
      cases ok with
      | false => exact abortedHandled opened _
      | true =>
        have same : ({ x with received := x.received + (payload.drop 4).length } : XferVars).digest = x.digest := rfl
        refine ⟨⟨x,rfl,fun _ => rfl,?_⟩,fun _ _ =>
          Or.inr ⟨opened,show x.received + _ ≤ x.imageLen by omega,?_,placed⟩⟩
        · rw [if_neg (fun opening => notOpen opening.2 opened)]
          exact same
        · show Held.mk _ _ _ _ _ _ (if x.isOpen = true then _ else _) = _
          rw [if_pos opened]
          rfl

/-- Before the reboot of a commit. -/
def Held.committed (found y : XferVars) : Held :=
  ⟨true,none,some y,some found,some y.imageLen,some y.digest,some y.digest⟩

def Ended (c : Call) (found y : XferVars) (reboot : Bool) (h : Held) : Prop :=
  (reboot = false ∧ Handled c found y h) ∨
    (reboot = true ∧ y.isOpen = false ∧ h = .committed found y)

theorem endHolds {x : XferVars} {payload : Bytes} {h : Held} (entered : Found x h)
    (call : c = .xferReq .ends payload) :
    Carries c (fun r h => Ended c x r.1 r.2.2 h) (xferEnd x payload) h := by
  have placed : ¬Misplaced c x := by
    rintro ⟨other,data,_⟩
    rw [call] at data
    exact nomatch data
  unfold xferEnd
  dsimp only
  split
  · exact Or.inl ⟨rfl,entered.handled placed⟩
  · rename_i opened
    have opened : x.isOpen = true := by simpa using opened
    rcases entered with ⟨closed,_⟩ | ⟨_,bounded,rfl⟩
    · exact notOpen closed opened
    have stays : Ended c x x false (.writing x x x.received) :=
      Or.inl ⟨rfl,Or.inr ⟨opened,bounded,rfl,placed⟩⟩
    have aborted (result : UInt8) : Carries c (fun r h => Ended c x r.1 r.2.2 h)
        (do let x ← xferAbortLocked x; pure (x,result,false)) (.writing x x x.received) :=
      keepsBind (abortHolds opened) fun _ _ closed => Or.inl ⟨rfl,Or.inl closed⟩
    split
    · exact stays
    split
    · exact stays
    split
    · exact aborted _
    split
    · exact aborted _
    rename_i complete
    have complete : x.received = x.imageLen := by simpa using complete
    refine ⟨⟨x,rfl,nofun,rfl⟩,fun _ _ => ⟨trivial,fun ended _ => ?_⟩⟩
    have released (result : UInt8) {verified : Option (Nat × Bytes)} :
        Carries c (fun r h => Ended c x r.1 r.2.2 h)
          (do let _ : Unit ← perform .release; pure ({ x with isOpen := false },result,false))
          ⟨true,none,some { x with isOpen := false },some x,some x.received,verified,some x.digest⟩ :=
      ⟨⟨rfl,fun z same => by cases same; rfl⟩,fun _ _ => Or.inl ⟨rfl,Or.inl ⟨rfl,rfl⟩⟩⟩
    cases ended with
    | validateFailed => exact released _
    | failed => exact released _
    | ok =>
      refine ⟨⟨rfl,rfl⟩,fun verified _ => ?_⟩
      cases verified with
      | false => exact released _
      | true =>
        refine ⟨⟨rfl,_,x,rfl,rfl,opened,complete,rfl,congrArg some complete,rfl,rfl⟩,fun set _ => ?_⟩
        cases set with
        | false => exact released _
        | true => exact Or.inr ⟨rfl,rfl,by rw [complete]; rfl⟩

theorem handleHolds {x : XferVars} {op : XferOp} {payload : Bytes} {h : Held} (entered : Found x h)
    (call : c = .xferReq op payload) :
    Carries c (fun r h => Ended c x r.1 r.2.2 h) (xferHandle x op payload) h := by
  cases op with
  | begin => exact keepsBind (beginHolds entered call) fun _ _ handled => Or.inl ⟨rfl,handled⟩
  | data => exact keepsBind (dataHolds entered call) fun _ _ handled => Or.inl ⟨rfl,handled⟩
  | ends => exact endHolds entered call
  | other =>
    refine Or.inl ⟨rfl,entered.handled ?_⟩
    rintro ⟨other,data,_⟩
    rw [call] at data
    exact nomatch data

theorem leftIdle {found y : XferVars} (closed : y.isOpen = false) : (Held.idle found y).left = .nothing := by
  simp [Held.left,Held.idle,closed,Held.nothing]

theorem leftWriting {found y : XferVars} {n : Nat} (opened : y.isOpen = true) :
    (Held.writing found y n).left = .nothing := by
  simp [Held.left,Held.writing,opened]

theorem leftClosed {h : Held} {y : XferVars} (here : h.xfer = some y) (closed : y.isOpen = false) :
    h.left = { h with xfer := none, found := none } := by
  unfold Held.left
  rw [here]
  exact if_neg (by simp [closed])

theorem unlocksHandled {found y : XferVars} {h : Held} (handled : Handled c found y h) :
    Carries c (fun _ h => h = .nothing) (perform .unlockXfer) h := by
  rcases handled with ⟨closed,rfl⟩ | ⟨opened,bounded,rfl,placed⟩
  · exact ⟨⟨rfl,y,found,rfl,rfl,notOpen closed,fun _ => closed,fun _ => nofun⟩,fun _ _ => leftIdle closed⟩
  · exact ⟨⟨rfl,y,found,rfl,rfl,fun _ => ⟨rfl,rfl,bounded,rfl⟩,fun wrong => absurd wrong placed,
      fun closed => notOpen closed opened⟩,
      fun _ _ => leftWriting opened⟩

/-- The end of `fw_ota_xfer_on_req`. -/
theorem closingHolds {found y : XferVars} {reboot : Bool} {h : Held} (result : UInt8)
    (ended : Ended c found y reboot h) :
    Carries c (fun _ h => h = .nothing) (do
      let now : Nat ← perform .readClock
      let _ : Unit ← perform (.storeXfer { y with lastUs := now })
      let _ : Unit ← perform .unlockXfer
      let _ : Unit ← perform (.respond result)
      if reboot then
        let never : Empty ← perform .restart
        nomatch never
      else pure ()) h := by
  refine ⟨trivial,fun now _ => ?_⟩
  have same : ({ y with lastUs := now } : XferVars).digest = y.digest := rfl
  have stored : if ({ y with lastUs := now } : XferVars).isOpen = true ∧ y.isOpen = false then
      asked c = some ({ y with lastUs := now } : XferVars).digest
      else ({ y with lastUs := now } : XferVars).digest = y.digest := by
    rw [if_neg (fun opening => notOpen opening.2 opening.1)]
    exact same
  rcases ended with ⟨stays,⟨closed,same⟩ | ⟨opened,bounded,same,placed⟩⟩ | ⟨reboots,closed,same⟩
  · cases stays
    cases same
    have free : Held.left (after (.idle found y) (.storeXfer { y with lastUs := now }) ()) = .nothing := by
      simp [Held.left,after,Held.idle,closed,Held.nothing]
    exact ⟨⟨y,rfl,notOpen closed,stored⟩,fun _ _ =>
      ⟨⟨rfl,_,found,rfl,rfl,notOpen closed,fun _ => closed,fun _ => nofun⟩,fun _ _ => ⟨trivial,fun _ _ => free⟩⟩⟩
  · cases stays
    cases same
    have free : Held.left (after (.writing found y y.received) (.storeXfer { y with lastUs := now }) ()) =
        .nothing := by
      simp [Held.left,after,Held.writing,opened]
    exact ⟨⟨y,rfl,fun _ => rfl,stored⟩,fun _ _ =>
      ⟨⟨rfl,_,found,rfl,rfl,fun _ => ⟨rfl,rfl,bounded,if_pos opened⟩,fun wrong => absurd wrong placed,
        fun closed => notOpen closed opened⟩,
        fun _ _ => ⟨trivial,fun _ _ => free⟩⟩⟩
  · cases reboots
    cases same
    have kept : need c (Held.left (after (.committed found y) (.storeXfer { y with lastUs := now }) ())) .restart := by
      rw [leftClosed (y := { y with lastUs := now }) rfl closed]
      exact ⟨rfl,rfl,rfl,fun _ _ _ => ⟨y.imageLen,y.sha,rfl,rfl,if_neg (by simp [closed])⟩⟩
    exact ⟨⟨y,rfl,fun _ => rfl,stored⟩,fun _ _ =>
      ⟨⟨rfl,_,found,rfl,rfl,notOpen closed,fun _ => closed,fun _ _ => rfl⟩,
        fun _ _ => ⟨trivial,fun _ _ => ⟨kept,nofun⟩⟩⟩⟩

theorem onReqHolds (op : XferOp) (payload : Bytes) :
    Carries (.xferReq op payload) (fun _ h => h = .nothing) (fwOtaXferOnReq op payload) .nothing :=
  ⟨rfl,fun x bounded => keepsBind (c := xferHandle x op payload)
    (handleHolds (enteredFound bounded) rfl) fun r _ ended => closingHolds r.2.1 ended⟩

theorem tickHolds : Carries .xferTick (fun _ h => h = .nothing) fwOtaXferTick .nothing := by
  have placed (x : XferVars) : ¬Misplaced .xferTick x := fun wrong => nomatch wrong.choose_spec.1
  refine ⟨trivial,fun open_ _ => ?_⟩
  cases open_ with
  | false => exact rfl
  | true =>
    refine ⟨rfl,fun taken bounded => ?_⟩
    cases taken with
    | none => exact rfl
    | some x =>
      refine ⟨trivial,fun (now : Nat) _ => ?_⟩
      have entered := enteredFound bounded
      refine keepsIte (p := x.isOpen = true ∧ now > x.lastUs + fwXferIdleTimeoutUs) (fun idle => ?_)
        fun _ => unlocksHandled (entered.handled (placed x))
      rcases entered with ⟨closed,_⟩ | ⟨opened,_,same⟩
      · exact notOpen closed idle.1
      · show Carries _ _ _ (.entered x)
        rw [same]
        exact keepsBind (abortHolds opened) fun y h closed => unlocksHandled (Or.inl closed)

theorem bodyHolds (call : Call) : Carries call (fun _ h => h = .nothing) (body call) .nothing := by
  cases call with
  | request r => exact updateHolds r
  | xferReq op payload => exact onReqHolds op payload
  | xferTick => exact tickHolds
  | markUplinkHealthy => exact markUplinkHolds
  | rollbackTick => exact rollbackHolds
  | modemRecovery =>
    refine ⟨trivial,fun taken _ => ?_⟩
    cases taken with
    | true => exact ⟨trivial,fun _ _ => rfl⟩
    | false => exact rfl
  | finishModemRecovery => exact ⟨trivial,fun _ _ => rfl⟩

end Web3PiUps.FwOta
