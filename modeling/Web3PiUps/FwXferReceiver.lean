import Web3PiUps.FwOtaExclusion

/-! The fw_xfer receiver of the ESP32 among the other tasks of `fw_ota.c`: an open transfer
is its contiguous bytes and its claim, and only a read-back that matches its BEGIN boots. -/
namespace Web3PiUps.FwOta
open Tasks Code WupsProtocol
open FwUpdate (le32)

/-- Claims taken and given back since the task took the lock. -/
def tally (trace : Trace Ans) : Nat × Nat :=
  trace.foldl (fun n did =>
    match did with
    | ⟨.lockXfer,_⟩ => (0,0)
    | ⟨.tryLockXfer,some _⟩ => (0,0)
    | ⟨.claim,true⟩ => (n.1+1,n.2)
    | ⟨.release,_⟩ => (n.1,n.2+1)
    | _ => n) (0,0)

theorem tallyNext (trace : Trace Ans) (a : Act) (r : Ans a) : tally (trace ++ [⟨a,r⟩]) =
    match (⟨a,r⟩ : (a : Act) × Ans a) with
    | ⟨.lockXfer,_⟩ => (0,0)
    | ⟨.tryLockXfer,some _⟩ => (0,0)
    | ⟨.claim,true⟩ => ((tally trace).1+1,(tally trace).2)
    | ⟨.release,_⟩ => ((tally trace).1,(tally trace).2+1)
    | _ => tally trace := by
  unfold tally
  rw [List.foldl_append]
  rfl

def Balanced (trace : Trace Ans) (h : Held) : Prop :=
  h.xfer.isSome = h.found.isSome ∧ ∀ found, h.found = some found →
    found.isOpen.toNat + (tally trace).1 = (tally trace).2 + h.claim.toNat

theorem enteredBalanced {trace : Trace Ans} {x : XferVars} (fresh : tally trace = (0,0)) :
    Balanced trace (.entered x) := by
  unfold Held.entered
  cases opened : x.isOpen with
  | false =>
    refine ⟨rfl,fun found same => ?_⟩
    cases same
    simp [fresh,opened,Held.idle]
  | true =>
    refine ⟨rfl,fun found same => ?_⟩
    cases same
    simp [fresh,opened,Held.writing]

theorem balanced {c : Call} {trace : Trace Ans} {h : Held} (reached : Reached (rules c) .nothing trace h) :
    Balanced trace h := by
  induction reached with
  | start => exact ⟨rfl,nofun⟩
  | @next trace h a r before needs known ih =>
    obtain ⟨locked,owed⟩ := ih
    have counts := tallyNext trace a r
    cases a with
    | claim =>
      cases r with
      | false => exact ⟨locked,fun found same => by rw [counts]; exact owed found same⟩
      | true =>
        refine ⟨locked,fun found same => ?_⟩
        have total := owed found same
        rw [show h.claim = false from known] at total
        rw [counts]
        show found.isOpen.toNat + ((tally trace).1+1) = (tally trace).2 + 1
        simp only [Bool.toNat_false] at total
        omega
    | release =>
      refine ⟨locked,fun found same => ?_⟩
      have total := owed found same
      rw [needs.1] at total
      rw [counts]
      show found.isOpen.toNat + (tally trace).1 = (tally trace).2 + 1 + 0
      simp only [Bool.toNat_true] at total
      omega
    | lockXfer => exact enteredBalanced counts
    | tryLockXfer =>
      cases r with
      | none => exact ⟨locked,fun found same => by rw [counts]; exact owed found same⟩
      | some x => exact enteredBalanced counts
    | unlockXfer =>
      obtain ⟨_,x,found,holds,_⟩ := needs
      have gone : h.left.xfer = none ∧ h.left.found = none := by
        unfold Held.left
        rw [holds]
        dsimp only
        split <;> exact ⟨rfl,rfl⟩
      show h.left.xfer.isSome = h.left.found.isSome ∧ _
      refine ⟨by rw [gone.1,gone.2],fun found same => ?_⟩
      exact absurd (gone.2.symm.trans same) nofun
    | storeXfer x =>
      obtain ⟨y,holds,_⟩ := needs
      have found : h.found.isSome = true := by rw [← locked,holds]; rfl
      exact ⟨found.symm,fun found same => by rw [counts]; exact owed found same⟩
    | confirmEnter _ | otaBegin | otaWrite _ | verifyWrittenImage _ _ | rollbackEnter =>
      cases r <;> exact ⟨locked,fun found same => by rw [counts]; exact owed found same⟩
    | restart => exact nomatch r
    | _ => exact ⟨locked,fun found same => by rw [counts]; exact owed found same⟩

structure Receiving (hash : Bytes → Bytes) (w : Device) : Prop where
  openClaimed : w.shared.xfer.isOpen = true → w.shared.claims.inProgress = true
  openAlone : w.shared.xfer.isOpen = true → w.shared.locked = false → ∀ t ∈ w.tasks, t.held.claim = false
  received : w.shared.xfer.isOpen = true → w.shared.locked = false →
    Written w.shared w.shared.xfer.received ∧ w.shared.xfer.received ≤ w.shared.xfer.imageLen
  digest : w.shared.xfer.isOpen = true → lastOpened w.shared.log = some w.shared.xfer.digest
  opens : ∀ t ∈ w.tasks, ∀ x k, t.code = .act (.storeXfer x) k → x.isOpen = true →
    w.shared.xfer.isOpen = false → ∃ payload, t.call = .xferReq .begin payload ∧
      x.digest = (le32 payload 4,(payload.drop 8).take 32)
  writes : ∀ t ∈ w.tasks, ∀ chunk k, t.code = .act (.otaWrite chunk) k →
    ∃ payload, t.call = .xferReq .data payload ∧ chunk = payload.drop 4 ∧
      w.shared.xfer.isOpen = true ∧ w.shared.claims.inProgress = true ∧
      le32 payload 0 = w.shared.xfer.received ∧ Written w.shared w.shared.xfer.received ∧
      w.shared.xfer.received + chunk.length ≤ w.shared.xfer.imageLen
  misplacedWritesNot : ∀ t ∈ w.tasks, ∀ found, t.held.found = some found → Misplaced t.call found →
    ∀ chunk k, t.code ≠ .act (.otaWrite chunk) k
  misplacedCloses : ∀ t ∈ w.tasks, ∀ found, t.held.found = some found → Misplaced t.call found →
    ∀ k, t.code = .act .unlockXfer k → w.shared.xfer.isOpen = false
  closes : ∀ t ∈ w.tasks, ∀ k, t.code = .act .unlockXfer k → ∃ found, t.held.found = some found ∧
    found.isOpen.toNat + (tally t.trace).1 = (tally t.trace).2 + t.held.claim.toNat ∧
    (w.shared.xfer.isOpen = true → t.held.claim = true) ∧
    (w.shared.xfer.isOpen = false → t.held.claim = true →
      hash (w.shared.image w.shared.xfer.imageLen) = w.shared.xfer.sha)
  finished : ∀ t ∈ w.tasks, ∀ x, t.code = .done x → t.held.claim = false
  releasesOwn : ∀ (i j : Nat) (t u : Task Ans Held Call), w.tasks[i]? = some t → w.tasks[j]? = some u →
    ∀ k, t.code = .act .release k → t.held.claim = true ∧ (i ≠ j → u.held.claim = false)
  boots : ∀ t ∈ w.tasks, ∀ k, t.code = .act .setBootPartition k →
    w.shared.claims.inProgress = true ∧ t.held.claim = true ∧
    ∃ found, t.held.found = some found ∧ found.isOpen = true ∧ found.received = found.imageLen ∧
      Written w.shared found.imageLen ∧ hash w.shared.written = found.sha ∧
      lastOpened w.shared.log = some found.digest
  reboots : ∀ t ∈ w.tasks, ∀ op payload k, t.call = .xferReq op payload → t.code = .act .restart k →
    w.shared.claims.inProgress = true ∧ t.held.claim = true ∧
    ∃ len sha, Written w.shared len ∧ hash w.shared.written = sha ∧ lastOpened w.shared.log = some (len,sha)

end Web3PiUps.FwOta
