import Mathlib.Algebra.Group.Nat.Defs
import Mathlib.Data.List.Basic
import Web3PiUps.WupsProtocol
import Web3PiUps.Lib.StepMachine

/-! The outbound sequence of `arkiv_writer.cpp` over the device's life: the window
reserved in NVS, the restore at boot, the device key of the `prov` partition, and
the factory reset of `backend_mode.c`, whose two halves a power loss can part. The
outcome of every NVS access comes with the operation. -/
namespace Web3PiUps.ArkivWriterSeq
open WupsProtocol StepMachine

abbrev seqReserveWindow : UInt64 := 1024
abbrev seqMax48 : UInt64 := 281474976710655

variable {Key : Type}

/-- `locked`: `s_seq_lock` exists. The key is `none` while the writer is not ready. -/
structure Writer (Key : Type) where
  locked : Bool
  seqNext : UInt64
  seqReserved : UInt64
  devPriv : Option Key
  deriving DecidableEq, Repr

def off : Writer Key := ⟨false,0,0,none⟩

structure Device (Key : Type) where
  ram : Writer Key
  outSeq : Option UInt64
  devPriv : Option Key
  resetting : Bool
  deriving DecidableEq, Repr

def fresh (devPriv : Option Key) : Device Key := ⟨off,none,devPriv,false⟩

/-- `unconfirmed`: the value reached the flash and the call still reported an error. -/
inductive Write where | committed | unconfirmed | lost deriving DecidableEq, Repr

def persistSeqReserved (write : Write) (outSeq : Option UInt64) (reserved : UInt64) : Option UInt64 × Bool :=
  match write with
  | .committed => (some reserved,true)
  | .unconfirmed => (some reserved,false)
  | .lost => (outSeq,false)

def issue (d : Device Key) : Device Key × UInt64 :=
  ({ d with ram := { d.ram with seqNext := d.ram.seqNext+1 } },d.ram.seqNext)

def arkivWriterNextSeq (write : Write) (d : Device Key) : Device Key × UInt64 :=
  if ¬ d.ram.locked then (d,0) else
  if d.ram.seqNext ≥ seqMax48-seqReserveWindow then (d,0) else
  if d.ram.seqNext ≥ d.ram.seqReserved then
    let nr := d.ram.seqNext+seqReserveWindow
    let (outSeq,persisted) := persistSeqReserved write d.outSeq nr
    let d := { d with outSeq }
    if ¬ persisted then (d,0) else issue { d with ram := { d.ram with seqReserved := nr } }
  else issue d

/-- Which of the writer's mutexes could be created. -/
inductive Locks where | none | noSeal | all deriving DecidableEq, Repr

def arkivWriterInit (locks : Locks) (seqReads keyReads : Bool) (d : Device Key) : Writer Key :=
  match locks with
  | .none => off
  | .noSeal => { off with locked := true }
  | .all =>
    let persisted := if seqReads then d.outSeq.getD 0 else 0
    ⟨true,persisted+1,persisted+1,if keyReads then d.devPriv else Option.none⟩

/-- `nvs_flash_init` of `app_main`; `aborted` stands for any abort before the writer starts. -/
inductive FlashInit where | fine | noFreePages | aborted deriving DecidableEq, Repr

def appMain (init : FlashInit) (locks : Locks) (seqReads keyReads : Bool) (d : Device Key) : Device Key :=
  let d := { d with resetting := false }
  match init with
  | .aborted => { d with ram := off }
  | .noFreePages =>
    let d := { d with outSeq := none }
    { d with ram := arkivWriterInit locks seqReads keyReads d }
  | .fine => { d with ram := arkivWriterInit locks seqReads keyReads d }

/-- What `prov` holds when `cmdauth_arkiv_regenerate_wallet` returns; a failure that
stored nothing is `none`. -/
def regenerateWallet (written : Option Key) (d : Device Key) : Device Key :=
  { d with devPriv := written.or d.devPriv }

/-- `factoryReset` rolls the wallet, `nvsErase` is its second half; the result of the
first is not looked at. -/
inductive Op (Key : Type) where
  | nextSeq (write : Write)
  | regenWallet (written : Option Key)
  | factoryReset (written : Option Key)
  | nvsErase (erased : Bool)
  | boot (init : FlashInit) (locks : Locks) (seqReads keyReads : Bool)

def step (d : Device Key) : Op Key → Device Key × Option UInt64
  | .nextSeq write =>
    let (d,v) := arkivWriterNextSeq write d
    (d,some v)
  | .regenWallet written => (regenerateWallet written d,none)
  | .factoryReset written => ({ regenerateWallet written d with resetting := true },none)
  | .nvsErase erased =>
    (if d.resetting ∧ erased then { d with outSeq := none } else d,none)
  | .boot init locks seqReads keyReads => (appMain init locks seqReads keyReads d,none)

/-- Scheme, type tag, epoch and the low 48 bits of the sequence number. -/
def packNonce (typeTag : UInt8) (epoch : UInt32) (seq : UInt64) : Bytes :=
  [0x03,typeTag,(epoch >>> 24).toUInt8,(epoch >>> 16).toUInt8,(epoch >>> 8).toUInt8,epoch.toUInt8,
    (seq >>> 40).toUInt8,(seq >>> 32).toUInt8,(seq >>> 24).toUInt8,(seq >>> 16).toUInt8,
    (seq >>> 8).toUInt8,seq.toUInt8]

section Runs
variable (key : Option Key) (ops : List (Op Key))

abbrev at_ (n : Nat) : Device Key := stateAt step (fresh key) ops n

/-- The call at `n` returned `v`, which the writer seals under the key `k` it runs with. -/
structure ReturnedAt (n : Nat) (k : Key) (v : UInt64) : Prop where
  answer : (outs step (fresh key) ops)[n]? = some (some v)
  running : (at_ key ops n).ram.devPriv = some k
  usable : v ≠ 0

structure NoncesUnique : Prop where
  once : ∀ m n k v, ReturnedAt key ops m k v → ReturnedAt key ops n k v → m = n
  below : ∀ (n : Nat) (v : UInt64), (outs step (fresh key) ops)[n]? = some (some v) → v.toNat < 2^48
  nonces : ∀ m n k v v' tag tag' epoch epoch', ReturnedAt key ops m k v → ReturnedAt key ops n k v' →
    packNonce tag epoch v = packNonce tag' epoch' v' → m = n

def Unused (n : Nat) (k : Key) : Prop := ∀ m < n, ∀ v, ¬ ReturnedAt key ops m k v

/-- A key is rolled to one not used before; the reservation is given up only under an unused key. -/
def ReservationKept (n : Nat) : Op Key → Prop
  | .nextSeq _ => True
  | .regenWallet written | .factoryReset written => ∀ k, written = some k → Unused key ops n k
  | .nvsErase erased => erased = true → ∀ k, (at_ key ops n).devPriv = some k → Unused key ops n k
  | .boot init locks seqReads _ =>
    init = .noFreePages ∨ init = .fine ∧ (locks = .noSeal ∨ locks = .all ∧ seqReads = false) →
      ∀ k, (at_ key ops n).devPriv = some k → Unused key ops n k

end Runs
theorem nextSeqCases (write : Write) (d : Device Key) :
    (∃ outSeq, arkivWriterNextSeq write d = ({ d with outSeq },0) ∧
      (outSeq = d.outSeq ∨ outSeq = some (d.ram.seqNext+seqReserveWindow) ∧ d.ram.locked = true ∧
        d.ram.seqReserved ≤ d.ram.seqNext ∧ d.ram.seqNext < seqMax48-seqReserveWindow)) ∨
    d.ram.seqNext < seqMax48-seqReserveWindow ∧ d.ram.locked = true ∧
      (d.ram.seqReserved ≤ d.ram.seqNext ∧
        arkivWriterNextSeq write d = issue { d with
          outSeq := some (d.ram.seqNext+seqReserveWindow)
          ram := { d.ram with seqReserved := d.ram.seqNext+seqReserveWindow } } ∨
      d.ram.seqNext < d.ram.seqReserved ∧ arkivWriterNextSeq write d = issue d) := by
  unfold arkivWriterNextSeq
  by_cases unlocked : ¬ d.ram.locked = true
  · rw [if_pos unlocked]; exact Or.inl ⟨d.outSeq,rfl,Or.inl rfl⟩
  rw [if_neg unlocked]
  have locked := not_not.mp unlocked
  by_cases high : d.ram.seqNext ≥ seqMax48-seqReserveWindow
  · rw [if_pos high]; exact Or.inl ⟨d.outSeq,rfl,Or.inl rfl⟩
  rw [if_neg high]
  have low := UInt64.not_le.mp high
  by_cases spent : d.ram.seqNext ≥ d.ram.seqReserved
  · rw [if_pos spent]
    cases write with
    | committed => exact Or.inr ⟨low,locked,Or.inl ⟨spent,rfl⟩⟩
    | unconfirmed => exact Or.inl ⟨_,rfl,Or.inr ⟨rfl,locked,spent,low⟩⟩
    | lost => exact Or.inl ⟨_,rfl,Or.inl rfl⟩
  · rw [if_neg spent]
    exact Or.inr ⟨low,locked,Or.inr ⟨UInt64.not_le.mp spent,rfl⟩⟩

theorem windowTop {next : UInt64} (low : next < seqMax48-seqReserveWindow) :
    next.toNat < 281474976709631 ∧ (next+seqReserveWindow).toNat = next.toNat+1024 ∧
      (next+1).toNat = next.toNat+1 := by
  have bound : next.toNat < 281474976709631 := UInt64.lt_iff_toNat_lt.mp low
  refine ⟨bound,?_,?_⟩
  · rw [UInt64.toNat_add]
    exact Nat.mod_eq_of_lt (by have : seqReserveWindow.toNat = 1024 := rfl; omega)
  · rw [UInt64.toNat_add]
    exact Nat.mod_eq_of_lt (by have : (1 : UInt64).toNat = 1 := rfl; omega)

/-! What was returned under the stored key lies below the stored reservation, and
what was returned under the running key lies below the position. -/

section Kept
variable {key : Option Key} {ops : List (Op Key)}

structure Kept (used : Key → UInt64 → Prop) (d : Device Key) : Prop where
  flash : ∀ r, d.outSeq = some r → r.toNat < 2^48
  stored : ∀ k v, used k v → d.devPriv = some k → ∃ r, d.outSeq = some r ∧ v < r
  ceiling : ∀ k v, used k v → d.devPriv = some k → d.ram.locked = true → ∀ r, d.outSeq = some r →
    r.toNat ≤ d.ram.seqNext.toNat+1024
  position : ∀ k v, used k v → d.ram.devPriv = some k → v < d.ram.seqNext
  positive : ∀ k, d.ram.devPriv = some k → d.ram.seqNext ≠ 0
  window : ∀ k, d.ram.devPriv = some k → d.ram.seqNext < d.ram.seqReserved →
    (∃ v, used k v) ∧ (d.devPriv = some k → ∃ r, d.outSeq = some r ∧ d.ram.seqReserved ≤ r)

theorem keptFresh (key : Option Key) {used : Key → UInt64 → Prop} (none : ∀ k v, ¬ used k v) :
    Kept used (fresh key) where
  flash _ bad := nomatch bad
  stored k v mine := absurd mine (none k v)
  ceiling k v mine := absurd mine (none k v)
  position k v mine := absurd mine (none k v)
  positive _ bad := nomatch bad
  window _ bad := nomatch bad

/-- A rolled or erased device: nothing was returned under the key now stored. -/
theorem keptUnused {used : Key → UInt64 → Prop} {d : Device Key} (kept : Kept used d)
    (devPriv : Option Key) (outSeq : Option UInt64) (resetting : Bool)
    (flash : ∀ r, outSeq = some r → r.toNat < 2^48) (unused : ∀ k, devPriv = some k → ∀ v, ¬ used k v) :
    Kept used { d with devPriv, outSeq, resetting } where
  flash := flash
  stored k v mine here := absurd mine (unused k here v)
  ceiling k v mine here := absurd mine (unused k here v)
  position := kept.position
  positive := kept.positive
  window k running inside := by
    have seen := (kept.window k running inside).1
    exact ⟨seen,fun here => seen.elim fun v mine => absurd mine (unused k here v)⟩

theorem keptRefused {used : Key → UInt64 → Prop} {d : Device Key} (kept : Kept used d)
    (locked : d.ram.locked = true) (spent : d.ram.seqReserved ≤ d.ram.seqNext)
    (low : d.ram.seqNext < seqMax48-seqReserveWindow) :
    Kept used { d with outSeq := some (d.ram.seqNext+seqReserveWindow) } := by
  obtain ⟨bound,top,-⟩ := windowTop low
  refine ⟨?_,?_,?_,kept.position,kept.positive,?_⟩
  · intro r here
    rw [← Option.some.inj here,top]
    omega
  · intro k v mine here
    obtain ⟨r,old,less⟩ := kept.stored k v mine here
    have ceiling := kept.ceiling k v mine here locked r old
    refine ⟨_,rfl,UInt64.lt_iff_toNat_lt.mpr ?_⟩
    rw [top]
    exact Nat.lt_of_lt_of_le (UInt64.lt_iff_toNat_lt.mp less) ceiling
  · intro k v _ _ _ r here
    rw [← Option.some.inj here,top]
  · intro k _ inside
    exact absurd inside (UInt64.not_lt.mpr spent)

/-- The next value is given out, below a reservation the flash holds. -/
theorem keptIssued {used used' : Key → UInt64 → Prop} {d : Device Key} (kept : Kept used d) (seqReserved : UInt64)
    (grown : ∀ k v, used' k v ↔ used k v ∨ d.ram.devPriv = some k ∧ v = d.ram.seqNext)
    (low : d.ram.seqNext < seqMax48-seqReserveWindow)
    (below : ∀ k, d.ram.devPriv = some k → d.devPriv = some k →
      ∃ r, d.outSeq = some r ∧ d.ram.seqNext < r ∧ seqReserved ≤ r ∧ r.toNat ≤ d.ram.seqNext.toNat+1024) :
    Kept used' (issue { d with ram := { d.ram with seqReserved } }).1 := by
  obtain ⟨bound,-,next⟩ := windowTop low
  refine ⟨kept.flash,?_,?_,?_,?_,?_⟩
  · intro k v mine here
    rcases (grown k v).mp mine with old | ⟨running,rfl⟩
    · exact kept.stored k v old here
    · obtain ⟨r,stored,less,-,-⟩ := below k running here
      exact ⟨r,stored,less⟩
  · intro k v mine here locked r stored
    change r.toNat ≤ (d.ram.seqNext+1).toNat+1024
    rw [next]
    rcases (grown k v).mp mine with old | ⟨running,-⟩
    · exact Nat.le_trans (kept.ceiling k v old here locked r stored) (by omega)
    · obtain ⟨r',stored',-,-,near⟩ := below k running here
      rw [Option.some.inj (stored.symm.trans stored')]
      omega
  · intro k v mine running
    refine UInt64.lt_iff_toNat_lt.mpr ?_
    change v.toNat < (d.ram.seqNext+1).toNat
    rw [next]
    rcases (grown k v).mp mine with old | ⟨-,rfl⟩
    · have less := UInt64.lt_iff_toNat_lt.mp (kept.position k v old running)
      omega
    · exact Nat.lt_succ_self _
  · intro k _ zero
    have wrapped : (d.ram.seqNext+1).toNat = 0 := congrArg UInt64.toNat zero
    omega
  · intro k running _
    refine ⟨⟨d.ram.seqNext,(grown k _).mpr (Or.inr ⟨running,rfl⟩)⟩,fun here => ?_⟩
    obtain ⟨r,stored,-,reserved,-⟩ := below k running here
    exact ⟨r,stored,reserved⟩

/-- The key stored at boot is the one the writer then runs with, if any. -/
theorem keptInit {used : Key → UInt64 → Prop} {d : Device Key} (kept : Kept used d)
    (locks : Locks) (seqReads keyReads : Bool)
    (unused : locks = .noSeal ∨ locks = .all ∧ seqReads = false → ∀ k, d.devPriv = some k → ∀ v, ¬ used k v) :
    Kept used { d with ram := arkivWriterInit locks seqReads keyReads d } := by
  have down : ∀ locked, (locked = true → ∀ k, d.devPriv = some k → ∀ v, ¬ used k v) →
      Kept used { d with ram := { off with locked } } := fun locked clean =>
    ⟨kept.flash,kept.stored,fun k v mine here up => absurd mine (clean up k here v),
      fun _ _ _ bad => (nomatch bad),fun _ bad => (nomatch bad),fun _ bad => (nomatch bad)⟩
  cases locks with
  | none => exact down false (fun bad => absurd bad Bool.false_ne_true)
  | noSeal => exact down true (fun _ => unused (Or.inl rfl))
  | all =>
    have same : ∀ k, (if keyReads then d.devPriv else none) = some k → d.devPriv = some k := by
      intro k here
      cases keyReads with
      | true => exact here
      | false => cases here
    have low : (if seqReads then d.outSeq.getD 0 else 0).toNat < 2^48 := by
      cases seqReads with
      | false => exact (by decide : (0 : UInt64).toNat < 2^48)
      | true =>
        cases here : d.outSeq with
        | none => exact (by decide : (0 : UInt64).toNat < 2^48)
        | some r => exact kept.flash r here
    have next : ((if seqReads then d.outSeq.getD 0 else 0)+1).toNat =
        (if seqReads then d.outSeq.getD 0 else 0).toNat+1 := by
      rw [UInt64.toNat_add]
      exact Nat.mod_eq_of_lt (by have : (1 : UInt64).toNat = 1 := rfl; omega)
    have restored : ∀ k v, used k v → d.devPriv = some k →
        ∃ r, d.outSeq = some r ∧ v < r ∧ (if seqReads then d.outSeq.getD 0 else 0) = r := by
      intro k v mine here
      obtain ⟨r,stored,less⟩ := kept.stored k v mine here
      cases seqReads with
      | false => exact absurd mine (unused (Or.inr ⟨rfl,rfl⟩) k here v)
      | true => exact ⟨r,stored,less,by rw [stored]; rfl⟩
    refine ⟨kept.flash,kept.stored,?_,?_,?_,?_⟩
    · intro k v mine here _ r stored
      obtain ⟨r',stored',-,read⟩ := restored k v mine here
      change r.toNat ≤ ((if seqReads then d.outSeq.getD 0 else 0)+1).toNat+1024
      rw [next,read,Option.some.inj (stored.symm.trans stored')]
      omega
    · intro k v mine running
      obtain ⟨r,-,less,read⟩ := restored k v mine (same k running)
      refine UInt64.lt_iff_toNat_lt.mpr ?_
      change v.toNat < ((if seqReads then d.outSeq.getD 0 else 0)+1).toNat
      rw [next,read]
      have := UInt64.lt_iff_toNat_lt.mp less
      omega
    · intro k _ zero
      have wrapped : ((if seqReads then d.outSeq.getD 0 else 0)+1).toNat = 0 := congrArg UInt64.toNat zero
      omega
    · intro k _ inside
      exact absurd inside (UInt64.lt_irrefl _)

abbrev UsedAt (key : Option Key) (ops : List (Op Key)) (n : Nat) (k : Key) (v : UInt64) : Prop :=
  ∃ m < n, ReturnedAt key ops m k v

theorem usedNext {n : Nat} {op : Op Key} (here : ops[n]? = some op) (k : Key) (v : UInt64) :
    UsedAt key ops (n+1) k v ↔ UsedAt key ops n k v ∨
      (at_ key ops n).ram.devPriv = some k ∧ v ≠ 0 ∧ (step (at_ key ops n) op).2 = some v := by
  have answer : (outs step (fresh key) ops)[n]? = some (step (at_ key ops n) op).2 := by
    rw [outAt,here]
    rfl
  constructor
  · rintro ⟨m,before,mine⟩
    rcases Nat.lt_succ_iff_lt_or_eq.mp before with old | rfl
    · exact Or.inl ⟨m,old,mine⟩
    · exact Or.inr ⟨mine.running,mine.usable,Option.some.inj (answer.symm.trans mine.answer)⟩
  · rintro (⟨m,before,mine⟩ | ⟨running,usable,out⟩)
    · exact ⟨m,Nat.lt_succ_of_lt before,mine⟩
    · exact ⟨n,Nat.lt_succ_self n,⟨by rw [answer,out],running,usable⟩⟩

theorem usedQuiet {n : Nat} {op : Op Key} (here : ops[n]? = some op)
    (quiet : ∀ v ≠ 0, (step (at_ key ops n) op).2 ≠ some v) : UsedAt key ops (n+1) = UsedAt key ops n := by
  funext k v
  refine propext ((usedNext here k v).trans ⟨?_,Or.inl⟩)
  rintro (old | ⟨-,usable,out⟩)
  · exact old
  · exact absurd out (quiet v usable)

theorem unusedUsed {n : Nat} {k : Key} (unused : Unused key ops n k) (v : UInt64) : ¬ UsedAt key ops n k v := by
  rintro ⟨m,before,mine⟩
  exact unused m before v mine

theorem keptNextSeq {n : Nat} {write : Write} (here : ops[n]? = some (.nextSeq write))
    (kept : Kept (UsedAt key ops n) (at_ key ops n)) : Kept (UsedAt key ops (n+1)) (at_ key ops (n+1)) := by
  have next : at_ key ops (n+1) = (step (at_ key ops n) (.nextSeq write)).1 := stateNext step (fresh key) here
  have issued : (step (at_ key ops n) (.nextSeq write)).2 = some (at_ key ops n).ram.seqNext → ∀ k v,
      UsedAt key ops (n+1) k v ↔
        UsedAt key ops n k v ∨ (at_ key ops n).ram.devPriv = some k ∧ v = (at_ key ops n).ram.seqNext := by
    intro out k v
    rw [usedNext here,out]
    refine or_congr_right (and_congr_right fun running => ⟨fun ⟨_,same⟩ => (Option.some.inj same).symm,?_⟩)
    rintro rfl
    exact ⟨kept.positive k running,rfl⟩
  rw [next]
  rcases nextSeqCases write (at_ key ops n) with ⟨outSeq,refused,stored⟩ | ⟨low,locked,⟨spent,extended⟩ | ⟨inside,given⟩⟩
  · have quiet : ∀ v ≠ 0, (step (at_ key ops n) (.nextSeq write)).2 ≠ some v := by
      intro v usable
      simp only [step,refused]
      exact fun zero => usable (Option.some.inj zero).symm
    rw [usedQuiet here quiet]
    simp only [step,refused]
    rcases stored with same | ⟨reserved,locked,spent,low⟩
    · rw [same]; exact kept
    · rw [reserved]; exact keptRefused kept locked spent low
  · have out : (step (at_ key ops n) (.nextSeq write)).2 = some (at_ key ops n).ram.seqNext := by
      simp only [step,extended]; rfl
    obtain ⟨bound,top,-⟩ := windowTop low
    simp only [step,extended]
    refine keptIssued (keptRefused kept locked spent low) _ (issued out) low (fun k _ _ => ?_)
    refine ⟨_,rfl,UInt64.lt_iff_toNat_lt.mpr ?_,UInt64.le_refl _,Nat.le_of_eq top⟩
    rw [top]
    exact Nat.lt_add_of_pos_right (by decide)
  · have out : (step (at_ key ops n) (.nextSeq write)).2 = some (at_ key ops n).ram.seqNext := by
      simp only [step,given]; rfl
    simp only [step,given]
    refine keptIssued kept _ (issued out) low (fun k running same => ?_)
    obtain ⟨⟨v,mine⟩,held⟩ := kept.window k running inside
    obtain ⟨r,stored,reserved⟩ := held same
    exact ⟨r,stored,UInt64.lt_of_lt_of_le inside reserved,reserved,kept.ceiling k v mine same locked r stored⟩

theorem keptNext {n : Nat} {op : Op Key} (here : ops[n]? = some op) (condition : ReservationKept key ops n op)
    (kept : Kept (UsedAt key ops n) (at_ key ops n)) : Kept (UsedAt key ops (n+1)) (at_ key ops (n+1)) := by
  have next : at_ key ops (n+1) = (step (at_ key ops n) op).1 := stateNext step (fresh key) here
  have rolled : ∀ written resetting, (∀ k, written = some k → Unused key ops n k) →
      Kept (UsedAt key ops n) { regenerateWallet written (at_ key ops n) with resetting } := by
    intro written resetting unused
    cases written with
    | none => exact ⟨kept.flash,kept.stored,kept.ceiling,kept.position,kept.positive,kept.window⟩
    | some k =>
      exact keptUnused kept (some k) _ resetting kept.flash
        (fun k' same v => unusedUsed (unused k' same) v)
  cases op with
  | nextSeq write => exact keptNextSeq here kept
  | regenWallet written =>
    rw [next,usedQuiet here (fun _ _ bad => nomatch bad)]
    exact rolled written _ condition
  | factoryReset written =>
    rw [next,usedQuiet here (fun _ _ bad => nomatch bad)]
    exact rolled written _ condition
  | nvsErase erased =>
    rw [next,usedQuiet here (fun _ _ bad => nomatch bad)]
    dsimp only [step]
    by_cases erases : (at_ key ops n).resetting = true ∧ erased = true
    · rw [if_pos erases]
      exact keptUnused kept _ none _ (fun _ bad => nomatch bad)
        (fun k same v => unusedUsed (condition erases.2 k same) v)
    · rw [if_neg erases]; exact kept
  | boot init locks seqReads keyReads =>
    rw [next,usedQuiet here (fun _ _ bad => nomatch bad)]
    dsimp only [step,appMain]
    have down : Kept (UsedAt key ops n) { at_ key ops n with resetting := false } :=
      ⟨kept.flash,kept.stored,kept.ceiling,kept.position,kept.positive,kept.window⟩
    cases init with
    | aborted =>
      exact ⟨kept.flash,kept.stored,fun _ _ _ _ bad => (nomatch bad),fun _ _ _ bad => (nomatch bad),
        fun _ bad => (nomatch bad),fun _ bad => (nomatch bad)⟩
    | noFreePages =>
      have unused : ∀ k, (at_ key ops n).devPriv = some k → ∀ v, ¬ UsedAt key ops n k v :=
        fun k same v => unusedUsed (condition (Or.inl rfl) k same) v
      have erased := keptUnused kept _ none false (fun _ bad => nomatch bad) unused
      exact keptInit erased locks seqReads keyReads (fun _ => unused)
    | fine =>
      exact keptInit down locks seqReads keyReads
        (fun lossy k same v => unusedUsed (condition (Or.inr ⟨rfl,lossy⟩) k same) v)

variable (condition : ∀ n op, ops[n]? = some op → ReservationKept key ops n op)
include condition

theorem keptAt (n : Nat) : Kept (UsedAt key ops n) (at_ key ops n) := by
  induction n with
  | zero => exact keptFresh key (fun _ _ ⟨m,before,_⟩ => Nat.not_lt_zero m before)
  | succ n ih =>
    cases here : ops[n]? with
    | some op => exact keptNext here (condition n op here) ih
    | none =>
      have same : at_ key ops (n+1) = at_ key ops n := stateEnd step (fresh key) here
      have silent : UsedAt key ops (n+1) = UsedAt key ops n := by
        funext k v
        refine propext ⟨fun ⟨m,before,mine⟩ => ?_,fun ⟨m,before,mine⟩ => ⟨m,Nat.lt_succ_of_lt before,mine⟩⟩
        rcases Nat.lt_succ_iff_lt_or_eq.mp before with old | rfl
        · exact ⟨m,old,mine⟩
        · have answer := mine.answer
          rw [outAt,here] at answer
          cases answer
      rw [same,silent]
      exact ih

end Kept

/-! The nonce tells the sequence numbers below 2^48 apart. -/

theorem byteAt (v : UInt64) (k : Nat) (small : k < 64) :
    ((v >>> UInt64.ofNat k).toUInt8).toNat = v.toNat/2^k % 256 := by
  have size : (UInt64.ofNat k).toNat = k := by
    rw [UInt64.toNat_ofNat']
    omega
  rw [UInt64.toNat_toUInt8,UInt64.toNat_shiftRight,size,Nat.mod_eq_of_lt small,Nat.shiftRight_eq_div_pow]

theorem packNonceSeq {tag tag' : UInt8} {epoch epoch' : UInt32} {v v' : UInt64} (low : v.toNat < 2^48)
    (low' : v'.toNat < 2^48) (same : packNonce tag epoch v = packNonce tag' epoch' v') : v = v' := by
  simp only [packNonce,List.cons.injEq] at same
  obtain ⟨-,-,-,-,-,-,h40,h32,h24,h16,h8,h0,-⟩ := same
  have b40 : v.toNat/2^40 % 256 = v'.toNat/2^40 % 256 := by
    rw [← byteAt v 40 (by decide),← byteAt v' 40 (by decide)]; exact congrArg UInt8.toNat h40
  have b32 : v.toNat/2^32 % 256 = v'.toNat/2^32 % 256 := by
    rw [← byteAt v 32 (by decide),← byteAt v' 32 (by decide)]; exact congrArg UInt8.toNat h32
  have b24 : v.toNat/2^24 % 256 = v'.toNat/2^24 % 256 := by
    rw [← byteAt v 24 (by decide),← byteAt v' 24 (by decide)]; exact congrArg UInt8.toNat h24
  have b16 : v.toNat/2^16 % 256 = v'.toNat/2^16 % 256 := by
    rw [← byteAt v 16 (by decide),← byteAt v' 16 (by decide)]; exact congrArg UInt8.toNat h16
  have b8 : v.toNat/2^8 % 256 = v'.toNat/2^8 % 256 := by
    rw [← byteAt v 8 (by decide),← byteAt v' 8 (by decide)]; exact congrArg UInt8.toNat h8
  have b0 : v.toNat % 256 = v'.toNat % 256 := by
    rw [← UInt64.toNat_toUInt8,← UInt64.toNat_toUInt8]; exact congrArg UInt8.toNat h0
  exact UInt64.toNat_inj.mp (by omega)

/-! A call gives out the position, so what is returned rises. -/

section Unique
variable {key : Option Key} {ops : List (Op Key)}

theorem returnedPosition {n : Nat} {v : UInt64} (answer : (outs step (fresh key) ops)[n]? = some (some v)) :
    v = 0 ∨ v = (at_ key ops n).ram.seqNext ∧ v.toNat < 2^48 := by
  cases here : ops[n]? with
  | none => rw [outAt,here] at answer; cases answer
  | some op =>
    have out : some v = (step (at_ key ops n) op).2 := outStep step (fresh key) here answer
    cases op with
    | nextSeq write =>
      rcases nextSeqCases write (at_ key ops n) with ⟨outSeq,refused,-⟩ | ⟨low,-,⟨-,extended⟩ | ⟨-,given⟩⟩
      · simp only [step,refused] at out
        exact Or.inl (Option.some.inj out)
      · simp only [step,extended] at out
        have position : v = (at_ key ops n).ram.seqNext := Option.some.inj out
        exact Or.inr ⟨position,by rw [position]; have := (windowTop low).1; omega⟩
      · simp only [step,given] at out
        have position : v = (at_ key ops n).ram.seqNext := Option.some.inj out
        exact Or.inr ⟨position,by rw [position]; have := (windowTop low).1; omega⟩
    | regenWallet written => cases out
    | factoryReset written => cases out
    | nvsErase erased => cases out
    | boot init locks seqReads keyReads => cases out

theorem returnedBelow {n : Nat} {v : UInt64} (answer : (outs step (fresh key) ops)[n]? = some (some v)) :
    v.toNat < 2^48 := by
  rcases returnedPosition answer with zero | ⟨-,low⟩
  · rw [zero]; decide
  · exact low

theorem returnedRises (condition : ∀ n op, ops[n]? = some op → ReservationKept key ops n op) {m n : Nat} {k : Key}
    {v v' : UInt64} (before : m < n) (first : ReturnedAt key ops m k v) (second : ReturnedAt key ops n k v') :
    v < v' := by
  have below := (keptAt condition n).position k v ⟨m,before,first⟩ second.running
  rcases returnedPosition second.answer with zero | ⟨position,-⟩
  · exact absurd zero second.usable
  · rw [position]; exact below

end Unique

theorem noncesUniqueWhenKept (key : Option Key) (ops : List (Op Key))
    (condition : ∀ n op, ops[n]? = some op → ReservationKept key ops n op) : NoncesUnique key ops := by
  have once : ∀ m n k v, ReturnedAt key ops m k v → ReturnedAt key ops n k v → m = n := by
    intro m n k v first second
    rcases Nat.lt_trichotomy m n with before | equal | after
    · exact absurd (returnedRises condition before first second) (UInt64.lt_irrefl v)
    · exact equal
    · exact absurd (returnedRises condition after second first) (UInt64.lt_irrefl v)
  refine ⟨once,fun n v answer => returnedBelow answer,?_⟩
  intro m n k v v' tag tag' epoch epoch' first second same
  have equal := packNonceSeq (returnedBelow first.answer) (returnedBelow second.answer) same
  exact once m n k v first (equal ▸ second)

/-! A factory reset that fails to roll the wallet starts the sequence over. -/

def boot : Op Nat := .boot .fine .all true true

def unrolledRun : List (Op Nat) :=
  [boot,.nextSeq .committed,.factoryReset none,.nvsErase true,boot,.nextSeq .committed]

theorem sequenceRestarts : ¬ NoncesUnique (some 7) unrolledRun := by
  intro unique
  have first : ReturnedAt (some 7) unrolledRun 1 7 1 := ⟨by decide,by decide,by decide⟩
  have second : ReturnedAt (some 7) unrolledRun 5 7 1 := ⟨by decide,by decide,by decide⟩
  have equal := unique.once 1 5 7 1 first second
  contradiction

def rolledRun : List (Op Nat) :=
  [boot,.nextSeq .committed,boot,.nextSeq .lost,.nextSeq .committed,.factoryReset (some 8),.nvsErase true,
    boot,.nextSeq .committed,.nextSeq .committed]

theorem rolledUnique :
    outs step (fresh (some 7)) rolledRun =
      [none,some 1,none,some 0,some 1026,none,none,none,some 1,some 2] ∧
    NoncesUnique (some 7) rolledRun := by
  refine ⟨by decide,noncesUniqueWhenKept _ _ ?_⟩
  have seven : ∀ m < 8, ∀ k v, ReturnedAt (some 7) rolledRun m k v → k = 7 := by
    have running : ∀ m < 8, ∀ k, (at_ (some 7) rolledRun m).ram.devPriv = some k → k = 7 := by
      intro m before
      match m with
      | 0 => exact fun _ bad => nomatch bad
      | 1 | 2 | 3 | 4 | 5 | 6 | 7 => exact fun k same => (Option.some.inj same).symm
      | m+8 => omega
    exact fun m before k v mine => running m before k mine.running
  have unused : ∀ n ≤ 8, ∀ k, some 8 = some k → Unused (some 7) rolledRun n k := by
    intro n early k same m before v mine
    have old := seven m (by omega) k v mine
    have new := Option.some.inj same
    omega
  intro n op here
  match n with
  | 0 | 1 | 2 | 3 | 4 | 7 | 8 | 9 =>
    cases here
    simp [ReservationKept,boot]
  | 5 => cases here; exact unused 5 (by decide)
  | 6 => cases here; exact fun _ => unused 6 (by decide)
  | n+10 => exact absurd here (by simp [rolledRun])

end Web3PiUps.ArkivWriterSeq
