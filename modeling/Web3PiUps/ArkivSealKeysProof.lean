import Web3PiUps.ArkivSealKeys
import Web3PiUps.ArkivTelemetryProof

/-! A payload is sealed under the binding of its moment, as if no key were ever kept. -/
namespace Web3PiUps.ArkivSealKeys
open WupsProtocol (Bytes ascii)
open ArkivAead (Gcm)
open CmdauthArkiv (checkCases accept cmdauthArkivCheck)
open CmdauthArkivLife (Device Keys Op cmdauthArkivInit cmdauthArkivBindOwner cmdauthArkivSetEpoch cold)
open StampedCache (Filled Reader Cache Apart look lookFresh leaveInv bootInv beginInv finishInv startInv takeInv)

variable {Key : Type} {c : Derivation Key} {env : Keys} {gcm : Gcm Key}

theorem wordsApart : Apart UInt32.ofNat (2^32) := by
  intro a b small small' same
  have values := congrArg UInt32.toNat same
  rwa [UInt32.toNat_ofNat_of_lt' small,UInt32.toNat_ofNat_of_lt' small'] at values

theorem genGrows (g : UInt32) : g+1 ≠ g := by
  intro same
  have shifted : 1+g-g = g-g := by rw [UInt32.add_comm,same]
  rw [UInt32.add_sub_cancel,UInt32.sub_self] at shifted
  exact absurd shifted (by decide)

theorem otherKeeps (d : Device) {op : Op} (inBoot : Op.inBoot op = true) (same : (after env d op).bindingGen = d.bindingGen) :
    fieldsOf (after env d op) = fieldsOf d ∧ bound (after env d op) = bound d := by
  cases op with
  | check cmd =>
    cases cmd with
    | none =>
      have none_ : cmdauthArkivCheck env.toEnv d.auth none = (d.auth,none) := by
        simp only [cmdauthArkivCheck,ite_self]
      have whole : after env d (.check none) = d := by simp only [after,CmdauthArkivLife.step,none_]
      rw [whole]
      exact ⟨rfl,rfl⟩
    | some cmd =>
      rcases checkCases env.toEnv d.auth cmd with ⟨refused,-⟩ | ⟨frame,-,accepted,-⟩
      · have whole : after env d (.check (some cmd)) = d := by simp only [after,CmdauthArkivLife.step,refused]
        rw [whole]
        exact ⟨rfl,rfl⟩
      · have whole : after env d (.check (some cmd)) = { d with auth := accept env.toEnv d.auth cmd } := by
          simp only [after,CmdauthArkivLife.step,accepted]
        rw [whole]
        exact ⟨rfl,rfl⟩
  | bindOwner ownerPub encPub epoch =>
    simp only [after,CmdauthArkivLife.step,cmdauthArkivBindOwner] at same ⊢
    split
    · exact ⟨rfl,rfl⟩
    · rename_i ready
      rw [if_neg ready] at same
      split
      · exact ⟨rfl,rfl⟩
      · rename_i valid
        rw [if_neg valid] at same
        exact absurd same (genGrows _)
  | setEpoch epoch =>
    simp only [after,CmdauthArkivLife.step,cmdauthArkivSetEpoch] at same ⊢
    split
    · exact ⟨rfl,rfl⟩
    · rename_i ready
      rw [if_neg ready] at same
      split
      · exact ⟨rfl,rfl⟩
      · rename_i valid
        rw [if_neg valid] at same
        exact absurd same (genGrows _)
  | clear => exact absurd same (genGrows _)
  | reboot => cases inBoot

theorem rebootGen (d : Device) (provisioned opens : Bool) : (after env d (.reboot provisioned opens)).bindingGen = 0 := by
  have init (d : Device) : (cmdauthArkivInit env provisioned opens d).1.bindingGen = d.bindingGen := by
    unfold cmdauthArkivInit
    cases provisioned with
    | false => rfl
    | true =>
      cases opens with
      | false => rfl
      | true =>
        simp only [not_true_eq_false,if_false]
        split
        · split <;> rfl
        · rfl
  exact init _

structure Held (c : Derivation Key) (w : Writer Key) : Prop where
  inv : StampedCache.Inv (derive c w.dev) UInt32.ofNat w.cache
  source : w.cache.source = fieldsOf w.life
  gen : w.life.bindingGen = UInt32.ofNat w.cache.count
  changing : w.cache.changing = w.changing.isSome
  owned : ∀ r, w.cache.reader = some r → r.disturbed = false → w.owned = bound w.life
  taken : ∀ r n, w.cache.reader = some r → r.counted = some n → w.gen = UInt32.ofNat n

/-- What a payload would be sealed under without a cache. -/
def bindingKeys (c : Derivation Key) (dev : DevKey) (d : Device) : Option (DirKeys Key) :=
  if bound d then (derive c dev (fieldsOf d)).toOption else none

theorem bootHeld {life : Device} (cleared : life.bindingGen = 0) (dev : DevKey) (seals : List (Seal Key)) :
    Held c (Writer.boot life dev seals) :=
  ⟨bootInv _,rfl,cleared,rfl,fun r there => (by cases there),fun r n there => (by cases there)⟩

theorem stepHeld {w w' : Writer Key} (held : Held c w) (next : Step c env gcm w w') : Held c w' := by
  cases next with
  | other inBoot same =>
    obtain ⟨fields,owned⟩ := otherKeeps w.life inBoot same
    exact ⟨held.inv,held.source.trans fields.symm,same.trans held.gen,held.changing,
      fun r there calm => (held.owned r there calm).trans owned.symm,held.taken⟩
  | begin_ =>
    refine ⟨beginInv held.inv,held.source,held.gen,rfl,?_,?_⟩
    · intro r there calm
      obtain ⟨r',-,rfl⟩ := Option.map_eq_some_iff.mp there
      cases calm
    · intro r n there counted
      obtain ⟨r',here,rfl⟩ := Option.map_eq_some_iff.mp there
      exact held.taken r' n here counted
  | finish inBoot changing counted =>
    have busy : w.cache.changing = true := by rw [held.changing,changing]; rfl
    refine ⟨finishInv held.inv busy _,rfl,?_,rfl,?_,held.taken⟩
    · show (after env w.life _).bindingGen = UInt32.ofNat (w.cache.count+1)
      rw [counted,held.gen,UInt32.ofNat_add]
      rfl
    · intro r there calm
      have idle := (held.inv.calm r there calm).1
      rw [busy] at idle
      cases idle
  | reboot provisioned opens dev => exact bootHeld (rebootGen _ _ _) dev _
  | start free owned seen =>
    refine ⟨startInv held.inv,held.source,held.gen,held.changing,?_,?_⟩
    · intro r there calm
      cases there
      have idle : w.changing = none := by
        have same : w.changing.isSome = false := held.changing.symm.trans calm
        exact Option.isNone_iff_eq_none.mp (by rw [← Option.not_isSome,same]; rfl)
      exact seen idle
    · intro r n there counted
      cases there
      cases counted
  | take here first =>
    refine ⟨takeInv held.inv here,held.source,held.gen,held.changing,?_,?_⟩
    · intro r there calm
      cases there
      exact held.owned _ here calm
    · intro r n there counted
      cases there
      cases counted
      exact held.gen
  | @refresh r n here counted sample sampled call =>
    have gen := held.taken r n here counted
    have left : StampedCache.Inv (derive c w.dev) UInt32.ofNat
        (w.cache.leave (sealRefreshKeysLocked c w.dev w.owned w.cache.filled w.gen n sample).1) := by
      rw [sealRefreshKeysLocked]
      split
      · exact ⟨held.inv.tagged,held.inv.fresh,fun r n there => (by cases there),fun r there => (by cases there)⟩
      · rw [gen]
        exact leaveInv held.inv here counted sampled
    exact ⟨left,held.source,held.gen,held.changing,fun r there => (by cases there),fun r n there => (by cases there)⟩

theorem reachHeld {w : Writer Key} (reach : Reach c env gcm w) : Held c w := by
  induction reach with
  | boot life dev cleared => exact bootHeld cleared dev []
  | step before next ih => exact stepHeld ih next

theorem refreshSeals {w : Writer Key} (held : Held c w) {r : Reader} {n : Nat} (here : w.cache.reader = some r)
    (counted : r.counted = some n) {sample : Fields} (sampled : w.cache.Sampled r sample) (calm : r.disturbed = false)
    (few : w.cache.count < 2^32) :
    (sealRefreshKeysLocked c w.dev w.owned w.cache.filled w.gen n sample).2 = bindingKeys c w.dev w.life := by
  rw [sealRefreshKeysLocked,bindingKeys,held.owned r here calm]
  cases bound w.life with
  | false => rfl
  | true =>
    have whole := lookFresh held.inv wordsApart few here counted calm sampled
    rw [held.source] at whole
    rw [held.taken r n here counted]
    exact whole

/-- Every payload that no change of the binding overlaps is sealed as under the owner, the encryption
key and the epoch of its moment, and refused where there is none; up to 2^32 changes a boot. -/
theorem sealsUnderBinding {w : Writer Key} (reach : Reach c env gcm w) :
    ∀ e ∈ w.seals, e.disturbed = false → e.count < 2^32 →
      e.result = payloadSeal gcm (bindingKeys c e.dev e.life) e.call := by
  induction reach with
  | boot => exact fun e there => absurd there List.not_mem_nil
  | step before next ih =>
    cases next with
    | other | begin_ | finish | reboot | start | take => exact ih
    | refresh here counted sample sampled call =>
      intro e there calm few
      rcases List.mem_append.mp there with old | new
      · exact ih e old calm few
      · obtain ⟨call,-,rfl⟩ := List.mem_map.mp new
        exact congrArg (payloadSeal gcm · call) (refreshSeals (reachHeld before) here counted sampled calm few)

/-! A payload sealed while the owner is being bound, and one after. -/

def litDev : DevKey where
  priv := List.replicate 32 0x46
  pub :=
    [0x4b,0xc2,0xa3,0x12,0x65,0x15,0x3f,0x07,0xe7,0x0e,0x0b,0xab,0x08,0x72,0x4e,0x6b,0x85,0xe2,0x17,0xf8,0xcd,0x62,0x8c,
      0xeb,0x62,0x97,0x42,0x47,0xbb,0x49,0x33,0x82,0xce,0x28,0xca,0xb7,0x9a,0xd7,0x11,0x9e,0xe1,0xad,0x3e,0xbc,0xdb,0x98,
      0xa1,0x68,0x05,0x21,0x15,0x30,0xec,0xc6,0xcf,0xef,0xa1,0xb8,0x8e,0x6d,0xff,0x99,0x23,0x2a]

def litShared : Bytes :=
  [0x1f,0xf6,0xea,0xee,0x4d,0x75,0x63,0x52,0x67,0x5b,0x10,0x1b,0xdf,0x72,0x62,0x6f,0x32,0x3f,0x09,0x1a,0xdc,0x19,0xe4,
    0x9d,0x72,0xdd,0x27,0xc9,0x96,0x76,0x3d,0xb9]

def litTlmKey : Bytes :=
  [0x0e,0x1f,0x3c,0x6e,0x28,0x01,0x9b,0x88,0x68,0x4a,0xbf,0x59,0x5e,0x7f,0xe6,0xef,0x6c,0xdc,0x0c,0xee,0x31,0x5f,0x5f,
    0xab,0x51,0xc1,0x35,0x84,0xf9,0x3e,0xba,0xba]

def litAckKey : Bytes :=
  [0xa9,0x25,0xed,0x79,0x94,0x32,0x1e,0x4d,0xdd,0xab,0xf6,0xaa,0x1a,0xf5,0xc9,0x68,0x30,0xaa,0x96,0x80,0x17,0x2f,0xf3,
    0xd7,0xce,0x5f,0x2e,0x7e,0xfa,0x38,0x45,0x77]

def litEventKey : Bytes :=
  [0x0f,0xb0,0x12,0x0b,0x24,0xcf,0xc6,0x36,0x48,0x19,0xd9,0x1c,0xc2,0xa1,0xce,0x18,0xba,0x0a,0xbe,0xc2,0x86,0xc3,0xcb,
    0x95,0x6c,0x19,0x15,0x94,0xe3,0x3d,0xe3,0xb6]

def litDerivation : Derivation Bytes where
  ecdh priv enc := if priv = litDev.priv ∧ enc = ArkivSkips.ownerPub then some litShared else none
  hkdf ikm salt info :=
    if ikm = litShared ∧ salt = ascii "0x" ++ ArkivTelemetry.hexEncode ArkivSkips.ownerAddr ++ ascii "|" ++
        ArkivTelemetry.hexEncode litDev.pub then
      if info = ascii "w3pups-arkiv-telemetry|epoch=0" then .ok litTlmKey
      else if info = ascii "w3pups-arkiv-ack|epoch=0" then .ok litAckKey
      else if info = ascii "w3pups-arkiv-event|epoch=0" then .ok litEventKey
      else .error (-1)
    else .error (-1)

def litSealGcm : Gcm Bytes :=
  ArkivTelemetry.litGcm litTlmKey (ArkivWriterSeq.packNonce 1 0 5)
    (ArkivWriterSeq.packNonce 1 0 5 ++ ascii "89" ++ ascii "w3pups-telemetry")
    ([1,0,2,1,20,0,1,1] ++ List.replicate 18 0)
    [0xbf,0x0d,0xcd,0xc8,0x0c,0xdf,0x8e,0xa5,0x76,0x79,0x5d,0x9f,0xf1,0xdb,0xe2,0x0f,0x21,0x6f,0x1c,0x6f,0x3d,0xfd,0xd7,
      0xf1,0x45,0xdd]
    [0x94,0x43,0xd5,0xb7,0x89,0xea,0xf9,0xfd,0xec,0x75,0x9f,0x14,0x12,0x56,0x5a,0x35]

def litSealed : Bytes :=
  [3,1,0,0,0,0,0,0,0,0,0,5,0xbf,0x0d,0xcd,0xc8,0x0c,0xdf,0x8e,0xa5,0x76,0x79,0x5d,0x9f,0xf1,0xdb,0xe2,0x0f,0x21,0x6f,0x1c,
    0x6f,0x3d,0xfd,0xd7,0xf1,0x45,0xdd,0x94,0x43,0xd5,0xb7,0x89,0xea,0xf9,0xfd,0xec,0x75,0x9f,0x14,0x12,0x56,0x5a,0x35]

def litCall : Call :=
  ⟨1,5,some (ascii "89"),some (ascii "w3pups-telemetry"),none,[1,0,2,1,20,0,1,1] ++ List.replicate 18 0,256⟩

def litReady : Device := after CmdauthArkivLife.keys CmdauthArkivLife.factory (.reboot true true)
def litBind : Op := .bindOwner CmdauthArkivLife.owner CmdauthArkivLife.owner 0
def litBound : Device := after CmdauthArkivLife.keys litReady litBind

/-- The first refresh finds the old fields under the new pointers. -/
def litBinding : Writer Bytes :=
  let w : Writer Bytes := .boot litReady litDev []
  let w := { w with changing := some litBind, cache := w.cache.begin_ }
  let w := { w with cache := w.cache.start, owned := true }
  { w with cache := w.cache.take ⟨none,true,true⟩, gen := w.life.bindingGen }

def litTorn : Writer Bytes :=
  refreshed litDerivation litSealGcm litBinding ⟨some 0,true,true⟩ 0 (fieldsOf litReady) (some litCall)

def litCalm : Writer Bytes :=
  let w := { litTorn with life := litBound, changing := none, cache := litTorn.cache.finish (fieldsOf litBound) }
  let w := { w with cache := w.cache.start, owned := true }
  { w with cache := w.cache.take ⟨none,false,false⟩, gen := w.life.bindingGen }

def litWriter : Writer Bytes :=
  refreshed litDerivation litSealGcm litCalm ⟨some 1,false,false⟩ 1 (fieldsOf litBound) (some litCall)

theorem litReach : Reach litDerivation CmdauthArkivLife.keys litSealGcm litWriter := by
  have booted : Reach litDerivation CmdauthArkivLife.keys litSealGcm (.boot litReady litDev []) := .boot litReady litDev rfl
  have begun := booted.step (.begin_ (o := litBind) rfl rfl)
  have started := begun.step (.start rfl true fun idle => by cases idle)
  have taken : Reach litDerivation CmdauthArkivLife.keys litSealGcm litBinding := started.step (.take rfl rfl)
  have torn : Reach litDerivation CmdauthArkivLife.keys litSealGcm litTorn :=
    taken.step (.refresh rfl rfl (fieldsOf litReady) (fun calm => by cases calm) (some litCall))
  have finished := torn.step (.finish (o := litBind) rfl rfl (by decide +kernel))
  have restarted := finished.step (.start rfl true fun _ => by decide +kernel)
  have retaken : Reach litDerivation CmdauthArkivLife.keys litSealGcm litCalm := restarted.step (.take rfl rfl)
  exact retaken.step (.refresh rfl rfl (fieldsOf litBound) (fun _ => rfl) (some litCall))

theorem litSeals :
    litWriter.seals.map (fun e => (e.disturbed,e.result.toOption)) = [(true,none),(false,some (litSealed,0))] ∧
      ∀ e ∈ litWriter.seals, e.disturbed = false → e.count < 2^32 →
        e.result = payloadSeal litSealGcm (bindingKeys litDerivation e.dev e.life) e.call :=
  ⟨by decide +kernel,sealsUnderBinding litReach⟩

end Web3PiUps.ArkivSealKeys
