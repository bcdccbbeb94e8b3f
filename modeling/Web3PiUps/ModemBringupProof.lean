import Web3PiUps.ModemBringup

/-! The supervisor keeps the rules: a bring-up by the assertion that each of its gates adds,
the teardown and the power-cycle by the bit that they clear, the loop by what holds between two turns. -/
namespace Web3PiUps.ModemBringup
open Tasks Code ModemUplink ModemLadder
open Dialogue (allOf)

abbrev Holds (last : α → Watch → Prop) (c : Code Ans α) (w : Watch) : Prop := Keeps rules last c w

theorem holdsAsk {a : Act} {last : Ans a → Watch → Prop} {w : Watch} (need : Need w a)
    (answers : ∀ r, hear w a r = r → last r (observe w a r)) : Holds last (ask a) w :=
  ⟨need,answers⟩

theorem holdsPure {last : α → Watch → Prop} {x : α} {w : Watch} (here : last x w) : Holds last (pure x) w := here

/-! The policies: they move nothing but what is known of the settings. -/

/-- Nothing but the settings `S` has moved. -/
structure Touches (S : List Setting) (w w' : Watch) : Prop where
  same : w' = { w with verified := w'.verified }
  kept : ∀ s, s ∉ S → w'.verified s = w.verified s

theorem touchesNone (S : List Setting) (w : Watch) : Touches S w w := ⟨rfl,fun _ _ => rfl⟩

theorem Touches.trans {S : List Setting} {w w' w'' : Watch} (a : Touches S w w') (b : Touches S w' w'') :
    Touches S w w'' := by
  refine ⟨?_,fun s out => (b.kept s out).trans (a.kept s out)⟩
  rw [b.same,a.same]

theorem Touches.more {S T : List Setting} {w w' : Watch} (a : Touches S w w') (sub : S ⊆ T) : Touches T w w' :=
  ⟨a.same,fun s out => a.kept s fun mem => out (sub mem)⟩

theorem settleTouches (w : Watch) (s : Setting) (verified : Bool) : Touches [s] w (w.settle s verified) :=
  ⟨rfl,fun _ out => Function.update_of_ne (fun same => out (List.mem_singleton.mpr same)) ..⟩

theorem readHolds (s : Setting) (w : Watch) : Holds (fun r w' => Touches [s] w w' ∧
    ∀ value, r = some value → w'.verified s = (value == wanted s)) (readScalar s) w := by
  refine holdsAsk trivial fun r _ => ?_
  cases r with
  | none => exact ⟨touchesNone _ w,nofun⟩
  | some value =>
    refine ⟨settleTouches w s _,fun value' same => ?_⟩
    obtain rfl := Option.some.inj same
    exact Function.update_self ..

theorem commandHolds (s : Setting) (command : String) (w : Watch) :
    Holds (fun _ w' => Touches [s] w w') (commandOk s command) w :=
  holdsAsk trivial fun _ _ => settleTouches w s false

theorem readsHolds (s : Setting) (w : Watch) :
    Holds (fun ok w' => Touches [s] w w' ∧ (ok = true → w'.verified s = true)) (reads s (wanted s)) w := by
  refine keepsBind (readHolds s w) fun r w' ⟨touches,value⟩ => holdsPure ⟨touches,fun ok => ?_⟩
  have same : r = some (wanted s) := by simpa using ok
  rw [value _ same]
  exact BEq.rfl

theorem readsTouches (s : Setting) (value : Nat) (w : Watch) : Holds (fun _ w' => Touches [s] w w') (reads s value) w :=
  keepsBind (readHolds s w) fun _ _ h => holdsPure h.1

theorem failClosedHolds (w : Watch) : Holds (fun ok w' => Touches [.cfun] w w' ∧ ok = false) failClosed w :=
  keepsBind (commandHolds ..) fun _ _ touches => holdsPure ⟨touches,rfl⟩

theorem allOfHolds {I : Watch → Prop} {Q : Watch → Prop} {l : List (Code Ans Bool)} {c : Code Ans Bool}
    (each : ∀ d ∈ l, ∀ w, I w → Holds (fun _ w' => I w') d w)
    (last : ∀ w, I w → Holds (fun ok w' => I w' ∧ (ok = true → Q w')) c w) {w : Watch} (here : I w) :
    Holds (fun ok w' => I w' ∧ (ok = true → Q w')) (allOf (l ++ [c])) w := by
  induction l generalizing w with
  | nil =>
    refine keepsBind (last w here) fun ok w' ⟨inv,good⟩ => ?_
    cases ok with
    | true => exact holdsPure ⟨inv,fun _ => good rfl⟩
    | false => exact holdsPure ⟨inv,nofun⟩
  | cons d rest ih =>
    refine keepsBind (each d (.head _) w here) fun ok w' inv => ?_
    cases ok with
    | true => exact ih (fun e mem => each e (.tail _ mem)) inv
    | false => exact holdsPure ⟨inv,nofun⟩

def radioSettings : List Setting := [.cnmp,.cmnb,.bands]
def sleepSettings : List Setting := [.csclk,.cpsms,.cedrx]

theorem readSettingsHolds (w : Watch) : Holds (fun r w' => Touches radioSettings w w' ∧
    (r = .matching → ∀ s ∈ radioSettings, w'.verified s = true)) readSettings w := by
  refine keepsBind (readHolds .cnmp w) fun network w₁ ⟨t₁,v₁⟩ => ?_
  have t₁ := t₁.more (T := radioSettings) (by decide)
  cases network with
  | none => exact holdsPure ⟨t₁,nofun⟩
  | some network =>
    refine keepsBind (readHolds .cmnb w₁) fun preference w₂ ⟨t₂,v₂⟩ => ?_
    cases preference with
    | none => exact holdsPure ⟨t₁.trans (t₂.more (by decide)),nofun⟩
    | some preference =>
      refine keepsBind (readHolds .bands w₂) fun bands w₃ ⟨t₃,v₃⟩ => ?_
      have all := t₁.trans ((t₂.more (T := radioSettings) (by decide)).trans (t₃.more (by decide)))
      cases bands with
      | none => exact holdsPure ⟨all,nofun⟩
      | some bands =>
        refine holdsPure ⟨all,fun matching s mem => ?_⟩
        obtain ⟨rfl,rfl,rfl⟩ : network = 38 ∧ preference = 1 ∧ bands = 1 := by
          split at matching
          · assumption
          · exact nomatch matching
        have network := v₁ _ rfl
        have preference := v₂ _ rfl
        have bands := v₃ _ rfl
        simp only [radioSettings,List.mem_cons,List.not_mem_nil,or_false] at mem
        rcases mem with rfl | rfl | rfl
        · rw [t₃.kept _ (by decide),t₂.kept _ (by decide),network]; rfl
        · rw [t₃.kept _ (by decide),preference]; rfl
        · rw [bands]; rfl

theorem settingsMatchHolds (w : Watch) : Holds (fun ok w' => Touches radioSettings w w' ∧
    (ok = true → ∀ s ∈ radioSettings, w'.verified s = true)) settingsMatch w := by
  refine keepsBind (readSettingsHolds w) fun r w' ⟨touches,good⟩ => holdsPure ⟨touches,fun ok => good ?_⟩
  simpa using ok

def allSettings : List Setting := [.cnmp,.cmnb,.bands,.cfun,.csclk,.cpsms,.cedrx]

theorem inAll (S : List Setting) : S ⊆ allSettings := by
  intro s _
  cases s <;> decide

theorem radioPrepareHolds (w : Watch) : Holds (fun _ w' => Touches allSettings w w') modemRadioPrepare w := by
  have closes : ∀ w', Touches allSettings w w' → Holds (fun _ w' => Touches allSettings w w') failClosed w' :=
    fun w' touches => keepsMono (failClosedHolds w') fun _ _ h => touches.trans (h.1.more (inAll _))
  refine keepsBind (readSettingsHolds w) fun r w' ⟨touches,_⟩ => ?_
  have touches := touches.more (inAll _)
  cases r with
  | matching => exact holdsPure touches
  | invalid => exact closes w' touches
  | mismatch =>
    have written := allOfHolds (I := Touches allSettings w) (Q := fun _ => True) (c := settingsMatch) (w := w')
      (l := [commandOk .cfun "AT+CFUN=4",reads .cfun 4,commandOk .cnmp "AT+CNMP=38",commandOk .cmnb "AT+CMNB=1",
        commandOk .bands "AT+CBANDCFG=\"CAT-M\",3,20"])
      (fun d mem v inv => by
        simp only [List.mem_cons,List.not_mem_nil,or_false] at mem
        rcases mem with rfl | rfl | rfl | rfl | rfl
        · exact keepsMono (commandHolds ..) fun _ _ h => inv.trans (h.more (inAll _))
        · exact keepsMono (readsTouches ..) fun _ _ h => inv.trans (h.more (inAll _))
        · exact keepsMono (commandHolds ..) fun _ _ h => inv.trans (h.more (inAll _))
        · exact keepsMono (commandHolds ..) fun _ _ h => inv.trans (h.more (inAll _))
        · exact keepsMono (commandHolds ..) fun _ _ h => inv.trans (h.more (inAll _)))
      (fun v inv => keepsMono (settingsMatchHolds v) fun _ _ h => ⟨inv.trans (h.1.more (inAll _)),fun _ => trivial⟩)
      touches
    refine keepsBind written fun ok w'' ⟨inv,_⟩ => ?_
    cases ok with
    | true => exact holdsPure inv
    | false => exact closes w'' inv

theorem radioResumeHolds (w : Watch) : Holds (fun ok w' => Touches (.cfun::radioSettings) w w' ∧
    (ok = true → ∀ s ∈ (.cfun::radioSettings), w'.verified s = true)) modemRadioResume w := by
  have closes : ∀ w', Touches (.cfun::radioSettings) w w' → Holds (fun ok w' => Touches (.cfun::radioSettings) w w' ∧
      (ok = true → ∀ s ∈ (.cfun::radioSettings), w'.verified s = true)) failClosed w' := by
    intro w' touches
    refine keepsMono (failClosedHolds w') fun ok _ h => ⟨touches.trans (h.1.more (by decide)),fun good => ?_⟩
    exact absurd (h.2.symm.trans good) (by decide)
  refine keepsBind (settingsMatchHolds w) fun ok w₁ ⟨t₁,radio⟩ => ?_
  have t₁ := t₁.more (T := .cfun::radioSettings) (by decide)
  cases ok with
  | false => exact closes w₁ t₁
  | true =>
    have radio := radio rfl
    -- the radio settings are not touched once they have matched
    have still : ∀ w', Touches [.cfun] w₁ w' → w'.verified .cfun = true →
        ∀ s ∈ (.cfun::radioSettings), w'.verified s = true := by
      intro w' later cfun s mem
      rcases List.mem_cons.mp mem with rfl | radio_
      · exact cfun
      · rw [later.kept s (fun same => by rcases List.mem_singleton.mp same with rfl; exact absurd radio_ (by decide))]
        exact radio s radio_
    refine keepsBind (readHolds .cfun w₁) fun r w₂ ⟨t₂,v₂⟩ => ?_
    have all := t₁.trans (t₂.more (T := .cfun::radioSettings) (by decide))
    cases r with
    | none => exact closes w₂ all
    | some functionality =>
      refine keepsIte (fun full => ?_) fun _ => keepsIte (fun _ => closes w₂ all) fun _ => ?_
      · exact holdsPure ⟨all,fun _ => still w₂ t₂ (by rw [v₂ _ rfl,full]; rfl)⟩
      · have turned := allOfHolds (I := Touches [.cfun] w₁) (Q := fun w' => w'.verified .cfun = true)
          (l := [commandOk .cfun "AT+CFUN=1"]) (c := reads .cfun 1) (w := w₂)
          (fun d mem v inv => by
            obtain rfl := List.mem_singleton.mp mem
            exact keepsMono (commandHolds ..) fun _ _ h => inv.trans h)
          (fun v inv => keepsMono (readsHolds .cfun v) fun _ _ h => ⟨inv.trans h.1,h.2⟩) t₂
        refine keepsBind turned fun ok w₃ ⟨t₃,cfun⟩ => ?_
        have all := t₁.trans (t₃.more (T := .cfun::radioSettings) (by decide))
        cases ok with
        | true => exact holdsPure ⟨all,fun _ => still w₃ t₃ (cfun rfl)⟩
        | false => exact closes w₃ all

theorem readModeHolds (s : Setting) (w : Watch) : Holds (fun r w' => Touches [s] w w' ∧
    ∀ value, r = some value → w'.verified s = (value == wanted s)) (readMode s) w := by
  refine keepsBind (readHolds s w) fun r w' ⟨touches,value⟩ => holdsPure ⟨touches,fun n same => ?_⟩
  obtain ⟨known,_⟩ := Option.filter_eq_some_iff.mp same
  exact value n known

theorem readConfigHolds (w : Watch) : Holds (fun r w' => Touches sleepSettings w w' ∧
    ∀ c, r = some c → allOff c = true → ∀ s ∈ sleepSettings, w'.verified s = true) readConfig w := by
  refine keepsBind (readModeHolds .csclk w) fun slowClock w₁ ⟨t₁,v₁⟩ => ?_
  have t₁ := t₁.more (T := sleepSettings) (by decide)
  cases slowClock with
  | none => exact holdsPure ⟨t₁,nofun⟩
  | some slowClock =>
    refine keepsBind (readModeHolds .cpsms w₁) fun psm w₂ ⟨t₂,v₂⟩ => ?_
    cases psm with
    | none => exact holdsPure ⟨t₁.trans (t₂.more (by decide)),nofun⟩
    | some psm =>
      refine keepsBind (readModeHolds .cedrx w₂) fun edrx w₃ ⟨t₃,v₃⟩ => ?_
      have all := t₁.trans ((t₂.more (T := sleepSettings) (by decide)).trans (t₃.more (by decide)))
      cases edrx with
      | none => exact holdsPure ⟨all,nofun⟩
      | some edrx =>
        refine holdsPure ⟨all,fun c same off s mem => ?_⟩
        obtain rfl := Option.some.inj same
        obtain ⟨⟨rfl,rfl⟩,rfl⟩ : (slowClock = 0 ∧ psm = 0) ∧ edrx = 0 := by
          simpa only [allOff,Bool.and_eq_true,beq_iff_eq] using off
        have slowClock := v₁ _ rfl
        have psm := v₂ _ rfl
        have edrx := v₃ _ rfl
        simp only [sleepSettings,List.mem_cons,List.not_mem_nil,or_false] at mem
        rcases mem with rfl | rfl | rfl
        · rw [t₃.kept _ (by decide),t₂.kept _ (by decide),slowClock]; rfl
        · rw [t₃.kept _ (by decide),psm]; rfl
        · rw [edrx]; rfl

theorem verifyConfigHolds (w : Watch) : Holds (fun ok w' => Touches sleepSettings w w' ∧
    (ok = true → ∀ s ∈ sleepSettings, w'.verified s = true)) modemAwakeVerifyConfig w := by
  refine keepsBind (readConfigHolds w) fun r w' ⟨touches,good⟩ => holdsPure ⟨touches,fun ok => ?_⟩
  cases r with
  | none => exact nomatch ok
  | some c => exact good c rfl ok

theorem awakePrepareHolds (w : Watch) : Holds (fun ok w' => Touches allSettings w w' ∧
    (ok = true → ∀ s ∈ sleepSettings, w'.verified s = true)) modemAwakePrepare w := by
  have closes : ∀ w', Touches allSettings w w' → Holds (fun ok w' => Touches allSettings w w' ∧
      (ok = true → ∀ s ∈ sleepSettings, w'.verified s = true)) failClosed w' := by
    intro w' touches
    refine keepsMono (failClosedHolds w') fun ok _ h => ⟨touches.trans (h.1.more (inAll _)),fun good => ?_⟩
    exact absurd (h.2.symm.trans good) (by decide)
  refine keepsBind (readConfigHolds w) fun r w₁ ⟨t₁,v₁⟩ => ?_
  have t₁ := t₁.more (inAll _)
  cases r with
  | none => exact closes w₁ t₁
  | some c =>
    refine keepsIte (fun off => holdsPure ⟨t₁,fun _ => v₁ c rfl off⟩) fun _ => ?_
    have written := allOfHolds (I := Touches allSettings w) (Q := fun w' => ∀ s ∈ sleepSettings, w'.verified s = true)
      (l := (if c.psm ≠ 0 ∨ c.edrx ≠ 0 then [commandOk .cfun "AT+CFUN=4",reads .cfun 4] else []) ++
        (if c.slowClock ≠ 0 then [commandOk .csclk "AT+CSCLK=0"] else []) ++
        (if c.psm ≠ 0 then [commandOk .cpsms "AT+CPSMS=0"] else []) ++
        (if c.edrx ≠ 0 then [commandOk .cedrx "AT+CEDRXS=0,4,\"0000\""] else []))
      (c := modemAwakeVerifyConfig) (w := w₁) ?_
      (fun v inv => keepsMono (verifyConfigHolds v) fun _ _ h => ⟨inv.trans (h.1.more (inAll _)),h.2⟩) t₁
    · refine keepsBind written fun ok w₂ ⟨t₂,good⟩ => ?_
      cases ok with
      | true => exact holdsPure ⟨t₂,good⟩
      | false => exact closes w₂ t₂
    · intro d mem v inv
      have writes : ∀ s command, Holds (fun _ w' => Touches allSettings w w') (commandOk s command) v :=
        fun _ _ => keepsMono (commandHolds ..) fun _ _ h => inv.trans (h.more (inAll _))
      have confirms : Holds (fun _ w' => Touches allSettings w w') (reads .cfun 4) v :=
        keepsMono (readsTouches ..) fun _ _ h => inv.trans (h.more (inAll _))
      have only : ∀ {p : Prop} [Decidable p] {cs : List (Code Ans Bool)}, d ∈ (if p then cs else []) → d ∈ cs := by
        intro p _ cs inside
        split at inside
        · exact inside
        · exact nomatch inside
      rcases List.mem_append.mp mem with mem | edrx
      · rcases List.mem_append.mp mem with mem | psm
        · rcases List.mem_append.mp mem with off | slowClock
          · rcases List.mem_cons.mp (only off) with rfl | later
            · exact writes ..
            · rw [List.mem_singleton.mp later]; exact confirms
          · rw [List.mem_singleton.mp (only slowClock)]; exact writes ..
        · rw [List.mem_singleton.mp (only psm)]; exact writes ..
      · rw [List.mem_singleton.mp (only edrx)]; exact writes ..

theorem verifyActiveHolds (w : Watch) : Holds (fun _ w' => w' = w) modemAwakeVerifyActive w := by
  refine keepsBind (m := fun _ w' => w' = w) (holdsAsk trivial fun _ _ => rfl) fun psm w' same => ?_
  refine keepsIte (fun _ => ?_) fun _ => holdsPure same
  exact keepsBind (m := fun _ w' => w' = w) (holdsAsk trivial fun _ _ => same) fun _ _ same => holdsPure same

theorem awakeWaitHolds (n : Nat) (w : Watch) : Holds (fun ok w' => Touches [.cfun] w w' ∧ (ok = true → w' = w))
    (awakeWait n) w := by
  induction n with
  | zero =>
    refine keepsMono (failClosedHolds w) fun ok _ h => ⟨h.1,fun good => ?_⟩
    exact absurd (h.2.symm.trans good) (by decide)
  | succ n ih =>
    refine keepsBind (verifyActiveHolds w) fun ok w' same => ?_
    subst same
    cases ok with
    | true => exact holdsPure ⟨touchesNone _ _,fun _ => rfl⟩
    | false => exact ih

/-- What the supervisor keeps of CMUX and of the APN, against the calls so far. -/
structure Core (v : Vars) (w : Watch) : Prop where
  fails : v.cmuxEntryFails ≤ w.cmuxFails
  since : cmuxEntryFailsMax ≤ v.cmuxEntryFails → w.fallback = some v.cmuxFallbackSinceS
  apn : w.apn = if v.apnSeeded then some v.apn else none

theorem probeHeard {w : Watch} (heard : hear w .probe true = true) : w.powered = true := by
  unfold hear at heard
  split at heard
  · assumption
  · exact nomatch heard

theorem powerCycleHolds (knownRunning : Bool) {v : Vars} {w : Watch} (core : Core v w) :
    Holds (fun _ w' => Core v w' ∧ w'.tried = false) (modemPowerCycle knownRunning) w := by
  have probed : Holds (fun _ w' => Core v w') (if knownRunning then pure true else ask .probe) w :=
    keepsIte (fun _ => holdsPure core) fun _ => holdsAsk trivial fun _ _ => core
  refine keepsBind probed fun running w₁ core => ?_
  -- the pulse that switches it on clears the bit, and it is the first or the second
  have off : ∀ w : Watch, (w.tried && w.powered && !w.powered) = false := by
    intro w
    cases w.tried <;> cases w.powered <;> rfl
  cases running with
  | true => exact ⟨trivial,fun _ _ => ⟨trivial,fun _ _ => ⟨⟨core.fails,core.since,core.apn⟩,off w₁⟩⟩⟩
  | false =>
    refine ⟨trivial,fun _ _ => ⟨trivial,fun answered heard => ?_⟩⟩
    cases answered with
    | true =>
      -- it answers, so the pulse has switched it on
      have toggled : (!w₁.powered) = true := probeHeard heard
      have running : w₁.powered = false := by simpa using toggled
      exact ⟨⟨core.fails,core.since,core.apn⟩,(by simp [running] : (w₁.tried && w₁.powered) = false)⟩
    | false =>
      exact ⟨trivial,fun _ _ => ⟨trivial,fun _ _ => ⟨⟨core.fails,core.since,core.apn⟩,off w₁⟩⟩⟩

theorem cycleIfHolds (due knownRunning : Bool) {v : Vars} {w : Watch} (core : Core v w)
    (tried : due = false → w.tried = false) :
    Holds (fun _ w' => Core v w' ∧ w'.tried = false) (cycleIf due knownRunning) w :=
  keepsIte (fun _ => powerCycleHolds _ core) fun spared => holdsPure ⟨core,tried (Bool.eq_false_iff.mpr spared)⟩

/-- Between two DCEs. -/
structure Clean (v : Vars) (w : Watch) : Prop where
  core : Core v w
  tried : w.tried = false
  active : v.cmuxActive = false
  dirty : v.cmuxDirty = false

/-- Where a teardown starts. -/
structure Loose (v : Vars) (w : Watch) : Prop where
  core : Core v w
  tried : w.tried = true → v.cmuxActive = true ∨ v.cmuxDirty = true
  dce : v.cmuxActive = true → v.dce = true

theorem Clean.loose {v : Vars} {w : Watch} (c : Clean v w) : Loose v w :=
  ⟨c.core,fun tried => absurd (c.tried.symm.trans tried) (by decide),
    fun active => absurd (c.active.symm.trans active) (by decide)⟩

theorem leaveDataHolds (action : Option TeardownAction) {v : Vars} {w : Watch} (core : Core v w)
    (tried : w.tried = false) : Holds (fun _ w' => Core v w' ∧ w'.tried = false) (leaveData action) w := by
  refine keepsBind (m := fun _ w' => Core v w' ∧ w'.tried = false) (holdsAsk trivial fun _ _ => ⟨core,tried⟩)
    fun left w' kept => ?_
  refine keepsIte (fun _ => keepsIte (fun _ => ?_) fun _ => holdsPure kept) fun _ => holdsPure kept
  refine keepsBind (m := fun _ w' => Core v w' ∧ w'.tried = false) (holdsAsk trivial fun _ _ => ?_)
    fun _ _ kept => holdsPure kept
  exact ⟨⟨kept.1.fails,kept.1.since,kept.1.apn⟩,by simp [observe,kept.2]⟩

theorem closeDceHolds (action : Option TeardownAction) {v : Vars} {w : Watch} (loose : Loose v w) :
    Holds (fun pwrcycle w' => Core v w' ∧ (w'.tried = true → pwrcycle = true ∨ v.cmuxDirty = true))
      (closeDce v action) w := by
  refine keepsIte (fun _ => keepsIte (fun _ => ?_) fun kept => keepsIte (fun plain => ?_) fun _ => ?_) fun closed => ?_
  · refine keepsBind (m := fun reset w' => Core v w' ∧ (w'.tried = true → (!reset) = true)) ?_
      fun reset w' h => holdsPure ⟨h.1,fun tried => .inl (h.2 tried)⟩
    refine holdsAsk trivial fun reset _ => ⟨⟨loose.core.fails,loose.core.since,loose.core.apn⟩,fun tried => ?_⟩
    exact (Bool.and_eq_true_iff.mp tried).2
  · have plain : v.cmuxActive = false ∧ v.cmuxDirty = false := by simpa using plain
    have tried : w.tried = false := Bool.eq_false_iff.mpr fun bit => by simpa [plain] using loose.tried bit
    refine keepsMono (leaveDataHolds action loose.core tried) fun _ w' h => ⟨h.1,fun bit => ?_⟩
    exact absurd (h.2.symm.trans bit) (by decide)
  · refine holdsPure ⟨loose.core,fun tried => ?_⟩
    rcases loose.tried tried with active | dirty
    · left; simpa [active] using kept
    · exact .inr dirty
  · refine holdsPure ⟨loose.core,fun tried => ?_⟩
    rcases loose.tried tried with active | dirty
    · exact absurd (loose.dce active) closed
    · exact .inr dirty

theorem teardownHolds (action : Option TeardownAction) {v : Vars} {w : Watch} (loose : Loose v w) :
    Holds Clean (pppTeardownDce v action) w := by
  refine keepsBind (closeDceHolds action loose) fun pwrcycle w₁ ⟨core,tried⟩ => ?_
  have cycled := cycleIfHolds (pwrcycle || v.cmuxDirty) (v.cmuxActive && !v.cmuxDirty) core
    fun spared => Bool.eq_false_iff.mpr fun bit => Bool.eq_false_iff.mp spared (by simpa using tried bit)
  exact keepsBind cycled fun _ w₂ h => holdsPure ⟨⟨h.1.fails,h.1.since,h.1.apn⟩,h.2,rfl,rfl⟩

theorem stopPppHolds (action : Option TeardownAction) (r : Ladder × Entry) {v : Vars} {w : Watch} (loose : Loose v w) :
    Holds (fun s w' => Clean s.vars w') (stopPpp v action r) w := by
  refine keepsBind (teardownHolds action loose) fun v₁ w₁ clean => ?_
  have cycled := cycleIfHolds (r.2.turn.any (·.cycled)) false clean.core fun _ => clean.tried
  exact keepsBind cycled fun _ w₂ h => holdsPure ⟨h.1,h.2,clean.active,clean.dirty⟩

structure At (opened : Bool) (gs : List Gate) (S : List Setting) (v : Vars) (w : Watch) : Prop where
  clean : Clean v w
  dce : opened = true → v.dce = true
  passed : w.passed = gs
  settled : ∀ s ∈ S, w.verified s = true

theorem Core.touches {S : List Setting} {v : Vars} {w w' : Watch} (core : Core v w) (touches : Touches S w w') :
    Core v w' := by
  rw [touches.same]
  exact ⟨core.fails,core.since,core.apn⟩

theorem Clean.touches {S : List Setting} {v : Vars} {w w' : Watch} (clean : Clean v w) (touches : Touches S w w') :
    Clean v w' := by
  refine ⟨clean.core.touches touches,?_,clean.active,clean.dirty⟩
  rw [touches.same]
  exact clean.tried

theorem At.touches {opened : Bool} {gs : List Gate} {S T : List Setting} {v : Vars} {w w' : Watch}
    (here : At opened gs S v w) (touches : Touches T w w') (settled : ∀ s ∈ S, s ∈ T → w'.verified s = true) :
    At opened gs S v w' := by
  refine ⟨here.clean.touches touches,here.dce,?_,fun s mem => ?_⟩
  · rw [touches.same]
    exact here.passed
  · by_cases touched : s ∈ T
    · exact settled s mem touched
    · exact (touches.kept s touched).trans (here.settled s mem)

/-- How a stage ends: on an exit with something to tear down, else with `good`. -/
def Stage (good : Vars → Watch → Prop) (r : Outcome) (w : Watch) : Prop :=
  match r.2 with
  | some _ => Loose r.1 w
  | none => good r.1 w

structure Ends (good : Vars → Watch → Prop) (c : Code Ans Outcome) (w : Watch) : Prop where
  holds : Holds (Stage good) c w

theorem Ends.andThen {good next : Vars → Watch → Prop} {c : Code Ans Outcome} {f : Vars → Code Ans Outcome} {w : Watch}
    (first : Ends good c w) (rest : ∀ v w', good v w' → Holds (Stage next) (f v) w') :
    Ends next (ModemBringup.andThen c f) w := by
  refine ⟨keepsBind first.holds fun r w' stage => ?_⟩
  rcases r with ⟨v,_ | exit⟩
  · exact rest v w' stage
  · exact stage

theorem gateHolds {good : Vars → Watch → Prop} {g : Gate} {exit : BringupExit} {c : Code Ans Bool} {v : Vars} {w : Watch}
    (asked : Holds (fun ok w' => (ok = true → good v (observe w' (.passed g) ())) ∧ (ok = false → Loose v w')) c w) :
    Holds (Stage good) (gate g exit c v) w := by
  refine keepsBind asked fun ok w' h => ?_
  cases ok with
  | true => exact ⟨trivial,fun _ _ => h.1 rfl⟩
  | false => exact holdsPure (h.2 rfl)

theorem At.pass {opened : Bool} {gs : List Gate} {S : List Setting} {v : Vars} {w : Watch} (here : At opened gs S v w)
    (g : Gate) : At opened (gs ++ [g]) S v (observe w (.passed g) ()) :=
  ⟨⟨⟨here.clean.core.fails,here.clean.core.since,here.clean.core.apn⟩,here.clean.tried,here.clean.active,here.clean.dirty⟩,
    here.dce,congrArg (· ++ [g]) here.passed,here.settled⟩

theorem tellAllHolds (commands : List String) {P : Watch → Prop} {w : Watch} (here : P w) :
    Holds (fun _ w' => P w') (tellAll commands) w := by
  induction commands with
  | nil => exact holdsPure here
  | cons command rest ih => exact ⟨trivial,fun _ _ => ih⟩

theorem tellStage (commands : List String) {good : Vars → Watch → Prop} {v : Vars} {w : Watch} (here : good v w) :
    Holds (Stage good) (tellAll commands >>= fun _ => pure (v,none)) w :=
  keepsBind (tellAllHolds commands here) fun _ _ here => holdsPure here

theorem syncWaitHolds (n : Nat) {P : Watch → Prop} {w : Watch} (here : P w) : Holds (fun _ w' => P w') (syncWait n) w := by
  induction n with
  | zero => exact holdsPure here
  | succ n ih =>
    refine ⟨trivial,fun synced _ => ?_⟩
    cases synced with
    | true => exact holdsPure here
    | false => exact ih

theorem openDceHolds {gs : List Gate} {S : List Setting} {v : Vars} {w : Watch} (here : At false gs S v w) :
    Holds (Stage (At true gs S)) (openDce v) w := by
  have apn : ∀ selected, w.apn = some selected → v.apn = selected := by
    intro selected known
    rw [here.clean.core.apn] at known
    split at known
    · exact Option.some.inj known
    · exact nomatch known
  have opened : At true gs S { v with dce := true } w :=
    ⟨⟨⟨here.clean.core.fails,here.clean.core.since,here.clean.core.apn⟩,here.clean.tried,here.clean.active,here.clean.dirty⟩,
      fun _ => rfl,here.passed,here.settled⟩
  refine keepsBind (m := fun _ w' => w' = w) (holdsAsk apn fun _ _ => rfl) fun created w' same => ?_
  subst same
  refine keepsIte (fun _ => ?_) fun _ => holdsPure here.clean.loose
  refine keepsBind (syncWaitHolds 20 opened) fun synced w' opened => ?_
  exact keepsIte (fun _ => holdsPure opened) fun _ => holdsPure opened.clean.loose

theorem cpinWaitHolds (n : Nat) {P : Watch → Prop} {w : Watch} (here : P w) : Holds (fun _ w' => P w') (cpinWait n) w := by
  induction n with
  | zero => exact holdsPure here
  | succ n ih =>
    refine ⟨trivial,fun ready _ => ?_⟩
    cases ready with
    | true => exact holdsPure here
    | false => exact ih

theorem ccidWaitHolds (n : Nat) {P : Watch → Prop} {w : Watch} (here : P w) : Holds (fun _ w' => P w') (ccidWait n) w := by
  induction n with
  | zero => exact holdsPure here
  | succ n ih =>
    refine ⟨trivial,fun text _ => ?_⟩
    cases text with
    | some text => exact holdsPure here
    | none =>
      refine keepsIte (fun _ => ⟨trivial,fun text _ => ?_⟩) fun _ => ih
      cases text with
      | some text => exact holdsPure here
      | none => exact ih

theorem readIccidHolds {gs : List Gate} {S : List Setting} {v : Vars} {w : Watch} (here : At true gs S v w) :
    Holds (Stage (At true gs S)) (readIccid v) w := by
  refine keepsIte (fun _ => holdsPure here) fun _ => ?_
  refine keepsBind (cpinWaitHolds 12 here) fun _ w' here => keepsBind (ccidWaitHolds 5 here) fun text w' here => ?_
  cases text with
  | none => exact holdsPure here.clean.loose
  | some text =>
    refine ⟨trivial,fun ready _ => keepsIte (fun _ => holdsPure ?_) fun _ => holdsPure here⟩
    exact ⟨⟨⟨here.clean.core.fails,here.clean.core.since,here.clean.core.apn⟩,here.clean.tried,here.clean.active,
      here.clean.dirty⟩,here.dce,here.passed,here.settled⟩

theorem selectApnKept (fixedApn : String) (v : Vars) :
    selectApn fixedApn v = { v with apn := (selectApn fixedApn v).apn, apnSeeded := true } := by
  unfold selectApn
  split
  · have seeded : v.apnSeeded = true := ‹_›
    rw [← seeded]
  · rfl

theorem selectApnSeeded (fixedApn : String) {v : Vars} (seeded : v.apnSeeded = true) : selectApn fixedApn v = v :=
  if_pos seeded

theorem apnHolds (fixedApn : String) {gs : List Gate} {S : List Setting} {v : Vars} {w : Watch} (here : At true gs S v w) :
    Holds (Stage fun v w => At true (gs ++ [.apn]) S v w ∧ w.apn = some v.apn)
      (gate .apn .apn (ask (.setApn (selectApn fixedApn v).apn)) (selectApn fixedApn v)) w := by
  have need : ∀ selected, w.apn = some selected → (selectApn fixedApn v).apn = selected := by
    intro selected known
    rw [here.clean.core.apn] at known
    split at known
    · rw [selectApnSeeded fixedApn ‹_›]; exact Option.some.inj known
    · exact nomatch known
  refine gateHolds (holdsAsk need fun ok _ => ?_)
  have synced : At true gs S (selectApn fixedApn v) { w with apn := some (selectApn fixedApn v).apn } := by
    rw [selectApnKept]
    exact ⟨⟨⟨here.clean.core.fails,here.clean.core.since,rfl⟩,here.clean.tried,here.clean.active,here.clean.dirty⟩,here.dce,
      here.passed,here.settled⟩
  exact ⟨fun _ => ⟨synced.pass .apn,rfl⟩,fun _ => synced.clean.loose⟩

theorem attachHolds (fixedApn : String) {gs : List Gate} {S : List Setting} {v : Vars} {w : Watch}
    (here : At true gs S v w) (selected : w.apn = some v.apn) : Holds (Stage (At true gs S)) (attachApn fixedApn v) w := by
  refine keepsBind (m := fun _ w' => w' = w) (holdsAsk selected fun _ _ => rfl) fun attached w' same => ?_
  subst same
  refine keepsIte (fun _ => holdsPure here) fun _ => ?_
  cases fixedApn.isEmpty with
  | true => exact holdsPure here
  | false => exact holdsPure here.clean.loose

/-- Plain DATA is not past its day. -/
structure Timely (gs : List Gate) (S : List Setting) (v : Vars) (w : Watch) : Prop extends At true gs S v w where
  recent : cmuxEntryFailsMax ≤ v.cmuxEntryFails → w.clock-v.cmuxFallbackSinceS < cmuxFallbackRetryS

theorem rearmHolds {gs : List Gate} {S : List Setting} {v : Vars} {w : Watch} (here : At true gs S v w) :
    Holds (Stage (Timely gs S)) (rearmCmux v) w := by
  refine keepsIte (fun entered => ?_) fun few => holdsPure ⟨here,fun many => absurd many few⟩
  refine keepsBind (m := fun now w' => w' = observe w .nowS now) (holdsAsk trivial fun _ _ => rfl) fun now w' same => ?_
  subst same
  have since := here.clean.core.since entered
  have read : At true gs S v (observe w .nowS now) := by
    refine ⟨⟨⟨here.clean.core.fails,fun _ => ?_,here.clean.core.apn⟩,here.clean.tried,here.clean.active,here.clean.dirty⟩,
      here.dce,here.passed,here.settled⟩
    simp only [observe,since,Option.getD_some]
  by_cases due : cmuxFallbackRetryS ≤ now-v.cmuxFallbackSinceS
  · rw [if_pos due]
    have few : ∀ {P : Prop}, cmuxEntryFailsMax ≤ 1 → P := fun many => absurd many (Nat.not_succ_le_self 1)
    have one : 1 ≤ w.cmuxFails := Nat.le_trans (Nat.le_trans (Nat.le_succ 1) entered) here.clean.core.fails
    exact holdsPure ⟨⟨⟨⟨one,few,here.clean.core.apn⟩,here.clean.tried,here.clean.active,here.clean.dirty⟩,here.dce,
      here.passed,here.settled⟩,few⟩
  · rw [if_neg due]
    exact holdsPure ⟨read,fun _ => UInt32.not_le.mp due⟩

theorem regWaitHolds (n : Nat) {P : Watch → Prop} {w : Watch} (here : P w) : Holds (fun _ w' => P w') (regWait n) w := by
  induction n generalizing w with
  | zero => exact ⟨trivial,fun _ _ => here⟩
  | succ n ih =>
    refine keepsBind (m := fun _ w' => P w') (holdsAsk trivial fun _ _ => here) fun stat w here => ?_
    refine keepsIte (fun _ => holdsPure here) fun _ => ?_
    refine keepsBind (m := fun _ w' => P w') (holdsAsk trivial fun _ _ => here) fun late w here => ?_
    refine keepsIte (fun _ => holdsPure here) fun _ => ?_
    exact keepsBind (tellAllHolds _ here) fun _ _ here => ih here

/-- Behind a bring-up that came to its end. -/
structure Brought (v : Vars) (w : Watch) : Prop where
  loose : Loose v w
  dirty : v.cmuxDirty = false

theorem switchModeHolds {v : Vars} {w : Watch} (here : Timely gates allSettings v w) :
    Holds (Stage Brought) (switchMode v) w := by
  have verified : Verified w := ⟨here.passed,fun s => here.settled s (by cases s <;> decide)⟩
  have core := here.clean.core
  refine keepsIte (fun _ => ?_) fun many => ?_
  · refine keepsBind (m := fun entered w' => w' = observe w (.setMode .cmux) entered)
      (holdsAsk ⟨verified,here.clean.tried⟩ fun _ _ => rfl) fun entered w' same => ?_
    subst same
    refine keepsIte (fun ok => ?_) fun failed => ?_
    · obtain rfl : entered = true := ok
      exact holdsPure ⟨⟨⟨Nat.le_refl 0,fun many => absurd many (Nat.not_succ_le_zero 1),core.apn⟩,fun _ =>
        .inl rfl,fun _ => here.dce rfl⟩,
        here.clean.dirty⟩
    · obtain rfl : entered = false := Bool.eq_false_iff.mpr failed
      have more : v.cmuxEntryFails+1 ≤ w.cmuxFails+1 := Nat.succ_le_succ core.fails
      refine keepsIte (fun _ => ⟨trivial,fun now _ => ?_⟩) fun few => ?_
      · exact ⟨⟨more,fun _ => rfl,core.apn⟩,fun _ => .inr rfl,fun _ => here.dce rfl⟩
      · exact holdsPure ⟨⟨more,fun many => absurd many few,core.apn⟩,fun _ => .inr rfl,fun _ => here.dce rfl⟩
  · have many := Nat.le_of_not_lt many
    have need : Need w (.setMode .data) :=
      ⟨verified,Nat.le_trans many core.fails,v.cmuxFallbackSinceS,core.since many,here.recent many⟩
    refine keepsBind (m := fun _ w' => w' = w) (holdsAsk need fun _ _ => rfl) fun entered w' same => ?_
    subst same
    exact keepsIte (fun _ => holdsPure ⟨here.clean.loose,here.clean.dirty⟩) fun _ => holdsPure here.clean.loose

theorem Clean.gate {good : Vars → Watch → Prop} {g : Gate} {exit : BringupExit} {c : Code Ans Bool} {S : List Setting}
    {v : Vars} {w : Watch} (clean : Clean v w)
    (asked : Holds (fun ok w' => Touches S w w' ∧ (ok = true → good v (observe w' (.passed g) ()))) c w) :
    Holds (Stage good) (gate g exit c v) w :=
  gateHolds (keepsMono asked fun _ _ h => ⟨h.2,fun _ => (clean.touches h.1).loose⟩)

theorem radioStage {gs : List Gate} {S : List Setting} {v : Vars} {w : Watch} (here : At true gs S v w) :
    Holds (Stage (At true (gs ++ [.radioPrepare]) []))
      (ask (.tell "AT+CMEE=2") >>= fun _ => gate .radioPrepare .radioPrepare modemRadioPrepare v) w := by
  refine ⟨trivial,fun _ _ => here.clean.gate (keepsMono (radioPrepareHolds w) fun _ w' touches => ⟨touches,fun _ => ?_⟩)⟩
  have unsettled : At true gs [] v w := ⟨here.clean,here.dce,here.passed,nofun⟩
  exact (unsettled.touches touches nofun).pass .radioPrepare

theorem awakeStage {gs : List Gate} {S : List Setting} {v : Vars} {w : Watch} (here : At true gs S v w) :
    Holds (Stage (At true (gs ++ [.awakePrepare]) sleepSettings)) (gate .awakePrepare .awakePrepare modemAwakePrepare v)
      w := by
  refine here.clean.gate (keepsMono (awakePrepareHolds w) fun ok w' h => ⟨h.1,fun good => ?_⟩)
  have unsettled : At true gs [] v w := ⟨here.clean,here.dce,here.passed,nofun⟩
  have kept := unsettled.touches h.1 nofun
  exact At.pass ⟨kept.clean,kept.dce,kept.passed,h.2 good⟩ .awakePrepare

theorem iccidStage {gs : List Gate} {S : List Setting} {v : Vars} {w : Watch} (here : At true gs S v w) :
    Holds (Stage (At true (gs ++ [.iccid]) S)) (gate .iccid .iccid (pure v.iccid.isSome) v) w :=
  here.clean.gate (S := []) (holdsPure ⟨touchesNone _ w,fun _ => here.pass .iccid⟩)

theorem resumeStage {gs : List Gate} {v : Vars} {w : Watch} (here : At true gs sleepSettings v w) :
    Holds (Stage (At true (gs ++ [.radioResume]) allSettings)) (gate .radioResume .radioResume modemRadioResume v) w := by
  refine here.clean.gate (keepsMono (radioResumeHolds w) fun ok w' h => ⟨h.1,fun good => ?_⟩)
  have kept := here.touches h.1 fun s _ mem => h.2 good s mem
  refine At.pass ⟨kept.clean,kept.dce,kept.passed,fun s mem => ?_⟩ .radioResume
  have either : s ∈ Setting.cfun::radioSettings ∨ s ∈ sleepSettings := by
    cases s <;> decide
  rcases either with radio | sleep
  · exact h.2 good s radio
  · exact kept.settled s sleep

theorem registeredStage (n : Nat) {gs : List Gate} {S : List Setting} {v : Vars} {w : Watch}
    (here : Timely gs S v w) : Holds (Stage (Timely (gs ++ [.registered]) S))
      (gate .registered .registration (regWait n) v) w := by
  refine gateHolds (keepsMono (regWaitHolds n here) fun ok w' here => ?_)
  exact ⟨fun _ => ⟨here.pass .registered,here.recent⟩,fun _ => here.clean.loose⟩

theorem awakeActiveStage (n : Nat) {gs : List Gate} {S : List Setting} {v : Vars} {w : Watch}
    (here : Timely gs S v w) : Holds (Stage (Timely (gs ++ [.awakeActive]) S))
      (gate .awakeActive .awakeCheck (awakeWait n) v) w := by
  refine here.clean.gate (keepsMono (awakeWaitHolds n w) fun ok w' h => ⟨h.1,fun good => ?_⟩)
  rw [h.2 good]
  exact ⟨here.pass .awakeActive,here.recent⟩

theorem identityStage {good : Vars → Watch → Prop} {v : Vars} {w : Watch} (here : good v w) :
    Holds (Stage good) (tellIdentity v) w :=
  tellStage _ here

theorem snapshotStage {good : Vars → Watch → Prop} {v : Vars} {w : Watch} (here : good v w) :
    Holds (Stage good) (networkSnapshot v) w :=
  tellStage _ here

theorem supportStage {good : Vars → Watch → Prop} {v : Vars} {w : Watch} (here : good v w) :
    Holds (Stage good) (supportSnapshot v) w :=
  tellStage _ here

theorem gatesEnd (fixedApn : String) {v : Vars} {w : Watch} (start : At false [] [] v w) :
    Ends Brought (bringupGates fixedApn v) w := by
  have baud : Ends (At false [.baudPrepare] []) (gate .baudPrepare .baud (ask .baudPrepare) v) w :=
    ⟨start.clean.gate (S := []) (holdsAsk trivial fun _ _ => ⟨touchesNone _ _,fun _ => start.pass .baudPrepare⟩)⟩
  have opened := baud.andThen fun _ _ here => openDceHolds here
  have radio := opened.andThen fun _ _ here => radioStage here
  have awake := radio.andThen fun _ _ here => awakeStage here
  have told := awake.andThen fun _ _ here => identityStage here
  have iccid := (told.andThen fun _ _ here => readIccidHolds here).andThen fun _ _ here => iccidStage here
  have apn := iccid.andThen fun _ _ here => apnHolds fixedApn here
  have attached := apn.andThen fun _ _ here => attachHolds fixedApn here.1 here.2
  have resumed := attached.andThen fun _ _ here => resumeStage here
  have shown := resumed.andThen fun _ _ here => snapshotStage here
  have rearmed := shown.andThen fun _ _ here => rearmHolds here
  have registered := rearmed.andThen fun _ _ here => registeredStage 30 here
  have active := registered.andThen fun _ _ here => awakeActiveStage 3 here
  have supported := (active.andThen fun _ _ here => snapshotStage here).andThen fun _ _ here => supportStage here
  exact supported.andThen fun _ _ here => switchModeHolds here

theorem bringupEnds (fixedApn : String) {v : Vars} {w : Watch} (clean : Clean v w) :
    Ends Brought (pppBringupDce fixedApn v) w := by
  have start : At false [] [] v (observe w .attempt ()) :=
    ⟨⟨⟨clean.core.fails,clean.core.since,clean.core.apn⟩,clean.tried,clean.active,clean.dirty⟩,nofun,rfl,nofun⟩
  have ends := gatesEnd fixedApn start
  unfold pppBringupDce
  -- the code of the gates stays closed from here on
  generalize bringupGates fixedApn v = gates at ends ⊢
  refine .mk ⟨trivial,fun _ _ => ⟨trivial,fun core _ => ?_⟩⟩
  cases core with
  | true => exact ends.holds
  | false => exact start.clean.loose

/-- Between two turns. -/
structure Steady (s : Loop) (w : Watch) : Prop where
  brought : Brought s.vars w
  down : s.ladder.sup.place = .down → s.vars.cmuxActive = false

theorem Clean.steady {s : Loop} {w : Watch} (clean : Clean s.vars w) : Steady s w :=
  ⟨⟨clean.loose,clean.dirty⟩,fun _ => clean.active⟩

theorem Steady.clean {s : Loop} {w : Watch} (steady : Steady s w) (down : s.ladder.sup.place = .down) :
    Clean s.vars w := by
  have active := steady.down down
  refine ⟨steady.brought.loose.core,Bool.eq_false_iff.mpr fun bit => ?_,active,steady.brought.dirty⟩
  simpa [active,steady.brought.dirty] using steady.brought.loose.tried bit

/-- A step of the session, not an idle one. -/
def InSession (l : Ladder) : ModemLadder.Input → Prop
  | .failed _ _ => False
  | .up _ _ => l.sup.place = .down
  | .wake _ => l.sup.place ≠ .down
  | .judge _ => l.sup.place ≠ .down

theorem sessionStays {l : Ladder} {flag up : Bool} {r : ModemUplink.Result}
    (open_ : (sessionStep l flag up r).2.turn.isSome = false) : (sessionStep l flag up r).1.sup.place ≠ .down := by
  unfold sessionStep at open_ ⊢
  split at open_
  · exact nomatch open_
  · rw [if_neg ‹_›]
    assumption

theorem sessionOpen {l : Ladder} {i : ModemLadder.Input} (inside : InSession l i)
    (open_ : (ModemLadder.step l i).2.turn.isSome = false) : (ModemLadder.step l i).1.sup.place ≠ .down := by
  cases i with
  | failed seconds exit => exact inside.elim
  | up seconds entered =>
    have down : l.sup.place = .down := inside
    rw [ModemLadder.step,if_pos down] at open_ ⊢
    exact sessionStays open_
  | wake x =>
    have up : ¬l.sup.place = .down := inside
    rw [ModemLadder.step,if_neg up] at open_ ⊢
    exact sessionStays open_
  | judge x =>
    have up : ¬l.sup.place = .down := inside
    rw [ModemLadder.step,if_neg up] at open_ ⊢
    exact sessionStays open_

theorem failedHolds (exit : BringupExit) {s : Loop} {w : Watch} (loose : Loose s.vars w) :
    Holds Steady (failedTurn s exit) w :=
  ⟨trivial,fun _ _ => keepsMono (stopPppHolds none _ loose) fun _ _ clean => clean.steady⟩

theorem sessionHolds {i : ModemLadder.Input} {s : Loop} {w : Watch} (brought : Brought s.vars w)
    (inside : InSession s.ladder i) : Holds Steady (sessionTurn s i) w := by
  refine keepsIte (fun _ => ?_) fun open_ => ?_
  · exact keepsMono (stopPppHolds _ _ brought.loose) fun _ _ clean => clean.steady
  · have up := sessionOpen inside (Bool.eq_false_iff.mpr open_)
    exact holdsPure ⟨brought,fun down => absurd down up⟩

theorem linkHolds {s : Loop} {w : Watch} (brought : Brought s.vars w) (down : s.ladder.sup.place = .down) :
    Holds Steady (linkTurn s) w := by
  refine keepsBind (m := fun _ w' => w' = w) (holdsAsk trivial fun _ _ => rfl) fun link w' same => ?_
  subst same
  cases link with
  | up => exact ⟨trivial,fun _ _ => ⟨trivial,fun _ _ => sessionHolds brought down⟩⟩
  | down => exact failedHolds .pppDown brought.loose
  | starting => exact failedHolds .pppTimeout brought.loose

theorem bringupTurnHolds (fixedApn : String) {s : Loop} {w : Watch} (clean : Clean s.vars w)
    (down : s.ladder.sup.place = .down) : Holds Steady (bringupTurn fixedApn s) w := by
  have ends := bringupEnds fixedApn clean
  unfold bringupTurn
  generalize pppBringupDce fixedApn s.vars = bringup at ends ⊢
  refine keepsBind ends.holds fun r w' stage => ?_
  rcases r with ⟨v,_ | exit⟩
  · exact linkHolds (s := ⟨s.ladder,v⟩) stage down
  · exact failedHolds (s := ⟨s.ladder,v⟩) exit stage

theorem turnHolds (fixedApn : String) {s : Loop} {w : Watch} (steady : Steady s w) :
    Holds Steady (turn fixedApn s) w := by
  unfold turn
  split
  · exact bringupTurnHolds fixedApn (steady.clean ‹_›) ‹_›
  · have waiting : s.ladder.sup.place ≠ .down := fun down => nomatch (‹_› : s.ladder.sup.place = .waiting _).symm.trans down
    exact ⟨trivial,fun x _ => sessionHolds (i := .wake x) steady.brought waiting⟩
  · have sampled : s.ladder.sup.place ≠ .down := fun down => nomatch (‹_› : s.ladder.sup.place = .sampled _ _).symm.trans down
    exact ⟨trivial,fun x _ => sessionHolds (i := .judge x) steady.brought sampled⟩

theorem taskHolds (fixedApn : String) (n : Nat) {s : Loop} {w : Watch} (steady : Steady s w) :
    Holds (fun _ _ => True) (pppSupervisorTask fixedApn n s) w := by
  induction n generalizing s w with
  | zero => exact holdsPure trivial
  | succ n ih => exact keepsBind (turnHolds fixedApn steady) fun _ _ steady => ih steady

theorem bootSteady (fixedApn : String) (t : Nat) (powered : Bool) :
    Steady (Loop.boot fixedApn t) (Watch.start powered) :=
  ⟨⟨⟨⟨Nat.le_refl 0,fun many => absurd many (Nat.not_succ_le_zero 1),rfl⟩,nofun,nofun⟩,rfl⟩,fun _ => rfl⟩

theorem hearTwice (w : Watch) (a : Act) (r : Ans a) : hear w a (hear w a r) = hear w a r := by
  unfold hear
  split
  · rfl
  · cases a <;> rfl

/-- A modem and a network that grant everything. -/
def granted : (a : Act) → Ans a
  | .attempt => ()
  | .passed _ => ()
  | .rightCore => true
  | .baudPrepare => true
  | .newDev _ => true
  | .sync => true
  | .tell _ => true
  | .read s => some (wanted s)
  | .readPsm => some 0
  | .readEdrx => some 0
  | .write _ _ => true
  | .cpin => true
  | .ccid _ => some "+CCID: 89882806660003388701".toList
  | .secretReady => true
  | .setApn _ => true
  | .attachApn _ => true
  | .nowS => 0
  | .regStat => 5
  | .regDeadline => false
  | .setMode _ => true
  | .moduleReset => true
  | .pulse => ()
  | .probe => true
  | .waitForLink => .up
  | .takeLoss => false
  | .seconds => 0
  | .wake => ⟨0,true,none,false⟩
  | .judge =>
    ⟨[],false,none,0,false,false,true,⟨0,false,none,true,0,[],false,none,0,true,⟨false,false,false,false,true,false⟩,false⟩⟩

end Web3PiUps.ModemBringup
