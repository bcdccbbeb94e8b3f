import Web3PiUps.WupsTrust

/-! Tasks that keep apart serve both consumers. -/
namespace Web3PiUps.WupsTrust
open WupsProtocol ArkivClaim OledMenu

theorem servedMore {log : List Event} (served : WaitsServed log) {e : Event}
    (other : ∀ nonce outcome, e ≠ .returned nonce outcome) : WaitsServed (e::log) := by
  intro nonce outcome before found
  rcases List.suffix_cons_iff.mp found with whole | within
  · exact absurd (List.cons.inj whole).1.symm (other nonce outcome)
  · exact served nonce outcome before within

theorem servedReturned {log : List Event} (served : WaitsServed log) {nonce : UInt32} {outcome : Outcome}
    (valid : outcome ≠ .invalidState) (said : ∀ result, outcome = .ok result ↔ answer nonce log = some result) :
    WaitsServed (.returned nonce outcome::log) := by
  intro nonce' outcome' before found
  rcases List.suffix_cons_iff.mp found with whole | within
  · obtain ⟨same,rfl⟩ := List.cons.inj whole
    obtain ⟨rfl,rfl⟩ := Event.returned.inj same
    exact ⟨valid,said⟩
  · exact served nonce' outcome' before within

theorem reachedMore {log : List Event} (reached : MenuReached log) {e : Event}
    (fits : ∀ r consumer, e = .delivered r consumer → .opened r.nonce ∈ log → consumer = .menu) :
    MenuReached (e::log) := by
  intro r consumer before found opened
  rcases List.suffix_cons_iff.mp found with whole | within
  · obtain ⟨same,rfl⟩ := List.cons.inj whole
    exact fits r consumer same.symm opened
  · exact reached r consumer before within opened

theorem claimLog (s : System) (timedOut : Bool) : (claimNext s timedOut).rx = s.rx ∧
    ((claimNext s timedOut).log = s.log ∨ ∃ e, (claimNext s timedOut).log = e::s.log ∧
      (∀ nonce, e ≠ .opened nonce) ∧ ∀ r consumer, e ≠ .delivered r consumer) := by
  cases at_ : s.claim with
  | idle | expired => simp only [claimNext,at_]; exact ⟨trivial,.inl trivial⟩
  | showing p stage | prompting p stage =>
    simp only [claimNext,at_]
    split
    · exact ⟨rfl,.inl rfl⟩
    · exact ⟨rfl,.inr ⟨_,rfl,by nofun,by nofun⟩⟩
  | waitArmed p | waitNonce p =>
    simp only [claimNext,at_]
    split
    · exact ⟨rfl,.inl rfl⟩
    · exact ⟨rfl,.inr ⟨_,rfl,by nofun,by nofun⟩⟩
  | waiting p =>
    simp only [claimNext,at_]
    split
    · exact ⟨rfl,.inl rfl⟩
    · split
      · exact ⟨rfl,.inr ⟨_,rfl,by nofun,by nofun⟩⟩
      · exact ⟨rfl,.inl rfl⟩
  | reading p =>
    simp only [claimNext,at_]
    exact ⟨trivial,.inr ⟨_,rfl,by nofun,by nofun⟩⟩

theorem menuIdle {s : System} (reached : MenuReached s.log) (idle : acceptedAt s.rx = none) : MenuServed s :=
  ⟨reached,fun _ accepted => nomatch idle.symm.trans accepted⟩

theorem acceptedPrompts (list : List Prompt) : acceptedAt (prompts list) = none := by
  cases list <;> rfl

theorem menuRx {s : System} (menu : MenuServed s) (apart : crosses s .rx = false) : MenuServed (rxNext s) := by
  cases at_ : s.rx with
  | idle => rw [rxNext,at_]; exact menu
  | prompting p stage rest =>
    simp only [rxNext,at_]
    split
    · exact menuIdle menu.reached rfl
    · exact menuIdle menu.reached (acceptedPrompts rest)
  | checkArmed r =>
    simp only [rxNext,at_]
    refine menuIdle menu.reached ?_
    dsimp only
    split <;> rfl
  | checkNonce r =>
    simp only [rxNext,at_]
    refine ⟨menu.reached,fun r' accepted => ?_⟩
    dsimp only at accepted ⊢
    split at accepted
    · rename_i same
      obtain rfl := Option.some.inj accepted
      simpa [crosses,at_,same] using apart
    · exact nomatch accepted
  | store r =>
    have fresh := menu.apart r (by rw [at_]; rfl)
    simp only [rxNext,at_]
    refine ⟨menu.reached,fun r' accepted => ?_⟩
    obtain rfl := Option.some.inj accepted
    exact fresh
  | disarm r =>
    have fresh := menu.apart r (by rw [at_]; rfl)
    simp only [rxNext,at_]
    refine ⟨menu.reached,fun r' accepted => ?_⟩
    obtain rfl := Option.some.inj accepted
    exact fresh
  | give r =>
    have fresh := menu.apart r (by rw [at_]; rfl)
    simp only [rxNext,at_]
    refine menuIdle (reachedMore menu.reached fun r' consumer same opened => ?_) rfl
    obtain ⟨rfl,rfl⟩ := Event.delivered.inj same
    exact absurd opened fresh
  | hand r =>
    simp only [rxNext,at_]
    refine menuIdle (reachedMore menu.reached fun r' consumer same _ => ?_) rfl
    obtain ⟨rfl,rfl⟩ := Event.delivered.inj same
    rfl

theorem menuStep {s : System} (menu : MenuServed s) {i : Input} (apart : crosses s i = false) :
    MenuServed (step s i) := by
  cases i with
  | showClaimCode nonce text | confirm nonce text =>
    simp only [step]
    split
    · exact ⟨menu.reached,menu.apart⟩
    · exact menu
  | claim timedOut =>
    obtain ⟨rx,log⟩ := claimLog s timedOut
    rcases log with same | ⟨e,more,unopened,undelivered⟩
    · exact ⟨by rw [step,same]; exact menu.reached,by rw [step,rx,same]; exact menu.apart⟩
    · refine ⟨?_,fun r accepted => ?_⟩
      · rw [step,more]
        exact reachedMore menu.reached fun r consumer same => absurd same (undelivered r consumer)
      · rw [step] at accepted ⊢
        rw [more,List.mem_cons]
        rw [rx] at accepted
        exact fun found => found.elim (fun same => unopened _ same.symm) (menu.apart r accepted)
  | button e =>
    simp only [step]
    split
    · refine menuIdle ?_ (acceptedPrompts _)
      dsimp only
      split
      · exact reachedMore menu.reached (by nofun)
      · exact menu.reached
    · exact menu
  | result r =>
    simp only [step]
    split
    · refine menuIdle menu.reached ?_
      dsimp only
      split <;> rfl
    · exact menu
  | rx => exact menuRx menu apart

/-- The prompt whose wait the claim task is in. -/
def awaited : ClaimPlace → Option Prompt
  | .waitArmed p => some p
  | .waitNonce p => some p
  | .waiting p => some p
  | .reading p => some p
  | _ => none

def reads : ClaimPlace → Bool
  | .reading _ => true
  | _ => false

/-- The slot is still armed for `p`, or its result is on the way. -/
def OpenFor (p : Prompt) (slot : Slot) : RxPlace → Prop
  | .disarm r => slot.armed = true ∧ (r.nonce = p.nonce → slot.result = r.result)
  | .give r => if r.nonce = p.nonce then slot.armed = false ∧ slot.result = r.result else slot.armed = true
  | .hand r => slot.armed = true ∧ r.nonce ≠ p.nonce
  | _ => slot.armed = true

/-- The receive task is at nothing that writes the slot. -/
def still : RxPlace → Bool
  | .idle => true
  | .prompting _ .nonce _ => true
  | .prompting _ .send _ => true
  | .checkArmed _ => true
  | .hand _ => true
  | _ => false

structure Answered (result : UInt8) (s : System) : Prop where
  result : s.slot.result = result
  disarmed : s.slot.armed = false
  given : s.slot.sig = !reads s.claim
  still : still s.rx = true

structure Unanswered (p : Prompt) (s : System) : Prop where
  open_ : OpenFor p s.slot s.rx
  quiet : s.slot.sig = false
  unread : reads s.claim = false

def Waits (p : Prompt) (s : System) : Prop :=
  match answer p.nonce s.log with
  | some result => Answered result s
  | none => Unanswered p s

structure Kept (s : System) : Prop where
  nonce : ∀ p, past .nonce s.claim = some p → s.slot.nonce = p.nonce
  armed : unseen s.claim = true → s.slot.armed = true
  ahead : unseen s.claim = true → ∀ r p, s.rx = .give r → past .armed s.claim = some p → r.nonce ≠ p.nonce
  drained : ∀ p, s.claim = .prompting p .send → s.slot.sig = false
  arms : ∀ p stage, s.claim = .prompting p stage → p.arms = true
  waits : ∀ p, awaited s.claim = some p → Waits p s
  served : WaitsServed s.log

theorem keptBoot : Kept .boot where
  nonce := by nofun
  armed := by nofun
  ahead := by nofun
  drained := by nofun
  arms := by nofun
  waits := by nofun
  served := fun _ _ _ found => nomatch List.suffix_nil.mp found

section
variable {s t : System}

theorem awaitedPast {claim : ClaimPlace} {p : Prompt} (at_ : awaited claim = some p) (stage : Stage) :
    past stage claim = some p := by
  cases claim with
  | idle | showing | prompting | expired => exact nomatch at_
  | waitArmed | waitNonce | waiting | reading => exact at_

theorem unseenPast {claim : ClaimPlace} (at_ : unseen claim = true) : ∃ p, past .armed claim = some p := by
  cases claim with
  | prompting p stage =>
    cases stage with
    | nonce | result | armed => exact nomatch at_
    | drain | send => exact ⟨p,rfl⟩
  | waitArmed p => exact ⟨p,rfl⟩
  | idle | showing | waitNonce | waiting | expired | reading => exact nomatch at_

theorem notClosed {claim : ClaimPlace} {stage : Stage} {p : Prompt} (open_ : past stage claim = some p) :
    past .nonce claim = some p := by
  cases claim with
  | prompting p' now =>
    simp only [past,Option.ite_none_right_eq_some] at open_ ⊢
    exact ⟨Nat.lt_of_le_of_lt (Nat.zero_le _) open_.1,open_.2⟩
  | idle | showing | expired => exact nomatch open_
  | waitArmed | waitNonce | waiting | reading => exact open_

theorem keptClosed (served : WaitsServed t.log) (closed : past .nonce t.claim = none)
    (arms : ∀ p stage, t.claim = .prompting p stage → p.arms = true) : Kept t := by
  have never : ∀ stage p, past stage t.claim ≠ some p := fun stage p open_ => by
    rw [notClosed open_] at closed
    exact nomatch closed
  exact {
    nonce := fun p open_ => absurd open_ (never _ p)
    armed := fun at_ => (unseenPast at_).elim fun p open_ => absurd open_ (never _ p)
    ahead := fun _ _ p _ open_ => absurd open_ (never _ p)
    drained := fun p at_ => absurd (show past .nonce t.claim = some p by rw [at_]; rfl) (never _ p)
    arms := arms
    waits := fun p at_ => absurd (awaitedPast at_ .nonce) (never _ p)
    served := served }

/-- The receive task has moved, and the claim task's part of the slot stands. -/
theorem keptRxMoved (kept : Kept s) (claim : t.claim = s.claim) (nonce : t.slot.nonce = s.slot.nonce)
    (armed : unseen s.claim = true → t.slot.armed = true)
    (ahead : unseen s.claim = true → ∀ r p, t.rx = .give r → past .armed s.claim = some p → r.nonce ≠ p.nonce)
    (drained : ∀ p, s.claim = .prompting p .send → t.slot.sig = false)
    (waits : ∀ p, awaited s.claim = some p → Waits p s → Waits p t) (served : WaitsServed t.log) : Kept t where
  nonce := fun p at_ => nonce.trans (kept.nonce p (claim ▸ at_))
  armed := fun at_ => armed (claim ▸ at_)
  ahead := fun at_ r p giving open_ => ahead (claim ▸ at_) r p giving (claim ▸ open_)
  drained := fun p at_ => drained p (claim ▸ at_)
  arms := fun p stage at_ => kept.arms p stage (claim ▸ at_)
  waits := fun p at_ => waits p (claim ▸ at_) (kept.waits p (claim ▸ at_))
  served := served

theorem waitsAnswered {p : Prompt} {r : UInt8} (answered : answer p.nonce s.log = some r) :
    Waits p s ↔ Answered r s := by
  rw [Waits,answered]

theorem waitsOpen {p : Prompt} (unanswered : answer p.nonce s.log = none) : Waits p s ↔ Unanswered p s := by
  rw [Waits,unanswered]

/-- A receive task that is about to write the slot has no answer behind it. -/
theorem waitsBusy {p : Prompt} (waits : Waits p s) (busy : still s.rx = false) :
    answer p.nonce s.log = none ∧ Unanswered p s := by
  cases found : answer p.nonce s.log with
  | none => exact ⟨rfl,(waitsOpen found).mp waits⟩
  | some result =>
    have answered := (waitsAnswered found).mp waits
    rw [answered.still] at busy
    exact nomatch busy

theorem waitsMoved {p : Prompt} (waits : Waits p s) (log : answer p.nonce t.log = answer p.nonce s.log)
    (answered : ∀ result, Answered result s → Answered result t) (open_ : Unanswered p s → Unanswered p t) :
    Waits p t := by
  cases found : answer p.nonce s.log with
  | none => exact (waitsOpen (log.trans found)).mpr (open_ ((waitsOpen found).mp waits))
  | some result => exact (waitsAnswered (log.trans found)).mpr (answered result ((waitsAnswered found).mp waits))

theorem keptPrompting (kept : Kept s) {p : Prompt} {stage : Stage} (at_ : s.claim = .prompting p stage)
    (timedOut : Bool) (apart : crosses s (.claim timedOut) = false) : Kept (claimNext s timedOut) := by
  have arms := kept.arms p stage at_
  have unheld : ∀ r, resultAt s.rx = some r → r.nonce ≠ p.nonce := by
    intro r held
    simpa [crosses,at_,carries,held] using apart
  cases stage with
  | nonce =>
    simp only [claimNext,at_,wupsLinkTrustPrompt,arms,if_true]
    exact {
      nonce := fun p' open_ => by obtain rfl := Option.some.inj open_; rfl
      armed := fun past => by cases past
      ahead := fun past => by cases past
      drained := fun _ at_ => by cases at_
      arms := fun p' stage same => by obtain ⟨rfl,_⟩ := ClaimPlace.prompting.inj same; exact arms
      waits := fun _ awaited => by cases awaited
      served := kept.served }
  | result =>
    simp only [claimNext,at_,wupsLinkTrustPrompt]
    exact {
      nonce := fun p' open_ => kept.nonce p' (by rw [at_]; exact open_)
      armed := fun past => by cases past
      ahead := fun past => by cases past
      drained := fun _ at_ => by cases at_
      arms := fun p' stage same => by obtain ⟨rfl,_⟩ := ClaimPlace.prompting.inj same; exact arms
      waits := fun _ awaited => by cases awaited
      served := kept.served }
  | armed =>
    simp only [claimNext,at_,wupsLinkTrustPrompt]
    exact {
      nonce := fun p' open_ => kept.nonce p' (by rw [at_]; exact open_)
      armed := fun _ => rfl
      ahead := fun _ r p' giving open_ => by
        obtain rfl := Option.some.inj open_
        exact unheld r (by rw [show s.rx = .give r from giving]; rfl)
      drained := fun _ at_ => by cases at_
      arms := fun p' stage same => by obtain ⟨rfl,_⟩ := ClaimPlace.prompting.inj same; exact arms
      waits := fun _ awaited => by cases awaited
      served := kept.served }
  | drain =>
    simp only [claimNext,at_,wupsLinkTrustPrompt]
    exact {
      nonce := fun p' open_ => kept.nonce p' (by rw [at_]; exact open_)
      armed := fun _ => kept.armed (by rw [at_]; rfl)
      ahead := fun _ r p' giving open_ => kept.ahead (by rw [at_]; rfl) r p' giving (by rw [at_]; exact open_)
      drained := fun _ _ => rfl
      arms := fun p' stage same => by obtain ⟨rfl,_⟩ := ClaimPlace.prompting.inj same; exact arms
      waits := fun _ awaited => by cases awaited
      served := kept.served }
  | send =>
    have armed := kept.armed (by rw [at_]; rfl)
    have drained := kept.drained p at_
    simp only [claimNext,at_,wupsLinkTrustPrompt]
    exact {
      nonce := fun p' open_ => kept.nonce p' (by rw [at_]; exact open_)
      armed := fun _ => armed
      ahead := fun _ r p' giving open_ => kept.ahead (by rw [at_]; rfl) r p' giving (by rw [at_]; exact open_)
      drained := fun _ at_ => by cases at_
      arms := fun _ _ at_ => by cases at_
      waits := fun p' same => by
        obtain rfl := Option.some.inj same
        refine (waitsOpen (by simp [answer])).mpr ⟨?_,drained,rfl⟩
        show OpenFor p s.slot s.rx
        cases rx : s.rx with
        | disarm r => exact ⟨armed,fun same => absurd same (unheld r (by rw [rx]; rfl))⟩
        | give r => rw [OpenFor,if_neg (unheld r (by rw [rx]; rfl))]; exact armed
        | hand r => exact ⟨armed,unheld r (by rw [rx]; rfl)⟩
        | idle | prompting | checkArmed | checkNonce | store => exact armed
      served := servedMore kept.served (fun _ _ same => by cases same) }

/-- The claim task has moved inside its wait, past the check of the flag. -/
theorem keptWaiting (kept : Kept s) {p : Prompt} (claim : t.claim = .waitNonce p ∨ t.claim = .waiting p ∨ t.claim = .reading p)
    (awaits : awaited s.claim = some p) (nonce : t.slot.nonce = s.slot.nonce) (waits : Waits p t)
    (served : WaitsServed t.log) : Kept t where
  nonce := fun p' open_ => by
    have here := kept.nonce p (awaitedPast awaits .nonce)
    rcases claim with at_ | at_ | at_ <;> rw [at_] at open_ <;> obtain rfl := Option.some.inj open_ <;>
      exact nonce.trans here
  armed := by rcases claim with at_ | at_ | at_ <;> rw [at_] <;> nofun
  ahead := by rcases claim with at_ | at_ | at_ <;> rw [at_] <;> nofun
  drained := by rcases claim with at_ | at_ | at_ <;> rw [at_] <;> nofun
  arms := by rcases claim with at_ | at_ | at_ <;> rw [at_] <;> nofun
  waits := fun p' same => by
    rcases claim with at_ | at_ | at_ <;> rw [at_] at same <;> obtain rfl := Option.some.inj same <;> exact waits
  served := served

theorem keptClaim (kept : Kept s) (timedOut : Bool) (apart : crosses s (.claim timedOut) = false) :
    Kept (claimNext s timedOut) := by
  cases at_ : s.claim with
  | idle => rw [claimNext,at_]; exact kept
  | showing p stage =>
    simp only [claimNext,at_]
    split
    · exact keptClosed kept.served rfl (by nofun)
    · exact keptClosed (servedMore kept.served (by nofun)) rfl (by nofun)
  | prompting p stage => exact keptPrompting kept at_ timedOut apart
  | waitArmed p =>
    have awaits : awaited s.claim = some p := by rw [at_]; rfl
    have waits := kept.waits p awaits
    simp only [claimNext,at_,kept.armed (by rw [at_]; rfl),if_true]
    refine keptWaiting kept (.inl rfl) awaits rfl (waitsMoved waits rfl ?_ ?_) kept.served
    · exact fun result a => ⟨a.result,a.disarmed,by rw [a.given,at_]; rfl,a.still⟩
    · exact fun u => ⟨u.open_,u.quiet,rfl⟩
  | waitNonce p =>
    have awaits : awaited s.claim = some p := by rw [at_]; rfl
    have waits := kept.waits p awaits
    simp only [claimNext,at_,kept.nonce p (awaitedPast awaits .nonce),if_true]
    refine keptWaiting kept (.inr (.inl rfl)) awaits rfl (waitsMoved waits rfl ?_ ?_) kept.served
    · exact fun result a => ⟨a.result,a.disarmed,by rw [a.given,at_]; rfl,a.still⟩
    · exact fun u => ⟨u.open_,u.quiet,rfl⟩
  | waiting p =>
    have awaits : awaited s.claim = some p := by rw [at_]; rfl
    have waits := kept.waits p awaits
    simp only [claimNext,at_]
    split
    · rename_i given
      refine keptWaiting kept (.inr (.inr rfl)) awaits rfl (waitsMoved waits rfl ?_ ?_) kept.served
      · exact fun result a => ⟨a.result,a.disarmed,rfl,a.still⟩
      · exact fun u => absurd (u.quiet.symm.trans given) (by decide)
    · rename_i ungiven
      split
      · refine keptClosed (servedReturned kept.served (by nofun) fun result => ?_) rfl (by nofun)
        cases found : answer p.nonce s.log with
        | none => exact ⟨by nofun,by nofun⟩
        | some a =>
          have given := ((waitsAnswered found).mp waits).given
          rw [at_] at given
          exact absurd given ungiven
      · exact kept
  | expired =>
    simp only [claimNext,at_]
    exact keptClosed kept.served rfl (by nofun)
  | reading p =>
    have waits := kept.waits p (by rw [at_]; rfl)
    simp only [claimNext,at_]
    refine keptClosed (servedReturned kept.served (by nofun) fun result => ?_) rfl (by nofun)
    cases found : answer p.nonce s.log with
    | none =>
      have unread := ((waitsOpen found).mp waits).unread
      rw [at_] at unread
      exact nomatch unread
    | some a =>
      have stored := ((waitsAnswered found).mp waits).result
      rw [stored,Outcome.ok.injEq,Option.some.injEq]

/-- The receive task on its way to no result: the slot stays as it is. -/
theorem keptRxPlace (kept : Kept s) {rx : RxPlace} (busy : still s.rx = true → still rx = true)
    (opens : ∀ p, OpenFor p s.slot s.rx → OpenFor p s.slot rx) (away : ∀ r, rx ≠ .give r) :
    Kept { s with rx } :=
  keptRxMoved kept rfl rfl kept.armed (fun _ r _ giving => absurd giving (away r)) kept.drained
    (fun _ _ waits => waitsMoved waits rfl
      (fun _ a => ⟨a.result,a.disarmed,a.given,busy a.still⟩) fun u => ⟨opens _ u.open_,u.quiet,u.unread⟩) kept.served

theorem waitsWritten {p : Prompt} (waits : Waits p s) (busy : still s.rx = false) (log : t.log = s.log)
    (open_ : Unanswered p s → Unanswered p t) : Waits p t := by
  obtain ⟨unanswered,u⟩ := waitsBusy waits busy
  exact (waitsOpen (log ▸ unanswered)).mpr (open_ u)

/-- The receive task's own steps through `wups_link_trust_prompt`. -/
theorem keptShowing (kept : Kept s) {q : Prompt} {stage : Stage} {rest : List Prompt}
    (at_ : s.rx = .prompting q stage rest) (apart : crosses s .rx = false) : Kept (rxNext s) := by
  cases stage with
  | nonce =>
    cases arms : q.arms with
    | true =>
      have closed : past .nonce s.claim = none := by simpa [crosses,at_,arms] using apart
      simp only [rxNext,at_,wupsLinkTrustPrompt,arms,if_true]
      exact keptClosed kept.served closed kept.arms
    | false =>
      simp only [rxNext,at_,wupsLinkTrustPrompt,arms,Bool.false_eq_true,if_false]
      exact keptRxPlace kept (fun _ => rfl) (fun p open_ => by rw [at_] at open_; exact open_) (fun _ away => by cases away)
  | result =>
    simp only [rxNext,at_,wupsLinkTrustPrompt]
    refine keptRxMoved kept rfl rfl kept.armed (fun _ _ _ giving => by cases giving) kept.drained
      (fun p _ waits => ?_) kept.served
    refine waitsWritten waits (by rw [at_]; rfl) rfl fun u => ⟨?_,u.quiet,u.unread⟩
    have open_ := u.open_
    rw [at_] at open_
    exact open_
  | armed =>
    simp only [rxNext,at_,wupsLinkTrustPrompt]
    refine keptRxMoved kept rfl rfl (fun _ => rfl) (fun _ _ _ giving => by cases giving) kept.drained
      (fun p _ waits => ?_) kept.served
    exact waitsWritten waits (by rw [at_]; rfl) rfl fun u => ⟨rfl,u.quiet,u.unread⟩
  | drain =>
    simp only [rxNext,at_,wupsLinkTrustPrompt]
    refine keptRxMoved kept rfl rfl kept.armed (fun _ _ _ giving => by cases giving) (fun _ _ => rfl)
      (fun p _ waits => ?_) kept.served
    refine waitsWritten waits (by rw [at_]; rfl) rfl fun u => ⟨?_,rfl,u.unread⟩
    have open_ := u.open_
    rw [at_] at open_
    exact open_
  | send =>
    simp only [rxNext,at_,wupsLinkTrustPrompt]
    have opens : ∀ p, OpenFor p s.slot s.rx → s.slot.armed = true := fun p open_ => by
      rw [at_] at open_
      exact open_
    cases rest with
    | nil => exact keptRxPlace kept (fun _ => rfl) opens (fun _ away => by cases away)
    | cons next rest => exact keptRxPlace kept (fun _ => rfl) opens (fun _ away => by cases away)

theorem ownNonce {open_ : Option Prompt} {nonce : UInt32} (own : open_.any (·.nonce != nonce) = false) {p : Prompt}
    (at_ : open_ = some p) : p.nonce = nonce := by
  rw [at_] at own
  simpa using own

theorem keptRx (kept : Kept s) (apart : crosses s .rx = false) : Kept (rxNext s) := by
  cases at_ : s.rx with
  | idle => rw [rxNext,at_]; exact kept
  | prompting q stage rest => exact keptShowing kept at_ apart
  | checkArmed r =>
    simp only [rxNext,at_]
    split
    · rename_i armed
      refine keptRxMoved kept rfl rfl kept.armed (by nofun) kept.drained (fun p _ waits => ?_) kept.served
      refine waitsMoved waits rfl (fun _ a => ?_) fun u => ⟨armed,u.quiet,u.unread⟩
      exact absurd (armed.symm.trans a.disarmed) (by decide)
    · rename_i unarmed
      refine keptRxPlace kept (fun _ => rfl) (fun p open_ => ?_) (by nofun)
      rw [at_] at open_
      exact absurd open_ unarmed
  | checkNonce r =>
    simp only [rxNext,at_]
    split
    · refine keptRxMoved kept rfl rfl kept.armed (by nofun) kept.drained (fun p _ waits => ?_) kept.served
      refine waitsWritten waits (by rw [at_]; rfl) rfl fun u => ⟨?_,u.quiet,u.unread⟩
      have open_ := u.open_
      rw [at_] at open_
      exact open_
    · rename_i other
      refine keptRxMoved kept rfl rfl kept.armed (by nofun) kept.drained (fun p awaits waits => ?_) kept.served
      refine waitsWritten waits (by rw [at_]; rfl) rfl fun u => ⟨⟨?_,fun same => ?_⟩,u.quiet,u.unread⟩
      · have open_ := u.open_
        rw [at_] at open_
        exact open_
      · exact other (same.trans (kept.nonce p (awaitedPast awaits .nonce)).symm)
  | store r =>
    simp only [rxNext,at_]
    refine keptRxMoved kept rfl rfl kept.armed (by nofun) kept.drained (fun p _ waits => ?_) kept.served
    refine waitsWritten waits (by rw [at_]; rfl) rfl fun u => ⟨⟨?_,fun _ => rfl⟩,u.quiet,u.unread⟩
    have open_ := u.open_
    rw [at_] at open_
    exact open_
  | disarm r =>
    simp only [crosses,at_,Bool.or_eq_false_iff] at apart
    obtain ⟨seen,own⟩ := apart
    simp only [rxNext,at_]
    refine keptRxMoved kept rfl rfl (fun at_ => absurd (at_.symm.trans seen) (by decide))
      (fun at_ => absurd (at_.symm.trans seen) (by decide)) kept.drained (fun p awaits waits => ?_) kept.served
    refine waitsWritten waits (by rw [at_]; rfl) rfl fun u => ⟨?_,u.quiet,u.unread⟩
    have same := (ownNonce own (awaitedPast awaits .armed)).symm
    have open_ := u.open_
    rw [at_] at open_
    show if r.nonce = p.nonce then _ else _
    rw [if_pos same]
    exact ⟨rfl,open_.2 same⟩
  | give r =>
    simp only [crosses,at_] at apart
    simp only [rxNext,at_]
    refine keptRxMoved kept rfl rfl kept.armed (by nofun) (fun p sending => ?_) (fun p awaits waits => ?_)
      (servedMore kept.served (by nofun))
    · have same := ownNonce apart (p := p) (by rw [sending]; rfl)
      have apart := kept.ahead (by rw [sending]; rfl) r p at_ (by rw [sending]; rfl)
      exact absurd same.symm apart
    · have same := (ownNonce apart (awaitedPast awaits .drain)).symm
      obtain ⟨unanswered,u⟩ := waitsBusy waits (by rw [at_]; rfl)
      have open_ := u.open_
      rw [at_,OpenFor,if_pos same] at open_
      refine (waitsAnswered (r := r.result) ?_).mpr ⟨open_.2,open_.1,by rw [u.unread]; rfl,rfl⟩
      simp [answer,unanswered,same]
  | hand r =>
    simp only [rxNext,at_]
    refine keptRxMoved kept rfl rfl kept.armed (by nofun) kept.drained (fun p _ waits => ?_)
      (servedMore kept.served (by nofun))
    cases found : answer p.nonce s.log with
    | some result =>
      have a := (waitsAnswered found).mp waits
      exact (waitsAnswered (r := result) (by simp [answer,found])).mpr ⟨a.result,a.disarmed,a.given,rfl⟩
    | none =>
      have u := (waitsOpen found).mp waits
      have open_ := u.open_
      rw [at_] at open_
      exact (waitsOpen (by simp [answer,found,open_.2])).mpr ⟨open_.1,u.quiet,u.unread⟩

theorem keptStep (kept : Kept s) {i : Input} (apart : crosses s i = false) : Kept (step s i) := by
  cases i with
  | showClaimCode nonce text =>
    simp only [step]
    split
    · exact keptClosed kept.served rfl (by nofun)
    · exact kept
  | confirm nonce text =>
    simp only [step]
    split
    · refine keptClosed kept.served rfl fun p stage same => ?_
      obtain ⟨rfl,_⟩ := ClaimPlace.prompting.inj same
      rfl
    · exact kept
  | claim timedOut => exact keptClaim kept timedOut apart
  | button e =>
    simp only [step]
    split
    · rename_i idle
      have moved : still (prompts (buttonPrompts s.menu e).2) = true ∧
          ∀ p, OpenFor p s.slot s.rx → OpenFor p s.slot (prompts (buttonPrompts s.menu e).2) := by
        rw [idle]
        cases (buttonPrompts s.menu e).2 with
        | nil => exact ⟨rfl,fun _ open_ => open_⟩
        | cons q rest => exact ⟨rfl,fun _ open_ => open_⟩
      have away : ∀ r, prompts (buttonPrompts s.menu e).2 ≠ .give r := by
        cases (buttonPrompts s.menu e).2 <;> nofun
      refine keptRxMoved kept rfl rfl kept.armed (fun _ r _ giving => absurd giving (away r)) kept.drained
        (fun p _ waits => ?_) ?_
      · refine waitsMoved waits ?_ (fun _ a => ⟨a.result,a.disarmed,a.given,moved.1⟩)
          fun u => ⟨moved.2 p u.open_,u.quiet,u.unread⟩
        dsimp only
        split <;> rfl
      · dsimp only
        split
        · exact servedMore kept.served (by nofun)
        · exact kept.served
    · exact kept
  | result r =>
    simp only [step]
    split
    · rename_i idle
      refine keptRxPlace kept (fun _ => ?_) (fun p open_ => ?_) fun r' giving => ?_
      · split <;> rfl
      · rw [idle] at open_
        split <;> exact open_
      · split at giving <;> exact nomatch giving
    · exact kept
  | rx => exact keptRx kept apart

theorem keptRun (kept : Kept s) (menu : MenuServed s) {inputs : List Input} (apart : ApartRun s inputs) :
    Kept (runFrom s inputs) ∧ MenuServed (runFrom s inputs) := by
  induction inputs generalizing s with
  | nil => exact ⟨kept,menu⟩
  | cons i rest ih => exact ih (keptStep kept apart.1) (menuStep menu apart.1) apart.2

def Input.isRx : Input → Bool
  | .rx => true
  | _ => false

def rxTurns (inputs : List Input) : Nat := inputs.countP Input.isRx

theorem logStep (s : System) (i : Input) : s.log <:+ (step s i).log := by
  cases i with
  | showClaimCode | confirm =>
    simp only [step]
    split <;> exact List.suffix_refl _
  | claim timedOut =>
    obtain ⟨_,same | ⟨e,more,_⟩⟩ := claimLog s timedOut
    · rw [step,same]
    · rw [step,more]; exact List.suffix_cons e s.log
  | button e =>
    simp only [step]
    split
    · dsimp only
      split
      · exact List.suffix_cons _ s.log
      · exact List.suffix_refl _
    · exact List.suffix_refl _
  | result r =>
    simp only [step]
    split <;> exact List.suffix_refl _
  | rx =>
    cases at_ : s.rx with
    | idle | checkArmed | checkNonce | store | disarm => simp only [step,rxNext,at_]; exact List.suffix_refl _
    | prompting q stage rest =>
      simp only [step,rxNext,at_]
      split <;> exact List.suffix_refl _
    | give r | hand r => simp only [step,rxNext,at_]; exact List.suffix_cons _ s.log

theorem logRun (s : System) (inputs : List Input) : s.log <:+ (runFrom s inputs).log := by
  induction inputs generalizing s with
  | nil => exact List.suffix_refl _
  | cons i rest ih => exact (logStep s i).trans (ih (step s i))

theorem resultHeld {r : TrustResult} (held : resultAt s.rx = some r) {i : Input} (other : i.isRx = false) :
    (step s i).rx = s.rx := by
  have busy : s.rx ≠ .idle := fun idle => by rw [idle] at held; exact nomatch held
  cases i with
  | showClaimCode | confirm =>
    simp only [step]
    split <;> rfl
  | claim timedOut => exact (claimLog s timedOut).1
  | button | result => simp only [step,if_neg busy]
  | rx => exact nomatch other

/-- The steps from the dispatch of a result to the menu. -/
def toMenu : RxPlace → Nat
  | .checkArmed _ => 3
  | .checkNonce _ => 2
  | .hand _ => 1
  | _ => 0

theorem toMenuLe (rx : RxPlace) : toMenu rx ≤ 3 := by cases rx <;> simp [toMenu]

theorem handed (menu : MenuServed s) {r : TrustResult} (held : resultAt s.rx = some r) (opened : .opened r.nonce ∈ s.log)
    {rest : List Input} (apart : ApartRun s rest) (turns : toMenu s.rx ≤ rxTurns rest) :
    .delivered r .menu ∈ (runFrom s rest).log := by
  induction rest generalizing s with
  | nil =>
    have free := menu.apart r
    cases at_ : s.rx with
    | idle | prompting => rw [at_] at held; exact nomatch held
    | store | disarm | give => rw [at_] at held free; exact absurd opened (free held)
    | checkArmed | checkNonce | hand => rw [at_] at turns; exact absurd turns (by simp [toMenu,rxTurns])
  | cons i rest ih =>
    have next := menuStep menu apart.1
    have opened' := (logStep s i).subset opened
    cases turn : i.isRx with
    | false =>
      have same := resultHeld held turn
      refine ih next (by rw [same]; exact held) opened' apart.2 ?_
      simpa [same,rxTurns,List.countP_cons,turn] using turns
    | true =>
      cases i with
      | rx =>
        have fewer : toMenu s.rx ≤ rxTurns rest + 1 := by simpa [rxTurns,List.countP_cons,turn] using turns
        have free := menu.apart r
        cases at_ : s.rx with
        | idle | prompting => rw [at_] at held; exact nomatch held
        | store | disarm | give => rw [at_] at held free; exact absurd opened (free held)
        | checkArmed r' =>
          rw [at_] at held fewer
          have moved : (step s .rx).rx = if s.slot.armed then .checkNonce r' else .hand r' := by
            simp only [step,rxNext,at_]
          refine ih next ?_ opened' apart.2 ?_
          · rw [moved]; split <;> exact held
          · rw [moved]
            simp only [toMenu] at fewer
            split <;> simp only [toMenu] <;> omega
        | checkNonce r' =>
          rw [at_] at held fewer
          obtain rfl := Option.some.inj held
          have other : r'.nonce ≠ s.slot.nonce := fun same => by
            have crossing := apart.1
            simp [crosses,at_,← same,opened] at crossing
          have moved : (step s .rx).rx = .hand r' := by simp only [step,rxNext,at_,if_neg other]
          refine ih next (by rw [moved]; rfl) opened' apart.2 ?_
          rw [moved]
          simp only [toMenu] at fewer ⊢
          omega
        | hand r' =>
          rw [at_] at held
          obtain rfl := Option.some.inj held
          refine (logRun (step s .rx) rest).subset ?_
          simp only [step,rxNext,at_]
          exact .head _
      | showClaimCode | confirm | claim | button | result => exact nomatch turn

/-- From `s` to `t` the prompt's wait is given the result, or ends. -/
def Given (r : TrustResult) (p : Prompt) (s t : System) : Prop :=
  ∃ new, t.log = new ++ s.log ∧ (.delivered r .claim ∈ new ∨ ∃ outcome, .returned p.nonce outcome ∈ new)

section
variable {r : TrustResult} {p : Prompt}

theorem Given.now {e : Event} (log : t.log = e::s.log)
    (is : e = .delivered r .claim ∨ ∃ outcome, e = .returned p.nonce outcome) : Given r p s t := by
  refine ⟨[e],log,?_⟩
  rcases is with rfl | ⟨outcome,rfl⟩
  · exact .inl (.head _)
  · exact .inr ⟨outcome,.head _⟩

theorem Given.later {u : System} (given : Given r p s t) (more : t.log <:+ u.log) : Given r p s u := by
  obtain ⟨new,log,is⟩ := given
  obtain ⟨rest,log'⟩ := more
  refine ⟨rest ++ new,by rw [List.append_assoc,← log,log'],?_⟩
  rcases is with done | ⟨outcome,ended⟩
  · exact .inl (List.mem_append_right _ done)
  · exact .inr ⟨outcome,List.mem_append_right _ ended⟩

theorem Given.earlier {u : System} (given : Given r p t u) (more : s.log <:+ t.log) : Given r p s u := by
  obtain ⟨new,log,is⟩ := given
  obtain ⟨rest,log'⟩ := more
  refine ⟨new ++ rest,by rw [List.append_assoc,log',log],?_⟩
  rcases is with done | ⟨outcome,ended⟩
  · exact .inl (List.mem_append_left _ done)
  · exact .inr ⟨outcome,List.mem_append_left _ ended⟩

theorem awaitedNext (awaits : awaited s.claim = some p) (open_ : Unanswered p s) (timedOut : Bool) :
    (∃ outcome, (claimNext s timedOut).log = .returned p.nonce outcome::s.log) ∨
      (awaited (claimNext s timedOut).claim = some p ∧ (claimNext s timedOut).log = s.log) := by
  cases at_ : s.claim with
  | idle | showing | prompting | expired => rw [at_] at awaits; exact nomatch awaits
  | waitArmed p' | waitNonce p' =>
    obtain rfl : p' = p := by rw [at_] at awaits; exact Option.some.inj awaits
    simp only [claimNext,at_]
    split
    · exact .inr ⟨rfl,rfl⟩
    · exact .inl ⟨_,rfl⟩
  | waiting p' =>
    obtain rfl : p' = p := by rw [at_] at awaits; exact Option.some.inj awaits
    simp only [claimNext,at_,open_.quiet,Bool.false_eq_true,if_false]
    split
    · exact .inl ⟨_,rfl⟩
    · exact .inr ⟨awaits,rfl⟩
  | reading =>
    have unread := open_.unread
    rw [at_] at unread
    exact nomatch unread

/-- The steps from the dispatch of a result to the claim. -/
def toClaim : RxPlace → Nat
  | .checkArmed _ => 5
  | .checkNonce _ => 4
  | .store _ => 3
  | .disarm _ => 2
  | .give _ => 1
  | _ => 0

theorem toClaimLe (rx : RxPlace) : toClaim rx ≤ 5 := by cases rx <;> simp [toClaim]

theorem rxTowards (kept : Kept s) (awaits : awaited s.claim = some p) (open_ : OpenFor p s.slot s.rx)
    (held : resultAt s.rx = some r) (own : r.nonce = p.nonce) :
    ((rxNext s).log = .delivered r .claim::s.log ∧ toClaim s.rx = 1) ∨
      ((rxNext s).log = s.log ∧ resultAt (rxNext s).rx = some r ∧ toClaim s.rx = toClaim (rxNext s).rx+1) := by
  cases at_ : s.rx with
  | idle | prompting => rw [at_] at held; exact nomatch held
  | checkArmed r' =>
    rw [at_] at held open_
    simp only [rxNext,at_,if_pos (show s.slot.armed = true from open_)]
    exact .inr ⟨trivial,held,rfl⟩
  | checkNonce r' =>
    rw [at_] at held
    obtain rfl := Option.some.inj held
    have same : r'.nonce = s.slot.nonce := own.trans (kept.nonce p (awaitedPast awaits .nonce)).symm
    simp only [rxNext,at_,if_pos same]
    exact .inr ⟨trivial,rfl,rfl⟩
  | store r' | disarm r' =>
    rw [at_] at held
    simp only [rxNext,at_]
    exact .inr ⟨trivial,held,rfl⟩
  | give r' =>
    rw [at_] at held
    obtain rfl := Option.some.inj held
    simp only [rxNext,at_]
    exact .inl ⟨trivial,rfl⟩
  | hand r' =>
    rw [at_] at held open_
    obtain rfl := Option.some.inj held
    exact absurd own open_.2

theorem rxClaim (s : System) : (rxNext s).claim = s.claim := by
  cases at_ : s.rx with
  | prompting p stage rest =>
    simp only [rxNext,at_]
    split <;> rfl
  | idle | checkArmed | checkNonce | store | disarm | give | hand => simp only [rxNext,at_]

theorem givenWithin (kept : Kept s) (awaits : awaited s.claim = some p) (unanswered : answer p.nonce s.log = none)
    (held : resultAt s.rx = some r) (own : r.nonce = p.nonce) {rest : List Input} (apart : ApartRun s rest)
    (turns : toClaim s.rx ≤ rxTurns rest) : Given r p s (runFrom s rest) := by
  induction rest generalizing s with
  | nil =>
    have open_ := (waitsOpen unanswered).mp (kept.waits p awaits)
    have none : toClaim s.rx = 0 := Nat.le_zero.mp turns
    rcases rxTowards kept awaits open_.open_ held own with ⟨_,last⟩ | ⟨_,_,more⟩ <;> omega
  | cons i rest ih =>
    have open_ := (waitsOpen unanswered).mp (kept.waits p awaits)
    have next := keptStep kept apart.1
    have busy : s.rx ≠ .idle := fun idle => by rw [idle] at held; exact nomatch held
    have engaged : s.claim ≠ .idle := fun idle => by rw [idle] at awaits; exact nomatch awaits
    have stands (same : step s i = s) (other : i.isRx = false) : Given r p s (runFrom s (i::rest)) := by
      have tail := apart.2
      rw [same] at tail
      have enough : toClaim s.rx ≤ rxTurns rest := by simpa [rxTurns,List.countP_cons,other] using turns
      have given := ih kept awaits unanswered held tail enough
      rwa [runFrom,List.foldl_cons,same]
    cases i with
    | showClaimCode | confirm => exact stands (if_neg engaged) rfl
    | button | result => exact stands (if_neg busy) rfl
    | claim timedOut =>
      rcases awaitedNext awaits open_ timedOut with ⟨outcome,log⟩ | ⟨awaits',log⟩
      · exact (Given.now log (.inr ⟨outcome,rfl⟩)).later (logRun (step s (.claim timedOut)) rest)
      · have rx := (claimLog s timedOut).1
        have given : Given r p (step s (.claim timedOut)) _ :=
          ih next awaits' (by rw [step,log]; exact unanswered) (by rw [step,rx]; exact held) apart.2
            (by simpa [step,rx,rxTurns,List.countP_cons,Input.isRx] using turns)
        exact given.earlier (logStep s (.claim timedOut))
    | rx =>
      rcases rxTowards kept awaits open_.open_ held own with ⟨log,_⟩ | ⟨log,held',nearer⟩
      · exact (Given.now log (.inl rfl)).later (logRun (step s .rx) rest)
      · have enough : toClaim s.rx ≤ rxTurns rest+1 := by
          simpa [rxTurns,List.countP_cons,Input.isRx] using turns
        have given : Given r p (step s .rx) _ :=
          ih next (by rw [step,rxClaim]; exact awaits) (by rw [step,log]; exact unanswered) held' apart.2
            (show toClaim (rxNext s).rx ≤ rxTurns rest by omega)
        exact given.earlier (logStep s .rx)

end

end

structure TrustServed (s : System) : Prop where
  waits : WaitsServed s.log
  menu : MenuServed s
  reaches : ∀ r rest, resultAt s.rx = some r → .opened r.nonce ∈ s.log → ApartRun s rest → 3 ≤ rxTurns rest →
    .delivered r .menu ∈ (runFrom s rest).log
  taken : ∀ r rest, s.rx = .idle → r.version = 1 → .opened r.nonce ∈ s.log → ApartRun s (.result r::rest) →
    3 ≤ rxTurns rest → .delivered r .menu ∈ (runFrom s (.result r::rest)).log
  answers : ∀ r p rest, s.rx = .idle → r.version = 1 → r.nonce = p.nonce → awaited s.claim = some p →
    answer p.nonce s.log = none → ApartRun s (.result r::rest) → 5 ≤ rxTurns rest →
    Given r p s (runFrom s (.result r::rest))

theorem trustServed (inputs : List Input) (apart : ApartRun .boot inputs) : TrustServed (runFrom .boot inputs) := by
  have idle : MenuServed .boot := menuIdle (fun _ _ _ found => nomatch List.suffix_nil.mp found) rfl
  obtain ⟨kept,menu⟩ := keptRun keptBoot idle apart
  generalize runFrom .boot inputs = s at kept menu
  have dispatched {r} (idle : s.rx = .idle) (known : r.version = 1) : (step s (.result r)).rx = .checkArmed r := by
    simp [step,idle,known]
  exact {
    waits := kept.served
    menu := menu
    reaches := fun r rest held opened apart turns => handed menu held opened apart (Nat.le_trans (toMenuLe _) turns)
    taken := fun r rest idle known opened apart turns =>
      handed (menuStep menu apart.1) (by rw [dispatched idle known]; rfl) ((logStep s (.result r)).subset opened) apart.2
        (Nat.le_trans (toMenuLe _) turns)
    answers := fun r p rest idle known own awaits unanswered apart turns => by
      have held : resultAt (step s (.result r)).rx = some r := by rw [dispatched idle known]; rfl
      have same : (step s (.result r)).claim = s.claim ∧ (step s (.result r)).log = s.log := by simp [step,idle]
      have given := givenWithin (keptStep kept apart.1) (by rw [same.1]; exact awaits) (by rw [same.2]; exact unanswered)
        held own apart.2 (Nat.le_trans (toClaimLe _) turns)
      exact given.earlier (logStep s (.result r)) }

/-! A claim's prompt with the nonce 7 and a menu session with the nonce 9. -/

def claimSteps (n : Nat) : List Input := List.replicate n (.claim false)
def rxSteps (n : Nat) : List Input := List.replicate n .rx
def answered (nonce : UInt32) : List Input := .result ⟨1,nonce,0⟩::rxSteps 5

def press (button action : UInt8) : List Input := .button ⟨button,action,9,false,fun _ => []⟩::rxSteps 2

/-- The menu is opened during the wait and closed again, before the owner confirms. -/
def menuRun : List Input :=
  .confirm 7 []::claimSteps 7 ++ press 0xFF 2 ++ answered 9 ++ answered 7 ++ claimSteps 2

theorem trustServedMenu : TrustServed (runFrom .boot menuRun) ∧ (runFrom .boot menuRun).log =
    [.returned 7 (.ok 0),.delivered ⟨1,7,0⟩ .claim,.delivered ⟨1,9,0⟩ .menu,.opened 9,
      .sent ⟨trustModeFingerprint,trustConfirmSecs,7,[]⟩] :=
  ⟨trustServed menuRun (by decide +kernel),by decide +kernel⟩

/-- The answer comes before the wait. -/
def earlyRun : List Input := .confirm 7 []::claimSteps 5 ++ answered 7 ++ claimSteps 1

/-- The fund-address page is opened during the wait. -/
def pageRun : List Input :=
  .confirm 7 []::claimSteps 7 ++ press 0xFF 2 ++ press 0 0 ++ press 0 0 ++ press 0 0 ++ press 0 0 ++
    press 1 0 ++ press 1 0 ++ rxSteps 3 ++ answered 9 ++ claimSteps 2

theorem earlyLog : (runFrom .boot earlyRun).log =
    [.returned 7 .invalidState,.delivered ⟨1,7,0⟩ .claim,.sent ⟨trustModeFingerprint,trustConfirmSecs,7,[]⟩] := by
  decide +kernel

theorem pageLog : (runFrom .boot pageRun).log =
    [.returned 7 (.ok 0),.delivered ⟨1,9,0⟩ .claim,.opened 9,.sent ⟨trustModeFingerprint,trustConfirmSecs,7,[]⟩] := by
  decide +kernel

/-- The early answer is lost to its wait; the page's answer ends the claim's wait. -/
theorem trustMixed : ¬WaitsServed (runFrom .boot earlyRun).log ∧
    ¬MenuReached (runFrom .boot pageRun).log ∧ ¬WaitsServed (runFrom .boot pageRun).log := by
  rw [earlyLog,pageLog]
  refine ⟨fun served => ?_,fun reached => ?_,fun served => ?_⟩
  · exact (served 7 .invalidState _ (List.suffix_refl _)).1 rfl
  · exact nomatch reached ⟨1,9,0⟩ .claim _ (List.suffix_cons _ _) (.head _)
  · exact absurd (((served 7 (.ok 0) _ (List.suffix_refl _)).2 0).mp rfl) (by decide)

end Web3PiUps.WupsTrust
