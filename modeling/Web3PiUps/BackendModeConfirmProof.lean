import Web3PiUps.BackendModeConfirm

/-! The confirmation is emitted once in every boot that meets the condition. -/
namespace Web3PiUps.BackendModeConfirm
open StepMachine MqttReceipts
open MqttDispatchQueue (Queue)

theorem emittedAppend (ts : List Nat) (a b : List Event) :
    emitted ts (a ++ b) = emitted ts a + emitted (ts ++ tokens a) b := by
  induction a generalizing ts with
  | nil => simp [emitted,tokens]
  | cons e rest ih =>
    cases e with
    | submitted token => simp [emitted,tokens,ih]
    | queued entity => simp [emitted,tokens,ih,Nat.add_assoc]
    | sdkTook token => simp [emitted,tokens,ih,Nat.add_assoc]

theorem tokensAppend (a b : List Event) : tokens (a ++ b) = tokens a ++ tokens b := List.filterMap_append

/-! What the other users of the MQTT runtime do to a receipt and to its message. -/

section Others
variable {m : Runtime} {t : Nat}

theorem takenToken {other : Other} (took : .sdkTook t ∈ taken m other) :
    ∃ rc now k, other = .finish rc now ∧ 0 ≤ rc ∧ m.claimed = some k ∧ k.item.token = t := by
  cases other with
  | finish rc now =>
    simp only [taken] at took
    split at took
    · rename_i sent
      cases busy : m.claimed with
      | none => simp [busy] at took
      | some k =>
        simp only [busy,Option.map_some,Option.toList_some,List.mem_singleton,Event.sdkTook.injEq] at took
        exact ⟨rc,now,k,rfl,sent,rfl,took.symm⟩
    · exact absurd took List.not_mem_nil
  | _ => exact absurd took List.not_mem_nil

theorem takenAlone {other : Other} (took : .sdkTook t ∈ taken m other) : taken m other = [.sdkTook t] := by
  obtain ⟨rc,now,k,rfl,sent,busy,rfl⟩ := takenToken took
  simp [taken,sent,busy]

theorem takenSilent (other : Other) : tokens (taken m other) = [] := by
  cases other with
  | finish rc now =>
    simp only [taken]
    split
    · cases m.claimed <;> rfl
    · rfl
  | _ => rfl

theorem takenLeaves (ledger : Ledger m) {other : Other} (took : .sdkTook t ∈ taken m other) :
    Carried t m.queue ∧ ¬Carried t (MqttReceipts.step m other.call).1.queue := by
  obtain ⟨rc,now,k,rfl,sent,busy,rfl⟩ := takenToken took
  have holds := ledger.claim k busy
  obtain ⟨a,e,books⟩ := ledger.books
  have listed : (if 0 ≤ rc ∨ MqttDispatchQueue.expired k.item now then [k.item.token] else []) = [k.item.token] :=
    if_pos (Or.inl sent)
  have left := (finishEndings holds now).trans listed
  have queue : (MqttReceipts.step m (Other.finish rc now).call).1.queue = (MqttDispatchQueue.step m.queue
      (.finish (some k) (if 0 ≤ rc then MqttDispatchQueue.dispatchSent else MqttDispatchQueue.dispatchRetry)
        now (now+1000))).1 := by
    simp only [MqttReceipts.step,Other.call,ownerFinish,busy]
    rfl
  constructor
  · obtain ⟨j,-,flying,item⟩ := holds
    exact ⟨j,by simp [MqttQueueScans.Held,flying],by rw [item]⟩
  · rw [queue,carriedStep books,left]
    exact fun both => both.2 (List.mem_singleton.mpr rfl)

theorem otherKeeps (ledger : Ledger m) (other : Other) (i : Fin receiptCapacity) (held : (m.receipts i).token ≠ 0) :
    (MqttReceipts.step m other.call).1.receipts i = m.receipts i ∨
    ((MqttReceipts.step m other.call).1.receipts i).token = (m.receipts i).token ∧
      Final ((MqttReceipts.step m other.call).1.receipts i).status ∧ Carried (m.receipts i).token m.queue := by
  cases change ledger other.call i with
  | same kept => exact .inl kept
  | settled _ token final before => exact .inr ⟨token,final,before⟩
  | released _ why => cases other <;> rcases why with forget | ⟨take,-⟩ <;> first | exact nomatch forget | exact nomatch take
  | issued free => exact absurd free held

theorem settledTaken {other : Other} {i : Fin receiptCapacity}
    (before : (m.receipts i).status = .pending)
    (after : ((MqttReceipts.step m other.call).1.receipts i).status = .sdkAccepted) :
    .sdkTook (m.receipts i).token ∈ taken m other := by
  have failing : ∀ {c : Prop} [Decidable c] {r : Receipt}, r = (if c then { m.receipts i with status := .failed }
      else m.receipts i) → r.status ≠ .sdkAccepted := by
    intro c _ r same
    rw [same]
    split <;> simp [before]
  cases other with
  | publish p available now =>
    refine absurd after ?_
    change ((submit m { p with tracked := false } available now).1.receipts i).status ≠ .sdkAccepted
    rcases submitOutcome m { p with tracked := false } available now with
      ⟨same,-⟩ | ⟨⟨moved,-⟩,-⟩ | ⟨slot,tracked,-,-,moved⟩
    · rw [same,before]
      exact ReceiptStatus.noConfusion
    · rw [moved,before]
      exact ReceiptStatus.noConfusion
    · cases slot with
      | some j => exact absurd (tracked.mpr (Option.some_ne_none j)) Bool.false_ne_true
      | none =>
        rw [moved]
        exact failing (settledReceipt _ _ i)
  | sweep now | monitor now =>
    refine absurd after (failing (c := (m.receipts i).token ∈ (MqttDispatchQueue.expire m.queue now).2) ?_)
    simp only [MqttReceipts.step,Other.call,MqttReceipts.monitor,expireReceipts,finishAll]
  | claim now =>
    refine absurd after ?_
    simp only [MqttReceipts.step,Other.call,ownerClaim]
    split <;> simp [before]
  | finish rc now =>
    simp only [MqttReceipts.step,Other.call,ownerFinish] at after
    cases busy : m.claimed with
    | none =>
      rw [busy] at after
      cases before.symm.trans after
    | some k =>
      simp only [busy] at after
      by_cases sent : 0 ≤ rc
      · rw [if_pos sent,finishStatus] at after
        by_cases own : (m.receipts i).token = k.item.token
        · simp [taken,sent,busy,own]
        · rw [if_neg own,before] at after
          cases after
      · rw [if_neg sent] at after
        refine absurd after ?_
        split
        · exact failing (finishStatus _ _ _ i)
        · simp [before]
  | sdkStopped now => cases before.symm.trans after

theorem takenStatus {other : Other} {i : Fin receiptCapacity} (took : .sdkTook (m.receipts i).token ∈ taken m other) :
    ((MqttReceipts.step m other.call).1.receipts i).status = .sdkAccepted := by
  obtain ⟨rc,now,k,rfl,sent,busy,own⟩ := takenToken took
  simp [MqttReceipts.step,Other.call,ownerFinish,busy,sent,finishStatus,own]

end Others

/-! The books of a boot. `past` is what has happened in it. -/

structure Outstanding (curMode : UInt8) (marker : Option UInt8) (s : State) (past : List Event) : Prop where
  mqtt : curMode = wupsBackendModeMqtt
  fresh : ¬Stale curMode marker
  listed : s.confirm.receipt ∈ tokens past
  alone : ∀ token, token ∈ tokens past → Carried token s.mqtt.queue → token = s.confirm.receipt
  slot : ∃ i, (s.mqtt.receipts i).token = s.confirm.receipt ∧
    ((s.mqtt.receipts i).status = .sdkAccepted → emitted [] past = 1) ∧
    ((s.mqtt.receipts i).status = .failed → emitted [] past = 0)

/-- No confirmation is out, and none is on its way. -/
def Clear (s : State) (past : List Event) : Prop :=
  emitted [] past = 0 ∧ ∀ token, token ∈ tokens past → ¬Carried token s.mqtt.queue

structure Books (curMode : UInt8) (marker : Option UInt8) (s : State) (past : List Event) : Prop where
  mode : s.curMode = curMode
  ledger : Ledger s.mqtt
  known : ∀ token, token ∈ tokens past → token ≠ 0 ∧ token ≤ s.mqtt.queue.lastToken
  once : emitted [] past ≤ 1
  carried : ∀ token, token ∈ tokens past → Carried token s.mqtt.queue →
    emitted [] past = 0 ∧ ∀ other, other ∈ tokens past → Carried other s.mqtt.queue → other = token
  slots : ∀ token, token ∈ tokens past → ∀ i, (s.mqtt.receipts i).token = token → token = s.confirm.receipt
  view : s.nvs.prevMode = marker ∨ s.nvs.prevMode = none
  erased : s.nvs.prevMode ≠ marker ∨ s.nvs.flash ≠ marker → emitted [] past = 1 ∨ Stale curMode marker
  idle : s.confirm.done = false → s.confirm.sdkAccepted = false → s.confirm.receipt = 0 →
    s.nvs.prevMode ≠ none → Clear s past
  outstanding : s.confirm.receipt ≠ 0 → Outstanding curMode marker s past
  accepted : s.confirm.sdkAccepted = true → emitted [] past = 1 ∧ s.confirm.receipt = 0 ∧
    ∀ token, token ∈ tokens past → ¬Carried token s.mqtt.queue
  finished : s.confirm.done = true → s.confirm.receipt = 0

section Books
variable {curMode : UInt8} {marker : Option UInt8} {s : State} {past : List Event}

theorem bootBooks (health : MqttHealth.Health) : Books curMode marker (boot curMode marker health) [] where
  mode := rfl
  ledger := bootLedger health
  known _ none := nomatch none
  once := Nat.zero_le 1
  carried _ none := nomatch none
  slots _ none := nomatch none
  view := .inl rfl
  erased apart := by simp [boot] at apart
  idle _ _ _ _ := ⟨rfl,fun _ none => nomatch none⟩
  outstanding out := absurd rfl out
  accepted out := nomatch out
  finished out := nomatch out

/-! Whatever happens in the MQTT runtime, nothing of the past comes back. -/

theorem keepsSlots (h : Books curMode marker s past) (c : Call) {token : Nat} (mem : token ∈ tokens past)
    (i : Fin receiptCapacity) (at_ : ((MqttReceipts.step s.mqtt c).1.receipts i).token = token) :
    token = s.confirm.receipt := by
  have held : ((MqttReceipts.step s.mqtt c).1.receipts i).token ≠ 0 := at_ ▸ (h.known token mem).1
  rcases tokenAfter (change h.ledger c i) held with same | ⟨fresh,-⟩
  · exact h.slots token mem i (same.symm.trans at_)
  · rw [at_] at fresh
    exact absurd (h.known token mem).2 (Nat.not_le_of_lt fresh)

theorem keepsGone (h : Books curMode marker s past) (c : Call) {token : Nat} (mem : token ∈ tokens past)
    (after : Carried token (MqttReceipts.step s.mqtt c).1.queue) : Carried token s.mqtt.queue := by
  by_contra before
  exact staysGone h.ledger c (h.known token mem).2 before after

theorem keepsKnown (h : Books curMode marker s past) (c : Call) {token : Nat} (mem : token ∈ tokens past) :
    token ≠ 0 ∧ token ≤ (MqttReceipts.step s.mqtt c).1.queue.lastToken :=
  ⟨(h.known token mem).1,(h.known token mem).2.trans (tokensGrow h.ledger c)⟩

theorem otherBooks (h : Books curMode marker s past) (other : Other) :
    Books curMode marker (step s (.mqtt other)).1 (past ++ (step s (.mqtt other)).2) := by
  change Books curMode marker { s with mqtt := (MqttReceipts.step s.mqtt other.call).1 } (past ++ taken s.mqtt other)
  have toks : tokens (past ++ taken s.mqtt other) = tokens past := by
    rw [tokensAppend,takenSilent,List.append_nil]
  have count : emitted [] (past ++ taken s.mqtt other) = emitted [] past + emitted (tokens past) (taken s.mqtt other) :=
    emittedAppend [] past _
  have gone := fun token (mem : token ∈ tokens past) => keepsGone h other.call mem
  have known := fun token (mem : token ∈ tokens past) => keepsKnown h other.call mem
  by_cases own : ∃ token, token ∈ tokens past ∧ .sdkTook token ∈ taken s.mqtt other
  · obtain ⟨token,mem,took⟩ := own
    obtain ⟨before,after⟩ := takenLeaves h.ledger took
    obtain ⟨none_,only⟩ := h.carried token mem before
    have one : emitted [] (past ++ taken s.mqtt other) = 1 := by
      rw [count,none_,takenAlone took]
      simp [emitted,mem]
    have left : ∀ u, u ∈ tokens past → ¬Carried u (MqttReceipts.step s.mqtt other.call).1.queue := by
      intro u mem' still
      rw [only u mem' (gone u mem' still)] at still
      exact after still
    refine ⟨h.mode,ledgerStep h.ledger other.call,?_,one.le,?_,?_,h.view,fun _ => .inl one,?_,?_,?_,h.finished⟩
    · rw [toks]
      exact known
    · rw [toks]
      exact fun u mem' still => absurd still (left u mem')
    · rw [toks]
      exact fun u mem' i at_ => keepsSlots h other.call mem' i at_
    · intro busy unaccepted idle marked
      exact absurd before ((h.idle busy unaccepted idle marked).2 token mem)
    · intro out
      obtain ⟨mqtt,fresh,listed,alone,i,at_,-,-⟩ := h.outstanding out
      have same := alone token mem before
      rw [same,← at_] at took
      have status := takenStatus took
      have held : (s.mqtt.receipts i).token ≠ 0 := at_ ▸ out
      refine ⟨mqtt,fresh,by rw [toks]; exact listed,?_,i,?_,fun _ => one,fun failed => nomatch status.symm.trans failed⟩
      · rw [toks]
        exact fun u mem' still => absurd still (left u mem')
      · rcases otherKeeps h.ledger other i held with kept | ⟨kept,-⟩
        · exact (congrArg Receipt.token kept).trans at_
        · exact kept.trans at_
    · intro accepted
      exact absurd before ((h.accepted accepted).2.2 token mem)
  · have silent : emitted (tokens past) (taken s.mqtt other) = 0 := by
      cases other with
      | finish rc now =>
        simp only [taken] at own ⊢
        split
        · rename_i sent
          cases busy : s.mqtt.claimed with
          | none => rfl
          | some k =>
            rw [if_pos sent,busy] at own
            have foreign : k.item.token ∉ tokens past := fun mem => own ⟨_,mem,List.mem_singleton.mpr rfl⟩
            simp [emitted,foreign]
        · rfl
      | _ => rfl
    rw [silent,Nat.add_zero] at count
    refine ⟨h.mode,ledgerStep h.ledger other.call,?_,?_,?_,?_,h.view,?_,?_,?_,?_,h.finished⟩
    · rw [toks]
      exact known
    · rw [count]
      exact h.once
    · rw [toks,count]
      intro token mem still
      obtain ⟨none_,only⟩ := h.carried token mem (gone token mem still)
      exact ⟨none_,fun u mem' still' => only u mem' (gone u mem' still')⟩
    · rw [toks]
      exact fun u mem' i at_ => keepsSlots h other.call mem' i at_
    · rw [count]
      exact h.erased
    · intro busy unaccepted idle marked
      obtain ⟨none_,left⟩ := h.idle busy unaccepted idle marked
      exact ⟨count.trans none_,by rw [toks]; exact fun u mem' still => left u mem' (gone u mem' still)⟩
    · intro out
      obtain ⟨mqtt,fresh,listed,alone,i,at_,acc,failed⟩ := h.outstanding out
      have held : (s.mqtt.receipts i).token ≠ 0 := at_ ▸ out
      refine ⟨mqtt,fresh,by rw [toks]; exact listed,?_,i,?_⟩
      · rw [toks]
        exact fun u mem' still => alone u mem' (gone u mem' still)
      · rw [count]
        rcases otherKeeps h.ledger other i held with kept | ⟨kept,-,before⟩
        · change ((MqttReceipts.step s.mqtt other.call).1.receipts i).token = _ ∧ _
          rw [kept]
          exact ⟨at_,acc,failed⟩
        · refine ⟨kept.trans at_,fun accepted => ?_,fun _ => ?_⟩
          · have took := settledTaken ((h.ledger.pending i held).mpr before) accepted
            exact absurd ⟨_,at_ ▸ listed,took⟩ own
          · exact (h.carried _ (at_ ▸ listed) before).1
    · intro accepted
      obtain ⟨one,idle,left⟩ := h.accepted accepted
      exact ⟨count.trans one,idle,by rw [toks]; exact fun u mem' still => left u mem' (gone u mem' still)⟩

theorem clearView (env : Env) (nvs : Nvs) : (clearPostSwitchMarker env nvs).1.prevMode = nvs.prevMode ∨
    (clearPostSwitchMarker env nvs).1.prevMode = none := by
  have erase : (nvsErasePrevMode env nvs).1.prevMode = nvs.prevMode ∨ (nvsErasePrevMode env nvs).1.prevMode = none := by
    unfold nvsErasePrevMode
    split
    · exact .inl rfl
    · split
      · exact .inl rfl
      · exact .inr rfl
  have commit : ∀ nvs, (nvsCommit env nvs).1.prevMode = nvs.prevMode := by
    intro nvs
    unfold nvsCommit
    split <;> rfl
  unfold clearPostSwitchMarker
  split
  · exact .inl rfl
  · dsimp only
    split
    · exact erase
    · rw [commit]
      exact erase

theorem clearErases {env : Env} (erases : Erases env) (nvs : Nvs) :
    (clearPostSwitchMarker env nvs).1.prevMode = none := by
  obtain ⟨opened,fine⟩ := erases
  unfold clearPostSwitchMarker nvsErasePrevMode nvsCommit
  cases marker : nvs.prevMode with
  | none => cases commits : env.commits <;> simp [opened,fine,marker]
  | some prev => cases commits : env.commits <;> simp [opened,fine]

theorem readMarker {env : Env} {nvs : Nvs} (read : (nvsGetPrevMode env nvs).1 = .ok) :
    nvs.prevMode = some (nvsGetPrevMode env nvs).2 := by
  unfold nvsGetPrevMode at read ⊢
  split at read
  · exact nomatch read
  · rename_i fine
    rw [if_neg fine]
    split at read
    · exact nomatch read
    · rename_i found
      rw [found]

theorem bootMarker (h : Books curMode marker s past) {prev : UInt8} (read : s.nvs.prevMode = some prev) :
    marker = some prev := by
  rcases h.view with same | none_
  · exact same.symm.trans read
  · exact nomatch none_.symm.trans read

theorem finishBooks (h : Books curMode marker s past) (env : Env) (busy : s.confirm.done = false)
    (idle : s.confirm.receipt = 0) (why : emitted [] past = 1 ∨ Stale curMode marker) :
    Books curMode marker (finishConfirm env s) past where
  mode := h.mode
  ledger := h.ledger
  known := h.known
  once := h.once
  carried := h.carried
  slots := h.slots
  view := by
    rcases clearView env s.nvs with same | none_
    · exact same ▸ h.view
    · exact .inr none_
  erased _ := why
  idle := by
    intro _ unaccepted _ marked
    have still := (clearView env s.nvs).resolve_right marked
    exact h.idle busy unaccepted idle (still ▸ marked)
  outstanding out := absurd idle out
  accepted := h.accepted
  finished _ := idle

theorem forgetBooks (h : Books curMode marker s past) :
    Books curMode marker { forgetReceipt s with confirm := { (forgetReceipt s).confirm with done := true } } past := by
  by_cases none_ : s.confirm.receipt = 0
  · have same : forgetReceipt s = s := by simp [forgetReceipt,none_]; rw [← none_]
    rw [same]
    exact ⟨h.mode,h.ledger,h.known,h.once,h.carried,h.slots,h.view,h.erased,(fun h => by cases h),
      fun out => absurd none_ out,h.accepted,fun _ => none_⟩
  · have forgot : (forgetReceipt s).mqtt = (MqttReceipts.step s.mqtt (.forget s.confirm.receipt)).1 := by
      simp [forgetReceipt,none_,MqttReceipts.step]
    have queue : (forgetReceipt s).mqtt.queue = s.mqtt.queue := by rw [forgot]; rfl
    refine ⟨h.mode,?_,?_,h.once,?_,?_,h.view,h.erased,(fun h => by cases h),fun out => absurd rfl out,?_,fun _ => rfl⟩
    · exact forgot ▸ ledgerStep h.ledger _
    · exact queue ▸ h.known
    · exact queue ▸ h.carried
    · intro token mem i at_
      have held : (s.mqtt.receipts i).token = token ∧ token ≠ s.confirm.receipt := by
        change ((forgetReceipt s).mqtt.receipts i).token = token at at_
        simp only [forgot,MqttReceipts.step,receiptForget] at at_
        split at at_
        · exact absurd at_.symm (h.known token mem).1
        · rename_i other
          exact ⟨at_,at_ ▸ other⟩
      exact absurd (h.slots token mem i held.1) held.2
    · intro accepted
      exact absurd (h.accepted accepted).2.1 none_

def released (s : State) : State :=
  let taken := receiptTake s.mqtt s.confirm.receipt
  { s with mqtt := taken.1, confirm := ⟨0,decide (taken.2 = .sdkAccepted),s.confirm.done⟩ }

theorem takeBooks (h : Books curMode marker s past) (out : s.confirm.receipt ≠ 0)
    (final : (receiptTake s.mqtt s.confirm.receipt).2 ≠ .pending) :
    Books curMode marker (released s) past ∧
    ((receiptTake s.mqtt s.confirm.receipt).2 = .sdkAccepted → emitted [] past = 1) := by
  obtain ⟨mqtt,fresh,listed,alone,i,at_,acc,failed⟩ := h.outstanding out
  have answer := takeAnswer h.ledger out at_
  have held : (s.mqtt.receipts i).token ≠ 0 := at_ ▸ out
  have settled : (s.mqtt.receipts i).status ≠ .pending := answer ▸ final
  have left : ∀ token, token ∈ tokens past → ¬Carried token s.mqtt.queue := by
    intro token mem still
    rw [alone token mem still,← at_] at still
    exact settled ((h.ledger.pending i held).mpr still)
  have queue : (receiptTake s.mqtt s.confirm.receipt).1.queue = s.mqtt.queue := by
    rcases takeOutcome s.mqtt s.confirm.receipt with ⟨same,-⟩ | ⟨j,-,-,moved⟩
    · rw [same]
    · rw [moved]
  have one : (receiptTake s.mqtt s.confirm.receipt).2 = .sdkAccepted → emitted [] past = 1 := by
    rw [answer]
    exact acc
  refine ⟨⟨h.mode,ledgerStep h.ledger (.take _),queue ▸ h.known,h.once,queue ▸ h.carried,?_,h.view,h.erased,?_,
    fun out => absurd rfl out,?_,fun _ => rfl⟩,one⟩
  · intro token mem j at'
    -- the slot of the receipt is free now, and no other one has a token of ours
    rcases takeOutcome s.mqtt s.confirm.receipt with ⟨-,⟨-,none_ | missing⟩ | ⟨k,-,-,reply⟩⟩ | ⟨k,here,-,moved⟩
    · exact absurd none_ out
    · exact absurd at_ (missing i)
    · exact absurd reply final
    · change ((receiptTake s.mqtt s.confirm.receipt).1.receipts j).token = token at at'
      rw [moved] at at'
      change (Function.update s.mqtt.receipts k _ j).token = token at at'
      by_cases mine : j = k
      · subst mine
        rw [Function.update_self] at at'
        exact absurd at'.symm (h.known token mem).1
      · rw [Function.update_of_ne mine] at at'
        have same := h.slots token mem j at'
        have distinct := h.ledger.distinct j k (at' ▸ (h.known token mem).1) (at'.trans (same.trans here.symm))
        exact absurd distinct mine
  · intro _ unaccepted _ _
    refine ⟨failed ?_,queue ▸ left⟩
    have refused : (s.mqtt.receipts i).status ≠ .sdkAccepted := by
      rw [← answer]
      exact of_decide_eq_false unaccepted
    have stated := h.ledger.stated i held
    cases status : (s.mqtt.receipts i).status with
    | failed => rfl
    | unknown => exact absurd status stated
    | pending => exact absurd status settled
    | sdkAccepted => exact absurd status refused
  · intro accepted
    exact ⟨one (of_decide_eq_true accepted),rfl,queue ▸ left⟩

theorem submitReply (m : Runtime) (ledger : Ledger m) (p : Publication) (tracked : p.tracked = true) (available : Bool)
    (now : Nat) :
    ((submit m p available now).2.rc < 0 ∧ (submit m p available now).2.receipt = 0) ∨
    0 ≤ (submit m p available now).2.rc ∧ (submit m p available now).2.receipt = m.queue.lastToken + 1 ∧
      ∃ i, (submit m p available now).1.receipts i = ⟨m.queue.lastToken + 1,.pending⟩ := by
  have refusal : ∀ result, result ≠ MqttDispatchQueue.SubmitResult.accepted → submitCode result < 0 := by
    intro result refused
    cases result <;> first | exact absurd rfl refused | decide
  unfold submit
  split
  · exact .inl ⟨by simp,rfl⟩
  · dsimp only
    split
    · exact .inl ⟨by simp,rfl⟩
    · rename_i room
      split
      · rename_i accepted
        obtain ⟨token,-⟩ := submitAnswer ledger _ accepted
        refine .inr ⟨le_refl _,token,?_⟩
        · cases found : freeReceipt m.receipts with
          | none => exact absurd ⟨tracked,found⟩ room
          | some i =>
            refine ⟨i,?_⟩
            rw [token]
            exact Function.update_self i _ _
      · rename_i refused
        exact .inl ⟨refusal _ refused,rfl⟩

/-- `mqtt_publish_tracked` was not reached, or was called. -/
theorem emitOutcome (env : Env) (mode : UInt8) (m : Runtime) (from_ to_ : UInt8) (pending : Bool) (receipt : Nat) :
    emitViaMqtt env mode m from_ to_ pending (some receipt) = (m,.fail,some receipt) ∨
    ∃ p available now, p.tracked = true ∧ emitViaMqtt env mode m from_ to_ pending (some receipt) =
      ((submit m p available now).1,if 0 ≤ (submit m p available now).2.rc then .ok else .fail,
        some (submit m p available now).2.receipt) := by
  unfold emitViaMqtt
  dsimp only
  split
  · exact .inl rfl
  · split
    · exact .inl rfl
    · exact .inr ⟨_,_,_,rfl,rfl⟩

theorem submitBooks (h : Books curMode marker s past) (mqtt : s.curMode = wupsBackendModeMqtt) (busy : s.confirm.done = false)
    (unaccepted : s.confirm.sdkAccepted = false) (idle : s.confirm.receipt = 0) (fresh : ¬Stale curMode marker)
    (clear : Clear s past) (p : Publication) (tracked : p.tracked = true) (available : Bool) (now : Nat) :
    Books curMode marker { s with
        mqtt := (submit s.mqtt p available now).1
        confirm := { s.confirm with receipt := (submit s.mqtt p available now).2.receipt } }
      (past ++ if 0 ≤ (submit s.mqtt p available now).2.rc
        then [.submitted (submit s.mqtt p available now).2.receipt] else []) := by
  obtain ⟨none_,left⟩ := clear
  have gone := fun token (mem : token ∈ tokens past) => keepsGone h (.submit p available now) mem
  have known := fun token (mem : token ∈ tokens past) => keepsKnown h (.submit p available now) mem
  have slots := fun token (mem : token ∈ tokens past) i => keepsSlots h (.submit p available now) mem i
  have left' : ∀ token, token ∈ tokens past → ¬Carried token (submit s.mqtt p available now).1.queue :=
    fun token mem still => left token mem (gone token mem still)
  have ledger := ledgerStep h.ledger (.submit p available now)
  have unlisted : ∀ token, token ∈ tokens past → ∀ i, ((submit s.mqtt p available now).1.receipts i).token ≠ token :=
    fun token mem i at_ => (h.known token mem).1 ((slots token mem i at_).trans idle)
  rcases submitReply s.mqtt h.ledger p tracked available now with ⟨refused,zero⟩ | ⟨ok,token,i,slot⟩
  · rw [if_neg (not_le_of_gt refused),List.append_nil,zero]
    refine ⟨h.mode,ledger,known,h.once,fun token mem still => absurd still (left' token mem),
      fun token mem i at_ => absurd at_ (unlisted token mem i),h.view,h.erased,fun _ _ _ _ => ⟨none_,left'⟩,
      fun out => absurd rfl out,?_,fun _ => rfl⟩
    exact fun accepted => nomatch unaccepted.symm.trans accepted
  · rw [if_pos ok,token]
    have held : ((submit s.mqtt p available now).1.receipts i).token ≠ 0 := by
      rw [slot]
      exact Nat.succ_ne_zero _
    have carried : Carried (s.mqtt.queue.lastToken + 1) (submit s.mqtt p available now).1.queue := by
      have there := (ledger.pending i held).mp (congrArg Receipt.status slot)
      change Carried ((submit s.mqtt p available now).1.receipts i).token _ at there
      rwa [slot] at there
    have newest := ledger.known i
    change ((submit s.mqtt p available now).1.receipts i).token ≤ _ at newest
    rw [slot] at newest
    have toks : tokens (past ++ [.submitted (s.mqtt.queue.lastToken + 1)]) = tokens past ++ [s.mqtt.queue.lastToken + 1] := by
      rw [tokensAppend]
      rfl
    have count : emitted [] (past ++ [.submitted (s.mqtt.queue.lastToken + 1)]) = 0 := by
      rw [emittedAppend,none_]
      rfl
    have only : ∀ token, token ∈ tokens past ++ [s.mqtt.queue.lastToken + 1] →
        Carried token (submit s.mqtt p available now).1.queue → token = s.mqtt.queue.lastToken + 1 := by
      intro token mem still
      rcases List.mem_append.mp mem with old | new
      · exact absurd still (left' token old)
      · exact List.mem_singleton.mp new
    refine ⟨h.mode,ledger,?_,count.le.trans (Nat.zero_le 1),?_,?_,h.view,?_,?_,?_,?_,?_⟩
    · rw [toks]
      intro token mem
      rcases List.mem_append.mp mem with old | new
      · exact known token old
      · rw [List.mem_singleton.mp new]
        exact ⟨Nat.succ_ne_zero _,newest⟩
    · rw [toks]
      exact fun token mem still => ⟨count,fun u mem' still' => (only u mem' still').trans (only token mem still).symm⟩
    · rw [toks]
      intro token mem j at_
      rcases List.mem_append.mp mem with old | new
      · exact absurd at_ (unlisted token old j)
      · exact List.mem_singleton.mp new
    · exact fun apart => .inr ((h.erased apart).resolve_left fun one => nomatch none_.symm.trans one)
    · exact fun _ _ zero => absurd zero (Nat.succ_ne_zero _)
    · refine fun _ => ⟨h.mode.symm.trans mqtt,fresh,
        by rw [toks]; exact List.mem_append_right _ (List.mem_singleton.mpr rfl),?_,i,?_⟩
      · rw [toks]
        exact only
      · change ((submit s.mqtt p available now).1.receipts i).token = _ ∧ _
        rw [slot]
        exact ⟨rfl,nofun,nofun⟩
    · exact fun accepted => nomatch unaccepted.symm.trans accepted
    · exact fun done => nomatch busy.symm.trans done

theorem queueBooks (h : Books curMode marker s past) (env : Env) (erases : Erases env) (entity : ArkivOpsTxData.CreateOp)
    (idle : s.confirm.receipt = 0) (unaccepted : s.confirm.sdkAccepted = false) (clear : Clear s past) :
    Books curMode marker (finishConfirm env s) (past ++ [.queued entity]) := by
  obtain ⟨none_,left⟩ := clear
  have toks : tokens (past ++ [.queued entity]) = tokens past := by
    rw [tokensAppend]
    exact List.append_nil _
  have one : emitted [] (past ++ [.queued entity]) = 1 := by
    rw [emittedAppend,none_]
    rfl
  have gone := clearErases erases s.nvs
  refine ⟨h.mode,h.ledger,toks ▸ h.known,one.le,?_,toks ▸ h.slots,.inr gone,fun _ => .inl one,
    fun _ _ _ marked => absurd gone marked,fun out => absurd idle out,?_,fun _ => idle⟩
  · rw [toks]
    exact fun token mem still => absurd still (left token mem)
  · exact fun accepted => nomatch unaccepted.symm.trans accepted

theorem mqttBooks (h : Books curMode marker s past) (mqtt : s.curMode = wupsBackendModeMqtt) (env : Env) {prev : UInt8}
    (busy : s.confirm.done = false)
    (unaccepted : s.confirm.sdkAccepted = false) (read : s.nvs.prevMode = some prev) (fresh : ¬Stale curMode marker) :
    Books curMode marker (confirmViaMqtt env s prev).1 (past ++ (confirmViaMqtt env s prev).2) := by
  unfold confirmViaMqtt
  split
  · rename_i idle
    rcases emitOutcome env s.curMode s.mqtt prev s.curMode false s.confirm.receipt with unsent | ⟨p,available,now,tracked,sent⟩
    · simp only [unsent,Option.getD_some]
      rw [if_neg (by decide),List.append_nil]
      exact h
    · have clear := h.idle busy unaccepted idle (by rw [read]; exact Option.some_ne_none _)
      have books := submitBooks h mqtt busy unaccepted idle fresh clear p tracked available now
      simp only [sent,Option.getD_some]
      split at books
      · rename_i ok
        rw [if_pos ok,if_pos rfl]
        exact books
      · rename_i refused
        rw [if_neg refused,if_neg (by decide)]
        exact books
  · rename_i out
    dsimp only
    split
    · rename_i pending
      rw [List.append_nil]
      rcases takeOutcome s.mqtt s.confirm.receipt with ⟨same,-⟩ | ⟨k,-,settled,moved⟩
      · rw [same]
        exact h
      · rw [moved] at pending
        exact absurd pending settled
    · rename_i final
      obtain ⟨books,one⟩ := takeBooks h out final
      split
      · rename_i refused
        rw [released,decide_eq_false refused] at books
        rw [List.append_nil,unaccepted]
        exact books
      · rename_i accepted
        have admitted := not_not.mp accepted
        rw [released,decide_eq_true admitted] at books
        rw [List.append_nil]
        exact finishBooks books env busy rfl (.inl (one admitted))

theorem elsewhereBooks (h : Books curMode marker s past) (env : Env) {prev : UInt8} (busy : s.confirm.done = false)
    (unaccepted : s.confirm.sdkAccepted = false) (idle : s.confirm.receipt = 0) (read : s.nvs.prevMode = some prev)
    (elsewhere : s.curMode ≠ wupsBackendModeMqtt) (erases : WriterTakes env s → Erases env) :
    Books curMode marker (confirmElsewhere env s prev).1 (past ++ (confirmElsewhere env s prev).2) := by
  have quiet : ∀ err, err ≠ EspErr.ok → emitModeChanged env s.curMode s.mqtt prev s.curMode false = (s.mqtt,err,[]) →
      Books curMode marker (confirmElsewhere env s prev).1 (past ++ (confirmElsewhere env s prev).2) := by
    intro err failed run
    rw [confirmElsewhere,run,if_pos failed,List.append_nil]
    exact h
  by_cases arkiv : s.curMode = wupsBackendModeArkiv
  · have run : emitModeChanged env s.curMode s.mqtt prev s.curMode false = (s.mqtt,emitViaArkiv env prev s.curMode false) := by
      rw [emitModeChanged,if_neg elsewhere,if_pos arkiv]
    by_cases takes : env.claimed = true ∧ env.writerReady = true ∧ env.enqueued = true
    · obtain ⟨claimed,ready,enqueued⟩ := takes
      have out : emitViaArkiv env prev s.curMode false = (.ok,[.queued (modeChangedEntity env prev s.curMode false)]) := by
        simp [emitViaArkiv,claimed,ready,enqueued]
      have clear := h.idle busy unaccepted idle (by rw [read]; exact Option.some_ne_none _)
      rw [confirmElsewhere,run,out,if_neg (not_not_intro rfl)]
      exact queueBooks h env (erases ⟨arkiv,claimed,ready,enqueued⟩) _ idle unaccepted clear
    · have out : ∃ err, err ≠ EspErr.ok ∧ emitViaArkiv env prev s.curMode false = (err,[]) := by
        unfold emitViaArkiv
        split
        · exact ⟨_,by decide,rfl⟩
        · rename_i claimed
          split
          · exact ⟨_,by decide,rfl⟩
          · rename_i ready
            rw [if_neg fun enqueued => takes ⟨by simpa using claimed,by simpa using ready,enqueued⟩]
            exact ⟨_,by decide,rfl⟩
      obtain ⟨err,failed,out⟩ := out
      exact quiet err failed (by rw [run,out])
  · by_cases http : s.curMode = wupsBackendModeHttp
    · exact quiet .notSupported (by decide) (by rw [emitModeChanged,if_neg elsewhere,if_neg arkiv,if_pos http])
    · exact quiet .invalidState (by decide) (by rw [emitModeChanged,if_neg elsewhere,if_neg arkiv,if_neg http])

theorem confirmBooks (h : Books curMode marker s past) (env : Env) (meets : Meets s (.confirm env)) :
    Books curMode marker (emitPostSwitchConfirm env s).1 (past ++ (emitPostSwitchConfirm env s).2) := by
  obtain ⟨erases,present⟩ := meets
  unfold emitPostSwitchConfirm
  split
  · rw [List.append_nil]
    exact h
  rename_i busy
  have busy := Bool.eq_false_iff.mpr busy
  split
  · rename_i accepted
    obtain ⟨one,idle,-⟩ := h.accepted accepted
    rw [List.append_nil]
    exact finishBooks h env busy idle (.inl one)
  rename_i unaccepted
  have unaccepted := Bool.eq_false_iff.mpr unaccepted
  split
  · rename_i missing
    have idle : s.confirm.receipt = 0 := by
      by_contra out
      exact present out missing
    rw [List.append_nil]
    exact ⟨h.mode,h.ledger,h.known,h.once,h.carried,h.slots,h.view,h.erased,nofun,fun out => absurd idle out,h.accepted,
      fun _ => idle⟩
  rename_i found
  split
  · rw [List.append_nil]
    exact h
  rename_i fine
  have opened : env.openRead = .ok := by
    cases err : env.openRead with
    | ok => rfl
    | notFound => exact absurd err found
    | failed => exact absurd err fine
  dsimp only
  split
  · rw [List.append_nil]
    exact forgetBooks h
  rename_i some_
  split
  · rw [List.append_nil]
    exact h
  rename_i whole
  have read : (nvsGetPrevMode env s.nvs).1 = .ok := by
    cases err : (nvsGetPrevMode env s.nvs).1 with
    | ok => rfl
    | notFound => exact absurd err some_
    | failed => exact absurd err whole
  have here := readMarker read
  have first := bootMarker h here
  generalize value : (nvsGetPrevMode env s.nvs).2 = prev at here first ⊢
  split
  · rename_i why
    have stale : Stale curMode marker := ⟨prev,first,h.mode ▸ why⟩
    have idle : s.confirm.receipt = 0 := by
      by_contra out
      exact (h.outstanding out).fresh stale
    have same : forgetReceipt (finishConfirm env s) = finishConfirm env s := by
      simp [forgetReceipt,finishConfirm,idle]
    rw [List.append_nil,same]
    exact finishBooks h env busy idle (.inr stale)
  · rename_i announced
    have announced := not_or.mp announced
    have fresh : ¬Stale curMode marker := by
      intro ⟨other,same,why⟩
      obtain rfl := Option.some.inj (first.symm.trans same)
      rcases why with unknown | same
      · exact announced.1 unknown
      · exact announced.2 (same.trans h.mode.symm)
    split
    · rename_i mqtt
      exact mqttBooks h mqtt env busy unaccepted here fresh
    · rename_i elsewhere
      have idle : s.confirm.receipt = 0 := by
        by_contra out
        exact elsewhere (h.mode.trans (h.outstanding out).mqtt)
      have announces : Announces env s := by
        refine ⟨⟨busy,unaccepted⟩,opened,read,?_,?_⟩
        · rw [value]
          exact Bool.eq_true_of_not_eq_false announced.1
        · rw [value]
          exact announced.2
      exact elsewhereBooks h env busy unaccepted idle here elsewhere (erases announces)

theorem runBooks (h : Books curMode marker s past) {inputs : List Input} (meets : AllMeet s inputs) :
    Books curMode marker (final step s inputs) (past ++ history s inputs) := by
  induction inputs generalizing s past with
  | nil =>
    rw [history,outsNil,List.flatten_nil,List.append_nil]
    exact h
  | cons input rest ih =>
    obtain ⟨first,later⟩ := meets
    have next : Books curMode marker (step s input).1 (past ++ (step s input).2) := by
      cases input with
      | confirm env => exact confirmBooks h env first
      | mqtt other => exact otherBooks h other
    have last := ih next later
    rw [List.append_assoc] at last
    exact last

theorem booksOnce (h : Books curMode marker s past) : ConfirmedOnce curMode marker s past where
  once := h.once
  erased := h.erased
  retried := by
    intro none_ fresh health
    by_contra apart
    have changed : s.nvs.flash ≠ marker := fun same => apart (by rw [same])
    rcases h.erased (.inr changed) with one | stale
    · exact nomatch none_.symm.trans one
    · exact fresh stale
  settled := by
    intro done token mem i at_
    exact (h.known token mem).1 ((h.slots token mem i at_).trans (h.finished done))

end Books

/-- In every boot, whatever its marker, in which each call that queues on the Arkiv writer can erase
the marker and no call with a receipt outstanding finds the namespace missing. -/
theorem confirmedOnce (curMode : UInt8) (marker : Option UInt8) (health : MqttHealth.Health) (inputs : List Input)
    (meets : AllMeet (boot curMode marker health) inputs) :
    ConfirmedOnce curMode marker (final step (boot curMode marker health) inputs)
      (history (boot curMode marker health) inputs) :=
  booksOnce (runBooks (bootBooks health) meets)

def fineEnv : Env where
  openRead := .ok
  getFails := false
  openWrite := true
  eraseFails := false
  eraseSettles := true
  commits := true
  topic := [116]
  mqttReady := true
  now := 0
  claimed := true
  writerReady := true
  iccid := none
  seq := 1
  enqueued := true

/-- Submitted, admitted, and the erase fails once. -/
def admittedRun : List Input :=
  [.confirm fineEnv,.mqtt (.claim 5),.mqtt (.finish 0 6),.confirm { fineEnv with eraseFails := true },.confirm fineEnv]

theorem admittedOnce : emitted [] (history (boot wupsBackendModeMqtt (some wupsBackendModeArkiv) freshHealth) admittedRun) = 1 ∧
    ConfirmedOnce wupsBackendModeMqtt (some wupsBackendModeArkiv)
      (final step (boot wupsBackendModeMqtt (some wupsBackendModeArkiv) freshHealth) admittedRun)
      (history (boot wupsBackendModeMqtt (some wupsBackendModeArkiv) freshHealth) admittedRun) := by
  refine ⟨by decide +kernel,confirmedOnce _ _ _ _ ⟨⟨?_,?_⟩,trivial,trivial,⟨?_,?_⟩,⟨?_,?_⟩,trivial⟩⟩
  · exact fun _ takes => absurd takes.1 (by decide)
  · exact fun _ => by decide
  · exact fun _ takes => absurd takes.1 (by decide +kernel)
  · exact fun _ => by decide
  · exact fun _ takes => absurd takes.1 (by decide +kernel)
  · exact fun _ => by decide

/-- The writer takes the entity, the erase fails, and the next call queues it again. -/
def queuedRun : List Input := [.confirm { fineEnv with eraseFails := true },.confirm { fineEnv with seq := 2 }]

/-- A receipt is pending when the namespace is missing. -/
def missingRun : List Input := [.confirm fineEnv,.confirm { fineEnv with openRead := .notFound }]

theorem confirmedTwice :
    emitted [] (history (boot wupsBackendModeArkiv (some wupsBackendModeMqtt) freshHealth) queuedRun) = 2 ∧
    (final step (boot wupsBackendModeMqtt (some wupsBackendModeArkiv) freshHealth) missingRun).confirm.done = true ∧
    ((final step (boot wupsBackendModeMqtt (some wupsBackendModeArkiv) freshHealth) missingRun).mqtt.receipts 0) =
      ⟨1,.pending⟩ ∧
    ¬∀ curMode marker health inputs, ConfirmedOnce curMode marker (final step (boot curMode marker health) inputs)
      (history (boot curMode marker health) inputs) := by
  have twice : emitted [] (history (boot wupsBackendModeArkiv (some wupsBackendModeMqtt) freshHealth) queuedRun) = 2 := by
    decide +kernel
  refine ⟨twice,by decide +kernel,by decide +kernel,fun all => ?_⟩
  have once := (all wupsBackendModeArkiv (some wupsBackendModeMqtt) freshHealth queuedRun).once
  rw [twice] at once
  exact absurd once (by decide)

end Web3PiUps.BackendModeConfirm
