import Mathlib.Data.List.Induction
import Mathlib.Data.List.Nodup
import Web3PiUps.HttpCommands

/-! At most once: what a reply does to the queue of acknowledgements and to the ring, one
command at a time, and what that leaves over every run of POSTs. -/
namespace Web3PiUps.HttpBackend
open WupsProtocol (Bytes ascii)
open JsonText (Json)

structure Ring (b : Backend) (executed : List Bytes) : Prop where
  size : b.executed.length = execRingMax
  next : b.execIdx = executed.length % execRingMax
  holds : ∀ j < executed.length, executed.length ≤ j+execRingMax → b.executed[j % execRingMax]? = executed[j]?

theorem Ring.same {b c : Backend} {done : List Bytes} (ring : Ring b done) (executed : c.executed = b.executed)
    (execIdx : c.execIdx = b.execIdx) : Ring c done :=
  ⟨executed ▸ ring.size,execIdx ▸ ring.next,executed ▸ ring.holds⟩

theorem ringBoot : Ring .boot [] := ⟨rfl,rfl,nofun⟩

theorem Ring.add {b : Backend} {done : List Bytes} (ring : Ring b done) (id : Bytes) :
    Ring (execAdd b id) (done ++ [id]) := by
  have inside : b.execIdx < b.executed.length := by
    rw [ring.next,ring.size]
    exact Nat.mod_lt _ (by decide)
  refine ⟨?_,?_,?_⟩
  · rw [execAdd,List.length_set,ring.size]
  · simp only [execAdd,ring.next,List.length_append,List.length_cons,List.length_nil,Nat.mod_add_mod,Nat.zero_add]
  · intro j below recent
    rw [List.length_append,List.length_singleton] at below recent
    by_cases last : j = done.length
    · subst last
      rw [execAdd,← ring.next,List.getElem?_set_self inside,List.getElem?_concat_length]
    · have older : j < done.length := by omega
      have apart : b.execIdx ≠ j % execRingMax := by
        rw [ring.next]
        unfold execRingMax at recent ⊢
        omega
      rw [execAdd,List.getElem?_set_ne apart,List.getElem?_append_left older]
      exact ring.holds j older (by omega)

theorem Ring.sees {b : Backend} {before recent : List Bytes} (ring : Ring b (before ++ recent))
    (few : recent.length ≤ execRingMax) {id : Bytes} (mem : id ∈ recent) (some_ : id ≠ []) : execSeen b id = true := by
  obtain ⟨k,below,rfl⟩ := List.mem_iff_getElem.mp mem
  have held := ring.holds (before.length+k) (by rw [List.length_append]; omega) (by rw [List.length_append]; omega)
  rw [List.getElem?_append_right (Nat.le_add_right _ _),Nat.add_sub_cancel_left,List.getElem?_eq_getElem below] at held
  exact List.any_eq_true.mpr ⟨recent[k],List.mem_of_getElem? held,by simp [some_]⟩

def dispatchedIds (log : List Event) : List Bytes :=
  log.filterMap fun e =>
    match e with
    | .dispatched id _ => some id
    | _ => none

theorem dispatchedAppend (a b : List Event) : dispatchedIds (a ++ b) = dispatchedIds a ++ dispatchedIds b :=
  List.filterMap_append

/-- With room in the queue. -/
structure Acked (b : Backend) (id : Bytes) (r : Backend × List Event) : Prop where
  quiet : r.2 = []
  executed : r.1.executed = b.executed
  execIdx : r.1.execIdx = b.execIdx
  queued : id ∈ r.1.pending
  stays : ∀ other ∈ b.pending, other ∈ r.1.pending
  grows : r.1.pending.length ≤ b.pending.length+1

theorem ackAdds {b : Backend} (room : b.pending.length < ackPendingMax) (id : Bytes) : Acked b id (ackAdd b id) := by
  unfold ackAdd
  split
  · rename_i queued
    exact ⟨rfl,rfl,rfl,queued,fun _ mem => mem,Nat.le_succ _⟩
  · rw [if_neg (Nat.not_le.mpr room)]
    refine ⟨rfl,rfl,rfl,by simp,fun other mem => List.mem_append_left _ mem,?_⟩
    simp

/-- A command is refused or acknowledged again, or is dispatched for the first time the ring
knows of. -/
inductive Handled (b : Backend) (c : Json) : Backend × List Event → Prop where
  | refused (b') (pending : b'.pending = b.pending) (executed : b'.executed = b.executed)
      (execIdx : b'.execIdx = b.execIdx) : Handled b c (b',[])
  | again : Handled b c (ackAdd b (idOf c))
  | first (payload : Bytes) (cmdSeq : UInt8) (some_ : idOf c ≠ []) (unseen : execSeen b (idOf c) = false) :
      Handled b c ((ackAdd (execAdd { b with cmdSeq } (idOf c)) (idOf c)).1,
        .dispatched (idOf c) payload :: (ackAdd (execAdd { b with cmdSeq } (idOf c)) (idOf c)).2)

theorem rejects (b : Backend) (id : Bytes) (reason : Reason) :
    (rejAdd b id reason).pending = b.pending ∧ (rejAdd b id reason).executed = b.executed ∧
      (rejAdd b id reason).execIdx = b.execIdx := by
  unfold rejAdd
  dsimp only
  split
  · exact ⟨rfl,rfl,rfl⟩
  · split <;> exact ⟨rfl,rfl,rfl⟩

theorem dispatches (b : Backend) (cmd : Bytes) (args : Option Json) :
    ∃ cmdSeq, (dispatchCommand b cmd args).1 = { b with cmdSeq } := by
  unfold dispatchCommand
  split
  · exact ⟨b.cmdSeq,rfl⟩
  · dsimp only
    split
    · exact ⟨_,rfl⟩
    · split <;> exact ⟨_,rfl⟩

theorem handles (b : Backend) (c : Json) : Handled b c (handleCommand b c) := by
  have refused {b₁ : Backend} (same : ∃ cmdSeq, b₁ = { b with cmdSeq }) (reason : Reason) :
      Handled b c (rejAdd b₁ (idOf c) reason,[]) := by
    obtain ⟨cmdSeq,rfl⟩ := same
    obtain ⟨pending,executed,execIdx⟩ := rejects { b with cmdSeq } (idOf c) reason
    exact .refused _ pending executed execIdx
  have plain : ∃ cmdSeq, b = { b with cmdSeq } := ⟨b.cmdSeq,rfl⟩
  unfold handleCommand
  dsimp only
  split
  · exact refused plain .badId
  · rename_i sized
    have some_ : idOf c ≠ [] := by
      intro empty
      exact sized (.inl (by rw [empty]; rfl))
    split
    · exact .again
    · rename_i unseen
      split
      · split
        · exact refused plain .unsupportedCmd
        · rename_i cmd _ _
          obtain ⟨cmdSeq,same⟩ := dispatches b cmd (getObjectItem (some c) "args")
          generalize dispatchCommand b cmd (getObjectItem (some c) "args") = sent at same
          obtain ⟨b₁,payload⟩ := sent
          cases payload with
          | none => exact refused ⟨cmdSeq,same⟩ .badArgs
          | some payload =>
            cases same
            exact .first payload cmdSeq some_ (by simpa using unseen)
      · exact refused plain .badArgs

/-- What the commands of a reply leave behind, with `done` executed before. -/
structure Left (b : Backend) (done : List Bytes) (cs : List Json) (r : Backend × List Event) : Prop where
  ring : Ring r.1 (done ++ dispatchedIds r.2)
  queued : ∀ id ∈ dispatchedIds r.2, id ∈ r.1.pending
  stays : ∀ id ∈ b.pending, id ∈ r.1.pending
  grows : r.1.pending.length ≤ b.pending.length+cs.length
  few : (dispatchedIds r.2).length ≤ cs.length
  only : ∀ e ∈ r.2, ∃ id payload, e = .dispatched id payload

theorem handledLeaves {b : Backend} {done : List Bytes} {c : Json} {r} (handled : Handled b c r) (ring : Ring b done)
    (room : b.pending.length < ackPendingMax) : Left b done [c] r := by
  cases handled with
  | refused b' pending executed execIdx =>
    refine ⟨?_,nofun,fun id mem => pending ▸ mem,?_,Nat.zero_le _,nofun⟩
    · simpa [dispatchedIds] using ring.same executed execIdx
    · rw [pending]
      exact Nat.le_succ _
  | again =>
    have acked := ackAdds room (idOf c)
    refine ⟨?_,?_,acked.stays,acked.grows,?_,?_⟩
    · simpa [acked.quiet,dispatchedIds] using ring.same acked.executed acked.execIdx
    · simp [acked.quiet,dispatchedIds]
    · simp [acked.quiet,dispatchedIds]
    · simp [acked.quiet]
  | first payload cmdSeq some_ unseen =>
    have acked := ackAdds (b := execAdd { b with cmdSeq } (idOf c)) room (idOf c)
    have added := Ring.add (ring.same (c := { b with cmdSeq }) rfl rfl) (idOf c)
    refine ⟨?_,?_,acked.stays,acked.grows,?_,?_⟩
    · simpa [acked.quiet,dispatchedIds] using added.same acked.executed acked.execIdx
    · simpa [acked.quiet,dispatchedIds] using acked.queued
    · simp [acked.quiet,dispatchedIds]
    · simp [acked.quiet]

theorem handleLeaves (cs : List Json) {b : Backend} {done : List Bytes} (ring : Ring b done)
    (room : b.pending.length+cs.length ≤ ackPendingMax) : Left b done cs (handleCommands b cs) := by
  induction cs generalizing b done with
  | nil =>
    refine ⟨?_,nofun,fun _ mem => mem,Nat.le_refl _,Nat.zero_le _,nofun⟩
    simpa [handleCommands,dispatchedIds] using ring
  | cons c rest ih =>
    rw [List.length_cons] at room
    have head := handledLeaves (handles b c) ring (by omega)
    have tail := ih head.ring (by have := head.grows; simp only [List.length_singleton] at this; omega)
    have both : dispatchedIds (handleCommands b (c :: rest)).2 =
        dispatchedIds (handleCommand b c).2 ++ dispatchedIds (handleCommands (handleCommand b c).1 rest).2 := by
      simp only [handleCommands,dispatchedAppend]
    refine ⟨?_,?_,fun id mem => tail.stays id (head.stays id mem),?_,?_,?_⟩
    · rw [both,← List.append_assoc]
      exact tail.ring
    · rw [both]
      intro id mem
      rcases List.mem_append.mp mem with early | late
      · exact tail.stays id (head.queued id early)
      · exact tail.queued id late
    · have first := head.grows
      have later := tail.grows
      simp only [handleCommands,List.length_cons,List.length_nil] at first later ⊢
      omega
    · have first := head.few
      have later := tail.few
      rw [both,List.length_append]
      simp only [List.length_cons,List.length_nil] at first ⊢
      omega
    · intro e mem
      rcases List.mem_append.mp mem with early | late
      · exact head.only e early
      · exact tail.only e late

theorem handledOnce {b : Backend} {old recent : List Bytes} {c : Json} {r} (handled : Handled b c r)
    (ring : Ring b (old ++ recent)) (room : b.pending.length < ackPendingMax) (few : recent.length ≤ execRingMax)
    (new : idOf c ∉ old) (once : (old ++ recent).Nodup) : (old ++ recent ++ dispatchedIds r.2).Nodup := by
  cases handled with
  | refused => simpa [dispatchedIds] using once
  | again => simpa [(ackAdds room (idOf c)).quiet,dispatchedIds] using once
  | first payload cmdSeq some_ unseen =>
    have absent : idOf c ∉ old ++ recent := by
      intro mem
      rcases List.mem_append.mp mem with early | late
      · exact new early
      · rw [ring.sees few late some_] at unseen
        cases unseen
    have quiet := (ackAdds (b := execAdd { b with cmdSeq } (idOf c)) room (idOf c)).quiet
    simp only [dispatchedIds,quiet,List.filterMap_cons,List.filterMap_nil]
    exact List.nodup_append.mpr ⟨once,List.nodup_singleton _,fun a mem a' last same => by
      cases List.mem_singleton.mp last
      exact absent (same ▸ mem)⟩

theorem handleOnce (cs : List Json) {b : Backend} {old recent : List Bytes} (ring : Ring b (old ++ recent))
    (room : b.pending.length+cs.length ≤ ackPendingMax) (few : recent.length+cs.length ≤ execRingMax)
    (new : ∀ c ∈ cs, idOf c ∉ old) (once : (old ++ recent).Nodup) :
    (old ++ recent ++ dispatchedIds (handleCommands b cs).2).Nodup := by
  induction cs generalizing b recent with
  | nil => simpa [handleCommands,dispatchedIds] using once
  | cons c rest ih =>
    rw [List.length_cons] at room few
    have left := handledLeaves (handles b c) ring (by omega)
    have grown : (handleCommand b c).1.pending.length+rest.length ≤ ackPendingMax := by
      have := left.grows
      simp only [List.length_singleton] at this
      omega
    have small := left.few
    rw [List.length_singleton] at small
    have next : (old ++ (recent ++ dispatchedIds (handleCommand b c).2)).Nodup := by
      rw [← List.append_assoc]
      exact handledOnce (handles b c) ring (by omega) (by omega) (new c (.head _)) once
    have ring' : Ring (handleCommand b c).1 (old ++ (recent ++ dispatchedIds (handleCommand b c).2)) := by
      rw [← List.append_assoc]
      exact left.ring
    have rest' := ih ring' grown (by rw [List.length_append]; omega) (fun c mem => new c (.tail _ mem)) next
    simpa only [handleCommands,dispatchedAppend,List.append_assoc] using rest'

def notAcks (field : Field) : Bool := !decide (field.1 = ascii "acks")

theorem otherKey {key : Bytes} (apart : key ≠ ascii "acks") (value : Json) : notAcks (key,value) = true := by
  simp [notAcks,apart]

theorem telemetryNotAcks (power host net : Bytes) (m : Moment) :
    ∀ field ∈ [num "ts" m.ts,(ascii "fw_ver",.string m.fwVersion),num "uptime_s" (m.nowUs/1000000)] ++
      powerTelemetry power ++ hostTelemetry host ++ netTelemetry net, notAcks field = true := by
  intro field mem
  simp only [List.mem_append,List.mem_cons,List.not_mem_nil,or_false] at mem
  rcases mem with (((rfl | rfl | rfl) | at_) | at_) | at_
  · exact otherKey (by decide) _
  · exact otherKey (by decide) _
  · exact otherKey (by decide) _
  · unfold powerTelemetry at at_
    split at at_
    · cases List.mem_singleton.mp at_
      exact otherKey (by decide) _
    · cases List.mem_singleton.mp at_
      exact otherKey (by decide) _
    · cases at_
  · unfold hostTelemetry at at_
    split at at_
    · cases List.mem_singleton.mp at_
      exact otherKey (by decide) _
    · cases at_
  · unfold netTelemetry at at_
    split at at_
    · cases List.mem_singleton.mp at_
      exact otherKey (by decide) _
    · cases at_

theorem findAcks {before : List Field} (none : ∀ field ∈ before, notAcks field = true) (value : Json) (after : List Field) :
    getObjectItem (some (.object (before ++ (ascii "acks",value) :: after))) "acks" = some value := by
  have absent : before.find? (fun field => decide (field.1 = ascii "acks")) = .none :=
    List.find?_eq_none.mpr fun field mem => by simpa [notAcks] using none field mem
  simp [getObjectItem,List.find?_append,absent]

theorem bodyCarries (b : Backend) (m : Moment) : bodyAcks (.object (bodyFields b m)) = b.pending := by
  have found := findAcks
    (telemetryNotAcks (takeSlot m.nowUs b.slots.power) (takeSlot m.nowUs b.slots.host) (takeSlot m.nowUs b.slots.net) m)
    (.array (b.pending.map .string)) (rejectedFields b.rejected ++ droppedFields b.respDropped)
  have order : bodyFields b m = [num "ts" m.ts,(ascii "fw_ver",.string m.fwVersion),num "uptime_s" (m.nowUs/1000000)] ++
      powerTelemetry (takeSlot m.nowUs b.slots.power) ++ hostTelemetry (takeSlot m.nowUs b.slots.host) ++
      netTelemetry (takeSlot m.nowUs b.slots.net) ++
      (ascii "acks",.array (b.pending.map .string)) :: (rejectedFields b.rejected ++ droppedFields b.respDropped) := by
    simp [bodyFields]
  rw [← order] at found
  simp only [bodyAcks,found,List.filterMap_map]
  exact List.filterMap_some

/-- The ids dispatched since the last POST answered 2xx. -/
def owedStep (owed : List Bytes) : Event → List Bytes
  | .posted _ (some _) => []
  | .dispatched id _ => owed ++ [id]
  | _ => owed

def owed (log : List Event) : List Bytes := log.foldl owedStep []

/-- A POST answered 2xx carried the acknowledgement. -/
def Carried (log : List Event) (id : Bytes) : Prop := ∃ body ids, .posted body (some ids) ∈ log ∧ id ∈ bodyAcks body

/-- The server no longer names an id once a POST with its acknowledgement was answered 2xx. -/
def Stops (log : List Event) : Prop :=
  log.Pairwise fun e later => ∀ body ids body' ids', e = .posted body (some ids) → later = .posted body' (some ids') →
    ∀ id ∈ bodyAcks body, id ∉ ids'

structure Kept (b : Backend) (log : List Event) : Prop where
  ring : Ring b (dispatchedIds log)
  short : b.pending.length ≤ ackPendingMax
  noLoss : ∀ id, .droppedOldest id ∉ log
  split : ∃ old, dispatchedIds log = old ++ owed log ∧ ∀ id ∈ old, Carried log id
  few : (owed log).length ≤ cmdsPerRespMax
  queued : ∀ id ∈ owed log, id ∈ b.pending
  acked : ∀ a body answer c, log = a ++ .posted body answer :: c → ∀ id ∈ owed a, id ∈ bodyAcks body
  once : Stops log → (dispatchedIds log).Nodup

theorem owedAppend (log : List Event) (es : List Event) : owed (log ++ es) = es.foldl owedStep (owed log) := by
  simp only [owed,List.foldl_append]

theorem owedDispatched {es : List Event} (only : ∀ e ∈ es, ∃ id payload, e = .dispatched id payload) (start : List Bytes) :
    es.foldl owedStep start = start ++ dispatchedIds es := by
  induction es generalizing start with
  | nil => simp [dispatchedIds]
  | cons e rest ih =>
    obtain ⟨id,payload,rfl⟩ := only e (.head _)
    rw [List.foldl_cons,ih fun e mem => only e (.tail _ mem)]
    simp [owedStep,dispatchedIds]

theorem Kept.slots {b log} (kept : Kept b log) (slots : Slots) : Kept { b with slots } log :=
  { kept with ring := kept.ring.same rfl rfl }

theorem ackedPost {log : List Event} {acks : List Bytes} {body : Json} {answer : Option (List Bytes)} {l : List Event}
    (before : ∀ a body answer c, log = a ++ .posted body answer :: c → ∀ id ∈ owed a, id ∈ bodyAcks body)
    (carries : bodyAcks body = acks) (queued : ∀ id ∈ owed log, id ∈ acks)
    (only : ∀ e ∈ l, ∃ id payload, e = .dispatched id payload) :
    ∀ a body' answer' c, log ++ .posted body answer :: l = a ++ .posted body' answer' :: c →
      ∀ id ∈ owed a, id ∈ bodyAcks body' := by
  intro a body' answer' c same
  rcases List.append_eq_append_iff.mp same with ⟨mid,rfl,rest⟩ | ⟨mid,whole,rest⟩
  · cases mid with
    | nil =>
      cases rest
      simpa [carries] using queued
    | cons e mid =>
      obtain ⟨-,tail⟩ := List.cons.inj rest
      have mem : .posted body' answer' ∈ l := by simp [tail]
      obtain ⟨_,_,no⟩ := only _ mem
      cases no
  · cases mid with
    | nil =>
      simp only [List.nil_append,List.cons.injEq] at rest
      cases rest.1
      simp only [List.append_nil] at whole
      rw [whole] at queued
      simpa [carries] using queued
    | cons e mid =>
      obtain ⟨rfl,_⟩ := List.cons.inj rest
      exact before a body' answer' mid whole

theorem dispatchedPost (log es : List Event) (body : Json) (answer : Option (List Bytes)) :
    dispatchedIds (log ++ .posted body answer :: es) = dispatchedIds log ++ dispatchedIds es := by
  simp [dispatchedIds]

theorem keptUnanswered {b log} (kept : Kept b log) {body : Json} (carries : bodyAcks body = b.pending) :
    Kept b (log ++ [.posted body none]) := by
  have ids : dispatchedIds (log ++ [.posted body none]) = dispatchedIds log := by simp [dispatchedIds]
  have same : owed (log ++ [.posted body none]) = owed log := by simp [owedAppend,owedStep]
  refine ⟨ids ▸ kept.ring,kept.short,?_,?_,same ▸ kept.few,same ▸ kept.queued,?_,?_⟩
  · intro id mem
    simpa using kept.noLoss id (by simpa using mem)
  · obtain ⟨old,split,carried⟩ := kept.split
    refine ⟨old,by rw [ids,same,split],fun id mem => ?_⟩
    obtain ⟨body',ids',posted,acks⟩ := carried id mem
    exact ⟨body',ids',List.mem_append_left _ posted,acks⟩
  · exact ackedPost (l := []) kept.acked carries kept.queued nofun
  · intro stops
    rw [ids]
    exact kept.once (List.pairwise_append.mp stops).1

/-- A POST answered 2xx settles what it carried; what its reply dispatches is owed next. -/
theorem keptAnswered {b b' log} {l : List Event} {ids : List Bytes} (kept : Kept b log) {body : Json}
    (carries : bodyAcks body = b.pending) (ring : Ring b' (dispatchedIds log ++ dispatchedIds l))
    (short : b'.pending.length ≤ ackPendingMax) (queued : ∀ id ∈ dispatchedIds l, id ∈ b'.pending)
    (few : (dispatchedIds l).length ≤ cmdsPerRespMax) (only : ∀ e ∈ l, ∃ id payload, e = .dispatched id payload)
    (once : ∀ old, (∀ id ∈ old, id ∉ ids) → dispatchedIds log = old ++ owed log → (dispatchedIds log).Nodup →
      (dispatchedIds log ++ dispatchedIds l).Nodup) :
    Kept b' (log ++ .posted body (some ids) :: l) := by
  have now : owed (log ++ .posted body (some ids) :: l) = dispatchedIds l := by
    rw [owedAppend,List.foldl_cons,owedDispatched only]
    rfl
  obtain ⟨old,split,carried⟩ := kept.split
  refine ⟨?_,short,?_,?_,now ▸ few,now ▸ queued,ackedPost kept.acked carries kept.queued only,?_⟩
  · rw [dispatchedPost]
    exact ring
  · intro id mem
    rcases List.mem_append.mp mem with early | late
    · exact kept.noLoss id early
    · rcases List.mem_cons.mp late with no | late
      · cases no
      · obtain ⟨_,_,no⟩ := only _ late
        cases no
  · refine ⟨dispatchedIds log,by rw [dispatchedPost,now],fun id mem => ?_⟩
    rw [split] at mem
    rcases List.mem_append.mp mem with early | late
    · obtain ⟨body',ids',posted,acks⟩ := carried id early
      exact ⟨body',ids',List.mem_append_left _ posted,acks⟩
    · exact ⟨body,ids,by simp,carries ▸ kept.queued id late⟩
  · intro stops
    obtain ⟨before,-,across⟩ := List.pairwise_append.mp stops
    rw [dispatchedPost]
    refine once old (fun id mem named => ?_) split (kept.once before)
    obtain ⟨body',ids',posted,acks⟩ := carried id mem
    exact across _ posted _ (.head _) body' ids' body ids rfl rfl id acks named

theorem acceptedEmpty (b : Backend) : (accepted b).pending = [] := by
  simp [accepted,rejDropFront,ackDropFront]

theorem keptReply {b log} (kept : Kept b log) {body : Json} (carries : bodyAcks body = b.pending) (r : Reply) :
    Kept (handleResponse (accepted b) r).1
      (log ++ .posted body (some r.named) :: (handleResponse (accepted b) r).2) := by
  have ring : Ring (accepted b) (dispatchedIds log) := kept.ring.same rfl rfl
  have quiet : Kept (accepted b) (log ++ .posted body (some r.named) :: []) := by
    refine keptAnswered kept carries ?_ ?_ nofun (Nat.zero_le _) nofun ?_
    · simpa [dispatchedIds] using ring
    · rw [acceptedEmpty]
      exact Nat.zero_le _
    · intro _ _ _ once
      simpa [dispatchedIds] using once
  unfold handleResponse
  split
  · exact quiet
  · split
    · exact quiet
    · rename_i heard
      have room : (accepted b).pending.length+(r.commands.take cmdsPerRespMax).length ≤ ackPendingMax := by
        rw [acceptedEmpty,List.length_nil,Nat.zero_add,List.length_take]
        exact Nat.min_le_left _ _
      have few : (r.commands.take cmdsPerRespMax).length ≤ cmdsPerRespMax := by
        rw [List.length_take]
        exact Nat.min_le_left _ _
      have left := handleLeaves (r.commands.take cmdsPerRespMax) ring room
      refine keptAnswered kept carries left.ring (left.grows.trans room) left.queued (left.few.trans few) left.only ?_
      intro old silent split once
      rw [split] at ring once ⊢
      refine handleOnce _ ring room ?_ (fun c mem named => ?_) once
      · exact Nat.add_le_add kept.few few
      · have inside := List.mem_of_mem_take mem
        have signed : r.signed = true := by
          by_contra unsigned
          exact heard ⟨List.length_pos_of_mem inside,by simpa using unsigned⟩
        refine silent _ named ?_
        rw [Reply.named,if_pos signed]
        exact List.mem_map_of_mem inside

theorem keptPost {b log} (kept : Kept b log) (fits : Json → Bool) (m : Moment) (x : Exchange) :
    Kept (postOnce fits b m x).1 (log ++ (postOnce fits b m x).2) := by
  have idle : Kept b (log ++ []) := by rwa [List.append_nil]
  unfold postOnce
  split
  · exact idle
  · unfold buildBody
    dsimp only
    split
    · exact idle
    · rename_i body built
      have carries : bodyAcks body = b.pending := by
        split at built
        · cases built
          exact bodyCarries b m
        · cases built
      split
      · exact idle
      · split
        · exact keptUnanswered kept carries
        · rename_i a _
          split
          · exact keptUnanswered kept carries
          · split
            · refine keptAnswered (l := []) kept carries ?_ ?_ nofun (Nat.zero_le _) nofun ?_
              · simpa [dispatchedIds] using kept.ring.same (c :=
                  { accepted b with respDropped := some (UInt32.ofNat a.reply.total) }) rfl rfl
              · rw [acceptedEmpty]
                exact Nat.zero_le _
              · intro _ _ _ once
                simpa [dispatchedIds] using once
            · exact keptReply kept carries a.reply

theorem keptRun (fits : Json → Bool) (inputs : List Input) : Kept (run fits inputs).1 (run fits inputs).2 := by
  induction inputs using List.reverseRecOn with
  | nil =>
    refine ⟨ringBoot,Nat.zero_le _,nofun,⟨[],rfl,nofun⟩,Nat.zero_le _,nofun,?_,fun _ => List.nodup_nil⟩
    intro a body answer c same
    exact absurd same (by simp [run])
  | append_singleton a i ih =>
    rw [runConcat]
    cases i with
    | observe nowUs frame =>
      simp only [advance,step,List.append_nil]
      exact ih.slots _
    | post m x => exact keptPost ih fits m x

theorem owedUntil {a b : List Event} {id payload : Bytes} (quiet : ∀ body ids, .posted body (some ids) ∉ b) :
    id ∈ owed (a ++ .dispatched id payload :: b) := by
  rw [owedAppend,List.foldl_cons]
  have start : id ∈ owedStep (owed a) (.dispatched id payload) := by simp [owedStep]
  generalize owedStep (owed a) (.dispatched id payload) = now at start
  induction b generalizing now with
  | nil => exact start
  | cons e rest ih =>
    refine ih (fun body ids mem => quiet body ids (.tail _ mem)) _ ?_
    cases e with
    | posted body answer =>
      cases answer with
      | none => exact start
      | some ids => exact absurd (.head _) (quiet body ids)
    | dispatched other payload => exact List.mem_append_left _ start
    | droppedOldest other => exact start

structure AtMostOnce (fits : Json → Bool) (inputs : List Input) : Prop where
  acked : ∀ a id payload b body answer c,
    (run fits inputs).2 = a ++ .dispatched id payload :: b ++ .posted body answer :: c →
    (∀ body ids, .posted body (some ids) ∉ b) → id ∈ bodyAcks body
  short : (run fits inputs).1.pending.length ≤ ackPendingMax
  noLoss : ∀ id, .droppedOldest id ∉ (run fits inputs).2
  once : Stops (run fits inputs).2 → (dispatchedIds (run fits inputs).2).Nodup

/-- For any way the text fits or not, any frames observed and any POSTs. -/
theorem atMostOnce (fits : Json → Bool) (inputs : List Input) : AtMostOnce fits inputs := by
  have kept := keptRun fits inputs
  refine ⟨?_,kept.short,kept.noLoss,kept.once⟩
  intro a id payload b body answer c whole quiet
  exact kept.acked _ body answer c whole id (owedUntil quiet)

end Web3PiUps.HttpBackend
