import Web3PiUps.HttpControlLoopProof

/-! What holds of the server, the device and the network in every run. -/
namespace Web3PiUps.HttpServer
open WupsProtocol (Bytes ascii)
open JsonText (Json)
open WorkedQueue (Before Closed Worked Leaves Ordered fresh freshMem closedLeaves handedClosed)
open HttpBackend (Backend Event Moment Answer accepted handleResponse handleCommands dispatchedIds ackIdMax ackPendingMax
  cmdsPerRespMax execRingMax bodyAcks bodyFields buildBody observeTelemetryFrame handleCommand ackAdd rejAdd Reason Rejected
  refreshReason cmdKnown)

/-- Acknowledgements are of what has run, and with one come those of all that stands before it. -/
structure Acks (done queue : List Queued) (acks : List Bytes) : Prop where
  done : ∀ id ∈ acks, ∃ c ∈ done, c.id = id
  closed : Closed Runs (fun c => c.id ∈ acks) queue

/-- Refusals are of commands that never run. -/
def Refusals (issued : List Queued) (rejected : List (Bytes × Bytes)) : Prop :=
  ∀ r ∈ rejected, r.2 ≠ ascii "bad_id" ∧ ∃ c ∈ issued, ¬Runs c ∧ c.id = r.1

/-- Commands the device may be handed as things stand, and what it leaves then. -/
structure Handable (done queue issued given : List Queued) : Prop where
  known : ∀ c ∈ given, c ∈ issued
  once : given.Nodup
  few : given.length ≤ cmdsPerRespMax
  recent : ∃ old recent, done = old ++ recent ∧ recent.length ≤ cmdsPerRespMax ∧ ∀ c ∈ given, c ∉ old
  after : Worked Runs cmdsPerRespMax (done ++ fresh Runs done given) queue
  ordered : Ordered Runs (done ++ fresh Runs done given) queue issued
  closed : Closed Runs (fun c => c ∈ given ∧ Runs c) queue

structure Kept (o : Settings) (s : System) (done : List Queued) : Prop where
  next : s.server.nextId = s.issued.length+1
  ids : ∀ c ∈ s.issued, ∃ n, n < s.server.nextId ∧ c.id = commandId n
  distinct : (s.issued.map Queued.id).Nodup
  times : s.issued.Pairwise fun x y => x.queuedAt ≤ y.queuedAt
  past : ∀ c ∈ s.issued, c.queuedAt ≤ s.now
  queue : s.server.commands.Sublist s.issued
  log : dispatchedIds s.log = done.map Queued.id
  payloads : ∀ id payload, .dispatched id payload ∈ s.log → ∃ c ∈ s.issued, c.id = id ∧ Carries c payload
  ring : HttpBackend.Ring s.device (done.map Queued.id)
  remembers : Remembers s.device done
  worked : Worked Runs cmdsPerRespMax done s.server.commands
  ordered : Ordered Runs done s.server.commands s.issued
  pending : Acks done s.server.commands s.device.pending
  rejected : ∀ r ∈ s.device.rejected, r.reason ≠ .badId ∧ ∃ c ∈ s.issued, ¬Runs c ∧ c.id = r.id
  bodies : ∀ body ∈ s.posted, Acks done s.server.commands (bodyAcks body) ∧ Refusals s.issued (bodyRejected body)
  waits : ∀ k, s.waiting = some k → k < s.posted.length
  handling : ∀ k ∈ s.handling, k < s.posted.length
  answers : ∀ r ∈ s.replies, r.1 < s.posted.length
  replies : ∀ k chosen, s.waiting = some k → (k,chosen) ∈ s.replies →
    Handable done s.server.commands s.issued (chosen.take cmdsPerRespMax)
  shares : (s.server.commands ++ s.left.map Prod.fst).Perm s.issued
  acked : ∀ c, (c,.acked) ∈ s.left → c ∈ done
  refused : ∀ c, (c,.rejected) ∈ s.left → ¬Runs c
  expired : ∀ c, (c,.expired) ∈ s.left → 0 < o.cmdMaxAge ∧ o.cmdMaxAge < s.now-c.queuedAt

section
variable {o : Settings} {s : System} {done queue left issued given : List Queued} {acks : List Bytes}

theorem Acks.leaves (h : Acks done queue acks) (part : left.Sublist queue) : Acks done left acks :=
  ⟨h.done,h.closed.leaves part⟩

theorem Acks.push (h : Acks done queue acks) {c : Queued} (fresh_ : c.id ∉ acks) : Acks done (queue ++ [c]) acks :=
  ⟨h.done,h.closed.push fresh_⟩

theorem Acks.more (h : Acks done queue acks) (later : List Queued) : Acks (done ++ later) queue acks :=
  ⟨fun id mem => (h.done id mem).imp fun _ both => ⟨List.mem_append_left _ both.1,both.2⟩,h.closed⟩

theorem Handable.leaves (h : Handable done queue issued given) (leaves : Leaves Runs queue left) :
    Handable done left issued given :=
  ⟨h.known,h.once,h.few,h.recent,h.after.leaves leaves,h.ordered.leaves leaves.part,h.closed.leaves leaves.part⟩

theorem Handable.push (h : Handable done queue issued given) {c : Queued} (unqueued : c ∉ queue) (new : c ∉ issued) :
    Handable done (queue ++ [c]) (issued ++ [c]) given :=
  ⟨fun x mem => List.mem_append_left _ (h.known x mem),h.once,h.few,h.recent,
    h.after.push unqueued fun mem => new (h.ordered.order.subset mem),h.ordered.push new,
    h.closed.push fun both => new (h.known c both.1)⟩

theorem handable (worked : Worked Runs cmdsPerRespMax done queue) (ordered : Ordered Runs done queue issued)
    (part : queue.Sublist issued) (once : issued.Nodup) (front : given <+: queue) (few : given.length ≤ cmdsPerRespMax) :
    Handable done queue issued given := by
  refine ⟨fun c mem => part.subset (front.subset mem),worked.queued.sublist front.sublist,few,?_,worked.works front few,
    ordered.works once part front,handedClosed front worked.queued⟩
  obtain ⟨old,recent,split,short,apart⟩ := worked.recent
  exact ⟨old,recent,split,short,fun c mem => apart c (front.subset mem)⟩

theorem Kept.apart (kept : Kept o s done) {c d : Queued} (c_ : c ∈ s.issued) (d_ : d ∈ s.issued) (same : c.id = d.id) : c = d :=
  List.inj_on_of_nodup_map kept.distinct c_ d_ same

theorem Kept.ours (kept : Kept o s done) : ∀ c ∈ done, c ∈ s.issued := fun _ mem => kept.ordered.order.subset mem

theorem Kept.once (kept : Kept o s done) : s.issued.Nodup := kept.distinct.of_map _

theorem boots (o : Settings) : Kept o .boot [] where
  next := rfl
  ids := by simp [System.boot]
  distinct := List.nodup_nil
  times := List.Pairwise.nil
  past := by simp [System.boot]
  queue := List.Sublist.refl _
  log := rfl
  payloads := by simp [System.boot]
  ring := HttpBackend.ringBoot
  remembers := fun id mem => .inl (List.eq_of_mem_replicate mem)
  worked := by
    refine ⟨List.nodup_nil,List.nodup_nil,?_,?_,?_,?_⟩ <;> simp [System.boot,Closed,Before]
  ordered := ⟨List.Sublist.refl _,by simp⟩
  pending := by
    refine ⟨?_,?_⟩ <;> simp [System.boot,Closed,Before,Backend.boot]
  rejected := by simp [System.boot,Backend.boot]
  bodies := by simp [System.boot]
  waits := by simp [System.boot]
  handling := by simp [System.boot]
  answers := by simp [System.boot]
  replies := by simp [System.boot]
  shares := List.Perm.refl _
  acked := by simp [System.boot]
  refused := by simp [System.boot]
  expired := by simp [System.boot]

theorem Kept.new (kept : Kept o s done) : ∀ c ∈ s.issued, c.id ≠ commandId s.server.nextId := by
  intro c mem same
  obtain ⟨n,below,id⟩ := kept.ids c mem
  exact absurd (commandIdApart (id.symm.trans same)) (Nat.ne_of_lt below)

theorem keptEnqueue (kept : Kept o s done) (dumped : Json → Nat) (fits : Json → Bool) (cmd : Bytes) (args : Json) :
    Kept o (step dumped fits o s (.enqueue cmd args)) done := by
  have new := kept.new
  have undone : ∀ c : Queued, c.id = commandId s.server.nextId → c ∉ done := fun c id mem => new c (kept.ours c mem) id
  have unqueued : ∀ c : Queued, c.id = commandId s.server.nextId → c ∉ s.server.commands := fun c id mem =>
    new c (kept.queue.subset mem) id
  have unacked {acks : List Bytes} (h : Acks done s.server.commands acks) : commandId s.server.nextId ∉ acks := by
    intro mem
    obtain ⟨c,c_,same⟩ := h.done _ mem
    exact new c (kept.ours c c_) same
  generalize made : (⟨commandId s.server.nextId,cmd,args,s.now⟩ : Queued) = c
  have id : c.id = commandId s.server.nextId := by rw [← made]
  have same : step dumped fits o s (.enqueue cmd args) =
      { s with server := ⟨s.server.commands ++ [c],s.server.nextId+1⟩, issued := s.issued ++ [c] } := by
    rw [step,HttpServer.enqueue,made]
  rw [same]
  have among {x : Queued} (mem : x ∈ s.issued ++ [c]) : x ∈ s.issued ∨ x = c :=
    (List.mem_append.mp mem).imp_right List.mem_singleton.mp
  exact {
    next := by simp [kept.next]
    ids := fun x mem => by
      rcases among mem with old | rfl
      · obtain ⟨n,below,same⟩ := kept.ids x old
        exact ⟨n,Nat.lt_succ_of_lt below,same⟩
      · exact ⟨_,Nat.lt_succ_self _,id⟩
    distinct := by
      rw [List.map_append,List.map_singleton]
      refine List.nodup_append.mpr ⟨kept.distinct,List.nodup_singleton _,fun a mem b last same => ?_⟩
      obtain ⟨x,x_,rfl⟩ := List.mem_map.mp mem
      rw [List.mem_singleton] at last
      exact new x x_ (same.trans (last.trans id))
    times := by
      refine List.pairwise_append.mpr ⟨kept.times,List.pairwise_singleton ..,fun x mem y last => ?_⟩
      rw [List.mem_singleton.mp last,← made]
      exact kept.past x mem
    past := fun x mem => by
      rcases among mem with old | rfl
      · exact kept.past x old
      · rw [← made]
    queue := kept.queue.append (List.Sublist.refl _)
    log := kept.log
    payloads := fun id payload mem =>
      (kept.payloads id payload mem).imp fun _ all => ⟨List.mem_append_left _ all.1,all.2⟩
    ring := kept.ring
    remembers := kept.remembers
    worked := kept.worked.push (unqueued c id) (undone c id)
    ordered := kept.ordered.push fun mem => new c mem id
    pending := kept.pending.push (id ▸ unacked kept.pending)
    rejected := fun r mem => (kept.rejected r mem).imp_right fun some_ =>
      some_.imp fun _ all => ⟨List.mem_append_left _ all.1,all.2⟩
    bodies := fun body mem => by
      obtain ⟨acks,refusals⟩ := kept.bodies body mem
      refine ⟨acks.push (id ▸ unacked acks),fun r r_ => ?_⟩
      exact (refusals r r_).imp_right fun some_ => some_.imp fun _ all => ⟨List.mem_append_left _ all.1,all.2⟩
    waits := kept.waits
    handling := kept.handling
    answers := kept.answers
    replies := fun k chosen waits mem => (kept.replies k chosen waits mem).push (unqueued c id) fun mem => new c mem id
    shares := by
      have moved : (s.server.commands ++ [c] ++ s.left.map Prod.fst).Perm (s.server.commands ++ s.left.map Prod.fst ++ [c]) := by
        rw [List.append_assoc,List.append_assoc]
        exact List.Perm.append_left _ List.perm_append_comm
      exact moved.trans (kept.shares.append_right [c])
    acked := kept.acked
    refused := kept.refused
    expired := kept.expired }

theorem keptTick (kept : Kept o s done) (dumped : Json → Nat) (fits : Json → Bool) (later : Nat) :
    Kept o (step dumped fits o s (.tick later)) done :=
  { kept with
    past := fun c mem => Nat.le_trans (kept.past c mem) (Nat.le_add_right _ _)
    expired := fun c mem => by
      obtain ⟨set_,late⟩ := kept.expired c mem
      have here : (step dumped fits o s (.tick later)).now = s.now+later := rfl
      rw [here]
      exact ⟨set_,by omega⟩ }

theorem trimPrefix (dumped : Json → Nat) (maxBytes : Nat) (chosen : List Queued) (n : Nat) :
    trim dumped maxBytes chosen n <+: chosen := by
  induction n with
  | zero => exact List.nil_prefix
  | succ n ih =>
    rw [trim]
    split
    · exact ih
    · exact List.take_prefix _ _

theorem handOutPrefix (dumped : Json → Nat) (o : Settings) (commands : List Queued) : handOut dumped o commands <+: commands := by
  rw [handOut]
  split
  · exact List.prefix_refl _
  · exact trimPrefix _ _ _ _

theorem clearedLeaves {server : State} {body : List Bytes} (h : Acks done server.commands body) :
    Leaves Runs server.commands (cleared body server).commands := by
  refine closedLeaves h.closed List.filter_sublist fun x mem _ => ?_
  simp [cleared,mem]

theorem hitsNever (kept : Kept o s done) {rejected : List (Bytes × Bytes)} (refusals : Refusals s.issued rejected)
    {r : Bytes × Bytes}
    (mem : r ∈ rejected) {c : Queued} (c_ : c ∈ s.issued) (hit : hits r c = true) : ¬Runs c := by
  obtain ⟨other,d,d_,never,same⟩ := refusals r mem
  rw [hits,decide_eq_false other,Bool.false_and,Bool.false_and,Bool.or_false,decide_eq_true_eq] at hit
  exact kept.apart c_ d_ (hit.trans same.symm) ▸ never

theorem droppedLeaves (kept : Kept o s done) {server : State} (part : server.commands.Sublist s.issued)
    {rejected : List (Bytes × Bytes)} (refusals : Refusals s.issued rejected) :
    Leaves Runs server.commands (dropped rejected server).commands := by
  refine ⟨List.filter_sublist,fun x y before _ y_runs _ => ?_⟩
  have y_ := (WorkedQueue.beforeMem before).2
  refine List.mem_filter.mpr ⟨y_,?_⟩
  rw [Bool.not_eq_true',List.any_eq_false]
  exact fun r mem hit => hitsNever kept refusals mem (part.subset y_) hit y_runs

theorem expireLeaves (kept : Kept o s done) {server : State} (part : server.commands.Sublist s.issued) :
    Leaves Runs server.commands (expire o s.now server).commands := by
  rw [expire]
  split
  · refine ⟨List.filter_sublist,fun x y before _ _ mem => ?_⟩
    have older := List.pairwise_iff_forall_sublist.mp kept.times (before.trans part)
    have young := (List.mem_filter.mp mem).2
    refine List.mem_filter.mpr ⟨(WorkedQueue.beforeMem before).2,?_⟩
    simp only [decide_eq_true_eq] at young ⊢
    omega
  · exact .refl _

theorem letGo {q more : List Queued} (p : Queued → Bool) (x : Outcome) (shares : (q ++ more).Perm issued) :
    ((q.filter fun c => !p c) ++ (more ++ ((q.filter p).map fun c => (c,x)).map Prod.fst)).Perm issued := by
  have whole : ((q.filter p).map fun c => (c,x)).map Prod.fst = q.filter p := by
    rw [List.map_map]
    exact List.map_id _
  have parts : ((q.filter fun c => !p c) ++ q.filter p).Perm q :=
    List.perm_append_comm.trans (List.filter_append_perm p q)
  rw [whole]
  have moved : ((q.filter fun c => !p c) ++ (more ++ q.filter p)).Perm ((q.filter fun c => !p c) ++ q.filter p ++ more) := by
    rw [List.append_assoc]
    exact List.Perm.append_left _ List.perm_append_comm
  exact (moved.trans (parts.append_right more)).trans shares

def late (o : Settings) (now : Nat) (c : Queued) : Bool := 0 < o.cmdMaxAge ∧ o.cmdMaxAge < now-c.queuedAt

theorem expireKeeps (o : Settings) (now : Nat) (server : State) :
    (expire o now server).commands = server.commands.filter fun c => !late o now c := by
  rw [expire]
  split
  · rename_i set_
    refine List.filter_congr fun c _ => ?_
    simp only [late,set_,true_and,← decide_not,Nat.not_lt]
  · rename_i unset
    refine (List.filter_eq_self.mpr fun c _ => ?_).symm
    simp [late,unset]

theorem keptServer (kept : Kept o s done) {server : State} {handling : List Nat} {gone : List (Queued × Outcome)}
    (leaves : Leaves Runs s.server.commands server.commands) (nextId : server.nextId = s.server.nextId)
    (handles : ∀ k ∈ handling, k < s.posted.length)
    (shares : (server.commands ++ (s.left ++ gone).map Prod.fst).Perm s.issued)
    (acked : ∀ c, (c,.acked) ∈ gone → c ∈ done) (refused : ∀ c, (c,.rejected) ∈ gone → ¬Runs c)
    (expired : ∀ c, (c,.expired) ∈ gone → 0 < o.cmdMaxAge ∧ o.cmdMaxAge < s.now-c.queuedAt) :
    Kept o { s with server, handling, left := s.left ++ gone } done :=
  { kept with
    next := nextId.trans kept.next
    ids := fun c mem => by rw [nextId]; exact kept.ids c mem
    queue := leaves.part.trans kept.queue
    worked := kept.worked.leaves leaves
    ordered := kept.ordered.leaves leaves.part
    pending := kept.pending.leaves leaves.part
    bodies := fun body mem => ((kept.bodies body mem).imp_left fun acks => acks.leaves leaves.part)
    handling := handles
    replies := fun k chosen waits mem => (kept.replies k chosen waits mem).leaves leaves
    shares := shares
    acked := fun c mem => (List.mem_append.mp mem).elim (kept.acked c) (acked c)
    refused := fun c mem => (List.mem_append.mp mem).elim (kept.refused c) (refused c)
    expired := fun c mem => (List.mem_append.mp mem).elim (kept.expired c) (expired c) }

theorem outcomeOf {c : Queued} {x y : Outcome} {l : List Queued} (mem : (c,x) ∈ l.map fun c => (c,y)) : c ∈ l ∧ x = y := by
  obtain ⟨d,d_,eq⟩ := List.mem_map.mp mem
  obtain ⟨rfl,rfl⟩ := Prod.mk.inj eq
  exact ⟨d_,rfl⟩

theorem keptArrived (kept : Kept o s done) {k : Nat} {body : Json} (at_ : s.posted[k]? = some body) :
    Kept o (arrived s k body) done := by
  obtain ⟨acks,refusals⟩ := kept.bodies body (List.mem_of_getElem? at_)
  generalize unacked_ : cleared (bodyAcks body) s.server = unacked
  generalize unrejected_ : dropped (bodyRejected body) unacked = unrejected
  have leaves1 : Leaves Runs s.server.commands unacked.commands := unacked_ ▸ clearedLeaves acks
  have part1 := leaves1.part.trans kept.queue
  have leaves2 : Leaves Runs unacked.commands unrejected.commands := unrejected_ ▸ droppedLeaves kept part1 refusals
  have applied : applyAcks body s.server = unrejected := by rw [applyAcks,unacked_,unrejected_]
  have nextId : unrejected.nextId = s.server.nextId := by rw [← unrejected_,← unacked_]; rfl
  have same : arrived s k body = { s with
      server := unrejected
      handling := s.handling ++ [k]
      left := s.left ++ (((s.server.commands.filter fun c => (bodyAcks body).contains c.id).map fun c => (c,.acked)) ++
        ((unacked.commands.filter fun c => (bodyRejected body).any fun r => hits r c).map fun c => (c,.rejected))) } := by
    rw [arrived]
    simp only [unacked_,applied,List.append_assoc]
  rw [same]
  refine keptServer kept (leaves1.trans leaves2 kept.worked.queued) nextId (fun k' mem => ?_) ?_ (fun c mem => ?_)
    (fun c mem => ?_) fun c mem => ?_
  · rcases List.mem_append.mp mem with old | last
    · exact kept.handling k' old
    · rw [List.mem_singleton.mp last]
      exact (List.getElem?_eq_some_iff.mp at_).1
  · have shares1 := letGo (fun c => (bodyAcks body).contains c.id) .acked kept.shares
    have unacked' : (s.server.commands.filter fun c => !(bodyAcks body).contains c.id) = unacked.commands := by
      rw [← unacked_]
      rfl
    rw [unacked'] at shares1
    have shares2 := letGo (fun c => (bodyRejected body).any fun r => hits r c) .rejected shares1
    have unrejected' : (unacked.commands.filter fun c => !(bodyRejected body).any fun r => hits r c) = unrejected.commands := by
      rw [← unrejected_]; rfl
    rw [unrejected'] at shares2
    simpa only [List.map_append,List.append_assoc] using shares2
  · rcases List.mem_append.mp mem with new | new
    · obtain ⟨c_,acked⟩ := List.mem_filter.mp (outcomeOf new).1
      obtain ⟨d,d_,same⟩ := acks.done c.id (List.contains_iff_mem.mp acked)
      exact kept.apart (kept.ours d d_) (kept.queue.subset c_) same ▸ d_
    · cases (outcomeOf new).2
  · rcases List.mem_append.mp mem with new | new
    · cases (outcomeOf new).2
    · obtain ⟨c_,hit⟩ := List.mem_filter.mp (outcomeOf new).1
      obtain ⟨r,r_,hit⟩ := List.any_eq_true.mp hit
      exact hitsNever kept refusals r_ (part1.subset c_) hit
  · rcases List.mem_append.mp mem with new | new <;> cases (outcomeOf new).2

theorem keptTaken (kept : Kept o s done) (dumped : Json → Nat) {i k : Nat} (at_ : s.handling[i]? = some k) :
    Kept o (tookPending dumped o s i k) done := by
  have leaves := expireLeaves kept kept.queue
  have nextId : (expire o s.now s.server).nextId = s.server.nextId := by
    rw [expire]
    split <;> rfl
  have left : Kept o { s with
      server := expire o s.now s.server
      handling := s.handling.eraseIdx i
      left := s.left ++ (s.server.commands.filter (late o s.now)).map fun c => (c,.expired) } done := by
    refine keptServer kept leaves nextId (fun k' mem => kept.handling k' (List.mem_of_mem_eraseIdx mem)) ?_
      (fun c mem => ?_) (fun c mem => ?_) fun c mem => ?_
    · have shares := letGo (late o s.now) .expired kept.shares
      rw [← expireKeeps] at shares
      simpa only [List.map_append] using shares
    · cases (outcomeOf mem).2
    · cases (outcomeOf mem).2
    · have late_ := (List.mem_filter.mp (outcomeOf mem).1).2
      simpa [late] using late_
  exact { left with
    answers := fun r mem => by
      rcases List.mem_append.mp mem with old | last
      · exact kept.answers r old
      · rw [List.mem_singleton.mp last]
        exact kept.handling k (List.mem_of_getElem? at_)
    replies := fun k' chosen' waits mem => by
      rcases List.mem_append.mp mem with old | last
      · exact (kept.replies k' chosen' waits old).leaves leaves
      · obtain ⟨rfl,rfl⟩ := Prod.mk.inj (List.mem_singleton.mp last)
        exact handable left.worked left.ordered left.queue kept.once
          ((List.take_prefix _ _).trans (handOutPrefix dumped o _)) (List.length_take_le _ _) }

theorem keptObserve (kept : Kept o s done) (dumped : Json → Nat) (fits : Json → Bool) (nowUs : Int) (frame : Bytes) :
    Kept o (step dumped fits o s (.observe nowUs frame)) done :=
  { kept with ring := kept.ring.same rfl rfl }

theorem reasonText {reason : HttpBackend.Reason} (other : reason ≠ .badId) : reason.text ≠ ascii "bad_id" := by
  cases reason with
  | badId => exact absurd rfl other
  | badArgs => decide
  | unsupportedCmd => decide

theorem keptPost (kept : Kept o s done) (dumped : Json → Nat) (fits : Json → Bool) (m : Moment) :
    Kept o (step dumped fits o s (.post m)) done := by
  rw [step]
  split
  · exact kept
  · rename_i idle
    split
    · exact kept
    · rename_i body built
      have whole : body = .object (bodyFields s.device m) := by
        rw [buildBody] at built
        split at built
        · exact (Option.some.inj built).symm
        · cases built
      exact { kept with
        bodies := fun b mem => by
          rcases List.mem_append.mp mem with old | last
          · exact kept.bodies b old
          · rw [List.mem_singleton.mp last,whole,HttpBackend.bodyCarries,bodyRejects]
            refine ⟨kept.pending,fun r r_ => ?_⟩
            obtain ⟨r',r'_,rfl⟩ := List.mem_map.mp r_
            obtain ⟨reason,some_⟩ := kept.rejected r' r'_
            exact ⟨reasonText reason,some_⟩
        waits := fun k at_ => by
          rw [← Option.some.inj at_,List.length_append]
          exact Nat.lt_succ_self _
        handling := fun k mem => by
          rw [List.length_append]
          exact Nat.lt_succ_of_lt (kept.handling k mem)
        answers := fun r mem => by
          rw [List.length_append]
          exact Nat.lt_succ_of_lt (kept.answers r mem)
        replies := fun k chosen at_ mem => by
          -- no reply is for the new POST
          have below := kept.answers _ mem
          rw [← Option.some.inj at_] at below
          exact absurd below (Nat.lt_irrefl _) }

/-- Nothing has been handled; what was told may be forgotten. -/
structure Quiet (b : Backend) (r : Backend × List Event) : Prop where
  executed : r.1.executed = b.executed
  execIdx : r.1.execIdx = b.execIdx
  pending : r.1.pending = b.pending ∨ r.1.pending = []
  rejected : r.1.rejected ⊆ b.rejected
  none_ : ∀ id payload, .dispatched id payload ∉ r.2

theorem Quiet.ids {b : Backend} {r : Backend × List Event} (quiet : Quiet b r) : dispatchedIds r.2 = [] := by
  refine List.filterMap_eq_nil_iff.mpr fun e mem => ?_
  cases e with
  | dispatched id payload => exact absurd mem (quiet.none_ id payload)
  | posted | droppedOldest => rfl

theorem acceptedQuiet (b : Backend) (body : Json) (ids : List Bytes) (respDropped : Option UInt32) :
    Quiet b ({ accepted b with respDropped },[.posted body (some ids)]) := by
  refine ⟨rfl,rfl,.inr (HttpBackend.acceptedEmpty b),List.drop_subset _ _,by simp⟩

theorem settledQuiet {b : Backend} {body : Json} {perform : Option Answer} (unsigned : ∀ a ∈ perform, a.reply.signed = false) :
    Quiet b (settle b body perform) := by
  have still : Quiet b (b,[.posted body none]) :=
    ⟨rfl,rfl,.inl rfl,List.Subset.refl _,by simp⟩
  unfold settle
  split
  · exact still
  · rename_i a
    split
    · exact still
    · split
      · exact acceptedQuiet ..
      · have nothing : handleResponse (accepted b) a.reply = (accepted b,[]) := by
          rw [handleResponse]
          split
          · rfl
          · split
            · rfl
            · rename_i heard
              have none_ : a.reply.commands = [] := by
                by_contra some_
                exact heard ⟨List.length_pos_of_ne_nil some_,by rw [unsigned a rfl]; rfl⟩
              rw [none_]
              rfl
        rw [nothing]
        exact acceptedQuiet b body _ none

theorem keptQuiet (kept : Kept o s done) {r : Backend × List Event} (quiet : Quiet s.device r) :
    Kept o { s with device := r.1, waiting := none, log := s.log ++ r.2 } done :=
  { kept with
    log := by rw [HttpBackend.dispatchedAppend,quiet.ids,List.append_nil]; exact kept.log
    payloads := fun id payload mem =>
      kept.payloads id payload ((List.mem_append.mp mem).resolve_right (quiet.none_ id payload))
    ring := kept.ring.same quiet.executed quiet.execIdx
    remembers := fun id mem => kept.remembers id (quiet.executed ▸ mem)
    pending := by
      rcases quiet.pending with same | empty
      · exact same ▸ kept.pending
      · rw [empty]
        exact ⟨fun _ mem => absurd mem List.not_mem_nil,fun _ _ _ _ mem => absurd mem List.not_mem_nil⟩
    rejected := fun r' mem => kept.rejected r' (quiet.rejected mem)
    waits := fun k at_ => by cases at_
    replies := fun k chosen at_ => by cases at_ }

theorem signedRuns {dumped : Json → Nat} {chosen : List Queued} (some_ : 0 < dumped (responseBody chosen))
    (short : dumped (responseBody chosen) ≤ deviceResponseMaxBytes) (b : Backend) (body : Json) :
    ∃ ids, settle b body (some (signedAnswer dumped chosen)) =
      ((handleCommands (accepted b) ((chosen.take cmdsPerRespMax).map wire)).1,
        .posted body (some ids) :: (handleCommands (accepted b) ((chosen.take cmdsPerRespMax).map wire)).2) := by
  have total : (signedAnswer dumped chosen).reply.total = dumped (responseBody chosen) := rfl
  have commands : (signedAnswer dumped chosen).reply.commands = chosen.map wire := rfl
  have limit : HttpBackend.httpRespMax-1 = deviceResponseMaxBytes := rfl
  unfold settle handleResponse
  dsimp only
  rw [if_neg (by simp [signedAnswer]),if_neg (by rw [total,limit]; omega)]
  split
  · rename_i none_
    refine absurd none_ ?_
    rw [total]
    simp only [signedAnswer,Option.isNone_some,Bool.false_eq_true,or_false]
    omega
  · split
    · rename_i both
      exact absurd both.2 (by simp [signedAnswer])
    · rw [commands,← List.map_take]
      exact ⟨_,rfl⟩

theorem signedHandles (dumped : Json → Nat) (b : Backend) (body : Json) (chosen : List Queued) :
    Quiet b (settle b body (some (signedAnswer dumped chosen))) ∨
    ∃ ids, settle b body (some (signedAnswer dumped chosen)) =
      ((handleCommands (accepted b) ((chosen.take cmdsPerRespMax).map wire)).1,
        .posted body (some ids) :: (handleCommands (accepted b) ((chosen.take cmdsPerRespMax).map wire)).2) := by
  by_cases fits : 0 < dumped (responseBody chosen) ∧ dumped (responseBody chosen) ≤ deviceResponseMaxBytes
  · exact .inr (signedRuns fits.1 fits.2 b body)
  · have total : (signedAnswer dumped chosen).reply.total = dumped (responseBody chosen) := rfl
    have limit : HttpBackend.httpRespMax-1 = deviceResponseMaxBytes := rfl
    refine .inl ?_
    unfold settle
    dsimp only
    rw [if_neg (by simp [signedAnswer])]
    split
    · exact acceptedQuiet ..
    · rename_i short
      rw [total,limit] at short
      have none_ : handleResponse (accepted b) (signedAnswer dumped chosen).reply = (accepted b,[]) :=
        if_pos (.inl (total.trans (by omega)))
      rw [none_]
      exact acceptedQuiet b body _ none

theorem keptHanded (kept : Kept o s done) (few : s.server.nextId ≤ 10^45) {given : List Queued}
    (h : Handable done s.server.commands s.issued given) (body : Json) (ids : List Bytes) :
    Kept o { s with
      device := (handleCommands (accepted s.device) (given.map wire)).1
      waiting := none
      log := s.log ++ .posted body (some ids) :: (handleCommands (accepted s.device) (given.map wire)).2 }
      (done ++ fresh Runs done given) := by
  obtain ⟨old,recent,split,short,new⟩ := h.recent
  have ring : HttpBackend.Ring (accepted s.device) (done.map Queued.id) := kept.ring.same rfl rfl
  have empty := HttpBackend.acceptedEmpty s.device
  have room : (accepted s.device).pending.length+given.length ≤ ackPendingMax := by
    rw [empty,List.length_nil,Nat.zero_add]
    exact h.few
  have named : ∀ c ∈ given, Named c := fun c mem => by
    obtain ⟨n,below,id⟩ := kept.ids c (h.known c mem)
    exact commandNamed id (Nat.lt_of_lt_of_le below few)
  have handed_ : HttpServer.Handed (accepted s.device) done given (handleCommands (accepted s.device) (given.map wire)) := by
    have remembers : Remembers (accepted s.device) done := kept.remembers
    have all := kept.worked.all
    have ours := kept.ours
    rw [split] at ring remembers all ours ⊢
    refine handed given ring remembers room ?_ new named h.once all fun x mem c c_ same => ?_
    · exact Nat.add_le_add short h.few
    · exact kept.apart ((List.mem_append.mp mem).elim (ours x) (h.known x)) (h.known c c_) same
  have leaves := HttpBackend.handleLeaves (given.map wire) ring (by rwa [List.length_map])
  have owed (id : Bytes) : id ∈ (handleCommands (accepted s.device) (given.map wire)).1.pending ↔
    ∃ c ∈ given, Runs c ∧ c.id = id := by
    rw [handed_.pending id,empty]
    simp
  exact { kept with
    log := by
      rw [HttpBackend.dispatchedPost,handed_.ids,kept.log,List.map_append]
    payloads := fun id payload mem => by
      rcases List.mem_append.mp mem with old | late
      · exact kept.payloads id payload old
      · rcases List.mem_cons.mp late with no | here
        · cases no
        · obtain ⟨c,c_,all⟩ := handed_.payloads id payload here
          exact ⟨c,h.known c c_,all⟩
    ring := by
      rw [List.map_append,← handed_.ids]
      exact leaves.ring
    remembers := handed_.remembers
    worked := h.after
    ordered := h.ordered
    pending := by
      refine ⟨fun id mem => ?_,fun x y before x_runs y_ => ?_⟩
      · obtain ⟨c,c_,runs,same⟩ := (owed id).mp mem
        by_cases done_ : c ∈ done
        · exact ⟨c,List.mem_append_left _ done_,same⟩
        · exact ⟨c,List.mem_append_right _ (freshMem.mpr ⟨c_,runs,done_⟩),same⟩
      · obtain ⟨c,c_,runs,same⟩ := (owed y.id).mp y_
        have queued := kept.queue.subset (WorkedQueue.beforeMem before).2
        obtain rfl := kept.apart (h.known c c_) queued same
        obtain ⟨x_,-⟩ := h.closed x c before x_runs ⟨c_,runs⟩
        exact (owed x.id).mpr ⟨x,x_,x_runs,rfl⟩
    rejected := fun r mem => by
      rcases handed_.rejected r mem with early | ⟨reason,c,c_,never,same⟩
      · exact kept.rejected r (List.drop_subset _ _ early)
      · exact ⟨reason,c,h.known c c_,never,same⟩
    bodies := fun b mem => (kept.bodies b mem).imp_left fun acks => acks.more _
    waits := fun k at_ => by cases at_
    replies := fun k chosen at_ => by cases at_
    acked := fun c mem => List.mem_append_left _ (kept.acked c mem) }

theorem keptAnswered (kept : Kept o s done) {perform : Option Answer} (unsigned : ∀ a ∈ perform, a.reply.signed = false) :
    Kept o (answered s perform) done := by
  rw [answered]
  split
  · exact kept
  · exact keptQuiet kept (settledQuiet unsigned)

theorem keptDeliver (kept : Kept o s done) (few : s.server.nextId ≤ 10^45) (dumped : Json → Nat) (fits : Json → Bool) (j : Nat) :
    ∃ later, Kept o (step dumped fits o s (.deliver j)) (done ++ later) := by
  have still : ∃ later, Kept o s (done ++ later) := ⟨[],by rwa [List.append_nil]⟩
  rw [step]
  split
  · rename_i k chosen at_
    split
    · rename_i waits
      have h := kept.replies k chosen waits (List.mem_of_getElem? at_)
      rw [answered,waits]
      dsimp only
      rcases signedHandles dumped s.device (s.posted.getD k .null) chosen with quiet | ⟨ids,handles⟩
      · exact ⟨[],by rw [List.append_nil]; exact keptQuiet kept quiet⟩
      · rw [handles]
        exact ⟨_,keptHanded kept few h _ ids⟩
    · exact still
  · exact still

theorem keptStep (kept : Kept o s done) (few : s.server.nextId ≤ 10^45) (dumped : Json → Nat) (fits : Json → Bool) (a : Act) :
    ∃ later, Kept o (step dumped fits o s a) (done ++ later) := by
  have still {s' : System} (kept' : Kept o s' done) : ∃ later, Kept o s' (done ++ later) := ⟨[],by rwa [List.append_nil]⟩
  cases a with
  | tick later => exact still (keptTick kept dumped fits later)
  | enqueue cmd args => exact still (keptEnqueue kept dumped fits cmd args)
  | observe nowUs frame => exact still (keptObserve kept dumped fits nowUs frame)
  | post m => exact still (keptPost kept dumped fits m)
  | arrive k =>
    rw [step]
    split
    · exact still kept
    · rename_i body at_
      exact still (keptArrived kept at_)
  | take i =>
    rw [step]
    split
    · exact still kept
    · rename_i k at_
      exact still (keptTaken kept dumped at_)
  | deliver j => exact keptDeliver kept few dumped fits j
  | forge status total root =>
    rw [step]
    exact still (keptAnswered kept fun a same => by cases same; rfl)
  | fail =>
    rw [step]
    exact still (keptAnswered kept fun a same => by cases same)

theorem issuedSame (dumped : Json → Nat) (fits : Json → Bool) (o : Settings) (s : System) {a : Act}
    (other : ∀ cmd args, a ≠ .enqueue cmd args) : (step dumped fits o s a).issued = s.issued := by
  have answered_ (perform : Option Answer) : (answered s perform).issued = s.issued := by
    rw [answered]
    split <;> rfl
  cases a with
  | tick | observe => rfl
  | enqueue cmd args => exact absurd rfl (other cmd args)
  | post =>
    rw [step]
    split
    · rfl
    · split <;> rfl
  | arrive | take =>
    rw [step]
    split <;> rfl
  | deliver =>
    rw [step]
    split
    · split
      · exact answered_ _
      · rfl
    · rfl
  | forge | fail =>
    rw [step]
    exact answered_ _

theorem issuedStep (dumped : Json → Nat) (fits : Json → Bool) (o : Settings) (s : System) (a : Act) :
    (step dumped fits o s a).issued.length ≤ s.issued.length+1 := by
  by_cases enqueues : ∃ cmd args, a = .enqueue cmd args
  · obtain ⟨cmd,args,rfl⟩ := enqueues
    exact Nat.le_of_eq List.length_append
  · rw [issuedSame dumped fits o s fun cmd args same => enqueues ⟨cmd,args,same⟩]
    exact Nat.le_succ _

theorem keptRun (dumped : Json → Nat) (fits : Json → Bool) (o : Settings) {acts : List Act} (few : acts.length < 10^45) :
    (run dumped fits o acts).issued.length ≤ acts.length ∧ ∃ done, Kept o (run dumped fits o acts) done := by
  induction acts using List.reverseRecOn with
  | nil => exact ⟨Nat.le_refl _,[],boots o⟩
  | append_singleton acts a ih =>
    rw [List.length_append,List.length_singleton] at few ⊢
    obtain ⟨short,done,kept⟩ := ih (by omega)
    rw [runConcat]
    have next := issuedStep dumped fits o (run dumped fits o acts) a
    obtain ⟨later,kept'⟩ := keptStep kept (by rw [kept.next]; omega) dumped fits a
    exact ⟨by omega,_,kept'⟩

end

/-- The device runs the commands of the terminal in their order, none twice and each as it was issued, whatever
the network loses, delays, repeats or makes up. -/
theorem runsInOrder (dumped : Json → Nat) (fits : Json → Bool) (o : Settings) (acts : List Act) (few : acts.length < 10^45) :
    let s := run dumped fits o acts
    (dispatchedIds s.log).Sublist (s.issued.map Queued.id) ∧ (dispatchedIds s.log).Nodup ∧
      ∀ id payload, .dispatched id payload ∈ s.log → ∃ c ∈ s.issued, c.id = id ∧ Carries c payload := by
  obtain ⟨-,done,kept⟩ := keptRun dumped fits o few
  have order := kept.ordered.order.map Queued.id
  rw [← kept.log] at order
  exact ⟨order,kept.distinct.sublist order,kept.payloads⟩

def textLength (j : Json) : Nat := (JsonText.print JsonText.decimal j).length

def textFits (j : Json) : Bool := textLength j < HttpBackend.httpBodyMax

def reference : Settings := ⟨8,600⟩

def atSecond (s : Nat) : Moment := ⟨s,ascii "0.8.12",s*1000000⟩

/-- A command and one the device does not know; two forged answers cost it the command first and the
acknowledgement then, and the first POST arrives twice. -/
def lossyActs : List Act :=
  [.enqueue (ascii "ui.beep") (.object []),.enqueue (ascii "ui.blink") (.object []),
    .post (atSecond 30),.arrive 0,.take 0,.forge 200 0 none,.post (atSecond 60),.arrive 1,.take 0,.deliver 1,
    .post (atSecond 90),.forge 204 0 none,.arrive 0,.tick 90,.post (atSecond 120),.arrive 3,.take 1,.take 0,.deliver 2]

theorem lossyOnce : dispatchedIds (run textLength textFits reference lossyActs).log = [commandId 1] ∧
    (dispatchedIds (run textLength textFits reference lossyActs).log).Nodup :=
  ⟨by decide +kernel,(runsInOrder textLength textFits reference lossyActs (by decide)).2.1⟩

/-- No command is lost or made up: each is still queued, or left the server once, run and acknowledged, refused
and never run, or too old. -/
theorem conserved (dumped : Json → Nat) (fits : Json → Bool) (o : Settings) (acts : List Act) (few : acts.length < 10^45) :
    let s := run dumped fits o acts
    (s.server.commands ++ s.left.map Prod.fst).Perm s.issued ∧ s.issued.Nodup ∧
      ∀ c outcome, (c,outcome) ∈ s.left → match outcome with
        | .acked => c.id ∈ dispatchedIds s.log
        | .rejected => c.id ∉ dispatchedIds s.log
        | .expired => 0 < o.cmdMaxAge ∧ o.cmdMaxAge < s.now-c.queuedAt := by
  obtain ⟨-,done,kept⟩ := keptRun dumped fits o few
  refine ⟨kept.shares,kept.once,fun c outcome mem => ?_⟩
  cases outcome with
  | acked =>
    rw [kept.log]
    exact List.mem_map_of_mem (kept.acked c mem)
  | rejected =>
    rw [kept.log]
    intro ran
    obtain ⟨d,d_,same⟩ := List.mem_map.mp ran
    have left : c ∈ (run dumped fits o acts).issued :=
      kept.shares.subset (List.mem_append_right _ (List.mem_map_of_mem (f := Prod.fst) mem))
    obtain rfl := kept.apart (kept.ours d d_) left same
    exact kept.refused d mem (kept.worked.all d d_)
  | expired => exact kept.expired c mem

theorem lossyConserved : (run textLength textFits reference lossyActs).server.commands.length = 2 ∧
    (run textLength textFits reference lossyActs).issued.Nodup :=
  ⟨by decide +kernel,(conserved textLength textFits reference lossyActs (by decide)).2.1⟩

/-- The device posts, the server handles it and answers, and the answer arrives. -/
def exchange (dumped : Json → Nat) (fits : Json → Bool) (o : Settings) (s : System) (m : Moment) : Option System :=
  if s.waiting.isNone ∧ (buildBody fits s.device m).isSome then
    some ([.post m,.arrive s.posted.length,.take s.handling.length,.deliver s.replies.length].foldl (step dumped fits o) s)
  else none

section
variable {dumped : Json → Nat} {fits : Json → Bool} {o : Settings} {s s' : System} {m : Moment} {done : List Queued}

/-- The server hears of the command at the next POST. -/
def Told (b : Backend) (c : Queued) : Prop := c.id ∈ b.pending ∨ ∃ r ∈ b.rejected, r.id = c.id

theorem ackTells (b : Backend) (id : Bytes) : id ∈ (ackAdd b id).1.pending := by
  unfold ackAdd
  split
  · assumption
  · split <;> simp

theorem rejTells {b : Backend} {id : Bytes} (short : id.length < ackIdMax) (reason : Reason) :
    ∃ r ∈ (rejAdd b id reason).rejected, r.id = id := by
  have whole : id.take (ackIdMax-1) = id := List.take_of_length_le (Nat.le_pred_of_lt short)
  simp only [rejAdd,whole]
  split
  · rename_i queued
    have refreshed : ∀ l : List Rejected, (l.any fun r => r.id = id) = true → ∃ r ∈ refreshReason id reason l, r.id = id := by
      intro l
      induction l with
      | nil => exact fun none_ => by cases none_
      | cons first rest ih =>
        intro some_
        rw [refreshReason]
        split
        · rename_i same
          exact ⟨_,.head _,same⟩
        · rename_i other
          rw [List.any_cons,decide_eq_false other,Bool.false_or] at some_
          obtain ⟨r,r_,same⟩ := ih some_
          exact ⟨r,.tail _ r_,same⟩
    exact refreshed b.rejected queued
  · split <;> exact ⟨⟨id,reason⟩,by simp,rfl⟩

theorem lastTold (b : Backend) (cs : List Queued) {c : Queued} (named : Named c) :
    Told (handleCommands b ((cs ++ [c]).map wire)).1 c := by
  induction cs generalizing b with
  | nil =>
    have one : (handleCommands b (([] ++ [c]).map wire)).1 = (handleCommand b (wire c)).1 := rfl
    rw [one]
    have took := taken b named
    generalize handleCommand b (wire c) = r at took ⊢
    cases took with
    | again => exact .inl (ackTells b c.id)
    | first => exact .inl (ackTells _ c.id)
    | refused => exact .inr (rejTells named.2 _)
  | cons first rest ih => exact ih _

theorem trimFits {maxBytes : Nat} {chosen : List Queued} (one : dumped (responseBody (chosen.take 1)) ≤ maxBytes) {n : Nat}
    (some_ : 0 < n) :
    trim dumped maxBytes chosen n ≠ [] ∧ dumped (responseBody (trim dumped maxBytes chosen n)) ≤ maxBytes ∨ chosen = [] := by
  induction n with
  | zero => exact absurd some_ (Nat.lt_irrefl 0)
  | succ n ih =>
    by_cases empty : chosen = []
    · exact .inr empty
    · rw [trim]
      split
      · rename_i long
        refine ih (Nat.pos_of_ne_zero fun zero => ?_)
        rw [zero] at long
        exact absurd long (Nat.not_lt.mpr one)
      · rename_i short
        refine .inl ⟨?_,by omega⟩
        simp [empty]

structure Exchanged (dumped : Json → Nat) (o : Settings) (s : System) (m : Moment) (s' : System) : Prop where
  server : s'.server = (takePending dumped o s.now (applyAcks (.object (bodyFields s.device m)) s.server)).1
  device : s'.device = (settle s.device (.object (bodyFields s.device m)) (some (signedAnswer dumped
    (takePending dumped o s.now (applyAcks (.object (bodyFields s.device m)) s.server)).2))).1
  issued : s'.issued = s.issued

theorem exchangeSteps (ok : exchange dumped fits o s m = some s') : Exchanged dumped o s m s' := by
  rw [exchange] at ok
  split at ok
  · rename_i ready
    obtain ⟨body,built⟩ := Option.isSome_iff_exists.mp ready.2
    have whole : body = .object (bodyFields s.device m) := by
      rw [buildBody] at built
      split at built
      · exact (Option.some.inj built).symm
      · cases built
    have idle : ¬s.waiting.isSome = true := by rw [Option.isNone_iff_eq_none.mp ready.1]; simp
    have posted : step dumped fits o s (.post m) = { s with posted := s.posted ++ [body], waiting := some s.posted.length } := by
      rw [step,if_neg idle,built]
    have arrived_ : step dumped fits o { s with posted := s.posted ++ [body], waiting := some s.posted.length }
      (.arrive s.posted.length) =
        arrived { s with posted := s.posted ++ [body], waiting := some s.posted.length } s.posted.length body := by
      rw [step,List.getElem?_concat_length]
    have same := Option.some.inj ok
    rw [List.foldl_cons,List.foldl_cons,List.foldl_cons,List.foldl_cons,List.foldl_nil,posted,arrived_] at same
    generalize arrivedHere : arrived { s with posted := s.posted ++ [body], waiting := some s.posted.length }
      s.posted.length body = q
      at same
    have server : q.server = applyAcks body s.server := by rw [← arrivedHere]; rfl
    have handles : q.handling[s.handling.length]? = some s.posted.length := by
      rw [← arrivedHere]; exact List.getElem?_concat_length
    have kept : q.now = s.now ∧ q.replies = s.replies ∧ q.device = s.device ∧ q.issued = s.issued ∧
        q.waiting = some s.posted.length ∧ q.posted = s.posted ++ [body] := by
      rw [← arrivedHere]; exact ⟨rfl,rfl,rfl,rfl,rfl,rfl⟩
    obtain ⟨now,replies,device,issued,waiting,posts⟩ := kept
    have taken_ : step dumped fits o q (.take s.handling.length) = tookPending dumped o q s.handling.length s.posted.length := by
      rw [step,handles]
    have last : (tookPending dumped o q s.handling.length s.posted.length).replies[s.replies.length]? =
        some (s.posted.length,(takePending dumped o s.now (applyAcks body s.server)).2) := by
      rw [← server,← now,← replies]; exact List.getElem?_concat_length
    have place : (s.posted ++ [body]).getD s.posted.length .null = body := by simp
    rw [taken_,step,last] at same
    simp only [tookPending,answered,waiting,if_true,posts,place,server,now,device,issued] at same
    subst whole same
    exact ⟨rfl,rfl,rfl⟩
  · cases ok

theorem exchangeClears (h : Exchanged dumped o s m s') {c : Queued} (told : Told s.device c) : c ∉ s'.server.commands := by
  rw [h.server,takePending]
  intro mem
  have here : c ∈ (applyAcks (.object (bodyFields s.device m)) s.server).commands := by
    rw [expireKeeps] at mem
    exact (List.mem_filter.mp mem).1
  rw [applyAcks,HttpBackend.bodyCarries,bodyRejects] at here
  obtain ⟨unacked,unrejected⟩ := List.mem_filter.mp here
  rcases told with acked | ⟨r,r_,same⟩
  · have other := (List.mem_filter.mp unacked).2
    rw [List.contains_iff_mem.mpr acked] at other
    cases other
  · have hit : ((s.device.rejected.map fun r => (r.id,r.reason.text)).any fun r => hits r c) = true :=
      List.any_eq_true.mpr ⟨_,List.mem_map_of_mem r_,by simp [hits,same]⟩
    rw [hit] at unrejected
    cases unrejected

theorem exchangePart (h : Exchanged dumped o s m s') : s'.server.commands.Sublist s.server.commands := by
  rw [h.server,takePending,applyAcks]
  dsimp only
  rw [expireKeeps]
  exact List.filter_sublist.trans (List.filter_sublist.trans List.filter_sublist)

theorem exchangeTells (limited : 0 < o.maxCommands) (h : Exchanged dumped o s m s') (positive : ∀ j, 0 < dumped j)
    (named : ∀ c ∈ s.server.commands, Named c)
    (fit : ∀ c ∈ s.server.commands, dumped (responseBody [c]) ≤ deviceResponseMaxBytes) :
    s'.server.commands = [] ∨ ∃ c ∈ s'.server.commands, Told s'.device c := by
  have part := exchangePart h
  cases queue : s'.server.commands with
  | nil => exact .inl rfl
  | cons first rest =>
    refine .inr ?_
    rw [← queue]
    have left := h.server
    have handed_ := h.device
    rw [takePending] at left handed_
    dsimp only at left handed_
    rw [← left,handOut,if_neg (Nat.ne_of_gt limited)] at handed_
    have one : dumped (responseBody (s'.server.commands.take 1)) ≤ deviceResponseMaxBytes := by
      rw [queue]
      exact fit first (part.subset (by rw [queue]; exact .head _))
    have some_ : 0 < min o.maxCommands s'.server.commands.length := by
      rw [queue,List.length_cons]
      exact Nat.lt_min.mpr ⟨limited,Nat.succ_pos _⟩
    obtain ⟨given,short⟩ := (trimFits one some_).resolve_right (by simp [queue])
    have front := trimPrefix dumped deviceResponseMaxBytes s'.server.commands (min o.maxCommands s'.server.commands.length)
    generalize trim dumped deviceResponseMaxBytes s'.server.commands (min o.maxCommands s'.server.commands.length) = chosen at *
    obtain ⟨ids,handles⟩ := signedRuns (positive _) short s.device (.object (bodyFields s.device m))
    rw [handles] at handed_
    have some_' : chosen.take cmdsPerRespMax ≠ [] := by simpa [cmdsPerRespMax,ackPendingMax] using given
    obtain ⟨before,last,parts⟩ := (List.eq_nil_or_concat _).resolve_left some_'
    have mem : last ∈ s'.server.commands := ((List.take_prefix _ _).trans front).subset (by rw [parts]; simp)
    refine ⟨last,mem,?_⟩
    rw [handed_,parts,List.concat_eq_append]
    exact lastTold _ before (named last (part.subset mem))

def exchanges (dumped : Json → Nat) (fits : Json → Bool) (o : Settings) (s : System) : List Moment → Option System
  | [] => some s
  | m::ms => (exchange dumped fits o s m).bind fun s => exchanges dumped fits o s ms

theorem keptOther (kept : Kept o s done) (few : s.server.nextId ≤ 10^45) (dumped : Json → Nat) (fits : Json → Bool) (a : Act)
    (other : ∀ cmd args, a ≠ .enqueue cmd args) :
    (step dumped fits o s a).server.nextId ≤ 10^45 ∧ ∃ done, Kept o (step dumped fits o s a) done := by
  obtain ⟨later,kept'⟩ := keptStep kept few dumped fits a
  refine ⟨?_,_,kept'⟩
  rw [kept'.next,issuedSame dumped fits o s other,← kept.next]
  exact few

theorem keptExchange (kept : Kept o s done) (few : s.server.nextId ≤ 10^45) (ok : exchange dumped fits o s m = some s') :
    s'.server.nextId ≤ 10^45 ∧ ∃ done, Kept o s' done := by
  rw [exchange] at ok
  split at ok
  · obtain rfl := Option.some.inj ok
    obtain ⟨few1,_,kept1⟩ := keptOther kept few dumped fits (.post m) (by simp)
    obtain ⟨few2,_,kept2⟩ := keptOther kept1 few1 dumped fits (.arrive s.posted.length) (by simp)
    obtain ⟨few3,_,kept3⟩ := keptOther kept2 few2 dumped fits (.take s.handling.length) (by simp)
    exact keptOther kept3 few3 dumped fits (.deliver s.replies.length) (by simp)
  · cases ok

theorem exchangesDrain (limited : 0 < o.maxCommands) (positive : ∀ j, 0 < dumped j) {ms : List Moment}
    (kept : ∃ done, Kept o s done) (few : s.server.nextId ≤ 10^45)
    (fit : ∀ c ∈ s.server.commands, dumped (responseBody [c]) ≤ deviceResponseMaxBytes)
    (told : s.server.commands = [] ∨ ∃ c ∈ s.server.commands, Told s.device c) (ok : exchanges dumped fits o s ms = some s')
    (enough : s.server.commands.length ≤ ms.length) :
    s'.server.commands = [] ∧ s'.issued = s.issued ∧ ∃ done, Kept o s' done := by
  induction ms generalizing s with
  | nil =>
    obtain rfl := Option.some.inj ok
    exact ⟨List.length_eq_zero_iff.mp (Nat.le_zero.mp enough),rfl,kept⟩
  | cons m ms ih =>
    obtain ⟨s₁,first,rest⟩ := Option.bind_eq_some_iff.mp ok
    obtain ⟨done,kept⟩ := kept
    have steps := exchangeSteps first
    have part := exchangePart steps
    have named : ∀ c ∈ s.server.commands, Named c := fun c mem => by
      obtain ⟨n,below,id⟩ := kept.ids c (kept.queue.subset mem)
      exact commandNamed id (Nat.lt_of_lt_of_le below few)
    obtain ⟨few₁,kept₁⟩ := keptExchange kept few first
    have shorter : s₁.server.commands.length ≤ ms.length := by
      rcases told with empty | ⟨c,c_,told⟩
      · rw [empty] at part
        rw [List.sublist_nil.mp part]
        exact Nat.zero_le _
      · have strict : s₁.server.commands.length < s.server.commands.length := by
          refine Nat.lt_of_le_of_ne part.length_le fun same => exchangeClears steps told ?_
          rw [part.eq_of_length same]
          exact c_
        rw [List.length_cons] at enough
        omega
    obtain ⟨empty,issued,kept'⟩ := ih kept₁ few₁ (fun c mem => fit c (part.subset mem))
      (exchangeTells limited steps positive named fit) rest shorter
    exact ⟨empty,issued.trans steps.issued,kept'⟩

end

/-- One exchange more than there are commands, with nothing lost, empties the queue: whatever the device can run has
been run, unless it was too old. -/
theorem drains {dumped : Json → Nat} (positive : ∀ j, 0 < dumped j) (fits : Json → Bool) {o : Settings}
    (limited : 0 < o.maxCommands) {acts : List Act}
    (few : acts.length < 10^45) {ms : List Moment} {s' : System}
    (fit : ∀ c ∈ (run dumped fits o acts).server.commands, dumped (responseBody [c]) ≤ deviceResponseMaxBytes)
    (ok : exchanges dumped fits o (run dumped fits o acts) ms = some s')
    (enough : (run dumped fits o acts).server.commands.length < ms.length) :
    s'.server.commands = [] ∧ ∀ c ∈ (run dumped fits o acts).issued, cmdKnown c.cmd = true →
      c.id ∈ dispatchedIds s'.log ∨ 0 < o.cmdMaxAge ∧ o.cmdMaxAge < s'.now-c.queuedAt := by
  obtain ⟨short,done,kept⟩ := keptRun dumped fits o few
  have few_ : (run dumped fits o acts).server.nextId ≤ 10^45 := by
    rw [kept.next]
    omega
  cases ms with
  | nil => exact absurd enough (Nat.not_lt_zero _)
  | cons m ms =>
    obtain ⟨s₁,first,rest⟩ := Option.bind_eq_some_iff.mp ok
    have steps := exchangeSteps first
    have part := exchangePart steps
    have named : ∀ c ∈ (run dumped fits o acts).server.commands, Named c := fun c mem => by
      obtain ⟨n,below,id⟩ := kept.ids c (kept.queue.subset mem)
      exact commandNamed id (Nat.lt_of_lt_of_le below few_)
    obtain ⟨few₁,kept₁⟩ := keptExchange kept few_ first
    obtain ⟨empty,issued,done',kept'⟩ := exchangesDrain limited positive kept₁ few₁ (fun c mem => fit c (part.subset mem))
      (exchangeTells limited steps positive named fit) rest (Nat.le_trans part.length_le (Nat.le_of_lt_succ enough))
    refine ⟨empty,fun c mem runs => ?_⟩
    rw [← steps.issued,← issued] at mem
    have left := kept'.shares.mem_iff.mpr mem
    rw [empty,List.nil_append,List.mem_map] at left
    obtain ⟨⟨d,outcome⟩,left,rfl⟩ := left
    cases outcome with
    | acked =>
      rw [kept'.log]
      exact .inl (List.mem_map_of_mem (kept'.acked d left))
    | rejected => exact absurd runs (kept'.refused d left)
    | expired => exact .inr (kept'.expired d left)

theorem textSome (j : Json) : 0 < textLength j := by
  cases j with
  | number value =>
    have some_ (n : Nat) : 0 < (JsonText.digits n).length := by
      rw [JsonText.digits,List.length_map]
      exact Nat.length_toDigits_pos
    simp only [textLength,JsonText.print,JsonText.decimal]
    split
    · simp
    · exact some_ _
  | null | string | array | object => simp [textLength,JsonText.print,JsonText.nullText,JsonText.quote]

theorem lossyDrains : ∃ s', exchanges textLength textFits reference (run textLength textFits reference lossyActs)
    [atSecond 150,atSecond 180,atSecond 210] = some s' ∧ s'.server.commands = [] := by
  have done : (exchanges textLength textFits reference (run textLength textFits reference lossyActs)
    [atSecond 150,atSecond 180,atSecond 210]).isSome = true := by decide +kernel
  obtain ⟨s',ok⟩ := Option.isSome_iff_exists.mp done
  have fit : ∀ c ∈ (run textLength textFits reference lossyActs).server.commands,
      textLength (responseBody [c]) ≤ deviceResponseMaxBytes := by decide +kernel
  exact ⟨s',ok,(drains textSome textFits (by decide) (by decide) fit ok (by decide +kernel)).1⟩

end Web3PiUps.HttpServer
