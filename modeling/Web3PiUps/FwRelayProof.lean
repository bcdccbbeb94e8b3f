import Web3PiUps.FwRelay
import Web3PiUps.FwStaging

/-! What an observed OK means to the relay. Both queues keep their order and a response
is matched by its sequence number, so an answer to the latest request has nothing before
or behind it on the line, unless a response turns up 256 requests late. -/
namespace Web3PiUps.FwRelayProof
open FwUpdate hiding Event step
open FwStaging hiding at' answered
open WupsProtocol FwSha256 FwRelay StepMachine

/-! The fields of a request are read back as they were written. -/

theorem le32Read {n : Nat} (small : n < 4294967296) (rest : Bytes) : le32 (le32Bytes n ++ rest) 0 = n := by
  simp only [le32,le32Bytes,List.cons_append,List.nil_append,List.getD_cons_zero,List.getD_cons_succ,
    UInt8.toNat_ofNat']
  omega

/-- The session, if one is open on a running board. -/
def Live (r : Rp2040) (P : Session → Prop) : Prop := r.on = true → r.s.isOpen = true → P r.s

/-- An open session is `r`'s, apart from the time of its last request. -/
def Same (r r' : Rp2040) : Prop := r'.on = true → r'.s.isOpen = true → r.on = true ∧ r.s.isOpen = true ∧
  r'.s.imageLen = r.s.imageLen ∧ r'.s.sha = r.s.sha ∧ r'.s.accepted = r.s.accepted

/-- What the board makes of a request. -/
inductive Handled (r : Rp2040) (op : XferOp) (payload : Bytes) (r' : Rp2040) (result : UInt8) : Prop where
  | kept (session : Same r r') (none_ : ¬ Armed r'.flash.disk)
      (quiet : result = xferOk → op = .commit ∧ payload.getD 1 0 = 0)
  | opened (began : op = .begin) (none_ : ¬ Armed r'.flash.disk)
      (how : Opened (fwUpdateNoteFrameOk r) payload r')
  | taken (data : op = .data) (none_ : ¬ Armed r'.flash.disk)
      (how : Taken (fwUpdateNoteFrameOk r) payload r')
  | committed (commit : op = .commit) (how : Committed (fwUpdateNoteFrameOk r) r')

section Board
variable {r : Rp2040}

theorem refusedSame {r' : Rp2040} (refused : Refused (fwUpdateNoteFrameOk r) r') : Same r r' := by
  intro on opened
  have session := refused.session
  rw [noteSession] at session
  rw [session] at opened ⊢
  exact ⟨noteOn.symm.trans (refused.on.symm.trans on),opened,rfl,rfl,rfl⟩

theorem droppedSame {r' : Rp2040} (dropped : Dropped (fwUpdateNoteFrameOk r) r') : Same r r' :=
  fun _ opened => absurd (dropped.closed.symm.trans opened) (by simp)

theorem requestHandled (g : Good r) (op : XferOp) (payload : Bytes) (env : Env) :
    Handled r op payload (wupsOnRequest r op payload env).1 (wupsOnRequest r op payload env).2 := by
  have noted := noteGood g
  unfold wupsOnRequest
  cases op with
  | begin =>
    rcases beginCases (fwUpdateNoteFrameOk r) payload env with ⟨refused,ne⟩ | ⟨dropped,ne⟩ | ⟨opened,-⟩
    · exact .kept (refusedSame refused) (refusedGood noted refused).disarmed (fun ok => absurd ok ne)
    · exact .kept (droppedSame dropped) (droppedGood noted dropped).disarmed (fun ok => absurd ok ne)
    · exact .opened rfl (openedGood noted opened).disarmed opened
  | data =>
    rcases dataCases noted.staged noted.small payload env with ⟨refused,ne⟩ | ⟨dropped,ne⟩ | ⟨taken,-⟩
    · exact .kept (refusedSame refused) (refusedGood noted refused).disarmed (fun ok => absurd ok ne)
    · exact .kept (droppedSame dropped) (droppedGood noted dropped).disarmed (fun ok => absurd ok ne)
    · exact .taken rfl (takenGood noted taken).disarmed taken
  | commit =>
    dsimp only
    rcases endCases noted.staged payload env with ⟨turned,quiet⟩ | ⟨committed,-,commits,answer⟩
    · rw [quiet]
      rcases turned with ⟨refused,ne⟩ | ⟨dropped,abort⟩
      · exact .kept (refusedSame refused) (refusedGood noted refused).disarmed (fun ok => absurd ok ne)
      · exact .kept (droppedSame dropped) (droppedGood noted dropped).disarmed (fun ok => ⟨rfl,abort ok⟩)
    · rw [answer]
      exact .committed rfl ⟨committed.wasOpen,committed.complete,committed.image,committed.length,
        committed.digest,committed.sane,committed.armed,committed.closed,committed.empty⟩

theorem boardSame {input : FwUpdate.Event × Env} (other : ∀ op payload, input.1 ≠ .request op payload) :
    Same r (FwUpdate.step r input).1 := by
  intro on opened
  suffices kept : r.on = true ∧ (FwUpdate.step r input).1.s = r.s by
    obtain ⟨running,session⟩ := kept
    rw [session] at opened ⊢
    exact ⟨running,opened,rfl,rfl,rfl⟩
  obtain ⟨event,env⟩ := input
  cases running : r.on with
  | false =>
    cases event with
    | boot =>
      have moved : FwUpdate.step r (.boot,env) = (boot (ready r env) env.now,none) := by
        simp only [FwUpdate.step,running]
      rw [moved] at opened
      have closed : (boot (ready r env) env.now).s = .closed := initSession _ _
      exact absurd opened (by rw [closed]; simp [Session.closed])
    | request op payload => exact absurd rfl (other op payload)
    | frame => rw [offStays running (by simp)] at on; exact absurd (running.symm.trans on) (by simp)
    | tick => rw [offStays running (by simp)] at on; exact absurd (running.symm.trans on) (by simp)
    | cut => rw [offStays running (by simp)] at on; exact absurd (running.symm.trans on) (by simp)
  | true =>
    refine ⟨rfl,?_⟩
    cases event with
    | boot => simp only [FwUpdate.step,running]
    | request op payload => exact absurd rfl (other op payload)
    | frame =>
      have moved : FwUpdate.step r (.frame,env) = (fwUpdateNoteFrameOk (ready r env),none) := by
        simp only [FwUpdate.step,running]
      rw [moved]; exact noteSession
    | tick =>
      have moved : FwUpdate.step r (.tick,env) = (fwUpdateTick (ready r env) env.now,none) := by
        simp only [FwUpdate.step,running]
      rw [moved] at opened ⊢
      rcases tickSession (ready r env) env.now with same | closed
      · exact same
      · exact absurd (closed.symm.trans opened) (by simp)
    | cut =>
      have moved : FwUpdate.step r (.cut,env) = (reboot r,none) := by simp only [FwUpdate.step,running]
      rw [moved] at on; exact absurd on (by simp [reboot])

end Board

def indices (y : System) : List Nat := y.responses.map RespFrame.index ++ y.requests.map ReqFrame.index

structure Fifo (y : System) : Prop where
  ordered : (indices y).Pairwise (· < ·)
  sent : ∀ i ∈ indices y, i ≤ y.relay.sentRequests
  seq : y.relay.seq = UInt8.ofNat y.relay.sentRequests
  responses : ∀ f ∈ y.responses, f.seq = UInt8.ofNat f.index
  requests : ∀ f ∈ y.requests, f.seq = UInt8.ofNat f.index
  armed : y.relay.armed = true → y.relay.respSeq = y.relay.seq

/-- The relay's own steps leave the queues and the latest sequence number alone. -/
theorem Fifo.quiet {y : System} (q : Fifo y) {l : Relay} (seq : l.seq = y.relay.seq)
    (sent : l.sentRequests = y.relay.sentRequests) (armed : l.armed = true → l.respSeq = y.relay.seq) :
    Fifo { y with relay := l } :=
  ⟨q.ordered,by rw [sent]; exact q.sent,by rw [seq,sent]; exact q.seq,q.responses,q.requests,
    fun on => (armed on).trans seq.symm⟩

theorem Fifo.lost {y : System} (q : Fifo y) {requests : List ReqFrame} {responses : List RespFrame}
    (some_ : requests.Sublist y.requests) (others : responses.Sublist y.responses) :
    Fifo { y with requests := requests, responses := responses } := by
  have fewer : (indices { y with requests := requests, responses := responses }).Sublist (indices y) :=
    (others.map _).append (some_.map _)
  exact ⟨q.ordered.sublist fewer,fun i listed => q.sent i (fewer.subset listed),q.seq,
    fun f listed => q.responses f (others.subset listed),fun f listed => q.requests f (some_.subset listed),q.armed⟩

theorem Fifo.attempt {y : System} (q : Fifo y) (req : Request) (retried : Bool) :
    Fifo (sendAttempt y req retried) := by
  have next : indices (sendAttempt y req retried) = indices y ++ [y.relay.sentRequests+1] := by
    simp [indices,sendAttempt]
  have seq : y.relay.seq+1 = UInt8.ofNat (y.relay.sentRequests+1) := by
    rw [q.seq]; exact (UInt8.ofNat_add _ _).symm
  refine ⟨?_,?_,seq,q.responses,?_,fun _ => rfl⟩
  · rw [next,List.pairwise_append]
    refine ⟨q.ordered,List.pairwise_singleton _ _,fun a listed b last => ?_⟩
    rw [List.mem_singleton.mp last]
    exact Nat.lt_succ_of_le (q.sent a listed)
  · rw [next]
    intro i listed
    show i ≤ y.relay.sentRequests+1
    rcases List.mem_append.mp listed with old | new
    · exact Nat.le_succ_of_le (q.sent i old)
    · rw [List.mem_singleton.mp new]
  · intro f listed
    rcases List.mem_append.mp listed with old | new
    · exact q.requests f old
    · rw [List.mem_singleton.mp new]; exact seq

theorem Fifo.answered {y : System} (q : Fifo y) {f : ReqFrame} {rest : List ReqFrame} (head : y.requests = f::rest)
    (result : UInt8) (rp : Rp2040) (staged : Option Bytes) :
    Fifo { y with requests := rest, responses := y.responses ++ [⟨f.index,f.op,f.seq,result⟩], rp := rp
                  staged := staged } := by
  have same : indices { y with requests := rest, responses := y.responses ++ [⟨f.index,f.op,f.seq,result⟩], rp := rp
                               staged := staged } = indices y := by
    simp [indices,head]
  refine ⟨by rw [same]; exact q.ordered,by rw [same]; exact q.sent,q.seq,?_,?_,q.armed⟩
  · intro g listed
    rcases List.mem_append.mp listed with old | new
    · exact q.responses g old
    · rw [List.mem_singleton.mp new]; exact q.requests f (by rw [head]; exact List.mem_cons_self)
  · exact fun g listed => q.requests g (by rw [head]; exact List.mem_cons_of_mem f listed)

/-- Behind the response to the latest request nothing is on the line. -/
theorem Fifo.empty {y : System} (q : Fifo y) {f : RespFrame} {rest : List RespFrame} (head : y.responses = f::rest)
    (latest : f.index = y.relay.sentRequests) : rest = [] ∧ y.requests = [] := by
  have split : indices y = f.index :: (rest.map RespFrame.index ++ y.requests.map ReqFrame.index) := by
    simp [indices,head]
  have none_ : rest.map RespFrame.index ++ y.requests.map ReqFrame.index = [] := by
    refine List.eq_nil_iff_forall_not_mem.mpr (fun i listed => ?_)
    have above := (List.pairwise_cons.mp (split ▸ q.ordered)).1 i listed
    have below := q.sent i (by rw [split]; exact List.mem_cons_of_mem _ listed)
    omega
  obtain ⟨left,right⟩ := List.append_eq_nil_iff.mp none_
  exact ⟨List.map_eq_nil_iff.mp left,List.map_eq_nil_iff.mp right⟩

/-- Fewer than 256 requests after its own, a response that matches is the latest's. -/
theorem Fifo.matched {y : System} (q : Fifo y) {f : RespFrame} (listed : f ∈ y.responses)
    (timely : y.relay.sentRequests < f.index+256) (armed : y.relay.armed = true) (same : f.seq = y.relay.respSeq) :
    f.index = y.relay.sentRequests := by
  have below := q.sent f.index (List.mem_append_left _ (List.mem_map_of_mem listed))
  have equal : UInt8.ofNat f.index = UInt8.ofNat y.relay.sentRequests := by
    rw [← q.responses f listed,same,q.armed armed,q.seq]
  have residue := congrArg UInt8.toNat equal
  rw [UInt8.toNat_ofNat',UInt8.toNat_ofNat'] at residue
  omega

/-- The open session is the one this transfer announced, with these chunks. -/
def Holds (l : Relay) (chunks : List Bytes) (s : Session) : Prop :=
  s.imageLen = l.imageLen ∧ s.sha = l.shaExpected ∧ s.accepted = chunks

/-- The staged image is the stream, of the length and the digest announced. -/
def Done (y : System) : Prop := y.staged = some y.relay.streamed ∧
  y.relay.streamed.length = y.relay.imageLen ∧ sha256 y.relay.streamed = y.relay.shaExpected

/-- What an OK to the request means. -/
def Heard (y : System) : Request → Prop
  | .begin _ _ => Live y.rp (Holds y.relay [])
  | .data _ chunk => Live y.rp (Holds y.relay (y.relay.acked ++ [chunk]))
  | .commit => Done y
  | .abort => True

/-- What holds while a request is out. -/
def Before (y : System) : Request → Prop
  | .begin imageLen sha => imageLen = y.relay.imageLen ∧ sha = y.relay.shaExpected ∧ sha.length = 32
  | .data offset chunk =>
    (offset = y.relay.acked.flatten.length ∧ y.relay.sent = offset ∧ chunk ≠ [] ∧
      chunk = y.relay.buf.take wupsFwXferChunk ∧ y.relay.streamed = y.relay.acked.flatten ++ y.relay.buf ∧
      y.relay.sent+y.relay.buf.length ≤ y.relay.imageLen) ∧
    Live y.rp (fun s => Holds y.relay y.relay.acked s ∨ Holds y.relay (y.relay.acked ++ [chunk]) s)
  | .commit => y.relay.streamed = y.relay.acked.flatten ∧ Live y.rp (Holds y.relay y.relay.acked)
  | .abort => True

/-- A request of this transfer is on the line only as its attempts and their answers. -/
structure Waits (y : System) (req : Request) : Prop where
  asked : ∀ f ∈ y.requests, y.relay.base < f.index → f.op = req.op ∧ f.payload = req.payload
  alone : req.op ≠ .begin → ∀ f ∈ y.requests, y.relay.base < f.index
  heard : ∀ f ∈ y.responses, y.relay.base < f.index → f.result = xferOk → Heard y req
  latest : y.relay.base < y.relay.sentRequests
  before : Before y req

/-- Between two requests the line is empty. -/
structure Settled (y : System) : Prop where
  requests : y.requests = []
  responses : y.responses = []
  session : Live y.rp (Holds y.relay y.relay.acked)
  sent : y.relay.sent = y.relay.acked.flatten.length
  streamed : y.relay.streamed = y.relay.acked.flatten
  within : y.relay.sent ≤ y.relay.imageLen
  latest : y.relay.base < y.relay.sentRequests

def Phase (y : System) : Prop :=
  match y.relay.place with
  | .idle => y.relay.observedOk = true → Done y ∧ y.requests = []
  | .sending req _ => y.relay.observedOk = false ∧ (req ≠ .abort → Waits y req ∧
      (y.relay.sig = true → y.requests = [] ∧ y.responses = [] ∧ (y.relay.respResult = xferOk → Heard y req)))
  | .expired req _ => y.relay.observedOk = false ∧ (req ≠ .abort → Waits y req)
  | .reading => y.relay.observedOk = false ∧ Settled y
  | .watching => Done y ∧ y.requests = []

structure Inv (y : System) : Prop where
  fifo : Fifo y
  good : y.rp.on = true → Good y.rp
  limit : y.relay.imageLen ≤ fwRelayImageMax
  phase : Phase y

section Relay
variable {y : System}

theorem finished (q : Fifo y) (good : y.rp.on = true → Good y.rp) (limit : y.relay.imageLen ≤ fwRelayImageMax)
    (armed : y.relay.armed = true → y.relay.respSeq = y.relay.seq)
    (quiet : y.relay.observedOk = false) : Inv (finish y) :=
  ⟨q.quiet rfl rfl armed,good,limit,fun observed => absurd (quiet.symm.trans observed) (by simp)⟩

theorem aborted (q : Fifo y) (good : y.rp.on = true → Good y.rp) (limit : y.relay.imageLen ≤ fwRelayImageMax)
    (quiet : y.relay.observedOk = false) : Inv (fail y) := by
  unfold fail
  split
  · exact ⟨q.attempt .abort false,good,limit,quiet,fun other => absurd rfl other⟩
  · exact finished q good limit q.armed quiet

/-- The first attempt of a request finds an empty line, but for what earlier transfers left to a BEGIN. -/
theorem attempted (q : Fifo y) (good : y.rp.on = true → Good y.rp) (limit : y.relay.imageLen ≤ fwRelayImageMax)
    (quiet : y.relay.observedOk = false) (req : Request)
    (older : ∀ f ∈ y.requests, f.index ≤ y.relay.base) (answers : ∀ f ∈ y.responses, f.index ≤ y.relay.base)
    (empty : req.op ≠ .begin → y.requests = []) (latest : y.relay.base ≤ y.relay.sentRequests)
    (before : Before y req) : Inv (xferSendReq y req) := by
  refine ⟨q.attempt req false,good,limit,quiet,fun _ => ⟨⟨?_,?_,?_,Nat.lt_succ_of_le latest,?_⟩,?_⟩⟩
  · intro f listed above
    rcases List.mem_append.mp listed with old | new
    · exact absurd (older f old) (Nat.not_le.mpr above)
    · rw [List.mem_singleton.mp new]; exact ⟨rfl,rfl⟩
  · intro other f listed
    rcases List.mem_append.mp listed with old | new
    · rw [empty other] at old; exact absurd old (by simp)
    · rw [List.mem_singleton.mp new]; exact Nat.lt_succ_of_le latest
  · exact fun f listed above => absurd (answers f listed) (Nat.not_le.mpr above)
  · cases req <;> exact before
  · exact fun signalled => absurd signalled (by simp [xferSendReq,sendAttempt])

theorem settledAttempt (q : Fifo y) (good : y.rp.on = true → Good y.rp) (limit : y.relay.imageLen ≤ fwRelayImageMax)
    (quiet : y.relay.observedOk = false) (req : Request) (requests : y.requests = []) (responses : y.responses = [])
    (latest : y.relay.base < y.relay.sentRequests) (before : Before y req) : Inv (xferSendReq y req) :=
  attempted q good limit quiet req (by rw [requests]; simp) (by rw [responses]; simp) (fun _ => requests)
    (Nat.le_of_lt latest) before

theorem retriedAttempt {req : Request} (q : Fifo y) (good : y.rp.on = true → Good y.rp)
    (limit : y.relay.imageLen ≤ fwRelayImageMax) (quiet : y.relay.observedOk = false)
    (waits : req ≠ .abort → Waits y req) : Inv (sendAttempt y req true) := by
  refine ⟨q.attempt req true,good,limit,quiet,fun real => ⟨?_,?_⟩⟩
  · have w := waits real
    refine ⟨?_,?_,?_,Nat.lt_succ_of_lt w.latest,?_⟩
    · intro f listed above
      rcases List.mem_append.mp listed with old | new
      · exact w.asked f old above
      · rw [List.mem_singleton.mp new]; exact ⟨rfl,rfl⟩
    · intro other f listed
      rcases List.mem_append.mp listed with old | new
      · exact w.alone other f old
      · rw [List.mem_singleton.mp new]; exact Nat.lt_succ_of_lt w.latest
    · intro f listed above ok
      have heard := w.heard f listed above ok
      cases req <;> exact heard
    · have before := w.before
      cases req <;> exact before
  · exact fun signalled => absurd signalled (by simp [sendAttempt])

theorem chunkSent (q : Fifo y) (good : y.rp.on = true → Good y.rp) (limit : y.relay.imageLen ≤ fwRelayImageMax)
    (quiet : y.relay.observedOk = false) (requests : y.requests = []) (responses : y.responses = [])
    (latest : y.relay.base < y.relay.sentRequests) (some_ : y.relay.buf ≠ [])
    (sent : y.relay.sent = y.relay.acked.flatten.length)
    (streamed : y.relay.streamed = y.relay.acked.flatten ++ y.relay.buf)
    (within : y.relay.sent+y.relay.buf.length ≤ y.relay.imageLen)
    (session : Live y.rp (Holds y.relay y.relay.acked)) : Inv (sendChunk y) := by
  refine settledAttempt q good limit quiet _ requests responses latest
    ⟨⟨sent,rfl,?_,rfl,streamed,within⟩,fun on opened => .inl (session on opened)⟩
  intro none_
  rcases List.take_eq_nil_iff.mp none_ with zero | nothing
  · exact absurd zero (by decide)
  · exact some_ nothing

theorem loopedOn {digest : Bytes → Bytes} (q : Fifo y) (good : y.rp.on = true → Good y.rp)
    (limit : y.relay.imageLen ≤ fwRelayImageMax) (quiet : y.relay.observedOk = false)
    (requests : y.requests = []) (responses : y.responses = []) (latest : y.relay.base < y.relay.sentRequests)
    (sent : y.relay.sent = y.relay.acked.flatten.length)
    (streamed : y.relay.streamed = y.relay.acked.flatten ++ y.relay.buf)
    (within : y.relay.sent+y.relay.buf.length ≤ y.relay.imageLen)
    (session : Live y.rp (Holds y.relay y.relay.acked)) : Inv (loopOn digest y) := by
  unfold loopOn
  split
  · rename_i some_
    exact chunkSent q good limit quiet requests responses latest some_ sent streamed within session
  rename_i empty
  have all : y.relay.streamed = y.relay.acked.flatten := by rw [streamed,not_not.mp empty,List.append_nil]
  split
  · rename_i more
    exact ⟨q.quiet rfl rfl q.armed,good,limit,quiet,
      ⟨requests,responses,session,sent,all,Nat.le_of_lt more,latest⟩⟩
  split
  · exact settledAttempt q good limit quiet .commit requests responses latest ⟨all,session⟩
  · exact aborted q good limit quiet

theorem answeredInv {digest : Bytes → Bytes} {req : Request} {r : UInt8} (q : Fifo y)
    (good : y.rp.on = true → Good y.rp) (limit : y.relay.imageLen ≤ fwRelayImageMax)
    (quiet : y.relay.observedOk = false) (known : r = xferOk → req ≠ .abort →
      y.requests = [] ∧ y.responses = [] ∧ y.relay.base < y.relay.sentRequests ∧ Before y req ∧ Heard y req) :
    Inv (answered digest y req r) := by
  cases req with
  | begin imageLen sha =>
    unfold answered
    dsimp only
    split
    · exact aborted q good limit quiet
    · rename_i ok
      obtain ⟨requests,responses,latest,-,heard⟩ := known (not_not.mp ok) (by simp)
      exact ⟨q.quiet rfl rfl q.armed,good,limit,quiet,⟨requests,responses,heard,rfl,rfl,Nat.zero_le _,latest⟩⟩
  | data offset chunk =>
    unfold answered
    dsimp only
    split
    · exact aborted q good limit quiet
    · rename_i ok
      obtain ⟨requests,responses,latest,⟨⟨start,sent,-,taken,streamed,within⟩,-⟩,heard⟩ :=
        known (not_not.mp ok) (by simp)
      have short : chunk.length ≤ y.relay.buf.length := by rw [taken,List.length_take]; omega
      have front : y.relay.buf.take chunk.length = chunk := by
        rw [taken,List.length_take,List.take_eq_take_iff]; omega
      refine loopedOn (q.quiet rfl rfl q.armed) good limit quiet requests responses latest ?_ ?_ ?_ heard
      · show y.relay.sent+chunk.length = (y.relay.acked ++ [chunk]).flatten.length
        rw [sent,start]; simp
      · show y.relay.streamed = (y.relay.acked ++ [chunk]).flatten ++ y.relay.buf.drop chunk.length
        have joined := List.take_append_drop chunk.length y.relay.buf
        rw [front] at joined
        rw [streamed,List.flatten_append,List.flatten_singleton,List.append_assoc,joined]
      · show y.relay.sent+chunk.length+(y.relay.buf.drop chunk.length).length ≤ y.relay.imageLen
        rw [List.length_drop]; omega
  | commit =>
    unfold answered
    dsimp only
    split
    · exact aborted (q.quiet rfl rfl q.armed) good limit quiet
    · rename_i ok
      obtain ⟨requests,-,-,-,heard⟩ := known (not_not.mp ok) (by simp)
      exact ⟨q.quiet rfl rfl q.armed,good,limit,heard,requests⟩
  | abort => exact finished q good limit q.armed quiet

theorem cpuInv {digest : Bytes → Bytes} (v : Inv y) : Inv (cpu digest y) := by
  have phase := v.phase
  unfold cpu
  cases here : y.relay.place with
  | sending req retried =>
    simp only [Phase,here] at phase
    obtain ⟨quiet,known⟩ := phase
    dsimp only
    split
    · rename_i signalled
      refine answeredInv (v.fifo.quiet rfl rfl v.fifo.armed) v.good v.limit quiet (fun ok real => ?_)
      obtain ⟨w,heard⟩ := known real
      obtain ⟨requests,responses,meaning⟩ := heard signalled
      refine ⟨requests,responses,w.latest,?_,?_⟩
      · have before := w.before
        cases req <;> exact before
      · have told := meaning ok
        cases req <;> exact told
    · exact v
  | expired req retried =>
    simp only [Phase,here] at phase
    obtain ⟨quiet,known⟩ := phase
    have disarmed : Fifo { y with relay := { y.relay with armed := false } } :=
      v.fifo.quiet rfl rfl (fun on => absurd on (by simp))
    dsimp only
    split
    · exact answeredInv disarmed v.good v.limit quiet (fun none_ => absurd none_ (by decide))
    · refine retriedAttempt disarmed v.good v.limit quiet (fun real => ?_)
      obtain ⟨asked,alone,heard,latest,before⟩ := known real
      exact ⟨asked,alone,fun f listed above ok => by
        have told := heard f listed above ok
        cases req <;> exact told,latest,by cases req <;> exact before⟩
  | idle => exact v
  | reading => exact v
  | watching => exact v

theorem readInv {data : Bytes} (v : Inv y) (here : y.relay.place = .reading) : Inv (httpRead y data) := by
  have phase := v.phase
  simp only [Phase,here] at phase
  obtain ⟨quiet,settled⟩ := phase
  unfold httpRead
  dsimp only
  split
  · exact aborted v.fifo v.good v.limit quiet
  · rename_i some_
    have within := settled.within
    refine chunkSent (v.fifo.quiet rfl rfl v.fifo.armed) v.good v.limit quiet settled.requests settled.responses
      settled.latest some_ settled.sent ?_ ?_ settled.session
    · show y.relay.streamed ++ _ = y.relay.acked.flatten ++ _
      rw [settled.streamed]
    · show y.relay.sent+(data.take (min (y.relay.imageLen-y.relay.sent) fwRelayHttpBuf)).length ≤ y.relay.imageLen
      rw [List.length_take]; omega

theorem requestInv {imageLen : Nat} {sha : Bytes} (v : Inv y) : Inv (fwOtaRequest y imageLen sha) := by
  unfold fwOtaRequest
  split
  · exact v
  · rename_i legal
    push Not at legal
    obtain ⟨-,small,length⟩ := legal
    have started : Fifo { y with relay := { y.relay with
        imageLen := imageLen, shaExpected := sha, begun := false, observedOk := false
        base := y.relay.sentRequests } } := v.fifo.quiet rfl rfl v.fifo.armed
    exact attempted started v.good small rfl (.begin imageLen sha)
      (fun f listed => v.fifo.sent f.index (List.mem_append_right _ (List.mem_map_of_mem listed)))
      (fun f listed => v.fifo.sent f.index (List.mem_append_left _ (List.mem_map_of_mem listed)))
      (fun other => absurd rfl other) (Nat.le_refl _) ⟨rfl,rfl,length⟩

end Relay

section Line
variable {y : System}

theorem Waits.fewer {req : Request} {requests : List ReqFrame} {responses : List RespFrame} (w : Waits y req)
    (some_ : requests ⊆ y.requests) (others : responses ⊆ y.responses) :
    Waits { y with requests := requests, responses := responses } req :=
  ⟨fun f listed => w.asked f (some_ listed),fun other f listed => w.alone other f (some_ listed),
    fun f listed above ok => by
      have told := w.heard f (others listed) above ok
      cases req <;> exact told,
    w.latest,by have before := w.before; cases req <;> exact before⟩

theorem lostInv {requests : List ReqFrame} {responses : List RespFrame} (v : Inv y)
    (some_ : requests.Sublist y.requests) (others : responses.Sublist y.responses) :
    Inv { y with requests := requests, responses := responses } := by
  refine ⟨v.fifo.lost some_ others,v.good,v.limit,?_⟩
  have phase := v.phase
  have none_ : y.requests = [] → requests = [] := fun empty => List.sublist_nil.mp (empty ▸ some_)
  have noOther : y.responses = [] → responses = [] := fun empty => List.sublist_nil.mp (empty ▸ others)
  unfold Phase at phase ⊢
  dsimp only
  cases here : y.relay.place with
  | idle =>
    rw [here] at phase
    exact fun observed => ⟨(phase observed).1,none_ (phase observed).2⟩
  | sending req retried =>
    rw [here] at phase
    refine ⟨phase.1,fun real => ?_⟩
    obtain ⟨w,heard⟩ := phase.2 real
    refine ⟨w.fewer some_.subset others.subset,fun signalled => ?_⟩
    obtain ⟨left,right,told⟩ := heard signalled
    exact ⟨none_ left,noOther right,fun ok => by have known := told ok; cases req <;> exact known⟩
  | expired req retried =>
    rw [here] at phase
    exact ⟨phase.1,fun real => (phase.2 real).fewer some_.subset others.subset⟩
  | reading =>
    rw [here] at phase
    obtain ⟨quiet,settled⟩ := phase
    exact ⟨quiet,⟨none_ settled.requests,noOther settled.responses,settled.session,settled.sent,settled.streamed,
      settled.within,settled.latest⟩⟩
  | watching =>
    rw [here] at phase
    exact ⟨phase.1,none_ phase.2⟩

theorem deliverInv {f : RespFrame} {rest : List RespFrame} (v : Inv y) (head : y.responses = f::rest)
    (timely : y.relay.sentRequests < f.index+256) :
    Inv { y with responses := rest, relay := fwOtaXferOnResp y.relay f } := by
  have left : Inv { y with requests := y.requests, responses := rest } :=
    lostInv v (List.Sublist.refl _) (by rw [head]; exact List.sublist_cons_self f rest)
  by_cases other : (!y.relay.armed || f.op ≠ y.relay.respOp || f.seq ≠ y.relay.respSeq) = true
  · have same : fwOtaXferOnResp y.relay f = y.relay := if_pos other
    rw [same]; exact left
  have taken : fwOtaXferOnResp y.relay f = { y.relay with respResult := f.result, armed := false, sig := true } :=
    if_neg other
  rw [taken]
  simp only [Bool.or_eq_true,Bool.not_eq_true',decide_eq_true_eq,not_or,Bool.not_eq_false,not_not,ne_eq] at other
  obtain ⟨⟨armed,-⟩,seq⟩ := other
  have listed : f ∈ y.responses := by rw [head]; exact List.mem_cons_self
  have latest := v.fifo.matched listed timely armed seq
  obtain ⟨noMore,noRequest⟩ := v.fifo.empty head latest
  refine ⟨left.fifo.quiet rfl rfl (fun on => absurd on (by simp)),v.good,v.limit,?_⟩
  have phase := left.phase
  unfold Phase at phase ⊢
  dsimp only at phase ⊢
  cases here : y.relay.place with
  | idle => rw [here] at phase; exact phase
  | sending req retried =>
    rw [here] at phase
    refine ⟨phase.1,fun real => ?_⟩
    obtain ⟨⟨asked,alone,heard,last,before⟩,-⟩ := phase.2 real
    refine ⟨⟨asked,alone,fun g there above ok => ?_,last,by cases req <;> exact before⟩,
      fun _ => ⟨noRequest,noMore,fun ok => ?_⟩⟩
    · have told := heard g there above ok
      cases req <;> exact told
    · have phase' := v.phase
      simp only [Phase,here] at phase'
      have told := (phase'.2 real).1.heard f listed (by rw [latest]; exact last) ok
      cases req <;> exact told
  | expired req retried =>
    rw [here] at phase
    refine ⟨phase.1,fun real => ?_⟩
    obtain ⟨asked,alone,heard,last,before⟩ := phase.2 real
    exact ⟨asked,alone,fun g there above ok => by
      have told := heard g there above ok
      cases req <;> exact told,last,by cases req <;> exact before⟩
  | reading =>
    rw [here] at phase
    obtain ⟨quiet,settled⟩ := phase
    exact ⟨quiet,⟨settled.requests,settled.responses,settled.session,settled.sent,settled.streamed,settled.within,
      settled.latest⟩⟩
  | watching => rw [here] at phase; exact phase

theorem sameHolds {r r' : Rp2040} {l : Relay} {chunks : List Bytes} (same : Same r r')
    (live : Live r (Holds l chunks)) : Live r' (Holds l chunks) := by
  intro on opened
  obtain ⟨running,was,imageLen,sha,accepted⟩ := same on opened
  obtain ⟨a,b,c⟩ := live running was
  exact ⟨imageLen.trans a,sha.trans b,accepted.trans c⟩

theorem sameEither {r r' : Rp2040} {l : Relay} {a b : List Bytes} (same : Same r r')
    (live : Live r (fun s => Holds l a s ∨ Holds l b s)) : Live r' (fun s => Holds l a s ∨ Holds l b s) := by
  intro on opened
  obtain ⟨running,was,imageLen,sha,accepted⟩ := same on opened
  rcases live running was with ⟨x,y,z⟩ | ⟨x,y,z⟩
  · exact .inl ⟨imageLen.trans x,sha.trans y,accepted.trans z⟩
  · exact .inr ⟨imageLen.trans x,sha.trans y,accepted.trans z⟩

/-- A board that keeps its session leaves what the relay knows of it. -/
theorem sameKnown {rp : Rp2040} (same : Same y.rp rp) (req : Request) :
    (Heard y req → Heard { y with rp := rp } req) ∧ (Before y req → Before { y with rp := rp } req) := by
  cases req with
  | begin => exact ⟨fun told => sameHolds same told,id⟩
  | data => exact ⟨fun told => sameHolds same told,fun before => ⟨before.1,sameEither same before.2⟩⟩
  | commit => exact ⟨id,fun before => ⟨before.1,sameHolds same before.2⟩⟩
  | abort => exact ⟨id,id⟩

theorem Waits.same {req : Request} {rp : Rp2040} (same : Same y.rp rp) (w : Waits y req) :
    Waits { y with rp := rp } req :=
  ⟨w.asked,w.alone,fun f listed above ok => (sameKnown same req).1 (w.heard f listed above ok),w.latest,
    (sameKnown same req).2 w.before⟩

theorem boardInv {input : FwUpdate.Event × Env} (v : Inv y) : Inv (board y input) := by
  have moved : board y input = y ∨ (∀ op payload, input.1 ≠ .request op payload) ∧
      board y input = { y with rp := (FwUpdate.step y.rp input).1 } := by
    unfold board
    split
    · exact .inl rfl
    · rename_i other
      exact .inr ⟨other,rfl⟩
  rcases moved with still | ⟨other,moved⟩
  · rw [still]; exact v
  have same : Same y.rp (FwUpdate.step y.rp input).1 := boardSame other
  rw [moved]
  refine ⟨⟨v.fifo.ordered,v.fifo.sent,v.fifo.seq,v.fifo.responses,v.fifo.requests,v.fifo.armed⟩,
    stepGood v.good input,v.limit,?_⟩
  have phase := v.phase
  unfold Phase at phase ⊢
  dsimp only
  cases here : y.relay.place with
  | idle => rw [here] at phase; exact phase
  | sending req retried =>
    rw [here] at phase
    refine ⟨phase.1,fun real => ⟨(phase.2 real).1.same same,fun signalled => ?_⟩⟩
    obtain ⟨requests,responses,told⟩ := (phase.2 real).2 signalled
    exact ⟨requests,responses,fun ok => (sameKnown same req).1 (told ok)⟩
  | expired req retried =>
    rw [here] at phase
    exact ⟨phase.1,fun real => (phase.2 real).same same⟩
  | reading =>
    rw [here] at phase
    obtain ⟨quiet,settled⟩ := phase
    exact ⟨quiet,⟨settled.requests,settled.responses,sameHolds same settled.session,settled.sent,settled.streamed,
      settled.within,settled.latest⟩⟩
  | watching => rw [here] at phase; exact phase

theorem receiveMoves {f : ReqFrame} {rest : List ReqFrame} (env : Env) (head : y.requests = f::rest)
    (on : y.rp.on = true) : receive y env =
      { y with
        requests := rest
        responses := y.responses ++ [⟨f.index,f.op,f.seq,(wupsOnRequest (ready y.rp env) f.op f.payload env).2⟩]
        rp := (wupsOnRequest (ready y.rp env) f.op f.payload env).1
        staged := if (wupsOnRequest (ready y.rp env) f.op f.payload env).1.flash.disk.command = some (.copy .stage)
          then (wupsOnRequest (ready y.rp env) f.op f.payload env).1.flash.disk.stage else y.staged } := by
  unfold receive
  rw [head]
  dsimp only
  rw [if_neg (by rw [on]; simp)]

/-- What an answer OK to a request on the line means, and that none takes it back. -/
structure Means (y y' : System) (req : Request) (result : UInt8) : Prop where
  still : Heard y req → Heard y' req
  told : result = xferOk → Heard y' req
  before : Before y' req

def stagedBy (y : System) (rp : Rp2040) : Option Bytes :=
  if rp.flash.disk.command = some (.copy .stage) then rp.flash.disk.stage else y.staged

theorem keptMeans {req : Request} {rp : Rp2040} {result : UInt8} (same : Same y.rp rp) (none_ : ¬ Armed rp.flash.disk)
    (quiet : result ≠ xferOk) (before : Before y req) :
    Means y { y with rp := rp, staged := stagedBy y rp } req result := by
  have staged : stagedBy y rp = y.staged := if_neg (fun command => none_ ⟨.stage,command⟩)
  rw [staged]
  exact ⟨(sameKnown same req).1,fun ok => absurd ok quiet,(sameKnown same req).2 before⟩

theorem beginMeans {imageLen : Nat} {sha : Bytes} {rp : Rp2040} {result : UInt8} (small : imageLen ≤ fwRelayImageMax)
    (before : Before y (.begin imageLen sha))
    (handled : Handled y.rp .begin (Request.begin imageLen sha).payload rp result) :
    Means y { y with rp := rp, staged := stagedBy y rp } (.begin imageLen sha) result := by
  cases handled with
  | kept same none_ quiet => exact keptMeans same none_ (fun ok => absurd (quiet ok).1 (by simp)) before
  | taken data => exact absurd data (by simp)
  | committed commit => exact absurd commit (by simp)
  | opened began none_ how =>
    obtain ⟨announced,digest,length⟩ := before
    have told : Live rp (Holds y.relay []) := by
      refine fun _ _ => ⟨?_,?_,how.fresh.2.2⟩
      · rw [how.imageLen,← announced]
        exact le32Read (by simp only [fwRelayImageMax] at small; omega) sha
      · rw [how.sha,← digest]
        show sha.take 32 = sha
        rw [← length,List.take_length]
    exact ⟨fun _ => told,fun _ => told,announced,digest,length⟩

theorem dataMeans {offset : Nat} {chunk : Bytes} {rp : Rp2040} {result : UInt8} (good : Good y.rp)
    (on : y.rp.on = true) (small : y.relay.imageLen ≤ fwRelayImageMax) (before : Before y (.data offset chunk))
    (handled : Handled y.rp .data (Request.data offset chunk).payload rp result) :
    Means y { y with rp := rp, staged := stagedBy y rp } (.data offset chunk) result := by
  cases handled with
  | kept same none_ quiet => exact keptMeans same none_ (fun ok => absurd (quiet ok).1 (by simp)) before
  | opened began => exact absurd began (by simp)
  | committed commit => exact absurd commit (by simp)
  | taken data none_ how =>
    obtain ⟨⟨start,sent,filled,front,streamed,within⟩,session⟩ := before
    have opened : y.rp.s.isOpen = true := by
      have was := how.isOpen.1
      rw [noteSession] at was
      exact was
    have count := (good.staged opened).received
    have position : offset = y.rp.s.received := by
      have read := how.offset
      rw [noteSession] at read
      rw [← read]
      exact (le32Read (by simp only [fwRelayImageMax] at small; omega) chunk).symm
    have announced := how.announced
    have accepted := how.accepted
    rw [noteSession] at announced accepted
    have told : Live rp (Holds y.relay (y.relay.acked ++ [chunk])) := by
      intro _ _
      rcases session on opened with ⟨imageLen,sha,old⟩ | ⟨-,-,old⟩
      · exact ⟨announced.1.trans imageLen,announced.2.trans sha,by rw [accepted,old]; rfl⟩
      · -- The chunk was taken before: its offset is behind what the board has received.
        rw [old,List.flatten_append,List.length_append,List.flatten_singleton] at count
        have positive := List.length_pos_of_ne_nil filled
        omega
    exact ⟨fun _ => told,fun _ => told,⟨start,sent,filled,front,streamed,within⟩,
      fun running opened' => .inr (told running opened')⟩

theorem commitMeans {rp : Rp2040} {result : UInt8} (on : y.rp.on = true) (before : Before y .commit)
    (handled : Handled y.rp .commit Request.commit.payload rp result) :
    Means y { y with rp := rp, staged := stagedBy y rp } .commit result := by
  cases handled with
  | kept same none_ quiet =>
    refine keptMeans same none_ (fun ok => ?_) before
    exact absurd (quiet ok).2 (by decide)
  | opened began => exact absurd began (by simp)
  | taken data => exact absurd data (by simp)
  | committed commit how =>
    obtain ⟨streamed,session⟩ := before
    have opened := how.wasOpen
    have image := how.image
    have length := how.length
    have digest := how.digest
    rw [noteSession] at opened image length digest
    obtain ⟨announced,sha,accepted⟩ := session on opened
    rw [accepted,← streamed] at image length digest
    have staged : stagedBy y rp = some y.relay.streamed := (if_pos how.armed).trans image
    have done : Done { y with rp := rp, staged := stagedBy y rp } :=
      ⟨staged,length.trans announced,digest.trans sha⟩
    exact ⟨fun _ => done,fun _ => done,streamed,
      fun _ still => absurd (how.closed.symm.trans still) (by simp)⟩

theorem Waits.received {req : Request} {f : ReqFrame} {rest : List ReqFrame} {env : Env} (v : Inv y)
    (real : req ≠ .abort) (w : Waits y req) (head : y.requests = f::rest) (on : y.rp.on = true) :
    Waits (receive y env) req := by
  have listed : f ∈ y.requests := by rw [head]; exact List.mem_cons_self
  have others : rest ⊆ y.requests := by rw [head]; exact List.subset_cons_self f rest
  rw [receiveMoves env head on]
  by_cases earlier : f.index ≤ y.relay.base
  · -- Left from an earlier transfer: only a BEGIN can be out, and no answer to it is on the line yet.
    cases req with
    | begin imageLen sha =>
      refine ⟨fun g there => w.asked g (others there),fun other => absurd rfl other,fun g there above ok => ?_,
        w.latest,w.before⟩
      rcases List.mem_append.mp there with old | new
      · have order := (List.pairwise_append.mp v.fifo.ordered).2.2 g.index (List.mem_map_of_mem old) f.index
          (List.mem_map_of_mem listed)
        have above' : y.relay.base < g.index := above
        omega
      · rw [List.mem_singleton.mp new] at above
        exact absurd earlier (Nat.not_le.mpr above)
    | data => exact absurd (w.alone (by simp [Request.op]) f listed) (Nat.not_lt.mpr earlier)
    | commit => exact absurd (w.alone (by simp [Request.op]) f listed) (Nat.not_lt.mpr earlier)
    | abort => exact absurd rfl real
  · obtain ⟨op,payload⟩ := w.asked f listed (Nat.not_le.mp earlier)
    have handled := requestHandled (readyGood (v.good on) env) f.op f.payload env
    rw [op,payload] at handled ⊢
    have means : Means { y with rp := ready y.rp env }
        { y with
          rp := (wupsOnRequest (ready y.rp env) req.op req.payload env).1
          staged := stagedBy y (wupsOnRequest (ready y.rp env) req.op req.payload env).1 } req
        (wupsOnRequest (ready y.rp env) req.op req.payload env).2 := by
      cases req with
      | begin imageLen sha =>
        have small : imageLen ≤ fwRelayImageMax := by rw [w.before.1]; exact v.limit
        exact beginMeans (y := { y with rp := ready y.rp env }) small w.before handled
      | data offset chunk =>
        exact dataMeans (y := { y with rp := ready y.rp env }) (readyGood (v.good on) env) on v.limit w.before handled
      | commit => exact commitMeans (y := { y with rp := ready y.rp env }) on w.before handled
      | abort => exact absurd rfl real
    refine ⟨fun g there => w.asked g (others there),fun other g there => w.alone other g (others there),
      fun g there above ok => ?_,w.latest,?_⟩
    · rcases List.mem_append.mp there with old | new
      · have known : Heard { y with rp := ready y.rp env } req := by
          have told := w.heard g old above ok
          cases req <;> exact told
        have told := means.still known
        cases req <;> exact told
      · rw [List.mem_singleton.mp new] at ok
        have told := means.told ok
        cases req <;> exact told
    · have before := means.before
      cases req <;> exact before

theorem receiveInv {env : Env} (v : Inv y) : Inv (receive y env) := by
  cases head : y.requests with
  | nil =>
    have still : receive y env = y := by unfold receive; rw [head]
    rw [still]; exact v
  | cons f rest =>
    by_cases on : y.rp.on = true
    · have moved := receiveMoves env head on
      have good : (receive y env).rp.on = true → Good (receive y env).rp := by
        rw [moved]
        intro stays
        rcases requestGood (readyGood (v.good on) env) on f.op f.payload env with ⟨kept,-⟩ | ⟨-,-,-,off,-⟩
        · exact kept
        · exact absurd (off.symm.trans stays) (by simp)
      have fifo : Fifo (receive y env) := by rw [moved]; exact v.fifo.answered head _ _ _
      have relay : (receive y env).relay = y.relay := by rw [moved]
      refine ⟨fifo,good,by rw [relay]; exact v.limit,?_⟩
      have phase := v.phase
      unfold Phase at phase ⊢
      rw [relay]
      cases here : y.relay.place with
      | idle =>
        rw [here] at phase
        exact fun observed => absurd (head.symm.trans (phase observed).2) (by simp)
      | sending req retried =>
        rw [here] at phase
        refine ⟨phase.1,fun real => ⟨(phase.2 real).1.received v real head on,fun signalled => ?_⟩⟩
        exact absurd (head.symm.trans ((phase.2 real).2 signalled).1) (by simp)
      | expired req retried =>
        rw [here] at phase
        exact ⟨phase.1,fun real => (phase.2 real).received v real head on⟩
      | reading =>
        rw [here] at phase
        exact absurd (head.symm.trans phase.2.requests) (by simp)
      | watching =>
        rw [here] at phase
        exact absurd (head.symm.trans phase.2) (by simp)
    · have still : receive y env = y := by
        unfold receive; rw [head]; dsimp only
        rw [if_pos (by simpa using on)]
      rw [still]; exact v

end Line

/-- No response is delivered once 256 requests have been sent after the one it answers. -/
def Timely (y : System) : Event → Prop
  | .deliver => ∀ f ∈ y.responses.head?, y.relay.sentRequests < f.index+256
  | _ => True
instance (y e) : Decidable (Timely y e) := by unfold Timely; split <;> infer_instance

theorem nextInv {digest : Bytes → Bytes} {y : System} {e : Event} (v : Inv y) (timely : Timely y e) :
    Inv (next digest y e) := by
  unfold next
  split
  · split
    · exact requestInv v
    · exact v
  · split
    · rename_i here; exact readInv v here
    · exact v
  · split
    · rename_i here
      have phase := v.phase
      simp only [Phase,here] at phase
      exact aborted v.fifo v.good v.limit phase.1
    · exact v
  · split
    · rename_i req retried here
      split
      · exact v
      · have phase := v.phase
        simp only [Phase,here] at phase
        refine ⟨v.fifo.quiet rfl rfl v.fifo.armed,v.good,v.limit,phase.1,fun real => ?_⟩
        obtain ⟨asked,alone,heard,last,before⟩ := (phase.2 real).1
        exact ⟨asked,alone,fun g there above ok => by
          have told := heard g there above ok
          cases req <;> exact told,last,by cases req <;> exact before⟩
    · exact v
  · exact cpuInv v
  · split
    · rename_i here
      have phase := v.phase
      simp only [Phase,here] at phase
      exact ⟨v.fifo.quiet rfl rfl v.fifo.armed,v.good,v.limit,fun _ => phase⟩
    · exact v
  · exact receiveInv v
  · exact boardInv v
  · exact lostInv v (List.eraseIdx_sublist ..) (List.Sublist.refl _)
  · exact lostInv v (List.Sublist.refl _) (List.eraseIdx_sublist ..)
  · split
    · exact v
    · rename_i f rest head
      exact deliverInv v head (timely f (by rw [head]; rfl))

section Runs
variable (digest : Bytes → Bytes) (disk : Disk) (running : Bytes) (events : List Event)

abbrev at' (n : Nat) : System := stateAt (step digest) (.init disk running) events n

/-- Every response of the run comes before 256 further requests. -/
def TimelyRun : Prop := ∀ n (inside : n < events.length), Timely (at' digest disk running events n) events[n]

/-- Where the relay has had its OK, the staged image is what it streamed. -/
def RelaySound : Prop := ∀ n, (at' digest disk running events n).relay.observedOk = true →
  Done (at' digest disk running events n)

end Runs

theorem invAt {digest : Bytes → Bytes} {disk : Disk} {running : Bytes} {events : List Event}
    (timely : TimelyRun digest disk running events) (n : Nat) : Inv (at' digest disk running events n) := by
  induction n with
  | zero =>
    exact ⟨⟨.nil,by simp [indices,stateAt,System.init],rfl,by simp [stateAt,System.init],by simp [stateAt,System.init],
      fun on => absurd on (by simp [stateAt,System.init,Relay.init])⟩,
      fun on => absurd on (by simp [stateAt,System.init,Rp2040.powerOff]),Nat.zero_le _,
      fun observed => absurd observed (by simp [stateAt,System.init,Relay.init])⟩
  | succ n ih =>
    cases here : events[n]? with
    | none => rw [at',stateEnd _ _ here]; exact ih
    | some e =>
      obtain ⟨inside,same⟩ := List.getElem?_eq_some_iff.mp here
      rw [at',stateNext _ _ here]
      exact nextInv ih (by rw [← same]; exact timely n inside)

theorem relaySound (digest : Bytes → Bytes) (disk : Disk) (running : Bytes) (events : List Event)
    (timely : TimelyRun digest disk running events) : RelaySound digest disk running events := by
  intro n observed
  have v := invAt timely n
  have phase := v.phase
  unfold Phase at phase
  cases here : (at' digest disk running events n).relay.place with
  | idle => rw [here] at phase; exact (phase observed).1
  | watching => rw [here] at phase; exact phase.1
  | sending req retried => rw [here] at phase; exact absurd (phase.1.symm.trans observed) (by simp)
  | expired req retried => rw [here] at phase; exact absurd (phase.1.symm.trans observed) (by simp)
  | reading => rw [here] at phase; exact absurd (phase.1.symm.trans observed) (by simp)

def roomy : Env := ⟨1,2000000,0,[]⟩

/-- The answer to the first BEGIN comes after its retry, the retry's own opens the session. -/
theorem relaySoundRetry :
    let events : List Event := [.board (.boot,roomy),.request 0x4000 (List.replicate 32 0),.receive roomy,.timeout,
      .cpu,.receive roomy,.deliver,.deliver,.cpu,.read [1,2,3],.receive roomy,.deliver,.cpu]
    (at' sha256 ⟨none,none,none,none⟩ [] events 13).relay.acked = [[1,2,3]] ∧
      RelaySound sha256 ⟨none,none,none,none⟩ [] events :=
  ⟨by decide +kernel,relaySound sha256 _ [] _ (by unfold TimelyRun; decide +kernel)⟩

/-! A response that does turn up 256 requests late. The first one opens a transfer whose
BEGIN was just answered too; its answers stay behind, and 256 requests on they make a
transfer of which the board has seen nothing. -/

def lostAttempt : List Event := [.loseRequest 0,.timeout,.cpu]

def lostTransfer : List Event := .request 0x4000 (List.replicate 32 0) :: lostAttempt ++ lostAttempt

def lateAnswers : List Event :=
  [.board (.boot,roomy),.request 0x4000 (List.replicate 32 0),.receive roomy,.timeout,.cpu] ++ lostAttempt ++
  (List.replicate 127 lostTransfer).flatten ++
  [.request 0x4000 (List.replicate 32 0),.receive roomy,.deliver,.cpu,.read [1,2,3,4],.receive roomy,.timeout,.cpu,
    .receive roomy,.timeout,.cpu,.receive roomy,.timeout,.cpu] ++ lostAttempt ++
  (List.replicate 125 lostTransfer).flatten ++
  .request 4 (sha256 [1,2,3,4]) :: lostAttempt ++
  [.loseRequest 0,.deliver,.cpu,.read [1,2,3,4],.loseRequest 0,.deliver,.cpu,
    .loseRequest 0,.deliver,.timeout,.cpu,.loseRequest 0,.deliver,.cpu]

set_option maxRecDepth 40000 in
theorem lateAnswersCommit :
    ¬ (∀ digest disk running events, RelaySound digest disk running events) := by
  intro sound
  have done := sound sha256 ⟨none,none,none,none⟩ [] lateAnswers lateAnswers.length
  have reached : (at' sha256 ⟨none,none,none,none⟩ [] lateAnswers lateAnswers.length).relay.observedOk = true ∧
      (at' sha256 ⟨none,none,none,none⟩ [] lateAnswers lateAnswers.length).staged = none := by decide +kernel
  have staged := (done reached.1).1
  rw [reached.2] at staged
  exact absurd staged (by simp)

end Web3PiUps.FwRelayProof
