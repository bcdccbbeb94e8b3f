import Web3PiUps.WupsProtocol
import Web3PiUps.Lib.StepMachine

/-! The receive buffer of `arkiv_ws.c`: how `ws_event_handler` puts WebSocket messages together
and which byte strings it passes to `dispatch_ws_message`. -/
namespace Web3PiUps.ArkivWs
open WupsProtocol StepMachine

/-- `ARKIV_WS_RX_BUF`, one byte of which is for the terminating zero. -/
abbrev rxBuf : Nat := 4096
abbrev opText : UInt8 := 1
abbrev opCont : UInt8 := 0

/-- A `WEBSOCKET_EVENT_DATA`; `data_len` is the length of the data. -/
structure DataEvent where
  opCode : UInt8
  payloadOffset : Nat
  payloadLen : Nat
  data : Bytes
  deriving DecidableEq, Repr

/-- The `DATA` branch of `ws_event_handler`: the bytes held, then the calls of `dispatch_ws_message`. -/
def wsEventHandler (acc : Bytes) (ev : DataEvent) : Bytes × List Bytes :=
  if ev.opCode ≠ opText ∧ ev.opCode ≠ opCont then (acc,[])
  else
    let acc := if ev.payloadOffset = 0 then [] else acc
    if 0 < ev.data.length ∧ acc.length + ev.data.length + 1 > rxBuf then ([],[])
    else
      let acc := acc ++ ev.data
      if 0 < ev.payloadLen ∧ ev.payloadOffset + ev.data.length ≥ ev.payloadLen ∧ 0 < acc.length then ([],[acc])
      else (acc,[])

/-! What the client delivers: a message in frames, a frame in events. -/

structure Frame where
  first : Bytes
  more : List Bytes
  deriving DecidableEq, Repr

structure Message where
  first : Frame
  more : List Frame
  deriving DecidableEq, Repr

def Frame.chunks (f : Frame) : List Bytes := f.first::f.more
def Frame.bytes (f : Frame) : Bytes := f.chunks.flatten
def Message.frames (m : Message) : List Frame := m.first::m.more
def Message.bytes (m : Message) : Bytes := m.frames.flatMap Frame.bytes

def chunkEvents (opCode : UInt8) (payloadLen : Nat) : Nat → List Bytes → List DataEvent
  | _, [] => []
  | offset, c::rest => ⟨opCode,offset,payloadLen,c⟩ :: chunkEvents opCode payloadLen (offset+c.length) rest

def Frame.events (opCode : UInt8) (f : Frame) : List DataEvent := chunkEvents opCode f.bytes.length 0 f.chunks
def Message.events (m : Message) : List DataEvent := m.first.events opText ++ m.more.flatMap (Frame.events opCont)

/-- A whole message as one step, with the calls its events make. -/
def wsMessage (acc : Bytes) (m : Message) : Bytes × List Bytes :=
  (final wsEventHandler acc m.events,(outs wsEventHandler acc m.events).flatten)

def whole (m : Message) : List Bytes := if m.bytes.length < rxBuf then [m.bytes] else []

/-- Each message is dispatched once and whole, or not at all if it does not fit the buffer,
which holds at every moment. -/
structure Reassembled (messages : List Message) : Prop where
  dispatched : outs wsMessage [] messages = messages.map whole
  bounded : ∀ n, (stateAt wsEventHandler [] (messages.flatMap Message.events) n).length ≤ rxBuf-1

theorem handlerBounded (acc : Bytes) (ev : DataEvent) (h : acc.length ≤ rxBuf-1) :
    (wsEventHandler acc ev).1.length ≤ rxBuf-1 := by
  have kept : (if ev.payloadOffset = 0 then [] else acc).length ≤ rxBuf-1 := by
    split
    · exact Nat.zero_le _
    · exact h
  unfold wsEventHandler
  split
  · exact h
  · simp only
    generalize (if ev.payloadOffset = 0 then [] else acc) = acc at kept ⊢
    split
    · exact Nat.zero_le _
    · rename_i fits
      split
      · exact Nat.zero_le _
      · simp only [List.length_append]
        omega

theorem accBounded (events : List DataEvent) (n : Nat) :
    (stateAt wsEventHandler [] events n).length ≤ rxBuf-1 :=
  keepsBetween wsEventHandler [] events (P := fun acc => acc.length ≤ rxBuf-1) (Nat.zero_le _) (Nat.zero_le n)
    fun _ ev _ _ _ h => handlerBounded _ ev h

/-- The bytes a frame's chunks leave in the buffer, each chunk too many clearing it. -/
def settle (acc : Bytes) : List Bytes → Bytes
  | [] => acc
  | c::rest => settle (if 0 < c.length ∧ acc.length + c.length + 1 > rxBuf then [] else acc ++ c) rest

def calls (held : Bytes) : List Bytes := if held = [] then [] else [held]

section Frame
variable {opCode : UInt8} {acc c : Bytes} {chunks : List Bytes} {offset total : Nat}

theorem settleEmpty (acc : Bytes) (empty : ∀ c ∈ chunks, c = []) : settle acc chunks = acc := by
  induction chunks with
  | nil => rfl
  | cons c rest ih =>
    cases empty c List.mem_cons_self
    simpa [settle] using ih fun d mem => empty d (List.mem_cons_of_mem _ mem)

theorem settleFits (fits : acc.length + chunks.flatten.length < rxBuf) :
    settle acc chunks = acc ++ chunks.flatten := by
  induction chunks generalizing acc with
  | nil => simp [settle]
  | cons c rest ih =>
    simp only [List.flatten_cons,List.length_append] at fits
    rw [settle,if_neg (by omega),ih (by simp only [List.length_append]; omega)]
    simp

/-- A data event of a text message, from the bytes that count for it. -/
theorem handled (text : opCode = opText ∨ opCode = opCont) (started : offset = 0 → acc = []) (total : Nat) (c : Bytes) :
    wsEventHandler acc ⟨opCode,offset,total,c⟩ =
      if 0 < total ∧ total ≤ offset+c.length then ([],calls (settle acc [c])) else (settle acc [c],[]) := by
  have open_ : ¬(opCode ≠ opText ∧ opCode ≠ opCont) := by
    rintro ⟨notText,notCont⟩
    exact text.elim notText notCont
  have same : (if offset = 0 then [] else acc) = acc := by
    split
    · rename_i first
      exact (started first).symm
    · rfl
  simp only [wsEventHandler,if_neg open_,same,settle]
  split
  · split <;> rfl
  · by_cases complete : 0 < total ∧ total ≤ offset+c.length
    · rw [if_pos complete,calls]
      by_cases empty : acc ++ c = []
      · simp [complete,empty]
      · rw [if_neg empty,if_pos ⟨complete.1,complete.2,List.length_pos_iff.mpr empty⟩]
    · rw [if_neg complete,if_neg (fun done => complete ⟨done.1,done.2.1⟩)]

theorem restQuiet (empty : ∀ c ∈ chunks, c = []) (text : opCode = opText ∨ opCode = opCont) :
    final wsEventHandler [] (chunkEvents opCode total offset chunks) = [] ∧
      (outs wsEventHandler [] (chunkEvents opCode total offset chunks)).flatten = [] := by
  induction chunks with
  | nil => exact ⟨rfl,rfl⟩
  | cons c rest ih =>
    cases empty c List.mem_cons_self
    have still : wsEventHandler [] ⟨opCode,offset,total,[]⟩ = ([],[]) := by
      rw [handled text (fun _ => rfl)]
      split <;> rfl
    simp only [chunkEvents,finalCons,outsCons,still]
    exact ih fun d mem => empty d (List.mem_cons_of_mem _ mem)

theorem chunksRun (text : opCode = opText ∨ opCode = opCont) (started : offset = 0 → acc = [])
    (open_ : offset < total) (lens : offset + chunks.flatten.length = total) :
    final wsEventHandler acc (chunkEvents opCode total offset chunks) = [] ∧
      (outs wsEventHandler acc (chunkEvents opCode total offset chunks)).flatten = calls (settle acc chunks) := by
  induction chunks generalizing acc offset with
  | nil => exact absurd lens (by simp; omega)
  | cons c rest ih =>
    simp only [List.flatten_cons,List.length_append] at lens
    simp only [chunkEvents,finalCons,outsCons,handled text started]
    by_cases complete : total ≤ offset+c.length
    · have empty : ∀ d ∈ rest, d = [] := by
        intro d mem
        have le := (List.sublist_flatten_of_mem mem).length_le
        exact List.eq_nil_of_length_eq_zero (by omega)
      obtain ⟨last,quiet⟩ : final wsEventHandler [] (chunkEvents opCode total (offset+c.length) rest) = [] ∧
          (outs wsEventHandler [] (chunkEvents opCode total (offset+c.length) rest)).flatten = [] := restQuiet empty text
      rw [if_pos ⟨by omega,complete⟩]
      refine ⟨last,?_⟩
      rw [List.flatten_cons,quiet,List.append_nil]
      exact congrArg calls (settleEmpty (settle acc [c]) empty).symm
    · rw [if_neg (fun done => complete done.2)]
      have next : offset+c.length = 0 → settle acc [c] = [] := by
        intro zero
        have none_ : c = [] := List.eq_nil_of_length_eq_zero (by omega)
        rw [none_,settleEmpty acc (by simp)]
        exact started (by omega)
      obtain ⟨last,sent⟩ := ih next (by omega) (by omega)
      exact ⟨last,sent⟩

theorem frameRun (text : opCode = opText ∨ opCode = opCont) (acc : Bytes) (f : Frame) :
    final wsEventHandler acc (f.events opCode) = [] ∧
      (outs wsEventHandler acc (f.events opCode)).flatten = calls (settle [] f.chunks) := by
  have fresh : wsEventHandler acc ⟨opCode,0,f.bytes.length,f.first⟩ =
      wsEventHandler [] ⟨opCode,0,f.bytes.length,f.first⟩ := by
    have open_ : ¬(opCode ≠ opText ∧ opCode ≠ opCont) := fun closed => text.elim closed.1 closed.2
    simp only [wsEventHandler,if_neg open_,if_pos trivial]
  have clean : final wsEventHandler acc (f.events opCode) = final wsEventHandler [] (f.events opCode) ∧
      outs wsEventHandler acc (f.events opCode) = outs wsEventHandler [] (f.events opCode) := by
    simp only [Frame.events,Frame.chunks,chunkEvents,finalCons,outsCons,fresh,and_self]
  rw [clean.1,clean.2]
  by_cases empty : f.bytes = []
  · have each : ∀ c ∈ f.chunks, c = [] := List.flatten_eq_nil_iff.mp empty
    rw [settleEmpty [] each]
    exact restQuiet each text
  · exact chunksRun text (fun _ => rfl) (List.length_pos_iff.mpr empty) (Nat.zero_add _)

end Frame

theorem framesRun (acc : Bytes) (frames : List Frame) :
    (final wsEventHandler acc (frames.flatMap (Frame.events opCont)) = if frames = [] then acc else []) ∧
      (outs wsEventHandler acc (frames.flatMap (Frame.events opCont))).flatten =
        frames.flatMap fun f => calls (settle [] f.chunks) := by
  induction frames generalizing acc with
  | nil => exact ⟨rfl,rfl⟩
  | cons f rest ih =>
    obtain ⟨last,sent⟩ := frameRun (.inr rfl : opCont = opText ∨ opCont = opCont) acc f
    obtain ⟨lastRest,sentRest⟩ := ih []
    simp only [List.flatMap_cons,finalAppend,outsAppend,last,List.flatten_append,sent,sentRest,lastRest]
    exact ⟨by split <;> rfl,trivial⟩

theorem messageRun (acc : Bytes) (m : Message) :
    wsMessage acc m = ([],m.frames.flatMap fun f => calls (settle [] f.chunks)) := by
  obtain ⟨last,sent⟩ := frameRun (.inl rfl : opText = opText ∨ opText = opCont) acc m.first
  obtain ⟨lastRest,sentRest⟩ := framesRun [] m.more
  simp only [wsMessage,Message.events,Message.frames,finalAppend,outsAppend,last,List.flatten_append,sent,sentRest,
    lastRest,List.flatMap_cons,ite_self]

theorem messagesRun (acc : Bytes) (messages : List Message) :
    outs wsMessage acc messages = messages.map fun m => m.frames.flatMap fun f => calls (settle [] f.chunks) := by
  induction messages generalizing acc with
  | nil => rfl
  | cons m rest ih =>
    rw [outsCons,messageRun]
    exact congrArg _ (ih [])

/-- Chunks of which nothing is left: empty ones, or, over and over, a run that fits the buffer
and then one chunk too many. -/
inductive Dropped : List Bytes → Prop where
  | empty {chunks} (empty : ∀ c ∈ chunks, c = []) : Dropped chunks
  | beyond {run rest} {c : Bytes} (fits : run.flatten.length < rxBuf) (beyond : rxBuf ≤ run.flatten.length + c.length)
      (dropped : Dropped rest) : Dropped (run ++ c::rest)

theorem settleAppend (acc : Bytes) (a b : List Bytes) : settle acc (a ++ b) = settle (settle acc a) b := by
  induction a generalizing acc with
  | nil => rfl
  | cons c rest ih => exact ih _

theorem droppedSettles {chunks : List Bytes} (h : Dropped chunks) : settle [] chunks = [] := by
  induction h with
  | empty empty => exact settleEmpty [] empty
  | @beyond run rest c fits beyond dropped ih =>
    have filled : settle [] run = [] ++ run.flatten := settleFits (by simpa using fits)
    rw [settleAppend,filled,List.nil_append,settle,if_pos (by omega)]
    exact ih

theorem settledDropped {acc : Bytes} {chunks : List Bytes} (room : acc.length < rxBuf) (h : settle acc chunks = []) :
    (acc = [] ∧ ∀ c ∈ chunks, c = []) ∨ ∃ run c rest, chunks = run ++ c::rest ∧
      acc.length + run.flatten.length < rxBuf ∧ rxBuf ≤ acc.length + run.flatten.length + c.length ∧ Dropped rest := by
  induction chunks generalizing acc with
  | nil => exact .inl ⟨h,nofun⟩
  | cons c rest ih =>
    rw [settle] at h
    by_cases beyond : 0 < c.length ∧ acc.length + c.length + 1 > rxBuf
    · rw [if_pos beyond] at h
      have dropped : Dropped rest := by
        rcases @ih [] (by decide) h with ⟨-,empty⟩ | ⟨run,d,more,rfl,fits,beyond,dropped⟩
        · exact .empty empty
        · exact .beyond (by simpa using fits) (by simpa using beyond) dropped
      exact .inr ⟨[],c,rest,rfl,by simpa using room,by simp only [List.flatten_nil,List.length_nil]; omega,dropped⟩
    · rw [if_neg beyond] at h
      rcases ih (by simp only [List.length_append]; omega) h with ⟨none_,empty⟩ | ⟨run,d,more,rfl,fits,beyond,dropped⟩
      · obtain ⟨accNil,chunkNil⟩ := List.append_eq_nil_iff.mp none_
        exact .inl ⟨accNil,List.forall_mem_cons.mpr ⟨chunkNil,empty⟩⟩
      · refine .inr ⟨c::run,d,more,rfl,?_,?_,dropped⟩
        · simp only [List.flatten_cons,List.length_append] at fits ⊢
          omega
        · simp only [List.flatten_cons,List.length_append] at beyond ⊢
          omega

theorem droppedIff (chunks : List Bytes) : settle [] chunks = [] ↔ Dropped chunks := by
  refine ⟨fun h => ?_,droppedSettles⟩
  rcases @settledDropped [] _ (by decide) h with ⟨-,empty⟩ | ⟨run,c,rest,rfl,fits,beyond,dropped⟩
  · exact .empty empty
  · exact .beyond (by simpa using fits) (by simpa using beyond) dropped

def Message.filled (m : Message) : List Frame := m.frames.filter (·.bytes ≠ [])

/-- A message that fits has one frame with anything in it; of one that does not, every frame is dropped. -/
def Plain (m : Message) : Prop :=
  if m.bytes.length < rxBuf then m.filled.length = 1 else ∀ f ∈ m.frames, Dropped f.chunks

theorem frameCalls {f : Frame} (fits : f.bytes.length < rxBuf) : calls (settle [] f.chunks) = calls f.bytes := by
  rw [settleFits (by simpa [Frame.bytes] using fits),List.nil_append,Frame.bytes]

theorem callsFilter (frames : List Frame) :
    frames.flatMap (fun f => calls f.bytes) = (frames.filter (·.bytes ≠ [])).map Frame.bytes := by
  induction frames with
  | nil => rfl
  | cons f rest ih =>
    rw [List.flatMap_cons,ih,calls,List.filter_cons]
    by_cases empty : f.bytes = [] <;> simp [empty]

theorem filterBytes (frames : List Frame) :
    (frames.filter (·.bytes ≠ [])).flatMap Frame.bytes = frames.flatMap Frame.bytes := by
  induction frames with
  | nil => rfl
  | cons f rest ih =>
    rw [List.flatMap_cons,← ih,List.filter_cons]
    by_cases empty : f.bytes = [] <;> simp [empty]

theorem frameLength {m : Message} {f : Frame} (mem : f ∈ m.frames) : f.bytes.length ≤ m.bytes.length := by
  rw [Message.bytes,List.flatMap]
  exact (List.sublist_flatten_of_mem (List.mem_map_of_mem mem)).length_le

theorem fittingCalls {m : Message} (fits : m.bytes.length < rxBuf) :
    (m.frames.flatMap fun f => calls (settle [] f.chunks)) = m.filled.map Frame.bytes := by
  rw [Message.filled,← callsFilter]
  exact List.flatMap_congr fun f mem => frameCalls (Nat.lt_of_le_of_lt (frameLength mem) fits)

theorem messageWhole (m : Message) : (m.frames.flatMap fun f => calls (settle [] f.chunks)) = whole m ↔ Plain m := by
  unfold whole Plain
  by_cases fits : m.bytes.length < rxBuf
  · rw [if_pos fits,if_pos fits,fittingCalls fits]
    constructor
    · intro once
      simpa using congrArg List.length once
    · intro once
      obtain ⟨f,only⟩ := List.length_eq_one_iff.mp once
      have bytes : m.filled.flatMap Frame.bytes = m.bytes := filterBytes m.frames
      rw [only] at bytes ⊢
      simpa [Message.bytes] using bytes
  · rw [if_neg fits,if_neg fits,List.flatMap_eq_nil_iff]
    refine forall₂_congr fun f _ => ?_
    rw [← droppedIff,calls]
    split <;> simp_all

/-- The messages come out whole exactly when each of them is plain. -/
theorem reassembledExactly (messages : List Message) : Reassembled messages ↔ ∀ m ∈ messages, Plain m := by
  have each : outs wsMessage [] messages = messages.map whole ↔ ∀ m ∈ messages, Plain m := by
    rw [messagesRun,List.map_inj_left]
    exact forall₂_congr fun m _ => messageWhole m
  exact ⟨fun h => each.mp h.dispatched,fun plain => ⟨each.mpr plain,accBounded _⟩⟩

def fragmented : Message := ⟨⟨[0x7b],[]⟩,[⟨[0x7d],[]⟩]⟩

/-- A message in two frames is dispatched as two. -/
theorem framesDispatchedApart : ¬Reassembled [fragmented] := by
  intro h
  exact absurd h.dispatched (by decide)

end Web3PiUps.ArkivWs
