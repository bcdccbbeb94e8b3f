import Web3PiUps.ArkivListing
import Web3PiUps.Lib.AscendingPass

/-! What a complete sweep passes over. The loop of `poll_once` accepts, of the
candidates it keeps, exactly those that are due. It moves the baseline over a
valid entity where none of its seq is listed and a command above it is due. -/
namespace Web3PiUps.ArkivSkips
open WupsProtocol ArkivEntity CmdauthArkiv ArkivSweep ArkivListing LowestKept AscendingPass

/-! Entities of the owner, well formed, for this device and the current epoch. -/

def Valid (env : Env) (iccid : Bytes) (a : Auth) (c : Cand) : Prop :=
  match readCmd iccid c.seq c.e with
  | some cmd => Genuine env a cmd
  | none => False
instance (env iccid a c) : Decidable (Valid env iccid a c) := by unfold Valid; cases readCmd iccid c.seq c.e <;> infer_instance

def LocalOp (iccid : Bytes) (c : Cand) : Prop :=
  match (readCmd iccid c.seq c.e).bind Cmd.frame with
  | some frame => FwOtaTryHandleDownlink frame ∨ WupsLinkTrySysReset frame
  | none => False
instance (iccid c) : Decidable (LocalOp iccid c) := by
  unfold LocalOp; cases (readCmd iccid c.seq c.e).bind Cmd.frame <;> infer_instance

def Takes (env : Env) (iccid : Bytes) (a : Auth) (c : Cand) : Prop := Opened a 0 ∧ Valid env iccid a c

theorem openedIff (a : Auth) (block : Nat) : Opened a block ↔
    a.ready = true ∧ a.claimState = .claimed ∧ a.haveOwner = true ∧ a.curBlock ≤ block :=
  ⟨fun h => ⟨h.ready,h.claimed,h.owner,h.block⟩,fun ⟨ready,claimed,owner,block⟩ => ⟨ready,claimed,owner,block⟩⟩
instance (a block) : Decidable (Opened a block) := decidable_of_iff' _ (openedIff a block)
instance (env iccid a c) : Decidable (Takes env iccid a c) := by unfold Takes; infer_instance

theorem readCmdFields {iccid seq e cmd} (read : readCmd iccid seq e = some cmd) :
    cmd.counter = seq ∧ cmd.block = 0 := by
  simp only [readCmd,bind,Option.bind_eq_some_iff] at read
  obtain ⟨writerText,-,value,-,sigHex,-,commandId,-,rest⟩ := read
  split at rest <;> try contradiction
  simp only [Option.bind_eq_some_iff] at rest
  obtain ⟨writer,-,sig,-,frame,-,same⟩ := rest
  cases Option.some.inj same
  exact ⟨rfl,rfl⟩

def SameBinding (a b : Auth) : Prop :=
  b.ready = a.ready ∧ b.claimState = a.claimState ∧ b.haveOwner = a.haveOwner ∧ b.ownerPub = a.ownerPub ∧
    b.ownerAddr = a.ownerAddr ∧ b.keyEpoch = a.keyEpoch ∧ b.curBlock = a.curBlock

theorem sameTakes (env : Env) (iccid : Bytes) {a b : Auth} (c : Cand) (same : SameBinding a b) :
    Takes env iccid b c ↔ Takes env iccid a c := by
  obtain ⟨ready,claim,owner,pub,addr,epoch,block⟩ := same
  unfold Takes Valid
  cases readCmd iccid c.seq c.e with
  | none => simp
  | some cmd => simp only [openedIff,Genuine,Signed,ready,claim,owner,pub,addr,epoch,block]

theorem acceptBinding (env : Env) (a : Auth) {cmd : Cmd} (clockless : cmd.block = 0) :
    SameBinding a (accept env a cmd) ∧ (accept env a cmd).lastCtr = cmd.counter := by
  have stays : (accept env a cmd).curBlock = a.curBlock := by simp [accept,clockless]
  exact ⟨⟨rfl,rfl,rfl,rfl,rfl,rfl,stays⟩,rfl⟩

theorem deliverOutcome (iccid frame commandId : Bytes) :
    (deliver iccid frame commandId).1 =
      if FwOtaTryHandleDownlink frame ∨ WupsLinkTrySysReset frame then CmdOutcome.localOp else .dispatched := by
  unfold deliver
  by_cases update : FwOtaTryHandleDownlink frame
  · simp [update]
  · by_cases reset : WupsLinkTrySysReset frame
    · simp [update,reset]
    · simp [update,reset]

theorem tryCases (env : Env) (iccid : Bytes) (a : Auth) (c : Cand) :
    let result := tryDispatchEntity env iccid a c
    (¬ (Takes env iccid a c ∧ a.lastCtr < c.seq) ∧ result.1 = a ∧
        (result.2.1 = .invalid ∨ result.2.1 = .authRejected)) ∨
    ((Takes env iccid a c ∧ a.lastCtr < c.seq) ∧ SameBinding a result.1 ∧ result.1.lastCtr = c.seq ∧
        result.2.1 = if LocalOp iccid c then .localOp else .dispatched) := by
  cases read : readCmd iccid c.seq c.e with
  | none =>
    have invalid : ¬ Valid env iccid a c := by simp [Valid,read]
    have run : tryDispatchEntity env iccid a c = (a,.invalid,[]) := by simp only [tryDispatchEntity,read]
    rw [run]
    exact Or.inl ⟨fun h => invalid h.1.2,rfl,Or.inl rfl⟩
  | some cmd =>
    obtain ⟨counter,block⟩ := readCmdFields read
    have valid : Valid env iccid a c ↔ Genuine env a cmd := by simp only [Valid,read]
    rcases checkCases env a cmd with ⟨check,none⟩ | ⟨frame,content,check,opened,genuine,above⟩
    · have run : tryDispatchEntity env iccid a c = (a,.authRejected,[]) := by
        simp only [tryDispatchEntity,read,check]
      rw [block,counter] at none
      rw [run]
      exact Or.inl ⟨fun h => none ⟨h.1.1,valid.mp h.1.2,h.2⟩,rfl,Or.inr rfl⟩
    · have run : tryDispatchEntity env iccid a c =
          (accept env a cmd,deliver iccid frame (cmd.commandId.getD [])) := by
        simp only [tryDispatchEntity,read,check]
      have onBoard : LocalOp iccid c ↔ FwOtaTryHandleDownlink frame ∨ WupsLinkTrySysReset frame := by
        simp only [LocalOp,read,Option.bind_some,content]
      obtain ⟨binding,last⟩ := acceptBinding env a block
      rw [block] at opened
      rw [counter] at above last
      rw [run]
      refine Or.inr ⟨⟨⟨opened,valid.mpr genuine⟩,above⟩,binding,last,?_⟩
      simp only [deliverOutcome,onBoard]

section Sweep
variable (env : Env) (iccid : Bytes) (a : Auth)

abbrev accepting (l : List Cand) : Pass Cand :=
  pass Cand.seq (Takes env iccid a) (LocalOp iccid) arkivCmdMaxPerSweep a.lastCtr l

structure Follows (s : Dispatch) (p : Pass Cand) : Prop where
  accepted : s.accepted = p.accepted
  stop : s.stop = p.stopped
  dispatched : s.dispatched = p.accepted.length
  room : s.stop = false → s.dispatched < arkivCmdMaxPerSweep
  binding : SameBinding a s.auth
  baseline : s.auth.lastCtr = top Cand.seq a.lastCtr p.accepted

theorem followsStart : Follows a (.start a) ⟨[],false⟩ :=
  ⟨rfl,rfl,rfl,fun _ => Nat.succ_pos 7,⟨rfl,rfl,rfl,rfl,rfl,rfl,rfl⟩,rfl⟩

theorem sameTrans {a b c : Auth} (first : SameBinding a b) (next : SameBinding b c) : SameBinding a c := by
  obtain ⟨ready,claim,owner,pub,addr,epoch,block⟩ := first
  obtain ⟨ready',claim',owner',pub',addr',epoch',block'⟩ := next
  exact ⟨ready'.trans ready,claim'.trans claim,owner'.trans owner,pub'.trans pub,addr'.trans addr,
    epoch'.trans epoch,block'.trans block⟩

theorem followsRefused {s : Dispatch} {p : Pass Cand} {c : Cand} (h : Follows a s p) (running : ¬ s.stop = true)
    (above : c.seq > s.auth.lastCtr) (refused : ¬ (Takes env iccid s.auth c ∧ s.auth.lastCtr < c.seq)) :
    Follows a (dispatchNext env iccid s c) p := by
  have short := h.room (by simpa using running)
  rcases tryCases env iccid s.auth c with ⟨-,same,outcome⟩ | ⟨taken,-⟩
  · unfold dispatchNext
    rw [if_neg running,if_pos above]
    generalize tryDispatchEntity env iccid s.auth c = result at same outcome
    obtain ⟨auth,what,effects⟩ := result
    dsimp only at same outcome ⊢
    subst same
    rcases outcome with rfl | rfl <;> rw [if_neg (Nat.not_le.mpr short)] <;>
      exact ⟨h.accepted,h.stop,h.dispatched,h.room,h.binding,h.baseline⟩
  · exact absurd taken refused

theorem followsTaken {s : Dispatch} {p : Pass Cand} {c : Cand} (h : Follows a s p) (running : ¬ s.stop = true)
    (above : c.seq > s.auth.lastCtr) (taken : Takes env iccid s.auth c) :
    Follows a (dispatchNext env iccid s c)
      ⟨p.accepted ++ [c],decide (LocalOp iccid c ∨ arkivCmdMaxPerSweep ≤ p.accepted.length+1)⟩ := by
  rcases tryCases env iccid s.auth c with ⟨refused,-⟩ | ⟨-,next,last,outcome⟩
  · exact absurd ⟨taken,above⟩ refused
  unfold dispatchNext
  rw [if_neg running,if_pos above]
  generalize tryDispatchEntity env iccid s.auth c = result at next last outcome
  obtain ⟨auth,what,effects⟩ := result
  dsimp only at next last outcome ⊢
  subst outcome
  have accepted : s.accepted ++ [c] = p.accepted ++ [c] := by rw [h.accepted]
  have length : s.dispatched+1 = (p.accepted ++ [c]).length := by simp [h.dispatched]
  have binding := sameTrans h.binding next
  have baseline : auth.lastCtr = top Cand.seq a.lastCtr (p.accepted ++ [c]) := by rw [topConcat,last]
  by_cases onBoard : LocalOp iccid c
  · simp only [if_pos onBoard]
    split <;> exact ⟨accepted,by simp [onBoard],length,by simp,binding,baseline⟩
  · simp only [if_neg onBoard]
    by_cases full : arkivCmdMaxPerSweep ≤ p.accepted.length+1
    · rw [if_pos (by rw [h.dispatched]; exact full)]
      exact ⟨accepted,by simp [full],length,by simp,binding,baseline⟩
    · have left : ¬ s.dispatched+1 ≥ arkivCmdMaxPerSweep := by rw [h.dispatched]; exact full
      rw [if_neg left]
      refine ⟨accepted,?_,length,fun _ => Nat.not_le.mp left,binding,baseline⟩
      simp only [onBoard,full,or_self,decide_false]
      simpa using running

theorem followsNext {s : Dispatch} {p : Pass Cand} (c : Cand) (h : Follows a s p) :
    Follows a (dispatchNext env iccid s c)
      (passStep Cand.seq (Takes env iccid a) (LocalOp iccid) arkivCmdMaxPerSweep a.lastCtr p c) := by
  unfold passStep
  by_cases stopped : s.stop = true
  · rw [if_pos (h.stop ▸ stopped),dispatchNext,if_pos stopped]
    exact h
  have same := sameTakes env iccid c h.binding
  rw [if_neg (fun bad => stopped (h.stop.trans bad)),← h.baseline]
  by_cases above : c.seq > s.auth.lastCtr
  · by_cases taken : Takes env iccid s.auth c
    · rw [if_pos ⟨same.mp taken,above⟩]
      exact followsTaken env iccid a h stopped above taken
    · rw [if_neg (fun both => taken (same.mpr both.1))]
      exact followsRefused env iccid a h stopped above (fun both => taken both.1)
  · rw [if_neg (fun both => above both.2),dispatchNext,if_neg stopped,if_neg above]
    exact ⟨h.accepted,h.stop,h.dispatched,h.room,h.binding,h.baseline⟩

theorem followsAll (l : List Cand) :
    Follows a (l.foldl (dispatchNext env iccid) (.start a)) (accepting env iccid a l) := by
  induction l using List.reverseRecOn with
  | nil => exact followsStart a
  | append_singleton l c ih =>
    rw [accepting,passConcat,List.foldl_append]
    exact followsNext env iccid a c ih

variable (entities : List Json)

structure SkipsNothing (s : Sweep) : Prop where
  reached : ∀ e ∈ entities, Valid env iccid a (candOf e) → a.lastCtr < seqOf e →
    seqOf e ≤ s.outcome.auth.lastCtr → ∃ c ∈ s.outcome.accepted, c.seq = seqOf e
  ascending : (s.outcome.accepted.map Cand.seq).Pairwise (· < ·)
  few : s.outcome.accepted.length ≤ 8

abbrev listed : List Json := listing entities a.lastCtr arkivCmdMaxPages uint64Max

abbrev kept : List Cand := (rank Cand.seq ((listed a entities).map candOf)).take cmdCandMax

def Overlooks : Prop :=
  ∃ e ∈ entities, Valid env iccid a (candOf e) ∧ a.lastCtr < seqOf e ∧
    (∀ w ∈ listed a entities, Valid env iccid a (candOf w) → seqOf w ≠ seqOf e) ∧
    ∃ c, Due Cand.seq (Takes env iccid a) (LocalOp iccid) arkivCmdMaxPerSweep (kept a entities) c ∧
      seqOf e < c.seq

variable {a entities} in
theorem keptListed {c : Cand} (mem : c ∈ kept a entities) : ∃ e ∈ listed a entities, candOf e = c :=
  List.mem_map.mp ((rankPerm Cand.seq _).mem_iff.mp (List.mem_of_mem_take mem))

theorem keptAbove : ∀ c ∈ kept a entities, a.lastCtr < c.seq := by
  intro c mem
  obtain ⟨e,inside,rfl⟩ := keptListed mem
  exact (listingMember inside).2.1

theorem keptSettled : Settled Cand.seq (Takes env iccid a) (LocalOp iccid) arkivCmdMaxPerSweep a.lastCtr
    (kept a entities) (accepting env iccid a (kept a entities)) :=
  passSettled (by decide) (keptAbove a entities)
    ((rankAscends _ _).sublist (List.take_sublist _ _))

variable {env iccid a entities} {fails : Nat → Bool}

theorem sweepFollows (complete : (pollOnce env (node entities fails) iccid a).gathered.complete = true) :
    Follows a (pollOnce env (node entities fails) iccid a).outcome (accepting env iccid a (kept a entities)) := by
  have empty : Gather.start.cand = (rank Cand.seq []).take cmdCandMax := rfl
  simp only [pollOnce] at complete ⊢
  have gathered := gatherLists arkivCmdMaxPages (Nat.le_refl uint64Max) rfl rfl empty complete
  rw [List.nil_append] at gathered
  rw [gathered.2,if_neg Bool.false_ne_true,gathered.1]
  exact followsAll env iccid a (kept a entities)

theorem overlookedSkipped (complete : (pollOnce env (node entities fails) iccid a).gathered.complete = true)
    (skips : SkipsNothing env iccid a entities (pollOnce env (node entities fails) iccid a)) :
    ¬ Overlooks env iccid a entities := by
  rintro ⟨e,inside,fine,above,unlisted,c,due,below⟩
  have follows := sweepFollows complete
  have settled := keptSettled env iccid a entities
  have taken := settled.reached c due
  have final := topMost a.lastCtr settled.ascending taken
  rw [← follows.baseline] at final
  obtain ⟨w,mem,same⟩ := skips.reached e inside fine above (by omega)
  rw [follows.accepted] at mem
  obtain ⟨held,takes⟩ := dueMember (settled.due w mem)
  obtain ⟨x,appears,rfl⟩ := keptListed held
  exact unlisted x appears takes.2 same

theorem listedReached {y : Cand} {w : Json}
    (taken : y ∈ (accepting env iccid a (kept a entities)).accepted)
    (last : y.seq = top Cand.seq a.lastCtr (accepting env iccid a (kept a entities)).accepted)
    (appears : w ∈ listed a entities) (valid : Valid env iccid a (candOf w)) (low : seqOf w ≤ y.seq) :
    ∃ c ∈ (accepting env iccid a (kept a entities)).accepted, c.seq = seqOf w := by
  have settled := keptSettled env iccid a entities
  obtain ⟨held,takes⟩ := dueMember (settled.due y taken)
  rcases keptOrAbove Cand.seq cmdCandMax (List.mem_map_of_mem (f := candOf) appears) with inside | higher
  · exact settled.covered (candOf w) inside ⟨takes.1,valid⟩ (low.trans last.le)
  · exact ⟨y,taken,Nat.le_antisymm (higher y held) low⟩

theorem nothingOverlooked (complete : (pollOnce env (node entities fails) iccid a).gathered.complete = true)
    (none : ¬ Overlooks env iccid a entities) :
    SkipsNothing env iccid a entities (pollOnce env (node entities fails) iccid a) := by
  have follows := sweepFollows complete
  have settled := keptSettled env iccid a entities
  refine ⟨fun e inside fine above low => ?_,?_,?_⟩
  · rw [follows.accepted]
    rw [follows.baseline] at low
    rcases topAttained Cand.seq a.lastCtr (accepting env iccid a (kept a entities)).accepted with
      base | ⟨y,taken,last⟩
    · omega
    by_cases twin : ∃ w ∈ listed a entities, Valid env iccid a (candOf w) ∧ seqOf w = seqOf e
    · obtain ⟨w,appears,valid,same⟩ := twin
      rw [← same] at low ⊢
      exact listedReached taken last appears valid (by omega)
    · have notBelow : ¬ seqOf e < y.seq := fun less => none ⟨e,inside,fine,above,
        fun w appears valid same => twin ⟨w,appears,valid,same⟩,y,settled.due y taken,less⟩
      exact ⟨y,taken,by omega⟩
  · rw [follows.accepted]
    exact List.pairwise_map.mpr settled.ascending
  · rw [follows.accepted]
    exact settled.size

theorem orderlySkipsNothing (orderly : Orderly entities a.lastCtr)
    (complete : (pollOnce env (node entities fails) iccid a).gathered.complete = true) :
    SkipsNothing env iccid a entities (pollOnce env (node entities fails) iccid a) := by
  refine nothingOverlooked complete ?_
  rintro ⟨e,inside,fine,above,unlisted,c,due,below⟩
  obtain ⟨w,appears,rfl⟩ := keptListed (dueMember due).1
  have lower : seqOf e < uint64Max := below.trans (listingMember appears).2.2
  simp only [pollOnce] at complete
  have all := orderlyListed orderly arkivCmdMaxPages (Nat.le_refl uint64Max) rfl complete
  exact unlisted e (all e inside above lower) fine rfl

theorem skipsWhere (complete : (pollOnce env (node entities fails) iccid a).gathered.complete = true) :
    SkipsNothing env iccid a entities (pollOnce env (node entities fails) iccid a) ↔
      ¬ Overlooks env iccid a entities :=
  ⟨overlookedSkipped complete,nothingOverlooked complete⟩

end Sweep

/-! Two commands of one owner, seq 4 and 5, then five entities of strangers: the
last one, of seq 4, ends the first page below the command it hides. -/

def hexText (bytes : Bytes) : Bytes :=
  ascii "0x" ++ (bytes.flatMap (fun (b : UInt8) => [b >>> 4,b &&& 0x0F])).map
    (fun nibble => if nibble < 10 then 0x30+nibble else 0x57+nibble)

def iccid : Bytes := ascii "8948010000000000017"
def ownerAddr : Bytes := bigEndian 20 0x7c8999dc9a822c1f0df42023113edb4fdd543266
def ownerPub : Bytes :=
  bigEndian 32 0x616e482c4b29bfa9da50074ad9639b228766b5b6adbb18215aba97864e9d0d05 ++
    bigEndian 32 0x15fbdf209e0f5c8c5bf340cd8c5b2590e0b303d271d6bef626db99f02cfd20b4
def device : Auth := ⟨true,.claimed,true,ownerPub,ownerAddr,0,0,0,⟨none,none⟩⟩

structure Signing where
  seq : Nat
  frame : Bytes
  commandId : Bytes
  digest : Bytes
  signed : Bytes
  sig : Bytes

def older : Signing where
  seq := 4
  frame := [0xAA,0x55,2,1,1,1,1,4,0,0,10,50,0x55,0xAA]
  commandId := ascii "550e8400-e29b-41d4-a716-446655440004"
  digest := bigEndian 32 0x88a0893e136a67f2fc5d6772c7242078cf1dfcf1a304ba28e6aa528995aeeae3
  signed := bigEndian 32 0x11e210c58238026849621c60c3181688872f4b24725f0a44c6e80317e896f00e
  sig := bigEndian 32 0x8455de0828b34fdcb47f136a504c0606c116d401d21d97840cfdab064b974930 ++
    bigEndian 32 0x4803375717734c1ccdd1df13a6b5a4ad42e851d5c19ab5c701b77e01513ce52f

def newer : Signing where
  seq := 5
  frame := [0xAA,0x55,2,1,1,1,1,5,0,0,11,53,0x55,0xAA]
  commandId := ascii "550e8400-e29b-41d4-a716-446655440005"
  digest := bigEndian 32 0xa11710b35a6a335668bdb7483ebe0f4b26dd868b19ba412d11e37413cae59a95
  signed := bigEndian 32 0x324c02e37143a9148dee2bbd57cb42b66fd98d3199f8f45e48b155e4a192e682
  sig := bigEndian 32 0xc50d37fea3c13f88dc359371965c00b13863941df4387f524c7e992302af17e1 ++
    bigEndian 32 0x7877c14b9d4162bb5ca99c9e19f9cd96f63f5ae94bbe39c41d42a2db0cd43d16

def Signing.preimage (s : Signing) : Bytes :=
  ascii "w3pups-cmd" ++ [0] ++ iccid ++ [0,0,0,0] ++ [UInt8.ofNat s.seq,0,0,0,0,0,0,0] ++ s.commandId ++ s.frame

/-- Keccak-256 and the verification, at what this run asks of them. -/
def crypto : Env where
  keccak256 m :=
    if m = older.preimage then older.digest else if m = newer.preimage then newer.digest else
    if m = eip191Prefix ++ older.digest then older.signed else
    if m = eip191Prefix ++ newer.digest then newer.signed else []
  verify pub digest sig := decide (pub = ownerPub ∧
    ((digest = older.signed ∧ sig = older.sig) ∨ (digest = newer.signed ∧ sig = newer.sig)))
  persistProgress _ ctr block := (⟨some ctr,some block⟩,true)

def attr (key : String) (value : Json) : Json :=
  .object [(ascii "key",.string (ascii key)),(ascii "value",value)]
def seqAttr (seq : Nat) : Json := attr "seq" (.number (UInt64.ofNat seq))

def Signing.entity (s : Signing) : Json :=
  .object [(ascii "creator",.string (hexText ownerAddr)),(ascii "value",.string (hexText s.frame)),
    (ascii "stringAttributes",.array
      [attr "command_id" (.string s.commandId),attr "sig" (.string (hexText s.sig))]),
    (ascii "numericAttributes",.array [seqAttr s.seq,attr "epoch" (.number 0)])]

def stranger (seq : Nat) : Json :=
  .object [(ascii "creator",.string (hexText (List.replicate 20 0x11))),
    (ascii "numericAttributes",.array [seqAttr seq])]

def hidden : List Json :=
  [stranger 4,stranger 9,stranger 8,stranger 7,stranger 6,newer.entity,older.entity]

abbrev hiddenSweep : Sweep := pollOnce crypto (node hidden (fun _ => false)) iccid device

theorem hiddenRun : hiddenSweep.gathered.complete = true ∧ hiddenSweep.outcome.auth.lastCtr = 5 ∧
    hiddenSweep.outcome.accepted.map Cand.seq = [5] := by decide +kernel

theorem olderHidden : ∃ e ∈ hidden, Valid crypto iccid device (candOf e) ∧ seqOf e = 4 :=
  ⟨older.entity,List.mem_of_getElem? (show hidden[6]? = some older.entity from rfl),by decide +kernel⟩

theorem hiddenWhere : SkipsNothing crypto iccid device hidden hiddenSweep ↔
    ¬ Overlooks crypto iccid device hidden :=
  skipsWhere hiddenRun.1

theorem hiddenSkipped : hiddenSweep.gathered.complete = true ∧
    ¬ SkipsNothing crypto iccid device hidden hiddenSweep := by
  obtain ⟨complete,final,accepted⟩ := hiddenRun
  refine ⟨complete,fun skips => ?_⟩
  obtain ⟨e,inside,valid,seq⟩ := olderHidden
  have above : device.lastCtr < seqOf e := by
    rw [seq]
    exact Nat.succ_pos 3
  have below : seqOf e ≤ hiddenSweep.outcome.auth.lastCtr := by
    rw [seq,final]
    exact Nat.le_succ 4
  obtain ⟨c,mem,same⟩ := skips.reached e inside valid above below
  have taken := List.mem_map_of_mem (f := Cand.seq) mem
  rw [accepted,same,seq] at taken
  simp at taken

end Web3PiUps.ArkivSkips
