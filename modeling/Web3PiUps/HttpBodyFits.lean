import Web3PiUps.HttpBodySize

/-! When `build_body` succeeds: in every reachable state, by what the queues print to. Ids of
plain octets leave room; ids of escaped octets can fill the body for good. -/
namespace Web3PiUps.HttpBackend
open WupsProtocol (Bytes wupsMaxFrame wupsAddrBroadcast wupsAddrCh32x wupsClassNet wupsFlagEvent ascii)
open WupsWholeBuffer (encodeFrame)
open JsonText

section
variable {c : CJson}

/-- Room for the widest telemetry. -/
def Room (number : Int → Bytes) (b : Backend) (m : Moment) : Prop :=
  queueCost number b m+telemetryMax+1+printSlack ≤ httpBodyMax
instance (number b m) : Decidable (Room number b m) := by unfold Room; infer_instance

theorem bodyBelow (b : Backend) (m : Moment) :
    size c.number (.object (bodyFields b m)) ≤ queueCost c.number b m+telemetryMax+1 := by
  have power := powerCost (c := c) (takeSlot m.nowUs b.slots.power)
  have host := hostCost (c := c) (takeSlot m.nowUs b.slots.host)
  have net := netCost (c := c) (takeSlot m.nowUs b.slots.net)
  rw [bodySize]
  simp only [telemetryMax]
  omega

theorem roomFits {b : Backend} {m : Moment} (room : Room c.number b m) : (buildBody c.fits b m).isSome = true := by
  have fits := c.enough (.object (bodyFields b m)) (Nat.le_trans (Nat.add_le_add_right (bodyBelow b m) _) room)
  simp [buildBody,fits]

theorem tooLarge {b : Backend} {m : Moment} (large : httpBodyMax < size c.number (.object (bodyFields b m))+1) :
    buildBody c.fits b m = none := by
  have never : c.fits (.object (bodyFields b m)) = false := by
    rw [Bool.eq_false_iff]
    intro fits
    have := c.needed _ fits
    omega
  simp [buildBody,never]

def telemetryFrame (cls op : UInt8) (payload : Bytes) : Bytes :=
  encodeFrame wupsMaxFrame wupsAddrBroadcast wupsAddrCh32x cls op wupsFlagEvent 0 payload

def worstFrames : List Bytes :=
  [telemetryFrame wupsClassPower wupsOpPwrStatus powerWorst,telemetryFrame wupsClassHost wupsOpHostStatus hostWorst,
    telemetryFrame wupsClassNet wupsOpNetStatus netWorst]

def observed (nowUs : Int) (frames : List Bytes) : List Input := frames.map (.observe nowUs)

def Backend.sees (b : Backend) (nowUs : Int) (frames : List Bytes) : Backend :=
  { b with slots := frames.foldl (fun s frame => observeTelemetryFrame s nowUs frame) b.slots }

theorem observedRun (fits : Json → Bool) (inputs : List Input) (nowUs : Int) (frames : List Bytes) :
    (run fits (inputs ++ observed nowUs frames)).1 = (run fits inputs).1.sees nowUs frames := by
  induction frames using List.reverseRecOn with
  | nil => simp [observed,Backend.sees]
  | append_singleton frames frame ih =>
    have order : inputs ++ observed nowUs (frames ++ [frame]) =
        (inputs ++ observed nowUs frames) ++ [.observe nowUs frame] := by
      simp [observed]
    rw [order,runConcat,advance,ih]
    simp [step,Backend.sees]

theorem queueSees (number : Int → Bytes) (b : Backend) (m : Moment) (nowUs : Int) (frames : List Bytes) :
    queueCost number (b.sees nowUs frames) m = queueCost number b m := rfl

theorem worstSeen (b : Backend) (nowUs : Int) : (b.sees nowUs worstFrames).slots =
    ⟨some ⟨nowUs,powerWorst⟩,some ⟨nowUs,hostWorst⟩,some ⟨nowUs,netWorst⟩⟩ := rfl

theorem takeFresh (nowUs : Int) (data : Bytes) : takeSlot nowUs (some ⟨nowUs,data⟩) = data :=
  if_pos (by change nowUs-90000*1000 ≤ nowUs; omega)

theorem worstAttained (b : Backend) (m : Moment) :
    size c.number (.object (bodyFields (b.sees m.nowUs worstFrames) m)) = queueCost c.number b m+telemetryMax+1 := by
  rw [bodySize,queueSees,worstSeen]
  simp only [takeFresh,powerAttained,hostAttained,netAttained,telemetryMax]
  omega

/-- The state `inputs` lead to, at `m`: with room for the widest telemetry every body fits, and
without it some telemetry leaves no body. -/
structure BodyFits (c : CJson) (inputs : List Input) (m : Moment) : Prop where
  always : Room c.number (run c.fits inputs).1 m → ∀ nowUs frames,
    (buildBody c.fits (run c.fits (inputs ++ observed nowUs frames)).1 m).isSome = true
  needed : httpBodyMax < queueCost c.number (run c.fits inputs).1 m+telemetryMax+1+1 →
    buildBody c.fits (run c.fits (inputs ++ observed m.nowUs worstFrames)).1 m = none

theorem bodyFits (c : CJson) (inputs : List Input) (m : Moment) : BodyFits c inputs m := by
  refine ⟨fun room nowUs frames => ?_,fun without => ?_⟩
  · rw [observedRun]
    exact roomFits (b := (run c.fits inputs).1.sees nowUs frames) room
  · rw [observedRun]
    refine tooLarge ?_
    rw [worstAttained]
    exact without

def Short (id : Bytes) : Prop := id.length < ackIdMax

structure Sized (b : Backend) : Prop where
  pending : ∀ id ∈ b.pending, Short id
  rejectedFew : b.rejected.length ≤ rejMax
  rejected : ∀ r ∈ b.rejected, Short r.id

theorem refreshSized (id : Bytes) (reason : Reason) {rejected : List Rejected} (all : ∀ r ∈ rejected, Short r.id) :
    (refreshReason id reason rejected).length = rejected.length ∧
      ∀ r ∈ refreshReason id reason rejected, Short r.id := by
  induction rejected with
  | nil => exact ⟨rfl,nofun⟩
  | cons r rest ih =>
    obtain ⟨length,later⟩ := ih fun r mem => all r (.tail _ mem)
    unfold refreshReason
    split
    · refine ⟨rfl,fun r' mem => ?_⟩
      rcases List.mem_cons.mp mem with rfl | mem
      · exact all r (.head _)
      · exact all r' (.tail _ mem)
    · refine ⟨by rw [List.length_cons,List.length_cons,length],fun r' mem => ?_⟩
      rcases List.mem_cons.mp mem with rfl | mem
      · exact all r' (.head _)
      · exact later r' mem

theorem Sized.reject {b : Backend} (sized : Sized b) (id : Bytes) (reason : Reason) : Sized (rejAdd b id reason) := by
  have cut : Short (id.take (ackIdMax-1)) := by
    unfold Short
    rw [List.length_take]
    exact Nat.lt_of_le_of_lt (Nat.min_le_left _ _) (by decide)
  have last {kept : List Rejected} (sub : ∀ r ∈ kept, r ∈ b.rejected) :
      ∀ r ∈ kept ++ [⟨id.take (ackIdMax-1),reason⟩], Short r.id := by
    intro r mem
    rcases List.mem_append.mp mem with old | new
    · exact sized.rejected r (sub r old)
    · cases List.mem_singleton.mp new
      exact cut
  have few := sized.rejectedFew
  unfold rejAdd
  dsimp only
  split
  · obtain ⟨length,all⟩ := refreshSized (id.take (ackIdMax-1)) reason sized.rejected
    exact ⟨sized.pending,length ▸ few,all⟩
  · split
    · refine ⟨sized.pending,?_,last fun r mem => List.mem_of_mem_drop mem⟩
      change (b.rejected.drop 1 ++ [_]).length ≤ rejMax
      rw [List.length_append,List.length_drop,List.length_singleton]
      unfold rejMax at *
      omega
    · rename_i room
      refine ⟨sized.pending,?_,last fun r mem => mem⟩
      change (b.rejected ++ [_]).length ≤ rejMax
      rw [List.length_append,List.length_singleton]
      exact Nat.lt_of_not_le room

theorem Sized.acknowledge {b : Backend} (sized : Sized b) {id : Bytes} (short : Short id) : Sized (ackAdd b id).1 := by
  have last {kept : List Bytes} (sub : ∀ id ∈ kept, id ∈ b.pending) : ∀ other ∈ kept ++ [id], Short other := by
    intro other mem
    rcases List.mem_append.mp mem with old | new
    · exact sized.pending other (sub other old)
    · cases List.mem_singleton.mp new
      exact short
  unfold ackAdd
  split
  · exact sized
  · split
    · exact ⟨last fun id mem => List.mem_of_mem_drop mem,sized.rejectedFew,sized.rejected⟩
    · exact ⟨last fun id mem => mem,sized.rejectedFew,sized.rejected⟩

theorem Sized.command {b : Backend} (sized : Sized b) (cmd : Json) : Sized (handleCommand b cmd).1 := by
  have plain {b₁ : Backend} (same : ∃ cmdSeq, b₁ = { b with cmdSeq }) : Sized b₁ := by
    obtain ⟨_,rfl⟩ := same
    exact ⟨sized.pending,sized.rejectedFew,sized.rejected⟩
  unfold handleCommand
  dsimp only
  split
  · exact sized.reject _ _
  · rename_i length
    have short : Short (idOf cmd) := Nat.not_le.mp fun long => length (.inr long)
    split
    · exact sized.acknowledge short
    · split
      · split
        · exact sized.reject _ _
        · rename_i text _ _
          have same := dispatches b text (getObjectItem (some cmd) "args")
          generalize dispatchCommand b text (getObjectItem (some cmd) "args") = sent at same
          obtain ⟨b₁,payload⟩ := sent
          have next := plain same
          cases payload with
          | none => exact next.reject _ _
          | some payload =>
            have added : Sized (execAdd b₁ (idOf cmd)) := ⟨next.pending,next.rejectedFew,next.rejected⟩
            exact added.acknowledge short
      · exact sized.reject _ _

theorem Sized.commands {b : Backend} (sized : Sized b) (cs : List Json) : Sized (handleCommands b cs).1 := by
  induction cs generalizing b with
  | nil => exact sized
  | cons cmd rest ih => exact ih (sized.command cmd)

theorem Sized.response {b : Backend} (sized : Sized b) (r : Reply) : Sized (handleResponse b r).1 := by
  unfold handleResponse
  split
  · exact sized
  · split
    · exact sized
    · exact sized.commands _

theorem Sized.accept {b : Backend} (sized : Sized b) : Sized (accepted b) := by
  refine ⟨fun id mem => sized.pending id (List.mem_of_mem_drop mem),?_,
    fun r mem => sized.rejected r (List.mem_of_mem_drop mem)⟩
  simp [accepted,rejDropFront,ackDropFront]

theorem Sized.post {b : Backend} (sized : Sized b) (fits : Json → Bool) (m : Moment) (x : Exchange) :
    Sized (postOnce fits b m x).1 := by
  unfold postOnce
  split
  · exact sized
  · split
    · exact sized
    · split
      · exact sized
      · split
        · exact sized
        · split
          · exact sized
          · split
            · exact ⟨sized.accept.pending,sized.accept.rejectedFew,sized.accept.rejected⟩
            · exact sized.accept.response _

theorem sizedRun (fits : Json → Bool) (inputs : List Input) : Sized (run fits inputs).1 := by
  induction inputs using List.reverseRecOn with
  | nil => exact ⟨nofun,Nat.zero_le _,nofun⟩
  | append_singleton a i ih =>
    rw [runConcat]
    cases i with
    | observe nowUs frame => exact ⟨ih.pending,ih.rejectedFew,ih.rejected⟩
    | post m x => exact ih.post fits m x

theorem acksCost (number : Int → Bytes) {ids : List Bytes} {width : Nat} (narrow : ∀ id ∈ ids, (quote id).length ≤ width) :
    itemsCost number (ids.map .string) ≤ ids.length*(width+1) := by
  induction ids with
  | nil => simp [itemsCost]
  | cons id rest ih =>
    have tail := ih fun id mem => narrow id (.tail _ mem)
    have head := narrow id (.head _)
    have here : size number (.string id) = (quote id).length := rfl
    simp only [itemsCost,List.map_cons,List.sum_cons,List.length_cons,here] at tail ⊢
    rw [Nat.add_mul,Nat.one_mul]
    omega

theorem reasonWidth (reason : Reason) : (quote reason.text).length ≤ 17 := by
  cases reason <;> decide

theorem rejectedSize (number : Int → Bytes) {r : Rejected} (narrow : (quote r.id).length ≤ 49) :
    size number (rejectedItem r) ≤ 83 := by
  have reason := reasonWidth r.reason
  have idKey : (quote (ascii "id")).length = 4 := by decide
  have reasonKey : (quote (ascii "reason")).length = 8 := by decide
  have idText : size number (.string r.id) = (quote r.id).length := rfl
  have reasonText : size number (.string r.reason.text) = (quote r.reason.text).length := rfl
  rw [rejectedItem,objectSize,fieldsCostCons,fieldsCostCons,fieldsCostNil,idKey,reasonKey,idText,reasonText]
  omega

theorem rejectedItems (number : Int → Bytes) {rejected : List Rejected}
    (narrow : ∀ r ∈ rejected, (quote r.id).length ≤ 49) :
    itemsCost number (rejected.map rejectedItem) ≤ rejected.length*84 := by
  induction rejected with
  | nil => simp [itemsCost]
  | cons r rest ih =>
    have head := rejectedSize number (narrow r (.head _))
    have tail := ih fun r mem => narrow r (.tail _ mem)
    simp only [itemsCost,List.map_cons,List.sum_cons,List.length_cons] at tail ⊢
    omega

theorem rejectedCost (number : Int → Bytes) {rejected : List Rejected} (few : rejected.length ≤ rejMax)
    (narrow : ∀ r ∈ rejected, (quote r.id).length ≤ 49) : fieldsCost number (rejectedFields rejected) ≤ 349 := by
  unfold rejectedFields
  split
  · exact Nat.zero_le _
  · have items := rejectedItems number narrow
    have key : (quote (ascii "rejected")).length = 10 := by decide
    change rejected.length ≤ 4 at few
    rw [fieldsCostCons,arraySize,fieldsCostNil,key]
    omega

theorem droppedCost (dropped : Option UInt32) : fieldsCost c.number (droppedFields dropped) ≤ 47 := by
  cases dropped with
  | none => exact Nat.zero_le _
  | some bytes =>
    have small : bytes.toNat < 4294967296 := bytes.toNat_lt
    have written := c.numeral bytes.toNat (by omega) (by omega)
    have count : size c.number (.number bytes.toNat) ≤ 10 := by
      have := (decimalLength (n := bytes.toNat) (k := 10) (by decide) (by omega) (by omega)).2 (by omega)
      simpa only [size,print,written] using this
    have max_ : size c.number (.number (httpRespMax-1 : Nat)) = 4 := by
      simp only [size,print,c.numeral (httpRespMax-1 : Nat) (by decide) (by decide)]
      decide
    have bytesKey : (quote (ascii "bytes")).length = 7 := by decide
    have maxKey : (quote (ascii "max")).length = 5 := by decide
    have key : (quote (ascii "resp_dropped")).length = 14 := by decide
    rw [droppedFields,sectionCost,num,num,fieldsCostCons,fieldsCostCons,fieldsCostNil,bytesKey,maxKey,key,max_]
    omega

/-- Every octet of a queued id stands for itself. -/
def PlainIds (b : Backend) : Prop :=
  (∀ id ∈ b.pending, ∀ octet ∈ id, Plain octet) ∧ ∀ r ∈ b.rejected, ∀ octet ∈ r.id, Plain octet

/-- What the clocks and the version print to. -/
def headWidth (number : Int → Bytes) (m : Moment) : Nat :=
  (number m.ts).length+(quote m.fwVersion).length+(number (m.nowUs/1000000)).length

theorem plainRoom (inputs : List Input) (m : Moment) (plain : PlainIds (run c.fits inputs).1)
    (head : headWidth c.number m ≤ 586) : Room c.number (run c.fits inputs).1 m := by
  have sized := sizedRun c.fits inputs
  have few := (keptRun c.fits inputs).short
  generalize (run c.fits inputs).1 = b at *
  have narrow {id : Bytes} (plain : ∀ octet ∈ id, Plain octet) (short : Short id) : (quote id).length ≤ 49 := by
    change id.length < 48 at short
    rw [quotePlain plain]
    omega
  have acks := acksCost c.number fun id mem => narrow (plain.1 id mem) (sized.pending id mem)
  have rejected := rejectedCost c.number sized.rejectedFew fun r mem => narrow (plain.2 r mem) (sized.rejected r mem)
  have dropped := droppedCost (c := c) b.respDropped
  have tsKey : (quote (ascii "ts")).length = 4 := by decide
  have fwKey : (quote (ascii "fw_ver")).length = 8 := by decide
  have upKey : (quote (ascii "uptime_s")).length = 10 := by decide
  have acksKey : (quote (ascii "acks")).length = 6 := by decide
  have fwText : size c.number (.string m.fwVersion) = (quote m.fwVersion).length := rfl
  have tsText : size c.number (.number m.ts) = (c.number m.ts).length := rfl
  have upText : size c.number (.number (m.nowUs/1000000)) = (c.number (m.nowUs/1000000)).length := rfl
  have queue : queueCost c.number b m ≤ headWidth c.number m+28+409+349+47 := by
    change b.pending.length ≤ 8 at few
    simp only [queueCost,queueFields,num,fieldsCostAppend,fieldsCostCons,fieldsCostNil,tsKey,fwKey,upKey,acksKey,
      fwText,tsText,upText,arraySize,headWidth]
    omega
  change queueCost c.number b m+623+1+5 ≤ 2048
  omega

end

/-- cJSON at its best: nothing but the text and its terminator. -/
def tightCJson : CJson where
  number := decimal
  fits := fun j => decide (size decimal j+1 ≤ httpBodyMax)
  numeral := fun _ _ _ => rfl
  enough := fun j room => decide_eq_true (by unfold printSlack at room; omega)
  needed := fun j fits => of_decide_eq_true fits

/-- Eight ids of 37 octets below 0x20. -/
def controlIds : List Bytes := (List.range 8).map fun i => UInt8.ofNat (0x0E+i) :: List.replicate 36 0x01

def controlReply : Json :=
  .object [(ascii "commands",.array (controlIds.map fun id =>
    .object [(ascii "id",.string id),(ascii "cmd",.string (ascii "ui.beep"))]))]

def noon (nowUs : Int) : Moment := ⟨1760000000,ascii "esp32:0.8.16",nowUs⟩

def controlPost : Input :=
  .post (noon 30000000) ⟨true,true,some ⟨200,⟨size decimal controlReply,some controlReply,true⟩⟩⟩

/-- A power.status of zeros. -/
def idlePower : Bytes := telemetryFrame wupsClassPower wupsOpPwrStatus (2 :: List.replicate 39 0)

/-- A period: the frame comes in and a POST is due. -/
def period (p : Moment × Exchange) : List Input := [.observe p.1.nowUs idlePower,.post p.1 p.2]

theorem controlAccepted : size decimal controlReply = 1998 ∧ (run tightCJson.fits [controlPost]).1.pending = controlIds ∧
    dispatchedIds (run tightCJson.fits [controlPost]).2 = controlIds := by
  refine ⟨by decide +kernel,by decide +kernel,by decide +kernel⟩

theorem controlLarge {b : Backend} (queued : b.pending = controlIds) (m : Moment) :
    buildBody tightCJson.fits (b.sees m.nowUs [idlePower]) m = none := by
  refine tooLarge (c := tightCJson) ?_
  have seen : takeSlot m.nowUs (b.sees m.nowUs [idlePower]).slots.power = 2 :: List.replicate 39 0 :=
    takeFresh m.nowUs (2 :: List.replicate 39 0)
  have power : fieldsCost decimal (powerTelemetry (2 :: List.replicate 39 0)) = 298 := by decide +kernel
  have acks : fieldsCost decimal [(ascii "acks",.array (controlIds.map .string))] = 1809 := by decide +kernel
  have queue : 1809 ≤ queueCost decimal (b.sees m.nowUs [idlePower]) m := by
    rw [← acks,← queued]
    simp only [queueCost,queueFields,num,fieldsCostAppend,fieldsCostCons,fieldsCostNil,Backend.sees]
    omega
  rw [bodySize]
  change 2048 < queueCost decimal (b.sees m.nowUs [idlePower]) m+fieldsCost decimal (powerTelemetry _)+_+_+1+1
  rw [seen,power]
  omega

theorem periodIdle {b : Backend} (queued : b.pending = controlIds) (log : List Event) (p : Moment × Exchange) :
    ∃ b', (period p).foldl (advance tightCJson.fits) (b,log) = (b',log) ∧ b'.pending = controlIds := by
  have stuck := controlLarge queued p.1
  refine ⟨b.sees p.1.nowUs [idlePower],?_,queued⟩
  have post : postOnce tightCJson.fits (b.sees p.1.nowUs [idlePower]) p.1 p.2 = (b.sees p.1.nowUs [idlePower],[]) := by
    unfold postOnce
    split
    · rfl
    · rw [stuck]
  change ((postOnce tightCJson.fits (b.sees p.1.nowUs [idlePower]) p.1 p.2).1,
    (log ++ []) ++ (postOnce tightCJson.fits (b.sees p.1.nowUs [idlePower]) p.1 p.2).2) = _
  rw [post]
  simp

/-- One reply of eight commands, and as long as the power telemetry goes on nothing is posted
again, whatever the network does: the acknowledgements never leave. -/
theorem stuckForGood : dispatchedIds (run tightCJson.fits [controlPost]).2 = controlIds ∧
    (∀ m, buildBody tightCJson.fits (run tightCJson.fits ([controlPost] ++ observed m.nowUs [idlePower])).1 m = none) ∧
    ∀ later : List (Moment × Exchange),
      (run tightCJson.fits (controlPost :: later.flatMap period)).2 = (run tightCJson.fits [controlPost]).2 := by
  refine ⟨controlAccepted.2.2,fun m => ?_,fun later => ?_⟩
  · rw [observedRun]
    exact controlLarge controlAccepted.2.1 m
  have start : run tightCJson.fits (controlPost :: later.flatMap period) =
      (later.flatMap period).foldl (advance tightCJson.fits) (run tightCJson.fits [controlPost]) :=
    List.foldl_append (l := [controlPost])
  rw [start]
  clear start
  have queued := controlAccepted.2.1
  generalize run tightCJson.fits [controlPost] = now at *
  obtain ⟨b,log⟩ := now
  induction later generalizing b with
  | nil => rfl
  | cons p rest ih =>
    obtain ⟨b',next,kept⟩ := periodIdle queued log p
    rw [List.flatMap_cons,List.foldl_append,next]
    exact ih b' kept

theorem bothSides :
    (∀ nowUs frames, (buildBody tightCJson.fits (run tightCJson.fits ([] ++ observed nowUs frames)).1 (noon 0)).isSome = true) ∧
      buildBody tightCJson.fits (run tightCJson.fits ([controlPost] ++ observed 60000000 worstFrames)).1 (noon 60000000) =
        none :=
  ⟨(bodyFits tightCJson [] (noon 0)).always (by decide +kernel),
    (bodyFits tightCJson [controlPost] (noon 60000000)).needed (by decide +kernel)⟩

end Web3PiUps.HttpBackend
