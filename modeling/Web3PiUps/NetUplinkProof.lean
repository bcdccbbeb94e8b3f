import Web3PiUps.Lib.ChangeHeartbeat
import Web3PiUps.NetUplink
import Web3PiUps.NetPublishReadings

/-! What goes up, over every run of the RP2040's handler: the power status within its budget and
never stale, and every alert once, all the way to the ESP32's outlets. -/
namespace Web3PiUps.NetUplink
open WupsProtocol WupsFraming WupsDeframers WupsEncoders WupsWholeBuffer NetPublish StepMachine
open WupsRouter (isHostResp isNetDownlink)
open MqttReceipts (Publication publishRaw publishCritical publishSnapshot)
open ChangeHeartbeat (Gate Due Timed Close changes lastOf passed)

theorem builtFrame {cap : Nat} {dst src cls op flags seq : UInt8} {payload : Bytes} (bounded : payload.length ≤ wupsMaxPayload)
    (room : wupsFramingBytes+payload.length ≤ cap) :
    wupsBuildFrame cap dst src cls op flags seq payload = wire ⟨dst,src,cls,op,flags,seq,payload,bounded⟩ := by
  rw [wupsBuildFrame,if_neg (Nat.not_lt.mpr room)]
  exact bodyWire ⟨dst,src,cls,op,flags,seq,payload,bounded⟩

theorem wireSome (f : WupsFrame) : wire f ≠ [] := by
  rw [wireCons]
  exact List.cons_ne_nil _ _

theorem verbatim (topic : Bytes) (f : WupsFrame) :
    publishVerbatim topic f = if f.len ≤ 64 then [.publish ⟨topic,1,0,wire f⟩] else [] := by
  rw [publishVerbatim]
  split
  · rename_i short
    have built : wupsBuildFrame (wupsFramingBytes+64) f.dst f.src f.cls f.op f.flags f.seq f.payload = wire f :=
      builtFrame f.bounded (Nat.add_le_add_left short _)
    rw [built,publishFrame,if_neg (wireSome f)]
  · rename_i long
    have none_ : wupsBuildFrame (wupsFramingBytes+64) f.dst f.src f.cls f.op f.flags f.seq f.payload = [] := by
      rw [wupsBuildFrame,if_pos]
      exact Nat.add_lt_add_left (Nat.lt_of_not_le long) _
    rw [none_,publishFrame,if_pos rfl]

theorem telemetryStatus {seq : UInt8} {payload : Bytes} (bounded : payload.length ≤ wupsMaxPayload) (some_ : payload ≠ []) :
    wupsPublishTelemetryStatus seq payload = [.publish ⟨ascii "telemetry",0,0,
      wire ⟨wupsAddrBroadcast,wupsAddrCh32x,wupsClassPower,wupsOpPwrStatus,wupsFlagEvent,seq,payload,bounded⟩⟩] := by
  have length : payload.length ≠ 0 := fun zero => some_ (List.eq_nil_of_length_eq_zero zero)
  rw [wupsPublishTelemetryStatus,if_neg (by omega),builtFrame bounded (Nat.add_le_add_left bounded _),publishFrame,
    if_neg (wireSome _)]

/-- The reading a call brings: its time, whether the input is good, and the faults. -/
def reading (a : Arrival) : Option (Nat × (Bool × Nat)) :=
  if isPowerStatus a.frame then (decodeStatus a.frame.payload).map (a.ms,·) else none

def isPublish : Write → Bool
  | .publish _ => true
  | .send _ _ _ _ _ _ | .sendWithSrc _ _ _ _ _ _ _ _ => false

/-- The readings of a run that the RP2040 sends up of itself. -/
def uplinks (s : Uplink) : List Arrival → List (Nat × (Bool × Nat))
  | [] => []
  | a::as => (if (step s a).2.any isPublish then (reading a).toList else []) ++ uplinks (step s a).1 as

structure Tracks (s : Uplink) (g : Gate (Bool × Nat)) : Prop where
  primed : s.primed = g.isSome
  held : ∀ l ∈ g, s.lastPg = l.2.1 ∧ s.lastFaults = l.2.2 ∧ s.lastMs = UInt32.ofNat l.1

theorem statusPlain {f : WupsFrame} (inbound : UInt8) (status : isPowerStatus f = true) :
    isHostResp inbound f = false ∧ isEvent inbound f = false := by
  simp only [isPowerStatus,decide_eq_true_eq] at status
  obtain ⟨power,op,-,-⟩ := status
  constructor
  · have other : ¬ wupsClassPower = WupsRouter.wupsClassHost := by decide
    simp [isHostResp,power,other]
  · have class_ : ¬ wupsClassPower = wupsClassHost := by decide
    have op_ : ¬ wupsOpPwrStatus = wupsOpPwrEvent := by decide
    simp [isEvent,power,op,class_,op_]

theorem clockApart {a b : Nat} (ordered : b ≤ a) :
    UInt32.ofNat a-UInt32.ofNat b ≥ UInt32.ofNat telemetryUplinkIntervalMs ↔ telemetryUplinkIntervalMs ≤ (a-b) % 2^32 := by
  have whole : UInt32.ofNat a-UInt32.ofNat b = UInt32.ofNat (a-b) := (UInt32.ofNat_sub ordered).symm
  rw [whole,ge_iff_le,UInt32.le_iff_toNat_le,UInt32.toNat_ofNat']
  rfl

theorem publishNowDue {s : Uplink} {g : Gate (Bool × Nat)} (tracks : Tracks s g) {ms : Nat} (later : ∀ l ∈ g, l.1 ≤ ms)
    (pg : Bool) (faults : Nat) :
    publishNow s (UInt32.ofNat ms) pg faults = true ↔ Due (2^32) telemetryUplinkIntervalMs g (ms,(pg,faults)) := by
  rw [publishNow,tracks.primed]
  cases g with
  | none => exact ⟨fun _ => ChangeHeartbeat.firstDue _ _ _,fun _ => rfl⟩
  | some l =>
    obtain ⟨samePg,sameFaults,sameMs⟩ := tracks.held l rfl
    rw [ChangeHeartbeat.dueSome,samePg,sameFaults,sameMs,Option.isSome_some,Bool.not_true,if_neg Bool.false_ne_true,
      ← clockApart (later l rfl)]
    by_cases changed : pg ≠ l.2.1 ∨ faults ≠ l.2.2
    · have value : (pg,faults) ≠ l.2 := by
        intro same
        rw [← same] at changed
        simp at changed
      rw [if_pos changed]
      exact ⟨fun _ => .inl value,fun _ => rfl⟩
    · have value : (pg,faults) = l.2 := by
        rw [not_or,not_not,not_not] at changed
        exact Prod.ext changed.1 changed.2
      rw [if_neg changed,decide_eq_true_eq]
      exact ⟨.inr,fun due => due.resolve_left (not_not.mpr value)⟩

theorem statusStep {s : Uplink} {g : Gate (Bool × Nat)} (tracks : Tracks s g) {a : Arrival} {x : Nat × (Bool × Nat)}
    (read : reading a = some x) (later : ∀ l ∈ g, l.1 ≤ a.ms) :
    Tracks (step s a).1 (ChangeHeartbeat.step (2^32) telemetryUplinkIntervalMs g x).1 ∧
      (if (step s a).2.any isPublish then [x] else []) = (ChangeHeartbeat.step (2^32) telemetryUplinkIntervalMs g x).2 := by
  rw [reading] at read
  split at read
  · rename_i status
    obtain ⟨⟨pg,faults⟩,decoded,rfl⟩ := Option.map_eq_some_iff.mp read
    have due := publishNowDue (s := { s with pwrRaw := a.frame.payload, lastStatusMs := UInt32.ofNat a.ms })
      (g := g) ⟨tracks.primed,tracks.held⟩ later pg faults
    have some_ : a.frame.payload ≠ [] := by
      simp only [isPowerStatus,decide_eq_true_eq] at status
      exact List.ne_nil_of_length_pos status.2.2.2
    obtain ⟨answer,event⟩ := statusPlain a.inbound status
    rw [step,wupsOnLocalFrame,if_neg (by rw [answer]; decide),if_neg (by rw [event]; decide),if_pos status,onPowerStatus,decoded,
      ChangeHeartbeat.step]
    dsimp only
    split
    · rename_i now
      rw [if_pos (due.mp now)]
      refine ⟨⟨rfl,fun l here => ?_⟩,?_⟩
      · cases here
        exact ⟨rfl,rfl,rfl⟩
      · rw [telemetryStatus a.frame.bounded some_]
        rfl
    · rename_i idle
      rw [if_neg (fun now => idle (due.mpr now))]
      exact ⟨⟨tracks.primed,tracks.held⟩,rfl⟩
  · cases read

theorem requestKeeps (s : Uplink) (nowMs : UInt32) (f : WupsFrame) : (onRequest s nowMs f).1 = s := by
  rw [onRequest]
  repeat' split
  all_goals rfl

theorem otherStep {s : Uplink} {g : Gate (Bool × Nat)} (tracks : Tracks s g) {a : Arrival} (unread : reading a = none) :
    Tracks (step s a).1 g := by
  rw [reading] at unread
  rw [step,wupsOnLocalFrame]
  split
  · exact tracks
  · split
    · exact tracks
    · split
      · rename_i status
        rw [if_pos status,Option.map_eq_none_iff] at unread
        rw [onPowerStatus,unread]
        exact tracks
      · repeat' split
        · exact tracks
        · exact tracks
        · rw [requestKeeps]
          exact tracks

theorem uplinksPassed {s : Uplink} {g : Gate (Bool × Nat)} (tracks : Tracks s g) {as : List Arrival} {t : Nat}
    (timed : Timed t (as.filterMap reading)) (before : ∀ l ∈ g, l.1 ≤ t) :
    uplinks s as = passed (2^32) telemetryUplinkIntervalMs g (as.filterMap reading) := by
  induction as generalizing s g t with
  | nil => rfl
  | cons a as ih =>
    rw [uplinks,List.filterMap_cons]
    cases read : reading a with
    | none =>
      rw [List.filterMap_cons,read] at timed
      rw [Option.toList_none,ite_self,List.nil_append]
      exact ih (otherStep tracks read) timed before
    | some x =>
      rw [List.filterMap_cons,read] at timed
      have time : x.1 = a.ms := by
        rw [reading] at read
        split at read
        · obtain ⟨v,-,rfl⟩ := Option.map_eq_some_iff.mp read
          rfl
        · cases read
      obtain ⟨next,asked⟩ := statusStep tracks read (fun l here => time ▸ Nat.le_trans (before l here) timed.1)
      rw [ChangeHeartbeat.passedCons,Option.toList_some,asked]
      refine congrArg (_ ++ ·) (ih next timed.2 ?_)
      intro l here
      rw [ChangeHeartbeat.step] at here
      split at here
      · cases here
        exact Nat.le_refl _
      · exact Nat.le_trans (before l here) timed.1

/-- Of the readings of a run, the first goes up at once, the last one up always says what the last
one said, and each further one is paid for by a change or by 30 s gone by; and where no 49 days pass
without a reading, the last one up is never 30 s old. -/
theorem telemetryThrottled (as : List Arrival) (x : Nat × (Bool × Nat)) (xs : List (Nat × (Bool × Nat)))
    (readings : as.filterMap reading = x::xs) (timed : Timed x.1 xs) :
    ∃ l, (uplinks boot as).head? = some x ∧ (uplinks boot as).getLast? = some l ∧ l.2 = (ChangeHeartbeat.lastOf x xs).2 ∧
      ((uplinks boot as).length-1)*telemetryUplinkIntervalMs ≤
        changes x.2 xs*telemetryUplinkIntervalMs+((ChangeHeartbeat.lastOf x xs).1-x.1) ∧
      ∀ gap, Close gap x.1 xs → gap+telemetryUplinkIntervalMs ≤ 2^32 →
        (ChangeHeartbeat.lastOf x xs).1-l.1 < telemetryUplinkIntervalMs := by
  have start : Tracks boot none := ⟨rfl,fun l here => by cases here⟩
  have sent : uplinks boot as = x::passed (2^32) telemetryUplinkIntervalMs (some x) xs := by
    rw [uplinksPassed start (t := 0) (by rw [readings]; exact ⟨Nat.zero_le _,timed⟩) (fun l here => by cases here),readings,
      ChangeHeartbeat.passedCons,ChangeHeartbeat.step,if_pos (ChangeHeartbeat.firstDue _ _ x)]
    rfl
  have last := ChangeHeartbeat.passedLast (2^32) telemetryUplinkIntervalMs (some x) xs
  obtain ⟨l,held,value⟩ := ChangeHeartbeat.runHolds (2^32) telemetryUplinkIntervalMs x xs
  refine ⟨l,by rw [sent]; rfl,?_,value,?_,?_⟩
  · rw [sent,← held,last]
    cases rest : passed (2^32) telemetryUplinkIntervalMs (some x) xs with
    | nil => rfl
    | cons y ys => simp [List.getLast?_cons]
  · rw [sent,List.length_cons,Nat.add_sub_cancel]
    exact ChangeHeartbeat.passedBudget timed
  · intro gap close room
    obtain ⟨l',there,-,young⟩ := ChangeHeartbeat.runFresh (l := x) (t := x.1) (by rw [Nat.sub_self]; decide) (Nat.le_refl _)
      timed close room
    rw [held] at there
    cases there
    exact young

def litArrivals : List Arrival := [⟨0,wupsPortCh32x,litReading 1,0⟩,⟨1000,wupsPortCh32x,litReading 2,0⟩]

theorem litThrottled :
    ∃ l, (uplinks boot litArrivals).head? = some (0,(false,0)) ∧ (uplinks boot litArrivals).getLast? = some l ∧
      l.2 = (ChangeHeartbeat.lastOf (0,(false,0)) [(1000,(false,0))]).2 ∧
      ((uplinks boot litArrivals).length-1)*telemetryUplinkIntervalMs ≤
        changes (false,0) [(1000,(false,0))]*telemetryUplinkIntervalMs+
          ((ChangeHeartbeat.lastOf (0,(false,0)) [(1000,(false,0))]).1-0) ∧
      ∀ gap, Close gap 0 [(1000,(false,0))] → gap+telemetryUplinkIntervalMs ≤ 2^32 →
        (ChangeHeartbeat.lastOf (0,(false,0)) [(1000,(false,0))]).1-l.1 < telemetryUplinkIntervalMs :=
  telemetryThrottled litArrivals (0,(false,0)) [(1000,(false,0))] (by decide +kernel) ⟨Nat.zero_le _,trivial⟩

/-- The frames of a run that are alerts and go up: one frame in the buffer has room for 64 bytes. -/
def alerts (as : List Arrival) : List WupsFrame :=
  (as.filter (fun a => !isHostResp a.inbound a.frame && isEvent a.inbound a.frame && decide (a.frame.len ≤ 64))).map Arrival.frame

def eventTopic (iccid : Bytes) : Bytes := ascii "t/" ++ iccid ++ ascii "/" ++ ascii "event"

def submittedTo (topic : Bytes) : Effect → Option Publication
  | .submitted p => if p.topic = some topic then some p else none
  | .arkivTlm _ | .httpTlm _ | .arkivEvent _ | .ack _ _ => none

def toChain : Effect → Option Bytes
  | .arkivEvent frame => some frame
  | .submitted _ | .arkivTlm _ | .httpTlm _ | .ack _ _ => none

/-- The publication of an alert. -/
def alertPublication (topic : Bytes) (f : WupsFrame) : Publication :=
  if mqttWupsCriticalEvent (wire f) then publishCritical (some topic) (some (wire f)) (wire f).length 1 0
  else publishRaw (some topic) (some (wire f)) (wire f).length 1 0

/-- What effects do to the topic of the alerts and to the chain. -/
def Alerting (topic : Bytes) (claimed : Bool) (effects : List Effect) (fs : List WupsFrame) : Prop :=
  effects.filterMap (submittedTo topic) = fs.map (alertPublication topic) ∧
    effects.filterMap toChain = if claimed then fs.map wire else []

theorem alertingNil (topic : Bytes) (claimed : Bool) : Alerting topic claimed [] [] := by
  refine ⟨rfl,?_⟩
  split <;> rfl

theorem alertingAppend {topic : Bytes} {claimed : Bool} {xs ys : List Effect} {fs gs : List WupsFrame}
    (left : Alerting topic claimed xs fs) (right : Alerting topic claimed ys gs) :
    Alerting topic claimed (xs ++ ys) (fs ++ gs) := by
  refine ⟨?_,?_⟩
  · rw [List.filterMap_append,List.map_append,left.1,right.1]
  · rw [List.filterMap_append,List.map_append,left.2,right.2]
    split <;> rfl

theorem submissionTopic (topic whole payload : Bytes) (qos retain : UInt8) :
    (submission topic whole payload qos retain).topic = some whole := by
  rw [submission]
  repeat' split
  all_goals rfl

section
variable {e : Setting} {iccid : Bytes} (known : e.iccid = some iccid) (some_ : iccid ≠ []) (short : iccid.length ≤ 23)

/-- The three topics the RP2040 publishes to. -/
def Subtopic (name : Bytes) : Prop := name = ascii "event" ∨ name = ascii "telemetry" ∨ name = ascii "cmd/response"

theorem subtopic {name : Bytes} (sub : Subtopic name) :
    absolute name = false ∧ cString name = name ∧ name.length ≤ 12 ∧ name ≠ [] := by
  rcases sub with rfl | rfl | rfl <;> decide

include known some_ short in
theorem unitTopic {name : Bytes} (sub : Subtopic name) :
    mqttTopic e name = some (ascii "t/" ++ iccid ++ ascii "/" ++ name) := by
  obtain ⟨relative,plain,small,-⟩ := subtopic sub
  have size : (ascii "t/" ++ iccid ++ ascii "/" ++ name).length < topicBytes := by
    simp only [List.length_append,show (ascii "t/").length = 2 from rfl,show (ascii "/").length = 1 from rfl,topicBytes]
    omega
  rw [mqttTopic,relative,known,plain]
  simp only [Bool.false_eq_true,if_false,some_]
  rw [if_neg (Nat.not_le.mpr size)]

include known some_ short in
theorem otherAlerting {name : Bytes} (sub : Subtopic name) (other : name ≠ ascii "event") (qos retain : UInt8) (frame : Bytes) :
    Alerting (eventTopic iccid) e.claimed (deliver e ⟨name,qos,retain,frame⟩) [] := by
  obtain ⟨relative,plain,-,-⟩ := subtopic sub
  have elsewhere : ascii "t/" ++ iccid ++ ascii "/" ++ name ≠ eventTopic iccid :=
    fun same => other (List.append_cancel_left same)
  have silent : ∀ effect ∈ deliver e ⟨name,qos,retain,frame⟩,
      submittedTo (eventTopic iccid) effect = none ∧ toChain effect = none := by
    intro effect there
    have seen : effect ∈ observers e name frame → submittedTo (eventTopic iccid) effect = none ∧ toChain effect = none := by
      intro here
      simp only [observers,plain,other,false_and,and_false,if_false,List.append_nil,List.mem_append] at here
      rcases here with here | here <;> split at here <;> simp at here <;> rw [here] <;> exact ⟨rfl,rfl⟩
    have last : effect = .submitted (submission name (ascii "t/" ++ iccid ++ ascii "/" ++ name) frame qos retain) →
        submittedTo (eventTopic iccid) effect = none ∧ toChain effect = none := by
      rintro rfl
      refine ⟨?_,rfl⟩
      rw [submittedTo,submissionTopic,if_neg (fun same => elsewhere (Option.some.inj same))]
    rw [deliver,unitTopic known some_ short sub] at there
    dsimp only at there
    split at there
    · split at there <;> simp only [List.mem_append,List.mem_cons,List.not_mem_nil,or_false] at there
      · rcases there with here | rfl
        · exact seen here
        · exact ⟨rfl,rfl⟩
      · rcases there with here | rfl | here
        · exact seen here
        · exact ⟨rfl,rfl⟩
        · exact last here
    · simp only [List.mem_append,List.mem_cons,List.not_mem_nil,or_false] at there
      rcases there with here | here
      · exact seen here
      · exact last here
  refine ⟨List.filterMap_eq_nil_iff.mpr fun effect there => (silent effect there).1,?_⟩
  rw [List.filterMap_eq_nil_iff.mpr fun effect there => (silent effect there).2]
  split <;> rfl

include known some_ short in
theorem alertAlerting (f : WupsFrame) :
    Alerting (eventTopic iccid) e.claimed (deliver e ⟨ascii "event",1,0,wire f⟩) [f] := by
  have sub : Subtopic (ascii "event") := .inl rfl
  obtain ⟨relative,plain,-,-⟩ := subtopic sub
  have response : ascii "event" ≠ ascii "cmd/response" := by decide
  have telemetry : ascii "event" ≠ ascii "telemetry" := by decide
  have sent : submission (ascii "event") (eventTopic iccid) (wire f) 1 0 = alertPublication (eventTopic iccid) f := by
    rw [submission,relative,plain,alertPublication]
    simp [telemetry,response]
  have topic := unitTopic known some_ short sub
  have effects : deliver e ⟨ascii "event",1,0,wire f⟩ =
      (if e.claimed then [.arkivEvent (wire f)] else []) ++ [.submitted (alertPublication (eventTopic iccid) f)] := by
    rw [deliver,topic]
    dsimp only
    rw [if_neg (by rw [plain]; exact fun ack => response ack.2.1),← sent,observers,relative,plain]
    simp [telemetry,eventTopic]
  rw [effects]
  have there : (alertPublication (eventTopic iccid) f).topic = some (eventTopic iccid) := by
    rw [← sent,submissionTopic]
  constructor
  · rw [List.filterMap_append]
    split <;> simp [submittedTo,there]
  · rw [List.filterMap_append]
    split <;> simp [toChain]

/-- A write that has nothing to do with alerts. -/
def Harmless : Write → Prop
  | .publish r => r.topic = ascii "telemetry" ∨ r.topic = ascii "cmd/response"
  | .send _ _ _ _ _ _ => False
  | .sendWithSrc _ _ _ cls op _ _ _ => cls = wupsClassNet → op ≠ wupsOpNetPublish

include known some_ short in
theorem harmlessAlerting {ws : List Write} (harmless : ∀ w ∈ ws, Harmless w) :
    Alerting (eventTopic iccid) e.claimed (ws.flatMap (wanted e)) [] := by
  induction ws with
  | nil => exact alertingNil _ _
  | cons w ws ih =>
    have rest := ih (fun w' there => harmless w' (List.mem_cons_of_mem _ there))
    have first : Alerting (eventTopic iccid) e.claimed (wanted e w) [] := by
      have mine := harmless w List.mem_cons_self
      cases w with
      | publish r =>
        rw [wanted]
        split
        · rcases mine with topic | topic
          · have all := otherAlerting known some_ short (.inr (.inl topic)) (by rw [topic]; decide) r.qos r.retain r.payload
            exact all
          · have all := otherAlerting known some_ short (.inr (.inr topic)) (by rw [topic]; decide) r.qos r.retain r.payload
            exact all
        · exact alertingNil _ _
      | send port dst cls op flags payload => exact mine.elim
      | sendWithSrc port dst src cls op flags seq payload =>
        rw [wanted,onLine]
        split
        · rw [Option.toList_some,List.flatMap_singleton,deliverFrame]
          split
          · exact alertingNil _ _
          · rw [onLocalFrame,if_neg (fun net => mine net.1 net.2.1)]
            exact alertingNil _ _
        · exact alertingNil _ _
    rw [List.flatMap_cons]
    exact alertingAppend first rest

theorem framedHarmless {topic : Bytes} (other : topic = ascii "telemetry" ∨ topic = ascii "cmd/response") (qos : UInt8)
    (frame : Bytes) : ∀ w ∈ publishFrame topic qos frame, Harmless w := by
  intro w there
  rw [publishFrame] at there
  split at there
  · cases there
  · cases List.mem_singleton.mp there
    exact other

theorem responseHarmless (cls op seq code : UInt8) : ∀ w ∈ wupsPublishCmdResponse cls op seq code, Harmless w :=
  framedHarmless (.inr rfl) _ _

theorem telemetryHarmless (seq : UInt8) (payload : Bytes) : ∀ w ∈ wupsPublishTelemetryStatus seq payload, Harmless w := by
  rw [wupsPublishTelemetryStatus]
  split
  · intro w there
    cases there
  · exact framedHarmless (.inl rfl) _ _

theorem statusHarmless (s : Uplink) (nowMs : UInt32) (f : WupsFrame) : ∀ w ∈ (onPowerStatus s nowMs f).2, Harmless w := by
  have power : wupsClassPower ≠ wupsClassNet := by decide
  intro w there
  rw [onPowerStatus] at there
  split at there
  · cases there
  · dsimp only at there
    split at there
    · rcases List.mem_cons.mp there with rfl | there
      · exact fun net => absurd net power
      · exact telemetryHarmless _ _ w there
    · cases List.mem_singleton.mp there
      exact fun net => absurd net power

theorem replyHarmless {f : WupsFrame} (other : f.cls = wupsClassNet → f.op ≠ wupsOpNetPublish) (payload : Bytes) :
    ∀ w ∈ reply f payload, Harmless w := by
  intro w there
  obtain ⟨port,-,rfl⟩ := List.mem_map.mp there
  exact other

theorem requestHarmless (s : Uplink) (nowMs : UInt32) (f : WupsFrame) : ∀ w ∈ (onRequest s nowMs f).2, Harmless w := by
  rw [onRequest]
  split
  · intro w there
    rcases List.mem_append.mp there with there | there
    · split at there
      · exact telemetryHarmless _ _ w there
      · cases there
    · exact responseHarmless _ _ _ _ w there
  split
  · exact responseHarmless _ _ _ _
  split
  · rename_i ui
    have other : f.cls ≠ wupsClassNet := by rw [ui.1]; decide
    intro w there
    rcases List.mem_append.mp there with there | there
    · exact replyHarmless (fun net => absurd net other) _ w there
    · exact responseHarmless _ _ _ _ w there
  split
  · rename_i ping
    have other : f.cls ≠ wupsClassNet := by rw [ping.1]; decide
    exact replyHarmless (fun net => absurd net other) _
  split
  · split
    · exact fun w there => by cases there
    · exact framedHarmless (.inl rfl) _ _
  · exact fun w there => by cases there

theorem xferOther {f : WupsFrame} (xfer : isFwXfer f = true) : f.op ≠ wupsOpNetPublish := by
  simp only [isFwXfer,decide_eq_true_eq] at xfer
  rcases xfer.2.2.2 with op | op | op <;> rw [op] <;> decide

theorem restHarmless (s : Uplink) (nowMs : UInt32) (inbound : UInt8) (f : WupsFrame) (result : UInt8)
    (quiet : isHostResp inbound f = true ∨ isEvent inbound f = false) :
    ∀ w ∈ (wupsOnLocalFrame s nowMs inbound f result).2, Harmless w := by
  rw [wupsOnLocalFrame]
  split
  · exact framedHarmless (.inr rfl) _ _
  rename_i ask
  rw [if_neg (by simp [quiet.resolve_left ask])]
  split
  · exact statusHarmless s nowMs f
  split
  · exact fun w there => by cases there
  split
  · rename_i xfer
    exact replyHarmless (fun _ => xferOther xfer) _
  exact requestHarmless s nowMs f

include known some_ short in
theorem stepAlerting (s : Uplink) (a : Arrival) :
    Alerting (eventTopic iccid) e.claimed ((step s a).2.flatMap (wanted e)) (alerts [a]) := by
  by_cases quiet : isHostResp a.inbound a.frame = true ∨ isEvent a.inbound a.frame = false
  · have none_ : alerts [a] = [] := by
      rcases quiet with answer | plain
      · simp [alerts,answer]
      · simp [alerts,plain]
    rw [none_]
    exact harmlessAlerting known some_ short (restHarmless s _ a.inbound a.frame a.xferResult quiet)
  · rw [not_or,Bool.not_eq_true,Bool.not_eq_false] at quiet
    obtain ⟨ask,event⟩ := quiet
    rw [step,wupsOnLocalFrame,if_neg (by rw [ask]; decide),if_pos event,wupsPublishEventFrame,verbatim]
    by_cases room : a.frame.len ≤ 64
    · have here : alerts [a] = [a.frame] := by simp [alerts,ask,event,room]
      have fits : Fits ⟨ascii "event",1,0,wire a.frame⟩ := by
        have five : (ascii "event").length = 5 := rfl
        rw [Fits,wireLength,five]
        simp only [netPublishHdrBytes,wupsMaxPayload]
        omega
      rw [if_pos room,here,List.flatMap_singleton,wanted,if_pos fits]
      exact alertAlerting known some_ short a.frame
    · have none_ : alerts [a] = [] := by simp [alerts,room]
      rw [if_neg room,none_]
      exact alertingNil _ _

include known some_ short in
theorem runAlerting (s : Uplink) (as : List Arrival) :
    Alerting (eventTopic iccid) e.claimed ((outs step s as).flatten.flatMap (wanted e)) (alerts as) := by
  induction as generalizing s with
  | nil => exact alertingNil _ _
  | cons a as ih =>
    have split_ : alerts (a::as) = alerts [a] ++ alerts as := by
      rw [alerts,alerts,alerts,← List.map_append,← List.filter_append]
      rfl
    rw [outs,List.flatten_cons,List.flatMap_append,split_]
    exact alertingAppend (stepAlerting known some_ short s a) (ih (step s a).1)

include known some_ short in
/-- Over any run of the handler, the alerts go over the wire and come out at the ESP32 once each, in
order and unchanged: on the topic of the alerts there is nothing else, and on a claimed unit the
chain gets the same. -/
theorem alertsArrive (s : Uplink) (as : List Arrival) {sender : Sender}
    (attached : Rp2040.Attached sender.tx wupsPortEsp32) (l : Esp32.Link) :
    ∃ line, Rp2040.written ((outs step s as).flatten.foldl write sender).tx wupsPortEsp32 =
        Rp2040.written sender.tx wupsPortEsp32 ++ line ∧
      let effects := (outs Esp32.rxByte { l with rx := rxReset l.rx } line).reduceOption.flatMap (deliverFrame e)
      effects.filterMap (submittedTo (eventTopic iccid)) = (alerts as).map (alertPublication (eventTopic iccid)) ∧
        effects.filterMap toChain = if e.claimed then (alerts as).map wire else [] := by
  obtain ⟨line,written,effects,-⟩ := publishesArrive (outs step s as).flatten attached l e
  refine ⟨line,written,?_⟩
  rw [effects]
  exact runAlerting known some_ short s as

end

def mainsLost : WupsFrame := ⟨0xFF,0x03,0x02,0x10,0x04,9,[1,1],by decide⟩

theorem mainsLostArrives :
    ∃ line, Rp2040.written ((outs step boot [⟨0,wupsPortCh32x,mainsLost,0⟩]).flatten.foldl write litSender).tx wupsPortEsp32 =
        Rp2040.written litSender.tx wupsPortEsp32 ++ line ∧
      let effects := (outs Esp32.rxByte { Esp32.Link.init with rx := rxReset Esp32.Link.init.rx } line).reduceOption.flatMap
        (deliverFrame litSetting)
      effects.filterMap (submittedTo (eventTopic (ascii "89"))) =
          (alerts [⟨0,wupsPortCh32x,mainsLost,0⟩]).map (alertPublication (eventTopic (ascii "89"))) ∧
        effects.filterMap toChain =
          if litSetting.claimed then (alerts [⟨0,wupsPortCh32x,mainsLost,0⟩]).map wire else [] :=
  alertsArrive rfl (by decide) (by decide) boot [⟨0,wupsPortCh32x,mainsLost,0⟩] (by decide) Esp32.Link.init

end Web3PiUps.NetUplink
