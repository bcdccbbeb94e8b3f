import Web3PiUps.Ch32xMainLoop

/-! What a step of the main loop can do to the port: each piece is named once, with
what it needs and what it leaves behind. -/
namespace Web3PiUps.Ch32xPdSteps
open Ch32xPdSource Ch32xMainLoop StepMachine

def reapplied (r : Rail) : Rail :=
  if r.voltageSet > 0 ∧ r.currentSet > 0 then tps55289Apply r.voltageSet r.currentSet r else r

/-- The step from `l` under `op`: the port it leaves and its trace. -/
inductive Did (l : Loop) : Op → Port → List Evt → Prop
  | quiet (op) : (∀ hw, op = .run hw → l.place ≠ .detect ∧ (∀ s, l.place ≠ .service s) ∧
      ∀ s, l.place = .dispatch s → l.port.msgRecvd = false) → Did l op l.port []
  | message (buf) : Did l (.message buf) (messageReceived buf l.port) []
  | hardReset : Did l .hardReset (hardResetReceived l.port) []
  | enable (hw) : l.place = .drain → hw.power = some .enable → Did l (.run hw) (powerOutputRestart l.port) []
  | disable (hw power) : l.place = .drain → hw.power = some power → power ≠ .enable →
      Did l (.run hw) (vbusDisable l.port) []
  | cycleOn (hw) : l.place = .cycle → l.powercycleWait = true → (mainPass hw l).1.powercycleWait = false →
      Did l (.run hw) (powerOutputRestart l.port) []
  | detTimer (hw) : l.place = .detect → ¬ l.port.detTimer+l.tmrMsDlt > 4 →
      Did l (.run hw) { l.port with detTimer := l.port.detTimer+l.tmrMsDlt } []
  | detProc (hw) : l.place = .detect → l.port.detTimer+l.tmrMsDlt > 4 →
      Did l (.run hw) (pdDetProc hw.cc { l.port with detTimer := 0 }).1 (pdDetProc hw.cc { l.port with detTimer := 0 }).2
  | switch (s hw) : l.place = .service s →
      Did l (.run hw) (mainSwitch (l.timMsCnt-l.serviceLast) hw.acked l.port).1
        (mainSwitch (l.timMsCnt-l.serviceLast) hw.acked l.port).2
  | dispatch (s hw) : l.place = .dispatch s → l.port.msgRecvd = true →
      Did l (.run hw) (dispatch hw.acked l.port).1 (dispatch hw.acked l.port).2
  | tail (s hw) : l.place = .tail s → Did l (.run hw) (dispatchTail l.port) []
  | tps (hw) : l.place = .tps → Did l (.run hw) { l.port with rail := reapplied l.port.rail } []

theorem cycleTickCases (l : Loop) :
    (cycleTick l).port = l.port ∧ (cycleTick l).powercycleWait = l.powercycleWait ∨
    l.powercycleWait = true ∧ l.powercycleTimer+l.tmrMsDlt.toUInt16 ≥ powercycleOffMs ∧
      (cycleTick l).port = powerOutputRestart l.port ∧ (cycleTick l).powercycleWait = false := by
  unfold cycleTick
  by_cases idle : ¬ l.powercycleWait = true
  · rw [if_pos idle]; exact Or.inl ⟨rfl,rfl⟩
  rw [if_neg idle]
  dsimp only
  by_cases due : l.powercycleTimer+l.tmrMsDlt.toUInt16 ≥ powercycleOffMs
  · rw [if_pos due]; exact Or.inr ⟨not_not.mp idle,due,rfl,rfl⟩
  · rw [if_neg due]; exact Or.inl ⟨rfl,rfl⟩

theorem stepDid (l : Loop) (op : Op) : Did l op (step l op).1.port (step l op).2 := by
  have still : ∀ {hw place}, l.place = place → place ≠ .detect → (∀ s, place ≠ .service s) →
      (∀ s, place ≠ .dispatch s) → Did l (.run hw) l.port [] := fun here apart none away =>
    .quiet _ (fun _ _ => ⟨here ▸ apart,here ▸ none,fun s there => absurd (here.symm.trans there) (away s)⟩)
  cases op with
  | tick ms => exact .quiet _ nofun
  | message buf => exact .message buf
  | hardReset => exact .hardReset
  | run hw =>
    simp only [step]
    cases place : l.place with
    | top => simp only [mainPass,place]; exact still place nofun nofun nofun
    | drain =>
      simp only [mainPass,place]
      cases wanted : hw.power with
      | none => exact still place nofun nofun nofun
      | some power =>
        cases power with
        | enable => exact .enable hw place wanted
        | disable => exact .disable hw .disable place wanted (by decide)
        | cycle => exact .disable hw .cycle place wanted (by decide)
    | cycle =>
      have port : (mainPass hw l).1.port = (cycleTick l).port := by simp only [mainPass,place]
      have silent : (mainPass hw l).2 = [] := by simp only [mainPass,place]
      rw [port,silent]
      rcases cycleTickCases l with ⟨same,-⟩ | ⟨waiting,-,restarted,done⟩
      · rw [same]; exact still place nofun nofun nofun
      · rw [restarted]
        exact .cycleOn hw place waiting (by simp only [mainPass,place]; exact done)
    | detect =>
      simp only [mainPass,place,detectTick]
      by_cases due : l.port.detTimer+l.tmrMsDlt > 4
      · rw [if_pos due]; exact .detProc hw place due
      · rw [if_neg due]; exact .detTimer hw place due
    | service s => simp only [mainPass,place]; exact .switch s hw place
    | dispatch s =>
      simp only [mainPass,place]
      by_cases waiting : l.port.msgRecvd = true
      · rw [if_pos waiting]; exact .dispatch s hw place waiting
      · rw [if_neg waiting]
        exact .quiet _ (fun _ _ => ⟨place ▸ nofun,place ▸ nofun,fun _ _ => Bool.eq_false_iff.mpr waiting⟩)
    | tail s => simp only [mainPass,place]; exact .tail s hw place
    | tps =>
      simp only [mainPass,place,tpsTick]
      by_cases due : l.tpsTimer+l.tmrMsDlt.toUInt16 ≥ 2000
      · rw [if_pos due]; exact .tps hw place
      · rw [if_neg due]; exact still place nofun nofun nofun
    | diag =>
      simp only [mainPass,place]
      split
      · exact still place nofun nofun nofun
      · exact still place nofun nofun nofun

theorem messageKeeps (buf : RxBuf) (p : Port) : ∃ rxBuf msgRecvd listening,
    messageReceived buf p = { p with rxBuf, msgRecvd, listening } := by
  unfold messageReceived
  split
  · exact ⟨_,_,_,rfl⟩
  · split <;> exact ⟨_,_,_,rfl⟩

theorem hardResetCases (p : Port) : hardResetReceived p = p ∨
    p.listening = true ∧ hardResetReceived p = { p with prRole := false, ccPd := true } := by
  unfold hardResetReceived
  by_cases listening : p.listening = true
  · rw [if_pos listening]; exact Or.inr ⟨listening,rfl⟩
  · rw [if_neg listening]; exact Or.inl rfl

theorem hardResetKeeps (p : Port) : ∃ prRole ccPd, hardResetReceived p = { p with prRole, ccPd } := by
  rcases hardResetCases p with eq | ⟨-,eq⟩
  · exact ⟨_,_,eq⟩
  · exact ⟨_,_,eq⟩

/-- An interrupt leaves the place, the pending power cycle, the state and the connection. -/
theorem passiveKeeps (l : Loop) {op : Op} (apart : ∀ hw, op ≠ .run hw) : (step l op).1.place = l.place ∧
    (step l op).1.powercycleWait = l.powercycleWait ∧ (step l op).1.port.state = l.port.state ∧
    (step l op).1.port.connected = l.port.connected ∧ (step l op).2 = [] := by
  cases op with
  | tick _ => exact ⟨rfl,rfl,rfl,rfl,rfl⟩
  | message buf =>
    obtain ⟨_,_,_,eq⟩ := messageKeeps buf l.port
    simp only [step,eq,and_self]
  | hardReset =>
    obtain ⟨_,_,eq⟩ := hardResetKeeps l.port
    simp only [step,eq,and_self]
  | run hw => exact absurd rfl (apart hw)

inductive Sampled (cc : CcLines) (p : Port) : Port → List Evt → Prop
  | present : p.connected = true → pdDetect p cc ≠ 0 → Sampled cc p { p with detCnt := 0 } []
  | missing : p.connected = true → pdDetect p cc = 0 → p.detCnt+1 < 5 →
      Sampled cc p { p with detCnt := p.detCnt+1 } []
  | detached : p.connected = true → pdDetect p cc = 0 → p.detCnt+1 ≥ 5 → p.stopDetChk = false →
      Sampled cc p { p with detCnt := 0, connected := false, state := .disconnect } []
  | lost : p.connected = true → pdDetect p cc = 0 → p.detCnt+1 ≥ 5 → p.stopDetChk = true →
      Sampled cc p { p with detCnt := 0, connected := false } []
  | absent : p.connected = false → pdDetect p cc = 0 → Sampled cc p { p with detCnt := 0 } []
  | found : p.connected = false → pdDetect p cc ≠ 0 → p.detCnt+1 < 5 →
      Sampled cc p { p with detCnt := p.detCnt+1 } []
  | attached (ccSel) : p.connected = false → pdDetect p cc ≠ 0 → p.detCnt+1 ≥ 5 → p.stopDetChk = false →
      Sampled cc p
        (vbusSet5V { p with detCnt := 0, connected := true, ccSel, state := .sinkConnect, commTimer := 0 }) [.connect]
  | ignored : p.connected = false → pdDetect p cc ≠ 0 → p.detCnt+1 ≥ 5 → p.stopDetChk = true →
      Sampled cc p { p with detCnt := 0, connected := true } []

theorem detProcSampled (cc : CcLines) (p : Port) : Sampled cc p (pdDetProc cc p).1 (pdDetProc cc p).2 := by
  unfold pdDetProc
  dsimp only
  by_cases connected : p.connected = true
  · rw [if_pos connected]
    by_cases seen : pdDetect p cc ≠ 0
    · rw [if_pos seen]; exact .present connected seen
    rw [if_neg seen]
    have none := not_not.mp seen
    by_cases fifth : p.detCnt+1 ≥ 5
    · rw [if_pos fifth]
      by_cases stopped : p.stopDetChk = true
      · rw [if_pos stopped]; exact .lost connected none fifth stopped
      · rw [if_neg stopped]
        exact .detached connected none fifth (Bool.eq_false_iff.mpr stopped)
    · rw [if_neg fifth]; exact .missing connected none (UInt8.not_le.mp fifth)
  · rw [if_neg connected]
    have apart := Bool.eq_false_iff.mpr connected
    by_cases none : pdDetect p cc = 0
    · rw [if_pos none,if_neg (by decide)]; exact .absent apart none
    rw [if_neg none]
    by_cases fifth : p.detCnt+1 ≥ 5
    · rw [if_pos fifth]
      by_cases stopped : p.stopDetChk = true
      · rw [if_pos stopped]; exact .ignored apart none fifth stopped
      · rw [if_neg stopped]
        exact .attached _ apart none fifth (Bool.eq_false_iff.mpr stopped)
    · rw [if_neg fifth]; exact .found apart none (UInt8.not_le.mp fifth)

def unlatched (p : Port) : Port := { p with drSwapLastMsgId := noMsgId }

/-- An answer after which the state is what it was. -/
def reply : Evt → Bool
  | .protoReply _ _ | .enterUsb _ _ => true
  | _ => false

inductive Dispatched (acked : Bool) (p : Port) : Port → List Evt → Prop
  | accept : msgType p.rxBuf = .accept → p.state ≠ .rxAcceptWait →
      Dispatched acked p { unlatched p with commTimer := 0 } []
  | acceptAwaited : msgType p.rxBuf = .accept → p.state = .rxAcceptWait →
      Dispatched acked p { unlatched p with commTimer := 0, state := .rxPsRdyWait } []
  | invalid : msgType p.rxBuf = .request → (p.rxBuf.objectPosition = 0 ∨ p.rxBuf.objectPosition > 4) →
      Dispatched acked p { unlatched p with reqPdoIdx := p.rxBuf.objectPosition, state := .txHrst }
        [.reqRx p.rxBuf.objectPosition]
  | request (pdVersion) : msgType p.rxBuf = .request →
      ¬ (p.rxBuf.objectPosition = 0 ∨ p.rxBuf.objectPosition > 4) →
      Dispatched acked p { unlatched p with
        reqPdoIdx := p.rxBuf.objectPosition
        pdVersion
        state := .txAccept
        commTimer := 0 } [.reqRx p.rxBuf.objectPosition]
  | softReset : msgType p.rxBuf = .softReset →
      Dispatched acked p { (pdSend typeAccept [] acked { unlatched p with msgId := 0 }).1 with
        state := .txSrcCap
        commTimer := 0 } [.softrstRx,(pdSend typeAccept [] acked { unlatched p with msgId := 0 }).2]
  | eprRequest : msgType p.rxBuf = .drSwap → p.rxBuf.hasData = true → Dispatched acked p p []
  | swapped : msgType p.rxBuf = .drSwap → p.rxBuf.hasData = false → p.state = .idle →
      p.drSwapLastMsgId ≠ p.rxBuf.msgId → acked = true →
      Dispatched acked p { (pdSend typeAccept [] acked p).1 with
        drSwapLastMsgId := p.rxBuf.msgId
        pdRole := !p.pdRole } [.drswapRx 0,(pdSend typeAccept [] acked p).2,.drswapAcc (!p.pdRole)]
  | swapLost : msgType p.rxBuf = .drSwap → p.rxBuf.hasData = false → p.state = .idle →
      p.drSwapLastMsgId ≠ p.rxBuf.msgId → acked = false →
      Dispatched acked p { (pdSend typeAccept [] acked p).1 with state := .txHrst }
        [.drswapRx 0,(pdSend typeAccept [] acked p).2,.drswapFail]
  | duplicate : msgType p.rxBuf = .drSwap → p.rxBuf.hasData = false → p.state = .idle →
      p.drSwapLastMsgId = p.rxBuf.msgId → Dispatched acked p p [.drswapRx 1]
  | swapWait : msgType p.rxBuf = .drSwap → p.rxBuf.hasData = false → p.state ≠ .idle →
      Dispatched acked p (pdSend typeWait [] acked p).1 [.drswapRx 2,(pdSend typeWait [] acked p).2]
  | discovery : msgType p.rxBuf = .vendorDefined → p.pdRole = true → p.rxBuf.discovery = true →
      Dispatched acked p { unlatched p with state := .txVdmRpi, commTimer := 0 } []
  | passed : msgType p.rxBuf ≠ .request → msgType p.rxBuf ≠ .softReset → msgType p.rxBuf ≠ .drSwap →
      Dispatched acked p (unlatched p) []
  | answered (t payload e) : t ≠ typePsRdy → msgType p.rxBuf ≠ .request → msgType p.rxBuf ≠ .softReset →
      msgType p.rxBuf ≠ .drSwap → reply e = true →
      Dispatched acked p (pdSend t payload acked (unlatched p)).1
        [(pdSend t payload acked (unlatched p)).2,e]

theorem requestDispatched {acked : Bool} {p : Port} (request : msgType p.rxBuf = .request) :
    Dispatched acked p (handleRequest (unlatched p)).1 (handleRequest (unlatched p)).2 := by
  by_cases bad : p.rxBuf.objectPosition = 0 ∨ p.rxBuf.objectPosition > 4
  · have eq : handleRequest (unlatched p) = ({ unlatched p with
        reqPdoIdx := p.rxBuf.objectPosition, state := .txHrst },[.reqRx p.rxBuf.objectPosition]) := if_pos bad
    rw [eq]; exact .invalid request bad
  · have eq : handleRequest (unlatched p) = ({ unlatched p with
        reqPdoIdx := p.rxBuf.objectPosition
        pdVersion := p.rxBuf.b0 &&& 0xC0 = 0x80
        state := .txAccept
        commTimer := 0 },[.reqRx p.rxBuf.objectPosition]) := if_neg bad
    rw [eq]; exact .request _ request bad

theorem drSwapDispatched {acked : Bool} {p : Port} (swap : msgType p.rxBuf = .drSwap) :
    Dispatched acked p (handleDrSwap acked p).1 (handleDrSwap acked p).2 := by
  unfold handleDrSwap
  by_cases data : p.rxBuf.hasData = true
  · rw [if_pos data]; exact .eprRequest swap data
  rw [if_neg data]
  have none := Bool.eq_false_iff.mpr data
  by_cases idle : p.state = .idle
  · rw [if_pos idle]
    dsimp only
    by_cases fresh : p.drSwapLastMsgId ≠ p.rxBuf.msgId
    · rw [if_pos fresh]
      cases acked with
      | true => exact .swapped swap none idle fresh rfl
      | false => exact .swapLost swap none idle fresh rfl
    · rw [if_neg fresh]; exact .duplicate swap none idle (not_not.mp fresh)
  · rw [if_neg idle]; exact .swapWait swap none idle

theorem vendorDispatched {acked : Bool} {p : Port} (vendor : msgType p.rxBuf = .vendorDefined) :
    Dispatched acked p (handleVendorDefined acked (unlatched p)).1 (handleVendorDefined acked (unlatched p)).2 := by
  have plain : msgType p.rxBuf ≠ .request ∧ msgType p.rxBuf ≠ .softReset ∧ msgType p.rxBuf ≠ .drSwap := by
    rw [vendor]; decide
  obtain ⟨a,b,c⟩ := plain
  unfold handleVendorDefined
  dsimp only
  split
  · next found => exact .discovery vendor found.1 found.2
  · split
    · split
      · exact .answered _ _ _ (by decide) a b c rfl
      · exact .answered _ _ _ (by decide) a b c rfl
    · exact .passed a b c

theorem dispatchDispatched (acked : Bool) (p : Port) :
    Dispatched acked p (dispatch acked p).1 (dispatch acked p).2 := by
  unfold dispatch
  dsimp only
  have plain : ∀ {t}, msgType p.rxBuf = t → t ≠ .request → t ≠ .softReset → t ≠ .drSwap →
      msgType p.rxBuf ≠ .request ∧ msgType p.rxBuf ≠ .softReset ∧ msgType p.rxBuf ≠ .drSwap :=
    fun is a b c => ⟨is ▸ a,is ▸ b,is ▸ c⟩
  cases is : msgType p.rxBuf with
  | accept =>
    by_cases awaited : p.state = .rxAcceptWait
    · rw [if_pos awaited]; exact .acceptAwaited is awaited
    · rw [if_neg awaited]; exact .accept is awaited
  | request => exact requestDispatched is
  | wait =>
    obtain ⟨a,b,c⟩ := plain is (by decide) (by decide) (by decide)
    exact .passed a b c
  | softReset => exact .softReset is
  | drSwap => exact drSwapDispatched is
  | vendorDefined => exact vendorDispatched is
  | getSrcCap =>
    obtain ⟨a,b,c⟩ := plain is (by decide) (by decide) (by decide)
    exact .answered _ _ _ (by decide) a b c rfl
  | getSnkCap =>
    obtain ⟨a,b,c⟩ := plain is (by decide) (by decide) (by decide)
    dsimp only [handleGetSnkCap]
    split
    · exact .answered _ _ _ (by split <;> decide) a b c rfl
    · exact .answered _ _ _ (by split <;> decide) a b c rfl
  | vconnSwap =>
    obtain ⟨a,b,c⟩ := plain is (by decide) (by decide) (by decide)
    exact .answered _ _ _ (by decide) a b c rfl
  | other =>
    obtain ⟨a,b,c⟩ := plain is (by decide) (by decide) (by decide)
    dsimp only [handleOther]
    split
    · exact .answered _ _ _ (by decide) a b c rfl
    · exact .passed a b c

/-- What the dispatch of a message leaves alone. -/
structure Answered (p p' : Port) : Prop where
  detTimer : p'.detTimer = p.detTimer
  detCnt : p'.detCnt = p.detCnt
  msgRecvd : p'.msgRecvd = p.msgRecvd
  connected : p'.connected = p.connected
  stopDetChk : p'.stopDetChk = p.stopDetChk
  ccPd : p'.ccPd = p.ccPd
  rail : p'.rail = p.rail
  open_ : p.state ≠ .disconnect → p'.state ≠ .disconnect

theorem answered {acked : Bool} {p p' : Port} {evts : List Evt} (h : Dispatched acked p p' evts) :
    Answered p p' := by
  cases h with
  | accept | eprRequest | swapped | duplicate | swapWait | passed | answered =>
    exact ⟨rfl,rfl,rfl,rfl,rfl,rfl,rfl,id⟩
  | acceptAwaited | invalid | request | softReset | swapLost | discovery =>
    exact ⟨rfl,rfl,rfl,rfl,rfl,rfl,rfl,fun _ => nofun⟩

inductive Switched (dlt : UInt8) (acked : Bool) (p : Port) : Port → List Evt → Prop
  | disconnect : p.state = .disconnect → Switched dlt acked p (pdPhyReset (vbusDisable p)) [.disconnect]
  | still : p.state = .idle ∨ p.state = .rxAcceptWait ∨ p.state = .rxPsRdyWait → Switched dlt acked p p []
  | wait : p.state ≠ .disconnect → p.state ≠ .txSoftRst → p.state ≠ .txHrst →
      (p.state = .txAccept → ¬ p.commTimer+dlt.toUInt16 > 2) →
      Switched dlt acked p { p with commTimer := p.commTimer+dlt.toUInt16 } []
  | ready : p.state = .sinkConnect →
      Switched dlt acked p { p with stopDetChk := false, commTimer := 0, state := .txSrcCap } []
  | srcCap : p.state = .txSrcCap → p.commTimer+dlt.toUInt16 > 159 → acked = true →
      Switched dlt acked p { (pdSend typeSrcCap srcCap5V5ATab acked p).1 with commTimer := 0, state := .rxReqWait }
        [(pdSend typeSrcCap srcCap5V5ATab acked p).2,.srcCapTx]
  | srcCapLost : p.state = .txSrcCap → p.commTimer+dlt.toUInt16 > 159 → acked = false →
      Switched dlt acked p { (pdSend typeSrcCap srcCap5V5ATab acked p).1 with commTimer := 0 }
        [(pdSend typeSrcCap srcCap5V5ATab acked p).2]
  | timeout (commTimer) : p.state = .rxReqWait → p.msgRecvd = false →
      Switched dlt acked p { p with commTimer, state := .txHrst } []
  | accepted : p.state = .txAccept → p.commTimer+dlt.toUInt16 > 2 → acked = true →
      Switched dlt acked p { (pdSend typeAccept [] acked p).1 with
        rail := tps55289Apply (pdoSetpoint p.reqPdoIdx).1 (pdoSetpoint p.reqPdoIdx).2 p.rail
        state := .txPsRdy
        commTimer := 0 } [(pdSend typeAccept [] acked p).2,.acceptTx]
  | acceptLost : p.state = .txAccept → p.commTimer+dlt.toUInt16 > 2 → acked = false →
      Switched dlt acked p { (pdSend typeAccept [] acked p).1 with state := .txSoftRst, commTimer := 0 }
        [(pdSend typeAccept [] acked p).2]
  | psRdy : p.state = .txPsRdy → p.commTimer+dlt.toUInt16 > 19 → acked = true →
      Switched dlt acked p { (pdSend typePsRdy [] acked p).1 with state := .idle, commTimer := 0 }
        [(pdSend typePsRdy [] acked p).2,.psRdyTx]
  | psRdyLost : p.state = .txPsRdy → p.commTimer+dlt.toUInt16 > 19 → acked = false →
      Switched dlt acked p { (pdSend typePsRdy [] acked p).1 with state := .txSoftRst, commTimer := 0 }
        [(pdSend typePsRdy [] acked p).2]
  | softRst : p.state = .txSoftRst →
      Switched dlt acked p { (pdSend typeSoftReset [] acked { p with drSwapLastMsgId := noMsgId }).1 with
        state := if acked then .idle else .txHrst
        commTimer := 0 } [.softrstTx,(pdSend typeSoftReset [] acked { p with drSwapLastMsgId := noMsgId }).2]
  | hrst : p.state = .txHrst →
      Switched dlt acked p { pdRxMode p with
        stopDetChk := true
        msgRecvd := false
        pdRole := true
        drSwapLastMsgId := noMsgId
        state := .idle
        commTimer := 0 } [.hrstTx]
  | vdm : p.state = .txVdmRpi → p.commTimer+dlt.toUInt16 > 10 →
      Switched dlt acked p { (pdSend typeVendorDefined vdmRpiTxTab acked p).1 with commTimer := 0, state := .idle }
        [(pdSend typeVendorDefined vdmRpiTxTab acked p).2,.vdmRpiTx]

theorem switchSwitched (dlt : UInt8) (acked : Bool) (p : Port) :
    Switched dlt acked p (mainSwitch dlt acked p).1 (mainSwitch dlt acked p).2 := by
  have waits : ∀ {s : Sta}, p.state = s → s ≠ .disconnect → s ≠ .txSoftRst → s ≠ .txHrst → s ≠ .txAccept →
      Switched dlt acked p { p with commTimer := p.commTimer+dlt.toUInt16 } [] :=
    fun state open_ soft hard accept => .wait (state ▸ open_) (state ▸ soft) (state ▸ hard)
      (fun here => absurd (state.symm.trans here) accept)
  unfold mainSwitch
  dsimp only
  split
  · next state => exact .disconnect state
  · next state =>
    split
    · exact .ready state
    · exact waits state nofun nofun nofun nofun
  · next state =>
    split
    · next due =>
      cases acked with
      | true => exact .srcCap state due rfl
      | false => exact .srcCapLost state due rfl
    · exact waits state nofun nofun nofun nofun
  · next state =>
    split
    · next late => exact .timeout _ state (Bool.eq_false_iff.mpr late.2)
    · exact waits state nofun nofun nofun nofun
  · next state =>
    split
    · next due =>
      cases acked with
      | true => exact .accepted state due rfl
      | false => exact .acceptLost state due rfl
    · next early => exact .wait (state ▸ nofun) (state ▸ nofun) (state ▸ nofun) (fun _ => early)
  · next state =>
    split
    · next due =>
      cases acked with
      | true => exact .psRdy state due rfl
      | false => exact .psRdyLost state due rfl
    · exact waits state nofun nofun nofun nofun
  · next state => exact .softRst state
  · next state => exact .hrst state
  · next state =>
    split
    · next due => exact .vdm state due
    · exact waits state nofun nofun nofun nofun
  · next state => exact .still (Or.inl state)
  · next state => exact .still (Or.inr (Or.inl state))
  · next state => exact .still (Or.inr (Or.inr state))

/-! The rail and the power cycle, over a whole step. -/

inductive RailMoved (l : Loop) (op : Op) : Rail → Prop
  | same : RailMoved l op l.port.rail
  | reapplied : RailMoved l op (reapplied l.port.rail)
  | off : RailMoved l op (vbusDisable l.port).rail
  | enabled (hw) : op = .run hw → l.place = .drain → hw.power = some .enable →
      RailMoved l op (vbusSet5V l.port).rail
  | cycled (hw) : op = .run hw → l.place = .cycle → l.powercycleWait = true →
      (step l op).1.powercycleWait = false → RailMoved l op (vbusSet5V l.port).rail
  | attached (hw) : op = .run hw → l.place = .detect → l.port.connected = false →
      (step l op).1.port.connected = true → RailMoved l op (vbusSet5V l.port).rail
  | accepted : Accepting l op → RailMoved l op
        (tps55289Apply (pdoSetpoint l.port.reqPdoIdx).1 (pdoSetpoint l.port.reqPdoIdx).2 l.port.rail)

theorem switchRail {dlt : UInt8} {acked : Bool} {p p' : Port} {evts : List Evt}
    (h : Switched dlt acked p p' evts) :
    p'.rail = p.rail ∨ p'.rail = (vbusDisable p).rail ∨
      (p.state = .txAccept ∧ p.commTimer+dlt.toUInt16 > 2 ∧ acked = true) ∧
      p'.rail = tps55289Apply (pdoSetpoint p.reqPdoIdx).1 (pdoSetpoint p.reqPdoIdx).2 p.rail := by
  cases h with
  | disconnect => exact Or.inr (Or.inl rfl)
  | accepted state due acked => exact Or.inr (Or.inr ⟨⟨state,due,acked⟩,rfl⟩)
  | still | wait | ready | srcCap | srcCapLost | timeout | acceptLost | psRdy | psRdyLost | softRst | hrst | vdm =>
    exact Or.inl rfl

theorem sampledRail {cc : CcLines} {p p' : Port} {evts : List Evt} (h : Sampled cc p p' evts) :
    p'.rail = p.rail ∨ p.connected = false ∧ p'.connected = true ∧ p'.rail = (vbusSet5V p).rail := by
  cases h with
  | attached ccSel apart => exact Or.inr ⟨apart,rfl,rfl⟩
  | present | missing | detached | lost | absent | found | ignored => exact Or.inl rfl

theorem didRail {l : Loop} {op : Op} {p' : Port} {evts : List Evt} (h : Did l op p' evts)
    (port : (step l op).1.port = p') : RailMoved l op p'.rail := by
  cases h with
  | quiet _ _ => exact .same
  | message buf =>
    obtain ⟨_,_,_,eq⟩ := messageKeeps buf l.port
    rw [eq]; exact .same
  | hardReset =>
    obtain ⟨_,_,eq⟩ := hardResetKeeps l.port
    rw [eq]; exact .same
  | enable hw place wanted => exact .enabled hw rfl place wanted
  | disable hw power place wanted other => exact .off
  | cycleOn hw place waiting done => exact .cycled hw rfl place waiting done
  | detTimer hw place early => exact .same
  | detProc hw place due =>
    rcases sampledRail (detProcSampled hw.cc { l.port with detTimer := 0 }) with eq | ⟨apart,joined,eq⟩
    · rw [eq]; exact .same
    · rw [eq]; exact .attached hw rfl place apart (port ▸ joined)
  | switch s hw place =>
    rcases switchRail (switchSwitched (l.timMsCnt-l.serviceLast) hw.acked l.port) with eq | eq | ⟨accepting,eq⟩
    · rw [eq]; exact .same
    · rw [eq]; exact .off
    · rw [eq]; exact .accepted ⟨s,hw,place,rfl,accepting⟩
  | dispatch s hw place waiting =>
    rw [(answered (dispatchDispatched hw.acked l.port)).rail]; exact .same
  | tail s hw place => exact .same
  | tps hw place => exact .reapplied

theorem stepRail (l : Loop) (op : Op) : RailMoved l op (step l op).1.port.rail :=
  didRail (stepDid l op) rfl

theorem offReapplied {r : Rail} (off : Off r) : reapplied r = r :=
  if_neg (fun on => absurd on.1 (by rw [off.2.2]; decide))

theorem offDisabled (p : Port) : Off (vbusDisable p).rail := ⟨rfl,rfl,rfl⟩

structure Unlit (l : Loop) (op : Op) : Prop where
  noEnable : ∀ hw, op = .run hw → l.place = .drain → hw.power ≠ some .enable
  noCycleOn : ∀ hw, op = .run hw → l.place = .cycle → l.powercycleWait = true →
    (step l op).1.powercycleWait = true
  noAttach : ∀ hw, op = .run hw → l.place = .detect → l.port.connected = false →
    (step l op).1.port.connected = false
  noAccept : ¬ Accepting l op

theorem offKept {l : Loop} {op : Op} (off : Off l.port.rail) (unlit : Unlit l op) :
    Off (step l op).1.port.rail := by
  have moved := stepRail l op
  revert moved
  generalize (step l op).1.port.rail = r
  intro moved
  cases moved with
  | same => exact off
  | reapplied => rw [offReapplied off]; exact off
  | off => exact offDisabled l.port
  | enabled hw ran place wanted => exact absurd wanted (unlit.noEnable hw ran place)
  | cycled hw ran place waiting done => exact nomatch done.symm.trans (unlit.noCycleOn hw ran place waiting)
  | attached hw ran place apart joined => exact nomatch joined.symm.trans (unlit.noAttach hw ran place apart)
  | accepted accepting => exact absurd accepting unlit.noAccept

/-- The step from `l` under `op`, as the clocks and the power cycle see it. -/
inductive Turned (l : Loop) : Op → Loop → Prop
  | tick (ms) : Turned l (.tick ms) { l with timMsCnt := l.timMsCnt+UInt8.ofNat ms, clock := l.clock+ms }
  | interrupted (op port) : (∀ hw, op ≠ .run hw) → Turned l op { l with port }
  | top (hw) : l.place = .top → Turned l (.run hw)
      { l with tmrMsDlt := l.timMsCnt-l.tmrMsCntLast, tmrMsCntLast := l.timMsCnt, place := .drain }
  | cycleAsked (hw) : l.place = .drain → hw.power = some .cycle → Turned l (.run hw)
      { l with port := vbusDisable l.port, powercycleTimer := 0, powercycleWait := true }
  | cycle (hw) : l.place = .cycle → Turned l (.run hw) { cycleTick l with place := .detect }
  | onward (hw port place serviceLast tpsTimer diagTimer) : l.place ≠ .cycle →
      (l.place = .drain → hw.power ≠ some .cycle) → (place = .drain ∨ place = .cycle → l.place = .drain) →
      Turned l (.run hw) { l with port, place, serviceLast, tpsTimer, diagTimer }

theorem stepTurned (l : Loop) (op : Op) : Turned l op (step l op).1 := by
  cases op with
  | tick ms => exact .tick ms
  | message buf => exact .interrupted _ _ nofun
  | hardReset => exact .interrupted _ _ nofun
  | run hw =>
    simp only [step]
    cases here : l.place with
    | top => simp only [mainPass,here]; exact .top hw here
    | drain =>
      simp only [mainPass,here]
      cases wanted : hw.power with
      | none => exact .onward hw _ _ _ _ _ (here ▸ nofun) (fun _ => wanted ▸ nofun) (fun _ => here)
      | some power =>
        cases power with
        | enable => exact .onward hw _ _ _ _ _ (here ▸ nofun) (fun _ => wanted ▸ nofun) (fun _ => here)
        | disable => exact .onward hw _ _ _ _ _ (here ▸ nofun) (fun _ => wanted ▸ nofun) (fun _ => here)
        | cycle => exact .cycleAsked hw here wanted
    | cycle => simp only [mainPass,here]; exact .cycle hw here
    | detect =>
      simp only [mainPass,here,detectTick]
      split
      · exact .onward hw _ _ _ _ _ (here ▸ nofun) (here ▸ nofun) nofun
      · exact .onward hw _ _ _ _ _ (here ▸ nofun) (here ▸ nofun) nofun
    | service s => simp only [mainPass,here]; exact .onward hw _ _ _ _ _ (here ▸ nofun) (here ▸ nofun) nofun
    | dispatch s =>
      have after : afterService s = .drain ∨ afterService s = .cycle → l.place = .drain := by
        cases s with
        | first | afterTps | afterChg | afterDiag => exact nofun
      simp only [mainPass,here]
      split
      · exact .onward hw _ _ _ _ _ (here ▸ nofun) (here ▸ nofun) nofun
      · exact .onward hw _ _ _ _ _ (here ▸ nofun) (here ▸ nofun) after
    | tail s =>
      have after : afterService s = .drain ∨ afterService s = .cycle → l.place = .drain := by
        cases s with
        | first | afterTps | afterChg | afterDiag => exact nofun
      simp only [mainPass,here]
      exact .onward hw _ _ _ _ _ (here ▸ nofun) (here ▸ nofun) after
    | tps =>
      simp only [mainPass,here,tpsTick]
      split
      · exact .onward hw _ _ _ _ _ (here ▸ nofun) (here ▸ nofun) nofun
      · exact .onward hw _ _ _ _ _ (here ▸ nofun) (here ▸ nofun) nofun
    | diag =>
      simp only [mainPass,here]
      split
      · exact .onward hw _ _ _ _ _ (here ▸ nofun) (here ▸ nofun) nofun
      · exact .onward hw _ _ _ _ _ (here ▸ nofun) (here ▸ nofun) nofun

theorem waitCases (l : Loop) (op : Op) :
    (step l op).1.powercycleWait = l.powercycleWait ∨
    (∃ hw, op = .run hw ∧ l.place = .drain ∧ hw.power = some .cycle) ∧ (step l op).1.powercycleWait = true ∨
    (∃ hw, op = .run hw) ∧ l.place = .cycle ∧ l.powercycleWait = true ∧ (step l op).1.powercycleWait = false := by
  have turned := stepTurned l op
  generalize (step l op).1 = l' at turned ⊢
  cases turned with
  | tick | interrupted | top | onward => exact Or.inl rfl
  | cycleAsked hw place wanted => exact Or.inr (Or.inl ⟨⟨hw,rfl,place,wanted⟩,rfl⟩)
  | cycle hw place =>
    rcases cycleTickCases l with ⟨-,same⟩ | ⟨waiting,-,-,done⟩
    · exact Or.inl same
    · exact Or.inr (Or.inr ⟨⟨hw,rfl⟩,place,waiting,done⟩)

/-! The step at each place that moves the port. -/

theorem commandStep {l : Loop} (hw : Hw) {power : Power} (place : l.place = .drain) (wanted : hw.power = some power) :
    step l (.run hw) = (wupsHandlePower l power,[]) := by
  simp only [step,mainPass,place,wanted]

theorem cycleStep {l : Loop} (hw : Hw) (place : l.place = .cycle) :
    step l (.run hw) = ({ cycleTick l with place := .detect },[]) := by
  simp only [step,mainPass,place]

theorem detectStep {l : Loop} (hw : Hw) (place : l.place = .detect) : step l (.run hw) =
    ({ (detectTick hw.cc l).1 with place := .service .first },(detectTick hw.cc l).2) := by
  simp only [step,mainPass,place]

theorem detProcStep {l : Loop} (hw : Hw) (place : l.place = .detect) (due : l.port.detTimer+l.tmrMsDlt > 4) :
    step l (.run hw) =
    ({ l with port := (pdDetProc hw.cc { l.port with detTimer := 0 }).1, place := .service .first },
      (pdDetProc hw.cc { l.port with detTimer := 0 }).2) := by
  rw [detectStep hw place]
  simp only [detectTick,if_pos due]

theorem detTimerStep {l : Loop} (hw : Hw) (place : l.place = .detect) (early : ¬ l.port.detTimer+l.tmrMsDlt > 4) :
    step l (.run hw) =
    ({ l with port := { l.port with detTimer := l.port.detTimer+l.tmrMsDlt }, place := .service .first },[]) := by
  rw [detectStep hw place]
  simp only [detectTick,if_neg early]

theorem serviceStep {l : Loop} {s : Service} (hw : Hw) (place : l.place = .service s) : step l (.run hw) =
    ({ l with
        serviceLast := l.timMsCnt
        port := (mainSwitch (l.timMsCnt-l.serviceLast) hw.acked l.port).1
        place := .dispatch s },(mainSwitch (l.timMsCnt-l.serviceLast) hw.acked l.port).2) := by
  simp only [step,mainPass,place]

theorem disconnectStep {l : Loop} {s : Service} (hw : Hw) (place : l.place = .service s)
    (state : l.port.state = .disconnect) : (step l (.run hw)).1.port = pdPhyReset (vbusDisable l.port) ∧
    (step l (.run hw)).2 = [.disconnect] := by
  rw [serviceStep hw place]
  simp only [mainSwitch,state,and_self]

theorem hrstStep {l : Loop} {s : Service} (hw : Hw) (place : l.place = .service s) (state : l.port.state = .txHrst) :
    (step l (.run hw)).1.port = { pdRxMode l.port with
      stopDetChk := true
      msgRecvd := false
      pdRole := true
      drSwapLastMsgId := noMsgId
      state := .idle
      commTimer := 0 } ∧ (step l (.run hw)).2 = [.hrstTx] := by
  rw [serviceStep hw place]
  simp only [mainSwitch,state,and_self]

theorem dispatchStep {l : Loop} {s : Service} (hw : Hw) (place : l.place = .dispatch s)
    (waiting : l.port.msgRecvd = true) : step l (.run hw) =
    ({ l with port := (dispatch hw.acked l.port).1, place := .tail s },(dispatch hw.acked l.port).2) := by
  simp only [step,mainPass,place,if_pos waiting]

def successors : Place → List Place
  | .top => [.drain]
  | .drain => [.drain,.cycle]
  | .cycle => [.detect]
  | .detect => [.service .first]
  | .service s => [.dispatch s]
  | .dispatch s => [.tail s,afterService s]
  | .tail s => [afterService s]
  | .tps => [.service .afterTps]
  | .diag => [.service .afterDiag,.top]

theorem passPlace (hw : Hw) (l : Loop) : (mainPass hw l).1.place ∈ successors l.place := by
  cases place : l.place with
  | top | cycle | detect | service _ | tail _ | tps => simp [mainPass,place,successors]
  | drain =>
    simp only [mainPass,place]
    cases hw.power with
    | none => simp [successors]
    | some power =>
      cases power with
      | enable | disable | cycle => simp [wupsHandlePower,place,successors]
  | dispatch s =>
    simp only [mainPass,place]
    split
    · simp [successors]
    · simp [successors]
  | diag =>
    simp only [mainPass,place]
    split
    · simp [successors]
    · simp [successors]

theorem stepPlace (l : Loop) (op : Op) :
    (step l op).1.place = l.place ∨ ∃ hw, op = .run hw ∧ (step l op).1.place ∈ successors l.place := by
  cases op with
  | tick _ | message _ | hardReset => exact Or.inl rfl
  | run hw => exact Or.inr ⟨hw,rfl,passPlace hw l⟩

theorem placeTail {l : Loop} {op : Op} {s : Service} (tail : (step l op).1.place = .tail s) :
    l.place = .tail s ∨ ∃ hw, op = .run hw ∧ l.place = .dispatch s := by
  rcases stepPlace l op with same | ⟨hw,ran,next⟩
  · exact Or.inl (same.symm.trans tail)
  · rw [tail] at next
    cases place : l.place with
    | dispatch s' =>
      rw [place] at next
      cases s' with
      | first | afterTps | afterChg | afterDiag => simp [successors,afterService] at next; exact Or.inr ⟨hw,ran,by rw [next]⟩
    | tail s' =>
      rw [place] at next
      cases s' with
      | first | afterTps | afterChg | afterDiag => simp [successors,afterService] at next
    | top | drain | cycle | detect | service _ | tps | diag =>
      rw [place] at next
      simp [successors] at next

theorem placeDispatch {l : Loop} {op : Op} {s : Service} (dispatch : (step l op).1.place = .dispatch s) :
    l.place = .dispatch s ∨ ∃ hw, op = .run hw ∧ l.place = .service s := by
  rcases stepPlace l op with same | ⟨hw,ran,next⟩
  · exact Or.inl (same.symm.trans dispatch)
  · rw [dispatch] at next
    cases place : l.place with
    | service s' =>
      rw [place] at next
      simp [successors] at next
      exact Or.inr ⟨hw,ran,by rw [next]⟩
    | dispatch s' | tail s' =>
      rw [place] at next
      cases s' with
      | first | afterTps | afterChg | afterDiag => simp [successors,afterService] at next
    | top | drain | cycle | detect | tps | diag =>
      rw [place] at next
      simp [successors] at next

section Runs
variable {ops : List Op} {n : Nat} {op : Op}

theorem atNext (here : ops[n]? = some op) : at_ ops (n+1) = (step (at_ ops n) op).1 := stateNext step boot here

theorem evtsHere (here : ops[n]? = some op) : evtsAt ops n = (step (at_ ops n) op).2 := by
  rw [evtsAt,outAt,here]; rfl

theorem evtsEnd (past : ops[n]? = none) : evtsAt ops n = [] := by
  rw [evtsAt,outAt,past]; rfl

theorem didAt (here : ops[n]? = some op) : Did (at_ ops n) op (at_ ops (n+1)).port (evtsAt ops n) := by
  rw [atNext here,evtsHere here]; exact stepDid _ op

theorem stays (past : ops[n]? = none) : at_ ops (n+1) = at_ ops n := stateEnd step boot past

theorem unlitAt (here : ops[n]? = some op) (noEnable : ¬ CommandAt ops n .enable) (noAttach : ¬ AttachedAt ops n)
    (noCycleOn : ¬ CycleOnAt ops n) (noAccept : ¬ AcceptedAt ops n) : Unlit (at_ ops n) op := by
  refine ⟨?_,?_,?_,fun accepting => noAccept ⟨op,here,accepting⟩⟩
  · intro hw ran place wanted
    exact noEnable ⟨place,hw,ran ▸ here,wanted⟩
  · intro hw ran place waiting
    rw [← atNext here]
    by_contra done
    exact noCycleOn ⟨place,waiting,by simpa using done⟩
  · intro hw ran place apart
    rw [← atNext here]
    by_contra joined
    exact noAttach ⟨place,apart,by simpa using joined⟩

theorem waitAt (ops : List Op) (n : Nat) : (at_ ops (n+1)).powercycleWait = (at_ ops n).powercycleWait ∨
    CommandAt ops n .cycle ∧ (at_ ops (n+1)).powercycleWait = true ∨ CycleOnAt ops n := by
  cases here : ops[n]? with
  | none => exact Or.inl (by rw [stays here])
  | some op =>
    have next := atNext here
    rcases waitCases (at_ ops n) op with same | ⟨⟨hw,ran,place,wanted⟩,waiting⟩ | ⟨-,place,waiting,done⟩
    · exact Or.inl (by rw [next]; exact same)
    · exact Or.inr (Or.inl ⟨⟨place,hw,ran ▸ here,wanted⟩,by rw [next]; exact waiting⟩)
    · exact Or.inr (Or.inr ⟨place,waiting,by rw [next]; exact done⟩)

theorem cycleOnStep (on : CycleOnAt ops n) : ∃ hw, ops[n]? = some (.run hw) ∧
    (at_ ops n).powercycleTimer+(at_ ops n).tmrMsDlt.toUInt16 ≥ powercycleOffMs ∧
    (at_ ops (n+1)).port = powerOutputRestart (at_ ops n).port := by
  obtain ⟨place,waiting,done⟩ := on
  cases here : ops[n]? with
  | none => rw [stays here] at done; exact nomatch waiting.symm.trans done
  | some op =>
    rw [atNext here] at done ⊢
    rcases waitCases (at_ ops n) op with same | ⟨-,again⟩ | ⟨⟨hw,rfl⟩,-,-,-⟩
    · exact nomatch waiting.symm.trans (same.symm.trans done)
    · exact nomatch again.symm.trans done
    · rw [cycleStep hw place] at done ⊢
      rcases cycleTickCases (at_ ops n) with ⟨-,same⟩ | ⟨-,due,restarted,-⟩
      · exact nomatch waiting.symm.trans (same.symm.trans done)
      · exact ⟨hw,rfl,due,restarted⟩

end Runs

end Web3PiUps.Ch32xPdSteps
