import Mathlib.Algebra.GroupWithZero.Nat
import Mathlib.Data.List.Induction
import Web3PiUps.WupsDeframers
import Web3PiUps.Lib.StepMachine

/-! The RX watchdog of `firmware-ESP32-LTE-M/main/wups_link.c`: `rx_task` and
`rx_link_recover` over the receiver of the ESP32. A turn is one pass of the loop; the clock
is `esp_timer_get_time`, and a turn says how far it has moved between two readings. -/
namespace Web3PiUps.WupsRxWatchdog
open WupsProtocol WupsDeframers Esp32 StepMachine

abbrev wupsRxIdlePingMs : Nat := 60000
abbrev wupsRxPingRetryMs : Nat := 15000
abbrev wupsRxRebootGarbageMin : UInt32 := 4096
abbrev wupsRxRebootCycle : Nat := 6

/-- `now_ms32` at a time. -/
def ms32 (us : Nat) : UInt32 := UInt32.ofNat (us/1000)

inductive Cause where
  | silentLink
  | uartFailed
  deriving DecidableEq, Repr

inductive Event where
  | ping
  | reinstall
  | restart (cause : Cause)
  deriving DecidableEq, Repr

/-- The variables of `rx_task` and the clock; `refUs` records when `wd_ref_ms` was set, and
a device that is `restarting` does nothing more. -/
structure Watchdog where
  link : Link
  bytesRx : UInt32
  framesSeen : UInt32
  wdRefMs : UInt32
  bytesAtLastFrame : UInt32
  pingsSent : Nat
  lastPingUs : Nat
  recoveryCycles : Nat
  us : Nat
  refUs : Nat
  restarting : Bool
  deriving DecidableEq, Repr

def Watchdog.init (us : Nat) : Watchdog := ⟨.init,0,0,ms32 us,0,0,0,0,us,us,false⟩

/-- `bytes` is what `uart_read_bytes` gives, `none` when it fails; the elapsed times lead to
the stamp of a new frame, to `now_us`, to the check of the window, and past a reinstall. -/
structure Turn where
  bytes : Option { b : Bytes // b.length ≤ 64 }
  stampUs : Nat
  nowUs : Nat
  checkUs : Nat
  recoverUs : Nat
  otaInProgress : Bool
  uartOk : Bool
  deriving DecidableEq, Repr

/-- What a turn took in, and what the ladder did. -/
structure Record where
  received : Nat
  delivered : List WupsFrame
  event : Option Event
  deriving DecidableEq, Repr

def receive (l : Link) (b : Bytes) : Link :=
  let l := b.foldl (fun l x => (rxByte l x).1) l
  if b = [] then idle l else l

def Watchdog.elapse (w : Watchdog) (us : Nat) : Watchdog := { w with us := w.us+us }

/-- `wd_ref_ms = now_ms32()`. -/
def Watchdog.rearm (w : Watchdog) : Watchdog := { w with wdRefMs := ms32 w.us, refUs := w.us, pingsSent := 0 }

/-- A frame addressed to us was seen. -/
def seen (w : Watchdog) : Watchdog :=
  if w.link.framesRxUnicast ≠ w.framesSeen then
    { w.rearm with
      framesSeen := w.link.framesRxUnicast, bytesAtLastFrame := w.bytesRx, recoveryCycles := 0 }
  else w

def garbage (w : Watchdog) : UInt32 := w.bytesRx-w.bytesAtLastFrame

/-- `rx_link_recover`, and what the loop does after it. -/
def recover (w : Watchdog) (t : Turn) : Watchdog × Option Event :=
  let w := { w with link := { w.link with rx := rxReset w.link.rx } }
  if !t.uartOk then ({ w with restarting := true },some (.restart .uartFailed))
  else ((w.elapse t.recoverUs).rearm,some .reinstall)

/-- Two probes without an answer. -/
def escalate (w : Watchdog) (t : Turn) : Watchdog × Option Event :=
  let w := { w with recoveryCycles := w.recoveryCycles+1 }
  if w.recoveryCycles ≥ wupsRxRebootCycle ∧ (w.link.framesRx > 0 ∨ garbage w ≥ wupsRxRebootGarbageMin) then
    ({ w with restarting := true },some (.restart .silentLink))
  else recover w t

/-- The ladder, with the window open or not. -/
def monitor (w : Watchdog) (t : Turn) : Watchdog × Option Event :=
  if t.otaInProgress then ((w.elapse t.nowUs).rearm,none)
  else
    let w := w.elapse t.nowUs
    let nowUs := w.us
    let w := w.elapse t.checkUs
    if ms32 w.us-w.wdRefMs < UInt32.ofNat wupsRxIdlePingMs then (w,none)
    else if w.pingsSent < 2 then
      if w.pingsSent = 0 ∨ nowUs-w.lastPingUs ≥ wupsRxPingRetryMs*1000 then
        ({ w with pingsSent := w.pingsSent+1, lastPingUs := nowUs },some .ping)
      else (w,none)
    else if nowUs-w.lastPingUs < wupsRxPingRetryMs*1000 then (w,none)
    else escalate w t

def readIn (w : Watchdog) (us : Nat) (b : Bytes) : Watchdog :=
  { w.elapse us with link := receive w.link b, bytesRx := w.bytesRx+UInt32.ofNat b.length }

def turn (w : Watchdog) (t : Turn) : Watchdog × Record :=
  if w.restarting then (w,⟨0,[],none⟩)
  else
    match t.bytes with
    | none => (w.elapse t.stampUs,⟨0,[],none⟩)
    | some b =>
      let before := w.link.onLocalFrame.length
      let w := readIn w t.stampUs b.1
      let r := monitor (seen w) t
      (r.1,⟨b.1.length,w.link.onLocalFrame.drop before,r.2⟩)

def toUs (f : WupsFrame) : Bool := f.dst == wupsAddrEsp32

def Record.addressed (r : Record) : Bool := r.delivered.any toUs

def Event.isCycle : Event → Bool
  | .ping => false
  | .reinstall | .restart _ => true

/-- The recovery cycles of a stretch of turns. -/
def cycles (rs : List Record) : Nat := rs.countP fun r => r.event.any Event.isCycle

def received (rs : List Record) : Nat := (rs.map Record.received).sum

def accepted (rs : List Record) : Nat := (rs.map fun r => r.delivered.length).sum

/-- The frames a read delivers, and what they add to the counters. -/
structure Delivers (l l' : Link) (n : Nat) (fs : List WupsFrame) : Prop where
  frames : l'.onLocalFrame = l.onLocalFrame ++ fs
  few : fs.length ≤ n
  all : l'.framesRx = l.framesRx+UInt32.ofNat fs.length
  unicast : l'.framesRxUnicast = l.framesRxUnicast+UInt32.ofNat (fs.countP toUs)

theorem deliversNone (l : Link) (n : Nat) {l' : Link} (same : l'.onLocalFrame = l.onLocalFrame)
    (all : l'.framesRx = l.framesRx) (unicast : l'.framesRxUnicast = l.framesRxUnicast) :
    Delivers l l' n [] :=
  ⟨by simp [same],Nat.zero_le _,by simp [all],by simp [unicast]⟩

theorem deliverFrameDelivers (l : Link) : ∃ fs, Delivers l (deliverFrame l) 1 fs := by
  unfold deliverFrame
  dsimp only
  split
  · exact ⟨[],deliversNone l 1 rfl rfl rfl⟩
  · refine ⟨[l.rx.frame],rfl,Nat.le_refl 1,rfl,?_⟩
    rw [List.countP_singleton]
    cases us : toUs l.rx.frame with
    | true =>
      have dst : l.rx.dst = wupsAddrEsp32 := by simpa [toUs,RxFields.frame] using us
      exact if_pos dst
    | false =>
      have dst : l.rx.dst ≠ wupsAddrEsp32 := by simpa [toUs,RxFields.frame] using us
      exact (if_neg dst).trans (by simp)

theorem byteDelivers (l : Link) (b : UInt8) : ∃ fs, Delivers l (rxByte l b).1 1 fs := by
  unfold rxByte
  dsimp only
  cases l.rx.state
  case end2 =>
    dsimp only
    split
    · obtain ⟨fs,d⟩ := deliverFrameDelivers l
      exact ⟨fs,d.frames,d.few,d.all,d.unicast⟩
    · exact ⟨[],deliversNone l 1 rfl rfl rfl⟩
  all_goals
    dsimp only [bad]
    try split
    all_goals exact ⟨[],deliversNone l 1 rfl rfl rfl⟩

theorem bytesDeliver (l : Link) (b : Bytes) :
    ∃ fs, Delivers l (b.foldl (fun l x => (rxByte l x).1) l) b.length fs := by
  induction b generalizing l with
  | nil => exact ⟨[],deliversNone l 0 rfl rfl rfl⟩
  | cons x rest ih =>
    obtain ⟨first,d⟩ := byteDelivers l x
    obtain ⟨later,e⟩ := ih (rxByte l x).1
    refine ⟨first ++ later,?_,?_,?_,?_⟩
    · rw [List.foldl_cons,e.frames,d.frames,List.append_assoc]
    · have few := d.few
      have few' := e.few
      rw [List.length_append,List.length_cons]
      omega
    · rw [List.foldl_cons,e.all,d.all,List.length_append,UInt32.ofNat_add,UInt32.add_assoc]
    · rw [List.foldl_cons,e.unicast,d.unicast,List.countP_append,UInt32.ofNat_add,UInt32.add_assoc]

theorem receiveDelivers (l : Link) (b : Bytes) : ∃ fs, Delivers l (receive l b) b.length fs := by
  unfold receive
  dsimp only
  split
  · rename_i none
    subst none
    refine ⟨[],?_⟩
    unfold idle
    split
    · exact deliversNone l 0 rfl rfl rfl
    · exact deliversNone l 0 rfl rfl rfl
  · exact bytesDeliver l b

/-- Of at most 64 frames the counter tells whether one was addressed to us. -/
theorem Delivers.tells {l l' : Link} {n : Nat} {fs : List WupsFrame} (d : Delivers l l' n fs) (short : n ≤ 64) :
    l'.framesRxUnicast ≠ l.framesRxUnicast ↔ fs.any toUs = true := by
  have few : fs.countP toUs ≤ 64 := List.countP_le_length.trans (d.few.trans short)
  rw [d.unicast,List.any_eq_true,← List.countP_pos_iff]
  constructor
  · intro different
    by_contra none
    exact different (by rw [Nat.eq_zero_of_not_pos none]; simp)
  · intro some same
    have zero : UInt32.ofNat (fs.countP toUs) = 0 := by simpa using same
    have back := congrArg UInt32.toNat zero
    rw [UInt32.toNat_ofNat_of_lt' (by show _ < 2^32; omega)] at back
    exact absurd back (Nat.ne_of_gt some)

/-- What the ladder does once a read is taken in. The cycle, its window and its probes are
those of the state it starts from. -/
structure Moves (w : Watchdog) (t : Turn) (w' : Watchdog) (event : Option Event) : Prop where
  framesSeen : w'.framesSeen = w.framesSeen
  bytesAtLastFrame : w'.bytesAtLastFrame = w.bytesAtLastFrame
  bytesRx : w'.bytesRx = w.bytesRx
  framesRx : w'.link.framesRx = w.link.framesRx
  unicast : w'.link.framesRxUnicast = w.link.framesRxUnicast
  forward : w.us ≤ w'.us
  counted : w'.recoveryCycles = w.recoveryCycles+(event.any Event.isCycle).toNat
  stays : event = none → t.otaInProgress = false → w'.pingsSent = w.pingsSent ∧ w'.wdRefMs = w.wdRefMs
  quiet : event = none → w'.pingsSent ≤ w.pingsSent
  pinged : event = some .ping → w'.pingsSent = w.pingsSent+1 ∧ w'.wdRefMs = w.wdRefMs ∧ w.pingsSent < 2
  probed : event.any Event.isCycle = true → 2 ≤ w.pingsSent
  reference : w.wdRefMs = ms32 w.refUs → w'.wdRefMs = ms32 w'.refUs
  past : w.refUs ≤ w.us → w'.refUs ≤ w'.us
  slow : w.wdRefMs = ms32 w.refUs → event.any Event.isCycle = true →
    w.refUs/1000+wupsRxIdlePingMs ≤ w'.us/1000
  dead : event = some (.restart .silentLink) → wupsRxRebootCycle ≤ w'.recoveryCycles ∧
    (w.link.framesRx > 0 ∨ garbage w ≥ wupsRxRebootGarbageMin)
  failed : event = some (.restart .uartFailed) → t.uartOk = false

theorem Moves.firstRung {w w' : Watchdog} {t : Turn} {event : Option Event} (moves : Moves w t w' event)
    (first : w.pingsSent = 0) : event.any Event.isCycle = false := by
  cases cycle : event.any Event.isCycle with
  | false => rfl
  | true =>
    have probes := moves.probed cycle
    omega

theorem ms32Apart {a b : Nat} (apart : ¬ms32 a-ms32 b < UInt32.ofNat wupsRxIdlePingMs) (ordered : b ≤ a) :
    b/1000+wupsRxIdlePingMs ≤ a/1000 := by
  rw [UInt32.lt_iff_toNat_lt] at apart
  have small : wupsRxIdlePingMs ≤ (ms32 a-ms32 b).toNat := Nat.not_lt.mp apart
  have whole : ms32 a-ms32 b = UInt32.ofNat (a/1000-b/1000) := by
    rw [UInt32.ofNat_sub (Nat.div_le_div_right ordered)]
    rfl
  rw [whole,UInt32.toNat_ofNat'] at small
  have less : (a/1000-b/1000)%2^32 ≤ a/1000-b/1000 := Nat.mod_le _ _
  omega

theorem waitMoves (w : Watchdog) (t : Turn) (us : Nat) : Moves w t (w.elapse us) none where
  framesSeen := rfl
  bytesAtLastFrame := rfl
  bytesRx := rfl
  framesRx := rfl
  unicast := rfl
  forward := Nat.le_add_right _ _
  counted := rfl
  stays _ _ := ⟨rfl,rfl⟩
  quiet _ := Nat.le_refl _
  pinged := nofun
  probed := nofun
  reference := id
  past before := before.trans (Nat.le_add_right _ _)
  slow := nofun
  dead := nofun
  failed := nofun

theorem otaMoves (w : Watchdog) (t : Turn) (us : Nat) (ota : t.otaInProgress = true) :
    Moves w t (w.elapse us).rearm none where
  framesSeen := rfl
  bytesAtLastFrame := rfl
  bytesRx := rfl
  framesRx := rfl
  unicast := rfl
  forward := Nat.le_add_right _ _
  counted := rfl
  stays _ off := absurd (ota.symm.trans off) nofun
  quiet _ := Nat.zero_le _
  pinged := nofun
  probed := nofun
  reference _ := rfl
  past _ := Nat.le_refl _
  slow := nofun
  dead := nofun
  failed := nofun

theorem pingMoves (w : Watchdog) (t : Turn) (us : Nat) (few : w.pingsSent < 2) (nowUs : Nat) :
    Moves w t { w.elapse us with pingsSent := w.pingsSent+1, lastPingUs := nowUs } (some .ping) where
  framesSeen := rfl
  bytesAtLastFrame := rfl
  bytesRx := rfl
  framesRx := rfl
  unicast := rfl
  forward := Nat.le_add_right _ _
  counted := rfl
  stays := nofun
  quiet := nofun
  pinged _ := ⟨rfl,rfl,few⟩
  probed := nofun
  reference := id
  past before := before.trans (Nat.le_add_right _ _)
  slow := nofun
  dead := nofun
  failed := nofun

theorem restartMoves (w : Watchdog) (t : Turn) (us : Nat) (cause : Cause) (link : Link)
    (same : link.framesRx = w.link.framesRx ∧ link.framesRxUnicast = w.link.framesRxUnicast)
    (probes : 2 ≤ w.pingsSent)
    (slow : w.wdRefMs = ms32 w.refUs → w.refUs/1000+wupsRxIdlePingMs ≤ (w.us+us)/1000)
    (dead : cause = .silentLink → wupsRxRebootCycle ≤ w.recoveryCycles+1 ∧
      (w.link.framesRx > 0 ∨ garbage w ≥ wupsRxRebootGarbageMin))
    (failed : cause = .uartFailed → t.uartOk = false) :
    Moves w t { w.elapse us with link := link, recoveryCycles := w.recoveryCycles+1, restarting := true }
      (some (.restart cause)) where
  framesSeen := rfl
  bytesAtLastFrame := rfl
  bytesRx := rfl
  framesRx := same.1
  unicast := same.2
  forward := Nat.le_add_right _ _
  counted := rfl
  stays := nofun
  quiet := nofun
  pinged := nofun
  probed _ := probes
  reference := id
  past before := before.trans (Nat.le_add_right _ _)
  slow referred _ := slow referred
  dead same := dead (by cases same; rfl)
  failed same := failed (by cases same; rfl)

theorem reinstallMoves (w : Watchdog) (t : Turn) (us later : Nat) (link : Link)
    (same : link.framesRx = w.link.framesRx ∧ link.framesRxUnicast = w.link.framesRxUnicast)
    (probes : 2 ≤ w.pingsSent)
    (slow : w.wdRefMs = ms32 w.refUs → w.refUs/1000+wupsRxIdlePingMs ≤ (w.us+us)/1000) :
    Moves w t (({ w.elapse us with link := link, recoveryCycles := w.recoveryCycles+1 } : Watchdog).elapse later).rearm
      (some .reinstall) where
  framesSeen := rfl
  bytesAtLastFrame := rfl
  bytesRx := rfl
  framesRx := same.1
  unicast := same.2
  forward := show w.us ≤ w.us+us+later by omega
  counted := rfl
  stays := nofun
  quiet := nofun
  pinged := nofun
  probed _ := probes
  reference _ := rfl
  past _ := Nat.le_refl _
  slow referred _ := (slow referred).trans (Nat.div_le_div_right (Nat.le_add_right _ _))
  dead := nofun
  failed := nofun

theorem monitorMoves (w : Watchdog) (t : Turn) (past : w.refUs ≤ w.us) :
    Moves w t (monitor w t).1 (monitor w t).2 := by
  have both : (w.elapse t.nowUs).elapse t.checkUs = w.elapse (t.nowUs+t.checkUs) := by
    simp only [Watchdog.elapse,Nat.add_assoc]
  unfold monitor
  split
  · rename_i ota
    exact otaMoves w t t.nowUs ota
  dsimp only
  rw [both]
  split
  · exact waitMoves w t _
  rename_i late
  split
  · rename_i few
    split
    · exact pingMoves w t _ few _
    · exact waitMoves w t _
  split
  · exact waitMoves w t _
  rename_i many _
  have probes : 2 ≤ w.pingsSent := Nat.not_lt.mp many
  have slow (referred : w.wdRefMs = ms32 w.refUs) :
      w.refUs/1000+wupsRxIdlePingMs ≤ (w.us+(t.nowUs+t.checkUs))/1000 := by
    have late : ¬ms32 (w.us+(t.nowUs+t.checkUs))-w.wdRefMs < UInt32.ofNat wupsRxIdlePingMs := late
    rw [referred] at late
    exact ms32Apart late (past.trans (Nat.le_add_right _ _))
  unfold escalate
  dsimp only
  split
  · rename_i dead
    exact restartMoves w t _ .silentLink w.link ⟨rfl,rfl⟩ probes slow (fun _ => dead) nofun
  unfold recover
  dsimp only
  split
  · rename_i fails
    exact restartMoves w t _ .uartFailed { w.link with rx := rxReset w.link.rx } ⟨rfl,rfl⟩ probes slow nofun
      (fun _ => by simpa using fails)
  · exact reinstallMoves w t _ _ { w.link with rx := rxReset w.link.rx } ⟨rfl,rfl⟩ probes slow

/-- A turn of a device that has restarted, or whose read fails, or one that reads. -/
theorem turnCases (w : Watchdog) (t : Turn) :
    (∃ us, turn w t = (w.elapse us,⟨0,[],none⟩)) ∨ ∃ b, w.restarting = false ∧ t.bytes = some b := by
  cases stopped : w.restarting with
  | true => exact .inl ⟨0,if_pos stopped⟩
  | false =>
    cases read : t.bytes with
    | some b => exact .inr ⟨b,rfl,rfl⟩
    | none =>
      refine .inl ⟨t.stampUs,?_⟩
      unfold turn
      rw [stopped,read]
      rfl

/-- A turn that reads: what it delivered, and what the ladder does from there. -/
structure Reads (w : Watchdog) (t : Turn) (b : Bytes) : Prop where
  delivers : Delivers w.link (receive w.link b) b.length (turn w t).2.delivered
  received : (turn w t).2.received = b.length
  moves : Moves (seen (readIn w t.stampUs b)) t (turn w t).1 (turn w t).2.event

theorem seenPast {w : Watchdog} (past : w.refUs ≤ w.us) : (seen w).refUs ≤ (seen w).us := by
  unfold seen
  split
  · exact Nat.le_refl _
  · exact past

theorem turnReads {w : Watchdog} {t : Turn} {b} (running : w.restarting = false) (reads : t.bytes = some b)
    (past : w.refUs ≤ w.us) : Reads w t b.1 := by
  obtain ⟨fs,delivers⟩ := receiveDelivers w.link b.1
  have taken : turn w t = ((monitor (seen (readIn w t.stampUs b.1)) t).1,
      ⟨b.1.length,fs,(monitor (seen (readIn w t.stampUs b.1)) t).2⟩) := by
    unfold turn
    rw [running,reads]
    show (_,Record.mk _ ((receive w.link b.1).onLocalFrame.drop _) _) = _
    rw [delivers.frames,List.drop_left]
  refine ⟨by rw [taken]; exact delivers,by rw [taken],?_⟩
  rw [taken]
  exact monitorMoves _ t (seenPast (past.trans (Nat.le_add_right _ _)))

/-! What the variables say of the turns so far. -/

/-- `recent` are the turns since the last frame addressed to us. -/
structure Stretch (w : Watchdog) (recent : List Record) : Prop where
  silent : ∀ r ∈ recent, r.addressed = false
  cycles : cycles recent = w.recoveryCycles
  garbage : garbage w = UInt32.ofNat (received recent)

structure Standing (w : Watchdog) (outs : List Record) : Prop where
  past : w.refUs ≤ w.us
  reference : w.wdRefMs = ms32 w.refUs
  current : w.framesSeen = w.link.framesRxUnicast
  frames : w.link.framesRx = UInt32.ofNat (accepted outs)
  stretch : ∃ older recent, outs = older ++ recent ∧ Stretch w recent

theorem cyclesConcat (rs : List Record) (r : Record) :
    cycles (rs ++ [r]) = cycles rs+(r.event.any Event.isCycle).toNat := by
  rw [cycles,List.countP_append,List.countP_singleton]
  cases r.event.any Event.isCycle <;> rfl

theorem receivedConcat (rs : List Record) (r : Record) : received (rs ++ [r]) = received rs+r.received := by
  simp [received]

theorem acceptedConcat (rs : List Record) (r : Record) :
    accepted (rs ++ [r]) = accepted rs+r.delivered.length := by
  simp [accepted]

theorem standingInit (us : Nat) : Standing (.init us) [] :=
  ⟨Nat.le_refl us,rfl,rfl,rfl,[],[],rfl,nofun,rfl,UInt32.sub_self _⟩

theorem Standing.idle {w : Watchdog} {outs : List Record} (stands : Standing w outs) (us : Nat) :
    Standing (w.elapse us) (outs ++ [⟨0,[],none⟩]) := by
  obtain ⟨older,recent,same,stretch⟩ := stands.stretch
  refine ⟨stands.past.trans (Nat.le_add_right _ _),stands.reference,stands.current,?_,older,
    recent ++ [⟨0,[],none⟩],by rw [same,List.append_assoc],?_,?_,?_⟩
  · rw [acceptedConcat]
    exact stands.frames
  · intro r inside
    rcases List.mem_append.mp inside with old | new
    · exact stretch.silent r old
    · cases List.mem_singleton.mp new
      rfl
  · rw [cyclesConcat]
    exact stretch.cycles
  · rw [receivedConcat]
    exact stretch.garbage

theorem seenAddressed {w : Watchdog} (new : w.link.framesRxUnicast ≠ w.framesSeen) :
    seen w = { w.rearm with
      framesSeen := w.link.framesRxUnicast, bytesAtLastFrame := w.bytesRx, recoveryCycles := 0 } :=
  if_pos new

theorem seenOther {w : Watchdog} (same : w.link.framesRxUnicast = w.framesSeen) : seen w = w :=
  if_neg (not_not.mpr same)

/-- A frame addressed to us is seen in the turn that delivers it, and no other is. -/
theorem Standing.sees {w : Watchdog} {t : Turn} {b : Bytes} {outs : List Record} (stands : Standing w outs)
    (reads : Reads w t b) (short : b.length ≤ 64) :
    ((readIn w t.stampUs b).link.framesRxUnicast ≠ (readIn w t.stampUs b).framesSeen ↔
      (turn w t).2.addressed = true) := by
  show ((receive w.link b).framesRxUnicast ≠ w.framesSeen ↔ _)
  rw [stands.current]
  exact reads.delivers.tells short

theorem Standing.turn {w : Watchdog} {outs : List Record} (stands : Standing w outs) (t : Turn) :
    Standing (turn w t).1 (outs ++ [(turn w t).2]) := by
  rcases turnCases w t with ⟨us,still⟩ | ⟨b,stopped,read⟩
  · rw [still]
    exact stands.idle us
  · have reads := turnReads stopped read stands.past
    have sees := stands.sees reads b.2
    have moves := reads.moves
    have frames : (WupsRxWatchdog.turn w t).1.link.framesRx =
        UInt32.ofNat (accepted (outs ++ [(WupsRxWatchdog.turn w t).2])) := by
      have all : (seen (readIn w t.stampUs b.1)).link.framesRx = (receive w.link b.1).framesRx := by
        unfold seen
        split <;> rfl
      rw [moves.framesRx,all,reads.delivers.all,stands.frames,acceptedConcat,UInt32.ofNat_add]
    cases addressed : (WupsRxWatchdog.turn w t).2.addressed with
    | true =>
      have new := seenAddressed (sees.mpr addressed)
      rw [new] at moves
      refine ⟨moves.past (Nat.le_refl _),moves.reference rfl,moves.framesSeen.trans moves.unicast.symm,frames,
        outs ++ [(WupsRxWatchdog.turn w t).2],[],by simp,nofun,?_,?_⟩
      · rw [moves.counted,moves.firstRung rfl]
        rfl
      · show _-_ = _
        rw [moves.bytesRx,moves.bytesAtLastFrame]
        exact UInt32.sub_self _
    | false =>
      have other : (readIn w t.stampUs b.1).link.framesRxUnicast = (readIn w t.stampUs b.1).framesSeen := by
        by_contra new
        exact Bool.false_ne_true (addressed.symm.trans (sees.mp new))
      rw [seenOther other] at moves
      obtain ⟨older,recent,same,stretch⟩ := stands.stretch
      refine ⟨moves.past (stands.past.trans (Nat.le_add_right _ _)),moves.reference stands.reference,?_,frames,older,
        recent ++ [(WupsRxWatchdog.turn w t).2],by rw [same,List.append_assoc],?_,?_,?_⟩
      · rw [moves.framesSeen,moves.unicast,other]
      · intro r inside
        rcases List.mem_append.mp inside with old | last
        · exact stretch.silent r old
        · cases List.mem_singleton.mp last
          exact addressed
      · rw [cyclesConcat,stretch.cycles,moves.counted]
        rfl
      · show _-_ = _
        rw [moves.bytesRx,moves.bytesAtLastFrame,receivedConcat,reads.received,UInt32.ofNat_add,← stretch.garbage]
        show w.bytesRx+UInt32.ofNat b.1.length-w.bytesAtLastFrame =
          w.bytesRx-w.bytesAtLastFrame+UInt32.ofNat b.1.length
        rw [UInt32.sub_eq_add_neg,UInt32.sub_eq_add_neg,UInt32.add_assoc,
          UInt32.add_comm (UInt32.ofNat b.1.length),← UInt32.add_assoc]

theorem standsAt (us : Nat) (turns : List Turn) :
    Standing (final turn (.init us) turns) (outs turn (.init us) turns) := by
  induction turns using List.reverseRecOn with
  | nil => exact standingInit us
  | append_singleton turns t ih =>
    rw [finalConcat,outsAppend]
    exact ih.turn t

/-- A turn that delivers nothing to us starts from the ladder as it stands. -/
structure Continues (w w₀ : Watchdog) : Prop where
  pingsSent : w₀.pingsSent = w.pingsSent
  wdRefMs : w₀.wdRefMs = w.wdRefMs
  refUs : w₀.refUs = w.refUs
  bytesAtLastFrame : w₀.bytesAtLastFrame = w.bytesAtLastFrame
  recoveryCycles : w₀.recoveryCycles = w.recoveryCycles

theorem Standing.otherTurn {w : Watchdog} {outs : List Record} (stands : Standing w outs) {t : Turn}
    (other : (WupsRxWatchdog.turn w t).2.addressed = false) :
    ∃ w₀, Continues w w₀ ∧ Moves w₀ t (WupsRxWatchdog.turn w t).1 (WupsRxWatchdog.turn w t).2.event := by
  rcases turnCases w t with ⟨us,still⟩ | ⟨b,stopped,read⟩
  · rw [still]
    exact ⟨w,⟨rfl,rfl,rfl,rfl,rfl⟩,waitMoves w t us⟩
  · have reads := turnReads stopped read stands.past
    have moves := reads.moves
    have same : (readIn w t.stampUs b.1).link.framesRxUnicast = (readIn w t.stampUs b.1).framesSeen := by
      by_contra new
      exact Bool.false_ne_true (other.symm.trans ((stands.sees reads b.2).mp new))
    rw [seenOther same] at moves
    exact ⟨readIn w t.stampUs b.1,⟨rfl,rfl,rfl,rfl,rfl⟩,moves⟩

theorem Standing.addressedTurn {w : Watchdog} {outs : List Record} (stands : Standing w outs) {t : Turn}
    (addressed : (WupsRxWatchdog.turn w t).2.addressed = true) :
    (WupsRxWatchdog.turn w t).1.recoveryCycles = 0 ∧ (WupsRxWatchdog.turn w t).1.pingsSent ≤ 1 ∧
      ((WupsRxWatchdog.turn w t).2.event = none ∨ (WupsRxWatchdog.turn w t).2.event = some .ping) := by
  rcases turnCases w t with ⟨us,still⟩ | ⟨b,stopped,read⟩
  · rw [still] at addressed
    cases addressed
  · have reads := turnReads stopped read stands.past
    have moves := reads.moves
    rw [seenAddressed ((stands.sees reads b.2).mpr addressed)] at moves
    have first := moves.firstRung rfl
    refine ⟨by rw [moves.counted,first]; rfl,?_⟩
    cases event : (WupsRxWatchdog.turn w t).2.event with
    | none => exact ⟨(moves.quiet event).trans (Nat.zero_le 1),.inl rfl⟩
    | some e =>
      cases e with
      | ping => exact ⟨(moves.pinged event).1.le,.inr rfl⟩
      | reinstall => rw [event] at first; cases first
      | restart cause => rw [event] at first; cases first

structure Laddered (us : Nat) (turns : List Turn) : Prop where
  late : ∀ n r, (outs turn (.init us) turns)[n]? = some r → r.event = some (.restart .silentLink) →
    ∃ older recent, (outs turn (.init us) turns).take (n+1) = older ++ recent ∧
      (∀ r ∈ recent, r.addressed = false) ∧ wupsRxRebootCycle ≤ cycles recent ∧
      (0 < accepted (older ++ recent) ∨ wupsRxRebootGarbageMin.toNat ≤ received recent)
  cycle : ∀ n r, (outs turn (.init us) turns)[n]? = some r → r.event.any Event.isCycle = true →
    r.addressed = false ∧ 2 ≤ (stateAt turn (.init us) turns n).pingsSent ∧
      (stateAt turn (.init us) turns n).refUs/1000+wupsRxIdlePingMs ≤
        (stateAt turn (.init us) turns (n+1)).us/1000
  silent : (∀ r ∈ outs turn (.init us) turns, r.received = 0) →
    ∀ r ∈ outs turn (.init us) turns, r.event ≠ some (.restart .silentLink)
  reinstalled : (∀ t ∈ turns, t.uartOk = true) →
    ∀ r ∈ outs turn (.init us) turns, r.event ≠ some (.restart .uartFailed)
  others : ∀ n r, (outs turn (.init us) turns)[n]? = some r → r.addressed = false →
    (stateAt turn (.init us) turns (n+1)).recoveryCycles =
      (stateAt turn (.init us) turns n).recoveryCycles+cycles [r] ∧
    (stateAt turn (.init us) turns (n+1)).bytesAtLastFrame = (stateAt turn (.init us) turns n).bytesAtLastFrame ∧
    ∀ t, turns[n]? = some t → t.otaInProgress = false → r.event = none →
      (stateAt turn (.init us) turns (n+1)).pingsSent = (stateAt turn (.init us) turns n).pingsSent ∧
      (stateAt turn (.init us) turns (n+1)).wdRefMs = (stateAt turn (.init us) turns n).wdRefMs
  addressed : ∀ n r, (outs turn (.init us) turns)[n]? = some r → r.addressed = true →
    (stateAt turn (.init us) turns (n+1)).recoveryCycles = 0 ∧
    (stateAt turn (.init us) turns (n+1)).pingsSent ≤ 1 ∧ (r.event = none ∨ r.event = some .ping)

variable {us : Nat} {turns : List Turn}

theorem recordAt {n : Nat} {r : Record} (here : (outs turn (.init us) turns)[n]? = some r) :
    ∃ t, turns[n]? = some t ∧ r = (turn (stateAt turn (.init us) turns n) t).2 ∧
      stateAt turn (.init us) turns (n+1) = (turn (stateAt turn (.init us) turns n) t).1 := by
  have inside := (List.getElem?_eq_some_iff.mp here).1
  rw [outsLength] at inside
  have at_ : turns[n]? = some turns[n] := List.getElem?_eq_getElem inside
  exact ⟨turns[n],at_,outStep turn (.init us) at_ here,stateNext turn (.init us) at_⟩

theorem standsBefore (us : Nat) (turns : List Turn) (n : Nat) :
    Standing (stateAt turn (.init us) turns n) ((outs turn (.init us) turns).take n) := by
  have stands := standsAt us (turns.take n)
  rw [outsTake] at stands
  exact stands

theorem lateOnly {n : Nat} {r : Record} (here : (outs turn (.init us) turns)[n]? = some r)
    (dead : r.event = some (.restart .silentLink)) :
    ∃ older recent, (outs turn (.init us) turns).take (n+1) = older ++ recent ∧
      (∀ r ∈ recent, r.addressed = false) ∧ wupsRxRebootCycle ≤ cycles recent ∧
      (0 < accepted (older ++ recent) ∨ wupsRxRebootGarbageMin.toNat ≤ received recent) := by
  obtain ⟨t,_,same,next⟩ := recordAt here
  have stands := standsBefore us turns n
  have after := standsBefore us turns (n+1)
  rw [next] at after
  cases addressed : r.addressed with
  | true =>
    rw [same] at addressed dead
    rcases (stands.addressedTurn addressed).2.2 with none | ping
    · exact nomatch none.symm.trans dead
    · exact nomatch ping.symm.trans dead
  | false =>
    rw [same] at addressed dead
    obtain ⟨w₀,_,moves⟩ := stands.otherTurn addressed
    obtain ⟨older,recent,split,stretch⟩ := after.stretch
    obtain ⟨many,why⟩ := moves.dead dead
    refine ⟨older,recent,split,stretch.silent,by rw [stretch.cycles]; exact many,?_⟩
    rcases why with frames | bytes
    · left
      rw [← moves.framesRx,after.frames,split] at frames
      by_contra none
      rw [Nat.eq_zero_of_not_pos none] at frames
      exact absurd frames (by decide)
    · right
      have kept : garbage w₀ = garbage (turn (stateAt turn (.init us) turns n) t).1 := by
        show _-_ = _-_
        rw [moves.bytesRx,moves.bytesAtLastFrame]
      rw [kept,stretch.garbage] at bytes
      have low := UInt32.le_iff_toNat_le.mp bytes
      rw [UInt32.toNat_ofNat'] at low
      exact low.trans (Nat.mod_le _ _)

theorem deliveredFew {r : Record} (inside : r ∈ outs turn (.init us) turns) : r.delivered.length ≤ r.received := by
  obtain ⟨n,here⟩ := List.mem_iff_getElem?.mp inside
  obtain ⟨t,_,same,_⟩ := recordAt here
  rw [same]
  rcases turnCases (stateAt turn (.init us) turns n) t with ⟨_,still⟩ | ⟨b,stopped,read⟩
  · rw [still]
    exact Nat.le_refl 0
  · have reads := turnReads stopped read (standsBefore us turns n).past
    rw [reads.received]
    exact reads.delivers.few

theorem rxWatchdog (us : Nat) (turns : List Turn) : Laddered us turns where
  late n r here dead := lateOnly here dead
  cycle n r here cycle := by
    obtain ⟨t,_,same,next⟩ := recordAt here
    have stands := standsBefore us turns n
    rw [next]
    cases addressed : r.addressed with
    | true =>
      rw [same] at addressed cycle
      rcases (stands.addressedTurn addressed).2.2 with none | ping
      · rw [none] at cycle; cases cycle
      · rw [ping] at cycle; cases cycle
    | false =>
      rw [same] at addressed cycle
      obtain ⟨w₀,from_,moves⟩ := stands.otherTurn addressed
      refine ⟨rfl,?_,?_⟩
      · rw [← from_.pingsSent]
        exact moves.probed cycle
      · rw [← from_.refUs]
        exact moves.slow (by rw [from_.wdRefMs,from_.refUs]; exact stands.reference) cycle
  silent nothing r inside dead := by
    obtain ⟨n,here⟩ := List.mem_iff_getElem?.mp inside
    obtain ⟨older,recent,split,_,_,why⟩ := lateOnly here dead
    have none (rs : List Record) (part : ∀ x ∈ rs, x ∈ outs turn (.init us) turns) :
        received rs = 0 ∧ accepted rs = 0 := by
      refine ⟨List.sum_eq_zero_iff_forall_eq_nat.mpr fun m mem => ?_,
        List.sum_eq_zero_iff_forall_eq_nat.mpr fun m mem => ?_⟩
      · obtain ⟨x,inside,rfl⟩ := List.mem_map.mp mem
        exact nothing x (part x inside)
      · obtain ⟨x,inside,rfl⟩ := List.mem_map.mp mem
        exact Nat.le_zero.mp ((deliveredFew (part x inside)).trans (nothing x (part x inside)).le)
    have whole (x) (mem : x ∈ older ++ recent) : x ∈ outs turn (.init us) turns := by
      rw [← split] at mem
      exact List.mem_of_mem_take mem
    rcases why with frames | bytes
    · exact absurd (none _ whole).2 (Nat.ne_of_gt frames)
    · rw [(none recent fun x mem => whole x (List.mem_append_right _ mem)).1] at bytes
      exact absurd bytes (by decide)
  reinstalled ok r inside failed := by
    obtain ⟨n,here⟩ := List.mem_iff_getElem?.mp inside
    obtain ⟨t,at_,same,_⟩ := recordAt here
    have stands := standsBefore us turns n
    rw [same] at failed
    cases addressed : (turn (stateAt turn (.init us) turns n) t).2.addressed with
    | true =>
      rcases (stands.addressedTurn addressed).2.2 with none | ping
      · exact nomatch none.symm.trans failed
      · exact nomatch ping.symm.trans failed
    | false =>
      obtain ⟨w₀,_,moves⟩ := stands.otherTurn addressed
      exact absurd ((moves.failed failed).symm.trans (ok t (List.mem_of_getElem? at_))) Bool.false_ne_true
  others n r here other := by
    obtain ⟨t,at_,same,next⟩ := recordAt here
    have stands := standsBefore us turns n
    rw [next]
    rw [same] at other
    obtain ⟨w₀,from_,moves⟩ := stands.otherTurn other
    refine ⟨?_,moves.bytesAtLastFrame.trans from_.bytesAtLastFrame,fun t' at' off none => ?_⟩
    · rw [moves.counted,from_.recoveryCycles,same,← List.nil_append [_],cyclesConcat]
      exact congrArg _ (Nat.zero_add _).symm
    · rw [at_] at at'
      cases at'
      rw [same] at none
      obtain ⟨pings,window⟩ := moves.stays none off
      exact ⟨pings.trans from_.pingsSent,window.trans from_.wdRefMs⟩
  addressed n r here addressed := by
    obtain ⟨t,_,same,next⟩ := recordAt here
    rw [same] at addressed
    rw [next,same]
    exact (standsBefore us turns n).addressedTurn addressed
end Web3PiUps.WupsRxWatchdog
