import Web3PiUps.WupsProtocol
import Web3PiUps.Lib.StepMachine

/-! The trust-anchor screen of the RP2040, after `trust_ui.cpp`: the prompt it shows, the
hold of both buttons, and the results and button events it sends. Times are milliseconds
since boot; the code sees them in 32 bits. -/
namespace Web3PiUps.Rp2040TrustUi
open WupsProtocol StepMachine

abbrev confirmTimeoutMs : UInt32 := 150000
abbrev displayTtlMs : UInt32 := 90000
abbrev releaseGrace : UInt8 := 2
abbrev resConfirmed : UInt8 := 0
abbrev resTimeout : UInt8 := 1
abbrev promptHdrBytes : Nat := 8
abbrev textCap : Nat := 240

/-- A `ui.trust_prompt` as it is taken over, with the sequence number of its request. -/
structure Prompt where
  mode : UInt8
  confirmSecs : UInt8
  nonce : UInt32
  reqSeq : UInt8
  text : Bytes
  deriving DecidableEq, Repr

structure Ui where
  active : Bool
  mode : UInt8
  confirmSecs : UInt8
  nonce : UInt32
  reqSeq : UInt8
  t0Ms : UInt32
  holdStartMs : UInt32
  releaseMiss : UInt8
  menuBtnInitialized : Bool
  menuPrevLeft : Bool
  menuPrevRight : Bool
  text : Bytes
  deriving DecidableEq, Repr

def Ui.boot : Ui := ⟨false,0,0,0,0,0,0,0,false,false,false,[]⟩

structure TrustResult where
  result : UInt8
  nonce : UInt32
  reqSeq : UInt8
  deriving DecidableEq, Repr

inductive Sent where
  | trustResult (r : TrustResult)
  | buttonEvent (button action : UInt8)
  deriving DecidableEq, Repr

def Sent.isResult : Sent → Bool
  | .trustResult _ => true
  | .buttonEvent _ _ => false

theorem noResult {out : List Sent} (quiet : ∀ r, .trustResult r ∉ out) : out.countP Sent.isResult = 0 := by
  rw [List.countP_eq_zero]
  intro sent mem result
  cases sent with
  | trustResult r => exact quiet r mem
  | buttonEvent button action => exact absurd result nofun

def nonceOf (payload : Bytes) : UInt32 :=
  (payload.getD 4 0).toUInt32 + 0x100*(payload.getD 5 0).toUInt32 + 0x10000*(payload.getD 6 0).toUInt32 +
    0x1000000*(payload.getD 7 0).toUInt32

/-- The checks of `trust_ui_on_prompt`. -/
def readPrompt (payload : Bytes) (reqSeq : UInt8) : Option Prompt :=
  let textLen := (payload.getD 3 0).toNat
  if payload.length < promptHdrBytes then none
  else if payload.getD 0 0 ≠ 1 then none
  else if promptHdrBytes + textLen > payload.length then none
  else some ⟨payload.getD 1 0,payload.getD 2 0,nonceOf payload,reqSeq,
    (payload.drop promptHdrBytes).take (min textLen textCap)⟩

def trustUiOnPrompt (s : Ui) (payload : Bytes) (reqSeq : UInt8) (millis : UInt32) : Ui :=
  match readPrompt payload reqSeq with
  | none => s
  | some p =>
    { s with
      active := true, mode := p.mode, confirmSecs := p.confirmSecs, nonce := p.nonce, reqSeq := p.reqSeq
      t0Ms := millis, holdStartMs := 0, releaseMiss := 0, menuBtnInitialized := false, text := p.text }

def trustUiForceClose (s : Ui) : Ui := { s with active := false, holdStartMs := 0, releaseMiss := 0 }

def sendResult (s : Ui) (result : UInt8) : Sent := .trustResult ⟨result,s.nonce,s.reqSeq⟩

/-- The press edges of the menu and the wallet screen. -/
def presses (s : Ui) (left right : Bool) : List Sent :=
  (if left && !s.menuPrevLeft then [.buttonEvent 0 0] else []) ++
    (if right && !s.menuPrevRight then [.buttonEvent 1 0] else [])

def menuTick (s : Ui) (left right : Bool) (now : UInt32) : Ui × List Sent :=
  if now - s.t0Ms > confirmTimeoutMs then ({ s with active := false },[sendResult s resTimeout])
  else if s.menuBtnInitialized = false then
    ({ s with menuPrevLeft := left, menuPrevRight := right, menuBtnInitialized := true },[])
  else ({ s with menuPrevLeft := left, menuPrevRight := right },presses s left right)

def displayTick (s : Ui) (now : UInt32) : Ui :=
  if now - s.t0Ms > displayTtlMs then { s with active := false } else s

def confirmTick (s : Ui) (left right : Bool) (now : UInt32) : Ui × List Sent :=
  if now - s.t0Ms > confirmTimeoutMs then ({ s with active := false },[sendResult s resTimeout])
  else if left && right then
    let start := if s.holdStartMs = 0 then now else s.holdStartMs
    let s := { s with releaseMiss := 0, holdStartMs := start }
    if now - start ≥ s.confirmSecs.toUInt32 * 1000 then ({ s with active := false },[sendResult s resConfirmed])
    else (s,[])
  else if s.holdStartMs ≠ 0 then
    let s := { s with releaseMiss := s.releaseMiss + 1 }
    if s.releaseMiss ≤ releaseGrace then (s,[]) else ({ s with holdStartMs := 0 },[])
  else (s,[])

/-- The menu and the wallet screen. -/
def Menu (mode : UInt8) : Prop := mode = 2 ∨ mode = 3
instance (mode) : Decidable (Menu mode) := by unfold Menu; infer_instance

def trustUiTick (s : Ui) (left right : Bool) (now : UInt32) : Ui × List Sent :=
  if s.active = false then (s,[])
  else if Menu s.mode then menuTick s left right now
  else if s.confirmSecs = 0 then (displayTick s now,[])
  else confirmTick s left right now

inductive Input where
  | prompt (payload : Bytes) (reqSeq : UInt8) (time : Nat)
  | tick (left right : Bool) (time : Nat)
  | forceClose
  deriving DecidableEq, Repr

def step (s : Ui) : Input → Ui × List Sent
  | .prompt payload reqSeq time => (trustUiOnPrompt s payload reqSeq (UInt32.ofNat time),[])
  | .tick left right time => trustUiTick s left right (UInt32.ofNat time)
  | .forceClose => (trustUiForceClose s,[])

def accepted : Input → Option Prompt
  | .prompt payload reqSeq _ => readPrompt payload reqSeq
  | _ => none

structure Tick where
  both : Bool
  time : Nat
  deriving DecidableEq, Repr

def Tick.millis (t : Tick) : UInt32 := UInt32.ofNat t.time

def tickOf : Input → Option Tick
  | .tick left right time => some ⟨left && right,time⟩
  | _ => none

def ticks (inputs : List Input) : List Tick := inputs.filterMap tickOf

/-- The ticks end in a hold of both buttons of that many seconds, in which neither more than
two consecutive ticks lack a button nor the first and the last do. -/
def HeldDown (secs : Nat) (ticks : List Tick) : Prop :=
  ∃ older held first last, ticks = older ++ held ∧ held.head? = some first ∧ held.getLast? = some last ∧
    first.both = true ∧ last.both = true ∧
    (∀ a b c, [a,b,c] <:+: held → a.both = true ∨ b.both = true ∨ c.both = true) ∧
    secs*1000 ≤ (last.millis - first.millis).toNat ∧ (first.time ≤ last.time → first.time + secs*1000 ≤ last.time)

/-- The result `r`, sent at input `i`, answers the prompt that came with `shown`. -/
structure Answers (fingerprint displayOnly : Prompt → Prop) (past since : List Input) (shown i : Input) (p : Prompt)
    (r : TrustResult) : Prop where
  prompt : accepted shown = some p
  current : ∀ j ∈ since, accepted j = none ∧ j ≠ .forceClose
  first : ∀ r, .trustResult r ∉ (outs step (final step .boot (past ++ [shown])) since).flatten
  echoes : r.nonce = p.nonce ∧ r.reqSeq = p.reqSeq
  expected : ¬displayOnly p
  held : r.result = resConfirmed →
    fingerprint p ∧ 0 < p.confirmSecs.toNat ∧ (tickOf i).isSome ∧ HeldDown p.confirmSecs.toNat (ticks (since ++ [i]))

/-- Every result of every run answers the prompt then shown, as its first and only one. -/
def RealHolds (fingerprint displayOnly : Prompt → Prop) : Prop :=
  ∀ inputs i, (step (final step .boot inputs) i).2.countP Sent.isResult ≤ 1 ∧
    ∀ r, .trustResult r ∈ (step (final step .boot inputs) i).2 →
      ∃ past shown since p, inputs = past ++ shown::since ∧ Answers fingerprint displayOnly past since shown i p r

/-! A hold in progress: its first tick, and how many ticks without both buttons it ends in. -/

inductive Holding (first : Tick) : Nat → List Tick → Prop where
  | start (down : first.both = true) : Holding first 0 [first]
  | hold {miss held t} (before : Holding first miss held) (down : t.both = true) : Holding first 0 (held ++ [t])
  | slip {miss held t} (before : Holding first miss held) (up : t.both = false) (short : miss < 2) :
      Holding first (miss+1) (held ++ [t])

section Holding
variable {first : Tick} {miss : Nat} {held : List Tick}

theorem Holding.head (h : Holding first miss held) : first.both = true ∧ held.head? = some first := by
  induction h with
  | start down => exact ⟨down,rfl⟩
  | hold before down ih => exact ⟨ih.1,by rw [List.head?_append,ih.2]; rfl⟩
  | slip before up short ih => exact ⟨ih.1,by rw [List.head?_append,ih.2]; rfl⟩

theorem suffixConcat {l m : List Tick} {a t : Tick} (h : m ++ [a] <:+ l ++ [t]) : a = t ∧ m <:+ l := by
  obtain ⟨front,same⟩ := h
  rw [← List.append_assoc] at same
  obtain ⟨rest,last⟩ := List.append_inj' same rfl
  exact ⟨List.singleton_inj.mp last,front,rest⟩

/-- Of the last `miss + 1` ticks one has both buttons down. -/
theorem Holding.recent (h : Holding first miss held) :
    (miss = 0 → ∀ a, [a] <:+ held → a.both = true) ∧
      (miss ≤ 1 → ∀ a b, [a,b] <:+ held → a.both = true ∨ b.both = true) := by
  induction h with
  | start down =>
    refine ⟨fun _ a suffix => ?_,fun _ a b suffix => ?_⟩
    · cases List.singleton_inj.mp (suffix.eq_of_length rfl)
      exact down
    · exact absurd suffix.length_le (by simp)
  | hold before down ih =>
    refine ⟨fun _ a suffix => ?_,fun _ a b suffix => ?_⟩
    · obtain ⟨rfl,-⟩ := suffixConcat (m := []) suffix
      exact down
    · obtain ⟨rfl,-⟩ := suffixConcat (m := [a]) suffix
      exact .inr down
  | slip before up short ih =>
    refine ⟨nofun,fun low a b suffix => ?_⟩
    obtain ⟨-,earlier⟩ := suffixConcat (m := [a]) suffix
    exact .inl (ih.1 (by omega) a earlier)

theorem Holding.gaps (h : Holding first miss held) {a b c : Tick} (inside : [a,b,c] <:+: held) :
    a.both = true ∨ b.both = true ∨ c.both = true := by
  induction h with
  | start down => exact absurd inside.length_le (by simp)
  | hold before down ih =>
    rcases List.infix_concat_iff.mp inside with last | earlier
    · obtain ⟨rfl,-⟩ := suffixConcat (m := [a,b]) last
      exact .inr (.inr down)
    · exact ih earlier
  | slip before up short ih =>
    rcases List.infix_concat_iff.mp inside with last | earlier
    · obtain ⟨-,recent⟩ := suffixConcat (m := [a,b]) last
      exact (before.recent.2 (by omega) a b recent).imp_right .inl
    · exact ih earlier

theorem Holding.missLe (h : Holding first miss held) : miss ≤ 2 := by
  induction h with
  | start down => exact Nat.zero_le 2
  | hold before down ih => exact Nat.zero_le 2
  | slip before up short ih => exact short

theorem Holding.heldDown (h : Holding first 0 held) {older : List Tick} {last : Tick} {secs : Nat}
    (ends : held.getLast? = some last) (long : secs*1000 ≤ (last.millis - first.millis).toNat) :
    HeldDown secs (older ++ held) := by
  refine ⟨older,held,first,last,rfl,h.head.2,ends,h.head.1,?_,fun a b c inside => h.gaps inside,long,fun ordered => ?_⟩
  · exact h.recent.1 rfl last (List.singleton_suffix_iff_getLast?_eq_some.mpr ends)
  · simp only [Tick.millis,UInt32.toNat_sub,UInt32.toNat_ofNat'] at long
    omega

end Holding

/-! The prompt on the screen, after any inputs. -/

structure Shows (inputs : List Input) (s : Ui) (past since : List Input) (shown : Input) (p : Prompt) : Prop where
  split : inputs = past ++ shown::since
  prompt : accepted shown = some p
  current : ∀ j ∈ since, accepted j = none ∧ j ≠ .forceClose
  quiet : ∀ r, .trustResult r ∉ (outs step (final step .boot (past ++ [shown])) since).flatten
  fields : s.mode = p.mode ∧ s.confirmSecs = p.confirmSecs ∧ s.nonce = p.nonce ∧ s.reqSeq = p.reqSeq
  holds : s.holdStartMs ≠ 0 → ¬Menu p.mode ∧ p.confirmSecs ≠ 0 ∧ ∃ older first held,
    ticks since = older ++ held ∧ Holding first s.releaseMiss.toNat held ∧ s.holdStartMs = first.millis

def Standing (inputs : List Input) : Prop :=
  (final step .boot inputs).active = true →
    ∃ past since shown p, Shows inputs (final step .boot inputs) past since shown p

section Steps
variable {inputs past since : List Input} {shown i : Input} {p : Prompt}

theorem ticksConcat (since : List Input) (i : Input) : ticks (since ++ [i]) = ticks since ++ (tickOf i).toList := by
  rw [ticks,List.filterMap_append]
  cases at_ : tickOf i with
  | none => simp [ticks,at_]
  | some t => simp [ticks,at_]

theorem Shows.outs (h : Shows inputs (final step .boot inputs) past since shown p) :
    StepMachine.outs step (final step .boot (past ++ [shown])) (since ++ [i]) =
      StepMachine.outs step (final step .boot (past ++ [shown])) since ++ [(step (final step .boot inputs) i).2] := by
  have here : final step (final step .boot (past ++ [shown])) since = final step .boot inputs := by
    rw [← finalAppend,List.append_assoc,List.singleton_append,← h.split]
  rw [outsAppend,here]
  rfl

theorem Shows.grow (h : Shows inputs (final step .boot inputs) past since shown p)
    (same : accepted i = none ∧ i ≠ .forceClose)
    (quiet : ∀ r, .trustResult r ∉ (step (final step .boot inputs) i).2) {s' : Ui}
    (fields : s'.mode = p.mode ∧ s'.confirmSecs = p.confirmSecs ∧ s'.nonce = p.nonce ∧ s'.reqSeq = p.reqSeq)
    (holds : s'.holdStartMs ≠ 0 → ¬Menu p.mode ∧ p.confirmSecs ≠ 0 ∧ ∃ older first held,
      ticks (since ++ [i]) = older ++ held ∧ Holding first s'.releaseMiss.toNat held ∧ s'.holdStartMs = first.millis) :
    Shows (inputs ++ [i]) s' past (since ++ [i]) shown p := by
  refine ⟨by rw [h.split]; simp,h.prompt,fun j mem => ?_,fun r mem => ?_,fields,holds⟩
  · rcases List.mem_append.mp mem with old | new
    · exact h.current j old
    · cases List.mem_singleton.mp new
      exact same
  · rw [h.outs,List.flatten_append] at mem
    rcases List.mem_append.mp mem with old | new
    · exact h.quiet r old
    · exact quiet r (by simpa using new)

theorem Shows.answers {fingerprint displayOnly : Prompt → Prop} (h : Shows inputs (final step .boot inputs) past since shown p)
    {result : UInt8} (expected : ¬displayOnly p)
    (held : result = resConfirmed → fingerprint p ∧ 0 < p.confirmSecs.toNat ∧ (tickOf i).isSome ∧
      HeldDown p.confirmSecs.toNat (ticks (since ++ [i]))) {r : TrustResult}
    (mem : .trustResult r ∈ [sendResult (final step .boot inputs) result]) :
    Answers fingerprint displayOnly past since shown i p r := by
  obtain ⟨-,-,nonce,reqSeq⟩ := h.fields
  have same : r = ⟨result,(final step .boot inputs).nonce,(final step .boot inputs).reqSeq⟩ := by
    simpa [sendResult] using mem
  subst same
  exact ⟨h.prompt,h.current,h.quiet,⟨nonce,reqSeq⟩,expected,held⟩

/-! A tick either leaves the prompt standing, or closes it in silence or with one result. -/

/-- The code tells a fingerprint by its hold time, outside the menu and the wallet screen. -/
def Fingerprint (p : Prompt) : Prop := ¬Menu p.mode ∧ p.confirmSecs ≠ 0
def DisplayOnly (p : Prompt) : Prop := ¬Menu p.mode ∧ p.confirmSecs = 0

inductive Outcome (inputs past since : List Input) (shown i : Input) (p : Prompt) (s' : Ui) (out : List Sent) : Prop where
  | stands (quiet : ∀ r, .trustResult r ∉ out) (shows_ : Shows (inputs ++ [i]) s' past (since ++ [i]) shown p)
  | closes (quiet : ∀ r, .trustResult r ∉ out) (closed : s'.active = false)
  | answers (result : UInt8) (closed : s'.active = false) (sent : out = [sendResult (final step .boot inputs) result])
      (expected : ¬DisplayOnly p) (held : result = resConfirmed → Fingerprint p ∧ 0 < p.confirmSecs.toNat ∧
        (tickOf i).isSome ∧ HeldDown p.confirmSecs.toNat (ticks (since ++ [i])))

theorem pressesQuiet (s : Ui) (left right : Bool) (r : TrustResult) : .trustResult r ∉ presses s left right := by
  unfold presses
  split <;> split <;> simp

section Outcomes
variable {s : Ui} {s' : Ui} {out : List Sent} {left right : Bool} {time : Nat}

theorem Shows.stands (h : Shows inputs (final step .boot inputs) past since shown p)
    (next : step (final step .boot inputs) (.tick left right time) = (s',out))
    (quiet : ∀ r, .trustResult r ∉ out)
    (fields : s'.mode = p.mode ∧ s'.confirmSecs = p.confirmSecs ∧ s'.nonce = p.nonce ∧ s'.reqSeq = p.reqSeq)
    (holds : s'.holdStartMs ≠ 0 → ¬Menu p.mode ∧ p.confirmSecs ≠ 0 ∧ ∃ older first held,
      ticks since ++ [⟨left && right,time⟩] = older ++ held ∧ Holding first s'.releaseMiss.toNat held ∧
        s'.holdStartMs = first.millis) :
    Outcome inputs past since shown (.tick left right time) p s' out := by
  refine .stands quiet (h.grow ⟨rfl,by simp⟩ (by rw [next]; exact quiet) fields fun holding => ?_)
  rw [ticksConcat]
  exact holds holding

theorem menuOutcome (h : Shows inputs (final step .boot inputs) past since shown p) (menu : Menu p.mode)
    (next : step (final step .boot inputs) (.tick left right time) = (s',out))
    (ticked : menuTick (final step .boot inputs) left right (UInt32.ofNat time) = (s',out)) :
    Outcome inputs past since shown (.tick left right time) p s' out := by
  have idle : (final step .boot inputs).holdStartMs = 0 := by
    by_contra holding
    exact (h.holds holding).1 menu
  unfold menuTick at ticked
  split at ticked
  · cases ticked
    exact .answers resTimeout rfl rfl (fun only => only.1 menu) nofun
  · split at ticked
    · cases ticked
      exact h.stands next nofun h.fields fun holding => absurd idle holding
    · cases ticked
      exact h.stands next (pressesQuiet _ left right) h.fields fun holding => absurd idle holding

theorem displayOutcome (h : Shows inputs (final step .boot inputs) past since shown p)
    (display : p.confirmSecs = 0)
    (next : step (final step .boot inputs) (.tick left right time) = (s',out))
    (ticked : (displayTick (final step .boot inputs) (UInt32.ofNat time),[]) = (s',out)) :
    Outcome inputs past since shown (.tick left right time) p s' out := by
  unfold displayTick at ticked
  cases ticked
  split
  · exact .closes nofun rfl
  · rename_i young
    rw [if_neg young] at next
    exact h.stands next nofun h.fields fun holding => absurd display (h.holds holding).2.1

theorem Shows.holdsOn (h : Shows inputs (final step .boot inputs) past since shown p) (time : Nat) :
    ∃ older first held, ticks since ++ [⟨true,time⟩] = older ++ held ∧ Holding first 0 held ∧
      held.getLast? = some ⟨true,time⟩ ∧
      (if (final step .boot inputs).holdStartMs = 0 then UInt32.ofNat time
        else (final step .boot inputs).holdStartMs) = first.millis := by
  by_cases idle : (final step .boot inputs).holdStartMs = 0
  · refine ⟨ticks since,⟨true,time⟩,[⟨true,time⟩],rfl,.start rfl,rfl,?_⟩
    rw [if_pos idle]
    rfl
  · obtain ⟨-,-,older,first,held,same,hold,start⟩ := h.holds idle
    refine ⟨older,first,held ++ [⟨true,time⟩],?_,.hold hold rfl,List.getLast?_concat,?_⟩
    · rw [same,List.append_assoc]
    · rw [if_neg idle]
      exact start

theorem longEnough {now start : UInt32} {secs : UInt8} (h : now - start ≥ secs.toUInt32*1000) :
    secs.toNat*1000 ≤ (now - start).toNat := by
  have secsLt := secs.toNat_lt
  have ms : (secs.toUInt32*1000).toNat = secs.toNat*1000 := by
    rw [UInt32.toNat_mul,UInt8.toNat_toUInt32]
    refine Nat.mod_eq_of_lt ?_
    change secs.toNat*1000 < 2^32
    omega
  rw [← ms]
  exact UInt32.le_iff_toNat_le.mp h

theorem confirmOutcome (h : Shows inputs (final step .boot inputs) past since shown p)
    (plain : ¬Menu p.mode) (confirm : p.confirmSecs ≠ 0)
    (next : step (final step .boot inputs) (.tick left right time) = (s',out))
    (ticked : confirmTick (final step .boot inputs) left right (UInt32.ofNat time) = (s',out)) :
    Outcome inputs past since shown (.tick left right time) p s' out := by
  have positive : 0 < p.confirmSecs.toNat := by
    rw [Nat.pos_iff_ne_zero]
    exact fun zero => confirm (UInt8.toNat_inj.mp zero)
  have answerable : ¬DisplayOnly p := fun only => confirm only.2
  unfold confirmTick at ticked
  split at ticked
  · cases ticked
    exact .answers resTimeout rfl rfl answerable nofun
  split at ticked
  · rename_i both
    obtain ⟨older,first,held,same,hold,ends,start⟩ := h.holdsOn time
    simp only at ticked
    rw [start] at ticked
    split at ticked
    · rename_i long
      cases ticked
      refine .answers resConfirmed rfl rfl answerable fun _ => ⟨⟨plain,confirm⟩,positive,rfl,?_⟩
      rw [ticksConcat]
      simp only [tickOf,both,Option.toList_some]
      rw [same]
      rw [h.fields.2.1] at long
      exact hold.heldDown ends (longEnough long)
    · cases ticked
      refine h.stands next nofun h.fields fun _ => ⟨plain,confirm,older,first,held,?_,hold,rfl⟩
      rw [both]
      exact same
  · rename_i up
    have up : (left && right) = false := Bool.eq_false_iff.mpr up
    split at ticked
    · rename_i holding
      obtain ⟨-,-,older,first,held,same,hold,start⟩ := h.holds holding
      simp only at ticked
      split at ticked
      · rename_i within
        cases ticked
        have short : (final step .boot inputs).releaseMiss.toNat + 1 ≤ 2 := by
          have le := hold.missLe
          have grace := UInt8.le_iff_toNat_le.mp within
          rw [UInt8.toNat_add] at grace
          change (_ + 1) % 256 ≤ 2 at grace
          omega
        have miss : ((final step .boot inputs).releaseMiss + 1).toNat =
            (final step .boot inputs).releaseMiss.toNat + 1 := by
          rw [UInt8.toNat_add]
          exact Nat.mod_eq_of_lt (by change _ + 1 < _; omega)
        refine h.stands next nofun h.fields fun _ =>
          ⟨plain,confirm,older,first,held ++ [⟨left && right,time⟩],?_,?_,start⟩
        · rw [same,List.append_assoc]
        · rw [miss]
          exact .slip hold up (by omega)
      · cases ticked
        exact h.stands next nofun h.fields fun idle => absurd rfl idle
    · rename_i idle
      cases ticked
      exact h.stands next nofun h.fields fun holding => absurd holding idle

theorem tickOutcome (h : Shows inputs (final step .boot inputs) past since shown p)
    (active : (final step .boot inputs).active = true) (left right : Bool) (time : Nat) :
    Outcome inputs past since shown (.tick left right time) p
      (step (final step .boot inputs) (.tick left right time)).1
      (step (final step .boot inputs) (.tick left right time)).2 := by
  obtain ⟨mode,secs,-,-⟩ := h.fields
  have ticked : trustUiTick (final step .boot inputs) left right (UInt32.ofNat time) =
      step (final step .boot inputs) (.tick left right time) := rfl
  unfold trustUiTick at ticked
  rw [if_neg (by rw [active]; nofun),mode,secs] at ticked
  split at ticked
  · rename_i menu
    exact menuOutcome h menu rfl ticked
  · rename_i plain
    split at ticked
    · rename_i display
      exact displayOutcome h display rfl ticked
    · rename_i confirm
      exact confirmOutcome h plain confirm rfl ticked

end Outcomes
end Steps

/-- Whatever the screen shows came with an accepted prompt that nothing has replaced or answered. -/
theorem standing (inputs : List Input) : Standing inputs := by
  induction inputs using List.reverseRecOn with
  | nil => exact nofun
  | append_singleton inputs i ih =>
    intro active
    rw [finalAppend] at active ⊢
    change (step (final step .boot inputs) i).1.active = true at active
    change ∃ past since shown p, Shows _ (step (final step .boot inputs) i).1 past since shown p
    cases i with
    | prompt payload reqSeq time =>
      cases read : readPrompt payload reqSeq with
      | some p =>
        refine ⟨inputs,[],.prompt payload reqSeq time,p,rfl,read,nofun,nofun,?_,?_⟩
        · simp [step,trustUiOnPrompt,read]
        · simp [step,trustUiOnPrompt,read]
      | none =>
        have same : step (final step .boot inputs) (.prompt payload reqSeq time) = (final step .boot inputs,[]) := by
          simp only [step,trustUiOnPrompt,read]
        rw [same] at active ⊢
        obtain ⟨past,since,shown,p,h⟩ := ih active
        refine ⟨past,since ++ [.prompt payload reqSeq time],shown,p,
          h.grow (i := .prompt payload reqSeq time) ⟨read,by simp⟩ (by rw [same]; nofun) h.fields fun holding => ?_⟩
        rw [ticksConcat]
        simpa [tickOf] using h.holds holding
    | forceClose => exact absurd active nofun
    | tick left right time =>
      have open_ : (final step .boot inputs).active = true := by
        by_contra closed
        have closed : (final step .boot inputs).active = false := Bool.eq_false_iff.mpr closed
        simp [step,trustUiTick,closed] at active
      obtain ⟨past,since,shown,p,h⟩ := ih open_
      cases tickOutcome h open_ left right time with
      | stands quiet shows_ => exact ⟨_,_,_,_,shows_⟩
      | closes quiet closed => exact absurd (closed.symm.trans active) nofun
      | answers result closed => exact absurd (closed.symm.trans active) nofun

/-- A confirmation needs a real hold on the screen of a fingerprint, and no prompt is answered
twice, after it is gone, or without a question. -/
theorem realHolds : RealHolds Fingerprint DisplayOnly := by
  intro inputs i
  cases i with
  | prompt payload reqSeq time => exact ⟨Nat.zero_le 1,nofun⟩
  | forceClose => exact ⟨Nat.zero_le 1,nofun⟩
  | tick left right time =>
    by_cases active : (final step .boot inputs).active = true
    · obtain ⟨past,since,shown,p,h⟩ := standing inputs active
      cases tickOutcome h active left right time with
      | stands quiet _ =>
        exact ⟨by rw [noResult quiet]; exact Nat.zero_le 1,fun r sent => absurd sent (quiet r)⟩
      | closes quiet _ =>
        exact ⟨by rw [noResult quiet]; exact Nat.zero_le 1,fun r sent => absurd sent (quiet r)⟩
      | answers result closed sent expected held =>
        rw [sent]
        exact ⟨Nat.le_refl 1,fun r mem => ⟨past,shown,since,p,h.split,h.answers expected held mem⟩⟩
    · have still : step (final step .boot inputs) (.tick left right time) = (final step .boot inputs,[]) := by
        simp [step,trustUiTick,active]
      rw [still]
      exact ⟨Nat.zero_le 1,nofun⟩

/-! A claim code that asks for a hold of one second gets one, and is confirmed. -/

def claimCode : Bytes := [1,1,1,0,7,0,0,0]
def pressed : List Input := [.prompt claimCode 3 500,.tick true true 1000]

theorem claimCodeConfirmed : ¬RealHolds (fun p => p.mode = 0) (fun p => p.mode = 1) := by
  intro real
  have sent : .trustResult ⟨resConfirmed,7,3⟩ ∈ (step (final step .boot pressed) (.tick true true 2000)).2 := by decide
  obtain ⟨past,shown,since,p,split,answers⟩ := (real pressed _).2 _ sent
  have mem : shown ∈ pressed := by rw [split]; simp
  have mode : ∀ j ∈ pressed, ∀ p ∈ accepted j, p.mode = 1 := by decide
  exact answers.expected (mode shown mem p answers.prompt)

end Web3PiUps.Rp2040TrustUi
