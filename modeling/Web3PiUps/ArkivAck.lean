import Mathlib.Algebra.Group.Int.Defs
import Mathlib.Data.List.Pairwise
import Web3PiUps.WupsProtocol

/-! `arkiv_ack.c`: the pending table from the inner sequence number of a command to its id, and the
acknowledgements that it makes of the responses. The lock is free while one is emitted. -/
namespace Web3PiUps.ArkivAck
open WupsProtocol

abbrev arkivAckSlots : Nat := 8
abbrev arkivAckTrackTtlMs : Int := 60000
abbrev int64Max : Int := 2^63-1
/-- `sizeof` of the id of a slot, its closing zero included. -/
abbrev commandIdSize : Nat := 40
abbrev respMax : Nat := 256

structure Slot where
  used : Bool
  seq : UInt8
  expiresUs : Int
  commandId : Bytes
  deriving DecidableEq, Repr

/-- `try_dispatch_entity` drops a command whose id is not 36 characters long. -/
structure CommandId where
  text : Bytes
  fits : text.length < commandIdSize

def CommandId.stored (c : CommandId) : Bytes := c.text.take (commandIdSize-1)

def expire (now : Int) (s : Slot) : Slot := if s.used && s.expiresUs < now then { s with used := false } else s

def deadline (now : Int) : Int := now + arkivAckTrackTtlMs*1000

/-- What the loop of `arkiv_ack_track_pending` comes to. -/
inductive Scan where
  | refreshed (slots : List Slot)
  | ends (slots : List Slot) (free : Option Nat)

def Scan.cons (s : Slot) : Scan → Scan
  | .refreshed slots => .refreshed (s::slots)
  | .ends slots free => .ends (s::slots) free

def scan (now : Int) (seq : UInt8) (commandId : Bytes) (i : Nat) (free : Option Nat) : List Slot → Scan
  | [] => .ends [] free
  | s::rest =>
    let s := expire now s
    let free := if !s.used && free.isNone then some i else free
    if s.used && s.seq = seq then .refreshed ({ s with commandId := commandId, expiresUs := deadline now }::rest)
    else (scan now seq commandId (i+1) free rest).cons s

/-- The first of the slots that expire first. -/
def oldest (i : Nat) (least : Int) (found : Option Nat) : List Slot → Option Nat
  | [] => found
  | s::rest => if s.expiresUs < least then oldest (i+1) s.expiresUs (some i) rest else oldest (i+1) least found rest

def arkivAckTrackPending (now : Int) (seq : UInt8) (commandId : CommandId) (slots : List Slot) : List Slot :=
  match scan now seq commandId.stored 0 none slots with
  | .refreshed slots => slots
  | .ends slots free =>
    match free.or (oldest 0 int64Max none slots) with
    | none => slots
    | some k => slots.set k ⟨true,seq,deadline now,commandId.stored⟩

def pendingFor (now : Int) (seq : UInt8) (s : Slot) : Bool := s.used && s.seq = seq && s.expiresUs ≥ now

def arkivAckHasPending (now : Int) (seq : UInt8) (slots : List Slot) : Bool := slots.any (pendingFor now seq)

/-- An acknowledgement that is being emitted: the copy of the id, and the response. -/
structure Emission where
  seq : UInt8
  commandId : Bytes
  payload : Bytes
  deriving DecidableEq, Repr

/-- The `w3pups-ack` entity, as far as the response decides it. -/
structure Ack where
  innerSeq : UInt8
  commandId : Bytes
  code : UInt8
  deriving DecidableEq, Repr

/-- `arkiv_ack_emit` up to where it drops the lock. -/
def emitBegin (writerReady : Bool) (now : Int) (seq : UInt8) (payload : Bytes) (slots : List Slot) : Option Emission :=
  if writerReady then (slots.find? (pendingFor now seq)).map fun s => ⟨seq,s.commandId.take (commandIdSize-1),payload⟩
  else none

/-- What the sealing and the queue answer to it; a response that is too large is never sealed. -/
def emitted (e : Emission) (isSealed enqueued : Bool) : Bool := decide (e.payload.length ≤ respMax) && isSealed && enqueued

def Emission.ack (e : Emission) : Ack := ⟨e.seq,e.commandId,e.payload.headD 0⟩

def release (e : Emission) : List Slot → List Slot
  | [] => []
  | s::rest => if s.used && s.seq = e.seq && s.commandId = e.commandId then { s with used := false }::rest else s::release e rest

/-! The tasks: commands are tracked and responses answered, each lock section a step. -/

structure State where
  slots : List Slot
  emitting : List Emission
  acks : List Ack

def State.init : State := ⟨List.replicate arkivAckSlots ⟨false,0,0,[]⟩,[],[]⟩

inductive Step where
  | track (now : Int) (seq : UInt8) (commandId : CommandId)
  | respond (writerReady : Bool) (now : Int) (seq : UInt8) (payload : Bytes)
  /-- The end of the emission at a place, with what its callees answered. -/
  | finish (place : Nat) (isSealed enqueued : Bool)

def step (σ : State) : Step → State
  | .track now seq commandId => { σ with slots := arkivAckTrackPending now seq commandId σ.slots }
  | .respond writerReady now seq payload =>
    match emitBegin writerReady now seq payload σ.slots with
    | none => σ
    | some e => { σ with emitting := σ.emitting ++ [e] }
  | .finish place isSealed enqueued =>
    match σ.emitting[place]? with
    | none => σ
    | some e =>
      if emitted e isSealed enqueued then ⟨release e σ.slots,σ.emitting.eraseIdx place,σ.acks ++ [e.ack]⟩
      else { σ with emitting := σ.emitting.eraseIdx place }

def run (σ : State) (steps : List Step) : State := steps.foldl step σ

/-! What a call of `arkiv_ack_track_pending` does to the table. -/

theorem expireLive {now : Int} {s : Slot} (live : now ≤ s.expiresUs) : expire now s = s := by
  rw [expire,if_neg]
  rw [Bool.and_eq_true,decide_eq_true_iff]
  omega

theorem expireUsed {now : Int} {s : Slot} (used : (expire now s).used = true) : expire now s = s ∧ now ≤ s.expiresUs := by
  rw [expire] at used ⊢
  split at used
  · exact absurd used nofun
  · rename_i live
    rw [if_neg live]
    rw [used,Bool.true_and,decide_eq_true_iff] at live
    exact ⟨rfl,by omega⟩

def refresh (now : Int) (commandId : Bytes) (s : Slot) : Slot := { s with commandId := commandId, expiresUs := deadline now }

theorem scanRefreshed {now : Int} {seq : UInt8} {commandId : Bytes} {i : Nat} {free : Option Nat} {slots out : List Slot}
    (scanned : scan now seq commandId i free slots = .refreshed out) :
    ∃ a s b, slots = a ++ s::b ∧ s.used = true ∧ s.seq = seq ∧ now ≤ s.expiresUs ∧
      out = a.map (expire now) ++ refresh now commandId s::b := by
  induction slots generalizing i free out with
  | nil => exact absurd scanned nofun
  | cons s rest ih =>
    rw [scan] at scanned
    split at scanned
    · rename_i here
      rw [Bool.and_eq_true,decide_eq_true_iff] at here
      obtain ⟨same,live⟩ := expireUsed here.1
      rw [same] at here scanned
      cases scanned
      exact ⟨[],s,rest,rfl,here.1,here.2,live,rfl⟩
    · cases later : scan now seq commandId (i+1) (if !(expire now s).used && free.isNone then some i else free) rest with
      | refreshed tail =>
        rw [later] at scanned
        cases scanned
        obtain ⟨a,t,b,rfl,used,same,live,rfl⟩ := ih later
        exact ⟨s::a,t,b,rfl,used,same,live,rfl⟩
      | ends tail free' =>
        rw [later] at scanned
        exact absurd scanned nofun

/-- Where no slot was for `seq`, the free one is the first that was found. -/
structure Over (now : Int) (seq : UInt8) (i : Nat) (free : Option Nat) (slots out : List Slot) (free' : Option Nat) : Prop where
  expired : out = slots.map (expire now)
  others : ∀ s ∈ out, s.used = true → s.seq ≠ seq
  kept : ∀ k, free = some k → free' = some k
  full : free' = none → ∀ s ∈ out, s.used = true
  found : ∀ k, free' = some k → free = some k ∨ ∃ a s b, out = a ++ s::b ∧ k = i+a.length ∧ s.used = false

theorem scanOver {now : Int} {seq : UInt8} {commandId : Bytes} {i : Nat} {free free' : Option Nat} {slots out : List Slot}
    (scanned : scan now seq commandId i free slots = .ends out free') : Over now seq i free slots out free' := by
  induction slots generalizing i free out with
  | nil =>
    cases scanned
    exact ⟨rfl,nofun,fun _ same => same,fun _ => nofun,fun _ same => .inl same⟩
  | cons s rest ih =>
    rw [scan] at scanned
    split at scanned
    · exact absurd scanned nofun
    rename_i other
    cases later : scan now seq commandId (i+1) (if !(expire now s).used && free.isNone then some i else free) rest with
    | refreshed tail =>
      rw [later] at scanned
      exact absurd scanned nofun
    | ends tail free_ =>
      rw [later] at scanned
      cases scanned
      obtain ⟨rfl,others,kept,full,found⟩ := ih later
      refine ⟨rfl,?_,?_,?_,?_⟩
      · refine List.forall_mem_cons.mpr ⟨fun used same => ?_,others⟩
        rw [used,same] at other
        exact other (by simp)
      · rintro k rfl
        exact kept k (if_neg (by simp))
      · intro none_
        refine List.forall_mem_cons.mpr ⟨?_,full none_⟩
        by_contra idle
        cases free with
        | none => exact absurd (none_.symm.trans (kept i (if_pos (by simp [idle])))) nofun
        | some k => exact absurd (none_.symm.trans (kept k (if_neg (by simp)))) nofun
      · intro k some_
        rcases found k some_ with passed | ⟨a,t,b,parts,rfl,idle⟩
        · split at passed
          · rename_i idle
            cases passed
            rw [Bool.and_eq_true,Bool.not_eq_true'] at idle
            exact .inr ⟨[],expire now s,_,rfl,rfl,idle.1⟩
          · exact .inl passed
        · exact .inr ⟨expire now s::a,t,b,congrArg _ parts,by rw [List.length_cons]; omega,idle⟩

theorem oldestPlace {i k : Nat} {least : Int} {found : Option Nat} {slots : List Slot}
    (chosen : oldest i least found slots = some k) : found = some k ∨ ∃ a s b, slots = a ++ s::b ∧ k = i+a.length := by
  induction slots generalizing i least found with
  | nil => exact .inl chosen
  | cons s rest ih =>
    rw [oldest] at chosen
    split at chosen
    · rcases ih chosen with here | ⟨a,t,b,rfl,rfl⟩
      · cases here
        exact .inr ⟨[],s,rest,rfl,rfl⟩
      · exact .inr ⟨s::a,t,b,rfl,by rw [List.length_cons]; omega⟩
    · rcases ih chosen with here | ⟨a,t,b,rfl,rfl⟩
      · exact .inl here
      · exact .inr ⟨s::a,t,b,rfl,by rw [List.length_cons]; omega⟩

def entry (now : Int) (seq : UInt8) (commandId : CommandId) : Slot := ⟨true,seq,deadline now,commandId.stored⟩

inductive Tracked (now : Int) (seq : UInt8) (commandId : CommandId) (slots : List Slot) : List Slot → Prop
  /-- The slot of the number is taken over. -/
  | refreshed {a s b} : slots = a ++ s::b → s.used = true → s.seq = seq → now ≤ s.expiresUs →
      Tracked now seq commandId slots (a.map (expire now) ++ refresh now commandId.stored s::b)
  /-- Another slot is, and one in use only where all are. -/
  | entered {a s b} : slots.map (expire now) = a ++ s::b → (∀ x ∈ slots.map (expire now), x.used = true → x.seq ≠ seq) →
      (s.used = true → ∀ x ∈ slots.map (expire now), x.used = true) →
      Tracked now seq commandId slots (a ++ entry now seq commandId::b)
  | stuck : (∀ x ∈ slots.map (expire now), x.used = true ∧ x.seq ≠ seq) →
      Tracked now seq commandId slots (slots.map (expire now))

theorem tracked (now : Int) (seq : UInt8) (commandId : CommandId) (slots : List Slot) :
    Tracked now seq commandId slots (arkivAckTrackPending now seq commandId slots) := by
  rw [arkivAckTrackPending]
  cases scanned : scan now seq commandId.stored 0 none slots with
  | refreshed out =>
    obtain ⟨a,s,b,rfl,used,same,live,rfl⟩ := scanRefreshed scanned
    exact .refreshed rfl used same live
  | ends out free =>
    obtain ⟨rfl,others,-,full,found⟩ := scanOver scanned
    cases chosen : free.or (oldest 0 int64Max none (slots.map (expire now))) with
    | none =>
      obtain ⟨none_,-⟩ := Option.or_eq_none_iff.mp chosen
      dsimp only
      rw [chosen]
      exact .stuck fun x mem => ⟨full none_ x mem,others x mem (full none_ x mem)⟩
    | some k =>
      have place : ∃ a s b, slots.map (expire now) = a ++ s::b ∧ k = 0+a.length ∧
          (s.used = true → ∀ x ∈ slots.map (expire now), x.used = true) := by
        rcases Option.or_eq_some_iff.mp chosen with here | ⟨none_,eldest⟩
        · obtain ⟨a,s,b,parts,place,idle⟩ := (found k here).resolve_left nofun
          exact ⟨a,s,b,parts,place,fun used => absurd (idle.symm.trans used) nofun⟩
        · obtain ⟨a,s,b,parts,place⟩ := (oldestPlace eldest).resolve_left nofun
          exact ⟨a,s,b,parts,place,fun _ => full none_⟩
      obtain ⟨a,s,b,parts,place,eldest⟩ := place
      have put : (slots.map (expire now)).set k (entry now seq commandId) = a ++ entry now seq commandId::b := by
        rw [parts,place,Nat.zero_add,List.set_append_right _ _ (Nat.le_refl _),Nat.sub_self]
        rfl
      dsimp only
      rw [chosen]
      change Tracked now seq commandId slots ((slots.map (expire now)).set k (entry now seq commandId))
      rw [put]
      exact .entered parts others eldest

def Apart (a b : Slot) : Prop := a.used = true → b.used = true → a.seq ≠ b.seq

structure Table (slots : List Slot) : Prop where
  size : slots.length = arkivAckSlots
  one : slots.Pairwise Apart
  stored : ∀ s ∈ slots, s.commandId.length < commandIdSize

/-- A mapping that the table holds, and how long it counts. -/
def Maps (slots : List Slot) (seq : UInt8) (commandId : Bytes) (until_ : Int) : Prop :=
  ∃ s ∈ slots, s.used = true ∧ s.seq = seq ∧ s.commandId = commandId ∧ s.expiresUs = until_

/-- The mappings of other numbers that still count. -/
def others (now : Int) (seq : UInt8) (slots : List Slot) : Nat :=
  slots.countP fun s => s.used && s.seq ≠ seq && s.expiresUs ≥ now

theorem apartExpired {now : Int} {a b : Slot} (apart : Apart a b) : Apart (expire now a) (expire now b) := by
  intro a_ b_
  obtain ⟨sameA,-⟩ := expireUsed a_
  obtain ⟨sameB,-⟩ := expireUsed b_
  rw [sameA] at a_ ⊢
  rw [sameB] at b_ ⊢
  exact apart a_ b_

theorem apartSymm {a b : Slot} (apart : Apart a b) : Apart b a := fun b_ a_ => Ne.symm (apart a_ b_)

instance : Std.Symm Apart := ⟨fun _ _ => apartSymm⟩

theorem expireStored {now : Int} {s : Slot} : (expire now s).commandId = s.commandId ∧ (expire now s).seq = s.seq := by
  rw [expire]
  split <;> exact ⟨rfl,rfl⟩

theorem storedShort (c : CommandId) : c.stored.length < commandIdSize := by
  rw [CommandId.stored,List.length_take]
  exact Nat.lt_of_le_of_lt (Nat.min_le_left _ _) (by decide)

theorem storedText (c : CommandId) : c.stored = c.text := List.take_of_length_le (Nat.le_of_lt_succ c.fits)

theorem trackedTable {now : Int} {seq : UInt8} {commandId : CommandId} {slots out : List Slot} (table : Table slots)
    (step : Tracked now seq commandId slots out) : Table out := by
  have short := storedShort commandId
  have expired : (slots.map (expire now)).Pairwise Apart := List.Pairwise.map _ (fun _ _ => apartExpired) table.one
  have expiredStored : ∀ s ∈ slots.map (expire now), s.commandId.length < commandIdSize :=
    List.forall_mem_map.mpr fun s mem => by rw [expireStored.1]; exact table.stored s mem
  cases step with
  | @refreshed a s b parts used same live =>
    subst parts
    obtain ⟨front,back,cross⟩ := List.pairwise_append.mp table.one
    obtain ⟨here,back⟩ := List.pairwise_cons.mp back
    refine ⟨?_,List.pairwise_append.mpr ⟨List.Pairwise.map _ (fun _ _ => apartExpired) front,
      List.pairwise_cons.mpr ⟨here,back⟩,?_⟩,?_⟩
    · have size := table.size
      simp only [List.length_append,List.length_map,List.length_cons] at size ⊢
      exact size
    · intro x mem y mem'
      obtain ⟨x,inside,rfl⟩ := List.mem_map.mp mem
      intro x_ y_
      obtain ⟨sameX,-⟩ := expireUsed x_
      rw [sameX] at x_ ⊢
      rcases List.mem_cons.mp mem' with rfl | mem'
      · exact cross x inside s List.mem_cons_self x_ used
      · exact cross x inside y (List.mem_cons_of_mem _ mem') x_ y_
    · refine List.forall_mem_append.mpr ⟨?_,List.forall_mem_cons.mpr ⟨short,?_⟩⟩
      · exact List.forall_mem_map.mpr fun x mem => by rw [expireStored.1]; exact table.stored x (List.mem_append_left _ mem)
      · exact fun x mem => table.stored x (List.mem_append_right _ (List.mem_cons_of_mem _ mem))
  | @entered a s b parts others eldest =>
    have size := congrArg List.length parts
    rw [parts] at expired expiredStored others
    obtain ⟨front,back,cross⟩ := List.pairwise_append.mp expired
    obtain ⟨here,back⟩ := List.pairwise_cons.mp back
    have entered (x : Slot) (mem : x ∈ a ++ s::b) : Apart (entry now seq commandId) x := fun _ x_ => Ne.symm (others x mem x_)
    refine ⟨?_,List.pairwise_append.mpr ⟨front,List.pairwise_cons.mpr ⟨?_,back⟩,?_⟩,?_⟩
    · rw [← table.size]
      simp only [List.length_append,List.length_map,List.length_cons] at size ⊢
      exact size.symm
    · exact fun x mem => entered x (List.mem_append_right _ (List.mem_cons_of_mem _ mem))
    · intro x mem y mem'
      rcases List.mem_cons.mp mem' with rfl | mem'
      · exact apartSymm (entered x (List.mem_append_left _ mem))
      · exact cross x mem y (List.mem_cons_of_mem _ mem')
    · refine List.forall_mem_append.mpr ⟨?_,List.forall_mem_cons.mpr ⟨short,?_⟩⟩
      · exact fun x mem => expiredStored x (List.mem_append_left _ mem)
      · exact fun x mem => expiredStored x (List.mem_append_right _ (List.mem_cons_of_mem _ mem))
  | stuck _ => exact ⟨(List.length_map _).trans table.size,expired,expiredStored⟩

theorem beforeExpired {now : Int} {slots : List Slot} {x : Slot} (mem : x ∈ slots.map (expire now)) (used : x.used = true) :
    x ∈ slots := by
  obtain ⟨y,inside,rfl⟩ := List.mem_map.mp mem
  rw [(expireUsed used).1]
  exact inside

theorem trackedOnly {now until_ : Int} {seq seq' : UInt8} {commandId : CommandId} {id : Bytes} {slots out : List Slot}
    (step : Tracked now seq commandId slots out) (table : Table slots) (held : Maps out seq' id until_) :
    (seq' = seq ∧ id = commandId.stored ∧ until_ = deadline now) ∨ (seq' ≠ seq ∧ Maps slots seq' id until_) := by
  obtain ⟨x,mem,used,rfl,rfl,rfl⟩ := held
  cases step with
  | @refreshed a s b parts used_ same live =>
    subst parts same
    obtain ⟨-,back,cross⟩ := List.pairwise_append.mp table.one
    obtain ⟨here,-⟩ := List.pairwise_cons.mp back
    rcases List.mem_append.mp mem with mem | mem
    · have inside := beforeExpired mem used
      exact .inr ⟨cross x inside s List.mem_cons_self used used_,x,List.mem_append_left _ inside,used,rfl,rfl,rfl⟩
    · rcases List.mem_cons.mp mem with rfl | mem
      · exact .inl ⟨rfl,rfl,rfl⟩
      · exact .inr ⟨Ne.symm (here x mem used_ used),x,List.mem_append_right _ (List.mem_cons_of_mem _ mem),used,rfl,rfl,rfl⟩
  | @entered a s b parts others eldest =>
    have old (inside : x ∈ a ++ s::b) : x.seq ≠ seq ∧ Maps slots x.seq x.commandId x.expiresUs := by
      rw [← parts] at inside
      exact ⟨others x inside used,x,beforeExpired inside used,used,rfl,rfl,rfl⟩
    rcases List.mem_append.mp mem with mem | mem
    · exact .inr (old (List.mem_append_left _ mem))
    · rcases List.mem_cons.mp mem with rfl | mem
      · exact .inl ⟨rfl,rfl,rfl⟩
      · exact .inr (old (List.mem_append_right _ (List.mem_cons_of_mem _ mem)))
  | stuck full => exact .inr ⟨(full x mem).2,x,beforeExpired mem used,used,rfl,rfl,rfl⟩

/-- Every slot is in use for another number only where as many mappings count as there are slots. -/
theorem allOthers {now : Int} {seq : UInt8} {slots : List Slot} (table : Table slots)
    (full : ∀ x ∈ slots.map (expire now), x.used = true ∧ x.seq ≠ seq) : others now seq slots = arkivAckSlots := by
  rw [← table.size,others,List.countP_eq_length]
  intro x mem
  obtain ⟨used,other⟩ := full (expire now x) (List.mem_map_of_mem mem)
  obtain ⟨same,live⟩ := expireUsed used
  rw [same] at used other
  simp [used,other,live]

/-- With room for it the new mapping is held, and no other that counts is lost. -/
theorem trackedKeeps {now : Int} {seq : UInt8} {commandId : CommandId} {slots out : List Slot} (table : Table slots)
    (step : Tracked now seq commandId slots out) (room : others now seq slots < arkivAckSlots) :
    Maps out seq commandId.stored (deadline now) ∧
      ∀ seq' id until_, seq' ≠ seq → now ≤ until_ → Maps slots seq' id until_ → Maps out seq' id until_ := by
  cases step with
  | @refreshed a s b parts used same live =>
    subst parts same
    refine ⟨⟨_,List.mem_append_right _ List.mem_cons_self,used,rfl,rfl,rfl⟩,?_⟩
    rintro _ _ _ other counts ⟨x,mem,used',rfl,rfl,rfl⟩
    rcases List.mem_append.mp mem with mem | mem
    · have kept := List.mem_map_of_mem (f := expire now) mem
      rw [expireLive counts] at kept
      exact ⟨x,List.mem_append_left _ kept,used',rfl,rfl,rfl⟩
    · rcases List.mem_cons.mp mem with rfl | mem
      · exact absurd rfl other
      · exact ⟨x,List.mem_append_right _ (List.mem_cons_of_mem _ mem),used',rfl,rfl,rfl⟩
  | @entered a s b parts others_ eldest =>
    refine ⟨⟨_,List.mem_append_right _ List.mem_cons_self,rfl,rfl,rfl,rfl⟩,?_⟩
    rintro _ _ _ other counts ⟨x,mem,used',rfl,rfl,rfl⟩
    have kept := List.mem_map_of_mem (f := expire now) mem
    rw [expireLive counts,parts] at kept
    rcases List.mem_append.mp kept with mem | mem
    · exact ⟨x,List.mem_append_left _ mem,used',rfl,rfl,rfl⟩
    · rcases List.mem_cons.mp mem with rfl | mem
      · have full := allOthers table fun y inside => ⟨eldest used' y inside,others_ y inside (eldest used' y inside)⟩
        exact absurd room (by rw [full]; exact Nat.lt_irrefl _)
      · exact ⟨x,List.mem_append_right _ (List.mem_cons_of_mem _ mem),used',rfl,rfl,rfl⟩
  | stuck full => exact absurd room (by rw [allOthers table full]; exact Nat.lt_irrefl _)

/-! The release, and the copy that an emission starts from. -/

inductive Released (e : Emission) : List Slot → List Slot → Prop
  | taken {a s b} : s.used = true → s.seq = e.seq → s.commandId = e.commandId →
      Released e (a ++ s::b) (a ++ { s with used := false }::b)
  | absent {slots} : (∀ s ∈ slots, s.used = true → ¬(s.seq = e.seq ∧ s.commandId = e.commandId)) → Released e slots slots

theorem released (e : Emission) (slots : List Slot) : Released e slots (release e slots) := by
  induction slots with
  | nil => exact .absent nofun
  | cons s rest ih =>
    rw [release]
    split
    · rename_i here
      simp only [Bool.and_eq_true,decide_eq_true_iff] at here
      exact .taken (a := []) here.1.1 here.1.2 here.2
    · rename_i other
      simp only [Bool.and_eq_true,decide_eq_true_iff,and_assoc] at other
      generalize release e rest = out at ih ⊢
      cases ih with
      | taken used seq id => exact .taken (a := s::_) used seq id
      | absent absent => exact .absent (List.forall_mem_cons.mpr ⟨fun used same => other ⟨used,same⟩,absent⟩)

theorem releaseTable {slots : List Slot} (table : Table slots) (e : Emission) : Table (release e slots) := by
  obtain ⟨size,one,stored⟩ := table
  have release_ := released e slots
  generalize release e slots = out at release_ ⊢
  cases release_ with
  | @taken a s b used seq id =>
    obtain ⟨front,back,cross⟩ := List.pairwise_append.mp one
    obtain ⟨-,back⟩ := List.pairwise_cons.mp back
    refine ⟨by simpa using size,List.pairwise_append.mpr ⟨front,List.pairwise_cons.mpr ⟨fun _ _ => nofun,back⟩,?_⟩,?_⟩
    · intro x mem y mem'
      rcases List.mem_cons.mp mem' with rfl | mem'
      · exact fun _ => nofun
      · exact cross x mem y (List.mem_cons_of_mem _ mem')
    · refine List.forall_mem_append.mpr ⟨fun x mem => stored x (List.mem_append_left _ mem),List.forall_mem_cons.mpr ⟨?_,?_⟩⟩
      · exact stored s (List.mem_append_right _ List.mem_cons_self)
      · exact fun x mem => stored x (List.mem_append_right _ (List.mem_cons_of_mem _ mem))
  | absent _ => exact ⟨size,one,stored⟩

theorem releaseMaps {slots : List Slot} (one : slots.Pairwise Apart) (e : Emission) (seq : UInt8) (id : Bytes) (until_ : Int) :
    Maps (release e slots) seq id until_ ↔ Maps slots seq id until_ ∧ ¬(seq = e.seq ∧ id = e.commandId) := by
  have release_ := released e slots
  generalize release e slots = out at release_ ⊢
  cases release_ with
  | @taken a s b used same sameId =>
    obtain ⟨-,back,cross⟩ := List.pairwise_append.mp one
    obtain ⟨here,-⟩ := List.pairwise_cons.mp back
    constructor
    · rintro ⟨x,mem,used',rfl,rfl,rfl⟩
      rcases List.mem_append.mp mem with mem | mem
      · refine ⟨⟨x,List.mem_append_left _ mem,used',rfl,rfl,rfl⟩,fun clash => ?_⟩
        exact cross x mem s List.mem_cons_self used' used (clash.1.trans same.symm)
      · rcases List.mem_cons.mp mem with rfl | mem
        · exact absurd used' nofun
        · refine ⟨⟨x,List.mem_append_right _ (List.mem_cons_of_mem _ mem),used',rfl,rfl,rfl⟩,fun clash => ?_⟩
          exact here x mem used used' (same.trans clash.1.symm)
    · rintro ⟨⟨x,mem,used',rfl,rfl,rfl⟩,other⟩
      rcases List.mem_append.mp mem with mem | mem
      · exact ⟨x,List.mem_append_left _ mem,used',rfl,rfl,rfl⟩
      · rcases List.mem_cons.mp mem with rfl | mem
        · exact absurd ⟨same,sameId⟩ other
        · exact ⟨x,List.mem_append_right _ (List.mem_cons_of_mem _ mem),used',rfl,rfl,rfl⟩
  | absent absent =>
    refine ⟨fun held => ⟨held,?_⟩,fun both => both.1⟩
    obtain ⟨x,mem,used,rfl,rfl,-⟩ := held
    exact absent x mem used

theorem emitTakes {ready : Bool} {now : Int} {seq : UInt8} {payload : Bytes} {slots : List Slot} {e : Emission}
    (table : Table slots) (begun : emitBegin ready now seq payload slots = some e) :
    e.seq = seq ∧ e.payload = payload ∧ ∃ until_, Maps slots seq e.commandId until_ ∧ now ≤ until_ := by
  rw [emitBegin] at begun
  split at begun
  · obtain ⟨s,found,rfl⟩ := Option.map_eq_some_iff.mp begun
    have mem := List.mem_of_find?_eq_some found
    have pending := List.find?_some found
    simp only [pendingFor,Bool.and_eq_true,decide_eq_true_iff] at pending
    have whole : s.commandId.take (commandIdSize-1) = s.commandId :=
      List.take_of_length_le (Nat.le_of_lt_succ (table.stored s mem))
    exact ⟨rfl,rfl,s.expiresUs,⟨s,mem,pending.1.1,pending.1.2,whole.symm,rfl⟩,pending.2⟩
  · exact absurd begun nofun

theorem mapsOne {slots : List Slot} (one : slots.Pairwise Apart) {seq : UInt8} {a b : Bytes} {t u : Int}
    (first : Maps slots seq a t) (second : Maps slots seq b u) : a = b ∧ t = u := by
  obtain ⟨x,mem,used,rfl,rfl,rfl⟩ := first
  obtain ⟨y,mem',used',same,rfl,rfl⟩ := second
  have equal : x = y := by
    by_contra different
    exact one.forall mem mem' different used used' same.symm
  rw [equal]
  exact ⟨rfl,rfl⟩

theorem emitFinds {now until_ : Int} {seq : UInt8} {id : Bytes} {slots : List Slot} (table : Table slots)
    (held : Maps slots seq id until_) (counts : now ≤ until_) (payload : Bytes) :
    emitBegin true now seq payload slots = some ⟨seq,id,payload⟩ := by
  have found : (slots.find? (pendingFor now seq)).isSome = true := by
    obtain ⟨s,mem,used,same,-,rfl⟩ := held
    rw [List.find?_isSome]
    exact ⟨s,mem,by simp [pendingFor,used,same,counts]⟩
  obtain ⟨s,some_⟩ := Option.isSome_iff_exists.mp found
  have begun : emitBegin true now seq payload slots = some ⟨seq,s.commandId.take (commandIdSize-1),payload⟩ := by
    rw [emitBegin,if_pos rfl,some_]
    rfl
  obtain ⟨-,-,until',mapped,-⟩ := emitTakes table begun
  obtain ⟨same,-⟩ := mapsOne table.one mapped held
  rw [begun]
  exact congrArg (fun id => some (Emission.mk seq id payload)) same

theorem pendingFinds {now : Int} {seq : UInt8} {slots : List Slot} (payload : Bytes) :
    arkivAckHasPending now seq slots = (emitBegin true now seq payload slots).isSome := by
  rw [arkivAckHasPending,emitBegin,if_pos rfl,Option.isSome_map,Bool.eq_iff_iff,List.any_eq_true,List.find?_isSome]

theorem stepTable {σ : State} (table : Table σ.slots) (e : Step) : Table (step σ e).slots := by
  cases e with
  | track now seq commandId => exact trackedTable table (tracked now seq commandId σ.slots)
  | respond ready now seq payload =>
    rw [step]
    cases emitBegin ready now seq payload σ.slots <;> exact table
  | finish place isSealed enqueued =>
    rw [step]
    cases σ.emitting[place]? with
    | none => exact table
    | some e =>
      dsimp only
      split
      · exact releaseTable table e
      · exact table

theorem tableInit : Table State.init.slots := by
  refine ⟨List.length_replicate,List.pairwise_replicate.mpr (.inr nofun),fun s mem => ?_⟩
  rw [List.eq_of_mem_replicate mem]
  decide

theorem runTable {σ : State} (table : Table σ.slots) (steps : List Step) : Table (run σ steps).slots := by
  induction steps generalizing σ with
  | nil => exact table
  | cons e rest ih => exact ih (stepTable table e)

theorem respondSlots (σ : State) (ready : Bool) (now : Int) (seq : UInt8) (payload : Bytes) :
    (step σ (.respond ready now seq payload)).slots = σ.slots ∧ (step σ (.respond ready now seq payload)).acks = σ.acks := by
  rw [step]
  cases emitBegin ready now seq payload σ.slots <;> exact ⟨rfl,rfl⟩

/-- With the state before it, what holds of each step of a run. -/
def Along (holds : State → Step → Prop) : State → List Step → Prop
  | _,[] => True
  | σ,e::rest => holds σ e ∧ Along holds (step σ e) rest

/-- No more mappings than there are slots, the new one included. -/
def Room (σ : State) : Step → Prop
  | .track now seq _ => others now seq σ.slots < arkivAckSlots
  | _ => True

/-- No other command takes the number, and a mapping up to `until_` still counts. -/
def Spares (seq : UInt8) (until_ : Int) : Step → Prop
  | .track now seq' _ => seq' ≠ seq ∧ now ≤ until_
  | _ => True

def busy (seq : UInt8) (σ : State) : Nat := σ.emitting.countP fun e => e.seq = seq
def acked (seq : UInt8) (id : Bytes) (σ : State) : Nat := σ.acks.countP fun a => a.innerSeq = seq && a.commandId = id

/-- The responses for a number are answered one after the other; commands may be tracked meanwhile. -/
def Alone (seq : UInt8) (σ : State) : Step → Prop
  | .respond _ _ seq' _ => seq' = seq → busy seq σ = 0
  | _ => True

def Free (seq : UInt8) (slots : List Slot) : Prop := ∀ id until_, ¬Maps slots seq id until_

theorem ackedNext (seq : UInt8) (id : Bytes) (σ : State) (slots : List Slot) (emitting : List Emission) (e : Emission) :
    acked seq id ⟨slots,emitting,σ.acks ++ [e.ack]⟩ = acked seq id σ + if e.seq = seq ∧ e.commandId = id then 1 else 0 := by
  rw [acked,acked,List.countP_append,List.countP_singleton]
  simp [Emission.ack]

theorem busyFinished (seq : UInt8) {emitting : List Emission} {place : Nat} {e : Emission} (here : emitting[place]? = some e) :
    (emitting.eraseIdx place).countP (fun e => e.seq = seq) + (if e.seq = seq then 1 else 0) =
      emitting.countP fun e => e.seq = seq := by
  induction emitting generalizing place with
  | nil => exact absurd here nofun
  | cons first rest ih =>
    cases place with
    | zero =>
      cases here
      rw [List.eraseIdx_cons_zero,List.countP_cons]
      simp
    | succ place =>
      have later := @ih place here
      rw [List.eraseIdx_cons_succ,List.countP_cons,List.countP_cons]
      omega

theorem heldStep {σ : State} {seq : UInt8} {id : Bytes} {until_ : Int} (table : Table σ.slots) (held : Maps σ.slots seq id until_)
    (e : Step) (room : Room σ e) (spares : Spares seq until_ e) :
    (acked seq id (step σ e) = acked seq id σ ∧ Maps (step σ e).slots seq id until_) ∨
      (acked seq id (step σ e) = acked seq id σ + 1 ∧ Free seq (step σ e).slots ∧ busy seq (step σ e) + 1 = busy seq σ) := by
  cases e with
  | track now seq' commandId =>
    have kept := trackedKeeps table (tracked now seq' commandId σ.slots) room
    exact .inl ⟨rfl,kept.2 seq id until_ (Ne.symm spares.1) spares.2 held⟩
  | respond ready now seq' payload =>
    obtain ⟨slots,acks⟩ := respondSlots σ ready now seq' payload
    rw [acked,acked,acks,slots]
    exact .inl ⟨rfl,held⟩
  | finish place isSealed enqueued =>
    rw [step]
    cases here : σ.emitting[place]? with
    | none => exact .inl ⟨rfl,held⟩
    | some e =>
      dsimp only
      split
      · rw [ackedNext]
        by_cases own : e.seq = seq ∧ e.commandId = id
        · obtain ⟨rfl,rfl⟩ := own
          have finished := busyFinished e.seq here
          rw [if_pos rfl] at finished
          refine .inr ⟨by rw [if_pos ⟨rfl,rfl⟩],fun id' until' left => ?_,finished⟩
          obtain ⟨before,other⟩ := (releaseMaps table.one e _ _ _).mp left
          exact other ⟨rfl,(mapsOne table.one before held).1⟩
        · rw [if_neg own]
          refine .inl ⟨rfl,(releaseMaps table.one e _ _ _).mpr ⟨held,?_⟩⟩
          exact fun same => own ⟨same.1.symm,same.2.symm⟩
      · exact .inl ⟨rfl,held⟩

theorem freeStep {σ : State} {seq : UInt8} {until_ : Int} (table : Table σ.slots) (free : Free seq σ.slots)
    (e : Step) (spares : Spares seq until_ e) : Free seq (step σ e).slots := by
  intro id u held
  cases e with
  | track now seq' commandId =>
    rcases trackedOnly (tracked now seq' commandId σ.slots) table held with ⟨same,-⟩ | ⟨-,before⟩
    · exact spares.1 same.symm
    · exact free id u before
  | respond ready now seq' payload =>
    rw [(respondSlots σ ready now seq' payload).1] at held
    exact free id u held
  | finish place isSealed enqueued =>
    rw [step] at held
    cases here : σ.emitting[place]? with
    | none =>
      rw [here] at held
      exact free id u held
    | some e =>
      rw [here] at held
      dsimp only at held
      split at held
      · exact free id u ((releaseMaps table.one e _ _ _).mp held).1
      · exact free id u held

theorem ackedGrows (σ : State) (seq : UInt8) (id : Bytes) (e : Step) : acked seq id σ ≤ acked seq id (step σ e) := by
  cases e with
  | track now seq' commandId => exact Nat.le_refl _
  | respond ready now seq' payload =>
    have same : acked seq id (step σ (.respond ready now seq' payload)) = acked seq id σ := by
      rw [acked,acked,(respondSlots σ ready now seq' payload).2]
    exact Nat.le_of_eq same.symm
  | finish place isSealed enqueued =>
    rw [step]
    cases σ.emitting[place]? with
    | none => exact Nat.le_refl _
    | some e =>
      dsimp only
      split
      · rw [ackedNext]
        exact Nat.le_add_right _ _
      · exact Nat.le_refl _

/-- A number without a mapping and without an emission gets no acknowledgement. -/
theorem idleStep {σ : State} {seq : UInt8} (table : Table σ.slots) (free : Free seq σ.slots) (idle : busy seq σ = 0)
    (id : Bytes) (e : Step) : acked seq id (step σ e) = acked seq id σ ∧ busy seq (step σ e) = 0 := by
  cases e with
  | track now seq' commandId => exact ⟨rfl,idle⟩
  | respond ready now seq' payload =>
    rw [step]
    cases begun : emitBegin ready now seq' payload σ.slots with
    | none => exact ⟨rfl,idle⟩
    | some e =>
      obtain ⟨same,-,u,held,-⟩ := emitTakes table begun
      have other : e.seq ≠ seq := by
        rintro rfl
        rw [← same] at held
        exact free _ u held
      refine ⟨rfl,?_⟩
      rw [busy,List.countP_append,List.countP_singleton,if_neg (by simpa using other)]
      exact idle
  | finish place isSealed enqueued =>
    rw [step]
    cases here : σ.emitting[place]? with
    | none => exact ⟨rfl,idle⟩
    | some e =>
      have finished := busyFinished seq here
      have other : e.seq ≠ seq := by
        intro same
        rw [if_pos same] at finished
        rw [busy] at idle
        omega
      have left : (σ.emitting.eraseIdx place).countP (fun e => e.seq = seq) = 0 := by
        rw [busy] at idle
        omega
      dsimp only
      split
      · rw [ackedNext,if_neg fun same => other same.1]
        exact ⟨rfl,left⟩
      · exact ⟨rfl,left⟩

theorem aloneStep {σ : State} {seq : UInt8} (one : busy seq σ ≤ 1) (e : Step) (alone : Alone seq σ e)
    (table : Table σ.slots) : busy seq (step σ e) ≤ 1 := by
  cases e with
  | track now seq' commandId => exact one
  | respond ready now seq' payload =>
    rw [step]
    cases begun : emitBegin ready now seq' payload σ.slots with
    | none => exact one
    | some e =>
      obtain ⟨same,-⟩ := emitTakes table begun
      dsimp only
      rw [busy,List.countP_append,List.countP_singleton]
      by_cases own : e.seq = seq
      · have idle := alone (same.symm.trans own)
        have counts : (if decide (e.seq = seq) = true then 1 else 0) = 1 := if_pos (decide_eq_true own)
        rw [busy] at idle
        omega
      · rw [if_neg (by simpa using own)]
        exact one
  | finish place isSealed enqueued =>
    rw [step]
    cases here : σ.emitting[place]? with
    | none => exact one
    | some e =>
      have finished := busyFinished seq here
      have fewer : (σ.emitting.eraseIdx place).countP (fun e => e.seq = seq) ≤ 1 := by
        rw [busy] at one
        omega
      dsimp only
      split <;> exact fewer

def Kept (seq : UInt8) (until_ : Int) (σ : State) (e : Step) : Prop := Room σ e ∧ Spares seq until_ e

theorem freeRun {σ : State} {seq : UInt8} {until_ : Int} (table : Table σ.slots) (free : Free seq σ.slots) (id : Bytes)
    (after : List Step) (kept : Along (Kept seq until_) σ after) :
    Free seq (run σ after).slots ∧ acked seq id σ ≤ acked seq id (run σ after) ∧
      (busy seq σ = 0 → acked seq id (run σ after) = acked seq id σ) := by
  induction after generalizing σ with
  | nil => exact ⟨free,Nat.le_refl _,fun _ => rfl⟩
  | cons e rest ih =>
    obtain ⟨last,grows,alone⟩ := ih (stepTable table e) (freeStep table free e kept.1.2) kept.2
    refine ⟨last,Nat.le_trans (ackedGrows σ seq id e) grows,fun idle => ?_⟩
    obtain ⟨same,idle_⟩ := idleStep table free idle id e
    exact (alone idle_).trans same

theorem heldRun {σ : State} {seq : UInt8} {id : Bytes} {until_ : Int} (table : Table σ.slots) (held : Maps σ.slots seq id until_)
    (after : List Step) (kept : Along (Kept seq until_) σ after) :
    (acked seq id (run σ after) = acked seq id σ ∧ Maps (run σ after).slots seq id until_) ∨
      (acked seq id σ < acked seq id (run σ after) ∧ Free seq (run σ after).slots ∧
        (busy seq σ ≤ 1 → Along (Alone seq) σ after → acked seq id (run σ after) = acked seq id σ + 1)) := by
  induction after generalizing σ with
  | nil => exact .inl ⟨rfl,held⟩
  | cons e rest ih =>
    rcases heldStep table held e kept.1.1 kept.1.2 with ⟨same,still⟩ | ⟨more,free,ended⟩
    · rcases ih (stepTable table e) still kept.2 with ⟨same_,last⟩ | ⟨more,free,once⟩
      · exact .inl ⟨same_.trans same,last⟩
      · refine .inr ⟨same ▸ more,free,fun one alone => ?_⟩
        rw [← same]
        exact once (aloneStep one e alone.1 table) alone.2
    · obtain ⟨last,grows,idle⟩ := freeRun (stepTable table e) free id rest kept.2
      refine .inr ⟨?_,last,fun one _ => ?_⟩
      · exact Nat.lt_of_lt_of_le (by omega) grows
      · exact (idle (by omega)).trans more

theorem aloneRun {σ : State} {seq : UInt8} (table : Table σ.slots) (one : busy seq σ ≤ 1) (steps : List Step)
    (alone : Along (Alone seq) σ steps) : busy seq (run σ steps) ≤ 1 := by
  induction steps generalizing σ with
  | nil => exact one
  | cons e rest ih => exact ih (stepTable table e) (aloneStep one e alone.1 table) alone.2

theorem alongAppend {holds : State → Step → Prop} {σ : State} {a b : List Step} (along : Along holds σ (a ++ b)) :
    Along holds σ a ∧ Along holds (run σ a) b := by
  induction a generalizing σ with
  | nil => exact ⟨trivial,along⟩
  | cons e rest ih => exact ⟨⟨along.1,(ih along.2).1⟩,(ih along.2).2⟩

end Web3PiUps.ArkivAck
