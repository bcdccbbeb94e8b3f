import Mathlib.Data.Finset.Card
import Mathlib.Data.List.Dedup
import Mathlib.Data.List.Pairwise
import Mathlib.Order.Lattice

/-! One pass over candidates in ascending order of a key. It accepts a valid
candidate whose key is above the last accepted one, at most `limit` of them, and
ends after one that is `final`. Which candidates it accepts is a condition on the
candidates that precede them. -/
namespace Web3PiUps.AscendingPass

universe u
variable {α : Type u}

structure Pass (α : Type u) where
  accepted : List α
  stopped : Bool

section Definitions
variable (key : α → Nat) (valid final : α → Prop) [DecidablePred valid] [DecidablePred final]
variable (limit base : Nat)

def top (accepted : List α) : Nat := (accepted.getLast?.map key).getD base

def passStep (s : Pass α) (x : α) : Pass α :=
  if s.stopped then s else
  if valid x ∧ top key base s.accepted < key x then
    ⟨s.accepted ++ [x],decide (final x ∨ limit ≤ s.accepted.length+1)⟩
  else s

def pass (l : List α) : Pass α := l.foldl (passStep key valid final limit base) ⟨[],false⟩

theorem passConcat (l : List α) (x : α) : pass key valid final limit base (l ++ [x]) =
    passStep key valid final limit base (pass key valid final limit base l) x := by simp [pass]

def Leads (before : List α) (x : α) : Prop := valid x ∧ ∀ w ∈ before, valid w → key w < key x

def Unended (before : List α) : Prop :=
  ∀ first w rest, before = first ++ w::rest → Leads key valid first w → ¬ final w

structure DueAfter (before : List α) (x : α) : Prop where
  leads : Leads key valid before x
  room : ((before.filter (fun w => decide (valid w))).map key).dedup.length < limit
  unended : Unended key valid final before

def Due (l : List α) (x : α) : Prop :=
  ∃ before after, l = before ++ x::after ∧ DueAfter key valid final limit before x

end Definitions

theorem splitConcat {l before after : List α} {x y : α} (split : l ++ [x] = before ++ y::after) :
    (∃ rest, l = before ++ y::rest) ∨ (l = before ∧ y = x) := by
  cases after using List.reverseRecOn with
  | nil =>
    obtain ⟨same,last⟩ := List.append_inj' split rfl
    exact Or.inr ⟨same,(List.singleton_inj.mp last).symm⟩
  | append_singleton rest z =>
    rw [← List.cons_append,← List.append_assoc] at split
    exact Or.inl ⟨rest,(List.append_inj' split rfl).1⟩

variable {key : α → Nat} {valid final : α → Prop} {limit base : Nat}

theorem unendedConcat {l : List α} {x : α} (unended : Unended key valid final l)
    (stays : Leads key valid l x → ¬ final x) : Unended key valid final (l ++ [x]) := by
  intro first w rest split leads
  rcases splitConcat split with ⟨tail,same⟩ | ⟨rfl,rfl⟩
  · exact unended first w tail same leads
  · exact stays leads

variable [DecidablePred valid]

theorem dueMember {l : List α} {x : α} (due : Due key valid final limit l x) : x ∈ l ∧ valid x := by
  obtain ⟨before,after,rfl,here⟩ := due
  exact ⟨by simp,here.leads.1⟩

theorem dueLonger {l : List α} {x y : α} (due : Due key valid final limit l y) :
    Due key valid final limit (l ++ [x]) y := by
  obtain ⟨before,after,rfl,here⟩ := due
  exact ⟨before,after ++ [x],by simp,here⟩

theorem dueConcat {l : List α} {x y : α} (due : Due key valid final limit (l ++ [x]) y) :
    Due key valid final limit l y ∨ (y = x ∧ DueAfter key valid final limit l x) := by
  obtain ⟨before,after,split,here⟩ := due
  rcases splitConcat split with ⟨rest,same⟩ | ⟨rfl,rfl⟩
  · exact Or.inl ⟨before,rest,same,here⟩
  · exact Or.inr ⟨rfl,here⟩

@[simp] theorem topNil : top key base ([] : List α) = base := rfl
@[simp] theorem topConcat (l : List α) (x : α) : top key base (l ++ [x]) = key x := by simp [top]

variable (key base) in
theorem topAttained (l : List α) : top key base l = base ∨ ∃ y ∈ l, key y = top key base l := by
  cases l using List.reverseRecOn with
  | nil => exact Or.inl rfl
  | append_singleton l x => exact Or.inr ⟨x,by simp,by simp⟩

variable (base) in
theorem topMost {l : List α} (ascending : l.Pairwise (fun x y => key x < key y)) {y : α} (inside : y ∈ l) :
    key y ≤ top key base l := by
  cases l using List.reverseRecOn with
  | nil => simp at inside
  | append_singleton l x =>
    rw [topConcat]
    rcases List.mem_append.mp inside with old | new
    · exact ((List.pairwise_append.mp ascending).2.2 y old x (by simp)).le
    · cases List.mem_singleton.mp new
      exact le_rfl

variable (key valid final limit base) in
structure Settled (l : List α) (s : Pass α) : Prop where
  ascending : s.accepted.Pairwise (fun x y => key x < key y)
  size : s.accepted.length ≤ limit
  due : ∀ x ∈ s.accepted, Due key valid final limit l x
  reached : ∀ x, Due key valid final limit l x → x ∈ s.accepted
  covered : ∀ x ∈ l, valid x → key x ≤ top key base s.accepted → ∃ y ∈ s.accepted, key y = key x
  running : s.stopped = false → s.accepted.length < limit ∧ Unended key valid final l ∧
    ∀ x ∈ l, valid x → key x ≤ top key base s.accepted
  ended : s.stopped = true → s.accepted.length = limit ∨ ∃ x ∈ s.accepted, final x

theorem settledNil (positive : 0 < limit) : Settled key valid final limit base ([] : List α) ⟨[],false⟩ where
  ascending := List.Pairwise.nil
  size := Nat.zero_le _
  due := by simp
  reached x due := by simpa using (dueMember due).1
  covered := by simp
  running _ := ⟨positive,by simp [Unended],by simp⟩
  ended := by simp

theorem stoppedNoneDue {l : List α} {s : Pass α} {x : α} (h : Settled key valid final limit base l s)
    (stopped : s.stopped = true) (here : DueAfter key valid final limit l x) : False := by
  rcases h.ended stopped with full | ⟨w,inside,last⟩
  · have keys : (s.accepted.map key).Nodup :=
      List.pairwise_map.mpr (h.ascending.imp (fun less => less.ne))
    have sub : s.accepted.map key ⊆ ((l.filter (fun w => decide (valid w))).map key).dedup := by
      intro k mem
      obtain ⟨w,inside,rfl⟩ := List.mem_map.mp mem
      obtain ⟨old,fine⟩ := dueMember (h.due w inside)
      exact List.mem_dedup.mpr (List.mem_map_of_mem (List.mem_filter.mpr ⟨old,by simpa using fine⟩))
    have most := (keys.subperm sub).length_le
    have room := here.room
    rw [List.length_map,full] at most
    omega
  · obtain ⟨first,rest,split,due⟩ := h.due w inside
    exact here.unended first w rest split due.leads last

theorem acceptedDue {l : List α} {s : Pass α} {x : α} (h : Settled key valid final limit base l s)
    (running : s.stopped = false) (fine : valid x) (beyond : top key base s.accepted < key x) :
    DueAfter key valid final limit l x := by
  obtain ⟨short,unended,below⟩ := h.running running
  refine ⟨⟨fine,fun w inside ok => (below w inside ok).trans_lt beyond⟩,?_,unended⟩
  have sub : ((l.filter (fun w => decide (valid w))).map key).dedup ⊆ s.accepted.map key := by
    intro k mem
    obtain ⟨w,inside,rfl⟩ := List.mem_map.mp (List.mem_dedup.mp mem)
    obtain ⟨old,ok⟩ := List.mem_filter.mp inside
    have ok : valid w := by simpa using ok
    obtain ⟨y,taken,same⟩ := h.covered w old ok (below w old ok)
    exact List.mem_map.mpr ⟨y,taken,same⟩
  have most := ((List.nodup_dedup _).subperm sub).length_le
  rw [List.length_map] at most
  omega

theorem metAtTop {l : List α} {s : Pass α} {x : α} (above : base < key x) (ascends : ∀ y ∈ l, key y ≤ key x)
    (h : Settled key valid final limit base l s) (low : key x ≤ top key base s.accepted) :
    ∃ y ∈ s.accepted, key y = key x := by
  rcases topAttained key base s.accepted with none | ⟨y,inside,same⟩
  · omega
  · have order := ascends y (dueMember (h.due y inside)).1
    exact ⟨y,inside,by omega⟩

theorem coveredConcat {l : List α} {s : Pass α} {x : α} (above : base < key x) (ascends : ∀ y ∈ l, key y ≤ key x)
    (h : Settled key valid final limit base l s) : ∀ y ∈ l ++ [x], valid y →
      key y ≤ top key base s.accepted → ∃ z ∈ s.accepted, key z = key y := by
  intro y mem fine low
  rcases List.mem_append.mp mem with old | new
  · exact h.covered y old fine low
  · cases List.mem_singleton.mp new
    exact metAtTop above ascends h low

theorem settledStopped {l : List α} {s : Pass α} {x : α} (above : base < key x)
    (ascends : ∀ y ∈ l, key y ≤ key x) (h : Settled key valid final limit base l s)
    (stopped : s.stopped = true) : Settled key valid final limit base (l ++ [x]) s where
  ascending := h.ascending
  size := h.size
  due y mem := dueLonger (h.due y mem)
  reached y due := by
    rcases dueConcat due with old | ⟨rfl,here⟩
    · exact h.reached y old
    · exact (stoppedNoneDue h stopped here).elim
  covered := coveredConcat above ascends h
  running running := by
    rw [stopped] at running
    contradiction
  ended := h.ended

theorem settledPassed {l : List α} {s : Pass α} {x : α} (above : base < key x)
    (ascends : ∀ y ∈ l, key y ≤ key x) (h : Settled key valid final limit base l s)
    (running : s.stopped = false) (passed : ¬ (valid x ∧ top key base s.accepted < key x)) :
    Settled key valid final limit base (l ++ [x]) s := by
  obtain ⟨short,unended,below⟩ := h.running running
  have low : valid x → key x ≤ top key base s.accepted :=
    fun fine => Nat.not_lt.mp (fun beyond => passed ⟨fine,beyond⟩)
  have follows : ¬ Leads key valid l x := by
    intro leads
    obtain ⟨y,inside,same⟩ := metAtTop above ascends h (low leads.1)
    obtain ⟨old,fine⟩ := dueMember (h.due y inside)
    have less := leads.2 y old fine
    omega
  refine ⟨h.ascending,h.size,fun y mem => dueLonger (h.due y mem),fun y due => ?_,
    coveredConcat above ascends h,
    fun _ => ⟨short,unendedConcat unended (fun leads => absurd leads follows),fun y mem fine => ?_⟩,h.ended⟩
  · rcases dueConcat due with old | ⟨rfl,here⟩
    · exact h.reached y old
    · exact absurd here.leads follows
  · rcases List.mem_append.mp mem with old | new
    · exact below y old fine
    · cases List.mem_singleton.mp new
      exact low fine

variable [DecidablePred final]

theorem settledTaken {l : List α} {s : Pass α} {x : α} (h : Settled key valid final limit base l s)
    (running : s.stopped = false) (fine : valid x) (beyond : top key base s.accepted < key x) :
    Settled key valid final limit base (l ++ [x])
      ⟨s.accepted ++ [x],decide (final x ∨ limit ≤ s.accepted.length+1)⟩ := by
  obtain ⟨short,unended,below⟩ := h.running running
  have here := acceptedDue h running fine beyond
  have size : (s.accepted ++ [x]).length ≤ limit := by
    rw [List.length_append,List.length_singleton]
    exact short
  refine ⟨?_,size,?_,?_,?_,?_,?_⟩
  · refine List.pairwise_append.mpr ⟨h.ascending,List.pairwise_singleton _ x,fun y mem z last => ?_⟩
    cases List.mem_singleton.mp last
    obtain ⟨old,ok⟩ := dueMember (h.due y mem)
    exact (below y old ok).trans_lt beyond
  · intro y mem
    rcases List.mem_append.mp mem with old | new
    · exact dueLonger (h.due y old)
    · cases List.mem_singleton.mp new
      exact ⟨l,[],rfl,here⟩
  · intro y due
    rcases dueConcat due with old | ⟨rfl,-⟩
    · exact List.mem_append_left _ (h.reached y old)
    · simp
  · intro y mem ok _
    rcases List.mem_append.mp mem with old | new
    · obtain ⟨z,inside,same⟩ := h.covered y old ok (below y old ok)
      exact ⟨z,List.mem_append_left _ inside,same⟩
    · cases List.mem_singleton.mp new
      exact ⟨x,by simp,rfl⟩
  · intro still
    rw [decide_eq_false_iff_not,not_or] at still
    refine ⟨by simpa using still.2,unendedConcat unended (fun _ => still.1),fun y mem ok => ?_⟩
    rw [topConcat]
    rcases List.mem_append.mp mem with old | new
    · exact (below y old ok).trans beyond.le
    · cases List.mem_singleton.mp new
      exact le_rfl
  · intro ends
    rcases of_decide_eq_true ends with last | full
    · exact Or.inr ⟨x,by simp,last⟩
    · exact Or.inl (le_antisymm size (by simpa using full))

theorem settledStep {l : List α} {s : Pass α} {x : α} (above : base < key x)
    (ascends : ∀ y ∈ l, key y ≤ key x) (h : Settled key valid final limit base l s) :
    Settled key valid final limit base (l ++ [x]) (passStep key valid final limit base s x) := by
  unfold passStep
  by_cases stopped : s.stopped = true
  · rw [if_pos stopped]
    exact settledStopped above ascends h stopped
  rw [if_neg stopped]
  have running : s.stopped = false := by simpa using stopped
  by_cases taken : valid x ∧ top key base s.accepted < key x
  · rw [if_pos taken]
    exact settledTaken h running taken.1 taken.2
  · rw [if_neg taken]
    exact settledPassed above ascends h running taken

theorem passSettled (positive : 0 < limit) {l : List α} (above : ∀ x ∈ l, base < key x)
    (ascends : l.Pairwise (fun x y => key x ≤ key y)) :
    Settled key valid final limit base l (pass key valid final limit base l) := by
  induction l using List.reverseRecOn with
  | nil => exact settledNil positive
  | append_singleton l x ih =>
    obtain ⟨before,-,last⟩ := List.pairwise_append.mp ascends
    rw [passConcat]
    exact settledStep (above x (by simp)) (fun y mem => last y mem x (by simp))
      (ih (fun y mem => above y (by simp [mem])) before)

end Web3PiUps.AscendingPass
