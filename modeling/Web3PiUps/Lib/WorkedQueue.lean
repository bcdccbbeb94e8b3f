import Mathlib.Data.List.Nodup
import Mathlib.Data.List.Perm.Subperm

/-! A queue that grows at its end while a worker works the front of it: at most `n` entries at a
time, in their order, less those it has done. Entries leave the queue by and by, none that can be
worked before one that stands behind it. Then what is done and still queued is the end of all
that has been done, and short. -/
namespace Web3PiUps.WorkedQueue

universe u
variable {α : Type u}

def Before (l : List α) (x y : α) : Prop := List.Sublist [x,y] l

theorem beforeMem {l : List α} {x y : α} (before : Before l x y) : x ∈ l ∧ y ∈ l :=
  ⟨before.subset (by simp),before.subset (by simp)⟩

theorem beforeAppend {a b : List α} {x y : α} : Before (a ++ b) x y ↔ Before a x y ∨ (x ∈ a ∧ y ∈ b) ∨ Before b x y := by
  constructor
  · intro before
    obtain ⟨l,r,split_,left,right⟩ := List.sublist_append_iff.mp before
    rcases l with _ | ⟨x',_ | ⟨y',l⟩⟩
    · rw [List.nil_append] at split_
      rw [← split_] at right
      exact .inr (.inr right)
    · obtain ⟨rfl,rfl⟩ := List.cons.inj split_
      exact .inr (.inl ⟨List.singleton_sublist.mp left,List.singleton_sublist.mp right⟩)
    · simp only [List.cons_append,List.cons.injEq,List.nil_eq,List.append_eq_nil_iff] at split_
      obtain ⟨rfl,rfl,rfl,-⟩ := split_
      exact .inl left
  · rintro (left | ⟨left,right⟩ | right)
    · exact left.trans (List.sublist_append_left a b)
    · exact (List.singleton_sublist.mpr left).append (List.singleton_sublist.mpr right)
    · exact right.trans (List.sublist_append_right a b)

theorem beforeOr {l : List α} {x y : α} (x_ : x ∈ l) (y_ : y ∈ l) (apart : x ≠ y) : Before l x y ∨ Before l y x := by
  obtain ⟨a,b,rfl⟩ := List.append_of_mem x_
  rcases List.mem_append.mp y_ with left | right
  · exact .inr (beforeAppend.mpr (.inr (.inl ⟨left,.head b⟩)))
  · have behind := (List.mem_cons.mp right).resolve_left (Ne.symm apart)
    exact .inl (beforeAppend.mpr (.inr (.inr ((List.singleton_sublist.mpr behind).cons_cons x))))

theorem beforeApart {l : List α} {x y : α} (once : l.Nodup) (before : Before l x y) : x ≠ y := by
  simpa using once.sublist before

theorem beforeAsym {l : List α} {x y : α} (once : l.Nodup) (before : Before l x y) : ¬Before l y x := by
  obtain ⟨a,b,rfl⟩ := List.append_of_mem (beforeMem before).1
  obtain ⟨-,⟨notB,-⟩,other⟩ := by simpa [List.nodup_append] using once
  have notA : x ∉ a := fun mem => (other x mem).1 rfl
  intro after
  rcases beforeAppend.mp after with left | ⟨left,-⟩ | right
  · exact notA (beforeMem left).2
  · -- `y` before `x`, so it is not behind it
    rcases beforeAppend.mp before with left' | ⟨left',-⟩ | right'
    · exact notA (beforeMem left').1
    · exact notA left'
    · rcases List.mem_cons.mp (beforeMem right').2 with same | mem
      · exact notA (same ▸ left)
      · exact (other y left).2 y mem rfl
  · have x_ : x ∈ b := by
      have tail : List.Sublist [x] b := by
        cases right with
        | cons _ sub => exact (List.sublist_cons_self y [x]).trans sub
        | cons_cons _ sub => exact sub
      exact List.singleton_sublist.mp tail
    exact notB x_

theorem beforeIn {l more : List α} {x y : α} (part : l.Sublist more) (once : more.Nodup) (before : Before more x y)
    (x_ : x ∈ l) (y_ : y ∈ l) : Before l x y :=
  (beforeOr x_ y_ (beforeApart once before)).resolve_right fun after => beforeAsym once before (after.trans part)

theorem beforePrefix {l more : List α} {x y : α} (front : l <+: more) (once : more.Nodup) (before : Before more x y)
    (y_ : y ∈ l) : x ∈ l := by
  obtain ⟨rest,rfl⟩ := front
  rcases beforeAppend.mp before with left | ⟨left,-⟩ | right
  · exact (beforeMem left).1
  · exact left
  · exact absurd rfl ((List.nodup_append.mp once).2.2 y y_ y (beforeMem right).2)

theorem joinPart {a b l : List α} (once : l.Nodup) (left : a.Sublist l) (right : b.Sublist l)
    (order : ∀ x ∈ a, ∀ y ∈ b, Before l x y) : (a ++ b).Sublist l := by
  induction l generalizing a with
  | nil => rw [List.sublist_nil.mp left,List.nil_append]; exact right
  | cons z l ih =>
    obtain ⟨absent,once⟩ := List.nodup_cons.mp once
    have later {x y : α} (before : Before (z::l) x y) (apart : x ≠ z) : Before l x y := by
      rcases List.sublist_cons_iff.mp before with here | ⟨rest,same,-⟩
      · exact here
      · exact absurd (List.cons.inj same).1 apart
    have rest {b : List α} (part : b.Sublist (z::l)) (other : z ∉ b) : b.Sublist l := by
      rcases List.sublist_cons_iff.mp part with here | ⟨more,rfl,-⟩
      · exact here
      · exact absurd (.head _) other
    rcases List.sublist_cons_iff.mp left with here | ⟨a',rfl,here⟩
    · cases a with
      | nil => exact right
      | cons x a =>
        -- the rest starts behind `x`
        have other : z ∉ b := fun mem => by
          have before := order x (.head _) z mem
          have tail := later before fun same => absent (same ▸ here.subset (.head _))
          exact absent (beforeMem tail).2
        refine List.Sublist.trans (ih once here (rest right other) fun x' x_ y y_ =>
          later (order x' x_ y y_) fun same => ?_) (List.sublist_cons_self z l)
        exact absent (same ▸ here.subset x_)
    · have other : z ∉ b := fun mem => by
        rcases List.sublist_cons_iff.mp (order z (.head _) z mem) with here | ⟨more,same,tail⟩
        · exact absent (beforeMem here).1
        · obtain ⟨-,rfl⟩ := List.cons.inj same
          exact absent (List.singleton_sublist.mp tail)
      refine (ih once here (rest right other) fun x x_ y y_ => ?_).cons_cons z
      exact later (order x (.tail _ x_) y y_) fun same => absent (same ▸ here.subset x_)

theorem takePart {l more : List α} {n : Nat} {x : α} (part : l.Sublist more) (once : more.Nodup) (x_ : x ∈ l)
    (front : x ∈ more.take n) : x ∈ l.take n := by
  rw [← List.take_append_drop n more] at part once
  obtain ⟨a,b,rfl,left,right⟩ := List.sublist_append_iff.mp part
  have few : a.length ≤ n := Nat.le_trans left.length_le (List.length_take_le n more)
  rw [List.take_append,List.take_of_length_le few]
  refine List.mem_append_left _ ((List.mem_append.mp x_).resolve_right fun late => ?_)
  exact (List.nodup_append.mp once).2.2 x front x (right.subset late) rfl

/-- With an entry all that can be worked of what stands before it. -/
def Closed (able s : α → Prop) (queue : List α) : Prop := ∀ x y, Before queue x y → able x → s y → s x

structure Worked (able : α → Prop) (n : Nat) (done queue : List α) : Prop where
  queued : queue.Nodup
  once : done.Nodup
  all : ∀ x ∈ done, able x
  follows : ∀ x y, Before done x y → x ∈ queue → Before queue x y
  front : ∀ x ∈ done, x ∈ queue → x ∈ queue.take n
  closed : Closed able (· ∈ done) queue

/-- Entries left the queue, none that can be worked before one behind it. -/
structure Leaves (able : α → Prop) (queue left : List α) : Prop where
  part : left.Sublist queue
  order : ∀ x y, Before queue x y → able x → able y → x ∈ left → y ∈ left

section
variable {able s : α → Prop} {n : Nat} {done queue left : List α}

theorem Leaves.refl (queue : List α) : Leaves able queue queue :=
  ⟨List.Sublist.refl _,fun _ _ before _ _ _ => (beforeMem before).2⟩

theorem Leaves.trans {more : List α} (first : Leaves able more queue) (then_ : Leaves able queue left)
    (once : more.Nodup) : Leaves able more left := by
  refine ⟨then_.part.trans first.part,fun x y before x_ y_ mem => ?_⟩
  have here := then_.part.subset mem
  exact then_.order x y (beforeIn first.part once before here (first.order x y before x_ y_ here)) x_ y_ mem

theorem Closed.leaves (closed : Closed able s queue) (part : left.Sublist queue) : Closed able s left :=
  fun x y before => closed x y (before.trans part)

theorem Closed.push (closed : Closed able s queue) {z : α} (fresh : ¬s z) : Closed able s (queue ++ [z]) := by
  intro x y before x_ mem
  rcases beforeAppend.mp before with old | ⟨-,new⟩ | new
  · exact closed x y old x_ mem
  · exact absurd (List.mem_singleton.mp new ▸ mem) fresh
  · exact absurd (List.mem_singleton.mp (beforeMem new).2 ▸ mem) fresh

theorem closedLeaves (closed : Closed able s queue) (part : left.Sublist queue)
    (kept : ∀ x ∈ queue, able x → (x ∈ left ↔ ¬s x)) : Leaves able queue left := by
  refine ⟨part,fun x y before x_ y_ mem => ?_⟩
  obtain ⟨here,there⟩ := beforeMem before
  exact (kept y there y_).mpr fun gone => (kept x here x_).mp mem (closed x y before x_ gone)

theorem Worked.leaves (worked : Worked able n done queue) (leaves : Leaves able queue left) : Worked able n done left where
  queued := worked.queued.sublist leaves.part
  once := worked.once
  all := worked.all
  follows x y before x_ := by
    have queued := worked.follows x y before (leaves.part.subset x_)
    have both := beforeMem before
    have y_ := leaves.order x y queued (worked.all x both.1) (worked.all y both.2) x_
    exact beforeIn leaves.part worked.queued queued x_ y_
  front x mem x_ := takePart leaves.part worked.queued x_ (worked.front x mem (leaves.part.subset x_))
  closed := worked.closed.leaves leaves.part

theorem Worked.push (worked : Worked able n done queue) {z : α} (new : z ∉ queue) (fresh : z ∉ done) :
    Worked able n done (queue ++ [z]) := by
  have old : ∀ x ∈ done, x ∈ queue ++ [z] → x ∈ queue := fun x mem x_ =>
    (List.mem_append.mp x_).resolve_right fun last => fresh (List.mem_singleton.mp last ▸ mem)
  refine ⟨?_,worked.once,worked.all,?_,?_,worked.closed.push fresh⟩
  · refine List.nodup_append.mpr ⟨worked.queued,List.nodup_singleton z,fun x mem y last same => ?_⟩
    rw [List.mem_singleton] at last
    exact new (last ▸ same ▸ mem)
  · intro x y before x_
    exact (worked.follows x y before (old x (beforeMem before).1 x_)).trans (List.sublist_append_left _ _)
  · intro x mem x_
    have front := worked.front x mem (old x mem x_)
    rw [List.take_append]
    exact List.mem_append_left _ front

/-- What the worker does of the entries it is handed. -/
noncomputable def fresh (able : α → Prop) (done handed : List α) : List α := by
  classical exact handed.filter fun x => able x ∧ x ∉ done

theorem freshMem {handed : List α} {x : α} : x ∈ fresh able done handed ↔ x ∈ handed ∧ able x ∧ x ∉ done := by
  simp [fresh]

theorem freshPart (handed : List α) : (fresh able done handed).Sublist handed := List.filter_sublist

theorem Worked.works (worked : Worked able n done queue) {handed : List α} (front : handed <+: queue)
    (few : handed.length ≤ n) : Worked able n (done ++ fresh able done handed) queue := by
  have short : handed <+: queue.take n := List.prefix_take_iff.mpr ⟨front,few⟩
  have handedOnce : handed.Nodup := worked.queued.sublist front.sublist
  refine ⟨worked.queued,?_,?_,?_,?_,?_⟩
  · refine List.nodup_append.mpr ⟨worked.once,handedOnce.sublist (freshPart handed),fun x mem y new same => ?_⟩
    exact (freshMem.mp new).2.2 (same ▸ mem)
  · intro x mem
    exact (List.mem_append.mp mem).elim (worked.all x) fun new => (freshMem.mp new).2.1
  · intro x y before x_
    rcases beforeAppend.mp before with old | ⟨old,new⟩ | new
    · exact worked.follows x y old x_
    · obtain ⟨y_,y_able,undone⟩ := freshMem.mp new
      have apart : x ≠ y := fun same => undone (same ▸ old)
      -- had it stood before what is done, it would be done
      exact (beforeOr x_ (front.subset y_) apart).resolve_right fun other =>
        undone (worked.closed y x other y_able old)
    · exact new.trans ((freshPart handed).trans front.sublist)
  · intro x mem x_
    exact (List.mem_append.mp mem).elim (fun old => worked.front x old x_) fun new => short.subset (freshMem.mp new).1
  · intro x y before x_ mem
    by_cases x_done : x ∈ done
    · exact List.mem_append_left _ x_done
    · rcases List.mem_append.mp mem with old | new
      · exact absurd (worked.closed x y before x_ old) x_done
      · refine List.mem_append_right _ (freshMem.mpr ⟨?_,x_,x_done⟩)
        exact beforePrefix front worked.queued before (freshMem.mp new).1

theorem handedClosed {handed : List α} (front : handed <+: queue) (queued : queue.Nodup) :
    Closed able (fun x => x ∈ handed ∧ able x) queue :=
  fun _ _ before x_ mem => ⟨beforePrefix front queued before mem.1,x_⟩

theorem Worked.recent (worked : Worked able n done queue) :
    ∃ old recent, done = old ++ recent ∧ recent.length ≤ n ∧ ∀ x ∈ queue, x ∉ old := by
  classical
  refine ⟨done.takeWhile (· ∉ queue),done.dropWhile (· ∉ queue),List.takeWhile_append_dropWhile.symm,?_,?_⟩
  · have once := worked.once.sublist (List.dropWhile_sublist (· ∉ queue))
    have part : ∀ x ∈ done.dropWhile (· ∉ queue), x ∈ queue.take n := by
      intro x mem
      have done_ := (List.dropWhile_sublist _).subset mem
      refine worked.front x done_ ?_
      cases left : done.dropWhile (· ∉ queue) with
      | nil =>
        rw [left] at mem
        cases mem
      | cons first rest =>
        have here : first ∈ queue := by
          have stops := List.head?_dropWhile_not (p := (· ∉ queue)) (l := done)
          rw [left] at stops
          simpa using stops
        rw [left] at mem once
        rcases List.mem_cons.mp mem with rfl | later
        · exact here
        · have before : Before done first x := by
            have within : (first::rest).Sublist done := left ▸ List.dropWhile_sublist _
            exact ((List.singleton_sublist.mpr later).cons_cons first).trans within
          exact (beforeMem (worked.follows first x before here)).2
    exact Nat.le_trans (List.subperm_of_subset once part).length_le (List.length_take_le n queue)
  · intro x mem old
    simpa [mem] using (List.all_eq_true.mp List.all_takeWhile) x old

end

structure Ordered (able : α → Prop) (done queue entered : List α) : Prop where
  order : done.Sublist entered
  ahead : ∀ x ∈ queue, ∀ y ∈ done, Before entered x y → able x → x ∈ done

section
variable {able : α → Prop} {done queue left entered : List α}

theorem Ordered.leaves (ordered : Ordered able done queue entered) (part : left.Sublist queue) :
    Ordered able done left entered :=
  ⟨ordered.order,fun x mem => ordered.ahead x (part.subset mem)⟩

theorem Ordered.push (ordered : Ordered able done queue entered) {z : α} (new : z ∉ entered) :
    Ordered able done (queue ++ [z]) (entered ++ [z]) := by
  refine ⟨ordered.order.trans (List.sublist_append_left _ _),fun x x_ y y_ before x_able => ?_⟩
  have old : y ∈ entered := ordered.order.subset y_
  rcases beforeAppend.mp before with within | ⟨-,last⟩ | last
  · rcases List.mem_append.mp x_ with queued | last
    · exact ordered.ahead x queued y y_ within x_able
    · exact absurd (List.mem_singleton.mp last ▸ (beforeMem within).1) new
  · exact absurd (List.mem_singleton.mp last ▸ old) new
  · exact absurd (List.mem_singleton.mp (beforeMem last).2 ▸ old) new

theorem Ordered.works (ordered : Ordered able done queue entered) (once : entered.Nodup) (part : queue.Sublist entered)
    {handed : List α} (front : handed <+: queue) : Ordered able (done ++ fresh able done handed) queue entered := by
  have queued : ∀ x ∈ handed, x ∈ queue := fun x mem => front.subset mem
  refine ⟨joinPart once ordered.order ((freshPart handed).trans (front.sublist.trans part)) fun x x_ y y_ => ?_,
    fun x x_ y y_ before x_able => ?_⟩
  · obtain ⟨y_handed,y_able,undone⟩ := freshMem.mp y_
    have apart : x ≠ y := fun same => undone (same ▸ x_)
    refine (beforeOr (ordered.order.subset x_) (part.subset (queued y y_handed)) apart).resolve_right fun other => ?_
    exact undone (ordered.ahead y (queued y y_handed) x x_ other y_able)
  · by_cases x_done : x ∈ done
    · exact List.mem_append_left _ x_done
    · rcases List.mem_append.mp y_ with old | new
      · exact absurd (ordered.ahead x x_ y old before x_able) x_done
      · have y_handed := (freshMem.mp new).1
        have within := beforeIn part once before x_ (queued y y_handed)
        exact List.mem_append_right _ (freshMem.mpr ⟨beforePrefix front (once.sublist part) within y_handed,x_able,x_done⟩)

end

end Web3PiUps.WorkedQueue
