import Web3PiUps.FwRollbackSteps

/-! The rollback machine over whole runs. -/
namespace Web3PiUps.FwRollback
open WupsProtocol StepMachine
open FwUpdate hiding step

section Runs
variable {running : Bytes} {inputs : List Input}

/-- A pending update over `image`, between `n` and the state after it. -/
inductive Turn (running : Bytes) (inputs : List Input) (n : Nat) (image : Bytes) (boots : UInt32) : Prop where
  | still : staged running inputs n = false → Marked image boots (at' running inputs (n+1)).flash.disk →
    booted running inputs n = false → Turn running inputs n image boots
  | counts : staged running inputs n = false → Marked image (boots+1) (at' running inputs (n+1)).flash.disk →
    tried running inputs n = true → (booted running inputs n = true → ¬ boots+1 > fwPendingMaxBoots) →
    Turn running inputs n image boots
  | rolls : staged running inputs n = true →
    (at' running inputs (n+1)).flash.disk.command = some (.copy .prev) →
    (at' running inputs (n+1)).flash.disk.prev = some image →
    ((at' running inputs (n+1)).flash.disk.pending = none ∨
      cut inputs n = true ∧ ∃ boots', Marked image boots' (at' running inputs (n+1)).flash.disk) →
    Turn running inputs n image boots

structure Turns (running : Bytes) (inputs : List Input) (n : Nat) : Prop where
  frame : framed running inputs n = true → staged running inputs n = false ∧
    ((at' running inputs (n+1)).flash.disk.pending = none ∨ marked running inputs n = true ∧
      Marked (at' running inputs n).running 0 (at' running inputs (n+1)).flash.disk)
  idle : framed running inputs n = false → (at' running inputs n).flash.disk.pending = none →
    staged running inputs n = false ∧ (at' running inputs (n+1)).flash.disk.pending = none
  waits : framed running inputs n = false → ∀ image boots, Marked image boots (at' running inputs n).flash.disk →
    Turn running inputs n image boots

theorem markedFramed {n : Nat} (mark : marked running inputs n = true) : framed running inputs n = true := by
  unfold marked at mark
  unfold framed
  simp only [Bool.and_eq_true] at mark ⊢
  refine ⟨mark.1.1,?_⟩
  have commit := mark.1.2
  unfold inputIs at commit ⊢
  cases here : inputs[n]? with
  | none => rw [here] at commit; exact absurd commit (by simp)
  | some i =>
    rw [here] at commit
    dsimp only at commit ⊢
    cases event : i.event with
    | request op payload => rfl
    | boot => rw [event] at commit; exact absurd commit (by simp [Event.isCommit])
    | frame => rfl
    | tick => rw [event] at commit; exact absurd commit (by simp [Event.isCommit])
    | cut => rw [event] at commit; exact absurd commit (by simp [Event.isCommit])

theorem soundAt (running : Bytes) (inputs : List Input) (n : Nat) :
    Running (at' running inputs n) ∧ Legal (at' running inputs n).flash.disk := by
  induction n with
  | zero => exact ⟨offRunning rfl,.inl rfl⟩
  | succ n ih =>
    cases here : inputs[n]? with
    | none =>
      have stays : at' running inputs (n+1) = at' running inputs n := stateEnd step _ here
      rw [stays]; exact ih
    | some i =>
      have moved : at' running inputs (n+1) = (step (at' running inputs n) i).1 := stateNext step _ here
      have m := moves (i := i) ih.1 ih.2
      rw [moved]
      exact ⟨m.running,movesLegal m ih.2⟩

theorem turnsPast {n : Nat} (here : inputs[n]? = none) : Turns running inputs n := by
  have stays : at' running inputs (n+1) = at' running inputs n := stateEnd step _ here
  have none_ : staged running inputs n = false := by
    unfold staged
    rw [outAt,here]; rfl
  have noFrame : framed running inputs n = false := by unfold framed inputIs; rw [here,Bool.and_false]
  have noBoot : booted running inputs n = false := by
    unfold booted tried inputIs; rw [here,Bool.and_false,Bool.false_and]
  refine ⟨fun frame => absurd (noFrame.symm.trans frame) (by simp),fun _ empty => ⟨none_,?_⟩,
    fun _ image boots mark => .still none_ ?_ noBoot⟩
  · rw [stays]; exact empty
  · rw [stays]; exact mark

theorem turnsAt (running : Bytes) (inputs : List Input) (n : Nat) : Turns running inputs n := by
  cases here : inputs[n]? with
  | none => exact turnsPast here
  | some i =>
    obtain ⟨sound,legal⟩ := soundAt running inputs n
    have moved : at' running inputs (n+1) = (step (at' running inputs n) i).1 := stateNext step _ here
    have m := moves (i := i) sound legal
    rw [← moved] at m
    have out : staged running inputs n = (step (at' running inputs n) i).2 := by
      unfold staged
      rw [outAt,here]
      exact (by decide : ∀ b : Bool, (some b == some true) = b) _
    have isCut : cut inputs n = i.isCut := by unfold cut inputIs; rw [here]
    have isFramed : framed running inputs n = frameStep (at' running inputs n) i := by
      unfold framed frameStep inputIs; rw [here]
    have isTried : tried running inputs n = (!(at' running inputs n).on && i.event == .boot) := by
      unfold tried inputIs; rw [here]
    rw [← out] at m
    refine ⟨fun frame => ?_,fun noFrame empty => m.idle (isFramed.symm.trans noFrame) empty,
      fun noFrame image boots mark => ?_⟩
    · obtain ⟨none_,after⟩ := m.frame (isFramed.symm.trans frame)
      refine ⟨none_,after.imp_right fun committed => ⟨?_,committed.2⟩⟩
      have on : (at' running inputs n).on = true := (Bool.and_eq_true_iff.mp frame).1
      unfold marked inputIs
      rw [here,on,committed.2.1]
      simp only [committed.1]
      rfl
    · have turn := m.waits (isFramed.symm.trans noFrame) image boots mark
      generalize none_ : staged running inputs n = rolled at turn
      cases turn with
      | still same uncut =>
        refine .still none_ same ?_
        cases boot : booted running inputs n with
        | false => rfl
        | true =>
          unfold booted at boot
          rw [isTried,isCut] at boot
          simp only [Bool.and_eq_true,Bool.not_eq_true',beq_iff_eq] at boot
          exact (uncut boot.1.1 boot.1.2).symm.trans boot.2
      | counts next off boot early =>
        refine .counts none_ next (by rw [isTried,off,boot]; rfl) (fun boot' => early.resolve_left fun cut' => ?_)
        unfold booted at boot'
        rw [isCut,cut',Bool.not_true,Bool.and_false] at boot'
        exact absurd boot' (by simp)
      | rolls command prev after =>
        exact .rolls none_ command prev (after.imp_right fun cut' => ⟨isCut.trans cut'.1,cut'.2⟩)

/-- A step after which an update is pending found it pending, or marked it. -/
theorem pendingFrom {n : Nat} (after : (at' running inputs (n+1)).flash.disk.pending ≠ none) :
    marked running inputs n = true ∨ (at' running inputs n).flash.disk.pending ≠ none := by
  have t := turnsAt running inputs n
  cases frame : framed running inputs n with
  | true =>
    rcases (t.frame frame).2 with empty | ⟨mark,-⟩
    · exact absurd empty after
    · exact .inl mark
  | false => exact .inr fun empty => after (t.idle frame empty).2

theorem stagedPending {n : Nat} (rolled : staged running inputs n = true) :
    framed running inputs n = false ∧ (at' running inputs n).flash.disk.pending ≠ none := by
  have t := turnsAt running inputs n
  cases frame : framed running inputs n with
  | true => exact absurd ((t.frame frame).1.symm.trans rolled) (by simp)
  | false => exact ⟨rfl,fun empty => absurd ((t.idle frame empty).1.symm.trans rolled) (by simp)⟩

theorem confirmedStays {j m : Nat} (confirm : confirmed running inputs j = true)
    (rolled : staged running inputs m = true) (late : j < m) :
    ∃ n, j ≤ n ∧ n < m ∧ marked running inputs n = true := by
  by_contra none_
  have unmarked : ∀ n, j ≤ n → n < m → marked running inputs n = false := fun n low high => by
    cases mark : marked running inputs n with
    | false => rfl
    | true => exact absurd ⟨n,low,high,mark⟩ none_
  -- From the confirmation on, nothing is pending.
  have empty : ∀ k, j+1 ≤ k → k ≤ m → (at' running inputs k).flash.disk.pending = none := by
    intro k low
    induction k, low using Nat.le_induction with
    | base =>
      intro high
      have frame : framed running inputs j = true := (Bool.and_eq_true_iff.mp confirm).1
      rcases ((turnsAt running inputs j).frame frame).2 with empty | ⟨mark,-⟩
      · exact empty
      · exact absurd ((unmarked j (Nat.le_refl _) late).symm.trans mark) (by simp)
    | succ k low ih =>
      intro high
      by_contra pending
      rcases pendingFrom pending with mark | before
      · exact absurd ((unmarked k (by omega) (by omega)).symm.trans mark) (by simp)
      · exact before (ih (by omega))
  exact (stagedPending rolled).2 (empty m late (Nat.le_refl _))

/-- The update pending at `m` was marked last at `n`, and has the image of then as its snapshot. -/
def From (running : Bytes) (inputs : List Input) (n m : Nat) : Prop :=
  n < m ∧ marked running inputs n = true ∧ (∀ k, n < k → k < m → marked running inputs k = false) ∧
    ∃ boots, Marked (at' running inputs n).running boots (at' running inputs m).flash.disk

theorem pendingOrigin (running : Bytes) (inputs : List Input) (m : Nat) :
    (at' running inputs m).flash.disk.pending = none ∨ ∃ n, From running inputs n m := by
  induction m with
  | zero => exact .inl rfl
  | succ m ih =>
    have t := turnsAt running inputs m
    cases frame : framed running inputs m with
    | true =>
      rcases (t.frame frame).2 with empty | ⟨mark,fresh⟩
      · exact .inl empty
      · exact .inr ⟨m,Nat.lt_succ_self m,mark,fun k low high => by omega,0,fresh⟩
    | false =>
      rcases ih with empty | ⟨n,early,mark,last,boots,pending⟩
      · exact .inl (t.idle frame empty).2
      have unmarked : ∀ k, n < k → k < m+1 → marked running inputs k = false := by
        intro k low high
        rcases Nat.lt_succ_iff_lt_or_eq.mp high with before | rfl
        · exact last k low before
        · cases here : marked running inputs k with
          | false => rfl
          | true => exact absurd (frame.symm.trans (markedFramed here)) (by simp)
      have from_ : ∀ boots', Marked (at' running inputs n).running boots' (at' running inputs (m+1)).flash.disk →
          From running inputs n (m+1) := fun boots' next => ⟨by omega,mark,unmarked,boots',next⟩
      cases t.waits frame _ _ pending with
      | still _ same _ => exact .inr ⟨n,from_ _ same⟩
      | counts _ next _ _ => exact .inr ⟨n,from_ _ next⟩
      | rolls _ _ _ after => exact after.imp_right fun cut' => ⟨n,from_ _ cut'.2.choose_spec⟩

theorem snapshotStaged {m : Nat} (rolled : staged running inputs m = true) :
    ∃ n, n < m ∧ marked running inputs n = true ∧ (∀ k, n < k → k < m → marked running inputs k = false) ∧
      (at' running inputs (m+1)).flash.disk.command = some (.copy .prev) ∧
      (at' running inputs (m+1)).flash.disk.prev = some (at' running inputs n).running := by
  obtain ⟨frame,pending⟩ := stagedPending rolled
  rcases pendingOrigin running inputs m with empty | ⟨n,early,mark,last,boots,here⟩
  · exact absurd empty pending
  refine ⟨n,early,mark,last,?_⟩
  cases (turnsAt running inputs m).waits frame _ _ here with
  | still none_ _ _ => exact absurd (none_.symm.trans rolled) (by simp)
  | counts none_ _ _ _ => exact absurd (none_.symm.trans rolled) (by simp)
  | rolls _ command prev _ => exact ⟨command,prev⟩

/-- An update not seen yet is pending, with as many boots in its marker as were counted. -/
theorem unseenMarked {n m : Nat} (unseen : Unseen running inputs n m) (k : Nat) (low : n+1 ≤ k) (high : k ≤ m) :
    ∃ count, tally (counted running inputs) k = tally (counted running inputs) (n+1)+count ∧
      Marked (at' running inputs n).running (UInt32.ofNat count) (at' running inputs k).flash.disk := by
  obtain ⟨mark,-,quiet⟩ := unseen
  induction k, low using Nat.le_induction with
  | base =>
    refine ⟨0,rfl,?_⟩
    rcases ((turnsAt running inputs n).frame (markedFramed mark)).2 with empty | ⟨-,fresh⟩
    · have some_ := (Bool.and_eq_true_iff.mp mark).2
      rw [empty] at some_
      exact absurd some_ (by simp)
    · exact fresh
  | succ k low ih =>
    obtain ⟨count,total,here⟩ := ih (by omega)
    obtain ⟨noFrame,none_⟩ := quiet k (by omega) (by omega)
    cases (turnsAt running inputs k).waits noFrame _ _ here with
    | still _ same _ =>
      have uncounted : counted running inputs k = false := by
        unfold counted; rw [here.1,same.1,bne_self_eq_false,Bool.and_false]
      refine ⟨count,?_,same⟩
      rw [tally,uncounted]; exact total
    | counts _ next tried' _ =>
      have counted' : counted running inputs k = true := by
        unfold counted
        rw [tried',here.1,next.1]
        simp
      refine ⟨count+1,?_,?_⟩
      · rw [tally,counted',total]; rfl
      · rw [UInt32.ofNat_add]; exact next
    | rolls rolled _ _ _ => exact absurd (none_.symm.trans rolled) (by simp)

theorem rollbackPays (running : Bytes) (inputs : List Input) (n : Nat) :
    (if staged running inputs n then 1 else 0) +
      (if (at' running inputs (n+1)).flash.disk.pending = none then 0 else 1) ≤
    (if marked running inputs n then 1 else 0) + (if cut inputs n then 1 else 0) +
      (if (at' running inputs n).flash.disk.pending = none then 0 else 1) := by
  have t := turnsAt running inputs n
  cases rolled : staged running inputs n with
  | false =>
    by_cases empty : (at' running inputs (n+1)).flash.disk.pending = none
    · rw [if_pos empty]; simp
    · rw [if_neg empty,if_neg (by simp)]
      rcases pendingFrom empty with mark | before
      · rw [mark,if_pos rfl]; omega
      · rw [if_neg before]; omega
  | true =>
    obtain ⟨frame,before⟩ := stagedPending rolled
    rcases pendingOrigin running inputs n with empty | ⟨_,-,-,-,boots,here⟩
    · exact absurd empty before
    rw [if_neg before]
    cases t.waits frame _ _ here with
    | still none_ _ _ => exact absurd (none_.symm.trans rolled) (by simp)
    | counts none_ _ _ _ => exact absurd (none_.symm.trans rolled) (by simp)
    | rolls _ _ _ after =>
      rcases after with empty | ⟨cut',-⟩
      · rw [if_pos empty]; simp
      · rw [cut']; split <;> split <;> simp

theorem finiteRollbacks (running : Bytes) (inputs : List Input) (n : Nat) :
    tally (staged running inputs) n + (if (at' running inputs n).flash.disk.pending = none then 0 else 1) ≤
      tally (marked running inputs) n + tally (cut inputs) n := by
  induction n with
  | zero => exact Nat.le_refl 0
  | succ n ih =>
    have pays := rollbackPays running inputs n
    simp only [tally]
    omega

theorem bootsRoll {n m : Nat} (unseen : Unseen running inputs n m) (boot : booted running inputs m = true) :
    counted running inputs m = true ∧
      (tally (counted running inputs) (n+1)+8 ≤ tally (counted running inputs) m →
        tally (counted running inputs) m < tally (counted running inputs) (n+1)+4294967295 →
        staged running inputs m = true) := by
  obtain ⟨count,total,here⟩ := unseenMarked unseen m unseen.2.1 (Nat.le_refl m)
  obtain ⟨tried',uncut⟩ := Bool.and_eq_true_iff.mp boot
  have off : (at' running inputs m).on = false := by simpa using (Bool.and_eq_true_iff.mp tried').1
  have noFrame : framed running inputs m = false := by unfold framed; rw [off,Bool.false_and]
  cases (turnsAt running inputs m).waits noFrame _ _ here with
  | still _ _ unbooted => exact absurd (unbooted.symm.trans boot) (by simp)
  | counts _ next _ early =>
    refine ⟨?_,fun eight small => ?_⟩
    · unfold counted
      rw [tried',here.1,next.1]
      simp
    · have bound : count+1 < 4294967296 := by omega
      have passes : UInt32.ofNat count+1 > fwPendingMaxBoots := by
        have exact_ : (UInt32.ofNat count+1).toNat = count+1 := by
          rw [← UInt32.ofNat_one,← UInt32.ofNat_add]
          exact UInt32.toNat_ofNat_of_lt' bound
        refine UInt32.lt_iff_toNat_lt.mpr ?_
        rw [exact_]
        show 8 < count+1
        omega
      exact absurd passes (early boot)
  | rolls rolled _ _ after =>
    refine ⟨?_,fun _ _ => rolled⟩
    rcases after with empty | ⟨cut',-⟩
    · unfold counted
      rw [tried',here.1,empty]
      rfl
    · rw [cut'] at uncut; exact absurd uncut (by simp)

theorem windowRolls {n b m : Nat} {start env : Env} (unseen : Unseen running inputs n m) (after : n < b)
    (before : b < m) (off : (at' running inputs b).on = false) (boot : inputs[b]? = some (.run .boot start))
    (up : ∀ k, b < k → k ≤ m → (at' running inputs k).on = true) (tick : inputs[m]? = some (.run .tick env))
    (late : env.now-start.now > fwVerifyWindowMs) : staged running inputs m = true := by
  have since : ∀ k, b+1 ≤ k → k ≤ m → (at' running inputs k).pendingBootMs = start.now := by
    intro k low
    induction k, low using Nat.le_induction with
    | base =>
      intro high
      obtain ⟨count,-,here⟩ := unseenMarked unseen b (by omega) (by omega)
      have moved : at' running inputs (b+1) = whole (at' running inputs b) .boot start := stateNext step _ boot
      have on := up (b+1) (Nat.lt_succ_self b) high
      obtain ⟨f,-,-,-,⟨-,off',-⟩ | ⟨-,-,-,-,ms⟩⟩ := bootsMarked off here start
      · rw [moved,off'] at on; exact absurd on (by simp)
      · rw [moved]; exact ms
    | succ k low ih =>
      intro high
      have here := ih (by omega)
      have on := up k (by omega) (by omega)
      have on' := up (k+1) (by omega) high
      obtain ⟨sound,legal⟩ := soundAt running inputs k
      have noFrame := (unseen.2.2 k (by omega) (by omega)).1
      cases input : inputs[k]? with
      | none =>
        have stays : at' running inputs (k+1) = at' running inputs k := stateEnd step _ input
        rw [stays]; exact here
      | some i =>
        have moved : at' running inputs (k+1) = (step (at' running inputs k) i).1 := stateNext step _ input
        have isFramed : framed running inputs k = frameStep (at' running inputs k) i := by
          unfold framed frameStep inputIs; rw [input]
        rw [moved] at on' ⊢
        exact (windowKept sound legal on (isFramed.symm.trans noFrame) on').trans here
  obtain ⟨count,-,here⟩ := unseenMarked unseen m unseen.2.1 (Nat.le_refl m)
  obtain ⟨sound,legal⟩ := soundAt running inputs m
  have on := up m before (Nat.le_refl m)
  have set : (at' running inputs m).pending = true := by rw [sound.flag on,here.1]; rfl
  have ms := since m before (Nat.le_refl m)
  obtain ⟨-,-,f,-,last⟩ := lateRolls sound legal on env set (by rw [ms]; exact late)
  unfold staged
  rw [outAt,tick]
  show (some (stages (whole (at' running inputs m) .tick env).flash.trail) == some true) = true
  rw [last,stagesOne (d := f.disk) (by simp [rolledBack,Flash.put])]
  rfl

theorem rollbackLaw (running : Bytes) (inputs : List Input) : RollbackLaw running inputs :=
  ⟨fun _ _ confirm rolled late => confirmedStays confirm rolled late,fun _ rolled => snapshotStaged rolled,
    fun _ _ _ _ _ unseen after before off boot up tick late => windowRolls unseen after before off boot up tick late,
    fun _ _ unseen boot => bootsRoll unseen boot,
    fun n => (Nat.le_add_right _ _).trans (finiteRollbacks running inputs n)⟩

end Runs
end Web3PiUps.FwRollback
