import Web3PiUps.Lib.Scanner

/-! Streams of words, each followed by a gap of symbols that start nothing.
Read from a fresh state the stream gives its words. Read from any state, it
gives every word that starts at least one longest attempt later, provided the
opening pair stands only where words start. -/
namespace Web3PiUps.WordStream
open StepMachine Scanner

universe u v
variable {α : Type u} {β : Type v}

def stream (F : Format α β) : List (β × List α) → List α
  | [] => []
  | (f,g)::rest => F.encode f ++ g ++ stream F rest

def starts (F : Format α β) : Nat → List (β × List α) → List Nat
  | _, [] => []
  | k, (f,g)::rest => k :: starts F (k+(F.encode f).length+g.length) rest

def expected (F : Format α β) : Nat → List (β × List α) → List (Nat × β)
  | _, [] => []
  | k, (f,g)::rest => (k+(F.encode f).length,f) :: expected F (k+(F.encode f).length+g.length) rest

def PairOnlyAtStarts (F : Format α β) (a b : α) (items : List (β × List α)) : Prop :=
  ∀ n, (stream F items)[n]? = some a → (stream F items)[n+1]? = some b → n ∈ starts F 0 items

instance [DecidableEq α] (F : Format α β) (a b : α) (items) :
    Decidable (PairOnlyAtStarts F a b items) :=
  decidable_of_iff (∀ n, n < (stream F items).length →
      (stream F items)[n]? = some a → (stream F items)[n+1]? = some b → n ∈ starts F 0 items) <| by
    constructor
    · intro bounded n ha hb
      exact bounded n (List.getElem?_eq_some_iff.mp ha).1 ha hb
    · intro all n _ ha hb
      exact all n ha hb

def late (F : Format α β) (bound : Nat) (d : Nat × β) : Bool :=
  decide (bound + (F.encode d.2).length ≤ d.1)

theorem streamAppend (F : Format α β) (x y) : stream F (x ++ y) = stream F x ++ stream F y := by
  induction x with
  | nil => rfl
  | cons item rest ih => simp [stream,ih]

theorem startsAppend (F : Format α β) (k x y) :
    starts F k (x ++ y) = starts F k x ++ starts F (k+(stream F x).length) y := by
  induction x generalizing k with
  | nil => rfl
  | cons item rest ih =>
    simp only [List.cons_append,starts,ih,stream,List.length_append,Nat.add_assoc]

theorem expectedAppend (F : Format α β) (k x y) :
    expected F k (x ++ y) = expected F k x ++ expected F (k+(stream F x).length) y := by
  induction x generalizing k with
  | nil => rfl
  | cons item rest ih =>
    simp only [List.cons_append,expected,ih,stream,List.length_append,Nat.add_assoc]

theorem expectedEvents (F : Format α β) (k items) :
    (expected F k items).map Prod.snd = items.map Prod.fst := by
  induction items generalizing k with
  | nil => rfl
  | cons item rest ih => simp [expected,ih]

theorem startsWhole (F : Format α β) {k s : Nat} {items} (h : s ∈ starts F k items) :
    ∃ f front back, stream F items = front ++ F.encode f ++ back ∧ s = k + front.length := by
  induction items generalizing k with
  | nil => simp [starts] at h
  | cons item rest ih =>
    rcases List.mem_cons.mp h with rfl | later
    · exact ⟨item.1,[],item.2 ++ stream F rest,by simp [stream],by simp⟩
    · obtain ⟨f,front,back,eq,pos⟩ := ih later
      refine ⟨f,F.encode item.1 ++ item.2 ++ front,back,?_,?_⟩
      · simp [stream,eq]
      · simp only [List.length_append]; omega

theorem expectedStart (F : Format α β) {k : Nat} {items} {d} (h : d ∈ expected F k items) :
    ∃ s ∈ starts F k items, d.1 = s + (F.encode d.2).length := by
  induction items generalizing k with
  | nil => simp [expected] at h
  | cons item rest ih =>
    rcases List.mem_cons.mp h with rfl | later
    · exact ⟨k,by simp [starts],rfl⟩
    · obtain ⟨s,hs,eq⟩ := ih later
      exact ⟨s,by simp [starts,hs],eq⟩

theorem startsShift (F : Format α β) (k j : Nat) (items) :
    starts F (k+j) items = (starts F j items).map (k + ·) := by
  induction items generalizing j with
  | nil => rfl
  | cons item rest ih => simp only [starts,List.map_cons,← ih,Nat.add_assoc]

theorem startsFrom (F : Format α β) {k s : Nat} {items} (h : s ∈ starts F k items) : k ≤ s := by
  obtain ⟨_,front,_,_,pos⟩ := startsWhole F h
  omega

theorem cutAt (F : Format α β) (bound k : Nat) (items : List (β × List α)) :
    ∃ early rest, items = early ++ rest ∧ (∀ s ∈ starts F k early, s < bound) ∧
      (rest = [] ∨ bound ≤ k + (stream F early).length) := by
  induction items generalizing k with
  | nil => exact ⟨[],[],rfl,by simp [starts],Or.inl rfl⟩
  | cons item rest ih =>
    by_cases soon : k < bound
    · obtain ⟨early,tail,eq,before,after⟩ := ih (k+(F.encode item.1).length+item.2.length)
      refine ⟨item::early,tail,by simp [eq],?_,?_⟩
      · intro s hs
        rcases List.mem_cons.mp hs with rfl | later
        · exact soon
        · exact before s later
      · rcases after with none | enough
        · exact Or.inl none
        · right; simp only [stream,List.length_append]; omega
    · exact ⟨[],item::rest,rfl,by simp [starts],Or.inr (by simp [stream]; omega)⟩

theorem pairStart {F : Format α β} {a b : α} {items : List (β × List α)} {early rest}
    (cut : items = early ++ rest)
    (pair : PairOnlyAtStarts F a b items) {n : Nat} (inside : n+1 < (stream F early).length)
    (ha : (stream F early)[n]? = some a) (hb : (stream F early)[n+1]? = some b) :
    n ∈ starts F 0 early := by
  have at0 : (stream F items)[n]? = some a := by
    rw [cut,streamAppend,List.getElem?_append_left (by omega)]; exact ha
  have at1 : (stream F items)[n+1]? = some b := by
    rw [cut,streamAppend,List.getElem?_append_left inside]; exact hb
  have found := pair n at0 at1
  rw [cut,startsAppend,List.mem_append] at found
  rcases found with h | h
  · exact h
  · have := startsFrom F h; omega

section Delivery
variable {F : Format α β} {a b : α} {N : Nat} (law : Lawful F a b N)
include law

theorem streamDelivers {items : List (β × List α)} {p} (k : Nat)
    (inert : ∀ item ∈ items, ∀ x ∈ item.2, x ≠ a) (fresh : p = [] ∨ p = [a] ∧ items ≠ []) :
    stamped k (outs (scan F) p (stream F items)) = expected F k items ∧
      final (scan F) p (stream F items) = [] := by
  induction items generalizing p k with
  | nil =>
    rcases fresh with rfl | ⟨_,none⟩
    · exact ⟨rfl,rfl⟩
    · contradiction
  | cons item rest ih =>
    obtain ⟨f,g⟩ := item
    have first : p = [] ∨ p = [a] := fresh.imp_right And.left
    obtain ⟨events,ended⟩ := scanWord law first f
    obtain ⟨quiet,idle⟩ := scanGap law (inert (f,g) (by simp))
    have word := encodeLength law f
    have next := ih (k+(F.encode f).length+g.length) (fun i hi => inert i (by simp [hi])) (Or.inl rfl)
    have last : k+((F.encode f).length-1)+1 = k+(F.encode f).length := by omega
    constructor
    · rw [stream,outsAppend,outsAppend,finalAppend,ended,events,quiet,idle]
      rw [stampedAppend,stampedAppend,stampedAppend,stampedQuiet,stampedQuiet]
      simp only [List.length_append,List.length_replicate,List.length_singleton,List.nil_append,
        List.append_nil,stamped,expected,last,Nat.add_assoc,List.cons_append]
      rw [show (F.encode f).length-1+(1+g.length) = (F.encode f).length+g.length by omega]
      rw [← Nat.add_assoc,next.1]
    · rw [stream,finalAppend,finalAppend,ended,idle]
      exact next.2

theorem pairAt {t front back : List α} {f} (eq : t = front ++ F.encode f ++ back) :
    t[front.length]? = some a ∧ t[front.length+1]? = some b := by
  obtain ⟨rest,opened⟩ := law.opens f
  rw [eq,← opened]
  simp

theorem noLateWord {items : List (β × List α)} {early rest} (cut : items = early ++ rest)
    (pair : PairOnlyAtStarts F a b items) {bound : Nat} (before : ∀ s ∈ starts F 0 early, s < bound)
    (p : List α) (k : Nat) {d} (h : d ∈ stamped k (outs (scan F) p (stream F early))) :
    ¬ k + bound + (F.encode d.2).length ≤ d.1 := by
  obtain ⟨n,f⟩ := d
  obtain ⟨i,hi,rfl⟩ := memStamped.mp h
  intro isLate
  have event : (0+i+1,f) ∈ stamped 0 (outs (scan F) p (stream F early)) := memStamped.mpr ⟨i,hi,rfl⟩
  have bounds := stampedBounds event
  simp only [outsLength,Nat.zero_add] at bounds isLate event
  have inTake : F.encode f <:+ (stream F early).take (i+1) :=
    List.suffix_of_suffix_length_le (deliveredSubstring law event) (List.suffix_append p _)
      (by rw [List.length_take]; omega)
  obtain ⟨front,eq⟩ := inTake
  have whole : stream F early = front ++ F.encode f ++ (stream F early).drop (i+1) := by
    rw [eq,List.take_append_drop]
  have len := congrArg List.length eq
  simp only [List.length_append,List.length_take] at len
  have word := encodeLength law f
  obtain ⟨ha,hb⟩ := pairAt law whole
  have start := before _ (pairStart cut pair (by omega) ha hb)
  omega

theorem freshAt {items : List (β × List α)} {early rest} (cut : items = early ++ rest)
    (pair : PairOnlyAtStarts F a b items) {p} (viable : p = [] ∨ F.viable p = true)
    (past : N ≤ (stream F early).length+2) (three : 3 ≤ N) :
    final (scan F) p (stream F early) = [] ∨ final (scan F) p (stream F early) = [a] := by
  rcases finalViable F viable (stream F early) with none | live
  · exact Or.inl none
  · have opened := law.preamble _ live
    have short := law.bounded _ live
    have tail := finalSuffix F p (stream F early)
    generalize final (scan F) p (stream F early) = q at live opened short tail ⊢
    match q with
    | [] => exact Or.inl rfl
    | [x] => right; rw [(viableSingle law).mp live]
    | x::y::more =>
      exfalso
      obtain ⟨hx,hy⟩ : x = a ∧ y = b := by simpa using opened
      subst hx hy
      by_cases inside : (x::y::more).length ≤ (stream F early).length
      · -- the attempt began inside the stream, so at the start of a word it has read whole
        obtain ⟨front,eq⟩ := List.suffix_of_suffix_length_le tail (List.suffix_append p _) inside
        have len := congrArg List.length eq
        simp only [List.length_append,List.length_cons] at len
        have found : front.length ∈ starts F 0 early :=
          pairStart cut pair (by omega) (by rw [← eq]; simp) (by rw [← eq]; simp)
        obtain ⟨f,front',back,whole,pos⟩ := startsWhole F found
        rw [← eq,List.append_assoc] at whole
        have same := (List.append_inj whole (by omega)).2
        exact law.closed _ f live ⟨back,same.symm⟩
      · -- it began one symbol before the stream, whose first symbol is no second one
        have whole : stream F early <:+ x::y::more :=
          List.suffix_of_suffix_length_le (List.suffix_append p _) tail (by omega)
        obtain ⟨front,eq⟩ := whole
        have len := congrArg List.length eq
        simp only [List.length_append,List.length_cons] at len short inside
        match early, front with
        | [], _ => simp [stream] at past; omega
        | _, [] => simp only [List.length_nil] at len; omega
        | _, _::_::_ => simp only [List.length_cons] at len past; omega
        | item::more', [z] =>
          obtain ⟨r,start⟩ := law.opens item.1
          have head : stream F (item::more') = x::y::(r ++ item.2 ++ stream F more') := by
            simp [stream,← start]
          rw [head] at eq
          simp only [List.cons_append,List.nil_append,List.cons.injEq] at eq
          exact law.differ eq.2.1

theorem resynchronises {items : List (β × List α)} (inert : ∀ item ∈ items, ∀ x ∈ item.2, x ≠ a)
    (pair : PairOnlyAtStarts F a b items) {p} (viable : p = [] ∨ F.viable p = true) (k : Nat)
    (three : 3 ≤ N) :
    (stamped k (outs (scan F) p (stream F items))).filter (late F (k+(N-2))) =
      (expected F k items).filter (late F (k+(N-2))) := by
  obtain ⟨early,rest,cut,before,after⟩ := cutAt F (N-2) 0 items
  have notOwed : (expected F k early).filter (late F (k+(N-2))) = [] := by
    rw [List.filter_eq_nil_iff]
    intro d hd isLate
    obtain ⟨s,hs,eq⟩ := expectedStart F hd
    rw [← Nat.add_zero k,startsShift] at hs
    obtain ⟨r,hr,rfl⟩ := List.mem_map.mp hs
    have := before r hr
    simp only [late,decide_eq_true_eq,eq] at isLate
    omega
  have notGiven : (stamped k (outs (scan F) p (stream F early))).filter (late F (k+(N-2))) = [] := by
    rw [List.filter_eq_nil_iff]
    intro d hd isLate
    exact noLateWord law cut pair before p k hd (by simpa [late] using isLate)
  rw [cut,streamAppend,outsAppend,stampedAppend,expectedAppend,List.filter_append,List.filter_append,
    notOwed,notGiven,outsLength]
  rcases after with rfl | enough
  · rfl
  · by_cases none : rest = []
    · subst none; rfl
    · have fresh := freshAt law cut pair viable (by omega) three
      have settled := streamDelivers law (k+(stream F early).length)
        (fun item hi => inert item (by simp [cut,hi])) (fresh.imp_right (fun h => ⟨h,none⟩))
      rw [settled.1]

end Delivery
end Web3PiUps.WordStream
