import Web3PiUps.Lib.StepMachine

/-! Scanning a symbol stream for words of a self-delimiting format. The state
is the attempt in progress: the symbols read since the candidate start. A
symbol that ends an attempt without completing it is looked at again as the
start of the next one, never dropped. Nothing here escapes the words: what a
word contains may look like the start of another one. -/
namespace Web3PiUps.Scanner
open StepMachine

universe u v
variable {α : Type u} {β : Type v}

structure Format (α : Type u) (β : Type v) where
  encode : β → List α
  decode : List α → Option β
  viable : List α → Bool

def scan (F : Format α β) (p : List α) (x : α) : List α × Option β :=
  match F.decode (p ++ [x]) with
  | some f => ([],some f)
  | none => (if F.viable (p ++ [x]) then p ++ [x] else if F.viable [x] then [x] else [],none)

/-- Words open with the pair `a b`, an attempt stays below `N` symbols, and no
attempt that is still viable has a whole word inside its own prefix. -/
structure Lawful (F : Format α β) (a b : α) (N : Nat) : Prop where
  differ : a ≠ b
  decodes : ∀ w f, F.decode w = some f ↔ w = F.encode f
  proper : ∀ f p, p <+: F.encode f → p ≠ F.encode f → p ≠ [] → F.viable p = true
  closed : ∀ q f, F.viable q = true → ¬ F.encode f <+: q
  preamble : ∀ q, F.viable q = true → q.take 2 <+: [a,b]
  opens : ∀ f, [a,b] <+: F.encode f
  starts : F.viable [a] = true
  bounded : ∀ q, F.viable q = true → q.length < N

section Steps
variable {F : Format α β} {a b : α} {N : Nat} (law : Lawful F a b N)
include law

theorem decodeViable {q} (h : F.viable q = true) : F.decode q = none := by
  cases d : F.decode q with
  | none => rfl
  | some f =>
    have same := (law.decodes q f).mp d
    exact absurd (same ▸ List.prefix_rfl) (law.closed q f h)

theorem encodeLength (f) : 2 ≤ (F.encode f).length := (law.opens f).length_le

theorem viableSingle {x} : F.viable [x] = true ↔ x = a := by
  constructor
  · intro h
    obtain ⟨rest,eq⟩ := law.preamble [x] h
    simp only [List.take_succ_cons,List.take_nil,List.cons_append,List.nil_append,
      List.cons.injEq] at eq
    exact eq.1
  · rintro rfl; exact law.starts

theorem scanViable {p x} (h : F.viable (p ++ [x]) = true) : scan F p x = (p ++ [x],none) := by
  simp only [scan,decodeViable law h,h,if_true]

theorem scanDone {p x f} (h : p ++ [x] = F.encode f) : scan F p x = ([],some f) := by
  simp only [scan,(law.decodes _ f).mpr h]

theorem scanIdle {x} (h : x ≠ a) : scan F [] x = ([],none) := by
  have stuck : F.viable [x] = false := by
    rw [Bool.eq_false_iff]; exact fun bad => h ((viableSingle law).mp bad)
  have short : F.decode [x] = none := by
    cases d : F.decode [x] with
    | none => rfl
    | some f =>
      have len := encodeLength law f
      rw [← (law.decodes _ f).mp d] at len
      simp at len
  simp [scan,stuck,short]

theorem scanStart {p} (fresh : p = [] ∨ p = [a]) : scan F p a = ([a],none) := by
  rcases fresh with rfl | rfl
  · exact scanViable law law.starts
  · have stuck : F.viable [a,a] = false := by
      rw [Bool.eq_false_iff]
      intro bad
      obtain ⟨rest,eq⟩ := law.preamble _ bad
      simp only [List.take_succ_cons,List.take_zero,List.cons_append,List.nil_append,
        List.cons.injEq,true_and] at eq
      exact law.differ eq.1
    have other : F.decode [a,a] = none := by
      cases d : F.decode [a,a] with
      | none => rfl
      | some f =>
        obtain ⟨rest,eq⟩ := law.opens f
        rw [← (law.decodes _ f).mp d] at eq
        simp only [List.cons_append,List.nil_append,List.cons.injEq,true_and] at eq
        exact absurd eq.1.symm law.differ
    simp [scan,other,stuck,law.starts]

theorem scanRest {p q f} (whole : p ++ q = F.encode f) (more : q ≠ []) :
    outs (scan F) p q = List.replicate (q.length-1) none ++ [some f] ∧ final (scan F) p q = [] := by
  induction q generalizing p with
  | nil => contradiction
  | cons x rest ih =>
    cases rest with
    | nil => simp [scanDone law whole]
    | cons y rest =>
      have split : (p ++ [x]) ++ y::rest = F.encode f := by simpa using whole
      have shorter : p ++ [x] ≠ F.encode f := by
        intro same
        rw [← same] at split
        simp at split
      have kept := scanViable law (law.proper f _ ⟨_,split⟩ shorter (by simp))
      obtain ⟨events,last⟩ := ih split (by simp)
      simp only [outsCons,finalCons,kept,events,last,and_true]
      simp [List.replicate_succ]

theorem scanWord {p} (fresh : p = [] ∨ p = [a]) (f) :
    outs (scan F) p (F.encode f) = List.replicate ((F.encode f).length-1) none ++ [some f] ∧
      final (scan F) p (F.encode f) = [] := by
  obtain ⟨rest,eq⟩ := law.opens f
  have first := scanStart law fresh
  have whole : [a] ++ b::rest = F.encode f := eq
  obtain ⟨events,last⟩ := scanRest law whole (by simp)
  have cut : F.encode f = a::b::rest := eq.symm
  rw [cut,outsCons,finalCons,first,events,last]
  simp [List.replicate_succ]

theorem scanGap {g : List α} (inert : ∀ x ∈ g, x ≠ a) :
    outs (scan F) [] g = List.replicate g.length none ∧ final (scan F) [] g = [] := by
  induction g with
  | nil => exact ⟨rfl,rfl⟩
  | cons x rest ih =>
    have idle := scanIdle law (inert x (by simp))
    obtain ⟨events,last⟩ := ih (fun y hy => inert y (by simp [hy]))
    simp [idle,events,last,List.replicate_succ]

end Steps

theorem scanKeeps (F : Format α β) (p : List α) (x : α) :
    (scan F p x).1 = [] ∨ F.viable (scan F p x).1 = true := by
  unfold scan
  split
  · exact Or.inl rfl
  · split
    · exact Or.inr (by assumption)
    · split
      · exact Or.inr (by assumption)
      · exact Or.inl rfl

theorem finalViable (F : Format α β) {p : List α} (start : p = [] ∨ F.viable p = true) (xs : List α) :
    final (scan F) p xs = [] ∨ F.viable (final (scan F) p xs) = true := by
  rcases xs.eq_nil_or_concat with rfl | ⟨ys,x,rfl⟩
  · exact start
  · rw [List.concat_eq_append,finalConcat]
    exact scanKeeps F _ x

/-! What a run delivers: each word is the end of what has been read, and none
overlaps the word delivered before it. -/

theorem scanSuffix (F : Format α β) (p : List α) (x : α) : (scan F p x).1 <:+ p ++ [x] := by
  unfold scan
  split
  · exact List.nil_suffix
  · split
    · exact List.suffix_rfl
    · split
      · exact List.suffix_append p [x]
      · exact List.nil_suffix

theorem finalSuffix (F : Format α β) (p xs : List α) : final (scan F) p xs <:+ p ++ xs := by
  induction xs generalizing p with
  | nil => simp
  | cons x rest ih =>
    have tail : (scan F p x).1 ++ rest <:+ p ++ [x] ++ rest := by
      obtain ⟨front,eq⟩ := scanSuffix F p x
      exact ⟨front,by rw [← eq,List.append_assoc]⟩
    have whole : p ++ [x] ++ rest = p ++ x::rest := by simp
    exact whole ▸ (ih _).trans tail

section Deliveries
variable {F : Format α β} {a b : α} {N : Nat} (law : Lawful F a b N)
include law

theorem scanDelivers {p x f} (h : (scan F p x).2 = some f) :
    p ++ [x] = F.encode f ∧ (scan F p x).1 = [] := by
  unfold scan at h ⊢
  split at h
  · rename_i g decoded
    cases Option.some.inj h
    exact ⟨(law.decodes _ _).mp decoded,rfl⟩
  · contradiction

theorem deliveredSubstring {p xs n f} (h : (n,f) ∈ stamped 0 (outs (scan F) p xs)) :
    F.encode f <:+ p ++ xs.take n := by
  obtain ⟨i,hi,rfl⟩ := memStamped.mp h
  rw [outAt] at hi
  obtain ⟨x,hx,step⟩ := Option.map_eq_some_iff.mp hi
  have last := (scanDelivers law step).1
  have prior := finalSuffix F p (xs.take i)
  have next : xs.take (0+i+1) = xs.take i ++ [x] := by
    rw [Nat.zero_add,List.take_add_one,hx]; rfl
  rw [next,← last,← List.append_assoc]
  obtain ⟨front,eq⟩ := prior
  exact ⟨front,by rw [← eq,List.append_assoc]⟩

theorem deliveredFromEmpty {xs n f} {k : Nat} (h : (n,f) ∈ stamped k (outs (scan F) [] xs)) :
    k + (F.encode f).length ≤ n := by
  obtain ⟨i,hi,rfl⟩ := memStamped.mp h
  have event : (0+i+1,f) ∈ stamped 0 (outs (scan F) [] xs) := memStamped.mpr ⟨i,hi,rfl⟩
  have inside := (deliveredSubstring law event).length_le
  simp only [List.nil_append,List.length_take] at inside
  omega

theorem deliveriesApart (k : Nat) (p xs : List α) :
    (stamped k (outs (scan F) p xs)).Pairwise (fun d e => d.1 + (F.encode e.2).length ≤ e.1) := by
  induction xs generalizing k p with
  | nil => exact List.Pairwise.nil
  | cons x rest ih =>
    rw [outsCons]
    cases out : (scan F p x).2 with
    | none => exact ih (k+1) _
    | some f =>
      refine List.Pairwise.cons ?_ (ih (k+1) _)
      intro e he
      rw [(scanDelivers law out).2] at he
      exact deliveredFromEmpty law he

end Deliveries
end Web3PiUps.Scanner
