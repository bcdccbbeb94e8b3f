import Mathlib.Data.List.Count
import Mathlib.Data.List.Basic

/-! Tasks that share one state and interleave between their atomic actions. The code of a
task is the tree of its actions and of what it does on each answer; a rule for what a task
must hold before an action, and for what it holds after the answer, is checked on the code
of every call once and then holds of every interleaving. -/
namespace Web3PiUps.Tasks

variable {Act : Type} {Ans : Act → Type} {α β : Type}

inductive Code (Ans : Act → Type) (α : Type) where
  | done (x : α) : Code Ans α
  | act (a : Act) (next : Ans a → Code Ans α) : Code Ans α

namespace Code

def bind : Code Ans α → (α → Code Ans β) → Code Ans β
  | .done x, f => f x
  | .act a next, f => .act a fun r => (next r).bind f

instance : Monad (Code Ans) where
  pure := .done
  bind := bind

def call (a : Act) : Code Ans (Ans a) := .act a .done

@[simp] theorem pureDone (x : α) : (pure x : Code Ans α) = .done x := rfl
@[simp] theorem doneBind (x : α) (f : α → Code Ans β) : Code.done x >>= f = f x := rfl
@[simp] theorem actBind (a : Act) (next : Ans a → Code Ans α) (f : α → Code Ans β) :
    Code.act a next >>= f = .act a fun r => next r >>= f := rfl
@[simp] theorem callBind (a : Act) (f : Ans a → Code Ans β) : (call a >>= f) = .act a f := rfl

end Code

/-! What a task has to hold before an action, and what it may rely on in the answer. -/

structure Rules (Ans : Act → Type) (H : Type) where
  need : H → Act → Prop
  may : H → (a : Act) → Ans a → Prop
  after : H → (a : Act) → Ans a → H

section Rules
variable {H : Type} (rules : Rules Ans H)

def Keeps (last : α → H → Prop) : Code Ans α → H → Prop
  | .done x, h => last x h
  | .act a next, h => rules.need h a ∧ ∀ r, rules.may h a r → Keeps last (next r) (rules.after h a r)

variable {rules}

@[simp] theorem keepsDone {last : α → H → Prop} {x : α} {h : H} :
    Keeps rules last (.done x) h ↔ last x h := Iff.rfl

@[simp] theorem keepsAct {last : α → H → Prop} {a : Act} {next : Ans a → Code Ans α} {h : H} :
    Keeps rules last (.act a next) h ↔
      rules.need h a ∧ ∀ r, rules.may h a r → Keeps rules last (next r) (rules.after h a r) := Iff.rfl

theorem keepsBind {m : α → H → Prop} {last : β → H → Prop} {c : Code Ans α}
    {f : α → Code Ans β} {h : H} (first : Keeps rules m c h)
    (rest : ∀ x h', m x h' → Keeps rules last (f x) h') : Keeps rules last (c >>= f) h := by
  induction c generalizing h with
  | done x => exact rest x h first
  | act a next ih => exact ⟨first.1,fun r known => ih r (first.2 r known)⟩

theorem keepsIte {last : α → H → Prop} {p : Prop} [Decidable p] {c d : Code Ans α} {h : H}
    (yes : p → Keeps rules last c h) (no : ¬p → Keeps rules last d h) :
    Keeps rules last (if p then c else d) h := by
  split
  · exact yes ‹p›
  · exact no ‹¬p›

theorem keepsMono {last weaker : α → H → Prop} {c : Code Ans α} {h : H}
    (keeps : Keeps rules last c h) (implies : ∀ x h', last x h' → weaker x h') :
    Keeps rules weaker c h := by
  induction c generalizing h with
  | done x => exact implies x h keeps
  | act a next ih => exact ⟨keeps.1,fun r known => ih r (keeps.2 r known)⟩

end Rules

/-! What one task has done so far, and what that leaves it holding. -/

abbrev Trace (Ans : Act → Type) := List ((a : Act) × Ans a)

inductive Reached {H : Type} (rules : Rules Ans H) (empty : H) : Trace Ans → H → Prop where
  | start : Reached rules empty [] empty
  | next {trace : Trace Ans} {h : H} {a : Act} {r : Ans a} (before : Reached rules empty trace h)
      (needs : rules.need h a) (known : rules.may h a r) :
      Reached rules empty (trace ++ [⟨a,r⟩]) (rules.after h a r)

/-! One task alone: the actions it asks for, each with what it held then, when the answers
are whatever they are. -/

section Alone
variable {H : Type} (rules : Rules Ans H)

def alone : Code Ans α → H → List ((a : Act) → Ans a) → List (H × Act)
  | .done _,_,_ => []
  | .act a _,h,[] => [(h,a)]
  | .act a next,h,e::es => (h,a) :: alone (next (e a)) (rules.after h a (e a)) es

variable {rules}

theorem neededBefore {last : α → H → Prop} {c : Code Ans α} {h : H} (keeps : Keeps rules last c h)
    (free : ∀ h a r, rules.may h a r) (es : List ((a : Act) → Ans a)) :
    ∀ x ∈ alone rules c h es, rules.need x.1 x.2 := by
  induction es generalizing c h with
  | nil =>
    cases c with
    | done x => exact nofun
    | act a next => exact fun x inside => by cases List.mem_singleton.mp inside; exact keeps.1
  | cons e es ih =>
    cases c with
    | done x => exact nofun
    | act a next =>
      intro x inside
      rcases List.mem_cons.mp inside with rfl | later
      · exact keeps.1
      · exact ih (keeps.2 (e a) (free h a _)) x later

/-- What an action adds to, and may only do below a bound, is done at most that often. -/
theorem countedBelow {n : Nat} {p : Act → Bool} {m : H → Nat}
    (adds : ∀ h a r, m (rules.after h a r) = m h + (p a).toNat) {c : Code Ans α} {h : H}
    (es : List ((a : Act) → Ans a)) (below : ∀ x ∈ alone rules c h es, p x.2 = true → m x.1 < n)
    (low : m h ≤ n) : m h + (alone rules c h es).countP (fun x => p x.2) ≤ n := by
  induction es generalizing c h with
  | nil =>
    cases c with
    | done x => simpa [alone] using low
    | act a next =>
      have here := below (h,a) (by simp [alone])
      cases counted : p a with
      | false => simpa [alone,counted] using low
      | true => simpa [alone,counted] using Nat.succ_le_of_lt (here counted)
  | cons e es ih =>
    cases c with
    | done x => simpa [alone] using low
    | act a next =>
      have here := below (h,a) (by simp [alone])
      have grown := adds h a (e a)
      have later := ih (c := next (e a)) (h := rules.after h a (e a))
        (fun x inside => below x (List.mem_cons_of_mem _ inside)) (by
          cases counted : p a with
          | false => simpa [grown,counted] using low
          | true => simpa [grown,counted] using Nat.succ_le_of_lt (here counted))
      simp only [alone,List.countP_cons]
      cases counted : p a <;> simp [grown,counted] at later ⊢ <;> omega

/-- Two codes that ask for the same actions as long as fewer than `n` answers are in. -/
def SameFor : Nat → Code Ans α → Code Ans α → Prop
  | 0,_,_ => True
  | _+1,.done x,d => d = .done x
  | n+1,.act a next,d => ∃ other, d = .act a other ∧ ∀ r, SameFor n (next r) (other r)

theorem sameForRefl (n : Nat) (c : Code Ans α) : SameFor n c c := by
  induction n generalizing c with
  | zero => exact trivial
  | succ n ih =>
    cases c with
    | done x => exact rfl
    | act a next => exact ⟨next,rfl,fun r => ih (next r)⟩

theorem sameForLess {n : Nat} {c d : Code Ans α} (same : SameFor (n+1) c d) : SameFor n c d := by
  induction n generalizing c d with
  | zero => exact trivial
  | succ n ih =>
    cases c with
    | done x => exact same
    | act a next =>
      obtain ⟨other,rfl,later⟩ := same
      exact ⟨other,rfl,fun r => ih (later r)⟩

theorem sameForBind {n : Nat} {c d : Code Ans α} {f g : α → Code Ans β} (first : SameFor n c d)
    (rest : ∀ x, SameFor n (f x) (g x)) : SameFor n (c >>= f) (d >>= g) := by
  induction n generalizing c d with
  | zero => exact trivial
  | succ n ih =>
    cases c with
    | done x => cases first; exact rest x
    | act a next =>
      obtain ⟨other,rfl,later⟩ := first
      exact ⟨_,rfl,fun r => ih (later r) fun x => sameForLess (rest x)⟩

theorem sameForIte {p : Prop} {_ : Decidable p} {n : Nat} {a b c d : Code Ans α} (yes : SameFor n a c)
    (no : SameFor n b d) : SameFor n (if p then a else b) (if p then c else d) := by
  split
  · exact yes
  · exact no

theorem sameForAlone {c d : Code Ans α} {h : H} {es : List ((a : Act) → Ans a)}
    (same : SameFor (es.length+1) c d) : alone rules c h es = alone rules d h es := by
  induction es generalizing c d h with
  | nil =>
    cases c with
    | done x => cases same; rfl
    | act a next => obtain ⟨other,rfl,_⟩ := same; rfl
  | cons e es ih =>
    cases c with
    | done x => cases same; rfl
    | act a next =>
      obtain ⟨other,rfl,later⟩ := same
      exact congrArg _ (ih (later (e a)))

/-! Alone in a world that does not give every answer: `hear` is what comes of one. -/

variable (rules) (hear : H → (a : Act) → Ans a → Ans a)

def heard : Code Ans α → H → List ((a : Act) → Ans a) → List (H × Act)
  | .done _,_,_ => []
  | .act a _,h,[] => [(h,a)]
  | .act a next,h,e::es => (h,a) :: heard (next (hear h a (e a))) (rules.after h a (hear h a (e a))) es

variable {rules hear}

theorem neededHeard {last : α → H → Prop} {c : Code Ans α} {h : H} (keeps : Keeps rules last c h)
    (possible : ∀ h a r, rules.may h a (hear h a r)) (es : List ((a : Act) → Ans a)) :
    ∀ x ∈ heard rules hear c h es, rules.need x.1 x.2 := by
  induction es generalizing c h with
  | nil =>
    cases c with
    | done x => exact nofun
    | act a next => exact fun x inside => by cases List.mem_singleton.mp inside; exact keeps.1
  | cons e es ih =>
    cases c with
    | done x => exact nofun
    | act a next =>
      intro x inside
      rcases List.mem_cons.mp inside with rfl | later
      · exact keeps.1
      · exact ih (keeps.2 _ (possible h a (e a))) x later

end Alone

inductive Effect (A S : Type) where
  | waits
  | returns (answer : A) (state : S)
  | ends (state : S)

/-- `exec` is one atomic action in a world that answers `e`; a task may wait, and the last
action of all may end everything. -/
structure System (Ans : Act → Type) (S H E Call : Type) where
  exec : (a : Act) → E → S → Effect (Ans a) S
  body : Call → Code Ans Unit
  empty : H
  rules : Call → Rules Ans H

structure Task (Ans : Act → Type) (H Call : Type) where
  call : Call
  held : H
  trace : Trace Ans
  code : Code Ans Unit

structure World (Ans : Act → Type) (S H Call : Type) where
  shared : S
  tasks : List (Task Ans H Call)

inductive Input (E Call : Type) where
  | start (call : Call)
  | run (task : Nat) (outside : E)

section Steps
variable {S H E Call : Type} (sys : System Ans S H E Call)

def runTask (w : World Ans S H Call) (i : Nat) (e : E) (t : Task Ans H Call) : World Ans S H Call :=
  match t.code with
  | .done _ => w
  | .act a next =>
    match sys.exec a e w.shared with
    | .waits => w
    | .ends s => { w with shared := s }
    | .returns r s =>
      ⟨s,w.tasks.set i ⟨t.call,(sys.rules t.call).after t.held a r,t.trace ++ [⟨a,r⟩],next r⟩⟩

def step (w : World Ans S H Call) : Input E Call → World Ans S H Call
  | .start c => { w with tasks := w.tasks ++ [⟨c,sys.empty,[],sys.body c⟩] }
  | .run i e =>
    match w.tasks[i]? with
    | none => w
    | some t => runTask sys w i e t

def run (w : World Ans S H Call) (inputs : List (Input E Call)) : World Ans S H Call :=
  inputs.foldl (step sys) w

def start (s : S) : World Ans S H Call := ⟨s,[]⟩

def helds (w : World Ans S H Call) : List H := w.tasks.map Task.held

theorem heldAt {w : World Ans S H Call} {i : Nat} {t : Task Ans H Call} (here : w.tasks[i]? = some t) :
    (helds w)[i]? = some t.held := by
  rw [helds,List.getElem?_map,here]
  rfl

structure Sound (last : H → Prop) (Agree : S → List H → Prop) : Prop where
  enters : ∀ c, Keeps (sys.rules c) (fun _ => last) (sys.body c) sys.empty
  starts : ∀ s hs, Agree s hs → Agree s (hs ++ [sys.empty])
  acts : ∀ c s (hs : List H) (i : Nat) h a e r s', Agree s hs → hs[i]? = some h →
    (sys.rules c).need h a → sys.exec a e s = .returns r s' →
    (sys.rules c).may h a r ∧ Agree s' (hs.set i ((sys.rules c).after h a r))
  ends : ∀ c s (hs : List H) (i : Nat) h a e s', Agree s hs → hs[i]? = some h →
    (sys.rules c).need h a → sys.exec a e s = .ends s' → Agree s' hs

structure Fits (last : H → Prop) (Agree : S → List H → Prop) (w : World Ans S H Call) : Prop where
  agree : Agree w.shared (helds w)
  keeps : ∀ t ∈ w.tasks, Keeps (sys.rules t.call) (fun _ => last) t.code t.held
  reached : ∀ t ∈ w.tasks, Reached (sys.rules t.call) sys.empty t.trace t.held

variable {sys} {last : H → Prop} {Agree : S → List H → Prop}

theorem startFits {s : S} (agree : Agree s []) : Fits sys last Agree (start s) := ⟨agree,nofun,nofun⟩

theorem Fits.launch (sound : Sound sys last Agree) {w : World Ans S H Call}
    (fits : Fits sys last Agree w) (c : Call) : Fits sys last Agree (step sys w (.start c)) := by
  refine ⟨?_,fun t inside => ?_,fun t inside => ?_⟩
  · have more := sound.starts _ _ fits.agree
    simpa [step,helds] using more
  · rcases List.mem_append.mp inside with old | new
    · exact fits.keeps t old
    · cases List.mem_singleton.mp new; exact sound.enters c
  · rcases List.mem_append.mp inside with old | new
    · exact fits.reached t old
    · cases List.mem_singleton.mp new; exact .start

theorem Fits.turn (sound : Sound sys last Agree) {w : World Ans S H Call}
    (fits : Fits sys last Agree w) (i : Nat) (e : E) :
    Fits sys last Agree (step sys w (.run i e)) := by
  unfold Tasks.step
  cases here : w.tasks[i]? with
  | none => simpa only [here] using fits
  | some t =>
    simp only [here]
    have present : t ∈ w.tasks := List.mem_of_getElem? here
    have held := heldAt here
    have keeps := fits.keeps t present
    have reached := fits.reached t present
    unfold runTask
    cases shape : t.code with
    | done x => exact fits
    | act a next =>
      rw [shape] at keeps
      dsimp only
      cases did : sys.exec a e w.shared with
      | waits => exact fits
      | ends s =>
        exact ⟨sound.ends t.call _ _ i t.held a e s fits.agree held keeps.1 did,fits.keeps,fits.reached⟩
      | returns r s =>
        obtain ⟨known,moved⟩ := sound.acts t.call _ _ i t.held a e r s fits.agree held keeps.1 did
        refine ⟨?_,fun u inside => ?_,fun u inside => ?_⟩
        · simpa [helds] using moved
        · rcases List.mem_or_eq_of_mem_set inside with old | rfl
          · exact fits.keeps u old
          · exact keeps.2 r known
        · rcases List.mem_or_eq_of_mem_set inside with old | rfl
          · exact fits.reached u old
          · exact .next reached keeps.1 known

theorem Fits.step (sound : Sound sys last Agree) {w : World Ans S H Call}
    (fits : Fits sys last Agree w) (input : Input E Call) :
    Fits sys last Agree (Tasks.step sys w input) := by
  cases input with
  | start c => exact fits.launch sound c
  | run i e => exact fits.turn sound i e

theorem Fits.run (sound : Sound sys last Agree) {w : World Ans S H Call}
    (fits : Fits sys last Agree w) (inputs : List (Input E Call)) :
    Fits sys last Agree (Tasks.run sys w inputs) := by
  induction inputs generalizing w with
  | nil => exact fits
  | cons input rest ih => exact ih (fits.step sound input)

end Steps

section Tokens
variable {H : Type} {hs : List H} {i j : Nat} {h g : H} (p : H → Bool)

theorem countSet (here : hs[i]? = some h) :
    (hs.set i g).countP p + (p h).toNat = hs.countP p + (p g).toNat := by
  induction hs generalizing i with
  | nil => exact nomatch here
  | cons k rest ih =>
    cases i with
    | zero =>
      cases Option.some.inj here
      simp only [List.set_cons_zero,List.countP_cons]
      cases p h <;> cases p g <;> simp
    | succ i =>
      have later := ih (i := i) (by simpa using here)
      simp only [List.set_cons_succ,List.countP_cons]
      omega

theorem countKept {n : Nat} (here : hs[i]? = some h) (before : hs.countP p = n) (same : p g = p h) :
    (hs.set i g).countP p = n := by
  have counted := countSet p (g := g) here
  rw [same,before] at counted
  exact Nat.add_right_cancel counted

theorem setSame (here : hs[i]? = some h) : hs.set i h = hs := by
  obtain ⟨inside,rfl⟩ := List.getElem?_eq_some_iff.mp here
  exact List.set_getElem_self inside

variable {p}

theorem countHolds (here : hs[i]? = some h) (holds : p h = true) : 0 < hs.countP p :=
  List.countP_pos_iff.mpr ⟨h,List.mem_of_getElem? here,holds⟩

theorem oneHolder (one : hs.countP p ≤ 1) (here : hs[i]? = some h) (there : hs[j]? = some g)
    (holds : p h = true) (holds' : p g = true) : i = j := by
  induction hs generalizing i j with
  | nil => exact nomatch here
  | cons k rest ih =>
    rw [List.countP_cons] at one
    cases i with
    | zero =>
      cases Option.some.inj here
      cases j with
      | zero => rfl
      | succ j =>
        have later : rest[j]? = some g := by simpa using there
        have more := countHolds later holds'
        rw [if_pos holds] at one
        omega
    | succ i =>
      cases j with
      | zero =>
        cases Option.some.inj there
        have later : rest[i]? = some h := by simpa using here
        have more := countHolds later holds
        rw [if_pos holds'] at one
        omega
      | succ j =>
        exact congrArg (·+1) (ih (by omega) (by simpa using here) (by simpa using there))

/-- After one task has moved, what every task holds is what it held, or what the mover holds now. -/
theorem heldAfter {P : H → Prop} (here : hs[i]? = some h) (moved : P g)
    (others : ∀ j k, j ≠ i → hs[j]? = some k → P k) : ∀ k ∈ hs.set i g, P k := by
  intro k inside
  obtain ⟨j,there⟩ := List.mem_iff_getElem?.mp inside
  by_cases same : j = i
  · subst same
    rw [List.getElem?_set_self (List.getElem?_eq_some_iff.mp here).1] at there
    cases there
    exact moved
  · rw [List.getElem?_set_ne (Ne.symm same)] at there
    exact others j k same there

end Tokens
end Web3PiUps.Tasks
