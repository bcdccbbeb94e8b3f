import Web3PiUps.Lib.Tasks

/-! One task that talks to a peer until it is done. The peer may answer anything, and may
answer by all that was said before; what is known of it is a law of each single answer. -/
namespace Web3PiUps.Dialogue
open Tasks

variable {Act : Type} {Ans : Act → Type} {α β : Type}

abbrev Peer (Ans : Act → Type) := Trace Ans → (a : Act) → Ans a

def play (peer : Peer Ans) : Code Ans α → Trace Ans → Trace Ans × α
  | .done x, past => (past,x)
  | .act a next, past => play peer (next (peer past a)) (past ++ [⟨a,peer past a⟩])

/-- The rules of a task that holds nothing but what was said. -/
def spoken (need : Trace Ans → Act → Prop) (may : Trace Ans → (a : Act) → Ans a → Prop) : Rules Ans (Trace Ans) where
  need := need
  may := may
  after past a r := past ++ [⟨a,r⟩]

section
variable {need : Trace Ans → Act → Prop} {may : Trace Ans → (a : Act) → Ans a → Prop} {peer : Peer Ans}
  {last : α → Trace Ans → Prop}

theorem playExtends (peer : Peer Ans) (c : Code Ans α) (past : Trace Ans) :
    ∃ more, (play peer c past).1 = past ++ more := by
  induction c generalizing past with
  | done x => exact ⟨[],(List.append_nil past).symm⟩
  | act a next ih =>
    obtain ⟨more,same⟩ := ih (peer past a) (past ++ [⟨a,peer past a⟩])
    exact ⟨_,same.trans (List.append_assoc ..)⟩

theorem playEnds {c : Code Ans α} {past : Trace Ans} (keeps : Keeps (spoken need may) last c past)
    (possible : ∀ past a, may past a (peer past a)) : last (play peer c past).2 (play peer c past).1 := by
  induction c generalizing past with
  | done x => exact keeps
  | act a next ih => exact ih _ (keeps.2 _ (possible past a))

theorem playNeeds {c : Code Ans α} {past : Trace Ans} (keeps : Keeps (spoken need may) last c past)
    (possible : ∀ past a, may past a (peer past a)) {before after : Trace Ans} {a : Act} {r : Ans a}
    (split : (play peer c past).1 = before ++ ⟨a,r⟩::after) (late : past.length ≤ before.length) : need before a := by
  induction c generalizing past with
  | done x =>
    have count := congrArg List.length split
    simp only [play,List.length_append,List.length_cons] at count
    omega
  | act b next ih =>
    rcases Nat.lt_or_eq_of_le late with later | now
    · refine ih _ (keeps.2 _ (possible past b)) split ?_
      simp only [spoken,List.length_append]
      exact later
    · obtain ⟨more,same⟩ := playExtends peer (next (peer past b)) (past ++ [⟨b,peer past b⟩])
      have both : past ++ ⟨b,peer past b⟩::more = before ++ ⟨a,r⟩::after := by
        rw [← split]
        exact (same.trans (List.append_assoc ..)).symm
      obtain ⟨samePast,sameRest⟩ := List.append_inj both now
      cases samePast
      cases (List.cons.inj sameRest).1
      exact keeps.1

end

/-- `a && b && ..`. -/
def allOf : List (Code Ans Bool) → Code Ans Bool
  | [] => pure true
  | c::rest => do if ← c then allOf rest else pure false

section
variable {H : Type} {rules : Rules Ans H} {h : H}

theorem allOfKeeps {c : Code Ans Bool} {rest : List (Code Ans Bool)} {last : Bool → H → Prop}
    (first : Keeps rules (fun ok h' => if ok then Keeps rules last (allOf rest) h' else last false h') c h) :
    Keeps rules last (allOf (c::rest)) h := by
  refine keepsBind first fun ok h' kept => ?_
  cases ok with
  | true => exact kept
  | false => exact kept

theorem keepsBoth {last other : α → H → Prop} {c : Code Ans α} (one : Keeps rules last c h)
    (two : Keeps rules other c h) : Keeps rules (fun x h' => last x h' ∧ other x h') c h := by
  induction c generalizing h with
  | done x => exact ⟨one,two⟩
  | act a next ih => exact ⟨one.1,fun r known => ih r (one.2 r known) (two.2 r known)⟩

end
end Web3PiUps.Dialogue
