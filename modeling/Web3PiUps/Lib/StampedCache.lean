/-! What is derived from a source that others change, kept under the tag of a change counter. A
change writes its parts one by one and counts at the end; a reader takes the tag first and the
parts after it, and what it takes during a change may be anything. The counts themselves are for
the proofs: the cache goes by tags. -/
namespace Web3PiUps.StampedCache

variable {V K G : Type}

structure Filled (G K : Type) where
  tag : G
  count : Nat
  value : K

/-- A failure says whether the cache is lost with it. -/
def refill (derive : V → Except Bool K) (filled : Option (Filled G K)) (tag : G) (count : Nat) (sample : V) :
    Option (Filled G K) × Option K :=
  match derive sample with
  | .ok value => (some ⟨tag,count,value⟩,some value)
  | .error spoiled => (if spoiled then none else filled,none)

def look [DecidableEq G] (derive : V → Except Bool K) (filled : Option (Filled G K)) (tag : G) (count : Nat) (sample : V) :
    Option (Filled G K) × Option K :=
  match filled with
  | some f => if f.tag = tag then (filled,some f.value) else refill derive filled tag count sample
  | none => refill derive filled tag count sample

/-- `counted` is the count when the tag was taken, `torn` whether a change overlapped since then,
`disturbed` whether one overlapped since the reader began. -/
structure Reader where
  counted : Option Nat
  torn : Bool
  disturbed : Bool

structure Cache (V G K : Type) where
  source : V
  changing : Bool
  count : Nat
  filled : Option (Filled G K)
  reader : Option Reader

namespace Cache

def boot (source : V) : Cache V G K := ⟨source,false,0,none,none⟩

def begin_ (c : Cache V G K) : Cache V G K :=
  { c with changing := true, reader := c.reader.map fun r => { r with torn := true, disturbed := true } }

def finish (c : Cache V G K) (source : V) : Cache V G K := { c with source, changing := false, count := c.count+1 }

def start (c : Cache V G K) : Cache V G K := { c with reader := some ⟨none,c.changing,c.changing⟩ }

def take (c : Cache V G K) (r : Reader) : Cache V G K :=
  { c with reader := some { r with counted := some c.count, torn := c.changing } }

def leave (c : Cache V G K) (filled : Option (Filled G K)) : Cache V G K := { c with filled, reader := none }

/-- What a reader can take for the source. -/
def Sampled (c : Cache V G K) (r : Reader) (sample : V) : Prop := r.torn = false → sample = c.source

end Cache

/-- No tag is given twice in a row of so many. -/
def Apart (tagOf : Nat → G) (wrap : Nat) : Prop := ∀ a b, a < wrap → b < wrap → tagOf a = tagOf b → a = b

structure Inv (derive : V → Except Bool K) (tagOf : Nat → G) (c : Cache V G K) : Prop where
  tagged : ∀ f, c.filled = some f → f.tag = tagOf f.count ∧ f.count ≤ c.count
  fresh : ∀ f, c.filled = some f → f.count = c.count → c.changing = false → derive c.source = .ok f.value
  taken : ∀ r n, c.reader = some r → r.counted = some n → n ≤ c.count ∧ (n = c.count → c.changing = false → r.torn = false)
  calm : ∀ r, c.reader = some r → r.disturbed = false →
    c.changing = false ∧ ∀ n, r.counted = some n → n = c.count ∧ r.torn = false

section
variable {derive : V → Except Bool K} {tagOf : Nat → G} {c : Cache V G K}

theorem bootInv (source : V) : Inv derive tagOf (Cache.boot source : Cache V G K) :=
  ⟨fun f there => (by cases there),fun f there => (by cases there),fun r n there => (by cases there),
    fun r there => (by cases there)⟩

theorem beginInv (inv : Inv derive tagOf c) : Inv derive tagOf c.begin_ where
  tagged := inv.tagged
  fresh f there same idle := by cases idle
  taken r n there counted := by
    obtain ⟨r',here,rfl⟩ := Option.map_eq_some_iff.mp there
    exact ⟨(inv.taken r' n here counted).1,fun _ idle => by cases idle⟩
  calm r there calm := by
    obtain ⟨r',here,rfl⟩ := Option.map_eq_some_iff.mp there
    cases calm

theorem finishInv (inv : Inv derive tagOf c) (changing : c.changing = true) (source : V) :
    Inv derive tagOf (c.finish source) where
  tagged f there := ⟨(inv.tagged f there).1,Nat.le_succ_of_le (inv.tagged f there).2⟩
  fresh f there same idle := by
    have before := (inv.tagged f there).2
    exact absurd same (Nat.ne_of_lt (Nat.lt_succ_of_le before))
  taken r n there counted := by
    have before := (inv.taken r n there counted).1
    exact ⟨Nat.le_succ_of_le before,fun same => absurd same (Nat.ne_of_lt (Nat.lt_succ_of_le before))⟩
  calm r there calm := by
    have idle := (inv.calm r there calm).1
    rw [changing] at idle
    cases idle

theorem startInv (inv : Inv derive tagOf c) : Inv derive tagOf c.start where
  tagged := inv.tagged
  fresh := inv.fresh
  taken r n there counted := by
    cases there
    cases counted
  calm r there calm := by
    cases there
    exact ⟨calm,fun n counted => by cases counted⟩

theorem takeInv (inv : Inv derive tagOf c) {r : Reader} (here : c.reader = some r) : Inv derive tagOf (c.take r) where
  tagged := inv.tagged
  fresh := inv.fresh
  taken r' n there counted := by
    cases there
    cases counted
    exact ⟨Nat.le_refl _,fun _ idle => idle⟩
  calm r' there calm := by
    cases there
    have idle := (inv.calm r here calm).1
    exact ⟨idle,fun n counted => by cases counted; exact ⟨rfl,idle⟩⟩

theorem refillInv (inv : Inv derive tagOf c) {r : Reader} {n : Nat} (here : c.reader = some r) (counted : r.counted = some n)
    {sample : V} (sampled : c.Sampled r sample) :
    Inv derive tagOf (c.leave (refill derive c.filled (tagOf n) n sample).1) := by
  obtain ⟨below,whole⟩ := inv.taken r n here counted
  rw [refill]
  cases made : derive sample with
  | ok value =>
    refine ⟨?_,?_,fun r n there => (by cases there),fun r there => (by cases there)⟩
    · intro f there
      cases there
      exact ⟨rfl,below⟩
    · intro f there same idle
      cases there
      have source : sample = c.source := sampled (whole same idle)
      show derive c.source = .ok value
      rw [← source]
      exact made
  | error spoiled =>
    cases spoiled with
    | false => exact ⟨inv.tagged,inv.fresh,fun r n there => (by cases there),fun r there => (by cases there)⟩
    | true =>
      exact ⟨fun f there => (by cases there),fun f there => (by cases there),fun r n there => (by cases there),
        fun r there => (by cases there)⟩

theorem leaveInv [DecidableEq G] (inv : Inv derive tagOf c) {r : Reader} {n : Nat} (here : c.reader = some r)
    (counted : r.counted = some n) {sample : V} (sampled : c.Sampled r sample) :
    Inv derive tagOf (c.leave (look derive c.filled (tagOf n) n sample).1) := by
  have refilled := refillInv inv here counted sampled
  cases filled : c.filled with
  | none =>
    rw [filled] at refilled
    exact refilled
  | some f =>
    rw [filled] at refilled
    rw [look]
    split
    · rw [← filled]
      exact ⟨inv.tagged,inv.fresh,fun r n there => (by cases there),fun r there => (by cases there)⟩
    · exact refilled

theorem lookFresh [DecidableEq G] (inv : Inv derive tagOf c) {wrap : Nat} (apart : Apart tagOf wrap) (few : c.count < wrap)
    {r : Reader} {n : Nat} (here : c.reader = some r) (counted : r.counted = some n) (calm : r.disturbed = false) {sample : V}
    (sampled : c.Sampled r sample) : (look derive c.filled (tagOf n) n sample).2 = (derive c.source).toOption := by
  obtain ⟨idle,whole⟩ := inv.calm r here calm
  obtain ⟨rfl,untorn⟩ := whole n counted
  have refilled (filled : Option (Filled G K)) :
      (refill derive filled (tagOf c.count) c.count sample).2 = (derive c.source).toOption := by
    rw [refill,sampled untorn]
    cases derive c.source <;> rfl
  cases filled : c.filled with
  | none => exact refilled none
  | some f =>
    rw [look]
    split
    · rename_i tag
      obtain ⟨tagged,before⟩ := inv.tagged f filled
      rw [tagged] at tag
      have count := apart f.count c.count (Nat.lt_of_le_of_lt before few) few tag
      rw [inv.fresh f filled count idle]
      rfl
    · exact refilled (some f)

end

end Web3PiUps.StampedCache
