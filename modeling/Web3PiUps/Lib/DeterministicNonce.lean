import Mathlib.Data.Nat.Digits.Lemmas

/-! Nonces derived from a private key and a message: whole numbers as octet strings of a fixed width,
and the chain of states that a keyed hash makes of the two. -/
namespace Web3PiUps.DeterministicNonce

abbrev Octets := List UInt8

def octets : Nat → Nat → Octets
  | 0, _ => []
  | width+1, a => octets width (a/256) ++ [UInt8.ofNat a]

def value (b : Octets) : Nat := b.foldl (fun a x => 256*a + x.toNat) 0

@[simp] theorem octetsLength (width a : Nat) : (octets width a).length = width := by
  induction width generalizing a with
  | zero => rfl
  | succ width ih => rw [octets,List.length_append,ih,List.length_singleton]

theorem valueAppend (b : Octets) (x : UInt8) : value (b ++ [x]) = 256*value b + x.toNat := by
  simp [value]

theorem valueBound (b : Octets) : value b < 256^b.length := by
  induction b using List.reverseRecOn with
  | nil => simp [value]
  | append_singleton b x ih =>
    have last := x.toNat_lt
    rw [valueAppend,List.length_append,List.length_singleton,pow_succ]
    omega

theorem octetsValue (b : Octets) : octets b.length (value b) = b := by
  induction b using List.reverseRecOn with
  | nil => rfl
  | append_singleton b x ih =>
    have last := x.toNat_lt
    have front : (256*value b + x.toNat)/256 = value b := by omega
    have back : UInt8.ofNat (256*value b + x.toNat) = x := by
      apply UInt8.toNat_inj.mp
      rw [UInt8.toNat_ofNat']
      omega
    rw [List.length_append,List.length_singleton,octets,valueAppend,front,back,ih]

/-! The chain. `mac` is keyed by its first argument, with outputs of `width` bytes. -/

structure State where
  key : Octets
  value : Octets
  deriving DecidableEq, Repr

variable (mac : Octets → Octets → Octets) (width : Nat)

/-- The state for the private key `d` and the message `e`, both as `width` bytes. -/
def seeded (d e : Nat) : State :=
  let message := octets width d ++ octets width e
  let v₀ := List.replicate width 1
  let k₁ := mac (List.replicate width 0) (v₀ ++ 0::message)
  let v₁ := mac k₁ v₀
  let k₂ := mac k₁ (v₁ ++ 1::message)
  ⟨k₂,mac k₂ v₁⟩

/-- The state after a refused candidate. -/
def refused (s : State) : State :=
  let v := mac s.key s.value
  let k := mac s.key (v ++ [0])
  ⟨k,mac k v⟩

def chain (d e : Nat) : Nat → State
  | 0 => seeded mac width d e
  | i+1 => refused mac (chain d e i)

/-- The candidate offered when `i` others have been refused. -/
def candidate (d e i : Nat) : Nat :=
  let s := chain mac width d e i
  value (mac s.key s.value)

end Web3PiUps.DeterministicNonce
