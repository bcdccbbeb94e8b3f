import Mathlib.NumberTheory.LucasPrimality

/-! Primality of large numbers by certificates that the kernel evaluates: Lucas's test with the
factors of `p-1`, each of them small or certified by an earlier line. -/
namespace Web3PiUps.Primality

def powAcc (m : Nat) : Nat → Nat → Nat → Nat → Nat
  | 0, _, _, acc => acc
  | fuel+1, b, e, acc =>
    if e = 0 then acc else powAcc m fuel (b*b % m) (e/2) (if e % 2 = 1 then acc*b % m else acc)

theorem powAccCast (m fuel b e acc : Nat) (enough : e < 2^fuel) :
    ((powAcc m fuel b e acc : Nat) : ZMod m) = acc * (b : ZMod m)^e := by
  induction fuel generalizing b e acc with
  | zero =>
    obtain rfl : e = 0 := by simpa using enough
    simp [powAcc]
  | succ fuel ih =>
    have half : e/2 < 2^fuel := by
      rw [pow_succ] at enough
      omega
    have split_ : (b : ZMod m)^e = (b*b : ZMod m)^(e/2) * (b : ZMod m)^(e % 2) := by
      rw [← sq,← pow_mul,← pow_add,Nat.div_add_mod]
    rw [powAcc]
    by_cases done : e = 0
    · simp [done]
    rw [if_neg done,ih _ _ _ half,split_,ZMod.natCast_mod,Nat.cast_mul]
    rcases Nat.mod_two_eq_zero_or_one e with even | odd
    · rw [even,if_neg (by decide),pow_zero,mul_one]
    · rw [odd,if_pos rfl,pow_one,ZMod.natCast_mod,Nat.cast_mul]
      ring

def powMod (m b e : Nat) : Nat := powAcc m 256 b e 1 % m

theorem powModOne {m b e : Nat} (enough : e < 2^256) : powMod m b e = 1 % m ↔ (b : ZMod m)^e = 1 := by
  have cast := powAccCast m 256 b e 1 enough
  rw [Nat.cast_one,one_mul] at cast
  have compare := ZMod.natCast_eq_natCast_iff' (powAcc m 256 b e 1) 1 m
  rw [cast,Nat.cast_one] at compare
  exact compare.symm

def small (q : Nat) : Bool := 2 ≤ q && (List.range q).all fun m => m = 1 || q % m ≠ 0

theorem smallPrime {q : Nat} (checked : small q = true) : q.Prime := by
  obtain ⟨two,all⟩ := Bool.and_eq_true_iff.mp checked
  refine Nat.prime_def_lt.mpr ⟨of_decide_eq_true two,fun m below divides => ?_⟩
  have here := List.all_eq_true.mp all m (List.mem_range.mpr below)
  have rest := Nat.mod_eq_zero_of_dvd divides
  simpa [rest] using here

structure Line where
  p : Nat
  a : Nat
  factors : List Nat

def Line.holds (proven : List Nat) (l : Line) : Bool :=
  1 < l.p && l.p ≤ 2^256 && l.factors.prod = l.p-1 && l.factors.all (fun q => proven.contains q || small q) &&
    powMod l.p l.a (l.p-1) = 1 && l.factors.all fun q => powMod l.p l.a ((l.p-1)/q) ≠ 1

theorem linePrime {proven : List Nat} {l : Line} (known : ∀ q, q ∈ proven → q.Prime) (checked : l.holds proven = true) :
    l.p.Prime := by
  simp only [Line.holds,Bool.and_eq_true,decide_eq_true_eq,List.all_eq_true,Bool.or_eq_true] at checked
  obtain ⟨⟨⟨⟨⟨two,fits⟩,product⟩,primes⟩,whole⟩,parts⟩ := checked
  have one : 1 % l.p = 1 := Nat.mod_eq_of_lt two
  have enough : ∀ e, e ≤ l.p-1 → e < 2^256 := fun e le => by omega
  refine lucas_primality l.p l.a ((powModOne (enough _ (le_refl _))).mp (whole.trans one.symm)) ?_
  intro q prime divides
  rw [← product] at divides
  -- a prime divisor of the product is one of the factors
  obtain ⟨f,mem,le⟩ := (Prime.dvd_prod_iff prime.prime).mp divides
  have factor : f.Prime := (primes f mem).elim (fun listed => known f (by simpa using listed)) smallPrime
  obtain rfl := (Nat.prime_dvd_prime_iff_eq prime factor).mp le
  rw [Ne,← powModOne (enough _ (Nat.div_le_self _ _)),one]
  exact parts q mem

def holds (proven : List Nat) : List Line → Bool
  | [] => true
  | l::rest => l.holds proven && holds (l.p::proven) rest

theorem certifiedFrom {proven : List Nat} {lines : List Line} (known : ∀ q, q ∈ proven → q.Prime)
    (checked : holds proven lines = true) {l : Line} (mem : l ∈ lines) : l.p.Prime := by
  induction lines generalizing proven with
  | nil => exact nomatch mem
  | cons first rest ih =>
    obtain ⟨here,later⟩ := Bool.and_eq_true_iff.mp checked
    have prime := linePrime known here
    rcases List.mem_cons.mp mem with rfl | after
    · exact prime
    · refine ih (fun q listed => ?_) later after
      rcases List.mem_cons.mp listed with rfl | old
      · exact prime
      · exact known q old

theorem certified {lines : List Line} (checked : holds [] lines = true) {p : Nat} (listed : p ∈ lines.map Line.p) :
    p.Prime := by
  obtain ⟨l,mem,rfl⟩ := List.mem_map.mp listed
  exact certifiedFrom (fun _ listed => absurd listed List.not_mem_nil) checked mem

end Web3PiUps.Primality
