import Web3PiUps.Lib.StepMachine
import Web3PiUps.FwUpdate

/-! The rollback machine of the RP2040 where every file operation works: whole calls, and
calls in which the power goes after one of their file steps. Such a call keeps the disk
of that step and nothing else. -/
namespace Web3PiUps.FwRollback
open WupsProtocol StepMachine
open FwUpdate hiding step

inductive Input where
  | run (event : Event) (env : Env)
  | cutIn (event : Event) (env : Env) (position : Nat)
  deriving DecidableEq, Repr

def Input.event : Input → Event
  | .run event _ => event
  | .cutIn event _ _ => event

def Input.env : Input → Env
  | .run _ env => env
  | .cutIn _ env _ => env

def Input.isCut : Input → Bool
  | .run .. => false
  | .cutIn .. => true

def Event.isFrame : Event → Bool
  | .frame => true
  | .request _ _ => true
  | _ => false

def Event.isCommit : Event → Bool
  | .request .commit _ => true
  | _ => false

def calm (env : Env) : Env := { env with faults := [] }

def whole (r : Rp2040) (event : Event) (env : Env) : Rp2040 :=
  (FwUpdate.step (ready r (calm env)) (event,calm env)).1

/-- One of these disks has the snapshot armed. -/
def stages (trail : List Disk) : Bool := trail.any (fun d => d.command == some (.copy .prev))

/-- A step, with whether it has staged a rollback. -/
def step (r : Rp2040) : Input → Rp2040 × Bool
  | .run event env => (whole r event env,stages (whole r event env).flash.trail)
  | .cutIn event env position =>
    let r' := whole r event env
    ({ reboot r' with flash := ⟨(r'.flash.trail[position]?).getD r'.flash.disk,[],[]⟩ },
      stages (r'.flash.trail.take (position+1)))

def factory (running : Bytes) : Rp2040 := .powerOff ⟨none,none,none,none⟩ running

def tally (p : Nat → Bool) : Nat → Nat
  | 0 => 0
  | n+1 => tally p n + if p n then 1 else 0

section Runs
variable (running : Bytes) (inputs : List Input)

abbrev at' (n : Nat) : Rp2040 := stateAt step (factory running) inputs n

def inputIs (p : Input → Bool) (n : Nat) : Bool :=
  match inputs[n]? with
  | some i => p i
  | none => false

/-- A rollback is staged. -/
def staged (n : Nat) : Bool := (outs step (factory running) inputs)[n]? == some true

/-- A committing END leaves a pending marker. -/
def marked (n : Nat) : Bool :=
  (at' running inputs n).on && inputIs inputs (fun i => Event.isCommit i.event) n &&
    (at' running inputs (n+1)).flash.disk.pending.isSome

/-- The running board takes a frame. -/
def framed (n : Nat) : Bool :=
  (at' running inputs n).on && inputIs inputs (fun i => Event.isFrame i.event) n

/-- A frame comes while an update is pending: its marker is removed. -/
def confirmed (n : Nat) : Bool :=
  framed running inputs n && (at' running inputs n).flash.disk.pending.isSome

def cut (n : Nat) : Bool := inputIs inputs Input.isCut n

/-- The board boots; `booted` where nothing cuts its boot init short. -/
def tried (n : Nat) : Bool :=
  !(at' running inputs n).on && inputIs inputs (fun i => i.event == .boot) n

def booted (n : Nat) : Bool := tried running inputs n && !cut inputs n

/-- A boot gets as far as counting itself in the marker. -/
def counted (n : Nat) : Bool := tried running inputs n &&
  (at' running inputs n).flash.disk.pending != (at' running inputs (n+1)).flash.disk.pending

/-- From the END of `n` until `m`, no frame and no rollback. -/
def Unseen (n m : Nat) : Prop := marked running inputs n = true ∧ n < m ∧
  ∀ k, n < k → k < m → framed running inputs k = false ∧ staged running inputs k = false

structure RollbackLaw : Prop where
  /-- Once confirmed, an update is not rolled back: a rollback needs a later update. -/
  confirmedStays : ∀ j m, confirmed running inputs j = true → staged running inputs m = true → j < m →
    ∃ n, j ≤ n ∧ n < m ∧ marked running inputs n = true
  /-- What is staged is the snapshot taken by the latest update, whole. -/
  snapshot : ∀ m, staged running inputs m = true → ∃ n, n < m ∧ marked running inputs n = true ∧
    (∀ k, n < k → k < m → marked running inputs k = false) ∧
    (at' running inputs (m+1)).flash.disk.command = some (.copy .prev) ∧
    (at' running inputs (m+1)).flash.disk.prev = some (at' running inputs n).running
  /-- A tick past the verify window of one boot. -/
  window : ∀ n b m start env, Unseen running inputs n m → n < b → b < m →
    (at' running inputs b).on = false → inputs[b]? = some (.run .boot start) →
    (∀ k, b < k → k ≤ m → (at' running inputs k).on = true) →
    inputs[m]? = some (.run .tick env) → env.now-start.now > fwVerifyWindowMs → staged running inputs m = true
  /-- A boot that is not cut, when eight have been counted. -/
  boots : ∀ n m, Unseen running inputs n m → booted running inputs m = true → counted running inputs m = true ∧
    (tally (counted running inputs) (n+1)+8 ≤ tally (counted running inputs) m →
      tally (counted running inputs) m < tally (counted running inputs) (n+1)+4294967295 →
      staged running inputs m = true)
  finite : ∀ n, tally (staged running inputs) n ≤
    tally (marked running inputs) n + tally (cut inputs) n

end Runs
end Web3PiUps.FwRollback
