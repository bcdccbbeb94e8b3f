import Web3PiUps.WupsEncoders
import Web3PiUps.WupsWholeBuffer
import Mathlib.Data.List.Nodup

/-! The hub: `wups_route_frame` of `wups_router.cpp` and, of the local handler in
`main.cpp`, the net.downlink unwrap. What the rest of the handler does with a frame is the
parameter `answer`: it keeps state of its own and sends frames of its own. -/
namespace Web3PiUps.WupsRouter
open WupsProtocol WupsEncoders WupsFraming WupsWholeBuffer
open Rp2040 (Tx Attached wupsPortNone wupsPortCount wupsSendWithSrc written)

abbrev wupsPortRpi : UInt8 := 1
abbrev wupsClassHost : UInt8 := 0x04

/-- One call of `wups_send_with_src`. -/
structure Send where
  port : UInt8
  dst : UInt8
  src : UInt8
  cls : UInt8
  op : UInt8
  flags : UInt8
  seq : UInt8
  payload : Bytes
  deriving DecidableEq, Repr

inductive Entry where
  | handled (f : WupsFrame)
  | forwarded (out : UInt8) (f : WupsFrame)
  deriving DecidableEq, Repr

/-- `tx` and `addrToPort` are whatever `wups_router_init` made of them; `log`, newest first,
keeps the calls of the handler and the frames that were forwarded. -/
structure Router (σ : Type) where
  tx : Tx
  forwarded : UInt8 → UInt32
  addrToPort : UInt8 → UInt8
  app : σ
  log : List Entry

section
variable {σ : Type} (answer : σ → UInt8 → WupsFrame → σ × List Send)

def send (r : Router σ) (s : Send) : Router σ :=
  { r with tx := wupsSendWithSrc r.tx s.port s.dst s.src s.cls s.op s.flags s.seq s.payload }

def emitForward (r : Router σ) (out : UInt8) (f : WupsFrame) : Router σ :=
  if out = wupsPortNone ∨ out ≥ wupsPortCount then r
  else if r.tx.portStreams out = none then r
  else
    { r with
      tx := wupsSendWithSrc r.tx out f.dst f.src f.cls f.op f.flags f.seq f.payload
      forwarded := Function.update r.forwarded out (r.forwarded out+1)
      log := .forwarded out f::r.log }

/-- The condition under which the handler takes the frame for a net.downlink. -/
def isNetDownlink (f : WupsFrame) : Bool :=
  f.cls = wupsClassNet ∧ f.op = wupsOpNetDownlink ∧ f.flags &&& wupsFlagEvent ≠ 0 ∧
    f.len ≥ wupsNetDownlinkHdrBytes

def isHostResp (inbound : UInt8) (f : WupsFrame) : Bool :=
  inbound = wupsPortRpi ∧ f.flags &&& wupsFlagResp ≠ 0 ∧ f.cls = wupsClassHost

theorem unwrapShorter {f inner : WupsFrame} (unwraps : netDownlinkUnwrap f = some inner) : inner.len < f.len := by
  unfold netDownlinkUnwrap at unwraps
  split at unwraps
  case isFalse => exact nomatch unwraps
  simp only at unwraps
  split at unwraps
  · exact nomatch unwraps
  split at unwraps
  · exact nomatch unwraps
  rename_i room
  rw [unwrapDecodes] at unwraps
  have whole := wireLength inner
  rw [← wireDecode unwraps] at whole
  simp only [slice,List.length_drop,List.length_take] at whole
  simp only [WupsFrame.len,wupsNetDownlinkHdrBytes] at whole room ⊢
  omega

mutual

def wupsOnLocalFrame (r : Router σ) (inbound : UInt8) (f : WupsFrame) : Router σ :=
  let r := { r with log := .handled f::r.log }
  if isNetDownlink f then
    match _unwraps : netDownlinkUnwrap f with
    | none => r
    | some inner => wupsRouteFrame r inbound inner
  else
    let (app,sends) := answer r.app inbound f
    sends.foldl send { r with app := app }
termination_by (f.len,0)
decreasing_by exact Prod.Lex.left _ _ (unwrapShorter ‹_›)

def wupsRouteFrame (r : Router σ) (inbound : UInt8) (f : WupsFrame) : Router σ :=
  let toSelf := f.dst = wupsAddrRp2040
  let isBcast := f.dst = wupsAddrBroadcast
  let isInternal := f.dst = wupsAddrInternal
  let r := if toSelf ∨ isBcast ∨ isInternal then wupsOnLocalFrame r inbound f else r
  if isBcast then
    [1,2,3].foldl (fun r p => if p ≠ inbound then emitForward r p f else r) r
  else if isInternal then
    [1,2,3].foldl (fun r p => if p = wupsPortRpi then r else if p = inbound then r else emitForward r p f) r
  else if toSelf then r
  else if isHostResp inbound f then wupsOnLocalFrame r inbound f
  else
    let outPort := r.addrToPort f.dst
    if outPort ≠ wupsPortNone ∧ outPort ≠ inbound then emitForward r outPort f else r
termination_by (f.len,1)
decreasing_by all_goals exact Prod.Lex.right _ (by decide)

end

/-! Which ports and which frames a call reaches. -/

theorem unwrapsDownlink {f inner : WupsFrame} (unwraps : netDownlinkUnwrap f = some inner) :
    isNetDownlink f = true := by
  unfold netDownlinkUnwrap at unwraps
  split at unwraps
  case isFalse => exact nomatch unwraps
  case isTrue is => exact decide_eq_true is

def isLocal (f : WupsFrame) : Prop :=
  f.dst = wupsAddrRp2040 ∨ f.dst = wupsAddrBroadcast ∨ f.dst = wupsAddrInternal
instance (f) : Decidable (isLocal f) := by unfold isLocal; infer_instance

def takesLocal (inbound : UInt8) (f : WupsFrame) : Prop := isLocal f ∨ isHostResp inbound f = true
instance (inbound f) : Decidable (takesLocal inbound f) := by unfold takesLocal; infer_instance

/-- What routing never changes. -/
structure Wired (a b : Router σ) : Prop where
  attached : ∀ p, Attached a.tx p ↔ Attached b.tx p
  table : a.addrToPort = b.addrToPort

theorem Wired.refl (r : Router σ) : Wired r r := ⟨fun _ => Iff.rfl,rfl⟩

theorem Wired.trans {a b c : Router σ} (ab : Wired a b) (bc : Wired b c) : Wired a c :=
  ⟨fun p => (ab.attached p).trans (bc.attached p),ab.table.trans bc.table⟩

theorem sendAttached (t : Tx) (port dst src cls op flags seq : UInt8) (payload : Bytes) (p : UInt8) :
    Attached (wupsSendWithSrc t port dst src cls op flags seq payload) p ↔ Attached t p := by
  unfold wupsSendWithSrc
  split
  · rfl
  · split
    · rfl
    · rename_i stream opened
      split
      · rfl
      · by_cases same : p = port
        · subst same
          simp [Attached,opened]
        · simp [Attached,Function.update_of_ne same]

theorem sendsWired (sends : List Send) (r : Router σ) :
    Wired (sends.foldl send r) r ∧ (sends.foldl send r).log = r.log := by
  induction sends generalizing r with
  | nil => exact ⟨.refl r,rfl⟩
  | cons s sends ih =>
    obtain ⟨wired,log⟩ := ih (send r s)
    exact ⟨wired.trans ⟨fun p => sendAttached ..,rfl⟩,log⟩

theorem emitForwardWired (r : Router σ) (out : UInt8) (f : WupsFrame) : Wired (emitForward r out f) r := by
  unfold emitForward
  split
  · exact .refl r
  · split
    · exact .refl r
    · exact ⟨fun p => sendAttached ..,rfl⟩

theorem emitForwardLog (r : Router σ) (out : UInt8) (f : WupsFrame) :
    (emitForward r out f).log = if Attached r.tx out then .forwarded out f::r.log else r.log := by
  unfold emitForward
  by_cases outside : out = wupsPortNone ∨ out ≥ wupsPortCount
  · have detached : ¬Attached r.tx out := by
      rintro ⟨real,inside,_⟩
      rcases outside with none | above
      · exact real none
      · exact absurd inside (UInt8.not_lt.mpr above)
    rw [if_pos outside,if_neg detached]
  · obtain ⟨real,inside⟩ := not_or.mp outside
    rw [if_neg outside]
    by_cases closed : r.tx.portStreams out = none
    · have detached : ¬Attached r.tx out := by
        rintro ⟨_,_,stream⟩
        simp [closed] at stream
      rw [if_pos closed,if_neg detached]
    · have attached : Attached r.tx out := ⟨real,UInt8.not_le.mp inside,Option.isSome_iff_ne_none.mpr closed⟩
      rw [if_neg closed,if_pos attached]

theorem emitForwardWrites {r : Router σ} {out : UInt8} (attached : Attached r.tx out) (f : WupsFrame) :
    written (emitForward r out f).tx out = written r.tx out ++ guarded f := by
  obtain ⟨real,inside,stream⟩ := attached
  have within : ¬(out = wupsPortNone ∨ out ≥ wupsPortCount) := not_or.mpr ⟨real,UInt8.not_le.mpr inside⟩
  rw [emitForward,if_neg within,if_neg (Option.isSome_iff_ne_none.mp stream)]
  exact rp2040Sends ⟨real,inside,stream⟩ f

/-- The loops of the router: every port of the list that `keep` admits. -/
def emitAll (keep : UInt8 → Prop) [DecidablePred keep] (f : WupsFrame) (ports : List UInt8) (r : Router σ) :
    Router σ :=
  ports.foldl (fun r p => if keep p then emitForward r p f else r) r

theorem emitAllWired (keep : UInt8 → Prop) [DecidablePred keep] (f : WupsFrame) (ports : List UInt8)
    (r : Router σ) : Wired (emitAll keep f ports r) r := by
  induction ports generalizing r with
  | nil => exact .refl r
  | cons p ports ih =>
    refine (ih _).trans ?_
    show Wired (if keep p then emitForward r p f else r) r
    split
    · exact emitForwardWired r p f
    · exact .refl r

theorem emitAllLog (keep : UInt8 → Prop) [DecidablePred keep] (f : WupsFrame) (ports : List UInt8)
    (r : Router σ) :
    (emitAll keep f ports r).log =
      ((ports.filter fun p => keep p ∧ Attached r.tx p).map (.forwarded · f)).reverse ++ r.log := by
  induction ports generalizing r with
  | nil => rfl
  | cons p ports ih =>
    have tail := ih (if keep p then emitForward r p f else r)
    by_cases kept : keep p
    · rw [if_pos kept] at tail
      have same : (ports.filter fun q => decide (keep q ∧ Attached (emitForward r p f).tx q)) =
          ports.filter fun q => decide (keep q ∧ Attached r.tx q) := by
        simp only [(emitForwardWired r p f).attached]
      rw [same,emitForwardLog] at tail
      simp only [emitAll,List.foldl_cons,if_pos kept] at tail ⊢
      rw [tail]
      by_cases attached : Attached r.tx p
      · simp [kept,attached]
      · simp [attached]
    · rw [if_neg kept] at tail
      simp only [emitAll,List.foldl_cons,if_neg kept] at tail ⊢
      rw [tail]
      simp [kept]

/-- The ports that the router itself gives the frame. -/
def outPorts (r : Router σ) (inbound : UInt8) (f : WupsFrame) : List UInt8 :=
  if f.dst = wupsAddrBroadcast then [1,2,3].filter fun p => p ≠ inbound ∧ Attached r.tx p
  else if f.dst = wupsAddrInternal then
    [1,2,3].filter fun p => (p ≠ wupsPortRpi ∧ p ≠ inbound) ∧ Attached r.tx p
  else if f.dst = wupsAddrRp2040 then []
  else if isHostResp inbound f then []
  else [r.addrToPort f.dst].filter fun p => p ≠ inbound ∧ Attached r.tx p

theorem outPortsWired {a b : Router σ} (wired : Wired a b) (inbound : UInt8) (f : WupsFrame) :
    outPorts a inbound f = outPorts b inbound f := by
  simp only [outPorts,wired.attached,wired.table]

def forwards (f : WupsFrame) (ports : List UInt8) : List Entry := (ports.map (.forwarded · f)).reverse

/-- The call as the handler first, if at all, and then the router's own ports. -/
theorem routeLog (r : Router σ) (inbound : UInt8) (f : WupsFrame) :
    let base := if takesLocal inbound f then wupsOnLocalFrame answer r inbound f else r
    Wired (wupsRouteFrame answer r inbound f) base ∧
      (wupsRouteFrame answer r inbound f).log = forwards f (outPorts base inbound f) ++ base.log := by
  rw [wupsRouteFrame]
  by_cases here : isLocal f
  · have there : f.dst = wupsAddrRp2040 ∨ f.dst = wupsAddrBroadcast ∨ f.dst = wupsAddrInternal := here
    simp only [if_pos there,if_pos (show takesLocal inbound f from .inl here),outPorts]
    by_cases bcast : f.dst = wupsAddrBroadcast
    · simp only [if_pos bcast]
      exact ⟨emitAllWired (· ≠ inbound) f _ _,emitAllLog (· ≠ inbound) f _ _⟩
    · by_cases internal : f.dst = wupsAddrInternal
      · have loop : (fun (r : Router σ) p => if p = wupsPortRpi then r else if p = inbound then r else
            emitForward r p f) = fun r p => if p ≠ wupsPortRpi ∧ p ≠ inbound then emitForward r p f else r := by
          funext r p
          by_cases rpi : p = wupsPortRpi <;> by_cases echo : p = inbound <;> simp [rpi,echo]
        simp only [if_neg bcast,if_pos internal,loop]
        exact ⟨emitAllWired (fun p => p ≠ wupsPortRpi ∧ p ≠ inbound) f _ _,
          emitAllLog (fun p => p ≠ wupsPortRpi ∧ p ≠ inbound) f _ _⟩
      · have toSelf : f.dst = wupsAddrRp2040 := there.resolve_right (not_or.mpr ⟨bcast,internal⟩)
        simp only [if_neg bcast,if_neg internal,if_pos toSelf]
        exact ⟨.refl _,rfl⟩
  · have away : ¬(f.dst = wupsAddrRp2040 ∨ f.dst = wupsAddrBroadcast ∨ f.dst = wupsAddrInternal) := here
    obtain ⟨toSelf,bcast,internal⟩ := not_or.mp away |>.imp id not_or.mp
    simp only [if_neg away,if_neg bcast,if_neg internal,if_neg toSelf,outPorts]
    by_cases bridge : isHostResp inbound f = true
    · simp only [if_pos (show takesLocal inbound f from .inr bridge),if_pos bridge]
      exact ⟨.refl _,rfl⟩
    · have foreign : ¬takesLocal inbound f := not_or.mpr ⟨here,bridge⟩
      simp only [if_neg foreign,if_neg bridge]
      have loop : (if r.addrToPort f.dst ≠ wupsPortNone ∧ r.addrToPort f.dst ≠ inbound then
          emitForward r (r.addrToPort f.dst) f else r) = emitAll (· ≠ inbound) f [r.addrToPort f.dst] r := by
        by_cases none : r.addrToPort f.dst = wupsPortNone
        · simp [emitAll,none,emitForward]
        · simp [emitAll,none]
      rw [loop]
      exact ⟨emitAllWired (· ≠ inbound) f _ _,emitAllLog (· ≠ inbound) f _ _⟩

theorem localLog (r : Router σ) (inbound : UInt8) (f : WupsFrame) :
    (netDownlinkUnwrap f = none ∧ Wired (wupsOnLocalFrame answer r inbound f) r ∧
      (wupsOnLocalFrame answer r inbound f).log = .handled f::r.log) ∨
    ∃ inner, netDownlinkUnwrap f = some inner ∧ wupsOnLocalFrame answer r inbound f =
      wupsRouteFrame answer { r with log := .handled f::r.log } inbound inner := by
  rw [wupsOnLocalFrame]
  cases unwraps : netDownlinkUnwrap f with
  | some inner =>
    right
    refine ⟨inner,rfl,?_⟩
    simp only [if_pos (unwrapsDownlink unwraps)]
  | none =>
    left
    refine ⟨rfl,?_⟩
    split
    · split
      · exact ⟨⟨fun _ => Iff.rfl,rfl⟩,rfl⟩
      · rename_i other; exact nomatch other
    · obtain ⟨wired,log⟩ := sendsWired (answer r.app inbound f).2
        { r with app := (answer r.app inbound f).1, log := .handled f::r.log }
      exact ⟨wired.trans ⟨fun _ => Iff.rfl,rfl⟩,log⟩

/-- The frames of one call: the frame itself, and what the handler unwraps from it. -/
inductive Routed (inbound : UInt8) : WupsFrame → WupsFrame → Prop where
  | self (f : WupsFrame) : Routed inbound f f
  | inner {f g h : WupsFrame} (takes : takesLocal inbound f) (unwraps : netDownlinkUnwrap f = some g)
      (rest : Routed inbound g h) : Routed inbound f h

theorem routedShorter {inbound : UInt8} {f g : WupsFrame} (routed : Routed inbound f g) : g.len ≤ f.len := by
  induction routed with
  | self f => exact Nat.le_refl _
  | inner takes unwraps rest ih => exact ih.trans (unwrapShorter unwraps).le

theorem routedWired (r : Router σ) (inbound : UInt8) (f : WupsFrame) : Wired (wupsRouteFrame answer r inbound f) r := by
  induction size : f.len using Nat.strongRecOn generalizing r f with
  | _ n ih =>
    refine (routeLog answer r inbound f).1.trans ?_
    by_cases takes : takesLocal inbound f
    · rw [if_pos takes]
      rcases localLog answer r inbound f with ⟨_,wired,_⟩ | ⟨inner,unwraps,same⟩
      · exact wired
      · rw [same]
        have shorter := unwrapShorter unwraps
        exact (ih inner.len (size ▸ shorter) _ inner rfl).trans ⟨fun _ => Iff.rfl,rfl⟩
    · rw [if_neg takes]; exact .refl r

theorem localWired (r : Router σ) (inbound : UInt8) (f : WupsFrame) :
    Wired (wupsOnLocalFrame answer r inbound f) r := by
  rcases localLog answer r inbound f with ⟨_,wired,_⟩ | ⟨inner,_,same⟩
  · exact wired
  · rw [same]; exact (routedWired answer _ inbound inner).trans ⟨fun _ => Iff.rfl,rfl⟩

theorem routeOver (r : Router σ) (inbound : UInt8) (f : WupsFrame) :
    (wupsRouteFrame answer r inbound f).log = forwards f (outPorts r inbound f) ++
      (if takesLocal inbound f then wupsOnLocalFrame answer r inbound f else r).log := by
  have wired : Wired (if takesLocal inbound f then wupsOnLocalFrame answer r inbound f else r) r := by
    split
    · exact localWired answer r inbound f
    · exact .refl r
  rw [(routeLog answer r inbound f).2,outPortsWired wired]

theorem forwardsCount (f g : WupsFrame) (ports : List UInt8) (p : UInt8) :
    (forwards f ports).count (.forwarded p g) = if f = g then ports.count p else 0 := by
  unfold forwards
  rw [List.count_reverse]
  induction ports with
  | nil => simp
  | cons q ports ih =>
    rw [List.map_cons,List.count_cons,ih]
    by_cases same : f = g
    · subst same
      simp [List.count_cons]
    · simp [same]

theorem forwardsHandled (f g : WupsFrame) (ports : List UInt8) : (forwards f ports).count (.handled g) = 0 := by
  unfold forwards
  rw [List.count_reverse]
  exact List.count_eq_zero.mpr (by simp)

/-- How often the entries of a log are about `g`. -/
structure Same (g : WupsFrame) (a b : List Entry) : Prop where
  forwarded : ∀ p, a.count (.forwarded p g) = b.count (.forwarded p g)
  handled : a.count (.handled g) = b.count (.handled g)

theorem strangerCounts {inbound : UInt8} {f g : WupsFrame} (stranger : ¬Routed inbound f g) (r : Router σ) :
    Same g (wupsRouteFrame answer r inbound f).log r.log := by
  induction size : f.len using Nat.strongRecOn generalizing r f with
  | _ n ih =>
    have other : f ≠ g := by rintro rfl; exact stranger (.self f)
    have base : Same g (if takesLocal inbound f then wupsOnLocalFrame answer r inbound f else r).log r.log := by
      by_cases takes : takesLocal inbound f
      · rw [if_pos takes]
        have marked : Same g (Entry.handled f::r.log) r.log :=
          ⟨fun p => by simp,by simp [other]⟩
        rcases localLog answer r inbound f with ⟨_,_,log⟩ | ⟨inner,unwraps,same⟩
        · rw [log]; exact marked
        · rw [same]
          have shorter := unwrapShorter unwraps
          have rest := ih inner.len (size ▸ shorter) (fun routed => stranger (.inner takes unwraps routed))
            { r with log := .handled f::r.log } rfl
          exact ⟨fun p => (rest.forwarded p).trans (marked.forwarded p),rest.handled.trans marked.handled⟩
      · rw [if_neg takes]; exact ⟨fun _ => rfl,rfl⟩
    rw [routeOver]
    refine ⟨fun p => ?_,?_⟩
    · rw [List.count_append,forwardsCount,if_neg other,Nat.zero_add]; exact base.forwarded p
    · rw [List.count_append,forwardsHandled,Nat.zero_add]; exact base.handled

theorem handlerCounts {i : UInt8} {f : WupsFrame} (r : Router σ) :
    (∀ p, (wupsOnLocalFrame answer r i f).log.count (.forwarded p f) = r.log.count (.forwarded p f)) ∧
      (wupsOnLocalFrame answer r i f).log.count (.handled f) = r.log.count (.handled f) + 1 := by
  rcases localLog answer r i f with ⟨_,_,log⟩ | ⟨inner,unwraps,same⟩
  · rw [log]
    exact ⟨fun p => by simp,by simp⟩
  · have stranger : ¬Routed i inner f := fun routed =>
      Nat.lt_irrefl _ ((unwrapShorter unwraps).trans_le (routedShorter routed))
    have rest := strangerCounts answer stranger { r with log := .handled f::r.log }
    rw [same]
    exact ⟨fun p => (rest.forwarded p).trans (by simp),rest.handled.trans (by simp)⟩

/-- A frame of the call goes to the ports the router gives it, each time once, and to the
handler once if it is for it. -/
theorem routedCounts {inbound : UInt8} {f g : WupsFrame} (routed : Routed inbound f g) (r : Router σ) :
    (∀ p, (wupsRouteFrame answer r inbound f).log.count (.forwarded p g) =
      r.log.count (.forwarded p g) + (outPorts r inbound g).count p) ∧
    (wupsRouteFrame answer r inbound f).log.count (.handled g) =
      r.log.count (.handled g) + if takesLocal inbound g then 1 else 0 := by
  induction routed generalizing r with
  | self f =>
    rw [routeOver]
    by_cases takes : takesLocal inbound f
    · obtain ⟨forwarded,handled⟩ := handlerCounts answer (i := inbound) (f := f) r
      rw [if_pos takes,if_pos takes]
      refine ⟨fun p => ?_,?_⟩
      · rw [List.count_append,forwardsCount,if_pos rfl,forwarded,Nat.add_comm]
      · rw [List.count_append,forwardsHandled,handled,Nat.zero_add]
    · rw [if_neg takes,if_neg takes]
      refine ⟨fun p => ?_,?_⟩
      · rw [List.count_append,forwardsCount,if_pos rfl,Nat.add_comm]
      · rw [List.count_append,forwardsHandled,Nat.zero_add]; rfl
  | inner takes unwraps rest ih =>
    rename_i f g h
    have other : f ≠ h := by
      rintro rfl
      exact Nat.lt_irrefl _ ((unwrapShorter unwraps).trans_le (routedShorter rest))
    obtain ⟨forwarded,handled⟩ := ih { r with log := .handled f::r.log }
    rcases localLog answer r inbound f with ⟨none,_⟩ | ⟨inner,unwraps',same⟩
    · rw [unwraps] at none; exact nomatch none
    · obtain rfl := Option.some.inj (unwraps.symm.trans unwraps')
      rw [routeOver,if_pos takes,same]
      refine ⟨fun p => ?_,?_⟩
      · rw [List.count_append,forwardsCount,if_neg other,Nat.zero_add,forwarded]
        simp [outPorts]
      · rw [List.count_append,forwardsHandled,Nat.zero_add,handled]
        simp [other]

theorem attachedPort {t : Tx} {p : UInt8} (attached : Attached t p) : p ∈ [(1:UInt8),2,3] := by
  obtain ⟨real,inside,_⟩ := attached
  have low : p.toNat ≠ 0 := fun zero => real (UInt8.toNat_inj.mp zero)
  have high : p.toNat < 4 := UInt8.lt_iff_toNat_lt.mp inside
  have port : p = 1 ∨ p = 2 ∨ p = 3 := by
    simp only [← UInt8.toNat_inj]
    show p.toNat = 1 ∨ p.toNat = 2 ∨ p.toNat = 3
    omega
  simpa using port

theorem portsCount (keep : UInt8 → Prop) [DecidablePred keep] (t : Tx) (p : UInt8) :
    ([(1:UInt8),2,3].filter fun p => keep p ∧ Attached t p).count p =
      if keep p ∧ Attached t p then 1 else 0 := by
  by_cases given : keep p ∧ Attached t p
  · rw [if_pos given,List.count_filter (by simpa using given)]
    exact List.count_eq_one_of_mem (by decide) (attachedPort given.2)
  · rw [if_neg given]
    exact List.count_eq_zero.mpr fun found => given (by simpa using (List.mem_filter.mp found).2)

/-- What one call has put in the log. -/
def calls (r : Router σ) (inbound : UInt8) (f : WupsFrame) : List Entry :=
  (wupsRouteFrame answer { r with log := [] } inbound f).log

def emitted (log : List Entry) (p : UInt8) (f : WupsFrame) : Nat := log.count (.forwarded p f)

def handlings (log : List Entry) (f : WupsFrame) : Nat := log.count (.handled f)

theorem strangerCalls {inbound : UInt8} {f g : WupsFrame} (stranger : ¬Routed inbound f g) (r : Router σ) :
    (∀ p, emitted (calls answer r inbound f) p g = 0) ∧ handlings (calls answer r inbound f) g = 0 :=
  have same := strangerCounts answer stranger { r with log := [] }
  ⟨same.forwarded,same.handled⟩

theorem routedCalls {inbound : UInt8} {f g : WupsFrame} (routed : Routed inbound f g) (r : Router σ) :
    (∀ p, emitted (calls answer r inbound f) p g = (outPorts r inbound g).count p) ∧
      handlings (calls answer r inbound f) g = if takesLocal inbound g then 1 else 0 := by
  obtain ⟨forwarded,handled⟩ := routedCounts answer routed { r with log := [] }
  exact ⟨fun p => (forwarded p).trans (Nat.zero_add _),handled.trans (Nat.zero_add _)⟩

theorem outPortsAway (r : Router σ) (inbound : UInt8) (f : WupsFrame) : (outPorts r inbound f).count inbound = 0 := by
  unfold outPorts
  rw [List.count_eq_zero]
  repeat' split
  all_goals simp

theorem outPortsUnicast {r : Router σ} {inbound : UInt8} {f : WupsFrame} (notBcast : f.dst ≠ wupsAddrBroadcast)
    (notInternal : f.dst ≠ wupsAddrInternal) (p : UInt8) :
    (outPorts r inbound f).count p ≤ if p = r.addrToPort f.dst then 1 else 0 := by
  have single : (outPorts r inbound f).Sublist [r.addrToPort f.dst] := by
    unfold outPorts
    rw [if_neg notBcast,if_neg notInternal]
    split
    · exact List.nil_sublist _
    · split
      · exact List.nil_sublist _
      · exact List.filter_sublist
  refine (single.count_le p).trans ?_
  rw [List.count_singleton]
  by_cases same : p = r.addrToPort f.dst
  · rw [if_pos (beq_iff_eq.mpr same.symm),if_pos same]
  · rw [if_neg (fun is => same (beq_iff_eq.mp is).symm)]; exact Nat.zero_le _

structure RouterSafety : Prop where
  onlyRouted : ∀ (r : Router σ) inbound f g, ¬Routed inbound f g →
    (∀ p, emitted (calls answer r inbound f) p g = 0) ∧ handlings (calls answer r inbound f) g = 0
  noEcho : ∀ (r : Router σ) inbound f g, emitted (calls answer r inbound f) inbound g = 0
  broadcast : ∀ (r : Router σ) inbound f g, Routed inbound f g → g.dst = wupsAddrBroadcast → ∀ p,
    emitted (calls answer r inbound f) p g = if p ≠ inbound ∧ Attached r.tx p then 1 else 0
  internal : ∀ (r : Router σ) inbound f g, Routed inbound f g → g.dst = wupsAddrInternal → ∀ p,
    emitted (calls answer r inbound f) p g =
      if (p ≠ wupsPortRpi ∧ p ≠ inbound) ∧ Attached r.tx p then 1 else 0
  neverRpi : ∀ (r : Router σ) inbound f g, g.dst = wupsAddrInternal →
    emitted (calls answer r inbound f) wupsPortRpi g = 0
  unicast : ∀ (r : Router σ) inbound f g, g.dst ≠ wupsAddrBroadcast → g.dst ≠ wupsAddrInternal → ∀ p,
    emitted (calls answer r inbound f) p g ≤ if p = r.addrToPort g.dst then 1 else 0
  handledOnce : ∀ (r : Router σ) inbound f g, handlings (calls answer r inbound f) g ≤ 1

end

theorem routerSafety {σ : Type} (answer : σ → UInt8 → WupsFrame → σ × List Send) : RouterSafety answer where
  onlyRouted r inbound f g stranger := strangerCalls answer stranger r
  noEcho r inbound f g := by
    by_cases routed : Routed inbound f g
    · rw [(routedCalls answer routed r).1]; exact outPortsAway r inbound g
    · exact (strangerCalls answer routed r).1 inbound
  broadcast r inbound f g routed bcast p := by
    rw [(routedCalls answer routed r).1,outPorts,if_pos bcast]
    exact portsCount (· ≠ inbound) r.tx p
  internal r inbound f g routed internal p := by
    rw [(routedCalls answer routed r).1,outPorts,if_neg (by rw [internal]; decide),if_pos internal]
    exact portsCount (fun p => p ≠ wupsPortRpi ∧ p ≠ inbound) r.tx p
  neverRpi r inbound f g internal := by
    by_cases routed : Routed inbound f g
    · rw [(routedCalls answer routed r).1,outPorts,if_neg (by rw [internal]; decide),if_pos internal,
        portsCount (fun p => p ≠ wupsPortRpi ∧ p ≠ inbound) r.tx wupsPortRpi]
      exact if_neg fun given => given.1.1 rfl
    · exact (strangerCalls answer routed r).1 wupsPortRpi
  unicast r inbound f g notBcast notInternal p := by
    by_cases routed : Routed inbound f g
    · rw [(routedCalls answer routed r).1]; exact outPortsUnicast notBcast notInternal p
    · rw [(strangerCalls answer routed r).1]; exact Nat.zero_le _
  handledOnce r inbound f g := by
    by_cases routed : Routed inbound f g
    · rw [(routedCalls answer routed r).2]
      split <;> omega
    · rw [(strangerCalls answer routed r).2]; exact Nat.zero_le _

end Web3PiUps.WupsRouter
