import Web3PiUps.CmdauthArkiv
import Web3PiUps.Lib.LowestKept

/-! One sweep over the pending `w3pups-cmd` entities, after `arkiv_rpc.c`. The
node answers through `Rpc`: the number of the query and its window in, the
parsed response out, `none` for a query that failed or did not parse. Counts of
a sweep stay far below their width. -/
namespace Web3PiUps.ArkivSweep
open WupsProtocol ArkivEntity CmdauthArkiv LowestKept

abbrev arkivCmdPageN : Nat := 6
abbrev arkivCmdMaxPerSweep : Nat := 8
abbrev arkivCmdMaxPages : Nat := 3
abbrev cmdCandMax : Nat := arkivCmdMaxPerSweep + arkivCmdPageN
abbrev uint64Max : Nat := 2^64-1
abbrev bodyCap : Nat := 512
abbrev topicCap : Nat := 64

structure Cand where
  seq : Nat
  e : Json

/-! `cand_insert`. -/

def candInsert (cand : List Cand) (evicted : Bool) (c : Cand) : List Cand × Bool :=
  let kept := keep Cand.seq cmdCandMax cand c
  (kept.1,evicted || kept.2)

/-! `try_dispatch_entity`: the field checks (`none` is `CMD_INVALID`), the command
check, and what a verified frame sets off: the tracker of acknowledgements, an
operation of the ESP32 itself, or the link to the RP2040. A predicate under the
name of a handler says that the handler consumes the frame. -/

inductive CmdOutcome where
  | dispatched | invalid | authRejected | localOp
  deriving DecidableEq, Repr

inductive Effect where
  | track (seq : UInt8) (commandId : Bytes)
  | fwUpdate (frame : Bytes)
  | sysReset (frame : Bytes)
  | linkSend (dst cls op flags : UInt8) (payload : Bytes)
  deriving DecidableEq, Repr

abbrev wupsOpNetDownlink : UInt8 := 0x10
abbrev wupsOpNetFwUpdate : UInt8 := 0x22
abbrev wupsOpSysReset : UInt8 := 0x05
abbrev downlinkHdrBytes : Nat := 6

def FwOtaTryHandleDownlink (frame : Bytes) : Prop :=
  wupsFramingBytes ≤ frame.length ∧ frame.getD 0 0 = wupsSync1 ∧ frame.getD 1 0 = wupsSync2 ∧
    frame.getD 4 0 = wupsClassNet ∧ frame.getD 5 0 = wupsOpNetFwUpdate
instance (frame) : Decidable (FwOtaTryHandleDownlink frame) := by
  unfold FwOtaTryHandleDownlink; infer_instance

def WupsLinkTrySysReset (frame : Bytes) : Prop :=
  wupsFramingBytes ≤ frame.length ∧ frame.getD 0 0 = wupsSync1 ∧ frame.getD 1 0 = wupsSync2 ∧
    frame.getD 4 0 = wupsClassSystem ∧ frame.getD 5 0 = wupsOpSysReset ∧
    (frame.getD 2 0 = wupsAddrEsp32 ∨ frame.getD 2 0 = wupsAddrBroadcast)
instance (frame) : Decidable (WupsLinkTrySysReset frame) := by
  unfold WupsLinkTrySysReset; infer_instance

def forwardToRp2040 (iccid frame : Bytes) : List Effect :=
  let topic := ascii "c/" ++ iccid ++ ascii "/cmd/request"
  if topic.length ≥ topicCap then [] else
  if downlinkHdrBytes + topic.length + frame.length > wupsMaxPayload then [] else
  let hdr := [1,0,0,UInt8.ofNat topic.length,lenLow frame.length,lenHigh frame.length]
  [.linkSend wupsAddrRp2040 wupsClassNet wupsOpNetDownlink wupsFlagEvent (hdr ++ topic ++ frame)]

def attrs (e : Json) (kind : String) : Option Json := getObjectItem (some e) (ascii kind)
def seqOf (e : Json) : Nat := numAttr (attrs e "numericAttributes") (ascii "seq")

def writerOf (e : Json) : Option Bytes :=
  match valueString (getObjectItem (some e) (ascii "creator")) with
  | some writer => some writer
  | none => valueString (getObjectItem (some e) (ascii "owner"))

def readCmd (iccid : Bytes) (seq : Nat) (e : Json) : Option Cmd := do
  let writer ← writerOf e
  let value ← valueString (getObjectItem (some e) (ascii "value"))
  let sigHex ← strAttr (attrs e "stringAttributes") (ascii "sig")
  let commandId ← strAttr (attrs e "stringAttributes") (ascii "command_id")
  if commandId.length ≠ arkivCommandIdLen then none else
  let writer ← hexDecode writer 20
  let sig ← hexDecode sigHex 64
  let frame ← hexDecodeVar value wupsMaxPayload
  some
    { writer := writer
      epoch := numAttr (attrs e "numericAttributes") (ascii "epoch") % 2^32
      counter := seq
      block := 0
      deviceId := some iccid
      commandId := some commandId
      frame := some frame
      sig := some sig }

def deliver (iccid frame commandId : Bytes) : CmdOutcome × List Effect :=
  let tracked := if frame.length ≥ wupsHeaderBytes then [Effect.track (frame.getD 7 0) commandId] else []
  if FwOtaTryHandleDownlink frame then (.localOp,tracked ++ [.fwUpdate frame]) else
  if WupsLinkTrySysReset frame then (.localOp,tracked ++ [.sysReset frame]) else
  (.dispatched,tracked ++ forwardToRp2040 iccid frame)

def tryDispatchEntity (env : Env) (iccid : Bytes) (a : Auth) (c : Cand) : Auth × CmdOutcome × List Effect :=
  match readCmd iccid c.seq c.e with
  | none => (a,.invalid,[])
  | some cmd =>
    match cmdauthArkivCheck env a (some cmd) with
    | (a,none) => (a,.authRejected,[])
    | (a,some frame) => (a,deliver iccid frame (cmd.commandId.getD []))

/-! Gathering: down the seq axis, one window a query; a window without an upper
end has the floor `UINT64_MAX`. The loop counts the pages it may still ask for. -/

structure Query where
  lastCtr : Nat
  floor : Nat
  deriving DecidableEq, Repr

abbrev Rpc := Nat → Query → Option Json

def decimal (n : Nat) : Bytes := (Nat.toDigits 10 n).map Char.toUInt8

def queryBody (iccid : Bytes) (q : Query) : Bytes :=
  ascii "\x7b\"jsonrpc\":\"2.0\",\"id\":1,\"method\":\"arkiv_query\",\"params\":[\"" ++
  ascii "type = \\\"w3pups-cmd\\\" && device_id = \\\"" ++ iccid ++ ascii "\\\" && seq > " ++
  decimal q.lastCtr ++ (if q.floor ≠ uint64Max then ascii " && seq < " ++ decimal q.floor else []) ++
  ascii "\",\x7b\"includeData\":\x7b\"key\":true,\"attributes\":true,\"payload\":true," ++
  ascii "\"contentType\":false,\"owner\":true,\"creator\":true," ++
  ascii "\"expiration\":false\x7d,\"resultsPerPage\":\"0x6\"\x7d]\x7d"

structure Page where
  count : Nat
  added : Nat
  min : Nat
  cand : List Cand
  evicted : Bool

def gatherEntity (q : Query) (p : Page) (e : Json) : Page :=
  let p := { p with count := p.count+1 }
  let seq := seqOf e
  if seq ≤ q.lastCtr ∨ seq ≥ q.floor then p else
  let kept := candInsert p.cand p.evicted ⟨seq,e⟩
  { p with added := p.added+1, min := if seq < p.min then seq else p.min,
           cand := kept.1, evicted := kept.2 }

structure Gather where
  cand : List Cand
  evicted : Bool
  pages : Nat
  seen : Nat
  complete : Bool
  aborted : Bool

def Gather.start : Gather := ⟨[],false,0,0,false,false⟩

def pageData (root : Json) : Option (List Json) :=
  match getObjectItem (getObjectItem (some root) (ascii "result")) (ascii "data") with
  | some (.array data) => some data
  | _ => none

def gather (rpc : Rpc) (iccid : Bytes) (lastCtr : Nat) : (pages : Nat) → (floor : Nat) → Gather → Gather
  | 0, _, g => g
  | pages+1, floor, g =>
    let q : Query := ⟨lastCtr,floor⟩
    if (queryBody iccid q).length ≥ bodyCap then { g with aborted := true } else
    let g := { g with pages := g.pages+1 }
    match rpc g.pages q with
    | none => { g with aborted := true }
    | some root =>
      match pageData root with
      | none => { g with aborted := true }
      | some data =>
        let p := data.foldl (gatherEntity q) ⟨0,0,uint64Max,g.cand,g.evicted⟩
        let g := { g with cand := p.cand, evicted := p.evicted, seen := g.seen+p.count }
        if p.count < arkivCmdPageN then { g with complete := true } else
        if p.added = 0 then g else
        if p.min ≤ (lastCtr+1) % 2^64 then { g with complete := true } else
        gather rpc iccid lastCtr pages p.min g

/-! Dispatching: the candidates in ascending order, on a moving baseline.
`accepted` are those that `cmdauth_arkiv_check` let through, in order. -/

structure Dispatch where
  auth : Auth
  i : Nat
  dispatched : Nat
  rejected : Nat
  stop : Bool
  effects : List Effect
  accepted : List Cand

def Dispatch.start (a : Auth) : Dispatch := ⟨a,0,0,0,false,[],[]⟩

def dispatchNext (env : Env) (iccid : Bytes) (s : Dispatch) (c : Cand) : Dispatch :=
  if s.stop then s else
  if c.seq > s.auth.lastCtr then
    let (auth,outcome,effects) := tryDispatchEntity env iccid s.auth c
    let s := { s with auth := auth, effects := s.effects ++ effects, i := s.i+1 }
    let s := match outcome with
      | .dispatched => { s with dispatched := s.dispatched+1, accepted := s.accepted ++ [c] }
      | .localOp => { s with dispatched := s.dispatched+1, accepted := s.accepted ++ [c], stop := true }
      | .invalid | .authRejected => { s with rejected := s.rejected+1 }
    if s.dispatched ≥ arkivCmdMaxPerSweep then { s with stop := true } else s
  else { s with i := s.i+1 }

structure Sweep where
  gathered : Gather
  outcome : Dispatch
  outMore : Bool

def pollOnce (env : Env) (rpc : Rpc) (iccid : Bytes) (a : Auth) : Sweep :=
  let g := gather rpc iccid a.lastCtr arkivCmdMaxPages uint64Max .start
  let s := if g.aborted then .start a else g.cand.foldl (dispatchNext env iccid) (.start a)
  ⟨g,s,decide (s.dispatched > 0 ∧ (s.i < g.cand.length ∨ g.evicted = true ∨ g.complete = false))⟩

def arkivRpcPollOnce (env : Env) (rpc : Rpc) (iccid : Bytes) (a : Auth) : Option Sweep :=
  if ¬ a.ready then none else
  if a.claimState ≠ .claimed then none else
  if iccid = [] then none else some (pollOnce env rpc iccid a)

end Web3PiUps.ArkivSweep
