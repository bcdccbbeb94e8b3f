import Web3PiUps.ArkivEntity
import Web3PiUps.Lib.JsonText

/-! The telemetry cache of `firmware-ESP32-LTE-M/main/http_backend.c`, the decoder of
`power_status_decode.h` and `build_body`. A command id is a C string. -/
namespace Web3PiUps.HttpBackend
open WupsProtocol (Bytes wupsHeaderBytes wupsClassNet lenWord ascii)
open JsonText (Json)

abbrev httpBodyMax : Nat := 2048
abbrev httpRespMax : Nat := 2048
abbrev httpFreshnessMs : Int := 90000
abbrev tlmMaxInner : Nat := 64
abbrev ackIdMax : Nat := 48
abbrev ackPendingMax : Nat := 8
abbrev cmdsPerRespMax : Nat := ackPendingMax
abbrev execRingMax : Nat := 16
abbrev rejMax : Nat := 4

abbrev wupsClassPower : UInt8 := 0x02
abbrev wupsClassHost : UInt8 := 0x04
abbrev wupsOpPwrStatus : UInt8 := 0x01
abbrev wupsOpHostStatus : UInt8 := 0x01
abbrev wupsOpNetStatus : UInt8 := 0x01

structure Slot where
  observedUs : Int
  data : Bytes
  deriving DecidableEq, Repr

/-- `s_slots`; a slot that is not valid is `none`. -/
structure Slots where
  power : Option Slot
  host : Option Slot
  net : Option Slot
  deriving DecidableEq, Repr

def observeTelemetryFrame (s : Slots) (nowUs : Int) (frame : Bytes) : Slots :=
  if frame.length < wupsHeaderBytes+2 then s
  else
    let cls := frame.getD 4 0
    let op := frame.getD 5 0
    let innerLen := lenWord (frame.getD 8 0) (frame.getD 9 0)
    if wupsHeaderBytes+innerLen+2 > frame.length then s
    else if innerLen = 0 ∨ innerLen > tlmMaxInner then s
    else
      let slot : Slot := ⟨nowUs,(frame.drop wupsHeaderBytes).take innerLen⟩
      if cls = wupsClassPower ∧ op = wupsOpPwrStatus then { s with power := some slot }
      else if cls = wupsClassHost ∧ op = wupsOpHostStatus then { s with host := some slot }
      else if cls = wupsClassNet ∧ op = wupsOpNetStatus then { s with net := some slot }
      else s

/-- The payload of a fresh slot, else nothing. -/
def takeSlot (nowUs : Int) : Option Slot → Bytes
  | none => []
  | some slot => if nowUs-httpFreshnessMs*1000 ≤ slot.observedUs then slot.data else []

def u8 (raw : Bytes) (at_ : Nat) : Nat := (raw.getD at_ 0).toNat

def u16 (raw : Bytes) (at_ : Nat) : Nat := u8 raw at_+256*u8 raw (at_+1)

def u32 (raw : Bytes) (at_ : Nat) : Nat := u16 raw at_+65536*u16 raw (at_+2)

def i8 (raw : Bytes) (at_ : Nat) : Int := if u8 raw at_ < 128 then u8 raw at_ else u8 raw at_-256

def i16 (raw : Bytes) (at_ : Nat) : Int := if u16 raw at_ < 32768 then u16 raw at_ else u16 raw at_-65536

/-! `power_status_decode.h`. -/

abbrev powerStatusV1 : Nat := 20
abbrev powerStatusV2 : Nat := 40
abbrev hostStatusV1 : Nat := 12
abbrev netStatusV1 : Nat := 20
abbrev netStatusV3 : Nat := 31

abbrev tempNa : Int := -32768

def tempAgg (lm mp : Int) : Int := if mp = tempNa then lm else if mp > lm then mp else lm

def powerStatusDecode (raw : Bytes) : Nat :=
  if raw = [] then 0
  else if u8 raw 0 = 2 ∧ powerStatusV2 ≤ raw.length then 2
  else if u8 raw 0 = 1 ∧ powerStatusV1 ≤ raw.length then 1
  else 0

/-! `build_body`. -/

inductive Reason where
  | badId
  | badArgs
  | unsupportedCmd
  deriving DecidableEq, Repr

def Reason.text : Reason → Bytes
  | .badId => ascii "bad_id"
  | .badArgs => ascii "bad_args"
  | .unsupportedCmd => ascii "unsupported_cmd"

structure Rejected where
  id : Bytes
  reason : Reason
  deriving DecidableEq, Repr

/-- The statics; of `s_executed` an unused entry is empty. -/
structure Backend where
  slots : Slots
  pending : List Bytes
  executed : List Bytes
  execIdx : Nat
  rejected : List Rejected
  respDropped : Option UInt32
  cmdSeq : UInt8
  deriving DecidableEq, Repr

def Backend.boot : Backend := ⟨⟨none,none,none⟩,[],List.replicate execRingMax [],0,[],none,0⟩

/-- What the body reads besides: the clocks and the version text of the build. -/
structure Moment where
  ts : Int
  fwVersion : Bytes
  nowUs : Int
  deriving DecidableEq, Repr

abbrev Field := Bytes × Json

def num (key : String) (value : Int) : Field := (ascii key,.number value)

def powerV2 (raw : Bytes) : List Field :=
  [num "version" 2,
    num "flags" (u8 raw 1),
    num "charge_state" (u8 raw 2),
    num "vbus_in_mv" (u16 raw 4),
    num "pd_in_mv" (u16 raw 6),
    num "pd_in_ma" (u16 raw 8),
    num "vbus_out_mv" (u16 raw 10),
    num "vout_set_mv" (u16 raw 12),
    num "vout_read_mv" (u16 raw 14),
    num "iout_limit_ma" (u16 raw 16),
    num "pd_out_mv" (u16 raw 18),
    num "pd_out_ma" (u16 raw 20),
    num "vbat_mv" (u16 raw 22),
    num "ibat_ma" (i16 raw 24),
    num "vsys_mv" (u16 raw 26),
    num "iin_ma" (u16 raw 28),
    num "temp_lm_dc" (i16 raw 30),
    (ascii "temp_mp_dc",if i16 raw 32 ≠ tempNa then .number (i16 raw 32) else .null),
    num "temp_dc" (tempAgg (i16 raw 30) (i16 raw 32)),
    num "faults" (u16 raw 34),
    num "uptime_s" (u32 raw 36)]

def powerV1 (raw : Bytes) : List Field :=
  [num "charge_state" (u8 raw 1),
    num "vbus_in_mv" (u16 raw 2),
    num "vbus_out_mv" (u16 raw 4),
    num "ibus_out_ma" (i16 raw 6),
    num "vbat_mv" (u16 raw 8),
    num "ibat_ma" (i16 raw 10),
    num "temp_dc" (i16 raw 12),
    num "faults" (u16 raw 18)]

def powerTelemetry (raw : Bytes) : List Field :=
  match powerStatusDecode raw with
  | 2 => [(ascii "power",.object (powerV2 raw))]
  | 1 => [(ascii "power",.object (powerV1 raw))]
  | _ => []

def hostFields (raw : Bytes) : List Field :=
  [num "eth_state" (u8 raw 1),
    num "cpu_temp_dc" (i16 raw 2),
    num "mem_pct" (u8 raw 4),
    num "disk_pct" (u8 raw 5),
    num "load_x100" (u16 raw 6),
    num "uptime_s" (u32 raw 8)]

def hostTelemetry (raw : Bytes) : List Field :=
  if hostStatusV1 ≤ raw.length then [(ascii "host",.object (hostFields raw))] else []

def sinrFields (raw : Bytes) : List Field :=
  if u8 raw 0 = 3 ∧ netStatusV3 ≤ raw.length ∧ -20 ≤ i8 raw 30 ∧ i8 raw 30 ≤ 30 then [num "sinr_db" (i8 raw 30)] else []

def netFields (raw : Bytes) : List Field :=
  [num "state" (u8 raw 1),
    num "rssi_dbm" (i8 raw 2),
    num "rsrp_dbm" (i8 raw 3),
    num "rsrq_db" (i8 raw 4)] ++ sinrFields raw ++
  [num "bytes_tx" (u32 raw 12),
    num "bytes_rx" (u32 raw 16)]

def netTelemetry (raw : Bytes) : List Field :=
  if netStatusV1 ≤ raw.length then [(ascii "net",.object (netFields raw))] else []

def rejectedItem (r : Rejected) : Json := .object [(ascii "id",.string r.id),(ascii "reason",.string r.reason.text)]

def rejectedFields (rejected : List Rejected) : List Field :=
  if rejected = [] then [] else [(ascii "rejected",.array (rejected.map rejectedItem))]

def droppedFields : Option UInt32 → List Field
  | none => []
  | some bytes =>
    [(ascii "resp_dropped",.object [num "bytes" bytes.toNat,num "max" (httpRespMax-1 : Nat)])]

def bodyFields (b : Backend) (m : Moment) : List Field :=
  [num "ts" m.ts,
    (ascii "fw_ver",.string m.fwVersion),
    num "uptime_s" (m.nowUs/1000000)] ++
  powerTelemetry (takeSlot m.nowUs b.slots.power) ++
  hostTelemetry (takeSlot m.nowUs b.slots.host) ++
  netTelemetry (takeSlot m.nowUs b.slots.net) ++
  [(ascii "acks",.array (b.pending.map .string))] ++
  rejectedFields b.rejected ++ droppedFields b.respDropped

/-- The printing of cJSON into a buffer: whether a value fits is its own answer. -/
def buildBody (fits : Json → Bool) (b : Backend) (m : Moment) : Option Json :=
  let root := Json.object (bodyFields b m)
  if fits root then some root else none

end Web3PiUps.HttpBackend
