import Web3PiUps.HttpAtMostOnce

/-! What a body takes. The telemetry sections are bounded by a table of the widest numerals,
and one frame of each class attains it; the rest is the clocks and the queues. -/
namespace Web3PiUps.HttpBackend
open WupsProtocol (Bytes ascii)
open JsonText

/-- `cJSON_PrintPreallocated` asks for five bytes more than the text. -/
abbrev printSlack : Nat := 5

/-- cJSON: the text of a number and whether a value is printed into the body buffer. -/
structure CJson where
  number : Int → Bytes
  fits : Json → Bool
  numeral : ∀ n, -2147483648 ≤ n → n < 4294967296 → number n = decimal n
  enough : ∀ j, size number j+printSlack ≤ httpBodyMax → fits j = true
  needed : ∀ j, fits j = true → size number j+1 ≤ httpBodyMax

variable (c : CJson)

def tableCost (table : List (String × Nat)) : Nat := (table.map fun row => (quote (ascii row.1)).length+row.2+2).sum

def Within (number : Int → Bytes) (row : String × Nat) (field : Field) : Prop :=
  field.1 = ascii row.1 ∧ size number field.2 ≤ row.2

theorem costWithin {number : Int → Bytes} {table : List (String × Nat)} {fields : List Field}
    (within : List.Forall₂ (Within number) table fields) : fieldsCost number fields ≤ tableCost table := by
  induction within with
  | nil => exact Nat.le_refl _
  | @cons row field table fields head _ ih =>
    obtain ⟨key,value⟩ := field
    have same : key = ascii row.1 := head.1
    have wide : size number value ≤ row.2 := head.2
    subst same
    simp only [fieldsCostCons,tableCost,List.map_cons,List.sum_cons] at ih ⊢
    omega

theorem u8Below (raw : Bytes) (i : Nat) : u8 raw i < 256 := UInt8.toNat_lt _

theorem u16Below (raw : Bytes) (i : Nat) : u16 raw i < 65536 := by
  have low := u8Below raw i
  have high := u8Below raw (i+1)
  unfold u16
  omega

theorem u32Below (raw : Bytes) (i : Nat) : u32 raw i < 4294967296 := by
  have low := u16Below raw i
  have high := u16Below raw (i+2)
  unfold u32
  omega

theorem i8Within (raw : Bytes) (i : Nat) : -128 ≤ i8 raw i ∧ i8 raw i < 128 := by
  have := u8Below raw i
  unfold i8
  split <;> omega

theorem i16Within (raw : Bytes) (i : Nat) : -32768 ≤ i16 raw i ∧ i16 raw i < 32768 := by
  have := u16Below raw i
  unfold i16
  split <;> omega

theorem tempAggWithin (raw : Bytes) : -32768 ≤ tempAgg (i16 raw 30) (i16 raw 32) ∧
    tempAgg (i16 raw 30) (i16 raw 32) < 32768 := by
  have lm := i16Within raw 30
  have mp := i16Within raw 32
  unfold tempAgg
  split
  · exact lm
  · split <;> assumption

variable {c}

theorem widthOf {n : Int} {k : Nat} (positive : 0 < k) (cap : (10 : Int)^k ≤ 1000000000) (low : -10^k < n)
    (high : n < 10^k) : size c.number (.number n) ≤ k+1 ∧ (0 ≤ n → size c.number (.number n) ≤ k) := by
  have written : c.number n = decimal n := c.numeral n (by omega) (by omega)
  simpa only [size,print,written] using decimalLength positive low high

theorem width8 (raw : Bytes) (i : Nat) : size c.number (.number (u8 raw i)) ≤ 3 := by
  have := u8Below raw i
  exact (widthOf (k := 3) (by decide) (by decide) (by omega) (by omega)).2 (by omega)

theorem width16 (raw : Bytes) (i : Nat) : size c.number (.number (u16 raw i)) ≤ 5 := by
  have := u16Below raw i
  exact (widthOf (k := 5) (by decide) (by decide) (by omega) (by omega)).2 (by omega)

theorem width32 (raw : Bytes) (i : Nat) : size c.number (.number (u32 raw i)) ≤ 10 := by
  have below := u32Below raw i
  have written := c.numeral (u32 raw i) (by omega) (by omega)
  have := (decimalLength (n := u32 raw i) (k := 10) (by decide) (by omega) (by omega)).2 (by omega)
  simpa only [size,print,written] using this

theorem widthI8 (raw : Bytes) (i : Nat) : size c.number (.number (i8 raw i)) ≤ 4 := by
  have := i8Within raw i
  exact (widthOf (k := 3) (by decide) (by decide) (by omega) (by omega)).1

theorem widthSigned {n : Int} (within : -32768 ≤ n ∧ n < 32768) : size c.number (.number n) ≤ 6 :=
  (widthOf (k := 5) (by decide) (by decide) (by omega) (by omega)).1

def powerTable : List (String × Nat) :=
  [("version",1),("flags",3),("charge_state",3),("vbus_in_mv",5),("pd_in_mv",5),("pd_in_ma",5),("vbus_out_mv",5),
    ("vout_set_mv",5),("vout_read_mv",5),("iout_limit_ma",5),("pd_out_mv",5),("pd_out_ma",5),("vbat_mv",5),
    ("ibat_ma",6),("vsys_mv",5),("iin_ma",5),("temp_lm_dc",6),("temp_mp_dc",6),("temp_dc",6),("faults",5),
    ("uptime_s",10)]

def powerV1Table : List (String × Nat) :=
  [("charge_state",3),("vbus_in_mv",5),("vbus_out_mv",5),("ibus_out_ma",6),("vbat_mv",5),("ibat_ma",6),("temp_dc",6),
    ("faults",5)]

def hostTable : List (String × Nat) :=
  [("eth_state",3),("cpu_temp_dc",6),("mem_pct",3),("disk_pct",3),("load_x100",5),("uptime_s",10)]

def netTable : List (String × Nat) :=
  [("state",3),("rssi_dbm",4),("rsrp_dbm",4),("rsrq_db",4),("sinr_db",3),("bytes_tx",10),("bytes_rx",10)]

def netShortTable : List (String × Nat) :=
  [("state",3),("rssi_dbm",4),("rsrp_dbm",4),("rsrq_db",4),("bytes_tx",10),("bytes_rx",10)]

theorem tempMpWidth (raw : Bytes) :
    size c.number (if i16 raw 32 ≠ tempNa then .number (i16 raw 32) else .null) ≤ 6 := by
  split
  · exact widthSigned (i16Within raw 32)
  · exact (by decide : 4 ≤ 6)

theorem powerV2Within (raw : Bytes) : List.Forall₂ (Within c.number) powerTable (powerV2 raw) := by
  have version : size c.number (.number 2) ≤ 1 :=
    (widthOf (k := 1) (by decide) (by decide) (by decide) (by decide)).2 (by decide)
  unfold powerTable powerV2
  refine .cons ⟨rfl,version⟩ (.cons ⟨rfl,width8 raw 1⟩ (.cons ⟨rfl,width8 raw 2⟩ ?_))
  refine .cons ⟨rfl,width16 raw 4⟩ (.cons ⟨rfl,width16 raw 6⟩ (.cons ⟨rfl,width16 raw 8⟩ ?_))
  refine .cons ⟨rfl,width16 raw 10⟩ (.cons ⟨rfl,width16 raw 12⟩ (.cons ⟨rfl,width16 raw 14⟩ ?_))
  refine .cons ⟨rfl,width16 raw 16⟩ (.cons ⟨rfl,width16 raw 18⟩ (.cons ⟨rfl,width16 raw 20⟩ ?_))
  refine .cons ⟨rfl,width16 raw 22⟩ (.cons ⟨rfl,widthSigned (i16Within raw 24)⟩ (.cons ⟨rfl,width16 raw 26⟩ ?_))
  refine .cons ⟨rfl,width16 raw 28⟩ (.cons ⟨rfl,widthSigned (i16Within raw 30)⟩ (.cons ⟨rfl,tempMpWidth raw⟩ ?_))
  exact .cons ⟨rfl,widthSigned (tempAggWithin raw)⟩ (.cons ⟨rfl,width16 raw 34⟩ (.cons ⟨rfl,width32 raw 36⟩ .nil))

theorem powerV1Within (raw : Bytes) : List.Forall₂ (Within c.number) powerV1Table (powerV1 raw) := by
  unfold powerV1Table powerV1
  refine .cons ⟨rfl,width8 raw 1⟩ (.cons ⟨rfl,width16 raw 2⟩ (.cons ⟨rfl,width16 raw 4⟩ ?_))
  refine .cons ⟨rfl,widthSigned (i16Within raw 6)⟩ (.cons ⟨rfl,width16 raw 8⟩ ?_)
  refine .cons ⟨rfl,widthSigned (i16Within raw 10)⟩ (.cons ⟨rfl,widthSigned (i16Within raw 12)⟩ ?_)
  exact .cons ⟨rfl,width16 raw 18⟩ .nil

theorem hostWithin (raw : Bytes) : List.Forall₂ (Within c.number) hostTable (hostFields raw) := by
  unfold hostTable hostFields
  refine .cons ⟨rfl,width8 raw 1⟩ (.cons ⟨rfl,widthSigned (i16Within raw 2)⟩ (.cons ⟨rfl,width8 raw 4⟩ ?_))
  exact .cons ⟨rfl,width8 raw 5⟩ (.cons ⟨rfl,width16 raw 6⟩ (.cons ⟨rfl,width32 raw 8⟩ .nil))

theorem netWithin (raw : Bytes) : fieldsCost c.number (netFields raw) ≤ tableCost netTable := by
  unfold netFields sinrFields
  split
  · rename_i measured
    obtain ⟨_,_,low,high⟩ := measured
    refine costWithin (.cons ⟨rfl,width8 raw 1⟩ (.cons ⟨rfl,widthI8 raw 2⟩ (.cons ⟨rfl,widthI8 raw 3⟩ ?_)))
    refine .cons ⟨rfl,widthI8 raw 4⟩ (.cons ⟨rfl,?_⟩ (.cons ⟨rfl,width32 raw 12⟩ (.cons ⟨rfl,width32 raw 16⟩ .nil)))
    exact (widthOf (k := 2) (by decide) (by decide) (by omega) (by omega)).1
  · have short : fieldsCost c.number ([num "state" (u8 raw 1),num "rssi_dbm" (i8 raw 2),num "rsrp_dbm" (i8 raw 3),
        num "rsrq_db" (i8 raw 4)] ++ [] ++ [num "bytes_tx" (u32 raw 12),num "bytes_rx" (u32 raw 16)]) ≤
        tableCost netShortTable := by
      refine costWithin (.cons ⟨rfl,width8 raw 1⟩ (.cons ⟨rfl,widthI8 raw 2⟩ (.cons ⟨rfl,widthI8 raw 3⟩ ?_)))
      exact .cons ⟨rfl,widthI8 raw 4⟩ (.cons ⟨rfl,width32 raw 12⟩ (.cons ⟨rfl,width32 raw 16⟩ .nil))
    exact Nat.le_trans short (by decide)

/-! The sections, and the frames that fill them. -/

abbrev powerMax : Nat := 383
abbrev hostMax : Nat := 115
abbrev netMax : Nat := 125
abbrev telemetryMax : Nat := powerMax+hostMax+netMax

theorem sectionCost (number : Int → Bytes) (key : Bytes) (fields : List Field) :
    fieldsCost number [(key,.object fields)] = (quote key).length+max 1 (fieldsCost number fields)+3 := by
  rw [fieldsCostCons,objectSize,fieldsCostNil]
  omega

theorem powerCost (raw : Bytes) : fieldsCost c.number (powerTelemetry raw) ≤ powerMax := by
  unfold powerTelemetry
  split
  · have inner := costWithin (powerV2Within (c := c) raw)
    have table : tableCost powerTable = 373 := by decide
    have key : (quote (ascii "power")).length = 7 := by decide
    rw [sectionCost]
    change _ ≤ 383
    omega
  · have inner := costWithin (powerV1Within (c := c) raw)
    have table : tableCost powerV1Table ≤ 373 := by decide
    have key : (quote (ascii "power")).length = 7 := by decide
    rw [sectionCost]
    change _ ≤ 383
    omega
  · exact Nat.zero_le _

theorem hostCost (raw : Bytes) : fieldsCost c.number (hostTelemetry raw) ≤ hostMax := by
  unfold hostTelemetry
  split
  · have inner := costWithin (hostWithin (c := c) raw)
    have table : tableCost hostTable = 106 := by decide
    have key : (quote (ascii "host")).length = 6 := by decide
    rw [sectionCost]
    change _ ≤ 115
    omega
  · exact Nat.zero_le _

theorem netCost (raw : Bytes) : fieldsCost c.number (netTelemetry raw) ≤ netMax := by
  unfold netTelemetry
  split
  · have inner := netWithin (c := c) raw
    have table : tableCost netTable = 117 := by decide
    have key : (quote (ascii "net")).length = 5 := by decide
    rw [sectionCost]
    change _ ≤ 125
    omega
  · exact Nat.zero_le _

/-- The numbers of a section, all of a range the numeral is known for. -/
def Numeral (field : Field) : Bool :=
  match field.2 with
  | .number value => -2147483648 ≤ value ∧ value < 4294967296
  | .null => true
  | _ => false

theorem numeralCost (fields : List Field) (all : ∀ field ∈ fields, Numeral field = true) :
    fieldsCost c.number fields = fieldsCost decimal fields := by
  induction fields with
  | nil => rfl
  | cons field rest ih =>
    obtain ⟨key,value⟩ := field
    have here : size c.number value = size decimal value := by
      have known := all (key,value) (.head _)
      cases value with
      | null => rfl
      | number n =>
        have range : -2147483648 ≤ n ∧ n < 4294967296 := by simpa [Numeral] using known
        simp only [size,print,c.numeral n range.1 range.2]
      | string text => cases known
      | array items => cases known
      | object fields => cases known
    rw [fieldsCostCons,fieldsCostCons,here,ih fun field mem => all field (.tail _ mem)]

def powerWorst : Bytes :=
  [2,0xFF,0xFF,0] ++ List.replicate 20 0xFF ++ [0x00,0x80] ++ List.replicate 4 0xFF ++ [0x00,0x80,0x01,0x80] ++
    List.replicate 6 0xFF

def hostWorst : Bytes := [1,0xFF,0x00,0x80] ++ List.replicate 8 0xFF

def netWorst : Bytes := [3,0xFF,0x80,0x80,0x80] ++ List.replicate 25 0xFF ++ [0xEC]

theorem powerAttained : fieldsCost c.number (powerTelemetry powerWorst) = powerMax := by
  have section_ : powerTelemetry powerWorst = [(ascii "power",.object (powerV2 powerWorst))] := rfl
  have inner : fieldsCost c.number (powerV2 powerWorst) = 373 := by
    rw [numeralCost _ (by decide)]
    decide
  have key : (quote (ascii "power")).length = 7 := by decide
  rw [section_,sectionCost,inner,key]
  rfl

theorem hostAttained : fieldsCost c.number (hostTelemetry hostWorst) = hostMax := by
  have section_ : hostTelemetry hostWorst = [(ascii "host",.object (hostFields hostWorst))] := rfl
  have inner : fieldsCost c.number (hostFields hostWorst) = 106 := by
    rw [numeralCost _ (by decide)]
    decide
  have key : (quote (ascii "host")).length = 6 := by decide
  rw [section_,sectionCost,inner,key]
  rfl

theorem netAttained : fieldsCost c.number (netTelemetry netWorst) = netMax := by
  have section_ : netTelemetry netWorst = [(ascii "net",.object (netFields netWorst))] := rfl
  have inner : fieldsCost c.number (netFields netWorst) = 117 := by
    rw [numeralCost _ (by decide)]
    decide
  have key : (quote (ascii "net")).length = 5 := by decide
  rw [section_,sectionCost,inner,key]
  rfl

/-- What the body carries besides the telemetry. -/
def queueFields (b : Backend) (m : Moment) : List Field :=
  [num "ts" m.ts,
    (ascii "fw_ver",.string m.fwVersion),
    num "uptime_s" (m.nowUs/1000000),
    (ascii "acks",.array (b.pending.map .string))] ++ rejectedFields b.rejected ++ droppedFields b.respDropped

def queueCost (number : Int → Bytes) (b : Backend) (m : Moment) : Nat := fieldsCost number (queueFields b m)

theorem bodySize (number : Int → Bytes) (b : Backend) (m : Moment) :
    size number (.object (bodyFields b m)) = queueCost number b m+
      fieldsCost number (powerTelemetry (takeSlot m.nowUs b.slots.power))+
      fieldsCost number (hostTelemetry (takeSlot m.nowUs b.slots.host))+
      fieldsCost number (netTelemetry (takeSlot m.nowUs b.slots.net))+1 := by
  have split : fieldsCost number (bodyFields b m) = queueCost number b m+
      fieldsCost number (powerTelemetry (takeSlot m.nowUs b.slots.power))+
      fieldsCost number (hostTelemetry (takeSlot m.nowUs b.slots.host))+
      fieldsCost number (netTelemetry (takeSlot m.nowUs b.slots.net)) := by
    simp only [bodyFields,queueCost,queueFields,num,fieldsCostAppend,fieldsCostCons,fieldsCostNil]
    omega
  have some_ : 1 ≤ queueCost number b m := by
    simp only [queueCost,queueFields,num,List.cons_append,fieldsCostCons]
    omega
  rw [objectSize,split]
  omega

end Web3PiUps.HttpBackend
