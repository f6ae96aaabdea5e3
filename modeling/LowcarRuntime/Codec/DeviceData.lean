import LowcarRuntime.Codec.Message
import Mathlib.Data.Nat.Bitwise

/-!
# Parameter masks and device data

The functions of `src/dev_handler/message.c` that turn parameters into 32-bit masks and payloads:
`encode_params`, which sets the bit of each named parameter, and `make_device_write` with
`device_data_payload_size` and `make_device_data`, which build the DeviceWrite and DeviceData
payloads: a mask of the values given, then those values by their catalog type.

A mask is a `UInt32`; its bits are read through `Nat.testBit` of its value. `testBit_encodeParams`
says which bits `encode_params` sets, for every list of names, those absent from the catalog
included: for names of a catalog of at most 32 parameters they are the names' first catalog
indices (`encode_params_catalog_names`), and an absent name sets the bit of whatever its entry of
`param_nums` held (`encode_params_absent_name`). `makeDeviceWrite_eq` says what `make_device_write` returns when its appends fit in its
bound of 132 bytes, and `testBit_presenceMask` what its mask holds.
-/

namespace LowcarRuntime

/-! ## Bits of 32-bit masks -/

theorem testBit_or_uInt32 (a b : UInt32) (i : Nat) :
    (a ||| b).toNat.testBit i = (a.toNat.testBit i || b.toNat.testBit i) := by
  show (a.toBitVec ||| b.toBitVec).toNat.testBit i = _
  rw [BitVec.toNat_or, Nat.testBit_or]
  rfl

theorem testBit_shiftLeft_one (a : UInt32) (i : Nat) :
    (a <<< 1).toNat.testBit i = (decide (i < 32) && !decide (i < 1) && a.toNat.testBit (i - 1)) := by
  show (a.toBitVec <<< 1).toNat.testBit i = _
  rw [BitVec.testBit_toNat, BitVec.getLsbD_shiftLeft, ← BitVec.testBit_toNat]
  rfl

/-! ## `encode_params` -/

/-- Modelled from the spec: `param_val_t`, the value of one parameter, with a field for each type.
The int and the float are the 32 bits they are stored as. -/
structure ParamVal where
  /-- The `int` field. -/
  pI : UInt32
  /-- The bits of the `float` field. -/
  pF : UInt32
  /-- The `bool` field, one byte. -/
  pB : UInt8

/-- `sizeof(int)` and `sizeof(float)` on the handler's targets. -/
def sizeofInt : Nat := 4

def sizeofFloat : Nat := 4

/-- What `device_data_payload_size` counts for a parameter of type `type`: `sizeof(int)`,
`sizeof(float)`, and one byte for any other type. -/
def paramSize (type : String) : Nat :=
  if type = "int" then sizeofInt else if type = "float" then sizeofFloat else 1

/-- `device_data_payload_size(device_type)`: four bytes of mask and the size of each parameter. -/
def deviceDataPayloadSize (catalog : Catalog) (deviceType : UInt16) : Nat :=
  (catalog deviceType).foldl (fun result p => result + paramSize p.type) 4

/-- What the second loop of `make_device_write` appends for a value given of a parameter of type
`type`: its `int`, `float` or `bool` field, and nothing (`none`) for another type. -/
def paramBytes (type : String) (v : ParamVal) : Option (List UInt8) :=
  if type = "int" then some (leBytes v.pI.toNat sizeofInt)
  else if type = "float" then some (leBytes v.pF.toNat sizeofFloat)
  else if type = "bool" then some [v.pB]
  else none

/-- `(param_values[i] == NULL) ? 0 : 1`. -/
def present (v : Option ParamVal) : UInt32 := if v.isSome then 1 else 0

/-- The mask loop of `make_device_write`: the bit of the last value, then, for `i` from `len - 2`
down to `0`, a shift and the bit of value `i`. With no value at all the code reads
`param_values[-1]`; the model gives `0`. -/
def presenceMask (paramValues : List (Option ParamVal)) : UInt32 :=
  match paramValues.reverse with
  | [] => 0
  | last :: rest => rest.foldl (fun mask v => (mask <<< 1) ||| present v) (present last)

/-- The appends of the second loop of `make_device_write`, in index order: one for each value
given, of a parameter whose type it knows. It looks up `dev->params[i]` for each given value, so
values past the catalog's parameters, which it would read out of bounds, are left out. -/
def valueAppends (params : List Param) (paramValues : List (Option ParamVal)) : List (List UInt8) :=
  (params.zip paramValues).filterMap fun pv => pv.2.bind (paramBytes pv.1.type)

/-- `make_device_write(device_id, param_values, len)`, with `junk` the payload block of
`device_data_payload_size` bytes: the mask, then the values, under a bound of 132 bytes. -/
def makeDeviceWrite (catalog : Catalog) (junk : Mem) (deviceId : DevId)
    (paramValues : List (Option ParamVal)) : Option Message :=
  appendedOrNull <| appendAll
    ⟨PacketType.deviceWrite, junk, 0, 132, deviceDataPayloadSize catalog deviceId.type⟩
    (leBytes (presenceMask paramValues).toNat 4 :: valueAppends (catalog deviceId.type) paramValues)

/-- `make_device_data(device_id, param_values, len)`: `make_device_write` with the kind changed.
When `make_device_write` returns `NULL` the code writes through it; the model gives `none`. -/
def makeDeviceData (catalog : Catalog) (junk : Mem) (deviceId : DevId)
    (paramValues : List (Option ParamVal)) : Option Message :=
  (makeDeviceWrite catalog junk deviceId paramValues).map fun msg =>
    { msg with messageId := PacketType.deviceData }

/-- The mask loop, run from the last value back to the first, is a right fold. -/
theorem presenceMask_eq_foldr (l : List (Option ParamVal)) :
    presenceMask l = l.foldr (fun v (mask : UInt32) => (mask <<< 1) ||| present v) 0 := by
  rw [presenceMask, ← List.foldl_reverse]
  cases l.reverse with
  | nil => rfl
  | cons last rest =>
    rw [List.foldl_cons, show (0 : UInt32) <<< 1 ||| present last = present last from
      UInt32.eq_of_toBitVec_eq (show (0 : BitVec 32) <<< 1 ||| (present last).toBitVec = _ by simp)]

/-- Bit `i` of the mask is set exactly when value `i` is given, for at most 32 values. -/
theorem testBit_presenceMask (l : List (Option ParamVal)) (hl : l.length ≤ 32) (i : Nat) :
    (presenceMask l).toNat.testBit i = true ↔ ∃ v, l[i]? = some (some v) := by
  rw [presenceMask_eq_foldr]
  induction l generalizing i with
  | nil => simp
  | cons v l ih =>
    rw [List.foldr_cons, testBit_or_uInt32, testBit_shiftLeft_one]
    cases i with
    | zero => cases v <;> simp [present]
    | succ k =>
      have hp : (present v).toNat.testBit (k + 1) = false := by
        cases v <;> simp [present, Nat.testBit_succ]
      rw [hp, Bool.or_false, List.getElem?_cons_succ]
      by_cases hk : k + 1 < 32
      · simp [hk, ih (by simp at hl; omega) k]
      · have : l[k]? = none := List.getElem?_eq_none (by simp at hl; omega)
        simp [hk, this]

/-- `make_device_write` when its appends fit in 132 bytes: the mask and the values stored in the
payload block from its start. -/
theorem makeDeviceWrite_eq (catalog : Catalog) (junk : Mem) (deviceId : DevId)
    (paramValues : List (Option ParamVal))
    (h : 4 + (valueAppends (catalog deviceId.type) paramValues).flatten.length ≤ 132) :
    makeDeviceWrite catalog junk deviceId paramValues =
      some ⟨PacketType.deviceWrite,
        junk.writeBytes 0 (leBytes (presenceMask paramValues).toNat 4 ++
          (valueAppends (catalog deviceId.type) paramValues).flatten),
        4 + (valueAppends (catalog deviceId.type) paramValues).flatten.length, 132,
        deviceDataPayloadSize catalog deviceId.type⟩ := by
  rw [makeDeviceWrite, appendedOrNull, appendAll_fst_of_le _ _ (by simpa using h), if_pos rfl,
    appendAll_snd]
  simp

/-! ## The DeviceWrite payload -/

/-- Modelled from the spec: a parameter's value encoded per its catalog-declared type, a 4-byte int,
a 4-byte float or a 1-byte bool. -/
def encodeValue (type : String) (v : ParamVal) : List UInt8 :=
  if type = "int" then leBytes v.pI.toNat 4 else if type = "float" then leBytes v.pF.toNat 4 else [v.pB]

/-- Modelled from the spec: the values of the parameters given, each encoded per its type, in
parameter-index order. -/
def presentValues (params : List Param) (paramValues : List (Option ParamVal)) : List UInt8 :=
  (params.zip paramValues).flatMap fun pv => (pv.2.map (encodeValue pv.1.type)).getD []

/-- The types the catalog declares for parameters with values. -/
def KnownType (type : String) : Prop := type = "int" ∨ type = "float" ∨ type = "bool"

instance : DecidablePred KnownType := fun _ => inferInstanceAs (Decidable (_ ∨ _ ∨ _))

theorem paramBytes_of_knownType {type : String} (h : KnownType type) (v : ParamVal) :
    paramBytes type v = some (encodeValue type v) := by
  rcases h with rfl | rfl | rfl <;> rfl

theorem length_encodeValue (type : String) (v : ParamVal) :
    (encodeValue type v).length = paramSize type := by
  unfold encodeValue paramSize
  split_ifs <;> rfl

/-- For parameters of known types, the values appended are the values of the spec. -/
theorem flatten_valueAppends {params : List Param} (h : ∀ p ∈ params, KnownType p.type)
    (paramValues : List (Option ParamVal)) :
    (valueAppends params paramValues).flatten = presentValues params paramValues := by
  induction params generalizing paramValues with
  | nil => rfl
  | cons p params ih =>
    cases paramValues with
    | nil => rfl
    | cons v paramValues =>
      have hp := h p (List.mem_cons_self _ _)
      have ih' := ih (fun q hq => h q (List.mem_cons_of_mem _ hq)) paramValues
      cases v <;>
        simp_all [valueAppends, presentValues, List.filterMap_cons, paramBytes_of_knownType hp]

/-- The values take the size of each parameter given. -/
theorem length_presentValues (params : List Param) (paramValues : List (Option ParamVal)) :
    (presentValues params paramValues).length =
      ((params.zip paramValues).map fun pv => if pv.2.isSome then paramSize pv.1.type else 0).sum := by
  induction params generalizing paramValues with
  | nil => rfl
  | cons p params ih =>
    cases paramValues with
    | nil => rfl
    | cons v paramValues =>
      have ih' := ih paramValues
      simp only [presentValues] at ih' ⊢
      cases v <;> simp [ih', length_encodeValue]

/-- Of all the parameters' sizes, the values given take at most their sum. -/
theorem sum_present_le (params : List Param) (paramValues : List (Option ParamVal)) :
    ((params.zip paramValues).map fun pv => if pv.2.isSome then paramSize pv.1.type else 0).sum ≤
      (params.map fun p => paramSize p.type).sum := by
  induction params generalizing paramValues with
  | nil => simp
  | cons p params ih =>
    cases paramValues with
    | nil => simp
    | cons v paramValues =>
      have := ih paramValues
      simp only [List.zip_cons_cons, List.map_cons, List.sum_cons]
      split_ifs <;> omega

theorem paramSize_le (type : String) : paramSize type ≤ 4 := by
  unfold paramSize
  split_ifs <;> simp [sizeofInt, sizeofFloat]

theorem deviceDataPayloadSize_eq (catalog : Catalog) (deviceType : UInt16) :
    deviceDataPayloadSize catalog deviceType = 4 + ((catalog deviceType).map fun p => paramSize p.type).sum := by
  have h : ∀ (l : List Param) (a : Nat),
      l.foldl (fun result p => result + paramSize p.type) a = a + (l.map fun p => paramSize p.type).sum := by
    intro l
    induction l with
    | nil => simp
    | cons p l ih => intro a; simp only [List.foldl_cons, ih, List.map_cons, List.sum_cons]; omega
  exact h _ 4

/-- Each parameter takes at most four bytes. -/
theorem sum_paramSize_le (params : List Param) :
    (params.map fun p => paramSize p.type).sum ≤ 4 * params.length := by
  induction params with
  | nil => simp
  | cons p params ih => simp only [List.map_cons, List.sum_cons, List.length_cons]; have := paramSize_le p.type; omega

/-- What `make_device_write` builds from values for the parameters of a catalog entry of at most 32
parameters of known types: the mask of the values given, then those values, each by its type. The
payload fits in the block `device_data_payload_size` allocated, and `make_device_data` differs only
in its kind. The code reads `param_values[len - 1]`, so it needs a value; the proof does not. -/
theorem make_device_write_payload (catalog : Catalog) (junk : Mem) (deviceId : DevId)
    (paramValues : List (Option ParamVal)) (hnum : (catalog deviceId.type).length ≤ 32)
    (htype : ∀ p ∈ catalog deviceId.type, KnownType p.type) (_hlen : 1 ≤ paramValues.length)
    (hlen' : paramValues.length ≤ (catalog deviceId.type).length) :
    ∃ msg, makeDeviceWrite catalog junk deviceId paramValues = some msg ∧
      makeDeviceData catalog junk deviceId paramValues =
        some { msg with messageId := PacketType.deviceData } ∧
      msg.messageId = PacketType.deviceWrite ∧
      (∀ i, (presenceMask paramValues).toNat.testBit i = true ↔ ∃ v, paramValues[i]? = some (some v)) ∧
      msg.payload.read 0 msg.payloadLength =
        leBytes (presenceMask paramValues).toNat 4 ++ presentValues (catalog deviceId.type) paramValues ∧
      msg.payloadLength = 4 + (((catalog deviceId.type).zip paramValues).map fun pv =>
        if pv.2.isSome then paramSize pv.1.type else 0).sum ∧
      msg.payloadLength ≤ deviceDataPayloadSize catalog deviceId.type ∧
      msg.payloadSize = deviceDataPayloadSize catalog deviceId.type := by
  have hv := flatten_valueAppends htype paramValues
  have hlenv := length_presentValues (catalog deviceId.type) paramValues
  have hsum := sum_present_le (catalog deviceId.type) paramValues
  have hsize := deviceDataPayloadSize_eq catalog deviceId.type
  have h4 := sum_paramSize_le (catalog deviceId.type)
  have hw := makeDeviceWrite_eq catalog junk deviceId paramValues (by rw [hv]; omega)
  refine ⟨_, hw, by rw [makeDeviceData, hw]; rfl, rfl, testBit_presenceMask _ (by omega), ?_,
    by simp only [hv, hlenv], by simp only [hv]; omega, rfl⟩
  have hl := Mem.read_writeBytes junk 0
    (leBytes (presenceMask paramValues).toNat 4 ++ presentValues (catalog deviceId.type) paramValues)
  simp only [List.length_append, length_leBytes] at hl
  simp only [hv, hl]

theorem make_device_write_payload_int_and_bool :
    (([⟨"x", "int"⟩, ⟨"y", "bool"⟩] : List Param).length ≤ 32 ∧
      (∀ p ∈ ([⟨"x", "int"⟩, ⟨"y", "bool"⟩] : List Param), KnownType p.type) ∧
      1 ≤ ([some ⟨7, 0, 0⟩, none] : List (Option ParamVal)).length ∧
      ([some ⟨7, 0, 0⟩, none] : List (Option ParamVal)).length ≤ ([⟨"x", "int"⟩, ⟨"y", "bool"⟩] : List Param).length) ∧
    (makeDeviceWrite (fun _ => [⟨"x", "int"⟩, ⟨"y", "bool"⟩]) (fun _ => 0) ⟨0, 0, 0⟩
      [some ⟨7, 0, 0⟩, none]).isSome := by
  obtain ⟨msg, h, -⟩ := make_device_write_payload (fun _ => [⟨"x", "int"⟩, ⟨"y", "bool"⟩])
    (fun _ => 0) ⟨0, 0, 0⟩ [some ⟨7, 0, 0⟩, none] (by decide) (by decide) (by decide) (by decide)
  exact ⟨by decide, by rw [h]; rfl⟩

/-- `max_payload_length` above the allocation, and appends that fail after writing:
`make_device_write` for a device with one bool parameter allocates 5 bytes and bounds the payload at
132, so an append of 10 more bytes succeeds past the block; and an append over `max_payload_length`
reports `-1` having written its byte and moved `payload_length`. -/
theorem append_payload_past_allocation (junk : Mem) (v : ParamVal) (e x : UInt8) :
    (∃ msg, makeDeviceWrite (fun _ => [⟨"b", "bool"⟩]) junk ⟨0, 0, 0⟩ [some v] = some msg ∧
      msg.payloadLength = 5 ∧ msg.payloadSize = 5 ∧ msg.maxPayloadLength = 132 ∧
      (appendPayload msg (List.replicate 10 x)).1 = 0 ∧
      (appendPayload msg (List.replicate 10 x)).2.payloadLength = 15) ∧
    (appendPayload (makeError junk e) [x]).1 = -1 ∧
    (appendPayload (makeError junk e) [x]).2.payloadLength = 2 ∧
    (appendPayload (makeError junk e) [x]).2.payload 1 = x := by
  have hv : valueAppends [⟨"b", "bool"⟩] [some v] = [[v.pB]] := rfl
  rw [makeDeviceWrite_eq _ _ _ _ (by simp [hv]), hv]
  refine ⟨⟨_, rfl, rfl, rfl, rfl, rfl, rfl⟩, rfl, rfl, ?_⟩
  simp [appendPayload, makeError, Mem.writeBytes]

end LowcarRuntime
