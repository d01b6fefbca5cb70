import Lager.Rust.Serde

set_option relaxedAutoImplicit false
set_option autoImplicit false

/-!
# Net records

A net record is read from the list of a box's nets, and saved back with the same type. What the
type does not name it keeps aside, except inside of the safety limits, where it is dropped.

## Main definitions

* `Lager.NetRecord`, `Lager.SafetyLimits` — the types, with how they are read and written.
* `Lager.recordBody` — the body of a request that saves a record.
* `Lager.NetFields`, `Lager.LimitsFields` — an object is a net record, or limits, as declared.

## Main results

* `Lager.recordBody_iff` — a record that was read is saved back unchanged exactly when its safety
  limits hold nothing but the declared limits.
-/

namespace Lager

open Deserialize

/-! ## The types -/

/-- `SafetyLimits`. -/
structure SafetyLimits where
  maxVoltage : Option ℚ
  maxCurrent : Option ℚ
  allowDestructive : Option Bool
  deriving DecidableEq

namespace SafetyLimits

/-- The names of the fields. -/
def names : List String := ["max_voltage", "max_current", "allow_destructive"]

/-- `Deserialize`. -/
def fromValue : Deserialize SafetyLimits := fun v => do
  let get ← structFields names v
  let maxVoltage ← field (option f64) none (get "max_voltage")
  let maxCurrent ← field (option f64) none (get "max_current")
  let allowDestructive ← field (option boolean) none (get "allow_destructive")
  return ⟨maxVoltage, maxCurrent, allowDestructive⟩

/-- The fields of the object made of some limits. -/
def fields (limits : SafetyLimits) : Map :=
  Map.setSome "allow_destructive" (limits.allowDestructive.map .bool)
    (Map.setSome "max_current" (limits.maxCurrent.map .number)
      (Map.setSome "max_voltage" (limits.maxVoltage.map .number) []))

/-- `Serialize`. -/
def toValue (limits : SafetyLimits) : Value := .object limits.fields

end SafetyLimits

/-- `NetRecord`. -/
structure NetRecord where
  name : String
  role : String
  instrument : Option String
  pin : Option Value
  channel : Option Value
  address : Option String
  params : Option Map
  safetyLimits : Option SafetyLimits
  extra : Map

namespace NetRecord

/-- The names of the fields that are not flattened. -/
def names : List String :=
  ["name", "role", "instrument", "pin", "channel", "address", "params", "safety_limits"]

/-- `Deserialize`. A struct with a flattened field is read from objects only. -/
def fromValue : Deserialize NetRecord
  | .object fields => do
    let name ← field string "" (fields.lookup "name")
    let role ← field string "" (fields.lookup "role")
    let instrument ← field (option string) none (fields.lookup "instrument")
    let pin ← field (option some) none (fields.lookup "pin")
    let channel ← field (option some) none (fields.lookup "channel")
    let address ← field (option string) none (fields.lookup "address")
    let params ← field (option map) none (fields.lookup "params")
    let safetyLimits ← field (option SafetyLimits.fromValue) none (fields.lookup "safety_limits")
    return ⟨name, role, instrument, pin, channel, address, params, safetyLimits,
      fields.filter fun field => field.1 ∉ names⟩
  | _ => none

/-- The fields of the object made of a record, without the flattened ones. -/
def fields (record : NetRecord) : Map :=
  Map.setSome "safety_limits" (record.safetyLimits.map SafetyLimits.toValue)
    (Map.setSome "params" (record.params.map .object)
      (Map.setSome "address" (record.address.map .string)
        (Map.setSome "channel" record.channel
          (Map.setSome "pin" record.pin
            (Map.setSome "instrument" (record.instrument.map .string)
              (Map.insert "role" (.string record.role)
                (Map.insert "name" (.string record.name) [])))))))

/-- `Serialize`. -/
def toValue (record : NetRecord) : Value := .object (Map.insertAll record.extra record.fields)

end NetRecord

/-- `record_body`: everything but the derived `live_path`. -/
def recordBody (record : NetRecord) : Value := record.toValue.mapObject (Map.remove "live_path")

/-! ## Objects as declared -/

/-- An object holds limits of their declared types, and may hold more. -/
structure LimitsFields (fields : Map) : Prop where
  sorted : Map.Sorted fields
  maxVoltage : ∀ v, fields.lookup "max_voltage" = some v → ∃ n, v = .number n
  maxCurrent : ∀ v, fields.lookup "max_current" = some v → ∃ n, v = .number n
  allowDestructive : ∀ v, fields.lookup "allow_destructive" = some v → ∃ b, v = .bool b

/-- An object holds a name, a role and other fields of their declared types, none of them null, and
may hold more. -/
structure NetFields (fields : Map) : Prop where
  sorted : Map.Sorted fields
  name : ∃ s, fields.lookup "name" = some (.string s)
  role : ∃ s, fields.lookup "role" = some (.string s)
  instrument : ∀ v, fields.lookup "instrument" = some v → ∃ s, v = .string s
  pin : ∀ v, fields.lookup "pin" = some v → v ≠ .null
  channel : ∀ v, fields.lookup "channel" = some v → v ≠ .null
  address : ∀ v, fields.lookup "address" = some v → ∃ s, v = .string s
  params : ∀ v, fields.lookup "params" = some v → ∃ m, v = .object m
  safetyLimits : ∀ v, fields.lookup "safety_limits" = some v →
    ∃ limits, v = .object limits ∧ LimitsFields limits

/-- An object holds nothing but the declared limits, and ceilings that are doubles. -/
structure OnlyLimits (fields : Map) : Prop where
  names : ∀ key, key ∉ SafetyLimits.names → fields.lookup key = none
  maxVoltage : ∀ n, fields.lookup "max_voltage" = some (.number n) → toF64 n = n
  maxCurrent : ∀ n, fields.lookup "max_current" = some (.number n) → toF64 n = n

/-- Reading a record and building the body that saves it gives the record back, without its
`live_path`. -/
def SavesBack (fields : Map) : Prop :=
  ∃ record, NetRecord.fromValue (.object fields) = some record ∧
    recordBody record = .object (Map.remove "live_path" fields)

/-! ## Reading and writing back -/

/-- An optional field of a declared type: what is read of it, and what is written for that. -/
theorem field_option {α : Type} {d : Deserialize α} {w : α → Value} {g : Option Value}
    (h : ∀ v, g = some v → v ≠ .null ∧ ∃ a, d v = some a) :
    ∃ a, field (option d) none g = some a ∧
      (a.map w = g ↔ ∀ v b, g = some v → d v = some b → w b = v) := by
  cases g with
  | none => exact ⟨none, rfl, by simp⟩
  | some v =>
    obtain ⟨hne, a, ha⟩ := h v rfl
    refine ⟨some a, ?_, ?_⟩
    · show option d v = _
      rw [option_of_ne_null hne, ha]
      rfl
    · constructor
      · rintro hwrite v' b hv hb
        obtain rfl := Option.some.inj hv
        obtain rfl := Option.some.inj (ha.symm.trans hb)
        exact Option.some.inj hwrite
      · intro hall
        exact congrArg some (hall v a rfl ha)

/-- A ceiling is written back as it was read if it is a double. -/
theorem field_ceiling {get : Option Value} (h : ∀ v, get = some v → ∃ n, v = .number n) :
    ∃ a, field (option f64) none get = some a ∧
      (a.map .number = get ↔ ∀ n, get = some (.number n) → toF64 n = n) := by
  obtain ⟨a, ha, hback⟩ := field_option (d := f64) (w := .number) (g := get) fun v hv => by
    obtain ⟨n, rfl⟩ := h v hv
    exact ⟨by simp, toF64 n, rfl⟩
  refine ⟨a, ha, hback.trans ⟨fun hall n hn => ?_, fun hall v b hv hb => ?_⟩⟩
  · simpa using hall _ _ hn rfl
  · obtain ⟨n, rfl⟩ := h v hv
    obtain rfl := Option.some.inj hb
    rw [hall n hv]

/-- A field that is read and written without loss. -/
theorem field_exact {α : Type} {d : Deserialize α} {w : α → Value} {g : Option Value}
    (h : ∀ v, g = some v → v ≠ .null ∧ ∃ a, d v = some a ∧ w a = v) :
    ∃ a, field (option d) none g = some a ∧ a.map w = g := by
  obtain ⟨a, ha, hback⟩ := field_option (d := d) (w := w) (g := g) fun v hv => by
    obtain ⟨hne, a, hread, -⟩ := h v hv
    exact ⟨hne, a, hread⟩
  refine ⟨a, ha, hback.mpr fun v b hv hb => ?_⟩
  obtain ⟨-, a', hread, hwrite⟩ := h v hv
  obtain rfl := Option.some.inj (hread.symm.trans hb)
  exact hwrite

/-- What the object made of some limits holds. -/
theorem SafetyLimits.lookup_fields (limits : SafetyLimits) (key : String) :
    limits.fields.lookup key =
      if key = "allow_destructive" then limits.allowDestructive.map .bool
      else if key = "max_current" then limits.maxCurrent.map .number
      else if key = "max_voltage" then limits.maxVoltage.map .number
      else none := by
  rw [fields, Map.lookup_setSome, Map.lookup_setSome, Map.lookup_setSome]
  split_ifs with h₁ h₂ h₃ h₄ h₅ <;> simp_all

/-- Limits are read from an object as declared, and written back as that object exactly when it
holds nothing else. -/
theorem LimitsFields.fromValue {fields : Map} (h : LimitsFields fields) :
    ∃ limits, SafetyLimits.fromValue (.object fields) = some limits ∧
      (limits.toValue = .object fields ↔ OnlyLimits fields) := by
  obtain ⟨maxVoltage, hvoltage, hvoltageBack⟩ := field_ceiling h.maxVoltage
  obtain ⟨maxCurrent, hcurrent, hcurrentBack⟩ := field_ceiling h.maxCurrent
  obtain ⟨allow, hallow, hallowBack⟩ :=
    field_exact (d := boolean) (w := .bool) fun v hv => by
      obtain ⟨b, rfl⟩ := h.allowDestructive v hv
      exact ⟨by simp, b, rfl, rfl⟩
  refine ⟨⟨maxVoltage, maxCurrent, allow⟩, ?_, ?_⟩
  · simp [SafetyLimits.fromValue, structFields, hvoltage, hcurrent, hallow]
  rw [SafetyLimits.toValue, Value.object.injEq]
  constructor
  · intro heq
    have hlookup := SafetyLimits.lookup_fields ⟨maxVoltage, maxCurrent, allow⟩
    rw [heq] at hlookup
    refine ⟨fun key hkey => ?_, ?_, ?_⟩
    · simp only [SafetyLimits.names, List.mem_cons, List.not_mem_nil, or_false, not_or] at hkey
      rw [hlookup, if_neg hkey.2.2, if_neg hkey.2.1, if_neg hkey.1]
    · exact hvoltageBack.mp (hlookup "max_voltage").symm
    · exact hcurrentBack.mp (hlookup "max_current").symm
  · intro honly
    refine Map.Sorted.ext ?_ h.sorted fun key => ?_
    · exact ((Map.sorted_nil.setSome _ _).setSome _ _).setSome _ _
    rw [SafetyLimits.lookup_fields]
    split_ifs with h₁ h₂ h₃
    · rw [h₁, hallowBack]
    · rw [h₂]
      exact hcurrentBack.mpr honly.maxCurrent
    · rw [h₃]
      exact hvoltageBack.mpr honly.maxVoltage
    · refine (honly.names key ?_).symm
      simp [SafetyLimits.names, h₁, h₂, h₃]

namespace NetRecord

/-- What the object made of a record holds, without the flattened fields. -/
theorem lookup_fields (record : NetRecord) (key : String) :
    record.fields.lookup key =
      if key = "safety_limits" then record.safetyLimits.map SafetyLimits.toValue
      else if key = "params" then record.params.map .object
      else if key = "address" then record.address.map .string
      else if key = "channel" then record.channel
      else if key = "pin" then record.pin
      else if key = "instrument" then record.instrument.map .string
      else if key = "role" then some (.string record.role)
      else if key = "name" then some (.string record.name)
      else none := by
  unfold fields
  simp only [Map.lookup_setSome, Map.lookup_insert]
  by_cases hkey : key ∈ names
  · simp only [names, List.mem_cons, List.not_mem_nil, or_false] at hkey
    rcases hkey with rfl | rfl | rfl | rfl | rfl | rfl | rfl | rfl <;> simp
  · simp only [names, List.mem_cons, List.not_mem_nil, or_false, not_or] at hkey
    simp [hkey]

/-- The keys of the object made of a record are in order. -/
theorem sorted_fields (record : NetRecord) : Map.Sorted record.fields := by
  unfold fields
  iterate 6 refine Map.Sorted.setSome ?_ _ _
  exact (Map.sorted_nil.insert _ _).insert _ _

end NetRecord

/-- A record is read from an object as declared. The object made of it holds what was read, but for
the safety limits, and holds these exactly when they are nothing but limits. -/
theorem NetFields.fromValue {fields : Map} (h : NetFields fields) :
    ∃ record limits, NetRecord.fromValue (.object fields) = some record ∧
      Map.Sorted record.extra ∧
      (∀ key, (Map.insertAll record.extra record.fields).lookup key =
        if key = "safety_limits" then limits else fields.lookup key) ∧
      (limits = fields.lookup "safety_limits" ↔
        ∀ limits, fields.lookup "safety_limits" = some (.object limits) → OnlyLimits limits) := by
  obtain ⟨name, hname⟩ := h.name
  obtain ⟨role, hrole⟩ := h.role
  have hnameRead : field string "" (fields.lookup "name") = some name := by
    rw [hname]
    rfl
  have hroleRead : field string "" (fields.lookup "role") = some role := by
    rw [hrole]
    rfl
  obtain ⟨instrument, hinstrument, hinstrumentBack⟩ :=
    field_exact (d := string) (w := .string) fun v hv => by
      obtain ⟨s, rfl⟩ := h.instrument v hv
      exact ⟨by simp, s, rfl, rfl⟩
  obtain ⟨pin, hpin, hpinBack⟩ :=
    field_exact (d := some) (w := id) fun v hv => ⟨h.pin v hv, v, rfl, rfl⟩
  obtain ⟨channel, hchannel, hchannelBack⟩ :=
    field_exact (d := some) (w := id) fun v hv => ⟨h.channel v hv, v, rfl, rfl⟩
  obtain ⟨address, haddress, haddressBack⟩ :=
    field_exact (d := string) (w := .string) fun v hv => by
      obtain ⟨s, rfl⟩ := h.address v hv
      exact ⟨by simp, s, rfl, rfl⟩
  obtain ⟨params, hparams, hparamsBack⟩ :=
    field_exact (d := map) (w := .object) fun v hv => by
      obtain ⟨m, rfl⟩ := h.params v hv
      exact ⟨by simp, m, rfl, rfl⟩
  obtain ⟨limits, hlimits, hlimitsBack⟩ :=
    field_option (d := SafetyLimits.fromValue) (w := SafetyLimits.toValue) fun v hv => by
      obtain ⟨m, rfl, hm⟩ := h.safetyLimits v hv
      obtain ⟨limits, hread, -⟩ := hm.fromValue
      exact ⟨by simp, limits, hread⟩
  refine ⟨⟨name, role, instrument, pin, channel, address, params, limits,
    fields.filter fun field => field.1 ∉ NetRecord.names⟩, limits.map SafetyLimits.toValue,
    ?_, h.sorted.filter _, fun key => ?_, hlimitsBack.trans ⟨fun hall m hm => ?_, fun hall => ?_⟩⟩
  · simp [NetRecord.fromValue, hnameRead, hroleRead, hinstrument, hpin, hchannel, haddress,
      hparams, hlimits]
  · rw [Option.map_id_fun, id] at hpinBack hchannelBack
    have hextra := Map.lookup_filter (fun key => key ∉ NetRecord.names) key fields
    rw [Map.lookup_insertAll (h.sorted.filter _), hextra, NetRecord.lookup_fields]
    simp only [hinstrumentBack, hpinBack, hchannelBack, haddressBack, hparamsBack]
    by_cases hkey : key ∈ NetRecord.names
    · simp only [hkey, not_true_eq_false, decide_false, Bool.false_eq_true, if_false]
      simp only [NetRecord.names, List.mem_cons, List.not_mem_nil, or_false] at hkey
      rcases hkey with rfl | rfl | rfl | rfl | rfl | rfl | rfl | rfl <;> simp [hname, hrole]
    · simp only [hkey, not_false_eq_true, decide_true, if_true]
      simp only [NetRecord.names, List.mem_cons, List.not_mem_nil, or_false, not_or] at hkey
      simp [hkey]
  · obtain ⟨m', hm', hfields⟩ := h.safetyLimits _ hm
    obtain rfl := Value.object.inj hm'
    obtain ⟨l, hread, hback⟩ := hfields.fromValue
    exact hback.mp (hall _ l hm hread)
  · intro v l hv hread
    obtain ⟨m, rfl, hm⟩ := h.safetyLimits v hv
    obtain ⟨l', hread', hback⟩ := hm.fromValue
    obtain rfl := Option.some.inj (hread'.symm.trans hread)
    exact hback.mpr (hall m hv)

/-- **Saving a record back.** Take an object that holds a name, a role and other fields as declared,
none of them null, and possibly more. Reading it as a net record and building the body that saves
the record gives the object without its `live_path` if and only if its safety limits, if it has any,
hold nothing but the declared limits, with ceilings that are doubles.

**Proof sketch.** Every declared field is read and written without loss, and the other fields of the
record are kept aside. Of the safety limits only the declared ones are kept. -/
theorem recordBody_iff {fields : Map} (h : NetFields fields) :
    SavesBack fields ↔
      ∀ limits, fields.lookup "safety_limits" = some (.object limits) → OnlyLimits limits := by
  obtain ⟨record, limits, hread, hextra, hlookup, hlimits⟩ := h.fromValue
  rw [← hlimits]
  constructor
  · rintro ⟨record', hread', hbody⟩
    obtain rfl := Option.some.inj (hread.symm.trans hread')
    have hfields := congrArg (fun m => m.lookup "safety_limits") (Value.object.inj hbody)
    simpa [Map.lookup_remove, hlookup] using hfields
  · intro heq
    refine ⟨record, hread, congrArg Value.object ?_⟩
    have hsorted : Map.Sorted (Map.insertAll record.extra record.fields) :=
      record.sorted_fields.insertAll _
    refine congrArg _ (hsorted.ext h.sorted fun key => ?_)
    rw [hlookup]
    split_ifs with hkey
    · rw [heq, hkey]
    · rfl

/-- A record with a ceiling, a derived field and a field the type does not name. -/
def ceilinged : Map :=
  [("live_path", .string "/dev/ttyACM0"), ("mappings", .array []), ("name", .string "supply1"),
    ("role", .string "power-supply"), ("safety_limits", .object [("max_voltage", .number 5)])]

/-- That record comes back unchanged. -/
theorem recordBody_ceilinged : SavesBack ceilinged := by
  refine (recordBody_iff ?_).mpr fun limits hlimits => ?_
  · exact {
      sorted := by decide
      name := ⟨_, rfl⟩
      role := ⟨_, rfl⟩
      instrument := fun v hv => by cases hv
      pin := fun v hv => by cases hv
      channel := fun v hv => by cases hv
      address := fun v hv => by cases hv
      params := fun v hv => by cases hv
      safetyLimits := fun v hv => ⟨_, (Option.some.inj hv).symm, {
        sorted := by decide
        maxVoltage := fun v hv => ⟨5, (Option.some.inj hv).symm⟩
        maxCurrent := fun v hv => by cases hv
        allowDestructive := fun v hv => by cases hv }⟩ }
  · obtain rfl := Value.object.inj (Option.some.inj hlimits)
    refine ⟨fun key hkey => ?_, fun n hn => ?_, fun n hn => by cases hn⟩
    · rw [Map.lookup_cons, if_neg]
      · rfl
      · rintro rfl
        exact hkey (by decide)
    · obtain rfl := Value.number.inj (Option.some.inj hn)
      decide +kernel

/-! ## Records that come back changed -/

/-- A record whose safety limits hold something else, as a newer box may send it. -/
def rampLimited : Map :=
  [("name", .string "supply1"), ("role", .string "power-supply"),
    ("safety_limits", .object [("max_ramp", .number 2), ("max_voltage", .number 5)])]

/-- Saving a record back can drop a safety limit. -/
theorem recordBody_drops_limit : ¬ ∀ fields, NetFields fields → SavesBack fields := by
  intro hall
  have hfields : NetFields rampLimited := {
    sorted := by decide
    name := ⟨_, rfl⟩
    role := ⟨_, rfl⟩
    instrument := fun v hv => by cases hv
    pin := fun v hv => by cases hv
    channel := fun v hv => by cases hv
    address := fun v hv => by cases hv
    params := fun v hv => by cases hv
    safetyLimits := fun v hv => ⟨_, (Option.some.inj hv).symm, {
      sorted := by decide
      maxVoltage := fun v hv => ⟨5, (Option.some.inj hv).symm⟩
      maxCurrent := fun v hv => by cases hv
      allowDestructive := fun v hv => by cases hv }⟩ }
  obtain ⟨record, hread, hbody⟩ := hall _ hfields
  let ramp (v : Value) : Bool := ((v.get "safety_limits").bind (Value.get "max_ramp")).isSome
  have hlost : (NetRecord.fromValue (.object rampLimited)).map (fun r => ramp (recordBody r)) =
      some false := by decide +kernel
  rw [hread, Option.map_some, hbody] at hlost
  exact absurd hlost (by decide +kernel)

end Lager
