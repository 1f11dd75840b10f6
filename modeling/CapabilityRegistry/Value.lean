import CapabilityRegistry.Condition

/-! Typed capability values: rendering, equality, validation and normalization. -/
namespace CapabilityRegistry

inductive ValueKind
  | none | boolean | count | bytes | rate | bandwidth | latencyClass | enumeration | featureSet
  | versionRange | architectureSet | numericRange | record | relationship | predicate
deriving DecidableEq, Inhabited

instance : CodeEnum ValueKind where
  members := [.none, .boolean, .count, .bytes, .rate, .bandwidth, .latencyClass, .enumeration,
    .featureSet, .versionRange, .architectureSet, .numericRange, .record, .relationship, .predicate]
  mem_members := by rintro ⟨⟩ <;> decide

def ValueKind.toText : ValueKind → Text
  | .none => "none"
  | .boolean => "boolean"
  | .count => "count"
  | .bytes => "bytes"
  | .rate => "rate"
  | .bandwidth => "bandwidth"
  | .latencyClass => "latency-class"
  | .enumeration => "enumeration"
  | .featureSet => "feature-set"
  | .versionRange => "version-range"
  | .architectureSet => "architecture-set"
  | .numericRange => "numeric-range"
  | .record => "record"
  | .relationship => "relationship"
  | .predicate => "predicate"

inductive RateUnit
  | hertz | kiloHertz | megaHertz | gigaHertz | operationsPerSecond
deriving DecidableEq, Inhabited

instance : CodeEnum RateUnit where
  members := [.hertz, .kiloHertz, .megaHertz, .gigaHertz, .operationsPerSecond]
  mem_members := by rintro ⟨⟩ <;> decide

def RateUnit.toText : RateUnit → Text
  | .hertz => "Hz"
  | .kiloHertz => "kHz"
  | .megaHertz => "MHz"
  | .gigaHertz => "GHz"
  | .operationsPerSecond => "ops/s"

inductive BandwidthUnit
  | bytesPerSecond | kilobytesPerSecond | megabytesPerSecond | gigabytesPerSecond
  | terabytesPerSecond | bitsPerSecond | kilobitsPerSecond | megabitsPerSecond | gigabitsPerSecond
deriving DecidableEq, Inhabited

instance : CodeEnum BandwidthUnit where
  members := [.bytesPerSecond, .kilobytesPerSecond, .megabytesPerSecond, .gigabytesPerSecond,
    .terabytesPerSecond, .bitsPerSecond, .kilobitsPerSecond, .megabitsPerSecond, .gigabitsPerSecond]
  mem_members := by rintro ⟨⟩ <;> decide

def BandwidthUnit.toText : BandwidthUnit → Text
  | .bytesPerSecond => "B/s"
  | .kilobytesPerSecond => "kB/s"
  | .megabytesPerSecond => "MB/s"
  | .gigabytesPerSecond => "GB/s"
  | .terabytesPerSecond => "TB/s"
  | .bitsPerSecond => "bit/s"
  | .kilobitsPerSecond => "kbit/s"
  | .megabitsPerSecond => "Mbit/s"
  | .gigabitsPerSecond => "Gbit/s"

inductive LatencyClass
  | unknown | ultraLow | low | medium | high | veryHigh
deriving DecidableEq, Inhabited

instance : CodeEnum LatencyClass where
  members := [.unknown, .ultraLow, .low, .medium, .high, .veryHigh]
  mem_members := by rintro ⟨⟩ <;> decide

def LatencyClass.toText : LatencyClass → Text
  | .unknown => "unknown"
  | .ultraLow => "ultra-low"
  | .low => "low"
  | .medium => "medium"
  | .high => "high"
  | .veryHigh => "very-high"

inductive CapabilityRelation
  | dependsOn | requires | alternativeTo | supersedes | exclusive
deriving DecidableEq, Inhabited

instance : CodeEnum CapabilityRelation where
  members := [.dependsOn, .requires, .alternativeTo, .supersedes, .exclusive]
  mem_members := by rintro ⟨⟩ <;> decide

def CapabilityRelation.toText : CapabilityRelation → Text
  | .dependsOn => "depends-on"
  | .requires => "requires"
  | .alternativeTo => "alternative-to"
  | .supersedes => "supersedes"
  | .exclusive => "exclusive"

structure CountValue where
  count : UInt64 := 0
  unit : Text := []
deriving DecidableEq

structure RateValue where
  magnitude : UInt64 := 0
  unit : RateUnit := .hertz
deriving DecidableEq

structure BandwidthValue where
  magnitude : UInt64 := 0
  unit : BandwidthUnit := .bytesPerSecond
deriving DecidableEq

structure EnumValue where
  domain : Text
  value : Text
deriving DecidableEq

structure NumericRangeValue where
  minimum : Int64 := 0
  maximum : Int64 := 0
  step : Int64 := 1
deriving DecidableEq

structure RelationshipValue where
  relation : CapabilityRelation := .dependsOn
  target : CapabilityId := default
deriving DecidableEq

mutual

/-- The value variant; `none` is its `monostate`. -/
inductive CapabilityValue
  | none
  | boolean (value : Bool)
  | count (value : CountValue)
  | bytes (bytes : UInt64)
  | rate (value : RateValue)
  | bandwidth (value : BandwidthValue)
  | latencyClass (value : LatencyClass)
  | enumeration (value : EnumValue)
  | featureSet (features : List Text)
  | versionRange (range : VersionRange)
  | architectureSet (architectures : List ArchitectureId)
  | numericRange (range : NumericRangeValue)
  | record (fields : List RecordField)
  | relationship (value : RelationshipValue)
  | predicate (condition : ConditionPtr)

/-- A record field, its value pointer null or set. -/
inductive RecordField
  | null (name : Text)
  | field (name : Text) (value : CapabilityValue)

end

instance : Inhabited CapabilityValue := ⟨.none⟩
instance : Inhabited RecordField := ⟨.null []⟩

def RecordField.name : RecordField → Text
  | null name => name
  | field name _ => name

namespace CapabilityValue

def kind : CapabilityValue → ValueKind
  | none => .none
  | boolean _ => .boolean
  | count _ => .count
  | bytes _ => .bytes
  | rate _ => .rate
  | bandwidth _ => .bandwidth
  | latencyClass _ => .latencyClass
  | enumeration _ => .enumeration
  | featureSet _ => .featureSet
  | versionRange _ => .versionRange
  | architectureSet _ => .architectureSet
  | numericRange _ => .numericRange
  | record _ => .record
  | relationship _ => .relationship
  | predicate _ => .predicate

def empty : CapabilityValue → Bool
  | none => true
  | _ => false

@[simp] theorem empty_none : (none : CapabilityValue).empty = true := rfl

end CapabilityValue

/-- `std::to_string` of a signed integer. -/
def decimalInt (n : Int64) : Text :=
  if n < 0 then "-" ++ decimal n.toInt.natAbs else decimal n.toInt.toNat

def joinTokens (tokens : List Text) : Text := "\x7b" ++ joinTexts "," tokens ++ "\x7d"

mutual

def CapabilityValue.describe : CapabilityValue → Text
  | .none => "none"
  | .boolean value => if value then "true" else "false"
  | .count value =>
    if value.unit.isEmpty then decimal value.count.toNat
    else decimal value.count.toNat ++ " " ++ value.unit
  | .bytes bytes => decimal bytes.toNat ++ " B"
  | .rate value => decimal value.magnitude.toNat ++ " " ++ value.unit.toText
  | .bandwidth value => decimal value.magnitude.toNat ++ " " ++ value.unit.toText
  | .latencyClass value => value.toText
  | .enumeration value => value.domain ++ ":" ++ value.value
  | .featureSet features => joinTokens features
  | .versionRange range => range.describe
  | .architectureSet architectures => joinTokens (architectures.map Id.str)
  | .numericRange range =>
    "[" ++ decimalInt range.minimum ++ "," ++ decimalInt range.maximum ++ "] step " ++
      decimalInt range.step
  | .record fields => joinTokens (describeFields fields)
  | .relationship value => value.relation.toText ++ ":" ++ value.target.str
  | .predicate condition => "if " ++ describeCondition condition

def describeFields : List RecordField → List Text
  | [] => []
  | f :: fs => describeField f :: describeFields fs

def describeField : RecordField → Text
  | .null name => name ++ "=none"
  | .field name value => name ++ "=" ++ value.describe

end

/-- `operator==` on version ranges compares by precedence, not by text. -/
def versionRangeEq (a b : VersionRange) : Bool :=
  SoftwareVersion.compare a.minimum b.minimum == 0 &&
    SoftwareVersion.compare a.maximum b.maximum == 0 && a.includeMaximum == b.includeMaximum

mutual

def CapabilityValue.beq : CapabilityValue → CapabilityValue → Bool
  | .none, .none => true
  | .boolean a, .boolean b => a == b
  | .count a, .count b => a == b
  | .bytes a, .bytes b => a == b
  | .rate a, .rate b => a == b
  | .bandwidth a, .bandwidth b => a == b
  | .latencyClass a, .latencyClass b => a == b
  | .enumeration a, .enumeration b => a == b
  | .featureSet a, .featureSet b => a == b
  | .versionRange a, .versionRange b => versionRangeEq a b
  | .architectureSet a, .architectureSet b => a == b
  | .numericRange a, .numericRange b => a == b
  | .record a, .record b => fieldsBeq a b
  | .relationship a, .relationship b => a == b
  | .predicate a, .predicate b => describeCondition a == describeCondition b
  | _, _ => false

def fieldsBeq : List RecordField → List RecordField → Bool
  | [], [] => true
  | a :: as, b :: bs => fieldBeq a b && fieldsBeq as bs
  | _, _ => false

def fieldBeq : RecordField → RecordField → Bool
  | .null a, .null b => a == b
  | .field a v, .field b w => a == b && v.beq w
  | _, _ => false

end

/-- Checks on neighbours: every member is strictly above the one before it. -/
def sortedAfter {α : Type} [Ord α] (previous : Option α) (x : α) : Bool :=
  previous.all fun p => compare p x == .lt

/-- The feature loop of `validate_value`. -/
def validateFeatures (previous : Option Text) : List Text → Status
  | [] => .ok ()
  | feature :: rest => do
    require (isCanonicalToken feature) .invalidValue "feature token is not canonical"
    require (sortedAfter previous feature) .invalidValue
      "feature set must be sorted and deduplicated"
    validateFeatures (some feature) rest

/-- The architecture loop of `validate_value`. -/
def validateArchitectures (previous : Option ArchitectureId) : List ArchitectureId → Status
  | [] => .ok ()
  | architecture :: rest => do
    require architecture.valid .invalidValue "architecture set contains an invalid identity"
    require (sortedAfter previous architecture) .invalidValue
      "architecture set must be sorted and deduplicated"
    validateArchitectures (some architecture) rest

def validateVersionRangeValue (range : VersionRange) : Status := do
  require range.valid .invalidRange "version range minimum exceeds maximum"
  require (range.minimum.valid || range.maximum.valid) .invalidRange "version range has no bound"

/-- The width is the wrapped 64-bit difference, as two's complement hardware computes it. -/
def validateNumericRange (range : NumericRangeValue) : Status := do
  require (!(range.minimum > range.maximum)) .invalidRange "numeric range minimum exceeds maximum"
  require (!(range.step ≤ 0)) .invalidRange "numeric range step must be positive"
  require (!(range.maximum - range.minimum < 0)) .invalidRange "numeric range width overflows"

def validatePredicate (limits : RegistryLimits) : ConditionPtr → Status
  | .null => .error ⟨.invalidCondition, "predicate value without condition"⟩
  | .node kind key value children => validateCondition (.node kind key value children) limits

mutual

def validateValue (limits : RegistryLimits) : CapabilityValue → Status
  | .none | .boolean _ | .bytes _ | .rate _ | .bandwidth _ | .latencyClass _ => .ok ()
  | .numericRange range => validateNumericRange range
  | .count value =>
    require (value.unit.isEmpty || isCanonicalToken value.unit) .invalidValue
      "count unit is not a canonical token"
  | .enumeration value =>
    require (isCanonicalToken value.domain && isCanonicalToken value.value) .invalidValue
      "enumeration domain and value must be canonical tokens"
  | .featureSet features => do
    require (features.length ≤ limits.maxFeatureSetEntries) .limitExceeded
      "feature set exceeds entry limit"
    validateFeatures none features
  | .versionRange range => validateVersionRangeValue range
  | .architectureSet architectures => do
    require (architectures.length ≤ limits.maxArchitectureSetEntries) .limitExceeded
      "architecture set exceeds entry limit"
    validateArchitectures none architectures
  | .record fields => do
    require (1 ≤ limits.maxRecordDepth) .limitExceeded "record nesting exceeds depth limit"
    require (fields.length ≤ limits.maxRecordFields) .limitExceeded "record exceeds field limit"
    validateFields limits 1 none fields
  | .relationship value =>
    require value.target.valid .invalidValue "capability relationship target is invalid"
  | .predicate condition => validatePredicate limits condition

/-- The field loop of `validate_record` at one nesting depth. -/
def validateFields (limits : RegistryLimits) (depth : Nat) (previous : Option Text) :
    List RecordField → Status
  | [] => .ok ()
  | field :: rest => do
    require (isCanonicalToken field.name) .invalidValue "record field name is not a canonical token"
    require (sortedAfter previous field.name) .invalidValue
      "record fields must be sorted and unique"
    validateField limits depth field
    validateFields limits depth (some field.name) rest

def validateField (limits : RegistryLimits) (depth : Nat) : RecordField → Status
  | .null _ => .error ⟨.invalidValue, "record field has no value"⟩
  | .field _ value => do
    validateValue limits value
    validateNested limits depth value

/-- The second look of `validate_record` at a field's value, which carries the depth. -/
def validateNested (limits : RegistryLimits) (depth : Nat) : CapabilityValue → Status
  | .record fields => do
    require (depth + 1 ≤ limits.maxRecordDepth) .limitExceeded "record nesting exceeds depth limit"
    require (fields.length ≤ limits.maxRecordFields) .limitExceeded "record exceeds field limit"
    validateFields limits (depth + 1) none fields
  | .predicate condition => validatePredicate limits condition
  | _ => .ok ()

end

/-- `std::sort` followed by `std::unique` on totally ordered elements. -/
def sortUnique {α : Type} [Ord α] [DecidableEq α] (xs : List α) : List α :=
  (xs.mergeSort fun a b => (compare a b).isLE).destutter (· ≠ ·)

theorem mem_of_mem_sortUnique {α : Type} [Ord α] [DecidableEq α] {xs : List α} {x : α}
    (h : x ∈ sortUnique xs) : x ∈ xs :=
  (List.mergeSort_perm xs _).mem_iff.mp ((List.destutter_sublist _ _).mem h)

theorem length_sortUnique_le {α : Type} [Ord α] [DecidableEq α] (xs : List α) :
    (sortUnique xs).length ≤ xs.length := by
  calc (sortUnique xs).length ≤ (xs.mergeSort fun a b => (compare a b).isLE).length :=
        (List.destutter_sublist _ _).length_le
    _ = xs.length := List.length_mergeSort _

def hasAdjacentDuplicateNames : List RecordField → Bool
  | a :: b :: rest => a.name == b.name || hasAdjacentDuplicateNames (b :: rest)
  | _ => false

mutual

/-- The normalized value. Duplicate field names are refused once the fields are sorted, so
the order `std::sort` leaves among equal names is never seen. -/
def normalizeValue (limits : RegistryLimits) : CapabilityValue → Except Error CapabilityValue
  | .featureSet features => do
    let value := CapabilityValue.featureSet (sortUnique features)
    validateValue limits value
    pure value
  | .architectureSet architectures => do
    let value := CapabilityValue.architectureSet (sortUnique architectures)
    validateValue limits value
    pure value
  | .record fields => do
    let normalized ← normalizeFields limits fields
    let sorted := normalized.mergeSort fun a b => (compare a.name b.name).isLE
    require (!hasAdjacentDuplicateNames sorted) .invalidValue "record contains duplicate field names"
    validateValue limits (.record sorted)
    pure (.record sorted)
  | value => do
    validateValue limits value
    pure value

def normalizeFields (limits : RegistryLimits) : List RecordField → Except Error (List RecordField)
  | [] => .ok []
  | f :: fs => do
    let field ← normalizeField limits f
    let fields ← normalizeFields limits fs
    pure (field :: fields)

def normalizeField (limits : RegistryLimits) : RecordField → Except Error RecordField
  | .null name => .ok (.null name)
  | .field name value => do
    let normalized ← normalizeValue limits value
    pure (.field name normalized)

end

/-- Whatever normalization returns, validation accepts. -/
theorem validateValue_of_normalizeValue {limits : RegistryLimits} {value result : CapabilityValue}
    (h : normalizeValue limits value = .ok result) : validateValue limits result = .ok () := by
  cases value with
  | record fields =>
    simp only [normalizeValue, bind_eq_ok, require_eq_ok] at h
    obtain ⟨normalized, -, u, -, v, hv, hr⟩ := h
    cases hr
    exact hv
  | _ =>
    simp only [normalizeValue, bind_eq_ok] at h
    obtain ⟨u, hv, hr⟩ := h
    cases hr
    exact hv

end CapabilityRegistry
