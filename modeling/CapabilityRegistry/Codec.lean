import CapabilityRegistry.Binary
import CapabilityRegistry.Publication

/-! The canonical codecs of identities, evidence and publications, as messages and images share
them. -/
namespace CapabilityRegistry
open ByteReader (round_u8 round_u16 round_u32 round_u64 round_i64 round_boolean round_str round_list
  round_optional round_enum)

section Scalars
variable {Tag : Type}

def writeId (id : Id Tag) : ByteWriter := .str id.str kMaxTokenLength
def readId : ByteReader (Id Tag) := Id.parse <$> ByteReader.str kMaxTokenLength

def writeGen (value : Gen Tag) : ByteWriter := .u64 value.value
def readGen : ByteReader (Gen Tag) := Gen.mk <$> ByteReader.u64

def writeVersion (limits : RegistryLimits) (version : SoftwareVersion) : ByteWriter :=
  .str version.raw limits.maxNameLength

def readVersion (limits : RegistryLimits) : ByteReader SoftwareVersion :=
  SoftwareVersion.parse <$> ByteReader.str limits.maxNameLength

def writeVersionRange (limits : RegistryLimits) (range : VersionRange) : ByteWriter :=
  writeVersion limits range.minimum ++ writeVersion limits range.maximum ++
    .boolean range.includeMaximum

def readVersionRange (limits : RegistryLimits) : ByteReader VersionRange := do
  let minimum ← readVersion limits
  let maximum ← readVersion limits
  let includeMaximum ← ByteReader.boolean
  pure { minimum, maximum, includeMaximum }

def SoftwareVersion.FitsWire (limits : RegistryLimits) (version : SoftwareVersion) : Prop :=
  version.raw.length ≤ limits.maxNameLength

def VersionRange.FitsWire (limits : RegistryLimits) (range : VersionRange) : Prop :=
  range.minimum.FitsWire limits ∧ range.maximum.FitsWire limits

theorem round_id : Wire.Round (fun id : Id Tag => (writeId id).out) readId fun _ => True :=
  (round_str _).through (fun id _ => Id.parse_str id)
    (fun id _ => ⟨id.length_str_le, id.length_str_le.trans_lt (by decide)⟩) fun _ _ => trivial

theorem round_gen : Wire.Round (fun g : Gen Tag => (writeGen g).out) readGen fun _ => True :=
  round_u64.through (fun _ _ => rfl) (fun _ _ => trivial) fun _ _ => trivial

theorem length_parse_le (text : Text) : (SoftwareVersion.parse text).raw.length ≤ text.length := by
  unfold SoftwareVersion.parse
  split
  · exact Nat.le_refl _
  · exact Nat.zero_le _

theorem round_version (limits : RegistryLimits) :
    Wire.Round (fun v => (writeVersion limits v).out) (readVersion limits)
      (SoftwareVersion.FitsWire limits) :=
  (round_str _).through (fun v _ => SoftwareVersion.parse_raw v)
    (fun v hv => ⟨hv, v.length_raw_le.trans_lt (by decide)⟩)
    fun text ht => (length_parse_le text).trans ht.1

theorem round_versionRange (limits : RegistryLimits) :
    Wire.Round (fun range => (writeVersionRange limits range).out) (readVersionRange limits)
      (VersionRange.FitsWire limits) :=
  (((round_version limits).both ((round_version limits).both round_boolean)).record
    (fun range => (range.minimum, range.maximum, range.includeMaximum))
    (fun (minimum, maximum, includeMaximum) => { minimum, maximum, includeMaximum })
    (by simp [readVersionRange, Wire.both]) (fun _ => by simp [writeVersionRange]) (fun _ => rfl)
    fun _ => rfl).congr fun _ => by simp [VersionRange.FitsWire]

end Scalars

section Conditions

def writePublisherIdentity (identity : PublisherIdentity) : ByteWriter :=
  writeId identity.id ++ writeGen identity.boot ++ writeGen identity.epoch

def readPublisherIdentity : ByteReader PublisherIdentity := do
  let id ← readId
  let boot ← readGen
  let epoch ← readGen
  pure { id, boot, epoch }

theorem round_publisherIdentity :
    Wire.Round (fun identity => (writePublisherIdentity identity).out) readPublisherIdentity
      fun _ => True :=
  ((round_id.both (round_gen.both round_gen)).record
    (fun identity => (identity.id, identity.boot, identity.epoch))
    (fun (id, boot, epoch) => { id, boot, epoch })
    (by simp [readPublisherIdentity, Wire.both]) (fun _ => by simp [writePublisherIdentity])
    (fun _ => rfl) fun _ => rfl).congr fun _ => by simp

/-- The marker in front of a condition: a null pointer or a node. -/
def conditionMarker (condition : ConditionPtr) : UInt8 := if condition.isNull then 0 else 1

mutual

/-- What is appended behind the marker. -/
def writeConditionNode (limits : RegistryLimits) : ConditionPtr → ByteWriter
  | .null => {}
  | .node kind key value children =>
    .enum kind ++ .str key limits.maxNameLength ++ .str value limits.maxNameLength ++
      (.u32 (UInt32.ofNat (min children.length limits.maxConditionChildren)) ++
        writeChildren limits limits.maxConditionChildren children)

/-- The loop over the first children. -/
def writeChildren (limits : RegistryLimits) : Nat → List ConditionPtr → ByteWriter
  | 0, _ => {}
  | _, [] => {}
  | n + 1, child :: children =>
    .u8 (conditionMarker child) ++ writeConditionNode limits child ++
      writeChildren limits n children

end

def writeCondition (limits : RegistryLimits) (condition : ConditionPtr) : ByteWriter :=
  .u8 (conditionMarker condition) ++ writeConditionNode limits condition

/-- How many more levels the check `depth > limits.max_record_depth + 2u` leaves a condition that
stands at this depth. -/
def conditionLevels (limits : RegistryLimits) (depth : Nat) : Nat :=
  sizeAdd limits.maxRecordDepth 2 + 1 - depth

/-- What follows a marker. -/
def readMarked (node : ByteReader ConditionPtr) (marker : UInt8) : ByteReader ConditionPtr :=
  if marker == 0 then pure .null
  else if marker != 1 then Wire.fail ⟨.corruptData, "invalid condition presence marker"⟩
  else node

def readConditionNode (limits : RegistryLimits) (child : ByteReader ConditionPtr) :
    ByteReader ConditionPtr := do
  let kind ← ByteReader.enum ⟨.invalidCondition, "unknown condition kind on the wire"⟩
  let key ← ByteReader.str limits.maxNameLength
  let value ← ByteReader.str limits.maxNameLength
  let children ← ByteReader.list limits.maxConditionChildren
    ⟨.limitExceeded, "condition child count exceeds the bound"⟩ child
  pure (.node kind key value children)

/-- The recursion is on the levels that the depth check leaves. -/
def readCondition (limits : RegistryLimits) : Nat → ByteReader ConditionPtr
  | 0 => do
    let marker ← ByteReader.u8
    readMarked (Wire.fail ⟨.limitExceeded, "condition nesting exceeds the bound"⟩) marker
  | levels + 1 => do
    let marker ← ByteReader.u8
    readMarked (readConditionNode limits (readCondition limits levels)) marker

def ConditionPtr.FitsWire (limits : RegistryLimits) : Nat → ConditionPtr → Prop
  | _, .null => True
  | 0, .node .. => False
  | levels + 1, .node _ key value children =>
    FitsText limits.maxNameLength key ∧ FitsText limits.maxNameLength value ∧
      FitsList limits.maxConditionChildren (FitsWire limits levels) children

theorem writeChildren_eq (limits : RegistryLimits) (n : Nat) (children : List ConditionPtr) :
    writeChildren limits n children = .all ((children.take n).map (writeCondition limits)) := by
  induction children generalizing n with
  | nil => cases n <;> rfl
  | cons child children ih =>
    cases n with
    | zero => rfl
    | succ n => simp [writeChildren, ih, ByteWriter.all, writeCondition]

theorem writeConditionNode_node (limits : RegistryLimits) (kind : ConditionKind) (key value : Text)
    (children : List ConditionPtr) :
    writeConditionNode limits (.node kind key value children) =
      .enum kind ++ .str key limits.maxNameLength ++ .str value limits.maxNameLength ++
        .list limits.maxConditionChildren (writeCondition limits) children := by
  rw [writeConditionNode, writeChildren_eq]
  rfl

theorem writeCondition_out (limits : RegistryLimits) :
    (fun c => (writeCondition limits c).out) = fun c =>
      (ByteWriter.u8 (conditionMarker c)).out ++ (writeConditionNode limits c).out :=
  funext fun _ => ByteWriter.append_out

theorem writeCondition_ne_nil (limits : RegistryLimits) (condition : ConditionPtr) :
    (writeCondition limits condition).out ≠ [] := by
  simp [writeCondition, ByteWriter.u8, Wire.word]

theorem shape_marked {limits : RegistryLimits} {G : ConditionPtr → Prop}
    {node : ByteReader ConditionPtr} (hnull : G .null)
    (hnode : Wire.Shape conditionMarker (fun c => (writeConditionNode limits c).out) G 1 node)
    (marker : UInt8) :
    Wire.Shape conditionMarker (fun c => (writeConditionNode limits c).out) G marker
      (readMarked node marker) := by
  unfold readMarked
  by_cases h0 : marker = 0
  · subst h0
    refine ⟨fun c hc _ => ?_, Wire.yields_pure hnull⟩
    cases c with
    | null => exact Wire.reads_pure
    | node kind key value children => simp [conditionMarker, ConditionPtr.isNull] at hc
  · by_cases h1 : marker = 1
    · subst h1
      exact hnode
    · simp only [beq_iff_eq, h0, if_false, bne_iff_ne, ne_eq, h1, not_false_iff, if_true]
      refine ⟨fun c hc _ => ?_, Wire.yields_fail⟩
      cases c <;> simp [conditionMarker, ConditionPtr.isNull] at hc <;> simp_all

theorem round_condition (limits : RegistryLimits) (levels : Nat) :
    Wire.Round (fun c => (writeCondition limits c).out) (readCondition limits levels)
      (ConditionPtr.FitsWire limits levels) := by
  induction levels with
  | zero =>
    rw [writeCondition_out]
    refine round_u8.switch (fun _ _ => trivial) fun marker _ => shape_marked trivial ?_ marker
    refine ⟨fun c hc hfits => ?_, Wire.yields_fail⟩
    cases c with
    | null => simp [conditionMarker, ConditionPtr.isNull] at hc
    | node kind key value children => cases hfits
  | succ levels ih =>
    rw [writeCondition_out]
    refine round_u8.switch (fun _ _ => trivial) fun marker _ => shape_marked trivial ?_ marker
    refine ((round_enum ConditionKind
          ⟨.invalidCondition, "unknown condition kind on the wire"⟩).both <|
        (round_str limits.maxNameLength).both <| (round_str limits.maxNameLength).both <|
        round_list limits.maxConditionChildren
          ⟨.limitExceeded, "condition child count exceeds the bound"⟩ ih
          (writeCondition_ne_nil limits)).shape
      (fun (kind, key, value, children) => ConditionPtr.node kind key value children)
      (by simp [readConditionNode, Wire.both]) (fun c hc _ => ?_)
      (fun _ => by simp [writeConditionNode_node]) fun _ => by simp [ConditionPtr.FitsWire]
    cases c with
    | null => simp [conditionMarker, ConditionPtr.isNull] at hc
    | node kind key value children => exact ⟨(kind, key, value, children), rfl⟩

end Conditions

section Values

mutual

/-- The switch over the kind of a value, what it appends behind the kind. -/
def writePayload (limits : RegistryLimits) : CapabilityValue → ByteWriter
  | .none => {}
  | .boolean value => .boolean value
  | .count value => .u64 value.count ++ .str value.unit limits.maxNameLength
  | .bytes bytes => .u64 bytes
  | .rate value => .u64 value.magnitude ++ .enum value.unit
  | .bandwidth value => .u64 value.magnitude ++ .enum value.unit
  | .latencyClass value => .enum value
  | .enumeration value =>
    .str value.domain limits.maxNameLength ++ .str value.value limits.maxNameLength
  | .featureSet features =>
    .list limits.maxFeatureSetEntries (fun feature => .str feature limits.maxMetadataBytes) features
  | .versionRange range => writeVersionRange limits range
  | .architectureSet architectures =>
    .list limits.maxArchitectureSetEntries writeId architectures
  | .numericRange range => .i64 range.minimum ++ .i64 range.maximum ++ .i64 range.step
  | .record fields =>
    .u32 (UInt32.ofNat (min fields.length limits.maxRecordFields)) ++
      writeFields limits limits.maxRecordFields fields
  | .relationship value => .enum value.relation ++ writeId value.target
  | .predicate condition => writeCondition limits condition

/-- The loop over the first fields of a record. -/
def writeFields (limits : RegistryLimits) : Nat → List RecordField → ByteWriter
  | 0, _ => {}
  | _, [] => {}
  | n + 1, field :: fields => writeField limits field ++ writeFields limits n fields

def writeField (limits : RegistryLimits) : RecordField → ByteWriter
  | .null name => .str name limits.maxNameLength ++ .u8 0
  | .field name value =>
    .str name limits.maxNameLength ++ .u8 1 ++ (.enum value.kind ++ writePayload limits value)

end

def writeValue (limits : RegistryLimits) (value : CapabilityValue) : ByteWriter :=
  .enum value.kind ++ writePayload limits value

def readFieldValue (nested : ByteReader CapabilityValue) (name : Text) (present : UInt8) :
    ByteReader RecordField :=
  if present == 1 then do
    let value ← nested
    pure (.field name value)
  else if present != 0 then Wire.fail ⟨.corruptData, "invalid record field presence marker"⟩
  else pure (.null name)

def readField (limits : RegistryLimits) (nested : ByteReader CapabilityValue) :
    ByteReader RecordField := do
  let name ← ByteReader.str limits.maxNameLength
  let present ← ByteReader.u8
  readFieldValue nested name present

/-- The switch over the kind of a value at this depth. -/
def readValueOfKind (limits : RegistryLimits) (depth : Nat) (nested : ByteReader CapabilityValue) :
    ValueKind → ByteReader CapabilityValue
  | .none => pure .none
  | .boolean => do return .boolean (← ByteReader.boolean)
  | .count => do
    let count ← ByteReader.u64
    let unit ← ByteReader.str limits.maxNameLength
    pure (.count { count, unit })
  | .bytes => do return .bytes (← ByteReader.u64)
  | .rate => do
    let magnitude ← ByteReader.u64
    let unit ← ByteReader.enum ⟨.invalidValue, "unknown rate unit on the wire"⟩
    pure (.rate { magnitude, unit })
  | .bandwidth => do
    let magnitude ← ByteReader.u64
    let unit ← ByteReader.enum ⟨.invalidValue, "unknown bandwidth unit on the wire"⟩
    pure (.bandwidth { magnitude, unit })
  | .latencyClass => do
    return .latencyClass
      (← ByteReader.enum ⟨.invalidValue, "unknown latency class on the wire"⟩)
  | .enumeration => do
    let domain ← ByteReader.str limits.maxNameLength
    let value ← ByteReader.str limits.maxNameLength
    pure (.enumeration { domain, value })
  | .featureSet => do
    return .featureSet (← ByteReader.list limits.maxFeatureSetEntries
      ⟨.corruptData, "string list count exceeds the bound"⟩
      (ByteReader.str limits.maxMetadataBytes))
  | .versionRange => do return .versionRange (← readVersionRange limits)
  | .architectureSet => do
    return .architectureSet (← ByteReader.list limits.maxArchitectureSetEntries
      ⟨.limitExceeded, "architecture set count exceeds the bound"⟩ readId)
  | .numericRange => do
    let minimum ← ByteReader.i64
    let maximum ← ByteReader.i64
    let step ← ByteReader.i64
    pure (.numericRange { minimum, maximum, step })
  | .record => do
    return .record (← ByteReader.list limits.maxRecordFields
      ⟨.limitExceeded, "record field count exceeds the bound"⟩ (readField limits nested))
  | .relationship => do
    let relation ← ByteReader.enum ⟨.invalidValue, "unknown capability relation on the wire"⟩
    let target ← readId
    pure (.relationship { relation, target })
  | .predicate => do return .predicate (← readCondition limits (conditionLevels limits (depth + 1)))

/-- How many more levels the check `depth > limits.max_record_depth` leaves a value that stands at
this depth. -/
def valueLevels (limits : RegistryLimits) (depth : Nat) : Nat := limits.maxRecordDepth + 1 - depth

/-- The recursion is on the levels that the depth check leaves; `limits.maxRecordDepth - levels`
is the depth of a value that has one level more. -/
def readValue (limits : RegistryLimits) : Nat → ByteReader CapabilityValue
  | 0 => do
    let _ : ValueKind ← ByteReader.enum ⟨.invalidValue, "unknown value kind on the wire"⟩
    Wire.fail ⟨.limitExceeded, "value nesting exceeds the bound"⟩
  | levels + 1 => do
    let kind ← ByteReader.enum ⟨.invalidValue, "unknown value kind on the wire"⟩
    readValueOfKind limits (limits.maxRecordDepth - levels) (readValue limits levels) kind

def RecordField.FitsWire (limits : RegistryLimits) (nested : CapabilityValue → Prop) :
    RecordField → Prop
  | .null name => FitsText limits.maxNameLength name
  | .field name value => FitsText limits.maxNameLength name ∧ nested value

/-- What fits behind the kind of a value at this depth. -/
def CapabilityValue.FitsKind (limits : RegistryLimits) (depth : Nat)
    (nested : CapabilityValue → Prop) : CapabilityValue → Prop
  | .count value => FitsText limits.maxNameLength value.unit
  | .enumeration value =>
    FitsText limits.maxNameLength value.domain ∧ FitsText limits.maxNameLength value.value
  | .featureSet features =>
    FitsList limits.maxFeatureSetEntries (FitsText limits.maxMetadataBytes) features
  | .versionRange range => range.FitsWire limits
  | .architectureSet architectures =>
    FitsList limits.maxArchitectureSetEntries (fun _ => True) architectures
  | .record fields => FitsList limits.maxRecordFields (RecordField.FitsWire limits nested) fields
  | .predicate condition => condition.FitsWire limits (conditionLevels limits (depth + 1))
  | _ => True

def CapabilityValue.FitsWire (limits : RegistryLimits) : Nat → CapabilityValue → Prop
  | 0, _ => False
  | levels + 1, value =>
    value.FitsKind limits (limits.maxRecordDepth - levels) (FitsWire limits levels)

theorem writeFields_eq (limits : RegistryLimits) (n : Nat) (fields : List RecordField) :
    writeFields limits n fields = .all ((fields.take n).map (writeField limits)) := by
  induction fields generalizing n with
  | nil => cases n <;> rfl
  | cons field fields ih =>
    cases n with
    | zero => rfl
    | succ n => simp [writeFields, ih, ByteWriter.all]

theorem writePayload_record (limits : RegistryLimits) (fields : List RecordField) :
    writePayload limits (.record fields) =
      .list limits.maxRecordFields (writeField limits) fields := by
  rw [writePayload, writeFields_eq]
  rfl

theorem writeValue_out (limits : RegistryLimits) :
    (fun v => (writeValue limits v).out) = fun v =>
      (ByteWriter.enum v.kind).out ++ (writePayload limits v).out :=
  funext fun _ => ByteWriter.append_out

theorem writeField_ne_nil (limits : RegistryLimits) (field : RecordField) :
    (writeField limits field).out ≠ [] := by
  cases field <;> simp [writeField, ByteWriter.str, ByteWriter.u32, Wire.word]

theorem str_ne_nil (text : Text) (maxLength : Nat) : (ByteWriter.str text maxLength).out ≠ [] := by
  simp [ByteWriter.str, ByteWriter.u32, Wire.word]

theorem writeId_ne_nil {Tag : Type} (id : Id Tag) : (writeId id).out ≠ [] := str_ne_nil _ _

theorem round_field {limits : RegistryLimits} {nested : ByteReader CapabilityValue}
    {G : CapabilityValue → Prop} (h : Wire.Round (fun v => (writeValue limits v).out) nested G) :
    Wire.Round (fun field => (writeField limits field).out) (readField limits nested)
      (RecordField.FitsWire limits G) where
  reads field hfits := by
    cases field with
    | null name =>
      have hread : Wire.Reads (readField limits nested) _ (.null name) :=
        ((round_str limits.maxNameLength).reads name hfits).bind <|
          (round_u8.reads 0 trivial).bind Wire.reads_pure
      simpa [writeField] using hread
    | field name value =>
      have hvalue : Wire.Reads (readFieldValue nested name 1) ((writeValue limits value).out ++ [])
          (.field name value) := (h.reads value hfits.2).bind Wire.reads_pure
      have hread : Wire.Reads (readField limits nested) _ _ :=
        ((round_str limits.maxNameLength).reads name hfits.1).bind <|
          (round_u8.reads 1 trivial).bind hvalue
      simpa [writeField, writeValue] using hread
  yields := (round_str limits.maxNameLength).yields.bind fun name hname =>
    round_u8.yields.bind fun present _ => by
      unfold readFieldValue
      split
      · exact h.yields.bind fun value hvalue => Wire.yields_pure ⟨hname, hvalue⟩
      · split
        · exact Wire.yields_fail
        · exact Wire.yields_pure hname

/-- A value of one kind, read argument by argument. -/
theorem shape_value {limits : RegistryLimits} {depth : Nat} {nested : ByteReader CapabilityValue}
    {G : CapabilityValue → Prop} (h : Wire.Round (fun v => (writeValue limits v).out) nested G)
    (kind : ValueKind) :
    Wire.Shape CapabilityValue.kind (fun v => (writePayload limits v).out)
      (CapabilityValue.FitsKind limits depth G) kind
      (readValueOfKind limits depth nested kind) := by
  have hname := round_str limits.maxNameLength
  cases kind with
  | none =>
    refine ⟨fun v hv _ => ?_, Wire.yields_pure trivial⟩
    cases v <;> first | exact Wire.reads_pure | cases hv
  | boolean =>
    refine round_boolean.shape .boolean (by simp [readValueOfKind]) (fun v hv _ => ?_)
      (fun _ => rfl) fun _ => Iff.rfl
    cases v <;> first | exact ⟨_, rfl⟩ | cases hv
  | count =>
    refine (round_u64.both hname).shape (fun p => .count { count := p.1, unit := p.2 })
      (by simp [readValueOfKind, Wire.both]) (fun v hv _ => ?_) (fun _ => by simp [writePayload])
      fun _ => by simp [CapabilityValue.FitsKind]
    cases v <;> first | exact ⟨(_, _), rfl⟩ | cases hv
  | bytes =>
    refine round_u64.shape .bytes (by simp [readValueOfKind]) (fun v hv _ => ?_)
      (fun _ => rfl) fun _ => Iff.rfl
    cases v <;> first | exact ⟨_, rfl⟩ | cases hv
  | rate =>
    refine (round_u64.both (round_enum RateUnit ⟨.invalidValue, "unknown rate unit on the wire"⟩)).shape
      (fun p => .rate { magnitude := p.1, unit := p.2 })
      (by simp [readValueOfKind, Wire.both]) (fun v hv _ => ?_) (fun _ => by simp [writePayload])
      fun _ => by simp [CapabilityValue.FitsKind]
    cases v <;> first | exact ⟨(_, _), rfl⟩ | cases hv
  | bandwidth =>
    refine (round_u64.both
        (round_enum BandwidthUnit ⟨.invalidValue, "unknown bandwidth unit on the wire"⟩)).shape
      (fun p => .bandwidth { magnitude := p.1, unit := p.2 })
      (by simp [readValueOfKind, Wire.both]) (fun v hv _ => ?_) (fun _ => by simp [writePayload])
      fun _ => by simp [CapabilityValue.FitsKind]
    cases v <;> first | exact ⟨(_, _), rfl⟩ | cases hv
  | latencyClass =>
    refine (round_enum LatencyClass ⟨.invalidValue, "unknown latency class on the wire"⟩).shape
      .latencyClass (by simp [readValueOfKind]) (fun v hv _ => ?_) (fun _ => rfl) fun _ => Iff.rfl
    cases v <;> first | exact ⟨_, rfl⟩ | cases hv
  | enumeration =>
    refine (hname.both hname).shape (fun p => .enumeration { domain := p.1, value := p.2 })
      (by simp [readValueOfKind, Wire.both]) (fun v hv _ => ?_) (fun _ => by simp [writePayload])
      fun _ => by simp [CapabilityValue.FitsKind]
    cases v <;> first | exact ⟨(_, _), rfl⟩ | cases hv
  | featureSet =>
    refine (round_list limits.maxFeatureSetEntries
        ⟨.corruptData, "string list count exceeds the bound"⟩
        (round_str limits.maxMetadataBytes) fun _ => str_ne_nil _ _).shape .featureSet
      (by simp [readValueOfKind]) (fun v hv _ => ?_) (fun _ => rfl) fun _ => Iff.rfl
    cases v <;> first | exact ⟨_, rfl⟩ | cases hv
  | versionRange =>
    refine (round_versionRange limits).shape .versionRange (by simp [readValueOfKind])
      (fun v hv _ => ?_) (fun _ => rfl) fun _ => Iff.rfl
    cases v <;> first | exact ⟨_, rfl⟩ | cases hv
  | architectureSet =>
    refine (round_list limits.maxArchitectureSetEntries
        ⟨.limitExceeded, "architecture set count exceeds the bound"⟩ round_id
        writeId_ne_nil).shape .architectureSet
      (by simp [readValueOfKind]) (fun v hv _ => ?_) (fun _ => rfl) fun _ => Iff.rfl
    cases v <;> first | exact ⟨_, rfl⟩ | cases hv
  | numericRange =>
    refine (round_i64.both (round_i64.both round_i64)).shape
      (fun p => .numericRange { minimum := p.1, maximum := p.2.1, step := p.2.2 })
      (by simp [readValueOfKind, Wire.both]) (fun v hv _ => ?_) (fun _ => by simp [writePayload])
      fun _ => by simp [CapabilityValue.FitsKind]
    cases v <;> first | exact ⟨(_, _, _), rfl⟩ | cases hv
  | record =>
    refine (round_list limits.maxRecordFields
        ⟨.limitExceeded, "record field count exceeds the bound"⟩ (round_field h)
        (writeField_ne_nil limits)).shape .record (by simp [readValueOfKind])
      (fun v hv _ => ?_) (fun _ => by rw [writePayload_record]) fun _ => Iff.rfl
    cases v <;> first | exact ⟨_, rfl⟩ | cases hv
  | relationship =>
    refine ((round_enum CapabilityRelation
        ⟨.invalidValue, "unknown capability relation on the wire"⟩).both round_id).shape
      (fun p => .relationship { relation := p.1, target := p.2 })
      (by simp [readValueOfKind, Wire.both]) (fun v hv _ => ?_) (fun _ => by simp [writePayload])
      fun _ => by simp [CapabilityValue.FitsKind]
    cases v <;> first | exact ⟨(_, _), rfl⟩ | cases hv
  | predicate =>
    refine (round_condition limits (conditionLevels limits (depth + 1))).shape .predicate
      (by simp [readValueOfKind]) (fun v hv _ => ?_) (fun _ => by rw [writePayload])
      fun _ => Iff.rfl
    cases v <;> first | exact ⟨_, rfl⟩ | cases hv

theorem round_value (limits : RegistryLimits) (levels : Nat) :
    Wire.Round (fun v => (writeValue limits v).out) (readValue limits levels)
      (CapabilityValue.FitsWire limits levels) := by
  have hkind := round_enum ValueKind ⟨.invalidValue, "unknown value kind on the wire"⟩
  induction levels with
  | zero => exact ⟨fun _ h => h.elim, hkind.yields.bind fun _ _ => Wire.yields_fail⟩
  | succ levels ih =>
    rw [writeValue_out]
    exact hkind.switch (fun _ _ => trivial) fun kind _ => shape_value ih kind

end Values

end CapabilityRegistry
