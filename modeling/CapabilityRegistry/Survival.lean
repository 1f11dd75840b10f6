import CapabilityRegistry.Truncation
import CapabilityRegistry.Values

/-! What validation leaves unchecked of the values and conditions that go over the wire. -/
namespace CapabilityRegistry

/-- What is written is not clamped and is read back as the value, to the last byte. -/
structure Survives {α : Type} (write : ByteWriter) (read : ByteReader α) (value : α) : Prop where
  whole : write.truncated = false
  reads : read write.out = .ok (value, [])

theorem Survives.iff_fits {α : Type} {write : α → ByteWriter} {read : ByteReader α} {F : α → Prop}
    {value : α} (h : Wire.Round (fun v => (write v).out) read F)
    (hwhole : F value → (write value).Whole) : Survives (write value) read value ↔ F value := by
  have hback := h.comes_back_iff value []
  rw [List.append_nil] at hback
  exact ⟨fun hs => hback.mp hs.reads, fun hf => ⟨hwhole hf, hback.mpr hf⟩⟩

section Conditions
variable {limits : RegistryLimits} {condition : ConditionPtr} {levels : Nat}

namespace ConditionPtr

/-- Every length of a tree has room in the `uint32_t` in front of it. -/
inductive Small : ConditionPtr → Prop
  | null : Small .null
  | node {kind : ConditionKind} {key value : Text} {children : List ConditionPtr} :
      key.length < 2 ^ 32 → value.length < 2 ^ 32 → children.length < 2 ^ 32 →
      (∀ child ∈ children, Small child) → Small (.node kind key value children)

/-- The texts and the child lists of a tree are within their bounds. -/
inductive Bounded (limits : RegistryLimits) : ConditionPtr → Prop
  | null : Bounded limits .null
  | node {kind : ConditionKind} {key value : Text} {children : List ConditionPtr} :
      key.length ≤ limits.maxNameLength → value.length ≤ limits.maxNameLength →
      children.length ≤ limits.maxConditionChildren →
      (∀ child ∈ children, Bounded limits child) → Bounded limits (.node kind key value children)

/-- A tree of at most this many levels. -/
def Nests : Nat → ConditionPtr → Prop
  | _, .null => True
  | 0, .node .. => False
  | levels + 1, .node _ _ _ children => ∀ child ∈ children, Nests levels child

/-- What fits the wire, one concern at a time. -/
theorem fitsWire_iff : condition.FitsWire limits levels ↔
    condition.Bounded limits ∧ condition.Small ∧ condition.Nests levels := by
  induction levels generalizing condition with
  | zero =>
    cases condition with
    | null => exact iff_of_true trivial ⟨.null, .null, trivial⟩
    | node kind key value children => exact iff_of_false id fun h => h.2.2
  | succ levels ih =>
    cases condition with
    | null => exact iff_of_true trivial ⟨.null, .null, trivial⟩
    | node kind key value children =>
      constructor
      · rintro ⟨hkey, hvalue, hlength, hcount, hchildren⟩
        have hall := fun child hm => ih.mp (hchildren child hm)
        exact ⟨.node hkey.1 hvalue.1 hlength fun child hm => (hall child hm).1,
          .node hkey.2 hvalue.2 hcount fun child hm => (hall child hm).2.1,
          fun child hm => (hall child hm).2.2⟩
      · rintro ⟨hbounded, hsmall, hnests⟩
        cases hbounded with
        | node hkey hvalue hlength hbounded =>
          cases hsmall with
          | node hkey' hvalue' hcount hsmall =>
            exact ⟨⟨hkey, hkey'⟩, ⟨hvalue, hvalue'⟩, hlength, hcount, fun child hm =>
              ih.mpr ⟨hbounded child hm, hsmall child hm, hnests child hm⟩⟩

end ConditionPtr

/-- Every tree on the stack of an accepted run is within its bounds and within the levels that its
depth leaves. -/
theorem validateConditionLoop_spec {budget : Nat} {stack : List (ConditionPtr × Nat)}
    (h : validateConditionLoop limits budget stack = .ok ()) :
    ∀ entry ∈ stack, entry.1.Bounded limits ∧ entry.1.Nests (conditionLevels limits entry.2) := by
  induction budget generalizing stack with
  | zero =>
    cases stack with
    | nil => simp
    | cons entry stack => cases h
  | succ budget ih =>
    cases stack with
    | nil => simp
    | cons entry stack =>
      obtain ⟨condition, depth⟩ := entry
      simp only [validateConditionLoop, status_bind_eq_ok, require_eq_ok, decide_eq_true_eq] at h
      obtain ⟨hdepth, h⟩ := h
      cases condition with
      | null => cases h
      | node kind key value children =>
        simp only [status_bind_eq_ok, require_eq_ok, decide_eq_true_eq, Bool.and_eq_true] at h
        obtain ⟨hlength, ⟨hkey, hvalue⟩, -, hrest⟩ := h
        have hall := ih hrest
        have hchild : ∀ child ∈ children, child.Bounded limits ∧
            child.Nests (conditionLevels limits (depth + 1)) := fun child hm =>
          hall (child, depth + 1) (by simp [hm])
        have hlevels : conditionLevels limits depth = conditionLevels limits (depth + 1) + 1 := by
          unfold conditionLevels
          omega
        refine List.forall_mem_cons.mpr ⟨⟨?_, ?_⟩, fun entry hm => hall entry (by simp [hm])⟩
        · exact .node hkey hvalue hlength fun child hm => (hchild child hm).1
        · rw [hlevels]
          exact fun child hm => (hchild child hm).2

theorem spec_of_validateCondition (h : validateCondition condition limits = .ok ()) :
    condition.Bounded limits ∧ condition.Nests (conditionLevels limits 1) :=
  validateConditionLoop_spec h _ (List.mem_singleton_self _)

end Conditions

section Values
variable {limits : RegistryLimits} {levels : Nat} {value : CapabilityValue}

/-- What validation leaves unchecked of a value that has this many levels left: how deep it goes,
how long its tokens and versions are, and whether its lengths have room in front of it. -/
def CapabilityValue.Travels (limits : RegistryLimits) : Nat → CapabilityValue → Prop
  | 0, _ => False
  | _ + 1, .count value => value.unit.length ≤ limits.maxNameLength
  | _ + 1, .enumeration value =>
    value.domain.length ≤ limits.maxNameLength ∧ value.value.length ≤ limits.maxNameLength
  | _ + 1, .featureSet features =>
    features.length < 2 ^ 32 ∧ ∀ feature ∈ features, feature.length ≤ limits.maxMetadataBytes
  | _ + 1, .versionRange range =>
    range.minimum.raw.length ≤ limits.maxNameLength ∧
      range.maximum.raw.length ≤ limits.maxNameLength
  | _ + 1, .architectureSet architectures => architectures.length < 2 ^ 32
  | levels + 1, .record fields =>
    fields.length < 2 ^ 32 ∧ ∀ name value, .field name value ∈ fields →
      name.length ≤ limits.maxNameLength ∧ Travels limits levels value
  | levels + 1, .predicate condition =>
    condition.Small ∧
      condition.Nests (conditionLevels limits (limits.maxRecordDepth - levels + 1))
  | _ + 1, _ => True

theorem length_lt_of_isCanonicalToken {text : Text} (h : isCanonicalToken text = true) :
    text.length < 2 ^ 32 := by
  cases text with
  | nil => decide
  | cons first rest =>
    simp only [isCanonicalToken, Bool.and_eq_true, decide_eq_true_eq] at h
    exact h.1.1.trans_lt (by decide)

/-- Of a canonical token only the bound of its field can be exceeded. -/
theorem fitsText_iff {text : Text} {bound : Nat} (h : isCanonicalToken text = true) :
    FitsText bound text ↔ text.length ≤ bound :=
  and_iff_left (length_lt_of_isCanonicalToken h)

/-- The two agree on validated values. -/
theorem travels_iff_fitsWire (hv : validateValue limits value = .ok ()) :
    value.Travels limits levels ↔ value.FitsWire limits levels := by
  induction levels generalizing value with
  | zero => exact Iff.rfl
  | succ levels ih =>
    cases value with
    | count value =>
      simp only [validateValue, require_eq_ok, Bool.or_eq_true, List.isEmpty_iff] at hv
      rcases hv with hv | hv
      · simp [CapabilityValue.Travels, CapabilityValue.FitsWire, CapabilityValue.FitsKind,
          FitsText, hv]
      · exact (fitsText_iff hv).symm
    | enumeration value =>
      simp only [validateValue, require_eq_ok, Bool.and_eq_true] at hv
      exact (and_congr (fitsText_iff hv.1) (fitsText_iff hv.2)).symm
    | featureSet features =>
      simp only [validateValue, status_bind_eq_ok, require_eq_ok, decide_eq_true_eq] at hv
      have hcanonical := canonical_of_validateFeatures hv.2
      exact ⟨fun h => ⟨hv.1, h.1, fun feature hm =>
          (fitsText_iff (hcanonical feature hm)).mpr (h.2 feature hm)⟩,
        fun h => ⟨h.2.1, fun feature hm => (h.2.2 feature hm).1⟩⟩
    | versionRange range => exact Iff.rfl
    | architectureSet architectures =>
      simp only [validateValue, status_bind_eq_ok, require_eq_ok, decide_eq_true_eq] at hv
      exact ⟨fun h => ⟨hv.1, h, fun _ _ => trivial⟩, fun h => h.2.1⟩
    | record fields =>
      simp only [validateValue, status_bind_eq_ok, require_eq_ok, decide_eq_true_eq] at hv
      obtain ⟨-, hlength, hfields⟩ := hv
      have hspec := spec_of_validateFields hfields
      constructor
      · rintro ⟨hcount, htravel⟩
        refine ⟨hlength, hcount, fun field hm => ?_⟩
        obtain ⟨name, value, rfl, hname, hvalue⟩ := hspec field hm
        obtain ⟨hn, ht⟩ := htravel name value hm
        exact ⟨(fitsText_iff hname).mpr hn, (ih hvalue).mp ht⟩
      · rintro ⟨-, hcount, hfit⟩
        refine ⟨hcount, fun name value hm => ?_⟩
        obtain ⟨_, _, heq, -, hvalue⟩ := hspec _ hm
        obtain ⟨rfl, rfl⟩ := RecordField.field.inj heq
        obtain ⟨hn, hf⟩ := hfit _ hm
        exact ⟨hn.1, (ih hvalue).mpr hf⟩
    | predicate condition =>
      cases condition with
      | null => cases hv
      | node kind key value children =>
        have hbounded := (spec_of_validateCondition hv).1
        exact ⟨fun h => ConditionPtr.fitsWire_iff.mpr ⟨hbounded, h.1, h.2⟩,
          fun h => (ConditionPtr.fitsWire_iff.mp h).2⟩
    | _ => exact Iff.rfl

/-- A validated value survives the codec exactly if it travels; a validated condition always does,
unless one of its lengths has no room. -/
theorem validated_survives_iff (limits : RegistryLimits) :
    (∀ value, validateValue limits value = .ok () →
      (Survives (writeValue limits value) (readValue limits (valueLevels limits 1)) value ↔
        value.Travels limits (valueLevels limits 1))) ∧
    ∀ condition, validateCondition condition limits = .ok () →
      (Survives (writeCondition limits condition)
        (readCondition limits (conditionLevels limits 1)) condition ↔ condition.Small) := by
  refine ⟨fun value hv => ?_, fun condition hv => ?_⟩
  · rw [Survives.iff_fits (round_value limits _) CapabilityValue.FitsWire.whole,
      travels_iff_fitsWire hv]
  · rw [Survives.iff_fits (round_condition limits _) ConditionPtr.FitsWire.whole,
      ConditionPtr.fitsWire_iff]
    obtain ⟨hbounded, hnests⟩ := spec_of_validateCondition hv
    exact ⟨fun h => h.2.1, fun h => ⟨hbounded, h, hnests⟩⟩

theorem validated_survives_boolean :
    Survives (writeValue {} (.boolean true)) (readValue {} (valueLevels {} 1)) (.boolean true) ∧
      (Survives (writeCondition {} (.node .always [] [] []))
        (readCondition {} (conditionLevels {} 1)) (.node .always [] [] [])) :=
  ⟨((validated_survives_iff {}).1 _ rfl).mpr trivial,
    ((validated_survives_iff {}).2 _ (by decide)).mpr
      (.node (by decide) (by decide) (by decide) (by simp))⟩

end Values

namespace Sample

/-- A value under this many records. -/
def nested : Nat → CapabilityValue
  | 0 => .boolean true
  | n + 1 => .record [.field "a" (nested n)]

/-- Validation allows four records inside each other. -/
example : (validateValue {} (nested 5)).isOk = false := by decide +kernel

end Sample

/-- Records nested as deep as validation allows, with a value in the last one. -/
theorem deepest_record_is_lost :
    ¬ ∀ limits,
      (∀ value, validateValue limits value = .ok () →
        Survives (writeValue limits value) (readValue limits (valueLevels limits 1)) value) ∧
      ∀ condition, validateCondition condition limits = .ok () →
        Survives (writeCondition limits condition)
          (readCondition limits (conditionLevels limits 1)) condition := by
  intro h
  have hs := ((h {}).1 (Sample.nested 4) (by decide)).reads
  have hrefused : (readValue {} (valueLevels {} 1) (writeValue {} (Sample.nested 4)).out).toBool =
      false := by decide +kernel
  rw [hs] at hrefused
  cases hrefused

end CapabilityRegistry
