import CapabilityRegistry.Trees
import CapabilityRegistry.Value
import CapabilityRegistry.Versions

/-! Equality of capability values and what validation ensures of their parts. -/
namespace CapabilityRegistry

theorem versionRangeEq_self (range : VersionRange) : versionRangeEq range range = true := by
  simp [versionRangeEq, SoftwareVersion.compare_self]

theorem versionRangeEq_comm (a b : VersionRange) : versionRangeEq a b = versionRangeEq b a := by
  rw [Bool.eq_iff_iff]
  simp only [versionRangeEq, Bool.and_eq_true, beq_iff_eq,
    SoftwareVersion.compare_eq_zero_comm a.minimum, SoftwareVersion.compare_eq_zero_comm a.maximum,
    eq_comm (a := a.includeMaximum)]

section Validation
variable {limits : RegistryLimits}

theorem canonical_of_validateFeatures {previous : Option Text} {features : List Text}
    (h : validateFeatures previous features = .ok ()) :
    ∀ feature ∈ features, isCanonicalToken feature = true := by
  induction features generalizing previous with
  | nil => simp
  | cons feature rest ih =>
    simp only [validateFeatures, status_bind_eq_ok, require_eq_ok] at h
    exact List.forall_mem_cons.mpr ⟨h.1, ih h.2.2⟩

/-- An accepted field has a canonical name and an accepted value. -/
theorem spec_of_validateFields {depth : Nat} {previous : Option Text} {fields : List RecordField}
    (h : validateFields limits depth previous fields = .ok ()) :
    ∀ field ∈ fields, ∃ name value, field = .field name value ∧ isCanonicalToken name = true ∧
      validateValue limits value = .ok () := by
  induction fields generalizing previous with
  | nil => simp
  | cons field rest ih =>
    simp only [validateFields, status_bind_eq_ok, require_eq_ok] at h
    obtain ⟨hname, -, hfield, hrest⟩ := h
    refine List.forall_mem_cons.mpr ⟨?_, ih hrest⟩
    cases field with
    | null name => cases hfield
    | field name value =>
      simp only [validateField, status_bind_eq_ok] at hfield
      exact ⟨name, value, rfl, hname, hfield.1⟩

end Validation

namespace CapabilityValue

mutual

/-- A property of every value holds when it holds of the flat values, and of a record whose fields
have it. -/
@[elab_as_elim]
theorem induct {P : CapabilityValue → Prop} (flat : ∀ value, value.kind ≠ .record → P value)
    (record : ∀ fields, (∀ name value, .field name value ∈ fields → P value) →
      P (.record fields)) : ∀ value, P value
  | .record fields => record fields (inductFields flat record fields)
  | .none | .boolean _ | .count _ | .bytes _ | .rate _ | .bandwidth _ | .latencyClass _
  | .enumeration _ | .featureSet _ | .versionRange _ | .architectureSet _ | .numericRange _
  | .relationship _ | .predicate _ => flat _ (by simp [kind])

theorem inductFields {P : CapabilityValue → Prop} (flat : ∀ value, value.kind ≠ .record → P value)
    (record : ∀ fields, (∀ name value, .field name value ∈ fields → P value) →
      P (.record fields)) :
    ∀ (fields : List RecordField) (name value), .field name value ∈ fields → P value
  | [] => fun _ _ h => by cases h
  | .null _ :: fields => fun name value h =>
    inductFields flat record fields name value (by simpa using h)
  | .field name' value' :: fields => fun name value h => by
    rcases List.mem_cons.mp h with he | h
    · cases he
      exact induct flat record value'
    · exact inductFields flat record fields name value h

end

/-- Every value equals itself. -/
theorem beq_self (value : CapabilityValue) : value.beq value = true := by
  induction value using CapabilityValue.induct with
  | flat value hk => cases value <;> simp_all [beq, kind, versionRangeEq_self]
  | record fields ih =>
    rw [beq]
    induction fields with
    | nil => rfl
    | cons f fs ihf =>
      rw [fieldsBeq, ihf fun name value h => ih name value (List.mem_cons_of_mem _ h), Bool.and_true]
      cases f with
      | null name => exact beq_iff_eq.mpr rfl
      | field name value =>
        rw [fieldBeq, ih name value List.mem_cons_self]
        simp

/-- Equality does not depend on the side a value stands on. -/
theorem beq_comm (a b : CapabilityValue) : a.beq b = b.beq a := by
  induction a using CapabilityValue.induct generalizing b with
  | flat a hk =>
    cases a <;> cases b <;> simp_all [beq, kind, versionRangeEq_comm, BEq.comm]
  | record fields ih =>
    cases b with
    | record others =>
      simp only [beq]
      induction fields generalizing others with
      | nil => cases others <;> rfl
      | cons f fs ihf =>
        cases others with
        | nil => rfl
        | cons g gs =>
          rw [fieldsBeq, fieldsBeq,
            ihf (fun name value h => ih name value (List.mem_cons_of_mem _ h)) gs]
          cases f with
          | null name => cases g <;> simp [fieldBeq, BEq.comm]
          | field name value =>
            cases g with
            | null other => rfl
            | field other w =>
              rw [fieldBeq, fieldBeq, ih name value List.mem_cons_self w, BEq.comm]
    | _ => rfl

end CapabilityValue

end CapabilityRegistry
