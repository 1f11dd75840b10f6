import CapabilityRegistry.Messages
import CapabilityRegistry.Operations

/-! What fits the wire is written without clamping anything. -/
namespace CapabilityRegistry

/-- Nothing had to be clamped. -/
def ByteWriter.Whole (w : ByteWriter) : Prop := w.truncated = false

namespace ByteWriter
variable {α : Type} {a b : ByteWriter} {write : α → ByteWriter} {F : α → Prop} {bound : Nat}
  {text : Text}

@[simp] theorem whole_append : (a ++ b).Whole ↔ a.Whole ∧ b.Whole := by simp [Whole]

@[simp] theorem whole_empty : ({} : ByteWriter).Whole := rfl
@[simp] theorem whole_u8 (value : UInt8) : (u8 value).Whole := rfl
@[simp] theorem whole_u16 (value : UInt16) : (u16 value).Whole := rfl
@[simp] theorem whole_u32 (value : UInt32) : (u32 value).Whole := rfl
@[simp] theorem whole_u64 (value : UInt64) : (u64 value).Whole := rfl
@[simp] theorem whole_i64 (value : Int64) : (i64 value).Whole := rfl
@[simp] theorem whole_boolean (value : Bool) : (boolean value).Whole := rfl

@[simp] theorem whole_enum [DecidableEq α] [CodeEnum α] (value : α) : (enum value).Whole := rfl

@[simp] theorem whole_str : (str text bound).Whole ↔ text.length ≤ bound := by
  simp [str, Whole, u32]

theorem whole_all {writers : List ByteWriter} (h : ∀ w ∈ writers, w.Whole) : (all writers).Whole := by
  induction writers with
  | nil => exact whole_empty
  | cons w ws ih =>
    have hws := ih fun v hv => h v (List.mem_cons_of_mem w hv)
    exact whole_append.mpr ⟨h w List.mem_cons_self, hws⟩

theorem whole_list {values : List α} (hw : ∀ v, F v → (write v).Whole)
    (h : FitsList bound F values) : (list bound write values).Whole := by
  refine whole_append.mpr ⟨whole_u32 _, whole_all fun w hm => ?_⟩
  obtain ⟨v, hv, rfl⟩ := List.mem_map.mp hm
  exact hw v (h.2.2 v (List.mem_of_mem_take hv))

theorem whole_optional {value : Option α} (hw : ∀ v, F v → (write v).Whole)
    (h : FitsOptional F value) : (optional write value).Whole := by
  refine whole_append.mpr ⟨whole_boolean _, whole_all fun w hm => ?_⟩
  obtain ⟨v, hv, rfl⟩ := List.mem_map.mp hm
  exact hw v (h v (Option.mem_toList.mp hv))

end ByteWriter

open ByteWriter (whole_str whole_list whole_optional)

section Writers
variable {Tag : Type} {limits : RegistryLimits}

theorem FitsText.whole {text : Text} {bound : Nat} (h : FitsText bound text) :
    (ByteWriter.str text bound).Whole := whole_str.mpr h.1

@[simp] theorem whole_id (id : Id Tag) : (writeId id).Whole := whole_str.mpr id.length_str_le

@[simp] theorem whole_gen (value : Gen Tag) : (writeGen value).Whole := rfl

@[simp] theorem whole_publisherIdentity (identity : PublisherIdentity) :
    (writePublisherIdentity identity).Whole := by simp [writePublisherIdentity]

theorem whole_ids {bound : Nat} {ids : List (Id Tag)} (h : FitsList bound (fun _ => True) ids) :
    (ByteWriter.list bound writeId ids).Whole := whole_list (fun id _ => whole_id id) h

theorem SoftwareVersion.FitsWire.whole {version : SoftwareVersion} (h : version.FitsWire limits) :
    (writeVersion limits version).Whole := whole_str.mpr h

theorem VersionRange.FitsWire.whole {range : VersionRange} (h : range.FitsWire limits) :
    (writeVersionRange limits range).Whole := by
  simp [writeVersionRange, h.1.whole, h.2.whole]

theorem ConditionPtr.FitsWire.whole {condition : ConditionPtr} {levels : Nat}
    (h : condition.FitsWire limits levels) : (writeCondition limits condition).Whole := by
  induction levels generalizing condition with
  | zero =>
    cases condition with
    | null => simp [writeCondition, writeConditionNode]
    | node kind key value children => cases h
  | succ levels ih =>
    cases condition with
    | null => simp [writeCondition, writeConditionNode]
    | node kind key value children =>
      obtain ⟨hkey, hvalue, hchildren⟩ := h
      simp only [writeCondition, writeConditionNode_node, ByteWriter.whole_append]
      exact ⟨rfl, ⟨⟨rfl, hkey.whole⟩, hvalue.whole⟩, whole_list (fun _ => ih) hchildren⟩

theorem RecordField.FitsWire.whole {field : RecordField} {G : CapabilityValue → Prop}
    (hG : ∀ v, G v → (writeValue limits v).Whole) (h : field.FitsWire limits G) :
    (writeField limits field).Whole := by
  cases field with
  | null name => simp [writeField, FitsText.whole h]
  | field name value =>
    simp only [writeField, ByteWriter.whole_append]
    exact ⟨⟨h.1.whole, rfl⟩, ByteWriter.whole_append.mp (hG value h.2)⟩

theorem CapabilityValue.FitsWire.whole {value : CapabilityValue} {levels : Nat}
    (h : value.FitsWire limits levels) : (writeValue limits value).Whole := by
  induction levels generalizing value with
  | zero => exact h.elim
  | succ levels ih =>
    refine ByteWriter.whole_append.mpr ⟨rfl, ?_⟩
    cases value with
    | count value => exact ByteWriter.whole_append.mpr ⟨rfl, FitsText.whole h⟩
    | enumeration value => exact ByteWriter.whole_append.mpr ⟨FitsText.whole h.1, FitsText.whole h.2⟩
    | featureSet features => exact whole_list (fun _ => FitsText.whole) h
    | versionRange range => exact VersionRange.FitsWire.whole h
    | architectureSet architectures => exact whole_ids h
    | record fields =>
      rw [writePayload_record]
      exact whole_list (fun _ => RecordField.FitsWire.whole fun _ => ih) h
    | predicate condition =>
      rw [writePayload]
      exact ConditionPtr.FitsWire.whole h
    | _ => simp [writePayload]

theorem EvidenceSource.FitsWire.whole {source : EvidenceSource} (h : source.FitsWire limits) :
    (writeEvidenceSource limits source).Whole := by
  obtain ⟨hadapter, hreference, hobserved⟩ := h
  simp [writeEvidenceSource, hadapter.whole, hreference.whole, hobserved.whole]

theorem whole_nativeIdentifiers {ids : List NativeIdentifier}
    (h : FitsList limits.maxNativeIdentifiers (NativeIdentifier.FitsWire limits) ids) :
    (ByteWriter.list limits.maxNativeIdentifiers (writeNativeIdentifier limits) ids).Whole :=
  whole_list (fun _ hid => ByteWriter.whole_append.mpr ⟨hid.1.whole, hid.2.whole⟩) h

theorem PlatformIdentity.FitsWire.whole {platform : PlatformIdentity}
    (h : platform.FitsWire limits) : (writePlatformIdentity limits platform).Whole := by
  obtain ⟨hname, hvendor, hmodel, hids⟩ := h
  simp [writePlatformIdentity, hname.whole, hvendor.whole, hmodel.whole,
    whole_nativeIdentifiers hids]

theorem DeviceIdentity.FitsWire.whole {identity : DeviceIdentity} (h : identity.FitsWire limits) :
    (writeDeviceIdentity limits identity).Whole := by
  obtain ⟨hhardware, hserial, hlocator, hname⟩ := h
  simp [writeDeviceIdentity, writeHardwareIdentity, whole_nativeIdentifiers hhardware,
    whole_optional (fun _ => FitsText.whole) hserial,
    whole_optional (fun _ => FitsText.whole) hlocator, hname.whole]

theorem DeviceSoftwareState.FitsWire.whole {software : DeviceSoftwareState}
    (h : software.FitsWire limits) : (writeSoftwareState limits software).Whole := by
  obtain ⟨hfirmware, hbuild, hdriver, hruntime⟩ := h
  simp [writeSoftwareState, hfirmware.whole, hbuild.whole, hdriver.whole, hruntime.whole]

theorem DeviceRegistration.FitsWire.whole {registration : DeviceRegistration}
    (h : registration.FitsWire limits) : (writeDeviceRegistration limits registration).Whole := by
  obtain ⟨hidentity, hsoftware, hplatform, hobserved⟩ := h
  simp [writeDeviceRegistration, hidentity.whole, hsoftware.whole, hplatform.whole,
    hobserved.whole]

theorem CapabilitySchema.FitsWire.whole {schema : CapabilitySchema} (h : schema.FitsWire limits) :
    (writeCapabilitySchema limits schema).Whole := by
  simp [writeCapabilitySchema, h.1.whole, h.2.whole]

theorem CapabilityRecord.FitsWire.whole {record : CapabilityRecord} (h : record.FitsWire limits) :
    (writeCapabilityRecord limits record).Whole := by
  obtain ⟨hvalue, hsource, hconditions⟩ := h
  simp [writeCapabilityRecord, hvalue.whole, hsource.whole, hconditions.whole]

theorem HardwareReference.FitsWire.whole {reference : HardwareReference}
    (h : reference.FitsWire limits) : (writeHardwareReference limits reference).Whole := by
  simp [writeHardwareReference, h.1.whole, h.2.whole]

theorem CompatibilityFact.FitsWire.whole {fact : CompatibilityFact} (h : fact.FitsWire limits) :
    (writeCompatibilityFact limits fact).Whole := by
  obtain ⟨hlhs, hrhs, hconditions, hwindow, hreason, hsource⟩ := h
  simp [writeCompatibilityFact, hlhs.whole, hrhs.whole, hconditions.whole, hwindow.whole,
    hreason.whole, hsource.whole]

theorem whole_ranges {ranges : List VersionRange}
    (h : FitsList 64 (VersionRange.FitsWire limits) ranges) : (writeRanges limits ranges).Whole :=
  whole_list (fun _ => VersionRange.FitsWire.whole) h

theorem QuirkApplicability.FitsWire.whole {applicability : QuirkApplicability}
    (h : applicability.FitsWire limits) : (writeApplicability limits applicability).Whole := by
  obtain ⟨hvendors, hfamilies, hmodels, hdevices, hrevisions, harchitectures, hrevisionRanges,
    hdriver, hfirmware, hruntime, hconditions⟩ := h
  have hranges : (ByteWriter.list 64 (writeRevisionRange limits)
      applicability.revisionRanges).Whole :=
    whole_list (fun _ hr => ByteWriter.whole_append.mpr ⟨hr.1.whole, hr.2.whole⟩) hrevisionRanges
  simp [writeApplicability, writeIds, whole_ids hvendors, whole_ids hfamilies, whole_ids hmodels,
    whole_ids hdevices, whole_ids hrevisions, whole_ids harchitectures, hranges,
    whole_ranges hdriver, whole_ranges hfirmware, whole_ranges hruntime, hconditions.whole]

theorem QuirkRecord.FitsWire.whole {quirk : QuirkRecord} (h : quirk.FitsWire limits) :
    (writeQuirkRecord limits quirk).Whole := by
  obtain ⟨htitle, hdescription, happlicability, himpacted, hsource⟩ := h
  simp [writeQuirkRecord, writeIds, htitle.whole, hdescription.whole, happlicability.whole,
    whole_ids himpacted, hsource.whole]

theorem Publication.FitsWire.whole {publication : Publication} (h : publication.FitsWire limits) :
    (writePublication limits publication).Whole := by
  obtain ⟨hdevice, hcapability, hquirk, hcompatibility, hschema, hreason, hissued⟩ := h
  simp [writePublication, hdevice.whole, hcapability.whole, hquirk.whole, hcompatibility.whole,
    hschema.whole, hreason.whole, hissued.whole]

end Writers

section Publications
variable {limits : RegistryLimits} {bytes : List UInt8} {publication : Publication}

/-- A decoded publication is written again without clamping or cutting anything, the frame bound
is all that can refuse it, and decoding what is written gives it back. -/
theorem decoded_publication_is_stable (h : decodePublication limits bytes = .ok publication) :
    publication.FitsWire limits ∧ (writePublication limits publication).truncated = false ∧
      ((writePublication limits publication).out.length ≤ limits.maxFrameBytes →
        encodePublication limits publication =
          .ok (writePublication limits publication).out) ∧
      decodePublication limits (writePublication limits publication).out = .ok publication := by
  have hfits : publication.FitsWire limits :=
    (round_publication limits).yields _ _ _ (decodeAll_eq_ok.mp h)
  have hwhole : (writePublication limits publication).truncated = false := hfits.whole
  refine ⟨hfits, hwhole, fun hlength => ?_, (decodeAll_iff (round_publication limits)).mpr hfits⟩
  simp only [encodePublication, hwhole, hlength]
  rfl

theorem decoded_publication_is_stable_evidence :
    ∃ publication, decodePublication {} (writePublication {}
        (Sample.evidence 1 Sample.capability)).out = .ok publication ∧
      decodePublication {} (writePublication {} publication).out = .ok publication := by
  have haccepted : (decodePublication {} (writePublication {}
      (Sample.evidence 1 Sample.capability)).out).toBool = true := by decide +kernel
  cases h : decodePublication {} (writePublication {} (Sample.evidence 1 Sample.capability)).out with
  | error e => rw [h] at haccepted; cases haccepted
  | ok publication => exact ⟨publication, rfl, (decoded_publication_is_stable h).2.2.2⟩

end Publications

end CapabilityRegistry
