import CapabilityRegistry.Restarts
import CapabilityRegistry.Lib.Sections

/-! What the durable digest covers of a file, and what an import restores beyond it. -/
namespace CapabilityRegistry

section Sections

def Mixed.isWord : Mixed → Bool
  | .word _ => true
  | .text _ => false

def wordAt (values : List Mixed) (i : Nat) : Bool := (values[i]?).any Mixed.isWord
def textAt (values : List Mixed) (i : Nat) : Bool := (values[i]?).any fun value => !value.isWord

@[simp] theorem wordAt_nil (i : Nat) : wordAt [] i = false := rfl
@[simp] theorem textAt_nil (i : Nat) : textAt [] i = false := rfl
@[simp] theorem wordAt_zero (value : Mixed) (values : List Mixed) :
    wordAt (value :: values) 0 = value.isWord := rfl
@[simp] theorem textAt_zero (value : Mixed) (values : List Mixed) :
    textAt (value :: values) 0 = !value.isWord := rfl
@[simp] theorem wordAt_succ (value : Mixed) (values : List Mixed) (i : Nat) :
    wordAt (value :: values) (i + 1) = wordAt values i := rfl
@[simp] theorem textAt_succ (value : Mixed) (values : List Mixed) (i : Nat) :
    textAt (value :: values) (i + 1) = textAt values i := rfl
@[simp] theorem isWord_text (text : Text) : (Mixed.text text).isWord = false := rfl
@[simp] theorem isWord_word (value : UInt64) : (Mixed.word value).isWord = true := rfl
@[simp] theorem isWord_enumWord {α : Type} [DecidableEq α] [CodeEnum α] (a : α) :
    (enumWord a).isWord = true := rfl

/-- The section the next element of a feed belongs to, read off the places of its texts and words:
platforms, subjects, schemas, records, quirks, facts, watermarks, fenced boots, none. -/
def sectionOf (values : List Mixed) : Nat :=
  if textAt values 1 then
    if textAt values 2 then
      if wordAt values 3 then 3
      else if textAt values 4 && wordAt values 5 && wordAt values 6 then 1
      else 0
    else 2
  else if textAt values 2 then
    if wordAt values 4 then 4 else 7
  else if wordAt values 4 then 6
  else if wordAt values 2 then 5
  else if textAt values 0 then 7
  else 8

/-- A feed between two elements: it does not go on as no element begins. -/
structure Between (values : List Mixed) : Prop where
  first : wordAt values 0 = false
  second : textAt values 1 = false → textAt values 0 = wordAt values 1
  fourth : textAt values 1 = true → wordAt values 2 = true → wordAt values 3 = false

/-- What may follow an element of the `i`-th section. -/
structure ResumesAt (i : Nat) (values : List Mixed) : Prop extends Between values where
  later : i ≤ sectionOf values

def StartsAt (i : Nat) (values : List Mixed) : Prop := sectionOf values = i

theorem not_startsAt {i : Nat} {t : List Mixed} (h : ResumesAt (i + 1) t) : ¬ StartsAt i t := by
  intro hs
  have hl := h.later
  rw [hs] at hl
  exact Nat.not_succ_le_self i hl

theorem ResumesAt.mono {i j : Nat} {t : List Mixed} (h : ResumesAt j t) (hij : i ≤ j) :
    ResumesAt i t := by
  exact ⟨h.toBetween, hij.trans h.later⟩

theorem resumesAt_nil (i : Nat) (hi : i ≤ 8) : ResumesAt i [] := by
  exact ⟨⟨rfl, fun _ => rfl, fun h => by cases h⟩, hi⟩

variable {α : Type} {feed : α → List Mixed} {i : Nat}

/-- A section and what follows it are read back from the whole. -/
theorem split_next {xs ys : List α} {s t : List Mixed}
    (h : Sections.Separated feed (ResumesAt i) (StartsAt i)) (hs : ResumesAt (i + 1) s)
    (ht : ResumesAt (i + 1) t) (he : xs.flatMap feed ++ s = ys.flatMap feed ++ t) :
    xs.map feed = ys.map feed ∧ s = t := by
  exact h.split (hs.mono (Nat.le_succ i)) (ht.mono (Nat.le_succ i)) (not_startsAt hs)
    (not_startsAt ht) he

theorem separated_of_length (hlength : ∀ a b, (feed a).length = (feed b).length)
    (h : ∀ a t, ResumesAt i t → Between (feed a ++ t) ∧ sectionOf (feed a ++ t) = i) :
    Sections.Separated feed (ResumesAt i) (StartsAt i) where
  follows a t ht := ⟨(h a t ht).1, (h a t ht).2.ge⟩
  starts a t ht := (h a t ht).2
  head a b s t _ _ he := Sections.head_of_length hlength a b s t he

theorem separated_platforms : Sections.Separated platformFeed (ResumesAt 0) (StartsAt 0) := by
  refine separated_of_length (fun _ _ => rfl) fun platform t ht => ⟨⟨?_, ?_, ?_⟩, ?_⟩
  · simp [platformFeed]
  · simp [platformFeed]
  · simp [platformFeed]
  · -- the three texts of a platform are not the first three of a subject
    simpa [platformFeed, sectionOf, ht.first] using ht.fourth

theorem separated_subjects : Sections.Separated subjectFeed (ResumesAt 1) (StartsAt 1) := by
  refine separated_of_length (fun _ _ => rfl) fun subject t ht => ⟨⟨?_, ?_, ?_⟩, ?_⟩ <;>
    simp [subjectFeed, sectionOf]

theorem separated_schemas : Sections.Separated schemaFeed (ResumesAt 2) (StartsAt 2) := by
  refine separated_of_length (fun _ _ => rfl) fun schema t ht => ⟨⟨?_, ?_, ?_⟩, ?_⟩ <;>
    simp [schemaFeed, sectionOf, ht.first]

theorem separated_records : Sections.Separated recordFeed (ResumesAt 3) (StartsAt 3) := by
  refine separated_of_length (fun _ _ => rfl) fun record t ht => ⟨⟨?_, ?_, ?_⟩, ?_⟩ <;>
    simp [recordFeed, sectionOf]

theorem textAt_one_of_late {t : List Mixed} (h : 4 ≤ sectionOf t) : textAt t 1 = false := by
  by_contra htext
  simp only [sectionOf, Bool.not_eq_false] at h htext
  rw [if_pos htext] at h
  split_ifs at h <;> omega

/-- The impacted capabilities of a quirk end where a text is followed by a word. -/
theorem texts_eq {xs ys : List CapabilityId} {s t : List Mixed} (hs : ResumesAt 4 s)
    (ht : ResumesAt 4 t)
    (he : xs.map (fun c => Mixed.text c.str) ++ s = ys.map (fun c => Mixed.text c.str) ++ t) :
    xs.map (fun c => Mixed.text c.str) = ys.map fun c => Mixed.text c.str := by
  have hcut : ∀ {c : CapabilityId} {cs : List CapabilityId} {s t : List Mixed}, ResumesAt 4 s →
      ResumesAt 4 t → s ≠ Mixed.text c.str :: (cs.map (fun c => Mixed.text c.str) ++ t) := by
    rintro c cs s t hs ht rfl
    have hsecond := hs.second (textAt_one_of_late hs.later)
    cases cs with
    | nil => simp [ht.first] at hsecond
    | cons d ds => simp at hsecond
  induction xs generalizing ys with
  | nil =>
    cases ys with
    | nil => rfl
    | cons y ys => exact (hcut hs ht he).elim
  | cons x xs ih =>
    cases ys with
    | nil => exact (hcut ht hs he.symm).elim
    | cons y ys =>
      simp only [List.map_cons, List.cons_append, List.cons.injEq] at he ⊢
      exact ⟨he.1, ih he.2⟩

theorem separated_quirks : Sections.Separated quirkFeed (ResumesAt 4) (StartsAt 4) where
  follows quirk t ht := by
    refine ⟨⟨?_, ?_, ?_⟩, ?_⟩ <;> simp [quirkFeed, sectionOf]
  starts quirk t ht := by simp [quirkFeed, StartsAt, sectionOf]
  head a b s t hs ht he := by
    unfold quirkFeed at he ⊢
    rw [List.append_assoc, List.append_assoc] at he
    obtain ⟨hfixed, hrest⟩ := List.append_inj he rfl
    rw [hfixed, texts_eq hs ht hrest]

theorem separated_compatibility :
    Sections.Separated compatibilityFeed (ResumesAt 5) (StartsAt 5) := by
  refine separated_of_length (fun _ _ => rfl) fun fact t ht => ⟨⟨?_, ?_, ?_⟩, ?_⟩ <;>
    simp [compatibilityFeed, sectionOf]

theorem separated_watermarks : Sections.Separated watermarkFeed (ResumesAt 6) (StartsAt 6) := by
  refine separated_of_length (fun _ _ => rfl) fun watermark t ht => ⟨⟨?_, ?_, ?_⟩, ?_⟩ <;>
    simp [watermarkFeed, sectionOf]

theorem wordAt_of_textAt {t : List Mixed} {i : Nat} (h : textAt t i = true) :
    wordAt t i = false := by
  unfold wordAt textAt at *
  cases hv : t[i]? <;> simp_all

theorem wordAt_two_of_fenced {t : List Mixed} (h : 7 ≤ sectionOf t) : wordAt t 2 = false := by
  by_contra hword
  have htext : textAt t 2 = false := by
    by_contra htext
    rw [Bool.not_eq_false] at htext
    exact hword (wordAt_of_textAt htext)
  have hfirst := textAt_one_of_late ((by omega : 4 ≤ 7).trans h)
  rw [Bool.not_eq_false] at hword
  simp only [sectionOf, hfirst, htext, hword] at h
  split_ifs at h <;> omega

theorem separated_fenced : Sections.Separated fencedFeed (ResumesAt 7) (StartsAt 7) := by
  refine separated_of_length (fun _ _ => rfl) fun fenced t ht => ⟨⟨?_, ?_, ?_⟩, ?_⟩
  · simp [fencedFeed]
  · simp [fencedFeed]
  · simp [fencedFeed]
  · simp [fencedFeed, sectionOf, wordAt_two_of_fenced ht.later, ht.first]

/-- Two files agree in everything the digest mixes. -/
structure SameDigested (x y : DurableState) : Prop where
  header : headerFeed x.header = headerFeed y.header
  platforms : x.platforms.map platformFeed = y.platforms.map platformFeed
  subjects : x.subjects.map subjectFeed = y.subjects.map subjectFeed
  schemas : x.schemas.map schemaFeed = y.schemas.map schemaFeed
  capabilityHistory : x.capabilityHistory.map recordFeed = y.capabilityHistory.map recordFeed
  quirks : x.quirks.map quirkFeed = y.quirks.map quirkFeed
  compatibility : x.compatibility.map compatibilityFeed = y.compatibility.map compatibilityFeed
  publisherWatermarks :
    x.publisherWatermarks.map watermarkFeed = y.publisherWatermarks.map watermarkFeed
  fencedBoots : x.fencedBoots.map fencedFeed = y.fencedBoots.map fencedFeed

/-- The digest mixes no counts, but the bounds of the lists can be read back from what it mixes. -/
theorem sameDigested_of_feed {x y : DurableState} (h : durableFeed x = durableFeed y) :
    SameDigested x y := by
  have h : durableFeed x ++ [] = durableFeed y ++ [] := congrArg (· ++ []) h
  simp only [durableFeed, List.cons_append, List.append_assoc, List.cons.injEq, true_and] at h
  -- what follows each section, from the last one back
  have end7 := fun state : DurableState =>
    separated_fenced.follows_section state.fencedBoots (resumesAt_nil 7 (by omega))
  have end6 := fun state : DurableState =>
    separated_watermarks.follows_section state.publisherWatermarks ((end7 state).mono (by omega))
  have end5 := fun state : DurableState =>
    separated_compatibility.follows_section state.compatibility ((end6 state).mono (by omega))
  have end4 := fun state : DurableState =>
    separated_quirks.follows_section state.quirks ((end5 state).mono (by omega))
  have end3 := fun state : DurableState =>
    separated_records.follows_section state.capabilityHistory ((end4 state).mono (by omega))
  have end2 := fun state : DurableState =>
    separated_schemas.follows_section state.schemas ((end3 state).mono (by omega))
  have end1 := fun state : DurableState =>
    separated_subjects.follows_section state.subjects ((end2 state).mono (by omega))
  obtain ⟨hheader, h⟩ := List.append_inj h rfl
  obtain ⟨hplatforms, h⟩ := split_next separated_platforms (end1 x) (end1 y) h
  obtain ⟨hsubjects, h⟩ := split_next separated_subjects (end2 x) (end2 y) h
  obtain ⟨hschemas, h⟩ := split_next separated_schemas (end3 x) (end3 y) h
  obtain ⟨hrecords, h⟩ := split_next separated_records (end4 x) (end4 y) h
  obtain ⟨hquirks, h⟩ := split_next separated_quirks (end5 x) (end5 y) h
  obtain ⟨hfacts, h⟩ := split_next separated_compatibility (end6 x) (end6 y) h
  obtain ⟨hmarks, h⟩ := split_next separated_watermarks (end7 x) (end7 y) h
  obtain ⟨hfenced, -⟩ := split_next separated_fenced (resumesAt_nil 8 (by omega))
    (resumesAt_nil 8 (by omega)) h
  exact ⟨hheader, hplatforms, hsubjects, hschemas, hrecords, hquirks, hfacts, hmarks, hfenced⟩

end Sections

section Undigested

def PlatformIdentity.undigested (platform : PlatformIdentity) :
    Text × Text × List NativeIdentifier :=
  (platform.vendor, platform.model, platform.nativeIdentifiers)

/-- Of the hardware the digest mixes the canonical key only. The counts of a subject are not
restored. -/
def SubjectSnapshot.undigested (subject : SubjectSnapshot) :
    HardwareIdentity × Option Text × Option Text × Text × FirmwareGeneration × DriverGeneration ×
      RuntimeGeneration :=
  (subject.identity.hardware, subject.identity.serialNumber, subject.identity.instanceLocator,
    subject.software.firmware.build, subject.software.firmwareGeneration,
    subject.software.driverGeneration, subject.software.runtimeGeneration)

def CapabilitySchema.undigested (schema : CapabilitySchema) : CapabilityDomain × Text × Text :=
  (schema.domain, schema.canonicalName, schema.unit)

/-- Of the value and the conditions of a record the digest mixes the renderings only. -/
def CapabilityRecord.undigested (record : CapabilityRecord) :
    CapabilityValue × ConditionPtr × PlatformGeneration × Text × UInt64 :=
  (record.value, record.conditions, record.platformGeneration, record.source.observedAtUtc,
    record.source.platformGeneration)

def QuirkRecord.undigested (quirk : QuirkRecord) :
    Text × MitigationKind × QuirkApplicability × EvidenceSource × Bool :=
  (quirk.description, quirk.mitigation, quirk.applicability, quirk.source, quirk.withdrawn)

def HardwareReference.undigested (reference : HardwareReference) :
    HardwareReferenceKind × SoftwareVersion :=
  (reference.kind, reference.version)

def CompatibilityFact.undigested (fact : CompatibilityFact) :
    (HardwareReferenceKind × SoftwareVersion) × (HardwareReferenceKind × SoftwareVersion) ×
      ConditionPtr × VersionRange × EvidenceSource × Bool :=
  (fact.lhs.undigested, fact.rhs.undigested, fact.conditions, fact.versionWindow, fact.source,
    fact.withdrawn)

def PublisherWatermark.undigested (watermark : PublisherWatermark) :
    Text × Text × UInt64 × UInt64 × Text :=
  (watermark.adapter, watermark.reason, watermark.accepted, watermark.rejected,
    watermark.registeredAtUtc)

/-- The digest check of an import, which a file without a digest passes. -/
def DurableState.passesDigest (state : DurableState) : Bool :=
  state.canonicalDigest == 0 || canonicalDurableDigest state == state.canonicalDigest

/-- Two files agree in everything an import restores and the digest does not mix. Of the platforms
of one identifier the first is restored. -/
structure SameUndigested (x y : DurableState) : Prop where
  passes : x.passesDigest = y.passesDigest
  platforms : ∀ id : PlatformId,
    (x.platforms.find? fun p => p.id = id).map PlatformIdentity.undigested =
      (y.platforms.find? fun p => p.id = id).map PlatformIdentity.undigested
  subjects : x.subjects.map SubjectSnapshot.undigested = y.subjects.map SubjectSnapshot.undigested
  schemas : x.schemas.map CapabilitySchema.undigested = y.schemas.map CapabilitySchema.undigested
  capabilityHistory : x.capabilityHistory.map CapabilityRecord.undigested =
    y.capabilityHistory.map CapabilityRecord.undigested
  quirks : x.quirks.map QuirkRecord.undigested = y.quirks.map QuirkRecord.undigested
  compatibility : x.compatibility.map CompatibilityFact.undigested =
    y.compatibility.map CompatibilityFact.undigested
  publisherWatermarks : x.publisherWatermarks.map PublisherWatermark.undigested =
    y.publisherWatermarks.map PublisherWatermark.undigested

/-- The mixed word of an enumerator tells it from the others. -/
theorem enumWord_inj {α : Type} [DecidableEq α] [CodeEnum α]
    (hsmall : (CodeEnum.members : List α).length ≤ 2 ^ 64) {a b : α} :
    enumWord a = enumWord b ↔ a = b := by
  refine ⟨fun h => ?_, congrArg enumWord⟩
  have hcode := congrArg UInt64.toNat (Mixed.word.inj h)
  have ha := (CodeEnum.code_lt a).trans_le hsmall
  have hb := (CodeEnum.code_lt b).trans_le hsmall
  rw [UInt64.toNat_ofNat_of_lt' ha, UInt64.toNat_ofNat_of_lt' hb] at hcode
  have hof := congrArg (CodeEnum.ofCode? (α := α)) hcode
  rw [CodeEnum.ofCode?_code, CodeEnum.ofCode?_code] at hof
  exact Option.some.inj hof

theorem platform_eq (a b : PlatformIdentity) (h : platformFeed a = platformFeed b)
    (hu : a.undigested = b.undigested) : a = b := by
  cases a; cases b
  simp only [platformFeed, PlatformIdentity.undigested, List.cons.injEq, Mixed.text.injEq,
    Prod.mk.injEq, ← Id.ext_iff, and_true, PlatformIdentity.mk.injEq] at h hu ⊢
  tauto

/-- What of a subject is restored. -/
def SubjectSnapshot.restored (subject : SubjectSnapshot) : SubjectSnapshot :=
  { identity := subject.identity
    software := subject.software
    generation := subject.generation
    boot := subject.boot
    platformGeneration := subject.platformGeneration }

theorem subject_eq (a b : SubjectSnapshot) (h : subjectFeed a = subjectFeed b)
    (hu : a.undigested = b.undigested) : a.restored = b.restored := by
  obtain ⟨⟨_, _, _, _, _, _, _⟩, ⟨⟨_, _, _⟩, _, ⟨_, _⟩, _, ⟨_, _⟩, _⟩, _, _, _⟩ := a
  obtain ⟨⟨_, _, _, _, _, _, _⟩, ⟨⟨_, _, _⟩, _, ⟨_, _⟩, _, ⟨_, _⟩, _⟩, _, _, _⟩ := b
  simp only [subjectFeed, SubjectSnapshot.undigested, List.cons.injEq, Mixed.text.injEq,
    Mixed.word.injEq, Prod.mk.injEq, ← Id.ext_iff, ← Gen.ext_iff, and_true] at h hu
  simp only [SubjectSnapshot.restored, SubjectSnapshot.mk.injEq, DeviceIdentity.mk.injEq,
    DeviceSoftwareState.mk.injEq, FirmwareIdentity.mk.injEq, DriverIdentity.mk.injEq,
    RuntimeIdentity.mk.injEq, and_true]
  tauto

theorem schema_eq (a b : CapabilitySchema) (h : schemaFeed a = schemaFeed b)
    (hu : a.undigested = b.undigested) : a = b := by
  cases a; cases b
  simp only [schemaFeed, CapabilitySchema.undigested, List.cons.injEq, Mixed.text.injEq,
    enumWord_inj (α := ValueKind) (by decide), Prod.mk.injEq, ← Id.ext_iff, and_true,
    CapabilitySchema.mk.injEq] at h hu ⊢
  tauto

theorem withdrawnWord_inj {a b : Bool} :
    (if a = true then (1 : UInt64) else 0) = (if b = true then 1 else 0) ↔ a = b := by
  cases a <;> cases b <;> decide

theorem record_eq (a b : CapabilityRecord) (h : recordFeed a = recordFeed b)
    (hu : a.undigested = b.undigested) : a = b := by
  obtain ⟨_, _, _, _, _, _, _, _, _, ⟨_, _, ⟨_, _, _⟩, _, _, _, _, _, _⟩, _⟩ := a
  obtain ⟨_, _, _, _, _, _, _, _, _, ⟨_, _, ⟨_, _, _⟩, _, _, _, _, _, _⟩, _⟩ := b
  simp only [recordFeed, CapabilityRecord.undigested, List.cons.injEq, Mixed.text.injEq,
    Mixed.word.injEq, enumWord_inj (α := SupportState) (by decide),
    enumWord_inj (α := PrecisionClass) (by decide), enumWord_inj (α := SourceClass) (by decide),
    enumWord_inj (α := ProvenanceClass) (by decide), withdrawnWord_inj, Prod.mk.injEq,
    ← Id.ext_iff, ← Gen.ext_iff, and_true] at h hu
  simp only [CapabilityRecord.mk.injEq, EvidenceSource.mk.injEq, PublisherIdentity.mk.injEq]
  tauto

theorem quirk_eq (a b : QuirkRecord) (h : quirkFeed a = quirkFeed b)
    (hu : a.undigested = b.undigested) : a = b := by
  cases a; cases b
  simp only [quirkFeed, QuirkRecord.undigested, List.cons_append, List.nil_append, List.cons.injEq,
    Mixed.text.injEq, Mixed.word.injEq, enumWord_inj (α := QuirkSeverity) (by decide),
    enumWord_inj (α := QuirkCategory) (by decide), Prod.mk.injEq, ← Id.ext_iff,
    ← Gen.ext_iff] at h hu
  have hinjective : Function.Injective fun c : CapabilityId => Mixed.text c.str :=
    fun _ _ he => Id.ext (Mixed.text.inj he)
  have himpacted := List.map_injective_iff.mpr hinjective h.2.2.2.2.2
  simp only [QuirkRecord.mk.injEq]
  tauto

theorem fact_eq (a b : CompatibilityFact) (h : compatibilityFeed a = compatibilityFeed b)
    (hu : a.undigested = b.undigested) : a = b := by
  obtain ⟨_, _, _, ⟨_, _, _⟩, ⟨_, _, _⟩, _⟩ := a
  obtain ⟨_, _, _, ⟨_, _, _⟩, ⟨_, _, _⟩, _⟩ := b
  simp only [compatibilityFeed, CompatibilityFact.undigested, HardwareReference.undigested,
    List.cons.injEq, Mixed.text.injEq, Mixed.word.injEq,
    enumWord_inj (α := CompatibilitySubjectKind) (by decide),
    enumWord_inj (α := CompatibilityOutcome) (by decide), Prod.mk.injEq, ← Id.ext_iff,
    ← Gen.ext_iff, and_true] at h hu
  simp only [CompatibilityFact.mk.injEq, HardwareReference.mk.injEq]
  tauto

theorem watermark_eq (a b : PublisherWatermark) (h : watermarkFeed a = watermarkFeed b)
    (hu : a.undigested = b.undigested) : a = b := by
  cases a; cases b
  simp only [watermarkFeed, PublisherWatermark.undigested, List.cons.injEq, Mixed.text.injEq,
    Mixed.word.injEq, enumWord_inj (α := PublisherState) (by decide), Prod.mk.injEq, ← Id.ext_iff,
    ← Gen.ext_iff, and_true, PublisherWatermark.mk.injEq] at h hu ⊢
  tauto

/-- What of a fenced boot is restored. -/
def PublisherWatermark.fence (fenced : PublisherWatermark) : PublisherWatermark :=
  { publisher := fenced.publisher, boot := fenced.boot }

theorem fence_eq (a b : PublisherWatermark) (h : fencedFeed a = fencedFeed b) :
    a.fence = b.fence := by
  simp only [fencedFeed, List.cons.injEq, Mixed.text.injEq, Mixed.word.injEq, ← Id.ext_iff,
    ← Gen.ext_iff, and_true] at h
  rw [PublisherWatermark.fence, PublisherWatermark.fence, h.1, h.2]

theorem header_eq (a b : DurableStateHeader) (h : headerFeed a = headerFeed b) : a = b := by
  cases a; cases b
  simp only [headerFeed, List.cons.injEq, Mixed.text.injEq, Mixed.word.injEq, ← Gen.ext_iff,
    and_true, UInt32.toUInt64_inj, DurableStateHeader.mk.injEq] at h ⊢
  exact h

end Undigested

section Restored
variable {x y : DurableState} {limits : RegistryLimits} {r : Impl}

theorem platforms_staged (staged : Std.ExtTreeMap PlatformId PlatformIdentity)
    (platforms : List PlatformIdentity) :
    platforms.foldlM stagePlatform staged =
      if platforms.all fun platform => platform.id.valid then
        .ok (OrdMap.enter PlatformIdentity.id staged platforms)
      else .error ⟨.invalidIdentity, "durable state contains an invalid platform identity"⟩ := by
  induction platforms generalizing staged with
  | nil => rfl
  | cons platform rest ih =>
    rw [List.foldlM_cons, List.all_cons]
    unfold stagePlatform
    cases hv : platform.id.valid with
    | false => rfl
    | true => exact ih _

theorem platform_id (a b : PlatformIdentity) (h : platformFeed a = platformFeed b) :
    a.id = b.id := by
  exact Id.ext (Mixed.text.inj (List.cons.inj h).1)

theorem platforms_alike (hd : SameDigested x y) (hu : SameUndigested x y) :
    x.platforms.foldlM stagePlatform ∅ = y.platforms.foldlM stagePlatform ∅ := by
  have hids : x.platforms.map PlatformIdentity.id = y.platforms.map PlatformIdentity.id :=
    Sections.map_eq_of_maps (fun a b h _ => platform_id a b h) hd.platforms hd.platforms
  have hvalid : (x.platforms.all fun platform => platform.id.valid) =
      y.platforms.all fun platform => platform.id.valid := by
    have hall := congrArg (List.all · Id.valid) hids
    simpa only [List.all_map, Function.comp_def] using hall
  have hmaps : OrdMap.enter PlatformIdentity.id ∅ x.platforms =
      OrdMap.enter PlatformIdentity.id ∅ y.platforms := by
    refine Std.ExtTreeMap.ext_getElem? fun id => ?_
    rw [OrdMap.getElem?_enter, OrdMap.getElem?_enter]
    refine congrArg (Option.or _) ?_
    have hfeed := Sections.find?_eq_of_map platform_id hd.platforms id
    have hrest := hu.platforms id
    cases hx : x.platforms.find? fun p => p.id = id <;>
      cases hy : y.platforms.find? fun p => p.id = id <;>
      simp only [hx, hy, Option.map_none, Option.map_some, Option.some.injEq, reduceCtorEq]
        at hfeed hrest ⊢
    exact platform_eq _ _ hfeed hrest
  rw [platforms_staged, platforms_staged, hvalid, hmaps]

theorem subjects_alike (hd : SameDigested x y) (hu : SameUndigested x y) :
    x.subjects.foldlM (stageSubject limits) {} = y.subjects.foldlM (stageSubject limits) {} := by
  have hrestored := Sections.map_eq_of_maps subject_eq hd.subjects hu.subjects
  have hstep : ∀ list : List SubjectSnapshot, list.foldlM (stageSubject limits) {} =
      (list.map SubjectSnapshot.restored).foldlM (stageSubject limits) {} := fun list => by
    rw [List.foldlM_map]
    rfl
  rw [hstep x.subjects, hrestored, ← hstep]

theorem fences_alike (hd : SameDigested x y) (staged : Publishers) :
    x.fencedBoots.foldlM stageFenced staged = y.fencedBoots.foldlM stageFenced staged := by
  have hrestored := Sections.map_eq_of_maps (fun a b h _ => fence_eq a b h) hd.fencedBoots
    hd.fencedBoots
  have hstep : ∀ list : List PublisherWatermark, list.foldlM stageFenced staged =
      (list.map PublisherWatermark.fence).foldlM stageFenced staged := fun list => by
    rw [List.foldlM_map]
    rfl
  rw [hstep x.fencedBoots, hrestored, ← hstep]

theorem checkBounds_alike (hd : SameDigested x y) (hu : SameUndigested x y) :
    checkBounds limits x = checkBounds limits y := by
  have hpasses := hu.passes
  unfold DurableState.passesDigest at hpasses
  have hlength : ∀ {α β : Type} {f : α → β} {xs ys : List α}, xs.map f = ys.map f →
      xs.length = ys.length := fun h => by simpa using congrArg List.length h
  unfold checkBounds
  rw [hpasses, header_eq _ _ hd.header, hlength hd.subjects, hlength hd.capabilityHistory,
    hlength hd.quirks, hlength hd.compatibility, hlength hd.publisherWatermarks]

/-- Files that agree in what the digest mixes and in what it leaves out import alike. -/
theorem import_alike (hd : SameDigested x y) (hu : SameUndigested x y) :
    r.importDurableState x = r.importDurableState y := by
  have hheader := header_eq _ _ hd.header
  have hschemas := Sections.eq_of_maps schema_eq hd.schemas hu.schemas
  have hrecords := Sections.eq_of_maps record_eq hd.capabilityHistory hu.capabilityHistory
  have hquirks := Sections.eq_of_maps quirk_eq hd.quirks hu.quirks
  have hfacts := Sections.eq_of_maps fact_eq hd.compatibility hu.compatibility
  have hmarks := Sections.eq_of_maps watermark_eq hd.publisherWatermarks hu.publisherWatermarks
  have hinventory : r.stageInventory x = r.stageInventory y := by
    unfold Impl.stageInventory
    rw [checkBounds_alike hd hu, subjects_alike hd hu, platforms_alike hd hu, hschemas]
  have hrest : r.stageRest x = r.stageRest y := by
    funext subjects platforms schemas keys
    unfold Impl.stageRest Impl.stagePublishers
    simp only [hquirks, hfacts, hmarks, fences_alike hd]
  have hfenced : x.fencedBoots.length = y.fencedBoots.length := by
    simpa using congrArg List.length hd.fencedBoots
  have hcommit : r.commit x = r.commit y := by
    funext staged
    unfold Impl.commit
    rw [hheader]
  have hreport : Impl.importReport x = Impl.importReport y := by
    funext staged
    unfold Impl.importReport
    rw [hschemas, hfenced]
  unfold Impl.importDurableState
  rw [hinventory, hrest, hrecords, hcommit, hreport]

end Restored

section Exactness
variable {x y : DurableState} {r : Impl} {staged staged' : Staged} {σ κ ω β : Type}

/-- A loop whose accepted steps enter each element under its key, and keep what was entered. -/
theorem entered_of_foldlM {f : σ → β → Except Error σ} (found : σ → κ → Option ω) (key : β → κ)
    (entry : β → ω)
    (hf : ∀ s b s', f s b = .ok s' → found s' (key b) = some (entry b) ∧
      ∀ k v, found s k = some v → found s' k = some v)
    {xs : List β} {s s' : σ} (h : xs.foldlM f s = .ok s') :
    (∀ k v, found s k = some v → found s' k = some v) ∧
      ∀ b ∈ xs, found s' (key b) = some (entry b) := by
  induction xs generalizing s with
  | nil =>
    obtain rfl := Except.ok.inj h
    exact ⟨fun _ _ hk => hk, fun b hb => by cases hb⟩
  | cons b rest ih =>
    rw [List.foldlM_cons, bind_eq_ok] at h
    obtain ⟨next, hn, hrest⟩ := h
    obtain ⟨hentered, hkept⟩ := hf s b next hn
    obtain ⟨hkeeps, henters⟩ := ih hrest
    refine ⟨fun k v hk => hkeeps k v (hkept k v hk), fun c hc => ?_⟩
    rcases List.mem_cons.mp hc with rfl | hc
    · exact hkeeps _ _ hentered
    · exact henters c hc

theorem insertIfNew_enters {α : Type} [Ord α] [Std.TransOrd α] [Std.LawfulEqOrd α] [DecidableEq α]
    {m : Std.ExtTreeMap α β} {k : α} {b : β} (hnone : m[k]? = none) :
    (m.insertIfNew k b)[k]? = some b ∧
      ∀ (k' : α) (v : β), m[k']? = some v → (m.insertIfNew k b)[k']? = some v := by
  rw [OrdMap.insertIfNew_of_none m hnone]
  refine ⟨OrdMap.getElem?_insert_self m k b, fun k' v hv => ?_⟩
  rw [OrdMap.getElem?_insert_eq, if_neg, hv]
  rintro rfl
  rw [hnone] at hv
  cases hv

theorem schemas_entered (h : Impl.Imports r x staged) : ∀ schema ∈ x.schemas,
    (staged.schemas.schemas[schema.id]?).map CapabilitySchema.undigested =
      some schema.undigested := by
  refine (entered_of_foldlM (fun s (id : CapabilitySchemaId) =>
    (s.schemas[id]?).map CapabilitySchema.undigested) CapabilitySchema.id
    CapabilitySchema.undigested (fun s schema s' hn => ?_) h.schemas).2
  simp only [stageSchema, status_bind_eq_ok] at hn
  obtain ⟨-, hn⟩ := hn
  split at hn
  · next known hk =>
    simp only [status_bind_eq_ok, require_eq_ok, pure, Except.pure, Except.ok.injEq,
      Bool.and_eq_true, beq_iff_eq] at hn
    obtain ⟨⟨⟨⟨⟨-, -⟩, hdomain⟩, hname⟩, hunit⟩, rfl⟩ := hn
    refine ⟨?_, fun _ _ hv => hv⟩
    rw [hk, Option.map_some, CapabilitySchema.undigested, CapabilitySchema.undigested, hdomain,
      hname, hunit]
  · next hs =>
    simp only [status_bind_eq_ok, require_eq_ok, pure, Except.pure, Except.ok.injEq] at hn
    obtain ⟨-, rfl⟩ := hn
    obtain ⟨hself, hkept⟩ := insertIfNew_enters (b := schema) hs
    refine ⟨congrArg (Option.map _) hself, fun k v hv => ?_⟩
    obtain ⟨known, hk, rfl⟩ := Option.map_eq_some_iff.mp hv
    exact congrArg (Option.map _) (hkept k known hk)

theorem quirks_entered (h : Impl.Imports r x staged) : ∀ quirk ∈ x.quirks,
    staged.quirks[quirk.id]? = some quirk := by
  refine (entered_of_foldlM (fun s (id : QuirkId) => s[id]?) QuirkRecord.id id
    (fun s quirk s' hn => ?_) h.quirks).2
  rw [stageQuirk_enters hn]
  simp only [stageQuirk, status_bind_eq_ok] at hn
  obtain ⟨-, hn⟩ := hn
  split at hn
  · cases hn
  · simp only [status_bind_eq_ok, require_eq_ok, Bool.not_eq_true'] at hn
    exact insertIfNew_enters (Std.ExtTreeMap.getElem?_eq_none_of_contains_eq_false hn.1)

theorem facts_entered (h : Impl.Imports r x staged) : ∀ fact ∈ x.compatibility,
    staged.compatibility[fact.id]? = some fact := by
  refine (entered_of_foldlM (fun s (id : CompatibilityFactId) => s[id]?) CompatibilityFact.id id
    (fun s fact s' hn => ?_) h.compatibility).2
  rw [stageCompatibility_enters hn]
  simp only [stageCompatibility, status_bind_eq_ok, require_eq_ok, Bool.not_eq_true'] at hn
  exact insertIfNew_enters (Std.ExtTreeMap.getElem?_eq_none_of_contains_eq_false hn.2.2.1)

/-- The watermark of a publisher and one of its boots. -/
def markedAt (staged : Publishers) (of : PublisherId × PublisherBootId) :
    Option PublisherWatermark :=
  ((staged[of.1]?).getD {}).watermarks[of.2]?

theorem watermarks_entered (h : Impl.Imports r x staged) : ∀ w ∈ x.publisherWatermarks,
    markedAt staged.publishers (w.publisher, w.boot) = some w := by
  obtain ⟨watermarked, hw, hf, -⟩ := Impl.stagePublishers_eq_ok h.publishers
  have hmarked := (entered_of_foldlM markedAt (fun w => (w.publisher, w.boot)) id
    (fun s w s' hn => ?_) hw).2
  · intro w hmem
    have hfences := (marks_stageFences hf w.publisher).1
    rw [markedAt, hfences]
    exact hmarked w hmem
  · have hlook := fun of : PublisherId × PublisherBootId => watermarks_stageWatermark hn of.1 of.2
    have hnew : markedAt s (w.publisher, w.boot) = none := by
      simp only [stageWatermark, status_bind_eq_ok, require_eq_ok, Bool.not_eq_true',
        watermarks_publisherOfWatermark] at hn
      exact Std.ExtTreeMap.getElem?_eq_none_of_contains_eq_false hn.2.1
    refine ⟨?_, fun k v hv => ?_⟩
    · rw [markedAt, hlook, ← markedAt, hnew]
      simp
    · rw [markedAt, hlook, ← markedAt, hv, Option.some_or]

/-- Two registries hold the same knowledge. -/
structure SameContents (r r' : Impl) : Prop where
  devices : r'.devices = r.devices
  platforms : r'.platforms = r.platforms
  schemas : r'.schemas = r.schemas
  keys : r'.keys = r.keys
  quirks : r'.quirks = r.quirks
  compatibility : r'.compatibility = r.compatibility
  publishers : r'.publishers = r.publishers

theorem SameContents.refl (r : Impl) : SameContents r r := ⟨rfl, rfl, rfl, rfl, rfl, rfl, rfl⟩

theorem platforms_found (h : Impl.Imports r x staged) (id : PlatformId) :
    staged.platforms[id]? = x.platforms.find? fun p => p.id = id := by
  have hstaged := foldlM_eq_ok (fun m => m) (fun _ _ _ => stagePlatform_enters) h.platforms
  have hempty : (∅ : Std.ExtTreeMap PlatformId PlatformIdentity)[id]? = none := by simp
  rw [hstaged, ← OrdMap.enter, OrdMap.getElem?_enter, hempty, Option.none_or]

theorem markedAt_commit (state : DurableState) (of : PublisherId × PublisherBootId) :
    markedAt (r.commit state staged).publishers of = markedAt staged.publishers of := by
  have hcommit : (r.commit state staged).publishers[of.1]? =
      (staged.publishers[of.1]?).map unrestoredPublisher := Std.ExtTreeMap.getElem?_map
  rw [markedAt, markedAt, hcommit]
  cases staged.publishers[of.1]? with
  | none => rfl
  | some publisher => rfl

theorem record_key (a b : CapabilityRecord) (h : recordFeed a = recordFeed b) :
    keyOf a = keyOf b := by
  simp only [recordFeed, List.cons.injEq, Mixed.text.injEq, ← Id.ext_iff] at h
  rw [keyOf, keyOf, h.1, h.2.1]

theorem watermark_key (a b : PublisherWatermark) (h : watermarkFeed a = watermarkFeed b) :
    (a.publisher, a.boot) = (b.publisher, b.boot) := by
  simp only [watermarkFeed, List.cons.injEq, Mixed.text.injEq, Mixed.word.injEq, ← Id.ext_iff,
    ← Gen.ext_iff] at h
  rw [h.1, h.2.1]

/-- Whatever an import restores of a file can be read back from the registry it leaves. -/
theorem undigested_of_contents (hd : SameDigested x y) (hx : Impl.Imports r x staged)
    (hy : Impl.Imports r y staged') (h : SameContents (r.commit x staged) (r.commit y staged')) :
    SameUndigested x y := by
  have hpasses : ∀ {state : DurableState}, checkBounds r.limits state = .ok () →
      state.passesDigest = true := fun hb => by
    simp only [checkBounds, require_bind_eq_ok] at hb
    exact hb.2.1
  have hdevices : staged'.subjects.devices = staged.subjects.devices := h.devices
  have hschemas : staged'.schemas.schemas = staged.schemas.schemas := h.schemas
  have hkeys : staged'.keys.keys = staged.keys.keys := h.keys
  have hquirks : staged'.quirks = staged.quirks := h.quirks
  have hfacts : staged'.compatibility = staged.compatibility := h.compatibility
  have hplatforms : staged'.platforms = staged.platforms := h.platforms
  have hmarks : ∀ of, markedAt staged'.publishers of = markedAt staged.publishers of := by
    intro of
    rw [← markedAt_commit y, ← markedAt_commit x, h.publishers]
  have hsubjects : x.subjects.map restoredDevice = y.subjects.map restoredDevice :=
    Sections.map_eq_of_found (fun id => staged.subjects.devices[id]?)
      (fun s : SubjectSnapshot => s.identity.id)
      (fun a b he => Id.ext (Mixed.text.inj (List.cons.inj he).1)) hd.subjects
      (fun s hs => (Impl.stageSubjects_spec hx.subjects).mpr (.inr ⟨s, hs, rfl, rfl⟩))
      fun s hs => hdevices ▸ (Impl.stageSubjects_spec hy.subjects).mpr (.inr ⟨s, hs, rfl, rfl⟩)
  have hschemas : x.schemas.map CapabilitySchema.undigested =
      y.schemas.map CapabilitySchema.undigested :=
    Sections.map_eq_of_found
      (fun id => (staged.schemas.schemas[id]?).map CapabilitySchema.undigested) CapabilitySchema.id
      (fun a b he => Id.ext (Mixed.text.inj (List.cons.inj he).1)) hd.schemas
      (schemas_entered hx) fun schema hm => hschemas ▸ schemas_entered hy schema hm
  have hrecords : x.capabilityHistory = y.capabilityHistory := by
    refine Sections.eq_of_filters (Sections.map_eq_of_maps (fun a b he _ => record_key a b he)
      hd.capabilityHistory hd.capabilityHistory) fun k => ?_
    have hx := historyAt_stageRecords hx.records k
    have hy := historyAt_stageRecords hy.records k
    rw [hkeys, hx] at hy
    exact List.append_cancel_left hy
  have hquirks : x.quirks.map id = y.quirks.map id :=
    Sections.map_eq_of_found (fun id => staged.quirks[id]?) QuirkRecord.id
      (fun a b he => Id.ext (Mixed.text.inj (List.cons.inj he).1)) hd.quirks
      (quirks_entered hx) (hquirks ▸ quirks_entered hy)
  have hfacts : x.compatibility.map id = y.compatibility.map id :=
    Sections.map_eq_of_found (fun id => staged.compatibility[id]?) CompatibilityFact.id
      (fun a b he => Id.ext (Mixed.text.inj (List.cons.inj he).1)) hd.compatibility
      (facts_entered hx) (hfacts ▸ facts_entered hy)
  have hmarks : x.publisherWatermarks.map id = y.publisherWatermarks.map id :=
    Sections.map_eq_of_found (markedAt staged.publishers) _ watermark_key hd.publisherWatermarks
      (watermarks_entered hx) fun w hw => (hmarks _).symm.trans (watermarks_entered hy w hw)
  rw [List.map_id, List.map_id] at hquirks hfacts hmarks
  constructor
  case passes => rw [hpasses hx.bounds, hpasses hy.bounds]
  case platforms =>
    intro id
    rw [← platforms_found hx, ← platforms_found hy, hplatforms]
  case subjects =>
    refine Sections.map_eq_of_maps (fun a b he _ => ?_) hsubjects hsubjects
    have hidentity : a.identity = b.identity := congrArg DeviceState.identity he
    have hsoftware : a.software = b.software := congrArg DeviceState.software he
    rw [SubjectSnapshot.undigested, SubjectSnapshot.undigested, hidentity, hsoftware]
  case schemas => exact hschemas
  case capabilityHistory => rw [hrecords]
  case quirks => rw [hquirks]
  case compatibility => rw [hfacts]
  case publisherWatermarks => rw [hmarks]

theorem accepts_iff {state : DurableState} : (r.importDurableState state).1.isOk = true ↔
    ∃ staged, Impl.Imports r state staged ∧
      (r.importDurableState state).2 = r.commit state staged := by
  generalize hout : r.importDurableState state = out
  obtain ⟨answer, r'⟩ := out
  cases answer with
  | error e =>
    refine iff_of_false Bool.false_ne_true ?_
    rintro ⟨staged, him, -⟩
    have hok := Impl.importDurableState_eq_ok.mpr ⟨staged, him, rfl, rfl⟩
    rw [hout] at hok
    cases (Prod.mk.inj hok).1
  | ok report =>
    obtain ⟨staged, him, -, hcommit⟩ := Impl.importDurableState_eq_ok.mp hout
    exact iff_of_true rfl ⟨staged, him, hcommit⟩

/-- Importing either file is refused or leaves the same knowledge. -/
structure ImportsAlike (r : Impl) (x y : DurableState) : Prop where
  accepted : (r.importDurableState x).1.isOk = (r.importDurableState y).1.isOk
  contents : (r.importDurableState x).1.isOk = true →
    SameContents (r.importDurableState x).2 (r.importDurableState y).2

/-- Files with one digested content import alike exactly when they agree in what is restored
beyond it, or are both refused. -/
theorem digest_covers_iff (hfeed : durableFeed x = durableFeed y) :
    ImportsAlike r x y ↔ SameUndigested x y ∨ ((r.importDurableState x).1.isOk = false ∧
      (r.importDurableState y).1.isOk = false) := by
  have hd := sameDigested_of_feed hfeed
  constructor
  · intro h
    cases hx : (r.importDurableState x).1.isOk with
    | false => exact .inr ⟨rfl, h.accepted ▸ hx⟩
    | true =>
      have hcontents := h.contents hx
      obtain ⟨staged, him, hcommit⟩ := accepts_iff.mp hx
      obtain ⟨staged', him', hcommit'⟩ := accepts_iff.mp (h.accepted ▸ hx)
      rw [hcommit, hcommit'] at hcontents
      exact .inl (undigested_of_contents hd him him' hcontents)
  · rintro (hu | ⟨hx, hy⟩)
    · have halike : r.importDurableState x = r.importDurableState y := import_alike hd hu
      exact ⟨by rw [halike], fun _ => by rw [halike]; exact .refl _⟩
    · exact ⟨hx.trans hy.symm, fun haccepted => by rw [hx] at haccepted; cases haccepted⟩

end Exactness

namespace Sample

/-- A file of one quirk, with its digest. -/
def quirkFile : DurableState :=
  let state : DurableState :=
    { header.formatVersion := stateFormatVersion
      quirks := [{
        id := Id.parse "quirk.a"
        quirkGeneration := .first
        title := "fp64 is emulated"
        severity := .fatal
        impactedCapabilities := [Id.parse "cap.compute.fp64"]
        source := { capability.source with publisher } }] }
  { state with canonicalDigest := canonicalDurableDigest state }

/-- The file with the quirk marked as withdrawn, under the same digest. -/
def withdrawnFile : DurableState :=
  { quirkFile with quirks := quirkFile.quirks.map fun quirk => { quirk with withdrawn := true } }

end Sample

theorem digest_covers_iff_withdrawn :
    ImportsAlike (Impl.fresh {}) Sample.quirkFile Sample.withdrawnFile ↔
      SameUndigested Sample.quirkFile Sample.withdrawnFile ∨
        (((Impl.fresh {}).importDurableState Sample.quirkFile).1.isOk = false ∧
          ((Impl.fresh {}).importDurableState Sample.withdrawnFile).1.isOk = false) :=
  digest_covers_iff rfl

/-- A quirk is withdrawn in the file without the digest check noticing it. -/
theorem altered_file_is_accepted :
    ¬ ∀ (limits : RegistryLimits) (x y : DurableState), durableFeed x = durableFeed y →
      ImportsAlike (Impl.fresh limits) x y := by
  intro h
  have halike := h {} Sample.quirkFile Sample.withdrawnFile rfl
  obtain ⟨haccepted, hquirk, hwithdrawn⟩ :
      ((Impl.fresh {}).importDurableState Sample.quirkFile).1.isOk = true ∧
        (((Impl.fresh {}).importDurableState Sample.quirkFile).2.quirks[
          (Id.parse "quirk.a" : QuirkId)]?).map QuirkRecord.withdrawn = some false ∧
        (((Impl.fresh {}).importDurableState Sample.withdrawnFile).2.quirks[
          (Id.parse "quirk.a" : QuirkId)]?).map QuirkRecord.withdrawn = some true := by
    rw [Impl.fresh_eq]
    decide +kernel
  rw [(halike.contents haccepted).quirks, hquirk] at hwithdrawn
  cases hwithdrawn

end CapabilityRegistry
