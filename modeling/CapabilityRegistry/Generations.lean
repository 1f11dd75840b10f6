import CapabilityRegistry.Lifetimes

/-! The counters of a device over the life of a registry: calls, and restarts from its own export. -/
namespace CapabilityRegistry

inductive SoftwareAxis
  | firmware | driver | runtime
deriving DecidableEq

namespace DeviceSoftwareState

def generationOn (s : DeviceSoftwareState) : SoftwareAxis → UInt64
  | .firmware => s.firmwareGeneration.value
  | .driver => s.driverGeneration.value
  | .runtime => s.runtimeGeneration.value

def identifiedOn (s : DeviceSoftwareState) : SoftwareAxis → Bool
  | .firmware => s.firmware.id.valid
  | .driver => s.driver.id.valid
  | .runtime => s.runtime.id.valid

/-- Both states name the same component in the same version. -/
def SameOn (s s' : DeviceSoftwareState) : SoftwareAxis → Prop
  | .firmware => s.firmware = s'.firmware
  | .driver => s.driver = s'.driver
  | .runtime => s.runtime = s'.runtime

end DeviceSoftwareState

section Axes
variable {Tag Component : Type} [DecidableEq Component] (identified : Component → Bool)
  {known observed merged : Component} {generation : Gen Tag}

/-- The generation of an axis moves exactly when another identified state is observed. -/
theorem lt_advanceGeneration_iff (hm : merged = if identified observed then observed else known)
    (hc : identified known = true → generation.valid = true)
    (hl : identified observed = true → known ≠ observed → generation ≠ Gen.last) :
    generation < advanceGeneration (identified merged) (!identified known || known != merged)
        generation ↔
      identified observed = true ∧ known ≠ observed := by
  subst hm
  by_cases ho : identified observed = true
  · by_cases he : known = observed
    · subst he
      simp [ho, advanceGeneration, hc ho, Gen.lt_irrefl]
    · refine iff_of_true (lt_advanceGeneration ?_ ?_ (hl ho he)) ⟨ho, he⟩
      · simp [ho]
      · simp [ho, he]
  · refine iff_of_false ?_ fun h => ho h.1
    by_cases hk : identified known = true
    · simp [ho, hk, advanceGeneration, hc hk, Gen.lt_irrefl]
    · simp [ho, hk, advanceGeneration, Gen.lt_irrefl]

/-- An identified axis has a generation, before and after an observation. -/
theorem valid_advanceGeneration (hm : merged = if identified observed then observed else known)
    (hl : identified observed = true → known ≠ observed → generation ≠ Gen.last)
    (hi : identified merged = true) :
    (advanceGeneration (identified merged) (!identified known || known != merged)
      generation).valid = true := by
  by_cases hc : (!identified known || known != merged) = true
  · have hlt : generation < advanceGeneration (identified merged)
        (!identified known || known != merged) generation := by
      refine lt_advanceGeneration hi hc ?_
      by_cases ho : identified observed = true
      · refine hl ho fun he => ?_
        subst he
        simp [hm, ho] at hc
      · simp [hm, ho] at hi hc
        simp [hi] at hc
    refine Gen.valid_iff.mpr fun he => ?_
    rw [he] at hlt
    exact Nat.not_lt_zero _ hlt
  · simp only [advanceGeneration, hi, hc, Bool.not_true, Bool.false_eq_true, if_false]
    split
    · assumption
    · rfl

end Axes

section Updates
variable {d d' d'' : DeviceState} {existing : DeviceState} {registration : DeviceRegistration}
  {explicitGeneration : Bool} {axis : SoftwareAxis} {known : Option DeviceState}

/-- No counter of the device went back. -/
structure Grows (d d' : DeviceState) : Prop where
  generation : d.generation ≤ d'.generation
  boot : d.boot ≤ d'.boot
  platform : d.platformGeneration ≤ d'.platformGeneration
  software : ∀ axis, d.software.generationOn axis ≤ d'.software.generationOn axis

theorem Grows.refl (d : DeviceState) : Grows d d :=
  ⟨Gen.le_refl _, Gen.le_refl _, Gen.le_refl _, fun _ => UInt64.le_refl _⟩

theorem Grows.trans (h : Grows d d') (h' : Grows d' d'') : Grows d d'' :=
  ⟨Gen.le_trans h.generation h'.generation, Gen.le_trans h.boot h'.boot,
    Gen.le_trans h.platform h'.platform,
    fun axis => UInt64.le_trans (h.software axis) (h'.software axis)⟩

/-- No counter that the registration advances is at its last value, the boot included. -/
structure Unexhausted (existing : DeviceState) (registration : DeviceRegistration)
    (explicitGeneration : Bool) : Prop where
  counters : Unwrapped existing registration explicitGeneration
  boot : deviceBoundary existing registration explicitGeneration = true →
    existing.boot ≠ Gen.last

theorem updateDevice_grows (h : Unexhausted existing registration explicitGeneration) :
    Grows existing (updateDevice existing registration explicitGeneration) := by
  have hf := updateDevice_follows h.counters
  refine ⟨hf.generation, ?_, hf.platform, fun axis => ?_⟩
  · simp only [updateDevice]
    split
    · next hb => exact Gen.le_next (h.boot hb)
    · exact Gen.le_refl _
  · cases axis with
    | firmware => exact hf.firmware
    | driver => exact hf.driver
    | runtime => exact hf.runtime

/-- An identified component has a generation. -/
def Numbered (software : DeviceSoftwareState) : Prop :=
  ∀ axis, software.identifiedOn axis = true → software.generationOn axis ≠ 0

theorem Numbered.valid {Tag : Type} {g : Gen Tag} {b : Bool} (h : b = true → g.value ≠ 0)
    (hb : b = true) : g.valid = true := by
  simpa [Gen.valid] using h hb

theorem value_ne_zero_of_valid {Tag : Type} {g : Gen Tag} (h : g.valid = true) : g.value ≠ 0 := by
  simpa [Gen.valid] using h

theorem numbered_createDevice (registration : DeviceRegistration) :
    Numbered (createDevice registration).software := by
  intro axis hi
  cases axis <;>
    simp_all [createDevice, DeviceSoftwareState.identifiedOn, DeviceSoftwareState.generationOn,
      Gen.first]

theorem numbered_updateDevice (h : Unexhausted existing registration explicitGeneration) :
    Numbered (updateDevice existing registration explicitGeneration).software := by
  intro axis hi
  cases axis with
  | firmware =>
    have hv := valid_advanceGeneration (fun c : FirmwareIdentity => c.id.valid) rfl
      h.counters.firmware hi
    exact value_ne_zero_of_valid hv
  | driver =>
    have hv := valid_advanceGeneration (fun c : DriverIdentity => c.id.valid) rfl
      h.counters.driver hi
    exact value_ne_zero_of_valid hv
  | runtime =>
    have hv := valid_advanceGeneration (fun c : RuntimeIdentity => c.id.valid) rfl
      h.counters.runtime hi
    exact value_ne_zero_of_valid hv

/-- An axis of a known device moves exactly when another identified state is registered. -/
theorem updateDevice_advances (hc : Numbered existing.software)
    (h : Unexhausted existing registration explicitGeneration) :
    existing.software.generationOn axis <
        (updateDevice existing registration explicitGeneration).software.generationOn axis ↔
      registration.software.identifiedOn axis = true ∧
        ¬ existing.software.SameOn registration.software axis := by
  cases axis with
  | firmware =>
    exact lt_advanceGeneration_iff (fun c : FirmwareIdentity => c.id.valid) rfl
      (Numbered.valid (hc .firmware)) h.counters.firmware
  | driver =>
    exact lt_advanceGeneration_iff (fun c : DriverIdentity => c.id.valid) rfl
      (Numbered.valid (hc .driver)) h.counters.driver
  | runtime =>
    exact lt_advanceGeneration_iff (fun c : RuntimeIdentity => c.id.valid) rfl
      (Numbered.valid (hc .runtime)) h.counters.runtime

/-- An axis left unidentified keeps its known state. -/
theorem updateDevice_keeps (hi : registration.software.identifiedOn axis = false) :
    (updateDevice existing registration explicitGeneration).software.SameOn existing.software
      axis := by
  cases axis <;>
    simp_all [updateDevice, mergeSoftware, DeviceSoftwareState.identifiedOn,
      DeviceSoftwareState.SameOn]

/-- The device an accepted registration leaves. -/
def registered (known : Option DeviceState) (registration : DeviceRegistration)
    (explicitGeneration : Bool) : DeviceState :=
  match known with
  | none => createDevice registration
  | some existing => updateDevice existing registration explicitGeneration

/-- The software known of a device: nothing while it is not registered. -/
def softwareOf (known : Option DeviceState) : DeviceSoftwareState :=
  (known.map DeviceState.software).getD {}

theorem registered_advances (hc : ∀ d, known = some d → Numbered d.software)
    (h : ∀ d, known = some d → Unexhausted d registration explicitGeneration) :
    (softwareOf known).generationOn axis <
        (registered known registration explicitGeneration).software.generationOn axis ↔
      registration.software.identifiedOn axis = true ∧
        ¬ (softwareOf known).SameOn registration.software axis := by
  cases known with
  | some existing => exact updateDevice_advances (hc _ rfl) (h _ rfl)
  | none =>
    have hone : (0 : UInt64) < 1 := by decide
    have created : ∀ {Tag : Type} (b : Bool), (0 : UInt64) <
        (if b then Gen.first else default : Gen Tag).value ↔ b = true := by
      intro Tag b
      cases b with
      | false => exact iff_of_false (UInt64.lt_irrefl 0) (by simp)
      | true => exact iff_of_true hone rfl
    -- an identified state differs from the empty one
    have differs : registration.software.identifiedOn axis = true →
        ¬ (softwareOf none).SameOn registration.software axis := by
      intro hi hs
      cases axis with
      | firmware =>
        have he : registration.software.firmware = {} := hs.symm
        simp [DeviceSoftwareState.identifiedOn, he] at hi
      | driver =>
        have he : registration.software.driver = {} := hs.symm
        simp [DeviceSoftwareState.identifiedOn, he] at hi
      | runtime =>
        have he : registration.software.runtime = {} := hs.symm
        simp [DeviceSoftwareState.identifiedOn, he] at hi
    rw [and_iff_left_of_imp differs]
    cases axis <;> exact created _

end Updates

namespace Impl
variable {r r' : Impl} {op : Op} {id : DeviceId} {axis : SoftwareAxis} {device : DeviceState}

section Calls
variable [StdLib] {now : Timestamp} {publication q : Publication}
  {registration : DeviceRegistration} {explicitGeneration : Bool} {result : ApplyResult}
  {publisher : PublisherStateInternal} {watermark : PublisherWatermark}

/-- The call registers a device and is answered as accepted. -/
inductive Enrolls (r : Impl) : Op → DeviceRegistration → Bool → Prop
  | mk (now : Timestamp) (publication : Publication)
      (kind : publication.kind = .registerDevice ∨ publication.kind = .publishDeviceGeneration)
      (accepted : (r.applyLocked now publication).1.code = .accepted) :
    Enrolls r (.apply now publication) publication.device
      (publication.kind == .publishDeviceGeneration)

/-- What one call does to the registered devices. -/
inductive DevicesMove (r : Impl) (op : Op) : Std.ExtTreeMap DeviceId DeviceState → Prop
  | registered (registration : DeviceRegistration) (explicitGeneration : Bool)
      (enrolls : Enrolls r op registration explicitGeneration)
      (only : ∀ registration' explicitGeneration', Enrolls r op registration' explicitGeneration' →
        registration' = registration ∧ explicitGeneration' = explicitGeneration) :
    DevicesMove r op (r.devices.insert registration.identity.id
      (registered (r.devices[registration.identity.id]?) registration explicitGeneration))
  | unmoved (unregistered : ∀ registration explicitGeneration,
      ¬ Enrolls r op registration explicitGeneration) : DevicesMove r op r.devices

theorem sequenceVerdict_ne_accepted (h : sequenceVerdict publisher watermark q = some result) :
    result.code ≠ .accepted := by
  unfold sequenceVerdict at h
  dsimp only at h
  repeat' split at h
  all_goals first | cases h; done | (obtain rfl := Option.some.inj h; simp)

omit [StdLib] in
theorem code_ne_accepted (h : result.accepted = false) : result.code ≠ .accepted := by
  intro he
  simp [ApplyResult.accepted, he, applyCodeAccepted] at h

omit [StdLib] in
/-- The device handler accepts a registration by registering the device. -/
theorem applyDevice_devices (r : Impl) (q : Publication) :
    ((r.applyDevice q).1.code = .accepted ∧ (r.applyDevice q).2.devices =
        r.devices.insert q.device.identity.id (registered (r.devices[q.device.identity.id]?) q.device
          (q.kind == .publishDeviceGeneration))) ∨
      ((r.applyDevice q).1.code ≠ .accepted ∧ (r.applyDevice q).2.devices = r.devices) := by
  unfold applyDevice
  dsimp only
  split
  · next unknown =>
    split
    · exact .inr ⟨by simp, rfl⟩
    · split
      · exact .inr ⟨by simp, rfl⟩
      · refine .inl ⟨rfl, ?_⟩
        rw [registerPlatform_devices, unknown]
        exact OrdMap.insertIfNew_of_none _ unknown
  · next existing known =>
    refine .inl ⟨rfl, ?_⟩
    rw [registerPlatform_devices, known]
    rfl

omit [StdLib] in
theorem applyPayload_devices (hn : ¬ (q.kind = .registerDevice ∨ q.kind = .publishDeviceGeneration)) :
    (r.applyPayload q).2.devices = r.devices := by
  have h := Impl.handled r q
  generalize r.applyPayload q = out at h
  cases h with
  | deviceAdded result unknown room familyRoom kind => exact (hn kind).elim
  | deviceUpdated result existing known kind => exact (hn kind).elim
  | evidence out kind evidenced => exact evidenced.devices
  | _ => rfl

omit [StdLib] in
theorem applyPayload_of_device (hk : q.kind = .registerDevice ∨ q.kind = .publishDeviceGeneration) :
    r.applyPayload q = r.applyDevice q := by
  unfold applyPayload
  rcases hk with hk | hk <;> simp [hk]

theorem applyLocked_devices (r : Impl) (now : Timestamp) (publication : Publication) :
    DevicesMove r (.apply now publication) (r.applyLocked now publication).2.devices := by
  have hi := ingested r now publication
  have refused : ∀ out, r.applyLocked now publication = out → out.1.code ≠ .accepted →
      out.2.devices = r.devices → DevicesMove r (.apply now publication) out.2.devices := by
    rintro out rfl hcode hd
    rw [hd]
    refine .unmoved fun _ _ h => ?_
    cases h with
    | mk _ _ kind accepted => exact hcode accepted
  have otherwise : ∀ q : Publication, r.prepare publication = .ok q →
      ¬ (q.kind = .registerDevice ∨ q.kind = .publishDeviceGeneration) →
      ∀ devices, devices = r.devices → DevicesMove r (.apply now publication) devices := by
    rintro q hp hk devices rfl
    refine .unmoved fun _ _ h => ?_
    cases h with
    | mk _ _ kind accepted => exact hk ((prepare_eq_ok hp).kind ▸ kind)
  generalize hout : r.applyLocked now publication = out at hi
  cases hi with
  | shuttingDown result running rejected => exact refused _ hout (code_ne_accepted rejected) rfl
  | unprepared result running unprepared =>
    exact refused _ hout (code_ne_accepted (prepare_eq_error unprepared)) rfl
  | schema q running prepared kind =>
    refine otherwise q prepared (by simp [kind]) _ ?_
    unfold applySchema
    split
    · rfl
    · next bound hb =>
      obtain ⟨-, -, -, -, rfl⟩ := registerCapabilitySchemaLocked_eq_ok hb
      rfl
  | registration q running prepared kind =>
    refine otherwise q prepared (by simp [kind]) _ ?_
    have hs := (registerPublisherLocked_sameInventory r now q.publisher q.reason).devices
    unfold applyRegistration
    dsimp only
    split <;> exact hs
  | unknownPublisher q result running prepared kind unregistered rejected =>
    exact refused _ hout (code_ne_accepted rejected) rfl
  | unauthorized q publisher result addressed refusal =>
    exact refused _ hout (code_ne_accepted (authorityRefusal_eq_some refusal)) rfl
  | repeated q publisher result addressed authority verdict accepted =>
    exact refused _ hout (sequenceVerdict_ne_accepted verdict) rfl
  | unsequenced q publisher result addressed authority verdict rejected =>
    exact refused _ hout (sequenceVerdict_ne_accepted verdict) rfl
  | handled q publisher addressed authority verdict =>
    have hp := prepare_eq_ok addressed.prepared
    have hs := (settle_sameInventory (r.applyPayload q).2 publisher
      (openWatermark publisher q.publisher) q (r.applyPayload q).1).devices
    by_cases hk : q.kind = .registerDevice ∨ q.kind = .publishDeviceGeneration
    · rcases applyDevice_devices r q with ⟨hcode, hd⟩ | ⟨hcode, hd⟩
      · rw [hs, applyPayload_of_device hk, hd, hp.device, hp.kind]
        refine .registered _ _ (.mk now publication (hp.kind ▸ hk) ?_) fun _ _ h => ?_
        · rw [hout, settle_code, applyPayload_of_device hk, hcode]
        · cases h with
          | mk _ _ kind accepted => exact ⟨rfl, rfl⟩
      · refine refused _ hout ?_ ?_
        · rw [settle_code, applyPayload_of_device hk]
          exact hcode
        · rw [hs, applyPayload_of_device hk, hd]
    · refine otherwise q addressed.prepared hk _ ?_
      rw [hs, applyPayload_devices hk]

theorem devicesMove (hop : ∀ state, op ≠ .importDurableState state) :
    DevicesMove r op (r.after op).devices := by
  by_cases ha : ∃ now publication, op = .apply now publication
  · obtain ⟨now, publication, rfl⟩ := ha
    exact applyLocked_devices r now publication
  · have hd : (r.after op).devices = r.devices := by
      have hc := changed r op
      generalize r.after op = r' at hc
      cases hc with
      | unchanged op r' same => exact same.devices
      | payload now publication => exact (ha ⟨now, publication, rfl⟩).elim
      | schema op schema bound r' registered same =>
        obtain ⟨-, -, -, -, rfl⟩ := registerCapabilitySchemaLocked_eq_ok registered
        exact same.devices
      | imported state => exact (hop state rfl).elim
      | importRefused state => exact (hop state rfl).elim
    rw [hd]
    refine .unmoved fun _ _ h => ?_
    cases h with
    | mk now publication => exact ha ⟨now, publication, rfl⟩

end Calls

section Restarts
variable {limits : RegistryLimits} {subjects subjects' : StagedSubjects} {subject : SubjectSnapshot}
  {list : List SubjectSnapshot}

theorem stageSubject_eq_ok (h : stageSubject limits subjects subject = .ok subjects') :
    subjects.devices[subject.identity.id]? = none ∧
      subjects'.devices = subjects.devices.insert subject.identity.id (restoredDevice subject) := by
  simp only [stageSubject, status_bind_eq_ok, require_eq_ok, pure, Except.pure, Except.ok.injEq,
    Bool.not_eq_true'] at h
  obtain ⟨-, -, -, hd, -, rfl⟩ := h
  have hd : subjects.devices[subject.identity.id]? = none := by
    rw [Std.ExtTreeMap.contains_eq_isSome_getElem?] at hd
    exact Option.not_isSome_iff_eq_none.mp (by simp only [hd, Bool.false_eq_true, not_false_eq_true])
  exact ⟨hd, OrdMap.insertIfNew_of_none _ hd⟩

/-- The devices a file restores: those staged before it and its subjects. -/
theorem stageSubjects_spec (h : list.foldlM (stageSubject limits) subjects = .ok subjects') :
    subjects'.devices[id]? = some device ↔ subjects.devices[id]? = some device ∨
      ∃ subject ∈ list, subject.identity.id = id ∧ restoredDevice subject = device := by
  induction list generalizing subjects with
  | nil =>
    obtain rfl := Except.ok.inj h
    simp
  | cons subject rest ih =>
    rw [List.foldlM_cons, bind_eq_ok] at h
    obtain ⟨next, hn, hrest⟩ := h
    obtain ⟨hnone, hd⟩ := stageSubject_eq_ok hn
    rw [ih hrest, hd, OrdMap.getElem?_insert_eq]
    by_cases he : subject.identity.id = id
    · subst he
      simp [hnone]
    · simp [he]

variable [StdLib] {now : Timestamp} {state : DurableState} {staged : Staged}

/-- Devices are entered under their own identity. -/
def DevicesNamed (r : Impl) : Prop :=
  ∀ (id : DeviceId) (device : DeviceState), r.devices[id]? = some device → device.identity.id = id

/-- A device as its own export restores it. -/
def rebuilt (device : DeviceState) : DeviceState :=
  { device with
    platformGeneration :=
      if device.platformGeneration.valid then device.platformGeneration else .first }

theorem restoredDevice_buildSubject (r : Impl) (device : DeviceState)
    (environment : EnvironmentContext) :
    restoredDevice (r.buildSubject device environment) = rebuilt device := by
  unfold buildSubject
  split <;> rfl

theorem buildSubject_identity (r : Impl) (device : DeviceState)
    (environment : EnvironmentContext) :
    (r.buildSubject device environment).identity = device.identity := by
  unfold buildSubject
  split <;> rfl

theorem mem_subjects_export {subject : SubjectSnapshot} :
    subject ∈ (r.exportDurableState now).subjects ↔
      ∃ e ∈ r.devices.toList, r.buildSubject e.2 {} = subject := by
  simp only [exportDurableState, exportContents, SortLib.mem_sortWith, List.mem_map]

/-- A registry that imports the export of another has that one's devices. -/
theorem imports_devices (h : Imports r (r'.exportDurableState now) staged) (hn : r'.DevicesNamed) :
    (r.commit (r'.exportDurableState now) staged).devices[id]? = (r'.devices[id]?).map rebuilt := by
  change staged.subjects.devices[id]? = _
  refine Option.ext fun device => ?_
  rw [stageSubjects_spec h.subjects, Option.map_eq_some_iff]
  constructor
  · rintro (hs | ⟨subject, hs, hid, rfl⟩)
    · simp at hs
    · obtain ⟨⟨id', known⟩, he, rfl⟩ := mem_subjects_export.mp hs
      have hk := OrdMap.mem_toList.mp he
      rw [buildSubject_identity, hn _ _ hk] at hid
      subst hid
      exact ⟨known, hk, (restoredDevice_buildSubject _ _ _).symm⟩
  · rintro ⟨known, hk, rfl⟩
    refine .inr ⟨r'.buildSubject known {}, mem_subjects_export.mpr
      ⟨(id, known), OrdMap.mem_toList.mpr hk, rfl⟩, ?_, restoredDevice_buildSubject _ _ _⟩
    rw [buildSubject_identity]
    exact hn _ _ hk

end Restarts

end Impl

/-- A turn in the life of a registry: a call, or a restart that imports its own export. -/
inductive Turn
  | call (op : Op)
  | restart (limits : RegistryLimits) (now : Timestamp)

namespace Impl
variable [StdLib] {r : Impl} {turn : Turn} {turns turns' : List Turn} {limits : RegistryLimits}
  {id : DeviceId} {axis : SoftwareAxis} {device : DeviceState}

/-- The state after one turn. A registry whose import is refused does not start. -/
def turned (r : Impl) : Turn → Impl
  | .call op => r.after op
  | .restart limits now =>
    match (Impl.fresh limits).importDurableState (r.exportDurableState now) with
    | (.ok _, restored) => restored
    | (.error _, _) => r

/-- The turn imports nothing but the registry's own export and exhausts no device counter. -/
def Within (r : Impl) : Turn → Prop
  | .call op => (∀ state, op ≠ .importDurableState state) ∧
      ∀ existing registration explicitGeneration,
        Updates r op existing registration explicitGeneration →
        Unexhausted existing registration explicitGeneration
  | .restart _ _ => True

/-- Devices are entered under their own identity, and an identified component has a generation. -/
structure Inventoried (r : Impl) : Prop where
  named : r.DevicesNamed
  numbered : ∀ (id : DeviceId) (device : DeviceState), r.devices[id]? = some device →
    Numbered device.software

theorem Enrolls.updates {op : Op} {registration : DeviceRegistration} {explicitGeneration : Bool}
    (h : Enrolls r op registration explicitGeneration)
    (hd : r.devices[registration.identity.id]? = some device) :
    Updates r op device registration explicitGeneration := by
  cases h with
  | mk now publication kind accepted => exact .mk now publication device kind hd

omit [StdLib] in
theorem inventoried_fresh (limits : RegistryLimits) : (Impl.fresh limits).Inventoried := by
  constructor <;> intro id device hd <;> simp [Impl.fresh] at hd

omit [StdLib] in
theorem registered_named {known : Option DeviceState} {registration : DeviceRegistration}
    {explicitGeneration : Bool}
    (h : ∀ d, known = some d → d.identity.id = registration.identity.id) :
    (registered known registration explicitGeneration).identity.id = registration.identity.id := by
  cases known with
  | none => rfl
  | some d => exact h d rfl

theorem Inventoried.after {op : Op} (h : r.Inventoried) (hb : r.Within (.call op)) :
    (r.after op).Inventoried := by
  have hm := devicesMove (r := r) hb.1
  generalize hr : (r.after op).devices = devices at hm
  have key : ∀ (id : DeviceId) (device : DeviceState), devices[id]? = some device →
      device.identity.id = id ∧ Numbered device.software := by
    intro id device hd
    cases hm with
    | unmoved => exact ⟨h.named id device hd, h.numbered id device hd⟩
    | registered registration explicitGeneration enrolls =>
      rw [OrdMap.getElem?_insert_eq] at hd
      split at hd
      · next he =>
        obtain rfl := Option.some.inj hd
        refine ⟨(registered_named fun d hk => h.named _ d hk).trans he, ?_⟩
        cases hk : r.devices[registration.identity.id]? with
        | none => exact numbered_createDevice registration
        | some existing =>
          exact numbered_updateDevice (hb.2 _ _ _ (enrolls.updates hk))
      · exact ⟨h.named id device hd, h.numbered id device hd⟩
  exact ⟨fun id device hd => (key id device (hr ▸ hd)).1,
    fun id device hd => (key id device (hr ▸ hd)).2⟩

/-- The devices after a restart, whether it was accepted or not. -/
theorem restart_devices (h : r.DevicesNamed) (limits : RegistryLimits) (now : Timestamp) :
    (∀ id : DeviceId, (r.turned (.restart limits now)).devices[id]? = r.devices[id]?) ∨
      ∀ id : DeviceId, (r.turned (.restart limits now)).devices[id]? = (r.devices[id]?).map rebuilt := by
  cases hi : (Impl.fresh limits).importDurableState (r.exportDurableState now) with
  | mk result restored =>
    cases result with
    | error e =>
      have ht : r.turned (.restart limits now) = r := by simp only [turned, hi]
      rw [ht]
      exact .inl fun _ => rfl
    | ok report =>
      have ht : r.turned (.restart limits now) = restored := by simp only [turned, hi]
      rw [ht]
      obtain ⟨staged, him, -, rfl⟩ := importDurableState_eq_ok.mp hi
      exact .inr fun id => imports_devices him h

theorem Inventoried.turned (h : r.Inventoried) (hb : r.Within turn) : (r.turned turn).Inventoried := by
  cases turn with
  | call op => exact h.after hb
  | restart limits now =>
    have key : ∀ (id : DeviceId) (device : DeviceState),
        (r.turned (.restart limits now)).devices[id]? = some device →
        device.identity.id = id ∧ Numbered device.software := by
      intro id device hd
      rcases restart_devices h.named limits now with he | he
      · rw [he] at hd
        exact ⟨h.named id device hd, h.numbered id device hd⟩
      · rw [he] at hd
        obtain ⟨known, hk, rfl⟩ := Option.map_eq_some_iff.mp hd
        exact ⟨h.named id known hk, h.numbered id known hk⟩
    exact ⟨fun id device hd => (key id device hd).1, fun id device hd => (key id device hd).2⟩

/-- What a turn does to the counters of the devices: none goes back, a software counter moves
exactly with an accepted registration of another identified state, and a registration that leaves
an axis unidentified keeps what is known of it. -/
structure Monotone (r : Impl) (turn : Turn) : Prop where
  grows : ∀ (id : DeviceId) (device : DeviceState), r.devices[id]? = some device →
    ∃ device', (r.turned turn).devices[id]? = some device' ∧ Grows device device'
  advances : ∀ (id : DeviceId) (axis : SoftwareAxis),
    (softwareOf r.devices[id]?).generationOn axis <
        (softwareOf (r.turned turn).devices[id]?).generationOn axis ↔
      ∃ op registration explicitGeneration, turn = .call op ∧
        Enrolls r op registration explicitGeneration ∧ registration.identity.id = id ∧
        registration.software.identifiedOn axis = true ∧
        ¬ (softwareOf r.devices[id]?).SameOn registration.software axis
  keeps : ∀ op registration explicitGeneration, turn = .call op →
    Enrolls r op registration explicitGeneration → ∀ axis,
    registration.software.identifiedOn axis = false →
    ∀ known : DeviceState, r.devices[registration.identity.id]? = some known →
    ∃ device', (r.turned turn).devices[registration.identity.id]? = some device' ∧
      device'.software.SameOn known.software axis

theorem monotone_call {op : Op} (h : r.Inventoried) (hb : r.Within (.call op)) :
    r.Monotone (.call op) := by
  have hm := devicesMove (r := r) hb.1
  change DevicesMove r op (r.turned (.call op)).devices at hm
  generalize hr : (r.turned (.call op)).devices = devices at hm
  cases hm with
  | unmoved unregistered =>
    refine ⟨fun id device hd => ⟨device, by rw [hr, hd], Grows.refl device⟩, fun id axis => ?_, ?_⟩
    · rw [hr]
      refine iff_of_false (UInt64.lt_irrefl _) ?_
      rintro ⟨op', registration, explicitGeneration, he, henrolls, -⟩
      obtain rfl := Turn.call.inj he
      exact unregistered _ _ henrolls
    · intro op' registration explicitGeneration he henrolls
      obtain rfl := Turn.call.inj he
      exact (unregistered _ _ henrolls).elim
  | registered registration explicitGeneration enrolls only =>
    have hex : ∀ d, r.devices[registration.identity.id]? = some d →
        Unexhausted d registration explicitGeneration := fun d hd => hb.2 _ _ _ (enrolls.updates hd)
    refine ⟨fun id device hd => ?_, fun id axis => ?_, ?_⟩
    · rw [hr, OrdMap.getElem?_insert_eq]
      by_cases he : registration.identity.id = id
      · subst he
        rw [if_pos rfl, hd]
        exact ⟨_, rfl, updateDevice_grows (hex device hd)⟩
      · rw [if_neg he]
        exact ⟨device, hd, Grows.refl device⟩
    · rw [hr, OrdMap.getElem?_insert_eq]
      by_cases he : registration.identity.id = id
      · subst he
        rw [if_pos rfl]
        have hnumbered : ∀ d, r.devices[registration.identity.id]? = some d → Numbered d.software :=
          fun d hd => h.numbered _ d hd
        refine (registered_advances hnumbered hex).trans ⟨fun hi => ?_, ?_⟩
        · exact ⟨op, registration, explicitGeneration, rfl, enrolls, rfl, hi⟩
        · rintro ⟨op', registration', explicitGeneration', ho, henrolls, -, hi⟩
          obtain rfl := Turn.call.inj ho
          obtain ⟨rfl, -⟩ := only _ _ henrolls
          exact hi
      · rw [if_neg he]
        refine iff_of_false (UInt64.lt_irrefl _) ?_
        rintro ⟨op', registration', explicitGeneration', ho, henrolls, hid, -⟩
        obtain rfl := Turn.call.inj ho
        obtain ⟨rfl, -⟩ := only _ _ henrolls
        exact he hid
    · intro op' registration' explicitGeneration' ho henrolls axis hi known hk
      obtain rfl := Turn.call.inj ho
      obtain ⟨rfl, -⟩ := only _ _ henrolls
      rw [hr, OrdMap.getElem?_insert_self, hk]
      exact ⟨_, rfl, updateDevice_keeps hi⟩

omit [StdLib] in
theorem rebuilt_grows (device : DeviceState) : Grows device (rebuilt device) := by
  refine ⟨Gen.le_refl _, Gen.le_refl _, ?_, fun axis => UInt64.le_refl _⟩
  simp only [rebuilt]
  split
  · exact Gen.le_refl _
  · next hv =>
    rw [eq_default_of_not_valid hv]
    exact Gen.le_of_lt default_lt_first

omit [StdLib] in
theorem softwareOf_rebuilt (known : Option DeviceState) :
    softwareOf (known.map rebuilt) = softwareOf known := by
  cases known <;> rfl

theorem monotone_restart (h : r.Inventoried) (limits : RegistryLimits) (now : Timestamp) :
    r.Monotone (.restart limits now) := by
  have hd := restart_devices h.named limits now
  refine ⟨fun id device hk => ?_, fun id axis => ?_, ?_⟩
  · rcases hd with hd | hd
    · exact ⟨device, by rw [hd, hk], Grows.refl device⟩
    · exact ⟨rebuilt device, by rw [hd, hk]; rfl, rebuilt_grows device⟩
  · have hs : softwareOf (r.turned (.restart limits now)).devices[id]? =
        softwareOf r.devices[id]? := by
      rcases hd with hd | hd
      · rw [hd]
      · rw [hd, softwareOf_rebuilt]
    rw [hs]
    refine iff_of_false (UInt64.lt_irrefl _) ?_
    rintro ⟨op, registration, explicitGeneration, he, -⟩
    cases he
  · intro op registration explicitGeneration he
    cases he

theorem Inventoried.monotone (h : r.Inventoried) (hb : r.Within turn) : r.Monotone turn := by
  cases turn with
  | call op => exact monotone_call h hb
  | restart limits now => exact monotone_restart h limits now

/-- The devices of one state are all known in a later one, with no counter gone back. -/
def Continues (r r' : Impl) : Prop :=
  ∀ (id : DeviceId) (device : DeviceState), r.devices[id]? = some device →
    ∃ device', r'.devices[id]? = some device' ∧ Grows device device'

/-- Over every life of a registry in which no device counter is exhausted, the counters of every
device are monotone at each turn and between any two points. -/
theorem generations_are_monotone
    (h : Machine.Along turned Within (Impl.fresh limits) (turns ++ turns')) :
    Machine.Along turned Monotone (Impl.fresh limits) (turns ++ turns') ∧
      Continues (turns.foldl turned (Impl.fresh limits))
        (turns'.foldl turned (turns.foldl turned (Impl.fresh limits))) := by
  have hall := h.with_invariant (P := Inventoried) (inventoried_fresh limits)
    fun r turn hr hb => hr.turned hb
  refine ⟨hall.mono fun r turn hb => hb.1.monotone hb.2, ?_⟩
  have hlater := (Machine.along_append.mp hall).2
  generalize turns.foldl turned (Impl.fresh limits) = r at hlater
  refine hlater.invariant (P := Continues r) (fun id device hd => ⟨device, hd, Grows.refl device⟩)
    fun s turn hc hb id device hd => ?_
  obtain ⟨device', hd', hg⟩ := hc id device hd
  obtain ⟨device'', hd'', hg'⟩ := (hb.1.monotone hb.2).grows id device' hd'
  exact ⟨device'', hd'', hg.trans hg'⟩

/-- A device registered again with another driver, then a restart. -/
def redriven : List Turn :=
  [.call Sample.registration, .call (.apply Sample.now (Sample.deviceRegistration 1 Sample.device)),
    .call (.apply Sample.now (Sample.deviceRegistration 2
      { Sample.device with software.driver := { id := Id.parse "driver.a", version := "1" } })),
    .restart {} Sample.now]

omit [StdLib] in
theorem unexhausted_of_ne_last {existing : DeviceState} {registration : DeviceRegistration}
    {explicitGeneration : Bool} (h : existing.generation ≠ Gen.last ∧ existing.boot ≠ Gen.last ∧
      existing.platformGeneration ≠ Gen.last ∧ existing.software.driverGeneration ≠ Gen.last ∧
      existing.software.firmwareGeneration ≠ Gen.last ∧
      existing.software.runtimeGeneration ≠ Gen.last) :
    Unexhausted existing registration explicitGeneration := by
  obtain ⟨hg, hb, hp, hd, hf, hr⟩ := h
  exact ⟨⟨fun _ => hg, fun _ => hp, fun _ _ => hd, fun _ _ => hf, fun _ _ => hr⟩, fun _ => hb⟩

omit [StdLib] in
theorem generations_are_monotone_redriven :
    letI := StdLib.reference
    Machine.Along turned Monotone (Impl.fresh {}) (redriven ++ []) ∧
      Continues (redriven.foldl turned (Impl.fresh {}))
        ([].foldl turned (redriven.foldl turned (Impl.fresh {}))) := by
  let := StdLib.reference
  refine generations_are_monotone ⟨⟨?_, ?_⟩, ⟨?_, ?_⟩, ⟨?_, ?_⟩, trivial, trivial⟩
  · intro state h
    cases h
  · intro existing registration explicitGeneration h
    cases h
  · intro state h
    cases h
  · intro existing registration explicitGeneration h
    have hnone : ((Impl.fresh {}).after Sample.registration).devices[
        (Id.parse "dev.a" : DeviceId)]? = none := by
      decide
    cases h with
    | mk now publication existing kind known => exact nomatch hnone.symm.trans known
  · intro state h
    cases h
  · intro existing registration explicitGeneration h
    have hlow : ∀ device ∈ ((Impl.fresh {}).run Sample.setup).devices[(Id.parse "dev.a" : DeviceId)]?,
        device.generation ≠ Gen.last ∧ device.boot ≠ Gen.last ∧
        device.platformGeneration ≠ Gen.last ∧ device.software.driverGeneration ≠ Gen.last ∧
        device.software.firmwareGeneration ≠ Gen.last ∧
        device.software.runtimeGeneration ≠ Gen.last := by
      decide
    cases h with
    | mk now publication existing kind known => exact unexhausted_of_ne_last (hlow _ known)

end Impl

end CapabilityRegistry
