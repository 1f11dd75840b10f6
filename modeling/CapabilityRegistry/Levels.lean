import CapabilityRegistry.Listings

/-! The hardware families, models and architectures a compatibility reference may name, and the
devices that carry them. -/
namespace CapabilityRegistry

/-- The identity levels that group devices. -/
inductive HardwareLevel
  | family | model | architecture
deriving DecidableEq

def HardwareLevel.referenceKind : HardwareLevel → HardwareReferenceKind
  | .family => .hardwareFamily
  | .model => .hardwareModel
  | .architecture => .architecture

/-- The name of the hardware on a level, empty while it is not set. -/
def HardwareIdentity.on (hardware : HardwareIdentity) : HardwareLevel → Text
  | .family => hardware.family.str
  | .model => hardware.model.str
  | .architecture => hardware.architecture.str

theorem normalize_on (hardware : HardwareIdentity) (level : HardwareLevel) :
    (normalizeHardwareIdentity hardware).on level = hardware.on level := by
  cases level <;> rfl

/-- Some of the devices carries the name on the level. -/
def Carried (devices : Std.ExtTreeMap DeviceId DeviceState) (level : HardwareLevel)
    (name : Text) : Prop :=
  name ≠ [] ∧ ∃ (id : DeviceId) (device : DeviceState), devices[id]? = some device ∧
    device.identity.hardware.on level = name

section Sets
variable {Tag : Type} {ids : Std.ExtTreeSet (Id Tag)} {id : Id Tag} {name : Text}

theorem parse_eq_iff : (id.valid = true ∧ id = Id.parse name) ↔ name ≠ [] ∧ id.str = name := by
  constructor
  · rintro ⟨hv, rfl⟩
    unfold Id.parse at hv ⊢
    split
    · next hc => exact ⟨fun he => by simp [he, isCanonicalToken] at hc, rfl⟩
    · next hc => simp [hc] at hv
  · rintro ⟨hne, rfl⟩
    exact ⟨Id.valid_iff.mpr hne, id.parse_str.symm⟩

/-- Adding an identity level adds its name, unless it is not set. -/
theorem contains_insertValid : (insertValid ids id).contains (Id.parse name) = true ↔
    ids.contains (Id.parse name) = true ∨ (name ≠ [] ∧ id.str = name) := by
  rw [← parse_eq_iff]
  unfold insertValid
  split
  · next hv =>
    rw [Std.ExtTreeSet.contains_insert, Bool.or_eq_true, beq_iff_eq,
      Std.LawfulEqOrd.compare_eq_iff_eq, or_comm, and_iff_right hv]
  · next hv => simp [hv]

end Sets

/-- The staged devices and levels know the name. -/
def StagedSubjects.knows (staged : StagedSubjects) (level : HardwareLevel) (name : Text) : Bool :=
  match level with
  | .family => staged.families.contains (Id.parse name)
  | .model => staged.models.contains (Id.parse name)
  | .architecture => staged.architectures.contains (Id.parse name)

namespace Impl
variable {r r' : Impl} {op : Op} {ops : List Op} {limits : RegistryLimits} {id : DeviceId}
  {device : DeviceState} {level : HardwareLevel} {name : Text} {q : Publication}

/-- A reference to the name on the level resolves. -/
def knows (r : Impl) (level : HardwareLevel) (name : Text) : Bool :=
  r.referenceResolves { kind := level.referenceKind, token := name }

/-- The names a reference may have are those of the registered devices. -/
def LevelsAgree (r : Impl) : Prop :=
  ∀ level name, r.knows level name = true ↔ Carried r.devices level name

section Sets

theorem knows_of_sets (hf : r'.families = r.families) (hm : r'.models = r.models)
    (ha : r'.architectures = r.architectures) (level : HardwareLevel) (name : Text) :
    r'.knows level name = r.knows level name := by
  cases level <;> simp only [knows, referenceResolves, HardwareLevel.referenceKind, hf, hm, ha]

theorem knows_registerPlatform (r : Impl) (platform : PlatformIdentity) (level : HardwareLevel)
    (name : Text) : (r.registerPlatform platform).knows level name = r.knows level name := by
  unfold registerPlatform
  repeat' split
  all_goals first
    | rfl
    | exact knows_of_sets (by rfl) (by rfl) (by rfl) level name

/-- A new device makes its own names known. -/
theorem knows_addDevice (registration : DeviceRegistration) :
    (r.addDevice registration).knows level name = true ↔
      r.knows level name = true ∨
        (name ≠ [] ∧ registration.identity.hardware.on level = name) := by
  cases level <;> exact contains_insertValid

theorem knows_makeRoom (r : Impl) (level : HardwareLevel) (name : Text) :
    r.makeRoom.knows level name = r.knows level name := by
  unfold makeRoom
  split
  · exact knows_of_sets (by rfl) (by rfl) (by rfl) level name
  · rfl

theorem Opens.knows {record : CapabilityRecord} {key : KeyState} (h : Opens r record key r')
    (level : HardwareLevel) (name : Text) : r'.knows level name = r.knows level name := by
  cases h with
  | existing => rfl
  | created => exact knows_of_sets (by rfl) (by rfl) (by rfl) level name

end Sets

section Calls
variable [StdLib]

omit [StdLib] in
/-- Evidence names nothing. -/
theorem Evidenced.knows {out : ApplyResult × Impl} (h : Evidenced r q out) (level : HardwareLevel)
    (name : Text) : out.2.knows level name = r.knows level name := by
  have room : ∀ {r' : Impl} {record device key}, Fresh r record device key r' →
      (r'.bumped key record device).makeRoom.knows level name = r.knows level name := by
    intro r' record device key fresh
    rw [knows_makeRoom, ← fresh.opens.knows level name]
    exact knows_of_sets (by rfl) (by rfl) (by rfl) level name
  cases h with
  | ungoverned record device key r' result admitted opens => exact opens.knows level name
  | repeated record device key r' result admitted opens => exact opens.knows level name
  | saturated record device key r' result admitted fresh => exact room fresh
  | recorded record device key r' result admitted fresh =>
    rw [← room fresh]
    exact knows_of_sets (by rfl) (by rfl) (by rfl) level name
  | _ => rfl

/-- What a call other than an import does to the names: a first registration adds those of its
device, and no other call adds a device. -/
theorem names_after (hop : ∀ state, op ≠ .importDurableState state) :
    (∃ registration : DeviceRegistration, r.devices[registration.identity.id]? = none ∧
      (r.after op).devices =
        r.devices.insert registration.identity.id (createDevice registration) ∧
      ∀ level name, (r.after op).knows level name = true ↔ r.knows level name = true ∨
        (name ≠ [] ∧ registration.identity.hardware.on level = name)) ∨
    ((∀ level name, (r.after op).knows level name = r.knows level name) ∧
      ∀ id : DeviceId, r.devices[id]? = none → (r.after op).devices[id]? = none) := by
  have hc := changed r op
  generalize r.after op = r' at hc
  cases hc with
  | unchanged op r' same =>
    exact .inr ⟨knows_of_sets same.families same.models same.architectures,
      fun id hid => same.devices ▸ hid⟩
  | schema op schema bound r' registered same =>
    obtain ⟨-, -, -, -, rfl⟩ := registerCapabilitySchemaLocked_eq_ok registered
    exact .inr ⟨knows_of_sets same.families same.models same.architectures,
      fun id hid => same.devices ▸ hid⟩
  | imported state => exact (hop state rfl).elim
  | importRefused state => exact (hop state rfl).elim
  | payload now publication q publisher r' addressed authority verdict same =>
    have hk := knows_of_sets same.families same.models same.architectures
    have hd := same.devices
    have hh := handled r q
    generalize r.applyPayload q = out at hh hk hd
    cases hh with
    | deviceAdded result unknown room familyRoom kind =>
      refine .inl ⟨q.device, unknown, ?_, fun level name => ?_⟩
      · rw [hd, registerPlatform_devices]
        exact OrdMap.insertIfNew_of_none _ unknown
      · rw [hk, knows_registerPlatform]
        exact knows_addDevice q.device
    | deviceUpdated result existing known kind =>
      refine .inr ⟨fun level name => ?_, fun id hid => ?_⟩
      · rw [hk, knows_registerPlatform]
        exact knows_of_sets (by rfl) (by rfl) (by rfl) level name
      · rw [hd, registerPlatform_devices, OrdMap.getElem?_insert_eq, if_neg]
        · exact hid
        · rintro rfl
          rw [known] at hid
          cases hid
    | evidence out kind evidenced =>
      exact .inr ⟨fun level name => (hk level name).trans (evidenced.knows level name),
        fun id hid => by rw [hd, evidenced.devices, hid]⟩
    | _ => exact .inr ⟨hk, fun id hid => hd ▸ hid⟩

end Calls

section Steps
variable {existing : DeviceState} {staged : StagedSubjects} {subject : SubjectSnapshot}

/-- Another device than the one meant carries the name on the level. -/
def CarriedElsewhere (r : Impl) (id : DeviceId) (level : HardwareLevel) (name : Text) : Prop :=
  ∃ (other : DeviceId) (device : DeviceState), other ≠ id ∧ r.devices[other]? = some device ∧
    device.identity.hardware.on level = name

theorem carried_insert : Carried (r.devices.insert id device) level name ↔
    name ≠ [] ∧
      (device.identity.hardware.on level = name ∨ r.CarriedElsewhere id level name) := by
  refine and_congr_right fun _ => ?_
  constructor
  · rintro ⟨other, found, hf, hn⟩
    rw [OrdMap.getElem?_insert_eq] at hf
    split at hf
    · obtain rfl := Option.some.inj hf
      exact .inl hn
    · next hne => exact .inr ⟨other, found, fun he => hne he.symm, hf, hn⟩
  · rintro (hn | ⟨other, found, hne, hf, hn⟩)
    · exact ⟨id, device, OrdMap.getElem?_insert_self _ _ _, hn⟩
    · refine ⟨other, found, ?_, hn⟩
      rw [OrdMap.getElem?_insert_eq, if_neg fun he => hne he.symm, hf]

theorem carried_of_known (hd : r.devices[id]? = some device) :
    Carried r.devices level name ↔ name ≠ [] ∧
      (device.identity.hardware.on level = name ∨ r.CarriedElsewhere id level name) := by
  rw [← carried_insert, OrdMap.insert_of_some _ hd]

theorem carried_insert_of_unknown {devices : Std.ExtTreeMap DeviceId DeviceState}
    (hd : devices[id]? = none) : Carried (devices.insert id device) level name ↔
      Carried devices level name ∨
        (name ≠ [] ∧ device.identity.hardware.on level = name) := by
  rw [Carried, Carried, ← and_or_left]
  refine and_congr_right fun _ => ?_
  constructor
  · rintro ⟨other, found, hf, hn⟩
    rw [OrdMap.getElem?_insert_eq] at hf
    split at hf
    · obtain rfl := Option.some.inj hf
      exact .inr hn
    · exact .inl ⟨other, found, hf, hn⟩
  · rintro (⟨other, found, hf, hn⟩ | hn)
    · refine ⟨other, found, ?_, hn⟩
      rw [OrdMap.getElem?_insert_eq, if_neg, hf]
      rintro rfl
      rw [hd] at hf
      cases hf
    · exact ⟨id, device, OrdMap.getElem?_insert_self _ _ _, hn⟩

/-- What staging a subject makes known. -/
theorem knows_stageSubject {staged' : StagedSubjects}
    (h : stageSubject limits staged subject = .ok staged') :
    staged'.knows level name = true ↔ staged.knows level name = true ∨
      (name ≠ [] ∧ subject.identity.hardware.on level = name) := by
  simp only [stageSubject, status_bind_eq_ok, pure, Except.pure, Except.ok.injEq] at h
  obtain ⟨-, -, -, -, -, rfl⟩ := h
  cases level <;> exact contains_insertValid

/-- An import knows the names of the devices it restores, and no others. -/
theorem levelsAgree_imported [StdLib] {state : DurableState} {staged : Staged}
    (h : Imports r state staged) : (r.commit state staged).LevelsAgree := by
  have hstaged : ∀ level name, staged.subjects.knows level name = true ↔
      Carried staged.subjects.devices level name := by
    refine foldlM_invariant (P := fun staged : StagedSubjects => ∀ level name,
      staged.knows level name = true ↔ Carried staged.devices level name) ?_ ?_ h.subjects
    · intro level name
      cases level <;> simp [StagedSubjects.knows, Carried]
    · intro staged subject _ staged' hagree hs level name
      obtain ⟨hnone, hd⟩ := stageSubject_eq_ok hs
      rw [knows_stageSubject hs, hd, carried_insert_of_unknown hnone, hagree]
      rfl
  intro level name
  refine Iff.trans ?_ (hstaged level name)
  cases level <;> exact Iff.rfl

variable [StdLib]

/-- A known device that is registered again takes up no name that is not carried already, and gives
up none that no other device carries. -/
def KeepsNames (r : Impl) (op : Op) : Prop :=
  ∀ registration explicitGeneration, Enrolls r op registration explicitGeneration →
    ∀ existing : DeviceState, r.devices[registration.identity.id]? = some existing → ∀ level,
      existing.identity.hardware.on level = registration.identity.hardware.on level ∨
      ((registration.identity.hardware.on level ≠ [] →
          r.CarriedElsewhere registration.identity.id level
            (registration.identity.hardware.on level)) ∧
        (existing.identity.hardware.on level ≠ [] →
          r.CarriedElsewhere registration.identity.id level
            (existing.identity.hardware.on level)))

omit [StdLib] in
/-- Replacing a device keeps the names carried exactly when those it takes up and those it gives up
are carried by others. -/
theorem carried_replace_iff (hd : r.devices[id]? = some existing) :
    (∀ level name, Carried r.devices level name ↔ Carried (r.devices.insert id device) level name) ↔
      ∀ level,
        existing.identity.hardware.on level = device.identity.hardware.on level ∨
        ((device.identity.hardware.on level ≠ [] →
            r.CarriedElsewhere id level (device.identity.hardware.on level)) ∧
          (existing.identity.hardware.on level ≠ [] →
            r.CarriedElsewhere id level (existing.identity.hardware.on level))) := by
  simp only [carried_insert, carried_of_known hd]
  constructor
  · intro h level
    by_cases hsame : existing.identity.hardware.on level = device.identity.hardware.on level
    · exact .inl hsame
    · refine .inr ⟨fun hne => ?_, fun hne => ?_⟩
      · exact ((h level _).mpr ⟨hne, .inl rfl⟩).2.resolve_left hsame
      · exact ((h level _).mp ⟨hne, .inl rfl⟩).2.resolve_left fun he => hsame he.symm
  · intro h level name
    refine and_congr_right fun hne => ?_
    rcases h level with hsame | ⟨htaken, hgiven⟩
    · rw [hsame]
    · constructor
      · rintro (rfl | he)
        · exact .inr (hgiven hne)
        · exact .inr he
      · rintro (rfl | he)
        · exact .inr (htaken hne)
        · exact .inr he

omit [StdLib] in
theorem registered_hardware {known : Option DeviceState} {registration : DeviceRegistration}
    {explicitGeneration : Bool} :
    (registered known registration explicitGeneration).identity.hardware =
      normalizeHardwareIdentity registration.identity.hardware := by
  cases known <;> rfl

/-- A first registration makes known exactly the names of its device. -/
theorem levelsAgree_registered {registration : DeviceRegistration} (h : r.LevelsAgree)
    (hop : ∀ state, op ≠ .importDurableState state)
    (hunknown : r.devices[registration.identity.id]? = none)
    (hd : (r.after op).devices = r.devices.insert registration.identity.id
      (createDevice registration)) : (r.after op).LevelsAgree := by
  rcases names_after hop with ⟨other, hother, hd', hk⟩ | ⟨-, hnone⟩
  · -- it is the device this very call registers
    have hsame : createDevice registration = createDevice other := by
      have hfound : (r.after op).devices[other.identity.id]? = some (createDevice other) := by
        rw [hd', OrdMap.getElem?_insert_self]
      rw [hd, OrdMap.getElem?_insert_eq] at hfound
      split at hfound
      · exact Option.some.inj hfound
      · rw [hother] at hfound
        cases hfound
    intro level name
    have hon : (createDevice registration).identity.hardware.on level =
        other.identity.hardware.on level := by
      rw [hsame]
      exact normalize_on other.identity.hardware level
    rw [hk, hd, carried_insert_of_unknown hunknown, h, hon]
  · have hfound := hnone _ hunknown
    rw [hd, OrdMap.getElem?_insert_self] at hfound
    cases hfound

/-- A call keeps the names in agreement with the devices if and only if it keeps the names. -/
theorem levelsAgree_after_iff (h : r.LevelsAgree) :
    (r.after op).LevelsAgree ↔ r.KeepsNames op := by
  by_cases hop : ∃ state, op = .importDurableState state
  · obtain ⟨state, rfl⟩ := hop
    refine iff_of_true ?_ fun _ _ henrolls => by cases henrolls
    have hc := changed r (.importDurableState state)
    generalize r.after (.importDurableState state) = r' at hc
    cases hc with
    | unchanged op r' same =>
      intro level name
      rw [knows_of_sets same.families same.models same.architectures, same.devices]
      exact h level name
    | schema op schema bound r' registered same =>
      obtain ⟨-, -, -, -, rfl⟩ := registerCapabilitySchemaLocked_eq_ok registered
      intro level name
      rw [knows_of_sets same.families same.models same.architectures, same.devices]
      exact h level name
    | imported state report r' accepted =>
      obtain ⟨staged, him, -, rfl⟩ := importDurableState_eq_ok.mp accepted
      exact levelsAgree_imported him
    | importRefused state e r' refused =>
      obtain ⟨serial, rfl⟩ := importDurableState_eq_error refused
      intro level name
      rw [knows_of_sets (r := r) (by rfl) (by rfl) (by rfl)]
      exact h level name
  · have hop : ∀ state, op ≠ .importDurableState state := fun state he => hop ⟨state, he⟩
    have hm := devicesMove (r := r) hop
    generalize hdevices : (r.after op).devices = devices at hm
    cases hm with
    | unmoved unregistered =>
      refine iff_of_true ?_ fun _ _ henrolls => (unregistered _ _ henrolls).elim
      rcases names_after hop with ⟨other, hother, hd, -⟩ | ⟨hk, -⟩
      · have hfound : r.devices[other.identity.id]? = some (createDevice other) := by
          rw [← hdevices, hd, OrdMap.getElem?_insert_self]
        rw [hother] at hfound
        cases hfound
      · intro level name
        rw [hk, hdevices]
        exact h level name
    | registered registration explicitGeneration enrolls only =>
      cases hknown : r.devices[registration.identity.id]? with
      | none =>
        rw [hknown] at hdevices
        refine iff_of_true (levelsAgree_registered h hop hknown hdevices) ?_
        intro registration' explicitGeneration' henrolls existing hexisting
        obtain ⟨rfl, -⟩ := only _ _ henrolls
        rw [hknown] at hexisting
        cases hexisting
      | some existing =>
        have hk : ∀ level name, (r.after op).knows level name = r.knows level name := by
          rcases names_after hop with ⟨other, hother, hd, -⟩ | ⟨hk, -⟩
          · have hfound : (r.after op).devices[other.identity.id]? = some (createDevice other) := by
              rw [hd, OrdMap.getElem?_insert_self]
            rw [hdevices, OrdMap.getElem?_insert_eq, if_neg, hother] at hfound
            · cases hfound
            · intro he
              rw [he, hother] at hknown
              cases hknown
          · exact hk
        have hagree : (r.after op).LevelsAgree ↔ ∀ level name, Carried r.devices level name ↔
            Carried (r.after op).devices level name := by
          refine forall_congr' fun level => forall_congr' fun name => ?_
          rw [hk, h]
        rw [hagree, hdevices, carried_replace_iff hknown]
        have hon : ∀ level, (registered r.devices[registration.identity.id]? registration
            explicitGeneration).identity.hardware.on level =
              registration.identity.hardware.on level := fun level => by
          rw [registered_hardware, normalize_on]
        simp only [hon]
        constructor
        · intro hkeeps registration' explicitGeneration' henrolls existing' hexisting
          obtain ⟨rfl, -⟩ := only _ _ henrolls
          rw [hknown] at hexisting
          obtain rfl := Option.some.inj hexisting
          exact hkeeps
        · intro hkeeps
          exact hkeeps _ _ enrolls existing hknown

end Steps

section Runs
variable [StdLib]

/-- References to the levels resolve against the names of the registered devices, and an import of
the registry's own export resolves the same ones. -/
structure ReferencesAgree (r : Impl) : Prop where
  resolves : ∀ (reference : HardwareReference) (level : HardwareLevel),
    reference.kind = level.referenceKind →
    (r.referenceResolves reference = true ↔ Carried r.devices level reference.token)
  recomputed : ∀ (base restored : Impl) (now : Timestamp) (report : ImportReport),
    base.importDurableState (r.exportDurableState now) = (.ok report, restored) →
    ∀ (reference : HardwareReference) (level : HardwareLevel),
    reference.kind = level.referenceKind →
    restored.referenceResolves reference = r.referenceResolves reference

omit [StdLib] in
theorem referenceResolves_eq {reference : HardwareReference}
    (hk : reference.kind = level.referenceKind) :
    r.referenceResolves reference = r.knows level reference.token := by
  unfold knows referenceResolves
  rw [hk]

omit [StdLib] in
theorem carried_congr {devices devices' : Std.ExtTreeMap DeviceId DeviceState}
    (h : ∀ id : DeviceId, (devices'[id]?).map DeviceState.identity =
      (devices[id]?).map DeviceState.identity) :
    Carried devices' level name ↔ Carried devices level name := by
  have hone : ∀ {devices devices' : Std.ExtTreeMap DeviceId DeviceState},
      (∀ id : DeviceId, (devices'[id]?).map DeviceState.identity =
        (devices[id]?).map DeviceState.identity) →
      Carried devices' level name → Carried devices level name := by
    rintro devices devices' h ⟨hne, id, device, hd, hn⟩
    have hid := h id
    rw [hd, Option.map_some, eq_comm, Option.map_eq_some_iff] at hid
    obtain ⟨found, hf, he⟩ := hid
    exact ⟨hne, id, found, hf, he ▸ hn⟩
  exact ⟨hone h, hone fun id => (h id).symm⟩

theorem referencesAgree_iff (named : r.DevicesNamed) : r.ReferencesAgree ↔ r.LevelsAgree := by
  constructor
  · intro h level name
    exact h.resolves { kind := level.referenceKind, token := name } level rfl
  · intro h
    refine ⟨fun reference level hk => ?_, ?_⟩
    · rw [referenceResolves_eq hk]
      exact h level reference.token
    · intro base restored now report hi reference level hk
      obtain ⟨staged, him, -, rfl⟩ := importDurableState_eq_ok.mp hi
      rw [referenceResolves_eq hk, referenceResolves_eq hk, Bool.eq_iff_iff,
        levelsAgree_imported him, h]
      refine carried_congr fun id => ?_
      rw [imports_devices him named, Option.map_map]
      rfl

/-- Over a run the references agree with the inventory in every state if and only if every call
keeps the names. -/
theorem references_agree_iff (limits : RegistryLimits) (ops : List Op) :
    (∀ ops', ops' <+: ops → ((Impl.fresh limits).run ops').ReferencesAgree) ↔
      Machine.Along Impl.after KeepsNames (Impl.fresh limits) ops := by
  have hfresh : (Impl.fresh limits).LevelsAgree := by
    intro level name
    cases level <;> simp [knows, referenceResolves, HardwareLevel.referenceKind, Carried, Impl.fresh]
  rw [Machine.along_iff hfresh fun r op h => levelsAgree_after_iff h]
  exact forall_congr' fun ops' => imp_congr_right fun _ =>
    referencesAgree_iff (reachable_devicesNamed ⟨ops', rfl⟩)

/-- The sample device is registered again, as one of another family. -/
def refamilied : List Op := Sample.setup ++
  [.apply Sample.now (Sample.deviceRegistration 2 { Sample.device with
    identity.hardware.family := Id.parse "family.b" })]

def laterFamily : HardwareReference := { kind := .hardwareFamily, token := "family.b" }

omit [StdLib] in
/-- The family a device is registered with later stays unknown. -/
theorem later_family_is_unknown :
    letI := StdLib.reference
    ¬((Impl.fresh {}).run refamilied).ReferencesAgree := by
  let := StdLib.reference
  intro h
  obtain ⟨hunknown, hname, hcarried⟩ :
      ((Impl.fresh {}).run refamilied).referenceResolves laterFamily = false ∧
      laterFamily.token ≠ [] ∧
      (((Impl.fresh {}).run refamilied).devices[(Id.parse "dev.a" : DeviceId)]?).map
        (fun device => device.identity.hardware.on .family) = some laterFamily.token := by
    decide
  obtain ⟨device, hd, hn⟩ := Option.map_eq_some_iff.mp hcarried
  have hresolves := (h.resolves laterFamily .family rfl).mpr ⟨hname, _, device, hd, hn⟩
  rw [hunknown] at hresolves
  cases hresolves

end Runs

end Impl

end CapabilityRegistry
