import CapabilityRegistry.Keys

/-! Schemas, keys and records agree: the typing of retained evidence. -/
namespace CapabilityRegistry

section Catalog
variable {schemas : Std.ExtTreeMap CapabilitySchemaId CapabilitySchema}
  {bindings : Std.ExtTreeMap CapabilityId CapabilitySchemaId} {schema : CapabilitySchema}
  {list : List CapabilitySchema}

/-- A capability is bound to a schema exactly when that schema describes it. -/
def Bound (schemas : Std.ExtTreeMap CapabilitySchemaId CapabilitySchema)
    (bindings : Std.ExtTreeMap CapabilityId CapabilitySchemaId) : Prop :=
  ∀ (capability : CapabilityId) (id : CapabilitySchemaId), bindings[capability]? = some id ↔
    ∃ schema, schemas[id]? = some schema ∧ schema.capability = capability

/-- At most one schema describes a capability. -/
theorem Bound.unique (h : Bound schemas bindings) {id id' : CapabilitySchemaId}
    {schema schema' : CapabilitySchema} (hs : schemas[id]? = some schema)
    (hs' : schemas[id']? = some schema') (hc : schema.capability = schema'.capability) : id = id' := by
  have h1 := (h _ _).mpr ⟨schema, hs, rfl⟩
  have h2 := (h _ _).mpr ⟨schema', hs', rfl⟩
  rw [hc] at h1
  exact Option.some.inj (h1.symm.trans h2)

theorem Bound.insert (h : Bound schemas bindings) (hs : schemas[schema.id]? = none)
    (hc : bindings[schema.capability]? = none) :
    Bound (schemas.insert schema.id schema) (bindings.insert schema.capability schema.id) := by
  intro capability id
  simp only [OrdMap.getElem?_insert_eq]
  by_cases hi : schema.id = id
  · subst hi
    by_cases hcap : schema.capability = capability
    · simp [hcap]
    · simp only [hcap, if_false, if_true, Option.some.injEq, exists_eq_left', iff_false]
      intro hb
      obtain ⟨other, ho, -⟩ := (h capability schema.id).mp hb
      rw [hs] at ho
      cases ho
  · by_cases hcap : schema.capability = capability
    · subst hcap
      simp only [hi, if_true, if_false, Option.some.injEq, false_iff]
      intro hex
      have hb := (h schema.capability id).mpr hex
      rw [hc] at hb
      cases hb
    · simp only [hi, hcap, if_false]
      exact h capability id

/-- A catalog without repetitions is entered as a one-to-one binding. -/
theorem bound_foldl (h : Bound schemas bindings)
    (hfresh : ∀ s ∈ list, schemas[s.id]? = none ∧ bindings[s.capability]? = none)
    (hid : (list.map CapabilitySchema.id).Nodup)
    (hcap : (list.map CapabilitySchema.capability).Nodup) :
    Bound (list.foldl (fun m s => m.insertIfNew s.id s) schemas)
      (list.foldl (fun m s => m.insertIfNew s.capability s.id) bindings) := by
  induction list generalizing schemas bindings with
  | nil => exact h
  | cons s rest ih =>
    obtain ⟨hs, hc⟩ := hfresh s List.mem_cons_self
    rw [List.map_cons, List.nodup_cons] at hid hcap
    rw [List.foldl_cons, List.foldl_cons, OrdMap.insertIfNew_of_none _ hs,
      OrdMap.insertIfNew_of_none _ hc]
    refine ih (h.insert hs hc) (fun t ht => ?_) hid.2 hcap.2
    obtain ⟨h1, h2⟩ := hfresh t (List.mem_cons_of_mem _ ht)
    have hne : s.id ≠ t.id := fun he => hid.1 (he ▸ List.mem_map_of_mem ht)
    have hne' : s.capability ≠ t.capability := fun he => hcap.1 (he ▸ List.mem_map_of_mem ht)
    rw [OrdMap.getElem?_insert_eq, OrdMap.getElem?_insert_eq, if_neg hne, if_neg hne']
    exact ⟨h1, h2⟩

/-- A text read as a number, which is quicker to compare. -/
def textNumber (text : Text) : Nat := text.foldl (fun n c => 256 * n + c.toNat) 1

/-- The capability of a built-in schema is its name without the version, and no two of them are of
one capability. -/
theorem builtin_tokens :
    (∀ s ∈ builtinCapabilitySchemas, s.capability.valid = true ∧
      s.id.str = s.capability.str ++ (".v1" : Text)) ∧
    ((builtinCapabilitySchemas.map CapabilitySchema.capability).map
      fun c => textNumber c.str).Nodup := by
  decide +kernel

theorem builtin_capability_nodup :
    (builtinCapabilitySchemas.map CapabilitySchema.capability).Nodup :=
  builtin_tokens.2.of_map _

theorem builtin_id_nodup : (builtinCapabilitySchemas.map CapabilitySchema.id).Nodup := by
  have hid : ∀ s ∈ builtinCapabilitySchemas, s.id.str = s.capability.str ++ (".v1" : Text) :=
    fun s hs => (builtin_tokens.1 s hs).2
  refine List.Nodup.of_map Id.str ?_
  have hmap : (builtinCapabilitySchemas.map CapabilitySchema.id).map Id.str =
      (builtinCapabilitySchemas.map CapabilitySchema.capability).map
        fun c => c.str ++ (".v1" : Text) := by
    rw [List.map_map, List.map_map]
    exact List.map_congr_left hid
  rw [hmap]
  refine builtin_capability_nodup.map fun a b hab => ?_
  exact Id.ext (List.append_cancel_right hab)

theorem bound_fresh (limits : RegistryLimits) :
    Bound (Impl.fresh limits).schemas (Impl.fresh limits).capabilitySchemas := by
  refine bound_foldl ?_ ?_ builtin_id_nodup builtin_capability_nodup
  · intro capability id
    simp
  · intro s _
    simp

end Catalog

theorem kind_normalizeValue {limits : RegistryLimits} {value result : CapabilityValue}
    (h : normalizeValue limits value = .ok result) :
    result.kind = value.kind ∧ result.empty = value.empty := by
  cases value with
  | record fields =>
    simp only [normalizeValue, bind_eq_ok, require_eq_ok] at h
    obtain ⟨normalized, -, u, -, v, -, hr⟩ := h
    cases hr
    exact ⟨rfl, rfl⟩
  | _ =>
    simp only [normalizeValue, bind_eq_ok] at h
    obtain ⟨u, -, hr⟩ := h
    cases hr
    exact ⟨rfl, rfl⟩

/-- A record of a key refers to the schema of the key, which describes its capability and declares
the kind of its value. -/
structure Typed (schemas : Std.ExtTreeMap CapabilitySchemaId CapabilitySchema) (id : KeyId)
    (key : KeyState) (record : CapabilityRecord) : Prop where
  owner : keyOf record = id
  schema : record.schema = key.schema
  declared : ∃ schema, schemas[record.schema]? = some schema ∧
    schema.capability = record.capability ∧
    (record.value.empty = false → record.value.kind = schema.valueKind)

namespace Impl
variable {r r' : Impl} {op : Op} {id : KeyId} {key : KeyState} {state : DurableState}
  {staged : Staged} {x y : Option KeyState}

/-- Bindings are one-to-one and every retained record is typed. -/
structure WellTyped (r : Impl) : Prop where
  bound : Bound r.schemas r.capabilitySchemas
  records : ∀ (id : KeyId) (key : KeyState), r.keys[id]? = some key →
    ∀ s ∈ key.records, Typed r.schemas id key s.record

/-- A typed key, as a property of the map entry. -/
def TypedKey (schemas : Std.ExtTreeMap CapabilitySchemaId CapabilitySchema) (id : KeyId)
    (x : Option KeyState) : Prop :=
  ∀ key, x = some key → ∀ s ∈ key.records, Typed schemas id key s.record

theorem typedKey_shrinks {a b : KeyState} {schemas : Std.ExtTreeMap CapabilitySchemaId CapabilitySchema}
    (ha : TypedKey schemas id (some a)) (h : a.Shrinks b) : TypedKey schemas id (some b) := by
  rintro key hk s hs
  obtain rfl := Option.some.inj hk
  obtain ⟨ho, hsch, hd⟩ := ha a rfl s (h.records.subset hs)
  exact ⟨ho, hsch.trans h.schema.symm, hd⟩

theorem typedKey_opens {record : CapabilityRecord} (h : Opens r record key r')
    (ht : TypedKey r.schemas (keyOf record) (r.keys[keyOf record]?)) :
    TypedKey r.schemas (keyOf record) (some key) := by
  cases h with
  | existing _ known => exact known ▸ ht
  | created unknown room =>
    rintro k hk s hs
    obtain rfl := Option.some.inj hk
    cases hs

theorem typedKey_bumpKey {schemas : Std.ExtTreeMap CapabilitySchemaId CapabilitySchema}
    (h : TypedKey schemas id (some key)) (generation : CapabilityGeneration) :
    TypedKey schemas id (some (bumpKey key generation)) := by
  rintro k hk s hs
  obtain rfl := Option.some.inj hk
  obtain ⟨ho, hsch, hd⟩ := h key rfl s hs
  exact ⟨ho, hsch, hd⟩

theorem checkKey_schema {record : CapabilityRecord} (h : checkKey key record = none) :
    key.schema = record.schema := by
  unfold checkKey at h
  split at h
  · cases h
  · next hne => simpa using hne

/-- One call keeps a key typed, under the catalog it was admitted with. -/
theorem KeyMove.typed (h : KeyMove r op id x y) (ht : TypedKey r.schemas id x)
    (hx : x = r.keys[id]?) : TypedKey r.schemas id y := by
  cases h with
  | shrunk op id x y shrinks =>
    cases shrinks with
    | none => exact fun key hk => by cases hk
    | some hab => exact typedKey_shrinks ht hab
  | created op record record' device admits =>
    rintro k hk s hs
    obtain rfl := Option.some.inj hk
    cases hs
  | bumped now publication q publisher record device key r' accepts y shrinks =>
    exact typedKey_shrinks (typedKey_bumpKey (typedKey_opens accepts.fresh.opens ht) _) shrinks
  | stored now publication q publisher record device key r' accepts mid y room shrinks =>
    have hkey := typedKey_opens accepts.fresh.opens ht
    refine typedKey_shrinks ?_ shrinks
    rintro k hk s hs
    obtain rfl := Option.some.inj hk
    have hschema := checkKey_schema accepts.fresh.governed
    rcases List.mem_append.mp hs with hs | hs
    · obtain ⟨t, ht', hkept⟩ := mem_supersede hs
      obtain ⟨ho, hsch, hd⟩ := hkey key rfl t (room.records.subset ht')
      rw [hkept.record]
      exact ⟨ho, hsch.trans room.schema.symm, hd⟩
    · obtain rfl := List.mem_singleton.mp hs
      obtain ⟨schema, hfound, hc, hkind⟩ := accepts.admits.schema
      obtain ⟨value, hv, rfl⟩ := accepts.admits.value
      obtain ⟨hk, he⟩ := kind_normalizeValue hv
      refine ⟨rfl, hschema.symm.trans room.schema.symm, schema, hfound, hc, fun hne => ?_⟩
      exact hk.trans (hkind (he ▸ hne))

section Catalogs
variable {q : Publication} {out : ApplyResult × Impl} {record : CapabilityRecord}

/-- The catalog of one state and its extension. -/
structure SameCatalog (r r' : Impl) : Prop where
  schemas : r'.schemas = r.schemas
  capabilitySchemas : r'.capabilitySchemas = r.capabilitySchemas

theorem Opens.sameCatalog (h : Opens r record key r') : SameCatalog r r' := by
  cases h <;> exact ⟨rfl, rfl⟩

theorem makeRoom_sameCatalog (r : Impl) : SameCatalog r r.makeRoom := by
  unfold makeRoom
  split <;> exact ⟨rfl, rfl⟩

theorem registerPlatform_sameCatalog (r : Impl) (platform : PlatformIdentity) :
    SameCatalog r (r.registerPlatform platform) := by
  unfold registerPlatform
  repeat' split
  all_goals exact ⟨rfl, rfl⟩

theorem Evidenced.sameCatalog (h : Evidenced r q out) : SameCatalog r out.2 := by
  cases h with
  | ungoverned record device key r' result admitted opens => exact opens.sameCatalog
  | repeated record device key r' result admitted opens => exact opens.sameCatalog
  | saturated record device key r' result admitted fresh =>
    have ho := fresh.opens.sameCatalog
    have hm := makeRoom_sameCatalog (r'.bumped key record device)
    exact ⟨hm.schemas.trans ho.schemas, hm.capabilitySchemas.trans ho.capabilitySchemas⟩
  | recorded record device key r' result admitted fresh =>
    have ho := fresh.opens.sameCatalog
    have hm := makeRoom_sameCatalog (r'.bumped key record device)
    exact ⟨hm.schemas.trans ho.schemas, hm.capabilitySchemas.trans ho.capabilitySchemas⟩
  | _ => exact ⟨rfl, rfl⟩

/-- No payload handler touches the catalog. -/
theorem applyPayload_sameCatalog (r : Impl) (q : Publication) :
    SameCatalog r (r.applyPayload q).2 := by
  have h := Impl.handled r q
  generalize r.applyPayload q = out at h
  cases h with
  | deviceAdded =>
    have hp := registerPlatform_sameCatalog (r.addDevice q.device) q.device.platform
    exact ⟨hp.schemas, hp.capabilitySchemas⟩
  | deviceUpdated result existing =>
    have hp := registerPlatform_sameCatalog
      { r with
        devices := r.devices.insert q.device.identity.id
          (updateDevice existing q.device (q.kind == .publishDeviceGeneration)) } q.device.platform
    exact ⟨hp.schemas, hp.capabilitySchemas⟩
  | evidence out kind evidenced => exact evidenced.sameCatalog
  | _ => exact ⟨rfl, rfl⟩

end Catalogs

section Imports
variable {limits : RegistryLimits} {subjects : StagedSubjects} {schemas schemas' : StagedSchemas}
  {record : CapabilityRecord} {keys keys' : StagedKeys} {schema : CapabilitySchema}
  {list : List CapabilitySchema} {history : List CapabilityRecord}

/-- A restored schema is known already or enters the catalog under an unbound capability. -/
theorem stageSchema_eq_ok (h : stageSchema limits schemas schema = .ok schemas') :
    validateCapabilitySchema schema limits = .ok () ∧
      ((schemas' = schemas ∧ ∃ known, schemas.schemas[schema.id]? = some known) ∨
        (schemas.schemas[schema.id]? = none ∧ schemas.capabilitySchemas[schema.capability]? = none ∧
          schemas' =
            { schemas := schemas.schemas.insert schema.id schema
              capabilitySchemas := schemas.capabilitySchemas.insert schema.capability schema.id })) := by
  simp only [stageSchema, status_bind_eq_ok] at h
  obtain ⟨hv, h⟩ := h
  refine ⟨hv, ?_⟩
  split at h
  · next known hk =>
    simp only [status_bind_eq_ok, pure, Except.pure, Except.ok.injEq] at h
    exact .inl ⟨h.2.symm, known, hk⟩
  · next hs =>
    simp only [status_bind_eq_ok, require_eq_ok, pure, Except.pure, Except.ok.injEq,
      Bool.not_eq_true'] at h
    obtain ⟨hc, rfl⟩ := h
    have hc : schemas.capabilitySchemas[schema.capability]? = none := by
      rw [Std.ExtTreeMap.contains_eq_isSome_getElem?] at hc
      exact Option.not_isSome_iff_eq_none.mp (by simp only [hc, Bool.false_eq_true, not_false_eq_true])
    rw [OrdMap.insertIfNew_of_none _ hs, OrdMap.insertIfNew_of_none _ hc]
    exact .inr ⟨hs, hc, rfl⟩

/-- What restoring schemas keeps: the binding, and where every schema comes from. -/
theorem stageSchemas_spec (h : list.foldlM (stageSchema limits) schemas = .ok schemas')
    (hb : Bound schemas.schemas schemas.capabilitySchemas) :
    Bound schemas'.schemas schemas'.capabilitySchemas ∧
      (∀ (id : CapabilitySchemaId) (known : CapabilitySchema),
        schemas.schemas[id]? = some known → schemas'.schemas[id]? = some known) ∧
      ∀ (id : CapabilitySchemaId) (found : CapabilitySchema), schemas'.schemas[id]? = some found →
        schemas.schemas[id]? = some found ∨ (found ∈ list ∧ found.id = id) := by
  induction list generalizing schemas with
  | nil =>
    obtain rfl := Except.ok.inj h
    exact ⟨hb, fun _ _ hk => hk, fun _ _ hf => .inl hf⟩
  | cons schema rest ih =>
    rw [List.foldlM_cons, bind_eq_ok] at h
    obtain ⟨next, hn, hrest⟩ := h
    obtain ⟨-, ⟨rfl, -⟩ | ⟨hs, hc, rfl⟩⟩ := stageSchema_eq_ok hn
    · obtain ⟨h1, h2, h3⟩ := ih hrest hb
      refine ⟨h1, h2, fun id found hf => ?_⟩
      exact (h3 id found hf).imp_right fun hm => ⟨List.mem_cons_of_mem _ hm.1, hm.2⟩
    · obtain ⟨h1, h2, h3⟩ := ih hrest (hb.insert hs hc)
      simp only [OrdMap.getElem?_insert_eq] at h2 h3
      refine ⟨h1, fun id known hk => h2 id known ?_, fun id found hf => ?_⟩
      · rw [if_neg, hk]
        rintro rfl
        rw [hs] at hk
        cases hk
      · rcases h3 id found hf with hm | hm
        · split at hm
          · next hi =>
            obtain rfl := Option.some.inj hm
            exact .inr ⟨List.mem_cons_self, hi⟩
          · exact .inl hm
        · exact .inr ⟨List.mem_cons_of_mem _ hm.1, hm.2⟩

/-- What a restored record is checked against. -/
structure Restorable (limits : RegistryLimits) (subjects : StagedSubjects)
    (schemas : StagedSchemas) (record : CapabilityRecord) : Prop where
  valid : validateCapabilityRecord record limits = .ok ()
  device : ∃ device, subjects.devices[record.device]? = some device ∧
    ¬ device.generation < record.deviceGeneration
  schema : ∃ schema, schemas.schemas[record.schema]? = some schema ∧
    schema.capability = record.capability

theorem checkRecord_eq_ok (h : checkRecord limits subjects schemas record = .ok ()) :
    Restorable limits subjects schemas record := by
  simp only [checkRecord, status_bind_eq_ok] at h
  obtain ⟨hv, h⟩ := h
  split at h
  · cases h
  · next device hd =>
    split at h
    · cases h
    · next schema hs =>
      simp only [status_bind_eq_ok, require_eq_ok, Bool.not_eq_true', decide_eq_false_iff_not,
        beq_iff_eq] at h
      exact ⟨hv, ⟨device, hd, h.2.1⟩, schema, hs, h.1⟩

/-- Staged keys are bound to a schema and typed under the staged catalog. -/
def StagedTyped (schemas : StagedSchemas) (keys : StagedKeys) : Prop :=
  ∀ (id : KeyId) (key : KeyState), keys.keys[id]? = some key →
    key.schema.valid = true ∧ ∀ s ∈ key.records, Typed schemas.schemas id key s.record

/-- The value of a record, if it carries one, is of the kind its schema declares. -/
def DeclaredKind (schemas : StagedSchemas) (record : CapabilityRecord) : Prop :=
  ∀ schema, schemas.schemas[record.schema]? = some schema → record.value.empty = false →
    record.value.kind = schema.valueKind

theorem stagedTyped_stageRecord (ht : StagedTyped schemas keys)
    (hk : DeclaredKind schemas record)
    (h : stageRecord limits subjects schemas keys record = .ok keys') :
    StagedTyped schemas keys' := by
  obtain ⟨hcheck, hschema, -, rfl⟩ := stageRecord_eq_ok.mp h
  have hres := checkRecord_eq_ok hcheck
  obtain ⟨-, -, -, hvalid, -⟩ := valid_ids_of_validateCapabilityRecord hres.valid
  obtain ⟨schema, hs, hc⟩ := hres.schema
  intro id key hkey
  simp only [OrdMap.getElem?_insert_eq] at hkey
  split at hkey
  · next he =>
    subst he
    obtain rfl := Option.some.inj hkey
    refine ⟨?_, fun s hm => ?_⟩
    · change (stagedKey keys.keys record).schema.valid = true
      rw [hschema]
      exact hvalid
    · rcases List.mem_append.mp hm with hm | hm
      · obtain ⟨t, ht', hkept⟩ := mem_supersede hm
        rw [hkept.record]
        cases hold : keys.keys[keyOf record]? with
        | none => simp [stagedKey_records, hold] at ht'
        | some old =>
          obtain ⟨hv, hold'⟩ := ht _ old hold
          have hsame : stagedKey keys.keys record = old := by
            simp [stagedKey, hold, hv]
          rw [hsame] at ht'
          obtain ⟨ho, hsch, hd⟩ := hold' t ht'
          exact ⟨ho, hsch.trans (congrArg KeyState.schema hsame).symm, hd⟩
      · obtain rfl := List.mem_singleton.mp hm
        exact ⟨rfl, hschema.symm, schema, hs, hc, hk schema hs⟩
  · exact ht id key hkey

theorem stagedTyped_stageRecords (ht : StagedTyped schemas keys)
    (hk : ∀ record ∈ history, DeclaredKind schemas record)
    (h : stageRecords limits subjects schemas keys history = (.ok (), keys')) :
    StagedTyped schemas keys' := by
  exact foldlM_invariant ht
    (fun _ record hm _ ht => stagedTyped_stageRecord ht (hk record hm)) (stageRecords_eq_ok.mp h)

/-- Every record of a file that carries a value carries one of the kind its schema declares, in the
registry or in the file. -/
def KindsDeclared (r : Impl) (state : DurableState) : Prop :=
  ∀ record ∈ state.capabilityHistory, record.value.empty = false → ∀ schema,
    (r.schemas[record.schema]? = some schema ∨
      (schema ∈ state.schemas ∧ schema.id = record.schema)) →
    record.value.kind = schema.valueKind

theorem wellTyped_imported (h : Imports r state staged)
    (hb : Bound r.schemas r.capabilitySchemas) (hk : KindsDeclared r state) :
    (r.commit state staged).WellTyped := by
  obtain ⟨hbound, -, horigin⟩ := stageSchemas_spec h.schemas hb
  have hkinds : ∀ record ∈ state.capabilityHistory, DeclaredKind staged.schemas record := by
    intro record hm schema hs hne
    exact hk record hm hne schema (horigin _ _ hs)
  have hempty : StagedTyped staged.schemas { nextSerial := r.nextSerial } := by
    intro id key hkey
    simp at hkey
  have htyped := stagedTyped_stageRecords hempty hkinds h.records
  exact ⟨hbound, fun id key hkey => (htyped id key hkey).2⟩

end Imports

section Runs
variable [StdLib] {limits : RegistryLimits} {ops : List Op}

/-- An accepted import brings values of the declared kinds only. -/
def BringsDeclaredKinds (r : Impl) (op : Op) : Prop :=
  ∀ state, op = .importDurableState state → r.Restores op → KindsDeclared r state

theorem catalog_after (hop : ¬ r.Restores op) (hb : Bound r.schemas r.capabilitySchemas) :
    Bound (r.after op).schemas (r.after op).capabilitySchemas ∧
      ∀ (id : CapabilitySchemaId) (known : CapabilitySchema),
        r.schemas[id]? = some known → (r.after op).schemas[id]? = some known := by
  have hc := changed r op
  generalize r.after op = r' at hc
  cases hc with
  | unchanged op r' same =>
    rw [same.schemas, same.capabilitySchemas]
    exact ⟨hb, fun _ _ hk => hk⟩
  | payload now publication q publisher r' addressed authority verdict same =>
    have hs := applyPayload_sameCatalog r q
    rw [same.schemas, same.capabilitySchemas, hs.schemas, hs.capabilitySchemas]
    exact ⟨hb, fun _ _ hk => hk⟩
  | schema op schema bound r' registered same =>
    obtain ⟨-, hs, hc, -, rfl⟩ := registerCapabilitySchemaLocked_eq_ok registered
    rw [same.schemas, same.capabilitySchemas]
    refine ⟨hb.insert hs hc, fun id known hk => ?_⟩
    rw [OrdMap.getElem?_insert_eq, if_neg]
    · exact hk
    · rintro rfl
      rw [hs] at hk
      cases hk
  | imported state report r' accepted => exact (hop ⟨state, report, r', rfl, accepted⟩).elim
  | importRefused state e r' refused =>
    obtain ⟨serial, rfl⟩ := importDurableState_eq_error refused
    exact ⟨hb, fun _ _ hk => hk⟩

theorem WellTyped.after (h : r.WellTyped) (ha : r.Accounted) (hk : r.BringsDeclaredKinds op) :
    (r.after op).WellTyped := by
  by_cases hop : r.Restores op
  · obtain ⟨state, report, r', rfl, hi⟩ := hop
    obtain ⟨staged, him, -, hr'⟩ := importDurableState_eq_ok.mp hi
    have hafter : r.after (.importDurableState state) = r.commit state staged :=
      (congrArg Prod.snd hi).trans hr'
    rw [hafter]
    exact wellTyped_imported him h.bound (hk state rfl ⟨state, report, r', rfl, hi⟩)
  · obtain ⟨hbound, hkeep⟩ := catalog_after hop h.bound
    refine ⟨hbound, fun id key hkey s hs => ?_⟩
    have htyped := (keyMove ha hop id).typed (fun key hk => h.records id key hk) rfl
    obtain ⟨ho, hsch, schema, hfound, hdecl⟩ := htyped key hkey s hs
    exact ⟨ho, hsch, schema, hkeep _ _ hfound, hdecl⟩

/-- Every key is bound to a schema that describes its capability. -/
def Described (schemas : Std.ExtTreeMap CapabilitySchemaId CapabilitySchema)
    (keys : Std.ExtTreeMap KeyId KeyState) : Prop :=
  ∀ (id : KeyId) (key : KeyState), keys[id]? = some key →
    ∃ schema, schemas[key.schema]? = some schema ∧ schema.capability = id.capability

omit [StdLib] in
theorem described_stageRecords {limits : RegistryLimits} {subjects : StagedSubjects}
    {schemas : StagedSchemas} {keys keys' : StagedKeys} {history : List CapabilityRecord}
    (hd : Described schemas.schemas keys.keys)
    (h : stageRecords limits subjects schemas keys history = (.ok (), keys')) :
    Described schemas.schemas keys'.keys := by
  refine foldlM_invariant (P := fun keys : StagedKeys => Described schemas.schemas keys.keys) hd
    (fun keys record _ keys' hd hn => ?_) (stageRecords_eq_ok.mp h)
  obtain ⟨hcheck, hschema, -, rfl⟩ := stageRecord_eq_ok.mp hn
  obtain ⟨schema, hs, hc⟩ := (checkRecord_eq_ok hcheck).schema
  intro id key hkey
  simp only [OrdMap.getElem?_insert_eq] at hkey
  split at hkey
  · next he =>
    subst he
    obtain rfl := Option.some.inj hkey
    refine ⟨schema, ?_, hc⟩
    rw [← hs, ← hschema]
    rfl
  · exact hd id key hkey

omit [StdLib] in
theorem KeyMove.described (h : KeyMove r op id x y) (hx : x = r.keys[id]?)
    (hd : Described r.schemas r.keys) {key : KeyState} (hy : y = some key) :
    ∃ schema, r.schemas[key.schema]? = some schema ∧ schema.capability = id.capability := by
  have hopens : ∀ {record raw : CapabilityRecord} {device : DeviceState} {key : KeyState} {r' : Impl},
      Opens r record key r' → Admits r raw record device →
      ∃ schema, r.schemas[key.schema]? = some schema ∧ schema.capability = record.capability := by
    intro record raw device key r' ho ha
    obtain ⟨schema, hs, hc, -⟩ := ha.schema
    obtain ⟨value, -, rfl⟩ := ha.value
    cases ho with
    | existing key known => exact hd _ _ known
    | created unknown room => exact ⟨schema, hs, hc⟩
  cases h with
  | shrunk op id x y shrinks =>
    subst hy
    cases shrinks with
    | some hab =>
      rw [hab.schema]
      exact hd _ _ hx.symm
  | created op record raw device admits =>
    obtain rfl := Option.some.inj hy
    obtain ⟨schema, hs, hc, -⟩ := admits.schema
    exact ⟨schema, hs, hc⟩
  | bumped now publication q publisher record device key' r' accepts y shrinks =>
    obtain rfl := Option.some.inj hy
    have hkey := hopens accepts.fresh.opens accepts.admits
    rw [shrinks.schema]
    exact hkey
  | stored now publication q publisher record device key' r' accepts mid y room shrinks =>
    obtain rfl := Option.some.inj hy
    have hkey := hopens accepts.fresh.opens accepts.admits
    have hschema : y.schema = key'.schema := shrinks.schema.trans room.schema
    rw [hschema]
    exact hkey

/-- In every reachable registry schemas and capabilities are bound one to one, and every key is
bound to the schema of its capability. -/
theorem reachable_described (h : Reachable limits r) :
    Bound r.schemas r.capabilitySchemas ∧ Described r.schemas r.keys := by
  obtain ⟨ops, rfl⟩ := h
  refine (Machine.run_invariant (P := fun r : Impl => r.Accounted ∧
    Bound r.schemas r.capabilitySchemas ∧ Described r.schemas r.keys) (s := Impl.fresh limits)
    ⟨accounted_fresh limits, bound_fresh limits, fun id key hk => by simp [Impl.fresh] at hk⟩
    (fun r op hr => ⟨hr.1.after op, ?_⟩) ops).2
  obtain ⟨ha, hb, hd⟩ := hr
  by_cases hop : r.Restores op
  · obtain ⟨state, report, r', rfl, hi⟩ := hop
    obtain ⟨staged, him, -, rfl⟩ := importDurableState_eq_ok.mp hi
    have hafter : r.after (.importDurableState state) = r.commit state staged := congrArg Prod.snd hi
    rw [hafter]
    refine ⟨(stageSchemas_spec him.schemas hb).1, described_stageRecords ?_ him.records⟩
    intro id key hkey
    simp at hkey
  · obtain ⟨hbound, hkeep⟩ := catalog_after hop hb
    refine ⟨hbound, fun id key hkey => ?_⟩
    obtain ⟨schema, hs, hc⟩ := (keyMove ha hop id).described rfl hd hkey
    exact ⟨schema, hkeep _ _ hs, hc⟩

/-- Along every run whose accepted imports bring declared kinds only, evidence stays well typed. -/
theorem well_typed_run (h : Machine.Along Impl.after BringsDeclaredKinds (Impl.fresh limits) ops) :
    ((Impl.fresh limits).run ops).WellTyped := by
  have hfresh : (Impl.fresh limits).WellTyped :=
    ⟨bound_fresh limits, fun id key hk => by simp [Impl.fresh] at hk⟩
  have hinv : ((Impl.fresh limits).run ops).Accounted ∧ ((Impl.fresh limits).run ops).WellTyped :=
    h.invariant (P := fun r => r.Accounted ∧ r.WellTyped) ⟨accounted_fresh limits, hfresh⟩
      fun r op hr hk => ⟨hr.1.after op, hr.2.after hr.1 hk⟩
  exact hinv.2

/-- A saved file with one record of the built-in schema for double precision. -/
def typedFile (value : CapabilityValue) : DurableState :=
  { header := { formatVersion := stateFormatVersion, epoch := .first }
    subjects := [{ identity := Sample.device.identity, generation := .first, boot := .first }]
    capabilityHistory := [
      { Sample.capability with
        schema := Id.parse "cap.compute.fp64.v1"
        value
        source.publisher := Sample.publisher }] }

omit [StdLib] in
theorem well_typed_run_typedFile :
    letI := StdLib.reference
    ((Impl.fresh {}).run [.importDurableState (typedFile (.boolean true))]).WellTyped := by
  let := StdLib.reference
  refine well_typed_run ⟨?_, trivial⟩
  rintro state he - record hm - schema hs
  obtain rfl := Op.importDurableState.inj he
  obtain rfl := List.mem_singleton.mp hm
  have hkind : (Impl.fresh {}).schemas[(Id.parse "cap.compute.fp64.v1" : CapabilitySchemaId)]?.map
      CapabilitySchema.valueKind = some .boolean := by
    rw [Impl.fresh_eq]
    decide
  rcases hs with hs | ⟨hs, -⟩
  · rw [hs] at hkind
    exact (Option.some.inj hkind).symm
  · cases hs

omit [StdLib] in
/-- An import takes a value of a kind the schema does not declare. -/
theorem import_breaks_typing :
    letI := StdLib.reference
    ¬ ∀ (limits : RegistryLimits) (r : Impl), Reachable limits r → r.WellTyped := by
  let := StdLib.reference
  intro h
  have hbad : ∃ key ∈ ((Impl.fresh {}).run [.importDurableState (typedFile (.bytes 7))]).keys[
        (⟨Id.parse "dev.a", Id.parse "cap.compute.fp64"⟩ : KeyId)]?,
      ∃ s ∈ key.records, ∃ schema ∈ ((Impl.fresh {}).run
        [.importDurableState (typedFile (.bytes 7))]).schemas[s.record.schema]?,
      s.record.value.empty = false ∧ s.record.value.kind ≠ schema.valueKind := by
    rw [Impl.fresh_eq]
    decide +kernel
  obtain ⟨key, hk, s, hs, schema, hsch, hne, hkind⟩ := hbad
  have hw := h {} _ ⟨[.importDurableState (typedFile (.bytes 7))], rfl⟩
  obtain ⟨-, -, found, hf, -, hd⟩ := hw.records _ key hk s hs
  obtain rfl := Option.some.inj (hsch.symm.trans hf)
  exact hkind (hd hne)

end Runs

end Impl

end CapabilityRegistry
