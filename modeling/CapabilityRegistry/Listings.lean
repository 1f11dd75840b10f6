import CapabilityRegistry.KeyGenerations
import CapabilityRegistry.Queries
import CapabilityRegistry.Retention
import CapabilityRegistry.Winners

/-! The listings of one device: which keys they show, and how they agree with single answers. -/
namespace CapabilityRegistry

section Collecting
variable {α β : Type} {limit : Nat} {keep : α → Option β} {xs : List α}

theorem collect_eq_or_full (xs : List α) (out : List β) :
    collect limit keep xs out = out ++ xs.filterMap keep ∨
      limit ≤ (collect limit keep xs out).length := by
  induction xs generalizing out with
  | nil => exact .inl (List.append_nil out).symm
  | cons x xs ih =>
    rw [collect, List.filterMap_cons]
    cases keep x with
    | none => exact ih out
    | some y =>
      dsimp only
      split
      · next hfull =>
        right
        rw [List.length_append]
        exact hfull
      · have hrest := ih (out ++ [y])
        rwa [List.append_assoc] at hrest

/-- A listing that stays below its bound leaves nothing out. -/
theorem collect_of_lt (h : (collect limit keep xs []).length < limit) :
    collect limit keep xs [] = xs.filterMap keep :=
  (collect_eq_or_full xs []).resolve_right (Nat.not_le_of_lt h)

theorem length_collect_le (xs : List α) (out : List β) :
    (collect limit keep xs out).length ≤ out.length + xs.length := by
  induction xs generalizing out with
  | nil => exact Nat.le_refl _
  | cons x xs ih =>
    rw [collect]
    cases keep x with
    | none => exact (ih out).trans (by simp)
    | some y =>
      dsimp only
      split
      · simp
      · exact (ih (out ++ [y])).trans (by simp; omega)

/-- Keeping the members with a property is filtering by it. -/
theorem filterMap_eq_map_filter {p : α → Bool} {g : α → β}
    (h : ∀ x ∈ xs, keep x = if p x then some (g x) else none) :
    xs.filterMap keep = (xs.filter p).map g := by
  induction xs with
  | nil => rfl
  | cons x xs ih =>
    have hrest := ih fun y hy => h y (List.mem_cons_of_mem _ hy)
    rw [List.filterMap_cons, h x List.mem_cons_self, List.filter_cons]
    cases p x with
    | true => simp [hrest]
    | false => simp [hrest]

end Collecting

namespace Impl
variable [StdLib] {r r' : Impl} {limits : RegistryLimits} {op : Op} {state : DurableState}
  {staged : Staged}

section Reachability

omit [StdLib] in
theorem devicesNamed_imported (h : Imports r state staged) : (r.commit state staged).DevicesNamed := by
  intro id device hd
  rcases (stageSubjects_spec h.subjects).mp hd with hnone | ⟨subject, -, rfl, rfl⟩
  · simp at hnone
  · rfl

theorem reachable_devicesNamed (h : Reachable limits r) : r.DevicesNamed := by
  obtain ⟨ops, rfl⟩ := h
  refine Machine.run_invariant (P := DevicesNamed) (fun id device hd => by simp [Impl.fresh] at hd)
    (fun r op hr => ?_) ops
  by_cases hop : r.Restores op
  · obtain ⟨state, report, r', rfl, hi⟩ := hop
    obtain ⟨staged, him, -, rfl⟩ := importDurableState_eq_ok.mp hi
    have hafter : r.after (.importDurableState state) = r.commit state staged := congrArg Prod.snd hi
    rw [hafter]
    exact devicesNamed_imported him
  · exact hr.after hop

/-- Every schema describes a capability with a canonical identity. -/
def SchemasNamed (schemas : Std.ExtTreeMap CapabilitySchemaId CapabilitySchema) : Prop :=
  ∀ (id : CapabilitySchemaId) (schema : CapabilitySchema), schemas[id]? = some schema →
    schema.capability.valid = true

omit [StdLib] in
theorem SchemasNamed.insert {schemas : Std.ExtTreeMap CapabilitySchemaId CapabilitySchema}
    {schema : CapabilitySchema} (h : SchemasNamed schemas)
    (hv : validateCapabilitySchema schema limits = .ok ()) :
    SchemasNamed (schemas.insert schema.id schema) := by
  intro id found hf
  rw [OrdMap.getElem?_insert_eq] at hf
  split at hf
  · obtain rfl := Option.some.inj hf
    simp only [validateCapabilitySchema, status_bind_eq_ok, require_eq_ok] at hv
    exact hv.2.1
  · exact h id found hf

omit [StdLib] in
theorem schemasNamed_fresh (limits : RegistryLimits) : SchemasNamed (Impl.fresh limits).schemas := by
  have hall : ∀ schema ∈ builtinCapabilitySchemas, schema.capability.valid = true :=
    fun schema hs => (builtin_tokens.1 schema hs).1
  have hfold : ∀ (list : List CapabilitySchema)
      (schemas : Std.ExtTreeMap CapabilitySchemaId CapabilitySchema),
      (∀ schema ∈ list, schema.capability.valid = true) → SchemasNamed schemas →
      SchemasNamed (list.foldl (fun m s => m.insertIfNew s.id s) schemas) := by
    intro list
    induction list with
    | nil => exact fun _ _ h => h
    | cons s rest ih =>
      intro schemas hl h
      refine ih _ (fun t ht => hl t (List.mem_cons_of_mem _ ht)) fun id found hf => ?_
      rw [OrdMap.getElem?_insertIfNew_eq] at hf
      split at hf
      · obtain rfl := Option.some.inj hf
        cases hk : schemas[s.id]? with
        | none => exact hl s List.mem_cons_self
        | some known => exact h _ known hk
      · exact h id found hf
  exact hfold _ _ hall fun id schema hs => by simp at hs

omit [StdLib] in
theorem schemasNamed_imported (h : Imports r state staged) (hs : SchemasNamed r.schemas) :
    SchemasNamed (r.commit state staged).schemas :=
  foldlM_invariant (P := fun schemas : StagedSchemas => SchemasNamed schemas.schemas) hs
    (fun schemas schema _ schemas' hnamed hn => by
      obtain ⟨hv, ⟨rfl, -⟩ | ⟨-, -, rfl⟩⟩ := stageSchema_eq_ok hn
      · exact hnamed
      · exact hnamed.insert hv) h.schemas

theorem reachable_schemasNamed (h : Reachable limits r) : SchemasNamed r.schemas := by
  obtain ⟨ops, rfl⟩ := h
  refine Machine.run_invariant (P := fun r : Impl => SchemasNamed r.schemas)
    (schemasNamed_fresh limits) (fun r op hr => ?_) ops
  have hc := changed r op
  generalize r.after op = r' at hc
  cases hc with
  | unchanged op r' same => exact same.schemas ▸ hr
  | payload now publication q publisher r' addressed authority verdict same =>
    rw [same.schemas, (applyPayload_sameCatalog r q).schemas]
    exact hr
  | schema op schema bound r' registered same =>
    obtain ⟨hv, -, -, -, rfl⟩ := registerCapabilitySchemaLocked_eq_ok registered
    rw [same.schemas]
    exact hr.insert hv
  | imported state report r' accepted =>
    obtain ⟨staged, him, -, rfl⟩ := importDurableState_eq_ok.mp accepted
    exact schemasNamed_imported him hr
  | importRefused state e r' refused =>
    obtain ⟨serial, rfl⟩ := importDurableState_eq_error refused
    exact hr

end Reachability

section Answers
variable {device : DeviceState} {capability : CapabilityId} {pinned : DeviceGeneration}
  {environment : EnvironmentContext} {key : KeyState}

theorem resolve_capability (r : Impl) (device : DeviceState) (capability : CapabilityId)
    (pinned : DeviceGeneration) (environment : EnvironmentContext) :
    (r.resolve device capability pinned environment).capability = capability := by
  unfold resolve
  dsimp only
  split
  · rfl
  · split <;> rfl

variable (environment) in
/-- An answer on a key with current evidence is current, and nothing about it is stale. -/
theorem resolve_current (h : r.currentRecords device capability pinned ≠ []) :
    (r.resolve device capability pinned environment).current = true ∧
      (r.resolve device capability pinned environment).staleness = .none := by
  have htarget := target_of_current h
  obtain ⟨w, hw⟩ := exists_declares h
  obtain ⟨key, first, rest, -, -, -, hres⟩ := resolve_of_declares hw
  rw [hres]
  exact ⟨beq_iff_eq.mpr htarget, rfl⟩

omit [StdLib] in
theorem isStale_settled (flags : StalenessFlag) :
    isStale (if flags == .none then .requiresRevalidation else flags) = true := by
  split
  · rfl
  · next hflags => exact bne_iff_ne.mpr fun he => hflags (beq_iff_eq.mpr he)

variable (environment) in
/-- An answer on a key without current evidence is not current, and it is stale. -/
theorem resolve_stale (hk : r.keys[KeyId.mk device.identity.id capability]? = some key)
    (h : r.currentRecords device capability pinned = []) :
    (r.resolve device capability pinned environment).current = false ∧
      isStale (r.resolve device capability pinned environment).staleness = true := by
  rw [currentRecords_of_key hk] at h
  simp only [resolve, hk, h, resolveStale]
  exact ⟨trivial, isStale_settled _⟩

end Answers

section Listings
variable {id : DeviceId} {device : DeviceState} {pinned : DeviceGeneration}
  {environment : EnvironmentContext} {maxResults : Nat} {current stale : List CapabilityAnswer}

omit [StdLib] in
theorem mem_ownedCapabilities_iff (h : r.Indexed) (capability : CapabilityId) :
    capability ∈ r.ownedCapabilities id ↔ (r.keys[KeyId.mk id capability]?).isSome = true := by
  rw [← h ⟨id, capability⟩]
  simp only [ownedCapabilities, ownedBy]
  cases r.deviceKeys[id]? with
  | none => simp
  | some owned => exact Std.ExtTreeSet.mem_toList

omit [StdLib] in
theorem nodup_ownedCapabilities (r : Impl) (id : DeviceId) : (r.ownedCapabilities id).Nodup := by
  unfold ownedCapabilities
  cases r.deviceKeys[id]? with
  | none => exact List.nodup_nil
  | some owned =>
    exact owned.distinct_toList.imp fun hne he => hne (Std.LawfulEqOrd.compare_eq_iff_eq.mpr he)

/-- The key has evidence that is current for the generation asked about. -/
def hasCurrent (r : Impl) (device : DeviceState) (pinned : DeviceGeneration)
    (capability : CapabilityId) : Bool :=
  !(r.currentRecords device capability pinned).isEmpty

/-- On a key of the device the two listings keep an answer exactly when the other drops it. -/
theorem listed_of_key (hn : device.identity.id = id) {key : KeyState} {capability : CapabilityId}
    (hk : r.keys[KeyId.mk id capability]? = some key) :
    r.listedCapability
        { device := id, deviceGeneration := pinned, environment, maxResults } device capability =
      (if r.hasCurrent device pinned capability then
        some (r.answer device capability pinned environment) else none) ∧
    r.listedStale { device := id, deviceGeneration := pinned, environment, maxResults } device
        capability =
      (if !r.hasCurrent device pinned capability then
        some (r.answer device capability pinned environment) else none) := by
  subst hn
  by_cases hcur : r.currentRecords device capability pinned = []
  · obtain ⟨hc, hs⟩ := resolve_stale environment hk hcur
    simp [listedCapability, listedStale, hasCurrent, hk, hcur, answer, hc]
  · obtain ⟨hc, hs⟩ := resolve_current environment hcur
    simp [listedCapability, listedStale, hasCurrent, hk, hcur, answer, hc, hs, isStale]

/-- The listings split the keys of a device, agree with the single answers, and are counted by the
summary of the subject. -/
structure Partitions (r : Impl) (id : DeviceId) (device : DeviceState) (pinned : DeviceGeneration)
    (environment : EnvironmentContext) (current stale : List CapabilityAnswer) : Prop where
  disjoint : ∀ v ∈ current, ∀ w ∈ stale, v.capability ≠ w.capability
  covers : ∀ capability, (∃ v ∈ current ++ stale, v.capability = capability) ↔
    (r.keys[KeyId.mk id capability]?).isSome = true
  once : ((current ++ stale).map fun v => v.capability).Nodup
  single : ∀ v ∈ current ++ stale, r.queryCapability
    { device := id, deviceGeneration := pinned, capability := v.capability, environment } = .ok v
  counted : pinned = default → environment = {} →
    (r.buildSubject device {}).currentCount = UInt64.ofNat current.length ∧
    (r.buildSubject device {}).staleCount = UInt64.ofNat stale.length ∧
    (r.buildSubject device {}).currentCount + (r.buildSubject device {}).staleCount =
      (r.buildSubject device {}).capabilityCount

/-- The answers on those keys of a device that have a property. -/
def answersOn (r : Impl) (id : DeviceId) (device : DeviceState) (pinned : DeviceGeneration)
    (environment : EnvironmentContext) (p : CapabilityId → Bool) : List CapabilityAnswer :=
  ((r.ownedCapabilities id).filter p).map fun c => r.answer device c pinned environment

theorem queryCapabilities_of_device (hv : id.valid = true) (hd : r.devices[id]? = some device)
    (maxResults : Nat) :
    r.queryCapabilities { device := id, deviceGeneration := pinned, environment, maxResults } =
      .ok (collect (r.resultLimit maxResults) (r.listedCapability
        { device := id, deviceGeneration := pinned, environment, maxResults } device)
        (r.ownedCapabilities id) []) := by
  simp only [queryCapabilities, findDevice, hd, hv]
  rfl

theorem queryStale_of_device (hv : id.valid = true) (hd : r.devices[id]? = some device)
    (maxResults : Nat) :
    r.queryStale { device := id, deviceGeneration := pinned, environment, maxResults } =
      .ok (collect (r.resultLimit maxResults) (r.listedStale
        { device := id, deviceGeneration := pinned, environment, maxResults } device)
        (r.ownedCapabilities id) []) := by
  simp only [queryStale, findDevice, hd, hv]
  rfl

theorem queryCapabilities_eq (hi : r.Indexed) (hn : device.identity.id = id) (hv : id.valid = true)
    (hd : r.devices[id]? = some device) (h : r.queryCapabilities
      { device := id, deviceGeneration := pinned, environment, maxResults } = .ok current)
    (hb : current.length < r.resultLimit maxResults) :
    current = r.answersOn id device pinned environment (r.hasCurrent device pinned) := by
  rw [queryCapabilities_of_device hv hd] at h
  obtain rfl := Except.ok.inj h
  rw [collect_of_lt hb]
  refine filterMap_eq_map_filter fun capability hc => ?_
  obtain ⟨key, hk⟩ := Option.isSome_iff_exists.mp ((mem_ownedCapabilities_iff hi capability).mp hc)
  exact (listed_of_key hn hk).1

theorem queryStale_eq (hi : r.Indexed) (hn : device.identity.id = id) (hv : id.valid = true)
    (hd : r.devices[id]? = some device) (h : r.queryStale
      { device := id, deviceGeneration := pinned, environment, maxResults } = .ok stale)
    (hb : stale.length < r.resultLimit maxResults) :
    stale = r.answersOn id device pinned environment fun c => !r.hasCurrent device pinned c := by
  rw [queryStale_of_device hv hd] at h
  obtain rfl := Except.ok.inj h
  rw [collect_of_lt hb]
  refine filterMap_eq_map_filter fun capability hc => ?_
  obtain ⟨key, hk⟩ := Option.isSome_iff_exists.mp ((mem_ownedCapabilities_iff hi capability).mp hc)
  exact (listed_of_key hn hk).2

/-- What the summary of a subject counts as current. -/
def summarizedCurrent (r : Impl) (device : DeviceState) (environment : EnvironmentContext)
    (capability : CapabilityId) : Bool :=
  let resolved := r.resolve device capability default environment
  resolved.current && !isStale resolved.staleness

/-- The summary of a subject counts the keys its index lists. -/
theorem buildSubject_counts (r : Impl) (device : DeviceState) (environment : EnvironmentContext) :
    (r.buildSubject device environment).capabilityCount =
      UInt64.ofNat (r.ownedCapabilities device.identity.id).length ∧
    (r.buildSubject device environment).currentCount = UInt64.ofNat
      ((r.ownedCapabilities device.identity.id).countP (r.summarizedCurrent device environment)) ∧
    (r.buildSubject device environment).staleCount = UInt64.ofNat
      ((r.ownedCapabilities device.identity.id).countP
        fun c => !r.summarizedCurrent device environment c) := by
  simp only [buildSubject, ownedCapabilities]
  cases r.deviceKeys[device.identity.id]? with
  | none => exact ⟨rfl, rfl, rfl⟩
  | some owned =>
    simp only [sizeCount, List.countP_map]
    exact ⟨congrArg UInt64.ofNat (congrFun List.countP_true owned.toList), rfl, rfl⟩

/-- What the summary counts as current are the keys with current evidence. -/
theorem summarizedCurrent_of_key {key : KeyState} {capability : CapabilityId}
    (hk : r.keys[KeyId.mk device.identity.id capability]? = some key) :
    r.summarizedCurrent device environment capability = r.hasCurrent device default capability := by
  by_cases hcur : r.currentRecords device capability default = []
  · obtain ⟨hc, hs⟩ := resolve_stale environment hk hcur
    simp [summarizedCurrent, hasCurrent, hcur, hc]
  · obtain ⟨hc, hs⟩ := resolve_current environment hcur
    simp [summarizedCurrent, hasCurrent, hcur, hc, hs, isStale]

theorem queryCapability_eq (h : Reachable limits r) (hv : id.valid = true)
    (hd : r.devices[id]? = some device) {capability : CapabilityId}
    (hc : capability ∈ r.ownedCapabilities id) :
    r.queryCapability { device := id, deviceGeneration := pinned, capability, environment } =
      .ok (r.answer device capability pinned environment) := by
  obtain ⟨key, hk⟩ := Option.isSome_iff_exists.mp
    ((mem_ownedCapabilities_iff (reachable_indexed h) capability).mp hc)
  obtain ⟨schema, hs, hsc⟩ := (reachable_described h).2 _ key hk
  have hvalid := reachable_schemasNamed h _ schema hs
  rw [hsc] at hvalid
  simp only [queryCapability, hv, hvalid, findDevice, hd]
  rfl

/-- In every reachable registry the current and the stale listing of a device, their bounds not
reached, partition its keys. -/
theorem listings_partition_keys (h : Reachable limits r) (hv : id.valid = true)
    (hd : r.devices[id]? = some device) {maxCurrent maxStale : Nat}
    (hc : r.queryCapabilities
      { device := id, deviceGeneration := pinned, environment, maxResults := maxCurrent } =
        .ok current)
    (hs : r.queryStale
      { device := id, deviceGeneration := pinned, environment, maxResults := maxStale } = .ok stale)
    (hbc : current.length < r.resultLimit maxCurrent)
    (hbs : stale.length < r.resultLimit maxStale) :
    r.Partitions id device pinned environment current stale := by
  have hi := reachable_indexed h
  have hn := reachable_devicesNamed h id device hd
  have hcur := queryCapabilities_eq hi hn hv hd hc hbc
  have hsta := queryStale_eq hi hn hv hd hs hbs
  have hname : ∀ c, (r.answer device c pinned environment).capability = c := fun c =>
    resolve_capability r device c pinned environment
  have hmem : ∀ (p : CapabilityId → Bool) (v : CapabilityAnswer),
      v ∈ r.answersOn id device pinned environment p ↔
        ∃ c ∈ r.ownedCapabilities id, p c = true ∧ r.answer device c pinned environment = v := by
    intro p v
    simp only [answersOn, List.mem_map, List.mem_filter, and_assoc]
  refine ⟨?_, ?_, ?_, ?_, ?_⟩
  · intro v hv' w hw he
    rw [hcur, hmem] at hv'
    rw [hsta, hmem] at hw
    obtain ⟨c, -, hp, rfl⟩ := hv'
    obtain ⟨c', -, hp', rfl⟩ := hw
    rw [hname, hname] at he
    subst he
    simp [hp] at hp'
  · intro capability
    rw [← mem_ownedCapabilities_iff hi capability]
    constructor
    · rintro ⟨v, hv', rfl⟩
      rcases List.mem_append.mp hv' with hm | hm
      · rw [hcur, hmem] at hm
        obtain ⟨c, hown, -, rfl⟩ := hm
        rwa [hname]
      · rw [hsta, hmem] at hm
        obtain ⟨c, hown, -, rfl⟩ := hm
        rwa [hname]
    · intro hown
      refine ⟨r.answer device capability pinned environment, List.mem_append.mpr ?_, hname _⟩
      rw [hcur, hsta, hmem, hmem]
      cases hp : r.hasCurrent device pinned capability with
      | true => exact .inl ⟨capability, hown, hp, rfl⟩
      | false => exact .inr ⟨capability, hown, by simp [hp], rfl⟩
  · have hkeys : ∀ p, (r.answersOn id device pinned environment p).map (fun v => v.capability) =
        (r.ownedCapabilities id).filter p := by
      intro p
      simp only [answersOn, List.map_map]
      exact (List.map_congr_left fun c _ => hname c).trans (List.map_id _)
    have hnodup := nodup_ownedCapabilities r id
    rw [List.map_append, hcur, hsta, hkeys, hkeys]
    refine List.Nodup.append (hnodup.filter _) (hnodup.filter _) fun c hm hm' => ?_
    simp only [List.mem_filter, Bool.not_eq_true'] at hm hm'
    simp [hm.2] at hm'
  · intro v hv'
    rcases List.mem_append.mp hv' with hm | hm
    · rw [hcur, hmem] at hm
      obtain ⟨c, hown, -, rfl⟩ := hm
      rw [hname]
      exact queryCapability_eq h hv hd hown
    · rw [hsta, hmem] at hm
      obtain ⟨c, hown, -, rfl⟩ := hm
      rw [hname]
      exact queryCapability_eq h hv hd hown
  · rintro rfl rfl
    obtain ⟨hcount, hcurrent, hstale⟩ := buildSubject_counts r device {}
    subst hn
    have hp : ∀ c ∈ r.ownedCapabilities device.identity.id,
        r.summarizedCurrent device {} c = r.hasCurrent device default c := by
      intro c hown
      obtain ⟨key, hk⟩ := Option.isSome_iff_exists.mp ((mem_ownedCapabilities_iff hi c).mp hown)
      exact summarizedCurrent_of_key hk
    have hlc : current.length = (r.ownedCapabilities device.identity.id).countP
        (r.hasCurrent device default) := by
      rw [hcur, answersOn, List.length_map, List.countP_eq_length_filter]
    have hls : stale.length = (r.ownedCapabilities device.identity.id).countP
        fun c => !r.hasCurrent device default c := by
      rw [hsta, answersOn, List.length_map, List.countP_eq_length_filter]
    have hcurrent' : (r.buildSubject device {}).currentCount = UInt64.ofNat current.length := by
      rw [hcurrent, hlc, List.countP_congr fun c hm => by rw [hp c hm]]
    have hstale' : (r.buildSubject device {}).staleCount = UInt64.ofNat stale.length := by
      rw [hstale, hls, List.countP_congr fun c hm => by rw [hp c hm]]
    refine ⟨hcurrent', hstale', ?_⟩
    have hsplit := List.length_eq_countP_add_countP (r.hasCurrent device default)
      (l := r.ownedCapabilities device.identity.id)
    simp only [Bool.not_eq_true, Bool.decide_eq_false] at hsplit
    rw [hcurrent', hstale', hcount, ← UInt64.ofNat_add, hlc, hls, ← hsplit]

/-- A device with one key, whose evidence is current. -/
def probedDevice : List Op := Sample.setup ++ [.apply Sample.now (Sample.evidence 2 Sample.capability)]

omit [StdLib] in
theorem listings_partition_keys_probed :
    letI := StdLib.reference
    ∃ device current stale, ((Impl.fresh {}).run probedDevice).Partitions (Id.parse "dev.a") device
      default {} current stale := by
  let := StdLib.reference
  obtain ⟨hd, howned⟩ : (((Impl.fresh {}).run probedDevice).devices[(Id.parse "dev.a" : DeviceId)]?).isSome =
      true ∧ (((Impl.fresh {}).run probedDevice).ownedCapabilities (Id.parse "dev.a")).length <
        ((Impl.fresh {}).run probedDevice).resultLimit 0 := by
    rw [Impl.fresh_eq]
    decide +kernel
  have hv : (Id.parse "dev.a" : DeviceId).valid = true := by decide
  obtain ⟨device, hd⟩ := Option.isSome_iff_exists.mp hd
  have hbound : ∀ keep : CapabilityId → Option CapabilityAnswer,
      (collect (((Impl.fresh {}).run probedDevice).resultLimit 0) keep
        (((Impl.fresh {}).run probedDevice).ownedCapabilities (Id.parse "dev.a")) []).length <
        ((Impl.fresh {}).run probedDevice).resultLimit 0 := fun keep =>
    (length_collect_le _ _).trans_lt (by simpa using howned)
  exact ⟨device, _, _,
    listings_partition_keys ⟨_, rfl⟩ hv hd (queryCapabilities_of_device hv hd 0)
      (queryStale_of_device hv hd 0) (hbound _) (hbound _)⟩

end Listings

end Impl

end CapabilityRegistry
