import CapabilityRegistry.Lib.Interleaving
import CapabilityRegistry.Arrivals

/-! Resolution does not depend on the order in which publishers' evidence arrives. -/
namespace CapabilityRegistry

/-- Every record was ingested live, under the one boot of its publisher. -/
def OneBoot (boot : PublisherId → PublisherBootId) (xs : List StoredRecord) : Prop :=
  ∀ s ∈ xs, s.slot = slotOf s.record ∧
    s.record.source.publisher.boot = boot s.record.source.publisher.id

/-- A publication or withdrawal of evidence for a key, under the one boot of its publisher and
without a capability generation of its own. -/
structure Contributes (id : KeyId) (boot : PublisherId → PublisherBootId) (p : Publication) :
    Prop where
  kind : p.kind.isCapability = true
  key : keyOf p.capability = id
  boot : p.publisher.boot = boot p.publisher.id
  ungenerated : p.capability.capabilityGeneration.valid = false

/-- The publisher of an arrival. -/
def sender (p : Publication) : PublisherId := p.publisher.id

namespace Impl
variable [StdLib] {limits : RegistryLimits} {r r' r₀ : Impl} {id : KeyId}
  {boot : PublisherId → PublisherBootId} {p q : Publication} {now now' : Timestamp}

/-- One arrival: a publication and the time its call reads. -/
def arrive (r : Impl) (e : Timestamp × Publication) : Impl := (r.applyLocked e.1 e.2).2

/-- The arrival is evidence for the key, and it is accepted. -/
def Welcomes (id : KeyId) (boot : PublisherId → PublisherBootId) (r : Impl)
    (e : Timestamp × Publication) : Prop :=
  Contributes id boot e.2 ∧ (r.applyLocked e.1 e.2).1.accepted = true

/-- What one publisher has to say about a key: its ledger and what each of its slots states. -/
def contribution (id : KeyId) (publisher : PublisherId) (r : Impl) :
    Option PublisherStateInternal ×
      (PublisherBootId → SourceClass → Option CapabilityRecord) :=
  (r.publishers[publisher]?, fun boot sourceClass =>
    r.statedAt id (liveSlot publisher boot sourceClass))

/-- A reachable registry in the setting of another, whose key holds evidence of one boot each. -/
structure Collecting (limits : RegistryLimits) (r₀ : Impl) (id : KeyId)
    (boot : PublisherId → PublisherBootId) (r : Impl) : Prop where
  reachable : Reachable limits r
  setting : SameSetting r₀ r
  oneBoot : OneBoot boot (recordsAt r.keys id)

theorem arrive_eq_after (r : Impl) (e : Timestamp × Publication) :
    r.arrive e = r.after (.apply e.1 e.2) := rfl

omit [StdLib] in
theorem sourceSlot_eq_liveSlot (p : Publication) : sourceSlot p =
    liveSlot p.publisher.id p.publisher.boot p.capability.source.sourceClass := rfl

omit [StdLib] in
/-- The records of the key stay of one boot each. -/
theorem Published.oneBoot (h : Published r p r') (hp : Contributes id boot p)
    (ho : OneBoot boot (recordsAt r.keys id)) : OneBoot boot (recordsAt r'.keys id) := by
  obtain ⟨hk, rfl, hboot, -⟩ := hp
  cases h with
  | duplicate publisher known spent keys => rwa [keys]
  | repeated q publisher record device key addressed authority beyond admitted known recorded
      records => rwa [records]
  | stored q publisher record device generation mid addressed authority beyond admitted fresh
      thins thins' =>
    intro s hs
    obtain ⟨schema, value, -, hcapability⟩ := prepare_capability hk addressed.prepared
    rcases List.mem_append.mp (thins'.sublist.subset hs) with hs | hs
    · obtain ⟨u, hu, hkept⟩ := mem_supersede hs
      rw [hkept.slot, hkept.record]
      exact ho u (thins.sublist.subset hu)
    · obtain rfl := List.mem_singleton.mp hs
      obtain ⟨value', -, rfl⟩ := (admitCapability_eq_ok admitted).value
      refine ⟨rfl, ?_⟩
      have hsource : q.capability.source.publisher = p.publisher := by rw [hcapability]; rfl
      have hstored : (r.storedAs { q.capability with value := value' } device
          generation).record.source = q.capability.source := rfl
      rw [hstored, hsource]
      exact hboot

/-- What a welcome arrival leaves: its publisher took it, and the key states what it says. -/
structure Effect (r : Impl) (id : KeyId) (p q : Publication) (publisher : PublisherStateInternal)
    (r' : Impl) : Prop where
  arrived : Arrived r p q publisher r'
  stated : (p.sequence = mark publisher p.publisher.boot ∧
      ∀ slot, r'.statedAt id slot = r.statedAt id slot) ∨
    (mark publisher p.publisher.boot < p.sequence ∧ ∃ record device,
      r.admitCapability q.capability = .ok (record, device) ∧ ∀ slot, r'.statedAt id slot =
        restated (r.statedAt id) (sourceSlot p) (qualify record device) slot)

theorem Effect.known {publisher : PublisherStateInternal} (h : Effect r id p q publisher r') :
    r.publishers[p.publisher.id]? = some publisher := by
  have hp := (prepare_eq_ok h.arrived.addressed.prepared).publisher
  rw [← hp]
  exact h.arrived.addressed.registered

theorem Collecting.effect (hc : Collecting limits r₀ id boot r) (hp : Contributes id boot p)
    (hacc : (r.applyLocked now p).1.accepted = true) :
    ∃ q publisher, Effect r id p q publisher (r.applyLocked now p).2 := by
  obtain ⟨haccounted, hslotted⟩ := reachable_slotted hc.reachable
  obtain ⟨q, publisher, ha⟩ := arrived haccounted hp.kind now hacc
  have hknown := ha.addressed.registered
  rw [(prepare_eq_ok ha.addressed.prepared).publisher] at hknown
  exact ⟨q, publisher, ha, (published haccounted hp.kind now hacc).1.stated hp.key hslotted
    (reachable_slotOrdered hc.reachable id) hp.kind hknown ha.addressed.prepared⟩

theorem Collecting.arrive {e : Timestamp × Publication} (hc : Collecting limits r₀ id boot r)
    (he : Welcomes id boot r e) : Collecting limits r₀ id boot (r.arrive e) := by
  obtain ⟨hp, hacc⟩ := he
  obtain ⟨q, publisher, ha, -⟩ := hc.effect hp hacc
  have hpub := (published (accounted_reachable hc.reachable) hp.kind e.1 hacc).1
  refine ⟨?_, hc.setting.trans ha.setting, hpub.oneBoot hp hc.oneBoot⟩
  rw [arrive_eq_after]
  exact reachable_after hc.reachable _

/-- Another publisher's evidence leaves a contribution alone. -/
theorem contribution_other {e : Timestamp × Publication} {publisher : PublisherId}
    (hc : Collecting limits r₀ id boot r) (he : Welcomes id boot r e)
    (hne : sender e.2 ≠ publisher) :
    contribution id publisher (r.arrive e) = contribution id publisher r := by
  obtain ⟨hp, hacc⟩ := he
  obtain ⟨q, state, ha, hstated⟩ := hc.effect hp hacc
  have hslot : ∀ boot sourceClass, sourceSlot e.2 ≠ liveSlot publisher boot sourceClass := by
    intro boot sourceClass
    rw [sourceSlot_eq_liveSlot]
    exact liveSlot_ne hne _ _ _ _
  refine Prod.ext ?_ ?_
  · have hpub : (r.arrive e).publishers = _ := ha.publishers
    simp only [contribution, hpub, setPublisher_publishers]
    exact if_neg hne
  · funext boot' sourceClass
    rcases hstated with ⟨-, hsame⟩ | ⟨-, record, device, -, hmoved⟩
    · exact hsame _
    · exact (hmoved _).trans (restated_other (hslot boot' sourceClass))

/-- A publisher's own evidence moves its contribution as the contribution alone decides. -/
theorem contribution_own {e e' : Timestamp × Publication} (hc : Collecting limits r₀ id boot r)
    (hc' : Collecting limits r₀ id boot r') (he : Welcomes id boot r e)
    (he' : Welcomes id boot r' e') (hsame : e.2 = e'.2)
    (hcon : contribution id (sender e.2) r = contribution id (sender e.2) r') :
    contribution id (sender e.2) (r.arrive e) = contribution id (sender e.2) (r'.arrive e') := by
  obtain ⟨now, p⟩ := e
  obtain ⟨now', p'⟩ := e'
  obtain rfl : p = p' := hsame
  obtain ⟨q, state, hef⟩ := hc.effect he.1 he.2
  obtain ⟨q', state', hef'⟩ := hc'.effect he'.1 he'.2
  have hsetting := hc.setting.symm.trans hc'.setting
  have hpublishers : r.publishers[p.publisher.id]? = r'.publishers[p.publisher.id]? :=
    congrArg Prod.fst hcon
  have hslots : ∀ boot sourceClass, r.statedAt id (liveSlot p.publisher.id boot sourceClass) =
      r'.statedAt id (liveSlot p.publisher.id boot sourceClass) :=
    fun boot sourceClass => congrFun (congrFun (congrArg Prod.snd hcon) boot) sourceClass
  obtain rfl : state = state' := by
    rw [hef.known, hef'.known] at hpublishers
    exact Option.some.inj hpublishers
  obtain rfl : q = q' := by
    have hq := hef'.arrived.addressed.prepared
    rw [prepare_congr hsetting, hef.arrived.addressed.prepared] at hq
    exact Except.ok.inj hq
  refine Prod.ext ?_ ?_
  · have h1 : (r.arrive (now, p)).publishers = _ := hef.arrived.publishers
    have h2 : (r'.arrive (now', p)).publishers = _ := hef'.arrived.publishers
    simp only [contribution, h1, h2, setPublisher_publishers, sender, if_true]
  · funext boot' sourceClass
    have h1 := hef.stated
    have h2 := hef'.stated
    rcases h1 with ⟨hspent, h1⟩ | ⟨hbeyond, record, device, hadm, h1⟩ <;>
      rcases h2 with ⟨hspent', h2⟩ | ⟨hbeyond', record', device', hadm', h2⟩
    · exact (h1 _).trans ((hslots _ _).trans (h2 _).symm)
    · exact (UInt64.lt_irrefl _ (hspent ▸ hbeyond')).elim
    · exact (UInt64.lt_irrefl _ (hspent' ▸ hbeyond)).elim
    · rw [admitCapability_congr hsetting, hadm] at hadm'
      obtain ⟨rfl, rfl⟩ := Prod.mk.inj (Except.ok.inj hadm')
      refine (h1 _).trans ((restated_congr ?_ (hslots _ _)).trans (h2 _).symm)
      rw [sourceSlot_eq_liveSlot]
      exact hslots _ _

/-- No limit stands in the way of one more record of the key. -/
def RoomFor (id : KeyId) (r : Impl) (_ : Timestamp × Publication) : Prop :=
  r.evidenceCount < r.limits.maxEvidenceHistory ∧
    (r.keys[id]? = none →
      ((r.deviceKeys[id.device]?).getD ∅).size < r.limits.maxCapabilitiesPerDevice ∧
        r.keys.size < r.limits.maxEvidenceHistory)

omit [StdLib] in
theorem checkKey_eq_none {key : KeyState} {record : CapabilityRecord}
    (hs : key.schema = record.schema) (hg : record.capabilityGeneration.valid = false) :
    checkKey key record = none := by
  simp [checkKey, hs, hg]

omit [StdLib] in
theorem makeRoom_eq_self (h : r.evidenceCount < r.limits.maxEvidenceHistory) : r.makeRoom = r := by
  rw [makeRoom, if_neg (Nat.not_le.mpr h)]

/-- Admitted evidence without a generation of its own is accepted where there is room. -/
theorem accepted_of_admitted {record : CapabilityRecord} {device : DeviceState}
    (h : Reachable limits r) (hk : q.kind.isCapability = true)
    (hadm : r.admitCapability q.capability = .ok (record, device)) (hid : keyOf record = id)
    (hg : record.capabilityGeneration.valid = false) {e : Timestamp × Publication}
    (hroom : RoomFor id r e) : (r.applyPayload q).1.accepted = true := by
  obtain ⟨hbound, hdescribed⟩ := reachable_described h
  have hadmits := admitCapability_eq_ok hadm
  subst hid
  have hev := evidenced_applyPayload r hk
  generalize r.applyPayload q = out at hev
  cases hev with
  | inadmissible result refusal refused =>
    rw [hadm] at refusal
    cases refusal
  | keyLimit record' device' result admitted unknown limit refused =>
    obtain ⟨rfl, rfl⟩ := Prod.mk.inj (Except.ok.inj (hadm.symm.trans admitted))
    obtain ⟨hdevice, hkeys⟩ := hroom.2 unknown
    have hdevice : ((r.deviceKeys[record.device]?).getD ∅).size <
        r.limits.maxCapabilitiesPerDevice := hdevice
    rw [keyLimitReached, if_neg (Nat.not_le.mpr hdevice), if_neg (Nat.not_le.mpr hkeys)] at limit
    cases limit
  | ungoverned record' device' key r'' result admitted opens refusal refused =>
    obtain ⟨rfl, rfl⟩ := Prod.mk.inj (Except.ok.inj (hadm.symm.trans admitted))
    obtain ⟨schema, hs, hc, -⟩ := hadmits.schema
    obtain ⟨value, -, hvalue⟩ := hadmits.value
    have hschema : key.schema = record.schema := by
      cases opens with
      | existing key known =>
        obtain ⟨schema', hs', hc'⟩ := hdescribed _ _ known
        rw [hvalue] at hc' ⊢
        exact hbound.unique hs' hs (hc'.trans hc.symm)
      | created unknown room => rfl
    rw [checkKey_eq_none hschema hg] at refusal
    cases refusal
  | saturated record' device' key r'' result admitted fresh full refused =>
    have hcount : (r''.bumped key record' device').evidenceCount <
        (r''.bumped key record' device').limits.maxEvidenceHistory := by
      cases fresh.opens <;> exact hroom.1
    rw [makeRoom_eq_self hcount] at full
    exact (Nat.not_le.mpr hcount full).elim
  | repeated record device key r'' result admitted opens governed recorded accepted => exact accepted
  | recorded record device key r'' result admitted fresh room accepted => exact accepted

/-- Whether evidence is welcome depends on what its publisher contributed, where there is room. -/
theorem welcomes_of_same {e e' : Timestamp × Publication} (hc : Collecting limits r₀ id boot r)
    (hc' : Collecting limits r₀ id boot r') (he : Welcomes id boot r e) (hsame : e.2 = e'.2)
    (hcon : contribution id (sender e.2) r = contribution id (sender e.2) r')
    (hroom : RoomFor id r' e') : Welcomes id boot r' e' := by
  obtain ⟨now, p⟩ := e
  obtain ⟨now', p'⟩ := e'
  obtain rfl : p = p' := hsame
  obtain ⟨q, state, hef⟩ := hc.effect he.1 he.2
  refine ⟨he.1, ?_⟩
  have hsetting := hc.setting.symm.trans hc'.setting
  have hadd := hef.arrived.addressed
  have hprepared : r'.prepare p = .ok q := (prepare_congr hsetting p).trans hadd.prepared
  have hp := prepare_eq_ok hprepared
  have hpublishers : r.publishers[p.publisher.id]? = r'.publishers[p.publisher.id]? :=
    congrArg Prod.fst hcon
  have hknown : r'.publishers[q.publisher.id]? = some state := by
    rw [hp.publisher, ← hpublishers, hef.known]
  have hkind : q.kind.isCapability = true := hp.kind ▸ he.1.kind
  have hauthority : r'.Authorized state q := by
    obtain ⟨hf, hl, hb, hepoch⟩ := hef.arrived.authority
    exact ⟨hf, hl, hb, hepoch.trans hsetting.judgement.epoch.symm⟩
  have hsent : ∀ {q' publisher'}, Addressed r' p q' publisher' → q' = q ∧ publisher' = state := by
    intro q' publisher' ha
    obtain rfl := Except.ok.inj (ha.prepared.symm.trans hprepared)
    exact ⟨rfl, Option.some.inj (ha.registered.symm.trans hknown)⟩
  have hi := ingested r' now' p
  change (r'.applyLocked now' p).1.accepted = true
  generalize r'.applyLocked now' p = out at hi
  cases hi with
  | shuttingDown result running refused =>
    rw [hsetting.shuttingDown, hadd.running] at running
    cases running
  | unprepared result running unprepared =>
    rw [hprepared] at unprepared
    cases unprepared
  | schema q' running prepared kind =>
    obtain rfl := Except.ok.inj (prepared.symm.trans hprepared)
    rw [kind] at hkind
    cases hkind
  | registration q' running prepared kind =>
    obtain rfl := Except.ok.inj (prepared.symm.trans hprepared)
    rw [kind] at hkind
    cases hkind
  | unknownPublisher q' result running prepared kind unregistered refused =>
    obtain rfl := Except.ok.inj (prepared.symm.trans hprepared)
    rw [hknown] at unregistered
    cases unregistered
  | unauthorized q' publisher result addressed refusal =>
    obtain ⟨rfl, rfl⟩ := hsent addressed
    rw [authorityRefusal_eq_none_iff.mpr hauthority] at refusal
    cases refusal
  | unsequenced q' publisher result addressed authority verdict refused =>
    obtain ⟨rfl, rfl⟩ := hsent addressed
    exact hef.arrived.verdict _ verdict
  | repeated q' publisher result addressed authority verdict accepted => exact accepted
  | handled q' publisher addressed authority verdict =>
    obtain ⟨rfl, rfl⟩ := hsent addressed
    rw [settle_accepted]
    have hlt := mark_lt_of_verdict verdict
    rw [hp.sequence, hp.publisher] at hlt
    rcases hef.stated with ⟨hspent, -⟩ | ⟨-, record, device, hadm, -⟩
    · exact (UInt64.lt_irrefl _ (hspent ▸ hlt)).elim
    · obtain ⟨value, -, hvalue⟩ := (admitCapability_eq_ok hadm).value
      obtain ⟨schema, value', -, hcapability⟩ := prepare_capability he.1.kind hprepared
      refine accepted_of_admitted hc'.reachable hkind ((admitCapability_congr hsetting _).trans hadm)
        ?_ ?_ hroom
      · rw [hvalue]
        exact (prepare_target he.1.kind hprepared).1.trans he.1.key
      · rw [hvalue, hcapability]
        exact he.1.ungenerated

theorem independent (limits : RegistryLimits) (r₀ : Impl) (id : KeyId)
    (boot : PublisherId → PublisherBootId) :
    Interleaving.Independent arrive Prod.snd sender (Welcomes id boot)
      (Collecting limits r₀ id boot) (contribution id) where
  keep hc he := hc.arrive he
  frame hc he hne := contribution_other hc he hne
  own hc hc' he he' hsame hcon := contribution_own hc hc' he he' hsame hcon

omit [StdLib] in
/-- Staleness reads no generation of the key, and nothing the judgement does not depend on. -/
theorem computeStaleness_congr {s t : StoredRecord} (hj : SameJudgement r r')
    (hp : t.persistent = s.persistent) (hu : t.record.unnumbered = s.record.unnumbered)
    (device : DeviceState) (target : DeviceGeneration) (targetIsCurrent : Bool) :
    r'.computeStaleness t device target targetIsCurrent =
      r.computeStaleness s device target targetIsCurrent := by
  have hbare : ∀ s : StoredRecord, r.computeStaleness s device target targetIsCurrent =
      r.computeStaleness ⟨s.record.unnumbered, s.persistent, [], 0⟩ device target
        targetIsCurrent := fun s => rfl
  rw [hj.computeStaleness, hbare t, hbare s, hp, hu]

section Candidates
variable {device : DeviceState} {target : DeviceGeneration} {targetIsCurrent : Bool}
  {s t : StoredRecord}

theorem Collecting.slotLatest_of_current (hc : Collecting limits r₀ id boot r)
    (hs : s ∈ recordsAt r.keys id)
    (hcur : r.computeStaleness s device target targetIsCurrent = .none) :
    slotLatest (recordsAt r.keys id) s.slot = some s := by
  have hn := ((reachable_slotted hc.reachable).2.newest id s hs).mp (unmarked_of_current hcur).1
  exact (reachable_slotOrdered hc.reachable id).slotLatest hs hn

/-- Only one record of a publisher and source class is current. -/
theorem Collecting.unique_of_current (hc : Collecting limits r₀ id boot r)
    (hs : s ∈ recordsAt r.keys id) (ht : t ∈ recordsAt r.keys id)
    (hcur : r.computeStaleness s device target targetIsCurrent = .none)
    (hcur' : r.computeStaleness t device target targetIsCurrent = .none)
    (hid : s.record.source.publisher.id = t.record.source.publisher.id)
    (hclass : s.record.source.sourceClass = t.record.source.sourceClass) : s = t := by
  obtain ⟨hslot, hboot⟩ := hc.oneBoot s hs
  obtain ⟨hslot', hboot'⟩ := hc.oneBoot t ht
  have he : s.slot = t.slot := by
    rw [hslot, hslot', slotOf_eq_liveSlot, slotOf_eq_liveSlot, hboot, hboot', hid, hclass]
  have hl := hc.slotLatest_of_current hs hcur
  rw [he, hc.slotLatest_of_current ht hcur'] at hl
  exact (Option.some.inj hl).symm

/-- What one registry holds as current evidence the other one does, if every publisher contributed
the same to both. -/
theorem Collecting.current_of_contributions (hc : Collecting limits r₀ id boot r)
    (hc' : Collecting limits r₀ id boot r')
    (hcon : ∀ publisher, contribution id publisher r = contribution id publisher r')
    (hs : s ∈ recordsAt r.keys id)
    (hcur : r.computeStaleness s device target targetIsCurrent = .none) :
    ∃ t ∈ recordsAt r'.keys id, r'.computeStaleness t device target targetIsCurrent = .none ∧
      t.record.unnumbered = s.record.unnumbered := by
  have hl := hc.slotLatest_of_current hs hcur
  rw [(hc.oneBoot s hs).1, slotOf_eq_liveSlot] at hl
  have hstated : r.statedAt id (liveSlot s.record.source.publisher.id
      s.record.source.publisher.boot s.record.source.sourceClass) = some s.record.unnumbered := by
    rw [statedAt, hl]
    rfl
  have hsame := congrFun (congrFun (congrArg Prod.snd (hcon s.record.source.publisher.id))
    s.record.source.publisher.boot) s.record.source.sourceClass
  have hstated' := hsame.symm.trans hstated
  obtain ⟨t, ht, hu⟩ := Option.map_eq_some_iff.mp hstated'
  refine ⟨t, ((slotLatest_spec _ _).2 t ht).1, ?_, hu⟩
  have hp := ((reachable_slotted hc'.reachable).2.newest id).persistent_slotLatest ht
  rw [← hcur]
  refine computeStaleness_congr (hc.setting.symm.trans hc'.setting).judgement ?_ hu _ _ _
  rw [hp, (unmarked_of_current hcur).1]

/-- Registries that every publisher contributed the same to resolve the key alike. -/
theorem Collecting.verdict_eq {capability : CapabilityId} {pinned : DeviceGeneration}
    {environment : EnvironmentContext} (hsort : CurrentSorted)
    (hid : id = KeyId.mk device.identity.id capability) (hc : Collecting limits r₀ id boot r)
    (hc' : Collecting limits r₀ id boot r')
    (hcon : ∀ publisher, contribution id publisher r = contribution id publisher r')
    (hs : s ∈ recordsAt r.keys id)
    (hcur : r.computeStaleness s device (if pinned.valid then pinned else device.generation)
      ((if pinned.valid then pinned else device.generation) == device.generation) = .none) :
    (r.resolve device capability pinned environment).verdict =
      (r'.resolve device capability pinned environment).verdict := by
  obtain ⟨t, ht, hcur', -⟩ := hc.current_of_contributions hc' hcon hs hcur
  have hkey : ∀ {r : Impl} {s : StoredRecord}, s ∈ recordsAt r.keys id →
      ∃ key, r.keys[id]? = some key ∧ recordsAt r.keys id = key.records := by
    intro r s hs
    cases hk : r.keys[id]? with
    | none => simp [recordsAt_of_none hk] at hs
    | some key => exact ⟨key, rfl, recordsAt_of_some hk⟩
  obtain ⟨key, hk, hrec⟩ := hkey hs
  obtain ⟨key', hk', hrec'⟩ := hkey ht
  generalize htarget : (if pinned.valid then pinned else device.generation) = target at hcur hcur'
  cases hlist : ((r.flagged key device target (target == device.generation)).filter
      fun e => e.2 == .none).map Prod.fst with
  | nil =>
    have hm := mem_current.mpr ⟨hrec ▸ hs, hcur⟩
    rw [hlist] at hm
    cases hm
  | cons first rest =>
    cases hlist' : ((r'.flagged key' device target (target == device.generation)).filter
        fun e => e.2 == .none).map Prod.fst with
    | nil =>
      have hm := mem_current.mpr ⟨hrec' ▸ ht, hcur'⟩
      rw [hlist'] at hm
      cases hm
    | cons first' rest' =>
      have hmem : ∀ {u}, u ∈ first :: rest ↔ u ∈ recordsAt r.keys id ∧
          r.computeStaleness u device target (target == device.generation) = .none := by
        intro u
        rw [← hlist, mem_current, hrec]
      have hmem' : ∀ {u}, u ∈ first' :: rest' ↔ u ∈ recordsAt r'.keys id ∧
          r'.computeStaleness u device target (target == device.generation) = .none := by
        intro u
        rw [← hlist', mem_current, hrec']
      have hcovers : Covers (first :: rest) (first' :: rest') := by
        intro u hu
        obtain ⟨hu, hucur⟩ := hmem.mp hu
        obtain ⟨v, hv, hvcur, he⟩ := hc.current_of_contributions hc' hcon hu hucur
        exact ⟨v, hmem'.mpr ⟨hv, hvcur⟩, he⟩
      have hcovers' : Covers (first' :: rest') (first :: rest) := by
        intro u hu
        obtain ⟨hu, hucur⟩ := hmem'.mp hu
        obtain ⟨v, hv, hvcur, he⟩ := hc'.current_of_contributions hc
          (fun publisher => (hcon publisher).symm) hu hucur
        exact ⟨v, hmem.mpr ⟨hv, hvcur⟩, he⟩
      have hone : OnePerSource (first :: rest) := by
        intro u hu v hv hpid hclass
        obtain ⟨hu, hucur⟩ := hmem.mp hu
        obtain ⟨hv, hvcur⟩ := hmem.mp hv
        exact hc.unique_of_current hu hv hucur hvcur hpid hclass
      have hone' : OnePerSource (first' :: rest') := by
        intro u hu v hv hpid hclass
        obtain ⟨hu, hucur⟩ := hmem'.mp hu
        obtain ⟨hv, hvcur⟩ := hmem'.mp hv
        exact hc'.unique_of_current hu hv hucur hvcur hpid hclass
      have hwinner := selectWinner_unnumbered hcovers hcovers' hone
      have hsetting := hc.setting.symm.trans hc'.setting
      subst htarget hid
      rw [verdict_of_current hsort hk hlist hone, verdict_of_current hsort hk' hlist' hone',
        gatherQuirks_congr hsetting.judgement.limits hsetting.quirks,
        classifyContradiction_congr hwinner hcovers hcovers']
      exact verdictOf_unnumbered hwinner _ _ _

end Candidates

/-- The arrival is accepted. -/
def Accepting (r : Impl) (e : Timestamp × Publication) : Prop :=
  (r.applyLocked e.1 e.2).1.accepted = true

theorem along_welcomes {xs : List (Timestamp × Publication)}
    (hfamily : ∀ e ∈ xs, Contributes id boot e.2) (h : Machine.Along arrive Accepting r xs) :
    Machine.Along arrive (Welcomes id boot) r xs := by
  induction xs generalizing r with
  | nil => trivial
  | cons e xs ih =>
    exact ⟨⟨hfamily e List.mem_cons_self, h.1⟩,
      ih (fun e he => hfamily e (List.mem_cons_of_mem _ he)) h.2⟩

/-- From any reachable registry whose key holds evidence of one boot for each publisher, let a
family of publications and withdrawals for the key be accepted in some order that leaves a current
record. Then in every other order that keeps each publisher's own, and in which no limit is reached,
they are accepted too and the key resolves to the same verdict, in every environment. -/
theorem resolution_is_order_independent (hsort : CurrentSorted) (h : Reachable limits r)
    (boot : PublisherId → PublisherBootId) (device : DeviceState) (capability : CapabilityId)
    (held : OneBoot boot (recordsAt r.keys ⟨device.identity.id, capability⟩))
    (xs ys : List (Timestamp × Publication))
    (hfamily : ∀ e ∈ xs, Contributes ⟨device.identity.id, capability⟩ boot e.2)
    (horder : Interleaving.Interleaves Prod.snd sender xs ys)
    (haccepted : Machine.Along arrive Accepting r xs)
    (hroom : Machine.Along arrive (RoomFor ⟨device.identity.id, capability⟩) r ys)
    (pinned : DeviceGeneration)
    (hcurrent : ∃ s ∈ recordsAt (xs.foldl arrive r).keys ⟨device.identity.id, capability⟩,
      (xs.foldl arrive r).computeStaleness s device
        (if pinned.valid then pinned else device.generation)
        ((if pinned.valid then pinned else device.generation) == device.generation) = .none) :
    Machine.Along arrive Accepting r ys ∧ ∀ environment,
      ((xs.foldl arrive r).resolve device capability pinned environment).verdict =
        ((ys.foldl arrive r).resolve device capability pinned environment).verdict := by
  have hstart : Collecting limits r ⟨device.identity.id, capability⟩ boot r :=
    ⟨h, SameSetting.refl r, held⟩
  have hind := independent limits r ⟨device.identity.id, capability⟩ boot
  have hx := along_welcomes hfamily haccepted
  have hy : Machine.Along arrive (Welcomes ⟨device.identity.id, capability⟩ boot) r ys :=
    hind.along (fun hc hc' he hsame hcon hready => welcomes_of_same hc hc' he hsame hcon hready)
      hstart hx hroom fun publisher => horder publisher ▸ List.prefix_refl _
  refine ⟨hy.mono fun r e he => he.2, fun environment => ?_⟩
  have hcon : ∀ publisher, contribution ⟨device.identity.id, capability⟩ publisher
      (xs.foldl arrive r) = contribution ⟨device.identity.id, capability⟩ publisher
      (ys.foldl arrive r) :=
    fun publisher => hind.view_eq hstart hstart rfl hx hy (horder publisher)
  obtain ⟨s, hs, hcur⟩ := hcurrent
  exact Collecting.verdict_eq hsort rfl (hx.invariant hstart fun _ _ => hind.keep)
    (hy.invariant hstart fun _ _ => hind.keep) hcon hs hcur

/-- A second publisher, which knows the sample device from a table. -/
def curator : PublisherIdentity := { id := Id.parse "pub.b", boot := .first, epoch := .first }

/-- Curated evidence against what the sample evidence asserts. -/
def curatedDenial : Publication :=
  { kind := .publishCapability
    publisher := curator
    sequence := 1
    capability :=
      { Sample.capability with
        support := .unsupported
        value := .none
        source :=
          { sourceClass := .staticCuratedDatabase, provenance := .curatedStatic, adapter := "table" } } }

/-- Two registered publishers and a registered device. -/
def conflictSetup : List Op :=
  Sample.setup ++ [.registerPublisher Sample.now { id := curator.id } "adapter"]

omit [StdLib] in
theorem interleaves_conflict : Interleaving.Interleaves Prod.snd sender
    [(Sample.now, Sample.evidence 2 Sample.capability), (Sample.now, curatedDenial)]
    [(Sample.now, curatedDenial), (Sample.now, Sample.evidence 2 Sample.capability)] := by
  intro a
  have hne : sender (Sample.evidence 2 Sample.capability) ≠ sender curatedDenial := by decide
  by_cases hl : sender (Sample.evidence 2 Sample.capability) = a
  · have hc : sender curatedDenial ≠ a := fun he => hne (hl.trans he.symm)
    simp [Interleaving.own, hl, hc]
  · simp [Interleaving.own, List.filter_cons, hl]

omit [StdLib] in
theorem resolution_is_order_independent_conflict :
    letI := StdLib.currentSorted
    (([(Sample.now, Sample.evidence 2 Sample.capability),
        (Sample.now, curatedDenial)].foldl arrive ((Impl.fresh {}).run conflictSetup)).resolve
        (createDevice Sample.device) (Id.parse "cap.compute.fp64") default {}).verdict =
      (([(Sample.now, curatedDenial),
        (Sample.now, Sample.evidence 2 Sample.capability)].foldl arrive
        ((Impl.fresh {}).run conflictSetup)).resolve
        (createDevice Sample.device) (Id.parse "cap.compute.fp64") default {}).verdict := by
  let := StdLib.currentSorted
  obtain ⟨⟨hfirst, hsecond⟩, ⟨hroom, hroom'⟩, hcurrent⟩ :
      let r := (Impl.fresh {}).run conflictSetup
      let e := (Sample.now, Sample.evidence 2 Sample.capability)
      let d := (Sample.now, curatedDenial)
      let device := createDevice Sample.device
      let id : KeyId := ⟨device.identity.id, Id.parse "cap.compute.fp64"⟩
      let pinned := if (default : DeviceGeneration).valid then default else device.generation
      (r.Accepting e ∧ (r.arrive e).Accepting d) ∧ (r.RoomFor id d ∧ (r.arrive d).RoomFor id e) ∧
        ∃ s ∈ recordsAt ([e, d].foldl arrive r).keys id,
          ([e, d].foldl arrive r).computeStaleness s device pinned (pinned == device.generation) =
            .none := by
    unfold Accepting RoomFor
    rw [Impl.fresh_eq]
    decide +kernel
  refine (resolution_is_order_independent currentSorted_currentSorted ⟨conflictSetup, rfl⟩
    (fun _ => .first) (createDevice Sample.device) (Id.parse "cap.compute.fp64") ?_
    [(Sample.now, Sample.evidence 2 Sample.capability), (Sample.now, curatedDenial)]
    [(Sample.now, curatedDenial), (Sample.now, Sample.evidence 2 Sample.capability)] ?_
    interleaves_conflict ?_ ?_ default ?_).2 {}
  · have hnone : recordsAt ((Impl.fresh {}).run conflictSetup).keys
        ⟨(createDevice Sample.device).identity.id, Id.parse "cap.compute.fp64"⟩ = [] := by
      refine List.length_eq_zero_iff.mp ?_
      rw [Impl.fresh_eq]
      decide
    intro s hs
    rw [hnone] at hs
    cases hs
  · intro e he
    rcases List.mem_cons.mp he with rfl | he
    · exact ⟨rfl, by decide, rfl, by decide⟩
    · obtain rfl := List.mem_singleton.mp he
      exact ⟨rfl, by decide, rfl, by decide⟩
  · exact ⟨hfirst, hsecond, trivial⟩
  · exact ⟨hroom, hroom', trivial⟩
  · exact hcurrent

end Impl

end CapabilityRegistry
