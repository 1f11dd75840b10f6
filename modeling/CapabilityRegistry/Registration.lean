import CapabilityRegistry.Deployment

/-! Which boot a fresh registration is given, and that its holder is let in. -/
namespace CapabilityRegistry

/-- The codes that refuse a sender because of its boot. -/
def ApplyCode.deniesBoot : ApplyCode → Bool
  | .rejectedFencedPublisher | .rejectedStaleBoot => true
  | _ => false

/-- The codes that refuse a sender because of a fence, its boot or its epoch. -/
def ApplyCode.deniesSender : ApplyCode → Bool
  | .rejectedFencedPublisher | .rejectedStaleBoot | .rejectedStaleEpoch => true
  | _ => false

theorem ApplyCode.deniesBoot_of_deniesSender {code : ApplyCode} (h : code.deniesSender = false) :
    code.deniesBoot = false := by
  cases code <;> first | rfl | cases h

/-- The call registers a publisher, directly or by a publication. -/
def Op.Registers (id : PublisherId) : Op → Prop
  | .registerPublisher _ identity _ => identity.id = id
  | .apply _ publication => publication.kind = .registerPublisher ∧ publication.publisher.id = id
  | _ => False

namespace Impl
variable {r r' : Impl} {op : Op} {id : PublisherId} {boot : PublisherBootId} {now : Timestamp}
  {publication q : Publication} {adapter : Text} {identity : PublisherIdentity}
  {publisher s : PublisherStateInternal} {watermark : PublisherWatermark} {result : ApplyResult}
  {record : CapabilityRecord} {key : KeyState} {x y : Option PublisherStateInternal}

section Codes

theorem prepare_error_code (h : r.prepare publication = .error result) :
    result.code ∈ [.rejectedUnknownSchema, .rejectedValidation] := by
  simp only [prepare, bind_eq_error] at h
  rcases h with h | ⟨_, _, h | ⟨_, _, h⟩⟩
  · unfold bindSchema at h
    repeat' split at h
    all_goals first | cases h; done | (obtain rfl := Except.error.inj h; simp)
  · unfold bindValue at h
    repeat' split at h
    all_goals first | cases h; done | (obtain rfl := Except.error.inj h; simp)
  · unfold checkPublication at h
    repeat' split at h
    all_goals first | cases h; done | (obtain rfl := Except.error.inj h; simp)

theorem authorityRefusal_code (h : r.authorityRefusal publisher q = some result) :
    result.code ∈ [.rejectedFencedPublisher, .rejectedStaleBoot, .rejectedStaleEpoch] := by
  unfold authorityRefusal at h
  dsimp only at h
  repeat' split at h
  all_goals first | cases h; done | (obtain rfl := Option.some.inj h; simp)

theorem admitCapability_error_code (h : r.admitCapability record = .error result) :
    result.code ∈ [.rejectedUnknownSchema, .rejectedValidation, .rejectedUnknownDevice,
      .rejectedStaleDeviceGeneration] := by
  unfold admitCapability at h
  repeat' split at h
  all_goals first | cases h; done | (obtain rfl := Except.error.inj h; simp)

theorem checkKey_code (h : checkKey key record = some result) :
    result.code ∈ [.rejectedValidation, .rejectedStaleCapabilityGeneration] := by
  unfold checkKey at h
  repeat' split at h
  all_goals first | cases h; done | (obtain rfl := Option.some.inj h; simp)

theorem keyLimitReached_code (h : r.keyLimitReached record = some result) :
    result.code = .rejectedLimit := by
  unfold keyLimitReached at h
  repeat' split at h
  all_goals first | cases h; done | (obtain rfl := Option.some.inj h; rfl)

theorem applyDevice_code (r : Impl) (q : Publication) :
    (r.applyDevice q).1.code ∈ [.rejectedLimit, .accepted] := by
  unfold applyDevice
  dsimp only
  split
  · split
    · simp
    · split <;> simp
  · simp

theorem applyQuirk_code (r : Impl) (q : Publication) :
    (r.applyQuirk q).1.code ∈ [.rejectedUnknownSchema, .rejectedUnknownDevice, .rejectedValidation,
      .rejectedLimit, .rejectedStaleCapabilityGeneration, .rejectedGenerationRegression,
      .rejectedDuplicateConflict, .acceptedIdempotent, .accepted] := by
  unfold applyQuirk withdrawQuirk publishQuirk
  repeat' split
  all_goals simp

theorem applyCompatibility_code (r : Impl) (q : Publication) :
    (r.applyCompatibility q).1.code ∈ [.rejectedUnknownDevice, .rejectedValidation, .rejectedLimit,
      .rejectedStaleCapabilityGeneration, .rejectedGenerationRegression,
      .rejectedDuplicateConflict, .acceptedIdempotent, .accepted] := by
  unfold applyCompatibility withdrawCompatibility publishCompatibility
  dsimp only
  repeat' split
  all_goals simp [unresolvedReference]

theorem applyCapability_deniesSender : (r.applyCapability q).1.code.deniesSender = false := by
  unfold applyCapability
  split
  · next result ha =>
    exact (by decide : ∀ code ∈ _, ApplyCode.deniesSender code = false) _ (admitCapability_error_code ha)
  · split
    · next result r' ho =>
      obtain ⟨-, hl, -⟩ := openKey_eq_error ho rfl
      rw [keyLimitReached_code hl]
      rfl
    · split
      · next result hc =>
        exact (by decide : ∀ code ∈ _, ApplyCode.deniesSender code = false) _ (checkKey_code hc)
      · unfold recordEvidence
        dsimp only
        repeat' split
        all_goals rfl

/-- No payload handler refuses a sender. -/
theorem applyPayload_deniesSender : (r.applyPayload q).1.code.deniesSender = false := by
  have hdevice := (by decide : ∀ code ∈ _, ApplyCode.deniesSender code = false) _
    (applyDevice_code r q)
  have hquirk := (by decide : ∀ code ∈ _, ApplyCode.deniesSender code = false) _
    (applyQuirk_code r q)
  have hcompatibility := (by decide : ∀ code ∈ _, ApplyCode.deniesSender code = false) _
    (applyCompatibility_code r q)
  unfold applyPayload
  split
  · exact hdevice
  · exact hdevice
  · exact applyCapability_deniesSender
  · exact applyCapability_deniesSender
  · exact hquirk
  · exact hquirk
  · exact hcompatibility
  · exact hcompatibility
  · rfl
  · rfl
  · rfl

/-- The registered boot of a publisher with nothing against it is let in. -/
theorem registerPublisherLocked_live (hs : r.publishers[identity.id]? = some s)
    (hf : s.publisherFenced = false) (hv : identity.boot.valid = true)
    (hl : identity.boot ∉ s.fencedBoots) (hb : s.record.identity.boot = identity.boot) :
    (r.registerPublisherLocked now identity adapter).1.code.deniesSender = false := by
  unfold registerPublisherLocked
  split
  · rfl
  · split
    · rfl
    · simp [hs, hf, hv, hl, hb, ApplyCode.deniesSender]

variable [StdLib]

theorem sequenceVerdict_code (h : sequenceVerdict publisher watermark q = some result) :
    result.code ∈ [.rejectedStaleSequence, .acceptedIdempotent, .rejectedDuplicateConflict,
      .rejectedGenerationRegression] := by
  unfold sequenceVerdict at h
  dsimp only at h
  repeat' split at h
  all_goals first | cases h; done | (obtain rfl := Option.some.inj h; simp)

theorem settle_code (r : Impl) (publisher : PublisherStateInternal)
    (watermark : PublisherWatermark) (q : Publication) (result : ApplyResult) :
    (r.settle publisher watermark q result).1.code = result.code := by
  unfold settle
  split <;> rfl

/-- The publisher is registered under this boot and nothing is held against it. -/
structure Admitted (r : Impl) (id : PublisherId) (boot : PublisherBootId) : Prop where
  running : r.shuttingDown = false
  live : ∃ s, r.publishers[id]? = some s ∧ s.publisherFenced = false ∧
    s.record.identity.boot = boot ∧ boot ∉ s.fencedBoots
  valid : boot.valid = true

/-- A publication of a sender that passes the authority checks is not refused for its sender. -/
theorem applyLocked_of_authorized (hs : r.publishers[publication.publisher.id]? = some s)
    (ha : r.Authorized s publication) (now : Timestamp) :
    (r.applyLocked now publication).1.code.deniesSender = false := by
  obtain ⟨hf, hl, hb, he⟩ := ha
  by_cases hrun : r.shuttingDown = true
  · rw [applyLocked, if_pos hrun]
    rfl
  have hi := ingested r now publication
  generalize r.applyLocked now publication = out at hi
  cases hi with
  | shuttingDown result running refused => exact (hrun running).elim
  | unprepared result running unprepared =>
    exact (by decide : ∀ code ∈ _, ApplyCode.deniesSender code = false) _
      (prepare_error_code unprepared)
  | schema q running prepared kind =>
    unfold applySchema
    split
    · dsimp only
      split <;> rfl
    · rfl
  | registration q running prepared kind =>
    have hp := (prepare_eq_ok prepared).publisher
    have hv := (prepare_eq_ok prepared).valid
    simp only [validatePublication, status_bind_eq_ok, require_eq_ok] at hv
    exact registerPublisherLocked_live (hp ▸ hs) hf hv.2.1 (hp ▸ hl) (hp ▸ hb)
  | unknownPublisher q result running prepared kind unregistered refused =>
    rw [(prepare_eq_ok prepared).publisher, hs] at unregistered
    cases unregistered
  | unauthorized q publisher result addressed refusal =>
    have hp := (prepare_eq_ok addressed.prepared).publisher
    have hreg := addressed.registered
    rw [hp, hs] at hreg
    obtain rfl := Option.some.inj hreg
    rw [authorityRefusal_eq_none_iff.mpr ⟨hf, hp ▸ hl, hp ▸ hb, hp ▸ he⟩] at refusal
    cases refusal
  | repeated q publisher result addressed authority verdict =>
    exact (by decide : ∀ code ∈ _, ApplyCode.deniesSender code = false) _
      (sequenceVerdict_code verdict)
  | unsequenced q publisher result addressed authority verdict =>
    exact (by decide : ∀ code ∈ _, ApplyCode.deniesSender code = false) _
      (sequenceVerdict_code verdict)
  | handled q publisher addressed authority verdict =>
    rw [settle_code]
    exact applyPayload_deniesSender

/-- A publication under an admitted boot and the current epoch is not refused for its boot. -/
theorem applyLocked_of_admitted (h : r.Admitted publication.publisher.id publication.publisher.boot)
    (he : publication.publisher.epoch = r.epoch) (now : Timestamp) :
    (r.applyLocked now publication).1.code.deniesBoot = false := by
  obtain ⟨-, ⟨s, hs, hf, hb, hl⟩, -⟩ := h
  exact ApplyCode.deniesBoot_of_deniesSender (applyLocked_of_authorized hs ⟨hf, hl, hb, he⟩ now)

end Codes

section Ceilings

/-- The boot a publisher holds now; zero before its first registration. -/
def currentBoot (r : Impl) (id : PublisherId) : PublisherBootId :=
  ((r.publishers[id]?).map fun s => s.record.identity.boot).getD default

theorem currentBoot_of_some (h : r.publishers[id]? = some s) :
    r.currentBoot id = s.record.identity.boot := by
  simp [currentBoot, h]

theorem currentBoot_of_none (h : r.publishers[id]? = none) : r.currentBoot id = default := by
  simp [currentBoot, h]

/-- No boot of a publisher that was assigned or fenced lies above the one it holds. -/
structure Below (r : Impl) (assigned : PublisherId → PublisherBootId → Prop) : Prop where
  assigned : ∀ id boot, assigned id boot → boot ≤ r.currentBoot id
  fenced : ∀ id s, r.publishers[id]? = some s → ∀ boot ∈ s.fencedBoots, boot ≤ r.currentBoot id

/-- A call that neither fences a boot ahead of the one held, nor wraps a boot counter, nor
restores a file that is behind the registry or in disorder. -/
structure Orderly (r : Impl) (op : Op) : Prop where
  retirement : ∀ id boot reason, op = .retirePublisherBoot id boot reason →
    boot ≤ r.currentBoot id
  registration : ∀ id, op.Requests id → r.currentBoot id ≠ Gen.last
  restoration : ∀ state, op = .importDurableState state → r.Restores op → ∀ id,
    r.currentBoot id ≤ restoredBoot state id ∧
      ∀ boot, FencedIn state.fencedBoots id boot → boot ≤ restoredBoot state id

/-- The call registers a publisher and is given this boot. -/
def Assigns [StdLib] (r : Impl) (op : Op) (id : PublisherId) (boot : PublisherBootId) : Prop :=
  op.Registers id ∧ ∃ result, (r.step op).1 = .applied result ∧ result.accepted = true ∧
    result.assignedPublisher.boot = boot

/-- The boots a run has assigned to each publisher. -/
def Assigned [StdLib] : Impl → List Op → PublisherId → PublisherBootId → Prop
  | _, [], _, _ => False
  | r, op :: ops, id, boot => r.Assigns op id boot ∨ Assigned (r.after op) ops id boot

theorem lt_freshBoot (r : Impl) (now : Timestamp) (adapter : Text)
    (h : s.record.identity.boot ≠ Gen.last) :
    s.record.identity.boot < (r.freshBoot now adapter s).record.identity.boot := by
  simp only [freshBoot]
  split
  · exact Gen.lt_next h
  · next hv =>
    have hz : s.record.identity.boot = default := by
      by_contra hne
      exact hv (Gen.valid_iff.mpr hne)
    rw [hz]
    exact (by decide : (default : PublisherBootId) < .first)

theorem retireState_identity (boot : PublisherBootId) (reason : Text)
    (s : PublisherStateInternal) : (retireState boot reason s).record.identity = s.record.identity := by
  unfold retireState
  dsimp only
  split <;> rfl

theorem resetState_identity (reason : Text) (s : PublisherStateInternal) :
    (resetState reason s).record.identity = s.record.identity := by
  unfold resetState
  split <;> rfl

theorem mem_insert_boot {boots : Std.ExtTreeSet PublisherBootId} {c : Bool} {own : PublisherBootId}
    (h : boot ∈ (if c then boots.insert own else boots)) : boot = own ∨ boot ∈ boots := by
  split at h
  · rcases Std.ExtTreeSet.mem_insert.mp h with he | hm
    · exact .inl (Std.LawfulEqOrd.eq_of_compare he).symm
    · exact .inr hm
  · exact .inr h

/-- The boot of a publisher only grows while its counter does not wrap. -/
theorem boot_grows (h : PublisherMove r id op x y) (hx : x = r.publishers[id]?)
    (hl : op.Requests id → r.currentBoot id ≠ Gen.last) :
    r.currentBoot id ≤ (y.map fun s => s.record.identity.boot).getD default := by
  have hcur : ∀ s, x = some s → r.currentBoot id = s.record.identity.boot := fun s hs =>
    currentBoot_of_some (hx ▸ hs)
  cases h with
  | unmoved =>
    rw [hx]
    exact Gen.le_refl _
  | first op now adapter =>
    rw [currentBoot_of_none hx.symm]
    exact (by decide : (default : PublisherBootId) ≤ .first)
  | fresh op now adapter state unfenced request =>
    have hlast := hl request
    rw [hcur state rfl] at hlast ⊢
    exact Gen.le_of_lt (lt_freshBoot r now adapter hlast)
  | reaffirmed op adapter state unfenced valid live =>
    rw [hcur state rfl]
    exact Gen.le_refl _
  | fenced reason state unfenced =>
    rw [hcur state rfl]
    exact Gen.le_refl _
  | retired b reason state valid live =>
    rw [hcur state rfl, Option.map_some, Option.getD_some, retireState_identity]
    exact Gen.le_refl _
  | reset reason state =>
    rw [hcur state rfl, Option.map_some, Option.getD_some, resetState_identity]
    exact Gen.le_refl _
  | noted op state state' same =>
    rw [hcur state rfl, Option.map_some, Option.getD_some, same.identity]
    exact Gen.le_refl _

/-- The fenced boots of a publisher stay at or below the one it holds. -/
theorem fencedBoots_move (h : PublisherMove r id op x y) (ho : r.Orderly op)
    (hx : x = r.publishers[id]?)
    (hf : ∀ s, x = some s → ∀ boot ∈ s.fencedBoots, boot ≤ r.currentBoot id) :
    ∀ s, y = some s → ∀ boot ∈ s.fencedBoots, boot ≤ s.record.identity.boot := by
  have hgrow := boot_grows h hx (ho.registration id)
  have hcur : ∀ s, x = some s → r.currentBoot id = s.record.identity.boot := fun s hs =>
    currentBoot_of_some (hx ▸ hs)
  -- a publisher that gains its own boot as a fenced one stays in order
  have hins : ∀ (s : PublisherStateInternal) (c : Bool), x = some s → ∀ boot ∈
      (if c then s.fencedBoots.insert s.record.identity.boot else s.fencedBoots),
      boot ≤ r.currentBoot id := by
    intro s c hs boot hb
    rcases mem_insert_boot hb with rfl | hb
    · rw [hcur s hs]
      exact Gen.le_refl _
    · exact hf s hs boot hb
  have hle : ∀ s, y = some s → ∀ boot, boot ≤ r.currentBoot id → boot ≤ s.record.identity.boot := by
    rintro s rfl boot hb
    exact Gen.le_trans hb hgrow
  intro s hs boot hb
  refine hle s hs boot ?_
  cases h with
  | unmoved => exact hf s hs boot hb
  | first op now adapter =>
    obtain rfl := Option.some.inj hs
    simp [newPublisher] at hb
  | fresh op now adapter state unfenced request =>
    obtain rfl := Option.some.inj hs
    exact hins state _ rfl boot hb
  | reaffirmed op adapter state unfenced valid live =>
    obtain rfl := Option.some.inj hs
    exact hf state rfl boot hb
  | fenced reason state unfenced =>
    obtain rfl := Option.some.inj hs
    exact hins state _ rfl boot hb
  | retired b reason state valid live =>
    obtain rfl := Option.some.inj hs
    rcases Std.ExtTreeSet.mem_insert.mp hb with he | hb
    · rw [← Std.LawfulEqOrd.eq_of_compare he]
      exact ho.retirement id b reason rfl
    · exact hf state rfl boot hb
  | reset reason state =>
    obtain rfl := Option.some.inj hs
    unfold resetState at hb
    split at hb
    · exact hins state _ rfl boot hb
    · exact hf state rfl boot hb
  | noted op state state' same =>
    obtain rfl := Option.some.inj hs
    rw [same.fencedBoots] at hb
    exact hf state rfl boot hb

theorem currentBoot_commit {state : DurableState} {staged : Staged} (h : Imports r state staged)
    (id : PublisherId) : (r.commit state staged).currentBoot id = restoredBoot state id := by
  obtain ⟨hnone, hsome⟩ := restored_publisher h id
  cases hs : (r.commit state staged).publishers[id]? with
  | none => simp [currentBoot_of_none hs, restoredBoot, (hnone.mp hs).1]
  | some s => rw [currentBoot_of_some hs, (hsome s hs).boot]

theorem currentBoot_setPublisher : (r.setPublisher id s).currentBoot id = s.record.identity.boot :=
  currentBoot_of_some (OrdMap.getElem?_insert_self _ _ _)

/-- An accepted registration returns the boot the publisher then holds. -/
theorem registerPublisherLocked_assigned
    (h : (r.registerPublisherLocked now identity adapter).1.accepted = true) :
    (r.registerPublisherLocked now identity adapter).2.currentBoot identity.id =
      (r.registerPublisherLocked now identity adapter).1.assignedPublisher.boot := by
  have hr := registers r now identity adapter
  generalize r.registerPublisherLocked now identity adapter = out at h hr
  cases hr with
  | refused result refused => simp [refused] at h
  | first result valid bounded unknown room accepted assigned =>
    rw [assigned]
    exact currentBoot_setPublisher
  | fresh result state valid bounded known unfenced request accepted assigned =>
    rw [assigned]
    exact currentBoot_setPublisher
  | reaffirmed result state valid bounded known unfenced request live boot accepted assigned =>
    rw [assigned]
    exact currentBoot_setPublisher

variable [StdLib]

/-- A publication that is the registration of its sender. -/
structure Registered (r : Impl) (now : Timestamp) (publication q : Publication) : Prop where
  prepared : r.prepare publication = .ok q
  publisher : q.publisher = publication.publisher
  valid : q.publisher.boot.valid = true
  result : (r.applyLocked now publication).1 = (r.registerPublisherLocked now q.publisher q.reason).1
  publishers : (r.applyLocked now publication).2.publishers =
    (r.registerPublisherLocked now q.publisher q.reason).2.publishers

theorem registered_of_accepted (hk : publication.kind = .registerPublisher)
    (h : (r.applyLocked now publication).1.accepted = true) :
    ∃ q, Registered r now publication q := by
  have hseq : publication.kind.sequenced = false := by rw [hk]; rfl
  have hi := ingested r now publication
  generalize ho : r.applyLocked now publication = out at h hi
  cases hi with
  | shuttingDown result running refused => simp [refused] at h
  | unprepared result running unprepared => simp [prepare_eq_error unprepared] at h
  | schema q running prepared kind => simp [← (prepare_eq_ok prepared).kind, kind] at hk
  | registration q running prepared kind =>
    have hv := (prepare_eq_ok prepared).valid
    simp only [validatePublication, status_bind_eq_ok, require_eq_ok] at hv
    refine ⟨q, prepared, (prepare_eq_ok prepared).publisher, hv.2.1, ?_, ?_⟩
    · rw [ho]
      rfl
    · rw [ho]
      unfold applyRegistration
      dsimp only
      split <;> rfl
  | unknownPublisher q result running prepared kind =>
    simp [(prepare_eq_ok prepared).kind, hseq] at kind
  | unauthorized q publisher result addressed =>
    simpa [(prepare_eq_ok addressed.prepared).kind, hseq] using addressed.kind
  | repeated q publisher result addressed =>
    simpa [(prepare_eq_ok addressed.prepared).kind, hseq] using addressed.kind
  | unsequenced q publisher result addressed =>
    simpa [(prepare_eq_ok addressed.prepared).kind, hseq] using addressed.kind
  | handled q publisher addressed =>
    simpa [(prepare_eq_ok addressed.prepared).kind, hseq] using addressed.kind

theorem assigns_currentBoot (h : r.Assigns op id boot) : (r.after op).currentBoot id = boot := by
  obtain ⟨hreg, result, hres, hacc, rfl⟩ := h
  cases op with
  | registerPublisher now identity adapter =>
    obtain rfl : identity.id = id := hreg
    obtain rfl := Outcome.applied.inj hres
    simp only [after, step]
    change (r.registerPublisher now identity adapter).1.accepted = true at hacc
    change (r.registerPublisher now identity adapter).2.currentBoot identity.id =
      (r.registerPublisher now identity adapter).1.assignedPublisher.boot
    unfold registerPublisher at hacc ⊢
    split
    · next hs => simp [hs, applyCodeAccepted] at hacc
    · next hs =>
      rw [if_neg hs] at hacc
      exact registerPublisherLocked_assigned hacc
  | apply now publication =>
    obtain ⟨hk, rfl⟩ := hreg
    obtain rfl := Outcome.applied.inj hres
    change (r.applyLocked now publication).1.accepted = true at hacc
    change (r.applyLocked now publication).2.currentBoot publication.publisher.id =
      (r.applyLocked now publication).1.assignedPublisher.boot
    obtain ⟨q, hq⟩ := registered_of_accepted hk hacc
    rw [hq.result] at hacc ⊢
    have hcur := registerPublisherLocked_assigned hacc
    rwa [← hq.publisher, currentBoot, hq.publishers]
  | _ => exact hreg.elim

/-- One orderly call keeps every assigned and every fenced boot at or below the one held. -/
theorem Below.after {assigned : PublisherId → PublisherBootId → Prop} (h : r.Below assigned)
    (ho : r.Orderly op) :
    (r.after op).Below fun id boot => assigned id boot ∨ r.Assigns op id boot := by
  have key : ∀ id, r.currentBoot id ≤ (r.after op).currentBoot id ∧
      ∀ s, (r.after op).publishers[id]? = some s → ∀ boot ∈ s.fencedBoots,
        boot ≤ (r.after op).currentBoot id := by
    intro id
    by_cases hop : r.Restores op
    · obtain ⟨durable, report, r', rfl, hi⟩ := hop
      obtain ⟨staged, him, -, hr'⟩ := importDurableState_eq_ok.mp hi
      have hafter : r.after (.importDurableState durable) = r.commit durable staged :=
        (congrArg Prod.snd hi).trans hr'
      obtain ⟨hcur, hfen⟩ := ho.restoration durable rfl ⟨durable, report, r', rfl, hi⟩ id
      rw [hafter, currentBoot_commit him]
      refine ⟨hcur, fun s hs boot hb => ?_⟩
      rcases (((restored_publisher him id).2 s hs).fencedBoots boot).mp hb with hb | ⟨rfl, -⟩
      · exact hfen boot hb
      · exact Gen.le_refl _
    · have hm := publisherMove r op hop id
      refine ⟨boot_grows hm rfl (ho.registration id), fun s hs boot hb => ?_⟩
      rw [currentBoot_of_some hs]
      exact fencedBoots_move hm ho rfl (h.fenced id) s hs boot hb
  refine ⟨fun id boot ha => ?_, fun id s hs => (key id).2 s hs⟩
  rcases ha with ha | ha
  · exact Gen.le_trans (h.assigned id boot ha) (key id).1
  · rw [assigns_currentBoot ha]
    exact Gen.le_refl _

/-- The order holds along every run of orderly calls. -/
theorem below_run {assigned : PublisherId → PublisherBootId → Prop} {ops : List Op}
    (h : r.Below assigned) (ho : Machine.Along Impl.after Orderly r ops) :
    (r.run ops).Below fun id boot => assigned id boot ∨ Assigned r ops id boot := by
  induction ops generalizing r assigned with
  | nil => exact ⟨fun id boot ha => h.assigned id boot (ha.resolve_right fun hn => hn), h.fenced⟩
  | cons op ops ih =>
    have hb := ih (h.after ho.1) ho.2
    refine ⟨fun id boot ha => hb.assigned id boot ?_, hb.fenced⟩
    exact or_assoc.mpr ha

/-- What the holder of a fresh boot can rely on. -/
structure Usable (r : Impl) (ops : List Op) (id : PublisherId) (out : ApplyResult × Impl) : Prop where
  newest : ∀ boot, Assigned r ops id boot → boot < out.1.assignedPublisher.boot
  live : ¬ out.2.Dead id out.1.assignedPublisher.boot
  admitted : ∀ now publication, publication.publisher.id = id →
    publication.publisher.boot = out.1.assignedPublisher.boot →
    publication.publisher.epoch = out.2.epoch →
    (out.2.applyLocked now publication).1.code.deniesBoot = false

/-- A registered boot above every other boot of its publisher is usable. -/
theorem usable_of_registered {ops : List Op} {limits : RegistryLimits} {s' : PublisherStateInternal}
    (hb : r.Below (Assigned (Impl.fresh limits) ops)) (hs : r'.publishers[id]? = some s')
    (hrun : r'.shuttingDown = false) (hf : s'.publisherFenced = false)
    (hlt : r.currentBoot id < s'.record.identity.boot)
    (hfen : ∀ b ∈ s'.fencedBoots, b ≤ r.currentBoot id)
    (hass : result.assignedPublisher = s'.record.identity) :
    Usable (Impl.fresh limits) ops id (result, r') := by
  have hlive : s'.record.identity.boot ∉ s'.fencedBoots := fun hm =>
    Gen.lt_irrefl _ (Gen.lt_of_lt_of_le hlt (hfen _ hm))
  refine ⟨fun boot ha => ?_, ?_, fun now' publication hid hboot hep => ?_⟩
  · rw [hass]
    exact Gen.lt_of_le_of_lt (hb.assigned _ _ ha) hlt
  · rw [hass]
    rintro ⟨t, ht, hm⟩
    obtain rfl := Option.some.inj (hs.symm.trans ht)
    exact hlive hm
  · rw [hass] at hboot
    refine applyLocked_of_admitted ⟨hrun, ⟨s', ?_, hf, hboot.symm, ?_⟩, ?_⟩ hep now'
    · rw [hid]
      exact hs
    · rw [hboot]
      exact hlive
    · rw [hboot]
      exact Gen.valid_of_lt hlt

/-- After a run of orderly calls every accepted registration that asks for a fresh boot is given
one that is new, unfenced and let in. -/
theorem fresh_registration_usable {ops : List Op} {limits : RegistryLimits}
    (ho : Machine.Along Impl.after Orderly (Impl.fresh limits) ops)
    (hreq : identity.boot.valid = false)
    (hroom : ((Impl.fresh limits).run ops).currentBoot identity.id ≠ Gen.last)
    (hacc : (((Impl.fresh limits).run ops).registerPublisher now identity adapter).1.accepted = true) :
    Usable (Impl.fresh limits) ops identity.id
      (((Impl.fresh limits).run ops).registerPublisher now identity adapter) := by
  have hfresh : (Impl.fresh limits).Below fun _ _ => False :=
    ⟨fun id boot h => h.elim, fun id s hs => by simp [Impl.fresh] at hs⟩
  have hb := below_run hfresh ho
  simp only [false_or] at hb
  generalize (Impl.fresh limits).run ops = r at hb hroom hacc ⊢
  have hrun : r.shuttingDown = false := by
    by_contra hs
    simp [registerPublisher, Bool.eq_true_of_not_eq_false hs, applyCodeAccepted] at hacc
  have heq : r.registerPublisher now identity adapter =
      r.registerPublisherLocked now identity adapter := by
    simp [registerPublisher, hrun]
  rw [heq] at hacc ⊢
  have hr := registers r now identity adapter
  generalize r.registerPublisherLocked now identity adapter = out at hr hacc
  cases hr with
  | refused result refused => simp [refused] at hacc
  | first result valid bounded unknown room accepted assigned =>
    refine usable_of_registered hb (OrdMap.getElem?_insert_self _ _ _) hrun rfl ?_ ?_ assigned
    · rw [currentBoot_of_none unknown]
      exact (by decide : (default : PublisherBootId) < .first)
    · intro b hm
      simp [newPublisher] at hm
  | fresh result state valid bounded known unfenced request accepted assigned =>
    have hcur := currentBoot_of_some known
    rw [hcur] at hroom
    refine usable_of_registered hb (OrdMap.getElem?_insert_self _ _ _) hrun unfenced ?_ ?_ assigned
    · rw [hcur]
      exact lt_freshBoot r now adapter hroom
    · intro b hm
      rcases mem_insert_boot hm with rfl | hm
      · rw [hcur]
        exact Gen.le_refl _
      · exact hb.fenced _ _ known b hm
  | reaffirmed result state valid bounded known unfenced request => simp [hreq] at request

omit [StdLib] in
theorem fresh_registration_usable_first :
    letI := StdLib.reference
    Usable (Impl.fresh {}) [Sample.registration] Sample.request.id
      (((Impl.fresh {}).run [Sample.registration]).registerPublisher Sample.now
        Sample.request "adapter") := by
  let := StdLib.reference
  refine fresh_registration_usable ⟨⟨?_, ?_, ?_⟩, trivial⟩ rfl (by decide)
    (by decide)
  · intro id boot reason h
    cases h
  · rintro id ⟨rfl, -⟩
    decide
  · intro state h
    cases h

omit [StdLib] in
/-- A boot that was never assigned can be retired; the next registration is then given it. -/
theorem retired_boot_is_assigned :
    letI := StdLib.reference
    ¬ ∀ (limits : RegistryLimits) (ops : List Op) (now : Timestamp) (identity : PublisherIdentity)
      (adapter : Text), identity.boot.valid = false →
        (((Impl.fresh limits).run ops).registerPublisher now identity adapter).1.accepted = true →
        Usable (Impl.fresh limits) ops identity.id
          (((Impl.fresh limits).run ops).registerPublisher now identity adapter) := by
  let := StdLib.reference
  intro h
  have hu := h {} [Sample.registration, .retirePublisherBoot Sample.publisher.id ⟨2⟩ []] Sample.now
    Sample.request "adapter" rfl (by decide)
  apply hu.live
  generalize ho : ((Impl.fresh {}).run [Sample.registration,
    .retirePublisherBoot Sample.publisher.id ⟨2⟩ []]).registerPublisher Sample.now Sample.request
      "adapter" = out
  have hd : (out.2.publishers[Sample.request.id]?).map
      (fun s => s.fencedBoots.contains out.1.assignedPublisher.boot) = some true := by
    rw [← ho]
    decide
  obtain ⟨s, hs, hm⟩ := Option.map_eq_some_iff.mp hd
  exact ⟨s, hs, Std.ExtTreeSet.contains_iff_mem.mp hm⟩

end Ceilings

end Impl

end CapabilityRegistry
