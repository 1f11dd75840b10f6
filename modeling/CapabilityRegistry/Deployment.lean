import CapabilityRegistry.Restoration

/-! A registry with its saved states: restarts, and what a fence keeps across them. -/
namespace CapabilityRegistry

/-- The running registry and the durable states exported so far. -/
structure Deployment where
  live : Impl
  saved : List DurableState := []

inductive Event
  | call (op : Op)
  | save (now : Timestamp)
  | restart (index : Nat)

namespace Deployment
variable [StdLib] (d : Deployment)

/-- A restart imports a saved state into a fresh registry; a refused one does not start. -/
def step : Event → Outcome × Deployment
  | .call op => ((d.live.step op).1, { d with live := d.live.after op })
  | .save now =>
    (.status (.ok ()), { d with saved := d.saved ++ [d.live.exportDurableState now] })
  | .restart index =>
    match d.saved[index]? with
    | none => (.status (.error ⟨.invalidArgument, "no such state"⟩), d)
    | some image =>
      match (Impl.fresh d.live.limits).importDurableState image with
      | (.error e, _) => (.imported (.error e), d)
      | (.ok report, live) => (.imported (.ok report), { d with live })

def after (event : Event) : Deployment := (d.step event).2

def run (events : List Event) : Deployment := events.foldl after d

end Deployment

/-- The call is made in the name of a publisher. -/
def Op.Carries (id : PublisherId) : Op → Prop
  | .registerPublisher _ identity _ => identity.id = id
  | .apply _ publication => publication.publisher.id = id
  | _ => False

namespace Impl
variable {r r' : Impl} {op : Op} {id : PublisherId} {boot : PublisherBootId} {now : Timestamp}
  {publication : Publication} {reason adapter : Text} {identity : PublisherIdentity}
  {x y : Option PublisherStateInternal}

section Fences

/-- The publisher is registered and fenced as a whole. -/
def Fenced (r : Impl) (id : PublisherId) : Prop :=
  ∃ s, r.publishers[id]? = some s ∧ s.publisherFenced = true

/-- One boot of the publisher is fenced. -/
def Dead (r : Impl) (id : PublisherId) (boot : PublisherBootId) : Prop :=
  ∃ s, r.publishers[id]? = some s ∧ boot ∈ s.fencedBoots

theorem fenced_move (h : PublisherMove r id op x y)
    (hx : ∃ s, x = some s ∧ s.publisherFenced = true) :
    ∃ s, y = some s ∧ s.publisherFenced = true := by
  obtain ⟨s, rfl, hs⟩ := hx
  cases h with
  | unmoved => exact ⟨s, rfl, hs⟩
  | fresh op now adapter state unfenced request => simp [unfenced] at hs
  | reaffirmed op adapter state unfenced valid live => simp [unfenced] at hs
  | fenced reason state unfenced => simp [unfenced] at hs
  | retired boot reason state valid live => exact ⟨_, rfl, hs⟩
  | reset reason state =>
    refine ⟨_, rfl, ?_⟩
    unfold resetState
    split <;> exact hs
  | noted op state state' same => exact ⟨_, rfl, same.publisherFenced.trans hs⟩

theorem dead_move (h : PublisherMove r id op x y)
    (hx : ∃ s, x = some s ∧ boot ∈ s.fencedBoots) : ∃ s, y = some s ∧ boot ∈ s.fencedBoots := by
  obtain ⟨s, rfl, hs⟩ := hx
  have hins : ∀ (c : Bool) (b : PublisherBootId),
      boot ∈ (if c then s.fencedBoots.insert b else s.fencedBoots) := by
    intro c b
    cases c with
    | false => exact hs
    | true => exact Std.ExtTreeSet.mem_insert.mpr (.inr hs)
  cases h with
  | unmoved => exact ⟨s, rfl, hs⟩
  | fresh op now adapter state unfenced request => exact ⟨_, rfl, hins _ _⟩
  | reaffirmed op adapter state unfenced valid live => exact ⟨_, rfl, hs⟩
  | fenced reason state unfenced => exact ⟨_, rfl, hins _ _⟩
  | retired boot reason state valid live => exact ⟨_, rfl, hins true _⟩
  | reset reason state =>
    refine ⟨_, rfl, ?_⟩
    unfold resetState
    split
    · exact hins _ _
    · exact hs
  | noted op state state' same => exact ⟨_, rfl, same.fencedBoots ▸ hs⟩

variable [StdLib]

theorem Fenced.after (h : r.Fenced id) (hop : ¬ r.Restores op) : (r.after op).Fenced id :=
  fenced_move (publisherMove r op hop id) h

theorem Dead.after (h : r.Dead id boot) (hop : ¬ r.Restores op) : (r.after op).Dead id boot :=
  dead_move (publisherMove r op hop id) h

omit [StdLib] in
/-- Accepting a fence leaves the publisher fenced. -/
theorem fenced_of_accepted (h : (r.fencePublisher id reason).1.accepted = true) :
    (r.fencePublisher id reason).2.Fenced id := by
  cases hs : r.publishers[id]? with
  | none => simp [fencePublisher, hs, applyCodeAccepted] at h
  | some s =>
    by_cases hf : s.publisherFenced = true
    · simp only [fencePublisher, hs, hf, if_true]
      exact ⟨s, hs, hf⟩
    · simp only [fencePublisher, hs, if_neg hf]
      exact ⟨fenceState reason s, OrdMap.getElem?_insert_self _ _ _, rfl⟩

omit [StdLib] in
theorem registerPublisherLocked_of_fenced (h : r.Fenced id) (hid : identity.id = id)
    (now : Timestamp) (adapter : Text) :
    (r.registerPublisherLocked now identity adapter).1.accepted = false := by
  obtain ⟨s, hs, hf⟩ := h
  subst hid
  have hr := registers r now identity adapter
  generalize r.registerPublisherLocked now identity adapter = out at hr
  cases hr with
  | refused result refused => exact refused
  | first result valid bounded unknown => simp [hs] at unknown
  | fresh result state valid bounded known unfenced =>
    obtain rfl := Option.some.inj (hs.symm.trans known)
    simp [hf] at unfenced
  | reaffirmed result state valid bounded known unfenced =>
    obtain rfl := Option.some.inj (hs.symm.trans known)
    simp [hf] at unfenced

/-- A capability schema the registry takes: new, valid and within the bound. -/
structure Registrable (r : Impl) (schema : CapabilitySchema) : Prop where
  valid : validateCapabilitySchema schema r.limits = .ok ()
  unknown : r.schemas[schema.id]? = none
  unbound : r.capabilitySchemas[schema.capability]? = none
  room : r.schemas.size < sizeMul r.limits.maxFamilies 16

/-- A publication through which any sender extends the schema catalog. -/
structure ExtendsCatalog (r : Impl) (publication : Publication) : Prop where
  running : r.shuttingDown = false
  kind : publication.kind = .registerCapabilitySchema
  prepared : ∃ q, r.prepare publication = .ok q
  registrable : r.Registrable publication.schema

omit [StdLib] in
theorem registrable_iff {schema : CapabilitySchema} :
    (∃ bound, r.registerCapabilitySchemaLocked schema = .ok bound) ↔ r.Registrable schema := by
  constructor
  · rintro ⟨bound, hb⟩
    obtain ⟨hv, hs, hc, hroom, -⟩ := registerCapabilitySchemaLocked_eq_ok hb
    exact ⟨hv, hs, hc, hroom⟩
  · rintro ⟨hv, hs, hc, hroom⟩
    cases hb : r.registerCapabilitySchemaLocked schema with
    | ok bound => exact ⟨bound, rfl⟩
    | error e =>
      simp [registerCapabilitySchemaLocked, hv, hs, hc, require, hroom, bind, Except.bind, pure,
        Except.pure] at hb

omit [StdLib] in
theorem not_extendsCatalog {q : Publication} (hp : r.prepare publication = .ok q)
    (hk : q.kind.sequenced = true) : ¬ r.ExtendsCatalog publication := by
  intro he
  rw [(prepare_eq_ok hp).kind, he.kind] at hk
  cases hk

omit [StdLib] in
theorem not_authorized_of_fenced {q : Publication} {publisher : PublisherStateInternal}
    (h : r.Fenced id) (hid : publication.publisher.id = id)
    (ha : Addressed r publication q publisher) : ¬ r.Authorized publisher q := by
  intro hauth
  obtain ⟨s, hs, hf⟩ := h
  have hreg := ha.registered
  rw [(prepare_eq_ok ha.prepared).publisher, hid, hs] at hreg
  obtain rfl := Option.some.inj hreg
  rw [hauth.unfenced] at hf
  cases hf

/-- Of a fenced publisher only extensions of the schema catalog are accepted. -/
theorem applyLocked_accepted_iff_of_fenced (h : r.Fenced id)
    (hid : publication.publisher.id = id) (now : Timestamp) :
    (r.applyLocked now publication).1.accepted = true ↔ r.ExtendsCatalog publication := by
  have hi := ingested r now publication
  generalize r.applyLocked now publication = out at hi
  cases hi with
  | shuttingDown result running refused =>
    refine iff_of_false (by simp [refused]) fun he => ?_
    have hrun := he.running
    simp [running] at hrun
  | unprepared result running unprepared =>
    refine iff_of_false (by simp [prepare_eq_error unprepared]) fun he => ?_
    obtain ⟨q, hq⟩ := he.prepared
    simp [unprepared] at hq
  | schema q running prepared kind =>
    have hp := prepare_eq_ok prepared
    have hreg : (∃ bound, r.registerCapabilitySchemaLocked q.schema = .ok bound) ↔
        r.Registrable q.schema := registrable_iff
    unfold applySchema
    split
    · next e he =>
      refine iff_of_false ?_ fun hx => ?_
      · split <;> simp [applyCodeAccepted]
      · obtain ⟨bound, hb⟩ := hreg.mpr (hp.payload ▸ hx.registrable)
        simp [hb] at he
    · next bound hb =>
      exact iff_of_true rfl ⟨running, hp.kind ▸ kind, ⟨q, prepared⟩, hp.payload ▸ hreg.mp ⟨bound, hb⟩⟩
  | registration q running prepared kind =>
    have hp := prepare_eq_ok prepared
    refine iff_of_false ?_ fun he => ?_
    · exact Bool.eq_false_iff.mp
        (registerPublisherLocked_of_fenced h (hp.publisher ▸ hid) now q.reason)
    · have hk := he.kind
      simp [← hp.kind, kind] at hk
  | unknownPublisher q result running prepared kind unregistered refused =>
    exact iff_of_false (by simp [refused]) fun he => not_extendsCatalog prepared kind he
  | unauthorized q publisher result addressed refusal =>
    exact iff_of_false (by simp [authorityRefusal_eq_some refusal]) fun he =>
      not_extendsCatalog addressed.prepared addressed.kind he
  | repeated q publisher result addressed authority verdict accepted =>
    exact (not_authorized_of_fenced h hid addressed authority).elim
  | unsequenced q publisher result addressed authority verdict refused =>
    exact (not_authorized_of_fenced h hid addressed authority).elim
  | handled q publisher addressed authority verdict =>
    exact (not_authorized_of_fenced h hid addressed authority).elim

end Fences

section Exported
variable [StdLib] {r r' : Impl} {op : Op} {id : PublisherId} {boot : PublisherBootId}
  {now : Timestamp} {s : PublisherStateInternal} {state : DurableState} {staged : Staged}

/-- An export lists one watermark for each publisher. -/
theorem firstWatermark_export (h : r.publishers[id]? = some s) :
    firstWatermark (r.exportDurableState now).publisherWatermarks id = some (watermarkFor id s) := by
  have hmem : ∀ w, w ∈ (r.exportDurableState now).publisherWatermarks ↔
      ∃ e ∈ r.publishers.toList, watermarkFor e.1 e.2 = w := by
    intro w
    simp only [exportDurableState, exportContents, SortLib.mem_sortWith, List.mem_map]
  have hw := (hmem (watermarkFor id s)).mpr ⟨(id, s), OrdMap.mem_toList.mpr h, rfl⟩
  cases hf : firstWatermark (r.exportDurableState now).publisherWatermarks id with
  | none =>
    have hn := List.find?_eq_none.mp hf _ hw
    simp [watermarkFor] at hn
  | some w =>
    obtain ⟨⟨id', s'⟩, he, rfl⟩ := (hmem w).mp (List.mem_of_find?_eq_some hf)
    have hid : id' = id := by simpa [watermarkFor] using List.find?_some hf
    subst hid
    obtain rfl := Option.some.inj (h.symm.trans (OrdMap.mem_toList.mp he))
    rfl

theorem restoredBoot_export (h : r.publishers[id]? = some s) :
    restoredBoot (r.exportDurableState now) id = s.record.identity.boot := by
  rw [restoredBoot, firstWatermark_export h]
  rfl

/-- Every fenced boot but the current one is listed as fenced in an export. -/
theorem fencedIn_export (h : r.publishers[id]? = some s) (hb : boot ∈ s.fencedBoots)
    (hne : boot ≠ s.record.identity.boot) :
    FencedIn (r.exportDurableState now).fencedBoots id boot := by
  refine ⟨{ publisher := id, boot := boot, state := .fenced, reason := "boot superseded or fenced" },
    ?_, rfl, rfl⟩
  simp only [exportDurableState, exportContents, SortLib.mem_sortWith, List.mem_flatMap]
  refine ⟨(id, s), OrdMap.mem_toList.mpr h, ?_⟩
  simp only [fencedBootsFor, List.mem_append, List.mem_map, List.mem_filter]
  exact .inl ⟨boot, ⟨Std.ExtTreeSet.mem_toList.mpr hb, by simpa using hne⟩, rfl⟩

/-- Whoever imports the state finds the boot fenced. -/
def Buries (state : DurableState) (id : PublisherId) (boot : PublisherBootId) : Prop :=
  FencedIn state.fencedBoots id boot ∨
    ((firstWatermark state.publisherWatermarks id).isSome = true ∧
      restoredBoot state id = boot ∧ boot.valid = true)

omit [StdLib] in
theorem dead_of_buries (h : Imports r state staged) (hb : Buries state id boot) :
    (r.commit state staged).Dead id boot := by
  obtain ⟨hnone, hsome⟩ := restored_publisher h id
  cases hs : (r.commit state staged).publishers[id]? with
  | none =>
    obtain ⟨hw, hf⟩ := hnone.mp hs
    rcases hb with hb | ⟨hb, -, -⟩
    · exact (hf boot hb).elim
    · simp [hw] at hb
  | some s =>
    refine ⟨s, hs, ((hsome s hs).fencedBoots boot).mpr ?_⟩
    exact hb.imp_right fun hb => ⟨hb.2.1.symm, hb.2.2⟩

theorem buries_export (h : r.Dead id boot) (hv : boot.valid = true) :
    Buries (r.exportDurableState now) id boot := by
  obtain ⟨s, hs, hb⟩ := h
  by_cases hc : boot = s.record.identity.boot
  · refine .inr ⟨?_, ?_, hv⟩
    · rw [firstWatermark_export hs]
      rfl
    · rw [restoredBoot_export hs, hc]
  · exact .inl (fencedIn_export hs hb hc)

/-- Every fenced boot is one that can be assigned. -/
def FencedBootsValid (r : Impl) : Prop :=
  ∀ (id : PublisherId) (s : PublisherStateInternal), r.publishers[id]? = some s →
    ∀ boot ∈ s.fencedBoots, boot.valid = true

omit [StdLib] in
theorem fencedBootsValid_move {x y : Option PublisherStateInternal}
    (h : PublisherMove r id op x y)
    (hx : ∀ s, x = some s → ∀ boot ∈ s.fencedBoots, boot.valid = true) :
    ∀ s, y = some s → ∀ boot ∈ s.fencedBoots, boot.valid = true := by
  have hins : ∀ s, x = some s → ∀ b : PublisherBootId,
      ∀ boot ∈ (if b.valid then s.fencedBoots.insert b else s.fencedBoots), boot.valid = true := by
    intro s hs b boot hb
    split at hb
    · next hv =>
      rcases Std.ExtTreeSet.mem_insert.mp hb with he | hb
      · rwa [← Std.LawfulEqOrd.eq_of_compare he]
      · exact hx s hs boot hb
    · exact hx s hs boot hb
  intro t ht
  cases h with
  | unmoved => exact hx t ht
  | first op now adapter =>
    obtain rfl := Option.some.inj ht
    intro boot hb
    simp [newPublisher] at hb
  | fresh op now adapter state unfenced request =>
    obtain rfl := Option.some.inj ht
    exact hins state rfl _
  | reaffirmed op adapter state unfenced valid live =>
    obtain rfl := Option.some.inj ht
    exact hx state rfl
  | fenced reason state unfenced =>
    obtain rfl := Option.some.inj ht
    exact hins state rfl _
  | retired b reason state valid live =>
    obtain rfl := Option.some.inj ht
    have hb := hins state rfl b
    rwa [if_pos valid] at hb
  | reset reason state =>
    obtain rfl := Option.some.inj ht
    unfold resetState
    split
    · exact hins state rfl _
    · exact hx state rfl
  | noted op state state' same =>
    obtain rfl := Option.some.inj ht
    rw [same.fencedBoots]
    exact hx state rfl

omit [StdLib] in
theorem valid_of_fencedIn {staged staged' : Publishers} {fences : List PublisherWatermark}
    (h : fences.foldlM stageFenced staged = .ok staged') (hf : FencedIn fences id boot) :
    boot.valid = true := by
  induction fences generalizing staged with
  | nil => simp [FencedIn] at hf
  | cons f fs ih =>
    rw [List.foldlM_cons, bind_eq_ok] at h
    obtain ⟨next, hn, hrest⟩ := h
    rcases fencedIn_cons.mp hf with ⟨-, rfl⟩ | hf
    · exact (stageFenced_eq_ok.mp hn).1.2
    · exact ih hrest hf

theorem FencedBootsValid.after (h : r.FencedBootsValid) (op : Op) :
    (r.after op).FencedBootsValid := by
  intro id
  by_cases hop : r.Restores op
  · obtain ⟨durable, report, r', rfl, hi⟩ := hop
    have hr' : r.after (.importDurableState durable) = r' := congrArg Prod.snd hi
    obtain ⟨staged, him, -, rfl⟩ := importDurableState_eq_ok.mp hi
    rw [hr']
    intro s hs boot hb
    obtain ⟨watermarked, -, hf, -⟩ := stagePublishers_eq_ok him.publishers
    rcases (((restored_publisher him id).2 s hs).fencedBoots boot).mp hb with hb | ⟨-, hb⟩
    · exact valid_of_fencedIn hf hb
    · exact hb
  · exact fencedBootsValid_move (publisherMove r op hop id) (h id)

theorem fencedBootsValid_reachable {limits : RegistryLimits} (h : Reachable limits r) :
    r.FencedBootsValid := by
  obtain ⟨ops, rfl⟩ := h
  refine @Machine.run_invariant _ _ after FencedBootsValid _ ?_ (fun r op h => h.after op) ops
  intro id s hs
  simp [Impl.fresh] at hs

end Exported

end Impl

namespace Deployment
variable [StdLib] {d : Deployment} {event : Event} {events : List Event} {id : PublisherId}
  {boot : PublisherBootId} {reason : Text}

section PermanentFence

/-- An event after which the fence of a publisher still stands and has been respected. -/
structure KeepsFence (id : PublisherId) (d : Deployment) (event : Event) : Prop where
  restores : ∀ op, event = .call op → ¬ d.live.Restores op
  restarts : ∀ index, event = .restart index → (d.step event).1.accepted = false
  catalog : ∀ now publication, event = .call (.apply now publication) →
    publication.publisher.id = id → ¬ d.live.ExtendsCatalog publication

/-- Nothing is accepted in the name of a publisher. -/
def Refuses (id : PublisherId) (d : Deployment) (event : Event) : Prop :=
  ∀ op, event = .call op → op.Carries id → (d.live.step op).1.accepted = false

theorem restart_refused {index : Nat} (h : (d.step (.restart index)).1.accepted = false) :
    d.after (.restart index) = d := by
  unfold after step at *
  dsimp only at *
  split
  · rfl
  · next image hi =>
    rw [hi] at h
    dsimp only at h
    split
    · rfl
    · next report live hl =>
      simp [hl, Outcome.accepted] at h

theorem fenced_after (h : d.live.Fenced id) (hk : KeepsFence id d event) :
    (d.after event).live.Fenced id := by
  cases event with
  | call op => exact h.after (hk.restores op rfl)
  | save now => exact h
  | restart index => rwa [restart_refused (hk.restarts index rfl)]

theorem refuses_of_fenced (h : d.live.Fenced id) (hk : KeepsFence id d event) :
    Refuses id d event := by
  rintro op rfl hc
  cases op with
  | registerPublisher now identity adapter =>
    change (d.live.registerPublisher now identity adapter).1.accepted = false
    unfold Impl.registerPublisher
    split
    · rfl
    · exact Impl.registerPublisherLocked_of_fenced h hc now adapter
  | apply now publication =>
    change (d.live.applyLocked now publication).1.accepted = false
    have hiff := Impl.applyLocked_accepted_iff_of_fenced h hc now
    have hn := hk.catalog now publication rfl hc
    simpa using mt hiff.mp hn
  | _ => exact hc.elim

/-- After an accepted fence nothing of the publisher is accepted, as long as no event restores
another state and none extends the schema catalog in its name. -/
theorem fence_is_permanent (hf : (d.live.fencePublisher id reason).1.accepted = true)
    (h : Machine.Along after (KeepsFence id)
      { d with live := (d.live.fencePublisher id reason).2 } events) :
    Machine.Along after (Refuses id) { d with live := (d.live.fencePublisher id reason).2 }
      events := by
  have hs : (Deployment.mk (d.live.fencePublisher id reason).2 d.saved).live.Fenced id :=
    Impl.fenced_of_accepted hf
  exact (h.with_invariant hs fun d event hd hk => fenced_after hd hk).mono
    fun d event hd => refuses_of_fenced hd.1 hd.2

/-- A registry with one publisher, before that publisher is fenced. -/
def oneRegistered : Deployment := { live := (Impl.fresh {}).run [Sample.registration] }

omit [StdLib] in
theorem fence_is_permanent_oneRegistered :
    letI := StdLib.reference
    Machine.Along after (Refuses Sample.publisher.id)
      { oneRegistered with
        live := (oneRegistered.live.fencePublisher Sample.publisher.id []).2 }
      [.call Sample.registration] := by
  let := StdLib.reference
  refine fence_is_permanent (by decide +kernel) ⟨⟨?_, ?_, ?_⟩, trivial⟩
  · rintro op h ⟨durable, report, r', rfl, -⟩
    cases h
  · rintro index h
    cases h
  · rintro now publication h
    cases h

omit [StdLib] in
/-- A restart forgets the fence: the fenced publisher registers again. -/
theorem restart_forgets_fence :
    letI := StdLib.reference
    ¬ ∀ (d : Deployment) (id : PublisherId) (reason : Text) (events : List Event),
      (d.live.fencePublisher id reason).1.accepted = true →
        Machine.Along after (Refuses id) { d with live := (d.live.fencePublisher id reason).2 }
          events := by
  let := StdLib.reference
  intro h
  have hrun := h oneRegistered Sample.publisher.id []
    [.save Sample.now, .restart 0, .call Sample.registration]
    (by simp only [oneRegistered, Impl.fresh_eq]; decide +kernel)
  have hrefused := hrun.2.2.1 Sample.registration rfl rfl
  revert hrefused
  decide +kernel

omit [StdLib] in
/-- There is nothing to restart from before the first state is saved. -/
example : letI := StdLib.reference
    (run oneRegistered [.restart 0, .save Sample.now]).saved.length = 1 := by
  decide +kernel

end PermanentFence

section DeadBoots

/-- Only states this deployment saved are restored. -/
def Own (d : Deployment) (event : Event) : Prop :=
  ∀ state report r', event = .call (.importDurableState state) →
    d.live.importDurableState state = (.ok report, r') → state ∈ d.saved

/-- The boot is fenced in the running registry and in every saved state. -/
structure Buried (id : PublisherId) (boot : PublisherBootId) (d : Deployment) : Prop where
  live : d.live.Dead id boot
  saved : ∀ image ∈ d.saved, Impl.Buries image id boot

omit [StdLib] in
theorem buried_restored {r r' : Impl} {image : DurableState} {report : ImportReport}
    (h : Impl.Buries image id boot) (hi : r.importDurableState image = (.ok report, r')) :
    r'.Dead id boot := by
  obtain ⟨staged, him, -, rfl⟩ := Impl.importDurableState_eq_ok.mp hi
  exact Impl.dead_of_buries him h

theorem buried_after (h : Buried id boot d) (hv : boot.valid = true) (ho : Own d event) :
    Buried id boot (d.after event) := by
  cases event with
  | call op =>
    refine ⟨?_, h.saved⟩
    by_cases hop : d.live.Restores op
    · obtain ⟨durable, report, r', rfl, hi⟩ := hop
      have hr' : d.live.after (.importDurableState durable) = r' := congrArg Prod.snd hi
      change (d.live.after (.importDurableState durable)).Dead id boot
      rw [hr']
      exact buried_restored (h.saved _ (ho durable report r' rfl hi)) hi
    · exact h.live.after hop
  | save now =>
    refine ⟨h.live, fun image hm => ?_⟩
    rcases List.mem_append.mp hm with hm | hm
    · exact h.saved image hm
    · rw [List.mem_singleton.mp hm]
      exact Impl.buries_export h.live hv
  | restart index =>
    unfold after step
    dsimp only
    split
    · exact h
    · next image hi =>
      split
      · exact h
      · next report live hl =>
        exact ⟨buried_restored (h.saved image (List.mem_of_getElem? hi)) hl, h.saved⟩

end DeadBoots

end Deployment

section DeadBoots
variable {r : Impl} {id : PublisherId} {boot : PublisherBootId} {now : Timestamp}
  {publication : Publication} {stored : StoredRecord} {device : DeviceState}

/-- A sequenced publication of a fenced boot is refused. -/
theorem Impl.applyLocked_refused_of_dead [StdLib] (h : r.Dead id boot)
    (hid : publication.publisher.id = id) (hb : publication.publisher.boot = boot)
    (hk : publication.kind.sequenced = true) (now : Timestamp) :
    (r.applyLocked now publication).1.accepted = false := by
  obtain ⟨s, hs, hmem⟩ := h
  have key : ∀ q publisher, Addressed r publication q publisher → ¬ r.Authorized publisher q := by
    intro q publisher ha hauth
    have hp := (prepare_eq_ok ha.prepared).publisher
    have hreg := ha.registered
    rw [hp, hid, hs] at hreg
    obtain rfl := Option.some.inj hreg
    exact hauth.liveBoot (by rwa [hp, hb])
  have hi := ingested r now publication
  generalize r.applyLocked now publication = out at hi
  cases hi with
  | shuttingDown result running refused => exact refused
  | unprepared result running unprepared => exact prepare_eq_error unprepared
  | schema q running prepared kind =>
    simp [← (prepare_eq_ok prepared).kind, kind, PublicationKind.sequenced] at hk
  | registration q running prepared kind =>
    simp [← (prepare_eq_ok prepared).kind, kind, PublicationKind.sequenced] at hk
  | unknownPublisher q result running prepared kind unregistered refused => exact refused
  | unauthorized q publisher result addressed refusal => exact authorityRefusal_eq_some refusal
  | repeated q publisher result addressed authority => exact (key q publisher addressed authority).elim
  | unsequenced q publisher result addressed authority =>
    exact (key q publisher addressed authority).elim
  | handled q publisher addressed authority => exact (key q publisher addressed authority).elim

/-- Process-bound evidence of a fenced boot is stale, whatever it is resolved against. -/
theorem Impl.computeStaleness_of_dead
    (h : r.Dead stored.record.source.publisher.id stored.record.source.publisher.boot)
    (hd : provenanceIsDurable stored.record.source.provenance = false) (target : DeviceGeneration)
    (targetIsCurrent : Bool) :
    r.computeStaleness stored device target targetIsCurrent ≠ .none := by
  obtain ⟨s, hs, hmem⟩ := h
  have ha : r.publisherIsAuthoritative stored.record = false := by
    simp [publisherIsAuthoritative, hs, hmem]
  have h2 : StalenessFlag.deviceGenerationSuperseded ≠ .none := by decide
  have h8 : StalenessFlag.publisherFenced ≠ .none := by decide
  have h9 : StalenessFlag.epochSuperseded ≠ .none := by decide
  unfold computeStaleness
  cases targetIsCurrent with
  | false => simp [StalenessFlag.raise_eq_none_iff h2]
  | true =>
    simp [currentAxisFlags, StalenessFlag.raise_eq_none_iff h9, StalenessFlag.raise_eq_none_iff h8,
      ha, hd]

/-- Once a boot is fenced, no publication of it is accepted and no process-bound evidence of it is
current, through every continuation and every restart from a state saved since. -/
theorem Deployment.dead_boot_stays_dead [StdLib] {limits : RegistryLimits} {events : List Event}
    (hr : Reachable limits r) (hd : r.Dead id boot)
    (ho : Machine.Along Deployment.after Deployment.Own { live := r } events) :
    (∀ now publication, publication.publisher.id = id → publication.publisher.boot = boot →
      publication.kind.sequenced = true →
      ((Deployment.run { live := r } events).live.applyLocked now publication).1.accepted = false) ∧
    ∀ stored device target targetIsCurrent,
      provenanceIsDurable stored.record.source.provenance = false →
      stored.record.source.publisher.id = id → stored.record.source.publisher.boot = boot →
      (Deployment.run { live := r } events).live.computeStaleness stored device target
        targetIsCurrent ≠ .none := by
  have hv : boot.valid = true := by
    obtain ⟨s, hs, hm⟩ := hd
    exact Impl.fencedBootsValid_reachable hr id s hs boot hm
  have hb : Deployment.Buried id boot (Deployment.run { live := r } events) :=
    ho.invariant ⟨hd, fun image hm => by cases hm⟩ fun d event h h' =>
      Deployment.buried_after h hv h'
  refine ⟨fun now publication hid hboot hk => ?_, fun stored device target current hp hid hboot => ?_⟩
  · exact Impl.applyLocked_refused_of_dead hb.live hid hboot hk now
  · refine Impl.computeStaleness_of_dead ?_ hp target current
    rw [hid, hboot]
    exact hb.live

/-- A publisher registered twice: its first boot is superseded. -/
theorem Deployment.dead_boot_stays_dead_superseded :
    letI := StdLib.reference
    let d := Deployment.run
      { live := (Impl.fresh {}).run [Sample.registration, Sample.registration] }
      [.save Sample.now, .restart 0]
    (∀ now publication, publication.publisher.id = Sample.publisher.id →
      publication.publisher.boot = .first → publication.kind.sequenced = true →
      (d.live.applyLocked now publication).1.accepted = false) ∧
    ∀ stored device target targetIsCurrent,
      provenanceIsDurable stored.record.source.provenance = false →
      stored.record.source.publisher.id = Sample.publisher.id →
      stored.record.source.publisher.boot = .first →
      d.live.computeStaleness stored device target targetIsCurrent ≠ .none := by
  let := StdLib.reference
  have hd : ((((Impl.fresh {}).run [Sample.registration, Sample.registration]).publishers[
      Sample.publisher.id]?).map fun s => s.fencedBoots.contains .first) = some true := by
    decide +kernel
  obtain ⟨s, hs, hm⟩ := Option.map_eq_some_iff.mp hd
  refine @Deployment.dead_boot_stays_dead _ _ _ _ {} _ ⟨_, rfl⟩
    ⟨s, hs, Std.ExtTreeSet.contains_iff_mem.mp hm⟩ ⟨?_, ?_, trivial⟩
  · intro state report r' h
    cases h
  · intro state report r' h
    cases h

end DeadBoots

end CapabilityRegistry
