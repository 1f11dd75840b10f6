import CapabilityRegistry.Sessions

/-! Whose publications are accepted: those of boots that some session of the run registered. -/
namespace CapabilityRegistry

namespace Impl
variable {r r' : Impl} {id : PublisherId} {boot : PublisherBootId} {now : Timestamp}
  {publication q : Publication} {adapter reason : Text} {identity : PublisherIdentity}
  {s : PublisherStateInternal} {past past' : List Grant}

/-- The registry heeds a publication: its sender passes every check made of a sender. -/
inductive Heeds [StdLib] (r : Impl) (publication : Publication) : Prop
  | schema (catalog : r.ExtendsCatalog publication)
  | registration (q : Publication) (kind : publication.kind = .registerPublisher)
      (prepared : r.prepare publication = .ok q)
      (granted : (r.grantedBoot q.publisher q.reason).isSome = true)
  | known (q : Publication) (publisher : PublisherStateInternal)
      (addressed : Addressed r publication q publisher) (authority : r.Authorized publisher q)

theorem heeds_of_accepted [StdLib] (h : (r.applyLocked now publication).1.accepted = true) :
    r.Heeds publication := by
  have hi := ingested r now publication
  generalize ho : r.applyLocked now publication = out at h hi
  cases hi with
  | shuttingDown result running refused => simp [refused] at h
  | unprepared result running unprepared => simp [prepare_eq_error unprepared] at h
  | schema q running prepared kind =>
    have hp := Impl.prepare_eq_ok prepared
    unfold applySchema at h
    split at h
    · split at h <;> cases h
    · next bound hb =>
      exact .schema ⟨running, hp.kind ▸ kind, ⟨q, prepared⟩,
        hp.payload ▸ registrable_iff.mp ⟨bound, hb⟩⟩
  | registration q running prepared kind =>
    refine .registration q ((prepare_eq_ok prepared).kind.symm.trans kind) prepared ?_
    rw [grantedBoot_of_accepted h]
    rfl
  | unknownPublisher q result running prepared kind unregistered refused => simp [refused] at h
  | unauthorized q publisher result addressed refusal =>
    simp [authorityRefusal_eq_some refusal] at h
  | repeated q publisher result addressed authority => exact .known q publisher addressed authority
  | unsequenced q publisher result addressed authority => exact .known q publisher addressed authority
  | handled q publisher addressed authority => exact .known q publisher addressed authority

/-- Every publisher whose boot is not fenced was registered under it by an entry of the list. -/
structure Traced (r : Impl) (past : List Grant) : Prop where
  named : Named r.publishers
  live : ∀ id s, r.publishers[id]? = some s → s.record.identity.boot.valid = true →
    s.record.identity.boot ∉ s.fencedBoots → ∃ handle, ⟨handle, id, s.record.identity.boot⟩ ∈ past

theorem Traced.mono (h : r.Traced past) (hp : past ⊆ past') : r.Traced past' where
  named := h.named
  live id s hs hv hl := (h.live id s hs hv hl).imp fun _ hm => hp hm

theorem Traced.standings (h : r.Traced past) (hs : SameStandings r r') : r'.Traced past where
  named id s' hs' := by
    obtain ⟨s, hx, hst⟩ := hs.before hs'
    rw [hst.identity]
    exact h.named id s hx
  live id s' hs' hv hl := by
    obtain ⟨s, hx, hst⟩ := hs.before hs'
    rw [hst.identity] at hv hl ⊢
    rw [hst.fencedBoots] at hl
    exact h.live id s hx hv hl

theorem Traced.set (h : r.Traced past) (he : r'.publishers = (r.setPublisher id s).publishers)
    (hid : s.record.identity.id = id) (hv : id.valid = true)
    (hlive : s.record.identity.boot.valid = true → s.record.identity.boot ∉ s.fencedBoots →
      ∃ handle, ⟨handle, id, s.record.identity.boot⟩ ∈ past) : r'.Traced past where
  named := named_set h.named hid hv he
  live id' t ht hvalid hl := by
    rw [he, setPublisher_publishers] at ht
    split at ht
    · next hi =>
      subst hi
      obtain rfl := Option.some.inj ht
      exact hlive hvalid hl
    · exact h.live id' t ht hvalid hl

/-- A publisher that only gains fences is as well traced as before. -/
theorem Traced.bury {t : PublisherStateInternal} (h : r.Traced past)
    (hs : r.publishers[id]? = some s) (he : r'.publishers = (r.setPublisher id t).publishers)
    (hident : t.record.identity = s.record.identity)
    (hfenced : ∀ boot ∈ s.fencedBoots, boot ∈ t.fencedBoots) : r'.Traced past := by
  obtain ⟨hid, hv⟩ := h.named id s hs
  refine h.set he (hident ▸ hid) hv fun hvalid hl => ?_
  rw [hident] at hvalid hl ⊢
  exact h.live id s hs hvalid fun hm => hl (hfenced _ hm)

theorem Traced.fence (h : r.Traced past) (id : PublisherId) (reason : Text) :
    (r.fencePublisher id reason).2.Traced past := by
  unfold fencePublisher
  split
  · exact h
  · next s hs =>
    split
    · exact h
    · exact h.bury hs (t := fenceState reason s) rfl rfl fun _ hm => mem_insert_if hm

theorem Traced.retire (h : r.Traced past) (id : PublisherId) (boot : PublisherBootId)
    (reason : Text) : (r.retirePublisherBoot id boot reason).2.Traced past := by
  unfold retirePublisherBoot
  split
  · exact h
  · next s hs =>
    split
    · exact h
    · split
      · exact h
      · refine h.bury hs (t := retireState boot reason s) rfl ?_
          fun _ hm => Std.ExtTreeSet.mem_insert.mpr (.inr hm)
        unfold retireState
        dsimp only
        split <;> rfl

/-- A registration is traced to the entry it is given. -/
theorem Traced.register (h : r.Traced past) (handle : Nat)
    (hacc : (r.registerPublisherLocked now identity adapter).1.accepted = true)
    (hentry : ⟨handle, (r.registerPublisherLocked now identity adapter).1.assignedPublisher.id,
      (r.registerPublisherLocked now identity adapter).1.assignedPublisher.boot⟩ ∈ past) :
    (r.registerPublisherLocked now identity adapter).2.Traced past := by
  have hr := registers r now identity adapter
  generalize r.registerPublisherLocked now identity adapter = out at hr hacc hentry ⊢
  cases hr with
  | refused => exact h
  | first result valid bounded unknown room accepted assigned =>
    rw [assigned] at hentry
    exact h.set rfl rfl valid fun _ _ => ⟨handle, hentry⟩
  | fresh result state valid bounded known unfenced request accepted assigned =>
    obtain ⟨hid, -⟩ := h.named _ _ known
    rw [assigned] at hentry
    refine h.set rfl hid valid fun _ _ => ⟨handle, ?_⟩
    rw [← hid]
    exact hentry
  | reaffirmed result state valid bounded known unfenced request live boot accepted assigned =>
    obtain ⟨hid, -⟩ := h.named _ _ known
    rw [assigned] at hentry
    refine h.set rfl hid valid fun _ _ => ⟨handle, ?_⟩
    rw [← hid]
    exact hentry

end Impl

namespace Ledger
variable {l : Ledger} {c : Coordinator} {handle : Nat} {session session' : Session}
  {r' : Impl} {granted published : Option PublisherIdentity} {now : Timestamp} {frame : Frame}
  {publication : Publication} {past : List Grant}

theorem traced_retireSession {r : Impl} (h : r.Traced past) (session : Session) (reason : Text) :
    (retireSession r session reason).Traced past := by
  unfold retireSession
  split
  · exact h.retire _ _ _
  · exact h

theorem traced_dropSession (h : c.registry.Traced past) (handle : Nat) (reason : Text) :
    (c.dropSession handle reason).registry.Traced past := by
  unfold Coordinator.dropSession
  split
  · exact h
  · exact traced_retireSession h _ _

theorem traced_stop (h : c.registry.Traced past) : c.stop.registry.Traced past := by
  have hfold : ∀ (sessions : List (Nat × Session)) (r : Impl), r.Traced past →
      (sessions.foldl (fun registry e => retireSession registry e.2
        "coordinator shutdown; boot identity retired") r).Traced past := by
    intro sessions
    induction sessions with
    | nil => exact fun r h => h
    | cons e es ih => exact fun r h => ih _ (traced_retireSession h _ _)
  exact (hfold _ _ h).standings (Impl.sameStandings_of_eq rfl)

variable [StdLib]

/-- The registry and the entries of a ledger in which nothing was struck out. -/
def Traced (l : Ledger) : Prop := l.coordinator.registry.Traced (l.granted ++ l.published)

theorem traced_dispatched (h : l.Traced)
    (hd : Dispatches l.coordinator.config now l.coordinator.registry session frame session' r'
      granted published) (handle : Nat) :
    r'.Traced ((l.granted ++ entries handle granted) ++ (l.published ++ entries handle published)) := by
  have hsub : l.granted ++ l.published ⊆
      (l.granted ++ entries handle granted) ++ (l.published ++ entries handle published) := by
    intro g hg
    simp only [List.mem_append] at hg ⊢
    tauto
  have h := Impl.Traced.mono h hsub
  cases hd with
  | unmoved => exact h
  | greeted => exact h
  | counted =>
    refine h.standings (Impl.sameStandings_of_eq ?_)
    unfold Impl.takeSnapshot
    split <;> rfl
  | fenced id reason => exact h.fence id reason
  | refused request asks refused =>
    rw [Impl.registerPublisher_refused refused]
    exact h
  | granted request applied asks call accepted =>
    subst call
    have he := Impl.registerPublisher_of_accepted accepted
    rw [he] at accepted h ⊢
    exact h.register handle accepted (by simp [entries])
  | published publication carries other => exact h.standings (Impl.sameStandings_apply other)
  | registered publication applied carries kind call accepted =>
    subst call
    obtain ⟨q, hq⟩ := Impl.registered_of_accepted kind accepted
    rw [hq.result] at accepted h ⊢
    exact (h.register handle accepted (by simp [entries])).standings
      (Impl.sameStandings_of_eq hq.publishers)

theorem Traced.book (h : l.Traced) (action : Action) : (l.book action).Traced := by
  cases action with
  | connect handle =>
    rw [book_of_nil rfl rfl]
    change (l.coordinator.accept handle).registry.Traced _
    rw [l.coordinator.registry_accept]
    exact h
  | close handle =>
    rw [book_of_nil rfl rfl]
    exact traced_dropSession h handle _
  | shutdown =>
    rw [book_of_nil rfl rfl]
    exact traced_stop h
  | frame now handle frame sent =>
    cases hs : l.coordinator.sessions[handle]? with
    | none =>
      rw [book_stranger hs]
      exact h
    | some session =>
      obtain ⟨session', r', granted, published, requested, delivered, hd, he⟩ := book_frame hs
      have hbooked := traced_dispatched h hd handle
      rcases he with he | he <;> rw [he]
      · exact hbooked
      · exact traced_dropSession hbooked handle _

omit [StdLib] in
/-- A reset buries: what is traced to nothing before it is traced to nothing after it. -/
theorem traced_reset {r : Impl} (h : r.Traced past) (reason : Text) :
    (r.resetPublisherLiveness reason).Traced past where
  named := (Impl.attended_reset h.named reason).named
  live id s hs hv hl := by
    have hs : (r.publishers[id]?).map (Impl.resetState reason) = some s :=
      Std.ExtTreeMap.getElem?_map.symm.trans hs
    obtain ⟨t, ht, rfl⟩ := Option.map_eq_some_iff.mp hs
    unfold Impl.resetState at hv hl ⊢
    split at hv
    · next hr =>
      rw [if_pos hr] at hl ⊢
      exact h.live id t ht hv fun hm => hl (Impl.mem_insert_if hm)
    · next hr =>
      rw [if_neg hr] at hl ⊢
      exact h.live id t ht hv hl

/-- No boot of an earlier incarnation is left alive by a start. -/
theorem traced_started {config : CoordinatorConfig} {image : Option DurableState}
    (h : Coordinator.started config image = .ok c) : Traced ⟨c, [], []⟩ := by
  obtain ⟨base, hb, rfl⟩ := started_eq_ok h
  have htraced : base.Traced [] := by
    cases hb with
    | fresh => exact ⟨Impl.named_empty, fun id s hs => by simp [Impl.fresh] at hs⟩
    | restored state staged imports =>
      refine ⟨Impl.named_commit imports, fun id s hs hv hl => ?_⟩
      have hr := (Impl.restored_publisher imports id).2 s hs
      exact absurd ((hr.fencedBoots _).mpr (.inr ⟨hr.boot, hv⟩)) hl
  exact traced_reset (r := base.advanceCoordinatorEpoch) ⟨htraced.named, htraced.live⟩ _

/-- What an accepted publication has for it, whichever session it came over: it extends the schema
catalog, or registers a publisher that was unknown, or names the current and unfenced boot of a
known publisher, which some session of the run registered. -/
inductive Vouched (l : Ledger) (publication : Publication) : Prop
  | schema (catalog : l.coordinator.registry.ExtendsCatalog publication)
  | first (kind : publication.kind = .registerPublisher)
      (unknown : l.coordinator.registry.publishers[publication.publisher.id]? = none)
  | known (s : PublisherStateInternal) (g : Grant)
      (registered : l.coordinator.registry.publishers[publication.publisher.id]? = some s)
      (unfenced : s.publisherFenced = false)
      (boot : s.record.identity.boot = publication.publisher.boot)
      (live : publication.publisher.boot ∉ s.fencedBoots)
      (epoch : publication.kind = .registerPublisher ∨
        publication.publisher.epoch = l.coordinator.registry.epoch)
      (entered : g ∈ l.granted ++ l.published) (publisher : g.publisher = publication.publisher.id)
      (granted : g.boot = publication.publisher.boot)

theorem Traced.vouched (h : l.Traced)
    (hacc : (l.coordinator.registry.applyLocked now publication).1.accepted = true) :
    l.Vouched publication := by
  cases Impl.heeds_of_accepted hacc with
  | schema catalog => exact .schema catalog
  | registration q kind prepared granted =>
    have hp := Impl.prepare_eq_ok prepared
    have hv := hp.valid
    simp only [validatePublication, status_bind_eq_ok, require_eq_ok] at hv
    obtain ⟨boot, hboot⟩ := Option.isSome_iff_exists.mp granted
    cases hs : l.coordinator.registry.publishers[publication.publisher.id]? with
    | none => exact .first kind hs
    | some s =>
      obtain ⟨rfl, hf, hcur, hlive⟩ := Impl.grantedBoot_known (hp.publisher ▸ hs) hv.2.1 hboot
      have hvalid := hv.2.1
      rw [hp.publisher] at hcur hlive hvalid
      obtain ⟨handle, hentry⟩ := h.live _ s hs (hcur ▸ hvalid) (hcur ▸ hlive)
      exact .known s _ hs hf hcur hlive (.inl kind) hentry rfl hcur
  | known q publisher addressed authority =>
    have hp := Impl.prepare_eq_ok addressed.prepared
    have hv := hp.valid
    simp only [validatePublication, status_bind_eq_ok, require_eq_ok] at hv
    have hs := addressed.registered
    obtain ⟨hf, hlive, hcur, hepoch⟩ := authority
    have hvalid := hv.2.1
    rw [hp.publisher] at hs hcur hlive hvalid hepoch
    obtain ⟨handle, hentry⟩ := h.live _ publisher hs (hcur ▸ hvalid) (hcur ▸ hlive)
    exact .known publisher _ hs hf hcur hlive (.inr hepoch) hentry rfl hcur

/-- Every publication that a session sends and the registry accepts is vouched for. -/
def Vouches (l : Ledger) (action : Action) : Prop :=
  ∀ now handle frame sent publication, action = .frame now handle frame sent →
    handle ∈ l.coordinator.sessions → frame.Carries l.coordinator.config.limits publication →
    (l.coordinator.registry.applyLocked now publication).1.accepted = true → l.Vouched publication

/-- In every run, with any interleaving of its sessions, every accepted publication is vouched
for. -/
theorem accepted_publications_are_vouched {config : CoordinatorConfig}
    {image : Option DurableState} (hs : Coordinator.started config image = .ok c)
    (actions : List Action) : Machine.Along Ledger.book Vouches ⟨c, [], []⟩ actions := by
  have hall : Machine.Along Ledger.book (fun _ _ => True) ⟨c, [], []⟩ actions :=
    Machine.along_of_forall (fun _ _ => trivial) _ actions
  refine (hall.with_invariant (traced_started hs) fun _ action h _ => h.book action).mono ?_
  intro l action h now handle frame sent publication _ _ _ hacc
  exact h.1.vouched hacc

/-- An accepted publication came over a session that has shaken hands and has itself registered
the publisher and boot that it names. -/
def Authorizes (l : Ledger) (action : Action) : Prop :=
  ∀ now handle frame sent (session : Session) publication,
    action = .frame now handle frame sent → l.coordinator.sessions[handle]? = some session →
    frame.Carries l.coordinator.config.limits publication →
    (l.coordinator.registry.applyLocked now publication).1.accepted = true →
    session.handshakeComplete = true ∧ ∃ g ∈ l.granted ++ l.published, g.handle = handle ∧
      g.publisher = publication.publisher.id ∧ g.boot = publication.publisher.boot

end Ledger

namespace Sample

def published (publication : Publication) : Frame :=
  { type := .publication, payload := (writePublication {} publication).out }

/-- The registration of a device by the publisher of the first session. -/
def deviceOfSession : Publication := { deviceRegistration 1 device with publisher.epoch := ⟨2⟩ }

end Sample

namespace Ledger

theorem accepted_publications_are_vouched_device :
    letI := StdLib.reference
    Machine.Along Ledger.book Vouches ⟨Sample.coordinator, [], []⟩
      (Sample.session [Sample.publisher.id] ++
        [.frame Sample.now 1 (Sample.published Sample.deviceOfSession) true]) := by
  let := StdLib.reference
  exact accepted_publications_are_vouched
    (show Coordinator.started {} none = .ok Sample.coordinator from rfl) _

/-- A publisher registers over one session; over another, which has not even shaken hands, its
publication is accepted. -/
theorem stranger_publishes_for_session :
    letI := StdLib.reference
    ¬ ∀ (config : CoordinatorConfig) (image : Option DurableState) (c : Coordinator)
      (actions : List Action), Coordinator.started config image = .ok c →
        Machine.Along Ledger.after Authorizes ⟨c, [], []⟩ actions := by
  let := StdLib.reference
  intro h
  have hrun := h {} none Sample.coordinator (Sample.session [Sample.publisher.id] ++
    [.connect 2, .frame Sample.now 2 (Sample.published Sample.deviceOfSession) true]) rfl
  obtain ⟨-, -, -, -, hlast, -⟩ := hrun
  generalize hl : Ledger.after (Ledger.after (Ledger.after (Ledger.after ⟨Sample.coordinator, [], []⟩
    (.connect 1)) _) _) (.connect 2) = l at hlast
  have haccepted : ((decodePublication {} (Sample.published Sample.deviceOfSession).payload).toOption.map
      fun p => (l.coordinator.registry.applyLocked Sample.now p).1.accepted) = some true := by
    rw [← hl]
    decide +kernel
  obtain ⟨publication, hp, hacc⟩ := Option.map_eq_some_iff.mp haccepted
  have hdecoded : decodePublication {} (Sample.published Sample.deviceOfSession).payload =
      .ok publication := by
    generalize decodePublication {} (Sample.published Sample.deviceOfSession).payload = decoded at hp
    cases decoded with
    | error e => cases hp
    | ok p => exact congrArg _ (Option.some.inj hp)
  have hsession : (l.coordinator.sessions[2]?).map Session.handshakeComplete = some false := by
    rw [← hl]
    decide
  obtain ⟨session, hs, hshake⟩ := Option.map_eq_some_iff.mp hsession
  have hlimits : l.coordinator.config.limits = {} := by
    rw [← hl]
    simp only [Ledger.after, Ledger.prune, Ledger.book, Coordinator.config_after]
    rfl
  have hdone := (hlast Sample.now 2 _ true session publication rfl hs
    ⟨rfl, hlimits ▸ hdecoded⟩ hacc).1
  rw [hshake] at hdone
  cases hdone

end Ledger

end CapabilityRegistry
