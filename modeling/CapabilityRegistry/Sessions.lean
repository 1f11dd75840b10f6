import CapabilityRegistry.Attendance
import CapabilityRegistry.Coordinator

/-! What sessions hold of their publishers, and what is left of it when they end. -/
namespace CapabilityRegistry

/-- The session remembers this boot as the one it registered last. -/
structure Session.Holds (session : Session) (id : PublisherId) (boot : PublisherBootId) : Prop where
  registered : session.publisherRegistered = true
  publisher : session.publisher = id
  boot : session.boot = boot

/-- The frame is a registration that the session may ask for. -/
structure Session.Asks (session : Session) (limits : RegistryLimits) (frame : Frame)
    (request : RegisterPublisherMessage) : Prop where
  type : frame.type = .registerPublisher
  handshake : session.handshakeComplete = true
  decoded : decodeRegisterPublisher limits frame.payload = .ok request

/-- The frame carries a publication. -/
structure Frame.Carries (frame : Frame) (limits : RegistryLimits) (publication : Publication) :
    Prop where
  type : frame.type = .publication
  decoded : decodePublication limits frame.payload = .ok publication

section Dispatch
variable (config : CoordinatorConfig) (now : Timestamp) (registry : Impl) (session : Session)
  (frame : Frame)

/-- The identity that a RegisterPublisher frame registers. -/
def grantedBy : Option PublisherIdentity :=
  if frame.type = .registerPublisher && session.handshakeComplete then
    match decodeRegisterPublisher config.limits frame.payload with
    | .error _ => none
    | .ok request =>
      let applied := (registry.registerPublisher now request.identity request.adapter).1
      if applied.accepted then some applied.assignedPublisher else none
  else none

variable [StdLib]

/-- The identity that a Publication frame registers. -/
def publishedBy : Option PublisherIdentity :=
  if frame.type = .publication then
    match decodePublication config.limits frame.payload with
    | .error _ => none
    | .ok publication =>
      let applied := (registry.applyLocked now publication).1
      if publication.kind = .registerPublisher && applied.accepted then some applied.assignedPublisher
      else none
  else none

/-- What the interpretation of a frame does to the session and the registry, and the identities it
registers. -/
inductive Dispatches : Session → Impl → Option PublisherIdentity → Option PublisherIdentity → Prop
  | unmoved : Dispatches session registry none none
  | greeted : Dispatches { session with handshakeComplete := true } registry none none
  | counted : Dispatches session registry.takeSnapshot.2 none none
  | fenced (id : PublisherId) (reason : Text) :
    Dispatches session (registry.fencePublisher id reason).2 none none
  | refused (request : RegisterPublisherMessage) (asks : session.Asks config.limits frame request)
      (refused : (registry.registerPublisher now request.identity request.adapter).1.accepted =
        false) :
    Dispatches session (registry.registerPublisher now request.identity request.adapter).2 none none
  | granted (request : RegisterPublisherMessage) (applied : ApplyResult × Impl)
      (asks : session.Asks config.limits frame request)
      (call : registry.registerPublisher now request.identity request.adapter = applied)
      (accepted : applied.1.accepted = true) :
    Dispatches (remember session applied.1 request.adapter) applied.2
      (some applied.1.assignedPublisher) none
  | published (publication : Publication) (carries : frame.Carries config.limits publication)
      (other : ¬ (publication.kind = .registerPublisher ∧
        (registry.applyLocked now publication).1.accepted = true)) :
    Dispatches session (registry.applyLocked now publication).2 none none
  | registered (publication : Publication) (applied : ApplyResult × Impl)
      (carries : frame.Carries config.limits publication)
      (kind : publication.kind = .registerPublisher)
      (call : registry.applyLocked now publication = applied) (accepted : applied.1.accepted = true) :
    Dispatches session applied.2 none (some applied.1.assignedPublisher)

variable {config now registry session frame}

theorem dispatches_registerPublisher (ht : frame.type = .registerPublisher) :
    Dispatches config now registry session frame
      (dispatchRegisterPublisher config now registry session frame.payload).session
      (dispatchRegisterPublisher config now registry session frame.payload).registry
      (grantedBy config now registry session frame) none := by
  unfold dispatchRegisterPublisher grantedBy
  cases hh : session.handshakeComplete with
  | false =>
    rw [if_pos (by rfl), if_neg (by simp)]
    exact .unmoved
  | true =>
    rw [if_neg (by simp), if_pos (by simp [ht])]
    cases hd : decodeRegisterPublisher config.limits frame.payload with
    | error e => exact .unmoved
    | ok request =>
      dsimp only
      cases hacc : (registry.registerPublisher now request.identity request.adapter).1.accepted with
      | false =>
        rw [if_neg (by simp), remember, hacc, if_neg (by simp)]
        exact .refused request ⟨ht, hh, hd⟩ hacc
      | true => exact .granted request _ ⟨ht, hh, hd⟩ rfl hacc

theorem dispatches_publication (ht : frame.type = .publication) :
    Dispatches config now registry session frame
      (dispatchPublication config now registry session frame.payload).session
      (dispatchPublication config now registry session frame.payload).registry
      none (publishedBy config now registry frame) := by
  unfold dispatchPublication publishedBy
  rw [if_pos ht]
  cases hd : decodePublication config.limits frame.payload with
  | error e => exact .unmoved
  | ok publication =>
    dsimp only
    split
    · next hk =>
      simp only [Bool.and_eq_true, decide_eq_true_eq] at hk
      exact .registered publication _ ⟨ht, hd⟩ hk.1 rfl hk.2
    · next hk => exact .published publication ⟨ht, hd⟩ (by simpa using hk)

theorem dispatches :
    Dispatches config now registry session frame
      (dispatch config now registry session frame).session
      (dispatch config now registry session frame).registry
      (grantedBy config now registry session frame)
      (publishedBy config now registry frame) := by
  have hg : frame.type ≠ .registerPublisher → grantedBy config now registry session frame = none :=
    fun h => by simp [grantedBy, h]
  have hp : frame.type ≠ .publication → publishedBy config now registry frame = none :=
    fun h => by simp [publishedBy, h]
  unfold dispatch
  split
  · next ht =>
    rw [hg (by simp [ht]), hp (by simp [ht])]
    unfold dispatchHello
    split
    · exact .unmoved
    · split
      · exact .unmoved
      · exact .greeted
  · next ht =>
    rw [hp (by simp [ht])]
    exact dispatches_registerPublisher ht
  · next ht =>
    rw [hg (by simp [ht])]
    exact dispatches_publication ht
  · next ht =>
    rw [hg (by simp [ht]), hp (by simp [ht])]
    unfold dispatchHeartbeat
    split <;> exact .unmoved
  · next ht =>
    rw [hg (by simp [ht]), hp (by simp [ht])]
    unfold dispatchFencePublisher
    split
    · exact .unmoved
    · exact .fenced _ _
  · next ht =>
    rw [hg (by simp [ht]), hp (by simp [ht])]
    unfold dispatchQuery serveQuery
    split
    · exact .unmoved
    · dsimp only
      split
      · exact .counted
      · exact .unmoved
  · next ht =>
    rw [hg (by simp [ht]), hp (by simp [ht])]
    exact .counted
  · next ht =>
    rw [hg (by simp [ht]), hp (by simp [ht])]
    unfold dispatchShutdown
    split <;> exact .unmoved
  · next h1 h2 h3 h4 h5 h6 h7 h8 h9 =>
    rw [hg (by simpa using h3), hp (by simpa using h4)]
    exact .unmoved

end Dispatch

/-- A boot that a session registered over its connection. -/
structure Grant where
  handle : Nat
  publisher : PublisherId
  boot : PublisherBootId
deriving DecidableEq

/-- What the registration of an identity enters for its session. -/
def entries (handle : Nat) (identity : Option PublisherIdentity) : List Grant :=
  identity.toList.map fun identity => ⟨handle, identity.id, identity.boot⟩

namespace Coordinator
variable (c : Coordinator)

/-- A session holds this boot. -/
def Held (id : PublisherId) (boot : PublisherBootId) : Prop :=
  ∃ (handle : Nat) (session : Session), c.sessions[handle]? = some session ∧ session.Holds id boot

def grants : Action → List Grant
  | .frame now handle frame _ =>
    match c.sessions[handle]? with
    | none => []
    | some session => entries handle (grantedBy c.config now c.registry session frame)
  | _ => []

def publishes [StdLib] : Action → List Grant
  | .frame now handle frame _ =>
    if handle ∈ c.sessions then entries handle (publishedBy c.config now c.registry frame) else []
  | _ => []

end Coordinator

/-- A coordinator beside the boots that the sessions it still has registered, with
RegisterPublisher frames and with Publication frames. -/
structure Ledger where
  coordinator : Coordinator
  granted : List Grant := []
  published : List Grant := []

namespace Ledger

/-- The entries of sessions that have ended are struck out. -/
def prune (l : Ledger) : Ledger :=
  { l with
    granted := l.granted.filter fun g => l.coordinator.sessions.contains g.handle
    published := l.published.filter fun g => l.coordinator.sessions.contains g.handle }

/-- Every registered publisher has a live session that registered the boot it holds. -/
def Attends (l : Ledger) : Prop :=
  ∀ id s, l.coordinator.registry.publishers[id]? = some s → s.record.state = .registered →
    ∃ g ∈ l.granted ++ l.published, g.handle ∈ l.coordinator.sessions ∧ g.publisher = id ∧
      g.boot = s.record.identity.boot

variable [StdLib] (l : Ledger)

def book (action : Action) : Ledger :=
  { coordinator := l.coordinator.after action
    granted := l.granted ++ l.coordinator.grants action
    published := l.published ++ l.coordinator.publishes action }

def after (action : Action) : Ledger := (l.book action).prune

def run (actions : List Action) : Ledger := actions.foldl after l

/-- Whatever a session that the action ends has registered is dead. -/
def Retires (action : Action) : Prop :=
  ∀ g ∈ (l.book action).granted ++ (l.book action).published,
    g.handle ∉ (l.after action).coordinator.sessions →
      (l.after action).coordinator.registry.Dead g.publisher g.boot

end Ledger

section Retirement
variable [StdLib] {r : Impl} {held : PublisherId → PublisherBootId → Prop} {session : Session}
  {id : PublisherId} {boot : PublisherBootId} {reason : Text} {c : Coordinator} {l : Ledger}

/-- What is dead stays dead under every call that restores nothing. -/
theorem Impl.Dead.call (h : r.Dead id boot) (op : Op) (hop : ∀ state, op ≠ .importDurableState state) :
    (r.after op).Dead id boot :=
  h.after (by rintro ⟨state, -, -, rfl, -⟩; exact hop state rfl)

theorem Impl.Dead.retireSession (h : r.Dead id boot) (session : Session) (reason : Text) :
    (retireSession r session reason).Dead id boot := by
  unfold CapabilityRegistry.retireSession
  split
  · exact h.call (.retirePublisherBoot session.publisher session.boot reason) (by rintro _ ⟨⟩)
  · exact h

omit [StdLib] in
/-- The end of a session leaves what it holds dead. -/
theorem Impl.Attended.retireSession (h : r.Attended held)
    (hh : ∀ id boot, session.Holds id boot → held id boot) (reason : Text) :
    (retireSession r session reason).Attended held ∧
      ∀ id boot, session.Holds id boot → (retireSession r session reason).Dead id boot := by
  unfold CapabilityRegistry.retireSession
  split
  · next hreg =>
    obtain ⟨ha, hd⟩ := h.retire (hh _ _ ⟨hreg, rfl, rfl⟩) reason
    refine ⟨ha, ?_⟩
    rintro id boot ⟨-, rfl, rfl⟩
    exact hd
  · next hreg => exact ⟨h, fun id boot hs => absurd hs.registered hreg⟩

/-- So does the end of several sessions, one after the other. -/
theorem Impl.Attended.retireSessions (sessions : List (Nat × Session)) (h : r.Attended held)
    (hh : ∀ e ∈ sessions, ∀ id boot, e.2.Holds id boot → held id boot) (reason : Text) :
    let r' := sessions.foldl (fun registry e => CapabilityRegistry.retireSession registry e.2 reason) r
    r'.Attended held ∧ (∀ id boot, r.Dead id boot → r'.Dead id boot) ∧
      ∀ e ∈ sessions, ∀ id boot, e.2.Holds id boot → r'.Dead id boot := by
  induction sessions generalizing r with
  | nil => exact ⟨h, fun _ _ hd => hd, by simp⟩
  | cons e es ih =>
    obtain ⟨ha, hd⟩ := h.retireSession (hh e List.mem_cons_self) reason
    obtain ⟨ha', hmono, hd'⟩ := ih ha fun e' he' => hh e' (List.mem_cons_of_mem _ he')
    refine ⟨ha', fun id boot hdead => hmono id boot (hdead.retireSession e.2 reason), ?_⟩
    intro e' he' id boot hs
    rcases List.mem_cons.mp he' with rfl | he'
    · exact hmono id boot (hd id boot hs)
    · exact hd' e' he' id boot hs

end Retirement

namespace Ledger
variable {l : Ledger} {c : Coordinator} {handle : Nat} {session : Session}

/-- The registry is attended by the sessions, and what a session registered is dead or it still
holds it. -/
structure Sound (l : Ledger) : Prop where
  attended : l.coordinator.registry.Attended l.coordinator.Held
  recalled : ∀ g ∈ l.granted ++ l.published,
    l.coordinator.registry.Dead g.publisher g.boot ∨ ∃ session,
      l.coordinator.sessions[g.handle]? = some session ∧ session.Holds g.publisher g.boot

/-- What a session holds it was granted. -/
def Booked (l : Ledger) : Prop :=
  ∀ (handle : Nat) (session : Session), l.coordinator.sessions[handle]? = some session →
    ∀ id boot, session.Holds id boot → ⟨handle, id, boot⟩ ∈ l.granted

theorem Sound.prune (h : l.Sound) : l.prune.Sound where
  attended := h.attended
  recalled g hg := by
    refine h.recalled g ?_
    simp only [Ledger.prune, List.mem_append, List.mem_filter] at hg ⊢
    exact hg.imp And.left And.left

theorem Booked.prune (h : l.Booked) : l.prune.Booked := by
  intro handle session hs id boot hh
  have hs : l.coordinator.sessions[handle]? = some session := hs
  refine List.mem_filter.mpr ⟨h handle session hs id boot hh, ?_⟩
  simp [Std.ExtTreeMap.contains_eq_isSome_getElem?, hs]

variable {id : PublisherId} {boot : PublisherBootId} {reason : Text}

theorem sessions_dropSession (c : Coordinator) (handle k : Nat) (reason : Text) :
    (c.dropSession handle reason).sessions[k]? = if handle = k then none else c.sessions[k]? := by
  unfold Coordinator.dropSession
  split
  · next hs =>
    split
    · next hk => rw [← hk, hs]
    · rfl
  · simp [Std.ExtTreeMap.getElem?_erase]

/-- What is held or dead stays so, or dies, when sessions go and nothing rises. -/
theorem Sound.close (h : l.Sound) (ha : c.registry.Attended l.coordinator.Held)
    (hle : ∀ (k : Nat) (session : Session), c.sessions[k]? = some session →
      l.coordinator.sessions[k]? = some session)
    (hmono : ∀ id boot, l.coordinator.registry.Dead id boot → c.registry.Dead id boot)
    (hgone : ∀ (k : Nat) (session : Session), l.coordinator.sessions[k]? = some session →
      c.sessions[k]? = some session ∨ ∀ id boot, session.Holds id boot → c.registry.Dead id boot) :
    Sound { l with coordinator := c } where
  attended := by
    refine ha.release ?_ ?_
    · rintro id boot ⟨k, session, hk, hh⟩
      exact ⟨k, session, hle k session hk, hh⟩
    · rintro id boot ⟨k, session, hk, hh⟩
      exact (hgone k session hk).imp (fun hk' => ⟨k, session, hk', hh⟩) fun hd => hd id boot hh
  recalled g hg := by
    rcases h.recalled g hg with hd | ⟨session, hk, hh⟩
    · exact .inl (hmono _ _ hd)
    · exact ((hgone _ session hk).imp (fun hk' => ⟨session, hk', hh⟩) fun hd => hd _ _ hh).symm

variable [StdLib]

theorem Sound.dropSession (h : l.Sound) (handle : Nat) (reason : Text) :
    Sound { l with coordinator := l.coordinator.dropSession handle reason } := by
  have hs := fun k => sessions_dropSession l.coordinator handle k reason
  cases hsome : l.coordinator.sessions[handle]? with
  | none =>
    have he : l.coordinator.dropSession handle reason = l.coordinator := by
      simp [Coordinator.dropSession, hsome]
    rw [he]
    exact h
  | some session =>
    obtain ⟨ha, hd⟩ := h.attended.retireSession
      (fun id boot hh => ⟨handle, session, hsome, hh⟩) reason
    have hr : (l.coordinator.dropSession handle reason).registry =
        retireSession l.coordinator.registry session reason := by
      simp [Coordinator.dropSession, hsome]
    rw [← hr] at ha hd
    refine h.close ha (fun k s hk => ?_) (fun id boot hdead => ?_) (fun k s hk => ?_)
    · rw [hs] at hk
      split at hk
      · cases hk
      · exact hk
    · rw [hr]
      exact hdead.retireSession session reason
    · rw [hs]
      split
      · next hk' =>
        subst hk'
        obtain rfl := Option.some.inj (hsome.symm.trans hk)
        exact .inr hd
      · exact .inl hk

theorem Sound.stop (h : l.Sound) : Sound { l with coordinator := l.coordinator.stop } := by
  obtain ⟨ha, hmono, hd⟩ := h.attended.retireSessions l.coordinator.sessions.toList
    (fun e he id boot hh => ⟨e.1, e.2, OrdMap.mem_toList.mp he, hh⟩)
    "coordinator shutdown; boot identity retired"
  refine h.close (ha.standings (Impl.sameStandings_of_eq rfl)) (fun k s hk => ?_) hmono
    (fun k s hk => ?_)
  · simp [Coordinator.stop] at hk
  · exact .inr (hd (k, s) (OrdMap.mem_toList.mpr hk))

omit [StdLib] in
theorem sessions_kept_by_accept {k : Nat} (h : c.sessions[k]? = some session) (handle : Nat) :
    (c.accept handle).sessions[k]? = some session := by
  unfold Coordinator.accept
  split
  · change (c.sessions.insertIfNew handle {})[k]? = some session
    rw [OrdMap.getElem?_insertIfNew_eq]
    split
    · next he =>
      rw [he, h]
      rfl
    · exact h
  · exact h

omit [StdLib] in
/-- A session after a connection was accepted was there before, or is new. -/
theorem sessions_accept {k : Nat} (h : (c.accept handle).sessions[k]? = some session) :
    c.sessions[k]? = some session ∨ session = {} := by
  unfold Coordinator.accept at h
  split at h
  · change (c.sessions.insertIfNew handle {})[k]? = some session at h
    rw [OrdMap.getElem?_insertIfNew_eq] at h
    split at h
    · next he =>
      subst he
      cases hs : c.sessions[handle]? with
      | none =>
        rw [hs] at h
        exact .inr (Option.some.inj h).symm
      | some session' =>
        rw [hs] at h
        exact .inl h
    · exact .inl h
  · exact .inl h

omit [StdLib] in
theorem Sound.accept (h : l.Sound) (handle : Nat) :
    Sound { l with coordinator := l.coordinator.accept handle } := by
  have hr := l.coordinator.registry_accept handle
  refine ⟨?_, fun g hg => ?_⟩
  · rw [hr]
    refine h.attended.release ?_ ?_
    · rintro id boot ⟨k, session, hk, hh⟩
      rcases sessions_accept hk with hk | rfl
      · exact ⟨k, session, hk, hh⟩
      · cases hh.registered
    · rintro id boot ⟨k, session, hk, hh⟩
      exact .inl ⟨k, session, sessions_kept_by_accept hk handle, hh⟩
  · rw [hr]
    exact (h.recalled g hg).imp_right fun ⟨session, hk, hh⟩ =>
      ⟨session, sessions_kept_by_accept hk handle, hh⟩

omit [StdLib] in
/-- A session is replaced by what a frame left of it. -/
theorem Sound.replace {session' : Session} {granted published : List Grant} (h : l.Sound)
    (hs : l.coordinator.sessions[handle]? = some session)
    (hc : c.sessions = l.coordinator.sessions.insert handle session')
    (ha : c.registry.Attended fun id boot => l.coordinator.Held id boot ∨ session'.Holds id boot)
    (hmono : ∀ id boot, l.coordinator.registry.Dead id boot → c.registry.Dead id boot)
    (hkeep : ∀ id boot, session.Holds id boot →
      session'.Holds id boot ∨ c.registry.Dead id boot)
    (hnew : ∀ g ∈ granted ++ published, g ∈ l.granted ++ l.published ∨
      (g.handle = handle ∧ session'.Holds g.publisher g.boot)) :
    Sound ⟨c, granted, published⟩ := by
  have hget : ∀ k : Nat, c.sessions[k]? =
      if handle = k then some session' else l.coordinator.sessions[k]? := by
    intro k
    rw [hc]
    exact OrdMap.getElem?_insert_eq _ _ _ _
  have hself : c.sessions[handle]? = some session' := by rw [hget, if_pos rfl]
  have hold : ∀ (k : Nat) (s : Session), l.coordinator.sessions[k]? = some s → ∀ id boot,
      s.Holds id boot → (∃ s, c.sessions[k]? = some s ∧ s.Holds id boot) ∨
        c.registry.Dead id boot := by
    intro k s hk id boot hh
    by_cases he : handle = k
    · subst he
      obtain rfl := Option.some.inj (hs.symm.trans hk)
      exact (hkeep id boot hh).imp_left fun hh => ⟨session', hself, hh⟩
    · exact .inl ⟨s, by rw [hget, if_neg he, hk], hh⟩
  refine ⟨ha.release ?_ ?_, fun g hg => ?_⟩
  · rintro id boot ⟨k, s, hk, hh⟩
    change c.sessions[k]? = some s at hk
    rw [hget] at hk
    split at hk
    · obtain rfl := Option.some.inj hk
      exact .inr hh
    · exact .inl ⟨k, s, hk, hh⟩
  · rintro id boot (⟨k, s, hk, hh⟩ | hh)
    · exact (hold k s hk id boot hh).imp_left fun ⟨s, hk, hh⟩ => ⟨k, s, hk, hh⟩
    · exact .inl ⟨handle, session', hself, hh⟩
  · rcases hnew g hg with hg | ⟨rfl, hh⟩
    · rcases h.recalled g hg with hd | ⟨s, hk, hh⟩
      · exact .inl (hmono _ _ hd)
      · exact (hold _ s hk _ _ hh).symm
    · exact .inr ⟨session', hself, hh⟩

end Ledger

/-- The action leaves no boot behind: a session that is given a boot, in good order, forgets
nothing that is alive, and a publication registers only what its session holds. -/
structure Coordinator.Remembers [StdLib] (c : Coordinator) (action : Action) : Prop where
  asked : ∀ now handle frame sent (session : Session) request boot,
    action = .frame now handle frame sent → c.sessions[handle]? = some session →
    session.Asks c.config.limits frame request →
    c.registry.grantedBoot request.identity request.adapter = some boot →
    boot.valid = true ∧ ¬ c.registry.Dead request.identity.id boot ∧
      (session.publisherRegistered = true → session.publisher = request.identity.id ∨
        c.registry.Dead session.publisher session.boot)
  published : ∀ now handle frame sent (session : Session) publication q,
    action = .frame now handle frame sent → c.sessions[handle]? = some session →
    frame.Carries c.config.limits publication → publication.kind = .registerPublisher →
    c.registry.prepare publication = .ok q →
    (c.registry.grantedBoot q.publisher q.reason).isSome = true →
    session.Holds publication.publisher.id publication.publisher.boot

namespace Ledger
variable [StdLib] {l : Ledger} {c : Coordinator} {handle : Nat} {session session' : Session}
  {id : PublisherId} {boot : PublisherBootId} {r' : Impl} {granted published : Option PublisherIdentity}
  {now : Timestamp} {frame : Frame} {sent : Bool}

omit [StdLib] in
/-- A frame that registers nothing and leaves what the session holds. -/
theorem Sound.idle (h : l.Sound) (hs : l.coordinator.sessions[handle]? = some session)
    (hh : ∀ id boot, session'.Holds id boot ↔ session.Holds id boot)
    (ha : r'.Attended l.coordinator.Held)
    (hmono : ∀ id boot, l.coordinator.registry.Dead id boot → r'.Dead id boot)
    (requested : Option Text) :
    Sound ⟨{ l.coordinator with
        registry := r'
        requested
        sessions := l.coordinator.sessions.insert handle session' }, l.granted, l.published⟩ := by
  refine h.replace hs rfl (ha.release ?_ fun _ _ hh => .inl (.inl hh)) hmono
    (fun id boot hold => .inl ((hh id boot).mpr hold)) fun g hg => .inl hg
  rintro id boot (hold | hold)
  · exact hold
  · exact ⟨handle, session, hs, (hh id boot).mp hold⟩

theorem Sound.dispatched (h : l.Sound) (hk : l.coordinator.Remembers (.frame now handle frame sent))
    (hs : l.coordinator.sessions[handle]? = some session)
    (hd : Dispatches l.coordinator.config now l.coordinator.registry session frame session' r'
      granted published)
    (requested : Option Text) (delivered : Nat) :
    Sound ⟨{ l.coordinator with
        registry := r'
        requested
        sessions := l.coordinator.sessions.insert handle { session' with delivered } },
      l.granted ++ entries handle granted, l.published ++ entries handle published⟩ := by
  have hholds : ∀ (s : Session) id boot,
      Session.Holds { s with delivered } id boot ↔ s.Holds id boot :=
    fun s id boot => ⟨fun ⟨h1, h2, h3⟩ => ⟨h1, h2, h3⟩, fun ⟨h1, h2, h3⟩ => ⟨h1, h2, h3⟩⟩
  cases hd with
  | unmoved => simpa [entries] using h.idle hs (hholds session) h.attended (fun _ _ hd => hd) requested
  | greeted =>
    have hg : ∀ id boot, Session.Holds { session with handshakeComplete := true, delivered } id boot ↔
        session.Holds id boot :=
      fun id boot => ⟨fun ⟨h1, h2, h3⟩ => ⟨h1, h2, h3⟩, fun ⟨h1, h2, h3⟩ => ⟨h1, h2, h3⟩⟩
    simpa [entries] using h.idle hs hg h.attended (fun _ _ hd => hd) requested
  | counted =>
    have hp : l.coordinator.registry.takeSnapshot.2.publishers = l.coordinator.registry.publishers := by
      unfold Impl.takeSnapshot
      split <;> rfl
    simpa [entries] using h.idle hs (hholds session)
      (h.attended.standings (Impl.sameStandings_of_eq hp))
      (fun id boot hd => hd.call .snapshot (by rintro _ ⟨⟩)) requested
  | fenced id reason =>
    simpa [entries] using h.idle hs (hholds session) (h.attended.fence id reason)
      (fun id' boot hd => hd.call (.fencePublisher id reason) (by rintro _ ⟨⟩)) requested
  | refused request asks refused =>
    rw [Impl.registerPublisher_refused refused]
    simpa [entries] using h.idle hs (hholds session) h.attended (fun _ _ hd => hd) requested
  | granted request applied asks call accepted =>
    subst call
    have hmono : ∀ id boot, l.coordinator.registry.Dead id boot →
        (l.coordinator.registry.registerPublisher now request.identity request.adapter).2.Dead id boot :=
      fun id boot hd =>
        hd.call (.registerPublisher now request.identity request.adapter) (by rintro _ ⟨⟩)
    have he := Impl.registerPublisher_of_accepted accepted
    rw [he] at accepted hmono ⊢
    obtain ⟨hv, hdead, hforget⟩ := hk.asked _ _ _ _ _ _ _ rfl hs asks
      (Impl.grantedBoot_of_accepted accepted)
    obtain ⟨ha, hid⟩ := h.attended.register accepted rfl hv hdead
    have hcur := Impl.registerPublisherLocked_assigned accepted
    generalize l.coordinator.registry.registerPublisherLocked now request.identity request.adapter =
      out at *
    have hnew : ∀ id boot, Session.Holds { remember session out.1 request.adapter with delivered }
        id boot ↔ id = request.identity.id ∧ out.1.assignedPublisher.boot = boot := by
      intro id boot
      rw [hholds, remember, if_pos accepted]
      refine ⟨fun ⟨_, h2, h3⟩ => ⟨h2.symm.trans hid, h3⟩, fun ⟨h2, h3⟩ => ⟨rfl, hid.trans h2.symm, h3⟩⟩
    refine h.replace hs rfl ?_ hmono ?_ ?_
    · simpa only [hnew] using ha
    · intro id boot hh
      rcases hforget hh.registered with hsame | hd
      · have hid : id = request.identity.id := hh.publisher.symm.trans hsame
        subst hid
        obtain ⟨s, hs', hc⟩ := ha.held _ boot (.inl ⟨handle, session, hs, hh⟩)
        rw [Impl.currentBoot_of_some hs'] at hcur
        rcases hc with hc | hd
        · exact .inl ((hnew _ _).mpr ⟨rfl, hcur.symm.trans hc⟩)
        · exact .inr ⟨s, hs', hd⟩
      · rw [hh.publisher, hh.boot] at hd
        exact .inr (hmono _ _ hd)
    · intro g hg
      simp only [entries, Option.toList_some, Option.toList_none, List.map_cons, List.map_nil,
        List.append_nil, List.mem_append, List.mem_singleton] at hg ⊢
      rcases hg with (hg | rfl) | hg
      · exact .inl (.inl hg)
      · exact .inr ⟨rfl, (hnew _ _).mpr ⟨hid, rfl⟩⟩
      · exact .inl (.inr hg)
  | published publication carries other =>
    simpa [entries] using h.idle hs (hholds session)
      (h.attended.standings (Impl.sameStandings_apply other))
      (fun id boot hd => hd.call (.apply now publication) (by rintro _ ⟨⟩)) requested
  | registered publication applied carries kind call accepted =>
    subst call
    have hmono : ∀ id boot, l.coordinator.registry.Dead id boot →
        (l.coordinator.registry.applyLocked now publication).2.Dead id boot :=
      fun id boot hd => hd.call (.apply now publication) (by rintro _ ⟨⟩)
    obtain ⟨q, hq⟩ := Impl.registered_of_accepted kind accepted
    have hacc := hq.result ▸ accepted
    have hgrant := Impl.grantedBoot_of_accepted hacc
    have hh := hk.published _ _ _ _ _ _ _ rfl hs carries kind hq.prepared (by rw [hgrant]; rfl)
    rw [← hq.publisher] at hh
    obtain ⟨s, hs', -⟩ := h.attended.held _ _ ⟨handle, session, hs, hh⟩
    obtain ⟨hboot, -, -, hlive⟩ := Impl.grantedBoot_known hs' hq.valid hgrant
    obtain ⟨ha, hid⟩ := h.attended.register hacc hboot.symm hq.valid (by
      rintro ⟨t, ht, hd⟩
      obtain rfl := Option.some.inj (hs'.symm.trans ht)
      exact hlive (hboot ▸ hd))
    refine h.replace hs rfl ?_ hmono (fun id boot hh => .inl ((hholds _ _ _).mpr hh)) fun g hg => ?_
    · refine (ha.standings (Impl.sameStandings_of_eq hq.publishers)).release ?_ ?_
      · rintro id boot (hold | hold)
        · exact .inl hold
        · exact .inl ⟨handle, session, hs, (hholds _ _ _).mp hold⟩
      · rintro id boot (hold | ⟨rfl, rfl⟩)
        · exact .inl (.inl hold)
        · exact .inl (.inl ⟨handle, session, hs, hh⟩)
    · simp only [entries, Option.toList_some, Option.toList_none, List.map_cons, List.map_nil,
        List.append_nil, List.mem_append, List.mem_singleton] at hg ⊢
      rcases hg with hg | hg | rfl
      · exact .inl (.inl hg)
      · exact .inl (.inr hg)
      · refine .inr ⟨rfl, (hholds _ _ _).mpr ?_⟩
        rw [hq.result, hid, ← hboot]
        exact hh

/-- An action that registers nothing only moves the coordinator. -/
theorem book_of_nil {action : Action} (hg : l.coordinator.grants action = [])
    (hp : l.coordinator.publishes action = []) :
    l.book action = { l with coordinator := l.coordinator.after action } := by
  simp [Ledger.book, hg, hp]

theorem book_stranger (hs : l.coordinator.sessions[handle]? = none) :
    l.book (.frame now handle frame sent) = l := by
  have hm : handle ∉ l.coordinator.sessions := fun hm => by
    rw [Std.ExtTreeMap.mem_iff_isSome_getElem?, hs] at hm
    cases hm
  have hstay : l.coordinator.after (.frame now handle frame sent) = l.coordinator := by
    unfold Coordinator.after Coordinator.interpret
    dsimp only
    rw [hs]
  have hg : l.coordinator.grants (.frame now handle frame sent) = [] := by
    simp [Coordinator.grants, hs]
  have hp : l.coordinator.publishes (.frame now handle frame sent) = [] := if_neg hm
  rw [book_of_nil hg hp, hstay]

/-- A frame of a session is dispatched and booked, and the session may end with it. -/
theorem book_frame (hs : l.coordinator.sessions[handle]? = some session) :
    ∃ session' r' granted published requested delivered,
      Dispatches l.coordinator.config now l.coordinator.registry session frame session' r' granted
        published ∧
      let booked : Ledger := ⟨{ l.coordinator with
          registry := r'
          requested
          sessions := l.coordinator.sessions.insert handle { session' with delivered } },
        l.granted ++ entries handle granted, l.published ++ entries handle published⟩
      l.book (.frame now handle frame sent) = booked ∨
        l.book (.frame now handle frame sent) = { booked with
          coordinator := booked.coordinator.dropSession handle "session closed during dispatch" } := by
  have hm : handle ∈ l.coordinator.sessions :=
    Std.ExtTreeMap.mem_iff_isSome_getElem?.mpr (Option.isSome_of_eq_some hs)
  unfold Ledger.book Coordinator.grants Coordinator.publishes Coordinator.after
    Coordinator.interpret
  dsimp only
  rw [hs, if_pos hm]
  cases sent with
  | true => exact ⟨_, _, _, _, _, _, dispatches, .inl rfl⟩
  | false => exact ⟨_, _, _, _, _, _, dispatches, .inr rfl⟩

theorem Sound.book (h : l.Sound) {action : Action} (hk : l.coordinator.Remembers action) :
    (l.book action).Sound := by
  cases action with
  | connect handle =>
    rw [book_of_nil rfl rfl]
    exact h.accept handle
  | close handle =>
    rw [book_of_nil rfl rfl]
    exact h.dropSession handle _
  | shutdown =>
    rw [book_of_nil rfl rfl]
    exact h.stop
  | frame now handle frame sent =>
    cases hs : l.coordinator.sessions[handle]? with
    | none =>
      rw [book_stranger hs]
      exact h
    | some session =>
      obtain ⟨session', r', granted, published, requested, delivered, hd, he⟩ := book_frame hs
      have hbooked := h.dispatched hk hs hd requested delivered
      rcases he with he | he <;> rw [he]
      · exact hbooked
      · exact hbooked.dropSession handle _

theorem Sound.after (h : l.Sound) {action : Action} (hk : l.coordinator.Remembers action) :
    (l.after action).Sound := (h.book hk).prune

theorem Sound.retires (h : l.Sound) {action : Action} (hk : l.coordinator.Remembers action) :
    l.Retires action := by
  intro g hg hgone
  refine ((h.book hk).recalled g hg).resolve_right ?_
  rintro ⟨session, hs, -⟩
  apply hgone
  rw [Std.ExtTreeMap.mem_iff_isSome_getElem?]
  exact Option.isSome_of_eq_some hs

theorem sound_started {config : CoordinatorConfig} {image : Option DurableState}
    (h : Coordinator.started config image = .ok c) : Sound ⟨c, [], []⟩ := by
  obtain ⟨base, hb, rfl⟩ := started_eq_ok h
  have hn : Named base.publishers := by
    cases hb with
    | fresh => exact Impl.named_empty
    | restored state staged imports => exact Impl.named_commit imports
  refine ⟨(Impl.attended_reset (r := base.advanceCoordinatorEpoch) hn _).release ?_
    (fun _ _ hh => hh.elim), fun g hg => by cases hg⟩
  rintro id boot ⟨k, session, hk, -⟩
  simp at hk

theorem booked_started {config : CoordinatorConfig} {image : Option DurableState}
    (h : Coordinator.started config image = .ok c) : Booked ⟨c, [], []⟩ := by
  obtain ⟨base, -, rfl⟩ := started_eq_ok h
  intro k session hk
  simp at hk

omit [StdLib] in
/-- What a session holds it registered. -/
theorem Sound.attends (h : l.Sound) (hb : l.Booked) : l.Attends := by
  intro id s hs hr
  obtain ⟨-, handle, session, hk, hh⟩ := h.attended.live id s hs hr
  exact ⟨_, List.mem_append_left _ (hb handle session hk id _ hh),
    Std.ExtTreeMap.mem_iff_isSome_getElem?.mpr (Option.isSome_of_eq_some hk), rfl, rfl⟩

omit [StdLib] in
/-- Sessions that only go keep the book. -/
theorem Booked.close (h : l.Booked) (hle : ∀ (k : Nat) (session : Session),
    c.sessions[k]? = some session → l.coordinator.sessions[k]? = some session) :
    Booked { l with coordinator := c } :=
  fun k session hk => h k session (hle k session hk)

omit [StdLib] in
theorem Booked.dropSession (h : l.Booked) (handle : Nat) (reason : Text) :
    Booked { l with coordinator := l.coordinator.dropSession handle reason } := by
  refine h.close fun k session hk => ?_
  rw [sessions_dropSession] at hk
  split at hk
  · cases hk
  · exact hk

omit [StdLib] in
theorem Booked.accept (h : l.Booked) (handle : Nat) :
    Booked { l with coordinator := l.coordinator.accept handle } := by
  intro k session hk id boot hh
  rcases sessions_accept hk with hk | rfl
  · exact h k session hk id boot hh
  · cases hh.registered

theorem Booked.dispatched (h : l.Booked) (hs : l.coordinator.sessions[handle]? = some session)
    (hd : Dispatches l.coordinator.config now l.coordinator.registry session frame session' r'
      granted published)
    (requested : Option Text) (delivered : Nat) :
    Booked ⟨{ l.coordinator with
        registry := r'
        requested
        sessions := l.coordinator.sessions.insert handle { session' with delivered } },
      l.granted ++ entries handle granted, l.published ++ entries handle published⟩ := by
  have hheld : ∀ id boot, session'.Holds id boot →
      ⟨handle, id, boot⟩ ∈ l.granted ++ entries handle granted := by
    intro id boot hh
    cases hd with
    | granted request applied asks call accepted =>
      rw [remember, if_pos accepted] at hh
      refine List.mem_append_right _ ?_
      simp only [entries, Option.toList_some, List.map_cons, List.map_nil, List.mem_singleton,
        Grant.mk.injEq, true_and]
      exact ⟨hh.publisher.symm, hh.boot.symm⟩
    | _ => exact List.mem_append_left _ (h handle session hs id boot ⟨hh.1, hh.2, hh.3⟩)
  intro k s hk id boot hh
  change (l.coordinator.sessions.insert handle _)[k]? = some s at hk
  rw [OrdMap.getElem?_insert_eq] at hk
  split at hk
  · next he =>
    subst he
    obtain rfl := Option.some.inj hk
    exact hheld id boot ⟨hh.1, hh.2, hh.3⟩
  · exact List.mem_append_left _ (h k s hk id boot hh)

theorem Booked.after (h : l.Booked) (action : Action) : (l.after action).Booked := by
  refine Booked.prune ?_
  cases action with
  | connect handle =>
    rw [book_of_nil rfl rfl]
    exact h.accept handle
  | close handle =>
    rw [book_of_nil rfl rfl]
    exact h.dropSession handle _
  | shutdown =>
    rw [book_of_nil rfl rfl]
    refine h.close fun k session hk => ?_
    simp [Coordinator.after, Coordinator.stop] at hk
  | frame now handle frame sent =>
    cases hs : l.coordinator.sessions[handle]? with
    | none =>
      rw [book_stranger hs]
      exact h
    | some session =>
      obtain ⟨session', r', granted, published, requested, delivered, hd, he⟩ := book_frame hs
      have hbooked := h.dispatched hs hd requested delivered
      rcases he with he | he <;> rw [he]
      · exact hbooked
      · exact hbooked.dropSession handle _

/-- In every run in which each session forgets nothing alive, every registered publisher has a
live session that registered its boot, and a session that ends leaves nothing alive. -/
theorem sessions_keep_their_boots {config : CoordinatorConfig} {image : Option DurableState}
    {actions : List Action} (hs : Coordinator.started config image = .ok c)
    (hk : Machine.Along Ledger.after (fun l : Ledger => l.coordinator.Remembers) ⟨c, [], []⟩
      actions) :
    (Ledger.run ⟨c, [], []⟩ actions).Attends ∧
      Machine.Along Ledger.after Retires ⟨c, [], []⟩ actions := by
  have hstart : Sound ⟨c, [], []⟩ ∧ Booked ⟨c, [], []⟩ := ⟨sound_started hs, booked_started hs⟩
  have hstep : ∀ (l : Ledger) (action : Action), l.Sound ∧ l.Booked →
      l.coordinator.Remembers action → (l.after action).Sound ∧ (l.after action).Booked :=
    fun l action h hk => ⟨h.1.after hk, h.2.after action⟩
  obtain ⟨hsound, hbooked⟩ := hk.invariant hstart hstep
  exact ⟨hsound.attends hbooked,
    (hk.with_invariant hstart hstep).mono fun l action h => h.1.1.retires h.2⟩

end Ledger

namespace Sample

def coordinator : Coordinator :=
  { config := {}
    registry := (Impl.fresh {}).advanceCoordinatorEpoch.resetPublisherLiveness
      "coordinator restarted; publisher liveness is not restored" }

def hello : Frame := { payload := (writeHello {} { protocolVersion := 1, agent := "agent" }).out }

/-- A request for a fresh boot of a publisher. -/
def registrationOf (id : PublisherId) : Frame :=
  { type := .registerPublisher
    payload := (writeRegisterPublisher {} { identity := { id }, adapter := "adapter" }).out }

/-- A session that registers these publishers. -/
def session (ids : List PublisherId) : List Action :=
  [.connect 1, .frame now 1 hello true] ++
    ids.map fun id => .frame now 1 (registrationOf id) true

end Sample

namespace Ledger

theorem remembers_of_type [StdLib] {c : Coordinator} {action : Action}
    (h : ∀ now handle frame sent, action = .frame now handle frame sent →
      frame.type ≠ .registerPublisher ∧ frame.type ≠ .publication) : c.Remembers action where
  asked now handle frame sent _ _ _ he _ asks := absurd asks.type (h now handle frame sent he).1
  published now handle frame sent _ _ _ he _ carries :=
    absurd carries.type (h now handle frame sent he).2

theorem sessions_keep_their_boots_one :
    letI := StdLib.reference
    (Ledger.run ⟨Sample.coordinator, [], []⟩ (Sample.session [Sample.publisher.id] ++ [.close 1])).Attends ∧
      Machine.Along Ledger.after Retires ⟨Sample.coordinator, [], []⟩
        (Sample.session [Sample.publisher.id] ++ [.close 1]) := by
  let := StdLib.reference
  refine sessions_keep_their_boots
    (show Coordinator.started {} none = .ok Sample.coordinator from rfl)
    ⟨remembers_of_type ?_, remembers_of_type ?_, ⟨?_, ?_⟩, remembers_of_type ?_, trivial⟩
  · rintro _ _ _ _ h
    cases h
  · rintro _ _ _ _ h
    cases h
    decide
  · rintro now handle frame sent session request boot he hsession asks hgrant
    obtain ⟨rfl, rfl, rfl, rfl⟩ := Action.frame.inj he
    have hdecoded : decodeRegisterPublisher {} (Sample.registrationOf Sample.publisher.id).payload =
        .ok { identity := { id := Sample.publisher.id }, adapter := "adapter" } :=
      (decodeAll_iff (round_registerPublisher {})).mpr ⟨⟨by decide, by decide⟩, by decide, by decide⟩
    obtain rfl := Except.ok.inj (asks.decoded.symm.trans hdecoded)
    generalize hl : (Ledger.after (Ledger.after ⟨Sample.coordinator, [], []⟩ (.connect 1))
      (.frame Sample.now 1 Sample.hello true)) = l at *
    have hfirst : l.coordinator.registry.grantedBoot { id := Sample.publisher.id } "adapter" =
        some .first := by
      rw [← hl]
      decide +kernel
    have hnew : l.coordinator.registry.publishers[Sample.publisher.id]? = none := by
      rw [← hl]
      decide +kernel
    have hquiet : (l.coordinator.sessions[1]?).map Session.publisherRegistered = some false := by
      rw [← hl]
      decide +kernel
    obtain rfl := Option.some.inj (hgrant.symm.trans hfirst)
    refine ⟨by decide, ?_, fun hreg => ?_⟩
    · rintro ⟨s, hs, -⟩
      simp [hnew] at hs
    · simp [hsession, hreg] at hquiet
  · rintro _ _ _ _ _ _ _ h _ carries
    obtain ⟨rfl, rfl, rfl, rfl⟩ := Action.frame.inj h
    cases carries.type
  · rintro _ _ _ _ h
    cases h

/-- A session that registers two publishers and closes leaves the first one registered. -/
theorem forgotten_publisher_stays_registered :
    letI := StdLib.reference
    ¬ ∀ (config : CoordinatorConfig) (image : Option DurableState) (c : Coordinator)
      (actions : List Action), Coordinator.started config image = .ok c →
        (Ledger.run ⟨c, [], []⟩ actions).Attends ∧
          Machine.Along Ledger.after Retires ⟨c, [], []⟩ actions := by
  let := StdLib.reference
  intro h
  obtain ⟨hattends, -⟩ := h {} none Sample.coordinator
    (Sample.session [Sample.publisher.id, Id.parse "pub.b"] ++ [.close 1]) rfl
  have hreg : ((Ledger.run ⟨Sample.coordinator, [], []⟩ (Sample.session [Sample.publisher.id,
      Id.parse "pub.b"] ++ [.close 1])).coordinator.registry.publishers[Sample.publisher.id]?).map
      (fun s => s.record.state) = some .registered := by decide +kernel
  have hgone : (Ledger.run ⟨Sample.coordinator, [], []⟩ (Sample.session [Sample.publisher.id,
      Id.parse "pub.b"] ++ [.close 1])).coordinator.sessions.isEmpty = true := by decide
  obtain ⟨s, hs, hr⟩ := Option.map_eq_some_iff.mp hreg
  obtain ⟨g, -, hlive, -⟩ := hattends _ s hs hr
  rw [Std.ExtTreeMap.isEmpty_iff.mp hgone] at hlive
  exact Std.ExtTreeMap.not_mem_empty hlive

end Ledger

end CapabilityRegistry
