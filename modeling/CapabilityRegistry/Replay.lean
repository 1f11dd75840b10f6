import CapabilityRegistry.Deployment
import CapabilityRegistry.Ledger

/-! Replays: a publication that was accepted once adds nothing when it is sent again. -/
namespace CapabilityRegistry

namespace Impl
variable [StdLib] {r r' : Impl} {id : PublisherId} {boot : PublisherBootId} {sequence : UInt64}
  {s s' : PublisherStateInternal} {op : Op} {now : Timestamp} {publication q : Publication}
  {publisher : PublisherStateInternal} {x y : Option PublisherStateInternal}

/-- The publisher no longer takes the sequence under the boot: the boot is dead, or it is the
current one and has reached the sequence. -/
inductive Spends (s : PublisherStateInternal) (boot : PublisherBootId) (sequence : UInt64) : Prop
  | dead (dead : boot ∈ s.fencedBoots)
  | passed (current : s.record.identity.boot = boot) (reached : sequence ≤ mark s boot)

/-- The registry no longer takes the sequence of the publisher under the boot. -/
def Spent (r : Impl) (id : PublisherId) (boot : PublisherBootId) (sequence : UInt64) : Prop :=
  ∃ s, r.publishers[id]? = some s ∧ Spends s boot sequence

theorem spends_move (h : LedgerMove r id op x y) (hv : boot.valid = true)
    (hx : ∃ s, x = some s ∧ Spends s boot sequence) :
    ∃ s, y = some s ∧ Spends s boot sequence := by
  obtain ⟨s, rfl, hs⟩ := hx
  cases h with
  | kept op s s' keeps =>
    refine ⟨s', rfl, ?_⟩
    cases hs with
    | dead dead => exact .dead (keeps.fenced _ dead)
    | passed current reached => exact .passed (keeps.boot.trans current) (keeps.mark boot ▸ reached)
  | fresh op now adapter s =>
    refine ⟨_, rfl, .dead ?_⟩
    cases hs with
    | dead dead => exact mem_insert_if dead
    | passed current reached =>
      simp only [freshBoot, current, hv, if_true]
      exact Std.ExtTreeSet.mem_insert_self
  | accepted now publication q s addressed authority verdict target accepted =>
    refine ⟨_, rfl, ?_⟩
    cases hs with
    | dead dead => exact .dead dead
    | passed current reached =>
      refine .passed current ?_
      have hq : q.publisher.boot = boot := authority.boot.symm.trans current
      rw [mark_noteAccepted, if_pos hq]
      exact UInt64.le_of_lt (UInt64.lt_of_le_of_lt reached (hq ▸ mark_lt_of_verdict verdict))

/-- No call but an import frees a sequence. -/
theorem Spent.after (h : r.Spent id boot sequence) (hv : boot.valid = true)
    (hop : ¬ r.Restores op) : (r.after op).Spent id boot sequence :=
  spends_move (ledgerMove r op hop id) hv h

/-- Whoever accepted a publication has spent its sequence. -/
theorem spent_of_accepted (hk : publication.kind.sequenced = true)
    (ha : (r.applyLocked now publication).1.accepted = true) :
    publication.publisher.boot.valid = true ∧
      (r.applyLocked now publication).2.Spent publication.publisher.id publication.publisher.boot
        publication.sequence := by
  have hi := ingested r now publication
  have key : ∀ q publisher, Addressed r publication q publisher → r.Authorized publisher q →
      publication.publisher.boot.valid = true ∧
        ∀ (publisher' : PublisherStateInternal) (r' : Impl), SameStanding publisher publisher' →
        q.sequence ≤ mark publisher' q.publisher.boot →
        r'.publishers = (r.setPublisher q.publisher.id publisher').publishers →
        r'.Spent publication.publisher.id publication.publisher.boot publication.sequence := by
    intro q publisher haddr hauth
    have hp := prepare_eq_ok haddr.prepared
    have hv := hp.valid
    simp only [validatePublication, status_bind_eq_ok, require_eq_ok] at hv
    refine ⟨hp.publisher ▸ hv.2.1, fun publisher' r' hs hm hr' => ?_⟩
    rw [← hp.publisher, ← hp.sequence]
    refine ⟨publisher', ?_, .passed ?_ hm⟩
    · rw [hr', setPublisher_publishers, if_pos rfl]
    · rw [hs.identity]
      exact hauth.boot
  generalize r.applyLocked now publication = out at hi ha
  cases hi with
  | shuttingDown result running refused => simp [refused] at ha
  | unprepared result running unprepared => simp [prepare_eq_error unprepared] at ha
  | schema q running prepared kind =>
    simp [← (prepare_eq_ok prepared).kind, kind, PublicationKind.sequenced] at hk
  | registration q running prepared kind =>
    simp [← (prepare_eq_ok prepared).kind, kind, PublicationKind.sequenced] at hk
  | unknownPublisher q result running prepared kind unregistered refused => simp [refused] at ha
  | unauthorized q publisher result addressed refusal =>
    simp [authorityRefusal_eq_some refusal] at ha
  | unsequenced q publisher result addressed authority verdict refused => simp [refused] at ha
  | repeated q publisher result addressed authority verdict accepted =>
    obtain ⟨hv, hspent⟩ := key q publisher addressed authority
    refine ⟨hv, hspent _ _ (sameStanding_setWatermark publisher (openWatermark publisher q.publisher))
      ?_ rfl⟩
    rw [mark_setWatermark_open]
    exact UInt64.le_of_eq (eq_mark_of_verdict verdict accepted).1
  | handled q publisher addressed authority verdict =>
    obtain ⟨hv, hspent⟩ := key q publisher addressed authority
    rw [settle_accepted] at ha
    refine ⟨hv, hspent _ _ (sameStanding_noteAccepted publisher (openWatermark publisher q.publisher)
      q) ?_ ?_⟩
    · rw [mark_noteAccepted, if_pos rfl]
      exact UInt64.le_refl _
    · have hp := (Impl.handled r q).sameAuthority.publishers
      unfold Impl.settle
      rw [if_pos ha]
      dsimp only
      split <;> split <;> simp only [touch, countAccepted, countIdempotent, setPublisher, hp]

/-- A spent sequence is not handled again. -/
theorem applyLocked_knowledge_of_spent
    (h : r.Spent publication.publisher.id publication.publisher.boot publication.sequence)
    (hk : publication.kind.sequenced = true) (now : Timestamp) :
    (r.applyLocked now publication).2.knowledge = r.knowledge := by
  have hi := ingested r now publication
  generalize r.applyLocked now publication = out at hi
  cases hi with
  | schema q running prepared kind =>
    simp [← (prepare_eq_ok prepared).kind, kind, PublicationKind.sequenced] at hk
  | registration q running prepared kind =>
    simp [← (prepare_eq_ok prepared).kind, kind, PublicationKind.sequenced] at hk
  | repeated q publisher result addressed authority verdict accepted =>
    refine knowledge_setPublisher addressed.registered (knowledge_setWatermark ?_ ?_)
    · rw [openWatermark_boot, openWatermark_maxSequence]
    · rw [openWatermark_boot, openWatermark_maxEvidenceGeneration]
  | unsequenced q publisher result addressed authority verdict refused =>
    exact knowledge_setPublisher addressed.registered (knowledge_noteRejected _ _)
  | handled q publisher addressed authority verdict =>
    have hp := prepare_eq_ok addressed.prepared
    obtain ⟨s, hs, hsp⟩ := h
    rw [← hp.publisher, ← hp.sequence] at hsp
    rw [← hp.publisher, addressed.registered] at hs
    obtain rfl := Option.some.inj hs
    cases hsp with
    | dead dead => exact (authority.liveBoot dead).elim
    | passed current reached => exact (verdict_of_le_mark reached verdict).elim
  | _ => rfl

end Impl

namespace Deployment
variable [StdLib] {r : Impl} {d : Deployment} {event : Event} {events : List Event}
  {id : PublisherId} {boot : PublisherBootId} {sequence : UInt64} {now : Timestamp}
  {publication : Publication}

/-- The sequence is spent in the running registry, and its boot fenced in every saved state. -/
structure Settled (id : PublisherId) (boot : PublisherBootId) (sequence : UInt64)
    (d : Deployment) : Prop where
  live : d.live.Spent id boot sequence
  saved : ∀ image ∈ d.saved, Impl.Buries image id boot

theorem buries_of_spent (h : r.Spent id boot sequence) (hv : boot.valid = true) :
    Impl.Buries (r.exportDurableState now) id boot := by
  obtain ⟨s, hs, hsp⟩ := h
  cases hsp with
  | dead dead => exact Impl.buries_export ⟨s, hs, dead⟩ hv
  | passed current reached =>
    refine .inr ⟨?_, ?_, hv⟩
    · rw [Impl.firstWatermark_export hs]
      rfl
    · rw [Impl.restoredBoot_export hs, current]

omit [StdLib] in
theorem spent_of_dead (h : r.Dead id boot) : r.Spent id boot sequence := by
  obtain ⟨s, hs, hb⟩ := h
  exact ⟨s, hs, .dead hb⟩

theorem settled_after (h : Settled id boot sequence d) (hv : boot.valid = true) (ho : Own d event) :
    Settled id boot sequence (d.after event) := by
  cases event with
  | call op =>
    refine ⟨?_, h.saved⟩
    by_cases hop : d.live.Restores op
    · obtain ⟨durable, report, r', rfl, hi⟩ := hop
      have hr' : d.live.after (.importDurableState durable) = r' := congrArg Prod.snd hi
      change (d.live.after (.importDurableState durable)).Spent id boot sequence
      rw [hr']
      exact spent_of_dead (buried_restored (h.saved _ (ho durable report r' rfl hi)) hi)
    · exact h.live.after hv hop
  | save now =>
    refine ⟨h.live, fun image hm => ?_⟩
    rcases List.mem_append.mp hm with hm | hm
    · exact h.saved image hm
    · rw [List.mem_singleton.mp hm]
      exact buries_of_spent h.live hv
  | restart index =>
    unfold after step
    dsimp only
    split
    · exact h
    · next image hi =>
      split
      · exact h
      · next report live hl =>
        exact ⟨spent_of_dead (buried_restored (h.saved image (List.mem_of_getElem? hi)) hl), h.saved⟩

/-- Once a sequenced publication was accepted, sending it again adds nothing to what the registry
knows, through every continuation and every restart from a state saved since. -/
theorem replay_changes_nothing (hk : publication.kind.sequenced = true)
    (ha : (r.applyLocked now publication).1.accepted = true)
    (ho : Machine.Along after Own { live := (r.applyLocked now publication).2 } events)
    (later : Timestamp) :
    ((run { live := (r.applyLocked now publication).2 } events).live.applyLocked later
        publication).2.knowledge =
      (run { live := (r.applyLocked now publication).2 } events).live.knowledge := by
  obtain ⟨hv, hs⟩ := Impl.spent_of_accepted hk ha
  have hsettled : Settled publication.publisher.id publication.publisher.boot publication.sequence
      (run { live := (r.applyLocked now publication).2 } events) :=
    ho.invariant ⟨hs, fun image hm => by cases hm⟩ fun d event h h' => settled_after h hv h'
  exact Impl.applyLocked_knowledge_of_spent hsettled.live hk later

omit [StdLib] in
/-- The registration of a device, sent again after a restart. -/
theorem replay_changes_nothing_device :
    letI := StdLib.reference
    let d := run { live := (((Impl.fresh {}).after Sample.registration).applyLocked Sample.now
      (Sample.deviceRegistration 1 Sample.device)).2 } [.save Sample.now, .restart 0]
    (d.live.applyLocked Sample.now (Sample.deviceRegistration 1 Sample.device)).2.knowledge =
      d.live.knowledge := by
  let := StdLib.reference
  refine @replay_changes_nothing _ _ [.save Sample.now, .restart 0] _
    (Sample.deviceRegistration 1 Sample.device) rfl (by decide) ⟨?_, ?_, trivial⟩ Sample.now
  · intro state report r' h
    cases h
  · intro state report r' h
    cases h

end Deployment

end CapabilityRegistry
