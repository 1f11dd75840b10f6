import CapabilityRegistry.Replay

/-! Duplicates: what the registry answers to a sequence it has already accepted. -/
namespace CapabilityRegistry

/-- What a publication leaves in the registry, as it was sent: the unused payloads and the fields
that ingestion overwrites or ignores are blanked. -/
def storedContent (q : Publication) : Publication :=
  let base : Publication := { kind := q.kind, evidenceGeneration := q.evidenceGeneration }
  match q.kind with
  | .registerDevice | .publishDeviceGeneration =>
    { base with
      device := { q.device with
        software := { q.device.software with
          firmwareGeneration := default
          driverGeneration := default
          runtimeGeneration := default }
        observationSequence := 0
        observedAtUtc := [] } }
  | .publishCapability | .withdrawCapability =>
    { base with
      capability := { q.capability with
        firmwareGeneration := default
        driverGeneration := default
        runtimeGeneration := default
        platformGeneration := default
        driverId := default
        firmwareId := default
        runtimeId := default } }
  | .publishQuirk => { base with quirk := q.quirk }
  | .withdrawQuirk => { base with quirk := { id := q.quirk.id, source := q.quirk.source } }
  | .publishCompatibility => { base with compatibility := q.compatibility }
  | .withdrawCompatibility =>
    { base with compatibility := { id := q.compatibility.id, source := q.compatibility.source } }
  | _ => base

/-- Both publications carry the same sequence of the same publisher boot. -/
structure SameSequence (e q : Publication) : Prop where
  id : e.publisher.id = q.publisher.id
  boot : e.publisher.boot = q.publisher.boot
  sequence : e.sequence = q.sequence

theorem SameSequence.symm {e q : Publication} (h : SameSequence e q) : SameSequence q e :=
  ⟨h.id.symm, h.boot.symm, h.sequence.symm⟩

namespace Impl

section Windows
variable {s s' : PublisherStateInternal} {q : Publication} {sequence fingerprint : UInt64}

theorem mem_of_trimFingerprints {rounds : Nat} {fingerprints : Std.ExtTreeMap UInt64 UInt64}
    (h : (trimFingerprints rounds fingerprints)[sequence]? = some fingerprint) :
    fingerprints[sequence]? = some fingerprint := by
  induction rounds generalizing fingerprints with
  | zero => exact h
  | succ rounds ih =>
    unfold trimFingerprints at h
    split at h
    · exact h
    · split at h
      · exact h
      · have he := ih h
        rw [Std.ExtTreeMap.getElem?_erase] at he
        split at he
        · cases he
        · exact he

theorem fingerprint_noteAccepted [StdLib] {watermark : PublisherWatermark}
    (h : (noteAccepted s watermark q).sequenceFingerprints[sequence]? = some fingerprint) :
    if q.sequence = sequence then fingerprint = StdLib.hash (fingerprintPublication q)
    else s.sequenceFingerprints[sequence]? = some fingerprint := by
  have hm := mem_of_trimFingerprints h
  rw [OrdMap.getElem?_insert_eq] at hm
  split
  · next he =>
    rw [if_pos he] at hm
    exact (Option.some.inj hm).symm
  · next he =>
    rw [if_neg he] at hm
    exact hm

end Windows

section Staging
variable {all watermarks fences : List PublisherWatermark} {staged staged' : Publishers}
  {id : PublisherId} {s : PublisherStateInternal} {w : PublisherWatermark}

/-- A restored publisher remembers no fingerprint and only watermarks that the file lists. -/
structure Blank (all : List PublisherWatermark) (id : PublisherId) (s : PublisherStateInternal) :
    Prop where
  fingerprints : s.sequenceFingerprints = ∅
  listed : ∀ (boot : PublisherBootId) (w : PublisherWatermark), s.watermarks[boot]? = some w →
    w ∈ all ∧ w.publisher = id ∧ w.boot = boot

def AllBlank (all : List PublisherWatermark) (staged : Publishers) : Prop :=
  ∀ (id : PublisherId) (s : PublisherStateInternal), staged[id]? = some s → Blank all id s

theorem blank_default (all : List PublisherWatermark) (id : PublisherId) : Blank all id {} := by
  refine ⟨rfl, fun boot w hw => ?_⟩
  simp at hw

theorem blank_getD (h : AllBlank all staged) (id : PublisherId) :
    Blank all id ((staged[id]?).getD {}) := by
  cases hs : staged[id]? with
  | none => exact blank_default all id
  | some s => exact h id s hs

theorem allBlank_insert (h : AllBlank all staged) (hs : Blank all id s) :
    AllBlank all (staged.insert id s) := by
  intro id' s' hs'
  rw [OrdMap.getElem?_insert_eq] at hs'
  split at hs'
  · next he =>
    obtain rfl := Option.some.inj hs'
    exact he ▸ hs
  · exact h id' s' hs'

theorem allBlank_stageWatermark (h : AllBlank all staged) (hw : w ∈ all)
    (hs : stageWatermark staged w = .ok staged') : AllBlank all staged' := by
  simp only [stageWatermark, status_bind_eq_ok, require_eq_ok, pure, Except.pure,
    Except.ok.injEq] at hs
  obtain ⟨-, -, rfl⟩ := hs
  refine allBlank_insert h ?_
  have hb := blank_getD h w.publisher
  generalize (staged[w.publisher]?).getD {} = s at hb
  have hfields : (publisherOfWatermark s w).sequenceFingerprints = s.sequenceFingerprints ∧
      (publisherOfWatermark s w).watermarks = s.watermarks := by
    unfold publisherOfWatermark
    split <;> exact ⟨rfl, rfl⟩
  refine ⟨hfields.1.trans hb.fingerprints, fun boot w' hw' => ?_⟩
  dsimp only at hw'
  rw [hfields.2, OrdMap.getElem?_insertIfNew_eq] at hw'
  split at hw'
  · next he =>
    subst he
    cases hold : s.watermarks[w.boot]? with
    | none =>
      rw [hold] at hw'
      obtain rfl := Option.some.inj hw'
      exact ⟨hw, rfl, rfl⟩
    | some known =>
      rw [hold] at hw'
      obtain rfl := Option.some.inj hw'
      exact hb.listed _ _ hold
  · exact hb.listed _ _ hw'

theorem allBlank_stageFenced (h : AllBlank all staged) (hs : stageFenced staged w = .ok staged') :
    AllBlank all staged' := by
  obtain ⟨-, rfl⟩ := stageFenced_eq_ok.mp hs
  refine allBlank_insert h ?_
  have hb := blank_getD h w.publisher
  generalize (staged[w.publisher]?).getD {} = s at hb
  have hfields : (fencedPublisher s w).sequenceFingerprints = s.sequenceFingerprints ∧
      (fencedPublisher s w).watermarks = s.watermarks := by
    unfold fencedPublisher
    dsimp only
    split <;> exact ⟨rfl, rfl⟩
  exact ⟨hfields.1.trans hb.fingerprints, fun boot w' hw' => hb.listed boot w' (hfields.2 ▸ hw')⟩

theorem restored_blank {r : Impl} {state : DurableState} {staged : Staged}
    (h : Imports r state staged) (hs : (r.commit state staged).publishers[id]? = some s) :
    Blank state.publisherWatermarks id s := by
  obtain ⟨watermarked, hw, hf, -⟩ := stagePublishers_eq_ok h.publishers
  have hempty : AllBlank state.publisherWatermarks ∅ := fun id s hs => by simp at hs
  have hmarked : AllBlank state.publisherWatermarks watermarked :=
    foldlM_invariant hempty (fun _ w hw _ hb => allBlank_stageWatermark hb hw) hw
  have hall : AllBlank state.publisherWatermarks staged.publishers :=
    foldlM_invariant hmarked (fun _ _ _ _ => allBlank_stageFenced) hf
  have hcommit : (r.commit state staged).publishers[id]? =
      (staged.publishers[id]?).map unrestoredPublisher := Std.ExtTreeMap.getElem?_map
  rw [hcommit] at hs
  obtain ⟨t, ht, rfl⟩ := Option.map_eq_some_iff.mp hs
  exact ⟨(hall id t ht).fingerprints, (hall id t ht).listed⟩

end Staging

/-- A registry with the publications it has accepted, as it ingested them. -/
structure Audited where
  live : Impl
  accepted : List Publication := []

namespace Audited
variable [StdLib] {r : Impl} {a : Audited} {op : Op} {ops : List Op} {now : Timestamp} {p q e : Publication}
  {id : PublisherId} {s s' : PublisherStateInternal} {publisher : PublisherStateInternal}

/-- The publication a call adds to the accepted ones. -/
def admitted (r : Impl) : Op → List Publication
  | .apply now publication =>
    match r.prepare publication with
    | .ok q => if q.kind.sequenced && (r.applyLocked now publication).1.accepted then [q] else []
    | .error _ => []
  | _ => []

def after (a : Audited) (op : Op) : Audited :=
  { live := a.live.after op, accepted := admitted a.live op ++ a.accepted }

/-- The publication is answered as accepted by the check of its sequence. -/
def AnsweredAsDuplicate (r : Impl) (p q : Publication) : Prop :=
  ∃ publisher result, Addressed r p q publisher ∧ r.Authorized publisher q ∧
    sequenceVerdict publisher (openWatermark publisher q.publisher) q = some result ∧
    result.accepted = true

/-- A duplicate repeats an accepted publication; another content under its sequence is refused. -/
structure TrueDuplicates (a : Audited) (now : Timestamp) (p q : Publication) : Prop where
  duplicate : AnsweredAsDuplicate a.live p q →
    ∃ e ∈ a.accepted, SameSequence e q ∧ storedContent e = storedContent q
  conflict : ∀ e ∈ a.accepted, SameSequence e q → storedContent e ≠ storedContent q →
    (a.live.applyLocked now p).1.accepted = false

/-- The fingerprint hash tells publications of one sequence apart when it is given different fields. -/
def Collisionless (a : Audited) (q : Publication) : Prop :=
  ∀ e ∈ a.accepted, SameSequence e q →
    StdLib.hash (fingerprintPublication e) = StdLib.hash (fingerprintPublication q) →
    fingerprintFeed e = fingerprintFeed q

/-- The publication meets the duplicate check as it is meant: the window still holds the
fingerprint of the boot's mark, and what the fingerprint leaves out does not differ. -/
structure Distinguished (a : Audited) (p q : Publication) : Prop where
  window : ∀ publisher, Addressed a.live p q publisher → a.live.Authorized publisher q →
    q.sequence = mark publisher q.publisher.boot →
    (publisher.sequenceFingerprints[q.sequence]?).isSome = true
  covered : ∀ e ∈ a.accepted, SameSequence e q → fingerprintFeed e = fingerprintFeed q →
    storedContent e = storedContent q
  collisionless : Collisionless a q

/-- An accepted import fences the boots that accepted something and those it restores a mark of. -/
structure Remembers (a : Audited) (state : DurableState) : Prop where
  accepted : ∀ e ∈ a.accepted, Impl.Buries state e.publisher.id e.publisher.boot
  marked : ∀ w ∈ state.publisherWatermarks, w.boot.valid = true → w.maxSequence ≠ 0 →
    Impl.Buries state w.publisher w.boot

/-- The call is one whose sequence the registry can judge. -/
structure Judged (a : Audited) (op : Op) : Prop where
  publications : ∀ now p q, op = .apply now p → a.live.prepare p = .ok q →
    q.kind.sequenced = true → Distinguished a p q
  imports : ∀ state, op = .importDurableState state → a.live.Restores op → Remembers a state

/-- The ledger of a publisher tells the truth about what was accepted: a mark of a live boot is of
the current one, and the fingerprint under it is that of the accepted publication. -/
structure Ledgered (accepted : List Publication) (id : PublisherId) (s : PublisherStateInternal) :
    Prop where
  zero : s.sequenceFingerprints[(0 : UInt64)]? = none
  marks : ∀ boot : PublisherBootId, boot.valid = true → boot ∉ s.fencedBoots → mark s boot ≠ 0 →
    boot = s.record.identity.boot ∧
      ∀ fingerprint, s.sequenceFingerprints[mark s boot]? = some fingerprint →
        ∃ e ∈ accepted, e.publisher.id = id ∧ e.publisher.boot = boot ∧
          e.sequence = mark s boot ∧ fingerprint = StdLib.hash (fingerprintPublication e)

theorem Ledgered.mono {accepted accepted' : List Publication} (h : Ledgered accepted id s)
    (hsub : ∀ e ∈ accepted, e ∈ accepted') : Ledgered accepted' id s := by
  refine ⟨h.zero, fun boot hv hb hm => ?_⟩
  obtain ⟨hc, hf⟩ := h.marks boot hv hb hm
  refine ⟨hc, fun fingerprint hfp => ?_⟩
  obtain ⟨e, he, hrest⟩ := hf fingerprint hfp
  exact ⟨e, hsub e he, hrest⟩

theorem ledgered_keeps {accepted : List Publication} (h : Ledgered accepted id s)
    (hk : Keeps s s') : Ledgered accepted id s' := by
  refine ⟨hk.fingerprints ▸ h.zero, fun boot hv hb hm => ?_⟩
  have hm' := hk.mark boot
  obtain ⟨hc, hf⟩ := h.marks boot hv (fun hd => hb (hk.fenced boot hd)) (hm' ▸ hm)
  rw [hk.boot, hm', hk.fingerprints]
  exact ⟨hc, hf⟩

theorem ledgered_freshBoot {accepted : List Publication} (h : Ledgered accepted id s) (r : Impl)
    (now : Timestamp) (adapter : Text) : Ledgered accepted id (r.freshBoot now adapter s) := by
  refine ⟨h.zero, fun boot hv hb hm => ?_⟩
  obtain ⟨hc, -⟩ := h.marks boot hv (fun hd => hb (mem_insert_if hd)) hm
  subst hc
  refine (hb ?_).elim
  simp only [freshBoot, hv, if_true]
  exact Std.ExtTreeSet.mem_insert_self

theorem ledgered_newPublisher {accepted : List Publication} (r : Impl) (now : Timestamp)
    (adapter : Text) : Ledgered accepted id (r.newPublisher now id adapter) := by
  have hmark : ∀ boot, mark (r.newPublisher now id adapter) boot = 0 := by
    intro boot
    simp [mark, newPublisher]
  refine ⟨by simp [newPublisher], fun boot _ _ hm => ?_⟩
  exact (hm (hmark boot)).elim

theorem ledgered_noteAccepted {accepted : List Publication} (h : Ledgered accepted id s)
    (authority : r.Authorized s q)
    (verdict : sequenceVerdict s (openWatermark s q.publisher) q = none)
    (target : q.publisher.id = id) :
    Ledgered (q :: accepted) id (noteAccepted s (openWatermark s q.publisher) q) := by
  have hpos : q.sequence ≠ 0 := fun he => by
    have hlt := mark_lt_of_verdict verdict
    rw [he] at hlt
    exact UInt64.not_lt.mpr UInt64.zero_le hlt
  refine ⟨?_, fun boot hv hb hm => ?_⟩
  · cases hf : (noteAccepted s (openWatermark s q.publisher) q).sequenceFingerprints[(0 : UInt64)]? with
    | none => rfl
    | some fingerprint =>
      have hold := fingerprint_noteAccepted hf
      rw [if_neg hpos, h.zero] at hold
      cases hold
  · have hb' : boot ∉ s.fencedBoots := hb
    rw [mark_noteAccepted] at hm ⊢
    by_cases hq : q.publisher.boot = boot
    · rw [if_pos hq]
      refine ⟨hq.symm.trans authority.boot.symm, fun fingerprint hf => ?_⟩
      have hfp := fingerprint_noteAccepted hf
      rw [if_pos rfl] at hfp
      exact ⟨q, List.mem_cons_self, target, hq, rfl, hfp⟩
    · rw [if_neg hq] at hm
      obtain ⟨hc, -⟩ := h.marks boot hv hb' hm
      exact (hq (authority.boot.symm.trans hc.symm)).elim

/-- The accepted publications are accounted for: their sequences are spent, the ledgers know them,
and those of one sequence agree. -/
structure Faithful (a : Audited) : Prop where
  spent : ∀ e ∈ a.accepted, e.publisher.boot.valid = true ∧
    a.live.Spent e.publisher.id e.publisher.boot e.sequence
  ledgered : ∀ (id : PublisherId) (s : PublisherStateInternal), a.live.publishers[id]? = some s →
    Ledgered a.accepted id s
  single : ∀ e ∈ a.accepted, ∀ e' ∈ a.accepted, SameSequence e e' →
    storedContent e = storedContent e'

theorem applyLocked_of_verdict (haddr : Addressed r p q publisher)
    (hauth : r.Authorized publisher q)
    (verdict : sequenceVerdict publisher (openWatermark publisher q.publisher) q = none)
    (now : Timestamp) : r.applyLocked now p =
      (r.applyPayload q).2.settle publisher (openWatermark publisher q.publisher) q
        (r.applyPayload q).1 := by
  have hk := haddr.kind
  unfold applyLocked
  simp only [haddr.running, haddr.prepared, Bool.false_eq_true, if_false]
  split
  · next hs => simp [hs, PublicationKind.sequenced] at hk
  · next hr => simp [hr, PublicationKind.sequenced] at hk
  · simp only [haddr.registered, applySequenced, authorityRefusal_eq_none_iff.mpr hauth, verdict]

theorem mem_admitted (haddr : Addressed r p q publisher)
    (ha : (r.applyLocked now p).1.accepted = true) : admitted r (.apply now p) = [q] := by
  simp [admitted, haddr.prepared, haddr.kind, ha]

theorem admitted_eq (h : e ∈ admitted r op) : ∃ now p, op = .apply now p ∧
    r.prepare p = .ok e ∧ e.kind.sequenced = true ∧ (r.applyLocked now p).1.accepted = true := by
  cases op with
  | apply now p =>
    simp only [admitted] at h
    split at h
    · next q hp =>
      split at h
      · next hc =>
        obtain rfl := List.mem_singleton.mp h
        simp only [Bool.and_eq_true] at hc
        exact ⟨now, p, rfl, hp, hc⟩
      · cases h
    · cases h
  | _ => cases h

/-- Of an accepted publication either the duplicate check or a handler is the judge. -/
theorem duplicate_or_new (hp : r.prepare p = .ok q) (hk : q.kind.sequenced = true)
    (ha : (r.applyLocked now p).1.accepted = true) :
    AnsweredAsDuplicate r p q ∨ ∃ publisher, Addressed r p q publisher ∧ r.Authorized publisher q ∧
      sequenceVerdict publisher (openWatermark publisher q.publisher) q = none := by
  have hi := ingested r now p
  generalize r.applyLocked now p = out at hi ha
  cases hi with
  | shuttingDown result running refused => simp [refused] at ha
  | unprepared result running unprepared => simp [hp] at unprepared
  | schema q' running prepared kind =>
    obtain rfl := Except.ok.inj (hp.symm.trans prepared)
    simp [kind, PublicationKind.sequenced] at hk
  | registration q' running prepared kind =>
    obtain rfl := Except.ok.inj (hp.symm.trans prepared)
    simp [kind, PublicationKind.sequenced] at hk
  | unknownPublisher q' result running prepared kind unregistered refused => simp [refused] at ha
  | unauthorized q' publisher result addressed refusal =>
    simp [authorityRefusal_eq_some refusal] at ha
  | unsequenced q' publisher result addressed authority verdict refused => simp [refused] at ha
  | repeated q' publisher result addressed authority verdict accepted =>
    obtain rfl := Except.ok.inj (hp.symm.trans addressed.prepared)
    exact .inl ⟨publisher, result, addressed, authority, verdict, accepted⟩
  | handled q' publisher addressed authority verdict =>
    obtain rfl := Except.ok.inj (hp.symm.trans addressed.prepared)
    exact .inr ⟨publisher, addressed, authority, verdict⟩

/-- A distinguished publication that is answered as a duplicate repeats an accepted one. -/
theorem Faithful.duplicate (h : Faithful a) (hd : Distinguished a p q)
    (hans : AnsweredAsDuplicate a.live p q) :
    ∃ e ∈ a.accepted, SameSequence e q ∧ storedContent e = storedContent q := by
  obtain ⟨publisher, result, haddr, hauth, verdict, haccepted⟩ := hans
  obtain ⟨hmark, hfp⟩ := eq_mark_of_verdict verdict haccepted
  obtain ⟨fingerprint, hf⟩ := Option.isSome_iff_exists.mp (hd.window publisher haddr hauth hmark)
  have hledger := h.ledgered _ publisher haddr.registered
  have hne : mark publisher q.publisher.boot ≠ 0 := by
    intro he
    rw [hmark, he, hledger.zero] at hf
    cases hf
  have hvalid : q.publisher.boot.valid = true := by
    have hv := (prepare_eq_ok haddr.prepared).valid
    simp only [validatePublication, status_bind_eq_ok, require_eq_ok] at hv
    exact hv.2.1
  obtain ⟨-, hknown⟩ := hledger.marks _ hvalid hauth.liveBoot hne
  obtain ⟨e, he, hid, hboot, hseq, hhash⟩ := hknown fingerprint (hmark ▸ hf)
  have hsame : SameSequence e q := ⟨hid, hboot, hseq.trans hmark.symm⟩
  refine ⟨e, he, hsame, hd.covered e he hsame (hd.collisionless e he hsame ?_)⟩
  exact hhash.symm.trans (hfp fingerprint hf)

/-- A sequence that something was accepted under is not handled as a new one. -/
theorem Faithful.not_new (h : Faithful a) (he : e ∈ a.accepted) (hs : SameSequence e q)
    (haddr : Addressed a.live p q publisher) (hauth : a.live.Authorized publisher q) :
    sequenceVerdict publisher (openWatermark publisher q.publisher) q ≠ none := by
  obtain ⟨s, hreg, hsp⟩ := (h.spent e he).2
  rw [hs.id, haddr.registered] at hreg
  obtain rfl := Option.some.inj hreg
  rw [hs.boot, hs.sequence] at hsp
  cases hsp with
  | dead dead => exact (hauth.liveBoot dead).elim
  | passed current reached => exact verdict_of_le_mark reached

theorem Faithful.trueDuplicates (h : Faithful a) (hd : Distinguished a p q)
    (hp : a.live.prepare p = .ok q) (hk : q.kind.sequenced = true) (now : Timestamp) :
    TrueDuplicates a now p q := by
  refine ⟨h.duplicate hd, fun e he hs hne => ?_⟩
  by_contra ha
  have ha : (a.live.applyLocked now p).1.accepted = true := by simpa using ha
  rcases duplicate_or_new hp hk ha with hans | ⟨publisher, haddr, hauth, verdict⟩
  · obtain ⟨e', he', hs', hc⟩ := h.duplicate hd hans
    refine hne ((h.single e he e' he' ⟨?_, ?_, ?_⟩).trans hc)
    · exact hs.id.trans hs'.id.symm
    · exact hs.boot.trans hs'.boot.symm
    · exact hs.sequence.trans hs'.sequence.symm
  · exact h.not_new he hs haddr hauth verdict

/-- What is accepted under a taken sequence agrees with what was accepted there before. -/
theorem Faithful.agrees (h : Faithful a) (hd : Distinguished a p q)
    (hp : a.live.prepare p = .ok q) (hk : q.kind.sequenced = true)
    (ha : (a.live.applyLocked now p).1.accepted = true) (he : e ∈ a.accepted)
    (hs : SameSequence e q) : storedContent e = storedContent q := by
  by_contra hne
  have hr := (h.trueDuplicates hd hp hk now).conflict e he hs hne
  simp [hr] at ha

theorem Faithful.single_after (h : Faithful a) (hj : Judged a op) :
    ∀ e ∈ (a.after op).accepted, ∀ e' ∈ (a.after op).accepted, SameSequence e e' →
      storedContent e = storedContent e' := by
  have hnew : ∀ e ∈ admitted a.live op, ∀ e' ∈ a.accepted, SameSequence e' e →
      storedContent e' = storedContent e := by
    intro e he e' he' hs
    obtain ⟨now, p, rfl, hp, hk, ha⟩ := admitted_eq he
    exact h.agrees (hj.publications now p e rfl hp hk) hp hk ha he' hs
  intro e he e' he' hs
  rcases List.mem_append.mp he with hn | ho <;> rcases List.mem_append.mp he' with hn' | ho'
  · obtain ⟨now, p, rfl, hp, -, -⟩ := admitted_eq hn
    obtain ⟨now', p', hop, hp', -, -⟩ := admitted_eq hn'
    obtain ⟨rfl, rfl⟩ := Op.apply.inj hop
    obtain rfl := Except.ok.inj (hp.symm.trans hp')
    rfl
  · exact (hnew e hn e' ho' hs.symm).symm
  · exact hnew e' hn' e ho hs
  · exact h.single e ho e' ho' hs

theorem ledgered_move {accepted : List Publication} {x y : Option PublisherStateInternal}
    (h : LedgerMove r id op x y) (hr : ∀ now p q publisher, op = .apply now p →
      Addressed r p q publisher → r.Authorized publisher q →
      sequenceVerdict publisher (openWatermark publisher q.publisher) q = none →
      (r.applyPayload q).1.accepted = true → q ∈ admitted r op)
    (hx : ∀ s, x = some s → Ledgered accepted id s) :
    ∀ s, y = some s → Ledgered (admitted r op ++ accepted) id s := by
  have hsub : ∀ e ∈ accepted, e ∈ admitted r op ++ accepted :=
    fun e he => List.mem_append_right _ he
  intro t ht
  cases h with
  | absent => cases ht
  | kept op s s' keeps =>
    obtain rfl := Option.some.inj ht
    exact ledgered_keeps ((hx s rfl).mono hsub) keeps
  | first op now adapter =>
    obtain rfl := Option.some.inj ht
    exact ledgered_newPublisher r now adapter
  | fresh op now adapter s =>
    obtain rfl := Option.some.inj ht
    exact ledgered_freshBoot ((hx s rfl).mono hsub) r now adapter
  | accepted now publication q s addressed authority verdict target accepted =>
    obtain rfl := Option.some.inj ht
    have hq := hr now publication q s rfl addressed authority verdict accepted
    refine (ledgered_noteAccepted (hx s rfl) authority verdict target).mono fun e he => ?_
    rcases List.mem_cons.mp he with rfl | he
    · exact List.mem_append_left _ hq
    · exact hsub e he

theorem ledgered_restored {accepted : List Publication} {state : DurableState} {staged : Staged}
    (h : Imports r state staged) (hr : Remembers a state)
    (hs : (r.commit state staged).publishers[id]? = some s) : Ledgered accepted id s := by
  have hblank := restored_blank h hs
  refine ⟨by simp [hblank.fingerprints], fun boot hv hb hm => ?_⟩
  cases hw : s.watermarks[boot]? with
  | none => simp [mark, hw] at hm
  | some w =>
    obtain ⟨hlisted, hid, hboot⟩ := hblank.listed boot w hw
    have hbury := hr.marked w hlisted (hboot ▸ hv) (by simpa [mark, hw] using hm)
    rw [hid, hboot] at hbury
    obtain ⟨t, ht, hdead⟩ := dead_of_buries h hbury
    obtain rfl := Option.some.inj (hs.symm.trans ht)
    exact (hb hdead).elim

theorem Faithful.after (h : Faithful a) (hj : Judged a op) : Faithful (a.after op) := by
  by_cases hop : a.live.Restores op
  · obtain ⟨state, report, r', rfl, hi⟩ := hop
    have hr' : a.live.after (.importDurableState state) = r' := congrArg Prod.snd hi
    have hrem := hj.imports state rfl ⟨state, report, r', rfl, hi⟩
    obtain ⟨staged, him, -, rfl⟩ := importDurableState_eq_ok.mp hi
    refine ⟨fun e he => ⟨(h.spent e he).1, ?_⟩, fun id s hs => ?_, h.single⟩
    · change (a.live.after (.importDurableState state)).Spent _ _ _
      rw [hr']
      obtain ⟨s, hs, hd⟩ := dead_of_buries him (hrem.accepted e he)
      exact ⟨s, hs, .dead hd⟩
    · change (a.live.after (.importDurableState state)).publishers[id]? = some s at hs
      rw [hr'] at hs
      exact ledgered_restored him hrem hs
  · refine ⟨fun e he => ?_, fun id => ?_, h.single_after hj⟩
    · rcases List.mem_append.mp he with hn | ho
      · obtain ⟨now, p, rfl, hp, hk, ha⟩ := admitted_eq hn
        have hprep := prepare_eq_ok hp
        obtain ⟨hv, hs⟩ := spent_of_accepted (hprep.kind ▸ hk) ha
        rw [hprep.publisher, hprep.sequence]
        exact ⟨hv, hs⟩
      · exact ⟨(h.spent e ho).1, (h.spent e ho).2.after (h.spent e ho).1 hop⟩
    · refine ledgered_move (ledgerMove a.live op hop id) ?_ (h.ledgered id)
      rintro now p q publisher rfl haddr hauth verdict haccepted
      rw [mem_admitted haddr]
      · exact List.mem_singleton_self q
      · rw [applyLocked_of_verdict haddr hauth verdict, settle_accepted]
        exact haccepted

/-- Every publication of the call that is answered at its sequence is answered rightly. -/
def AnsweredTruly (a : Audited) (op : Op) : Prop :=
  ∀ now p q, op = .apply now p → a.live.prepare p = .ok q → q.kind.sequenced = true →
    TrueDuplicates a now p q

/-- Along every run whose calls can be judged, only true duplicates are accepted as such. -/
theorem duplicates_are_true {limits : RegistryLimits} {ops : List Op}
    (h : Machine.Along after Judged { live := Impl.fresh limits } ops) :
    Machine.Along after AnsweredTruly { live := Impl.fresh limits } ops := by
  have hfresh : Faithful { live := Impl.fresh limits } := by
    refine ⟨fun e he => (by cases he), fun id s hs => ?_, fun e he => (by cases he)⟩
    simp [Impl.fresh] at hs
  refine (h.with_invariant hfresh fun a op ha hj => ha.after hj).mono fun a op haj => ?_
  rintro now p q rfl hp hk
  exact haj.1.trueDuplicates (haj.2.publications now p q rfl hp hk) hp hk now

omit [StdLib] in
theorem prepare_eq_bindPublisher (hk : p.kind.isCapability = false) (h : r.prepare p = .ok q) :
    q = bindPublisher p := by
  have hk' : (bindPublisher p).kind.isCapability = false := hk
  have hs : r.bindSchema (bindPublisher p) = .ok (bindPublisher p) := by simp [bindSchema, hk']
  have hv : r.bindValue (bindPublisher p) = .ok (bindPublisher p) := by simp [bindValue, hk']
  have hc : r.prepare p = r.checkPublication (bindPublisher p) := by
    unfold prepare
    rw [hs]
    change r.bindValue (bindPublisher p) >>= _ = _
    rw [hv]
    rfl
  exact (checkPublication_eq_ok.mp (hc.symm.trans h)).1

/-- A registration of a device, sent twice. -/
def sentTwice : List Op :=
  [Sample.registration, .apply Sample.now (Sample.deviceRegistration 1 Sample.device),
    .apply Sample.now (Sample.deviceRegistration 1 Sample.device)]

/-- A publication of another kind than evidence repeats whatever it repeats in full. -/
theorem distinguished_of_same (hk : p.kind.isCapability = false) (hq : a.live.prepare p = .ok q)
    (hw : ∀ publisher ∈ a.live.publishers[p.publisher.id]?,
      p.sequence = mark publisher p.publisher.boot →
        (publisher.sequenceFingerprints[p.sequence]?).isSome = true)
    (ha : ∀ e ∈ a.accepted, e = bindPublisher p) : Distinguished a p q := by
  obtain rfl := prepare_eq_bindPublisher hk hq
  refine ⟨fun publisher haddr _ hm => hw publisher haddr.registered hm, fun e he _ _ => ?_,
    fun e he _ _ => ?_⟩
  · rw [ha e he]
  · rw [ha e he]

omit [StdLib] in
theorem duplicates_are_true_sentTwice :
    letI := StdLib.reference
    Machine.Along after AnsweredTruly { live := Impl.fresh {} } sentTwice := by
  let := StdLib.reference
  refine duplicates_are_true ⟨⟨?_, ?_⟩, ⟨?_, ?_⟩, ⟨?_, ?_⟩, trivial⟩
  · intro now p q h
    cases h
  · intro state h
    cases h
  · intro now p q h hp hk
    obtain ⟨-, rfl⟩ := Op.apply.inj h
    refine distinguished_of_same rfl hp (by decide) fun e he => ?_
    cases he
  · intro state h
    cases h
  · intro now p q h hp hk
    obtain ⟨-, rfl⟩ := Op.apply.inj h
    refine distinguished_of_same rfl hp (by decide) fun e he => ?_
    obtain he | he := List.mem_append.mp he
    · obtain ⟨now', p', hop, hp', -, -⟩ := admitted_eq he
      obtain ⟨-, rfl⟩ := Op.apply.inj hop
      exact prepare_eq_bindPublisher rfl hp'
    · cases he
  · intro state h
    cases h

omit [StdLib] in
/-- The first publication of a boot is taken for a duplicate when it carries sequence zero. -/
theorem sequence_zero_is_taken_for_a_duplicate :
    letI := StdLib.reference
    ¬ ∀ (limits : RegistryLimits) (ops : List Op) (now : Timestamp) (p q : Publication),
      (ops.foldl after { live := Impl.fresh limits }).live.prepare p = .ok q →
      q.kind.sequenced = true →
      Collisionless (ops.foldl after { live := Impl.fresh limits }) q →
      TrueDuplicates (ops.foldl after { live := Impl.fresh limits }) now p q := by
  let := StdLib.reference
  intro h
  let a : Audited := [Sample.registration].foldl after { live := Impl.fresh {} }
  let p := Sample.deviceRegistration 0 Sample.device
  have hok : (a.live.prepare p).toOption.isSome = true := by decide
  have haccepted : (a.live.applyLocked Sample.now p).1.accepted = true := by decide
  cases hp : a.live.prepare p with
  | error result =>
    rw [hp] at hok
    cases hok
  | ok q =>
    have hprep := prepare_eq_ok hp
    have hk : q.kind.sequenced = true := hprep.kind ▸ rfl
    have htrue := h {} [Sample.registration] Sample.now p q hp hk fun e he => (by cases he)
    rcases duplicate_or_new hp hk haccepted with hans | ⟨publisher, -, -, verdict⟩
    · obtain ⟨e, he, -⟩ := htrue.duplicate hans
      cases he
    · have hlt := mark_lt_of_verdict verdict
      rw [hprep.sequence] at hlt
      exact UInt64.not_lt.mpr UInt64.zero_le hlt

end Audited

end Impl

end CapabilityRegistry
