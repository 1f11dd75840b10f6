import CapabilityRegistry.Authority
import CapabilityRegistry.Rejections

/-! How calls move a publisher's ledger: the marks of its boots and its window of fingerprints. -/
namespace CapabilityRegistry

namespace Impl

section Marks
variable {s s' s'' : PublisherStateInternal} {boot : PublisherBootId} {q : Publication}

/-- The highest sequence accepted under a boot. -/
def mark (s : PublisherStateInternal) (boot : PublisherBootId) : UInt64 :=
  ((s.watermarks[boot]?).getD {}).maxSequence

theorem mark_setWatermark (s : PublisherStateInternal) (watermark : PublisherWatermark)
    (boot : PublisherBootId) : mark (setWatermark s watermark) boot =
      if watermark.boot = boot then watermark.maxSequence else mark s boot := by
  simp only [mark, setWatermark, OrdMap.getElem?_insert_eq]
  split <;> rfl

theorem mark_setWatermark_open (s : PublisherStateInternal) (identity : PublisherIdentity)
    (boot : PublisherBootId) :
    mark (setWatermark s (openWatermark s identity)) boot = mark s boot := by
  rw [mark_setWatermark, openWatermark_boot, openWatermark_maxSequence]
  split
  · next he => rw [← he]; rfl
  · rfl

theorem mark_noteRejected (s : PublisherStateInternal) (identity : PublisherIdentity)
    (boot : PublisherBootId) :
    mark (noteRejected s (openWatermark s identity)) boot = mark s boot := by
  have hb := openWatermark_boot s identity
  have hm := openWatermark_maxSequence s identity
  unfold noteRejected
  dsimp only
  rw [mark_setWatermark]
  dsimp only
  rw [hb, hm]
  split
  · next he => rw [← he]; rfl
  · rfl

theorem mark_noteAccepted [StdLib] (s : PublisherStateInternal) (q : Publication)
    (boot : PublisherBootId) : mark (noteAccepted s (openWatermark s q.publisher) q) boot =
      if q.publisher.boot = boot then q.sequence else mark s boot := by
  have hb := openWatermark_boot s q.publisher
  unfold noteAccepted
  dsimp only
  rw [mark_setWatermark]
  dsimp only
  rw [hb]
  rfl

theorem mark_markWatermarks (state : PublisherState) (reason : Text) (boot : PublisherBootId) :
    (((markWatermarks state reason s.watermarks)[boot]?).getD {}).maxSequence = mark s boot := by
  simp only [markWatermarks, mark, Std.ExtTreeMap.getElem?_map]
  cases s.watermarks[boot]? <;> rfl

/-- A publisher whose boots have spent and remember what they did before; more of them may be
fenced. -/
structure Keeps (s s' : PublisherStateInternal) : Prop where
  boot : s'.record.identity.boot = s.record.identity.boot
  fenced : ∀ boot ∈ s.fencedBoots, boot ∈ s'.fencedBoots
  mark : ∀ boot, mark s' boot = mark s boot
  fingerprints : s'.sequenceFingerprints = s.sequenceFingerprints

theorem Keeps.refl (s : PublisherStateInternal) : Keeps s s :=
  ⟨rfl, fun _ h => h, fun _ => rfl, rfl⟩

theorem keeps_fenceState (s : PublisherStateInternal) (reason : Text) :
    Keeps s (fenceState reason s) :=
  ⟨rfl, fun _ h => mem_insert_if h, fun _ => mark_markWatermarks _ _ _, rfl⟩

theorem keeps_retireState (s : PublisherStateInternal) (boot : PublisherBootId) (reason : Text) :
    Keeps s (retireState boot reason s) := by
  refine ⟨?_, fun _ h => Std.ExtTreeSet.mem_insert.mpr (.inr h), fun b => ?_, rfl⟩
  · simp only [retireState]
    split <;> rfl
  · simp only [Impl.mark, retireState, Std.ExtTreeMap.getElem?_modify]
    split
    · next he =>
      obtain rfl := Std.LawfulEqOrd.eq_of_compare he
      cases s.watermarks[boot]? <;> rfl
    · rfl

theorem keeps_resetState (s : PublisherStateInternal) (reason : Text) :
    Keeps s (resetState reason s) := by
  unfold resetState
  split
  · refine ⟨rfl, fun _ h => mem_insert_if h, fun b => ?_, rfl⟩
    simp only [Impl.mark]
    split
    · exact mark_markWatermarks _ _ _
    · rfl
  · exact Keeps.refl s

theorem keeps_reaffirm (r : Impl) (adapter : Text) (s : PublisherStateInternal) :
    Keeps s (r.reaffirm adapter s) := ⟨rfl, fun _ h => h, fun _ => rfl, rfl⟩

theorem keeps_setWatermark (s : PublisherStateInternal) (identity : PublisherIdentity) :
    Keeps s (setWatermark s (openWatermark s identity)) :=
  ⟨rfl, fun _ h => h, mark_setWatermark_open s identity, rfl⟩

theorem keeps_noteRejected (s : PublisherStateInternal) (identity : PublisherIdentity) :
    Keeps s (noteRejected s (openWatermark s identity)) :=
  ⟨rfl, fun _ h => h, mark_noteRejected s identity, rfl⟩

end Marks

section Moves
variable {r r' : Impl} {op : Op} {id id' : PublisherId} {publication q : Publication}
  {publisher state : PublisherStateInternal} {x y : Option PublisherStateInternal} [StdLib]

/-- How a call that restores nothing moves the ledger of one publisher. -/
inductive LedgerMove (r : Impl) (id : PublisherId) :
    Op → Option PublisherStateInternal → Option PublisherStateInternal → Prop
  | absent (op : Op) : LedgerMove r id op none none
  | kept (op : Op) (s s' : PublisherStateInternal) (keeps : Keeps s s') :
    LedgerMove r id op (some s) (some s')
  | first (op : Op) (now : Timestamp) (adapter : Text) :
    LedgerMove r id op none (some (r.newPublisher now id adapter))
  | fresh (op : Op) (now : Timestamp) (adapter : Text) (s : PublisherStateInternal) :
    LedgerMove r id op (some s) (some (r.freshBoot now adapter s))
  | accepted (now : Timestamp) (publication q : Publication) (s : PublisherStateInternal)
      (addressed : Addressed r publication q s) (authority : r.Authorized s q)
      (verdict : sequenceVerdict s (openWatermark s q.publisher) q = none)
      (target : q.publisher.id = id) (accepted : (r.applyPayload q).1.accepted = true) :
    LedgerMove r id (.apply now publication) (some s)
      (some (noteAccepted s (openWatermark s q.publisher) q))

theorem LedgerMove.refl (r : Impl) (id : PublisherId) (op : Op) (x : Option PublisherStateInternal) :
    LedgerMove r id op x x := by
  cases x with
  | none => exact .absent op
  | some s => exact .kept op s s (Keeps.refl s)

/-- Writing one publisher moves that ledger and no other. -/
theorem ledgerMove_set (h : r'.publishers = (r.setPublisher id' state).publishers)
    (hm : LedgerMove r id' op (r.publishers[id']?) (some state)) :
    LedgerMove r id op (r.publishers[id]?) (r'.publishers[id]?) := by
  rw [h, setPublisher_publishers]
  split
  · next he =>
    subst he
    exact hm
  · exact LedgerMove.refl _ _ _ _

theorem ledgerMove_kept (h : r'.publishers = (r.setPublisher id' state).publishers)
    (registered : r.publishers[id']? = some publisher) (hk : Keeps publisher state) :
    LedgerMove r id op (r.publishers[id]?) (r'.publishers[id]?) := by
  refine ledgerMove_set h ?_
  rw [registered]
  exact .kept _ _ _ hk

theorem registerPublisherLocked_ledger (r : Impl) (now : Timestamp) (identity : PublisherIdentity)
    (adapter : Text) (op : Op) (id : PublisherId) :
    LedgerMove r id op (r.publishers[id]?)
      ((r.registerPublisherLocked now identity adapter).2.publishers[id]?) := by
  have h := registers r now identity adapter
  generalize r.registerPublisherLocked now identity adapter = out at h
  cases h with
  | refused => exact LedgerMove.refl _ _ _ _
  | first result valid bounded unknown =>
    refine ledgerMove_set rfl ?_
    rw [unknown]
    exact .first _ now adapter
  | fresh result state valid bounded known =>
    refine ledgerMove_set rfl ?_
    rw [known]
    exact .fresh _ now adapter state
  | reaffirmed result state valid bounded known =>
    exact ledgerMove_kept rfl known (keeps_reaffirm r adapter state)

theorem applyLocked_ledger (r : Impl) (now : Timestamp) (publication : Publication)
    (id : PublisherId) :
    LedgerMove r id (.apply now publication) (r.publishers[id]?)
      ((r.applyLocked now publication).2.publishers[id]?) := by
  have h := ingested r now publication
  generalize r.applyLocked now publication = out at h
  cases h with
  | schema q running prepared kind =>
    unfold applySchema
    split
    · exact LedgerMove.refl _ _ _ _
    · next bound hb =>
      obtain ⟨-, -, -, -, rfl⟩ := registerCapabilitySchemaLocked_eq_ok hb
      exact LedgerMove.refl _ _ _ _
  | registration q running prepared kind =>
    have hm := registerPublisherLocked_ledger r now q.publisher q.reason (.apply now publication) id
    unfold applyRegistration
    dsimp only
    split <;> exact hm
  | repeated q publisher result addressed authority verdict accepted =>
    exact ledgerMove_kept rfl addressed.registered (keeps_setWatermark publisher q.publisher)
  | unsequenced q publisher result addressed authority verdict refused =>
    exact ledgerMove_kept rfl addressed.registered (keeps_noteRejected publisher q.publisher)
  | handled q publisher addressed authority verdict =>
    have hp := (Impl.handled r q).sameAuthority.publishers
    have hset : ∀ s, ((r.applyPayload q).2.setPublisher q.publisher.id s).publishers =
        (r.setPublisher q.publisher.id s).publishers := by
      intro s
      simp only [setPublisher, hp]
    unfold settle
    split
    · next ha =>
      have hsame : ∀ r' : Impl, r'.publishers = (r.setPublisher q.publisher.id
          (noteAccepted publisher (openWatermark publisher q.publisher) q)).publishers →
          LedgerMove r id (.apply now publication) (r.publishers[id]?) (r'.publishers[id]?) := by
        intro r' hr'
        refine ledgerMove_set hr' ?_
        rw [addressed.registered]
        exact .accepted now publication q publisher addressed authority verdict rfl ha
      dsimp only
      split <;> split <;> exact hsame _ (hset _)
    · exact ledgerMove_kept (hset _) addressed.registered (keeps_noteRejected publisher q.publisher)
  | _ => exact LedgerMove.refl _ _ _ _

/-- Every call that restores nothing moves each ledger in one of these ways. -/
theorem ledgerMove (r : Impl) (op : Op) (h : ¬ r.Restores op) (id : PublisherId) :
    LedgerMove r id op (r.publishers[id]?) ((r.after op).publishers[id]?) := by
  cases op with
  | registerCapabilitySchema schema =>
    simp only [after, step, registerCapabilitySchema]
    split
    · exact LedgerMove.refl _ _ _ _
    · next bound hb =>
      obtain ⟨-, -, -, -, rfl⟩ := registerCapabilitySchemaLocked_eq_ok hb
      exact LedgerMove.refl _ _ _ _
  | registerPublisher now identity adapter =>
    simp only [after, step, registerPublisher]
    split
    · exact LedgerMove.refl _ _ _ _
    · exact registerPublisherLocked_ledger r now identity adapter _ id
  | fencePublisher publisher reason =>
    simp only [after, step, fencePublisher]
    split
    · exact LedgerMove.refl _ _ _ _
    · next state hs =>
      split
      · exact LedgerMove.refl _ _ _ _
      · exact ledgerMove_kept rfl hs (keeps_fenceState state reason)
  | retirePublisherBoot publisher boot reason =>
    simp only [after, step, retirePublisherBoot]
    split
    · exact LedgerMove.refl _ _ _ _
    · next state hs =>
      split
      · exact LedgerMove.refl _ _ _ _
      · split
        · exact LedgerMove.refl _ _ _ _
        · exact ledgerMove_kept rfl hs (keeps_retireState state boot reason)
  | resetPublisherLiveness reason =>
    have hg : (r.after (.resetPublisherLiveness reason)).publishers[id]? =
        (r.publishers[id]?).map (resetState reason) := Std.ExtTreeMap.getElem?_map
    rw [hg]
    cases r.publishers[id]? with
    | none => exact .absent _
    | some state => exact .kept _ _ _ (keeps_resetState state reason)
  | apply now publication => exact applyLocked_ledger r now publication id
  | snapshot =>
    simp only [after, step, takeSnapshot]
    split <;> exact LedgerMove.refl _ _ _ _
  | setCoordinatorEpoch epoch =>
    simp only [after, step, setCoordinatorEpoch]
    repeat' split
    all_goals exact LedgerMove.refl _ _ _ _
  | importDurableState durable =>
    have hi : r.importDurableState durable =
        ((r.importDurableState durable).1, r.after (.importDurableState durable)) := rfl
    cases ho : (r.importDurableState durable).1 with
    | error e =>
      obtain ⟨serial, hr⟩ := importDurableState_eq_error (hi.trans (by rw [ho]))
      rw [hr]
      exact LedgerMove.refl _ _ _ _
    | ok report => exact (h ⟨durable, report, _, rfl, hi.trans (by rw [ho])⟩).elim
  | _ => exact LedgerMove.refl _ _ _ _

/-- A sequence the publisher takes lies beyond the mark of the boot. -/
theorem mark_lt_of_verdict
    (h : sequenceVerdict publisher (openWatermark publisher q.publisher) q = none) :
    mark publisher q.publisher.boot < q.sequence := by
  have hm : mark publisher q.publisher.boot =
      (openWatermark publisher q.publisher).maxSequence := (openWatermark_maxSequence _ _).symm
  rw [hm]
  unfold sequenceVerdict at h
  dsimp only at h
  split at h
  · cases h
  · next hlt =>
    split at h
    · split at h
      · cases h
      · split at h <;> cases h
    · next hne =>
      rcases UInt64.lt_or_lt_of_ne hne with hl | hl
      · exact (hlt hl).elim
      · exact hl

/-- A sequence at or below the mark gets a verdict before any handler runs. -/
theorem verdict_of_le_mark (h : q.sequence ≤ mark publisher q.publisher.boot) :
    sequenceVerdict publisher (openWatermark publisher q.publisher) q ≠ none :=
  fun hn => UInt64.not_lt.mpr h (mark_lt_of_verdict hn)

/-- A duplicate is taken at the mark of the boot only, and never against its fingerprint. -/
theorem eq_mark_of_verdict {result : ApplyResult}
    (h : sequenceVerdict publisher (openWatermark publisher q.publisher) q = some result)
    (ha : result.accepted = true) : q.sequence = mark publisher q.publisher.boot ∧
      ∀ fingerprint, publisher.sequenceFingerprints[q.sequence]? = some fingerprint →
        fingerprint = StdLib.hash (fingerprintPublication q) := by
  have hm : mark publisher q.publisher.boot =
      (openWatermark publisher q.publisher).maxSequence := (openWatermark_maxSequence _ _).symm
  rw [hm]
  unfold sequenceVerdict at h
  dsimp only at h
  split at h
  · obtain rfl := Option.some.inj h
    simp [applyCodeAccepted] at ha
  · split at h
    · next he =>
      refine ⟨he, fun fingerprint hf => ?_⟩
      rw [hf] at h
      dsimp only at h
      split at h
      · assumption
      · obtain rfl := Option.some.inj h
        simp [applyCodeAccepted] at ha
    · split at h
      · obtain rfl := Option.some.inj h
        simp [applyCodeAccepted] at ha
      · cases h

end Moves

end Impl

end CapabilityRegistry
