import CapabilityRegistry.InForce
import CapabilityRegistry.Typing
import CapabilityRegistry.Selection

/-! What the evidence of one publisher leaves of a key, whatever the others publish in between. -/
namespace CapabilityRegistry

section Order
variable {xs ys : List StoredRecord} {s t : StoredRecord} {slot : Text}

/-- The records of one slot are listed in the order of their serials. -/
def SlotOrdered (xs : List StoredRecord) : Prop :=
  xs.Pairwise fun s t => s.slot = t.slot → s.serial < t.serial

theorem SlotOrdered.thins (h : SlotOrdered xs) (ht : Thins xs ys) : SlotOrdered ys :=
  h.sublist ht.sublist

theorem SlotOrdered.append (h : SlotOrdered xs)
    (hlt : ∀ s ∈ xs, s.slot = t.slot → s.serial < t.serial) :
    SlotOrdered (supersede slot xs ++ [t]) := by
  refine List.pairwise_append.mpr ⟨?_, List.pairwise_singleton _ _, ?_⟩
  · refine List.pairwise_map.mpr (h.imp fun {a b} hab => ?_)
    split <;> split <;> exact hab
  · intro a ha b hb
    obtain rfl := List.mem_singleton.mp hb
    obtain ⟨u, hu, hk⟩ := mem_supersede ha
    rw [hk.slot, hk.serial]
    exact hlt u hu

/-- A record that no other one of its slot supersedes is the newest one. -/
theorem SlotOrdered.slotLatest (h : SlotOrdered xs) (hs : s ∈ xs)
    (hn : supersededIn xs s = false) : slotLatest xs s.slot = some s := by
  refine slotLatest_of_newest hs fun t ht hslot hne => ?_
  obtain ⟨i, hi, rfl⟩ := List.mem_iff_getElem.mp hs
  obtain ⟨j, hj, rfl⟩ := List.mem_iff_getElem.mp ht
  rcases Nat.lt_trichotomy i j with hij | rfl | hij
  · have hlt := List.pairwise_iff_getElem.mp h i j hi hj hij hslot.symm
    have hsup : supersededIn xs xs[i] = true := supersededIn_iff.mpr ⟨xs[j], ht, hslot, hlt⟩
    rw [hn] at hsup
    cases hsup
  · exact (hne rfl).elim
  · exact List.pairwise_iff_getElem.mp h j i hj hi hij hslot

/-- Thinning leaves the newest record of every slot in place. -/
theorem SlotOrdered.slotLatest_thins (h : SlotOrdered xs) (ht : Thins xs ys) (slot : Text) :
    CapabilityRegistry.slotLatest ys slot = CapabilityRegistry.slotLatest xs slot := by
  cases hl : CapabilityRegistry.slotLatest xs slot with
  | none =>
    cases hl' : CapabilityRegistry.slotLatest ys slot with
    | none => rfl
    | some t =>
      obtain ⟨ht', hslot, -⟩ := (slotLatest_spec ys slot).2 t hl'
      exact ((slotLatest_spec xs slot).1 hl t (ht.sublist.subset ht') hslot).elim
  | some t =>
    obtain ⟨hmem, rfl, hmax⟩ := (slotLatest_spec xs slot).2 t hl
    have hn : supersededIn xs t = false := by
      rw [← Bool.not_eq_true, supersededIn_iff]
      rintro ⟨u, hu, hslot, hlt⟩
      exact Nat.not_lt.mpr (hmax u hu hslot) hlt
    exact (h.thins ht).slotLatest (ht.newest t hmem hn) ((ht.superseded t).trans hn)

/-- Superseding one slot does not reach another one. -/
theorem slotLatest_supersede_other {slot' : Text} (hne : slot' ≠ slot) (xs : List StoredRecord) :
    slotLatest (supersede slot' xs) slot = slotLatest xs slot := by
  unfold slotLatest supersede
  rw [List.foldl_map]
  congr 1
  funext latest stored
  by_cases hs : stored.slot = slot'
  · simp [hs, hne]
  · simp [hs]

theorem slotLatest_append_other (hne : t.slot ≠ slot) (xs : List StoredRecord) :
    slotLatest (xs ++ [t]) slot = slotLatest xs slot := by
  unfold slotLatest
  rw [List.foldl_append, List.foldl_cons, List.foldl_nil, if_pos (bne_iff_ne.mpr hne)]

end Order

namespace Impl
variable {r r' : Impl} {op : Op} {id : KeyId} {staged staged' : StagedKeys}
  {limits : RegistryLimits} {subjects : StagedSubjects} {schemas : StagedSchemas}
  {record : CapabilityRecord} {records : List CapabilityRecord}

/-- Restoring a record extends its import slot under the next serial. -/
theorem slotOrdered_stageRecords (hm : StagedMarks staged)
    (ho : ∀ id, SlotOrdered (recordsAt staged.keys id))
    (h : stageRecords limits subjects schemas staged records = (.ok (), staged')) (id : KeyId) :
    SlotOrdered (recordsAt staged'.keys id) := by
  have hall : StagedMarks staged' ∧ ∀ id, SlotOrdered (recordsAt staged'.keys id) := by
    refine foldlM_invariant (P := fun staged : StagedKeys =>
        StagedMarks staged ∧ ∀ id, SlotOrdered (recordsAt staged.keys id)) ⟨hm, ho⟩
      (fun staged record _ next hprev hn => ?_) (stageRecords_eq_ok.mp h)
    obtain ⟨hm, ho⟩ := hprev
    refine ⟨stagedMarks_stageRecord hm hn, fun id => ?_⟩
    obtain ⟨-, -, -, rfl⟩ := stageRecord_eq_ok.mp hn
    rw [recordsAt_restoreRecord]
    split
    · exact (ho id).append fun s hs _ => Nat.lt_succ_of_le (hm.issued id s hs)
    · exact ho id
  exact hall.2 id

theorem ThinMove.slotOrdered (h : ThinMove r op r' id)
    (hp : ∀ s ∈ recordsAt r.keys id, Placed r.nextSerial s) (ho : SlotOrdered (recordsAt r.keys id)) :
    SlotOrdered (recordsAt r'.keys id) := by
  cases h with
  | thinned op r' id thins serial => exact ho.thins thins
  | stored now publication q publisher record device generation mid r' addressed authority kind
      admits thins thins' serial =>
    refine SlotOrdered.thins ?_ thins'
    refine (ho.thins thins).append (t := r.storedAs record device generation) fun s hs he => ?_
    exact (hp s (thins.sublist.subset hs)).lt_of_live he

variable [StdLib]

theorem slotOrdered_after (ha : r.Accounted) (hs : r.Slotted)
    (ho : ∀ id, SlotOrdered (recordsAt r.keys id)) (op : Op) (id : KeyId) :
    SlotOrdered (recordsAt (r.after op).keys id) := by
  by_cases hop : r.Restores op
  · obtain ⟨state, report, r', rfl, hi⟩ := hop
    obtain ⟨staged, him, -, rfl⟩ := importDurableState_eq_ok.mp hi
    have hafter : r.after (.importDurableState state) = r.commit state staged := congrArg Prod.snd hi
    rw [hafter]
    refine slotOrdered_stageRecords (stagedMarks_empty r.nextSerial) (fun id => ?_) him.records id
    simp [recordsAt, SlotOrdered]
  · exact (thinMove ha hop id).slotOrdered (hs.placed id) (ho id)

/-- In every reachable registry the records of a slot are listed in the order of their serials. -/
theorem reachable_slotOrdered (h : Reachable limits r) (id : KeyId) :
    SlotOrdered (recordsAt r.keys id) := by
  obtain ⟨ops, rfl⟩ := h
  have hinv := Machine.run_invariant (P := fun r : Impl => (r.Accounted ∧ r.Slotted) ∧
      ∀ id, SlotOrdered (recordsAt r.keys id)) (s := Impl.fresh limits)
    ⟨reachable_slotted ⟨[], rfl⟩, fun id => by simp [Impl.fresh, recordsAt, SlotOrdered]⟩
    (fun r op hr => ⟨⟨hr.1.1.after op, hr.1.2.after hr.1.1 op⟩,
      slotOrdered_after hr.1.1 hr.1.2 hr.2 op⟩) ops
  exact hinv.2 id

end Impl

namespace Impl
variable {r r' : Impl} {id : KeyId} {p q : Publication} {publisher : PublisherStateInternal}
  {now : Timestamp} {slot : Text} {out : ApplyResult × Impl}

/-- What the newest record of a slot states, under any generation. -/
def statedAt (r : Impl) (id : KeyId) (slot : Text) : Option CapabilityRecord :=
  (slotLatest (recordsAt r.keys id) slot).map fun s => s.record.unnumbered

/-- Everything but publishers, keys and counters is the same. -/
structure SameSetting (r r' : Impl) : Prop where
  judgement : SameJudgement r r'
  schemas : r'.schemas = r.schemas
  capabilitySchemas : r'.capabilitySchemas = r.capabilitySchemas
  quirks : r'.quirks = r.quirks
  shuttingDown : r'.shuttingDown = r.shuttingDown

theorem SameJudgement.refl (r : Impl) : SameJudgement r r := ⟨rfl, rfl, rfl, fun _ => rfl⟩

theorem SameJudgement.trans {r'' : Impl} (h : SameJudgement r r') (h' : SameJudgement r' r'') :
    SameJudgement r r'' :=
  ⟨h'.1.trans h.1, h'.2.trans h.2, h'.3.trans h.3,
    fun record => (h'.4 record).trans (h.4 record)⟩

theorem SameJudgement.symm (h : SameJudgement r r') : SameJudgement r' r :=
  ⟨h.1.symm, h.2.symm, h.3.symm, fun record => (h.4 record).symm⟩

theorem SameSetting.refl (r : Impl) : SameSetting r r :=
  ⟨SameJudgement.refl r, rfl, rfl, rfl, rfl⟩

theorem SameSetting.trans {r'' : Impl} (h : SameSetting r r') (h' : SameSetting r' r'') :
    SameSetting r r'' :=
  ⟨h.1.trans h'.1, h'.2.trans h.2, h'.3.trans h.3, h'.4.trans h.4, h'.5.trans h.5⟩

theorem SameSetting.symm (h : SameSetting r r') : SameSetting r' r :=
  ⟨h.1.symm, h.2.symm, h.3.symm, h.4.symm, h.5.symm⟩

theorem prepare_congr (h : SameSetting r r') (p : Publication) : r'.prepare p = r.prepare p := by
  simp only [prepare, bindSchema, bindValue, checkPublication, h.capabilitySchemas,
    h.judgement.limits]

theorem admitCapability_congr (h : SameSetting r r') (record : CapabilityRecord) :
    r'.admitCapability record = r.admitCapability record := by
  simp only [admitCapability, h.schemas, h.judgement.limits, h.judgement.devices]

theorem Evidenced.quirks (h : Evidenced r q out) : out.2.quirks = r.quirks := by
  have hroom : ∀ r : Impl, r.makeRoom.quirks = r.quirks := by
    intro r
    unfold makeRoom
    split <;> rfl
  cases h with
  | inadmissible => rfl
  | keyLimit => rfl
  | ungoverned record device key r' result admitted opens => cases opens <;> rfl
  | repeated record device key r' result admitted opens => cases opens <;> rfl
  | saturated record device key r' result admitted fresh =>
    refine (hroom _).trans ?_
    cases fresh.opens <;> rfl
  | recorded record device key r' result admitted fresh =>
    refine (hroom _).trans ?_
    cases fresh.opens <;> rfl

variable [StdLib]

theorem reachable_after {limits : RegistryLimits} (h : Reachable limits r) (op : Op) :
    Reachable limits (r.after op) := by
  obtain ⟨ops, rfl⟩ := h
  exact ⟨ops ++ [op], by simp [run]⟩

theorem settle_shuttingDown (r : Impl) (publisher : PublisherStateInternal)
    (watermark : PublisherWatermark) (q : Publication) (result : ApplyResult) :
    (r.settle publisher watermark q result).2.shuttingDown = r.shuttingDown := by
  unfold settle
  split
  · dsimp only
    split <;> split <;> rfl
  · rfl

/-- The publisher once one of its publications was accepted. -/
def taken (publisher : PublisherStateInternal) (q : Publication) : PublisherStateInternal :=
  match sequenceVerdict publisher (openWatermark publisher q.publisher) q with
  | some _ => setWatermark publisher (openWatermark publisher q.publisher)
  | none => noteAccepted publisher (openWatermark publisher q.publisher) q

theorem settle_taken (r : Impl) {result : ApplyResult} (hacc : result.accepted = true)
    (verdict : sequenceVerdict publisher (openWatermark publisher q.publisher) q = none) :
    (r.settle publisher (openWatermark publisher q.publisher) q result).2.publishers =
      (r.setPublisher q.publisher.id (taken publisher q)).publishers := by
  unfold settle taken
  rw [if_pos hacc, verdict]
  dsimp only
  split <;> split <;> rfl

/-- A publication of evidence that passed the authority checks and was not refused. -/
structure Arrived (r : Impl) (p q : Publication) (publisher : PublisherStateInternal) (r' : Impl) :
    Prop where
  addressed : Addressed r p q publisher
  authority : r.Authorized publisher q
  verdict : ∀ result, sequenceVerdict publisher (openWatermark publisher q.publisher) q = some result →
    result.accepted = true
  publishers : r'.publishers = (r.setPublisher p.publisher.id (taken publisher q)).publishers
  setting : SameSetting r r'

/-- What the acceptance of a publication of evidence did to its publisher and to everything but
the evidence. -/
theorem arrived (ha : r.Accounted) (hk : p.kind.isCapability = true) (now : Timestamp)
    (hacc : (r.applyLocked now p).1.accepted = true) :
    ∃ q publisher, Arrived r p q publisher (r.applyLocked now p).2 := by
  have hjudge := (published ha hk now hacc).2
  have hi := ingested r now p
  generalize r.applyLocked now p = out at hi hacc hjudge
  cases hi with
  | shuttingDown result running refused => simp [refused] at hacc
  | unprepared result running unprepared => simp [prepare_eq_error unprepared] at hacc
  | schema q running prepared kind =>
    simp [← (prepare_eq_ok prepared).kind, kind, PublicationKind.isCapability] at hk
  | registration q running prepared kind =>
    simp [← (prepare_eq_ok prepared).kind, kind, PublicationKind.isCapability] at hk
  | unknownPublisher q result running prepared kind unregistered refused => simp [refused] at hacc
  | unauthorized q publisher result addressed refusal =>
    simp [authorityRefusal_eq_some refusal] at hacc
  | unsequenced q publisher result addressed authority verdict refused => simp [refused] at hacc
  | repeated q publisher result addressed authority verdict accepted =>
    refine ⟨q, publisher, addressed, authority, fun result' hr => ?_, ?_, hjudge, rfl, rfl, rfl, rfl⟩
    · obtain rfl := Option.some.inj (verdict.symm.trans hr)
      exact accepted
    · rw [taken, verdict, ← (prepare_eq_ok addressed.prepared).publisher]
      rfl
  | handled q publisher addressed authority verdict =>
    have hp := prepare_eq_ok addressed.prepared
    have hinv := settle_sameInventory (r.applyPayload q).2 publisher
      (openWatermark publisher q.publisher) q (r.applyPayload q).1
    have hsame := (Impl.handled r q).sameAuthority
    have hcatalog := applyPayload_sameCatalog r q
    have hkind : q.kind.isCapability = true := hp.kind ▸ hk
    have hev := evidenced_applyPayload r hkind
    rw [settle_accepted] at hacc
    refine ⟨q, publisher, addressed, authority, fun result hr => ?_, ?_, hjudge, ?_, ?_, ?_, ?_⟩
    · rw [verdict] at hr
      cases hr
    · rw [settle_taken _ hacc verdict, ← hp.publisher]
      simp only [setPublisher, hsame.publishers]
    · rw [hinv.schemas, hcatalog.schemas]
    · rw [hinv.capabilitySchemas, hcatalog.capabilitySchemas]
    · rw [hinv.quirks, hev.quirks]
    · rw [settle_shuttingDown, hsame.shuttingDown]

end Impl

section Statements
variable {stated stated' : Text → Option CapabilityRecord} {slot slot' : Text}
  {record : CapabilityRecord}

/-- The newest record of a slot already states the same under the same generations. -/
def restates (latest : Option CapabilityRecord) (record : CapabilityRecord) : Bool :=
  match latest with
  | none => false
  | some latest =>
    !record.withdrawn && !latest.withdrawn && capabilityContentEqual latest record &&
      latest.deviceGeneration == record.deviceGeneration &&
      latest.driverGeneration == record.driverGeneration &&
      latest.firmwareGeneration == record.firmwareGeneration &&
      latest.runtimeGeneration == record.runtimeGeneration

theorem alreadyRecorded_eq (key : KeyState) (record : CapabilityRecord) :
    alreadyRecorded key record =
      restates ((slotLatest key.records (slotOf record)).map fun s => s.record.unnumbered) record := by
  unfold alreadyRecorded
  cases slotLatest key.records (slotOf record) <;> rfl

/-- What the slots state once a record arrived in one of them. -/
def restated (stated : Text → Option CapabilityRecord) (slot : Text) (record : CapabilityRecord)
    (slot' : Text) : Option CapabilityRecord :=
  if restates (stated slot) record then stated slot'
  else if slot = slot' then some record.unnumbered else stated slot'

theorem restated_other (hne : slot ≠ slot') : restated stated slot record slot' = stated slot' := by
  unfold restated
  rw [if_neg hne, ite_self]

theorem restated_congr (h : stated slot = stated' slot) (h' : stated slot' = stated' slot') :
    restated stated slot record slot' = restated stated' slot record slot' := by
  simp only [restated, h, h']

end Statements

/-- A slot of live ingestion, by its parts. -/
def liveSlot (publisher : PublisherId) (boot : PublisherBootId) (sourceClass : SourceClass) : Text :=
  slotOf { source := { publisher := { id := publisher, boot := boot }, sourceClass := sourceClass } }

theorem slotOf_eq_liveSlot (record : CapabilityRecord) : slotOf record =
    liveSlot record.source.publisher.id record.source.publisher.boot record.source.sourceClass := rfl

/-- The slots of two publishers differ. -/
theorem liveSlot_ne {publisher publisher' : PublisherId} (h : publisher ≠ publisher')
    (boot boot' : PublisherBootId) (sourceClass sourceClass' : SourceClass) :
    liveSlot publisher boot sourceClass ≠ liveSlot publisher' boot' sourceClass' :=
  fun he => h (slotOf_inj he).1

namespace Impl
variable {r r' : Impl} {id : KeyId} {p q : Publication} {publisher : PublisherStateInternal}
  {slot : Text} {record : CapabilityRecord} {device : DeviceState}
  {generation : CapabilityGeneration} {mid : List StoredRecord}

theorem statedAt_of_records (h : recordsAt r'.keys id = recordsAt r.keys id) (slot : Text) :
    r'.statedAt id slot = r.statedAt id slot := by
  rw [statedAt, h, statedAt]

/-- A stored record is what its slot states from then on, and no other slot notices. -/
theorem statedAt_stored (hs : r.Slotted) (ho : SlotOrdered (recordsAt r.keys id))
    (thins : Thins (recordsAt r.keys id) mid)
    (thins' : Thins (supersede (slotOf record) mid ++ [r.storedAs record device generation])
      (recordsAt r'.keys id)) (slot : Text) :
    r'.statedAt id slot = if slotOf record = slot then some (qualify record device).unnumbered
      else r.statedAt id slot := by
  unfold statedAt
  split
  · next he =>
    subst he
    rw [newest_storedAs hs thins thins']
    rfl
  · next hne =>
    have hlt : ∀ s ∈ mid, s.slot = slotOf record → s.serial < r.nextSerial := fun s hm he =>
      (hs.placed id s (thins.sublist.subset hm)).lt_of_live he
    have hord : SlotOrdered
        (supersede (slotOf record) mid ++ [r.storedAs record device generation]) :=
      (ho.thins thins).append hlt
    rw [hord.slotLatest_thins thins', slotLatest_append_other (t := r.storedAs record device
      generation) hne, slotLatest_supersede_other hne, ho.slotLatest_thins thins]

/-- What an accepted publication of evidence does to the statements of its key. -/
theorem Published.stated (h : Published r p r') (hid : keyOf p.capability = id) (hs : r.Slotted)
    (ho : SlotOrdered (recordsAt r.keys id)) (hk : p.kind.isCapability = true)
    (known : r.publishers[p.publisher.id]? = some publisher) (prepared : r.prepare p = .ok q) :
    (p.sequence = mark publisher p.publisher.boot ∧ ∀ slot, r'.statedAt id slot = r.statedAt id slot) ∨
    (mark publisher p.publisher.boot < p.sequence ∧ ∃ record device,
      r.admitCapability q.capability = .ok (record, device) ∧ ∀ slot, r'.statedAt id slot =
        restated (r.statedAt id) (sourceSlot p) (qualify record device) slot) := by
  subst hid
  have hslotOf : ∀ {record device}, r.admitCapability q.capability = .ok (record, device) →
      slotOf record = sourceSlot p := by
    intro record device hadm
    obtain ⟨value, -, rfl⟩ := (admitCapability_eq_ok hadm).value
    exact (prepare_target hk prepared).2
  have hsent : ∀ {q' publisher'}, Addressed r p q' publisher' → q' = q ∧ publisher' = publisher := by
    intro q' publisher' ha
    obtain rfl := Except.ok.inj (ha.prepared.symm.trans prepared)
    have hr := ha.registered
    rw [(prepare_eq_ok prepared).publisher, known] at hr
    exact ⟨rfl, (Option.some.inj hr).symm⟩
  cases h with
  | duplicate publisher' known' spent keys =>
    obtain rfl := Option.some.inj (known.symm.trans known')
    exact .inl ⟨spent, statedAt_of_records (by rw [keys])⟩
  | repeated q' publisher' record device key addressed authority beyond admitted known' recorded
      records =>
    obtain ⟨rfl, rfl⟩ := hsent addressed
    refine .inr ⟨beyond, record, device, admitted, fun slot => ?_⟩
    have hrep : restates (r.statedAt (keyOf p.capability) (sourceSlot p))
        (qualify record device) = true := by
      rw [alreadyRecorded_eq] at recorded
      rw [statedAt, recordsAt_of_some known', ← hslotOf admitted]
      exact recorded
    rw [statedAt_of_records records, restated, if_pos hrep]
  | stored q' publisher' record device generation mid addressed authority beyond admitted fresh
      thins thins' =>
    obtain ⟨rfl, rfl⟩ := hsent addressed
    refine .inr ⟨beyond, record, device, admitted, fun slot => ?_⟩
    have hrep : restates (r.statedAt (keyOf p.capability) (sourceSlot p))
        (qualify record device) = false := by
      cases hkey : r.keys[keyOf p.capability]? with
      | none =>
        rw [statedAt, recordsAt_of_none hkey]
        rfl
      | some key =>
        have hfresh := fresh key hkey
        rw [alreadyRecorded_eq] at hfresh
        rw [statedAt, recordsAt_of_some hkey, ← hslotOf admitted]
        exact hfresh
    rw [← hslotOf admitted] at thins' hrep ⊢
    rw [statedAt_stored hs ho thins thins', restated, hrep]
    rfl

end Impl

end CapabilityRegistry
