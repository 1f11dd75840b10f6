import CapabilityRegistry.Accounting

/-! How calls move a publisher's standing: its boot, its fences and its liveness. -/
namespace CapabilityRegistry

/-- The publisher may have counted publications, but holds the same authority. -/
structure SameStanding (s s' : PublisherStateInternal) : Prop where
  identity : s'.record.identity = s.record.identity
  state : s'.record.state = s.record.state
  fencedBoots : s'.fencedBoots = s.fencedBoots
  publisherFenced : s'.publisherFenced = s.publisherFenced

/-- The call asks for a fresh boot of a publisher. -/
def Op.Requests (id : PublisherId) : Op → Prop
  | .registerPublisher _ identity _ => identity.id = id ∧ identity.boot.valid = false
  | _ => False

namespace Impl
variable {r r' : Impl} {op : Op} {id : PublisherId} {now : Timestamp} {publication q : Publication}
  {publisher state : PublisherStateInternal} {watermark : PublisherWatermark}
  {x y : Option PublisherStateInternal}

theorem mem_insert_if {boots : Std.ExtTreeSet PublisherBootId compare} {boot b : PublisherBootId}
    {c : Bool} (h : b ∈ boots) : b ∈ if c then boots.insert boot else boots := by
  cases c with
  | false => exact h
  | true => exact Std.ExtTreeSet.mem_insert.mpr (.inr h)

/-- The call is an import that the registry accepts. -/
def Restores (r : Impl) (op : Op) : Prop :=
  ∃ durable report r', op = .importDurableState durable ∧
    r.importDurableState durable = (.ok report, r')

/-- How a call that restores nothing moves one publisher. -/
inductive PublisherMove (r : Impl) (id : PublisherId) :
    Op → Option PublisherStateInternal → Option PublisherStateInternal → Prop
  | unmoved (op : Op) (x : Option PublisherStateInternal) : PublisherMove r id op x x
  | first (op : Op) (now : Timestamp) (adapter : Text) :
    PublisherMove r id op none (some (r.newPublisher now id adapter))
  | fresh (op : Op) (now : Timestamp) (adapter : Text) (state : PublisherStateInternal)
      (unfenced : state.publisherFenced = false) (request : op.Requests id) :
    PublisherMove r id op (some state) (some (r.freshBoot now adapter state))
  | reaffirmed (op : Op) (adapter : Text) (state : PublisherStateInternal)
      (unfenced : state.publisherFenced = false)
      (valid : state.record.identity.boot.valid = true)
      (live : state.record.identity.boot ∉ state.fencedBoots) :
    PublisherMove r id op (some state) (some (r.reaffirm adapter state))
  | fenced (reason : Text) (state : PublisherStateInternal)
      (unfenced : state.publisherFenced = false) :
    PublisherMove r id (.fencePublisher id reason) (some state) (some (fenceState reason state))
  | retired (boot : PublisherBootId) (reason : Text) (state : PublisherStateInternal)
      (valid : boot.valid = true) (live : boot ∉ state.fencedBoots) :
    PublisherMove r id (.retirePublisherBoot id boot reason) (some state)
      (some (retireState boot reason state))
  | reset (reason : Text) (state : PublisherStateInternal) :
    PublisherMove r id (.resetPublisherLiveness reason) (some state)
      (some (resetState reason state))
  | noted (op : Op) (state state' : PublisherStateInternal) (same : SameStanding state state') :
    PublisherMove r id op (some state) (some state')

theorem setPublisher_publishers (r : Impl) (id id' : PublisherId) (state : PublisherStateInternal) :
    (r.setPublisher id state).publishers[id']? =
      if id = id' then some state else r.publishers[id']? :=
  OrdMap.getElem?_insert_eq _ _ _ _

/-- Writing one publisher moves that one and no other. -/
theorem publisherMove_set {id' : PublisherId} (h : r'.publishers = (r.setPublisher id' state).publishers)
    (hm : PublisherMove r id' op (r.publishers[id']?) (some state)) :
    PublisherMove r id op (r.publishers[id]?) (r'.publishers[id]?) := by
  rw [h, setPublisher_publishers]
  split
  · next he =>
    subst he
    exact hm
  · exact .unmoved _ _

theorem sameStanding_setWatermark (publisher : PublisherStateInternal)
    (watermark : PublisherWatermark) : SameStanding publisher (setWatermark publisher watermark) :=
  ⟨rfl, rfl, rfl, rfl⟩

theorem sameStanding_noteRejected (publisher : PublisherStateInternal)
    (watermark : PublisherWatermark) : SameStanding publisher (noteRejected publisher watermark) :=
  ⟨rfl, rfl, rfl, rfl⟩

theorem registerPublisherLocked_move (r : Impl) (now : Timestamp) (identity : PublisherIdentity)
    (adapter : Text) (op : Op) (hreq : identity.boot.valid = false → op.Requests identity.id)
    (id : PublisherId) :
    PublisherMove r id op (r.publishers[id]?)
      ((r.registerPublisherLocked now identity adapter).2.publishers[id]?) := by
  have h := registers r now identity adapter
  generalize r.registerPublisherLocked now identity adapter = out at h
  cases h with
  | refused => exact .unmoved _ _
  | first result valid bounded unknown room accepted assigned =>
    refine publisherMove_set rfl ?_
    rw [unknown]
    exact .first _ now adapter
  | fresh result state valid bounded known unfenced request accepted assigned =>
    refine publisherMove_set rfl ?_
    rw [known]
    exact .fresh _ now adapter state unfenced (hreq request)
  | reaffirmed result state valid bounded known unfenced request live boot accepted assigned =>
    refine publisherMove_set rfl ?_
    rw [known]
    exact .reaffirmed _ adapter state unfenced (boot ▸ request) (boot ▸ live)

variable [StdLib]

theorem sameStanding_noteAccepted (publisher : PublisherStateInternal)
    (watermark : PublisherWatermark) (q : Publication) :
    SameStanding publisher (noteAccepted publisher watermark q) :=
  ⟨rfl, rfl, rfl, rfl⟩

theorem settle_publishers (r : Impl) (publisher : PublisherStateInternal)
    (watermark : PublisherWatermark) (q : Publication) (result : ApplyResult) :
    ∃ publisher', SameStanding publisher publisher' ∧
      (r.settle publisher watermark q result).2.publishers =
        (r.setPublisher q.publisher.id publisher').publishers := by
  unfold settle
  split
  · refine ⟨_, sameStanding_noteAccepted publisher watermark q, ?_⟩
    dsimp only
    split <;> split <;> rfl
  · exact ⟨_, sameStanding_noteRejected publisher watermark, rfl⟩

theorem applyLocked_move (r : Impl) (now : Timestamp) (publication : Publication) (op : Op)
    (id : PublisherId) :
    PublisherMove r id op (r.publishers[id]?)
      ((r.applyLocked now publication).2.publishers[id]?) := by
  have h := ingested r now publication
  generalize r.applyLocked now publication = out at h
  cases h with
  | schema q running prepared kind =>
    unfold applySchema
    split
    · exact .unmoved _ _
    · next bound hb =>
      obtain ⟨-, -, -, -, rfl⟩ := registerCapabilitySchemaLocked_eq_ok hb
      exact .unmoved _ _
  | registration q running prepared kind =>
    have hv := (prepare_eq_ok prepared).valid
    simp only [validatePublication, status_bind_eq_ok, require_eq_ok] at hv
    have hm := registerPublisherLocked_move r now q.publisher q.reason op
      (fun hb => by simp [hv.2.1] at hb) id
    unfold applyRegistration
    dsimp only
    split <;> exact hm
  | repeated q publisher result addressed authority verdict accepted =>
    refine publisherMove_set rfl ?_
    rw [addressed.registered]
    exact .noted _ _ _ (sameStanding_setWatermark _ _)
  | unsequenced q publisher result addressed authority verdict refused =>
    refine publisherMove_set rfl ?_
    rw [addressed.registered]
    exact .noted _ _ _ (sameStanding_noteRejected _ _)
  | handled q publisher addressed authority verdict =>
    obtain ⟨publisher', hs, hp⟩ := settle_publishers (r.applyPayload q).2 publisher
      (openWatermark publisher q.publisher) q (r.applyPayload q).1
    have hr : ((r.applyPayload q).2.setPublisher q.publisher.id publisher').publishers =
        (r.setPublisher q.publisher.id publisher').publishers := by
      simp only [setPublisher, (Impl.handled r q).sameAuthority.publishers]
    refine publisherMove_set (hp.trans hr) ?_
    rw [addressed.registered]
    exact .noted _ _ _ hs
  | _ => exact .unmoved _ _

/-- Every call that restores nothing moves each publisher in one of these ways. -/
theorem publisherMove (r : Impl) (op : Op) (h : ¬ r.Restores op) (id : PublisherId) :
    PublisherMove r id op (r.publishers[id]?) ((r.after op).publishers[id]?) := by
  cases op with
  | registerCapabilitySchema schema =>
    simp only [after, step, registerCapabilitySchema]
    split
    · exact .unmoved _ _
    · next bound hb =>
      obtain ⟨-, -, -, -, rfl⟩ := registerCapabilitySchemaLocked_eq_ok hb
      exact .unmoved _ _
  | registerPublisher now identity adapter =>
    simp only [after, step, registerPublisher]
    split
    · exact .unmoved _ _
    · exact registerPublisherLocked_move r now identity adapter (.registerPublisher now identity adapter)
        (fun hb => ⟨rfl, hb⟩) id
  | fencePublisher publisher reason =>
    simp only [after, step, fencePublisher]
    split
    · exact .unmoved _ _
    · next state hs =>
      split
      · exact .unmoved _ _
      · next hf =>
        refine publisherMove_set rfl ?_
        rw [hs]
        exact .fenced reason state (by simpa using hf)
  | retirePublisherBoot publisher boot reason =>
    simp only [after, step, retirePublisherBoot]
    split
    · exact .unmoved _ _
    · next state hs =>
      split
      · exact .unmoved _ _
      · next hv =>
        split
        · exact .unmoved _ _
        · next hl =>
          refine publisherMove_set rfl ?_
          rw [hs]
          exact .retired boot reason state (by simpa using hv) (by simpa using hl)
  | resetPublisherLiveness reason =>
    have hg : (r.after (.resetPublisherLiveness reason)).publishers[id]? =
        (r.publishers[id]?).map (resetState reason) := Std.ExtTreeMap.getElem?_map
    rw [hg]
    cases r.publishers[id]? with
    | none => exact .unmoved _ _
    | some state => exact .reset reason state
  | apply now publication => exact applyLocked_move r now publication _ id
  | snapshot =>
    simp only [after, step, takeSnapshot]
    split <;> exact .unmoved _ _
  | setCoordinatorEpoch epoch =>
    simp only [after, step, setCoordinatorEpoch]
    repeat' split
    all_goals exact .unmoved _ _
  | importDurableState durable =>
    have hi : r.importDurableState durable =
        ((r.importDurableState durable).1, r.after (.importDurableState durable)) := rfl
    cases ho : (r.importDurableState durable).1 with
    | error e =>
      obtain ⟨serial, hr⟩ := importDurableState_eq_error (hi.trans (by rw [ho]))
      rw [hr]
      exact .unmoved _ _
    | ok report => exact (h ⟨durable, report, _, rfl, hi.trans (by rw [ho])⟩).elim
  | _ => exact .unmoved _ _

end Impl

end CapabilityRegistry
