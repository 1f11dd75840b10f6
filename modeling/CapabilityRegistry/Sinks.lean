import CapabilityRegistry.Attendance
import CapabilityRegistry.Lifetimes
import CapabilityRegistry.Registration

/-! The in-process evidence sink: which of the identities it hands out the registry lets in. -/
namespace CapabilityRegistry

/-- A sink and the registry it writes to. The sink keeps the identity it was first assigned. -/
structure LocalEvidenceSink where
  registry : Impl
  assigned : Std.ExtTreeMap PublisherId PublisherIdentity := ∅

/-- A call of the sink, or a call of its registry by anyone else. -/
inductive SinkOp
  | ensurePublisher (now : Timestamp) (identity : PublisherIdentity) (adapter : Text)
  | publish (now : Timestamp) (publication : Publication)
  | call (op : Op)

namespace LocalEvidenceSink

def ensurePublisher (sink : LocalEvidenceSink) (now : Timestamp) (identity : PublisherIdentity)
    (adapter : Text) : ApplyResult × LocalEvidenceSink :=
  match sink.assigned[identity.id]? with
  | some existing =>
    let (reaffirmed, registry) := sink.registry.registerPublisher now existing adapter
    if reaffirmed.accepted || reaffirmed.code == .acceptedIdempotent then
      ({ code := .accepted
         assignedPublisher := existing
         detail := "publisher identity reused by this process" }, { sink with registry })
    else (reaffirmed, { sink with registry })
  | none =>
    let (registered, registry) := sink.registry.registerPublisher now identity adapter
    if registered.accepted then
      (registered, { registry, assigned :=
        sink.assigned.insertIfNew identity.id registered.assignedPublisher })
    else (registered, { sink with registry })

variable [StdLib]

def publish (sink : LocalEvidenceSink) (now : Timestamp) (publication : Publication) :
    ApplyResult × LocalEvidenceSink :=
  (sink.registry.applyLocked now publication).map id fun registry => { sink with registry }

def after (sink : LocalEvidenceSink) : SinkOp → LocalEvidenceSink
  | .ensurePublisher now identity adapter => (sink.ensurePublisher now identity adapter).2
  | .publish now publication => (sink.publish now publication).2
  | .call op => { sink with registry := sink.registry.after op }

/-- The identity the sink registers for a requested one. -/
def requested (sink : LocalEvidenceSink) (identity : PublisherIdentity) : PublisherIdentity :=
  (sink.assigned[identity.id]?).getD identity

/-- What a call does to the registry. -/
def effect (sink : LocalEvidenceSink) : SinkOp → Op
  | .ensurePublisher now identity adapter =>
    .registerPublisher now (sink.requested identity) adapter
  | .publish now publication => .apply now publication
  | .call op => op

variable {sink : LocalEvidenceSink} {now : Timestamp} {identity : PublisherIdentity}
  {adapter : Text} {op : SinkOp}

omit [StdLib] in
theorem ensurePublisher_registry : (sink.ensurePublisher now identity adapter).2.registry =
    (sink.registry.registerPublisher now (sink.requested identity) adapter).2 := by
  unfold ensurePublisher requested
  cases sink.assigned[identity.id]? with
  | none =>
    dsimp only [Option.getD_none]
    split <;> rfl
  | some existing =>
    dsimp only [Option.getD_some]
    split <;> rfl

theorem after_registry : (sink.after op).registry = sink.registry.after (sink.effect op) := by
  cases op with
  | ensurePublisher now identity adapter => exact ensurePublisher_registry
  | publish now publication => rfl
  | call op => rfl

end LocalEvidenceSink

/-- The call advances the epoch, gives the publisher a fresh boot, fences it, or retires its boot.
An import and a reset of liveness do so for all publishers. -/
def Op.Disturbs (identity : PublisherIdentity) : Op → Prop
  | .advanceCoordinatorEpoch | .setCoordinatorEpoch _ | .resetPublisherLiveness _
  | .importDurableState _ => True
  | .registerPublisher _ request _ => request.id = identity.id ∧ request.boot.valid = false
  | .fencePublisher publisher _ => publisher = identity.id
  | .retirePublisherBoot publisher boot _ => publisher = identity.id ∧ boot = identity.boot
  | _ => False

namespace Impl
variable [StdLib] {r r' : Impl} {op : Op} {identity : PublisherIdentity} {now : Timestamp}
  {publication : Publication} {s : PublisherStateInternal} {id : PublisherId}

/-- Some publication bound to the identity is refused for a fence, its boot or its epoch. -/
def Denies (r : Impl) (identity : PublisherIdentity) : Prop :=
  ∃ now publication, publication.publisher = identity ∧
    (r.applyLocked now publication).1.code.deniesSender = true

/-- The registry holds the publisher under the boot and the epoch of the identity. -/
def Honours (r : Impl) (identity : PublisherIdentity) : Prop :=
  ∃ s, r.publishers[identity.id]? = some s ∧ r.Authorized s { publisher := identity }

theorem Honours.not_denies (h : r.Honours identity) : ¬ r.Denies identity := by
  obtain ⟨s, hs, ha⟩ := h
  rintro ⟨now, publication, rfl, hdenied⟩
  have hlet := applyLocked_of_authorized hs ⟨ha.unfenced, ha.liveBoot, ha.boot, ha.epoch⟩ now
  rw [hlet] at hdenied
  cases hdenied

/-- Without a boot an identity does not get as far as the authority checks. -/
theorem not_denies_of_invalid (h : identity.boot.valid = false) : ¬ r.Denies identity := by
  rintro ⟨now, publication, rfl, hdenied⟩
  rw [applyLocked] at hdenied
  split at hdenied
  · cases hdenied
  · split at hdenied
    · next refusal hp =>
      have hcode := (by decide : ∀ code ∈ _, ApplyCode.deniesSender code = false) _
        (prepare_error_code hp)
      rw [hcode] at hdenied
      cases hdenied
    · next q hp =>
      have hq := prepare_eq_ok hp
      have hv := hq.valid
      simp only [validatePublication, status_bind_eq_ok, require_eq_ok] at hv
      rw [hq.publisher, h] at hv
      cases hv.2.1

/-- An identity that a running registry does not honour has its heartbeat refused. -/
theorem denies_of_not_authorized (hrun : r.shuttingDown = false) (hid : identity.id.valid = true)
    (hboot : identity.boot.valid = true) (hs : r.publishers[identity.id]? = some s)
    (ha : ¬ r.Authorized s { publisher := identity }) : r.Denies identity := by
  let beat : Publication := { kind := .heartbeat, publisher := identity }
  have hp : r.prepare beat = .ok (bindPublisher beat) := by
    refine checkPublication_eq_ok.mpr ⟨rfl, ?_⟩
    simp only [validatePublication, status_bind_eq_ok, require_eq_ok]
    exact ⟨hid, hboot, decide_eq_true (Nat.zero_le _), decide_eq_true (Nat.zero_le _), rfl⟩
  have hkind : (bindPublisher beat).kind = .heartbeat := rfl
  have hreg : r.publishers[(bindPublisher beat).publisher.id]? = some s := hs
  cases href : r.authorityRefusal s (bindPublisher beat) with
  | none =>
    have hauth := authorityRefusal_eq_none_iff.mp href
    exact (ha ⟨hauth.unfenced, hauth.liveBoot, hauth.boot, hauth.epoch⟩).elim
  | some refusal =>
    have hcode := (by decide : ∀ code ∈ _, ApplyCode.deniesSender code = true) _
      (authorityRefusal_code href)
    refine ⟨Sample.now, beat, rfl, ?_⟩
    have hlocked : r.applyLocked Sample.now beat = (refusal, r.countRejected) := by
      simp [applyLocked, hrun, hp, hkind, hreg, applySequenced, href]
    rw [hlocked]
    exact hcode

omit [StdLib] in
theorem registerPublisherLocked_shuttingDown (r : Impl) (now : Timestamp)
    (identity : PublisherIdentity) (adapter : Text) :
    (r.registerPublisherLocked now identity adapter).2.shuttingDown = r.shuttingDown := by
  have h := registers r now identity adapter
  generalize r.registerPublisherLocked now identity adapter = out at h
  cases h <;> rfl

omit [StdLib] in
theorem PublisherMove.authorized {y : Option PublisherStateInternal}
    (h : PublisherMove r identity.id op (some s) y) (hop : ¬ op.Disturbs identity)
    (ha : r.Authorized s { publisher := identity }) :
    ∃ s', y = some s' ∧ r.Authorized s' { publisher := identity } := by
  obtain ⟨hf, hl, hb, he⟩ := ha
  cases h with
  | unmoved => exact ⟨s, rfl, hf, hl, hb, he⟩
  | fresh op now adapter state unfenced request =>
    cases op with
    | registerPublisher => exact (hop request).elim
    | _ => exact request.elim
  | reaffirmed op adapter state unfenced valid live => exact ⟨_, rfl, hf, hl, hb, he⟩
  | fenced reason state unfenced => exact (hop rfl).elim
  | retired boot reason state valid live =>
    refine ⟨_, rfl, hf, fun hm => ?_, ?_, he⟩
    · rcases Std.ExtTreeSet.mem_insert.mp hm with heq | hm
      · exact hop ⟨rfl, Std.LawfulEqOrd.eq_of_compare heq⟩
      · exact hl hm
    · rw [retireState_identity]
      exact hb
  | reset reason state => exact (hop trivial).elim
  | noted op state state' same =>
    refine ⟨_, rfl, same.publisherFenced.trans hf, ?_, ?_, he⟩
    · rw [same.fencedBoots]
      exact hl
    · rw [same.identity]
      exact hb

theorem Honours.after (h : r.Honours identity) (hop : ¬ op.Disturbs identity) :
    (r.after op).Honours identity := by
  obtain ⟨s, hs, ha⟩ := h
  have hrestores : ¬ r.Restores op := by
    rintro ⟨state, -, -, rfl, -⟩
    exact hop trivial
  have hepoch : (r.after op).epoch = r.epoch := by
    refine epoch_kept ?_ ?_ ?_
    · rintro state rfl
      exact hop trivial
    · rintro rfl
      exact hop trivial
    · rintro epoch rfl
      exact hop trivial
  have hmove := publisherMove r op hrestores identity.id
  rw [hs] at hmove
  obtain ⟨s', hs', ha'⟩ := hmove.authorized hop ha
  exact ⟨s', hs', ha'.unfenced, ha'.liveBoot, ha'.boot, ha'.epoch.trans hepoch.symm⟩

omit [StdLib] in
/-- The first registration of a publisher that asks for a boot asks for the first. -/
theorem boot_of_first {adapter : Text} (hs : r.publishers[identity.id]? = none)
    (hv : identity.boot.valid = true)
    (h : (r.registerPublisherLocked now identity adapter).1.accepted = true) :
    identity.boot = .first := by
  unfold registerPublisherLocked at h
  split at h
  · cases h
  · split at h
    · cases h
    · rw [hs] at h
      dsimp only at h
      split at h
      · cases h
      · split at h
        · cases h
        · next hboot =>
          rw [hv, Bool.true_and, decide_eq_true_eq, UInt64.not_lt] at hboot
          rw [Gen.valid, bne_iff_ne] at hv
          refine Gen.ext ?_
          change identity.boot.value = 1
          grind

/-- Publishers are entered under their own identifiers. -/
def Entered (r : Impl) : Prop :=
  ∀ (id : PublisherId) (s : PublisherStateInternal), r.publishers[id]? = some s →
    s.record.identity.id = id

theorem Entered.after (h : r.Entered) (op : Op) : (r.after op).Entered := by
  intro id s hs
  by_cases hop : r.Restores op
  · obtain ⟨state, report, r', rfl, hi⟩ := hop
    obtain ⟨staged, him, -, rfl⟩ := importDurableState_eq_ok.mp hi
    have hafter : r.after (.importDurableState state) = r.commit state staged := congrArg Prod.snd hi
    rw [hafter] at hs
    exact (named_commit him id s hs).1
  · have hmove := publisherMove r op hop id
    rw [hs] at hmove
    generalize hx : r.publishers[id]? = x at hmove
    cases hmove with
    | unmoved => exact h id s hx
    | first => rfl
    | fresh op now adapter state => exact (h id state hx : state.record.identity.id = id)
    | reaffirmed op adapter state => exact (h id state hx : state.record.identity.id = id)
    | fenced reason state => exact (h id state hx : state.record.identity.id = id)
    | retired boot reason state =>
      rw [retireState_identity]
      exact h id state hx
    | reset reason state =>
      rw [resetState_identity]
      exact h id state hx
    | noted op state state' same =>
      rw [same.identity]
      exact h id state hx

end Impl

/-- The boot that a fresh registration of a known publisher is given. -/
def PublisherStateInternal.nextBoot (s : PublisherStateInternal) : PublisherBootId :=
  if s.record.identity.boot.valid then s.record.identity.boot.next else .first

theorem nextBoot_mem_freshBoot {r : Impl} {now : Timestamp} {adapter : Text}
    {s : PublisherStateInternal} :
    s.nextBoot ∈ (r.freshBoot now adapter s).fencedBoots ↔ s.nextBoot ∈ s.fencedBoots := by
  constructor
  · intro hm
    simp only [Impl.freshBoot] at hm
    split at hm
    · next hv =>
      refine (Std.ExtTreeSet.mem_insert.mp hm).resolve_left fun he => ?_
      have hsame := Std.LawfulEqOrd.eq_of_compare he
      rw [PublisherStateInternal.nextBoot, if_pos hv] at hsame
      exact Impl.next_ne _ hsame.symm
    · exact hm
  · exact fun hm => Impl.mem_insert_if hm

namespace Impl
variable {r : Impl} {now : Timestamp} {identity : PublisherIdentity} {adapter : Text}

/-- An identity that a registration assigned is let in unless its boot was retired in advance. -/
theorem assigned_authorized_iff (he : r.Entered)
    (h : (r.registerPublisherLocked now identity adapter).1.accepted = true) :
    ∃ assigned s', (r.registerPublisherLocked now identity adapter).1.assignedPublisher = assigned ∧
      assigned.id = identity.id ∧ identity.id.valid = true ∧
      (r.registerPublisherLocked now identity adapter).2.publishers[assigned.id]? = some s' ∧
      ((assigned.boot.valid = true → (r.registerPublisherLocked now identity adapter).2.Authorized s'
        { publisher := assigned }) ↔
        ∀ s, r.publishers[identity.id]? = some s → identity.boot.valid = false →
          s.nextBoot.valid = true → s.nextBoot ∉ s.fencedBoots) := by
  have hr := registers r now identity adapter
  generalize r.registerPublisherLocked now identity adapter = out at h hr
  cases hr with
  | refused result refused =>
    rw [refused] at h
    cases h
  | first result valid bounded unknown room accepted assigned =>
    refine ⟨_, _, assigned, rfl, valid, OrdMap.getElem?_insert_self _ _ _, iff_of_true ?_ ?_⟩
    · exact fun _ => ⟨rfl, by simp [newPublisher], rfl, rfl⟩
    · intro s hs
      rw [unknown] at hs
      cases hs
  | fresh result state valid bounded known unfenced request accepted assigned =>
    have hid : (r.freshBoot now adapter state).record.identity.id = identity.id :=
      (he _ _ known : state.record.identity.id = identity.id)
    refine ⟨_, r.freshBoot now adapter state, assigned, hid, valid, ?_, ?_⟩
    · rw [hid]
      exact OrdMap.getElem?_insert_self _ _ _
    · constructor
      · intro ha s hs _ hnext hm
        obtain rfl := Option.some.inj (known.symm.trans hs)
        exact (ha hnext).liveBoot (nextBoot_mem_freshBoot.mpr hm)
      · intro hcond hnext
        refine ⟨unfenced, fun hm => ?_, rfl, rfl⟩
        exact hcond state known request hnext (nextBoot_mem_freshBoot.mp hm)
  | reaffirmed result state valid bounded known unfenced request live boot accepted assigned =>
    have hid : (r.reaffirm adapter state).record.identity.id = identity.id :=
      (he _ _ known : state.record.identity.id = identity.id)
    refine ⟨_, r.reaffirm adapter state, assigned, hid, valid, ?_, iff_of_true ?_ ?_⟩
    · rw [hid]
      exact OrdMap.getElem?_insert_self _ _ _
    · exact fun _ => ⟨unfenced, boot.symm ▸ live, rfl, rfl⟩
    · intro s _ hrequest
      rw [request] at hrequest
      cases hrequest

/-- An identity that is registered again as it is is let in if it is of the current epoch. -/
theorem reaffirmed_authorized_iff
    (h : (r.registerPublisherLocked now identity adapter).1.accepted = true) :
    ∃ s', identity.id.valid = true ∧
      (r.registerPublisherLocked now identity adapter).2.publishers[identity.id]? = some s' ∧
      ((identity.boot.valid = true → (r.registerPublisherLocked now identity adapter).2.Authorized s'
        { publisher := identity }) ↔ (identity.boot.valid = true → identity.epoch = r.epoch)) := by
  have hfirst := fun hs hv => @boot_of_first r identity now adapter hs hv h
  have hr := registers r now identity adapter
  generalize r.registerPublisherLocked now identity adapter = out at h hr
  cases hr with
  | refused result refused =>
    rw [refused] at h
    cases h
  | first result valid bounded unknown room accepted assigned =>
    refine ⟨_, valid, OrdMap.getElem?_insert_self _ _ _, forall_congr' fun hv => ?_⟩
    exact ⟨fun ha => ha.epoch, fun he => ⟨rfl, by simp [newPublisher], (hfirst unknown hv).symm, he⟩⟩
  | fresh result state valid bounded known unfenced request accepted assigned =>
    refine ⟨_, valid, OrdMap.getElem?_insert_self _ _ _, forall_congr' fun hv => ?_⟩
    rw [request] at hv
    cases hv
  | reaffirmed result state valid bounded known unfenced request live boot accepted assigned =>
    refine ⟨_, valid, OrdMap.getElem?_insert_self _ _ _, forall_congr' fun hv => ?_⟩
    exact ⟨fun ha => ha.epoch, fun he => ⟨unfenced, live, boot, he⟩⟩

end Impl

theorem accepted_or_idempotent (result : ApplyResult) :
    (result.accepted || result.code == .acceptedIdempotent) = result.accepted := by
  unfold ApplyResult.accepted applyCodeAccepted
  cases result.code <;> rfl

namespace LocalEvidenceSink
variable [StdLib] {sink : LocalEvidenceSink} {now : Timestamp} {identity : PublisherIdentity}
  {adapter : Text} {op : SinkOp} {s : PublisherStateInternal}

/-- Publishers and assigned identities are entered under their own identifiers. -/
structure Sound (sink : LocalEvidenceSink) : Prop where
  entered : sink.registry.Entered
  assigned : ∀ (id : PublisherId) (identity : PublisherIdentity),
    sink.assigned[id]? = some identity → identity.id = id

/-- What an accepted answer comes from. -/
structure Answered (sink : LocalEvidenceSink) (now : Timestamp) (identity : PublisherIdentity)
    (adapter : Text) (out : ApplyResult × LocalEvidenceSink) : Prop where
  running : sink.registry.shuttingDown = false
  accepted : (sink.registry.registerPublisherLocked now (sink.requested identity)
    adapter).1.accepted = true
  registry : out.2.registry =
    (sink.registry.registerPublisherLocked now (sink.requested identity) adapter).2
  answer : out.1.assignedPublisher = (sink.assigned[identity.id]?).getD
    (sink.registry.registerPublisherLocked now identity adapter).1.assignedPublisher

omit [StdLib] in
theorem answered (h : (sink.ensurePublisher now identity adapter).1.accepted = true) :
    Answered sink now identity adapter (sink.ensurePublisher now identity adapter) := by
  have haccepted : (sink.registry.registerPublisher now (sink.requested identity)
      adapter).1.accepted = true := by
    unfold requested
    cases hc : sink.assigned[identity.id]? with
    | none =>
      simp only [ensurePublisher, hc] at h
      split at h
      · next ha => exact ha
      · exact h
    | some existing =>
      simp only [ensurePublisher, hc, accepted_or_idempotent] at h
      split at h
      · next ha => exact ha
      · exact h
  have heq := Impl.registerPublisher_of_accepted haccepted
  have hrun : sink.registry.shuttingDown = false := by
    by_contra hdown
    rw [Impl.registerPublisher, if_pos (Bool.eq_true_of_not_eq_false hdown)] at haccepted
    cases haccepted
  refine ⟨hrun, heq ▸ haccepted, ensurePublisher_registry.trans (congrArg Prod.snd heq), ?_⟩
  unfold requested at haccepted heq
  cases hc : sink.assigned[identity.id]? with
  | none =>
    rw [hc, Option.getD_none] at haccepted heq
    rw [heq] at haccepted
    simp only [ensurePublisher, hc, heq, if_pos haccepted, Option.getD_none]
  | some existing =>
    rw [hc, Option.getD_some] at haccepted
    simp only [ensurePublisher, hc, accepted_or_idempotent, if_pos haccepted, Option.getD_some]

omit [StdLib] in
/-- The sink keeps what it was assigned, and adds the answer to a first request. -/
theorem ensurePublisher_assigned (sink : LocalEvidenceSink) (now : Timestamp)
    (identity : PublisherIdentity) (adapter : Text) :
    (sink.ensurePublisher now identity adapter).2.assigned = sink.assigned ∨
      ((sink.registry.registerPublisher now identity adapter).1.accepted = true ∧
        (sink.ensurePublisher now identity adapter).2.assigned =
          sink.assigned.insertIfNew identity.id
            (sink.registry.registerPublisher now identity adapter).1.assignedPublisher) := by
  cases hc : sink.assigned[identity.id]? with
  | none =>
    simp only [ensurePublisher, hc]
    split
    · next ha => exact .inr ⟨ha, rfl⟩
    · exact .inl rfl
  | some existing =>
    refine .inl ?_
    simp only [ensurePublisher, hc]
    split <;> rfl

/-- Until one of the disturbing calls, no publication bound to the identity is refused for a fence,
its boot or its epoch. -/
def Lasting (sink : LocalEvidenceSink) (identity : PublisherIdentity) : Prop :=
  ∀ ops, Machine.Along after (fun sink op => ¬ (sink.effect op).Disturbs identity) sink ops →
    ¬ (ops.foldl after sink).registry.Denies identity

theorem lasting_iff (hrun : sink.registry.shuttingDown = false)
    (hid : identity.id.valid = true) (hs : sink.registry.publishers[identity.id]? = some s) :
    sink.Lasting identity ↔ (identity.boot.valid = true →
      sink.registry.Authorized s { publisher := identity }) := by
  constructor
  · intro h hboot
    by_contra ha
    exact h [] trivial (Impl.denies_of_not_authorized hrun hid hboot hs ha)
  · intro h ops hops
    by_cases hboot : identity.boot.valid = true
    · have hkeep : ∀ (sink : LocalEvidenceSink) op, sink.registry.Honours identity →
          ¬ (sink.effect op).Disturbs identity → (sink.after op).registry.Honours identity := by
        intro sink op hh hop
        rw [after_registry]
        exact hh.after hop
      exact (hops.invariant (P := fun sink : LocalEvidenceSink => sink.registry.Honours identity)
        ⟨s, hs, h hboot⟩ hkeep).not_denies
    · exact Impl.not_denies_of_invalid (Bool.eq_false_iff.mpr hboot)

/-- The identity the sink keeps for the publisher is of the current epoch; where it keeps none and a
fresh boot is asked for, that boot was not retired in advance. -/
def InStep (sink : LocalEvidenceSink) (identity : PublisherIdentity) : Prop :=
  match sink.assigned[identity.id]? with
  | some existing => existing.boot.valid = true → existing.epoch = sink.registry.epoch
  | none => ∀ s : PublisherStateInternal, sink.registry.publishers[identity.id]? = some s →
    identity.boot.valid = false → s.nextBoot.valid = true → s.nextBoot ∉ s.fencedBoots

theorem sound_after (h : sink.Sound) (op : SinkOp) : (sink.after op).Sound := by
  constructor
  · rw [after_registry]
    exact h.entered.after _
  · cases op with
    | publish now publication => exact h.assigned
    | call op => exact h.assigned
    | ensurePublisher now identity adapter =>
      intro id assigned hs
      change (sink.ensurePublisher now identity adapter).2.assigned[id]? = some assigned at hs
      rcases ensurePublisher_assigned sink now identity adapter with hsame | ⟨haccepted, hadded⟩
      · rw [hsame] at hs
        exact h.assigned id assigned hs
      · rw [hadded, OrdMap.getElem?_insertIfNew_eq] at hs
        have heq := Impl.registerPublisher_of_accepted haccepted
        rw [heq] at haccepted hs
        obtain ⟨granted, -, hgranted, hid, -⟩ :=
          Impl.assigned_authorized_iff h.entered haccepted
        split at hs
        · next he =>
          subst he
          cases hc : sink.assigned[identity.id]? with
          | none =>
            rw [hc, Option.getD_none, hgranted] at hs
            obtain rfl := Option.some.inj hs
            exact hid
          | some kept =>
            rw [hc, Option.getD_some] at hs
            obtain rfl := Option.some.inj hs
            exact h.assigned _ _ hc
        · exact h.assigned id assigned hs

/-- In every state of a run, an accepted answer is an identity that the registry lets in until the
next disturbing call exactly if what the sink keeps is in step with the registry. -/
theorem ensured_identity_is_let_in_iff {limits : RegistryLimits} {ops : List SinkOp}
    (h : ((ops.foldl after { registry := .fresh limits }).ensurePublisher now identity
      adapter).1.accepted = true) :
    ((ops.foldl after { registry := .fresh limits }).ensurePublisher now identity adapter).2.Lasting
        ((ops.foldl after { registry := .fresh limits }).ensurePublisher now identity
          adapter).1.assignedPublisher ↔
      (ops.foldl after { registry := .fresh limits }).InStep identity := by
  have hsound : (ops.foldl after { registry := .fresh limits }).Sound := by
    refine Machine.run_invariant (P := Sound) ⟨?_, ?_⟩ (fun sink op h => sound_after h op) ops
    · intro id s hs
      simp [Impl.fresh] at hs
    · intro id identity hs
      simp at hs
  generalize ops.foldl after { registry := .fresh limits } = sink at h hsound ⊢
  have ha := answered h
  generalize sink.ensurePublisher now identity adapter = out at ha ⊢
  have hrun : out.2.registry.shuttingDown = false := by
    rw [ha.registry, Impl.registerPublisherLocked_shuttingDown]
    exact ha.running
  cases hc : sink.assigned[identity.id]? with
  | none =>
    have hreq : sink.requested identity = identity := by rw [requested, hc, Option.getD_none]
    have hregistry := hreq ▸ ha.registry
    obtain ⟨assigned, s', hassigned, hid, hv, hs', hiff⟩ :=
      Impl.assigned_authorized_iff hsound.entered (hreq ▸ ha.accepted)
    have hanswer : out.1.assignedPublisher = assigned := by
      rw [ha.answer, hc, Option.getD_none, hassigned]
    rw [← hregistry] at hs' hiff
    rw [hanswer, lasting_iff hrun (hid ▸ hv) hs', hiff]
    simp only [InStep, hc]
  | some existing =>
    have hreq : sink.requested identity = existing := by rw [requested, hc, Option.getD_some]
    have hregistry := hreq ▸ ha.registry
    obtain ⟨s', hv, hs', hiff⟩ := Impl.reaffirmed_authorized_iff (hreq ▸ ha.accepted)
    have hanswer : out.1.assignedPublisher = existing := by rw [ha.answer, hc, Option.getD_some]
    rw [← hregistry] at hs' hiff
    rw [hanswer, lasting_iff hrun hv hs', hiff]
    simp only [InStep, hc]

section Samples

/-- A request for a publisher through the sink. -/
def ensured : SinkOp := .ensurePublisher Sample.now Sample.request "adapter"

omit [StdLib] in
/-- A second request in the same epoch. -/
theorem ensured_identity_is_let_in_iff_again :
    letI := StdLib.reference
    (([ensured].foldl after { registry := .fresh {} }).ensurePublisher Sample.now Sample.request
      "adapter").2.Lasting (([ensured].foldl after { registry := .fresh {} }).ensurePublisher
        Sample.now Sample.request "adapter").1.assignedPublisher := by
  let := StdLib.reference
  refine (@ensured_identity_is_let_in_iff _ _ _ _ _ [ensured] (by decide)).mpr ?_
  have hkept : (([ensured].foldl after { registry := .fresh {} }).assigned[Sample.request.id]?).map
      PublisherIdentity.epoch = some ([ensured].foldl after { registry := .fresh {} }).registry.epoch := by
    decide
  obtain ⟨existing, hexisting, hepoch⟩ := Option.map_eq_some_iff.mp hkept
  simp only [InStep, hexisting]
  exact fun _ => hepoch

omit [StdLib] in
/-- After the epoch has advanced the sink answers with an identity that the registry turns away. -/
theorem reused_identity_is_stale :
    letI := StdLib.reference
    let out := ([ensured, .call .advanceCoordinatorEpoch].foldl after
      { registry := .fresh {} }).ensurePublisher Sample.now Sample.request "adapter"
    out.1.accepted = true ∧
      (out.2.publish Sample.now { kind := .heartbeat, publisher := out.1.assignedPublisher
                                  sequence := 1 }).1.code = .rejectedStaleEpoch := by
  decide

end Samples

end LocalEvidenceSink

end CapabilityRegistry
