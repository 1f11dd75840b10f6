import CapabilityRegistry.Ledger
import CapabilityRegistry.Rejections

/-! Quirks and compatibility facts: what an accepted publication leaves of them. -/
namespace CapabilityRegistry

section Maps
variable {Tag K V : Type} [Ord K] [Std.TransOrd K] {k : K} {v : V}
  {m m' : Std.ExtTreeMap K V}

/-- How records that are published under generations of their own are kept. -/
structure Keeping (V Tag : Type) where
  generation : V → Gen Tag
  withdrawn : V → Bool
  /-- The record without its source. -/
  content : V → V
  withdrawn_content : ∀ v, withdrawn (content v) = withdrawn v

namespace Keeping
variable {keeping : Keeping V Tag}

/-- What is stored under an identity is not withdrawn and is this record, up to its source. -/
def Stands (keeping : Keeping V Tag) (m : Std.ExtTreeMap K V) (k : K) (v : V) : Prop :=
  ∃ stored, m[k]? = some stored ∧ keeping.withdrawn stored = false ∧
    keeping.content stored = keeping.content v

/-- What is stored under an identity is withdrawn. -/
def Withdrawn (keeping : Keeping V Tag) (m : Std.ExtTreeMap K V) (k : K) : Prop :=
  ∃ stored, m[k]? = some stored ∧ keeping.withdrawn stored = true

/-- A record is not flagged as withdrawn, and whatever is stored in its own generation is the same
and still stands. -/
def Renews (keeping : Keeping V Tag) (m : Std.ExtTreeMap K V) (k : K) (v : V) : Prop :=
  keeping.withdrawn v = false ∧ ∀ stored, m[k]? = some stored →
    keeping.generation stored = keeping.generation v →
      keeping.withdrawn stored = false ∧ keeping.content stored = keeping.content v

/-- What an accepted publication does: it replaces an older generation, or keeps its own. -/
inductive Enters (keeping : Keeping V Tag) (m : Std.ExtTreeMap K V) (k : K) (v : V) :
    Std.ExtTreeMap K V → Prop
  | newer (older : ∀ stored, m[k]? = some stored →
      keeping.generation stored ≠ keeping.generation v) : Enters keeping m k v (m.insert k v)
  | same (stored : V) (known : m[k]? = some stored)
      (generation : keeping.generation stored = keeping.generation v) : Enters keeping m k v m

theorem Enters.stands_iff (h : keeping.Enters m k v m') :
    keeping.Stands m' k v ↔ keeping.Renews m k v := by
  cases h with
  | newer older =>
    simp only [Stands, Renews, Std.ExtTreeMap.getElem?_insert_self, Option.some.injEq,
      exists_eq_left', and_true]
    exact (and_iff_left fun stored hs hg => (older stored hs hg).elim).symm
  | same stored known generation =>
    simp only [Stands, Renews, known, Option.some.injEq, exists_eq_left', forall_eq', generation,
      true_implies]
    refine ⟨fun h => ⟨?_, h⟩, fun h => h.2⟩
    rw [← keeping.withdrawn_content, ← h.2, keeping.withdrawn_content]
    exact h.1

end Keeping

/-- How quirks are kept. -/
def quirkKeeping : Keeping QuirkRecord QuirkGenerationTag where
  generation := QuirkRecord.quirkGeneration
  withdrawn := QuirkRecord.withdrawn
  content quirk := { quirk with source := {} }
  withdrawn_content _ := rfl

/-- How compatibility facts are kept. -/
def factKeeping : Keeping CompatibilityFact CompatibilityGenerationTag where
  generation := CompatibilityFact.compatibilityGeneration
  withdrawn := CompatibilityFact.withdrawn
  content fact := { fact with source := {} }
  withdrawn_content _ := rfl

end Maps

namespace Impl

section Handlers
variable {r : Impl} {quirk : QuirkRecord} {fact : CompatibilityFact} {q : Publication}

theorem enters_publishQuirk (hacc : (r.publishQuirk quirk).1.accepted = true) :
    quirkKeeping.Enters r.quirks quirk.id quirk (r.publishQuirk quirk).2.quirks := by
  unfold publishQuirk at hacc ⊢
  split at hacc
  · cases hacc
  · next hvalid =>
    rw [if_neg hvalid]
    split at hacc
    · next hu =>
      split at hacc
      · cases hacc
      · next hroom =>
        split at hacc
        · cases hacc
        · next hfirst =>
          rw [if_neg hroom, if_neg hfirst, OrdMap.insertIfNew_of_none _ hu]
          exact .newer fun stored hs => by simp [hu] at hs
    · next existing hk =>
      split at hacc
      · cases hacc
      · next hregress =>
        rw [if_neg hregress]
        split at hacc
        · next hsame =>
          rw [if_pos hsame]
          split at hacc
          · next hcontent =>
            rw [if_pos hcontent]
            exact .same existing hk (beq_iff_eq.mp hsame).symm
          · cases hacc
        · next hnewer =>
          rw [if_neg hnewer]
          refine .newer fun stored hs hg => hnewer ?_
          obtain rfl := Option.some.inj (hk.symm.trans hs)
          exact beq_iff_eq.mpr hg.symm

theorem enters_publishCompatibility (hacc : (r.publishCompatibility fact).1.accepted = true) :
    factKeeping.Enters r.compatibility fact.id fact (r.publishCompatibility fact).2.compatibility := by
  unfold publishCompatibility at hacc ⊢
  split at hacc
  · cases hacc
  · next hvalid =>
    rw [if_neg hvalid]
    split at hacc
    · next hu =>
      split at hacc
      · cases hacc
      · next hroom =>
        split at hacc
        · cases hacc
        · next hfirst =>
          rw [if_neg hroom, if_neg hfirst, OrdMap.insertIfNew_of_none _ hu]
          exact .newer fun stored hs => by simp [hu] at hs
    · next existing hk =>
      split at hacc
      · cases hacc
      · next hregress =>
        rw [if_neg hregress]
        split at hacc
        · next hsame =>
          rw [if_pos hsame]
          split at hacc
          · next hcontent =>
            rw [if_pos hcontent]
            exact .same existing hk (beq_iff_eq.mp hsame).symm
          · cases hacc
        · next hnewer =>
          rw [if_neg hnewer]
          refine .newer fun stored hs hg => hnewer ?_
          obtain rfl := Option.some.inj (hk.symm.trans hs)
          exact beq_iff_eq.mpr hg.symm

theorem withdrawn_withdrawQuirk (hacc : (r.withdrawQuirk quirk).1.accepted = true) :
    quirkKeeping.Withdrawn (r.withdrawQuirk quirk).2.quirks quirk.id := by
  unfold withdrawQuirk at hacc ⊢
  split at hacc
  · cases hacc
  · next existing hk =>
    split
    · next hw => exact ⟨existing, hk, hw⟩
    · exact ⟨_, Std.ExtTreeMap.getElem?_insert_self, rfl⟩

theorem withdrawn_withdrawCompatibility (hacc : (r.withdrawCompatibility fact).1.accepted = true) :
    factKeeping.Withdrawn (r.withdrawCompatibility fact).2.compatibility fact.id := by
  unfold withdrawCompatibility at hacc ⊢
  split at hacc
  · cases hacc
  · next existing hk =>
    split
    · next hw => exact ⟨existing, hk, hw⟩
    · exact ⟨_, Std.ExtTreeMap.getElem?_insert_self, rfl⟩

theorem applyQuirk_of_accepted (hacc : (r.applyQuirk q).1.accepted = true) :
    r.applyQuirk q = if q.kind == .withdrawQuirk then r.withdrawQuirk q.quirk
      else r.publishQuirk q.quirk := by
  unfold applyQuirk at hacc ⊢
  split at hacc
  · cases hacc
  · rfl

theorem applyCompatibility_of_accepted (hacc : (r.applyCompatibility q).1.accepted = true) :
    r.applyCompatibility q = if q.kind == .withdrawCompatibility
      then r.withdrawCompatibility q.compatibility else r.publishCompatibility q.compatibility := by
  unfold applyCompatibility at hacc ⊢
  dsimp only at hacc ⊢
  split at hacc
  · cases hacc
  · next hl =>
    split at hacc
    · cases hacc
    · next hr => rw [if_neg hl, if_neg hr]

theorem accepted_applyQuirk (hacc : (r.applyQuirk q).1.accepted = true) :
    (q.kind = .publishQuirk →
      quirkKeeping.Enters r.quirks q.quirk.id q.quirk (r.applyQuirk q).2.quirks) ∧
    (q.kind = .withdrawQuirk →
      quirkKeeping.Withdrawn (r.applyQuirk q).2.quirks q.quirk.id) := by
  have happly := applyQuirk_of_accepted hacc
  rw [happly] at hacc ⊢
  constructor <;> intro hk <;> simp only [hk] at hacc ⊢
  · exact enters_publishQuirk hacc
  · exact withdrawn_withdrawQuirk hacc

theorem accepted_applyCompatibility (hacc : (r.applyCompatibility q).1.accepted = true) :
    (q.kind = .publishCompatibility →
      factKeeping.Enters r.compatibility q.compatibility.id q.compatibility
        (r.applyCompatibility q).2.compatibility) ∧
    (q.kind = .withdrawCompatibility →
      factKeeping.Withdrawn (r.applyCompatibility q).2.compatibility q.compatibility.id) := by
  have happly := applyCompatibility_of_accepted hacc
  rw [happly] at hacc ⊢
  constructor <;> intro hk <;> simp only [hk] at hacc ⊢
  · exact enters_publishCompatibility hacc
  · exact withdrawn_withdrawCompatibility hacc

end Handlers

section Acceptance
variable [StdLib] {r : Impl} {p q : Publication}

/-- The sequence of a publication lies beyond the watermark of the boot it claims. -/
def Beyond (r : Impl) (p : Publication) : Prop :=
  ∀ publisher ∈ r.publishers[p.publisher.id]?, mark publisher p.publisher.boot < p.sequence

instance (r : Impl) (p : Publication) : Decidable (Beyond r p) :=
  inferInstanceAs (Decidable (∀ publisher ∈ r.publishers[p.publisher.id]?, _))

/-- A publication beyond the watermark is accepted by the handler of its payload. -/
theorem handled_of_accepted (now : Timestamp) (hbeyond : Beyond r p)
    (hkind : p.kind ≠ .registerCapabilitySchema ∧ p.kind ≠ .registerPublisher)
    (hacc : (r.applyLocked now p).1.accepted = true) :
    ∃ q, Prepared r p q ∧ (r.applyPayload q).1.accepted = true ∧
      SameInventory (r.applyPayload q).2 (r.applyLocked now p).2 := by
  have hi := ingested r now p
  generalize r.applyLocked now p = out at hi hacc
  cases hi with
  | shuttingDown result running refused => simp [refused] at hacc
  | unprepared result running unprepared => simp [prepare_eq_error unprepared] at hacc
  | schema q running prepared kind =>
    exact (hkind.1 ((prepare_eq_ok prepared).kind ▸ kind)).elim
  | registration q running prepared kind =>
    exact (hkind.2 ((prepare_eq_ok prepared).kind ▸ kind)).elim
  | unknownPublisher q result running prepared kind unregistered refused => simp [refused] at hacc
  | unauthorized q publisher result addressed refusal =>
    simp [authorityRefusal_eq_some refusal] at hacc
  | unsequenced q publisher result addressed authority verdict refused => simp [refused] at hacc
  | repeated q publisher result addressed authority verdict accepted =>
    have hp := prepare_eq_ok addressed.prepared
    have hlt := hbeyond publisher (hp.publisher ▸ addressed.registered)
    rw [← hp.sequence, ← hp.publisher, (eq_mark_of_verdict verdict accepted).1] at hlt
    exact (UInt64.lt_irrefl _ hlt).elim
  | handled q publisher addressed authority verdict =>
    rw [settle_accepted] at hacc
    exact ⟨q, prepare_eq_ok addressed.prepared, hacc, settle_sameInventory _ _ _ _ _⟩

theorem quirk_of_accepted (now : Timestamp) (hbeyond : Beyond r p)
    (hk : p.kind = .publishQuirk ∨ p.kind = .withdrawQuirk)
    (hacc : (r.applyLocked now p).1.accepted = true) :
    (p.kind = .publishQuirk →
      (quirkKeeping.Stands (r.applyLocked now p).2.quirks p.quirk.id p.quirk ↔
        quirkKeeping.Renews r.quirks p.quirk.id p.quirk)) ∧
    (p.kind = .withdrawQuirk →
      quirkKeeping.Withdrawn (r.applyLocked now p).2.quirks p.quirk.id) := by
  obtain ⟨q, hp, hacc, hinv⟩ := handled_of_accepted now hbeyond
    (by rcases hk with hk | hk <;> simp [hk]) hacc
  have happly : r.applyPayload q = r.applyQuirk q := by
    unfold applyPayload
    rw [hp.kind]
    rcases hk with hk | hk <;> rw [hk]
  rw [happly] at hacc hinv
  have hspec := accepted_applyQuirk hacc
  rw [← hinv.quirks, hp.kind, hp.quirk] at hspec
  exact ⟨fun hk => (hspec.1 hk).stands_iff, hspec.2⟩

theorem fact_of_accepted (now : Timestamp) (hbeyond : Beyond r p)
    (hk : p.kind = .publishCompatibility ∨ p.kind = .withdrawCompatibility)
    (hacc : (r.applyLocked now p).1.accepted = true) :
    (p.kind = .publishCompatibility →
      (factKeeping.Stands (r.applyLocked now p).2.compatibility p.compatibility.id
          p.compatibility ↔
        factKeeping.Renews r.compatibility p.compatibility.id p.compatibility)) ∧
    (p.kind = .withdrawCompatibility →
      factKeeping.Withdrawn (r.applyLocked now p).2.compatibility p.compatibility.id) := by
  obtain ⟨q, hp, hacc, hinv⟩ := handled_of_accepted now hbeyond
    (by rcases hk with hk | hk <;> simp [hk]) hacc
  have happly : r.applyPayload q = r.applyCompatibility q := by
    unfold applyPayload
    rw [hp.kind]
    rcases hk with hk | hk <;> rw [hk]
  rw [happly] at hacc hinv
  have hspec := accepted_applyCompatibility hacc
  rw [← hinv.compatibility, hp.kind, hp.compatibility] at hspec
  exact ⟨fun hk => (hspec.1 hk).stands_iff, hspec.2⟩

/-- What an accepted quirk or compatibility publication leaves, and an accepted withdrawal. -/
structure Enforced (p : Publication) (r : Impl) : Prop where
  quirk : p.kind = .publishQuirk → quirkKeeping.Stands r.quirks p.quirk.id p.quirk
  fact : p.kind = .publishCompatibility →
    factKeeping.Stands r.compatibility p.compatibility.id p.compatibility
  quirkWithdrawn : p.kind = .withdrawQuirk → quirkKeeping.Withdrawn r.quirks p.quirk.id
  factWithdrawn : p.kind = .withdrawCompatibility →
    factKeeping.Withdrawn r.compatibility p.compatibility.id

/-- What is stored already lets a publication come into force. -/
structure Enforceable (r : Impl) (p : Publication) : Prop where
  quirk : p.kind = .publishQuirk → quirkKeeping.Renews r.quirks p.quirk.id p.quirk
  fact : p.kind = .publishCompatibility →
    factKeeping.Renews r.compatibility p.compatibility.id p.compatibility

/-- An accepted publication is in force exactly if nothing stored in its own generation says
otherwise; an accepted withdrawal always is. -/
theorem enforced_iff (now : Timestamp) (hbeyond : Beyond r p)
    (hacc : (r.step (.apply now p)).1.accepted = true) :
    Enforced p (r.after (.apply now p)) ↔ Enforceable r p := by
  have hacc : (r.applyLocked now p).1.accepted = true := hacc
  have hquirk := fun hk => quirk_of_accepted now hbeyond hk hacc
  have hfact := fun hk => fact_of_accepted now hbeyond hk hacc
  constructor
  · intro h
    exact ⟨fun hk => ((hquirk (.inl hk)).1 hk).mp (h.quirk hk),
      fun hk => ((hfact (.inl hk)).1 hk).mp (h.fact hk)⟩
  · intro h
    exact ⟨fun hk => ((hquirk (.inl hk)).1 hk).mpr (h.quirk hk),
      fun hk => ((hfact (.inl hk)).1 hk).mpr (h.fact hk),
      fun hk => (hquirk (.inr hk)).2 hk, fun hk => (hfact (.inr hk)).2 hk⟩

end Acceptance

end Impl

namespace Sample

/-- A defect of a built-in capability, published or withdrawn. -/
def quirkPublication (kind : PublicationKind) (sequence : UInt64) : Publication :=
  { kind
    publisher
    sequence
    quirk :=
      { id := Id.parse "quirk.a"
        quirkGeneration := .first
        title := "fp64 is emulated"
        severity := .fatal
        impactedCapabilities := [Id.parse "cap.compute.fp64"]
        source := { capability.source with adapter := "probe" } } }

/-- A quirk is published and withdrawn. -/
def withdrawnQuirk : List Op :=
  setup ++ [.apply now (quirkPublication .publishQuirk 2),
    .apply now (quirkPublication .withdrawQuirk 3)]

end Sample

namespace Impl

theorem enforced_first_quirk :
    letI := StdLib.reference
    Enforced (Sample.quirkPublication .publishQuirk 2) (((Impl.fresh {}).run Sample.setup).after
        (.apply Sample.now (Sample.quirkPublication .publishQuirk 2))) ↔
      Enforceable ((Impl.fresh {}).run Sample.setup) (Sample.quirkPublication .publishQuirk 2) := by
  let := StdLib.reference
  exact enforced_iff Sample.now (by rw [Impl.fresh_eq]; decide) (by rw [Impl.fresh_eq]; decide +kernel)

/-- Published again in the generation that was withdrawn, a quirk is answered as identical and stays
withdrawn. -/
theorem republished_quirk_stays_withdrawn :
    letI := StdLib.reference
    ¬ ∀ (limits : RegistryLimits) (r : Impl) (now : Timestamp) (p : Publication),
      Reachable limits r → Beyond r p → (r.step (.apply now p)).1.accepted = true →
        Enforced p (r.after (.apply now p)) := by
  let := StdLib.reference
  intro h
  obtain ⟨hbeyond, haccepted, hflag⟩ :
      let r := (Impl.fresh {}).run Sample.withdrawnQuirk
      let again : Op := .apply Sample.now (Sample.quirkPublication .publishQuirk 4)
      Beyond r (Sample.quirkPublication .publishQuirk 4) ∧ (r.step again).1.accepted = true ∧
        (r.after again).quirks[(Id.parse "quirk.a" : QuirkId)]?.map QuirkRecord.withdrawn =
          some true := by
    rw [Impl.fresh_eq]
    decide +kernel
  have hin := (h {} ((Impl.fresh {}).run Sample.withdrawnQuirk) Sample.now
    (Sample.quirkPublication .publishQuirk 4) ⟨_, rfl⟩ hbeyond haccepted).quirk rfl
  obtain ⟨stored, hs, hw, -⟩ := hin
  rw [show (Id.parse "quirk.a" : QuirkId) = (Sample.quirkPublication .publishQuirk 4).quirk.id
    from rfl, hs] at hflag
  cases hw.symm.trans (Option.some.inj hflag)

end Impl

end CapabilityRegistry
