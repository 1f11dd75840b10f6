import CapabilityRegistry.Lib.Comparators
import CapabilityRegistry.Selection

/-! The comparator of evidence views: which sets of views it is fit to sort. -/
namespace CapabilityRegistry

open Comparators (StrictWeakOrderOn Incomparable)

section Views
variable {a b c : EvidenceView} {S : Set EvidenceView}

/-- Two views agree in everything that orders views of one staleness. -/
structure EvidenceView.SameKeys (a b : EvidenceView) : Prop where
  winner : a.winner = b.winner
  capabilityGeneration : a.capabilityGeneration = b.capabilityGeneration
  authority : a.source.authority = b.source.authority
  publisher : a.source.publisher.id = b.source.publisher.id
  observationSequence : a.source.observationSequence = b.source.observationSequence

theorem currentOrder_eq_eq_iff : currentOrder a b = .eq ↔ a.SameKeys b := by
  simp only [currentOrder, compareLex, compareOn, Ordering.then_eq_eq, compare_swap_eq_iff]
  constructor
  · rintro ⟨h1, h2, h3, h4, h5⟩
    exact ⟨h1, h2, h3, h4.symm, h5⟩
  · rintro ⟨h1, h2, h3, h4, h5⟩
    exact ⟨h1, h2, h3, h4.symm, h5⟩

/-- Between views of different staleness only a current one comes first. -/
theorem evidenceOrdering_of_ne (h : a.staleness ≠ b.staleness) :
    evidenceOrdering a b = (!isStale a.staleness && isStale b.staleness) := by
  rw [evidenceOrdering, if_pos (by simpa using h)]

/-- Current views first, then the order of views of one staleness. -/
def listingOrder : EvidenceView → EvidenceView → Ordering :=
  compareLex (compareOn fun view => isStale view.staleness) currentOrder

instance : Std.TransCmp listingOrder := inferInstanceAs (Std.TransCmp (compareLex _ _))

/-- Stale views whose flags differ are alike in every other respect they are ordered by. -/
def AlikeAcrossFlags (S : Set EvidenceView) : Prop :=
  ∀ a ∈ S, ∀ b ∈ S, isStale a.staleness = true → isStale b.staleness = true →
    a.staleness ≠ b.staleness → a.SameKeys b

theorem evidenceOrdering_eq_listingOrder (h : AlikeAcrossFlags S) (ha : a ∈ S) (hb : b ∈ S) :
    evidenceOrdering a b = (listingOrder a b == .lt) := by
  by_cases hs : a.staleness = b.staleness
  · have heq : compare (isStale a.staleness) (isStale b.staleness) = .eq := by
      rw [hs]
      exact Std.ReflCmp.compare_self
    rw [evidenceOrdering_eq_currentOrder hs, listingOrder, compareLex, compareOn, heq]
    rfl
  · rw [evidenceOrdering_of_ne hs, listingOrder, compareLex, compareOn]
    cases hsa : isStale a.staleness <;> cases hsb : isStale b.staleness
    · have ha' : a.staleness = .none := by simpa [isStale] using hsa
      have hb' : b.staleness = .none := by simpa [isStale] using hsb
      exact absurd (ha'.trans hb'.symm) hs
    · rfl
    · rfl
    · rw [currentOrder_eq_eq_iff.mpr (h a ha b hb hsa hsb hs)]
      rfl

/-- The comparator is a strict weak order on a set of views that orders stale views with different
flags by the remaining keys exactly if such views do not differ in the remaining keys. -/
theorem evidence_ordered_iff (S : Set EvidenceView) :
    (StrictWeakOrderOn evidenceOrdering S ∧
      ∀ a ∈ S, ∀ b ∈ S, isStale a.staleness = true → isStale b.staleness = true →
        a.staleness ≠ b.staleness → evidenceOrdering a b = (currentOrder a b == .lt)) ↔
    AlikeAcrossFlags S := by
  constructor
  · rintro ⟨-, hkeys⟩ a ha b hb hsa hsb hne
    have hab := hkeys a ha b hb hsa hsb hne
    have hba := hkeys b hb a ha hsb hsa (Ne.symm hne)
    rw [evidenceOrdering_of_ne hne, hsa] at hab
    rw [evidenceOrdering_of_ne (Ne.symm hne), hsb, @Std.OrientedCmp.eq_swap _ currentOrder _ b a]
      at hba
    rw [← currentOrder_eq_eq_iff]
    cases hc : currentOrder a b with
    | eq => rfl
    | lt => rw [hc] at hab; cases hab
    | gt => rw [hc] at hba; cases hba
  · intro h
    refine ⟨.of_cmp fun a ha b hb => evidenceOrdering_eq_listingOrder h ha hb, ?_⟩
    intro a ha b hb hsa hsb hne
    rw [evidenceOrdering_of_ne hne, hsa, currentOrder_eq_eq_iff.mpr (h a ha b hb hsa hsb hne)]
    rfl

end Views

section Samples

def epochView : EvidenceView := { staleness := .epochSuperseded, capabilityGeneration := ⟨2⟩ }
def olderEpochView : EvidenceView := { staleness := .epochSuperseded, capabilityGeneration := ⟨1⟩ }
def fencedView : EvidenceView := { staleness := .publisherFenced, capabilityGeneration := ⟨3⟩ }

/-- A view that neither of two ordered views is told apart from. -/
theorem stale_views_are_not_ordered :
    evidenceOrdering epochView olderEpochView = true ∧
    Incomparable evidenceOrdering epochView fencedView ∧
    Incomparable evidenceOrdering fencedView olderEpochView ∧
    ¬ StrictWeakOrderOn evidenceOrdering Set.univ := by
  have hlt : evidenceOrdering epochView olderEpochView = true := by decide
  have hleft : Incomparable evidenceOrdering epochView fencedView := ⟨by decide, by decide⟩
  have hright : Incomparable evidenceOrdering fencedView olderEpochView := ⟨by decide, by decide⟩
  refine ⟨hlt, hleft, hright, fun h => ?_⟩
  have hac := h.incomparable_trans _ trivial _ trivial _ trivial hleft hright
  rw [hac.1] at hlt
  cases hlt

end Samples

end CapabilityRegistry
