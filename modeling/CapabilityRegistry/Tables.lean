import CapabilityRegistry.Lib.SortedMap
import CapabilityRegistry.State

/-! The tables of a fresh registry, laid out in the order of their keys. -/
namespace CapabilityRegistry

/-- Where the built-in schemas stand in the order of their names. -/
def catalogOrder : List Nat := [
  0, 17, 11, 1, 20, 22, 18, 6, 19, 2, 10, 8, 13, 7, 12, 15, 14, 4, 21, 23, 16, 3, 9, 5, 54,
  58, 57, 53, 55, 56, 50, 51, 52, 59, 35, 26, 27, 24, 34, 38, 28, 29, 33, 39, 30, 37, 32,
  36, 25, 31, 66, 68, 64, 67, 72, 63, 62, 74, 73, 75, 70, 60, 61, 65, 69, 71, 44, 45, 42,
  40, 49, 43, 47, 41, 46, 48, 112, 106, 105, 103, 104, 110, 108, 102, 111, 101, 107, 109,
  96, 97, 99, 95, 98, 100, 90, 88, 91, 92, 89, 93, 94, 82, 81, 76, 79, 86, 87, 84, 85, 83,
  78, 77, 80]

def sortedSchemas : List CapabilitySchema :=
  catalogOrder.map fun i => builtinCapabilitySchemas.getD i (makeSchema [] .compute .boolean [] [])

theorem sortedSchemas_perm : sortedSchemas.Perm builtinCapabilitySchemas := by
  have hrange : (List.range builtinCapabilitySchemas.length).map
      (fun i => builtinCapabilitySchemas.getD i (makeSchema [] .compute .boolean [] [])) =
        builtinCapabilitySchemas := by
    refine List.ext_getElem (by simp) fun i h h' => ?_
    simp [List.getElem?_eq_getElem h']
  have horder : catalogOrder.Perm (List.range builtinCapabilitySchemas.length) := by
    decide +kernel
  exact hrange ▸ horder.map _

theorem sortedSchemas_increasing :
    OrdMap.Increasing (sortedSchemas.map fun s => (s.id, s)) ∧
      OrdMap.Increasing (sortedSchemas.map fun s => (s.capability, s.id)) := by
  unfold OrdMap.Increasing
  decide +kernel

/-- A fresh registry without the work of entering the built-in schemas one by one. -/
theorem Impl.fresh_eq (limits : RegistryLimits) : Impl.fresh limits =
    { limits
      schemas := OrdMap.ofSorted _ sortedSchemas_increasing.1
      capabilitySchemas := OrdMap.ofSorted _ sortedSchemas_increasing.2
      epoch := .first } := by
  rw [← OrdMap.foldl_insertIfNew_eq_ofSorted sortedSchemas_perm,
    ← OrdMap.foldl_insertIfNew_eq_ofSorted sortedSchemas_perm]
  rfl

end CapabilityRegistry
