import CapabilityRegistry.Condition

/-! Induction over condition trees and the conditions an outcome is combined from. -/
namespace CapabilityRegistry

section Children

theorem evaluateConditions_eq (env : EnvironmentContext) (cs : List ConditionPtr) :
    evaluateConditions env cs = cs.map (evaluateCondition env) := by
  induction cs with
  | nil => rfl
  | cons c cs ih => rw [evaluateConditions, ih, List.map_cons]

theorem describeConditions_eq (cs : List ConditionPtr) :
    describeConditions cs = cs.map describeCondition := by
  induction cs with
  | nil => rfl
  | cons c cs ih => rw [describeConditions, ih, List.map_cons]

end Children

def ConditionKind.isLogical : ConditionKind → Bool
  | .allOf | .anyOf | .not => true
  | _ => false

namespace ConditionPtr
variable {c part : ConditionPtr}

/-- A property of every tree holds when it holds of a node whose children have it. -/
@[elab_as_elim]
theorem induct {P : ConditionPtr → Prop} (null : P .null)
    (node : ∀ kind key value children, (∀ child ∈ children, P child) →
      P (.node kind key value children)) : ∀ c, P c
  | .null => null
  | .node kind key value children => node kind key value children fun child _ =>
      induct null node child

/-- The conditions that the outcome of a tree is combined from, the tree itself among them. -/
inductive Inside : ConditionPtr → ConditionPtr → Prop
  | self (c : ConditionPtr) : Inside c c
  | child {part child : ConditionPtr} {kind : ConditionKind} {key value : Text}
      {children : List ConditionPtr} (logical : kind.isLogical = true)
      (member : child ∈ children) (inside : Inside part child) :
      Inside part (.node kind key value children)

theorem Inside.trans {whole : ConditionPtr} (h : part.Inside c) (h' : c.Inside whole) :
    part.Inside whole := by
  induction h' with
  | self => exact h
  | child logical member inside ih => exact .child logical member ih

end ConditionPtr

end CapabilityRegistry
