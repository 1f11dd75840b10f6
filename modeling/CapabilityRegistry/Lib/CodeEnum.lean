import Mathlib

/-! Enumerations whose members are listed in the order of their numeric codes. -/

/-- The members of an enumeration, in declaration order; a member's code is its position. -/
class CodeEnum (α : Type) [DecidableEq α] where
  members : List α
  mem_members : ∀ a : α, a ∈ members

namespace CodeEnum
variable {α : Type} [DecidableEq α] [CodeEnum α]

def code (a : α) : Nat := (members : List α).idxOf a

def ofCode? (n : Nat) : Option α := members[n]?

theorem code_lt (a : α) : code a < (members : List α).length :=
  List.idxOf_lt_length_of_mem (mem_members a)

@[simp] theorem ofCode?_code (a : α) : ofCode? (code a) = some a := by
  have h := code_lt a
  rw [ofCode?, List.getElem?_eq_getElem h]
  exact congrArg some (List.getElem_idxOf h)

/-- A function that tells the listed members apart tells all apart. -/
theorem injective_of_members {β : Type} {f : α → β}
    (h : ∀ a ∈ (members : List α), ∀ b ∈ (members : List α), f a = f b → a = b) :
    Function.Injective f := by
  exact fun a b => h a (mem_members a) b (mem_members b)

end CodeEnum
