import CapabilityRegistry.Lib.CodeEnum
import CapabilityRegistry.Lib.Wire
import CapabilityRegistry.Status

/-! The bounded byte codec under the frames, the messages and the persisted image. -/
namespace CapabilityRegistry

/-- What a writer has appended, and whether a value had to be clamped for it. -/
structure ByteWriter where
  out : List UInt8 := []
  truncated : Bool := false

namespace ByteWriter
variable {a b : ByteWriter}

protected def append (a b : ByteWriter) : ByteWriter :=
  ⟨a.out ++ b.out, a.truncated || b.truncated⟩

instance : Append ByteWriter := ⟨ByteWriter.append⟩

@[simp] theorem append_out : (a ++ b).out = a.out ++ b.out := rfl
@[simp] theorem append_truncated : (a ++ b).truncated = (a.truncated || b.truncated) := rfl

-- a long chain is only looked into through the two lemmas above
attribute [irreducible] ByteWriter.append

def u8 (value : UInt8) : ByteWriter := { out := Wire.word 1 value.toNat }
def u16 (value : UInt16) : ByteWriter := { out := Wire.word 2 value.toNat }
def u32 (value : UInt32) : ByteWriter := { out := Wire.word 4 value.toNat }
def u64 (value : UInt64) : ByteWriter := { out := Wire.word 8 value.toNat }
def i64 (value : Int64) : ByteWriter := u64 value.toUInt64
def boolean (value : Bool) : ByteWriter := u8 (if value then 1 else 0)

/-- A text behind its length, clamped to the bound. -/
def str (text : Text) (maxLength : Nat) : ByteWriter :=
  u32 (UInt32.ofNat (min text.length maxLength)) ++
    { out := text.take maxLength, truncated := text.length > maxLength }

/-- Writers one after another. -/
def all (writers : List ByteWriter) : ByteWriter := writers.foldr (· ++ ·) {}

/-- A list behind its count, cut at the bound. The cut is not recorded as a truncation. -/
def list {α : Type} (bound : Nat) (write : α → ByteWriter) (values : List α) : ByteWriter :=
  u32 (UInt32.ofNat (min values.length bound)) ++ all ((values.take bound).map write)

/-- `writer.boolean(value.has_value())` and the value when there is one. -/
def optional {α : Type} (write : α → ByteWriter) (value : Option α) : ByteWriter :=
  boolean value.isSome ++ all (value.toList.map write)

/-- The `uint16_t` of an enumeration's member. -/
def enum {α : Type} [DecidableEq α] [CodeEnum α] (value : α) : ByteWriter :=
  u16 (UInt16.ofNat (CodeEnum.code value))

@[simp] theorem all_out {writers : List ByteWriter} :
    (all writers).out = writers.flatMap ByteWriter.out := by
  induction writers with
  | nil => rfl
  | cons w ws ih => simp [all, ← ih]

end ByteWriter

/-- A text that is written whole. -/
def FitsText (maxLength : Nat) (text : Text) : Prop :=
  text.length ≤ maxLength ∧ text.length < 2 ^ 32

/-- A list that is written whole. -/
def FitsList {α : Type} (bound : Nat) (F : α → Prop) (values : List α) : Prop :=
  values.length ≤ bound ∧ values.length < 2 ^ 32 ∧ ∀ value ∈ values, F value

def FitsOptional {α : Type} (F : α → Prop) (value : Option α) : Prop := ∀ v, value = some v → F v

/-- The sticky reader of the source: its first failure is the one `status` reports, and the reads
after it return nothing that is kept. -/
abbrev ByteReader := Wire.Reader Error

namespace ByteReader
variable {α β γ : Type} {w : α → ByteWriter} {r : ByteReader α} {F : α → Prop} {bound : Nat}
  {e : Error}

def word (count : Nat) : ByteReader Nat :=
  Wire.readWord count ⟨.corruptData, "truncated input while reading a byte"⟩

def u8 : ByteReader UInt8 := UInt8.ofNat <$> word 1
def u16 : ByteReader UInt16 := UInt16.ofNat <$> word 2
def u32 : ByteReader UInt32 := UInt32.ofNat <$> word 4
def u64 : ByteReader UInt64 := UInt64.ofNat <$> word 8
def i64 : ByteReader Int64 := UInt64.toInt64 <$> u64
def boolean : ByteReader Bool := (· != 0) <$> u8

def str (maxLength : Nat) : ByteReader Text :=
  Wire.prefixed (UInt32.toNat <$> u32) maxLength
    ⟨.corruptData, "string length exceeds the bound or the input"⟩

/-- A count checked against its bound and against what is left, and as many values. -/
def list (bound : Nat) (e : Error) (r : ByteReader α) : ByteReader (List α) :=
  Wire.counted (UInt32.toNat <$> u32) bound e r

def optional (r : ByteReader α) : ByteReader (Option α) := do
  if ← boolean then some <$> r else pure none

/-- A `uint16_t` checked against the last member of an enumeration. -/
def enum [DecidableEq α] [CodeEnum α] (e : Error) : ByteReader α :=
  Wire.checked u16 (fun raw => CodeEnum.ofCode? raw.toNat) e

/-- Two enumerations read before either is checked. -/
def enum2 [DecidableEq α] [CodeEnum α] [DecidableEq β] [CodeEnum β] (e : Error) :
    ByteReader (α × β) :=
  Wire.checked (Wire.both u16 u16)
    (fun raw => do return (← CodeEnum.ofCode? raw.1.toNat, ← CodeEnum.ofCode? raw.2.toNat)) e

/-- Three enumerations read before any of them is checked. -/
def enum3 [DecidableEq α] [CodeEnum α] [DecidableEq β] [CodeEnum β] [DecidableEq γ] [CodeEnum γ]
    (e : Error) : ByteReader (α × β × γ) :=
  Wire.checked (Wire.both u16 (Wire.both u16 u16))
    (fun raw => do
      return (← CodeEnum.ofCode? raw.1.toNat, ← CodeEnum.ofCode? raw.2.1.toNat,
        ← CodeEnum.ofCode? raw.2.2.toNat)) e

section Words

theorem round_u8 : Wire.Round (fun v => (ByteWriter.u8 v).out) u8 fun _ => True where
  reads value _ := Wire.reads_word value.toNat_lt UInt8.ofNat_toNat
  yields := Wire.yields_true

theorem round_u16 : Wire.Round (fun v => (ByteWriter.u16 v).out) u16 fun _ => True where
  reads value _ := Wire.reads_word value.toNat_lt UInt16.ofNat_toNat
  yields := Wire.yields_true

theorem round_u32 : Wire.Round (fun v => (ByteWriter.u32 v).out) u32 fun _ => True where
  reads value _ := Wire.reads_word value.toNat_lt UInt32.ofNat_toNat
  yields := Wire.yields_true

theorem round_u64 : Wire.Round (fun v => (ByteWriter.u64 v).out) u64 fun _ => True where
  reads value _ := Wire.reads_word value.toNat_lt UInt64.ofNat_toNat
  yields := Wire.yields_true

theorem round_i64 : Wire.Round (fun v => (ByteWriter.i64 v).out) i64 fun _ => True :=
  round_u64.through (fun _ _ => by simp) (fun _ _ => trivial) fun _ _ => trivial

theorem round_boolean : Wire.Round (fun v => (ByteWriter.boolean v).out) boolean fun _ => True :=
  round_u8.through (fun v _ => by cases v <;> rfl) (fun _ _ => trivial) fun _ _ => trivial

/-- A count or a length travels as a `uint32_t`. -/
theorem round_size : Wire.Round (fun n => (ByteWriter.u32 (UInt32.ofNat n)).out)
    (UInt32.toNat <$> u32) (· < 2 ^ 32) :=
  round_u32.through (fun _ h => UInt32.toNat_ofNat_of_lt h) (fun _ _ => trivial)
    fun n _ => n.toNat_lt

theorem exact_u16 : Wire.Exact (fun v => (ByteWriter.u16 v).out) u16 :=
  Wire.exact_word fun _ h => UInt16.toNat_ofNat_of_lt h

theorem exact_u32 : Wire.Exact (fun v => (ByteWriter.u32 v).out) u32 :=
  Wire.exact_word fun _ h => UInt32.toNat_ofNat_of_lt h

theorem exact_u64 : Wire.Exact (fun v => (ByteWriter.u64 v).out) u64 :=
  Wire.exact_word fun _ h => UInt64.toNat_ofNat_of_lt h

end Words

section Parts

theorem round_str (maxLength : Nat) :
    Wire.Round (fun text => (ByteWriter.str text maxLength).out) (str maxLength)
      (FitsText maxLength) := by
  simp only [ByteWriter.str, ByteWriter.append_out]
  exact round_size.prefixed maxLength

theorem round_list (bound : Nat) (e : Error) (h : Wire.Round (fun v => (w v).out) r F) (hne : ∀ v, (w v).out ≠ []) :
    Wire.Round (fun values => (ByteWriter.list bound w values).out) (list bound e r)
      (FitsList bound F) := by
  have hlist := round_size.counted (e := e) h (fun v _ => hne v) bound
  simp only [ByteWriter.list, ByteWriter.append_out, ByteWriter.all_out, List.flatMap_map]
  exact hlist

theorem round_optional (h : Wire.Round (fun v => (w v).out) r F) :
    Wire.Round (fun value => (ByteWriter.optional w value).out) (optional r) (FitsOptional F) := by
  simp only [ByteWriter.optional, ByteWriter.append_out]
  refine round_boolean.tagged (fun _ _ => trivial) (fun value hv => ?_) fun present _ => ?_
  · cases value with
    | none => exact Wire.reads_pure
    | some v =>
      have hread := (h.reads v (hv v rfl)).map some
      simpa using hread
  · cases present with
    | false => exact Wire.yields_pure fun v hv => by cases hv
    | true => exact h.yields.map fun v hv v' he => by cases he; exact hv

/-- The `uint16_t` of a member stands for it. -/
theorem ofCode?_raw {α : Type} [DecidableEq α] [CodeEnum α]
    (hsize : (CodeEnum.members : List α).length ≤ 65536) (value : α) :
    CodeEnum.ofCode? (CodeEnum.code value % 65536) = some value := by
  have hcode : CodeEnum.code value < 65536 := (CodeEnum.code_lt value).trans_le hsize
  rw [Nat.mod_eq_of_lt hcode, CodeEnum.ofCode?_code]

theorem round_enum (α : Type) [DecidableEq α] [CodeEnum α] (e : Error)
    (hsize : (CodeEnum.members : List α).length ≤ 65536 := by decide) :
    Wire.Round (fun value : α => (ByteWriter.enum value).out) (enum e) fun _ => True :=
  round_u16.checked (fun value => UInt16.ofNat (CodeEnum.code value))
    (fun value => by simp [ofCode?_raw hsize]) fun _ => trivial

theorem round_enum2 (α β : Type) [DecidableEq α] [CodeEnum α] [DecidableEq β] [CodeEnum β]
    (e : Error) (hα : (CodeEnum.members : List α).length ≤ 65536 := by decide)
    (hβ : (CodeEnum.members : List β).length ≤ 65536 := by decide) :
    Wire.Round (fun v : α × β => (ByteWriter.enum v.1).out ++ (ByteWriter.enum v.2).out) (enum2 e)
      fun _ => True := by
  refine (round_u16.both round_u16).checked
    (fun v : α × β => (UInt16.ofNat (CodeEnum.code v.1), UInt16.ofNat (CodeEnum.code v.2)))
    (fun v => ?_) fun _ => ⟨trivial, trivial⟩
  simp [ofCode?_raw hα, ofCode?_raw hβ]

theorem round_enum3 (α β γ : Type) [DecidableEq α] [CodeEnum α] [DecidableEq β] [CodeEnum β]
    [DecidableEq γ] [CodeEnum γ] (e : Error)
    (hα : (CodeEnum.members : List α).length ≤ 65536 := by decide)
    (hβ : (CodeEnum.members : List β).length ≤ 65536 := by decide)
    (hγ : (CodeEnum.members : List γ).length ≤ 65536 := by decide) :
    Wire.Round (fun v : α × β × γ =>
        (ByteWriter.enum v.1).out ++ ((ByteWriter.enum v.2.1).out ++ (ByteWriter.enum v.2.2).out))
      (enum3 e) fun _ => True := by
  refine (round_u16.both (round_u16.both round_u16)).checked
    (fun v : α × β × γ => (UInt16.ofNat (CodeEnum.code v.1), UInt16.ofNat (CodeEnum.code v.2.1),
      UInt16.ofNat (CodeEnum.code v.2.2))) (fun v => ?_) fun _ => ⟨trivial, trivial, trivial⟩
  simp [ofCode?_raw hα, ofCode?_raw hβ, ofCode?_raw hγ]

end Parts

end ByteReader

end CapabilityRegistry
