import Mathlib

/-! Byte texts, canonical tokens, opaque identities and generation counters. -/
namespace CapabilityRegistry

/-- A `std::string`: a sequence of bytes, compared byte by byte. -/
abbrev Text := List UInt8

instance : Coe String Text := ⟨fun s => s.toUTF8.data.toList⟩

/-- `std::to_string` of an unsigned integer. -/
def decimal (n : Nat) : Text :=
  if n = 0 then "0" else (Nat.digits 10 n).reverse.map fun d => '0'.toUInt8 + d.toUInt8

def asciiLowerByte (c : UInt8) : UInt8 :=
  if 'A'.toUInt8 ≤ c && c ≤ 'Z'.toUInt8 then c - 'A'.toUInt8 + 'a'.toUInt8 else c

def asciiLower (text : Text) : Text := text.map asciiLowerByte

def equalsAsciiCi (a b : Text) : Bool := asciiLower a == asciiLower b

def kMaxTokenLength : Nat := 128

def isTokenAlnum (c : UInt8) : Bool :=
  ('a'.toUInt8 ≤ c && c ≤ 'z'.toUInt8) || ('0'.toUInt8 ≤ c && c ≤ '9'.toUInt8)

def isTokenByte (c : UInt8) : Bool :=
  isTokenAlnum c || c == '.'.toUInt8 || c == '_'.toUInt8 || c == ':'.toUInt8 || c == '-'.toUInt8

def isCanonicalToken : Text → Bool
  | [] => false
  | first :: rest =>
    (first :: rest).length ≤ kMaxTokenLength && isTokenAlnum first && (first :: rest).all isTokenByte

/-- A typed opaque identity. Only `parse` and the default build one, so its text
is empty or canonical. -/
structure Id (Tag : Type) where
  str : Text
  canonical : str = [] ∨ isCanonicalToken str = true

namespace Id
variable {Tag : Type} {a b : Id Tag}

instance : Inhabited (Id Tag) := ⟨⟨[], Or.inl rfl⟩⟩

def parse (text : Text) : Id Tag :=
  if h : isCanonicalToken text = true then ⟨text, Or.inr h⟩ else default

def valid (id : Id Tag) : Bool := !id.str.isEmpty

@[ext] theorem ext (h : a.str = b.str) : a = b := by
  cases a
  cases b
  simp_all

instance : DecidableEq (Id Tag) := fun a b =>
  decidable_of_iff (a.str = b.str) ⟨ext, congrArg str⟩
instance : Ord (Id Tag) := ⟨compareOn str⟩
instance : LT (Id Tag) := ltOfOrd
instance : Std.TransOrd (Id Tag) := inferInstanceAs (Std.TransCmp (compareOn str))

instance : Std.LawfulEqOrd (Id Tag) where
  compare_self {a} := @Std.ReflCmp.compare_self _ (compareOn str) _ a
  eq_of_compare h := ext (Std.LawfulEqOrd.eq_of_compare h)

@[simp] theorem valid_default : (default : Id Tag).valid = false := rfl

theorem valid_iff : a.valid = true ↔ a.str ≠ [] := by
  cases h : a.str <;> simp [valid, h]

/-- Parsing the text of an identity gives it back, the empty one included. -/
@[simp] theorem parse_str (a : Id Tag) : parse a.str = a := by
  rcases a.canonical with h | h
  · ext1
    simp [parse, h, isCanonicalToken, default]
  · ext1
    simp [parse, h]

theorem length_str_le (a : Id Tag) : a.str.length ≤ kMaxTokenLength := by
  rcases a.canonical with h | h
  · simp [h]
  · cases hs : a.str with
    | nil => simp
    | cons c cs =>
      rw [hs] at h
      simp only [isCanonicalToken, Bool.and_eq_true, decide_eq_true_eq] at h
      exact h.1.1

end Id

/-- A monotonic generation counter over `uint64_t`; zero means "not set". -/
structure Gen (Tag : Type) where
  value : UInt64

namespace Gen
variable {Tag : Type} {a b c : Gen Tag}

instance : Inhabited (Gen Tag) := ⟨⟨0⟩⟩

def first : Gen Tag := ⟨1⟩
def valid (g : Gen Tag) : Bool := g.value != 0
/-- Wraps to zero at `2 ^ 64 - 1`, as the unsigned addition of the source does. -/
def next (g : Gen Tag) : Gen Tag := ⟨g.value + 1⟩
def str (g : Gen Tag) : Text := decimal g.value.toNat
/-- The last counter value: the only one whose successor is not larger. -/
def last : Gen Tag := ⟨18446744073709551615⟩

@[ext] theorem ext (h : a.value = b.value) : a = b := by
  cases a
  cases b
  simp_all

instance : DecidableEq (Gen Tag) := fun a b =>
  decidable_of_iff (a.value = b.value) ⟨ext, congrArg value⟩
instance : Ord (Gen Tag) := ⟨compareOn value⟩
instance : LT (Gen Tag) := ⟨fun a b => a.value < b.value⟩
instance : LE (Gen Tag) := ⟨fun a b => a.value ≤ b.value⟩
instance (a b : Gen Tag) : Decidable (a < b) := inferInstanceAs (Decidable (a.value < b.value))
instance (a b : Gen Tag) : Decidable (a ≤ b) := inferInstanceAs (Decidable (a.value ≤ b.value))
instance : Std.TransOrd (Gen Tag) := inferInstanceAs (Std.TransCmp (compareOn value))

instance : Std.LawfulEqOrd (Gen Tag) where
  compare_self {a} := @Std.ReflCmp.compare_self _ (compareOn value) _ a
  eq_of_compare h := ext (Std.LawfulEqOrd.eq_of_compare h)

theorem lt_def : a < b ↔ a.value < b.value := Iff.rfl
theorem le_def : a ≤ b ↔ a.value ≤ b.value := Iff.rfl

theorem le_refl (a : Gen Tag) : a ≤ a := UInt64.le_refl _
theorem le_trans (h : a ≤ b) (h' : b ≤ c) : a ≤ c := UInt64.le_trans h h'
theorem lt_of_lt_of_le (h : a < b) (h' : b ≤ c) : a < c := by simp only [lt_def, le_def] at *; grind
theorem lt_of_le_of_lt (h : a ≤ b) (h' : b < c) : a < c := by simp only [lt_def, le_def] at *; grind
theorem le_of_lt (h : a < b) : a ≤ b := by simp only [lt_def, le_def] at *; grind
theorem lt_irrefl (a : Gen Tag) : ¬ a < a := UInt64.lt_irrefl _
theorem ne_of_lt (h : a < b) : a ≠ b := by rintro rfl; exact lt_irrefl _ h
theorem lt_of_le_of_ne (h : a ≤ b) (h' : a ≠ b) : a < b := by
  have : a.value ≠ b.value := fun e => h' (ext e)
  simp only [lt_def, le_def] at *
  grind
theorem not_lt : ¬ a < b ↔ b ≤ a := by simp only [lt_def, le_def]; grind
theorem not_le : ¬ a ≤ b ↔ b < a := by simp only [lt_def, le_def]; grind

theorem lt_next (h : a ≠ last) : a < a.next := by
  have : a.value ≠ 18446744073709551615 := fun e => h (ext e)
  simp only [lt_def, next]
  grind

theorem le_next (h : a ≠ last) : a ≤ a.next := le_of_lt (lt_next h)

theorem valid_iff : a.valid = true ↔ a ≠ default := by
  simp only [valid, bne_iff_ne, ne_eq]
  exact not_congr ⟨fun h => ext h, fun h => by rw [h]; rfl⟩

theorem valid_next (h : a ≠ last) : a.next.valid = true := by
  have : a.value ≠ 18446744073709551615 := fun e => h (ext e)
  simp only [valid, next, bne_iff_ne, ne_eq]
  grind

theorem valid_of_lt (h : a < b) : b.valid = true := by
  simp only [valid, lt_def, bne_iff_ne, ne_eq] at *
  grind

@[simp] theorem valid_first : (first : Gen Tag).valid = true := rfl

end Gen

inductive VendorIdTag
inductive ProductIdTag
inductive HardwareFamilyIdTag
inductive HardwareModelIdTag
inductive HardwareRevisionIdTag
inductive DeviceIdTag
inductive DeviceIncarnationIdTag
inductive ArchitectureIdTag
inductive FirmwareIdTag
inductive DriverIdTag
inductive RuntimeIdTag
inductive PlatformIdTag
inductive CapabilityIdTag
inductive CapabilitySchemaIdTag
inductive QuirkIdTag
inductive CompatibilityFactIdTag
inductive PublisherIdTag

abbrev VendorId := Id VendorIdTag
abbrev ProductId := Id ProductIdTag
abbrev HardwareFamilyId := Id HardwareFamilyIdTag
abbrev HardwareModelId := Id HardwareModelIdTag
abbrev HardwareRevisionId := Id HardwareRevisionIdTag
abbrev DeviceId := Id DeviceIdTag
abbrev DeviceIncarnationId := Id DeviceIncarnationIdTag
abbrev ArchitectureId := Id ArchitectureIdTag
abbrev FirmwareId := Id FirmwareIdTag
abbrev DriverId := Id DriverIdTag
abbrev RuntimeId := Id RuntimeIdTag
abbrev PlatformId := Id PlatformIdTag
abbrev CapabilityId := Id CapabilityIdTag
abbrev CapabilitySchemaId := Id CapabilitySchemaIdTag
abbrev QuirkId := Id QuirkIdTag
abbrev CompatibilityFactId := Id CompatibilityFactIdTag
abbrev PublisherId := Id PublisherIdTag

inductive DeviceGenerationTag
inductive DeviceBootTag
inductive FirmwareGenerationTag
inductive DriverGenerationTag
inductive RuntimeGenerationTag
inductive PlatformGenerationTag
inductive CapabilityGenerationTag
inductive QuirkGenerationTag
inductive CompatibilityGenerationTag
inductive EvidenceGenerationTag
inductive CoordinatorEpochTag
inductive SnapshotGenerationTag
inductive PublisherBootTag

abbrev DeviceGeneration := Gen DeviceGenerationTag
abbrev DeviceBootId := Gen DeviceBootTag
abbrev FirmwareGeneration := Gen FirmwareGenerationTag
abbrev DriverGeneration := Gen DriverGenerationTag
abbrev RuntimeGeneration := Gen RuntimeGenerationTag
abbrev PlatformGeneration := Gen PlatformGenerationTag
abbrev CapabilityGeneration := Gen CapabilityGenerationTag
abbrev QuirkGeneration := Gen QuirkGenerationTag
abbrev CompatibilityGeneration := Gen CompatibilityGenerationTag
abbrev EvidenceGeneration := Gen EvidenceGenerationTag
abbrev CoordinatorEpoch := Gen CoordinatorEpochTag
abbrev SnapshotGeneration := Gen SnapshotGenerationTag
abbrev PublisherBootId := Gen PublisherBootTag

end CapabilityRegistry
