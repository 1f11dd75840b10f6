import CapabilityRegistry.Status

/-! Dotted software versions and version intervals. -/
namespace CapabilityRegistry

def kMaxComponents : Nat := 8

def isDigit (c : UInt8) : Bool := '0'.toUInt8 ≤ c && c ≤ '9'.toUInt8

/-- The inner loop of `SoftwareVersion::parse`: one digit run and what follows it.
A run too large for `uint64_t` saturates and its remaining digits are skipped. -/
def scanDigits (value : UInt64) : Text → UInt64 × Text
  | [] => (value, [])
  | c :: cs =>
    if isDigit c then
      let digit := (c - '0'.toUInt8).toUInt64
      if value > (18446744073709551615 - digit) / 10 then
        (18446744073709551615, cs.dropWhile isDigit)
      else scanDigits (value * 10 + digit) cs
    else (value, c :: cs)

/-- The outer loop, bounded by the number of components still wanted. -/
def scanComponents : Nat → Text → List UInt64
  | 0, _ => []
  | wanted + 1, text =>
    match text.dropWhile fun c => !isDigit c with
    | [] => []
    | c :: cs =>
      let run := scanDigits 0 (c :: cs)
      run.1 :: scanComponents wanted run.2

def parseComponents (text : Text) : List UInt64 := scanComponents kMaxComponents text

/-- Only `parse` and the default build a version, so its components are those of
its text. -/
structure SoftwareVersion where
  raw : Text
  components : List UInt64
  parsed : (raw = [] ∧ components = []) ∨
    (raw ≠ [] ∧ raw.length ≤ 128 ∧ components = parseComponents raw ∧ components ≠ [])

namespace SoftwareVersion
variable {a b : SoftwareVersion}

instance : Inhabited SoftwareVersion := ⟨⟨[], [], Or.inl ⟨rfl, rfl⟩⟩⟩

def isParseable (text : Text) : Bool := text.length ≤ 128 && text.any isDigit

def parse (text : Text) : SoftwareVersion :=
  if h : text ≠ [] ∧ text.length ≤ 128 ∧ parseComponents text ≠ [] then
    ⟨text, parseComponents text, Or.inr ⟨h.1, h.2.1, rfl, h.2.2⟩⟩
  else default

def valid (v : SoftwareVersion) : Bool := !v.raw.isEmpty

theorem ext (h : a.raw = b.raw) : a = b := by
  obtain ⟨r, c, hp⟩ := a
  obtain ⟨r', c', hp'⟩ := b
  obtain rfl : r = r' := h
  have : c = c' := by
    rcases hp with ⟨h1, h2⟩ | ⟨h1, _, h2, _⟩ <;>
      rcases hp' with ⟨h3, h4⟩ | ⟨h3, _, h4, _⟩ <;> simp_all
  subst this
  rfl

instance : DecidableEq SoftwareVersion := fun a b =>
  decidable_of_iff (a.raw = b.raw) ⟨ext, congrArg raw⟩

theorem length_raw_le (v : SoftwareVersion) : v.raw.length ≤ 128 := by
  rcases v.parsed with ⟨h, _⟩ | ⟨_, h, _⟩
  · simp [h]
  · exact h

/-- Parsing the text of a version gives it back, the unset one included. -/
@[simp] theorem parse_raw (v : SoftwareVersion) : parse v.raw = v := by
  apply ext
  rcases v.parsed with ⟨h, _⟩ | ⟨h1, h2, h3, h4⟩
  · simp [parse, h, default]
  · rw [parse, dif_pos ⟨h1, h2, h3 ▸ h4⟩]

/-- The component-wise comparison, the shorter side padded with zeros. -/
def compareComponents : List UInt64 → List UInt64 → Int
  | [], [] => 0
  | l :: ls, [] => if l < 0 then -1 else if l > 0 then 1 else compareComponents ls []
  | [], r :: rs => if (0 : UInt64) < r then -1 else if (0 : UInt64) > r then 1 else
      compareComponents [] rs
  | l :: ls, r :: rs => if l < r then -1 else if l > r then 1 else compareComponents ls rs

def compare (a b : SoftwareVersion) : Int :=
  if !a.valid && !b.valid then 0
  else if !a.valid then -1
  else if !b.valid then 1
  else compareComponents a.components b.components

end SoftwareVersion

structure VersionRange where
  minimum : SoftwareVersion := default
  maximum : SoftwareVersion := default
  includeMaximum : Bool := false
deriving DecidableEq, Inhabited

namespace VersionRange

def valid (range : VersionRange) : Bool :=
  if !range.minimum.valid || !range.maximum.valid then true
  else
    let cmp := SoftwareVersion.compare range.minimum range.maximum
    if cmp > 0 then false else if cmp = 0 then range.includeMaximum else true

def contains (range : VersionRange) (v : SoftwareVersion) : Bool :=
  if !v.valid then false
  else if range.minimum.valid && SoftwareVersion.compare v range.minimum < 0 then false
  else if range.maximum.valid then
    let cmp := SoftwareVersion.compare v range.maximum
    if cmp > 0 then false else if cmp = 0 && !range.includeMaximum then false else true
  else true

def describe (range : VersionRange) : Text :=
  if range.minimum.valid && range.maximum.valid then
    "[" ++ range.minimum.raw ++ "," ++ range.maximum.raw ++
      (if range.includeMaximum then "]" else ")" : Text)
  else if range.minimum.valid then ">=" ++ range.minimum.raw
  else if range.maximum.valid then
    (if range.includeMaximum then "<=" else "<" : Text) ++ range.maximum.raw
  else "*"

end VersionRange

end CapabilityRegistry
