import CapabilityRegistry.Renderings
import CapabilityRegistry.Texts
import CapabilityRegistry.Values

/-! When capability values are equal exactly when they are rendered alike. -/
namespace CapabilityRegistry

section Forms

/-- Kinds of one form are rendered in one way: in braces, or as two tokens. -/
def ValueKind.form : ValueKind → ValueKind
  | .relationship => .enumeration
  | .architectureSet | .record => .featureSet
  | kind => kind

/-- The form a rendered number is of, read off its unit. -/
def formOfUnit (unit : Text) : ValueKind :=
  if unit = ("B" : Text) then .bytes
  else if ∃ u ∈ (CodeEnum.members : List RateUnit), u.toText = unit then .rate
  else if ∃ u ∈ (CodeEnum.members : List BandwidthUnit), u.toText = unit then .bandwidth
  else .count

/-- The form a rendered word is of. -/
def formOfWord (text : Text) : ValueKind :=
  if text = ("none" : Text) then .none
  else if text = ("true" : Text) ∨ text = ("false" : Text) then .boolean
  else if ∃ l ∈ (CodeEnum.members : List LatencyClass), l.toText = text then .latencyClass
  else .count

/-- The form a rendered value is of, read off its text. -/
def formOf (text : Text) : ValueKind :=
  match text.head? with
  | .none => .featureSet
  | some first =>
    if first = '\x7b'.toUInt8 then .featureSet
    else if first = '>'.toUInt8 ∨ first = '<'.toUInt8 then .versionRange
    else if first = '['.toUInt8 then
      if (text.getLast?).any isDigit then .numericRange else .versionRange
    else if ' '.toUInt8 ∈ text then
      if first = 'i'.toUInt8 then .predicate
      else formOfUnit (text.dropWhile (· != ' '.toUInt8)).tail
    else if ':'.toUInt8 ∈ text then .enumeration
    else formOfWord text

variable {limits : RegistryLimits} {n : Nat} {text token : Text}

theorem formOfUnit_rate (unit : RateUnit) : formOfUnit unit.toText = .rate := by
  cases unit <;> decide

theorem formOfUnit_bandwidth (unit : BandwidthUnit) : formOfUnit unit.toText = .bandwidth := by
  cases unit <;> decide

/-- No unit of a rate or a bandwidth is a canonical token. -/
theorem formOfUnit_token (h : isCanonicalToken token = true) : formOfUnit token = .count := by
  have hrate : ∀ u ∈ (CodeEnum.members : List RateUnit), isCanonicalToken u.toText = false := by
    decide
  have hbandwidth : ∀ u ∈ (CodeEnum.members : List BandwidthUnit),
      isCanonicalToken u.toText = false := by decide
  have hne : ∀ t : Text, isCanonicalToken t = false → t ≠ token := by
    rintro t ht rfl
    rw [ht] at h
    cases h
  rw [formOfUnit, if_neg (hne "B" (by decide)).symm, if_neg, if_neg]
  · rintro ⟨u, hu, he⟩
    exact hne _ (hbandwidth u hu) he
  · rintro ⟨u, hu, he⟩
    exact hne _ (hrate u hu) he

/-- A text that begins with a letter or a digit is no bracketed one. -/
theorem formOf_alnum {first : UInt8} {rest : Text} (h : isTokenAlnum first = true) :
    formOf (first :: rest) =
      if ' '.toUInt8 ∈ first :: rest then
        if first = 'i'.toUInt8 then .predicate
        else formOfUnit ((first :: rest).dropWhile (· != ' '.toUInt8)).tail
      else if ':'.toUInt8 ∈ first :: rest then .enumeration
      else formOfWord (first :: rest) := by
  have hne : ∀ c, isTokenAlnum c = false → first ≠ c := by
    rintro c hc rfl
    rw [hc] at h
    cases h
  have hangle : ¬ (first = '>'.toUInt8 ∨ first = '<'.toUInt8) := by
    rintro (he | he)
    · exact hne _ (by decide) he
    · exact hne _ (by decide) he
  rw [formOf, List.head?_cons]
  dsimp only
  rw [if_neg (hne _ (by decide)), if_neg hangle, if_neg (hne _ (by decide))]

theorem decimal_cons (n : Nat) : ∃ first rest, decimal n = first :: rest ∧
    isTokenAlnum first = true ∧ first ≠ 'i'.toUInt8 := by
  obtain ⟨first, rest, hc⟩ := List.exists_cons_of_ne_nil (decimal_ne_nil n)
  obtain ⟨hlow, hhigh⟩ := mem_decimal (n := n) (hc ▸ List.mem_cons_self)
  refine ⟨first, rest, hc, ?_, ?_⟩
  · have h0 : '0'.toUInt8 ≤ first := UInt8.le_iff_toNat_le.mpr hlow
    have h9 : first ≤ '9'.toUInt8 := UInt8.le_iff_toNat_le.mpr hhigh
    simp [isTokenAlnum, h0, h9]
  · rintro rfl
    exact absurd hhigh (by decide)

/-- A number with a unit is of the form its unit tells. -/
theorem formOf_unit (n : Nat) (unit : Text) :
    formOf (decimal n ++ " " ++ unit) = formOfUnit unit := by
  obtain ⟨first, rest, hc, halnum, hi⟩ := decimal_cons n
  have hdrop : ((decimal n ++ (" " ++ unit)).dropWhile (· != ' '.toUInt8)).tail = unit := by
    rw [List.dropWhile_append_of_pos fun c hc => by
      simpa using fun he : c = ' '.toUInt8 => not_mem_decimal (by decide) n (he ▸ hc)]
    rfl
  have hspace : ' '.toUInt8 ∈ decimal n ++ (" " ++ unit) :=
    List.mem_append_right _ (List.mem_append_left _ (by decide))
  rw [List.append_assoc]
  rw [hc, List.cons_append] at hdrop hspace ⊢
  rw [formOf_alnum halnum, if_pos hspace, if_neg hi, hdrop]

theorem formOf_decimal (n : Nat) : formOf (decimal n) = .count := by
  obtain ⟨first, rest, hc, halnum, hi⟩ := decimal_cons n
  have hword : ∀ t : Text, t.head?.any (fun c => 48 ≤ c.toNat ∧ c.toNat ≤ 57) = false →
      decimal n ≠ t := by
    rintro _ ht rfl
    have hdigit := mem_decimal (n := n) (hc ▸ List.mem_cons_self : first ∈ decimal n)
    rw [hc] at ht
    simp at ht
    omega
  have hlatency : ∀ l ∈ (CodeEnum.members : List LatencyClass),
      l.toText.head?.any (fun c => 48 ≤ c.toNat ∧ c.toNat ≤ 57) = false := by decide
  have hspace := not_mem_decimal (c := ' '.toUInt8) (by decide) n
  have hcolon := not_mem_decimal (c := ':'.toUInt8) (by decide) n
  have hform : formOfWord (decimal n) = .count := by
    rw [formOfWord, if_neg (hword _ (by decide)), if_neg, if_neg]
    · rintro ⟨l, hl, he⟩
      exact hword _ (hlatency l hl) he.symm
    · rintro (he | he)
      · exact hword _ (by decide) he
      · exact hword _ (by decide) he
  rw [hc] at hspace hcolon hform ⊢
  rw [formOf_alnum halnum, if_neg hspace, if_neg hcolon, hform]

theorem formOf_tokens {a b : Text} (ha : isCanonicalToken a = true) (hb : isCanonicalToken b = true) :
    formOf (a ++ ":" ++ b) = .enumeration := by
  obtain ⟨first, rest, rfl, halnum⟩ := first_of_isCanonicalToken ha
  have hspace : ' '.toUInt8 ∉ first :: rest ++ ":" ++ b := by
    have ha := not_mem_token (c := ' '.toUInt8) (by decide) ha
    have hb := not_mem_token (c := ' '.toUInt8) (by decide) hb
    exact List.not_mem_append (List.not_mem_append ha (by decide)) hb
  have hcolon : ':'.toUInt8 ∈ first :: rest ++ ":" ++ b :=
    List.mem_append_left _ (List.mem_append_right _ (by decide))
  rw [List.cons_append, List.cons_append] at hspace hcolon ⊢
  rw [formOf_alnum halnum, if_neg hspace, if_pos hcolon]

theorem relation_token (relation : CapabilityRelation) : isCanonicalToken relation.toText = true := by
  cases relation <;> decide

theorem token_of_valid {Tag : Type} {id : Id Tag} (h : id.valid = true) :
    isCanonicalToken id.str = true := by
  exact id.canonical.resolve_left (Id.valid_iff.mp h)

/-- A text in square brackets is told by its last byte. -/
theorem formOf_square (text tail : Text) {last : UInt8} (h : tail.getLast? = some last) :
    formOf (("[" ++ text : Text) ++ tail) =
      if isDigit last then .numericRange else .versionRange := by
  have hlast : (("[" ++ text : Text) ++ tail).getLast? = some last := by
    rw [List.getLast?_append, h, Option.some_or]
  have hhead : (("[" ++ text : Text) ++ tail).head? = some '['.toUInt8 := rfl
  rw [formOf, hhead, hlast]
  rfl

theorem formOf_range {range : VersionRange}
    (h : range.minimum.valid = true ∨ range.maximum.valid = true) :
    formOf range.describe = .versionRange := by
  unfold VersionRange.describe
  cases hmin : range.minimum.valid <;> cases hmax : range.maximum.valid
  · simp [hmin, hmax] at h
  · cases range.includeMaximum <;> rfl
  · rfl
  · rw [Bool.and_self, if_pos rfl, List.append_assoc ("[" : Text), List.append_assoc ("[" : Text)]
    cases range.includeMaximum
    · exact formOf_square _ ")" (show _ = some ')'.toUInt8 from rfl)
    · exact formOf_square _ "]" (show _ = some ']'.toUInt8 from rfl)

theorem decimalInt_eq (n : Int64) : ∃ sign m, decimalInt n = sign ++ decimal m ∧
    (sign = [] ∨ sign = ("-" : Text)) := by
  unfold decimalInt
  split
  · exact ⟨"-", _, rfl, .inr rfl⟩
  · exact ⟨[], _, rfl, .inl rfl⟩

theorem formOf_numeric (range : NumericRangeValue) :
    formOf (CapabilityValue.numericRange range).describe = .numericRange := by
  obtain ⟨sign, m, hstep, -⟩ := decimalInt_eq range.step
  obtain ⟨last, hlast⟩ : ∃ last, (decimal m).getLast? = some last :=
    ⟨_, List.getLast?_eq_some_getLast (decimal_ne_nil m)⟩
  have hdigit : isDigit last = true := by
    obtain ⟨hlow, hhigh⟩ := mem_decimal (List.mem_of_getLast? hlast)
    have h0 : '0'.toUInt8 ≤ last := UInt8.le_iff_toNat_le.mpr hlow
    have h9 : last ≤ '9'.toUInt8 := UInt8.le_iff_toNat_le.mpr hhigh
    simp [isDigit, h0, h9]
  rw [CapabilityValue.describe, hstep, ← List.append_assoc, List.append_assoc ("[" : Text),
    List.append_assoc ("[" : Text), List.append_assoc ("[" : Text), List.append_assoc ("[" : Text),
    formOf_square _ _ hlast, hdigit, if_pos rfl]

/-- Read off its text, the form of a flat value is that of its kind. -/
theorem formOf_describe {value : CapabilityValue} (hv : validateValue limits value = .ok ())
    (hflat : value.kind ≠ .record) : formOf value.describe = value.kind.form := by
  cases value with
  | none => decide
  | boolean value => cases value <;> decide
  | latencyClass value => cases value <;> decide
  | bytes bytes =>
    have hunit : decimal bytes.toNat ++ (" B" : Text) = decimal bytes.toNat ++ " " ++ "B" := by
      rw [List.append_assoc]
      rfl
    rw [CapabilityValue.describe, hunit, formOf_unit]
    rfl
  | rate value => exact (formOf_unit _ _).trans (formOfUnit_rate value.unit)
  | bandwidth value => exact (formOf_unit _ _).trans (formOfUnit_bandwidth value.unit)
  | featureSet features => rfl
  | architectureSet architectures => rfl
  | count value =>
    rw [CapabilityValue.describe]
    split
    · exact formOf_decimal _
    · next hunit =>
      simp only [validateValue, require_eq_ok, Bool.or_eq_true] at hv
      exact (formOf_unit _ _).trans (formOfUnit_token (hv.resolve_left hunit))
  | enumeration value =>
    simp only [validateValue, require_eq_ok, Bool.and_eq_true] at hv
    exact formOf_tokens hv.1 hv.2
  | relationship value =>
    simp only [validateValue, require_eq_ok] at hv
    exact formOf_tokens (relation_token value.relation) (token_of_valid hv)
  | predicate condition =>
    have hif : (CapabilityValue.predicate condition).describe =
        'i'.toUInt8 :: 'f'.toUInt8 :: ' '.toUInt8 :: describeCondition condition := rfl
    rw [hif, formOf_alnum (by decide), if_pos (by simp), if_pos rfl]
    rfl
  | versionRange range =>
    simp only [validateValue, validateVersionRangeValue, status_bind_eq_ok, require_eq_ok,
      Bool.or_eq_true] at hv
    exact formOf_range hv.2
  | numericRange range => exact formOf_numeric range
  | record fields => exact (hflat rfl).elim

end Forms

section Flat
variable {limits : RegistryLimits} {a b : CapabilityValue}

/-- A version has a digit in it. -/
theorem any_isDigit_of_valid {v : SoftwareVersion} (h : v.valid = true) :
    v.raw.any isDigit = true := by
  have hraw : v.raw ≠ [] := by
    simpa [SoftwareVersion.valid] using h
  rcases v.parsed with ⟨hnil, -⟩ | ⟨-, -, hcomponents, hne⟩
  · exact (hraw hnil).elim
  · by_contra hdigit
    refine hne (hcomponents.trans ?_)
    have hdrop : (v.raw.dropWhile fun c => !isDigit c) = [] := by
      simpa [List.dropWhile_eq_nil_iff] using hdigit
    rw [parseComponents, kMaxComponents, scanComponents, hdrop]

/-- A range whose text is no other range's: with two bounds, no comma follows a digit of the
minimum; the maximum of a range that excludes it and has no minimum does not begin with `=`. -/
structure VersionRange.Unambiguous (range : VersionRange) : Prop where
  comma : range.minimum.valid = true → range.maximum.valid = true → ∀ pre post : Text,
    range.minimum.raw = pre ++ ','.toUInt8 :: post → pre.any isDigit = false
  equals : range.minimum.valid = false → range.includeMaximum = false →
    range.maximum.raw.head? ≠ some '='.toUInt8

/-- Ranges with open ends alike: with one minimum and no maximum, neither or both include it. -/
def VersionRange.SameEnds (a b : VersionRange) : Prop :=
  a.minimum.raw = b.minimum.raw → a.maximum.valid = false → b.maximum.valid = false →
    a.includeMaximum = b.includeMaximum

theorem minimum_read {min min' : SoftwareVersion} {max max' : Text} (hv : min.valid = true)
    (hcomma : ∀ pre post : Text, min'.raw = pre ++ ','.toUInt8 :: post → pre.any isDigit = false)
    {rest : Text} (hraw : min'.raw = min.raw ++ rest)
    (h : ','.toUInt8 :: max = rest ++ ','.toUInt8 :: max') : rest = [] := by
  cases rest with
  | nil => rfl
  | cons c rest =>
    obtain ⟨rfl, -⟩ := List.cons.inj h
    have hdigit := hcomma _ _ hraw
    rw [any_isDigit_of_valid hv] at hdigit
    cases hdigit

/-- The marks around the bounds of a range. -/
theorem describe_range (range : VersionRange) : range.describe =
    if range.minimum.valid then
      if range.maximum.valid then
        '['.toUInt8 :: (range.minimum.raw ++ ','.toUInt8 :: (range.maximum.raw ++
          [if range.includeMaximum then ']'.toUInt8 else ')'.toUInt8]))
      else '>'.toUInt8 :: '='.toUInt8 :: range.minimum.raw
    else if range.maximum.valid then
      if range.includeMaximum then '<'.toUInt8 :: '='.toUInt8 :: range.maximum.raw
      else '<'.toUInt8 :: range.maximum.raw
    else ['*'.toUInt8] := by
  unfold VersionRange.describe
  cases range.minimum.valid <;> cases range.maximum.valid <;> cases range.includeMaximum <;>
    simp only [List.append_assoc] <;> rfl

theorem eq_default_of_invalid {v : SoftwareVersion} (h : v.valid = false) : v = default := by
  have hraw : v.raw = [] := by simpa [SoftwareVersion.valid] using h
  exact SoftwareVersion.ext hraw

theorem head_range {range : VersionRange}
    (h : range.minimum.valid = true ∨ range.maximum.valid = true) :
    range.describe.head? = some (if range.minimum.valid then
      if range.maximum.valid then '['.toUInt8 else '>'.toUInt8 else '<'.toUInt8) := by
  rw [describe_range]
  cases hmin : range.minimum.valid <;> cases hmax : range.maximum.valid <;>
    cases range.includeMaximum <;> simp_all

/-- Ranges with one text have bounds on the same sides. -/
theorem bounds_read {a b : VersionRange} (ha : a.minimum.valid = true ∨ a.maximum.valid = true)
    (hb : b.minimum.valid = true ∨ b.maximum.valid = true) (h : a.describe = b.describe) :
    a.minimum.valid = b.minimum.valid ∧ a.maximum.valid = b.maximum.valid := by
  have hhead := congrArg List.head? h
  rw [head_range ha, head_range hb, Option.some.injEq] at hhead
  cases hamin : a.minimum.valid <;> cases hamax : a.maximum.valid <;>
    cases hbmin : b.minimum.valid <;> cases hbmax : b.maximum.valid <;>
    simp_all <;> exact absurd hhead (by decide)

theorem range_read {a b : VersionRange} (ha : a.minimum.valid = true ∨ a.maximum.valid = true)
    (hb : b.minimum.valid = true ∨ b.maximum.valid = true) (hu : a.Unambiguous)
    (hu' : b.Unambiguous) (hends : a.SameEnds b) (h : a.describe = b.describe) : a = b := by
  obtain ⟨hmin, hmax⟩ := bounds_read ha hb h
  rw [describe_range, describe_range, ← hmin, ← hmax] at h
  have hrange : ∀ {a b : VersionRange}, a.minimum = b.minimum → a.maximum = b.maximum →
      a.includeMaximum = b.includeMaximum → a = b := by
    rintro ⟨_, _, _⟩ ⟨_, _, _⟩ rfl rfl rfl
    rfl
  cases hamin : a.minimum.valid with
  | true =>
    cases hamax : a.maximum.valid with
    | true =>
      simp only [hamin, hamax, if_true, List.cons.injEq, true_and] at h
      have hbmin := hmin.symm.trans hamin
      have hbmax := hmax.symm.trans hamax
      have hraw : a.minimum.raw = b.minimum.raw := by
        rcases List.append_eq_append_iff.mp h with ⟨rest, hr, hrest⟩ | ⟨rest, hr, hrest⟩
        · rw [hr, minimum_read hamin (hu'.comma hbmin hbmax) hr hrest, List.append_nil]
        · rw [hr, minimum_read hbmin (hu.comma hamin hamax) hr hrest, List.append_nil]
      rw [hraw] at h
      obtain ⟨hmaximum, hlast⟩ :=
        List.append_inj' (List.cons.inj (List.append_cancel_left h)).2 rfl
      refine hrange (SoftwareVersion.ext hraw) (SoftwareVersion.ext hmaximum) ?_
      revert hlast
      cases a.includeMaximum <;> cases b.includeMaximum <;> decide
    | false =>
      simp only [hamin, hamax, if_true, Bool.false_eq_true, if_false, List.cons.injEq, true_and] at h
      refine hrange (SoftwareVersion.ext h) ?_ (hends h hamax (hmax ▸ hamax))
      rw [eq_default_of_invalid hamax, eq_default_of_invalid (hmax.symm.trans hamax)]
  | false =>
    have hamax := ha.resolve_left (by simp [hamin])
    have hminimum : a.minimum = b.minimum := by
      rw [eq_default_of_invalid hamin, eq_default_of_invalid (hmin.symm.trans hamin)]
    simp only [hamin, hamax, if_true, Bool.false_eq_true, if_false] at h
    cases hainc : a.includeMaximum <;> cases hbinc : b.includeMaximum <;>
      simp only [hainc, hbinc, if_true, Bool.false_eq_true, if_false, List.cons.injEq, true_and] at h
    · exact hrange hminimum (SoftwareVersion.ext h) (hainc.trans hbinc.symm)
    · exact (hu.equals hamin hainc (by rw [h]; rfl)).elim
    · exact (hu'.equals (hmin ▸ hamin) hbinc (by rw [← h]; rfl)).elim
    · exact hrange hminimum (SoftwareVersion.ext h) (hainc.trans hbinc.symm)

/-- An enumeration whose text is no other's: in its domain no colon stands before a letter or a
digit. -/
def EnumValue.Unambiguous (value : EnumValue) : Prop :=
  ∀ (pre post : Text) (first : UInt8), value.domain = pre ++ ':'.toUInt8 :: first :: post →
    isTokenAlnum first = false

theorem domain_read {value : EnumValue} {domain rest value' : Text} (hu : value.Unambiguous)
    (hv : isCanonicalToken value' = true) (hdomain : value.domain = domain ++ rest)
    (h : ':'.toUInt8 :: value' = rest ++ ':'.toUInt8 :: value.value) : rest = [] := by
  obtain ⟨first, post, rfl, hfirst⟩ := first_of_isCanonicalToken hv
  cases rest with
  | nil => rfl
  | cons c rest =>
    cases rest with
    | nil =>
      -- the value would begin with the colon
      simp only [List.cons_append, List.nil_append, List.cons.injEq] at h
      obtain ⟨-, rfl, -⟩ := h
      exact absurd hfirst (by decide)
    | cons c' rest =>
      simp only [List.cons_append, List.cons.injEq] at h
      obtain ⟨rfl, rfl, -⟩ := h
      rw [hu domain rest first hdomain] at hfirst
      cases hfirst

theorem enumeration_read {a b : EnumValue} (ha : isCanonicalToken a.value = true)
    (hb : isCanonicalToken b.value = true) (hu : a.Unambiguous) (hu' : b.Unambiguous)
    (h : a.domain ++ ":" ++ a.value = b.domain ++ ":" ++ b.value) : a = b := by
  have h : a.domain ++ ':'.toUInt8 :: a.value = b.domain ++ ':'.toUInt8 :: b.value := by
    rw [List.append_assoc, List.append_assoc] at h
    exact h
  obtain ⟨domain, value⟩ := a
  obtain ⟨domain', value'⟩ := b
  dsimp only at ha hb h
  have hdomain : domain = domain' := by
    rcases List.append_eq_append_iff.mp h with ⟨rest, hr, hrest⟩ | ⟨rest, hr, hrest⟩
    · rw [hr, domain_read hu' ha hr hrest, List.append_nil]
    · rw [hr, domain_read hu hb hr hrest, List.append_nil]
  subst hdomain
  obtain rfl := (List.cons.inj (List.append_cancel_left h)).2
  rfl

theorem mem_joinTexts {c : UInt8} {ts : List Text} (h : c ∈ joinTexts "," ts) :
    c = ','.toUInt8 ∨ ∃ t ∈ ts, c ∈ t := by
  induction ts with
  | nil => cases h
  | cons t ts ih =>
    cases ts with
    | nil => exact .inr ⟨t, List.mem_cons_self, h⟩
    | cons u us =>
      rw [joinTexts] at h
      · rcases List.mem_append.mp h with h | h
        · rcases List.mem_append.mp h with h | h
          · exact .inr ⟨t, List.mem_cons_self, h⟩
          · exact .inl (List.mem_singleton.mp h)
        · rcases ih h with h | ⟨t', ht', hc⟩
          · exact .inl h
          · exact .inr ⟨t', List.mem_cons_of_mem _ ht', hc⟩
      · simp

theorem tokens_of_validateArchitectures {previous : Option ArchitectureId}
    {architectures : List ArchitectureId}
    (h : validateArchitectures previous architectures = .ok ()) :
    ∀ token ∈ architectures.map Id.str, isCanonicalToken token = true := by
  induction architectures generalizing previous with
  | nil => simp
  | cons architecture rest ih =>
    simp only [validateArchitectures, status_bind_eq_ok, require_eq_ok] at h
    exact List.forall_mem_cons.mpr ⟨token_of_valid h.1, ih h.2.2⟩

/-- Tokens joined by commas are read back. -/
theorem tokens_read {ts us : List Text} (ht : ∀ t ∈ ts, isCanonicalToken t = true)
    (hu : ∀ u ∈ us, isCanonicalToken u = true) (h : joinTexts "," ts = joinTexts "," us) :
    ts = us := by
  have hcons : ∀ (t u : Text) (rest : List Text), joinTexts "," (t :: u :: rest) =
      t ++ ','.toUInt8 :: joinTexts "," (u :: rest) := fun t u rest => by
    rw [joinTexts, List.append_assoc]
    · rfl
    · simp
  have hcomma : ∀ {t : Text}, isCanonicalToken t = true → ','.toUInt8 ∉ t :=
    not_mem_token (by decide)
  induction ts generalizing us with
  | nil =>
    cases us with
    | nil => rfl
    | cons u us =>
      obtain ⟨first, rest, rfl, -⟩ := first_of_isCanonicalToken (hu u List.mem_cons_self)
      cases us with
      | nil => cases h
      | cons v vs =>
        rw [hcons] at h
        cases h
  | cons t ts ih =>
    have htail := fun t' ht' => ht t' (List.mem_cons_of_mem t ht')
    have hfirst := hcomma (ht t List.mem_cons_self)
    cases us with
    | nil =>
      obtain ⟨first, rest, rfl, -⟩ := first_of_isCanonicalToken (ht t List.mem_cons_self)
      cases ts with
      | nil => cases h
      | cons t' ts =>
        rw [hcons] at h
        cases h
    | cons u us =>
      have hutail := fun u' hu' => hu u' (List.mem_cons_of_mem u hu')
      have hufirst := hcomma (hu u List.mem_cons_self)
      cases ts with
      | nil =>
        cases us with
        | nil => exact congrArg (fun t => [t]) h
        | cons u' us =>
          rw [hcons] at h
          have hm : ','.toUInt8 ∈ joinTexts "," [t] := by
            rw [h]
            exact List.mem_append_right _ List.mem_cons_self
          exact (hfirst hm).elim
      | cons t' ts =>
        cases us with
        | nil =>
          rw [hcons] at h
          have hm : ','.toUInt8 ∈ joinTexts "," [u] := by
            rw [← h]
            exact List.mem_append_right _ List.mem_cons_self
          exact (hufirst hm).elim
        | cons u' us =>
          rw [hcons, hcons] at h
          obtain ⟨rfl, hrest⟩ := append_mark_inj hfirst hufirst h
          rw [ih htail hutail hrest]

theorem unit_read {n m : Nat} {unit unit' : Text}
    (h : decimal n ++ " " ++ unit = decimal m ++ " " ++ unit') : n = m ∧ unit = unit' := by
  have hspace := not_mem_decimal (c := ' '.toUInt8) (by decide)
  rw [List.append_assoc, List.append_assoc] at h
  obtain ⟨hn, hunit⟩ := append_mark_inj (hspace n) (hspace m) h
  exact ⟨decimal_inj hn, hunit⟩

theorem count_read {a b : CountValue}
    (h : (CapabilityValue.count a).describe = (CapabilityValue.count b).describe) : a = b := by
  have hspace : ∀ n m (unit : Text), decimal n ≠ decimal m ++ " " ++ unit := fun n m unit he =>
    not_mem_decimal (c := ' '.toUInt8) (by decide) n
      (he ▸ List.mem_append_left _ (List.mem_append_right _ (by decide)))
  obtain ⟨n, unit⟩ := a
  obtain ⟨m, unit'⟩ := b
  rw [CapabilityValue.describe, CapabilityValue.describe] at h
  dsimp only at h
  split at h <;> split at h
  · next hu hu' =>
    obtain rfl := UInt64.toNat_inj.mp (decimal_inj h)
    rw [List.isEmpty_iff.mp hu, List.isEmpty_iff.mp hu']
  · exact (hspace _ _ _ h).elim
  · exact (hspace _ _ _ h.symm).elim
  · obtain ⟨hn, rfl⟩ := unit_read h
    obtain rfl := UInt64.toNat_inj.mp hn
    rfl

theorem decimalInt_inj {n m : Int64} (h : decimalInt n = decimalInt m) : n = m := by
  have hminus : ∀ x y, ("-" ++ decimal x : Text) ≠ decimal y := fun x y he =>
    not_mem_decimal (c := '-'.toUInt8) (by decide) y
      (he ▸ List.mem_append_left _ (by decide))
  have hneg : ∀ x : Int64, x < 0 ↔ x.toInt < 0 := fun x => by
    rw [Int64.lt_iff_toInt_lt]
    rfl
  refine Int64.toInt_inj.mp ?_
  unfold decimalInt at h
  split at h <;> split at h
  · next hn hm =>
    have habs := decimal_inj (List.append_cancel_left h)
    have hn := (hneg n).mp hn
    have hm := (hneg m).mp hm
    omega
  · exact (hminus _ _ h).elim
  · exact (hminus _ _ h.symm).elim
  · next hn hm =>
    have hnat := decimal_inj h
    have hn := (hneg n).not.mp hn
    have hm := (hneg m).not.mp hm
    omega

theorem not_mem_decimalInt {c : UInt8} (hc : c.toNat < 48 ∨ 57 < c.toNat)
    (hminus : c ≠ '-'.toUInt8) (n : Int64) : c ∉ decimalInt n := by
  obtain ⟨sign, m, hn, hsign⟩ := decimalInt_eq n
  rw [hn]
  refine List.not_mem_append ?_ (not_mem_decimal hc m)
  rcases hsign with rfl | rfl
  · exact List.not_mem_nil
  · exact fun hm => hminus (List.mem_singleton.mp hm)

theorem numeric_read {a b : NumericRangeValue} (h : (CapabilityValue.numericRange a).describe =
    (CapabilityValue.numericRange b).describe) : a = b := by
  have hcomma := not_mem_decimalInt (c := ','.toUInt8) (by decide) (by decide)
  have hbracket := not_mem_decimalInt (c := ']'.toUInt8) (by decide) (by decide)
  obtain ⟨minimum, maximum, step⟩ := a
  obtain ⟨minimum', maximum', step'⟩ := b
  rw [CapabilityValue.describe, CapabilityValue.describe] at h
  simp only [List.append_assoc] at h
  obtain ⟨hmin, h⟩ := append_mark_inj (hcomma _) (hcomma _) (List.append_cancel_left h)
  obtain ⟨hmax, h⟩ := append_mark_inj (hbracket _) (hbracket _) h
  have hstep : decimalInt step = decimalInt step' := List.append_cancel_left h
  obtain rfl := decimalInt_inj hmin
  obtain rfl := decimalInt_inj hmax
  obtain rfl := decimalInt_inj hstep
  rfl

theorem relationship_read {a b : RelationshipValue} (h : (CapabilityValue.relationship a).describe =
    (CapabilityValue.relationship b).describe) : a = b := by
  have hcolon : ∀ relation : CapabilityRelation, ':'.toUInt8 ∉ relation.toText := by
    rintro ⟨⟩ <;> decide
  have hinj : Function.Injective CapabilityRelation.toText :=
    CodeEnum.injective_of_members (by decide)
  obtain ⟨relation, target⟩ := a
  obtain ⟨relation', target'⟩ := b
  rw [CapabilityValue.describe, CapabilityValue.describe, List.append_assoc,
    List.append_assoc] at h
  obtain ⟨hrelation, htarget⟩ := append_mark_inj (hcolon _) (hcolon _) h
  obtain rfl := hinj hrelation
  obtain rfl : target = target' := Id.ext htarget
  rfl

theorem rateUnit_toText_inj : Function.Injective RateUnit.toText :=
  CodeEnum.injective_of_members (by decide)

theorem bandwidthUnit_toText_inj : Function.Injective BandwidthUnit.toText :=
  CodeEnum.injective_of_members (by decide)

theorem latencyClass_toText_inj : Function.Injective LatencyClass.toText :=
  CodeEnum.injective_of_members (by decide)

/-- Ranges spelled alike where they may be equal: if their bounds have the same precedences and
agree on the maximum, then these have the same texts. -/
structure VersionRange.SpelledAlike (a b : VersionRange) : Prop where
  bounds : SoftwareVersion.compare a.minimum b.minimum = 0 →
    SoftwareVersion.compare a.maximum b.maximum = 0 → a.includeMaximum = b.includeMaximum →
      a.minimum.raw = b.minimum.raw ∧ a.maximum.raw = b.maximum.raw
  ends : a.SameEnds b

/-- A value whose text is no other's of its kind. -/
def CapabilityValue.Unambiguous : CapabilityValue → Prop
  | .enumeration value => value.Unambiguous
  | .versionRange range => range.Unambiguous
  | _ => True

/-- Values spelled alike where they may be equal. -/
def CapabilityValue.SpelledAlike : CapabilityValue → CapabilityValue → Prop
  | .versionRange a, .versionRange b => a.SpelledAlike b
  | _, _ => True

/-- Unambiguous flat values of one kind with the same text are equal. -/
theorem flat_read {limits' : RegistryLimits} (ha : validateValue limits a = .ok ())
    (hb : validateValue limits' b = .ok ()) (hflat : a.kind ≠ .record) (hkind : a.kind = b.kind)
    (hu : a.Unambiguous) (hu' : b.Unambiguous) (hs : a.SpelledAlike b)
    (h : a.describe = b.describe) : a.beq b = true := by
  have hself : a = b → a.beq b = true := by
    rintro rfl
    exact CapabilityValue.beq_self a
  cases a with
  | none =>
    cases b with
    | none => rfl
    | _ => cases hkind
  | boolean value =>
    cases b with
    | boolean value' =>
      cases value <;> cases value' <;> first | rfl | exact absurd h (by decide)
    | _ => cases hkind
  | count value =>
    cases b with
    | count value' => exact hself (congrArg _ (count_read h))
    | _ => cases hkind
  | bytes bytes =>
    cases b with
    | bytes bytes' =>
      simp only [CapabilityValue.describe] at h
      exact hself (congrArg _ (UInt64.toNat_inj.mp (decimal_inj (List.append_cancel_right h))))
    | _ => cases hkind
  | rate value =>
    cases b with
    | rate value' =>
      obtain ⟨magnitude, unit⟩ := value
      obtain ⟨magnitude', unit'⟩ := value'
      obtain ⟨hn, hunit⟩ := unit_read h
      obtain rfl := UInt64.toNat_inj.mp hn
      obtain rfl := rateUnit_toText_inj hunit
      exact hself rfl
    | _ => cases hkind
  | bandwidth value =>
    cases b with
    | bandwidth value' =>
      obtain ⟨magnitude, unit⟩ := value
      obtain ⟨magnitude', unit'⟩ := value'
      obtain ⟨hn, hunit⟩ := unit_read h
      obtain rfl := UInt64.toNat_inj.mp hn
      obtain rfl := bandwidthUnit_toText_inj hunit
      exact hself rfl
    | _ => cases hkind
  | latencyClass value =>
    cases b with
    | latencyClass value' => exact hself (congrArg _ (latencyClass_toText_inj h))
    | _ => cases hkind
  | enumeration value =>
    cases b with
    | enumeration value' =>
      simp only [validateValue, require_eq_ok, Bool.and_eq_true] at ha hb
      exact hself (congrArg _ (enumeration_read ha.2 hb.2 hu hu' h))
    | _ => cases hkind
  | featureSet features =>
    cases b with
    | featureSet features' =>
      simp only [validateValue, status_bind_eq_ok, require_eq_ok] at ha hb
      have htokens := List.append_cancel_left (List.append_cancel_right h)
      exact hself (congrArg _ (tokens_read (canonical_of_validateFeatures ha.2)
        (canonical_of_validateFeatures hb.2) htokens))
    | _ => cases hkind
  | versionRange range =>
    cases b with
    | versionRange range' =>
      simp only [validateValue, validateVersionRangeValue, status_bind_eq_ok, require_eq_ok,
        Bool.or_eq_true] at ha hb
      exact hself (congrArg _ (range_read ha.2 hb.2 hu hu' hs.ends h))
    | _ => cases hkind
  | architectureSet architectures =>
    cases b with
    | architectureSet architectures' =>
      simp only [validateValue, status_bind_eq_ok, require_eq_ok] at ha hb
      have htokens := List.append_cancel_left (List.append_cancel_right h)
      have hids := tokens_read (tokens_of_validateArchitectures ha.2)
        (tokens_of_validateArchitectures hb.2) htokens
      exact hself (congrArg _ (List.map_injective_iff.mpr (fun _ _ => Id.ext) hids))
    | _ => cases hkind
  | numericRange range =>
    cases b with
    | numericRange range' => exact hself (congrArg _ (numeric_read h))
    | _ => cases hkind
  | record fields => exact (hflat rfl).elim
  | relationship value =>
    cases b with
    | relationship value' => exact hself (congrArg _ (relationship_read h))
    | _ => cases hkind
  | predicate condition =>
    cases b with
    | predicate condition' => exact beq_iff_eq.mpr (List.append_cancel_left h)
    | _ => cases hkind

theorem eq_of_beq_flat (hflat : a.kind ≠ .record) (hrange : a.kind ≠ .versionRange)
    (hpredicate : a.kind ≠ .predicate) (h : a.beq b = true) : a = b := by
  cases a <;> cases b <;> simp_all [CapabilityValue.beq, CapabilityValue.kind]

/-- Equal flat values that are spelled alike have the same text. -/
theorem flat_rendered (hflat : a.kind ≠ .record) (hs : a.SpelledAlike b) (h : a.beq b = true) :
    a.describe = b.describe := by
  cases a with
  | versionRange range =>
    cases b with
    | versionRange range' =>
      simp only [CapabilityValue.beq, versionRangeEq, Bool.and_eq_true, beq_iff_eq] at h
      obtain ⟨⟨hmin, hmax⟩, hinclude⟩ := h
      obtain ⟨hminimum, hmaximum⟩ := hs.bounds hmin hmax hinclude
      rw [CapabilityValue.describe, CapabilityValue.describe, describe_range, describe_range,
        SoftwareVersion.ext hminimum, SoftwareVersion.ext hmaximum, hinclude]
    | _ => cases h
  | predicate condition =>
    cases b with
    | predicate condition' => exact congrArg (("if " : Text) ++ ·) (beq_iff_eq.mp h)
    | _ => cases h
  | _ =>
    rw [eq_of_beq_flat hflat (by simp [CapabilityValue.kind]) (by simp [CapabilityValue.kind]) h]

/-- Accepted unambiguous values of one flat kind agree with their texts exactly when they are spelled
alike. -/
theorem flat_iff {limits' : RegistryLimits} (ha : validateValue limits a = .ok ())
    (hb : validateValue limits' b = .ok ()) (hflat : a.kind ≠ .record) (hkind : a.kind = b.kind)
    (hu : a.Unambiguous) (hu' : b.Unambiguous) :
    (a.beq b = true ↔ a.describe = b.describe) ↔ a.SpelledAlike b := by
  refine ⟨fun h => ?_, fun hs => ⟨flat_rendered hflat hs, flat_read ha hb hflat hkind hu hu' hs⟩⟩
  cases a with
  | versionRange range =>
    cases b with
    | versionRange range' =>
      simp only [validateValue, validateVersionRangeValue, status_bind_eq_ok, require_eq_ok,
        Bool.or_eq_true] at ha hb
      refine ⟨fun hmin hmax hinclude => ?_, fun hraw hmax hmax' => ?_⟩
      · -- the ranges are equal, and one text is not that of two of them
        have hequal : versionRangeEq range range' = true := by
          simp [versionRangeEq, hmin, hmax, hinclude]
        obtain rfl := range_read ha.2 hb.2 hu hu' (fun _ _ _ => hinclude) (h.mp hequal)
        exact ⟨rfl, rfl⟩
      · -- the flag of a missing maximum is not rendered, so it cannot differ
        have htext : range.describe = range'.describe := by
          rw [describe_range, describe_range, hmax, hmax', SoftwareVersion.ext hraw]
          have hmin' := hb.2.resolve_right (by simp [hmax'])
          simp [hmin']
        have hequal : versionRangeEq range range' = true := h.mpr htext
        simp only [versionRangeEq, Bool.and_eq_true, beq_iff_eq] at hequal
        exact hequal.2
    | _ => cases hkind
  | _ =>
    cases b with
    | versionRange range' => cases hkind
    | _ => trivial

end Flat

section Marks
variable {limits : RegistryLimits} {σ : List Bool} {text : Text}

/-- The marks of a rendered record. -/
def recordMarks : Punctuation UInt8 where
  opening := '\x7b'.toUInt8
  closing := '\x7d'.toUInt8
  comma := ','.toUInt8
  gap := []
  Head h := ∃ name : Text, isCanonicalToken name = true ∧ h = name ++ "="
  comma_ne := by decide
  opening_ne := by decide
  quiet_gap := by decide
  head_ne := by
    rintro _ ⟨name, -, rfl⟩
    exact List.append_ne_nil_of_right_ne_nil _ (by decide)
  quiet_head := by
    rintro _ ⟨name, hname, rfl⟩
    exact ⟨List.not_mem_append (not_mem_token (by decide) hname) (by decide),
      List.not_mem_append (not_mem_token (by decide) hname) (by decide)⟩

/-- The bytes that are no part of a record's structure. -/
def isSilent (c : UInt8) : Bool :=
  c != '='.toUInt8 && c != '\x7b'.toUInt8 && c != '\x7d'.toUInt8

theorem free_of_unnamed (hequals : '='.toUInt8 ∉ text)
    (heven : text.count '\x7b'.toUInt8 = text.count '\x7d'.toUInt8) : recordMarks.Free σ text := by
  refine ⟨?_, fun _ => heven⟩
  rintro - _ ⟨name, -, rfl⟩ hin
  refine hequals (hin.subset (List.mem_cons_of_mem _ (List.mem_append_right _ ?_)))
  exact List.mem_append_right _ (by decide)

theorem not_mem_silent {c : UInt8} (hc : isSilent c = false) (h : text.all isSilent = true) :
    c ∉ text := by
  intro hm
  rw [List.all_eq_true.mp h c hm] at hc
  cases hc

theorem free_of_silent (h : text.all isSilent = true) : recordMarks.Free σ text := by
  refine free_of_unnamed (not_mem_silent (by decide) h) ?_
  rw [List.count_eq_zero_of_not_mem (not_mem_silent (by decide) h),
    List.count_eq_zero_of_not_mem (not_mem_silent (by decide) h)]

theorem silent_decimal (n : Nat) : (decimal n).all isSilent = true := by
  refine List.all_eq_true.mpr fun c hc => ?_
  have hne : ∀ {d : UInt8}, d.toNat < 48 ∨ 57 < d.toNat → c ≠ d := by
    rintro d hd rfl
    exact not_mem_decimal hd n hc
  simp [isSilent, hne (d := '='.toUInt8) (by decide), hne (d := '\x7b'.toUInt8) (by decide),
    hne (d := '\x7d'.toUInt8) (by decide)]

theorem silent_decimalInt (n : Int64) : (decimalInt n).all isSilent = true := by
  obtain ⟨sign, m, hn, hsign⟩ := decimalInt_eq n
  rw [hn, List.all_append, silent_decimal, Bool.and_true]
  rcases hsign with rfl | rfl <;> decide

theorem silent_token (h : isCanonicalToken text = true) : text.all isSilent = true := by
  refine List.all_eq_true.mpr fun c hc => ?_
  have hne : ∀ {d : UInt8}, isTokenByte d = false → c ≠ d := by
    rintro d hd rfl
    exact not_mem_token hd h hc
  simp [isSilent, hne (d := '='.toUInt8) (by decide), hne (d := '\x7b'.toUInt8) (by decide),
    hne (d := '\x7d'.toUInt8) (by decide)]

/-- A rendered set of tokens is free at every place. -/
theorem free_tokens {ts : List Text} (ht : ∀ t ∈ ts, isCanonicalToken t = true) :
    recordMarks.Free σ (joinTokens ts) := by
  have hsilent : (joinTexts "," ts).all isSilent = true := by
    refine List.all_eq_true.mpr fun c hc => ?_
    rcases mem_joinTexts hc with rfl | ⟨t, hm, hct⟩
    · decide
    · exact List.all_eq_true.mp (silent_token (ht t hm)) c hct
  have hnone : ∀ {c}, isSilent c = false → (joinTexts "," ts).count c = 0 := fun hc =>
    List.count_eq_zero_of_not_mem (not_mem_silent hc hsilent)
  have hequals : '='.toUInt8 ∉ joinTexts "," ts := not_mem_silent (by decide) hsilent
  refine free_of_unnamed ?_ ?_
  · exact List.not_mem_append (List.not_mem_append (by decide) hequals) (by decide)
  · rw [joinTokens, List.count_append, List.count_append, List.count_append, List.count_append,
      hnone (by decide), hnone (by decide)]
    decide

/-- Only version ranges and predicates hold texts that can be taken for structure. -/
theorem free_of_valid {value : CapabilityValue} (hv : validateValue limits value = .ok ())
    (hflat : value.kind ≠ .record) (hrange : value.kind ≠ .versionRange)
    (hpredicate : value.kind ≠ .predicate) : recordMarks.Free σ value.describe := by
  cases value with
  | none => exact free_of_silent (by decide)
  | boolean value => exact free_of_silent (by cases value <;> decide)
  | latencyClass value => exact free_of_silent (by cases value <;> decide)
  | bytes bytes =>
    refine free_of_silent ?_
    rw [CapabilityValue.describe, List.all_append, silent_decimal]
    decide
  | rate value =>
    refine free_of_silent ?_
    rw [CapabilityValue.describe, List.all_append, List.all_append, silent_decimal]
    cases value.unit <;> decide
  | bandwidth value =>
    refine free_of_silent ?_
    rw [CapabilityValue.describe, List.all_append, List.all_append, silent_decimal]
    cases value.unit <;> decide
  | count value =>
    refine free_of_silent ?_
    rw [CapabilityValue.describe]
    split
    · exact silent_decimal _
    · next hunit =>
      simp only [validateValue, require_eq_ok, Bool.or_eq_true] at hv
      rw [List.all_append, List.all_append, silent_decimal, silent_token (hv.resolve_left hunit)]
      decide
  | enumeration value =>
    simp only [validateValue, require_eq_ok, Bool.and_eq_true] at hv
    refine free_of_silent ?_
    rw [CapabilityValue.describe, List.all_append, List.all_append, silent_token hv.1,
      silent_token hv.2]
    decide
  | relationship value =>
    simp only [validateValue, require_eq_ok] at hv
    refine free_of_silent ?_
    rw [CapabilityValue.describe, List.all_append, List.all_append,
      silent_token (relation_token _), silent_token (token_of_valid hv)]
    decide
  | numericRange range =>
    refine free_of_silent ?_
    rw [CapabilityValue.describe, List.all_append, List.all_append, List.all_append,
      List.all_append, List.all_append, silent_decimalInt, silent_decimalInt, silent_decimalInt]
    decide
  | featureSet features =>
    simp only [validateValue, status_bind_eq_ok, require_eq_ok] at hv
    exact free_tokens (canonical_of_validateFeatures hv.2)
  | architectureSet architectures =>
    simp only [validateValue, status_bind_eq_ok, require_eq_ok] at hv
    exact free_tokens (tokens_of_validateArchitectures hv.2)
  | versionRange range => exact (hrange rfl).elim
  | predicate condition => exact (hpredicate rfl).elim
  | record fields => exact (hflat rfl).elim

end Marks

namespace CapabilityValue

/-- A value inside so many open records whose texts cannot be taken for structure. -/
inductive PlainIn : List Bool → CapabilityValue → Prop
  | flat {σ : List Bool} {value : CapabilityValue} (flat : value.kind ≠ .record)
      (unambiguous : value.Unambiguous)
      (free : value.kind = .versionRange ∨ value.kind = .predicate →
        recordMarks.Free σ value.describe) : PlainIn σ value
  | record {σ : List Bool} {fields : List RecordField}
      (plain : ∀ name value, .field name value ∈ fields → PlainIn (true :: σ) value) :
      PlainIn σ (.record fields)

/-- A value none of whose texts can be taken for another's. -/
def Plain (value : CapabilityValue) : Prop := PlainIn [] value

/-- Values whose parts at one place are of different forms if they are of different kinds, and are
spelled alike where they may be equal. -/
inductive Comparable : CapabilityValue → CapabilityValue → Prop
  | flat {a b : CapabilityValue} (flat : a.kind ≠ .record ∨ b.kind ≠ .record)
      (alike : a.kind.form = b.kind.form → a.kind = b.kind) (spelled : a.SpelledAlike b) :
      Comparable a b
  | record {fields fields' : List RecordField}
      (comparable : ∀ name value value', .field name value ∈ fields →
        .field name value' ∈ fields' → Comparable value value') :
      Comparable (.record fields) (.record fields')

section Parts
variable {σ : List Bool} {a b : CapabilityValue} {fs gs : List RecordField}

theorem PlainIn.own (h : PlainIn σ a) (hflat : a.kind ≠ .record) : a.Unambiguous ∧
    (a.kind = .versionRange ∨ a.kind = .predicate → recordMarks.Free σ a.describe) := by
  cases h with
  | flat _ unambiguous free => exact ⟨unambiguous, free⟩
  | record => exact (hflat rfl).elim

theorem PlainIn.fields (h : PlainIn σ (.record fs)) :
    ∀ name value, .field name value ∈ fs → PlainIn (true :: σ) value := by
  cases h with
  | flat flat => exact (flat rfl).elim
  | record plain => exact plain

theorem PlainIn.free {limits : RegistryLimits} (h : PlainIn σ a)
    (hv : validateValue limits a = .ok ()) (hflat : a.kind ≠ .record) :
    recordMarks.Free σ a.describe := by
  by_cases htext : a.kind = .versionRange ∨ a.kind = .predicate
  · exact (h.own hflat).2 htext
  · exact free_of_valid hv hflat (fun he => htext (.inl he)) fun he => htext (.inr he)

theorem Comparable.own (h : Comparable a b) (hflat : a.kind ≠ .record ∨ b.kind ≠ .record) :
    (a.kind.form = b.kind.form → a.kind = b.kind) ∧ a.SpelledAlike b := by
  cases h with
  | flat _ alike spelled => exact ⟨alike, spelled⟩
  | record => rcases hflat with hflat | hflat <;> exact (hflat rfl).elim

theorem Comparable.fields (h : Comparable (.record fs) (.record gs)) :
    ∀ name value value', .field name value ∈ fs → .field name value' ∈ gs →
      Comparable value value' := by
  cases h with
  | flat flat => rcases flat with flat | flat <;> exact (flat rfl).elim
  | record comparable => exact comparable

end Parts

end CapabilityValue

section Reading
variable {limits limits' : RegistryLimits} {σ : List Bool} {a b : CapabilityValue}
  {fields fields' : List RecordField} {k k' : Text}

theorem describeFields_eq (fields : List RecordField) :
    describeFields fields = fields.map describeField := by
  induction fields with
  | nil => rfl
  | cons f fs ih => rw [describeFields, ih, List.map_cons]

theorem describe_record (fields : List RecordField) (k : Text) :
    (CapabilityValue.record fields).describe ++ k = recordMarks.opening ::
      (recordMarks.joined (fields.map describeField) ++ recordMarks.closing :: k) := by
  have hjoined : joinTexts "," (fields.map describeField) =
      recordMarks.joined (fields.map describeField) := joinTexts_eq recordMarks _
  rw [CapabilityValue.describe, joinTokens, describeFields_eq, hjoined, List.append_assoc,
    List.append_assoc]
  rfl

theorem spec_of_record (h : validateValue limits (.record fields) = .ok ()) :
    ∀ f ∈ fields, ∃ name value, f = .field name value ∧ isCanonicalToken name = true ∧
      validateValue limits value = .ok () := by
  simp only [validateValue, status_bind_eq_ok] at h
  exact spec_of_validateFields h.2.2

theorem headed_of_record (h : validateValue limits (.record fields) = .ok ()) :
    recordMarks.Headed describeField fields := by
  intro f hf
  obtain ⟨name, value, rfl, hname, -⟩ := spec_of_record h f hf
  exact ⟨name ++ "=", value.describe, ⟨name, hname, rfl⟩, rfl⟩

theorem fieldsBeq_of_forall₂ (h : List.Forall₂ (fun f g => fieldBeq f g = true) fields fields') :
    fieldsBeq fields fields' = true := by
  induction h with
  | nil => rfl
  | cons hhead htail ih => rw [fieldsBeq, hhead, ih, Bool.and_self]

/-- A text of the form of a record's that is a flat value's is told by its first byte. -/
theorem form_of_opening (ha : validateValue limits a = .ok ()) (hflat : a.kind ≠ .record)
    {rest : Text} (h : a.describe ++ k = recordMarks.opening :: rest) :
    a.kind.form = .featureSet := by
  rw [← formOf_describe ha hflat]
  cases hd : a.describe with
  | nil => rfl
  | cons first others =>
    rw [hd] at h
    obtain ⟨rfl, -⟩ := List.cons.inj h
    rfl

/-- Printed at the same place, plain comparable values with the same text are equal. -/
theorem value_read (ha : validateValue limits a = .ok ()) (hb : validateValue limits' b = .ok ())
    (hp : a.PlainIn σ) (hp' : b.PlainIn σ) (hc : a.Comparable b) (hk : recordMarks.Follows σ k)
    (hk' : recordMarks.Follows σ k') (h : a.describe ++ k = b.describe ++ k') :
    a.beq b = true ∧ k = k' := by
  induction a using CapabilityValue.induct generalizing σ b k k' with
  | flat a hflat =>
    obtain ⟨hform, hspelled⟩ := hc.own (.inl hflat)
    by_cases hflat' : b.kind = .record
    · cases b with
      | record fields' =>
        rw [describe_record] at h
        exact (hflat (hform (form_of_opening ha hflat h))).elim
      | _ => cases hflat'
    · obtain ⟨htext, hkk⟩ :=
        Punctuation.text_eq hk hk' (hp.free ha hflat) (hp'.free hb hflat') h
      have hkind : a.kind = b.kind := by
        apply hform
        rw [← formOf_describe ha hflat, ← formOf_describe hb hflat', htext]
      exact ⟨flat_read ha hb hflat hkind (hp.own hflat).1 (hp'.own hflat').1 hspelled htext, hkk⟩
  | record fields ih =>
    by_cases hflat' : b.kind = .record
    · cases b with
      | record fields' =>
        have hfield : ∀ f ∈ fields, ∀ g ∈ fields', ∀ k k', recordMarks.Follows (true :: σ) k →
            recordMarks.Follows (true :: σ) k' → describeField f ++ k = describeField g ++ k' →
              fieldBeq f g = true ∧ k = k' := by
          intro f hf g hg k k' hk hk' he
          obtain ⟨name, value, rfl, hname, hv⟩ := spec_of_record ha f hf
          obtain ⟨name', value', rfl, hname', hv'⟩ := spec_of_record hb g hg
          simp only [describeField, List.append_assoc] at he
          obtain ⟨rfl, hvalue⟩ := append_mark_inj (not_mem_token (by decide) hname)
            (not_mem_token (by decide) hname') he
          obtain ⟨hbeq, hkk⟩ := ih name value hf hv hv' (hp.fields name value hf)
            (hp'.fields name value' hg) (hc.fields name value value' hf hg) hk hk' hvalue
          rw [fieldBeq, hbeq, beq_self_eq_true, Bool.and_self]
          exact ⟨rfl, hkk⟩
        rw [describe_record, describe_record] at h
        obtain ⟨hall, hkk⟩ := Punctuation.joined_eq (headed_of_record ha) (headed_of_record hb)
          hfield hk hk' (List.cons.inj h).2
        exact ⟨fieldsBeq_of_forall₂ hall, hkk⟩
      | _ => cases hflat'
    · obtain ⟨hform, -⟩ := hc.own (.inr hflat')
      rw [describe_record] at h
      exact (hflat' (hform (form_of_opening hb hflat' h.symm).symm).symm).elim

theorem fields_rendered (helement : ∀ f ∈ fields, ∀ g ∈ fields', fieldBeq f g = true →
    describeField f = describeField g) (h : fieldsBeq fields fields' = true) :
    fields.map describeField = fields'.map describeField := by
  induction fields generalizing fields' with
  | nil =>
    cases fields' with
    | nil => rfl
    | cons g gs => cases h
  | cons f fs ih =>
    cases fields' with
    | nil => cases h
    | cons g gs =>
      rw [fieldsBeq, Bool.and_eq_true] at h
      have htail := ih (fun f hf g hg =>
        helement f (List.mem_cons_of_mem _ hf) g (List.mem_cons_of_mem _ hg)) h.2
      rw [List.map_cons, List.map_cons, htail, helement f List.mem_cons_self g List.mem_cons_self h.1]

/-- Equal values that are spelled alike have the same text. -/
theorem value_rendered (hc : a.Comparable b) (h : a.beq b = true) : a.describe = b.describe := by
  induction a using CapabilityValue.induct generalizing b with
  | flat a hflat => exact flat_rendered hflat (hc.own (.inl hflat)).2 h
  | record fields ih =>
    cases b with
    | record fields' =>
      rw [CapabilityValue.describe, CapabilityValue.describe, describeFields_eq, describeFields_eq,
        fields_rendered (fun f hf g hg he => ?_) h]
      cases f with
      | null name =>
        cases g with
        | null name' => rw [beq_iff_eq.mp he]
        | field name' value' => cases he
      | field name value =>
        cases g with
        | null name' => cases he
        | field name' value' =>
          rw [fieldBeq, Bool.and_eq_true, beq_iff_eq] at he
          obtain ⟨rfl, he⟩ := he
          rw [describeField, describeField, ih name value hf (hc.fields name value value' hf hg) he]
    | _ => cases h

/-- Accepted values none of whose texts can be taken for another's agree with their texts when they
are comparable, and flat values of one kind do only then. -/
theorem equality_is_rendered (ha : validateValue limits a = .ok ())
    (hb : validateValue limits' b = .ok ()) (hp : a.Plain) (hp' : b.Plain) :
    (a.Comparable b → (a.beq b = true ↔ a.describe = b.describe)) ∧
      (a.kind ≠ .record → a.kind = b.kind → (a.beq b = true ↔ a.describe = b.describe) →
        a.Comparable b) := by
  refine ⟨fun hc => ⟨value_rendered hc, fun h => ?_⟩, fun hflat hkind h => ?_⟩
  · exact (value_read ha hb hp hp' hc .done .done (congrArg (· ++ []) h)).1
  · have hflat' : b.kind ≠ .record := hkind ▸ hflat
    exact .flat (.inl hflat) (fun _ => hkind)
      ((flat_iff ha hb hflat hkind (hp.own hflat).1 (hp'.own hflat').1).mp h)

end Reading

section Samples

/-- The versions from one on. -/
def versionsFrom (minimum : Text) (includeMaximum : Bool) : VersionRange :=
  { minimum := .parse minimum, maximum := default, includeMaximum }

/-- A driver range and a requirement; the requirement may carry a text of its own, which means
nothing. -/
def driverRecord (key : Text) : CapabilityValue :=
  .record [.field "driver" (.versionRange (versionsFrom "535.86" false)),
    .field "unless" (.predicate (.node .not key [] [osCondition "a"]))]

theorem driverRecord_plain (key : Text) : (driverRecord key).Plain := by
  refine .record fun name value hm => ?_
  rcases List.mem_pair.mp hm with h | h
  · cases h
    refine .flat (by simp [CapabilityValue.kind]) ⟨fun _ h => ?_, fun h => ?_⟩ fun _ => ?_
    · exact absurd h (by decide)
    · exact absurd h (by decide)
    · exact Punctuation.free_of_quiet (by decide) (by decide)
  · cases h
    have htext : (CapabilityValue.predicate
        (.node .not key [] [osCondition "a"])).describe = "if not(os.name==a)" := rfl
    refine .flat (by simp [CapabilityValue.kind]) trivial fun _ => ?_
    rw [htext]
    exact Punctuation.free_of_quiet (by decide) (by decide)

theorem driverRecord_comparable (key key' : Text) :
    (driverRecord key).Comparable (driverRecord key') := by
  have hne : ("driver" : Text) ≠ "unless" := by decide
  refine .record fun name value value' hm hm' => ?_
  rcases List.mem_pair.mp hm with h | h <;> obtain ⟨rfl, rfl⟩ := RecordField.field.inj h
  · obtain ⟨-, rfl⟩ := RecordField.field.inj
      ((List.mem_pair.mp hm').resolve_right fun h => hne (RecordField.field.inj h).1)
    exact .flat (.inl (by simp [CapabilityValue.kind])) (fun _ => rfl)
      ⟨fun _ _ _ => ⟨rfl, rfl⟩, fun _ _ _ => rfl⟩
  · obtain ⟨-, rfl⟩ := RecordField.field.inj
      ((List.mem_pair.mp hm').resolve_left fun h => hne (RecordField.field.inj h).1.symm)
    exact .flat (.inl (by simp [CapabilityValue.kind])) (fun _ => rfl) trivial

theorem equality_is_rendered_driverRecord :
    (driverRecord "x").beq (driverRecord []) = true ↔
      (driverRecord "x").describe = (driverRecord []).describe := by
  have hx : validateValue {} (driverRecord "x") = .ok () := by decide
  have hnil : validateValue {} (driverRecord []) = .ok () := by decide
  exact (equality_is_rendered hx hnil (driverRecord_plain _) (driverRecord_plain _)).1
    (driverRecord_comparable _ _)

/-- A trailing zero component changes the text of a version and not its precedence. -/
theorem compare_trailing_zero :
    SoftwareVersion.compare (.parse "1.0") (.parse "1.0.0") = 0 := by
  have hshort : (SoftwareVersion.parse "1.0").components = [1, 0] := by decide
  have hlong : (SoftwareVersion.parse "1.0.0").components = [1, 0, 0] := by decide
  have hvalid : (SoftwareVersion.parse "1.0").valid = true ∧
      (SoftwareVersion.parse "1.0.0").valid = true := by decide
  rw [SoftwareVersion.compare, hshort, hlong, hvalid.1, hvalid.2]
  simp [SoftwareVersion.compareComponents]

/-- One minimum spelled in two ways is one value with two texts. -/
theorem equality_is_not_rendered :
    ¬ ∀ (limits : RegistryLimits) (a b : CapabilityValue), validateValue limits a = .ok () →
      validateValue limits b = .ok () → a.kind = b.kind →
      (a.beq b = true ↔ a.describe = b.describe) := by
  intro h
  let short : CapabilityValue := .versionRange (versionsFrom "1.0" false)
  let long : CapabilityValue := .versionRange (versionsFrom "1.0.0" false)
  obtain ⟨hshort, hlong, htext⟩ : validateValue {} short = .ok () ∧
      validateValue {} long = .ok () ∧ short.describe ≠ long.describe := by
    decide
  have hequal : versionRangeEq (versionsFrom "1.0" false) (versionsFrom "1.0.0" false) = true := by
    simp only [versionRangeEq, versionsFrom, compare_trailing_zero, SoftwareVersion.compare_self,
      beq_self_eq_true, Bool.and_self]
  exact htext ((h {} short long hshort hlong rfl).mp hequal)

end Samples

end CapabilityRegistry
