import CapabilityRegistry.Values

/-! The order on capability values that `operator<` gives, and its agreement with equality. -/
namespace CapabilityRegistry

def CountValue.lt (a b : CountValue) : Bool :=
  if a.count != b.count then a.count < b.count else compare a.unit b.unit == .lt

def RateValue.lt (a b : RateValue) : Bool :=
  if a.magnitude != b.magnitude then a.magnitude < b.magnitude
  else CodeEnum.code a.unit < CodeEnum.code b.unit

def BandwidthValue.lt (a b : BandwidthValue) : Bool :=
  if a.magnitude != b.magnitude then a.magnitude < b.magnitude
  else CodeEnum.code a.unit < CodeEnum.code b.unit

def EnumValue.lt (a b : EnumValue) : Bool :=
  if a.domain != b.domain then compare a.domain b.domain == .lt
  else compare a.value b.value == .lt

def NumericRangeValue.lt (a b : NumericRangeValue) : Bool :=
  if a.minimum != b.minimum then a.minimum < b.minimum
  else if a.maximum != b.maximum then a.maximum < b.maximum else a.step < b.step

def RelationshipValue.lt (a b : RelationshipValue) : Bool :=
  if a.relation != b.relation then CodeEnum.code a.relation < CodeEnum.code b.relation
  else compare a.target b.target == .lt

/-- `operator<` on version ranges compares by precedence, as their equality does. -/
def versionRangeLt (a b : VersionRange) : Bool :=
  let minCmp := SoftwareVersion.compare a.minimum b.minimum
  let maxCmp := SoftwareVersion.compare a.maximum b.maximum
  if minCmp != 0 then minCmp < 0
  else if maxCmp != 0 then maxCmp < 0
  else !a.includeMaximum && b.includeMaximum

/-- The position of the alternative a value holds. -/
def CapabilityValue.index : CapabilityValue → Nat
  | none => 0
  | boolean _ => 1
  | count _ => 2
  | bytes _ => 3
  | rate _ => 4
  | bandwidth _ => 5
  | latencyClass _ => 6
  | enumeration _ => 7
  | featureSet _ => 8
  | versionRange _ => 9
  | architectureSet _ => 10
  | numericRange _ => 11
  | record _ => 12
  | relationship _ => 13
  | predicate _ => 14

mutual

def CapabilityValue.lt (a b : CapabilityValue) : Bool :=
  if a.index != b.index then a.index < b.index
  else match a, b with
    | .none, .none => false
    | .boolean a, .boolean b => !a && b
    | .count a, .count b => a.lt b
    | .bytes a, .bytes b => a < b
    | .rate a, .rate b => a.lt b
    | .bandwidth a, .bandwidth b => a.lt b
    | .latencyClass a, .latencyClass b => CodeEnum.code a < CodeEnum.code b
    | .enumeration a, .enumeration b => a.lt b
    | .featureSet a, .featureSet b => compare a b == .lt
    | .versionRange a, .versionRange b => versionRangeLt a b
    | .architectureSet a, .architectureSet b => compare a b == .lt
    | .numericRange a, .numericRange b => a.lt b
    | .record a, .record b => fieldsLt a b
    | .relationship a, .relationship b => a.lt b
    | .predicate a, .predicate b => compare (describeCondition a) (describeCondition b) == .lt
    | _, _ => false
termination_by sizeOf a + sizeOf b

/-- The field loop: the first pair of fields that differ decides, then the number of fields. -/
def fieldsLt : List RecordField → List RecordField → Bool
  | a :: as, b :: bs =>
    if a.name != b.name then compare a.name b.name == .lt
    else match a, b with
      | .null _, .null _ => fieldsLt as bs
      | .null _, .field _ _ => true
      | .field _ _, .null _ => false
      | .field _ v, .field _ w => if v.lt w then true else if w.lt v then false else fieldsLt as bs
  | as, bs => as.length < bs.length
termination_by as bs => sizeOf as + sizeOf bs

end

/-- One position of a flattened value. -/
structure ValueToken where
  index : Nat := 0
  numbers : List Int := []
  texts : List Text := []
  range : VersionRange := default

/-- Intervals by the precedence of their bounds. -/
def rangeOrder : VersionRange → VersionRange → Ordering :=
  compareLex (fun a b => compare (SoftwareVersion.compare a.minimum b.minimum) 0) <|
    compareLex (fun a b => compare (SoftwareVersion.compare a.maximum b.maximum) 0) <|
      compareOn VersionRange.includeMaximum

def tokenOrder : ValueToken → ValueToken → Ordering :=
  compareLex (compareOn ValueToken.index) <| compareLex (compareOn ValueToken.numbers) <|
    compareLex (compareOn ValueToken.texts) fun a b => rangeOrder a.range b.range

/-- The token of a value that is no record. -/
def CapabilityValue.token (value : CapabilityValue) : ValueToken :=
  match value with
  | .none | .record _ => { index := value.index }
  | .boolean b => { index := value.index, numbers := [if b then 1 else 0] }
  | .count c => { index := value.index, numbers := [c.count.toNat], texts := [c.unit] }
  | .bytes b => { index := value.index, numbers := [b.toNat] }
  | .rate r => { index := value.index, numbers := [r.magnitude.toNat, CodeEnum.code r.unit] }
  | .bandwidth r => { index := value.index, numbers := [r.magnitude.toNat, CodeEnum.code r.unit] }
  | .latencyClass c => { index := value.index, numbers := [CodeEnum.code c] }
  | .enumeration e => { index := value.index, texts := [e.domain, e.value] }
  | .featureSet features => { index := value.index, texts := features }
  | .versionRange range => { index := value.index, range := range }
  | .architectureSet architectures => { index := value.index, texts := architectures.map Id.str }
  | .numericRange r =>
    { index := value.index, numbers := [r.minimum.toInt, r.maximum.toInt, r.step.toInt] }
  | .relationship r =>
    { index := value.index, numbers := [CodeEnum.code r.relation], texts := [r.target.str] }
  | .predicate condition => { index := value.index, texts := [describeCondition condition] }

mutual

/-- A value as the sequence of what is compared, in the order it is compared in. A mark says before
each field that one follows, and after the last that none does. -/
def CapabilityValue.stream : CapabilityValue → List ValueToken
  | .record fields => CapabilityValue.token (.record []) :: fieldsStream fields
  | value => [value.token]

def fieldsStream : List RecordField → List ValueToken
  | [] => [{ index := 0 }]
  | .null name :: fields => { index := 1, texts := [name] } :: { index := 0 } :: fieldsStream fields
  | .field name value :: fields =>
    { index := 1, texts := [name] } :: { index := 1 } :: (value.stream ++ fieldsStream fields)

end

open Comparators (verdict verdict_rung verdict_of_cmp)

section Rungs

theorem compare_int_eq_iff {α : Type} {f : α → Int} (hf : Function.Injective f) {x y : α} :
    compare (f x) (f y) = .eq ↔ x = y := Int.compare_eq_eq.trans hf.eq_iff

theorem lt_eq_compare {x y : Int} {d : Bool} (h : d = true ↔ x < y) : d = (compare x y == .lt) := by
  rw [Bool.eq_iff_iff, h, beq_iff_eq, Int.compare_eq_lt]

theorem toInt_injective : Function.Injective fun x : UInt64 => (x.toNat : Int) := fun _ _ h =>
  UInt64.toNat_inj.mp (Int.ofNat_inj.mp h)

theorem code_injective {α : Type} [DecidableEq α] [CodeEnum α] :
    Function.Injective fun x : α => (CodeEnum.code x : Int) := fun x y h => by
  have hc := congrArg (CodeEnum.ofCode? (α := α)) (Int.ofNat_inj.mp h)
  simpa using hc

/-- A comparator and an equality taken from one comparison. -/
theorem verdict_compare {α : Type} [Ord α] [Std.LawfulEqOrd α] [BEq α] [LawfulBEq α] (x y : α) :
    verdict (compare x y == .lt) (x == y) = compare x y := by
  refine verdict_of_cmp rfl ?_
  rw [Bool.eq_iff_iff, beq_iff_eq, beq_iff_eq, Std.LawfulEqOrd.compare_eq_iff_eq]

theorem verdict_code {α : Type} [DecidableEq α] [CodeEnum α] (x y : α) :
    verdict (CodeEnum.code x < CodeEnum.code y) (x == y) =
      compare (CodeEnum.code x : Int) (CodeEnum.code y) := by
  refine verdict_of_cmp (lt_eq_compare (by simp)) ?_
  rw [Bool.eq_iff_iff, beq_iff_eq, beq_iff_eq]
  exact (compare_int_eq_iff code_injective).symm

theorem verdict_count (a b : CountValue) : verdict (a.lt b) (a == b) =
    (compare (a.count.toNat : Int) b.count.toNat).then (compare a.unit b.unit) := by
  have hbeq : (a == b) = (a.count == b.count && a.unit == b.unit) := by
    rw [Bool.eq_iff_iff]
    cases a
    cases b
    simp
  rw [hbeq, CountValue.lt, verdict_rung (compare_int_eq_iff toInt_injective), verdict_compare]
  exact fun _ => lt_eq_compare (by simp [UInt64.lt_iff_toNat_lt])

theorem verdict_rate (a b : RateValue) : verdict (a.lt b) (a == b) =
    (compare (a.magnitude.toNat : Int) b.magnitude.toNat).then
      (compare (CodeEnum.code a.unit : Int) (CodeEnum.code b.unit)) := by
  have hbeq : (a == b) = (a.magnitude == b.magnitude && a.unit == b.unit) := by
    rw [Bool.eq_iff_iff]
    cases a
    cases b
    simp
  rw [hbeq, RateValue.lt, verdict_rung (compare_int_eq_iff toInt_injective), verdict_code]
  exact fun _ => lt_eq_compare (by simp [UInt64.lt_iff_toNat_lt])

theorem verdict_bandwidth (a b : BandwidthValue) : verdict (a.lt b) (a == b) =
    (compare (a.magnitude.toNat : Int) b.magnitude.toNat).then
      (compare (CodeEnum.code a.unit : Int) (CodeEnum.code b.unit)) := by
  have hbeq : (a == b) = (a.magnitude == b.magnitude && a.unit == b.unit) := by
    rw [Bool.eq_iff_iff]
    cases a
    cases b
    simp
  rw [hbeq, BandwidthValue.lt, verdict_rung (compare_int_eq_iff toInt_injective), verdict_code]
  exact fun _ => lt_eq_compare (by simp [UInt64.lt_iff_toNat_lt])

theorem verdict_enumeration (a b : EnumValue) : verdict (a.lt b) (a == b) =
    (compare a.domain b.domain).then (compare a.value b.value) := by
  have hbeq : (a == b) = (a.domain == b.domain && a.value == b.value) := by
    rw [Bool.eq_iff_iff]
    cases a
    cases b
    simp
  rw [hbeq, EnumValue.lt, verdict_rung Std.LawfulEqOrd.compare_eq_iff_eq (fun _ => rfl),
    verdict_compare]

theorem verdict_numericRange (a b : NumericRangeValue) : verdict (a.lt b) (a == b) =
    (compare a.minimum.toInt b.minimum.toInt).then
      ((compare a.maximum.toInt b.maximum.toInt).then (compare a.step.toInt b.step.toInt)) := by
  have hbeq : (a == b) =
      (a.minimum == b.minimum && (a.maximum == b.maximum && a.step == b.step)) := by
    rw [Bool.eq_iff_iff]
    cases a
    cases b
    simp
  have hinj : Function.Injective Int64.toInt := fun x y h => Int64.toInt_inj.mp h
  have hlt : ∀ x y : Int64, decide (x < y) = (compare x.toInt y.toInt == .lt) := fun x y =>
    lt_eq_compare (by rw [decide_eq_true_iff, Int64.lt_iff_toInt_lt])
  rw [hbeq, NumericRangeValue.lt, verdict_rung (compare_int_eq_iff hinj) (fun _ => hlt _ _),
    verdict_rung (compare_int_eq_iff hinj) (fun _ => hlt _ _)]
  congr 2
  refine verdict_of_cmp (hlt _ _) ?_
  rw [Bool.eq_iff_iff, beq_iff_eq, beq_iff_eq]
  exact (compare_int_eq_iff hinj).symm

theorem verdict_relationship (a b : RelationshipValue) : verdict (a.lt b) (a == b) =
    (compare (CodeEnum.code a.relation : Int) (CodeEnum.code b.relation)).then
      (compare a.target.str b.target.str) := by
  have hbeq : (a == b) = (a.relation == b.relation && a.target == b.target) := by
    rw [Bool.eq_iff_iff]
    cases a
    cases b
    simp
  rw [hbeq, RelationshipValue.lt, verdict_rung (compare_int_eq_iff code_injective)]
  · congr 1
    refine verdict_of_cmp rfl ?_
    rw [Bool.eq_iff_iff, beq_iff_eq, beq_iff_eq]
    exact (Std.LawfulEqOrd.compare_eq_iff_eq (a := a.target)).symm
  · exact fun _ => lt_eq_compare (by simp)

/-- Version ranges compare and are equal by the precedence of their bounds. -/
theorem verdict_versionRange (a b : VersionRange) :
    verdict (versionRangeLt a b) (versionRangeEq a b) = rangeOrder a b := by
  have hlt : ∀ x : Int, x ≠ 0 → decide (x < 0) = (compare x 0 == .lt) := fun x _ =>
    lt_eq_compare (by simp)
  have hends : verdict (!a.includeMaximum && b.includeMaximum)
      (a.includeMaximum == b.includeMaximum) = compare a.includeMaximum b.includeMaximum := by
    cases a.includeMaximum <;> cases b.includeMaximum <;> rfl
  unfold versionRangeLt versionRangeEq
  dsimp only
  rw [Bool.and_assoc, verdict_rung Int.compare_eq_eq (hlt _), verdict_rung Int.compare_eq_eq (hlt _),
    hends]
  rfl

theorem compare_map_str {Tag : Type} (xs ys : List (Id Tag)) :
    compare (xs.map Id.str) (ys.map Id.str) = compare xs ys := by
  induction xs generalizing ys with
  | nil => cases ys <;> rfl
  | cons x xs ih =>
    cases ys with
    | nil => rfl
    | cons y ys => 
      rw [List.map_cons, List.map_cons, List.compare_cons_cons, List.compare_cons_cons, ih]
      rfl

end Rungs

section Flat
variable {a b : CapabilityValue}

theorem lt_of_index_ne (h : a.index ≠ b.index) : a.lt b = decide (a.index < b.index) := by
  unfold CapabilityValue.lt
  rw [if_pos (by simpa using h)]

theorem index_eq_of_beq (h : a.beq b = true) : a.index = b.index := by
  unfold CapabilityValue.beq at h
  split at h <;> first | rfl | cases h

theorem verdict_of_index_ne (h : a.index ≠ b.index) :
    verdict (a.lt b) (a.beq b) = compare a.index b.index := by
  refine verdict_of_cmp ?_ ?_
  · rw [lt_of_index_ne h, Bool.eq_iff_iff, decide_eq_true_iff, beq_iff_eq, Nat.compare_eq_lt]
  · rw [Bool.eq_iff_iff, beq_iff_eq, Nat.compare_eq_eq]
    exact iff_of_false (fun hb => h (index_eq_of_beq hb)) h

theorem rangeOrder_self (range : VersionRange) : rangeOrder range range = .eq := by
  simp [rangeOrder, compareLex, compareOn, SoftwareVersion.compare_self]

theorem tokenOrder_eq (s t : ValueToken) : tokenOrder s t = (compare s.index t.index).then
    ((compare s.numbers t.numbers).then ((compare s.texts t.texts).then
      (rangeOrder s.range t.range))) := rfl

/-- Tokens of one alternative compare by their numbers, then by their texts. -/
theorem tokenOrder_same (index : Nat) (ns ms : List Int) (ts us : List Text) (r : VersionRange) :
    tokenOrder ⟨index, ns, ts, r⟩ ⟨index, ms, us, r⟩ = (compare ns ms).then (compare ts us) := by
  rw [tokenOrder_eq, rangeOrder_self, Std.ReflOrd.compare_self, Ordering.then_eq]
  rfl

theorem compare_singleton {α : Type} [Ord α] (x y : α) : compare [x] [y] = compare x y := by
  rw [List.compare_cons_cons, List.compare_nil_nil, Ordering.then_eq]

theorem compare_pair {α : Type} [Ord α] (x y z w : α) :
    compare [x, z] [y, w] = (compare x y).then (compare z w) := by
  rw [List.compare_cons_cons, compare_singleton]

/-- A comparison and an equality of values that are no records is that of their tokens. -/
theorem verdict_flat (ha : a.kind ≠ .record) (h : a.index = b.index) :
    verdict (a.lt b) (a.beq b) = tokenOrder a.token b.token := by
  unfold CapabilityValue.lt
  rw [if_neg (by simpa using h)]
  cases a
  case none =>
    cases b <;> cases h
    rfl
  case boolean x =>
    cases b <;> cases h
    rename_i y
    revert x y
    decide
  case count x =>
    cases b <;> cases h
    rename_i y
    simp only [CapabilityValue.beq, CapabilityValue.token, CapabilityValue.index, tokenOrder_same,
      compare_singleton]
    exact verdict_count x y
  case bytes x =>
    cases b <;> cases h
    rename_i y
    simp only [CapabilityValue.beq, CapabilityValue.token, CapabilityValue.index, tokenOrder_same,
      compare_singleton, List.compare_nil_nil, Ordering.then_eq]
    refine verdict_of_cmp (lt_eq_compare (by simp [UInt64.lt_iff_toNat_lt])) ?_
    rw [Bool.eq_iff_iff, beq_iff_eq, beq_iff_eq]
    exact (compare_int_eq_iff toInt_injective).symm
  case rate x =>
    cases b <;> cases h
    rename_i y
    simp only [CapabilityValue.beq, CapabilityValue.token, CapabilityValue.index, tokenOrder_same,
      compare_pair, List.compare_nil_nil, Ordering.then_eq]
    exact verdict_rate x y
  case bandwidth x =>
    cases b <;> cases h
    rename_i y
    simp only [CapabilityValue.beq, CapabilityValue.token, CapabilityValue.index, tokenOrder_same,
      compare_pair, List.compare_nil_nil, Ordering.then_eq]
    exact verdict_bandwidth x y
  case latencyClass x =>
    cases b <;> cases h
    rename_i y
    simp only [CapabilityValue.beq, CapabilityValue.token, CapabilityValue.index, tokenOrder_same,
      compare_singleton, List.compare_nil_nil, Ordering.then_eq]
    exact verdict_code x y
  case enumeration x =>
    cases b <;> cases h
    rename_i y
    simp only [CapabilityValue.beq, CapabilityValue.token, CapabilityValue.index, tokenOrder_same,
      compare_pair, List.compare_nil_nil, Ordering.eq_then]
    exact verdict_enumeration x y
  case featureSet x =>
    cases b <;> cases h
    rename_i y
    simp only [CapabilityValue.beq, CapabilityValue.token, CapabilityValue.index, tokenOrder_same,
      List.compare_nil_nil, Ordering.eq_then]
    exact verdict_compare x y
  case versionRange x =>
    cases b <;> cases h
    rename_i y
    exact verdict_versionRange x y
  case architectureSet x =>
    cases b <;> cases h
    rename_i y
    simp only [CapabilityValue.beq, CapabilityValue.token, CapabilityValue.index, tokenOrder_same,
      List.compare_nil_nil, Ordering.eq_then, compare_map_str]
    exact verdict_compare x y
  case numericRange x =>
    cases b <;> cases h
    rename_i y
    simp only [CapabilityValue.beq, CapabilityValue.token, CapabilityValue.index, tokenOrder_same,
      List.compare_cons_cons, List.compare_nil_nil, Ordering.then_eq]
    exact verdict_numericRange x y
  case record => exact absurd rfl ha
  case relationship x =>
    cases b <;> cases h
    rename_i y
    simp only [CapabilityValue.beq, CapabilityValue.token, CapabilityValue.index, tokenOrder_same,
      compare_singleton]
    exact verdict_relationship x y
  case predicate x =>
    cases b <;> cases h
    rename_i y
    simp only [CapabilityValue.beq, CapabilityValue.token, CapabilityValue.index, tokenOrder_same,
      compare_singleton, List.compare_nil_nil, Ordering.eq_then]
    exact verdict_compare (describeCondition x) (describeCondition y)

end Flat

section Streams
variable {a b c v w : CapabilityValue} {fs gs : List RecordField} {s t : ValueToken}

instance : Std.TransCmp rangeOrder := by
  have hmin := (SoftwareVersion.compare_ranks.comp VersionRange.minimum).transCmp
  have hmax := (SoftwareVersion.compare_ranks.comp VersionRange.maximum).transCmp
  exact inferInstanceAs (Std.TransCmp (compareLex _ (compareLex _ _)))

instance : Std.TransCmp tokenOrder := by
  have hrange : Std.TransCmp fun s t : ValueToken => rangeOrder s.range t.range :=
    { eq_swap := fun {_ _} => @Std.OrientedCmp.eq_swap _ rangeOrder _ _ _
      isLE_trans := fun {_ _ _} => @Std.TransCmp.isLE_trans _ rangeOrder _ _ _ _ }
  exact inferInstanceAs (Std.TransCmp (compareLex _ (compareLex _ (compareLex _ _))))

def streamOrder : List ValueToken → List ValueToken → Ordering := List.compareLex tokenOrder

instance : Std.TransCmp streamOrder := inferInstanceAs (Std.TransCmp (List.compareLex tokenOrder))

theorem streamOrder_cons (xs ys : List ValueToken) :
    streamOrder (s :: xs) (t :: ys) = (tokenOrder s t).then (streamOrder xs ys) :=
  List.compareLex_cons_cons

theorem tokenOrder_of_index_ne (h : s.index ≠ t.index) :
    tokenOrder s t = compare s.index t.index := by
  rw [tokenOrder_eq]
  cases hc : compare s.index t.index with
  | eq => exact absurd (Nat.compare_eq_eq.mp hc) h
  | _ => rfl

/-- The two comparisons of two values say what their streams say, whatever follows these. -/
def Streamed (a b : CapabilityValue) : Prop :=
  ∀ xs ys, streamOrder (a.stream ++ xs) (b.stream ++ ys) =
    (verdict (a.lt b) (a.beq b)).then (streamOrder xs ys)

theorem stream_eq (value : CapabilityValue) : ∃ token rest, value.stream = token :: rest ∧
    token.index = value.index := by
  cases value <;> exact ⟨_, _, rfl, rfl⟩

theorem streamed_of_index_ne (h : a.index ≠ b.index) : Streamed a b := by
  intro xs ys
  obtain ⟨s, as, hs, hsi⟩ := stream_eq a
  obtain ⟨t, bs, ht, hti⟩ := stream_eq b
  rw [hs, ht, List.cons_append, List.cons_append, streamOrder_cons, verdict_of_index_ne h,
    tokenOrder_of_index_ne (by rw [hsi, hti]; exact h), hsi, hti]
  cases hc : compare a.index b.index with
  | eq => exact absurd (Nat.compare_eq_eq.mp hc) h
  | _ => rfl

theorem stream_flat (h : a.kind ≠ .record) : a.stream = [a.token] := by
  cases a <;> first | rfl | exact absurd rfl h

theorem streamed_flat (ha : a.kind ≠ .record) (hb : b.kind ≠ .record) : Streamed a b := by
  by_cases h : a.index = b.index
  · intro xs ys
    rw [stream_flat ha, stream_flat hb, verdict_flat ha h]
    exact streamOrder_cons xs ys
  · exact streamed_of_index_ne h

theorem Streamed.order_eq (h : Streamed a b) :
    streamOrder a.stream b.stream = verdict (a.lt b) (a.beq b) := by
  have hnil := h [] []
  rw [List.append_nil, List.append_nil] at hnil
  exact hnil.trans Ordering.then_eq

theorem verdict_eq_lt {d e : Bool} : verdict d e = .lt ↔ d = true := by
  cases d <;> cases e <;> decide

/-- Of two values neither of which is below the other by one comparison, the other comparison finds
them equal or apart. -/
theorem Streamed.lt_swap (h : Streamed v w) (h' : Streamed w v) :
    w.lt v = (verdict (v.lt w) (v.beq w) == .gt) := by
  rw [Bool.eq_iff_iff, beq_iff_eq, ← h.order_eq, ← verdict_eq_lt (e := w.beq v), ← h'.order_eq]
  exact Std.OrientedCmp.gt_iff_lt.symm

theorem tokenOrder_self (s : ValueToken) : tokenOrder s s = .eq := Std.ReflCmp.compare_self

theorem tokenOrder_absent : tokenOrder { index := 0 } { index := 1 } = .lt :=
  tokenOrder_of_index_ne Nat.zero_ne_one

theorem tokenOrder_present : tokenOrder { index := 1 } { index := 0 } = .gt :=
  tokenOrder_of_index_ne Nat.one_ne_zero

theorem tokenOrder_name (n m : Text) :
    tokenOrder { index := 1, texts := [n] } { index := 1, texts := [m] } = compare n m := by
  rw [tokenOrder_same, List.compare_nil_nil, Ordering.eq_then, compare_singleton]

theorem verdict_name (n m : Text) (d e : Bool) :
    verdict (if n != m then compare n m == .lt else d) (n == m && e) =
      (compare n m).then (verdict d e) :=
  verdict_rung Std.LawfulEqOrd.compare_eq_iff_eq fun _ => rfl

/-- Two values decide between their fields unless they are equal. -/
theorem verdict_values (d e d' e' : Bool) :
    verdict (if d then true else if verdict d e == .gt then false else d') (e && e') =
      (verdict d e).then (verdict d' e') := by
  revert d e d' e'
  decide

theorem fieldsLt_null_null (n m : Text) : fieldsLt (.null n :: fs) (.null m :: gs) =
    if n != m then compare n m == .lt else fieldsLt fs gs := by
  rw [fieldsLt]
  rfl

theorem fieldsLt_null_field (n m : Text) : fieldsLt (.null n :: fs) (.field m w :: gs) =
    if n != m then compare n m == .lt else true := by
  rw [fieldsLt]
  rfl

theorem fieldsLt_field_null (n m : Text) : fieldsLt (.field n v :: fs) (.null m :: gs) =
    if n != m then compare n m == .lt else false := by
  rw [fieldsLt]
  rfl

theorem fieldsLt_field_field (n m : Text) : fieldsLt (.field n v :: fs) (.field m w :: gs) =
    if n != m then compare n m == .lt
    else if v.lt w then true else if w.lt v then false else fieldsLt fs gs := by
  rw [fieldsLt]
  rfl

/-- The field loops say what the streams of the fields say. -/
theorem streamed_fields (h : ∀ name v, .field name v ∈ fs → ∀ name' w, .field name' w ∈ gs →
    Streamed v w ∧ Streamed w v) (xs ys : List ValueToken) :
    streamOrder (fieldsStream fs ++ xs) (fieldsStream gs ++ ys) =
      (verdict (fieldsLt fs gs) (fieldsBeq fs gs)).then (streamOrder xs ys) := by
  induction fs generalizing gs with
  | nil =>
    unfold fieldsLt
    cases gs with
    | nil => rfl
    | cons g gs => cases g <;> rfl
  | cons f fs ih =>
    cases gs with
    | nil =>
      unfold fieldsLt
      cases f <;> rfl
    | cons g gs =>
      have ih' := ih fun name v hv name' w hw =>
        h name v (List.mem_cons_of_mem _ hv) name' w (List.mem_cons_of_mem _ hw)
      cases f with
      | null n =>
        cases g with
        | null m =>
          rw [fieldsLt_null_null, fieldsBeq, fieldBeq, verdict_name, Ordering.then_assoc, ← ih']
          simp only [fieldsStream, List.cons_append, streamOrder_cons, tokenOrder_name,
            tokenOrder_self, Ordering.eq_then]
        | field m w =>
          have hbeq : fieldsBeq (.null n :: fs) (.field m w :: gs) = (n == m && false) := by
            rw [Bool.and_false]
            rfl
          rw [fieldsLt_null_field, hbeq, verdict_name, Ordering.then_assoc]
          simp only [fieldsStream, List.cons_append, streamOrder_cons, tokenOrder_name,
            tokenOrder_absent]
          rfl
      | field n v =>
        cases g with
        | null m =>
          have hbeq : fieldsBeq (.field n v :: fs) (.null m :: gs) = (n == m && false) := by
            rw [Bool.and_false]
            rfl
          rw [fieldsLt_field_null, hbeq, verdict_name, Ordering.then_assoc]
          simp only [fieldsStream, List.cons_append, streamOrder_cons, tokenOrder_name,
            tokenOrder_present]
          rfl
        | field m w =>
          obtain ⟨hvw, hwv⟩ := h n v List.mem_cons_self m w List.mem_cons_self
          rw [fieldsLt_field_field, fieldsBeq, fieldBeq, Bool.and_assoc, hvw.lt_swap hwv, verdict_name,
            verdict_values, Ordering.then_assoc, Ordering.then_assoc, ← ih', ← hvw]
          simp only [fieldsStream, List.cons_append, List.append_assoc, streamOrder_cons,
            tokenOrder_name, tokenOrder_self, Ordering.eq_then]

theorem streamed_records (h : ∀ name v, .field name v ∈ fs → ∀ name' w, .field name' w ∈ gs →
    Streamed v w ∧ Streamed w v) : Streamed (.record fs) (.record gs) := by
  intro xs ys
  have hlt : (CapabilityValue.record fs).lt (.record gs) = fieldsLt fs gs := by
    rw [CapabilityValue.lt]
    rfl
  rw [hlt, CapabilityValue.beq, ← streamed_fields h]
  simp only [CapabilityValue.stream, List.cons_append, streamOrder_cons, tokenOrder_self,
    Ordering.eq_then]

theorem index_eq_twelve_iff : a.index = 12 ↔ a.kind = .record := by
  cases a <;> simp [CapabilityValue.index, CapabilityValue.kind]

/-- Every two values are compared as their streams are. -/
theorem streamed (a b : CapabilityValue) : Streamed a b ∧ Streamed b a := by
  induction a using CapabilityValue.induct generalizing b with
  | flat a ha =>
    by_cases hb : b.kind = .record
    · have hne : a.index ≠ b.index := fun h =>
        ha (index_eq_twelve_iff.mp (h.trans (index_eq_twelve_iff.mpr hb)))
      exact ⟨streamed_of_index_ne hne, streamed_of_index_ne (Ne.symm hne)⟩
    · exact ⟨streamed_flat ha hb, streamed_flat hb ha⟩
  | record fs ih =>
    by_cases hb : b.kind = .record
    · cases b with
      | record gs =>
        refine ⟨streamed_records fun n v hv _ w _ => ih n v hv w, streamed_records ?_⟩
        exact fun _ w _ n v hv => (ih n v hv w).symm
      | _ => cases hb
    · have hne : b.index ≠ (CapabilityValue.record fs).index := fun h =>
        hb (index_eq_twelve_iff.mp h)
      exact ⟨streamed_of_index_ne (Ne.symm hne), streamed_of_index_ne hne⟩

end Streams

section Order
variable {a b c : CapabilityValue}

def CapabilityValue.order : CapabilityValue → CapabilityValue → Ordering :=
  fun a b => streamOrder a.stream b.stream

instance : Std.TransCmp CapabilityValue.order where
  eq_swap := fun {_ _} => @Std.OrientedCmp.eq_swap _ streamOrder _ _ _
  isLE_trans := fun {_ _ _} => @Std.TransCmp.isLE_trans _ streamOrder _ _ _ _

theorem order_eq (a b : CapabilityValue) : a.order b = verdict (a.lt b) (a.beq b) :=
  (streamed a b).1.order_eq

theorem lt_eq_order (a b : CapabilityValue) : a.lt b = (a.order b == .lt) := by
  rw [Bool.eq_iff_iff, beq_iff_eq, order_eq, verdict_eq_lt]

/-- Equal values are not below one another. -/
theorem beq_iff_order : a.beq b = true ↔ a.order b = .eq := by
  have hba := order_eq b a
  rw [@Std.OrientedCmp.eq_swap _ CapabilityValue.order _ b a, order_eq a b,
    CapabilityValue.beq_comm b a] at hba
  rw [order_eq]
  cases hlt : a.lt b <;> cases hlt' : b.lt a <;> cases hbeq : a.beq b <;> rw [hlt, hlt', hbeq] at hba
  all_goals revert hba; decide

/-- The order on values is a strict weak order whose ties are the equal values, and equality is an
equivalence. -/
theorem values_ordered :
    Comparators.StrictWeakOrderOn CapabilityValue.lt Set.univ ∧
    (∀ a b : CapabilityValue, (a.lt b = false ∧ b.lt a = false) ↔ a.beq b = true) ∧
    Equivalence fun a b : CapabilityValue => a.beq b = true := by
  refine ⟨.of_cmp fun a _ b _ => lt_eq_order a b, fun a b => ?_, ?_, ?_, ?_⟩
  · rw [beq_iff_order]
    exact Comparators.incomparable_iff (S := Set.univ) (fun a _ b _ => lt_eq_order a b) trivial
      trivial
  · exact CapabilityValue.beq_self
  · intro a b h
    rw [CapabilityValue.beq_comm]
    exact h
  · intro a b c hab hbc
    rw [beq_iff_order] at hab hbc ⊢
    exact Std.TransCmp.eq_trans hab hbc

end Order

end CapabilityRegistry
