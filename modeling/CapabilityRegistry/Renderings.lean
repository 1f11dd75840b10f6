import CapabilityRegistry.Lib.Brackets
import CapabilityRegistry.Trees

/-! What the rendering of a condition tells of its meaning. -/
namespace CapabilityRegistry

section Marks

/-- The text a rendered condition of a kind begins with. -/
def ConditionKind.beginning : ConditionKind → Text
  | .always => "always"
  | .allOf => "all_of("
  | .anyOf => "any_of("
  | .not => "not("
  | .minDriverVersion => EnvKeys.kDriverVersion ++ ">="
  | .minFirmwareVersion => EnvKeys.kFirmwareVersion ++ ">="
  | .minRuntimeVersion => EnvKeys.kRuntimeVersion ++ ">="
  | .minPlatformGeneration => EnvKeys.kPlatformGeneration ++ ">="
  | .requiredOs => EnvKeys.kOs ++ "=="
  | .requiredKernelVersion => EnvKeys.kKernelVersion ++ ">="
  | .requiredDeviceMode => EnvKeys.kDeviceMode ++ "=="
  | .requiredTopology => EnvKeys.kTopology ++ "=="
  | .requiredPeerHardware => EnvKeys.kPeerHardware ++ "=="
  | .requiredPartitionState => EnvKeys.kPartitionState ++ "=="
  | .requiredPrivilege => EnvKeys.kPrivilege ++ "=="
  | .requiredDeviceGeneration => EnvKeys.kDeviceGeneration ++ ">="
  | .requiredPlatformSetting => EnvKeys.kPlatformSettingPrefix
  | .requiredFeatureGate => EnvKeys.kFeatureGatePrefix

theorem beginning_quiet : ∀ kind ∈ (CodeEnum.members : List ConditionKind), kind.beginning ≠ [] ∧
    ','.toUInt8 ∉ kind.beginning ∧ ')'.toUInt8 ∉ kind.beginning := by
  decide

theorem beginning_prefix : ∀ kind ∈ (CodeEnum.members : List ConditionKind),
    ∀ kind' ∈ (CodeEnum.members : List ConditionKind),
      kind.beginning <+: kind'.beginning → kind = kind' := by
  decide

/-- The marks of a rendered condition. -/
def conditionMarks : Punctuation UInt8 where
  opening := '('.toUInt8
  closing := ')'.toUInt8
  comma := ','.toUInt8
  gap := " "
  Head h := ∃ kind : ConditionKind, h = kind.beginning
  comma_ne := by decide
  opening_ne := by decide
  quiet_gap := by decide
  head_ne := by
    rintro _ ⟨kind, rfl⟩
    exact (beginning_quiet kind (CodeEnum.mem_members kind)).1
  quiet_head := by
    rintro _ ⟨kind, rfl⟩
    exact (beginning_quiet kind (CodeEnum.mem_members kind)).2

/-- No beginning is the beginning of another. -/
theorem beginning_inj {kind kind' : ConditionKind} {t t' : Text}
    (h : kind.beginning ++ t = kind'.beginning ++ t') : kind = kind' ∧ t = t' := by
  have hcode := fun kind kind' : ConditionKind =>
    beginning_prefix kind (CodeEnum.mem_members kind) kind' (CodeEnum.mem_members kind')
  have hkind : kind = kind' := by
    rcases List.append_eq_append_iff.mp h with ⟨s, hs, -⟩ | ⟨s, hs, -⟩
    · exact hcode kind kind' ⟨s, hs.symm⟩
    · exact (hcode kind' kind ⟨s, hs.symm⟩).symm
  subst hkind
  exact ⟨rfl, List.append_cancel_left h⟩

/-- What a rendered condition goes on with. -/
def ConditionKind.inner (kind : ConditionKind) (key value : Text) (children : List ConditionPtr) :
    Text :=
  match kind with
  | .always => []
  | .allOf | .anyOf => conditionMarks.joined (children.map describeCondition) ++ ")"
  | .not => (children.map describeCondition).headD [] ++ ")"
  | .requiredPlatformSetting => key ++ "==" ++ value
  | .requiredFeatureGate => key ++ "==present"
  | _ => value

/-- Texts joined by a separator are a list in the marks with that separator. -/
theorem joinTexts_eq (P : Punctuation UInt8) (ts : List Text) :
    joinTexts (P.comma :: P.gap) ts = P.joined ts := by
  induction ts with
  | nil => rfl
  | cons t ts ih =>
    cases ts with
    | nil => rfl
    | cons u us =>
      rw [joinTexts, ih, List.append_assoc]
      · rfl
      · simp

theorem joinTexts_conditions (ts : List Text) : joinTexts ", " ts = conditionMarks.joined ts :=
  joinTexts_eq conditionMarks ts

theorem describe_node (kind : ConditionKind) (key value : Text) (children : List ConditionPtr) :
    describeCondition (.node kind key value children) =
      kind.beginning ++ kind.inner key value children := by
  cases kind <;> simp only [describeCondition, describeConditions_eq, joinTexts_conditions,
    ConditionKind.beginning, ConditionKind.inner, List.append_assoc, List.append_nil]

end Marks

namespace ConditionPtr

/-- What validation ensures of the parts of a tree that are rendered. -/
inductive Sound : ConditionPtr → Prop
  | leaf {kind : ConditionKind} {key value : Text} {children : List ConditionPtr}
      (leaf : kind.isLogical = false) (named : kind = .requiredPlatformSetting → key ≠ []) :
      Sound (.node kind key value children)
  | list {kind : ConditionKind} {key value : Text} {children : List ConditionPtr}
      (list : kind = .allOf ∨ kind = .anyOf) (sound : ∀ child ∈ children, Sound child) :
      Sound (.node kind key value children)
  | not {key value : Text} {child : ConditionPtr} (sound : Sound child) :
      Sound (.node .not key value [child])

/-- The first `==` after the first byte of a rendered setting ends its name. -/
def SplitsOnce (name : Text) : Prop :=
  ∀ first rest, name = first :: rest → ¬ ("==" : Text) <:+: rest ++ "="

/-- A tree inside the open brackets whose texts cannot be taken for structure. -/
inductive PlainIn : List Bool → ConditionPtr → Prop
  | leaf {σ : List Bool} {kind : ConditionKind} {key value : Text} {children : List ConditionPtr}
      (leaf : kind.isLogical = false) (free : conditionMarks.Free σ (kind.inner key value children))
      (named : kind = .requiredPlatformSetting → SplitsOnce key) :
      PlainIn σ (.node kind key value children)
  | list {σ : List Bool} {kind : ConditionKind} {key value : Text} {children : List ConditionPtr}
      (list : kind = .allOf ∨ kind = .anyOf) (plain : ∀ child ∈ children, PlainIn (true :: σ) child) :
      PlainIn σ (.node kind key value children)
  | not {σ : List Bool} {key value : Text} {child : ConditionPtr} (plain : PlainIn (false :: σ) child) :
      PlainIn σ (.node .not key value [child])

/-- A tree none of whose texts can be taken for structure. -/
def Plain (c : ConditionPtr) : Prop := PlainIn [] c

/-- The two trees have the same outcome in every environment. -/
def SameMeaning (c c' : ConditionPtr) : Prop :=
  ∀ env : EnvironmentContext, evaluateCondition env c = evaluateCondition env c'

section Parts
variable {σ : List Bool} {kind : ConditionKind} {key value : Text} {child : ConditionPtr}
  {children : List ConditionPtr}

theorem Sound.name_ne (h : Sound (.node .requiredPlatformSetting key value children)) :
    key ≠ [] := by
  cases h with
  | leaf _ named => exact named rfl
  | list hl => rcases hl with hl | hl <;> cases hl

theorem Sound.elements (h : Sound (.node kind key value children))
    (list : kind = .allOf ∨ kind = .anyOf) : ∀ child ∈ children, Sound child := by
  cases h with
  | leaf leaf => rcases list with rfl | rfl <;> cases leaf
  | list _ sound => exact sound
  | not => rcases list with hl | hl <;> cases hl

theorem Sound.single (h : Sound (.node .not key value children)) :
    ∃ child, children = [child] ∧ Sound child := by
  cases h with
  | leaf leaf => cases leaf
  | list hl => rcases hl with hl | hl <;> cases hl
  | not sound => exact ⟨_, rfl, sound⟩

theorem PlainIn.texts (h : PlainIn σ (.node kind key value children))
    (leaf : kind.isLogical = false) : conditionMarks.Free σ (kind.inner key value children) ∧
      (kind = .requiredPlatformSetting → SplitsOnce key) := by
  cases h with
  | leaf _ free named => exact ⟨free, named⟩
  | list hl => rcases hl with rfl | rfl <;> cases leaf
  | not => cases leaf

theorem PlainIn.elements (h : PlainIn σ (.node kind key value children))
    (list : kind = .allOf ∨ kind = .anyOf) : ∀ child ∈ children, PlainIn (true :: σ) child := by
  cases h with
  | leaf leaf => rcases list with rfl | rfl <;> cases leaf
  | list _ plain => exact plain
  | not => rcases list with hl | hl <;> cases hl

theorem PlainIn.single (h : PlainIn σ (.node .not key value [child])) :
    PlainIn (false :: σ) child := by
  cases h with
  | leaf leaf => cases leaf
  | list hl => rcases hl with hl | hl <;> cases hl
  | not plain => exact plain

end Parts

end ConditionPtr

section Validation
variable {limits : RegistryLimits} {condition : ConditionPtr}

/-- Every tree on the stack of an accepted run is sound. -/
theorem sound_of_validateConditionLoop {budget : Nat} {stack : List (ConditionPtr × Nat)}
    (h : validateConditionLoop limits budget stack = .ok ()) : ∀ entry ∈ stack, entry.1.Sound := by
  induction budget generalizing stack with
  | zero =>
    cases stack with
    | nil => simp
    | cons entry stack => cases h
  | succ budget ih =>
    cases stack with
    | nil => simp
    | cons entry stack =>
      obtain ⟨condition, depth⟩ := entry
      simp only [validateConditionLoop, status_bind_eq_ok, require_eq_ok, decide_eq_true_eq] at h
      obtain ⟨-, h⟩ := h
      cases condition with
      | null => cases h
      | node kind key value children =>
        simp only [status_bind_eq_ok] at h
        obtain ⟨-, -, hnode, hrest⟩ := h
        have hall := ih hrest
        have hchild : ∀ child ∈ children, child.Sound := fun child hm =>
          hall (child, depth + 1) (by simp [hm])
        refine List.forall_mem_cons.mpr ⟨?_, fun entry hm => hall entry (by simp [hm])⟩
        cases kind
        case allOf => exact .list (.inl rfl) hchild
        case anyOf => exact .list (.inr rfl) hchild
        case not =>
          simp only [validateConditionNode, require_eq_ok, beq_iff_eq] at hnode
          obtain ⟨child, rfl⟩ := List.length_eq_one_iff.mp hnode
          exact .not (hchild child List.mem_cons_self)
        case requiredPlatformSetting =>
          simp only [validateConditionNode, require_eq_ok, Bool.and_eq_true, Bool.not_eq_true'] at hnode
          exact .leaf rfl fun _ => by simpa using hnode.1
        all_goals exact .leaf rfl fun he => by cases he

theorem sound_of_validateCondition (h : validateCondition condition limits = .ok ()) :
    condition.Sound := by
  exact sound_of_validateConditionLoop h _ (List.mem_singleton_self _)

end Validation

section Reading
variable {σ : List Bool} {c c' : ConditionPtr} {k k' : Text}

theorem nil_of_splitsOnce {key rest value value' : Text} (hk : key ≠ [])
    (hs : ConditionPtr.SplitsOnce (key ++ rest)) (h : "==" ++ value = rest ++ ("==" ++ value')) :
    rest = [] := by
  obtain ⟨first, others, rfl⟩ := List.exists_cons_of_ne_nil hk
  have hequals : ("==" : Text) = [61, 61] := by decide
  have hsplit := hs first (others ++ rest) rfl
  rw [hequals] at h hsplit
  cases rest with
  | nil => rfl
  | cons c rest =>
    cases rest with
    | nil =>
      obtain ⟨rfl, -⟩ := List.cons.inj h
      exact (hsplit ⟨others, [], by simp; decide⟩).elim
    | cons c' rest =>
      simp only [List.cons_append, List.cons.injEq] at h
      obtain ⟨rfl, rfl, -⟩ := h
      exact (hsplit ⟨others, rest ++ "=", by simp⟩).elim

/-- Names that split once are read back from rendered settings. -/
theorem setting_eq {key key' value value' : Text} (hk : key ≠ []) (hk' : key' ≠ [])
    (hs : ConditionPtr.SplitsOnce key) (hs' : ConditionPtr.SplitsOnce key')
    (h : key ++ "==" ++ value = key' ++ "==" ++ value') : key = key' ∧ value = value' := by
  rw [List.append_assoc, List.append_assoc] at h
  have hkey : key = key' := by
    rcases List.append_eq_append_iff.mp h with ⟨rest, rfl, hr⟩ | ⟨rest, rfl, hr⟩
    · rw [nil_of_splitsOnce hk hs' hr, List.append_nil]
    · rw [nil_of_splitsOnce hk' hs hr, List.append_nil]
  subst hkey
  exact ⟨rfl, List.append_cancel_left (List.append_cancel_left h)⟩

theorem headed_of_sound {children : List ConditionPtr} (h : ∀ child ∈ children, child.Sound) :
    conditionMarks.Headed describeCondition children := by
  intro child hm
  cases h child hm <;> exact ⟨_, _, ⟨_, rfl⟩, describe_node _ _ _ _⟩

/-- The outcome of a condition that combines no others is that of its rendered text. -/
theorem leaf_meaning {kind : ConditionKind} {key key' value value' : Text}
    {children children' : List ConditionPtr} (leaf : kind.isLogical = false)
    (hkey : kind = .requiredPlatformSetting → key ≠ [] ∧ key' ≠ [] ∧
      ConditionPtr.SplitsOnce key ∧ ConditionPtr.SplitsOnce key')
    (h : kind.inner key value children = kind.inner key' value' children') :
    (ConditionPtr.node kind key value children).SameMeaning (.node kind key' value' children') := by
  intro env
  cases kind
  case always => rfl
  case allOf | anyOf | not => cases leaf
  case requiredPlatformSetting =>
    obtain ⟨hk, hk', hs, hs'⟩ := hkey rfl
    obtain ⟨rfl, rfl⟩ := setting_eq hk hk' hs hs' h
    rw [evaluateCondition, evaluateCondition]
  case requiredFeatureGate =>
    obtain rfl : key = key' := List.append_cancel_right h
    rw [evaluateCondition, evaluateCondition]
  all_goals
    obtain rfl : value = value' := h
    rw [evaluateCondition, evaluateCondition]

theorem evaluate_of_forall₂ {cs cs' : List ConditionPtr}
    (h : List.Forall₂ ConditionPtr.SameMeaning cs cs') (env : EnvironmentContext) :
    evaluateConditions env cs = evaluateConditions env cs' := by
  induction h with
  | nil => rfl
  | cons hhead htail ih => rw [evaluateConditions, evaluateConditions, hhead env, ih]

theorem list_meaning {kind : ConditionKind} {key key' value value' : Text}
    {children children' : List ConditionPtr} (list : kind = .allOf ∨ kind = .anyOf)
    (h : List.Forall₂ ConditionPtr.SameMeaning children children') :
    (ConditionPtr.node kind key value children).SameMeaning (.node kind key' value' children') := by
  intro env
  rcases list with rfl | rfl <;>
    simp only [evaluateCondition, evaluate_of_forall₂ h env]

/-- Printed at the same place, plain trees with the same rendering mean the same. -/
theorem rendering_read (hc : c.Sound) (hc' : c'.Sound) (hp : c.PlainIn σ) (hp' : c'.PlainIn σ)
    (hk : conditionMarks.Follows σ k) (hk' : conditionMarks.Follows σ k')
    (h : describeCondition c ++ k = describeCondition c' ++ k') : c.SameMeaning c' ∧ k = k' := by
  induction c using ConditionPtr.induct generalizing σ c' k k' with
  | null => cases hc
  | node kind key value children ih =>
    cases c' with
    | null => cases hc'
    | node kind' key' value' children' =>
      rw [describe_node, describe_node, List.append_assoc, List.append_assoc] at h
      obtain ⟨rfl, h⟩ := beginning_inj h
      by_cases list : kind = .allOf ∨ kind = .anyOf
      · have hjoined : ∀ {key value : Text} {children : List ConditionPtr} {k : Text},
            kind.inner key value children ++ k =
              conditionMarks.joined (children.map describeCondition) ++
                conditionMarks.closing :: k := by
          intro key value children k
          rcases list with rfl | rfl <;>
            exact List.append_assoc _ _ _
        rw [hjoined, hjoined] at h
        obtain ⟨hall, hkk⟩ := Punctuation.joined_eq (headed_of_sound (hc.elements list))
          (headed_of_sound (hc'.elements list)) (fun child hm child' hm' k k' hk hk' he =>
            ih child hm (hc.elements list child hm) (hc'.elements list child' hm')
              (hp.elements list child hm) (hp'.elements list child' hm') hk hk' he) hk hk' h
        exact ⟨list_meaning list hall, hkk⟩
      by_cases hnot : kind = .not
      · subst hnot
        obtain ⟨child, rfl, hchild⟩ := hc.single
        obtain ⟨child', rfl, hchild'⟩ := hc'.single
        have hclose : describeCondition child ++ conditionMarks.closing :: k =
            describeCondition child' ++ conditionMarks.closing :: k' := by
          simp only [ConditionKind.inner, List.map_cons, List.headD_cons, List.append_assoc] at h
          exact h
        obtain ⟨hmeaning, hkk⟩ := ih child List.mem_cons_self hchild hchild' hp.single hp'.single
          (.close false hk) (.close false hk') hclose
        refine ⟨fun env => ?_, (List.cons.inj hkk).2⟩
        simp only [evaluateCondition, evaluateConditions, List.headD_cons, hmeaning env]
      · have leaf : kind.isLogical = false := by
          cases kind <;> simp_all [ConditionKind.isLogical]
        obtain ⟨free, named⟩ := hp.texts leaf
        obtain ⟨free', named'⟩ := hp'.texts leaf
        obtain ⟨hinner, hkk⟩ := Punctuation.text_eq hk hk' free free' h
        refine ⟨leaf_meaning leaf (fun he => ?_) hinner, hkk⟩
        subst he
        exact ⟨hc.name_ne, hc'.name_ne, named rfl, named' rfl⟩

/-- Accepted trees none of whose texts can be taken for structure mean the same when they are
rendered alike. -/
theorem rendering_is_faithful {limits limits' : RegistryLimits}
    (hc : validateCondition c limits = .ok ()) (hc' : validateCondition c' limits' = .ok ())
    (hp : c.Plain) (hp' : c'.Plain) (h : describeCondition c = describeCondition c') :
    c.SameMeaning c' := by
  exact (rendering_read (sound_of_validateCondition hc) (sound_of_validateCondition hc') hp hp'
    .done .done (congrArg (· ++ []) h)).1

end Reading

section Samples

def osCondition (name : Text) : ConditionPtr := .node .requiredOs [] name []

/-- Two spellings of one negated list; a negation may carry texts of its own, which mean nothing. -/
def negatedList (key : Text) : ConditionPtr :=
  .node .not key [] [.node .anyOf [] [] [osCondition "a", osCondition "b"]]

theorem negatedList_plain (key : Text) : (negatedList key).Plain := by
  refine .not (.list (.inr rfl) fun child hm => ?_)
  rcases List.mem_pair.mp hm with rfl | rfl
  · exact .leaf rfl (Punctuation.free_of_quiet (by decide) (by decide)) fun h => by cases h
  · exact .leaf rfl (Punctuation.free_of_quiet (by decide) (by decide)) fun h => by cases h

theorem rendering_is_faithful_negatedList :
    (negatedList "x").SameMeaning (negatedList []) := by
  have hx : validateCondition (negatedList "x") {} = .ok () := by decide
  have hnil : validateCondition (negatedList []) {} = .ok () := by decide
  exact rendering_is_faithful hx hnil (negatedList_plain _) (negatedList_plain _) rfl

example : describeCondition (negatedList "x") = describeCondition (negatedList []) := by
  decide

/-- One text with the rendering of another condition in it is rendered as the list of the two. -/
theorem separator_is_ambiguous :
    ¬ ∀ (limits : RegistryLimits) (c c' : ConditionPtr), validateCondition c limits = .ok () →
      validateCondition c' limits = .ok () → describeCondition c = describeCondition c' →
      c.SameMeaning c' := by
  intro h
  let one : ConditionPtr := .node .allOf [] [] [osCondition "a, os.name==b"]
  let two : ConditionPtr := .node .allOf [] [] [osCondition "a", osCondition "b"]
  obtain ⟨hone, htwo, hrendered, hmeaning⟩ :
      validateCondition one {} = .ok () ∧ validateCondition two {} = .ok () ∧
        describeCondition one = describeCondition two ∧
        let env := EnvironmentContext.set {} EnvKeys.kOs "a, os.name==b"
        evaluateCondition env one ≠ evaluateCondition env two := by
    decide
  exact hmeaning (h {} one two hone htwo hrendered _)

end Samples

end CapabilityRegistry
