import CapabilityRegistry.Lib.CodeEnum
import CapabilityRegistry.SoftwareVersion

/-! Condition trees: validation, rendering and three-valued evaluation. -/
namespace CapabilityRegistry

inductive ConditionKind
  | always | minDriverVersion | minFirmwareVersion | minRuntimeVersion | minPlatformGeneration
  | requiredOs | requiredKernelVersion | requiredDeviceMode | requiredTopology
  | requiredPeerHardware | requiredPartitionState | requiredPlatformSetting | requiredPrivilege
  | requiredDeviceGeneration | requiredFeatureGate | allOf | anyOf | not
deriving DecidableEq, Inhabited

instance : CodeEnum ConditionKind where
  members := [.always, .minDriverVersion, .minFirmwareVersion, .minRuntimeVersion,
    .minPlatformGeneration, .requiredOs, .requiredKernelVersion, .requiredDeviceMode,
    .requiredTopology, .requiredPeerHardware, .requiredPartitionState, .requiredPlatformSetting,
    .requiredPrivilege, .requiredDeviceGeneration, .requiredFeatureGate, .allOf, .anyOf, .not]
  mem_members := by rintro ⟨⟩ <;> decide

namespace EnvKeys
def kDriverVersion : Text := "driver.version"
def kFirmwareVersion : Text := "firmware.version"
def kRuntimeVersion : Text := "runtime.version"
def kPlatformGeneration : Text := "platform.generation"
def kOs : Text := "os.name"
def kKernelVersion : Text := "kernel.version"
def kDeviceMode : Text := "device.mode"
def kTopology : Text := "topology"
def kPeerHardware : Text := "peer.hardware"
def kPartitionState : Text := "partition.state"
def kPrivilege : Text := "privilege"
def kDeviceGeneration : Text := "device.generation"
def kPlatformSettingPrefix : Text := "platform.setting."
def kFeatureGatePrefix : Text := "feature.gate."
end EnvKeys

/-- A `shared_ptr<const ConditionNode>`: null, or a node with its children. -/
inductive ConditionPtr
  | null
  | node (kind : ConditionKind) (key value : Text) (children : List ConditionPtr)

namespace ConditionPtr

instance : Inhabited ConditionPtr := ⟨null⟩

def isNull : ConditionPtr → Bool
  | null => true
  | node .. => false

end ConditionPtr

def isComparisonKind : ConditionKind → Bool
  | .minDriverVersion | .minFirmwareVersion | .minRuntimeVersion | .minPlatformGeneration
  | .requiredKernelVersion => true
  | _ => false

def isEqualityKind : ConditionKind → Bool
  | .requiredOs | .requiredDeviceMode | .requiredTopology | .requiredPeerHardware
  | .requiredPartitionState | .requiredPrivilege | .requiredDeviceGeneration => true
  | _ => false

/-- The checks on one node's own fields. -/
def validateConditionNode (kind : ConditionKind) (key value : Text)
    (children : List ConditionPtr) : Status :=
  match kind with
  | .allOf | .anyOf => do
    require (!children.isEmpty) .invalidCondition "logical condition requires children"
    require (key.isEmpty && value.isEmpty) .invalidCondition
      "logical condition must not carry key or value"
  | .not => require (children.length == 1) .invalidCondition "not requires exactly one child"
  | .always => require children.isEmpty .invalidCondition "always must not have children"
  | .requiredFeatureGate =>
    require (!key.isEmpty) .invalidCondition "feature gate condition requires a gate name"
  | .requiredPlatformSetting =>
    require (!key.isEmpty && !value.isEmpty) .invalidCondition
      "platform setting condition requires name and value"
  | kind => do
    require (!value.isEmpty) .invalidCondition "condition requires a value"
    require (!isComparisonKind kind || SoftwareVersion.isParseable value) .invalidCondition
      "version comparison requires a parseable version"
    require (!isEqualityKind kind || children.isEmpty) .invalidCondition
      "leaf condition must not have children"

/-- The explicit stack of `validate_condition`, its top first. `budget` is what the
node limit still leaves, so the loop is structural on it. -/
def validateConditionLoop (limits : RegistryLimits) : Nat → List (ConditionPtr × Nat) → Status
  | _, [] => .ok ()
  | 0, _ :: _ => .error ⟨.limitExceeded, "condition tree exceeds node limit"⟩
  | budget + 1, (node, depth) :: stack => do
    require (depth ≤ sizeAdd limits.maxRecordDepth 2) .limitExceeded
      "condition tree exceeds depth limit"
    match node with
    | .null => .error ⟨.invalidCondition, "null condition node"⟩
    | .node kind key value children => do
      require (children.length ≤ limits.maxConditionChildren) .limitExceeded
        "condition node exceeds child limit"
      require (key.length ≤ limits.maxNameLength && value.length ≤ limits.maxNameLength)
        .limitExceeded "condition key or value exceeds length limit"
      validateConditionNode kind key value children
      validateConditionLoop limits budget
        ((children.map fun child => (child, depth + 1)).reverse ++ stack)

/-- Every `ConditionKind` is a known one here, so the final kind check cannot fail. -/
def validateCondition (node : ConditionPtr) (limits : RegistryLimits) : Status :=
  validateConditionLoop limits limits.maxConditionNodes [(node, 1)]

/-- Joins rendered parts with a separator. -/
def joinTexts (separator : Text) : List Text → Text
  | [] => []
  | [t] => t
  | t :: ts => t ++ separator ++ joinTexts separator ts

mutual

def describeCondition : ConditionPtr → Text
  | .null => "always"
  | .node kind key value children =>
    match kind with
    | .always => "always"
    | .allOf => "all_of(" ++ joinTexts ", " (describeConditions children) ++ ")"
    | .anyOf => "any_of(" ++ joinTexts ", " (describeConditions children) ++ ")"
    | .not => "not(" ++ (describeConditions children).headD [] ++ ")"
    | .minDriverVersion => EnvKeys.kDriverVersion ++ ">=" ++ value
    | .minFirmwareVersion => EnvKeys.kFirmwareVersion ++ ">=" ++ value
    | .minRuntimeVersion => EnvKeys.kRuntimeVersion ++ ">=" ++ value
    | .minPlatformGeneration => EnvKeys.kPlatformGeneration ++ ">=" ++ value
    | .requiredOs => EnvKeys.kOs ++ "==" ++ value
    | .requiredKernelVersion => EnvKeys.kKernelVersion ++ ">=" ++ value
    | .requiredDeviceMode => EnvKeys.kDeviceMode ++ "==" ++ value
    | .requiredTopology => EnvKeys.kTopology ++ "==" ++ value
    | .requiredPeerHardware => EnvKeys.kPeerHardware ++ "==" ++ value
    | .requiredPartitionState => EnvKeys.kPartitionState ++ "==" ++ value
    | .requiredPrivilege => EnvKeys.kPrivilege ++ "==" ++ value
    | .requiredDeviceGeneration => EnvKeys.kDeviceGeneration ++ ">=" ++ value
    | .requiredPlatformSetting => EnvKeys.kPlatformSettingPrefix ++ key ++ "==" ++ value
    | .requiredFeatureGate => EnvKeys.kFeatureGatePrefix ++ key ++ "==present"

def describeConditions : List ConditionPtr → List Text
  | [] => []
  | c :: cs => describeCondition c :: describeConditions cs

end

/-- The pre-order walk of `condition_tree_contains`; the order of the source's stack
does not change the answer. -/
def conditionTreeContains (axis : ConditionKind) : ConditionPtr → Bool
  | .null => false
  | .node kind _ _ children => kind == axis || anyContains children
where
  anyContains : List ConditionPtr → Bool
  | [] => false
  | c :: cs => conditionTreeContains axis c || anyContains cs

/-- Caller-supplied facts, keys and values folded to lower case. -/
structure EnvironmentContext where
  facts : Std.ExtTreeMap Text Text := ∅

def EnvironmentContext.set (env : EnvironmentContext) (key value : Text) : EnvironmentContext :=
  ⟨env.facts.insert (asciiLower key) (asciiLower value)⟩

def EnvironmentContext.find (env : EnvironmentContext) (key : Text) : Option Text :=
  env.facts[key]?

inductive ConditionOutcome
  | satisfied | unsatisfied | unknown | notApplicable
deriving DecidableEq, Inhabited

def ConditionOutcome.toText : ConditionOutcome → Text
  | .satisfied => "satisfied"
  | .unsatisfied => "unsatisfied"
  | .unknown => "unknown"
  | .notApplicable => "not-applicable"

def evaluateVersionMinimum (env : EnvironmentContext) (key value : Text) : ConditionOutcome :=
  match env.find key with
  | none => .unknown
  | some observed =>
    let required := SoftwareVersion.parse value
    let actual := SoftwareVersion.parse observed
    if !required.valid || !actual.valid then .unknown
    else if SoftwareVersion.compare actual required ≥ 0 then .satisfied else .unsatisfied

def evaluateEquality (env : EnvironmentContext) (key value : Text) : ConditionOutcome :=
  match env.find key with
  | none => .unknown
  | some observed => if equalsAsciiCi observed value then .satisfied else .unsatisfied

def isSpace (c : UInt8) : Bool := c == 32 || (9 ≤ c && c ≤ 13)

/-- `std::stoull`: leading white space, an optional sign and a maximal digit run; it
throws on no digits or overflow and negates modulo `2 ^ 64` after a minus sign. -/
def stoull (text : Text) : Option UInt64 :=
  let (negative, rest) :=
    match text.dropWhile isSpace with
    | [] => (false, [])
    | c :: cs => if c == '-'.toUInt8 then (true, cs)
      else if c == '+'.toUInt8 then (false, cs) else (false, c :: cs)
  let digits := rest.takeWhile isDigit
  let value := digits.foldl (fun n c => n * 10 + (c - '0'.toUInt8).toNat) 0
  if digits.isEmpty || value ≥ 2 ^ 64 then none
  else some (if negative then 0 - value.toUInt64 else value.toUInt64)

def evaluateGenerationMinimum (env : EnvironmentContext) (key value : Text) : ConditionOutcome :=
  match env.find key with
  | none => .unknown
  | some observed =>
    match stoull value, stoull observed with
    | some required, some actual => if actual ≥ required then .satisfied else .unsatisfied
    | _, _ => .unknown

/-- Unsatisfied dominates, then unknown. -/
def allOfOutcome (outcomes : List ConditionOutcome) : ConditionOutcome :=
  if outcomes.contains .unsatisfied then .unsatisfied
  else if outcomes.contains .unknown then .unknown else .satisfied

/-- Satisfied dominates, then unknown. -/
def anyOfOutcome (outcomes : List ConditionOutcome) : ConditionOutcome :=
  if outcomes.contains .satisfied then .satisfied
  else if outcomes.contains .unknown then .unknown else .unsatisfied

def notOutcome : ConditionOutcome → ConditionOutcome
  | .satisfied => .unsatisfied
  | .unsatisfied => .satisfied
  | outcome => outcome

mutual

/-- The outcome of `evaluate_condition`; its evidence list is explanation text only. -/
def evaluateCondition (env : EnvironmentContext) : ConditionPtr → ConditionOutcome
  | .null => .notApplicable
  | .node kind key value children =>
    match kind with
    | .always => .satisfied
    | .allOf => allOfOutcome (evaluateConditions env children)
    | .anyOf => anyOfOutcome (evaluateConditions env children)
    | .not => notOutcome ((evaluateConditions env children).headD .notApplicable)
    | .minDriverVersion => evaluateVersionMinimum env EnvKeys.kDriverVersion value
    | .minFirmwareVersion => evaluateVersionMinimum env EnvKeys.kFirmwareVersion value
    | .minRuntimeVersion => evaluateVersionMinimum env EnvKeys.kRuntimeVersion value
    | .requiredKernelVersion => evaluateVersionMinimum env EnvKeys.kKernelVersion value
    | .minPlatformGeneration => evaluateGenerationMinimum env EnvKeys.kPlatformGeneration value
    | .requiredDeviceGeneration => evaluateGenerationMinimum env EnvKeys.kDeviceGeneration value
    | .requiredOs => evaluateEquality env EnvKeys.kOs value
    | .requiredDeviceMode => evaluateEquality env EnvKeys.kDeviceMode value
    | .requiredTopology => evaluateEquality env EnvKeys.kTopology value
    | .requiredPeerHardware => evaluateEquality env EnvKeys.kPeerHardware value
    | .requiredPartitionState => evaluateEquality env EnvKeys.kPartitionState value
    | .requiredPrivilege => evaluateEquality env EnvKeys.kPrivilege value
    | .requiredPlatformSetting =>
      evaluateEquality env (EnvKeys.kPlatformSettingPrefix ++ key) value
    | .requiredFeatureGate =>
      if (env.find (EnvKeys.kFeatureGatePrefix ++ key)).isSome then .satisfied else .unsatisfied

def evaluateConditions (env : EnvironmentContext) : List ConditionPtr → List ConditionOutcome
  | [] => []
  | c :: cs => evaluateCondition env c :: evaluateConditions env cs

end

end CapabilityRegistry
