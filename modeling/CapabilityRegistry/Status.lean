import CapabilityRegistry.Ids

/-! Error codes, fallible checks and the resource limits every check reads. -/
namespace CapabilityRegistry

inductive ErrorCode
  | ok | invalidArgument | invalidIdentity | invalidCapability | invalidValue
  | invalidSupportState | invalidProvenance | invalidCondition | invalidRange
  | invalidReference | limitExceeded | notFound | alreadyExists | staleEpoch | staleBoot
  | staleDeviceGeneration | staleCapabilityGeneration | staleSequence | generationRegression
  | duplicateConflict | fencedPublisher | unknownPublisher | unsupportedVersion | corruptData
  | integrityFailure | ioFailure | invariantViolation | queueFull | shuttingDown
  | protocolError | internal
deriving DecidableEq

def ErrorCode.toText : ErrorCode → Text
  | .ok => "ok"
  | .invalidArgument => "invalid-argument"
  | .invalidIdentity => "invalid-identity"
  | .invalidCapability => "invalid-capability"
  | .invalidValue => "invalid-value"
  | .invalidSupportState => "invalid-support-state"
  | .invalidProvenance => "invalid-provenance"
  | .invalidCondition => "invalid-condition"
  | .invalidRange => "invalid-range"
  | .invalidReference => "invalid-reference"
  | .limitExceeded => "limit-exceeded"
  | .notFound => "not-found"
  | .alreadyExists => "already-exists"
  | .staleEpoch => "stale-epoch"
  | .staleBoot => "stale-boot"
  | .staleDeviceGeneration => "stale-device-generation"
  | .staleCapabilityGeneration => "stale-capability-generation"
  | .staleSequence => "stale-sequence"
  | .generationRegression => "generation-regression"
  | .duplicateConflict => "duplicate-conflict"
  | .fencedPublisher => "fenced-publisher"
  | .unknownPublisher => "unknown-publisher"
  | .unsupportedVersion => "unsupported-version"
  | .corruptData => "corrupt-data"
  | .integrityFailure => "integrity-failure"
  | .ioFailure => "io-failure"
  | .invariantViolation => "invariant-violation"
  | .queueFull => "queue-full"
  | .shuttingDown => "shutting-down"
  | .protocolError => "protocol-error"
  | .internal => "internal"

/-- A failed `Status`: its code and message. -/
structure Error where
  code : ErrorCode
  message : Text
deriving DecidableEq

/-- `Status::describe` of a failure. -/
def Error.describe (e : Error) : Text :=
  if e.message.isEmpty then e.code.toText else e.code.toText ++ ": " ++ e.message

abbrev Status := Except Error Unit

/-- One guard of a validator: `if (!condition) return Status::failure(code, message)`. -/
def require (condition : Bool) (code : ErrorCode) (message : Text) : Status :=
  if condition then .ok () else .error ⟨code, message⟩

section Checks
variable {ε α β : Type}

theorem bind_eq_ok {x : Except ε α} {f : α → Except ε β} {b : β} :
    x >>= f = .ok b ↔ ∃ a, x = .ok a ∧ f a = .ok b := by
  cases x with
  | error e => simp [bind, Except.bind]
  | ok a => simp [bind, Except.bind]

theorem status_bind_eq_ok {x : Except ε Unit} {f : Unit → Except ε β} {b : β} :
    x >>= f = .ok b ↔ x = .ok () ∧ f () = .ok b := by
  cases x with
  | error e => simp [bind, Except.bind]
  | ok a => simp [bind, Except.bind]

theorem bind_eq_error {x : Except ε α} {f : α → Except ε β} {e : ε} :
    x >>= f = .error e ↔ x = .error e ∨ ∃ a, x = .ok a ∧ f a = .error e := by
  cases x with
  | error e => simp [bind, Except.bind]
  | ok a => simp [bind, Except.bind]

/-- What every accepted step of a loop carries on from the elements taken so far to the next one
holds of all of them once the loop is accepted. -/
theorem foldlM_spec {f : β → α → Except ε β} {P : List α → β → Prop} {past xs : List α} {b b' : β}
    (hb : P past b)
    (hf : ∀ past b, ∀ x ∈ xs, ∀ b', P past b → f b x = .ok b' → P (past ++ [x]) b')
    (h : xs.foldlM f b = .ok b') : P (past ++ xs) b' := by
  induction xs generalizing past b with
  | nil =>
    obtain rfl := Except.ok.inj h
    rwa [List.append_nil]
  | cons x xs ih =>
    rw [List.foldlM_cons, bind_eq_ok] at h
    obtain ⟨next, hx, hrest⟩ := h
    have hnext := hf past b x List.mem_cons_self next hb hx
    rw [List.append_cons]
    exact ih hnext (fun past b y hy => hf past b y (List.mem_cons_of_mem _ hy)) hrest

/-- A property that every accepted step of a loop keeps holds after the loop. -/
theorem foldlM_invariant {f : β → α → Except ε β} {P : β → Prop} {xs : List α} {b b' : β}
    (hb : P b) (hf : ∀ b, ∀ x ∈ xs, ∀ b', P b → f b x = .ok b' → P b')
    (h : xs.foldlM f b = .ok b') : P b' :=
  @foldlM_spec ε α β f (fun _ => P) [] xs b b' hb (fun _ => hf) h

@[simp] theorem require_eq_ok {c : Bool} {code : ErrorCode} {m : Text} {u : Unit} :
    require c code m = .ok u ↔ c = true := by
  cases c <;> simp [require]

@[simp] theorem require_bind_eq_ok {c : Bool} {code : ErrorCode} {m : Text}
    {f : Unit → Except Error β} {b : β} :
    require c code m >>= f = .ok b ↔ c = true ∧ f () = .ok b := by
  cases c <;> simp [require, bind, Except.bind]

end Checks

/-- The first failing check of a list of values, in list order. -/
def checkAll {α : Type} (check : α → Status) : List α → Status
  | [] => .ok ()
  | x :: xs => do
    check x
    checkAll check xs

@[simp] theorem checkAll_eq_ok {α : Type} {check : α → Status} {xs : List α} {u : Unit} :
    checkAll check xs = .ok u ↔ ∀ x ∈ xs, check x = .ok () := by
  induction xs with
  | nil => simp [checkAll]
  | cons x xs ih =>
    cases h : check x <;> simp [checkAll, bind_eq_ok, ih, h]

structure RegistryLimits where
  maxDevices : Nat := 20000
  maxFamilies : Nat := 8192
  maxCapabilitiesPerDevice : Nat := 2048
  maxEvidencePerCapability : Nat := 8
  maxEvidenceHistory : Nat := 262144
  maxQuirks : Nat := 16384
  maxCompatibilityFacts : Nat := 16384
  maxPublishers : Nat := 512
  maxMetadataBytes : Nat := 512
  maxNativeIdentifiers : Nat := 24
  maxNameLength : Nat := 192
  maxRecordDepth : Nat := 4
  maxRecordFields : Nat := 32
  maxFeatureSetEntries : Nat := 256
  maxArchitectureSetEntries : Nat := 64
  maxConditionNodes : Nat := 64
  maxConditionChildren : Nat := 32
  maxQueryResults : Nat := 8192
  maxComparisonEntries : Nat := 8192
  maxSnapshotRecords : Nat := 500000
  maxFrameBytes : Nat := 1048576
  maxPersistenceBytes : Nat := 268435456
  maxConnections : Nat := 64
  maxPendingPublications : Nat := 1024
  maxStringBytes : Nat := 4096
deriving DecidableEq

/-- A sum of `std::size_t` bounds, which wraps at `2 ^ 64`. -/
def sizeAdd (a b : Nat) : Nat := (a + b) % 2 ^ 64

/-- A product of `std::size_t` bounds, which wraps at `2 ^ 64`. -/
def sizeMul (a b : Nat) : Nat := a * b % 2 ^ 64

end CapabilityRegistry
