import CapabilityRegistry.Value

/-! Hardware, device, platform and software identities. -/
namespace CapabilityRegistry

inductive HardwareClass
  | unknown | cpu | gpu | npu | tpuAccelerator | fpga | asicAccelerator | nic | smartNic | dpu
  | cxlDevice | memoryExpander | hbmDomain | dramDomain | persistentMemory | pcieSwitch
  | nvSwitchLike | fabricSwitch | storageController | nvmeDevice | networkAdapter | offloadEngine
  | other
deriving DecidableEq, Inhabited

instance : CodeEnum HardwareClass where
  members := [.unknown, .cpu, .gpu, .npu, .tpuAccelerator, .fpga, .asicAccelerator, .nic,
    .smartNic, .dpu, .cxlDevice, .memoryExpander, .hbmDomain, .dramDomain, .persistentMemory,
    .pcieSwitch, .nvSwitchLike, .fabricSwitch, .storageController, .nvmeDevice, .networkAdapter,
    .offloadEngine, .other]
  mem_members := by rintro ⟨⟩ <;> decide

structure NativeIdentifier where
  key : Text
  value : Text
deriving DecidableEq

instance : Ord NativeIdentifier where
  compare a b := (compare a.key b.key).then (compare a.value b.value)

structure HardwareIdentity where
  vendor : VendorId := default
  product : ProductId := default
  family : HardwareFamilyId := default
  model : HardwareModelId := default
  revision : HardwareRevisionId := default
  architecture : ArchitectureId := default
  hardwareClass : HardwareClass := .unknown
  nativeIdentifiers : List NativeIdentifier := []
deriving DecidableEq, Inhabited

/-- An identity level of the canonical key, a dash when it is unavailable. -/
def keyLevel {Tag : Type} (id : Id Tag) : Text := if id.valid then id.str else "-"

def HardwareIdentity.canonicalKey (identity : HardwareIdentity) : Text :=
  joinTexts "|" [keyLevel identity.vendor, keyLevel identity.product, keyLevel identity.family,
    keyLevel identity.model, keyLevel identity.revision, keyLevel identity.architecture]

def normalizeHardwareIdentity (identity : HardwareIdentity) : HardwareIdentity :=
  { identity with nativeIdentifiers := sortUnique identity.nativeIdentifiers }

def validateNativeIdentifier (limits : RegistryLimits) (identifier : NativeIdentifier) : Status := do
  require (!identifier.key.isEmpty) .invalidIdentity "native identifier without key"
  require (identifier.value.length ≤ limits.maxMetadataBytes) .limitExceeded
    "native identifier value exceeds length limit"

def validateHardwareIdentity (identity : HardwareIdentity) (limits : RegistryLimits) : Status := do
  require (identity.nativeIdentifiers.length ≤ limits.maxNativeIdentifiers) .limitExceeded
    "too many native identifiers"
  checkAll (validateNativeIdentifier limits) identity.nativeIdentifiers
  require identity.vendor.valid .invalidIdentity "hardware identity requires a vendor"
  require (identity.family.valid || identity.model.valid) .invalidIdentity
    "hardware identity requires a family or a model"
  require (identity.hardwareClass != .unknown) .invalidIdentity
    "hardware identity requires a hardware class"

structure DeviceIdentity where
  id : DeviceId := default
  incarnation : DeviceIncarnationId := default
  hardware : HardwareIdentity := {}
  platform : PlatformId := default
  serialNumber : Option Text := none
  instanceLocator : Option Text := none
  displayName : Text := []
deriving DecidableEq, Inhabited

def validateDeviceIdentity (identity : DeviceIdentity) (limits : RegistryLimits) : Status := do
  require identity.id.valid .invalidIdentity "device identity requires a canonical device id"
  require identity.incarnation.valid .invalidIdentity "device identity requires an incarnation id"
  require (identity.displayName.length ≤ limits.maxNameLength) .limitExceeded
    "device display name exceeds length limit"
  require (identity.serialNumber.all fun s => s.length ≤ limits.maxMetadataBytes) .limitExceeded
    "serial number exceeds length limit"
  require (identity.instanceLocator.all fun s => s.length ≤ limits.maxMetadataBytes) .limitExceeded
    "instance locator exceeds length limit"
  validateHardwareIdentity identity.hardware limits

structure PlatformIdentity where
  id : PlatformId := default
  displayName : Text := []
  vendor : Text := []
  model : Text := []
  architecture : ArchitectureId := default
  nativeIdentifiers : List NativeIdentifier := []
deriving DecidableEq, Inhabited

structure FirmwareIdentity where
  id : FirmwareId := default
  version : Text := []
  build : Text := []
deriving DecidableEq, Inhabited

structure DriverIdentity where
  id : DriverId := default
  version : Text := []
deriving DecidableEq, Inhabited

structure RuntimeIdentity where
  id : RuntimeId := default
  version : Text := []
deriving DecidableEq, Inhabited

structure DeviceSoftwareState where
  firmware : FirmwareIdentity := {}
  firmwareGeneration : FirmwareGeneration := default
  driver : DriverIdentity := {}
  driverGeneration : DriverGeneration := default
  runtime : RuntimeIdentity := {}
  runtimeGeneration : RuntimeGeneration := default
deriving DecidableEq, Inhabited

structure DeviceRegistration where
  identity : DeviceIdentity := {}
  software : DeviceSoftwareState := {}
  platform : PlatformIdentity := {}
  deviceBootObserved : Bool := false
  observationSequence : UInt64 := 0
  observedAtUtc : Text := []
deriving DecidableEq, Inhabited

section Normalization
variable {identity : HardwareIdentity} {limits : RegistryLimits}

/-- Normalizing an accepted hardware identity keeps it acceptable. -/
theorem validateHardwareIdentity_normalize
    (h : validateHardwareIdentity identity limits = .ok ()) :
    validateHardwareIdentity (normalizeHardwareIdentity identity) limits = .ok () := by
  simp only [validateHardwareIdentity, normalizeHardwareIdentity, bind_eq_ok, require_eq_ok,
    checkAll_eq_ok, exists_const, decide_eq_true_eq] at h ⊢
  exact ⟨decide_eq_true ((length_sortUnique_le _).trans h.1),
    fun x hx => h.2.1 x (mem_of_mem_sortUnique hx), h.2.2⟩

end Normalization

end CapabilityRegistry
