import CapabilityRegistry.Capability

/-! The built-in capability schemas. -/
namespace CapabilityRegistry

/-- A catalog entry; its capability is the schema token without the version marker. -/
def makeSchema (schemaId : Text) (domain : CapabilityDomain) (kind : ValueKind) (name unit : Text) :
    CapabilitySchema :=
  { id := Id.parse schemaId
    capability := Id.parse (((splitVersionMarker schemaId).map Prod.fst).getD schemaId)
    domain := domain
    valueKind := kind
    canonicalName := name
    unit := unit }

def builtinCapabilitySchemas : List CapabilitySchema := [
  makeSchema "cap.compute.architecture.v1" .compute .architectureSet
    "Execution architectures exposed by the device" "",
  makeSchema "cap.compute.capability.v1" .compute .enumeration
    "Vendor compute capability level" "domain=compute_capability",
  makeSchema "cap.compute.execution_units.v1" .compute .count "Parallel execution units" "units",
  makeSchema "cap.compute.tensor_units.v1" .compute .count
    "Matrix/tensor execution units" "units",
  makeSchema "cap.compute.multiprocessors.v1" .compute .count
    "Streaming multiprocessors, as reported by the vendor driver API" "multiprocessors",
  makeSchema "cap.compute.vector_width_bits.v1" .compute .count
    "SIMD/vector width in bits" "bits",
  makeSchema "cap.compute.datatypes.v1" .compute .featureSet
    "Data types the device can execute natively" "",
  makeSchema "cap.compute.fp64.v1" .compute .boolean "FP64 execution" "",
  makeSchema "cap.compute.fp32.v1" .compute .boolean "FP32 execution" "",
  makeSchema "cap.compute.tf32.v1" .compute .boolean "TF32 execution" "",
  makeSchema "cap.compute.fp16.v1" .compute .boolean "FP16 execution" "",
  makeSchema "cap.compute.bf16.v1" .compute .boolean "BF16 execution" "",
  makeSchema "cap.compute.fp8.v1" .compute .boolean "FP8 execution" "",
  makeSchema "cap.compute.fp4.v1" .compute .boolean "FP4 execution" "",
  makeSchema "cap.compute.int8.v1" .compute .boolean "INT8 execution" "",
  makeSchema "cap.compute.int4.v1" .compute .boolean "INT4 execution" "",
  makeSchema "cap.compute.sparse_execution.v1" .compute .boolean "Structured sparse execution" "",
  makeSchema "cap.compute.atomics.v1" .compute .featureSet
    "Atomic operations exposed to device code" "",
  makeSchema "cap.compute.cooperative_execution.v1" .compute .boolean
    "Cooperative grid/block execution" "",
  makeSchema "cap.compute.dynamic_parallelism.v1" .compute .boolean
    "Device-side launch of additional work" "",
  makeSchema "cap.compute.concurrent_kernels.v1" .compute .boolean
    "Multiple kernels executing concurrently on one device" "",
  makeSchema "cap.compute.preemption.v1" .compute .enumeration
    "Preemption granularity" "domain=preemption",
  makeSchema "cap.compute.context_isolation.v1" .compute .boolean
    "Hardware context isolation between clients" "",
  makeSchema "cap.compute.programmable.v1" .compute .boolean
    "Device executes publisher-supplied programs" "",
  makeSchema "cap.memory.capacity.v1" .memory .bytes "Device memory capacity" "",
  makeSchema "cap.memory.type.v1" .memory .enumeration "Memory technology" "domain=memory_type",
  makeSchema "cap.memory.bandwidth.v1" .memory .bandwidth "Nominal memory bandwidth" "",
  makeSchema "cap.memory.bus_width_bits.v1" .memory .count "Memory bus width in bits" "bits",
  makeSchema "cap.memory.ecc.v1" .memory .enumeration "ECC state" "domain=ecc",
  makeSchema "cap.memory.ecc_error_counters.v1" .memory .boolean
    "ECC error counters are readable" "",
  makeSchema "cap.memory.page_sizes.v1" .memory .featureSet "Supported page sizes" "",
  makeSchema "cap.memory.unified_addressing.v1" .memory .boolean
    "Unified virtual addressing across host and device" "",
  makeSchema "cap.memory.peer_access.v1" .memory .featureSet
    "Peer-visible memory access paths" "",
  makeSchema "cap.memory.managed_memory.v1" .memory .boolean "Driver-managed unified memory" "",
  makeSchema "cap.memory.coherence.v1" .memory .enumeration "Coherence model" "domain=coherence",
  makeSchema "cap.memory.address_translation.v1" .memory .featureSet
    "Address translation features" "",
  makeSchema "cap.memory.pinned_host_interaction.v1" .memory .boolean
    "Pinned host memory interaction" "",
  makeSchema "cap.memory.partition_local.v1" .memory .boolean
    "Partition-local memory semantics" "",
  makeSchema "cap.memory.cxl_exposure.v1" .memory .boolean "CXL-class memory exposure" "",
  makeSchema "cap.memory.numa_nodes.v1" .memory .count "NUMA nodes" "nodes",
  makeSchema "cap.partition.mechanism.v1" .partitioning .featureSet
    "Physical partitioning mechanisms" "",
  makeSchema "cap.partition.profiles.v1" .partitioning .featureSet
    "Supported partition profiles" "",
  makeSchema "cap.partition.max_partitions.v1" .partitioning .count
    "Maximum concurrent partitions" "partitions",
  makeSchema "cap.partition.memory_isolation.v1" .partitioning .boolean
    "Memory isolation between partitions" "",
  makeSchema "cap.partition.compute_isolation.v1" .partitioning .boolean
    "Compute isolation between partitions" "",
  makeSchema "cap.partition.live_reconfiguration.v1" .partitioning .enumeration
    "Reconfiguration without reset" "domain=live_reconfiguration",
  makeSchema "cap.partition.reset_required.v1" .partitioning .boolean
    "A device reset is required to apply a partition change" "",
  makeSchema "cap.partition.migration.v1" .partitioning .enumeration
    "Partition migration support" "domain=migration",
  makeSchema "cap.partition.sriov.v1" .partitioning .boolean
    "SR-IOV virtual function exposure" "",
  makeSchema "cap.partition.mediated_devices.v1" .partitioning .boolean
    "Mediated/virtual device support" "",
  makeSchema "cap.interconnect.pcie_generation.v1" .interconnect .count
    "Negotiated PCIe generation" "generation",
  makeSchema "cap.interconnect.pcie_width.v1" .interconnect .count
    "Negotiated PCIe link width" "lanes",
  makeSchema "cap.interconnect.peer_to_peer.v1" .interconnect .boolean
    "Direct peer-to-peer transfer between devices" "",
  makeSchema "cap.interconnect.link_bandwidth.v1" .interconnect .bandwidth
    "Nominal interconnect bandwidth" "",
  makeSchema "cap.interconnect.collective_offload.v1" .interconnect .boolean
    "Collective communication offload" "",
  makeSchema "cap.interconnect.nvlink.v1" .interconnect .boolean
    "NVLink-class cache-coherent device interconnect" "",
  makeSchema "cap.interconnect.nvswitch.v1" .interconnect .boolean
    "NVSwitch-class switched fabric presence" "",
  makeSchema "cap.interconnect.infinity_fabric.v1" .interconnect .boolean
    "Infinity Fabric-class coherent interconnect" "",
  makeSchema "cap.interconnect.cxl.v1" .interconnect .boolean "CXL link capability" "",
  makeSchema "cap.interconnect.topology_features.v1" .interconnect .featureSet
    "Link topology features" "",
  makeSchema "cap.net.rdma.v1" .networking .boolean "RDMA capability" "",
  makeSchema "cap.net.roce.v1" .networking .boolean "RoCE capability" "",
  makeSchema "cap.net.infiniband.v1" .networking .boolean "InfiniBand-class link" "",
  makeSchema "cap.net.gpudirect.v1" .networking .boolean "GPUDirect-class peer memory path" "",
  makeSchema "cap.net.dma.v1" .networking .boolean "Bus-master DMA" "",
  makeSchema "cap.net.scatter_gather.v1" .networking .boolean "Scatter/gather DMA" "",
  makeSchema "cap.net.checksum_offload.v1" .networking .boolean "Checksum offload" "",
  makeSchema "cap.net.encryption_offload.v1" .networking .boolean "Encryption offload" "",
  makeSchema "cap.net.compression_offload.v1" .networking .boolean "Compression offload" "",
  makeSchema "cap.net.smartnic_processing.v1" .networking .boolean
    "Programmable on-adapter processing" "",
  makeSchema "cap.net.queue_pairs.v1" .networking .count "Hardware queue pairs" "queues",
  makeSchema "cap.net.sriov.v1" .networking .boolean "SR-IOV virtual function exposure" "",
  makeSchema "cap.net.flow_steering.v1" .networking .boolean "Hardware flow steering" "",
  makeSchema "cap.net.link_speed.v1" .networking .bandwidth "Negotiated link speed" "",
  makeSchema "cap.net.interface_state.v1" .networking .enumeration
    "Interface administrative/operational state" "domain=interface_state",
  makeSchema "cap.net.mtu.v1" .networking .count "Maximum transmission unit" "bytes",
  makeSchema "cap.runtime.cuda.v1" .runtime .enumeration
    "CUDA runtime/driver availability" "domain=runtime",
  makeSchema "cap.runtime.rocm.v1" .runtime .enumeration
    "ROCm runtime availability" "domain=runtime",
  makeSchema "cap.runtime.level_zero.v1" .runtime .enumeration
    "Level Zero runtime availability" "domain=runtime",
  makeSchema "cap.runtime.driver_api.v1" .runtime .boolean "Low-level driver API exposure" "",
  makeSchema "cap.runtime.runtime_api.v1" .runtime .boolean "High-level runtime API exposure" "",
  makeSchema "cap.runtime.compiler_targets.v1" .runtime .featureSet
    "Compiler targets accepted by the device" "",
  makeSchema "cap.runtime.binary_formats.v1" .runtime .featureSet
    "Accepted binary container formats" "",
  makeSchema "cap.runtime.kernel_architectures.v1" .runtime .architectureSet
    "Kernel instruction architectures" "",
  makeSchema "cap.runtime.graph_capture.v1" .runtime .boolean "Execution graph capture" "",
  makeSchema "cap.runtime.ipc.v1" .runtime .boolean "Inter-process device memory sharing" "",
  makeSchema "cap.runtime.external_memory_handles.v1" .runtime .boolean
    "Import/export of external memory handles" "",
  makeSchema "cap.runtime.external_semaphores.v1" .runtime .boolean
    "External semaphore/event interop" "",
  makeSchema "cap.reliability.ecc_exposure.v1" .reliability .boolean
    "ECC state is exposed to software" "",
  makeSchema "cap.reliability.reset.v1" .reliability .enumeration
    "Reset capability" "domain=reset",
  makeSchema "cap.reliability.device_recovery.v1" .reliability .boolean
    "Device recovery without host reboot" "",
  makeSchema "cap.reliability.error_containment.v1" .reliability .boolean
    "Fault containment between clients" "",
  makeSchema "cap.reliability.fault_reporting.v1" .reliability .featureSet
    "Fault reporting channels" "",
  makeSchema "cap.reliability.telemetry_visibility.v1" .reliability .featureSet
    "Telemetry surfaces visible to software" "",
  makeSchema "cap.reliability.xid_reporting.v1" .reliability .boolean
    "Structured error identifiers" "",
  makeSchema "cap.power.telemetry.v1" .power .boolean "Power telemetry" "",
  makeSchema "cap.power.cap_range.v1" .power .numericRange
    "Settable power cap range in milliwatts" "mW",
  makeSchema "cap.power.clock_control.v1" .power .featureSet "Clock domain control" "",
  makeSchema "cap.power.thermal_sensors.v1" .power .count "Thermal sensors" "sensors",
  makeSchema "cap.power.fan_control.v1" .power .boolean "Fan control" "",
  makeSchema "cap.power.throttle_reasons.v1" .power .featureSet "Throttle reason reporting" "",
  makeSchema "cap.platform.os.v1" .platform .enumeration "Operating system family" "domain=os",
  makeSchema "cap.platform.kernel.v1" .platform .enumeration "Kernel version" "domain=kernel",
  makeSchema "cap.platform.cpu.logical_processors.v1" .platform .count
    "Logical processors" "processors",
  makeSchema "cap.platform.cpu.physical_cores.v1" .platform .count "Physical cores" "cores",
  makeSchema "cap.platform.cpu.isa_features.v1" .platform .featureSet
    "ISA features detected on this platform" "",
  makeSchema "cap.platform.cache_hierarchy.v1" .platform .record "Cache hierarchy levels" "",
  makeSchema "cap.platform.page_sizes.v1" .platform .featureSet "Platform page sizes" "",
  makeSchema "cap.platform.iommu.v1" .platform .boolean
    "IOMMU/translation hardware present and active" "",
  makeSchema "cap.platform.pci_devices.v1" .platform .count "PCI devices enumerated" "devices",
  makeSchema "cap.platform.cxl_devices.v1" .platform .count "CXL devices enumerated" "devices",
  makeSchema "cap.platform.nvswitch_devices.v1" .platform .count
    "NVSwitch-class devices enumerated" "devices",
  makeSchema "cap.platform.accelerators.v1" .platform .count
    "Hardware accelerators enumerated" "devices"]

end CapabilityRegistry
