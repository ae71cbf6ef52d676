import HmCuda.General.Layout

/-! The request and response structures of the wire protocol. Nested structures
(`dim3`, allocation and multicast properties) are flattened into their members,
which have the same alignment. -/

namespace HmCuda
open Layout

def reqHeader : CStruct := [.u32, .u32]
def reqHeader.cmdType := field reqHeader 0

def respHeader : CStruct := [.u32, .u32]
def respHeader.cmdType := field respHeader 0
def respHeader.cudaError := field respHeader 1

/-! Runtime API -/

def mallocReq : CStruct := [.u64]
def mallocReq.size := field mallocReq 0
def mallocResp : CStruct := [.u64]

def freeReq : CStruct := [.u64]
def freeReq.devPtr := field freeReq 0

def memcpyReq : CStruct := [.u64, .u64, .u64, .u32, .u32, .u64]
def memcpyReq.dst := field memcpyReq 0
def memcpyReq.src := field memcpyReq 1
def memcpyReq.count := field memcpyReq 2
def memcpyReq.kind := field memcpyReq 3
def memcpyReq.stream := field memcpyReq 5

def memsetReq : CStruct := [.u64, .u32, .u64]
def memsetReq.devPtr := field memsetReq 0
def memsetReq.value := field memsetReq 1
def memsetReq.count := field memsetReq 2

def launchKernelReq : CStruct :=
  [.u64, .u32, .u32, .u32, .u32, .u32, .u32, .u32, .u64, .u32]
def launchKernelReq.func := field launchKernelReq 0
def launchKernelReq.gridDim (i : Nat) := field launchKernelReq (1 + i)
def launchKernelReq.blockDim (i : Nat) := field launchKernelReq (4 + i)
def launchKernelReq.sharedMem := field launchKernelReq 7
def launchKernelReq.stream := field launchKernelReq 8
def launchKernelReq.argsSize := field launchKernelReq 9

def streamCreateReq : CStruct := [.u32]
def streamCreateReq.flags := field streamCreateReq 0
def streamCreateResp : CStruct := [.u64]

def streamSynchronizeReq : CStruct := [.u64]
def streamSynchronizeReq.stream := field streamSynchronizeReq 0

def eventCreateReq : CStruct := [.u32]
def eventCreateReq.flags := field eventCreateReq 0
def eventCreateResp : CStruct := [.u64]

def eventRecordReq : CStruct := [.u64, .u64]
def eventRecordReq.event := field eventRecordReq 0
def eventRecordReq.stream := field eventRecordReq 1

def eventDestroyReq : CStruct := [.u64]
def eventDestroyReq.event := field eventDestroyReq 0

def eventSynchronizeReq : CStruct := [.u64]
def eventSynchronizeReq.event := field eventSynchronizeReq 0

def eventElapsedTimeReq : CStruct := [.u64, .u64]
def eventElapsedTimeReq.startEvent := field eventElapsedTimeReq 0
def eventElapsedTimeReq.endEvent := field eventElapsedTimeReq 1
def eventElapsedTimeResp : CStruct := [.u32]

def deviceSynchronizeReq : CStruct := [.u32]

/-- The image follows the structure. -/
def registerFatbinReq : CStruct := [.u64]
def registerFatbinReq.size := field registerFatbinReq 0
def registerFatbinResp : CStruct := [.u64]

/-- The device name follows the structure. -/
def registerFunctionReq : CStruct := [.u64, .u64, .u32]
def registerFunctionReq.fatbinHandle := field registerFunctionReq 0
def registerFunctionReq.hostFun := field registerFunctionReq 1
def registerFunctionReq.deviceNameLen := field registerFunctionReq 2
def registerFunctionResp : CStruct := [.u32, .u32]

def pushCallCfgReq : CStruct := [.u32, .u32, .u32, .u32, .u32, .u32, .u64, .u64]
def pushCallCfgReq.gridDim (i : Nat) := field pushCallCfgReq i
def pushCallCfgReq.blockDim (i : Nat) := field pushCallCfgReq (3 + i)
def pushCallCfgReq.sharedMem := field pushCallCfgReq 6
def pushCallCfgReq.stream := field pushCallCfgReq 7
def popCallCfgResp : CStruct := [.u32, .u32, .u32, .u32, .u32, .u32, .u64, .u64]

def initModuleReq : CStruct := [.u64]
def initModuleReq.fatbinHandle := field initModuleReq 0

def getDevicePropertiesReq : CStruct := [.u32]
def getDevicePropertiesReq.device := field getDevicePropertiesReq 0

private def i32s (n : Nat) : CStruct := List.replicate n .u32

/-- `hmcuda_device_prop`, each array of 32-bit words as its elements. -/
def deviceProp : CStruct :=
  [.bytes 256, .bytes 16, .bytes 8, .u32, .u64, .u64] ++ i32s 2 ++ [.u64] ++ i32s 8 ++
    [.u64] ++ i32s 2 ++ [.u64, .u64] ++ i32s 46 ++ [.u64] ++ i32s 16 ++ [.u64] ++ i32s 12 ++
    [.u64] ++ i32s 4 ++ [.u64] ++ i32s 13 ++ i32s 2 ++ i32s 61

def getDevicePropertiesResp : CStruct := deviceProp

def getDeviceCountResp : CStruct := [.u32]

def setDeviceReq : CStruct := [.u32]
def setDeviceReq.device := field setDeviceReq 0

def getErrorStringReq : CStruct := [.u32]
def getErrorStringReq.error := field getErrorStringReq 0
/-- The string follows the structure. -/
def getErrorStringResp : CStruct := [.u32]

def runtimeGetVersionResp : CStruct := [.u32]

def funcGetAttributesReq : CStruct := [.u64]
def funcGetAttributesReq.func := field funcGetAttributesReq 0
def funcGetAttributesResp : CStruct := [.u64, .u64, .u64] ++ i32s 13

example : sizeof memcpyReq = 40 ∧ sizeof launchKernelReq = 56 ∧ sizeof memsetReq = 24 ∧
    sizeof deviceProp = 1032 ∧ sizeof funcGetAttributesResp = 80 := by decide +kernel

/-! Driver API -/

def cuInitReq : CStruct := [.u32]
def cuInitReq.flags := field cuInitReq 0
def cuDriverGetVersionResp : CStruct := [.u32]

def cuDeviceGetReq : CStruct := [.u32]
def cuDeviceGetReq.ordinal := field cuDeviceGetReq 0
def cuDeviceGetResp : CStruct := [.u32]

def cuDeviceGetCountResp : CStruct := [.u32]

def cuDeviceGetNameReq : CStruct := [.u32, .u32]
def cuDeviceGetNameReq.device := field cuDeviceGetNameReq 0
def cuDeviceGetNameReq.nameLen := field cuDeviceGetNameReq 1
/-- The name follows the structure. -/
def cuDeviceGetNameResp : CStruct := [.u32]

def cuDeviceGetAttributeReq : CStruct := [.u32, .u32]
def cuDeviceGetAttributeReq.attrib := field cuDeviceGetAttributeReq 0
def cuDeviceGetAttributeReq.device := field cuDeviceGetAttributeReq 1
def cuDeviceGetAttributeResp : CStruct := [.u32]

def cuDeviceGetUuidReq : CStruct := [.u32]
def cuDeviceGetUuidReq.device := field cuDeviceGetUuidReq 0
def cuDeviceGetUuidResp : CStruct := [.bytes 16]

def cuDeviceCanAccessPeerReq : CStruct := [.u32, .u32]
def cuDeviceCanAccessPeerReq.device := field cuDeviceCanAccessPeerReq 0
def cuDeviceCanAccessPeerReq.peerDevice := field cuDeviceCanAccessPeerReq 1
def cuDeviceCanAccessPeerResp : CStruct := [.u32]

def cuDevicePrimaryCtxRetainReq : CStruct := [.u32]
def cuDevicePrimaryCtxRetainReq.device := field cuDevicePrimaryCtxRetainReq 0
def cuDevicePrimaryCtxRetainResp : CStruct := [.u64]

def cuDevicePrimaryCtxReleaseReq : CStruct := [.u32]
def cuDevicePrimaryCtxReleaseReq.device := field cuDevicePrimaryCtxReleaseReq 0

def cuCtxSetCurrentReq : CStruct := [.u64]
def cuCtxSetCurrentReq.context := field cuCtxSetCurrentReq 0

def cuCtxGetDeviceResp : CStruct := [.u32]

def cuCtxEnablePeerAccessReq : CStruct := [.u64, .u32]
def cuCtxEnablePeerAccessReq.peerContext := field cuCtxEnablePeerAccessReq 0
def cuCtxEnablePeerAccessReq.flags := field cuCtxEnablePeerAccessReq 1

def cuStreamCreateReq : CStruct := [.u32]
def cuStreamCreateReq.flags := field cuStreamCreateReq 0
def cuStreamCreateResp : CStruct := [.u64]

def cuStreamDestroyReq : CStruct := [.u64]
def cuStreamDestroyReq.stream := field cuStreamDestroyReq 0

def cuStreamSynchronizeReq : CStruct := [.u64]
def cuStreamSynchronizeReq.stream := field cuStreamSynchronizeReq 0

def cuStreamQueryReq : CStruct := [.u64]
def cuStreamQueryReq.stream := field cuStreamQueryReq 0

def cuStreamWaitEventReq : CStruct := [.u64, .u64, .u32]
def cuStreamWaitEventReq.stream := field cuStreamWaitEventReq 0
def cuStreamWaitEventReq.event := field cuStreamWaitEventReq 1
def cuStreamWaitEventReq.flags := field cuStreamWaitEventReq 2

def cuStreamGetCtxReq : CStruct := [.u64]
def cuStreamGetCtxReq.stream := field cuStreamGetCtxReq 0
def cuStreamGetCtxResp : CStruct := [.u64]

def cuEventCreateReq : CStruct := [.u32]
def cuEventCreateReq.flags := field cuEventCreateReq 0
def cuEventCreateResp : CStruct := [.u64]

def cuEventDestroyReq : CStruct := [.u64]
def cuEventDestroyReq.event := field cuEventDestroyReq 0

def cuEventRecordReq : CStruct := [.u64, .u64]
def cuEventRecordReq.event := field cuEventRecordReq 0
def cuEventRecordReq.stream := field cuEventRecordReq 1

def cuEventElapsedTimeReq : CStruct := [.u64, .u64]
def cuEventElapsedTimeReq.startEvent := field cuEventElapsedTimeReq 0
def cuEventElapsedTimeReq.endEvent := field cuEventElapsedTimeReq 1
def cuEventElapsedTimeResp : CStruct := [.u32]

def cuMemAllocReq : CStruct := [.u64]
def cuMemAllocReq.bytesize := field cuMemAllocReq 0
def cuMemAllocResp : CStruct := [.u64]

def cuMemFreeReq : CStruct := [.u64]
def cuMemFreeReq.dptr := field cuMemFreeReq 0

def cuMemHostAllocReq : CStruct := [.u64, .u32, .u64, .u64]
def cuMemHostAllocReq.bytesize := field cuMemHostAllocReq 0
def cuMemHostAllocReq.flags := field cuMemHostAllocReq 1
def cuMemHostAllocReq.guestVa := field cuMemHostAllocReq 2
def cuMemHostAllocReq.byteOffset := field cuMemHostAllocReq 3

def cuMemFreeHostReq : CStruct := [.u64]
def cuMemFreeHostReq.guestVa := field cuMemFreeHostReq 0

def cuMemsetD32Req : CStruct := [.u64, .u32, .u64]
def cuMemsetD32Req.dptr := field cuMemsetD32Req 0
def cuMemsetD32Req.value := field cuMemsetD32Req 1
def cuMemsetD32Req.count := field cuMemsetD32Req 2

def cuMemcpyAsyncReq : CStruct := [.u64, .u64, .u64, .u64]
def cuMemcpyAsyncReq.dst := field cuMemcpyAsyncReq 0
def cuMemcpyAsyncReq.src := field cuMemcpyAsyncReq 1
def cuMemcpyAsyncReq.bytesize := field cuMemcpyAsyncReq 2
def cuMemcpyAsyncReq.stream := field cuMemcpyAsyncReq 3

def cuMemcpyHtodReq : CStruct := [.u64, .u64, .u64]
def cuMemcpyHtodReq.dstDevice := field cuMemcpyHtodReq 0
def cuMemcpyHtodReq.srcHost := field cuMemcpyHtodReq 1
def cuMemcpyHtodReq.bytesize := field cuMemcpyHtodReq 2

def cuPointerGetAttributeReq : CStruct := [.u32, .u64]
def cuPointerGetAttributeReq.attrib := field cuPointerGetAttributeReq 0
def cuPointerGetAttributeReq.ptr := field cuPointerGetAttributeReq 1
def cuPointerGetAttributeResp : CStruct := [.u64]

def cuGetErrorStringReq : CStruct := [.u32]
def cuGetErrorStringReq.error := field cuGetErrorStringReq 0
def cuGetErrorStringResp : CStruct := [.u32]

def cuGetErrorNameReq : CStruct := [.u32]
def cuGetErrorNameReq.error := field cuGetErrorNameReq 0
def cuGetErrorNameResp : CStruct := [.u32]

/-- The size, the allocation property in four words, the flags. -/
def cuMemCreateReq : CStruct := [.u64, .u32, .u32, .u32, .u32, .u64]
def cuMemCreateReq.size := field cuMemCreateReq 0
def cuMemCreateReq.prop (i : Nat) := field cuMemCreateReq (1 + i)
def cuMemCreateReq.flags := field cuMemCreateReq 5
def cuMemCreateResp : CStruct := [.u64]

def cuMemReleaseReq : CStruct := [.u64]
def cuMemReleaseReq.handle := field cuMemReleaseReq 0

def cuMemMapReq : CStruct := [.u64, .u64, .u64, .u64, .u64]
def cuMemMapReq.ptr := field cuMemMapReq 0
def cuMemMapReq.size := field cuMemMapReq 1
def cuMemMapReq.offset := field cuMemMapReq 2
def cuMemMapReq.handle := field cuMemMapReq 3
def cuMemMapReq.flags := field cuMemMapReq 4

def cuMemUnmapReq : CStruct := [.u64, .u64]
def cuMemUnmapReq.ptr := field cuMemUnmapReq 0
def cuMemUnmapReq.size := field cuMemUnmapReq 1

def cuMemAddressReserveReq : CStruct := [.u64, .u64, .u64, .u64]
def cuMemAddressReserveReq.size := field cuMemAddressReserveReq 0
def cuMemAddressReserveReq.alignment := field cuMemAddressReserveReq 1
def cuMemAddressReserveReq.addr := field cuMemAddressReserveReq 2
def cuMemAddressReserveReq.flags := field cuMemAddressReserveReq 3
def cuMemAddressReserveResp : CStruct := [.u64]

def cuMemAddressFreeReq : CStruct := [.u64, .u64]
def cuMemAddressFreeReq.ptr := field cuMemAddressFreeReq 0
def cuMemAddressFreeReq.size := field cuMemAddressFreeReq 1

def cuMemAccessDesc : CStruct := [.u32, .u32, .u32]
def cuMemAccessDesc.locationType := field cuMemAccessDesc 0
def cuMemAccessDesc.locationId := field cuMemAccessDesc 1
def cuMemAccessDesc.flags := field cuMemAccessDesc 2

/-- `count` access descriptors follow the structure. -/
def cuMemSetAccessReq : CStruct := [.u64, .u64, .u32]
def cuMemSetAccessReq.ptr := field cuMemSetAccessReq 0
def cuMemSetAccessReq.size := field cuMemSetAccessReq 1
def cuMemSetAccessReq.count := field cuMemSetAccessReq 2

def cuMemGetAllocGranularityReq : CStruct := [.u32, .u32, .u32, .u32, .u32]
def cuMemGetAllocGranularityReq.prop (i : Nat) := field cuMemGetAllocGranularityReq i
def cuMemGetAllocGranularityReq.option := field cuMemGetAllocGranularityReq 4
def cuMemGetAllocGranularityResp : CStruct := [.u64]

def cuMemExportReq : CStruct := [.u64, .u32, .u64]
def cuMemExportReq.handle := field cuMemExportReq 0
def cuMemExportReq.handleType := field cuMemExportReq 1
def cuMemExportReq.flags := field cuMemExportReq 2
def cuMemExportResp : CStruct := [.bytes 64]

def cuMemImportReq : CStruct := [.bytes 64, .u32]
def cuMemImportReq.shareableHandle := field cuMemImportReq 0
def cuMemImportReq.handleType := field cuMemImportReq 1
def cuMemImportResp : CStruct := [.u64]

def cuMulticastCreateReq : CStruct := [.u32, .u32, .u64]
def cuMulticastCreateReq.prop (i : Nat) := field cuMulticastCreateReq i
def cuMulticastCreateResp : CStruct := [.u64]

def cuMulticastGetGranularityReq : CStruct := [.u32, .u32, .u64, .u32]
def cuMulticastGetGranularityReq.prop (i : Nat) := field cuMulticastGetGranularityReq i
def cuMulticastGetGranularityReq.option := field cuMulticastGetGranularityReq 3
def cuMulticastGetGranularityResp : CStruct := [.u64]

def cuMulticastAddDeviceReq : CStruct := [.u64, .u32]
def cuMulticastAddDeviceReq.mcHandle := field cuMulticastAddDeviceReq 0
def cuMulticastAddDeviceReq.device := field cuMulticastAddDeviceReq 1

def cuMulticastBindMemReq : CStruct := [.u64, .u64, .u64, .u64, .u64, .u64]
def cuMulticastBindMemReq.mcHandle := field cuMulticastBindMemReq 0
def cuMulticastBindMemReq.mcOffset := field cuMulticastBindMemReq 1
def cuMulticastBindMemReq.memHandle := field cuMulticastBindMemReq 2
def cuMulticastBindMemReq.memOffset := field cuMulticastBindMemReq 3
def cuMulticastBindMemReq.size := field cuMulticastBindMemReq 4
def cuMulticastBindMemReq.flags := field cuMulticastBindMemReq 5

def cuMulticastUnbindReq : CStruct := [.u64, .u32, .u64, .u64]
def cuMulticastUnbindReq.mcHandle := field cuMulticastUnbindReq 0
def cuMulticastUnbindReq.device := field cuMulticastUnbindReq 1
def cuMulticastUnbindReq.mcOffset := field cuMulticastUnbindReq 2
def cuMulticastUnbindReq.size := field cuMulticastUnbindReq 3

example : sizeof cuMemHostAllocReq = 32 ∧ sizeof cuMemSetAccessReq = 24 ∧
    sizeof cuMemAccessDesc = 12 ∧ sizeof cuMemImportReq = 68 ∧
    sizeof cuMulticastGetGranularityReq = 24 := by decide

end HmCuda
