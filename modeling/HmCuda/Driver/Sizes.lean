import HmCuda.Abi.Commands
import HmCuda.Abi.Structs
import HmCuda.Host.Resource

/-! The guest driver's size tables (cmd_runtime.c and cmd_driver.c of the kernel
module). `none` for the payload is the first pass, with the fixed sizes only. -/

namespace HmCuda
open Layout

/-- `struct hmcuda_cmd_sizes` -/
structure CmdSizes where
  reqSize : Nat
  respSize : Nat
  deriving DecidableEq, Repr

/-- Adds the variable length `len` reads from the payload, if there is one. -/
def plus (size : Nat) (len : (Nat → UInt8) → Nat) (p : Option (Nat → UInt8)) : Nat :=
  match p with
  | some p => add64 size (len p)
  | none => size

def signExtend (n : Nat) : Nat := if n < 2 ^ 31 then n else n + (2 ^ 64 - 2 ^ 32)

/-- `hmcuda_runtime_get_sizes` -/
def runtimeGetSizes (c : RtCmd) (p : Option (Nat → UInt8)) : CmdSizes :=
  match c with
  | .malloc => ⟨sizeof mallocReq, sizeof mallocResp⟩
  | .free => ⟨sizeof freeReq, 0⟩
  | .memcpy => ⟨sizeof memcpyReq, 0⟩
  | .memset => ⟨sizeof memsetReq, 0⟩
  | .launchKernel => ⟨plus (sizeof launchKernelReq) launchKernelReq.argsSize.get p, 0⟩
  | .streamCreate => ⟨sizeof streamCreateReq, sizeof streamCreateResp⟩
  | .streamSynchronize => ⟨sizeof streamSynchronizeReq, 0⟩
  | .eventCreate => ⟨sizeof eventCreateReq, sizeof eventCreateResp⟩
  | .eventRecord => ⟨sizeof eventRecordReq, 0⟩
  | .eventSynchronize => ⟨sizeof eventSynchronizeReq, 0⟩
  | .eventElapsedTime => ⟨sizeof eventElapsedTimeReq, sizeof eventElapsedTimeResp⟩
  | .eventDestroy => ⟨sizeof eventDestroyReq, 0⟩
  | .deviceSynchronize => ⟨sizeof deviceSynchronizeReq, 0⟩
  | .init => ⟨0, 0⟩
  | .pushCallConfiguration => ⟨sizeof pushCallCfgReq, 0⟩
  | .popCallConfiguration => ⟨0, sizeof popCallCfgResp⟩
  | .initModule => ⟨sizeof initModuleReq, 0⟩
  | .getDeviceProperties => ⟨sizeof getDevicePropertiesReq, sizeof getDevicePropertiesResp⟩
  | .getDeviceCount => ⟨0, sizeof getDeviceCountResp⟩
  | .setDevice => ⟨sizeof setDeviceReq, 0⟩
  | .getErrorString | .getErrorName => ⟨sizeof getErrorStringReq, sizeof getErrorStringResp + 256⟩
  | .registerFatbin =>
    ⟨plus (sizeof registerFatbinReq) registerFatbinReq.size.get p, sizeof registerFatbinResp⟩
  | .registerFunction =>
    ⟨plus (sizeof registerFunctionReq) registerFunctionReq.deviceNameLen.get p,
      sizeof registerFunctionResp⟩
  | .runtimeGetVersion => ⟨0, sizeof runtimeGetVersionResp⟩
  | .funcGetAttributes => ⟨sizeof funcGetAttributesReq, sizeof funcGetAttributesResp⟩

/-- `hmcuda_driver_get_sizes` -/
def driverGetSizes (c : DrvCmd) (p : Option (Nat → UInt8)) : CmdSizes :=
  match c with
  | .cuInit => ⟨sizeof cuInitReq, 0⟩
  | .cuDriverGetVersion => ⟨0, sizeof cuDriverGetVersionResp⟩
  | .cuDeviceGet => ⟨sizeof cuDeviceGetReq, sizeof cuDeviceGetResp⟩
  | .cuDeviceGetCount => ⟨0, sizeof cuDeviceGetCountResp⟩
  | .cuDeviceGetName =>
    ⟨sizeof cuDeviceGetNameReq, plus (sizeof cuDeviceGetNameResp)
      (fun p => signExtend (cuDeviceGetNameReq.nameLen.get p)) p⟩
  | .cuDeviceGetAttribute => ⟨sizeof cuDeviceGetAttributeReq, sizeof cuDeviceGetAttributeResp⟩
  | .cuDeviceGetUuid => ⟨sizeof cuDeviceGetUuidReq, sizeof cuDeviceGetUuidResp⟩
  | .cuDeviceCanAccessPeer =>
    ⟨sizeof cuDeviceCanAccessPeerReq, sizeof cuDeviceCanAccessPeerResp⟩
  | .cuDevicePrimaryCtxRetain =>
    ⟨sizeof cuDevicePrimaryCtxRetainReq, sizeof cuDevicePrimaryCtxRetainResp⟩
  | .cuDevicePrimaryCtxRelease => ⟨sizeof cuDevicePrimaryCtxReleaseReq, 0⟩
  | .cuCtxSetCurrent => ⟨sizeof cuCtxSetCurrentReq, 0⟩
  | .cuCtxGetDevice => ⟨0, sizeof cuCtxGetDeviceResp⟩
  | .cuCtxEnablePeerAccess => ⟨sizeof cuCtxEnablePeerAccessReq, 0⟩
  | .cuStreamCreate => ⟨sizeof cuStreamCreateReq, sizeof cuStreamCreateResp⟩
  | .cuStreamDestroy => ⟨sizeof cuStreamDestroyReq, 0⟩
  | .cuStreamSynchronize => ⟨sizeof cuStreamSynchronizeReq, 0⟩
  | .cuStreamQuery => ⟨sizeof cuStreamQueryReq, 0⟩
  | .cuStreamWaitEvent => ⟨sizeof cuStreamWaitEventReq, 0⟩
  | .cuStreamGetCtx => ⟨sizeof cuStreamGetCtxReq, sizeof cuStreamGetCtxResp⟩
  | .cuEventCreate => ⟨sizeof cuEventCreateReq, sizeof cuEventCreateResp⟩
  | .cuEventDestroy => ⟨sizeof cuEventDestroyReq, 0⟩
  | .cuEventRecord => ⟨sizeof cuEventRecordReq, 0⟩
  | .cuEventElapsedTime => ⟨sizeof cuEventElapsedTimeReq, sizeof cuEventElapsedTimeResp⟩
  | .cuMemAlloc => ⟨sizeof cuMemAllocReq, sizeof cuMemAllocResp⟩
  | .cuMemFree => ⟨sizeof cuMemFreeReq, 0⟩
  | .cuMemHostAlloc => ⟨sizeof cuMemHostAllocReq, 0⟩
  | .cuMemFreeHost => ⟨sizeof cuMemFreeHostReq, 0⟩
  | .cuMemsetD32 => ⟨sizeof cuMemsetD32Req, 0⟩
  | .cuMemcpyAsync => ⟨sizeof cuMemcpyAsyncReq, 0⟩
  | .cuMemcpyHtod => ⟨sizeof cuMemcpyHtodReq, 0⟩
  | .cuMemcpy => ⟨sizeof memcpyReq, 0⟩
  | .cuPointerGetAttribute =>
    ⟨sizeof cuPointerGetAttributeReq, sizeof cuPointerGetAttributeResp⟩
  | .cuGetErrorString => ⟨sizeof cuGetErrorStringReq, sizeof cuGetErrorStringResp⟩
  | .cuGetErrorName => ⟨sizeof cuGetErrorNameReq, sizeof cuGetErrorNameResp⟩
  | .cuMemCreate => ⟨sizeof cuMemCreateReq, sizeof cuMemCreateResp⟩
  | .cuMemRelease => ⟨sizeof cuMemReleaseReq, 0⟩
  | .cuMemMap => ⟨sizeof cuMemMapReq, 0⟩
  | .cuMemUnmap => ⟨sizeof cuMemUnmapReq, 0⟩
  | .cuMemAddressReserve => ⟨sizeof cuMemAddressReserveReq, sizeof cuMemAddressReserveResp⟩
  | .cuMemAddressFree => ⟨sizeof cuMemAddressFreeReq, 0⟩
  | .cuMemSetAccess =>
    ⟨plus (sizeof cuMemSetAccessReq)
      (fun p => cuMemSetAccessReq.count.get p * sizeof cuMemAccessDesc) p, 0⟩
  | .cuMemGetAllocGranularity =>
    ⟨sizeof cuMemGetAllocGranularityReq, sizeof cuMemGetAllocGranularityResp⟩
  | .cuMemExportToShareableHandle => ⟨sizeof cuMemExportReq, sizeof cuMemExportResp⟩
  | .cuMemImportFromShareableHandle => ⟨sizeof cuMemImportReq, sizeof cuMemImportResp⟩
  | .cuMulticastCreate => ⟨sizeof cuMulticastCreateReq, sizeof cuMulticastCreateResp⟩
  | .cuMulticastGetGranularity =>
    ⟨sizeof cuMulticastGetGranularityReq, sizeof cuMulticastGetGranularityResp⟩
  | .cuMulticastAddDevice => ⟨sizeof cuMulticastAddDeviceReq, 0⟩
  | .cuMulticastBindMem => ⟨sizeof cuMulticastBindMemReq, 0⟩
  | .cuMulticastUnbind => ⟨sizeof cuMulticastUnbindReq, 0⟩

def Cmd.sizes (c : Cmd) (p : Option (Nat → UInt8)) : CmdSizes :=
  match c with
  | .rt c => runtimeGetSizes c p
  | .drv c => driverGetSizes c p

/-- `hmcuda_cmd_get_sizes`; `none` is `-EINVAL`. -/
def cmdGetSizes (cmd : Nat) (p : Option (Nat → UInt8)) : Option CmdSizes :=
  (Cmd.ofCode cmd).map (·.sizes p)

end HmCuda
