import Mathlib.Algebra.Group.Nat.Defs
import Mathlib.Data.List.GetD

/-! Command identifiers of the wire protocol. The runtime API counts from 1 and
the driver API from 0x10001, each range without gaps. -/

namespace HmCuda

inductive RtCmd where
  | malloc | free | memcpy | memset | launchKernel
  | streamCreate | streamSynchronize
  | eventCreate | eventRecord | eventSynchronize | eventElapsedTime | eventDestroy
  | deviceSynchronize | init | registerFatbin | registerFunction
  | pushCallConfiguration | popCallConfiguration | initModule
  | getDeviceProperties | getDeviceCount | setDevice
  | getErrorString | getErrorName | runtimeGetVersion | funcGetAttributes
  deriving DecidableEq, Repr

inductive DrvCmd where
  | cuInit | cuDriverGetVersion
  | cuDeviceGet | cuDeviceGetCount | cuDeviceGetName | cuDeviceGetAttribute | cuDeviceGetUuid
  | cuDeviceCanAccessPeer | cuDevicePrimaryCtxRetain | cuDevicePrimaryCtxRelease
  | cuCtxSetCurrent | cuCtxGetDevice | cuCtxEnablePeerAccess
  | cuStreamCreate | cuStreamDestroy | cuStreamSynchronize | cuStreamQuery
  | cuStreamWaitEvent | cuStreamGetCtx
  | cuEventCreate | cuEventDestroy | cuEventRecord | cuEventElapsedTime
  | cuMemAlloc | cuMemFree | cuMemHostAlloc | cuMemFreeHost | cuMemsetD32
  | cuMemcpyAsync | cuMemcpyHtod | cuMemcpy
  | cuPointerGetAttribute | cuGetErrorString | cuGetErrorName
  | cuMemCreate | cuMemRelease | cuMemMap | cuMemUnmap
  | cuMemAddressReserve | cuMemAddressFree
  | cuMemExportToShareableHandle | cuMemImportFromShareableHandle
  | cuMemSetAccess | cuMemGetAllocGranularity
  | cuMulticastCreate | cuMulticastGetGranularity | cuMulticastAddDevice
  | cuMulticastBindMem | cuMulticastUnbind
  deriving DecidableEq, Repr

def RtCmd.all : List RtCmd :=
  [.malloc, .free, .memcpy, .memset, .launchKernel, .streamCreate, .streamSynchronize,
    .eventCreate, .eventRecord, .eventSynchronize, .eventElapsedTime, .eventDestroy,
    .deviceSynchronize, .init, .registerFatbin, .registerFunction, .pushCallConfiguration,
    .popCallConfiguration, .initModule, .getDeviceProperties, .getDeviceCount, .setDevice,
    .getErrorString, .getErrorName, .runtimeGetVersion, .funcGetAttributes]

def DrvCmd.all : List DrvCmd :=
  [.cuInit, .cuDriverGetVersion, .cuDeviceGet, .cuDeviceGetCount, .cuDeviceGetName,
    .cuDeviceGetAttribute, .cuDeviceGetUuid, .cuDeviceCanAccessPeer, .cuDevicePrimaryCtxRetain,
    .cuDevicePrimaryCtxRelease, .cuCtxSetCurrent, .cuCtxGetDevice, .cuCtxEnablePeerAccess,
    .cuStreamCreate, .cuStreamDestroy, .cuStreamSynchronize, .cuStreamQuery, .cuStreamWaitEvent,
    .cuStreamGetCtx, .cuEventCreate, .cuEventDestroy, .cuEventRecord, .cuEventElapsedTime,
    .cuMemAlloc, .cuMemFree, .cuMemHostAlloc, .cuMemFreeHost, .cuMemsetD32, .cuMemcpyAsync,
    .cuMemcpyHtod, .cuMemcpy, .cuPointerGetAttribute, .cuGetErrorString, .cuGetErrorName,
    .cuMemCreate, .cuMemRelease, .cuMemMap, .cuMemUnmap, .cuMemAddressReserve,
    .cuMemAddressFree, .cuMemExportToShareableHandle, .cuMemImportFromShareableHandle,
    .cuMemSetAccess, .cuMemGetAllocGranularity, .cuMulticastCreate, .cuMulticastGetGranularity,
    .cuMulticastAddDevice, .cuMulticastBindMem, .cuMulticastUnbind]

def RtCmd.code (c : RtCmd) : Nat := 0x00001 + RtCmd.all.idxOf c

def DrvCmd.code (c : DrvCmd) : Nat := 0x10001 + DrvCmd.all.idxOf c

/-- The `switch` on a command word over one library's range. -/
def RtCmd.ofCode (n : Nat) : Option RtCmd := if n < 0x00001 then none else RtCmd.all[n - 0x00001]?

def DrvCmd.ofCode (n : Nat) : Option DrvCmd :=
  if n < 0x10001 then none else DrvCmd.all[n - 0x10001]?

@[simp] theorem RtCmd.ofCode_code (c : RtCmd) : RtCmd.ofCode c.code = some c := by
  cases c <;> rfl

@[simp] theorem DrvCmd.ofCode_code (c : DrvCmd) : DrvCmd.ofCode c.code = some c := by
  cases c <;> rfl

theorem RtCmd.code_bounds (c : RtCmd) : 1 ≤ c.code ∧ c.code ≤ 26 := by
  cases c <;> decide

theorem DrvCmd.code_bounds (c : DrvCmd) : 0x10001 ≤ c.code ∧ c.code ≤ 0x10031 := by
  cases c <;> decide

/-- A driver command is no runtime command, so the first `switch` passes it on. -/
@[simp] theorem RtCmd.ofCode_drv (c : DrvCmd) : RtCmd.ofCode c.code = none := by
  cases c <;> rfl

inductive Cmd where
  | rt (c : RtCmd)
  | drv (c : DrvCmd)
  deriving DecidableEq, Repr

def Cmd.code : Cmd → Nat
  | .rt c => c.code
  | .drv c => c.code

/-- Each library in turn until one claims the command. -/
def Cmd.ofCode (n : Nat) : Option Cmd :=
  ((RtCmd.ofCode n).map .rt).or ((DrvCmd.ofCode n).map .drv)

@[simp] theorem Cmd.ofCode_code (c : Cmd) : Cmd.ofCode c.code = some c := by
  cases c <;> simp [Cmd.code, Cmd.ofCode]

theorem Cmd.code_lt (c : Cmd) : c.code < 256 ^ 4 := by
  cases c with
  | rt c => exact Nat.lt_of_le_of_lt c.code_bounds.2 (by decide)
  | drv c => exact Nat.lt_of_le_of_lt c.code_bounds.2 (by decide)

end HmCuda
