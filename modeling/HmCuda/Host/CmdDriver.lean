import HmCuda.Host.CmdRuntime

/-! The driver API command handlers (cmd_driver.c). -/

namespace HmCuda
open Layout

def handleCuMemcpy : CmdM Unit := do
  let k ← key
  let kind ← req memcpyReq.kind
  if kind = 1 then
    copyIn fun dst stream c =>
      coreCuMemcpyHtodVq k (add64 dst c.off) (c.iov.sp, c.iov.base) c.len stream
  else if kind = 2 then
    copyOut (fun src stream c =>
      coreCuMemcpyDtohVq k (add64 src c.off) (c.iov.sp, c.iov.base) c.len stream) (pure ())
  else
    setErr 1

/-- The first batch, at offset 0, allocates; every batch is copied behind it. The
descriptors are not cut at the stated size. -/
def handleCuMemHostAlloc : CmdM Unit := do
  let k ← key
  let e ← Prog.ask
  if 2 ≤ e.elem.outSg.length then
    let batchSize := sub64 e.totalOutLen (sizeof reqHeader + sizeof cuMemHostAllocReq)
    let cs := chunksFrom (fun _ len => len) batchSize 0 e.elem.outSg.tail
    setErr 0
    if cs ≠ [] then
      let bytesize ← req cuMemHostAllocReq.bytesize
      let flags ← req cuMemHostAllocReq.flags
      let guestVa ← req cuMemHostAllocReq.guestVa
      let byteOffset ← req cuMemHostAllocReq.byteOffset
      setErr (← core (Prog.firstError (fun c => coreCuMemHostAllocVq k bytesize flags guestVa
        (add64 byteOffset c.off) (c.iov.sp, c.iov.base) c.len) cs))
  else
    setErr 1

def positive32 (n : Nat) : Option Nat := if 0 < n ∧ n < 2 ^ 31 then some n else none

def handleCuDeviceGetName : CmdM Unit := do
  let nameLen ← req cuDeviceGetNameReq.nameLen
  let maxLen := (positive32 nameLen).getD 256
  if ← core (query (alloc .calloc maxLen)) then
    let device ← req cuDeviceGetNameReq.device
    let r ← core (query (lib .cuDeviceGetName [maxLen, device] []))
    setErr r.code
    let name := if r.code = 0 then (r.str.getD []).take (maxLen - 1) else []
    reply cuDeviceGetNameResp [some (name.length + 1)] (name ++ [0])
  else
    setErr 2

/-- `HMCUDA_CMD_CU_GET_ERROR_STRING` and `_NAME`. -/
def handleCuGetErrorText (resp : CStruct) (m : QueryM LibRet) : CmdM Unit := do
  let r ← core (query m)
  setErr r.code
  match r.str with
  | some str => reply resp [some (str.length + 1)] (str ++ [0])
  | none => reply resp [some 0] []

def words (f : Nat → Field) (n : Nat) : CmdM (List Nat) :=
  Prog.collect (fun i => req (f i)) (List.range n)

/-- One access descriptor, `i` descriptors past the request structure. -/
def readDesc (i : Nat) : CmdM (List Nat) := do
  let at_ (f : Field) : Field :=
    ⟨sizeof cuMemSetAccessReq + i * sizeof cuMemAccessDesc + f.off, f.size⟩
  return [← req (at_ cuMemAccessDesc.locationType), ← req (at_ cuMemAccessDesc.locationId),
    ← req (at_ cuMemAccessDesc.flags)]

def handleCuMemSetAccess : CmdM Unit := do
  let count ← req cuMemSetAccessReq.count
  if ← core (query (alloc .calloc (count * sizeof cuMemAccessDesc))) then
    let descs ← Prog.collect readDesc (List.range count)
    answer (query (coreCuMemSetAccess (← key) (← req cuMemSetAccessReq.ptr)
      (← req cuMemSetAccessReq.size) descs.flatten count))
  else
    setErr 2

/-- `hmcuda_driver_handle_cmd` -/
def driverHandleCmd : DrvCmd → CmdM Unit
  | .cuInit => do
    let r ← core (query (lib .cuInit [← req cuInitReq.flags] []))
    setErr r.code
  | .cuDriverGetVersion => answerLib cuDriverGetVersionResp (lib .cuDriverGetVersion [] [])
  | .cuDeviceGet => do
    answerLib cuDeviceGetResp (lib .cuDeviceGet [← req cuDeviceGetReq.ordinal] [])
  | .cuDeviceGetCount => answerLib cuDeviceGetCountResp (lib .cuDeviceGetCount [] [])
  | .cuDeviceGetName => handleCuDeviceGetName
  | .cuDeviceGetAttribute => do
    answerLib cuDeviceGetAttributeResp (lib .cuDeviceGetAttribute
      [← req cuDeviceGetAttributeReq.attrib, ← req cuDeviceGetAttributeReq.device] [])
  | .cuDeviceGetUuid => do
    answerLib cuDeviceGetUuidResp (lib .cuDeviceGetUuid [← req cuDeviceGetUuidReq.device] [])
  | .cuDeviceCanAccessPeer => do
    answerLib cuDeviceCanAccessPeerResp (lib .cuDeviceCanAccessPeer
      [← req cuDeviceCanAccessPeerReq.device, ← req cuDeviceCanAccessPeerReq.peerDevice] [])
  | .cuDevicePrimaryCtxRetain => do
    answerWith cuDevicePrimaryCtxRetainResp (coreCuDevicePrimaryCtxRetain (← key)
      (← req cuDevicePrimaryCtxRetainReq.device))
  | .cuDevicePrimaryCtxRelease => do
    answer (query (coreCuDevicePrimaryCtxRelease (← req cuDevicePrimaryCtxReleaseReq.device)))
  | .cuCtxSetCurrent => do
    answer (query (coreCuCtxSetCurrent (← key) (← req cuCtxSetCurrentReq.context)))
  | .cuCtxGetDevice => answerLib cuCtxGetDeviceResp (lib .cuCtxGetDevice [] [])
  | .cuCtxEnablePeerAccess => do
    answer (query (coreCuCtxEnablePeerAccess (← key) (← req cuCtxEnablePeerAccessReq.peerContext)
      (← req cuCtxEnablePeerAccessReq.flags)))
  | .cuStreamCreate => do
    answerWith cuStreamCreateResp (coreCuStreamCreate (← key) (← req cuStreamCreateReq.flags))
  | .cuStreamDestroy => do
    answer (coreCuStreamDestroy (← key) (← req cuStreamDestroyReq.stream))
  | .cuStreamSynchronize => do
    answer (query (coreCuStreamSynchronize (← key) (← req cuStreamSynchronizeReq.stream)))
  | .cuStreamQuery => do
    answer (query (coreCuStreamQuery (← key) (← req cuStreamQueryReq.stream)))
  | .cuStreamWaitEvent => do
    answer (query (coreCuStreamWaitEvent (← key) (← req cuStreamWaitEventReq.stream)
      (← req cuStreamWaitEventReq.event) (← req cuStreamWaitEventReq.flags)))
  | .cuStreamGetCtx => do
    answerWith cuStreamGetCtxResp (coreCuStreamGetCtx (← key) (← req cuStreamGetCtxReq.stream))
  | .cuEventCreate => do
    answerWith cuEventCreateResp (coreCuEventCreate (← key) (← req cuEventCreateReq.flags))
  | .cuEventDestroy => do answer (coreCuEventDestroy (← key) (← req cuEventDestroyReq.event))
  | .cuEventRecord => do
    answer (query (coreCuEventRecord (← key) (← req cuEventRecordReq.event)
      (← req cuEventRecordReq.stream)))
  | .cuEventElapsedTime => do
    answerWith cuEventElapsedTimeResp (query (coreCuEventElapsedTime (← key)
      (← req cuEventElapsedTimeReq.startEvent) (← req cuEventElapsedTimeReq.endEvent)))
  | .cuMemAlloc => do
    answerWith cuMemAllocResp (coreCuMemAlloc (← key) (← req cuMemAllocReq.bytesize))
  | .cuMemFree => do answer (coreCuMemFree (← key) (← req cuMemFreeReq.dptr))
  | .cuMemHostAlloc => handleCuMemHostAlloc
  | .cuMemFreeHost => do answer (coreCuMemFreeHost (← key) (← req cuMemFreeHostReq.guestVa))
  | .cuMemsetD32 => do
    answer (query (coreCuMemsetD32 (← key) (← req cuMemsetD32Req.dptr)
      (← req cuMemsetD32Req.value) (← req cuMemsetD32Req.count)))
  | .cuMemcpyAsync => do
    answer (query (coreCuMemcpyAsync (← key) (← req cuMemcpyAsyncReq.dst)
      (← req cuMemcpyAsyncReq.src) (← req cuMemcpyAsyncReq.bytesize)
      (← req cuMemcpyAsyncReq.stream)))
  | .cuMemcpyHtod => do
    answer (query (coreCuMemcpyHtod (← key) (← req cuMemcpyHtodReq.dstDevice)
      (← req cuMemcpyHtodReq.srcHost) (← req cuMemcpyHtodReq.bytesize)))
  | .cuMemcpy => handleCuMemcpy
  | .cuPointerGetAttribute => do
    answerWith cuPointerGetAttributeResp (query (coreCuPointerGetAttribute (← key)
      (← req cuPointerGetAttributeReq.attrib) (← req cuPointerGetAttributeReq.ptr)))
  | .cuGetErrorString => do
    handleCuGetErrorText cuGetErrorStringResp
      (lib .cuGetErrorString [← req cuGetErrorStringReq.error] [])
  | .cuGetErrorName => do
    handleCuGetErrorText cuGetErrorNameResp
      (lib .cuGetErrorName [← req cuGetErrorNameReq.error] [])
  | .cuMemCreate => do
    answerWith cuMemCreateResp (coreCuMemCreate (← key) (← req cuMemCreateReq.size)
      (← words cuMemCreateReq.prop 4) (← req cuMemCreateReq.flags))
  | .cuMemRelease => do answer (coreCuMemRelease (← key) (← req cuMemReleaseReq.handle))
  | .cuMemMap => do
    answer (query (coreCuMemMap (← key) (← req cuMemMapReq.ptr) (← req cuMemMapReq.size)
      (← req cuMemMapReq.offset) (← req cuMemMapReq.handle) (← req cuMemMapReq.flags)))
  | .cuMemUnmap => do
    answer (query (coreCuMemUnmap (← key) (← req cuMemUnmapReq.ptr) (← req cuMemUnmapReq.size)))
  | .cuMemAddressReserve => do
    answerWith cuMemAddressReserveResp (coreCuMemAddressReserve (← key)
      (← req cuMemAddressReserveReq.size) (← req cuMemAddressReserveReq.alignment)
      (← req cuMemAddressReserveReq.addr) (← req cuMemAddressReserveReq.flags))
  | .cuMemAddressFree => do
    answer (coreCuMemAddressFree (← key) (← req cuMemAddressFreeReq.ptr)
      (← req cuMemAddressFreeReq.size))
  | .cuMemSetAccess => handleCuMemSetAccess
  | .cuMemGetAllocGranularity => do
    answerLib cuMemGetAllocGranularityResp (lib .cuMemGetAllocationGranularity
      ((← words cuMemGetAllocGranularityReq.prop 4) ++
        [← req cuMemGetAllocGranularityReq.option]) [])
  | .cuMemExportToShareableHandle => do
    let (err, out) ← core (query (coreCuMemExport (← key) (← req cuMemExportReq.handle)
      (← req cuMemExportReq.handleType) (← req cuMemExportReq.flags)))
    setErr err
    -- the response structure is cleared before the call
    reply cuMemExportResp [some (out.getD 0)] []
  | .cuMemImportFromShareableHandle => do
    answerWith cuMemImportResp (coreCuMemImport (← key) (← req cuMemImportReq.shareableHandle)
      (← req cuMemImportReq.handleType))
  | .cuMulticastCreate => do
    answerWith cuMulticastCreateResp (coreCuMulticastCreate (← key)
      (← words cuMulticastCreateReq.prop 3))
  | .cuMulticastGetGranularity => do
    answerLib cuMulticastGetGranularityResp (lib .cuMulticastGetGranularity
      ((← words cuMulticastGetGranularityReq.prop 3) ++
        [← req cuMulticastGetGranularityReq.option]) [])
  | .cuMulticastAddDevice => do
    answer (query (coreCuMulticastAddDevice (← key) (← req cuMulticastAddDeviceReq.mcHandle)
      (← req cuMulticastAddDeviceReq.device)))
  | .cuMulticastBindMem => do
    answer (query (coreCuMulticastBindMem (← key) (← req cuMulticastBindMemReq.mcHandle)
      (← req cuMulticastBindMemReq.mcOffset) (← req cuMulticastBindMemReq.memHandle)
      (← req cuMulticastBindMemReq.memOffset) (← req cuMulticastBindMemReq.size)
      (← req cuMulticastBindMemReq.flags)))
  | .cuMulticastUnbind => do
    answer (query (coreCuMulticastUnbind (← key) (← req cuMulticastUnbindReq.mcHandle)
      (← req cuMulticastUnbindReq.device) (← req cuMulticastUnbindReq.mcOffset)
      (← req cuMulticastUnbindReq.size)))

/-- `hmcuda_dispatch_cmd`: the runtime's switch first, then the driver's; `false` is
an unknown command. -/
def dispatchCmd (cmd : Nat) : CmdM Bool :=
  match Cmd.ofCode cmd with
  | some (.rt c) => do
    runtimeHandleCmd c
    return true
  | some (.drv c) => do
    driverHandleCmd c
    return true
  | none => return false

end HmCuda
