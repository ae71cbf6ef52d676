import HmCuda.Guest.Thread

/-! The calls that pass one structure on and one structure back (the macros of
hmcuda_dispatch.h), and the operation of the backend that each stands for. -/

namespace HmCuda
open Layout

/-- A request structure with its members, and the structure its answer is read as; one
without members is no structure. -/
structure Message where
  cmd : Cmd
  struct : CStruct
  vals : List Nat
  resp : CStruct

def Message.req (m : Message) : List UInt8 := request m.struct m.vals

def Message.Typed (m : Message) : Prop :=
  ∀ i v, m.vals[i]? = some v → v < 256 ^ (field m.struct i).size

/-- `*(out_ptr) = _resp.field` on success, for every member of the response. -/
def unpack (resp : CStruct) (r : Dispatched) : Option (List Nat) :=
  if r.ret = some 0 then
    some ((List.range resp.length).map fun i =>
      (field resp i).get fun a => (r.resp.getD []).getD a 0)
  else none

/-- What a forwarded call returns, `none` if it never does, and what it stores. -/
structure Passed where
  ret : Option Nat
  outs : Option (List Nat)
  deriving DecidableEq, Repr

/-- `HMCUDA_FORWARD` and its variants, over the dispatch function of either library. -/
def pass (drv : Bool) (m : Message) : GuestM Passed := do
  let r ← if drv then drvDispatch m.cmd m.req (sizeof m.resp)
    else dispatch m.cmd m.req (sizeof m.resp)
  return ⟨r.ret, unpack m.resp r⟩

/-- What an operation of the backend answers: its result code and the members of the
response it assigns. -/
abbrev Answer := Nat × List (Option Nat)

def coded (m : CoreM Nat) : CoreM Answer := do return (← m, [])

def giving (m : CoreM (Nat × Option Nat)) : CoreM Answer := do
  let r ← m
  return (r.1, [r.2])

def asking (m : QueryM LibRet) : CoreM Answer := query do
  let r ← m
  return (r.code, [if r.code = 0 then some (r.out 0) else none])

/-- A structure that is filled in as a whole, or not at all. -/
def filling (m : QueryM (Nat × Option (List Nat))) : CoreM Answer := query do
  let r ← m
  return (r.1, (r.2.getD []).map some)

namespace RtForward

def message : RtForward → Message
  | cudaMalloc size => ⟨.rt .malloc, mallocReq, [size], mallocResp⟩
  | cudaFree devPtr => ⟨.rt .free, freeReq, [devPtr], []⟩
  | cudaMemcpy dst src count kind => ⟨.rt .memcpy, memcpyReq, [dst, src, count, kind, 0, 0], []⟩
  | cudaMemset devPtr value count => ⟨.rt .memset, memsetReq, [devPtr, value, count], []⟩
  | cudaStreamCreate => ⟨.rt .streamCreate, streamCreateReq, [0], streamCreateResp⟩
  | cudaStreamSynchronize stream => ⟨.rt .streamSynchronize, streamSynchronizeReq, [stream], []⟩
  | cudaEventCreate => ⟨.rt .eventCreate, eventCreateReq, [0], eventCreateResp⟩
  | cudaEventRecord event stream => ⟨.rt .eventRecord, eventRecordReq, [event, stream], []⟩
  | cudaEventSynchronize event => ⟨.rt .eventSynchronize, eventSynchronizeReq, [event], []⟩
  | cudaEventElapsedTime start stop =>
    ⟨.rt .eventElapsedTime, eventElapsedTimeReq, [start, stop], eventElapsedTimeResp⟩
  | cudaEventDestroy event => ⟨.rt .eventDestroy, eventDestroyReq, [event], []⟩
  | cudaSetDevice device => ⟨.rt .setDevice, setDeviceReq, [device], []⟩
  | cudaDeviceSynchronize => ⟨.rt .deviceSynchronize, deviceSynchronizeReq, [0], []⟩
  | cudaGetDeviceCount => ⟨.rt .getDeviceCount, [], [], getDeviceCountResp⟩
  | cudaGetDeviceProperties device =>
    ⟨.rt .getDeviceProperties, getDevicePropertiesReq, [device], getDevicePropertiesResp⟩
  | cudaRuntimeGetVersion => ⟨.rt .runtimeGetVersion, [], [], runtimeGetVersionResp⟩
  | cudaPushCallConfiguration grid block sharedMem stream => ⟨.rt .pushCallConfiguration,
      pushCallCfgReq,
      [grid.1, grid.2.1, grid.2.2, block.1, block.2.1, block.2.2, sharedMem, stream], []⟩
  | cudaPopCallConfiguration => ⟨.rt .popCallConfiguration, [], [], popCallCfgResp⟩

def op (k : Key) : RtForward → Option (CoreM Answer)
  | cudaMalloc size => some (giving (coreMalloc k size))
  | cudaFree devPtr => some (coded (coreFree k devPtr))
  | cudaMemcpy .. => none
  | cudaMemset devPtr value count => some (coded (query (coreMemset k devPtr value count)))
  | cudaStreamCreate => some (giving (coreStreamCreate k 0))
  | cudaStreamSynchronize stream => some (coded (query (coreStreamSynchronize k stream)))
  | cudaEventCreate => some (giving (coreEventCreate k 0))
  | cudaEventRecord event stream => some (coded (query (coreEventRecord k event stream)))
  | cudaEventSynchronize event => some (coded (query (coreEventSynchronize k event)))
  | cudaEventElapsedTime start stop => some (giving (query (coreEventElapsedTime k start stop)))
  | cudaEventDestroy event => some (coded (coreEventDestroy k event))
  | cudaSetDevice device => some (coded (query ((·.code) <$> coreSetDevice device)))
  | cudaDeviceSynchronize => some (coded (query coreDeviceSynchronize))
  | cudaGetDeviceCount => some (asking coreGetDeviceCount)
  | cudaGetDeviceProperties device => some (filling (coreGetDeviceProperties device))
  | cudaRuntimeGetVersion => some (asking coreRuntimeGetVersion)
  | cudaPushCallConfiguration grid block sharedMem stream => some (coded (query
      (corePushCallConfiguration k [grid.1, grid.2.1, grid.2.2]
        [block.1, block.2.1, block.2.2] sharedMem stream)))
  | cudaPopCallConfiguration => some (filling (corePopCallConfiguration k))

end RtForward

/-- The functions of the driver library that pass a request on and a response back, and the
requests of those that also keep a record of a handle. -/
inductive DrvForward where
  | cuInit (flags : Nat)
  | cuDriverGetVersion
  | cuDeviceGet (ordinal : Nat)
  | cuDeviceGetCount
  | cuDeviceGetAttribute (attrib dev : Nat)
  | cuDeviceGetUuid (dev : Nat)
  | cuDeviceCanAccessPeer (dev peerDev : Nat)
  | cuDevicePrimaryCtxRetain (dev : Nat)
  | cuDevicePrimaryCtxRelease (dev : Nat)
  | cuCtxSetCurrent (ctx : Nat)
  | cuCtxGetDevice
  | cuCtxEnablePeerAccess (peerContext flags : Nat)
  | cuStreamCreate (flags : Nat)
  | cuStreamDestroy (hStream : Nat)
  | cuStreamSynchronize (hStream : Nat)
  | cuStreamQuery (hStream : Nat)
  | cuStreamWaitEvent (hStream hEvent flags : Nat)
  | cuStreamGetCtx (hStream : Nat)
  | cuEventCreate (flags : Nat)
  | cuEventDestroy (hEvent : Nat)
  | cuEventRecord (hEvent hStream : Nat)
  | cuEventElapsedTime (hStart hEnd : Nat)
  | cuMemAlloc (bytesize : Nat)
  | cuMemFree (dptr : Nat)
  | cuMemFreeHost (p : Nat)
  | cuMemsetD32 (dstDevice ui n : Nat)
  /-- Between two addresses of which both or neither is a known handle. -/
  | cuMemcpyAsync (dst src byteCount hStream : Nat)
  | cuPointerGetAttribute (attrib ptr : Nat)
  /-- The property as `prop.type`, `location.type`, `location.id`, `requestedHandleTypes`. -/
  | cuMemCreate (size : Nat) (prop : Nat × Nat × Nat × Nat) (flags : Nat)
  | cuMemRelease (handle : Nat)
  | cuMemMap (ptr size offset handle flags : Nat)
  | cuMemUnmap (ptr size : Nat)
  | cuMemAddressReserve (size alignment addr flags : Nat)
  | cuMemAddressFree (ptr size : Nat)
  | cuMemGetAllocationGranularity (prop : Nat × Nat × Nat × Nat) (option : Nat)
  | cuMemExportToShareableHandle (handle handleType flags : Nat)
  /-- The handle is a number of 64 bytes. -/
  | cuMemImportFromShareableHandle (osHandle shHandleType : Nat)
  /-- The property as `numDevices`, `handleTypes`, `size`. -/
  | cuMulticastCreate (prop : Nat × Nat × Nat)
  | cuMulticastGetGranularity (prop : Nat × Nat × Nat) (option : Nat)
  | cuMulticastAddDevice (mcHandle dev : Nat)
  | cuMulticastBindMem (mcHandle mcOffset memHandle memOffset size flags : Nat)
  | cuMulticastUnbind (mcHandle dev mcOffset size : Nat)
  deriving DecidableEq, Repr

namespace DrvForward

def message : DrvForward → Message
  | cuInit flags => ⟨.drv .cuInit, cuInitReq, [flags], []⟩
  | cuDriverGetVersion => ⟨.drv .cuDriverGetVersion, [], [], cuDriverGetVersionResp⟩
  | cuDeviceGet ordinal => ⟨.drv .cuDeviceGet, cuDeviceGetReq, [ordinal], cuDeviceGetResp⟩
  | cuDeviceGetCount => ⟨.drv .cuDeviceGetCount, [], [], cuDeviceGetCountResp⟩
  | cuDeviceGetAttribute attrib dev => ⟨.drv .cuDeviceGetAttribute, cuDeviceGetAttributeReq,
      [attrib, dev], cuDeviceGetAttributeResp⟩
  | cuDeviceGetUuid dev =>
    ⟨.drv .cuDeviceGetUuid, cuDeviceGetUuidReq, [dev], cuDeviceGetUuidResp⟩
  | cuDeviceCanAccessPeer dev peerDev => ⟨.drv .cuDeviceCanAccessPeer, cuDeviceCanAccessPeerReq,
      [dev, peerDev], cuDeviceCanAccessPeerResp⟩
  | cuDevicePrimaryCtxRetain dev => ⟨.drv .cuDevicePrimaryCtxRetain, cuDevicePrimaryCtxRetainReq,
      [dev], cuDevicePrimaryCtxRetainResp⟩
  | cuDevicePrimaryCtxRelease dev =>
    ⟨.drv .cuDevicePrimaryCtxRelease, cuDevicePrimaryCtxReleaseReq, [dev], []⟩
  | cuCtxSetCurrent ctx => ⟨.drv .cuCtxSetCurrent, cuCtxSetCurrentReq, [ctx], []⟩
  | cuCtxGetDevice => ⟨.drv .cuCtxGetDevice, [], [], cuCtxGetDeviceResp⟩
  | cuCtxEnablePeerAccess peerContext flags =>
    ⟨.drv .cuCtxEnablePeerAccess, cuCtxEnablePeerAccessReq, [peerContext, flags], []⟩
  | cuStreamCreate flags =>
    ⟨.drv .cuStreamCreate, cuStreamCreateReq, [flags], cuStreamCreateResp⟩
  | cuStreamDestroy hStream => ⟨.drv .cuStreamDestroy, cuStreamDestroyReq, [hStream], []⟩
  | cuStreamSynchronize hStream =>
    ⟨.drv .cuStreamSynchronize, cuStreamSynchronizeReq, [hStream], []⟩
  | cuStreamQuery hStream => ⟨.drv .cuStreamQuery, cuStreamQueryReq, [hStream], []⟩
  | cuStreamWaitEvent hStream hEvent flags =>
    ⟨.drv .cuStreamWaitEvent, cuStreamWaitEventReq, [hStream, hEvent, flags], []⟩
  | cuStreamGetCtx hStream =>
    ⟨.drv .cuStreamGetCtx, cuStreamGetCtxReq, [hStream], cuStreamGetCtxResp⟩
  | cuEventCreate flags => ⟨.drv .cuEventCreate, cuEventCreateReq, [flags], cuEventCreateResp⟩
  | cuEventDestroy hEvent => ⟨.drv .cuEventDestroy, cuEventDestroyReq, [hEvent], []⟩
  | cuEventRecord hEvent hStream =>
    ⟨.drv .cuEventRecord, cuEventRecordReq, [hEvent, hStream], []⟩
  | cuEventElapsedTime hStart hEnd => ⟨.drv .cuEventElapsedTime, cuEventElapsedTimeReq,
      [hStart, hEnd], cuEventElapsedTimeResp⟩
  | cuMemAlloc bytesize => ⟨.drv .cuMemAlloc, cuMemAllocReq, [bytesize], cuMemAllocResp⟩
  | cuMemFree dptr => ⟨.drv .cuMemFree, cuMemFreeReq, [dptr], []⟩
  | cuMemFreeHost p => ⟨.drv .cuMemFreeHost, cuMemFreeHostReq, [p], []⟩
  | cuMemsetD32 dstDevice ui n => ⟨.drv .cuMemsetD32, cuMemsetD32Req, [dstDevice, ui, n], []⟩
  | cuMemcpyAsync dst src byteCount hStream =>
    ⟨.drv .cuMemcpyAsync, cuMemcpyAsyncReq, [dst, src, byteCount, hStream], []⟩
  | cuPointerGetAttribute attrib ptr => ⟨.drv .cuPointerGetAttribute,
      cuPointerGetAttributeReq, [attrib, ptr], cuPointerGetAttributeResp⟩
  | cuMemCreate size prop flags => ⟨.drv .cuMemCreate, cuMemCreateReq,
      [size, prop.1, prop.2.1, prop.2.2.1, prop.2.2.2, flags], cuMemCreateResp⟩
  | cuMemRelease handle => ⟨.drv .cuMemRelease, cuMemReleaseReq, [handle], []⟩
  | cuMemMap ptr size offset handle flags =>
    ⟨.drv .cuMemMap, cuMemMapReq, [ptr, size, offset, handle, flags], []⟩
  | cuMemUnmap ptr size => ⟨.drv .cuMemUnmap, cuMemUnmapReq, [ptr, size], []⟩
  | cuMemAddressReserve size alignment addr flags => ⟨.drv .cuMemAddressReserve,
      cuMemAddressReserveReq, [size, alignment, addr, flags], cuMemAddressReserveResp⟩
  | cuMemAddressFree ptr size => ⟨.drv .cuMemAddressFree, cuMemAddressFreeReq, [ptr, size], []⟩
  | cuMemGetAllocationGranularity prop option => ⟨.drv .cuMemGetAllocGranularity,
      cuMemGetAllocGranularityReq, [prop.1, prop.2.1, prop.2.2.1, prop.2.2.2, option],
      cuMemGetAllocGranularityResp⟩
  | cuMemExportToShareableHandle handle handleType flags => ⟨.drv .cuMemExportToShareableHandle,
      cuMemExportReq, [handle, handleType, flags], cuMemExportResp⟩
  | cuMemImportFromShareableHandle osHandle shHandleType =>
    ⟨.drv .cuMemImportFromShareableHandle, cuMemImportReq, [osHandle, shHandleType],
      cuMemImportResp⟩
  | cuMulticastCreate prop => ⟨.drv .cuMulticastCreate, cuMulticastCreateReq,
      [prop.1, prop.2.1, prop.2.2], cuMulticastCreateResp⟩
  | cuMulticastGetGranularity prop option => ⟨.drv .cuMulticastGetGranularity,
      cuMulticastGetGranularityReq, [prop.1, prop.2.1, prop.2.2, option],
      cuMulticastGetGranularityResp⟩
  | cuMulticastAddDevice mcHandle dev =>
    ⟨.drv .cuMulticastAddDevice, cuMulticastAddDeviceReq, [mcHandle, dev], []⟩
  | cuMulticastBindMem mcHandle mcOffset memHandle memOffset size flags =>
    ⟨.drv .cuMulticastBindMem, cuMulticastBindMemReq,
      [mcHandle, mcOffset, memHandle, memOffset, size, flags], []⟩
  | cuMulticastUnbind mcHandle dev mcOffset size =>
    ⟨.drv .cuMulticastUnbind, cuMulticastUnbindReq, [mcHandle, dev, mcOffset, size], []⟩

def op (k : Key) : DrvForward → CoreM Answer
  | cuInit flags => coded (query ((·.code) <$> lib .cuInit [flags] []))
  | cuDriverGetVersion => asking (lib .cuDriverGetVersion [] [])
  | cuDeviceGet ordinal => asking (lib .cuDeviceGet [ordinal] [])
  | cuDeviceGetCount => asking (lib .cuDeviceGetCount [] [])
  | cuDeviceGetAttribute attrib dev => asking (lib .cuDeviceGetAttribute [attrib, dev] [])
  | cuDeviceGetUuid dev => asking (lib .cuDeviceGetUuid [dev] [])
  | cuDeviceCanAccessPeer dev peerDev => asking (lib .cuDeviceCanAccessPeer [dev, peerDev] [])
  | cuDevicePrimaryCtxRetain dev => giving (coreCuDevicePrimaryCtxRetain k dev)
  | cuDevicePrimaryCtxRelease dev => coded (query (coreCuDevicePrimaryCtxRelease dev))
  | cuCtxSetCurrent ctx => coded (query (coreCuCtxSetCurrent k ctx))
  | cuCtxGetDevice => asking (lib .cuCtxGetDevice [] [])
  | cuCtxEnablePeerAccess peerContext flags =>
    coded (query (coreCuCtxEnablePeerAccess k peerContext flags))
  | cuStreamCreate flags => giving (coreCuStreamCreate k flags)
  | cuStreamDestroy hStream => coded (coreCuStreamDestroy k hStream)
  | cuStreamSynchronize hStream => coded (query (coreCuStreamSynchronize k hStream))
  | cuStreamQuery hStream => coded (query (coreCuStreamQuery k hStream))
  | cuStreamWaitEvent hStream hEvent flags =>
    coded (query (coreCuStreamWaitEvent k hStream hEvent flags))
  | cuStreamGetCtx hStream => giving (coreCuStreamGetCtx k hStream)
  | cuEventCreate flags => giving (coreCuEventCreate k flags)
  | cuEventDestroy hEvent => coded (coreCuEventDestroy k hEvent)
  | cuEventRecord hEvent hStream => coded (query (coreCuEventRecord k hEvent hStream))
  | cuEventElapsedTime hStart hEnd => giving (query (coreCuEventElapsedTime k hStart hEnd))
  | cuMemAlloc bytesize => giving (coreCuMemAlloc k bytesize)
  | cuMemFree dptr => coded (coreCuMemFree k dptr)
  | cuMemFreeHost p => coded (coreCuMemFreeHost k p)
  | cuMemsetD32 dstDevice ui n => coded (query (coreCuMemsetD32 k dstDevice ui n))
  | cuMemcpyAsync dst src byteCount hStream =>
    coded (query (coreCuMemcpyAsync k dst src byteCount hStream))
  | cuPointerGetAttribute attrib ptr =>
    giving (query (coreCuPointerGetAttribute k attrib ptr))
  | cuMemCreate size prop flags =>
    giving (coreCuMemCreate k size [prop.1, prop.2.1, prop.2.2.1, prop.2.2.2] flags)
  | cuMemRelease handle => coded (coreCuMemRelease k handle)
  | cuMemMap ptr size offset handle flags =>
    coded (query (coreCuMemMap k ptr size offset handle flags))
  | cuMemUnmap ptr size => coded (query (coreCuMemUnmap k ptr size))
  | cuMemAddressReserve size alignment addr flags =>
    giving (coreCuMemAddressReserve k size alignment addr flags)
  | cuMemAddressFree ptr size => coded (coreCuMemAddressFree k ptr size)
  | cuMemGetAllocationGranularity prop option => asking (lib .cuMemGetAllocationGranularity
      [prop.1, prop.2.1, prop.2.2.1, prop.2.2.2, option] [])
  | cuMemExportToShareableHandle handle handleType flags => query do
    let r ← coreCuMemExport k handle handleType flags
    return (r.1, [some (r.2.getD 0)])
  | cuMemImportFromShareableHandle osHandle shHandleType =>
    giving (coreCuMemImport k osHandle shHandleType)
  | cuMulticastCreate prop => giving (coreCuMulticastCreate k [prop.1, prop.2.1, prop.2.2])
  | cuMulticastGetGranularity prop option => asking (lib .cuMulticastGetGranularity
      [prop.1, prop.2.1, prop.2.2, option] [])
  | cuMulticastAddDevice mcHandle dev => coded (query (coreCuMulticastAddDevice k mcHandle dev))
  | cuMulticastBindMem mcHandle mcOffset memHandle memOffset size flags =>
    coded (query (coreCuMulticastBindMem k mcHandle mcOffset memHandle memOffset size flags))
  | cuMulticastUnbind mcHandle dev mcOffset size =>
    coded (query (coreCuMulticastUnbind k mcHandle dev mcOffset size))

end DrvForward

/-- A call of either library, or a request one of them makes on its own: to start a session,
and for a module or a function it has a handle for. -/
inductive Forward where
  | init
  | initModule (handle : Nat)
  | funcGetAttributes (func : Nat)
  | rt (f : RtForward)
  | drv (f : DrvForward)
  deriving DecidableEq, Repr

namespace Forward

def message : Forward → Message
  | init => ⟨.rt .init, [], [], []⟩
  | initModule handle => ⟨.rt .initModule, initModuleReq, [handle], []⟩
  | funcGetAttributes func =>
    ⟨.rt .funcGetAttributes, funcGetAttributesReq, [func], funcGetAttributesResp⟩
  | rt f => f.message
  | drv f => f.message

def op (k : Key) : Forward → Option (CoreM Answer)
  | init => some (coded (coreInit k))
  | initModule handle => some (coded (query (coreInitModule k handle)))
  | funcGetAttributes func => some (filling (coreFuncGetAttributes k func))
  | rt f => f.op k
  | drv f => some (f.op k)

end Forward

/-- `hmcuda_prop_to_cuda`: the named members of `cudaDeviceProp`, in the order of
`hmcuda_device_prop`. -/
def hmcudaPropToCuda (cudartVersion : Nat) (src : List Nat) : List Nat :=
  (List.range 117).map fun i =>
    if cudartVersion < 13000 ∨ i ∉ gatedProps then src.getD i 0 else 0

/-- `cudaGetDeviceProperties_v2`, built against this version of CUDA. -/
def cudaGetDeviceProperties (cudartVersion device : Nat) : GuestM Passed := do
  let r ← pass false (RtForward.cudaGetDeviceProperties device).message
  return ⟨r.ret, r.outs.map (hmcudaPropToCuda cudartVersion)⟩

/-- What `cudaFuncGetAttributes` stores, from what its call gives back. -/
def Outcome.attributes : Outcome → Option (List Nat)
  | .code err resp => unpack funcGetAttributesResp ⟨some err, resp⟩
  | _ => none

end HmCuda
