import HmCuda.Host.CoreRuntime

/-! The driver API operations of the backend (core_driver.c), in the same form as
the runtime operations. -/

namespace HmCuda

def registerRegions : List (Nat × Nat) → QueryM Unit
  | [] => pure ()
  | (ptr, sz) :: rs => do
    if ptr ≠ 0 ∧ sz ≠ 0 then
      let _ ← lib .cuMemHostRegister [ptr, sz, 1] []
      registerRegions rs
    else
      registerRegions rs

/-- `hmcuda_register_guest_memory` -/
def registerGuestMemory : QueryM Unit := do
  if (← Prog.get).registered then return ()
  registerRegions (← Prog.ask).env.regions
  Prog.modify fun d => { d with registered := true }

/-- `resolve_any_mem` -/
def resolveAnyMem (c : Context) (h : Nat) : Nat :=
  if c.resGet .mem h ≠ 0 then c.resGet .mem h else c.resGet .hostMem h

/-- `resolve_stream` -/
def resolveStream (c : Context) (h : Nat) : Nat :=
  if h = 0 then 0 else if h = 1 then 1 else if h = 2 then 2 else c.resGet .stream h

/-- `hmcuda_core_cu_device_primary_ctx_retain`: a refused retain resets the device
and the session's table and is tried once more. -/
def coreCuDevicePrimaryCtxRetain (k : Key) (device : Nat) : CoreM (Nat × Option Nat) :=
  withCtxM k (3, none) fun c => do
    let r ← query (lib .cuDevicePrimaryCtxRetain [device] [])
    if r.code ≠ 0 then
      let _ ← query (lib .cudaDeviceReset [] [])
      ctxDestroy c
      table (·.ctxCreate k)
      let r ← query (lib .cuDevicePrimaryCtxRetain [device] [])
      if r.code ≠ 0 then
        return (r.code, none)
      let h ← resAdd k .context (r.out 0) device
      query registerGuestMemory
      return (0, some h)
    let h ← resAdd k .context (r.out 0) device
    query registerGuestMemory
    return (0, some h)

def coreCuDevicePrimaryCtxRelease (device : Nat) : QueryM Nat := do
  return (← lib .cuDevicePrimaryCtxRelease [device] []).code

def coreCuCtxSetCurrent (k : Key) (h : Nat) : QueryM Nat :=
  withCtx k 3 fun c => do return (← lib .cuCtxSetCurrent [c.resGet .context h] []).code

def coreCuCtxEnablePeerAccess (k : Key) (peer flags : Nat) : QueryM Nat :=
  withCtx k 3 fun c => do
    return (← lib .cuCtxEnablePeerAccess [c.resGet .context peer, flags] []).code

def coreCuStreamCreate (k : Key) (flags : Nat) : CoreM (Nat × Option Nat) :=
  withCtxM k (3, none) fun _ => do
    let r ← query (lib .cuStreamCreate [flags] [])
    if r.code = 0 then
      let h ← resAdd k .stream (r.out 0) 0
      return (r.code, some h)
    else
      return (r.code, none)

def coreCuStreamDestroy (k : Key) (stream : Nat) : CoreM Nat :=
  withCtxM k 3 fun c => do
    let s := c.resGet .stream stream
    if s = 0 then return 400
    let r ← query (lib .cuStreamDestroy [s] [])
    table (·.resRemove k .stream stream)
    return r.code

def coreCuStreamSynchronize (k : Key) (stream : Nat) : QueryM Nat :=
  withCtx k 3 fun c => streamSync .cuStreamSynchronize (resolveStream c stream)

def coreCuStreamQuery (k : Key) (stream : Nat) : QueryM Nat :=
  withCtx k 3 fun c => do return (← lib .cuStreamQuery [c.resGet .stream stream] []).code

def coreCuStreamWaitEvent (k : Key) (stream event flags : Nat) : QueryM Nat :=
  withCtx k 3 fun c => do
    return (← lib .cuStreamWaitEvent
      [c.resGet .stream stream, c.resGet .event event, flags] []).code

/-- `hmcuda_core_cu_stream_get_ctx`: a context the table does not hold is added. -/
def coreCuStreamGetCtx (k : Key) (stream : Nat) : CoreM (Nat × Option Nat) :=
  withCtxM k (3, none) fun c => do
    let r ← query (lib .cuStreamGetCtx [c.resGet .stream stream] [])
    if r.code = 0 then
      let h := c.resGetHandle .context (r.out 0)
      if h = 0 then
        let h ← resAdd k .context (r.out 0) 0
        return (r.code, some h)
      else
        return (r.code, some h)
    else
      return (r.code, none)

def coreCuEventCreate (k : Key) (flags : Nat) : CoreM (Nat × Option Nat) :=
  withCtxM k (3, none) fun _ => do
    let r ← query (lib .cuEventCreate [flags] [])
    if r.code = 0 then
      let h ← resAdd k .event (r.out 0) 0
      return (r.code, some h)
    else
      return (r.code, none)

def coreCuEventDestroy (k : Key) (event : Nat) : CoreM Nat :=
  withCtxM k 3 fun c => do
    let ev := c.resGet .event event
    if ev = 0 then return 400
    let r ← query (lib .cuEventDestroy [ev] [])
    table (·.resRemove k .event event)
    return r.code

def coreCuEventRecord (k : Key) (event stream : Nat) : QueryM Nat :=
  withCtx k 3 fun c => do
    return (← lib .cuEventRecord [c.resGet .event event, c.resGet .stream stream] []).code

def coreCuEventElapsedTime (k : Key) (start stop : Nat) : QueryM (Nat × Option Nat) :=
  withCtx k (3, none) fun c => do
    let r ← lib .cuEventElapsedTime [c.resGet .event start, c.resGet .event stop] []
    return (r.code, if r.code = 0 then some (r.out 0) else none)

def coreCuMemAlloc (k : Key) (bytesize : Nat) : CoreM (Nat × Option Nat) :=
  withCtxM k (3, none) fun _ => do
    let r ← query (lib .cuMemAlloc [bytesize] [])
    if r.code = 0 then
      table (·.resAddWithHandle k .mem (r.out 0) bytesize (r.out 0))
      return (r.code, some (r.out 0))
    else
      return (r.code, none)

def coreCuMemFree (k : Key) (handle : Nat) : CoreM Nat :=
  withCtxM k 3 fun c => do
    let realPtr := c.resGet .mem handle
    if realPtr = 0 then return 1
    let r ← query (lib .cuMemFree [realPtr] [])
    table (·.resRemove k .mem handle)
    return r.code

/-- The copy that ends `hmcuda_core_cu_mem_host_alloc_vq`: `guestVa` is looked up,
then the chunk is stored `byteOffset` bytes further. -/
def copyToHostAlloc (k : Key) (guestVa byteOffset : Nat) (hostPtr : Space × Nat)
    (len : Nat) : QueryM Nat :=
  withCtx k 3 fun c =>
    match c.resFind .hostMem guestVa with
    | none => return 1
    | some r => do
      let realPtr := r.pointer .hostMem guestVa
      if realPtr = 0 then return 1
      store (.uva, add64 realPtr byteOffset) (← load hostPtr len)
      logCopy ⟨r, add64 (guestVa - r.handle) byteOffset, len⟩
      return 0

/-- `hmcuda_core_cu_mem_host_alloc_vq` -/
def coreCuMemHostAllocVq (k : Key) (bytesize flags guestVa byteOffset : Nat)
    (hostPtr : Space × Nat) (batchSize : Nat) : CoreM Nat :=
  withCtxM k 3 fun _ => do
    if byteOffset = 0 then
      let r ← query (lib .cuMemHostAlloc [bytesize, flags ||| 2] [])
      if r.code ≠ 0 then return r.code
      table (·.resAddWithHandle k .hostMem (r.out 0) bytesize guestVa)
      let g ← query (lib .cuMemHostGetDevicePointer [r.out 0, 0] [])
      if g.code = 0 then
        table (·.resAddWithHandle k .hostDevPtr (g.out 0) bytesize guestVa)
        query (copyToHostAlloc k guestVa byteOffset hostPtr batchSize)
      else
        query (copyToHostAlloc k guestVa byteOffset hostPtr batchSize)
    else
      query (copyToHostAlloc k guestVa byteOffset hostPtr batchSize)

def coreCuMemFreeHost (k : Key) (guestVa : Nat) : CoreM Nat :=
  withCtxM k 3 fun c => do
    let realPtr := c.resGet .hostMem guestVa
    if realPtr = 0 then return 1
    let r ← query (lib .cuMemFreeHost [realPtr] [])
    table (·.resRemove k .hostMem guestVa)
    table (·.resRemove k .hostDevPtr guestVa)
    return r.code

def coreCuMemsetD32 (k : Key) (dptr value count : Nat) : QueryM Nat :=
  withCtx k 3 fun c => do
    let realPtr := c.resGet .mem dptr
    if realPtr = 0 then return 1
    else return (← lib .cuMemsetD32 [realPtr, value, count] []).code

def coreCuMemcpyAsync (k : Key) (dst src bytesize stream : Nat) : QueryM Nat :=
  withCtx k 3 fun c =>
    let d := resolveAnyMem c dst
    let s := resolveAnyMem c src
    if d = 0 ∨ s = 0 then return 1
    else copyAsync .cuMemcpyAsync (.uva, d) (.uva, s) bytesize (c.resGet .stream stream)

/-- `hmcuda_core_cu_memcpy_htod_vq`: device memory is written by the DMA engine, a
pinned buffer by the CPU, which translates embedded pinned addresses on the way. -/
def coreCuMemcpyHtodVq (k : Key) (dst : Nat) (hostPtr : Space × Nat) (bytesize stream : Nat) :
    QueryM Nat :=
  withCtx k 3 fun c =>
    let s := resolveStream c stream
    let d := c.resGet .mem dst
    if d ≠ 0 then copyAsync .cuMemcpyHtoDAsync (.uva, d) hostPtr bytesize s
    else match c.resFind .hostMem dst with
      | none => return 1
      | some r => do
        let p := r.pointer .hostMem dst
        if p = 0 then return 1
        let data ← load hostPtr bytesize
        if bufferNeedsHostPtrPatch c data then
          if ← alloc .malloc bytesize then
            store (.uva, p) (patchEmbeddedHostPtrs c data)
            logCopy ⟨r, dst - r.handle, bytesize⟩
            return 0
          else
            return 2
        else
          store (.uva, p) data
          logCopy ⟨r, dst - r.handle, bytesize⟩
          return 0

/-- `hmcuda_core_cu_memcpy_dtoh_vq` -/
def coreCuMemcpyDtohVq (k : Key) (src : Nat) (hostPtr : Space × Nat) (bytesize stream : Nat) :
    QueryM Nat :=
  withCtx k 3 fun c =>
    let s := resolveStream c stream
    let p := c.resGet .mem src
    if p ≠ 0 then copyAsync .cuMemcpyDtoHAsync hostPtr (.uva, p) bytesize s
    else match c.resFind .hostMem src with
      | none => return 1
      | some r => do
        let p := r.pointer .hostMem src
        if p = 0 then return 1
        store hostPtr (← load (.uva, p) bytesize)
        logCopy ⟨r, src - r.handle, bytesize⟩
        return 0

/-- `hmcuda_core_cu_memcpy_htod`, from a pinned buffer. -/
def coreCuMemcpyHtod (k : Key) (dst src bytesize : Nat) : QueryM Nat :=
  withCtx k 3 fun c =>
    let d := c.resGet .mem dst
    let s := c.resGet .hostMem src
    if d = 0 ∨ s = 0 then return 1
    else copyNow .cuMemcpyHtoD (.uva, d) (.uva, s) bytesize

/-- The value starts at 0 and keeps it when CUDA refuses the query. -/
def coreCuPointerGetAttribute (k : Key) (attrib ptr : Nat) : QueryM (Nat × Option Nat) :=
  withCtx k (3, none) fun c =>
    let realPtr := resolveAnyMem c ptr
    if realPtr = 0 then return (1, none)
    else do
      let r ← lib .cuPointerGetAttribute [attrib, realPtr] []
      return (r.code, some (if r.code = 0 then r.out 0 else 0))

/-- A call that acquires a generic allocation and enters it into the table. -/
def acquireGeneric (k : Key) (fn : LibFn) (args : List Nat) (size : Nat) :
    CoreM (Nat × Option Nat) :=
  withCtxM k (3, none) fun _ => do
    let r ← query (lib fn args [])
    if r.code = 0 then
      let h ← resAdd k .genericAlloc (r.out 0) size
      return (r.code, some h)
    else
      return (r.code, none)

def coreCuMemCreate (k : Key) (size : Nat) (prop : List Nat) (flags : Nat) :
    CoreM (Nat × Option Nat) :=
  acquireGeneric k .cuMemCreate (size :: prop ++ [flags]) size

def coreCuMemRelease (k : Key) (handle : Nat) : CoreM Nat :=
  withCtxM k 3 fun c => do
    let raw := c.resGet .genericAlloc handle
    if raw = 0 then return 1
    let r ← query (lib .cuMemRelease [raw] [])
    table (·.resRemove k .genericAlloc handle)
    return r.code

def coreCuMemMap (k : Key) (va size offset alloc flags : Nat) : QueryM Nat :=
  withCtx k 3 fun c => do
    let v := c.resGet .mem va
    if v = 0 then return 1
    else return (← lib .cuMemMap [v, size, offset, c.resGet .genericAlloc alloc, flags] []).code

def coreCuMemUnmap (k : Key) (va size : Nat) : QueryM Nat :=
  withCtx k 3 fun c => do
    let v := c.resGet .mem va
    if v = 0 then return 1
    else return (← lib .cuMemUnmap [v, size] []).code

def coreCuMemAddressReserve (k : Key) (size alignment addr flags : Nat) :
    CoreM (Nat × Option Nat) :=
  withCtxM k (3, none) fun _ => do
    let r ← query (lib .cuMemAddressReserve [size, alignment, addr, flags] [])
    if r.code = 0 then
      table (·.resAddWithHandle k .mem (r.out 0) size (r.out 0))
      return (r.code, some (r.out 0))
    else
      return (r.code, none)

def coreCuMemAddressFree (k : Key) (va size : Nat) : CoreM Nat :=
  withCtxM k 3 fun c => do
    let v := c.resGet .mem va
    if v = 0 then return 1
    let r ← query (lib .cuMemAddressFree [v, size] [])
    table (·.resRemove k .mem va)
    return r.code

def coreCuMemSetAccess (k : Key) (va size : Nat) (descs : List Nat) (count : Nat) : QueryM Nat :=
  withCtx k 3 fun c => do
    let v := c.resGet .mem va
    if v = 0 then return 1
    else return (← lib .cuMemSetAccess (v :: size :: descs ++ [count]) []).code

def coreCuMemExport (k : Key) (alloc handleType flags : Nat) : QueryM (Nat × Option Nat) :=
  withCtx k (3, none) fun c =>
    let raw := c.resGet .genericAlloc alloc
    if raw = 0 then return (1, none)
    else do
      let r ← lib .cuMemExportToShareableHandle [raw, handleType, flags] []
      return (r.code, if r.code = 0 then some (r.out 0) else none)

def coreCuMemImport (k : Key) (shareable handleType : Nat) : CoreM (Nat × Option Nat) :=
  acquireGeneric k .cuMemImportFromShareableHandle [shareable, handleType] 0

def coreCuMulticastCreate (k : Key) (prop : List Nat) : CoreM (Nat × Option Nat) :=
  acquireGeneric k .cuMulticastCreate prop 0

def coreCuMulticastAddDevice (k : Key) (mc device : Nat) : QueryM Nat :=
  withCtx k 3 fun c => do
    let raw := c.resGet .genericAlloc mc
    if raw = 0 then return 1
    else return (← lib .cuMulticastAddDevice [raw, device] []).code

def coreCuMulticastBindMem (k : Key) (mc mcOffset mem memOffset size flags : Nat) : QueryM Nat :=
  withCtx k 3 fun c => do
    let mcRaw := c.resGet .genericAlloc mc
    let memRaw := c.resGet .genericAlloc mem
    if mcRaw = 0 ∨ memRaw = 0 then return 1
    else return (← lib .cuMulticastBindMem
      [mcRaw, mcOffset, memRaw, memOffset, size, flags] []).code

def coreCuMulticastUnbind (k : Key) (mc device mcOffset size : Nat) : QueryM Nat :=
  withCtx k 3 fun c => do
    let raw := c.resGet .genericAlloc mc
    if raw = 0 then return 1
    else return (← lib .cuMulticastUnbind [raw, device, mcOffset, size] []).code

end HmCuda
