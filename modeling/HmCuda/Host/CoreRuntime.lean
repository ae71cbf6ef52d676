import HmCuda.Host.Machine

/-! The runtime API operations of the backend (core_runtime.c). Each returns its
result code and the out-parameters it wrote; `none` is one left unwritten. -/

namespace HmCuda

/-- `resolve_runtime_stream` -/
def resolveRuntimeStream (c : Context) (h : Nat) : Nat :=
  if h = 0 then 0 else if h = 1 then 1 else if h = 2 then 2 else c.resGet .stream h

/-- `free_resource_list`: the call that releases one entry, if there is one. -/
def freeCall : ResType → Option LibFn
  | .mem => some .cudaFree
  | .stream => some .cudaStreamDestroy
  | .event => some .cudaEventDestroy
  | .hostMem => some .cuMemFreeHost
  | .genericAlloc => some .cuMemRelease
  | .module | .function | .context | .hostDevPtr => none

def freeResourceList (t : ResType) : List Resource → QueryM Unit
  | [] => pure ()
  | r :: rs => do
    match freeCall t with
    | some fn => if r.realPtr ≠ 0 then do let _ ← lib fn [r.realPtr] []; pure () else pure ()
    | none => pure ()
    freeResourceList t rs

def freeResourceLists (c : Context) : List ResType → QueryM Unit
  | [] => pure ()
  | t :: ts => do
    freeResourceList t (c.resources t)
    freeResourceLists c ts

/-- `hmcuda_ctx_destroy` -/
def ctxDestroy (c : Context) : CoreM Unit := do
  table (·.ctxUnlink c.key)
  query (freeResourceLists c ResType.all)

/-- `hmcuda_res_add` on the context of `k`. -/
def resAdd (k : Key) (t : ResType) (realPtr size : Nat) : CoreM Nat := ⟨fun _ s =>
  let r := s.tab.resAdd k t realPtr size
  (r.1, { s with tab := r.2 })⟩

def coreInit (k : Key) : CoreM Nat := do
  match (← Prog.get).tab.ctxGet k with
  | some c => ctxDestroy c
  | none => pure ()
  table (·.ctxCreate k)
  let res ← query (lib .cuInit [0] [])
  if res.code ≠ 0 then
    let _ ← query (lib .cuGetErrorString [res.code] [])
    return 3
  let err ← query (lib .cudaSetDevice [0] [])
  if err.code ≠ 0 then
    return err.code
  let err ← query (lib .cudaFree [0] [])
  if err.code ≠ 0 then
    let _ ← query (lib .cudaDeviceReset [] [])
    let err ← query (lib .cudaSetDevice [0] [])
    if err.code ≠ 0 then
      return err.code
    let err ← query (lib .cudaFree [0] [])
    return err.code
  return err.code

def coreMalloc (k : Key) (size : Nat) : CoreM (Nat × Option Nat) :=
  withCtxM k (999, none) fun _ => do
    let r ← query (lib .cudaMalloc [size] [])
    if r.code = 0 then
      table (·.resAddWithHandle k .mem (r.out 0) size (r.out 0))
      return (r.code, some (r.out 0))
    else
      return (r.code, some 0)

def coreFree (k : Key) (devPtr : Nat) : CoreM Nat :=
  withCtxM k 999 fun c => do
    let realPtr := c.resGet .mem devPtr
    if realPtr ≠ 0 then
      let err ← query (lib .cudaFree [realPtr] [])
      table (·.resRemove k .mem devPtr)
      return err.code
    else
      return 1

/-- The value an embedded word is replaced by, if it lies in a pinned buffer. -/
def patchedWord (c : Context) (v : Nat) : Option Nat :=
  (c.resFind .hostMem v).map (·.pointer .hostMem v)

/-- `hmcuda_buffer_needs_host_ptr_patch` -/
def bufferNeedsHostPtrPatch (c : Context) : List UInt8 → Bool
  | b₀ :: b₁ :: b₂ :: b₃ :: b₄ :: b₅ :: b₆ :: b₇ :: rest =>
    (patchedWord c (Bytes.val [b₀, b₁, b₂, b₃, b₄, b₅, b₆, b₇])).isSome ||
      bufferNeedsHostPtrPatch c rest
  | _ => false

/-- `hmcuda_patch_embedded_host_ptrs` -/
def patchEmbeddedHostPtrs (c : Context) : List UInt8 → List UInt8
  | b₀ :: b₁ :: b₂ :: b₃ :: b₄ :: b₅ :: b₆ :: b₇ :: rest =>
    let w := [b₀, b₁, b₂, b₃, b₄, b₅, b₆, b₇]
    (match patchedWord c (Bytes.val w) with
      | some v => Bytes.le 8 v
      | none => w) ++ patchEmbeddedHostPtrs c rest
  | rest => rest

/-- `hmcuda_core_memcpy`; `hostPtr` is `none` for NULL. -/
def coreMemcpy (k : Key) (dst src count kind : Nat) (hostPtr : Option (Space × Nat))
    (stream : Nat) : QueryM Nat :=
  withCtx k 3 fun c => do
    let s := resolveRuntimeStream c stream
    let realDst := c.resGet .mem dst
    let realSrc := c.resGet .mem src
    if kind = 1 then
      if realDst = 0 then return 1
      match hostPtr with
      | none => return 1
      | some hp =>
        let data ← load hp count
        if bufferNeedsHostPtrPatch c data then
          if ← alloc .malloc count then
            let tmp := (Space.heap (← Prog.get).clock, 0)
            store tmp (patchEmbeddedHostPtrs c data)
            let res ← copyAsync .cuMemcpyHtoDAsync (.uva, realDst) tmp count s
            if res = 0 then streamSync .cuStreamSynchronize s else return res
          else
            return 2
        else
          let res ← copyAsync .cuMemcpyHtoDAsync (.uva, realDst) hp count s
          if res = 0 then streamSync .cuStreamSynchronize s else return res
    else if kind = 2 then
      if realSrc = 0 then return 1
      match hostPtr with
      | none => return 1
      | some hp => copyAsync .cuMemcpyDtoHAsync hp (.uva, realSrc) count s
    else if kind = 3 then
      if realDst = 0 then return 1
      if realSrc = 0 then return 1
      copyAsync .cuMemcpyAsync (.uva, realDst) (.uva, realSrc) count s
    else
      return 1

/-- `hmcuda_core_runtime_memcpy_htod_vq` -/
def coreRuntimeMemcpyHtodVq (k : Key) (dst : Nat) (hostPtr : Space × Nat) (count stream : Nat) :
    QueryM Nat :=
  withCtx k 3 fun c =>
    let s := resolveRuntimeStream c stream
    let realDst := c.resGet .mem dst
    if realDst = 0 then return 1
    else copyAsync .cuMemcpyHtoDAsync (.uva, realDst) hostPtr count s

def coreMemset (k : Key) (devPtr value count : Nat) : QueryM Nat :=
  withCtx k 999 fun c => do
    let realPtr := c.resGet .mem devPtr
    if realPtr = 0 then return 1
    else return (← lib .cudaMemset [realPtr, value, count] []).code

def coreStreamCreate (k : Key) (flags : Nat) : CoreM (Nat × Option Nat) :=
  withCtxM k (999, none) fun _ => do
    let r ← query (lib .cudaStreamCreateWithFlags [flags] [])
    if r.code = 0 then
      let h ← resAdd k .stream (r.out 0) 0
      return (r.code, some h)
    else
      return (r.code, some 0)

def coreStreamSynchronize (k : Key) (stream : Nat) : QueryM Nat :=
  withCtx k 999 fun c => streamSync .cudaStreamSynchronize (resolveRuntimeStream c stream)

def coreEventCreate (k : Key) (flags : Nat) : CoreM (Nat × Option Nat) :=
  withCtxM k (999, none) fun _ => do
    let r ← query (lib .cudaEventCreateWithFlags [flags] [])
    if r.code = 0 then
      let h ← resAdd k .event (r.out 0) 0
      return (r.code, some h)
    else
      return (r.code, some 0)

def coreEventRecord (k : Key) (event stream : Nat) : QueryM Nat :=
  withCtx k 999 fun c => do
    return (← lib .cudaEventRecord [c.resGet .event event, resolveRuntimeStream c stream] []).code

def coreEventSynchronize (k : Key) (event : Nat) : QueryM Nat :=
  withCtx k 999 fun c => do return (← lib .cudaEventSynchronize [c.resGet .event event] []).code

/-- The elapsed time is an out-parameter CUDA writes only on success. -/
def coreEventElapsedTime (k : Key) (start stop : Nat) : QueryM (Nat × Option Nat) :=
  withCtx k (999, none) fun c => do
    let r ← lib .cudaEventElapsedTime [c.resGet .event start, c.resGet .event stop] []
    return (r.code, if r.code = 0 then some (r.out 0) else none)

def coreEventDestroy (k : Key) (event : Nat) : CoreM Nat :=
  withCtxM k 999 fun c => do
    let realEvent := c.resGet .event event
    if realEvent ≠ 0 then
      let err ← query (lib .cudaEventDestroy [realEvent] [])
      table (·.resRemove k .event event)
      return err.code
    else
      return 1

def coreDeviceSynchronize : QueryM Nat := do
  let err ← sync .cudaDeviceSynchronize [] fun _ => true
  if err ≠ 0 then
    let _ ← lib .cudaGetErrorString [err] []
    return err
  return err

def corePushCallConfiguration (k : Key) (grid block : List Nat) (sharedMem stream : Nat) :
    QueryM Nat :=
  withCtx k 999 fun c => do
    return (← lib .cudaPushCallConfiguration
      (grid ++ block ++ [sharedMem, resolveRuntimeStream c stream]) []).code

/-- The popped configuration: six dimensions, the shared memory, the stream handle. -/
def corePopCallConfiguration (k : Key) : QueryM (Nat × Option (List Nat)) :=
  withCtx k (999, none) fun c => do
    let r ← lib .cudaPopCallConfiguration [] []
    if r.code = 0 then
      let s := r.out 7
      let h := if s = 0 then 0 else if s = 1 then 1 else if s = 2 then 2
        else c.resGetHandle .stream s
      return (r.code, some ((List.range 7).map r.out ++ [h]))
    else
      return (r.code, none)

/-- `hmcuda_core_register_fatbin` on the bytes `cuModuleLoadData` reads. -/
def coreRegisterFatbin (k : Key) (image : List UInt8) : CoreM (Nat × Option Nat) :=
  withCtxM k (999, none) fun _ => do
    let r ← query (lib .cuModuleLoadData [] [image])
    if r.code ≠ 0 then
      let _ ← query (lib .cuGetErrorString [r.code] [])
      return (3, none)
    let h ← resAdd k .module (r.out 0) 0
    return (0, some h)

/-- `hmcuda_core_register_function` once the module is resolved. -/
def coreRegisterFunction (k : Key) (module hostFun : Nat) (name : List UInt8) : CoreM Nat := do
  let r ← query (lib .cuModuleGetFunction [module] [name])
  if r.code ≠ 0 then
    let _ ← query (lib .cuGetErrorString [r.code] [])
    return 1
  table (·.resAddWithHandle k .function (r.out 0) 0 hostFun)
  return 0

def coreInitModule (k : Key) (fatbin : Nat) : QueryM Nat :=
  withCtx k 999 fun c => if c.resGet .module fatbin = 0 then return 1 else return 0

/-- The members of `deviceProp` that CUDA 13 no longer has: the clock rates, the overlap,
timeout and compute-mode flags, the linear 1D texture, and two launch properties. -/
def gatedProps : List Nat := [16, 22, 24, 27, 30, 77, 91, 97]

/-- The members of `cudaDeviceProp` on success, in the order of `deviceProp`; the
reserved words at the end, from 117 on, are not copied. -/
def coreGetDeviceProperties (device : Nat) : QueryM (Nat × Option (List Nat)) := do
  let r ← lib .cudaGetDeviceProperties [device] []
  if r.code ≠ 0 then
    let _ ← lib .cudaGetErrorString [r.code] []
    return (r.code, none)
  let old := (← Prog.ask).env.cudartVersion < 13000
  return (0, some ((List.range 180).map fun i =>
    if i < 117 ∧ (old ∨ i ∉ gatedProps) then r.out i else 0))

/-- A runtime query that passes CUDA's answer on, logging the error text. -/
def rtQuery (fn : LibFn) (args : List Nat) : QueryM LibRet := do
  let r ← lib fn args []
  if r.code ≠ 0 then
    let _ ← lib .cudaGetErrorString [r.code] []
    return r
  return r

def coreGetDeviceCount : QueryM LibRet := rtQuery .cudaGetDeviceCount []

def coreSetDevice (device : Nat) : QueryM LibRet := rtQuery .cudaSetDevice [device]

def coreRuntimeGetVersion : QueryM LibRet := rtQuery .cudaRuntimeGetVersion []

def coreGetErrorString (error : Nat) : QueryM LibRet := lib .cudaGetErrorString [error] []

def coreGetErrorName (error : Nat) : QueryM LibRet := lib .cudaGetErrorName [error] []

/-- One attribute query for each of the 16 members, 0 where CUDA refuses. -/
def funcAttributes (func : Nat) : List Nat → QueryM (List Nat)
  | [] => pure []
  | a :: as => do
    let r ← lib .cuFuncGetAttribute [a, func] []
    let rest ← funcAttributes func as
    return (if r.code = 0 then r.out 0 else 0) :: rest

/-- `hmcuda_core_func_get_attributes` -/
def coreFuncGetAttributes (k : Key) (func : Nat) : QueryM (Nat × Option (List Nat)) :=
  withCtx k (999, none) fun c =>
    let realFunc := c.resGet .function func
    if realFunc = 0 then return (98, none)
    else do
      let vs ← funcAttributes realFunc [1, 2, 3, 0, 4, 5, 6, 7, 8, 9, 10, 11, 12, 13, 15, 14]
      return (0, some vs)

end HmCuda
