import HmCuda.General.AsyncCopy
import HmCuda.General.Prog
import HmCuda.Host.Resource

/-! The backend process: its tables, the memory it shares with the guest and with
the device, and the library functions it calls. What those functions answer, and
when the DMA engine moves an enqueued copy, is the environment's choice. -/

namespace HmCuda
open AsyncCopy

/-- Guest pages by physical address, the request and response buffers of an ioctl
caller, the backend's unified virtual addresses, and its temporary buffers. -/
inductive Space where
  | ram
  | req (caller : Nat)
  | resp (caller : Nat)
  | uva
  | heap (id : Nat)
  deriving DecidableEq, Repr

structure Iov where
  sp : Space
  base : Nat
  len : Nat
  deriving DecidableEq, Repr

structure Elem where
  outSg : List Iov
  inSg : List Iov
  deriving DecidableEq, Repr

/-- The length of the descriptor that carries the request structure. -/
def Elem.reqLen (e : Elem) : Nat := (e.outSg.head?.map (·.len)).getD 0

inductive LibFn where
  | malloc | calloc
  | cuInit | cuDriverGetVersion | cuDeviceGet | cuDeviceGetCount | cuDeviceGetName
  | cuDeviceGetAttribute | cuDeviceGetUuid | cuDeviceCanAccessPeer
  | cuDevicePrimaryCtxRetain | cuDevicePrimaryCtxRelease | cuMemHostRegister
  | cuCtxSetCurrent | cuCtxGetDevice | cuCtxEnablePeerAccess
  | cuStreamCreate | cuStreamDestroy | cuStreamSynchronize | cuStreamQuery
  | cuStreamWaitEvent | cuStreamGetCtx
  | cuEventCreate | cuEventDestroy | cuEventRecord | cuEventElapsedTime
  | cuMemAlloc | cuMemFree | cuMemHostAlloc | cuMemHostGetDevicePointer | cuMemFreeHost
  | cuMemsetD32 | cuMemcpyAsync | cuMemcpyHtoD | cuMemcpyHtoDAsync | cuMemcpyDtoHAsync
  | cuPointerGetAttribute | cuGetErrorString | cuGetErrorName
  | cuMemCreate | cuMemRelease | cuMemMap | cuMemUnmap | cuMemAddressReserve
  | cuMemAddressFree | cuMemSetAccess | cuMemExportToShareableHandle
  | cuMemImportFromShareableHandle | cuMemGetAllocationGranularity
  | cuMulticastCreate | cuMulticastGetGranularity | cuMulticastAddDevice
  | cuMulticastBindMem | cuMulticastUnbind
  | cuModuleLoadData | cuModuleGetFunction | cuLaunchKernel | cuFuncGetAttribute
  | cudaMalloc | cudaFree | cudaMemset | cudaDeviceReset | cudaSetDevice
  | cudaStreamCreateWithFlags | cudaStreamSynchronize | cudaStreamDestroy
  | cudaEventCreateWithFlags | cudaEventRecord | cudaEventSynchronize
  | cudaEventElapsedTime | cudaEventDestroy | cudaDeviceSynchronize
  | cudaPushCallConfiguration | cudaPopCallConfiguration
  | cudaGetDeviceProperties | cudaGetDeviceCount | cudaGetErrorString | cudaGetErrorName
  | cudaRuntimeGetVersion
  deriving DecidableEq, Repr

structure LibCall where
  fn : LibFn
  args : List Nat
  data : List (List UInt8)
  deriving DecidableEq, Repr

/-- The result code (0 is success), the out-parameters, and a returned string. -/
structure LibRet where
  code : Nat
  outs : List Nat
  str : Option (List UInt8)

def LibRet.out (r : LibRet) (i : Nat) : Nat := r.outs.getD i 0

def LibRet.ok : LibRet := ⟨0, [], none⟩

/-- Bytes past an allocation; a string read that starts anywhere ends somewhere. -/
structure Heap where
  byte : Nat → UInt8
  nul : ∀ n, ∃ m, n ≤ m ∧ byte m = 0

/-- Everything the backend's own code does not decide, indexed by its call count. -/
structure Env where
  ret : Nat → LibCall → LibRet
  /-- The pending copies the DMA engine finishes after a call. -/
  dma : Nat → List Nat
  /-- What a kernel, a memset or another call does to the unified address space. -/
  effect : Nat → LibCall → (Nat → UInt8) → (Nat → UInt8)
  /-- What an uninitialised stack object holds. -/
  stale : Nat → Nat → UInt8
  heap : Heap
  /-- How much of an image `cuModuleLoadData` reads. -/
  imageLen : (Nat → UInt8) → Nat
  /-- The parameter sizes of a loaded kernel. -/
  paramSizes : Nat → List Nat
  /-- `vu_gpa_to_va`: the pointer and how many bytes are contiguous there. -/
  gpaToVa : Nat → Nat → Option ((Space × Nat) × Nat)
  /-- The guest memory regions: mapped address and size. -/
  regions : List (Nat × Nat)
  cudartVersion : Nat

/-- Every call succeeds with zeros, and no copy moves before a synchronize. -/
def Env.quiet : Env where
  ret _ _ := .ok
  dma _ := []
  effect _ _ m := m
  stale _ _ := 0
  heap := ⟨fun _ => 0, fun n => ⟨n, le_rfl, rfl⟩⟩
  imageLen _ := 0
  paramSizes _ := []
  gpaToVa _ _ := none
  regions := []
  cudartVersion := 12000

/-- A CPU copy to or from a pinned buffer: the entry, the offset and the length. -/
structure HostCopy where
  entry : Resource
  off : Nat
  len : Nat
  deriving DecidableEq, Repr

def HostCopy.inside (c : HostCopy) : Prop := c.off + c.len ≤ c.entry.size

instance (c : HostCopy) : Decidable c.inside := inferInstanceAs (Decidable (_ ≤ _))

/-- The backend's state apart from its tables. `copies` is history. -/
structure Device where
  eng : Engine Space
  clock : Nat
  calls : List LibCall
  copies : List HostCopy
  /-- `g_guest_mem_registered` -/
  registered : Bool

structure Machine where
  tab : Tables
  dev : Device

def Machine.start (mem : ByteMem Space) : Machine where
  tab := .start
  dev := ⟨⟨mem, []⟩, 0, [], [], false⟩

structure QEnv where
  env : Env
  tab : Tables

abbrev QueryM := Prog QEnv Device

abbrev CoreM := Prog Env Machine

def query {α : Type} (m : QueryM α) : CoreM α := ⟨fun e s =>
  let r := m.run ⟨e, s.tab⟩ s.dev
  (r.1, { s with dev := r.2 })⟩

def table (f : Tables → Tables) : CoreM Unit := Prog.modify fun s => { s with tab := f s.tab }

section Query
variable {α : Type} (m : QueryM α) (e : Env) (s : Machine)

@[simp] theorem query_fst : ((query m).run e s).1 = (m.run ⟨e, s.tab⟩ s.dev).1 := by rfl
@[simp] theorem query_tab : ((query m).run e s).2.tab = s.tab := by rfl
@[simp] theorem query_dev : ((query m).run e s).2.dev = (m.run ⟨e, s.tab⟩ s.dev).2 := by rfl
@[simp] theorem table_dev (f : Tables → Tables) : ((table f).run e s).2.dev = s.dev := by rfl
@[simp] theorem table_tab (f : Tables → Tables) : ((table f).run e s).2.tab = f s.tab := by rfl

end Query

namespace Device

/-- One library call happens: it is recorded and the DMA engine makes progress. -/
def step (d : Device) (env : Env) (c : LibCall) (g : Engine Space) : Device :=
  { d with eng := g.finishMany (env.dma d.clock), clock := d.clock + 1, calls := d.calls ++ [c] }

section Step
variable (d : Device) (env : Env) (c : LibCall) (g : Engine Space)

@[simp] theorem step_eng : (d.step env c g).eng = g.finishMany (env.dma d.clock) := by rfl
@[simp] theorem step_clock : (d.step env c g).clock = d.clock + 1 := by rfl
@[simp] theorem step_calls : (d.step env c g).calls = d.calls ++ [c] := by rfl
@[simp] theorem step_copies : (d.step env c g).copies = d.copies := by rfl

end Step
end Device

/-- A library call that may change the unified address space but enqueues nothing. -/
def lib (fn : LibFn) (args : List Nat) (data : List (List UInt8)) : QueryM LibRet := ⟨fun q d =>
  let c : LibCall := ⟨fn, args, data⟩
  let mem := Function.update d.eng.mem .uva (q.env.effect d.clock c (d.eng.mem .uva))
  (q.env.ret d.clock c, d.step q.env c { d.eng with mem := mem })⟩

/-- An asynchronous copy: on success it is enqueued on the stream. -/
def copyAsync (fn : LibFn) (dst src : Space × Nat) (len stream : Nat) : QueryM Nat := ⟨fun q d =>
  let c : LibCall := ⟨fn, [dst.2, src.2, len, stream], []⟩
  let code := (q.env.ret d.clock c).code
  (code, d.step q.env c (if code = 0 then d.eng.submit ⟨dst, src, len, stream⟩ else d.eng))⟩

/-- A synchronize: on success every copy of the streams it waits for has moved. -/
def sync (fn : LibFn) (args : List Nat) (waits : Nat → Bool) : QueryM Nat := ⟨fun q d =>
  let c : LibCall := ⟨fn, args, []⟩
  let code := (q.env.ret d.clock c).code
  (code, d.step q.env c (if code = 0 then d.eng.drain waits else d.eng))⟩

def streamSync (fn : LibFn) (stream : Nat) : QueryM Nat := sync fn [stream] (· = stream)

/-- A copy that has moved its bytes when the call returns. -/
def copyNow (fn : LibFn) (dst src : Space × Nat) (len : Nat) : QueryM Nat := ⟨fun q d =>
  let c : LibCall := ⟨fn, [dst.2, src.2, len], []⟩
  let code := (q.env.ret d.clock c).code
  let mem := if code = 0 then (Copy.mk dst src len 0).run d.eng.mem else d.eng.mem
  (code, d.step q.env c { d.eng with mem := mem })⟩

/-- `malloc` or `calloc`; a non-zero code is the NULL pointer. -/
def alloc (fn : LibFn) (size : Nat) : QueryM Bool := do
  return (← lib fn [size] []).code = 0

def store (dst : Space × Nat) (bs : List UInt8) : QueryM Unit :=
  Prog.modify fun d => { d with eng := { d.eng with mem := d.eng.mem.write dst.1 dst.2 bs } }

def load (src : Space × Nat) (len : Nat) : QueryM (List UInt8) := do
  return (← Prog.get).eng.mem.read src.1 src.2 len

def logCopy (c : HostCopy) : QueryM Unit :=
  Prog.modify fun d => { d with copies := d.copies ++ [c] }

def idle : QueryM Unit := ⟨fun q d =>
  ((), { d with eng := d.eng.finishMany (q.env.dma d.clock), clock := d.clock + 1 })⟩

section Calls
variable (q : QEnv) (d : Device)

theorem lib_run (fn : LibFn) (args : List Nat) (data : List (List UInt8)) :
    (lib fn args data).run q d = (q.env.ret d.clock ⟨fn, args, data⟩,
      d.step q.env ⟨fn, args, data⟩ ⟨Function.update d.eng.mem .uva
        (q.env.effect d.clock ⟨fn, args, data⟩ (d.eng.mem .uva)), d.eng.pending⟩) := by rfl

theorem sync_run (fn : LibFn) (args : List Nat) (waits : Nat → Bool) :
    (sync fn args waits).run q d = ((q.env.ret d.clock ⟨fn, args, []⟩).code,
      d.step q.env ⟨fn, args, []⟩ (if (q.env.ret d.clock ⟨fn, args, []⟩).code = 0
        then d.eng.drain waits else d.eng)) := by rfl

@[simp] theorem load_run (src : Space × Nat) (len : Nat) :
    (load src len).run q d = (d.eng.mem.read src.1 src.2 len, d) := by rfl

@[simp] theorem store_run (dst : Space × Nat) (bs : List UInt8) : (store dst bs).run q d =
    ((), { d with eng := { d.eng with mem := d.eng.mem.write dst.1 dst.2 bs } }) := by rfl

@[simp] theorem logCopy_run (c : HostCopy) :
    (logCopy c).run q d = ((), { d with copies := d.copies ++ [c] }) := by rfl

theorem idle_run : idle.run q d = ((), { d with
    eng := d.eng.finishMany (q.env.dma d.clock), clock := d.clock + 1 }) := by rfl

end Calls

/-- The body of a function that starts with `hmcuda_ctx_get`. -/
def withCtx {α : Type} (k : Key) (missing : α) (f : Context → QueryM α) : QueryM α := ⟨fun q d =>
  match q.tab.ctxGet k with
  | none => (missing, d)
  | some c => (f c).run q d⟩

def withCtxM {α : Type} (k : Key) (missing : α) (f : Context → CoreM α) : CoreM α := ⟨fun e s =>
  match s.tab.ctxGet k with
  | none => (missing, s)
  | some c => (f c).run e s⟩

end HmCuda
