import HmCuda.Guest.Requests
import HmCuda.Guest.Transport
import Mathlib.Logic.Function.Basic

/-! A guest process: what the intercept libraries keep between the calls of the
application, and the calls themselves (hmcuda_transport.cpp, hmcuda_driver.cpp,
hmcuda_runtime.cpp). The two libraries share one transport. -/

namespace HmCuda
open Layout

structure HostMemEntry where
  size : Nat
  gpuDirty : Bool
  deriving DecidableEq, Repr

structure FuncInfo where
  handle : Nat
  paramCount : Nat
  deriving DecidableEq, Repr

/-- What the process meets at the `n`-th request it hands to the transport. -/
structure GuestEnv where
  drv : Nat → DrvEnv
  /-- What the transport's buffer held. -/
  stack : Nat → Nat → UInt8
  /-- What a request structure held that is not initialised. -/
  left : Nat → Nat → UInt8
  /-- `HMCUDA_TRANSPORT=rpc` -/
  rpc : Bool
  opens : Nat → Bool

structure Sending where
  cmd : Cmd
  req : List UInt8
  deriving DecidableEq, Repr

/-- `hostMem` is `g_host_mem_map`, `deviceHandles` is `g_device_handles` and `funcs` is
`g_func_map`; `sent` is history. -/
structure GuestSt where
  drv : DrvSt
  transport : Transport
  hostMem : Nat → Option HostMemEntry
  deviceHandles : Nat → Bool
  funcs : Nat → Option FuncInfo
  sent : List Sending

def GuestSt.start (drv : DrvSt) : GuestSt :=
  ⟨drv, ⟨false, false⟩, fun _ => none, fun _ => false, fun _ => none, []⟩

abbrev GuestM := Prog GuestEnv GuestSt

/-- `hmcuda_transport_init` -/
def transportInit : GuestM Unit := ⟨fun e s =>
  ((), { s with transport :=
    if e.rpc then { s.transport with rpc := true }
    else { s.transport with opened := s.transport.opened || e.opens s.sent.length } })⟩

/-- `hmcuda_transport_dispatch`, and `hmcuda_dispatch` of the runtime library. -/
def dispatch (cmd : Cmd) (req : List UInt8) (respLen : Nat) : GuestM Dispatched := ⟨fun e s =>
  let n := s.sent.length
  let r := (transportDispatch s.transport (e.stack n) cmd.code req respLen).run (e.drv n) s.drv
  (r.1, { s with drv := r.2, sent := s.sent ++ [Sending.mk cmd req] })⟩

/-- `hmcuda_drv_dispatch` -/
def drvDispatch (cmd : Cmd) (req : List UInt8) (respLen : Nat) : GuestM Dispatched := do
  let s ← Prog.get
  if ¬(s.transport.opened ∨ s.transport.rpc) then
    transportInit
  dispatch cmd req respLen

/-- A call's return value, `none` if it never returns, and what it stored. -/
structure Returned where
  ret : Option Nat
  out : Option Nat
  deriving DecidableEq, Repr

def request (s : CStruct) (vals : List Nat) : List UInt8 := encode s (fun _ => 0) vals

def respWord (s : CStruct) (r : Dispatched) : Nat :=
  (field s 0).get fun a => (r.resp.getD []).getD a 0

/-! The registry of pinned buffers -/

def hostMemRegister (va size : Nat) : GuestM Unit := Prog.modify fun s =>
  { s with hostMem := Function.update s.hostMem va (some ⟨size, false⟩) }

def hostMemUnregister (va : Nat) : GuestM Unit := Prog.modify fun s =>
  { s with hostMem := Function.update s.hostMem va none }

/-- `hmcuda_transport_host_mem_size` -/
def GuestSt.hostMemSize (s : GuestSt) (va : Nat) : Nat := ((s.hostMem va).map (·.size)).getD 0

def GuestSt.isGpuDirty (s : GuestSt) (va : Nat) : Bool :=
  ((s.hostMem va).map (·.gpuDirty)).getD false

/-- `hmcuda_transport_mark_gpu_dirty` and `hmcuda_transport_clear_gpu_dirty` -/
def setGpuDirty (dirty : Bool) (va : Nat) : GuestM Unit := Prog.modify fun s =>
  let entry := (s.hostMem va).map fun x => { x with gpuDirty := dirty }
  { s with hostMem := Function.update s.hostMem va entry }

def markGpuDirty : Nat → GuestM Unit := setGpuDirty true

def clearGpuDirty : Nat → GuestM Unit := setGpuDirty false

/-- `hmcuda_transport_sync_host_mem_arg`: the result of the push is dropped, and the
request leaves its last members uninitialised. -/
def syncHostMemArg (ptr : Nat) : GuestM (Option Unit) := do
  let s ← Prog.get
  match s.hostMem ptr with
  | none => return some ()
  | some x =>
    if x.gpuDirty then return some ()
    else
      let left := (← Prog.ask).left s.sent.length
      let r ← dispatch (.drv .cuMemcpy) (encode memcpyReq left [ptr, ptr, x.size, 1]) 0
      return r.ret.map fun _ => ()

/-! Calls of the driver library -/

/-- `cuMemAlloc`; `dptr` is not NULL. -/
def cuMemAlloc (dptr : Bool) (bytesize : Nat) : GuestM Returned := do
  let r ← drvDispatch (.drv .cuMemAlloc) (request cuMemAllocReq [bytesize]) (sizeof cuMemAllocResp)
  if r.ret = some 0 ∧ dptr then
    let h := respWord cuMemAllocResp r
    Prog.modify fun s => { s with deviceHandles := Function.update s.deviceHandles h true }
    return ⟨some 0, some h⟩
  else
    return ⟨r.ret, none⟩

def cuMemFree (dptr : Nat) : GuestM Returned := do
  Prog.modify fun s => { s with deviceHandles := Function.update s.deviceHandles dptr false }
  return ⟨(← drvDispatch (.drv .cuMemFree) (request cuMemFreeReq [dptr]) 0).ret, none⟩

def cuMemAddressReserve (ptr : Bool) (size alignment addr flags : Nat) : GuestM Returned := do
  let r ← drvDispatch (.drv .cuMemAddressReserve)
    (request cuMemAddressReserveReq [size, alignment, addr, flags]) (sizeof cuMemAddressReserveResp)
  if r.ret = some 0 ∧ ptr then
    let h := respWord cuMemAddressReserveResp r
    Prog.modify fun s => { s with deviceHandles := Function.update s.deviceHandles h true }
    return ⟨some 0, some h⟩
  else
    return ⟨r.ret, none⟩

def cuMemAddressFree (ptr size : Nat) : GuestM Returned := do
  Prog.modify fun s => { s with deviceHandles := Function.update s.deviceHandles ptr false }
  return ⟨(← drvDispatch (.drv .cuMemAddressFree) (request cuMemAddressFreeReq [ptr, size]) 0).ret,
    none⟩

/-- `cuMemHostAlloc` with a `pp` that is not NULL, and what `malloc` returns. -/
def cuMemHostAlloc (malloc : Option Nat) (bytesize flags : Nat) : GuestM Returned := do
  match malloc with
  | none => return ⟨some 2, none⟩
  | some guestVa =>
    let r ← drvDispatch (.drv .cuMemHostAlloc)
      (request cuMemHostAllocReq [bytesize, flags, guestVa, 0]) 0
    if r.ret = some 0 then
      hostMemRegister guestVa bytesize
      return ⟨some 0, some guestVa⟩
    else
      return ⟨r.ret, none⟩

def cuMemFreeHost (p : Nat) : GuestM Returned := do
  if (← Prog.get).hostMemSize p = 0 then return ⟨some 1, none⟩
  else
    hostMemUnregister p
    return ⟨(← drvDispatch (.drv .cuMemFreeHost) (request cuMemFreeHostReq [p]) 0).ret, none⟩

/-- A `hmcuda_memcpy_req` with every member given. -/
def memcpyRequest (dst src count kind stream : Nat) : List UInt8 :=
  request memcpyReq [dst, src, count, kind, 0, stream]

/-- The routes of the driver library for copies with a host range. -/
def sendCuMemcpy (dst src count kind stream : Nat) : GuestM (Option Nat) := do
  return (← drvDispatch (.drv .cuMemcpy) (memcpyRequest dst src count kind stream) 0).ret

def syncDirtyHostSrcToGuest (hostPtr bytesize stream : Nat) : GuestM (Option Nat) := do
  let r ← sendCuMemcpy hostPtr hostPtr bytesize 2 stream
  if r = some 0 then
    clearGpuDirty hostPtr
  return r

/-- Brings the guest's copy of a dirty source up to date, as far as it is copied; the
result is what the copy returns early, if it does. -/
def pullDirty (src byteCount stream : Nat) : GuestM (Option (Option Nat)) := do
  if (← Prog.get).isGpuDirty src then
    let r ← syncDirtyHostSrcToGuest src byteCount stream
    return if r = some 0 then none else some r
  else
    return none

def cuMemcpyAsync (dst src byteCount stream : Nat) : GuestM (Option Nat) := do
  let s ← Prog.get
  if ¬s.deviceHandles src ∧ s.deviceHandles dst then
    match ← pullDirty src byteCount stream with
    | some r => return r
    | none => sendCuMemcpy dst src byteCount 1 stream
  else if s.deviceHandles src ∧ ¬s.deviceHandles dst then
    let r ← sendCuMemcpy dst src byteCount 2 stream
    if r.isSome then
      clearGpuDirty dst
    return r
  else
    return (← drvDispatch (.drv .cuMemcpyAsync)
      (request cuMemcpyAsyncReq [dst, src, byteCount, stream]) 0).ret

def cuMemcpyHtoD (dstDevice srcHost byteCount : Nat) : GuestM (Option Nat) := do
  match ← pullDirty srcHost byteCount 0 with
  | some r => return r
  | none => sendCuMemcpy dstDevice srcHost byteCount 1 0

def cuMemcpyDtoH (dstHost srcDevice byteCount : Nat) : GuestM (Option Nat) := do
  let r ← sendCuMemcpy dstHost srcDevice byteCount 2 0
  if r.isSome then
    clearGpuDirty dstHost
  return r

/-- `cuMemcpy` -/
def cuMemcpy (dst src byteCount : Nat) : GuestM (Option Nat) := cuMemcpyAsync dst src byteCount 0

/-! Calls of the runtime library -/

/-- `cudaMalloc`; `devPtr` is not NULL. -/
def cudaMalloc (devPtr : Bool) (size : Nat) : GuestM Returned := do
  let r ← dispatch (.rt .malloc) (request mallocReq [size]) (sizeof mallocResp)
  return ⟨r.ret, if r.ret = some 0 ∧ devPtr then some (respWord mallocResp r) else none⟩

def cudaFree (devPtr : Nat) : GuestM Returned := do
  return ⟨(← dispatch (.rt .free) (request freeReq [devPtr]) 0).ret, none⟩

def cudaMemcpy (dst src count kind : Nat) : GuestM (Option Nat) := do
  return (← dispatch (.rt .memcpy) (memcpyRequest dst src count kind 0) 0).ret

/-- The loop over the arguments of a launch, up to one that never returns. -/
def syncArgs : List Nat → GuestM (Option Unit)
  | [] => return some ()
  | ptr :: ptrs => do
    match ← syncHostMemArg ptr with
    | none => return none
    | some () => syncArgs ptrs

/-- `cudaLaunchKernel`; `args` is the bytes at each `args[i]`, unless it is NULL. -/
def cudaLaunchKernel (func : Nat) (gridDim blockDim : Nat × Nat × Nat)
    (args : Option (Nat → Nat → UInt8)) (sharedMem stream : Nat) : GuestM (Option Nat) := do
  match (← Prog.get).funcs func with
  | none => return some 98
  | some fi =>
    let req := VarReq.launchKernel fi.handle gridDim blockDim sharedMem stream fi.paramCount args
    let ptrs := if args.isSome then
      (List.range fi.paramCount).map fun i => Bytes.val (argWord args i) else []
    match ← syncArgs ptrs with
    | none => return none
    | some () =>
      let r ← dispatch req.cmd.cmd (req.payload fun _ => 0) req.respLen
      if r.ret.isSome then
        Prog.forEach markGpuDirty ptrs
      return r.ret

/-- `__cudaRegisterFunction`; the demangled name gives the parameter count. -/
def cudaRegisterFunction (fatbinHandle hostFun : Nat) (deviceFun : List UInt8)
    (paramCount : Nat) : GuestM (Option Nat) := do
  let req := VarReq.registerFunction fatbinHandle hostFun deviceFun
  let left := (← Prog.ask).left (← Prog.get).sent.length
  let r ← dispatch req.cmd.cmd (req.payload left) req.respLen
  if r.ret.isSome then
    Prog.modify fun s => { s with
      funcs := Function.update s.funcs hostFun (some ⟨hostFun, paramCount⟩) }
  return r.ret

/-- A call of the application. The functions that only pass a request on and a response
back are `forward`, of the driver library or the runtime library. -/
inductive GuestCall where
  | cuMemAlloc (dptr : Bool) (bytesize : Nat)
  | cuMemFree (dptr : Nat)
  | cuMemAddressReserve (ptr : Bool) (size alignment addr flags : Nat)
  | cuMemAddressFree (ptr size : Nat)
  | cuMemHostAlloc (malloc : Option Nat) (bytesize flags : Nat)
  | cuMemFreeHost (p : Nat)
  | cuMemcpyAsync (dst src byteCount stream : Nat)
  | cuMemcpyHtoD (dstDevice srcHost byteCount : Nat)
  | cuMemcpyDtoH (dstHost srcDevice byteCount : Nat)
  | cudaMalloc (devPtr : Bool) (size : Nat)
  | cudaFree (devPtr : Nat)
  | cudaMemcpy (dst src count kind : Nat)
  | cudaLaunchKernel (func : Nat) (gridDim blockDim : Nat × Nat × Nat)
      (args : Option (Nat → Nat → UInt8)) (sharedMem stream : Nat)
  | cudaRegisterFunction (fatbinHandle hostFun : Nat) (deviceFun : List UInt8) (paramCount : Nat)
  | forward (drv : Bool) (cmd : Cmd) (req : List UInt8) (respLen : Nat)

def GuestCall.run : GuestCall → GuestM Returned
  | cuMemAlloc dptr bytesize => HmCuda.cuMemAlloc dptr bytesize
  | cuMemFree dptr => HmCuda.cuMemFree dptr
  | cuMemAddressReserve ptr size alignment addr flags =>
    HmCuda.cuMemAddressReserve ptr size alignment addr flags
  | cuMemAddressFree ptr size => HmCuda.cuMemAddressFree ptr size
  | cuMemHostAlloc malloc bytesize flags => HmCuda.cuMemHostAlloc malloc bytesize flags
  | cuMemFreeHost p => HmCuda.cuMemFreeHost p
  | cuMemcpyAsync dst src byteCount stream =>
    (Returned.mk · none) <$> HmCuda.cuMemcpyAsync dst src byteCount stream
  | cuMemcpyHtoD dstDevice srcHost byteCount =>
    (Returned.mk · none) <$> HmCuda.cuMemcpyHtoD dstDevice srcHost byteCount
  | cuMemcpyDtoH dstHost srcDevice byteCount =>
    (Returned.mk · none) <$> HmCuda.cuMemcpyDtoH dstHost srcDevice byteCount
  | cudaMalloc devPtr size => HmCuda.cudaMalloc devPtr size
  | cudaFree devPtr => HmCuda.cudaFree devPtr
  | cudaMemcpy dst src count kind => (Returned.mk · none) <$> HmCuda.cudaMemcpy dst src count kind
  | cudaLaunchKernel func gridDim blockDim args sharedMem stream =>
    (Returned.mk · none) <$> HmCuda.cudaLaunchKernel func gridDim blockDim args sharedMem stream
  | cudaRegisterFunction fatbinHandle hostFun deviceFun paramCount =>
    (Returned.mk · none) <$> HmCuda.cudaRegisterFunction fatbinHandle hostFun deviceFun paramCount
  | forward drv cmd req respLen => do
    let r ← if drv then drvDispatch cmd req respLen else dispatch cmd req respLen
    return ⟨r.ret, none⟩

/-- A run of a process: the calls so far with their results, the last one first. A call
that does not return is the last one. -/
inductive GuestRun (e : GuestEnv) (drv : DrvSt) : List (GuestCall × Returned) → GuestSt → Prop
  | start : GuestRun e drv [] (.start drv)
  | call {tr : List (GuestCall × Returned)} {s : GuestSt} (c : GuestCall)
      (h : GuestRun e drv tr s) (returned : ∀ x ∈ tr, x.2.ret.isSome) :
      GuestRun e drv ((c, (c.run.run e s).1) :: tr) (c.run.run e s).2

end HmCuda
