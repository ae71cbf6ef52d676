import HmCuda.System.FatbinImage

/-! The runtime library as one thread calls it, with what each call leaves in the thread's
`g_last_error` (hmcuda_runtime.cpp). -/

namespace HmCuda
open Layout

/-- The process, which other threads work on too, and `g_last_error`. -/
structure ThreadSt where
  proc : GuestSt
  lastError : Nat

abbrev ThreadM := Prog GuestEnv ThreadSt

/-- What a call gives back: an error code, with the response it is unpacked from; a string;
a pointer to a handle, or NULL; or nothing. -/
inductive Outcome where
  | code (err : Nat) (resp : Option (List UInt8))
  | text (bytes : List UInt8)
  | pointer (handle : Option Nat)
  | void
  deriving DecidableEq, Repr

def Outcome.err : Outcome → Nat
  | code err _ => err
  | _ => 0

def inProc {α : Type} (m : GuestM α) : ThreadM α :=
  ⟨fun e s => ((m.run e s.proc).1, { s with proc := (m.run e s.proc).2 })⟩

/-- `g_last_error = err`, of a call that returns. -/
def record (err : Option Nat) : ThreadM Unit := Prog.modify fun s =>
  { s with lastError := err.getD s.lastError }

/-- `hmcuda_dispatch` -/
def hmcudaDispatch (cmd : Cmd) (req : List UInt8) (respLen : Nat) : ThreadM Dispatched := do
  let r ← inProc (dispatch cmd req respLen)
  record r.ret
  return r

/-- `hmcuda_runtime_init` -/
def hmcudaRuntimeInit : ThreadM (Option Nat) := do
  inProc transportInit
  return (← hmcudaDispatch (.rt .init) [] 0).ret

/-- The functions that pass a request on and return what `hmcuda_dispatch` does. -/
inductive RtForward where
  | cudaMalloc (size : Nat)
  | cudaFree (devPtr : Nat)
  | cudaMemcpy (dst src count kind : Nat)
  | cudaMemset (devPtr value count : Nat)
  | cudaStreamCreate
  | cudaStreamSynchronize (stream : Nat)
  | cudaEventCreate
  | cudaEventRecord (event stream : Nat)
  | cudaEventSynchronize (event : Nat)
  | cudaEventElapsedTime (start stop : Nat)
  | cudaEventDestroy (event : Nat)
  | cudaSetDevice (device : Nat)
  | cudaDeviceSynchronize
  | cudaGetDeviceCount
  /-- Also `cudaGetDeviceProperties_v2`. -/
  | cudaGetDeviceProperties (device : Nat)
  | cudaRuntimeGetVersion
  | cudaPushCallConfiguration (gridDim blockDim : Nat × Nat × Nat) (sharedMem stream : Nat)
  | cudaPopCallConfiguration
  deriving DecidableEq, Repr

namespace RtForward

def cmd : RtForward → RtCmd
  | cudaMalloc _ => .malloc
  | cudaFree _ => .free
  | cudaMemcpy .. => .memcpy
  | cudaMemset .. => .memset
  | cudaStreamCreate => .streamCreate
  | cudaStreamSynchronize _ => .streamSynchronize
  | cudaEventCreate => .eventCreate
  | cudaEventRecord .. => .eventRecord
  | cudaEventSynchronize _ => .eventSynchronize
  | cudaEventElapsedTime .. => .eventElapsedTime
  | cudaEventDestroy _ => .eventDestroy
  | cudaSetDevice _ => .setDevice
  | cudaDeviceSynchronize => .deviceSynchronize
  | cudaGetDeviceCount => .getDeviceCount
  | cudaGetDeviceProperties _ => .getDeviceProperties
  | cudaRuntimeGetVersion => .runtimeGetVersion
  | cudaPushCallConfiguration .. => .pushCallConfiguration
  | cudaPopCallConfiguration => .popCallConfiguration

def req : RtForward → List UInt8
  | cudaMalloc size => request mallocReq [size]
  | cudaFree devPtr => request freeReq [devPtr]
  | cudaMemcpy dst src count kind => memcpyRequest dst src count kind 0
  | cudaMemset devPtr value count => request memsetReq [devPtr, value, count]
  | cudaStreamCreate => request streamCreateReq [0]
  | cudaStreamSynchronize stream => request streamSynchronizeReq [stream]
  | cudaEventCreate => request eventCreateReq [0]
  | cudaEventRecord event stream => request eventRecordReq [event, stream]
  | cudaEventSynchronize event => request eventSynchronizeReq [event]
  | cudaEventElapsedTime start stop => request eventElapsedTimeReq [start, stop]
  | cudaEventDestroy event => request eventDestroyReq [event]
  | cudaSetDevice device => request setDeviceReq [device]
  | cudaDeviceSynchronize => request deviceSynchronizeReq [0]
  | cudaGetDeviceProperties device => request getDevicePropertiesReq [device]
  | cudaPushCallConfiguration grid block sharedMem stream => request pushCallCfgReq
      [grid.1, grid.2.1, grid.2.2, block.1, block.2.1, block.2.2, sharedMem, stream]
  | cudaGetDeviceCount | cudaRuntimeGetVersion | cudaPopCallConfiguration => []

def respLen : RtForward → Nat
  | cudaMalloc _ => sizeof mallocResp
  | cudaStreamCreate => sizeof streamCreateResp
  | cudaEventCreate => sizeof eventCreateResp
  | cudaEventElapsedTime .. => sizeof eventElapsedTimeResp
  | cudaGetDeviceCount => sizeof getDeviceCountResp
  | cudaGetDeviceProperties _ => sizeof getDevicePropertiesResp
  | cudaRuntimeGetVersion => sizeof runtimeGetVersionResp
  | cudaPopCallConfiguration => sizeof popCallCfgResp
  | _ => 0

end RtForward

inductive RtCall where
  | forward (f : RtForward)
  /-- Also `__cudaLaunchKernel` and `__cudaLaunchKernel_ptsz`. -/
  | cudaLaunchKernel (func : Nat) (gridDim blockDim : Nat × Nat × Nat)
      (args : Option (Nat → Nat → UInt8)) (sharedMem stream : Nat)
  /-- `attr` is not NULL. -/
  | cudaFuncGetAttributes (attr : Bool) (func : Nat)
  /-- `__cudaGetKernel`; `kernel` is not NULL. -/
  | cudaGetKernel (kernel : Bool) (hostFun : Nat)
  | cudaGetErrorString (error : Nat)
  | cudaGetErrorName (error : Nat)
  | cudaGetLastError
  /-- `__cudaInitModule` and the registrations, with what their handle argument points to. -/
  | cudaInitModule (fatCubinHandle : Option Nat)
  | cudaRegisterFatBinary (fatCubin : Option ((Nat → UInt8) × (Nat → UInt8)))
  | cudaRegisterFatBinaryEnd
  | cudaRegisterFunction (fatCubinHandle : Option Nat) (hostFun : Nat) (deviceFun : List UInt8)
      (paramCount : Nat)
  | cudaUnregisterFatBinary

namespace Thread

/-- `HMCUDA_FORWARD` and its variants, over `hmcuda_dispatch`. -/
def forward (cmd : RtCmd) (req : List UInt8) (respLen : Nat) : ThreadM (Option Outcome) := do
  let r ← hmcudaDispatch (.rt cmd) req respLen
  return r.ret.map fun err => .code err r.resp

/-- `cudaLaunchKernel`; the library sets `g_last_error` for an unknown function too. -/
def cudaLaunchKernel (func : Nat) (gridDim blockDim : Nat × Nat × Nat)
    (args : Option (Nat → Nat → UInt8)) (sharedMem stream : Nat) : ThreadM (Option Outcome) := do
  let r ← inProc (HmCuda.cudaLaunchKernel func gridDim blockDim args sharedMem stream)
  record r
  return r.map fun err => .code err none

def cudaFuncGetAttributes (attr : Bool) (func : Nat) : ThreadM (Option Outcome) := do
  if ¬attr then
    return some (.code 1 none)
  else
    match (← Prog.get).proc.funcs func with
    | none =>
      record (some 98)
      return some (.code 98 none)
    | some fi =>
      forward .funcGetAttributes (request funcGetAttributesReq [fi.handle])
        (sizeof funcGetAttributesResp)

/-- `__cudaGetKernel` leaves `g_last_error` alone. -/
def cudaGetKernel (kernel : Bool) (hostFun : Nat) : ThreadM (Option Outcome) := do
  if ¬kernel ∨ hostFun = 0 then
    return some (.code 1 none)
  else if ((← Prog.get).proc.funcs hostFun).isNone then
    return some (.code 98 none)
  else
    return some (.code 0 none)

/-- `cudaGetErrorString` and `cudaGetErrorName`, by the command and by what they return
when there is no text. -/
def errorText (cmd : RtCmd) (unknown : String) (error : Nat) : ThreadM (Option Outcome) := do
  let r ← hmcudaDispatch (.rt cmd) (request getErrorStringReq [error])
    (sizeof getErrorStringResp + 256)
  return r.ret.map fun err =>
    let strLen := respWord getErrorStringResp r
    if err = 0 ∧ 0 < strLen then
      .text (((r.resp.getD []).drop (sizeof getErrorStringResp)).take (min strLen 255))
    else
      .text unknown.toUTF8.toList

def cudaGetErrorString : Nat → ThreadM (Option Outcome) :=
  errorText .getErrorString "Unknown CUDA error"

def cudaGetErrorName : Nat → ThreadM (Option Outcome) := errorText .getErrorName "UNKNOWN"

def cudaGetLastError : ThreadM (Option Outcome) := do
  let err := (← Prog.get).lastError
  record (some 0)
  return some (.code err none)

def cudaInitModule (fatCubinHandle : Option Nat) : ThreadM (Option Outcome) := do
  match fatCubinHandle with
  | none => return some .void
  | some handle =>
    let r ← hmcudaDispatch (.rt .initModule) (request initModuleReq [handle]) 0
    return r.ret.map fun _ => .void

def cudaRegisterFatBinary (fatCubin : Option ((Nat → UInt8) × (Nat → UInt8))) :
    ThreadM (Option Outcome) := do
  match fatCubin with
  | none => return some (.pointer none)
  | some (bytes, wrapped) =>
    let req := VarReq.registerFatbin bytes wrapped
    let left := (← Prog.ask).left (← Prog.get).proc.sent.length
    let r ← hmcudaDispatch req.cmd.cmd (req.payload left) req.respLen
    return r.ret.map fun err =>
      .pointer (if err = 0 then some (respWord registerFatbinResp r) else none)

/-- `__cudaRegisterFunction`; its only dispatch goes through `hmcuda_dispatch`. -/
def cudaRegisterFunction (fatCubinHandle : Option Nat) (hostFun : Nat) (deviceFun : List UInt8)
    (paramCount : Nat) : ThreadM (Option Outcome) := do
  match fatCubinHandle with
  | none => return some .void
  | some handle =>
    let r ← inProc (HmCuda.cudaRegisterFunction handle hostFun deviceFun paramCount)
    record r
    return r.map fun _ => .void

end Thread

/-- What a call does; `none` if it never returns. -/
def RtCall.run : RtCall → ThreadM (Option Outcome)
  | forward f => Thread.forward f.cmd f.req f.respLen
  | cudaLaunchKernel func gridDim blockDim args sharedMem stream =>
    Thread.cudaLaunchKernel func gridDim blockDim args sharedMem stream
  | cudaFuncGetAttributes attr func => Thread.cudaFuncGetAttributes attr func
  | cudaGetKernel kernel hostFun => Thread.cudaGetKernel kernel hostFun
  | cudaGetErrorString error => Thread.cudaGetErrorString error
  | cudaGetErrorName error => Thread.cudaGetErrorName error
  | cudaGetLastError => Thread.cudaGetLastError
  | cudaInitModule fatCubinHandle => Thread.cudaInitModule fatCubinHandle
  | cudaRegisterFatBinary fatCubin => Thread.cudaRegisterFatBinary fatCubin
  | cudaRegisterFunction fatCubinHandle hostFun deviceFun paramCount =>
    Thread.cudaRegisterFunction fatCubinHandle hostFun deviceFun paramCount
  | cudaRegisterFatBinaryEnd | cudaUnregisterFatBinary => return some .void

/-- A run of a thread, from a start and through calls that `init` and `ok` allow, the last
one first. The library is initialised on the main thread, and the process may have changed
before each call. -/
inductive ThreadRun (init : Nat → Prop) (ok : GuestEnv → ThreadSt → RtCall → Prop) :
    List (RtCall × Outcome) → ThreadSt → Prop
  | main (e : GuestEnv) (g : GuestSt) {err : Nat}
      (returned : (hmcudaRuntimeInit.run e ⟨g, 0⟩).1 = some err) (allowed : init err) :
      ThreadRun init ok [] (hmcudaRuntimeInit.run e ⟨g, 0⟩).2
  | thread (g : GuestSt) : ThreadRun init ok [] ⟨g, 0⟩
  | call {tr : List (RtCall × Outcome)} {s : ThreadSt} {out : Outcome} (e : GuestEnv)
      (g : GuestSt) (c : RtCall) (h : ThreadRun init ok tr s)
      (returned : (c.run.run e { s with proc := g }).1 = some out)
      (allowed : ok e { s with proc := g } c) :
      ThreadRun init ok ((c, out) :: tr) (c.run.run e { s with proc := g }).2

end HmCuda
