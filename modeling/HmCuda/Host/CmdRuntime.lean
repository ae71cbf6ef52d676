import HmCuda.Abi.Commands
import HmCuda.Host.Cmd
import Mathlib.Data.Nat.Find

/-! The runtime API command handlers (cmd_runtime.c). -/

namespace HmCuda
open Layout

/-- The transfer loop of the memcpy handlers. The device address and the stream are
read only when the loop is entered. -/
def transfer (dev : Field) (f : Nat → Nat → Chunk → QueryM Nat) (cs : List Chunk) :
    CmdM Unit := do
  setErr 0
  if cs ≠ [] then
    let d ← req dev
    let stream ← req memcpyReq.stream
    setErr (← core (query (Prog.firstError (f d stream) cs)))

/-- Host to device from the data descriptors `out_sg[1..]`. -/
def copyIn (f : Nat → Nat → Chunk → QueryM Nat) : CmdM Unit := do
  let e ← Prog.ask
  if 2 ≤ e.elem.outSg.length then
    let avail := sub64 e.totalOutLen (sizeof reqHeader + sizeof memcpyReq)
    let count ← req memcpyReq.count
    if avail ≥ count then
      transfer memcpyReq.dst f (chunks count e.elem.outSg.tail)
    else
      setErr 1
  else
    setErr 1

/-- `ctx->d2h_virtqueue = 1` -/
def setD2h : CmdM Unit := Prog.modify fun s => { s with d2h := true }

/-- Device to host into the data descriptors, all of `in_sg` but the last. -/
def copyOut (f : Nat → Nat → Chunk → QueryM Nat) (after : CmdM Unit) : CmdM Unit := do
  setD2h
  let e ← Prog.ask
  if 2 ≤ e.elem.inSg.length then
    let data := e.elem.inSg.dropLast
    let count ← req memcpyReq.count
    if sum64 (data.map (·.len)) ≥ count then
      transfer memcpyReq.src f (chunks count data)
      after
    else
      setErr 1
  else
    setErr 1

/-- The end of the device-to-host paths of `handle_memcpy`. -/
def syncAfter : CmdM Unit := do
  if (← Prog.get).err = 0 then
    answer (query (coreStreamSynchronize (← key) (← req memcpyReq.stream)))

/-- The guest-physical path: the range is translated as a whole. -/
def copyLegacy (gpa : Nat) (f : Nat → Space × Nat → CmdM Unit) : CmdM Unit := do
  let count ← req memcpyReq.count
  match (← Prog.ask).env.gpaToVa gpa count with
  | none => setErr 1
  | some (hostPtr, plen) => if plen < count then setErr 1 else f count hostPtr

def handleMemcpy : CmdM Unit := do
  let k ← key
  let kind ← req memcpyReq.kind
  if kind = 1 then
    let src ← req memcpyReq.src
    if src = 0 then
      copyIn fun dst stream c =>
        coreRuntimeMemcpyHtodVq k (add64 dst c.off) (c.iov.sp, c.iov.base) c.len stream
    else
      copyLegacy src fun count hostPtr => do
        let dst ← req memcpyReq.dst
        let stream ← req memcpyReq.stream
        answer (query (coreMemcpy k dst 0 count kind (some hostPtr) stream))
  else if kind = 2 then
    let dst ← req memcpyReq.dst
    if dst = 0 then
      copyOut (fun src stream c =>
        coreMemcpy k 0 (add64 src c.off) c.len kind (some (c.iov.sp, c.iov.base)) stream) syncAfter
    else
      copyLegacy dst fun count hostPtr => do
        let src ← req memcpyReq.src
        let stream ← req memcpyReq.stream
        answer (query (coreMemcpy k 0 src count kind (some hostPtr) stream))
        syncAfter
  else
    let dst ← req memcpyReq.dst
    let src ← req memcpyReq.src
    let count ← req memcpyReq.count
    let stream ← req memcpyReq.stream
    answer (query (coreMemcpy k dst src count kind none stream))

/-- Reads a `dim3` member. -/
def dim3 (f : Nat → Field) : CmdM (List Nat) := do
  return [← req (f 0), ← req (f 1), ← req (f 2)]

/-- One argument word, translated in place when it is a device or pinned address. -/
def translateArg (c : Context) (args i : Nat) : CmdM Unit := do
  let handle := Bytes.val (← peek (args + 8 * i) 8)
  let realPtr := resolveAnyMem c handle
  if realPtr ≠ 0 then
    poke (args + 8 * i) (Bytes.le 8 realPtr)

/-- What `cuLaunchKernel` reads of the parameters it is given pointers to. -/
def readParams (args n : Nat) (sizes : List Nat) : CmdM (List (List UInt8)) :=
  Prog.collect (fun p => peek (args + 8 * p.2) p.1) (sizes.take n).zipIdx

/-- `hmcuda_core_launch_kernel`; `args` is the offset of the argument blob. -/
def coreLaunchKernel (k : Key) (func : Nat) (grid block : List Nat)
    (sharedMem stream args argsSize : Nat) : CmdM Nat := do
  match (← Prog.get).be.tab.ctxGet k with
  | none => return 999
  | some c =>
    let realFunc := c.resGet .function func
    let config := realFunc :: grid ++ block ++ [sharedMem, resolveRuntimeStream c stream]
    if realFunc = 0 then return 1
    let params ← if argsSize > 0 then do
        Prog.forEach (translateArg c args) (List.range (argsSize / 8))
        readParams args (argsSize / 8) ((← Prog.ask).env.paramSizes realFunc)
      else pure []
    let res ← core (query (lib .cuLaunchKernel config params))
    if res.code ≠ 0 then
      let _ ← core (query (lib .cuGetErrorString [res.code] []))
      return 719
    return 0

def handleLaunchKernel : CmdM Unit := do
  let func ← req launchKernelReq.func
  let grid ← dim3 launchKernelReq.gridDim
  let block ← dim3 launchKernelReq.blockDim
  let sharedMem ← req launchKernelReq.sharedMem
  let stream ← req launchKernelReq.stream
  let argsSize ← req launchKernelReq.argsSize
  setErr (← coreLaunchKernel (← key) func grid block sharedMem stream
    (sizeof launchKernelReq) argsSize)

/-- The bytes up to and including the first NUL at or after `start`; past the
request of `len` bytes the heap goes on. -/
def strEnd (h : Heap) (buf : Nat → UInt8) (len start : Nat) : Nat :=
  match (List.range (len - start)).find? fun i => buf (start + i) = 0 with
  | some i => start + i + 1
  | none => Nat.find (h.nul (max start len)) + 1

def peekStr (off : Nat) : CmdM (List UInt8) := do
  let e ← Prog.ask
  let s ← Prog.get
  let start := payloadOff + off
  peek off (strEnd e.env.heap s.buf e.elem.reqLen start - start)

def handleRegisterFatbin : CmdM Unit := do
  let k ← key
  let _size ← req registerFatbinReq.size
  let s ← Prog.get
  let off := sizeof registerFatbinReq
  if (s.be.tab.ctxGet k).isSome then
    let image ← peek off ((← Prog.ask).env.imageLen fun i => s.buf (payloadOff + off + i))
    answerWith registerFatbinResp (coreRegisterFatbin k image)
  else
    answerWith registerFatbinResp (coreRegisterFatbin k [])

/-- The parameter counts are always answered with 0. -/
def handleRegisterFunction : CmdM Unit := do
  let k ← key
  let fatbin ← req registerFunctionReq.fatbinHandle
  let hostFun ← req registerFunctionReq.hostFun
  match (← Prog.get).be.tab.ctxGet k with
  | none =>
    setErr 999
    reply registerFunctionResp [none, none] []
  | some c =>
    let module := c.resGet .module fatbin
    if module = 0 then
      setErr 1
      reply registerFunctionResp [some 0, some 0] []
    else
      let name ← peekStr (sizeof registerFunctionReq)
      setErr (← core (coreRegisterFunction k module hostFun name))
      reply registerFunctionResp [some 0, some 0] []

/-- The capacity of `resp_payload`. -/
def respPayloadCap : Nat := 2048

/-- `HMCUDA_CMD_GET_ERROR_STRING` and `_NAME`: a string that does not fit leaves
what the stack held. -/
def handleGetErrorText (m : QueryM LibRet) : CmdM Unit := do
  let r ← core (query m)
  setErr 0
  match r.str with
  | none => return ()
  | some str =>
    let slen := str.length + 1
    let stale := (← Prog.ask).env.stale (← Prog.get).be.dev.clock
    reply getErrorStringResp [some slen]
      (if slen + sizeof getErrorStringResp ≤ respPayloadCap then str ++ [0]
        else (List.range slen).map fun i => stale (sizeof getErrorStringResp + i))

/-- `hmcuda_runtime_handle_cmd` -/
def runtimeHandleCmd : RtCmd → CmdM Unit
  | .init => do answer (coreInit (← key))
  | .malloc => do answerWith mallocResp (coreMalloc (← key) (← req mallocReq.size))
  | .free => do answer (coreFree (← key) (← req freeReq.devPtr))
  | .memcpy => handleMemcpy
  | .memset => do
    answer (query (coreMemset (← key) (← req memsetReq.devPtr) (← req memsetReq.value)
      (← req memsetReq.count)))
  | .launchKernel => handleLaunchKernel
  | .streamCreate => do
    answerWith streamCreateResp (coreStreamCreate (← key) (← req streamCreateReq.flags))
  | .streamSynchronize => do
    answer (query (coreStreamSynchronize (← key) (← req streamSynchronizeReq.stream)))
  | .eventCreate => do
    answerWith eventCreateResp (coreEventCreate (← key) (← req eventCreateReq.flags))
  | .eventRecord => do
    answer (query (coreEventRecord (← key) (← req eventRecordReq.event)
      (← req eventRecordReq.stream)))
  | .eventSynchronize => do
    answer (query (coreEventSynchronize (← key) (← req eventSynchronizeReq.event)))
  | .eventElapsedTime => do
    answerWith eventElapsedTimeResp (query (coreEventElapsedTime (← key)
      (← req eventElapsedTimeReq.startEvent) (← req eventElapsedTimeReq.endEvent)))
  | .eventDestroy => do answer (coreEventDestroy (← key) (← req eventDestroyReq.event))
  | .deviceSynchronize => answer (query coreDeviceSynchronize)
  | .pushCallConfiguration => do
    answer (query (corePushCallConfiguration (← key) (← dim3 pushCallCfgReq.gridDim)
      (← dim3 pushCallCfgReq.blockDim) (← req pushCallCfgReq.sharedMem)
      (← req pushCallCfgReq.stream)))
  | .popCallConfiguration => do
    let (err, out) ← core (query (corePopCallConfiguration (← key)))
    setErr err
    reply popCallCfgResp ((out.getD []).map some) []
  | .initModule => do
    answer (query (coreInitModule (← key) (← req initModuleReq.fatbinHandle)))
  | .getDeviceProperties => do
    let (err, out) ← core (query (coreGetDeviceProperties (← req getDevicePropertiesReq.device)))
    setErr err
    replyFilled getDevicePropertiesResp out
  | .getDeviceCount => answerLib getDeviceCountResp coreGetDeviceCount
  | .setDevice => do
    let r ← core (query (coreSetDevice (← req setDeviceReq.device)))
    setErr r.code
  | .getErrorString => do
    handleGetErrorText (coreGetErrorString (← req getErrorStringReq.error))
  | .getErrorName => do handleGetErrorText (coreGetErrorName (← req getErrorStringReq.error))
  | .registerFatbin => handleRegisterFatbin
  | .registerFunction => handleRegisterFunction
  | .runtimeGetVersion => answerLib runtimeGetVersionResp coreRuntimeGetVersion
  | .funcGetAttributes => do
    let (err, out) ← core (query (coreFuncGetAttributes (← key) (← req funcGetAttributesReq.func)))
    setErr err
    replyFilled funcGetAttributesResp out

end HmCuda
