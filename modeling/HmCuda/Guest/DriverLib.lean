import HmCuda.Guest.Forward

/-! The driver library from its constructor to its destructor, `cuInit` and
`g_driver_initialized`, and the texts it hands out (hmcuda_driver.cpp). -/

namespace HmCuda
open Layout

/-- The process, and `g_driver_initialized`. -/
structure DriverSt where
  proc : GuestSt
  initialized : Bool

abbrev DriverM := Prog GuestEnv DriverSt

/-- `hmcuda_transport_fini` -/
def transportFini : GuestM Unit := Prog.modify fun s =>
  { s with transport := { s.transport with opened := false } }

namespace DriverLib

def onProc {α : Type} (m : GuestM α) : DriverM α :=
  ⟨fun e s => ((m.run e s.proc).1, { s with proc := (m.run e s.proc).2 })⟩

/-- `HMCUDA_CMD_CU_INIT`, and `g_driver_initialized` where it succeeds. -/
def sendCuInit (flags : Nat) : DriverM (Option Nat) := do
  let err ← onProc (drvDispatch (.drv .cuInit) (request cuInitReq [flags]) 0)
  if err.ret = some 0 then
    Prog.modify fun s => { s with initialized := true }
    return some 0
  else
    return err.ret

/-- `hmcuda_driver_ensure_initialized` -/
def hmcudaDriverEnsureInitialized : DriverM (Option Nat) := do
  let s ← Prog.get
  if s.initialized then
    return some 0
  else
    if ¬(s.proc.transport.opened ∨ s.proc.transport.rpc) then
      onProc transportInit
    let err ← onProc (drvDispatch (.rt .init) [] 0)
    if err.ret = some 0 then
      sendCuInit 0
    else
      return err.ret

/-- The constructor, `hmcuda_driver_init`. -/
def hmcudaDriverInit : DriverM (Option Nat) := do
  onProc transportInit
  hmcudaDriverEnsureInitialized

/-- The destructor, `hmcuda_driver_fini`. -/
def hmcudaDriverFini : DriverM (Option Nat) := do
  onProc transportFini
  return some 0

def cuInit (flags : Nat) : DriverM (Option Nat) := do
  let err ← hmcudaDriverEnsureInitialized
  if err = some 0 then
    sendCuInit flags
  else
    return err

/-- `cuGetErrorString` and `cuGetErrorName`, whose structures agree, by the command and by the
text for none: the error, and what `pStr` is set to. -/
def cuErrorText (cmd : DrvCmd) (unknown : String) (error : Nat) (pStr : Bool) :
    GuestM (Option Nat × Option (List UInt8)) := do
  let r ← drvDispatch (.drv cmd) (request cuGetErrorStringReq [error])
    (sizeof cuGetErrorStringResp + 256)
  if r.ret = some 0 ∧ pStr then
    let strLen := respWord cuGetErrorStringResp r
    if 0 < strLen then
      return (r.ret, some (((r.resp.getD []).drop (sizeof cuGetErrorStringResp)).take
        (min strLen 255)))
    else
      return (r.ret, some unknown.toUTF8.toList)
  else
    return (r.ret, none)

def cuGetErrorString : Nat → Bool → GuestM (Option Nat × Option (List UInt8)) :=
  cuErrorText .cuGetErrorString "Unknown error"

def cuGetErrorName : Nat → Bool → GuestM (Option Nat × Option (List UInt8)) :=
  cuErrorText .cuGetErrorName "UNKNOWN"

end DriverLib

/-- What runs in a process with the driver library, up to the calls of either library that do
not touch the flag. -/
inductive DriverCall where
  | hmcudaDriverInit
  | hmcudaDriverFini
  | cuInit (flags : Nat)
  | call (c : GuestCall)

/-- What a call returns; `none` if it never does. -/
def DriverCall.run : DriverCall → DriverM (Option Nat)
  | hmcudaDriverInit => DriverLib.hmcudaDriverInit
  | hmcudaDriverFini => DriverLib.hmcudaDriverFini
  | cuInit flags => DriverLib.cuInit flags
  | call c => do return (← DriverLib.onProc c.run).ret

/-- A run of such a process: the calls so far with their results, the last one first, in
whatever order. A call that does not return is the last one. -/
inductive DriverRun (e : GuestEnv) (drv : DrvSt) : List (DriverCall × Option Nat) → DriverSt → Prop
  | start : DriverRun e drv [] ⟨.start drv, false⟩
  | call {tr : List (DriverCall × Option Nat)} {s : DriverSt} (c : DriverCall)
      (h : DriverRun e drv tr s) (returned : ∀ x ∈ tr, x.2.isSome) :
      DriverRun e drv ((c, (c.run.run e s).1) :: tr) (c.run.run e s).2

end HmCuda
