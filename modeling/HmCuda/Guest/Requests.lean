import HmCuda.Abi.Structs
import HmCuda.Host.Cmd
import HmCuda.System.RequestLength

/-! The variable-length requests of the intercept libraries (hmcuda_runtime.cpp,
hmcuda_driver.cpp): a structure, and what follows it in the same vector. -/

namespace HmCuda
open Layout

/-- A request structure as a function of the library fills it in, over what lay there. -/
def encode (s : CStruct) (left : Nat → UInt8) (vals : List Nat) : List UInt8 :=
  respImage s left (vals.map some)

/-- A call of a function that builds a variable-length request, with what it reads. -/
inductive VarReq where
  /-- `cudaLaunchKernel` on a registered function: its handle and parameter count, and
  the bytes at each `args[i]`. -/
  | launchKernel (func : Nat) (grid block : Nat × Nat × Nat) (sharedMem stream paramCount : Nat)
      (args : Option (Nat → Nat → UInt8))
  /-- `__cudaRegisterFatBinary`: the bytes at its argument and at the wrapper's `data`. -/
  | registerFatbin (fatCubin wrapped : Nat → UInt8)
  /-- `__cudaRegisterFunction`, with `deviceFun` up to its NUL. -/
  | registerFunction (fatbinHandle hostFun : Nat) (deviceFun : List UInt8)
  /-- `cuMemSetAccess`, with type, id and flags of each descriptor. -/
  | cuMemSetAccess (ptr size : Nat) (desc : List (Nat × Nat × Nat))

/-- `struct __fatBinaryHeader`; the two 16-bit members are not used. -/
def fatBinaryHeader : CStruct := [.u32, .bytes 4, .u64]
def fatBinaryHeader.magic := field fatBinaryHeader 0
def fatBinaryHeader.fatSize := field fatBinaryHeader 2

/-- `fatbin_data` -/
def fatbinData (fatCubin wrapped : Nat → UInt8) : Nat → UInt8 :=
  if fatBinaryHeader.magic.get fatCubin &&& 0xFFFF0000 = 0x46620000 then wrapped else fatCubin

/-- The size `__cudaRegisterFatBinary` goes by. -/
def fatbinSize (data : Nat → UInt8) : Nat :=
  let size :=
    if fatBinaryHeader.magic.get data ∈ [0xBA55ED50, 0x50ED5AB4, 0x466243b1, 0xB1436246] then
      fatBinaryHeader.fatSize.get data
    else 65536
  if size = 0 ∨ size > 100 * 1024 * 1024 then 65536 else size

/-- The word of argument `i` in the blob of `cudaLaunchKernel`. -/
def argWord (args : Option (Nat → Nat → UInt8)) (i : Nat) : List UInt8 :=
  (List.range 8).map fun j => match args with
    | some a => a i j
    | none => 0

/-- One `hmcuda_cu_mem_access_desc`. -/
def encodeDesc (d : Nat × Nat × Nat) : List UInt8 :=
  encode cuMemAccessDesc (fun _ => 0) [d.1, d.2.1, d.2.2]

namespace VarReq

def cmd : VarReq → VarCmd
  | launchKernel .. => .launchKernel
  | registerFatbin .. => .registerFatbin
  | registerFunction .. => .registerFunction
  | cuMemSetAccess .. => .cuMemSetAccess

def count : VarReq → Nat
  | launchKernel _ _ _ _ _ paramCount _ => paramCount * 8
  | registerFatbin fatCubin wrapped => fatbinSize (fatbinData fatCubin wrapped)
  | registerFunction _ _ deviceFun => deviceFun.length + 1
  | cuMemSetAccess _ _ desc => desc.length

def members (r : VarReq) : List Nat :=
  match r with
  | launchKernel func grid block sharedMem stream _ _ =>
    [func, grid.1, grid.2.1, grid.2.2, block.1, block.2.1, block.2.2, sharedMem % 2 ^ 32, stream,
      r.count % 2 ^ 32]
  | registerFatbin .. => [r.count]
  | registerFunction fatbinHandle hostFun _ => [fatbinHandle, hostFun, r.count % 2 ^ 32]
  | cuMemSetAccess ptr size _ => [ptr, size, r.count % 2 ^ 32]

def tail : VarReq → List UInt8
  | launchKernel _ _ _ _ _ paramCount args => (List.range paramCount).flatMap (argWord args)
  | r@(registerFatbin fatCubin wrapped) =>
    (List.range r.count).map (fatbinData fatCubin wrapped)
  | registerFunction _ _ deviceFun => deviceFun ++ [0]
  | cuMemSetAccess _ _ desc => desc.flatMap encodeDesc

def zeroed : VarReq → Bool
  | launchKernel .. | cuMemSetAccess .. => true
  | registerFatbin .. | registerFunction .. => false

/-- `payload`; `left` is what the stack held. -/
def payload (r : VarReq) (left : Nat → UInt8) : List UInt8 :=
  encode r.cmd.struct (if r.zeroed then fun _ => 0 else left) r.members ++ r.tail

def respLen : VarReq → Nat
  | launchKernel .. | cuMemSetAccess .. => 0
  | registerFatbin .. => sizeof registerFatbinResp
  | registerFunction .. => sizeof registerFunctionResp

structure Fits (r : VarReq) : Prop where
  members : ∀ i v, r.members[i]? = some v → v < 256 ^ (field r.cmd.struct i).size
  count : r.count < 256 ^ (field r.cmd.struct r.cmd.index).size
  tail : match r with
    | registerFunction _ _ deviceFun => 0 ∉ deviceFun
    | cuMemSetAccess _ _ desc => ∀ d ∈ desc, d.1 < 2 ^ 32 ∧ d.2.1 < 2 ^ 32 ∧ d.2.2 < 2 ^ 32
    | _ => True

end VarReq
end HmCuda
