import HmCuda.Driver.Ioctl

/-! The guest transport (hmcuda_transport.cpp): a dispatch is one ioctl on a buffer
that holds the request before it and the response after it. -/

namespace HmCuda
open Layout

/-- `g_transport == TRANSPORT_RPC` and `g_fd >= 0`. -/
structure Transport where
  rpc : Bool
  opened : Bool

/-- `total_len` -/
def dispatchLen (reqLen respLen : Nat) : Nat :=
  max (sizeof reqHeader + max reqLen respLen) (sizeof respHeader + respLen)

def stackBufLen : Nat := 1024

/-- The buffer the ioctl is given, over what lay there before; one that does not fit
the stack is a zeroed vector. -/
def dispatchBuf (left : Nat → UInt8) (cmd : Nat) (req : List UInt8) (respLen : Nat) :
    Nat → UInt8 := fun a =>
  let total := dispatchLen req.length respLen
  if a < sizeof reqHeader then (Bytes.le 4 cmd ++ Bytes.le 4 0).getD a 0
  else if a < sizeof reqHeader + req.length then req.getD (a - sizeof reqHeader) 0
  else if stackBufLen < total ∧ a < total then 0
  else left a

/-- What a dispatch returns, `none` if the ioctl never does, and the payload it hands
to its caller. -/
structure Dispatched where
  ret : Option Nat
  resp : Option (List UInt8)

/-- The buffer after `copy_to_user`. -/
def answered (buf : Nat → UInt8) (out : Option (List UInt8)) : Nat → UInt8 := fun a =>
  match out with
  | some bs => if a < bs.length then bs.getD a 0 else buf a
  | none => buf a

/-- The end of `hmcuda_transport_dispatch`, once the ioctl has returned. -/
def dispatchResult (buf : Nat → UInt8) (respLen : Nat) (r : IoctlRes) : Dispatched :=
  match r.halt with
  | .ret x =>
    if x < 0 then ⟨some 1, none⟩
    else
      let buf := answered buf r.out
      let err := respHeader.cudaError.get buf
      if err ≠ 0 then ⟨some err, none⟩
      else if 0 < respLen then
        ⟨some 0, some ((List.range respLen).map fun i => buf (sizeof respHeader + i))⟩
      else ⟨some 0, none⟩
  | .hang | .fault => ⟨none, none⟩

/-- The ioctl's caller when its argument is `buf`. -/
def DrvEnv.calling (e : DrvEnv) (buf : Nat → UInt8) : DrvEnv := { e with user _ := some buf }

/-- `hmcuda_transport_dispatch`; `left` is what the stack held. -/
def transportDispatch (t : Transport) (left : Nat → UInt8) (cmd : Nat) (req : List UInt8)
    (respLen : Nat) : DrvM Dispatched := ⟨fun e s =>
  if t.rpc then (⟨some 1, none⟩, s)
  else if ¬t.opened then (⟨some 3, none⟩, s)
  else
    let buf := dispatchBuf left cmd req respLen
    let r := hmcudaIoctl.run (e.calling buf) s
    (dispatchResult buf respLen r.1, r.2)⟩

end HmCuda
