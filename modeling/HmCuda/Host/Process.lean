import HmCuda.Host.CmdDriver

/-! The virtqueue loop of the backend (vhost_user_hmcuda.c), for one element. -/

namespace HmCuda
open Layout

/-- `iov_to_buf`: up to `len` bytes gathered from the descriptors. -/
def iovToBuf (mem : ByteMem Space) : List Iov → Nat → List UInt8
  | [], _ => []
  | v :: vs, len =>
    if len = 0 then []
    else mem.read v.sp v.base (min len v.len) ++ iovToBuf mem vs (len - min len v.len)

/-- One `memcpy` into a descriptor. -/
structure RespWrite where
  sp : Space
  base : Nat
  bytes : List UInt8
  deriving DecidableEq, Repr

/-- `buf_to_iov`, as the copies it makes. -/
def bufToIov : List Iov → List UInt8 → List RespWrite
  | [], _ => []
  | v :: vs, buf =>
    if buf = [] then []
    else ⟨v.sp, v.base, buf.take v.len⟩ :: bufToIov vs (buf.drop v.len)

def applyWrites (mem : ByteMem Space) (ws : List RespWrite) : ByteMem Space :=
  ws.foldl (fun m w => m.write w.sp w.base w.bytes) mem

/-- The copies that deliver a response: with device-to-host data in the first
descriptors it goes to the last one only. -/
def respWrites (d2h : Bool) (inSg : List Iov) (resp : List UInt8) : List RespWrite :=
  if d2h ∧ 2 ≤ inSg.length then
    (inSg.getLast?.map fun v => (⟨v.sp, v.base, resp.take v.len⟩ : RespWrite)).toList
  else
    bufToIov inSg resp

structure Served where
  err : Nat
  payload : List UInt8
  d2h : Bool
  touched : List (Nat × Nat)
  writes : List RespWrite
  pushLen : Nat

/-- The context a handler starts from: the request structure alone is copied out of
the first descriptor, and the heap lies behind the copy. -/
def cmdStart (env : Env) (e : Elem) (m : Machine) : CmdSt :=
  let v := e.outSg.headD ⟨.ram, 0, 0⟩
  { be := m
    buf := fun a => if a < v.len then m.dev.eng.mem v.sp (v.base + a) else env.heap.byte a
    touched := []
    resp := []
    err := 0
    d2h := false }

def cmdEnv (env : Env) (k : Key) (e : Elem) : CmdEnv where
  env := env
  key := k
  elem := e
  totalOutLen := sum64 (e.outSg.map (·.len))
  payloadLen := sub64 e.reqLen (sizeof reqHeader)

def respBytes (cmd err : Nat) (payload : List UInt8) : List UInt8 :=
  Bytes.le 4 cmd ++ Bytes.le 4 err ++ payload

/-- The response to a handled command; an unknown command answers 999. -/
def respond (cmd : Nat) (e : Elem) (known : Bool) (s : CmdSt) : Served :=
  let err := if known then s.err else 999
  let resp := respBytes cmd err s.resp
  let data := if s.d2h ∧ 2 ≤ e.inSg.length then e.inSg.dropLast.map (·.len) else []
  ⟨err, s.resp, s.d2h, s.touched, respWrites s.d2h e.inSg resp, resp.length + sum64 data⟩

/-- The response is written; the DMA engine runs on until then. -/
def Machine.deliver (env : Env) (m : Machine) (ws : List RespWrite) : Machine :=
  let d := (idle.run ⟨env, m.tab⟩ m.dev).2
  { m with dev := { d with eng := { d.eng with mem := applyWrites d.eng.mem ws } } }

/-- `hmcuda_process_vq` on one element; `none` is an element dropped for a short
header, which is never returned to the queue. -/
def processElem (k : Key) (e : Elem) : CoreM (Option Served) := ⟨fun env m =>
  let hdr := iovToBuf m.dev.eng.mem e.outSg (sizeof reqHeader)
  if hdr.length ≠ sizeof reqHeader then (none, m)
  else
    let cmd := reqHeader.cmdType.get fun a => hdr.getD a 0
    let r := (dispatchCmd cmd).run (cmdEnv env k e) (cmdStart env e m)
    let served := respond cmd e r.1 r.2
    (some served, r.2.be.deliver env served.writes)⟩

end HmCuda
