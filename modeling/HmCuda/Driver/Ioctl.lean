import HmCuda.Driver.Sizes
import HmCuda.Host.Process

/-! The guest driver's ioctl (virtio_hmcuda_main.c): request sizing, the request
buffers, the page-pinning copy loop and the plain round trip. -/

namespace HmCuda
open Layout AsyncCopy

inductive Buf where
  | fixedReq | req | resp | pages | sgBatch
  deriving DecidableEq, Repr

/-- What the driver does with pages, buffers, the mutex and the queue. An unpin
records the copies that are still pending at that moment. -/
inductive Ev where
  | alloc (b : Buf)
  | free (b : Buf)
  | pin (pfns : List Nat)
  | unpin (pfns : List Nat) (pending : List (Copy Space))
  | lock
  | unlock
  | submit (e : Elem)
  | complete (e : Elem)

/-- A memcpy batch whose response has arrived; `seen` is the error the driver read. -/
structure BatchRec where
  byteOffset : Nat
  pfns : List Nat
  elem : Elem
  served : Served
  seen : Nat

structure DrvEnv where
  sys : Env
  key : Key
  caller : Nat
  /-- The address of the argument. -/
  arg : Nat
  /-- The argument's bytes at each `copy_from_user`; `none` is a fault. -/
  user : Nat → Option (Nat → UInt8)
  kmalloc : Buf → Bool
  /-- `pin_user_pages_fast` on an address and a page count, for writing or not: the
  frames, or the negative result `Int.negSucc err`. -/
  pin : Nat → Nat → Bool → Except Nat (List Nat)
  /-- `virtqueue_add_sgs`, by the offset of the batch: 0, or `Int.negSucc err`. -/
  addSgs : Nat → Option Nat
  /-- `copy_to_user` succeeds. -/
  copyOut : Bool

/-- `reqBuf` is the request buffer, which only the driver writes. The rest is history:
the events, the elements put on the queue with the request the device is shown, the
answered batches, and the answers to plain commands. -/
structure DrvSt where
  m : Machine
  reqBuf : Nat → UInt8
  evs : List Ev
  submitted : List (Elem × (Nat → UInt8))
  batches : List BatchRec
  served : List (Elem × Served)

abbrev DrvM := Prog DrvEnv DrvSt

def DrvEnv.quiet (sys : Env) (user : Nat → Nat → UInt8) : DrvEnv where
  sys := sys
  key := ⟨1, 1⟩
  caller := 0
  arg := 0
  user i := some (user i)
  kmalloc _ := true
  pin addr n _ := .ok ((List.range n).map (addr / 4096 + ·))
  addSgs _ := none
  copyOut := true

def DrvSt.start (mem : ByteMem Space) : DrvSt := ⟨.start mem, fun _ => 0, [], [], [], []⟩

/-- How a driver function ends: a return value, a wait nobody ends, or a write
outside an array. -/
inductive Halt where
  | ret (r : Int)
  | hang
  | fault
  deriving DecidableEq, Repr

def einval : Int := -22
def enomem : Int := -12
def efault : Int := -14

/-- The end of the user address space, which `copy_from_user` checks ranges against. -/
def taskSize : Nat := 2 ^ 47 - 4096

/-- `copy_from_user` of `n` bytes at offset `off` of the argument, the `i`-th one. -/
def DrvEnv.fetch (e : DrvEnv) (i off n : Nat) : Option (Nat → UInt8) :=
  if e.arg + off + n ≤ taskSize then (e.user i).map fun u a => u (off + a) else none

def ev (x : Ev) : DrvM Unit := Prog.modify fun s => { s with evs := s.evs ++ [x] }

def kmalloc (b : Buf) : DrvM Bool := do
  if (← Prog.ask).kmalloc b then
    ev (.alloc b)
    return true
  else
    return false

/-- `hmcuda_get_req_sizes`: the response length stays that of the first pass. -/
def getReqSizes (cmd : Nat) : DrvM (Except Int (Nat × Nat)) := do
  match cmdGetSizes cmd none with
  | none => return .error einval
  | some sizes =>
    if 0 < sizes.reqSize then
      if ← kmalloc .fixedReq then
        match (← Prog.ask).fetch 1 (sizeof reqHeader) sizes.reqSize with
        | none =>
          ev (.free .fixedReq)
          return .error efault
        | some p =>
          ev (.free .fixedReq)
          match cmdGetSizes cmd (some p) with
          | none => return .error einval
          | some sizes₂ => return .ok (sizes₂.reqSize, sizes.respSize)
      else
        return .error enomem
    else
      return .ok (sizes.reqSize, sizes.respSize)

def Machine.setMem (m : Machine) (sp : Space) (f : Nat → UInt8) : Machine :=
  { m with dev := { m.dev with
    eng := { m.dev.eng with mem := Function.update m.dev.eng.mem sp f } } }

def setReq (f : Nat → UInt8) : DrvM Unit := Prog.modify fun s => { s with reqBuf := f }

/-- `hmcuda_build_req_buf`: the total lengths, with both buffers filled in. -/
def buildReqBuf (hdr : Nat → UInt8) (reqLen respLen : Nat) : DrvM (Except Halt (Nat × Nat)) := do
  let e ← Prog.ask
  let totalReq := add64 (sizeof reqHeader) reqLen
  let totalResp := add64 (sizeof respHeader) respLen
  if ← kmalloc .req then
    if ← kmalloc .resp then
      Prog.modify fun s => { s with m := s.m.setMem (.resp e.caller) fun _ => 0 }
      -- a total length that wrapped leaves no room for the header
      if totalReq < sizeof reqHeader then
        return .error .fault
      else
        setReq fun a => if a < sizeof reqHeader then hdr a else 0
        if 0 < reqLen then
          match e.fetch 2 (sizeof reqHeader) reqLen with
          | none =>
            ev (.free .resp)
            ev (.free .req)
            return .error (.ret efault)
          | some p =>
            setReq fun a =>
              if a < sizeof reqHeader then hdr a
              else if a < sizeof reqHeader + reqLen then p (a - sizeof reqHeader) else 0
            return .ok (totalReq, totalResp)
        else
          return .ok (totalReq, totalResp)
    else
      ev (.free .req)
      return .error (.ret enomem)
  else
    return .error (.ret enomem)

structure MemcpyArgs where
  userAddrStart : Nat
  totalCount : Nat
  devPtr : Nat
  kind : Nat
  deriving DecidableEq, Repr

/-- `hmcuda_parse_memcpy_args` -/
def parseMemcpyArgs (cmd : Nat) (p : Nat → UInt8) : MemcpyArgs :=
  if cmd = DrvCmd.cuMemHostAlloc.code then
    ⟨cuMemHostAllocReq.guestVa.get p, cuMemHostAllocReq.bytesize.get p, 0, 1⟩
  else if memcpyReq.kind.get p = 1 then
    ⟨memcpyReq.src.get p, memcpyReq.count.get p, memcpyReq.dst.get p, memcpyReq.kind.get p⟩
  else
    ⟨memcpyReq.dst.get p, memcpyReq.count.get p, memcpyReq.src.get p, memcpyReq.kind.get p⟩

def pageSize : Nat := 4096

def pagesPerBatch : Nat := 512

/-- `DIV_ROUND_UP(n, PAGE_SIZE)` in 64 bits. -/
def pagesFor (n : Nat) : Nat := add64 n (pageSize - 1) / pageSize

/-- The numbers one iteration of the copy loop computes. -/
structure Batch where
  userAddr : Nat
  pageOff : Nat
  pages : Nat
  count : Nat
  deriving DecidableEq, Repr

def batchAt (a : MemcpyArgs) (byteOffset : Nat) : Batch :=
  let userAddr := add64 a.userAddrStart byteOffset
  let pageOff := userAddr % pageSize
  let remaining := a.totalCount - byteOffset
  let pages := min pagesPerBatch (pagesFor (add64 pageOff remaining))
  let capacity := sub64 (pages * pageSize) pageOff
  ⟨userAddr, pageOff, pages, min capacity remaining⟩

/-- The coalescing loop: `acc` is the list so far, last entry first, `prev` the frame
of the page before. -/
def coalesceFrom (prev pgOff rem : Nat) (acc : List Iov) : List Nat → List Iov
  | [] => acc
  | pfn :: pfns =>
    if rem = 0 then acc
    else
      let pgLen := min (pageSize - pgOff) rem
      match acc with
      | v :: vs =>
        if pfn = prev + 1 then
          coalesceFrom pfn 0 (rem - pgLen) ({ v with len := v.len + pgLen } :: vs) pfns
        else
          coalesceFrom pfn 0 (rem - pgLen) (⟨.ram, pfn * pageSize + pgOff, pgLen⟩ :: acc) pfns
      | [] => coalesceFrom pfn 0 (rem - pgLen) [⟨.ram, pfn * pageSize + pgOff, pgLen⟩] pfns

def coalesce (pgOff count : Nat) (pfns : List Nat) : List Iov :=
  (coalesceFrom 0 pgOff count [] pfns).reverse

/-- The per-batch fields of the request structure. -/
def updateReq (cmd : Nat) (a : MemcpyArgs) (byteOffset count : Nat) (p : Nat → UInt8) :
    Nat → UInt8 :=
  if cmd = DrvCmd.cuMemHostAlloc.code then
    cuMemHostAllocReq.byteOffset.set byteOffset p
  else
    let p := memcpyReq.count.set count p
    if a.kind = 1 then
      memcpyReq.dst.set (add64 a.devPtr byteOffset) (memcpyReq.src.set 0 p)
    else
      memcpyReq.dst.set 0 (memcpyReq.src.set (add64 a.devPtr byteOffset) p)

def payloadOf (h : Nat → UInt8) : Nat → UInt8 := fun a => h (sizeof reqHeader + a)

def withPayload (h p : Nat → UInt8) : Nat → UInt8 := fun a =>
  if a < sizeof reqHeader then h a else p (a - sizeof reqHeader)

/-- Request first; for host to device the data goes out too, else it comes in. -/
def memcpyElem (caller totalReq totalResp kind : Nat) (data : List Iov) : Elem :=
  let req : Iov := ⟨.req caller, 0, totalReq⟩
  let resp : Iov := ⟨.resp caller, 0, totalResp⟩
  if kind = 1 then ⟨req :: data, [resp]⟩ else ⟨[req], data ++ [resp]⟩

def submit (e : Elem) : DrvM Unit := Prog.modify fun s =>
  { s with evs := s.evs ++ [.submit e], submitted := s.submitted ++ [(e, s.reqBuf)] }

/-- The device processes the element the driver has queued and waits for; the request
descriptor shows it the request buffer. -/
def serve (e : Elem) : DrvM (Option Served) := ⟨fun d s =>
  let r := (processElem d.key e).run d.sys (s.m.setMem (.req d.caller) s.reqBuf)
  (r.1, { s with m := r.2 })⟩

def unpin (pfns : List Nat) : DrvM Unit := do
  ev (.unpin pfns (← Prog.get).m.dev.eng.pending)

/-- One iteration of the copy loop of `hmcuda_do_memcpy_gup`: how it stops, or the
offset of the next batch. -/
def gupBatch (cmd totalReq totalResp : Nat) (a : MemcpyArgs) (byteOffset : Nat) :
    DrvM (Except Halt Nat) := do
  let e ← Prog.ask
  let b := batchAt a byteOffset
  match e.pin (b.userAddr / pageSize * pageSize) b.pages (a.kind = 2) with
  | .error err => return .error (.ret (Int.negSucc err))
  | .ok pfns =>
    ev (.pin pfns)
    if pfns.length ≠ b.pages then
      unpin pfns
      return .error (.ret efault)
    let data := coalesce b.pageOff b.count pfns
    if data = [] then
      -- `sg_mark_end(&sg_batch[nr_sge - 1])` with `nr_sge == 0`
      return .error .fault
    let h := (← Prog.get).reqBuf
    setReq (withPayload h (updateReq cmd a byteOffset b.count (payloadOf h)))
    ev .lock
    let elem := memcpyElem e.caller totalReq totalResp a.kind data
    match e.addSgs byteOffset with
    | some err =>
      ev .unlock
      unpin pfns
      return .error (.ret (Int.negSucc err))
    | none =>
      submit elem
      match ← serve elem with
      | none => return .error .hang
      | some served =>
        ev (.complete elem)
        ev .unlock
        unpin pfns
        let seen := respHeader.cudaError.get ((← Prog.get).m.dev.eng.mem (.resp e.caller))
        Prog.modify fun s => { s with
          batches := s.batches ++ [⟨byteOffset, pfns, elem, served, seen⟩] }
        if seen ≠ 0 then
          return .error (.ret 0)
        return .ok (byteOffset + b.count)

/-- `while (byte_offset < args->total_count)`. -/
def gupLoop (cmd totalReq totalResp : Nat) (a : MemcpyArgs) : Nat → Nat → DrvM Halt
  | 0, _ => return .hang
  | fuel + 1, byteOffset => do
    if byteOffset < a.totalCount then
      match ← gupBatch cmd totalReq totalResp a byteOffset with
      | .error h => return h
      | .ok next => gupLoop cmd totalReq totalResp a fuel next
    else
      return .ret 0

/-- `hmcuda_do_memcpy_gup` -/
def doMemcpyGup (cmd totalReq totalResp : Nat) (a : MemcpyArgs) : DrvM Halt := do
  if ← kmalloc .pages then
    if ← kmalloc .sgBatch then
      let h ← gupLoop cmd totalReq totalResp a (a.totalCount + 1) 0
      ev (.free .sgBatch)
      ev (.free .pages)
      return h
    else
      ev (.free .pages)
      return .ret enomem
  else
    return .ret enomem

def simpleElem (caller totalReq totalResp : Nat) : Elem :=
  ⟨[⟨.req caller, 0, totalReq⟩], [⟨.resp caller, 0, totalResp⟩]⟩

/-- `hmcuda_do_simple_cmd` -/
def doSimpleCmd (totalReq totalResp : Nat) : DrvM Halt := do
  let e ← Prog.ask
  let elem := simpleElem e.caller totalReq totalResp
  ev .lock
  match e.addSgs 0 with
  | some err =>
    ev .unlock
    return .ret (Int.negSucc err)
  | none =>
    submit elem
    match ← serve elem with
    | none => return .hang
    | some served =>
      ev (.complete elem)
      ev .unlock
      Prog.modify fun s => { s with served := s.served ++ [(elem, served)] }
      return .ret 0

def isMemcpy (cmd : Nat) : Prop :=
  cmd = RtCmd.memcpy.code ∨ cmd = DrvCmd.cuMemcpy.code ∨ cmd = DrvCmd.cuMemHostAlloc.code

instance (cmd : Nat) : Decidable (isMemcpy cmd) := inferInstanceAs (Decidable (_ ∨ _ ∨ _))

structure IoctlRes where
  halt : Halt
  out : Option (List UInt8)

/-- The end of `hmcuda_ioctl`, once the request was handed on. -/
def finishIoctl (totalResp : Nat) (h : Halt) : DrvM IoctlRes := do
  let e ← Prog.ask
  let s ← Prog.get
  ev (.free .req)
  ev (.free .resp)
  if h = .ret 0 then
    if e.copyOut then
      return ⟨h, some (s.m.dev.eng.mem.read (.resp e.caller) 0 totalResp)⟩
    else
      return ⟨.ret efault, none⟩
  else
    return ⟨h, none⟩

/-- `hmcuda_ioctl` with the driver's own request number. -/
def hmcudaIoctl : DrvM IoctlRes := do
  let e ← Prog.ask
  match e.fetch 0 0 (sizeof reqHeader) with
  | none => return ⟨.ret efault, none⟩
  | some hdr =>
    let cmd := reqHeader.cmdType.get hdr
    match ← getReqSizes cmd with
    | .error r => return ⟨.ret r, none⟩
    | .ok (reqLen, respLen) =>
      match ← buildReqBuf hdr reqLen respLen with
      | .error h => return ⟨h, none⟩
      | .ok (totalReq, totalResp) =>
        let h := (← Prog.get).reqBuf
        if isMemcpy cmd then
          finishIoctl totalResp (← doMemcpyGup cmd totalReq totalResp
            (parseMemcpyArgs cmd (payloadOf h)))
        else
          finishIoctl totalResp (← doSimpleCmd totalReq totalResp)

end HmCuda
