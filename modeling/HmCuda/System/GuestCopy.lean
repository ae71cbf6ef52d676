import HmCuda.System.Memcpy
import HmCuda.System.CopyDirection
import HmCuda.System.RequestDecoding

/-! Copies as the intercept libraries make them: from the call to the bytes it moves, and
what the two copy APIs do to a pinned buffer. -/

namespace HmCuda
open Layout AsyncCopy Ranges

section Pinned
variable {k : Key} {q : QEnv} {c : Context} {r : Resource} {m₀ : ByteMem Space} {o n stream : Nat}

/-- The addresses of a range are found in the pinned buffer `r`, and in no device memory. -/
structure PinnedRange (c : Context) (r : Resource) (o n : Nat) : Prop where
  size : o + n ≤ r.size
  found : ∀ i < n, c.resFind .hostMem (r.handle + o + i) = some r
  device : ∀ i < n, c.resFind .mem (r.handle + o + i) = none
  key : r.handle + r.size < 2 ^ 64
  pointer : r.realPtr ≠ 0 ∧ r.realPtr + r.size < 2 ^ 64

theorem Placed.pinnedRange (hp : Placed c) (hr : r ∈ c.resources .hostMem) (hn : o + n ≤ r.size)
    (hno : ∀ i < n, ¬∃ d ∈ c.resources .mem,
      Inside Resource.handle Resource.size d (r.handle + o + i)) : PinnedRange c r o n where
  size := hn
  found i hi := resFind_hostMem hp hr ⟨by omega, by omega⟩
  device i hi := resFind_mem_outside hp (hno i hi)
  key := (hp.key r hr).2
  pointer := hp.pointer r hr

theorem PinnedRange.resolves (hp : PinnedRange c r o n) {off i : Nat} (hi : off + i < n) :
    add64 (r.handle + o + off) i = r.handle + o + (off + i) ∧
      c.resGet .mem (r.handle + o + (off + i)) = 0 ∧
      c.resFind .hostMem (r.handle + o + (off + i)) = some r ∧
      r.pointer .hostMem (r.handle + o + (off + i)) = r.realPtr + o + off + i ∧
      r.realPtr + o + off + i ≠ 0 := by
  have hsize := hp.size
  have hkey := hp.key
  obtain ⟨hp0, hpw⟩ := hp.pointer
  refine ⟨?_, ?_, hp.found _ hi, ?_, by omega⟩
  · rw [add64_of_lt (by omega), Nat.add_assoc]
  · rw [c.resGet_eq, hp.device _ hi]
    rfl
  · show add64 r.realPtr (r.handle + o + (off + i) - r.handle) = _
    rw [add64_of_lt (by omega)]
    omega

theorem chunkStep_pinnedOut (hc : q.tab.ctxGet k = some c) (hp : PinnedRange c r o n) {off : Nat}
    {ch : Chunk} (hle : off + ch.off < n) (stream tag : Nat) (v : Device) :
    ∃ v', (chunkStep .cuMemcpy .dtoh k (r.handle + o + off) stream ch).run q v = (0, v') ∧
      v'.eng = { v.eng with
        mem := (Dir.dtoh.copy (r.realPtr + o + off + ch.off) tag ch).run v.eng.mem } := by
  obtain ⟨hadd, hmem, hf, hpt, hne⟩ := hp.resolves hle
  simp only [chunkStep, coreCuMemcpyDtohVq, withCtx_run hc, hadd, hmem, hf, hpt, hne, ne_eq,
    not_true_eq_false, if_false, Prog.bind_run, load_run, store_run, logCopy_run]
  exact ⟨_, rfl, rfl⟩

theorem chunksMove_pinnedOut (hc : q.tab.ctxGet k = some c) (hp : PinnedRange c r o n)
    (tag : Nat) :
    ChunksMove .cuMemcpy .dtoh k q m₀ (r.handle + o) n (r.realPtr + o) stream tag := by
  intro off ch hle hlen v cs hcov hi hD
  obtain ⟨v', hrun, heng⟩ := chunkStep_pinnedOut hc hp (show off + ch.off < n by omega) stream tag v
  rw [hrun, heng]
  exact ⟨rfl, hcov.now hi fun x hx => (hD x hx).1⟩

end Pinned

/-! A request of the libraries -/

theorem get_encode {t : CStruct} {left : Nat → UInt8} (vals : List Nat) {p : Nat → UInt8}
    {i v : Nat} (hp : ∀ a < sizeof t, p a = (encode t left vals).getD a 0)
    (hl : vals.length ≤ t.length) (hv : vals[i]? = some v) (hlt : v < 256 ^ (field t i).size) :
    (field t i).get p = v := by
  have h := get_respImage t left vals hl hv
  rw [Nat.mod_eq_of_lt hlt] at h
  rw [← h]
  exact Field.get_congr fun a _ ha => hp a (ha.trans_le (stop_le_sizeof _ _))

theorem get_request {t : CStruct} (vals : List Nat) {p : Nat → UInt8} {i v : Nat}
    (hp : ∀ a < sizeof t, p a = (request t vals).getD a 0) (hl : vals.length ≤ t.length)
    (hv : vals[i]? = some v) (hlt : v < 256 ^ (field t i).size) : (field t i).get p = v :=
  get_encode vals hp hl hv hlt

theorem memReq_memcpyRequest {dst src n kind stream : Nat} {p : Nat → UInt8}
    (hp : ∀ a < sizeof memcpyReq, p a = (memcpyRequest dst src n kind stream).getD a 0)
    (hdst : dst < 2 ^ 64) (hsrc : src < 2 ^ 64) (hn : n < 2 ^ 64) (hk : kind < 2 ^ 32)
    (hs : stream < 2 ^ 64) : memReq p = ⟨dst, src, n, kind, stream⟩ := by
  have hget {i v : Nat} (hv : [dst, src, n, kind, 0, stream][i]? = some v)
      (hlt : v < 256 ^ (field memcpyReq i).size) : (field memcpyReq i).get p = v :=
    get_request _ hp (Nat.le_refl 6) hv hlt
  have h0 := hget (i := 0) rfl hdst
  have h1 := hget (i := 1) rfl hsrc
  have h2 := hget (i := 2) rfl hn
  have h3 := hget (i := 3) rfl hk
  have h5 := hget (i := 5) rfl hs
  simp only [memReq, memcpyReq.dst, memcpyReq.src, memcpyReq.count, memcpyReq.kind,
    memcpyReq.stream, h0, h1, h2, h3, h5]

/-- The request for `n` bytes at the user address `u` and the backend's `dev`. -/
def Dir.request (d : Dir) (u dev n stream : Nat) : List UInt8 :=
  match d with
  | htod => memcpyRequest dev u n 1 stream
  | dtoh => memcpyRequest u dev n 2 stream

theorem Dir.length_request (d : Dir) (u dev n stream : Nat) :
    (d.request u dev n stream).length = sizeof memcpyReq := by
  cases d <;> exact length_encode _ _ _

theorem Dir.memReq_request {d : Dir} {u dev n stream : Nat} {p : Nat → UInt8}
    (hp : ∀ a < sizeof memcpyReq, p a = (d.request u dev n stream).getD a 0)
    (hu : u < 2 ^ 64) (hdev : dev < 2 ^ 64) (hn : n < 2 ^ 64) (hs : stream < 2 ^ 64) :
    (memReq p).args = ⟨u, n, dev, d.kind⟩ ∧ (memReq p).stream = stream := by
  cases d
  · rw [memReq_memcpyRequest hp hdev hu hn (by decide) hs]
    exact ⟨rfl, rfl⟩
  · rw [memReq_memcpyRequest hp hu hdev hn (by decide) hs]
    exact ⟨rfl, rfl⟩

/-- The next request of the process reaches the driver, and goes well there. -/
structure Linked (env : GuestEnv) (g : GuestSt) (pt : Nat → Nat) : Prop where
  transport : g.transport = ⟨false, true⟩
  arg : (env.drv g.sent.length).arg + dispatchLen (sizeof memcpyReq) 0 ≤ taskSize
  smooth : Smooth (env.drv g.sent.length) pt

def GuestEnv.caller (env : GuestEnv) (g : GuestSt) (cmd : Nat) (req : List UInt8) : DrvEnv :=
  (env.drv g.sent.length).calling (dispatchBuf (env.stack g.sent.length) cmd req 0)

section
variable {env : GuestEnv} {g : GuestSt} {pt : Nat → Nat} {m : MemCmd} {d : Dir}
  {u dev n stream real : Nat} {c : Context}

theorem memcpyRequest_built (m : MemCmd) {req : List UInt8} (hlen : req.length = sizeof memcpyReq)
    (harg : (env.drv g.sent.length).arg + dispatchLen (sizeof memcpyReq) 0 ≤ taskSize)
    (ha : ∀ b, (env.drv g.sent.length).kmalloc b = true) :
    ∃ hdr p, Built (env.caller g m.copy.cmd.code req) m.copy hdr p ∧
      ∀ a < sizeof memcpyReq, p a = req.getD a 0 := by
  have hmax : sizeof reqHeader + sizeof memcpyReq ≤ dispatchLen (sizeof memcpyReq) 0 := by decide
  have hfix := CopyCmd.fixed_mem m.copy_ne
  let buf := dispatchBuf (env.stack g.sent.length) m.copy.cmd.code req 0
  have hpay (i : Nat) : (env.caller g m.copy.cmd.code req).fetch i (sizeof reqHeader)
      m.copy.fixed = some fun a => buf (sizeof reqHeader + a) := VarReq.fetch_calling (by omega)
  have hhdr : (env.caller g m.copy.cmd.code req).fetch 0 0 (sizeof reqHeader) =
      some fun a => buf (0 + a) := VarReq.fetch_calling (by omega)
  have hcode := (Call.mk g.transport (env.stack g.sent.length) m.copy.cmd req 0).header
    (env.drv g.sent.length) _ hhdr
  refine ⟨_, _, ⟨hhdr, hcode, fun b _ => ha b, ?_, hpay 2⟩, fun a hlt => ?_⟩
  · rw [hpay]
    rfl
  · exact VarReq.dispatchBuf_payload _ _ _ _ (by omega)

variable (d u dev n stream) in
theorem Linked.built (h : Linked env g pt) (m : MemCmd) (hu : u < 2 ^ 64) (hdev : dev < 2 ^ 64)
    (hn : n < 2 ^ 64) (hs : stream < 2 ^ 64) :
    ∃ hdr p, Built (env.caller g m.copy.cmd.code (d.request u dev n stream)) m.copy hdr p ∧
      (memReq p).args = ⟨u, n, dev, d.kind⟩ ∧ (memReq p).stream = stream := by
  obtain ⟨hdr, p, hb, hp⟩ := memcpyRequest_built m (d.length_request u dev n stream) h.arg
    h.smooth.alloc
  exact ⟨hdr, p, hb, Dir.memReq_request hp hu hdev hn hs⟩

theorem Linked.calling (h : Linked env g pt) (cmd : Nat) (req : List UInt8) :
    Smooth (env.caller g cmd req) pt :=
  ⟨h.smooth.alloc, h.smooth.pin, h.smooth.queue, h.smooth.out, h.smooth.ret⟩

theorem dispatch_opened (h : g.transport = ⟨false, true⟩) (cmd : Cmd) (req : List UInt8) :
    (dispatch cmd req 0).run env g =
      (dispatchResult (dispatchBuf (env.stack g.sent.length) cmd.code req 0) 0
        (hmcudaIoctl.run (env.caller g cmd.code req) g.drv).1,
      { g with
        drv := (hmcudaIoctl.run (env.caller g cmd.code req) g.drv).2
        sent := g.sent ++ [⟨cmd, req⟩] }) := by
  obtain ⟨drv, t, hostMem, handles, funcs, sent⟩ := g
  obtain rfl := h
  rfl

theorem Linked.dispatch_sent (h : Linked env g pt) {tag : Nat}
    (hr : RangeSent m d pt real u tag n (env.drv g.sent.length).caller g.drv
      (hmcudaIoctl.run (env.caller g m.copy.cmd.code (d.request u dev n stream)) g.drv)) :
    (dispatch m.copy.cmd (d.request u dev n stream) 0).run env g = (⟨some 0, none⟩,
      { g with
        drv := (hmcudaIoctl.run (env.caller g m.copy.cmd.code (d.request u dev n stream)) g.drv).2
        sent := g.sent ++ [⟨m.copy.cmd, d.request u dev n stream⟩] }) := by
  have herr (buf : Nat → UInt8) : respHeader.cudaError.get (answered buf
      (hmcudaIoctl.run (env.caller g m.copy.cmd.code (d.request u dev n stream)) g.drv).1.out) =
        0 := by
    rw [hr.out, cudaError_answered]
    exact hr.seen
  rw [dispatch_opened h.transport, dispatchResult, hr.halt]
  simp [herr]

end

end HmCuda
