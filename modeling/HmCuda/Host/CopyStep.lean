import HmCuda.Host.ProcessSpec

/-! One chunk of a host-device copy: on device memory it is one asynchronous copy, on a
pinned buffer the CPU copies, and on neither it fails. -/

namespace HmCuda
open Layout

inductive MemCmd where
  | memcpy | cuMemcpy
  deriving DecidableEq, Repr

def MemCmd.copy : MemCmd → CopyCmd
  | memcpy => .memcpy
  | cuMemcpy => .cuMemcpy

theorem MemCmd.copy_ne (m : MemCmd) : m.copy ≠ .cuMemHostAlloc := by
  cases m <;> simp [copy]

inductive Dir where
  | htod | dtoh
  deriving DecidableEq, Repr

namespace Dir

def kind : Dir → Nat
  | htod => 1
  | dtoh => 2

/-- The asynchronous copy of a chunk from or to the device address `p`. -/
def copy (d : Dir) (p stream : Nat) (ch : Chunk) : AsyncCopy.Copy Space :=
  match d with
  | htod => ⟨(.uva, p), (ch.iov.sp, ch.iov.base), ch.len, stream⟩
  | dtoh => ⟨(ch.iov.sp, ch.iov.base), (.uva, p), ch.len, stream⟩

def fn : Dir → LibFn
  | htod => .cuMemcpyHtoDAsync
  | dtoh => .cuMemcpyDtoHAsync

def call (d : Dir) (p stream : Nat) (ch : Chunk) : LibCall :=
  ⟨d.fn, [(d.copy p stream ch).dst.2, (d.copy p stream ch).src.2, ch.len, stream], []⟩

def async (d : Dir) (p stream : Nat) (ch : Chunk) : QueryM Nat :=
  copyAsync d.fn (d.copy p stream ch).dst (d.copy p stream ch).src ch.len stream

end Dir

/-- What the handler does for one chunk of a range that starts at `dev`. -/
def chunkStep (m : MemCmd) (d : Dir) (k : Key) (dev stream : Nat) (ch : Chunk) : QueryM Nat :=
  match m, d with
  | .memcpy, .htod =>
    coreRuntimeMemcpyHtodVq k (add64 dev ch.off) (ch.iov.sp, ch.iov.base) ch.len stream
  | .memcpy, .dtoh =>
    coreMemcpy k 0 (add64 dev ch.off) ch.len 2 (some (ch.iov.sp, ch.iov.base)) stream
  | .cuMemcpy, .htod =>
    coreCuMemcpyHtodVq k (add64 dev ch.off) (ch.iov.sp, ch.iov.base) ch.len stream
  | .cuMemcpy, .dtoh =>
    coreCuMemcpyDtohVq k (add64 dev ch.off) (ch.iov.sp, ch.iov.base) ch.len stream

def MemCmd.syncs (m : MemCmd) (d : Dir) : Bool := m = .memcpy ∧ d = .dtoh

/-- The chunk loop; only device to host of the runtime API synchronizes behind it. -/
def chunkLoop (m : MemCmd) (d : Dir) (k : Key) (dev stream : Nat) (cs : List Chunk) :
    QueryM Nat := do
  let err ← Prog.firstError (chunkStep m d k dev stream) cs
  if m.syncs d then thenSync k stream err else return err

def Dir.req (d : Dir) (dev count stream : Nat) : MemReq :=
  match d with
  | htod => ⟨dev, 0, count, 1, stream⟩
  | dtoh => ⟨0, dev, count, 2, stream⟩

def MemCmd.plan (m : MemCmd) (k : Key) (e : CmdEnv) (r : MemReq) : QueryM Nat :=
  match m with
  | memcpy => memcpyPlan k e r
  | cuMemcpy => cuMemcpyPlan k e r

theorem MemCmd.copy_plan (m : MemCmd) (k : Key) (e : CmdEnv) (p : Nat → UInt8) :
    m.copy.plan k e p = query (m.plan k e (memReq p)) := by
  cases m <;> rfl

/-- The element carries `data` beside a request in `v`, or a response. -/
def Dir.carries (d : Dir) (e : CmdEnv) (v : Iov) (data : List Iov) : Prop :=
  match d with
  | htod => e.elem.outSg = v :: data ∧ v.len = sizeof reqHeader + sizeof memcpyReq ∧
    e.totalOutLen = sum64 (e.elem.outSg.map (·.len))
  | dtoh => e.elem.inSg = data ++ [v]

theorem MemCmd.plan_tile (m : MemCmd) {d : Dir} {e : CmdEnv} {v : Iov} {data : List Iov}
    (hd : d.carries e v data) (hne : data ≠ []) (hpos : ∀ w ∈ data, 0 < w.len)
    (hlt : sizeof reqHeader + sizeof memcpyReq + totalLen data < 2 ^ 64) (k : Key)
    (dev stream : Nat) : m.plan k e (d.req dev (totalLen data) stream) =
      chunkLoop m d k dev stream (tile 0 data) := by
  cases d with
  | htod =>
    have hin := copyInPlan_tile hne hpos hlt hd.1 hd.2.1 hd.2.2
    cases m with
    | memcpy => exact hin _
    | cuMemcpy => exact hin _
  | dtoh =>
    have hout := copyOutPlan_tile hne hpos hlt hd
    cases m with
    | memcpy => exact hout _ _
    | cuMemcpy => exact hout _ _

section
variable {m : MemCmd} {d : Dir} {k : Key} {dev stream : Nat} {ch : Chunk} {q : QEnv}
  {v : Device} {c : Context}

theorem resolveRuntimeStream_eq (c : Context) (h : Nat) :
    resolveRuntimeStream c h = resolveStream c h := rfl

@[simp] theorem withCtx_run {α : Type} {missing : α} {f : Context → QueryM α}
    (h : q.tab.ctxGet k = some c) : (withCtx k missing f).run q v = (f c).run q v := by
  simp [withCtx, h]

theorem chunkStep_none (h : q.tab.ctxGet k = none) :
    (chunkStep m d k dev stream ch).run q v = (3, v) := by
  cases m <;> cases d <;>
    simp [chunkStep, coreRuntimeMemcpyHtodVq, coreMemcpy, coreCuMemcpyHtodVq, coreCuMemcpyDtohVq,
      withCtx, h]

theorem chunkStep_mem (hc : q.tab.ctxGet k = some c)
    (hp : c.resGet .mem (add64 dev ch.off) ≠ 0) :
    (chunkStep m d k dev stream ch).run q v =
      (d.async (c.resGet .mem (add64 dev ch.off)) (resolveStream c stream) ch).run q v := by
  cases m <;> cases d
  · simp only [chunkStep, coreRuntimeMemcpyHtodVq, withCtx_run hc, if_neg hp]
    rfl
  · simp only [chunkStep, coreMemcpy, withCtx_run hc]
    simp [hp]
    rfl
  · simp only [chunkStep, coreCuMemcpyHtodVq, withCtx_run hc]
    simp [hp]
    rfl
  · simp only [chunkStep, coreCuMemcpyDtohVq, withCtx_run hc]
    simp [hp]
    rfl

theorem chunkStep_runtime_other (hc : q.tab.ctxGet k = some c)
    (hp : c.resGet .mem (add64 dev ch.off) = 0) :
    (chunkStep .memcpy d k dev stream ch).run q v = (1, v) := by
  cases d
  · simp only [chunkStep, coreRuntimeMemcpyHtodVq, withCtx_run hc, if_pos hp, Prog.pure_run]
  · simp only [chunkStep, coreMemcpy, withCtx_run hc]
    simp [hp]

theorem copyAsync_pending {fn : LibFn} {dst src : Space × Nat} {len stream : Nat}
    {x : AsyncCopy.Copy Space}
    (h : x ∈ ((copyAsync fn dst src len stream).run q v).2.eng.pending) : x ∈ v.eng.pending ∨
      (((copyAsync fn dst src len stream).run q v).1 = 0 ∧ x = ⟨dst, src, len, stream⟩) := by
  have hsub := AsyncCopy.Engine.finishMany_pending_subset _ _ h
  by_cases h0 : (q.env.ret v.clock ⟨fn, [dst.2, src.2, len, stream], []⟩).code = 0
  · rw [if_pos h0, AsyncCopy.Engine.submit, List.mem_append, List.mem_singleton] at hsub
    exact hsub.imp_right fun hx => ⟨h0, hx⟩
  · rw [if_neg h0] at hsub
    exact .inl hsub

theorem lib_pending {fn : LibFn} {args : List Nat} {data : List (List UInt8)}
    {x : AsyncCopy.Copy Space} (h : x ∈ ((lib fn args data).run q v).2.eng.pending) :
    x ∈ v.eng.pending := by
  rw [lib_run] at h
  have hsub := AsyncCopy.Engine.finishMany_pending_subset _ _ h
  exact hsub

/-- What a CPU copy between a chunk and the pinned buffer `r` leaves behind: it is logged
unless the buffer for the translated bytes could not be allocated. -/
structure CpuCopied (q : QEnv) (r : Resource) (addr len : Nat) (v : Device)
    (x : Nat × Device) : Prop where
  pending : ∀ y ∈ x.2.eng.pending, y ∈ v.eng.pending
  clock : v.clock ≤ x.2.clock ∧ x.2.clock ≤ v.clock + 1
  copies : (x.1 = 0 ∧ x.2.copies = v.copies ++ [⟨r, addr - r.handle, len⟩]) ∨
    (x.1 ≠ 0 ∧ x.2.copies = v.copies)
  done : (∀ n size, (q.env.ret n ⟨.malloc, [size], []⟩).code = 0) → x.1 = 0

variable (d stream v) in
theorem chunkStep_pinned {r : Resource} (hc : q.tab.ctxGet k = some c)
    (hp : c.resGet .mem (add64 dev ch.off) = 0)
    (hf : c.resFind .hostMem (add64 dev ch.off) = some r)
    (hn : r.pointer .hostMem (add64 dev ch.off) ≠ 0) :
    CpuCopied q r (add64 dev ch.off) ch.len v ((chunkStep .cuMemcpy d k dev stream ch).run q v) := by
  cases d with
  | htod =>
    simp only [chunkStep, coreCuMemcpyHtodVq, withCtx_run hc, hp, ne_eq, not_true_eq_false,
      if_false, hf, hn, Prog.bind_run, load_run, Prog.ite_run]
    have hpend {y : AsyncCopy.Copy Space}
        (hy : y ∈ ((lib .malloc [ch.len] []).run q v).2.eng.pending) : y ∈ v.eng.pending :=
      lib_pending hy
    by_cases hb : bufferNeedsHostPtrPatch c (v.eng.mem.read ch.iov.sp ch.iov.base ch.len) = true
    · rw [if_pos hb, alloc, Prog.bind_run, lib_run]
      by_cases ha : (q.env.ret v.clock ⟨.malloc, [ch.len], []⟩).code = 0
      · simp only [ha, Prog.pure_run, decide_true, if_true, store_run, logCopy_run]
        exact ⟨fun y hy => hpend hy, ⟨Nat.le_succ _, le_rfl⟩, .inl ⟨rfl, rfl⟩, fun _ => rfl⟩
      · simp only [ha, Prog.pure_run, decide_false, Bool.false_eq_true, if_false]
        exact ⟨fun y hy => hpend hy, ⟨Nat.le_succ _, le_rfl⟩, .inr ⟨by simp, rfl⟩,
          fun h => absurd (h _ _) ha⟩
    · rw [if_neg hb]
      exact ⟨fun y hy => hy, ⟨le_rfl, Nat.le_succ _⟩, .inl ⟨rfl, rfl⟩, fun _ => rfl⟩
  | dtoh =>
    simp only [chunkStep, coreCuMemcpyDtohVq, withCtx_run hc, hp, ne_eq, not_true_eq_false,
      if_false, hf, hn, Prog.bind_run, load_run]
    exact ⟨fun y hy => hy, ⟨le_rfl, Nat.le_succ _⟩, .inl ⟨rfl, rfl⟩, fun _ => rfl⟩

theorem chunkStep_dead (hc : q.tab.ctxGet k = some c)
    (hp : c.resGet .mem (add64 dev ch.off) = 0)
    (hh : c.resGet .hostMem (add64 dev ch.off) = 0) :
    (chunkStep m d k dev stream ch).run q v = (1, v) := by
  cases m with
  | memcpy => exact chunkStep_runtime_other hc hp
  | cuMemcpy =>
    rcases hf : c.resFind .hostMem (add64 dev ch.off) with _ | r
    · cases d <;> simp [chunkStep, coreCuMemcpyHtodVq, coreCuMemcpyDtohVq, withCtx_run hc, hp, hf]
    · rw [Context.resGet_eq, hf, Option.map_some, Option.getD_some] at hh
      cases d <;>
        simp [chunkStep, coreCuMemcpyHtodVq, coreCuMemcpyDtohVq, withCtx_run hc, hp, hf, hh]

end
end HmCuda
