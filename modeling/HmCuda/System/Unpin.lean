import HmCuda.Driver.Scatter
import HmCuda.Host.Frame
import Mathlib.Logic.Relation

/-! Whether pages are unpinned under a transfer that is still pending. Batches of any
number of callers interleave on one backend; a run is safe when every batch of it
enqueues nothing on guest pages or waits for what it enqueued. -/

namespace HmCuda
open Layout AsyncCopy

def touches (pfns : List Nat) (c : Copy Space) : Prop :=
  ∃ x ∈ c.dsts ++ c.srcs, x.1 = .ram ∧ x.2 / pageSize ∈ pfns

theorem onRam_of_touches {pfns : List Nat} {c : Copy Space} (h : touches pfns c) : onRam c := by
  obtain ⟨x, hx, hram, -⟩ := h
  rcases List.mem_append.mp hx with hx | hx <;> obtain ⟨i, -, rfl⟩ := List.mem_map.mp hx
  · exact .inl hram
  · exact .inr hram

/-- An unpin meets no pending copy that touches its pages. -/
def SafeUnpin : Ev → Prop
  | .unpin pfns pending => ∀ c ∈ pending, ¬touches pfns c
  | _ => True

theorem RamFree.safeUnpin {d : Device} (h : RamFree d) (pfns : List Nat) :
    SafeUnpin (.unpin pfns d.eng.pending) := fun c hc ht => h c hc (onRam_of_touches ht)

theorem safeUnpin_of_none {evs : List Ev} (h : ∀ pfns p, Ev.unpin pfns p ∉ evs) :
    ∀ x ∈ evs, SafeUnpin x := by
  intro x hx
  cases x with
  | unpin pfns p => exact absurd hx (h pfns p)
  | _ => trivial

/-! One batch -/

section
variable (m : MemCmd) (d : Dir) (q : QEnv) (c : Context) (dev stream : Nat)

/-- The loop ends before CUDA takes a copy: each chunk that is in device memory is
refused, at any call count from `lo` to `hi`; the chunks before it are not in device memory. -/
def Untaken : Nat → Nat → List Chunk → Prop
  | _, _, [] => True
  | lo, hi, ch :: cs =>
    let p := c.resGet .mem (add64 dev ch.off)
    if p ≠ 0 then
      ∀ n, lo ≤ n → n ≤ hi → (q.env.ret n (d.call p (resolveStream c stream) ch)).code ≠ 0
    else m = .memcpy ∨ c.resGet .hostMem (add64 dev ch.off) = 0 ∨ Untaken lo (hi + 1) cs

/-- CUDA takes the copy of every chunk, and the synchronize behind them. -/
def Accepted : Nat → List Chunk → Prop
  | n, [] => (q.env.ret n ⟨.cudaStreamSynchronize, [resolveStream c stream], []⟩).code = 0
  | n, ch :: cs =>
    let p := c.resGet .mem (add64 dev ch.off)
    p ≠ 0 ∧ (q.env.ret n (d.call p (resolveStream c stream) ch)).code = 0 ∧ Accepted (n + 1) cs

end

section
variable {m : MemCmd} {d : Dir} {k : Key} {dev stream : Nat} {q : QEnv} {v : Device} {c : Context}
  {cs : List Chunk}

theorem async_run (d : Dir) (p s : Nat) (ch : Chunk) :
    (d.async p s ch).run q v = ((q.env.ret v.clock (d.call p s ch)).code,
      v.step q.env (d.call p s ch) (if (q.env.ret v.clock (d.call p s ch)).code = 0
        then v.eng.submit (d.copy p s ch) else v.eng)) := by
  cases d <;> rfl

theorem untaken_pending {lo hi : Nat} (hc : q.tab.ctxGet k = some c)
    (hu : Untaken m d q c dev stream lo hi cs) (hlo : lo ≤ v.clock) (hhi : v.clock ≤ hi) :
    ∀ x ∈ ((Prog.firstError (chunkStep m d k dev stream) cs).run q v).2.eng.pending,
      x ∈ v.eng.pending := by
  induction cs generalizing hi v with
  | nil => exact fun x hx => hx
  | cons ch cs ih =>
    rw [Prog.firstError_cons]
    rw [Untaken] at hu
    by_cases hp : c.resGet .mem (add64 dev ch.off) = 0
    · rw [if_neg (not_not.mpr hp)] at hu
      by_cases hh : c.resGet .hostMem (add64 dev ch.off) = 0
      · rw [chunkStep_dead hc hp hh]
        exact fun x hx => hx
      cases m with
      | memcpy =>
        rw [chunkStep_runtime_other hc hp]
        exact fun x hx => hx
      | cuMemcpy =>
        have hrest := (hu.resolve_left (by simp)).resolve_left hh
        rcases hf : c.resFind .hostMem (add64 dev ch.off) with _ | r
        · rw [Context.resGet_eq, hf] at hh
          exact absurd rfl hh
        · rw [Context.resGet_eq, hf] at hh
          have hcpu := chunkStep_pinned d stream v hc hp hf hh
          split
          · exact hcpu.pending
          · exact fun x hx => hcpu.pending x
              (ih hrest (hlo.trans hcpu.clock.1) (hcpu.clock.2.trans (Nat.succ_le_succ hhi)) x hx)
    · rw [if_pos hp] at hu
      have hne := hu v.clock hlo hhi
      rw [chunkStep_mem hc hp, async_run, if_pos hne]
      exact fun x hx => Engine.finishMany_pending_subset _ _ (by rwa [if_neg hne] at hx)

theorem accepted_pending (hc : q.tab.ctxGet k = some c)
    (ha : Accepted d q c dev stream v.clock cs) :
    let r := (Prog.firstError (chunkStep m d k dev stream) cs).run q v
    r.1 = 0 ∧ (q.env.ret r.2.clock ⟨.cudaStreamSynchronize, [resolveStream c stream], []⟩).code = 0 ∧
      ∀ x ∈ r.2.eng.pending, x ∈ v.eng.pending ∨ x.tag = resolveStream c stream := by
  induction cs generalizing v with
  | nil => exact ⟨rfl, ha, fun x hx => .inl hx⟩
  | cons ch cs ih =>
    obtain ⟨hp, h0, hrest⟩ := ha
    rw [Prog.firstError_cons, chunkStep_mem hc hp, async_run, if_pos h0, h0,
      if_neg (by simp)]
    obtain ⟨h1, h2, h3⟩ := ih (v := v.step q.env _ _) hrest
    refine ⟨h1, h2, fun x hx => ?_⟩
    rcases h3 x hx with hx | hx
    · have hsub := Engine.finishMany_pending_subset _ _ hx
      rw [Engine.submit, List.mem_append, List.mem_singleton] at hsub
      refine hsub.imp_right fun hx => ?_
      rw [hx]
      cases d <;> rfl
    · exact .inr hx

theorem streamSync_pending {fn : LibFn} {stream : Nat} {x : Copy Space}
    (hx : x ∈ ((streamSync fn stream).run q v).2.eng.pending) : x ∈ v.eng.pending ∧
      ((q.env.ret v.clock ⟨fn, [stream], []⟩).code = 0 → x.tag ≠ stream) := by
  rw [streamSync, sync_run] at hx
  have hsub := Engine.finishMany_pending_subset _ _ hx
  split at hsub
  next =>
    rw [Engine.drain, List.mem_filter] at hsub
    exact ⟨hsub.1, fun _ => by simpa using hsub.2⟩
  next h0 => exact ⟨hsub, fun h => absurd h h0⟩

/-- The loop leaves no copy behind: it enqueues none, or waits for all of them. -/
def Settled (m : MemCmd) (d : Dir) (q : QEnv) (k : Key) (dev stream n : Nat) (cs : List Chunk) :
    Prop :=
  ∀ c, q.tab.ctxGet k = some c → Untaken m d q c dev stream n n cs ∨
    (m.syncs d = true ∧ Accepted d q c dev stream n cs)

variable (m d dev stream v cs) in
theorem firstError_none (h : q.tab.ctxGet k = none) : ∃ err,
    (Prog.firstError (chunkStep m d k dev stream) cs).run q v = (err, v) := by
  cases cs with
  | nil => exact ⟨0, rfl⟩
  | cons ch cs =>
    rw [Prog.firstError_cons, chunkStep_none h]
    exact ⟨3, rfl⟩

theorem settled_pending (h : Settled m d q k dev stream v.clock cs) :
    ∀ x ∈ ((chunkLoop m d k dev stream cs).run q v).2.eng.pending, x ∈ v.eng.pending := by
  intro x hx
  rw [chunkLoop, Prog.bind_run, Prog.ite_run] at hx
  rcases hc : q.tab.ctxGet k with _ | c
  · obtain ⟨err, hf⟩ := firstError_none m d dev stream v cs hc
    simp only [hf, thenSync, Prog.ite_run, coreStreamSynchronize, withCtx, hc, Prog.pure_run] at hx
    split at hx
    · split at hx <;> exact hx
    · exact hx
  -- a synchronize only takes copies away
  have hsync {w : Device} {err : Nat}
      (hx : x ∈ ((thenSync k stream err).run q w).2.eng.pending) : x ∈ w.eng.pending ∧
        (err = 0 → (q.env.ret w.clock ⟨.cudaStreamSynchronize, [resolveStream c stream], []⟩).code
          = 0 → x.tag ≠ resolveStream c stream) := by
    rw [thenSync, Prog.ite_run] at hx
    split at hx
    · rw [coreStreamSynchronize, withCtx_run hc, resolveRuntimeStream_eq] at hx
      exact (streamSync_pending hx).imp_right fun h _ => h
    next h0 => exact ⟨hx, fun h => absurd (by simp [h]) h0⟩
  rcases h c hc with hu | ⟨hs, ha⟩
  · apply untaken_pending hc hu le_rfl le_rfl
    split at hx
    · exact (hsync hx).1
    · exact hx
  · rw [if_pos hs] at hx
    obtain ⟨h1, h2, h3⟩ := accepted_pending (m := m) hc ha
    obtain ⟨hx1, hx2⟩ := hsync hx
    exact (h3 x hx1).resolve_right (hx2 h1 h2)

end

/-! Runs of many callers -/

structure Asks (c : CopyCmd) (a : MemcpyArgs) (stream : Nat) (buf : Nat → UInt8) : Prop where
  code : reqHeader.cmdType.get buf = c.cmd.code
  req : c ≠ .cuMemHostAlloc → CopyReq c a.kind stream buf ∧ a.totalCount < 2 ^ 64

/-- A caller in its copy loop: the ioctl, the offset of the next batch, and its request
buffer. -/
structure Caller where
  env : DrvEnv
  cmd : CopyCmd
  args : MemcpyArgs
  stream : Nat
  off : Nat
  buf : Nat → UInt8
  asks : Asks cmd args stream buf

namespace Caller

def enter (x : Caller) (s : DrvSt) : DrvSt := { s with reqBuf := x.buf }

theorem enter_self (x : Caller) (s : DrvSt) (h : x.buf = s.reqBuf) : x.enter s = s := by
  rw [enter, h]

def batch (x : Caller) (s : DrvSt) : Except Halt Nat × DrvSt :=
  (gupBatch x.cmd.cmd.code (sizeof reqHeader + x.cmd.fixed) (sizeof respHeader) x.args x.off).run
    x.env (x.enter s)

/-- A batch of the caller leaves no transfer of guest pages behind: a pinned allocation
is filled by the CPU, another kind moves device memory only, and otherwise the copies
are not taken, or are waited for. -/
def Settles (x : Caller) (s : DrvSt) : Prop :=
  x.cmd = .cuMemHostAlloc ∨ ¬(x.args.kind = 1 ∨ x.args.kind = 2) ∨
    ∃ (m : MemCmd) (d : Dir), x.cmd = m.copy ∧ x.args.kind = d.kind ∧ ∀ pfns,
      Ready x.env x.args x.off pfns →
      Settled m d ⟨x.env.sys, s.m.tab⟩ x.env.key (add64 x.args.devPtr x.off) x.stream
        s.m.dev.clock (tile 0 (batchData x.args x.off pfns))

end Caller

/-- What can happen next: a batch of a caller, the DMA engine finishes a copy, a caller
does what does not reach the queue, or a caller that has left the mutex unpins. -/
inductive CopyStep (ok : Caller → DrvSt → Prop) : DrvSt → DrvSt → Prop
  | batch (x : Caller) (s : DrvSt) (h : ok x s) : CopyStep ok s (x.batch s).2
  | dma (s : DrvSt) (i : Nat) :
    CopyStep ok s { s with m := { s.m with dev := { s.m.dev with eng := s.m.dev.eng.finish i } } }
  | quiet (s s' : DrvSt) (caller : Nat) (h : s.Quiet caller s') : CopyStep ok s s'
  | unpin (e : DrvEnv) (s : DrvSt) (pfns : List Nat) : CopyStep ok s ((unpin pfns).run e s).2

/-- No transfer of guest pages is pending, and none was when pages were unpinned. -/
structure Safe (s : DrvSt) : Prop where
  pending : RamFree s.m.dev
  unpins : ∀ x ∈ s.evs, SafeUnpin x

theorem RamFree.deliver {m : Machine} (h : RamFree m.dev) (env : Env) (ws : List RespWrite) :
    RamFree (m.deliver env ws).dev :=
  h.mono fun _ hx => Engine.finishMany_pending_subset _ _ hx

section
variable {x : Caller} {s s' : DrvSt} {pfns : List Nat} {served : Served}

theorem Batched.ramFree (hb : Batched x.env x.cmd x.args x.off (x.enter s) pfns served s')
    (hx : x.Settles s) (h : RamFree s.m.dev) :
    RamFree ((batchPlan x.env x.cmd x.args x.off (x.enter s) pfns).run x.env.sys
      ((x.enter s).shown x.env x.cmd x.args x.off)).2.dev := by
  have hshown : RamFree ((x.enter s).shown x.env x.cmd x.args x.off).dev := h
  rcases hx with hc | hk | ⟨m, d, hc, hk, hs⟩
  · rw [batchPlan, hc]
    exact ramFree_cuMemHostAlloc _ _ _ _ _ hshown
  · by_cases hc : x.cmd = .cuMemHostAlloc
    · rw [batchPlan, hc]
      exact ramFree_cuMemHostAlloc _ _ _ _ _ hshown
    obtain ⟨m, hm⟩ : ∃ m : MemCmd, x.cmd = m.copy := by
      cases hcmd : x.cmd with
      | memcpy => exact ⟨.memcpy, rfl⟩
      | cuMemcpy => exact ⟨.cuMemcpy, rfl⟩
      | cuMemHostAlloc => exact absurd hcmd hc
    obtain ⟨hr, ht⟩ := x.asks.req hc
    have hreq := memReq_batchPayload (e := x.env) (s := x.enter s) x.off pfns
      hc hr ht
    have hkind : (batchMemReq x.args x.stream x.off).kind = x.args.kind := by
      unfold batchMemReq
      split <;> rfl
    rw [batchPlan, show x.cmd.plan = m.copy.plan by rw [hm], m.copy_plan, hreq]
    exact keeps_query (ramFree_otherKind m _ _ _ (hkind ▸ hk)) _ _ hshown
  · obtain ⟨hr, ht⟩ := x.asks.req (hc ▸ m.copy_ne)
    have hplan := batchPlan_mem (e := x.env) (s := x.enter s) (m := m) hk
      (hc ▸ hr) ht hb.ready
    rw [hc, hplan]
    exact hshown.mono (settled_pending (hs pfns hb.ready))

theorem Safe.batch (h : Safe s) (hx : x.Settles s) : Safe (x.batch s).2 := by
  rcases hg : x.batch s with ⟨r, s'⟩
  rcases gupBatch_step (s := x.enter s) x.asks.code hg with ⟨_, -, -, hu, -⟩ | ⟨pfns, served, hb, -⟩
  · obtain ⟨evs, he, hp⟩ := hu.evs
    refine ⟨by rw [RamFree, hu.m]; exact h.pending, fun y hy => ?_⟩
    rw [he] at hy
    rcases List.mem_append.mp hy with hy | hy
    · exact h.unpins y hy
    · cases y with
      | unpin pfns p =>
        rw [hp pfns p hy]
        exact h.pending.safeUnpin pfns
      | _ => trivial
  · have hfree := (hb.ramFree hx h.pending).deliver x.env.sys served.writes
    refine ⟨by rw [hb.post]; exact hfree, fun y hy => ?_⟩
    rw [hb.post, DrvSt.afterBatch] at hy
    rcases List.mem_append.mp hy with hy | hy
    · exact h.unpins y hy
    · simp only [List.mem_cons, List.not_mem_nil, or_false] at hy
      rcases hy with rfl | rfl | rfl | rfl | rfl | rfl
      case inr.inr.inr.inr.inr => exact hfree.safeUnpin pfns
      all_goals trivial

theorem Safe.step (h : Safe s) (hst : CopyStep Caller.Settles s s') : Safe s' := by
  cases hst with
  | batch x _ hx => exact h.batch hx
  | dma _ i => exact ⟨h.pending.mono fun _ hc => Engine.finish_pending_subset _ i hc, h.unpins⟩
  | quiet _ _ caller hq =>
    obtain ⟨f, hm⟩ := hq.m
    obtain ⟨evs, he, hn⟩ := hq.evs
    refine ⟨by rw [RamFree, hm]; exact h.pending, fun y hy => ?_⟩
    rw [he] at hy
    exact (List.mem_append.mp hy).elim (h.unpins y) (safeUnpin_of_none hn y)
  | unpin e _ pfns =>
    refine ⟨h.pending, fun y hy => ?_⟩
    rcases List.mem_append.mp hy with hy | hy
    · exact h.unpins y hy
    · rw [List.mem_singleton.mp hy]
      exact h.pending.safeUnpin pfns

end

/-- In a run whose batches all settle what they enqueue, no page is unpinned under a
pending transfer. -/
theorem unpins_safe_of_settled {s s' : DrvSt} (hs : Safe s)
    (hr : Relation.ReflTransGen (CopyStep Caller.Settles) s s') : Safe s' := by
  induction hr with
  | refl => exact hs
  | tail _ hst ih => exact ih.step hst

/-! An ioctl as such a run -/

section
variable {e : DrvEnv} {c : CopyCmd} {a : MemcpyArgs} {stream : Nat} {ok : Caller → DrvSt → Prop}

theorem Asks.batchReq {buf : Nat → UInt8} (h : Asks c a stream buf) (off : Nat) :
    Asks c a stream (batchReq c.cmd.code a off buf) :=
  ⟨(cmdType_withPayload _ _).trans h.code,
    fun hc => ⟨(h.req hc).1.batchReq hc, (h.req hc).2⟩⟩

theorem asks_reqImage {hdr : Nat → UInt8} (p : Nat → UInt8)
    (hcode : reqHeader.cmdType.get hdr = c.cmd.code) :
    Asks c (copyArgs c hdr p) (memReq p).stream (reqImage hdr p c.fixed) := by
  refine ⟨?_, fun hc => ?_⟩
  · rw [← hcode]
    exact Field.get_congr fun _ _ ha => if_pos (ha.trans_le (stop_le_sizeof reqHeader 0))
  · rw [copyArgs_mem hc, MemReq.args_kind, MemReq.args_totalCount]
    exact ⟨copyReq_reqImage hc hdr p hcode, memReq_count_lt p⟩

theorem copyLoop_steps (hok : ∀ x s, ok x s) {s : DrvSt} (hs : Asks c a stream s.reqBuf) :
    Relation.ReflTransGen (CopyStep ok) s ((copyLoop c a).run e s).2 := by
  -- one iteration is a step, and the request buffer keeps the request
  have step (off : Nat) (t : DrvSt) (ht : Asks c a stream t.reqBuf) :
      CopyStep ok t ((gupBatch c.cmd.code (sizeof reqHeader + c.fixed) (sizeof respHeader) a
        off).run e t).2 := by
    have hst := CopyStep.batch ⟨e, c, a, stream, off, t.reqBuf, ht⟩ t (hok _ _)
    rw [Caller.batch, Caller.enter_self _ t rfl] at hst
    dsimp only at hst
    exact hst
  refine gupLoop_rule
    (I := fun _ t => Asks c a stream t.reqBuf ∧ Relation.ReflTransGen (CopyStep ok) s t)
    (Q := fun _ t => Relation.ReflTransGen (CopyStep ok) s t) (fun off t n hlt hI hn => ?_)
    (fun off t h _ hI _ => hI.2.tail (step off t hI.1)) (fun t hI => hI.2) (Nat.zero_le _)
    (by omega) ⟨hs, .refl⟩
  have hst := step off t hI.1
  rcases hg : (gupBatch c.cmd.code (sizeof reqHeader + c.fixed) (sizeof respHeader) a off).run e
    t with ⟨r, t'⟩
  rw [hg] at hn hst
  rcases gupBatch_step hI.1.code hg with ⟨_, h, -⟩ | ⟨pfns, served, hb, h⟩
  · rw [h] at hn
    cases hn
  · dsimp only at hn
    rw [hn] at h
    split at h
    · cases h
    · obtain rfl := Except.ok.inj h
      have hpos := hb.ready.count_pos
      have hle := batchAt_count_rem a off
      refine ⟨by omega, by omega, ?_, hI.2.tail hst⟩
      rw [hb.post]
      exact hI.1.batchReq off

theorem hmcudaIoctl_steps (hok : ∀ x s, ok x s) {hdr : Nat → UInt8}
    (hh : e.fetch 0 0 (sizeof reqHeader) = some hdr)
    (hcode : reqHeader.cmdType.get hdr = c.cmd.code) (s : DrvSt) :
    Relation.ReflTransGen (CopyStep ok) s (hmcudaIoctl.run e s).2 := by
  by_cases hbuilt : ∃ p, Built e c hdr p
  swap
  · obtain ⟨_, -, -, hq⟩ := hmcudaIoctl_unbuilt hh hcode (not_exists.mp hbuilt) s
    exact .single (.quiet s _ e.caller hq)
  obtain ⟨p, hp⟩ := hbuilt
  by_cases ha : e.kmalloc .pages = true ∧ e.kmalloc .sgBatch = true
  swap
  · exact .single (.quiet s _ e.caller (hmcudaIoctl_noLoop hp ha s).2)
  obtain ⟨evs, s', hn, hsame, hrun⟩ := hmcudaIoctl_loop hp ha s
  have hstart : s.Quiet e.caller (s.atLoop e c hdr p evs) :=
    ⟨rfl, rfl, rfl, ⟨_, rfl⟩, evs, rfl, hn⟩
  have hloop := copyLoop_steps (e := e) hok (s := s.atLoop e c hdr p evs) (asks_reqImage p hcode)
  rw [hrun]
  exact ((Relation.ReflTransGen.single (.quiet _ _ _ hstart)).trans hloop).tail
    (.quiet _ _ e.caller ((hsame.trans (finishIoctl_sameBut _ _ e s')).quiet e.caller))

end

def onePage : DrvSt :=
  let entry : Resource := ⟨0x7000, 0x7000, 0x1000⟩
  { DrvSt.start fun _ _ => 0 with
    m := { Machine.start fun _ _ => 0 with
      tab := ⟨[⟨⟨1, 1⟩, fun t => if t = .mem then [entry] else []⟩], 0x10000000⟩ } }

def oneByteOutCaller : Caller where
  env := .quiet .quiet fun _ _ => 0
  cmd := .memcpy
  args := ⟨4096, 1, 0x7000, 2⟩
  stream := 0
  off := 0
  buf := (⟨4096, 0x7000, 1, 2, 0⟩ : MemReq).arg RtCmd.memcpy.code
  asks := ⟨by decide, fun _ => ⟨⟨by decide, by decide, by decide⟩, by decide⟩⟩

theorem unpins_safe_oneByteOut : Safe onePage ∧ Safe (oneByteOutCaller.batch onePage).2 := by
  have h0 : Safe onePage := ⟨by simp [RamFree, onePage, DrvSt.start, Machine.start], by
    simp [onePage, DrvSt.start]⟩
  have hs : oneByteOutCaller.Settles onePage := by
    refine .inr (.inr ⟨.memcpy, .dtoh, rfl, rfl, fun pfns hp c hc => .inr ⟨rfl, ?_⟩⟩)
    obtain rfl := Option.some.inj hc
    obtain rfl := Except.ok.inj hp.pinned
    exact ⟨by decide, rfl, rfl⟩
  exact ⟨h0, unpins_safe_of_settled h0 (.single (.batch _ _ hs))⟩

theorem Batched.unpinned {e : DrvEnv} {c : CopyCmd} {a : MemcpyArgs} {off : Nat} {s s' : DrvSt}
    {pfns : List Nat} {served : Served} (hb : Batched e c a off s pfns served s') :
    Ev.unpin pfns (((batchPlan e c a off s pfns).run e.sys (s.shown e c a off)).2.deliver e.sys
      served.writes).dev.eng.pending ∈ s'.evs := by
  rw [hb.post, DrvSt.afterBatch]
  simp

theorem chunkLoop_single {m : MemCmd} {d : Dir} {k : Key} (dev stream : Nat) (ch : Chunk)
    {q : QEnv} {v : Device} {c : Context} (hs : m.syncs d = false)
    (hc : q.tab.ctxGet k = some c) (hp : c.resGet .mem (add64 dev ch.off) ≠ 0)
    (h0 : (q.env.ret v.clock (d.call (c.resGet .mem (add64 dev ch.off)) (resolveStream c stream)
      ch)).code = 0) (hd : q.env.dma v.clock = []) :
    ((chunkLoop m d k dev stream [ch]).run q v).2.eng.pending =
      v.eng.pending ++ [d.copy (c.resGet .mem (add64 dev ch.off)) (resolveStream c stream) ch] := by
  rw [chunkLoop, Prog.bind_run, Prog.ite_run, hs, if_neg (by simp), Prog.pure_run,
    Prog.firstError_cons, chunkStep_mem hc hp, async_run, if_pos h0, h0, if_neg (by simp),
    Prog.firstError_nil]
  simp only [Device.step_eng, hd]
  rfl

/-- Events are never taken back, so an unpin under a pending copy in the first batch
shows at the end. -/
theorem copyLoop_unsafe {e : DrvEnv} {c : CopyCmd} {a : MemcpyArgs} {stream : Nat} {s : DrvSt}
    (hs : Asks c a stream s.reqBuf) (hpos : 0 < a.totalCount) (hrdy : ∃ pfns, Ready e a 0 pfns)
    (first : ∀ pfns served s', Batched e c a 0 s pfns served s' → ∃ x ∈ s'.evs, ¬SafeUnpin x) :
    ∃ x ∈ ((copyLoop c a).run e s).2.evs, ¬SafeUnpin x := by
  have grows {off : Nat} {t t' : DrvSt} {pfns : List Nat} {served : Served}
      (hb : Batched e c a off t pfns served t')
      (h : (off = 0 → t = s) ∧ (off ≠ 0 → ∃ x ∈ t.evs, ¬SafeUnpin x)) :
      ∃ x ∈ t'.evs, ¬SafeUnpin x := by
    by_cases h0 : off = 0
    · obtain rfl := h0
      obtain rfl := h.1 rfl
      exact first pfns served t' hb
    · obtain ⟨x, hx, hn⟩ := h.2 h0
      rw [hb.post]
      exact ⟨x, List.mem_append_left _ hx, hn⟩
  refine copyLoop_rule (I := fun off t => Asks c a stream t.reqBuf ∧ (off = 0 → t = s) ∧
    (off ≠ 0 → ∃ x ∈ t.evs, ¬SafeUnpin x)) (Q := fun _ t => ∃ x ∈ t.evs, ¬SafeUnpin x)
    (fun _ _ hI => hI.1.code) (fun off t t' _ _ hI hu hn _ => ?_)
    (fun off t t' pfns served _ hI hb _ => ⟨?_, fun h0 => ?_, fun _ => grows hb hI.2⟩)
    (fun off t t' pfns served _ hI hb _ => grows hb hI.2) (fun t hI => hI.2.2 hpos.ne')
    ⟨hs, fun _ => rfl, fun h => absurd rfl h⟩
  · obtain ⟨pfns, hp⟩ := hrdy
    obtain ⟨x, hx, hx'⟩ := hI.2.2 fun h0 => hn pfns (h0 ▸ hp)
    obtain ⟨evs, he, -⟩ := hu.evs
    rw [he]
    exact ⟨x, List.mem_append_left _ hx, hx'⟩
  · rw [hb.post]
    exact hI.1.batchReq off
  · have := hb.ready.count_pos
    omega

def oneByteIn : DrvEnv :=
  .quiet .quiet fun _ => (⟨0x7000, 4096, 1, 1, 0⟩ : MemReq).arg RtCmd.memcpy.code

def oneByteInArgs : MemcpyArgs := ⟨4096, 1, 0x7000, 1⟩

theorem oneByteIn_ready : Ready oneByteIn oneByteInArgs 0 [1] := ⟨rfl, by decide, by decide, rfl⟩

theorem oneByteIn_unsafe {s s' : DrvSt} {pfns : List Nat} {served : Served}
    (hs : Asks .memcpy oneByteInArgs 0 s.reqBuf) (htab : s.m.tab = onePage.m.tab)
    (hb : Batched oneByteIn .memcpy oneByteInArgs 0 s pfns served s') :
    ∃ x ∈ s'.evs, ¬SafeUnpin x := by
  obtain ⟨hr, ht⟩ := hs.req (by decide)
  have hplan : batchPlan oneByteIn .memcpy oneByteInArgs 0 s pfns = query (chunkLoop .memcpy .htod
      ⟨1, 1⟩ 0x7000 0 (tile 0 (batchData oneByteInArgs 0 pfns))) :=
    batchPlan_mem (m := .memcpy) (d := .htod) rfl hr ht hb.ready
  obtain rfl := hb.ready.unique oneByteIn_ready
  have hlist : tile 0 (batchData oneByteInArgs 0 [1]) = [⟨0, ⟨.ram, 4096, 1⟩, 1⟩] := by
    decide +kernel
  have hctx : s.m.tab.ctxGet ⟨1, 1⟩ = some ⟨⟨1, 1⟩, fun t => if t = .mem then
      [⟨0x7000, 0x7000, 0x1000⟩] else []⟩ := by rw [htab]; rfl
  have hpend := chunkLoop_single (m := .memcpy) (d := .htod) (k := ⟨1, 1⟩) 0x7000 0
    ⟨0, ⟨.ram, 4096, 1⟩, 1⟩ (q := ⟨.quiet, s.m.tab⟩)
    (v := (s.shown oneByteIn .memcpy oneByteInArgs 0).dev) rfl hctx (by decide) rfl rfl
  refine ⟨_, hb.unpinned, fun hsafe => ?_⟩
  rw [SafeUnpin, deliver_pending rfl, hplan, hlist, query_dev] at hsafe
  have hmem : (⟨(.uva, 0x7000), (.ram, 4096), 1, 0⟩ : Copy Space) ∈
      ((chunkLoop .memcpy .htod ⟨1, 1⟩ 0x7000 0 [⟨0, ⟨.ram, 4096, 1⟩, 1⟩]).run ⟨.quiet, s.m.tab⟩
        (s.shown oneByteIn .memcpy oneByteInArgs 0).dev).2.eng.pending := by
    rw [hpend]
    exact List.mem_append_right _ List.mem_cons_self
  exact hsafe _ hmem ⟨(.ram, 4096), by decide, rfl, by decide⟩

theorem oneByteIn_built : ∃ hdr p, Built oneByteIn .memcpy hdr p ∧
    copyArgs .memcpy hdr p = oneByteInArgs ∧ (memReq p).stream = 0 :=
  ⟨_, _, ⟨rfl, by decide +kernel, fun _ _ => rfl, rfl, rfl⟩, by decide +kernel, by decide +kernel⟩

theorem unpins_not_safe : ¬∀ x ∈ (hmcudaIoctl.run oneByteIn onePage).2.evs, SafeUnpin x := by
  obtain ⟨hdr, p, hp, hargs, hstream⟩ := oneByteIn_built
  have hasks := asks_reqImage p hp.code
  obtain ⟨evs, s', -, hsame, hrun⟩ := hmcudaIoctl_loop hp ⟨rfl, rfl⟩ onePage
  obtain ⟨evs', hs', -⟩ := hsame.trans (finishIoctl_sameBut _ _ oneByteIn s')
  rw [hargs] at hasks hs' hrun
  rw [hstream] at hasks
  obtain ⟨x, hx, hn⟩ : ∃ x ∈ ((copyLoop .memcpy oneByteInArgs).run oneByteIn
      (onePage.atLoop oneByteIn .memcpy hdr p evs)).2.evs, ¬SafeUnpin x := by
    have htab : (onePage.atLoop oneByteIn .memcpy hdr p evs).m.tab = onePage.m.tab := rfl
    exact copyLoop_unsafe hasks (by decide) ⟨[1], oneByteIn_ready⟩
      fun _ _ _ hb => oneByteIn_unsafe hasks htab hb
  intro h
  have hmem : x ∈ (hmcudaIoctl.run oneByteIn onePage).2.evs := by
    rw [hrun, hs']
    exact List.mem_append_left _ hx
  exact hn (h x hmem)

end HmCuda
