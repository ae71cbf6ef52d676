import HmCuda.Driver.Spec
import HmCuda.Host.ProcessSpec

/-! The page-pinning copy loop: one batch is either refused before the queue or
served by the backend, and an invariant of batches is one of the loop. -/

namespace HmCuda
open Layout

/-- The scatter list of the batch at `off`, once its pages are `pfns`. -/
def batchData (a : MemcpyArgs) (off : Nat) (pfns : List Nat) : List Iov :=
  coalesce (batchAt a off).pageOff (batchAt a off).count pfns

/-- The request buffer the batch at `off` is submitted with. -/
def batchReq (cmd : Nat) (a : MemcpyArgs) (off : Nat) (h : Nat → UInt8) : Nat → UInt8 :=
  withPayload h (updateReq cmd a off (batchAt a off).count (payloadOf h))

/-- The batch at `off` is pinned as `pfns` and the queue takes it. -/
structure Ready (e : DrvEnv) (a : MemcpyArgs) (off : Nat) (pfns : List Nat) : Prop where
  pinned : e.pin ((batchAt a off).userAddr / pageSize * pageSize) (batchAt a off).pages
    (a.kind = 2) = .ok pfns
  whole : pfns.length = (batchAt a off).pages
  data : batchData a off pfns ≠ []
  taken : e.addSgs off = none

theorem Ready.unique {e : DrvEnv} {a : MemcpyArgs} {off : Nat} {p q : List Nat}
    (h : Ready e a off p) (h' : Ready e a off q) : p = q :=
  Except.ok.inj (h.pinned.symm.trans h'.pinned)

/-- Nothing reached the queue; pages were unpinned with the copies of before pending. -/
structure DrvSt.Unsent (s s' : DrvSt) : Prop where
  m : s'.m = s.m
  submitted : s'.submitted = s.submitted
  batches : s'.batches = s.batches
  served : s'.served = s.served
  evs : ∃ evs, s'.evs = s.evs ++ evs ∧
    ∀ pfns p, Ev.unpin pfns p ∈ evs → p = s.m.dev.eng.pending

section
variable {cmd tr tp : Nat} {a : MemcpyArgs} {off : Nat} {e : DrvEnv} {s : DrvSt}
  {pfns : List Nat}

@[simp] theorem unpin_run (pfns : List Nat) (e : DrvEnv) (s : DrvSt) : (unpin pfns).run e s =
    ((), { s with evs := s.evs ++ [.unpin pfns s.m.dev.eng.pending] }) := by rfl

variable (cmd tr tp) in
theorem gupBatch_refused (h : ∀ pfns, ¬Ready e a off pfns) :
    ∃ halt, ((gupBatch cmd tr tp a off).run e s).1 = .error halt ∧ halt.Failed ∧
      s.Unsent ((gupBatch cmd tr tp a off).run e s).2 := by
  unfold gupBatch
  rcases h1 : e.pin ((batchAt a off).userAddr / pageSize * pageSize) (batchAt a off).pages
    (a.kind = 2) with err | pfns
  · simp only [Prog.bind_run, Prog.ask_run, h1]
    exact ⟨_, rfl, Halt.failed_ret (Int.negSucc_lt_zero err), rfl, rfl, rfl, rfl, [], by simp, by simp⟩
  by_cases h2 : pfns.length = (batchAt a off).pages
  · by_cases h3 : batchData a off pfns = []
    · have h3' := h3
      unfold batchData at h3'
      simp only [Prog.bind_run, Prog.ask_run, h1, ev_run, h2, ne_eq, not_true_eq_false, if_false,
        h3', if_true]
      exact ⟨_, rfl, nofun, rfl, rfl, rfl, rfl, [.pin pfns], by simp, by simp⟩
    · have h3' := h3
      unfold batchData at h3'
      rcases h4 : e.addSgs off with _ | err
      · exact absurd ⟨h1, h2, h3, h4⟩ (h pfns)
      · simp only [Prog.bind_run, Prog.ask_run, h1, ev_run, h2, ne_eq, not_true_eq_false, if_false,
          h3', setReq_run, h4, unpin_run, Prog.get_run]
        exact ⟨_, rfl, Halt.failed_ret (Int.negSucc_lt_zero err), rfl, rfl, rfl, rfl,
          [.pin pfns, .lock, .unlock, .unpin pfns s.m.dev.eng.pending], by simp, by simp⟩
  · simp only [Prog.bind_run, Prog.ask_run, h1, ev_run, h2, ne_eq, not_false_eq_true, if_true,
      unpin_run]
    exact ⟨_, rfl, Halt.failed_ret (by decide), rfl, rfl, rfl, rfl,
      [.pin pfns, .unpin pfns s.m.dev.eng.pending], by simp, by simp⟩

def DrvSt.afterBatch (s : DrvSt) (caller off : Nat) (pfns : List Nat) (elem : Elem)
    (h : Nat → UInt8) (served : Served) (m : Machine) : DrvSt where
  m := m
  reqBuf := h
  evs := s.evs ++ [.pin pfns, .lock, .submit elem, .complete elem, .unlock,
    .unpin pfns m.dev.eng.pending]
  submitted := s.submitted ++ [(elem, h)]
  batches := s.batches ++ [⟨off, pfns, elem, served,
    respHeader.cudaError.get (m.dev.eng.mem (.resp caller))⟩]
  served := s.served

/-- The backend meets the machine of `s` and the request of this batch. -/
theorem serve_batch {o : Option Served} {m : Machine}
    (hp : (processElem e.key (memcpyElem e.caller tr tp a.kind (batchData a off pfns))).run e.sys
      (s.m.setMem (.req e.caller) (batchReq cmd a off s.reqBuf)) = (o, m)) (t : DrvSt)
    (hm : t.m = s.m) (hb : t.reqBuf = batchReq cmd a off s.reqBuf) :
    (serve (memcpyElem e.caller tr tp a.kind (batchData a off pfns))).run e t =
      (o, { t with m := m }) := by
  apply serve_run (r := (o, m))
  rw [hm, hb]
  exact hp

theorem gupBatch_served {served : Served} {m : Machine} (h : Ready e a off pfns)
    (hp : (processElem e.key (memcpyElem e.caller tr tp a.kind (batchData a off pfns))).run e.sys
      (s.m.setMem (.req e.caller) (batchReq cmd a off s.reqBuf)) = (some served, m)) :
    (gupBatch cmd tr tp a off).run e s =
      (if respHeader.cudaError.get (m.dev.eng.mem (.resp e.caller)) ≠ 0 then .error (.ret 0)
        else .ok (off + (batchAt a off).count),
        s.afterBatch e.caller off pfns (memcpyElem e.caller tr tp a.kind (batchData a off pfns))
          (batchReq cmd a off s.reqBuf) served m) := by
  obtain ⟨h1, h2, h3, h4⟩ := h
  have hserve := serve_batch hp
  unfold batchData at h3 hserve
  unfold gupBatch
  simp only [Prog.bind_run, Prog.ask_run, h1, ev_run, h2, ne_eq, not_true_eq_false, if_false,
    h3, setReq_run, h4, Prog.get_run, submit_run]
  rw [hserve]
  case hm => rfl
  case hb => rfl
  by_cases hc : respHeader.cudaError.get (m.dev.eng.mem (.resp e.caller)) = 0
  · simp [hc, DrvSt.afterBatch, batchData, batchReq]
  · simp [hc, DrvSt.afterBatch, batchData, batchReq]

theorem gupBatch_unserved {m : Machine} (h : Ready e a off pfns)
    (hp : (processElem e.key (memcpyElem e.caller tr tp a.kind (batchData a off pfns))).run e.sys
      (s.m.setMem (.req e.caller) (batchReq cmd a off s.reqBuf)) = (none, m)) :
    ((gupBatch cmd tr tp a off).run e s).1 = .error .hang := by
  obtain ⟨h1, h2, h3, h4⟩ := h
  have hserve := serve_batch hp
  unfold batchData at h3 hserve
  unfold gupBatch
  simp only [Prog.bind_run, Prog.ask_run, h1, ev_run, h2, ne_eq, not_true_eq_false, if_false,
    h3, setReq_run, h4, Prog.get_run, submit_run]
  rw [hserve]
  case hm => rfl
  case hb => rfl
  rfl

/-- The loop rule: `I` holds before each batch, `Q` of the way the loop ends. -/
theorem gupLoop_rule {I : Nat → DrvSt → Prop} {Q : Halt → DrvSt → Prop}
    (next : ∀ off s n, off < a.totalCount → I off s →
      ((gupBatch cmd tr tp a off).run e s).1 = .ok n →
      off < n ∧ n ≤ a.totalCount ∧ I n ((gupBatch cmd tr tp a off).run e s).2)
    (stop : ∀ off s h, off < a.totalCount → I off s →
      ((gupBatch cmd tr tp a off).run e s).1 = .error h →
      Q h ((gupBatch cmd tr tp a off).run e s).2)
    (done : ∀ s, I a.totalCount s → Q (.ret 0) s) {fuel : Nat} (hle : off ≤ a.totalCount)
    (hf : a.totalCount < off + fuel) (hs : I off s) :
    Q ((gupLoop cmd tr tp a fuel off).run e s).1 ((gupLoop cmd tr tp a fuel off).run e s).2 := by
  induction fuel generalizing off s with
  | zero => omega
  | succ fuel ih =>
    rw [gupLoop, Prog.ite_run]
    split
    next hlt =>
      rw [Prog.bind_run]
      rcases hb : ((gupBatch cmd tr tp a off).run e s).1 with halt | n
      · exact stop off s halt hlt hs hb
      · obtain ⟨h1, h2, h3⟩ := next off s n hlt hs hb
        exact ih h2 (by omega) h3
    next hge =>
      obtain rfl : off = a.totalCount := by omega
      exact done s hs

theorem Ready.count_pos (h : Ready e a off pfns) : 0 < (batchAt a off).count := by
  by_contra h0
  have h0' : (batchAt a off).count = 0 := by omega
  apply h.data
  unfold batchData coalesce
  rw [h0']
  cases pfns <;> simp [coalesceFrom]

theorem batchAt_count_rem (a : MemcpyArgs) (off : Nat) :
    (batchAt a off).count ≤ a.totalCount - off := min_le_right _ _

end

/-! The request structure of a memcpy batch -/

@[simp] theorem payloadOf_withPayload (h p : Nat → UInt8) : payloadOf (withPayload h p) = p := by
  funext a
  rw [payloadOf, withPayload, if_neg (by omega), Nat.add_sub_cancel_left]

@[simp] theorem cmdType_withPayload (h p : Nat → UInt8) :
    reqHeader.cmdType.get (withPayload h p) = reqHeader.cmdType.get h :=
  Field.get_congr fun _ _ ha => if_pos (ha.trans_le (stop_le_sizeof reqHeader 0))

/-- The request the backend is shown for the batch at `off`. -/
def batchMemReq (a : MemcpyArgs) (stream off : Nat) : MemReq :=
  let dev := add64 a.devPtr off
  if a.kind = 1 then ⟨dev, 0, (batchAt a off).count, a.kind, stream⟩
  else ⟨0, dev, (batchAt a off).count, a.kind, stream⟩

theorem batchAt_count_le (a : MemcpyArgs) (off : Nat) : (batchAt a off).count ≤ a.totalCount :=
  (min_le_right _ _).trans (Nat.sub_le _ _)

theorem memReq_updateReq {cmd : Nat} {a : MemcpyArgs} {off : Nat} {p : Nat → UInt8}
    (hc : cmd ≠ DrvCmd.cuMemHostAlloc.code) (hk : memcpyReq.kind.get p = a.kind)
    (ht : a.totalCount < 2 ^ 64) : memReq (updateReq cmd a off (batchAt a off).count p) =
      batchMemReq a (memcpyReq.stream.get p) off := by
  have hcount : (batchAt a off).count < 256 ^ memcpyReq.count.size :=
    (batchAt_count_le a off).trans_lt ht
  have hdev : add64 a.devPtr off < 256 ^ 8 := add64_lt _ _
  unfold updateReq batchMemReq
  rw [if_neg hc]
  by_cases h1 : a.kind = 1
  · rw [if_pos h1, if_pos h1]
    simp (disch := decide) only [memReq, Field.get_set_ne]
    rw [Field.get_set_of_lt _ hdev, Field.get_set_of_lt _ (by decide), Field.get_set_of_lt _ hcount,
      hk]
  · rw [if_neg h1, if_neg h1]
    simp (disch := decide) only [memReq, Field.get_set_ne]
    rw [Field.get_set_of_lt _ (by decide), Field.get_set_of_lt _ hdev, Field.get_set_of_lt _ hcount,
      hk]

structure CopyReq (c : CopyCmd) (kind stream : Nat) (h : Nat → UInt8) : Prop where
  cmd : reqHeader.cmdType.get h = c.cmd.code
  kind : memcpyReq.kind.get (payloadOf h) = kind
  stream : memcpyReq.stream.get (payloadOf h) = stream

theorem CopyReq.batchReq {c : CopyCmd} {a : MemcpyArgs} {stream off : Nat} {h : Nat → UInt8}
    (hc : c ≠ .cuMemHostAlloc) (hr : CopyReq c a.kind stream h) :
    CopyReq c a.kind stream (batchReq c.cmd.code a off h) := by
  have hne : c.cmd.code ≠ DrvCmd.cuMemHostAlloc.code := by cases c <;> simp_all <;> decide
  refine ⟨(cmdType_withPayload _ _).trans hr.cmd, ?_, ?_⟩
  all_goals
    rw [HmCuda.batchReq, payloadOf_withPayload, updateReq, if_neg hne]
    split <;> simp (disch := decide) only [Field.get_set_ne]
  exacts [hr.kind, hr.kind, hr.stream, hr.stream]

theorem memReq_congr {p q : Nat → UInt8} (h : ∀ a < sizeof memcpyReq, p a = q a) :
    memReq p = memReq q := by
  have hf (i : Nat) : (field memcpyReq i).get p = (field memcpyReq i).get q :=
    Field.get_congr fun a _ ha => h a (ha.trans_le (stop_le_sizeof memcpyReq i))
  simp only [memReq, memcpyReq.dst, memcpyReq.src, memcpyReq.count, memcpyReq.kind,
    memcpyReq.stream, hf]

theorem cmdStart_payload {env : Env} {e : Elem} {m : Machine} {a : Nat}
    (h : payloadOff + a < e.reqLen) : (cmdStart env e m).payload a = payloadOf (e.image m) a := by
  obtain ⟨outSg, inSg⟩ := e
  rcases outSg with _ | ⟨v, vs⟩
  · simp [Elem.reqLen] at h
  · exact if_pos h

namespace CopyCmd

def fixed (c : CopyCmd) : Nat := (c.cmd.sizes none).reqSize

theorem sizes (c : CopyCmd) (p : Option (Nat → UInt8)) : c.cmd.sizes p = ⟨c.fixed, 0⟩ := by
  cases c <;> rfl

theorem fixed_pos (c : CopyCmd) : 0 < c.fixed := by
  cases c <;> decide

theorem isMemcpy (c : CopyCmd) : isMemcpy c.cmd.code := by
  cases c <;> decide

end CopyCmd

/-- The request of a copy was sized, allocated and copied in; `p` is its payload. -/
structure Built (e : DrvEnv) (c : CopyCmd) (hdr p : Nat → UInt8) : Prop where
  header : e.fetch 0 0 (sizeof reqHeader) = some hdr
  code : reqHeader.cmdType.get hdr = c.cmd.code
  alloc : ∀ b ∈ [Buf.fixedReq, .req, .resp], e.kmalloc b = true
  sized : (e.fetch 1 (sizeof reqHeader) c.fixed).isSome
  payload : e.fetch 2 (sizeof reqHeader) c.fixed = some p

theorem Built.unique {e : DrvEnv} {c : CopyCmd} {hdr p q : Nat → UInt8} (h : Built e c hdr p)
    (h' : Built e c hdr q) : p = q := Option.some.inj (h.payload.symm.trans h'.payload)

section
variable {e : DrvEnv} {c : CopyCmd} {hdr p : Nat → UInt8}

def DrvSt.atLoop (s : DrvSt) (e : DrvEnv) (c : CopyCmd) (hdr p : Nat → UInt8) (evs : List Ev) :
    DrvSt :=
  { s with
    m := s.m.setMem (.resp e.caller) fun _ => 0
    reqBuf := reqImage hdr p c.fixed
    evs := s.evs ++ evs }

theorem reqSizes_copy (ha : e.kmalloc .fixedReq = true)
    (h : (e.fetch 1 (sizeof reqHeader) c.fixed).isSome) : reqSizes e c.cmd = .ok (c.fixed, 0) := by
  obtain ⟨q, hq⟩ := Option.isSome_iff_exists.mp h
  simp [reqSizes, c.sizes, c.fixed_pos, ha, hq]

theorem hmcudaIoctl_built (h : Built e c hdr p) (s : DrvSt) :
    ∃ evs, (∀ pfns q, Ev.unpin pfns q ∉ evs) ∧
      let img := reqImage hdr p c.fixed
      let tr := sizeof reqHeader + c.fixed
      let r := (doMemcpyGup c.cmd.code tr (sizeof respHeader)
        (parseMemcpyArgs c.cmd.code (payloadOf img))).run e (s.atLoop e c hdr p evs)
      hmcudaIoctl.run e s = (finishIoctl (sizeof respHeader) r.1).run e r.2 := by
  have hs := reqSizes_copy (h.alloc _ (by simp)) h.sized
  have hb : built e hdr c.fixed = .ok (reqImage hdr p c.fixed) :=
    built_of_fetch ⟨h.alloc _ (by simp), h.alloc _ (by simp)⟩ c.fixed_pos (by cases c <;> decide)
      h.payload
  obtain ⟨h1, x, h2, hx⟩ := getReqSizes_spec c.cmd e s
  obtain ⟨h3, y, h4, hy⟩ := buildReqBuf_ok hb 0 { s with evs := s.evs ++ x }
  refine ⟨x ++ y, by simp [hx, hy], ?_⟩
  have htr : add64 (sizeof reqHeader) c.fixed = sizeof reqHeader + c.fixed := by
    cases c <;> decide
  have htp : add64 (sizeof respHeader) 0 = sizeof respHeader := by decide
  unfold hmcudaIoctl
  simp only [Prog.bind_run, Prog.ask_run, h.header, h.code, h1, h2, hs, h3, h4, Prog.get_run,
    if_pos c.isMemcpy, htr, htp, DrvSt.atLoop, List.append_assoc]

theorem hmcudaIoctl_unbuilt (hh : e.fetch 0 0 (sizeof reqHeader) = some hdr)
    (hc : reqHeader.cmdType.get hdr = c.cmd.code) (h : ∀ p, ¬Built e c hdr p) (s : DrvSt) :
    ∃ err < 0, (hmcudaIoctl.run e s).1.halt = .ret err ∧
      s.Quiet e.caller (hmcudaIoctl.run e s).2 := by
  have refused (err : Int) (hneg : err < 0) (hr : reqSizes e c.cmd = .error err ∨
      ∃ n m, reqSizes e c.cmd = .ok (n, m) ∧ built e hdr n = .error (.ret err)) :
      ∃ err < 0, (hmcudaIoctl.run e s).1.halt = .ret err ∧
        s.Quiet e.caller (hmcudaIoctl.run e s).2 :=
    ⟨err, hneg, hmcudaIoctl_unsent hh hc (hr.imp_left fun h => ⟨err, rfl, h⟩) s⟩
  have hpos := c.fixed_pos
  by_cases h1 : e.kmalloc .fixedReq = true
  swap
  · exact refused enomem (by decide) (.inl (by simp [reqSizes, c.sizes, hpos, h1]))
  by_cases h2 : (e.fetch 1 (sizeof reqHeader) c.fixed).isSome
  swap
  · rw [Option.not_isSome_iff_eq_none] at h2
    exact refused efault (by decide) (.inl (by simp [reqSizes, c.sizes, hpos, h1, h2]))
  have hr := reqSizes_copy h1 h2
  by_cases h3 : e.kmalloc .req = true ∧ e.kmalloc .resp = true
  swap
  · exact refused enomem (by decide) (.inr ⟨_, _, hr, if_neg h3⟩)
  rcases h4 : built e hdr c.fixed with halt | img
  · obtain ⟨rfl, -⟩ := (built_error h3 h4).resolve_left fun h => h.2 (by cases c <;> decide)
    exact refused _ (by decide) (.inr ⟨_, _, hr, h4⟩)
  obtain ⟨p, hp, -⟩ := built_ok h4
  refine absurd ⟨hh, hc, fun b hb => ?_, h2, hp hpos⟩ (h p)
  simp only [List.mem_cons, List.not_mem_nil, or_false] at hb
  rcases hb with rfl | rfl | rfl
  exacts [h1, h3.1, h3.2]

def copyArgs (c : CopyCmd) (hdr p : Nat → UInt8) : MemcpyArgs :=
  parseMemcpyArgs c.cmd.code (payloadOf (reqImage hdr p c.fixed))

def copyLoop (c : CopyCmd) (a : MemcpyArgs) : DrvM Halt :=
  gupLoop c.cmd.code (sizeof reqHeader + c.fixed) (sizeof respHeader) a (a.totalCount + 1) 0

theorem doMemcpyGup_refused (cmd tr tp : Nat) (a : MemcpyArgs) {e : DrvEnv}
    (h : ¬(e.kmalloc .pages = true ∧ e.kmalloc .sgBatch = true)) (s : DrvSt) :
    ((doMemcpyGup cmd tr tp a).run e s).1 = .ret enomem ∧
      s.sameBut ((doMemcpyGup cmd tr tp a).run e s).2 := by
  unfold doMemcpyGup
  by_cases h1 : e.kmalloc .pages = true
  · have h2 : ¬e.kmalloc .sgBatch = true := fun h2 => h ⟨h1, h2⟩
    simp only [Prog.bind_run, kmalloc_run, Prog.ite_run, ev_run, Prog.pure_run, if_pos h1,
      if_neg h2]
    exact ⟨rfl, [.alloc .pages, .free .pages], by simp, by simp⟩
  · simp only [Prog.bind_run, kmalloc_run, Prog.ite_run, Prog.pure_run, if_neg h1]
    exact ⟨rfl, .refl s⟩

theorem doMemcpyGup_run {cmd tr tp : Nat} {a : MemcpyArgs} {e : DrvEnv}
    (h : e.kmalloc .pages = true ∧ e.kmalloc .sgBatch = true) (s : DrvSt) :
    (doMemcpyGup cmd tr tp a).run e s =
      let r := (gupLoop cmd tr tp a (a.totalCount + 1) 0).run e
        { s with evs := s.evs ++ [.alloc .pages, .alloc .sgBatch] }
      (r.1, { r.2 with evs := r.2.evs ++ [.free .sgBatch, .free .pages] }) := by
  unfold doMemcpyGup
  simp only [Prog.bind_run, kmalloc_run, ev_run, Prog.pure_run, h.1, h.2, if_true,
    List.append_assoc, List.singleton_append]

theorem hmcudaIoctl_noLoop (h : Built e c hdr p)
    (ha : ¬(e.kmalloc .pages = true ∧ e.kmalloc .sgBatch = true)) (s : DrvSt) :
    (hmcudaIoctl.run e s).1.halt = .ret enomem ∧ s.Quiet e.caller (hmcudaIoctl.run e s).2 := by
  obtain ⟨evs, hn, hrun⟩ := hmcudaIoctl_built h s
  obtain ⟨h1, h2⟩ := doMemcpyGup_refused c.cmd.code (sizeof reqHeader + c.fixed)
    (sizeof respHeader) (copyArgs c hdr p) ha (s.atLoop e c hdr p evs)
  have hne : Halt.ret enomem ≠ .ret 0 := by decide
  rw [hrun]
  unfold copyArgs at h1 h2
  rw [h1]
  refine ⟨finishIoctl_halt hne e _, ?_⟩
  obtain ⟨x, hx, hxn⟩ := h2.trans (finishIoctl_sameBut (sizeof respHeader) (.ret enomem) e _)
  rw [hx]
  exact ⟨rfl, rfl, rfl, ⟨_, rfl⟩, evs ++ x, by simp [DrvSt.atLoop], by simp [hn, hxn]⟩

theorem hmcudaIoctl_loop (h : Built e c hdr p)
    (ha : e.kmalloc .pages = true ∧ e.kmalloc .sgBatch = true) (s : DrvSt) :
    ∃ evs s', (∀ pfns q, Ev.unpin pfns q ∉ evs) ∧
      let r := (copyLoop c (copyArgs c hdr p)).run e (s.atLoop e c hdr p evs)
      r.2.sameBut s' ∧ hmcudaIoctl.run e s = (finishIoctl (sizeof respHeader) r.1).run e s' := by
  obtain ⟨evs, hn, hrun⟩ := hmcudaIoctl_built h s
  let r := (copyLoop c (copyArgs c hdr p)).run e
    (s.atLoop e c hdr p (evs ++ [.alloc .pages, .alloc .sgBatch]))
  refine ⟨evs ++ [.alloc .pages, .alloc .sgBatch],
    { r.2 with evs := r.2.evs ++ [.free .sgBatch, .free .pages] }, by simp [hn],
    ⟨_, rfl, by simp⟩, ?_⟩
  rw [hrun, doMemcpyGup_run ha]
  simp only [r, copyLoop, copyArgs, DrvSt.atLoop, List.append_assoc]

end

def MemReq.arg (r : MemReq) (cmd : Nat) : Nat → UInt8 := fun a =>
  (Bytes.le 4 cmd ++ Bytes.le 4 0 ++ Bytes.le 8 r.dst ++ Bytes.le 8 r.src ++ Bytes.le 8 r.count ++
    Bytes.le 4 r.kind ++ Bytes.le 4 0 ++ Bytes.le 8 r.stream).getD a 0

def MemReq.args (r : MemReq) : MemcpyArgs :=
  if r.kind = 1 then ⟨r.src, r.count, r.dst, r.kind⟩ else ⟨r.dst, r.count, r.src, r.kind⟩

@[simp] theorem MemReq.args_kind (r : MemReq) : r.args.kind = r.kind := by
  unfold args
  split <;> rfl

@[simp] theorem MemReq.args_totalCount (r : MemReq) : r.args.totalCount = r.count := by
  unfold args
  split <;> rfl

section
variable {c : CopyCmd} (hc : c ≠ .cuMemHostAlloc) (hdr p : Nat → UInt8)
include hc

theorem CopyCmd.fixed_mem : c.fixed = sizeof memcpyReq := by
  cases c <;> simp_all <;> rfl

theorem CopyCmd.code_mem : c.cmd.code ≠ DrvCmd.cuMemHostAlloc.code := by
  cases c <;> simp_all <;> decide

theorem memReq_reqImage : memReq (payloadOf (reqImage hdr p c.fixed)) = memReq p := by
  rw [CopyCmd.fixed_mem hc]
  exact memReq_congr fun _ ha => payloadOf_reqImage hdr p ha

theorem copyArgs_mem : copyArgs c hdr p = (memReq p).args := by
  rw [← memReq_reqImage hc hdr p, copyArgs, parseMemcpyArgs, if_neg (CopyCmd.code_mem hc)]
  rfl

theorem copyReq_reqImage (hcode : reqHeader.cmdType.get hdr = c.cmd.code) :
    CopyReq c (memReq p).kind (memReq p).stream (reqImage hdr p c.fixed) := by
  refine ⟨?_, ?_, ?_⟩
  · rw [← hcode]
    exact Field.get_congr fun _ _ ha => if_pos (ha.trans_le (stop_le_sizeof reqHeader 0))
  · exact MemReq.kind_eq (memReq_reqImage hc hdr p)
  · exact MemReq.stream_eq (memReq_reqImage hc hdr p)

end

/-! A batch that is served -/

@[simp] theorem memcpyElem_reqLen (caller tr tp kind : Nat) (data : List Iov) :
    (memcpyElem caller tr tp kind data).reqLen = tr := by
  unfold memcpyElem
  split <;> rfl

@[simp] theorem memcpyElem_image (caller tr tp kind : Nat) (data : List Iov) (m : Machine)
    (h : Nat → UInt8) :
    (memcpyElem caller tr tp kind data).image (m.setMem (.req caller) h) = h := by
  unfold memcpyElem
  split <;> simp [Elem.image, Machine.setMem]

/-- The batch at `off`, as an element of the queue. -/
def batchElem (e : DrvEnv) (c : CopyCmd) (a : MemcpyArgs) (off : Nat) (pfns : List Nat) : Elem :=
  memcpyElem e.caller (sizeof reqHeader + c.fixed) (sizeof respHeader) a.kind
    (batchData a off pfns)

/-- The backend as it meets the batch at `off`, and the payload it reads. -/
def DrvSt.shown (s : DrvSt) (e : DrvEnv) (c : CopyCmd) (a : MemcpyArgs) (off : Nat) : Machine :=
  s.m.setMem (.req e.caller) (batchReq c.cmd.code a off s.reqBuf)

section
variable {e : DrvEnv} {c : CopyCmd} {a : MemcpyArgs} {off : Nat} {s : DrvSt} {pfns : List Nat}

def batchPayload (e : DrvEnv) (c : CopyCmd) (a : MemcpyArgs) (off : Nat) (s : DrvSt)
    (pfns : List Nat) : Nat → UInt8 :=
  (cmdStart e.sys (batchElem e c a off pfns) (s.shown e c a off)).payload

/-- What the backend runs for the batch at `off`. -/
def batchPlan (e : DrvEnv) (c : CopyCmd) (a : MemcpyArgs) (off : Nat) (s : DrvSt)
    (pfns : List Nat) : CoreM Nat :=
  c.plan e.key (cmdEnv e.sys e.key (batchElem e c a off pfns)) (batchPayload e c a off s pfns)

/-- From `s` to `s'` the batch at `off` was served: its plan ran on the backend and the
response was delivered. -/
structure Batched (e : DrvEnv) (c : CopyCmd) (a : MemcpyArgs) (off : Nat) (s : DrvSt)
    (pfns : List Nat) (served : Served) (s' : DrvSt) : Prop where
  ready : Ready e a off pfns
  err : served.err = ((batchPlan e c a off s pfns).run e.sys (s.shown e c a off)).1 % 2 ^ 32
  payload : served.payload = []
  writes : served.writes = respWrites (c.marks (batchPayload e c a off s pfns))
    (batchElem e c a off pfns).inSg (respBytes c.cmd.code served.err [])
  post : s' = s.afterBatch e.caller off pfns (batchElem e c a off pfns)
    (batchReq c.cmd.code a off s.reqBuf) served
    (((batchPlan e c a off s pfns).run e.sys (s.shown e c a off)).2.deliver e.sys served.writes)

def DrvSt.seen (s : DrvSt) (caller : Nat) : Nat :=
  respHeader.cudaError.get (s.m.dev.eng.mem (.resp caller))

theorem gupBatch_step (hcmd : reqHeader.cmdType.get s.reqBuf = c.cmd.code) {r : Except Halt Nat}
    {s' : DrvSt} (hr : (gupBatch c.cmd.code (sizeof reqHeader + c.fixed) (sizeof respHeader) a
      off).run e s = (r, s')) :
    (∃ halt, r = .error halt ∧ halt.Failed ∧ s.Unsent s' ∧ ∀ pfns, ¬Ready e a off pfns) ∨
    ∃ pfns served, Batched e c a off s pfns served s' ∧
      r = if s'.seen e.caller ≠ 0 then .error (.ret 0) else .ok (off + (batchAt a off).count) := by
  by_cases h : ∃ pfns, Ready e a off pfns
  · obtain ⟨pfns, h⟩ := h
    have hl : sizeof reqHeader ≤ (batchElem e c a off pfns).reqLen := by
      rw [batchElem, memcpyElem_reqLen]
      exact Nat.le_add_right _ _
    have hc : reqHeader.cmdType.get ((batchElem e c a off pfns).image (s.shown e c a off)) =
        c.cmd.code := by
      rw [batchElem, DrvSt.shown, memcpyElem_image, batchReq, cmdType_withPayload, hcmd]
    obtain ⟨served, h1, h2, h3, h4⟩ := processElem_copy c e.key e.sys hl hc
    rw [gupBatch_served h h1, Prod.mk.injEq] at hr
    obtain ⟨rfl, rfl⟩ := hr
    exact .inr ⟨pfns, served, ⟨h, h2, h3, h4.trans (by rw [h2]; rfl), rfl⟩, rfl⟩
  · obtain ⟨halt, h1, h0, h2⟩ := gupBatch_refused c.cmd.code (sizeof reqHeader + c.fixed)
      (sizeof respHeader) (s := s) (not_exists.mp h)
    rw [hr] at h1 h2
    exact .inl ⟨halt, h1, h0, h2, not_exists.mp h⟩

variable (off pfns) in
theorem memReq_batchPayload {stream : Nat} (hc : c ≠ .cuMemHostAlloc)
    (hr : CopyReq c a.kind stream s.reqBuf) (ht : a.totalCount < 2 ^ 64) :
    memReq (batchPayload e c a off s pfns) = batchMemReq a stream off := by
  have hp : memReq (batchPayload e c a off s pfns) =
      memReq (payloadOf (batchReq c.cmd.code a off s.reqBuf)) := by
    refine memReq_congr fun i hi => ?_
    rw [batchPayload, cmdStart_payload, batchElem, DrvSt.shown, memcpyElem_image]
    rw [batchElem, memcpyElem_reqLen, CopyCmd.fixed_mem hc]
    exact Nat.add_lt_add_left hi _
  rw [hp, batchReq, payloadOf_withPayload, memReq_updateReq (CopyCmd.code_mem hc) hr.kind ht, hr.stream]

theorem marks_batchPayload {stream : Nat} (hc : c ≠ .cuMemHostAlloc)
    (hr : CopyReq c a.kind stream s.reqBuf) (ht : a.totalCount < 2 ^ 64) :
    c.marks (batchPayload e c a off s pfns) = decide (a.kind = 2) := by
  have hm := memReq_batchPayload (e := e) off pfns hc hr ht
  cases c with
  | memcpy =>
    simp only [CopyCmd.marks, hm, batchMemReq]
    split <;> simp [*]
  | cuMemcpy =>
    simp only [CopyCmd.marks, hm, batchMemReq]
    split <;> simp [*]
  | cuMemHostAlloc => exact absurd rfl hc

/-- The loop rule over batches: each one stops the loop before the queue, or it is
served, and then the error the driver reads decides whether the loop goes on. -/
theorem copyLoop_rule {I : Nat → DrvSt → Prop} {Q : Halt → DrvSt → Prop}
    (cmd : ∀ off s, I off s → reqHeader.cmdType.get s.reqBuf = c.cmd.code)
    (refused : ∀ off s s' h, off < a.totalCount → I off s → s.Unsent s' →
      (∀ pfns, ¬Ready e a off pfns) → h.Failed → Q h s')
    (served : ∀ off s s' pfns sv, off < a.totalCount → I off s → Batched e c a off s pfns sv s' →
      s'.seen e.caller = 0 → I (off + (batchAt a off).count) s')
    (failed : ∀ off s s' pfns sv, off < a.totalCount → I off s → Batched e c a off s pfns sv s' →
      s'.seen e.caller ≠ 0 → Q (.ret 0) s')
    (done : ∀ s, I a.totalCount s → Q (.ret 0) s) (hs : I 0 s) :
    Q ((copyLoop c a).run e s).1 ((copyLoop c a).run e s).2 := by
  refine gupLoop_rule (I := I) (fun off s n hlt hI hn => ?_) (fun off s h hlt hI hh => ?_) done
    (Nat.zero_le _) (by omega) hs
  all_goals
    rcases hg : (gupBatch c.cmd.code (sizeof reqHeader + c.fixed) (sizeof respHeader) a off).run e
      s with ⟨r, s'⟩
    have hstep := gupBatch_step (cmd off s hI) hg
  · simp only [hg] at hn ⊢
    rcases hstep with ⟨halt, h, -⟩ | ⟨pfns, sv, hb, h⟩
    · rw [hn] at h
      cases h
    · rw [hn] at h
      split at h
      · cases h
      next h0 =>
        obtain rfl := Except.ok.inj h
        have hpos := hb.ready.count_pos
        have hle := batchAt_count_rem a off
        exact ⟨by omega, by omega, served off s s' pfns sv hlt hI hb (not_not.mp h0)⟩
  · simp only [hg] at hh ⊢
    rcases hstep with ⟨halt, hhalt, h0, hu, hnr⟩ | ⟨pfns, sv, hb, h'⟩
    · obtain rfl := Except.error.inj (hh.symm.trans hhalt)
      exact refused off s s' h hlt hI hu hnr h0
    · rw [hh] at h'
      split at h'
      next h0 =>
        obtain rfl := Except.error.inj h'
        exact failed off s s' pfns sv hlt hI hb h0
      · cases h'

end

/-- `t` is `s` before the first batch of a copy: the request is in the driver's buffer, and the
response is clear. -/
structure DrvSt.LoopStart (s : DrvSt) (e : DrvEnv) (c : CopyCmd) (a : MemcpyArgs) (stream : Nat)
    (t : DrvSt) : Prop where
  req : CopyReq c a.kind stream t.reqBuf
  m : t.m = s.m.setMem (.resp e.caller) fun _ => 0
  submitted : t.submitted = s.submitted

section
variable {e : DrvEnv} {c : CopyCmd} {a : MemcpyArgs} {stream : Nat} {s t : DrvSt}

theorem DrvSt.LoopStart.tab (h : s.LoopStart e c a stream t) : t.m.tab = s.m.tab := by
  rw [h.m]
  rfl

theorem DrvSt.LoopStart.pending (h : s.LoopStart e c a stream t) :
    t.m.dev.eng.pending = s.m.dev.eng.pending := by
  rw [h.m]
  rfl

theorem DrvSt.LoopStart.seen (h : s.LoopStart e c a stream t) : t.seen e.caller = 0 := by
  have hmem : t.m.dev.eng.mem (.resp e.caller) = fun _ => 0 := by
    rw [h.m]
    exact Function.update_self _ _ _
  rw [DrvSt.seen, hmem]
  rfl

theorem hmcudaIoctl_memLoop (hc : c ≠ .cuMemHostAlloc) {hdr p : Nat → UInt8} (h : Built e c hdr p)
    (halloc : e.kmalloc .pages = true ∧ e.kmalloc .sgBatch = true) (ha : (memReq p).args = a)
    (s : DrvSt) : ∃ t w, s.LoopStart e c a (memReq p).stream t ∧
      ((copyLoop c a).run e t).2.sameBut w ∧ hmcudaIoctl.run e s =
        (finishIoctl (sizeof respHeader) ((copyLoop c a).run e t).1).run e w := by
  obtain ⟨evs, w, -, hsame, hrun⟩ := hmcudaIoctl_loop h halloc s
  rw [copyArgs_mem hc, ha] at hsame hrun
  refine ⟨s.atLoop e c hdr p evs, w, ⟨?_, rfl, rfl⟩, hsame, hrun⟩
  rw [← ha, MemReq.args_kind]
  exact copyReq_reqImage hc hdr p h.code

end

end HmCuda
