import HmCuda.System.HostRegistry

/-! A copy inside device memory, from `cudaMemcpy` to the backend. The driver takes its
destination for user memory: the backend never sees it, and answers over the user's pages. -/

namespace HmCuda
open Layout AsyncCopy

/-! What a response leaves in memory -/

theorem mem_bufToIov {vs : List Iov} {buf : List UInt8} {w : RespWrite} (h : w ∈ bufToIov vs buf)
    {b : UInt8} (hb : b ∈ w.bytes) : b ∈ buf := by
  induction vs generalizing buf with
  | nil => cases h
  | cons v vs ih =>
    rw [bufToIov] at h
    split at h
    · cases h
    · rcases List.mem_cons.mp h with rfl | h
      · exact List.mem_of_mem_take hb
      · exact List.mem_of_mem_drop (ih h)

theorem applyWrites_cons (mem : ByteMem Space) (w : RespWrite) (ws : List RespWrite) :
    applyWrites mem (w :: ws) = applyWrites (mem.write w.sp w.base w.bytes) ws := by rfl

theorem write_ne {mem : ByteMem Space} {sp sp' : Space} {a b : Nat} {bs : List UInt8} {x : UInt8}
    (hx : x ∉ bs) (h : mem sp b ≠ x) : mem.write sp' a bs sp b ≠ x := by
  unfold ByteMem.write
  split
  next hin =>
    have hlt : b - a < bs.length := by omega
    rw [List.getD_eq_getElem _ _ hlt]
    intro heq
    exact hx (heq ▸ List.getElem_mem hlt)
  next => exact h

theorem applyWrites_ne {mem : ByteMem Space} {ws : List RespWrite} {sp : Space} {b : Nat}
    {x : UInt8} (hx : ∀ w ∈ ws, x ∉ w.bytes) (h : mem sp b ≠ x) : applyWrites mem ws sp b ≠ x := by
  induction ws generalizing mem with
  | nil => exact h
  | cons w ws ih =>
    rw [applyWrites_cons]
    exact ih (fun y hy => hx y (List.mem_cons_of_mem _ hy))
      (write_ne (hx w List.mem_cons_self) h)

theorem applyWrites_head {mem : ByteMem Space} {w : RespWrite} {ws : List RespWrite} {x : UInt8}
    (hx : ∀ y ∈ w :: ws, x ∉ y.bytes) (hne : w.bytes ≠ []) :
    applyWrites mem (w :: ws) w.sp w.base ≠ x := by
  rw [applyWrites_cons]
  refine applyWrites_ne (fun y hy => hx y (List.mem_cons_of_mem _ hy)) ?_
  have hpos := List.length_pos_of_ne_nil hne
  have hhit : mem.write w.sp w.base w.bytes w.sp (w.base + 0) = w.bytes.getD 0 0 :=
    ByteMem.write_hit mem w.sp hpos
  rw [Nat.add_zero, List.getD_eq_getElem _ _ hpos] at hhit
  rw [hhit]
  intro heq
  exact hx w List.mem_cons_self (heq ▸ List.getElem_mem hpos)

/-! A batch of kind 3 -/

section
variable {e : DrvEnv} {a : MemcpyArgs} {off stream : Nat} {s s' : DrvSt} {pfns : List Nat}
  {sv : Served} {c : Context}

theorem batchPlan_d2d (hc : s.m.tab.ctxGet e.key = some c) (hnull : c.resFind .mem 0 = none)
    (hr : CopyReq .memcpy a.kind stream s.reqBuf) (hk : a.kind = 3) (ht : a.totalCount < 2 ^ 64) :
    (batchPlan e .memcpy a off s pfns).run e.sys (s.shown e .memcpy a off) =
      (1, s.shown e .memcpy a off) := by
  have hne : CopyCmd.memcpy ≠ .cuMemHostAlloc := by decide
  have hreq := memReq_batchPayload (e := e) off pfns hne hr ht
  -- any kind but host to device sends the device address as its source, and no destination
  have hmem : batchMemReq a stream off =
      ⟨0, add64 a.devPtr off, (batchAt a off).count, 3, stream⟩ := by
    rw [batchMemReq, hk]
    rfl
  have hplan : batchPlan e .memcpy a off s pfns = query (coreMemcpy e.key 0 (add64 a.devPtr off)
      (batchAt a off).count 3 none stream) := by
    show query (MemCmd.memcpy.plan e.key _ (memReq (batchPayload e .memcpy a off s pfns))) = _
    rw [hreq, hmem]
    rfl
  have hget : c.resGet .mem 0 = 0 := by
    rw [c.resGet_eq, hnull]
    rfl
  have hrun : (coreMemcpy e.key 0 (add64 a.devPtr off) (batchAt a off).count 3 none stream).run
      ⟨e.sys, s.m.tab⟩ (s.shown e .memcpy a off).dev = (1, (s.shown e .memcpy a off).dev) := by
    rw [coreMemcpy, withCtx_run hc]
    simp [hget]
  rw [hplan]
  apply Prod.ext
  · rw [query_fst]
    exact congrArg Prod.fst hrun
  · exact congrArg (fun r : Nat × Device => { s.shown e .memcpy a off with dev := r.2 }) hrun

/-- A batch of kind 3 is answered with error 1 over the pages it was given, and moves no data. -/
theorem Batched.d2d (hb : Batched e .memcpy a off s pfns sv s')
    (hc : s.m.tab.ctxGet e.key = some c) (hnull : c.resFind .mem 0 = none)
    (hr : CopyReq .memcpy a.kind stream s.reqBuf) (hk : a.kind = 3) (ht : a.totalCount < 2 ^ 64)
    (hidle : s.m.dev.eng.pending = []) :
    s'.m.tab = s.m.tab ∧ s'.m.dev.eng.pending = [] ∧
      ∃ w ws, w.sp = .ram ∧ w.bytes ≠ [] ∧ (∀ y ∈ w :: ws, (255 : UInt8) ∉ y.bytes) ∧
        s'.m.dev.eng.mem =
          applyWrites (s.shown e .memcpy a off).dev.eng.mem (w :: ws) := by
  have hrun : (batchPlan e .memcpy a off s pfns).run e.sys (s.shown e .memcpy a off) =
    (1, s.shown e .memcpy a off) := batchPlan_d2d hc hnull hr hk ht
  have herr : sv.err = 1 := by
    rw [hb.err, hrun]
    rfl
  -- the response is not marked, so the data pages come first in what it is written to
  have hw : sv.writes = bufToIov (batchData a off pfns ++ [⟨.resp e.caller, 0, sizeof respHeader⟩])
      (respBytes RtCmd.memcpy.code 1 []) := by
    have hne : CopyCmd.memcpy ≠ .cuMemHostAlloc := by decide
    rw [hb.writes, marks_batchPayload hne hr ht, herr, batchElem, memcpyElem, hk]
    rfl
  have hm : s'.m = (s.shown e .memcpy a off).deliver e.sys sv.writes := by
    rw [hb.post, hrun]
    rfl
  have heng : s'.m.dev.eng = { (s.shown e .memcpy a off).dev.eng with
      mem := applyWrites (s.shown e .memcpy a off).dev.eng.mem sv.writes } := by
    rw [hm]
    have hfin := Engine.finishMany_idle (g := (s.shown e .memcpy a off).dev.eng) hidle
      (e.sys.dma (s.shown e .memcpy a off).dev.clock)
    simp only [Machine.deliver, idle_run, hfin]
  refine ⟨by rw [hm]; rfl, by rw [heng]; exact hidle, ?_⟩
  rcases hdata : batchData a off pfns with _ | ⟨v, vs⟩
  · exact absurd hdata hb.ready.data
  · have hv : v.sp = .ram ∧ 0 < v.len := by
      have hmem : v ∈ batchData a off pfns := hdata ▸ List.mem_cons_self
      exact ⟨batchData_ram a off pfns v hmem, batchData_pos a off pfns v hmem⟩
    have hresp : respBytes RtCmd.memcpy.code 1 [] ≠ [] := by decide
    have hbytes : ∀ y ∈ sv.writes, (255 : UInt8) ∉ y.bytes := by
      intro y hy hb255
      rw [hw] at hy
      exact absurd (mem_bufToIov hy hb255) (by decide)
    rw [hdata, List.cons_append, bufToIov, if_neg hresp] at hw
    refine ⟨_, _, hv.1, ?_, hw ▸ hbytes, by rw [heng, hw]⟩
    intro hnil
    have hlen := congrArg List.length hnil
    have h8 : (respBytes RtCmd.memcpy.code 1 []).length = 8 := by decide
    rw [List.length_take, h8, List.length_nil] at hlen
    omega

def Overwritten (m : Machine) : Prop := m.dev.eng.pending = [] ∧ ∃ b, m.dev.eng.mem .ram b ≠ 255

theorem Batched.overwritten (hb : Batched e .memcpy a off s pfns sv s')
    (hc : s.m.tab.ctxGet e.key = some c) (hnull : c.resFind .mem 0 = none)
    (hr : CopyReq .memcpy a.kind stream s.reqBuf) (hk : a.kind = 3) (ht : a.totalCount < 2 ^ 64)
    (hidle : s.m.dev.eng.pending = []) : Overwritten s'.m := by
  obtain ⟨-, hp, w, ws, hsp, hne, hx, hmem⟩ := hb.d2d hc hnull hr hk ht hidle
  refine ⟨hp, w.base, ?_⟩
  rw [hmem, ← hsp]
  exact applyWrites_head hx hne

/-- A loop of kind 3 with something to copy fails or writes over guest memory. -/
theorem copyLoop_d2d (hc : s.m.tab.ctxGet e.key = some c) (hnull : c.resFind .mem 0 = none)
    (hr : CopyReq .memcpy a.kind stream s.reqBuf) (hk : a.kind = 3) (ht : a.totalCount < 2 ^ 64)
    (hidle : s.m.dev.eng.pending = []) (hpos : 0 < a.totalCount) :
    ((copyLoop .memcpy a).run e s).1.Failed ∨ Overwritten ((copyLoop .memcpy a).run e s).2.m := by
  have hne : CopyCmd.memcpy ≠ .cuMemHostAlloc := by decide
  refine copyLoop_rule (I := fun off t => CopyReq .memcpy a.kind stream t.reqBuf ∧
      t.m.tab = s.m.tab ∧ t.m.dev.eng.pending = [] ∧ (off ≠ 0 → Overwritten t.m))
    (Q := fun h t => h.Failed ∨ Overwritten t.m) (fun _ t hI => hI.1.cmd)
    (fun off t t' h _ _ _ _ hf => .inl hf) (fun off t t' pfns sv _ hI hb _ => ?_)
    (fun off t t' pfns sv _ hI hb _ => .inr ?_) (fun t hI => .inr (hI.2.2.2 hpos.ne'))
    ⟨hr, rfl, hidle, fun h => absurd rfl h⟩
  all_goals
    obtain ⟨hr', htab, hidle', -⟩ := hI
    have hc' : t.m.tab.ctxGet e.key = some c := htab ▸ hc
    have hover := hb.overwritten hc' hnull hr' hk ht hidle'
  · obtain ⟨htab', hp, -⟩ := hb.d2d hc' hnull hr' hk ht hidle'
    refine ⟨?_, htab'.trans htab, hp, fun _ => hover⟩
    rw [hb.post]
    exact hr'.batchReq hne
  · exact hover

theorem copyLoop_empty (e : DrvEnv) (s : DrvSt) (h : a.totalCount = 0) :
    (copyLoop .memcpy a).run e s = (.ret 0, s) := by
  rw [copyLoop, gupLoop, h]
  rfl

end

/-! The call -/

def GuestSt.holding (g : GuestSt) (mem : ByteMem Space) : GuestSt :=
  { g with drv := { g.drv with m := { g.drv.m with dev := { g.drv.m.dev with
    eng := { g.drv.m.dev.eng with mem := mem } } } } }

/-- A copy of `n` bytes between two places in live device allocations, when every kernel
service but the pinning of pages and every CUDA call succeeds. -/
structure D2dCall (env : GuestEnv) (g : GuestSt) (dst src n : Nat) : Prop where
  transport : g.transport = ⟨false, true⟩
  arg : (env.drv g.sent.length).arg + dispatchLen (sizeof memcpyReq) 0 ≤ taskSize
  alloc : ∀ b, (env.drv g.sent.length).kmalloc b = true
  queue : ∀ off, (env.drv g.sent.length).addSgs off = none
  out : (env.drv g.sent.length).copyOut = true
  ret : ∀ i c, ((env.drv g.sent.length).sys.ret i c).code = 0
  reachable : Reachable (env.drv g.sent.length).key g.drv.m
  live : ∃ c, g.drv.m.tab.ctxGet (env.drv g.sent.length).key = some c ∧
    c.resFind .mem 0 = none ∧ (∀ x ∈ c.resources .mem, x.handle + x.size < 2 ^ 64) ∧
    ∀ p ∈ [dst, src], ∃ x ∈ c.resources .mem, x.handle ≤ p ∧ p + n ≤ x.handle + x.size
  idle : g.drv.m.dev.eng.pending = []

/-- Whatever memory holds, the call returns 0, and once the copies behind it have moved,
`dst` holds the bytes of `src` and guest memory is as it was. -/
def CopiesOnDevice (env : GuestEnv) (g : GuestSt) (dst src n : Nat) : Prop :=
  ∀ mem, let r := (cudaMemcpy dst src n 3).run env (g.holding mem)
    r.1 = some 0 ∧ ∀ is, (r.2.drv.m.dev.eng.finishMany is).pending = [] →
      (∀ i < n, (r.2.drv.m.dev.eng.finishMany is).mem .uva (dst + i) = mem .uva (src + i)) ∧
      (r.2.drv.m.dev.eng.finishMany is).mem .ram = mem .ram

section
variable {env : GuestEnv} {g : GuestSt} {dst src n : Nat}

def d2dDrv (env : GuestEnv) (g : GuestSt) (dst src n : Nat) : DrvEnv :=
  env.caller g RtCmd.memcpy.code (memcpyRequest dst src n 3 0)

theorem D2dCall.run (h : D2dCall env g dst src n) (mem : ByteMem Space) :
    ((cudaMemcpy dst src n 3).run env (g.holding mem)).1 =
      (dispatchResult (dispatchBuf (env.stack g.sent.length) RtCmd.memcpy.code
        (memcpyRequest dst src n 3 0) 0) 0
          (hmcudaIoctl.run (d2dDrv env g dst src n) (g.holding mem).drv).1).ret ∧
    ((cudaMemcpy dst src n 3).run env (g.holding mem)).2.drv =
      (hmcudaIoctl.run (d2dDrv env g dst src n) (g.holding mem).drv).2 := by
  have ht : (g.holding mem).transport = ⟨false, true⟩ := h.transport
  have hrun : (dispatch (.rt .memcpy) (memcpyRequest dst src n 3 0) 0).run env (g.holding mem) =
      _ := dispatch_opened ht _ _
  exact ⟨congrArg (fun r => r.1.ret) hrun, congrArg (fun r => r.2.drv) hrun⟩

theorem D2dCall.loop (h : D2dCall env g dst src n) (mem : ByteMem Space) :
    ∃ s s' : DrvSt, CopyReq .memcpy 3 0 s.reqBuf ∧ s.m.tab = g.drv.m.tab ∧
      s.m.dev.eng.pending = [] ∧ s.m.dev.eng.mem .ram = mem .ram ∧
      s.seen (d2dDrv env g dst src n).caller = 0 ∧
      ((copyLoop .memcpy ⟨dst, n, src, 3⟩).run (d2dDrv env g dst src n) s).2.sameBut s' ∧
      hmcudaIoctl.run (d2dDrv env g dst src n) (g.holding mem).drv =
        (finishIoctl (sizeof respHeader)
          ((copyLoop .memcpy ⟨dst, n, src, 3⟩).run (d2dDrv env g dst src n) s).1).run
            (d2dDrv env g dst src n) s' := by
  obtain ⟨c, -, -, hwrap, hlive⟩ := h.live
  have hbound (p : Nat) (hp : p ∈ [dst, src]) : p + n < 2 ^ 64 := by
    obtain ⟨x, hx, -, hhi⟩ := hlive p hp
    exact hhi.trans_lt (hwrap x hx)
  have hdst := hbound dst (by simp)
  have hsrc := hbound src (by simp)
  have hlen : (memcpyRequest dst src n 3 0).length = sizeof memcpyReq := length_encode _ _ _
  obtain ⟨hdr, p, hb, hp⟩ := memcpyRequest_built .memcpy hlen h.arg h.alloc
  have hreq : memReq p = ⟨dst, src, n, 3, 0⟩ :=
    memReq_memcpyRequest hp (by omega) (by omega) (by omega) (by decide) (by decide)
  have hargs : (memReq p).args = ⟨dst, n, src, 3⟩ := by
    rw [hreq]
    rfl
  obtain ⟨t, w, ht, hsame, hrun⟩ := hmcudaIoctl_memLoop MemCmd.memcpy.copy_ne hb
    ⟨h.alloc _, h.alloc _⟩ hargs (g.holding mem).drv
  rw [hreq] at ht
  refine ⟨t, w, ht.req, ht.tab, ht.pending.trans h.idle, ?_, ht.seen, hsame, hrun⟩
  have hsp : Space.ram ≠ .resp (d2dDrv env g dst src n).caller := by simp
  rw [ht.m]
  exact Function.update_of_ne hsp (fun _ => 0) mem

theorem D2dCall.null (h : D2dCall env g dst src n) : ∃ c,
    g.drv.m.tab.ctxGet (env.drv g.sent.length).key = some c ∧ c.resFind .mem 0 = none := by
  obtain ⟨c, hc, hnull, -⟩ := h.live
  exact ⟨c, hc, hnull⟩

theorem D2dCall.fails (h : D2dCall env g dst src n) (hn : n < 2 ^ 64) (hpos : 0 < n) :
    ¬CopiesOnDevice env g dst src n := by
  intro hcopies
  -- memory that holds 255 everywhere, which no byte of a response is
  obtain ⟨hret, hmem⟩ := hcopies fun _ _ => 255
  obtain ⟨hrun, hst⟩ := h.run fun _ _ => 255
  obtain ⟨s, s', hr, htab, hidle, -, -, ⟨x, hsame, -⟩, hloop⟩ := h.loop fun _ _ => 255
  obtain ⟨c, hc, hnull⟩ := h.null
  have hloop3 := copyLoop_d2d (a := ⟨dst, n, src, 3⟩) (e := d2dDrv env g dst src n) (htab ▸ hc)
    hnull hr rfl hn hidle hpos
  rw [hrun, hloop] at hret
  rcases hloop3 with hfail | ⟨hp, b, hb⟩
  -- a page could not be pinned
  · exact dispatchResult_refused (.inl hfail) hret
  · have hm : (hmcudaIoctl.run (d2dDrv env g dst src n) (g.holding fun _ _ => 255).drv).2.m =
        ((copyLoop .memcpy ⟨dst, n, src, 3⟩).run (d2dDrv env g dst src n) s).2.m := by
      rw [hloop, finishIoctl_m, hsame]
    have hfinal : ((cudaMemcpy dst src n 3).run env (g.holding fun _ _ => 255)).2.drv.m =
        ((copyLoop .memcpy ⟨dst, n, src, 3⟩).run (d2dDrv env g dst src n) s).2.m := by
      rw [hst]
      exact hm
    have hram := (hmem [] (by rw [hfinal]; exact hp)).2
    rw [hfinal] at hram
    exact hb (congrFun hram b)

theorem D2dCall.empty (h : D2dCall env g dst src 0) : CopiesOnDevice env g dst src 0 := by
  intro mem
  obtain ⟨hrun, hst⟩ := h.run mem
  obtain ⟨s, s', -, -, hidle, hram, hseen, ⟨x, hsame, -⟩, hloop⟩ := h.loop mem
  rw [copyLoop_empty _ _ rfl] at hsame hloop
  have hm : (hmcudaIoctl.run (d2dDrv env g dst src 0) (g.holding mem).drv).2.m = s.m := by
    rw [hloop, finishIoctl_m, hsame]
  have hfinal : ((cudaMemcpy dst src 0 3).run env (g.holding mem)).2.drv.m = s.m := by
    rw [hst]
    exact hm
  refine ⟨?_, fun is _ => ⟨fun i hi => absurd hi (Nat.not_lt_zero i), ?_⟩⟩
  · rw [hrun, hloop]
    refine dispatchResult_served h.out ?_
    rw [hsame]
    exact hseen
  · rw [hfinal, Engine.finishMany_idle hidle]
    exact hram

end

/-- A device-to-device copy does what it should exactly if there is nothing to copy. -/
theorem cudaMemcpy_d2d_iff {env : GuestEnv} {g : GuestSt} {dst src n : Nat}
    (h : D2dCall env g dst src n) : CopiesOnDevice env g dst src n ↔ n = 0 := by
  constructor
  · intro hcopies
    by_contra hn
    obtain ⟨c, -, -, hwrap, hlive⟩ := h.live
    obtain ⟨x, hx, -, hhi⟩ := hlive dst (by simp)
    have hlt := hwrap x hx
    exact h.fails (by omega) (Nat.pos_of_ne_zero hn) hcopies
  · rintro rfl
    exact h.empty

/-! Two allocations of 64 bytes, at 0x8000 and 0xA000 -/

def twoAllocs : Machine :=
  ((processElem ⟨1, 1⟩ ⟨[⟨.req 1, 0, 16⟩], [⟨.resp 1, 0, 16⟩]⟩).run (aliasEnv 0xA000)
    (aliasRun 0x8000)).2

def twoAllocsSt : GuestSt :=
  { GuestSt.start { DrvSt.start aliasMem with m := twoAllocs } with transport := ⟨false, true⟩ }

theorem twoAllocs_mem : (twoAllocs.tab.ctxGet ⟨1, 1⟩).map (·.resources .mem) =
    some [⟨0xA000, 0xA000, 64⟩, ⟨0x8000, 0x8000, 64⟩] := by
  decide +kernel

theorem twoAllocs_call {n : Nat} (hn : n ≤ 64) :
    D2dCall registryEnv twoAllocsSt 0x8000 0xA000 n := by
  obtain ⟨c, hc, hm⟩ := Option.map_eq_some_iff.mp twoAllocs_mem
  refine ⟨rfl, by decide, fun _ => rfl, fun _ => rfl, rfl, fun _ => aliasEnv_ret 0x8000 _, ?_,
    ⟨c, hc, ?_, ?_, ?_⟩, by decide +kernel⟩
  · exact .serve (aliasRun_reachable 0x8000) _ _
  · rw [Context.resFind, hm]
    decide
  · rw [hm]
    decide
  · intro p hp
    rw [hm]
    rcases List.mem_cons.mp hp with rfl | hp
    · exact ⟨_, List.mem_cons_of_mem _ List.mem_cons_self, le_rfl, Nat.add_le_add_left hn _⟩
    · obtain rfl := List.mem_singleton.mp hp
      exact ⟨_, List.mem_cons_self, le_rfl, Nat.add_le_add_left hn _⟩

theorem cudaMemcpy_d2d_empty : CopiesOnDevice registryEnv twoAllocsSt 0x8000 0xA000 0 :=
  (cudaMemcpy_d2d_iff (twoAllocs_call (Nat.zero_le 64))).mpr rfl

/-- Eight bytes from one allocation to the other. -/
theorem cudaMemcpy_d2d_fails : ¬∀ env g dst src n, D2dCall env g dst src n →
    CopiesOnDevice env g dst src n := by
  intro hall
  have hcall : D2dCall registryEnv twoAllocsSt 0x8000 0xA000 8 := twoAllocs_call (by decide)
  exact hcall.fails (by decide) (by decide) (hall _ _ _ _ _ hcall)

end HmCuda
