import HmCuda.System.DeviceQueries
import HmCuda.System.MemTable
import HmCuda.System.Provenance

/-! What `cuMemcpyAsync` takes for a device address, against the table of the backend. -/

namespace HmCuda
open Layout

/-- A device range at `a`, in the session. -/
def RangeAt (k : Key) (a : Nat) (t : Tables) : Prop :=
  0 < a ∧ ∃ c, t.ctxGet k = some c ∧ ∃ r ∈ c.resources .mem, r.handle = a ∧ 0 < r.size ∧
    a + r.size < 2 ^ 64

section Tables
variable {k l : Key} {a : Nat} {t : Tables}

theorem RangeAt.memGet {m : Machine} (h : RangeAt k a m.tab)
    (ho : ∀ c ∈ m.tab.ctxs, ∀ r ∈ c.resources .mem, r.handle = r.realPtr) : memGet k m a = a := by
  obtain ⟨-, c, hc, r, hr, rfl, hs, hlt⟩ := h
  have hcov : r.covers .mem r.handle = true := by
    simp [Resource.covers, ResType.ranged, add64_of_lt hlt, hs]
  rw [memGet_eq hc]
  rcases hf : c.resFind .mem r.handle with _ | x
  · exact absurd hcov (by simpa using List.find?_eq_none.mp hf r hr)
  · have hx : x ∈ c.resources .mem := List.mem_of_find?_eq_some hf
    have hle : x.handle ≤ r.handle := by
      have hxc := List.find?_some hf
      simp only [Resource.covers, ResType.ranged] at hxc
      simp at hxc
      exact hxc.1
    rw [Context.resGet_eq, hf, Option.map_some, Option.getD_some, Resource.pointer,
      if_pos (by decide), ← ho c (List.mem_of_find?_eq_some hc) x hx, add64_of_lt (by omega)]
    omega

/-- The operations that leave the range at `a` where it is. -/
def TabOp.Leaves (k : Key) (a : Nat) : TabOp → Prop
  | .create l | .unlink l => l ≠ k
  | .remove l ty h => l = k → ty = .mem → h ≠ a
  | _ => True

theorem RangeAt.update (h : RangeAt k a t) (l : Key) {f : Context → Context}
    (hf : ∀ c, (f c).key = c.key) (hr : ∀ c, l = k → ∀ r ∈ c.resources .mem, r.handle = a →
      r ∈ (f c).resources .mem) : RangeAt k a (t.ctxUpdate l f) := by
  obtain ⟨ha, c, hc, r, hm, hra, hs⟩ := h
  rw [RangeAt, Tables.ctxGet_ctxUpdate t l k hf]
  refine ⟨ha, ?_⟩
  split
  next hl => exact ⟨f c, by rw [← hl, hc]; rfl, r, hr c hl.symm r hm hra, hra, hs⟩
  · exact ⟨c, hc, r, hm, hra, hs⟩

theorem RangeAt.apply (h : RangeAt k a t) {o : TabOp} (ho : o.Leaves k a) :
    RangeAt k a (o.apply t) := by
  have pushed (u : Tables) (hu : RangeAt k a u) (l : Key) (ty : ResType) (x : Resource) :
      RangeAt k a (u.ctxUpdate l (·.push ty x)) := by
    refine hu.update l (fun c => c.push_key _ _) fun c _ r hr _ => ?_
    rw [Context.push_resources]
    split
    next hty => exact List.mem_cons_of_mem _ (hty ▸ hr)
    · exact hr
  cases o with
  | create l =>
    obtain ⟨ha, c, hc, hr⟩ := h
    refine ⟨ha, c, ?_, hr⟩
    show (t.ctxCreate l).ctxGet k = some c
    rw [Tables.ctxGet_ctxCreate, if_neg (Ne.symm ho), hc]
  | unlink l =>
    obtain ⟨ha, c, hc, hr⟩ := h
    have hget : (t.ctxUnlink l).ctxGet k = t.ctxGet k := by
      refine Ranges.find?_eraseP_of_not fun c hc => ?_
      have hk : c.key = l := of_decide_eq_true hc
      simpa [hk] using (show l ≠ k from ho)
    exact ⟨ha, c, hget.trans hc, hr⟩
  | add l ty p n hd => exact pushed t h l ty _
  | fresh l ty p n => exact pushed _ h l ty _
  | remove l ty hd =>
    refine h.update l (fun c => c.resRemove_key _ _) fun c hl r hr hra => ?_
    rw [Context.resRemove_resources]
    split
    next hty =>
      refine (List.mem_eraseP_of_neg ?_).mpr (hty ▸ hr)
      simpa [hra] using Ne.symm (ho hl hty.symm)
    · exact hr

theorem RangeAt.after {ops : List TabOp} (h : RangeAt k a t) (ho : ∀ o ∈ ops, o.Leaves k a) :
    RangeAt k a (t.after ops) := by
  induction ops generalizing t with
  | nil => exact h
  | cons o ops ih =>
    exact ih (h.apply (ho o List.mem_cons_self)) fun o' ho' => ho o' (List.mem_cons_of_mem _ ho')

end Tables

/-! The requests -/

def freeCmds : List Cmd := [.rt .free, .drv .cuMemFree, .drv .cuMemAddressFree]

/-- The commands that can start the session anew. -/
def resetCmds : List Cmd := [.rt .init, .drv .cuDevicePrimaryCtxRetain]

def freedAddr (p : Nat → UInt8) : Nat := freeReq.devPtr.get p

theorem CmdOp.leaves {k l : Key} {a : Nat} {p : Nat → UInt8} {c : Cmd} {o : TabOp}
    (h : CmdOp l p c o) (hreset : c ∉ resetCmds) (hfree : c ∈ freeCmds → freedAddr p ≠ a) :
    o.Leaves k a := by
  rcases c with c | c <;> cases c
  all_goals simp only [CmdOp] at h
  case rt.init | drv.cuDevicePrimaryCtxRetain => exact absurd (by decide) hreset
  case rt.free | drv.cuMemFree | drv.cuMemAddressFree =>
    subst h
    exact fun _ _ => hfree (by decide)
  case drv.cuMemFreeHost =>
    obtain ⟨t, rfl | rfl, rfl⟩ := h
    all_goals exact fun _ ht => absurd ht (by decide)
  case drv.cuMemHostAlloc =>
    obtain ⟨q, t, -, rfl⟩ := h
    trivial
  case rt.eventDestroy | drv.cuStreamDestroy | drv.cuEventDestroy | drv.cuMemRelease =>
    subst h
    exact fun _ ht => absurd ht (by decide)
  all_goals
    obtain ⟨q, rfl⟩ := h
    trivial

/-- A request that does not free the range at `a`, and no reset. -/
theorem RangeAt.call {k : Key} {a : Nat} {s : DrvSt} (h : RangeAt k a s.m.tab) (x : Call)
    (d : DrvEnv) (hreset : x.cmd ∉ resetCmds) (hfree : x.cmd ∈ freeCmds → ∀ p : Nat → UInt8,
      (∀ i < x.req.length, p i = x.req.getD i 0) → freedAddr p ≠ a) :
    RangeAt k a (x.dispatch.run d s).2.m.tab := by
  obtain ⟨ops, hops, htab⟩ := x.ops d s
  rw [htab]
  refine h.after fun o ho => ?_
  obtain ⟨l, p, hp, hop⟩ := hops o ho
  exact hop.leaves hreset fun hc => hfree hc p hp

theorem RangeAt.dispatch {k : Key} {a : Nat} {e : GuestEnv} {s : GuestSt}
    (h : RangeAt k a s.drv.m.tab) {cmd : Cmd} {req : List UInt8} {n : Nat} (hreset : cmd ∉ resetCmds)
    (hfree : cmd ∈ freeCmds → ∀ p : Nat → UInt8, (∀ i < req.length, p i = req.getD i 0) →
      freedAddr p ≠ a) : RangeAt k a ((dispatch cmd req n).run e s).2.drv.m.tab :=
  h.call ⟨s.transport, e.stack s.sent.length, cmd, req, n⟩ (e.drv s.sent.length) hreset hfree

theorem RangeAt.drvDispatch {k : Key} {a : Nat} {e : GuestEnv} {s : GuestSt}
    (h : RangeAt k a s.drv.m.tab) {cmd : Cmd} {req : List UInt8} {n : Nat} (hreset : cmd ∉ resetCmds)
    (hfree : cmd ∈ freeCmds → ∀ p : Nat → UInt8, (∀ i < req.length, p i = req.getD i 0) →
      freedAddr p ≠ a) : RangeAt k a ((drvDispatch cmd req n).run e s).2.drv.m.tab := by
  obtain ⟨t, hrun⟩ := drvDispatch_run e s cmd req n
  rw [hrun]
  exact RangeAt.dispatch (s := { s with transport := t }) h hreset hfree

theorem logged_range (k : Key) (a : Nat) : Logged (fun c => c ∉ resetCmds ∧ c ∉ freeCmds)
    fun s => RangeAt k a s.drv.m.tab where
  dispatch cmd hq req n e s h := h.call ⟨s.transport, e.stack s.sent.length, cmd, req, n⟩
    (e.drv s.sent.length) hq.1 fun hc => absurd hc hq.2
  noted hd _ h := by rwa [hd]

/-! What is handed out -/

/-- What CUDA promises of the addresses that the driver API hands out, and of its codes. -/
structure GuestEnv.Grants (e : GuestEnv) : Prop where
  code : ∀ i j c, ((e.drv i).sys.ret j c).code < 2 ^ 32
  range : ∀ i j fn n rest, fn = .cuMemAlloc ∨ fn = .cuMemAddressReserve →
    ((e.drv i).sys.ret j ⟨fn, n :: rest, []⟩).code = 0 → 0 < n ∧
      0 < ((e.drv i).sys.ret j ⟨fn, n :: rest, []⟩).out 0 ∧
      ((e.drv i).sys.ret j ⟨fn, n :: rest, []⟩).out 0 + n < 2 ^ 64

theorem MemCall.alloc_zero {k : Key} {e : Env} {m : Machine} {x : MemCall} {call : LibCall}
    {n : Nat} (hx : x.asked = some (call, n)) (hcode : (e.ret m.dev.clock call).code < 2 ^ 32)
    (h0 : ((x.exec k).run e m).1.1 % 2 ^ 32 = 0) :
    (∃ c, m.tab.ctxGet k = some c) ∧ (e.ret m.dev.clock call).code = 0 ∧
      ((x.exec k).run e m).1.2 = some ((e.ret m.dev.clock call).out 0) := by
  rcases hc : m.tab.ctxGet k with _ | c
  · cases x <;> simp only [MemCall.asked, Option.some.injEq, Prod.mk.injEq, reduceCtorEq] at hx
    all_goals
      simp only [MemCall.exec, coreMalloc, coreCuMemAlloc, coreCuMemAddressReserve, withCtxM,
        hc] at h0
      cases h0
  · refine ⟨⟨c, rfl⟩, ?_⟩
    cases x <;> simp only [MemCall.asked, Option.some.injEq, Prod.mk.injEq, reduceCtorEq] at hx
    all_goals
      obtain ⟨rfl, rfl⟩ := hx
      simp only [MemCall.exec, coreMalloc, coreCuMemAlloc, coreCuMemAddressReserve, withCtxM, hc,
        Prog.bind_run, Prog.ite_run, Prog.pure_run, query_fst, lib_run] at h0 ⊢
      split at h0
      next hz => exact ⟨hz, by rw [if_pos hz]⟩
      next hz => exact absurd ((Nat.mod_eq_of_lt hcode).symm.trans h0) hz

section Calls
variable {k : Key} {e : GuestEnv} {s : GuestSt} {a : Nat}

theorem rangeAt_alloc (hk : ∀ i, (e.drv i).key = k) (hg : e.Grants) {f : DrvForward} {x : MemCall}
    {fn : LibFn} {n : Nat} {rest : List Nat} (hop : f.op k = giving (x.exec k))
    (ht : f.message.Typed) (hx : x.asked = some (⟨fn, n :: rest, []⟩, n))
    (hfn : fn = .cuMemAlloc ∨ fn = .cuMemAddressReserve) (hresp : f.message.resp = [.u64])
    {out : Prop} [Decidable out] :
    let r := (do
      let r ← drvDispatch f.message.cmd f.message.req (sizeof f.message.resp)
      if r.ret = some 0 ∧ out then
        let h := respWord f.message.resp r
        Prog.modify fun s => { s with deviceHandles := Function.update s.deviceHandles h true }
        return ⟨some 0, some h⟩
      else
        return ⟨r.ret, none⟩ : GuestM Returned).run e s
    r.1.out = some a → RangeAt k a r.2.drv.m.tab := by
  intro r hr
  simp only [r, Prog.bind_run, Prog.ite_run] at hr ⊢
  split at hr
  case isFalse => cases hr
  next hret =>
  rw [if_pos hret]
  obtain rfl := Option.some.inj hr
  have h0 := hret.1
  show RangeAt k _
    ((drvDispatch f.message.cmd f.message.req (sizeof f.message.resp)).run e s).2.drv.m.tab
  have hop' : (Forward.drv f).op (e.drv s.sent.length).key = some (giving (x.exec k)) := by
    rw [hk, ← hop]
    rfl
  obtain ⟨img, hex⟩ := Forward.executed_of_zero (.drv f) true e s hop' ht h0
  let d := e.drv s.sent.length
  let M := s.drv.showing d img
  obtain ⟨⟨c, hc⟩, hcode, hout⟩ := MemCall.alloc_zero (m := M) hx (hg.code _ _ _) (hex.code_mod h0)
  obtain ⟨hn, hpos, hend⟩ := hg.range _ _ _ _ _ hfn hcode
  obtain ⟨outs, houts, -, hget⟩ := hex.outs h0
  have hword : respWord f.message.resp ((drvDispatch f.message.cmd f.message.req
      (sizeof f.message.resp)).run e s).1 = (d.sys.ret M.dev.clock ⟨fn, n :: rest, []⟩).out 0 := by
    have hv := hget 0 (by rw [show (Forward.drv f).message.resp = [.u64] from hresp]; decide) _
      (congrArg (fun o => [o][0]?) hout)
    rw [← Option.some.inj ((if_pos h0).symm.trans houts)] at hv
    rw [show (Forward.drv f).message.resp = [.u64] from hresp] at hv
    have hlt : (d.sys.ret M.dev.clock ⟨fn, n :: rest, []⟩).out 0 < 256 ^ (field [.u64] 0).size :=
      (Nat.le_add_right _ _).trans_lt (hend.trans_eq (by decide))
    rw [Nat.mod_eq_of_lt hlt] at hv
    rw [hresp]
    exact Option.some.inj hv
  obtain ⟨bs, hbe⟩ := hex.backend
  have htab : ((drvDispatch f.message.cmd f.message.req (sizeof f.message.resp)).run e
      s).2.drv.m.tab = ((x.exec k).run d.sys M).2.tab := by
    show ((pass true (Forward.drv f).message).run e s).2.drv.m.tab = _
    rw [hbe]
    rfl
  rw [hword, htab, alloc_tab hc hx, if_pos hcode]
  exact ⟨hpos, _, Tables.ctxGet_resAddWithHandle hc _ _ _ _, _, by
    rw [Context.push_resources, if_pos rfl]
    exact List.mem_cons_self, rfl, hn, hend⟩

end Calls

/-! Runs -/

/-- The handles that the driver library handed out, and that no call has freed since. -/
def liveHandle : List (GuestCall × Returned) → Nat → Bool
  | [], _ => false
  | (c, r) :: tr, a =>
    match c with
    | .cuMemAlloc .. | .cuMemAddressReserve .. => r.out = some a || liveHandle tr a
    | .cuMemFree b | .cuMemAddressFree b _ => !(r.ret = some 0 && a = b) && liveHandle tr a
    | _ => liveHandle tr a

/-- A call whose numbers fit their types, and that neither fails to free a live handle nor
releases one behind the back of the driver library. -/
def GuestCall.Regular (c : GuestCall) (r : Returned) (live : Nat → Bool) : Prop :=
  match c with
  | .cuMemAlloc _ n => n < 2 ^ 64
  | .cuMemAddressReserve _ n al ad fl => n < 2 ^ 64 ∧ al < 2 ^ 64 ∧ ad < 2 ^ 64 ∧ fl < 2 ^ 64
  | .cuMemFree b | .cuMemAddressFree b _ => b < 2 ^ 64 ∧ (live b → r.ret = some 0)
  | .cudaFree b => b < 2 ^ 64 ∧ live b = false
  | .forward _ cmd _ _ => cmd ∉ freeCmds ∧ (cmd ∈ resetCmds → ∀ a, live a = false)
  | _ => True

inductive RegularRun (e : GuestEnv) (drv : DrvSt) : List (GuestCall × Returned) → GuestSt → Prop
  | start : RegularRun e drv [] (.start drv)
  | call {tr : List (GuestCall × Returned)} {s : GuestSt} (c : GuestCall)
      (h : RegularRun e drv tr s) (returned : ∀ x ∈ tr, x.2.ret.isSome)
      (hc : c.Regular (c.run.run e s).1 (liveHandle tr)) :
      RegularRun e drv ((c, (c.run.run e s).1) :: tr) (c.run.run e s).2

section Runs
variable {k : Key} {e : GuestEnv} {drv : DrvSt} {tr : List (GuestCall × Returned)} {s : GuestSt}

theorem RegularRun.guestRun (h : RegularRun e drv tr s) : GuestRun e drv tr s := by
  induction h with
  | start => exact .start
  | call c _ hret _ ih => exact ih.call c hret

theorem GuestCall.Regular.handles {c : GuestCall} {r : Returned}
    (hc : c.Regular r (liveHandle tr)) (a : Nat) :
    c.handlesAfter r (liveHandle tr) a = liveHandle ((c, r) :: tr) a := by
  have freed (b : Nat) (hb : liveHandle tr b → r.ret = some 0) :
      (decide (a ≠ b) && liveHandle tr a) =
        (!(decide (r.ret = some 0) && decide (a = b)) && liveHandle tr a) := by
    by_cases hab : a = b
    · subst hab
      rcases hl : liveHandle tr a
      · simp
      · simp [hb hl]
    · simp [hab]
  cases c
  case cuMemFree b => exact freed b hc.2
  case cuMemAddressFree b n => exact freed b hc.2
  all_goals rfl

theorem RegularRun.handles (h : RegularRun e drv tr s) : s.deviceHandles = liveHandle tr := by
  induction h with
  | start => rfl
  | call c _ _ hc ih =>
    funext a
    rw [call_handles, ih]
    exact hc.handles a

theorem freedAddr_ne {a b : Nat} {t : CStruct} {vals : List Nat}
    (hfield : field t 0 = freeReq.devPtr) (hl : (b :: vals).length ≤ t.length) (hb : b < 2 ^ 64)
    (hne : a ≠ b) (p : Nat → UInt8)
    (hp : ∀ i < (request t (b :: vals)).length, p i = (request t (b :: vals)).getD i 0) :
    freedAddr p ≠ a := by
  have hget : freedAddr p = b := by
    rw [freedAddr, ← hfield]
    refine get_request (b :: vals) (fun i hi => hp i ?_) hl rfl (by rw [hfield]; exact hb)
    rwa [request, length_encode]
  exact fun h => hne (h ▸ hget)

theorem RangeAt.freeing {a b : Nat} (h : RangeAt k a s.drv.m.tab) {c : Cmd} (hc : c ∉ resetCmds)
    {t : CStruct} {vals : List Nat} (hfield : field t 0 = freeReq.devPtr)
    (hl : (b :: vals).length ≤ t.length) (hb : b < 2 ^ 64) (hne : a ≠ b) :
    RangeAt k a ((HmCuda.dispatch c (request t (b :: vals)) 0).run e s).2.drv.m.tab ∧
      RangeAt k a ((HmCuda.drvDispatch c (request t (b :: vals)) 0).run e s).2.drv.m.tab :=
  have hfree := freedAddr_ne hfield hl hb hne
  ⟨h.dispatch hc fun _ => hfree, h.drvDispatch hc fun _ => hfree⟩

theorem GuestCall.Regular.ranges (hk : ∀ i, (e.drv i).key = k) (hg : e.Grants) {c : GuestCall}
    (hc : c.Regular (c.run.run e s).1 (liveHandle tr))
    (ih : ∀ a, liveHandle tr a → RangeAt k a s.drv.m.tab) (a : Nat)
    (ha : liveHandle ((c, (c.run.run e s).1) :: tr) a) :
    RangeAt k a (c.run.run e s).2.drv.m.tab := by
  have kept (hl : liveHandle tr a) (hq : ∀ cmd ∈ c.cmds, cmd ∉ resetCmds ∧ cmd ∉ freeCmds) :
      RangeAt k a (c.run.run e s).2.drv.m.tab := (logged_range k a).call c hq e s (ih a hl)
  have other {b : Nat} {r : Returned} (hb : liveHandle tr b → r.ret = some 0)
      (ha : (!(decide (r.ret = some 0) && decide (a = b)) && liveHandle tr a) = true) :
      a ≠ b ∧ liveHandle tr a = true := by
    obtain ⟨h1, h2⟩ := Bool.and_eq_true_iff.mp ha
    refine ⟨fun hab => ?_, h2⟩
    subst hab
    simp [hb h2] at h1
  cases c with
  | cuMemAlloc dptr n =>
    rcases Bool.or_eq_true_iff.mp ha with hout | hl
    · exact rangeAt_alloc hk hg (f := .cuMemAlloc n) (x := .cuMemAlloc n) rfl (typed_one hc) rfl
        (.inl rfl) rfl (of_decide_eq_true hout)
    · exact kept hl (by simp [GuestCall.cmds, resetCmds, freeCmds])
  | cuMemAddressReserve ptr n al ad fl =>
    rcases Bool.or_eq_true_iff.mp ha with hout | hl
    · have ht : (DrvForward.cuMemAddressReserve n al ad fl).message.Typed := by
        obtain ⟨h1, h2, h3, h4⟩ := hc
        intro i v hv
        rcases i with _ | _ | _ | _ | i <;> simp [DrvForward.message] at hv <;> subst hv
        exacts [h1, h2, h3, h4]
      exact rangeAt_alloc hk hg (f := .cuMemAddressReserve n al ad fl)
        (x := .cuMemAddressReserve n al ad fl) rfl ht rfl (.inr rfl) rfl
        (of_decide_eq_true hout)
    · exact kept hl (by simp [GuestCall.cmds, resetCmds, freeCmds])
  | cuMemFree b =>
    obtain ⟨hne, hl⟩ := other hc.2 ha
    let s₁ := { s with deviceHandles := Function.update s.deviceHandles b false }
    exact (RangeAt.freeing (s := s₁) (c := .drv .cuMemFree) (t := cuMemFreeReq) (ih a hl) (by decide)
      rfl (Nat.le_of_eq rfl) hc.1 hne).2
  | cuMemAddressFree b n =>
    obtain ⟨hne, hl⟩ := other hc.2 ha
    let s₁ := { s with deviceHandles := Function.update s.deviceHandles b false }
    exact (RangeAt.freeing (s := s₁) (c := .drv .cuMemAddressFree) (t := cuMemAddressFreeReq) (ih a hl) (by decide)
      rfl (Nat.le_of_eq rfl) hc.1 hne).2
  | cudaFree b =>
    have hne : a ≠ b := fun hab => by simp [liveHandle, hab, hc.2] at ha
    exact (RangeAt.freeing (c := .rt .free) (t := freeReq) (ih a ha) (by decide) rfl
      (Nat.le_of_eq rfl) hc.1 hne).1
  | forward d cmd req n =>
    refine kept ha fun c' hc' => ?_
    obtain rfl := List.mem_singleton.mp hc'
    exact ⟨fun hr => Bool.false_ne_true ((hc.2 hr a).symm.trans ha), hc.1⟩
  | cuMemHostAlloc | cuMemFreeHost | cuMemcpyAsync | cuMemcpyHtoD | cuMemcpyDtoH | cudaMalloc
      | cudaMemcpy | cudaLaunchKernel | cudaRegisterFunction =>
    exact kept ha (by simp [GuestCall.cmds, resetCmds, freeCmds])

theorem RegularRun.ranges (hk : ∀ i, (e.drv i).key = k) (hg : e.Grants)
    (h : RegularRun e drv tr s) : ∀ a, liveHandle tr a → RangeAt k a s.drv.m.tab := by
  induction h with
  | start => exact fun a ha => by cases ha
  | call c _ _ hc ih => exact hc.ranges hk hg ih

end Runs

/-- After every regular run `cuMemcpyAsync` takes for device addresses exactly the live handles
of the driver library, by their value alone. The direction follows, the backend resolves each of
them among its device ranges, and none is pinned. -/
theorem cuMemcpyAsync_direction (e : GuestEnv) (k : Key) (hk : ∀ i, (e.drv i).key = k)
    (hg : e.Grants) (drv : DrvSt) (h0 : drv.m.tab = .start) (tr : List (GuestCall × Returned))
    (s : GuestSt) (h : RegularRun e drv tr s) (dst src n stream : Nat) (hdst : dst < 2 ^ 64)
    (hsrc : src < 2 ^ 64) :
    (∀ a, s.deviceHandles a = liveHandle tr a) ∧
    (∀ a, s.deviceHandles a → 0 < a ∧ memGet k s.drv.m a = a) ∧
    ∃ reqs, ((cuMemcpyAsync dst src n stream).run e s).2.sent = s.sent ++ reqs ∧
      Directed e s dst src n stream (liveHandle tr) reqs ∧
      ∀ q ∈ reqs, ∀ a, q.pinned = some a → liveHandle tr a = false := by
  have hh := h.handles
  obtain ⟨reqs, hsent, hreqs⟩ := cuMemcpyAsync_sent e s dst src n stream
  rw [hh] at hreqs
  refine ⟨congrFun hh, fun a ha => ?_, reqs, hsent, hreqs, fun q hq a => hreqs.pinned hdst hsrc hq⟩
  have hr := h.ranges hk hg a (hh ▸ ha)
  refine ⟨hr.1, hr.memGet fun c hc r hrc => ?_⟩
  obtain ⟨x, -, p, -, hmakes⟩ := (GuestRun.accounted h0 h.guestRun).requested hc hrc
  exact hmakes.1

theorem allocEnv_grants : allocEnv.Grants where
  code i j c := by
    simp only [allocEnv, DrvEnv.quiet]
    split
    · decide
    · split <;> decide
  range i j fn n rest hfn h0 := by
    simp only [allocEnv, DrvEnv.quiet] at h0 ⊢
    split at h0
    next h =>
      rw [if_pos h]
      simp only [LibRet.out, List.getD_cons_zero] at h ⊢
      omega
    · cases h0

/-- The middle of an allocation is no handle; its start resolves where it is. -/
theorem cuMemcpyAsync_direction_allocRun :
    allocRun.2.deviceHandles 0x7f0000000000 = true ∧
    memGet ⟨1, 1⟩ allocRun.2.drv.m 0x7f0000000000 = 0x7f0000000000 ∧ ∃ reqs,
      ((cuMemcpyAsync 0x7f0000000000 0x7f0000000080 64 0).run allocEnv allocRun.2).2.sent =
        allocRun.2.sent ++ reqs ∧ ∀ q ∈ reqs, ∀ a, q.pinned = some a →
          liveHandle [(.cuMemAlloc true 256, allocRun.1),
            (.forward true (.rt .init) [] 0, allocInit.1)] a = false := by
  have hrun : RegularRun allocEnv (.start fun _ _ => 0) [(.cuMemAlloc true 256, allocRun.1),
      (.forward true (.rt .init) [] 0, allocInit.1)] allocRun.2 :=
    .call _ (.call _ .start (by simp) ⟨by decide, fun _ _ => rfl⟩)
      (by simpa using (by decide +kernel : allocInit.1.ret.isSome = true)) (by show 256 < 2 ^ 64; decide)
  obtain ⟨h1, h2, reqs, h3, -, h4⟩ := cuMemcpyAsync_direction allocEnv ⟨1, 1⟩ (fun _ => rfl)
    allocEnv_grants _ rfl _ allocRun.2 hrun 0x7f0000000000 0x7f0000000080 64 0 (by decide)
    (by decide)
  have hlive : allocRun.2.deviceHandles 0x7f0000000000 = true := by
    rw [h1, allocRun_out]
    rfl
  exact ⟨hlive, (h2 _ hlive).2, reqs, h3, h4⟩

end HmCuda
