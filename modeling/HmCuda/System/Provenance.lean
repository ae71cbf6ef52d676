import HmCuda.System.CopyDirection
import HmCuda.System.HostAllocs
import HmCuda.System.RemoteCall

/-! The tables of the backend as an account of the requests a process has sent. -/

namespace HmCuda
open Layout

/-- A request that can lead to an operation on the tables: what it carries decides everything
but the session and the pointers, which CUDA chooses. -/
def Sending.Asks (x : Sending) (o : TabOp) : Prop :=
  ∃ k p, (∀ a < x.req.length, p a = x.req.getD a 0) ∧ CmdOp k p x.cmd o

/-- Each request has contributed operations it asked for, in the order of the requests. -/
def Accounted (sent : List Sending) (t : Tables) : Prop :=
  ∃ opss, List.Forall₂ (fun x os => ∀ o ∈ os, x.Asks o) sent opss ∧
    t = Tables.start.after opss.flatten

theorem Accounted.snoc {sent : List Sending} {t : Tables} (h : Accounted sent t) {x : Sending}
    {ops : List TabOp} (hops : ∀ o ∈ ops, x.Asks o) : Accounted (sent ++ [x]) (t.after ops) := by
  obtain ⟨opss, hall, rfl⟩ := h
  refine ⟨opss ++ [ops], List.rel_append hall (.cons hops .nil), ?_⟩
  rw [List.flatten_append, Tables.after, Tables.after, Tables.after, List.foldl_append]
  simp

/-! What an operation goes by -/

def Cmd.opLen : Cmd → Nat
  | .rt .launchKernel | .rt .registerFatbin | .drv .cuMemSetAccess => 0
  | c => (c.sizes none).reqSize

theorem CmdOp.congr {k : Key} {p q : Nat → UInt8} {c : Cmd} {o : TabOp} (h : CmdOp k p c o)
    (hpq : ∀ a < c.opLen, p a = q a) : CmdOp k q c o := by
  have hget (t : CStruct) (i : Nat) (ht : sizeof t ≤ c.opLen) :
      (field t i).get p = (field t i).get q :=
    Field.get_congr fun a _ ha => hpq a (ha.trans_le ((stop_le_sizeof t i).trans ht))
  cases c with
  | rt c =>
    cases c
    case malloc =>
      obtain ⟨r, rfl⟩ := h
      exact ⟨r, by rw [mallocReq.size, hget mallocReq 0 le_rfl]⟩
    case free => exact h.trans (by rw [freeReq.devPtr, hget freeReq 0 le_rfl])
    case eventDestroy =>
      exact h.trans (by rw [eventDestroyReq.event, hget eventDestroyReq 0 le_rfl])
    case registerFunction =>
      obtain ⟨r, rfl⟩ := h
      exact ⟨r, by rw [registerFunctionReq.hostFun, hget registerFunctionReq 1 le_rfl]⟩
    all_goals exact h
  | drv c =>
    cases c
    case cuDevicePrimaryCtxRetain =>
      refine h.imp_right (Or.imp_right fun ⟨r, hr⟩ => ⟨r, hr.trans ?_⟩)
      rw [cuDevicePrimaryCtxRetainReq.device, hget cuDevicePrimaryCtxRetainReq 0 le_rfl]
    case cuStreamDestroy =>
      exact h.trans (by rw [cuStreamDestroyReq.stream, hget cuStreamDestroyReq 0 le_rfl])
    case cuEventDestroy =>
      exact h.trans (by rw [cuEventDestroyReq.event, hget cuEventDestroyReq 0 le_rfl])
    case cuMemAlloc =>
      obtain ⟨r, rfl⟩ := h
      exact ⟨r, by rw [cuMemAllocReq.bytesize, hget cuMemAllocReq 0 le_rfl]⟩
    case cuMemFree => exact h.trans (by rw [cuMemFreeReq.dptr, hget cuMemFreeReq 0 le_rfl])
    case cuMemHostAlloc =>
      obtain ⟨r, t, ht, rfl⟩ := h
      exact ⟨r, t, ht, by rw [cuMemHostAllocReq.bytesize, cuMemHostAllocReq.guestVa,
        hget cuMemHostAllocReq 0 le_rfl, hget cuMemHostAllocReq 2 le_rfl]⟩
    case cuMemFreeHost =>
      obtain ⟨t, ht, rfl⟩ := h
      exact ⟨t, ht, by rw [cuMemFreeHostReq.guestVa, hget cuMemFreeHostReq 0 le_rfl]⟩
    case cuMemCreate =>
      obtain ⟨r, rfl⟩ := h
      exact ⟨r, by rw [cuMemCreateReq.size, hget cuMemCreateReq 0 le_rfl]⟩
    case cuMemRelease =>
      exact h.trans (by rw [cuMemReleaseReq.handle, hget cuMemReleaseReq 0 le_rfl])
    case cuMemAddressReserve =>
      obtain ⟨r, rfl⟩ := h
      exact ⟨r, by rw [cuMemAddressReserveReq.size, hget cuMemAddressReserveReq 0 le_rfl]⟩
    case cuMemAddressFree =>
      exact h.trans (by rw [cuMemAddressFreeReq.ptr, hget cuMemAddressFreeReq 0 le_rfl])
    all_goals exact h

theorem opLen_le {e : DrvEnv} {c : Cmd} {n m : Nat} (h : reqSizes e c = .ok (n, m)) :
    c.opLen ≤ n := by
  have fixed (hc : ∀ p, (c.sizes p).reqSize = (c.sizes none).reqSize) : c.opLen ≤ n := by
    rw [reqSizes_fixed hc h]
    unfold Cmd.opLen
    split
    all_goals first | exact Nat.zero_le _ | exact le_rfl
  cases c with
  | rt c =>
    cases c
    case launchKernel | registerFatbin => exact Nat.zero_le _
    case registerFunction =>
      unfold reqSizes at h
      rw [if_pos (by decide)] at h
      split at h
      · split at h
        · cases h
        next p hp =>
          obtain ⟨rfl, -⟩ := Prod.mk.inj (Except.ok.inj h)
          have hlen : registerFunctionReq.deviceNameLen.get p < 2 ^ 32 := Field.get_lt _ _
          show sizeof registerFunctionReq ≤ add64 (sizeof registerFunctionReq) _
          have hsize : sizeof registerFunctionReq = 24 := by decide
          rw [hsize, add64_of_lt (by omega)]
          exact Nat.le_add_right _ _
      · cases h
    all_goals exact fixed fun _ => rfl
  | drv c =>
    cases c
    case cuMemSetAccess => exact Nat.zero_le _
    all_goals exact fixed fun _ => rfl

/-! One request -/

section
variable {x : Call} {d : DrvEnv}

theorem asks_of_payload {k : Key} {p : Nat → UInt8} {o : TabOp} {n : Nat} (hn : x.cmd.opLen ≤ n)
    (hp : ∀ a < n, a < x.req.length → p a = x.req.getD a 0) (h : CmdOp k p x.cmd o) :
    Sending.Asks ⟨x.cmd, x.req⟩ o := by
  refine ⟨k, fun a => if a < x.req.length then x.req.getD a 0 else p a, fun a ha => if_pos ha,
    h.congr fun a ha => ?_⟩
  split
  next hlt => exact hp a (ha.trans_le hn) hlt
  · rfl

theorem plain_ops {n m : Nat} {img : Nat → UInt8} (hm : ¬isMemcpy x.cmd.code)
    (h : Sent (d.calling x.buf) x.cmd n m img) (s : DrvSt) :
    ∃ ops, (∀ o ∈ ops, Sending.Asks ⟨x.cmd, x.req⟩ o) ∧
      (hmcudaIoctl.run (d.calling x.buf) s).2.m.tab = s.m.tab.after ops := by
  obtain ⟨evs, hst, -⟩ := hmcudaIoctl_answered h hm s
  let e := d.calling x.buf
  obtain ⟨ops, hops, htab⟩ := dispatchCmd_ops x.cmd.code
    (cmdEnv e.sys e.key (plainElem e n m)) (cmdStart e.sys (plainElem e n m) (s.showing e img))
  refine ⟨ops, fun o ho => ?_, by rw [hst]; exact htab⟩
  obtain ⟨c, hc, hop, -⟩ := hops o ho
  rw [Cmd.ofCode_code] at hc
  obtain rfl := Option.some.inj hc
  refine asks_of_payload (opLen_le h.sizes) (fun a ha hlt => ?_) hop
  rw [cmdStart_payload, plainElem_image]
  · obtain ⟨hdr, -, -, hb⟩ := h.image
    obtain ⟨p, hp, rfl⟩ := built_ok hb
    have hq := VarReq.fetch_calling_eq (hp (Nat.zero_lt_of_lt ha))
    exact (payloadOf_reqImage hdr p ha).trans
      ((congrFun hq a).trans (VarReq.dispatchBuf_payload x.left _ _ _ hlt))
  · rw [h.reqLen]
    exact Nat.add_lt_add_left ha _

/-- What one batch of a copy does to the tables. -/
theorem Batched.ops {e : DrvEnv} {c : CopyCmd} {a : MemcpyArgs} {off : Nat} {s s' : DrvSt}
    {pfns : List Nat} {sv : Served} (h : Batched e c a off s pfns sv s') :
    ∃ ops, (∀ o ∈ ops, CmdOp e.key (batchPayload e c a off s pfns) c.cmd o) ∧
      s'.m.tab = s.m.tab.after ops := by
  let st := cmdStart e.sys (batchElem e c a off pfns) (s.shown e c a off)
  obtain ⟨ops, hops, htab⟩ := dispatchCmd_ops c.cmd.code
    (cmdEnv e.sys e.key (batchElem e c a off pfns)) st
  obtain ⟨-, hran⟩ := c.dispatch_ran
    (e := cmdEnv e.sys e.key (batchElem e c a off pfns)) (s := st) rfl
  refine ⟨ops, fun o ho => ?_, ?_⟩
  · obtain ⟨c', hc, hop, -⟩ := hops o ho
    rw [Cmd.ofCode_code] at hc
    obtain rfl := Option.some.inj hc
    exact hop
  · rw [hran.be] at htab
    rw [h.post]
    exact htab

def SameAlloc (p q : Nat → UInt8) : Prop :=
  cuMemHostAllocReq.bytesize.get p = cuMemHostAllocReq.bytesize.get q ∧
    cuMemHostAllocReq.guestVa.get p = cuMemHostAllocReq.guestVa.get q

theorem CmdOp.copy {k : Key} {p q : Nat → UInt8} {c : CopyCmd} {o : TabOp} (h : CmdOp k p c.cmd o)
    (hpq : c = .cuMemHostAlloc → SameAlloc p q) : CmdOp k q c.cmd o := by
  cases c with
  | memcpy => exact h
  | cuMemcpy => exact h
  | cuMemHostAlloc =>
    obtain ⟨h1, h2⟩ := hpq rfl
    obtain ⟨r, t, ht, rfl⟩ := h
    exact ⟨r, t, ht, by rw [h1, h2]⟩

theorem copyLoop_ops {e : DrvEnv} {c : CopyCmd} {a : MemcpyArgs} {s : DrvSt}
    (hcode : reqHeader.cmdType.get s.reqBuf = c.cmd.code) :
    ∃ ops, (∀ o ∈ ops, CmdOp e.key (payloadOf s.reqBuf) c.cmd o) ∧
      ((copyLoop c a).run e s).2.m.tab = s.m.tab.after ops := by
  let P (t : DrvSt) : Prop := ∃ ops, (∀ o ∈ ops, CmdOp e.key (payloadOf s.reqBuf) c.cmd o) ∧
    t.m.tab = s.m.tab.after ops
  let I (t : DrvSt) : Prop := reqHeader.cmdType.get t.reqBuf = c.cmd.code ∧
    (c = .cuMemHostAlloc → SameAlloc (payloadOf t.reqBuf) (payloadOf s.reqBuf)) ∧ P t
  have step {off : Nat} {t t' : DrvSt} {pfns : List Nat} {sv : Served} (hI : I t)
      (hb : Batched e c a off t pfns sv t') : I t' := by
    obtain ⟨h1, h2, ops, h3, h4⟩ := hI
    obtain ⟨ops', h5, h6⟩ := hb.ops
    have hbuf : t'.reqBuf = batchReq c.cmd.code a off t.reqBuf := by rw [hb.post]; rfl
    have same (hc : c = .cuMemHostAlloc) :
        SameAlloc (payloadOf t'.reqBuf) (payloadOf s.reqBuf) ∧
          SameAlloc (batchPayload e c a off t pfns) (payloadOf s.reqBuf) := by
      subst hc
      have hreq := AllocReq.batchReq ⟨h1, rfl, rfl, rfl⟩ a off
      obtain ⟨h7, h8⟩ := h2 rfl
      rw [hbuf]
      refine ⟨⟨hreq.bytesize.trans h7, hreq.guestVa.trans h8⟩, ?_, ?_⟩
      · exact (get_batchPayload a 0).trans (hreq.bytesize.trans h7)
      · exact (get_batchPayload a 2).trans (hreq.guestVa.trans h8)
    refine ⟨by rw [hbuf]; exact (cmdType_withPayload _ _).trans h1, fun hc => (same hc).1,
      ops ++ ops', fun o ho => ?_, ?_⟩
    · rcases List.mem_append.mp ho with ho | ho
      · exact h3 o ho
      · exact (h5 o ho).copy fun hc => (same hc).2
    · rw [h6, h4, Tables.after, Tables.after, Tables.after, List.foldl_append]
  refine copyLoop_rule (I := fun _ => I) (Q := fun _ => P) (fun off t hI => hI.1)
    (fun off t t' h _ hI hu _ _ => ?_) (fun off t t' pfns sv _ hI hb _ => step hI hb)
    (fun off t t' pfns sv _ hI hb _ => (step hI hb).2.2) (fun t hI => hI.2.2)
    ⟨hcode, fun _ => ⟨rfl, rfl⟩, [], by simp, rfl⟩
  obtain ⟨ops, h1, h2⟩ := hI.2.2
  exact ⟨ops, h1, by rw [hu.m, h2]⟩

theorem quiet_ops {s s' : DrvSt} {caller : Nat} (h : s.Quiet caller s') :
    ∃ ops, (∀ o ∈ ops, Sending.Asks ⟨x.cmd, x.req⟩ o) ∧ s'.m.tab = s.m.tab.after ops := by
  obtain ⟨f, hf⟩ := h.m
  exact ⟨[], by simp, by rw [hf]; rfl⟩

theorem copy_ops {c : CopyCmd} (hc : x.cmd = c.cmd) {hdr p : Nat → UInt8}
    (h : Built (d.calling x.buf) c hdr p) (s : DrvSt) :
    ∃ ops, (∀ o ∈ ops, Sending.Asks ⟨x.cmd, x.req⟩ o) ∧
      (hmcudaIoctl.run (d.calling x.buf) s).2.m.tab = s.m.tab.after ops := by
  by_cases ha : (d.calling x.buf).kmalloc .pages = true ∧ (d.calling x.buf).kmalloc .sgBatch = true
  swap
  · exact quiet_ops (hmcudaIoctl_noLoop h ha s).2
  obtain ⟨evs, s', -, ⟨_, hsame, -⟩, hrun⟩ := hmcudaIoctl_loop h ha s
  have hcode : reqHeader.cmdType.get (s.atLoop (d.calling x.buf) c hdr p evs).reqBuf = c.cmd.code :=
    (cmdType_reqImage _ _ _).trans h.code
  obtain ⟨ops, hops, htab⟩ := copyLoop_ops (e := d.calling x.buf) (a := copyArgs c hdr p) hcode
  refine ⟨ops,
    fun o ho => asks_of_payload (n := c.fixed) ?_ (fun a ha hlt => ?_) (hc ▸ hops o ho), ?_⟩
  · rw [hc]
    cases c <;> exact le_rfl
  · have hq := VarReq.fetch_calling_eq h.payload
    exact (payloadOf_reqImage hdr p ha).trans
      ((congrFun hq a).trans (VarReq.dispatchBuf_payload x.left _ _ _ hlt))
  · rw [hrun, finishIoctl_m, hsame]
    exact htab

/-- One request changes the tables by operations it asks for. -/
theorem Call.ops (x : Call) (d : DrvEnv) (s : DrvSt) :
    ∃ ops, (∀ o ∈ ops, Sending.Asks ⟨x.cmd, x.req⟩ o) ∧
      (x.dispatch.run d s).2.m.tab = s.m.tab.after ops := by
  by_cases hready : x.ready
  swap
  · obtain ⟨err, -, hrun⟩ := Call.unready_result hready d s
    exact ⟨[], by simp, by rw [hrun]; rfl⟩
  rw [Call.dispatch_run hready]
  have hhdr := x.header d
  by_cases hm : isMemcpy x.cmd.code
  · obtain ⟨c, hc⟩ := copyCmd_of_isMemcpy hm
    rcases hh : (d.calling x.buf).fetch 0 0 (sizeof reqHeader) with _ | hdr
    · exact ⟨[], by simp, by rw [hmcudaIoctl_noHeader hh]; rfl⟩
    by_cases hb : ∃ p, Built (d.calling x.buf) c hdr p
    · obtain ⟨p, hb⟩ := hb
      exact copy_ops hc hb s
    · obtain ⟨-, -, -, hq⟩ := hmcudaIoctl_unbuilt hh (hc ▸ hhdr hdr hh) (not_exists.mp hb) s
      exact quiet_ops hq
  · by_cases hs : ∃ n m img, Sent (d.calling x.buf) x.cmd n m img
    · obtain ⟨n, m, img, hs⟩ := hs
      exact plain_ops hm hs s
    · exact quiet_ops (hmcudaIoctl_refused hm hhdr (fun n m img h => hs ⟨n, m, img, h⟩) s).2

end

/-! A run of the process -/

def GuestCall.cmds : GuestCall → List Cmd
  | cuMemAlloc .. => [.drv .cuMemAlloc]
  | cuMemFree .. => [.drv .cuMemFree]
  | cuMemAddressReserve .. => [.drv .cuMemAddressReserve]
  | cuMemAddressFree .. => [.drv .cuMemAddressFree]
  | cuMemHostAlloc .. => [.drv .cuMemHostAlloc]
  | cuMemFreeHost .. => [.drv .cuMemFreeHost]
  | cuMemcpyAsync .. => [.drv .cuMemcpy, .drv .cuMemcpyAsync]
  | cuMemcpyHtoD .. | cuMemcpyDtoH .. => [.drv .cuMemcpy]
  | cudaMalloc .. => [.rt .malloc]
  | cudaFree .. => [.rt .free]
  | cudaMemcpy .. => [.rt .memcpy]
  | cudaLaunchKernel .. => [.drv .cuMemcpy, .rt .launchKernel]
  | cudaRegisterFunction .. => [.rt .registerFunction]
  | forward _ cmd _ _ => [cmd]

/-- What requests of the commands in `Q` keep, and whatever the libraries only note for
themselves. -/
structure Logged (Q : Cmd → Prop) (P : GuestSt → Prop) : Prop where
  dispatch (cmd : Cmd) (hq : Q cmd) (req : List UInt8) (n : Nat) : Prog.Keeps P (dispatch cmd req n)
  noted {s s' : GuestSt} (hd : s'.drv = s.drv) (hs : s'.sent = s.sent) : P s → P s'

section Keeps
open Prog
variable {Q : Cmd → Prop} {P : GuestSt → Prop}

theorem Logged.framed (h : Logged Q P) : Framed Q P :=
  ⟨h.dispatch, fun _ _ => h.noted rfl rfl, fun _ _ _ _ => h.noted rfl rfl⟩

theorem Logged.modify (h : Logged Q P) {f : GuestSt → GuestSt} (hd : ∀ s, (f s).drv = s.drv)
    (hs : ∀ s, (f s).sent = s.sent) : Keeps P (Prog.modify f : GuestM Unit) :=
  fun _ s => h.noted (hd s) (hs s)

theorem Logged.alloc (h : Logged Q P) {cmd : Cmd} (hq : Q cmd) (req : List UInt8) (resp : CStruct)
    (out : Prop) [Decidable out] : Keeps P (do
      let r ← drvDispatch cmd req (sizeof resp)
      if r.ret = some 0 ∧ out then
        let h := respWord resp r
        Prog.modify fun s => { s with deviceHandles := Function.update s.deviceHandles h true }
        return ⟨some 0, some h⟩
      else
        return ⟨r.ret, none⟩ : GuestM Returned) := by
  refine keeps_bind (h.framed.drvDispatch hq _ _) fun r => keeps_ite (fun _ => ?_) fun _ =>
    keeps_pure _
  exact keeps_bind (h.modify (fun _ => rfl) fun _ => rfl) fun _ => keeps_pure _

theorem Logged.call (h : Logged Q P) (c : GuestCall) (hq : ∀ cmd ∈ c.cmds, Q cmd) :
    Keeps P c.run := by
  have frame := h.framed
  cases c with
  | cuMemAlloc dptr n => exact h.alloc (hq _ List.mem_cons_self) _ _ _
  | cuMemAddressReserve ptr n al ad fl => exact h.alloc (hq _ List.mem_cons_self) _ _ _
  | cuMemFree b =>
    have hq : Q (.drv .cuMemFree) := hq _ List.mem_cons_self
    exact keeps_bind (h.modify (fun _ => rfl) fun _ => rfl) fun _ =>
      keeps_bind (frame.drvDispatch hq _ _) fun _ => keeps_pure _
  | cuMemAddressFree b n =>
    have hq : Q (.drv .cuMemAddressFree) := hq _ List.mem_cons_self
    exact keeps_bind (h.modify (fun _ => rfl) fun _ => rfl) fun _ =>
      keeps_bind (frame.drvDispatch hq _ _) fun _ => keeps_pure _
  | cuMemHostAlloc malloc n fl =>
    have hc : Q (.drv .cuMemHostAlloc) := hq _ List.mem_cons_self
    cases malloc with
    | none => exact keeps_pure _
    | some va =>
      refine keeps_bind (frame.drvDispatch hc _ _) fun r => keeps_ite (fun _ => ?_) fun _ =>
        keeps_pure _
      exact keeps_bind (h.modify (fun _ => rfl) fun _ => rfl) fun _ => keeps_pure _
  | cuMemFreeHost p =>
    have hq : Q (.drv .cuMemFreeHost) := hq _ List.mem_cons_self
    refine keeps_bind keeps_get fun t => keeps_ite (fun _ => keeps_pure _) fun _ => ?_
    exact keeps_bind (h.modify (fun _ => rfl) fun _ => rfl) fun _ =>
      keeps_bind (frame.drvDispatch hq _ _) fun _ => keeps_pure _
  | cuMemcpyAsync dst src n stream =>
    have hasync : Q (.drv .cuMemcpyAsync) := hq _ (by simp [GuestCall.cmds])
    have hq : Q (.drv .cuMemcpy) := hq _ List.mem_cons_self
    refine keeps_map (keeps_bind keeps_get fun t => keeps_ite
      (fun _ => frame.pulledCopy hq _ _ _ _ _) fun _ => keeps_ite
      (fun _ => frame.copyBack hq _ _ _ _) fun _ => ?_)
    exact keeps_bind (frame.drvDispatch hasync _ _) fun _ => keeps_pure _
  | cuMemcpyHtoD dst src n =>
    exact keeps_map (frame.pulledCopy (hq _ List.mem_cons_self) _ _ _ _ _)
  | cuMemcpyDtoH dst src n =>
    exact keeps_map (frame.copyBack (hq _ List.mem_cons_self) _ _ _ _)
  | cudaMalloc devPtr n =>
    exact keeps_bind (h.dispatch _ (hq _ List.mem_cons_self) _ _) fun _ => keeps_pure _
  | cudaFree devPtr =>
    exact keeps_bind (h.dispatch _ (hq _ List.mem_cons_self) _ _) fun _ => keeps_pure _
  | cudaMemcpy dst src n kind =>
    exact keeps_map (keeps_bind (h.dispatch _ (hq _ List.mem_cons_self) _ _) fun _ =>
      keeps_pure _)
  | cudaLaunchKernel func grid block args sharedMem stream =>
    exact keeps_map (frame.cudaLaunchKernel (hq _ List.mem_cons_self)
      (hq _ (by simp [GuestCall.cmds])) _ _ _ _ _ _)
  | cudaRegisterFunction fatbin hostFun name k =>
    have hq : Q (.rt .registerFunction) := hq _ List.mem_cons_self
    refine keeps_map (keeps_bind keeps_ask fun e => keeps_bind keeps_get fun s =>
      keeps_bind (h.dispatch _ hq _ _) fun r => ?_)
    split
    · exact keeps_bind (h.modify (fun _ => rfl) fun _ => rfl) fun _ => keeps_pure _
    · exact keeps_pure _
  | forward drv cmd req n =>
    have hc : Q cmd := hq _ List.mem_cons_self
    cases drv with
    | true => exact keeps_bind (frame.drvDispatch hc _ _) fun _ => keeps_pure _
    | false => exact keeps_bind (h.dispatch _ hc _ _) fun _ => keeps_pure _

end Keeps

theorem logged_accounted : Logged (fun _ => True) fun s => Accounted s.sent s.drv.m.tab where
  dispatch cmd _ req n e s h := by
    obtain ⟨ops, hops, htab⟩ := Call.ops ⟨s.transport, e.stack s.sent.length, cmd, req, n⟩
      (e.drv s.sent.length) s.drv
    have h := h.snoc hops
    rw [← htab] at h
    exact h
  noted hd hs h := by rwa [hd, hs]

theorem GuestRun.accounted {e : GuestEnv} {drv : DrvSt} (h0 : drv.m.tab = .start)
    {tr : List (GuestCall × Returned)} {s : GuestSt} (h : GuestRun e drv tr s) :
    Accounted s.sent s.drv.m.tab := by
  induction h with
  | start => exact ⟨[], .nil, h0⟩
  | call c _ _ ih => exact logged_accounted.call c (fun _ _ => trivial) e _ ih

/-! What an entry says about a request -/

/-- The request, with whatever lies behind it, can have made the entry. -/
def Sending.Makes (x : Sending) (ty : ResType) (r : Resource) : Prop :=
  ∃ p, (∀ a < x.req.length, p a = x.req.getD a 0) ∧ match ty with
    | .mem => r.handle = r.realPtr ∧ (x.cmd = .rt .malloc ∧ r.size = mallocReq.size.get p ∨
        x.cmd = .drv .cuMemAlloc ∧ r.size = cuMemAllocReq.bytesize.get p ∨
        x.cmd = .drv .cuMemAddressReserve ∧ r.size = cuMemAddressReserveReq.size.get p)
    | .hostMem | .hostDevPtr => x.cmd = .drv .cuMemHostAlloc ∧
        r.size = cuMemHostAllocReq.bytesize.get p ∧ r.handle = cuMemHostAllocReq.guestVa.get p
    | .function => x.cmd = .rt .registerFunction ∧ r.handle = registerFunctionReq.hostFun.get p
    | .module => x.cmd = .rt .registerFatbin
    | .stream => x.cmd = .rt .streamCreate ∨ x.cmd = .drv .cuStreamCreate
    | .event => x.cmd = .rt .eventCreate ∨ x.cmd = .drv .cuEventCreate
    | .context => x.cmd = .drv .cuStreamGetCtx ∨ x.cmd = .drv .cuDevicePrimaryCtxRetain ∧
        r.size = cuDevicePrimaryCtxRetainReq.device.get p
    | .genericAlloc => x.cmd = .drv .cuMemCreate ∧ r.size = cuMemCreateReq.size.get p ∨
        x.cmd = .drv .cuMemImportFromShareableHandle ∨ x.cmd = .drv .cuMulticastCreate

theorem Sending.Asks.makes {x : Sending} {o : TabOp} {ty : ResType} {r : Resource} (h : x.Asks o)
    (hr : o.Enters ty r) : x.Makes ty r := by
  obtain ⟨k, p, hp, ho⟩ := h
  refine ⟨p, hp, ?_⟩
  obtain ⟨c, req⟩ := x
  rcases c with c | c <;> cases c
  all_goals simp only [CmdOp] at ho
  case rt.init =>
    rcases ho with rfl | rfl
    all_goals exact hr.elim
  case drv.cuDevicePrimaryCtxRetain =>
    rcases ho with rfl | rfl | ⟨q, rfl⟩
    · exact hr.elim
    · exact hr.elim
    · obtain ⟨rfl, -, h2⟩ := hr
      simp [h2]
  case drv.cuMemHostAlloc =>
    obtain ⟨q, t, rfl | rfl, rfl⟩ := ho
    all_goals
      obtain ⟨rfl, rfl⟩ := hr
      simp
  case drv.cuMemFreeHost =>
    obtain ⟨t, rfl | rfl, rfl⟩ := ho
    all_goals exact hr.elim
  case rt.malloc | rt.registerFunction | drv.cuMemAlloc | drv.cuMemAddressReserve =>
    obtain ⟨q, rfl⟩ := ho
    obtain ⟨rfl, rfl⟩ := hr
    simp
  case rt.streamCreate | rt.eventCreate | rt.registerFatbin | drv.cuStreamCreate
      | drv.cuStreamGetCtx | drv.cuEventCreate | drv.cuMemCreate
      | drv.cuMemImportFromShareableHandle | drv.cuMulticastCreate =>
    obtain ⟨q, rfl⟩ := ho
    obtain ⟨rfl, -, h2⟩ := hr
    simp [h2]
  case rt.free | rt.eventDestroy | drv.cuStreamDestroy | drv.cuEventDestroy | drv.cuMemFree
      | drv.cuMemRelease | drv.cuMemAddressFree =>
    subst ho
    exact hr.elim

theorem entered_after {t : Tables} {ops : List TabOp} {c : Context} {ty : ResType} {r : Resource}
    (hc : c ∈ (t.after ops).ctxs) (hr : r ∈ c.resources ty) :
    (∃ d ∈ t.ctxs, r ∈ d.resources ty) ∨ ∃ o ∈ ops, o.Enters ty r := by
  induction ops using List.reverseRecOn generalizing c with
  | nil => exact .inl ⟨c, hc, hr⟩
  | append_singleton ops o ih =>
    rw [Tables.after, List.foldl_append] at hc
    rcases TabOp.entry_apply hc hr with ⟨d, hd, hr⟩ | ho
    · rcases ih hd hr with hold | ⟨o', ho', he⟩
      · exact .inl hold
      · exact .inr ⟨o', List.mem_append_left _ ho', he⟩
    · exact .inr ⟨o, List.mem_append_right _ (List.mem_singleton_self o), ho⟩

theorem asked_of_mem {sent : List Sending} {opss : List (List TabOp)} {o : TabOp}
    (h : List.Forall₂ (fun x os => ∀ o ∈ os, x.Asks o) sent opss) (ho : o ∈ opss.flatten) :
    ∃ x ∈ sent, x.Asks o := by
  induction h with
  | nil => exact absurd ho List.not_mem_nil
  | cons hx _ ih =>
    rw [List.flatten_cons] at ho
    rcases List.mem_append.mp ho with ho | ho
    · exact ⟨_, List.mem_cons_self, hx o ho⟩
    · obtain ⟨x, hmem, hx⟩ := ih ho
      exact ⟨x, List.mem_cons_of_mem _ hmem, hx⟩

theorem Accounted.requested {sent : List Sending} {t : Tables} (h : Accounted sent t) {c : Context}
    (hc : c ∈ t.ctxs) {ty : ResType} {r : Resource} (hr : r ∈ c.resources ty) :
    ∃ x ∈ sent, x.Makes ty r := by
  obtain ⟨opss, hall, rfl⟩ := h
  rcases entered_after hc hr with ⟨d, hd, -⟩ | ⟨o, ho, he⟩
  · exact absurd hd List.not_mem_nil
  · obtain ⟨x, hx, hasks⟩ := asked_of_mem hall ho
    exact ⟨x, hx, hasks.makes he⟩

/-- In every run of a process the tables of the backend are what the requests sent so far make
of empty ones, each by operations that it asked for; every entry was made by one of them, under
the handle and for the size that the request gives. -/
theorem tables_accounted {e : GuestEnv} {drv : DrvSt} (h0 : drv.m.tab = .start)
    {tr : List (GuestCall × Returned)} {s : GuestSt} (h : GuestRun e drv tr s) :
    Accounted s.sent s.drv.m.tab ∧ ∀ c ∈ s.drv.m.tab.ctxs, ∀ ty, ∀ r ∈ c.resources ty,
      ∃ x ∈ s.sent, x.Makes ty r :=
  have hacc := GuestRun.accounted h0 h
  ⟨hacc, fun _ hc _ _ hr => hacc.requested hc hr⟩

theorem tables_accounted_allocRun :
    Accounted allocRun.2.sent allocRun.2.drv.m.tab ∧
      ∃ x ∈ allocRun.2.sent, x.Makes .mem ⟨0x7f0000000000, 0x7f0000000000, 256⟩ := by
  obtain ⟨h1, h2⟩ := tables_accounted rfl allocRun_guestRun
  have hentry : ∃ c ∈ allocRun.2.drv.m.tab.ctxs,
      ⟨0x7f0000000000, 0x7f0000000000, 256⟩ ∈ c.resources .mem := by decide +kernel
  obtain ⟨c, hc, hr⟩ := hentry
  exact ⟨h1, h2 c hc .mem _ hr⟩

end HmCuda
