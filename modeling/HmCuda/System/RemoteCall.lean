import HmCuda.Guest.Forward
import HmCuda.System.LaunchParams
import HmCuda.System.Releases

/-! A forwarded call as a remote procedure call: the backend's operation runs on the caller's
arguments at most once, and the caller gets its results or an error. -/

namespace HmCuda
open Layout

/-! The handler of a message -/

/-- The members of a structure, from member `i` on, have these values. -/
def Members (t : CStruct) (p : Nat → UInt8) : Nat → List Nat → Prop
  | _, [] => True
  | i, v :: vs => (field t i).get p = v ∧ Members t p (i + 1) vs

theorem members_of_get {t : CStruct} {p : Nat → UInt8} (vals : List Nat) (i : Nat)
    (h : ∀ j v, vals[j]? = some v → (field t (i + j)).get p = v) : Members t p i vals := by
  induction vals generalizing i with
  | nil => trivial
  | cons v vs ih =>
    refine ⟨h 0 v rfl, ih (i + 1) fun j w hw => ?_⟩
    rw [Nat.add_right_comm]
    exact h (j + 1) w hw

def Cmd.handler : Cmd → CmdM Unit
  | .rt c => runtimeHandleCmd c
  | .drv c => driverHandleCmd c

theorem dispatchCmd_handler (c : Cmd) (e : CmdEnv) (s : CmdSt) :
    (dispatchCmd c.code).run e s = (true, (c.handler.run e s).2) := by
  rw [dispatchCmd, Cmd.ofCode_code]
  cases c <;> rfl

/-- A handler ran the operation `op` and answers with its results. -/
structure Performed (e : CmdEnv) (s : CmdSt) (resp : CStruct) (op : CoreM Answer) (r : CmdSt) :
    Prop where
  be : r.be = (op.run e.env s.be).2
  err : r.err = (op.run e.env s.be).1.1 % 2 ^ 32
  resp : ∃ stale, r.resp = respImage resp stale (op.run e.env s.be).1.2
  d2h : r.d2h = s.d2h

section Performed
variable {e : CmdEnv} {s : CmdSt} {resp : CStruct}

variable {r : CmdSt}

theorem performed_coded {m : CoreM Nat} (hbe : r.be = (m.run e.env s.be).2)
    (herr : r.err = (m.run e.env s.be).1 % 2 ^ 32) (hresp : r.resp = []) (hd : r.d2h = s.d2h) :
    Performed e s [] (coded m) r := ⟨hbe, herr, ⟨fun _ => 0, hresp⟩, hd⟩

theorem performed_reply {op : CoreM Answer} {stale : Nat → UInt8}
    (hbe : r.be = (op.run e.env s.be).2) (herr : r.err = (op.run e.env s.be).1.1 % 2 ^ 32)
    (hresp : r.resp = respImage resp stale (op.run e.env s.be).1.2 ++ []) (hd : r.d2h = s.d2h) :
    Performed e s resp op r := ⟨hbe, herr, ⟨stale, by rwa [List.append_nil] at hresp⟩, hd⟩

theorem replyFilled_resp (out : Option (List Nat)) : ((replyFilled resp out).run e s).2.resp =
    (out.map fun vals => respImage resp (fun _ => 0) (vals.map some)).getD
      (respImage resp (e.env.stale s.be.dev.clock) []) := by
  cases out <;> rfl

theorem performed_filled {m : QueryM (Nat × Option (List Nat))} (stale : Nat → UInt8)
    (hbe : r.be = ((query m).run e.env s.be).2)
    (herr : r.err = (m.run ⟨e.env, s.be.tab⟩ s.be.dev).1.1 % 2 ^ 32)
    (hresp : ∀ o, (m.run ⟨e.env, s.be.tab⟩ s.be.dev).1.2 = o →
      r.resp = (o.map fun vals => respImage resp (fun _ => 0) (vals.map some)).getD
        (respImage resp stale [])) (hd : r.d2h = s.d2h) :
    Performed e s resp (filling m) r := by
  refine ⟨hbe, herr, ?_, hd⟩
  rcases ho : (m.run ⟨e.env, s.be.tab⟩ s.be.dev).1.2 with _ | vals
  · refine ⟨stale, (hresp none ho).trans ?_⟩
    show _ = respImage resp stale (((m.run ⟨e.env, s.be.tab⟩ s.be.dev).1.2.getD []).map some)
    rw [ho]
    rfl
  · refine ⟨fun _ => 0, (hresp _ ho).trans ?_⟩
    show _ = respImage resp _ (((m.run ⟨e.env, s.be.tab⟩ s.be.dev).1.2.getD []).map some)
    rw [ho]
    rfl

end Performed

section Message
variable {e : CmdEnv} {s : CmdSt}

theorem RtForward.performed {f : RtForward} {op : CoreM Answer} (hop : f.op e.key = some op)
    (h : Members f.message.struct s.payload 0 f.message.vals) (hr : s.resp = []) :
    Performed e s f.message.resp op (f.message.cmd.handler.run e s).2 := by
  cases f
  case cudaMemcpy => cases hop
  all_goals
    obtain rfl := Option.some.inj hop
    dsimp only [message, Members] at h
  case cudaMalloc =>
    obtain ⟨rfl, -⟩ := h
    exact performed_reply rfl rfl rfl rfl
  case cudaEventElapsedTime =>
    obtain ⟨rfl, rfl, -⟩ := h
    exact performed_reply rfl rfl rfl rfl
  case cudaStreamCreate =>
    rw [show (0 : Nat) = streamCreateReq.flags.get s.payload from h.1.symm]
    exact performed_reply rfl rfl rfl rfl
  case cudaEventCreate =>
    rw [show (0 : Nat) = eventCreateReq.flags.get s.payload from h.1.symm]
    exact performed_reply rfl rfl rfl rfl
  case cudaMemset =>
    obtain ⟨rfl, rfl, rfl, -⟩ := h
    exact performed_coded rfl rfl hr rfl
  case cudaEventRecord =>
    obtain ⟨rfl, rfl, -⟩ := h
    exact performed_coded rfl rfl hr rfl
  case cudaPushCallConfiguration grid block _ _ =>
    obtain ⟨x, y, z⟩ := grid
    obtain ⟨x', y', z'⟩ := block
    obtain ⟨rfl, rfl, rfl, rfl, rfl, rfl, rfl, rfl, -⟩ := h
    exact performed_coded rfl rfl hr rfl
  case cudaDeviceSynchronize => exact performed_coded rfl rfl hr rfl
  case cudaGetDeviceCount | cudaRuntimeGetVersion => exact performed_reply rfl rfl rfl rfl
  case cudaPopCallConfiguration => exact performed_reply rfl rfl rfl rfl
  case cudaGetDeviceProperties =>
    obtain ⟨rfl, -⟩ := h
    refine performed_filled (e.env.stale ((coreGetDeviceProperties
      (getDevicePropertiesReq.device.get s.payload)).run ⟨e.env, s.be.tab⟩ s.be.dev).2.clock)
      rfl rfl (fun o ho => ?_) rfl
    subst ho
    exact replyFilled_resp _
  all_goals
    obtain ⟨rfl, -⟩ := h
    exact performed_coded rfl rfl hr rfl

theorem DrvForward.performed (f : DrvForward)
    (h : Members f.message.struct s.payload 0 f.message.vals) (hr : s.resp = []) :
    Performed e s f.message.resp (f.op e.key) (f.message.cmd.handler.run e s).2 := by
  cases f
  all_goals dsimp only [message, Members] at h
  case cuDriverGetVersion | cuDeviceGetCount | cuCtxGetDevice =>
    exact performed_reply rfl rfl rfl rfl
  case cuDeviceGet | cuDeviceGetUuid | cuDevicePrimaryCtxRetain | cuStreamCreate | cuStreamGetCtx
      | cuEventCreate | cuMemAlloc =>
    obtain ⟨rfl, -⟩ := h
    exact performed_reply rfl rfl rfl rfl
  case cuDeviceGetAttribute | cuDeviceCanAccessPeer | cuEventElapsedTime | cuPointerGetAttribute
      | cuMemImportFromShareableHandle =>
    obtain ⟨rfl, rfl, -⟩ := h
    exact performed_reply rfl rfl rfl rfl
  case cuMemExportToShareableHandle =>
    obtain ⟨rfl, rfl, rfl, -⟩ := h
    exact performed_reply rfl rfl rfl rfl
  case cuMemAddressReserve =>
    obtain ⟨rfl, rfl, rfl, rfl, -⟩ := h
    exact performed_reply rfl rfl rfl rfl
  case cuMemCreate size prop flags =>
    obtain ⟨a, b, c, d⟩ := prop
    obtain ⟨rfl, rfl, rfl, rfl, rfl, rfl, -⟩ := h
    exact performed_reply rfl rfl rfl rfl
  case cuMemGetAllocationGranularity prop option =>
    obtain ⟨a, b, c, d⟩ := prop
    obtain ⟨rfl, rfl, rfl, rfl, rfl, -⟩ := h
    exact performed_reply rfl rfl rfl rfl
  case cuMulticastCreate prop =>
    obtain ⟨a, b, c⟩ := prop
    obtain ⟨rfl, rfl, rfl, -⟩ := h
    exact performed_reply rfl rfl rfl rfl
  case cuMulticastGetGranularity prop option =>
    obtain ⟨a, b, c⟩ := prop
    obtain ⟨rfl, rfl, rfl, rfl, -⟩ := h
    exact performed_reply rfl rfl rfl rfl
  case cuMulticastBindMem =>
    obtain ⟨rfl, rfl, rfl, rfl, rfl, rfl, -⟩ := h
    exact performed_coded rfl rfl hr rfl
  case cuMemMap =>
    obtain ⟨rfl, rfl, rfl, rfl, rfl, -⟩ := h
    exact performed_coded rfl rfl hr rfl
  case cuMemcpyAsync | cuMulticastUnbind =>
    obtain ⟨rfl, rfl, rfl, rfl, -⟩ := h
    exact performed_coded rfl rfl hr rfl
  case cuStreamWaitEvent | cuMemsetD32 =>
    obtain ⟨rfl, rfl, rfl, -⟩ := h
    exact performed_coded rfl rfl hr rfl
  case cuCtxEnablePeerAccess | cuEventRecord | cuMemUnmap | cuMemAddressFree
      | cuMulticastAddDevice =>
    obtain ⟨rfl, rfl, -⟩ := h
    exact performed_coded rfl rfl hr rfl
  all_goals
    obtain ⟨rfl, -⟩ := h
    exact performed_coded rfl rfl hr rfl

theorem Forward.performed {f : Forward} {op : CoreM Answer} (hop : f.op e.key = some op)
    (h : Members f.message.struct s.payload 0 f.message.vals) (hr : s.resp = []) :
    Performed e s f.message.resp op (f.message.cmd.handler.run e s).2 := by
  cases f with
  | init =>
    obtain rfl := Option.some.inj hop
    exact performed_coded rfl rfl hr rfl
  | initModule =>
    obtain rfl := Option.some.inj hop
    dsimp only [message, Members] at h
    obtain ⟨rfl, -⟩ := h
    exact performed_coded rfl rfl hr rfl
  | funcGetAttributes =>
    obtain rfl := Option.some.inj hop
    dsimp only [message, Members] at h
    obtain ⟨rfl, -⟩ := h
    refine performed_filled (e.env.stale ((coreFuncGetAttributes e.key
      (funcGetAttributesReq.func.get s.payload)).run ⟨e.env, s.be.tab⟩ s.be.dev).2.clock)
      rfl rfl (fun o ho => ?_) rfl
    subst ho
    exact replyFilled_resp _
  | rt f => exact f.performed hop h hr
  | drv f =>
    obtain rfl := Option.some.inj hop
    exact f.performed h hr

end Message

namespace Forward

theorem sizes {f : Forward} {k : Key} {op : CoreM Answer} (hop : f.op k = some op) :
    (∀ p, (f.message.cmd.sizes p).reqSize = sizeof f.message.struct) ∧
      (f.message.cmd.sizes none).respSize = sizeof f.message.resp ∧
      f.message.vals.length ≤ f.message.struct.length ∧ ¬isMemcpy f.message.cmd.code := by
  have h0 : (0 : Nat) = sizeof [] := by decide
  cases f with
  | init => exact ⟨fun _ => h0, h0, Nat.le_refl _, by decide⟩
  | initModule => exact ⟨fun _ => rfl, h0, Nat.le_refl _, by dsimp only [message]; decide⟩
  | funcGetAttributes => exact ⟨fun _ => rfl, rfl, Nat.le_refl _, by dsimp only [message]; decide⟩
  | rt f =>
    cases f
    case cudaMemcpy => cases hop
    all_goals
      refine ⟨fun _ => ?_, ?_, Nat.le_refl _, by dsimp only [message, RtForward.message]; decide⟩
    all_goals first | rfl | exact h0
  | drv f =>
    cases f
    all_goals
      refine ⟨fun _ => ?_, ?_, Nat.le_refl _, by dsimp only [message, DrvForward.message]; decide⟩
    all_goals first | rfl | exact h0

/-- The call of the transport, by the driver library's dispatch function or the runtime
library's. -/
def call (f : Forward) (drv : Bool) (e : GuestEnv) (s : GuestSt) : Call :=
  ⟨if drv then s.link e else s.transport, e.stack s.sent.length, f.message.cmd, f.message.req,
    sizeof f.message.resp⟩

def driver (f : Forward) (drv : Bool) (e : GuestEnv) (s : GuestSt) : DrvEnv :=
  (e.drv s.sent.length).calling (f.call drv e s).buf

theorem pass_run (f : Forward) (drv : Bool) (e : GuestEnv) (s : GuestSt) :
    let r := (f.call drv e s).dispatch.run (e.drv s.sent.length) s.drv
    (pass drv f.message).run e s = (⟨r.1.ret, unpack f.message.resp r.1⟩, { s with
      drv := r.2
      transport := (f.call drv e s).transport
      sent := s.sent ++ [⟨f.message.cmd, f.message.req⟩] }) := by
  cases drv
  · rfl
  · show (pass true f.message).run e s = _
    simp only [pass, if_true, Prog.bind_run, drvDispatch_link]
    rfl

end Forward

/-! What comes back -/

theorem get_respImage_assigned (t : CStruct) (stale : Nat → UInt8) (vals : List (Option Nat))
    {i v : Nat} (hv : vals[i]? = some (some v)) :
    (field t i).get (fun a => (respImage t stale vals).getD a 0) = v % 256 ^ (field t i).size := by
  rw [Field.get_congr fun a _ ha => getD_respImage (ha.trans_le (stop_le_sizeof t i))]
  -- by the last member: it is the one, or lies behind it, or is none of the structure's
  induction vals using List.reverseRecOn with
  | nil => simp at hv
  | append_singleton vals x ih =>
    simp only [List.zipIdx_append, Nat.zero_add, List.zipIdx_cons, List.zipIdx_nil,
      List.foldl_append, List.foldl_cons, List.foldl_nil]
    rcases Nat.lt_or_ge i vals.length with hi | hi
    · have hd : (field t i).stop ≤ (field t vals.length).off ∨
          (field t vals.length).stop ≤ (field t i).off := by
        rcases Nat.lt_or_ge vals.length t.length with hl | hl
        · exact .inl (field_stop_le_off hi hl)
        · right
          rw [field, List.getD_eq_default _ _ (by rwa [length_fieldsFrom])]
          exact Nat.zero_le _
      rw [List.getElem?_append_left hi] at hv
      cases x with
      | none => exact ih hv
      | some w => exact (Field.get_set_ne _ _ hd.symm).trans (ih hv)
    · obtain ⟨hlt, hx⟩ := List.getElem?_eq_some_iff.mp hv
      obtain rfl : i = vals.length := by simp at hlt; omega
      obtain rfl : x = some v := by simpa using hx
      exact Field.get_set _ _ _

section
variable {e : DrvEnv} {c : Cmd} {n m : Nat} {img : Nat → UInt8}

/-- A plain call whose answer cannot be copied out fails. -/
theorem ret_lost (h : Sent e c n m img) (hm : ¬isMemcpy c.code) (hcopy : e.copyOut = false)
    (s : DrvSt) (buf : Nat → UInt8) (respLen : Nat) :
    dispatchResult buf respLen (hmcudaIoctl.run e s).1 = ⟨some 1, none⟩ := by
  obtain ⟨evs, -, hres⟩ := hmcudaIoctl_answered h hm s
  rw [if_neg (by simp [hcopy])] at hres
  rw [dispatchResult, hres]
  rfl

end
theorem dispatchResult_some {buf : Nat → UInt8} {respLen : Nat} {r : IoctlRes}
    (h : (dispatchResult buf respLen r).ret = some 0) (hl : 0 < respLen) :
    ∃ bs, (dispatchResult buf respLen r).resp = some bs := by
  unfold dispatchResult at h ⊢
  split at h
  · split at h
    · cases h
    next hx =>
      dsimp only at h ⊢
      split at h
      next hne => exact absurd (Option.some.inj h) hne
      next hz =>
        rw [if_neg hx, if_neg hz, if_pos hl]
        exact ⟨_, rfl⟩
  · cases h
  · cases h

theorem resp_answered {e : DrvEnv} {c : Cmd} {n m : Nat} {img : Nat → UInt8}
    (h : Sent e c n m img) (hm : ¬isMemcpy c.code) (s : DrvSt) (buf : Nat → UInt8) {a : Nat}
    (hlen : (plainServed e c n m (s.showing e img)).payload.length = m)
    (h0 : (dispatchResult buf m (hmcudaIoctl.run e s).1).ret = some 0) (ha : a < m) :
    ((dispatchResult buf m (hmcudaIoctl.run e s).1).resp.getD []).getD a 0 =
      (plainServed e c n m (s.showing e img)).payload.getD a 0 := by
  obtain ⟨bs, hbs⟩ := dispatchResult_some h0 (Nat.zero_lt_of_lt ha)
  have hroom : min (plainServed e c n m (s.showing e img)).payload.length m ≤ m := min_le_right _ _
  have hb := (handedOn_of_room buf h hm s m hroom).bytes bs hbs
  rw [hbs, Option.getD_some]
  have hget := congrArg (fun l => l[a]?) hb
  simp only [hlen, List.getElem?_take_of_lt ha] at hget
  rw [List.getD_eq_getElem?_getD, List.getD_eq_getElem?_getD, hget]

theorem Call.unready_result {x : Call} (h : ¬x.ready) (d : DrvEnv) (s : DrvSt) : ∃ err, err ≠ 0 ∧
    x.dispatch.run d s = (⟨some err, none⟩, s) := by
  unfold Call.dispatch transportDispatch
  dsimp only
  split
  · exact ⟨1, by decide, rfl⟩
  next h1 =>
    split
    · exact ⟨3, by decide, rfl⟩
    next h2 => exact absurd ⟨by simpa using h1, by simpa using h2⟩ h

/-- The backend made nothing of a call, and the application is told so. -/
structure Unexecuted (caller : Nat) (s s' : DrvSt) (r : Passed) : Prop where
  ret : ∃ err, err ≠ 0 ∧ r.ret = some err
  outs : r.outs = none
  backend : ∃ f, s'.m = s.m.setMem (.resp caller) f

/-- The backend ran the operation once, from `M`, and wrote nothing but its answer. The
application has the results, or an error where the answer was lost. -/
structure Executed (d : DrvEnv) (op : CoreM Answer) (resp : CStruct) (M : Machine) (s' : DrvSt)
    (r : Passed) : Prop where
  backend : ∃ bs, s'.m = (op.run d.sys M).2.deliver d.sys [⟨.resp d.caller, 0, bs⟩]
  ret : r.ret = some (if d.copyOut then (op.run d.sys M).1.1 % 2 ^ 32 else 1)
  outs : r.ret = some 0 → ∃ outs, r.outs = some outs ∧ outs.length = resp.length ∧
    ∀ i < resp.length, ∀ v, (op.run d.sys M).1.2[i]? = some (some v) →
      outs[i]? = some (v % 256 ^ (field resp i).size)
  unset : r.ret ≠ some 0 → r.outs = none

namespace Forward

section
variable {f : Forward} {drv : Bool} {e : GuestEnv} {s : GuestSt} {op : CoreM Answer}

theorem members_shown {n m : Nat} {img : Nat → UInt8} (hop : f.op (f.driver drv e s).key = some op)
    (ht : f.message.Typed) (hsent : Sent (f.driver drv e s) f.message.cmd n m img) (M : DrvSt) :
    Members f.message.struct (cmdStart (f.driver drv e s).sys (plainElem (f.driver drv e s) n m)
      (M.showing (f.driver drv e s) img)).payload 0 f.message.vals := by
  obtain ⟨hreq, -, hl, -⟩ := f.sizes hop
  have hlen : f.message.req.length = sizeof f.message.struct := length_encode _ _ _
  have hn : n = f.message.req.length := (reqSizes_fixed hreq hsent.sizes).trans hlen.symm
  refine members_of_get _ 0 fun i v hv => ?_
  rw [Nat.zero_add]
  refine get_request f.message.vals (fun a ha => ?_) hl hv (ht i v hv)
  have hlt : payloadOff + a < (plainElem (f.driver drv e s) n m).reqLen := by
    rw [hsent.reqLen, hn, hlen]
    exact Nat.add_lt_add_left ha _
  rw [cmdStart_payload hlt, plainElem_image]
  exact VarReq.Sent.image_of_call (x := f.call drv e s) hsent hn (by rwa [hn, hlen])

theorem executed_of_sent {n m : Nat} {img : Nat → UInt8}
    (hop : f.op (f.driver drv e s).key = some op) (ht : f.message.Typed)
    (hready : (f.call drv e s).ready) (hsent : Sent (f.driver drv e s) f.message.cmd n m img) :
    Executed (f.driver drv e s) op f.message.resp (s.drv.showing (f.driver drv e s) img)
      ((pass drv f.message).run e s).2.drv ((pass drv f.message).run e s).1 := by
  obtain ⟨-, hresp, -, hplain⟩ := f.sizes hop
  have hm : m = sizeof f.message.resp := hsent.respLen.trans hresp
  let M := s.drv.showing (f.driver drv e s) img
  let st := cmdStart (f.driver drv e s).sys (plainElem (f.driver drv e s) n m) M
  let r := f.message.cmd.handler.run
    (cmdEnv (f.driver drv e s).sys (f.driver drv e s).key (plainElem (f.driver drv e s) n m)) st
  have hp : Performed (cmdEnv (f.driver drv e s).sys (f.driver drv e s).key
      (plainElem (f.driver drv e s) n m)) st f.message.resp op r.2 :=
    f.performed hop (members_shown hop ht hsent s.drv) rfl
  have hreply : (plainReply (f.driver drv e s) f.message.cmd n m M).2 = r.2 := by
    rw [plainReply, dispatchCmd_handler]
  obtain ⟨evs, hst, -⟩ := hmcudaIoctl_answered hsent hplain s.drv
  have hrun := Call.dispatch_run hready (e.drv s.sent.length) s.drv
  rw [f.pass_run, hrun]
  dsimp only
  have herr : (plainServed (f.driver drv e s) f.message.cmd n m M).err =
      (op.run (f.driver drv e s).sys M).1.1 % 2 ^ 32 := (congrArg CmdSt.err hreply).trans hp.err
  obtain ⟨stale, hpay⟩ := hp.resp
  have hpayload : (plainServed (f.driver drv e s) f.message.cmd n m M).payload = respImage
      f.message.resp stale (op.run (f.driver drv e s).sys M).1.2 :=
    (congrArg CmdSt.resp hreply).trans hpay
  have hret : (dispatchResult (f.call drv e s).buf (sizeof f.message.resp)
      (hmcudaIoctl.run (f.driver drv e s) s.drv).1).ret = some (if (f.driver drv e s).copyOut then
        (op.run (f.driver drv e s).sys M).1.1 % 2 ^ 32 else 1) := by
    rcases hcopy : (f.driver drv e s).copyOut
    · rw [ret_lost hsent hplain hcopy]
      rfl
    · rw [ret_answered hsent hplain hcopy, herr, Nat.mod_mod]
      rfl
  have hbe : r.2.be = (op.run (f.driver drv e s).sys M).2 := hp.be
  have hm' : (hmcudaIoctl.run (f.driver drv e s) s.drv).2.m =
      (op.run (f.driver drv e s).sys M).2.deliver (f.driver drv e s).sys
        (plainServed (f.driver drv e s) f.message.cmd n m M).writes := by
    rw [hst, DrvSt.answered, hreply, hbe]
  rw [plainServed_writes hsent] at hm'
  refine ⟨⟨_, hm'⟩, hret, fun h0 => ⟨_, if_pos h0, by simp, fun i hi v hv => ?_⟩,
    fun h0 => if_neg h0⟩
  rw [List.getElem?_map, List.getElem?_range hi, Option.map_some]
  refine congrArg some ((Field.get_congr fun a _ ha => ?_).trans
    (get_respImage_assigned f.message.resp stale _ hv))
  have hlt : a < sizeof f.message.resp := ha.trans_le (stop_le_sizeof _ _)
  have hbytes := resp_answered hsent hplain s.drv (f.call drv e s).buf (a := a)
    (by rw [hpayload, length_respImage, hm]) (by rw [hm]; exact h0) (hm ▸ hlt)
  rw [hpayload, hm] at hbytes
  exact hbytes

theorem unexecuted (hop : f.op (f.driver drv e s).key = some op)
    (hno : ¬((f.call drv e s).ready ∧ ∃ n m img, Sent (f.driver drv e s) f.message.cmd n m img)) :
    Unexecuted (e.drv s.sent.length).caller s.drv ((pass drv f.message).run e s).2.drv
      ((pass drv f.message).run e s).1 := by
  by_cases hready : (f.call drv e s).ready
  · have hsent (n m : Nat) (img : Nat → UInt8) :
        ¬Sent (f.driver drv e s) f.message.cmd n m img := fun h => hno ⟨hready, n, m, img, h⟩
    have hhdr := (f.call drv e s).header (e.drv s.sent.length)
    obtain ⟨err, hneg, hret⟩ := hmcudaIoctl_refused_fixed (f.sizes hop).1 (f.sizes hop).2.2.2
      hhdr hsent s.drv
    have hq := (hmcudaIoctl_refused (f.sizes hop).2.2.2 hhdr hsent s.drv).2
    have hres : dispatchResult (f.call drv e s).buf (f.call drv e s).respLen
        (hmcudaIoctl.run ((e.drv s.sent.length).calling (f.call drv e s).buf) s.drv).1 =
          ⟨some 1, none⟩ := by
      rw [dispatchResult, hret]
      exact if_pos hneg
    rw [f.pass_run, Call.dispatch_run hready, hres]
    exact ⟨⟨1, by decide, rfl⟩, by simp [unpack], hq.m⟩
  · obtain ⟨err, herr, hrun⟩ := Call.unready_result hready (e.drv s.sent.length) s.drv
    rw [f.pass_run, hrun]
    exact ⟨⟨err, herr, rfl⟩, if_neg fun h0 => herr (Option.some.inj h0),
      s.drv.m.dev.eng.mem (.resp (e.drv s.sent.length).caller),
      (Machine.setMem_self s.drv.m (.resp (e.drv s.sent.length).caller)).symm⟩

variable (f drv e s) in
theorem executed_of_zero (hop : f.op (e.drv s.sent.length).key = some op) (ht : f.message.Typed)
    (h0 : ((pass drv f.message).run e s).1.ret = some 0) :
    ∃ img, Executed (e.drv s.sent.length) op f.message.resp
      (s.drv.showing (e.drv s.sent.length) img) ((pass drv f.message).run e s).2.drv
      ((pass drv f.message).run e s).1 := by
  by_contra hne
  obtain ⟨err, herr, hret⟩ := Unexecuted.ret <| unexecuted hop fun h => by
    obtain ⟨hready, n, m, img, hsent⟩ := h
    obtain ⟨hb, hret, houts, hunset⟩ := executed_of_sent hop ht hready hsent
    exact hne ⟨img, hb, hret, houts, hunset⟩
  exact herr (Option.some.inj (hret.symm.trans h0))

end
end Forward

/-- A call of either library is executed at most once, on the arguments it was given: either
the backend did nothing and the call fails, or its operation ran once and the application
has what it answered. -/
theorem forward_executed (f : Forward) (drv : Bool) (e : GuestEnv) (s : GuestSt)
    {op : CoreM Answer} (hop : f.op (e.drv s.sent.length).key = some op) (ht : f.message.Typed) :
    Unexecuted (e.drv s.sent.length).caller s.drv ((pass drv f.message).run e s).2.drv
        ((pass drv f.message).run e s).1 ∨
      ∃ img, Executed (e.drv s.sent.length) op f.message.resp
        (s.drv.showing (e.drv s.sent.length) img) ((pass drv f.message).run e s).2.drv
        ((pass drv f.message).run e s).1 := by
  by_cases h : (f.call drv e s).ready ∧ ∃ n m img, Sent (f.driver drv e s) f.message.cmd n m img
  · obtain ⟨hready, n, m, img, hsent⟩ := h
    obtain ⟨hb, hret, houts, hunset⟩ := Forward.executed_of_sent hop ht hready hsent
    exact .inr ⟨img, hb, hret, houts, hunset⟩
  · exact .inl (Forward.unexecuted hop h)

def quietGuest : GuestEnv := ⟨fun _ => .quiet .quiet fun _ _ => 0, fun _ _ => 0, fun _ _ => 0,
  false, fun _ => true⟩

theorem forward_executed_cuDeviceGet :
    ∃ img, Executed (quietGuest.drv 0) (asking (lib .cuDeviceGet [5] [])) cuDeviceGetResp
      ((DrvSt.start fun _ _ => 0).showing (quietGuest.drv 0) img)
      ((pass true (Forward.drv (.cuDeviceGet 5)).message).run quietGuest
        (.start (.start fun _ _ => 0))).2.drv
      ((pass true (Forward.drv (.cuDeviceGet 5)).message).run quietGuest
        (.start (.start fun _ _ => 0))).1 := by
  have ht : (Forward.drv (.cuDeviceGet 5)).message.Typed := by
    intro i v hv
    obtain ⟨hi, hv⟩ := List.getElem?_eq_some_iff.mp hv
    obtain rfl : i = 0 := Nat.lt_one_iff.mp hi
    exact hv ▸ (by decide : 5 < 256 ^ (field cuDeviceGetReq 0).size)
  rcases forward_executed (.drv (.cuDeviceGet 5)) true quietGuest (.start (.start fun _ _ => 0))
    rfl ht with h | h
  · obtain ⟨err, hne, hret⟩ := h.ret
    have h0 : ((pass true (Forward.drv (.cuDeviceGet 5)).message).run quietGuest
        (.start (.start fun _ _ => 0))).1.ret = some 0 := by decide +kernel
    exact absurd (Option.some.inj (hret.symm.trans h0)) hne
  · exact h

end HmCuda
