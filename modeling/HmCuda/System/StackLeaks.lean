import HmCuda.System.Determined
import HmCuda.System.Queue

/-! What the outcome of a command leaves unassigned is sent as the stack held it, so that the
bytes of a response are decided only where the whole structure is assigned. -/

namespace HmCuda
open Layout

theorem respImage_none {t : CStruct} {g : Nat → UInt8} {vals : List (Option Nat)}
    (h : ∀ v ∈ vals, v = none) : respImage t g vals = (List.range (sizeof t)).map g := by
  have hidx : ∀ v ∈ vals.zipIdx, v.1 = none := fun v hv => h _ (List.fst_mem_of_mem_zipIdx hv)
  unfold respImage
  generalize vals.zipIdx = vs at hidx
  induction vs with
  | nil => rfl
  | cons v vs ih =>
    obtain ⟨v, i⟩ := v
    obtain rfl : v = none := hidx _ List.mem_cons_self
    exact ih fun v hv => hidx v (List.mem_cons_of_mem _ hv)

/-- The first byte of the response payload that the stack decides where the outcome of the command
does not assign the structure: a text comes behind its length. -/
def Cmd.staleOff : Cmd → Nat
  | .rt .getErrorString | .rt .getErrorName => sizeof getErrorStringResp
  | _ => 0

namespace Pair
variable {w : Pair} {α β : Type} {be : Machine} {p : Nat → UInt8} {off : Nat}

def Parted (w : Pair) : Prop := ∀ n i, w.stale n i ≠ w.cmd.env.stale n i

/-- From a backend and a payload on, the byte at `off` of the response differs with the stack,
and nothing before it does. -/
structure LeaksAt (w : Pair) (be : Machine) (p : Nat → UInt8) (off : Nat) (m : CmdM Unit) :
    Prop where
  differs : w.Parted → ∀ s, s.be = be → s.payload = p →
    (m.run w.other s).2.resp[off]? ≠ (m.run w.cmd s).2.resp[off]?
  grows : ∀ s, s.be = be → s.payload = p → s.top ≤ (m.run w.cmd s).2.top
  before : ∀ s s', s.be = be → s.payload = p → w.Twin s s' →
    (m.run w.cmd s).2.top ≤ w.cmd.elem.reqLen →
      (m.run w.other s').2.err = (m.run w.cmd s).2.err ∧
      (m.run w.other s').2.resp.length = (m.run w.cmd s).2.resp.length ∧
      (m.run w.other s').2.resp.take off = (m.run w.cmd s).2.resp.take off

theorem leaksAt_bind {x : CmdM α} {g : α → CmdM Unit} (hx : w.SimAt be p x)
    (hown : ∀ s, s.be = be → s.payload = p → x.run w.other s = x.run w.cmd s)
    (hg : ∀ s, s.be = be → s.payload = p →
      w.LeaksAt (x.run w.cmd s).2.be (x.run w.cmd s).2.payload off (g (x.run w.cmd s).1)) :
    w.LeaksAt be p off (x >>= g) where
  differs hw s hbe hp := by
    rw [Prog.bind_run, Prog.bind_run, hown s hbe hp]
    exact (hg s hbe hp).differs hw _ rfl rfl
  grows s hbe hp := (hx s hbe hp).1.trans ((hg s hbe hp).grows _ rfl rfl)
  before s s' hbe hp ht hle := by
    have hgrow := (hg s hbe hp).grows _ rfl rfl
    obtain ⟨hval, hnext⟩ := (hx s hbe hp).2 s' ht (hgrow.trans hle)
    rw [Prog.bind_run, Prog.bind_run, hval]
    exact (hg s hbe hp).before _ _ rfl rfl hnext hle

theorem leaksAt_req {f : Field} {g : Nat → CmdM Unit} (h : w.LeaksAt be p off (g (f.get p))) :
    w.LeaksAt be p off (req f >>= g) :=
  leaksAt_bind (sim_req f be p) (fun _ _ _ => rfl) fun s hbe hp => by
    subst hbe hp
    exact h

theorem leaksAt_key {g : Key → CmdM Unit} (h : w.LeaksAt be p off (g w.cmd.key)) :
    w.LeaksAt be p off (key >>= g) :=
  leaksAt_bind (sim_key be p) (fun _ _ _ => rfl) fun s hbe hp => by
    subst hbe hp
    exact h

theorem leaksAt_setErr {n : Nat} {m : CmdM Unit} (h : w.LeaksAt be p off m) :
    w.LeaksAt be p off (setErr n >>= fun _ => m) :=
  leaksAt_bind (sim_setErr n be p) (fun _ _ _ => rfl) fun s hbe hp => by
    subst hbe hp
    exact h

theorem leaksAt_words {f : Nat → Field} {n : Nat} {g : List Nat → CmdM Unit}
    (h : w.LeaksAt be p off (g (wordsAt f n p))) : w.LeaksAt be p off (words f n >>= g) := by
  unfold words
  unfold wordsAt at h
  generalize List.range n = is at h
  induction is generalizing g with
  | nil => exact h
  | cons i is ih =>
    have hrest := ih (g := fun vs => g ((f i).get p :: vs)) h
    exact leaksAt_req
      (g := fun v => Prog.collect (fun i => req (f i)) is >>= fun vs => g (v :: vs)) hrest

theorem leaksAt_core {m : CoreM α} {g : α → CmdM Unit} (hm : Own m)
    (h : w.LeaksAt (m.run w.cmd.env be).2 p off (g (m.run w.cmd.env be).1)) :
    w.LeaksAt be p off (core m >>= g) := by
  refine leaksAt_bind (sim_core hm be p) (fun s _ _ => ?_) fun s hbe hp => ?_
  · have hown : m.run w.other.env s.be = m.run w.cmd.env s.be := hm _ _ _ _
    show ((m.run w.other.env s.be).1, { s with be := (m.run w.other.env s.be).2 }) = _
    rw [hown]
    rfl
  · subst hbe hp
    exact h

theorem leaksAt_of_run {m m' : CmdM Unit} (hrun : ∀ e t, t.be = be → m'.run e t = m.run e t)
    (h : w.LeaksAt be p off m) : w.LeaksAt be p off m' where
  differs hw s hbe hp := by
    rw [hrun _ _ hbe, hrun _ _ hbe]
    exact h.differs hw s hbe hp
  grows s hbe hp := by
    rw [hrun _ _ hbe]
    exact h.grows s hbe hp
  before s s' hbe hp ht hle := by
    rw [hrun _ _ hbe] at hle ⊢
    rw [hrun _ _ (ht.be.trans hbe)]
    exact h.before s s' hbe hp ht hle

theorem leaksAt_reply {t : CStruct} {vals : List (Option Nat)} {rest : List UInt8}
    (ht : 0 < sizeof t) (hv : ∀ v ∈ vals, v = none) : w.LeaksAt be p 0 (reply t vals rest) where
  differs hw s _ _ := by
    have hfirst (g : Nat → UInt8) : (respImage t g vals ++ rest)[0]? = some (g 0) := by
      rw [respImage_none hv, List.getElem?_append_left (by simpa using ht), List.getElem?_map,
        List.getElem?_range ht]
      rfl
    rw [reply_resp, reply_resp, hfirst, hfirst]
    exact fun h => hw _ _ (Option.some.inj h)
  grows _ _ _ := le_rfl
  before s s' _ _ h _ := by
    refine ⟨h.err, ?_, rfl⟩
    rw [reply_resp, reply_resp, List.length_append, List.length_append, length_respImage,
      length_respImage]

theorem leaksAt_replyFilled {t : CStruct} {o : Option (List Nat)} (ht : 0 < sizeof t)
    (ho : o = none) : w.LeaksAt be p 0 (replyFilled t o) := by
  subst ho
  have h : w.LeaksAt be p 0 (reply t [] []) := leaksAt_reply ht fun v hv => by cases hv
  have hrun (e : CmdEnv) (s : CmdSt) : (replyFilled t none).run e s = (reply t [] []).run e s := by
    show ((), { s with resp := _ }) = ((), { s with resp := _ ++ [] })
    rw [List.append_nil]
  exact leaksAt_of_run (fun e s _ => hrun e s) h

theorem leaksAt_answerWith {t : CStruct} {m : CoreM (Nat × Option Nat)} (ht : 0 < sizeof t)
    (hm : Own m) (hout : (m.run w.cmd.env be).1.2 = none) :
    w.LeaksAt be p 0 (answerWith t m) := by
  refine leaksAt_core hm (leaksAt_setErr (leaksAt_reply ht fun v hv => ?_))
  rw [List.mem_singleton.mp hv, hout]

theorem leaksAt_answerLib {t : CStruct} {m : QueryM LibRet} (ht : 0 < sizeof t) (hm : OwnQ m)
    (hrefused : (m.run ⟨w.cmd.env, be.tab⟩ be.dev).1.code ≠ 0) :
    w.LeaksAt be p 0 (answerLib t m) := by
  refine leaksAt_answerWith ht (own_query (ownQ_bind hm fun _ => ownQ_pure _)) ?_
  show (if (m.run ⟨w.cmd.env, be.tab⟩ be.dev).1.code = 0 then _ else none : Option Nat) = none
  rw [if_neg hrefused]

theorem leaksAt_handleGetErrorText {fn : LibFn} {n : Nat} (h : ¬TextCopied w.cmd.env be fn [n]) :
    w.LeaksAt be p (sizeof getErrorStringResp) (handleGetErrorText (lib fn [n] [])) := by
  unfold TextCopied at h
  push Not at h
  obtain ⟨str, hstr, hlong⟩ := h
  refine leaksAt_core (own_query fun _ _ _ _ _ => rfl) (leaksAt_setErr ?_)
  have htext : ((query (lib fn [n] [])).run w.cmd.env be).1.str = some str := hstr
  rw [htext]
  -- the stack's bytes, in place of a text that does not fit
  let stack (e : CmdEnv) (s : CmdSt) : List UInt8 := (List.range (str.length + 1)).map fun i =>
    e.env.stale s.be.dev.clock (sizeof getErrorStringResp + i)
  refine leaksAt_of_run (m := ⟨fun e s =>
    (reply getErrorStringResp [some (str.length + 1)] (stack e s)).run e s⟩) (fun e s _ => ?_) ?_
  · simp only [Prog.bind_run, Prog.ask_run, Prog.get_run, if_neg hlong.not_ge, stack]
  · refine ⟨fun hw s _ _ => ?_, fun _ _ _ => le_rfl, fun s s' _ _ ht _ => ⟨ht.err, ?_, ?_⟩⟩
    · have hfirst (e : CmdEnv) (g : Nat → UInt8) :
          (respImage getErrorStringResp g [some (str.length + 1)] ++ stack e s)[
            sizeof getErrorStringResp]? =
              some (e.env.stale s.be.dev.clock (sizeof getErrorStringResp)) := by
        rw [List.getElem?_append_right (length_respImage ..).le, length_respImage, Nat.sub_self,
          List.getElem?_map, List.getElem?_range (Nat.succ_pos _)]
        rfl
      rw [reply_resp, reply_resp, hfirst, hfirst]
      exact fun h => hw _ _ (Option.some.inj h)
    · simp only [reply_resp, List.length_append, length_respImage, stack, List.length_map]
    · rw [reply_resp, reply_resp, List.take_left' (length_respImage ..),
        List.take_left' (length_respImage ..)]
      exact respImage_congr (show Covers getErrorStringResp [true] by decide) _ _

/-! Where an operation leaves its out-parameter alone -/

section
variable {γ : Type} {e : Env} {m : Machine} {k : Key}

theorem none_withCtxM {missing : β × Option γ} {f : Context → CoreM (β × Option γ)}
    (hmissing : missing.2 = none)
    (hf : ∀ c, m.tab.ctxGet k = some c → ((f c).run e m).1.2 = none) :
    ((withCtxM k missing f).run e m).1.2 = none := by
  rcases hctx : m.tab.ctxGet k with _ | c
  · unfold withCtxM
    dsimp only
    rw [hctx]
    exact hmissing
  · rw [run_withCtxM hctx]
    exact hf c hctx

theorem none_withCtx {q : QEnv} {v : Device} {missing : β × Option γ}
    {f : Context → QueryM (β × Option γ)} (hmissing : missing.2 = none)
    (hf : ∀ c, q.tab.ctxGet k = some c → ((f c).run q v).1.2 = none) :
    ((withCtx k missing f).run q v).1.2 = none := by
  rcases hctx : q.tab.ctxGet k with _ | c
  · unfold withCtx
    dsimp only
    rw [hctx]
    exact hmissing
  · rw [run_withCtx hctx]
    exact hf c hctx

theorem none_acquire {missing : Nat × Option Nat} {fn : LibFn} {args : List Nat}
    {data : List (List UInt8)} {f : LibRet → CoreM (Nat × Option Nat)}
    (h : ¬((m.tab.ctxGet k).isSome = true ∧ Accepts e m fn args data)) (hmissing : missing.2 = none)
    (hf : ∀ r s, r.code ≠ 0 → ((f r).run e s).1.2 = none) :
    ((withCtxM k missing fun _ => query (lib fn args data) >>= f).run e m).1.2 = none :=
  none_withCtxM hmissing fun c hctx => hf _ _ fun hacc =>
    h ⟨Option.isSome_iff_exists.mpr ⟨c, hctx⟩, hacc⟩

end

/-! The switches -/

theorem leaksAt_handleRegisterFatbin (hseq : Sequential w.cmd.env.imageLen)
    (hc : ¬RtCmd.registerFatbin.Assigned w.cmd.env w.cmd.key be p) :
    w.LeaksAt be p 0 handleRegisterFatbin := by
  refine leaksAt_key (leaksAt_req ?_)
  have hmain (image : List UInt8)
      (himage : (be.tab.ctxGet w.cmd.key).isSome = true → image = fatbinImage w.cmd.env p) :
      w.LeaksAt be p 0 (answerWith registerFatbinResp (coreRegisterFatbin w.cmd.key image)) := by
    refine leaksAt_answerWith (by decide) (own_coreRegisterFatbin _)
      (none_acquire (fun h => hc ⟨h.1, himage h.1 ▸ h.2⟩) rfl fun r s hr => ?_)
    rw [if_pos hr]
    rfl
  by_cases hctx : (be.tab.ctxGet w.cmd.key).isSome = true
  · refine leaksAt_of_run (fun e t ht => ?_) (leaksAt_bind
      (g := fun image => answerWith registerFatbinResp (coreRegisterFatbin w.cmd.key image))
      (simAt_peekImage hseq (sim_pure _ be p)) (fun _ _ _ => rfl) fun s hbe hp => ?_)
    · simp only [Prog.bind_run, Prog.get_run, ht, hctx, if_true, Prog.ask_run, Prog.pure_run]
    · subst hbe hp
      refine hmain _ fun _ => ?_
      have hlen := congrArg w.cmd.env.imageLen
        (funext fun i => payload_add s (sizeof registerFatbinReq) i)
      rw [fatbinImage, ← hlen]
      exact List.map_congr_left fun i _ => payload_add s _ i
  · refine leaksAt_of_run (fun e t ht => ?_) (hmain [] fun h => absurd h hctx)
    simp only [Prog.bind_run, Prog.get_run, ht, hctx]
    rfl

theorem leaksAt_handleRegisterFunction
    (hc : ¬RtCmd.registerFunction.Assigned w.cmd.env w.cmd.key be p) :
    w.LeaksAt be p 0 handleRegisterFunction := by
  have hctx : be.tab.ctxGet w.cmd.key = none := by
    rcases h : be.tab.ctxGet w.cmd.key with _ | c
    · rfl
    · exact absurd (Option.isSome_iff_exists.mpr ⟨c, h⟩) hc
  refine leaksAt_key (leaksAt_req (leaksAt_req ?_))
  refine leaksAt_of_run (m := do
      setErr 999
      reply registerFunctionResp [none, none] []) (fun e t ht => ?_) ?_
  · simp only [Prog.bind_run, Prog.get_run, ht, hctx]
  · refine leaksAt_setErr (leaksAt_reply (by decide) fun v hv => ?_)
    simpa using hv

theorem leaksAt_runtime (c : RtCmd) (hseq : Sequential w.cmd.env.imageLen)
    (hc : ¬c.Assigned w.cmd.env w.cmd.key be p) :
    w.LeaksAt be p (Cmd.rt c).staleOff (runtimeHandleCmd c) := by
  have noSession {m : CoreM (Nat × Option Nat)} (h : ¬(be.tab.ctxGet w.cmd.key).isSome = true)
      {missing : Nat × Option Nat} {f : Context → CoreM (Nat × Option Nat)}
      (hm : m = withCtxM w.cmd.key missing f) (hmissing : missing.2 = none) :
      (m.run w.cmd.env be).1.2 = none := by
    rw [hm]
    exact none_withCtxM hmissing fun c hctx =>
      absurd (Option.isSome_iff_exists.mpr ⟨c, hctx⟩) h
  cases c
  case malloc =>
    exact leaksAt_key (leaksAt_req (leaksAt_answerWith (by decide) (own_coreMalloc _)
      (noSession hc rfl rfl)))
  case streamCreate =>
    exact leaksAt_key (leaksAt_req (leaksAt_answerWith (by decide) (own_coreStreamCreate _)
      (noSession hc rfl rfl)))
  case eventCreate =>
    exact leaksAt_key (leaksAt_req (leaksAt_answerWith (by decide) (own_coreEventCreate _)
      (noSession hc rfl rfl)))
  case eventElapsedTime =>
    exact leaksAt_key (leaksAt_req (leaksAt_req (leaksAt_answerWith (by decide)
      (own_query (ownQ_withCtx fun _ _ _ _ _ _ => rfl))
      (Option.not_isSome_iff_eq_none.mp (mt (isSome_query_iff rfl).mp hc)))))
  case popCallConfiguration =>
    have hout : ((query (corePopCallConfiguration w.cmd.key)).run w.cmd.env be).1.2 = none := by
      refine none_withCtx (q := ⟨w.cmd.env, be.tab⟩) rfl fun c hctx => ?_
      simp only [Prog.bind_run, Prog.ite_run]
      split
      next hacc => exact absurd ⟨Option.isSome_iff_exists.mpr ⟨c, hctx⟩, hacc⟩ hc
      next => rfl
    refine leaksAt_key (leaksAt_core (own_query ownQ_corePop) (leaksAt_setErr ?_))
    refine leaksAt_reply (by decide) fun v hv => ?_
    rw [hout] at hv
    cases hv
  case getDeviceProperties =>
    refine leaksAt_req (leaksAt_core (own_query (ownQ_coreGetDeviceProperties _)) ?_)
    refine leaksAt_setErr (leaksAt_replyFilled (by decide +kernel) ?_)
    show ((coreGetDeviceProperties _).run ⟨w.cmd.env, be.tab⟩ be.dev).1.2 = none
    unfold coreGetDeviceProperties
    simp only [Prog.bind_run, Prog.ite_run]
    split
    next => rfl
    next hacc => exact absurd (not_not.mp hacc) hc
  case getDeviceCount =>
    refine leaksAt_answerLib (by decide) (ownQ_rtQuery _ _) ?_
    rw [coreGetDeviceCount, rtQuery_fst]
    exact hc
  case getErrorString | getErrorName =>
    exact leaksAt_req (leaksAt_handleGetErrorText hc)
  case registerFatbin => exact leaksAt_handleRegisterFatbin hseq hc
  case registerFunction => exact leaksAt_handleRegisterFunction hc
  case runtimeGetVersion =>
    refine leaksAt_answerLib (by decide) (ownQ_rtQuery _ _) ?_
    rw [coreRuntimeGetVersion, rtQuery_fst]
    exact hc
  case funcGetAttributes =>
    have hout : ((query (coreFuncGetAttributes w.cmd.key
        (funcGetAttributesReq.func.get p))).run w.cmd.env be).1.2 = none := by
      refine none_withCtx (q := ⟨w.cmd.env, be.tab⟩) rfl fun c hctx => ?_
      simp only [Prog.ite_run]
      split
      next => rfl
      next hfunc => exact absurd ⟨c, hctx, hfunc⟩ hc
    refine leaksAt_key (leaksAt_req (leaksAt_core (own_query (ownQ_coreFuncGetAttributes _)) ?_))
    exact leaksAt_setErr (leaksAt_replyFilled (by decide) hout)
  all_goals exact absurd trivial hc

theorem leaksAt_driver (c : DrvCmd) (hc : ¬c.Assigned w.cmd.env w.cmd.key be p) :
    w.LeaksAt be p (Cmd.drv c).staleOff (driverHandleCmd c) := by
  have lib {t : CStruct} {fn : LibFn} {args : List Nat} (ht : 0 < sizeof t)
      (h : ¬Accepts w.cmd.env be fn args []) : w.LeaksAt be p 0 (answerLib t (lib fn args [])) :=
    leaksAt_answerLib ht (fun _ _ _ _ _ => rfl) h
  have acquire {t : CStruct} {m : CoreM (Nat × Option Nat)} {fn : LibFn} {args : List Nat}
      {f : LibRet → CoreM (Nat × Option Nat)} (ht : 0 < sizeof t) (hm : Own m)
      (h : ¬((be.tab.ctxGet w.cmd.key).isSome = true ∧ Accepts w.cmd.env be fn args []))
      (hrun : m = withCtxM w.cmd.key (3, none) fun _ => do
        let r ← query (HmCuda.lib fn args [])
        if r.code = 0 then f r else return (r.code, none)) :
      w.LeaksAt be p 0 (answerWith t m) := by
    subst hrun
    refine leaksAt_answerWith ht hm (none_acquire h rfl fun r s hr => ?_)
    rw [if_neg hr]
    rfl
  cases c
  case cuDriverGetVersion | cuDeviceGetCount | cuCtxGetDevice => exact lib (by decide) hc
  case cuDeviceGet | cuDeviceGetUuid => exact leaksAt_req (lib (by decide) hc)
  case cuDeviceGetAttribute | cuDeviceCanAccessPeer =>
    exact leaksAt_req (leaksAt_req (lib (by decide) hc))
  case cuDevicePrimaryCtxRetain =>
    exact leaksAt_key (leaksAt_req (leaksAt_answerWith (by decide) (own_retain _)
      (Option.not_isSome_iff_eq_none.mp (mt isSome_retain_iff.mp hc))))
  case cuStreamCreate =>
    exact leaksAt_key (leaksAt_req (acquire (by decide) (own_coreCuStreamCreate _) hc rfl))
  case cuStreamGetCtx =>
    refine leaksAt_key (leaksAt_req (leaksAt_answerWith (by decide)
      (own_coreCuStreamGetCtx _) (none_withCtxM rfl fun c hctx => ?_)))
    simp only [Prog.bind_run, Prog.ite_run]
    split
    next hacc => exact absurd ⟨c, hctx, hacc⟩ hc
    next => rfl
  case cuEventCreate =>
    exact leaksAt_key (leaksAt_req (acquire (by decide) (own_coreCuEventCreate _) hc rfl))
  case cuEventElapsedTime =>
    exact leaksAt_key (leaksAt_req (leaksAt_req (leaksAt_answerWith (by decide)
      (own_query (ownQ_withCtx fun _ _ _ _ _ _ => rfl))
      (Option.not_isSome_iff_eq_none.mp (mt (isSome_query_iff rfl).mp hc)))))
  case cuMemAlloc =>
    exact leaksAt_key (leaksAt_req (acquire (by decide) (own_coreCuMemAlloc _) hc rfl))
  case cuPointerGetAttribute =>
    refine leaksAt_key (leaksAt_req (leaksAt_req (leaksAt_answerWith (by decide)
      (own_query (ownQ_coreCuPointerGetAttribute _ _)) ?_)))
    refine none_withCtx (q := ⟨w.cmd.env, be.tab⟩) rfl fun c hctx => ?_
    simp only [Prog.ite_run]
    split
    next => rfl
    next hptr => exact absurd ⟨c, hctx, hptr⟩ hc
  case cuMemCreate =>
    exact leaksAt_key (leaksAt_req (leaksAt_words (leaksAt_req
      (acquire (by decide) (own_acquireGeneric _ _ _) hc rfl))))
  case cuMemAddressReserve =>
    exact leaksAt_key (leaksAt_req (leaksAt_req (leaksAt_req (leaksAt_req
      (acquire (by decide) (own_coreCuMemAddressReserve _ _ _ _) hc rfl)))))
  case cuMemGetAllocGranularity | cuMulticastGetGranularity =>
    exact leaksAt_words (leaksAt_req (lib (by decide) hc))
  case cuMemImportFromShareableHandle =>
    exact leaksAt_key (leaksAt_req (leaksAt_req
      (acquire (by decide) (own_acquireGeneric _ _ _) hc rfl)))
  case cuMulticastCreate =>
    exact leaksAt_key (leaksAt_words (acquire (by decide) (own_acquireGeneric _ _ _) hc rfl))
  all_goals exact absurd trivial hc

theorem leaksAt_dispatch (c : Cmd) (hseq : Sequential w.cmd.env.imageLen)
    (hc : ¬c.Assigned w.cmd.env w.cmd.key be p) : ∃ m : CmdM Unit,
      (∀ e s, ((dispatchCmd c.code).run e s).2 = (m.run e s).2) ∧ w.LeaksAt be p c.staleOff m := by
  cases c with
  | rt c =>
    exact ⟨runtimeHandleCmd c, fun _ _ => dispatchCmd_run _ _ (.rt c), leaksAt_runtime c hseq hc⟩
  | drv c => exact ⟨driverHandleCmd c, fun _ _ => dispatchCmd_run _ _ (.drv c), leaksAt_driver c hc⟩

end Pair

/-! One element -/

theorem bytes_bufToIov (vs : List Iov) (buf : List UInt8) :
    (bufToIov vs buf).flatMap (·.bytes) = buf.take (totalLen vs) := by
  induction vs generalizing buf with
  | nil => rfl
  | cons v vs ih =>
    unfold bufToIov
    split
    next h0 => simp [h0]
    next => rw [List.flatMap_cons, ih, totalLen_cons, List.take_add]

theorem bufToIov_congr {vs : List Iov} {a b : List UInt8} {n : Nat} (hlen : a.length = b.length)
    (htake : a.take n = b.take n) (hn : totalLen vs ≤ n) : bufToIov vs a = bufToIov vs b := by
  induction vs generalizing a b n with
  | nil => rfl
  | cons v vs ih =>
    rw [totalLen_cons] at hn
    have hnil : a = [] ↔ b = [] := by rw [← List.length_eq_zero_iff, hlen, List.length_eq_zero_iff]
    have hfirst : a.take v.len = b.take v.len := by
      have := congrArg (List.take v.len) htake
      rwa [List.take_take, List.take_take, Nat.min_eq_left (by omega)] at this
    have hrest : (a.drop v.len).take (n - v.len) = (b.drop v.len).take (n - v.len) := by
      rw [← List.drop_take, ← List.drop_take, htake]
    unfold bufToIov
    rw [ih (by rw [List.length_drop, List.length_drop, hlen]) hrest (by omega), hfirst]
    simp only [hnil]

/-- The guest's descriptors reach the first byte that the stack may decide. -/
def Cmd.Reaches (c : Cmd) (el : Elem) : Prop := sizeof respHeader + c.staleOff < totalLen el.inSg

def Elem.Complete (el : Elem) (k : Key) (env : Env) (m : Machine) : Prop :=
  ∀ c, el.command m = some c → c.needs (cmdEnv env k el) (cmdStart env el m) ≤ el.reqLen

/-- The outcome assigns the response structure, or the guest's descriptors end before it. -/
def Elem.Assigned (el : Elem) (k : Key) (env : Env) (m : Machine) : Prop :=
  ∀ c, el.command m = some c → c.Reaches el → c.Assigned env k m (cmdStart env el m).payload

section
variable {k : Key} {el : Elem} {env : Env} {m : Machine} {c : Cmd}

theorem Elem.header_of_command (h : el.command m = some c) : el.header m = some c.code := by
  rcases hh : el.header m with _ | code
  · rw [Elem.command, hh] at h
    cases h
  · rw [Elem.command, hh] at h
    rw [Cmd.code_of_ofCode h]

theorem Cmd.d2h_unassigned {p : Nat → UInt8} (hc : ¬c.Assigned env k m p) {e : CmdEnv} {s : CmdSt}
    (hd : s.d2h = false) : ((dispatchCmd c.code).run e s).2.d2h = false := by
  rw [dispatchCmd_d2h c hd]
  rcases c with c | c <;> cases c <;> first | rfl | exact absurd trivial hc

theorem writes_unassigned {p : Nat → UInt8} (hcmd : el.command m = some c)
    (hc : ¬c.Assigned env k m p) (env' : Env) :
    ((processElem k el).run env' m).1.map (·.writes) = some (bufToIov el.inSg (respBytes c.code
      ((dispatchCmd c.code).run (cmdEnv env' k el) (cmdStart env' el m)).2.err
      ((dispatchCmd c.code).run (cmdEnv env' k el) (cmdStart env' el m)).2.resp)) := by
  have hknown : ((dispatchCmd c.code).run (cmdEnv env' k el) (cmdStart env' el m)).1 = true := by
    rw [dispatchCmd, Cmd.ofCode_code]
    cases c <;> rfl
  have hd : ((dispatchCmd c.code).run (cmdEnv env' k el) (cmdStart env' el m)).2.d2h = false :=
    Cmd.d2h_unassigned hc rfl
  rw [processElem_writes (Elem.header_of_command hcmd), respond, hknown, hd]
  rfl

theorem getElem?_respBytes (code err i : Nat) (resp : List UInt8) :
    (respBytes code err resp)[sizeof respHeader + i]? = resp[i]? := by
  rw [respBytes, List.getElem?_append_right (by simp [show sizeof respHeader = 8 by decide])]
  simp [show sizeof respHeader = 8 by decide]

theorem Determined.assigned (hseq : Sequential env.imageLen) (h : Determined k el env m) :
    el.Assigned k env m := by
  intro c hcmd hreaches
  by_contra hc
  let w : Pair := ⟨cmdEnv env k el, fun n i => env.stale n i + 1, env.heap⟩
  have hparted : w.Parted := fun n i => by
    show env.stale n i + 1 ≠ env.stale n i
    simp
  obtain ⟨x, hx, hleaks⟩ := Pair.leaksAt_dispatch (w := w) c hseq hc
  have hwrites := h w.stale w.heap
  rw [writes_unassigned hcmd hc, writes_unassigned hcmd hc, Option.some.injEq, hx, hx] at hwrites
  have hbyte := congrArg (fun ws => (ws.flatMap (·.bytes))[sizeof respHeader + c.staleOff]?) hwrites
  simp only [bytes_bufToIov, List.getElem?_take_of_lt hreaches, getElem?_respBytes] at hbyte
  exact hleaks.differs hparted (cmdStart env el m) rfl rfl hbyte

theorem Elem.Assigned.determined (hseq : Sequential env.imageLen) (hneeds : el.Complete k env m)
    (h : el.Assigned k env m) : Determined k el env m := by
  rcases hcmd : el.command m with _ | c
  · exact response_determined k el env m hseq fun c hc => by
      rw [hcmd] at hc
      cases hc
  by_cases hc : c.Assigned env k m (cmdStart env el m).payload
  · refine response_determined k el env m hseq fun c' hc' => ?_
    obtain rfl : c = c' := Option.some.inj (hcmd.symm.trans hc')
    exact ⟨hneeds c hcmd, hc⟩
  intro stale heap
  have hend : totalLen el.inSg ≤ sizeof respHeader + c.staleOff :=
    not_lt.mp fun hreaches => hc (h c hcmd hreaches)
  let w : Pair := ⟨cmdEnv env k el, stale, heap⟩
  obtain ⟨x, hx, hleaks⟩ := Pair.leaksAt_dispatch (w := w) c hseq hc
  have hle : (x.run w.cmd (cmdStart env el m)).2.top ≤ w.cmd.elem.reqLen := by
    rw [← hx, dispatchCmd_top]
    exact Nat.max_le.mpr ⟨Nat.zero_le _, hneeds c hcmd⟩
  obtain ⟨herr, hlen, htake⟩ := hleaks.before _ _ rfl rfl (twin_start stale heap) hle
  rw [writes_unassigned hcmd hc, writes_unassigned hcmd hc, hx, hx]
  refine congrArg some (bufToIov_congr ?_ ?_ hend)
  · rw [length_respBytes, length_respBytes]
    exact congrArg (sizeof respHeader + ·) hlen
  · rw [take_respBytes, take_respBytes]
    exact congrArg₂ (respBytes c.code) herr htake

end

/-- Where the request holds what its handler reads, the request, the table and CUDA's results
decide every byte of the response if and only if the outcome assigns the response structure, as
far as the guest's descriptors reach; where it does not, only if. -/
theorem response_determined_iff (k : Key) (el : Elem) (env : Env) (m : Machine)
    (hseq : Sequential env.imageLen) :
    (el.Complete k env m → (Determined k el env m ↔ el.Assigned k env m)) ∧
      (¬el.Complete k env m → Determined k el env m → el.Assigned k env m) :=
  ⟨fun hneeds => ⟨Determined.assigned hseq, Elem.Assigned.determined hseq hneeds⟩,
    fun _ => Determined.assigned hseq⟩

/-! An allocation that CUDA refuses, and one that it accepts -/

def deviceRequest : Machine :=
  { Machine.start fun sp a => if sp = .req 0 then
      (Bytes.le 4 DrvCmd.cuMemAlloc.code ++ Bytes.le 4 0 ++ Bytes.le 8 100).getD a 0 else 0 with
    tab := ⟨[⟨⟨1, 1⟩, fun _ => []⟩], 0x10000000⟩ }

def deviceElem : Elem := ⟨[⟨.req 0, 0, 16⟩], [⟨.resp 0, 0, 16⟩]⟩

def fullEnv : Env := { Env.quiet with ret := fun _ _ => ⟨2, [], none⟩ }

/-- The response carries eight bytes of the stack. -/
theorem response_not_determined : ¬Determined ⟨1, 1⟩ deviceElem fullEnv deviceRequest := by
  intro h
  have hne : ((processElem ⟨1, 1⟩ deviceElem).run (fullEnv.withMemory (fun _ _ => 1) fullEnv.heap)
      deviceRequest).1.map (·.writes) ≠
        ((processElem ⟨1, 1⟩ deviceElem).run fullEnv deviceRequest).1.map (·.writes) := by
    decide +kernel
  exact hne (h (fun _ _ => 1) fullEnv.heap)

theorem response_determined_alloc : Determined ⟨1, 1⟩ deviceElem .quiet deviceRequest := by
  have hcommand : deviceElem.command deviceRequest = some (.drv .cuMemAlloc) := by decide +kernel
  have hcomplete : deviceElem.Complete ⟨1, 1⟩ .quiet deviceRequest := fun c hc => by
    obtain rfl : Cmd.drv .cuMemAlloc = c := Option.some.inj (hcommand.symm.trans hc)
    decide +kernel
  refine ((response_determined_iff ⟨1, 1⟩ deviceElem .quiet deviceRequest fun _ _ _ => rfl).1
    hcomplete).mpr fun c hc _ => ?_
  obtain rfl : Cmd.drv .cuMemAlloc = c := Option.some.inj (hcommand.symm.trans hc)
  exact ⟨by decide +kernel, rfl⟩

end HmCuda
