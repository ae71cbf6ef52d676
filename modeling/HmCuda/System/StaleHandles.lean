import HmCuda.Host.CopyStep
import HmCuda.System.LaunchParams

/-! Handles that name nothing. A handler that does not look at what the lookup gave makes
its CUDA call on NULL: the default stream, no context. -/

namespace HmCuda
open Layout

def LibFn.places : LibFn → ResType → List Nat
  | .cuLaunchKernel, .function => [0]
  | .cuLaunchKernel, .stream => [8]
  | .cudaPushCallConfiguration, .stream => [7]
  | .cuMemcpyAsync, .stream | .cuMemcpyHtoDAsync, .stream | .cuMemcpyDtoHAsync, .stream => [3]
  | .cudaStreamSynchronize, .stream | .cuStreamSynchronize, .stream | .cudaStreamDestroy, .stream
  | .cuStreamDestroy, .stream | .cuStreamQuery, .stream | .cuStreamWaitEvent, .stream
  | .cuStreamGetCtx, .stream => [0]
  | .cuStreamWaitEvent, .event => [1]
  | .cudaEventRecord, .stream | .cuEventRecord, .stream => [1]
  | .cudaEventRecord, .event | .cuEventRecord, .event | .cudaEventSynchronize, .event
  | .cudaEventDestroy, .event | .cuEventDestroy, .event => [0]
  | .cudaEventElapsedTime, .event | .cuEventElapsedTime, .event => [0, 1]
  | .cuCtxSetCurrent, .context | .cuCtxEnablePeerAccess, .context => [0]
  | .cuModuleGetFunction, .module => [0]
  | .cuFuncGetAttribute, .function => [1]
  | _, _ => []

/-- The call works on a default object of the type. -/
def LibCall.OnDefault (t : ResType) (c : LibCall) : Prop := ∃ i ∈ c.fn.places t, c.args[i]? = some 0

/-- A call on a default object was made after the first `n`. -/
def Device.Defaulted (t : ResType) (n : Nat) (d : Device) : Prop :=
  ∃ c ∈ d.calls.drop n, c.OnDefault t

/-- The handles that stand for an object of CUDA's. -/
def ResType.reserved : ResType → List Nat
  | .stream => [0, 1, 2]
  | .context => [0]
  | _ => []

/-- The handle is neither in the table nor reserved. -/
def Context.Missing (c : Context) (t : ResType) (h : Nat) : Prop :=
  (∀ r ∈ c.resources t, r.handle ≠ h) ∧ h ∉ t.reserved

/-- The stream, event, function, module and context handles of a request. -/
def Cmd.handles (p : Nat → UInt8) : Cmd → List (ResType × Nat)
  | .rt .memcpy | .drv .cuMemcpy => [(.stream, memcpyReq.stream.get p)]
  | .rt .launchKernel =>
    [(.function, launchKernelReq.func.get p), (.stream, launchKernelReq.stream.get p)]
  | .rt .streamSynchronize => [(.stream, streamSynchronizeReq.stream.get p)]
  | .rt .eventRecord =>
    [(.event, eventRecordReq.event.get p), (.stream, eventRecordReq.stream.get p)]
  | .rt .eventSynchronize => [(.event, eventSynchronizeReq.event.get p)]
  | .rt .eventElapsedTime =>
    [(.event, eventElapsedTimeReq.startEvent.get p), (.event, eventElapsedTimeReq.endEvent.get p)]
  | .rt .eventDestroy => [(.event, eventDestroyReq.event.get p)]
  | .rt .pushCallConfiguration => [(.stream, pushCallCfgReq.stream.get p)]
  | .rt .initModule => [(.module, initModuleReq.fatbinHandle.get p)]
  | .rt .registerFunction => [(.module, registerFunctionReq.fatbinHandle.get p)]
  | .rt .funcGetAttributes => [(.function, funcGetAttributesReq.func.get p)]
  | .drv .cuCtxSetCurrent => [(.context, cuCtxSetCurrentReq.context.get p)]
  | .drv .cuCtxEnablePeerAccess => [(.context, cuCtxEnablePeerAccessReq.peerContext.get p)]
  | .drv .cuStreamDestroy => [(.stream, cuStreamDestroyReq.stream.get p)]
  | .drv .cuStreamSynchronize => [(.stream, cuStreamSynchronizeReq.stream.get p)]
  | .drv .cuStreamQuery => [(.stream, cuStreamQueryReq.stream.get p)]
  | .drv .cuStreamWaitEvent =>
    [(.stream, cuStreamWaitEventReq.stream.get p), (.event, cuStreamWaitEventReq.event.get p)]
  | .drv .cuStreamGetCtx => [(.stream, cuStreamGetCtxReq.stream.get p)]
  | .drv .cuEventDestroy => [(.event, cuEventDestroyReq.event.get p)]
  | .drv .cuEventRecord =>
    [(.event, cuEventRecordReq.event.get p), (.stream, cuEventRecordReq.stream.get p)]
  | .drv .cuEventElapsedTime =>
    [(.event, cuEventElapsedTimeReq.startEvent.get p),
      (.event, cuEventElapsedTimeReq.endEvent.get p)]
  | .drv .cuMemcpyAsync => [(.stream, cuMemcpyAsyncReq.stream.get p)]
  | _ => []

/-- The request is answered with an error, and no call has worked on a default object. -/
structure Refused (t : ResType) (s s' : CmdSt) : Prop where
  error : s'.err ≠ 0
  calls : ¬s'.be.dev.Defaulted t s.be.dev.calls.length

/-! Which requests are refused for another reason -/

/-- Nothing but device memory is copied by the runtime API. -/
def Context.Dead (c : Context) (m : MemCmd) (a : Nat) : Prop :=
  m = .memcpy ∨ c.resGet .hostMem a = 0

/-- No chunk of the copy reaches device memory before one that resolves to nothing. -/
def Context.Unresolved (c : Context) (m : MemCmd) (base : Nat) : List Chunk → Prop :=
  Prog.Stopped (fun ch => c.resGet .mem (add64 base ch.off) = 0)
    fun ch => c.Dead m (add64 base ch.off)

/-- The chunks of a copy with the descriptors `vs`, if they hold it, satisfy `P`. -/
def Starved (vs : List Iov) (avail count : Nat) (data : List Iov) (P : List Chunk → Prop) : Prop :=
  ¬(2 ≤ vs.length ∧ count ≤ avail) ∨ P (chunks count data)

def Starved.copyIn (e : CmdEnv) (count : Nat) : (List Chunk → Prop) → Prop :=
  Starved e.elem.outSg (sub64 e.totalOutLen (sizeof reqHeader + sizeof memcpyReq)) count
    e.elem.outSg.tail

def Starved.copyOut (e : CmdEnv) (count : Nat) : (List Chunk → Prop) → Prop :=
  Starved e.elem.inSg (sum64 (e.elem.inSg.dropLast.map (·.len))) count e.elem.inSg.dropLast

def Unmapped (e : CmdEnv) (gpa count : Nat) : Prop :=
  ∀ hp ∈ e.env.gpaToVa gpa count, hp.2 < count

def memcpyRefuses (e : CmdEnv) (c : Context) (r : MemReq) : Prop :=
  if r.kind = 1 then
    if r.src = 0 then Starved.copyIn e r.count (c.Unresolved .memcpy r.dst)
    else Unmapped e r.src r.count ∨ c.resGet .mem r.dst = 0
  else if r.kind = 2 then
    if r.dst = 0 then Starved.copyOut e r.count (c.Unresolved .memcpy r.src)
    else Unmapped e r.dst r.count ∨ c.resGet .mem r.src = 0
  else r.kind ≠ 3 ∨ c.resGet .mem r.dst = 0 ∨ c.resGet .mem r.src = 0

def cuMemcpyRefuses (e : CmdEnv) (c : Context) (r : MemReq) : Prop :=
  if r.kind = 1 then Starved.copyIn e r.count (c.Unresolved .cuMemcpy r.dst)
  else if r.kind = 2 then Starved.copyOut e r.count (c.Unresolved .cuMemcpy r.src)
  else True

/-- The handler looks at the lookup, or an earlier check refuses the request. -/
def Cmd.Refuses (e : CmdEnv) (c : Context) (p : Nat → UInt8) : Cmd → Prop
  | .rt .eventDestroy | .rt .initModule | .rt .registerFunction | .rt .funcGetAttributes
  | .drv .cuStreamDestroy | .drv .cuEventDestroy => True
  | .rt .launchKernel => c.resGet .function (launchKernelReq.func.get p) = 0
  | .rt .memcpy => memcpyRefuses e c (memReq p)
  | .drv .cuMemcpy => cuMemcpyRefuses e c (memReq p)
  | .drv .cuMemcpyAsync => resolveAnyMem c (cuMemcpyAsyncReq.dst.get p) = 0 ∨
      resolveAnyMem c (cuMemcpyAsyncReq.src.get p) = 0
  | _ => False

section Lookup
variable {c : Context} {t : ResType} {h : Nat}

theorem resGet_missing (ht : t.ranged = false) (hm : c.Missing t h) : c.resGet t h = 0 := by
  have hfind : c.resFind t h = none := by
    rw [Context.resFind, List.find?_eq_none]
    intro r hr
    simpa [Resource.covers, ht] using hm.1 r hr
  rw [c.resGet_eq, hfind]
  rfl

theorem resolveStream_missing (hm : c.Missing .stream h) : resolveStream c h = 0 := by
  have hr : h ≠ 0 ∧ h ≠ 1 ∧ h ≠ 2 := by simpa [ResType.reserved] using hm.2
  unfold resolveStream
  rw [if_neg hr.1, if_neg hr.2.1, if_neg hr.2.2]
  exact resGet_missing rfl hm

theorem resolveRuntimeStream_missing (hm : c.Missing .stream h) : resolveRuntimeStream c h = 0 :=
  resolveStream_missing hm

end Lookup

section Defaulted
variable {t : ResType} {n : Nat} {d d' : Device} {call : LibCall}

theorem not_defaulted (d : Device) : ¬d.Defaulted t d.calls.length := by
  rintro ⟨c, hc, -⟩
  rw [List.drop_length] at hc
  exact absurd hc List.not_mem_nil

theorem Device.Defaulted.grow (h : d.Defaulted t n) (hp : d.calls <+: d'.calls) :
    d'.Defaulted t n := by
  obtain ⟨c, hc, hd⟩ := h
  obtain ⟨l, hl⟩ := hp
  refine ⟨c, ?_, hd⟩
  rw [← hl, List.drop_append]
  exact List.mem_append_left _ hc

theorem defaulted_of_call (hd : d'.calls = d.calls ++ [call]) (hn : n ≤ d.calls.length)
    (hc : call.OnDefault t) : d'.Defaulted t n := by
  refine ⟨call, ?_, hc⟩
  rw [hd, List.drop_append_of_le_length hn]
  exact List.mem_append_right _ (List.mem_singleton_self _)

theorem not_defaulted_of_calls {new : List LibCall} (hd : d'.calls = d.calls ++ new)
    (hc : ∀ c ∈ new, ¬c.OnDefault t) (h : ¬d.Defaulted t n) : ¬d'.Defaulted t n := by
  rintro ⟨c, hmem, hon⟩
  rw [hd, List.drop_append] at hmem
  rcases List.mem_append.mp hmem with hold | hnew
  · exact h ⟨c, hold, hon⟩
  · exact hc c (List.mem_of_mem_drop hnew) hon

theorem malloc_not_onDefault (size : Nat) : ¬LibCall.OnDefault t ⟨.malloc, [size], []⟩ := by
  rintro ⟨i, hi, -⟩
  exact absurd hi List.not_mem_nil

theorem onDefault {fn : LibFn} {args : List Nat} {data : List (List UInt8)} (i : Nat)
    (hi : i ∈ fn.places t) (h : args[i]? = some 0) : LibCall.OnDefault t ⟨fn, args, data⟩ :=
  ⟨i, hi, h⟩

theorem copy_onDefault {fn : LibFn} (hfn : 3 ∈ fn.places .stream) (dst src len : Nat) :
    LibCall.OnDefault .stream ⟨fn, [dst, src, len, 0], []⟩ := ⟨3, hfn, rfl⟩

end Defaulted

/-! The copies -/

/-- Every `malloc` finds room. -/
def Env.Mallocs (env : Env) : Prop := ∀ n size, (env.ret n ⟨.malloc, [size], []⟩).code = 0

/-- What a chunk does that lies in no device range: it reserves at most a buffer, and its code
is 0 if it is pinned and the buffer is there. -/
structure QuietChunk (q : QEnv) (stop : Prop) (d : Device) (x : Nat × Device) : Prop where
  calls : ∃ new, x.2.calls = d.calls ++ new ∧ ∀ c ∈ new, ∃ size, c = ⟨.malloc, [size], []⟩
  small : x.1 < 2 ^ 32
  error : stop → x.1 ≠ 0
  ok : q.env.Mallocs → ¬stop → x.1 = 0

section Copies
variable {k : Key} {c : Context} {q : QEnv} {v : Device} {m : MemCmd} {d : Dir} {dev stream n : Nat}
  {ch : Chunk} {cs : List Chunk}

theorem quietChunk_refused {stop : Prop} (h : stop) (v : Device) : QuietChunk q stop v (1, v) :=
  ⟨⟨[], (List.append_nil _).symm, fun c hc => absurd hc List.not_mem_nil⟩, by simp,
    fun _ => Nat.one_ne_zero, fun _ hn => absurd h hn⟩

theorem chunkStep_quiet (hc : q.tab.ctxGet k = some c) (hp : c.resGet .mem (add64 dev ch.off) = 0) :
    QuietChunk q (c.Dead m (add64 dev ch.off)) v ((chunkStep m d k dev stream ch).run q v) := by
  by_cases hdead : c.Dead m (add64 dev ch.off)
  · have hrun : (chunkStep m d k dev stream ch).run q v = (1, v) := by
      rcases hdead with rfl | hh
      · exact chunkStep_runtime_other hc hp
      · exact chunkStep_dead hc hp hh
    rw [hrun]
    exact quietChunk_refused hdead v
  obtain ⟨hm, hh⟩ := not_or.mp hdead
  have hm : m = .cuMemcpy := by cases m <;> first | rfl | exact absurd rfl hm
  subst hm
  have hdone (w : Device) (hw : w.calls = v.calls) : QuietChunk q
      (c.Dead .cuMemcpy (add64 dev ch.off)) v (0, w) :=
    ⟨⟨[], hw.trans (List.append_nil _).symm, fun c hc => absurd hc List.not_mem_nil⟩, by simp,
      fun h => absurd h hdead, fun _ _ => rfl⟩
  rcases hf : c.resFind .hostMem (add64 dev ch.off) with _ | r
  · rw [c.resGet_eq, hf] at hh
    exact absurd rfl hh
  rw [c.resGet_eq, hf, Option.map_some, Option.getD_some] at hh
  cases d with
  | htod =>
    simp only [chunkStep, coreCuMemcpyHtodVq, withCtx_run hc, hp, ne_eq, not_true_eq_false,
      if_false, hf, hh, Prog.bind_run, load_run, Prog.ite_run]
    by_cases hb : bufferNeedsHostPtrPatch c (v.eng.mem.read ch.iov.sp ch.iov.base ch.len) = true
    · rw [if_pos hb, alloc, Prog.bind_run, lib_run]
      have hnew : ∀ c ∈ [(⟨.malloc, [ch.len], []⟩ : LibCall)], ∃ size, c = ⟨.malloc, [size], []⟩ :=
        fun c hc => ⟨ch.len, List.mem_singleton.mp hc⟩
      by_cases ha : (q.env.ret v.clock ⟨.malloc, [ch.len], []⟩).code = 0
      · simp only [ha, Prog.pure_run, decide_true, if_true, store_run, logCopy_run]
        exact ⟨⟨_, rfl, hnew⟩, by simp, fun h => absurd h hdead, fun _ _ => rfl⟩
      · simp only [ha, Prog.pure_run, decide_false, Bool.false_eq_true, if_false]
        exact ⟨⟨_, rfl, hnew⟩, by simp, fun _ => by simp, fun h => absurd (h _ _) ha⟩
    · rw [if_neg hb]
      exact hdone _ rfl
  | dtoh =>
    simp only [chunkStep, coreCuMemcpyDtohVq, withCtx_run hc, hp, ne_eq, not_true_eq_false,
      if_false, hf, hh, Prog.bind_run, load_run]
    exact hdone _ rfl

theorem QuietChunk.not_defaulted {stop : Prop} {x : Nat × Device} {t : ResType}
    (h : QuietChunk q stop v x) (hv : ¬v.Defaulted t n) : ¬x.2.Defaulted t n := by
  obtain ⟨new, hx, hnew⟩ := h.calls
  refine not_defaulted_of_calls hx (fun c hc => ?_) hv
  obtain ⟨size, rfl⟩ := hnew c hc
  exact malloc_not_onDefault size

theorem chunkStep_loud (hc : q.tab.ctxGet k = some c) (hp : c.resGet .mem (add64 dev ch.off) ≠ 0)
    (h0 : resolveStream c stream = 0) (hn : n ≤ v.calls.length) :
    ((chunkStep m d k dev stream ch).run q v).2.Defaulted .stream n := by
  rw [chunkStep_mem hc hp, h0]
  have hfn : 3 ∈ d.fn.places .stream := by cases d <;> decide
  exact defaulted_of_call (d := v) rfl hn (copy_onDefault hfn _ _ _)

theorem chunkStep_grows (hc : q.tab.ctxGet k = some c) :
    v.calls <+: ((chunkStep m d k dev stream ch).run q v).2.calls := by
  by_cases hp : c.resGet .mem (add64 dev ch.off) = 0
  · have hquiet : QuietChunk q (c.Dead m (add64 dev ch.off)) v
        ((chunkStep m d k dev stream ch).run q v) := chunkStep_quiet hc hp
    obtain ⟨new, hx, -⟩ := hquiet.calls
    exact ⟨new, hx.symm⟩
  · rw [chunkStep_mem hc hp]
    exact List.prefix_append _ _

end Copies

/-- A program with a missing stream is refused when `R`, and otherwise not. -/
structure Verdict (q : QEnv) (v : Device) (R : Prop) (x : Nat × Device) : Prop where
  grows : v.calls <+: x.2.calls
  refused : R → x.1 % 2 ^ 32 ≠ 0 ∧ ¬x.2.Defaulted .stream v.calls.length
  made : q.env.Mallocs → ¬R → x.1 % 2 ^ 32 = 0 ∨ x.2.Defaulted .stream v.calls.length

section Verdict
variable {k : Key} {c : Context} {q : QEnv} {v : Device} {m : MemCmd} {d : Dir}
  {dev stream n count : Nat} {cs : List Chunk} {R R' : Prop} {x : Nat × Device} {e : CmdEnv}

theorem verdict_refused (h : R) (v : Device) : Verdict q v R (1, v) :=
  ⟨List.prefix_rfl, fun _ => ⟨by simp, not_defaulted v⟩, fun _ hn => absurd h hn⟩

theorem Verdict.congr (h : Verdict q v R x) (hR : R' ↔ R) : Verdict q v R' x :=
  ⟨h.grows, fun hr => h.refused (hR.mp hr), fun hq hr => h.made hq (hR.not.mp hr)⟩

theorem verdict_call (h : ¬R) {call : LibCall} (hx : x.2.calls = v.calls ++ [call])
    (hc : call.OnDefault .stream) : Verdict q v R x :=
  ⟨⟨_, hx.symm⟩, fun hr => absurd hr h, fun _ _ => .inr (defaulted_of_call hx le_rfl hc)⟩

theorem verdict_chunks (hc : q.tab.ctxGet k = some c) (h0 : resolveStream c stream = 0) :
    Verdict q v (c.Unresolved m dev cs)
      ((Prog.firstError (chunkStep m d k dev stream) cs).run q v) where
  grows := Prog.firstError_keeps (P := fun w : Device => v.calls <+: w.calls)
    (fun ch _ w hw => hw.trans (chunkStep_grows hc)) List.prefix_rfl
  refused h := by
    obtain ⟨hnot, hne, hlt⟩ := h.error (P := fun w : Device => ¬w.Defaulted .stream v.calls.length)
      (f := chunkStep m d k dev stream) (e := q) (b := 2 ^ 32)
      (fun ch w hq hw => ⟨(chunkStep_quiet hc hq).not_defaulted hw, (chunkStep_quiet hc hq).small⟩)
      (fun ch w hq hs => (chunkStep_quiet hc hq).error hs) (not_defaulted v)
    rw [Nat.mod_eq_of_lt hlt]
    exact ⟨hne, hnot⟩
  made hq h := by
    have hok := Prog.ok_of_not_stopped (f := chunkStep m d k dev stream) (e := q) (s := v)
      (I := fun w : Device => v.calls <+: w.calls)
      (P := fun w : Device => w.Defaulted .stream v.calls.length) h
      (fun ch w hp hs => (chunkStep_quiet hc hp).ok hq hs)
      (fun ch w hp hI => chunkStep_loud hc hp h0 hI.length_le)
      (fun ch w hw => hw.grow (chunkStep_grows hc))
      (fun ch w hI => hI.trans (chunkStep_grows hc)) List.prefix_rfl
    exact hok.imp_left fun h => by rw [h, Nat.zero_mod]

theorem Verdict.thenSync (hc : q.tab.ctxGet k = some c) (h0 : resolveStream c stream = 0)
    (h : Verdict q v R x) : Verdict q v R ((HmCuda.thenSync k stream x.1).run q x.2) := by
  unfold HmCuda.thenSync
  rw [Prog.ite_run]
  by_cases hx : x.1 % 2 ^ 32 = 0
  · have hsync : ((coreStreamSynchronize k stream).run q x.2).2.calls =
        x.2.calls ++ [⟨.cudaStreamSynchronize, [0], []⟩] := by
      rw [coreStreamSynchronize, withCtx_run hc, resolveRuntimeStream_eq, h0]
      rfl
    rw [if_pos hx]
    refine ⟨h.grows.trans ⟨_, hsync.symm⟩, fun hr => absurd hx (h.refused hr).1, fun _ _ => ?_⟩
    exact .inr (defaulted_of_call hsync h.grows.length_le ⟨0, by decide, rfl⟩)
  · rw [if_neg hx]
    exact h

theorem verdict_copyIn (hc : q.tab.ctxGet k = some c) (h0 : resolveStream c stream = 0) :
    Verdict q v (Starved.copyIn e count (c.Unresolved m dev))
      ((copyInPlan e count (chunkStep m d k dev stream)).run q v) := by
  unfold copyInPlan Starved.copyIn Starved
  rw [Prog.ite_run]
  by_cases h : 2 ≤ e.elem.outSg.length ∧
      count ≤ sub64 e.totalOutLen (sizeof reqHeader + sizeof memcpyReq)
  · rw [if_pos h]
    exact (verdict_chunks hc h0).congr (or_iff_right (not_not.mpr h))
  · rw [if_neg h]
    exact verdict_refused (.inl h) v

theorem verdict_copyOut (hc : q.tab.ctxGet k = some c) (h0 : resolveStream c stream = 0)
    {after : Nat → QueryM Nat} (hafter : ∀ R x, Verdict q v R x →
      Verdict q v R ((after x.1).run q x.2)) :
    Verdict q v (Starved.copyOut e count (c.Unresolved m dev))
      ((copyOutPlan e count (chunkStep m d k dev stream) after).run q v) := by
  unfold copyOutPlan Starved.copyOut Starved
  rw [Prog.ite_run]
  by_cases h : 2 ≤ e.elem.inSg.length ∧ count ≤ sum64 (e.elem.inSg.dropLast.map (·.len))
  · rw [if_pos h, Prog.bind_run]
    exact (hafter _ _ (verdict_chunks hc h0)).congr (or_iff_right (not_not.mpr h))
  · rw [if_neg h]
    exact verdict_refused (.inl h) v

theorem verdict_legacy {gpa : Nat} {f : Space × Nat → QueryM Nat}
    (hf : ∀ hp, Verdict q v R ((f hp).run q v)) :
    Verdict q v (Unmapped e gpa count ∨ R) ((legacyPlan e gpa count f).run q v) := by
  unfold legacyPlan Unmapped
  rcases e.env.gpaToVa gpa count with _ | ⟨hp, plen⟩
  · exact verdict_refused (.inl fun hp h => absurd h (by simp)) v
  · dsimp only
    rw [Prog.ite_run]
    by_cases h : plen < count
    · rw [if_pos h]
      refine verdict_refused (.inl fun p hp' => ?_) v
      obtain rfl := Option.some.inj hp'
      exact h
    · rw [if_neg h]
      exact (hf hp).congr (by simp [h])

theorem verdict_copySync (h : ¬R) {fn : LibFn} (hfn : 3 ∈ fn.places .stream)
    {dst src : Space × Nat} {len : Nat} {w : Device} (hw : v.calls <+: w.calls) :
    Verdict q v R (if ((copyAsync fn dst src len 0).run q w).1 = 0 then
        (streamSync .cuStreamSynchronize 0).run q ((copyAsync fn dst src len 0).run q w).2
      else (pure ((copyAsync fn dst src len 0).run q w).1 : QueryM Nat).run q
        ((copyAsync fn dst src len 0).run q w).2) := by
  have hcall : ((copyAsync fn dst src len 0).run q w).2.Defaulted .stream v.calls.length :=
    defaulted_of_call (d := w) rfl hw.length_le (copy_onDefault hfn _ _ _)
  have hgrow : w.calls <+: ((copyAsync fn dst src len 0).run q w).2.calls := List.prefix_append _ _
  split
  · have hsync : ((copyAsync fn dst src len 0).run q w).2.calls <+:
        ((streamSync .cuStreamSynchronize 0).run q ((copyAsync fn dst src len 0).run q w).2).2.calls :=
      List.prefix_append _ _
    exact ⟨(hw.trans hgrow).trans hsync, fun hr => absurd hr h, fun _ _ => .inr (hcall.grow hsync)⟩
  · exact ⟨hw.trans hgrow, fun hr => absurd hr h, fun _ _ => .inr hcall⟩

theorem verdict_memcpy_htod (hc : q.tab.ctxGet k = some c) (h0 : resolveStream c stream = 0)
    {dst src : Nat} {hp : Space × Nat} :
    Verdict q v (c.resGet .mem dst = 0)
      ((coreMemcpy k dst src count 1 (some hp) stream).run q v) := by
  unfold coreMemcpy
  rw [withCtx_run hc, resolveRuntimeStream_eq, h0]
  by_cases hd : c.resGet .mem dst = 0
  · simp only [if_true, hd, Prog.pure_run]
    exact verdict_refused trivial v
  have hfn : 3 ∈ LibFn.places .cuMemcpyHtoDAsync .stream := by decide
  simp only [if_true, hd, if_false, Prog.bind_run, load_run, Prog.ite_run]
  by_cases hb : bufferNeedsHostPtrPatch c (v.eng.mem.read hp.1 hp.2 count) = true
  · rw [if_pos hb, alloc, Prog.bind_run, lib_run]
    by_cases ha : (q.env.ret v.clock ⟨.malloc, [count], []⟩).code = 0
    · simp only [ha, Prog.pure_run, decide_true, if_true]
      exact verdict_copySync not_false hfn (List.prefix_append _ _)
    · simp only [ha, Prog.pure_run, decide_false, Bool.false_eq_true, if_false]
      exact ⟨List.prefix_append _ _, False.elim, fun hq => absurd (hq _ _) ha⟩
  · rw [if_neg hb]
    exact verdict_copySync not_false hfn List.prefix_rfl

theorem verdict_memcpy_dtoh (hc : q.tab.ctxGet k = some c) (h0 : resolveStream c stream = 0)
    {dst src : Nat} {hp : Space × Nat} :
    Verdict q v (c.resGet .mem src = 0)
      ((coreMemcpy k dst src count 2 (some hp) stream).run q v) := by
  unfold coreMemcpy
  rw [withCtx_run hc, resolveRuntimeStream_eq, h0]
  by_cases hs : c.resGet .mem src = 0
  · simp only [OfNat.ofNat_ne_one, if_false, if_true, hs, Prog.pure_run]
    exact verdict_refused trivial v
  · simp only [OfNat.ofNat_ne_one, if_false, if_true, hs]
    exact verdict_call not_false rfl (copy_onDefault (by decide) _ _ _)

theorem verdict_memcpy_dtod (hc : q.tab.ctxGet k = some c) (h0 : resolveStream c stream = 0)
    {dst src kind : Nat} (h1 : kind ≠ 1) (h2 : kind ≠ 2) :
    Verdict q v (kind ≠ 3 ∨ c.resGet .mem dst = 0 ∨ c.resGet .mem src = 0)
      ((coreMemcpy k dst src count kind none stream).run q v) := by
  unfold coreMemcpy
  rw [withCtx_run hc, resolveRuntimeStream_eq, h0]
  simp only [h1, h2, if_false]
  by_cases h3 : kind = 3
  · by_cases hd : c.resGet .mem dst = 0
    · simp only [h3, hd, if_true, Prog.pure_run]
      exact verdict_refused (by simp) v
    by_cases hs : c.resGet .mem src = 0
    · simp only [h3, hd, hs, if_true, if_false, Prog.pure_run]
      exact verdict_refused (by simp) v
    · simp only [h3, hd, hs, if_true, if_false]
      exact verdict_call (by simp) rfl (copy_onDefault (by decide) _ _ _)
  · simp only [h3, if_false, Prog.pure_run]
    exact verdict_refused (.inl h3) v

theorem verdict_memcpyPlan {r : MemReq} (hc : q.tab.ctxGet k = some c)
    (h0 : resolveStream c r.stream = 0) :
    Verdict q v (memcpyRefuses e c r) ((memcpyPlan k e r).run q v) := by
  unfold memcpyPlan memcpyRefuses
  by_cases h1 : r.kind = 1
  · rw [if_pos h1, if_pos h1]
    split
    · exact verdict_copyIn (m := .memcpy) (d := .htod) hc h0
    · rw [h1]
      exact verdict_legacy fun hp => verdict_memcpy_htod hc h0
  rw [if_neg h1, if_neg h1]
  by_cases h2 : r.kind = 2
  · rw [if_pos h2, if_pos h2, h2]
    split
    · exact verdict_copyOut (m := .memcpy) (d := .dtoh) hc h0 fun R x hx => hx.thenSync hc h0
    · exact verdict_legacy fun hp => by
        rw [Prog.bind_run]
        exact (verdict_memcpy_dtoh hc h0).thenSync hc h0
  · rw [if_neg h2, if_neg h2]
    exact verdict_memcpy_dtod hc h0 h1 h2

theorem verdict_cuMemcpyPlan {r : MemReq} (hc : q.tab.ctxGet k = some c)
    (h0 : resolveStream c r.stream = 0) :
    Verdict q v (cuMemcpyRefuses e c r) ((cuMemcpyPlan k e r).run q v) := by
  unfold cuMemcpyPlan cuMemcpyRefuses
  split
  · exact verdict_copyIn (m := .cuMemcpy) (d := .htod) hc h0
  split
  · exact verdict_copyOut (m := .cuMemcpy) (d := .dtoh) hc h0 fun R x hx => hx
  · exact verdict_refused trivial v

end Verdict

/-! The commands -/

section Commands
variable {e : CmdEnv} {c : Context} {s s' : CmdSt} {t : ResType} {h : Nat} {R : Prop}

/-- A missing handle is refused when `R`, and otherwise not. -/
def HandleLaw (e : CmdEnv) (c : Context) (s s' : CmdSt) (R : Prop) (u : ResType × Nat) : Prop :=
  c.Missing u.1 u.2 → (R → Refused u.1 s s') ∧ (e.env.Mallocs → Refused u.1 s s' → R)

theorem handleLaw_checked (hR : R) (herr : c.Missing t h → s'.err ≠ 0)
    (hcalls : c.Missing t h → s'.be.dev.calls = s.be.dev.calls) : HandleLaw e c s s' R (t, h) := by
  intro hm
  refine ⟨fun _ => ⟨herr hm, ?_⟩, fun _ _ => hR⟩
  rintro ⟨call, hcall, -⟩
  rw [hcalls hm, List.drop_length] at hcall
  exact absurd hcall List.not_mem_nil

theorem handleLaw_call (hR : ¬R) (call : LibCall)
    (hcalls : s'.be.dev.calls = s.be.dev.calls ++ [call])
    (hcall : c.Missing t h → call.OnDefault t) : HandleLaw e c s s' R (t, h) :=
  fun hm => ⟨fun hr => absurd hr hR, fun _ href =>
    absurd (defaulted_of_call hcalls le_rfl (hcall hm)) href.calls⟩

theorem handleLaw_verdict (hv : c.Missing .stream h →
    ∃ x, Verdict ⟨e.env, s.be.tab⟩ s.be.dev R x ∧ s'.err = x.1 % 2 ^ 32 ∧ s'.be.dev = x.2) :
    HandleLaw e c s s' R (.stream, h) := by
  intro hm
  obtain ⟨x, hv, herr, hdev⟩ := hv hm
  constructor
  · intro hr
    have href := hv.refused hr
    exact ⟨herr ▸ href.1, hdev ▸ href.2⟩
  · intro hq href
    by_contra hr
    rcases hv.made hq hr with h0 | hd
    · exact href.error (herr.trans h0)
    · exact href.calls (hdev ▸ hd)

theorem rt_handleLaw (hc : s.be.tab.ctxGet e.key = some c) (cmd : RtCmd) :
    ∀ u ∈ (Cmd.rt cmd).handles s.payload,
      HandleLaw e c s ((runtimeHandleCmd cmd).run e s).2 ((Cmd.rt cmd).Refuses e c s.payload) u := by
  intro u hu
  have hev {x : Nat} (hm : c.Missing .event x) := resGet_missing rfl hm
  cases cmd <;> simp only [Cmd.handles, List.mem_cons, List.not_mem_nil, or_false] at hu
  case streamSynchronize =>
    subst hu
    refine handleLaw_call not_false ⟨.cudaStreamSynchronize, [resolveRuntimeStream c
      (streamSynchronizeReq.stream.get s.payload)], []⟩ ?_ fun hm => ?_
    · simp [runtimeHandleCmd, answer, coreStreamSynchronize, hc, streamSync, sync_run]
    · exact onDefault 0 (by decide) (congrArg some (resolveRuntimeStream_missing hm))
  case eventRecord =>
    have hcalls : ((runtimeHandleCmd .eventRecord).run e s).2.be.dev.calls = s.be.dev.calls ++
        [⟨.cudaEventRecord, [c.resGet .event (eventRecordReq.event.get s.payload),
          resolveRuntimeStream c (eventRecordReq.stream.get s.payload)], []⟩] := by
      simp [runtimeHandleCmd, answer, coreEventRecord, hc, lib_run]
    rcases hu with rfl | rfl
    · exact handleLaw_call not_false _ hcalls fun hm =>
        onDefault 0 (by decide) (congrArg some (hev hm))
    · exact handleLaw_call not_false _ hcalls fun hm =>
        onDefault 1 (by decide) (congrArg some (resolveRuntimeStream_missing hm))
  case eventSynchronize =>
    subst hu
    refine handleLaw_call not_false ⟨.cudaEventSynchronize, [c.resGet .event
      (eventSynchronizeReq.event.get s.payload)], []⟩ ?_ fun hm => ?_
    · simp [runtimeHandleCmd, answer, coreEventSynchronize, hc, lib_run]
    · exact onDefault 0 (by decide) (congrArg some (hev hm))
  case eventElapsedTime =>
    have hcalls : ((runtimeHandleCmd .eventElapsedTime).run e s).2.be.dev.calls = s.be.dev.calls ++
        [⟨.cudaEventElapsedTime, [c.resGet .event (eventElapsedTimeReq.startEvent.get s.payload),
          c.resGet .event (eventElapsedTimeReq.endEvent.get s.payload)], []⟩] := by
      simp [runtimeHandleCmd, answerWith, coreEventElapsedTime, hc, lib_run]
    rcases hu with rfl | rfl
    · exact handleLaw_call not_false _ hcalls fun hm =>
        onDefault 0 (by decide) (congrArg some (hev hm))
    · exact handleLaw_call not_false _ hcalls fun hm =>
        onDefault 1 (by decide) (congrArg some (hev hm))
  case eventDestroy =>
    subst hu
    refine handleLaw_checked trivial (fun hm => ?_) fun hm => ?_
    all_goals simp [runtimeHandleCmd, answer, coreEventDestroy, withCtxM, hc, hev hm]
  case pushCallConfiguration =>
    subst hu
    refine handleLaw_call not_false ⟨.cudaPushCallConfiguration,
      [(pushCallCfgReq.gridDim 0).get s.payload, (pushCallCfgReq.gridDim 1).get s.payload,
        (pushCallCfgReq.gridDim 2).get s.payload, (pushCallCfgReq.blockDim 0).get s.payload,
        (pushCallCfgReq.blockDim 1).get s.payload, (pushCallCfgReq.blockDim 2).get s.payload,
        pushCallCfgReq.sharedMem.get s.payload,
        resolveRuntimeStream c (pushCallCfgReq.stream.get s.payload)], []⟩ ?_ fun hm => ?_
    · simp [runtimeHandleCmd, answer, corePushCallConfiguration, dim3, hc, lib_run]
    · exact onDefault 7 (by decide) (congrArg some (resolveRuntimeStream_missing hm))
  case initModule =>
    subst hu
    have hmod {x : Nat} (hm : c.Missing .module x) := resGet_missing rfl hm
    refine handleLaw_checked trivial (fun hm => ?_) fun hm => ?_
    all_goals simp [runtimeHandleCmd, answer, coreInitModule, hc, hmod hm]
  case registerFunction =>
    subst hu
    have hmod {x : Nat} (hm : c.Missing .module x) := resGet_missing rfl hm
    refine handleLaw_checked trivial (fun hm => ?_) fun hm => ?_
    all_goals simp [runtimeHandleCmd, handleRegisterFunction, hc, hmod hm]
  case funcGetAttributes =>
    subst hu
    have hfun {x : Nat} (hm : c.Missing .function x) := resGet_missing rfl hm
    refine handleLaw_checked trivial (fun hm => ?_) fun hm => ?_
    all_goals simp [runtimeHandleCmd, coreFuncGetAttributes, hc, hfun hm]
  case memcpy =>
    subst hu
    refine handleLaw_verdict fun hm => ?_
    have hran := handleMemcpy_ran (e := e) (s := s) rfl
    exact ⟨_, verdict_memcpyPlan hc (resolveStream_missing hm), hran.err, congrArg Machine.dev hran.be⟩
  case launchKernel =>
    have hfun {x : Nat} (hm : c.Missing .function x) := resGet_missing rfl hm
    by_cases h0 : c.resGet .function (launchKernelReq.func.get s.payload) = 0
    · have herr : ((runtimeHandleCmd .launchKernel).run e s).2.err ≠ 0 := by
        simp [runtimeHandleCmd, handleLaunchKernel, coreLaunchKernel, dim3, hc, h0]
      have hcalls : ((runtimeHandleCmd .launchKernel).run e s).2.be.dev.calls = s.be.dev.calls := by
        simp [runtimeHandleCmd, handleLaunchKernel, coreLaunchKernel, dim3, hc, h0]
      rcases hu with rfl | rfl
      all_goals exact handleLaw_checked h0 (fun _ => herr) fun _ => hcalls
    · rcases hu with rfl | rfl
      · exact fun hm => absurd (hfun hm) h0
      obtain ⟨touched, hrun⟩ := handleLaunchKernel_run (e := e) s
      obtain ⟨-, -, after, hcalls, -⟩ := coreLaunchKernel_launches (e := e) (sizeof launchKernelReq)
        { s with touched := touched } (launchKernelReq.func.get s.payload)
        (launchKernelReq.sharedMem.get s.payload) (launchKernelReq.stream.get s.payload)
        (launchKernelReq.argsSize.get s.payload) ((List.range 3).map fun i =>
          (launchKernelReq.gridDim i).get s.payload) ((List.range 3).map fun i =>
          (launchKernelReq.blockDim i).get s.payload) hc h0
      intro hm
      refine ⟨fun h => absurd h h0, fun _ href => absurd ?_ href.calls⟩
      -- the launch comes first, then the lookup of the error text, if any
      have hdev : ((runtimeHandleCmd .launchKernel).run e s).2.be.dev.calls = _ :=
        (congrArg (fun x => x.2.be.dev.calls) hrun).trans hcalls
      have hcall : ∃ call ∈ ((runtimeHandleCmd .launchKernel).run e s).2.be.dev.calls.drop
          s.be.dev.calls.length, call.fn = .cuLaunchKernel ∧ call.args[8]? = some 0 := by
        rw [hdev, List.drop_left]
        exact ⟨_, List.mem_cons_self, rfl, congrArg some (resolveRuntimeStream_missing hm)⟩
      obtain ⟨call, hmem, hfn, h8⟩ := hcall
      refine ⟨call, hmem, 8, ?_, h8⟩
      rw [hfn]
      exact List.mem_singleton_self 8

theorem drv_handleLaw (hc : s.be.tab.ctxGet e.key = some c) (cmd : DrvCmd) :
    ∀ u ∈ (Cmd.drv cmd).handles s.payload,
      HandleLaw e c s ((driverHandleCmd cmd).run e s).2 ((Cmd.drv cmd).Refuses e c s.payload) u := by
  intro u hu
  have hev {x : Nat} (hm : c.Missing .event x) := resGet_missing rfl hm
  have hstream {x : Nat} (hm : c.Missing .stream x) := resGet_missing rfl hm
  have hctx {x : Nat} (hm : c.Missing .context x) := resGet_missing rfl hm
  cases cmd <;> simp only [Cmd.handles, List.mem_cons, List.not_mem_nil, or_false] at hu
  case cuMemcpy =>
    subst hu
    refine handleLaw_verdict fun hm => ?_
    have hran := handleCuMemcpy_ran (e := e) (s := s) rfl
    exact ⟨_, verdict_cuMemcpyPlan hc (resolveStream_missing hm), hran.err,
      congrArg Machine.dev hran.be⟩
  case cuCtxSetCurrent =>
    subst hu
    refine handleLaw_call not_false ⟨.cuCtxSetCurrent, [c.resGet .context
      (cuCtxSetCurrentReq.context.get s.payload)], []⟩ ?_ fun hm => ?_
    · simp [driverHandleCmd, answer, coreCuCtxSetCurrent, hc, lib_run]
    · exact onDefault 0 (by decide) (congrArg some (hctx hm))
  case cuCtxEnablePeerAccess =>
    subst hu
    refine handleLaw_call not_false ⟨.cuCtxEnablePeerAccess, [c.resGet .context
      (cuCtxEnablePeerAccessReq.peerContext.get s.payload),
      cuCtxEnablePeerAccessReq.flags.get s.payload], []⟩ ?_ fun hm => ?_
    · simp [driverHandleCmd, answer, coreCuCtxEnablePeerAccess, hc, lib_run]
    · exact onDefault 0 (by decide) (congrArg some (hctx hm))
  case cuStreamDestroy =>
    subst hu
    refine handleLaw_checked trivial (fun hm => ?_) fun hm => ?_
    all_goals simp [driverHandleCmd, answer, coreCuStreamDestroy, withCtxM, hc, hstream hm]
  case cuStreamSynchronize =>
    subst hu
    refine handleLaw_call not_false ⟨.cuStreamSynchronize, [resolveStream c
      (cuStreamSynchronizeReq.stream.get s.payload)], []⟩ ?_ fun hm => ?_
    · simp [driverHandleCmd, answer, coreCuStreamSynchronize, hc, streamSync, sync_run]
    · exact onDefault 0 (by decide) (congrArg some (resolveStream_missing hm))
  case cuStreamQuery =>
    subst hu
    refine handleLaw_call not_false ⟨.cuStreamQuery, [c.resGet .stream
      (cuStreamQueryReq.stream.get s.payload)], []⟩ ?_ fun hm => ?_
    · simp [driverHandleCmd, answer, coreCuStreamQuery, hc, lib_run]
    · exact onDefault 0 (by decide) (congrArg some (hstream hm))
  case cuStreamWaitEvent =>
    have hcalls : ((driverHandleCmd .cuStreamWaitEvent).run e s).2.be.dev.calls = s.be.dev.calls ++
        [⟨.cuStreamWaitEvent, [c.resGet .stream (cuStreamWaitEventReq.stream.get s.payload),
          c.resGet .event (cuStreamWaitEventReq.event.get s.payload),
          cuStreamWaitEventReq.flags.get s.payload], []⟩] := by
      simp [driverHandleCmd, answer, coreCuStreamWaitEvent, hc, lib_run]
    rcases hu with rfl | rfl
    · exact handleLaw_call not_false _ hcalls fun hm =>
        onDefault 0 (by decide) (congrArg some (hstream hm))
    · exact handleLaw_call not_false _ hcalls fun hm =>
        onDefault 1 (by decide) (congrArg some (hev hm))
  case cuStreamGetCtx =>
    subst hu
    refine handleLaw_call not_false ⟨.cuStreamGetCtx, [c.resGet .stream
      (cuStreamGetCtxReq.stream.get s.payload)], []⟩ ?_ fun hm => ?_
    · simp only [driverHandleCmd, answerWith, coreCuStreamGetCtx, Prog.bind_run, key_run, req_fst,
        core_fst, core_be, setErr_be, reply_be, req_be, withCtxM, hc, Prog.ite_run]
      split
      · split <;> rfl
      · rfl
    · exact onDefault 0 (by decide) (congrArg some (hstream hm))
  case cuEventDestroy =>
    subst hu
    refine handleLaw_checked trivial (fun hm => ?_) fun hm => ?_
    all_goals simp [driverHandleCmd, answer, coreCuEventDestroy, withCtxM, hc, hev hm]
  case cuEventRecord =>
    have hcalls : ((driverHandleCmd .cuEventRecord).run e s).2.be.dev.calls = s.be.dev.calls ++
        [⟨.cuEventRecord, [c.resGet .event (cuEventRecordReq.event.get s.payload),
          c.resGet .stream (cuEventRecordReq.stream.get s.payload)], []⟩] := by
      simp [driverHandleCmd, answer, coreCuEventRecord, hc, lib_run]
    rcases hu with rfl | rfl
    · exact handleLaw_call not_false _ hcalls fun hm =>
        onDefault 0 (by decide) (congrArg some (hev hm))
    · exact handleLaw_call not_false _ hcalls fun hm =>
        onDefault 1 (by decide) (congrArg some (hstream hm))
  case cuEventElapsedTime =>
    have hcalls : ((driverHandleCmd .cuEventElapsedTime).run e s).2.be.dev.calls =
        s.be.dev.calls ++ [⟨.cuEventElapsedTime,
          [c.resGet .event (cuEventElapsedTimeReq.startEvent.get s.payload),
            c.resGet .event (cuEventElapsedTimeReq.endEvent.get s.payload)], []⟩] := by
      simp [driverHandleCmd, answerWith, coreCuEventElapsedTime, hc, lib_run]
    rcases hu with rfl | rfl
    · exact handleLaw_call not_false _ hcalls fun hm =>
        onDefault 0 (by decide) (congrArg some (hev hm))
    · exact handleLaw_call not_false _ hcalls fun hm =>
        onDefault 1 (by decide) (congrArg some (hev hm))
  case cuMemcpyAsync =>
    subst hu
    refine handleLaw_verdict fun hm => ⟨(coreCuMemcpyAsync e.key
      (cuMemcpyAsyncReq.dst.get s.payload) (cuMemcpyAsyncReq.src.get s.payload)
      (cuMemcpyAsyncReq.bytesize.get s.payload) (cuMemcpyAsyncReq.stream.get s.payload)).run
        ⟨e.env, s.be.tab⟩ s.be.dev, ?_, rfl, rfl⟩
    rw [coreCuMemcpyAsync, withCtx_run hc, Prog.ite_run, hstream hm]
    split
    next hdead => exact verdict_refused hdead _
    next hlive => exact verdict_call hlive rfl (copy_onDefault (by decide) _ _ _)

end Commands

/-- A missing handle is refused, without a call on a default object, by the commands that
check what the lookup gave, and by no other unless something else is wrong with the request. -/
theorem missing_refused_iff {k : Key} {m : Machine} {c : Context} (h : Reachable k m)
    (hc : m.tab.ctxGet k = some c) (e : CmdEnv) (s : CmdSt) (hk : e.key = k) (hs : s.be = m)
    (cmd : Cmd) : ∀ u ∈ cmd.handles s.payload, c.Missing u.1 u.2 →
      (cmd.Refuses e c s.payload → Refused u.1 s ((dispatchCmd cmd.code).run e s).2) ∧
        (e.env.Mallocs → Refused u.1 s ((dispatchCmd cmd.code).run e s).2 →
          cmd.Refuses e c s.payload) := by
  subst hk hs
  rw [dispatchCmd, Cmd.ofCode_code]
  cases cmd with
  | rt cmd => exact rt_handleLaw hc cmd
  | drv cmd => exact drv_handleLaw hc cmd

/-! A session with an empty table, and a request with the handle 5 -/

def staleRun : Machine :=
  ((processElem ⟨1, 1⟩ ⟨[⟨.req 0, 0, 8⟩], [⟨.resp 0, 0, 8⟩]⟩).run .quiet
    (.start fun _ a => (Bytes.le 4 RtCmd.init.code).getD a 0)).2

def staleReq : CmdSt :=
  ⟨staleRun, fun a => if a < payloadOff then 0 else (Bytes.le 8 5).getD (a - payloadOff) 0, [], [],
    0, false⟩

theorem staleRun_missing : ∃ c, staleRun.tab.ctxGet ⟨1, 1⟩ = some c ∧ c.Missing .stream 5 := by
  have hres : (staleRun.tab.ctxGet ⟨1, 1⟩).map (·.resources .stream) = some [] := by
    decide +kernel
  obtain ⟨c, hc, hnil⟩ := Option.map_eq_some_iff.mp hres
  refine ⟨c, hc, fun r hr => ?_, by decide⟩
  rw [hnil] at hr
  exact absurd hr List.not_mem_nil

theorem missing_refused_iff_destroy : Refused .stream staleReq
    ((dispatchCmd (Cmd.drv .cuStreamDestroy).code).run (cmdEnv .quiet ⟨1, 1⟩ ⟨[], []⟩)
      staleReq).2 := by
  obtain ⟨c, hc, hm⟩ := staleRun_missing
  have hu : (ResType.stream, 5) ∈ (Cmd.drv .cuStreamDestroy).handles staleReq.payload := by decide
  exact (missing_refused_iff (.serve (.start _) _ _) hc (cmdEnv .quiet ⟨1, 1⟩ ⟨[], []⟩) staleReq
    rfl rfl (.drv .cuStreamDestroy) _ hu hm).1 trivial

/-- A missing handle is synchronized as the default stream. -/
theorem missing_not_refused : ¬∀ (k : Key) (m : Machine) (c : Context), Reachable k m →
    m.tab.ctxGet k = some c → ∀ (e : CmdEnv) (s : CmdSt), e.key = k → s.be = m → ∀ cmd : Cmd,
      ∀ u ∈ cmd.handles s.payload, c.Missing u.1 u.2 →
        Refused u.1 s ((dispatchCmd cmd.code).run e s).2 := by
  intro hall
  obtain ⟨c, hc, hm⟩ := staleRun_missing
  have hu : (ResType.stream, 5) ∈ (Cmd.drv .cuStreamSynchronize).handles staleReq.payload := by
    decide
  have href := hall _ _ c (.serve (.start _) _ _) hc (cmdEnv .quiet ⟨1, 1⟩ ⟨[], []⟩) staleReq rfl
    rfl (.drv .cuStreamSynchronize) _ hu hm
  have herr : ((dispatchCmd (Cmd.drv .cuStreamSynchronize).code).run
      (cmdEnv .quiet ⟨1, 1⟩ ⟨[], []⟩) staleReq).2.err = 0 := by decide +kernel
  exact href.error herr

end HmCuda
