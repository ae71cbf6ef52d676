import HmCuda.System.LaunchWords
import HmCuda.System.Ledger
import HmCuda.System.StaleHandles

/-! The CUDA stream a stream value means. Some handlers resolve the value, and some only look
it up, so they differ on the values that CUDA reserves. -/

namespace HmCuda
open Layout

/-! The streams of a session -/

def Cmd.createsStream (p : Nat → UInt8) : Cmd → Option LibCall
  | .rt .streamCreate => some ⟨.cudaStreamCreateWithFlags, [streamCreateReq.flags.get p], []⟩
  | .drv .cuStreamCreate => some ⟨.cuStreamCreate, [cuStreamCreateReq.flags.get p], []⟩
  | _ => none

def streamsMade (env : Env) (k : Key) (el : Elem) (m : Machine) : List (Nat × Nat) :=
  match (el.cmd m).bind (·.createsStream (cmdStart env el m).payload) with
  | none => []
  | some call =>
    let r := env.ret m.dev.clock call
    if (iovToBuf m.dev.eng.mem el.outSg (sizeof reqHeader)).length = sizeof reqHeader ∧
        (m.tab.ctxGet k).isSome ∧ r.code = 0 then
      [(add64 m.tab.nextHandle 1, r.out 0)]
    else []

/-- The streams that CUDA creates are none of NULL, CU_STREAM_LEGACY and
CU_STREAM_PER_THREAD. -/
def Env.Streams (env : Env) : Prop :=
  ∀ n c, c.fn = .cuStreamCreate ∨ c.fn = .cudaStreamCreateWithFlags → (env.ret n c).code = 0 →
    2 < (env.ret n c).out 0

/-- The states of a backend, with the streams it has created so far. -/
inductive StreamRun (k : Key) : Machine → List (Nat × Nat) → Prop where
  | start (mem : ByteMem Space) : StreamRun k (.start mem) []
  | serve {m : Machine} {made : List (Nat × Nat)} (run : StreamRun k m made) (el : Elem) (env : Env)
      (streams : env.Streams) :
      StreamRun k ((processElem k el).run env m).2 (streamsMade env k el m ++ made)
  | idle {m : Machine} {made : List (Nat × Nat)} (run : StreamRun k m made) (d : Device) :
      StreamRun k { m with dev := d } made

/-- `p` is the CUDA stream of the value `h`: a reserved value stands for itself, a live handle
for the stream it was created for, and any other value for the NULL stream. -/
def StreamOf (made : List (Nat × Nat)) (c : Context) (h p : Nat) : Prop :=
  if h ≤ 2 then p = h
  else if ∃ r ∈ c.resources .stream, r.handle = h then (h, p) ∈ made
  else p = 0

def Cmd.onStream : Cmd → Bool
  | .rt c => c ∈ [.memcpy, .launchKernel, .streamSynchronize, .eventRecord, .pushCallConfiguration]
  | .drv c => c ∈ [.cuMemcpy, .cuMemcpyAsync, .cuStreamSynchronize, .cuStreamQuery,
      .cuStreamWaitEvent, .cuStreamGetCtx, .cuEventRecord]

/-- Where the call takes a stream, it takes `p`. -/
def LibCall.On (p : Nat) (c : LibCall) : Prop := ∀ i ∈ c.fn.places .stream, c.args[i]? = some p

/-- All calls after the first `n` take the stream `p`. -/
def Device.On (p n : Nat) (d : Device) : Prop :=
  n ≤ d.calls.length ∧ ∀ call ∈ d.calls.drop n, call.On p

/-- Every command acts on one stream for the value, the one it stands for. -/
def StreamsAgree (k : Key) (m : Machine) (made : List (Nat × Nat)) (c : Context) (h : Nat) : Prop :=
  ∃ p, StreamOf made c h p ∧ ∀ (e : CmdEnv) (s : CmdSt) (cmd : Cmd), e.key = k → s.be = m →
    cmd.onStream = true → (ResType.stream, h) ∈ cmd.handles s.payload →
      ((dispatchCmd cmd.code).run e s).2.be.dev.On p m.dev.calls.length

/-! The calls of a handler -/

section On
variable {p n i : Nat} {d d' : Device} {fn : LibFn} {args : List Nat} {data : List (List UInt8)}

theorem on_start (d : Device) : d.On p d.calls.length := by
  refine ⟨le_rfl, fun call hcall => ?_⟩
  rw [List.drop_length] at hcall
  exact absurd hcall List.not_mem_nil

theorem Device.On.calls (h : d.On p n) {l : List LibCall} (hd : d'.calls = d.calls ++ l)
    (hnew : ∀ c ∈ l, c.On p) : d'.On p n := by
  refine ⟨?_, fun call hcall => ?_⟩
  · rw [hd, List.length_append]
    exact h.1.trans (Nat.le_add_right _ _)
  · rw [hd, List.drop_append_of_le_length h.1] at hcall
    exact (List.mem_append.mp hcall).elim (h.2 call) (hnew call)

theorem Device.On.call (h : d.On p n) {x : LibCall} (hd : d'.calls = d.calls ++ [x])
    (hcall : x.On p) : d'.On p n :=
  h.calls hd fun _ hc => List.mem_singleton.mp hc ▸ hcall

theorem on_free (h : fn.places .stream = []) : LibCall.On p ⟨fn, args, data⟩ := by
  intro i hi
  dsimp only at hi
  rw [h] at hi
  exact absurd hi List.not_mem_nil

theorem on_place (h : fn.places .stream = [i]) (ha : args[i]? = some p) :
    LibCall.On p ⟨fn, args, data⟩ := by
  intro j hj
  dsimp only at hj
  rw [h] at hj
  rwa [List.mem_singleton.mp hj]

theorem keeps_lib (h : LibCall.On p ⟨fn, args, data⟩) :
    Prog.Keeps (Device.On p n) (lib fn args data) := fun _ _ hv => hv.call rfl h

theorem keeps_copyAsync (h : fn.places .stream = [3]) (dst src : Space × Nat) (len : Nat) :
    Prog.Keeps (Device.On p n) (copyAsync fn dst src len p) := fun _ _ hv =>
  hv.call rfl (on_place h rfl)

theorem keeps_streamSync (h : fn.places .stream = [0]) :
    Prog.Keeps (Device.On p n) (streamSync fn p) := fun _ _ hv => hv.call rfl (on_place h rfl)

theorem keeps_store (dst : Space × Nat) (bs : List UInt8) :
    Prog.Keeps (Device.On p n) (store dst bs) := fun _ _ hv => hv

theorem keeps_load (src : Space × Nat) (len : Nat) : Prog.Keeps (Device.On p n) (load src len) :=
  fun _ _ hv => hv

theorem keeps_malloc (size : Nat) : Prog.Keeps (Device.On p n) (alloc .malloc size) :=
  Prog.keeps_bind (keeps_lib (on_free rfl)) fun _ => Prog.keeps_pure _

end On

/-! The copies -/

section Copies
variable {k : Key} {c : Context} {q : QEnv} {v : Device} {m : MemCmd} {d : Dir} {p dev stream n : Nat}
  {ch : Chunk} {cs : List Chunk} {e : CmdEnv} {r : MemReq}

theorem coreMemcpy_on (hc : q.tab.ctxGet k = some c) (hs : resolveStream c stream = p)
    (dst src count kind : Nat) (hp : Option (Space × Nat)) (hv : v.On p n) :
    ((coreMemcpy k dst src count kind hp stream).run q v).2.On p n := by
  rw [coreMemcpy, withCtx_run hc, resolveRuntimeStream_eq, hs]
  have hsync (dst src : Space × Nat) : Prog.Keeps (Device.On p n) (do
      let res ← copyAsync .cuMemcpyHtoDAsync dst src count p
      if res = 0 then streamSync .cuStreamSynchronize p else return res) :=
    Prog.keeps_bind (keeps_copyAsync rfl _ _ _) fun _ => Prog.keeps_ite
      (fun _ => keeps_streamSync rfl) fun _ => Prog.keeps_pure _
  refine Prog.keeps_ite (P := Device.On p n) (fun _ => ?_) (fun _ => ?_) q v hv
  · refine Prog.keeps_ite (fun _ => Prog.keeps_pure 1) fun _ => ?_
    rcases hp with _ | hp
    · exact Prog.keeps_pure 1
    refine Prog.keeps_bind (keeps_load _ _) fun data => Prog.keeps_ite (fun _ => ?_) fun _ =>
      hsync _ _
    refine Prog.keeps_bind (keeps_malloc _) fun ok => Prog.keeps_ite (fun _ => ?_) fun _ =>
      Prog.keeps_pure 2
    exact Prog.keeps_bind Prog.keeps_get fun _ => Prog.keeps_bind (keeps_store _ _) fun _ => hsync _ _
  refine Prog.keeps_ite (fun _ => ?_) fun _ => Prog.keeps_ite (fun _ => ?_) fun _ =>
    Prog.keeps_pure 1
  · refine Prog.keeps_ite (fun _ => Prog.keeps_pure 1) fun _ => ?_
    rcases hp with _ | hp
    · exact Prog.keeps_pure 1
    · exact keeps_copyAsync rfl _ _ _
  · exact Prog.keeps_ite (fun _ => Prog.keeps_pure 1) fun _ => Prog.keeps_ite
      (fun _ => Prog.keeps_pure 1) fun _ => keeps_copyAsync rfl _ _ _

theorem chunkStep_on (hc : q.tab.ctxGet k = some c) (hs : resolveStream c stream = p)
    (hv : v.On p n) : ((chunkStep m d k dev stream ch).run q v).2.On p n := by
  by_cases hp : c.resGet .mem (add64 dev ch.off) = 0
  · have hquiet : QuietChunk q (c.Dead m (add64 dev ch.off)) v
        ((chunkStep m d k dev stream ch).run q v) := chunkStep_quiet hc hp
    obtain ⟨new, hnew, hmalloc⟩ := hquiet.calls
    refine hv.calls hnew fun call hcall => ?_
    obtain ⟨size, rfl⟩ := hmalloc call hcall
    exact on_free rfl
  · rw [chunkStep_mem hc hp, hs]
    exact keeps_copyAsync (by cases d <;> rfl) _ _ _ q v hv

theorem chunks_on (hc : q.tab.ctxGet k = some c) (hs : resolveStream c stream = p)
    (hv : v.On p n) : ((Prog.firstError (chunkStep m d k dev stream) cs).run q v).2.On p n :=
  Prog.firstError_keeps (fun _ _ _ hw => chunkStep_on hc hs hw) hv

theorem thenSync_on (hc : q.tab.ctxGet k = some c) (hs : resolveStream c stream = p)
    (err : Nat) (hv : v.On p n) : ((thenSync k stream err).run q v).2.On p n := by
  rw [thenSync, Prog.ite_run]
  split
  · rw [coreStreamSynchronize, withCtx_run hc, resolveRuntimeStream_eq, hs]
    exact keeps_streamSync rfl q v hv
  · exact hv

theorem legacyPlan_on {gpa count : Nat} {f : Space × Nat → QueryM Nat}
    (hf : ∀ hp, ((f hp).run q v).2.On p n) (hv : v.On p n) :
    ((legacyPlan e gpa count f).run q v).2.On p n := by
  unfold legacyPlan
  rcases e.env.gpaToVa gpa count with _ | ⟨hp, plen⟩
  · exact hv
  · dsimp only
    rw [Prog.ite_run]
    split
    · exact hv
    · exact hf hp

theorem copyInPlan_on (hc : q.tab.ctxGet k = some c) (hs : resolveStream c stream = p)
    {count : Nat} (hv : v.On p n) :
    ((copyInPlan e count (chunkStep m d k dev stream)).run q v).2.On p n := by
  rw [copyInPlan, Prog.ite_run]
  split
  · exact chunks_on hc hs hv
  · exact hv

theorem copyOutPlan_on (hc : q.tab.ctxGet k = some c) (hs : resolveStream c stream = p)
    {count : Nat} {after : Nat → QueryM Nat}
    (hafter : ∀ err w, w.On p n → ((after err).run q w).2.On p n) (hv : v.On p n) :
    ((copyOutPlan e count (chunkStep m d k dev stream) after).run q v).2.On p n := by
  rw [copyOutPlan, Prog.ite_run]
  split
  · rw [Prog.bind_run]
    exact hafter _ _ (chunks_on hc hs hv)
  · exact hv

theorem memcpyPlan_on (hc : q.tab.ctxGet k = some c) (hs : resolveStream c r.stream = p)
    (hv : v.On p n) : ((memcpyPlan k e r).run q v).2.On p n := by
  unfold memcpyPlan
  by_cases h1 : r.kind = 1
  · rw [if_pos h1]
    split
    · exact copyInPlan_on (m := .memcpy) (d := .htod) hc hs hv
    · exact legacyPlan_on (fun hp => coreMemcpy_on hc hs _ _ _ _ _ hv) hv
  rw [if_neg h1]
  by_cases h2 : r.kind = 2
  · rw [if_pos h2, h2]
    split
    · exact copyOutPlan_on (m := .memcpy) (d := .dtoh) hc hs (fun err w => thenSync_on hc hs err) hv
    · exact legacyPlan_on (fun hp => thenSync_on hc hs _ (coreMemcpy_on hc hs _ _ _ _ _ hv)) hv
  · rw [if_neg h2]
    exact coreMemcpy_on hc hs _ _ _ _ _ hv

theorem cuMemcpyPlan_on (hc : q.tab.ctxGet k = some c) (hs : resolveStream c r.stream = p)
    (hv : v.On p n) : ((cuMemcpyPlan k e r).run q v).2.On p n := by
  unfold cuMemcpyPlan
  split
  · exact copyInPlan_on (m := .cuMemcpy) (d := .htod) hc hs hv
  split
  · exact copyOutPlan_on (m := .cuMemcpy) (d := .dtoh) hc hs (fun _ _ hw => hw) hv
  · exact hv

end Copies

/-! The commands -/

section Commands
variable {e : CmdEnv} {c : Context} {s : CmdSt} {h p : Nat}

theorem keeps_launchTail {n : Nat} {config : List Nat} (hconfig : config[8]? = some p)
    {m : CmdM (List (List UInt8))} (hm : Prog.Keeps (fun s : CmdSt => s.be.dev.On p n) m) :
    Prog.Keeps (fun s : CmdSt => s.be.dev.On p n) (do
      let params ← m
      let res ← core (query (lib .cuLaunchKernel config params))
      if res.code ≠ 0 then
        let _ ← core (query (lib .cuGetErrorString [res.code] []))
        return 719
      return 0) := by
  have hcore {fn : LibFn} {args : List Nat} {data : List (List UInt8)}
      (h : LibCall.On p ⟨fn, args, data⟩) : Prog.Keeps (fun s : CmdSt => s.be.dev.On p n)
        (core (query (lib fn args data))) := fun _ _ hs => keeps_lib h _ _ hs
  refine Prog.keeps_bind hm fun params => Prog.keeps_bind (hcore (on_place rfl hconfig)) fun res => ?_
  exact Prog.keeps_ite (fun _ => Prog.keeps_bind (hcore (on_free rfl)) fun _ => Prog.keeps_pure _)
    fun _ => Prog.keeps_pure _

theorem coreLaunchKernel_on {k : Key} (hc : s.be.tab.ctxGet k = some c)
    (hs : resolveStream c h = p) (func sharedMem args argsSize : Nat) {g b : List Nat}
    (hg : g.length = 3) (hb : b.length = 3) :
    ((coreLaunchKernel k func g b sharedMem h args argsSize).run e s).2.be.dev.On p
      s.be.dev.calls.length := by
  have hconfig (f : Nat) : (f :: g ++ b ++ [sharedMem, p])[8]? = some p := by
    rw [List.getElem?_append_right (by simp [hg, hb])]
    simp [hg, hb]
  unfold coreLaunchKernel
  rw [Prog.bind_run, Prog.get_run]
  simp only [hc, resolveRuntimeStream_eq, hs]
  refine Prog.keeps_ite (P := fun t : CmdSt => t.be.dev.On p s.be.dev.calls.length)
    (fun _ => Prog.keeps_pure 1) (fun _ => Prog.keeps_ite (fun _ => ?_) fun _ =>
      keeps_launchTail (hconfig _) (Prog.keeps_pure [])) e s (on_start _)
  -- the words are translated in the request buffer
  refine Prog.keeps_bind (Prog.keeps_forEach (fun i => ?_) _) fun _ => Prog.keeps_bind
    Prog.keeps_ask fun _ => keeps_launchTail (hconfig _) (Prog.keeps_collect (fun _ => ?_) _)
  · refine Prog.keeps_bind (fun _ _ hv => hv) fun _ => Prog.keeps_ite (fun _ => ?_) fun _ =>
      Prog.keeps_pure ()
    exact fun _ _ hv => hv
  · exact fun _ _ hv => hv

theorem launch_on (hc : s.be.tab.ctxGet e.key = some c)
    (hs : resolveStream c (launchKernelReq.stream.get s.payload) = p) :
    ((runtimeHandleCmd .launchKernel).run e s).2.be.dev.On p s.be.dev.calls.length := by
  obtain ⟨touched, hrun⟩ := handleLaunchKernel_run (e := e) s
  have hdev := congrArg (fun x : Unit × CmdSt => x.2.be.dev) hrun
  have hon := coreLaunchKernel_on (s := { s with touched := touched }) (e := e) hc hs
    (launchKernelReq.func.get s.payload) (launchKernelReq.sharedMem.get s.payload)
    (sizeof launchKernelReq) (launchKernelReq.argsSize.get s.payload)
    (g := (List.range 3).map fun i => (launchKernelReq.gridDim i).get s.payload)
    (b := (List.range 3).map fun i => (launchKernelReq.blockDim i).get s.payload) (by simp)
    (by simp)
  show (handleLaunchKernel.run e s).2.be.dev.On p _
  exact hdev ▸ hon

theorem rt_on (hc : s.be.tab.ctxGet e.key = some c) (hs : resolveStream c h = p) (cmd : RtCmd)
    (hcmd : (Cmd.rt cmd).onStream = true) (hu : (ResType.stream, h) ∈ (Cmd.rt cmd).handles s.payload) :
    ((runtimeHandleCmd cmd).run e s).2.be.dev.On p s.be.dev.calls.length := by
  cases cmd <;> simp only [Cmd.handles, List.mem_cons, List.not_mem_nil, or_false, Prod.mk.injEq,
    reduceCtorEq, false_and, false_or, true_and] at hu
  all_goals rw [hu] at hs
  case memcpy =>
    have hran := handleMemcpy_ran (e := e) (s := s) rfl
    exact congrArg Machine.dev hran.be ▸ memcpyPlan_on hc hs (on_start s.be.dev)
  case launchKernel => exact launch_on hc hs
  case streamSynchronize =>
    refine (on_start s.be.dev).call (x := ⟨.cudaStreamSynchronize, [p], []⟩) ?_ (on_place rfl rfl)
    simp [runtimeHandleCmd, answer, coreStreamSynchronize, hc, streamSync, sync_run, hs,
      resolveRuntimeStream_eq]
  case eventRecord =>
    refine (on_start s.be.dev).call (x := ⟨.cudaEventRecord, [c.resGet .event
      (eventRecordReq.event.get s.payload), p], []⟩) ?_ (on_place rfl rfl)
    simp [runtimeHandleCmd, answer, coreEventRecord, hc, lib_run, hs, resolveRuntimeStream_eq]
  case pushCallConfiguration =>
    refine (on_start s.be.dev).call (x := ⟨.cudaPushCallConfiguration,
      [(pushCallCfgReq.gridDim 0).get s.payload, (pushCallCfgReq.gridDim 1).get s.payload,
        (pushCallCfgReq.gridDim 2).get s.payload, (pushCallCfgReq.blockDim 0).get s.payload,
        (pushCallCfgReq.blockDim 1).get s.payload, (pushCallCfgReq.blockDim 2).get s.payload,
        pushCallCfgReq.sharedMem.get s.payload, p], []⟩) ?_ (on_place rfl rfl)
    simp [runtimeHandleCmd, answer, corePushCallConfiguration, dim3, hc, lib_run, hs,
      resolveRuntimeStream_eq]

theorem drv_on (hc : s.be.tab.ctxGet e.key = some c) (hs : resolveStream c h = p)
    (hl : c.resGet .stream h = p) (cmd : DrvCmd) (hcmd : (Cmd.drv cmd).onStream = true)
    (hu : (ResType.stream, h) ∈ (Cmd.drv cmd).handles s.payload) :
    ((driverHandleCmd cmd).run e s).2.be.dev.On p s.be.dev.calls.length := by
  cases cmd <;> simp only [Cmd.handles, List.mem_cons, List.not_mem_nil, or_false, Prod.mk.injEq,
    reduceCtorEq, false_and, false_or, true_and] at hu
  all_goals rw [hu] at hs hl
  case cuMemcpy =>
    have hran := handleCuMemcpy_ran (e := e) (s := s) rfl
    exact congrArg Machine.dev hran.be ▸ cuMemcpyPlan_on hc hs (on_start s.be.dev)
  case cuStreamDestroy => exact absurd hcmd (by decide)
  case cuStreamSynchronize =>
    refine (on_start s.be.dev).call (x := ⟨.cuStreamSynchronize, [p], []⟩) ?_ (on_place rfl rfl)
    simp [driverHandleCmd, answer, coreCuStreamSynchronize, hc, streamSync, sync_run, hs]
  case cuStreamQuery =>
    refine (on_start s.be.dev).call (x := ⟨.cuStreamQuery, [p], []⟩) ?_ (on_place rfl rfl)
    simp [driverHandleCmd, answer, coreCuStreamQuery, hc, lib_run, hl]
  case cuStreamWaitEvent =>
    refine (on_start s.be.dev).call (x := ⟨.cuStreamWaitEvent, [p, c.resGet .event
      (cuStreamWaitEventReq.event.get s.payload), cuStreamWaitEventReq.flags.get s.payload], []⟩)
      ?_ (on_place rfl rfl)
    simp [driverHandleCmd, answer, coreCuStreamWaitEvent, hc, lib_run, hl]
  case cuStreamGetCtx =>
    refine (on_start s.be.dev).call (x := ⟨.cuStreamGetCtx, [p], []⟩) ?_ (on_place rfl rfl)
    simp only [driverHandleCmd, answerWith, coreCuStreamGetCtx, Prog.bind_run, key_run, req_fst,
      core_fst, core_be, setErr_be, reply_be, req_be, withCtxM, hc, Prog.ite_run, hl]
    split
    · split <;> rfl
    · rfl
  case cuEventRecord =>
    refine (on_start s.be.dev).call (x := ⟨.cuEventRecord, [c.resGet .event
      (cuEventRecordReq.event.get s.payload), p], []⟩) ?_ (on_place rfl rfl)
    simp [driverHandleCmd, answer, coreCuEventRecord, hc, lib_run, hl]
  case cuMemcpyAsync =>
    show ((coreCuMemcpyAsync e.key (cuMemcpyAsyncReq.dst.get s.payload)
      (cuMemcpyAsyncReq.src.get s.payload) (cuMemcpyAsyncReq.bytesize.get s.payload)
      (cuMemcpyAsyncReq.stream.get s.payload)).run ⟨e.env, s.be.tab⟩ s.be.dev).2.On p _
    rw [coreCuMemcpyAsync, withCtx_run hc, hl]
    exact Prog.keeps_ite (P := Device.On p s.be.dev.calls.length) (fun _ => Prog.keeps_pure 1)
      (fun _ => keeps_copyAsync rfl _ _ _) _ _ (on_start _)

end Commands

/-! The handles -/

section Made
variable {k : Key} {m : Machine} {made : List (Nat × Nat)} {c : Context} {h p : Nat}

theorem CmdOp.enters_stream {l : Key} {f : Nat → UInt8} {cmd : Cmd} {o : TabOp} {r : Resource}
    (ho : CmdOp l f cmd o) (hr : o.Enters .stream r) : (cmd.createsStream f).isSome := by
  cases o with
  | create _ | unlink _ | remove _ _ _ => exact hr.elim
  | add l' u q n a =>
    obtain ⟨rfl, -⟩ := hr
    rcases cmd with cmd | cmd <;> cases cmd
    all_goals simp [CmdOp] at ho
  | fresh l' u q n =>
    obtain ⟨rfl, -⟩ := hr
    rcases cmd with cmd | cmd <;> cases cmd
    case rt.streamCreate | drv.cuStreamCreate => rfl
    all_goals simp [CmdOp] at ho

theorem acquire_tab {fn : LibFn} {args : List Nat} {ty : ResType} {size : Nat}
    {missing : Nat × Option Nat} {refused : Option Nat} (e : Env) (s : Machine) :
    let s' := ((withCtxM k missing fun _ => do
      let r ← query (lib fn args [])
      if r.code = 0 then
        let h ← resAdd k ty (r.out 0) size
        return (r.code, some h)
      else
        return (r.code, refused)).run e s).2
    let r := e.ret s.dev.clock ⟨fn, args, []⟩
    s'.tab = s.tab ∨ ((s.tab.ctxGet k).isSome ∧ r.code = 0 ∧
      s'.tab = (s.tab.resAdd k ty (r.out 0) size).2) := by
  intro s' r
  rcases hc : s.tab.ctxGet k with _ | c
  · left
    simp [s', withCtxM, hc]
  by_cases h0 : r.code = 0
  · right
    refine ⟨rfl, h0, ?_⟩
    simp only [s', withCtxM, hc, Prog.bind_run, query_fst, lib_run, Prog.ite_run]
    rw [if_pos h0]
    rfl
  · left
    simp only [s', withCtxM, hc, Prog.bind_run, query_fst, lib_run, Prog.ite_run]
    rw [if_neg h0]
    rfl

theorem dispatchCmd_stream {n : Nat} {cmd : Cmd} (hn : Cmd.ofCode n = some cmd) (e : CmdEnv)
    (s : CmdSt) {call : LibCall} (hcall : cmd.createsStream s.payload = some call) :
    let r := e.env.ret s.be.dev.clock call
    ((dispatchCmd n).run e s).2.be.tab = s.be.tab ∨ ((s.be.tab.ctxGet e.key).isSome ∧ r.code = 0 ∧
      ((dispatchCmd n).run e s).2.be.tab = (s.be.tab.resAdd e.key .stream (r.out 0) 0).2) := by
  rw [dispatchCmd, hn]
  rcases cmd with cmd | cmd <;> cases cmd <;> cases hcall
  all_goals exact acquire_tab e.env s.be

/-- Every stream of a table was created under its handle. -/
def MadeOf (made : List (Nat × Nat)) (t : Tables) : Prop :=
  ∀ c ∈ t.ctxs, ∀ r ∈ c.resources .stream, (r.handle, r.realPtr) ∈ made ∧ 2 < r.realPtr

theorem MadeOf.resAdd {t : Tables} (ht : MadeOf made t) (hp : 2 < p) :
    MadeOf ((add64 t.nextHandle 1, p) :: made) (t.resAdd k .stream p 0).2 := by
  intro c hc r hr
  have hold {d : Context} (hd : d ∈ t.ctxs) (hr : r ∈ d.resources .stream) :
      (r.handle, r.realPtr) ∈ (add64 t.nextHandle 1, p) :: made ∧ 2 < r.realPtr :=
    (ht d hd r hr).imp_left (List.mem_cons_of_mem _)
  rcases mem_ctxUpdate hc with hc | ⟨d, hd, rfl⟩
  · exact hold hc hr
  · rw [Context.push_resources, if_pos rfl] at hr
    rcases List.mem_cons.mp hr with rfl | hr
    · exact ⟨List.mem_cons_self, hp⟩
    · exact hold hd hr

theorem MadeOf.processElem {env : Env} (he : env.Streams) (el : Elem) (hm : MadeOf made m.tab) :
    MadeOf (streamsMade env k el m ++ made) ((processElem k el).run env m).2.tab := by
  have hmono {t : Tables} (ht : MadeOf made t) (new : List (Nat × Nat)) : MadeOf (new ++ made) t :=
    fun c hc r hr => (ht c hc r hr).imp_left (List.mem_append_right _)
  by_cases hlen : (iovToBuf m.dev.eng.mem el.outSg (sizeof reqHeader)).length = sizeof reqHeader
  swap
  · have htab : ((HmCuda.processElem k el).run env m).2.tab = m.tab := by
      simp only [HmCuda.processElem, hlen, ne_eq, not_false_eq_true, if_true]
    rw [htab]
    exact hmono hm _
  rcases hcall : (el.cmd m).bind (·.createsStream (cmdStart env el m).payload) with _ | call
  · -- another command enters no stream
    refine entries_processElem (fun c hc r hr => hmono hm _ c hc r hr) fun o c r hcmd ho _ hr => ?_
    have hsome := ho.enters_stream hr
    rw [hcmd, Option.bind_some] at hcall
    rw [hcall] at hsome
    cases hsome
  obtain ⟨cmd, hcmd, hcreate⟩ := Option.bind_eq_some_iff.mp hcall
  have htab : ((HmCuda.processElem k el).run env m).2.tab = ((dispatchCmd (reqHeader.cmdType.get fun a =>
      (iovToBuf m.dev.eng.mem el.outSg (sizeof reqHeader)).getD a 0)).run (cmdEnv env k el)
        (cmdStart env el m)).2.be.tab := by
    simp only [HmCuda.processElem, hlen, ne_eq, not_true_eq_false, if_false, deliver_tab]
  rw [htab]
  rcases dispatchCmd_stream hcmd (cmdEnv env k el) (cmdStart env el m) hcreate with h | ⟨hc, h0, h⟩
  · rw [h]
    exact hmono hm _
  · have hmade : streamsMade env k el m =
        [(add64 m.tab.nextHandle 1, (env.ret m.dev.clock call).out 0)] := by
      simp only [streamsMade, hcall]
      exact if_pos ⟨hlen, hc, h0⟩
    rw [h, hmade]
    refine hm.resAdd (he _ _ ?_ h0)
    rcases cmd with cmd | cmd <;> cases cmd <;> cases hcreate
    · exact .inr rfl
    · exact .inl rfl

theorem StreamRun.entries (run : StreamRun k m made) : MadeOf made m.tab := by
  induction run with
  | start => exact fun c hc => absurd hc List.not_mem_nil
  | serve _ el env streams ih => exact ih.processElem streams el
  | idle _ _ ih => exact ih

theorem StreamRun.lookup (run : StreamRun k m made) (hc : m.tab.ctxGet k = some c) (h : Nat) :
    ((∃ r ∈ c.resources .stream, r.handle = h) → (h, c.resGet .stream h) ∈ made ∧
      2 < c.resGet .stream h) ∧
    ((∀ r ∈ c.resources .stream, r.handle ≠ h) → c.resGet .stream h = 0) := by
  have hcov (r : Resource) : r.covers .stream h = true ↔ r.handle = h := by
    simp [Resource.covers, ResType.ranged]
  rw [c.resGet_eq]
  constructor
  · rintro ⟨r, hr, hh⟩
    have hsome : (c.resFind .stream h).isSome := List.find?_isSome.mpr ⟨r, hr, (hcov r).mpr hh⟩
    obtain ⟨x, hx⟩ := Option.isSome_iff_exists.mp hsome
    obtain ⟨hmem, hp⟩ := run.entries c (List.mem_of_find?_eq_some hc) x (List.mem_of_find?_eq_some hx)
    have hhx : x.handle = h := (hcov x).mp (List.find?_some hx)
    rw [hx]
    exact ⟨hhx ▸ hmem, hp⟩
  · intro hno
    have hnone : c.resFind .stream h = none :=
      List.find?_eq_none.mpr fun r hr hcr => hno r hr ((hcov r).mp hcr)
    rw [hnone]
    rfl

theorem StreamsAgree.query (ha : StreamsAgree k m made c h) (hc : m.tab.ctxGet k = some c)
    (hle : h ≤ 2) : c.resGet .stream h = h := by
  obtain ⟨p, hp, hcmd⟩ := ha
  rw [StreamOf, if_pos hle] at hp
  subst hp
  let buf (p a : Nat) : UInt8 := if a < payloadOff then 0 else (Bytes.le 8 p).getD (a - payloadOff) 0
  let s : CmdSt := ⟨m, buf p, [], [], 0, false⟩
  have hall : ∀ p < 3, cuStreamQueryReq.stream.get (fun i => buf p (payloadOff + i)) = p := by decide
  have hget : cuStreamQueryReq.stream.get s.payload = p := hall p (Nat.lt_succ_of_le hle)
  have hon := hcmd (cmdEnv .quiet k ⟨[], []⟩) s (.drv .cuStreamQuery) rfl rfl rfl (by
    rw [Cmd.handles, hget]
    exact List.mem_singleton_self _)
  have hcalls : ((dispatchCmd (Cmd.drv .cuStreamQuery).code).run (cmdEnv .quiet k ⟨[], []⟩)
      s).2.be.dev.calls = m.dev.calls ++ [⟨.cuStreamQuery, [c.resGet .stream p], []⟩] := by
    rw [dispatchCmd, Cmd.ofCode_code]
    simp [driverHandleCmd, answer, coreCuStreamQuery, withCtx, hc, lib_run, hget, s, cmdEnv]
  have hplace := hon.2 ⟨.cuStreamQuery, [c.resGet .stream p], []⟩ (by
    rw [hcalls, List.drop_left]
    exact List.mem_singleton_self _) 0 (List.mem_singleton_self 0)
  exact Option.some.inj hplace

end Made

/-- Every command acts on the stream that the value stands for exactly if the value is neither
CU_STREAM_LEGACY nor CU_STREAM_PER_THREAD, and no stream was given the handle 0. -/
theorem streamsAgree_iff {k : Key} {m : Machine} {made : List (Nat × Nat)} {c : Context}
    (run : StreamRun k m made) (hc : m.tab.ctxGet k = some c) (h : Nat) :
    StreamsAgree k m made c h ↔
      h ≠ 1 ∧ h ≠ 2 ∧ (h = 0 → ∀ r ∈ c.resources .stream, r.handle ≠ 0) := by
  obtain ⟨hlive, hmiss⟩ := run.lookup hc h
  constructor
  · intro ha
    -- a reserved value that is looked up gives NULL or a stream of CUDA's
    have hres (hle : h ≤ 2) : ∀ r ∈ c.resources .stream, r.handle ≠ h := by
      intro r hr hh
      have hp := (hlive ⟨r, hr, hh⟩).2
      rw [ha.query hc hle] at hp
      exact absurd hle (Nat.not_le.mpr hp)
    refine ⟨?_, ?_, ?_⟩
    · rintro rfl
      exact absurd ((ha.query hc (by decide)).symm.trans (hmiss (hres (by decide)))) (by decide)
    · rintro rfl
      exact absurd ((ha.query hc (by decide)).symm.trans (hmiss (hres (by decide)))) (by decide)
    · rintro rfl
      exact hres (by decide)
  · rintro ⟨h1, h2, h0⟩
    have hs : resolveStream c h = c.resGet .stream h := by
      unfold resolveStream
      rw [if_neg h1, if_neg h2]
      split
      next hz =>
        subst hz
        exact (hmiss (h0 rfl)).symm
      next => rfl
    refine ⟨c.resGet .stream h, ?_, fun e s cmd hk hm hcmd hu => ?_⟩
    · unfold StreamOf
      split
      next hle =>
        obtain rfl : h = 0 := by omega
        exact hmiss (h0 rfl)
      next =>
        split
        next hex => exact (hlive hex).1
        next hno => exact hmiss fun r hr hh => hno ⟨r, hr, hh⟩
    · subst hk hm
      rw [dispatchCmd, Cmd.ofCode_code]
      cases cmd with
      | rt cmd => exact rt_on hc hs cmd hcmd hu
      | drv cmd => exact drv_on hc hs rfl cmd hcmd hu

/-! A session with one stream -/

def createElem : Elem := ⟨[⟨.req 0, 0, 24⟩], [⟨.resp 0, 0, 24⟩]⟩

def Machine.asked (m : Machine) (code : Nat) : Machine :=
  { m with dev := { m.dev with eng := ⟨fun _ a => (Bytes.le 4 code).getD a 0, []⟩ } }

def noStream : Machine :=
  ((processElem ⟨1, 1⟩ createElem).run streamEnv
    ((Machine.start fun _ _ => 0).asked RtCmd.init.code)).2

def oneStream : Machine :=
  ((processElem ⟨1, 1⟩ createElem).run streamEnv (noStream.asked RtCmd.streamCreate.code)).2

theorem oneStream_run : StreamRun ⟨1, 1⟩ oneStream [(0x10000001, 0x5004)] := by
  have henv : streamEnv.Streams := fun n _ _ _ => by
    show 2 < 0x5000 + n
    omega
  have hmade : streamsMade streamEnv ⟨1, 1⟩ createElem (noStream.asked RtCmd.streamCreate.code) ++
      (streamsMade streamEnv ⟨1, 1⟩ createElem ((Machine.start fun _ _ => 0).asked RtCmd.init.code) ++
        []) = [(0x10000001, 0x5004)] := by decide +kernel
  have init : StreamRun ⟨1, 1⟩ noStream _ := ((StreamRun.start fun _ _ => 0).idle
    ((Machine.start fun _ _ => 0).asked RtCmd.init.code).dev).serve createElem streamEnv henv
  have create := (init.idle (noStream.asked RtCmd.streamCreate.code).dev).serve createElem streamEnv
    henv
  exact hmade ▸ create

theorem oneStream_session : ∃ c, oneStream.tab.ctxGet ⟨1, 1⟩ = some c ∧
    c.resources .stream = [⟨0x10000001, 0x5004, 0⟩] := by
  have hres : (oneStream.tab.ctxGet ⟨1, 1⟩).map (·.resources .stream) =
      some [⟨0x10000001, 0x5004, 0⟩] := by decide +kernel
  exact Option.map_eq_some_iff.mp hres

theorem streamsAgree_iff_one : ∃ c, oneStream.tab.ctxGet ⟨1, 1⟩ = some c ∧
    StreamsAgree ⟨1, 1⟩ oneStream [(0x10000001, 0x5004)] c 0x10000001 := by
  obtain ⟨c, hc, -⟩ := oneStream_session
  exact ⟨c, hc, (streamsAgree_iff oneStream_run hc 0x10000001).mpr
    ⟨by decide, by decide, fun h => absurd h (by decide)⟩⟩

/-- A query of CU_STREAM_LEGACY acts on NULL. -/
theorem streams_disagree : ¬∀ (k : Key) (m : Machine) (made : List (Nat × Nat)) (c : Context),
    StreamRun k m made → m.tab.ctxGet k = some c → ∀ h < 2 ^ 64, StreamsAgree k m made c h := by
  intro hall
  obtain ⟨c, hc, hres⟩ := oneStream_session
  have hq := (hall _ _ _ c oneStream_run hc 1 (by decide)).query hc (by decide)
  rw [((oneStream_run.lookup hc 1).2 fun r hr => ?_)] at hq
  · exact absurd hq (by decide)
  · rw [hres] at hr
    rw [List.mem_singleton.mp hr]
    decide

end HmCuda
