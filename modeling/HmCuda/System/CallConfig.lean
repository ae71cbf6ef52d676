import HmCuda.Host.ProcessSpec

/-! Launch configurations. CUDA keeps one stack of them for the backend's only thread;
the guest's threads push to it and pop from it through requests that interleave. -/

namespace HmCuda
open Layout

/-- The eight words of a push request: grid, block, shared memory and stream. -/
def requested (p : Nat → UInt8) : List Nat :=
  (List.range 8).map fun i => (field pushCallCfgReq i).get p

/-- The eight words the guest reads from the response to a pop. -/
def returned (resp : List UInt8) : List Nat :=
  (List.range 8).map fun i => (field popCallCfgResp i).get fun a => resp.getD a 0

/-- CUDA's stack, newest first, after the calls of one thread. -/
def lifo (calls : List LibCall) : List (List Nat) :=
  calls.foldl (fun st c =>
    if c.fn = .cudaPushCallConfiguration then c.args :: st
    else if c.fn = .cudaPopCallConfiguration then st.tail else st) []

structure LifoAt (e : Env) (d : Device) : Prop where
  push : ∀ args, (e.ret d.clock ⟨.cudaPushCallConfiguration, args, []⟩).code = 0
  pop : ∀ cfg rest, lifo d.calls = cfg :: rest →
    e.ret d.clock ⟨.cudaPopCallConfiguration, [], []⟩ = ⟨0, cfg, none⟩

/-- CUDA's live streams are distinct objects and none of them is a reserved value. -/
structure Streams (c : Context) : Prop where
  nodup : ((c.resources .stream).map (·.realPtr)).Nodup
  real : ∀ r ∈ c.resources .stream, r.realPtr ∉ [0, 1, 2]

/-- A stream argument the application can have: 0, a reserved value or a live handle. -/
def StreamArg (c : Context) (h : Nat) : Prop :=
  h ∈ [0, 1, 2] ∨ ∃ r ∈ c.resources .stream, r.handle = h

def onHost (c : Context) (cfg : List Nat) : List Nat :=
  cfg.take 7 ++ [resolveRuntimeStream c (cfg.getD 7 0)]

structure Requests (c : RtCmd) (el : Elem) (m : Machine) : Prop where
  header : sizeof reqHeader ≤ el.reqLen
  code : reqHeader.cmdType.get (el.image m) = c.code

def streamBack (c : Context) (s : Nat) : Nat :=
  if s = 0 then 0 else if s = 1 then 1 else if s = 2 then 2 else c.resGetHandle .stream s

theorem streamBack_resolve {c : Context} (hc : Streams c) {h : Nat} (hh : StreamArg c h) :
    streamBack c (resolveRuntimeStream c h) = h := by
  by_cases hres : h ∈ [0, 1, 2]
  · simp only [List.mem_cons, List.not_mem_nil, or_false] at hres
    rcases hres with rfl | rfl | rfl <;> rfl
  · rcases hh with hh | ⟨r, hr, rfl⟩
    · exact absurd hh hres
    obtain ⟨r', hf⟩ : ∃ r', c.resFind .stream r.handle = some r' := by
      rcases hf : c.resFind .stream r.handle with _ | r'
      · have hn := List.find?_eq_none.mp hf r hr
        exact absurd hn (by simp [Resource.covers, ResType.ranged])
      · exact ⟨r', rfl⟩
    have hr' := List.mem_of_find?_eq_some hf
    have hhandle : r'.handle = r.handle := by
      have hcov := List.find?_some hf
      simpa [Resource.covers, ResType.ranged] using hcov
    have hback : (c.resources .stream).find? (·.realPtr = r'.realPtr) = some r' := by
      rcases hg : (c.resources .stream).find? (·.realPtr = r'.realPtr) with _ | q
      · have hn := List.find?_eq_none.mp hg r' hr'
        exact absurd (decide_eq_true rfl) hn
      · have hq : q.realPtr = r'.realPtr := by simpa using List.find?_some hg
        rw [hg, List.inj_on_of_nodup_map hc.nodup (List.mem_of_find?_eq_some hg) hr' hq]
    have hreal := hc.real r' hr'
    simp only [List.mem_cons, List.not_mem_nil, or_false, not_or] at hres hreal
    have hget : c.resGet .stream r.handle = r'.realPtr := by
      rw [c.resGet_eq, hf]
      rfl
    rw [resolveRuntimeStream, if_neg hres.1, if_neg hres.2.1, if_neg hres.2.2, hget, streamBack,
      if_neg hreal.1, if_neg hreal.2.1, if_neg hreal.2.2, Context.resGetHandle, if_neg hreal.1,
      hback]
    exact hhandle

theorem length_requested (p : Nat → UInt8) : (requested p).length = 8 := by
  simp [requested]

theorem requested_lt (p : Nat → UInt8) (i : Nat) (hi : i < 8) :
    (requested p).getD i 0 < 256 ^ (field popCallCfgResp i).size := by
  have hget : (requested p).getD i 0 = (field pushCallCfgReq i).get p := by
    rw [List.getD_eq_getElem _ _ (by rwa [length_requested])]
    simp only [requested, List.getElem_map, List.getElem_range]
  rw [hget]
  -- both structures have the same layout
  exact (field pushCallCfgReq i).get_lt p

theorem returned_respImage (stale : Nat → UInt8) (cfg : List Nat) (hlen : cfg.length = 8)
    (hlt : ∀ i < 8, cfg.getD i 0 < 256 ^ (field popCallCfgResp i).size) :
    returned (respImage popCallCfgResp stale (cfg.map some)) = cfg := by
  apply List.ext_getElem
  · simp [returned, hlen]
  intro i _ hi
  have hi8 : i < 8 := hlen ▸ hi
  have hget := get_respImage popCallCfgResp stale cfg (Nat.le_of_eq hlen)
    (List.getElem?_eq_getElem hi)
  have hsmall := hlt i hi8
  rw [List.getD_eq_getElem _ _ hi] at hsmall
  rw [Nat.mod_eq_of_lt hsmall] at hget
  simp only [returned, List.getElem_map, List.getElem_range]
  exact hget

section Serve
variable {k : Key} {c : Context} {m : Machine} {el : Elem} {env : Env} {cfg : List Nat}

variable (env) in
theorem push_serve (hr : Requests .pushCallConfiguration el m) (hc : m.tab.ctxGet k = some c) :
    ((processElem k el).run env m).2.tab = m.tab ∧
      lifo ((processElem k el).run env m).2.dev.calls =
        onHost c (requested (cmdStart env el m).payload) :: lifo m.dev.calls := by
  have hrun : (processElem k el).run env m = _ := processElem_run hr.header hr.code rfl
  rw [hrun]
  refine ⟨rfl, ?_⟩
  have hcalls : ((dispatchCmd RtCmd.pushCallConfiguration.code).run (cmdEnv env k el)
      (cmdStart env el m)).2.be.dev.calls = m.dev.calls ++
        [⟨.cudaPushCallConfiguration, onHost c (requested (cmdStart env el m).payload), []⟩] := by
    have hstart : (cmdStart env el m).be.tab.ctxGet k = some c := hc
    have hkey : (cmdEnv env k el).key = k := rfl
    have hcmd : Cmd.ofCode RtCmd.pushCallConfiguration.code = some (.rt .pushCallConfiguration) :=
      Cmd.ofCode_code (.rt .pushCallConfiguration)
    rw [dispatchCmd, hcmd]
    simp only [runtimeHandleCmd, dim3, Prog.bind_run, Prog.pure_run, key_run, req_fst, req_payload,
      answer, setErr_be, core_be, req_be, query_dev, corePushCallConfiguration, withCtx, hkey, hstart,
      lib_run, Device.step_calls]
    rfl
  show lifo ((dispatchCmd _).run _ _).2.be.dev.calls = _
  rw [hcalls, lifo, List.foldl_append]
  rfl

theorem pop_serve (hr : Requests .popCallConfiguration el m) (hc : m.tab.ctxGet k = some c)
    (hl : LifoAt env m.dev) {rest : List (List Nat)}
    (hst : lifo m.dev.calls = onHost c cfg :: rest) (hlen : cfg.length = 8) :
    ((processElem k el).run env m).2.tab = m.tab ∧
      lifo ((processElem k el).run env m).2.dev.calls = rest ∧
      ∃ sv stale, ((processElem k el).run env m).1 = some sv ∧ sv.err = 0 ∧
        sv.payload = respImage popCallCfgResp stale
          ((cfg.take 7 ++ [streamBack c (resolveRuntimeStream c (cfg.getD 7 0))]).map some) := by
  have hrun : (processElem k el).run env m = _ := processElem_run hr.header hr.code rfl
  have hpop := hl.pop _ _ hst
  have hstart : (cmdStart env el m).be.tab.ctxGet k = some c := hc
  have hkey : (cmdEnv env k el).key = k := rfl
  have hcmd : Cmd.ofCode RtCmd.popCallConfiguration.code = some (.rt .popCallConfiguration) :=
    Cmd.ofCode_code (.rt .popCallConfiguration)
  have hwords : (List.range 7).map (LibRet.mk 0 (onHost c cfg) none).out = cfg.take 7 := by
    match cfg, hlen with
    | [_, _, _, _, _, _, _, _], _ => rfl
  have hstream : (LibRet.mk 0 (onHost c cfg) none).out 7 =
      resolveRuntimeStream c (cfg.getD 7 0) := by
    match cfg, hlen with
    | [_, _, _, _, _, _, _, _], _ => rfl
  have hcore : (corePopCallConfiguration k).run ⟨(cmdEnv env k el).env, (cmdStart env el m).be.tab⟩
      (cmdStart env el m).be.dev =
        ((0, some (cfg.take 7 ++ [streamBack c (resolveRuntimeStream c (cfg.getD 7 0))])),
          m.dev.step env ⟨.cudaPopCallConfiguration, [], []⟩ ⟨Function.update m.dev.eng.mem .uva
            (env.effect m.dev.clock ⟨.cudaPopCallConfiguration, [], []⟩ (m.dev.eng.mem .uva)),
              m.dev.eng.pending⟩) := by
    unfold corePopCallConfiguration withCtx
    dsimp only
    rw [hstart]
    simp only [Prog.bind_run, lib_run, Prog.ite_run, Prog.pure_run]
    -- CUDA answers the newest push
    have hret : (cmdEnv env k el).env.ret (cmdStart env el m).be.dev.clock
        ⟨.cudaPopCallConfiguration, [], []⟩ = ⟨0, onHost c cfg, none⟩ := hpop
    rw [hret, hwords, hstream]
    rfl
  rw [hrun]
  refine ⟨rfl, ?_, ?_⟩
  · show lifo ((dispatchCmd _).run _ _).2.be.dev.calls = _
    have hcalls : ((dispatchCmd RtCmd.popCallConfiguration.code).run (cmdEnv env k el)
        (cmdStart env el m)).2.be.dev.calls =
          m.dev.calls ++ [⟨.cudaPopCallConfiguration, [], []⟩] := by
      rw [dispatchCmd, hcmd]
      simp only [runtimeHandleCmd, Prog.bind_run, Prog.pure_run, key_run, setErr_be, core_be,
        reply_be, query_dev, hkey, hcore, Device.step_calls]
    rw [hcalls, lifo, List.foldl_append]
    show List.tail (lifo m.dev.calls) = rest
    rw [hst]
    rfl
  · refine ⟨_, env.stale (m.dev.clock + 1), rfl, ?_, ?_⟩
    · unfold respond
      dsimp only
      rw [dispatchCmd, hcmd]
      simp only [runtimeHandleCmd, Prog.bind_run, Prog.pure_run, key_run, setErr_err, core_fst,
        query_fst, reply_err, hkey, hcore]
      rfl
    · show ((dispatchCmd _).run _ _).2.resp = _
      rw [dispatchCmd, hcmd]
      simp only [runtimeHandleCmd, Prog.bind_run, Prog.pure_run, key_run, setErr_be, core_fst,
        core_be, query_fst, query_dev, reply_resp, hkey, hcore, List.append_nil]
      rfl

end Serve

/-- The pushes not yet popped, newest first: the thread and what it pushed. -/
abbrev Open (T : Type) := List (T × List Nat)

/-- A run of the threads' requests, in the order the backend takes them. `Meets` says
which pops it contains. -/
inductive CfgRun {T : Type} [DecidableEq T] (k : Key) (Meets : Open T → T → Prop) :
    Machine → Open T → Prop where
  | start {m : Machine} {c : Context} (hc : m.tab.ctxGet k = some c) (hs : Streams c)
      (he : lifo m.dev.calls = []) : CfgRun k Meets m []
  | push {m : Machine} {open_ : Open T} {c : Context} {el : Elem} {env : Env}
      (h : CfgRun k Meets m open_) (t : T) (ht : t ∉ open_.map (·.1))
      (hr : Requests .pushCallConfiguration el m) (hl : LifoAt env m.dev)
      (hc : m.tab.ctxGet k = some c)
      (hs : StreamArg c (pushCallCfgReq.stream.get (cmdStart env el m).payload)) :
      CfgRun k Meets ((processElem k el).run env m).2
        ((t, requested (cmdStart env el m).payload) :: open_)
  | pop {m : Machine} {open_ : Open T} {el : Elem} {env : Env} (h : CfgRun k Meets m open_)
      (t : T) (ht : t ∈ open_.map (·.1)) (hm : Meets open_ t)
      (hr : Requests .popCallConfiguration el m) (hl : LifoAt env m.dev) :
      CfgRun k Meets ((processElem k el).run env m).2 (open_.eraseP (·.1 = t))
  | idle {m : Machine} {open_ : Open T} (h : CfgRun k Meets m open_) (d : Device)
      (hd : lifo d.calls = lifo m.dev.calls) : CfgRun k Meets { m with dev := d } open_

/-- The thread made the newest open push: no other thread's push came in between. -/
def Newest {T : Type} (open_ : Open T) (t : T) : Prop := open_.head?.map (·.1) = some t

def OwnConfig (k : Key) (m : Machine) (el : Elem) (env : Env) (cfg : List Nat) : Prop :=
  ∃ sv, ((processElem k el).run env m).1 = some sv ∧ sv.err = 0 ∧ returned sv.payload = cfg

section Run
variable {T : Type} [DecidableEq T] {k : Key} {m : Machine} {open_ : Open T}

structure Stacked (k : Key) (m : Machine) (open_ : Open T) (c : Context) : Prop where
  ctx : m.tab.ctxGet k = some c
  streams : Streams c
  stack : lifo m.dev.calls = open_.map fun o => onHost c o.2
  args : ∀ o ∈ open_, o.2.length = 8 ∧ StreamArg c (o.2.getD 7 0) ∧
    ∀ i < 8, o.2.getD i 0 < 256 ^ (field popCallCfgResp i).size

theorem CfgRun.stacked (h : CfgRun k Newest m open_) : ∃ c, Stacked k m open_ c := by
  induction h with
  | start hc hs he => exact ⟨_, hc, hs, he, by simp⟩
  | @push m open_ c el env h t ht hr hl hc hs ih =>
    obtain ⟨c', hst⟩ := ih
    obtain rfl : c' = c := Option.some.inj (hst.ctx.symm.trans hc)
    obtain ⟨htab, hlifo⟩ := push_serve env hr hc
    refine ⟨c', by rw [htab, hc], hst.streams, ?_, ?_⟩
    · rw [hlifo, hst.stack]
      rfl
    · intro o ho
      rcases List.mem_cons.mp ho with rfl | ho
      · exact ⟨length_requested _, hs, requested_lt _⟩
      · exact hst.args o ho
  | @pop m open_ el env h t ht hm hr hl ih =>
    obtain ⟨c, hst⟩ := ih
    rcases open_ with _ | ⟨⟨u, cfg⟩, rest⟩
    · exact absurd ht List.not_mem_nil
    obtain rfl : u = t := Option.some.inj hm
    obtain ⟨htab, hlifo, -⟩ := pop_serve hr hst.ctx hl hst.stack
      (hst.args _ List.mem_cons_self).1
    rw [List.eraseP_cons_of_pos (by simp)]
    exact ⟨c, by rw [htab, hst.ctx], hst.streams, hlifo,
      fun o ho => hst.args o (List.mem_cons_of_mem _ ho)⟩
  | idle h d hd ih =>
    obtain ⟨c, hst⟩ := ih
    exact ⟨c, hst.ctx, hst.streams, hd.trans hst.stack, hst.args⟩

theorem CfgRun.nodup {Meets : Open T → T → Prop} (h : CfgRun k Meets m open_) :
    (open_.map (·.1)).Nodup := by
  induction h with
  | start => exact List.nodup_nil
  | push h t ht _ _ _ _ ih => exact List.nodup_cons.mpr ⟨ht, ih⟩
  | pop _ t _ _ _ _ ih => exact ih.sublist (List.eraseP_sublist.map _)
  | idle _ _ _ ih => exact ih

/-- Where pushes and pops nest, every pop returns the thread's own push. -/
theorem pop_ownConfig (h : CfgRun k Newest m open_) {t : T} {cfg : List Nat}
    (ht : (t, cfg) ∈ open_) (hm : Newest open_ t) {el : Elem} {env : Env}
    (hr : Requests .popCallConfiguration el m) (hl : LifoAt env m.dev) :
    OwnConfig k m el env cfg := by
  obtain ⟨c, hst⟩ := h.stacked
  have hnd := h.nodup
  rcases open_ with _ | ⟨⟨u, own⟩, rest⟩
  · exact absurd ht List.not_mem_nil
  obtain rfl : u = t := Option.some.inj hm
  obtain rfl : cfg = own := by
    rcases List.mem_cons.mp ht with heq | ht
    · exact (Prod.mk.inj heq).2
    · exact absurd (List.mem_map_of_mem (f := (·.1)) ht) (List.nodup_cons.mp hnd).1
  obtain ⟨hlen, hstream, hlt⟩ := hst.args _ List.mem_cons_self
  obtain ⟨-, -, sv, stale, hsv, herr, hpayload⟩ := pop_serve hr hst.ctx hl hst.stack hlen
  refine ⟨sv, hsv, herr, ?_⟩
  have hcfg : cfg.take 7 ++ [cfg.getD 7 0] = cfg := by
    match cfg, hlen with
    | [_, _, _, _, _, _, _, _], _ => rfl
  rw [hpayload, streamBack_resolve hst.streams hstream, hcfg]
  exact returned_respImage stale cfg hlen hlt

end Run

/-- INIT, a stream, two pushes that name it, with a thread number in the grid of each, and
a pop. -/
def cfgMem : ByteMem Space := fun sp a =>
  match sp with
  | .req 1 => (Bytes.le 4 RtCmd.pushCallConfiguration.code ++ Bytes.le 4 40 ++ Bytes.le 4 1 ++
      List.replicate 28 0 ++ Bytes.le 8 0x10000001).getD a 0
  | .req 2 => (Bytes.le 4 RtCmd.pushCallConfiguration.code ++ Bytes.le 4 40 ++ Bytes.le 4 2 ++
      List.replicate 28 0 ++ Bytes.le 8 0x10000001).getD a 0
  | .req 3 => (Bytes.le 4 RtCmd.popCallConfiguration.code).getD a 0
  | .req 4 => (Bytes.le 4 RtCmd.init.code).getD a 0
  | .req 5 => (Bytes.le 4 RtCmd.streamCreate.code).getD a 0
  | _ => 0

/-- CUDA's streams are at 0x9000, and `n` is in the grid of the configuration on top. -/
def topOf (n : Nat) : Env :=
  { Env.quiet with ret := fun _ c =>
      if c.fn = .cudaPopCallConfiguration then ⟨0, n :: List.replicate 6 0 ++ [0x9000], none⟩
      else if c.fn = .cudaStreamCreateWithFlags then ⟨0, [0x9000], none⟩ else .ok }

def cfgStart : Machine :=
  [⟨[⟨.req 4, 0, 8⟩], [⟨.resp 4, 0, 8⟩]⟩, ⟨[⟨.req 5, 0, 12⟩], [⟨.resp 5, 0, 16⟩]⟩].foldl
    (fun m el => ((processElem ⟨1, 1⟩ el).run (topOf 0) m).2) (.start cfgMem)

def cfgPush (n : Nat) : Elem := ⟨[⟨.req n, 0, 48⟩], [⟨.resp n, 0, 8⟩]⟩

def cfgPop : Elem := ⟨[⟨.req 3, 0, 8⟩], [⟨.resp 3, 0, 48⟩]⟩

/-- Thread 1 pushes, then thread 2, and thread 2 pops. -/
def afterPush : Machine := ((processElem ⟨1, 1⟩ (cfgPush 1)).run (topOf 1) cfgStart).2

def afterPushes : Machine := ((processElem ⟨1, 1⟩ (cfgPush 2)).run (topOf 1) afterPush).2

def afterPop : Machine := ((processElem ⟨1, 1⟩ cfgPop).run (topOf 2) afterPushes).2

theorem cfgStart_session : ∃ c, cfgStart.tab.ctxGet ⟨1, 1⟩ = some c ∧
    c.resources .stream = [⟨0x10000001, 0x9000, 0⟩] := by
  have h : (cfgStart.tab.ctxGet ⟨1, 1⟩).map (·.resources .stream) =
      some [⟨0x10000001, 0x9000, 0⟩] := by
    decide +kernel
  exact Option.map_eq_some_iff.mp h

theorem lifoAt_topOf {d : Device} {n : Nat}
    (h : ∀ cfg ∈ (lifo d.calls).head?, cfg = n :: List.replicate 6 0 ++ [0x9000]) :
    LifoAt (topOf n) d where
  push _ := rfl
  pop cfg rest hst := by
    have hcfg := h cfg (by rw [hst]; rfl)
    rw [hcfg]
    rfl

theorem cfgRun_afterPushes (Meets : Open Bool → Bool → Prop) :
    CfgRun ⟨1, 1⟩ Meets afterPushes
      [(true, requested (cmdStart (topOf 1) (cfgPush 2) afterPush).payload),
        (false, requested (cmdStart (topOf 1) (cfgPush 1) cfgStart).payload)] := by
  obtain ⟨c, hc, hstreams⟩ := cfgStart_session
  have hs : Streams c := by
    constructor <;> rw [hstreams] <;> decide
  have hlive : StreamArg c 0x10000001 := .inr (by rw [hstreams]; simp)
  have hfirst : pushCallCfgReq.stream.get (cmdStart (topOf 1) (cfgPush 1) cfgStart).payload =
      0x10000001 := by decide +kernel
  have hsecond : pushCallCfgReq.stream.get (cmdStart (topOf 1) (cfgPush 2) afterPush).payload =
      0x10000001 := by decide +kernel
  have hpush : Requests .pushCallConfiguration (cfgPush 1) cfgStart := ⟨by decide, by decide +kernel⟩
  have hc' : afterPush.tab.ctxGet ⟨1, 1⟩ = some c := by
    rw [← hc]
    exact congrArg (·.ctxGet ⟨1, 1⟩) (push_serve (topOf 1) hpush hc).1
  refine .push (.push (.start hc hs (by decide +kernel)) false (by simp) hpush
    (lifoAt_topOf (by decide +kernel)) hc (hfirst ▸ hlive)) true (by simp)
    ⟨by decide, by decide +kernel⟩ (lifoAt_topOf ?_) hc' (hsecond ▸ hlive)
  decide +kernel

theorem pop_ownConfig_nested :
    OwnConfig ⟨1, 1⟩ afterPushes cfgPop (topOf 2)
        (requested (cmdStart (topOf 1) (cfgPush 2) afterPush).payload) ∧
      OwnConfig ⟨1, 1⟩ afterPop cfgPop (topOf 1)
        (requested (cmdStart (topOf 1) (cfgPush 1) cfgStart).payload) := by
  have hboth := cfgRun_afterPushes Newest
  have htop : LifoAt (topOf 2) afterPushes.dev := lifoAt_topOf (by decide +kernel)
  have hpop : Requests .popCallConfiguration cfgPop afterPushes := ⟨by decide, by decide +kernel⟩
  refine ⟨pop_ownConfig hboth List.mem_cons_self rfl hpop htop, ?_⟩
  have hone : CfgRun ⟨1, 1⟩ Newest afterPop
      [(false, requested (cmdStart (topOf 1) (cfgPush 1) cfgStart).payload)] :=
    hboth.pop true List.mem_cons_self rfl hpop htop
  exact pop_ownConfig hone (List.mem_singleton_self _) rfl ⟨by decide, by decide +kernel⟩
    (lifoAt_topOf (by decide +kernel))

/-- Two threads push, then the first one pops: it gets the second one's configuration. -/
theorem pop_not_ownConfig : ¬∀ (k : Key) (m : Machine) (open_ : Open Bool) (t : Bool)
    (cfg : List Nat) (el : Elem) (env : Env), CfgRun k (fun _ _ => True) m open_ →
      (t, cfg) ∈ open_ → Requests .popCallConfiguration el m → LifoAt env m.dev →
        OwnConfig k m el env cfg := by
  intro hall
  obtain ⟨sv, hsv, -, hcfg⟩ := hall ⟨1, 1⟩ afterPushes _ false _ cfgPop (topOf 2)
    (cfgRun_afterPushes _) (List.mem_cons_of_mem _ (List.mem_singleton_self _))
    ⟨by decide, by decide +kernel⟩ (lifoAt_topOf (by decide +kernel))
  have hgot : ((processElem ⟨1, 1⟩ cfgPop).run (topOf 2) afterPushes).1.map
      (fun sv => (returned sv.payload).head?) = some (some 2) := by decide +kernel
  have hown : (requested (cmdStart (topOf 1) (cfgPush 1) cfgStart).payload).head? = some 1 := by
    decide +kernel
  rw [hsv, Option.map_some, hcfg, hown] at hgot
  exact absurd hgot (by decide)

end HmCuda
