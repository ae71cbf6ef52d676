import HmCuda.System.Determined
import HmCuda.System.RemoteCall
import HmCuda.System.Synchronous

/-! What an application learns of a device and of a kernel, and what it has waited for. -/

namespace HmCuda
open Layout AsyncCopy

/-- A member that the backend's `cudaDeviceProp` and the library's both have. -/
def CarriedProp (host guest i : Nat) : Prop := (host < 13000 ∧ guest < 13000) ∨ i ∉ gatedProps

instance (host guest i : Nat) : Decidable (CarriedProp host guest i) :=
  inferInstanceAs (Decidable (_ ∨ _))

/-- The members of `cudaDeviceProp` as CUDA filled them in, each cut to its size, and 0 for
one that either side does not know. -/
def carriedProps (host guest : Nat) (cuda : LibRet) : List Nat :=
  (List.range 117).map fun i =>
    if CarriedProp host guest i then cuda.out i % 256 ^ (field deviceProp i).size else 0

def filledProps (host : Nat) (cuda : LibRet) : List Nat :=
  (List.range 180).map fun i => if i < 117 ∧ (host < 13000 ∨ i ∉ gatedProps) then cuda.out i else 0

/-! The answers of the backend -/

section
variable (q : QEnv) (d : Device)

theorem getDeviceProperties_refused {device : Nat}
    (h : (q.env.ret d.clock ⟨.cudaGetDeviceProperties, [device], []⟩).code ≠ 0) :
    ((coreGetDeviceProperties device).run q d).1 =
      ((q.env.ret d.clock ⟨.cudaGetDeviceProperties, [device], []⟩).code, none) := by
  simp only [coreGetDeviceProperties, Prog.bind_run, lib_run, if_pos h]
  rfl

theorem getDeviceProperties_accepted {device : Nat}
    (h : (q.env.ret d.clock ⟨.cudaGetDeviceProperties, [device], []⟩).code = 0) :
    ((coreGetDeviceProperties device).run q d).1 = (0, some (filledProps q.env.cudartVersion
      (q.env.ret d.clock ⟨.cudaGetDeviceProperties, [device], []⟩))) := by
  simp only [coreGetDeviceProperties, Prog.bind_run, lib_run, h, ne_eq, not_true_eq_false, if_false]
  rfl

end

theorem length_deviceProp : deviceProp.length = 180 := by decide +kernel

theorem length_filledProps (host : Nat) (cuda : LibRet) :
    (filledProps host cuda).length = 180 := by simp [filledProps]

theorem propToCuda_filled (host guest : Nat) (cuda : LibRet) :
    hmcudaPropToCuda guest ((List.range deviceProp.length).map fun i =>
      (filledProps host cuda).getD i 0 % 256 ^ (field deviceProp i).size) =
        carriedProps host guest cuda := by
  apply List.map_congr_left
  intro i hi
  have hlt := List.mem_range.mp hi
  have hlen : i < deviceProp.length := by
    rw [length_deviceProp]
    exact hlt.trans (by decide)
  have hfilled : (filledProps host cuda).getD i 0 =
      if i < 117 ∧ (host < 13000 ∨ i ∉ gatedProps) then cuda.out i else 0 := by
    rw [filledProps, List.getD_eq_getElem?_getD, List.getElem?_map,
      List.getElem?_range (hlt.trans (by decide))]
    rfl
  rw [List.getD_eq_getElem?_getD, List.getElem?_map, List.getElem?_range hlen, Option.map_some,
    Option.getD_some, hfilled]
  by_cases hg : i ∈ gatedProps
  · by_cases hold : host < 13000 <;> by_cases hnew : guest < 13000 <;>
      simp [CarriedProp, hg, hold, hnew, hlt]
  · simp [CarriedProp, hg, hlt]

/-! What the application is given -/

theorem typed_one {c : Cmd} {t resp : CStruct} {v : Nat} (h : v < 256 ^ (field t 0).size) :
    (Message.mk c t [v] resp).Typed := by
  intro i w hw
  obtain ⟨hi, hw⟩ := List.getElem?_eq_some_iff.mp hw
  obtain rfl : i = 0 := Nat.lt_one_iff.mp hi
  exact hw ▸ h

theorem pass_unset {drv : Bool} {m : Message} {e : GuestEnv} {s : GuestSt}
    (h : ((pass drv m).run e s).1.ret ≠ some 0) : ((pass drv m).run e s).1.outs = none := by
  cases drv <;> exact if_neg h

namespace Executed
variable {d : DrvEnv} {op : CoreM Answer} {resp : CStruct} {M : Machine} {s' : DrvSt} {r : Passed}

theorem code_mod (h : Executed d op resp M s' r) (h0 : r.ret = some 0) :
    (op.run d.sys M).1.1 % 2 ^ 32 = 0 := by
  have hret := Option.some.inj (h.ret.symm.trans h0)
  split at hret
  · exact hret
  · cases hret

theorem code_zero (h : Executed d op resp M s' r) (hcode : (op.run d.sys M).1.1 < 2 ^ 32)
    (h0 : r.ret = some 0) : (op.run d.sys M).1.1 = 0 := by
  have hmod := h.code_mod h0
  rwa [Nat.mod_eq_of_lt hcode] at hmod

theorem outs_whole (h : Executed d op resp M s' r) (h0 : r.ret = some 0) {vals : List Nat}
    (hlen : vals.length = resp.length) (hvals : (op.run d.sys M).1.2 = vals.map some) :
    r.outs = some ((List.range resp.length).map fun i =>
      vals.getD i 0 % 256 ^ (field resp i).size) := by
  obtain ⟨outs, ho, hl, hget⟩ := h.outs h0
  rw [ho]
  congr 1
  apply List.ext_getElem?
  intro i
  rcases Nat.lt_or_ge i resp.length with hi | hi
  · have hv : vals[i]? = some (vals.getD i 0) := by
      rw [List.getElem?_eq_getElem (hlen ▸ hi), List.getD_eq_getElem]
    rw [hget i hi _ (by rw [hvals, List.getElem?_map, hv]; rfl), List.getElem?_map,
      List.getElem?_range hi]
    rfl
  · rw [List.getElem?_eq_none (hl ▸ hi), List.getElem?_eq_none (by simpa using hi)]

end Executed

/-- A successful query returns every property CUDA filled in, a failed one none. -/
theorem deviceProperties_carried (guest device : Nat) (e : GuestEnv) (s : GuestSt)
    (hd : device < 2 ^ 32)
    (hret : ∀ i c, ((e.drv s.sent.length).sys.ret i c).code < 2 ^ 32) :
    let sys := (e.drv s.sent.length).sys
    let cuda := sys.ret s.drv.m.dev.clock ⟨.cudaGetDeviceProperties, [device], []⟩
    let r := ((cudaGetDeviceProperties guest device).run e s).1
    (r.ret = some 0 → cuda.code = 0 ∧ r.outs = some (carriedProps sys.cudartVersion guest cuda)) ∧
      (r.ret ≠ some 0 → r.outs = none) := by
  intro sys cuda r
  have ht : (RtForward.cudaGetDeviceProperties device).message.Typed := typed_one hd
  refine ⟨fun h0 => ?_, fun h0 => congrArg (Option.map _) (pass_unset h0)⟩
  obtain ⟨img, h⟩ := Forward.executed_of_zero (.rt (.cudaGetDeviceProperties device)) false e s
    rfl ht h0
  let M := s.drv.showing (e.drv s.sent.length) img
  have hrun : ((filling (coreGetDeviceProperties device)).run sys M).1 =
      (((coreGetDeviceProperties device).run ⟨sys, M.tab⟩ M.dev).1.1,
        (((coreGetDeviceProperties device).run ⟨sys, M.tab⟩ M.dev).1.2.getD []).map some) := rfl
  by_cases hc : cuda.code = 0
  · rw [getDeviceProperties_accepted ⟨sys, M.tab⟩ M.dev hc] at hrun
    have houts := h.outs_whole h0 (length_filledProps _ _) (congrArg Prod.snd hrun)
    refine ⟨hc, (congrArg (Option.map (hmcudaPropToCuda guest)) houts).trans ?_⟩
    exact congrArg some (propToCuda_filled sys.cudartVersion guest cuda)
  · rw [getDeviceProperties_refused ⟨sys, M.tab⟩ M.dev hc] at hrun
    have hcode := h.code_zero (hrun ▸ hret _ _) h0
    rw [hrun] at hcode
    exact absurd hcode hc

/-- CUDA 12 on the host, which numbers the members it fills in. -/
def propGuest : GuestEnv :=
  { quietGuest with
    drv := fun _ => .quiet { Env.quiet with ret := fun _ _ => ⟨0, List.range 117, none⟩ }
      fun _ _ => 0 }

def openGuest : GuestSt := { GuestSt.start (.start fun _ _ => 0) with transport.opened := true }

theorem deviceProperties_carried_thirteen :
    ((cudaGetDeviceProperties 13000 0).run propGuest openGuest).1.outs =
      some (carriedProps 12000 13000 ⟨0, List.range 117, none⟩) :=
  ((deviceProperties_carried 13000 0 propGuest openGuest (by decide)
    fun _ _ => (by decide : 0 < 2 ^ 32)).1 (by decide +kernel)).2

/-! The attributes of a kernel -/

def funcAttrs : List Nat := [1, 2, 3, 0, 4, 5, 6, 7, 8, 9, 10, 11, 12, 13, 15, 14]

/-- What CUDA answers to the query of attribute `a` of `func`, 0 where it refuses. -/
def attrAnswer (r : LibRet) : Nat := if r.code = 0 then r.out 0 else 0

/-- CUDA's answers to one query for each attribute, made from time `t` on. -/
def funcAnswers (env : Env) (func : Nat) : Nat → List Nat → List Nat
  | _, [] => []
  | t, a :: as =>
    attrAnswer (env.ret t ⟨.cuFuncGetAttribute, [a, func], []⟩) :: funcAnswers env func (t + 1) as

theorem length_funcAnswers (env : Env) (func t : Nat) (as : List Nat) :
    (funcAnswers env func t as).length = as.length := by
  induction as generalizing t with
  | nil => rfl
  | cons a as ih => exact congrArg (· + 1) (ih (t + 1))

theorem funcAttributes_run (q : QEnv) (func : Nat) (as : List Nat) (d : Device) :
    ((funcAttributes func as).run q d).1 = funcAnswers q.env func d.clock as := by
  induction as generalizing d with
  | nil => rfl
  | cons a as ih =>
    simp only [funcAttributes, Prog.bind_run, lib_run, ih]
    rfl

theorem funcGetAttributes_code (q : QEnv) (d : Device) (k : Key) (func : Nat) :
    ((coreFuncGetAttributes k func).run q d).1.1 < 2 ^ 32 := by
  unfold coreFuncGetAttributes withCtx
  dsimp only
  rcases q.tab.ctxGet k with _ | c
  · exact (by decide : 999 < 2 ^ 32)
  · dsimp only
    split
    · exact (by decide : 98 < 2 ^ 32)
    · exact (by decide : 0 < 2 ^ 32)

theorem funcGetAttributes_accepted {q : QEnv} {d : Device} {k : Key} {func : Nat}
    (h : ((coreFuncGetAttributes k func).run q d).1.1 = 0) :
    ∃ c, q.tab.ctxGet k = some c ∧ c.resGet .function func ≠ 0 ∧
      ((coreFuncGetAttributes k func).run q d).1.2 =
        some (funcAnswers q.env (c.resGet .function func) d.clock funcAttrs) := by
  unfold coreFuncGetAttributes withCtx at h ⊢
  dsimp only at h ⊢
  rcases hc : q.tab.ctxGet k with _ | c
  all_goals rw [hc] at h
  · cases h
  · dsimp only at h ⊢
    by_cases hf : c.resGet .function func = 0
    · rw [if_pos hf] at h
      cases h
    · refine ⟨c, rfl, hf, ?_⟩
      rw [if_neg hf, Prog.bind_run, funcAttributes_run]
      rfl

def attrsAnswer (e : GuestEnv) (t : ThreadSt) (handle : Nat) : Dispatched :=
  ((dispatch (.rt .funcGetAttributes) (request funcGetAttributesReq [handle])
    (sizeof funcGetAttributesResp)).run e t.proc).1

theorem funcGetAttributes_run (func : Nat) (e : GuestEnv) (t : ThreadSt) {fi : FuncInfo}
    (hfunc : t.proc.funcs func = some fi) :
    ((Thread.cudaFuncGetAttributes true func).run e t).1 =
      (attrsAnswer e t fi.handle).ret.map fun err =>
        .code err (attrsAnswer e t fi.handle).resp := by
  simp only [Thread.cudaFuncGetAttributes, not_true_eq_false, if_false, Prog.bind_run,
    Prog.get_run, hfunc]
  rfl

/-- A kernel's attributes are CUDA's answers for the function that the backend has under the
kernel's handle. -/
theorem funcAttributes_carried (func : Nat) (e : GuestEnv) (t : ThreadSt) {fi : FuncInfo}
    (hfunc : t.proc.funcs func = some fi) (hh : fi.handle < 2 ^ 64) {resp : Option (List UInt8)}
    (h0 : ((Thread.cudaFuncGetAttributes true func).run e t).1 = some (.code 0 resp)) :
    ∃ c, t.proc.drv.m.tab.ctxGet (e.drv t.proc.sent.length).key = some c ∧
      c.resGet .function fi.handle ≠ 0 ∧
      (Outcome.code 0 resp).attributes = some ((List.range 16).map fun i =>
        (funcAnswers (e.drv t.proc.sent.length).sys (c.resGet .function fi.handle)
          t.proc.drv.m.dev.clock funcAttrs).getD i 0 %
            256 ^ (field funcGetAttributesResp i).size) := by
  have ht : (Forward.funcGetAttributes fi.handle).message.Typed := typed_one hh
  let r := ((pass false (Forward.funcGetAttributes fi.handle).message).run e t.proc).1
  let d := attrsAnswer e t fi.handle
  have hd : d.ret = some 0 ∧ d.resp = resp := by
    obtain ⟨err, hret, hout⟩ :=
      Option.map_eq_some_iff.mp ((funcGetAttributes_run func e t hfunc).symm.trans h0)
    obtain ⟨rfl, rfl⟩ := Outcome.code.inj hout
    exact ⟨hret, rfl⟩
  have hr : r.ret = some 0 := hd.1
  obtain ⟨img, h⟩ := Forward.executed_of_zero (.funcGetAttributes fi.handle) false e t.proc
    rfl ht hr
  let sys := (e.drv t.proc.sent.length).sys
  let M := t.proc.drv.showing (e.drv t.proc.sent.length) img
  let m := (coreFuncGetAttributes (e.drv t.proc.sent.length).key fi.handle).run ⟨sys, M.tab⟩ M.dev
  have hrun : ((filling (coreFuncGetAttributes (e.drv t.proc.sent.length).key fi.handle)).run
    sys M).1 = (m.1.1, (m.1.2.getD []).map some) := rfl
  have hcode := h.code_zero (hrun ▸ funcGetAttributes_code _ _ _ _) hr
  rw [hrun] at hcode
  obtain ⟨c, hc, hf, hvals⟩ := funcGetAttributes_accepted hcode
  refine ⟨c, hc, hf, ?_⟩
  have hout : r.outs = (Outcome.code 0 resp).attributes := by
    obtain ⟨h1, rfl⟩ := hd
    show unpack _ d = unpack _ _
    rw [unpack, unpack, h1]
    rfl
  rw [← hout]
  refine h.outs_whole hr (length_funcAnswers _ _ _ _) ?_
  rw [hrun, hvals]
  rfl

def kernelThread : ThreadSt where
  proc := { openGuest with
    funcs := fun f => if f = 7 then some ⟨7, 0⟩ else none
    drv.m.tab := (Tables.start.ctxCreate ⟨1, 1⟩).resAddWithHandle ⟨1, 1⟩ .function 0x500 0 7 }
  lastError := 0

theorem funcAttributes_carried_kernelThread : ∃ resp c,
    kernelThread.proc.drv.m.tab.ctxGet ⟨1, 1⟩ = some c ∧ c.resGet .function 7 ≠ 0 ∧
      (Outcome.code 0 resp).attributes = some ((List.range 16).map fun i =>
        (funcAnswers (propGuest.drv 0).sys (c.resGet .function 7) 0 funcAttrs).getD i 0 %
          256 ^ (field funcGetAttributesResp i).size) := by
  have hret : (attrsAnswer propGuest kernelThread 7).ret = some 0 := by decide +kernel
  have h := @funcGetAttributes_run 7 propGuest kernelThread ⟨7, 0⟩ rfl
  rw [hret] at h
  exact ⟨_, funcAttributes_carried 7 propGuest kernelThread rfl (by decide) h⟩

/-! What is waited for -/

def Forward.waits (t : Tables) (k : Key) : Forward → Option (Nat → Bool)
  | .rt .cudaDeviceSynchronize => some fun _ => true
  | .rt (.cudaStreamSynchronize stream) => (t.ctxGet k).map fun c tag =>
    tag = resolveRuntimeStream c stream
  | .drv (.cuStreamSynchronize stream) => (t.ctxGet k).map fun c tag => tag = resolveStream c stream
  | _ => none

section
variable {q : QEnv} {d : Device} {env : Env} {M : Machine}

theorem sync_drained {fn : LibFn} {args : List Nat} {w : Nat → Bool}
    (hret : ∀ i c, (q.env.ret i c).code < 2 ^ 32)
    (h : ((sync fn args w).run q d).1 % 2 ^ 32 = 0) :
    ∃ is, ((sync fn args w).run q d).2.eng = (d.eng.drain w).finishMany is := by
  rw [sync_run] at h ⊢
  rw [Nat.mod_eq_of_lt (hret _ _)] at h
  rw [if_pos h]
  exact ⟨_, rfl⟩

theorem deviceSynchronize_drained (hret : ∀ i c, (q.env.ret i c).code < 2 ^ 32)
    (h : (coreDeviceSynchronize.run q d).1 % 2 ^ 32 = 0) :
    ∃ is, (coreDeviceSynchronize.run q d).2.eng = (d.eng.drain fun _ => true).finishMany is := by
  have hs : (coreDeviceSynchronize.run q d).1 =
      ((sync .cudaDeviceSynchronize [] fun _ => true).run q d).1 := by
    simp only [coreDeviceSynchronize, Prog.bind_run]
    split <;> rfl
  rw [hs] at h
  have hz : ((sync .cudaDeviceSynchronize [] fun _ => true).run q d).1 = 0 := by
    rwa [sync_run, Nat.mod_eq_of_lt (hret _ _)] at h
  simp only [coreDeviceSynchronize, Prog.bind_run, hz, ne_eq, not_true_eq_false, if_false]
  exact sync_drained hret h

theorem Forward.op_of_waits {f : Forward} {t : Tables} {k : Key} {w : Nat → Bool}
    (hw : f.waits t k = some w) : ∃ op, f.op k = some op := by
  unfold Forward.waits at hw
  split at hw
  · exact ⟨_, rfl⟩
  · exact ⟨_, rfl⟩
  · exact ⟨_, rfl⟩
  · cases hw

theorem Forward.drained {f : Forward} {k : Key} {w : Nat → Bool} {op : CoreM Answer}
    (hret : ∀ i c, (env.ret i c).code < 2 ^ 32) (hw : f.waits M.tab k = some w)
    (hop : f.op k = some op) (h : (op.run env M).1.1 % 2 ^ 32 = 0) :
    ∃ is, (op.run env M).2.dev.eng = (M.dev.eng.drain w).finishMany is := by
  unfold Forward.waits at hw
  split at hw
  · obtain rfl := Option.some.inj hw
    obtain rfl := Option.some.inj hop
    exact deviceSynchronize_drained hret h
  next stream =>
    obtain ⟨c, hc, rfl⟩ := Option.map_eq_some_iff.mp hw
    obtain rfl := Option.some.inj hop
    have hrun : (coreStreamSynchronize k stream).run ⟨env, M.tab⟩ M.dev = (streamSync
        .cudaStreamSynchronize (resolveRuntimeStream c stream)).run ⟨env, M.tab⟩ M.dev :=
      Pair.run_withCtx hc
    have h : ((coreStreamSynchronize k stream).run ⟨env, M.tab⟩ M.dev).1 % 2 ^ 32 = 0 := h
    show ∃ is, ((coreStreamSynchronize k stream).run ⟨env, M.tab⟩ M.dev).2.eng = _
    rw [hrun] at h ⊢
    exact sync_drained hret h
  next stream =>
    obtain ⟨c, hc, rfl⟩ := Option.map_eq_some_iff.mp hw
    obtain rfl := Option.some.inj hop
    have hrun : (coreCuStreamSynchronize k stream).run ⟨env, M.tab⟩ M.dev = (streamSync
        .cuStreamSynchronize (resolveStream c stream)).run ⟨env, M.tab⟩ M.dev :=
      Pair.run_withCtx hc
    have h : ((coreCuStreamSynchronize k stream).run ⟨env, M.tab⟩ M.dev).1 % 2 ^ 32 = 0 := h
    show ∃ is, ((coreCuStreamSynchronize k stream).run ⟨env, M.tab⟩ M.dev).2.eng = _
    rw [hrun] at h ⊢
    exact sync_drained hret h
  · cases hw

end

section
variable {c : Copy Space} {w : Nat → Bool} {g g' : Engine Space}

theorem deliver_read {env : Env} {m : Machine} {w : RespWrite} {sp : Space} (h : w.sp ≠ sp)
    (a n : Nat) : (m.deliver env [w]).dev.eng.mem.read sp a n =
      (m.dev.eng.finishMany (env.dma m.dev.clock)).mem.read sp a n :=
  ByteMem.read_congr fun _ _ => congrFun (ByteMem.write_space _ _ _ h.symm) _

theorem pending_of_drained {is : List Nat} (h : c ∈ ((g.drain w).finishMany is).pending) :
    c ∈ g.pending ∧ w c.tag = false := by
  obtain ⟨hc, hw⟩ := List.mem_filter.mp (Engine.finishMany_pending_subset _ _ h)
  exact ⟨hc, by simpa using hw⟩

theorem arrived_of_drained (is js : List Nat) (hc : c ∈ g.pending) (hw : w c.tag = true)
    (ha : c.Apart) (hs : ∀ x ∈ g.pending, x = c ∨ x.Spares c) :
    (((g.drain w).finishMany is).finishMany js).mem.read c.dst.1 c.dst.2 c.len =
      g.mem.read c.src.1 c.src.2 c.len := by
  have h : Arriving c (g.mem.read c.src.1 c.src.2 c.len) g := ⟨ha, hs, rfl, .inl hc⟩
  refine (((h.drain w).finishMany is).finishMany js).dst.resolve_left fun hp => ?_
  have hp := (pending_of_drained (Engine.finishMany_pending_subset _ _ hp)).2
  rw [hw] at hp
  cases hp

end

/-- When a call that waits succeeds, what was outstanding on its queues has taken place. -/
theorem synchronize_completes (f : Forward) (drv : Bool) (e : GuestEnv) (s : GuestSt)
    {w : Nat → Bool} (hw : f.waits s.drv.m.tab (e.drv s.sent.length).key = some w)
    (ht : f.message.Typed) (hret : ∀ i c, ((e.drv s.sent.length).sys.ret i c).code < 2 ^ 32)
    (h0 : ((pass drv f.message).run e s).1.ret = some 0) :
    let g := s.drv.m.dev.eng
    let g' := ((pass drv f.message).run e s).2.drv.m.dev.eng
    (∀ c ∈ g'.pending, c ∈ g.pending ∧ w c.tag = false) ∧
      ∀ c ∈ g.pending, w c.tag = true → c.Apart → (∀ x ∈ g.pending, x = c ∨ x.Spares c) →
        (∀ sp ∈ [c.src.1, c.dst.1], sp ≠ .req (e.drv s.sent.length).caller ∧
          sp ≠ .resp (e.drv s.sent.length).caller) →
        g'.mem.read c.dst.1 c.dst.2 c.len = g.mem.read c.src.1 c.src.2 c.len := by
  intro g g'
  obtain ⟨op, hop⟩ := Forward.op_of_waits hw
  obtain ⟨img, h⟩ := Forward.executed_of_zero f drv e s hop ht h0
  let M := s.drv.showing (e.drv s.sent.length) img
  obtain ⟨is, hd⟩ := Forward.drained (M := M) hret hw hop (h.code_mod h0)
  obtain ⟨bs, hb⟩ := h.backend
  have hg' : g' = _ := congrArg (fun m : Machine => m.dev.eng) hb
  rw [hg']
  refine ⟨fun c hc => ?_, fun c hc hwc ha hs hsp => ?_⟩
  · have hc := pending_of_deliver hc
    rw [hd] at hc
    exact pending_of_drained (g := M.dev.eng) hc
  · rw [deliver_read (hsp c.dst.1 (by simp)).2.symm, hd]
    refine (arrived_of_drained (g := M.dev.eng) is _ hc hwc ha hs).trans ?_
    rw [ByteMem.read, ByteMem.read, showing_mem (hsp c.src.1 (by simp))]

def waitingGuest : GuestSt :=
  { openGuest with
    drv.m.dev.eng := ⟨fun _ a => if a < 8192 then 0 else 5, [⟨(.uva, 4096), (.uva, 8192), 8, 3⟩]⟩ }

theorem synchronize_completes_eightBytes :
    let r := (pass false (Forward.rt .cudaDeviceSynchronize).message).run quietGuest waitingGuest
    r.2.drv.m.dev.eng.pending = [] ∧
      r.2.drv.m.dev.eng.mem.read .uva 4096 8 = List.replicate 8 5 := by
  intro r
  obtain ⟨hp, hc⟩ := synchronize_completes (.rt .cudaDeviceSynchronize) false quietGuest
    waitingGuest rfl (typed_one (by decide)) (fun _ _ => (by decide : 0 < 2 ^ 32))
    (by decide +kernel)
  refine ⟨List.eq_nil_iff_forall_not_mem.mpr fun c hc => Bool.noConfusion (hp c hc).2, ?_⟩
  exact hc _ List.mem_cons_self rfl (by unfold Copy.Apart; decide)
    (fun x hx => .inl (List.mem_singleton.mp hx))
    (by decide)

end HmCuda
