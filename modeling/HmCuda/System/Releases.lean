import HmCuda.System.HostRegistry
import HmCuda.System.Teardown

/-! The records of a handle when its object is released: the guest's own, the backend's
entry, and what CUDA answered. -/

namespace HmCuda
open Layout

inductive Release where
  | cudaFree | cudaEventDestroy | cuMemFree | cuMemFreeHost | cuMemRelease
  | cuMemAddressFree (size : Nat)
  | cuStreamDestroy | cuEventDestroy
  deriving DecidableEq

namespace Release

def cmd : Release → Cmd
  | cudaFree => .rt .free
  | cudaEventDestroy => .rt .eventDestroy
  | cuMemFree => .drv .cuMemFree
  | cuMemFreeHost => .drv .cuMemFreeHost
  | cuMemRelease => .drv .cuMemRelease
  | cuMemAddressFree _ => .drv .cuMemAddressFree
  | cuStreamDestroy => .drv .cuStreamDestroy
  | cuEventDestroy => .drv .cuEventDestroy

def struct : Release → CStruct
  | cudaFree => freeReq
  | cudaEventDestroy => eventDestroyReq
  | cuMemFree => cuMemFreeReq
  | cuMemFreeHost => cuMemFreeHostReq
  | cuMemRelease => cuMemReleaseReq
  | cuMemAddressFree _ => cuMemAddressFreeReq
  | cuStreamDestroy => cuStreamDestroyReq
  | cuEventDestroy => cuEventDestroyReq

def fn : Release → LibFn
  | cudaFree => .cudaFree
  | cudaEventDestroy => .cudaEventDestroy
  | cuMemFree => .cuMemFree
  | cuMemFreeHost => .cuMemFreeHost
  | cuMemRelease => .cuMemRelease
  | cuMemAddressFree _ => .cuMemAddressFree
  | cuStreamDestroy => .cuStreamDestroy
  | cuEventDestroy => .cuEventDestroy

def kind : Release → ObjKind
  | cudaFree | cuMemFree => .memory
  | cudaEventDestroy | cuEventDestroy => .event
  | cuMemFreeHost => .pinned
  | cuMemRelease => .generic
  | cuMemAddressFree _ => .reserved
  | cuStreamDestroy => .stream

def rest : Release → List Nat
  | cuMemAddressFree size => [size]
  | _ => []

/-- The request on handle `h`. -/
def request (r : Release) (h : Nat) : List UInt8 := HmCuda.request r.struct (h :: r.rest)

def call (h : Nat) : Release → GuestCall
  | cudaFree => .cudaFree h
  | cuMemFree => .cuMemFree h
  | cuMemFreeHost => .cuMemFreeHost h
  | cuMemAddressFree size => .cuMemAddressFree h size
  | r@cudaEventDestroy => .forward false r.cmd (r.request h) 0
  | r@cuMemRelease => .forward true r.cmd (r.request h) 0
  | r@cuStreamDestroy => .forward true r.cmd (r.request h) 0
  | r@cuEventDestroy => .forward true r.cmd (r.request h) 0

def core (k : Key) (h : Nat) : Release → CoreM Nat
  | cudaFree => coreFree k h
  | cudaEventDestroy => coreEventDestroy k h
  | cuMemFree => coreCuMemFree k h
  | cuMemFreeHost => coreCuMemFreeHost k h
  | cuMemRelease => coreCuMemRelease k h
  | cuMemAddressFree size => coreCuMemAddressFree k h size
  | cuStreamDestroy => coreCuStreamDestroy k h
  | cuEventDestroy => coreCuEventDestroy k h

/-- The call of CUDA on the object of handle `h`. -/
def libCall (r : Release) (c : Context) (h : Nat) : LibCall :=
  ⟨r.fn, c.resGet r.kind.list h :: r.rest, []⟩

def transport (r : Release) (e : GuestEnv) (s : GuestSt) : Transport :=
  match r.cmd with
  | .rt _ => s.transport
  | .drv _ => s.link e

def sending (r : Release) (h : Nat) (e : GuestEnv) (s : GuestSt) : Call :=
  ⟨r.transport e s, e.stack s.sent.length, r.cmd, r.request h, 0⟩

def driver (r : Release) (h : Nat) (e : GuestEnv) (s : GuestSt) : DrvEnv :=
  (e.drv s.sent.length).calling (r.sending h e s).buf

/-- The guest's records without those the call drops before it sends its request. -/
def drop (r : Release) (h : Nat) (s : GuestSt) : GuestSt :=
  match r with
  | cuMemFree | cuMemAddressFree _ =>
    { s with deviceHandles := Function.update s.deviceHandles h false }
  | cuMemFreeHost => { s with hostMem := Function.update s.hostMem h none }
  | _ => s

def after (r : Release) (h : Nat) (e : GuestEnv) (s : GuestSt) : GuestSt :=
  ((r.call h).run.run e s).2

/-- The handle resolves in its session, by an entry of its own. -/
def Live (r : Release) (c : Context) (h : Nat) : Prop :=
  c.resGet r.kind.list h ≠ 0 ∧ ∃ x ∈ c.resources r.kind.list, x.handle = h

def Typed (r : Release) (h : Nat) : Prop := ∀ v ∈ h :: r.rest, v < 2 ^ 64

def Reaches (r : Release) (h : Nat) (e : GuestEnv) (s : GuestSt) : Prop :=
  (r = cuMemFreeHost → s.hostMemSize h ≠ 0) ∧ (r.sending h e s).ready ∧
    ∃ n m img, Sent (r.driver h e s) r.cmd n m img

/-- CUDA released the object in the course of the call. -/
def Accepted (r : Release) (h : Nat) (e : GuestEnv) (s : GuestSt) : Prop :=
  ∃ x ∈ answers (e.drv s.sent.length).sys s.drv.m.dev (r.after h e s).drv.m.dev,
    x.1.fn = r.fn ∧ x.2.code = 0

def Forgotten (r : Release) (h : Nat) (s : GuestSt) : Prop :=
  (r.kind.list = .mem → s.deviceHandles h = false) ∧ (r.kind = .pinned → s.hostMem h = none)

/-- The entry and the guest's record go if the object is released, and stay as they were if
it is not. -/
structure Atomic (r : Release) (h : Nat) (e : GuestEnv) (s : GuestSt) : Prop where
  released : r.Accepted h e s →
    (r.after h e s).drv.m.tab = s.drv.m.tab.without (e.drv s.sent.length).key r.kind h ∧
      r.Forgotten h (r.after h e s)
  kept : ¬r.Accepted h e s → (r.after h e s).drv.m.tab = s.drv.m.tab ∧
    (r.after h e s).deviceHandles = s.deviceHandles ∧ (r.after h e s).hostMem = s.hostMem

/-- CUDA accepts a release that reaches it, and the guest has no record that `cudaFree` would
leave behind; a request that does not reach CUDA drops no record. -/
def Clean (r : Release) (h : Nat) (e : GuestEnv) (s : GuestSt) (c : Context) : Prop :=
  (r.Reaches h e s →
    ((e.drv s.sent.length).sys.ret s.drv.m.dev.clock (r.libCall c h)).code = 0 ∧
      (r = cudaFree → s.deviceHandles h = false)) ∧
  (¬r.Reaches h e s → match r with
    | cuMemFree | cuMemAddressFree _ => s.deviceHandles h = false
    | cuMemFreeHost => s.hostMemSize h = 0
    | _ => True)

/-! The handler -/

theorem core_run (r : Release) {k : Key} {h : Nat} {env : Env} {M : Machine} {c : Context}
    (hc : M.tab.ctxGet k = some c) (h0 : c.resGet r.kind.list h ≠ 0) :
    ((r.core k h).run env M).2 = ⟨M.tab.without k r.kind h,
      ((lib r.fn (r.libCall c h).args []).run ⟨env, M.tab⟩ M.dev).2⟩ := by
  cases r
  all_goals
    simp only [kind, ObjKind.list] at h0
    simp only [core, coreFree, coreEventDestroy, coreCuMemFree, coreCuMemFreeHost, coreCuMemRelease,
      coreCuMemAddressFree, coreCuStreamDestroy, coreCuEventDestroy, withCtxM, hc, Prog.ite_run, h0,
      if_false, ne_eq, not_false_eq_true, if_true, Prog.bind_run]
    rfl

theorem sizes_eq (r : Release) (p : Option (Nat → UInt8)) :
    (r.cmd.sizes p).reqSize = sizeof r.struct := by
  cases r <;> rfl

theorem plainReply_run (r : Release) {e : DrvEnv} {h n m : Nat} {M : Machine}
    (ht : r.Typed h) (hp : ∀ a < sizeof r.struct,
      (cmdStart e.sys (plainElem e n m) M).payload a = (r.request h).getD a 0) :
    (plainReply e r.cmd n m M).2.be = ((r.core e.key h).run e.sys M).2 := by
  have hl : (h :: r.rest).length ≤ r.struct.length := by cases r <;> exact Nat.le_refl _
  have hget {i v : Nat} (hv : (h :: r.rest)[i]? = some v) (hs : (field r.struct i).size = 8) :
      (field r.struct i).get (cmdStart e.sys (plainElem e n m) M).payload = v :=
    get_request (h :: r.rest) hp hl hv (by rw [hs]; exact ht v (List.mem_of_getElem? hv))
  have hhandle := hget (i := 0) rfl (by cases r <;> rfl)
  rw [plainReply, dispatchCmd, Cmd.ofCode_code]
  cases r
  case cuMemAddressFree size =>
    exact congrArg₂ (fun v n => ((coreCuMemAddressFree e.key v n).run e.sys M).2) hhandle
      (hget (i := 1) rfl rfl)
  case cudaFree =>
    exact congrArg (fun v => ((coreFree e.key v).run e.sys M).2) hhandle
  case cudaEventDestroy =>
    exact congrArg (fun v => ((coreEventDestroy e.key v).run e.sys M).2) hhandle
  case cuMemFree =>
    exact congrArg (fun v => ((coreCuMemFree e.key v).run e.sys M).2) hhandle
  case cuMemFreeHost =>
    exact congrArg (fun v => ((coreCuMemFreeHost e.key v).run e.sys M).2) hhandle
  case cuMemRelease =>
    exact congrArg (fun v => ((coreCuMemRelease e.key v).run e.sys M).2) hhandle
  case cuStreamDestroy =>
    exact congrArg (fun v => ((coreCuStreamDestroy e.key v).run e.sys M).2) hhandle
  case cuEventDestroy =>
    exact congrArg (fun v => ((coreCuEventDestroy e.key v).run e.sys M).2) hhandle

/-! The call -/

section
variable {r : Release} {h : Nat} {e : GuestEnv} {s : GuestSt}

theorem after_hostNone (hr : r = cuMemFreeHost) (h0 : s.hostMemSize h = 0) : r.after h e s = s := by
  subst hr
  show ((HmCuda.cuMemFreeHost h).run e s).2 = s
  simp only [HmCuda.cuMemFreeHost, Prog.bind_run, Prog.get_run, h0, if_true, Prog.pure_run]

theorem after_run (hr : r = cuMemFreeHost → s.hostMemSize h ≠ 0) :
    (r.after h e s).drv = ((r.sending h e s).dispatch.run (e.drv s.sent.length) s.drv).2 ∧
      (r.after h e s).deviceHandles = (r.drop h s).deviceHandles ∧
      (r.after h e s).hostMem = (r.drop h s).hostMem := by
  have linked (cmd : DrvCmd) (req : List UInt8) (g : GuestSt) :
      ((drvDispatch (.drv cmd) req 0).run e g).2.drv = ((Call.mk (g.link e) (e.stack g.sent.length)
          (.drv cmd) req 0).dispatch.run (e.drv g.sent.length) g.drv).2 ∧
        ((drvDispatch (.drv cmd) req 0).run e g).2.deviceHandles = g.deviceHandles ∧
        ((drvDispatch (.drv cmd) req 0).run e g).2.hostMem = g.hostMem := by
    rw [drvDispatch_link]
    exact ⟨rfl, rfl, rfl⟩
  cases r
  case cudaFree | cudaEventDestroy => exact ⟨rfl, rfl, rfl⟩
  case cuMemRelease | cuStreamDestroy | cuEventDestroy => exact linked _ _ s
  case cuMemFree => exact linked _ _ (drop cuMemFree h s)
  case cuMemAddressFree size => exact linked _ _ (drop (cuMemAddressFree size) h s)
  case cuMemFreeHost =>
    have hrun : after cuMemFreeHost h e s = ((drvDispatch (.drv .cuMemFreeHost)
        (HmCuda.request cuMemFreeHostReq [h]) 0).run e (drop cuMemFreeHost h s)).2 := by
      show ((HmCuda.cuMemFreeHost h).run e s).2 = _
      simp only [HmCuda.cuMemFreeHost, Prog.bind_run, Prog.get_run, if_neg (hr rfl)]
      rfl
    rw [hrun]
    exact linked _ _ (drop cuMemFreeHost h s)

theorem not_isMemcpy (r : Release) : ¬isMemcpy r.cmd.code := by
  cases r <;> dsimp only [cmd] <;> decide

theorem after_reached (hr : r.Reaches h e s) (ht : r.Typed h) {c : Context}
    (hc : s.drv.m.tab.ctxGet (e.drv s.sent.length).key = some c)
    (h0 : c.resGet r.kind.list h ≠ 0) :
    (r.after h e s).drv.m.tab = s.drv.m.tab.without (e.drv s.sent.length).key r.kind h ∧
      (r.after h e s).drv.m.dev.calls = s.drv.m.dev.calls ++ [r.libCall c h] := by
  obtain ⟨hhost, hready, n, m, img, hsent⟩ := hr
  have hlen : (r.request h).length = sizeof r.struct := length_encode _ _ _
  -- a request of a fixed length, so what arrives is what was sent
  have hn : n = (r.sending h e s).req.length :=
    (reqSizes_fixed r.sizes_eq hsent.sizes).trans hlen.symm
  obtain ⟨evs, hst, -⟩ := hmcudaIoctl_answered hsent r.not_isMemcpy s.drv
  have hp (a : Nat) (ha : a < sizeof r.struct) :
      (cmdStart (r.driver h e s).sys (plainElem (r.driver h e s) n m)
        (s.drv.showing (r.driver h e s) img)).payload a = (r.request h).getD a 0 := by
    have hlt : payloadOff + a < (plainElem (r.driver h e s) n m).reqLen := by
      rw [hsent.reqLen, hn]
      exact Nat.add_lt_add_left (hlen.symm ▸ ha) _
    rw [cmdStart_payload hlt, plainElem_image]
    exact VarReq.Sent.image_of_call (x := r.sending h e s) hsent hn (hn ▸ hlen.symm ▸ ha)
  have hbe := plainReply_run r (e := r.driver h e s) (m := m) ht hp
  have hcore : ((r.core (e.drv s.sent.length).key h).run (e.drv s.sent.length).sys
      (s.drv.showing (r.driver h e s) img)).2 = _ := core_run r hc h0
  have hdrv : (r.after h e s).drv = s.drv.answered (r.driver h e s) r.cmd n m img evs := by
    rw [(after_run hhost).1, Call.dispatch_run hready]
    exact hst
  have hm (M : Machine) (ws : List RespWrite) :
      (M.deliver (r.driver h e s).sys ws).tab = M.tab ∧
        (M.deliver (r.driver h e s).sys ws).dev.calls = M.dev.calls := ⟨rfl, rfl⟩
  rw [hdrv, DrvSt.answered, (hm _ _).1, (hm _ _).2, hbe]
  exact ⟨congrArg Machine.tab hcore, congrArg (·.dev.calls) hcore⟩

theorem after_unreached (hr : ¬r.Reaches h e s) : (r.after h e s).drv.m.tab = s.drv.m.tab ∧
    (r.after h e s).drv.m.dev.calls = s.drv.m.dev.calls := by
  by_cases hhost : r = cuMemFreeHost → s.hostMemSize h ≠ 0
  · rw [(after_run hhost).1]
    by_cases hready : (r.sending h e s).ready
    · rw [Call.dispatch_run hready]
      obtain ⟨-, hq⟩ := hmcudaIoctl_refused r.not_isMemcpy (Call.header (r.sending h e s) _)
        (fun n m img hsent => hr ⟨hhost, hready, n, m, img, hsent⟩) s.drv
      obtain ⟨f, hf⟩ := hq.m
      have hm : (hmcudaIoctl.run ((e.drv s.sent.length).calling (r.sending h e s).buf) s.drv).2.m =
        s.drv.m.setMem _ f := hf
      rw [hm]
      exact ⟨rfl, rfl⟩
    · rw [Call.dispatch_unready hready]
      exact ⟨rfl, rfl⟩
  · push Not at hhost
    rw [after_hostNone hhost.1 hhost.2]
    exact ⟨rfl, rfl⟩

/-! What CUDA answered -/

theorem answers_nil {v v' : Device} {env : Env} (hcalls : v'.calls = v.calls) :
    answers env v v' = [] := by
  simp [answers, hcalls]

theorem answers_one {v v' : Device} {env : Env} {x : LibCall} (hcalls : v'.calls = v.calls ++ [x]) :
    answers env v v' = [(x, env.ret v.clock x)] := by
  simp [answers, hcalls]

theorem accepted_iff (hr : r.Reaches h e s) (ht : r.Typed h) {c : Context}
    (hc : s.drv.m.tab.ctxGet (e.drv s.sent.length).key = some c)
    (h0 : c.resGet r.kind.list h ≠ 0) : r.Accepted h e s ↔
      ((e.drv s.sent.length).sys.ret s.drv.m.dev.clock (r.libCall c h)).code = 0 := by
  rw [Accepted, answers_one (after_reached hr ht hc h0).2]
  simp [libCall]

theorem not_accepted (hr : ¬r.Reaches h e s) : ¬r.Accepted h e s := by
  rw [Accepted, answers_nil (after_unreached hr).2]
  simp

theorem without_ne {t : Tables} {k : Key} {c : Context} (hc : t.ctxGet k = some c)
    (hlive : r.Live c h) : t.without k r.kind h ≠ t := by
  obtain ⟨-, x, hx, hxh⟩ := hlive
  intro heq
  have hget : (t.without k r.kind h).ctxGet k = some c := by rw [heq, hc]
  have hlist : c.resources r.kind.list = (c.resources r.kind.list).eraseP (·.handle = h) := by
    unfold Tables.without at hget
    split at hget
    next hk =>
      rw [Tables.ctxGet_resRemove (Tables.ctxGet_resRemove hc _ h)] at hget
      have hres := congrArg (·.resources r.kind.list) (Option.some.inj hget)
      simp only [Context.resRemove_resources, hk, ObjKind.list] at hres ⊢
      exact hres.symm
    next hk =>
      rw [Tables.ctxGet_resRemove hc] at hget
      have hres := congrArg (·.resources r.kind.list) (Option.some.inj hget)
      simpa [Context.resRemove_resources] using hres.symm
  have hlen := congrArg List.length hlist
  rw [List.length_eraseP_of_mem hx (by simpa using hxh)] at hlen
  have hpos := List.length_pos_of_mem hx
  omega

theorem forgotten_after (hr : r = cuMemFreeHost → s.hostMemSize h ≠ 0) :
    r.Forgotten h (r.after h e s) ↔ (r = cudaFree → s.deviceHandles h = false) := by
  obtain ⟨-, hdev, hhost⟩ := after_run (e := e) hr
  rw [Forgotten, hdev, hhost]
  cases r <;> simp [kind, ObjKind.list, drop]

theorem records_after : ((r.after h e s).deviceHandles = s.deviceHandles ∧
    (r.after h e s).hostMem = s.hostMem) ↔ match r with
      | cuMemFree | cuMemAddressFree _ => s.deviceHandles h = false
      | cuMemFreeHost => s.hostMemSize h = 0
      | _ => True := by
  by_cases hr : r = cuMemFreeHost → s.hostMemSize h ≠ 0
  · obtain ⟨-, hdev, hhost⟩ := after_run (e := e) hr
    rw [hdev, hhost]
    cases r
    case cuMemFreeHost =>
      have hne := hr rfl
      have hsome : s.hostMem h ≠ none := fun hnone => hne (by simp [GuestSt.hostMemSize, hnone])
      simp [drop, hne, hsome.symm]
    all_goals simp [drop]
  · push Not at hr
    obtain ⟨rfl, h0⟩ := hr
    rw [after_hostNone rfl h0]
    exact iff_of_true ⟨rfl, rfl⟩ h0

/-- If CUDA refuses, the entry is gone all the same. -/
theorem not_atomic_of_refused (hr : r.Reaches h e s) (ht : r.Typed h) {c : Context}
    (hc : s.drv.m.tab.ctxGet (e.drv s.sent.length).key = some c) (hlive : r.Live c h)
    (h0 : ((e.drv s.sent.length).sys.ret s.drv.m.dev.clock (r.libCall c h)).code ≠ 0) :
    ¬r.Atomic h e s := by
  intro ha
  have hkept := (ha.kept (mt (accepted_iff hr ht hc hlive.1).mp h0)).1
  exact without_ne hc hlive ((after_reached hr ht hc hlive.1).1.symm.trans hkept)

end
end Release

open Release in
/-- The entry and the guest's record go exactly with the object, if CUDA accepts every
release that reaches it, no record is left to `cudaFree`, and no request is lost whose record
was dropped. -/
theorem release_atomic_iff (r : Release) (h : Nat) (e : GuestEnv) (s : GuestSt) (c : Context)
    (ht : r.Typed h) (hc : s.drv.m.tab.ctxGet (e.drv s.sent.length).key = some c)
    (hlive : r.Live c h) : r.Atomic h e s ↔ r.Clean h e s c := by
  by_cases hr : r.Reaches h e s
  · have hacc := accepted_iff hr ht hc hlive.1
    have htab := (after_reached hr ht hc hlive.1).1
    have hforgot := forgotten_after (e := e) hr.1
    refine ⟨fun ha => ⟨fun _ => ?_, fun hno => absurd hr hno⟩, fun hclean => ?_⟩
    · by_cases h0 : ((e.drv s.sent.length).sys.ret s.drv.m.dev.clock (r.libCall c h)).code = 0
      · exact ⟨h0, hforgot.mp (ha.released (hacc.mpr h0)).2⟩
      · exact absurd ha (not_atomic_of_refused hr ht hc hlive h0)
    · obtain ⟨h0, hfree⟩ := hclean.1 hr
      exact ⟨fun _ => ⟨htab, hforgot.mpr hfree⟩, fun hno => absurd (hacc.mpr h0) hno⟩
  · have hacc := not_accepted hr
    have htab := (after_unreached hr).1
    exact ⟨fun ha => ⟨fun hyes => absurd hyes hr, fun _ => records_after.mp (ha.kept hacc).2⟩,
      fun hclean => ⟨fun hyes => absurd hyes hacc,
        fun _ => ⟨htab, records_after.mpr (hclean.2 hr)⟩⟩⟩

/-! A process that has reserved 64 bytes of address space -/

def rangeEnv : GuestEnv where
  drv _ := .quiet { Env.quiet with
    ret := fun _ c =>
      if c.fn = .cuMemAddressReserve then ⟨0, [0x8000], none⟩
      else if c.fn = .cuMemAddressFree ∧ c.args ≠ [0x8000, 64] then ⟨1, [], none⟩
      else .ok } fun _ _ => 0
  stack _ _ := 0
  left _ _ := 0
  rpc := false
  opens _ := true

def rangeStart : GuestSt := .start { DrvSt.start (fun _ _ => 0) with
  m := { Machine.start (fun _ _ => 0) with tab := Tables.start.ctxCreate ⟨1, 1⟩ } }

def rangeSt : GuestSt :=
  ((GuestCall.cuMemAddressReserve true 64 0 0 0).run.run rangeEnv rangeStart).2

theorem rangeSt_session : ∃ c, rangeSt.drv.m.tab.ctxGet ⟨1, 1⟩ = some c ∧
    c.resources .mem = [⟨0x8000, 0x8000, 64⟩] := by
  have hres : (rangeSt.drv.m.tab.ctxGet ⟨1, 1⟩).map (·.resources .mem) =
      some [⟨0x8000, 0x8000, 64⟩] := by decide +kernel
  exact Option.map_eq_some_iff.mp hres

section
variable {c : Context} (hres : c.resources .mem = [⟨0x8000, 0x8000, 64⟩]) (size : Nat)
include hres

theorem rangeSt_get : c.resGet .mem 0x8000 = 0x8000 := by
  simp [Context.resGet, Context.resFind, hres, Resource.covers, ResType.ranged, Resource.pointer,
    add64]

theorem rangeSt_live : (Release.cuMemAddressFree size).Live c 0x8000 := by
  refine ⟨?_, ⟨0x8000, 0x8000, 64⟩, ?_, rfl⟩
  · show c.resGet .mem 0x8000 ≠ 0
    rw [rangeSt_get hres]
    decide
  · show _ ∈ c.resources .mem
    rw [hres]
    exact List.mem_singleton_self _

theorem rangeSt_call : (Release.cuMemAddressFree size).libCall c 0x8000 =
    ⟨.cuMemAddressFree, [0x8000, size], []⟩ :=
  congrArg (fun p => LibCall.mk .cuMemAddressFree [p, size] []) (rangeSt_get hres)

end

theorem rangeSt_reaches (size : Nat) (hs : size < 2 ^ 64) :
    (Release.cuMemAddressFree size).Typed 0x8000 ∧
      (Release.cuMemAddressFree size).Reaches 0x8000 rangeEnv rangeSt := by
  have hready : ((Release.cuMemAddressFree size).sending 0x8000 rangeEnv rangeSt).ready := by
    have hlink : rangeSt.link rangeEnv = ⟨false, true⟩ := rfl
    exact ⟨congrArg Transport.rpc hlink, congrArg Transport.opened hlink⟩
  refine ⟨?_, fun hr => (by cases hr), hready, 16, 0, _, ⟨⟨_, rfl, ?_, rfl⟩, rfl, rfl⟩⟩
  · intro v hv
    rcases List.mem_cons.mp hv with rfl | hv
    · decide
    · rw [List.mem_singleton.mp hv]
      exact hs
  · exact Call.header ((Release.cuMemAddressFree size).sending 0x8000 rangeEnv rangeSt)
      (rangeEnv.drv rangeSt.sent.length) _ rfl

theorem release_atomic_iff_range :
    (Release.cuMemAddressFree 64).Atomic 0x8000 rangeEnv rangeSt := by
  obtain ⟨c, hc, hres⟩ := rangeSt_session
  obtain ⟨ht, hr⟩ := rangeSt_reaches 64 (by decide)
  refine (release_atomic_iff _ _ _ _ c ht hc (rangeSt_live hres 64)).mpr
    ⟨fun _ => ⟨?_, fun h => (by cases h)⟩, fun h => absurd hr h⟩
  rw [rangeSt_call hres]
  rfl

/-- Freeing 32 bytes of the range fails, and the whole range is lost. -/
theorem release_not_atomic : ¬∀ (e : GuestEnv) (drv : DrvSt) (tr : List (GuestCall × Returned))
    (s : GuestSt), GuestRun e drv tr s → ∀ (r : Release) (h : Nat) (c : Context), r.Typed h →
      s.drv.m.tab.ctxGet (e.drv s.sent.length).key = some c → r.Live c h → r.Atomic h e s := by
  intro hall
  obtain ⟨c, hc, hres⟩ := rangeSt_session
  obtain ⟨ht, hr⟩ := rangeSt_reaches 32 (by decide)
  have run : GuestRun rangeEnv rangeStart.drv _ rangeSt := GuestRun.call _ .start (by simp)
  have hlive := rangeSt_live hres 32
  refine Release.not_atomic_of_refused hr ht hc hlive ?_ (hall _ _ _ _ run _ _ c ht hc hlive)
  rw [rangeSt_call hres]
  exact one_ne_zero

end HmCuda
