import HmCuda.Guest.Thread

/-! What `cudaGetLastError` returns, over the runs of a thread. `hmcuda_dispatch` writes
`g_last_error` on success too, and for the functions that return no error code. -/

namespace HmCuda
open Layout

/-- The latest error the calls returned since the last `cudaGetLastError`, or 0. -/
def recentError : List (RtCall × Outcome) → Nat
  | [] => 0
  | (.cudaGetLastError, _) :: _ => 0
  | (_, out) :: tr => if out.err ≠ 0 then out.err else recentError tr

/-- What `hmcuda_transport_dispatch` returns for a request. -/
def ThreadSt.answer (s : ThreadSt) (e : GuestEnv) (cmd : Cmd) (req : List UInt8) (respLen : Nat) :
    Option Nat :=
  ((dispatch cmd req respLen).run e s.proc).1.ret

/-- A call that passes a request on and returns its code succeeds only while no error is
pending, one that returns no code is answered with the pending one, and one that returns an
error by itself returns the pending one. -/
def RtCall.Clean (e : GuestEnv) (s : ThreadSt) : RtCall → Prop
  | forward f => s.answer e (.rt f.cmd) f.req f.respLen = some 0 → s.lastError = 0
  | cudaLaunchKernel func gridDim blockDim args sharedMem stream =>
    ((HmCuda.cudaLaunchKernel func gridDim blockDim args sharedMem stream).run e s.proc).1 =
      some 0 → s.lastError = 0
  | cudaFuncGetAttributes false _ => s.lastError = 1
  | cudaFuncGetAttributes true func => ∀ fi, s.proc.funcs func = some fi →
    s.answer e (.rt .funcGetAttributes) (request funcGetAttributesReq [fi.handle])
      (sizeof funcGetAttributesResp) = some 0 → s.lastError = 0
  | cudaGetKernel kernel hostFun =>
    if kernel = false ∨ hostFun = 0 then s.lastError = 1
    else s.proc.funcs hostFun = none → s.lastError = 98
  | cudaGetErrorString error => s.answer e (.rt .getErrorString) (request getErrorStringReq [error])
    (sizeof getErrorStringResp + 256) = some s.lastError
  | cudaGetErrorName error => s.answer e (.rt .getErrorName) (request getErrorStringReq [error])
    (sizeof getErrorStringResp + 256) = some s.lastError
  | cudaInitModule (some handle) =>
    s.answer e (.rt .initModule) (request initModuleReq [handle]) 0 = some s.lastError
  | cudaRegisterFatBinary (some (bytes, wrapped)) => s.answer e (.rt .registerFatbin)
    ((VarReq.registerFatbin bytes wrapped).payload (e.left s.proc.sent.length))
      (sizeof registerFatbinResp) = some s.lastError
  | cudaRegisterFunction (some handle) hostFun deviceFun paramCount =>
    ((HmCuda.cudaRegisterFunction handle hostFun deviceFun paramCount).run e s.proc).1 =
      some s.lastError
  | cudaGetLastError | cudaInitModule none | cudaRegisterFatBinary none | cudaRegisterFatBinaryEnd
  | cudaRegisterFunction none .. | cudaUnregisterFatBinary => True

section
variable {e : GuestEnv} {s : ThreadSt} {α : Type}

@[simp] theorem inProc_run (m : GuestM α) : (inProc m).run e s =
    ((m.run e s.proc).1, { s with proc := (m.run e s.proc).2 }) := by rfl

@[simp] theorem record_run (r : Option Nat) :
    (record r).run e s = ((), { s with lastError := r.getD s.lastError }) := by rfl

@[simp] theorem hmcudaDispatch_ret (cmd : Cmd) (req : List UInt8) (n : Nat) :
    ((hmcudaDispatch cmd req n).run e s).1.ret = s.answer e cmd req n := by rfl

@[simp] theorem hmcudaDispatch_lastError (cmd : Cmd) (req : List UInt8) (n : Nat) :
    ((hmcudaDispatch cmd req n).run e s).2.lastError =
      (s.answer e cmd req n).getD s.lastError := by rfl

/-- What is kept of the errors when a call returns `err`. -/
def newest (err le : Nat) : Nat := if err ≠ 0 then err else le

@[simp] theorem newest_zero (le : Nat) : newest 0 le = le := by rfl

theorem newest_of_ne {err : Nat} (le : Nat) (h : err ≠ 0) : newest err le = err := if_pos h

theorem recentError_cons {c : RtCall} (hc : c ≠ .cudaGetLastError) (out : Outcome)
    (tr : List (RtCall × Outcome)) :
    recentError ((c, out) :: tr) = newest out.err (recentError tr) := by
  cases c <;> first | rfl | exact absurd rfl hc

theorem recorded_iff {r : Option Nat} {resp : Option (List UInt8)} {out : Outcome} {le : Nat}
    (h : (r.map fun err => Outcome.code err resp) = some out) :
    r.getD le = newest out.err le ↔ (r = some 0 → le = 0) := by
  obtain ⟨err, rfl, rfl⟩ := Option.map_eq_some_iff.mp h
  show err = newest err le ↔ (some err = some 0 → le = 0)
  rcases Nat.eq_zero_or_pos err with rfl | hpos
  · simp [eq_comm]
  · have hne : err ≠ 0 := hpos.ne'
    simp [newest_of_ne le hne, hne]

theorem silent_iff {r : Option Nat} {f : Nat → Outcome} {out : Outcome} {le : Nat}
    (hf : ∀ err, (f err).err = 0) (h : r.map f = some out) :
    r.getD le = newest out.err le ↔ r = some le := by
  obtain ⟨err, rfl, rfl⟩ := Option.map_eq_some_iff.mp h
  rw [hf err]
  simp

theorem unrecorded_iff {err le : Nat} (h : err ≠ 0) : le = newest err le ↔ le = err := by
  rw [newest_of_ne le h]

theorem forward_iff {cmd : RtCmd} {req : List UInt8} {n : Nat} {out : Outcome}
    (h : ((Thread.forward cmd req n).run e s).1 = some out) :
    ((Thread.forward cmd req n).run e s).2.lastError = newest out.err s.lastError ↔
      (s.answer e (.rt cmd) req n = some 0 → s.lastError = 0) :=
  recorded_iff h

theorem errorText_iff {cmd : RtCmd} {unknown : String} {error : Nat} {out : Outcome}
    (h : ((Thread.errorText cmd unknown error).run e s).1 = some out) :
    ((Thread.errorText cmd unknown error).run e s).2.lastError = newest out.err s.lastError ↔
      s.answer e (.rt cmd) (request getErrorStringReq [error]) (sizeof getErrorStringResp + 256) =
        some s.lastError := by
  refine silent_iff (fun err => ?_) h
  dsimp only
  split <;> rfl

theorem cudaFuncGetAttributes_run (func : Nat) :
    (Thread.cudaFuncGetAttributes true func).run e s = match s.proc.funcs func with
      | none => (some (.code 98 none), { s with lastError := 98 })
      | some fi => (Thread.forward .funcGetAttributes (request funcGetAttributesReq [fi.handle])
          (sizeof funcGetAttributesResp)).run e s := by
  simp only [Thread.cudaFuncGetAttributes, not_true_eq_false, if_false, Prog.bind_run, Prog.get_run]
  cases s.proc.funcs func <;> rfl

theorem cudaFuncGetAttributes_iff {attr : Bool} {func : Nat} {out : Outcome}
    (h : ((Thread.cudaFuncGetAttributes attr func).run e s).1 = some out) :
    ((Thread.cudaFuncGetAttributes attr func).run e s).2.lastError =
      newest out.err s.lastError ↔ (RtCall.cudaFuncGetAttributes attr func).Clean e s := by
  cases attr with
  | false =>
    obtain rfl := Option.some.inj h
    exact unrecorded_iff one_ne_zero
  | true =>
    rw [cudaFuncGetAttributes_run] at h ⊢
    simp only [RtCall.Clean]
    cases hfi : s.proc.funcs func with
    | none =>
      rw [hfi] at h
      obtain rfl := Option.some.inj h
      simp [newest, Outcome.err]
    | some fi =>
      rw [hfi] at h
      simpa using forward_iff h

theorem cudaGetKernel_iff {kernel : Bool} {hostFun : Nat} {out : Outcome}
    (h : ((Thread.cudaGetKernel kernel hostFun).run e s).1 = some out) :
    ((Thread.cudaGetKernel kernel hostFun).run e s).2.lastError = newest out.err s.lastError ↔
      (RtCall.cudaGetKernel kernel hostFun).Clean e s := by
  have hst : ((Thread.cudaGetKernel kernel hostFun).run e s).2 = s := by
    simp only [Thread.cudaGetKernel, Prog.ite_run, Prog.bind_run, Prog.get_run, Prog.pure_run]
    split
    · rfl
    · split <;> rfl
  rw [hst]
  simp only [Thread.cudaGetKernel, Prog.ite_run, Prog.bind_run, Prog.get_run, Prog.pure_run,
    Bool.not_eq_true] at h
  simp only [RtCall.Clean]
  split at h
  next hnull =>
    obtain rfl := Option.some.inj h
    rw [if_pos hnull]
    exact unrecorded_iff one_ne_zero
  next hnull =>
    rw [if_neg hnull]
    split at h
    next hnone =>
      obtain rfl := Option.some.inj h
      simp only [Option.isNone_iff_eq_none.mp hnone, true_implies]
      exact unrecorded_iff (by decide)
    next hsome =>
      obtain rfl := Option.some.inj h
      simp [Outcome.err, Option.isNone_iff_eq_none.not.mp hsome]

/-- One call other than `cudaGetLastError` keeps `g_last_error` right exactly if it is clean. -/
theorem RtCall.lastError_iff {c : RtCall} {out : Outcome} (hc : c ≠ .cudaGetLastError)
    (h : (c.run.run e s).1 = some out) :
    (c.run.run e s).2.lastError = newest out.err s.lastError ↔ c.Clean e s := by
  cases c with
  | forward f => exact forward_iff h
  | cudaLaunchKernel func gridDim blockDim args sharedMem stream => exact recorded_iff h
  | cudaFuncGetAttributes attr func => exact cudaFuncGetAttributes_iff h
  | cudaGetKernel kernel hostFun => exact cudaGetKernel_iff h
  | cudaGetErrorString error => exact errorText_iff h
  | cudaGetErrorName error => exact errorText_iff h
  | cudaGetLastError => exact absurd rfl hc
  -- a NULL handle sends no request
  | cudaInitModule handle =>
    cases handle with
    | none =>
      obtain rfl := Option.some.inj h
      exact iff_of_true rfl trivial
    | some handle => exact silent_iff (fun _ => rfl) h
  | cudaRegisterFatBinary fatCubin =>
    cases fatCubin with
    | none =>
      obtain rfl := Option.some.inj h
      exact iff_of_true rfl trivial
    | some fatCubin => exact silent_iff (fun _ => rfl) h
  | cudaRegisterFunction handle hostFun deviceFun paramCount =>
    cases handle with
    | none =>
      obtain rfl := Option.some.inj h
      exact iff_of_true rfl trivial
    | some handle => exact silent_iff (fun _ => rfl) h
  | cudaRegisterFatBinaryEnd | cudaUnregisterFatBinary =>
    obtain rfl := Option.some.inj h
    exact iff_of_true rfl trivial

theorem cudaGetLastError_run :
    RtCall.cudaGetLastError.run.run e s =
      (some (.code s.lastError none), { s with lastError := 0 }) :=
  rfl

end

section Runs
variable {init : Nat → Prop} {ok : GuestEnv → ThreadSt → RtCall → Prop}
  {tr : List (RtCall × Outcome)} {s : ThreadSt}

theorem hmcudaRuntimeInit_lastError {e : GuestEnv} {err : Nat}
    (h : (hmcudaRuntimeInit.run e s).1 = some err) :
    (hmcudaRuntimeInit.run e s).2.lastError = err := by
  have hret : (hmcudaRuntimeInit.run e s).2.lastError =
    (hmcudaRuntimeInit.run e s).1.getD s.lastError := rfl
  rw [hret, h, Option.getD_some]

theorem step_pending {e : GuestEnv} {g : GuestSt} {c : RtCall} {out : Outcome}
    (hs : s.lastError = recentError tr) (h : (c.run.run e { s with proc := g }).1 = some out) :
    (c.run.run e { s with proc := g }).2.lastError = recentError ((c, out) :: tr) ↔
      c.Clean e { s with proc := g } := by
  by_cases hc : c = .cudaGetLastError
  · subst hc
    exact iff_of_true rfl trivial
  · rw [recentError_cons hc, ← hs]
    exact RtCall.lastError_iff hc h

theorem CleanRun.pending (h : ThreadRun (· = 0) RtCall.Clean tr s) :
    s.lastError = recentError tr := by
  induction h with
  | main e g returned allowed => exact (hmcudaRuntimeInit_lastError returned).trans allowed
  | thread g => rfl
  | call e g c h returned allowed ih => exact (step_pending ih returned).mpr allowed

end Runs

/-- In a run of clean calls `cudaGetLastError` returns the latest error since it was last
called, and one more call keeps it so exactly if it is clean. -/
theorem cudaGetLastError_clean {tr : List (RtCall × Outcome)} {s : ThreadSt}
    (h : ThreadRun (· = 0) RtCall.Clean tr s) :
    (∀ e, (RtCall.cudaGetLastError.run.run e s).1 = some (.code (recentError tr) none)) ∧
    ∀ e g c out, (c.run.run e { s with proc := g }).1 = some out →
      ((∀ e', (RtCall.cudaGetLastError.run.run e' (c.run.run e { s with proc := g }).2).1 =
          some (.code (recentError ((c, out) :: tr)) none)) ↔ c.Clean e { s with proc := g }) := by
  have hs := CleanRun.pending h
  refine ⟨fun e => ?_, fun e g c out hret => ?_⟩
  · rw [cudaGetLastError_run, hs]
  · rw [← step_pending hs hret]
    constructor
    · intro hall
      have hcode := hall e
      rw [cudaGetLastError_run] at hcode
      exact (Outcome.code.inj (Option.some.inj hcode)).1
    · intro hlast e'
      rw [cudaGetLastError_run, hlast]

/-! A launch of a function that is not registered, and a call that succeeds. -/

def strayLaunch : RtCall := .cudaLaunchKernel 0x1000 (1, 1, 1) (1, 1, 1) none 0 0

def afterLaunch : ThreadSt := (strayLaunch.run.run readyEnv ⟨readySt, 0⟩).2

theorem strayLaunch_run {init : Nat → Prop} {ok : GuestEnv → ThreadSt → RtCall → Prop}
    (hok : ok readyEnv ⟨readySt, 0⟩ strayLaunch) :
    ThreadRun init ok [(strayLaunch, .code 98 none)] afterLaunch :=
  .call readyEnv readySt strayLaunch (.thread readySt) rfl hok

theorem cudaGetLastError_clean_launch :
    (RtCall.cudaGetLastError.run.run readyEnv afterLaunch).1 = some (.code 98 none) := by
  have hclean : strayLaunch.Clean readyEnv ⟨readySt, 0⟩ := fun _ => rfl
  exact (cudaGetLastError_clean (strayLaunch_run hclean)).1 readyEnv

theorem synchronize_returned :
    ((RtCall.forward .cudaDeviceSynchronize).run.run readyEnv
      { afterLaunch with proc := readySt }).1 = some (.code 0 none) := by
  decide +kernel

theorem synchronize_lastError :
    ((RtCall.forward .cudaDeviceSynchronize).run.run readyEnv
      { afterLaunch with proc := readySt }).2.lastError = 0 := by
  decide +kernel

/-- The launch fails, the synchronisation after it succeeds, and no error is left. -/
theorem launchError_erased : ¬∀ tr s e, ThreadRun (fun _ => True) (fun _ _ _ => True) tr s →
    (RtCall.cudaGetLastError.run.run e s).1 = some (.code (recentError tr) none) := by
  intro hall
  have hlaunch : ThreadRun (fun _ => True) (fun _ _ _ => True) [(strayLaunch, .code 98 none)]
      afterLaunch := strayLaunch_run trivial
  have hrun := ThreadRun.call readyEnv readySt (.forward .cudaDeviceSynchronize)
    hlaunch synchronize_returned trivial
  have hcode := hall _ _ readyEnv hrun
  rw [cudaGetLastError_run, synchronize_lastError] at hcode
  exact absurd (Outcome.code.inj (Option.some.inj hcode)).1 (by decide)

end HmCuda
