import HmCuda.Driver.Sizes
import HmCuda.Host.CmdDriver

/-! How long the response payloads are. A handler that succeeds writes no more than the
driver's table allows for its command, but for the text CUDA may answer with. -/

namespace HmCuda
open Layout

def errorTextLen (r : LibRet) : Option Nat := r.str.map fun str => str.length + 1

/-- The length of a device name, with its NUL, in a buffer of `maxLen` bytes. -/
def deviceNameLen (r : LibRet) (maxLen : Nat) : Nat :=
  (if r.code = 0 then (r.str.getD []).take (maxLen - 1) else []).length + 1

/-- The text CUDA answers a command with at `clock`, where the command asks for one and
the calls succeed. -/
def textLen (env : Env) (clock : Nat) (p : Nat → UInt8) : Cmd → Option Nat
  | .rt .getErrorString =>
    errorTextLen (env.ret clock ⟨.cudaGetErrorString, [getErrorStringReq.error.get p], []⟩)
  | .rt .getErrorName =>
    errorTextLen (env.ret clock ⟨.cudaGetErrorName, [getErrorStringReq.error.get p], []⟩)
  | .drv .cuGetErrorString =>
    let r := env.ret clock ⟨.cuGetErrorString, [cuGetErrorStringReq.error.get p], []⟩
    if r.code % 2 ^ 32 = 0 then errorTextLen r else none
  | .drv .cuGetErrorName =>
    let r := env.ret clock ⟨.cuGetErrorName, [cuGetErrorNameReq.error.get p], []⟩
    if r.code % 2 ^ 32 = 0 then errorTextLen r else none
  | .drv .cuDeviceGetName =>
    let maxLen := (positive32 (cuDeviceGetNameReq.nameLen.get p)).getD 256
    let r := env.ret (clock + 1)
      ⟨.cuDeviceGetName, [maxLen, cuDeviceGetNameReq.device.get p], []⟩
    if (env.ret clock ⟨.calloc, [maxLen], []⟩).code = 0 ∧ r.code % 2 ^ 32 = 0 then
      some (deviceNameLen r maxLen)
    else none
  | _ => none

def textCmds : List Cmd :=
  [.rt .getErrorString, .rt .getErrorName, .drv .cuGetErrorString, .drv .cuGetErrorName,
    .drv .cuDeviceGetName]

theorem textLen_none (env : Env) (clock : Nat) (p : Nat → UInt8) {c : Cmd} (h : c ∉ textCmds) :
    textLen env clock p c = none := by
  rcases c with c | c <;> cases c <;> first | rfl | exact absurd (by decide) h

theorem textLen_congr (env : Env) (clock : Nat) {p q : Nat → UInt8} {c : Cmd}
    (h : ∀ a < (c.sizes none).reqSize, p a = q a) :
    textLen env clock p c = textLen env clock q c := by
  by_cases hc : c ∈ textCmds
  swap
  · rw [textLen_none env clock p hc, textLen_none env clock q hc]
  have get (t : CStruct) (i : Nat) (ht : sizeof t ≤ (c.sizes none).reqSize) :
      (field t i).get p = (field t i).get q :=
    Field.get_congr fun a _ ha => h a ((ha.trans_le (stop_le_sizeof t i)).trans_le ht)
  simp only [textCmds, List.mem_cons, List.not_mem_nil, or_false] at hc
  rcases hc with rfl | rfl | rfl | rfl | rfl
  all_goals
    simp only [textLen, getErrorStringReq.error, cuGetErrorStringReq.error,
      cuGetErrorNameReq.error, cuDeviceGetNameReq.nameLen, cuDeviceGetNameReq.device]
    simp (disch := decide) only [get]
  all_goals rfl

theorem reqSize_of_text {c : Cmd} (h : c ∈ textCmds) (p : Option (Nat → UInt8)) :
    (c.sizes p).reqSize = (c.sizes none).reqSize := by
  simp only [textCmds, List.mem_cons, List.not_mem_nil, or_false] at h
  rcases h with rfl | rfl | rfl | rfl | rfl <;> rfl

/-- The predicate does not look at the backend, the request or the record of accesses. -/
def Blind (P : CmdSt → Prop) : Prop :=
  ∀ s be buf touched, P s → P { s with be := be, buf := buf, touched := touched }

namespace Blind
variable {P : CmdSt → Prop}

theorem req (h : Blind P) (f : Field) : Prog.Keeps P (req f) := fun _ s hs => h s _ _ _ hs

theorem peek (h : Blind P) (off len : Nat) : Prog.Keeps P (peek off len) :=
  fun _ s hs => h s _ _ _ hs

theorem poke (h : Blind P) (off : Nat) (bs : List UInt8) : Prog.Keeps P (poke off bs) :=
  fun _ s hs => h s _ _ _ hs

theorem core {α : Type} (h : Blind P) (m : CoreM α) : Prog.Keeps P (core m) :=
  fun _ s hs => h s _ _ _ hs

theorem coreLaunchKernel (h : Blind P) (k : Key) (func : Nat) (grid block : List Nat)
    (sharedMem stream args argsSize : Nat) :
    Prog.Keeps P (coreLaunchKernel k func grid block sharedMem stream args argsSize) := by
  refine Prog.keeps_bind Prog.keeps_get fun s => ?_
  rcases s.be.tab.ctxGet k with _ | c
  · exact Prog.keeps_pure _
  have tail (m : CmdM (List (List UInt8))) (hm : Prog.Keeps P m) (config : List Nat) :
      Prog.Keeps P (do
        let params ← m
        let res ← HmCuda.core (query (lib .cuLaunchKernel config params))
        if res.code ≠ 0 then
          let _ ← HmCuda.core (query (lib .cuGetErrorString [res.code] []))
          return 719
        return 0) :=
    Prog.keeps_bind hm fun _ => Prog.keeps_bind (h.core _) fun _ => Prog.keeps_ite
      (fun _ => Prog.keeps_bind (h.core _) fun _ => Prog.keeps_pure _) fun _ => Prog.keeps_pure _
  have translate : Prog.Keeps P (Prog.forEach (translateArg c args) (List.range (argsSize / 8))) :=
    Prog.keeps_forEach (fun _ => Prog.keeps_bind (h.peek _ _) fun _ =>
      Prog.keeps_ite (fun _ => h.poke _ _) fun _ => Prog.keeps_pure _) _
  refine Prog.keeps_ite (fun _ => Prog.keeps_pure _) fun _ => Prog.keeps_ite (fun _ => ?_) fun _ =>
    tail _ (Prog.keeps_pure []) _
  refine Prog.keeps_bind translate fun _ => Prog.keeps_bind Prog.keeps_ask fun _ => tail _ ?_ _
  exact Prog.keeps_collect (fun _ => h.peek _ _) _

theorem peekStr (h : Blind P) (off : Nat) : Prog.Keeps P (peekStr off) :=
  Prog.keeps_bind Prog.keeps_ask fun _ => Prog.keeps_bind Prog.keeps_get fun _ => h.peek _ _

theorem readDesc (h : Blind P) (i : Nat) : Prog.Keeps P (readDesc i) :=
  Prog.keeps_bind (h.req _) fun _ => Prog.keeps_bind (h.req _) fun _ =>
    Prog.keeps_bind (h.req _) fun _ => Prog.keeps_pure _

end Blind

theorem resp_of_blind {α : Type} {m : CmdM α} (h : ∀ P, Blind P → Prog.Keeps P m) (e : CmdEnv)
    (s : CmdSt) : (m.run e s).2.resp = s.resp ∧ (m.run e s).2.d2h = s.d2h :=
  h (fun t => t.resp = s.resp ∧ t.d2h = s.d2h) (fun _ _ _ _ ht => ht) e s ⟨rfl, rfl⟩

/-- A response of exactly the fixed word and the text CUDA answered with, if it did;
else of at most `n` bytes, where the handler succeeds. -/
def Fills (text : Option Nat) (n : Nat) (s : CmdSt) : Prop :=
  match text with
  | some k => s.err = 0 ∧ s.resp.length = 4 + k
  | none => s.err = 0 → s.resp.length ≤ n

section Resp
variable (e : CmdEnv) (s : CmdSt)

theorem resp_answer (m : CoreM Nat) : ((answer m).run e s).2.resp = s.resp := by rfl

theorem resp_answerWith (t : CStruct) (m : CoreM (Nat × Option Nat)) :
    ((answerWith t m).run e s).2.resp.length = sizeof t := by
  simp only [answerWith, Prog.bind_run, reply_resp, List.append_nil, length_respImage]

theorem resp_answerLib (t : CStruct) (m : QueryM LibRet) :
    ((answerLib t m).run e s).2.resp.length = sizeof t := resp_answerWith e s t _

theorem handleGetErrorText_fills (m : QueryM LibRet) (n : Nat) (h : s.resp = []) :
    Fills (errorTextLen (m.run ⟨e.env, s.be.tab⟩ s.be.dev).1) n
      ((handleGetErrorText m).run e s).2 := by
  unfold handleGetErrorText Fills
  simp only [Prog.bind_run, core_fst, query_fst, errorTextLen]
  rcases (m.run ⟨e.env, s.be.tab⟩ s.be.dev).1.str with _ | str
  · intro _
    simp only [Prog.pure_run, setErr_resp, core_resp, h]
    exact Nat.zero_le n
  · simp only [Prog.bind_run, Prog.ask_run, Prog.get_run, reply_resp, reply_err, setErr_err,
      List.length_append, length_respImage, Option.map_some]
    refine ⟨rfl, ?_⟩
    -- a text that does not fit is answered with as many stale bytes
    split
    · rw [List.length_append]
      rfl
    · rw [List.length_map, List.length_range]
      rfl

theorem handleCuGetErrorText_fills {t : CStruct} (ht : sizeof t = 4) (m : QueryM LibRet)
    {n : Nat} (hn : 4 ≤ n) {r : LibRet} (hr : (m.run ⟨e.env, s.be.tab⟩ s.be.dev).1 = r) :
    Fills (if r.code % 2 ^ 32 = 0 then errorTextLen r else none) n
      ((handleCuGetErrorText t m).run e s).2 := by
  have herr : ((handleCuGetErrorText t m).run e s).2.err = r.code % 2 ^ 32 := by
    subst hr
    unfold handleCuGetErrorText
    simp only [Prog.bind_run, core_fst, query_fst]
    split <;> simp only [reply_err, setErr_err]
  have hlen : ((handleCuGetErrorText t m).run e s).2.resp.length =
      4 + (errorTextLen r).getD 0 := by
    subst hr
    unfold handleCuGetErrorText errorTextLen
    simp only [Prog.bind_run, core_fst, query_fst]
    rcases (m.run ⟨e.env, s.be.tab⟩ s.be.dev).1.str with _ | str
    · simp only [reply_resp, List.append_nil, length_respImage, ht]
      rfl
    · simp only [reply_resp, List.length_append, length_respImage, ht]
      rfl
  unfold Fills
  split
  next k hk =>
    split at hk
    next h0 => exact ⟨herr.trans h0, by rw [hlen, hk, Option.getD_some]⟩
    next => cases hk
  next hk =>
    intro h0
    rw [if_pos (herr.symm.trans h0)] at hk
    rw [hlen, hk, Option.getD_none]
    exact hn

theorem handleCuDeviceGetName_fills {maxLen : Nat}
    (hmax : (positive32 (cuDeviceGetNameReq.nameLen.get s.payload)).getD 256 = maxLen) {r : LibRet}
    (hr : e.env.ret (s.be.dev.clock + 1) ⟨.cuDeviceGetName,
      [maxLen, cuDeviceGetNameReq.device.get s.payload], []⟩ = r) (n : Nat) :
    Fills (if (e.env.ret s.be.dev.clock ⟨.calloc, [maxLen], []⟩).code = 0 ∧ r.code % 2 ^ 32 = 0
      then some (deviceNameLen r maxLen) else none) n (handleCuDeviceGetName.run e s).2 := by
  subst hmax hr
  unfold handleCuDeviceGetName alloc Fills
  simp only [Prog.bind_run, Prog.ite_run, Prog.pure_run, core_fst, query_fst, lib_run, req_fst,
    req_be, decide_eq_true_eq]
  by_cases h0 : (e.env.ret s.be.dev.clock ⟨.calloc,
      [(positive32 (cuDeviceGetNameReq.nameLen.get s.payload)).getD 256], []⟩).code = 0
  · simp only [h0, true_and, if_true, reply_err, reply_resp, setErr_err, lib_run, req_be, core_be,
      query_dev, Prog.bind_run, Prog.pure_run, core_payload, req_payload, Device.step_clock,
      List.length_append, length_respImage]
    split
    next k hk =>
      split at hk
      next h1 =>
        obtain rfl := Option.some.inj hk
        exact ⟨h1, rfl⟩
      next => cases hk
    next hk =>
      intro h1
      rw [if_pos h1] at hk
      cases hk
  · simp only [h0, false_and, if_false]
    intro h2
    cases h2

theorem runtimeHandleCmd_resp {c : RtCmd} (hc : c ∉ [RtCmd.memcpy, .getErrorString, .getErrorName])
    (h : s.resp = []) :
    ((runtimeHandleCmd c).run e s).2.resp.length = (runtimeGetSizes c none).respSize := by
  cases c
  case memcpy | getErrorString | getErrorName => exact absurd (by decide) hc
  case launchKernel =>
    unfold runtimeHandleCmd handleLaunchKernel
    simp only [dim3, Prog.bind_run, Prog.pure_run, key_run, setErr_resp, req_resp,
      (resp_of_blind (fun _ hP => hP.coreLaunchKernel _ _ _ _ _ _ _ _) _ _).1, h]
    rfl
  case registerFatbin =>
    unfold runtimeHandleCmd handleRegisterFatbin
    simp only [Prog.bind_run, Prog.ite_run, key_run]
    split
    all_goals
      rw [resp_answerWith]
      decide
  case registerFunction =>
    unfold runtimeHandleCmd handleRegisterFunction
    simp only [Prog.bind_run, Prog.get_run, key_run]
    split
    · simp only [Prog.bind_run, reply_resp, List.append_nil, length_respImage]
      decide
    · simp only [Prog.ite_run]
      split
      all_goals
        simp only [Prog.bind_run, reply_resp, List.append_nil, length_respImage]
        decide
  all_goals
    simp only [runtimeHandleCmd, dim3, Prog.bind_run, Prog.pure_run, key_run, req_resp, core_resp,
      setErr_resp, resp_answer, resp_answerWith, resp_answerLib, reply_resp, length_replyFilled,
      List.append_nil, length_respImage, h, List.length_nil]
    decide +kernel

theorem driverHandleCmd_resp {c : DrvCmd}
    (hc : c ∉ [DrvCmd.cuMemcpy, .cuMemHostAlloc, .cuDeviceGetName, .cuGetErrorString,
      .cuGetErrorName]) (h : s.resp = []) :
    ((driverHandleCmd c).run e s).2.resp.length = (driverGetSizes c none).respSize := by
  cases c
  case cuMemcpy | cuMemHostAlloc | cuDeviceGetName | cuGetErrorString | cuGetErrorName =>
    exact absurd (by decide) hc
  case cuMemSetAccess =>
    unfold driverHandleCmd handleCuMemSetAccess
    have hdescs (ns : List Nat) :=
      resp_of_blind (fun _ hP => Prog.keeps_collect (fun i => hP.readDesc i) ns)
    simp only [Prog.bind_run, Prog.ite_run, key_run]
    split
    · simp only [req_resp, resp_answer, (hdescs _ _ _).1, core_resp, h]
      rfl
    · simp only [setErr_resp, core_resp, req_resp, h]
      rfl
  all_goals
    simp only [driverHandleCmd, Prog.bind_run, key_run, req_resp, core_resp, setErr_resp,
      resp_answer, resp_answerWith, resp_answerLib, reply_resp, List.append_nil, length_respImage, h,
      List.length_nil]
    decide

theorem dispatchCmd_run (c : Cmd) : ((dispatchCmd c.code).run e s).2 =
    match c with
    | .rt c => ((runtimeHandleCmd c).run e s).2
    | .drv c => ((driverHandleCmd c).run e s).2 := by
  rw [dispatchCmd, Cmd.ofCode_code]
  cases c <;> rfl

theorem dispatchCmd_fills {c : Cmd} (hc : c ∉ [.rt .memcpy, .drv .cuMemcpy, .drv .cuMemHostAlloc])
    (h : s.resp = []) : Fills (textLen e.env s.be.dev.clock s.payload c) (c.sizes none).respSize
      ((dispatchCmd c.code).run e s).2 := by
  rw [dispatchCmd_run]
  cases c with
  | rt c =>
    by_cases hs : c = .getErrorString
    · subst hs
      exact handleGetErrorText_fills e ((req getErrorStringReq.error).run e s).2
        (coreGetErrorString (getErrorStringReq.error.get s.payload)) _ h
    by_cases hn : c = .getErrorName
    · subst hn
      exact handleGetErrorText_fills e ((req getErrorStringReq.error).run e s).2
        (coreGetErrorName (getErrorStringReq.error.get s.payload)) _ h
    have htext : textLen e.env s.be.dev.clock s.payload (.rt c) = none := by
      cases c <;> first | rfl | contradiction
    rw [htext]
    exact fun _ => (runtimeHandleCmd_resp e s (by simp_all) h).le
  | drv c =>
    by_cases hs : c = .cuGetErrorString
    · subst hs
      exact handleCuGetErrorText_fills e _ rfl _ (by decide) rfl
    by_cases hn : c = .cuGetErrorName
    · subst hn
      exact handleCuGetErrorText_fills e _ rfl _ (by decide) rfl
    by_cases hd : c = .cuDeviceGetName
    · subst hd
      exact handleCuDeviceGetName_fills e _ rfl rfl _
    have htext : textLen e.env s.be.dev.clock s.payload (.drv c) = none := by
      cases c <;> first | rfl | contradiction
    rw [htext]
    exact fun _ => (driverHandleCmd_resp e s (by simp_all) h).le

end Resp
end HmCuda
