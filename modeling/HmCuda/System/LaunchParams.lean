import HmCuda.Guest.Process
import HmCuda.System.PinnedLookup
import HmCuda.System.RequestDecoding
import HmCuda.System.Response

/-! The parameters of a kernel launch, from `args` of cudaLaunchKernel to what
cuLaunchKernel reads: 8 bytes of each argument, in consecutive slots that the backend
translates in place. -/

namespace HmCuda
open Layout Ranges

def Context.passed (c : Context) (w : List UInt8) : List UInt8 :=
  if resolveAnyMem c (Bytes.val w) = 0 then w else Bytes.le 8 (resolveAnyMem c (Bytes.val w))

section
variable {e : CmdEnv} {c : Context} {args : Nat}

/-- The slot of argument `i`. -/
def CmdSt.slot (s : CmdSt) (args i : Nat) : List UInt8 :=
  (List.range 8).map fun j => s.buf (payloadOff + (args + 8 * i) + j)

theorem length_passed (c : Context) (s : CmdSt) (args i : Nat) :
    (c.passed (s.slot args i)).length = 8 := by
  unfold Context.passed
  split <;> simp [CmdSt.slot]

theorem translateArg_buf (s : CmdSt) (i a : Nat) : ((translateArg c args i).run e s).2.buf a =
    if payloadOff + (args + 8 * i) ≤ a ∧ a < payloadOff + (args + 8 * i) + 8 then
      (c.passed (s.slot args i)).getD (a - (payloadOff + (args + 8 * i))) 0 else s.buf a := by
  have hslot : (List.range 8).map (fun j => s.buf (payloadOff + (args + 8 * i) + j)) =
      s.slot args i := rfl
  unfold translateArg Context.passed
  simp only [Prog.bind_run, Prog.ite_run, peek, hslot]
  by_cases h0 : resolveAnyMem c (Bytes.val (s.slot args i)) = 0
  · simp only [h0, ne_eq, not_true_eq_false, if_false, if_true, Prog.pure_run]
    split
    next ha =>
      have hj : a - (payloadOff + (args + 8 * i)) < 8 := by omega
      have hback : payloadOff + (args + 8 * i) + (a - (payloadOff + (args + 8 * i))) = a := by omega
      rw [CmdSt.slot, List.getD_eq_getElem _ _ (by simpa using hj)]
      simp [hback]
    next => rfl
  · simp only [h0, ne_eq, not_false_eq_true, if_true, if_false, poke, Prog.modify_run,
      Bytes.length_le]

theorem translateArg_slot (s : CmdSt) (i j : Nat) :
    ((translateArg c args i).run e s).2.slot args j =
      if i = j then c.passed (s.slot args i) else s.slot args j := by
  split
  next h =>
    subst h
    apply List.ext_getElem
    · rw [length_passed]
      simp [CmdSt.slot]
    intro k h1 h2
    have hk : k < 8 := by simpa [CmdSt.slot] using h1
    have hin : payloadOff + (args + 8 * i) ≤ payloadOff + (args + 8 * i) + k ∧
        payloadOff + (args + 8 * i) + k < payloadOff + (args + 8 * i) + 8 := by omega
    have hgot := (translateArg_buf (e := e) (c := c) s i (payloadOff + (args + 8 * i) + k)).trans
      (if_pos hin)
    rw [Nat.add_sub_cancel_left, List.getD_eq_getElem _ _ h2] at hgot
    simpa [CmdSt.slot] using hgot
  next h =>
    apply List.map_congr_left
    intro k hk
    have hk := List.mem_range.mp hk
    exact (translateArg_buf s i _).trans (if_neg (by omega))

theorem translateArg_be (s : CmdSt) (i : Nat) : ((translateArg c args i).run e s).2.be = s.be := by
  unfold translateArg
  simp only [Prog.bind_run, Prog.ite_run]
  split <;> rfl

variable (args) in
theorem translateArgs_run {is : List Nat} (hn : is.Nodup) (s : CmdSt) :
    ((Prog.forEach (translateArg c args) is).run e s).2.be = s.be ∧
      ∀ j, ((Prog.forEach (translateArg c args) is).run e s).2.slot args j =
        if j ∈ is then c.passed (s.slot args j) else s.slot args j := by
  induction is generalizing s with
  | nil => exact ⟨rfl, fun j => (if_neg List.not_mem_nil).symm⟩
  | cons i is ih =>
    obtain ⟨hi, hn⟩ := List.nodup_cons.mp hn
    obtain ⟨h1, h2⟩ := ih hn ((translateArg c args i).run e s).2
    refine ⟨h1.trans (translateArg_be s i), fun j => ?_⟩
    show ((Prog.forEach (translateArg c args) is).run e
      ((translateArg c args i).run e s).2).2.slot args j = _
    rw [h2, translateArg_slot]
    by_cases hj : i = j
    · subst hj
      rw [if_neg hi, if_pos rfl, if_pos List.mem_cons_self]
    · have hmem : (j ∈ i :: is) ↔ j ∈ is := by simp [Ne.symm hj]
      simp only [if_neg hj, hmem]

/-- The bytes at the pointer to parameter `i`. -/
def CmdSt.param (s : CmdSt) (args i sz : Nat) : List UInt8 :=
  (List.range sz).map fun j => s.buf (payloadOff + (args + 8 * i) + j)

theorem take_param (s : CmdSt) (args i sz : Nat) :
    (s.param args i sz).take 8 = (s.slot args i).take sz := by
  rw [CmdSt.param, CmdSt.slot, ← List.map_take, ← List.map_take, List.take_range, List.take_range,
    Nat.min_comm]

variable (args) in
theorem collect_params (ps : List (Nat × Nat)) (s : CmdSt) :
    ((Prog.collect (fun p => peek (args + 8 * p.2) p.1) ps).run e s).1 =
        ps.map (fun p => s.param args p.2 p.1) ∧
      ((Prog.collect (fun p => peek (args + 8 * p.2) p.1) ps).run e s).2.be = s.be ∧
      ((Prog.collect (fun p => peek (args + 8 * p.2) p.1) ps).run e s).2.buf = s.buf := by
  induction ps generalizing s with
  | nil => exact ⟨rfl, rfl, rfl⟩
  | cons p ps ih =>
    obtain ⟨h1, h2, h3⟩ := ih ((peek (args + 8 * p.2) p.1).run e s).2
    refine ⟨?_, h2, h3⟩
    rw [List.map_cons]
    exact congrArg (s.param args p.2 p.1 :: ·) h1

variable (args) in
theorem translateArgs_outside {is : List Nat} {n : Nat} (hn : ∀ i ∈ is, i < n) (s : CmdSt) {a : Nat}
    (ha : a < payloadOff + args ∨ payloadOff + args + 8 * n ≤ a) :
    ((Prog.forEach (translateArg c args) is).run e s).2.buf a = s.buf a := by
  induction is generalizing s with
  | nil => rfl
  | cons i is ih =>
    have hi := hn i List.mem_cons_self
    refine (ih (fun j hj => hn j (List.mem_cons_of_mem _ hj)) _).trans ?_
    exact (translateArg_buf s i a).trans (if_neg (by omega))

/-- What a launch with a resolved function does: the loop over the words of the blob, then
one call, which reads parameter `i` from word `i` on. -/
structure Launches (e : CmdEnv) (c : Context) (func args size : Nat) (config : List Nat)
    (s t : CmdSt) (err : Nat) : Prop where
  words : ∀ i < size / 8, t.slot args i = c.passed (s.slot args i)
  rest : ∀ a, a < payloadOff + args ∨ payloadOff + args + 8 * (size / 8) ≤ a → t.buf a = s.buf a
  call : ∃ after, t.be.dev.calls = s.be.dev.calls ++ ⟨.cuLaunchKernel, config,
      ((e.env.paramSizes (c.resGet .function func)).take (size / 8)).zipIdx.map fun p =>
        t.param args p.2 p.1⟩ :: after ∧
    (err % 2 ^ 32 = 0 → after = [])

variable (args) in
theorem coreLaunchKernel_launches (s : CmdSt) (func sharedMem stream size : Nat)
    (grid block : List Nat) (hc : s.be.tab.ctxGet e.key = some c)
    (hf : c.resGet .function func ≠ 0) :
    Launches e c func args size (c.resGet .function func :: grid ++ block ++
        [sharedMem, resolveRuntimeStream c stream]) s
      ((coreLaunchKernel e.key func grid block sharedMem stream args size).run e s).2
      ((coreLaunchKernel e.key func grid block sharedMem stream args size).run e s).1 := by
  have call (t : CmdSt) (config : List Nat) (params : List (List UInt8)) :
      ∃ u : Nat × CmdSt, (do
        let res ← core (query (lib .cuLaunchKernel config params))
        if res.code ≠ 0 then
          let _ ← core (query (lib .cuGetErrorString [res.code] []))
          return 719
        return 0 : CmdM Nat).run e t = u ∧ u.2.buf = t.buf ∧ ∃ after, u.2.be.dev.calls =
          t.be.dev.calls ++ ⟨.cuLaunchKernel, config, params⟩ :: after ∧
            (u.1 % 2 ^ 32 = 0 → after = []) := by
    refine ⟨_, rfl, ?_⟩
    simp only [Prog.bind_run, Prog.ite_run]
    split
    · exact ⟨rfl, _, List.append_assoc _ _ _, fun h => absurd h (by simp)⟩
    · exact ⟨rfl, [], rfl, fun _ => rfl⟩
  unfold coreLaunchKernel
  simp only [Prog.bind_run, Prog.get_run]
  simp only [hc, Prog.ite_run]
  rw [if_neg hf]
  generalize c.resGet .function func :: grid ++ block ++
    [sharedMem, resolveRuntimeStream c stream] = config
  rcases Nat.eq_zero_or_pos size with rfl | hpos
  -- without arguments nothing is translated
  · simp only [gt_iff_lt, lt_irrefl, if_false]
    rw [Prog.bind_run]
    obtain ⟨u, hu, hbuf, after, hcalls, hafter⟩ := call s config []
    rw [Prog.pure_run, hu]
    refine ⟨fun i hi => absurd hi (by simp), fun a _ => congrFun hbuf a, after, ?_, hafter⟩
    rw [Nat.zero_div, List.take_zero]
    exact hcalls
  simp only [gt_iff_lt, if_pos hpos]
  rw [Prog.bind_run, Prog.bind_run, Prog.bind_run, Prog.ask_run, readParams]
  obtain ⟨hbe, hslots⟩ := translateArgs_run (e := e) (c := c) args
    (List.nodup_range (n := size / 8)) s
  have houtside (a : Nat) := translateArgs_outside (e := e) (c := c) args (a := a)
    (fun i hi => List.mem_range.mp hi : ∀ i ∈ List.range (size / 8), i < size / 8) s
  generalize (Prog.forEach (translateArg c args) (List.range (size / 8))).run e s = t at *
  -- CUDA reads the parameters after every slot has been translated
  obtain ⟨hread, hkept, hsame⟩ := collect_params (e := e) args
    ((e.env.paramSizes (c.resGet .function func)).take (size / 8)).zipIdx t.2
  generalize (Prog.collect _ _).run e t.2 = r at *
  obtain ⟨u, hu, hbuf, after, hcalls, hafter⟩ := call r.2 config r.1
  rw [hu]
  have hbuf := hbuf.trans hsame
  have hparam (i sz : Nat) : u.2.param args i sz = t.2.param args i sz := by
    rw [CmdSt.param, CmdSt.param, hbuf]
  have hslot (i : Nat) : u.2.slot args i = t.2.slot args i := by rw [CmdSt.slot, CmdSt.slot, hbuf]
  refine ⟨fun i hi => ?_, fun a ha => ?_, after, ?_, hafter⟩
  · rw [hslot, hslots, if_pos (List.mem_range.mpr hi)]
  · rw [hbuf]
    exact houtside a ha
  · simp only [hparam]
    rw [hcalls, hread, hkept, hbe]

/-- A launch that is answered 0 has made one call, whose parameters begin with the
translated slots. -/
theorem coreLaunchKernel_call (s : CmdSt) {func sharedMem stream n : Nat} {grid block : List Nat}
    (hc : s.be.tab.ctxGet e.key = some c)
    (hsizes : (e.env.paramSizes (c.resGet .function func)).length = n)
    (h0 : ((coreLaunchKernel e.key func grid block sharedMem stream args (n * 8)).run e s).1 %
      2 ^ 32 = 0) :
    ∃ config params, ((coreLaunchKernel e.key func grid block sharedMem stream args
        (n * 8)).run e s).2.be.dev.calls = s.be.dev.calls ++ [⟨.cuLaunchKernel, config, params⟩] ∧
      params.length = n ∧ ∀ i sz, (e.env.paramSizes (c.resGet .function func))[i]? = some sz →
        ∃ bs, params[i]? = some bs ∧ bs.length = sz ∧
          bs.take 8 = (c.passed (s.slot args i)).take sz := by
  have hf : c.resGet .function func ≠ 0 := by
    intro hf
    unfold coreLaunchKernel at h0
    simp only [Prog.bind_run, Prog.get_run] at h0
    simp only [hc, Prog.ite_run] at h0
    rw [if_pos hf] at h0
    exact absurd h0 (by simp)
  obtain ⟨hwords, -, after, hcalls, hafter⟩ := coreLaunchKernel_launches args s func sharedMem
    stream (n * 8) grid block hc hf
  rw [Nat.mul_div_cancel _ (by decide)] at hwords hcalls
  rw [hafter h0] at hcalls
  generalize (coreLaunchKernel e.key func grid block sharedMem stream args (n * 8)).run e s = out
    at *
  refine ⟨_, _, hcalls, by simp [hsizes], fun i sz hi => ?_⟩
  have hlt : i < n := hsizes ▸ (List.getElem?_eq_some_iff.mp hi).1
  refine ⟨out.2.param args i sz, ?_, by simp [CmdSt.param], ?_⟩
  · rw [List.getElem?_map, List.getElem?_zipIdx, List.getElem?_take_of_lt hlt, hi]
    simp
  · rw [take_param, hwords i hlt]

theorem handleLaunchKernel_run (s : CmdSt) : ∃ t, handleLaunchKernel.run e s = (do
    setErr (← coreLaunchKernel e.key (launchKernelReq.func.get s.payload)
      ((List.range 3).map fun i => (launchKernelReq.gridDim i).get s.payload)
      ((List.range 3).map fun i => (launchKernelReq.blockDim i).get s.payload)
      (launchKernelReq.sharedMem.get s.payload) (launchKernelReq.stream.get s.payload)
      (sizeof launchKernelReq) (launchKernelReq.argsSize.get s.payload)) : CmdM Unit).run e
        { s with touched := t } := by
  have hreq (f : Field) (u : CmdSt) : (req f).run e u = (f.get u.payload,
      { u with touched := u.touched ++ [(payloadOff + f.off, f.size)] }) := rfl
  have hpay (u : CmdSt) (t : List (Nat × Nat)) : ({ u with touched := t } : CmdSt).payload =
      u.payload := rfl
  have hkey (u : CmdSt) : key.run e u = (e.key, u) := rfl
  unfold handleLaunchKernel dim3
  simp only [Prog.bind_run, Prog.pure_run, hreq, hpay, hkey]
  exact ⟨_, rfl⟩

theorem handleLaunchKernel_call {s : CmdSt} {func n : Nat} (hc : s.be.tab.ctxGet e.key = some c)
    (hfunc : launchKernelReq.func.get s.payload = func)
    (hcount : launchKernelReq.argsSize.get s.payload = n * 8)
    (hsizes : (e.env.paramSizes (c.resGet .function func)).length = n)
    (h0 : (handleLaunchKernel.run e s).2.err % 2 ^ 32 = 0) :
    ∃ config params, (handleLaunchKernel.run e s).2.be.dev.calls =
        s.be.dev.calls ++ [⟨.cuLaunchKernel, config, params⟩] ∧
      params.length = n ∧ ∀ i sz, (e.env.paramSizes (c.resGet .function func))[i]? = some sz →
        ∃ bs, params[i]? = some bs ∧ bs.length = sz ∧
          bs.take 8 = (c.passed (s.slot (sizeof launchKernelReq) i)).take sz := by
  obtain ⟨t, hrun⟩ := handleLaunchKernel_run (e := e) s
  rw [hfunc, hcount] at hrun
  rw [hrun] at h0 ⊢
  exact coreLaunchKernel_call { s with touched := t } hc hsizes ((Nat.mod_mod _ _).symm.trans h0)

end

/-! What the caller of the ioctl sees -/

section
variable {e : DrvEnv} {c : Cmd} {n m : Nat} {img : Nat → UInt8}

theorem answered_seen (h : Sent e c n m img) (s : DrvSt) (evs : List Ev) :
    (s.answered e c n m img evs).seen e.caller =
      (plainServed e c n m (s.showing e img)).err % 2 ^ 32 := by
  unfold DrvSt.seen DrvSt.answered Machine.deliver
  simp only [plainServed_writes h, applyWrites, List.foldl_cons, List.foldl_nil, take_respBytes]
  exact cudaError_write _ _ _ _ _

theorem served_of_ret {buf : Nat → UInt8} (h : Sent e c n 0 img) (hm : ¬isMemcpy c.code) (s : DrvSt)
    (hret : (dispatchResult buf 0 (hmcudaIoctl.run e s).1).ret = some 0) :
    (plainServed e c n 0 (s.showing e img)).err % 2 ^ 32 = 0 := by
  obtain ⟨evs, hst, hres⟩ := hmcudaIoctl_answered h hm s
  have hlen : add64 (sizeof respHeader) 0 = sizeof respHeader := by decide
  by_cases hcopy : e.copyOut = true
  · rw [if_pos hcopy, hlen] at hres
    rw [← answered_seen h s evs, ← hst, ← cudaError_answered buf]
    rw [dispatchResult, hres] at hret
    by_contra hne
    simp [hne] at hret
  · rw [if_neg hcopy] at hres
    rw [dispatchResult, hres] at hret
    simp [efault] at hret

end

theorem plainReply_launch (e : DrvEnv) (n m : Nat) (M : Machine) :
    (plainReply e (.rt .launchKernel) n m M).2 = (handleLaunchKernel.run
      (cmdEnv e.sys e.key (plainElem e n m)) (cmdStart e.sys (plainElem e n m) M)).2 := by
  rw [plainReply, dispatchCmd, Cmd.ofCode_code]
  rfl

section
variable {d : DrvEnv} {t : Transport} {stack left : Nat → UInt8} {s : DrvSt} {c : Context}
  {func sharedMem stream k : Nat} {grid block : Nat × Nat × Nat} {args : Option (Nat → Nat → UInt8)}

theorem launch_called {r : VarReq}
    (hreq : r = .launchKernel func grid block sharedMem stream k args) (hr : r.Fits)
    (hready : (r.call t stack left).ready) (halloc : ∀ b, d.kmalloc b = true)
    (harg : d.arg + dispatchLen (r.payload left).length r.respLen ≤ taskSize)
    (htaken : d.addSgs 0 = none) (hc : s.m.tab.ctxGet d.key = some c)
    (hsizes : (d.sys.paramSizes (c.resGet .function func)).length = k)
    (hret : ((r.call t stack left).dispatch.run d s).1.ret = some 0) :
    ∃ config params, ((r.call t stack left).dispatch.run d s).2.m.dev.calls =
        s.m.dev.calls ++ [⟨.cuLaunchKernel, config, params⟩] ∧
      params.length = k ∧ ∀ i sz, (d.sys.paramSizes (c.resGet .function func))[i]? = some sz →
        ∃ bs, params[i]? = some bs ∧ bs.length = sz ∧
          bs.take 8 = (c.passed (argWord args i)).take sz := by
  obtain ⟨img, hsent, himg⟩ := hr.sent left t stack halloc harg htaken
  have hlen : (r.element d left).reqLen = sizeof reqHeader + (r.payload left).length := hsent.reqLen
  have hp (a : Nat) (ha : a < (r.payload left).length) := VarReq.Sent.payload_cmdStart hsent himg s ha
  obtain ⟨evs, hst, -⟩ := hmcudaIoctl_answered hsent r.cmd.not_isMemcpy s
  rw [Call.dispatch_run hready] at hret ⊢
  rw [hst]
  have hdec := hr.decodedBy left hlen hp (e := cmdEnv d.sys d.key (r.element d left))
  subst hreq
  have hfunc := hdec.members 0 func rfl
  have hcount := hdec.count
  have hslot := hdec.tail
  have h0 := served_of_ret hsent (VarReq.cmd _).not_isMemcpy s hret
  rw [plainServed, respond, if_pos rfl] at h0
  have h0 := h0
  simp only [VarReq.cmd, VarCmd.cmd, plainReply_launch] at h0
  obtain ⟨config, params, hcalls, hlength, hparams⟩ :=
    handleLaunchKernel_call (e := cmdEnv d.sys d.key _) hc hfunc hcount hsizes h0
  refine ⟨config, params, ?_, hlength, fun i sz hi => ?_⟩
  · show (plainReply _ (.rt .launchKernel) _ _ _).2.be.dev.calls = _
    rw [plainReply_launch]
    exact hcalls
  · obtain ⟨bs, h1, h2, h3⟩ := hparams i sz hi
    have hlt : i < k := hsizes ▸ (List.getElem?_eq_some_iff.mp hi).1
    refine ⟨bs, h1, h2, ?_⟩
    rw [h3]
    exact congrArg (fun w => (c.passed w).take sz) (hslot i hlt)

end

/-! Which words are translated -/

/-- What a slot with the word `w` holds at the launch: an address in a pinned buffer becomes
the backend's, unless device memory lies there; any other word stays as it is. -/
structure SlotRule (c : Context) (w w' : List UInt8) : Prop where
  pinned : ∀ r ∈ c.resources .hostMem, Inside Resource.handle Resource.size r (Bytes.val w) →
    (¬∃ d ∈ c.resources .mem, Inside Resource.handle Resource.size d (Bytes.val w)) →
      w' = Bytes.le 8 (r.realPtr + (Bytes.val w - r.handle))
  other : ((∃ d ∈ c.resources .mem, Inside Resource.handle Resource.size d (Bytes.val w)) ∨
    ∀ r ∈ c.resources .hostMem, ¬Inside Resource.handle Resource.size r (Bytes.val w)) → w' = w

section
variable {c : Context} {w : List UInt8} {a : Nat}

theorem resGet_hostMem_outside (h : Placed c)
    (ha : ∀ r ∈ c.resources .hostMem, ¬Inside Resource.handle Resource.size r a) :
    c.resGet .hostMem a = 0 := by
  have hfind : c.resFind .hostMem a = none := by
    rw [Context.resFind, List.find?_congr fun x hx => covers_eq rfl (h.key x hx).2 a,
      List.find?_eq_none]
    intro r hr
    simpa using ha r hr
  rw [c.resGet_eq, hfind]
  rfl

theorem passed_rule (h : Placed c) (hid : ∀ r ∈ c.resources .mem, r.handle = r.realPtr)
    (hw : w.length = 8) : SlotRule c w (c.passed w) := by
  have hback : Bytes.le 8 (Bytes.val w) = w := by
    rw [← hw]
    exact Bytes.le_val w
  unfold Context.passed resolveAnyMem
  constructor
  · intro r hr hin hno
    have hp := (h.pointer r hr).1
    simp only [resGet_mem_outside h hno, ne_eq, not_true_eq_false, if_false,
      resGet_hostMem h hr hin]
    rw [if_neg (by omega)]
  · intro hcase
    by_cases hd : ∃ d ∈ c.resources .mem, Inside Resource.handle Resource.size d (Bytes.val w)
    · rw [resGet_mem_inside h.device hid hd]
      by_cases h0 : Bytes.val w = 0
      · -- no pinned buffer is at NULL
        have hnull : c.resGet .hostMem 0 = 0 := resGet_hostMem_outside h fun r hr hin =>
          (h.key r hr).1 (Nat.le_zero.mp hin.1)
        simp [h0, hnull]
      · simp only [ne_eq, h0, not_false_eq_true, if_true, if_false, hback]
    · have hout := resGet_hostMem_outside h (hcase.resolve_left hd)
      simp [resGet_mem_outside h hd, hout]

end

/-! The call of the library -/

/-- The words cudaLaunchKernel looks up in the registry of pinned buffers. -/
def launchPtrs (a : Nat → Nat → UInt8) (k : Nat) : List Nat :=
  (List.range k).map fun i => Bytes.val (argWord (some a) i)

def GuestSt.launching (env : GuestEnv) (g : GuestSt) (a : Nat → Nat → UInt8) (k : Nat) : GuestSt :=
  ((syncArgs (launchPtrs a k)).run env g).2

section
variable {env : GuestEnv} {g : GuestSt} {func sharedMem stream : Nat} {grid block : Nat × Nat × Nat}
  {a : Nat → Nat → UInt8} {fi : FuncInfo}

theorem marks_drv (ptrs : List Nat) :
    ((Prog.forEach markGpuDirty ptrs).run env g).2.drv = g.drv := by
  induction ptrs generalizing g with
  | nil => rfl
  | cons p ptrs ih => exact ih

theorem cudaLaunchKernel_sent (hf : g.funcs func = some fi)
    (hret : ((cudaLaunchKernel func grid block (some a) sharedMem stream).run env g).1 = some 0) :
    ∃ r, r = VarReq.launchKernel fi.handle grid block sharedMem stream fi.paramCount (some a) ∧
      ((r.call (g.launching env a fi.paramCount).transport
        (env.stack (g.launching env a fi.paramCount).sent.length) fun _ => 0).dispatch.run
          (env.drv (g.launching env a fi.paramCount).sent.length)
          (g.launching env a fi.paramCount).drv).1.ret = some 0 ∧
      ((cudaLaunchKernel func grid block (some a) sharedMem stream).run env g).2.drv =
        ((r.call (g.launching env a fi.paramCount).transport
          (env.stack (g.launching env a fi.paramCount).sent.length) fun _ => 0).dispatch.run
            (env.drv (g.launching env a fi.paramCount).sent.length)
            (g.launching env a fi.paramCount).drv).2 := by
  refine ⟨_, rfl, ?_⟩
  unfold cudaLaunchKernel at hret ⊢
  simp only [Prog.bind_run, Prog.get_run] at hret ⊢
  simp only [hf, Option.isSome_some, if_true, Prog.bind_run] at hret ⊢
  unfold GuestSt.launching launchPtrs
  generalize (syncArgs ((List.range fi.paramCount).map fun i =>
    Bytes.val (argWord (some a) i))).run env g = p at hret ⊢
  obtain ⟨o, g'⟩ := p
  rcases o with _ | ⟨⟨⟩⟩
  · simp at hret
  generalize hr : VarReq.launchKernel fi.handle grid block sharedMem stream fi.paramCount (some a) =
    r at hret ⊢
  have hsend : (dispatch r.cmd.cmd (r.payload fun _ => 0) r.respLen).run env g' =
      (((r.call g'.transport (env.stack g'.sent.length) fun _ => 0).dispatch.run
        (env.drv g'.sent.length) g'.drv).1,
        { g' with
          drv := ((r.call g'.transport (env.stack g'.sent.length) fun _ => 0).dispatch.run
            (env.drv g'.sent.length) g'.drv).2
          sent := g'.sent ++ [⟨r.cmd.cmd, r.payload fun _ => 0⟩] }) := rfl
  simp only [Prog.bind_run, hsend, Prog.ite_run, Prog.pure_run] at hret ⊢
  split at hret
  next hsome =>
    rw [if_pos hsome]
    exact ⟨hret, marks_drv _⟩
  next hnone =>
    rw [if_neg hnone]
    exact ⟨hret, rfl⟩

/-- A launch of a registered kernel by a process whose request reaches the backend: the
arguments have their C types, and the kernel has as many parameters as were registered. -/
structure LaunchCall (env : GuestEnv) (g : GuestSt) (fi : FuncInfo) (grid block : Nat × Nat × Nat)
    (a : Nat → Nat → UInt8) (sharedMem stream : Nat) (e : DrvEnv) (s : DrvSt) (c : Context) :
    Prop where
  fits : (VarReq.launchKernel fi.handle grid block sharedMem stream fi.paramCount (some a)).Fits
  opened : (g.launching env a fi.paramCount).transport.rpc = false ∧
    (g.launching env a fi.paramCount).transport.opened = true
  meets : e = env.drv (g.launching env a fi.paramCount).sent.length
  state : s = (g.launching env a fi.paramCount).drv
  alloc : ∀ b, e.kmalloc b = true
  arg : e.arg + dispatchLen (sizeof launchKernelReq + fi.paramCount * 8) 0 ≤ taskSize
  taken : e.addSgs 0 = none
  session : s.m.tab.ctxGet e.key = some c
  placed : Placed c
  identity : ∀ r ∈ c.resources .mem, r.handle = r.realPtr
  sizes : (e.sys.paramSizes (c.resGet .function fi.handle)).length = fi.paramCount

/-- When cudaLaunchKernel succeeds, one cuLaunchKernel has been made. What it reads for a
parameter begins with the argument's bytes, up to 8 of them, where a word in a pinned
buffer is translated whatever its parameter is. -/
theorem cudaLaunchKernel_params {e : DrvEnv} {s : DrvSt} {c : Context} (hf : g.funcs func = some fi)
    (h : LaunchCall env g fi grid block a sharedMem stream e s c)
    (hret : ((cudaLaunchKernel func grid block (some a) sharedMem stream).run env g).1 = some 0) :
    ∃ config params,
      ((cudaLaunchKernel func grid block (some a) sharedMem stream).run env g).2.drv.m.dev.calls =
        s.m.dev.calls ++ [⟨.cuLaunchKernel, config, params⟩] ∧
      params.length = fi.paramCount ∧
      ∀ i sz, (e.sys.paramSizes (c.resGet .function fi.handle))[i]? = some sz →
        ∃ bs w, params[i]? = some bs ∧ bs.length = sz ∧ SlotRule c (argWord (some a) i) w ∧
          bs.take 8 = w.take sz := by
  obtain ⟨hfits, hopen, rfl, rfl, halloc, harg, htaken, hc, hp, hid, hsizes⟩ := h
  obtain ⟨r, hr, hret', hdrv⟩ := cudaLaunchKernel_sent hf hret
  have hlen : (r.payload fun _ => 0).length = sizeof launchKernelReq + fi.paramCount * 8 := by
    rw [VarReq.length_payload, hr]
    exact congrArg (sizeof launchKernelReq + ·) (Nat.mul_one _)
  rw [← hr] at hfits
  obtain ⟨config, params, hcalls, hlength, hparams⟩ := launch_called hr hfits
    hopen halloc (by rw [hlen, hr]; exact harg) htaken hc hsizes hret'
  refine ⟨config, params, ?_, hlength, fun i sz hi => ?_⟩
  · rw [hdrv]
    exact hcalls
  · obtain ⟨bs, h1, h2, h3⟩ := hparams i sz hi
    exact ⟨bs, _, h1, h2, passed_rule hp hid (by simp [argWord]), h3⟩

end

/-! A kernel with one parameter of 16 bytes -/

def structEnv : GuestEnv :=
  { drv := fun _ => .quiet { Env.quiet with paramSizes := fun _ => [16] } fun _ _ => 0
    stack := fun _ _ => 0
    left := fun _ _ => 0
    rpc := false
    opens := fun _ => true }

def structTables : Tables :=
  (Tables.start.ctxCreate ⟨1, 1⟩).resAddWithHandle ⟨1, 1⟩ .function 0x2000 0 0x1000

def structGuest : GuestSt :=
  { GuestSt.start { DrvSt.start fun _ _ => 0 with
      m := { Machine.start fun _ _ => 0 with tab := structTables } } with
    transport := ⟨false, true⟩
    funcs := fun f => if f = 0x1000 then some ⟨0x1000, 1⟩ else none }

def structArgs : Nat → Nat → UInt8 := fun _ j => UInt8.ofNat (j + 1)

theorem structGuest_call : ∃ c, LaunchCall structEnv structGuest ⟨0x1000, 1⟩ (1, 1, 1) (1, 1, 1)
    structArgs 0 0 (structEnv.drv 0) structGuest.drv c := by
  have hno (t : ResType) (h : t ≠ .function) : ((⟨⟨1, 1⟩, fun _ => []⟩ : Context).push .function
      ⟨0x1000, 0x2000, 0⟩).resources t = [] := by
    rw [Context.push_resources, if_neg h]
  have hmembers : ∀ i < 10, (VarReq.launchKernel 0x1000 (1, 1, 1) (1, 1, 1) 0 0 1
      (some structArgs)).members.getD i 0 < 256 ^ (field launchKernelReq i).size := by decide
  refine ⟨(⟨⟨1, 1⟩, fun _ => []⟩ : Context).push .function ⟨0x1000, 0x2000, 0⟩,
    ⟨fun i v hv => ?_, by decide, trivial⟩, by decide +kernel, rfl, rfl, fun _ => rfl,
    Nat.le_of_ble_eq_true rfl, rfl, rfl, ⟨?_, ?_, ?_, ?_⟩, ?_, rfl⟩
  · have hi : i < 10 := (List.getElem?_eq_some_iff.mp hv).1
    have h := hmembers i hi
    rw [List.getD_eq_getElem?_getD, hv] at h
    exact h
  · rw [hno _ (by decide)]
    simp
  · rw [hno _ (by decide)]
    exact List.Pairwise.nil
  all_goals
    rw [hno _ (by decide)]
    simp

theorem cudaLaunchKernel_params_struct : ∃ config params,
    ((cudaLaunchKernel 0x1000 (1, 1, 1) (1, 1, 1) (some structArgs) 0 0).run structEnv
      structGuest).2.drv.m.dev.calls = [] ++ [⟨.cuLaunchKernel, config, params⟩] ∧
      params.length = 1 := by
  obtain ⟨c, h⟩ := structGuest_call
  have hf : structGuest.funcs 0x1000 = some ⟨0x1000, 1⟩ := rfl
  obtain ⟨config, params, h1, h2, -⟩ := cudaLaunchKernel_params hf h (by decide +kernel)
  exact ⟨config, params, h1, h2⟩

/-- The struct's second half is not passed: the kernel reads what lies behind the slot. -/
theorem cudaLaunchKernel_struct :
    ((cudaLaunchKernel 0x1000 (1, 1, 1) (1, 1, 1) (some structArgs) 0 0).run structEnv
      structGuest).1 = some 0 ∧
    ((cudaLaunchKernel 0x1000 (1, 1, 1) (1, 1, 1) (some structArgs) 0 0).run structEnv
      structGuest).2.drv.m.dev.calls.map (·.data) = [[[1, 2, 3, 4, 5, 6, 7, 8] ++
        List.replicate 8 0]] ∧
    (List.range 16).map (structArgs 0) ≠ [1, 2, 3, 4, 5, 6, 7, 8] ++ List.replicate 8 0 := by
  refine ⟨by decide +kernel, by decide +kernel, by decide⟩

end HmCuda
