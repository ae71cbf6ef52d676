import HmCuda.Host.TableOps
import HmCuda.System.CopyLaw

/-! The elements of the virtqueue: which of them the backend returns, the length it reports
for each, and what it has written into the element's descriptors by then. -/

namespace HmCuda
open Layout

/-- An element that was returned, with the length reported for it. -/
structure Pushed where
  elem : Elem
  used : Nat
  written : Nat
  deriving DecidableEq, Repr

/-- A backend and its queue; the lists are history. -/
structure Queue where
  m : Machine
  popped : List Elem
  pushed : List Pushed

def accepted (f : Chunk → QueryM Nat) (q : QEnv) : List Chunk → Device → List Chunk
  | [], _ => []
  | ch :: cs, d =>
    if ((f ch).run q d).1 = 0 then ch :: accepted f q cs ((f ch).run q d).2 else []

def Elem.output (env : Env) (el : Elem) (m : Machine) : Option (MemCmd × MemReq) :=
  let r := memReq (cmdStart env el m).payload
  match el.cmd m with
  | some (.rt .memcpy) => if r.kind = 2 ∧ r.dst = 0 then some (.memcpy, r) else none
  | some (.drv .cuMemcpy) => if r.kind = 2 then some (.cuMemcpy, r) else none
  | _ => none

/-- The chunk has been moved: the CPU copied it, or its copy has left the engine. -/
def Moved (c : Context) (r : MemReq) (m : Machine) (ch : Chunk) : Prop :=
  c.resGet .mem (add64 r.src ch.off) ≠ 0 →
    Dir.dtoh.copy (c.resGet .mem (add64 r.src ch.off)) (resolveStream c r.stream) ch ∉
      m.dev.eng.pending

instance (c : Context) (r : MemReq) (m : Machine) (ch : Chunk) : Decidable (Moved c r m ch) :=
  inferInstanceAs (Decidable (_ → _))

/-- How many bytes of its data the element holds when it is served from `m` to `m'`. -/
def dataWritten (k : Key) (env : Env) (el : Elem) (m m' : Machine) : Nat :=
  match el.output env m, m.tab.ctxGet k with
  | some (cmd, r), some c =>
    if 2 ≤ el.inSg.length ∧ r.count ≤ sum64 (el.inSg.dropLast.map (·.len)) then
      let cs := accepted (chunkStep cmd .dtoh k r.src r.stream) ⟨env, m.tab⟩
        (chunks r.count el.inSg.dropLast) m.dev
      ((cs.filter fun ch => Moved c r m' ch).map (·.len)).sum
    else 0
  | _, _ => 0

def Served.written (s : Served) : Nat := (s.writes.map (·.bytes.length)).sum

/-- One turn of the loop of `hmcuda_process_vq`. -/
def Queue.pop (q : Queue) (k : Key) (env : Env) (el : Elem) : Queue :=
  let r := (processElem k el).run env q.m
  { m := r.2
    popped := q.popped ++ [el]
    pushed := q.pushed ++ (r.1.map fun s =>
      ⟨el, s.pushLen, s.written + dataWritten k env el q.m r.2⟩).toList }

def replyLen (env : Env) (clock : Nat) (p : Nat → UInt8) : Cmd → Nat
  | .rt .getErrorString => (textLen env clock p (.rt .getErrorString)).elim 0 (4 + ·)
  | .rt .getErrorName => (textLen env clock p (.rt .getErrorName)).elim 0 (4 + ·)
  | .drv .cuGetErrorString => 4 + (errorTextLen
      (env.ret clock ⟨.cuGetErrorString, [cuGetErrorStringReq.error.get p], []⟩)).getD 0
  | .drv .cuGetErrorName => 4 + (errorTextLen
      (env.ret clock ⟨.cuGetErrorName, [cuGetErrorNameReq.error.get p], []⟩)).getD 0
  | .drv .cuDeviceGetName =>
    let maxLen := (positive32 (cuDeviceGetNameReq.nameLen.get p)).getD 256
    if (env.ret clock ⟨.calloc, [maxLen], []⟩).code = 0 then
      4 + deviceNameLen (env.ret (clock + 1)
        ⟨.cuDeviceGetName, [maxLen, cuDeviceGetNameReq.device.get p], []⟩) maxLen
    else 0
  | c => (c.sizes none).respSize

section
variable {e : CmdEnv} {s : CmdSt}

theorem handleGetErrorText_len (m : QueryM LibRet) (h : s.resp = []) :
    ((handleGetErrorText m).run e s).2.resp.length =
      (errorTextLen (m.run ⟨e.env, s.be.tab⟩ s.be.dev).1).elim 0 (4 + ·) := by
  have hf := handleGetErrorText_fills e s m 0 h
  rcases htext : (m.run ⟨e.env, s.be.tab⟩ s.be.dev).1.str with _ | str
  · unfold handleGetErrorText errorTextLen
    simp only [Prog.bind_run, core_fst, query_fst, htext, Prog.pure_run, setErr_resp, core_resp, h]
    rfl
  · rw [errorTextLen, htext] at hf ⊢
    exact hf.2

theorem handleCuGetErrorText_len {t : CStruct} (ht : sizeof t = 4) (m : QueryM LibRet) :
    ((handleCuGetErrorText t m).run e s).2.resp.length =
      4 + (errorTextLen (m.run ⟨e.env, s.be.tab⟩ s.be.dev).1).getD 0 := by
  unfold handleCuGetErrorText errorTextLen
  simp only [Prog.bind_run, core_fst, query_fst]
  rcases (m.run ⟨e.env, s.be.tab⟩ s.be.dev).1.str with _ | str
  · simp only [reply_resp, List.append_nil, length_respImage, ht]
    rfl
  · simp only [reply_resp, List.length_append, length_respImage, ht]
    rfl

theorem handleCuDeviceGetName_len (h : s.resp = []) : (handleCuDeviceGetName.run e s).2.resp.length =
    replyLen e.env s.be.dev.clock s.payload (.drv .cuDeviceGetName) := by
  unfold handleCuDeviceGetName alloc replyLen
  simp only [Prog.bind_run, Prog.ite_run, Prog.pure_run, core_fst, query_fst, lib_run, req_fst,
    req_be, decide_eq_true_eq]
  split
  · simp only [reply_resp, lib_run, req_be, core_be, query_dev, Prog.bind_run, Prog.pure_run,
      core_payload, req_payload, Device.step_clock, List.length_append, length_respImage]
    rfl
  · simp only [setErr_resp, core_resp, req_resp, h]
    rfl

theorem dispatchCmd_len (c : Cmd) (h : s.resp = []) (hd : s.d2h = false) :
    ((dispatchCmd c.code).run e s).2.resp.length =
      replyLen e.env s.be.dev.clock s.payload c := by
  by_cases hcopy : ∃ cc : CopyCmd, cc.cmd = c
  · obtain ⟨cc, rfl⟩ := hcopy
    rw [(cc.dispatch_ran hd).2.resp, h]
    cases cc <;> rfl
  rw [dispatchCmd_run]
  rcases c with c | c
  · cases c
    case memcpy => exact absurd ⟨.memcpy, rfl⟩ hcopy
    case getErrorString | getErrorName =>
      exact handleGetErrorText_len (s := ((req getErrorStringReq.error).run e s).2) _ h
    all_goals exact runtimeHandleCmd_resp e s (by decide) h
  · cases c
    case cuMemcpy => exact absurd ⟨.cuMemcpy, rfl⟩ hcopy
    case cuMemHostAlloc => exact absurd ⟨.cuMemHostAlloc, rfl⟩ hcopy
    case cuDeviceGetName => exact handleCuDeviceGetName_len h
    case cuGetErrorString | cuGetErrorName => exact handleCuGetErrorText_len rfl _
    all_goals exact driverHandleCmd_resp e s (by decide) h

end

/-! Only the copies to the host mark their response -/

theorem runtimeHandleCmd_d2h {c : RtCmd} (hc : c ≠ .memcpy) (e : CmdEnv) (s : CmdSt) :
    ((runtimeHandleCmd c).run e s).2.d2h = s.d2h := by
  cases c
  case memcpy => exact absurd rfl hc
  case launchKernel =>
    unfold runtimeHandleCmd handleLaunchKernel
    simp only [dim3, Prog.bind_run, Prog.pure_run, key_run, setErr_d2h, req_d2h,
      (resp_of_blind (fun _ hP => hP.coreLaunchKernel _ _ _ _ _ _ _ _) _ _).2]
  case registerFatbin =>
    unfold runtimeHandleCmd handleRegisterFatbin
    simp only [Prog.bind_run, Prog.ite_run, key_run]
    split <;> rfl
  case registerFunction =>
    unfold runtimeHandleCmd handleRegisterFunction
    simp only [Prog.bind_run, Prog.get_run, key_run]
    split
    · rfl
    · simp only [Prog.ite_run]
      split
      · rfl
      · simp only [Prog.bind_run, reply_d2h, setErr_d2h, core_d2h, req_d2h,
          (resp_of_blind (fun _ hP => hP.peekStr _) _ _).2]
  case getErrorString | getErrorName =>
    unfold runtimeHandleCmd handleGetErrorText
    simp only [Prog.bind_run]
    split <;> rfl
  all_goals rfl

theorem driverHandleCmd_d2h {c : DrvCmd} (hc : c ∉ [DrvCmd.cuMemcpy, .cuMemHostAlloc])
    (e : CmdEnv) (s : CmdSt) : ((driverHandleCmd c).run e s).2.d2h = s.d2h := by
  cases c
  case cuMemcpy | cuMemHostAlloc => exact absurd (by decide) hc
  case cuMemSetAccess =>
    unfold driverHandleCmd handleCuMemSetAccess
    have hdescs (ns : List Nat) :=
      resp_of_blind (fun _ hP => Prog.keeps_collect (fun i => hP.readDesc i) ns)
    simp only [Prog.bind_run, Prog.ite_run, key_run]
    split
    · simp only [answer, Prog.bind_run, setErr_d2h, req_d2h, (hdescs _ _ _).2, core_d2h]
    · rfl
  case cuDeviceGetName =>
    unfold driverHandleCmd handleCuDeviceGetName
    simp only [Prog.bind_run, Prog.ite_run]
    split <;> rfl
  case cuGetErrorString | cuGetErrorName =>
    unfold driverHandleCmd handleCuGetErrorText
    simp only [Prog.bind_run]
    split <;> rfl
  all_goals rfl

theorem dispatchCmd_d2h (c : Cmd) {e : CmdEnv} {s : CmdSt} (hd : s.d2h = false) :
    ((dispatchCmd c.code).run e s).2.d2h =
      match c with
      | .rt .memcpy => decide ((memReq s.payload).kind = 2 ∧ (memReq s.payload).dst = 0)
      | .drv .cuMemcpy => decide ((memReq s.payload).kind = 2)
      | _ => false := by
  by_cases hcopy : ∃ cc : CopyCmd, cc.cmd = c
  · obtain ⟨cc, rfl⟩ := hcopy
    rw [(cc.dispatch_ran hd).2.d2h]
    cases cc <;> rfl
  rw [dispatchCmd_run]
  rcases c with c | c
  · have hc : c ≠ .memcpy := by
      rintro rfl
      exact hcopy ⟨.memcpy, rfl⟩
    show ((runtimeHandleCmd c).run e s).2.d2h = _
    rw [runtimeHandleCmd_d2h hc, hd]
    cases c <;> first | rfl | exact absurd rfl hc
  · have hc : c ∉ [DrvCmd.cuMemcpy, .cuMemHostAlloc] := by
      simp only [List.mem_cons, List.not_mem_nil, or_false, not_or]
      constructor
      · rintro rfl
        exact hcopy ⟨.cuMemcpy, rfl⟩
      · rintro rfl
        exact hcopy ⟨.cuMemHostAlloc, rfl⟩
    show ((driverHandleCmd c).run e s).2.d2h = _
    rw [driverHandleCmd_d2h hc, hd]
    cases c <;> first | rfl | exact absurd (by decide) hc

/-! One element -/

/-- Every chunk of the copy finds its source, and CUDA takes what it is asked for. -/
def Sourced (env : Env) (c : Context) (cmd : MemCmd) (r : MemReq) (ch : Chunk) : Prop :=
  if c.resGet .mem (add64 r.src ch.off) ≠ 0 then
    ∀ n, (env.ret n (Dir.dtoh.call (c.resGet .mem (add64 r.src ch.off))
      (resolveStream c r.stream) ch)).code = 0
  else cmd = .cuMemcpy ∧ c.resGet .hostMem (add64 r.src ch.off) ≠ 0

/-- The copies that CUDA is to make; the others the CPU makes at once. -/
def enqueued (c : Context) (r : MemReq) (cs : List Chunk) : List Chunk :=
  cs.filter fun ch => c.resGet .mem (add64 r.src ch.off) ≠ 0

/-- The copy goes well and is over when the element is returned: the runtime's command waits for
it, for the driver's the engine must have moved what is pending. -/
structure Lands (k : Key) (env : Env) (el : Elem) (m : Machine) (cmd : MemCmd) (r : MemReq) :
    Prop where
  last : ∀ v ∈ el.inSg.getLast?, sizeof respHeader ≤ v.len
  whole : totalLen el.inSg.dropLast = r.count
  copied : r.count ≠ 0 → ∃ c, m.tab.ctxGet k = some c ∧
    (∀ ch ∈ chunks r.count el.inSg.dropLast, Sourced env c cmd r ch) ∧
    match cmd with
    | .memcpy => ∀ n, (env.ret n ⟨.cudaStreamSynchronize, [resolveStream c r.stream], []⟩).code = 0
    | .cuMemcpy =>
      let n := (enqueued c r (chunks r.count el.inSg.dropLast)).length
      ∀ g : AsyncCopy.Engine Space, g.pending.length ≤ m.dev.eng.pending.length + n →
        (g.finishMany (env.dma (m.dev.clock + n))).pending = []

/-- The condition on an element: its header is whole, its response fits, and the data that it
receives fill its other descriptors. -/
structure Returnable (k : Key) (env : Env) (el : Elem) (m : Machine) : Prop where
  header : sizeof reqHeader ≤ totalLen el.outSg
  room : el.output env m = none ∨ el.inSg.length < 2 →
    sizeof respHeader + (el.cmd m).elim 0 (replyLen env m.dev.clock (cmdStart env el m).payload) ≤
      totalLen el.inSg
  data : ∀ cmd r, el.output env m = some (cmd, r) → 2 ≤ el.inSg.length → Lands k env el m cmd r

theorem length_iovToBuf (mem : ByteMem Space) (vs : List Iov) (n : Nat) :
    (iovToBuf mem vs n).length = min n (totalLen vs) := by
  induction vs generalizing n with
  | nil => simp [iovToBuf]
  | cons v vs ih =>
    unfold iovToBuf
    split
    next h0 => simp [h0]
    next =>
      rw [List.length_append, ByteMem.length_read, ih, totalLen_cons]
      omega

theorem bufToIov_length (vs : List Iov) (buf : List UInt8) :
    ((bufToIov vs buf).map (·.bytes.length)).sum = min buf.length (totalLen vs) := by
  induction vs generalizing buf with
  | nil => simp [bufToIov]
  | cons v vs ih =>
    unfold bufToIov
    split
    next h0 => simp [h0]
    next =>
      rw [List.map_cons, List.sum_cons, ih, List.length_take, List.length_drop, totalLen_cons]
      omega

section
variable {k : Key} {env : Env} {el : Elem} {m : Machine}

/-- What it says of an element that it has an output. -/
structure Outputs (env : Env) (el : Elem) (m : Machine) (cmd : MemCmd) (r : MemReq) : Prop where
  command : el.cmd m = some cmd.copy.cmd
  req : memReq (cmdStart env el m).payload = r
  kind : r.kind = 2
  dst : cmd = .memcpy → r.dst = 0

theorem Elem.output_some {cmd : MemCmd} {r : MemReq} (h : el.output env m = some (cmd, r)) :
    Outputs env el m cmd r := by
  unfold Elem.output at h
  dsimp only at h
  split at h
  next hc =>
    split at h
    next hk =>
      cases h
      exact ⟨hc, rfl, hk.1, fun _ => hk.2⟩
    next => cases h
  next hc =>
    split at h
    next hk =>
      cases h
      exact ⟨hc, rfl, hk, nofun⟩
    next => cases h
  next => cases h

structure Handled (k : Key) (env : Env) (el : Elem) (m : Machine) (s : CmdSt) : Prop where
  resp : s.resp.length = (el.cmd m).elim 0 (replyLen env m.dev.clock (cmdStart env el m).payload)
  d2h : s.d2h = (el.output env m).isSome
  be : ∀ cmd r, el.output env m = some (cmd, r) →
    s.be = ((query (cmd.plan k (cmdEnv env k el) r)).run env m).2

variable (k env el m) in
theorem dispatchCmd_handled : Handled k env el m ((dispatchCmd (reqHeader.cmdType.get fun a =>
    (iovToBuf m.dev.eng.mem el.outSg (sizeof reqHeader)).getD a 0)).run (cmdEnv env k el)
      (cmdStart env el m)).2 := by
  generalize hn : (reqHeader.cmdType.get fun a =>
    (iovToBuf m.dev.eng.mem el.outSg (sizeof reqHeader)).getD a 0) = n
  have hcmd : el.cmd m = Cmd.ofCode n := congrArg Cmd.ofCode hn
  rcases hc : Cmd.ofCode n with _ | c
  · rw [hc] at hcmd
    have hout : el.output env m = none := by simp [Elem.output, hcmd]
    rw [dispatchCmd, hc]
    refine ⟨?_, ?_, ?_⟩
    · rw [hcmd]
      rfl
    · rw [hout]
      rfl
    · rw [hout]
      rintro _ _ ⟨⟩
  · rw [hc] at hcmd
    have heq : dispatchCmd n = dispatchCmd c.code := by
      unfold dispatchCmd
      rw [hc, Cmd.ofCode_code]
    rw [heq]
    refine ⟨?_, ?_, fun cmd r hout => ?_⟩
    · rw [hcmd]
      exact dispatchCmd_len c rfl rfl
    · rw [dispatchCmd_d2h c rfl, Elem.output, hcmd]
      rcases c with c | c <;> cases c
      case rt.memcpy | drv.cuMemcpy =>
        dsimp only
        split <;> simp [*]
      all_goals rfl
    · have ho := Elem.output_some hout
      obtain rfl := Option.some.inj (hcmd.symm.trans ho.command)
      rw [(cmd.copy.dispatch_ran rfl).2.be, MemCmd.copy_plan, ho.req]
      rfl

variable (k env m) in
theorem processElem_whole (h : sizeof reqHeader ≤ totalLen el.outSg) :
    ∃ s : CmdSt, ∃ resp : List UInt8, ∃ served : Served, Handled k env el m s ∧
      (processElem k el).run env m = (some served, s.be.deliver env served.writes) ∧
      resp.length = sizeof respHeader + s.resp.length ∧
      served.writes = respWrites s.d2h el.inSg resp ∧
      served.pushLen = resp.length +
        sum64 (if s.d2h ∧ 2 ≤ el.inSg.length then el.inSg.dropLast.map (·.len) else []) := by
  have hlen : (iovToBuf m.dev.eng.mem el.outSg (sizeof reqHeader)).length = sizeof reqHeader := by
    rw [length_iovToBuf, min_eq_left h]
  have hhandled := dispatchCmd_handled k env el m
  simp only [processElem, hlen, ne_eq, not_true_eq_false, if_false]
  generalize (reqHeader.cmdType.get fun a =>
    (iovToBuf m.dev.eng.mem el.outSg (sizeof reqHeader)).getD a 0) = n at hhandled ⊢
  generalize (dispatchCmd n).run (cmdEnv env k el) (cmdStart env el m) = out at hhandled ⊢
  exact ⟨out.2, _, _, hhandled, rfl, length_respBytes _ _ _, rfl, rfl⟩

end

/-! The copy into the descriptors -/

theorem chunksFrom_length {count off : Nat} {vs : List Iov} (hsum : off + totalLen vs = count)
    (hc : count < 2 ^ 64) :
    ((chunksFrom (cutAt count) count off vs).map (·.len)).sum = totalLen vs := by
  induction vs generalizing off with
  | nil => rfl
  | cons v vs ih =>
    rw [totalLen_cons] at hsum
    have hadd : add64 off v.len = off + v.len := add64_of_lt (by omega)
    rw [chunksFrom, cutAt_of_le (by omega) hc]
    split
    · dsimp only
      rw [List.map_cons, List.sum_cons, hadd, ih (by omega), totalLen_cons]
    · have h0 : totalLen (v :: vs) = 0 := by
        rw [totalLen_cons]
        omega
      rw [h0]
      rfl

section
variable {k : Key} {env : Env} {tab : Tables} {c : Context} {cmd : MemCmd} {r : MemReq}
  {ch : Chunk} {cs : List Chunk} {d : Device}

structure StepTaken (c : Context) (r : MemReq) (d : Device) (cs : List Chunk) (x : Nat × Device) :
    Prop where
  ok : x.1 = 0
  clock : x.2.clock = d.clock + (enqueued c r cs).length
  pending : x.2.eng.pending.length ≤ d.eng.pending.length + (enqueued c r cs).length

theorem Sourced.step (h : Sourced env c cmd r ch) (hc : tab.ctxGet k = some c) :
    StepTaken c r d [ch] ((chunkStep cmd .dtoh k r.src r.stream ch).run ⟨env, tab⟩ d) := by
  unfold Sourced at h
  split at h
  next hp =>
    have henq : enqueued c r [ch] = [ch] := by simp [enqueued, hp]
    rw [chunkStep_mem (q := ⟨env, tab⟩) hc hp]
    refine ⟨h d.clock, by rw [henq]; rfl, ?_⟩
    rw [henq]
    refine (AsyncCopy.Engine.finishMany_pending_length _ _).trans ?_
    split
    · rw [AsyncCopy.Engine.submit, List.length_append]
      rfl
    · exact Nat.le_add_right _ _
  next hp =>
    have hp0 : c.resGet .mem (add64 r.src ch.off) = 0 := not_not.mp hp
    have henq : enqueued c r [ch] = [] := by simp [enqueued, hp0]
    obtain ⟨rfl, hh⟩ := h
    rcases hf : c.resFind .hostMem (add64 r.src ch.off) with _ | e
    · exact absurd (by rw [c.resGet_eq, hf]; rfl) hh
    have hn : e.pointer .hostMem (add64 r.src ch.off) ≠ 0 := by
      rwa [c.resGet_eq, hf] at hh
    simp only [chunkStep, coreCuMemcpyDtohVq, withCtx_run (q := ⟨env, tab⟩) hc, hp0, ne_eq,
      not_true_eq_false, if_false, hf, hn, Prog.bind_run, load_run]
    exact ⟨rfl, by rw [henq]; rfl, by rw [henq]; exact le_rfl⟩

theorem Sourced.loop (h : ∀ ch ∈ cs, Sourced env c cmd r ch) (hc : tab.ctxGet k = some c) :
    accepted (chunkStep cmd .dtoh k r.src r.stream) ⟨env, tab⟩ cs d = cs ∧
      StepTaken c r d cs ((Prog.firstError (chunkStep cmd .dtoh k r.src r.stream) cs).run
        ⟨env, tab⟩ d) := by
  induction cs generalizing d with
  | nil => exact ⟨rfl, rfl, rfl, le_rfl⟩
  | cons ch cs ih =>
    have hstep := (h ch List.mem_cons_self).step (d := d) hc
    obtain ⟨ih1, ih2⟩ := ih (fun x hx => h x (List.mem_cons_of_mem _ hx))
      (d := ((chunkStep cmd .dtoh k r.src r.stream ch).run ⟨env, tab⟩ d).2)
    have henq : (enqueued c r (ch :: cs)).length =
        (enqueued c r [ch]).length + (enqueued c r cs).length := by
      rw [← List.length_append, ← List.singleton_append (l := cs)]
      exact congrArg List.length (List.filter_append _ _)
    refine ⟨by rw [accepted, if_pos hstep.ok, ih1], ?_⟩
    rw [Prog.firstError_cons, if_neg (not_not.mpr hstep.ok)]
    refine ⟨ih2.ok, ?_, ?_⟩
    · rw [ih2.clock, hstep.clock, henq, Nat.add_assoc]
    · rw [henq]
      have h1 := hstep.pending
      have h2 := ih2.pending
      omega

end

section
variable {k : Key} {env : Env} {el : Elem} {m : Machine} {cmd : MemCmd} {r : MemReq}

theorem Outputs.plan_run (h : Outputs env el m cmd r) (hin : 2 ≤ el.inSg.length)
    (hle : r.count ≤ sum64 (el.inSg.dropLast.map (·.len))) :
    cmd.plan k (cmdEnv env k el) r =
      chunkLoop cmd .dtoh k r.src r.stream (chunks r.count el.inSg.dropLast) := by
  have hout (f : Chunk → QueryM Nat) (after : Nat → QueryM Nat) :
      copyOutPlan (cmdEnv env k el) r.count f after = (do
        after (← Prog.firstError f (chunks r.count el.inSg.dropLast))) := by
    rw [copyOutPlan]
    exact if_pos ⟨hin, hle⟩
  cases cmd with
  | memcpy =>
    show memcpyPlan k (cmdEnv env k el) r = _
    rw [memcpyPlan, if_neg (by rw [h.kind]; decide), if_pos h.kind, if_pos (h.dst rfl), hout, h.kind]
    rfl
  | cuMemcpy =>
    show cuMemcpyPlan k (cmdEnv env k el) r = _
    rw [cuMemcpyPlan, if_neg (by rw [h.kind]; decide), if_pos h.kind, hout]
    rfl

theorem Lands.written (h : Lands k env el m cmd r) (ho : el.output env m = some (cmd, r))
    (hin : 2 ≤ el.inSg.length) {s : CmdSt} (hs : Handled k env el m s) (ws : List RespWrite) :
    dataWritten k env el m (s.be.deliver env ws) = totalLen el.inSg.dropLast := by
  have hout := Elem.output_some ho
  have hlt : r.count < 2 ^ 64 := by
    rw [← hout.req]
    exact memReq_count_lt _
  have hsum : sum64 (el.inSg.dropLast.map (·.len)) = totalLen el.inSg.dropLast :=
    sum64_map_len (h.whole ▸ hlt)
  have hle : r.count ≤ sum64 (el.inSg.dropLast.map (·.len)) := by rw [hsum, h.whole]
  by_cases h0 : r.count = 0
  · have hnil : chunks r.count el.inSg.dropLast = [] := by
      rw [h0, chunks]
      cases el.inSg.dropLast <;> rfl
    rw [h.whole, h0, dataWritten, ho]
    rcases m.tab.ctxGet k with _ | c
    · rfl
    · dsimp only
      rw [hnil]
      split <;> rfl
  obtain ⟨c, hc, hsrc, hover⟩ := h.copied h0
  obtain ⟨hacc, hloop⟩ := Sourced.loop (d := m.dev) hsrc hc
  rw [dataWritten, ho, hc]
  dsimp only
  have hmoved : ∀ ch ∈ chunks r.count el.inSg.dropLast, Moved c r (s.be.deliver env ws) ch := by
    intro ch hch hp hpend
    rw [hs.be cmd r ho, hout.plan_run hin hle] at hpend
    cases cmd with
    | memcpy =>
      -- the stream was synchronized behind the loop
      have hx := AsyncCopy.Engine.finishMany_pending_subset _ _ hpend
      exact chunkLoop_synced (q := ⟨env, m.tab⟩) hc hover rfl hloop.ok _ hx rfl
    | cuMemcpy =>
      -- the engine has moved what was pending
      have hnil := hover _ hloop.pending
      rw [← hloop.clock] at hnil
      exact List.not_mem_nil (hnil ▸ hpend)
  rw [if_pos ⟨hin, hle⟩, hacc, List.filter_eq_self.mpr fun ch hch => decide_eq_true (hmoved ch hch)]
  exact chunksFrom_length (by rw [Nat.zero_add, h.whole]) hlt

theorem Returnable.pop (h : Returnable k env el m) :
    ∃ served : Served, ∃ m' : Machine, (processElem k el).run env m = (some served, m') ∧
      served.pushLen ≤ served.written + dataWritten k env el m m' := by
  obtain ⟨s, resp, served, hs, hrun, hlen, hw, hpush⟩ := processElem_whole k env m h.header
  refine ⟨served, _, hrun, ?_⟩
  by_cases hd : s.d2h ∧ 2 ≤ el.inSg.length
  · -- the response is in the last descriptor, the data in the others
    obtain ⟨⟨cmd, r⟩, ho⟩ := Option.isSome_iff_exists.mp (hs.d2h.symm.trans hd.1)
    have hlands := h.data cmd r ho hd.2
    have hout := Elem.output_some ho
    have hresp : resp.length = sizeof respHeader := by
      rw [hlen, hs.resp, hout.command]
      cases cmd <;> rfl
    obtain ⟨v, hv⟩ : ∃ v, el.inSg.getLast? = some v := by
      refine Option.isSome_iff_exists.mp (List.getLast?_isSome.mpr ?_)
      exact List.ne_nil_of_length_pos (Nat.zero_lt_two.trans_le hd.2)
    have hwritten : served.written = resp.length := by
      rw [Served.written, hw, respWrites, if_pos hd, hv]
      have hfits := hlands.last v hv
      rw [← hresp] at hfits
      simp [hfits]
    have hsum : sum64 (el.inSg.dropLast.map (·.len)) = totalLen el.inSg.dropLast := by
      refine sum64_map_len ?_
      rw [hlands.whole, ← hout.req]
      exact memReq_count_lt _
    rw [hpush, if_pos hd, hwritten, hlands.written ho hd.2 hs, hsum]
  · -- the response is all that is written, and it fits
    have hnone : el.output env m = none ∨ el.inSg.length < 2 := by
      rw [hs.d2h, Option.isSome_iff_ne_none] at hd
      by_cases h0 : el.output env m = none
      · exact .inl h0
      · exact .inr (Nat.lt_of_not_le fun h2 => hd ⟨h0, h2⟩)
    have hroom := h.room hnone
    rw [← hs.resp, ← hlen] at hroom
    have hwritten : served.written = resp.length := by
      rw [Served.written, hw, respWrites, if_neg hd, bufToIov_length, min_eq_left hroom]
    rw [hpush, if_neg hd, hwritten]
    exact Nat.le_add_right _ _

end

/-! Runs -/

/-- The runs of a backend whose elements all meet the condition, in whatever environment each,
with anything happening to its memory and its engine between two of them. -/
inductive QueueRun (k : Key) : Queue → Prop where
  | start (m : Machine) : QueueRun k ⟨m, [], []⟩
  | pop {q : Queue} (run : QueueRun k q) (env : Env) (el : Elem) (h : Returnable k env el q.m) :
      QueueRun k (q.pop k env el)
  | idle {q : Queue} (run : QueueRun k q) (d : Device) : QueueRun k { q with m := { q.m with dev := d } }

/-- Every element is returned once and in order, and no more bytes are reported for it than
were written. -/
theorem queue_returns {k : Key} {q : Queue} (run : QueueRun k q) :
    q.pushed.map (·.elem) = q.popped ∧ ∀ p ∈ q.pushed, p.used ≤ p.written := by
  induction run with
  | start => exact ⟨rfl, nofun⟩
  | pop _ env el h ih =>
    obtain ⟨served, m', hrun, hle⟩ := h.pop
    simp only [Queue.pop, hrun, Option.map_some, Option.toList_some, List.map_append]
    refine ⟨by rw [ih.1]; rfl, fun p hp => ?_⟩
    rcases List.mem_append.mp hp with hp | hp
    · exact ih.2 p hp
    · obtain rfl := List.mem_singleton.mp hp
      exact hle
  | idle _ _ ih => exact ih

/-! A copy of four bytes of device memory to the host -/

def copyOutMachine : Machine where
  tab := (Tables.start.ctxCreate ⟨1, 1⟩).resAddWithHandle ⟨1, 1⟩ .mem 0x8000 4 0x8000
  dev := (Machine.start fun sp => match sp with
    | .req _ => (MemReq.mk 0 0x8000 4 2 0).arg RtCmd.memcpy.code
    | _ => fun _ => 0).dev

def copyOutElem (reqLen respLen : Nat) : Elem :=
  ⟨[⟨.req 0, 0, reqLen⟩], [⟨.ram, 0x4000, 4⟩, ⟨.resp 0, 0, respLen⟩]⟩

def copyOutQueue (reqLen respLen : Nat) : Queue :=
  (Queue.mk copyOutMachine [] []).pop ⟨1, 1⟩ .quiet (copyOutElem reqLen respLen)

theorem copyOut_output : (copyOutElem 48 8).output .quiet copyOutMachine =
    some (.memcpy, ⟨0, 0x8000, 4, 2, 0⟩) := by decide +kernel

theorem copyOut_returnable :
    Returnable ⟨1, 1⟩ .quiet (copyOutElem 48 8) copyOutMachine where
  header := by decide
  room h := by
    rw [copyOut_output] at h
    exact absurd h (by decide)
  data cmd r h _ := by
    rw [copyOut_output] at h
    cases h
    refine ⟨by decide, by decide, fun _ => ⟨_, rfl, ?_, fun _ => rfl⟩⟩
    have hch : chunks 4 (copyOutElem 48 8).inSg.dropLast = [⟨0, ⟨.ram, 0x4000, 4⟩, 4⟩] := by decide
    rw [hch]
    refine List.forall_mem_singleton.mpr ?_
    rw [Sourced, if_pos (by decide)]
    exact fun _ => rfl

theorem queue_returns_copyOut : (copyOutQueue 48 8).pushed.map (·.used) = [12] ∧
    (copyOutQueue 48 8).pushed.map (·.elem) = (copyOutQueue 48 8).popped ∧
    ∀ p ∈ (copyOutQueue 48 8).pushed, p.used ≤ p.written :=
  ⟨by decide +kernel, queue_returns (.pop (.start _) _ _ copyOut_returnable)⟩

/-- An element with four bytes of a header is never returned, and of a response that is cut to
four bytes all eight are reported. -/
theorem queue_loses : (copyOutQueue 4 8).popped = [copyOutElem 4 8] ∧ (copyOutQueue 4 8).pushed = [] ∧
    (copyOutQueue 48 4).pushed = [⟨copyOutElem 48 4, 12, 8⟩] := by
  refine ⟨rfl, ?_, ?_⟩ <;> decide +kernel

end HmCuda
