import HmCuda.Guest.DriverLib
import HmCuda.System.Ledger
import HmCuda.System.Provenance
import HmCuda.System.Teardown

/-! The session of a process on the backend: once it is started, no request ends it. -/

namespace HmCuda
open Layout

section
variable {k : Key}

/-! Operations on the tables -/

theorem TabOp.session_apply {o : TabOp} {t : Tables} (ho : o ≠ .unlink k)
    (h : (t.ctxGet k).isSome) : ((o.apply t).ctxGet k).isSome := by
  have updated (u : Tables) (hu : (u.ctxGet k).isSome) (l : Key) {f : Context → Context}
      (hf : ∀ c, (f c).key = c.key) : ((u.ctxUpdate l f).ctxGet k).isSome := by
    rw [Tables.ctxGet_ctxUpdate u l k hf]
    split
    next hl => rwa [Option.isSome_map, ← hl]
    · exact hu
  cases o with
  | create l =>
    show ((t.ctxCreate l).ctxGet k).isSome
    rw [Tables.ctxGet_ctxCreate]
    split
    · rfl
    · exact h
  | unlink l =>
    have hl : l ≠ k := fun hl => ho (hl ▸ rfl)
    have hget : (t.ctxUnlink l).ctxGet k = t.ctxGet k := by
      refine Ranges.find?_eraseP_of_not fun c hc => ?_
      have hk : c.key = l := of_decide_eq_true hc
      simp [hk, hl]
    exact (congrArg Option.isSome hget).trans h
  | add l ty p n hd => exact updated t h l fun c => c.push_key _ _
  | fresh l ty p n => exact updated _ h l fun c => c.push_key _ _
  | remove l ty hd => exact updated t h l fun c => c.resRemove_key _ _

theorem Tables.session_after {t : Tables} {ops : List TabOp} (hops : ∀ o ∈ ops, o ≠ .unlink k)
    (h : (t.ctxGet k).isSome) : ((t.after ops).ctxGet k).isSome := by
  induction ops generalizing t with
  | nil => exact h
  | cons o ops ih =>
    exact ih (fun o' ho' => hops o' (List.mem_cons_of_mem _ ho'))
      (TabOp.session_apply (hops o List.mem_cons_self) h)

theorem CmdOp.unlinks {l : Key} {p : Nat → UInt8} {c : Cmd} (h : CmdOp l p c (.unlink k)) :
    l = k ∧ (c = .rt .init ∨ c = .drv .cuDevicePrimaryCtxRetain) := by
  rcases c with c | c <;> cases c
  all_goals simp [CmdOp] at h
  case rt.init | drv.cuDevicePrimaryCtxRetain => exact ⟨h.symm, by simp⟩

/-! One request -/

theorem retain_session {device : Nat} {e : Env} {s : Machine} (h : (s.tab.ctxGet k).isSome) :
    (((coreCuDevicePrimaryCtxRetain k device).run e s).2.tab.ctxGet k).isSome := by
  have renewed : (((s.tab.ctxUnlink k).ctxCreate k).ctxGet k).isSome := by
    rw [Tables.ctxGet_ctxCreate, if_pos rfl]
    rfl
  obtain ⟨c, hc⟩ := Option.isSome_iff_exists.mp h
  by_cases hr : (e.ret s.dev.clock ⟨.cuDevicePrimaryCtxRetain, [device], []⟩).code = 0
  · obtain ⟨p, -, htab, -⟩ := retain_accepted hc hr
    rw [htab]
    exact TabOp.session_apply (o := .fresh k .context p device) (by simp) h
  · obtain ⟨-, -, -, htab | ⟨p, htab⟩⟩ := retain_refused hc hr
    · rwa [htab]
    · rw [htab]
      exact TabOp.session_apply (o := .fresh k .context p device) (by simp) renewed

theorem dispatchCmd_session (n : Nat) (e : CmdEnv) {s : CmdSt} (h : (s.be.tab.ctxGet k).isSome) :
    (((dispatchCmd n).run e s).2.be.tab.ctxGet k).isSome := by
  by_cases hc : e.key = k ∧
      (Cmd.ofCode n = some (.rt .init) ∨ Cmd.ofCode n = some (.drv .cuDevicePrimaryCtxRetain))
  · obtain ⟨rfl, hc | hc⟩ := hc
    · unfold dispatchCmd
      rw [hc]
      show (((coreInit e.key).run e.env s.be).2.tab.ctxGet e.key).isSome
      rw [coreInit_tab, Tables.ctxGet_ctxCreate, if_pos rfl]
      rfl
    · unfold dispatchCmd
      rw [hc]
      exact retain_session h
  · obtain ⟨ops, hops, htab⟩ := dispatchCmd_ops n e s
    rw [htab]
    refine Tables.session_after (fun o ho hu => hc ?_) h
    obtain ⟨c, hn, hop, -⟩ := hops o ho
    obtain ⟨hk, rfl | rfl⟩ := CmdOp.unlinks (hu ▸ hop)
    · exact ⟨hk, .inl hn⟩
    · exact ⟨hk, .inr hn⟩

theorem Call.session (x : Call) (d : DrvEnv) {s : DrvSt} (h : (s.m.tab.ctxGet k).isSome) :
    ((x.dispatch.run d s).2.m.tab.ctxGet k).isSome := by
  by_cases hm : isMemcpy x.cmd.code
  · obtain ⟨ops, hops, htab⟩ := x.ops d s
    rw [htab]
    refine Tables.session_after (fun o ho hu => ?_) h
    obtain ⟨l, p, -, hop⟩ := hops o ho
    obtain ⟨-, hcmd⟩ := CmdOp.unlinks (hu ▸ hop)
    rcases hcmd with hcmd | hcmd
    all_goals
      rw [show x.cmd = _ from hcmd] at hm
      exact absurd hm (by decide)
  by_cases hready : x.ready
  swap
  · obtain ⟨err, -, hrun⟩ := Call.unready_result hready d s
    rwa [hrun]
  rw [Call.dispatch_run hready]
  by_cases hs : ∃ n m img, Sent (d.calling x.buf) x.cmd n m img
  · obtain ⟨n, m, img, hs⟩ := hs
    obtain ⟨evs, hst, -⟩ := hmcudaIoctl_answered hs hm s
    rw [hst]
    exact dispatchCmd_session x.cmd.code _ h
  · obtain ⟨-, hq⟩ := hmcudaIoctl_refused hm (x.header d) (fun n m img h => hs ⟨n, m, img, h⟩) s
    obtain ⟨f, hf⟩ := hq.m
    rwa [hf]

theorem logged_session : Logged (fun _ => True) fun s => (s.drv.m.tab.ctxGet k).isSome where
  dispatch cmd _ req n e s h :=
    Call.session ⟨s.transport, e.stack s.sent.length, cmd, req, n⟩ (e.drv s.sent.length) h
  noted hd _ h := by rwa [hd]

theorem init_session {e : GuestEnv} {s : GuestSt} (hk : (e.drv s.sent.length).key = k)
    (h0 : ((drvDispatch (.rt .init) [] 0).run e s).1.ret = some 0) :
    ((drvDispatch (.rt .init) [] 0).run e s).2.drv.m.tab.ctxGet k = some ⟨k, fun _ => []⟩ := by
  have hop : Forward.init.op (e.drv s.sent.length).key = some (coded (coreInit k)) := by
    rw [hk]
    rfl
  have ht : Forward.init.message.Typed := fun i v hv => by simp [Forward.message] at hv
  obtain ⟨img, hex⟩ := Forward.executed_of_zero .init true e s hop ht h0
  obtain ⟨bs, hbe⟩ := hex.backend
  have htab : ((pass true Forward.init.message).run e s).2.drv.m.tab =
      ((coreInit k).run (e.drv s.sent.length).sys
        (s.drv.showing (e.drv s.sent.length) img)).2.tab := by
    rw [hbe]
    rfl
  show ((pass true Forward.init.message).run e s).2.drv.m.tab.ctxGet k = _
  rw [htab, coreInit_tab, Tables.ctxGet_ctxCreate, if_pos rfl]

end

/-! The driver library -/

namespace DriverLib
variable {k : Key} {e : GuestEnv}

theorem sendCuInit_run (flags : Nat) (s : DriverSt) :
    let r := (drvDispatch (.drv .cuInit) (request cuInitReq [flags]) 0).run e s.proc
    (sendCuInit flags).run e s = (r.1.ret, ⟨r.2, s.initialized || decide (r.1.ret = some 0)⟩) := by
  unfold sendCuInit
  simp only [Prog.bind_run, Prog.ite_run]
  split
  all_goals
    rename_i h0
    dsimp only [onProc] at h0
    simp [onProc, h0]

theorem sendCuInit_tab (flags : Nat) (s : DriverSt) :
    ((sendCuInit flags).run e s).2.proc.drv.m.tab = s.proc.drv.m.tab := by
  rw [sendCuInit_run, drvDispatch_link]
  obtain ⟨ops, hops, htab⟩ := Call.ops ⟨s.proc.link e, e.stack s.proc.sent.length, .drv .cuInit,
    request cuInitReq [flags], 0⟩ (e.drv s.proc.sent.length) s.proc.drv
  have hnil : ops = [] := List.eq_nil_iff_forall_not_mem.mpr fun o ho => by
    obtain ⟨l, p, -, hop⟩ := hops o ho
    exact hop
  rw [hnil] at htab
  exact htab

theorem ensure_of_initialized {s : DriverSt} (h : s.initialized = true) :
    hmcudaDriverEnsureInitialized.run e s = (some 0, s) := by
  unfold hmcudaDriverEnsureInitialized
  simp only [Prog.bind_run, Prog.get_run, if_pos h, Prog.pure_run]

theorem ensure_run {s : DriverSt} (h : s.initialized = false) : ∃ t,
    let r := (drvDispatch (.rt .init) [] 0).run e { s.proc with transport := t }
    hmcudaDriverEnsureInitialized.run e s =
      if r.1.ret = some 0 then (sendCuInit 0).run e ⟨r.2, false⟩ else (r.1.ret, ⟨r.2, false⟩) := by
  obtain ⟨g, b⟩ := s
  obtain rfl : b = false := h
  by_cases ht : g.transport.opened ∨ g.transport.rpc
  · refine ⟨g.transport, ?_⟩
    unfold hmcudaDriverEnsureInitialized
    simp only [Prog.bind_run, Prog.get_run, if_neg Bool.false_ne_true, if_neg (not_not.mpr ht),
      Prog.ite_run]
    rfl
  · refine ⟨(transportInit.run e g).2.transport, ?_⟩
    unfold hmcudaDriverEnsureInitialized
    simp only [Prog.bind_run, Prog.get_run, if_neg Bool.false_ne_true, if_pos ht, Prog.ite_run]
    rfl

end DriverLib

/-! A run of the process -/

def DriverSt.Sound (k : Key) (s : DriverSt) : Prop :=
  s.initialized = true → (s.proc.drv.m.tab.ctxGet k).isSome

section
variable {k : Key} {e : GuestEnv} {s : DriverSt}

/-- What a call that initialises the library leaves, from a sound state. -/
structure Initialized (k : Key) (s : DriverSt) (r : Option Nat × DriverSt) : Prop where
  sound : r.2.Sound k
  kept : s.initialized = true → r.2.initialized = true
  done : r.1 = some 0 → r.2.initialized = true

theorem sendCuInit_initialized (h : (s.proc.drv.m.tab.ctxGet k).isSome) (flags : Nat) :
    Initialized k s ((DriverLib.sendCuInit flags).run e s) where
  sound _ := by rwa [DriverLib.sendCuInit_tab]
  kept h0 := by rw [DriverLib.sendCuInit_run, h0]; rfl
  done h0 := by
    rw [DriverLib.sendCuInit_run] at h0 ⊢
    dsimp only at h0 ⊢
    simp [h0]

theorem ensure_initialized (hk : ∀ n, (e.drv n).key = k) (h : s.Sound k) :
    Initialized k s (DriverLib.hmcudaDriverEnsureInitialized.run e s) := by
  rcases hi : s.initialized
  · obtain ⟨t, hrun⟩ := DriverLib.ensure_run (e := e) hi
    rw [hrun]
    split
    next h0 =>
      have hs := init_session (hk _) h0
      obtain ⟨h1, -, h3⟩ := sendCuInit_initialized (e := e)
        (s := ⟨((drvDispatch (.rt .init) [] 0).run e { s.proc with transport := t }).2, false⟩)
        (Option.isSome_iff_exists.mpr ⟨_, hs⟩) 0
      exact ⟨h1, fun hs => absurd hs (by simp [hi]), h3⟩
    next h0 => exact ⟨fun hs => absurd hs Bool.false_ne_true, fun hs => absurd hs (by simp [hi]),
      fun hs => absurd hs h0⟩
  · rw [DriverLib.ensure_of_initialized hi]
    exact ⟨h, fun _ => hi, fun _ => hi⟩

theorem cuInit_initialized (hk : ∀ n, (e.drv n).key = k) (h : s.Sound k) (flags : Nat) :
    Initialized k s ((DriverLib.cuInit flags).run e s) := by
  obtain ⟨h1, h2, h3⟩ := ensure_initialized hk h
  unfold DriverLib.cuInit
  simp only [Prog.bind_run, Prog.ite_run]
  split
  next h0 =>
    obtain ⟨g1, g2, g3⟩ := sendCuInit_initialized (e := e) (h1 (h3 h0)) flags
    exact ⟨g1, fun hs => g2 (h2 hs), g3⟩
  · exact ⟨h1, h2, h3⟩

/-- A further `cuInit` leaves the tables alone. -/
theorem cuInit_tab (h : s.initialized = true) (flags : Nat) :
    ((DriverLib.cuInit flags).run e s).2.proc.drv.m.tab = s.proc.drv.m.tab := by
  unfold DriverLib.cuInit
  simp only [Prog.bind_run, DriverLib.ensure_of_initialized h, if_true]
  exact DriverLib.sendCuInit_tab flags s

/-- The constructor and `cuInit`. -/
def DriverCall.Initializes : DriverCall → Prop
  | hmcudaDriverInit | cuInit _ => True
  | _ => False

theorem DriverCall.step (hk : ∀ n, (e.drv n).key = k) (h : s.Sound k) (c : DriverCall) :
    (c.run.run e s).2.Sound k ∧ (s.initialized = true → (c.run.run e s).2.initialized = true) ∧
      (c.Initializes → (c.run.run e s).1 = some 0 → (c.run.run e s).2.initialized = true) := by
  cases c with
  | hmcudaDriverInit =>
    obtain ⟨h1, h2, h3⟩ :=
      ensure_initialized (s := ((DriverLib.onProc transportInit).run e s).2) hk h
    exact ⟨h1, h2, fun _ => h3⟩
  | hmcudaDriverFini => exact ⟨h, id, False.elim⟩
  | cuInit flags =>
    obtain ⟨h1, h2, h3⟩ := cuInit_initialized hk h flags
    exact ⟨h1, h2, fun _ => h3⟩
  | call c => exact ⟨fun hi => logged_session.call c (fun _ _ => trivial) e _ (h hi), id, False.elim⟩

theorem DriverRun.initialized (hk : ∀ n, (e.drv n).key = k) {drv : DrvSt}
    {tr : List (DriverCall × Option Nat)} (h : DriverRun e drv tr s) :
    s.Sound k ∧ ∀ c, c.Initializes → (c, some 0) ∈ tr → s.initialized = true := by
  induction h with
  | start => exact ⟨fun h => absurd h Bool.false_ne_true, fun _ _ h => absurd h List.not_mem_nil⟩
  | call c _ _ ih =>
    obtain ⟨hs, htr⟩ := ih
    obtain ⟨h1, h2, h3⟩ := DriverCall.step hk hs c
    refine ⟨h1, fun c' hc hmem => ?_⟩
    rcases List.mem_cons.mp hmem with heq | hmem
    · obtain ⟨rfl, h0⟩ := Prod.mk.inj heq
      exact h3 hc h0.symm
    · exact h2 (htr c' hc hmem)

end

/-- Once the driver library has been initialised, by its constructor or by `cuInit`, the process
has a session on the backend in every state the run comes to, whatever is called and whatever
becomes of the requests; and a further `cuInit` leaves the tables as they are. -/
theorem session_kept {k : Key} {e : GuestEnv} (hk : ∀ n, (e.drv n).key = k) {drv : DrvSt}
    {tr : List (DriverCall × Option Nat)} {s : DriverSt} (h : DriverRun e drv tr s)
    {c : DriverCall} (hc : c.Initializes) (h0 : (c, some 0) ∈ tr) :
    (s.proc.drv.m.tab.ctxGet k).isSome ∧
      ∀ flags, ((DriverLib.cuInit flags).run e s).2.proc.drv.m.tab = s.proc.drv.m.tab := by
  obtain ⟨hs, htr⟩ := DriverRun.initialized hk h
  have hi := htr c hc h0
  exact ⟨hs hi, cuInit_tab hi⟩

def loadedRun : DriverSt :=
  let s := (DriverCall.hmcudaDriverInit.run.run quietGuest ⟨.start (.start fun _ _ => 0), false⟩).2
  ((DriverCall.call (.cuMemAlloc true 256)).run.run quietGuest s).2

theorem session_kept_loadedRun : (loadedRun.proc.drv.m.tab.ctxGet (quietGuest.drv 0).key).isSome ∧
    ∀ flags, ((DriverLib.cuInit flags).run quietGuest loadedRun).2.proc.drv.m.tab =
      loadedRun.proc.drv.m.tab := by
  have h0 : (DriverCall.hmcudaDriverInit.run.run quietGuest
      ⟨.start (.start fun _ _ => 0), false⟩).1 = some 0 := by decide +kernel
  have hstart : DriverRun quietGuest (.start fun _ _ => 0) [] ⟨.start _, false⟩ := .start
  have hrun := DriverRun.call (.call (.cuMemAlloc true 256))
    (.call .hmcudaDriverInit hstart (by simp)) (by simp [h0])
  exact session_kept (fun _ => rfl) hrun (c := .hmcudaDriverInit) trivial (by simp [h0])

end HmCuda
