import HmCuda.System.Teardown

/-! The handles of primary contexts: the retains, the releases and the cuStreamGetCtx calls
of a session, with the values the guest is given for each context. -/

namespace HmCuda

inductive CtxCmd where
  | retain (device : Nat)
  | release (device : Nat)
  | streamGetCtx (stream : Nat)

namespace CtxCmd

def exec (k : Key) : CtxCmd → CoreM (Nat × Option Nat)
  | retain device => coreCuDevicePrimaryCtxRetain k device
  | release device => do return (← query (coreCuDevicePrimaryCtxRelease device), none)
  | streamGetCtx stream => coreCuStreamGetCtx k stream

def fn : CtxCmd → LibFn
  | retain _ => .cuDevicePrimaryCtxRetain
  | release _ => .cuDevicePrimaryCtxRelease
  | streamGetCtx _ => .cuStreamGetCtx

end CtxCmd

/-- What CUDA answered to the first call of `fn` that it accepted. -/
def firstAccepted (fn : LibFn) (os : List (LibCall × LibRet)) : Option Nat :=
  (os.find? fun x => x.1.fn = fn ∧ x.2.code = 0).map (·.2.out 0)

def ctxEntries (k : Key) (t : Tables) : List Resource :=
  ((t.ctxGet k).map (·.resources .context)).getD []

/-- The backend, and history: the contexts the guest was given a value for, each with the
value; the retains of a device that were not released, and its context; and the contexts
released as often as retained, since CUDA answered them last. -/
structure CtxSt where
  m : Machine
  given : List (Nat × Nat)
  retains : Nat → Nat
  ctxOf : Nat → Nat
  ended : List Nat

namespace CtxSt

/-- What the history holds after CUDA accepted a command with answer `p`. -/
def note (s : CtxSt) (p value : Nat) : CtxCmd → CtxSt
  | .retain d => { s with
      given := (p, value) :: s.given
      retains := Function.update s.retains d (s.retains d + 1)
      ctxOf := Function.update s.ctxOf d p
      ended := s.ended.filter (· ≠ p) }
  | .release d => { s with
      retains := Function.update s.retains d (s.retains d - 1)
      ended := if s.retains d = 1 then s.ctxOf d :: s.ended else s.ended }
  | .streamGetCtx _ => { s with
      given := (p, value) :: s.given
      ended := s.ended.filter (· ≠ p) }

def answer (s : CtxSt) (k : Key) (c : CtxCmd) (e : Env) (v : Device) : Option Nat :=
  firstAccepted c.fn (answers e v ((c.exec k).run e { s.m with dev := v }).2.dev)

def serve (s : CtxSt) (k : Key) (c : CtxCmd) (e : Env) (v : Device) : CtxSt :=
  let r := (c.exec k).run e { s.m with dev := v }
  match s.answer k c e v with
  | none => { s with m := r.2 }
  | some p => { s with m := r.2 }.note p (r.1.2.getD 0) c

/-- CUDA answers a context, and for a retained device the one it has. -/
def Faithful (s : CtxSt) (p : Nat) : CtxCmd → Prop
  | .retain d => p ≠ 0 ∧ (0 < s.retains d → p = s.ctxOf d)
  | .release _ => True
  | .streamGetCtx _ => p ≠ 0

/-- A retain answers a context the guest has no value for, a stream a context whose entry is
found if the guest has a value for it, and the last release of a context finds no entry. -/
def Clean (k : Key) (s : CtxSt) (p : Nat) : CtxCmd → Prop
  | .retain _ => ∀ x ∈ s.given, x.1 ≠ p
  | .release d => s.retains d = 1 → ∀ r ∈ ctxEntries k s.m.tab, r.realPtr ≠ s.ctxOf d
  | .streamGetCtx _ => (∃ x ∈ s.given, x.1 = p) →
      ∃ c, s.m.tab.ctxGet k = some c ∧ c.resGetHandle .context p ≠ 0

/-- A context has one live handle at most, the guest one value for it, and the session no
handle for a context released as often as retained. -/
structure OneHandle (k : Key) (s : CtxSt) : Prop where
  live : ∀ r ∈ ctxEntries k s.m.tab, ∀ r' ∈ ctxEntries k s.m.tab,
    r.realPtr = r'.realPtr → r.handle = r'.handle
  values : ∀ x ∈ s.given, ∀ y ∈ s.given, x.1 = y.1 → x.2 = y.2
  ended : ∀ r ∈ ctxEntries k s.m.tab, r.realPtr ∉ s.ended

end CtxSt

/-- The runs of a session that starts without contexts, with a CUDA that is faithful, and
commands that are as `P` says of the state before and the answer. The device may change in
between. -/
inductive CtxRun (k : Key) (P : CtxSt → Nat → CtxCmd → Prop) : CtxSt → Prop where
  | start (m : Machine) (h : ctxEntries k m.tab = []) :
      CtxRun k P ⟨m, [], fun _ => 0, fun _ => 0, []⟩
  | serve {s : CtxSt} (run : CtxRun k P s) (c : CtxCmd) (e : Env) (v : Device)
      (faithful : ∀ p, s.answer k c e v = some p → s.Faithful p c)
      (clean : ∀ p, s.answer k c e v = some p → P s p c) : CtxRun k P (s.serve k c e v)

/-! What a command answers, and what it leaves of the entries -/

section Commands
variable {k : Key} {e : Env} {s : Machine} {c : Context} {fn : LibFn}
  {os os' : List (LibCall × LibRet)}

theorem firstAccepted_cons {x : LibCall × LibRet} (hx : x.1.fn = fn) (h0 : x.2.code = 0) :
    firstAccepted fn (x :: os) = some (x.2.out 0) := by
  simp [firstAccepted, hx, h0]

theorem firstAccepted_append (h : ∀ x ∈ os, x.1.fn ≠ fn ∨ x.2.code ≠ 0) :
    firstAccepted fn (os ++ os') = firstAccepted fn os' := by
  have hnone : os.find? (fun x => x.1.fn = fn ∧ x.2.code = 0) = none := by
    rw [List.find?_eq_none]
    intro x hx
    have hne := h x hx
    simp only [decide_eq_true_eq]
    tauto
  rw [firstAccepted, List.find?_append, hnone]
  rfl

theorem firstAccepted_none (h : ∀ x ∈ os, x.1.fn ≠ fn ∨ x.2.code ≠ 0) :
    firstAccepted fn os = none := by
  have happ : firstAccepted fn (os ++ []) = firstAccepted fn [] := firstAccepted_append h
  rwa [List.append_nil] at happ

theorem ctxEntries_of (hc : s.tab.ctxGet k = some c) :
    ctxEntries k s.tab = c.resources .context := by
  rw [ctxEntries, hc]
  rfl

theorem ctxEntries_resAdd {t : Tables} (hc : t.ctxGet k = some c) (p n : Nat) :
    ctxEntries k (t.resAdd k .context p n).2 =
      ⟨(t.resAdd k .context p n).1, p, n⟩ :: c.resources .context := by
  have hget : (t.resAdd k .context p n).2.ctxGet k =
      some (c.push .context ⟨(t.resAdd k .context p n).1, p, n⟩) :=
    Tables.ctxGet_resAddWithHandle hc .context p n _
  rw [ctxEntries, hget]
  simp [Context.push_resources]

theorem fn_of_release {rel : List (LibCall × LibRet)}
    (h : rel.map Prod.fst = ResType.all.flatMap (releaseCalls c)) :
    ∀ x ∈ rel, x.1.fn ≠ .cuDevicePrimaryCtxRetain := by
  intro x hx
  have hmem : x.1 ∈ ResType.all.flatMap (releaseCalls c) := h ▸ List.mem_map_of_mem hx
  obtain ⟨t, -, ht⟩ := List.mem_flatMap.mp hmem
  unfold releaseCalls at ht
  split at ht
  next fn hfn =>
    obtain ⟨p, -, hp⟩ := List.mem_map.mp ht
    rw [← hp]
    rintro rfl
    cases t <;> cases hfn
  next => cases ht

theorem retained_entries {pre : List (LibCall × LibRet)} {v : Device} {device : Nat} {r : LibRet}
    (hc : s.tab.ctxGet k = some c) (h0 : r.code = 0)
    (hpre : Answered e v s.dev (pre ++ [(⟨.cuDevicePrimaryCtxRetain, [device], []⟩, r)]))
    (hne : ∀ x ∈ pre, x.1.fn ≠ .cuDevicePrimaryCtxRetain ∨ x.2.code ≠ 0) :
    ∃ p h, firstAccepted .cuDevicePrimaryCtxRetain
        (answers e v ((retained k device r).run e s).2.dev) = some p ∧
      ((retained k device r).run e s).1.2 = some h ∧
      ctxEntries k ((retained k device r).run e s).2.tab =
        ⟨h, p, device⟩ :: c.resources .context := by
  obtain ⟨os, hos, -⟩ := logs_retained (k := k) device (P := fun _ => True)
    (fun _ _ => trivial) r e s
  refine ⟨r.out 0, _, ?_, rfl, ctxEntries_resAdd hc (r.out 0) device⟩
  rw [(hpre.append hos).eq, List.append_assoc, firstAccepted_append hne]
  exact firstAccepted_cons rfl h0

/-- An accepted retain enters its context, over the entries there were or, after a reset, over
none; a refused one enters nothing. -/
theorem retain_entries (device : Nat) :
    let r := (coreCuDevicePrimaryCtxRetain k device).run e s
    let os := answers e s.dev r.2.dev
    ∃ l, (l = ctxEntries k s.tab ∨ l = []) ∧
      ((firstAccepted .cuDevicePrimaryCtxRetain os = none ∧ ctxEntries k r.2.tab = l) ∨
        ∃ p h, firstAccepted .cuDevicePrimaryCtxRetain os = some p ∧ r.1.2 = some h ∧
          ctxEntries k r.2.tab = ⟨h, p, device⟩ :: l) := by
  dsimp only
  rcases hc : s.tab.ctxGet k with _ | c
  · have hrun : (coreCuDevicePrimaryCtxRetain k device).run e s = ((3, none), s) := by
      simp only [coreCuDevicePrimaryCtxRetain, withCtxM, hc]
    rw [hrun]
    refine ⟨_, .inl rfl, .inl ⟨?_, rfl⟩⟩
    rw [(Answered.nil rfl rfl : Answered e s.dev s.dev []).eq]
    rfl
  -- a refused retain resets the device and the session and asks once more
  by_cases hr : (e.ret s.dev.clock ⟨.cuDevicePrimaryCtxRetain, [device], []⟩).code = 0
  · have first : Answered e s.dev _ ([] ++ [(_, e.ret s.dev.clock _)]) :=
      answered_lib ⟨e, s.tab⟩ s.dev .cuDevicePrimaryCtxRetain [device] []
    rw [retain_run_accepted hc hr]
    refine ⟨_, .inl (ctxEntries_of hc).symm, .inr ?_⟩
    exact retained_entries (s := ⟨_, _⟩) hc hr first (by simp)
  · obtain ⟨u, rel, r, hcalls, hu, hrun⟩ := retain_run_refused hc hr
    have hfresh : ((s.tab.ctxUnlink k).ctxCreate k).ctxGet k = some ⟨k, fun _ => []⟩ := by
      rw [Tables.ctxGet_ctxCreate, if_pos rfl]
    have hne : ∀ x ∈ [(⟨.cuDevicePrimaryCtxRetain, [device], []⟩,
        e.ret s.dev.clock ⟨.cuDevicePrimaryCtxRetain, [device], []⟩)] ++
          [((⟨.cudaDeviceReset, [], []⟩ : LibCall), r)] ++ rel,
        x.1.fn ≠ .cuDevicePrimaryCtxRetain ∨ x.2.code ≠ 0 := by
      intro x hx
      simp only [List.mem_append, List.mem_singleton] at hx
      rcases hx with (rfl | rfl) | hx
      · exact .inr hr
      · exact .inl (by simp)
      · exact .inl (fn_of_release hcalls x hx)
    have again := answered_lib ⟨e, (s.tab.ctxUnlink k).ctxCreate k⟩ u .cuDevicePrimaryCtxRetain
      [device] []
    have hif : (retainAgain k device).run e ⟨(s.tab.ctxUnlink k).ctxCreate k, u⟩ =
        ((if (e.ret u.clock ⟨.cuDevicePrimaryCtxRetain, [device], []⟩).code ≠ 0 then
          pure ((e.ret u.clock ⟨.cuDevicePrimaryCtxRetain, [device], []⟩).code, none)
        else retained k device (e.ret u.clock ⟨.cuDevicePrimaryCtxRetain, [device], []⟩) :
          CoreM (Nat × Option Nat))).run e ⟨(s.tab.ctxUnlink k).ctxCreate k,
            ((lib .cuDevicePrimaryCtxRetain [device] []).run
              ⟨e, (s.tab.ctxUnlink k).ctxCreate k⟩ u).2⟩ := rfl
    rw [hrun, hif]
    refine ⟨[], .inr rfl, ?_⟩
    by_cases hr' : (e.ret u.clock ⟨.cuDevicePrimaryCtxRetain, [device], []⟩).code = 0
    · rw [if_neg (not_not.mpr hr')]
      exact .inr (retained_entries (s := ⟨_, _⟩) hfresh hr' (hu.append again) hne)
    · rw [if_pos hr']
      refine .inl ⟨?_, ctxEntries_of (s := ⟨_, _⟩) hfresh⟩
      rw [Prog.pure_run, (hu.append again).eq]
      apply firstAccepted_none
      intro x hx
      rcases List.mem_append.mp hx with hx | hx
      · exact hne x hx
      · rw [List.mem_singleton.mp hx]
        exact .inr hr'

theorem streamGetCtx_entries (stream : Nat) :
    let r := (coreCuStreamGetCtx k stream).run e s
    let os := answers e s.dev r.2.dev
    (firstAccepted .cuStreamGetCtx os = none ∧ r.2.tab = s.tab) ∨
      ∃ c p, s.tab.ctxGet k = some c ∧ firstAccepted .cuStreamGetCtx os = some p ∧
        ((c.resGetHandle .context p = 0 ∧ ∃ h, r.1.2 = some h ∧
            ctxEntries k r.2.tab = ⟨h, p, 0⟩ :: c.resources .context) ∨
          (c.resGetHandle .context p ≠ 0 ∧ r.1.2 = some (c.resGetHandle .context p) ∧
            r.2.tab = s.tab)) := by
  dsimp only
  rcases hc : s.tab.ctxGet k with _ | c
  · have hrun : (coreCuStreamGetCtx k stream).run e s = ((3, none), s) := by
      simp only [coreCuStreamGetCtx, withCtxM, hc]
    rw [hrun]
    refine .inl ⟨?_, rfl⟩
    rw [(Answered.nil rfl rfl : Answered e s.dev s.dev []).eq]
    rfl
  have call := answered_lib ⟨e, s.tab⟩ s.dev .cuStreamGetCtx [c.resGet .stream stream] []
  generalize hv : ((lib .cuStreamGetCtx [c.resGet .stream stream] []).run ⟨e, s.tab⟩ s.dev).2 = v
    at call
  generalize hr : e.ret s.dev.clock ⟨.cuStreamGetCtx, [c.resGet .stream stream], []⟩ = r at call
  have hrun : (coreCuStreamGetCtx k stream).run e s =
      ((if r.code = 0 then
          if c.resGetHandle .context (r.out 0) = 0 then do
            let h ← resAdd k .context (r.out 0) 0
            return (r.code, some h)
          else pure (r.code, some (c.resGetHandle .context (r.out 0)))
        else pure (r.code, none) : CoreM (Nat × Option Nat))).run e ⟨s.tab, v⟩ := by
    subst hr hv
    simp only [coreCuStreamGetCtx, withCtxM, hc]
    rfl
  rw [hrun]
  by_cases h0 : r.code = 0
  · refine .inr ⟨c, r.out 0, rfl, ?_⟩
    rw [if_pos h0]
    by_cases hh : c.resGetHandle .context (r.out 0) = 0
    · rw [if_pos hh]
      refine ⟨?_, .inl ⟨hh, _, rfl, ctxEntries_resAdd hc (r.out 0) 0⟩⟩
      show firstAccepted _ (answers e s.dev v) = _
      rw [call.eq]
      exact firstAccepted_cons rfl h0
    · rw [if_neg hh]
      refine ⟨?_, .inr ⟨hh, rfl, rfl⟩⟩
      show firstAccepted _ (answers e s.dev v) = _
      rw [call.eq]
      exact firstAccepted_cons rfl h0
  · rw [if_neg h0]
    refine .inl ⟨?_, rfl⟩
    show firstAccepted _ (answers e s.dev v) = none
    rw [call.eq]
    exact firstAccepted_none (by simpa using fun h => absurd h h0)

theorem mem_of_resGetHandle {p : Nat} (h : c.resGetHandle .context p ≠ 0) :
    ∃ r ∈ c.resources .context, r.realPtr = p ∧ r.handle = c.resGetHandle .context p := by
  unfold Context.resGetHandle at h ⊢
  by_cases hp : p = 0
  · exact absurd (if_pos hp) h
  · rw [if_neg hp] at h ⊢
    rcases hf : (c.resources .context).find? (·.realPtr = p) with _ | r
    · rw [hf] at h
      exact absurd rfl h
    · rw [hf] at h ⊢
      exact ⟨r, List.mem_of_find?_eq_some hf, by simpa using List.find?_some hf, rfl⟩

end Commands

/-! The runs -/

namespace CtxSt
variable {k : Key} {s : CtxSt} {e : Env} {v : Device}

/-- Every entry is of a context the guest has the value for. -/
structure Inv (k : Key) (s : CtxSt) : Prop where
  entries : ∀ r ∈ ctxEntries k s.m.tab, (r.realPtr, r.handle) ∈ s.given
  values : ∀ x ∈ s.given, ∀ y ∈ s.given, x.1 = y.1 → x.2 = y.2
  ended : ∀ r ∈ ctxEntries k s.m.tab, r.realPtr ∉ s.ended

theorem Inv.oneHandle (h : s.Inv k) : s.OneHandle k where
  live r hr r' hr' hp := h.values _ (h.entries r hr) _ (h.entries r' hr') hp
  values := h.values
  ended := h.ended

theorem serve_none {c : CtxCmd} (h : s.answer k c e v = none) :
    s.serve k c e v = { s with m := ((c.exec k).run e { s.m with dev := v }).2 } := by
  rw [serve, h]

theorem serve_some {c : CtxCmd} {p : Nat} (h : s.answer k c e v = some p) :
    s.serve k c e v = { s with m := ((c.exec k).run e { s.m with dev := v }).2 }.note p
      (((c.exec k).run e { s.m with dev := v }).1.2.getD 0) c := by
  rw [serve, h]

theorem Inv.kept (h : s.Inv k) {m : Machine}
    (hm : ctxEntries k m.tab = ctxEntries k s.m.tab ∨ ctxEntries k m.tab = []) :
    Inv k { s with m := m } where
  entries r hr := by
    rcases hm with hm | hm
    · exact h.entries r (hm ▸ hr)
    · rw [hm] at hr
      cases hr
  values := h.values
  ended r hr := by
    rcases hm with hm | hm
    · exact h.ended r (hm ▸ hr)
    · rw [hm] at hr
      cases hr

theorem Inv.enter (h : s.Inv k) {m : Machine} {l : List Resource} {x : Resource}
    (hl : l = ctxEntries k s.m.tab ∨ l = []) (hm : ctxEntries k m.tab = x :: l)
    (hnew : ∀ y ∈ s.given, y.1 ≠ x.realPtr) {retains ctxOf : Nat → Nat} :
    Inv k ⟨m, (x.realPtr, x.handle) :: s.given, retains, ctxOf,
      s.ended.filter (· ≠ x.realPtr)⟩ where
  entries r hr := by
    rw [hm] at hr
    rcases List.mem_cons.mp hr with rfl | hr
    · exact List.mem_cons_self
    · rcases hl with rfl | rfl
      · exact List.mem_cons_of_mem _ (h.entries r hr)
      · cases hr
  values y hy z hz heq := by
    rcases List.mem_cons.mp hy with rfl | hy <;> rcases List.mem_cons.mp hz with rfl | hz
    · rfl
    · exact absurd heq.symm (hnew z hz)
    · exact absurd heq (hnew y hy)
    · exact h.values y hy z hz heq
  ended r hr hend := by
    obtain ⟨hmem, hne⟩ := List.mem_filter.mp hend
    rw [hm] at hr
    rcases List.mem_cons.mp hr with rfl | hr
    · simp at hne
    · rcases hl with rfl | rfl
      · exact h.ended r hr hmem
      · cases hr

theorem Inv.again (h : s.Inv k) {x : Nat × Nat} (hx : x ∈ s.given) :
    Inv k ⟨s.m, x :: s.given, s.retains, s.ctxOf, s.ended.filter (· ≠ x.1)⟩ where
  entries r hr := List.mem_cons_of_mem _ (h.entries r hr)
  values y hy z hz heq := by
    have hin {w : Nat × Nat} (hw : w ∈ x :: s.given) : w ∈ s.given := by
      rcases List.mem_cons.mp hw with rfl | hw
      · exact hx
      · exact hw
    exact h.values y (hin hy) z (hin hz) heq
  ended r hr hend := h.ended r hr (List.mem_of_mem_filter hend)

theorem Inv.serve_retain (h : s.Inv k) (device : Nat)
    (clean : ∀ p, s.answer k (.retain device) e v = some p → s.Clean k p (.retain device)) :
    Inv k (s.serve k (.retain device) e v) := by
  obtain ⟨l, hl, ⟨hans, hlist⟩ | ⟨p, value, hans, hval, hlist⟩⟩ :=
    retain_entries (k := k) (e := e) (s := ⟨s.m.tab, v⟩) device
  · have hnone : s.answer k (.retain device) e v = none := hans
    rw [serve_none hnone]
    exact h.kept (hl.imp hlist.trans hlist.trans)
  · have hsome : s.answer k (.retain device) e v = some p := hans
    have hgot : (((CtxCmd.retain device).exec k).run e { s.m with dev := v }).1.2.getD 0 = value :=
      congrArg (·.getD 0) hval
    rw [serve_some hsome, hgot]
    exact h.enter hl hlist (clean p hsome)

theorem Inv.serve_release (h : s.Inv k) (device : Nat)
    (clean : ∀ p, s.answer k (.release device) e v = some p → s.Clean k p (.release device)) :
    Inv k (s.serve k (.release device) e v) := by
  have hkept := h.kept (m := (((CtxCmd.release device).exec k).run e { s.m with dev := v }).2)
    (.inl rfl)
  rcases hans : s.answer k (.release device) e v with _ | p
  · rw [serve_none hans]
    exact hkept
  · rw [serve_some hans]
    refine ⟨hkept.entries, hkept.values, fun r hr hend => ?_⟩
    by_cases hlast : s.retains device = 1
    · simp only [note, if_pos hlast, List.mem_cons] at hend
      rcases hend with hend | hend
      · exact clean p hans hlast r hr hend
      · exact hkept.ended r hr hend
    · simp only [note, if_neg hlast] at hend
      exact hkept.ended r hr hend

theorem Inv.serve_streamGetCtx (h : s.Inv k) (stream : Nat)
    (clean : ∀ p, s.answer k (.streamGetCtx stream) e v = some p →
      s.Clean k p (.streamGetCtx stream)) : Inv k (s.serve k (.streamGetCtx stream) e v) := by
  obtain ⟨hans, htab⟩ | ⟨c, p, hc, hans, ⟨hnone, value, hval, hlist⟩ | ⟨hfound, hval, htab⟩⟩ :=
    streamGetCtx_entries (k := k) (e := e) (s := ⟨s.m.tab, v⟩) stream
  · have hno : s.answer k (.streamGetCtx stream) e v = none := hans
    rw [serve_none hno]
    exact h.kept (.inl (congrArg (ctxEntries k) htab))
  all_goals
    have hsome : s.answer k (.streamGetCtx stream) e v = some p := hans
    have hgot := congrArg (·.getD 0) hval
  · -- the guest has no value yet, or the entry would be found
    have hnew : ∀ y ∈ s.given, y.1 ≠ p := by
      intro y hy hp
      obtain ⟨c', hc', hfound⟩ := clean p hsome ⟨y, hy, hp⟩
      obtain rfl : c = c' := Option.some.inj (hc.symm.trans hc')
      exact hfound hnone
    rw [serve_some hsome]
    exact hgot ▸ h.enter (.inl (ctxEntries_of (s := s.m) hc).symm) hlist hnew
  · obtain ⟨r, hr, hp, hh⟩ := mem_of_resGetHandle hfound
    have hmem : (p, c.resGetHandle .context p) ∈ s.given := by
      have hin := h.entries r (by rw [ctxEntries_of (s := s.m) hc]; exact hr)
      rwa [hp, hh] at hin
    have hkept := h.kept (m := ((coreCuStreamGetCtx k stream).run e ⟨s.m.tab, v⟩).2)
      (.inl (congrArg (ctxEntries k) htab))
    rw [serve_some hsome]
    exact hgot ▸ hkept.again hmem

end CtxSt

/-- In every run of retains, releases and cuStreamGetCtx calls that meet the condition, each
context has one live handle at most, the guest gets one value for it, and it has no handle
once it is released as often as retained. -/
theorem contexts_oneHandle {k : Key} {s : CtxSt} (run : CtxRun k (CtxSt.Clean k) s) :
    s.OneHandle k := by
  apply CtxSt.Inv.oneHandle
  induction run with
  | start m h =>
    refine ⟨fun r hr => ?_, fun x hx => (by cases hx), fun r hr => ?_⟩
    · rw [h] at hr
      cases hr
    · rw [h] at hr
      cases hr
  | serve run c e v faithful clean ih =>
    cases c with
    | retain device => exact ih.serve_retain device clean
    | release device => exact ih.serve_release device clean
    | streamGetCtx stream => exact ih.serve_streamGetCtx stream clean

/-! A session and a device -/

def oneCtxEnv : Env := { Env.quiet with ret := fun _ _ => ⟨0, [0x5000], none⟩ }

def ctxStart : CtxSt :=
  ⟨{ Machine.start (fun _ _ => 0) with tab := Tables.start.ctxCreate ⟨1, 1⟩ }, [], fun _ => 0,
    fun _ => 0, []⟩

def CtxSt.commands (s : CtxSt) (cs : List CtxCmd) : CtxSt :=
  cs.foldl (fun s c => s.serve ⟨1, 1⟩ c oneCtxEnv s.m.dev) s

theorem ctxStart_retain : ctxStart.answer ⟨1, 1⟩ (.retain 0) oneCtxEnv ctxStart.m.dev =
    some 0x5000 := by decide +kernel

theorem ctxStart_retained (P : CtxSt → Nat → CtxCmd → Prop)
    (h : P ctxStart 0x5000 (.retain 0)) : CtxRun ⟨1, 1⟩ P (ctxStart.commands [.retain 0]) := by
  have start : CtxRun ⟨1, 1⟩ P ctxStart := .start _ rfl
  refine start.serve (.retain 0) oneCtxEnv ctxStart.m.dev (fun p hp => ?_) fun p hp => ?_
  · obtain rfl : 0x5000 = p := Option.some.inj (ctxStart_retain.symm.trans hp)
    exact ⟨by decide, fun h => absurd h (by decide)⟩
  · obtain rfl : 0x5000 = p := Option.some.inj (ctxStart_retain.symm.trans hp)
    exact h

theorem contexts_oneHandle_stream :
    (ctxStart.commands [.retain 0, .streamGetCtx 0]).OneHandle ⟨1, 1⟩ := by
  have hans : (ctxStart.commands [.retain 0]).answer ⟨1, 1⟩ (.streamGetCtx 0) oneCtxEnv
      (ctxStart.commands [.retain 0]).m.dev = some 0x5000 := by decide +kernel
  have first := ctxStart_retained (CtxSt.Clean ⟨1, 1⟩) fun x hx => (by cases hx)
  refine contexts_oneHandle (first.serve (.streamGetCtx 0) oneCtxEnv
    (ctxStart.commands [.retain 0]).m.dev (fun p hp => ?_) fun p hp _ => ?_)
  · obtain rfl : 0x5000 = p := Option.some.inj (hans.symm.trans hp)
    exact (by decide : 0x5000 ≠ 0)
  · obtain rfl : 0x5000 = p := Option.some.inj (hans.symm.trans hp)
    exact ⟨_, rfl, by decide +kernel⟩

/-- Two retains of a device give two handles. -/
theorem contexts_twoHandles : ¬∀ (k : Key) (s : CtxSt),
    CtxRun k (fun _ _ _ => True) s → s.OneHandle k := by
  intro h
  have hans : (ctxStart.commands [.retain 0]).answer ⟨1, 1⟩ (.retain 0) oneCtxEnv
      (ctxStart.commands [.retain 0]).m.dev = some 0x5000 := by decide +kernel
  have run : CtxRun ⟨1, 1⟩ (fun _ _ _ => True) (ctxStart.commands [.retain 0, .retain 0]) := by
    have first := ctxStart_retained (fun _ _ _ => True) trivial
    refine first.serve (.retain 0) oneCtxEnv (ctxStart.commands [.retain 0]).m.dev
      (fun p hp => ?_) fun _ _ => trivial
    obtain rfl : 0x5000 = p := Option.some.inj (hans.symm.trans hp)
    exact ⟨by decide, fun _ => by decide +kernel⟩
  have hgiven : (ctxStart.commands [.retain 0, .retain 0]).given =
      [(0x5000, 0x10000002), (0x5000, 0x10000001)] := by decide +kernel
  have hvalues := (h _ _ run).values (0x5000, 0x10000002) (by rw [hgiven]; decide)
    (0x5000, 0x10000001) (by rw [hgiven]; decide) rfl
  exact absurd hvalues (by decide)

end HmCuda
