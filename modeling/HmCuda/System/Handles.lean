import HmCuda.System.PinnedLookup

/-! The clients of one backend: all of them use the session whose key the backend fixed
itself, so a handle lives as long as no request of any of them disturbs it. -/

namespace HmCuda
open Layout

/-! Handles from the counter -/

/-- In the environment `e`, `m` adds at most one resource, under the next handle. -/
def Once {α : Type} (e : Env) (k : Key) (ty : ResType) (m : CoreM α) : Prop :=
  ∀ s, (m.run e s).2.tab = s.tab ∨ ∃ p n, (m.run e s).2.tab = (s.tab.resAdd k ty p n).2

section
variable {α : Type} {e : Env} {k : Key} {ty : ResType}

theorem once_pure (a : α) : Once e k ty (pure a : CoreM α) := fun _ => .inl rfl

theorem once_resAdd (p n : Nat) : Once e k ty (resAdd k ty p n) := fun _ => .inr ⟨p, n, rfl⟩

theorem once_query {β : Type} {m : QueryM β} {f : β → CoreM α} (h : ∀ b, Once e k ty (f b)) :
    Once e k ty (query m >>= f) := fun s => h _ ((query m).run e s).2

theorem once_lib {fn : LibFn} {args : List Nat} {data : List (List UInt8)} {f : LibRet → CoreM α}
    (h : ∀ n, Once e k ty (f (e.ret n ⟨fn, args, data⟩))) :
    Once e k ty (query (lib fn args data) >>= f) :=
  fun s => h s.dev.clock ((query (lib fn args data)).run e s).2

theorem once_then {β : Type} {m : CoreM β} {f : β → CoreM α} (hm : Once e k ty m)
    (hf : ∀ b s, ((f b).run e s).2.tab = s.tab) : Once e k ty (m >>= f) := by
  intro s
  rw [Prog.bind_run, hf]
  exact hm s

theorem once_ite {c : Prop} [Decidable c] {m n : CoreM α} (hm : c → Once e k ty m)
    (hn : ¬c → Once e k ty n) : Once e k ty (if c then m else n) := by
  split
  · exact hm ‹_›
  · exact hn ‹_›

theorem once_withCtxM {missing : α} {f : Context → CoreM α} (h : ∀ c, Once e k ty (f c)) :
    Once e k ty (withCtxM k missing f) := by
  intro s
  unfold withCtxM
  dsimp only
  rcases s.tab.ctxGet k with _ | c
  · exact .inl rfl
  · exact h c s

theorem once_acquire {fn : LibFn} {args : List Nat} {size : Nat} {missing : Nat × Option Nat}
    {refused : Option Nat} : Once e k ty (withCtxM k missing fun _ => do
      let r ← query (lib fn args [])
      if r.code = 0 then
        let h ← resAdd k ty (r.out 0) size
        return (r.code, some h)
      else
        return (r.code, refused)) :=
  once_withCtxM fun _ => once_query fun _ => once_ite
    (fun _ => once_then (once_resAdd _ _) fun _ _ => rfl) fun _ => once_pure _

theorem once_coreRegisterFatbin (image : List UInt8) :
    Once e k .module (coreRegisterFatbin k image) :=
  once_withCtxM fun _ => once_query fun _ => once_ite
    (fun _ => once_query fun _ => once_pure _)
    fun _ => once_then (once_resAdd _ _) fun _ _ => rfl

theorem once_coreCuStreamGetCtx (stream : Nat) : Once e k .context (coreCuStreamGetCtx k stream) :=
  once_withCtxM fun _ => once_query fun _ => once_ite
    (fun _ => once_ite (fun _ => once_then (once_resAdd _ _) fun _ _ => rfl) fun _ => once_pure _)
    fun _ => once_pure _

theorem once_coreCuDevicePrimaryCtxRetain {device : Nat}
    (h : ∀ n, (e.ret n ⟨.cuDevicePrimaryCtxRetain, [device], []⟩).code = 0) :
    Once e k .context (coreCuDevicePrimaryCtxRetain k device) :=
  once_withCtxM fun _ => once_lib fun n => once_ite (fun hne => absurd (h n) hne) fun _ =>
    once_then (once_resAdd _ _) fun _ _ => rfl

end

/-- The type of the resources a command numbers with the counter. -/
def Cmd.counted : Cmd → Option ResType
  | .rt .streamCreate | .drv .cuStreamCreate => some .stream
  | .rt .eventCreate | .drv .cuEventCreate => some .event
  | .rt .registerFatbin => some .module
  | .drv .cuDevicePrimaryCtxRetain | .drv .cuStreamGetCtx => some .context
  | .drv .cuMemCreate | .drv .cuMemImportFromShareableHandle | .drv .cuMulticastCreate =>
    some .genericAlloc
  | _ => none

def RetainGranted (env : Env) (p : Nat → UInt8) : Prop :=
  ∀ n, (env.ret n ⟨.cuDevicePrimaryCtxRetain, [cuDevicePrimaryCtxRetainReq.device.get p], []⟩).code = 0

section
variable {α : Type} {e : CmdEnv} {s s' : CmdSt} {k : Key} {ty : ResType}

theorem Once.handler {m : CoreM α} (h : Once e.env k ty m) (hs : s'.be = (m.run e.env s.be).2) :
    s'.be.tab = s.be.tab ∨ ∃ p n, s'.be.tab = (s.be.tab.resAdd k ty p n).2 := by
  rw [hs]
  exact h s.be

theorem dispatchCmd_counted {n : Nat} {c : Cmd} (hn : Cmd.ofCode n = some c)
    (hc : c.counted = some ty)
    (hr : c = .drv .cuDevicePrimaryCtxRetain → RetainGranted e.env s.payload) :
    ((dispatchCmd n).run e s).2.be.tab = s.be.tab ∨
      ∃ p n', ((dispatchCmd n).run e s).2.be.tab = (s.be.tab.resAdd e.key ty p n').2 := by
  rw [dispatchCmd, hn]
  rcases c with c | c <;> cases c <;> cases hc
  case rt.streamCreate | rt.eventCreate | drv.cuStreamCreate | drv.cuEventCreate | drv.cuMemCreate
      | drv.cuMemImportFromShareableHandle | drv.cuMulticastCreate =>
    exact Once.handler once_acquire rfl
  case rt.registerFatbin =>
    show ((runtimeHandleCmd .registerFatbin).run e s).2.be.tab = _ ∨ _
    unfold runtimeHandleCmd handleRegisterFatbin
    simp only [Prog.bind_run, Prog.ite_run, key_run]
    split
    all_goals exact Once.handler (once_coreRegisterFatbin _) rfl
  case drv.cuStreamGetCtx => exact Once.handler (once_coreCuStreamGetCtx _) rfl
  case drv.cuDevicePrimaryCtxRetain =>
    exact Once.handler (once_coreCuDevicePrimaryCtxRetain (hr rfl)) rfl

theorem processElem_counted {env : Env} {el : Elem} {m : Machine} {c : Cmd}
    (hc : el.cmd m = some c) (hty : c.counted = some ty)
    (hr : el.cmd m = some (.drv .cuDevicePrimaryCtxRetain) →
      RetainGranted env (cmdStart env el m).payload) :
    ((processElem k el).run env m).2.tab = m.tab ∨
      ∃ p n, ((processElem k el).run env m).2.tab = (m.tab.resAdd k ty p n).2 := by
  have hret : c = .drv .cuDevicePrimaryCtxRetain → RetainGranted env (cmdStart env el m).payload :=
    fun hret => hr (hret ▸ hc)
  rcases processElem_tab k el env m with h | h
  · exact .inl h
  · rw [h]
    exact dispatchCmd_counted (e := cmdEnv env k el) (s := cmdStart env el m) hc hty hret

end

/-! One request -/

def Tables.entry (t : Tables) (k : Key) (ty : ResType) (h : Nat) : Option Resource :=
  (t.ctxGet k).bind (·.resFind ty h)

/-- The operation neither ends the session, nor releases the handle, nor enters a resource
that is found under it; numbering from the counter is apart from this. -/
def TabOp.Spares (ty : ResType) (h : Nat) : TabOp → Prop
  | .create _ | .unlink _ | .fresh .. => False
  | .add _ ty' p n a => ty' = ty → (⟨a, p, n⟩ : Resource).covers ty h = false
  | .remove _ ty' a => ty' = ty → a ≠ h

/-- A request spares a handle: CUDA grants a retain, the counter does not come to the handle,
and so for every operation that the request can make when CUDA answers it as `env` does. -/
structure Spared (k : Key) (ty : ResType) (h : Nat) (env : Env) (el : Elem) (m : Machine) :
    Prop where
  retain : el.cmd m = some (.drv .cuDevicePrimaryCtxRetain) →
    RetainGranted env (cmdStart env el m).payload
  counter : ∀ c, el.cmd m = some c → c.counted = some ty → add64 m.tab.nextHandle 1 ≠ h
  other : ∀ c, el.cmd m = some c → c.counted = none → ∀ o, CmdOp k (cmdStart env el m).payload c o →
    Granted env o → o.Spares ty h

section
variable {k : Key} {ty : ResType} {h : Nat} {r : Resource} {t : Tables}

theorem entry_update {k' : Key} {f : Context → Context} (hf : ∀ c, (f c).key = c.key)
    (he : t.entry k ty h = some r)
    (hr : ∀ c, c.resFind ty h = some r → (f c).resFind ty h = some r) :
    (t.ctxUpdate k' f).entry k ty h = some r := by
  obtain ⟨c, hc, hfind⟩ := Option.bind_eq_some_iff.mp he
  rw [Tables.entry, Tables.ctxGet_ctxUpdate _ _ _ hf]
  split
  next hk =>
    subst hk
    rw [hc]
    exact hr c hfind
  next => exact he

theorem entry_add {k' : Key} (he : t.entry k ty h = some r) {ty' : ResType} {p n a : Nat}
    (hs : ty' = ty → (⟨a, p, n⟩ : Resource).covers ty h = false) :
    (t.resAddWithHandle k' ty' p n a).entry k ty h = some r := by
  refine entry_update (fun _ => rfl) he fun c hr => ?_
  rw [Context.resFind, Context.push_resources]
  split
  next hty =>
    subst hty
    rw [List.find?_cons_of_neg (by simp [hs rfl])]
    exact hr
  next => exact hr

theorem entry_remove {k' : Key} (he : t.entry k ty h = some r) (hh : r.handle = h) {ty' : ResType}
    {a : Nat} (hs : ty' = ty → a ≠ h) : (t.resRemove k' ty' a).entry k ty h = some r := by
  refine entry_update (fun _ => rfl) he fun c hr => ?_
  rw [Context.resFind, Context.resRemove_resources]
  split
  next hty =>
    subst hty
    refine Ranges.find?_eraseP hr ?_
    simp [hh, Ne.symm (hs rfl)]
  next => exact hr

theorem TabOp.Spares.entry {o : TabOp} (hs : o.Spares ty h) (he : t.entry k ty h = some r)
    (hh : r.handle = h) : (o.apply t).entry k ty h = some r := by
  cases o with
  | create | unlink | fresh => exact hs.elim
  | add => exact entry_add he hs
  | remove => exact entry_remove he hh hs

theorem entry_after {ops : List TabOp} (hs : ∀ o ∈ ops, o.Spares ty h)
    (he : t.entry k ty h = some r) (hh : r.handle = h) : (t.after ops).entry k ty h = some r := by
  induction ops generalizing t with
  | nil => exact he
  | cons o ops ih =>
    exact ih (fun x hx => hs x (List.mem_cons_of_mem _ hx))
      ((hs o List.mem_cons_self).entry he hh)

theorem entry_resAdd (he : t.entry k ty h = some r) {ty' : ResType} (hty : ty'.ranged = false)
    (hne : ty' = ty → add64 t.nextHandle 1 ≠ h) (p n : Nat) :
    (t.resAdd k ty' p n).2.entry k ty h = some r := by
  refine entry_add (t := { t with nextHandle := _ }) he fun heq => ?_
  subst heq
  simp [Resource.covers, hty, hne rfl]

theorem Cmd.counted_ranged {c : Cmd} {ty : ResType} (h : c.counted = some ty) :
    ty.ranged = false := by
  rcases c with c | c <;> cases c <;> cases h <;> rfl

theorem Spared.entry {env : Env} {el : Elem} {m : Machine} (hs : Spared k ty h env el m)
    (he : m.tab.entry k ty h = some r) (hh : r.handle = h) :
    ((processElem k el).run env m).2.tab.entry k ty h = some r := by
  rcases hc : el.cmd m with _ | c
  · obtain ⟨ops, hops, htab⟩ := processElem_granted k el env m
    rw [htab]
    refine entry_after (fun o ho => ?_) he hh
    obtain ⟨c, hc', -⟩ := hops o ho
    exact absurd (hc.symm.trans hc') (by simp)
  rcases hcount : c.counted with _ | ty'
  · obtain ⟨ops, hops, htab⟩ := processElem_granted k el env m
    rw [htab]
    refine entry_after (fun o ho => ?_) he hh
    obtain ⟨c', hc', hop, hg⟩ := hops o ho
    obtain rfl : c = c' := Option.some.inj (hc.symm.trans hc')
    exact hs.other c hc hcount o hop hg
  · have hcounter (heq : ty' = ty) := hs.counter c hc (heq ▸ hcount)
    rcases processElem_counted (k := k) hc hcount hs.retain with htab | ⟨p, n, htab⟩
    · rw [htab]
      exact he
    · rw [htab]
      exact entry_resAdd he (Cmd.counted_ranged hcount) hcounter p n

end

/-! Runs of several clients -/

/-- The runs of a backend in which every request spares the handle, each from one of the
clients `ι`, which the backend does not tell apart. -/
inductive SharedRun (ι : Type) (k : Key) (ty : ResType) (h : Nat) (m₀ : Machine) : Machine → Prop
  | start : SharedRun ι k ty h m₀ m₀
  | serve {m : Machine} (run : SharedRun ι k ty h m₀ m) (client : ι) (el : Elem) (env : Env)
      (spared : Spared k ty h env el m) : SharedRun ι k ty h m₀ ((processElem k el).run env m).2
  | idle {m : Machine} (run : SharedRun ι k ty h m₀ m) (d : Device) :
      SharedRun ι k ty h m₀ { m with dev := d }

theorem SharedRun.entry {ι : Type} {k : Key} {ty : ResType} {h : Nat} {m₀ m : Machine}
    {r : Resource} (run : SharedRun ι k ty h m₀ m) (he : m₀.tab.entry k ty h = some r)
    (hh : r.handle = h) : m.tab.entry k ty h = some r := by
  induction run with
  | start => exact he
  | serve _ _ _ _ spared ih => exact spared.entry ih hh
  | idle _ _ ih => exact ih

/-- A handle keeps resolving to its object through every run whose requests spare it, whichever
client sends them. -/
theorem handle_kept {ι : Type} {k : Key} {ty : ResType} {h : Nat} {m₀ m : Machine} {r : Resource}
    (he : m₀.tab.entry k ty h = some r) (hh : r.handle = h) (run : SharedRun ι k ty h m₀ m) :
    (m.tab.ctxGet k).map (·.resGet ty h) = some (r.pointer ty h) := by
  obtain ⟨c, hc, hr⟩ := Option.bind_eq_some_iff.mp (run.entry he hh)
  rw [hc, Option.map_some, c.resGet_eq, hr]
  rfl

/-! Device memory of one client at 0x8000, and a request of another -/

def secondMem (cmd : Nat) : Machine :=
  let d := (aliasRun 0x8000).dev
  { aliasRun 0x8000 with dev := { d with eng := { d.eng with
    mem := Function.update d.eng.mem (.req 3) fun a => (Bytes.le 4 cmd).getD a 0 } } }

def secondElem : Elem := ⟨[⟨.req 3, 0, 16⟩], [⟨.resp 3, 0, 16⟩]⟩

theorem secondElem_spared :
    Spared ⟨1, 1⟩ .mem 0x8000 (aliasEnv 0x8000) secondElem (secondMem RtCmd.eventCreate.code) := by
  have hcmd : secondElem.cmd (secondMem RtCmd.eventCreate.code) = some (.rt .eventCreate) := by
    decide +kernel
  refine ⟨fun h => ?_, fun c h hc => ?_, fun c h hc => ?_⟩
  · rw [hcmd] at h
    cases h
  all_goals
    obtain rfl := Option.some.inj (hcmd.symm.trans h)
    cases hc

theorem handle_kept_eventCreate :
    (((processElem ⟨1, 1⟩ secondElem).run (aliasEnv 0x8000)
      (secondMem RtCmd.eventCreate.code)).2.tab.ctxGet ⟨1, 1⟩).map (·.resGet .mem 0x8000) =
        some 0x8000 := by
  have he : (aliasRun 0x8000).tab.entry ⟨1, 1⟩ .mem 0x8000 = some ⟨0x8000, 0x8000, 64⟩ := by
    decide +kernel
  have run : SharedRun Bool ⟨1, 1⟩ .mem 0x8000 (aliasRun 0x8000)
      ((processElem ⟨1, 1⟩ secondElem).run (aliasEnv 0x8000) (secondMem RtCmd.eventCreate.code)).2 :=
    .serve (.idle .start (secondMem RtCmd.eventCreate.code).dev) true secondElem _ secondElem_spared
  exact handle_kept he rfl run

/-- The second client's INIT takes the first one's memory out of the table. -/
theorem handle_lost : (aliasRun 0x8000).tab.entry ⟨1, 1⟩ .mem 0x8000 = some ⟨0x8000, 0x8000, 64⟩ ∧
    (((processElem ⟨1, 1⟩ secondElem).run (aliasEnv 0x8000)
      (secondMem RtCmd.init.code)).2.tab.ctxGet ⟨1, 1⟩).map (·.resGet .mem 0x8000) = some 0 := by
  constructor <;> decide +kernel

end HmCuda
