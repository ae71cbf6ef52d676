import HmCuda.Host.ProcessSpec
import HmCuda.Host.Replies

/-! What a request can do to the session tables: the handler of each command changes
them by the operations listed for the command, in whatever state the backend is. -/

namespace HmCuda
open Layout

/-- One change of the tables, as resource.c makes it. -/
inductive TabOp where
  | create (k : Key)
  | unlink (k : Key)
  | add (k : Key) (t : ResType) (realPtr size handle : Nat)
  | fresh (k : Key) (t : ResType) (realPtr size : Nat)
  | remove (k : Key) (t : ResType) (handle : Nat)

def TabOp.apply : TabOp → Tables → Tables
  | create k, t => t.ctxCreate k
  | unlink k, t => t.ctxUnlink k
  | add k ty p n h, t => t.resAddWithHandle k ty p n h
  | fresh k ty p n, t => (t.resAdd k ty p n).2
  | remove k ty h, t => t.resRemove k ty h

def Tables.after (t : Tables) (ops : List TabOp) : Tables := ops.foldl (fun t o => o.apply t) t

/-- In the environment `e`, `m` changes the tables by operations in `P` only. -/
def Only {α : Type} (e : Env) (P : TabOp → Prop) (m : CoreM α) : Prop :=
  ∀ s, ∃ ops, (∀ o ∈ ops, P o) ∧ (m.run e s).2.tab = s.tab.after ops

section Only
variable {α β : Type} {e : Env} {P : TabOp → Prop} {k : Key}

theorem only_pure (a : α) : Only e P (pure a : CoreM α) := fun _ => ⟨[], by simp, rfl⟩

theorem only_query (m : QueryM α) : Only e P (query m) := fun _ => ⟨[], by simp, rfl⟩

theorem only_bind {m : CoreM α} {f : α → CoreM β} (hm : Only e P m) (hf : ∀ a, Only e P (f a)) :
    Only e P (m >>= f) := by
  intro s
  obtain ⟨x, hx, h1⟩ := hm s
  obtain ⟨y, hy, h2⟩ := hf (m.run e s).1 (m.run e s).2
  refine ⟨x ++ y, fun o ho => (List.mem_append.mp ho).elim (hx o) (hy o), ?_⟩
  rw [Prog.bind_run, h2, h1, Tables.after, Tables.after, Tables.after, List.foldl_append]

theorem only_ite {c : Prop} [Decidable c] {m n : CoreM α} (hm : c → Only e P m)
    (hn : ¬c → Only e P n) : Only e P (if c then m else n) := by
  split
  · exact hm ‹_›
  · exact hn ‹_›

theorem only_lib {fn : LibFn} {args : List Nat} {data : List (List UInt8)} {f : LibRet → CoreM α}
    (h : ∀ n, Only e P (f (e.ret n ⟨fn, args, data⟩))) :
    Only e P (query (lib fn args data) >>= f) := by
  intro s
  obtain ⟨ops, h1, h2⟩ := h s.dev.clock ((query (lib fn args data)).run e s).2
  exact ⟨ops, h1, h2⟩

theorem only_table (o : TabOp) (ho : P o) : Only e P (table o.apply) :=
  fun _ => ⟨[o], by simpa using ho, rfl⟩

theorem only_resAdd {t : ResType} {realPtr size : Nat} (ho : P (.fresh k t realPtr size)) :
    Only e P (resAdd k t realPtr size) := fun _ => ⟨[.fresh k t realPtr size], by simpa using ho, rfl⟩

theorem only_withCtxM {missing : α} {f : Context → CoreM α}
    (h : ∀ c, c.key = k → Only e P (f c)) : Only e P (withCtxM k missing f) := by
  intro s
  unfold withCtxM
  dsimp only
  rcases hc : s.tab.ctxGet k with _ | c
  · exact ⟨[], by simp, rfl⟩
  · exact h c (by simpa using List.find?_some hc) s

theorem only_firstError {ι : Type} {f : ι → CoreM Nat} (h : ∀ i, Only e P (f i)) (is : List ι) :
    Only e P (Prog.firstError f is) := by
  induction is with
  | nil => exact only_pure 0
  | cons i is ih => exact only_bind (h i) fun err => only_ite (fun _ => only_pure err) fun _ => ih

theorem only_acquire {fn : LibFn} {args : List Nat} {t : ResType} {size : Nat}
    {missing : Nat × Option Nat} {refused : Option Nat}
    (ho : ∀ n, P (.fresh k t ((e.ret n ⟨fn, args, []⟩).out 0) size)) :
    Only e P (withCtxM k missing fun _ => do
      let r ← query (lib fn args [])
      if r.code = 0 then
        let h ← resAdd k t (r.out 0) size
        return (r.code, some h)
      else
        return (r.code, refused)) :=
  only_withCtxM fun _ _ => only_lib fun n => only_ite
    (fun _ => only_bind (only_resAdd (ho n)) fun _ => only_pure _) fun _ => only_pure _

theorem only_reserve {fn : LibFn} {args : List Nat} {size : Nat} {missing : Nat × Option Nat}
    {refused : Option Nat}
    (ho : ∀ n, (e.ret n ⟨fn, args, []⟩).code = 0 → P (.add k .mem
      ((e.ret n ⟨fn, args, []⟩).out 0) size ((e.ret n ⟨fn, args, []⟩).out 0))) :
    Only e P (withCtxM k missing fun _ => do
      let r ← query (lib fn args [])
      if r.code = 0 then
        table (·.resAddWithHandle k .mem (r.out 0) size (r.out 0))
        return (r.code, some (r.out 0))
      else
        return (r.code, refused)) :=
  only_withCtxM fun _ _ => only_lib fun n => only_ite
    (fun h0 => only_bind (only_table (.add k .mem _ size _) (ho n h0)) fun _ => only_pure _)
    fun _ => only_pure _

theorem only_release {fn : LibFn} {args : Context → List Nat} {t : ResType} {h missing err : Nat}
    (ho : P (.remove k t h)) :
    Only e P (withCtxM k missing fun c =>
      let p := c.resGet t h
      if p = 0 then return err
      else do
        let r ← query (lib fn (args c) [])
        table (·.resRemove k t h)
        return r.code) :=
  only_withCtxM fun _ _ => only_ite (fun _ => only_pure _) fun _ => only_lib fun _ =>
    only_bind (only_table (.remove k t h) ho) fun _ => only_pure _

end Only

/-- The operations a request can lead to: the command, the payload and the session
decide everything but the pointers, which CUDA chooses. -/
def CmdOp (k : Key) (p : Nat → UInt8) : Cmd → TabOp → Prop
  | .rt .init, o => o = .unlink k ∨ o = .create k
  | .rt .malloc, o => ∃ r, o = .add k .mem r (mallocReq.size.get p) r
  | .rt .free, o => o = .remove k .mem (freeReq.devPtr.get p)
  | .rt .streamCreate, o => ∃ r, o = .fresh k .stream r 0
  | .rt .eventCreate, o => ∃ r, o = .fresh k .event r 0
  | .rt .eventDestroy, o => o = .remove k .event (eventDestroyReq.event.get p)
  | .rt .registerFatbin, o => ∃ r, o = .fresh k .module r 0
  | .rt .registerFunction, o => ∃ r, o = .add k .function r 0 (registerFunctionReq.hostFun.get p)
  | .drv .cuDevicePrimaryCtxRetain, o => o = .unlink k ∨ o = .create k ∨
      ∃ r, o = .fresh k .context r (cuDevicePrimaryCtxRetainReq.device.get p)
  | .drv .cuStreamCreate, o => ∃ r, o = .fresh k .stream r 0
  | .drv .cuStreamDestroy, o => o = .remove k .stream (cuStreamDestroyReq.stream.get p)
  | .drv .cuStreamGetCtx, o => ∃ r, o = .fresh k .context r 0
  | .drv .cuEventCreate, o => ∃ r, o = .fresh k .event r 0
  | .drv .cuEventDestroy, o => o = .remove k .event (cuEventDestroyReq.event.get p)
  | .drv .cuMemAlloc, o => ∃ r, o = .add k .mem r (cuMemAllocReq.bytesize.get p) r
  | .drv .cuMemFree, o => o = .remove k .mem (cuMemFreeReq.dptr.get p)
  | .drv .cuMemHostAlloc, o => ∃ r t, (t = .hostMem ∨ t = .hostDevPtr) ∧
      o = .add k t r (cuMemHostAllocReq.bytesize.get p) (cuMemHostAllocReq.guestVa.get p)
  | .drv .cuMemFreeHost, o => ∃ t, (t = .hostMem ∨ t = .hostDevPtr) ∧
      o = .remove k t (cuMemFreeHostReq.guestVa.get p)
  | .drv .cuMemCreate, o => ∃ r, o = .fresh k .genericAlloc r (cuMemCreateReq.size.get p)
  | .drv .cuMemRelease, o => o = .remove k .genericAlloc (cuMemReleaseReq.handle.get p)
  | .drv .cuMemAddressReserve, o => ∃ r, o = .add k .mem r (cuMemAddressReserveReq.size.get p) r
  | .drv .cuMemAddressFree, o => o = .remove k .mem (cuMemAddressFreeReq.ptr.get p)
  | .drv .cuMemImportFromShareableHandle, o => ∃ r, o = .fresh k .genericAlloc r 0
  | .drv .cuMulticastCreate, o => ∃ r, o = .fresh k .genericAlloc r 0
  | _, _ => False

def reserves : List LibFn := [.cudaMalloc, .cuMemAlloc, .cuMemAddressReserve]

/-- A device range that is entered is one that CUDA has handed out. -/
def Granted (env : Env) : TabOp → Prop
  | .add _ .mem r _ _ => ∃ n c, c.fn ∈ reserves ∧ (env.ret n c).code = 0 ∧ (env.ret n c).out 0 = r
  | _ => True

/-- The calls that hand out device or pinned memory; each takes the size first. -/
def allots : List LibFn := .cuMemHostAlloc :: reserves

/-- Memory that is entered is what such a call has handed out for its size. -/
def Allotted (env : Env) : TabOp → Prop
  | .add _ t r n _ => t = .mem ∨ t = .hostMem → ∃ i fn rest, fn ∈ allots ∧
      (env.ret i ⟨fn, n :: rest, []⟩).code = 0 ∧ (env.ret i ⟨fn, n :: rest, []⟩).out 0 = r
  | _ => True

theorem granted_reserve {env : Env} {k : Key} {fn : LibFn} {n size : Nat} {rest : List Nat}
    (hfn : fn ∈ reserves) (h : (env.ret n ⟨fn, size :: rest, []⟩).code = 0) :
    Granted env (.add k .mem ((env.ret n ⟨fn, size :: rest, []⟩).out 0) size
        ((env.ret n ⟨fn, size :: rest, []⟩).out 0)) ∧
      Allotted env (.add k .mem ((env.ret n ⟨fn, size :: rest, []⟩).out 0) size
        ((env.ret n ⟨fn, size :: rest, []⟩).out 0)) :=
  ⟨⟨n, _, hfn, h, rfl⟩, fun _ => ⟨n, fn, rest, List.mem_cons_of_mem _ hfn, h, rfl⟩⟩

def Still {α : Type} (m : CmdM α) : Prop := ∀ t, Prog.Keeps (fun s => s.be.tab = t) m

section Still
variable {α β : Type}

theorem Still.eq {m : CmdM α} (h : Still m) (e : CmdEnv) (s : CmdSt) :
    (m.run e s).2.be.tab = s.be.tab := h s.be.tab e s rfl

theorem still_bind {m : CmdM α} {f : α → CmdM β} (hm : Still m) (hf : ∀ a, Still (f a)) :
    Still (m >>= f) := fun t => Prog.keeps_bind (hm t) fun a => hf a t

theorem still_pure (a : α) : Still (pure a : CmdM α) := fun _ => Prog.keeps_pure a

theorem still_ite {c : Prop} [Decidable c] {m n : CmdM α} (hm : Still m) (hn : Still n) :
    Still (if c then m else n) := fun t => Prog.keeps_ite (fun _ => hm t) fun _ => hn t

theorem still_ask : Still (Prog.ask : CmdM CmdEnv) := fun _ => Prog.keeps_ask

theorem still_get : Still (Prog.get : CmdM CmdSt) := fun _ => Prog.keeps_get

theorem still_key : Still key := fun _ _ _ h => h

theorem still_req (f : Field) : Still (req f) := fun _ _ _ h => h

theorem still_peek (off len : Nat) : Still (peek off len) := fun _ _ _ h => h

theorem still_poke (off : Nat) (bs : List UInt8) : Still (poke off bs) := fun _ _ _ h => h

theorem still_query (m : QueryM α) : Still (core (query m)) := fun _ _ _ h => h

theorem still_setErr (n : Nat) : Still (setErr n) := fun _ _ _ h => h

theorem still_setD2h : Still setD2h := fun _ _ _ h => h

theorem still_reply (t : CStruct) (v : List (Option Nat)) (r : List UInt8) :
    Still (reply t v r) := fun _ _ _ h => h

theorem still_answer (m : QueryM Nat) : Still (answer (query m)) := fun _ _ _ h => h

theorem still_dim3 (f : Nat → Field) : Still (dim3 f) := fun _ _ _ h => h

theorem still_collect {ι : Type} {f : ι → CmdM α} (h : ∀ i, Still (f i)) (is : List ι) :
    Still (Prog.collect f is) := fun t => Prog.keeps_collect (fun i => h i t) is

theorem still_readDesc (i : Nat) : Still (readDesc i) :=
  still_bind (still_req _) fun _ => still_bind (still_req _) fun _ =>
    still_bind (still_req _) fun _ => still_pure _

theorem still_transfer (dev : Field) (f : Nat → Nat → Chunk → QueryM Nat) (cs : List Chunk) :
    Still (transfer dev f cs) :=
  still_bind (still_setErr 0) fun _ => still_ite
    (still_bind (still_req dev) fun _ => still_bind (still_req _) fun _ =>
      still_bind (still_query _) fun _ => still_setErr _)
    (still_pure ())

theorem still_copyIn (f : Nat → Nat → Chunk → QueryM Nat) : Still (copyIn f) :=
  still_bind still_ask fun _ => still_ite
    (still_bind (still_req _) fun _ => still_ite (still_transfer _ f _) (still_setErr 1))
    (still_setErr 1)

theorem still_copyOut (f : Nat → Nat → Chunk → QueryM Nat) {after : CmdM Unit}
    (ha : Still after) : Still (copyOut f after) :=
  still_bind still_setD2h fun _ => still_bind still_ask fun _ => still_ite
    (still_bind (still_req _) fun _ => still_ite
      (still_bind (still_transfer _ f _) fun _ => ha) (still_setErr 1))
    (still_setErr 1)

theorem still_syncAfter : Still syncAfter :=
  still_bind still_get fun _ => still_ite
    (still_bind still_key fun _ => still_bind (still_req _) fun _ => still_answer _)
    (still_pure ())

theorem still_copyLegacy (gpa : Nat) {f : Nat → Space × Nat → CmdM Unit}
    (hf : ∀ n hp, Still (f n hp)) : Still (copyLegacy gpa f) := by
  refine still_bind (still_req _) fun n => still_bind still_ask fun e => ?_
  rcases e.env.gpaToVa gpa n with _ | ⟨hp, plen⟩
  · exact still_setErr 1
  · exact still_ite (still_setErr 1) (hf n hp)

theorem still_handleMemcpy : Still handleMemcpy := by
  refine still_bind still_key fun k => still_bind (still_req _) fun kind => ?_
  refine still_ite (still_bind (still_req _) fun src => still_ite (still_copyIn _) ?_) ?_
  · refine still_copyLegacy src fun n hp => ?_
    exact still_bind (still_req _) fun _ => still_bind (still_req _) fun _ => still_answer _
  refine still_ite (still_bind (still_req _) fun dst => still_ite
    (still_copyOut _ still_syncAfter) ?_) ?_
  · refine still_copyLegacy dst fun n hp => ?_
    exact still_bind (still_req _) fun _ => still_bind (still_req _) fun _ =>
      still_bind (still_answer _) fun _ => still_syncAfter
  · exact still_bind (still_req _) fun _ => still_bind (still_req _) fun _ =>
      still_bind (still_req _) fun _ => still_bind (still_req _) fun _ => still_answer _

theorem still_handleCuMemcpy : Still handleCuMemcpy :=
  still_bind still_key fun _ => still_bind (still_req _) fun _ => still_ite (still_copyIn _)
    (still_ite (still_copyOut _ (still_pure ())) (still_setErr 1))

theorem still_translateArg (c : Context) (args i : Nat) : Still (translateArg c args i) :=
  still_bind (still_peek _ _) fun _ => still_ite (still_poke _ _) (still_pure ())

theorem still_launchTail {m : CmdM (List (List UInt8))} (hm : Still m) (config : List Nat) :
    Still (do
      let params ← m
      let res ← core (query (lib .cuLaunchKernel config params))
      if res.code ≠ 0 then
        let _ ← core (query (lib .cuGetErrorString [res.code] []))
        return 719
      return 0) :=
  still_bind hm fun _ => still_bind (still_query _) fun _ => still_ite
    (still_bind (still_query _) fun _ => still_pure _) (still_pure _)

theorem still_coreLaunchKernel (k : Key) (func : Nat) (grid block : List Nat)
    (sharedMem stream args argsSize : Nat) :
    Still (coreLaunchKernel k func grid block sharedMem stream args argsSize) := by
  refine still_bind still_get fun s => ?_
  rcases s.be.tab.ctxGet k with _ | c
  · exact still_pure _
  have translate : Still (Prog.forEach (translateArg c args) (List.range (argsSize / 8))) :=
    fun t => Prog.keeps_forEach (fun i => still_translateArg c args i t) _
  refine still_ite (still_pure _) (still_ite ?_ (still_launchTail (still_pure []) _))
  exact still_bind translate fun _ => still_bind still_ask fun _ =>
    still_launchTail (still_collect (fun _ => still_peek _ _) _) _

theorem still_handleLaunchKernel : Still handleLaunchKernel :=
  still_bind (still_req _) fun _ => still_bind (still_dim3 _) fun _ =>
    still_bind (still_dim3 _) fun _ => still_bind (still_req _) fun _ =>
    still_bind (still_req _) fun _ => still_bind (still_req _) fun _ =>
    still_bind still_key fun _ =>
    still_bind (still_coreLaunchKernel _ _ _ _ _ _ _ _) fun _ => still_setErr _

theorem still_handleGetErrorText (m : QueryM LibRet) : Still (handleGetErrorText m) := by
  refine still_bind (still_query m) fun r => still_bind (still_setErr 0) fun _ => ?_
  rcases r.str with _ | str
  · exact still_pure ()
  · exact still_bind still_ask fun _ => still_bind still_get fun _ => still_reply _ _ _

theorem still_handleCuGetErrorText (t : CStruct) (m : QueryM LibRet) :
    Still (handleCuGetErrorText t m) := by
  refine still_bind (still_query m) fun r => still_bind (still_setErr _) fun _ => ?_
  rcases r.str with _ | str <;> exact still_reply _ _ _

theorem still_handleCuDeviceGetName : Still handleCuDeviceGetName :=
  still_bind (still_req _) fun _ => still_bind (still_query _) fun _ => still_ite
    (still_bind (still_req _) fun _ => still_bind (still_query _) fun _ =>
      still_bind (still_setErr _) fun _ => still_reply _ _ _) (still_setErr 2)

theorem still_handleCuMemSetAccess : Still handleCuMemSetAccess :=
  still_bind (still_req _) fun _ => still_bind (still_query _) fun _ => still_ite
    (still_bind (still_collect still_readDesc _) fun _ => still_bind still_key fun _ =>
      still_bind (still_req _) fun _ => still_bind (still_req _) fun _ => still_answer _)
    (still_setErr 2)

end Still

section Ops
variable {α : Type} {e : CmdEnv} {s s' : CmdSt} {P : TabOp → Prop}

theorem Only.handler {m : CoreM α} (h : Only e.env P m) (hs : s'.be = (m.run e.env s.be).2) :
    ∃ ops, (∀ o ∈ ops, P o) ∧ s'.be.tab = s.be.tab.after ops := by
  rw [hs]
  exact h s.be

theorem Still.handler {m : CmdM α} (h : Still m) :
    ∃ ops, (∀ o ∈ ops, P o) ∧ (m.run e s).2.be.tab = s.be.tab.after ops :=
  ⟨[], by simp, h.eq e s⟩

variable {env : Env} {k : Key}

theorem only_ctxDestroy {c : Context} (hu : P (.unlink c.key)) : Only env P (ctxDestroy c) :=
  only_bind (only_table (.unlink c.key) hu) fun _ => only_query _

theorem Only.still {m : CoreM α} (h : Only env (fun _ => False) m) (s : Machine) :
    (m.run env s).2.tab = s.tab := by
  obtain ⟨ops, h1, h2⟩ := h s
  rw [h2, List.eq_nil_iff_forall_not_mem.mpr fun o ho => (h1 o ho).elim]
  rfl

theorem ctxUnlink_of_none {t : Tables} (h : t.ctxGet k = none) : t.ctxUnlink k = t := by
  have hk : ∀ c ∈ t.ctxs, ¬decide (c.key = k) = true := List.find?_eq_none.mp h
  unfold Tables.ctxUnlink
  rw [List.eraseP_of_forall_not hk]

theorem coreInit_tab (s : Machine) :
    ((coreInit k).run env s).2.tab = (s.tab.ctxUnlink k).ctxCreate k := by
  have rest : Only env (fun _ => False) (do
      let res ← query (lib .cuInit [0] [])
      if res.code ≠ 0 then
        let _ ← query (lib .cuGetErrorString [res.code] [])
        return 3
      let err ← query (lib .cudaSetDevice [0] [])
      if err.code ≠ 0 then
        return err.code
      let err ← query (lib .cudaFree [0] [])
      if err.code ≠ 0 then
        let _ ← query (lib .cudaDeviceReset [] [])
        let err ← query (lib .cudaSetDevice [0] [])
        if err.code ≠ 0 then
          return err.code
        let err ← query (lib .cudaFree [0] [])
        return err.code
      return err.code) := by
    refine only_bind (only_query _) fun r => only_ite
      (fun _ => only_bind (only_query _) fun _ => only_pure _) fun _ => ?_
    refine only_bind (only_query _) fun r => only_ite (fun _ => only_pure _) fun _ => ?_
    refine only_bind (only_query _) fun r => only_ite (fun _ => ?_) fun _ => only_pure _
    refine only_bind (only_query _) fun _ => only_bind (only_query _) fun r => ?_
    exact only_ite (fun _ => only_pure _) fun _ => only_bind (only_query _) fun _ => only_pure _
  unfold coreInit
  rcases hg : s.tab.ctxGet k with _ | c
  · simp only [Prog.bind_run, Prog.get_run, hg]
    refine (rest.still _).trans ?_
    rw [ctxUnlink_of_none hg]
    rfl
  · have hk : c.key = k := by simpa using List.find?_some hg
    simp only [Prog.bind_run, Prog.get_run, hg]
    refine (rest.still _).trans ?_
    rw [← hk]
    rfl

theorem only_coreInit (hu : P (.unlink k)) (hc : P (.create k)) : Only env P (coreInit k) :=
  fun s => ⟨[.unlink k, .create k], by simp [hu, hc], coreInit_tab s⟩

theorem only_coreFree {p : Nat} (ho : P (.remove k .mem p)) : Only env P (coreFree k p) :=
  only_withCtxM fun _ _ => only_ite (fun _ => only_lib fun _ =>
    only_bind (only_table (.remove k .mem p) ho) fun _ => only_pure _) fun _ => only_pure _

theorem only_coreEventDestroy {h : Nat} (ho : P (.remove k .event h)) :
    Only env P (coreEventDestroy k h) :=
  only_withCtxM fun _ _ => only_ite (fun _ => only_lib fun _ =>
    only_bind (only_table (.remove k .event h) ho) fun _ => only_pure _) fun _ => only_pure _

theorem only_coreRegisterFatbin {image : List UInt8} (ho : ∀ r, P (.fresh k .module r 0)) :
    Only env P (coreRegisterFatbin k image) :=
  only_withCtxM fun _ _ => only_lib fun _ => only_ite
    (fun _ => only_bind (only_query _) fun _ => only_pure _)
    fun _ => only_bind (only_resAdd (ho _)) fun _ => only_pure _

theorem only_coreRegisterFunction {module hostFun : Nat} {name : List UInt8}
    (ho : ∀ r, P (.add k .function r 0 hostFun)) :
    Only env P (coreRegisterFunction k module hostFun name) :=
  only_lib fun _ => only_ite (fun _ => only_bind (only_query _) fun _ => only_pure _)
    fun _ => only_bind (only_table (.add k .function _ 0 hostFun) (ho _)) fun _ => only_pure _

theorem only_coreCuDevicePrimaryCtxRetain {device : Nat} (hu : P (.unlink k)) (hc : P (.create k))
    (ho : ∀ r, P (.fresh k .context r device)) :
    Only env P (coreCuDevicePrimaryCtxRetain k device) := by
  refine only_withCtxM fun c hk => only_lib fun _ => only_ite (fun _ => ?_) fun _ => ?_
  · refine only_bind (only_query _) fun _ => only_bind (only_ctxDestroy (hk ▸ hu)) fun _ => ?_
    refine only_bind (only_table (.create k) hc) fun _ => only_lib fun _ => only_ite
      (fun _ => only_pure _) fun _ => only_bind (only_resAdd (ho _)) fun _ => ?_
    exact only_bind (only_query _) fun _ => only_pure _
  · exact only_bind (only_resAdd (ho _)) fun _ => only_bind (only_query _) fun _ => only_pure _

theorem only_coreCuStreamGetCtx {stream : Nat} (ho : ∀ r, P (.fresh k .context r 0)) :
    Only env P (coreCuStreamGetCtx k stream) :=
  only_withCtxM fun _ _ => only_lib fun _ => only_ite
    (fun _ => only_ite (fun _ => only_bind (only_resAdd (ho _)) fun _ => only_pure _)
      fun _ => only_pure _)
    fun _ => only_pure _

theorem only_coreCuMemHostAllocVq {bytesize flags va off len : Nat} {hp : Space × Nat}
    (ho : ∀ n, (env.ret n ⟨.cuMemHostAlloc, [bytesize, flags ||| 2], []⟩).code = 0 → P (.add k
      .hostMem ((env.ret n ⟨.cuMemHostAlloc, [bytesize, flags ||| 2], []⟩).out 0) bytesize va))
    (hd : ∀ r, P (.add k .hostDevPtr r bytesize va)) :
    Only env P (coreCuMemHostAllocVq k bytesize flags va off hp len) := by
  refine only_withCtxM fun _ _ => only_ite (fun _ => ?_) fun _ => only_query _
  refine only_lib fun n => only_ite (fun _ => only_pure _) fun h0 => ?_
  have h0 := not_not.mp h0
  refine only_bind (only_table (.add k .hostMem _ bytesize va) (ho n h0)) fun _ => ?_
  refine only_lib fun _ => only_ite (fun _ => ?_) fun _ => only_query _
  exact only_bind (only_table (.add k .hostDevPtr _ bytesize va) (hd _)) fun _ => only_query _

theorem only_coreCuMemFreeHost {va : Nat}
    (ho : ∀ t, t = .hostMem ∨ t = .hostDevPtr → P (.remove k t va)) :
    Only env P (coreCuMemFreeHost k va) :=
  only_withCtxM fun _ _ => only_ite (fun _ => only_pure _) fun _ => only_lib fun _ =>
    only_bind (only_table (.remove k .hostMem va) (ho _ (.inl rfl))) fun _ =>
    only_bind (only_table (.remove k .hostDevPtr va) (ho _ (.inr rfl))) fun _ => only_pure _

theorem runtimeHandleCmd_ops (c : RtCmd) (e : CmdEnv) (s : CmdSt) :
    ∃ ops, (∀ o ∈ ops, CmdOp e.key s.payload (.rt c) o ∧ Granted e.env o ∧ Allotted e.env o) ∧
      ((runtimeHandleCmd c).run e s).2.be.tab = s.be.tab.after ops := by
  cases c
  case init => exact (only_coreInit ⟨.inl rfl, trivial, trivial⟩ ⟨.inr rfl, trivial, trivial⟩).handler rfl
  case malloc =>
    exact Only.handler (only_reserve fun n h => ⟨⟨_, rfl⟩, granted_reserve (by simp [reserves]) h⟩) rfl
  case free => exact Only.handler (only_coreFree ⟨rfl, trivial, trivial⟩) rfl
  case streamCreate => exact Only.handler (only_acquire fun n => ⟨⟨_, rfl⟩, trivial, trivial⟩) rfl
  case eventCreate => exact Only.handler (only_acquire fun n => ⟨⟨_, rfl⟩, trivial, trivial⟩) rfl
  case eventDestroy => exact Only.handler (only_coreEventDestroy ⟨rfl, trivial, trivial⟩) rfl
  case memcpy => exact still_handleMemcpy.handler
  case launchKernel => exact still_handleLaunchKernel.handler
  case getErrorString | getErrorName =>
    exact (still_bind (still_req _) fun _ => still_handleGetErrorText _).handler
  case registerFatbin =>
    unfold runtimeHandleCmd handleRegisterFatbin
    simp only [Prog.bind_run, Prog.ite_run, key_run]
    split
    all_goals exact Only.handler (only_coreRegisterFatbin fun r => ⟨⟨r, rfl⟩, trivial, trivial⟩) rfl
  case registerFunction =>
    unfold runtimeHandleCmd handleRegisterFunction
    simp only [Prog.bind_run, Prog.get_run, key_run]
    split
    · exact ⟨[], by simp, rfl⟩
    · simp only [Prog.ite_run]
      split
      · exact ⟨[], by simp, rfl⟩
      · exact Only.handler (only_coreRegisterFunction fun r => ⟨⟨r, rfl⟩, trivial, by simp [Allotted]⟩) rfl
  all_goals exact ⟨[], by simp, rfl⟩

theorem driverHandleCmd_ops (c : DrvCmd) (e : CmdEnv) (s : CmdSt) :
    ∃ ops, (∀ o ∈ ops, CmdOp e.key s.payload (.drv c) o ∧ Granted e.env o ∧ Allotted e.env o) ∧
      ((driverHandleCmd c).run e s).2.be.tab = s.be.tab.after ops := by
  cases c
  case cuDevicePrimaryCtxRetain =>
    exact Only.handler (only_coreCuDevicePrimaryCtxRetain ⟨.inl rfl, trivial, trivial⟩
      ⟨.inr (.inl rfl), trivial, trivial⟩ fun r => ⟨.inr (.inr ⟨r, rfl⟩), trivial, trivial⟩) rfl
  case cuStreamCreate | cuEventCreate | cuMemCreate | cuMemImportFromShareableHandle
      | cuMulticastCreate =>
    exact Only.handler (only_acquire fun n => ⟨⟨_, rfl⟩, trivial, trivial⟩) rfl
  case cuStreamDestroy | cuEventDestroy | cuMemFree | cuMemRelease | cuMemAddressFree =>
    exact Only.handler (only_release ⟨rfl, trivial, trivial⟩) rfl
  case cuStreamGetCtx => exact Only.handler (only_coreCuStreamGetCtx fun r => ⟨⟨r, rfl⟩, trivial, trivial⟩) rfl
  case cuMemAlloc | cuMemAddressReserve =>
    exact Only.handler (only_reserve fun n h => ⟨⟨_, rfl⟩, granted_reserve (by simp [reserves]) h⟩) rfl
  case cuMemFreeHost =>
    exact Only.handler (only_coreCuMemFreeHost fun t ht => ⟨⟨t, ht, rfl⟩, trivial, trivial⟩) rfl
  case cuMemHostAlloc =>
    unfold driverHandleCmd handleCuMemHostAlloc
    simp only [Prog.bind_run, Prog.ask_run, Prog.ite_run, key_run]
    split
    · split
      · exact Only.handler (only_firstError
          (fun ch => only_coreCuMemHostAllocVq
            (fun n h0 => ⟨⟨_, _, .inl rfl, rfl⟩, trivial, fun _ => ⟨n, _, _, by simp [allots], h0, rfl⟩⟩)
            fun r => ⟨⟨r, _, .inr rfl, rfl⟩, trivial, by simp [Allotted]⟩) _) rfl
      · exact ⟨[], by simp, rfl⟩
    · exact ⟨[], by simp, rfl⟩
  case cuMemcpy => exact still_handleCuMemcpy.handler
  case cuDeviceGetName => exact still_handleCuDeviceGetName.handler
  case cuMemSetAccess => exact still_handleCuMemSetAccess.handler
  case cuGetErrorString | cuGetErrorName =>
    exact (still_bind (still_req _) fun _ => still_handleCuGetErrorText _ _).handler
  all_goals exact ⟨[], by simp, rfl⟩

/-- Everything one request does to the tables. -/
theorem dispatchCmd_ops (n : Nat) (e : CmdEnv) (s : CmdSt) :
    ∃ ops, (∀ o ∈ ops, ∃ c, Cmd.ofCode n = some c ∧ CmdOp e.key s.payload c o ∧
        Granted e.env o ∧ Allotted e.env o) ∧
      ((dispatchCmd n).run e s).2.be.tab = s.be.tab.after ops := by
  rcases hc : Cmd.ofCode n with _ | c
  · refine ⟨[], by simp, ?_⟩
    rw [dispatchCmd, hc]
    rfl
  · have hops : ∃ ops, (∀ o ∈ ops, CmdOp e.key s.payload c o ∧ Granted e.env o ∧ Allotted e.env o) ∧
        ((dispatchCmd n).run e s).2.be.tab = s.be.tab.after ops := by
      rw [dispatchCmd, hc]
      cases c with
      | rt c => exact runtimeHandleCmd_ops c e s
      | drv c => exact driverHandleCmd_ops c e s
    obtain ⟨ops, h1, h2⟩ := hops
    exact ⟨ops, fun o ho => ⟨c, rfl, h1 o ho⟩, h2⟩

def Elem.cmd (el : Elem) (m : Machine) : Option Cmd :=
  Cmd.ofCode (reqHeader.cmdType.get fun a =>
    (iovToBuf m.dev.eng.mem el.outSg (sizeof reqHeader)).getD a 0)

theorem processElem_tab (k : Key) (el : Elem) (env : Env) (m : Machine) :
    ((processElem k el).run env m).2.tab = m.tab ∨ ((processElem k el).run env m).2.tab =
      ((dispatchCmd (reqHeader.cmdType.get fun a =>
        (iovToBuf m.dev.eng.mem el.outSg (sizeof reqHeader)).getD a 0)).run (cmdEnv env k el)
          (cmdStart env el m)).2.be.tab := by
  by_cases hlen : (iovToBuf m.dev.eng.mem el.outSg (sizeof reqHeader)).length = sizeof reqHeader
  · right
    simp only [processElem, hlen, ne_eq, not_true_eq_false, if_false, deliver_tab]
  · left
    simp only [processElem, hlen, ne_eq, not_false_eq_true, if_true]

/-- Everything the backend does to the tables for one element. -/
theorem processElem_allotted (k : Key) (el : Elem) (env : Env) (m : Machine) :
    ∃ ops, (∀ o ∈ ops, ∃ c, el.cmd m = some c ∧ CmdOp k (cmdStart env el m).payload c o ∧
        Granted env o ∧ Allotted env o) ∧
      ((processElem k el).run env m).2.tab = m.tab.after ops := by
  rcases processElem_tab k el env m with h | h
  · exact ⟨[], by simp, h⟩
  · rw [h]
    exact dispatchCmd_ops _ (cmdEnv env k el) (cmdStart env el m)

theorem processElem_granted (k : Key) (el : Elem) (env : Env) (m : Machine) :
    ∃ ops, (∀ o ∈ ops, ∃ c, el.cmd m = some c ∧ CmdOp k (cmdStart env el m).payload c o ∧
        Granted env o) ∧
      ((processElem k el).run env m).2.tab = m.tab.after ops := by
  obtain ⟨ops, h1, h2⟩ := processElem_allotted k el env m
  refine ⟨ops, fun o ho => ?_, h2⟩
  obtain ⟨c, hcmd, hop, hg, -⟩ := h1 o ho
  exact ⟨c, hcmd, hop, hg⟩

theorem processElem_ops (k : Key) (el : Elem) (env : Env) (m : Machine) :
    ∃ ops, (∀ o ∈ ops, ∃ c, CmdOp k (cmdStart env el m).payload c o) ∧
      ((processElem k el).run env m).2.tab = m.tab.after ops := by
  obtain ⟨ops, h1, h2⟩ := processElem_granted k el env m
  refine ⟨ops, fun o ho => ?_, h2⟩
  obtain ⟨c, -, hc, -⟩ := h1 o ho
  exact ⟨c, hc⟩

end Ops

/-- The states of a backend that has served elements of one session, each in whatever
environment, with anything happening to its memory in between. -/
inductive Reachable (k : Key) : Machine → Prop where
  | start (mem : ByteMem Space) : Reachable k (.start mem)
  | serve {m : Machine} (h : Reachable k m) (el : Elem) (env : Env) :
      Reachable k ((processElem k el).run env m).2
  | idle {m : Machine} (h : Reachable k m) (d : Device) : Reachable k { m with dev := d }

/-- What every operation preserves holds of every reachable table. -/
theorem Reachable.tab_induction {k : Key} {I : Tables → Prop} (h0 : I .start)
    (hstep : ∀ t o c p, CmdOp k p c o → I t → I (o.apply t)) {m : Machine} (h : Reachable k m) :
    I m.tab := by
  induction h with
  | start => exact h0
  | @serve m _ el env ih =>
    obtain ⟨ops, hops, htab⟩ := processElem_ops k el env m
    rw [htab]
    clear htab
    generalize m.tab = t at ih
    induction ops generalizing t with
    | nil => exact ih
    | cons o ops ihops =>
      obtain ⟨c, hc⟩ := hops o List.mem_cons_self
      exact ihops (fun o' ho' => hops o' (List.mem_cons_of_mem _ ho')) _ (hstep t o c _ hc ih)
  | idle _ _ ih => exact ih

end HmCuda
