import HmCuda.Host.Replies
import HmCuda.System.RequestBounds
import HmCuda.System.Teardown

/-! What decides the bytes of a response. A handler fills in a structure on its stack and
copies all of it out, and reads the request without looking at its length. -/

namespace HmCuda
open Layout

/-- Other contents of the stack and of the heap behind the request. -/
def Env.withMemory (e : Env) (stale : Nat → Nat → UInt8) (heap : Heap) : Env :=
  { e with stale := stale, heap := heap }

/-! The operations on the tables and on CUDA -/

/-- `m` looks at no memory that is not its own. -/
def OwnQ {α : Type} (m : QueryM α) : Prop :=
  ∀ e stale heap t v, m.run ⟨Env.withMemory e stale heap, t⟩ v = m.run ⟨e, t⟩ v

def Own {α : Type} (m : CoreM α) : Prop :=
  ∀ e stale heap s, m.run (Env.withMemory e stale heap) s = m.run e s

section Own
variable {α β ι : Type} {k : Key}

theorem ownQ_bind {m : QueryM α} {f : α → QueryM β} (hm : OwnQ m) (hf : ∀ a, OwnQ (f a)) :
    OwnQ (m >>= f) := by
  intro e stale heap t v
  rw [Prog.bind_run, Prog.bind_run, hm, hf]

theorem ownQ_pure (a : α) : OwnQ (pure a : QueryM α) := fun _ _ _ _ _ => rfl

theorem ownQ_ite {c : Prop} [Decidable c] {m n : QueryM α} (hm : OwnQ m) (hn : OwnQ n) :
    OwnQ (if c then m else n) := by
  split
  · exact hm
  · exact hn

theorem ownQ_firstError {f : ι → QueryM Nat} (h : ∀ x, OwnQ (f x)) (xs : List ι) :
    OwnQ (Prog.firstError f xs) := by
  intro e stale heap t v
  induction xs generalizing v with
  | nil => rfl
  | cons x xs ih => rw [Prog.firstError_cons, Prog.firstError_cons, h, ih]

theorem ownQ_withCtx {missing : α} {f : Context → QueryM α} (h : ∀ c, OwnQ (f c)) :
    OwnQ (withCtx k missing f) := by
  intro e stale heap t v
  unfold withCtx
  dsimp only
  rcases t.ctxGet k with _ | c
  · rfl
  · exact h c e stale heap t v

theorem own_bind {m : CoreM α} {f : α → CoreM β} (hm : Own m) (hf : ∀ a, Own (f a)) :
    Own (m >>= f) := by
  intro e stale heap s
  rw [Prog.bind_run, Prog.bind_run, hm, hf]

theorem own_query {m : QueryM α} (h : OwnQ m) : Own (query m) := by
  intro e stale heap s
  show (_, _) = (_, _)
  rw [h e stale heap s.tab s.dev]

theorem own_ite {c : Prop} [Decidable c] {m n : CoreM α} (hm : Own m) (hn : Own n) :
    Own (if c then m else n) := by
  split
  · exact hm
  · exact hn

theorem own_firstError {f : ι → CoreM Nat} (h : ∀ x, Own (f x)) (xs : List ι) :
    Own (Prog.firstError f xs) := by
  intro e stale heap s
  induction xs generalizing s with
  | nil => rfl
  | cons x xs ih => rw [Prog.firstError_cons, Prog.firstError_cons, h, ih]

theorem own_withCtxM {missing : α} {f : Context → CoreM α} (h : ∀ c, Own (f c)) :
    Own (withCtxM k missing f) := by
  intro e stale heap s
  unfold withCtxM
  dsimp only
  rcases s.tab.ctxGet k with _ | c
  · rfl
  · exact h c e stale heap s

theorem ownQ_freeResourceList (t : ResType) (rs : List Resource) :
    OwnQ (freeResourceList t rs) := by
  induction rs with
  | nil => exact ownQ_pure ()
  | cons r rs ih =>
    unfold freeResourceList
    split
    · exact ownQ_ite (ownQ_bind (fun _ _ _ _ _ => rfl) fun _ => ih) ih
    · exact ih

theorem own_ctxDestroy (c : Context) : Own (ctxDestroy c) := by
  refine own_bind (fun _ _ _ _ => rfl) fun _ => own_query ?_
  generalize ResType.all = ts
  induction ts with
  | nil => exact ownQ_pure ()
  | cons t ts ih => exact ownQ_bind (ownQ_freeResourceList t _) fun _ => ih

theorem ownQ_registerGuestMemory : OwnQ registerGuestMemory := by
  have regions (rs : List (Nat × Nat)) : OwnQ (registerRegions rs) := by
    induction rs with
    | nil => exact ownQ_pure ()
    | cons r rs ih =>
      unfold registerRegions
      split
      · exact ownQ_bind (fun _ _ _ _ _ => rfl) fun _ => ih
      · exact ih
  intro e stale heap t v
  unfold registerGuestMemory
  simp only [Prog.bind_run, Prog.get_run]
  split
  · rfl
  · simp only [Prog.bind_run, Prog.ask_run]
    rw [regions]
    rfl

theorem own_coreInit : Own (coreInit k) := by
  have rest : Own (do
      table (·.ctxCreate k)
      let res ← query (lib .cuInit [0] [])
      if res.code ≠ 0 then
        let _ ← query (lib .cuGetErrorString [res.code] [])
        return 3
      let err ← query (lib .cudaSetDevice [0] [])
      if err.code ≠ 0 then
        return err.code
      let err ← query (lib .cudaFree [0] [])
      if err.code ≠ 0 then
        let _ ← query (lib .cudaDeviceReset [] [])
        let err ← query (lib .cudaSetDevice [0] [])
        if err.code ≠ 0 then
          return err.code
        let err ← query (lib .cudaFree [0] [])
        return err.code
      return err.code) := by
    refine own_bind (fun _ _ _ _ => rfl) fun _ => ?_
    refine own_bind (fun _ _ _ _ => rfl) fun r => own_ite (fun _ _ _ _ => rfl) ?_
    refine own_bind (fun _ _ _ _ => rfl) fun r => own_ite (fun _ _ _ _ => rfl) ?_
    refine own_bind (fun _ _ _ _ => rfl) fun r => own_ite ?_ (fun _ _ _ _ => rfl)
    refine own_bind (fun _ _ _ _ => rfl) fun _ => own_bind (fun _ _ _ _ => rfl) fun r => ?_
    exact own_ite (fun _ _ _ _ => rfl) (fun _ _ _ _ => rfl)
  intro e stale heap s
  unfold coreInit
  simp only [Prog.bind_run, Prog.get_run]
  rcases s.tab.ctxGet k with _ | c
  · exact rest e stale heap s
  · exact own_bind (own_ctxDestroy c) (fun _ => rest) e stale heap s

theorem own_retain (device : Nat) : Own (coreCuDevicePrimaryCtxRetain k device) := by
  have accept (r : LibRet) : Own (do
      let h ← resAdd k .context (r.out 0) device
      query registerGuestMemory
      return (0, some h) : CoreM (Nat × Option Nat)) :=
    own_bind (fun _ _ _ _ => rfl) fun _ =>
      own_bind (own_query ownQ_registerGuestMemory) fun _ => fun _ _ _ _ => rfl
  refine own_withCtxM fun c => own_bind (fun _ _ _ _ => rfl) fun r => own_ite ?_ (accept r)
  refine own_bind (fun _ _ _ _ => rfl) fun _ => own_bind (own_ctxDestroy c) fun _ => ?_
  refine own_bind (fun _ _ _ _ => rfl) fun _ => own_bind (fun _ _ _ _ => rfl) fun r => ?_
  exact own_ite (fun _ _ _ _ => rfl) (accept r)

theorem own_call {fn : LibFn} {args : List Nat} {data : List (List UInt8)}
    {f : LibRet → CoreM α} (hf : ∀ r, Own (f r)) : Own (query (lib fn args data) >>= f) :=
  own_bind (fun _ _ _ _ => rfl) hf

theorem ownQ_call {fn : LibFn} {args : List Nat} {data : List (List UInt8)}
    {f : LibRet → QueryM α} (hf : ∀ r, OwnQ (f r)) : OwnQ (lib fn args data >>= f) :=
  ownQ_bind (fun _ _ _ _ _ => rfl) hf

theorem own_coreMalloc (size : Nat) : Own (coreMalloc k size) :=
  own_withCtxM fun _ => own_call fun _ => own_ite (fun _ _ _ _ => rfl) fun _ _ _ _ => rfl

theorem own_coreFree (p : Nat) : Own (coreFree k p) :=
  own_withCtxM fun _ => own_ite (fun _ _ _ _ => rfl) fun _ _ _ _ => rfl

theorem ownQ_coreMemset (p value count : Nat) : OwnQ (coreMemset k p value count) :=
  ownQ_withCtx fun _ => ownQ_ite (fun _ _ _ _ _ => rfl) fun _ _ _ _ _ => rfl

theorem own_coreStreamCreate (flags : Nat) : Own (coreStreamCreate k flags) :=
  own_withCtxM fun _ => own_call fun _ => own_ite (fun _ _ _ _ => rfl) fun _ _ _ _ => rfl

theorem own_coreEventCreate (flags : Nat) : Own (coreEventCreate k flags) :=
  own_withCtxM fun _ => own_call fun _ => own_ite (fun _ _ _ _ => rfl) fun _ _ _ _ => rfl

theorem own_coreEventDestroy (event : Nat) : Own (coreEventDestroy k event) :=
  own_withCtxM fun _ => own_ite (fun _ _ _ _ => rfl) fun _ _ _ _ => rfl

theorem ownQ_coreDeviceSynchronize : OwnQ coreDeviceSynchronize :=
  ownQ_bind (fun _ _ _ _ _ => rfl) fun _ =>
    ownQ_ite (fun _ _ _ _ _ => rfl) fun _ _ _ _ _ => rfl

theorem ownQ_corePop : OwnQ (corePopCallConfiguration k) :=
  ownQ_withCtx fun _ => ownQ_call fun _ =>
    ownQ_ite (fun _ _ _ _ _ => rfl) fun _ _ _ _ _ => rfl

theorem ownQ_coreInitModule (fatbin : Nat) : OwnQ (coreInitModule k fatbin) :=
  ownQ_withCtx fun _ => ownQ_ite (fun _ _ _ _ _ => rfl) fun _ _ _ _ _ => rfl

theorem ownQ_coreGetDeviceProperties (device : Nat) :
    OwnQ (coreGetDeviceProperties device) :=
  ownQ_call fun _ => ownQ_ite (fun _ _ _ _ _ => rfl) fun _ _ _ _ _ => rfl

theorem ownQ_rtQuery (fn : LibFn) (args : List Nat) : OwnQ (rtQuery fn args) :=
  ownQ_call fun _ => ownQ_ite (fun _ _ _ _ _ => rfl) fun _ _ _ _ _ => rfl

theorem ownQ_coreFuncGetAttributes (func : Nat) : OwnQ (coreFuncGetAttributes k func) := by
  have attrs (f : Nat) (as : List Nat) : OwnQ (funcAttributes f as) := by
    induction as with
    | nil => exact ownQ_pure []
    | cons a as ih => exact ownQ_call fun _ => ownQ_bind ih fun _ => ownQ_pure _
  exact ownQ_withCtx fun _ => ownQ_ite (fun _ _ _ _ _ => rfl) <|
    ownQ_bind (attrs _ _) fun _ => ownQ_pure _

theorem own_coreRegisterFatbin (image : List UInt8) : Own (coreRegisterFatbin k image) :=
  own_withCtxM fun _ => own_call fun _ => own_ite (fun _ _ _ _ => rfl) fun _ _ _ _ => rfl

theorem own_coreRegisterFunction (module hostFun : Nat) (name : List UInt8) :
    Own (coreRegisterFunction k module hostFun name) :=
  own_call fun _ => own_ite (fun _ _ _ _ => rfl) fun _ _ _ _ => rfl

theorem ownQ_coreMemcpy (dst src count kind : Nat) (hp : Option (Space × Nat)) (stream : Nat) :
    OwnQ (coreMemcpy k dst src count kind hp stream) := by
  refine ownQ_withCtx fun c => ownQ_ite ?_ (ownQ_ite ?_ (ownQ_ite ?_ ?_))
  · refine ownQ_ite (fun _ _ _ _ _ => rfl) ?_
    rcases hp with _ | hp
    · exact fun _ _ _ _ _ => rfl
    · refine ownQ_bind (fun _ _ _ _ _ => rfl) fun data => ownQ_ite ?_ ?_
      · refine ownQ_bind (fun _ _ _ _ _ => rfl) fun b => ownQ_ite ?_ fun _ _ _ _ _ => rfl
        refine ownQ_bind (fun _ _ _ _ _ => rfl) fun _ =>
          ownQ_bind (fun _ _ _ _ _ => rfl) fun _ =>
            ownQ_bind (fun _ _ _ _ _ => rfl) fun _ => ?_
        exact ownQ_ite (fun _ _ _ _ _ => rfl) fun _ _ _ _ _ => rfl
      · exact ownQ_bind (fun _ _ _ _ _ => rfl) fun _ =>
          ownQ_ite (fun _ _ _ _ _ => rfl) fun _ _ _ _ _ => rfl
  · refine ownQ_ite (fun _ _ _ _ _ => rfl) ?_
    rcases hp with _ | hp <;> exact fun _ _ _ _ _ => rfl
  · exact ownQ_ite (fun _ _ _ _ _ => rfl) <| ownQ_ite (fun _ _ _ _ _ => rfl)
      fun _ _ _ _ _ => rfl
  · exact fun _ _ _ _ _ => rfl

theorem ownQ_coreRuntimeMemcpyHtodVq (dst : Nat) (hp : Space × Nat) (count stream : Nat) :
    OwnQ (coreRuntimeMemcpyHtodVq k dst hp count stream) :=
  ownQ_withCtx fun _ => ownQ_ite (fun _ _ _ _ _ => rfl) fun _ _ _ _ _ => rfl

theorem own_coreCuStreamCreate (flags : Nat) : Own (coreCuStreamCreate k flags) :=
  own_withCtxM fun _ => own_call fun _ => own_ite (fun _ _ _ _ => rfl) fun _ _ _ _ => rfl

theorem own_coreCuStreamDestroy (stream : Nat) : Own (coreCuStreamDestroy k stream) :=
  own_withCtxM fun _ => own_ite (fun _ _ _ _ => rfl) fun _ _ _ _ => rfl

theorem own_coreCuStreamGetCtx (stream : Nat) : Own (coreCuStreamGetCtx k stream) :=
  own_withCtxM fun _ => own_call fun _ => own_ite
    (own_ite (fun _ _ _ _ => rfl) fun _ _ _ _ => rfl) fun _ _ _ _ => rfl

theorem own_coreCuEventCreate (flags : Nat) : Own (coreCuEventCreate k flags) :=
  own_withCtxM fun _ => own_call fun _ => own_ite (fun _ _ _ _ => rfl) fun _ _ _ _ => rfl

theorem own_coreCuEventDestroy (event : Nat) : Own (coreCuEventDestroy k event) :=
  own_withCtxM fun _ => own_ite (fun _ _ _ _ => rfl) fun _ _ _ _ => rfl

theorem own_coreCuMemAlloc (bytesize : Nat) : Own (coreCuMemAlloc k bytesize) :=
  own_withCtxM fun _ => own_call fun _ => own_ite (fun _ _ _ _ => rfl) fun _ _ _ _ => rfl

theorem own_coreCuMemFree (handle : Nat) : Own (coreCuMemFree k handle) :=
  own_withCtxM fun _ => own_ite (fun _ _ _ _ => rfl) fun _ _ _ _ => rfl

theorem ownQ_copyToHostAlloc (guestVa byteOffset len : Nat) (hp : Space × Nat) :
    OwnQ (copyToHostAlloc k guestVa byteOffset hp len) := by
  refine ownQ_withCtx fun c => ?_
  rcases c.resFind .hostMem guestVa with _ | r
  · exact fun _ _ _ _ _ => rfl
  · exact ownQ_ite (fun _ _ _ _ _ => rfl) fun _ _ _ _ _ => rfl

theorem own_coreCuMemHostAllocVq (bytesize flags guestVa byteOffset len : Nat)
    (hp : Space × Nat) :
    Own (coreCuMemHostAllocVq k bytesize flags guestVa byteOffset hp len) := by
  have copy := own_query (ownQ_copyToHostAlloc (k := k) guestVa byteOffset len hp)
  refine own_withCtxM fun _ => own_ite (own_call fun _ => ?_) copy
  refine own_ite (fun _ _ _ _ => rfl) (own_bind (fun _ _ _ _ => rfl) fun _ => ?_)
  exact own_call fun _ => own_ite (own_bind (fun _ _ _ _ => rfl) fun _ => copy) copy

theorem own_coreCuMemFreeHost (guestVa : Nat) : Own (coreCuMemFreeHost k guestVa) :=
  own_withCtxM fun _ => own_ite (fun _ _ _ _ => rfl) fun _ _ _ _ => rfl

theorem ownQ_coreCuMemsetD32 (p value count : Nat) : OwnQ (coreCuMemsetD32 k p value count) :=
  ownQ_withCtx fun _ => ownQ_ite (fun _ _ _ _ _ => rfl) fun _ _ _ _ _ => rfl

theorem ownQ_coreCuMemcpyAsync (dst src n stream : Nat) :
    OwnQ (coreCuMemcpyAsync k dst src n stream) :=
  ownQ_withCtx fun _ => ownQ_ite (fun _ _ _ _ _ => rfl) fun _ _ _ _ _ => rfl

theorem ownQ_coreCuMemcpyHtodVq (dst : Nat) (hp : Space × Nat) (n stream : Nat) :
    OwnQ (coreCuMemcpyHtodVq k dst hp n stream) := by
  refine ownQ_withCtx fun c => ownQ_ite (fun _ _ _ _ _ => rfl) ?_
  rcases c.resFind .hostMem dst with _ | r
  · exact fun _ _ _ _ _ => rfl
  · refine ownQ_ite (fun _ _ _ _ _ => rfl) (ownQ_bind (fun _ _ _ _ _ => rfl) fun data => ?_)
    refine ownQ_ite (ownQ_bind (fun _ _ _ _ _ => rfl) fun _ => ?_) fun _ _ _ _ _ => rfl
    exact ownQ_ite (fun _ _ _ _ _ => rfl) fun _ _ _ _ _ => rfl

theorem ownQ_coreCuMemcpyDtohVq (src : Nat) (hp : Space × Nat) (n stream : Nat) :
    OwnQ (coreCuMemcpyDtohVq k src hp n stream) := by
  refine ownQ_withCtx fun c => ownQ_ite (fun _ _ _ _ _ => rfl) ?_
  rcases c.resFind .hostMem src with _ | r
  · exact fun _ _ _ _ _ => rfl
  · exact ownQ_ite (fun _ _ _ _ _ => rfl) fun _ _ _ _ _ => rfl

theorem ownQ_coreCuMemcpyHtod (dst src n : Nat) : OwnQ (coreCuMemcpyHtod k dst src n) :=
  ownQ_withCtx fun _ => ownQ_ite (fun _ _ _ _ _ => rfl) fun _ _ _ _ _ => rfl

theorem ownQ_coreCuPointerGetAttribute (attrib ptr : Nat) :
    OwnQ (coreCuPointerGetAttribute k attrib ptr) :=
  ownQ_withCtx fun _ => ownQ_ite (fun _ _ _ _ _ => rfl) fun _ _ _ _ _ => rfl

theorem own_acquireGeneric (fn : LibFn) (args : List Nat) (size : Nat) :
    Own (acquireGeneric k fn args size) :=
  own_withCtxM fun _ => own_call fun _ => own_ite (fun _ _ _ _ => rfl) fun _ _ _ _ => rfl

theorem own_coreCuMemRelease (handle : Nat) : Own (coreCuMemRelease k handle) :=
  own_withCtxM fun _ => own_ite (fun _ _ _ _ => rfl) fun _ _ _ _ => rfl

theorem ownQ_coreCuMemMap (va size offset alloc flags : Nat) :
    OwnQ (coreCuMemMap k va size offset alloc flags) :=
  ownQ_withCtx fun _ => ownQ_ite (fun _ _ _ _ _ => rfl) fun _ _ _ _ _ => rfl

theorem ownQ_coreCuMemUnmap (va size : Nat) : OwnQ (coreCuMemUnmap k va size) :=
  ownQ_withCtx fun _ => ownQ_ite (fun _ _ _ _ _ => rfl) fun _ _ _ _ _ => rfl

theorem own_coreCuMemAddressReserve (size alignment addr flags : Nat) :
    Own (coreCuMemAddressReserve k size alignment addr flags) :=
  own_withCtxM fun _ => own_call fun _ => own_ite (fun _ _ _ _ => rfl) fun _ _ _ _ => rfl

theorem own_coreCuMemAddressFree (va size : Nat) : Own (coreCuMemAddressFree k va size) :=
  own_withCtxM fun _ => own_ite (fun _ _ _ _ => rfl) fun _ _ _ _ => rfl

theorem ownQ_coreCuMemSetAccess (va size : Nat) (descs : List Nat) (count : Nat) :
    OwnQ (coreCuMemSetAccess k va size descs count) :=
  ownQ_withCtx fun _ => ownQ_ite (fun _ _ _ _ _ => rfl) fun _ _ _ _ _ => rfl

theorem ownQ_coreCuMemExport (alloc handleType flags : Nat) :
    OwnQ (coreCuMemExport k alloc handleType flags) :=
  ownQ_withCtx fun _ => ownQ_ite (fun _ _ _ _ _ => rfl) fun _ _ _ _ _ => rfl

theorem ownQ_coreCuMulticastAddDevice (mc device : Nat) :
    OwnQ (coreCuMulticastAddDevice k mc device) :=
  ownQ_withCtx fun _ => ownQ_ite (fun _ _ _ _ _ => rfl) fun _ _ _ _ _ => rfl

theorem ownQ_coreCuMulticastBindMem (mc mcOffset mem memOffset size flags : Nat) :
    OwnQ (coreCuMulticastBindMem k mc mcOffset mem memOffset size flags) :=
  ownQ_withCtx fun _ => ownQ_ite (fun _ _ _ _ _ => rfl) fun _ _ _ _ _ => rfl

theorem ownQ_coreCuMulticastUnbind (mc device mcOffset size : Nat) :
    OwnQ (coreCuMulticastUnbind k mc device mcOffset size) :=
  ownQ_withCtx fun _ => ownQ_ite (fun _ _ _ _ _ => rfl) fun _ _ _ _ _ => rfl

end Own

/-! Response structures -/

/-- The members that were assigned cover the structure. -/
def Covers (t : CStruct) (assigned : List Bool) : Prop :=
  ∀ a < sizeof t, ∃ i < assigned.length, assigned.getD i false = true ∧
    (field t i).off ≤ a ∧ a < (field t i).stop

instance (t : CStruct) (l : List Bool) : Decidable (Covers t l) :=
  inferInstanceAs (Decidable (∀ a < sizeof t, ∃ i < l.length, l.getD i false = true ∧
    (field t i).off ≤ a ∧ a < (field t i).stop))

theorem foldl_set_congr (t : CStruct) (vs : List (Option Nat × Nat)) {g h : Nat → UInt8} {a : Nat}
    (hgh : g a = h a ∨ ∃ v ∈ vs, v.1.isSome = true ∧ (field t v.2).off ≤ a ∧
      a < (field t v.2).stop) :
    (vs.foldl (fun h v => match v.1 with
      | some x => (field t v.2).set x h
      | none => h) g) a = (vs.foldl (fun h v => match v.1 with
      | some x => (field t v.2).set x h
      | none => h) h) a := by
  induction vs generalizing g h with
  | nil =>
    rcases hgh with hgh | ⟨v, hv, -⟩
    · exact hgh
    · cases hv
  | cons v vs ih =>
    refine ih ?_
    rcases hgh with hgh | ⟨w, hw, hs, hoff, hstop⟩
    · left
      rcases v with ⟨_ | x, i⟩
      · exact hgh
      · show (field t i).set x g a = (field t i).set x h a
        simp only [Field.set, hgh]
    · rcases List.mem_cons.mp hw with rfl | hw
      · left
        obtain ⟨x, hx⟩ := Option.isSome_iff_exists.mp hs
        simp only [hx, Field.set, hoff, hstop, and_self, if_true]
      · exact .inr ⟨w, hw, hs, hoff, hstop⟩

theorem respImage_congr {t : CStruct} {vals : List (Option Nat)}
    (h : Covers t (vals.map Option.isSome)) (g g' : Nat → UInt8) :
    respImage t g vals = respImage t g' vals := by
  refine List.map_congr_left fun a ha => foldl_set_congr t _ (.inr ?_)
  obtain ⟨i, hi, hset, hoff, hstop⟩ := h a (List.mem_range.mp ha)
  rw [List.length_map] at hi
  rw [List.getD_eq_getElem _ _ (by simpa using hi), List.getElem_map] at hset
  exact ⟨(vals[i], i), List.mk_mem_zipIdx_iff_getElem?.mpr (List.getElem?_eq_getElem hi), hset,
    hoff, hstop⟩

/-! What the outcome of a command assigns -/

def Accepts (env : Env) (m : Machine) (fn : LibFn) (args : List Nat) (data : List (List UInt8)) :
    Prop := (env.ret m.dev.clock ⟨fn, args, data⟩).code = 0

theorem Accepts.code {env : Env} {m : Machine} {fn : LibFn} {args : List Nat}
    {data : List (List UInt8)} (h : Accepts env m fn args data) :
    ((lib fn args data).run ⟨env, m.tab⟩ m.dev).1.code = 0 := h

def TextCopied (env : Env) (m : Machine) (fn : LibFn) (args : List Nat) : Prop :=
  ∀ str ∈ (env.ret m.dev.clock ⟨fn, args, []⟩).str,
    str.length + 1 + sizeof getErrorStringResp ≤ respPayloadCap

def fatbinImage (env : Env) (p : Nat → UInt8) : List UInt8 :=
  (List.range (env.imageLen fun i => p (sizeof registerFatbinReq + i))).map fun i =>
    p (sizeof registerFatbinReq + i)

def RtCmd.Assigned (env : Env) (k : Key) (m : Machine) (p : Nat → UInt8) : RtCmd → Prop
  | .malloc | .streamCreate | .eventCreate | .registerFunction => (m.tab.ctxGet k).isSome = true
  | .eventElapsedTime => ∃ c, m.tab.ctxGet k = some c ∧ Accepts env m .cudaEventElapsedTime
      [c.resGet .event (eventElapsedTimeReq.startEvent.get p),
        c.resGet .event (eventElapsedTimeReq.endEvent.get p)] []
  | .popCallConfiguration =>
    (m.tab.ctxGet k).isSome = true ∧ Accepts env m .cudaPopCallConfiguration [] []
  | .getDeviceProperties =>
    Accepts env m .cudaGetDeviceProperties [getDevicePropertiesReq.device.get p] []
  | .getDeviceCount => Accepts env m .cudaGetDeviceCount [] []
  | .runtimeGetVersion => Accepts env m .cudaRuntimeGetVersion [] []
  | .getErrorString => TextCopied env m .cudaGetErrorString [getErrorStringReq.error.get p]
  | .getErrorName => TextCopied env m .cudaGetErrorName [getErrorStringReq.error.get p]
  | .registerFatbin => (m.tab.ctxGet k).isSome = true ∧
      Accepts env m .cuModuleLoadData [] [fatbinImage env p]
  | .funcGetAttributes => ∃ c, m.tab.ctxGet k = some c ∧
      c.resGet .function (funcGetAttributesReq.func.get p) ≠ 0
  | _ => True

def wordsAt (f : Nat → Field) (n : Nat) (p : Nat → UInt8) : List Nat :=
  (List.range n).map fun i => (f i).get p

def DrvCmd.Assigned (env : Env) (k : Key) (m : Machine) (p : Nat → UInt8) : DrvCmd → Prop
  | .cuDriverGetVersion => Accepts env m .cuDriverGetVersion [] []
  | .cuDeviceGet => Accepts env m .cuDeviceGet [cuDeviceGetReq.ordinal.get p] []
  | .cuDeviceGetCount => Accepts env m .cuDeviceGetCount [] []
  | .cuDeviceGetAttribute => Accepts env m .cuDeviceGetAttribute
      [cuDeviceGetAttributeReq.attrib.get p, cuDeviceGetAttributeReq.device.get p] []
  | .cuDeviceGetUuid => Accepts env m .cuDeviceGetUuid [cuDeviceGetUuidReq.device.get p] []
  | .cuDeviceCanAccessPeer => Accepts env m .cuDeviceCanAccessPeer
      [cuDeviceCanAccessPeerReq.device.get p, cuDeviceCanAccessPeerReq.peerDevice.get p] []
  | .cuCtxGetDevice => Accepts env m .cuCtxGetDevice [] []
  | .cuDevicePrimaryCtxRetain => ∃ c, m.tab.ctxGet k = some c ∧
      (Accepts env m .cuDevicePrimaryCtxRetain [cuDevicePrimaryCtxRetainReq.device.get p] [] ∨
        -- the second try comes after the reset and the calls that destroy the context
        (env.ret (m.dev.clock + 2 + (ResType.all.flatMap (releaseCalls c)).length)
          ⟨.cuDevicePrimaryCtxRetain, [cuDevicePrimaryCtxRetainReq.device.get p], []⟩).code = 0)
  | .cuStreamCreate => (m.tab.ctxGet k).isSome = true ∧
      Accepts env m .cuStreamCreate [cuStreamCreateReq.flags.get p] []
  | .cuStreamGetCtx => ∃ c, m.tab.ctxGet k = some c ∧
      Accepts env m .cuStreamGetCtx [c.resGet .stream (cuStreamGetCtxReq.stream.get p)] []
  | .cuEventCreate => (m.tab.ctxGet k).isSome = true ∧
      Accepts env m .cuEventCreate [cuEventCreateReq.flags.get p] []
  | .cuEventElapsedTime => ∃ c, m.tab.ctxGet k = some c ∧ Accepts env m .cuEventElapsedTime
      [c.resGet .event (cuEventElapsedTimeReq.startEvent.get p),
        c.resGet .event (cuEventElapsedTimeReq.endEvent.get p)] []
  | .cuMemAlloc => (m.tab.ctxGet k).isSome = true ∧
      Accepts env m .cuMemAlloc [cuMemAllocReq.bytesize.get p] []
  | .cuPointerGetAttribute => ∃ c, m.tab.ctxGet k = some c ∧
      resolveAnyMem c (cuPointerGetAttributeReq.ptr.get p) ≠ 0
  | .cuMemCreate => (m.tab.ctxGet k).isSome = true ∧ Accepts env m .cuMemCreate
      (cuMemCreateReq.size.get p :: wordsAt cuMemCreateReq.prop 4 p ++
        [cuMemCreateReq.flags.get p]) []
  | .cuMemAddressReserve => (m.tab.ctxGet k).isSome = true ∧ Accepts env m .cuMemAddressReserve
      [cuMemAddressReserveReq.size.get p, cuMemAddressReserveReq.alignment.get p,
        cuMemAddressReserveReq.addr.get p, cuMemAddressReserveReq.flags.get p] []
  | .cuMemGetAllocGranularity => Accepts env m .cuMemGetAllocationGranularity
      (wordsAt cuMemGetAllocGranularityReq.prop 4 p ++
        [cuMemGetAllocGranularityReq.option.get p]) []
  | .cuMemImportFromShareableHandle => (m.tab.ctxGet k).isSome = true ∧
      Accepts env m .cuMemImportFromShareableHandle
        [cuMemImportReq.shareableHandle.get p, cuMemImportReq.handleType.get p] []
  | .cuMulticastCreate => (m.tab.ctxGet k).isSome = true ∧
      Accepts env m .cuMulticastCreate (wordsAt cuMulticastCreateReq.prop 3 p) []
  | .cuMulticastGetGranularity => Accepts env m .cuMulticastGetGranularity
      (wordsAt cuMulticastGetGranularityReq.prop 3 p ++
        [cuMulticastGetGranularityReq.option.get p]) []
  | _ => True

/-! Two runs of a handler -/

/-- CUDA decides from the bytes of an image themselves how many it reads. -/
def Sequential (imageLen : (Nat → UInt8) → Nat) : Prop :=
  ∀ f g : Nat → UInt8, (∀ i < imageLen f, f i = g i) → imageLen g = imageLen f

/-- A run, and what another one finds on its stack and heap. -/
structure Pair where
  cmd : CmdEnv
  stale : Nat → Nat → UInt8
  heap : Heap

def Pair.other (w : Pair) : CmdEnv := { w.cmd with env := w.cmd.env.withMemory w.stale w.heap }

/-- The states of the two runs agree, but for the heap behind the request. -/
structure Pair.Twin (w : Pair) (s s' : CmdSt) : Prop where
  be : s'.be = s.be
  buf : ∀ a < w.cmd.elem.reqLen, s'.buf a = s.buf a
  touched : s'.touched = s.touched
  resp : s'.resp = s.resp
  err : s'.err = s.err
  d2h : s'.d2h = s.d2h

/-- From a backend and a payload on, the two runs of `m` agree if the accesses stay inside the
request. -/
def Pair.SimAt (w : Pair) {α : Type} (be : Machine) (p : Nat → UInt8) (m : CmdM α) : Prop :=
  ∀ s, s.be = be → s.payload = p → s.top ≤ (m.run w.cmd s).2.top ∧
    ∀ s', w.Twin s s' → (m.run w.cmd s).2.top ≤ w.cmd.elem.reqLen →
      (m.run w.other s').1 = (m.run w.cmd s).1 ∧ w.Twin (m.run w.cmd s).2 (m.run w.other s').2

def Pair.Sim (w : Pair) {α : Type} (m : CmdM α) : Prop := ∀ be p, w.SimAt be p m

namespace Pair
variable {w : Pair} {α β ι : Type} {be : Machine} {p : Nat → UInt8} {m : CmdM α} {f : α → CmdM β}

theorem sim_pure (a : α) : w.Sim (pure a : CmdM α) :=
  fun _ _ _ _ _ => ⟨le_rfl, fun _ h _ => ⟨rfl, h⟩⟩

theorem simAt_bind (hm : w.SimAt be p m) (hf : ∀ a, w.Sim (f a)) : w.SimAt be p (m >>= f) := by
  intro s hbe hp
  obtain ⟨hg, hm⟩ := hm s hbe hp
  obtain ⟨hg', hf⟩ := hf (m.run w.cmd s).1 _ _ (m.run w.cmd s).2 rfl rfl
  refine ⟨hg.trans hg', fun s' h hle => ?_⟩
  obtain ⟨h1, h2⟩ := hm s' h (hg'.trans hle)
  rw [Prog.bind_run, Prog.bind_run, h1]
  exact hf _ h2 hle

theorem sim_bind (hm : w.Sim m) (hf : ∀ a, w.Sim (f a)) : w.Sim (m >>= f) :=
  fun be p => simAt_bind (hm be p) hf

theorem simAt_ite {c : Prop} [Decidable c] {n : CmdM α} (hm : c → w.SimAt be p m)
    (hn : ¬c → w.SimAt be p n) : w.SimAt be p (if c then m else n) := by
  split
  next h => exact hm h
  next h => exact hn h

theorem sim_ite {c : Prop} [Decidable c] {n : CmdM α} (hm : w.Sim m) (hn : w.Sim n) :
    w.Sim (if c then m else n) := fun be p => simAt_ite (fun _ => hm be p) fun _ => hn be p

theorem simAt_req {f : Field} {g : Nat → CmdM α} (h : w.SimAt be p (g (f.get p))) :
    w.SimAt be p (req f >>= g) := by
  intro s hbe hp
  subst hbe hp
  obtain ⟨hg, h⟩ := h ((req f).run w.cmd s).2 rfl rfl
  have htop : ((req f >>= g).run w.cmd s).2.top =
      ((g (f.get s.payload)).run w.cmd ((req f).run w.cmd s).2).2.top := rfl
  rw [top_req] at hg
  refine ⟨(le_max_left _ _).trans hg, fun s' ht hle => ?_⟩
  have hend : endOf f ≤ w.cmd.elem.reqLen := (le_max_right _ _).trans (hg.trans hle)
  have hget : f.get s'.payload = f.get s.payload := by
    refine Field.get_congr fun a ha ha' => ht.buf _ ?_
    have hsize : f.size ≠ 0 := fun h0 => by
      rw [Field.stop, h0] at ha'
      omega
    rw [endOf, if_neg hsize] at hend
    omega
  have hnext : w.Twin ((req f).run w.cmd s).2 ((req f).run w.other s').2 :=
    ⟨ht.be, ht.buf, congrArg (· ++ _) ht.touched, ht.resp, ht.err, ht.d2h⟩
  have := h _ hnext hle
  rw [Prog.bind_run, Prog.bind_run, req_fst, req_fst, hget]
  exact this

theorem simAt_key {g : Key → CmdM α} (h : w.SimAt be p (g w.cmd.key)) :
    w.SimAt be p (key >>= g) := h

theorem simAt_ask {g : CmdEnv → CmdM α} (hg : g w.other = g w.cmd)
    (h : w.SimAt be p (g w.cmd)) : w.SimAt be p (Prog.ask >>= g) := by
  intro s hbe hp
  obtain ⟨hgrow, h⟩ := h s hbe hp
  refine ⟨hgrow, fun s' ht hle => ?_⟩
  show ((g w.other).run w.other s').1 = _ ∧ w.Twin _ ((g w.other).run w.other s').2
  rw [hg]
  exact h s' ht hle

theorem simAt_get {g : CmdSt → CmdM α} (hg : ∀ s s', w.Twin s s' → g s' = g s)
    (h : ∀ s, s.be = be → s.payload = p → w.SimAt be p (g s)) :
    w.SimAt be p (Prog.get >>= g) := by
  intro s hbe hp
  obtain ⟨hgrow, h⟩ := h s hbe hp s hbe hp
  refine ⟨hgrow, fun s' ht hle => ?_⟩
  show ((g s').run w.other s').1 = _ ∧ w.Twin _ ((g s').run w.other s').2
  rw [hg s s' ht]
  exact h s' ht hle

theorem sim_core {m : CoreM α} (h : Own m) : w.Sim (core m) := by
  intro be p s hbe hp
  refine ⟨le_rfl, fun s' ht _ => ?_⟩
  have hrun : m.run w.other.env s'.be = m.run w.cmd.env s.be := by
    rw [ht.be]
    exact h w.cmd.env w.stale w.heap s.be
  have hval : (m.run w.other.env s'.be).1 = (m.run w.cmd.env s.be).1 := by rw [hrun]
  have hbe : (m.run w.other.env s'.be).2 = (m.run w.cmd.env s.be).2 := by rw [hrun]
  exact ⟨hval, hbe, ht.buf, ht.touched, ht.resp, ht.err, ht.d2h⟩

theorem sim_setErr (n : Nat) : w.Sim (setErr n) :=
  fun _ _ _ _ _ => ⟨le_rfl, fun _ h _ => ⟨rfl, h.be, h.buf, h.touched, h.resp, rfl, h.d2h⟩⟩

theorem sim_setD2h : w.Sim setD2h :=
  fun _ _ _ _ _ => ⟨le_rfl, fun _ h _ => ⟨rfl, h.be, h.buf, h.touched, h.resp, h.err, rfl⟩⟩

theorem sim_peek (off len : Nat) : w.Sim (peek off len) := by
  intro be p s _ _
  refine ⟨by rw [top_peek]; exact le_max_left _ _, fun s' ht hle => ?_⟩
  rw [top_peek] at hle
  refine ⟨List.map_congr_left fun i hi => ht.buf _ ?_, ht.be, ht.buf, congrArg (· ++ _) ht.touched,
    ht.resp, ht.err, ht.d2h⟩
  have hi := List.mem_range.mp hi
  rw [if_neg (by omega)] at hle
  omega

theorem sim_poke (off : Nat) (bs : List UInt8) : w.Sim (poke off bs) := by
  intro be p s _ _
  refine ⟨by rw [top_poke]; exact le_max_left _ _, fun s' ht _ => ?_⟩
  refine ⟨rfl, ht.be, fun a ha => ?_, congrArg (· ++ _) ht.touched, ht.resp, ht.err, ht.d2h⟩
  show (if _ then _ else s'.buf a) = if _ then _ else s.buf a
  rw [ht.buf a ha]

theorem simAt_reply {t : CStruct} {vals : List (Option Nat)} {rest : List UInt8}
    (h : Covers t (vals.map Option.isSome)) : w.SimAt be p (reply t vals rest) := by
  intro s _ _
  refine ⟨le_rfl, fun s' ht _ => ⟨rfl, ht.be, ht.buf, ht.touched, ?_, ht.err, ht.d2h⟩⟩
  exact congrArg (· ++ rest) (respImage_congr h _ _)

theorem sim_forEach {f : ι → CmdM Unit} (h : ∀ i, w.Sim (f i)) (is : List ι) :
    w.Sim (Prog.forEach f is) := by
  induction is with
  | nil => exact sim_pure ()
  | cons i is ih => exact sim_bind (h i) fun _ => ih

theorem sim_collect {f : ι → CmdM α} (h : ∀ i, w.Sim (f i)) (is : List ι) :
    w.Sim (Prog.collect f is) := by
  induction is with
  | nil => exact sim_pure []
  | cons i is ih => exact sim_bind (h i) fun _ => sim_bind ih fun _ => sim_pure _

theorem sim_answer {m : CoreM Nat} (h : Own m) : w.Sim (answer m) :=
  sim_bind (sim_core h) fun _ => sim_setErr _

theorem simAt_answerWith {t : CStruct} {m : CoreM (Nat × Option Nat)} (h : Own m)
    (ht : Covers t [true]) (hout : (m.run w.cmd.env be).1.2.isSome = true) :
    w.SimAt be p (answerWith t m) := by
  intro s hbe hp
  subst hbe
  refine ⟨le_rfl, fun s' htw _ => ?_⟩
  have hrun : m.run w.other.env s'.be = m.run w.cmd.env s.be := by
    rw [htw.be]
    exact h w.cmd.env w.stale w.heap s.be
  have hresp (g g' : Nat → UInt8) : respImage t g [(m.run w.cmd.env s.be).1.2] ++ [] =
      respImage t g' [(m.run w.cmd.env s.be).1.2] ++ [] := by
    have hcov : Covers t ([(m.run w.cmd.env s.be).1.2].map Option.isSome) := by
      rw [List.map_singleton, hout]
      exact ht
    exact congrArg (· ++ []) (respImage_congr hcov g g')
  have hbe' : (m.run w.other.env s'.be).2 = (m.run w.cmd.env s.be).2 := by rw [hrun]
  refine ⟨rfl, hbe', htw.buf, htw.touched, ?_, ?_, htw.d2h⟩
  · show respImage t _ [(m.run w.other.env s'.be).1.2] ++ [] = _
    rw [hrun]
    exact hresp _ _
  · show (m.run w.other.env s'.be).1.1 % 2 ^ 32 = _
    rw [hrun]
    rfl

theorem simAt_core {m : CoreM α} {g : α → CmdM β} (h : Own m)
    (hg : w.SimAt (m.run w.cmd.env be).2 p (g (m.run w.cmd.env be).1)) :
    w.SimAt be p (core m >>= g) := by
  intro s hbe hp
  subst hbe
  obtain ⟨hgrow, hg⟩ := hg ((core m).run w.cmd s).2 rfl hp
  refine ⟨hgrow, fun s' ht hle => ?_⟩
  have hcore := (sim_core h s.be p s rfl hp).2 s' ht (le_trans hgrow hle)
  have hnext := hg _ hcore.2 hle
  rw [Prog.bind_run, Prog.bind_run, hcore.1]
  exact hnext

theorem simAt_setErr {n : Nat} {m : CmdM α} (h : w.SimAt be p m) :
    w.SimAt be p (setErr n >>= fun _ => m) := by
  intro s hbe hp
  obtain ⟨hgrow, h⟩ := h ((setErr n).run w.cmd s).2 hbe hp
  refine ⟨hgrow, fun s' ht hle => h _ ?_ hle⟩
  exact ((sim_setErr n be p s hbe hp).2 s' ht (le_trans hgrow hle)).2

theorem simAt_replyFilled {t : CStruct} {o : Option (List Nat)} (h : o.isSome = true) :
    w.SimAt be p (replyFilled t o) := by
  intro s _ _
  obtain ⟨vals, rfl⟩ := Option.isSome_iff_exists.mp h
  exact ⟨le_rfl, fun s' ht _ => ⟨rfl, ht.be, ht.buf, ht.touched, rfl, ht.err, ht.d2h⟩⟩

theorem simAt_words {f : Nat → Field} {n : Nat} {g : List Nat → CmdM α}
    (h : w.SimAt be p (g (wordsAt f n p))) : w.SimAt be p (words f n >>= g) := by
  unfold words
  unfold wordsAt at h
  generalize List.range n = is at h
  induction is generalizing g with
  | nil => exact h
  | cons i is ih =>
    have hrest := ih (g := fun vs => g ((f i).get p :: vs)) h
    exact simAt_req (g := fun v => Prog.collect (fun i => req (f i)) is >>= fun vs => g (v :: vs))
      hrest

theorem simAt_answer {m : CoreM Nat} (h : Own m) : w.SimAt be p (answer m) :=
  sim_answer h be p

theorem simAt_answerLib {t : CStruct} {m : QueryM LibRet} (h : OwnQ m) (ht : Covers t [true])
    (hacc : (m.run ⟨w.cmd.env, be.tab⟩ be.dev).1.code = 0) : w.SimAt be p (answerLib t m) := by
  have hout : ((do
      let r ← m
      return (r.code, if r.code = 0 then some (r.out 0) else none) :
      QueryM (Nat × Option Nat)).run ⟨w.cmd.env, be.tab⟩ be.dev).1.2.isSome = true := by
    simp only [Prog.bind_run, Prog.pure_run, hacc, if_true, Option.isSome_some]
  exact simAt_answerWith (own_query (ownQ_bind h fun _ => ownQ_pure _)) ht hout

theorem sim_req (f : Field) : w.Sim (req f) := fun be p => simAt_req (g := pure) (sim_pure _ be p)

theorem sim_key : w.Sim key := fun _ _ _ _ _ => ⟨le_rfl, fun _ h _ => ⟨rfl, h⟩⟩

theorem sim_ask {g : CmdEnv → CmdM α} (hg : g w.other = g w.cmd) (h : w.Sim (g w.cmd)) :
    w.Sim (Prog.ask >>= g) := fun be p => simAt_ask hg (h be p)

theorem sim_get {g : CmdSt → CmdM α} (hg : ∀ s s', w.Twin s s' → g s' = g s)
    (h : ∀ s, w.Sim (g s)) : w.Sim (Prog.get >>= g) :=
  fun be p => simAt_get hg fun s _ _ => h s be p

/-! The copy commands -/

theorem sim_transfer {dev : Field} {f : Nat → Nat → Chunk → QueryM Nat} {cs : List Chunk}
    (hf : ∀ d t c, OwnQ (f d t c)) : w.Sim (transfer dev f cs) := by
  refine sim_bind (sim_setErr 0) fun _ => sim_ite ?_ (sim_pure ())
  refine sim_bind (sim_req _) fun d => sim_bind (sim_req _) fun t => ?_
  exact sim_bind (sim_core (own_query (ownQ_firstError (hf d t) cs))) fun _ => sim_setErr _

theorem sim_copyIn {f : Nat → Nat → Chunk → QueryM Nat} (hf : ∀ d t c, OwnQ (f d t c)) :
    w.Sim (copyIn f) := by
  refine sim_ask ?_ (sim_ite ?_ (sim_setErr 1))
  · dsimp only [Pair.other]
  · exact sim_bind (sim_req _) fun _ => sim_ite (sim_transfer hf) (sim_setErr 1)

theorem sim_copyOut {f : Nat → Nat → Chunk → QueryM Nat} {after : CmdM Unit}
    (hf : ∀ d t c, OwnQ (f d t c)) (ha : w.Sim after) : w.Sim (copyOut f after) := by
  refine sim_bind sim_setD2h fun _ => sim_ask ?_ (sim_ite ?_ (sim_setErr 1))
  · dsimp only [Pair.other]
  · refine sim_bind (sim_req _) fun _ => sim_ite ?_ (sim_setErr 1)
    exact sim_bind (sim_transfer hf) fun _ => ha

theorem sim_syncAfter : w.Sim syncAfter := by
  refine sim_get (fun s s' ht => by rw [ht.err]) fun s => sim_ite ?_ (sim_pure ())
  exact sim_bind sim_key fun _ => sim_bind (sim_req _) fun _ =>
    sim_answer (own_query (ownQ_withCtx fun _ => fun _ _ _ _ _ => rfl))

theorem sim_copyLegacy {gpa : Nat} {f : Nat → Space × Nat → CmdM Unit}
    (hf : ∀ n hp, w.Sim (f n hp)) : w.Sim (copyLegacy gpa f) := by
  refine sim_bind (sim_req _) fun count => sim_ask rfl ?_
  split
  · exact sim_setErr 1
  · exact sim_ite (sim_setErr 1) (hf _ _)

theorem sim_handleMemcpy : w.Sim handleMemcpy := by
  refine sim_bind sim_key fun k => sim_bind (sim_req _) fun kind => sim_ite ?_ (sim_ite ?_ ?_)
  · refine sim_bind (sim_req _) fun src => sim_ite ?_ ?_
    · exact sim_copyIn fun _ _ _ => ownQ_coreRuntimeMemcpyHtodVq _ _ _ _
    · refine sim_copyLegacy fun n hp => sim_bind (sim_req _) fun _ => ?_
      refine sim_bind (sim_req _) fun _ => ?_
      exact sim_answer (own_query (ownQ_coreMemcpy _ _ _ _ _ _))
  · refine sim_bind (sim_req _) fun dst => sim_ite ?_ ?_
    · exact sim_copyOut (fun _ _ _ => ownQ_coreMemcpy _ _ _ _ _ _) sim_syncAfter
    · refine sim_copyLegacy fun n hp => sim_bind (sim_req _) fun _ => ?_
      refine sim_bind (sim_req _) fun _ => ?_
      exact sim_bind (sim_answer (own_query (ownQ_coreMemcpy _ _ _ _ _ _))) fun _ =>
        sim_syncAfter
  · refine sim_bind (sim_req _) fun _ => sim_bind (sim_req _) fun _ => ?_
    refine sim_bind (sim_req _) fun _ => sim_bind (sim_req _) fun _ => ?_
    exact sim_answer (own_query (ownQ_coreMemcpy _ _ _ _ _ _))

theorem sim_handleCuMemcpy : w.Sim handleCuMemcpy := by
  refine sim_bind sim_key fun k => sim_bind (sim_req _) fun kind => sim_ite ?_ (sim_ite ?_ ?_)
  · exact sim_copyIn fun _ _ _ => ownQ_coreCuMemcpyHtodVq _ _ _ _
  · exact sim_copyOut (fun _ _ _ => ownQ_coreCuMemcpyDtohVq _ _ _ _) (sim_pure ())
  · exact sim_setErr 1

theorem sim_handleCuMemHostAlloc : w.Sim handleCuMemHostAlloc := by
  refine sim_bind sim_key fun k => sim_ask rfl (sim_ite ?_ (sim_setErr 1))
  refine sim_bind (sim_setErr 0) fun _ => sim_ite ?_ (sim_pure ())
  refine sim_bind (sim_req _) fun _ => sim_bind (sim_req _) fun _ => ?_
  refine sim_bind (sim_req _) fun _ => sim_bind (sim_req _) fun _ => ?_
  refine sim_bind (sim_core ?_) fun _ => sim_setErr _
  exact own_firstError (fun _ => own_coreCuMemHostAllocVq _ _ _ _ _ _) _

theorem sim_handleCuMemSetAccess : w.Sim handleCuMemSetAccess := by
  have desc (i : Nat) : w.Sim (readDesc i) := sim_bind (sim_req _) fun _ =>
    sim_bind (sim_req _) fun _ => sim_bind (sim_req _) fun _ => sim_pure _
  refine sim_bind (sim_req _) fun count => sim_bind (sim_core fun _ _ _ _ => rfl) fun b => ?_
  refine sim_ite ?_ (sim_setErr 2)
  refine sim_bind (sim_collect desc _) fun _ => sim_bind sim_key fun _ => ?_
  refine sim_bind (sim_req _) fun _ => sim_bind (sim_req _) fun _ => ?_
  exact sim_answer (own_query (ownQ_coreCuMemSetAccess _ _ _ _))

/-! The launch -/

theorem sim_coreLaunchKernel (k : Key) (func : Nat) (grid block : List Nat)
    (sharedMem stream args argsSize : Nat) :
    w.Sim (coreLaunchKernel k func grid block sharedMem stream args argsSize) := by
  refine sim_get (fun s s' ht => by rw [ht.be]) fun s => ?_
  rcases s.be.tab.ctxGet k with _ | c
  · exact sim_pure _
  have tail (m : CmdM (List (List UInt8))) (hm : w.Sim m) (config : List Nat) : w.Sim (do
      let params ← m
      let res ← core (query (lib .cuLaunchKernel config params))
      if res.code ≠ 0 then
        let _ ← core (query (lib .cuGetErrorString [res.code] []))
        return 719
      return 0) := by
    refine sim_bind hm fun _ => sim_bind (sim_core fun _ _ _ _ => rfl) fun _ => ?_
    exact sim_ite (sim_bind (sim_core fun _ _ _ _ => rfl) fun _ => sim_pure _) (sim_pure _)
  have arg (i : Nat) : w.Sim (translateArg c args i) :=
    sim_bind (sim_peek _ _) fun _ => sim_ite (sim_poke _ _) (sim_pure _)
  refine sim_ite (sim_pure _) (sim_ite ?_ (tail _ (sim_pure []) _))
  refine sim_bind (sim_forEach arg _) fun _ => sim_ask ?_ (tail _ ?_ _)
  · simp only [Pair.other, Env.withMemory]
  · exact sim_collect (fun _ => sim_peek _ _) _

theorem sim_handleLaunchKernel : w.Sim handleLaunchKernel := by
  have dims (f : Nat → Field) : w.Sim (dim3 f) := sim_bind (sim_req _) fun _ =>
    sim_bind (sim_req _) fun _ => sim_bind (sim_req _) fun _ => sim_pure _
  refine sim_bind (sim_req _) fun _ => sim_bind (dims _) fun _ => sim_bind (dims _) fun _ => ?_
  refine sim_bind (sim_req _) fun _ => sim_bind (sim_req _) fun _ => ?_
  refine sim_bind (sim_req _) fun _ => sim_bind sim_key fun _ => ?_
  exact sim_bind (sim_coreLaunchKernel _ _ _ _ _ _ _ _) fun _ => sim_setErr _

/-! What is read behind a request structure -/

theorem payload_add (s : CmdSt) (off i : Nat) :
    s.buf (payloadOff + off + i) = s.payload (off + i) := congrArg s.buf (Nat.add_assoc _ _ _)

theorem simAt_peek {off len : Nat} {g : List UInt8 → CmdM α}
    (h : w.SimAt be p (g ((List.range len).map fun i => p (off + i)))) :
    w.SimAt be p (peek off len >>= g) := by
  intro s hbe hp
  subst hbe hp
  have hbytes : ((peek off len).run w.cmd s).1 =
      (List.range len).map fun i => s.payload (off + i) :=
    List.map_congr_left fun i _ => payload_add s off i
  obtain ⟨hgrow, h⟩ := h ((peek off len).run w.cmd s).2 rfl rfl
  have hpeek := sim_peek (w := w) off len s.be s.payload s rfl rfl
  rw [← hbytes] at h hgrow
  refine ⟨hpeek.1.trans hgrow, fun s' ht hle => ?_⟩
  obtain ⟨h1, h2⟩ := hpeek.2 s' ht (le_trans hgrow hle)
  have hnext := h _ h2 hle
  rw [Prog.bind_run, Prog.bind_run, h1]
  exact hnext

theorem simAt_peekLen {off : Nat} {len : CmdEnv → CmdSt → Nat} {g : List UInt8 → CmdM α} {n : Nat}
    (hlen : ∀ s, s.be = be → s.payload = p → len w.cmd s = n ∧ ∀ s', w.Twin s s' →
      (n ≠ 0 → payloadOff + off + n ≤ w.cmd.elem.reqLen) → len w.other s' = n)
    (h : w.SimAt be p (g ((List.range n).map fun i => p (off + i)))) :
    w.SimAt be p (⟨fun e s => (peek off (len e s) >>= g).run e s⟩ : CmdM α) := by
  intro s hbe hp
  obtain ⟨hn, hother⟩ := hlen s hbe hp
  obtain ⟨hgrow, hsim⟩ := simAt_peek h s hbe hp
  have hrun : (⟨fun e s => (peek off (len e s) >>= g).run e s⟩ : CmdM α).run w.cmd s =
      (peek off n >>= g).run w.cmd s := by
    show (peek off (len w.cmd s) >>= g).run w.cmd s = _
    rw [hn]
  rw [hrun]
  refine ⟨hgrow, fun s' ht hle => ?_⟩
  have htop : ((peek off n).run w.cmd s).2.top ≤ ((peek off n >>= g).run w.cmd s).2.top :=
    (h ((peek off n).run w.cmd s).2 hbe hp).1.trans_eq (by
      rw [Prog.bind_run]
      congr 3
      rw [← hp]
      exact congrArg g (List.map_congr_left fun i _ => payload_add s off i).symm)
  have hin : n ≠ 0 → payloadOff + off + n ≤ w.cmd.elem.reqLen := fun h0 => by
    rw [top_peek, if_neg h0] at htop
    exact ((le_max_right _ _).trans htop).trans hle
  show ((peek off (len w.other s') >>= g).run w.other s').1 = _ ∧
    w.Twin _ ((peek off (len w.other s') >>= g).run w.other s').2
  rw [hother s' ht hin]
  exact hsim s' ht hle

theorem isSome_call {β : Type} {e : Env} {m : Machine} {fn : LibFn} {args : List Nat}
    {data : List (List UInt8)} {f : LibRet → CoreM (β × Option Nat)}
    (hacc : Accepts e m fn args data)
    (hf : ∀ r s, r.code = 0 → ((f r).run e s).1.2.isSome = true) :
    ((query (lib fn args data) >>= f).run e m).1.2.isSome = true := hf _ _ hacc

theorem run_withCtxM {e : Env} {m : Machine} {k : Key} {c : Context} {missing : α}
    {f : Context → CoreM α} (hc : m.tab.ctxGet k = some c) :
    (withCtxM k missing f).run e m = (f c).run e m := by
  unfold withCtxM
  dsimp only
  rw [hc]

theorem run_withCtx {q : QEnv} {v : Device} {k : Key} {c : Context} {missing : α}
    {f : Context → QueryM α} (hc : q.tab.ctxGet k = some c) :
    (withCtx k missing f).run q v = (f c).run q v := by
  unfold withCtx
  dsimp only
  rw [hc]

theorem simAt_of_run {m m' : CmdM α} (hrun : ∀ e t, t.be = be → m'.run e t = m.run e t)
    (h : w.SimAt be p m) : w.SimAt be p m' := by
  intro s hbe hp
  obtain ⟨hgrow, hsim⟩ := h s hbe hp
  rw [hrun _ _ hbe]
  refine ⟨hgrow, fun s' ht hle => ?_⟩
  rw [hrun _ _ (ht.be.trans hbe)]
  exact hsim s' ht hle

theorem simAt_peekImage (hseq : Sequential w.cmd.env.imageLen) {g : List UInt8 → CmdM α}
    (h : w.SimAt be p (g (fatbinImage w.cmd.env p))) :
    w.SimAt be p (⟨fun e s => (peek (sizeof registerFatbinReq) (e.env.imageLen fun i =>
      s.buf (payloadOff + sizeof registerFatbinReq + i)) >>= g).run e s⟩) := by
  refine simAt_peekLen (n := w.cmd.env.imageLen fun i => p (sizeof registerFatbinReq + i))
    (fun s _ hp => ⟨?_, fun s' ht hin => ?_⟩) h
  · rw [← hp]
    exact congrArg _ (funext fun i => payload_add s _ i)
  · refine hseq _ _ fun i hi => ?_
    rw [ht.buf _ (by have := hin (by omega); omega), payload_add, hp]

theorem simAt_handleRegisterFatbin (hseq : Sequential w.cmd.env.imageLen)
    (hc : RtCmd.registerFatbin.Assigned w.cmd.env w.cmd.key be p) :
    w.SimAt be p handleRegisterFatbin := by
  obtain ⟨hsome, hacc⟩ := hc
  obtain ⟨c, hctx⟩ := Option.isSome_iff_exists.mp hsome
  refine simAt_key (simAt_req (simAt_of_run (fun e t ht => ?_) (simAt_peekImage
    (g := fun image => answerWith registerFatbinResp (coreRegisterFatbin w.cmd.key image))
    hseq ?_)))
  · simp only [Prog.bind_run, Prog.get_run, ht, hsome, if_true, Prog.ask_run]
  · refine simAt_answerWith (own_coreRegisterFatbin _) (by decide) ?_
    rw [coreRegisterFatbin, run_withCtxM hctx]
    exact isSome_call hacc fun r s hr => by
      rw [if_neg (not_not.mpr hr)]
      rfl

theorem strEnd_congr {h h' : Heap} {buf buf' : Nat → UInt8} {len start : Nat}
    (hbuf : ∀ a, start ≤ a → a < len → buf' a = buf a)
    (hin : h' = h ∨ strEnd h buf len start ≤ len) :
    strEnd h' buf' len start = strEnd h buf len start := by
  have hfind : ((List.range (len - start)).find? fun i => buf' (start + i) = 0) =
      (List.range (len - start)).find? fun i => buf (start + i) = 0 := by
    refine List.find?_congr fun i hi => ?_
    have hi := List.mem_range.mp hi
    rw [hbuf _ (by omega) (by omega)]
  rcases hin with rfl | hin
  · unfold strEnd
    rw [hfind]
  · unfold strEnd at hin ⊢
    rw [hfind]
    split at hin
    next i hi => rfl
    next hnone =>
      have := (Nat.find_spec (h.nul (max start len))).1
      omega

theorem simAt_handleRegisterFunction
    (hc : RtCmd.registerFunction.Assigned w.cmd.env w.cmd.key be p) :
    w.SimAt be p handleRegisterFunction := by
  obtain ⟨c, hctx⟩ := Option.isSome_iff_exists.mp hc
  refine simAt_key (simAt_req (simAt_req ?_))
  have hfill : Covers registerFunctionResp [true, true] := by decide
  by_cases h0 : c.resGet .module (registerFunctionReq.fatbinHandle.get p) = 0
  · refine simAt_of_run (m := do
        setErr 1
        reply registerFunctionResp [some 0, some 0] []) (fun e t ht => ?_) ?_
    · simp only [Prog.bind_run, Prog.get_run, ht, hctx, h0, if_true]
    · exact simAt_setErr (simAt_reply hfill)
  · have hmain : w.SimAt be p (⟨fun e s => (peek (sizeof registerFunctionReq) (strEnd e.env.heap
        s.buf e.elem.reqLen (payloadOff + sizeof registerFunctionReq) -
          (payloadOff + sizeof registerFunctionReq)) >>= fun name => do
        setErr (← core (coreRegisterFunction w.cmd.key
          (c.resGet .module (registerFunctionReq.fatbinHandle.get p))
          (registerFunctionReq.hostFun.get p) name))
        reply registerFunctionResp [some 0, some 0] []).run e s⟩) := by
      refine simAt_peekLen (n := strEnd w.cmd.env.heap (fun a => p (a - payloadOff))
          w.cmd.elem.reqLen (payloadOff + sizeof registerFunctionReq) -
            (payloadOff + sizeof registerFunctionReq))
        (fun s _ hp => ?_) ?_
      · have hbuf (a : Nat) (ha : payloadOff + sizeof registerFunctionReq ≤ a) :
            s.buf a = p (a - payloadOff) := by
          rw [← hp, CmdSt.payload, Nat.add_sub_cancel' (by omega)]
        refine ⟨?_, fun s' ht hin => ?_⟩
        · rw [strEnd_congr (fun a ha _ => hbuf a ha) (.inl rfl)]
        · have hgt := strEnd_gt w.cmd.env.heap (fun a => p (a - payloadOff)) w.cmd.elem.reqLen
            (payloadOff + sizeof registerFunctionReq)
          have hle := hin (by omega)
          rw [show w.other.elem.reqLen = w.cmd.elem.reqLen from rfl,
            strEnd_congr (h := w.cmd.env.heap) (fun a ha ha' => (ht.buf a ha').trans (hbuf a ha))
              (.inr (by omega))]
      · refine simAt_bind (sim_core (own_coreRegisterFunction _ _ _) be p) fun r => ?_
        exact fun _ _ => simAt_setErr (simAt_reply hfill)
    refine simAt_of_run (fun e t ht => ?_) hmain
    simp only [peekStr, Prog.bind_run, Prog.get_run, Prog.ask_run, ht, hctx, h0, if_false]

/-! Texts and names -/

theorem simAt_handleGetErrorText {fn : LibFn} {n : Nat} (h : TextCopied w.cmd.env be fn [n]) :
    w.SimAt be p (handleGetErrorText (lib fn [n] [])) := by
  refine simAt_core (own_query fun _ _ _ _ _ => rfl) (simAt_setErr ?_)
  have htext : ((query (lib fn [n] [])).run w.cmd.env be).1.str =
      (w.cmd.env.ret be.dev.clock ⟨fn, [n], []⟩).str := rfl
  rw [htext]
  rcases hstr : (w.cmd.env.ret be.dev.clock ⟨fn, [n], []⟩).str with _ | str
  · exact sim_pure () _ _
  · have hfits := h str hstr
    refine simAt_of_run (m := reply getErrorStringResp [some (str.length + 1)] (str ++ [0]))
      (fun e t _ => ?_) (simAt_reply (show Covers getErrorStringResp [true] by decide))
    simp only [Prog.bind_run, Prog.ask_run, Prog.get_run, hfits, if_true]

theorem sim_handleCuGetErrorText {t : CStruct} {m : QueryM LibRet} (h : OwnQ m)
    (ht : Covers t [true]) : w.Sim (handleCuGetErrorText t m) := by
  refine sim_bind (sim_core (own_query h)) fun r => sim_bind (sim_setErr _) fun _ => ?_
  rcases r.str with _ | str
  · exact fun _ _ => simAt_reply ht
  · exact fun _ _ => simAt_reply ht

theorem sim_handleCuDeviceGetName : w.Sim handleCuDeviceGetName := by
  refine sim_bind (sim_req _) fun _ => sim_bind (sim_core fun _ _ _ _ => rfl) fun _ => ?_
  refine sim_ite ?_ (sim_setErr 2)
  refine sim_bind (sim_req _) fun _ => sim_bind (sim_core fun _ _ _ _ => rfl) fun _ => ?_
  exact sim_bind (sim_setErr _) fun _ => fun _ _ =>
    simAt_reply (show Covers cuDeviceGetNameResp [true] by decide)

/-! The switches -/

theorem covers_word : Covers [.u64] [true] := by decide

theorem covers_half : Covers [.u32] [true] := by decide

theorem isSome_query_iff {β : Type} {e : Env} {m : Machine} {k : Key}
    {missing : β × Option Nat} {fn : LibFn} {args : Context → List Nat} {out : LibRet → Nat}
    {code : LibRet → β} (hmissing : missing.2 = none) :
    ((query (withCtx k missing fun c => do
      let r ← lib fn (args c) []
      return (code r, if r.code = 0 then some (out r) else none))).run e m).1.2.isSome = true ↔
        ∃ c, m.tab.ctxGet k = some c ∧ Accepts e m fn (args c) [] := by
  show ((withCtx k missing _).run ⟨e, m.tab⟩ m.dev).1.2.isSome = true ↔ _
  rcases hctx : m.tab.ctxGet k with _ | c
  · unfold withCtx
    dsimp only
    rw [hctx, hmissing]
    simp
  rw [run_withCtx hctx]
  show (if ((lib fn (args c) []).run ⟨e, m.tab⟩ m.dev).1.code = 0 then _ else _ :
    Option Nat).isSome = true ↔ _
  simp only [Option.some.injEq, exists_eq_left']
  split
  next hacc => exact iff_of_true rfl hacc
  next hacc => exact iff_of_false (by simp) hacc

theorem rtQuery_fst (fn : LibFn) (args : List Nat) (q : QEnv) (v : Device) :
    ((rtQuery fn args).run q v).1 = q.env.ret v.clock ⟨fn, args, []⟩ := by
  unfold rtQuery
  simp only [Prog.bind_run, Prog.ite_run]
  split <;> rfl

theorem simAt_runtime (c : RtCmd) (hseq : Sequential w.cmd.env.imageLen)
    (hc : c.Assigned w.cmd.env w.cmd.key be p) : w.SimAt be p (runtimeHandleCmd c) := by
  have dims (f : Nat → Field) : w.Sim (dim3 f) := sim_bind (sim_req _) fun _ =>
    sim_bind (sim_req _) fun _ => sim_bind (sim_req _) fun _ => sim_pure _
  cases c
  case init => exact simAt_key (simAt_answer own_coreInit)
  case malloc =>
    obtain ⟨c, hctx⟩ := Option.isSome_iff_exists.mp hc
    refine simAt_key (simAt_req (simAt_answerWith (own_coreMalloc _) covers_word ?_))
    rw [coreMalloc, run_withCtxM hctx]
    simp only [Prog.bind_run, Prog.ite_run]
    split <;> rfl
  case free => exact simAt_key (simAt_req (simAt_answer (own_coreFree _)))
  case memcpy => exact sim_handleMemcpy be p
  case memset =>
    exact simAt_key (simAt_req (simAt_req (simAt_req
      (simAt_answer (own_query (ownQ_coreMemset _ _ _))))))
  case launchKernel => exact sim_handleLaunchKernel be p
  case streamCreate =>
    obtain ⟨c, hctx⟩ := Option.isSome_iff_exists.mp hc
    refine simAt_key (simAt_req (simAt_answerWith (own_coreStreamCreate _) covers_word ?_))
    rw [coreStreamCreate, run_withCtxM hctx]
    simp only [Prog.bind_run, Prog.ite_run]
    split <;> rfl
  case eventCreate =>
    obtain ⟨c, hctx⟩ := Option.isSome_iff_exists.mp hc
    refine simAt_key (simAt_req (simAt_answerWith (own_coreEventCreate _) covers_word ?_))
    rw [coreEventCreate, run_withCtxM hctx]
    simp only [Prog.bind_run, Prog.ite_run]
    split <;> rfl
  case streamSynchronize | eventSynchronize =>
    refine simAt_key (simAt_req (simAt_answer (own_query (ownQ_withCtx fun _ => ?_))))
    exact fun _ _ _ _ _ => rfl
  case eventRecord =>
    refine simAt_key (simAt_req (simAt_req (simAt_answer (own_query (ownQ_withCtx ?_)))))
    exact fun _ _ _ _ _ _ => rfl
  case eventElapsedTime =>
    exact simAt_key (simAt_req (simAt_req (simAt_answerWith
      (own_query (ownQ_withCtx fun _ _ _ _ _ _ => rfl)) covers_half
      ((isSome_query_iff rfl).mpr hc))))
  case eventDestroy => exact simAt_key (simAt_req (simAt_answer (own_coreEventDestroy _)))
  case deviceSynchronize => exact simAt_answer (own_query ownQ_coreDeviceSynchronize)
  case pushCallConfiguration =>
    refine simAt_key (simAt_bind (dims _ be p) fun _ => sim_bind (dims _) fun _ => ?_)
    refine sim_bind (sim_req _) fun _ => sim_bind (sim_req _) fun _ => ?_
    exact sim_answer (own_query (ownQ_withCtx fun _ _ _ _ _ _ => rfl))
  case popCallConfiguration =>
    obtain ⟨hsome, hacc⟩ := hc
    obtain ⟨c, hctx⟩ := Option.isSome_iff_exists.mp hsome
    refine simAt_key (simAt_core (own_query ownQ_corePop) ?_)
    have hval : ∃ code h, ((query (corePopCallConfiguration w.cmd.key)).run w.cmd.env be).1 =
        (code, some ((List.range 7).map
          (w.cmd.env.ret be.dev.clock ⟨.cudaPopCallConfiguration, [], []⟩).out ++ [h])) := by
      show ∃ code h, ((corePopCallConfiguration w.cmd.key).run ⟨w.cmd.env, be.tab⟩ be.dev).1 = _
      rw [corePopCallConfiguration, run_withCtx hctx]
      simp only [Prog.bind_run, Prog.ite_run]
      rw [if_pos hacc.code]
      exact ⟨_, _, rfl⟩
    obtain ⟨code, h, hval⟩ := hval
    rw [hval]
    exact simAt_setErr (simAt_reply
      (show Covers popCallCfgResp [true, true, true, true, true, true, true, true] by decide))
  case initModule =>
    exact simAt_key (simAt_req (simAt_answer (own_query (ownQ_coreInitModule _))))
  case getDeviceProperties =>
    refine simAt_req (simAt_core (own_query (ownQ_coreGetDeviceProperties _)) ?_)
    refine simAt_setErr (simAt_replyFilled ?_)
    show ((coreGetDeviceProperties _).run ⟨w.cmd.env, be.tab⟩ be.dev).1.2.isSome = true
    unfold coreGetDeviceProperties
    simp only [Prog.bind_run, Prog.ite_run]
    rw [if_neg (not_not.mpr (Accepts.code hc))]
    rfl
  case getDeviceCount =>
    refine simAt_answerLib (ownQ_rtQuery _ _) covers_half ?_
    rw [coreGetDeviceCount, rtQuery_fst]
    exact hc
  case setDevice =>
    exact simAt_req (simAt_core (own_query (ownQ_rtQuery _ _)) (sim_setErr _ _ _))
  case getErrorString => exact simAt_req (simAt_handleGetErrorText hc)
  case getErrorName => exact simAt_req (simAt_handleGetErrorText hc)
  case registerFatbin => exact simAt_handleRegisterFatbin hseq hc
  case registerFunction => exact simAt_handleRegisterFunction hc
  case runtimeGetVersion =>
    refine simAt_answerLib (ownQ_rtQuery _ _) covers_half ?_
    rw [coreRuntimeGetVersion, rtQuery_fst]
    exact hc
  case funcGetAttributes =>
    obtain ⟨c, hctx, hfunc⟩ := hc
    refine simAt_key (simAt_req (simAt_core (own_query (ownQ_coreFuncGetAttributes _)) ?_))
    refine simAt_setErr (simAt_replyFilled ?_)
    show ((coreFuncGetAttributes _ _).run ⟨w.cmd.env, be.tab⟩ be.dev).1.2.isSome = true
    rw [coreFuncGetAttributes, run_withCtx hctx]
    simp only [Prog.ite_run]
    rw [if_neg hfunc]
    rfl

theorem isSome_acquire {e : Env} {m : Machine} {k : Key} {missing : Nat × Option Nat} {fn : LibFn}
    {args : List Nat} {f : LibRet → CoreM (Nat × Option Nat)} {g : LibRet → Nat × Option Nat}
    (hsome : (m.tab.ctxGet k).isSome = true) (hacc : Accepts e m fn args [])
    (hf : ∀ r s, ((f r).run e s).1.2.isSome = true) :
    ((withCtxM k missing fun _ => do
      let r ← query (lib fn args [])
      if r.code = 0 then f r else return g r).run e m).1.2.isSome = true := by
  obtain ⟨c, hctx⟩ := Option.isSome_iff_exists.mp hsome
  rw [run_withCtxM hctx]
  refine isSome_call hacc fun r s hr => ?_
  rw [if_pos hr]
  exact hf r s

theorem isSome_retain_iff {e : Env} {m : Machine} {k : Key} {device : Nat} :
    ((coreCuDevicePrimaryCtxRetain k device).run e m).1.2.isSome = true ↔
      ∃ c, m.tab.ctxGet k = some c ∧ (Accepts e m .cuDevicePrimaryCtxRetain [device] [] ∨
        (e.ret (m.dev.clock + 2 + (ResType.all.flatMap (releaseCalls c)).length)
          ⟨.cuDevicePrimaryCtxRetain, [device], []⟩).code = 0) := by
  rcases hctx : m.tab.ctxGet k with _ | c
  · unfold coreCuDevicePrimaryCtxRetain withCtxM
    dsimp only
    rw [hctx]
    simp
  rw [coreCuDevicePrimaryCtxRetain, run_withCtxM hctx]
  obtain ⟨os, hos, hcalls⟩ := ctxDestroy_answered e c ((query (lib .cudaDeviceReset [] [])).run e
    ((query (lib .cuDevicePrimaryCtxRetain [device] [])).run e m).2).2
  have hlen : os.length = (ResType.all.flatMap (releaseCalls c)).length := by
    rw [← hcalls, List.length_map]
  have hclock : _ = m.dev.clock + 2 + os.length := hos.clock
  simp only [Option.some.injEq, exists_eq_left', Prog.bind_run, Prog.ite_run]
  rw [← hlen, ← hclock]
  split
  next hfirst =>
    have hfirst : ¬Accepts e m .cuDevicePrimaryCtxRetain [device] [] := hfirst
    rw [or_iff_right hfirst]
    split
    next hagain => exact iff_of_false (by simp) hagain
    next hagain => exact iff_of_true rfl (not_not.mp hagain)
  next hfirst => exact iff_of_true rfl (.inl (not_not.mp hfirst))

theorem simAt_driver (c : DrvCmd) (hc : c.Assigned w.cmd.env w.cmd.key be p) :
    w.SimAt be p (driverHandleCmd c) := by
  have still {k : Key} {f : Context → QueryM Nat} (h : ∀ c, OwnQ (f c)) :
      Own (query (withCtx k 3 f)) := own_query (ownQ_withCtx h)
  cases c
  case cuInit =>
    exact simAt_req (simAt_core (own_query fun _ _ _ _ _ => rfl) (sim_setErr _ _ _))
  case cuDriverGetVersion | cuDeviceGetCount | cuCtxGetDevice =>
    exact simAt_answerLib (fun _ _ _ _ _ => rfl) covers_half hc
  case cuDeviceGet => exact simAt_req (simAt_answerLib (fun _ _ _ _ _ => rfl) covers_half hc)
  case cuDeviceGetName => exact sim_handleCuDeviceGetName be p
  case cuDeviceGetAttribute | cuDeviceCanAccessPeer =>
    exact simAt_req (simAt_req (simAt_answerLib (fun _ _ _ _ _ => rfl) covers_half hc))
  case cuDeviceGetUuid =>
    exact simAt_req (simAt_answerLib (fun _ _ _ _ _ => rfl)
      (show Covers cuDeviceGetUuidResp [true] by decide) hc)
  case cuDevicePrimaryCtxRetain =>
    exact simAt_key (simAt_req (simAt_answerWith (own_retain _) covers_word
      (isSome_retain_iff.mpr hc)))
  case cuDevicePrimaryCtxRelease =>
    exact simAt_req (simAt_answer (own_query fun _ _ _ _ _ => rfl))
  case cuCtxSetCurrent | cuStreamSynchronize | cuStreamQuery =>
    exact simAt_key (simAt_req (simAt_answer (still fun _ _ _ _ _ _ => rfl)))
  case cuCtxEnablePeerAccess | cuEventRecord =>
    exact simAt_key (simAt_req (simAt_req (simAt_answer (still fun _ _ _ _ _ _ => rfl))))
  case cuStreamWaitEvent =>
    exact simAt_key (simAt_req (simAt_req (simAt_req
      (simAt_answer (still fun _ _ _ _ _ _ => rfl)))))
  case cuStreamCreate =>
    exact simAt_key (simAt_req (simAt_answerWith (own_coreCuStreamCreate _) covers_word
      (isSome_acquire hc.1 hc.2 fun _ _ => rfl)))
  case cuEventCreate =>
    exact simAt_key (simAt_req (simAt_answerWith (own_coreCuEventCreate _) covers_word
      (isSome_acquire hc.1 hc.2 fun _ _ => rfl)))
  case cuMemAlloc =>
    exact simAt_key (simAt_req (simAt_answerWith (own_coreCuMemAlloc _) covers_word
      (isSome_acquire hc.1 hc.2 fun _ _ => rfl)))
  case cuStreamDestroy => exact simAt_key (simAt_req (simAt_answer (own_coreCuStreamDestroy _)))
  case cuEventDestroy => exact simAt_key (simAt_req (simAt_answer (own_coreCuEventDestroy _)))
  case cuMemFree => exact simAt_key (simAt_req (simAt_answer (own_coreCuMemFree _)))
  case cuMemFreeHost => exact simAt_key (simAt_req (simAt_answer (own_coreCuMemFreeHost _)))
  case cuMemRelease => exact simAt_key (simAt_req (simAt_answer (own_coreCuMemRelease _)))
  case cuMemAddressFree =>
    exact simAt_key (simAt_req (simAt_req (simAt_answer (own_coreCuMemAddressFree _ _))))
  case cuStreamGetCtx =>
    obtain ⟨c, hctx, hacc⟩ := hc
    refine simAt_key (simAt_req (simAt_answerWith (own_coreCuStreamGetCtx _) covers_word ?_))
    rw [coreCuStreamGetCtx, run_withCtxM hctx]
    refine isSome_call hacc fun r s hr => ?_
    rw [if_pos hr]
    simp only [Prog.ite_run]
    split <;> rfl
  case cuEventElapsedTime =>
    exact simAt_key (simAt_req (simAt_req (simAt_answerWith
      (own_query (ownQ_withCtx fun _ _ _ _ _ _ => rfl)) covers_half
      ((isSome_query_iff rfl).mpr hc))))
  case cuMemHostAlloc => exact sim_handleCuMemHostAlloc be p
  case cuMemsetD32 =>
    exact simAt_key (simAt_req (simAt_req (simAt_req
      (simAt_answer (own_query (ownQ_coreCuMemsetD32 _ _ _))))))
  case cuMemcpyAsync =>
    exact simAt_key (simAt_req (simAt_req (simAt_req (simAt_req
      (simAt_answer (own_query (ownQ_coreCuMemcpyAsync _ _ _ _)))))))
  case cuMemcpyHtod =>
    exact simAt_key (simAt_req (simAt_req (simAt_req
      (simAt_answer (own_query (ownQ_coreCuMemcpyHtod _ _ _))))))
  case cuMemcpy => exact sim_handleCuMemcpy be p
  case cuPointerGetAttribute =>
    obtain ⟨c, hctx, hptr⟩ := hc
    refine simAt_key (simAt_req (simAt_req (simAt_answerWith
      (own_query (ownQ_coreCuPointerGetAttribute _ _)) covers_word ?_)))
    show ((coreCuPointerGetAttribute _ _ _).run ⟨w.cmd.env, be.tab⟩ be.dev).1.2.isSome = true
    rw [coreCuPointerGetAttribute, run_withCtx hctx]
    simp only [Prog.ite_run]
    rw [if_neg hptr]
    rfl
  case cuGetErrorString | cuGetErrorName =>
    exact simAt_req (sim_handleCuGetErrorText (fun _ _ _ _ _ => rfl) covers_half be p)
  case cuMemCreate =>
    exact simAt_key (simAt_req (simAt_words (simAt_req (simAt_answerWith
      (own_acquireGeneric _ _ _) covers_word (isSome_acquire hc.1 hc.2 fun _ _ => rfl)))))
  case cuMemMap =>
    exact simAt_key (simAt_req (simAt_req (simAt_req (simAt_req (simAt_req
      (simAt_answer (own_query (ownQ_coreCuMemMap _ _ _ _ _))))))))
  case cuMemUnmap =>
    exact simAt_key (simAt_req (simAt_req
      (simAt_answer (own_query (ownQ_coreCuMemUnmap _ _)))))
  case cuMemAddressReserve =>
    exact simAt_key (simAt_req (simAt_req (simAt_req (simAt_req (simAt_answerWith
      (own_coreCuMemAddressReserve _ _ _ _) covers_word
      (isSome_acquire hc.1 hc.2 fun _ _ => rfl))))))
  case cuMemSetAccess => exact sim_handleCuMemSetAccess be p
  case cuMemGetAllocGranularity | cuMulticastGetGranularity =>
    exact simAt_words (simAt_req (simAt_answerLib (fun _ _ _ _ _ => rfl) covers_word hc))
  case cuMemExportToShareableHandle =>
    refine simAt_key (simAt_req (simAt_req (simAt_req (simAt_core
      (own_query (ownQ_coreCuMemExport _ _ _)) (simAt_setErr (simAt_reply ?_))))))
    exact (show Covers cuMemExportResp [true] by decide)
  case cuMemImportFromShareableHandle =>
    exact simAt_key (simAt_req (simAt_req (simAt_answerWith
      (own_acquireGeneric _ _ _) covers_word (isSome_acquire hc.1 hc.2 fun _ _ => rfl))))
  case cuMulticastCreate =>
    exact simAt_key (simAt_words (simAt_answerWith
      (own_acquireGeneric _ _ _) covers_word (isSome_acquire hc.1 hc.2 fun _ _ => rfl)))
  case cuMulticastAddDevice =>
    exact simAt_key (simAt_req (simAt_req
      (simAt_answer (own_query (ownQ_coreCuMulticastAddDevice _ _)))))
  case cuMulticastBindMem =>
    exact simAt_key (simAt_req (simAt_req (simAt_req (simAt_req (simAt_req (simAt_req
      (simAt_answer (own_query (ownQ_coreCuMulticastBindMem _ _ _ _ _ _)))))))))
  case cuMulticastUnbind =>
    exact simAt_key (simAt_req (simAt_req (simAt_req (simAt_req
      (simAt_answer (own_query (ownQ_coreCuMulticastUnbind _ _ _ _)))))))

end Pair

def Cmd.Assigned (env : Env) (k : Key) (m : Machine) (p : Nat → UInt8) : Cmd → Prop
  | .rt c => c.Assigned env k m p
  | .drv c => c.Assigned env k m p

/-- The bytes of the response to an element are the same whatever the stack and the heap held. -/
def Determined (k : Key) (el : Elem) (env : Env) (m : Machine) : Prop := ∀ stale heap,
  ((processElem k el).run (env.withMemory stale heap) m).1.map (·.writes) =
    ((processElem k el).run env m).1.map (·.writes)

section Determined
variable {k : Key} {el : Elem} {env : Env} {m : Machine}

theorem twin_start (stale : Nat → Nat → UInt8) (heap : Heap) :
    Pair.Twin ⟨cmdEnv env k el, stale, heap⟩ (cmdStart env el m)
      (cmdStart (env.withMemory stale heap) el m) where
  be := rfl
  buf a ha := by
    have hlen : el.reqLen = (el.outSg.headD ⟨.ram, 0, 0⟩).len := by
      unfold Elem.reqLen
      rcases el.outSg with _ | ⟨v, vs⟩ <;> rfl
    have ha : a < (el.outSg.headD ⟨.ram, 0, 0⟩).len := hlen ▸ ha
    simp only [cmdStart, ha, if_true]
  touched := rfl
  resp := rfl
  err := rfl
  d2h := rfl

theorem dispatch_twin {c : Cmd} (hseq : Sequential env.imageLen)
    (hneeds : c.needs (cmdEnv env k el) (cmdStart env el m) ≤ el.reqLen)
    (hc : c.Assigned env k m (cmdStart env el m).payload) (stale : Nat → Nat → UInt8)
    (heap : Heap) :
    Pair.Twin ⟨cmdEnv env k el, stale, heap⟩
      ((dispatchCmd c.code).run (cmdEnv env k el) (cmdStart env el m)).2
      ((dispatchCmd c.code).run (cmdEnv (env.withMemory stale heap) k el)
        (cmdStart (env.withMemory stale heap) el m)).2 := by
  rw [dispatchCmd_run, dispatchCmd_run]
  let w : Pair := ⟨cmdEnv env k el, stale, heap⟩
  cases c with
  | rt c =>
    have hsim : w.SimAt m (cmdStart env el m).payload (runtimeHandleCmd c) :=
      Pair.simAt_runtime c hseq hc
    refine ((hsim (cmdStart env el m) rfl rfl).2 _ (twin_start stale heap) ?_).2
    rw [runtimeHandleCmd_needs]
    exact Nat.max_le.mpr ⟨Nat.zero_le _, hneeds⟩
  | drv c =>
    have hsim : w.SimAt m (cmdStart env el m).payload (driverHandleCmd c) := Pair.simAt_driver c hc
    refine ((hsim (cmdStart env el m) rfl rfl).2 _ (twin_start stale heap) ?_).2
    rw [driverHandleCmd_needs]
    exact Nat.max_le.mpr ⟨Nat.zero_le _, hneeds⟩

theorem processElem_writes {code : Nat} (hh : el.header m = some code) (env : Env) :
    ((processElem k el).run env m).1.map (·.writes) =
      some (respond code el ((dispatchCmd code).run (cmdEnv env k el) (cmdStart env el m)).1
        ((dispatchCmd code).run (cmdEnv env k el) (cmdStart env el m)).2).writes := by
  unfold Elem.header at hh
  dsimp only at hh
  split at hh
  next h =>
    cases hh
    unfold processElem
    dsimp only
    rw [if_neg (not_not.mpr h)]
    rfl
  next => cases hh

end Determined

theorem response_determined (k : Key) (el : Elem) (env : Env) (m : Machine)
    (hseq : Sequential env.imageLen)
    (hcmd : ∀ c, el.command m = some c →
      c.needs (cmdEnv env k el) (cmdStart env el m) ≤ el.reqLen ∧
        c.Assigned env k m (cmdStart env el m).payload) :
    Determined k el env m := by
  intro stale heap
  rcases hh : el.header m with _ | code
  · unfold processElem
    dsimp only
    split
    · rfl
    · next h => simp [Elem.header, not_not.mp h] at hh
  · rw [processElem_writes hh, processElem_writes hh]
    rcases hof : Cmd.ofCode code with _ | c
    · simp only [dispatchCmd, hof]
      rfl
    · obtain rfl := Cmd.code_of_ofCode hof
      have hcommand : el.command m = some c := by
        rw [Elem.command, hh]
        exact hof
      obtain ⟨hneeds, hc⟩ := hcmd c hcommand
      have hknown (e : CmdEnv) (s : CmdSt) : ((dispatchCmd c.code).run e s).1 = true := by
        rw [dispatchCmd, hof]
        cases c <;> rfl
      have ht := dispatch_twin hseq hneeds hc stale heap
      unfold respond
      simp only [hknown, ht.err, ht.d2h, ht.resp]

end HmCuda
