import HmCuda.Host.Frame
import HmCuda.Host.TableOps

/-! What the backend does to memory, whatever it is asked: a property of the device that
library calls keep, and stores and copies to the places they may write, is kept by every
handler. -/

namespace HmCuda
open Layout AsyncCopy

/-- `P` survives every call, and every store or copy to a place that `W` allows. -/
structure Kept (W : Space × Nat → Nat → Prop) (P : Device → Prop) : Prop where
  lib : ∀ fn args data, Prog.Keeps P (lib fn args data)
  registered : Prog.Keeps P (Prog.modify fun d => { d with registered := true } : QueryM Unit)
  sync : ∀ fn args waits, Prog.Keeps P (sync fn args waits)
  copyAsync : ∀ fn {dst : Space × Nat} src {len : Nat} stream, W dst len →
    Prog.Keeps P (copyAsync fn dst src len stream)
  copyNow : ∀ fn {dst : Space × Nat} src {len : Nat}, W dst len →
    Prog.Keeps P (copyNow fn dst src len)
  store : ∀ {dst : Space × Nat} {bs : List UInt8}, W dst bs.length → Prog.Keeps P (store dst bs)
  log : ∀ c, Prog.Keeps P (logCopy c)
  idle : Prog.Keeps P idle

structure OwnMemory (W : Space × Nat → Nat → Prop) : Prop where
  uva : ∀ a n, W (.uva, a) n
  heap : ∀ id a n, W (.heap id, a) n

section Core
variable {W : Space × Nat → Nat → Prop} {P : Device → Prop} (hP : Kept W P) (hW : OwnMemory W)
  {k : Key} {α β : Type}
include hP

omit hP in
theorem kept_query {m : QueryM α} (h : Prog.Keeps P m) {f : α → CoreM β}
    (hf : ∀ a, Prog.Keeps (fun s : Machine => P s.dev) (f a)) :
    Prog.Keeps (fun s : Machine => P s.dev) (query m >>= f) := Prog.keeps_bind (keeps_query h) hf

omit hP in
theorem kept_resAdd (t : ResType) (p n : Nat) :
    Prog.Keeps (fun s : Machine => P s.dev) (resAdd k t p n) := fun _ _ h => h

theorem kept_code (fn : LibFn) (args : List Nat) (data : List (List UInt8)) :
    Prog.Keeps P (do return (← HmCuda.lib fn args data).code) :=
  Prog.keeps_bind (hP.lib fn args data) fun _ => Prog.keeps_pure _

theorem kept_rtQuery (fn : LibFn) (args : List Nat) :
    Prog.Keeps P (rtQuery fn args) :=
  Prog.keeps_bind (hP.lib _ _ _) fun _ => Prog.keeps_ite
    (fun _ => Prog.keeps_bind (hP.lib _ _ _) fun _ => Prog.keeps_pure _)
    fun _ => Prog.keeps_pure _

theorem kept_acquire {fn : LibFn} {args : List Nat} {t : ResType}
    {size : Nat} {missing : Nat × Option Nat} {refused : Option Nat} :
    Prog.Keeps (fun s : Machine => P s.dev) (withCtxM k missing fun _ => do
      let r ← query (HmCuda.lib fn args [])
      if r.code = 0 then
        let h ← resAdd k t (r.out 0) size
        return (r.code, some h)
      else
        return (r.code, refused)) :=
  keeps_withCtxM fun _ => kept_query (hP.lib _ _ _) fun _ => Prog.keeps_ite
    (fun _ => Prog.keeps_bind (kept_resAdd _ _ _) fun _ => Prog.keeps_pure _)
    fun _ => Prog.keeps_pure _

theorem kept_reserve {fn : LibFn} {args : List Nat} {size : Nat}
    {missing : Nat × Option Nat} {refused : Option Nat} :
    Prog.Keeps (fun s : Machine => P s.dev) (withCtxM k missing fun _ => do
      let r ← query (HmCuda.lib fn args [])
      if r.code = 0 then
        table (·.resAddWithHandle k .mem (r.out 0) size (r.out 0))
        return (r.code, some (r.out 0))
      else
        return (r.code, refused)) :=
  keeps_withCtxM fun _ => kept_query (hP.lib _ _ _) fun _ => Prog.keeps_ite
    (fun _ => Prog.keeps_bind (keeps_table _) fun _ => Prog.keeps_pure _)
    fun _ => Prog.keeps_pure _

theorem kept_release {fn : LibFn} {args : Context → List Nat}
    {t : ResType} {h missing err : Nat} :
    Prog.Keeps (fun s : Machine => P s.dev) (withCtxM k missing fun c =>
      let p := c.resGet t h
      if p = 0 then return err
      else do
        let r ← query (HmCuda.lib fn (args c) [])
        table (·.resRemove k t h)
        return r.code) :=
  keeps_withCtxM fun _ => Prog.keeps_ite (fun _ => Prog.keeps_pure _) fun _ =>
    kept_query (hP.lib _ _ _) fun _ =>
      Prog.keeps_bind (keeps_table _) fun _ => Prog.keeps_pure _

theorem kept_freeResourceList (t : ResType) (rs : List Resource) :
    Prog.Keeps P (freeResourceList t rs) := by
  induction rs with
  | nil => exact Prog.keeps_pure ()
  | cons r rs ih =>
    rcases hfn : freeCall t with _ | fn
    all_goals simp only [freeResourceList, hfn]
    · exact ih
    · exact Prog.keeps_ite (fun _ => Prog.keeps_bind (hP.lib _ _ _) fun _ => ih) fun _ => ih

theorem kept_register : Prog.Keeps P registerGuestMemory := by
  have regions (rs : List (Nat × Nat)) : Prog.Keeps P (registerRegions rs) := by
    induction rs with
    | nil => exact Prog.keeps_pure ()
    | cons r rs ih =>
      exact Prog.keeps_ite (fun _ => Prog.keeps_bind (hP.lib _ _ _) fun _ => ih) fun _ => ih
  exact Prog.keeps_bind Prog.keeps_get fun _ => Prog.keeps_ite (fun _ => Prog.keeps_pure ())
    fun _ => Prog.keeps_bind Prog.keeps_ask fun _ => Prog.keeps_bind (regions _) fun _ =>
      hP.registered

theorem kept_ctxDestroy (c : Context) :
    Prog.Keeps (fun s : Machine => P s.dev) (ctxDestroy c) := by
  refine Prog.keeps_bind (keeps_table _) fun _ => keeps_query ?_
  generalize ResType.all = ts
  induction ts with
  | nil => exact Prog.keeps_pure ()
  | cons t ts ih => exact Prog.keeps_bind (kept_freeResourceList hP t _) fun _ => ih

theorem kept_coreInit : Prog.Keeps (fun s : Machine => P s.dev) (coreInit k) := by
  refine Prog.keeps_bind Prog.keeps_get fun s => ?_
  have rest : Prog.Keeps (fun s : Machine => P s.dev) (do
      table (·.ctxCreate k)
      let res ← query (HmCuda.lib .cuInit [0] [])
      if res.code ≠ 0 then
        let _ ← query (HmCuda.lib .cuGetErrorString [res.code] [])
        return 3
      let err ← query (HmCuda.lib .cudaSetDevice [0] [])
      if err.code ≠ 0 then
        return err.code
      let err ← query (HmCuda.lib .cudaFree [0] [])
      if err.code ≠ 0 then
        let _ ← query (HmCuda.lib .cudaDeviceReset [] [])
        let err ← query (HmCuda.lib .cudaSetDevice [0] [])
        if err.code ≠ 0 then
          return err.code
        let err ← query (HmCuda.lib .cudaFree [0] [])
        return err.code
      return err.code) := by
    refine Prog.keeps_bind (keeps_table _) fun _ => kept_query (hP.lib _ _ _) fun _ => ?_
    refine Prog.keeps_ite (fun _ => kept_query (hP.lib _ _ _) fun _ => Prog.keeps_pure _)
      fun _ => kept_query (hP.lib _ _ _) fun _ => ?_
    refine Prog.keeps_ite (fun _ => Prog.keeps_pure _) fun _ =>
      kept_query (hP.lib _ _ _) fun _ => ?_
    refine Prog.keeps_ite (fun _ => ?_) fun _ => Prog.keeps_pure _
    refine kept_query (hP.lib _ _ _) fun _ => kept_query (hP.lib _ _ _) fun _ => ?_
    exact Prog.keeps_ite (fun _ => Prog.keeps_pure _) fun _ =>
      kept_query (hP.lib _ _ _) fun _ => Prog.keeps_pure _
  rcases s.tab.ctxGet k with _ | c
  · exact rest
  · exact Prog.keeps_bind (kept_ctxDestroy hP c) fun _ => rest

theorem kept_retain (device : Nat) : Prog.Keeps (fun s : Machine => P s.dev)
    (coreCuDevicePrimaryCtxRetain k device) := by
  have accept (r : LibRet) : Prog.Keeps (fun s : Machine => P s.dev) (do
      let h ← resAdd k .context (r.out 0) device
      query registerGuestMemory
      return (0, some h) : CoreM (Nat × Option Nat)) :=
    Prog.keeps_bind (kept_resAdd _ _ _) fun _ => kept_query (kept_register hP) fun _ =>
      Prog.keeps_pure _
  refine keeps_withCtxM fun c => kept_query (hP.lib _ _ _) fun r =>
    Prog.keeps_ite (fun _ => ?_) fun _ => accept r
  refine kept_query (hP.lib _ _ _) fun _ => Prog.keeps_bind (kept_ctxDestroy hP c) fun _ => ?_
  refine Prog.keeps_bind (keeps_table _) fun _ => kept_query (hP.lib _ _ _) fun r => ?_
  exact Prog.keeps_ite (fun _ => Prog.keeps_pure _) fun _ => accept r

theorem kept_coreCuStreamGetCtx (stream : Nat) : Prog.Keeps (fun s : Machine => P s.dev)
    (coreCuStreamGetCtx k stream) :=
  keeps_withCtxM fun _ => kept_query (hP.lib _ _ _) fun _ => Prog.keeps_ite
    (fun _ => Prog.keeps_ite
      (fun _ => Prog.keeps_bind (kept_resAdd _ _ _) fun _ => Prog.keeps_pure _)
      fun _ => Prog.keeps_pure _)
    fun _ => Prog.keeps_pure _

theorem kept_coreCuMemFreeHost (va : Nat) : Prog.Keeps (fun s : Machine => P s.dev)
    (coreCuMemFreeHost k va) :=
  keeps_withCtxM fun _ => Prog.keeps_ite (fun _ => Prog.keeps_pure _) fun _ =>
    kept_query (hP.lib _ _ _) fun _ => Prog.keeps_bind (keeps_table _) fun _ =>
      Prog.keeps_bind (keeps_table _) fun _ => Prog.keeps_pure _

theorem kept_coreFree (p : Nat) : Prog.Keeps (fun s : Machine => P s.dev) (coreFree k p) :=
  keeps_withCtxM fun _ => Prog.keeps_ite (fun _ => kept_query (hP.lib _ _ _) fun _ =>
    Prog.keeps_bind (keeps_table _) fun _ => Prog.keeps_pure _) fun _ => Prog.keeps_pure _

theorem kept_coreEventDestroy (event : Nat) : Prog.Keeps (fun s : Machine => P s.dev)
    (coreEventDestroy k event) :=
  keeps_withCtxM fun _ => Prog.keeps_ite (fun _ => kept_query (hP.lib _ _ _) fun _ =>
    Prog.keeps_bind (keeps_table _) fun _ => Prog.keeps_pure _) fun _ => Prog.keeps_pure _

theorem kept_coreRegisterFatbin (image : List UInt8) : Prog.Keeps (fun s : Machine => P s.dev)
    (coreRegisterFatbin k image) :=
  keeps_withCtxM fun _ => kept_query (hP.lib _ _ _) fun _ => Prog.keeps_ite
    (fun _ => kept_query (hP.lib _ _ _) fun _ => Prog.keeps_pure _)
    fun _ => Prog.keeps_bind (kept_resAdd _ _ _) fun _ => Prog.keeps_pure _

theorem kept_coreRegisterFunction (module hostFun : Nat) (name : List UInt8) :
    Prog.Keeps (fun s : Machine => P s.dev) (coreRegisterFunction k module hostFun name) :=
  kept_query (hP.lib _ _ _) fun _ => Prog.keeps_ite
    (fun _ => kept_query (hP.lib _ _ _) fun _ => Prog.keeps_pure _)
    fun _ => Prog.keeps_bind (keeps_table _) fun _ => Prog.keeps_pure _

theorem kept_coreDeviceSynchronize : Prog.Keeps P coreDeviceSynchronize :=
  Prog.keeps_bind (hP.sync _ _ _) fun _ => Prog.keeps_ite
    (fun _ => Prog.keeps_bind (hP.lib _ _ _) fun _ => Prog.keeps_pure _)
    fun _ => Prog.keeps_pure _

theorem kept_coreGetDeviceProperties (device : Nat) :
    Prog.Keeps P (coreGetDeviceProperties device) :=
  Prog.keeps_bind (hP.lib _ _ _) fun _ => Prog.keeps_ite
    (fun _ => Prog.keeps_bind (hP.lib _ _ _) fun _ => Prog.keeps_pure _)
    fun _ => Prog.keeps_bind Prog.keeps_ask fun _ => Prog.keeps_pure _

theorem kept_corePop : Prog.Keeps P (corePopCallConfiguration k) :=
  keeps_withCtx fun _ => Prog.keeps_bind (hP.lib _ _ _) fun _ => Prog.keeps_ite
    (fun _ => Prog.keeps_pure _) fun _ => Prog.keeps_pure _

theorem kept_funcAttributes (func : Nat) (as : List Nat) :
    Prog.Keeps P (funcAttributes func as) := by
  induction as with
  | nil => exact Prog.keeps_pure []
  | cons a as ih => exact Prog.keeps_bind (hP.lib _ _ _) fun _ => Prog.keeps_bind ih fun _ =>
      Prog.keeps_pure _

theorem kept_coreFuncGetAttributes (func : Nat) :
    Prog.Keeps P (coreFuncGetAttributes k func) :=
  keeps_withCtx fun _ => Prog.keeps_ite (fun _ => Prog.keeps_pure _) fun _ =>
    Prog.keeps_bind (kept_funcAttributes hP _ _) fun _ => Prog.keeps_pure _

include hW

theorem kept_coreCuMemcpyAsync (dst src n stream : Nat) :
    Prog.Keeps P (coreCuMemcpyAsync k dst src n stream) :=
  keeps_withCtx fun _ => Prog.keeps_ite (fun _ => Prog.keeps_pure _) fun _ =>
    hP.copyAsync _ _ _ (hW.uva _ _)

theorem kept_coreCuMemcpyHtod (dst src n : Nat) : Prog.Keeps P (coreCuMemcpyHtod k dst src n) :=
  keeps_withCtx fun _ => Prog.keeps_ite (fun _ => Prog.keeps_pure _) fun _ =>
    hP.copyNow _ _ (hW.uva _ _)

/-! The copies -/

theorem kept_coreMemcpy {dst src count kind stream : Nat} {hostPtr : Option (Space × Nat)}
    (hw : ∀ hp, hostPtr = some hp → kind = 2 → W hp count) :
    Prog.Keeps P (coreMemcpy k dst src count kind hostPtr stream) := by
  refine keeps_withCtx fun c => Prog.keeps_ite (fun _ => ?_) fun _ => ?_
  · refine Prog.keeps_ite (fun _ => Prog.keeps_pure _) fun _ => ?_
    rcases hostPtr with _ | hp
    · exact Prog.keeps_pure _
    refine Prog.keeps_bind (fun _ _ h => h) fun data => Prog.keeps_ite (fun _ => ?_) fun _ => ?_
    · refine Prog.keeps_bind (Prog.keeps_bind (hP.lib _ _ _) fun _ => Prog.keeps_pure _) fun ok =>
        Prog.keeps_ite (fun _ => ?_) fun _ => Prog.keeps_pure _
      refine Prog.keeps_bind Prog.keeps_get fun d => ?_
      refine Prog.keeps_bind (hP.store (hW.heap _ _ _)) fun _ => ?_
      exact Prog.keeps_bind (hP.copyAsync _ _ _ (hW.uva _ _)) fun _ =>
        Prog.keeps_ite (fun _ => hP.sync _ _ _) fun _ => Prog.keeps_pure _
    · exact Prog.keeps_bind (hP.copyAsync _ _ _ (hW.uva _ _)) fun _ =>
        Prog.keeps_ite (fun _ => hP.sync _ _ _) fun _ => Prog.keeps_pure _
  refine Prog.keeps_ite (fun hk => ?_) fun _ => ?_
  · refine Prog.keeps_ite (fun _ => Prog.keeps_pure _) fun _ => ?_
    rcases hostPtr with _ | hp
    · exact Prog.keeps_pure _
    · exact hP.copyAsync _ _ _ (hw hp rfl hk)
  · exact Prog.keeps_ite (fun _ => Prog.keeps_ite (fun _ => Prog.keeps_pure _) fun _ =>
      Prog.keeps_ite (fun _ => Prog.keeps_pure _) fun _ => hP.copyAsync _ _ _ (hW.uva _ _))
      fun _ => Prog.keeps_pure _

theorem kept_coreRuntimeMemcpyHtodVq (dst : Nat) (hp : Space × Nat) (n stream : Nat) :
    Prog.Keeps P (coreRuntimeMemcpyHtodVq k dst hp n stream) :=
  keeps_withCtx fun _ => Prog.keeps_ite (fun _ => Prog.keeps_pure _) fun _ =>
    hP.copyAsync _ _ _ (hW.uva _ _)

theorem kept_coreCuMemcpyHtodVq (dst : Nat) (hp : Space × Nat) (n stream : Nat) :
    Prog.Keeps P (coreCuMemcpyHtodVq k dst hp n stream) := by
  refine keeps_withCtx fun c => Prog.keeps_ite (fun _ => hP.copyAsync _ _ _ (hW.uva _ _))
    fun _ => ?_
  rcases c.resFind .hostMem dst with _ | r
  · exact Prog.keeps_pure _
  refine Prog.keeps_ite (fun _ => Prog.keeps_pure _) fun _ => ?_
  refine Prog.keeps_bind (fun _ _ h => h) fun data => Prog.keeps_ite (fun _ => ?_) fun _ => ?_
  · refine Prog.keeps_bind (Prog.keeps_bind (hP.lib _ _ _) fun _ => Prog.keeps_pure _) fun ok => ?_
    exact Prog.keeps_ite (fun _ => Prog.keeps_bind (hP.store (hW.uva _ _)) fun _ =>
      Prog.keeps_bind (hP.log _) fun _ => Prog.keeps_pure _) fun _ => Prog.keeps_pure _
  · exact Prog.keeps_bind (hP.store (hW.uva _ _)) fun _ => Prog.keeps_bind (hP.log _) fun _ =>
      Prog.keeps_pure _

theorem kept_copyToHostAlloc (va off : Nat) (hp : Space × Nat) (n : Nat) :
    Prog.Keeps P (copyToHostAlloc k va off hp n) := by
  refine keeps_withCtx fun c => ?_
  rcases c.resFind .hostMem va with _ | r
  · exact Prog.keeps_pure _
  refine Prog.keeps_ite (fun _ => Prog.keeps_pure _) fun _ => ?_
  exact Prog.keeps_bind (fun _ _ h => h) fun data => Prog.keeps_bind (hP.store (hW.uva _ _))
    fun _ => Prog.keeps_bind (hP.log _) fun _ => Prog.keeps_pure _

theorem kept_cuMemHostAllocPlan (e : CmdEnv) (p : Nat → UInt8) :
    Prog.Keeps (fun s : Machine => P s.dev) (cuMemHostAllocPlan k e p) := by
  refine Prog.keeps_ite (fun _ => Prog.keeps_firstError fun ch _ => ?_) fun _ => Prog.keeps_pure 1
  refine keeps_withCtxM fun c => Prog.keeps_ite (fun _ => ?_) fun _ =>
    keeps_query (kept_copyToHostAlloc hP hW _ _ _ _)
  refine kept_query (hP.lib _ _ _) fun r => Prog.keeps_ite (fun _ => Prog.keeps_pure _) fun _ => ?_
  refine Prog.keeps_bind (keeps_table _) fun _ => kept_query (hP.lib _ _ _) fun g => ?_
  exact Prog.keeps_ite (fun _ => Prog.keeps_bind (keeps_table _) fun _ =>
      keeps_query (kept_copyToHostAlloc hP hW _ _ _ _))
    fun _ => keeps_query (kept_copyToHostAlloc hP hW _ _ _ _)

omit hW in
theorem kept_coreStreamSynchronize (stream : Nat) :
    Prog.Keeps P (coreStreamSynchronize k stream) := keeps_withCtx fun _ => hP.sync _ _ _

omit hW in
theorem kept_thenSync (stream err : Nat) : Prog.Keeps P (thenSync k stream err) :=
  Prog.keeps_ite (fun _ => kept_coreStreamSynchronize hP stream) fun _ => Prog.keeps_pure _

omit hP hW in
theorem kept_copyInPlan {e : CmdEnv} {count : Nat} {f : Chunk → QueryM Nat}
    (h : ∀ ch, Prog.Keeps P (f ch)) : Prog.Keeps P (copyInPlan e count f) :=
  Prog.keeps_ite (fun _ => Prog.keeps_firstError fun ch _ => h ch) fun _ => Prog.keeps_pure _

omit hP hW in
theorem kept_copyOutPlan {e : CmdEnv} {count : Nat} {f : Chunk → QueryM Nat}
    {after : Nat → QueryM Nat} (h : ∀ ch ∈ chunks count e.elem.inSg.dropLast, Prog.Keeps P (f ch))
    (ha : ∀ n, Prog.Keeps P (after n)) : Prog.Keeps P (copyOutPlan e count f after) :=
  Prog.keeps_ite (fun _ => Prog.keeps_bind (Prog.keeps_firstError h) ha) fun _ => Prog.keeps_pure _

/-- Where a copy of the element ends may be written: its data descriptors, and the guest range
that a device-to-host copy names itself. -/
structure Copies (W : Space × Nat → Nat → Prop) (env : Env) (el : Elem) (c : Option Cmd)
    (r : MemReq) : Prop where
  data : ∀ v ∈ el.inSg.dropLast, ∀ n ≤ v.len, W (v.sp, v.base) n
  named : c = some (.rt .memcpy) → r.kind = 2 → r.dst ≠ 0 →
    ∀ hp n, env.gpaToVa r.dst r.count = some (hp, n) → W hp r.count

/-- The descriptors of an element may be written, and where a device-to-host copy names a
guest range itself, the range. -/
structure Permits (W : Space × Nat → Nat → Prop) (env : Env) (el : Elem) (c : Option Cmd)
    (r : MemReq) : Prop where
  data : ∀ v ∈ el.inSg, ∀ n ≤ v.len, W (v.sp, v.base) n
  named : c = some (.rt .memcpy) → r.kind = 2 → r.dst ≠ 0 →
    ∀ hp n, env.gpaToVa r.dst r.count = some (hp, n) → W hp r.count

omit hP hW in
theorem Permits.copies {env : Env} {el : Elem} {c : Option Cmd} {r : MemReq}
    (h : Permits W env el c r) : Copies W env el c r :=
  ⟨fun v hv => h.data v (List.dropLast_subset _ hv), h.named⟩

omit hP hW in
theorem cutAt_le {count off len : Nat} (ho : off < count) (hc : count < 2 ^ 64) :
    cutAt count off len ≤ len := by
  unfold cutAt
  split
  next h =>
    rw [sub64_of_le ho.le hc]
    have hle : add64 off len ≤ off + len := Nat.mod_le _ _
    omega
  next => exact le_rfl

omit hP hW in
theorem mem_chunksFrom {count off : Nat} {vs : List Iov} {ch : Chunk} (hc : count < 2 ^ 64)
    (h : ch ∈ chunksFrom (cutAt count) count off vs) : ch.iov ∈ vs ∧ ch.len ≤ ch.iov.len := by
  induction vs generalizing off with
  | nil => cases h
  | cons v vs ih =>
    rw [chunksFrom] at h
    split at h
    next ho =>
      rcases List.mem_cons.mp h with rfl | h
      · exact ⟨List.mem_cons_self, cutAt_le ho hc⟩
      · exact (ih h).imp_left (List.mem_cons_of_mem _)
    next => cases h

omit hP hW in
theorem Copies.chunk {env : Env} {el : Elem} {c : Option Cmd} {r : MemReq}
    (h : Copies W env el c r) (hc : r.count < 2 ^ 64) {ch : Chunk}
    (hch : ch ∈ chunks r.count el.inSg.dropLast) :
    W (ch.iov.sp, ch.iov.base) ch.len := by
  obtain ⟨hv, hle⟩ := mem_chunksFrom hc hch
  exact h.data _ hv _ hle

theorem kept_memcpyPlan {e : CmdEnv} {r : MemReq} (hc : r.count < 2 ^ 64)
    (h : Copies W e.env e.elem (some (.rt .memcpy)) r) : Prog.Keeps P (memcpyPlan k e r) := by
  refine Prog.keeps_ite (fun hk => Prog.keeps_ite (fun _ => ?_) fun _ => ?_) fun h1 => ?_
  · exact kept_copyInPlan fun ch => kept_coreRuntimeMemcpyHtodVq hP hW _ _ _ _
  · unfold legacyPlan
    rcases e.env.gpaToVa r.src r.count with _ | ⟨hp, n⟩
    · exact Prog.keeps_pure _
    · exact Prog.keeps_ite (fun _ => Prog.keeps_pure _) fun _ =>
        kept_coreMemcpy hP hW fun hp' _ h2 => absurd (hk.symm.trans h2) (by decide)
  refine Prog.keeps_ite (fun hk => Prog.keeps_ite (fun _ => ?_) fun hd => ?_) fun h2 =>
    kept_coreMemcpy hP hW fun hp' hsome _ => by cases hsome
  · refine kept_copyOutPlan (fun ch hch => kept_coreMemcpy hP hW fun hp hsome _ => ?_) fun n =>
      kept_thenSync hP _ _
    obtain rfl := Option.some.inj hsome
    exact h.chunk hc hch
  · have hn := h.named rfl hk hd
    unfold legacyPlan
    rcases hg : e.env.gpaToVa r.dst r.count with _ | ⟨hp, n⟩
    · exact Prog.keeps_pure _
    · refine Prog.keeps_ite (fun _ => Prog.keeps_pure _) fun _ => Prog.keeps_bind
        (kept_coreMemcpy hP hW fun hp' hsome _ => ?_) fun _ => kept_thenSync hP _ _
      exact Option.some.inj hsome ▸ hn hp n hg

omit hW in
theorem kept_coreCuMemcpyDtohVq {src n stream : Nat} {hp : Space × Nat} (hw : W hp n) :
    Prog.Keeps P (coreCuMemcpyDtohVq k src hp n stream) := by
  refine keeps_withCtx fun c => Prog.keeps_ite (fun _ => hP.copyAsync _ _ _ hw) fun _ => ?_
  rcases c.resFind .hostMem src with _ | r
  · exact Prog.keeps_pure _
  refine Prog.keeps_ite (fun _ => Prog.keeps_pure _) fun _ => ?_
  intro q d hd
  refine Prog.keeps_bind (hP.log _) (fun _ => Prog.keeps_pure 0) q _ (hP.store ?_ q d hd)
  rwa [load_run, ByteMem.length_read]

theorem kept_cuMemcpyPlan {e : CmdEnv} {c : Option Cmd} {r : MemReq} (hc : r.count < 2 ^ 64)
    (h : Copies W e.env e.elem c r) : Prog.Keeps P (cuMemcpyPlan k e r) := by
  refine Prog.keeps_ite (fun _ => kept_copyInPlan fun ch => kept_coreCuMemcpyHtodVq hP hW _ _ _ _)
    fun _ => Prog.keeps_ite (fun _ => ?_) fun _ => Prog.keeps_pure _
  exact kept_copyOutPlan (fun ch hch => kept_coreCuMemcpyDtohVq hP (h.chunk hc hch))
    fun _ => Prog.keeps_pure _

end Core

/-! The handlers -/

section Handlers
variable {W : Space × Nat → Nat → Prop} {P : Device → Prop} {α β : Type}

theorem Kept.handler {m : CoreM α} {e : CmdEnv} {s s' : CmdSt}
    (h : Prog.Keeps (fun s : Machine => P s.dev) m) (h0 : P s.be.dev)
    (hs : s'.be = (m.run e.env s.be).2) : P s'.be.dev := by
  rw [hs]
  exact h _ _ h0

variable (hP : Kept W P) {e : CmdEnv} {s : CmdSt}
include hP

omit hP in
theorem kept_req (f : Field) : Prog.Keeps (fun s : CmdSt => P s.be.dev) (req f) := fun _ _ h => h

omit hP in
theorem kept_core {m : QueryM α} (h : Prog.Keeps P m) :
    Prog.Keeps (fun s : CmdSt => P s.be.dev) (core (query m)) := fun _ _ hs => h _ _ hs

omit hP in
theorem kept_setErr (n : Nat) : Prog.Keeps (fun s : CmdSt => P s.be.dev) (setErr n) :=
  fun _ _ h => h

omit hP in
theorem kept_reply (t : CStruct) (vals : List (Option Nat)) (rest : List UInt8) :
    Prog.Keeps (fun s : CmdSt => P s.be.dev) (reply t vals rest) := fun _ _ h => h

omit hP in
theorem kept_dim3 (f : Nat → Field) : Prog.Keeps (fun s : CmdSt => P s.be.dev) (dim3 f) :=
  fun _ _ h => h

theorem kept_coreLaunchKernel (k : Key) (func : Nat) (grid block : List Nat)
    (sharedMem stream args argsSize : Nat) : Prog.Keeps (fun s : CmdSt => P s.be.dev)
      (coreLaunchKernel k func grid block sharedMem stream args argsSize) := by
  refine Prog.keeps_bind Prog.keeps_get fun s => ?_
  rcases s.be.tab.ctxGet k with _ | c
  · exact Prog.keeps_pure _
  have tail (m : CmdM (List (List UInt8))) (hm : Prog.Keeps (fun s : CmdSt => P s.be.dev) m)
      (config : List Nat) : Prog.Keeps (fun s : CmdSt => P s.be.dev) (do
        let params ← m
        let res ← core (query (lib .cuLaunchKernel config params))
        if res.code ≠ 0 then
          let _ ← core (query (lib .cuGetErrorString [res.code] []))
          return 719
        return 0) :=
    Prog.keeps_bind hm fun _ => Prog.keeps_bind (kept_core (hP.lib _ _ _)) fun _ =>
      Prog.keeps_ite (fun _ => Prog.keeps_bind (kept_core (hP.lib _ _ _)) fun _ =>
        Prog.keeps_pure _) fun _ => Prog.keeps_pure _
  have translate : Prog.Keeps (fun s : CmdSt => P s.be.dev)
      (Prog.forEach (translateArg c args) (List.range (argsSize / 8))) :=
    Prog.keeps_forEach (fun _ => Prog.keeps_bind (fun _ _ h => h) fun _ =>
      Prog.keeps_ite (fun _ _ _ h => h) fun _ => Prog.keeps_pure _) _
  refine Prog.keeps_ite (fun _ => Prog.keeps_pure _) fun _ => Prog.keeps_ite (fun _ => ?_) fun _ =>
    tail _ (Prog.keeps_pure []) _
  refine Prog.keeps_bind translate fun _ => Prog.keeps_bind Prog.keeps_ask fun _ => tail _ ?_ _
  exact Prog.keeps_collect (fun _ _ _ h => h) _

theorem kept_handleLaunchKernel :
    Prog.Keeps (fun s : CmdSt => P s.be.dev) handleLaunchKernel :=
  Prog.keeps_bind (kept_req _) fun _ => Prog.keeps_bind (kept_dim3 _) fun _ =>
    Prog.keeps_bind (kept_dim3 _) fun _ => Prog.keeps_bind (kept_req _) fun _ =>
    Prog.keeps_bind (kept_req _) fun _ => Prog.keeps_bind (kept_req _) fun _ =>
    Prog.keeps_bind (fun _ _ h => h) fun _ =>
    Prog.keeps_bind (kept_coreLaunchKernel hP _ _ _ _ _ _ _ _) fun _ => kept_setErr _

theorem kept_handleGetErrorText (fn : LibFn) (args : List Nat) :
    Prog.Keeps (fun s : CmdSt => P s.be.dev) (handleGetErrorText (lib fn args [])) := by
  refine Prog.keeps_bind (kept_core (hP.lib _ _ _)) fun r =>
    Prog.keeps_bind (kept_setErr 0) fun _ => ?_
  rcases r.str with _ | str
  · exact Prog.keeps_pure _
  · exact Prog.keeps_bind Prog.keeps_ask fun _ => Prog.keeps_bind Prog.keeps_get fun _ =>
      kept_reply _ _ _

theorem kept_handleCuGetErrorText (t : CStruct) (fn : LibFn) (args : List Nat) :
    Prog.Keeps (fun s : CmdSt => P s.be.dev) (handleCuGetErrorText t (lib fn args [])) := by
  refine Prog.keeps_bind (kept_core (hP.lib _ _ _)) fun r =>
    Prog.keeps_bind (kept_setErr _) fun _ => ?_
  rcases r.str with _ | str <;> exact kept_reply _ _ _

theorem kept_handleCuDeviceGetName :
    Prog.Keeps (fun s : CmdSt => P s.be.dev) handleCuDeviceGetName :=
  Prog.keeps_bind (kept_req _) fun _ => Prog.keeps_bind
    (kept_core (Prog.keeps_bind (hP.lib _ _ _) fun _ => Prog.keeps_pure _)) fun _ =>
    Prog.keeps_ite (fun _ => Prog.keeps_bind (kept_req _) fun _ =>
      Prog.keeps_bind (kept_core (hP.lib _ _ _)) fun _ =>
      Prog.keeps_bind (kept_setErr _) fun _ => kept_reply _ _ _) fun _ => kept_setErr _

theorem kept_handleCuMemSetAccess :
    Prog.Keeps (fun s : CmdSt => P s.be.dev) handleCuMemSetAccess := by
  refine Prog.keeps_bind (kept_req _) fun _ => Prog.keeps_bind
    (kept_core (Prog.keeps_bind (hP.lib _ _ _) fun _ => Prog.keeps_pure _)) fun _ =>
    Prog.keeps_ite (fun _ => ?_) fun _ => kept_setErr _
  refine Prog.keeps_bind (Prog.keeps_collect (fun _ _ _ h => h) _) fun _ =>
    Prog.keeps_bind (fun _ _ h => h) fun _ => Prog.keeps_bind (kept_req _) fun _ =>
    Prog.keeps_bind (kept_req _) fun _ => Prog.keeps_bind ?_ fun _ => kept_setErr _
  exact kept_core (keeps_withCtx fun _ => Prog.keeps_ite (fun _ => Prog.keeps_pure _) fun _ =>
    kept_code hP _ _ _)

theorem runtimeHandleCmd_kept {c : RtCmd} (hc : c ≠ .memcpy) (h0 : P s.be.dev) :
    P ((runtimeHandleCmd c).run e s).2.be.dev := by
  have call {fn : LibFn} (args : List Nat) := kept_code hP fn args []
  cases c
  case memcpy => exact absurd rfl hc
  case init => exact Kept.handler (kept_coreInit hP) h0 rfl
  case malloc => exact Kept.handler (kept_reserve hP) h0 rfl
  case free => exact Kept.handler (kept_coreFree hP _) h0 rfl
  case memset =>
    exact Kept.handler (keeps_query (keeps_withCtx fun _ => Prog.keeps_ite
      (fun _ => Prog.keeps_pure _) fun _ => call _)) h0 rfl
  case launchKernel => exact kept_handleLaunchKernel hP e s h0
  case streamCreate | eventCreate => exact Kept.handler (kept_acquire hP) h0 rfl
  case streamSynchronize =>
    exact Kept.handler (keeps_query (kept_coreStreamSynchronize hP _)) h0 rfl
  case eventRecord | eventSynchronize | pushCallConfiguration =>
    exact Kept.handler (keeps_query (keeps_withCtx fun _ => call _)) h0 rfl
  case eventElapsedTime =>
    exact Kept.handler (keeps_query (keeps_withCtx fun _ => Prog.keeps_bind (hP.lib _ _ _)
      fun _ => Prog.keeps_pure _)) h0 rfl
  case eventDestroy => exact Kept.handler (kept_coreEventDestroy hP _) h0 rfl
  case deviceSynchronize => exact Kept.handler (keeps_query (kept_coreDeviceSynchronize hP)) h0 rfl
  case popCallConfiguration => exact Kept.handler (keeps_query (kept_corePop hP)) h0 rfl
  case initModule =>
    exact Kept.handler (keeps_query (keeps_withCtx fun _ => Prog.keeps_ite
      (fun _ => Prog.keeps_pure _) fun _ => Prog.keeps_pure _)) h0 rfl
  case getDeviceProperties =>
    exact Kept.handler (keeps_query (kept_coreGetDeviceProperties hP _)) h0 rfl
  case getDeviceCount | runtimeGetVersion =>
    exact Kept.handler (keeps_query (Prog.keeps_bind (kept_rtQuery hP _ _) fun _ =>
      Prog.keeps_pure _)) h0 rfl
  case setDevice => exact Kept.handler (keeps_query (kept_rtQuery hP _ _)) h0 rfl
  case getErrorString | getErrorName =>
    exact Prog.keeps_bind (kept_req _) (fun _ => kept_handleGetErrorText hP _ _) e s h0
  case registerFatbin =>
    unfold runtimeHandleCmd handleRegisterFatbin
    simp only [Prog.bind_run, Prog.ite_run, key_run]
    split
    all_goals exact Kept.handler (kept_coreRegisterFatbin hP _) h0 rfl
  case registerFunction =>
    unfold runtimeHandleCmd handleRegisterFunction
    simp only [Prog.bind_run, Prog.get_run, key_run]
    split
    · exact h0
    · simp only [Prog.ite_run]
      split
      · exact h0
      · exact Kept.handler (kept_coreRegisterFunction hP _ _ _) h0 rfl
  case funcGetAttributes =>
    exact Kept.handler (keeps_query (kept_coreFuncGetAttributes hP _)) h0 rfl

theorem driverHandleCmd_kept (hW : OwnMemory W) {c : DrvCmd}
    (hc : c ∉ [DrvCmd.cuMemcpy, .cuMemHostAlloc]) (h0 : P s.be.dev) :
    P ((driverHandleCmd c).run e s).2.be.dev := by
  have call {fn : LibFn} (args : List Nat) := kept_code hP fn args []
  have asked {fn : LibFn} (args : List Nat) : Prog.Keeps P (do
      let r ← lib fn args []
      return (r.code, if r.code = 0 then some (r.out 0) else none) : QueryM (Nat × Option Nat)) :=
    Prog.keeps_bind (hP.lib _ _ _) fun _ => Prog.keeps_pure _
  cases c
  case cuMemcpy | cuMemHostAlloc => exact absurd (by simp) hc
  case cuInit => exact Kept.handler (keeps_query (hP.lib _ _ _)) h0 rfl
  case cuDriverGetVersion | cuDeviceGet | cuDeviceGetCount | cuDeviceGetAttribute | cuDeviceGetUuid
      | cuDeviceCanAccessPeer | cuCtxGetDevice | cuMemGetAllocGranularity
      | cuMulticastGetGranularity =>
    exact Kept.handler (keeps_query (asked _)) h0 rfl
  case cuDeviceGetName => exact kept_handleCuDeviceGetName hP e s h0
  case cuDevicePrimaryCtxRetain => exact Kept.handler (kept_retain hP _) h0 rfl
  case cuDevicePrimaryCtxRelease => exact Kept.handler (keeps_query (call _)) h0 rfl
  case cuCtxSetCurrent | cuCtxEnablePeerAccess | cuStreamQuery | cuStreamWaitEvent
      | cuEventRecord =>
    exact Kept.handler (keeps_query (keeps_withCtx fun _ => call _)) h0 rfl
  case cuStreamCreate | cuEventCreate | cuMemCreate | cuMemImportFromShareableHandle
      | cuMulticastCreate => exact Kept.handler (kept_acquire hP) h0 rfl
  case cuStreamDestroy | cuEventDestroy | cuMemFree | cuMemRelease | cuMemAddressFree =>
    exact Kept.handler (kept_release hP) h0 rfl
  case cuStreamSynchronize =>
    exact Kept.handler (keeps_query (keeps_withCtx fun _ => hP.sync _ _ _)) h0 rfl
  case cuStreamGetCtx => exact Kept.handler (kept_coreCuStreamGetCtx hP _) h0 rfl
  case cuEventElapsedTime =>
    exact Kept.handler (keeps_query (keeps_withCtx fun _ => asked _)) h0 rfl
  case cuMemAlloc | cuMemAddressReserve => exact Kept.handler (kept_reserve hP) h0 rfl
  case cuMemFreeHost => exact Kept.handler (kept_coreCuMemFreeHost hP _) h0 rfl
  case cuMemsetD32 | cuMemMap | cuMemUnmap | cuMulticastAddDevice | cuMulticastUnbind
      | cuMulticastBindMem =>
    exact Kept.handler (keeps_query (keeps_withCtx fun _ => Prog.keeps_ite
      (fun _ => Prog.keeps_pure _) fun _ => call _)) h0 rfl
  case cuMemcpyAsync =>
    exact Kept.handler (keeps_query (kept_coreCuMemcpyAsync hP hW _ _ _ _)) h0 rfl
  case cuMemcpyHtod => exact Kept.handler (keeps_query (kept_coreCuMemcpyHtod hP hW _ _ _)) h0 rfl
  case cuPointerGetAttribute | cuMemExportToShareableHandle =>
    exact Kept.handler (keeps_query (keeps_withCtx fun _ => Prog.keeps_ite
      (fun _ => Prog.keeps_pure _) fun _ => Prog.keeps_bind (hP.lib _ _ _) fun _ =>
        Prog.keeps_pure _)) h0 rfl
  case cuGetErrorString | cuGetErrorName =>
    exact Prog.keeps_bind (kept_req _) (fun _ => kept_handleCuGetErrorText hP _ _ _) e s h0
  case cuMemSetAccess => exact kept_handleCuMemSetAccess hP e s h0

/-- Every request keeps `P` when the places it names may be written. -/
theorem dispatchCmd_kept (hW : OwnMemory W) (n : Nat)
    (h : Copies W e.env e.elem (Cmd.ofCode n) (memReq s.payload)) (h0 : P s.be.dev) :
    P ((dispatchCmd n).run e s).2.be.dev := by
  have hcount := memReq_count_lt s.payload
  rw [dispatchCmd]
  rcases hn : Cmd.ofCode n with _ | ⟨c⟩ | ⟨c⟩
  · exact h0
  · by_cases hc : c = .memcpy
    · subst hc
      exact Kept.handler (keeps_query (kept_memcpyPlan hP hW hcount (hn ▸ h))) h0
        (handleMemcpy_ran rfl).be
    · exact runtimeHandleCmd_kept hP hc h0
  · by_cases h1 : c = .cuMemcpy
    · subst h1
      exact Kept.handler (keeps_query (kept_cuMemcpyPlan hP hW hcount h)) h0
        (handleCuMemcpy_ran rfl).be
    by_cases h2 : c = .cuMemHostAlloc
    · subst h2
      exact Kept.handler (kept_cuMemHostAllocPlan hP hW _ _) h0 handleCuMemHostAlloc_ran.be
    · exact driverHandleCmd_kept hP hW (by simp [h1, h2]) h0

omit hP in
theorem mem_bufToIov_within {vs : List Iov} {buf : List UInt8} {w : RespWrite}
    (h : w ∈ bufToIov vs buf) :
    ∃ v ∈ vs, w.sp = v.sp ∧ w.base = v.base ∧ w.bytes.length ≤ v.len := by
  induction vs generalizing buf with
  | nil => cases h
  | cons v vs ih =>
    rw [bufToIov] at h
    split at h
    · cases h
    · rcases List.mem_cons.mp h with rfl | h
      · exact ⟨v, List.mem_cons_self, rfl, rfl, List.length_take_le _ _⟩
      · obtain ⟨v', hv, hw⟩ := ih h
        exact ⟨v', List.mem_cons_of_mem _ hv, hw⟩

omit hP in
theorem mem_respWrites {d2h : Bool} {vs : List Iov} {resp : List UInt8} {w : RespWrite}
    (h : w ∈ respWrites d2h vs resp) :
    ∃ v ∈ vs, w.sp = v.sp ∧ w.base = v.base ∧ w.bytes.length ≤ v.len := by
  unfold respWrites at h
  split at h
  · rw [Option.mem_toList, Option.map_eq_some_iff] at h
    obtain ⟨v, hv, rfl⟩ := h
    exact ⟨v, List.mem_of_mem_getLast? hv, rfl, rfl, List.length_take_le _ _⟩
  · exact mem_bufToIov_within h

theorem kept_deliver {env : Env} {m : Machine} {ws : List RespWrite}
    (hw : ∀ w ∈ ws, W (w.sp, w.base) w.bytes.length) (h0 : P m.dev) : P (m.deliver env ws).dev := by
  have hd : P (idle.run ⟨env, m.tab⟩ m.dev).2 := hP.idle _ _ h0
  show P { (idle.run ⟨env, m.tab⟩ m.dev).2 with eng := _ }
  generalize (idle.run ⟨env, m.tab⟩ m.dev).2 = d at hd
  induction ws generalizing d with
  | nil => exact hd
  | cons w ws ih =>
    have h1 := hP.store (hw w List.mem_cons_self) ⟨env, m.tab⟩ d hd
    exact ih (fun w' h' => hw w' (List.mem_cons_of_mem _ h')) _ h1

/-- One element keeps `P` when the places it names may be written. -/
theorem processElem_kept (hW : OwnMemory W) {k : Key} {el : Elem} {env : Env} {m : Machine}
    (h : Permits W env el (el.cmd m) (memReq (cmdStart env el m).payload)) (h0 : P m.dev) :
    P ((processElem k el).run env m).2.dev := by
  unfold processElem
  dsimp only
  split
  · exact h0
  · refine kept_deliver hP (fun w hw => ?_) ?_
    · obtain ⟨v, hv, hsp, hbase, hle⟩ := mem_respWrites hw
      rw [hsp, hbase]
      exact h.data v hv _ hle
    · exact dispatchCmd_kept hP (e := cmdEnv env k el) (s := cmdStart env el m) hW _ h.copies h0

end Handlers
end HmCuda
