import HmCuda.System.Translation

/-! The three host-to-device copies of the backend and the bytes that land: only one of them
translates what goes to device memory. -/

namespace HmCuda
open AsyncCopy

/-- By guest physical address, and by the virtqueue on either API. -/
inductive HtodPath where
  | gpa | runtimeVq | cuVq
  deriving DecidableEq, Repr

def HtodPath.run (p : HtodPath) (k : Key) (dst a n stream : Nat) : QueryM Nat :=
  match p with
  | gpa => coreMemcpy k dst 0 n 1 (some (.ram, a)) stream
  | runtimeVq => coreRuntimeMemcpyHtodVq k dst (.ram, a) n stream
  | cuVq => coreCuMemcpyHtodVq k dst (.ram, a) n stream

/-- Nothing pending writes the `n` source bytes at `a`, those at `real`, or temporary buffers. -/
def Device.Still (v : Device) (a real n : Nat) : Prop :=
  ∀ x ∈ v.eng.pending, ∀ p ∈ x.dsts, (∀ id, p.1 ≠ .heap id) ∧
    ∀ i < n, p ≠ (.ram, a + i) ∧ p ≠ (.uva, real + i)

/-- Every path that answers success has stored the translation of the source, whatever the
memory is otherwise and however the copies that are pending finish. -/
def HtodTranslates (c : Context) (dst : Nat) (data : List UInt8) : Prop :=
  ∀ (path : HtodPath) (q : QEnv) (v : Device) (k : Key) (a stream : Nat),
    q.tab.ctxGet k = some c → v.eng.mem.read .ram a data.length = data →
    v.Still a (resolveAnyMem c dst) data.length →
    ((path.run k dst a data.length stream).run q v).1 = 0 →
    ∀ is, (((path.run k dst a data.length stream).run q v).2.eng.finishMany is).pending = [] →
      (((path.run k dst a data.length stream).run q v).2.eng.finishMany is).mem.read .uva
        (resolveAnyMem c dst) data.length = patchEmbeddedHostPtrs c data

section
variable {c : Context} {q : QEnv} {v : Device} {k : Key} {dst a n real stream : Nat}
  {data : List UInt8} {src : Space × Nat} {fn : LibFn} {is : List Nat}

theorem Device.Still.spares (h : v.Still a real n)
    (hsrc : src = (.ram, a) ∨ ∃ id, src = (.heap id, 0)) {x : Copy Space}
    (hx : x ∈ v.eng.pending) : x.Spares ⟨(.uva, real), src, n, stream⟩ := by
  intro p hp hd
  obtain ⟨hheap, hne⟩ := h x hx p hd
  rcases List.mem_append.mp hp with hp | hp
  · obtain ⟨i, hi, rfl⟩ := List.mem_map.mp hp
    exact (hne i (List.mem_range.mp hi)).2 rfl
  · obtain ⟨i, hi, rfl⟩ := List.mem_map.mp hp
    rcases hsrc with rfl | ⟨id, rfl⟩
    · exact (hne i (List.mem_range.mp hi)).1 rfl
    · exact hheap id rfl

theorem Device.Still.sub {v' : Device} (h : v.Still a real n)
    (hs : ∀ x ∈ v'.eng.pending, x ∈ v.eng.pending) : v'.Still a real n :=
  fun x hx => h x (hs x hx)

theorem copyAsync_arriving (h : v.Still a real n)
    (hsrc : src = (.ram, a) ∨ ∃ id, src = (.heap id, 0))
    (h0 : ((copyAsync fn (.uva, real) src n stream).run q v).1 = 0) :
    Arriving ⟨(.uva, real), src, n, stream⟩ (v.eng.mem.read src.1 src.2 n)
      ((copyAsync fn (.uva, real) src n stream).run q v).2.eng := by
  have hcode : (q.env.ret v.clock ⟨fn, [real, src.2, n, stream], []⟩).code = 0 := h0
  have hsp : src.1 ≠ .uva := by
    rcases hsrc with rfl | ⟨id, rfl⟩ <;> simp
  have harr := Arriving.submit (c := ⟨(.uva, real), src, n, stream⟩) (Copy.apart_of_ne hsp)
    fun x hx => h.spares hsrc hx
  show Arriving _ _ ((if _ then _ else _ : Engine Space).finishMany _)
  rw [if_pos hcode]
  exact harr.finishMany _

def copySync (real : Nat) (src : Space × Nat) (n stream : Nat) : QueryM Nat := do
  let res ← copyAsync .cuMemcpyHtoDAsync (.uva, real) src n stream
  if res = 0 then streamSync .cuStreamSynchronize stream else return res

theorem copySync_arriving (h : v.Still a real n)
    (hsrc : src = (.ram, a) ∨ ∃ id, src = (.heap id, 0))
    (h0 : ((copySync real src n stream).run q v).1 = 0) :
    Arriving ⟨(.uva, real), src, n, stream⟩ (v.eng.mem.read src.1 src.2 n)
      ((copySync real src n stream).run q v).2.eng := by
  rw [copySync, Prog.bind_run] at h0 ⊢
  by_cases hcopy : ((copyAsync .cuMemcpyHtoDAsync (.uva, real) src n stream).run q v).1 = 0
  · have harr := copyAsync_arriving h hsrc hcopy
    rw [if_pos hcopy, streamSync, sync_run]
    refine Arriving.finishMany ?_ _
    split
    · exact harr.drain _
    · exact harr
  · rw [if_neg hcopy] at h0
    exact absurd h0 hcopy

theorem gpa_run (hc : q.tab.ctxGet k = some c) (hd : c.resGet .mem dst ≠ 0)
    (hsrc : v.eng.mem.read .ram a n = data) :
    (HtodPath.gpa.run k dst a n stream).run q v =
      if bufferNeedsHostPtrPatch c data then
        let x := (alloc .malloc n).run q v
        if x.1 then (copySync (c.resGet .mem dst) (.heap x.2.clock, 0) n
            (resolveRuntimeStream c stream)).run q
          { x.2 with eng := { x.2.eng with
              mem := x.2.eng.mem.write (.heap x.2.clock) 0 (patchEmbeddedHostPtrs c data) } }
        else (2, x.2)
      else (copySync (c.resGet .mem dst) (.ram, a) n (resolveRuntimeStream c stream)).run q v := by
  simp only [HtodPath.run, coreMemcpy, withCtx_run hc, if_true, if_neg hd, Prog.bind_run, load_run,
    hsrc, Prog.ite_run, copySync, Prog.get_run, store_run, Prog.pure_run]

theorem gpa_arriving (hc : q.tab.ctxGet k = some c) (hd : c.resGet .mem dst ≠ 0)
    (hsrc : v.eng.mem.read .ram a n = data) (hs : v.Still a (c.resGet .mem dst) n)
    (h0 : ((HtodPath.gpa.run k dst a n stream).run q v).1 = 0) :
    ∃ src tag, Arriving ⟨(.uva, c.resGet .mem dst), src, n, tag⟩ (patchEmbeddedHostPtrs c data)
      ((HtodPath.gpa.run k dst a n stream).run q v).2.eng := by
  rw [gpa_run hc hd hsrc] at h0 ⊢
  split at h0
  next hb =>
    rw [if_pos hb]
    dsimp only at h0 ⊢
    by_cases hx : ((alloc .malloc n).run q v).1 = true
    · rw [if_pos hx] at h0 ⊢
      have hlen : (patchEmbeddedHostPtrs c data).length = n := by
        rw [length_patch, ← hsrc, ByteMem.length_read]
      have harr := copySync_arriving (by exact fun x hx => hs x (lib_pending hx)) (.inr ⟨_, rfl⟩) h0
      rw [← hlen, ByteMem.read_write, hlen] at harr
      exact ⟨_, _, harr⟩
    · rw [if_neg hx] at h0
      exact absurd h0 (by simp)
  next hb =>
    rw [if_neg hb, patch_unneeded c (by simpa using hb), ← hsrc]
    exact ⟨_, _, copySync_arriving hs (.inl rfl) h0⟩

theorem vq_arriving {path : HtodPath} (hpath : path ≠ .gpa) (hc : q.tab.ctxGet k = some c)
    (hd : c.resGet .mem dst ≠ 0) (hsrc : v.eng.mem.read .ram a n = data)
    (hs : v.Still a (c.resGet .mem dst) n) (h0 : ((path.run k dst a n stream).run q v).1 = 0) :
    ∃ tag, Arriving ⟨(.uva, c.resGet .mem dst), (.ram, a), n, tag⟩ data
      ((path.run k dst a n stream).run q v).2.eng := by
  have hrun : (path.run k dst a n stream).run q v = (copyAsync .cuMemcpyHtoDAsync
      (.uva, c.resGet .mem dst) (.ram, a) n (resolveStream c stream)).run q v := by
    cases path with
    | gpa => exact absurd rfl hpath
    | runtimeVq =>
      simp only [HtodPath.run, coreRuntimeMemcpyHtodVq, withCtx_run hc, if_neg hd,
        resolveRuntimeStream_eq]
    | cuVq => simp only [HtodPath.run, coreCuMemcpyHtodVq, withCtx_run hc, if_pos hd]
  rw [hrun] at h0 ⊢
  rw [← hsrc]
  exact ⟨_, copyAsync_arriving hs (.inl rfl) h0⟩

theorem pinned_run (hc : q.tab.ctxGet k = some c) (hd : c.resGet .mem dst = 0)
    (hsrc : v.eng.mem.read .ram a n = data)
    (h0 : ((HtodPath.cuVq.run k dst a n stream).run q v).1 = 0) :
    ∃ mem, ∃ ps : List (Copy Space), (∀ x ∈ ps, x ∈ v.eng.pending) ∧
      ((HtodPath.cuVq.run k dst a n stream).run q v).2.eng =
        ⟨ByteMem.write mem .uva (c.resGet .hostMem dst) (patchEmbeddedHostPtrs c data), ps⟩ := by
  have hhost := c.resGet_eq .hostMem dst
  rcases hf : c.resFind .hostMem dst with _ | r
  · simp [HtodPath.run, coreCuMemcpyHtodVq, withCtx_run hc, hd, hf] at h0
  rw [hf, Option.map_some, Option.getD_some] at hhost
  by_cases hp : r.pointer .hostMem dst = 0
  · simp [HtodPath.run, coreCuMemcpyHtodVq, withCtx_run hc, hd, hf, hp] at h0
  rw [HtodPath.run] at h0 ⊢
  rw [hhost, ← hsrc]
  rcases coreCuMemcpyHtodVq_pinned stream hc hd hf hp (.ram, a) n with
    ⟨h2, -⟩ | ⟨-, g, hg, heng⟩
  · exact absurd (h2.symm.trans h0) (by decide)
  · refine ⟨g.mem, g.pending, fun x hx => ?_, heng⟩
    rcases hg with rfl | rfl
    · exact hx
    · exact lib_pending hx

theorem pinned_lands {path : HtodPath} (hc : q.tab.ctxGet k = some c)
    (hd : c.resGet .mem dst = 0) (hsrc : v.eng.mem.read .ram a n = data)
    (hs : v.Still a (c.resGet .hostMem dst) n)
    (h0 : ((path.run k dst a n stream).run q v).1 = 0) (is : List Nat) :
    (((path.run k dst a n stream).run q v).2.eng.finishMany is).mem.read .uva
      (c.resGet .hostMem dst) n = patchEmbeddedHostPtrs c data := by
  have hlen : (patchEmbeddedHostPtrs c data).length = n := by
    rw [length_patch, ← hsrc, ByteMem.length_read]
  cases path with
  | gpa => simp [HtodPath.run, coreMemcpy, withCtx_run hc, hd] at h0
  | runtimeVq => simp [HtodPath.run, coreRuntimeMemcpyHtodVq, withCtx_run hc, hd] at h0
  | cuVq =>
    obtain ⟨mem, ps, hps, heng⟩ := pinned_run hc hd hsrc h0
    rw [heng]
    refine Eq.trans (ByteMem.read_congr fun i hi => ?_)
      (hlen ▸ mem.read_write .uva (c.resGet .hostMem dst) (patchEmbeddedHostPtrs c data))
    exact Engine.finishMany_other (fun x hx hm => ((hs x (hps x hx) _ hm).2 i hi).2 rfl) is

def Device.holding (data : List UInt8) : Device :=
  ⟨⟨fun _ i => data.getD i 0, []⟩, 0, [], [], false⟩

theorem holding_read (data : List UInt8) :
    (Device.holding data).eng.mem.read .ram 0 data.length = data := by
  apply List.ext_getElem (ByteMem.length_read _ _ _ _)
  intro i hi hi'
  rw [← List.getD_eq_getElem _ 0 hi, ByteMem.getD_read _ _ hi', Nat.zero_add,
    ← List.getD_eq_getElem _ 0 hi']
  rfl

theorem HtodTranslates.device (h : HtodTranslates c dst data) (hd : c.resGet .mem dst ≠ 0) :
    patchEmbeddedHostPtrs c data = data := by
  have hreal : resolveAnyMem c dst = c.resGet .mem dst := if_pos hd
  let q : QEnv := ⟨.quiet, ⟨[c], 0⟩⟩
  have hc : q.tab.ctxGet c.key = some c := by simp [q, Tables.ctxGet]
  have hrun : (HtodPath.runtimeVq.run c.key dst 0 data.length 0).run q (.holding data) =
      (copyAsync .cuMemcpyHtoDAsync (.uva, c.resGet .mem dst) (.ram, 0) data.length 0).run q
        (.holding data) := by
    simp only [HtodPath.run, coreRuntimeMemcpyHtodVq, withCtx_run hc, if_neg hd]
    rfl
  have hidle {real : Nat} : (Device.holding data).Still 0 real data.length :=
    fun _ hx => absurd hx List.not_mem_nil
  obtain ⟨tag, harr⟩ := vq_arriving (by decide : HtodPath.runtimeVq ≠ .gpa) hc hd
    (holding_read data) hidle (by rw [hrun]; rfl)
  -- the one pending copy finishes
  have hlast : (((HtodPath.runtimeVq.run c.key dst 0 data.length 0).run q
      (.holding data)).2.eng.finishMany [0]).pending = [] := by
    rw [hrun]
    rfl
  have hland := h .runtimeVq q (.holding data) c.key 0 0 hc (holding_read data) hidle
    (by rw [hrun]; rfl) [0] hlast
  rw [hreal] at hland
  exact hland.symm.trans ((harr.finishMany [0]).arrived hlast)

end

/-- The paths that succeed store the translation exactly if the destination is no device
memory, or the backend has every word that lies in a pinned buffer where the guest has it. -/
theorem htodTranslates_iff (c : Context) (dst : Nat) (data : List UInt8) :
    HtodTranslates c dst data ↔ c.resGet .mem dst = 0 ∨
      ∀ j, 8 * j + 8 ≤ data.length → ∀ r, c.resFind .hostMem (Bytes.val (wordAt data j)) = some r →
        r.pointer .hostMem (Bytes.val (wordAt data j)) = Bytes.val (wordAt data j) := by
  have hwords : patchEmbeddedHostPtrs c data = data ↔ ∀ j, 8 * j + 8 ≤ data.length →
      ∀ r, c.resFind .hostMem (Bytes.val (wordAt data j)) = some r →
        r.pointer .hostMem (Bytes.val (wordAt data j)) = Bytes.val (wordAt data j) := by
    simp only [patch_eq_iff, patchedWord, Option.map_eq_some_iff, forall_exists_index, and_imp,
      forall_apply_eq_imp_iff₂]
  rw [← hwords]
  by_cases hd : c.resGet .mem dst = 0
  · have hreal : resolveAnyMem c dst = c.resGet .hostMem dst := if_neg (not_not.mpr hd)
    refine ⟨fun _ => .inl hd, fun _ path q v k a stream hc hsrc hs h0 is _ => ?_⟩
    rw [hreal] at hs ⊢
    exact pinned_lands hc hd hsrc hs h0 is
  · have hreal : resolveAnyMem c dst = c.resGet .mem dst := if_pos hd
    refine ⟨fun h => .inr (h.device hd), fun h path q v k a stream hc hsrc hs h0 is hp => ?_⟩
    have hpatch := h.resolve_left hd
    rw [hreal] at hs ⊢
    by_cases hpath : path = .gpa
    · subst hpath
      obtain ⟨src, tag, harr⟩ := gpa_arriving hc hd hsrc hs h0
      exact (harr.finishMany is).arrived hp
    · obtain ⟨tag, harr⟩ := vq_arriving hpath hc hd hsrc hs h0
      exact ((harr.finishMany is).arrived hp).trans hpatch.symm

def pinnedAlias : Context where
  key := ⟨1, 1⟩
  resources
    | .mem => [⟨0x8000, 0x8000, 64⟩]
    | .hostMem => [⟨0x7000, 0x9000, 8⟩]
    | _ => []

/-- The address of the pinned buffer arrives in device memory as the guest's. -/
theorem htod_untranslated : ¬∀ c dst data, HtodTranslates c dst data := by
  intro h
  have hpatch := (h pinnedAlias 0x8000 (Bytes.le 8 0x7000)).device (by decide)
  exact absurd hpatch (by decide)

end HmCuda
