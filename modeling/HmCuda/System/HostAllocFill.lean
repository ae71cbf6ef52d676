import HmCuda.System.HostAllocs
import HmCuda.System.RangeCopy

/-! The bytes of a pinned allocation: the chunks of all batches together fill the buffer
that CUDA gave for the first of them with the user's bytes. -/

namespace HmCuda
open Layout AsyncCopy

/-- The device after a chunk was stored at the offset `o` of the entry `r`. -/
def Device.filled (v : Device) (r : Resource) (o : Nat) (hp : Space × Nat) (len : Nat) : Device :=
  { v with
    eng := { v.eng with
      mem := v.eng.mem.write .uva (r.realPtr + o) (v.eng.mem.read hp.1 hp.2 len) }
    copies := v.copies ++ [⟨r, o, len⟩] }

/-- A copy that writes neither the user's buffer nor the one at `p`. -/
def Spares (pt : Nat → Nat) (va n p : Nat) (x : Copy Space) : Prop :=
  ∀ i < n, phys pt (va + i) ∉ x.dsts ∧ (Space.uva, p + i) ∉ x.dsts

/-- `v'` is `v` after copies that were pending, and writes to requests and responses. -/
structure Device.Drifts (v v' : Device) : Prop where
  pending : ∀ x ∈ v'.eng.pending, x ∈ v.eng.pending
  mem : ∀ sp a, Shared sp → (∀ x ∈ v.eng.pending, (sp, a) ∉ x.dsts) →
    v'.eng.mem sp a = v.eng.mem sp a
  calls : v'.calls = v.calls
  copies : v'.copies = v.copies

theorem drifts_setMem (m : Machine) {sp : Space} (hsp : ¬Shared sp) (f : Nat → UInt8) :
    m.dev.Drifts (m.setMem sp f).dev := by
  refine ⟨fun _ hx => hx, fun t a ht _ => ?_, rfl, rfl⟩
  have hne : t ≠ sp := fun h => hsp (h ▸ ht)
  exact congrFun (Function.update_of_ne hne _ _) a

theorem DrvSt.LoopStart.drifts {e : DrvEnv} {c : CopyCmd} {a : MemcpyArgs} {stream : Nat}
    {s t : DrvSt} (h : s.LoopStart e c a stream t) : s.m.dev.Drifts t.m.dev := by
  rw [h.m]
  exact drifts_setMem s.m (by simp [Shared]) _

theorem drifts_deliver (m : Machine) (env : Env) {ws : List RespWrite}
    (hw : ∀ w ∈ ws, ¬Shared w.sp) : m.dev.Drifts (m.deliver env ws).dev := by
  refine ⟨fun x hx => Engine.finishMany_pending_subset _ _ hx, fun t a ht hfree => ?_, rfl, rfl⟩
  have hsp : applyWrites (m.dev.eng.finishMany (env.dma m.dev.clock)).mem ws t =
      (m.dev.eng.finishMany (env.dma m.dev.clock)).mem t := by
    apply applyWrites_space
    rintro w hmem rfl
    exact hw w hmem ht
  show applyWrites (m.dev.eng.finishMany (env.dma m.dev.clock)).mem ws t a = _
  rw [hsp]
  exact Engine.finishMany_other hfree _

/-- The first `o` bytes of the entry's buffer hold the user's, by one allocation and by copies
that stay in the buffer; the user's buffer is as it was in `m₀`. -/
structure Filling (m₀ : ByteMem Space) (pt : Nat → Nat) (flags : Nat) (calls : List LibCall)
    (copies : List HostCopy) (r : Resource) (o : Nat) (v : Device) : Prop where
  apart : ∀ x ∈ v.eng.pending, Spares pt r.handle r.size r.realPtr x
  ram : ∀ i < r.size, v.eng.mem .ram (phys pt (r.handle + i)).2 = m₀ .ram (phys pt (r.handle + i)).2
  moved : ∀ i < o, v.eng.mem .uva (r.realPtr + i) = m₀ .ram (phys pt (r.handle + i)).2
  inside : ∃ new, v.copies = copies ++ new ∧ ∀ x ∈ new, x.entry = r ∧ x.inside
  once : ∃ new, v.calls = calls ++ new ∧
    new.filter (·.fn = .cuMemHostAlloc) = [⟨.cuMemHostAlloc, [r.size, flags ||| 2], []⟩]

structure Unfilled (e : Env) (m₀ : ByteMem Space) (pt : Nat → Nat) (flags : Nat)
    (calls : List LibCall) (copies : List HostCopy) (va n : Nat) (v : Device) : Prop where
  apart : ∀ x ∈ v.eng.pending, ∀ i,
    Spares pt va n ((e.ret i ⟨.cuMemHostAlloc, [n, flags ||| 2], []⟩).out 0) x
  ram : ∀ i < n, v.eng.mem .ram (phys pt (va + i)).2 = m₀ .ram (phys pt (va + i)).2
  copies : v.copies = copies
  calls : v.calls = calls

section Chunks
variable {m₀ : ByteMem Space} {pt : Nat → Nat} {flags : Nat} {calls : List LibCall}
  {copies : List HostCopy} {r : Resource} {o len : Nat} {v v' : Device} {hp : Space × Nat}

theorem Filling.chunk (h : Filling m₀ pt flags calls copies r o v) (hin : o + len ≤ r.size)
    (hsrc : ∀ j < len, (hp.1, hp.2 + j) = phys pt (r.handle + (o + j))) :
    Filling m₀ pt flags calls copies r (o + len) (v.filled r o hp len) := by
  obtain ⟨new, hnew, hinside⟩ := h.inside
  refine ⟨h.apart, fun i hi => ?_, fun i hi => ?_, ⟨new ++ [⟨r, o, len⟩], ?_, fun x hx => ?_⟩, h.once⟩
  · have hram : (v.filled r o hp len).eng.mem .ram = v.eng.mem .ram :=
      v.eng.mem.write_space (r.realPtr + o) (v.eng.mem.read hp.1 hp.2 len) (show Space.ram ≠ .uva by simp)
    rw [hram]
    exact h.ram i hi
  · show v.eng.mem.write .uva (r.realPtr + o) (v.eng.mem.read hp.1 hp.2 len) .uva _ = _
    rcases Nat.lt_or_ge i o with hlt | hge
    · rw [ByteMem.write_miss _ (by omega)]
      exact h.moved i hlt
    · obtain ⟨j, rfl⟩ := Nat.exists_eq_add_of_le hge
      have hj : j < len := by omega
      have hat := hsrc j hj
      have hsp : hp.1 = .ram := congrArg Prod.fst hat
      have hadr : hp.2 + j = (phys pt (r.handle + (o + j))).2 := congrArg Prod.snd hat
      rw [← Nat.add_assoc, ByteMem.write_hit _ _ (by simpa using hj), ByteMem.getD_read _ _ hj, hsp,
        hadr]
      exact h.ram _ (by omega)
  · show v.copies ++ [⟨r, o, len⟩] = _
    rw [hnew, List.append_assoc]
  · rcases List.mem_append.mp hx with hx | hx
    · exact hinside x hx
    · rw [List.mem_singleton.mp hx]
      exact ⟨rfl, hin⟩

theorem Filling.drift (h : Filling m₀ pt flags calls copies r o v) (ho : o ≤ r.size)
    (hd : v.Drifts v') : Filling m₀ pt flags calls copies r o v' where
  apart x hx := h.apart x (hd.pending x hx)
  ram i hi := by
    rw [← h.ram i hi]
    exact hd.mem _ _ (.inl rfl) fun x hx => (h.apart x hx i hi).1
  moved i hi := by
    rw [← h.moved i hi]
    exact hd.mem _ _ (.inr rfl) fun x hx => (h.apart x hx i (by omega)).2
  inside := hd.copies ▸ h.inside
  once := hd.calls ▸ h.once

variable {k : Key} {e : Env} {va n p : Nat} {l : List Resource} {s : Machine}

theorem Unfilled.drift (h : Unfilled e m₀ pt flags calls copies va n v) (hd : v.Drifts v') :
    Unfilled e m₀ pt flags calls copies va n v' where
  apart x hx := h.apart x (hd.pending x hx)
  ram i hi := by
    rw [← h.ram i hi]
    exact hd.mem _ _ (.inl rfl) fun x hx => (h.apart x hx 0 i hi).1
  copies := hd.copies.trans h.copies
  calls := hd.calls.trans h.calls

theorem lib_ram {q : QEnv} (fn : LibFn) (args : List Nat) (data : List (List UInt8)) :
    (∀ x ∈ ((lib fn args data).run q v).2.eng.pending, x ∈ v.eng.pending) ∧
      ∀ a, (∀ x ∈ v.eng.pending, (Space.ram, a) ∉ x.dsts) →
        ((lib fn args data).run q v).2.eng.mem .ram a = v.eng.mem .ram a := by
  simp only [lib_run, Device.step_eng]
  refine ⟨fun x hx => ?_, fun a ha => ?_⟩
  · have hx := Engine.finishMany_pending_subset _ _ hx
    exact hx
  rw [Engine.finishMany_other (by exact ha)]
  exact congrFun (Function.update_of_ne (show Space.ram ≠ .uva by simp)
    (q.env.effect v.clock ⟨fn, args, data⟩ (v.eng.mem .uva)) v.eng.mem) a

theorem Unfilled.allocated (h : Unfilled e m₀ pt flags calls copies va n v) (t t' : Tables)
    (hpt : (e.ret v.clock ⟨.cuMemHostAlloc, [n, flags ||| 2], []⟩).out 0 = p) :
    Filling m₀ pt flags calls copies ⟨va, p, n⟩ 0
      ((lib .cuMemHostGetDevicePointer [p, 0] []).run ⟨e, t'⟩
        ((lib .cuMemHostAlloc [n, flags ||| 2] []).run ⟨e, t⟩ v).2).2 := by
  obtain ⟨hsub, hram⟩ := lib_ram (v := v) (q := ⟨e, t⟩) .cuMemHostAlloc [n, flags ||| 2] []
  have hcalls : ((lib .cuMemHostAlloc [n, flags ||| 2] []).run ⟨e, t⟩ v).2.calls =
      v.calls ++ [⟨.cuMemHostAlloc, [n, flags ||| 2], []⟩] := rfl
  have hcopies : ((lib .cuMemHostAlloc [n, flags ||| 2] []).run ⟨e, t⟩ v).2.copies = v.copies := rfl
  generalize ((lib .cuMemHostAlloc [n, flags ||| 2] []).run ⟨e, t⟩ v).2 = w at *
  obtain ⟨hsub', hram'⟩ := lib_ram (v := w) (q := ⟨e, t'⟩) .cuMemHostGetDevicePointer [p, 0] []
  have hspares (x : Copy Space) (hx : x ∈ v.eng.pending) : Spares pt va n p x :=
    hpt ▸ h.apart x hx v.clock
  refine ⟨fun x hx => hspares x (hsub x (hsub' x hx)), fun i hi => ?_, fun i hi => absurd hi (by simp),
    ⟨[], ?_, by simp⟩, ⟨[⟨.cuMemHostAlloc, [n, flags ||| 2], []⟩,
      ⟨.cuMemHostGetDevicePointer, [p, 0], []⟩], ?_, by simp⟩⟩
  · have hfree (x : Copy Space) (hx : x ∈ v.eng.pending) :
        (Space.ram, (phys pt (va + i)).2) ∉ x.dsts := (hspares x hx i hi).1
    rw [← h.ram i hi, ← hram _ hfree]
    exact hram' _ fun x hx => hfree x (hsub x hx)
  · show w.copies = _
    rw [hcopies, h.copies, List.append_nil]
  · show w.calls ++ [⟨.cuMemHostGetDevicePointer, [p, 0], []⟩] = _
    rw [hcalls, h.calls, List.append_assoc]
    rfl

theorem copyToHostAlloc_eq {q : QEnv} (h : PinnedList k q.tab (⟨va, p, n⟩ :: l))
    (hwrap : va + n < 2 ^ 64) (hp0 : p ≠ 0) (hpw : p + n < 2 ^ 64) (ho : o < n) (v : Device) :
    (copyToHostAlloc k va o hp len).run q v = (0, v.filled ⟨va, p, n⟩ o hp len) := by
  obtain ⟨c, hc, hl⟩ := h
  have hcov : (⟨va, p, n⟩ : Resource).covers .hostMem va = true := by
    rw [covers_eq rfl hwrap]
    exact decide_eq_true ⟨Nat.le_refl _, by show va < va + n; omega⟩
  have hf : c.resFind .hostMem va = some ⟨va, p, n⟩ := by
    rw [Context.resFind, hl, List.find?_cons_of_pos hcov]
  have hpt : (⟨va, p, n⟩ : Resource).pointer .hostMem va = p := by
    show add64 p (va - va) = p
    rw [Nat.sub_self, add64_of_lt (by omega), Nat.add_zero]
  have h1 : add64 p o = p + o := add64_of_lt (by omega)
  have h2 : add64 (va - va) o = o := by rw [Nat.sub_self, add64_of_lt (by omega), Nat.zero_add]
  unfold copyToHostAlloc
  rw [withCtx_run hc]
  simp only [hf, hpt, hp0, if_false, h1, h2, Prog.bind_run, load_run, store_run, logCopy_run]
  rfl

theorem query_copyToHostAlloc {t : Tables} (h : PinnedList k t (⟨va, p, n⟩ :: l))
    (hwrap : va + n < 2 ^ 64) (hp0 : p ≠ 0) (hpw : p + n < 2 ^ 64) (ho : o < n) (v : Device) :
    (query (copyToHostAlloc k va o hp len)).run e ⟨t, v⟩ =
      (0, ⟨t, v.filled ⟨va, p, n⟩ o hp len⟩) := by
  have hcopy : (copyToHostAlloc k va o hp len).run ⟨e, t⟩ v = (0, v.filled ⟨va, p, n⟩ o hp len) :=
    copyToHostAlloc_eq (q := ⟨e, t⟩) h hwrap hp0 hpw ho v
  unfold query
  simp only [hcopy]

theorem hostAllocVq_next (h : PinnedList k s.tab (⟨va, p, n⟩ :: l)) (hwrap : va + n < 2 ^ 64)
    (hp0 : p ≠ 0) (hpw : p + n < 2 ^ 64) (ho : o < n) (ho0 : o ≠ 0) :
    (coreCuMemHostAllocVq k n flags va o hp len).run e s =
      (0, ⟨s.tab, s.dev.filled ⟨va, p, n⟩ o hp len⟩) := by
  obtain ⟨c, hc, -⟩ := id h
  simp only [coreCuMemHostAllocVq, withCtxM, hc, if_neg ho0]
  exact query_copyToHostAlloc h hwrap hp0 hpw ho s.dev

variable (hp len) in
theorem hostAllocVq_start (hret : ∀ i c, (e.ret i c).code = 0) (hplaces : Places e n flags)
    (h : PinnedList k s.tab l) (hwrap : va + n < 2 ^ 64) (hpos : 0 < n)
    (hu : Unfilled e m₀ pt flags calls copies va n s.dev) :
    ∃ p v t, p ≠ 0 ∧ p + n < 2 ^ 64 ∧ Filling m₀ pt flags calls copies ⟨va, p, n⟩ 0 v ∧
      PinnedList k t (⟨va, p, n⟩ :: l) ∧ (coreCuMemHostAllocVq k n flags va 0 hp len).run e s =
        (0, ⟨t, v.filled ⟨va, p, n⟩ 0 hp len⟩) := by
  obtain ⟨hp0, hpw⟩ := hplaces s.dev.clock
  obtain ⟨c, hc, -⟩ := id h
  generalize hptr : (e.ret s.dev.clock ⟨.cuMemHostAlloc, [n, flags ||| 2], []⟩).out 0 = p
    at hp0 hpw
  have hfill := hu.allocated s.tab (s.tab.resAddWithHandle k .hostMem p n va) hptr
  have h1 := h.add .hostMem p n va
  rw [if_pos rfl] at h1
  have h2 (g : Nat) := h1.add .hostDevPtr g n va
  simp only [if_neg (show ¬ResType.hostDevPtr = .hostMem by decide)] at h2
  have hcall (fn : LibFn) (args : List Nat) (w : Machine) : (query (lib fn args [])).run e w =
      (e.ret w.dev.clock ⟨fn, args, []⟩, ⟨w.tab, ((lib fn args []).run ⟨e, w.tab⟩ w.dev).2⟩) := rfl
  have htab (f : Tables → Tables) (w : Machine) : (table f).run e w = ((), ⟨f w.tab, w.dev⟩) := rfl
  simp only [coreCuMemHostAllocVq, withCtxM, hc, Prog.ite_run, Prog.bind_run, hcall, htab, hret,
    ne_eq, not_true_eq_false, if_false, if_true, hptr]
  exact ⟨p, _, _, hp0, hpw, hfill, h2 _, query_copyToHostAlloc (h2 _) hwrap hp0 hpw hpos _⟩

/-- What holds when the first `o` bytes were copied. -/
structure FillInv (k : Key) (e : Env) (m₀ : ByteMem Space) (pt : Nat → Nat) (flags : Nat)
    (calls : List LibCall) (copies : List HostCopy) (l : List Resource) (va n o : Nat)
    (s : Machine) : Prop where
  start : o = 0 → PinnedList k s.tab l ∧ Unfilled e m₀ pt flags calls copies va n s.dev
  filled : o ≠ 0 → ∃ p, p ≠ 0 ∧ p + n < 2 ^ 64 ∧ PinnedList k s.tab (⟨va, p, n⟩ :: l) ∧
    Filling m₀ pt flags calls copies ⟨va, p, n⟩ o s.dev

theorem FillInv.drift {s' : Machine} (h : FillInv k e m₀ pt flags calls copies l va n o s)
    (ho : o ≤ n) (ht : s'.tab = s.tab) (hd : s.dev.Drifts s'.dev) :
    FillInv k e m₀ pt flags calls copies l va n o s' := by
  refine ⟨fun h0 => ?_, fun h0 => ?_⟩
  · obtain ⟨hl, hu⟩ := h.start h0
    exact ⟨ht ▸ hl, hu.drift hd⟩
  · obtain ⟨p, hp0, hpw, hl, hf⟩ := h.filled h0
    exact ⟨p, hp0, hpw, ht ▸ hl, hf.drift ho hd⟩

variable (hp) in
theorem FillInv.chunk (h : FillInv k e m₀ pt flags calls copies l va n o s)
    (hret : ∀ i c, (e.ret i c).code = 0) (hplaces : Places e n flags) (hwrap : va + n < 2 ^ 64)
    (hin : o + len ≤ n) (hlen : 0 < len)
    (hsrc : ∀ j < len, (hp.1, hp.2 + j) = phys pt (va + (o + j))) :
    ((coreCuMemHostAllocVq k n flags va o hp len).run e s).1 = 0 ∧
      FillInv k e m₀ pt flags calls copies l va n (o + len)
        ((coreCuMemHostAllocVq k n flags va o hp len).run e s).2 := by
  rcases Nat.eq_zero_or_pos o with rfl | ho
  · obtain ⟨hl, hu⟩ := h.start rfl
    obtain ⟨p, v, t, hp0, hpw, hf, hl', hrun⟩ := hostAllocVq_start len hp hret hplaces
      hl hwrap (by omega) hu
    rw [hrun]
    exact ⟨rfl, fun h0 => by omega, fun _ => ⟨p, hp0, hpw, hl', hf.chunk hin hsrc⟩⟩
  · obtain ⟨p, hp0, hpw, hl, hf⟩ := h.filled ho.ne'
    rw [hostAllocVq_next hl hwrap hp0 hpw (by omega) ho.ne']
    exact ⟨rfl, fun h0 => by omega, fun _ => ⟨p, hp0, hpw, hl, hf.chunk hin hsrc⟩⟩

theorem FillInv.chunks (hret : ∀ i c, (e.ret i c).code = 0) (hplaces : Places e n flags)
    (hwrap : va + n < 2 ^ 64) {off rel : Nat} {data : List Iov} (hpos : ∀ v ∈ data, 0 < v.len)
    (hin : off + rel + totalLen data ≤ n)
    (haddr : data.flatMap Iov.addrs =
      (List.range (totalLen data)).map fun i => phys pt (va + (off + rel + i)))
    (h : FillInv k e m₀ pt flags calls copies l va n (off + rel) s) :
    ((Prog.firstError (fun ch => coreCuMemHostAllocVq k n flags va (add64 off ch.off)
      (ch.iov.sp, ch.iov.base) ch.len) (tile rel data)).run e s).1 = 0 ∧
      FillInv k e m₀ pt flags calls copies l va n (off + rel + totalLen data)
        ((Prog.firstError (fun ch => coreCuMemHostAllocVq k n flags va (add64 off ch.off)
          (ch.iov.sp, ch.iov.base) ch.len) (tile rel data)).run e s).2 := by
  induction data generalizing rel s with
  | nil => exact ⟨rfl, h⟩
  | cons w data ih =>
    rw [totalLen_cons] at hin haddr ⊢
    have hadd : add64 off rel = off + rel := add64_of_lt (by omega)
    -- the first descriptor holds the first bytes, the others the rest
    rw [List.flatMap_cons, List.range_add, List.map_append, List.map_map] at haddr
    obtain ⟨hfst, hrest⟩ := List.append_inj haddr (by simp [Iov.addrs])
    have hsrc : ∀ j < w.len, (w.sp, w.base + j) = phys pt (va + (off + rel + j)) := by
      intro j hj
      have hj' := congrArg (fun z => z[j]?) hfst
      simpa [Iov.addrs, hj] using hj'
    obtain ⟨h0, h1⟩ := h.chunk (w.sp, w.base) hret hplaces hwrap (by omega)
      (hpos w List.mem_cons_self) hsrc
    rw [tile, Prog.firstError_cons]
    dsimp only
    rw [hadd, if_neg (not_not.mpr h0), ← Nat.add_assoc]
    rw [Nat.add_assoc off rel] at h1 ⊢
    refine ih (fun x hx => hpos x (List.mem_cons_of_mem _ hx)) (by omega) ?_ h1
    rw [hrest]
    refine List.map_congr_left fun i _ => ?_
    show phys pt (va + (off + rel + (w.len + i))) = phys pt (va + (off + (rel + w.len) + i))
    simp only [Nat.add_assoc]

end Chunks

/-! The batches -/

/-- Every pin, allocation, queue and library call of an allocation succeeds; `pt` gives the
frames, and only user pages can be pinned. -/
structure AllocSucceeds (e : DrvEnv) (pt : Nat → Nat) (va n flags : Nat) : Prop where
  alloc : ∀ b, e.kmalloc b = true
  pin : ∀ off < n, e.pin ((batchAt (allocArgs va n) off).userAddr / pageSize * pageSize)
    (batchAt (allocArgs va n) off).pages false = .ok (framesAt pt (allocArgs va n) off)
  user : ∀ u pages w fs, e.pin u pages w = .ok fs → 0 < pages → u + pages * pageSize ≤ taskSize
  queue : ∀ off, e.addSgs off = none
  out : e.copyOut = true
  ret : ∀ i c, (e.sys.ret i c).code = 0
  places : Places e.sys n flags

section Batches
variable {e : DrvEnv} {pt : Nat → Nat} {va n flags off : Nat} {m₀ : ByteMem Space}
  {calls : List LibCall} {copies : List HostCopy} {l : List Resource} {s s' : DrvSt}

theorem AllocSucceeds.inUser (h : AllocSucceeds e pt va n flags) (hpos : 0 < n)
    (hwrap : va + n < 2 ^ 64) : va + n ≤ taskSize := by
  -- the batch at the last byte pins the page of that byte
  have hadd : add64 va (n - 1) = va + (n - 1) := add64_of_lt (by omega)
  have hm := Nat.mod_lt (va + (n - 1)) (show 0 < pageSize by decide)
  have hdm := Nat.div_add_mod (va + (n - 1)) pageSize
  have huser : (batchAt (allocArgs va n) (n - 1)).userAddr = va + (n - 1) := hadd
  have hpages : (batchAt (allocArgs va n) (n - 1)).pages = 1 := by
    show min pagesPerBatch (pagesFor (add64 (add64 va (n - 1) % pageSize) (n - (n - 1)))) = 1
    simp only [pageSize] at hm
    have hone : add64 ((va + (n - 1)) % pageSize) (n - (n - 1)) = (va + (n - 1)) % 4096 + 1 := by
      rw [Nat.sub_sub_self hpos]
      exact add64_of_lt (by omega)
    rw [hadd, hone]
    simp only [pagesFor, pageSize, pagesPerBatch, Nat.add_one_sub_one]
    rw [add64_of_lt (by omega)]
    omega
  have hin := h.user _ _ _ _ (h.pin (n - 1) (by omega)) (by rw [hpages]; exact Nat.one_pos)
  rw [huser, hpages, Nat.one_mul] at hin
  simp only [pageSize] at hin hm hdm
  omega

theorem AllocSucceeds.ready (h : AllocSucceeds e pt va n flags) (hpos : 0 < n)
    (hwrap : va + n < 2 ^ 64) (hlt : off < n) :
    Ready e (allocArgs va n) off (framesAt pt (allocArgs va n) off) :=
  ready_framesAt (h.pin off hlt) (h.queue off) (h.inUser hpos hwrap) hlt

theorem FillInv.batch (hs : AllocSucceeds e pt va n flags) (hpos : 0 < n)
    (hwrap : va + n < 2 ^ 64) (hr : AllocReq n flags va s.reqBuf)
    (h : FillInv e.key e.sys m₀ pt flags calls copies l va n off s.m) (hlt : off < n)
    {pfns : List Nat} {sv : Served}
    (hb : Batched e .cuMemHostAlloc (allocArgs va n) off s pfns sv s') :
    s'.seen e.caller = 0 ∧ FillInv e.key e.sys m₀ pt flags calls copies l va n
      (off + (batchAt (allocArgs va n) off).count) s'.m := by
  have hready := hs.ready hpos hwrap hlt
  obtain rfl := hb.ready.unique hready
  have hcount := batchAt_count_rem (allocArgs va n) off
  have htot : (allocArgs va n).totalCount = n := rfl
  have hplan := batchPlan_alloc hr (by omega) hready
  have haddr := hready.user_addrs (hs.inUser hpos hwrap) hlt
  have hshown : FillInv e.key e.sys m₀ pt flags calls copies l va n (off + 0)
      (s.shown e .cuMemHostAlloc (allocArgs va n) off) :=
    h.drift (by omega) rfl (drifts_setMem s.m (by simp [Shared]) _)
  obtain ⟨h0, h1⟩ := hshown.chunks hs.ret hs.places hwrap
    (batchData_pos (allocArgs va n) off _) (by rw [hready.totalLen]; omega) (by
      rw [hready.totalLen, haddr]
      refine List.map_congr_left fun i _ => ?_
      show phys pt (va + off + i) = phys pt (va + (off + 0 + i))
      rw [Nat.add_zero, Nat.add_assoc])
  rw [← hplan] at h0 h1
  rw [hready.totalLen, Nat.add_zero] at h1
  have hws : ∀ w ∈ sv.writes, ¬Shared w.sp := by
    intro w hw
    rw [hb.alloc_writes] at hw
    rw [List.mem_singleton.mp hw]
    simp [Shared]
  refine ⟨by rw [hb.alloc_seen, hb.err, h0, Nat.zero_mod], ?_⟩
  rw [hb.post]
  exact h1.drift (by omega) rfl (drifts_deliver _ e.sys hws)

theorem copyLoop_fills (hs : AllocSucceeds e pt va n flags) (hpos : 0 < n)
    (hwrap : va + n < 2 ^ 64) (hr : AllocReq n flags va s.reqBuf)
    (hl : PinnedList e.key s.m.tab l)
    (hu : Unfilled e.sys m₀ pt flags calls copies va n s.m.dev) :
    ((copyLoop .cuMemHostAlloc (allocArgs va n)).run e s).1 = .ret 0 ∧
      ((copyLoop .cuMemHostAlloc (allocArgs va n)).run e s).2.seen e.caller = 0 ∧
      FillInv e.key e.sys m₀ pt flags calls copies l va n n
        ((copyLoop .cuMemHostAlloc (allocArgs va n)).run e s).2.m := by
  refine copyLoop_rule (I := fun off t => AllocReq n flags va t.reqBuf ∧
      (off ≠ 0 → t.seen e.caller = 0) ∧ FillInv e.key e.sys m₀ pt flags calls copies l va n off t.m)
    (Q := fun h t => h = .ret 0 ∧ t.seen e.caller = 0 ∧
      FillInv e.key e.sys m₀ pt flags calls copies l va n n t.m) (fun _ t hI => hI.1.cmd)
    (fun off t t' h hlt hI _ hn _ => ?_) (fun off t t' pfns sv hlt hI hb _ => ?_)
    (fun off t t' pfns sv hlt hI hb hne => ?_)
    (fun t hI => ⟨rfl, hI.2.1 hpos.ne', hI.2.2⟩)
    ⟨hr, fun h0 => absurd rfl h0, fun _ => ⟨hl, hu⟩, fun h0 => absurd rfl h0⟩
  · exact absurd (hs.ready hpos hwrap hlt) (hn _)
  · obtain ⟨h1, h2⟩ := hI.2.2.batch hs hpos hwrap hI.1 hlt hb
    exact ⟨hb.alloc_reqBuf hI.1, fun _ => h1, h2⟩
  · exact absurd (hI.2.2.batch hs hpos hwrap hI.1 hlt hb).1 hne

end Batches

/-! The ioctl -/

/-- A pinned allocation that went well: one entry, one call, and the user's bytes. -/
structure HostFilled (pt : Nat → Nat) (flags va n : Nat) (l : List Resource) (k : Key)
    (s s' : DrvSt) (p : Nat) : Prop where
  list : PinnedList k s'.m.tab (⟨va, p, n⟩ :: l)
  once : ∃ new, s'.m.dev.calls = s.m.dev.calls ++ new ∧
    new.filter (·.fn = .cuMemHostAlloc) = [⟨.cuMemHostAlloc, [n, flags ||| 2], []⟩]
  inside : ∃ new, s'.m.dev.copies = s.m.dev.copies ++ new ∧
    ∀ x ∈ new, x.entry = ⟨va, p, n⟩ ∧ x.inside
  bytes : ∀ i < n, s'.m.dev.eng.mem .uva (p + i) = s.m.dev.eng.mem .ram (phys pt (va + i)).2
  kept : ∀ i < n, s'.m.dev.eng.mem .ram (phys pt (va + i)).2 =
    s.m.dev.eng.mem .ram (phys pt (va + i)).2

/-- A pinned allocation whose pins, queue and CUDA calls succeed makes one CUDA allocation,
one entry, copies inside it, and the buffer holds the user's bytes; no copy in flight writes
the two buffers. -/
theorem hostAlloc_fills (e : DrvEnv) (pt : Nat → Nat) (hdr p : Nat → UInt8) (s : DrvSt)
    (va n flags : Nat) (l : List Resource) (hb : Built e .cuMemHostAlloc hdr p)
    (hsize : cuMemHostAllocReq.bytesize.get p = n) (hflags : cuMemHostAllocReq.flags.get p = flags)
    (hva : cuMemHostAllocReq.guestVa.get p = va) (hpos : 0 < n) (hwrap : va + n < 2 ^ 64)
    (hs : AllocSucceeds e pt va n flags) (hl : PinnedList e.key s.m.tab l)
    (hfree : ∀ x ∈ s.m.dev.eng.pending, ∀ i, Spares pt va n
      ((e.sys.ret i ⟨.cuMemHostAlloc, [n, flags ||| 2], []⟩).out 0) x) :
    (hmcudaIoctl.run e s).1.status = some 0 ∧
      ∃ real ≠ 0, HostFilled pt flags va n l e.key s (hmcudaIoctl.run e s).2 real := by
  obtain ⟨evs, s', -, hsame, hrun⟩ := hmcudaIoctl_loop hb ⟨hs.alloc _, hs.alloc _⟩ s
  obtain ⟨hreq, hargs⟩ := alloc_reqImage hb.code hsize hflags hva
  rw [hargs] at hsame hrun
  have hu : Unfilled e.sys s.m.dev.eng.mem pt flags s.m.dev.calls s.m.dev.copies va n s.m.dev :=
    ⟨hfree, fun _ _ => rfl, rfl, rfl⟩
  obtain ⟨h1, h2, h3⟩ := copyLoop_fills (s := s.atLoop e .cuMemHostAlloc hdr p evs) hs hpos hwrap hreq
    hl (hu.drift (drifts_setMem s.m (by simp [Shared]) _))
  generalize (copyLoop .cuMemHostAlloc (allocArgs va n)).run e
    (s.atLoop e .cuMemHostAlloc hdr p evs) = r at *
  obtain ⟨x, rfl, -⟩ := hsame
  obtain ⟨real, hp0, -, hlist, hf⟩ := h3.filled hpos.ne'
  have hm := finishIoctl_m (sizeof respHeader) (.ret 0) e { r.2 with evs := r.2.evs ++ x }
  rw [hrun, h1]
  refine ⟨?_, real, hp0, ?_⟩
  · rw [finishIoctl_answer, if_pos hs.out]
    exact congrArg some h2
  · constructor <;> rw [hm]
    exacts [hlist, hf.once, hf.inside, hf.moved, hf.ram]

def twoPages (i : Nat) : Nat := if i = 8 then 3 else i

/-- An allocation of 8 bytes at 0x7ffc, in a session that has nothing yet: two pages whose
frames are apart. -/
def twoPagesFill : DrvEnv :=
  { DrvEnv.quiet (aliasEnv 0x8000) fun _ a =>
      (Bytes.le 4 DrvCmd.cuMemHostAlloc.code ++ Bytes.le 4 0 ++ Bytes.le 8 8 ++ Bytes.le 8 0 ++
        Bytes.le 8 0x7ffc ++ Bytes.le 8 0).getD a 0 with
    pin := fun u pages _ => if u + pages * pageSize ≤ taskSize
      then .ok ((List.range pages).map fun i => twoPages (u / pageSize + i)) else .error 13 }

def twoPagesSt : DrvSt :=
  { DrvSt.start aliasMem with
    m := ((processElem ⟨1, 1⟩ ⟨[⟨.req 0, 0, 8⟩], [⟨.resp 0, 0, 8⟩]⟩).run (aliasEnv 0x8000)
      (.start aliasMem)).2 }

theorem twoPagesFill_succeeds : AllocSucceeds twoPagesFill twoPages 0x7ffc 8 0 where
  alloc _ := rfl
  pin := by decide
  user u pages w fs h hpos := by
    by_contra hgt
    simp [twoPagesFill, hgt] at h
  queue _ := rfl
  out := rfl
  ret := aliasEnv_ret 0x8000
  places _ := ⟨(by decide : (0x9000 : Nat) ≠ 0), (by decide : (0x9000 : Nat) + 8 < 2 ^ 64)⟩

theorem twoPagesSt_session : PinnedList ⟨1, 1⟩ twoPagesSt.m.tab [] := by
  have h : (twoPagesSt.m.tab.ctxGet ⟨1, 1⟩).map (·.resources .hostMem) = some [] := by
    decide +kernel
  exact Option.map_eq_some_iff.mp h

theorem hostAlloc_fills_twoPages :
    (hmcudaIoctl.run twoPagesFill twoPagesSt).1.status = some 0 ∧
      ∃ real ≠ 0, HostFilled twoPages 0 0x7ffc 8 [] ⟨1, 1⟩ twoPagesSt
        (hmcudaIoctl.run twoPagesFill twoPagesSt).2 real := by
  have hidle : twoPagesSt.m.dev.eng.pending = [] := by decide +kernel
  exact hostAlloc_fills twoPagesFill twoPages _ _ twoPagesSt 0x7ffc 8 0 []
    ⟨rfl, by decide, fun _ _ => rfl, rfl, rfl⟩ (by decide) (by decide) (by decide) (by decide)
    (by decide) twoPagesFill_succeeds twoPagesSt_session
    (by rw [hidle]; exact fun _ hx => absurd hx List.not_mem_nil)

end HmCuda
