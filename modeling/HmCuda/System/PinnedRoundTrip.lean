import HmCuda.System.HostAllocFill
import HmCuda.System.Synchronous

/-! A transfer into a pinned buffer and back out of it. The way in translates embedded pinned
addresses, chunk by chunk; the way out copies the bytes as they are. -/

namespace HmCuda
open Layout AsyncCopy

/-! The translation of a chunk -/

section
variable (c : Context)

@[simp] theorem length_patch (bs : List UInt8) :
    (patchEmbeddedHostPtrs c bs).length = bs.length := by
  fun_induction patchEmbeddedHostPtrs c bs with
  | case1 b₀ b₁ b₂ b₃ b₄ b₅ b₆ b₇ rest w ih =>
    rw [List.length_append, ih]
    split
    · simp only [Bytes.length_le, List.length_cons]
      omega
    · simp only [w, List.length_cons, List.length_nil]
      omega
  | case2 rest h => rfl

theorem patch_unneeded {bs : List UInt8} (h : bufferNeedsHostPtrPatch c bs = false) :
    patchEmbeddedHostPtrs c bs = bs := by
  fun_induction patchEmbeddedHostPtrs c bs with
  | case1 b₀ b₁ b₂ b₃ b₄ b₅ b₆ b₇ rest w ih =>
    rw [bufferNeedsHostPtrPatch, Bool.or_eq_false_iff, Option.isSome_eq_false_iff,
      Option.isNone_iff_eq_none] at h
    rw [ih h.2, h.1]
    rfl
  | case2 rest h => rfl

theorem read_addrs (m : ByteMem Space) (v : Iov) :
    m.read v.sp v.base v.len = v.addrs.map fun x => m x.1 x.2 := by
  rw [Iov.addrs, List.map_map]
  rfl

def translated (m : ByteMem Space) (v : Iov) : List UInt8 :=
  patchEmbeddedHostPtrs c (m.read v.sp v.base v.len)

@[simp] theorem length_translated (m : ByteMem Space) (v : Iov) :
    (translated c m v).length = v.len := by
  simp [translated]

theorem length_flatMap_translated (m : ByteMem Space) (vs : List Iov) :
    (vs.flatMap (translated c m)).length = totalLen vs := by
  simp [List.length_flatMap, totalLen]

end

/-- The scatter lists of a transfer from the offset `off` on, batch after batch. -/
def sentLists (pt : Nat → Nat) (a : MemcpyArgs) (off : Nat) : List Iov :=
  if off < a.totalCount ∧ 0 < (batchAt a off).count then
    batchData a off (framesAt pt a off) ++ sentLists pt a (off + (batchAt a off).count)
  else []
termination_by a.totalCount - off

/-! One chunk -/

/-- `malloc` leaves memory that is in use alone. -/
def MallocApart (e : Env) : Prop := ∀ i c m, c.fn = .malloc → e.effect i c m = m

section
variable {k : Key} {q : QEnv} {c : Context} {r : Resource} {o n stream off : Nat} {v : Device}

variable (stream) in
/-- A store that was resolved to the pinned buffer `r` fails when there is no temporary buffer,
or it is translated, whichever path it took. -/
theorem coreCuMemcpyHtodVq_pinned {dst : Nat} (hc : q.tab.ctxGet k = some c)
    (hd : c.resGet .mem dst = 0) (hf : c.resFind .hostMem dst = some r)
    (hn : r.pointer .hostMem dst ≠ 0) (hp : Space × Nat) (len : Nat) :
    let x := (coreCuMemcpyHtodVq k dst hp len stream).run q v
    (x.1 = 2 ∧ (q.env.ret v.clock ⟨.malloc, [len], []⟩).code ≠ 0 ∧
      x.2 = ((alloc .malloc len).run q v).2) ∨
    (x.1 = 0 ∧ ∃ g, (g = v.eng ∨ g = ((alloc .malloc len).run q v).2.eng) ∧
      x.2.eng = ⟨g.mem.write .uva (r.pointer .hostMem dst)
        (patchEmbeddedHostPtrs c (v.eng.mem.read hp.1 hp.2 len)), g.pending⟩) := by
  simp only [coreCuMemcpyHtodVq, withCtx_run hc, hd, hf, hn, ne_eq, not_true_eq_false, if_false,
    Prog.bind_run, load_run, Prog.ite_run]
  by_cases hb : bufferNeedsHostPtrPatch c (v.eng.mem.read hp.1 hp.2 len) = true
  · rw [if_pos hb]
    by_cases ha : (q.env.ret v.clock ⟨.malloc, [len], []⟩).code = 0
    · have hroom : ((alloc .malloc len).run q v).1 = true := decide_eq_true ha
      rw [if_pos hroom]
      exact .inr ⟨rfl, _, .inr rfl, rfl⟩
    · have hroom : ¬((alloc .malloc len).run q v).1 = true := by simpa [alloc, lib_run] using ha
      rw [if_neg hroom]
      exact .inl ⟨rfl, ha, rfl⟩
  · rw [if_neg hb, patch_unneeded c (by simpa using hb)]
    exact .inr ⟨rfl, _, .inl rfl, rfl⟩

variable (stream) in
/-- A chunk into a pinned buffer that reports success has been stored by the CPU, translated; one
that fails has stored nothing. -/
theorem chunkStep_store (hm : MallocApart q.env) (hc : q.tab.ctxGet k = some c)
    (hp : PinnedRange c r o n) (ch : Chunk) (hle : off + ch.off < n) :
    let x := (chunkStep .cuMemcpy .htod k (r.handle + o + off) stream ch).run q v
    (x.1 = 2 ∧ (q.env.ret v.clock ⟨.malloc, [ch.len], []⟩).code ≠ 0 ∧
      ∃ is, x.2.eng = v.eng.finishMany is) ∨
    (x.1 = 0 ∧ ∃ is, x.2.eng =
      ⟨(v.eng.finishMany is).mem.write .uva (r.realPtr + o + off + ch.off)
        (patchEmbeddedHostPtrs c (v.eng.mem.read ch.iov.sp ch.iov.base ch.len)),
          (v.eng.finishMany is).pending⟩) := by
  obtain ⟨hadd, hmem, hf, hpt, hne⟩ := hp.resolves hle
  -- the buffer that `malloc` gives is no memory that is in use
  have hroom : ((alloc .malloc ch.len).run q v).2.eng = v.eng.finishMany (q.env.dma v.clock) := by
    have hsame : Function.update v.eng.mem .uva (q.env.effect v.clock ⟨.malloc, [ch.len], []⟩
        (v.eng.mem .uva)) = v.eng.mem := by
      rw [hm _ _ _ rfl, Function.update_eq_self]
    simp only [alloc, Prog.bind_run, lib_run, hsame, Prog.pure_run, Device.step_eng]
  simp only [chunkStep, hadd]
  rcases coreCuMemcpyHtodVq_pinned stream hc hmem hf (by rwa [hpt]) (ch.iov.sp, ch.iov.base) ch.len
    (v := v) with ⟨h2, hfail, heq⟩ | ⟨h0, g, hg, heng⟩
  · exact .inl ⟨h2, hfail, _, (congrArg Device.eng heq).trans hroom⟩
  rw [hpt] at heng
  refine .inr ⟨h0, ?_⟩
  rcases hg with rfl | rfl
  · exact ⟨[], heng⟩
  · exact ⟨_, hroom ▸ heng⟩

variable (stream) in
theorem chunkStep_pinnedIn (hret : ∀ i x, (q.env.ret i x).code = 0) (hm : MallocApart q.env)
    (hc : q.tab.ctxGet k = some c) (hp : PinnedRange c r o n) (ch : Chunk)
    (hle : off + ch.off < n) (hv : v.eng.pending = []) :
    ∃ v', (chunkStep .cuMemcpy .htod k (r.handle + o + off) stream ch).run q v = (0, v') ∧
      v'.eng = ⟨v.eng.mem.write .uva (r.realPtr + o + off + ch.off)
        (patchEmbeddedHostPtrs c (v.eng.mem.read ch.iov.sp ch.iov.base ch.len)), v.eng.pending⟩ := by
  rcases chunkStep_store stream hm hc hp ch hle (v := v) with ⟨-, hne, -⟩ | ⟨h0, is, heng⟩
  · exact absurd (hret _ _) hne
  · rw [Engine.finishMany_idle hv] at heng
    exact ⟨_, Prod.ext h0 rfl, heng⟩

variable (stream) in
theorem chunks_pinnedIn (hret : ∀ i x, (q.env.ret i x).code = 0) (hm : MallocApart q.env)
    (hc : q.tab.ctxGet k = some c) (hp : PinnedRange c r o n) {data : List Iov} {rel : Nat}
    (hram : ∀ w ∈ data, w.sp = .ram) (hpos : ∀ w ∈ data, 0 < w.len)
    (hin : off + rel + totalLen data ≤ n) (hv : v.eng.pending = []) :
    ∃ v', (Prog.firstError (chunkStep .cuMemcpy .htod k (r.handle + o + off) stream)
        (tile rel data)).run q v = (0, v') ∧
      v'.eng = ⟨v.eng.mem.write .uva (r.realPtr + o + off + rel)
        (data.flatMap (translated c v.eng.mem)), v.eng.pending⟩ := by
  induction data generalizing rel v with
  | nil => exact ⟨v, rfl, by rw [List.flatMap_nil, ByteMem.write_nil]⟩
  | cons w data ih =>
    rw [totalLen_cons] at hin
    have hw := hpos w List.mem_cons_self
    obtain ⟨v₁, hrun, heng⟩ := chunkStep_pinnedIn stream hret hm hc hp ⟨rel, w, w.len⟩
      (show off + rel < n by omega) hv
    obtain ⟨v₂, hrun₂, heng₂⟩ := ih (v := v₁) (fun x hx => hram x (List.mem_cons_of_mem _ hx))
      (fun x hx => hpos x (List.mem_cons_of_mem _ hx))
      (show off + (rel + w.len) + totalLen data ≤ n by omega) (by rw [heng]; exact hv)
    refine ⟨v₂, ?_, ?_⟩
    · rw [tile, Prog.firstError_cons, hrun]
      exact hrun₂
    · -- the store does not change the user's bytes, which the later chunks read
      have hkeep : v₁.eng.mem .ram = v.eng.mem .ram := by
        rw [heng]
        exact v.eng.mem.write_space (r.realPtr + o + off + rel) (translated c v.eng.mem w)
          (show Space.ram ≠ .uva by simp)
      have hrest : data.flatMap (translated c v₁.eng.mem) =
          data.flatMap (translated c v.eng.mem) := by
        refine List.flatMap_congr fun x hx => ?_
        have hsp := hram x (List.mem_cons_of_mem _ hx)
        rw [translated, translated, hsp]
        exact congrArg _ (ByteMem.read_congr fun i _ => congrFun hkeep _)
      have hwrite := v.eng.mem.write_write .uva (r.realPtr + o + off + rel) (translated c v.eng.mem w)
        (data.flatMap (translated c v.eng.mem))
      rw [length_translated] at hwrite
      rw [heng₂, hrest, heng, List.flatMap_cons, ← hwrite, Nat.add_assoc _ rel]
      rfl

end

/-! The batches -/

section
variable {e : DrvEnv} {pt : Nat → Nat} {a : MemcpyArgs} {c : Context} {r : Resource} {t : Tables}
  {m₀ : ByteMem Space} {o stream off : Nat} {s s' : DrvSt}

theorem Ready.data_ram (h : Ready e a off (framesAt pt a off))
    (hu : a.userAddrStart + a.totalCount ≤ taskSize) (hlt : off < a.totalCount) :
    ∀ w ∈ batchData a off (framesAt pt a off), w.sp = .ram := by
  intro w hw
  have hpos := batchData_pos a off (framesAt pt a off) w hw
  have hmem : (w.sp, w.base + 0) ∈ (batchData a off (framesAt pt a off)).flatMap Iov.addrs :=
    List.mem_flatMap.mpr ⟨w, hw, List.mem_map.mpr ⟨0, List.mem_range.mpr hpos, rfl⟩⟩
  rw [h.user_addrs hu hlt] at hmem
  obtain ⟨i, -, hi⟩ := List.mem_map.mp hmem
  exact (congrArg Prod.fst hi).symm

theorem setMem_shared (m : Machine) {x : Space} (hx : ¬Shared x) (h : Nat → UInt8) {sp : Space}
    (hsp : Shared sp) : (m.setMem x h).dev.eng.mem sp = m.dev.eng.mem sp := by
  refine Function.update_of_ne ?_ _ _
  rintro rfl
  exact hx hsp

theorem write_translated {m : ByteMem Space} {sent data : List Iov} {real : Nat}
    (hmem : ∀ sp, Shared sp → m sp = m₀.write .uva real (sent.flatMap (translated c m₀)) sp)
    (hram : ∀ w ∈ data, w.sp = .ram) {sp : Space} (hsp : Shared sp) :
    m.write .uva (real + totalLen sent) (data.flatMap (translated c m)) sp =
      m₀.write .uva real ((sent ++ data).flatMap (translated c m₀)) sp := by
  have hsrc : data.flatMap (translated c m) = data.flatMap (translated c m₀) := by
    refine List.flatMap_congr fun w hw => congrArg _ (ByteMem.read_congr fun i _ => ?_)
    rw [hram w hw, hmem _ (.inl rfl)]
    exact congrFun (ByteMem.write_space m₀ _ _ (by simp)) _
  have hwrite := m₀.write_write .uva real (sent.flatMap (translated c m₀))
    (data.flatMap (translated c m₀))
  rw [length_flatMap_translated] at hwrite
  rw [hsrc, List.flatMap_append, ← hwrite]
  funext x
  have hsame := hmem sp hsp
  unfold ByteMem.write at hsame ⊢
  simp only [hsame]

/-- What holds before the batch at `off`: the lists sent so far are in the buffer. -/
structure StoreInv (e : DrvEnv) (pt : Nat → Nat) (a : MemcpyArgs) (c : Context) (t : Tables)
    (m₀ : ByteMem Space) (real stream off : Nat) (s : DrvSt) : Prop where
  req : CopyReq MemCmd.cuMemcpy.copy a.kind stream s.reqBuf
  tab : s.m.tab = t
  seen : s.seen e.caller = 0
  idle : s.m.dev.eng.pending = []
  mem : ∃ sent, sentLists pt a 0 = sent ++ sentLists pt a off ∧
    sent.flatMap Iov.addrs = (List.range off).map (fun i => phys pt (a.userAddrStart + i)) ∧
    ∀ sp, Shared sp →
      s.m.dev.eng.mem sp = m₀.write .uva real (sent.flatMap (translated c m₀)) sp

theorem StoreInv.batch (hs : Smooth e pt) (hm : MallocApart e.sys)
    (hu : a.userAddrStart + a.totalCount ≤ taskSize) (hk : a.kind = 1)
    (hdev : a.devPtr = r.handle + o) (hc : t.ctxGet e.key = some c)
    (hp : PinnedRange c r o a.totalCount)
    (h : StoreInv e pt a c t m₀ (r.realPtr + o) stream off s) (hlt : off < a.totalCount)
    {pfns : List Nat} {sv : Served} (hb : Batched e MemCmd.cuMemcpy.copy a off s pfns sv s') :
    StoreInv e pt a c t m₀ (r.realPtr + o) stream (off + (batchAt a off).count) s' := by
  have htask : taskSize < 2 ^ 47 := by decide
  have hready := hs.ready hu hlt
  obtain rfl := hb.ready.unique hready
  have hcount := batchAt_count_rem a off
  have hlen := hready.totalLen
  have hsize := hp.size
  have hkey := hp.key
  have hram := hready.data_ram hu hlt
  have hsplit : sentLists pt a off =
      batchData a off (framesAt pt a off) ++ sentLists pt a (off + (batchAt a off).count) := by
    rw [sentLists, if_pos ⟨hlt, hready.count_pos⟩]
  obtain ⟨sent, hall, haddr, hmem⟩ := h.mem
  have hsent : totalLen sent = off := by
    rw [← length_addrs, haddr, List.length_map, List.length_range]
  obtain ⟨⟨code, hcode, herr⟩, hm'⟩ := hb.mem_machine (d := .htod) hs hu hk (by omega) h.req h.tab hlt
  obtain ⟨v', hrun, heng⟩ := chunks_pinnedIn (q := ⟨e.sys, t⟩) (k := e.key) stream
    (v := (s.shown e MemCmd.cuMemcpy.copy a off).dev) hs.ret hm hc hp hram (batchData_pos a off _)
    (show off + 0 + totalLen (batchData a off (framesAt pt a off)) ≤ a.totalCount by
      rw [hlen]
      omega) h.idle
  rw [chunkLoop_unsynced rfl, hdev, hrun] at hcode hm'
  have hdel := hb.delivered MemCmd.cuMemcpy.copy_ne h.req (by omega) (.inl hk)
  have hws : ∀ w ∈ sv.writes, ¬Shared w.sp := hdel.unshared
  have hdrift := drifts_deliver ({ (s.shown e MemCmd.cuMemcpy.copy a off) with dev := v' } : Machine)
    e.sys hws
  have hidle : v'.eng.pending = [] := by
    rw [heng]
    exact h.idle
  refine ⟨?_, ?_, ?_, ?_, sent ++ batchData a off (framesAt pt a off), ?_, ?_, fun sp hsp => ?_⟩
  · rw [hb.post]
    exact h.req.batchReq MemCmd.cuMemcpy.copy_ne
  · rw [hm']
    exact h.tab
  · refine hdel.seen.trans ?_
    rw [herr, hcode]
    rfl
  · rw [hm', List.eq_nil_iff_forall_not_mem]
    intro x hx
    have hx := hdrift.pending x hx
    rw [hidle] at hx
    cases hx
  · rw [hall, hsplit, List.append_assoc]
  · rw [List.flatMap_append, haddr, hready.user_addrs hu hlt, List.range_add, List.map_append,
      List.map_map]
    simp only [Function.comp_def, Nat.add_assoc]
  · have hv' : s'.m.dev.eng.mem sp = v'.eng.mem sp := by
      rw [hm']
      funext x
      exact hdrift.mem sp x hsp (by rw [hidle]; exact fun _ hx => absurd hx List.not_mem_nil)
    have hshown (sp : Space) (hsp : Shared sp) :
        (s.shown e MemCmd.cuMemcpy.copy a off).dev.eng.mem sp =
          m₀.write .uva (r.realPtr + o) (sent.flatMap (translated c m₀)) sp :=
      (setMem_shared s.m (by simp [Shared]) _ hsp).trans (hmem sp hsp)
    have hnext := write_translated hshown hram hsp
    rw [hsent] at hnext
    rw [hv', heng, Nat.add_zero]
    exact hnext

theorem copyLoop_stores (hs : Smooth e pt) (hm : MallocApart e.sys)
    (hu : a.userAddrStart + a.totalCount ≤ taskSize) (hk : a.kind = 1)
    (hdev : a.devPtr = r.handle + o) (hc : t.ctxGet e.key = some c)
    (hp : PinnedRange c r o a.totalCount)
    (h : StoreInv e pt a c t m₀ (r.realPtr + o) stream 0 s) :
    ((copyLoop MemCmd.cuMemcpy.copy a).run e s).1 = .ret 0 ∧
      StoreInv e pt a c t m₀ (r.realPtr + o) stream a.totalCount
        ((copyLoop MemCmd.cuMemcpy.copy a).run e s).2 := by
  refine copyLoop_rule (I := StoreInv e pt a c t m₀ (r.realPtr + o) stream)
    (Q := fun h s => h = .ret 0 ∧ StoreInv e pt a c t m₀ (r.realPtr + o) stream a.totalCount s)
    (fun _ s hI => hI.req.cmd) (fun off s s' h hlt _ _ hn _ => ?_)
    (fun off s s' pfns sv hlt hI hb _ => ?_) (fun off s s' pfns sv hlt hI hb hne => ?_)
    (fun s hI => ⟨rfl, hI⟩) h
  · exact absurd (hs.ready hu hlt) (hn _)
  · exact hI.batch hs hm hu hk hdev hc hp hlt hb
  · exact absurd (hI.batch hs hm hu hk hdev hc hp hlt hb).seen hne

end

/-! The ioctls -/

/-- A cuMemcpy ioctl for `n` bytes at the user address `u` and at the offset `o` of the pinned
buffer `r`, when every pin, virtqueue and CUDA call succeeds. -/
structure PinnedCall (d : Dir) (e : DrvEnv) (pt : Nat → Nat) (u n : Nat) (c : Context)
    (r : Resource) (o : Nat) (s : DrvSt) : Prop where
  smooth : Smooth e pt
  malloc : MallocApart e.sys
  built : ∃ hdr p, Built e MemCmd.cuMemcpy.copy hdr p ∧
    (memReq p).args = ⟨u, n, r.handle + o, d.kind⟩
  user : u + n ≤ taskSize
  frames : Separate pt u n
  session : s.m.tab.ctxGet e.key = some c
  range : PinnedRange c r o n
  idle : s.m.dev.eng.pending = []

/-- The lists of a transfer of `n` bytes from the user address `u`. -/
def pinnedLists (pt : Nat → Nat) (u n dev : Nat) : List Iov := sentLists pt ⟨u, n, dev, 1⟩ 0

section
variable {e e' : DrvEnv} {pt pt' : Nat → Nat} {u u' n o : Nat} {c c' : Context} {r : Resource}
  {s s' : DrvSt}

theorem PinnedCall.finished (h : PinnedCall .htod e pt u n c r o s) : ∃ stream w,
    StoreInv e pt ⟨u, n, r.handle + o, Dir.htod.kind⟩ c s.m.tab s.m.dev.eng.mem (r.realPtr + o)
      stream n w ∧
    hmcudaIoctl.run e s = (finishIoctl (sizeof respHeader) (.ret 0)).run e w := by
  obtain ⟨hdr, p, hb, ha⟩ := h.built
  obtain ⟨t, w, ht, hsame, hrun⟩ := hmcudaIoctl_memLoop MemCmd.cuMemcpy.copy_ne hb
    ⟨h.smooth.alloc _, h.smooth.alloc _⟩ ha s
  have h0 : StoreInv e pt ⟨u, n, r.handle + o, Dir.htod.kind⟩ c s.m.tab s.m.dev.eng.mem
      (r.realPtr + o) (memReq p).stream 0 t := by
    refine ⟨ht.req, ht.tab, ht.seen, ht.pending.trans h.idle, [], rfl, rfl, fun sp hsp => ?_⟩
    rw [ht.m, setMem_shared s.m (by simp [Shared]) _ hsp, List.flatMap_nil, ByteMem.write_nil]
  obtain ⟨h1, h2⟩ := copyLoop_stores h.smooth h.malloc h.user rfl rfl h.session h.range h0
  rw [h1] at hrun
  obtain ⟨x, rfl, -⟩ := hsame
  refine ⟨(memReq p).stream, _, ?_, hrun⟩
  exact ⟨h2.req, h2.tab, h2.seen, h2.idle, h2.mem⟩

theorem PinnedCall.stored (h : PinnedCall .htod e pt u n c r o s) :
    (hmcudaIoctl.run e s).1.status = some 0 ∧
    (pinnedLists pt u n (r.handle + o)).flatMap Iov.addrs =
      (List.range n).map (fun i => phys pt (u + i)) ∧
    ∀ sp, Shared sp → (hmcudaIoctl.run e s).2.m.dev.eng.mem sp =
      s.m.dev.eng.mem.write .uva (r.realPtr + o)
        ((pinnedLists pt u n (r.handle + o)).flatMap (translated c s.m.dev.eng.mem)) sp := by
  obtain ⟨stream, w, hw, hrun⟩ := h.finished
  obtain ⟨sent, hall, haddr, hmem⟩ := hw.mem
  have hend : sentLists pt ⟨u, n, r.handle + o, Dir.htod.kind⟩ n = [] := by
    rw [sentLists, if_neg (fun hlt => absurd hlt.1 (lt_irrefl n))]
  rw [hend, List.append_nil] at hall
  have hlists : pinnedLists pt u n (r.handle + o) = sent := hall
  rw [hrun, hlists, finishIoctl_m, finishIoctl_answer, if_pos h.smooth.out]
  exact ⟨congrArg some hw.seen, haddr, hmem⟩

theorem PinnedCall.answered (h : PinnedCall .htod e pt u n c r o s) :
    (hmcudaIoctl.run e s).1.halt = .ret 0 ∧ (hmcudaIoctl.run e s).2.m.tab = s.m.tab ∧
      (hmcudaIoctl.run e s).2.m.dev.eng.pending = [] := by
  obtain ⟨stream, w, hw, hrun⟩ := h.finished
  rw [hrun, finishIoctl_m, finishIoctl_zero, if_pos h.smooth.out]
  exact ⟨rfl, hw.tab, hw.idle⟩

/-- A transfer into a pinned buffer and back out returns the bytes that were sent, with the
pinned addresses in each descriptor translated; without such words, exactly the bytes sent. -/
theorem pinned_roundTrip (h : PinnedCall .htod e pt u n c r o s)
    (h' : PinnedCall .dtoh e' pt' u' n c' r o s')
    (hkeep : s'.m.dev.eng.mem .uva = (hmcudaIoctl.run e s).2.m.dev.eng.mem .uva) :
    (hmcudaIoctl.run e s).1.status = some 0 ∧ (hmcudaIoctl.run e' s').1.status = some 0 ∧
    (∀ i < n, (hmcudaIoctl.run e' s').2.m.dev.eng.mem .ram (phys pt' (u' + i)).2 =
      ((pinnedLists pt u n (r.handle + o)).flatMap (translated c s.m.dev.eng.mem)).getD i 0) ∧
    ((∀ w ∈ pinnedLists pt u n (r.handle + o),
        bufferNeedsHostPtrPatch c (s.m.dev.eng.mem.read w.sp w.base w.len) = false) →
      ∀ i < n, (hmcudaIoctl.run e' s').2.m.dev.eng.mem .ram (phys pt' (u' + i)).2 =
        s.m.dev.eng.mem .ram (phys pt (u + i)).2) := by
  obtain ⟨hst, haddr, hmem⟩ := h.stored
  obtain ⟨hdr, p, hb, ha⟩ := h'.built
  obtain ⟨hsent, hidle⟩ := pinnedOut_sent h'.smooth hb ha rfl h'.user h'.frames h'.idle h'.session
    h'.range
  obtain ⟨cs, hsub⟩ := hsent.subm
  have hlen : ((pinnedLists pt u n (r.handle + o)).flatMap
      (translated c s.m.dev.eng.mem)).length = n := by
    rw [length_flatMap_translated, ← length_addrs, haddr, List.length_map, List.length_range]
  have hback (i : Nat) (hi : i < n) :
      (hmcudaIoctl.run e' s').2.m.dev.eng.mem .ram (phys pt' (u' + i)).2 =
        ((pinnedLists pt u n (r.handle + o)).flatMap (translated c s.m.dev.eng.mem)).getD i 0 := by
    have hmoved := (hsub.copied h'.frames [] hidle).moved i hi
    refine hmoved.trans ?_
    show s'.m.dev.eng.mem .uva (r.realPtr + o + i) = _
    rw [hkeep, hmem _ (.inr rfl), ByteMem.write_hit _ _ (by rw [hlen]; exact hi)]
  refine ⟨hst, hsent.status, hback, fun hno i hi => ?_⟩
  -- no list is changed on the way in
  have hraw : (pinnedLists pt u n (r.handle + o)).flatMap (translated c s.m.dev.eng.mem) =
      ((pinnedLists pt u n (r.handle + o)).flatMap Iov.addrs).map
        fun x => s.m.dev.eng.mem x.1 x.2 := by
    rw [List.map_flatMap]
    refine List.flatMap_congr fun w hw => ?_
    rw [translated, patch_unneeded c (hno w hw), read_addrs]
  rw [hback i hi, hraw, haddr, List.map_map, List.getD_eq_getElem _ _ (by simpa using hi)]
  simp [phys]

end

/-! Eight bytes into the pinned buffer at 0x7000 and back: the address of the buffer itself. -/

def eightBytesTo : DrvEnv :=
  .quiet (aliasEnv 0x8000) fun _ => (⟨0x7000, 0x2000, 8, 1, 0⟩ : MemReq).arg DrvCmd.cuMemcpy.code

def eightBytesFrom : DrvEnv :=
  .quiet (aliasEnv 0x8000) fun _ => (⟨0x3000, 0x7000, 8, 2, 0⟩ : MemReq).arg DrvCmd.cuMemcpy.code

/-- The session with a pinned buffer, and `v` at the user address 0x2000. -/
def pinnedSt (v : Nat) : DrvSt :=
  { DrvSt.start aliasMem with
    m := (aliasRun 0x8000).setMem .ram fun a => (Bytes.le 8 v).getD (a - 0x2000) 0 }

theorem pinnedSt_calls : ∀ v ∈ [1, 0x7000], ∃ c c',
    PinnedCall .htod eightBytesTo id 0x2000 8 c ⟨0x7000, 0x9000, 8⟩ 0 (pinnedSt v) ∧
    PinnedCall .dtoh eightBytesFrom id 0x3000 8 c' ⟨0x7000, 0x9000, 8⟩ 0
      (hmcudaIoctl.run eightBytesTo (pinnedSt v)).2 := by
  intro v hv
  have hsmooth (user : Nat → Nat → UInt8) : Smooth (.quiet (aliasEnv 0x8000) user) id :=
    ⟨fun _ => rfl, fun _ _ _ => rfl, fun _ => rfl, rfl, aliasEnv_ret 0x8000⟩
  have htab : ∀ v ∈ [1, 0x7000], ((hmcudaIoctl.run eightBytesTo (pinnedSt v)).2.m.tab.ctxGet
      ⟨1, 1⟩).map (fun c => (c.resources .mem, c.resources .hostMem)) =
        some ([⟨0x8000, 0x8000, 64⟩], [⟨0x7000, 0x9000, 8⟩]) := by decide +kernel
  have hidle : ∀ v ∈ [1, 0x7000],
      (pinnedSt v).m.dev.eng.pending = [] ∧
        (hmcudaIoctl.run eightBytesTo (pinnedSt v)).2.m.dev.eng.pending = [] := by decide +kernel
  have hrange {c : Context}
      (h : (c.resources .mem, c.resources .hostMem) =
        (([⟨0x8000, 0x8000, 64⟩], [⟨0x7000, 0x9000, 8⟩]) : List Resource × List Resource)) :
      PinnedRange c ⟨0x7000, 0x9000, 8⟩ 0 8 := by
    obtain ⟨h1, h2⟩ := Prod.mk.inj h
    refine (placed_alias (by decide) h1 h2).pinnedRange (by rw [h2]; exact List.mem_singleton_self _)
      (by decide) ?_
    rw [h1]
    decide
  obtain ⟨c, hc, hcr⟩ := Option.map_eq_some_iff.mp (aliasRun_tables 0x8000 (by decide))
  obtain ⟨c', hc', hcr'⟩ := Option.map_eq_some_iff.mp (htab v hv)
  exact ⟨c, c', ⟨hsmooth _, fun _ _ _ _ => rfl,
    ⟨_, _, ⟨rfl, by decide, fun _ _ => rfl, rfl, rfl⟩, by decide⟩, by decide, fun _ _ _ _ h => h, hc,
    hrange hcr, (hidle v hv).1⟩, ⟨hsmooth _, fun _ _ _ _ => rfl,
    ⟨_, _, ⟨rfl, by decide, fun _ _ => rfl, rfl, rfl⟩, by decide⟩, by decide, fun _ _ _ _ h => h, hc',
    hrange hcr', (hidle v hv).2⟩⟩

theorem pinned_roundTrip_eightBytes :
    (hmcudaIoctl.run eightBytesFrom (hmcudaIoctl.run eightBytesTo (pinnedSt 1)).2).1.status =
      some 0 := by
  obtain ⟨c, c', h, h'⟩ := pinnedSt_calls 1 (by simp)
  exact (pinned_roundTrip h h' rfl).2.1

/-- The address of a pinned buffer comes back as the backend's address of it. -/
theorem pinned_roundTrip_translates :
    ¬∀ (e e' : DrvEnv) (pt pt' : Nat → Nat) (u u' n o : Nat) (c c' : Context) (r : Resource)
      (s s' : DrvSt), PinnedCall .htod e pt u n c r o s → PinnedCall .dtoh e' pt' u' n c' r o s' →
      s'.m = (hmcudaIoctl.run e s).2.m → ∀ i < n,
        (hmcudaIoctl.run e' s').2.m.dev.eng.mem .ram (phys pt' (u' + i)).2 =
          s.m.dev.eng.mem .ram (phys pt (u + i)).2 := by
  intro hall
  obtain ⟨c, c', h, h'⟩ := pinnedSt_calls 0x7000 (by simp)
  have hbyte := hall _ _ _ _ _ _ _ _ _ _ _ _ _ h h' rfl 1 (by decide)
  have hsent : (pinnedSt 0x7000).m.dev.eng.mem .ram (phys id (0x2000 + 1)).2 = 0x70 := by
    decide +kernel
  have hback : (hmcudaIoctl.run eightBytesFrom (hmcudaIoctl.run eightBytesTo
      (pinnedSt 0x7000)).2).2.m.dev.eng.mem .ram (phys id (0x3000 + 1)).2 = 0x90 := by
    decide +kernel
  rw [hsent, hback] at hbyte
  exact absurd hbyte (by decide)

end HmCuda
