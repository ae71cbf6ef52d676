import HmCuda.Driver.Scatter

/-! The CPU copies between the queue and pinned buffers. The lookup checks the first
address of a chunk only, so a copy stays inside its buffer exactly when the chunk does. -/

namespace HmCuda
open Layout

def pinnedIn (rs : List Resource) (addr : Nat) : Option Resource :=
  (rs.find? (Resource.covers .hostMem addr)).filter fun r => r.pointer .hostMem addr ≠ 0

theorem pinnedIn_of_find {rs : List Resource} {addr : Nat} {r : Resource}
    (h : rs.find? (Resource.covers .hostMem addr) = some r) :
    pinnedIn rs addr = if r.pointer .hostMem addr = 0 then none else some r := by
  rw [pinnedIn, h, Option.filter_some]
  by_cases h0 : r.pointer .hostMem addr = 0 <;> simp [h0]

/-- Each chunk, up to the first that is refused, is in device memory or inside the pinned
buffer its address is looked up in. -/
def Fits (c : Context) (dev : Nat) : List Chunk → Prop
  | [] => True
  | ch :: cs =>
    if c.resGet .mem (add64 dev ch.off) ≠ 0 then Fits c dev cs
    else ∀ r ∈ pinnedIn (c.resources .hostMem) (add64 dev ch.off),
      add64 dev ch.off - r.handle + ch.len ≤ r.size ∧ Fits c dev cs

def Fits.decide (c : Context) (dev : Nat) : (cs : List Chunk) → Decidable (Fits c dev cs)
  | [] => .isTrue trivial
  | ch :: cs =>
    let _ := Fits.decide c dev cs
    inferInstanceAs (Decidable (if c.resGet .mem (add64 dev ch.off) ≠ 0 then Fits c dev cs
      else ∀ r ∈ pinnedIn (c.resources .hostMem) (add64 dev ch.off),
        add64 dev ch.off - r.handle + ch.len ≤ r.size ∧ Fits c dev cs))

instance (c : Context) (dev : Nat) (cs : List Chunk) : Decidable (Fits c dev cs) :=
  Fits.decide c dev cs

section
variable {d : Dir} {k : Key} {dev stream : Nat} {q : QEnv} {v : Device} {c : Context} {ch : Chunk}
  {cs : List Chunk}

variable (d dev stream v ch) in
theorem chunkStep_copies (hc : q.tab.ctxGet k = some c) :
    let x := (chunkStep .cuMemcpy d k dev stream ch).run q v
    (c.resGet .mem (add64 dev ch.off) ≠ 0 ∧ x.2.copies = v.copies) ∨
    (c.resGet .mem (add64 dev ch.off) = 0 ∧
      pinnedIn (c.resources .hostMem) (add64 dev ch.off) = none ∧ x = (1, v)) ∨
    ∃ r ∈ pinnedIn (c.resources .hostMem) (add64 dev ch.off),
      c.resGet .mem (add64 dev ch.off) = 0 ∧ CpuCopied q r (add64 dev ch.off) ch.len v x := by
  by_cases hp : c.resGet .mem (add64 dev ch.off) = 0
  · right
    rcases hf : c.resFind .hostMem (add64 dev ch.off) with _ | r
    · have hh : c.resGet .hostMem (add64 dev ch.off) = 0 := by rw [Context.resGet_eq, hf]; rfl
      refine .inl ⟨hp, ?_, chunkStep_dead hc hp hh⟩
      rw [Context.resFind] at hf
      simp [pinnedIn, hf]
    · have hh : c.resGet .hostMem (add64 dev ch.off) = r.pointer .hostMem (add64 dev ch.off) := by
        rw [Context.resGet_eq, hf]
        rfl
      have hf' := hf
      rw [Context.resFind] at hf'
      by_cases hn : r.pointer .hostMem (add64 dev ch.off) = 0
      · exact .inl ⟨hp, by simp [pinnedIn, hf', hn], chunkStep_dead hc hp (hh.trans hn)⟩
      · exact .inr ⟨r, by simp [pinnedIn, hf', hn], hp, chunkStep_pinned d stream v hc hp hf hn⟩
  · exact .inl ⟨hp, by rw [chunkStep_mem hc hp]; cases d <;> rfl⟩

theorem loop_copies_grow (hc : q.tab.ctxGet k = some c) : ∀ x ∈ v.copies,
    x ∈ ((Prog.firstError (chunkStep .cuMemcpy d k dev stream) cs).run q v).2.copies := by
  induction cs generalizing v with
  | nil => exact fun x hx => hx
  | cons ch cs ih =>
    intro x hx
    have hstep : x ∈ ((chunkStep .cuMemcpy d k dev stream ch).run q v).2.copies := by
      rcases chunkStep_copies d dev stream v ch hc with
        ⟨-, h⟩ | ⟨-, -, h⟩ | ⟨r, -, -, h⟩
      · exact h ▸ hx
      · exact h ▸ hx
      · rcases h.copies with ⟨-, h⟩ | ⟨-, h⟩
        · exact h ▸ List.mem_append_left _ hx
        · exact h ▸ hx
    rw [Prog.firstError_cons]
    split
    · exact hstep
    · exact ih x hstep

theorem loop_inside_of_fits (hc : q.tab.ctxGet k = some c) (hf : Fits c dev cs)
    (hv : ∀ x ∈ v.copies, x.inside) : ∀ x ∈
      ((Prog.firstError (chunkStep .cuMemcpy d k dev stream) cs).run q v).2.copies, x.inside := by
  induction cs generalizing v with
  | nil => exact hv
  | cons ch cs ih =>
    rw [Fits] at hf
    rw [Prog.firstError_cons]
    rcases chunkStep_copies d dev stream v ch hc with
      ⟨hp, h⟩ | ⟨-, -, h⟩ | ⟨r, hr, hp, h⟩
    · rw [if_pos hp] at hf
      split
      · exact h ▸ hv
      · exact ih hf (h ▸ hv)
    · rw [h]
      exact hv
    · rw [if_neg (not_not.mpr hp)] at hf
      obtain ⟨hin, hrest⟩ := hf r hr
      rcases h.copies with ⟨h0, h⟩ | ⟨h0, h⟩
      · rw [if_neg (not_not.mpr h0)]
        refine ih hrest fun x hx => ?_
        rw [h] at hx
        rcases List.mem_append.mp hx with hx | hx
        · exact hv x hx
        · rw [List.mem_singleton.mp hx]
          exact hin
      · rw [if_pos h0, h]
        exact hv

theorem fits_of_loop_inside (hc : q.tab.ctxGet k = some c)
    (hret : ∀ n x, (q.env.ret n x).code = 0)
    (h : ∀ x ∈ ((Prog.firstError (chunkStep .cuMemcpy d k dev stream) cs).run q v).2.copies,
      x.inside) : Fits c dev cs := by
  induction cs generalizing v with
  | nil => trivial
  | cons ch cs ih =>
    rw [Prog.firstError_cons] at h
    rw [Fits]
    rcases chunkStep_copies d dev stream v ch hc with
      ⟨hp, -⟩ | ⟨hp, hn, -⟩ | ⟨r, hr, hp, hx⟩
    · have h0 : ((chunkStep .cuMemcpy d k dev stream ch).run q v).1 = 0 := by
        rw [chunkStep_mem hc hp]
        cases d <;> exact hret _ _
      rw [if_neg (not_not.mpr h0)] at h
      rw [if_pos hp]
      exact ih h
    · rw [if_neg (not_not.mpr hp), hn]
      exact fun _ h => by simp at h
    · have h0 := hx.done fun n size => hret _ _
      rw [if_neg (not_not.mpr h0)] at h
      rw [if_neg (not_not.mpr hp)]
      intro r' hr'
      obtain rfl : r = r' := Option.mem_unique hr hr'
      refine ⟨?_, ih h⟩
      have hlog := hx.copies.resolve_right fun hc => hc.1 h0
      exact h ⟨r, add64 dev ch.off - r.handle, ch.len⟩
        (loop_copies_grow hc _ (hlog.2 ▸ List.mem_append_right _ List.mem_cons_self))

end
/-! The allocation of a pinned buffer -/

/-- The pinned entries once a chunk at offset 0 has allocated `p`. -/
def grown (guestVa bytesize o p : Nat) (rs : List Resource) : List Resource :=
  if o = 0 then ⟨guestVa, p, bytesize⟩ :: rs else rs

/-- The same for an allocation request. A chunk at offset 0 enters the buffer, whose
pointer decides nothing; its size and the entries before it do. -/
def FitsAlloc (guestVa bytesize byteOffset : Nat) : List Resource → List Chunk → Prop
  | _, [] => True
  | rs, ch :: cs =>
    let o := add64 byteOffset ch.off
    let rs' := grown guestVa bytesize o 1 rs
    ∀ r ∈ pinnedIn rs' guestVa, add64 (guestVa - r.handle) o + ch.len ≤ r.size ∧
      FitsAlloc guestVa bytesize byteOffset rs' cs

def Filled (guestVa o len : Nat) (b : Option Resource) (v v' : Device) (err : Nat) : Prop :=
  match b with
  | none => err ≠ 0 ∧ v'.copies = v.copies
  | some r => err = 0 ∧ v'.copies = v.copies ++ [⟨r, add64 (guestVa - r.handle) o, len⟩]

section
variable {k : Key} {guestVa bytesize flags byteOffset o len : Nat} {hp : Space × Nat}

variable (guestVa o len hp) in
theorem copyToHostAlloc_filled {q : QEnv} {v : Device} {c : Context}
    (hc : q.tab.ctxGet k = some c) :
    let x := (copyToHostAlloc k guestVa o hp len).run q v
    Filled guestVa o len (pinnedIn (c.resources .hostMem) guestVa) v x.2 x.1 := by
  simp only [copyToHostAlloc, withCtx_run hc, Context.resFind]
  rcases hf : (c.resources .hostMem).find? (Resource.covers .hostMem guestVa) with _ | r
  · simp [pinnedIn, hf, Filled]
  · rw [pinnedIn_of_find hf]
    by_cases hn : r.pointer .hostMem guestVa = 0
    · simp [hn, Filled]
    · simp [hn, Filled]

variable (guestVa bytesize flags o len hp) in
theorem hostAllocVq_filled {e : Env} {s : Machine} {c : Context} (hc : s.tab.ctxGet k = some c) :
    let r := e.ret s.dev.clock ⟨.cuMemHostAlloc, [bytesize, flags ||| 2], []⟩
    let x := (coreCuMemHostAllocVq k bytesize flags guestVa o hp len).run e s
    (r.code ≠ 0 ∧ x.1 ≠ 0 ∧ x.2.dev.copies = s.dev.copies) ∨
    ∃ c', x.2.tab.ctxGet k = some c' ∧
      c'.resources .hostMem = grown guestVa bytesize o (r.out 0) (c.resources .hostMem) ∧
      Filled guestVa o len (pinnedIn (c'.resources .hostMem) guestVa) s.dev x.2.dev x.1 := by
  have fill {t : Machine} {c' : Context} (ht : t.tab.ctxGet k = some c')
      (hd : t.dev.copies = s.dev.copies) :
      let x := (query (copyToHostAlloc k guestVa o hp len)).run e t
      x.2.tab.ctxGet k = some c' ∧
        Filled guestVa o len (pinnedIn (c'.resources .hostMem) guestVa) s.dev x.2.dev x.1 := by
    have h := copyToHostAlloc_filled guestVa o len hp (q := ⟨e, t.tab⟩) (v := t.dev) ht
    refine ⟨ht, ?_⟩
    unfold Filled at h ⊢
    rwa [hd] at h
  simp only [coreCuMemHostAllocVq, withCtxM, hc, Prog.ite_run, Prog.bind_run]
  by_cases ho : o = 0
  · rw [if_pos ho, query_fst, lib_run]
    by_cases h0 : (e.ret s.dev.clock ⟨.cuMemHostAlloc, [bytesize, flags ||| 2], []⟩).code = 0
    · rw [if_neg (not_not.mpr h0)]
      right
      -- the entry of the buffer is there, with or without one for its device address
      have h1 := Tables.ctxGet_resAddWithHandle hc .hostMem
        ((e.ret s.dev.clock ⟨.cuMemHostAlloc, [bytesize, flags ||| 2], []⟩).out 0) bytesize guestVa
      split
      · have h2 := Tables.ctxGet_resAddWithHandle h1 .hostDevPtr ((e.ret (s.dev.clock + 1)
          ⟨.cuMemHostGetDevicePointer, [(e.ret s.dev.clock
            ⟨.cuMemHostAlloc, [bytesize, flags ||| 2], []⟩).out 0, 0], []⟩).out 0) bytesize guestVa
        refine ⟨_, (fill h2 ?_).1, ?_, (fill h2 ?_).2⟩
        · rfl
        · simp [Context.push_resources, grown, ho]
        · rfl
      · refine ⟨_, (fill h1 ?_).1, ?_, (fill h1 ?_).2⟩
        · rfl
        · simp [Context.push_resources, grown, ho]
        · rfl
    · rw [if_pos h0]
      exact .inl ⟨h0, h0, rfl⟩
  · rw [if_neg ho]
    obtain ⟨h2, h3⟩ := fill hc rfl
    exact .inr ⟨c, h2, by rw [grown, if_neg ho], h3⟩

def allocLoop (k : Key) (bytesize flags guestVa byteOffset : Nat) (cs : List Chunk) : CoreM Nat :=
  Prog.firstError (fun ch => coreCuMemHostAllocVq k bytesize flags guestVa
    (add64 byteOffset ch.off) (ch.iov.sp, ch.iov.base) ch.len) cs

theorem pinnedIn_cons (r : Resource) (rs : List Resource) (addr : Nat) :
    pinnedIn (r :: rs) addr = if r.covers .hostMem addr then
      if r.pointer .hostMem addr = 0 then none else some r else pinnedIn rs addr := by
  by_cases h : r.covers .hostMem addr = true
  · rw [if_pos h]
    exact pinnedIn_of_find (by rw [List.find?_cons_of_pos h])
  · rw [if_neg h, pinnedIn, List.find?_cons_of_neg h]
    rfl

/-- The entries agree but for the pointers of those the request has allocated. -/
def Alike (guestVa : Nat) (r r' : Resource) : Prop :=
  r.handle = r'.handle ∧ r.size = r'.size ∧ (r = r' ∨ (r'.handle = guestVa ∧ r'.realPtr = 1))

theorem pinnedIn_alike {rs rs' : List Resource} (h : List.Forall₂ (Alike guestVa) rs rs') :
    ∀ r ∈ pinnedIn rs guestVa, ∃ r' ∈ pinnedIn rs' guestVa, r'.handle = r.handle ∧
      r'.size = r.size := by
  induction h with
  | nil => simp [pinnedIn]
  | @cons r r' rs rs' hr _ ih =>
    obtain ⟨hh, hs, ho⟩ := hr
    have hcov : r'.covers .hostMem guestVa = r.covers .hostMem guestVa := by
      simp only [Resource.covers, hh, hs]
    rw [pinnedIn_cons, pinnedIn_cons, hcov]
    split
    · intro b hb
      split at hb
      · simp at hb
      next hn =>
        obtain rfl : r = b := by simpa using hb
        have hn' : r'.pointer .hostMem guestVa ≠ 0 := by
          rcases ho with rfl | ⟨h1, h2⟩
          · exact hn
          · simp [Resource.pointer, ResType.ranged, h1, h2, add64]
        exact ⟨r', by simp [hn'], hh.symm, hs.symm⟩
    · exact ih

theorem alloc_inside_of_fits {e : Env} {s : Machine} {c : Context} {rs : List Resource}
    {cs : List Chunk} (hc : s.tab.ctxGet k = some c)
    (hrs : List.Forall₂ (Alike guestVa) (c.resources .hostMem) rs)
    (hf : FitsAlloc guestVa bytesize byteOffset rs cs) (hv : ∀ x ∈ s.dev.copies, x.inside) :
    ∀ x ∈ ((allocLoop k bytesize flags guestVa byteOffset cs).run e s).2.dev.copies, x.inside := by
  induction cs generalizing s c rs with
  | nil => exact hv
  | cons ch cs ih =>
    rw [FitsAlloc] at hf
    rw [allocLoop, Prog.firstError_cons]
    rcases hostAllocVq_filled guestVa bytesize flags (add64 byteOffset ch.off) ch.len
      (ch.iov.sp, ch.iov.base) (e := e) hc
      with ⟨-, h0, h⟩ | ⟨c', hc', hres, hfill⟩
    · rw [if_pos h0, h]
      exact hv
    have hrs' : List.Forall₂ (Alike guestVa) (c'.resources .hostMem)
        (grown guestVa bytesize (add64 byteOffset ch.off) 1 rs) := by
      rw [hres, grown, grown]
      split
      · exact .cons ⟨rfl, rfl, .inr ⟨rfl, rfl⟩⟩ hrs
      · exact hrs
    rcases hb : pinnedIn (c'.resources .hostMem) guestVa with _ | r
    · rw [hb, Filled] at hfill
      rw [if_pos hfill.1, hfill.2]
      exact hv
    · rw [hb, Filled] at hfill
      obtain ⟨r', hr', hh, hs⟩ := pinnedIn_alike hrs' r hb
      obtain ⟨hin, hrest⟩ := hf r' hr'
      rw [hh, hs] at hin
      rw [if_neg (not_not.mpr hfill.1)]
      refine ih hc' hrs' hrest fun x hx => ?_
      rw [hfill.2] at hx
      rcases List.mem_append.mp hx with hx | hx
      · exact hv x hx
      · rw [List.mem_singleton.mp hx]
        exact hin

theorem allocLoop_copies_grow {e : Env} {s : Machine} {c : Context} {cs : List Chunk}
    (hc : s.tab.ctxGet k = some c) : ∀ x ∈ s.dev.copies,
      x ∈ ((allocLoop k bytesize flags guestVa byteOffset cs).run e s).2.dev.copies := by
  induction cs generalizing s c with
  | nil => exact fun x hx => hx
  | cons ch cs ih =>
    intro x hx
    rw [allocLoop, Prog.firstError_cons]
    rcases hostAllocVq_filled guestVa bytesize flags (add64 byteOffset ch.off) ch.len
      (ch.iov.sp, ch.iov.base) (e := e) hc
      with ⟨-, h0, h⟩ | ⟨c', hc', -, hfill⟩
    · rw [if_pos h0, h]
      exact hx
    rcases hb : pinnedIn (c'.resources .hostMem) guestVa with _ | r
    · rw [hb, Filled] at hfill
      rw [if_pos hfill.1, hfill.2]
      exact hx
    · rw [hb, Filled] at hfill
      rw [if_neg (not_not.mpr hfill.1)]
      exact ih hc' x (hfill.2 ▸ List.mem_append_left _ hx)

theorem fitsAlloc_of_inside {e : Env} {s : Machine} {c : Context} {cs : List Chunk}
    (hc : s.tab.ctxGet k = some c) (hret : ∀ n x, e.ret n x = ⟨0, [1], none⟩)
    (h : ∀ x ∈ ((allocLoop k bytesize flags guestVa byteOffset cs).run e s).2.dev.copies,
      x.inside) : FitsAlloc guestVa bytesize byteOffset (c.resources .hostMem) cs := by
  induction cs generalizing s c with
  | nil => trivial
  | cons ch cs ih =>
    rw [allocLoop, Prog.firstError_cons] at h
    rw [FitsAlloc]
    intro r hr
    rcases hostAllocVq_filled guestVa bytesize flags (add64 byteOffset ch.off) ch.len
      (ch.iov.sp, ch.iov.base) (e := e) hc
      with ⟨h0, -, -⟩ | ⟨c', hc', hres, hfill⟩
    · exact absurd (by rw [hret]) h0
    have hout : (e.ret s.dev.clock ⟨.cuMemHostAlloc, [bytesize, flags ||| 2], []⟩).out 0 = 1 := by
      rw [hret]
      rfl
    rw [hout] at hres
    rw [← hres] at hr ⊢
    rw [Option.mem_def.mp hr, Filled] at hfill
    rw [if_neg (not_not.mpr hfill.1)] at h
    have hin := h ⟨r, add64 (guestVa - r.handle) (add64 byteOffset ch.off), ch.len⟩
      (allocLoop_copies_grow hc' _ (hfill.2 ▸ List.mem_append_right _ List.mem_cons_self))
    exact ⟨hin, ih hc' h⟩

end

/-! A request -/

/-- The chunks of the request stay inside the pinned buffers they reach. -/
def RequestFits (c : CopyCmd) (x : Context) (e : CmdEnv) (p : Nat → UInt8) : Prop :=
  match c with
  | .memcpy => True
  | .cuMemcpy =>
    if (memReq p).kind = 1 then
      2 ≤ e.elem.outSg.length ∧
        (memReq p).count ≤ sub64 e.totalOutLen (sizeof reqHeader + sizeof memcpyReq) →
      Fits x (memReq p).dst (chunks (memReq p).count e.elem.outSg.tail)
    else if (memReq p).kind = 2 then
      2 ≤ e.elem.inSg.length ∧ (memReq p).count ≤ sum64 (e.elem.inSg.dropLast.map (·.len)) →
      Fits x (memReq p).src (chunks (memReq p).count e.elem.inSg.dropLast)
    else True
  | .cuMemHostAlloc =>
    2 ≤ e.elem.outSg.length → FitsAlloc (cuMemHostAllocReq.guestVa.get p)
      (cuMemHostAllocReq.bytesize.get p) (cuMemHostAllocReq.byteOffset.get p)
      (x.resources .hostMem) (hostAllocChunks e)

def Machine.unlogged (m : Machine) : Machine := { m with dev := { m.dev with copies := [] } }

/-- The CPU copies of pinned buffers that one element makes the backend do. -/
def hostCopies (k : Key) (e : Elem) (env : Env) (m : Machine) : List HostCopy :=
  ((processElem k e).run env m.unlogged).2.dev.copies

/-- CUDA's answers as `ret` gives them. -/
def Env.answering (env : Env) (ret : Nat → LibCall → LibRet) : Env := { env with ret := ret }

section
variable {k : Key} {e : CmdEnv} {env : Env} {m : Machine} {x : Context}

theorem loop_inside_iff (d : Dir) (dev stream : Nat) (cs : List Chunk)
    (hx : m.tab.ctxGet k = some x) (h0 : m.dev.copies = []) :
    (∀ ret, ∀ y ∈ ((query (Prog.firstError (chunkStep .cuMemcpy d k dev stream) cs)).run
      (env.answering ret) m).2.dev.copies, y.inside) ↔ Fits x dev cs := by
  constructor
  · intro h
    exact fits_of_loop_inside (q := ⟨env.answering fun _ _ => .ok, m.tab⟩) hx (fun _ _ => rfl)
      (h fun _ _ => .ok)
  · intro h ret
    exact loop_inside_of_fits (q := ⟨env.answering ret, m.tab⟩) hx h (by simp [h0])

theorem allocLoop_inside_iff (bytesize flags guestVa byteOffset : Nat) (cs : List Chunk)
    (hx : m.tab.ctxGet k = some x) (h0 : m.dev.copies = []) :
    (∀ ret, ∀ y ∈ ((allocLoop k bytesize flags guestVa byteOffset cs).run (env.answering ret)
      m).2.dev.copies, y.inside) ↔
      FitsAlloc guestVa bytesize byteOffset (x.resources .hostMem) cs := by
  constructor
  · intro h
    exact fitsAlloc_of_inside (e := env.answering fun _ _ => ⟨0, [1], none⟩) hx (fun _ _ => rfl)
      (h _)
  · intro hf ret
    have hrefl : List.Forall₂ (Alike guestVa) (x.resources .hostMem) (x.resources .hostMem) :=
      List.forall₂_same.mpr fun r _ => ⟨rfl, rfl, .inl rfl⟩
    exact alloc_inside_of_fits (e := env.answering ret) hx hrefl hf (by simp [h0])

theorem guarded_inside_iff {g F : Prop} [Decidable g] {q r : CoreM Nat}
    (h0 : m.dev.copies = []) (hr : ∀ env, (r.run env m).2 = m)
    (h : g → ((∀ ret, ∀ y ∈ (q.run (env.answering ret) m).2.dev.copies, y.inside) ↔ F)) :
    (∀ ret, ∀ y ∈ ((if g then q else r).run (env.answering ret) m).2.dev.copies, y.inside) ↔
      (g → F) := by
  by_cases hg : g
  · rw [if_pos hg, imp_iff_right hg]
    exact h hg
  · rw [if_neg hg]
    refine ⟨fun _ h' => absurd h' hg, fun _ ret y hy => ?_⟩
    rw [hr, h0] at hy
    simp at hy

theorem query_ite {α : Type} (g : Prop) [Decidable g] (q r : QueryM α) :
    query (if g then q else r) = if g then query q else query r := by
  split <;> rfl

theorem cuMemcpy_inside_iff (p : Nat → UInt8) (hx : m.tab.ctxGet k = some x)
    (h0 : m.dev.copies = []) :
    (∀ ret, ∀ y ∈ ((query (cuMemcpyPlan k e (memReq p))).run (env.answering ret)
      m).2.dev.copies, y.inside) ↔ RequestFits .cuMemcpy x e p := by
  unfold cuMemcpyPlan RequestFits
  by_cases h1 : (memReq p).kind = 1
  · simp only [if_pos h1, copyInPlan, query_ite]
    exact guarded_inside_iff h0 (fun _ => rfl) fun _ => loop_inside_iff .htod _ _ _ hx h0
  · by_cases h2 : (memReq p).kind = 2
    · simp only [if_neg h1, if_pos h2, copyOutPlan, query_ite]
      exact guarded_inside_iff h0 (fun _ => rfl) fun _ => loop_inside_iff .dtoh _ _ _ hx h0
    · simp only [if_neg h1, if_neg h2, iff_true]
      intro _ y hy
      rw [query_dev, Prog.pure_run, h0] at hy
      simp at hy

/-- Whatever CUDA answers, the copies of a request stay inside exactly when it fits. -/
theorem plan_inside_iff (c : CopyCmd) (hc : c ≠ .memcpy) (p : Nat → UInt8)
    (hx : m.tab.ctxGet k = some x) (h0 : m.dev.copies = []) :
    (∀ ret, ∀ y ∈ ((c.plan k e p).run (env.answering ret) m).2.dev.copies, y.inside) ↔
      RequestFits c x e p := by
  cases c with
  | memcpy => exact absurd rfl hc
  | cuMemcpy => exact cuMemcpy_inside_iff p hx h0
  | cuMemHostAlloc =>
    exact guarded_inside_iff h0 (fun _ => rfl) fun _ => allocLoop_inside_iff _ _ _ _ _ hx h0

theorem plan_copies_none (c : CopyCmd) (hc : c ≠ .memcpy) (p : Nat → UInt8)
    (hx : m.tab.ctxGet k = none) : ((c.plan k e p).run env m).2.dev.copies = m.dev.copies := by
  have loop (d : Dir) (dev stream : Nat) (cs : List Chunk) :
      ((query (Prog.firstError (chunkStep .cuMemcpy d k dev stream) cs)).run env m).2.dev.copies =
        m.dev.copies := by
    rw [query_dev]
    cases cs with
    | nil => rfl
    | cons ch cs => rw [Prog.firstError_cons, chunkStep_none hx]; rfl
  cases c with
  | memcpy => exact absurd rfl hc
  | cuMemcpy =>
    simp only [CopyCmd.plan, cuMemcpyPlan, copyInPlan, copyOutPlan]
    split
    · split
      · exact loop .htod _ _ _
      · rfl
    · split
      · split
        · exact loop .dtoh _ _ _
        · rfl
      · rfl
  | cuMemHostAlloc =>
    simp only [CopyCmd.plan, cuMemHostAllocPlan]
    split
    · rcases hostAllocChunks e with _ | ⟨ch, cs⟩
      · rfl
      · rw [Prog.firstError_cons]
        simp [coreCuMemHostAllocVq, withCtxM, hx]
    · rfl

theorem plan_answering (c : CopyCmd) (hc : c ≠ .memcpy) (e : Elem) (p : Nat → UInt8)
    (ret : Nat → LibCall → LibRet) :
    c.plan k (cmdEnv (env.answering ret) k e) p = c.plan k (cmdEnv env k e) p := by
  cases c with
  | memcpy => exact absurd rfl hc
  | cuMemcpy => rfl
  | cuMemHostAlloc => rfl

theorem hostCopies_eq {c : CopyCmd} (hc : c ≠ .memcpy) {e : Elem}
    (h : sizeof reqHeader ≤ e.reqLen) (hcode : reqHeader.cmdType.get (e.image m) = c.cmd.code)
    (ret : Nat → LibCall → LibRet) : hostCopies k e (env.answering ret) m =
      ((c.plan k (cmdEnv env k e) (cmdStart env e m).payload).run (env.answering ret)
        m.unlogged).2.dev.copies := by
  obtain ⟨served, hrun, -, -⟩ := processElem_copy c (m := m.unlogged) k (env.answering ret) h hcode
  rw [hostCopies, hrun, plan_answering c hc]
  rfl

/-- Every CPU copy of a pinned buffer stays inside it, whatever CUDA answers, exactly when
each chunk the request reaches fits the buffer of its first address. -/
theorem hostCopies_inside_iff (c : CopyCmd) (hc : c ≠ .memcpy) (k : Key) (e : Elem) (env : Env)
    (m : Machine) (h : sizeof reqHeader ≤ e.reqLen)
    (hcode : reqHeader.cmdType.get (e.image m) = c.cmd.code) :
    (∀ ret, ∀ y ∈ hostCopies k e (env.answering ret) m, y.inside) ↔
      ∀ x, m.tab.ctxGet k = some x →
        RequestFits c x (cmdEnv env k e) (cmdStart env e m).payload := by
  simp only [hostCopies_eq hc h hcode]
  rcases hx : m.tab.ctxGet k with _ | x
  · refine ⟨fun _ x h => by simp at h, fun _ ret y hy => ?_⟩
    rw [plan_copies_none (m := m.unlogged) c hc _ hx] at hy
    simp [Machine.unlogged] at hy
  · rw [plan_inside_iff (m := m.unlogged) c hc _ hx rfl]
    exact ⟨fun h y hy => Option.some.inj hy ▸ h, fun h => h x rfl⟩

end

/-- A session with a pinned buffer of one byte at 0x7000, and a request in memory to copy
`n` bytes there. -/
def onePinned (n : Nat) : Machine :=
  let entry : Resource := ⟨0x7000, 0x9000, 1⟩
  let request : MemReq := ⟨0x7000, 0, n, 1, 0⟩
  { Machine.start fun sp a => if sp = .req 0 then request.arg DrvCmd.cuMemcpy.code a else 0 with
    tab := ⟨[⟨⟨1, 1⟩, fun t => if t = .hostMem then [entry] else []⟩], 0x10000000⟩ }

def intoPinned (n : Nat) : Elem := memcpyElem 0 48 8 1 [⟨.ram, 4096, n⟩]

theorem hostCopies_inside_oneByte : hostCopies ⟨1, 1⟩ (intoPinned 1) .quiet (onePinned 1) ≠ [] ∧
    ∀ ret, ∀ y ∈ hostCopies ⟨1, 1⟩ (intoPinned 1) (Env.quiet.answering ret) (onePinned 1),
      y.inside := by
  refine ⟨by decide +kernel, ?_⟩
  refine (hostCopies_inside_iff .cuMemcpy (by decide) ⟨1, 1⟩ (intoPinned 1) .quiet (onePinned 1)
    (by decide) (by decide)).mpr fun x hx => ?_
  obtain rfl := Option.some.inj hx
  exact fun _ => by decide +kernel

theorem hostCopies_not_inside :
    ¬∀ y ∈ hostCopies ⟨1, 1⟩ (intoPinned 2) .quiet (onePinned 2), y.inside := by
  decide +kernel

end HmCuda