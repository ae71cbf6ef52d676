import HmCuda.Host.Process

/-! The copy commands as one backend operation each: the plan a request selects, and
that the handler runs it and answers its code. -/

namespace HmCuda
open Layout

structure MemReq where
  dst : Nat
  src : Nat
  count : Nat
  kind : Nat
  stream : Nat
  deriving DecidableEq, Repr

def memReq (p : Nat → UInt8) : MemReq where
  dst := memcpyReq.dst.get p
  src := memcpyReq.src.get p
  count := memcpyReq.count.get p
  kind := memcpyReq.kind.get p
  stream := memcpyReq.stream.get p

theorem memReq_count_lt (p : Nat → UInt8) : (memReq p).count < 2 ^ 64 :=
  memcpyReq.count.get_lt p

section
variable {p : Nat → UInt8} {r : MemReq} (h : memReq p = r)
include h

theorem MemReq.dst_eq : memcpyReq.dst.get p = r.dst := h ▸ rfl
theorem MemReq.src_eq : memcpyReq.src.get p = r.src := h ▸ rfl
theorem MemReq.count_eq : memcpyReq.count.get p = r.count := h ▸ rfl
theorem MemReq.kind_eq : memcpyReq.kind.get p = r.kind := h ▸ rfl
theorem MemReq.stream_eq : memcpyReq.stream.get p = r.stream := h ▸ rfl

end

def copyInPlan (e : CmdEnv) (count : Nat) (f : Chunk → QueryM Nat) : QueryM Nat :=
  if 2 ≤ e.elem.outSg.length ∧
      count ≤ sub64 e.totalOutLen (sizeof reqHeader + sizeof memcpyReq) then
    Prog.firstError f (chunks count e.elem.outSg.tail)
  else pure 1

def copyOutPlan (e : CmdEnv) (count : Nat) (f : Chunk → QueryM Nat)
    (after : Nat → QueryM Nat) : QueryM Nat :=
  if 2 ≤ e.elem.inSg.length ∧ count ≤ sum64 (e.elem.inSg.dropLast.map (·.len)) then do
    after (← Prog.firstError f (chunks count e.elem.inSg.dropLast))
  else pure 1

def legacyPlan (e : CmdEnv) (gpa count : Nat) (f : Space × Nat → QueryM Nat) : QueryM Nat :=
  match e.env.gpaToVa gpa count with
  | none => pure 1
  | some (hostPtr, plen) => if plen < count then pure 1 else f hostPtr

def thenSync (k : Key) (stream err : Nat) : QueryM Nat :=
  if err % 2 ^ 32 = 0 then coreStreamSynchronize k stream else pure err

def memcpyPlan (k : Key) (e : CmdEnv) (r : MemReq) : QueryM Nat :=
  if r.kind = 1 then
    if r.src = 0 then
      copyInPlan e r.count fun c =>
        coreRuntimeMemcpyHtodVq k (add64 r.dst c.off) (c.iov.sp, c.iov.base) c.len r.stream
    else
      legacyPlan e r.src r.count fun hp => coreMemcpy k r.dst 0 r.count r.kind (some hp) r.stream
  else if r.kind = 2 then
    if r.dst = 0 then
      copyOutPlan e r.count (fun c =>
        coreMemcpy k 0 (add64 r.src c.off) c.len r.kind (some (c.iov.sp, c.iov.base)) r.stream)
        (thenSync k r.stream)
    else
      legacyPlan e r.dst r.count fun hp => do
        thenSync k r.stream (← coreMemcpy k 0 r.src r.count r.kind (some hp) r.stream)
  else coreMemcpy k r.dst r.src r.count r.kind none r.stream

def cuMemcpyPlan (k : Key) (e : CmdEnv) (r : MemReq) : QueryM Nat :=
  if r.kind = 1 then
    copyInPlan e r.count fun c =>
      coreCuMemcpyHtodVq k (add64 r.dst c.off) (c.iov.sp, c.iov.base) c.len r.stream
  else if r.kind = 2 then
    copyOutPlan e r.count (fun c =>
      coreCuMemcpyDtohVq k (add64 r.src c.off) (c.iov.sp, c.iov.base) c.len r.stream) pure
  else pure 1

/-- From `s` to `s'` the handler ran `q` on the backend and answered its code. -/
structure Ran (e : CmdEnv) (q : CoreM Nat) (d2h : Bool) (s s' : CmdSt) : Prop where
  be : s'.be = (q.run e.env s.be).2
  err : s'.err = (q.run e.env s.be).1 % 2 ^ 32
  resp : s'.resp = s.resp
  d2h : s'.d2h = d2h

/-- `s'` differs from `s` in the record of accesses only. -/
structure CmdSt.SameReq (s s' : CmdSt) : Prop where
  be : s'.be = s.be
  payload : s'.payload = s.payload
  resp : s'.resp = s.resp
  err : s'.err = s.err
  d2h : s'.d2h = s.d2h

section
variable {e : CmdEnv} {q : CoreM Nat} {d : Bool} {s s' : CmdSt} {r : MemReq}

theorem Ran.read {f : Field} {g : Nat → CmdM Unit}
    (h : ∀ s', s.SameReq s' → Ran e q d s' ((g (f.get s.payload)).run e s').2) :
    Ran e q d s ((req f >>= g).run e s).2 :=
  let h' := h ((req f).run e s).2 ⟨rfl, rfl, rfl, rfl, rfl⟩
  ⟨h'.be, h'.err, h'.resp, h'.d2h⟩

theorem Ran.withKey {g : Key → CmdM Unit} (h : Ran e q d s ((g e.key).run e s).2) :
    Ran e q d s ((key >>= g).run e s).2 := h

theorem Ran.withEnv {g : CmdEnv → CmdM Unit} (h : Ran e q d s ((g e).run e s).2) :
    Ran e q d s ((Prog.ask >>= g).run e s).2 := h

theorem CmdSt.SameReq.memReq (h : s.SameReq s') (hr : memReq s.payload = r) :
    memReq s'.payload = r := h.payload ▸ hr

theorem setErr_ran (s : CmdSt) (n : Nat) :
    Ran e (query (pure n)) s.d2h s ((setErr n).run e s).2 := ⟨rfl, rfl, rfl, rfl⟩

theorem answer_ran (s : CmdSt) : Ran e q s.d2h s ((answer q).run e s).2 := ⟨rfl, rfl, rfl, rfl⟩

theorem transfer_ran (s : CmdSt) (dev : Field) (f : Nat → Nat → Chunk → QueryM Nat)
    (cs : List Chunk) :
    Ran e (query (Prog.firstError (f (dev.get s.payload) (memcpyReq.stream.get s.payload)) cs))
      s.d2h s ((transfer dev f cs).run e s).2 := by
  unfold transfer
  by_cases h : cs = []
  · subst h
    exact ⟨rfl, rfl, rfl, rfl⟩
  · constructor <;> simp [h]

theorem transfer_payload (s : CmdSt) (dev : Field) (f : Nat → Nat → Chunk → QueryM Nat)
    (cs : List Chunk) : ((transfer dev f cs).run e s).2.payload = s.payload := by
  unfold transfer
  by_cases h : cs = [] <;> simp [h]

theorem copyIn_ran (hr : memReq s.payload = r) (f : Nat → Nat → Chunk → QueryM Nat) :
    Ran e (query (copyInPlan e r.count (f r.dst r.stream))) s.d2h s ((copyIn f).run e s).2 := by
  unfold copyIn copyInPlan
  refine Ran.withEnv ?_
  rw [Prog.ite_run]
  by_cases h1 : 2 ≤ e.elem.outSg.length
  · rw [if_pos h1]
    refine Ran.read fun s' hs => ?_
    rw [Prog.ite_run, MemReq.count_eq hr, ← hs.d2h]
    have hr' := hs.memReq hr
    by_cases h2 : sub64 e.totalOutLen (sizeof reqHeader + sizeof memcpyReq) ≥ r.count
    · rw [if_pos ⟨h1, h2⟩, if_pos h2, ← MemReq.dst_eq hr', ← MemReq.stream_eq hr']
      exact transfer_ran s' memcpyReq.dst f _
    · rw [if_neg fun h => h2 h.2, if_neg h2]
      exact setErr_ran s' 1
  · rw [if_neg fun h => h1 h.1, if_neg h1]
    exact setErr_ran s 1

theorem Ran.bind {q : QueryM Nat} {then' : Nat → QueryM Nat} {d d' : Bool} {s₁ s₂ : CmdSt}
    (h : Ran e (query q) d s s₁)
    (h' : Ran e (query (then' (q.run ⟨e.env, s.be.tab⟩ s.be.dev).1)) d' s₁ s₂) :
    Ran e (query (q >>= then')) d' s s₂ := by
  have hb : s₁.be.tab = s.be.tab := by rw [h.be]; rfl
  have hd : s₁.be.dev = (q.run ⟨e.env, s.be.tab⟩ s.be.dev).2 := by rw [h.be]; rfl
  refine ⟨?_, ?_, h'.resp.trans h.resp, h'.d2h⟩
  · rw [h'.be]
    simp only [query, Prog.bind_run, h.be]
  · rw [h'.err]
    simp only [query, hb, hd, Prog.bind_run]

theorem Ran.marked {g : CmdM Unit} (h : ∀ s', s'.d2h = true → s'.payload = s.payload →
    Ran e q d s' (g.run e s').2) : Ran e q d s ((do setD2h; g : CmdM Unit).run e s).2 :=
  let h' := h (setD2h.run e s).2 rfl rfl
  ⟨h'.be, h'.err, h'.resp, h'.d2h⟩

theorem copyOut_ran (hr : memReq s.payload = r) (f : Nat → Nat → Chunk → QueryM Nat)
    {after : CmdM Unit} {then' : Nat → QueryM Nat}
    (ha : ∀ s' n, memReq s'.payload = r → s'.err = n % 2 ^ 32 →
      Ran e (query (then' n)) s'.d2h s' (after.run e s').2) :
    Ran e (query (copyOutPlan e r.count (f r.src r.stream) then')) true s
      ((copyOut f after).run e s).2 := by
  unfold copyOut copyOutPlan
  refine Ran.marked fun s₁ hd₁ hp₁ => ?_
  have hr₁ : memReq s₁.payload = r := hp₁ ▸ hr
  refine Ran.withEnv ?_
  rw [Prog.ite_run]
  by_cases h1 : 2 ≤ e.elem.inSg.length
  · rw [if_pos h1]
    refine Ran.read fun s₂ hs => ?_
    have hr₂ := hs.memReq hr₁
    rw [Prog.ite_run, MemReq.count_eq hr₁, ← hd₁, ← hs.d2h]
    by_cases h2 : sum64 (e.elem.inSg.dropLast.map (·.len)) ≥ r.count
    · rw [if_pos ⟨h1, h2⟩, if_pos h2, Prog.bind_run, ← MemReq.src_eq hr₂, ← MemReq.stream_eq hr₂]
      have ht := transfer_ran (e := e) s₂ memcpyReq.src f (chunks r.count e.elem.inSg.dropLast)
      have hp := transfer_payload (e := e) s₂ memcpyReq.src f (chunks r.count e.elem.inSg.dropLast)
      have hs' := ha _ _ (hp ▸ hr₂) ht.err
      rw [ht.d2h] at hs'
      exact Ran.bind ht hs'
    · rw [if_neg fun h => h2 h.2, if_neg h2]
      exact setErr_ran s₂ 1
  · rw [if_neg fun h => h1 h.1, if_neg h1, ← hd₁]
    exact setErr_ran s₁ 1

theorem copyLegacy_ran (hr : memReq s.payload = r) (gpa : Nat)
    (f : Nat → Space × Nat → CmdM Unit) {g : Space × Nat → QueryM Nat}
    (hf : ∀ s' hp, memReq s'.payload = r →
      Ran e (query (g hp)) s'.d2h s' ((f r.count hp).run e s').2) :
    Ran e (query (legacyPlan e gpa r.count g)) s.d2h s ((copyLegacy gpa f).run e s).2 := by
  unfold copyLegacy legacyPlan
  refine Ran.read fun s' hs => Ran.withEnv ?_
  rw [MemReq.count_eq hr, ← hs.d2h]
  rcases e.env.gpaToVa gpa r.count with _ | ⟨hp, plen⟩
  · exact setErr_ran s' 1
  · simp only [Prog.ite_run]
    by_cases h : plen < r.count
    · rw [if_pos h, if_pos h]
      exact setErr_ran s' 1
    · rw [if_neg h, if_neg h]
      exact hf s' hp (hs.memReq hr)

theorem syncAfter_ran (hr : memReq s.payload = r) {n : Nat} (h : s.err = n % 2 ^ 32) :
    Ran e (query (thenSync e.key r.stream n)) s.d2h s (syncAfter.run e s).2 := by
  unfold syncAfter thenSync
  rw [Prog.bind_run, Prog.get_run, Prog.ite_run, h]
  by_cases h0 : n % 2 ^ 32 = 0
  · rw [if_pos h0, if_pos h0, Prog.bind_run, key_run]
    refine Ran.read fun s' hs => ?_
    rw [MemReq.stream_eq hr, ← hs.d2h]
    exact answer_ran s'
  · rw [if_neg h0, if_neg h0]
    exact ⟨rfl, h, rfl, rfl⟩

/-- `handle_memcpy` runs its plan; a device-to-host request through the queue also
marks the response. -/
theorem handleMemcpy_ran (hr : memReq s.payload = r) :
    Ran e (query (memcpyPlan e.key e r)) (s.d2h || decide (r.kind = 2 ∧ r.dst = 0)) s
      (handleMemcpy.run e s).2 := by
  unfold handleMemcpy memcpyPlan
  refine Ran.withKey (Ran.read fun s₁ hs₁ => ?_)
  have hr₁ := hs₁.memReq hr
  rw [MemReq.kind_eq hr, Prog.ite_run, ← hs₁.d2h]
  by_cases h1 : r.kind = 1
  · have hd : (s₁.d2h || decide (r.kind = 2 ∧ r.dst = 0)) = s₁.d2h := by simp [h1]
    rw [if_pos h1, if_pos h1, hd]
    refine Ran.read fun s₂ hs₂ => ?_
    have hr₂ := hs₂.memReq hr₁
    rw [MemReq.src_eq hr₁, Prog.ite_run, ← hs₂.d2h]
    by_cases h2 : r.src = 0
    · rw [if_pos h2, if_pos h2]
      exact copyIn_ran hr₂ fun dst stream c =>
        coreRuntimeMemcpyHtodVq e.key (add64 dst c.off) (c.iov.sp, c.iov.base) c.len stream
    · rw [if_neg h2, if_neg h2]
      refine copyLegacy_ran hr₂ r.src _ fun s₃ hp hr₃ => ?_
      refine Ran.read fun s₄ hs₄ => Ran.read fun s₅ hs₅ => ?_
      rw [MemReq.dst_eq hr₃, MemReq.stream_eq (hs₄.memReq hr₃), ← hs₄.d2h, ← hs₅.d2h]
      exact answer_ran s₅
  rw [if_neg h1, if_neg h1]
  by_cases h2 : r.kind = 2
  · rw [Prog.ite_run, if_pos h2, if_pos h2]
    refine Ran.read fun s₂ hs₂ => ?_
    have hr₂ := hs₂.memReq hr₁
    rw [MemReq.dst_eq hr₁, Prog.ite_run]
    by_cases h3 : r.dst = 0
    · rw [if_pos h3, if_pos h3, decide_eq_true ⟨h2, h3⟩, Bool.or_true]
      exact copyOut_ran hr₂ (fun src stream c =>
        coreMemcpy e.key 0 (add64 src c.off) c.len r.kind (some (c.iov.sp, c.iov.base)) stream)
        fun s' n hr' hn => syncAfter_ran hr' hn
    · rw [if_neg h3, if_neg h3, decide_eq_false fun h => h3 h.2, Bool.or_false, ← hs₂.d2h]
      refine copyLegacy_ran hr₂ r.dst _ fun s₃ hp hr₃ => ?_
      refine Ran.read fun s₄ hs₄ => Ran.read fun s₅ hs₅ => ?_
      have hr₅ := hs₅.memReq (hs₄.memReq hr₃)
      rw [MemReq.src_eq hr₃, MemReq.stream_eq (hs₄.memReq hr₃), ← hs₄.d2h, ← hs₅.d2h]
      -- the synchronize comes behind the copy and does not run if the copy failed
      let q := query (coreMemcpy e.key 0 r.src r.count r.kind (some hp) r.stream)
      have ha := answer_ran (e := e) (q := q) s₅
      have hb := syncAfter_ran (e := e) (s := ((answer q).run e s₅).2) hr₅ ha.err
      rw [ha.d2h] at hb
      exact Ran.bind ha hb
  · rw [Prog.ite_run, if_neg h2, if_neg h2, decide_eq_false fun h => h2 h.1, Bool.or_false]
    refine Ran.read fun s₂ hs₂ => Ran.read fun s₃ hs₃ => ?_
    refine Ran.read fun s₄ hs₄ => Ran.read fun s₅ hs₅ => ?_
    have hr₂ := hs₂.memReq hr₁
    have hr₃ := hs₃.memReq hr₂
    rw [MemReq.dst_eq hr₁, MemReq.src_eq hr₂, MemReq.count_eq hr₃,
      MemReq.stream_eq (hs₄.memReq hr₃), ← hs₂.d2h, ← hs₃.d2h, ← hs₄.d2h, ← hs₅.d2h]
    exact answer_ran s₅

theorem handleCuMemcpy_ran (hr : memReq s.payload = r) :
    Ran e (query (cuMemcpyPlan e.key e r)) (s.d2h || decide (r.kind = 2)) s
      (handleCuMemcpy.run e s).2 := by
  unfold handleCuMemcpy cuMemcpyPlan
  refine Ran.withKey (Ran.read fun s₁ hs₁ => ?_)
  have hr₁ := hs₁.memReq hr
  rw [MemReq.kind_eq hr, Prog.ite_run, ← hs₁.d2h]
  by_cases h1 : r.kind = 1
  · have hd : (s₁.d2h || decide (r.kind = 2)) = s₁.d2h := by simp [h1]
    rw [if_pos h1, if_pos h1, hd]
    exact copyIn_ran hr₁ fun dst stream c =>
      coreCuMemcpyHtodVq e.key (add64 dst c.off) (c.iov.sp, c.iov.base) c.len stream
  rw [if_neg h1, if_neg h1, Prog.ite_run]
  by_cases h2 : r.kind = 2
  · rw [if_pos h2, if_pos h2, decide_eq_true h2, Bool.or_true]
    exact copyOut_ran hr₁ (fun src stream c =>
      coreCuMemcpyDtohVq e.key (add64 src c.off) (c.iov.sp, c.iov.base) c.len stream)
      fun s' n _ hn => ⟨rfl, hn, rfl, rfl⟩
  · rw [if_neg h2, if_neg h2, decide_eq_false h2, Bool.or_false]
    exact setErr_ran s₁ 1

/-- The chunks of a pinned allocation, in whole descriptors. -/
def hostAllocChunks (e : CmdEnv) : List Chunk :=
  chunksFrom (fun _ len => len) (sub64 e.totalOutLen (sizeof reqHeader + sizeof cuMemHostAllocReq))
    0 e.elem.outSg.tail

def cuMemHostAllocPlan (k : Key) (e : CmdEnv) (p : Nat → UInt8) : CoreM Nat :=
  if 2 ≤ e.elem.outSg.length then
    Prog.firstError (fun c => coreCuMemHostAllocVq k (cuMemHostAllocReq.bytesize.get p)
      (cuMemHostAllocReq.flags.get p) (cuMemHostAllocReq.guestVa.get p)
      (add64 (cuMemHostAllocReq.byteOffset.get p) c.off) (c.iov.sp, c.iov.base) c.len)
      (hostAllocChunks e)
  else pure 1

theorem handleCuMemHostAlloc_ran :
    Ran e (cuMemHostAllocPlan e.key e s.payload) s.d2h s (handleCuMemHostAlloc.run e s).2 := by
  unfold handleCuMemHostAlloc cuMemHostAllocPlan
  refine Ran.withKey (Ran.withEnv ?_)
  rw [Prog.ite_run]
  by_cases h1 : 2 ≤ e.elem.outSg.length
  · rw [if_pos h1, if_pos h1]
    by_cases h2 : hostAllocChunks e = []
    · have h2' := h2
      unfold hostAllocChunks at h2'
      simp only [h2, h2', ne_eq, not_true_eq_false, if_false]
      exact ⟨rfl, rfl, rfl, rfl⟩
    · have h2' := h2
      unfold hostAllocChunks at h2'
      simp only [h2', ne_eq, not_false_eq_true, if_true]
      constructor <;> simp [hostAllocChunks]
  · rw [if_neg h1, if_neg h1]
    exact setErr_ran s 1

end
/-! The chunk loop -/

def tile : Nat → List Iov → List Chunk
  | _, [] => []
  | off, v :: vs => ⟨off, v, v.len⟩ :: tile (off + v.len) vs

def totalLen (vs : List Iov) : Nat := (vs.map (·.len)).sum

@[simp] theorem totalLen_nil : totalLen [] = 0 := rfl

@[simp] theorem totalLen_cons (v : Iov) (vs : List Iov) :
    totalLen (v :: vs) = v.len + totalLen vs := by
  simp [totalLen]

theorem foldl_add64 (ns : List Nat) (n : Nat) (h : n + ns.sum < 2 ^ 64) :
    ns.foldl add64 n = n + ns.sum := by
  induction ns generalizing n with
  | nil => rfl
  | cons m ns ih =>
    rw [List.sum_cons] at h ⊢
    rw [List.foldl_cons, add64_of_lt (by omega), ih _ (by omega), Nat.add_assoc]

theorem sum64_map_len {vs : List Iov} (h : totalLen vs < 2 ^ 64) :
    sum64 (vs.map (·.len)) = totalLen vs := by
  rw [sum64, foldl_add64 _ _ (by rwa [Nat.zero_add]), Nat.zero_add, totalLen]

theorem chunksFrom_whole {cut : Nat → Nat → Nat} {count off : Nat} {vs : List Iov}
    (hcut : ∀ off len, off + len ≤ count → cut off len = len) (hpos : ∀ v ∈ vs, 0 < v.len)
    (hsum : off + totalLen vs = count) (hc : count < 2 ^ 64) :
    chunksFrom cut count off vs = tile off vs := by
  induction vs generalizing off with
  | nil => rfl
  | cons v vs ih =>
    rw [totalLen_cons] at hsum
    have hv := hpos v List.mem_cons_self
    have hadd : add64 off v.len = off + v.len := add64_of_lt (by omega)
    rw [chunksFrom, if_pos (by omega), hcut _ _ (by omega)]
    dsimp only
    rw [hadd, tile]
    exact congrArg _ (ih (fun w hw => hpos w (List.mem_cons_of_mem _ hw)) (by omega))

theorem cutAt_of_le {count off len : Nat} (h : off + len ≤ count) (hc : count < 2 ^ 64) :
    cutAt count off len = len := by
  rw [cutAt, add64_of_lt (by omega), if_neg (by omega)]

theorem chunksFrom_tile {count off : Nat} {vs : List Iov} (hpos : ∀ v ∈ vs, 0 < v.len)
    (hsum : off + totalLen vs = count) (hc : count < 2 ^ 64) :
    chunksFrom (cutAt count) count off vs = tile off vs :=
  chunksFrom_whole (fun _ _ h => cutAt_of_le h hc) hpos hsum hc

section
variable {e : CmdEnv} {v : Iov} {data : List Iov} (hne : data ≠ [])
  (hpos : ∀ w ∈ data, 0 < w.len) (hlt : sizeof reqHeader + sizeof memcpyReq + totalLen data < 2 ^ 64)
include hne hpos hlt

theorem copyInPlan_tile (ho : e.elem.outSg = v :: data)
    (hv : v.len = sizeof reqHeader + sizeof memcpyReq)
    (htot : e.totalOutLen = sum64 (e.elem.outSg.map (·.len))) (f : Chunk → QueryM Nat) :
    copyInPlan e (totalLen data) f = Prog.firstError f (tile 0 data) := by
  have hall : totalLen (v :: data) = sizeof reqHeader + sizeof memcpyReq + totalLen data := by
    rw [totalLen_cons, hv]
  have hsum : e.totalOutLen = sizeof reqHeader + sizeof memcpyReq + totalLen data := by
    rw [htot, ho, sum64_map_len (by omega), hall]
  have hlen : 2 ≤ e.elem.outSg.length := by
    have := List.length_pos_of_ne_nil hne
    rw [ho, List.length_cons]
    omega
  have hle : totalLen data ≤ sub64 e.totalOutLen (sizeof reqHeader + sizeof memcpyReq) := by
    rw [hsum, sub64_of_le (Nat.le_add_right _ _) hlt]
    omega
  rw [copyInPlan, if_pos ⟨hlen, hle⟩, ho, List.tail_cons, chunks,
    chunksFrom_tile hpos (Nat.zero_add _) (by omega)]

theorem copyOutPlan_tile (hi : e.elem.inSg = data ++ [v]) (f : Chunk → QueryM Nat)
    (after : Nat → QueryM Nat) : copyOutPlan e (totalLen data) f after = (do
      after (← Prog.firstError f (tile 0 data))) := by
  have hlen : 2 ≤ e.elem.inSg.length := by
    have := List.length_pos_of_ne_nil hne
    rw [hi, List.length_append, List.length_singleton]
    omega
  have hle : totalLen data ≤ sum64 (e.elem.inSg.dropLast.map (·.len)) := by
    rw [hi, List.dropLast_concat, sum64_map_len (by omega)]
  rw [copyOutPlan, if_pos ⟨hlen, hle⟩, hi, List.dropLast_concat, chunks,
    chunksFrom_tile hpos (Nat.zero_add _) (by omega)]

end
end HmCuda
