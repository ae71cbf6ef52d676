import HmCuda.Driver.Scatter
import HmCuda.System.Response

/-! The copies a memcpy ioctl submits: pages are batched and merged on the guest's side,
descriptors are cut into chunks and resolved on the host's, and every byte of the range
has one copy, from the byte it belongs to. -/

namespace HmCuda
open Layout AsyncCopy

def phys (pt : Nat → Nat) (u : Nat) : Space × Nat := (.ram, pt (u / pageSize) * pageSize + u % pageSize)

def Dir.pair (d : Dir) (dev : Nat) (host : Space × Nat) : (Space × Nat) × (Space × Nat) :=
  match d with
  | htod => ((.uva, dev), host)
  | dtoh => (host, (.uva, dev))

theorem copy_pairs (d : Dir) (p stream o : Nat) (v : Iov) :
    (d.copy p stream ⟨o, v, v.len⟩).pairs = (v.addrs.zipIdx p).map fun x => d.pair x.2 x.1 := by
  apply List.ext_getElem
  · cases d <;> simp [Dir.copy, Copy.pairs, Iov.addrs]
  · intro i h1 h2
    cases d <;> simp [Dir.copy, Copy.pairs, Iov.addrs, Dir.pair]

theorem tile_pairs (d : Dir) (p stream o : Nat) (vs : List Iov) :
    ((tile o vs).map fun ch => d.copy (p + ch.off) stream ch).flatMap Copy.pairs =
      ((vs.flatMap Iov.addrs).zipIdx (p + o)).map fun x => d.pair x.2 x.1 := by
  induction vs generalizing o with
  | nil => rfl
  | cons v vs ih =>
    have hlen : v.addrs.length = v.len := by simp [Iov.addrs]
    rw [tile, List.map_cons, List.flatMap_cons, ih, copy_pairs, List.flatMap_cons,
      List.zipIdx_append, List.map_append, hlen, Nat.add_assoc]

/-! Independence of the copies of a range -/

section
variable {S : Type}

theorem flatMap_dsts (cs : List (Copy S)) :
    cs.flatMap Copy.dsts = (cs.flatMap Copy.pairs).map Prod.fst := by
  induction cs with
  | nil => rfl
  | cons c cs ih =>
    rw [List.flatMap_cons, List.flatMap_cons, List.map_append, ih, c.map_fst_pairs]

theorem flatMap_srcs (cs : List (Copy S)) :
    cs.flatMap Copy.srcs = (cs.flatMap Copy.pairs).map Prod.snd := by
  induction cs with
  | nil => rfl
  | cons c cs ih =>
    rw [List.flatMap_cons, List.flatMap_cons, List.map_append, ih, c.map_snd_pairs]

end

def rangePairs (d : Dir) (real : Nat) (pt : Nat → Nat) (u n : Nat) :
    List ((Space × Nat) × (Space × Nat)) :=
  (List.range n).map fun i => d.pair (real + i) (phys pt (u + i))

/-- The user's pages have frames of their own. -/
def Separate (pt : Nat → Nat) (u n : Nat) : Prop :=
  ∀ i < n, ∀ j < n, pt ((u + i) / pageSize) = pt ((u + j) / pageSize) →
    (u + i) / pageSize = (u + j) / pageSize

theorem phys_inj {pt : Nat → Nat} {u n i j : Nat} (h : Separate pt u n) (hi : i < n) (hj : j < n)
    (he : phys pt (u + i) = phys pt (u + j)) : i = j := by
  have hpos : 0 < pageSize := by decide
  have h1 := Nat.mod_lt (u + i) hpos
  have h2 := Nat.mod_lt (u + j) hpos
  have he := (Prod.mk.inj he).2
  have hdiv (x y : Nat) (hy : y < pageSize) : (x * pageSize + y) / pageSize = x := by
    rw [Nat.mul_comm, Nat.mul_add_div hpos, Nat.div_eq_of_lt hy, Nat.add_zero]
  have hp : pt ((u + i) / pageSize) = pt ((u + j) / pageSize) := by
    rw [← hdiv (pt ((u + i) / pageSize)) _ h1, he, hdiv _ _ h2]
  have hpage := h i hi j hj hp
  rw [hp] at he
  have hm : (u + i) % pageSize = (u + j) % pageSize := by omega
  have e1 := Nat.div_add_mod (u + i) pageSize
  have e2 := Nat.div_add_mod (u + j) pageSize
  rw [hpage, hm] at e1
  omega

theorem independent_range {d : Dir} {real u n : Nat} {pt : Nat → Nat} (h : Separate pt u n)
    {cs : List (Copy Space)} (hcs : cs.flatMap Copy.pairs = rangePairs d real pt u n) :
    Independent cs := by
  apply Independent.of_nodup
  · rw [flatMap_dsts, hcs, rangePairs, List.map_map]
    refine List.Nodup.map_on (fun i hi j hj he => ?_) List.nodup_range
    have hi := List.mem_range.mp hi
    have hj := List.mem_range.mp hj
    cases d with
    | htod => exact Nat.add_left_cancel (Prod.mk.inj he).2
    | dtoh => exact phys_inj h hi hj he
  · rw [flatMap_dsts, flatMap_srcs, hcs, rangePairs]
    intro x hx hy
    simp only [List.map_map, List.mem_map, Function.comp_apply] at hx hy
    obtain ⟨i, -, rfl⟩ := hx
    obtain ⟨j, -, hj⟩ := hy
    cases d <;> cases (Prod.mk.inj hj).1

/-- The spaces that copies between host and device touch. -/
def Shared (sp : Space) : Prop := sp = .ram ∨ sp = .uva

theorem shared_copy {cs : List (Copy Space)} {l : List ((Space × Nat) × (Space × Nat))}
    (hl : ∀ x ∈ l, Shared x.1.1 ∧ Shared x.2.1) (hcs : cs.flatMap Copy.pairs = l)
    (hpos : ∀ c ∈ cs, 0 < c.len) : ∀ c ∈ cs, Shared c.src.1 ∧ Shared c.dst.1 := by
  intro c hc
  have hx : ((c.dst.1, c.dst.2 + 0), (c.src.1, c.src.2 + 0)) ∈ l := by
    rw [← hcs]
    exact List.mem_flatMap.mpr ⟨c, hc, List.mem_map.mpr ⟨0, List.mem_range.mpr (hpos c hc), rfl⟩⟩
  exact (hl _ hx).symm

theorem shared_rangePairs (d : Dir) (real : Nat) (pt : Nat → Nat) (u n : Nat) :
    ∀ x ∈ rangePairs d real pt u n, Shared x.1.1 ∧ Shared x.2.1 := by
  intro x hx
  obtain ⟨i, -, rfl⟩ := List.mem_map.mp hx
  cases d
  · exact ⟨.inr rfl, .inl rfl⟩
  · exact ⟨.inl rfl, .inr rfl⟩

/-! One chunk -/

/-- Once `f` has run over a range that held `m₀`, the copy `c` is submitted or has moved,
and the code is 0. -/
def Moves (q : QEnv) (m₀ : ByteMem Space) (f : QueryM Nat) (c : Copy Space) : Prop :=
  ∀ (v : Device) (cs : List (Copy Space)), Covers Shared m₀ cs v.eng →
    Independent (cs ++ [c]) → (∀ d ∈ cs ++ [c], Shared d.src.1 ∧ Shared d.dst.1) →
      (f.run q v).1 = 0 ∧ Covers Shared m₀ (cs ++ [c]) (f.run q v).2.eng

section
variable {q : QEnv} {m₀ : ByteMem Space}

theorem moves_copyAsync (hret : ∀ n c, (q.env.ret n c).code = 0) (fn : LibFn) (c : Copy Space) :
    Moves q m₀ (copyAsync fn c.dst c.src c.len c.tag) c := by
  intro v cs hcov hi hD
  have h0 := hret v.clock ⟨fn, [c.dst.2, c.src.2, c.len, c.tag], []⟩
  refine ⟨h0, ?_⟩
  have hs := (hcov.submit c).finishMany hi (fun d hd => (hD d hd).1) (q.env.dma v.clock)
  simp only [copyAsync, h0, if_true, Device.step_eng]
  exact hs

theorem firstError_moves {f : Chunk → QueryM Nat} {cp : Chunk → Copy Space}
    {chs : List Chunk} (hf : ∀ ch ∈ chs, Moves q m₀ (f ch) (cp ch)) {cs : List (Copy Space)}
    {v : Device} (hcov : Covers Shared m₀ cs v.eng) (hi : Independent (cs ++ chs.map cp))
    (hD : ∀ d ∈ cs ++ chs.map cp, Shared d.src.1 ∧ Shared d.dst.1) :
    ((Prog.firstError f chs).run q v).1 = 0 ∧
      Covers Shared m₀ (cs ++ chs.map cp) ((Prog.firstError f chs).run q v).2.eng := by
  induction chs generalizing cs v with
  | nil => exact ⟨rfl, by simpa using hcov⟩
  | cons ch chs ih =>
    have happ : cs ++ (ch :: chs).map cp = (cs ++ [cp ch]) ++ chs.map cp := by simp
    rw [happ] at hi hD ⊢
    obtain ⟨h0, h1⟩ := hf ch List.mem_cons_self v cs hcov
      (hi.sublist (List.sublist_append_left _ _)) fun d hd => hD d (List.mem_append_left _ hd)
    rw [Prog.firstError_cons, if_neg (not_not.mpr h0)]
    exact ih (fun x hx => hf x (List.mem_cons_of_mem _ hx)) h1 hi hD

end

theorem mem_tile {vs : List Iov} {o : Nat} {ch : Chunk} (h : ch ∈ tile o vs) :
    o ≤ ch.off ∧ ch.off + ch.len ≤ o + totalLen vs ∧ ch.iov ∈ vs ∧ ch.len = ch.iov.len := by
  induction vs generalizing o with
  | nil => cases h
  | cons v vs ih =>
    rw [totalLen_cons]
    rcases List.mem_cons.mp h with rfl | h
    · exact ⟨le_rfl, by dsimp only; omega, List.mem_cons_self, rfl⟩
    · obtain ⟨h1, h2, h3, h4⟩ := ih h
      exact ⟨by omega, by omega, List.mem_cons_of_mem _ h3, h4⟩

theorem tile_cons {vs : List Iov} (hne : vs ≠ []) (hpos : ∀ v ∈ vs, 0 < v.len) :
    ∃ ch chs, tile 0 vs = ch :: chs ∧ ch.off = 0 ∧
      ∀ x ∈ chs, 0 < x.off ∧ x.off + x.len ≤ totalLen vs := by
  rcases vs with _ | ⟨v, vs⟩
  · exact absurd rfl hne
  · have hv := hpos v List.mem_cons_self
    refine ⟨_, _, rfl, rfl, fun x hx => ?_⟩
    obtain ⟨h1, h2, -, -⟩ := mem_tile hx
    rw [totalLen_cons]
    exact ⟨by omega, by omega⟩

/-- Every chunk of a range of `n` bytes at `dev` that holds `m₀` moves from or to `real`. -/
def ChunksMove (m : MemCmd) (d : Dir) (k : Key) (q : QEnv) (m₀ : ByteMem Space)
    (dev n real stream tag : Nat) : Prop :=
  ∀ off ch, off + ch.off + ch.len ≤ n → 0 < ch.len →
    Moves q m₀ (chunkStep m d k (dev + off) stream ch) (d.copy (real + off + ch.off) tag ch)

theorem chunksMove_mem {m : MemCmd} {d : Dir} {k : Key} {dev n real stream : Nat}
    {q : QEnv} {c : Context} {m₀ : ByteMem Space} (hret : ∀ n c, (q.env.ret n c).code = 0)
    (hc : q.tab.ctxGet k = some c) (hwrap : dev + n < 2 ^ 64) (hpos : 0 < n → 0 < real)
    (hmem : ∀ i < n, c.resGet .mem (dev + i) = real + i) :
    ChunksMove m d k q m₀ dev n real stream (resolveStream c stream) := by
  intro off ch hle hlen
  have hadd : add64 (dev + off) ch.off = dev + (off + ch.off) := by
    rw [add64_of_lt (by omega), Nat.add_assoc]
  have hres := hmem (off + ch.off) (by omega)
  have hne : c.resGet .mem (add64 (dev + off) ch.off) ≠ 0 := by
    have hreal := hpos (by omega)
    rw [hadd, hres]
    omega
  intro v cs hcov hi hD
  rw [chunkStep_mem hc hne, hadd, hres, ← Nat.add_assoc]
  cases d
  · exact moves_copyAsync hret _ _ v cs hcov hi hD
  · exact moves_copyAsync hret _ _ v cs hcov hi hD

theorem chunkLoop_synced {m : MemCmd} {d : Dir} {k : Key} {dev stream : Nat} {q : QEnv}
    {c : Context} {v : Device} {chs : List Chunk} (hc : q.tab.ctxGet k = some c)
    (hret : ∀ n, (q.env.ret n ⟨.cudaStreamSynchronize, [resolveStream c stream], []⟩).code = 0)
    (hs : m.syncs d = true)
    (h0 : ((Prog.firstError (chunkStep m d k dev stream) chs).run q v).1 = 0) :
    ∀ x ∈ ((chunkLoop m d k dev stream chs).run q v).2.eng.pending,
      x.tag ≠ resolveStream c stream := by
  intro x hx
  unfold chunkLoop at hx
  have hmod : (0 : Nat) % 2 ^ 32 = 0 := rfl
  simp only [Prog.bind_run, hs, if_true, h0, thenSync, hmod, coreStreamSynchronize, withCtx_run hc,
    streamSync, sync_run] at hx
  rw [resolveRuntimeStream_eq, if_pos (hret _)] at hx
  have hx := AsyncCopy.Engine.finishMany_pending_subset _ _ hx
  have hf := (List.mem_filter.mp hx).2
  simpa using hf

theorem chunkLoop_moves {m : MemCmd} {d : Dir} {k : Key} {dev n real stream off : Nat} {q : QEnv}
    {c : Context} {m₀ : ByteMem Space} {cs : List (Copy Space)} {v : Device} {vs : List Iov}
    (hret : ∀ n c, (q.env.ret n c).code = 0) (hc : q.tab.ctxGet k = some c)
    (ht : ChunksMove m d k q m₀ dev n real stream (resolveStream c stream))
    (hn : off + totalLen vs ≤ n) (hpos : ∀ w ∈ vs, 0 < w.len) (hcov : Covers Shared m₀ cs v.eng)
    (hi : Independent (cs ++ (tile 0 vs).map fun ch =>
      d.copy (real + off + ch.off) (resolveStream c stream) ch))
    (hD : ∀ x ∈ cs ++ (tile 0 vs).map fun ch =>
      d.copy (real + off + ch.off) (resolveStream c stream) ch, Shared x.src.1 ∧ Shared x.dst.1) :
    ((chunkLoop m d k (dev + off) stream (tile 0 vs)).run q v).1 = 0 ∧
      Covers Shared m₀ (cs ++ (tile 0 vs).map fun ch =>
        d.copy (real + off + ch.off) (resolveStream c stream) ch)
          ((chunkLoop m d k (dev + off) stream (tile 0 vs)).run q v).2.eng ∧
      (m.syncs d = true → ∀ x ∈ ((chunkLoop m d k (dev + off) stream
        (tile 0 vs)).run q v).2.eng.pending, x.tag ≠ resolveStream c stream) := by
  have hmoves (ch : Chunk) (hch : ch ∈ tile 0 vs) :
      Moves q m₀ (chunkStep m d k (dev + off) stream ch)
        (d.copy (real + off + ch.off) (resolveStream c stream) ch) := by
    obtain ⟨-, h2, h3, h4⟩ := mem_tile hch
    exact ht off ch (by omega) (h4 ▸ hpos _ h3)
  obtain ⟨h0, h1⟩ := firstError_moves hmoves hcov hi hD
  refine and_assoc.mp ⟨?_, fun hs => chunkLoop_synced hc (fun n => hret n _) hs h0⟩
  unfold chunkLoop
  rw [Prog.bind_run]
  split
  · rw [h0]
    have hmod : (0 : Nat) % 2 ^ 32 = 0 := rfl
    simp only [thenSync, hmod, if_true, coreStreamSynchronize, withCtx_run hc, streamSync, sync_run,
      hret, Device.step_eng]
    exact ⟨trivial, (h1.drain hi (fun x hx => (hD x hx).1) _).finishMany hi
      (fun x hx => (hD x hx).1) _⟩
  · exact ⟨h0, h1⟩

end HmCuda
