import HmCuda.General.Trace
import HmCuda.System.HostAllocFill
import HmCuda.System.StaleHandles

/-! A transfer that meets an error: its first error is the caller's, nothing is submitted behind
it, and the chunks before it are a prefix of the transfer. -/

namespace HmCuda
open Layout AsyncCopy

/-- What a transfer does on the backend: a batch arrives, a chunk is copied, or the stream is
synchronized behind the chunks of a batch. -/
inductive Piece where
  | batch (el : Elem)
  | chunk (ch : Chunk)
  | sync

namespace Piece

/-- A chunk is placed by its offset in the whole transfer. -/
def prog (m : MemCmd) (d : Dir) (k : Key) (dev stream : Nat) : Piece → QueryM Nat
  | batch _ => pure 0
  | chunk ch => chunkStep m d k dev stream ch
  | sync => coreStreamSynchronize k stream

def elem? : Piece → Option Elem
  | batch el => some el
  | _ => none

def chunk? : Piece → Option Chunk
  | chunk ch => some ch
  | _ => none

end Piece

def batchesOf (t : List (Piece × Nat)) : List Elem := (t.map Prod.fst).filterMap Piece.elem?

def chunksOf (t : List (Piece × Nat)) : List Chunk := (t.map Prod.fst).filterMap Piece.chunk?

def Chunk.bytes (ch : Chunk) : List (Nat × Space × Nat) :=
  (List.range ch.len).map fun i => (ch.off + i, ch.iov.sp, ch.iov.base + i)

/-- The chunks have the first `k` bytes of the transfer, each once and at its place. -/
structure UpTo (pt : Nat → Nat) (u k : Nat) (chs : List Chunk) : Prop where
  bytes : chs.flatMap Chunk.bytes = (List.range k).map fun i => (i, phys pt (u + i))
  pos : ∀ ch ∈ chs, 0 < ch.len

/-! The places of chunks -/

section
variable {pt : Nat → Nat} {u k off : Nat} {chs rest : List Chunk} {vs : List Iov}

theorem tile_bytes (h : vs.flatMap Iov.addrs =
      (List.range (totalLen vs)).map fun i => phys pt (u + off + i)) :
    (tile off vs).flatMap Chunk.bytes =
      (List.range (totalLen vs)).map fun i => (off + i, phys pt (u + (off + i))) := by
  induction vs generalizing off with
  | nil => rfl
  | cons v vs ih =>
    rw [totalLen_cons, List.range_add, List.map_append, List.map_map, List.flatMap_cons] at h
    obtain ⟨hv, hvs⟩ := List.append_inj h (by simp [Iov.addrs])
    have hchunk : Chunk.bytes ⟨off, v, v.len⟩ =
        (List.range v.len).map fun i => (off + i, phys pt (u + (off + i))) := by
      refine List.map_congr_left fun i hi => ?_
      rw [← Nat.add_assoc]
      exact congrArg _ (List.map_inj_left.mp hv i hi)
    have hshift : vs.flatMap Iov.addrs =
        (List.range (totalLen vs)).map fun i => phys pt (u + (off + v.len) + i) := by
      rw [hvs]
      simp only [Function.comp_def, Nat.add_assoc]
    rw [tile, List.flatMap_cons, hchunk, ih hshift, totalLen_cons, List.range_add, List.map_append,
      List.map_map]
    simp only [Function.comp_def, Nat.add_assoc]

theorem tile_shift (off o : Nat) (vs : List Iov) :
    tile (off + o) vs = (tile o vs).map fun ch => ⟨off + ch.off, ch.iov, ch.len⟩ := by
  induction vs generalizing o with
  | nil => rfl
  | cons v vs ih => rw [tile, tile, Nat.add_assoc, ih, List.map_cons]

theorem UpTo.tile (h : UpTo pt u off chs) (hpos : ∀ v ∈ vs, 0 < v.len)
    (haddr : vs.flatMap Iov.addrs = (List.range (totalLen vs)).map fun i => phys pt (u + off + i)) :
    UpTo pt u (off + totalLen vs) (chs ++ tile off vs) := by
  refine ⟨?_, fun ch hch => ?_⟩
  · rw [List.flatMap_append, h.bytes, tile_bytes haddr, List.range_add, List.map_append,
      List.map_map]
    rfl
  · rcases List.mem_append.mp hch with hch | hch
    · exact h.pos ch hch
    · obtain ⟨-, -, h3, h4⟩ := mem_tile hch
      rw [h4]
      exact hpos _ h3

theorem UpTo.unique {j : Nat} (h : UpTo pt u k chs) (h' : UpTo pt u j chs) : k = j := by
  have hlen := congrArg List.length (h.bytes.symm.trans h'.bytes)
  simpa using hlen

theorem UpTo.before (h : UpTo pt u k (chs ++ rest)) :
    ∃ j ≤ k, UpTo pt u j chs ∧ ∀ ch ∈ rest.head?, ch.off = j := by
  have hall := h.bytes
  rw [List.flatMap_append] at hall
  have hlen := congrArg List.length hall
  rw [List.length_append, List.length_map, List.length_range] at hlen
  refine ⟨(chs.flatMap Chunk.bytes).length, by omega, ⟨?_, fun ch hch => ?_⟩, fun ch hch => ?_⟩
  · have htake := congrArg (List.take (chs.flatMap Chunk.bytes).length) hall
    rw [List.take_left, ← List.map_take, List.take_range, Nat.min_eq_left (by omega)] at htake
    exact htake
  · exact h.pos ch (List.mem_append_left _ hch)
  · obtain ⟨rest', rfl⟩ : ∃ rest', rest = ch :: rest' := by
      rcases rest with _ | ⟨x, rest'⟩
      · cases hch
      · cases hch
        exact ⟨rest', rfl⟩
    have hpos := h.pos ch (by simp)
    have hlt : (chs.flatMap Chunk.bytes).length < k := by
      rw [List.flatMap_cons, List.length_append, Chunk.bytes, List.length_map,
        List.length_range] at hlen
      omega
    have hget := congrArg (fun l => l[(chs.flatMap Chunk.bytes).length]?) hall
    simp only [List.getElem?_append_right (Nat.le_refl _), Nat.sub_self, List.flatMap_cons] at hget
    rw [List.getElem?_append_left (by simpa [Chunk.bytes] using hpos), List.getElem?_map,
      List.getElem?_range hlt, Chunk.bytes, List.getElem?_map, List.getElem?_range hpos] at hget
    exact congrArg Prod.fst (Option.some.inj hget)

end

/-! The chunks of a batch -/

section
variable {m : MemCmd} {d : Dir} {k : Key} {dev off stream : Nat} {q : QEnv} {v : Device}
  {t t' : List (Piece × Nat)} {chs : List Chunk}

@[simp] theorem chunksOf_append : chunksOf (t ++ t') = chunksOf t ++ chunksOf t' := by
  simp [chunksOf]

@[simp] theorem batchesOf_append : batchesOf (t ++ t') = batchesOf t ++ batchesOf t' := by
  simp [batchesOf]

theorem pieces_chunks (h : t.map Prod.fst = chs.map Piece.chunk) :
    chunksOf t = chs ∧ batchesOf t = [] := by
  rw [chunksOf, batchesOf, h, List.filterMap_map, List.filterMap_map]
  exact ⟨List.filterMap_some, List.filterMap_none chs⟩

theorem drifts_refl (v : Device) : v.Drifts v :=
  ⟨fun _ hx => hx, fun _ _ _ _ => rfl, rfl, rfl⟩

theorem drifts_trans (v w x : Device) (h : v.Drifts w) (h' : w.Drifts x) : v.Drifts x where
  pending y hy := h.pending y (h'.pending y hy)
  mem sp a hs hfree :=
    (h'.mem sp a hs fun y hy => hfree y (h.pending y hy)).trans (h.mem sp a hs hfree)
  calls := h'.calls.trans h.calls
  copies := h'.copies.trans h.copies

theorem chunkStep_shift (ch : Chunk) : chunkStep m d k (add64 dev off) stream ch =
    chunkStep m d k dev stream ⟨off + ch.off, ch.iov, ch.len⟩ := by
  have hadd : add64 (add64 dev off) ch.off = add64 dev (off + ch.off) := by
    simp only [add64]
    omega
  cases m <;> cases d <;> simp only [chunkStep, hadd]

theorem chunkStep_code (hret : ∀ i c, (q.env.ret i c).code < 2 ^ 32) (ch : Chunk) (v : Device) :
    ((chunkStep m d k dev stream ch).run q v).1 < 2 ^ 32 := by
  rcases hc : q.tab.ctxGet k with _ | c
  · rw [chunkStep_none hc]
    exact (by decide : 3 < 2 ^ 32)
  · by_cases hp : c.resGet .mem (add64 dev ch.off) = 0
    · exact (chunkStep_quiet hc hp).small
    · rw [chunkStep_mem hc hp]
      exact hret _ _

theorem coreStreamSynchronize_code (hret : ∀ i c, (q.env.ret i c).code < 2 ^ 32) (v : Device) :
    ((coreStreamSynchronize k stream).run q v).1 < 2 ^ 32 := by
  rcases hc : q.tab.ctxGet k with _ | c
  · simp [coreStreamSynchronize, withCtx, hc]
  · rw [coreStreamSynchronize, withCtx_run hc]
    exact hret _ _

variable (m d k dev off stream) in
theorem chunkLoop_trace (hret : ∀ i c, (q.env.ret i c).code < 2 ^ 32) (vs : List Iov) (v : Device) :
    let x := (chunkLoop m d k (add64 dev off) stream (tile 0 vs)).run q v
    x.1 < 2 ^ 32 ∧ ∃ t, Prog.Trace (Piece.prog m d k dev stream) Device.Drifts q v t x.2 ∧
      Prog.Ends t x.1 ∧ batchesOf t = [] ∧ chunksOf t <+: tile off vs ∧
      (x.1 = 0 → chunksOf t = tile off vs) := by
  obtain ⟨t, ht, hends, hpre, hall⟩ := Prog.firstError_trace (f := Piece.prog m d k dev stream)
    (e := q) drifts_refl ((tile off vs).map Piece.chunk) v
  have hrun :
      (Prog.firstError (Piece.prog m d k dev stream) ((tile off vs).map Piece.chunk)).run q v =
      (Prog.firstError (chunkStep m d k (add64 dev off) stream) (tile 0 vs)).run q v := by
    rw [← Nat.add_zero off, tile_shift, List.map_map, Prog.firstError_map]
    simp only [Function.comp_def, Piece.prog, ← chunkStep_shift]
    rfl
  rw [hrun] at ht hends hall
  have hsmall : ((Prog.firstError (chunkStep m d k (add64 dev off) stream) (tile 0 vs)).run q v).1 <
      2 ^ 32 := Prog.firstError_code (Nat.two_pow_pos 32) (chunkStep_code hret) _ v
  have hloop : (chunkLoop m d k (add64 dev off) stream (tile 0 vs)).run q v =
      let y := (Prog.firstError (chunkStep m d k (add64 dev off) stream) (tile 0 vs)).run q v
      if m.syncs d then (thenSync k stream y.1).run q y.2 else y := by
    unfold chunkLoop
    rw [Prog.bind_run, Prog.ite_run]
    rfl
  rw [hloop]
  generalize (Prog.firstError (chunkStep m d k (add64 dev off) stream) (tile 0 vs)).run q v = y at *
  obtain ⟨code, w⟩ := y
  obtain ⟨xs, hxs, hmap⟩ := List.prefix_map_iff.mp hpre
  obtain ⟨hchunks, hbatches⟩ := pieces_chunks hmap
  rw [← hchunks] at hxs
  have hfull (h0 : code = 0) : chunksOf t = tile off vs := (pieces_chunks (hall h0)).1
  dsimp only at *
  rw [thenSync, Prog.ite_run, Nat.mod_eq_of_lt hsmall]
  -- only a copy whose chunks all went through waits for its stream
  by_cases hs : m.syncs d = true ∧ code = 0
  · obtain ⟨hs, rfl⟩ := hs
    rw [if_pos hs, if_pos rfl]
    have hchs (c : Nat) : chunksOf (t ++ [(.sync, c)]) = tile off vs := by
      rw [chunksOf_append, hfull rfl]
      exact List.append_nil _
    refine ⟨coreStreamSynchronize_code hret w, t ++ [(.sync, _)],
      ht.append drifts_trans (.step (drifts_refl w) (.done (drifts_refl _))),
      hends.append (.single _ _), ?_, ?_, fun _ => hchs _⟩
    · rw [batchesOf_append, hbatches]
      rfl
    · exact ⟨[], (List.append_nil _).trans (hchs _)⟩
  · have hsame : (if m.syncs d = true then if code = 0 then (coreStreamSynchronize k stream).run q w
        else (code, w) else (code, w)) = (code, w) := by
      split_ifs <;> first | rfl | exact absurd ⟨‹_›, ‹_›⟩ hs
    rw [Prog.pure_run, hsame]
    exact ⟨hsmall, t, ht, hends, hbatches, hxs, hfull⟩

end

/-! The batches -/

/-- How a transfer between the user address `u` and the device address `dev` went, from `s₀` to
`s`: `t` is what it did on the backend, up to the byte `k`, and `code` the error it ended with. -/
structure Went (m : MemCmd) (d : Dir) (e : DrvEnv) (pt : Nat → Nat) (u dev stream : Nat)
    (s₀ s : DrvSt) (t : List (Piece × Nat)) (k code : Nat) : Prop where
  trace : Prog.Trace (Piece.prog m d e.key dev stream) Device.Drifts ⟨e.sys, s₀.m.tab⟩
    s₀.m.dev t s.m.dev
  ends : Prog.Ends t code
  submitted : s.submitted.map Prod.fst = s₀.submitted.map Prod.fst ++ batchesOf t
  upTo : UpTo pt u k (chunksOf t)

section
variable {m : MemCmd} {d : Dir} {e : DrvEnv} {pt : Nat → Nat} {a : MemcpyArgs}
  {u dev n stream off k code : Nat} {s₀ s s' : DrvSt} {t : List (Piece × Nat)}

theorem Went.start (hd : s₀.m.dev.Drifts s.m.dev) (hs : s.submitted = s₀.submitted) :
    Went m d e pt u dev stream s₀ s [] 0 0 :=
  ⟨.done hd, .nil, by rw [hs]; exact (List.append_nil _).symm, ⟨rfl, by simp [chunksOf]⟩⟩

theorem Went.drift (h : Went m d e pt u dev stream s₀ s t k code) (hd : s.m.dev.Drifts s'.m.dev)
    (hs : s'.submitted = s.submitted) : Went m d e pt u dev stream s₀ s' t k code := by
  have hend : Prog.Trace (Piece.prog m d e.key dev stream) Device.Drifts ⟨e.sys, s₀.m.tab⟩
    s.m.dev [] s'.m.dev := .done hd
  have htrace := h.trace.append drifts_trans hend
  rw [List.append_nil] at htrace
  exact ⟨htrace, h.ends, by rw [hs]; exact h.submitted, h.upTo⟩

theorem Went.batch (hpin : PinsHonest e pt) (hret : ∀ i c, (e.sys.ret i c).code < 2 ^ 32)
    (hu : a.userAddrStart + a.totalCount ≤ taskSize) (hk : a.kind = d.kind)
    (hr : CopyReq m.copy a.kind stream s.reqBuf) (ht : s.m.tab = s₀.m.tab)
    (h : Went m d e pt a.userAddrStart a.devPtr stream s₀ s t off 0) (hlt : off < a.totalCount)
    {pfns : List Nat} {sv : Served} (hb : Batched e m.copy a off s pfns sv s') :
    ∃ t' k, Went m d e pt a.userAddrStart a.devPtr stream s₀ s' t' k (s'.seen e.caller) ∧
      k ≤ off + (batchAt a off).count ∧
      (s'.seen e.caller = 0 → k = off + (batchAt a off).count) := by
  have htask : taskSize < 2 ^ 47 := by decide
  obtain rfl := hb.ready.frames hpin
  have hlen := hb.ready.totalLen
  have haddrs := hb.ready.user_addrs hu hlt
  obtain ⟨herr, hm'⟩ := hb.ran_machine hk (by omega) hr ht
  have hdel := hb.delivered m.copy_ne hr (by omega) (hk ▸ d.kind_cases)
  have hws : ∀ w ∈ sv.writes, ¬Shared w.sp := hdel.unshared
  have hseen : s'.seen e.caller = sv.err := hdel.seen
  obtain ⟨hcode, tb, htb, hends, hbs, hpre, hall⟩ := chunkLoop_trace m d e.key a.devPtr off
    stream (q := ⟨e.sys, s₀.m.tab⟩) hret
    (batchData a off (framesAt pt a off)) (s.shown e m.copy a off).dev
  rw [Nat.mod_eq_of_lt hcode] at herr
  rw [← herr, ← hseen] at hends hall
  -- the request arrives, the chunks run, and the response is written
  have hshown : s.m.dev.Drifts (s.shown e m.copy a off).dev :=
    drifts_setMem s.m (show ¬Shared (.req e.caller) by simp [Shared]) _
  have hdone : Prog.Trace (Piece.prog m d e.key a.devPtr stream) Device.Drifts
      ⟨e.sys, s₀.m.tab⟩ s.m.dev
      ((.batch (batchElem e m.copy a off (framesAt pt a off)), 0) :: tb) s'.m.dev := by
    refine .step hshown ?_
    rw [hm', ← List.append_nil tb]
    exact htb.append drifts_trans (.done (drifts_deliver ⟨s₀.m.tab, _⟩ e.sys hws))
  have hbatches : batchesOf ((.batch (batchElem e m.copy a off (framesAt pt a off)), 0) :: tb) =
      [batchElem e m.copy a off (framesAt pt a off)] := congrArg (List.cons _) hbs
  have hchunks : chunksOf ((.batch (batchElem e m.copy a off (framesAt pt a off)), 0) :: tb) =
      chunksOf tb := rfl
  have hfull := h.upTo.tile (batchData_pos a off _) (by rw [hlen]; exact haddrs)
  obtain ⟨rest, hrest⟩ := hpre
  have hcut := hfull
  rw [← hrest, ← List.append_assoc] at hcut
  obtain ⟨j, hj, hup, -⟩ := hcut.before
  rw [hlen] at hfull hj
  refine ⟨t ++ (.batch (batchElem e m.copy a off (framesAt pt a off)), 0) :: tb, j,
    ⟨h.trace.append drifts_trans hdone, h.ends.append (.ok _ hends), ?_, ?_⟩, hj, fun h0 => ?_⟩
  · rw [hb.post, batchesOf_append, hbatches]
    simp only [DrvSt.afterBatch, List.map_append, h.submitted, List.append_assoc, List.map_cons,
      List.map_nil]
  · rw [chunksOf_append, hchunks]
    exact hup
  · rw [hall h0] at hup
    exact hup.unique hfull

theorem copyLoop_went (hpin : PinsHonest e pt) (hret : ∀ i c, (e.sys.ret i c).code < 2 ^ 32)
    (hu : a.userAddrStart + a.totalCount ≤ taskSize) (hk : a.kind = d.kind)
    (hr : CopyReq m.copy a.kind stream s.reqBuf) (ht : s.m.tab = s₀.m.tab)
    (h0 : s.seen e.caller = 0)
    (h : Went m d e pt a.userAddrStart a.devPtr stream s₀ s [] 0 0) :
    let r := (copyLoop m.copy a).run e s
    ∃ t k code, Went m d e pt a.userAddrStart a.devPtr stream s₀ r.2 t k code ∧
      k ≤ a.totalCount ∧ (code ≠ 0 → r.1 = .ret 0) ∧
      (r.1 = .ret 0 → r.2.seen e.caller = code ∧ (code = 0 → k = a.totalCount)) := by
  have htask : taskSize < 2 ^ 47 := by decide
  refine copyLoop_rule
    (I := fun off s => CopyReq m.copy a.kind stream s.reqBuf ∧ s.m.tab = s₀.m.tab ∧
      s.seen e.caller = 0 ∧ ∃ t, Went m d e pt a.userAddrStart a.devPtr stream s₀ s t off 0)
    (Q := fun h s => ∃ t k code, Went m d e pt a.userAddrStart a.devPtr stream s₀ s t k code ∧
      k ≤ a.totalCount ∧ (code ≠ 0 → h = .ret 0) ∧
      (h = .ret 0 → s.seen e.caller = code ∧ (code = 0 → k = a.totalCount)))
    (fun _ s hI => hI.1.cmd) ?_ ?_ ?_ ?_ ⟨hr, ht, h0, [], h⟩
  · rintro off s s' halt hlt ⟨-, -, -, t, hw⟩ hun - hf
    refine ⟨t, off, 0, hw.drift ?_ hun.submitted, hlt.le, fun hne => absurd rfl hne, fun hh => ?_⟩
    · rw [hun.m]
      exact drifts_refl _
    · exact absurd (hf 0 hh) (lt_irrefl 0)
  · rintro off s s' pfns sv hlt ⟨hr, ht, -, t, hw⟩ hb hz
    obtain ⟨t', k, hw', -, hk'⟩ := hw.batch hpin hret hu hk hr ht hlt hb
    obtain rfl := hk' hz
    rw [hz] at hw'
    refine ⟨?_, ?_, hz, t', hw'⟩
    · rw [hb.post]
      exact hr.batchReq m.copy_ne
    · rw [(hb.ran_machine hk (by omega) hr ht).2]
      exact ht
  · rintro off s s' pfns sv hlt ⟨hr, ht, -, t, hw⟩ hb hne
    obtain ⟨t', k, hw', hle, -⟩ := hw.batch hpin hret hu hk hr ht hlt hb
    have hcount := batchAt_count_rem a off
    exact ⟨t', k, _, hw', by omega, fun _ => rfl, fun _ => ⟨rfl, fun hz => absurd hz hne⟩⟩
  · rintro s ⟨-, -, hz, t, hw⟩
    exact ⟨t, _, 0, hw, le_rfl, fun hne => absurd rfl hne, fun _ => ⟨hz, fun _ => rfl⟩⟩

end

/-! The ioctl -/

/-- A memcpy ioctl of `n` bytes between the user address `u` and the device address `dev`.
Every call may fail, and the user's pages lie anywhere. -/
structure TransferCall (m : MemCmd) (d : Dir) (e : DrvEnv) (pt : Nat → Nat) (u n dev stream : Nat) :
    Prop where
  pins : PinsHonest e pt
  codes : ∀ i c, (e.sys.ret i c).code < 2 ^ 32
  built : ∃ hdr p, Built e m.copy hdr p ∧ (memReq p).args = ⟨u, n, dev, d.kind⟩ ∧
    (memReq p).stream = stream
  user : u + n ≤ taskSize

section
variable {m : MemCmd} {d : Dir} {e : DrvEnv} {pt : Nat → Nat} {u n dev stream : Nat} {s : DrvSt}

theorem TransferCall.went (h : TransferCall m d e pt u n dev stream) (s : DrvSt) :
    let r := hmcudaIoctl.run e s
    ∃ t k code, Went m d e pt u dev stream s r.2 t k code ∧ k ≤ n ∧
      (code ≠ 0 → r.1.status = if e.copyOut then some code else none) ∧
      (r.1.halt = .ret 0 → r.1.status = some code ∧ (code = 0 → k = n)) := by
  obtain ⟨hdr, p, hb, ha, hst⟩ := h.built
  by_cases halloc : e.kmalloc .pages = true ∧ e.kmalloc .sgBatch = true
  swap
  · obtain ⟨hret, hq⟩ := hmcudaIoctl_noLoop hb halloc s
    obtain ⟨f, hf⟩ := hq.m
    refine ⟨[], 0, 0, .start ?_ hq.submitted, Nat.zero_le n, fun hne => absurd rfl hne,
      fun hh => ?_⟩
    · rw [hf]
      exact drifts_setMem s.m (by simp [Shared]) f
    · exact absurd (hret.symm.trans hh) (by decide)
  obtain ⟨s₀, w, hs, hsame, hrun⟩ := hmcudaIoctl_memLoop m.copy_ne hb halloc ha s
  rw [hst] at hs
  have hstart : Went m d e pt u dev stream s s₀ [] 0 0 := .start hs.drifts hs.submitted
  have hloop := copyLoop_went (a := ⟨u, n, dev, d.kind⟩) h.pins h.codes h.user rfl hs.req hs.tab
    hs.seen hstart
  obtain ⟨t, k, code, hw, hle, herr, hans⟩ := hloop
  generalize (copyLoop m.copy ⟨u, n, dev, d.kind⟩).run e s₀ = v at *
  obtain ⟨x, rfl, -⟩ := hsame
  rw [hrun]
  refine ⟨t, k, code, hw.drift ?_ (finishIoctl_submitted _ _ e _), hle, fun hne => ?_, fun hh => ?_⟩
  · rw [finishIoctl_m]
    exact drifts_refl _
  · obtain ⟨hseen, -⟩ := hans (herr hne)
    rw [herr hne, finishIoctl_answer]
    exact congrArg (fun y => if e.copyOut then some y else none) hseen
  · obtain ⟨hh, hc⟩ := finishIoctl_success hh
    obtain ⟨hseen, hk⟩ := hans hh
    rw [hh, finishIoctl_answer, if_pos hc]
    exact ⟨congrArg some hseen, hk⟩

/-- The caller gets the first error; no chunk and no batch follows it, and the chunks before it
have the bytes of the transfer up to its own. -/
theorem TransferCall.firstError (h : TransferCall m d e pt u n dev stream) (s : DrvSt) :
    let r := hmcudaIoctl.run e s
    ∃ t k code, Went m d e pt u dev stream s r.2 t k code ∧ k ≤ n ∧
      (r.1.halt = .ret 0 → r.1.status = some code ∧ (code = 0 → k = n)) ∧
      ∀ pre x c post, t = pre ++ (x, c) :: post → c ≠ 0 →
        post = [] ∧ (∀ y ∈ pre, y.2 = 0) ∧
        r.1.status = (if e.copyOut then some c else none) ∧
        ∃ j ≤ n, UpTo pt u j (chunksOf pre) ∧ ∀ ch, x = .chunk ch → ch.off = j := by
  obtain ⟨t, k, code, hw, hle, herr, hans⟩ := h.went s
  refine ⟨t, k, code, hw, hle, hans, fun pre x c post ht hc => ?_⟩
  obtain ⟨hpost, rfl, hpre⟩ := hw.ends.split ht hc
  have hup := hw.upTo
  rw [ht, chunksOf_append] at hup
  obtain ⟨j, hj, hup, hoff⟩ := hup.before
  refine ⟨hpost, hpre, herr hc, j, hj.trans hle, hup, ?_⟩
  rintro ch rfl
  exact hoff ch rfl

end

/-! Sixteen bytes in two chunks, the second of which CUDA refuses. -/

/-- The bytes lie over the end of a page, and the frames of the two pages are apart. -/
def refusedCopy : DrvEnv :=
  { DrvEnv.quiet
      { aliasEnv 0x8000 with
        ret := fun i c => if c.args.head? = some 0x8008 then ⟨700, [], none⟩
          else (aliasEnv 0x8000).ret i c }
      fun _ => (⟨0x8000, 0x2ff8, 16, 1, 0⟩ : MemReq).arg DrvCmd.cuMemcpy.code with
    pin := fun u n _ => .ok ((List.range n).map fun i => 2 * (u / 4096 + i)) }

def refusedStart : DrvSt := { DrvSt.start aliasMem with m := aliasRun 0x8000 }

theorem refusedCopy_fails : (hmcudaIoctl.run refusedCopy refusedStart).1.status = some 700 ∧
    ∃ t k, Went .cuMemcpy .htod refusedCopy (2 * ·) 0x2ff8 0x8000 0 refusedStart
      (hmcudaIoctl.run refusedCopy refusedStart).2 t k 700 := by
  have hcall : TransferCall .cuMemcpy .htod refusedCopy (2 * ·) 0x2ff8 16 0x8000 0 := by
    refine ⟨fun u n w pfns heq _ => (Except.ok.inj heq).symm, fun i c => ?_,
      ⟨_, _, ⟨rfl, by decide, fun _ _ => rfl, rfl, rfl⟩, by decide, by decide⟩, by decide⟩
    show (if c.args.head? = some 0x8008 then _ else (aliasEnv 0x8000).ret i c : LibRet).code < _
    split
    · exact (by decide : 700 < 2 ^ 32)
    · rw [aliasEnv_ret]
      decide
  have hst : (hmcudaIoctl.run refusedCopy refusedStart).1.status = some 700 := by decide +kernel
  obtain ⟨t, k, code, hw, -, hans, -⟩ := TransferCall.firstError hcall refusedStart
  obtain ⟨hcode, -⟩ := hans (by decide +kernel)
  obtain rfl : code = 700 := Option.some.inj (hcode.symm.trans hst)
  exact ⟨hst, t, k, hw⟩

end HmCuda
