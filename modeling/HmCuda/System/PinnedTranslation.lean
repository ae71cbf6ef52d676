import HmCuda.System.Translation

/-! A transfer into a pinned buffer that succeeds stores the translation of the whole user
buffer, however it was cut: with an aligned user address every cut lies between two words. -/

namespace HmCuda
open Layout AsyncCopy

/-! Where the cuts lie -/

theorem coalesceFrom_aligned {prev pgOff rem : Nat} {acc : List Iov} {pfns : List Nat}
    (ho : pgOff % 8 = 0) (hacc : ∀ v ∈ acc, v.base % 8 = 0) :
    ∀ v ∈ coalesceFrom prev pgOff rem acc pfns, v.base % 8 = 0 := by
  induction pfns generalizing prev pgOff rem acc with
  | nil => exact hacc
  | cons pfn pfns ih =>
    unfold coalesceFrom
    split
    · exact hacc
    · have hbase : (pfn * pageSize + pgOff) % 8 = 0 := by
        simp only [pageSize]
        omega
      rcases acc with _ | ⟨v, vs⟩
      · exact ih rfl (by simpa using hbase)
      · simp only [List.mem_cons, forall_eq_or_imp] at hacc
        dsimp only
        split
        · exact ih rfl (by simpa using hacc)
        · exact ih rfl (by simpa using ⟨hbase, hacc⟩)

theorem batchData_aligned {a : MemcpyArgs} {off : Nat} (ho : (batchAt a off).pageOff % 8 = 0)
    (pfns : List Nat) : ∀ v ∈ batchData a off pfns, v.base % 8 = 0 := by
  intro v hv
  exact coalesceFrom_aligned ho (by simp) v (List.mem_reverse.mp hv)

theorem batchAt_fills {a : MemcpyArgs} {off : Nat} (hu : a.userAddrStart + a.totalCount ≤ taskSize)
    (hlt : off + (batchAt a off).count < a.totalCount) :
    (batchAt a off).pageOff + (batchAt a off).count = (batchAt a off).pages * pageSize := by
  have hlt' : off < a.totalCount := by omega
  obtain ⟨-, -, hpos, hle⟩ := batchAt_user hu hlt'
  have hc : (batchAt a off).count = min (sub64 ((batchAt a off).pages * pageSize)
      (batchAt a off).pageOff) (a.totalCount - off) := rfl
  have hp := pages_le a off
  simp only [pageSize, pagesPerBatch] at hle hp hc ⊢
  rw [sub64_of_le (by omega) (by omega)] at hc
  omega

section
variable {c : Context} {m : ByteMem Space} {vs : List Iov} {pt : Nat → Nat} {u n : Nat}

/-- Descriptors that are cut between words are translated as one buffer. -/
theorem translated_cuts (hcut : ∀ pre v post, vs = pre ++ v :: post → totalLen pre % 8 = 0) :
    vs.flatMap (translated c m) =
      patchEmbeddedHostPtrs c ((vs.flatMap Iov.addrs).map fun x => m x.1 x.2) := by
  induction vs with
  | nil => exact (patch_short c (show ([] : List UInt8).length < 8 from Nat.succ_pos 7)).symm
  | cons v vs ih =>
    rw [List.flatMap_cons, List.flatMap_cons, List.map_append, ← read_addrs]
    rcases vs with _ | ⟨w, vs⟩
    · simp only [List.flatMap_nil, List.map_nil, List.append_nil]
      rfl
    · have hv := hcut [v] w vs rfl
      rw [totalLen_cons, totalLen_nil, Nat.add_zero] at hv
      rw [patch_append _ (by rwa [ByteMem.length_read]), ih fun pre x post heq => ?_]
      · rfl
      · have h := hcut (v :: pre) x post (by rw [heq]; rfl)
        rw [totalLen_cons] at h
        omega

theorem cuts_aligned (haddr : vs.flatMap Iov.addrs = (List.range n).map fun i => phys pt (u + i))
    (hu : u % 8 = 0) (hvs : ∀ v ∈ vs, v.base % 8 = 0 ∧ 0 < v.len) :
    ∀ pre v post, vs = pre ++ v :: post → totalLen pre % 8 = 0 := by
  rintro pre v post rfl
  obtain ⟨hbase, hpos⟩ := hvs v (by simp)
  have hlen := congrArg List.length haddr
  rw [length_addrs, List.length_map, List.length_range] at hlen
  have hlt : totalLen pre < n := by
    rw [← hlen]
    simp only [totalLen, List.map_append, List.map_cons, List.sum_append, List.sum_cons]
    omega
  have hget : ((pre ++ v :: post).flatMap Iov.addrs)[totalLen pre]? = some (v.sp, v.base) := by
    rw [List.flatMap_append, List.getElem?_append_right (by rw [length_addrs]), length_addrs,
      Nat.sub_self, List.flatMap_cons, List.getElem?_append_left (by simpa [Iov.addrs] using hpos)]
    simp [Iov.addrs, hpos]
  rw [haddr, List.getElem?_map, List.getElem?_range hlt, Option.map_some] at hget
  have hb := congrArg Prod.snd (Option.some.inj hget)
  simp only [phys, pageSize] at hb
  omega

end

/-! What has landed -/

/-- The first bytes of the range at `real` are `bs`; the user's bytes are those of `m₀`, and
nothing pending writes to either. -/
structure Landed (m₀ : ByteMem Space) (pt : Nat → Nat) (u n real : Nat) (bs : List UInt8)
    (v : Device) : Prop where
  apart : ∀ x ∈ v.eng.pending, Spares pt u n real x
  ram : ∀ i < n, v.eng.mem .ram (phys pt (u + i)).2 = m₀ .ram (phys pt (u + i)).2
  stored : ∀ i < bs.length, v.eng.mem .uva (real + i) = bs.getD i 0
  within : bs.length ≤ n

section
variable {m₀ : ByteMem Space} {pt : Nat → Nat} {u n real o off stream : Nat} {bs : List UInt8}
  {v v' : Device} {c : Context} {r : Resource} {k : Key} {q : QEnv}

theorem Landed.drift (h : Landed m₀ pt u n real bs v) (hd : v.Drifts v') :
    Landed m₀ pt u n real bs v' := by
  have hwithin := h.within
  refine ⟨fun x hx => h.apart x (hd.pending x hx), fun i hi => ?_, fun i hi => ?_, h.within⟩
  · exact (hd.mem .ram (phys pt (u + i)).2 (.inl rfl) fun x hx => (h.apart x hx i hi).1).trans
      (h.ram i hi)
  · exact (hd.mem .uva (real + i) (.inr rfl) fun x hx => (h.apart x hx i (by omega)).2).trans
      (h.stored i hi)

theorem Landed.finishMany (h : Landed m₀ pt u n real bs v) (is : List Nat) :
    Landed m₀ pt u n real bs { v with eng := v.eng.finishMany is } :=
  h.drift ⟨fun _ hx => Engine.finishMany_pending_subset _ _ hx,
    fun _ _ _ hfree => Engine.finishMany_other hfree is, rfl, rfl⟩

theorem Landed.write (h : Landed m₀ pt u n real bs v) {data : List UInt8}
    (hle : bs.length + data.length ≤ n) (heng : v'.eng =
      ⟨v.eng.mem.write .uva (real + bs.length) data, v.eng.pending⟩) :
    Landed m₀ pt u n real (bs ++ data) v' := by
  refine ⟨?_, fun i hi => ?_, fun i hi => ?_, by rwa [List.length_append]⟩
  · rw [heng]
    exact h.apart
  · rw [heng]
    have hsp : Space.ram ≠ .uva := by simp
    have hkeep := ByteMem.write_space v.eng.mem (real + bs.length) data hsp
    exact (congrFun hkeep _).trans (h.ram i hi)
  · rw [heng]
    rcases Nat.lt_or_ge i bs.length with hlt | hge
    · rw [List.getD_append _ _ _ _ hlt, ← h.stored i hlt]
      exact ByteMem.write_miss v.eng.mem (by omega)
    · rw [List.length_append] at hi
      rw [List.getD_append_right _ _ _ _ hge,
        show real + i = real + bs.length + (i - bs.length) by omega]
      exact ByteMem.write_hit v.eng.mem .uva (i := i - bs.length) (by omega)

theorem Landed.start (h : ∀ x ∈ v.eng.pending, Spares pt u n real x) :
    Landed v.eng.mem pt u n real [] v :=
  ⟨h, fun _ _ => rfl, nofun, Nat.zero_le n⟩

theorem Landed.read (h : Landed m₀ pt u n real bs v) : v.eng.mem.read .uva real bs.length = bs := by
  refine List.ext_getElem (ByteMem.length_read ..) fun i hi hi' => ?_
  rw [← List.getD_eq_getElem _ 0 hi, ByteMem.getD_read _ _ hi', h.stored i hi',
    List.getD_eq_getElem _ 0 hi']

/-! A chunk -/

variable (stream) in
theorem Landed.chunk (h : Landed m₀ pt u n (r.realPtr + o) bs v) (hm : MallocApart q.env)
    (hc : q.tab.ctxGet k = some c) (hp : PinnedRange c r o n) {rel : Nat} {w : Iov}
    (hat : off + rel = bs.length) (hpos : 0 < w.len) (hle : bs.length + w.len ≤ n)
    (hsrc : ∀ j < w.len, (w.sp, w.base + j) = phys pt (u + (bs.length + j))) :
    ((chunkStep .cuMemcpy .htod k (r.handle + o + off) stream ⟨rel, w, w.len⟩).run q v).1 = 2 ∨
    ((chunkStep .cuMemcpy .htod k (r.handle + o + off) stream ⟨rel, w, w.len⟩).run q v).1 = 0 ∧
      Landed m₀ pt u n (r.realPtr + o) (bs ++ translated c m₀ w)
        ((chunkStep .cuMemcpy .htod k (r.handle + o + off) stream ⟨rel, w, w.len⟩).run q v).2 := by
  -- the user's bytes under the chunk are still those of the start
  have hread : v.eng.mem.read w.sp w.base w.len = m₀.read w.sp w.base w.len := by
    apply ByteMem.read_congr
    intro j hj
    have hsp : w.sp = .ram := congrArg Prod.fst (hsrc j hj)
    have hb : w.base + j = (phys pt (u + (bs.length + j))).2 := congrArg Prod.snd (hsrc j hj)
    rw [hsp, hb]
    exact h.ram (bs.length + j) (by omega)
  have hplace : r.realPtr + o + off + rel = r.realPtr + o + bs.length := by omega
  have hlt : off + rel < n := by omega
  refine (chunkStep_store stream hm hc hp ⟨rel, w, w.len⟩ hlt (v := v)).imp And.left ?_
  rintro ⟨h0, is, heng⟩
  dsimp only at heng
  rw [hread, hplace] at heng
  exact ⟨h0, (h.finishMany is).write (by rwa [length_translated]) heng⟩

variable (stream) in
theorem Landed.chunks (h : Landed m₀ pt u n (r.realPtr + o) bs v) (hm : MallocApart q.env)
    (hc : q.tab.ctxGet k = some c) (hp : PinnedRange c r o n) {data : List Iov} {rel : Nat}
    (hpos : ∀ w ∈ data, 0 < w.len) (hat : off + rel = bs.length)
    (hle : bs.length + totalLen data ≤ n) (haddr : data.flatMap Iov.addrs =
      (List.range (totalLen data)).map fun j => phys pt (u + (bs.length + j))) :
    ((Prog.firstError (chunkStep .cuMemcpy .htod k (r.handle + o + off) stream)
        (tile rel data)).run q v).1 < 2 ^ 32 ∧
    (((Prog.firstError (chunkStep .cuMemcpy .htod k (r.handle + o + off) stream)
        (tile rel data)).run q v).1 = 0 →
      Landed m₀ pt u n (r.realPtr + o) (bs ++ data.flatMap (translated c m₀))
        ((Prog.firstError (chunkStep .cuMemcpy .htod k (r.handle + o + off) stream)
          (tile rel data)).run q v).2) := by
  induction data generalizing rel bs v with
  | nil =>
    rw [List.flatMap_nil, List.append_nil]
    exact ⟨Nat.two_pow_pos 32, fun _ => h⟩
  | cons w data ih =>
    rw [totalLen_cons] at hle haddr
    rw [List.range_add, List.map_append, List.map_map, List.flatMap_cons] at haddr
    obtain ⟨hw, hrest⟩ := List.append_inj haddr (by simp [Iov.addrs])
    have hsrc : ∀ j < w.len, (w.sp, w.base + j) = phys pt (u + (bs.length + j)) := by
      intro j hj
      exact List.map_inj_left.mp hw j (List.mem_range.mpr hj)
    rw [tile, Prog.firstError_cons]
    have hw := hpos w List.mem_cons_self
    rcases h.chunk stream hm hc hp hat hw (by omega) hsrc with h2 | ⟨h0, hl⟩
    · rw [if_pos (by rw [h2]; decide), h2]
      exact ⟨by decide, fun h => absurd h (by decide)⟩
    · rw [if_neg (not_not.mpr h0), List.flatMap_cons, ← List.append_assoc]
      refine ih hl (fun x hx => hpos x (List.mem_cons_of_mem _ hx)) ?_ ?_ ?_
      · rw [List.length_append, length_translated]
        omega
      · rw [List.length_append, length_translated]
        omega
      · rw [hrest, List.length_append, length_translated]
        simp only [Function.comp_def, Nat.add_assoc]

end

/-! The batches -/

section
variable {e : DrvEnv} {pt : Nat → Nat} {a : MemcpyArgs} {c : Context} {r : Resource} {t : Tables}
  {m₀ : ByteMem Space} {o stream off : Nat} {s s' : DrvSt}

/-- What holds before the batch at `off`: the lists sent so far have landed, and they were cut
between words. -/
structure LandInv (e : DrvEnv) (pt : Nat → Nat) (a : MemcpyArgs) (c : Context) (t : Tables)
    (m₀ : ByteMem Space) (real stream off : Nat) (s : DrvSt) : Prop where
  req : CopyReq MemCmd.cuMemcpy.copy a.kind stream s.reqBuf
  tab : s.m.tab = t
  aligned : off < a.totalCount → off % 8 = 0
  landed : ∃ sent : List Iov,
    sent.flatMap Iov.addrs = (List.range off).map (fun i => phys pt (a.userAddrStart + i)) ∧
    (∀ w ∈ sent, w.base % 8 = 0 ∧ 0 < w.len) ∧
    Landed m₀ pt a.userAddrStart a.totalCount real (sent.flatMap (translated c m₀)) s.m.dev

theorem LandInv.batch (hpin : PinsHonest e pt) (hm : MallocApart e.sys)
    (hu : a.userAddrStart + a.totalCount ≤ taskSize) (hu8 : a.userAddrStart % 8 = 0)
    (hk : a.kind = 1) (hdev : a.devPtr = r.handle + o) (hc : t.ctxGet e.key = some c)
    (hp : PinnedRange c r o a.totalCount)
    (h : LandInv e pt a c t m₀ (r.realPtr + o) stream off s) (hlt : off < a.totalCount)
    {pfns : List Nat} {sv : Served} (hb : Batched e MemCmd.cuMemcpy.copy a off s pfns sv s')
    (h0 : s'.seen e.caller = 0) :
    LandInv e pt a c t m₀ (r.realPtr + o) stream (off + (batchAt a off).count) s' := by
  have htask : taskSize < 2 ^ 47 := by decide
  obtain rfl := hb.ready.frames hpin
  obtain ⟨-, hoff, -, -⟩ := batchAt_user hu hlt
  have hcount := batchAt_count_rem a off
  have hlen := hb.ready.totalLen
  have hsize := hp.size
  have hkey := hp.key
  have haddrs := hb.ready.user_addrs hu hlt
  have halign := h.aligned hlt
  have hpage : (batchAt a off).pageOff % 8 = 0 := by
    rw [hoff]
    simp only [pageSize]
    omega
  obtain ⟨sent, haddr, hcut, hland⟩ := h.landed
  have hsent : (sent.flatMap (translated c m₀)).length = off := by
    rw [length_flatMap_translated, ← length_addrs, haddr, List.length_map, List.length_range]
  obtain ⟨herr, hm'⟩ := hb.ran_machine (d := .htod) hk (by omega) h.req h.tab
  rw [chunkLoop_unsynced rfl, hdev, add64_of_lt (show r.handle + o + off < 2 ^ 64 by omega)]
    at herr hm'
  -- the request is shown to the device outside the memory that the chunks touch
  have hshown := hland.drift (drifts_setMem s.m (show ¬Shared (.req e.caller) by simp [Shared])
    (batchReq MemCmd.cuMemcpy.copy.cmd.code a off s.reqBuf))
  obtain ⟨hcode, hnext⟩ := Landed.chunks stream (q := ⟨e.sys, t⟩) (k := e.key) hshown hm hc hp
    (batchData_pos a off _) (show off + 0 = _ from hsent.symm)
    (by rw [hsent, hlen]; omega) (by rw [hsent, hlen, haddrs]; simp only [Nat.add_assoc])
  have hdel := hb.delivered MemCmd.cuMemcpy.copy_ne h.req (by omega) (.inl hk)
  have hseen : s'.seen e.caller = sv.err := hdel.seen
  rw [h0, herr] at hseen
  have hland' := hnext (by rw [← Nat.mod_eq_of_lt hcode]; exact hseen.symm)
  have hws : ∀ w ∈ sv.writes, ¬Shared w.sp := hdel.unshared
  refine ⟨?_, ?_, fun hlt' => ?_, sent ++ batchData a off (framesAt pt a off), ?_, ?_, ?_⟩
  · rw [hb.post]
    exact h.req.batchReq MemCmd.cuMemcpy.copy_ne
  · rw [hm']
    exact h.tab
  -- a batch that is not the last ends at a page boundary
  · have hfill := batchAt_fills hu hlt'
    simp only [pageSize] at hfill
    omega
  · rw [List.flatMap_append, haddr, haddrs, List.range_add, List.map_append, List.map_map]
    simp only [Function.comp_def, Nat.add_assoc]
  · intro w hw
    rcases List.mem_append.mp hw with hw | hw
    · exact hcut w hw
    · exact ⟨batchData_aligned hpage _ w hw, batchData_pos a off _ w hw⟩
  · rw [List.flatMap_append, hm']
    exact hland'.drift (drifts_deliver ⟨s.m.tab, _⟩ e.sys hws)

/-- The loop that ends with success has stored every descriptor, translated. -/
theorem copyLoop_lands (hpin : PinsHonest e pt) (hm : MallocApart e.sys)
    (hu : a.userAddrStart + a.totalCount ≤ taskSize) (hu8 : a.userAddrStart % 8 = 0)
    (hk : a.kind = 1) (hdev : a.devPtr = r.handle + o) (hc : t.ctxGet e.key = some c)
    (hp : PinnedRange c r o a.totalCount) (h : LandInv e pt a c t m₀ (r.realPtr + o) stream 0 s) :
    ((copyLoop MemCmd.cuMemcpy.copy a).run e s).1 = .ret 0 →
      ((copyLoop MemCmd.cuMemcpy.copy a).run e s).2.seen e.caller = 0 →
        LandInv e pt a c t m₀ (r.realPtr + o) stream a.totalCount
          ((copyLoop MemCmd.cuMemcpy.copy a).run e s).2 := by
  refine copyLoop_rule (I := LandInv e pt a c t m₀ (r.realPtr + o) stream)
    (Q := fun h s => h = .ret 0 → s.seen e.caller = 0 →
      LandInv e pt a c t m₀ (r.realPtr + o) stream a.totalCount s)
    (fun _ s hI => hI.req.cmd) (fun off s s' h hlt _ _ _ hf h0 => ?_)
    (fun off s s' pfns sv hlt hI hb h0 => ?_) (fun off s s' pfns sv hlt hI hb hne _ h0 => ?_)
    (fun s hI _ _ => hI) h
  · exact absurd (hf 0 h0) (lt_irrefl 0)
  · exact hI.batch hpin hm hu hu8 hk hdev hc hp hlt hb h0
  · exact absurd h0 hne

end

/-! The ioctl -/

/-- A cuMemcpy ioctl for `n` bytes from the aligned user address `u` to the offset `o` of the
pinned buffer `r`. Every call may fail, and the user's pages lie anywhere. -/
structure PinnedStore (e : DrvEnv) (pt : Nat → Nat) (u n : Nat) (c : Context) (r : Resource)
    (o : Nat) (s : DrvSt) : Prop where
  pins : PinsHonest e pt
  malloc : MallocApart e.sys
  built : ∃ hdr p, Built e MemCmd.cuMemcpy.copy hdr p ∧
    (memReq p).args = ⟨u, n, r.handle + o, Dir.htod.kind⟩
  user : u + n ≤ taskSize
  word : u % 8 = 0
  session : s.m.tab.ctxGet e.key = some c
  range : PinnedRange c r o n
  placed : PinnedPlaced c
  apart : ∀ x ∈ s.m.dev.eng.pending, Spares pt u n (r.realPtr + o) x

def userBytes (pt : Nat → Nat) (m : ByteMem Space) (u n : Nat) : List UInt8 :=
  (List.range n).map fun i => m .ram (phys pt (u + i)).2

section
variable {e : DrvEnv} {pt : Nat → Nat} {u n o : Nat} {c : Context} {r : Resource} {s : DrvSt}
  {m : ByteMem Space} {stream : Nat}

theorem LandInv.whole {t : Tables} (h : LandInv e pt ⟨u, n, r.handle + o, Dir.htod.kind⟩ c t m
      (r.realPtr + o) stream n s) (hu : u % 8 = 0) (hc : PinnedPlaced c) (is : List Nat) :
    (s.m.dev.eng.finishMany is).mem.read .uva (r.realPtr + o) n =
      wholeTranslation c (userBytes pt m u n) := by
  obtain ⟨sent, haddr, hcut, hland⟩ := h.landed
  have hbytes : sent.flatMap (translated c m) = patchEmbeddedHostPtrs c (userBytes pt m u n) := by
    rw [translated_cuts (cuts_aligned haddr hu hcut), haddr, List.map_map]
    rfl
  rw [hbytes] at hland
  have hlen : (patchEmbeddedHostPtrs c (userBytes pt m u n)).length = n := by
    simp [userBytes]
  have hread := (hland.finishMany is).read
  rw [hlen] at hread
  rw [← patch_whole hc]
  exact hread

theorem PinnedStore.translates (h : PinnedStore e pt u n c r o s)
    (hret : (hmcudaIoctl.run e s).1.halt = .ret 0)
    (hst : (hmcudaIoctl.run e s).1.status = some 0) (is : List Nat) :
    ((hmcudaIoctl.run e s).2.m.dev.eng.finishMany is).mem.read .uva (r.realPtr + o) n =
      wholeTranslation c (userBytes pt s.m.dev.eng.mem u n) := by
  obtain ⟨hdr, p, hb, ha⟩ := h.built
  by_cases halloc : e.kmalloc .pages = true ∧ e.kmalloc .sgBatch = true
  swap
  · rw [(hmcudaIoctl_noLoop hb halloc s).1] at hret
    exact absurd hret (by decide)
  obtain ⟨t, w, ht, hsame, hrun⟩ := hmcudaIoctl_memLoop MemCmd.cuMemcpy.copy_ne hb halloc ha s
  have h0 : LandInv e pt ⟨u, n, r.handle + o, Dir.htod.kind⟩ c s.m.tab s.m.dev.eng.mem
      (r.realPtr + o) (memReq p).stream 0 t :=
    ⟨ht.req, ht.tab, fun _ => rfl, [], rfl, by simp, (Landed.start h.apart).drift ht.drifts⟩
  have hloop := copyLoop_lands h.pins h.malloc h.user h.word rfl rfl h.session h.range h0
  generalize (copyLoop MemCmd.cuMemcpy.copy ⟨u, n, r.handle + o, Dir.htod.kind⟩).run e t = v at *
  obtain ⟨x, rfl, -⟩ := hsame
  rw [hrun] at hret hst ⊢
  obtain ⟨hhalt, hout⟩ := finishIoctl_success hret
  rw [hhalt, finishIoctl_answer, if_pos hout] at hst
  have hseen : v.2.seen e.caller = 0 := Option.some.inj hst
  rw [finishIoctl_m]
  exact (hloop hhalt hseen).whole h.word h.placed is

theorem PinnedCall.store (h : PinnedCall .htod e pt u n c r o s) (hu : u % 8 = 0)
    (hc : PinnedPlaced c) : PinnedStore e pt u n c r o s where
  pins _ _ _ _ heq _ := (Except.ok.inj ((h.smooth.pin ..).symm.trans heq)).symm
  malloc := h.malloc
  built := h.built
  user := h.user
  word := hu
  session := h.session
  range := h.range
  placed := hc
  apart x hx := absurd hx (by rw [h.idle]; exact List.not_mem_nil)

end

theorem eightBytesTo_translates : ∃ c, ∀ is,
    ((hmcudaIoctl.run eightBytesTo (pinnedSt 0x7000)).2.m.dev.eng.finishMany is).mem.read .uva
      0x9000 8 = wholeTranslation c (userBytes id (pinnedSt 0x7000).m.dev.eng.mem 0x2000 8) := by
  obtain ⟨c, -, h, -⟩ := pinnedSt_calls 0x7000 (by simp)
  obtain ⟨c', hc', hres⟩ := Option.map_eq_some_iff.mp (aliasRun_tables 0x8000 (by decide))
  obtain rfl : c' = c := Option.some.inj (hc'.symm.trans h.session)
  have hplaced : PinnedPlaced c' := by
    intro r hr
    rw [(Prod.mk.inj hres).2, List.mem_singleton] at hr
    rw [hr]
    decide
  exact ⟨c', PinnedStore.translates (h.store rfl hplaced) (by decide +kernel) h.stored.1⟩

end HmCuda
