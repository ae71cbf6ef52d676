import HmCuda.System.CopyLaw
import HmCuda.System.PinnedLookup

/-! A memcpy ioctl as one copy of a range: the batches of the driver follow each other
without gaps, whatever frames lie under the user's pages. -/

namespace HmCuda
open Layout AsyncCopy Ranges

/-- Every pin, allocation, queue and library call succeeds; `pt` gives the frames. -/
structure Smooth (e : DrvEnv) (pt : Nat → Nat) : Prop where
  alloc : ∀ b, e.kmalloc b = true
  pin : ∀ u n w, e.pin u n w = .ok ((List.range n).map fun i => pt (u / pageSize + i))
  queue : ∀ off, e.addSgs off = none
  out : e.copyOut = true
  ret : ∀ n c, (e.sys.ret n c).code = 0

/-! The pages of a batch -/

section
variable {e : DrvEnv} {pt : Nat → Nat} {a : MemcpyArgs} {off : Nat}

theorem batchAt_user (hu : a.userAddrStart + a.totalCount ≤ taskSize) (hlt : off < a.totalCount) :
    (batchAt a off).userAddr = a.userAddrStart + off ∧
      (batchAt a off).pageOff = (a.userAddrStart + off) % pageSize ∧
      0 < (batchAt a off).count ∧
      (batchAt a off).pageOff + (batchAt a off).count ≤ (batchAt a off).pages * pageSize := by
  have ht : taskSize < 2 ^ 47 := by decide
  have hadd : add64 a.userAddrStart off = a.userAddrStart + off := add64_of_lt (by omega)
  have hm := Nat.mod_lt (a.userAddrStart + off) (show 0 < pageSize by decide)
  have h1 : (batchAt a off).userAddr = a.userAddrStart + off := hadd
  have h2 : (batchAt a off).pageOff = (a.userAddrStart + off) % pageSize := by
    show add64 a.userAddrStart off % pageSize = _
    rw [hadd]
  have hp : (batchAt a off).pages = min pagesPerBatch
      (((a.userAddrStart + off) % pageSize + (a.totalCount - off) + 4095) / 4096) := by
    show min pagesPerBatch (pagesFor (add64 (add64 a.userAddrStart off % pageSize) _)) = _
    simp only [pageSize] at hm
    simp only [hadd, pagesFor, pageSize, Nat.add_one_sub_one]
    rw [add64_of_lt (show (a.userAddrStart + off) % 4096 + (a.totalCount - off) < 2 ^ 64 by omega),
      add64_of_lt (by omega)]
  have hc : (batchAt a off).count = min (sub64 ((batchAt a off).pages * pageSize)
      (batchAt a off).pageOff) (a.totalCount - off) := rfl
  simp only [pageSize, pagesPerBatch] at hm h2 hp hc ⊢
  have hpos : (batchAt a off).pageOff < (batchAt a off).pages * 4096 := by omega
  rw [sub64_of_le (by omega) (by omega)] at hc
  exact ⟨h1, h2, by omega, by omega⟩

def framesAt (pt : Nat → Nat) (a : MemcpyArgs) (off : Nat) : List Nat :=
  (List.range (batchAt a off).pages).map fun i => pt ((batchAt a off).userAddr / pageSize + i)

/-- The pages that a pin gives are those of the user range, in order. -/
def PinsHonest (e : DrvEnv) (pt : Nat → Nat) : Prop :=
  ∀ u n w pfns, e.pin u n w = .ok pfns → pfns.length = n →
    pfns = (List.range n).map fun i => pt (u / pageSize + i)

theorem Ready.frames {pfns : List Nat} (h : Ready e a off pfns) (hp : PinsHonest e pt) :
    pfns = framesAt pt a off := by
  rw [hp _ _ _ _ h.pinned h.whole, Nat.mul_div_cancel _ (show 0 < pageSize by decide)]
  rfl

theorem ready_framesAt (hpin : e.pin ((batchAt a off).userAddr / pageSize * pageSize)
      (batchAt a off).pages (a.kind = 2) = .ok (framesAt pt a off)) (hq : e.addSgs off = none)
    (hu : a.userAddrStart + a.totalCount ≤ taskSize) (hlt : off < a.totalCount) :
    Ready e a off (framesAt pt a off) := by
  obtain ⟨-, -, h3, h4⟩ := batchAt_user hu hlt
  have hlen : (framesAt pt a off).length = (batchAt a off).pages := by simp [framesAt]
  refine ⟨hpin, hlen, fun hnil => ?_, hq⟩
  have haddr := coalesce_addrs (pageOff_lt a off) (hlen.symm ▸ h4)
  have hl := congrArg List.length haddr
  rw [batchData] at hnil
  rw [hnil] at hl
  simp [pageAddrs] at hl
  omega

theorem Ready.user_addrs (h : Ready e a off (framesAt pt a off))
    (hu : a.userAddrStart + a.totalCount ≤ taskSize) (hlt : off < a.totalCount) :
    (batchData a off (framesAt pt a off)).flatMap Iov.addrs =
      (List.range (batchAt a off).count).map fun i => phys pt (a.userAddrStart + off + i) := by
  obtain ⟨h1, h2, h3, h4⟩ := batchAt_user hu hlt
  rw [h.addrs, pageAddrs]
  apply List.map_congr_left
  intro i hi
  have hi := List.mem_range.mp hi
  have hpos : 0 < pageSize := by decide
  have hdm := Nat.div_add_mod (a.userAddrStart + off) pageSize
  have hsum : a.userAddrStart + off + i = (batchAt a off).pageOff + i +
      pageSize * ((a.userAddrStart + off) / pageSize) := by omega
  have hpage : ((batchAt a off).pageOff + i) / pageSize < (batchAt a off).pages :=
    Nat.div_lt_of_lt_mul (by rw [Nat.mul_comm]; omega)
  have hget : (framesAt pt a off).getD (((batchAt a off).pageOff + i) / pageSize) 0 =
      pt ((a.userAddrStart + off) / pageSize + ((batchAt a off).pageOff + i) / pageSize) := by
    rw [framesAt, List.getD_eq_getElem _ _ (by simpa using hpage)]
    simp [h1]
  rw [hget, phys, hsum, Nat.add_mul_div_left _ _ hpos, Nat.add_mul_mod_self_left,
    Nat.add_comm ((a.userAddrStart + off) / pageSize)]

theorem Smooth.ready (h : Smooth e pt) (hu : a.userAddrStart + a.totalCount ≤ taskSize)
    (hlt : off < a.totalCount) : Ready e a off (framesAt pt a off) := by
  refine ready_framesAt ?_ (h.queue off) hu hlt
  rw [h.pin, Nat.mul_div_cancel _ (show 0 < pageSize by decide)]
  rfl

theorem Smooth.addrs (h : Smooth e pt) (hu : a.userAddrStart + a.totalCount ≤ taskSize)
    (hlt : off < a.totalCount) : (batchData a off (framesAt pt a off)).flatMap Iov.addrs =
      (List.range (batchAt a off).count).map fun i => phys pt (a.userAddrStart + off + i) :=
  (h.ready hu hlt).user_addrs hu hlt

end

/-! The batches together -/

theorem applyWrites_space {mem : ByteMem Space} {ws : List RespWrite} {sp : Space}
    (h : ∀ w ∈ ws, w.sp ≠ sp) : applyWrites mem ws sp = mem sp := by
  induction ws generalizing mem with
  | nil => rfl
  | cons w ws ih =>
    rw [applyWrites, List.foldl_cons]
    refine (ih fun x hx => h x (List.mem_cons_of_mem _ hx)).trans ?_
    exact mem.write_space _ _ (h w List.mem_cons_self).symm

theorem Delivered.unshared {caller : Nat} {b : BatchRec} (h : Delivered caller b) :
    ∀ w ∈ b.served.writes, ¬Shared w.sp := by
  intro w hw
  rw [h.lands w hw]
  simp [Shared]

theorem Dir.kind_cases (d : Dir) : d.kind = 1 ∨ d.kind = 2 := by
  cases d
  exacts [.inl rfl, .inr rfl]

/-- `cs` are the copies of the first `n` bytes of a range, all on one stream. -/
structure Submitted (d : Dir) (pt : Nat → Nat) (m₀ : ByteMem Space) (real u tag n : Nat)
    (g : Engine Space) (cs : List (Copy Space)) : Prop where
  pairs : cs.flatMap Copy.pairs = rangePairs d real pt u n
  pos : ∀ c ∈ cs, 0 < c.len
  tags : ∀ c ∈ cs, c.tag = tag
  covers : Covers Shared m₀ cs g

section
variable {d : Dir} {pt : Nat → Nat} {m₀ : ByteMem Space} {real u tag n : Nat}
  {g : Engine Space} {cs : List (Copy Space)}

theorem Submitted.shared (h : Submitted d pt m₀ real u tag n g cs) :
    ∀ c ∈ cs, Shared c.src.1 ∧ Shared c.dst.1 :=
  shared_copy (shared_rangePairs d real pt u n) h.pairs h.pos

theorem Submitted.outside (h : Submitted d pt m₀ real u tag n g cs) {m : ByteMem Space}
    (hm : ∀ sp, Shared sp → m sp = g.mem sp) :
    Submitted d pt m₀ real u tag n { g with mem := m } cs :=
  { h with covers := h.covers.outside (fun c hc => (h.shared c hc).2) hm }

theorem Submitted.setMem {m : Machine} (h : Submitted d pt m₀ real u tag n m.dev.eng cs)
    {sp : Space} (hsp : ¬Shared sp) (f : Nat → UInt8) :
    Submitted d pt m₀ real u tag n (m.setMem sp f).dev.eng cs := by
  refine h.outside fun x hx => Function.update_of_ne ?_ _ _
  rintro rfl
  exact hsp hx

theorem Submitted.deliver {m : Machine} (h : Submitted d pt m₀ real u tag n m.dev.eng cs)
    (hsep : Separate pt u n) (env : Env) {ws : List RespWrite}
    (hw : ∀ w ∈ ws, ¬Shared w.sp) :
    Submitted d pt m₀ real u tag n (m.deliver env ws).dev.eng cs := by
  have hcov := h.covers.finishMany (independent_range hsep h.pairs)
    (fun c hc => (h.shared c hc).1) (env.dma m.dev.clock)
  have hf : Submitted d pt m₀ real u tag n (m.dev.eng.finishMany (env.dma m.dev.clock)) cs :=
    { h with covers := hcov }
  refine hf.outside fun sp hs => applyWrites_space fun w hmem => ?_
  rintro rfl
  exact hw w hmem hs

end

theorem Separate.mono {pt : Nat → Nat} {u n k : Nat} (h : Separate pt u n) (hk : k ≤ n) :
    Separate pt u k := fun i hi j hj => h i (hi.trans_le hk) j (hj.trans_le hk)

section
variable {e : DrvEnv} {pt : Nat → Nat} {m : MemCmd} {d : Dir} {a : MemcpyArgs} {c : Context}
  {m₀ : ByteMem Space} {real stream off : Nat} {s s' : DrvSt} {t : Tables}

structure CopyInv (e : DrvEnv) (pt : Nat → Nat) (m : MemCmd) (d : Dir) (a : MemcpyArgs)
    (t : Tables) (m₀ : ByteMem Space) (real stream tag off : Nat) (s : DrvSt) : Prop where
  req : CopyReq m.copy a.kind stream s.reqBuf
  tab : s.m.tab = t
  seen : s.seen e.caller = 0
  subm : ∃ cs, Submitted d pt m₀ real a.userAddrStart tag off s.m.dev.eng cs
  synced : m.syncs d = true → s.m.dev.eng.pending = []

/-- The copies of the batch at `off`. -/
def batchCopies (d : Dir) (a : MemcpyArgs) (pt : Nat → Nat) (real tag off : Nat) :
    List (Copy Space) :=
  (tile 0 (batchData a off (framesAt pt a off))).map fun ch => d.copy (real + off + ch.off) tag ch

theorem batchCopies_pairs (h : Smooth e pt) (hu : a.userAddrStart + a.totalCount ≤ taskSize)
    (hlt : off < a.totalCount) {tag : Nat} : (batchCopies d a pt real tag off).flatMap Copy.pairs =
      (List.range (batchAt a off).count).map fun i =>
        d.pair (real + (off + i)) (phys pt (a.userAddrStart + (off + i))) := by
  unfold batchCopies
  rw [tile_pairs, h.addrs hu hlt]
  apply List.ext_getElem
  · simp
  · intro i h1 h2
    simp [Nat.add_assoc]

theorem batchCopies_pos {tag : Nat} :
    ∀ x ∈ batchCopies d a pt real tag off, 0 < x.len ∧ x.tag = tag := by
  intro x hx
  obtain ⟨ch, hch, rfl⟩ := List.mem_map.mp hx
  obtain ⟨-, -, h3, h4⟩ := mem_tile hch
  have hpos := batchData_pos a off (framesAt pt a off) _ h3
  rw [← h4] at hpos
  cases d <;> exact ⟨hpos, rfl⟩

theorem Batched.ran_machine (hk : a.kind = d.kind) (hcount : a.totalCount < 2 ^ 64)
    (hr : CopyReq m.copy a.kind stream s.reqBuf) (ht : s.m.tab = t) {pfns : List Nat} {sv : Served}
    (hb : Batched e m.copy a off s pfns sv s') :
    sv.err = ((chunkLoop m d e.key (add64 a.devPtr off) stream
        (tile 0 (batchData a off pfns))).run ⟨e.sys, t⟩ (s.shown e m.copy a off).dev).1 % 2 ^ 32 ∧
      s'.m = ({ (s.shown e m.copy a off) with
        dev := ((chunkLoop m d e.key (add64 a.devPtr off) stream
          (tile 0 (batchData a off pfns))).run ⟨e.sys, t⟩
            (s.shown e m.copy a off).dev).2 } : Machine).deliver e.sys sv.writes := by
  have hplan := batchPlan_mem (s := s) hk hr hcount hb.ready
  have htab : (s.shown e m.copy a off).tab = t := ht
  constructor
  · rw [hb.err, hplan, query_fst, htab]
  · rw [← htab, hb.post, hplan]
    rfl

theorem Batched.mem_machine (hs : Smooth e pt) (hu : a.userAddrStart + a.totalCount ≤ taskSize)
    (hk : a.kind = d.kind) (hdev : a.devPtr + a.totalCount < 2 ^ 64)
    (hr : CopyReq m.copy a.kind stream s.reqBuf) (ht : s.m.tab = t) (hlt : off < a.totalCount)
    {pfns : List Nat} {sv : Served} (hb : Batched e m.copy a off s pfns sv s') :
    (∃ code : Nat, code = ((chunkLoop m d e.key (a.devPtr + off) stream
        (tile 0 (batchData a off (framesAt pt a off)))).run ⟨e.sys, t⟩
          (s.shown e m.copy a off).dev).1 ∧ sv.err = code % 2 ^ 32) ∧
      s'.m = ({ (s.shown e m.copy a off) with
        dev := ((chunkLoop m d e.key (a.devPtr + off) stream
          (tile 0 (batchData a off (framesAt pt a off)))).run ⟨e.sys, t⟩
            (s.shown e m.copy a off).dev).2 } : Machine).deliver e.sys sv.writes := by
  have htask : taskSize < 2 ^ 47 := by decide
  have hready := hs.ready hu hlt
  obtain rfl := hb.ready.unique hready
  obtain ⟨herr, hm⟩ := hb.ran_machine hk (by omega) hr ht
  have hadd : add64 a.devPtr off = a.devPtr + off := add64_of_lt (by omega)
  rw [hadd] at herr hm
  exact ⟨⟨_, rfl, herr⟩, hm⟩

theorem CopyInv.batch (hs : Smooth e pt) (hu : a.userAddrStart + a.totalCount ≤ taskSize)
    (hsep : Separate pt a.userAddrStart a.totalCount) (hk : a.kind = d.kind)
    (hc : t.ctxGet e.key = some c) (hdev : a.devPtr + a.totalCount < 2 ^ 64)
    (ht : ChunksMove m d e.key ⟨e.sys, t⟩ m₀ a.devPtr a.totalCount real stream
      (resolveStream c stream))
    (h : CopyInv e pt m d a t m₀ real stream (resolveStream c stream) off s)
    (hlt : off < a.totalCount) {pfns : List Nat} {sv : Served}
    (hb : Batched e m.copy a off s pfns sv s') :
    CopyInv e pt m d a t m₀ real stream (resolveStream c stream) (off + (batchAt a off).count)
      s' := by
  have htask : taskSize < 2 ^ 47 := by decide
  have hready := hs.ready hu hlt
  obtain rfl := hb.ready.unique hready
  have htot : a.totalCount < 2 ^ 64 := by omega
  have hcount := batchAt_count_rem a off
  have hlen := hready.totalLen
  obtain ⟨cs, hsub⟩ := h.subm
  have hnew : (cs ++ batchCopies d a pt real (resolveStream c stream) off).flatMap Copy.pairs =
      rangePairs d real pt a.userAddrStart (off + (batchAt a off).count) := by
    rw [List.flatMap_append, hsub.pairs, batchCopies_pairs hs hu hlt, rangePairs, rangePairs,
      List.range_add, List.map_append, List.map_map]
    rfl
  have hpos : ∀ x ∈ cs ++ batchCopies d a pt real (resolveStream c stream) off, 0 < x.len := by
    intro x hx
    rcases List.mem_append.mp hx with hx | hx
    · exact hsub.pos x hx
    · exact (batchCopies_pos x hx).1
  -- the batch's own request does not touch what the earlier copies still move
  have hshown := hsub.setMem (show ¬Shared (.req e.caller) by simp [Shared])
    (batchReq m.copy.cmd.code a off s.reqBuf)
  have hind := independent_range (hsep.mono (by omega)) hnew
  have hD := shared_copy (shared_rangePairs d real pt _ _) hnew hpos
  obtain ⟨h0, h1, hsyn⟩ := chunkLoop_moves (v := (s.shown e m.copy a off).dev) hs.ret hc ht
    (by rw [hlen]; omega) (batchData_pos a off _) hshown.covers hind hD
  obtain ⟨⟨code, hcode, herr⟩, hm'⟩ := hb.mem_machine hs hu hk hdev h.req h.tab hlt
  rw [hcode, h0] at herr
  have hdel := hb.delivered m.copy_ne h.req htot (hk ▸ d.kind_cases)
  have hseen : s'.seen e.caller = 0 := hdel.seen.trans herr
  have hws : ∀ w ∈ sv.writes, ¬Shared w.sp := hdel.unshared
  have hsub' : Submitted d pt m₀ real a.userAddrStart (resolveStream c stream)
      (off + (batchAt a off).count) ((chunkLoop m d e.key (a.devPtr + off) stream
        (tile 0 (batchData a off (framesAt pt a off)))).run ⟨e.sys, t⟩
          (s.shown e m.copy a off).dev).2.eng
      (cs ++ batchCopies d a pt real (resolveStream c stream) off) := by
    refine ⟨hnew, hpos, fun x hx => ?_, h1⟩
    rcases List.mem_append.mp hx with hx | hx
    · exact hsub.tags x hx
    · exact (batchCopies_pos x hx).2
  refine ⟨?_, ?_, hseen, ⟨cs ++ batchCopies d a pt real (resolveStream c stream) off, ?_⟩,
    fun hsync => ?_⟩
  · rw [hb.post]
    exact h.req.batchReq m.copy_ne
  · rw [hm']
    exact h.tab
  · rw [hm']
    exact hsub'.deliver (hsep.mono (by omega)) e.sys hws
  · -- what the loop leaves pending is of its stream, and the synchronize waited for those
    rw [hm', List.eq_nil_iff_forall_not_mem]
    intro x hx
    have hx := Engine.finishMany_pending_subset _ _ hx
    exact hsyn hsync x hx (hsub'.tags x (h1.sub x hx))

/-- What the batches of a copy keep of the engine, besides the copies they submit. -/
def BatchesKeep (e : DrvEnv) (pt : Nat → Nat) (m : MemCmd) (d : Dir) (a : MemcpyArgs) (t : Tables)
    (m₀ : ByteMem Space) (real stream tag : Nat) (J : Nat → Engine Space → Prop) : Prop :=
  ∀ off s s' pfns sv, off < a.totalCount → CopyInv e pt m d a t m₀ real stream tag off s →
    J off s.m.dev.eng → Batched e m.copy a off s pfns sv s' →
      J (off + (batchAt a off).count) s'.m.dev.eng

/-- The loop of a copy that goes well ends with the whole range submitted. -/
theorem copyLoop_smooth {J : Nat → Engine Space → Prop} (hs : Smooth e pt)
    (hu : a.userAddrStart + a.totalCount ≤ taskSize)
    (hsep : Separate pt a.userAddrStart a.totalCount) (hk : a.kind = d.kind)
    (hc : t.ctxGet e.key = some c) (hdev : a.devPtr + a.totalCount < 2 ^ 64)
    (ht : ChunksMove m d e.key ⟨e.sys, t⟩ m₀ a.devPtr a.totalCount real stream
      (resolveStream c stream))
    (hJ : BatchesKeep e pt m d a t m₀ real stream (resolveStream c stream) J)
    (h : CopyInv e pt m d a t m₀ real stream (resolveStream c stream) 0 s)
    (h0 : J 0 s.m.dev.eng) :
    ((copyLoop m.copy a).run e s).1 = .ret 0 ∧ CopyInv e pt m d a t m₀ real stream
      (resolveStream c stream) a.totalCount ((copyLoop m.copy a).run e s).2 ∧
      J a.totalCount ((copyLoop m.copy a).run e s).2.m.dev.eng := by
  refine copyLoop_rule (I := fun off s => CopyInv e pt m d a t m₀ real stream
      (resolveStream c stream) off s ∧ J off s.m.dev.eng)
    (Q := fun h s => h = .ret 0 ∧ CopyInv e pt m d a t m₀ real stream (resolveStream c stream)
      a.totalCount s ∧ J a.totalCount s.m.dev.eng) (fun _ s hI => hI.1.req.cmd)
    (fun off s s' h hlt hI _ hn _ => ?_) (fun off s s' pfns sv hlt hI hb _ => ?_)
    (fun off s s' pfns sv hlt hI hb hne => ?_) (fun s hI => ⟨rfl, hI⟩) ⟨h, h0⟩
  · exact absurd (hs.ready hu hlt) (hn _)
  · exact ⟨hI.1.batch hs hu hsep hk hc hdev ht hlt hb, hJ off s s' pfns sv hlt hI.1 hI.2 hb⟩
  · exact absurd (hI.1.batch hs hu hsep hk hc hdev ht hlt hb).seen hne

end

/-! The ioctl -/

def IoctlRes.status (r : IoctlRes) : Option Nat :=
  r.out.map fun bs => respHeader.cudaError.get fun a => bs.getD a 0

theorem IoctlRes.status_read {r : IoctlRes} {mem : ByteMem Space} {caller : Nat}
    (h : r.out = some (mem.read (.resp caller) 0 (sizeof respHeader))) :
    r.status = some (respHeader.cudaError.get (mem (.resp caller))) := by
  rw [IoctlRes.status, h, Option.map_some, Option.some_inj]
  refine Field.get_congr fun a _ ha => ?_
  have hlt : a < sizeof respHeader := ha.trans_le (by decide)
  rw [ByteMem.getD_read _ _ hlt, Nat.zero_add]

theorem finishIoctl_answer (e : DrvEnv) (s : DrvSt) :
    ((finishIoctl (sizeof respHeader) (.ret 0)).run e s).1.status =
      if e.copyOut then some (s.seen e.caller) else none := by
  rw [finishIoctl_zero]
  split
  · exact IoctlRes.status_read rfl
  · rfl

theorem finishIoctl_success {n : Nat} {h : Halt} {e : DrvEnv} {s : DrvSt}
    (hr : ((finishIoctl n h).run e s).1.halt = .ret 0) : h = .ret 0 ∧ e.copyOut = true := by
  have hh : h = .ret 0 := by
    by_contra hne
    exact hne ((finishIoctl_halt hne e s).symm.trans hr)
  refine ⟨hh, ?_⟩
  by_contra hno
  simp [finishIoctl, hh, hno, efault] at hr

/-- How an ioctl ends that has submitted the copies of `n` bytes, with status 0. -/
structure RangeSent (m : MemCmd) (d : Dir) (pt : Nat → Nat) (real u tag n : Nat)
    (caller : Nat) (s : DrvSt) (r : IoctlRes × DrvSt) : Prop where
  halt : r.1.halt = .ret 0
  out : r.1.out = some (r.2.m.dev.eng.mem.read (.resp caller) 0 (sizeof respHeader))
  seen : r.2.seen caller = 0
  tab : r.2.m.tab = s.m.tab
  subm : ∃ cs, Submitted d pt s.m.dev.eng.mem real u tag n r.2.m.dev.eng cs
  synced : m.syncs d = true → r.2.m.dev.eng.pending = []

section
variable {e : DrvEnv} {pt : Nat → Nat} {m : MemCmd} {d : Dir} {hdr p : Nat → UInt8}
  {u dev n stream real : Nat} {c : Context} {s : DrvSt}

theorem hmcudaIoctl_smooth_keeps {J : Nat → Engine Space → Prop} (hs : Smooth e pt)
    (hp : Built e m.copy hdr p)
    (hr : (memReq p).args = ⟨u, n, dev, d.kind⟩) (hstream : (memReq p).stream = stream)
    (hu : u + n ≤ taskSize) (hsep : Separate pt u n) (hdev : dev + n < 2 ^ 64)
    (hidle : s.m.dev.eng.pending = []) (hc : s.m.tab.ctxGet e.key = some c)
    (ht : ChunksMove m d e.key ⟨e.sys, s.m.tab⟩ s.m.dev.eng.mem dev n real stream
      (resolveStream c stream))
    (hJ : BatchesKeep e pt m d ⟨u, n, dev, d.kind⟩ s.m.tab s.m.dev.eng.mem real stream
      (resolveStream c stream) J) (hJ0 : ∀ g : Engine Space, g.pending = [] → J 0 g) :
    RangeSent m d pt real u (resolveStream c stream) n e.caller s (hmcudaIoctl.run e s) ∧
      J n (hmcudaIoctl.run e s).2.m.dev.eng := by
  obtain ⟨t, w, hstart, ⟨x, hx, -⟩, hrun⟩ := hmcudaIoctl_memLoop m.copy_ne hp
    ⟨hs.alloc _, hs.alloc _⟩ hr s
  rw [hstream] at hstart
  have h0 : CopyInv e pt m d ⟨u, n, dev, d.kind⟩ s.m.tab s.m.dev.eng.mem real stream
      (resolveStream c stream) 0 t := by
    refine ⟨hstart.req, hstart.tab, hstart.seen, ⟨[], ?_⟩, fun _ => hstart.pending.trans hidle⟩
    have hnone : Submitted d pt s.m.dev.eng.mem real u (resolveStream c stream) 0
        s.m.dev.eng [] :=
      ⟨by simp [rangePairs], by simp, by simp, Covers.start Shared _ hidle⟩
    rw [hstart.m]
    exact hnone.setMem (by simp [Shared]) _
  obtain ⟨h1, h2, h3⟩ := copyLoop_smooth hs hu hsep rfl hc hdev ht hJ h0
    (hJ0 _ (hstart.pending.trans hidle))
  rw [h1] at hrun
  obtain ⟨y, hy, -⟩ := finishIoctl_sameBut (sizeof respHeader) (.ret 0) e w
  rw [hrun]
  refine ⟨⟨?_, ?_, ?_, ?_, ?_, ?_⟩, ?_⟩
  · rw [finishIoctl_zero, if_pos hs.out]
  · rw [finishIoctl_zero, if_pos hs.out, hy]
  all_goals rw [hy, hx]
  exacts [h2.seen, h2.tab, h2.subm, h2.synced, h3]

theorem hmcudaIoctl_smooth (hs : Smooth e pt) (hp : Built e m.copy hdr p)
    (hr : (memReq p).args = ⟨u, n, dev, d.kind⟩) (hstream : (memReq p).stream = stream)
    (hu : u + n ≤ taskSize) (hsep : Separate pt u n) (hdev : dev + n < 2 ^ 64)
    (hidle : s.m.dev.eng.pending = []) (hc : s.m.tab.ctxGet e.key = some c)
    (ht : ChunksMove m d e.key ⟨e.sys, s.m.tab⟩ s.m.dev.eng.mem dev n real stream
      (resolveStream c stream)) :
    RangeSent m d pt real u (resolveStream c stream) n e.caller s (hmcudaIoctl.run e s) :=
  (hmcudaIoctl_smooth_keeps (J := fun _ _ => True) hs hp hr hstream hu hsep hdev hidle hc ht
    (fun _ _ _ _ _ _ _ _ _ => trivial) fun _ _ => trivial).1

end

end HmCuda
