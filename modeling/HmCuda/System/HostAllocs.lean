import HmCuda.Driver.PlainSpec
import HmCuda.System.CopyLaw
import HmCuda.System.PinnedBounds
import HmCuda.System.PinnedLookup

/-! A pinned allocation on the backend: the first chunk of the first batch allocates and
registers, the others only copy, and a refused allocation registers nothing. -/

namespace HmCuda
open Layout

/-- The entries of a session's pinned list are findable: no entry is empty, at NULL, or wraps. -/
def Sound (l : List Resource) : Prop :=
  ∀ r ∈ l, 0 < r.size ∧ r.handle + r.size < 2 ^ 64 ∧ r.realPtr ≠ 0 ∧ r.realPtr + r.size < 2 ^ 64

theorem Sound.resGet_ne {c : Context} (h : Sound (c.resources .hostMem)) {r : Resource}
    (hr : r ∈ c.resources .hostMem) : c.resGet .hostMem r.handle ≠ 0 := by
  obtain ⟨hpos, hwrap, -, -⟩ := h r hr
  have hself : r.covers .hostMem r.handle = true := by
    rw [covers_eq rfl hwrap]
    exact decide_eq_true ⟨Nat.le_refl _, by omega⟩
  obtain ⟨x, hx⟩ := Option.isSome_iff_exists.mp (List.find?_isSome.mpr ⟨r, hr, hself⟩)
  have hmem := List.mem_of_find?_eq_some hx
  obtain ⟨-, hxw, hp, hpw⟩ := h x hmem
  have hcov := List.find?_some hx
  rw [covers_eq rfl hxw, decide_eq_true_iff] at hcov
  obtain ⟨hlo, hhi⟩ := hcov
  have hfind : c.resFind .hostMem r.handle = some x := hx
  rw [c.resGet_eq, hfind]
  show add64 x.realPtr (r.handle - x.handle) ≠ 0
  rw [add64_of_lt (by omega)]
  omega

section Chunks
variable {k : Key} {e : Env} {bytesize flags va : Nat}

/-- The session's pinned list is `l`. -/
def PinnedList (k : Key) (t : Tables) (l : List Resource) : Prop :=
  ∃ c, t.ctxGet k = some c ∧ c.resources .hostMem = l

theorem PinnedList.add {t : Tables} {l : List Resource} (h : PinnedList k t l) (ty : ResType)
    (p n a : Nat) : PinnedList k (t.resAddWithHandle k ty p n a)
      (if ty = .hostMem then ⟨a, p, n⟩ :: l else l) := by
  obtain ⟨c, hc, rfl⟩ := h
  refine ⟨_, Tables.ctxGet_resAddWithHandle hc ty p n a, ?_⟩
  rw [Context.push_resources]
  by_cases hty : ty = .hostMem
  · subst hty
    rfl
  · rw [if_neg hty, if_neg (Ne.symm hty)]

theorem copyToHostAlloc_head {q : QEnv} {r : Resource} {l : List Resource}
    (h : PinnedList k q.tab (r :: l)) (hr : r.handle = va) (hpos : 0 < r.size)
    (hwrap : r.handle + r.size < 2 ^ 64) (hp : r.realPtr ≠ 0) (hpw : r.realPtr + r.size < 2 ^ 64)
    (off : Nat) (hostPtr : Space × Nat) (len : Nat) (v : Device) :
    ((copyToHostAlloc k va off hostPtr len).run q v).1 = 0 := by
  obtain ⟨c, hc, hl⟩ := h
  have hcov : r.covers .hostMem va = true := by
    rw [covers_eq rfl hwrap, ← hr]
    exact decide_eq_true ⟨Nat.le_refl _, by omega⟩
  have hf : c.resFind .hostMem va = some r := by
    rw [Context.resFind, hl, List.find?_cons_of_pos hcov]
  have hne : r.pointer .hostMem va ≠ 0 := by
    show add64 r.realPtr (va - r.handle) ≠ 0
    rw [← hr, Nat.sub_self, add64_of_lt (by omega)]
    omega
  unfold copyToHostAlloc
  rw [withCtx_run hc]
  simp [hf, hne]

def Places (e : Env) (bytesize flags : Nat) : Prop := ∀ n,
  (e.ret n ⟨.cuMemHostAlloc, [bytesize, flags ||| 2], []⟩).out 0 ≠ 0 ∧
    (e.ret n ⟨.cuMemHostAlloc, [bytesize, flags ||| 2], []⟩).out 0 + bytesize < 2 ^ 64

def Grown (va bytesize : Nat) (l l' : List Resource) : Prop :=
  ∃ p, p ≠ 0 ∧ p + bytesize < 2 ^ 64 ∧ l' = ⟨va, p, bytesize⟩ :: l

variable {l : List Resource} {s : Machine}

theorem hostAllocVq_first (hret : ∀ n c, (e.ret n c).code = 0) (hp : Places e bytesize flags)
    (hpos : 0 < bytesize) (hwrap : va + bytesize < 2 ^ 64) (h : PinnedList k s.tab l)
    (hostPtr : Space × Nat) (len : Nat) :
    ((coreCuMemHostAllocVq k bytesize flags va 0 hostPtr len).run e s).1 = 0 ∧
      ∃ l', Grown va bytesize l l' ∧
        PinnedList k ((coreCuMemHostAllocVq k bytesize flags va 0 hostPtr len).run e s).2.tab l' := by
  obtain ⟨hp0, hpw⟩ := hp s.dev.clock
  obtain ⟨c, hc, -⟩ := id h
  simp only [coreCuMemHostAllocVq, withCtxM, hc, Prog.ite_run, Prog.bind_run, query_fst, lib_run,
    hret, ne_eq, not_true_eq_false, if_false, if_true]
  have h1 := h.add .hostMem
    ((e.ret s.dev.clock ⟨.cuMemHostAlloc, [bytesize, flags ||| 2], []⟩).out 0) bytesize va
  rw [if_pos rfl] at h1
  have h2 := h1.add .hostDevPtr ((e.ret (s.dev.clock + 1) ⟨.cuMemHostGetDevicePointer,
    [(e.ret s.dev.clock ⟨.cuMemHostAlloc, [bytesize, flags ||| 2], []⟩).out 0, 0], []⟩).out 0)
    bytesize va
  rw [if_neg (by decide)] at h2
  refine ⟨?_, _, ⟨_, hp0, hpw, rfl⟩, h2⟩
  exact copyToHostAlloc_head (q := ⟨e, _⟩) (r := ⟨va, _, bytesize⟩) h2 rfl hpos hwrap hp0 hpw _ _ _ _

variable (va) in
theorem hostAllocVq_refused
    (hret : ∀ n, (e.ret n ⟨.cuMemHostAlloc, [bytesize, flags ||| 2], []⟩).code % 2 ^ 32 ≠ 0)
    (h : PinnedList k s.tab l) (hostPtr : Space × Nat) (len : Nat) :
    ((coreCuMemHostAllocVq k bytesize flags va 0 hostPtr len).run e s).1 % 2 ^ 32 ≠ 0 ∧
      ((coreCuMemHostAllocVq k bytesize flags va 0 hostPtr len).run e s).2.tab = s.tab := by
  obtain ⟨c, hc, -⟩ := h
  have hcode := hret s.dev.clock
  have hne : (e.ret s.dev.clock ⟨.cuMemHostAlloc, [bytesize, flags ||| 2], []⟩).code ≠ 0 :=
    fun h0 => hcode (by rw [h0, Nat.zero_mod])
  simp only [coreCuMemHostAllocVq, withCtxM, hc, Prog.ite_run, Prog.bind_run, query_fst, lib_run,
    if_true, ne_eq, hne, not_false_eq_true, Prog.pure_run]
  exact ⟨hcode, rfl⟩

variable (flags) in
theorem hostAllocVq_later {o : Nat} (ho : o ≠ 0) {l' : List Resource}
    (hg : Grown va bytesize l l') (hpos : 0 < bytesize) (hwrap : va + bytesize < 2 ^ 64)
    (h : PinnedList k s.tab l') (hostPtr : Space × Nat) (len : Nat) :
    ((coreCuMemHostAllocVq k bytesize flags va o hostPtr len).run e s).1 = 0 ∧
      ((coreCuMemHostAllocVq k bytesize flags va o hostPtr len).run e s).2.tab = s.tab := by
  obtain ⟨p, hp0, hpw, rfl⟩ := hg
  obtain ⟨c, hc, -⟩ := id h
  simp only [coreCuMemHostAllocVq, withCtxM, hc, if_neg ho]
  exact ⟨copyToHostAlloc_head (q := ⟨e, _⟩) (r := ⟨va, p, bytesize⟩) h rfl hpos hwrap hp0 hpw
    _ _ _ _, rfl⟩

variable (flags) in
theorem allocLoop_later {l' : List Resource} (hg : Grown va bytesize l l') (hpos : 0 < bytesize)
    (hwrap : va + bytesize < 2 ^ 64) {o : Nat} {chs : List Chunk}
    (ho : ∀ ch ∈ chs, add64 o ch.off ≠ 0) (h : PinnedList k s.tab l') :
    ((Prog.firstError (fun ch => coreCuMemHostAllocVq k bytesize flags va (add64 o ch.off)
      (ch.iov.sp, ch.iov.base) ch.len) chs).run e s).1 = 0 ∧
      PinnedList k ((Prog.firstError (fun ch => coreCuMemHostAllocVq k bytesize flags va
        (add64 o ch.off) (ch.iov.sp, ch.iov.base) ch.len) chs).run e s).2.tab l' := by
  induction chs generalizing s with
  | nil => exact ⟨rfl, h⟩
  | cons ch chs ih =>
    obtain ⟨h0, ht⟩ := hostAllocVq_later (e := e) (s := s) flags
      (ho ch List.mem_cons_self) hg hpos hwrap h (ch.iov.sp, ch.iov.base) ch.len
    rw [Prog.firstError_cons, if_neg (not_not.mpr h0)]
    refine ih (fun x hx => ho x (List.mem_cons_of_mem _ hx)) ?_
    rwa [ht]

end Chunks

/-! The batches of an allocation -/

/-- The request buffer of an allocation, whatever batch it was last used for. -/
structure AllocReq (bytesize flags va : Nat) (h : Nat → UInt8) : Prop where
  cmd : reqHeader.cmdType.get h = DrvCmd.cuMemHostAlloc.code
  bytesize : cuMemHostAllocReq.bytesize.get (payloadOf h) = bytesize
  flags : cuMemHostAllocReq.flags.get (payloadOf h) = flags
  guestVa : cuMemHostAllocReq.guestVa.get (payloadOf h) = va

section
variable {e : DrvEnv} {bytesize flags va off : Nat} {s s' : DrvSt} {pfns : List Nat} {sv : Served}

def allocArgs (va bytesize : Nat) : MemcpyArgs := ⟨va, bytesize, 0, 1⟩

theorem AllocReq.batchReq {h : Nat → UInt8} (hr : AllocReq bytesize flags va h)
    (a : MemcpyArgs) (off : Nat) :
    AllocReq bytesize flags va (batchReq DrvCmd.cuMemHostAlloc.code a off h) := by
  refine ⟨(cmdType_withPayload _ _).trans hr.cmd, ?_, ?_, ?_⟩
  all_goals
    rw [HmCuda.batchReq, payloadOf_withPayload, updateReq, if_pos rfl]
    simp (disch := decide) only [Field.get_set_ne]
  exacts [hr.bytesize, hr.flags, hr.guestVa]

theorem byteOffset_batchReq (a : MemcpyArgs) (h : Nat → UInt8) (hoff : off < 2 ^ 64) :
    cuMemHostAllocReq.byteOffset.get
      (payloadOf (batchReq DrvCmd.cuMemHostAlloc.code a off h)) = off := by
  rw [batchReq, payloadOf_withPayload, updateReq, if_pos rfl, Field.get_set_of_lt _ hoff]

theorem get_batchPayload (a : MemcpyArgs) (i : Nat) :
    (field cuMemHostAllocReq i).get (batchPayload e .cuMemHostAlloc a off s pfns) =
      (field cuMemHostAllocReq i).get
        (payloadOf (batchReq DrvCmd.cuMemHostAlloc.code a off s.reqBuf)) := by
  refine Field.get_congr fun b _ hb => ?_
  rw [batchPayload, cmdStart_payload, batchElem, DrvSt.shown, memcpyElem_image]
  · rfl
  · rw [batchElem, memcpyElem_reqLen]
    exact Nat.add_lt_add_left (hb.trans_le (stop_le_sizeof _ i)) _

theorem batchPlan_alloc (hr : AllocReq bytesize flags va s.reqBuf) (hoff : off < 2 ^ 64)
    (h : Ready e (allocArgs va bytesize) off pfns) :
    batchPlan e .cuMemHostAlloc (allocArgs va bytesize) off s pfns =
      Prog.firstError (fun ch => coreCuMemHostAllocVq e.key bytesize flags va (add64 off ch.off)
        (ch.iov.sp, ch.iov.base) ch.len) (tile 0 (batchData (allocArgs va bytesize) off pfns)) := by
  have hq := hr.batchReq (allocArgs va bytesize) off
  have h0 : cuMemHostAllocReq.bytesize.get (batchPayload e .cuMemHostAlloc (allocArgs va bytesize)
      off s pfns) = bytesize := (get_batchPayload _ _).trans hq.bytesize
  have h1 : cuMemHostAllocReq.flags.get (batchPayload e .cuMemHostAlloc (allocArgs va bytesize)
      off s pfns) = flags := (get_batchPayload _ _).trans hq.flags
  have h2 : cuMemHostAllocReq.guestVa.get (batchPayload e .cuMemHostAlloc (allocArgs va bytesize)
      off s pfns) = va := (get_batchPayload _ _).trans hq.guestVa
  have h3 : cuMemHostAllocReq.byteOffset.get (batchPayload e .cuMemHostAlloc
      (allocArgs va bytesize) off s pfns) = off :=
    (get_batchPayload _ _).trans (byteOffset_batchReq _ _ hoff)
  have hlt : sizeof reqHeader + sizeof cuMemHostAllocReq +
      totalLen (batchData (allocArgs va bytesize) off pfns) < 2 ^ 64 := by
    rw [h.totalLen]
    exact (Nat.add_le_add_left h.count_le _).trans_lt (by decide)
  have hlen : 2 ≤ (batchData (allocArgs va bytesize) off pfns).length + 1 :=
    Nat.succ_le_succ (List.length_pos_of_ne_nil h.data)
  have hout : (cmdEnv e.sys e.key (batchElem e .cuMemHostAlloc (allocArgs va bytesize) off
      pfns)).elem.outSg = ⟨.req e.caller, 0, sizeof reqHeader + sizeof cuMemHostAllocReq⟩ ::
        batchData (allocArgs va bytesize) off pfns := rfl
  have hsum : sum64 ((⟨.req e.caller, 0, sizeof reqHeader + sizeof cuMemHostAllocReq⟩ ::
      batchData (allocArgs va bytesize) off pfns : List Iov).map (·.len)) =
        sizeof reqHeader + sizeof cuMemHostAllocReq +
          totalLen (batchData (allocArgs va bytesize) off pfns) := by
    have hall : totalLen (⟨.req e.caller, 0, sizeof reqHeader + sizeof cuMemHostAllocReq⟩ ::
        batchData (allocArgs va bytesize) off pfns) = sizeof reqHeader + sizeof cuMemHostAllocReq +
          totalLen (batchData (allocArgs va bytesize) off pfns) := totalLen_cons _ _
    rw [sum64_map_len (by rwa [hall]), hall]
  have htot : (cmdEnv e.sys e.key (batchElem e .cuMemHostAlloc (allocArgs va bytesize) off
      pfns)).totalOutLen = sum64 ((⟨.req e.caller, 0, sizeof reqHeader +
        sizeof cuMemHostAllocReq⟩ :: batchData (allocArgs va bytesize) off pfns : List Iov).map
          (·.len)) := rfl
  have hchunks : hostAllocChunks (cmdEnv e.sys e.key (batchElem e .cuMemHostAlloc
      (allocArgs va bytesize) off pfns)) = tile 0 (batchData (allocArgs va bytesize) off pfns) := by
    rw [hostAllocChunks, hout, htot, List.tail_cons, hsum, sub64_of_le (Nat.le_add_right _ _) hlt,
      Nat.add_sub_cancel_left]
    exact chunksFrom_whole (fun _ _ _ => rfl) (batchData_pos _ _ _) (Nat.zero_add _) (by omega)
  show cuMemHostAllocPlan e.key _ _ = _
  rw [cuMemHostAllocPlan, if_pos (by rw [hout]; exact hlen), hchunks, h0, h1, h2, h3]

theorem Batched.alloc_writes
    (hb : Batched e .cuMemHostAlloc (allocArgs va bytesize) off s pfns sv s') :
    sv.writes = [⟨.resp e.caller, 0, respBytes CopyCmd.cuMemHostAlloc.cmd.code sv.err []⟩] := by
  rw [hb.writes, batchElem]
  have hl : sizeof respHeader =
      (respBytes CopyCmd.cuMemHostAlloc.cmd.code sv.err []).length := by simp
  rw [hl]
  exact respWrites_memcpyElem (.inl rfl) hb.ready.data (by simp [respBytes, Bytes.le])

theorem Batched.alloc_seen
    (hb : Batched e .cuMemHostAlloc (allocArgs va bytesize) off s pfns sv s') :
    s'.seen e.caller = sv.err := by
  have hw := hb.alloc_writes
  have herr : sv.err < 2 ^ 32 := by
    rw [hb.err]
    exact Nat.mod_lt _ (Nat.two_pow_pos 32)
  rw [DrvSt.seen, hb.post]
  simp only [DrvSt.afterBatch, Machine.deliver, applyWrites, hw, List.foldl_cons, List.foldl_nil]
  rw [cudaError_write, Nat.mod_eq_of_lt herr]

theorem Batched.alloc_tab (hb : Batched e .cuMemHostAlloc (allocArgs va bytesize) off s pfns sv s') :
    s'.m.tab = ((batchPlan e .cuMemHostAlloc (allocArgs va bytesize) off s pfns).run e.sys
      (s.shown e .cuMemHostAlloc (allocArgs va bytesize) off)).2.tab := by
  rw [hb.post]
  rfl

theorem Batched.alloc_reqBuf
    (hb : Batched e .cuMemHostAlloc (allocArgs va bytesize) off s pfns sv s')
    (hr : AllocReq bytesize flags va s.reqBuf) : AllocReq bytesize flags va s'.reqBuf := by
  rw [hb.post]
  exact hr.batchReq _ off

theorem get_reqImage (hdr p : Nat → UInt8) (i : Nat) : (field cuMemHostAllocReq i).get
    (payloadOf (reqImage hdr p CopyCmd.cuMemHostAlloc.fixed)) = (field cuMemHostAllocReq i).get p :=
  Field.get_congr fun _ _ ha => payloadOf_reqImage hdr p (ha.trans_le (stop_le_sizeof _ i))

theorem alloc_reqImage {hdr p : Nat → UInt8}
    (hcode : reqHeader.cmdType.get hdr = DrvCmd.cuMemHostAlloc.code)
    (h0 : cuMemHostAllocReq.bytesize.get p = bytesize) (h1 : cuMemHostAllocReq.flags.get p = flags)
    (h2 : cuMemHostAllocReq.guestVa.get p = va) :
    AllocReq bytesize flags va (reqImage hdr p CopyCmd.cuMemHostAlloc.fixed) ∧
      copyArgs .cuMemHostAlloc hdr p = allocArgs va bytesize := by
  have hb := (get_reqImage hdr p 0).trans h0
  have hv := (get_reqImage hdr p 2).trans h2
  refine ⟨⟨(cmdType_reqImage _ _ _).trans hcode, hb, (get_reqImage hdr p 1).trans h1, hv⟩, ?_⟩
  have hcmd : CopyCmd.cuMemHostAlloc.cmd.code = DrvCmd.cuMemHostAlloc.code := rfl
  rw [copyArgs, parseMemcpyArgs, if_pos hcmd, cuMemHostAllocReq.guestVa,
    cuMemHostAllocReq.bytesize, hb, hv]
  rfl

/-- What holds before the batch at `off`: the first one has yet to register the buffer. -/
structure AllocInv (e : DrvEnv) (va bytesize flags : Nat) (l : List Resource) (off : Nat)
    (s : DrvSt) : Prop where
  req : AllocReq bytesize flags va s.reqBuf
  start : off = 0 → PinnedList e.key s.m.tab l
  grown : off ≠ 0 → s.seen e.caller = 0 ∧ ∃ l', Grown va bytesize l l' ∧
    PinnedList e.key s.m.tab l'

theorem AllocInv.batch {l : List Resource} (hret : ∀ n c, (e.sys.ret n c).code = 0)
    (hp : Places e.sys bytesize flags) (hpos : 0 < bytesize) (hwrap : va + bytesize < 2 ^ 64)
    (hI : AllocInv e va bytesize flags l off s) (hlt : off < bytesize)
    (hb : Batched e .cuMemHostAlloc (allocArgs va bytesize) off s pfns sv s') :
    s'.seen e.caller = 0 ∧ ∃ l', Grown va bytesize l l' ∧ PinnedList e.key s'.m.tab l' := by
  have hplan := batchPlan_alloc hI.req (by omega) hb.ready
  have htab := hb.alloc_tab
  have herr := hb.err
  have hsum := hb.ready.totalLen
  have hcount := batchAt_count_rem (allocArgs va bytesize) off
  have htot : (allocArgs va bytesize).totalCount = bytesize := rfl
  obtain ⟨ch, chs, htile, hch, hrest⟩ := tile_cons hb.ready.data (batchData_pos _ _ _)
  rw [hplan, htile, Prog.firstError_cons] at htab herr
  have hlater (x : Chunk) (hx : x ∈ chs) : add64 off x.off ≠ 0 := by
    have := hrest x hx
    rw [add64_of_lt (by omega)]
    omega
  rw [hb.alloc_seen]
  by_cases hoff : off = 0
  · -- the first chunk of the first batch allocates
    subst hoff
    have hfirst : add64 0 ch.off = 0 := by rw [hch]; rfl
    rw [hfirst] at htab herr
    obtain ⟨hz, l', hg, hl'⟩ := hostAllocVq_first (k := e.key)
      (s := s.shown e .cuMemHostAlloc (allocArgs va bytesize) 0) hret hp hpos hwrap (hI.start rfl)
      (ch.iov.sp, ch.iov.base) ch.len
    rw [if_neg (not_not.mpr hz)] at htab herr
    obtain ⟨hz', hl''⟩ := allocLoop_later (e := e.sys) flags hg hpos hwrap hlater hl'
    rw [hz'] at herr
    exact ⟨herr, l', hg, by rw [htab]; exact hl''⟩
  · -- a later batch finds the entry of the first one
    obtain ⟨-, l', hg, hl'⟩ := hI.grown hoff
    have hall : ∀ x ∈ ch :: chs, add64 off x.off ≠ 0 := by
      intro x hx
      rcases List.mem_cons.mp hx with rfl | hx
      · rw [hch, add64_of_lt (by omega)]
        exact hoff
      · exact hlater x hx
    obtain ⟨hz', hl''⟩ := allocLoop_later (e := e.sys)
      (s := s.shown e .cuMemHostAlloc (allocArgs va bytesize) off) flags hg hpos hwrap hall hl'
    rw [Prog.firstError_cons] at hz' hl''
    rw [hz'] at herr
    exact ⟨herr, l', hg, by rw [htab]; exact hl''⟩

theorem copyLoop_alloc_served {l : List Resource} (hret : ∀ n c, (e.sys.ret n c).code = 0)
    (hp : Places e.sys bytesize flags) (hpos : 0 < bytesize) (hwrap : va + bytesize < 2 ^ 64)
    (hready : ∀ off < bytesize, ∃ pfns, Ready e (allocArgs va bytesize) off pfns)
    (hr : AllocReq bytesize flags va s.reqBuf) (hl : PinnedList e.key s.m.tab l) :
    ((copyLoop .cuMemHostAlloc (allocArgs va bytesize)).run e s).1 = .ret 0 ∧
      ((copyLoop .cuMemHostAlloc (allocArgs va bytesize)).run e s).2.seen e.caller = 0 ∧
      ∃ l', Grown va bytesize l l' ∧ PinnedList e.key
        ((copyLoop .cuMemHostAlloc (allocArgs va bytesize)).run e s).2.m.tab l' := by
  refine copyLoop_rule (I := AllocInv e va bytesize flags l)
    (Q := fun h s => h = .ret 0 ∧ s.seen e.caller = 0 ∧ ∃ l', Grown va bytesize l l' ∧
      PinnedList e.key s.m.tab l') (fun _ s hI => hI.req.cmd)
    (fun off s s' h hlt hI _ hn _ => ?_) (fun off s s' pfns sv hlt hI hb _ => ?_)
    (fun off s s' pfns sv hlt hI hb hne => ?_) (fun s hI => ⟨rfl, hI.grown hpos.ne'⟩)
    ⟨hr, fun _ => hl, fun h => absurd rfl h⟩
  · obtain ⟨pfns, hp⟩ := hready off hlt
    exact absurd hp (hn pfns)
  · have hcp := hb.ready.count_pos
    exact ⟨hb.alloc_reqBuf hI.req, fun h0 => by omega, fun _ => hI.batch hret hp hpos hwrap hlt hb⟩
  · exact absurd (hI.batch hret hp hpos hwrap hlt hb).1 hne

/-- An allocation whose first batch is refused, before the queue or by CUDA, leaves no trace. -/
theorem copyLoop_alloc_refused {l : List Resource} (hpos : 0 < bytesize)
    (hno : (∀ pfns, ¬Ready e (allocArgs va bytesize) 0 pfns) ∨
      ∀ n, (e.sys.ret n ⟨.cuMemHostAlloc, [bytesize, flags ||| 2], []⟩).code % 2 ^ 32 ≠ 0)
    (hr : AllocReq bytesize flags va s.reqBuf) (hl : PinnedList e.key s.m.tab l) :
    (((copyLoop .cuMemHostAlloc (allocArgs va bytesize)).run e s).1.Failed ∨
      ((copyLoop .cuMemHostAlloc (allocArgs va bytesize)).run e s).1 = .ret 0 ∧
      ((copyLoop .cuMemHostAlloc (allocArgs va bytesize)).run e s).2.seen e.caller ≠ 0) ∧
      ((copyLoop .cuMemHostAlloc (allocArgs va bytesize)).run e s).2.m.tab = s.m.tab := by
  have step (s' : DrvSt) (pfns : List Nat) (sv : Served)
      (t : DrvSt) (hreq : AllocReq bytesize flags va t.reqBuf) (htt : t.m.tab = s.m.tab)
      (hb : Batched e .cuMemHostAlloc (allocArgs va bytesize) 0 t pfns sv s') :
      s'.seen e.caller ≠ 0 ∧ s'.m.tab = s.m.tab := by
    rcases hno with hno | hno
    · exact absurd hb.ready (hno pfns)
    have hplan := batchPlan_alloc hreq (by omega) hb.ready
    have htab := hb.alloc_tab
    have herr := hb.err
    obtain ⟨ch, chs, htile, hch, -⟩ := tile_cons hb.ready.data (batchData_pos _ _ _)
    have hfirst : add64 0 ch.off = 0 := by rw [hch]; rfl
    rw [hplan, htile, Prog.firstError_cons, hfirst] at htab herr
    obtain ⟨hz, ht⟩ := hostAllocVq_refused va (s := t.shown e .cuMemHostAlloc
      (allocArgs va bytesize) 0) hno (l := l) (k := e.key) (by rwa [← htt] at hl)
      (ch.iov.sp, ch.iov.base) ch.len
    have hne : ((coreCuMemHostAllocVq e.key bytesize flags va 0 (ch.iov.sp, ch.iov.base)
        ch.len).run e.sys (t.shown e .cuMemHostAlloc (allocArgs va bytesize) 0)).1 ≠ 0 :=
      fun h0 => hz (by rw [h0, Nat.zero_mod])
    rw [if_pos hne] at htab herr
    rw [hb.alloc_seen, herr, htab, ht]
    exact ⟨hz, htt⟩
  refine copyLoop_rule (I := fun off t => off = 0 ∧ AllocReq bytesize flags va t.reqBuf ∧
    t.m.tab = s.m.tab) (Q := fun h t => (h.Failed ∨ h = .ret 0 ∧ t.seen e.caller ≠ 0) ∧
      t.m.tab = s.m.tab) (fun _ s hI => hI.2.1.cmd)
    (fun off t t' h hlt hI hu _ h0 => ⟨.inl h0, by rw [hu.m]; exact hI.2.2⟩)
    (fun off t t' pfns sv hlt hI hb hz => ?_) (fun off t t' pfns sv hlt hI hb hne => ?_)
    (fun t hI => absurd hI.1 hpos.ne') ⟨rfl, hr, rfl⟩
  all_goals
    obtain ⟨rfl, hreq, htt⟩ := hI
    obtain ⟨h1, h2⟩ := step t' pfns sv t hreq htt hb
  · exact absurd hz h1
  · exact ⟨.inr ⟨rfl, h1⟩, h2⟩

end

end HmCuda
