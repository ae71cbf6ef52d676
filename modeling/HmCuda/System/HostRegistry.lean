import HmCuda.System.GuestCopy
import HmCuda.System.HostAllocs
import HmCuda.System.LaunchParams

/-! The two registries of pinned buffers: the transport's map and the session's pinned
list, over runs of cuMemHostAlloc and cuMemFreeHost. -/

namespace HmCuda
open Layout

def allocRequest (va bytesize flags : Nat) : List UInt8 :=
  request cuMemHostAllocReq [bytesize, flags, va, 0]

def freeRequest (va : Nat) : List UInt8 := request cuMemFreeHostReq [va]

def GuestSt.link (env : GuestEnv) (g : GuestSt) : Transport :=
  if g.transport.opened ∨ g.transport.rpc then g.transport
  else (transportInit.run env g).2.transport

theorem drvDispatch_link (env : GuestEnv) (g : GuestSt) (cmd : Cmd) (req : List UInt8)
    (respLen : Nat) : (drvDispatch cmd req respLen).run env g =
      (dispatch cmd req respLen).run env { g with transport := g.link env } := by
  unfold drvDispatch GuestSt.link
  by_cases h : g.transport.opened ∨ g.transport.rpc
  · simp only [Prog.bind_run, Prog.get_run, if_pos h, if_neg (not_not.mpr h)]
  · simp only [Prog.bind_run, Prog.get_run, if_neg h, if_pos h]
    rfl

theorem drvDispatch_ioctl {env : GuestEnv} {g : GuestSt} (h : g.link env = ⟨false, true⟩)
    (cmd : Cmd) (req : List UInt8) : ∃ g', (drvDispatch cmd req 0).run env g =
      (dispatchResult (dispatchBuf (env.stack g.sent.length) cmd.code req 0) 0
        (hmcudaIoctl.run (env.caller g cmd.code req) g.drv).1, g') ∧
      g'.drv = (hmcudaIoctl.run (env.caller g cmd.code req) g.drv).2 ∧ g'.hostMem = g.hostMem := by
  rw [drvDispatch_link, h]
  exact ⟨_, rfl, rfl, rfl⟩

theorem drvDispatch_closed {env : GuestEnv} {g : GuestSt}
    (h : (g.link env).rpc = true ∨ (g.link env).opened = false) (cmd : Cmd) (req : List UInt8) :
    ∃ g', ∃ r ≠ 0, (drvDispatch cmd req 0).run env g = (⟨some r, none⟩, g') ∧
      g'.drv = g.drv ∧ g'.hostMem = g.hostMem := by
  rw [drvDispatch_link]
  generalize g.link env = t at h
  obtain ⟨rpc, opened⟩ := t
  rcases rpc with _ | _
  · obtain rfl : opened = false := h.resolve_left (by simp)
    exact ⟨_, 3, by decide, rfl, rfl, rfl⟩
  · exact ⟨_, 1, by decide, rfl, rfl, rfl⟩

/-! The ioctl of an allocation -/

section Alloc
variable {env : GuestEnv} {g : GuestSt} {va bytesize flags : Nat}

def allocDrv (env : GuestEnv) (g : GuestSt) (va bytesize flags : Nat) : DrvEnv :=
  env.caller g DrvCmd.cuMemHostAlloc.code (allocRequest va bytesize flags)

structure AllocTyped (va bytesize flags : Nat) : Prop where
  va : va < 2 ^ 64
  bytesize : bytesize < 2 ^ 64
  flags : flags < 2 ^ 32

def Mapped (env : GuestEnv) (g : GuestSt) (n : Nat) : Prop :=
  (env.drv g.sent.length).arg + dispatchLen n 0 ≤ taskSize

variable (va bytesize flags) in
theorem alloc_header (hm : Mapped env g (sizeof cuMemHostAllocReq)) :
    ∃ hdr, (allocDrv env g va bytesize flags).fetch 0 0 (sizeof reqHeader) = some hdr ∧
      reqHeader.cmdType.get hdr = DrvCmd.cuMemHostAlloc.code := by
  have hmax : sizeof reqHeader + sizeof cuMemHostAllocReq ≤
      dispatchLen (sizeof cuMemHostAllocReq) 0 := by decide
  have hh : (allocDrv env g va bytesize flags).fetch 0 0 (sizeof reqHeader) = some _ :=
    VarReq.fetch_calling (by unfold Mapped at hm; omega)
  exact ⟨_, hh, (Call.mk g.transport (env.stack g.sent.length) (.drv .cuMemHostAlloc)
    (allocRequest va bytesize flags) 0).header (env.drv g.sent.length) _ hh⟩

theorem alloc_built (hm : Mapped env g (sizeof cuMemHostAllocReq))
    (ha : ∀ b, (env.drv g.sent.length).kmalloc b = true) :
    ∃ hdr p, Built (allocDrv env g va bytesize flags) .cuMemHostAlloc hdr p := by
  obtain ⟨hdr, hh, hcode⟩ := alloc_header va bytesize flags hm
  have hmax : sizeof reqHeader + CopyCmd.cuMemHostAlloc.fixed ≤
      dispatchLen (sizeof cuMemHostAllocReq) 0 := by decide
  unfold Mapped at hm
  have hpay (i : Nat) : (allocDrv env g va bytesize flags).fetch i (sizeof reqHeader)
      CopyCmd.cuMemHostAlloc.fixed = some _ := VarReq.fetch_calling (by omega)
  exact ⟨hdr, _, hh, hcode, fun b _ => ha b, by rw [hpay]; rfl, hpay 2⟩

theorem alloc_image (ht : AllocTyped va bytesize flags) {hdr p : Nat → UInt8}
    (hb : Built (allocDrv env g va bytesize flags) .cuMemHostAlloc hdr p) :
    AllocReq bytesize flags va (reqImage hdr p CopyCmd.cuMemHostAlloc.fixed) ∧
      copyArgs .cuMemHostAlloc hdr p = allocArgs va bytesize := by
  have hlen : (allocRequest va bytesize flags).length = sizeof cuMemHostAllocReq :=
    length_encode _ _ _
  have hp (a : Nat) (ha : a < sizeof cuMemHostAllocReq) :
      payloadOf (reqImage hdr p CopyCmd.cuMemHostAlloc.fixed) a =
        (request cuMemHostAllocReq [bytesize, flags, va, 0]).getD a 0 := by
    have hpay := hb.payload
    rw [DrvEnv.fetch] at hpay
    split at hpay
    · obtain rfl := Option.some.inj hpay
      have ha' : a < CopyCmd.cuMemHostAlloc.fixed := ha
      rw [payloadOf_reqImage hdr _ ha']
      exact VarReq.dispatchBuf_payload _ _ _ _ (by rw [hlen]; exact ha)
    · cases hpay
  have hget (i : Nat) : (field cuMemHostAllocReq i).get p = (field cuMemHostAllocReq i).get
      (payloadOf (reqImage hdr p CopyCmd.cuMemHostAlloc.fixed)) := (get_reqImage hdr p i).symm
  have h0 := get_request _ hp (Nat.le_refl 4) (i := 0) rfl ht.bytesize
  have h1 := get_request _ hp (Nat.le_refl 4) (i := 1) rfl ht.flags
  have h2 := get_request _ hp (Nat.le_refl 4) (i := 2) rfl ht.va
  exact alloc_reqImage hb.code ((hget 0).trans h0) ((hget 1).trans h1) ((hget 2).trans h2)

theorem dispatchResult_served {buf : Nat → UInt8} {e : DrvEnv} {s : DrvSt} (hc : e.copyOut = true)
    (hs : s.seen e.caller = 0) :
    (dispatchResult buf 0 ((finishIoctl (sizeof respHeader) (.ret 0)).run e s).1).ret = some 0 := by
  rw [finishIoctl_zero, if_pos hc]
  simp [dispatchResult, cudaError_answered, hs]

theorem dispatchResult_failed {buf : Nat → UInt8} {r : IoctlRes} (hr : r.halt.Failed) :
    (dispatchResult buf 0 r).ret ≠ some 0 := by
  obtain ⟨halt, out⟩ := r
  cases halt with
  | ret x => simp [dispatchResult, hr x rfl]
  | hang => simp [dispatchResult]
  | fault => simp [dispatchResult]

theorem dispatchResult_refused {buf : Nat → UInt8} {e : DrvEnv} {s : DrvSt} {h : Halt}
    (hh : h.Failed ∨ h = .ret 0 ∧ s.seen e.caller ≠ 0) :
    (dispatchResult buf 0 ((finishIoctl (sizeof respHeader) h).run e s).1).ret ≠ some 0 := by
  rcases hh with hf | ⟨rfl, hs⟩
  · have hne : h ≠ .ret 0 := by
      rintro rfl
      exact absurd (hf 0 rfl) (lt_irrefl 0)
    exact dispatchResult_failed (by rw [finishIoctl_halt hne]; exact hf)
  · rw [finishIoctl_zero]
    split
    · simp [dispatchResult, cudaError_answered, hs]
    · exact dispatchResult_failed (Halt.failed_ret (by decide))

/-- Every batch of an allocation is served, and CUDA refuses nothing. -/
structure AllocServed (env : GuestEnv) (g : GuestSt) (va bytesize flags : Nat) : Prop where
  linked : g.link env = ⟨false, true⟩
  alloc : ∀ b, (env.drv g.sent.length).kmalloc b = true
  ready : ∀ off < bytesize, ∃ pfns, Ready (env.drv g.sent.length) (allocArgs va bytesize) off pfns
  out : (env.drv g.sent.length).copyOut = true
  ret : ∀ n c, ((env.drv g.sent.length).sys.ret n c).code = 0
  places : Places (env.drv g.sent.length).sys bytesize flags

/-- An allocation is refused before its first batch is served, or CUDA refuses it. -/
inductive AllocRefused (env : GuestEnv) (g : GuestSt) (va bytesize flags : Nat) : Prop
  | closed (h : (g.link env).rpc = true ∨ (g.link env).opened = false)
  | noMemory (b : Buf) (h : (env.drv g.sent.length).kmalloc b = false)
  | noBatch (h : ∀ pfns, ¬Ready (env.drv g.sent.length) (allocArgs va bytesize) 0 pfns)
  | noCuda (h : ∀ n, ((env.drv g.sent.length).sys.ret n
      ⟨.cuMemHostAlloc, [bytesize, flags ||| 2], []⟩).code % 2 ^ 32 ≠ 0)

/-- What the ioctl of a call on pinned memory did to the session's list. -/
theorem alloc_served (ht : AllocTyped va bytesize flags) (hpos : 0 < bytesize)
    (hwrap : va + bytesize < 2 ^ 64) (hm : Mapped env g (sizeof cuMemHostAllocReq))
    (h : AllocServed env g va bytesize flags) {l : List Resource}
    (hl : PinnedList (env.drv g.sent.length).key g.drv.m.tab l) :
    (dispatchResult (dispatchBuf (env.stack g.sent.length) DrvCmd.cuMemHostAlloc.code
      (allocRequest va bytesize flags) 0) 0
        (hmcudaIoctl.run (allocDrv env g va bytesize flags) g.drv).1).ret = some 0 ∧
      ∃ l', Grown va bytesize l l' ∧ PinnedList (env.drv g.sent.length).key
        (hmcudaIoctl.run (allocDrv env g va bytesize flags) g.drv).2.m.tab l' := by
  obtain ⟨hdr, p, hb⟩ := alloc_built hm h.alloc
  obtain ⟨hreq, hargs⟩ := alloc_image ht hb
  obtain ⟨evs, s', -, hsame, hrun⟩ := hmcudaIoctl_loop hb ⟨h.alloc _, h.alloc _⟩ g.drv
  rw [hargs] at hsame hrun
  have hready (off : Nat) (hlt : off < bytesize) : ∃ pfns, Ready (allocDrv env g va bytesize flags)
      (allocArgs va bytesize) off pfns := by
    obtain ⟨pfns, h1, h2, h3, h4⟩ := h.ready off hlt
    exact ⟨pfns, h1, h2, h3, h4⟩
  have hret : ∀ n c, ((allocDrv env g va bytesize flags).sys.ret n c).code = 0 := h.ret
  obtain ⟨h1, h2, h3⟩ := copyLoop_alloc_served (s := g.drv.atLoop (allocDrv env g va bytesize flags)
    .cuMemHostAlloc hdr p evs) hret h.places hpos hwrap hready hreq hl
  generalize (copyLoop .cuMemHostAlloc (allocArgs va bytesize)).run (allocDrv env g va bytesize flags)
    (g.drv.atLoop (allocDrv env g va bytesize flags) .cuMemHostAlloc hdr p evs) = r at *
  obtain ⟨x, rfl, -⟩ := hsame
  rw [hrun, h1, finishIoctl_m]
  exact ⟨dispatchResult_served h.out h2, h3⟩

theorem alloc_refused (ht : AllocTyped va bytesize flags) (hpos : 0 < bytesize)
    (hm : Mapped env g (sizeof cuMemHostAllocReq)) (h : AllocRefused env g va bytesize flags)
    (hlink : g.link env = ⟨false, true⟩) {l : List Resource}
    (hl : PinnedList (env.drv g.sent.length).key g.drv.m.tab l) :
    (dispatchResult (dispatchBuf (env.stack g.sent.length) DrvCmd.cuMemHostAlloc.code
      (allocRequest va bytesize flags) 0) 0
        (hmcudaIoctl.run (allocDrv env g va bytesize flags) g.drv).1).ret ≠ some 0 ∧
      (hmcudaIoctl.run (allocDrv env g va bytesize flags) g.drv).2.m.tab = g.drv.m.tab := by
  have quiet {err : Int} (herr : err < 0)
      (hh : (hmcudaIoctl.run (allocDrv env g va bytesize flags) g.drv).1.halt = .ret err)
      (hq : g.drv.Quiet (allocDrv env g va bytesize flags).caller
        (hmcudaIoctl.run (allocDrv env g va bytesize flags) g.drv).2) :
      (dispatchResult (dispatchBuf (env.stack g.sent.length) DrvCmd.cuMemHostAlloc.code
        (allocRequest va bytesize flags) 0) 0
          (hmcudaIoctl.run (allocDrv env g va bytesize flags) g.drv).1).ret ≠ some 0 ∧
        (hmcudaIoctl.run (allocDrv env g va bytesize flags) g.drv).2.m.tab = g.drv.m.tab := by
    obtain ⟨f, hf⟩ := hq.m
    rw [hf, dispatchResult, hh]
    exact ⟨by simp [herr], rfl⟩
  obtain ⟨hdr, hh, hcode⟩ := alloc_header va bytesize flags hm
  by_cases hbuilt : ∃ p, Built (allocDrv env g va bytesize flags) .cuMemHostAlloc hdr p
  swap
  · obtain ⟨err, herr, h1, h2⟩ := hmcudaIoctl_unbuilt (c := .cuMemHostAlloc) hh hcode
      (not_exists.mp hbuilt) g.drv
    exact quiet herr h1 h2
  obtain ⟨p, hb⟩ := hbuilt
  by_cases ha : (allocDrv env g va bytesize flags).kmalloc .pages = true ∧
      (allocDrv env g va bytesize flags).kmalloc .sgBatch = true
  swap
  · obtain ⟨h1, h2⟩ := hmcudaIoctl_noLoop hb ha g.drv
    exact quiet (by decide) h1 h2
  -- the loop runs, so its first batch is what was refused
  have hno : (∀ pfns, ¬Ready (allocDrv env g va bytesize flags) (allocArgs va bytesize) 0 pfns) ∨
      ∀ n, ((allocDrv env g va bytesize flags).sys.ret n
        ⟨.cuMemHostAlloc, [bytesize, flags ||| 2], []⟩).code % 2 ^ 32 ≠ 0 := by
    cases h with
    | closed h => simp [hlink] at h
    | noMemory b h =>
      have hall : (allocDrv env g va bytesize flags).kmalloc b = true := by
        cases b
        exacts [hb.alloc _ (by simp), hb.alloc _ (by simp), hb.alloc _ (by simp), ha.1, ha.2]
      exact absurd (hall.symm.trans h) (by simp)
    | noBatch h => exact .inl fun pfns hr => h pfns ⟨hr.pinned, hr.whole, hr.data, hr.taken⟩
    | noCuda h => exact .inr h
  obtain ⟨hreq, hargs⟩ := alloc_image ht hb
  obtain ⟨evs, s', -, hsame, hrun⟩ := hmcudaIoctl_loop hb ha g.drv
  rw [hargs] at hsame hrun
  obtain ⟨h1, h2⟩ := copyLoop_alloc_refused (s := g.drv.atLoop (allocDrv env g va bytesize flags)
    .cuMemHostAlloc hdr p evs) hpos hno hreq (l := l) hl
  generalize (copyLoop .cuMemHostAlloc (allocArgs va bytesize)).run (allocDrv env g va bytesize flags)
    (g.drv.atLoop (allocDrv env g va bytesize flags) .cuMemHostAlloc hdr p evs) = r at *
  obtain ⟨x, rfl, -⟩ := hsame
  rw [hrun, finishIoctl_m]
  exact ⟨dispatchResult_refused h1, h2⟩

end Alloc

/-! The ioctl of a free -/

section Free
variable {env : GuestEnv} {g : GuestSt} {va : Nat}

/-- A free takes the entry out, whatever CUDA answers. -/
theorem coreCuMemFreeHost_list {k : Key} {e : Env} {s : Machine} {l : List Resource}
    (h : PinnedList k s.tab l) (hs : Sound l) {r : Resource} (hr : r ∈ l) :
    (∃ call, ((coreCuMemFreeHost k r.handle).run e s).1 = (e.ret s.dev.clock call).code) ∧
    PinnedList k ((coreCuMemFreeHost k r.handle).run e s).2.tab
      (l.eraseP (·.handle = r.handle)) := by
  obtain ⟨c, hc, rfl⟩ := h
  have hne := hs.resGet_ne hr
  simp only [coreCuMemFreeHost, withCtxM, hc, Prog.ite_run, if_neg hne, Prog.bind_run]
  refine ⟨⟨_, rfl⟩, _, Tables.ctxGet_resRemove (Tables.ctxGet_resRemove hc .hostMem _) .hostDevPtr _, ?_⟩
  rw [Context.resRemove_resources, if_neg (by decide), Context.resRemove_resources, if_pos rfl]

def freeDrv (env : GuestEnv) (g : GuestSt) (va : Nat) : DrvEnv :=
  env.caller g DrvCmd.cuMemFreeHost.code (freeRequest va)

/-- A free reaches the backend, CUDA does it and the answer gets back. -/
structure FreeServed (env : GuestEnv) (g : GuestSt) : Prop where
  linked : g.link env = ⟨false, true⟩
  alloc : ∀ b, (env.drv g.sent.length).kmalloc b = true
  queue : (env.drv g.sent.length).addSgs 0 = none
  out : (env.drv g.sent.length).copyOut = true
  ret : ∀ n c, ((env.drv g.sent.length).sys.ret n c).code = 0

variable (va) in
theorem free_sent (hm : Mapped env g (sizeof cuMemFreeHostReq)) (h : FreeServed env g) :
    ∃ img, Sent (freeDrv env g va) (.drv .cuMemFreeHost) (sizeof cuMemFreeHostReq) 0 img ∧
      ∀ a < sizeof cuMemFreeHostReq, payloadOf img a = (freeRequest va).getD a 0 := by
  have hlen : (freeRequest va).length = sizeof cuMemFreeHostReq := length_encode _ _ _
  have hmax : sizeof reqHeader + sizeof cuMemFreeHostReq ≤
      dispatchLen (sizeof cuMemFreeHostReq) 0 := by decide
  unfold Mapped at hm
  let buf := dispatchBuf (env.stack g.sent.length) DrvCmd.cuMemFreeHost.code (freeRequest va) 0
  have hh : (freeDrv env g va).fetch 0 0 (sizeof reqHeader) = some fun a => buf (0 + a) :=
    VarReq.fetch_calling (by omega)
  have hpay (i : Nat) : (freeDrv env g va).fetch i (sizeof reqHeader) (sizeof cuMemFreeHostReq) =
      some fun a => buf (sizeof reqHeader + a) := VarReq.fetch_calling (by omega)
  have hkm (b : Buf) : (freeDrv env g va).kmalloc b = true := h.alloc b
  have hpos : 0 < sizeof cuMemFreeHostReq := by decide
  have hcode := (Call.mk g.transport (env.stack g.sent.length) (.drv .cuMemFreeHost)
    (freeRequest va) 0).header (env.drv g.sent.length) _ hh
  refine ⟨reqImage (fun a => buf (0 + a)) (fun a => buf (sizeof reqHeader + a))
    (sizeof cuMemFreeHostReq), ⟨⟨_, hh, hcode, ?_⟩, ?_, h.queue⟩, fun a ha => ?_⟩
  · exact built_of_fetch ⟨hkm _, hkm _⟩ hpos (by decide) (hpay 2)
  · have hsizes (p : Option (Nat → UInt8)) : (Cmd.drv .cuMemFreeHost).sizes p =
        ⟨sizeof cuMemFreeHostReq, 0⟩ := rfl
    simp only [reqSizes, hsizes, hpos, if_true, hkm, hpay]
  · rw [payloadOf_reqImage _ _ ha]
    exact VarReq.dispatchBuf_payload _ _ _ _ (by rw [hlen]; exact ha)

theorem ret_answered {e : DrvEnv} {c : Cmd} {n m : Nat}
    {img : Nat → UInt8} (h : Sent e c n m img) (hm : ¬isMemcpy c.code) (hcopy : e.copyOut = true)
    (s : DrvSt) (buf : Nat → UInt8) (respLen : Nat) :
    (dispatchResult buf respLen (hmcudaIoctl.run e s).1).ret =
      some ((plainServed e c n m (s.showing e img)).err % 2 ^ 32) := by
  obtain ⟨evs, hst, hres⟩ := hmcudaIoctl_answered h hm s
  have hseen := answered_seen h s evs
  rw [← hst] at hseen
  rw [if_pos hcopy] at hres
  have herr : respHeader.cudaError.get (answered buf (some
      ((hmcudaIoctl.run e s).2.m.dev.eng.mem.read (.resp e.caller) 0
        (add64 (sizeof respHeader) m)))) =
        (plainServed e c n m (s.showing e img)).err % 2 ^ 32 := by
    refine (Field.get_congr fun a _ ha => ?_).trans hseen
    have hlt : a < add64 (sizeof respHeader) m := by
      rw [h.totalResp]
      exact (ha.trans_le (by decide : respHeader.cudaError.stop ≤ sizeof respHeader)).trans_le
        (Nat.le_add_right _ _)
    simp only [answered, ByteMem.length_read, if_pos hlt]
    rw [ByteMem.getD_read _ _ hlt, Nat.zero_add]
  rw [dispatchResult, hres]
  dsimp only
  rw [if_neg (by decide), herr]
  split
  · rfl
  next hz =>
    rw [not_not.mp hz]
    split <;> rfl

theorem answered_tab (s : DrvSt) (e : DrvEnv) (c : Cmd) (n m : Nat) (img : Nat → UInt8)
    (evs : List Ev) : (s.answered e c n m img evs).m.tab =
      (plainReply e c n m (s.showing e img)).2.be.tab := by rfl

theorem plainReply_freeHost (e : DrvEnv) (n m : Nat) (M : Machine) :
    let r := (coreCuMemFreeHost e.key (cuMemFreeHostReq.guestVa.get
      (cmdStart e.sys (plainElem e n m) M).payload)).run e.sys M
    (plainReply e (.drv .cuMemFreeHost) n m M).2.err = r.1 % 2 ^ 32 ∧
      (plainReply e (.drv .cuMemFreeHost) n m M).2.be = r.2 := by
  intro r
  rw [plainReply, dispatchCmd, Cmd.ofCode_code]
  exact ⟨rfl, rfl⟩

theorem free_served (hva : va < 2 ^ 64) (hm : Mapped env g (sizeof cuMemFreeHostReq))
    (h : FreeServed env g) {l : List Resource}
    (hl : PinnedList (env.drv g.sent.length).key g.drv.m.tab l) (hs : Sound l)
    {r : Resource} (hr : r ∈ l) (hrv : r.handle = va) :
    (dispatchResult (dispatchBuf (env.stack g.sent.length) DrvCmd.cuMemFreeHost.code
      (freeRequest va) 0) 0 (hmcudaIoctl.run (freeDrv env g va) g.drv).1).ret = some 0 ∧
    PinnedList (env.drv g.sent.length).key
      (hmcudaIoctl.run (freeDrv env g va) g.drv).2.m.tab (l.eraseP (·.handle = va)) := by
  obtain ⟨img, hsent, himg⟩ := free_sent va hm h
  obtain ⟨evs, hst, -⟩ := hmcudaIoctl_answered hsent (by decide) g.drv
  have hget : cuMemFreeHostReq.guestVa.get (cmdStart (freeDrv env g va).sys
      (plainElem (freeDrv env g va) (sizeof cuMemFreeHostReq) 0)
      (g.drv.showing (freeDrv env g va) img)).payload = va := by
    refine get_request (t := cuMemFreeHostReq) [va] (i := 0) (fun a ha => ?_)
      (Nat.le_refl 1) rfl hva
    have hlt : payloadOff + a < (plainElem (freeDrv env g va) (sizeof cuMemFreeHostReq) 0).reqLen := by
      rw [hsent.reqLen]
      exact Nat.add_lt_add_left ha _
    rw [cmdStart_payload hlt, plainElem_image]
    exact himg a ha
  have hreply := plainReply_freeHost (freeDrv env g va) (sizeof cuMemFreeHostReq) 0
    (g.drv.showing (freeDrv env g va) img)
  rw [hget] at hreply
  subst hrv
  obtain ⟨⟨call, hcode⟩, hlist⟩ := coreCuMemFreeHost_list (e := (env.drv g.sent.length).sys)
    (s := g.drv.showing (freeDrv env g r.handle) img) hl hs hr
  constructor
  · have herr : (plainServed (freeDrv env g r.handle) (.drv .cuMemFreeHost)
        (sizeof cuMemFreeHostReq) 0 (g.drv.showing (freeDrv env g r.handle) img)).err = 0 :=
      hreply.1.trans (congrArg (· % 2 ^ 32) (hcode.trans (h.ret _ _)))
    rw [ret_answered hsent (by decide) h.out, herr]
    rfl
  · rw [hst, answered_tab, hreply.2]
    exact hlist

end Free

/-! Runs of the two calls -/

/-- A call on pinned memory; an allocation comes with what `malloc` returns. -/
inductive HostCall where
  | alloc (malloc : Option Nat) (bytesize flags : Nat)
  | free (p : Nat)

def HostCall.run : HostCall → GuestM Returned
  | alloc malloc bytesize flags => cuMemHostAlloc malloc bytesize flags
  | free p => cuMemFreeHost p

/-- A call the application can make: C's types bound its arguments, `malloc` returns a block
that fits the address space and is not in use, and the transport's buffer is mapped. -/
def HostCall.Legal (env : GuestEnv) (g : GuestSt) : HostCall → Prop
  | alloc none _ _ => True
  | alloc (some va) bytesize flags => AllocTyped va bytesize flags ∧ va + bytesize < 2 ^ 64 ∧
      g.hostMem va = none ∧ Mapped env g (sizeof cuMemHostAllocReq)
  | free p => p < 2 ^ 64 ∧ Mapped env g (sizeof cuMemFreeHostReq)

/-- A call that goes well, or is refused before anything was registered. -/
def HostCall.Clean (env : GuestEnv) (g : GuestSt) : HostCall → Prop
  | alloc none _ _ => True
  | alloc (some va) bytesize flags => 0 < bytesize ∧
      (AllocServed env g va bytesize flags ∨ AllocRefused env g va bytesize flags)
  | free p => g.hostMemSize p = 0 ∨ FreeServed env g

/-- A run of calls of one process in one session, from two empty registries: the calls and
what they returned, the last one first. -/
inductive HostRun (env : GuestEnv) (k : Key) : List (HostCall × Returned) → GuestSt → Prop
  | start {g : GuestSt} (none : ∀ va, g.hostMem va = none) (session : PinnedList k g.drv.m.tab []) :
      HostRun env k [] g
  | call {tr : List (HostCall × Returned)} {g : GuestSt} (h : HostRun env k tr g)
      (key : (env.drv g.sent.length).key = k) (c : HostCall) (legal : c.Legal env g)
      (clean : c.Clean env g) : HostRun env k ((c, (c.run.run env g).1) :: tr) (c.run.run env g).2

/-- The buffers in use after a call that returned `r`: a successful allocation adds its own,
a successful free takes one out, and a call that fails changes nothing. -/
def HostCall.heldAfter (c : HostCall) (r : Returned) (held : Nat → Nat → Prop) (va n : Nat) : Prop :=
  if r.ret = some 0 then
    match c with
    | alloc malloc bytesize _ => malloc = some va ∧ bytesize = n ∨ held va n
    | free p => va ≠ p ∧ held va n
  else held va n

/-- The buffers that were allocated and not freed since, with their sizes. -/
def hostHeld : List (HostCall × Returned) → Nat → Nat → Prop
  | [] => fun _ _ => False
  | (c, r) :: tr => c.heldAfter r (hostHeld tr)

def GuestSt.registers (g : GuestSt) (va n : Nat) : Prop := ∃ x, g.hostMem va = some x ∧ x.size = n

def SessionRegisters (k : Key) (g : GuestSt) (va n : Nat) : Prop :=
  ∃ c, g.drv.m.tab.ctxGet k = some c ∧ ∃ r ∈ c.resources .hostMem, r.handle = va ∧ r.size = n

/-- The registries agree, and every entry can be found and freed. -/
structure InStep (k : Key) (g : GuestSt) (l : List Resource) : Prop where
  list : PinnedList k g.drv.m.tab l
  sound : Sound l
  nodup : (l.map Resource.handle).Nodup
  agree : ∀ va n, g.registers va n ↔ ∃ r ∈ l, r.handle = va ∧ r.size = n

section Runs
variable {env : GuestEnv} {k : Key} {g : GuestSt} {l : List Resource}

theorem InStep.congr (h : InStep k g l) {g' : GuestSt} (ht : g'.drv.m.tab = g.drv.m.tab)
    (hm : g'.hostMem = g.hostMem) : InStep k g' l :=
  ⟨ht ▸ h.list, h.sound, h.nodup, fun va n => by
    rw [← h.agree va n, GuestSt.registers, GuestSt.registers, hm]⟩

theorem registers_insert {g' : GuestSt} {va n : Nat} (hfresh : g.hostMem va = none)
    (hm : g'.hostMem = Function.update g.hostMem va (some ⟨n, false⟩)) (vb m : Nat) :
    g'.registers vb m ↔ va = vb ∧ n = m ∨ g.registers vb m := by
  rw [GuestSt.registers, GuestSt.registers, hm]
  by_cases hv : vb = va
  · subst hv
    simp [hfresh]
  · simp [Function.update_of_ne hv, Ne.symm hv]

theorem registers_erase {g' : GuestSt} {p : Nat}
    (hm : g'.hostMem = Function.update g.hostMem p none) (va n : Nat) :
    g'.registers va n ↔ va ≠ p ∧ g.registers va n := by
  rw [GuestSt.registers, GuestSt.registers, hm]
  by_cases hv : va = p
  · simp [hv]
  · simp [hv]

theorem InStep.push (h : InStep k g l) {g' : GuestSt} {r : Resource}
    (hl : PinnedList k g'.drv.m.tab (r :: l)) (hr : Sound [r]) (hfresh : g.hostMem r.handle = none)
    (hreg : ∀ va n, g'.registers va n ↔ r.handle = va ∧ r.size = n ∨ g.registers va n) :
    InStep k g' (r :: l) := by
  refine ⟨hl, fun x hx => ?_, ?_, fun va n => ?_⟩
  · rcases List.mem_cons.mp hx with rfl | hx
    · exact hr _ List.mem_cons_self
    · exact h.sound x hx
  · rw [List.map_cons, List.nodup_cons]
    refine ⟨fun hx => ?_, h.nodup⟩
    obtain ⟨y, hy, hv⟩ := List.mem_map.mp hx
    obtain ⟨z, hz, -⟩ := (h.agree r.handle y.size).mpr ⟨y, hy, hv, rfl⟩
    simp [hfresh] at hz
  · rw [hreg, h.agree]
    simp

theorem InStep.erase (h : InStep k g l) {g' : GuestSt} {p : Nat}
    (hl : PinnedList k g'.drv.m.tab (l.eraseP (·.handle = p)))
    (hreg : ∀ va n, g'.registers va n ↔ va ≠ p ∧ g.registers va n) :
    InStep k g' (l.eraseP (·.handle = p)) := by
  refine ⟨hl, fun y hy => h.sound y (List.mem_of_mem_eraseP hy),
    h.nodup.sublist (List.eraseP_sublist.map _), fun va n => ?_⟩
  have hfilter : l.eraseP (·.handle = p) = l.filter (·.handle ≠ p) :=
    Ranges.eraseP_eq_filter h.nodup
  rw [hreg, h.agree, hfilter]
  constructor
  · rintro ⟨hv, y, hy, hyv, hyn⟩
    exact ⟨y, List.mem_filter.mpr ⟨hy, by simpa [hyv] using hv⟩, hyv, hyn⟩
  · rintro ⟨y, hy, hyv, hyn⟩
    obtain ⟨hy, hyp⟩ := List.mem_filter.mp hy
    exact ⟨fun hv => by simp [hyv, hv] at hyp, y, hy, hyv, hyn⟩

theorem InStep.alloc (h : InStep k g l) (hk : (env.drv g.sent.length).key = k)
    {va bytesize flags : Nat} (hleg : (HostCall.alloc (some va) bytesize flags).Legal env g)
    (hclean : (HostCall.alloc (some va) bytesize flags).Clean env g) :
    let r := (HostCall.alloc (some va) bytesize flags).run.run env g
    (∃ l', InStep k r.2 l') ∧ ∀ vb n, r.2.registers vb n ↔
      (HostCall.alloc (some va) bytesize flags).heldAfter r.1 g.registers vb n := by
  obtain ⟨ht, hwrap, hfresh, hm⟩ := hleg
  obtain ⟨hpos, hok⟩ := hclean
  have hl := hk ▸ h.list
  -- a result other than 0 leaves both registries alone
  have unchanged {r : Dispatched} {g' : GuestSt}
      (hd : (drvDispatch (.drv .cuMemHostAlloc) (allocRequest va bytesize flags) 0).run env g = (r, g'))
      (hr : r.ret ≠ some 0) (htab : g'.drv.m.tab = g.drv.m.tab) (hmem : g'.hostMem = g.hostMem) :
      let r := (HostCall.alloc (some va) bytesize flags).run.run env g
      (∃ l', InStep k r.2 l') ∧ ∀ vb n, r.2.registers vb n ↔
        (HostCall.alloc (some va) bytesize flags).heldAfter r.1 g.registers vb n := by
    have hrun : (HostCall.alloc (some va) bytesize flags).run.run env g = (⟨r.ret, none⟩, g') := by
      unfold allocRequest at hd
      simp only [HostCall.run, cuMemHostAlloc, Prog.bind_run, hd, if_neg hr, Prog.pure_run]
    rw [hrun]
    refine ⟨⟨l, h.congr htab hmem⟩, fun vb n => ?_⟩
    rw [HostCall.heldAfter, if_neg hr, GuestSt.registers, GuestSt.registers, hmem]
  by_cases hclosed : (g.link env).rpc = true ∨ (g.link env).opened = false
  · obtain ⟨g', r, hr, hd, hdrv, hmem⟩ := drvDispatch_closed hclosed (.drv .cuMemHostAlloc)
      (allocRequest va bytesize flags)
    exact unchanged hd (by simpa using hr) (by rw [hdrv]) hmem
  have hlink : g.link env = ⟨false, true⟩ := by
    generalize g.link env = t at hclosed
    obtain ⟨rpc, opened⟩ := t
    simpa using hclosed
  obtain ⟨g', hd, hdrv, hmem⟩ := drvDispatch_ioctl hlink (.drv .cuMemHostAlloc)
    (allocRequest va bytesize flags)
  rcases hok with hok | hno
  · obtain ⟨hret, l', ⟨p, hp0, hpw, rfl⟩, hl'⟩ := alloc_served ht hpos hwrap hm hok hl
    have hrun : (HostCall.alloc (some va) bytesize flags).run.run env g =
        (⟨some 0, some va⟩, ((hostMemRegister va bytesize).run env g').2) := by
      unfold allocRequest at hd
      have hret' : (dispatchResult (dispatchBuf (env.stack g.sent.length)
          (Cmd.drv .cuMemHostAlloc).code (request cuMemHostAllocReq [bytesize, flags, va, 0]) 0) 0
            (hmcudaIoctl.run (env.caller g (Cmd.drv .cuMemHostAlloc).code
              (request cuMemHostAllocReq [bytesize, flags, va, 0])) g.drv).1).ret = some 0 := hret
      simp only [HostCall.run, cuMemHostAlloc, Prog.bind_run, hd, if_pos hret']
      rfl
    have hmem' : ((hostMemRegister va bytesize).run env g').2.hostMem =
        Function.update g.hostMem va (some ⟨bytesize, false⟩) := by
      rw [← hmem]
      rfl
    have hreg := registers_insert hfresh hmem'
    have hlist : PinnedList k ((hostMemRegister va bytesize).run env g').2.drv.m.tab
        (⟨va, p, bytesize⟩ :: l) := by
      show PinnedList k g'.drv.m.tab _
      rw [hdrv, ← hk]
      exact hl'
    have hsound : Sound [⟨va, p, bytesize⟩] := by
      simpa [Sound] using ⟨hpos, hwrap, hp0, hpw⟩
    rw [hrun]
    refine ⟨⟨_, h.push hlist hsound hfresh hreg⟩, fun vb n => ?_⟩
    rw [hreg, HostCall.heldAfter, if_pos rfl]
    simp
  · obtain ⟨hret, htab⟩ := alloc_refused ht hpos hm hno hlink hl
    exact unchanged hd hret (by rw [hdrv]; exact htab) hmem

theorem InStep.free (h : InStep k g l) (hk : (env.drv g.sent.length).key = k) {p : Nat}
    (hleg : (HostCall.free p).Legal env g) (hclean : (HostCall.free p).Clean env g) :
    let r := (HostCall.free p).run.run env g
    (∃ l', InStep k r.2 l') ∧ ∀ va n, r.2.registers va n ↔
      (HostCall.free p).heldAfter r.1 g.registers va n := by
  obtain ⟨hp, hm⟩ := hleg
  by_cases h0 : g.hostMemSize p = 0
  · have hrun : (HostCall.free p).run.run env g = (⟨some 1, none⟩, g) := by
      simp only [HostCall.run, cuMemFreeHost, Prog.bind_run, Prog.get_run, if_pos h0, Prog.pure_run]
    rw [hrun]
    exact ⟨⟨l, h⟩, fun va n => by rw [HostCall.heldAfter, if_neg (by simp)]⟩
  have hok := hclean.resolve_left h0
  obtain ⟨x, hx⟩ : ∃ x, g.hostMem p = some x := by
    rcases hx : g.hostMem p with _ | x
    · simp [GuestSt.hostMemSize, hx] at h0
    · exact ⟨x, rfl⟩
  obtain ⟨r, hr, hrp, -⟩ := (h.agree p x.size).mp ⟨x, hx, rfl⟩
  have hok' : FreeServed env ((hostMemUnregister p).run env g).2 :=
    ⟨hok.linked, hok.alloc, hok.queue, hok.out, hok.ret⟩
  obtain ⟨g', hd, hdrv, hmem⟩ := drvDispatch_ioctl (g := ((hostMemUnregister p).run env g).2)
    hok'.linked (.drv .cuMemFreeHost) (freeRequest p)
  obtain ⟨hret, hl⟩ := free_served (g := ((hostMemUnregister p).run env g).2) hp hm hok'
    (hk ▸ h.list) h.sound hr hrp
  have hrun : (HostCall.free p).run.run env g = (⟨some 0, none⟩, g') := by
    unfold freeRequest at hd hret
    simp only [HostCall.run, cuMemFreeHost, Prog.bind_run, Prog.get_run, if_neg h0, hd,
      Prog.pure_run]
    exact congrArg (fun x => (Returned.mk x none, g')) hret
  have hreg := registers_erase (g := g) hmem
  rw [hrun]
  refine ⟨⟨_, h.erase (p := p) ?_ hreg⟩, fun va n => ?_⟩
  · rw [hdrv, ← hk]
    exact hl
  · rw [hreg, HostCall.heldAfter, if_pos rfl]

theorem HostRun.inStep {tr : List (HostCall × Returned)} (h : HostRun env k tr g) :
    (∃ l, InStep k g l) ∧ ∀ va n, g.registers va n ↔ hostHeld tr va n := by
  induction h with
  | start none session =>
    refine ⟨⟨[], session, fun _ hr => absurd hr List.not_mem_nil, List.nodup_nil, fun va n => ?_⟩,
      fun va n => ?_⟩
    · simp [GuestSt.registers, none]
    · simp [GuestSt.registers, none, hostHeld]
  | call h key c legal clean ih =>
    obtain ⟨⟨l, hl⟩, hheld⟩ := ih
    rw [hostHeld, ← (funext₂ fun va n => propext (hheld va n))]
    cases c with
    | alloc malloc bytesize flags =>
      cases malloc with
      | none => exact ⟨⟨l, hl⟩, fun va n => Iff.rfl⟩
      | some va => exact hl.alloc key legal clean
    | free p => exact hl.free key legal clean

/-- In a run whose calls go well or are refused at once, both registries hold the buffers that
were allocated and not freed, each with its size, and no other; each of them can be freed. -/
theorem hostRegistries_agree {tr : List (HostCall × Returned)} (h : HostRun env k tr g) :
    (∀ va n, g.registers va n ↔ hostHeld tr va n) ∧
      (∀ va n, SessionRegisters k g va n ↔ hostHeld tr va n) ∧
      ∀ va n, hostHeld tr va n → g.hostMemSize va ≠ 0 ∧
        ∃ c, g.drv.m.tab.ctxGet k = some c ∧ c.resGet .hostMem va ≠ 0 := by
  obtain ⟨⟨l, ⟨c, hc, rfl⟩, hsound, -, hagree⟩, hheld⟩ := h.inStep
  refine ⟨hheld, fun va n => ?_, fun va n hn => ?_⟩
  · rw [← hheld, hagree]
    refine ⟨fun ⟨c', hc', hr⟩ => ?_, fun hr => ⟨c, hc, hr⟩⟩
    obtain rfl := Option.some.inj (hc.symm.trans hc')
    exact hr
  · have hg := (hheld va n).mpr hn
    obtain ⟨r, hr, rfl, rfl⟩ := (hagree va n).mp hg
    obtain ⟨x, hx, hsize⟩ := hg
    refine ⟨?_, c, hc, hsound.resGet_ne hr⟩
    rw [GuestSt.hostMemSize, hx]
    show x.size ≠ 0
    rw [hsize]
    exact (hsound r hr).1.ne'

end Runs

/-! One process after INIT; CUDA puts pinned memory at 0x9000. -/

def registryEnv : GuestEnv where
  drv _ := .quiet (aliasEnv 0x8000) fun _ _ => 0
  stack _ _ := 0
  left _ _ := 0
  rpc := false
  opens _ := true

def registryStart : GuestSt :=
  { GuestSt.start (.start aliasMem) with
    drv := { DrvSt.start aliasMem with
      m := ((processElem ⟨1, 1⟩ ⟨[⟨.req 0, 0, 8⟩], [⟨.resp 0, 0, 8⟩]⟩).run (aliasEnv 0x8000)
        (.start aliasMem)).2 } }

theorem registryStart_session : PinnedList ⟨1, 1⟩ registryStart.drv.m.tab [] := by
  have h : (registryStart.drv.m.tab.ctxGet ⟨1, 1⟩).map (·.resources .hostMem) = some [] := by
    decide +kernel
  exact Option.map_eq_some_iff.mp h

theorem registryEnv_served (g : GuestSt) (hg : g.link registryEnv = ⟨false, true⟩) :
    AllocServed registryEnv g 0x7000 8 0 := by
  have hs : Smooth (registryEnv.drv g.sent.length) id :=
    ⟨fun _ => rfl, fun _ _ _ => rfl, fun _ => rfl, rfl, aliasEnv_ret 0x8000⟩
  exact ⟨hg, fun _ => rfl, fun off hlt => ⟨_, hs.ready (a := allocArgs 0x7000 8) (by decide) hlt⟩,
    rfl, aliasEnv_ret 0x8000, fun _ =>
      ⟨(by decide : (0x9000 : Nat) ≠ 0), (by decide : (0x9000 : Nat) + 8 < 2 ^ 64)⟩⟩

def registryAlloc : Returned × GuestSt :=
  (HostCall.alloc (some 0x7000) 8 0).run.run registryEnv registryStart

def registryFree : Returned × GuestSt :=
  (HostCall.free 0x7000).run.run registryEnv registryAlloc.2

/-- Eight bytes are in both registries until they are freed. -/
theorem hostRegistries_agree_eightBytes :
    (registryAlloc.2.registers 0x7000 8 ∧ SessionRegisters ⟨1, 1⟩ registryAlloc.2 0x7000 8 ∧
      registryAlloc.2.hostMemSize 0x7000 ≠ 0) ∧
    ¬registryFree.2.registers 0x7000 8 ∧ ¬SessionRegisters ⟨1, 1⟩ registryFree.2 0x7000 8 := by
  have hrun : HostRun registryEnv ⟨1, 1⟩ [(.alloc (some 0x7000) 8 0, registryAlloc.1)]
      registryAlloc.2 :=
    .call (.start (fun _ => rfl) registryStart_session) rfl _
      ⟨⟨by decide, by decide, by decide⟩, by decide, rfl, by unfold Mapped; decide⟩
      ⟨by decide, .inl (registryEnv_served _ rfl)⟩
  have hrun' : HostRun registryEnv ⟨1, 1⟩ [(.free 0x7000, registryFree.1),
      (.alloc (some 0x7000) 8 0, registryAlloc.1)] registryFree.2 :=
    .call hrun rfl _ ⟨by decide, Nat.le_of_ble_eq_true rfl⟩
      (.inr ⟨rfl, fun _ => rfl, rfl, rfl, aliasEnv_ret 0x8000⟩)
  have halloc : registryAlloc.1.ret = some 0 := by decide +kernel
  have hfree : registryFree.1.ret = some 0 := by decide +kernel
  have hheld : hostHeld [(.alloc (some 0x7000) 8 0, registryAlloc.1)] 0x7000 8 := by
    simp [hostHeld, HostCall.heldAfter, halloc]
  have hgone : ¬hostHeld [(.free 0x7000, registryFree.1),
      (.alloc (some 0x7000) 8 0, registryAlloc.1)] 0x7000 8 := by
    simp [hostHeld, HostCall.heldAfter, hfree]
  obtain ⟨h1, h2, h3⟩ := hostRegistries_agree hrun
  obtain ⟨h1', h2', -⟩ := hostRegistries_agree hrun'
  exact ⟨⟨(h1 _ _).mpr hheld, (h2 _ _).mpr hheld, (h3 _ _ hheld).1⟩,
    (h1' _ _).not.mpr hgone, (h2' _ _).not.mpr hgone⟩

def faultingEnv : GuestEnv :=
  { registryEnv with drv := fun n => { registryEnv.drv n with copyOut := false } }

/-- A pinned buffer of no bytes is registered in the guest alone; one whose allocation fails
after the first batch stays registered in the session alone. -/
theorem hostRegistries_disagree :
    (((HostCall.alloc (some 0x7000) 0 0).run.run registryEnv registryStart).2.registers 0x7000 0 ∧
      ¬SessionRegisters ⟨1, 1⟩
        ((HostCall.alloc (some 0x7000) 0 0).run.run registryEnv registryStart).2 0x7000 0) ∧
    (¬((HostCall.alloc (some 0x7000) 8 0).run.run faultingEnv registryStart).2.registers 0x7000 8 ∧
      SessionRegisters ⟨1, 1⟩
        ((HostCall.alloc (some 0x7000) 8 0).run.run faultingEnv registryStart).2 0x7000 8) := by
  have hg : ((HostCall.alloc (some 0x7000) 0 0).run.run registryEnv registryStart).2.hostMem
      0x7000 = some ⟨0, false⟩ := by decide +kernel
  have hs : (((HostCall.alloc (some 0x7000) 0 0).run.run registryEnv
      registryStart).2.drv.m.tab.ctxGet ⟨1, 1⟩).map (·.resources .hostMem) = some [] := by
    decide +kernel
  have hg' : ((HostCall.alloc (some 0x7000) 8 0).run.run faultingEnv registryStart).2.hostMem
      0x7000 = none := by decide +kernel
  have hs' : (((HostCall.alloc (some 0x7000) 8 0).run.run faultingEnv
      registryStart).2.drv.m.tab.ctxGet ⟨1, 1⟩).map (·.resources .hostMem) =
        some [⟨0x7000, 0x9000, 8⟩] := by
    decide +kernel
  refine ⟨⟨⟨_, hg, rfl⟩, ?_⟩, ?_, ?_⟩
  · rintro ⟨c, hc, r, hr, -⟩
    rw [hc, Option.map_some, Option.some_inj] at hs
    rw [hs] at hr
    exact absurd hr List.not_mem_nil
  · rintro ⟨x, hx, -⟩
    rw [hg'] at hx
    cases hx
  · obtain ⟨c, hc, hl⟩ := Option.map_eq_some_iff.mp hs'
    exact ⟨c, hc, _, by rw [hl]; exact List.mem_singleton_self _, rfl, rfl⟩

end HmCuda
