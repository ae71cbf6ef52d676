import HmCuda.Driver.GupSpec

/-! Where the response to a copy batch lands: the driver lays out the descriptors by
the kind, the handler marks the response by the kind, and the two agree for host to
device and device to host only. -/

namespace HmCuda
open Layout

/-- The response of a batch is in the response buffer, and the driver read its error. -/
structure Delivered (caller : Nat) (b : BatchRec) : Prop where
  lands : ∀ w ∈ b.served.writes, w.sp = .resp caller
  seen : b.seen = b.served.err

theorem cudaError_write (mem : ByteMem Space) (sp : Space) (cmd err : Nat)
    (payload : List UInt8) :
    respHeader.cudaError.get (mem.write sp 0 (respBytes cmd err payload) sp) = err % 2 ^ 32 := by
  have hb : (List.range 4).map (fun i => mem.write sp 0 (respBytes cmd err payload) sp (4 + i)) =
      Bytes.le 4 err := by
    apply List.ext_getElem (by simp)
    intro i h1 h2
    have hi : i < 4 := by simpa using h1
    have hw : mem.write sp 0 (respBytes cmd err payload) sp (0 + (4 + i)) =
        (respBytes cmd err payload).getD (4 + i) 0 := ByteMem.write_hit mem sp
      (by simp [sizeof, respHeader, roundUp, stopFrom, alignOf, CTy.align, CTy.size]; omega)
    rw [Nat.zero_add] at hw
    simp only [List.getElem_map, List.getElem_range, hw]
    rw [respBytes, List.append_assoc, List.getD_append_right _ _ _ _ (by simp), Bytes.length_le,
      Nat.add_sub_cancel_left, List.getD_append _ _ _ _ (by simpa using hi),
      List.getD_eq_getElem _ _ h2]
  rw [show respHeader.cudaError.get _ = Bytes.val ((List.range 4).map fun i =>
    mem.write sp 0 (respBytes cmd err payload) sp (4 + i)) from rfl, hb, Bytes.val_le]
  rfl

theorem respWrites_memcpyElem {caller tr kind : Nat} {data : List Iov} {resp : List UInt8}
    (hk : kind = 1 ∨ kind = 2) (hd : data ≠ []) (hr : resp ≠ []) :
    respWrites (decide (kind = 2)) (memcpyElem caller tr resp.length kind data).inSg resp =
      [⟨.resp caller, 0, resp⟩] := by
  rcases hk with rfl | rfl
  · simp [respWrites, memcpyElem, bufToIov, hr]
  · simp [respWrites, memcpyElem, hd]

theorem coalesceFrom_ram (prev pgOff rem : Nat) (acc : List Iov) (pfns : List Nat)
    (h : ∀ v ∈ acc, v.sp = .ram) : ∀ v ∈ coalesceFrom prev pgOff rem acc pfns, v.sp = .ram := by
  induction pfns generalizing prev pgOff rem acc with
  | nil => exact h
  | cons pfn pfns ih =>
    unfold coalesceFrom
    split
    · exact h
    · rcases acc with _ | ⟨v, vs⟩
      · exact ih _ _ _ _ (by simp)
      · simp only [List.mem_cons, forall_eq_or_imp] at h
        dsimp only
        split <;> exact ih _ _ _ _ (by simpa using h)

theorem batchData_ram (a : MemcpyArgs) (off : Nat) (pfns : List Nat) :
    ∀ v ∈ batchData a off pfns, v.sp = .ram := by
  intro v hv
  exact coalesceFrom_ram _ _ _ _ _ (by simp) v (List.mem_reverse.mp hv)

section
variable {e : DrvEnv} {c : CopyCmd} {a : MemcpyArgs} {off stream : Nat} {s s' : DrvSt}
  {pfns : List Nat} {served : Served}

theorem Batched.delivered (hb : Batched e c a off s pfns served s') (hc : c ≠ .cuMemHostAlloc)
    (hr : CopyReq c a.kind stream s.reqBuf) (ht : a.totalCount < 2 ^ 64)
    (hk : a.kind = 1 ∨ a.kind = 2) :
    Delivered e.caller ⟨off, pfns, batchElem e c a off pfns, served, s'.seen e.caller⟩ := by
  have hw : served.writes = [⟨.resp e.caller, 0, respBytes c.cmd.code served.err []⟩] := by
    rw [hb.writes, marks_batchPayload hc hr ht, batchElem]
    have hl : sizeof respHeader = (respBytes c.cmd.code served.err []).length := by simp
    rw [hl]
    exact respWrites_memcpyElem hk hb.ready.data (by simp [respBytes, Bytes.le])
  refine ⟨by simp [hw], ?_⟩
  have herr : served.err < 2 ^ 32 := by
    rw [hb.err]
    exact Nat.mod_lt _ (Nat.two_pow_pos 32)
  show s'.seen e.caller = served.err
  rw [DrvSt.seen, hb.post]
  simp only [DrvSt.afterBatch, Machine.deliver, applyWrites, hw, List.foldl_cons, List.foldl_nil]
  rw [cudaError_write, Nat.mod_eq_of_lt herr]

/-- For any other kind the response is written over the first data page. -/
theorem Batched.not_delivered (hb : Batched e c a off s pfns served s')
    (hc : c ≠ .cuMemHostAlloc) (hr : CopyReq c a.kind stream s.reqBuf)
    (ht : a.totalCount < 2 ^ 64) (hk : ¬(a.kind = 1 ∨ a.kind = 2)) :
    ¬Delivered e.caller ⟨off, pfns, batchElem e c a off pfns, served, s'.seen e.caller⟩ := by
  rw [not_or] at hk
  have hw : served.writes = bufToIov (batchData a off pfns ++
      [⟨.resp e.caller, 0, sizeof respHeader⟩]) (respBytes c.cmd.code served.err []) := by
    rw [hb.writes, marks_batchPayload hc hr ht, batchElem, memcpyElem, if_neg hk.1]
    simp [respWrites, hk.2]
  intro hd
  have hram := batchData_ram a off pfns
  have hne := hb.ready.data
  rcases hdata : batchData a off pfns with _ | ⟨v, vs⟩
  · exact hne hdata
  · rw [hdata, List.cons_append, bufToIov, if_neg (by simp [respBytes, Bytes.le])] at hw
    have h1 := hd.lands ⟨v.sp, v.base, _⟩ (by rw [hw]; exact List.mem_cons_self)
    have h2 := hram v (by simp [hdata])
    rw [h2] at h1
    simp at h1

theorem Batched.all_delivered (hb : Batched e c a off s pfns served s')
    (hc : c ≠ .cuMemHostAlloc) (hr : CopyReq c a.kind stream s.reqBuf)
    (ht : a.totalCount < 2 ^ 64) (hk : a.kind = 1 ∨ a.kind = 2)
    (hs : ∀ b ∈ s.batches, Delivered e.caller b) : ∀ b ∈ s'.batches, Delivered e.caller b := by
  intro b hm
  have hd := hb.delivered hc hr ht hk
  rw [hb.post] at hm
  rcases List.mem_append.mp hm with hm | hm
  · exact hs b hm
  · rw [List.mem_singleton.mp hm]
    rw [hb.post] at hd
    exact hd

def ioctlBatches (e : DrvEnv) (s : DrvSt) : List BatchRec :=
  (hmcudaIoctl.run e { s with batches := [] }).2.batches

/-- The copy loop is entered and its first batch reaches the queue. -/
structure Starts (e : DrvEnv) (a : MemcpyArgs) : Prop where
  alloc : e.kmalloc .pages = true ∧ e.kmalloc .sgBatch = true
  bytes : 0 < a.totalCount
  first : ∃ pfns, Ready e a 0 pfns

theorem copyLoop_delivered (hc : c ≠ .cuMemHostAlloc) (ht : a.totalCount < 2 ^ 64)
    (hk : a.kind = 1 ∨ a.kind = 2) (hr : CopyReq c a.kind stream s.reqBuf)
    (hs : ∀ b ∈ s.batches, Delivered e.caller b) :
    ∀ b ∈ ((copyLoop c a).run e s).2.batches, Delivered e.caller b := by
  refine copyLoop_rule (I := fun _ s => CopyReq c a.kind stream s.reqBuf ∧
    ∀ b ∈ s.batches, Delivered e.caller b) (Q := fun _ s => ∀ b ∈ s.batches, Delivered e.caller b)
    (fun _ s hI => hI.1.cmd) (fun off s s' h _ hI hu _ _ => hu.batches ▸ hI.2)
    (fun off s s' pfns sv _ hI hb _ => ⟨?_, ?_⟩) (fun off s s' pfns sv _ hI hb _ => ?_)
    (fun s hI => hI.2) ⟨hr, hs⟩
  · rw [hb.post]
    exact hI.1.batchReq hc
  · exact hb.all_delivered hc hI.1 ht hk hI.2
  · exact hb.all_delivered hc hI.1 ht hk hI.2

theorem copyLoop_not_delivered (hc : c ≠ .cuMemHostAlloc) (ht : a.totalCount < 2 ^ 64)
    (hk : ¬(a.kind = 1 ∨ a.kind = 2)) (hr : CopyReq c a.kind stream s.reqBuf) (hs : Starts e a) :
    ∃ b ∈ ((copyLoop c a).run e s).2.batches, ¬Delivered e.caller b := by
  refine copyLoop_rule (I := fun off s => CopyReq c a.kind stream s.reqBuf ∧
    (off ≠ 0 → ∃ b ∈ s.batches, ¬Delivered e.caller b))
    (Q := fun _ s => ∃ b ∈ s.batches, ¬Delivered e.caller b)
    (fun _ s hI => hI.1.cmd) (fun off s s' h _ hI hu hn _ => ?_)
    (fun off s s' pfns sv _ hI hb _ => ⟨?_, fun _ => ?_⟩) (fun off s s' pfns sv _ hI hb _ => ?_)
    (fun s hI => hI.2 hs.bytes.ne') ⟨hr, fun h => absurd rfl h⟩
  · rw [hu.batches]
    refine hI.2 fun h0 => ?_
    obtain ⟨pfns, hp⟩ := hs.first
    exact hn pfns (h0 ▸ hp)
  · rw [hb.post]
    exact hI.1.batchReq hc
  all_goals
    refine ⟨_, ?_, hb.not_delivered hc hI.1 ht hk⟩
    rw [hb.post]
    exact List.mem_append_right _ List.mem_cons_self

theorem copyLoop_unstarted (hr : CopyReq c a.kind stream s.reqBuf)
    (hn : ¬(0 < a.totalCount ∧ ∃ pfns, Ready e a 0 pfns)) :
    ((copyLoop c a).run e s).2.batches = s.batches := by
  refine copyLoop_rule (I := fun off t => off = 0 ∧ CopyReq c a.kind stream t.reqBuf ∧
    t.batches = s.batches) (Q := fun _ t => t.batches = s.batches) (fun _ s hI => hI.2.1.cmd)
    (fun off t t' h _ hI hu _ _ => hu.batches.trans hI.2.2) (fun off t t' pfns sv hlt hI hb _ => ?_)
    (fun off t t' pfns sv hlt hI hb _ => ?_) (fun t hI => hI.2.2) ⟨rfl, hr, rfl⟩
  all_goals
    obtain rfl := hI.1
    exact absurd ⟨hlt, pfns, hb.ready⟩ hn

end

section
variable {e : DrvEnv} {c : CopyCmd} {hdr p : Nat → UInt8}

theorem ioctlBatches_loop (hc : c ≠ .cuMemHostAlloc) (hp : Built e c hdr p)
    (ha : e.kmalloc .pages = true ∧ e.kmalloc .sgBatch = true) (s : DrvSt) :
    ∃ t : DrvSt, CopyReq c (memReq p).args.kind (memReq p).stream t.reqBuf ∧ t.batches = [] ∧
      ioctlBatches e s = ((copyLoop c (memReq p).args).run e t).2.batches := by
  obtain ⟨evs, s', -, hsame, hrun⟩ := hmcudaIoctl_loop hp ha { s with batches := [] }
  obtain ⟨x, hx, -⟩ := hsame.trans (finishIoctl_sameBut _ _ e s')
  refine ⟨DrvSt.atLoop { s with batches := [] } e c hdr p evs, ?_, rfl, ?_⟩
  · rw [MemReq.args_kind]
    exact copyReq_reqImage hc hdr p hp.code
  · rw [ioctlBatches, hrun, hx, copyArgs_mem hc]

theorem ioctlBatches_nil {s : DrvSt}
    (h : DrvSt.Quiet e.caller { s with batches := [] }
      (hmcudaIoctl.run e { s with batches := [] }).2) : ioctlBatches e s = [] := h.batches

/-- The response to every batch of a memcpy ioctl is delivered exactly when its kind is
1 or 2, or no batch of it reaches the queue. -/
theorem responses_delivered_iff (c : CopyCmd) (hc : c ≠ .cuMemHostAlloc) (e : DrvEnv)
    (s : DrvSt) {hdr : Nat → UInt8} (hh : e.fetch 0 0 (sizeof reqHeader) = some hdr)
    (hcode : reqHeader.cmdType.get hdr = c.cmd.code) :
    (∀ b ∈ ioctlBatches e s, Delivered e.caller b) ↔ ∀ p, Built e c hdr p →
      Starts e (memReq p).args → (memReq p).kind = 1 ∨ (memReq p).kind = 2 := by
  by_cases hbuilt : ∃ p, Built e c hdr p
  swap
  · obtain ⟨err, -, -, hq⟩ := hmcudaIoctl_unbuilt hh hcode (not_exists.mp hbuilt)
      { s with batches := [] }
    rw [ioctlBatches_nil hq]
    exact ⟨fun _ p hp => absurd ⟨p, hp⟩ hbuilt, fun _ => by simp⟩
  obtain ⟨p, hp⟩ := hbuilt
  have hall : (∀ q, Built e c hdr q → Starts e (memReq q).args →
      (memReq q).kind = 1 ∨ (memReq q).kind = 2) ↔
      (Starts e (memReq p).args → (memReq p).kind = 1 ∨ (memReq p).kind = 2) :=
    ⟨fun h => h p hp, fun h q hq => hp.unique hq ▸ h⟩
  rw [hall]
  by_cases ha : e.kmalloc .pages = true ∧ e.kmalloc .sgBatch = true
  swap
  · rw [ioctlBatches_nil (hmcudaIoctl_noLoop hp ha { s with batches := [] }).2]
    exact ⟨fun _ hst => absurd hst.alloc ha, fun _ => by simp⟩
  obtain ⟨t, hr, hnil, hloop⟩ := ioctlBatches_loop hc hp ha s
  have ht : (memReq p).args.totalCount < 2 ^ 64 := (MemReq.args_totalCount _).trans_lt
    (memReq_count_lt p)
  rw [hloop, ← MemReq.args_kind]
  by_cases hk : (memReq p).args.kind = 1 ∨ (memReq p).args.kind = 2
  · exact ⟨fun _ _ => hk, fun _ => copyLoop_delivered hc ht hk hr (by simp [hnil])⟩
  · by_cases hst : Starts e (memReq p).args
    · obtain ⟨b, hb, hnd⟩ := copyLoop_not_delivered hc ht hk hr hst
      exact ⟨fun h => absurd (h b hb) hnd, fun h => absurd (h hst) hk⟩
    · rw [copyLoop_unstarted hr fun h => hst ⟨ha, h.1, h.2⟩, hnil]
      exact ⟨fun _ h => absurd h hst, fun _ => by simp⟩

end

def oneByteOut : DrvEnv :=
  .quiet .quiet fun _ => (⟨4096, 0x7000, 1, 2, 0⟩ : MemReq).arg RtCmd.memcpy.code

theorem responses_delivered_oneByteOut :
    (ioctlBatches oneByteOut (.start fun _ _ => 0)).length = 1 ∧
      ∀ b ∈ ioctlBatches oneByteOut (.start fun _ _ => 0), Delivered 0 b := by
  refine ⟨by decide +kernel, ?_⟩
  refine (responses_delivered_iff .memcpy (by decide) oneByteOut (.start fun _ _ => 0) rfl
    (by decide)).mpr fun p hp _ => ?_
  obtain rfl := Option.some.inj hp.payload
  exact .inr (by decide)

def oneByteKind3 : DrvEnv :=
  .quiet .quiet fun _ => (⟨4096, 0x7000, 1, 3, 0⟩ : MemReq).arg RtCmd.memcpy.code

theorem responses_not_delivered :
    ¬∀ b ∈ ioctlBatches oneByteKind3 (.start fun _ _ => 0), Delivered 0 b := by
  have hp : Built oneByteKind3 .memcpy _ _ := ⟨rfl, by decide, fun _ _ => rfl, rfl, rfl⟩
  obtain ⟨t, hr, -, hloop⟩ := ioctlBatches_loop (by decide) hp ⟨rfl, rfl⟩ (.start fun _ _ => 0)
  have hst : Starts oneByteKind3 (MemReq.args ⟨4096, 0x7000, 1, 3, 0⟩) :=
    ⟨⟨rfl, rfl⟩, by decide, [1], rfl, by decide, by decide, rfl⟩
  obtain ⟨b, hb, hnd⟩ := copyLoop_not_delivered (by decide) (by decide) (by decide) hr hst
  rw [hloop]
  exact fun h => hnd (h b hb)

end HmCuda
