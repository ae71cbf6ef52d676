import HmCuda.System.HostRegistry
import HmCuda.System.PinnedTranslation

/-! What a transfer into a pinned buffer leaves alone. Whatever fails on the way, it stores to
no byte but those of the range it names. -/

namespace HmCuda
open Layout AsyncCopy

/-- The addresses in `K` hold what they did in `g₀`, and no copy was submitted. -/
structure Untouched (g₀ : Engine Space) (K : Space × Nat → Prop) (g : Engine Space) : Prop where
  mem : ∀ x, K x → g.mem x.1 x.2 = g₀.mem x.1 x.2
  pending : ∀ y ∈ g.pending, y ∈ g₀.pending

/-- The addresses in `K` are memory of the guest or of the backend outside the `n` bytes at
`real`, and nothing pending writes to them. -/
structure Beside (g₀ : Engine Space) (K : Space × Nat → Prop) (real n : Nat) : Prop where
  shared : ∀ x, K x → Shared x.1
  free : ∀ y ∈ g₀.pending, ∀ x, K x → x ∉ y.dsts
  out : ∀ i < n, ¬K (.uva, real + i)

section
variable {g₀ g : Engine Space} {K : Space × Nat → Prop} {v v' : Device} {k : Key} {q : QEnv}
  {c : Context} {r : Resource} {real o n stream off : Nat}

theorem untouched_refl (g : Engine Space) (K : Space × Nat → Prop) : Untouched g K g :=
  ⟨fun _ _ => rfl, fun _ hy => hy⟩

theorem Untouched.drift (h : Untouched g₀ K v.eng) (hK : Beside g₀ K real n)
    (hd : v.Drifts v') : Untouched g₀ K v'.eng := by
  refine ⟨fun x hx => ?_, fun y hy => h.pending y (hd.pending y hy)⟩
  exact (hd.mem x.1 x.2 (hK.shared x hx) fun y hy => hK.free y (h.pending y hy) x hx).trans
    (h.mem x hx)

theorem Untouched.finishMany (h : Untouched g₀ K g) (hK : Beside g₀ K real n) (is : List Nat) :
    Untouched g₀ K (g.finishMany is) := by
  refine ⟨fun x hx => ?_, fun y hy => h.pending y (Engine.finishMany_pending_subset _ _ hy)⟩
  exact (Engine.finishMany_other (fun y hy => hK.free y (h.pending y hy) x hx) is).trans (h.mem x hx)

theorem Untouched.write (h : Untouched g₀ K g) (hK : Beside g₀ K real n) {bs : List UInt8}
    {start : Nat} (hle : start + bs.length ≤ n) :
    Untouched g₀ K ⟨g.mem.write .uva (real + start) bs, g.pending⟩ := by
  refine ⟨fun x hx => ?_, h.pending⟩
  refine (ByteMem.write_miss g.mem ?_).trans (h.mem x hx)
  rintro ⟨hsp, hlo, hhi⟩
  have heq : x = (.uva, real + (x.2 - real)) := Prod.ext hsp (by dsimp only; omega)
  rw [heq] at hx
  exact hK.out _ (by omega) hx

variable (stream) in
theorem Untouched.chunk (h : Untouched g₀ K v.eng) (hK : Beside g₀ K (r.realPtr + o) n)
    (hm : MallocApart q.env) (hc : q.tab.ctxGet k = some c) (hp : PinnedRange c r o n) {ch : Chunk}
    (hlen : 0 < ch.len) (hle : off + (ch.off + ch.len) ≤ n) : Untouched g₀ K
      ((chunkStep .cuMemcpy .htod k (r.handle + o + off) stream ch).run q v).2.eng := by
  rcases chunkStep_store stream hm hc hp ch (show off + ch.off < n by omega) (v := v) with
    ⟨-, -, is, heng⟩ | ⟨-, is, heng⟩
  · rw [heng]
    exact h.finishMany hK is
  · rw [heng, Nat.add_assoc (r.realPtr + o)]
    refine (h.finishMany hK is).write hK ?_
    simp only [length_patch, ByteMem.length_read]
    omega

variable (stream) in
theorem Untouched.chunks (h : Untouched g₀ K v.eng) (hK : Beside g₀ K (r.realPtr + o) n)
    (hm : MallocApart q.env) (hc : q.tab.ctxGet k = some c) (hp : PinnedRange c r o n)
    {data : List Iov} (hpos : ∀ w ∈ data, 0 < w.len) (hle : off + totalLen data ≤ n) :
    Untouched g₀ K ((Prog.firstError (chunkStep .cuMemcpy .htod k (r.handle + o + off) stream)
      (tile 0 data)).run q v).2.eng := by
  refine Prog.firstError_keeps (P := fun v : Device => Untouched g₀ K v.eng)
    (fun ch hch w hw => ?_) h
  obtain ⟨-, hend, hmem, hlen⟩ := mem_tile hch
  have hch := hpos _ hmem
  exact hw.chunk stream hK hm hc hp (by omega) (by omega)

end

/-! The batches -/

section
variable {e : DrvEnv} {a : MemcpyArgs} {c : Context} {r : Resource} {t : Tables}
  {g₀ : Engine Space} {K : Space × Nat → Prop} {o stream off : Nat} {s s' : DrvSt}

theorem Untouched.batch (hm : MallocApart e.sys) (hcount : a.totalCount < 2 ^ 64) (hk : a.kind = 1)
    (hdev : a.devPtr = r.handle + o) (hc : t.ctxGet e.key = some c)
    (hp : PinnedRange c r o a.totalCount) (hK : Beside g₀ K (r.realPtr + o) a.totalCount)
    (hreq : CopyReq MemCmd.cuMemcpy.copy a.kind stream s.reqBuf) (ht : s.m.tab = t)
    (h : Untouched g₀ K s.m.dev.eng) (hlt : off < a.totalCount) {pfns : List Nat} {sv : Served}
    (hb : Batched e MemCmd.cuMemcpy.copy a off s pfns sv s') :
    Untouched g₀ K s'.m.dev.eng ∧ s'.m.tab = t := by
  have hrem := batchAt_count_rem a off
  have hlen := hb.ready.totalLen
  have hsize := hp.size
  have hkey := hp.key
  obtain ⟨-, hm'⟩ := hb.ran_machine (d := .htod) hk hcount hreq ht
  rw [chunkLoop_unsynced rfl, hdev, add64_of_lt (show r.handle + o + off < 2 ^ 64 by omega)] at hm'
  have hshown := h.drift hK (drifts_setMem s.m (show ¬Shared (.req e.caller) by simp [Shared])
    (batchReq MemCmd.cuMemcpy.copy.cmd.code a off s.reqBuf))
  have hrun := hshown.chunks stream (q := ⟨e.sys, t⟩) hK hm hc hp (batchData_pos a off pfns)
    (show off + totalLen (batchData a off pfns) ≤ a.totalCount by omega)
  have hdel := hb.delivered MemCmd.cuMemcpy.copy_ne hreq hcount (.inl hk)
  have hws : ∀ w ∈ sv.writes, ¬Shared w.sp := hdel.unshared
  rw [hm']
  exact ⟨hrun.drift hK (drifts_deliver ⟨s.m.tab, _⟩ e.sys hws), ht⟩

theorem copyLoop_untouched (hm : MallocApart e.sys) (hcount : a.totalCount < 2 ^ 64)
    (hk : a.kind = 1) (hdev : a.devPtr = r.handle + o) (hc : t.ctxGet e.key = some c)
    (hp : PinnedRange c r o a.totalCount) (hK : Beside g₀ K (r.realPtr + o) a.totalCount)
    (hreq : CopyReq MemCmd.cuMemcpy.copy a.kind stream s.reqBuf) (ht : s.m.tab = t)
    (h : Untouched g₀ K s.m.dev.eng) :
    Untouched g₀ K ((copyLoop MemCmd.cuMemcpy.copy a).run e s).2.m.dev.eng ∧
      ((copyLoop MemCmd.cuMemcpy.copy a).run e s).2.m.tab = t := by
  refine copyLoop_rule (I := fun _ s => CopyReq MemCmd.cuMemcpy.copy a.kind stream s.reqBuf ∧
      s.m.tab = t ∧ Untouched g₀ K s.m.dev.eng)
    (Q := fun _ s => Untouched g₀ K s.m.dev.eng ∧ s.m.tab = t)
    (fun _ s hI => hI.1.cmd) (fun off s s' x _ hI hu _ _ => ?_)
    (fun off s s' pfns sv hlt hI hb _ => ?_) (fun off s s' pfns sv hlt hI hb _ => ?_)
    (fun s hI => ⟨hI.2.2, hI.2.1⟩) ⟨hreq, ht, h⟩
  · rw [hu.m]
    exact ⟨hI.2.2, hI.2.1⟩
  · obtain ⟨hreq, ht, h⟩ := hI
    obtain ⟨hu, ht'⟩ := h.batch hm hcount hk hdev hc hp hK hreq ht hlt hb
    refine ⟨?_, ht', hu⟩
    rw [hb.post]
    exact hreq.batchReq MemCmd.cuMemcpy.copy_ne
  · obtain ⟨hreq, ht, h⟩ := hI
    exact h.batch hm hcount hk hdev hc hp hK hreq ht hlt hb

end

/-! The ioctl -/

section
variable {e : DrvEnv} {u n o : Nat} {c : Context} {r : Resource} {s : DrvSt}
  {g₀ : Engine Space} {K : Space × Nat → Prop}

theorem Untouched.quiet {caller : Nat} {s' : DrvSt} (h : Untouched g₀ K s.m.dev.eng)
    {real : Nat} (hK : Beside g₀ K real n) (hq : s.Quiet caller s') :
    Untouched g₀ K s'.m.dev.eng ∧ s'.m.tab = s.m.tab := by
  obtain ⟨f, hm⟩ := hq.m
  rw [hm]
  exact ⟨h.drift hK (drifts_setMem s.m (show ¬Shared (.resp caller) by simp [Shared]) f), rfl⟩

/-- A cuMemcpy ioctl for a range of a pinned buffer stores to that range only, and leaves the
session as it is. -/
theorem hmcudaIoctl_untouched (hm : MallocApart e.sys) (hc : s.m.tab.ctxGet e.key = some c)
    (hcode : ∀ hdr, e.fetch 0 0 (sizeof reqHeader) = some hdr →
      reqHeader.cmdType.get hdr = MemCmd.cuMemcpy.copy.cmd.code)
    (hargs : ∀ hdr p, Built e MemCmd.cuMemcpy.copy hdr p →
      (memReq p).args = ⟨u, n, r.handle + o, Dir.htod.kind⟩)
    (hp : PinnedRange c r o n) (hcount : n < 2 ^ 64) (hK : Beside g₀ K (r.realPtr + o) n)
    (h : Untouched g₀ K s.m.dev.eng) :
    Untouched g₀ K (hmcudaIoctl.run e s).2.m.dev.eng ∧ (hmcudaIoctl.run e s).2.m.tab = s.m.tab := by
  rcases hh : e.fetch 0 0 (sizeof reqHeader) with _ | hdr
  · rw [hmcudaIoctl_noHeader hh]
    exact ⟨h, rfl⟩
  by_cases hbuilt : ∃ p, Built e MemCmd.cuMemcpy.copy hdr p
  swap
  · obtain ⟨_, -, -, hq⟩ := hmcudaIoctl_unbuilt hh (hcode hdr hh) (not_exists.mp hbuilt) s
    exact h.quiet hK hq
  obtain ⟨p, hb⟩ := hbuilt
  by_cases halloc : e.kmalloc .pages = true ∧ e.kmalloc .sgBatch = true
  swap
  · exact h.quiet hK (hmcudaIoctl_noLoop hb halloc s).2
  obtain ⟨t, w, ht, ⟨x, hx, -⟩, hrun⟩ := hmcudaIoctl_memLoop MemCmd.cuMemcpy.copy_ne hb halloc
    (hargs hdr p hb) s
  have hloop := copyLoop_untouched hm hcount rfl rfl hc hp hK ht.req ht.tab (h.drift hK ht.drifts)
  rw [hrun, finishIoctl_m, hx]
  exact hloop

theorem copyLoop_ends {a : MemcpyArgs} {stream : Nat}
    (h : CopyReq MemCmd.cuMemcpy.copy a.kind stream s.reqBuf) :
    ((copyLoop MemCmd.cuMemcpy.copy a).run e s).1 = .ret 0 ∨
      ((copyLoop MemCmd.cuMemcpy.copy a).run e s).1.Failed := by
  refine copyLoop_rule (I := fun _ s => CopyReq MemCmd.cuMemcpy.copy a.kind stream s.reqBuf)
    (Q := fun x _ => x = .ret 0 ∨ x.Failed) (fun _ s hI => hI.cmd)
    (fun off s s' x _ _ _ _ hf => .inr hf) (fun off s s' pfns sv _ hI hb _ => ?_)
    (fun _ _ _ _ _ _ _ _ _ => .inl rfl) (fun _ _ => .inl rfl) h
  rw [hb.post]
  exact hI.batchReq MemCmd.cuMemcpy.copy_ne

theorem hmcudaIoctl_answeredZero {buf : Nat → UInt8}
    (hcode : ∀ hdr, e.fetch 0 0 (sizeof reqHeader) = some hdr →
      reqHeader.cmdType.get hdr = MemCmd.cuMemcpy.copy.cmd.code)
    (hret : (dispatchResult buf 0 (hmcudaIoctl.run e s).1).ret = some 0) :
    (∃ hdr p, Built e MemCmd.cuMemcpy.copy hdr p) ∧ (hmcudaIoctl.run e s).1.halt = .ret 0 ∧
      (hmcudaIoctl.run e s).1.status = some 0 := by
  have hfail (hf : (hmcudaIoctl.run e s).1.halt.Failed) : False := dispatchResult_failed hf hret
  rcases hh : e.fetch 0 0 (sizeof reqHeader) with _ | hdr
  · refine (hfail ?_).elim
    rw [hmcudaIoctl_noHeader hh]
    exact Halt.failed_ret (by decide)
  by_cases hbuilt : ∃ p, Built e MemCmd.cuMemcpy.copy hdr p
  swap
  · obtain ⟨err, hneg, hhalt, -⟩ := hmcudaIoctl_unbuilt hh (hcode hdr hh) (not_exists.mp hbuilt) s
    exact (hfail (by rw [hhalt]; exact Halt.failed_ret hneg)).elim
  obtain ⟨p, hb⟩ := hbuilt
  refine ⟨⟨hdr, p, hb⟩, ?_⟩
  by_cases halloc : e.kmalloc .pages = true ∧ e.kmalloc .sgBatch = true
  swap
  · refine (hfail ?_).elim
    rw [(hmcudaIoctl_noLoop hb halloc s).1]
    exact Halt.failed_ret (by decide)
  obtain ⟨t, w, ht, -, hrun⟩ := hmcudaIoctl_memLoop MemCmd.cuMemcpy.copy_ne hb halloc rfl s
  have hends := copyLoop_ends (e := e) ht.req
  generalize ((copyLoop MemCmd.cuMemcpy.copy (memReq p).args).run e t).1 = x at hends hrun
  rw [hrun] at hret hfail ⊢
  rcases hends with rfl | hf
  swap
  · exact absurd hret (dispatchResult_refused (.inl hf))
  have hseen : w.seen e.caller = 0 := by
    by_contra hne
    exact dispatchResult_refused (.inr ⟨rfl, hne⟩) hret
  by_cases hout : e.copyOut = true
  swap
  · refine (hfail ?_).elim
    rw [finishIoctl_zero, if_neg hout]
    exact Halt.failed_ret (by decide)
  rw [finishIoctl_answer, if_pos hout, hseen]
  exact ⟨by rw [finishIoctl_zero, if_pos hout], rfl⟩

end
end HmCuda
