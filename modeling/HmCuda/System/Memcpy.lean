import HmCuda.System.RangeCopy

/-! cudaMemcpy's ioctl: both directions move a range byte for byte, and nothing else. -/

namespace HmCuda
open Layout AsyncCopy Ranges

/-- `m` became `m'` by a copy of `n` bytes between the user address `u` and `dev`. -/
structure Copied (d : Dir) (pt : Nat → Nat) (dev u n : Nat) (m m' : ByteMem Space) : Prop where
  moved : ∀ i < n, m' (d.pair (dev + i) (phys pt (u + i))).1.1
    (d.pair (dev + i) (phys pt (u + i))).1.2 =
      m (d.pair (dev + i) (phys pt (u + i))).2.1 (d.pair (dev + i) (phys pt (u + i))).2.2
  frame : ∀ sp a, Shared sp → (∀ i < n, (sp, a) ≠ (d.pair (dev + i) (phys pt (u + i))).1) →
    m' sp a = m sp a

theorem Submitted.copied {d : Dir} {pt : Nat → Nat} {m₀ : ByteMem Space} {real u tag n : Nat}
    {g : Engine Space} {cs : List (Copy Space)} (h : Submitted d pt m₀ real u tag n g cs)
    (hsep : Separate pt u n) (is : List Nat) (hp : (g.finishMany is).pending = []) :
    Copied d pt real u n m₀ (g.finishMany is).mem := by
  have hcov := h.covers.finishMany (independent_range hsep h.pairs)
    (fun c hc => (h.shared c hc).1) is
  refine ⟨fun i hi => ?_, fun sp a hs hne => hcov.frame sp a hs fun hmem => ?_⟩
  · refine hcov.settled hp (d.pair (real + i) (phys pt (u + i))) ?_
    rw [h.pairs]
    exact List.mem_map.mpr ⟨i, List.mem_range.mpr hi, rfl⟩
  · rw [flatMap_dsts, h.pairs, rangePairs, List.map_map] at hmem
    obtain ⟨i, hi, heq⟩ := List.mem_map.mp hmem
    exact hne i (List.mem_range.mp hi) heq.symm

/-- A memcpy ioctl for `n` bytes at the user address `u` and in one live allocation of the
session, when every pin, virtqueue and CUDA call succeeds; CUDA put no allocation at NULL
or past the end of the address space. -/
structure MemcpyCall (m : MemCmd) (e : DrvEnv) (pt : Nat → Nat) (d : Dir) (u dev n : Nat)
    (s : DrvSt) : Prop where
  smooth : Smooth e pt
  built : ∃ hdr p, Built e m.copy hdr p ∧ (memReq p).args = ⟨u, n, dev, d.kind⟩
  user : u + n ≤ taskSize
  frames : Separate pt u n
  reachable : Reachable e.key s.m
  live : ∃ c, s.m.tab.ctxGet e.key = some c ∧
    c.resFind .mem 0 = none ∧ (∀ x ∈ c.resources .mem, x.handle + x.size < 2 ^ 64) ∧
    ∃ x ∈ c.resources .mem, x.handle ≤ dev ∧ dev + n ≤ x.handle + x.size
  idle : s.m.dev.eng.pending = []

section
variable {m : MemCmd} {e : DrvEnv} {pt : Nat → Nat} {d : Dir} {u dev n : Nat} {s : DrvSt}

theorem pos_of_resFind {c : Context} (h0 : c.resFind .mem 0 = none) {x : Resource}
    (hx : x ∈ c.resources .mem) (hw : x.handle + x.size < 2 ^ 64) (hlo : x.handle ≤ dev)
    (hhi : dev + n ≤ x.handle + x.size) (hn : 0 < n) : 0 < dev := by
  have hout := List.find?_eq_none.mp h0 x hx
  rw [covers_eq rfl hw] at hout
  by_contra hdev
  exact hout (decide_eq_true ⟨by omega, by omega⟩)

theorem MemcpyCall.sent (h : MemcpyCall m e pt d u dev n s) :
    ∃ tag, RangeSent m d pt dev u tag n e.caller s (hmcudaIoctl.run e s) := by
  obtain ⟨c, hc, h0, hwrap, x, hx, hlo, hhi⟩ := h.live
  obtain ⟨hdr, p, hp, hr⟩ := h.built
  have hxw := hwrap x hx
  have hid := h.reachable.identity c (List.mem_of_find?_eq_some hc)
  refine ⟨_, hmcudaIoctl_smooth h.smooth hp hr rfl h.user h.frames (by omega) h.idle hc
    (chunksMove_mem h.smooth.ret hc (by omega) (pos_of_resFind h0 hx hxw hlo hhi) fun i hi => ?_)⟩
  exact resGet_mem_inside hwrap hid
    ⟨x, hx, hlo.trans (Nat.le_add_right _ _), by omega⟩

theorem RangeSent.status {real tag caller : Nat} {r : IoctlRes × DrvSt}
    (h : RangeSent m d pt real u tag n caller s r) : r.1.status = some 0 := by
  rw [IoctlRes.status_read h.out]
  exact congrArg some h.seen

theorem MemcpyCall.copied (h : MemcpyCall m e pt d u dev n s) (is : List Nat)
    (hp : ((hmcudaIoctl.run e s).2.m.dev.eng.finishMany is).pending = []) :
    Copied d pt dev u n s.m.dev.eng.mem ((hmcudaIoctl.run e s).2.m.dev.eng.finishMany is).mem := by
  obtain ⟨tag, hs⟩ := h.sent
  obtain ⟨cs, hsub⟩ := hs.subm
  exact hsub.copied h.frames is hp

/-- The ioctl of cudaMemcpy answers 0, and once its copies have moved the range is copied and
nothing else has changed; a copy back then brings the user's bytes. -/
theorem hmcudaIoctl_memcpy (h : MemcpyCall .memcpy e pt d u dev n s) :
    (hmcudaIoctl.run e s).1.halt = .ret 0 ∧ (hmcudaIoctl.run e s).1.status = some 0 ∧
    (∀ is, ((hmcudaIoctl.run e s).2.m.dev.eng.finishMany is).pending = [] →
      Copied d pt dev u n s.m.dev.eng.mem
        ((hmcudaIoctl.run e s).2.m.dev.eng.finishMany is).mem) ∧
    (d = .htod → ∀ is e' pt' u' s' is', MemcpyCall .memcpy e' pt' .dtoh u' dev n s' →
      s'.m.dev.eng = (hmcudaIoctl.run e s).2.m.dev.eng.finishMany is →
      ((hmcudaIoctl.run e' s').2.m.dev.eng.finishMany is').pending = [] →
      ∀ i < n, ((hmcudaIoctl.run e' s').2.m.dev.eng.finishMany is').mem .ram
        (phys pt' (u' + i)).2 = s.m.dev.eng.mem .ram (phys pt (u + i)).2) := by
  obtain ⟨tag, hs⟩ := h.sent
  refine ⟨hs.halt, hs.status, h.copied, ?_⟩
  rintro rfl is e' pt' u' s' is' h' heng hp i hi
  have hidle : ((hmcudaIoctl.run e s).2.m.dev.eng.finishMany is).pending = [] := heng ▸ h'.idle
  have hout := (h.copied is hidle).moved i hi
  have hback := (h'.copied is' hp).moved i hi
  rw [heng] at hback
  exact hback.trans hout

end

def eightBytesIn : DrvEnv :=
  .quiet .quiet fun _ => (⟨0x8000, 0x7000, 8, 1, 0⟩ : MemReq).arg RtCmd.memcpy.code

def eightBytesSt : DrvSt := { DrvSt.start aliasMem with m := aliasRun 0x8000 }

theorem eightBytesIn_smooth : Smooth eightBytesIn id :=
  ⟨fun _ => rfl, fun _ _ _ => rfl, fun _ => rfl, rfl, fun _ _ => rfl⟩

theorem eightBytesIn_call : MemcpyCall .memcpy eightBytesIn id .htod 0x7000 0x8000 8
    eightBytesSt := by
  obtain ⟨c, hc, hp, hm, -⟩ := aliasRun_placed 0x8000 (by decide)
  refine ⟨eightBytesIn_smooth, ⟨_, _, ⟨rfl, by decide, fun _ _ => rfl, rfl, rfl⟩, by decide⟩,
    by decide, fun _ _ _ _ h => h, aliasRun_reachable 0x8000, ⟨c, hc, ?_, ?_, ?_⟩, by decide +kernel⟩
  · rw [Context.resFind, hm]
    decide
  · rw [hm]
    decide
  · rw [hm]
    exact ⟨_, List.mem_singleton_self _, by decide, by decide⟩

theorem hmcudaIoctl_memcpy_eightBytes :
    (hmcudaIoctl.run eightBytesIn eightBytesSt).1.status = some 0 :=
  (hmcudaIoctl_memcpy eightBytesIn_call).2.1

end HmCuda
