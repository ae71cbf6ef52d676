import HmCuda.Driver.Scatter

/-! The arithmetic of the copy loop, whose 64-bit arguments the ioctl does not check: which
iterations it reaches, and for which arguments none of them wraps. -/

namespace HmCuda
open Layout

/-- What an iteration relies on: none of its sums and differences wraps, it pins between one
page and a full batch, the scatter list of so many pages is not empty, and it advances. -/
structure BatchFine (a : MemcpyArgs) (off : Nat) : Prop where
  pages : 1 ≤ (batchAt a off).pages ∧ (batchAt a off).pages ≤ 512
  sum : (batchAt a off).pageOff + (a.totalCount - off) < 2 ^ 64
  rounding : (batchAt a off).pageOff + (a.totalCount - off) + (pageSize - 1) < 2 ^ 64
  capacity : (batchAt a off).pageOff ≤ (batchAt a off).pages * pageSize
  entries : ∀ pfns, pfns.length = (batchAt a off).pages → batchData a off pfns ≠ []
  count : 0 < (batchAt a off).count ∧ (batchAt a off).count ≤ a.totalCount - off

inductive GupReached (cmd tr tp : Nat) (a : MemcpyArgs) (e : DrvEnv) (s : DrvSt) :
    Nat → DrvSt → Prop where
  | first (h : 0 < a.totalCount) : GupReached cmd tr tp a e s 0 s
  | next {off n : Nat} {t u : DrvSt} (reached : GupReached cmd tr tp a e s off t)
      (run : (gupBatch cmd tr tp a off).run e t = (.ok n, u)) (h : n < a.totalCount) :
      GupReached cmd tr tp a e s n u

def GupNext (cmd tr tp : Nat) (a : MemcpyArgs) (e : DrvEnv) (x y : Nat × DrvSt) : Prop :=
  x.1 < a.totalCount ∧ (gupBatch cmd tr tp a x.1).run e x.2 = (.ok y.1, y.2)

section
variable {cmd tr tp : Nat} {a : MemcpyArgs} {off : Nat} {e : DrvEnv} {s t : DrvSt}

theorem gupBatch_ok {n : Nat} (h : ((gupBatch cmd tr tp a off).run e s).1 = .ok n) :
    n = off + (batchAt a off).count ∧ 0 < (batchAt a off).count := by
  by_cases hr : ∃ pfns, Ready e a off pfns
  · obtain ⟨pfns, hr⟩ := hr
    refine ⟨?_, hr.count_pos⟩
    rcases hp : (processElem e.key (memcpyElem e.caller tr tp a.kind (batchData a off pfns))).run
      e.sys (s.m.setMem (.req e.caller) (batchReq cmd a off s.reqBuf)) with ⟨_ | served, m⟩
    · rw [gupBatch_unserved hr hp] at h
      cases h
    · rw [gupBatch_served hr hp] at h
      dsimp only at h
      split at h
      · cases h
      · exact (Except.ok.inj h).symm
  · obtain ⟨halt, heq, -⟩ := gupBatch_refused cmd tr tp (s := s) (not_exists.mp hr)
    rw [heq] at h
    cases h

theorem GupNext.lt {x y : Nat × DrvSt} (h : GupNext cmd tr tp a e x y) :
    x.1 < y.1 ∧ y.1 ≤ a.totalCount := by
  obtain ⟨hlt, hrun⟩ := h
  obtain ⟨hn, hpos⟩ := gupBatch_ok (congrArg Prod.fst hrun)
  have hle := batchAt_count_rem a x.1
  omega

theorem gup_ends (x : Nat × DrvSt) : Acc (fun y x => GupNext cmd tr tp a e x y) x := by
  -- by induction on the bytes that are left
  generalize hr : a.totalCount - x.1 = r
  induction r using Nat.strong_induction_on generalizing x with
  | _ r ih =>
    refine ⟨_, fun y hy => ih (a.totalCount - y.1) ?_ y rfl⟩
    have hlt := hy.lt
    have hx := hy.1
    omega

theorem coalesce_ne_nil {pgOff count : Nat} {pfns : List Nat} (hc : 0 < count)
    (hp : pfns ≠ []) : coalesce pgOff count pfns ≠ [] := by
  have grows (prev pgOff rem : Nat) (v : Iov) (vs : List Iov) (pfns : List Nat) :
      coalesceFrom prev pgOff rem (v :: vs) pfns ≠ [] := by
    induction pfns generalizing prev pgOff rem v vs with
    | nil => exact List.cons_ne_nil v vs
    | cons pfn pfns ih =>
      unfold coalesceFrom
      split
      · exact List.cons_ne_nil v vs
      · dsimp only
        split
        · exact ih _ _ _ _ _
        · exact ih _ _ _ _ _
  obtain ⟨pfn, pfns, rfl⟩ := List.exists_cons_of_ne_nil hp
  unfold coalesce coalesceFrom
  rw [if_neg hc.ne', ne_eq, List.reverse_eq_nil_iff]
  exact grows _ _ _ _ _ _

theorem batchAt_count (h : (batchAt a off).pageOff ≤ (batchAt a off).pages * pageSize) :
    (batchAt a off).count =
      min ((batchAt a off).pages * pageSize - (batchAt a off).pageOff) (a.totalCount - off) := by
  show min (sub64 ((batchAt a off).pages * pageSize) (batchAt a off).pageOff) _ = _
  rw [sub64_of_le h]
  have hle := Nat.mul_le_mul_right pageSize (pages_le a off)
  exact hle.trans_lt (by decide)

theorem batchFine_of_lt (hoff : off < a.totalCount)
    (h : (batchAt a off).pageOff + (a.totalCount - off) + (pageSize - 1) < 2 ^ 64) :
    BatchFine a off := by
  have ho := pageOff_lt a off
  have hsum : (batchAt a off).pageOff + (a.totalCount - off) < 2 ^ 64 := by omega
  have hpages : (batchAt a off).pages = min pagesPerBatch
      (((batchAt a off).pageOff + (a.totalCount - off) + (pageSize - 1)) / pageSize) := by
    show min _ (pagesFor (add64 (batchAt a off).pageOff (a.totalCount - off))) = _
    rw [add64_of_lt hsum, pagesFor, add64_of_lt h]
  have hone : 1 ≤ (batchAt a off).pages ∧ (batchAt a off).pages ≤ 512 := by
    rw [hpages]
    refine ⟨le_min (by decide) (Nat.div_pos ?_ (by decide)), min_le_left _ _⟩
    omega
  have hcap : (batchAt a off).pageOff ≤ (batchAt a off).pages * pageSize :=
    ho.le.trans (Nat.le_mul_of_pos_left _ hone.1)
  have hpos : 0 < (batchAt a off).count := by
    rw [batchAt_count hcap]
    refine lt_min (Nat.sub_pos_of_lt (ho.trans_le ?_)) (Nat.sub_pos_of_lt hoff)
    exact Nat.le_mul_of_pos_left _ hone.1
  refine ⟨hone, hsum, h, hcap, fun pfns hlen => coalesce_ne_nil hpos ?_, hpos, batchAt_count_rem a off⟩
  exact List.ne_nil_of_length_pos (hlen ▸ hone.1)

theorem pageOff_eq (a : MemcpyArgs) (off : Nat) :
    (batchAt a off).pageOff = (a.userAddrStart + off) % pageSize :=
  Nat.mod_mod_of_dvd _ (by decide)

theorem BatchFine.next_pageOff (h : BatchFine a off)
    (hlt : off + (batchAt a off).count < a.totalCount) :
    (batchAt a (off + (batchAt a off).count)).pageOff = 0 := by
  have hfull : (batchAt a off).count = (batchAt a off).pages * pageSize - (batchAt a off).pageOff := by
    have hcount := batchAt_count h.capacity
    omega
  have hcap := h.capacity
  have hoff := pageOff_eq a off
  rw [pageOff_eq, hfull]
  simp only [pageSize] at hcap hoff ⊢
  omega

theorem GupReached.lt (h : GupReached cmd tr tp a e s off t) : off < a.totalCount := by
  cases h <;> assumption

theorem GupReached.inv (h : GupReached cmd tr tp a e s off t)
    (hfirst : a.userAddrStart % pageSize + a.totalCount + (pageSize - 1) < 2 ^ 64) :
    off < a.totalCount ∧ BatchFine a off := by
  induction h with
  | first h => exact ⟨h, batchFine_of_lt h (by rwa [pageOff_eq])⟩
  | next _ run hlt ih =>
    obtain ⟨rfl, hpos⟩ := gupBatch_ok (congrArg Prod.fst run)
    refine ⟨hlt, batchFine_of_lt hlt ?_⟩
    rw [ih.2.next_pageOff hlt]
    omega

/-- Every iteration is as it should be exactly if the first one does not wrap, which is up to
the caller. -/
theorem gup_fine_iff (cmd tr tp : Nat) (a : MemcpyArgs) (e : DrvEnv) (s : DrvSt) :
    ((∀ off t, GupReached cmd tr tp a e s off t → BatchFine a off) ∧
        Acc (fun y x => GupNext cmd tr tp a e x y) (0, s)) ↔
      a.totalCount = 0 ∨ a.userAddrStart % pageSize + a.totalCount + (pageSize - 1) < 2 ^ 64 := by
  constructor
  · rintro ⟨h, -⟩
    rcases Nat.eq_zero_or_pos a.totalCount with h0 | hpos
    · exact .inl h0
    · have hr := (h 0 s (.first hpos)).rounding
      rw [pageOff_eq] at hr
      exact .inr hr
  · intro h
    refine ⟨fun off t hr => ?_, gup_ends _⟩
    rcases h with h0 | hlt
    · -- the loop is not entered
      exact absurd (h0 ▸ hr.lt) (Nat.not_lt_zero off)
    · exact (hr.inv hlt).2

end

def wrapArgs : MemcpyArgs := ⟨1, 2 ^ 64 - 1, 0, 1⟩

/-- The sum wraps to 0, no page is pinned, and the driver writes before its scatter list. -/
theorem gup_wraps : batchAt wrapArgs 0 = ⟨1, 1, 0, 2 ^ 64 - 1⟩ ∧
    (¬∀ off t, GupReached RtCmd.memcpy.code 64 16 wrapArgs (.quiet .quiet fun _ _ => 0)
      (.start fun _ _ => 0) off t → BatchFine wrapArgs off) ∧
    ((gupBatch RtCmd.memcpy.code 64 16 wrapArgs 0).run (.quiet .quiet fun _ _ => 0)
      (.start fun _ _ => 0)).1 = .error .fault := by
  refine ⟨by decide +kernel, fun h => ?_, by rfl⟩
  have hpages := (h 0 _ (.first (by decide))).pages.1
  exact absurd hpages (by decide +kernel)

end HmCuda
