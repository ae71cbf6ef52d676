import HmCuda.Driver.GupSpec
import HmCuda.Host.CopyStep

/-! The scatter list of a batch: merging physically adjacent pages keeps the bytes and
their order, and the list holds exactly the batch's bytes. -/

namespace HmCuda
open Layout

def Iov.addrs (v : Iov) : List (Space × Nat) := (List.range v.len).map fun i => (v.sp, v.base + i)

/-- The physical addresses of `count` bytes at an offset into the first of some pages. -/
def pageAddrs (pgOff count : Nat) (pfns : List Nat) : List (Space × Nat) :=
  (List.range count).map fun i =>
    (.ram, pfns.getD ((pgOff + i) / pageSize) 0 * pageSize + (pgOff + i) % pageSize)

theorem addrs_extend (v : Iov) (n : Nat) : ({ v with len := v.len + n } : Iov).addrs =
    v.addrs ++ (⟨v.sp, v.base + v.len, n⟩ : Iov).addrs := by
  simp only [Iov.addrs, List.range_add, List.map_append, List.map_map, Function.comp_def,
    Nat.add_assoc]

theorem pageAddrs_cons {pgOff rem : Nat} (pfn : Nat) (pfns : List Nat) (ho : pgOff < pageSize) :
    pageAddrs pgOff rem (pfn :: pfns) =
      (⟨.ram, pfn * pageSize + pgOff, min (pageSize - pgOff) rem⟩ : Iov).addrs ++
        pageAddrs 0 (rem - min (pageSize - pgOff) rem) pfns := by
  generalize hn : min (pageSize - pgOff) rem = n
  obtain ⟨r, hr⟩ : ∃ r, rem = n + r := ⟨rem - n, by omega⟩
  have hpos : 0 < pageSize := by decide
  rw [show rem - n = r by omega, pageAddrs, hr, List.range_add, List.map_append, List.map_map]
  refine congrArg₂ (· ++ ·) ?_ ?_
  · apply List.map_congr_left
    intro i hi
    have hi' : i < n := List.mem_range.mp hi
    have hlt : pgOff + i < pageSize := by omega
    rw [Nat.div_eq_of_lt hlt, Nat.mod_eq_of_lt hlt, List.getD_cons_zero, Nat.add_assoc]
  · apply List.map_congr_left
    intro i hi
    have hi' : i < r := List.mem_range.mp hi
    have hadd : pgOff + (n + i) = i + pageSize := by omega
    simp only [Function.comp_apply]
    rw [hadd, Nat.add_div_right _ hpos, Nat.add_mod_right, Nat.zero_add, List.getD_cons_succ]

theorem coalesceFrom_addrs {prev pgOff rem : Nat} {acc : List Iov} {pfns : List Nat}
    (ho : pgOff < pageSize) (hc : pgOff + rem ≤ pfns.length * pageSize)
    (hacc : ∀ v vs, acc = v :: vs → rem ≠ 0 →
      v.sp = .ram ∧ v.base + v.len = (prev + 1) * pageSize ∧ pgOff = 0) :
    (coalesceFrom prev pgOff rem acc pfns).reverse.flatMap Iov.addrs =
      acc.reverse.flatMap Iov.addrs ++ pageAddrs pgOff rem pfns := by
  induction pfns generalizing prev pgOff rem acc with
  | nil =>
    obtain rfl : rem = 0 := by simp at hc; omega
    simp [coalesceFrom, pageAddrs]
  | cons pfn pfns ih =>
    unfold coalesceFrom
    by_cases h0 : rem = 0
    · rw [if_pos h0, h0]
      simp [pageAddrs]
    · have hpos : 0 < pageSize := by decide
      have hlen : (pfn :: pfns).length * pageSize = pfns.length * pageSize + pageSize := by
        rw [List.length_cons, Nat.add_mul, Nat.one_mul]
      rw [if_neg h0, pageAddrs_cons pfn pfns ho]
      generalize hn : min (pageSize - pgOff) rem = n
      have hrest : 0 + (rem - n) ≤ pfns.length * pageSize := by omega
      -- the page is filled to its end unless the batch ends in it
      have hend {v : Iov} (h : v.base + v.len = pfn * pageSize + pgOff + n) (h0 : rem - n ≠ 0) :
          v.base + v.len = (pfn + 1) * pageSize := by
        rw [h, Nat.add_mul, Nat.one_mul]
        omega
      rcases acc with _ | ⟨v, vs⟩
      · dsimp only
        rw [ih hpos hrest fun v vs hv h0 => ?_]
        · simp
        · obtain ⟨rfl, -⟩ := List.cons.inj hv
          exact ⟨rfl, hend rfl h0, rfl⟩
      · obtain ⟨hram, hv, rfl⟩ := hacc v vs rfl h0
        dsimp only
        by_cases hadj : pfn = prev + 1
        · rw [if_pos hadj, ih hpos hrest fun w ws hw h0 => ?_]
          · simp only [List.reverse_cons, List.flatMap_append, List.flatMap_cons, List.flatMap_nil,
              List.append_nil, List.append_assoc]
            rw [addrs_extend, hram, hv, hadj, List.append_assoc]
            simp only [Nat.add_zero]
          · obtain ⟨rfl, -⟩ := List.cons.inj hw
            exact ⟨hram, hend (by rw [hadj, ← hv, Nat.add_zero, Nat.add_assoc]) h0, rfl⟩
        · rw [if_neg hadj, ih hpos hrest fun w ws hw h0 => ?_]
          · simp
          · obtain ⟨rfl, -⟩ := List.cons.inj hw
            exact ⟨rfl, hend rfl h0, rfl⟩

theorem coalesce_addrs {pgOff count : Nat} {pfns : List Nat} (ho : pgOff < pageSize)
    (hc : pgOff + count ≤ pfns.length * pageSize) :
    (coalesce pgOff count pfns).flatMap Iov.addrs = pageAddrs pgOff count pfns := by
  rw [coalesce, coalesceFrom_addrs ho hc (by simp)]
  rfl

theorem coalesceFrom_pos {prev pgOff rem : Nat} {acc : List Iov} {pfns : List Nat}
    (ho : pgOff < pageSize) (hacc : ∀ v ∈ acc, 0 < v.len) :
    ∀ v ∈ coalesceFrom prev pgOff rem acc pfns, 0 < v.len := by
  induction pfns generalizing prev pgOff rem acc with
  | nil => exact hacc
  | cons pfn pfns ih =>
    have hpos : 0 < pageSize := by decide
    unfold coalesceFrom
    split
    · exact hacc
    · have hn : 0 < min (pageSize - pgOff) rem := by omega
      rcases acc with _ | ⟨v, vs⟩
      · exact ih hpos (by simpa using hn)
      · simp only [List.mem_cons, forall_eq_or_imp] at hacc
        dsimp only
        split
        · refine ih hpos fun w hw => ?_
          rcases List.mem_cons.mp hw with rfl | hw
          · exact Nat.add_pos_right _ hn
          · exact hacc.2 w hw
        · refine ih hpos fun w hw => ?_
          rcases List.mem_cons.mp hw with rfl | hw
          · exact hn
          · exact hacc.elim (fun h1 h2 => (List.mem_cons.mp hw).elim (· ▸ h1) (h2 w))

theorem length_addrs (vs : List Iov) : (vs.flatMap Iov.addrs).length = totalLen vs := by
  induction vs with
  | nil => rfl
  | cons v vs ih => simp [Iov.addrs, ih]

theorem pageOff_lt (a : MemcpyArgs) (off : Nat) : (batchAt a off).pageOff < pageSize :=
  Nat.mod_lt _ (by decide)

theorem pages_le (a : MemcpyArgs) (off : Nat) : (batchAt a off).pages ≤ pagesPerBatch :=
  min_le_left _ _

section
variable {e : DrvEnv} {a : MemcpyArgs} {off : Nat} {pfns : List Nat}

theorem Ready.fits (h : Ready e a off pfns) :
    (batchAt a off).pageOff + (batchAt a off).count ≤ pfns.length * pageSize := by
  have ho := pageOff_lt a off
  have hp := pages_le a off
  have hcap : (batchAt a off).count ≤
      sub64 ((batchAt a off).pages * pageSize) (batchAt a off).pageOff := min_le_left _ _
  have hne : (batchAt a off).pages ≠ 0 := by
    rw [← h.whole]
    rintro hz
    refine h.data ?_
    rw [List.length_eq_zero_iff.mp hz]
    rfl
  rw [h.whole]
  simp only [pageSize, pagesPerBatch] at ho hp hcap ⊢
  rw [sub64_of_le (by omega) (by omega)] at hcap
  omega

theorem Ready.addrs (h : Ready e a off pfns) : (batchData a off pfns).flatMap Iov.addrs =
    pageAddrs (batchAt a off).pageOff (batchAt a off).count pfns :=
  coalesce_addrs (pageOff_lt a off) h.fits

theorem Ready.totalLen (h : Ready e a off pfns) :
    totalLen (batchData a off pfns) = (batchAt a off).count := by
  rw [← length_addrs, h.addrs]
  simp [pageAddrs]

theorem batchData_pos (a : MemcpyArgs) (off : Nat) (pfns : List Nat) :
    ∀ v ∈ batchData a off pfns, 0 < v.len := fun v hv =>
  coalesceFrom_pos (pageOff_lt a off) (by simp) v (List.mem_reverse.mp hv)

theorem Ready.count_le (h : Ready e a off pfns) :
    (batchAt a off).count ≤ pagesPerBatch * pageSize := by
  have hf := h.fits
  have hp := pages_le a off
  rw [h.whole] at hf
  simp only [pageSize, pagesPerBatch] at hf hp ⊢
  omega

theorem batchPlan_mem {m : MemCmd} {d : Dir} {stream : Nat} {s : DrvSt} (hk : a.kind = d.kind)
    (hr : CopyReq m.copy a.kind stream s.reqBuf) (ht : a.totalCount < 2 ^ 64)
    (h : Ready e a off pfns) : batchPlan e m.copy a off s pfns =
      query (chunkLoop m d e.key (add64 a.devPtr off) stream (tile 0 (batchData a off pfns))) := by
  have hreq := memReq_batchPayload (e := e) off pfns m.copy_ne hr ht
  have hlt : sizeof reqHeader + sizeof memcpyReq + HmCuda.totalLen (batchData a off pfns) <
      2 ^ 64 := by
    rw [h.totalLen]
    exact (Nat.add_le_add_left h.count_le _).trans_lt (by decide)
  have hmem : batchMemReq a stream off =
      d.req (add64 a.devPtr off) (HmCuda.totalLen (batchData a off pfns)) stream := by
    rw [h.totalLen, batchMemReq, hk]
    cases d <;> rfl
  have hfix := CopyCmd.fixed_mem m.copy_ne
  have hd : ∃ v, d.carries (cmdEnv e.sys e.key (batchElem e m.copy a off pfns)) v
      (batchData a off pfns) := by
    rw [batchElem, memcpyElem, hk, hfix]
    cases d with
    | htod => exact ⟨_, rfl, rfl, rfl⟩
    | dtoh => exact ⟨_, rfl⟩
  obtain ⟨v, hd⟩ := hd
  rw [batchPlan, m.copy_plan, hreq, hmem,
    m.plan_tile hd h.data (batchData_pos a off pfns) hlt]

end
end HmCuda
