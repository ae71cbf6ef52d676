import HmCuda.Driver.Scatter
import HmCuda.General.Gather

/-! The two copies between a buffer and a list of descriptors (vhost_user_hmcuda.c): whatever
the list is cut into, they are a scatter over its bytes and a gather from them. -/

namespace HmCuda
open Gather Function

/-! The loops -/

/-- The loop of `iov_to_buf` from `offset` on: what it returns, and the buffer behind it. -/
def iovToBufFrom (mem : ByteMem Space) (len : Nat) :
    List Iov → Nat → (Nat → UInt8) → Nat × (Nat → UInt8)
  | [], offset, buf => (offset, buf)
  | v :: vs, offset, buf =>
    if offset < len then
      let copy := if v.len < len - offset then v.len else len - offset
      iovToBufFrom mem len vs (offset + copy) fun a =>
        if offset ≤ a ∧ a < offset + copy then mem v.sp (v.base + (a - offset)) else buf a
    else (offset, buf)

/-- The loop of `buf_to_iov` from `offset` on: what it returns, and the memory behind it. -/
def bufToIovFrom (buf : Nat → UInt8) (len : Nat) :
    List Iov → Nat → ByteMem Space → Nat × ByteMem Space
  | [], offset, mem => (offset, mem)
  | v :: vs, offset, mem =>
    if offset < len then
      let copy := if v.len < len - offset then v.len else len - offset
      bufToIovFrom buf len vs (offset + copy)
        (mem.write v.sp v.base ((List.range copy).map fun i => buf (offset + i)))
    else (offset, mem)

/-! One descriptor -/

section
variable {mem : ByteMem Space} {v : Iov} {vs ws : List Iov} {buf old : Nat → UInt8}
  {len offset : Nat}

@[simp] theorem length_iovAddrs (v : Iov) : v.addrs.length = v.len := by simp [Iov.addrs]

theorem nodup_iovAddrs (v : Iov) : v.addrs.Nodup :=
  List.nodup_range.map fun i j hij => by simpa using hij

theorem mem_take_iovAddrs {p : Space × Nat} {n : Nat} (hn : n ≤ v.len) :
    p ∈ v.addrs.take n ↔ p.1 = v.sp ∧ v.base ≤ p.2 ∧ p.2 < v.base + n := by
  rw [Iov.addrs, ← List.map_take, List.take_range, min_eq_left hn, List.mem_map]
  constructor
  · rintro ⟨i, hi, rfl⟩
    have hi := List.mem_range.mp hi
    exact ⟨rfl, by omega, by omega⟩
  · rintro ⟨hsp, hle, hlt⟩
    refine ⟨p.2 - v.base, List.mem_range.mpr (by omega), Prod.ext hsp.symm ?_⟩
    dsimp only
    omega

theorem write_scatter {bs : List UInt8} (h : bs.length ≤ v.len) :
    uncurry (mem.write v.sp v.base bs) = scatter (uncurry mem) v.addrs bs := by
  funext p
  by_cases hp : p ∈ v.addrs.take bs.length
  · obtain ⟨hsp, hle, hlt⟩ := (mem_take_iovAddrs h).mp hp
    obtain ⟨i, hi⟩ : ∃ i, p.2 = v.base + i := ⟨p.2 - v.base, by omega⟩
    have hib : i < bs.length := by omega
    have hget := gather_getElem? (scatter (uncurry mem) v.addrs bs) v.addrs hib
    rw [gather_scatter _ (nodup_iovAddrs v), length_iovAddrs, List.take_of_length_le h, Iov.addrs,
      List.getElem?_map, List.getElem?_range (hib.trans_le h), Option.map_some, Option.map_some,
      List.getElem?_eq_getElem hib] at hget
    obtain rfl : p = (v.sp, v.base + i) := Prod.ext hsp hi
    refine Eq.trans ?_ (Option.some.inj hget)
    exact (mem.write_hit v.sp hib).trans (List.getD_eq_getElem _ _ hib)
  · rw [scatter_other hp]
    exact mem.write_miss fun hc => hp ((mem_take_iovAddrs h).mpr hc)

theorem read_gather {n : Nat} (h : n ≤ v.len) :
    mem.read v.sp v.base n = gather (uncurry mem) v.addrs n := by
  rw [gather, Iov.addrs, ← List.map_take, List.take_range, min_eq_left h, List.map_map]
  rfl

/-! The whole list -/

/-- The bytes of the buffer from `offset` up to `len`. -/
def bufBytes (buf : Nat → UInt8) (offset len : Nat) : List UInt8 :=
  (List.range (len - offset)).map fun i => buf (offset + i)

@[simp] theorem length_bufBytes (buf : Nat → UInt8) (offset len : Nat) :
    (bufBytes buf offset len).length = len - offset := by simp [bufBytes]

theorem bufBytes_split (buf : Nat → UInt8) {offset n len : Nat} (h : n ≤ len - offset) :
    bufBytes buf offset len =
      (List.range n).map (fun i => buf (offset + i)) ++ bufBytes buf (offset + n) len := by
  obtain ⟨k, hk⟩ : ∃ k, len - offset = n + k := ⟨len - offset - n, by omega⟩
  rw [bufBytes, bufBytes, hk, show len - (offset + n) = k by omega, List.range_add,
    List.map_append, List.map_map]
  simp only [Function.comp_def, Nat.add_assoc]

variable (buf vs mem) in
theorem bufToIovFrom_eq (h : offset ≤ len) :
    (bufToIovFrom buf len vs offset mem).1 = offset + min (len - offset) (totalLen vs) ∧
      uncurry (bufToIovFrom buf len vs offset mem).2 =
        scatter (uncurry mem) (vs.flatMap Iov.addrs) (bufBytes buf offset len) := by
  induction vs generalizing offset mem with
  | nil => exact ⟨by simp [bufToIovFrom], rfl⟩
  | cons v vs ih =>
    unfold bufToIovFrom
    by_cases hlt : offset < len
    · rw [if_pos hlt]
      dsimp only
      rw [← min_def_lt]
      generalize hn : min v.len (len - offset) = n
      have hsplit := bufBytes_split buf (show n ≤ len - offset by omega)
      have hlen : ((List.range n).map fun i => buf (offset + i)).length = n := by simp
      obtain ⟨h1, h2⟩ := ih (mem.write v.sp v.base ((List.range n).map fun i => buf (offset + i)))
        (show offset + n ≤ len by omega)
      refine ⟨?_, ?_⟩
      · rw [h1, totalLen_cons]
        omega
      · rw [h2, write_scatter (by omega), List.flatMap_cons, scatter_append, length_iovAddrs, hsplit]
        rcases Nat.lt_or_ge n v.len with hshort | hfull
        · -- the buffer ends inside this descriptor
          have hend : bufBytes buf (offset + n) len = [] :=
            List.length_eq_zero_iff.mp (by rw [length_bufBytes]; omega)
          rw [hend, List.append_nil, List.take_of_length_le (by omega),
            List.drop_of_length_le (by omega)]
        · have hv : v.len = n := by omega
          rw [hv, List.take_left' hlen, List.drop_left' hlen]
    · obtain rfl : offset = len := by omega
      rw [if_neg hlt]
      have hend : bufBytes buf offset offset = [] :=
        List.length_eq_zero_iff.mp (by rw [length_bufBytes]; omega)
      rw [hend, scatter_nil]
      exact ⟨by simp, rfl⟩

variable (vs mem old) in
theorem iovToBufFrom_eq (h : offset ≤ len) :
    (iovToBufFrom mem len vs offset old).1 = offset + min (len - offset) (totalLen vs) ∧
      ∀ a, (iovToBufFrom mem len vs offset old).2 a =
        if offset ≤ a ∧ a < offset + min (len - offset) (totalLen vs) then
          (gather (uncurry mem) (vs.flatMap Iov.addrs) (len - offset)).getD (a - offset) 0
        else old a := by
  induction vs generalizing offset old with
  | nil =>
    refine ⟨by simp [iovToBufFrom], fun a => ?_⟩
    rw [totalLen_nil, Nat.min_zero, if_neg (by omega)]
    rfl
  | cons v vs ih =>
    unfold iovToBufFrom
    by_cases hlt : offset < len
    · rw [if_pos hlt]
      dsimp only
      rw [← min_def_lt]
      generalize hn : min v.len (len - offset) = n
      obtain ⟨h1, h2⟩ := ih (fun a => if offset ≤ a ∧ a < offset + n then
        mem v.sp (v.base + (a - offset)) else old a) (show offset + n ≤ len by omega)
      have hcons := totalLen_cons v vs
      refine ⟨by omega, fun a => ?_⟩
      rw [h2, List.flatMap_cons, gather_append, length_iovAddrs]
      have hfirst : (gather (uncurry mem) v.addrs (len - offset)).length = n := by
        rw [length_gather, length_iovAddrs]
        omega
      by_cases hrest : offset + n ≤ a ∧ a < offset + n + min (len - (offset + n)) (totalLen vs)
      · have hv : v.len = n := by omega
        rw [if_pos hrest, if_pos (by omega), List.getD_append_right _ _ _ _ (by omega), hfirst, hv,
          Nat.sub_sub, Nat.sub_sub]
      · rw [if_neg hrest]
        by_cases hhead : offset ≤ a ∧ a < offset + n
        · rw [if_pos hhead, if_pos (by omega), List.getD_append _ _ _ _ (by omega),
            List.getD_eq_getElem?_getD, gather_getElem? _ _ (by omega), Iov.addrs,
            List.getElem?_map, List.getElem?_range (by omega)]
          rfl
        · rw [if_neg hhead, if_neg (by omega)]
    · obtain rfl : offset = len := by omega
      rw [if_neg hlt, Nat.sub_self, Nat.zero_min]
      refine ⟨rfl, fun a => ?_⟩
      rw [if_neg (by omega)]

/-! The copies of an element -/

theorem iovToBuf_gather (mem : ByteMem Space) (vs : List Iov) (len : Nat) :
    iovToBuf mem vs len = gather (uncurry mem) (vs.flatMap Iov.addrs) len := by
  induction vs generalizing len with
  | nil => simp [iovToBuf, gather]
  | cons v vs ih =>
    unfold iovToBuf
    by_cases h0 : len = 0
    · rw [if_pos h0, h0]
      rfl
    · rw [if_neg h0, List.flatMap_cons, gather_append, length_iovAddrs, ih,
        read_gather (min_le_right _ _)]
      rcases Nat.le_total len v.len with hle | hle
      · rw [min_eq_left hle, Nat.sub_self, Nat.sub_eq_zero_of_le hle]
      · have hwhole : gather (uncurry mem) v.addrs len = gather (uncurry mem) v.addrs v.len := by
          rw [gather, gather, List.take_of_length_le (by simpa using hle),
            List.take_of_length_le (by simp)]
        rw [min_eq_right hle, hwhole]

theorem applyWrites_scatter (mem : ByteMem Space) (vs : List Iov) (bs : List UInt8) :
    uncurry (applyWrites mem (bufToIov vs bs)) = scatter (uncurry mem) (vs.flatMap Iov.addrs) bs := by
  induction vs generalizing mem bs with
  | nil => rfl
  | cons v vs ih =>
    unfold bufToIov
    by_cases h0 : bs = []
    · rw [if_pos h0, h0, scatter_nil]
      rfl
    · rw [if_neg h0, List.flatMap_cons, scatter_append, length_iovAddrs,
        ← write_scatter (List.length_take_le _ _)]
      exact ih _ _

theorem bufToIovFrom_applyWrites (buf : Nat → UInt8) (len : Nat) (vs : List Iov)
    (mem : ByteMem Space) : (bufToIovFrom buf len vs 0 mem).2 =
      applyWrites mem (bufToIov vs (bufBytes buf 0 len)) := by
  have h := (bufToIovFrom_eq mem vs buf (Nat.zero_le len)).2
  rw [← applyWrites_scatter] at h
  exact uncurry_injective h

theorem iovToBufFrom_iovToBuf (mem : ByteMem Space) (len : Nat) (vs : List Iov)
    (old : Nat → UInt8) : (iovToBufFrom mem len vs 0 old).1 = (iovToBuf mem vs len).length ∧
      ∀ a < (iovToBuf mem vs len).length,
        (iovToBufFrom mem len vs 0 old).2 a = (iovToBuf mem vs len).getD a 0 := by
  obtain ⟨h1, h2⟩ := iovToBufFrom_eq mem vs old (Nat.zero_le len)
  rw [iovToBuf_gather, length_gather, length_addrs]
  refine ⟨by omega, fun a ha => ?_⟩
  rw [h2, if_pos (by omega), Nat.sub_zero, Nat.sub_zero]

theorem copies_cut (h : ws.flatMap Iov.addrs = vs.flatMap Iov.addrs) (buf old : Nat → UInt8)
    (len : Nat) (mem : ByteMem Space) :
    bufToIovFrom buf len ws 0 mem = bufToIovFrom buf len vs 0 mem ∧
      iovToBufFrom mem len ws 0 old = iovToBufFrom mem len vs 0 old := by
  have hlen : totalLen ws = totalLen vs := by rw [← length_addrs, h, length_addrs]
  have hout (us : List Iov) := bufToIovFrom_eq mem us buf (Nat.zero_le len)
  have hin (us : List Iov) := iovToBufFrom_eq mem us old (Nat.zero_le len)
  refine ⟨Prod.ext ?_ (uncurry_injective ?_), Prod.ext ?_ (funext fun a => ?_)⟩
  · rw [(hout ws).1, (hout vs).1, hlen]
  · rw [(hout ws).2, (hout vs).2, h]
  · rw [(hin ws).1, (hin vs).1, hlen]
  · rw [(hin ws).2, (hin vs).2, h, hlen]

/-- A buffer written to descriptors with targets of their own is read back from them, as far as
they go, and nothing else changes. How the descriptors are cut does not matter. -/
theorem bufToIov_roundTrip {vs : List Iov} (h : vs.Pairwise fun v w => v.addrs.Disjoint w.addrs)
    (buf old : Nat → UInt8) (len : Nat) (mem : ByteMem Space) :
    let n := min len (totalLen vs)
    let out := bufToIovFrom buf len vs 0 mem
    let back := iovToBufFrom out.2 len vs 0 old
    (out.1 = n ∧
      (vs.flatMap Iov.addrs).map (uncurry out.2) =
        (List.range n).map buf ++ ((vs.flatMap Iov.addrs).drop n).map (uncurry mem) ∧
      ∀ p ∉ vs.flatMap Iov.addrs, uncurry out.2 p = uncurry mem p) ∧
    (back.1 = n ∧ ∀ a, back.2 a = if a < n then buf a else old a) ∧
    ∀ ws : List Iov, ws.flatMap Iov.addrs = vs.flatMap Iov.addrs →
      bufToIovFrom buf len ws 0 mem = out ∧
        ∀ m, iovToBufFrom m len ws 0 old = iovToBufFrom m len vs 0 old := by
  intro n out back
  have hnodup : (vs.flatMap Iov.addrs).Nodup :=
    List.nodup_flatMap.mpr ⟨fun v _ => nodup_iovAddrs v, h⟩
  obtain ⟨hcount, hmem⟩ := bufToIovFrom_eq mem vs buf (Nat.zero_le len)
  obtain ⟨hback, hbuf⟩ := iovToBufFrom_eq out.2 vs old (Nat.zero_le len)
  have hlen : (bufBytes buf 0 len).length = len := length_bufBytes buf 0 len
  -- the bytes that are delivered are the first `n` of the buffer
  have hprefix : (bufBytes buf 0 len).take (totalLen vs) = (List.range n).map buf := by
    rw [bufBytes, ← List.map_take, List.take_range, Nat.sub_zero, min_comm]
    simp only [Nat.zero_add]
    rfl
  have hgather : gather (uncurry out.2) (vs.flatMap Iov.addrs) len = (List.range n).map buf := by
    rw [hmem, ← hprefix, ← length_addrs, ← gather_scatter _ hnodup, hlen]
  refine ⟨⟨hcount.trans (Nat.zero_add _), ?_, fun p hp => ?_⟩,
    ⟨hback.trans (Nat.zero_add _), fun a => ?_⟩, fun ws hws => ?_⟩
  · have hdrop : (vs.flatMap Iov.addrs).drop n = (vs.flatMap Iov.addrs).drop len := by
      rw [List.drop_eq_drop_iff, length_addrs]
      omega
    rw [hmem, map_scatter _ hnodup, length_addrs, hprefix, hlen, hdrop]
  · rw [hmem, scatter_other fun hmem => hp (List.mem_of_mem_take hmem)]
  · rw [hbuf, Nat.sub_zero, hgather, Nat.zero_add]
    by_cases ha : a < n
    · rw [if_pos ha, if_pos ⟨Nat.zero_le a, ha⟩, Nat.sub_zero, List.getD_eq_getElem?_getD,
        List.getElem?_map, List.getElem?_range ha]
      rfl
    · rw [if_neg ha, if_neg fun hc => ha hc.2]
  · exact ⟨(copies_cut hws buf old len mem).1, fun m => (copies_cut hws buf old len m).2⟩

def fiveBytes : List Iov := [⟨.ram, 16, 3⟩, ⟨.ram, 8, 0⟩, ⟨.resp 1, 0, 4⟩]

theorem bufToIov_roundTrip_five :
    let out := bufToIovFrom (fun a => a.toUInt8 + 1) 5 fiveBytes 0 fun _ _ => 0
    out.1 = 5 ∧ (iovToBufFrom out.2 5 fiveBytes 0 fun _ => 0).2 4 = 5 := by
  have hdisjoint : fiveBytes.Pairwise fun v w => v.addrs.Disjoint w.addrs := by
    simp [fiveBytes, List.Disjoint, Iov.addrs]
  have h := bufToIov_roundTrip hdisjoint (fun a => a.toUInt8 + 1) (fun _ => 0) 5 fun _ _ => 0
  exact ⟨h.1.1, h.2.1.2 4⟩

end
end HmCuda
