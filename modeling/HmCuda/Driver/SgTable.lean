import HmCuda.Driver.BatchSizes
import Mathlib.Data.List.Chain

/-! The scatter table of a batch (virtio_hmcuda_main.c): the entries that the coalescing loop
fills in, up to the one that is marked as the end. -/

namespace HmCuda
open Layout

structure SgEntry where
  page : Nat
  offset : Nat
  length : Nat
  isEnd : Bool
  deriving DecidableEq, Repr

namespace SgEntry

/-- `sg_set_page` leaves the end mark. -/
def setPage (page len offset : Nat) (x : SgEntry) : SgEntry := ⟨page, offset, len, x.isEnd⟩

/-- `sg_mark_end` -/
def markEnd (x : SgEntry) : SgEntry := { x with isEnd := true }

/-- `sg->length += n`, in 32 bits -/
def extend (n : Nat) (x : SgEntry) : SgEntry := { x with length := (x.length + n) % 2 ^ 32 }

def iov (x : SgEntry) : Iov := ⟨.ram, x.page * pageSize + x.offset, x.length⟩

end SgEntry

/-- `sg_init_table` -/
def sgInitTable (nents : Nat) : List SgEntry :=
  (List.replicate nents ⟨0, 0, 0, false⟩).modify (nents - 1) SgEntry.markEnd

def sgWalk : List SgEntry → List SgEntry
  | [] => []
  | x :: xs => if x.isEnd then [x] else x :: sgWalk xs

structure SgLoop where
  sg : List SgEntry
  nrSge : Nat
  rem : Nat

/-- The body of the coalescing loop. -/
def coalescePass (pages : List Nat) (curPageOff i : Nat) (s : SgLoop) : SgLoop :=
  let pgOff := if i = 0 then curPageOff else 0
  let pgLen := min (pageSize - pgOff) s.rem
  if 0 < s.nrSge ∧ pages.getD i 0 = pages.getD (i - 1) 0 + 1 then
    ⟨s.sg.modify (s.nrSge - 1) (.extend pgLen), s.nrSge, s.rem - pgLen⟩
  else
    ⟨s.sg.modify s.nrSge (.setPage (pages.getD i 0) pgLen pgOff), s.nrSge + 1, s.rem - pgLen⟩

/-- The coalescing loop from page `i` on; `n` is the number of pages that are left. -/
def coalesceLoop (pages : List Nat) (curPageOff : Nat) : Nat → Nat → SgLoop → SgLoop
  | 0, _, s => s
  | n + 1, i, s =>
    if 0 < s.rem then coalesceLoop pages curPageOff n (i + 1) (coalescePass pages curPageOff i s)
    else s

/-- The table of a batch and `nr_sge`; `none` is a mark before the start of the table. -/
def sgBatch (pages : List Nat) (curPageOff currentCount : Nat) : Option (List SgEntry × Nat) :=
  let s := coalesceLoop pages curPageOff pages.length 0
    ⟨sgInitTable pages.length, 0, currentCount⟩
  if s.nrSge = 0 then none else some (s.sg.modify (s.nrSge - 1) .markEnd, s.nrSge)

/-! Tables -/

theorem take_modify_succ {α : Type} {l : List α} {k : Nat} {x : α} (h : l[k]? = some x)
    (f : α → α) : (l.modify k f).take (k + 1) = l.take k ++ [f x] := by
  have htake : (l.modify k f).take k = l.take k := by
    apply List.ext_getElem?
    intro j
    rcases Nat.lt_or_ge j k with hlt | hge
    · rw [List.getElem?_take_of_lt hlt, List.getElem?_take_of_lt hlt,
        List.getElem?_modify_ne f l hlt.ne']
    · rw [List.getElem?_take_eq_none hge, List.getElem?_take_eq_none hge]
  rw [List.take_add_one, htake, List.getElem?_modify_eq, h]
  rfl

theorem sgWalk_take {sg : List SgEntry} {k : Nat} {x : SgEntry} (hx : sg[k]? = some x)
    (hend : x.isEnd = true) (hno : ∀ j < k, ∀ y, sg[j]? = some y → y.isEnd = false) :
    sgWalk sg = sg.take (k + 1) := by
  induction k generalizing sg with
  | zero =>
    rcases sg with _ | ⟨y, ys⟩
    · cases hx
    · obtain rfl := Option.some.inj hx
      rw [sgWalk, if_pos hend]
      rfl
  | succ k ih =>
    rcases sg with _ | ⟨y, ys⟩
    · cases hx
    · rw [sgWalk, if_neg (by rw [hno 0 (Nat.succ_pos k) y rfl]; decide), List.take_succ_cons]
      exact congrArg (List.cons y) (ih hx fun j hj z hz => hno (j + 1) (Nat.succ_lt_succ hj) z hz)

theorem sgInitTable_marks {n j : Nat} {x : SgEntry} (h : (sgInitTable n)[j]? = some x) :
    x.isEnd = decide (j + 1 = n) := by
  have hlt : j < n := by
    have hlen := (List.getElem?_eq_some_iff.mp h).1
    simpa [sgInitTable] using hlen
  rw [sgInitTable] at h
  rcases eq_or_ne (n - 1) j with rfl | hne
  · rw [List.getElem?_modify_eq, List.getElem?_replicate_of_lt hlt] at h
    obtain rfl := Option.some.inj h
    exact (decide_eq_true (by omega)).symm
  · rw [List.getElem?_modify_ne _ _ hne, List.getElem?_replicate_of_lt hlt] at h
    obtain rfl := Option.some.inj h
    exact (decide_eq_false (by omega)).symm

/-! The loop -/

section
variable {pages : List Nat} {off i : Nat} {acc : List Iov} {s : SgLoop}

/-- The loop's variables hold the scatter list `acc`, last entry first; no length wraps. -/
structure SgLoop.Holds (pages : List Nat) (i : Nat) (acc : List Iov) (s : SgLoop) : Prop where
  size : s.sg.length = pages.length
  count : s.nrSge = acc.length
  le : acc.length ≤ i
  entries : (s.sg.take s.nrSge).map SgEntry.iov = acc.reverse
  marks : ∀ j x, s.sg[j]? = some x → x.isEnd = decide (j + 1 = pages.length)
  small : totalLen acc + s.rem < 2 ^ 32

theorem marks_modify {sg : List SgEntry} {n k : Nat} {f : SgEntry → SgEntry}
    (hf : ∀ x, (f x).isEnd = x.isEnd) (h : ∀ j x, sg[j]? = some x → x.isEnd = decide (j + 1 = n)) :
    ∀ j x, (sg.modify k f)[j]? = some x → x.isEnd = decide (j + 1 = n) := by
  intro j x hx
  rcases eq_or_ne k j with rfl | hne
  · rw [List.getElem?_modify_eq] at hx
    obtain ⟨y, hy, rfl⟩ := Option.map_eq_some_iff.mp hx
    exact (hf y).trans (h k y hy)
  · rw [List.getElem?_modify_ne _ _ hne] at hx
    exact h j x hx

theorem SgLoop.Holds.extend {v : Iov} {vs : List Iov} {n : Nat}
    (h : s.Holds pages i (v :: vs)) (hn : n ≤ s.rem) :
    SgLoop.Holds pages (i + 1) ({ v with len := v.len + n } :: vs)
      ⟨s.sg.modify (s.nrSge - 1) (.extend n), s.nrSge, s.rem - n⟩ := by
  have hcount := h.count
  have hle := h.le
  have hsmall := h.small
  rw [List.length_cons] at hcount hle
  rw [totalLen_cons] at hsmall
  have hentries := h.entries
  have hk : s.nrSge - 1 = vs.length := by omega
  rw [List.reverse_cons, hcount, List.take_add_one, List.map_append] at hentries
  have hlast : s.sg[vs.length]? ≠ none := by
    intro hnone
    have hlen := congrArg List.length hentries
    simp [hnone] at hlen
    omega
  obtain ⟨x, hx⟩ := Option.ne_none_iff_exists'.mp hlast
  rw [hx] at hentries
  obtain ⟨hfirst, hv⟩ := List.append_inj' hentries rfl
  obtain rfl : x.iov = v := (List.cons.inj hv).1
  refine ⟨by simpa using h.size, hcount, by rw [List.length_cons]; omega, ?_,
    marks_modify (fun _ => rfl) h.marks, by rw [totalLen_cons]; dsimp only; omega⟩
  dsimp only
  rw [hk, hcount, take_modify_succ hx, List.map_append, hfirst, List.reverse_cons]
  have hlen : (x.length + n) % 2 ^ 32 = x.length + n :=
    Nat.mod_eq_of_lt (by simp only [SgEntry.iov] at hsmall; omega)
  simp only [List.map_cons, List.map_nil, SgEntry.extend, SgEntry.iov, hlen]

theorem SgLoop.Holds.push {n page pgOff : Nat} (h : s.Holds pages i acc) (hi : i < pages.length)
    (hn : n ≤ s.rem) : SgLoop.Holds pages (i + 1) (⟨.ram, page * pageSize + pgOff, n⟩ :: acc)
      ⟨s.sg.modify s.nrSge (.setPage page n pgOff), s.nrSge + 1, s.rem - n⟩ := by
  have hle := h.le
  have hcount := h.count
  have hsmall := h.small
  have hlt : s.nrSge < s.sg.length := by rw [h.size]; omega
  have hx := List.getElem?_eq_getElem hlt
  refine ⟨by simpa using h.size, by simp [hcount], by rw [List.length_cons]; omega, ?_,
    marks_modify (fun _ => rfl) h.marks, by rw [totalLen_cons]; dsimp only; omega⟩
  dsimp only
  rw [take_modify_succ hx, List.map_append, h.entries, List.reverse_cons]
  rfl

theorem SgLoop.Holds.whole (h : s.Holds pages i acc) (hi : i ≤ pages.length) :
    s.Holds pages pages.length acc :=
  ⟨h.size, h.count, h.le.trans hi, h.entries, h.marks, h.small⟩

/-- The loop fills in what `coalesceFrom` computes. -/
theorem coalesceLoop_holds (off prev : Nat) {n : Nat} (h : s.Holds pages i acc) (hn : i + n = pages.length)
    (hprev : acc ≠ [] → prev = pages.getD (i - 1) 0) :
    (coalesceLoop pages off n i s).Holds pages pages.length
      (coalesceFrom prev (if i = 0 then off else 0) s.rem acc (pages.drop i)) := by
  induction n generalizing i acc s prev with
  | zero =>
    rw [List.drop_of_length_le (by omega)]
    exact h.whole (by omega)
  | succ n ih =>
    have hi : i < pages.length := by omega
    have hget : pages.getD i 0 = pages[i] := List.getD_eq_getElem _ _ hi
    unfold coalesceLoop
    by_cases hrem : s.rem = 0
    · rw [if_neg (show ¬0 < s.rem by omega), hrem, List.drop_eq_getElem_cons hi, coalesceFrom, if_pos rfl]
      exact h.whole hi.le
    rw [if_pos (Nat.pos_of_ne_zero hrem), List.drop_eq_getElem_cons hi, coalesceFrom, if_neg hrem]
    unfold coalescePass
    dsimp only
    generalize (if i = 0 then off else 0) = pgOff
    generalize hlen : min (pageSize - pgOff) s.rem = len
    have hle : len ≤ s.rem := by omega
    have hnext {acc' : List Iov} : acc' ≠ [] → pages[i] = pages.getD (i + 1 - 1) 0 :=
      fun _ => hget.symm
    have hcount := h.count
    rcases acc with _ | ⟨v, vs⟩
    · rw [if_neg (by rw [hcount]; simp), hget]
      exact ih _ (h.push hi hle) (by omega) hnext
    · rw [List.length_cons] at hcount
      rw [hprev (List.cons_ne_nil v vs)]
      by_cases hadj : pages[i] = pages.getD (i - 1) 0 + 1
      · rw [hget, if_pos ⟨by omega, hadj⟩]
        dsimp only
        rw [if_pos hadj]
        exact ih _ (h.extend hle) (by omega) hnext
      · rw [hget, if_neg fun hc => hadj hc.2]
        dsimp only
        rw [if_neg hadj]
        exact ih _ (h.push hi hle) (by omega) hnext

end

/-! The entries -/

section
variable {prev pgOff rem : Nat} {acc : List Iov} {pfns : List Nat}

def Iov.Contiguous (v w : Iov) : Prop := v.base + v.len = w.base

theorem page_filled (pfn : Nat) {n : Nat} (ho : pgOff < pageSize) (hn : min (pageSize - pgOff) rem = n)
    (h0 : rem - n ≠ 0) : pfn * pageSize + pgOff + n = (pfn + 1) * pageSize := by
  rw [Nat.add_mul, Nat.one_mul]
  omega

theorem coalesceFrom_apart (ho : pgOff < pageSize)
    (hacc : ∀ v vs, acc = v :: vs → rem ≠ 0 → v.base + v.len = (prev + 1) * pageSize ∧ pgOff = 0)
    (hchain : acc.IsChain fun w v => ¬v.Contiguous w) :
    (coalesceFrom prev pgOff rem acc pfns).IsChain fun w v => ¬v.Contiguous w := by
  induction pfns generalizing prev pgOff rem acc with
  | nil => exact hchain
  | cons pfn pfns ih =>
    have hpos : 0 < pageSize := by decide
    unfold coalesceFrom
    by_cases h0 : rem = 0
    · rw [if_pos h0]
      exact hchain
    rw [if_neg h0]
    generalize hn : min (pageSize - pgOff) rem = n
    rcases acc with _ | ⟨v, vs⟩
    · refine ih hpos (fun w ws hw hrem => ?_) (List.IsChain.singleton _)
      obtain ⟨rfl, -⟩ := List.cons.inj hw
      exact ⟨page_filled _ ho hn hrem, rfl⟩
    · obtain ⟨hv, rfl⟩ := hacc v vs rfl h0
      dsimp only
      by_cases hadj : pfn = prev + 1
      · rw [if_pos hadj]
        refine ih hpos (fun w ws hw hrem => ?_) ?_
        · obtain ⟨rfl, -⟩ := List.cons.inj hw
          have hfill := page_filled pfn ho hn hrem
          refine ⟨?_, rfl⟩
          dsimp only
          rw [← hfill, hadj, ← hv]
          omega
        · -- the longer entry starts where it did
          rcases vs with _ | ⟨u, us⟩
          · exact List.IsChain.singleton _
          · obtain ⟨hu, hus⟩ := List.isChain_cons_cons.mp hchain
            exact List.isChain_cons_cons.mpr ⟨hu, hus⟩
      · rw [if_neg hadj]
        refine ih hpos (fun w ws hw hrem => ?_) (List.isChain_cons_cons.mpr ⟨fun heq => ?_, hchain⟩)
        · obtain ⟨rfl, -⟩ := List.cons.inj hw
          exact ⟨page_filled _ ho hn hrem, rfl⟩
        · have heq : v.base + v.len = pfn * pageSize + 0 := heq
          have hsame : (prev + 1) * pageSize = pfn * pageSize := by rw [← hv, heq, Nat.add_zero]
          exact hadj (Nat.eq_of_mul_eq_mul_right hpos hsame).symm

end

theorem sgBatch_coalesce (off : Nat) {pages : List Nat} {count : Nat} (hpos : 0 < count)
    (hpages : pages ≠ []) (hsmall : count < 2 ^ 32) :
    ∃ sg nrSge, sgBatch pages off count = some (sg, nrSge) ∧ 1 ≤ nrSge ∧ nrSge ≤ pages.length ∧
      sgWalk sg = sg.take nrSge ∧ (∃ x, sg[nrSge - 1]? = some x ∧ x.isEnd = true) ∧
      (sgWalk sg).length = nrSge ∧ (sgWalk sg).map SgEntry.iov = coalesce off count pages := by
  have hstart : SgLoop.Holds pages 0 [] ⟨sgInitTable pages.length, 0, count⟩ :=
    ⟨by simp [sgInitTable], rfl, le_rfl, rfl, fun j x => sgInitTable_marks, by simpa using hsmall⟩
  have hloop := coalesceLoop_holds off 0 hstart (Nat.zero_add _)
    fun h => absurd rfl h
  rw [if_pos rfl, List.drop_zero] at hloop
  dsimp only at hloop
  have hlist : (coalesceFrom 0 off count [] pages).reverse = coalesce off count pages := rfl
  have hne : coalesce off count pages ≠ [] := coalesce_ne_nil hpos hpages
  generalize coalesceFrom 0 off count [] pages = acc at hloop hlist
  generalize hs : coalesceLoop pages off pages.length 0 ⟨sgInitTable pages.length, 0, count⟩ = s
    at hloop
  have hcount := hloop.count
  have hle := hloop.le
  have hacc : 0 < acc.length := by
    rw [← List.length_reverse, hlist]
    exact List.length_pos_iff.mpr hne
  obtain ⟨k, hk⟩ : ∃ k, s.nrSge = k + 1 := ⟨s.nrSge - 1, by omega⟩
  have hlt : k < s.sg.length := by
    rw [hloop.size]
    omega
  have hx := List.getElem?_eq_getElem hlt
  have hlast : (s.sg.modify k .markEnd)[k]? = some s.sg[k].markEnd := by
    rw [List.getElem?_modify_eq, hx]
    rfl
  have hwalk : sgWalk (s.sg.modify k .markEnd) = (s.sg.modify k .markEnd).take (k + 1) := by
    refine sgWalk_take hlast rfl fun j hj y hy => ?_
    rw [List.getElem?_modify_ne _ _ hj.ne'] at hy
    rw [hloop.marks j y hy]
    exact decide_eq_false (by omega)
  refine ⟨s.sg.modify k .markEnd, k + 1, ?_, by omega, by omega, hwalk, ⟨_, hlast, rfl⟩, ?_, ?_⟩
  · rw [sgBatch, hs, hk]
    rfl
  · rw [hwalk, List.length_take, List.length_modify, hloop.size]
    omega
  · rw [hwalk, ← hlist, ← hloop.entries, hk, take_modify_succ hx, List.take_add_one, hx,
      List.map_append, List.map_append]
    rfl

theorem Ready.walk {e : DrvEnv} {a : MemcpyArgs} {off : Nat} {pfns : List Nat}
    (h : Ready e a off pfns) : ∃ sg nrSge,
      sgBatch pfns (batchAt a off).pageOff (batchAt a off).count = some (sg, nrSge) ∧
        (sgWalk sg).map SgEntry.iov = batchData a off pfns := by
  have hpages : pfns ≠ [] := by
    rintro rfl
    exact h.data rfl
  have hsmall : (batchAt a off).count < 2 ^ 32 := h.count_le.trans_lt (by decide)
  obtain ⟨sg, nrSge, hrun, -, -, -, -, -, hiovs⟩ := sgBatch_coalesce _ h.count_pos hpages hsmall
  exact ⟨sg, nrSge, hrun, hiovs⟩

/-- The walk through the table of a batch ends at the entry `nr_sge - 1`, of at most one entry
for each page. Its ranges are the bytes of the batch in order, none of them contiguous with the
next one. -/
theorem sgBatch_coalesced {pages : List Nat} {off count : Nat} (ho : off < pageSize)
    (hpos : 0 < count) (hfit : off + count ≤ pages.length * pageSize)
    (hmax : pages.length ≤ pagesPerBatch) :
    ∃ sg nrSge, sgBatch pages off count = some (sg, nrSge) ∧ 1 ≤ nrSge ∧ nrSge ≤ pages.length ∧
      sgWalk sg = sg.take nrSge ∧ (∃ x, sg[nrSge - 1]? = some x ∧ x.isEnd = true) ∧
      (sgWalk sg).length = nrSge ∧
      let vs := (sgWalk sg).map SgEntry.iov
      vs.flatMap Iov.addrs = pageAddrs off count pages ∧ totalLen vs = count ∧
        vs.IsChain fun v w => ¬v.Contiguous w := by
  have hpages : pages ≠ [] := by
    rintro rfl
    simp at hfit
    omega
  have hsmall : count < 2 ^ 32 := by
    simp only [pagesPerBatch, pageSize] at hmax hfit
    omega
  obtain ⟨sg, nrSge, hrun, hone, hle, hwalk, hend, hlen, hiovs⟩ :=
    sgBatch_coalesce off hpos hpages hsmall
  refine ⟨sg, nrSge, hrun, hone, hle, hwalk, hend, hlen, ?_⟩
  have haddrs := coalesce_addrs ho hfit
  rw [hiovs]
  refine ⟨haddrs, ?_, ?_⟩
  · rw [← length_addrs, haddrs]
    simp [pageAddrs]
  · exact List.isChain_reverse.mpr (coalesceFrom_apart ho (by simp) List.isChain_nil)

/-- Two pages that follow each other, and one page twice. -/
theorem sgBatch_coalesced_four : ∃ sg nrSge, sgBatch [5, 6, 9, 9] 100 16000 = some (sg, nrSge) ∧
    ((sgWalk sg).map SgEntry.iov).flatMap Iov.addrs = pageAddrs 100 16000 [5, 6, 9, 9] := by
  obtain ⟨sg, nrSge, hrun, -, -, -, -, -, haddrs, -⟩ :=
    @sgBatch_coalesced [5, 6, 9, 9] 100 16000 (by decide) (by decide) (by decide) (by decide)
  exact ⟨sg, nrSge, hrun, haddrs⟩

end HmCuda
