import HmCuda.General.Ranges
import HmCuda.Host.CoreDriver
import Mathlib.Data.List.Find

/-! The device memory list of a session as a set of ranges. Both APIs allocate into
one list, newest first; it resolves exactly the addresses of the live ranges. -/

namespace HmCuda
open Ranges

structure Span where
  base : Nat
  size : Nat
  deriving DecidableEq, Repr

namespace Span

abbrev has (r : Span) (a : Nat) : Prop := Inside base size r a

def entry (r : Span) : Resource := ⟨r.base, r.base, r.size⟩

end Span

inductive MemCall where
  | cudaMalloc (size : Nat)
  | cudaFree (devPtr : Nat)
  | cuMemAlloc (bytesize : Nat)
  | cuMemFree (handle : Nat)
  | cuMemAddressReserve (size alignment addr flags : Nat)
  | cuMemAddressFree (va size : Nat)

namespace MemCall

def exec (k : Key) : MemCall → CoreM (Nat × Option Nat)
  | cudaMalloc n => coreMalloc k n
  | cudaFree p => do return (← coreFree k p, none)
  | cuMemAlloc n => coreCuMemAlloc k n
  | cuMemFree p => do return (← coreCuMemFree k p, none)
  | cuMemAddressReserve n al addr fl => coreCuMemAddressReserve k n al addr fl
  | cuMemAddressFree p n => do return (← coreCuMemAddressFree k p n, none)

def asked : MemCall → Option (LibCall × Nat)
  | cudaMalloc n => some (⟨.cudaMalloc, [n], []⟩, n)
  | cuMemAlloc n => some (⟨.cuMemAlloc, [n], []⟩, n)
  | cuMemAddressReserve n al addr fl => some (⟨.cuMemAddressReserve, [n, al, addr, fl], []⟩, n)
  | cudaFree _ | cuMemFree _ | cuMemAddressFree _ _ => none

def freed : MemCall → Option (LibCall × Nat)
  | cudaFree p => some (⟨.cudaFree, [p], []⟩, p)
  | cuMemFree p => some (⟨.cuMemFree, [p], []⟩, p)
  | cuMemAddressFree p n => some (⟨.cuMemAddressFree, [p, n], []⟩, p)
  | cudaMalloc _ | cuMemAlloc _ | cuMemAddressReserve _ _ _ _ => none

/-- The ranges allocated and not freed at their base, after the call. One that CUDA does not
free stays. -/
def liveAfter (c : MemCall) (e : Env) (s : Machine) (live : List Span) : List Span :=
  match c.asked, c.freed with
  | some (call, n), _ =>
    if (e.ret s.dev.clock call).code = 0 ∧ 0 < n
      then ⟨(e.ret s.dev.clock call).out 0, n⟩ :: live else live
  | none, some (call, p) =>
    if (e.ret s.dev.clock call).code = 0 then live.filter (·.base ≠ p) else live
  | none, none => live

def Sound (c : MemCall) (e : Env) (s : Machine) (live : List Span) : Prop :=
  ∀ call n, c.asked = some (call, n) → (e.ret s.dev.clock call).code = 0 →
    (c = cudaMalloc 0 ∧ (e.ret s.dev.clock call).out 0 = 0) ∨
    (0 < n ∧ (e.ret s.dev.clock call).out 0 ≠ 0 ∧ (e.ret s.dev.clock call).out 0 + n < 2 ^ 64 ∧
      ∀ r ∈ live, ∀ a, Span.has ⟨(e.ret s.dev.clock call).out 0, n⟩ a → ¬r.has a)

/-- CUDA frees a live range that the call names by its base. -/
def Accepted (e : Env) (c : MemCall) (s : Machine) (live : List Span) : Prop :=
  ∀ call p, c.freed = some (call, p) → (∃ r ∈ live, r.base = p) →
    (e.ret s.dev.clock call).code = 0

end MemCall

/-- `hmcuda_res_get` on the device memory of the session. -/
def memGet (k : Key) (s : Machine) (a : Nat) : Nat :=
  ((s.tab.ctxGet k).map (·.resGet .mem a)).getD 0

/-- A run on one session of calls that meet `C`: the backend and the live ranges. -/
inductive MemRun (C : MemCall → Machine → List Span → Prop) (k : Key) (e : Env) :
    Machine → List Span → Prop where
  | start {s : Machine} {c : Context} (hc : s.tab.ctxGet k = some c)
      (hm : c.resources .mem = []) : MemRun C k e s []
  | call {s : Machine} {live : List Span} (h : MemRun C k e s live) (c : MemCall)
      (hs : c.Sound e s live) (hC : C c s live) :
      MemRun C k e ((c.exec k).run e s).2 (c.liveAfter e s live)
  | idle {s : Machine} {live : List Span} (h : MemRun C k e s live) (d : Device) :
      MemRun C k e { s with dev := d } live

/-- The list holds the live ranges, and besides them only empty entries at NULL. -/
structure MemList (l : List Resource) (live : List Span) : Prop where
  entries : l.filter (0 < ·.size) = live.map Span.entry
  empty : ∀ r ∈ l, r.size = 0 → r.handle = 0
  apart : Apart Span.base Span.size live
  bounds : ∀ r ∈ live, 0 < r.size ∧ r.base ≠ 0 ∧ r.base + r.size < 2 ^ 64

namespace MemList
variable {l : List Resource} {live : List Span} {a p : Nat}

theorem covers_size {r : Resource} (h : r.covers .mem a = true) : 0 < r.size := by
  by_contra h0
  have hsz : r.size = 0 := by omega
  have hle : add64 r.handle 0 ≤ r.handle := Nat.mod_le _ _
  simp only [Resource.covers, ResType.ranged, hsz] at h
  simp at h
  omega

theorem covers_entry {r : Span} (h : r.base + r.size < 2 ^ 64) :
    r.entry.covers .mem a = decide (r.has a) := by
  simp [Resource.covers, ResType.ranged, Span.entry, add64_of_lt h, Inside]

theorem find?_eq (h : MemList l live) :
    l.find? (Resource.covers .mem a) = (live.find? fun r => decide (r.has a)).map Span.entry := by
  have hskip : l.find? (Resource.covers .mem a) =
      (l.filter (0 < ·.size)).find? (Resource.covers .mem a) := by
    rw [List.find?_filter]
    congr 1
    funext r
    by_cases hr : r.covers .mem a = true
    · simp [hr, covers_size hr]
    · simp [hr]
  rw [hskip, h.entries, List.find?_map]
  congr 1
  apply List.find?_congr
  intro r hr
  exact covers_entry (h.bounds r hr).2.2

theorem resGet_of_has {c : Context} (h : MemList (c.resources .mem) live) {r : Span}
    (hr : r ∈ live) (ha : r.has a) : c.resGet .mem a = a := by
  have hb := h.bounds r hr
  rw [c.resGet_eq, Context.resFind, h.find?_eq, h.apart.find?_eq hr ha]
  have hsum : r.base + (a - r.base) = a := Nat.add_sub_cancel' ha.1
  have hlt : r.base + (a - r.base) < 2 ^ 64 := by
    rw [hsum]
    exact Nat.lt_trans ha.2 hb.2.2
  show add64 r.base (a - r.base) = a
  rw [add64_of_lt hlt, hsum]

theorem resGet_of_not {c : Context} (h : MemList (c.resources .mem) live)
    (ha : ¬∃ r ∈ live, r.has a) : c.resGet .mem a = 0 := by
  have hnone : (live.find? fun r => decide (r.has a)) = none := by
    rw [List.find?_eq_none]
    intro r hr
    simpa using fun hh => ha ⟨r, hr, hh⟩
  rw [c.resGet_eq, Context.resFind, h.find?_eq, hnone]
  rfl

theorem resGet_ne {c : Context} (h : MemList (c.resources .mem) live) :
    c.resGet .mem a ≠ 0 ↔ ∃ r ∈ live, r.has a := by
  constructor
  · intro hne
    by_contra ha
    exact hne (h.resGet_of_not ha)
  · rintro ⟨r, hr, ha⟩
    rw [h.resGet_of_has hr ha]
    have hb := (h.bounds r hr).2.1
    have hlo := ha.1
    omega

theorem nil : MemList [] [] := ⟨rfl, by simp, List.Pairwise.nil, by simp⟩

theorem consEmpty (h : MemList l live) : MemList (⟨0, 0, 0⟩ :: l) live where
  entries := by
    rw [List.filter_cons_of_neg (by simp), h.entries]
  empty := by
    intro r hr h0
    rcases List.mem_cons.mp hr with rfl | hr
    · rfl
    · exact h.empty r hr h0
  apart := h.apart
  bounds := h.bounds

theorem cons {r : Span} (h : MemList l live) (h0 : 0 < r.size) (hb : r.base ≠ 0)
    (hlt : r.base + r.size < 2 ^ 64) (hd : ∀ q ∈ live, ∀ a, r.has a → ¬q.has a) :
    MemList (r.entry :: l) (r :: live) where
  entries := by
    rw [List.filter_cons_of_pos (by exact decide_eq_true h0), h.entries]
    rfl
  empty := by
    intro q hq hz
    rcases List.mem_cons.mp hq with rfl | hq
    · exact absurd hz (Nat.pos_iff_ne_zero.mp h0)
    · exact h.empty q hq hz
  apart := List.Pairwise.cons hd h.apart
  bounds := by
    intro q hq
    rcases List.mem_cons.mp hq with rfl | hq
    · exact ⟨h0, hb, hlt⟩
    · exact h.bounds q hq

theorem erase (h : MemList l live) (hp : p ≠ 0) :
    MemList (l.eraseP (·.handle = p)) (live.filter (·.base ≠ p)) where
  entries := by
    have hnd : (live.map Span.base).Nodup := h.apart.nodup fun r hr => (h.bounds r hr).1
    have hcond : l.eraseP (·.handle = p) = l.eraseP (fun r => r.handle = p && 0 < r.size) := by
      refine eraseP_congr fun r hr => ?_
      by_cases hh : r.handle = p
      · have hsz : r.size ≠ 0 := fun h0 => hp (hh.symm.trans (h.empty r hr h0))
        simp [hh, Nat.pos_of_ne_zero hsz]
      · simp [hh]
    rw [hcond, ← List.eraseP_filter, h.entries, List.eraseP_map, ← eraseP_eq_filter hnd]
    rfl
  empty := fun r hr => h.empty r (List.mem_of_mem_eraseP hr)
  apart := List.Pairwise.filter _ h.apart
  bounds := fun r hr => h.bounds r (List.mem_of_mem_filter hr)

/-- Freeing at `p` leaves the resolution of every address outside a range based there. -/
theorem resGet_erase {c : Context} (h : MemList (c.resources .mem) live) (hp : p ≠ 0)
    (ha : ∀ r ∈ live, r.base = p → ¬r.has a) : (c.resRemove .mem p).resGet .mem a = c.resGet .mem a := by
  have herase : MemList ((c.resRemove .mem p).resources .mem) (live.filter (·.base ≠ p)) := by
    rw [c.resRemove_resources, if_pos rfl]
    exact h.erase hp
  by_cases hin : ∃ r ∈ live, r.has a
  · obtain ⟨r, hr, hra⟩ := hin
    have hbase : r.base ≠ p := fun hb => ha r hr hb hra
    rw [h.resGet_of_has hr hra,
      herase.resGet_of_has (List.mem_filter.mpr ⟨hr, by simpa using hbase⟩) hra]
  · rw [h.resGet_of_not hin]
    apply herase.resGet_of_not
    rintro ⟨r, hr, hra⟩
    exact hin ⟨r, List.mem_of_mem_filter hr, hra⟩

end MemList

section Exec
variable {k : Key} {e : Env} {s : Machine} {c : Context} {live : List Span}

theorem alloc_tab (hc : s.tab.ctxGet k = some c) {x : MemCall} {call : LibCall} {n : Nat}
    (hx : x.asked = some (call, n)) : ((x.exec k).run e s).2.tab =
      if (e.ret s.dev.clock call).code = 0 then
        s.tab.resAddWithHandle k .mem ((e.ret s.dev.clock call).out 0) n
          ((e.ret s.dev.clock call).out 0)
      else s.tab := by
  cases x <;> simp only [MemCall.asked, Option.some.injEq, Prod.mk.injEq, reduceCtorEq] at hx
  all_goals
    obtain ⟨rfl, rfl⟩ := hx
    simp only [MemCall.exec, coreMalloc, coreCuMemAlloc, coreCuMemAddressReserve, withCtxM, hc]
    simp only [Prog.bind_run, Prog.ite_run, Prog.pure_run, query_fst, lib_run]
    split <;> rfl

theorem free_tab (hc : s.tab.ctxGet k = some c) {x : MemCall} {call : LibCall} {p : Nat}
    (hx : x.freed = some (call, p)) : ((x.exec k).run e s).2.tab =
      if c.resGet .mem p = 0 then s.tab else s.tab.resRemove k .mem p := by
  by_cases h0 : c.resGet .mem p = 0
  · cases x <;> simp only [MemCall.freed, Option.some.injEq, Prod.mk.injEq, reduceCtorEq] at hx
    all_goals
      obtain ⟨-, rfl⟩ := hx
      simp only [MemCall.exec, coreFree, coreCuMemFree, coreCuMemAddressFree, withCtxM, hc,
        Prog.bind_run, Prog.pure_run, h0, ne_eq, not_true, if_true, if_false]
  · cases x <;> simp only [MemCall.freed, Option.some.injEq, Prod.mk.injEq, reduceCtorEq] at hx
    all_goals
      obtain ⟨-, rfl⟩ := hx
      simp only [MemCall.exec, coreFree, coreCuMemFree, coreCuMemAddressFree, withCtxM, hc,
        Prog.bind_run, h0, ne_eq, not_false_eq_true, if_true, if_false]
      rfl

def Refines (k : Key) (s : Machine) (live : List Span) : Prop :=
  ∃ c, s.tab.ctxGet k = some c ∧ MemList (c.resources .mem) live

theorem memGet_eq (hc : s.tab.ctxGet k = some c) (a : Nat) : memGet k s a = c.resGet .mem a := by
  rw [memGet, hc]
  rfl

theorem refines_alloc (h : Refines k s live) {x : MemCall} {call : LibCall} {n : Nat}
    (hx : x.asked = some (call, n)) (hs : x.Sound e s live) :
    Refines k ((x.exec k).run e s).2 (x.liveAfter e s live) := by
  obtain ⟨c, hc, hl⟩ := h
  have htab := alloc_tab (e := e) hc hx
  have hlive : x.liveAfter e s live = if (e.ret s.dev.clock call).code = 0 ∧ 0 < n
      then ⟨(e.ret s.dev.clock call).out 0, n⟩ :: live else live := by
    rw [MemCall.liveAfter, hx]
  by_cases h0 : (e.ret s.dev.clock call).code = 0
  · rw [if_pos h0] at htab
    have hget := Tables.ctxGet_resAddWithHandle hc .mem
    refine ⟨_, (congrArg (Tables.ctxGet · k) htab).trans (hget _ _ _), ?_⟩
    rw [Context.push_resources, if_pos rfl]
    rcases hs call n hx h0 with ⟨rfl, hout⟩ | ⟨hn, hb, hlt, hd⟩
    · -- the empty allocation: an entry at NULL
      simp only [MemCall.asked, Option.some.injEq, Prod.mk.injEq] at hx
      rw [hlive, ← hx.2, if_neg (by simp), hout]
      exact hl.consEmpty
    · rw [hlive, if_pos ⟨h0, hn⟩]
      exact hl.cons hn hb hlt hd
  · rw [if_neg h0] at htab
    rw [hlive, if_neg fun hh => h0 hh.1]
    exact ⟨c, (congrArg (Tables.ctxGet · k) htab).trans hc, hl⟩

theorem refines_free (h : Refines k s live) {x : MemCall} {call : LibCall} {p : Nat}
    (hx : x.freed = some (call, p)) :
    Refines k ((x.exec k).run e s).2 (live.filter (·.base ≠ p)) := by
  obtain ⟨c, hc, hl⟩ := h
  have htab := free_tab (e := e) hc hx
  by_cases h0 : c.resGet .mem p = 0
  · -- nothing is found, and no live range starts there
    rw [if_pos h0] at htab
    have hnot : ¬∃ r ∈ live, r.has p := fun hh => hl.resGet_ne.mpr hh h0
    have hall : live.filter (·.base ≠ p) = live := by
      refine List.filter_eq_self.mpr fun r hr => ?_
      have hne : r.base ≠ p := by
        rintro rfl
        exact hnot ⟨r, hr, Nat.le_refl _, Nat.lt_add_of_pos_right (hl.bounds r hr).1⟩
      simpa using hne
    rw [hall]
    exact ⟨c, (congrArg (Tables.ctxGet · k) htab).trans hc, hl⟩
  · rw [if_neg h0] at htab
    have hp : p ≠ 0 := by
      rintro rfl
      obtain ⟨r, hr, hin⟩ := hl.resGet_ne.mp h0
      have hb := (hl.bounds r hr).2.1
      have hlo := hin.1
      omega
    refine ⟨_, (congrArg (Tables.ctxGet · k) htab).trans (Tables.ctxGet_resRemove hc _ _), ?_⟩
    rw [c.resRemove_resources, if_pos rfl]
    exact hl.erase hp

/-- Freeing at `p` leaves every address alone that no live range based at `p` holds. -/
theorem memGet_free (h : Refines k s live) {x : MemCall} {call : LibCall} {p a : Nat}
    (hx : x.freed = some (call, p)) (ha : ∀ r ∈ live, r.base = p → ¬r.has a) :
    memGet k ((x.exec k).run e s).2 a = memGet k s a := by
  obtain ⟨c, hc, hl⟩ := h
  have htab := free_tab (e := e) hc hx
  by_cases h0 : c.resGet .mem p = 0
  · rw [if_pos h0] at htab
    rw [memGet, htab, memGet]
  · rw [if_neg h0] at htab
    have hp : p ≠ 0 := by
      rintro rfl
      obtain ⟨r, hr, hin⟩ := hl.resGet_ne.mp h0
      have hb := (hl.bounds r hr).2.1
      have hlo := hin.1
      omega
    rw [memGet_eq hc, memGet, htab, Tables.ctxGet_resRemove hc .mem p]
    exact hl.resGet_erase hp ha

theorem MemRun.refines (h : MemRun (MemCall.Accepted e) k e s live) : Refines k s live := by
  induction h with
  | start hc hm => exact ⟨_, hc, by rw [hm]; exact MemList.nil⟩
  | @call s live _ x hs hC ih =>
    rcases hx : x.asked with _ | ⟨call, n⟩
    · rcases hf : x.freed with _ | ⟨call, p⟩
      · cases x <;> simp only [MemCall.asked, MemCall.freed, reduceCtorEq] at hx hf
      · have hlive : x.liveAfter e s live = live.filter (·.base ≠ p) := by
          rw [MemCall.liveAfter, hx, hf]
          dsimp only
          split
          · rfl
          next hr =>
            -- CUDA refuses: no live range starts there
            refine (List.filter_eq_self.mpr fun r hr' => ?_).symm
            have hne : r.base ≠ p := fun hb => hr (hC call p hf ⟨r, hr', hb⟩)
            simpa using hne
        rw [hlive]
        exact refines_free ih hf
    · exact refines_alloc ih hx hs
  | idle _ d ih => exact ih

/-- The device memory list refines the set of live ranges, as long as CUDA frees what it is
asked to free. -/
theorem memGet_refines (h : MemRun (MemCall.Accepted e) k e s live) :
    (∀ a, memGet k s a ≠ 0 ↔ ∃ r ∈ live, r.has a) ∧
    (∀ a, memGet k s a ≠ 0 → memGet k s a = a) ∧
    (∀ (x : MemCall) (call : LibCall) (p : Nat), x.freed = some (call, p) →
      (∀ a, (∀ r ∈ live, r.base = p → ¬r.has a) →
        memGet k ((x.exec k).run e s).2 a = memGet k s a) ∧
      ((∀ r ∈ live, r.base ≠ p) →
        ∀ a, memGet k ((x.exec k).run e s).2 a = memGet k s a)) := by
  have href := h.refines
  obtain ⟨c, hc, hl⟩ := href
  refine ⟨fun a => ?_, fun a => ?_, fun x call p hx => ⟨fun a => memGet_free h.refines hx, ?_⟩⟩
  · rw [memGet_eq hc]
    exact hl.resGet_ne
  · rw [memGet_eq hc]
    intro hne
    obtain ⟨r, hr, ha⟩ := hl.resGet_ne.mp hne
    exact hl.resGet_of_has hr ha
  · intro hnone a
    exact memGet_free h.refines hx fun r hr hb => absurd hb (hnone r hr)

end Exec

def pageEnv : Env :=
  { Env.quiet with ret := fun n c => if c.args = [64] then ⟨0, [4096 * (n + 1)], none⟩ else .ok }

def oneContext : Machine :=
  { Machine.start (fun _ _ => 0) with tab := Tables.start.ctxCreate ⟨1, 1⟩ }

section
variable {C : MemCall → Machine → List Span → Prop} {e : Env} {s : Machine} {live : List Span}

theorem sound_page {b : Nat} (hret : e.ret s.dev.clock ⟨.cuMemAlloc, [64], []⟩ = ⟨0, [b], none⟩)
    (hb : 0 < b ∧ b < 2 ^ 32) (hd : ∀ r ∈ live, r.base + r.size ≤ b) :
    (MemCall.cuMemAlloc 64).Sound e s live := by
  intro call n h _
  simp only [MemCall.asked, Option.some.injEq, Prod.mk.injEq] at h
  obtain ⟨rfl, rfl⟩ := h
  have hout : (e.ret s.dev.clock ⟨.cuMemAlloc, [64], []⟩).out 0 = b := by rw [hret]; rfl
  rw [hout]
  refine .inr ⟨by decide, by omega, by omega, fun r hr a hin ha => ?_⟩
  have hle := hd r hr
  have hlo : b ≤ a := hin.1
  have hhi : a < r.base + r.size := ha.2
  omega

theorem sound_free {x : MemCall} (hx : x.asked = none) : x.Sound e s live := fun call n h =>
  absurd (h.symm.trans hx) (by simp)

end

def pageState (cs : List MemCall) : Machine :=
  cs.foldl (fun s c => ((c.exec ⟨1, 1⟩).run pageEnv s).2) oneContext

/-- An empty allocation, two of 64 bytes, and the first of them freed. -/
def pageCalls : List MemCall := [.cudaMalloc 0, .cuMemAlloc 64, .cuMemAlloc 64, .cuMemFree 8192]

theorem pageEnv_run : MemRun (MemCall.Accepted pageEnv) ⟨1, 1⟩ pageEnv
    (pageState pageCalls) [⟨12288, 64⟩] := by
  have halloc (n : Nat) (s : Machine) (live : List Span) :
      (MemCall.cuMemAlloc n).Accepted pageEnv s live := fun _ _ h => absurd h (by simp [MemCall.freed])
  have h0 : MemRun (MemCall.Accepted pageEnv) ⟨1, 1⟩ pageEnv (pageState []) [] :=
    .start rfl rfl
  have h1 := h0.call (.cudaMalloc 0) (by
    intro call n h _
    simp only [MemCall.asked, Option.some.injEq, Prod.mk.injEq] at h
    obtain ⟨rfl, rfl⟩ := h
    exact .inl ⟨rfl, rfl⟩) fun _ _ h => absurd h (by simp [MemCall.freed])
  have h2 := h1.call (.cuMemAlloc 64) (sound_page (b := 8192) rfl (by decide)
    (by decide +revert)) (halloc _ _ _)
  have h3 := h2.call (.cuMemAlloc 64) (sound_page (b := 12288) rfl (by decide)
    (by decide +revert)) (halloc _ _ _)
  exact h3.call (.cuMemFree 8192) (sound_free rfl) fun call p h _ => by
    obtain ⟨rfl, -⟩ := Prod.mk.inj (Option.some.inj h)
    rfl

theorem memGet_refines_pageEnv : memGet ⟨1, 1⟩ (pageState pageCalls) 8192 = 0 ∧
    memGet ⟨1, 1⟩ (pageState pageCalls) 12300 ≠ 0 :=
  ⟨of_not_not fun h => absurd (((memGet_refines pageEnv_run).1 8192).mp h) (by decide),
    ((memGet_refines pageEnv_run).1 12300).mpr ⟨_, List.mem_singleton_self _, by decide⟩⟩

/-- CUDA refuses every `cuMemFree`, as it does after an error that sticks. -/
def noFreeEnv : Env :=
  { pageEnv with ret := fun n c => if c.fn = .cuMemFree then ⟨700, [], none⟩ else pageEnv.ret n c }

/-- The range that CUDA did not free is gone from the list. -/
theorem memGet_refusedFree : ∃ s live, MemRun (fun _ _ _ => True) ⟨1, 1⟩ noFreeEnv s live ∧
    ¬∀ a, memGet ⟨1, 1⟩ s a ≠ 0 ↔ ∃ r ∈ live, r.has a := by
  have h0 : MemRun (fun _ _ _ => True) ⟨1, 1⟩ noFreeEnv oneContext [] := .start rfl rfl
  have h1 := h0.call (.cuMemAlloc 64) (sound_page (b := 4096) rfl (by decide)
    (by decide +revert)) trivial
  have h2 := h1.call (.cuMemFree 4096) (sound_free rfl) trivial
  exact ⟨_, _, h2, fun h => absurd ((h 4096).mpr ⟨⟨4096, 64⟩, by decide, by decide⟩) (by decide)⟩

end HmCuda
