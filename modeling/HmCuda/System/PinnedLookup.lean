import HmCuda.General.Ranges
import HmCuda.Host.TableOps
import Mathlib.Data.List.Find

/-! Memory operands. A lookup tries the device ranges, which are host addresses, before
the pinned ranges, which are guest addresses; the two lie in different address spaces. -/

namespace HmCuda
open Ranges

def Identity (t : Tables) : Prop := ∀ c ∈ t.ctxs, ∀ r ∈ c.resources .mem, r.handle = r.realPtr

theorem mem_ctxUpdate {t : Tables} {k : Key} {f : Context → Context} {c : Context}
    (h : c ∈ (t.ctxUpdate k f).ctxs) : c ∈ t.ctxs ∨ ∃ d ∈ t.ctxs, c = f d := by
  obtain ⟨cs, n⟩ := t
  change c ∈ Tables.ctxUpdate.go k f cs at h
  change c ∈ cs ∨ ∃ d ∈ cs, c = f d
  induction cs with
  | nil => exact absurd h List.not_mem_nil
  | cons d cs ih =>
    unfold Tables.ctxUpdate.go at h
    split at h
    · rcases List.mem_cons.mp h with rfl | h
      · exact .inr ⟨d, List.mem_cons_self, rfl⟩
      · exact .inl (List.mem_cons_of_mem _ h)
    · rcases List.mem_cons.mp h with rfl | h
      · exact .inl List.mem_cons_self
      · rcases ih h with h | ⟨d', hd', rfl⟩
        · exact .inl (List.mem_cons_of_mem _ h)
        · exact .inr ⟨d', List.mem_cons_of_mem _ hd', rfl⟩

/-- The operation enters `r` under the type `ty`. -/
def TabOp.Enters (ty : ResType) (r : Resource) : TabOp → Prop
  | add _ u p n a => u = ty ∧ r = ⟨a, p, n⟩
  | fresh _ u p n => u = ty ∧ r.realPtr = p ∧ r.size = n
  | create _ | unlink _ | remove _ _ _ => False

theorem TabOp.entry_apply {o : TabOp} {t : Tables} {c : Context} {ty : ResType} {r : Resource}
    (hc : c ∈ (o.apply t).ctxs) (hr : r ∈ c.resources ty) :
    (∃ d ∈ t.ctxs, r ∈ d.resources ty) ∨ o.Enters ty r := by
  have push {u : Tables} {k : Key} {v : ResType} {x : Resource}
      (hc : c ∈ (u.ctxUpdate k (·.push v x)).ctxs) :
      (∃ d ∈ u.ctxs, r ∈ d.resources ty) ∨ v = ty ∧ r = x := by
    rcases mem_ctxUpdate hc with hc | ⟨d, hd, rfl⟩
    · exact .inl ⟨c, hc, hr⟩
    · rw [Context.push_resources] at hr
      split at hr
      next hty =>
        rcases List.mem_cons.mp hr with rfl | hr
        · exact .inr ⟨hty.symm, rfl⟩
        · exact .inl ⟨d, hd, hty ▸ hr⟩
      next => exact .inl ⟨d, hd, hr⟩
  cases o with
  | create k =>
    rcases List.mem_cons.mp hc with rfl | hc
    · exact absurd hr List.not_mem_nil
    · exact .inl ⟨c, hc, hr⟩
  | unlink k => exact .inl ⟨c, List.mem_of_mem_eraseP hc, hr⟩
  | add k u p n a => exact push hc
  | fresh k u p n =>
    exact (push (u := { t with nextHandle := _ }) hc).imp_right fun ⟨hu, hx⟩ => ⟨hu, by simp [hx]⟩
  | remove k u a =>
    rcases mem_ctxUpdate hc with hc | ⟨d, hd, rfl⟩
    · exact .inl ⟨c, hc, hr⟩
    · rw [Context.resRemove_resources] at hr
      split at hr
      next hty =>
        subst hty
        exact .inl ⟨d, hd, List.mem_of_mem_eraseP hr⟩
      next => exact .inl ⟨d, hd, hr⟩

def fills : List Cmd := [.rt .malloc, .drv .cuMemAlloc, .drv .cuMemAddressReserve]

theorem CmdOp.enters_mem {k : Key} {p : Nat → UInt8} {c : Cmd} {o : TabOp} {r : Resource}
    (ho : CmdOp k p c o) (hr : o.Enters .mem r) : c ∈ fills ∧ r.handle = r.realPtr := by
  rcases c with c | c <;> cases c
  all_goals simp only [CmdOp] at ho
  case rt.malloc | drv.cuMemAlloc | drv.cuMemAddressReserve =>
    obtain ⟨q, rfl⟩ := ho
    obtain ⟨-, rfl⟩ := hr
    exact ⟨by simp [fills], rfl⟩
  case rt.init =>
    rcases ho with rfl | rfl
    all_goals exact hr.elim
  case drv.cuDevicePrimaryCtxRetain =>
    rcases ho with rfl | rfl | ⟨q, rfl⟩
    all_goals simp [TabOp.Enters] at hr
  case drv.cuMemHostAlloc =>
    obtain ⟨q, t, rfl | rfl, rfl⟩ := ho
    all_goals simp [TabOp.Enters] at hr
  case drv.cuMemFreeHost =>
    obtain ⟨t, rfl | rfl, rfl⟩ := ho
    all_goals exact hr.elim
  case rt.streamCreate | rt.eventCreate | rt.registerFatbin | rt.registerFunction
      | drv.cuStreamCreate | drv.cuStreamGetCtx | drv.cuEventCreate | drv.cuMemCreate
      | drv.cuMemImportFromShareableHandle | drv.cuMulticastCreate =>
    obtain ⟨q, rfl⟩ := ho
    simp [TabOp.Enters] at hr
  case rt.free | rt.eventDestroy | drv.cuStreamDestroy | drv.cuEventDestroy | drv.cuMemFree
      | drv.cuMemRelease | drv.cuMemAddressFree =>
    subst ho
    exact hr.elim

theorem Reachable.identity {k : Key} {m : Machine} (h : Reachable k m) : Identity m.tab := by
  refine h.tab_induction (fun c hc => absurd hc List.not_mem_nil) fun t o c p ho ht d hd r hr => ?_
  rcases TabOp.entry_apply hd hr with ⟨d', hd', hr'⟩ | hr
  · exact ht d' hd' r hr'
  · exact (ho.enters_mem hr).2

/-- The addresses CUDA and the guest's allocator chose: nothing wraps, pinned ranges are
not at NULL on either side and lie apart. -/
structure Placed (c : Context) : Prop where
  device : ∀ d ∈ c.resources .mem, d.handle + d.size < 2 ^ 64
  apart : Apart Resource.handle Resource.size (c.resources .hostMem)
  key : ∀ r ∈ c.resources .hostMem, r.handle ≠ 0 ∧ r.handle + r.size < 2 ^ 64
  pointer : ∀ r ∈ c.resources .hostMem, r.realPtr ≠ 0 ∧ r.realPtr + r.size < 2 ^ 64

theorem covers_eq {t : ResType} (ht : t.ranged = true) {r : Resource}
    (h : r.handle + r.size < 2 ^ 64) (a : Nat) :
    r.covers t a = decide (Inside Resource.handle Resource.size r a) := by
  unfold Resource.covers
  rw [if_pos ht, add64_of_lt h]
  rfl

section Lookup
variable {c : Context} {r : Resource} {a i v : Nat}

theorem resFind_hostMem (h : Placed c) (hr : r ∈ c.resources .hostMem)
    (ha : Inside Resource.handle Resource.size r a) : c.resFind .hostMem a = some r := by
  rw [Context.resFind, List.find?_congr fun x hx => covers_eq rfl (h.key x hx).2 a]
  exact h.apart.find?_eq hr ha

theorem pointer_hostMem (h : Placed c) (hr : r ∈ c.resources .hostMem)
    (ha : Inside Resource.handle Resource.size r a) :
    r.pointer .hostMem a = r.realPtr + (a - r.handle) := by
  have hp := (h.pointer r hr).2
  obtain ⟨hlo, hhi⟩ := ha
  show add64 r.realPtr (a - r.handle) = _
  exact add64_of_lt (by omega)

theorem resGet_hostMem (h : Placed c) (hr : r ∈ c.resources .hostMem)
    (ha : Inside Resource.handle Resource.size r a) :
    c.resGet .hostMem a = r.realPtr + (a - r.handle) := by
  rw [c.resGet_eq, resFind_hostMem h hr ha]
  exact pointer_hostMem h hr ha

theorem resGet_mem_inside (h : ∀ d ∈ c.resources .mem, d.handle + d.size < 2 ^ 64)
    (hid : ∀ r ∈ c.resources .mem, r.handle = r.realPtr)
    (ha : ∃ d ∈ c.resources .mem, Inside Resource.handle Resource.size d a) :
    c.resGet .mem a = a := by
  have hfind : ∃ d ∈ c.resources .mem, c.resFind .mem a = some d ∧
      Inside Resource.handle Resource.size d a := by
    rw [Context.resFind, List.find?_congr fun x hx => covers_eq rfl (h x hx) a]
    rcases hf : (c.resources .mem).find? _ with _ | d
    · obtain ⟨d, hd, hin⟩ := ha
      exact absurd hin (by simpa using List.find?_eq_none.mp hf d hd)
    · have hin := List.find?_some hf
      exact ⟨d, List.mem_of_find?_eq_some hf, rfl, by simpa using hin⟩
  obtain ⟨d, hd, hf, hin⟩ := hfind
  rw [c.resGet_eq, hf]
  show add64 d.realPtr (a - d.handle) = a
  have hsum : d.handle + (a - d.handle) = a := Nat.add_sub_cancel' hin.1
  have hlt : a < 2 ^ 64 := Nat.lt_trans hin.2 (h d hd)
  rw [← hid d hd, add64_of_lt (by rwa [hsum]), hsum]

theorem resFind_mem_outside (h : Placed c)
    (ha : ¬∃ d ∈ c.resources .mem, Inside Resource.handle Resource.size d a) :
    c.resFind .mem a = none := by
  rw [Context.resFind, List.find?_congr fun x hx => covers_eq rfl (h.device x hx) a,
    List.find?_eq_none]
  intro d hd
  simpa using fun hin => ha ⟨d, hd, hin⟩

theorem resGet_mem_outside (h : Placed c)
    (ha : ¬∃ d ∈ c.resources .mem, Inside Resource.handle Resource.size d a) :
    c.resGet .mem a = 0 := by
  rw [c.resGet_eq, resFind_mem_outside h ha]
  rfl

theorem resolveAnyMem_iff (h : Placed c) (hid : ∀ r ∈ c.resources .mem, r.handle = r.realPtr)
    (hr : r ∈ c.resources .hostMem) (hi : i < r.size) :
    resolveAnyMem c (r.handle + i) = r.realPtr + i ↔
      (¬∃ d ∈ c.resources .mem, Inside Resource.handle Resource.size d (r.handle + i)) ∨
        r.handle = r.realPtr := by
  have hin : Inside Resource.handle Resource.size r (r.handle + i) :=
    ⟨Nat.le_add_right _ _, Nat.add_lt_add_left hi _⟩
  have hkey := (h.key r hr).1
  unfold resolveAnyMem
  by_cases hd : ∃ d ∈ c.resources .mem, Inside Resource.handle Resource.size d (r.handle + i)
  · rw [resGet_mem_inside h.device hid hd, if_pos (by omega)]
    constructor
    · intro heq
      exact .inr (Nat.add_right_cancel heq)
    · rintro (hno | heq)
      · exact absurd hd hno
      · rw [heq]
  · rw [resGet_mem_outside h hd, resGet_hostMem h hr hin, if_neg (by simp),
      Nat.add_sub_cancel_left]
    exact ⟨fun _ => .inl hd, fun _ => rfl⟩

end Lookup

/-- The destination copy of a CU_MEMCPY once its destination has resolved to `p`. -/
def copyToResolved (c : Context) (dst p : Nat) (hostPtr : Space × Nat) (bytesize stream : Nat) :
    QueryM Nat :=
  if c.resGet .mem dst ≠ 0 then
    copyAsync .cuMemcpyHtoDAsync (.uva, p) hostPtr bytesize (resolveStream c stream)
  else match c.resFind .hostMem dst with
    | none => return 1
    | some r => do
      if p = 0 then return 1
      let data ← load hostPtr bytesize
      if bufferNeedsHostPtrPatch c data then
        if ← alloc .malloc bytesize then
          store (.uva, p) (patchEmbeddedHostPtrs c data)
          logCopy ⟨r, dst - r.handle, bytesize⟩
          return 0
        else
          return 2
      else
        store (.uva, p) data
        logCopy ⟨r, dst - r.handle, bytesize⟩
        return 0

/-- The source copy of a CU_MEMCPY once its source has resolved to `p`. -/
def copyFromResolved (c : Context) (src p : Nat) (hostPtr : Space × Nat) (bytesize stream : Nat) :
    QueryM Nat :=
  if c.resGet .mem src ≠ 0 then
    copyAsync .cuMemcpyDtoHAsync hostPtr (.uva, p) bytesize (resolveStream c stream)
  else match c.resFind .hostMem src with
    | none => return 1
    | some r => do
      if p = 0 then return 1
      store hostPtr (← load (.uva, p) bytesize)
      logCopy ⟨r, src - r.handle, bytesize⟩
      return 0

/-- At every lookup site the operand `h` stands for the address `v`. -/
structure ResolvesTo (k : Key) (c : Context) (h v : Nat) : Prop where
  any : resolveAnyMem c h = v
  dst : ∀ (q : QEnv) (d : Device) (hp : Space × Nat) (n stream : Nat), q.tab.ctxGet k = some c →
    (coreCuMemcpyHtodVq k h hp n stream).run q d = (copyToResolved c h v hp n stream).run q d
  src : ∀ (q : QEnv) (d : Device) (hp : Space × Nat) (n stream : Nat), q.tab.ctxGet k = some c →
    (coreCuMemcpyDtohVq k h hp n stream).run q d = (copyFromResolved c h v hp n stream).run q d
  arg : ∀ (e : CmdEnv) (s : CmdSt) (args i : Nat),
    Bytes.val ((peek (args + 8 * i) 8).run e s).1 = h →
    ((peek (args + 8 * i) 8).run e ((translateArg c args i).run e s).2).1 = Bytes.le 8 v

theorem peek_poke (e : CmdEnv) (s : CmdSt) (off : Nat) (bs : List UInt8) :
    ((peek off bs.length).run e ((poke off bs).run e s).2).1 = bs := by
  apply List.ext_getElem
  · simp [peek]
  · intro j h1 h2
    simp only [peek, poke, Prog.modify_run, List.getElem_map, List.getElem_range]
    rw [if_pos ⟨by omega, by omega⟩, Nat.add_sub_cancel_left, List.getD_eq_getElem _ _ h2]

theorem resolvesTo_iff_any {k : Key} {c : Context} {h v : Nat} (hv : v ≠ 0) :
    ResolvesTo k c h v ↔ resolveAnyMem c h = v := by
  refine ⟨ResolvesTo.any, fun hany => ⟨hany, ?_, ?_, ?_⟩⟩
  · intro q d hp n stream hc
    unfold coreCuMemcpyHtodVq withCtx copyToResolved
    dsimp only
    rw [hc]
    dsimp only
    subst hany
    unfold resolveAnyMem
    by_cases h0 : c.resGet .mem h = 0
    · simp only [h0, ne_eq, not_true, if_false]
      rw [c.resGet_eq]
      rcases c.resFind .hostMem h with _ | r <;> rfl
    · simp only [h0, ne_eq, not_false_eq_true, if_true]
  · intro q d hp n stream hc
    unfold coreCuMemcpyDtohVq withCtx copyFromResolved
    dsimp only
    rw [hc]
    dsimp only
    subst hany
    unfold resolveAnyMem
    by_cases h0 : c.resGet .mem h = 0
    · simp only [h0, ne_eq, not_true, if_false]
      rw [c.resGet_eq]
      rcases c.resFind .hostMem h with _ | r <;> rfl
    · simp only [h0, ne_eq, not_false_eq_true, if_true]
  · intro e s args i hw
    unfold translateArg
    simp only [Prog.bind_run, Prog.ite_run, hw, hany]
    rw [if_pos hv]
    exact peek_poke e _ (args + 8 * i) (Bytes.le 8 v)

/-- A pinned operand stands for the backend's buffer at every site exactly when no
device range holds its address, or the buffer is at its own key. -/
theorem pinned_resolvesTo_iff {k : Key} {m : Machine} {c : Context} {r : Resource} {i : Nat}
    (h : Reachable k m) (hc : m.tab.ctxGet k = some c) (hp : Placed c)
    (hr : r ∈ c.resources .hostMem) (hi : i < r.size) :
    ResolvesTo k c (r.handle + i) (r.realPtr + i) ↔
      (¬∃ d ∈ c.resources .mem, Inside Resource.handle Resource.size d (r.handle + i)) ∨
        r.handle = r.realPtr := by
  have hne : r.realPtr + i ≠ 0 := by
    have h0 := (hp.pointer r hr).1
    omega
  have hid : ∀ r ∈ c.resources .mem, r.handle = r.realPtr :=
    h.identity c (List.mem_of_find?_eq_some hc)
  rw [resolvesTo_iff_any hne, resolveAnyMem_iff hp hid hr hi]

/-- Three requests in memory: INIT, CU_MEM_ALLOC of 64 bytes, and CU_MEM_HOST_ALLOC of 8
bytes at guest address 0x7000. -/
def aliasMem : ByteMem Space := fun sp a =>
  match sp with
  | .req 0 => (Bytes.le 4 RtCmd.init.code).getD a 0
  | .req 1 => (Bytes.le 4 DrvCmd.cuMemAlloc.code ++ Bytes.le 4 8 ++ Bytes.le 8 64).getD a 0
  | .req 2 => (Bytes.le 4 DrvCmd.cuMemHostAlloc.code ++ Bytes.le 4 32 ++ Bytes.le 8 8 ++
      Bytes.le 8 0 ++ Bytes.le 8 0x7000 ++ Bytes.le 8 0).getD a 0
  | _ => 0

/-- CUDA puts device memory at `p` and the pinned buffer at 0x9000. -/
def aliasEnv (p : Nat) : Env :=
  { Env.quiet with ret := fun _ c =>
      if c.fn = .cuMemAlloc then ⟨0, [p], none⟩
      else if c.fn = .cuMemHostAlloc then ⟨0, [0x9000], none⟩ else .ok }

theorem aliasEnv_ret (p n : Nat) (c : LibCall) : ((aliasEnv p).ret n c).code = 0 := by
  unfold aliasEnv
  dsimp only
  split
  · rfl
  · split <;> rfl

def aliasRun (p : Nat) : Machine :=
  let init := (processElem ⟨1, 1⟩ ⟨[⟨.req 0, 0, 8⟩], [⟨.resp 0, 0, 8⟩]⟩).run (aliasEnv p)
    (.start aliasMem)
  let device := (processElem ⟨1, 1⟩ ⟨[⟨.req 1, 0, 16⟩], [⟨.resp 1, 0, 16⟩]⟩).run (aliasEnv p) init.2
  ((processElem ⟨1, 1⟩ ⟨[⟨.req 2, 0, 40⟩, ⟨.ram, 0, 8⟩], [⟨.resp 2, 0, 8⟩]⟩).run (aliasEnv p)
    device.2).2

theorem aliasRun_reachable (p : Nat) : Reachable ⟨1, 1⟩ (aliasRun p) := by
  unfold aliasRun
  exact .serve (.serve (.serve (.start _) _ _) _ _) _ _

theorem aliasRun_tables : ∀ p ∈ [0x7000, 0x8000],
    ((aliasRun p).tab.ctxGet ⟨1, 1⟩).map (fun c => (c.resources .mem, c.resources .hostMem)) =
      some ([⟨p, p, 64⟩], [⟨0x7000, 0x9000, 8⟩]) := by
  decide +kernel

theorem placed_alias {p : Nat} {c : Context} (hp : p + 64 < 2 ^ 64)
    (hm : c.resources .mem = [⟨p, p, 64⟩]) (hh : c.resources .hostMem = [⟨0x7000, 0x9000, 8⟩]) :
    Placed c := by
  refine ⟨?_, ?_, ?_, ?_⟩
  · rw [hm]
    intro d hd
    rw [List.mem_singleton.mp hd]
    exact hp
  · rw [hh]
    exact List.pairwise_singleton _ _
  all_goals
    rw [hh]
    decide

theorem aliasRun_placed : ∀ p ∈ [0x7000, 0x8000], ∃ c,
    (aliasRun p).tab.ctxGet ⟨1, 1⟩ = some c ∧ Placed c ∧
      c.resources .mem = [⟨p, p, 64⟩] ∧ c.resources .hostMem = [⟨0x7000, 0x9000, 8⟩] := by
  intro p hp
  obtain ⟨c, hc, htab⟩ := Option.map_eq_some_iff.mp (aliasRun_tables p hp)
  obtain ⟨hm, hh⟩ := Prod.mk.inj htab
  have hlt : p + 64 < 2 ^ 64 := by
    rcases List.mem_cons.mp hp with rfl | hp
    · decide
    · rw [List.mem_singleton.mp hp]
      decide
  exact ⟨c, hc, placed_alias hlt hm hh, hm, hh⟩

theorem pinned_resolvesTo_iff_aliasRun : ∃ c, (aliasRun 0x8000).tab.ctxGet ⟨1, 1⟩ = some c ∧
    ResolvesTo ⟨1, 1⟩ c (0x7000 + 4) (0x9000 + 4) := by
  obtain ⟨c, hc, hp, hm, hh⟩ := aliasRun_placed 0x8000 (by decide)
  have hr : (⟨0x7000, 0x9000, 8⟩ : Resource) ∈ c.resources .hostMem := by
    rw [hh]
    exact List.mem_singleton_self _
  refine ⟨c, hc, (pinned_resolvesTo_iff (aliasRun_reachable 0x8000) hc hp hr (by decide)).mpr
    (.inl ?_)⟩
  rw [hm]
  decide

/-- A device range at the guest address of the pinned buffer takes the operand over. -/
theorem pinned_not_resolvesTo : ¬∀ (k : Key) (m : Machine) (c : Context) (r : Resource) (i : Nat),
    Reachable k m → m.tab.ctxGet k = some c → Placed c → r ∈ c.resources .hostMem → i < r.size →
      ResolvesTo k c (r.handle + i) (r.realPtr + i) := by
  intro hall
  obtain ⟨c, hc, hp, hm, hh⟩ := aliasRun_placed 0x7000 (by decide)
  have hr : (⟨0x7000, 0x9000, 8⟩ : Resource) ∈ c.resources .hostMem := by
    rw [hh]
    exact List.mem_singleton_self _
  have hany := (hall ⟨1, 1⟩ (aliasRun 0x7000) c ⟨0x7000, 0x9000, 8⟩ 4 (aliasRun_reachable 0x7000)
    hc hp hr (by decide)).any
  have hid : ∀ r ∈ c.resources .mem, r.handle = r.realPtr :=
    (aliasRun_reachable 0x7000).identity c (List.mem_of_find?_eq_some hc)
  rcases (resolveAnyMem_iff hp hid hr (by decide)).mp hany with hno | heq
  · rw [hm] at hno
    exact hno ⟨_, List.mem_singleton_self _, by decide⟩
  · exact absurd heq (by decide)

end HmCuda
