import HmCuda.Host.Writes

/-! What the backend does to memory that is not its own: to the guest's RAM and to the
request and response buffers of the driver's callers. -/

namespace HmCuda
open AsyncCopy

section BytesKept
variable {A : Space → Nat → Prop} {mem₀ : ByteMem Space}

/-- The bytes in `A` are those of `mem₀`, and no pending copy writes one of them. -/
structure BytesKept (A : Space → Nat → Prop) (mem₀ : ByteMem Space) (d : Device) : Prop where
  pending : ∀ c ∈ d.eng.pending, ∀ x ∈ c.dsts, ¬A x.1 x.2
  mem : ∀ sp a, A sp a → d.eng.mem sp a = mem₀ sp a

/-- Writing here leaves the bytes in `A` alone. -/
def Clear (A : Space → Nat → Prop) (dst : Space × Nat) (n : Nat) : Prop :=
  ∀ i < n, ¬A dst.1 (dst.2 + i)

/-- None of the bytes in `A` is the backend's own. -/
def Foreign (A : Space → Nat → Prop) : Prop := ∀ sp a, A sp a → sp ≠ .uva ∧ ∀ id, sp ≠ .heap id

theorem Foreign.ownMemory (h : Foreign A) : OwnMemory (Clear A) where
  uva _ _ _ _ ha := (h _ _ ha).1 rfl
  heap id _ _ _ _ ha := (h _ _ ha).2 id rfl

theorem applyWrites_other {ws : List RespWrite} {sp : Space} (h : ∀ w ∈ ws, w.sp ≠ sp)
    (mem : ByteMem Space) : applyWrites mem ws sp = mem sp := by
  induction ws generalizing mem with
  | nil => rfl
  | cons w ws ih =>
    apply (ih (fun w' hw => h w' (List.mem_cons_of_mem _ hw)) _).trans
    exact ByteMem.write_space mem _ _ (h w List.mem_cons_self).symm

theorem clear_dsts {c : Copy Space} (h : Clear A c.dst c.len) : ∀ x ∈ c.dsts, ¬A x.1 x.2 := by
  intro x hx
  obtain ⟨i, hi, rfl⟩ := List.mem_map.mp hx
  exact h i (List.mem_range.mp hi)

theorem BytesKept.not_mem {d : Device} (h : BytesKept A mem₀ d) {c : Copy Space}
    (hc : c ∈ d.eng.pending) {sp : Space} {a : Nat} (ha : A sp a) : (sp, a) ∉ c.dsts :=
  fun hx => h.pending c hc _ hx ha

theorem BytesKept.finishMany {g : Engine Space} (hp : ∀ c ∈ g.pending, ∀ x ∈ c.dsts, ¬A x.1 x.2)
    (hm : ∀ sp a, A sp a → g.mem sp a = mem₀ sp a) (is : List Nat) {d : Device}
    (hd : d.eng = g.finishMany is) : BytesKept A mem₀ d := by
  refine ⟨fun c hc => hp c (g.finishMany_pending_subset is (hd ▸ hc)), fun sp a ha => ?_⟩
  rw [hd, Engine.finishMany_other (fun c hc hx => hp c hc _ hx ha), hm sp a ha]

theorem BytesKept.step {d : Device} {env : Env} {c : LibCall} {g : Engine Space}
    (hp : ∀ c ∈ g.pending, ∀ x ∈ c.dsts, ¬A x.1 x.2)
    (hm : ∀ sp a, A sp a → g.mem sp a = mem₀ sp a) : BytesKept A mem₀ (d.step env c g) :=
  BytesKept.finishMany hp hm _ rfl

theorem foldl_run_other {cs : List (Copy Space)} {sp : Space} {a : Nat}
    (h : ∀ c ∈ cs, (sp, a) ∉ c.dsts) (mem : ByteMem Space) :
    cs.foldl (fun m c => c.run m) mem sp a = mem sp a := by
  induction cs generalizing mem with
  | nil => rfl
  | cons c cs ih =>
    rw [List.foldl_cons, ih (fun d hd => h d (List.mem_cons_of_mem _ hd)),
      c.run_other mem (h c List.mem_cons_self)]

theorem bytesKept_kept (hA : Foreign A) : Kept (Clear A) (BytesKept A mem₀) where
  lib fn args data q d h := by
    rw [lib_run]
    refine BytesKept.step h.pending fun sp a ha => ?_
    dsimp only
    rw [Function.update_of_ne (hA sp a ha).1]
    exact h.mem sp a ha
  registered _ _ h := ⟨h.pending, h.mem⟩
  sync fn args waits q d h := by
    rw [sync_run]
    refine BytesKept.step (fun c hc => ?_) fun sp a ha => ?_
    · split at hc
      · exact h.pending c (List.mem_of_mem_filter hc)
      · exact h.pending c hc
    · split
      · refine (foldl_run_other (fun c hc => ?_) _).trans (h.mem sp a ha)
        exact h.not_mem (List.mem_of_mem_filter hc) ha
      · exact h.mem sp a ha
  copyAsync fn dst src len stream hw q d h := by
    refine BytesKept.step (fun c hc => ?_) fun sp a ha => ?_
    · split at hc
      · rcases List.mem_append.mp hc with hc | hc
        · exact h.pending c hc
        · exact List.mem_singleton.mp hc ▸ clear_dsts hw
      · exact h.pending c hc
    · split <;> exact h.mem sp a ha
  copyNow fn dst src len hw q d h := by
    refine BytesKept.step h.pending fun sp a ha => ?_
    dsimp only
    split
    · refine (Copy.run_other _ _ fun hx => ?_).trans (h.mem sp a ha)
      exact clear_dsts (c := ⟨dst, src, len, 0⟩) hw _ hx ha
    · exact h.mem sp a ha
  store {dst bs} hw q d h := by
    refine ⟨h.pending, fun sp a ha => (ByteMem.write_miss _ fun hx => ?_).trans (h.mem sp a ha)⟩
    obtain ⟨rfl, hle, hlt⟩ := hx
    refine hw (a - dst.2) (by omega) ?_
    rwa [Nat.add_sub_cancel' hle]
  log _ _ _ h := ⟨h.pending, h.mem⟩
  idle q d h := BytesKept.finishMany h.pending h.mem _ rfl

/-- What an element asks for leaves the bytes in `A` alone: they lie in none of its
descriptors, nor in the guest range a device-to-host copy names. -/
def Avoids (A : Space → Nat → Prop) (env : Env) (el : Elem) (m : Machine) : Prop :=
  Permits (Clear A) env el (el.cmd m) (memReq (cmdStart env el m).payload)

/-- A backend that serves elements of any sessions, each in whatever environment and none
asking for bytes in `A`; the rest of the memory may be changed by others in between, and the
pending copies go on. -/
inductive Leaving (A : Space → Nat → Prop) (m₀ : Machine) : Machine → Prop where
  | start : Leaving A m₀ m₀
  | serve {m : Machine} (h : Leaving A m₀ m) (k : Key) (env : Env) (el : Elem)
      (ha : Avoids A env el m) : Leaving A m₀ ((processElem k el).run env m).2
  | others {m : Machine} (h : Leaving A m₀ m) (mem : ByteMem Space)
      (hm : ∀ sp a, A sp a → mem sp a = m.dev.eng.mem sp a) :
      Leaving A m₀ { m with dev := { m.dev with eng := ⟨mem, m.dev.eng.pending⟩ } }
  | later {m : Machine} (h : Leaving A m₀ m) (env : Env) :
      Leaving A m₀ { m with dev := (idle.run ⟨env, m.tab⟩ m.dev).2 }

/-- Memory that is not the backend's own keeps every byte that no request names, over any
run and however late the copies are made. -/
theorem memory_unnamed {m₀ m : Machine} (hA : Foreign A) (h : Leaving A m₀ m)
    (h0 : ∀ c ∈ m₀.dev.eng.pending, ∀ x ∈ c.dsts, ¬A x.1 x.2) :
    ∀ sp a, A sp a → m.dev.eng.mem sp a = m₀.dev.eng.mem sp a := by
  suffices hs : BytesKept A m₀.dev.eng.mem m.dev from hs.mem
  induction h with
  | start => exact ⟨h0, fun _ _ _ => rfl⟩
  | serve _ k env el ha ih => exact processElem_kept (bytesKept_kept hA) hA.ownMemory ha ih
  | others _ mem hm ih => exact ⟨ih.pending, fun sp a ha => (hm sp a ha).trans (ih.mem sp a ha)⟩
  | later _ env ih => exact (bytesKept_kept hA).idle _ _ ih

end BytesKept

/-! A copy of 8 bytes to the guest, and the byte behind them -/

/-- INIT, CU_MEM_ALLOC of 64 bytes, and a memcpy of the first 8 of them to the guest; CUDA's
memory holds sevens. -/
def besideMem : ByteMem Space := fun sp a =>
  match sp with
  | .req 0 => (Bytes.le 4 RtCmd.init.code).getD a 0
  | .req 1 => (Bytes.le 4 DrvCmd.cuMemAlloc.code ++ Bytes.le 4 8 ++ Bytes.le 8 64).getD a 0
  | .req 2 => (Bytes.le 4 RtCmd.memcpy.code ++ Bytes.le 4 40 ++ Bytes.le 8 0 ++ Bytes.le 8 0x8000 ++
      Bytes.le 8 8 ++ Bytes.le 4 2).getD a 0
  | .uva => 7
  | _ => 0

def besideEnv : Env :=
  { Env.quiet with
    ret := fun _ c => if c.fn = .cuMemAlloc then ⟨0, [0x8000], none⟩ else .ok
    dma := fun _ => [0] }

def besideElems : List Elem :=
  [⟨[⟨.req 0, 0, 8⟩], [⟨.resp 0, 0, 8⟩]⟩, ⟨[⟨.req 1, 0, 16⟩], [⟨.resp 1, 0, 16⟩]⟩,
    ⟨[⟨.req 2, 0, 48⟩], [⟨.ram, 4088, 8⟩, ⟨.resp 2, 0, 8⟩]⟩]

def besideRun : Machine :=
  besideElems.foldl (fun m el => ((processElem ⟨1, 1⟩ el).run besideEnv m).2) (.start besideMem)

theorem besideEnv_avoids {el : Elem} (h : ∀ v ∈ el.inSg, v.sp = .ram → v.base + v.len ≤ 4096)
    (m : Machine) : Avoids (fun sp a => sp = .ram ∧ a = 4096) besideEnv el m where
  data v hv n hn i hi hb := by
    have hend := h v hv hb.1
    have hat : v.base + i = 4096 := hb.2
    omega
  named _ _ _ _ _ hgpa := absurd hgpa (by simp [besideEnv, Env.quiet])

theorem memory_unnamed_beside : besideRun.dev.eng.mem .ram 4095 = 7 ∧
    besideRun.dev.eng.mem .ram 4096 = besideMem .ram 4096 := by
  have hbefore : ∀ el ∈ besideElems, ∀ v ∈ el.inSg, v.sp = .ram → v.base + v.len ≤ 4096 := by decide
  have hrun : Leaving (fun sp a => sp = .ram ∧ a = 4096) (.start besideMem) besideRun :=
    List.foldlRecOn besideElems _ .start fun m hm el hel =>
      hm.serve ⟨1, 1⟩ besideEnv el (besideEnv_avoids (hbefore el hel) m)
  refine ⟨by decide +kernel, memory_unnamed ?_ hrun (fun c hc => ?_) .ram 4096 ⟨rfl, rfl⟩⟩
  · rintro sp b ⟨rfl, -⟩
    exact ⟨nofun, nofun⟩
  · cases hc

end HmCuda
