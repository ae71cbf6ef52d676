import HmCuda.Host.CopyStep

/-! What the backend's operations keep: which of them leave no transfer of guest pages
behind. -/

namespace HmCuda
open AsyncCopy

section Keeps
variable {α : Type}

theorem keeps_query {P : Device → Prop} {m : QueryM α} (h : Prog.Keeps P m) :
    Prog.Keeps (fun s : Machine => P s.dev) (query m) := fun _ _ hs => h _ _ hs

theorem keeps_table {P : Device → Prop} (f : Tables → Tables) :
    Prog.Keeps (fun s : Machine => P s.dev) (table f) := fun _ _ hs => hs

theorem keeps_withCtx {P : Device → Prop} {k : Key} {missing : α} {f : Context → QueryM α}
    (h : ∀ c, Prog.Keeps P (f c)) : Prog.Keeps P (withCtx k missing f) := by
  intro q v hv
  unfold withCtx
  dsimp only
  split
  · exact hv
  · exact h _ q v hv

theorem keeps_withCtxM {P : Machine → Prop} {k : Key} {missing : α} {f : Context → CoreM α}
    (h : ∀ c, Prog.Keeps P (f c)) : Prog.Keeps P (withCtxM k missing f) := by
  intro e s hs
  unfold withCtxM
  dsimp only
  split
  · exact hs
  · exact h _ e s hs

end Keeps

def onRam (c : Copy Space) : Prop := c.dst.1 = .ram ∨ c.src.1 = .ram

def RamFree (d : Device) : Prop := ∀ c ∈ d.eng.pending, ¬onRam c

theorem RamFree.mono {d d' : Device} (h : RamFree d)
    (hs : ∀ c ∈ d'.eng.pending, c ∈ d.eng.pending) : RamFree d' := fun c hc => h c (hs c hc)

section RamFree

theorem ramFree_lib (fn : LibFn) (args : List Nat) (data : List (List UInt8)) :
    Prog.Keeps RamFree (lib fn args data) := fun _ _ h => h.mono fun _ hc => lib_pending hc

theorem ramFree_copyAsync (fn : LibFn) (dst src len stream : Nat) :
    Prog.Keeps RamFree (copyAsync fn (.uva, dst) (.uva, src) len stream) := by
  intro q v h c hc
  rcases copyAsync_pending hc with hc | ⟨-, rfl⟩
  · exact h c hc
  · simp [onRam]

theorem ramFree_store (dst : Space × Nat) (bs : List UInt8) :
    Prog.Keeps RamFree (store dst bs) := fun _ _ h => h

theorem ramFree_load (src : Space × Nat) (len : Nat) : Prog.Keeps RamFree (load src len) :=
  fun _ _ h => h

theorem ramFree_logCopy (c : HostCopy) : Prog.Keeps RamFree (logCopy c) := fun _ _ h => h

theorem ramFree_copyToHostAlloc (k : Key) (guestVa byteOffset : Nat) (hp : Space × Nat)
    (len : Nat) : Prog.Keeps RamFree (copyToHostAlloc k guestVa byteOffset hp len) := by
  refine keeps_withCtx fun c => ?_
  split
  · exact Prog.keeps_pure 1
  · refine Prog.keeps_ite (fun _ => Prog.keeps_pure 1) fun _ => ?_
    refine Prog.keeps_bind (ramFree_load hp len) fun bs => ?_
    refine Prog.keeps_bind (ramFree_store _ bs) fun _ => ?_
    exact Prog.keeps_bind (ramFree_logCopy _) fun _ => Prog.keeps_pure 0

theorem ramFree_cuMemHostAlloc (k : Key) (e : CmdEnv) (p : Nat → UInt8) :
    Prog.Keeps (fun s : Machine => RamFree s.dev) (cuMemHostAllocPlan k e p) := by
  refine Prog.keeps_ite (fun _ => Prog.keeps_firstError fun ch _ => ?_) fun _ => Prog.keeps_pure 1
  refine keeps_withCtxM fun c => ?_
  have hcopy (va off : Nat) (hp : Space × Nat) (len : Nat) :=
    keeps_query (ramFree_copyToHostAlloc k va off hp len)
  refine Prog.keeps_ite (fun _ => ?_) fun _ => hcopy _ _ _ _
  refine Prog.keeps_bind (keeps_query (ramFree_lib _ _ _)) fun r => ?_
  refine Prog.keeps_ite (fun _ => Prog.keeps_pure _) fun _ => ?_
  refine Prog.keeps_bind (keeps_table _) fun _ => ?_
  refine Prog.keeps_bind (keeps_query (ramFree_lib _ _ _)) fun g => ?_
  refine Prog.keeps_ite (fun _ => ?_) fun _ => hcopy _ _ _ _
  exact Prog.keeps_bind (keeps_table _) fun _ => hcopy _ _ _ _

/-- A copy of another kind than host to device and device to host moves device memory,
or nothing. -/
theorem ramFree_otherKind (m : MemCmd) (k : Key) (e : CmdEnv) (r : MemReq)
    (hr : ¬(r.kind = 1 ∨ r.kind = 2)) : Prog.Keeps RamFree (m.plan k e r) := by
  rw [not_or] at hr
  cases m with
  | memcpy =>
    rw [MemCmd.plan, memcpyPlan, if_neg hr.1, if_neg hr.2]
    refine keeps_withCtx fun c => ?_
    rw [if_neg hr.1, if_neg hr.2]
    refine Prog.keeps_ite (fun _ => ?_) fun _ => Prog.keeps_pure 1
    refine Prog.keeps_ite (fun _ => Prog.keeps_pure 1) fun _ => ?_
    exact Prog.keeps_ite (fun _ => Prog.keeps_pure 1) fun _ => ramFree_copyAsync _ _ _ _ _
  | cuMemcpy =>
    rw [MemCmd.plan, cuMemcpyPlan, if_neg hr.1, if_neg hr.2]
    exact Prog.keeps_pure 1

end RamFree
end HmCuda
