import HmCuda.System.GuestCopy

/-! The two copy APIs on a pinned buffer: cudaMemcpy does not look at the dirty flag that
the driver functions read and clear. -/

namespace HmCuda
open Layout AsyncCopy Ranges

def runtimeCopy (d : Dir) (host dev n : Nat) : GuestM (Option Nat) :=
  match d with
  | .htod => cudaMemcpy dev host n 1
  | .dtoh => cudaMemcpy host dev n 2

def driverCopy (d : Dir) (host dev n : Nat) : GuestM (Option Nat) :=
  match d with
  | .htod => cuMemcpyHtoD dev host n
  | .dtoh => cuMemcpyDtoH host dev n

/-- The flags agree, and so do guest memory, device memory and the backend's pinned buffers
once every copy has moved. -/
structure SameEffect (g₁ g₂ : GuestSt) : Prop where
  flags : ∀ va, g₁.isGpuDirty va = g₂.isGpuDirty va
  bytes : ∀ is₁ is₂, (g₁.drv.m.dev.eng.finishMany is₁).pending = [] →
    (g₂.drv.m.dev.eng.finishMany is₂).pending = [] → ∀ sp, Shared sp →
      (g₁.drv.m.dev.eng.finishMany is₁).mem sp = (g₂.drv.m.dev.eng.finishMany is₂).mem sp

/-- `n` bytes at `host` lie in a pinned buffer of the session, and `n` bytes at `dev` in
device memory; the next request goes well and no copy is pending. -/
structure PinnedCopy (env : GuestEnv) (g : GuestSt) (pt : Nat → Nat) (host dev n : Nat) : Prop where
  linked : Linked env g pt
  user : host + n ≤ taskSize
  frames : Separate pt host n
  reachable : Reachable (env.drv g.sent.length).key g.drv.m
  idle : g.drv.m.dev.eng.pending = []
  session : ∃ c, g.drv.m.tab.ctxGet (env.drv g.sent.length).key = some c ∧ Placed c ∧
    c.resFind .mem 0 = none ∧
    (∃ x ∈ c.resources .mem, x.handle ≤ dev ∧ dev + n ≤ x.handle + x.size) ∧
    ∃ r ∈ c.resources .hostMem, ∃ o, host = r.handle + o ∧ o + n ≤ r.size ∧
      ∀ i < n, ¬∃ x ∈ c.resources .mem, Inside Resource.handle Resource.size x (host + i)

theorem Copied.unique {d : Dir} {pt : Nat → Nat} {dev u n : Nat} {m m₁ m₂ : ByteMem Space}
    (h₁ : Copied d pt dev u n m m₁) (h₂ : Copied d pt dev u n m m₂) :
    ∀ sp, Shared sp → m₁ sp = m₂ sp := by
  intro sp hs
  funext a
  by_cases h : ∃ i < n, (sp, a) = (d.pair (dev + i) (phys pt (u + i))).1
  · obtain ⟨i, hi, he⟩ := h
    have h1 := h₁.moved i hi
    rw [← he, ← h₂.moved i hi, ← he] at h1
    exact h1
  · have hne (i : Nat) (hi : i < n) : (sp, a) ≠ (d.pair (dev + i) (phys pt (u + i))).1 :=
      fun he => h ⟨i, hi, he⟩
    rw [h₁.frame sp a hs hne, h₂.frame sp a hs hne]

theorem drvDispatch_opened {g : GuestSt} (h : g.transport = ⟨false, true⟩) (env : GuestEnv)
    (cmd : Cmd) (req : List UInt8) (respLen : Nat) :
    (drvDispatch cmd req respLen).run env g = (dispatch cmd req respLen).run env g := by
  unfold drvDispatch
  simp [h]

section
variable {env : GuestEnv} {g : GuestSt} {pt : Nat → Nat} {d : Dir} {host dev n : Nat}

theorem PinnedCopy.call (h : PinnedCopy env g pt host dev n) (m : MemCmd) (d : Dir) :
    MemcpyCall m (env.caller g m.copy.cmd.code (d.request host dev n 0)) pt d host dev n g.drv := by
  obtain ⟨c, hc, hp, hpos, ⟨x, hx, hlo, hhi⟩, -⟩ := h.session
  have htask : taskSize < 2 ^ 47 := by decide
  have hxw := hp.device x hx
  have huser := h.user
  obtain ⟨hdr, p, hb, ha, -⟩ := h.linked.built d host dev n 0 m (by omega) (by omega) (by omega)
    (by omega)
  exact ⟨h.linked.calling _ _, ⟨hdr, p, hb, ha⟩, h.user, h.frames, h.reachable,
    ⟨c, hc, hpos, hp.device, x, hx, hlo, hhi⟩, h.idle⟩

def GuestSt.copied (env : GuestEnv) (g : GuestSt) (m : MemCmd) (d : Dir) (host dev n : Nat) :
    GuestSt :=
  { g with
    drv := (hmcudaIoctl.run (env.caller g m.copy.cmd.code (d.request host dev n 0)) g.drv).2
    sent := g.sent ++ [⟨m.copy.cmd, d.request host dev n 0⟩] }

theorem PinnedCopy.dispatch_run (h : PinnedCopy env g pt host dev n) (m : MemCmd) (d : Dir) :
    (dispatch m.copy.cmd (d.request host dev n 0) 0).run env g =
      (⟨some 0, none⟩, g.copied env m d host dev n) := by
  obtain ⟨tag, hs⟩ := (h.call m d).sent
  exact h.linked.dispatch_sent hs

theorem PinnedCopy.runtimeCopy_run (h : PinnedCopy env g pt host dev n) (d : Dir) :
    (runtimeCopy d host dev n).run env g = (some 0, g.copied env .memcpy d host dev n) := by
  have hd := h.dispatch_run .memcpy d
  cases d
  · simp only [runtimeCopy, cudaMemcpy, Prog.bind_run, Prog.pure_run]
    exact congrArg (fun x => (x.1.ret, x.2)) hd
  · simp only [runtimeCopy, cudaMemcpy, Prog.bind_run, Prog.pure_run]
    exact congrArg (fun x => (x.1.ret, x.2)) hd

theorem PinnedCopy.sendCuMemcpy_run (h : PinnedCopy env g pt host dev n) (d : Dir) :
    (match d with
      | .htod => sendCuMemcpy dev host n 1 0
      | .dtoh => sendCuMemcpy host dev n 2 0).run env g =
        (some 0, g.copied env .cuMemcpy d host dev n) := by
  have hd := h.dispatch_run .cuMemcpy d
  cases d
  · simp only [sendCuMemcpy, Prog.bind_run, Prog.pure_run, drvDispatch_opened h.linked.transport]
    exact congrArg (fun x => (x.1.ret, x.2)) hd
  · simp only [sendCuMemcpy, Prog.bind_run, Prog.pure_run, drvDispatch_opened h.linked.transport]
    exact congrArg (fun x => (x.1.ret, x.2)) hd

theorem PinnedCopy.pull_run (h : PinnedCopy env g pt host dev n) :
    ((sendCuMemcpy host host n 2 0).run env g).1 = some 0 := by
  obtain ⟨c, hc, hp, -, -, r, hr, o, rfl, hn, hno⟩ := h.session
  have htask : taskSize < 2 ^ 47 := by decide
  have huser := h.user
  obtain ⟨hdr, p, hb, ha, hs⟩ := h.linked.built .dtoh (r.handle + o)
    (r.handle + o) n 0 .cuMemcpy (by omega) (by omega) (by omega) (by omega)
  have hsent := hmcudaIoctl_smooth (h.linked.calling _ _) hb ha hs huser h.frames (by omega)
    h.idle hc (chunksMove_pinnedOut hc (hp.pinnedRange hr hn hno) (resolveStream c 0))
  have hd := h.linked.dispatch_sent hsent
  simp only [sendCuMemcpy, Prog.bind_run, Prog.pure_run, drvDispatch_opened h.linked.transport]
  exact congrArg (fun x => x.1.ret) hd

@[simp] theorem copied_isGpuDirty (m : MemCmd) (va : Nat) :
    (g.copied env m d host dev n).isGpuDirty va = g.isGpuDirty va := by rfl

@[simp] theorem clearGpuDirty_drv (va : Nat) : ((clearGpuDirty va).run env g).2.drv = g.drv := by
  rfl

theorem clearGpuDirty_isGpuDirty (va vb : Nat) : ((clearGpuDirty va).run env g).2.isGpuDirty vb =
    (g.isGpuDirty vb && decide (vb ≠ va)) := by
  show ((Function.update g.hostMem va _ vb).map (·.gpuDirty)).getD false = _
  by_cases h : vb = va
  · subst h
    rw [Function.update_self]
    rcases g.hostMem vb with _ | x <;> simp
  · rw [Function.update_of_ne h]
    simp [h, GuestSt.isGpuDirty]

theorem PinnedCopy.driverCopy_clean (h : PinnedCopy env g pt host dev n)
    (hf : g.isGpuDirty host = false) (d : Dir) :
    ((driverCopy d host dev n).run env g).2.drv = (g.copied env .cuMemcpy d host dev n).drv ∧
      ∀ va, ((driverCopy d host dev n).run env g).2.isGpuDirty va = g.isGpuDirty va := by
  have hd := h.sendCuMemcpy_run d
  cases d
  · have hp : (pullDirty host n 0).run env g = (none, g) := by simp [pullDirty, hf]
    simp only [driverCopy, cuMemcpyHtoD, Prog.bind_run, hp]
    simp only [hd, true_and]
    exact fun _ => rfl
  · simp only [driverCopy, cuMemcpyDtoH, Prog.bind_run, hd]
    simp only [Option.isSome_some, if_true, Prog.bind_run, Prog.pure_run, clearGpuDirty_drv, true_and]
    intro va
    rw [clearGpuDirty_isGpuDirty, copied_isGpuDirty]
    by_cases hva : va = host
    · simp [hva, hf]
    · simp [hva]

theorem sendCuMemcpy_hostMem (dst src n kind stream : Nat) :
    ((sendCuMemcpy dst src n kind stream).run env g).2.hostMem = g.hostMem := by
  simp only [sendCuMemcpy, Prog.bind_run, Prog.pure_run, drvDispatch_hostMem]

theorem PinnedCopy.driverCopy_clears (h : PinnedCopy env g pt host dev n) (d : Dir) :
    ((driverCopy d host dev n).run env g).2.isGpuDirty host = false := by
  rcases hf : g.isGpuDirty host with _ | _
  · rw [(h.driverCopy_clean hf d).2, hf]
  cases d
  · obtain ⟨s', hpull⟩ : ∃ s', (sendCuMemcpy host host n 2 0).run env g = (some 0, s') :=
      ⟨_, Prod.ext h.pull_run rfl⟩
    have hp : (pullDirty host n 0).run env g = (none, ((clearGpuDirty host).run env s').2) := by
      simp only [pullDirty, syncDirtyHostSrcToGuest, Prog.bind_run, Prog.get_run, hf, if_true, hpull,
        Prog.pure_run]
    simp only [driverCopy, cuMemcpyHtoD, Prog.bind_run, hp]
    rw [GuestSt.isGpuDirty, sendCuMemcpy_hostMem]
    exact (clearGpuDirty_isGpuDirty host host).trans (by simp)
  · have hd := h.sendCuMemcpy_run .dtoh
    simp only [driverCopy, cuMemcpyDtoH, Prog.bind_run, hd, Option.isSome_some, if_true,
      Prog.pure_run]
    rw [clearGpuDirty_isGpuDirty]
    simp

/-- A copy between a pinned buffer and device memory has the same effect through either API
exactly when no dirty flag is set for the address it is given. -/
theorem copyApis_agree_iff (h : PinnedCopy env g pt host dev n) (d : Dir) :
    SameEffect ((runtimeCopy d host dev n).run env g).2 ((driverCopy d host dev n).run env g).2 ↔
      g.isGpuDirty host = false := by
  rw [h.runtimeCopy_run d]
  constructor
  · intro hsame
    have hkept : (g.copied env .memcpy d host dev n).isGpuDirty host = g.isGpuDirty host := by simp
    rw [← hkept, hsame.flags host, h.driverCopy_clears d]
  · intro hf
    obtain ⟨hdrv, hflags⟩ := h.driverCopy_clean hf d
    refine ⟨fun va => (hflags va).symm, fun is₁ is₂ h₁ h₂ => ?_⟩
    rw [hdrv] at h₂ ⊢
    exact ((h.call .memcpy d).copied is₁ h₁).unique ((h.call .cuMemcpy d).copied is₂ h₂)

end

/-! A pinned buffer of 8 bytes at 0x7000, device memory at 0x8000 -/

def eightBytesEnv : GuestEnv where
  drv _ := .quiet .quiet fun _ _ => 0
  stack _ _ := 0
  left _ _ := 0
  rpc := false
  opens _ := true

def eightBytesGuest (dirty : Bool) : GuestSt :=
  { GuestSt.start eightBytesSt with
    transport := ⟨false, true⟩
    hostMem := Function.update (fun _ => none) 0x7000 (some ⟨8, dirty⟩) }

theorem eightBytesGuest_copy (dirty : Bool) :
    PinnedCopy eightBytesEnv (eightBytesGuest dirty) id 0x7000 0x8000 8 := by
  obtain ⟨c, hc, hp, hm, hh⟩ := aliasRun_placed 0x8000 (by decide)
  refine ⟨⟨rfl, Nat.le_of_ble_eq_true rfl, fun _ => rfl, fun _ _ _ => rfl, fun _ => rfl, rfl,
    fun _ _ => rfl⟩, by decide, fun _ _ _ _ h => h, aliasRun_reachable 0x8000, eightBytesIn_call.idle,
    ⟨c, hc, hp, ?_, ?_, ?_⟩⟩
  · rw [Context.resFind, hm]
    decide
  · rw [hm]
    exact ⟨_, List.mem_singleton_self _, by decide, by decide⟩
  · rw [hh, hm]
    exact ⟨_, List.mem_singleton_self _, 0, rfl, by decide, by decide⟩

theorem copyApis_agree_iff_clean :
    SameEffect ((runtimeCopy .dtoh 0x7000 0x8000 8).run eightBytesEnv (eightBytesGuest false)).2
      ((driverCopy .dtoh 0x7000 0x8000 8).run eightBytesEnv (eightBytesGuest false)).2 :=
  (copyApis_agree_iff (eightBytesGuest_copy false) .dtoh).mpr rfl

/-- After a kernel has written to the buffer the two leave different flags. -/
theorem copyApis_disagree :
    ¬SameEffect ((runtimeCopy .dtoh 0x7000 0x8000 8).run eightBytesEnv (eightBytesGuest true)).2
      ((driverCopy .dtoh 0x7000 0x8000 8).run eightBytesEnv (eightBytesGuest true)).2 := by
  intro h
  have hc := (eightBytesGuest_copy true).driverCopy_clears .dtoh
  have hflag := h.flags 0x7000
  rw [(eightBytesGuest_copy true).runtimeCopy_run .dtoh, hc] at hflag
  exact absurd hflag (by decide)

end HmCuda
