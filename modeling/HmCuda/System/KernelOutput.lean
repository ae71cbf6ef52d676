import HmCuda.System.LaunchParams
import HmCuda.System.Synchronous

/-! The output of kernels in a pinned buffer, and what a copy makes of it. -/

namespace HmCuda
open Layout AsyncCopy Ranges

/-- A registered buffer: its address and size in the guest, and the backend's `real_ptr`. -/
structure PinnedBuf where
  va : Nat
  size : Nat
  real : Nat

/-- What kernels left in the buffer, as far as neither the CPU nor a copy wrote over it since. -/
abbrev Output := Nat → Option UInt8

section Output
variable (pt : Nat → Nat) (b : PinnedBuf)

def PinnedBuf.guestByte (g : GuestSt) (i : Nat) : UInt8 :=
  g.drv.m.dev.eng.mem (phys pt (b.va + i)).1 (phys pt (b.va + i)).2

def PinnedBuf.realByte (g : GuestSt) (i : Nat) : UInt8 := g.drv.m.dev.eng.mem .uva (b.real + i)

/-- The output after a copy that took `g` to `g'`: a byte is written over when another value was
copied there, on either side. -/
def Output.carry (g g' : GuestSt) (out : Output) : Output := fun i => (out i).filter fun v =>
  b.realByte g' i = v ∧ (b.guestByte pt g' i = b.guestByte pt g i ∨ b.guestByte pt g' i = v)

/-- The output after a copy of `n` bytes to `p` that returned `r`. -/
def Output.fill (r : Option Nat) (p n : Nat) (out : Output) : Output := fun i =>
  if r = some 0 ∧ p ≤ b.va + i ∧ b.va + i < p + n then none else out i

end Output

/-! The steps -/

inductive CopyRoute where
  /-- To device memory, behind a pull of a dirty source. -/
  | pulled (dst src n stream : Nat)
  /-- To the host, and the flag of `dst` is cleared. -/
  | back (dst src n stream : Nat)
  /-- A request by which no flag is read or changed; it fills `n` bytes of the guest. -/
  | sent (drv : Bool) (cmd : Cmd) (req : List UInt8) (dst n : Nat)

def CopyRoute.run : CopyRoute → GuestM (Option Nat)
  | pulled dst src n stream => do
    match ← pullDirty src n stream with
    | some r => return r
    | none => sendCuMemcpy dst src n 1 stream
  | back dst src n stream => do
    let r ← sendCuMemcpy dst src n 2 stream
    if r.isSome then
      clearGpuDirty dst
    return r
  | sent true cmd req _ _ => do return (← drvDispatch cmd req 0).ret
  | sent false cmd req _ _ => do return (← dispatch cmd req 0).ret

inductive CopyCall where
  | cudaMemcpy (dst src n kind : Nat)
  | cuMemcpyHtoD (dst src n : Nat)
  | cuMemcpyDtoH (dst src n : Nat)
  | cuMemcpyAsync (dst src n stream : Nat)

def CopyCall.run : CopyCall → GuestM (Option Nat)
  | cudaMemcpy dst src n kind => HmCuda.cudaMemcpy dst src n kind
  | cuMemcpyHtoD dst src n => HmCuda.cuMemcpyHtoD dst src n
  | cuMemcpyDtoH dst src n => HmCuda.cuMemcpyDtoH dst src n
  | cuMemcpyAsync dst src n stream => HmCuda.cuMemcpyAsync dst src n stream

def CopyCall.route (g : GuestSt) : CopyCall → CopyRoute
  | cudaMemcpy dst src n kind => .sent false (.rt .memcpy) (memcpyRequest dst src n kind 0) dst
      (if kind = 2 then n else 0)
  | cuMemcpyHtoD dst src n => .pulled dst src n 0
  | cuMemcpyDtoH dst src n => .back dst src n 0
  | cuMemcpyAsync dst src n stream =>
    if ¬g.deviceHandles src ∧ g.deviceHandles dst then .pulled dst src n stream
    else if g.deviceHandles src ∧ ¬g.deviceHandles dst then .back dst src n stream
    else .sent true (.drv .cuMemcpyAsync) (request cuMemcpyAsyncReq [dst, src, n, stream]) 0 0

theorem CopyCall.run_route (c : CopyCall) (env : GuestEnv) (g : GuestSt) :
    c.run.run env g = (c.route g).run.run env g := by
  cases c with
  | cudaMemcpy dst src n kind => rfl
  | cuMemcpyHtoD dst src n => rfl
  | cuMemcpyDtoH dst src n => rfl
  | cuMemcpyAsync dst src n stream =>
    unfold CopyCall.run HmCuda.cuMemcpyAsync
    rw [Prog.bind_run, Prog.get_run]
    by_cases h1 : ¬g.deviceHandles src ∧ g.deviceHandles dst
    · have hr : (CopyCall.cuMemcpyAsync dst src n stream).route g = .pulled dst src n stream :=
        if_pos h1
      rw [if_pos h1, hr]
      rfl
    by_cases h2 : g.deviceHandles src ∧ ¬g.deviceHandles dst
    · have hr : (CopyCall.cuMemcpyAsync dst src n stream).route g = .back dst src n stream :=
        (if_neg h1).trans (if_pos h2)
      rw [if_neg h1, if_pos h2, hr]
      rfl
    · have hr : (CopyCall.cuMemcpyAsync dst src n stream).route g = .sent true (.drv .cuMemcpyAsync)
          (request cuMemcpyAsyncReq [dst, src, n, stream]) 0 0 := (if_neg h1).trans (if_neg h2)
      rw [if_neg h1, if_neg h2, hr]
      rfl

structure Launch where
  func : Nat
  grid : Nat × Nat × Nat
  block : Nat × Nat × Nat
  args : Option (Nat → Nat → UInt8)
  sharedMem : Nat
  stream : Nat
  writes : Nat → Bool

def Launch.run (l : Launch) : GuestM (Option Nat) :=
  cudaLaunchKernel l.func l.grid l.block l.args l.sharedMem l.stream

/-- One step of the process: the CPU writes a byte of the buffer, or a call. -/
inductive BufStep where
  | store (i : Nat) (x : UInt8)
  | copy (c : CopyCall)
  | launch (l : Launch)

section Step
variable (env : GuestEnv) (pt : Nat → Nat) (b : PinnedBuf)

/-- The process after the CPU wrote byte `i` of the buffer. -/
def GuestSt.stored (g : GuestSt) (i : Nat) (x : UInt8) : GuestSt :=
  let a := phys pt (b.va + i)
  { g with drv.m := g.drv.m.setMem a.1 (Function.update (g.drv.m.dev.eng.mem a.1) a.2 x) }

def BufStep.next (g : GuestSt) : BufStep → GuestSt
  | store i x => g.stored pt b i x
  | copy c => (c.run.run env g).2
  | launch l => (l.run.run env g).2

def BufStep.returns (g : GuestSt) : BufStep → Bool
  | store _ _ => true
  | copy c => (c.run.run env g).1.isSome
  | launch l => (l.run.run env g).1.isSome

/-- The output after a copy: a pull and the copy behind it are two requests. A pull of the buffer
itself ends none of its output. -/
def CopyRoute.output (g : GuestSt) (out : Output) (r : CopyRoute) : Output :=
  let g' := (r.run.run env g).2
  match r with
  | pulled _ src n stream =>
    let h := ((pullDirty src n stream).run env g).2
    let pulled := if src = b.va then out else out.carry pt b g h
    pulled.carry pt b h g'
  | back dst _ n _ | sent _ _ _ dst n => (out.carry pt b g g').fill b (r.run.run env g).1 dst n

end Step

/-! The flag, and what a step keeps -/

section
variable {env : GuestEnv} {pt : Nat → Nat} {b : PinnedBuf} {g g' : GuestSt} {out : Output}
  {host dev n stream : Nat}

theorem carry_eq_some {i : Nat} {v : UInt8} : out.carry pt b g g' i = some v ↔ out i = some v ∧
    b.realByte g' i = v ∧ (b.guestByte pt g' i = b.guestByte pt g i ∨ b.guestByte pt g' i = v) := by
  simp [Output.carry, Option.filter_eq_some_iff]

def PinnedBuf.Entry (b : PinnedBuf) (g : GuestSt) : Prop := ∃ d, g.hostMem b.va = some ⟨b.size, d⟩

/-- While the flag is clear the guest has the output; the backend's copy has it anyway. -/
structure OutputInv (pt : Nat → Nat) (b : PinnedBuf) (g : GuestSt) (out : Output) : Prop where
  entry : b.Entry g
  inside : ∀ i v, out i = some v → i < b.size
  real : ∀ i v, out i = some v → b.realByte g i = v
  guest : g.isGpuDirty b.va = false → ∀ i v, out i = some v → b.guestByte pt g i = v

theorem OutputInv.mono {out' : Output} (h : OutputInv pt b g out)
    (hsub : ∀ i v, out' i = some v → out i = some v) : OutputInv pt b g out' :=
  ⟨h.entry, fun i v hv => h.inside i v (hsub i v hv), fun i v hv => h.real i v (hsub i v hv),
    fun hf i v hv => h.guest hf i v (hsub i v hv)⟩

theorem OutputInv.fill (h : OutputInv pt b g out) (r : Option Nat) (p n : Nat) :
    OutputInv pt b g (out.fill b r p n) :=
  h.mono fun i v hv => by
    unfold Output.fill at hv
    split at hv
    · cases hv
    · exact hv

theorem OutputInv.carry (h : OutputInv pt b g out) (hentry : b.Entry g')
    (hflag : g'.isGpuDirty b.va = false → g.isGpuDirty b.va = false) :
    OutputInv pt b g' (out.carry pt b g g') where
  entry := hentry
  inside i v hv := h.inside i v (carry_eq_some.mp hv).1
  real i v hv := (carry_eq_some.mp hv).2.1
  guest hf i v hv := by
    obtain ⟨hout, -, hsame | hnew⟩ := carry_eq_some.mp hv
    · exact hsame.trans (h.guest (hflag hf) i v hout)
    · exact hnew

theorem PinnedBuf.Entry.of_hostMem (h : b.Entry g) (hm : g'.hostMem = g.hostMem) : b.Entry g' := by
  obtain ⟨d, hd⟩ := h
  exact ⟨d, by rw [hm]; exact hd⟩

variable (env) in
theorem PinnedBuf.Entry.setGpuDirty (h : b.Entry g) (d : Bool) (va : Nat) :
    b.Entry ((setGpuDirty d va).run env g).2 := by
  obtain ⟨x, hx⟩ := h
  show ∃ y, Function.update g.hostMem va _ b.va = _
  by_cases hva : b.va = va
  · subst hva
    exact ⟨d, by rw [Function.update_self, hx]; rfl⟩
  · exact ⟨x, by rw [Function.update_of_ne hva, hx]⟩

theorem isGpuDirty_congr (hm : g'.hostMem = g.hostMem) (va : Nat) :
    g'.isGpuDirty va = g.isGpuDirty va := by
  rw [GuestSt.isGpuDirty, hm]
  rfl

/-! The copies that clear the flag -/

/-- The next request of the process goes well on `n` bytes at `host`; no copy is pending. -/
structure NextGood (env : GuestEnv) (pt : Nat → Nat) (g : GuestSt) (host n : Nat) : Prop where
  linked : Linked env g pt
  user : host + n ≤ taskSize
  frames : Separate pt host n
  idle : g.drv.m.dev.eng.pending = []

/-- The session knows the buffer, and no device range holds one of its addresses. -/
structure PullReady (env : GuestEnv) (pt : Nat → Nat) (b : PinnedBuf) (g : GuestSt) : Prop where
  good : NextGood env pt g b.va b.size
  session : ∃ c, g.drv.m.tab.ctxGet (env.drv g.sent.length).key = some c ∧ Placed c ∧
    (∃ r ∈ c.resources .hostMem, r.handle = b.va ∧ r.realPtr = b.real ∧ r.size = b.size) ∧
    ∀ i < b.size, ¬∃ x ∈ c.resources .mem, Inside Resource.handle Resource.size x (b.va + i)

/-- The session has `n` bytes of device memory at `dev`. -/
structure FillReady (env : GuestEnv) (pt : Nat → Nat) (g : GuestSt) (host dev n : Nat) : Prop where
  good : NextGood env pt g host n
  session : ∃ c, g.drv.m.tab.ctxGet (env.drv g.sent.length).key = some c ∧ 0 < dev ∧
    dev + n < 2 ^ 64 ∧ ∀ i < n, c.resGet .mem (dev + i) = dev + i

theorem NextGood.send (h : NextGood env pt g host n) (d : Dir) {u dev stream real tag : Nat}
    (hs : RangeSent .cuMemcpy d pt real u tag n (env.drv g.sent.length).caller g.drv
      (hmcudaIoctl.run (env.caller g MemCmd.cuMemcpy.copy.cmd.code (d.request u dev n stream))
        g.drv)) :
    (do return (← drvDispatch (.drv .cuMemcpy) (d.request u dev n stream) 0).ret).run env g =
      (some 0, { g with
        drv := (hmcudaIoctl.run (env.caller g MemCmd.cuMemcpy.copy.cmd.code
          (d.request u dev n stream)) g.drv).2
        sent := g.sent ++ [⟨.drv .cuMemcpy, d.request u dev n stream⟩] }) := by
  have hd := h.linked.dispatch_sent hs
  simp only [Prog.bind_run, Prog.pure_run, drvDispatch_opened h.linked.transport]
  exact congrArg (fun x => (x.1.ret, x.2)) hd

theorem FillReady.send (h : FillReady env pt g host dev n) (hs : stream < 2 ^ 64) :
    ((sendCuMemcpy host dev n 2 stream).run env g).1 = some 0 := by
  obtain ⟨c, hc, hpos, hwrap, hmem⟩ := h.session
  have htask : taskSize < 2 ^ 47 := by decide
  have huser := h.good.user
  obtain ⟨hdr, p, hb, ha, hst⟩ := h.good.linked.built .dtoh host dev n stream .cuMemcpy (by omega)
    (by omega) (by omega) hs
  have hcall := h.good.linked.calling MemCmd.cuMemcpy.copy.cmd.code
    (Dir.dtoh.request host dev n stream)
  have hsent := hmcudaIoctl_smooth hcall hb ha hst huser h.good.frames hwrap h.good.idle hc
    (chunksMove_mem hcall.ret hc hwrap (fun _ => hpos) hmem)
  exact congrArg Prod.fst (h.good.send .dtoh hsent)

theorem PullReady.send (h : PullReady env pt b g) (hs : stream < 2 ^ 64) :
    ((sendCuMemcpy b.va b.va b.size 2 stream).run env g).1 = some 0 ∧ ∀ i < b.size,
      b.guestByte pt ((sendCuMemcpy b.va b.va b.size 2 stream).run env g).2 i = b.realByte g i ∧
      b.realByte ((sendCuMemcpy b.va b.va b.size 2 stream).run env g).2 i = b.realByte g i := by
  obtain ⟨c, hc, hp, ⟨r, hr, hva, hreal, hsize⟩, hno⟩ := h.session
  have hframes := h.good.frames
  have hpull := h.good.linked.pull_sent (r := r) (n := b.size) (by rw [hva]; exact h.good.user)
    (by rw [hva]; exact hframes) h.good.idle hc hp hr hsize.ge (by rw [hva]; exact hno) hs
  rw [hva, hreal] at hpull
  obtain ⟨hsent, hidle⟩ := hpull
  have hsend : (sendCuMemcpy b.va b.va b.size 2 stream).run env g = _ := h.good.send .dtoh hsent
  rw [hsend]
  refine ⟨rfl, fun i hi => ?_⟩
  obtain ⟨cs, hsub⟩ := hsent.subm
  have hcopied := hsub.copied hframes [] hidle
  exact ⟨hcopied.moved i hi, hcopied.frame .uva _ (.inr rfl) fun _ _ => nofun⟩

/-! One step -/

theorem pullDirty_clean {src n : Nat} (hf : g.isGpuDirty src = false) :
    (pullDirty src n stream).run env g = (none, g) := by
  simp [pullDirty, hf]

theorem pullDirty_dirty {src n : Nat} (hf : g.isGpuDirty src = true) :
    ((pullDirty src n stream).run env g).2 =
      if ((sendCuMemcpy src src n 2 stream).run env g).1 = some 0 then
        ((clearGpuDirty src).run env ((sendCuMemcpy src src n 2 stream).run env g).2).2
      else ((sendCuMemcpy src src n 2 stream).run env g).2 := by
  simp only [pullDirty, syncDirtyHostSrcToGuest, Prog.bind_run, Prog.get_run, hf, if_true,
    Prog.pure_run]
  split <;> rfl

variable (env) in
theorem PinnedBuf.Entry.sendCuMemcpy (he : b.Entry g) (dst src n kind stream : Nat) :
    b.Entry ((sendCuMemcpy dst src n kind stream).run env g).2 :=
  he.of_hostMem (sendCuMemcpy_hostMem _ _ _ _ _)

theorem OutputInv.pull (h : OutputInv pt b g out) {src n : Nat} (hs : stream < 2 ^ 64)
    (hready : src = b.va → g.isGpuDirty b.va = true → n = b.size ∧ PullReady env pt b g) :
    OutputInv pt b ((pullDirty src n stream).run env g).2
      (if src = b.va then out else out.carry pt b g ((pullDirty src n stream).run env g).2) := by
  have hentry := h.entry.sendCuMemcpy env src src n 2 stream
  have hsame : ((sendCuMemcpy src src n 2 stream).run env g).2.isGpuDirty b.va =
      g.isGpuDirty b.va := isGpuDirty_congr (sendCuMemcpy_hostMem _ _ _ _ _) _
  rcases hf : g.isGpuDirty src with _ | _
  · rw [pullDirty_clean hf]
    split
    · exact h
    · exact h.carry h.entry id
  by_cases hsrc : src = b.va
  · -- the flag of the buffer was set, so its output has to come with the pull
    subst hsrc
    obtain ⟨rfl, hr⟩ := hready rfl hf
    obtain ⟨hret, hbytes⟩ := hr.send hs
    rw [pullDirty_dirty hf, if_pos hret, if_pos rfl]
    refine ⟨hentry.setGpuDirty env false _, h.inside, fun i v hv => ?_, fun _ i v hv => ?_⟩
    · exact (hbytes i (h.inside i v hv)).2.trans (h.real i v hv)
    · exact (hbytes i (h.inside i v hv)).1.trans (h.real i v hv)
  · rw [pullDirty_dirty hf, if_neg hsrc]
    split
    · refine h.carry (hentry.setGpuDirty env false _) fun hc => ?_
      have hflag : ((clearGpuDirty src).run env
          ((sendCuMemcpy src src n 2 stream).run env g).2).2.isGpuDirty b.va = _ :=
        clearGpuDirty_isGpuDirty src b.va
      rw [hflag, hsame, decide_eq_true (Ne.symm hsrc), Bool.and_true] at hc
      exact hc
    · exact h.carry hentry fun hc => hsame ▸ hc

theorem OutputInv.pulled (h : OutputInv pt b g out) {dst src n : Nat} (hs : stream < 2 ^ 64)
    (hready : src = b.va → g.isGpuDirty b.va = true → n = b.size ∧ PullReady env pt b g) :
    OutputInv pt b ((CopyRoute.pulled dst src n stream).run.run env g).2
      ((CopyRoute.pulled dst src n stream).output env pt b g out) := by
  have hp := h.pull hs hready
  have hrun : ((CopyRoute.pulled dst src n stream).run.run env g).2.hostMem =
      ((pullDirty src n stream).run env g).2.hostMem := by
    simp only [CopyRoute.run, Prog.bind_run]
    split
    · rfl
    · exact sendCuMemcpy_hostMem _ _ _ _ _
  exact hp.carry (hp.entry.of_hostMem hrun) fun hc => (isGpuDirty_congr hrun _) ▸ hc

theorem OutputInv.back (h : OutputInv pt b g out) {dst src n : Nat} (hs : stream < 2 ^ 64)
    (hready : dst = b.va → g.isGpuDirty b.va = true →
      n = b.size ∧ FillReady env pt g b.va src b.size) :
    OutputInv pt b ((CopyRoute.back dst src n stream).run.run env g).2
      ((CopyRoute.back dst src n stream).output env pt b g out) := by
  have hentry := h.entry.sendCuMemcpy env dst src n 2 stream
  have hsame : ((sendCuMemcpy dst src n 2 stream).run env g).2.isGpuDirty b.va =
      g.isGpuDirty b.va := isGpuDirty_congr (sendCuMemcpy_hostMem _ _ _ _ _) _
  have hstate : ((CopyRoute.back dst src n stream).run.run env g).2 =
      if ((sendCuMemcpy dst src n 2 stream).run env g).1.isSome then
        ((clearGpuDirty dst).run env ((sendCuMemcpy dst src n 2 stream).run env g).2).2
      else ((sendCuMemcpy dst src n 2 stream).run env g).2 := by
    simp only [CopyRoute.run, Prog.bind_run]
    split <;> rfl
  have hret : ((CopyRoute.back dst src n stream).run.run env g).1 =
      ((sendCuMemcpy dst src n 2 stream).run env g).1 := by
    simp only [CopyRoute.run, Prog.bind_run]
    split <;> rfl
  have hentry' : b.Entry ((CopyRoute.back dst src n stream).run.run env g).2 := by
    rw [hstate]
    split
    · exact hentry.setGpuDirty env false _
    · exact hentry
  by_cases hlost : dst = b.va ∧ g.isGpuDirty b.va = true
  · -- the whole buffer was filled, so no output is left
    obtain ⟨rfl, hf⟩ := hlost
    obtain ⟨rfl, hr⟩ := hready rfl hf
    have hnone (i : Nat) : (CopyRoute.back b.va src b.size stream).output env pt b g out i = none := by
      rcases ho : (CopyRoute.back b.va src b.size stream).output env pt b g out i with _ | v
      · rfl
      have ho : (if ((CopyRoute.back b.va src b.size stream).run.run env g).1 = some 0 ∧
        b.va ≤ b.va + i ∧ b.va + i < b.va + b.size then none else out.carry pt b g
          ((CopyRoute.back b.va src b.size stream).run.run env g).2 i) = some v := ho
      split at ho
      · cases ho
      next hno =>
        have hi := h.inside i v (carry_eq_some.mp ho).1
        exact absurd ⟨hret.trans (hr.send hs), by omega, by omega⟩ hno
    refine ⟨hentry', fun i v hv => ?_, fun i v hv => ?_, fun _ i v hv => ?_⟩
    all_goals
      rw [hnone] at hv
      cases hv
  · refine (h.carry hentry' fun hc => ?_).fill _ _ _
    rw [hstate] at hc
    split at hc
    · rw [clearGpuDirty_isGpuDirty, hsame] at hc
      rcases hf : g.isGpuDirty b.va with _ | _
      · rfl
      · have hne : b.va ≠ dst := fun he => hlost ⟨he.symm, hf⟩
        simp [hf, hne] at hc
    · rwa [hsame] at hc

theorem OutputInv.sent (h : OutputInv pt b g out) (drv : Bool) (cmd : Cmd) (req : List UInt8)
    (dst n : Nat) : OutputInv pt b ((CopyRoute.sent drv cmd req dst n).run.run env g).2
      ((CopyRoute.sent drv cmd req dst n).output env pt b g out) := by
  have hm : ((CopyRoute.sent drv cmd req dst n).run.run env g).2.hostMem = g.hostMem := by
    cases drv
    · exact dispatch_hostMem _ _ _ _ _
    · exact drvDispatch_hostMem _ _ _ _ _
  exact (h.carry (h.entry.of_hostMem hm) fun hc => (isGpuDirty_congr hm _) ▸ hc).fill _ _ _

/-! A launch -/

variable (env) in
theorem syncArgs_hostMem (ptrs : List Nat) :
    ((syncArgs ptrs).run env g).2.hostMem = g.hostMem :=
  keeps_syncArgs (P := fun s => s.hostMem = g.hostMem) (fun _ _ _ _ h => h) ptrs env g rfl

variable (env) in
theorem marks_isGpuDirty (he : b.Entry g) (ptrs : List Nat) :
    b.Entry ((Prog.forEach markGpuDirty ptrs).run env g).2 ∧
      (((Prog.forEach markGpuDirty ptrs).run env g).2.isGpuDirty b.va = true ↔
        g.isGpuDirty b.va = true ∨ b.va ∈ ptrs) := by
  induction ptrs generalizing g with
  | nil => exact ⟨he, by simp [Prog.forEach]⟩
  | cons p ptrs ih =>
    have hmark := he.setGpuDirty env true p
    obtain ⟨h1, h2⟩ := ih hmark
    refine ⟨h1, h2.trans ?_⟩
    have hp : ((setGpuDirty true p).run env g).2.isGpuDirty b.va = true ↔
        g.isGpuDirty b.va = true ∨ b.va = p := by
      obtain ⟨d, hd⟩ := he
      show ((Function.update g.hostMem p _ b.va).map (·.gpuDirty)).getD false = true ↔ _
      by_cases hva : b.va = p
      · subst hva
        rw [Function.update_self, hd]
        simp
      · rw [Function.update_of_ne hva]
        simp [hva, GuestSt.isGpuDirty]
    rw [hp, List.mem_cons, or_assoc]

def Launch.ptrs (l : Launch) (fi : FuncInfo) : List Nat :=
  if l.args.isSome then (List.range fi.paramCount).map fun i => Bytes.val (argWord l.args i) else []

theorem Launch.run_marks (l : Launch) {fi : FuncInfo} (hf : g.funcs l.func = some fi)
    (hret : (l.run.run env g).1.isSome) : ∃ g', g'.hostMem = g.hostMem ∧
      (l.run.run env g).2 = ((Prog.forEach markGpuDirty (l.ptrs fi)).run env g').2 := by
  have hsync := syncArgs_hostMem env (g := g) (l.ptrs fi)
  unfold Launch.run cudaLaunchKernel at hret ⊢
  simp only [Prog.bind_run, Prog.get_run] at hret ⊢
  simp only [hf, Prog.bind_run] at hret ⊢
  unfold Launch.ptrs at hsync ⊢
  generalize (syncArgs (if l.args.isSome then (List.range fi.paramCount).map fun i =>
    Bytes.val (argWord l.args i) else [])).run env g = p at hret hsync ⊢
  obtain ⟨o, g'⟩ := p
  rcases o with _ | ⟨⟨⟩⟩
  · simp at hret
  simp only [Prog.bind_run, Prog.ite_run, Prog.pure_run] at hret ⊢
  split at hret
  next hsome =>
    rw [if_pos hsome]
    exact ⟨_, (dispatch_hostMem _ _ _ _ _).trans hsync, rfl⟩
  next hnone => exact absurd hret hnone

/-! The copies that keep the output -/

/-- A copy that clears the flag of the buffer while it is set covers the whole buffer, and goes
well. -/
def CopyRoute.Careful (env : GuestEnv) (pt : Nat → Nat) (b : PinnedBuf) (g : GuestSt) :
    CopyRoute → Prop
  | pulled _ src n stream => stream < 2 ^ 64 ∧
      (src = b.va → g.isGpuDirty b.va = true → n = b.size ∧ PullReady env pt b g)
  | back dst src n stream => stream < 2 ^ 64 ∧ (dst = b.va → g.isGpuDirty b.va = true →
      n = b.size ∧ FillReady env pt g b.va src b.size)
  | sent _ _ _ _ _ => True

theorem OutputInv.copy (h : OutputInv pt b g out) (c : CopyCall)
    (hok : (c.route g).Careful env pt b g) :
    OutputInv pt b ((BufStep.copy c).next env pt b g) ((c.route g).output env pt b g out) := by
  have hnext : (BufStep.copy c).next env pt b g = ((c.route g).run.run env g).2 :=
    congrArg Prod.snd (c.run_route env g)
  rw [hnext]
  generalize c.route g = r at hok ⊢
  cases r with
  | pulled dst src n stream => exact h.pulled hok.1 hok.2
  | back dst src n stream => exact h.back hok.1 hok.2
  | sent drv cmd req dst n => exact h.sent drv cmd req dst n

end

/-! A kernel that writes byte 4 of the 8 bytes at 0x7000 -/

def writerEnv : GuestEnv :=
  { eightBytesEnv with
    drv := fun _ => .quiet { Env.quiet with
      paramSizes := fun _ => [8]
      effect := fun _ c m => if c.fn = .cuLaunchKernel then Function.update m 0x9004 2 else m }
        fun _ _ => 0 }

def writerGuest : GuestSt :=
  { eightBytesGuest false with
    drv := { eightBytesSt with
      m := { aliasRun 0x8000 with
        tab := (aliasRun 0x8000).tab.resAddWithHandle ⟨1, 1⟩ .function 0x2000 0 0x1000 } }
    funcs := fun f => if f = 0x1000 then some ⟨0x1000, 1⟩ else none }

def writerLaunch : BufStep := .launch
  ⟨0x1000, (1, 1, 1), (1, 1, 1), some fun _ j => (Bytes.le 8 0x7000).getD j 0, 0, 0, fun i => i = 4⟩

def eightBuf : PinnedBuf := ⟨0x7000, 8, 0x9000⟩

def writerRan : GuestSt := writerLaunch.next writerEnv id eightBuf writerGuest

theorem writerRan_tables :
    (writerRan.drv.m.tab.ctxGet ⟨1, 1⟩).map (fun c => (c.resources .mem, c.resources .hostMem)) =
      some ([⟨0x8000, 0x8000, 64⟩], [⟨0x7000, 0x9000, 8⟩]) := by
  decide +kernel

theorem writerEnv_linked {g : GuestSt} (hrpc : g.transport.rpc = false)
    (hopen : g.transport.opened = true) : Linked writerEnv g id :=
  have hs (k : Nat) : Smooth (writerEnv.drv k) id :=
    ⟨fun _ => rfl, fun _ _ _ => rfl, fun _ => rfl, rfl, fun _ _ => rfl⟩
  have ha (k : Nat) : (writerEnv.drv k).arg + dispatchLen (sizeof memcpyReq) 0 ≤ taskSize :=
    Nat.le_of_ble_eq_true rfl
  ⟨congrArg₂ Transport.mk hrpc hopen, ha _, hs _⟩

theorem writerRan_pull : PullReady writerEnv id eightBuf writerRan := by
  obtain ⟨c, hc, htab⟩ := Option.map_eq_some_iff.mp writerRan_tables
  obtain ⟨hm, hh⟩ := Prod.mk.inj htab
  have hlinked : Linked writerEnv writerRan id :=
    writerEnv_linked (by decide +kernel) (by decide +kernel)
  refine ⟨⟨hlinked, by decide, fun _ _ _ _ h => h, by decide +kernel⟩, c, hc,
    placed_alias (by decide) hm hh, ?_, ?_⟩
  · rw [hh]
    exact ⟨_, List.mem_singleton_self _, rfl, rfl, rfl⟩
  · rw [hm]
    decide

end HmCuda
