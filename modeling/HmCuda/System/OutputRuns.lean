import HmCuda.System.GuestMemory
import HmCuda.System.KernelInput
import HmCuda.System.Payload

/-! Runs of launches, kernels, copies and CPU writes on a pinned buffer: while its dirty flag is
clear the guest has the kernels' output, and no push before a launch brings back an older byte. -/

namespace HmCuda
open Layout AsyncCopy Ranges

/-! A request without data leaves the guest's RAM alone -/

section
variable {e : DrvEnv} {c : Cmd} {s : DrvSt} {K : Nat → Prop} {a : Nat}

/-- No copy that is pending ends in the bytes `K` of the guest's RAM. -/
def RamSpared (K : Nat → Prop) (s : DrvSt) : Prop :=
  ∀ x ∈ s.m.dev.eng.pending, ∀ p ∈ x.dsts, ¬(p.1 = .ram ∧ K p.2)

theorem hmcudaIoctl_plain_ram (hm : ¬isMemcpy c.code)
    (hc : ∀ hdr, e.fetch 0 0 (sizeof reqHeader) = some hdr → reqHeader.cmdType.get hdr = c.code)
    (h : RamSpared K s) (ha : K a) :
    (hmcudaIoctl.run e s).2.m.dev.eng.mem .ram a = s.m.dev.eng.mem .ram a := by
  have foreign : Foreign fun sp a => sp = .ram ∧ K a := by
    rintro sp a ⟨rfl, -⟩
    exact ⟨by simp, by simp⟩
  by_cases hs : ∃ n m img, Sent e c n m img
  · obtain ⟨n, m, img, hs⟩ := hs
    obtain ⟨evs, hst, -⟩ := hmcudaIoctl_answered hs hm s
    have hstart : BytesKept (fun sp a => sp = .ram ∧ K a) s.m.dev.eng.mem (s.showing e img).dev := by
      refine ⟨h, ?_⟩
      rintro sp a ⟨rfl, -⟩
      exact congrFun (showing_mem (by simp)) a
    have hran : BytesKept (fun sp a => sp = .ram ∧ K a) s.m.dev.eng.mem
        (plainReply e c n m (s.showing e img)).2.be.dev := by
      refine dispatchCmd_kept (bytesKept_kept foreign) foreign.ownMemory c.code ?_ hstart
      refine ⟨fun v hv => absurd hv List.not_mem_nil, fun hcmd => ?_⟩
      rw [Cmd.ofCode_code] at hcmd
      exact absurd (.inl (by rw [Option.some.inj hcmd]; rfl)) hm
    have hidle := (bytesKept_kept foreign).idle
      ⟨e.sys, (plainReply e c n m (s.showing e img)).2.be.tab⟩ _ hran
    rw [hst]
    have hw : ∀ w ∈ (plainServed e c n m (s.showing e img)).writes, w.sp ≠ .ram := by
      rw [plainServed_writes hs]
      intro w hw
      rw [List.mem_singleton.mp hw]
      simp
    exact (congrFun (applyWrites_other hw _) a).trans (hidle.mem .ram a ⟨rfl, ha⟩)
  · have hs (n m : Nat) (img : Nat → UInt8) : ¬Sent e c n m img := fun hsent => hs ⟨n, m, img, hsent⟩
    obtain ⟨f, hf⟩ := (hmcudaIoctl_refused hm hc hs s).2.m
    rw [hf]
    exact congrFun (mem_setMem_of_ne s.m (by simp) f) a

theorem dispatch_plain_ram {env : GuestEnv} {g : GuestSt} (hm : ¬isMemcpy c.code)
    (req : List UInt8) (respLen : Nat) (h : RamSpared K g.drv) (ha : K a) :
    ((dispatch c req respLen).run env g).2.drv.m.dev.eng.mem .ram a = g.drv.m.dev.eng.mem .ram a := by
  have hioctl := hmcudaIoctl_plain_ram (a := a) hm
    ((Call.mk g.transport (env.stack g.sent.length) c req respLen).header (env.drv g.sent.length))
    h ha
  show ((transportDispatch g.transport (env.stack g.sent.length) c.code req respLen).run
    (env.drv g.sent.length) g.drv).2.m.dev.eng.mem .ram a = _
  unfold transportDispatch
  dsimp only
  split
  · rfl
  split
  · rfl
  · exact hioctl

end

/-! The steps -/

/-- A step of a run: the CPU writes a byte, a call, or a kernel writes bytes of the buffer. -/
inductive OutputStep where
  | call (x : BufStep)
  | kernel (f : Output)

section
variable (env : GuestEnv) (pt : Nat → Nat) (b : PinnedBuf)

/-- The process after a kernel wrote `f` to the backend's bytes of the buffer. -/
def GuestSt.kernelWrote (g : GuestSt) (f : Output) : GuestSt :=
  let mem := g.drv.m.dev.eng.mem .uva
  { g with drv.m := g.drv.m.setMem .uva fun a =>
      if b.real ≤ a ∧ a < b.real + b.size then (f (a - b.real)).getD (mem a) else mem a }

def OutputStep.next (g : GuestSt) : OutputStep → GuestSt
  | call x => x.next env pt b g
  | kernel f => g.kernelWrote b f

def OutputStep.returns (g : GuestSt) : OutputStep → Bool
  | call x => x.returns env g
  | kernel _ => true

/-- The output after a step. What a launch pushes ends none of it. -/
def OutputStep.output (g : GuestSt) (out : Output) (x : OutputStep) : Output :=
  match x with
  | call (.store i _) => fun j => if phys pt (b.va + j) = phys pt (b.va + i) then none else out j
  | call (.copy c) => (c.route g).output env pt b g out
  | call (.launch l) => fun i =>
    if i < b.size ∧ l.writes i then some (b.realByte (l.run.run env g).2 i) else out i
  | kernel f => fun i => if i < b.size then (f i).or (out i) else out i

/-- The runs from `g₀`, in which kernels have written nothing yet. -/
inductive OutputRun (ok : GuestSt → OutputStep → Prop) (g₀ : GuestSt) : GuestSt → Output → Prop
  | start : OutputRun ok g₀ g₀ fun _ => none
  | step {g : GuestSt} {out : Output} (x : OutputStep) (run : OutputRun ok g₀ g out) (hok : ok g x)
      (returns : x.returns env g) :
      OutputRun ok g₀ (x.next env pt b g) (x.output env pt b g out)

/-- What a launch rests on: if its kernel writes the buffer at once, the buffer's address is an
argument or the flag is set; its pushes go well, and a push of the buffer translates no word. -/
structure Launch.Careful (g : GuestSt) (l : Launch) : Prop where
  named : (∃ i < b.size, l.writes i = true) →
    ∃ ptrs, l.pointers g = some ptrs ∧ (b.va ∈ ptrs ∨ g.isGpuDirty b.va = true)
  writes : ∀ g', l.sending env g = some g' → ∀ i < b.size, l.writes i = false →
    b.realByte (l.run.run env g).2 i = b.realByte g' i
  pushes : ∀ ptrs, l.pointers g = some ptrs → ∃ c, PushReady env pt b c g ptrs ∧
    (b.va ∈ ptrs → g.isGpuDirty b.va = false → PushesAnswered env b ptrs g ∧
      ∀ i < b.size, Untranslated c (userBytes pt g.drv.m.dev.eng.mem b.va b.size) i)

/-- Copies that clear the flag bring the whole output, launches push what they should, and a kernel
writes while the flag is set. -/
def OutputStep.Careful (g : GuestSt) : OutputStep → Prop
  | call (.store _ _) => True
  | call (.copy c) => (c.route g).Careful env pt b g
  | call (.launch l) => l.Careful env pt b g
  | kernel f => (∃ i < b.size, (f i).isSome) → g.isGpuDirty b.va = true

end

/-! One step -/

section
variable {env : GuestEnv} {pt : Nat → Nat} {b : PinnedBuf} {g g' g₀ : GuestSt} {out : Output}
  {l : Launch} {i : Nat} {u v : UInt8}

theorem OutputInv.store (h : OutputInv pt b g out) (i : Nat) (x : UInt8) :
    OutputInv pt b (g.stored pt b i x)
      ((OutputStep.call (.store i x)).output env pt b g out) := by
  have kept {j : Nat} {v : UInt8}
      (hv : (OutputStep.call (.store i x)).output env pt b g out j = some v) :
      out j = some v ∧ phys pt (b.va + j) ≠ phys pt (b.va + i) := by
    have hv : (if phys pt (b.va + j) = phys pt (b.va + i) then none else out j) = some v := hv
    split at hv
    · cases hv
    next hne => exact ⟨hv, hne⟩
  refine ⟨h.entry, fun j v hv => h.inside j v (kept hv).1, fun j v hv => ?_, fun hf j v hv => ?_⟩
  · have hsp : Space.uva ≠ (phys pt (b.va + i)).1 := by simp [phys]
    exact (congrFun (mem_setMem_of_ne _ hsp _) _).trans (h.real j v (kept hv).1)
  · obtain ⟨hout, hne⟩ := kept hv
    refine Eq.trans ?_ (h.guest hf j v hout)
    have hne2 : (phys pt (b.va + j)).2 ≠ (phys pt (b.va + i)).2 := fun heq => hne (Prod.ext rfl heq)
    exact (congrFun (mem_setMem_self _ _ _) _).trans (Function.update_of_ne hne2 _ _)

theorem OutputInv.kernel (h : OutputInv pt b g out) (f : Output)
    (hok : (∃ i < b.size, (f i).isSome) → g.isGpuDirty b.va = true) :
    OutputInv pt b (g.kernelWrote b f) ((OutputStep.kernel f).output env pt b g out) := by
  have cases {i : Nat} {v : UInt8} (hv : (OutputStep.kernel f).output env pt b g out i = some v) :
      i < b.size ∧ (f i = some v ∨ f i = none ∧ out i = some v) := by
    have hv : (if i < b.size then (f i).or (out i) else out i) = some v := hv
    split at hv
    next hi => exact ⟨hi, Option.or_eq_some_iff.mp hv⟩
    next hi => exact absurd (h.inside i v hv) hi
  have hbyte {i : Nat} (hi : i < b.size) :
      b.realByte (g.kernelWrote b f) i = (f i).getD (b.realByte g i) := by
    refine (congrFun (mem_setMem_self _ _ _) _).trans ?_
    rw [if_pos ⟨Nat.le_add_right _ _, Nat.add_lt_add_left hi _⟩, Nat.add_sub_cancel_left]
    rfl
  refine ⟨h.entry, fun i v hv => (cases hv).1, fun i v hv => ?_, fun hf i v hv => ?_⟩
  · obtain ⟨hi, hnew | ⟨hno, hout⟩⟩ := cases hv
    · rw [hbyte hi, hnew]
      rfl
    · rw [hbyte hi, hno]
      exact h.real i v hout
  · obtain ⟨hi, hnew | ⟨-, hout⟩⟩ := cases hv
    · -- the flag is set while a kernel writes
      have hset : g.isGpuDirty b.va = true := hok ⟨i, hi, by rw [hnew]; rfl⟩
      have hf : g.isGpuDirty b.va = false := hf
      rw [hset] at hf
      cases hf
    · have hsp : (phys pt (b.va + i)).1 ≠ Space.uva := by simp [phys]
      exact (congrFun (mem_setMem_of_ne _ hsp _) _).trans (h.guest hf i v hout)

theorem PullReady.kernelWrote (h : PullReady env pt b g) (f : Output) :
    PullReady env pt b (g.kernelWrote b f) :=
  have hl := h.good.linked
  ⟨⟨⟨hl.transport, hl.arg, hl.smooth⟩, h.good.user, h.good.frames, h.good.idle⟩, h.session⟩

theorem OutputInv.sees (h : OutputInv pt b g out) (hl : l.Careful env pt b g)
    (hout : out i = some v) (hu : l.sees env b g i = some u) : u = v := by
  have hi := h.inside i v hout
  obtain ⟨g', hs, rfl⟩ := Option.map_eq_some_iff.mp hu
  obtain ⟨ptrs, hptrs, hsync⟩ := Option.bind_eq_some_iff.mp hs
  have hsync : (syncArgs ptrs).run env g = (some (), g') := by
    rcases hrun : (syncArgs ptrs).run env g with ⟨_ | _, g₁⟩
    · simp [hrun] at hsync
    · simpa [hrun] using hsync
  obtain ⟨c, hready, hown⟩ := hl.pushes ptrs hptrs
  obtain ⟨-, hpushed, hsame⟩ := syncArgs_input hready h.entry hsync
  by_cases hin : b.va ∈ ptrs ∧ g.pushes b.va = true
  · have hclear := h.entry.pushes.mp hin.2
    obtain ⟨hanswered, hplain⟩ := hown hin.1 hclear
    rw [hpushed hin.1 hin.2 hanswered i hi, (hplain i hi).getD hready.hosted.placed]
    rw [← h.guest hclear i v hout]
    simp [userBytes, PinnedBuf.guestByte, hi, phys]
  · rw [hsame hin i hi, h.real i v hout]

/-- Behind its pushes a launch leaves the guest's bytes of the buffer alone, and the flag is set
if it was, or if the buffer's address is an argument. -/
theorem launch_behind (he : b.Entry g) (hl : l.Careful env pt b g) {ptrs : List Nat}
    (hptrs : l.pointers g = some ptrs) (hret : (l.run.run env g).1.isSome) :
    ((l.run.run env g).2.isGpuDirty b.va = true ↔ g.isGpuDirty b.va = true ∨ b.va ∈ ptrs) ∧
      (∃ g', l.sending env g = some g') ∧
      ∀ i < b.size, b.guestByte pt (l.run.run env g).2 i = b.guestByte pt g i := by
  obtain ⟨fi, hf, rfl⟩ := Option.map_eq_some_iff.mp hptrs
  obtain ⟨g₁, hm, hmarks⟩ := l.run_marks hf hret
  have hflag := (marks_isGpuDirty env (he.of_hostMem hm) (l.ptrs fi)).2
  rw [isGpuDirty_congr hm, ← hmarks] at hflag
  obtain ⟨c, hready, -⟩ := hl.pushes _ hptrs
  have hsent : ∃ g', (syncArgs (l.ptrs fi)).run env g = (some (), g') := by
    rcases hrun : (syncArgs (l.ptrs fi)).run env g with ⟨_ | ⟨⟨⟩⟩, g'⟩
    · unfold Launch.ptrs at hrun
      unfold Launch.run cudaLaunchKernel at hret
      simp only [Prog.bind_run, Prog.get_run] at hret
      simp only [hf, Prog.bind_run, hrun] at hret
      simp at hret
    · exact ⟨g', rfl⟩
  obtain ⟨g', hsync⟩ := hsent
  have hsending : l.sending env g = some g' := by
    rw [Launch.sending, hptrs, Option.bind_some, hsync]
  refine ⟨hflag, ⟨g', hsending⟩, fun i hi => ?_⟩
  obtain ⟨hkeep, -, -⟩ := syncArgs_input hready he hsync
  obtain ⟨fj, hfj, hrun⟩ := Launch.run_sending hsending
  obtain rfl := Option.some.inj (hf.symm.trans hfj)
  have hspared : RamSpared (fun a => ∃ i < b.size, phys pt (b.va + i) = (.ram, a)) g'.drv := by
    rintro x hx p hp ⟨hsp, j, hj, heq⟩
    refine (hready.free x (hkeep.pending x hx) j hj).1 ?_
    rw [heq, ← hsp]
    exact hp
  have hplain : ¬isMemcpy (Cmd.rt .launchKernel).code := by decide
  let req := VarReq.launchKernel fi.handle l.grid l.block l.sharedMem l.stream fi.paramCount l.args
  have hdisp : ((dispatch (.rt .launchKernel) (req.payload fun _ => 0) req.respLen).run env
      g').2.drv.m.dev.eng.mem .ram _ = _ :=
    dispatch_plain_ram hplain (req.payload fun _ => 0) req.respLen hspared ⟨i, hi, rfl⟩
  refine Eq.trans ?_ (hdisp.trans (hkeep.guest i hi))
  have hdrv : (l.run.run env g).2.drv =
      ((dispatch (.rt .launchKernel) (req.payload fun _ => 0) req.respLen).run env g').2.drv := by
    rw [hrun]
    show ((dispatch (.rt .launchKernel) (req.payload fun _ => 0) req.respLen >>= fun r => do
      if r.ret.isSome then
        Prog.forEach markGpuDirty (l.ptrs fi)
      return r.ret : GuestM (Option Nat)).run env g').2.drv = _
    simp only [Prog.bind_run, Prog.ite_run, Prog.pure_run]
    split
    · exact marks_drv _
    · rfl
  exact congrArg (fun d : DrvSt => d.m.dev.eng.mem .ram _) hdrv

theorem OutputInv.launch (h : OutputInv pt b g out) (hl : l.Careful env pt b g)
    (hret : (l.run.run env g).1.isSome) :
    OutputInv pt b (l.run.run env g).2 ((OutputStep.call (.launch l)).output env pt b g out) := by
  have cases {i : Nat} {v : UInt8}
      (hv : (OutputStep.call (.launch l)).output env pt b g out i = some v) :
      (i < b.size ∧ l.writes i = true ∧ b.realByte (l.run.run env g).2 i = v) ∨
        (¬(i < b.size ∧ l.writes i = true) ∧ out i = some v) := by
    have hv : (if i < b.size ∧ l.writes i then some (b.realByte (l.run.run env g).2 i) else out i) =
      some v := hv
    split at hv
    next hw => exact .inl ⟨hw.1, hw.2, Option.some.inj hv⟩
    next hw => exact .inr ⟨hw, hv⟩
  have hentry : b.Entry ((BufStep.launch l).next env pt b g) := BufStep.entry h.entry (.launch l)
  replace hentry : b.Entry (l.run.run env g).2 := hentry
  have hinside (i : Nat) (v : UInt8)
      (hv : (OutputStep.call (.launch l)).output env pt b g out i = some v) : i < b.size :=
    (cases hv).elim (·.1) fun hv => h.inside i v hv.2
  rcases hp : l.pointers g with _ | ptrs
  · -- the function is unknown, and nothing happens
    have hf : g.funcs l.func = none := Option.map_eq_none_iff.mp hp
    have hrun : l.run.run env g = (some 98, g) := by
      unfold Launch.run cudaLaunchKernel
      simp only [Prog.bind_run, Prog.get_run]
      simp only [hf, Prog.pure_run]
    have old {i : Nat} {v : UInt8}
        (hv : (OutputStep.call (.launch l)).output env pt b g out i = some v) : out i = some v := by
      rcases cases hv with ⟨hi, hw, -⟩ | ⟨-, hv⟩
      · obtain ⟨ptrs, hsome, -⟩ := hl.named ⟨i, hi, hw⟩
        rw [hp] at hsome
        cases hsome
      · exact hv
    rw [hrun] at hentry ⊢
    exact ⟨hentry, hinside, fun i v hv => h.real i v (old hv),
      fun hf i v hv => h.guest hf i v (old hv)⟩
  obtain ⟨hflag, ⟨g', hs⟩, hguest⟩ := launch_behind h.entry hl hp hret
  refine ⟨hentry, hinside, fun i v hv => ?_, fun hclear i v hv => ?_⟩
  · rcases cases hv with ⟨-, -, hv⟩ | ⟨hno, hv⟩
    · exact hv
    · have hi := h.inside i v hv
      have hw : l.writes i = false := by simpa [hi] using hno
      have hsees : l.sees env b g i = some (b.realByte g' i) := by rw [Launch.sees, hs]; rfl
      rw [hl.writes g' hs i hi hw]
      exact h.sees hl hv hsees
  · have hno : ¬(g.isGpuDirty b.va = true ∨ b.va ∈ ptrs) := fun hset => by
      rw [hflag.mpr hset] at hclear
      cases hclear
    rcases cases hv with ⟨hi, hw, -⟩ | ⟨-, hv⟩
    · -- behind a kernel that writes the buffer the flag is set
      obtain ⟨ptrs', hp', hset⟩ := hl.named ⟨i, hi, hw⟩
      obtain rfl := Option.some.inj (hp.symm.trans hp')
      exact absurd hset.symm hno
    · rw [hguest i (h.inside i v hv)]
      exact h.guest (by simpa using fun hd => hno (.inl hd)) i v hv

/-! Runs -/

theorem OutputRun.inv (hentry : b.Entry g₀)
    (run : OutputRun env pt b (OutputStep.Careful env pt b) g₀ g out) : OutputInv pt b g out := by
  induction run with
  | start => exact ⟨hentry, nofun, nofun, fun _ => nofun⟩
  | step x _ hok hret ih =>
    cases x with
    | call x =>
      cases x with
      | store i y => exact ih.store i y
      | copy c => exact ih.copy c hok
      | launch l => exact ih.launch hok hret
    | kernel f => exact ih.kernel f hok

/-- In a run of careful steps the guest has every byte of the kernels' output while the flag is
clear, the backend has it at all times, and the kernel of the next launch finds it there: no push
brings back an older byte. -/
theorem kernelOutput_kept (hentry : b.Entry g₀)
    (run : OutputRun env pt b (OutputStep.Careful env pt b) g₀ g out) :
    (g.isGpuDirty b.va = false → ∀ i v, out i = some v → b.guestByte pt g i = v) ∧
      (∀ i v, out i = some v → b.realByte g i = v) ∧
      ∀ l : Launch, l.Careful env pt b g → ∀ i v u, out i = some v → l.sees env b g i = some u →
        u = v :=
  have h := run.inv hentry
  ⟨h.guest, h.real, fun _ hl _ _ _ hv hu => h.sees hl hv hu⟩

end

/-! A kernel that writes byte 4 of the 8 bytes at 0x7000 at its launch, and byte 5 later -/

def lateWrite : Output := fun i => if i = 5 then some 3 else none

def writerEnded : GuestSt := writerRan.kernelWrote eightBuf lateWrite

theorem writerLaunch_careful : OutputStep.Careful writerEnv id eightBuf writerGuest
    (.call writerLaunch) := by
  obtain ⟨c, hready, hh⟩ := writerEnv_ready (g := writerGuest) (by decide +kernel)
    (by decide +kernel) (by decide +kernel)
  refine ⟨fun _ => ⟨[0x7000], by decide +kernel, .inl (List.mem_singleton_self _)⟩,
    fun g' hs i hi hw => ?_, fun ptrs hp => ?_⟩
  · have hsame : ∀ i < 8, i ≠ 4 → ((launchOn 0x7000).sees writerEnv eightBuf writerGuest i) =
        some (eightBuf.realByte writerRan i) := by decide +kernel
    have hne : i ≠ 4 := by
      rintro rfl
      cases hw
    have hsees := hsame i hi hne
    have hsent : (launchOn 0x7000).sending writerEnv writerGuest = some g' := hs
    rw [Launch.sees, hsent] at hsees
    exact (Option.some.inj hsees).symm
  · have hptrs : (launchOn 0x7000).pointers writerGuest = some [0x7000] := by decide +kernel
    obtain rfl := Option.some.inj (hptrs.symm.trans hp)
    refine ⟨c, hready, fun _ _ => ⟨⟨fun _ => by decide +kernel, trivial⟩, fun i hi => ?_⟩⟩
    have hbytes : userBytes id writerGuest.drv.m.dev.eng.mem 0x7000 8 = List.replicate 8 0 := by
      decide +kernel
    have hword : i / 8 = 0 := Nat.div_eq_of_lt hi
    unfold Untranslated
    show _ → ¬∃ r ∈ c.resources .hostMem, Inside Resource.handle Resource.size r
      (Bytes.val (wordAt (userBytes id writerGuest.drv.m.dev.eng.mem 0x7000 8) (i / 8)))
    rw [hbytes, hh, hword]
    decide

def writerOutput : Output := (OutputStep.call writerLaunch).output writerEnv id eightBuf writerGuest
  fun _ => none

theorem writerRan_run {ok : GuestSt → OutputStep → Prop} (h : ok writerGuest (.call writerLaunch)) :
    OutputRun writerEnv id eightBuf ok writerGuest writerRan writerOutput :=
  .step (.call writerLaunch) .start h (by decide +kernel)

def endedOutput : Output :=
  (OutputStep.kernel lateWrite).output writerEnv id eightBuf writerRan writerOutput

theorem writerEnded_run : OutputRun writerEnv id eightBuf (OutputStep.Careful writerEnv id eightBuf)
    writerGuest writerEnded endedOutput :=
  .step (.kernel lateWrite) (writerRan_run writerLaunch_careful) (fun _ => by decide +kernel) rfl

/-- Both bytes are in the guest after a pull of the whole buffer. -/
theorem kernelOutput_kept_pulled : ∃ g, g = ((BufStep.copy (.cuMemcpyHtoD 0x8000 0x7000 8)).next
    writerEnv id eightBuf writerEnded) ∧ eightBuf.guestByte id g 4 = 2 ∧
      eightBuf.guestByte id g 5 = 3 := by
  have hkept := (kernelOutput_kept ⟨false, rfl⟩
    (.step (.call (.copy (.cuMemcpyHtoD 0x8000 0x7000 8))) writerEnded_run
      ⟨by decide, fun _ _ => ⟨rfl, writerRan_pull.kernelWrote lateWrite⟩⟩ (by decide +kernel))).1
      (by decide +kernel)
  exact ⟨_, rfl, hkept 4 2 (by decide +kernel), hkept 5 3 (by decide +kernel)⟩

/-- A copy of 4 bytes into the buffer clears the flag: the kernel's byte is not in the guest, and
the next launch pushes the old one over it. So does a pull before the kernel has ended. -/
theorem kernelOutput_lost :
    (∃ g out, OutputRun writerEnv id eightBuf (fun _ _ => True) writerGuest g out ∧
      g.isGpuDirty eightBuf.va = false ∧ out 4 = some 2 ∧ eightBuf.guestByte id g 4 ≠ 2 ∧
        (launchOn 0x7000).sees writerEnv eightBuf g 4 = some 0) ∧
    ∃ g out, OutputRun writerEnv id eightBuf (fun _ _ => True) writerGuest g out ∧
      g.isGpuDirty eightBuf.va = false ∧ out 5 = some 3 ∧ eightBuf.guestByte id g 5 ≠ 3 := by
  constructor
  · exact ⟨_, _, .step (.call (.copy (.cuMemcpyDtoH 0x7000 0x8000 4))) (writerRan_run trivial) trivial
      (by decide +kernel), by decide +kernel, by decide +kernel, by decide +kernel, by decide +kernel⟩
  · exact ⟨_, _, .step (.kernel lateWrite) (.step (.call (.copy (.cuMemcpyHtoD 0x8000 0x7000 8)))
      (writerRan_run trivial) trivial (by decide +kernel)) trivial rfl, by decide +kernel,
      by decide +kernel, by decide +kernel⟩

end HmCuda
