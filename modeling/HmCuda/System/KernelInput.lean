import HmCuda.System.KernelOutput
import HmCuda.System.PinnedFrame

/-! The input of kernels in a pinned buffer: what the backend has of it when a launch goes out,
and which of the bytes that the CPU wrote. -/

namespace HmCuda
open Layout AsyncCopy Ranges

/-! A push -/

/-- `n` bytes at `va` are the pinned buffer `r` of the session, and no device range holds one
of their addresses. -/
structure PinnedThere (c : Context) (va n : Nat) (r : Resource) : Prop where
  entry : r ∈ c.resources .hostMem
  handle : r.handle = va
  size : n ≤ r.size
  device : ∀ i < n, ¬∃ x ∈ c.resources .mem, Inside Resource.handle Resource.size x (va + i)

/-- What the requests of the process meet: the kernel pins the pages it is asked for, `malloc`
gives memory that nothing else uses, and the session `c` has its pinned buffers apart. -/
structure Hosted (env : GuestEnv) (pt : Nat → Nat) (c : Context) (t : Tables) : Prop where
  pins : ∀ k, PinsHonest (env.drv k) pt
  malloc : ∀ k, MallocApart (env.drv k).sys
  session : ∀ k, t.ctxGet (env.drv k).key = some c
  placed : Placed c
  apart : Apart Resource.realPtr Resource.size (c.resources .hostMem)

/-- The request of a push; its last members are what lay there. -/
def GuestEnv.pushRequest (env : GuestEnv) (g : GuestSt) (va n : Nat) : List UInt8 :=
  encode memcpyReq (env.left g.sent.length) [va, va, n, 1]

def GuestEnv.pusher (env : GuestEnv) (g : GuestSt) (va n : Nat) : DrvEnv :=
  env.caller g MemCmd.cuMemcpy.copy.cmd.code (env.pushRequest g va n)

/-- The answer to a push, which `syncHostMemArg` drops. -/
def GuestEnv.pushAnswer (env : GuestEnv) (g : GuestSt) (va n : Nat) : Option Nat :=
  ((dispatch (.drv .cuMemcpy) (env.pushRequest g va n) 0).run env g).1.ret

section
variable {env : GuestEnv} {pt : Nat → Nat} {c : Context} {r : Resource} {g g' : GuestSt}
  {va n : Nat}

theorem PinnedThere.range (h : PinnedThere c va n r) (hc : Placed c) : PinnedRange c r 0 n := by
  have hhandle := h.handle
  subst hhandle
  exact hc.pinnedRange h.entry (by rw [Nat.zero_add]; exact h.size) h.device

theorem pusher_code (hdr : Nat → UInt8)
    (h : (env.pusher g va n).fetch 0 0 (sizeof reqHeader) = some hdr) :
    reqHeader.cmdType.get hdr = MemCmd.cuMemcpy.copy.cmd.code :=
  (Call.mk g.transport (env.stack g.sent.length) MemCmd.cuMemcpy.copy.cmd (env.pushRequest g va n)
    0).header (env.drv g.sent.length) hdr h

theorem pusher_args {hdr p : Nat → UInt8} (hva : va < 2 ^ 64) (hn : n < 2 ^ 64)
    (h : Built (env.pusher g va n) MemCmd.cuMemcpy.copy hdr p) :
    (memReq p).args = ⟨va, n, va, Dir.htod.kind⟩ := by
  have hmax : sizeof reqHeader + sizeof memcpyReq ≤ dispatchLen (sizeof memcpyReq) 0 := by decide
  have hp : ∀ a < sizeof memcpyReq, p a = (env.pushRequest g va n).getD a 0 := by
    intro a ha
    rw [VarReq.fetch_calling_eq h.payload]
    exact VarReq.dispatchBuf_payload _ _ _ _ (by rwa [GuestEnv.pushRequest, length_encode])
  have hget {i v : Nat} (hv : [va, va, n, 1][i]? = some v)
      (hlt : v < 256 ^ (field memcpyReq i).size) : (field memcpyReq i).get p = v :=
    get_encode _ hp (Nat.le_of_ble_eq_true rfl) hv hlt
  have h0 := hget (i := 0) rfl hva
  have h1 := hget (i := 1) rfl hva
  have h2 := hget (i := 2) rfl hn
  have h3 : (field memcpyReq 3).get p = 1 := hget (i := 3) rfl (by decide)
  simp only [memReq, memcpyReq.dst, memcpyReq.src, memcpyReq.count, memcpyReq.kind, h0, h1, h2, h3]
  rfl

theorem dispatch_untouched (H : Hosted env pt c g.drv.m.tab) (hb : PinnedThere c va n r)
    {K : Space × Nat → Prop} (hK : Beside g.drv.m.dev.eng K r.realPtr n)
    (hg' : ((dispatch (.drv .cuMemcpy) (env.pushRequest g va n) 0).run env g).2 = g') :
    Untouched g.drv.m.dev.eng K g'.drv.m.dev.eng ∧ g'.drv.m.tab = g.drv.m.tab := by
  have hkey := H.placed.key r hb.entry
  have hhandle := hb.handle
  have hsize := hb.size
  have hioctl := hmcudaIoctl_untouched (e := env.pusher g va n) (u := va) (o := 0)
    (H.malloc g.sent.length) (H.session _) pusher_code
    (fun hdr p h => by rw [pusher_args (by omega) (by omega) h, hhandle]; rfl)
    (hb.range H.placed) (by omega) hK (untouched_refl _ _)
  subst hg'
  show Untouched g.drv.m.dev.eng K ((transportDispatch g.transport (env.stack g.sent.length)
    (Cmd.drv .cuMemcpy).code (env.pushRequest g va n) 0).run (env.drv g.sent.length)
      g.drv).2.m.dev.eng ∧ ((transportDispatch g.transport (env.stack g.sent.length)
    (Cmd.drv .cuMemcpy).code (env.pushRequest g va n) 0).run (env.drv g.sent.length)
      g.drv).2.m.tab = g.drv.m.tab
  unfold transportDispatch
  dsimp only
  split
  · exact ⟨untouched_refl _ _, rfl⟩
  split
  · exact ⟨untouched_refl _ _, rfl⟩
  · exact hioctl

theorem pushAnswer_zero (h : env.pushAnswer g va n = some 0) :
    ((dispatch (.drv .cuMemcpy) (env.pushRequest g va n) 0).run env g).2.drv =
      (hmcudaIoctl.run (env.pusher g va n) g.drv).2 ∧
    (∃ hdr p, Built (env.pusher g va n) MemCmd.cuMemcpy.copy hdr p) ∧
    (hmcudaIoctl.run (env.pusher g va n) g.drv).1.halt = .ret 0 ∧
    (hmcudaIoctl.run (env.pusher g va n) g.drv).1.status = some 0 := by
  have hopen : g.transport = ⟨false, true⟩ := by
    have hr : ((transportDispatch g.transport (env.stack g.sent.length) (Cmd.drv .cuMemcpy).code
      (env.pushRequest g va n) 0).run (env.drv g.sent.length) g.drv).1.ret = some 0 := h
    unfold transportDispatch at hr
    generalize g.transport = t at hr ⊢
    rcases t with ⟨_ | _, _ | _⟩
    · simp at hr
    · rfl
    · simp at hr
    · simp at hr
  have hrun : (dispatch (.drv .cuMemcpy) (env.pushRequest g va n) 0).run env g = _ :=
    dispatch_opened hopen (.drv .cuMemcpy) (env.pushRequest g va n)
  rw [GuestEnv.pushAnswer, hrun] at h
  rw [hrun]
  exact ⟨rfl, hmcudaIoctl_answeredZero pusher_code h⟩

/-- A push that is answered 0 leaves the whole buffer with the backend, each aligned word
translated if it is a pinned address. -/
theorem dispatch_pushed (H : Hosted env pt c g.drv.m.tab) (hb : PinnedThere c va n r)
    (huser : va + n ≤ taskSize) (hword : va % 8 = 0)
    (hfree : ∀ x ∈ g.drv.m.dev.eng.pending, Spares pt va n r.realPtr x)
    (h : env.pushAnswer g va n = some 0)
    (hg' : ((dispatch (.drv .cuMemcpy) (env.pushRequest g va n) 0).run env g).2 = g') :
    g'.drv.m.dev.eng.mem.read .uva r.realPtr n =
      wholeTranslation c (userBytes pt g.drv.m.dev.eng.mem va n) := by
  have htask : taskSize < 2 ^ 47 := by decide
  obtain ⟨hdrv, ⟨hdr, p, hbuilt⟩, hhalt, hstatus⟩ := pushAnswer_zero h
  have hstore : PinnedStore (env.pusher g va n) pt va n c r 0 g.drv :=
    ⟨H.pins g.sent.length, H.malloc g.sent.length,
      ⟨hdr, p, hbuilt, by rw [pusher_args (by omega) (by omega) hbuilt, hb.handle]; rfl⟩, huser,
      hword, H.session _, hb.range H.placed, H.placed.pointer, hfree⟩
  have hread := hstore.translates hhalt hstatus []
  rw [← hg', hdrv]
  exact hread

/-! The pushes of a launch -/

/-- The arguments that a launch pushes: the registered buffers whose flag is clear. -/
def GuestSt.pushes (g : GuestSt) (va : Nat) : Bool := (g.hostMem va).any fun x => !x.gpuDirty

theorem syncHostMemArg_skip (h : g.pushes va = false) :
    (syncHostMemArg va).run env g = (some (), g) := by
  unfold syncHostMemArg
  unfold GuestSt.pushes at h
  simp only [Prog.bind_run, Prog.get_run]
  rcases hx : g.hostMem va with _ | x
  · rfl
  · rw [hx] at h
    have hd : x.gpuDirty = true := by simpa using h
    simp only [hd, if_true, Prog.pure_run]

variable (env) in
theorem syncHostMemArg_push (h : g.pushes va = true) : (syncHostMemArg va).run env g =
    ((env.pushAnswer g va (g.hostMemSize va)).map fun _ => (),
      ((dispatch (.drv .cuMemcpy) (env.pushRequest g va (g.hostMemSize va)) 0).run env g).2) := by
  unfold syncHostMemArg GuestEnv.pushAnswer GuestSt.hostMemSize
  unfold GuestSt.pushes at h
  simp only [Prog.bind_run, Prog.get_run]
  rcases hx : g.hostMem va with _ | x
  · rw [hx] at h
    cases h
  · rw [hx] at h
    have hd : x.gpuDirty = false := by simpa using h
    simp only [hd, Bool.false_eq_true, if_false, Prog.bind_run, Prog.ask_run, Prog.pure_run]
    rfl

end

/-- What the pushes of a launch with the arguments `ptrs` rest on: the session has every buffer
that is pushed, and no copy in flight writes to the bytes of `b`. -/
structure PushReady (env : GuestEnv) (pt : Nat → Nat) (b : PinnedBuf) (c : Context) (g : GuestSt)
    (ptrs : List Nat) : Prop where
  hosted : Hosted env pt c g.drv.m.tab
  there : ∃ r, PinnedThere c b.va b.size r ∧ r.realPtr = b.real
  user : b.va + b.size ≤ taskSize
  word : b.va % 8 = 0
  free : ∀ x ∈ g.drv.m.dev.eng.pending, Spares pt b.va b.size b.real x
  others : ∀ p ∈ ptrs, g.pushes p = true → ∃ r, PinnedThere c p (g.hostMemSize p) r

/-- What a push leaves as it is: the registry, the session and the guest's bytes of `b`; and it
submits no copy. -/
structure PushKeeps (pt : Nat → Nat) (b : PinnedBuf) (g g' : GuestSt) : Prop where
  hostMem : g'.hostMem = g.hostMem
  tab : g'.drv.m.tab = g.drv.m.tab
  pending : ∀ x ∈ g'.drv.m.dev.eng.pending, x ∈ g.drv.m.dev.eng.pending
  guest : ∀ i < b.size, b.guestByte pt g' i = b.guestByte pt g i

section
variable {env : GuestEnv} {pt : Nat → Nat} {b : PinnedBuf} {c : Context} {r : Resource}
  {g g' : GuestSt} {p n : Nat} {ptrs : List Nat}

theorem pushKeeps_refl (pt : Nat → Nat) (b : PinnedBuf) (g : GuestSt) : PushKeeps pt b g g :=
  ⟨rfl, rfl, fun _ hx => hx, fun _ _ => rfl⟩

theorem PushKeeps.pushes (h : PushKeeps pt b g g') (va : Nat) : g'.pushes va = g.pushes va := by
  rw [GuestSt.pushes, h.hostMem]
  rfl

theorem PushReady.next (h : PushReady env pt b c g (p :: ptrs)) (hk : PushKeeps pt b g g') :
    PushReady env pt b c g' ptrs where
  hosted := by
    rw [hk.tab]
    exact h.hosted
  there := h.there
  user := h.user
  word := h.word
  free x hx := h.free x (hk.pending x hx)
  others q hq hpush := by
    rw [hk.pushes] at hpush
    rw [GuestSt.hostMemSize, hk.hostMem]
    exact h.others q (List.mem_cons_of_mem _ hq) hpush

theorem PinnedBuf.Entry.size (h : b.Entry g) : g.hostMemSize b.va = b.size := by
  obtain ⟨d, hd⟩ := h
  rw [GuestSt.hostMemSize, hd]
  rfl

theorem PushReady.guestBeside (h : PushReady env pt b c g ptrs) (real n : Nat) :
    Beside g.drv.m.dev.eng (fun x => ∃ i < b.size, x = phys pt (b.va + i)) real n where
  shared := by
    rintro x ⟨i, -, rfl⟩
    exact .inl rfl
  free := by
    rintro y hy x ⟨i, hi, rfl⟩
    exact (h.free y hy i hi).1
  out := by
    rintro i - ⟨j, -, hj⟩
    cases hj

theorem PushReady.realBeside (h : PushReady env pt b c g ptrs) (hp : PinnedThere c p n r)
    (hne : p ≠ b.va) :
    Beside g.drv.m.dev.eng (fun x => ∃ i < b.size, x = (.uva, b.real + i)) r.realPtr n where
  shared := by
    rintro x ⟨i, -, rfl⟩
    exact .inr rfl
  free := by
    rintro y hy x ⟨i, hi, rfl⟩
    exact (h.free y hy i hi).2
  out := by
    rintro i hi ⟨j, hj, heq⟩
    obtain ⟨s, hs, hreal⟩ := h.there
    have hat : r.realPtr + i = b.real + j := congrArg Prod.snd heq
    have hrs := hp.size
    have hss := hs.size
    have hsame : r = s := h.hosted.apart.eq hp.entry hs.entry (a := r.realPtr + i)
      ⟨by omega, by omega⟩ ⟨by omega, by omega⟩
    exact hne (hp.handle.symm.trans ((congrArg Resource.handle hsame).trans hs.handle))

theorem PushReady.push (h : PushReady env pt b c g (p :: ptrs)) (he : b.Entry g)
    (hp : g.pushes p = true)
    (hg' : ((dispatch (.drv .cuMemcpy) (env.pushRequest g p (g.hostMemSize p)) 0).run env g).2 =
      g') :
    PushKeeps pt b g g' ∧ (p ≠ b.va → ∀ i < b.size, b.realByte g' i = b.realByte g i) ∧
      (p = b.va → env.pushAnswer g p (g.hostMemSize p) = some 0 → ∀ i < b.size,
        b.realByte g' i = (wholeTranslation c
          (userBytes pt g.drv.m.dev.eng.mem b.va b.size)).getD i 0) := by
  obtain ⟨r, hr⟩ := h.others p List.mem_cons_self hp
  obtain ⟨hguest, htab⟩ := dispatch_untouched h.hosted hr (h.guestBeside _ _) hg'
  have hreg : g'.hostMem = g.hostMem := by
    rw [← hg']
    rfl
  refine ⟨⟨hreg, htab, hguest.pending, fun i hi => hguest.mem _ ⟨i, hi, rfl⟩⟩, fun hne i hi => ?_,
    fun heq h0 i hi => ?_⟩
  · exact (dispatch_untouched h.hosted hr (h.realBeside hr hne) hg').1.mem _ ⟨i, hi, rfl⟩
  · subst heq
    obtain ⟨s, hs, hreal⟩ := h.there
    rw [he.size] at h0 hg'
    have hread := dispatch_pushed h.hosted hs h.user h.word
      (fun x hx => by rw [hreal]; exact h.free x hx) h0 hg'
    rw [← hread, hreal, ByteMem.getD_read _ _ hi]
    rfl

theorem PushKeeps.trans {g₁ : GuestSt} (h : PushKeeps pt b g g₁) (h' : PushKeeps pt b g₁ g') :
    PushKeeps pt b g g' :=
  ⟨h'.hostMem.trans h.hostMem, h'.tab.trans h.tab, fun x hx => h.pending x (h'.pending x hx),
    fun i hi => (h'.guest i hi).trans (h.guest i hi)⟩

theorem PushKeeps.userBytes (h : PushKeeps pt b g g') :
    userBytes pt g'.drv.m.dev.eng.mem b.va b.size = userBytes pt g.drv.m.dev.eng.mem b.va b.size :=
  List.map_congr_left fun i hi => h.guest i (List.mem_range.mp hi)

/-- Every push of the buffer by the loop is answered 0. -/
def PushesAnswered (env : GuestEnv) (b : PinnedBuf) : List Nat → GuestSt → Prop
  | [], _ => True
  | p :: ptrs, g => (p = b.va → env.pushAnswer g p b.size = some 0) ∧
      PushesAnswered env b ptrs ((syncHostMemArg p).run env g).2

/-- What the backend has of the buffer behind the pushes of a launch: the whole buffer if its own
address is an argument and the flag is clear, and what it had before if not. -/
theorem syncArgs_input (h : PushReady env pt b c g ptrs) (he : b.Entry g)
    (hrun : (syncArgs ptrs).run env g = (some (), g')) : PushKeeps pt b g g' ∧
      (b.va ∈ ptrs → g.pushes b.va = true → PushesAnswered env b ptrs g → ∀ i < b.size,
        b.realByte g' i = (wholeTranslation c
          (userBytes pt g.drv.m.dev.eng.mem b.va b.size)).getD i 0) ∧
      (¬(b.va ∈ ptrs ∧ g.pushes b.va = true) → ∀ i < b.size, b.realByte g' i = b.realByte g i) := by
  induction ptrs generalizing g with
  | nil =>
    obtain rfl := congrArg Prod.snd hrun
    exact ⟨pushKeeps_refl pt b g, fun hmem => absurd hmem List.not_mem_nil, fun _ _ _ => rfl⟩
  | cons p ptrs ih =>
    rw [syncArgs, Prog.bind_run] at hrun
    rcases hp : g.pushes p with _ | _
    · -- the argument is no registered buffer, or its flag is set
      rw [syncHostMemArg_skip hp] at hrun
      obtain ⟨hkeep, hpushed, hsame⟩ := ih (h.next (pushKeeps_refl pt b g)) he hrun
      have hne : g.pushes b.va = true → b.va ≠ p := by
        rintro htrue rfl
        rw [hp] at htrue
        cases htrue
      refine ⟨hkeep, fun hmem htrue hans => ?_, fun hno => hsame fun hin => ?_⟩
      · have hrest := hans.2
        rw [syncHostMemArg_skip hp] at hrest
        exact hpushed ((List.mem_cons.mp hmem).resolve_left (hne htrue)) htrue hrest
      · exact hno ⟨List.mem_cons_of_mem _ hin.1, hin.2⟩
    · obtain ⟨hkeep, hother, hown⟩ := h.push he hp rfl
      have hstep := syncHostMemArg_push env hp
      generalize ((dispatch (.drv .cuMemcpy) (env.pushRequest g p (g.hostMemSize p)) 0).run env
        g).2 = g₁ at hkeep hother hown hstep
      rw [hstep] at hrun
      rcases hans : env.pushAnswer g p (g.hostMemSize p) with _ | x
      · rw [hans] at hrun
        cases congrArg Prod.fst hrun
      rw [hans] at hrun
      obtain ⟨hkeep', hpushed, hsame⟩ := ih (h.next hkeep) (he.of_hostMem hkeep.hostMem) hrun
      rw [hkeep.pushes, hkeep.userBytes] at hpushed
      rw [hkeep.pushes] at hsame
      refine ⟨hkeep.trans hkeep', fun hmem htrue hall i hi => ?_, fun hno i hi => ?_⟩
      · have hrest := hall.2
        rw [hstep] at hrest
        by_cases hin : b.va ∈ ptrs
        · exact hpushed hin htrue hrest i hi
        · -- the last push of the buffer is this one
          have heq : p = b.va := ((List.mem_cons.mp hmem).resolve_right hin).symm
          have h0 := hall.1 heq
          rw [← he.size, ← heq] at h0
          exact (hsame (fun hc => hin hc.1) i hi).trans (hown heq h0 i hi)
      · have hne : p ≠ b.va := by
          rintro rfl
          exact hno ⟨List.mem_cons_self, hp⟩
        refine (hsame (fun hc => hno ⟨List.mem_cons_of_mem _ hc.1, hc.2⟩) i hi).trans ?_
        exact hother hne i hi

end

/-! Words that are no pinned address -/

/-- The byte at `i` lies in no full word that is an address in a pinned buffer. -/
def Untranslated (c : Context) (bs : List UInt8) (i : Nat) : Prop := 8 * (i / 8) + 8 ≤ bs.length →
  ¬∃ r ∈ c.resources .hostMem, Inside Resource.handle Resource.size r (Bytes.val (wordAt bs (i / 8)))

section
variable {c : Context} {bs : List UInt8} {i : Nat}

theorem Untranslated.getD (h : Untranslated c bs i) (hc : Placed c) :
    (wholeTranslation c bs).getD i 0 = bs.getD i 0 := by
  rw [← patch_whole hc.pointer]
  refine patch_getD fun hle => ?_
  rw [patchedWord, Option.map_eq_none_iff]
  refine List.find?_eq_none.mpr fun r hr hcov => h hle ⟨r, hr, ?_⟩
  rw [covers_eq rfl (hc.key r hr).2] at hcov
  exact of_decide_eq_true hcov

end

/-! Runs -/

/-- The bytes of the buffer that the CPU wrote, with the last value it wrote there, as far as
nothing was copied over it. -/
abbrev Written := Nat → Option UInt8

def Launch.pointers (g : GuestSt) (l : Launch) : Option (List Nat) := (g.funcs l.func).map l.ptrs

/-- The launch goes out with an argument that points into the buffer. -/
def Launch.aims (b : PinnedBuf) (g : GuestSt) (l : Launch) : Bool :=
  (l.pointers g).any fun ptrs => ptrs.any fun p => decide (b.va ≤ p ∧ p < b.va + b.size)

def Launch.sending (env : GuestEnv) (g : GuestSt) (l : Launch) : Option GuestSt :=
  (l.pointers g).bind fun ptrs => match (syncArgs ptrs).run env g with
    | (some (), g') => some g'
    | (none, _) => none

/-- Byte `i` of the buffer as the kernel of the launch finds it. -/
def Launch.sees (env : GuestEnv) (b : PinnedBuf) (g : GuestSt) (l : Launch) (i : Nat) :
    Option UInt8 := (l.sending env g).map fun g' => b.realByte g' i

def CopyRoute.pulls (env : GuestEnv) (b : PinnedBuf) (g : GuestSt) : CopyRoute → Bool
  | pulled _ src n stream => decide (src = b.va) && g.isGpuDirty b.va &&
      !((pullDirty src n stream).run env g).2.isGpuDirty b.va
  | back .. | sent .. => false

section
variable (env : GuestEnv) (pt : Nat → Nat) (b : PinnedBuf)

/-- What is left of `w` after a step from `g` to `g'`. -/
def Written.left (g' : GuestSt) (w : Written) : Written :=
  fun i => (w i).filter fun v => b.guestByte pt g' i = v

/-- What the CPU wrote since the last launch with the buffer or pull of it. -/
def BufStep.written (g : GuestSt) (w : Written) (x : BufStep) : Written :=
  let kept := w.left pt b (x.next env pt b g)
  match x with
  | store i v => fun j => if j = i ∧ i < b.size then some v else kept j
  | copy c => if (c.route g).pulls env b g then fun _ => none else kept
  | launch l => if l.aims b g then fun _ => none else kept

/-- The runs from `g₀` of CPU writes, copies and launches. -/
inductive InputRun (g₀ : GuestSt) : GuestSt → Written → Prop
  | start : InputRun g₀ g₀ fun _ => none
  | step {g : GuestSt} {w : Written} (x : BufStep) (run : InputRun g₀ g w)
      (returns : x.returns env g) : InputRun g₀ (x.next env pt b g) (x.written env pt b g w)

end

section
variable {env : GuestEnv} {pt : Nat → Nat} {b : PinnedBuf} {g g' g₀ : GuestSt} {w : Written}
  {c : Context}

/-- The rest of `cudaLaunchKernel` runs from there. -/
theorem Launch.run_sending {l : Launch} (h : l.sending env g = some g') :
    ∃ fi, g.funcs l.func = some fi ∧ l.run.run env g = (do
      let req := VarReq.launchKernel fi.handle l.grid l.block l.sharedMem l.stream fi.paramCount
        l.args
      let r ← dispatch req.cmd.cmd (req.payload fun _ => 0) req.respLen
      if r.ret.isSome then
        Prog.forEach markGpuDirty (l.ptrs fi)
      return r.ret : GuestM (Option Nat)).run env g' := by
  unfold Launch.sending Launch.pointers at h
  rcases hf : g.funcs l.func with _ | fi
  · rw [hf] at h
    cases h
  refine ⟨fi, rfl, ?_⟩
  rw [hf] at h
  have hsync : (syncArgs (l.ptrs fi)).run env g = (some (), g') := by
    rcases hrun : (syncArgs (l.ptrs fi)).run env g with ⟨_ | _, g₁⟩
    · simp [hrun] at h
    · simpa [hrun] using h
  unfold Launch.run HmCuda.cudaLaunchKernel
  unfold Launch.ptrs at hsync ⊢
  simp only [Prog.bind_run, Prog.get_run]
  simp only [hf, Prog.bind_run, hsync]

theorem entry_framed (b : PinnedBuf) : Framed (fun _ => True) b.Entry :=
  ⟨fun _ _ _ _ _ _ h => h, fun _ _ h => h, fun d va env _ h => h.setGpuDirty env d va⟩

theorem BufStep.entry (h : b.Entry g) (x : BufStep) : b.Entry (x.next env pt b g) := by
  have frame := entry_framed b
  cases x with
  | store i v => exact h
  | launch l => exact frame.cudaLaunchKernel trivial trivial _ _ _ _ _ _ env g h
  | copy c =>
    cases c with
    | cudaMemcpy dst src n kind =>
      exact Prog.keeps_bind (frame.dispatch _ trivial _ _) (fun _ => Prog.keeps_pure _) env g h
    | cuMemcpyHtoD dst src n => exact frame.pulledCopy trivial _ _ _ _ _ env g h
    | cuMemcpyDtoH dst src n => exact frame.copyBack trivial _ _ _ _ env g h
    | cuMemcpyAsync dst src n stream =>
      refine Prog.keeps_bind Prog.keeps_get (fun t => ?_) env g h
      refine Prog.keeps_ite (fun _ => frame.pulledCopy trivial _ _ _ _ _) fun _ => ?_
      refine Prog.keeps_ite (fun _ => frame.copyBack trivial _ _ _ _) fun _ => ?_
      exact Prog.keeps_bind (frame.drvDispatch trivial _ _) fun _ => Prog.keeps_pure _

theorem left_eq_some {i : Nat} {v : UInt8} :
    w.left pt b g' i = some v ↔ w i = some v ∧ b.guestByte pt g' i = v := by
  simp [Written.left, Option.filter_eq_some_iff]

structure InputInv (pt : Nat → Nat) (b : PinnedBuf) (g : GuestSt) (w : Written) : Prop where
  entry : b.Entry g
  inside : ∀ i v, w i = some v → i < b.size
  guest : ∀ i v, w i = some v → b.guestByte pt g i = v

theorem InputInv.step (h : InputInv pt b g w) (x : BufStep) :
    InputInv pt b (x.next env pt b g) (x.written env pt b g w) := by
  have kept (i : Nat) (v : UInt8) (hv : w.left pt b (x.next env pt b g) i = some v) :
      i < b.size ∧ b.guestByte pt (x.next env pt b g) i = v := by
    obtain ⟨hw, hguest⟩ := left_eq_some.mp hv
    exact ⟨h.inside i v hw, hguest⟩
  have hall (i : Nat) (v : UInt8) (hv : x.written env pt b g w i = some v) :
      i < b.size ∧ b.guestByte pt (x.next env pt b g) i = v := by
    cases x with
    | store j y =>
      have hif : (if i = j ∧ j < b.size then some y else
        w.left pt b ((BufStep.store j y).next env pt b g) i) = some v := hv
      split at hif
      next hj =>
        obtain ⟨rfl, hlt⟩ := hj
        obtain rfl := Option.some.inj hif
        refine ⟨hlt, ?_⟩
        simp [PinnedBuf.guestByte, BufStep.next, GuestSt.stored, Machine.setMem]
      next => exact kept i v hif
    | copy c =>
      have hif : (if (c.route g).pulls env b g then fun _ => none else
        w.left pt b ((BufStep.copy c).next env pt b g)) i = some v := hv
      split at hif
      · cases hif
      · exact kept i v hif
    | launch l =>
      have hif : (if l.aims b g then fun _ => none else
        w.left pt b ((BufStep.launch l).next env pt b g)) i = some v := hv
      split at hif
      · cases hif
      · exact kept i v hif
  exact ⟨BufStep.entry h.entry x, fun i v hv => (hall i v hv).1, fun i v hv => (hall i v hv).2⟩

theorem InputRun.inv (hentry : b.Entry g₀) (run : InputRun env pt b g₀ g w) :
    InputInv pt b g w := by
  induction run with
  | start => exact ⟨hentry, nofun, nofun⟩
  | step x _ _ ih => exact ih.step x

theorem PinnedBuf.Entry.pushes (h : b.Entry g) : g.pushes b.va = true ↔ g.isGpuDirty b.va = false := by
  obtain ⟨d, hd⟩ := h
  simp [GuestSt.pushes, GuestSt.isGpuDirty, hd]

/-- When a launch goes out, the backend has the whole buffer of the guest if the launch names the
buffer while its flag is clear and the pushes are answered 0; every byte that the CPU wrote has its
last value then, outside words that are translated. Any other launch leaves the backend's bytes
as they were. -/
theorem kernelInput_pushed (hentry : b.Entry g₀) (run : InputRun env pt b g₀ g w) (l : Launch)
    {ptrs : List Nat} (hptrs : l.pointers g = some ptrs) (hready : PushReady env pt b c g ptrs) :
    (b.va ∈ ptrs → g.isGpuDirty b.va = false → PushesAnswered env b ptrs g →
      ∀ i < b.size, ∀ u, l.sees env b g i = some u →
        u = (wholeTranslation c (userBytes pt g.drv.m.dev.eng.mem b.va b.size)).getD i 0 ∧
        ∀ v, w i = some v →
          Untranslated c (userBytes pt g.drv.m.dev.eng.mem b.va b.size) i → u = v) ∧
    (b.va ∉ ptrs ∨ g.isGpuDirty b.va = true → ∀ i < b.size, ∀ u, l.sees env b g i = some u →
      u = b.realByte g i) := by
  have hinv := run.inv hentry
  have hrun {i : Nat} {u : UInt8} (hu : l.sees env b g i = some u) :
      ∃ g', (syncArgs ptrs).run env g = (some (), g') ∧ b.realByte g' i = u := by
    obtain ⟨g', hs, hbyte⟩ := Option.map_eq_some_iff.mp hu
    rw [Launch.sending, hptrs, Option.bind_some] at hs
    rcases hrun : (syncArgs ptrs).run env g with ⟨_ | _, g₁⟩
    · simp [hrun] at hs
    · rw [hrun] at hs
      obtain rfl := Option.some.inj hs
      exact ⟨g₁, rfl, hbyte⟩
  constructor
  · intro hmem hclear hanswered i hi u hu
    obtain ⟨g', hsync, rfl⟩ := hrun hu
    obtain ⟨-, hpushed, -⟩ := syncArgs_input hready hinv.entry hsync
    have hbyte := hpushed hmem (hinv.entry.pushes.mpr hclear) hanswered i hi
    refine ⟨hbyte, fun v hv hplain => ?_⟩
    rw [hbyte, hplain.getD hready.hosted.placed, ← hinv.guest i v hv]
    simp [userBytes, PinnedBuf.guestByte, hi, phys]
  · intro hno i hi u hu
    obtain ⟨g', hsync, rfl⟩ := hrun hu
    obtain ⟨-, -, hsame⟩ := syncArgs_input hready hinv.entry hsync
    refine hsame (fun hc => ?_) i hi
    rcases hno with hno | hdirty
    · exact hno hc.1
    · rw [hinv.entry.pushes, hdirty] at hc
      cases hc.2

end

/-! Launches on the 8 bytes at 0x7000 -/

def launchOn (p : Nat) : Launch :=
  ⟨0x1000, (1, 1, 1), (1, 1, 1), some fun _ j => (Bytes.le 8 p).getD j 0, 0, 0, fun _ => false⟩

def storedGuest : GuestSt := (BufStep.store 0 5).next writerEnv id eightBuf writerGuest

theorem writerEnv_ready {g : GuestSt}
    (htables : (g.drv.m.tab.ctxGet ⟨1, 1⟩).map (fun c => (c.resources .mem, c.resources .hostMem)) =
      some ([⟨0x8000, 0x8000, 64⟩], [⟨0x7000, 0x9000, 8⟩]))
    (hidle : g.drv.m.dev.eng.pending = []) (hsize : g.hostMemSize 0x7000 = 8) :
    ∃ c, PushReady writerEnv id eightBuf c g [0x7000] ∧
      c.resources .hostMem = [⟨0x7000, 0x9000, 8⟩] := by
  obtain ⟨c, hc, htab⟩ := Option.map_eq_some_iff.mp htables
  obtain ⟨hm, hh⟩ := Prod.mk.inj htab
  have hentry : (⟨0x7000, 0x9000, 8⟩ : Resource) ∈ c.resources .hostMem := by
    rw [hh]
    exact List.mem_singleton_self _
  have hthere : PinnedThere c 0x7000 8 ⟨0x7000, 0x9000, 8⟩ := by
    refine ⟨hentry, rfl, Nat.le_refl 8, ?_⟩
    rw [hm]
    decide
  refine ⟨c, ⟨⟨fun _ => ?_, fun _ i x m hx => ?_, fun _ => hc, placed_alias (by decide) hm hh, ?_⟩,
    ⟨_, hthere, rfl⟩, by decide, rfl, fun x hx => ?_, fun p hp _ => ?_⟩, hh⟩
  · exact fun _ _ _ _ heq _ => (Except.ok.inj heq).symm
  · show (if x.fn = .cuLaunchKernel then _ else m) = m
    rw [hx]
    rfl
  · rw [hh]
    exact List.pairwise_singleton _ _
  · rw [hidle] at hx
    cases hx
  · obtain rfl := List.mem_singleton.mp hp
    rw [hsize]
    exact ⟨_, hthere⟩

theorem storedGuest_ready : ∃ c, PushReady writerEnv id eightBuf c storedGuest [0x7000] ∧
    c.resources .hostMem = [⟨0x7000, 0x9000, 8⟩] :=
  writerEnv_ready (by decide +kernel) (by decide +kernel) (by decide +kernel)

/-- The kernel finds the 5. -/
theorem kernelInput_pushed_five : (launchOn 0x7000).sees writerEnv eightBuf storedGuest 0 = some 5 := by
  obtain ⟨c, hready, hh⟩ := storedGuest_ready
  have hsees : ((launchOn 0x7000).sees writerEnv eightBuf storedGuest 0).isSome := by decide +kernel
  obtain ⟨u, hu⟩ := Option.isSome_iff_exists.mp hsees
  have hbytes : userBytes id storedGuest.drv.m.dev.eng.mem 0x7000 8 = [5, 0, 0, 0, 0, 0, 0, 0] := by
    decide +kernel
  have hplain : Untranslated c (userBytes id storedGuest.drv.m.dev.eng.mem 0x7000 8) 0 := by
    unfold Untranslated
    rw [hbytes, hh]
    decide
  have hanswered : PushesAnswered writerEnv eightBuf [0x7000] storedGuest :=
    ⟨fun _ => by decide +kernel, trivial⟩
  have hrun : InputRun writerEnv id eightBuf writerGuest storedGuest
      ((BufStep.store 0 5).written writerEnv id eightBuf writerGuest fun _ => none) :=
    .step (.store 0 5) .start rfl
  have hptrs : (launchOn 0x7000).pointers storedGuest = some [0x7000] := by decide +kernel
  have hpushed := (kernelInput_pushed ⟨false, rfl⟩ hrun (launchOn 0x7000) hptrs hready).1 (by decide)
    (by decide +kernel) hanswered 0 (by decide) u hu
  rw [hu, hpushed.2 5 rfl hplain]

def noMemoryEnv : GuestEnv :=
  { writerEnv with drv := fun k => { writerEnv.drv k with kmalloc := fun _ => k ≠ 0 } }

def lateEnv : GuestEnv :=
  { writerEnv with drv := fun k =>
      let e := writerEnv.drv k
      { e with sys := { e.sys with dma := fun _ => if k = 0 then [] else [0] } } }

def aliasedGuest : GuestSt :=
  { writerGuest with
    drv.m := { aliasRun 0x7000 with
      tab := (aliasRun 0x7000).tab.resAddWithHandle ⟨1, 1⟩ .function 0x2000 0 0x1000 } }

/-- The kernel of a launch that goes out finds another value than the CPU wrote last. -/
def Launch.Stale (env : GuestEnv) (b : PinnedBuf) (g : GuestSt) (w : Written) (l : Launch) : Prop :=
  l.aims b g = true ∧ ∃ i v u, w i = some v ∧ l.sees env b g i = some u ∧ u ≠ v

/-- The kernel runs on old data when the flag is set, when the argument points into the middle of
the buffer, when the push is refused, when the word is a pinned address, when an asynchronous
copy into the buffer ends behind the push, and when device memory has the buffer's address. -/
theorem kernelInput_stale :
    (∃ g w, InputRun writerEnv id eightBuf writerGuest g w ∧
      g.isGpuDirty 0x7000 = true ∧ (launchOn 0x7000).Stale writerEnv eightBuf g w) ∧
    (∃ g w, InputRun writerEnv id eightBuf writerGuest g w ∧
      (launchOn 0x7004).Stale writerEnv eightBuf g w) ∧
    (∃ g w, InputRun noMemoryEnv id eightBuf writerGuest g w ∧
      (launchOn 0x7000).Stale noMemoryEnv eightBuf g w) ∧
    (∃ g w, InputRun writerEnv id eightBuf writerGuest g w ∧
      g.isGpuDirty 0x7000 = false ∧ (launchOn 0x7000).Stale writerEnv eightBuf g w) ∧
    (∃ g w, InputRun lateEnv id eightBuf writerGuest g w ∧
      (launchOn 0x7000).Stale lateEnv eightBuf g w) ∧
    (∃ g w, InputRun writerEnv id eightBuf aliasedGuest g w ∧
      (launchOn 0x7000).Stale writerEnv eightBuf g w) := by
  refine ⟨?_, ?_, ?_, ?_, ?_, ?_⟩
  · exact ⟨_, _, .step (.store 0 5) (.step (.launch (launchOn 0x7000)) .start (by decide +kernel)) rfl,
      by decide +kernel, by decide +kernel, 0, 5, 0, by decide +kernel, by decide +kernel, by decide⟩
  · exact ⟨_, _, .step (.store 0 5) .start rfl,
      by decide +kernel, 0, 5, 0, by decide +kernel, by decide +kernel, by decide⟩
  · exact ⟨_, _, .step (.store 0 5) .start rfl,
      by decide +kernel, 0, 5, 0, by decide +kernel, by decide +kernel, by decide⟩
  · exact ⟨_, _, .step (.store 1 0x70) .start rfl,
      by decide +kernel, by decide +kernel, 1, 0x70, 0x90, by decide +kernel, by decide +kernel,
      by decide⟩
  · exact ⟨_, _, .step (.store 0 5) (.step (.copy (.cuMemcpyAsync 0x7000 0x8000 8 0)) .start
      (by decide +kernel)) rfl, by decide +kernel, 0, 5, 0, by decide +kernel, by decide +kernel,
      by decide⟩
  · exact ⟨_, _, .step (.store 0 5) .start rfl,
      by decide +kernel, 0, 5, 0, by decide +kernel, by decide +kernel, by decide⟩

end HmCuda
