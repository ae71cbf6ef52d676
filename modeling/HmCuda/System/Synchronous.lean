import HmCuda.System.CopyApis
import HmCuda.System.CopyDirection

/-! The synchronous copy calls of both libraries: only one of them waits for the copies
it has submitted. -/

namespace HmCuda
open Layout AsyncCopy Ranges

/-! A range whose copies are still pending -/

def rangeByte (d : Dir) (real : Nat) (pt : Nat → Nat) (u i : Nat) : (Space × Nat) × (Space × Nat) :=
  d.pair (real + i) (phys pt (u + i))

/-- The range holds what its source held in `m₀`, whatever is written to the source from now
on and whichever copies finish. -/
def Complete (d : Dir) (pt : Nat → Nat) (real u n : Nat) (m₀ : ByteMem Space)
    (g : Engine Space) : Prop :=
  ∀ w : ByteMem Space, (∀ sp a, (∀ i < n, (sp, a) ≠ (rangeByte d real pt u i).2) →
      w sp a = g.mem sp a) → ∀ is, ∀ i < n,
    (Engine.finishMany ⟨w, g.pending⟩ is).mem (rangeByte d real pt u i).1.1
      (rangeByte d real pt u i).1.2 = m₀ (rangeByte d real pt u i).2.1 (rangeByte d real pt u i).2.2

section
variable {d : Dir} {pt : Nat → Nat} {m₀ m₁ : ByteMem Space} {real u tag n : Nat}
  {g : Engine Space} {cs : List (Copy Space)}

theorem Submitted.complete (h : Submitted d pt m₀ real u tag n g cs) (hp : g.pending = []) :
    Complete d pt real u n m₀ g := by
  intro w hw is i hi
  have hidle : Engine.finishMany ⟨w, g.pending⟩ is = ⟨w, g.pending⟩ :=
    Engine.finishMany_idle (g := ⟨w, g.pending⟩) hp is
  have hdst := hw (rangeByte d real pt u i).1.1 (rangeByte d real pt u i).1.2 fun j _ he => by
    cases d <;> cases (Prod.mk.inj he).1
  have hmem : rangeByte d real pt u i ∈ cs.flatMap Copy.pairs := by
    rw [h.pairs]
    exact List.mem_map.mpr ⟨i, List.mem_range.mpr hi, rfl⟩
  rw [hidle]
  exact hdst.trans (h.covers.settled hp _ hmem)

theorem Submitted.not_complete (h : Submitted d pt m₁ real u tag n g cs) (hp : g.pending ≠ []) :
    ¬Complete d pt real u n m₀ g := by
  intro hcomp
  obtain ⟨c, hc⟩ := List.exists_mem_of_ne_nil _ hp
  obtain ⟨j, hj⟩ := List.mem_iff_getElem?.mp hc
  have hcs := h.covers.sub c hc
  have hpos := h.pos c hcs
  have hpair : ((c.dst.1, c.dst.2 + 0), (c.src.1, c.src.2 + 0)) ∈ rangePairs d real pt u n := by
    rw [← h.pairs]
    exact List.mem_flatMap.mpr ⟨c, hcs, List.mem_map.mpr ⟨0, List.mem_range.mpr hpos, rfl⟩⟩
  obtain ⟨i, hi, he⟩ := List.mem_map.mp hpair
  have hi := List.mem_range.mp hi
  have he : rangeByte d real pt u i = ((c.dst.1, c.dst.2 + 0), (c.src.1, c.src.2 + 0)) := he
  obtain ⟨b, hb⟩ : ∃ b : UInt8, b ≠ m₀ c.src.1 (c.src.2 + 0) := by
    by_cases h0 : m₀ c.src.1 (c.src.2 + 0) = 0
    · exact ⟨1, by rw [h0]; decide⟩
    · exact ⟨0, Ne.symm h0⟩
  -- the byte changes before the copy moves
  let w := Function.update g.mem c.src.1
    (Function.update (g.mem c.src.1) (c.src.2 + 0) b)
  have hw (sp : Space) (a : Nat) (hne : ∀ i < n, (sp, a) ≠ (rangeByte d real pt u i).2) :
      w sp a = g.mem sp a := by
    have hne := hne i hi
    rw [he] at hne
    by_cases hsp : sp = c.src.1
    · subst hsp
      have ha : a ≠ c.src.2 + 0 := fun h => hne (by rw [h])
      show Function.update g.mem c.src.1 _ c.src.1 a = _
      rw [Function.update_self, Function.update_of_ne ha]
    · exact congrFun (Function.update_of_ne hsp _ _) a
  have hread := hcomp w hw [j] i hi
  rw [he] at hread
  have hmoved : (Engine.finishMany ⟨w, g.pending⟩ [j]).mem c.dst.1 (c.dst.2 + 0) =
      w c.src.1 (c.src.2 + 0) := Engine.finish_pending (g := ⟨w, g.pending⟩) hj hpos
  have hchanged : w c.src.1 (c.src.2 + 0) = b := by
    show Function.update g.mem c.src.1 _ c.src.1 _ = b
    rw [Function.update_self, Function.update_self]
  exact hb (hchanged.symm.trans (hmoved.symm.trans hread))

end

/-! What the batches leave pending -/

theorem pending_of_deliver {env : Env} {m : Machine} {ws : List RespWrite} {x : Copy Space}
    (h : x ∈ (m.deliver env ws).dev.eng.pending) : x ∈ m.dev.eng.pending :=
  Engine.finishMany_pending_subset _ _ h

section
variable {e : DrvEnv} {pt : Nat → Nat} {m : MemCmd} {d : Dir} {a : MemcpyArgs} {t : Tables}
  {m₀ : ByteMem Space} {real stream tag : Nat} {c : Context}

theorem chunkLoop_unsynced (hs : m.syncs d = false) (k : Key) (dev stream : Nat)
    (chs : List Chunk) (q : QEnv) (v : Device) : (chunkLoop m d k dev stream chs).run q v =
      (Prog.firstError (chunkStep m d k dev stream) chs).run q v := by
  unfold chunkLoop
  rw [Prog.bind_run, hs]
  rfl

theorem batches_idle (hs : Smooth e pt) (hu : a.userAddrStart + a.totalCount ≤ taskSize)
    (hk : a.kind = d.kind) (hdev : a.devPtr + a.totalCount < 2 ^ 64) (hno : m.syncs d = false)
    (hstep : ∀ off (ch : Chunk), off + ch.off < a.totalCount → ∀ v : Device,
      v.eng.pending = [] → ((chunkStep m d e.key (a.devPtr + off) stream ch).run
        ⟨e.sys, t⟩ v).2.eng.pending = []) :
    BatchesKeep e pt m d a t m₀ real stream tag fun _ g => g.pending = [] := by
  intro off s s' pfns sv hlt hI hJ hb
  obtain ⟨-, hm⟩ := hb.mem_machine hs hu hk hdev hI.req hI.tab hlt
  have hcount := batchAt_count_rem a off
  have hlen := (hs.ready hu hlt).totalLen
  rw [hm, List.eq_nil_iff_forall_not_mem]
  intro x hx
  have hx := pending_of_deliver hx
  rw [chunkLoop_unsynced hno] at hx
  have hchunk : ∀ ch ∈ tile 0 (batchData a off (framesAt pt a off)), ∀ v : Device,
      v.eng.pending = [] → ((chunkStep m d e.key (a.devPtr + off) stream ch).run
        ⟨e.sys, t⟩ v).2.eng.pending = [] := by
    intro ch hch v hv
    obtain ⟨-, h2, h3, h4⟩ := mem_tile hch
    have hchpos := batchData_pos a off _ _ h3
    exact hstep off ch (by omega) v hv
  have hnil := Prog.firstError_keeps (P := fun v : Device => v.eng.pending = []) hchunk
    (s := (s.shown e m.copy a off).dev) hJ
  rw [hnil] at hx
  cases hx

theorem batches_pending (hs : Smooth e pt) (hu : a.userAddrStart + a.totalCount ≤ taskSize)
    (hk : a.kind = d.kind) (hdev : a.devPtr + a.totalCount < 2 ^ 64) (hno : m.syncs d = false)
    (hlazy : ∀ k, e.sys.dma k = []) (hc : t.ctxGet e.key = some c) (hpos : 0 < real)
    (hmem : ∀ i < a.totalCount, c.resGet .mem (a.devPtr + i) = real + i) :
    BatchesKeep e pt m d a t m₀ real stream tag fun off g => 0 < off → g.pending ≠ [] := by
  intro off s s' pfns sv hlt hI _ hb _
  obtain ⟨-, hm⟩ := hb.mem_machine hs hu hk hdev hI.req hI.tab hlt
  have hcount := batchAt_count_rem a off
  have hready := hs.ready hu hlt
  have hlen := hready.totalLen
  have hstep (ch : Chunk) (hch : ch ∈ tile 0 (batchData a off (framesAt pt a off)))
      (v : Device) : ((chunkStep m d e.key (a.devPtr + off) stream ch).run
        ⟨e.sys, t⟩ v).2.eng.pending ≠ [] := by
    obtain ⟨-, h2, h3, h4⟩ := mem_tile hch
    have hchpos := batchData_pos a off _ _ h3
    have hadd : add64 (a.devPtr + off) ch.off = a.devPtr + (off + ch.off) := by
      rw [add64_of_lt (by omega), Nat.add_assoc]
    have hres := hmem (off + ch.off) (by omega)
    rw [chunkStep_mem (q := ⟨e.sys, t⟩) hc (by rw [hadd, hres]; omega), Dir.async, copyAsync]
    simp [hs.ret, hlazy, Engine.finishMany, Engine.submit]
  rw [hm, deliver_pending (hlazy _), chunkLoop_unsynced hno]
  obtain ⟨ch, chs, htile, -, -⟩ := tile_cons hready.data (batchData_pos _ _ _)
  rw [htile] at hstep ⊢
  have hfirst := hstep ch List.mem_cons_self (s.shown e m.copy a off).dev
  rw [Prog.firstError_cons]
  split
  · exact hfirst
  · exact Prog.firstError_keeps (P := fun v : Device => v.eng.pending ≠ [])
      (fun x hx v _ => hstep x (List.mem_cons_of_mem _ hx) v) hfirst

end

/-! The calls -/

/-- The copy calls that return when the copy is done. -/
inductive CopyApi where
  | runtime | driver | unified
  deriving DecidableEq, Repr

/-- `cudaMemcpy`; `cuMemcpyHtoD` and `cuMemcpyDtoH`; `cuMemcpy`. -/
def CopyApi.run (api : CopyApi) (d : Dir) (host dev n : Nat) : GuestM (Option Nat) :=
  match api, d with
  | runtime, d => runtimeCopy d host dev n
  | driver, d => driverCopy d host dev n
  | unified, .htod => cuMemcpy dev host n
  | unified, .dtoh => cuMemcpy host dev n

/-- Every request of the process reaches the driver, and goes well there. -/
structure Linking (env : GuestEnv) (key : Key) (pt : Nat → Nat) : Prop where
  arg : ∀ k, (env.drv k).arg + dispatchLen (sizeof memcpyReq) 0 ≤ taskSize
  smooth : ∀ k, Smooth (env.drv k) pt
  key : ∀ k, (env.drv k).key = key

/-- The DMA engine finishes the copies `dma` after each step of each request. -/
def GuestEnv.scheduled (env : GuestEnv) (dma : Nat → Nat → List Nat) : GuestEnv :=
  { env with drv := fun k =>
    let e := env.drv k
    { e with sys := { e.sys with dma := dma k } } }

theorem Linking.scheduled {env : GuestEnv} {key : Key} {pt : Nat → Nat} (h : Linking env key pt)
    (dma : Nat → Nat → List Nat) : Linking (env.scheduled dma) key pt :=
  ⟨h.arg, fun k => have hs := h.smooth k; ⟨hs.alloc, hs.pin, hs.queue, hs.out, hs.ret⟩, h.key⟩

/-- A copy between `n` bytes of the guest at `host` and device memory at `dev`; no copy is
pending, and if the flag of `host` is set a pinned buffer is there. -/
structure SyncCopy (key : Key) (pt : Nat → Nat) (host dev n : Nat) (g : GuestSt) : Prop where
  transport : g.transport = ⟨false, true⟩
  user : host + n ≤ taskSize
  frames : Separate pt host n
  idle : g.drv.m.dev.eng.pending = []
  session : ∃ c, g.drv.m.tab.ctxGet key = some c ∧ Placed c ∧ 0 < dev ∧ dev + n < 2 ^ 64 ∧
    (∀ i < n, c.resGet .mem (dev + i) = dev + i) ∧
    (g.isGpuDirty host = true → ∃ r ∈ c.resources .hostMem, r.handle = host ∧ n ≤ r.size ∧
      ∀ i < n, ¬∃ x ∈ c.resources .mem, Inside Resource.handle Resource.size x (host + i))

section
variable {env : GuestEnv} {key : Key} {g : GuestSt} {pt : Nat → Nat} {m : MemCmd} {d : Dir}
  {host dev n : Nat}

theorem Linking.linked (h : Linking env key pt) (hg : g.transport = ⟨false, true⟩) :
    Linked env g pt := ⟨hg, h.arg _, h.smooth _⟩

theorem pinnedOut_sent {e : DrvEnv} {hdr p : Nat → UInt8} {s : DrvSt} {c : Context} {r : Resource}
    {u o n stream : Nat} (hs : Smooth e pt) (hb : Built e MemCmd.cuMemcpy.copy hdr p)
    (ha : (memReq p).args = ⟨u, n, r.handle + o, Dir.dtoh.kind⟩) (hst : (memReq p).stream = stream)
    (hu : u + n ≤ taskSize) (hsep : Separate pt u n) (hidle : s.m.dev.eng.pending = [])
    (hc : s.m.tab.ctxGet e.key = some c) (hp : PinnedRange c r o n) :
    RangeSent .cuMemcpy .dtoh pt (r.realPtr + o) u (resolveStream c stream) n e.caller s
        (hmcudaIoctl.run e s) ∧ (hmcudaIoctl.run e s).2.m.dev.eng.pending = [] := by
  have hsize := hp.size
  have hkey := hp.key
  have hkeep : BatchesKeep e pt .cuMemcpy .dtoh ⟨u, n, r.handle + o, Dir.dtoh.kind⟩ s.m.tab
      s.m.dev.eng.mem (r.realPtr + o) stream (resolveStream c stream) fun _ g => g.pending = [] := by
    refine batches_idle hs hu rfl (by dsimp only; omega) rfl fun off ch hlt v hv => ?_
    -- the CPU copies the chunk, and the engine has nothing to do
    obtain ⟨v', hrun, heng⟩ := chunkStep_pinnedOut (q := ⟨e.sys, s.m.tab⟩) hc hp hlt stream 0 v
    rw [hrun, heng]
    exact hv
  exact hmcudaIoctl_smooth_keeps hs hb ha hst hu hsep (by omega) hidle hc
    (chunksMove_pinnedOut hc hp (resolveStream c stream)) hkeep fun _ hg => hg

theorem Linked.pull_sent (hl : Linked env g pt) {c : Context} {r : Resource} {stream : Nat}
    (huser : r.handle + n ≤ taskSize) (hsep : Separate pt r.handle n)
    (hidle : g.drv.m.dev.eng.pending = [])
    (hc : g.drv.m.tab.ctxGet (env.drv g.sent.length).key = some c) (hp : Placed c)
    (hr : r ∈ c.resources .hostMem) (hn : n ≤ r.size)
    (hno : ∀ i < n, ¬∃ x ∈ c.resources .mem, Inside Resource.handle Resource.size x (r.handle + i))
    (hs : stream < 2 ^ 64) :
    RangeSent .cuMemcpy .dtoh pt r.realPtr r.handle (resolveStream c stream) n
        (env.drv g.sent.length).caller g.drv (hmcudaIoctl.run (env.caller g
          MemCmd.cuMemcpy.copy.cmd.code (Dir.dtoh.request r.handle r.handle n stream)) g.drv) ∧
      (hmcudaIoctl.run (env.caller g MemCmd.cuMemcpy.copy.cmd.code
        (Dir.dtoh.request r.handle r.handle n stream)) g.drv).2.m.dev.eng.pending = [] := by
  have htask : taskSize < 2 ^ 47 := by decide
  obtain ⟨hdr, p, hb, ha, hst⟩ := hl.built .dtoh r.handle r.handle n stream .cuMemcpy (by omega)
    (by omega) (by omega) hs
  have hcall := hl.calling MemCmd.cuMemcpy.copy.cmd.code (Dir.dtoh.request r.handle r.handle n stream)
  exact pinnedOut_sent (o := 0) hcall hb ha hst huser hsep hidle hc
    (hp.pinnedRange hr (by omega) hno)

/-- A request for a copy goes out and is answered 0; one that does not synchronize leaves
copies pending if the DMA engine does nothing. -/
theorem SyncCopy.sent (L : Linking env key pt) (h : SyncCopy key pt host dev n g) (m : MemCmd)
    (d : Dir) : ∃ tag, RangeSent m d pt dev host tag n (env.drv g.sent.length).caller g.drv
      (hmcudaIoctl.run (env.caller g m.copy.cmd.code (d.request host dev n 0)) g.drv) ∧
    (m.syncs d = false → (∀ i k, (env.drv i).sys.dma k = []) → 0 < n →
      (g.copied env m d host dev n).drv.m.dev.eng.pending ≠ []) := by
  obtain ⟨c, hc, -, hpos, hwrap, hmem, -⟩ := h.session
  have htask : taskSize < 2 ^ 47 := by decide
  have huser := h.user
  have hl := L.linked h.transport
  have hcall := hl.calling m.copy.cmd.code (d.request host dev n 0)
  have hkey : (env.caller g m.copy.cmd.code (d.request host dev n 0)).key = key := L.key _
  obtain ⟨hdr, p, hb, ha, hs⟩ := hl.built d host dev n 0 m (by omega) (by omega) (by omega)
    (by omega)
  rw [← hkey] at hc
  have hmove : ChunksMove m d (env.caller g m.copy.cmd.code (d.request host dev n 0)).key
      ⟨(env.caller g m.copy.cmd.code (d.request host dev n 0)).sys, g.drv.m.tab⟩
      g.drv.m.dev.eng.mem dev n dev 0 (resolveStream c 0) :=
    chunksMove_mem hcall.ret hc hwrap (fun _ => hpos) hmem
  refine ⟨_, hmcudaIoctl_smooth hcall hb ha hs h.user h.frames hwrap h.idle hc hmove,
    fun hno hlazy hn => ?_⟩
  have hkeep : BatchesKeep (env.caller g m.copy.cmd.code (d.request host dev n 0)) pt m d
      ⟨host, n, dev, d.kind⟩ g.drv.m.tab g.drv.m.dev.eng.mem dev 0 (resolveStream c 0)
      fun off g => 0 < off → g.pending ≠ [] :=
    batches_pending hcall h.user rfl hwrap hno (fun k => hlazy _ k) hc hpos hmem
  exact (hmcudaIoctl_smooth_keeps hcall hb ha hs h.user h.frames hwrap h.idle hc hmove hkeep
    fun _ _ h0 => absurd h0 (lt_irrefl 0)).2 hn

theorem SyncCopy.pull (L : Linking env key pt) (h : SyncCopy key pt host dev n g) :
    ∃ g', (pullDirty host n 0).run env g = (none, g') ∧ SyncCopy key pt host dev n g' := by
  unfold pullDirty
  simp only [Prog.bind_run, Prog.get_run]
  by_cases hf : g.isGpuDirty host = true
  swap
  · simp only [hf]
    exact ⟨g, rfl, h⟩
  obtain ⟨c, hc, hp, hpos, hwrap, hmem, hdirty⟩ := h.session
  obtain ⟨r, hr, rfl, hn, hno⟩ := hdirty hf
  have hl := L.linked h.transport
  have hck := hc
  rw [← L.key g.sent.length] at hck
  obtain ⟨hsent, hidle⟩ := hl.pull_sent h.user h.frames h.idle hck hp hr hn hno (by decide : 0 < 2 ^ 64)
  have hd := hl.dispatch_sent hsent
  have hsend : (sendCuMemcpy r.handle r.handle n 2 0).run env g =
      (some 0, g.copied env .cuMemcpy .dtoh r.handle r.handle n) := by
    simp only [sendCuMemcpy, Prog.bind_run, Prog.pure_run, drvDispatch_opened h.transport]
    exact congrArg (fun x => (x.1.ret, x.2)) hd
  simp only [hf, if_true, syncDirtyHostSrcToGuest, Prog.bind_run, hsend]
  refine ⟨_, rfl, h.transport, h.user, h.frames, hidle, c, ?_, hp, hpos, hwrap, hmem, fun _ =>
    ⟨r, hr, rfl, hn, hno⟩⟩
  have htab := hsent.tab
  show (hmcudaIoctl.run _ g.drv).2.m.tab.ctxGet key = some c
  rw [htab]
  exact hc

/-- What the calls with a host and a device range come down to: a pull if the source is
dirty, and one request. -/
theorem SyncCopy.call (L : Linking env key pt) (h : SyncCopy key pt host dev n g) (api : CopyApi)
    (d : Dir) (known : api = .unified → g.deviceHandles dev = true ∧ g.deviceHandles host = false) :
    ∃ g' m, SyncCopy key pt host dev n g' ∧ (m = .memcpy ↔ api = .runtime) ∧
      (api = .runtime → g' = g) ∧ ((api.run d host dev n).run env g).1 = some 0 ∧
      ((api.run d host dev n).run env g).2.drv = (g'.copied env m d host dev n).drv := by
  have request {g' : GuestSt} (h' : SyncCopy key pt host dev n g') (m : MemCmd) :
      (dispatch m.copy.cmd (d.request host dev n 0) 0).run env g' =
        (⟨some 0, none⟩, g'.copied env m d host dev n) := by
    obtain ⟨tag, hs, -⟩ := h'.sent L m d
    exact (L.linked h'.transport).dispatch_sent hs
  have send (g' : GuestSt) (h' : SyncCopy key pt host dev n g') (dst src kind : Nat)
      (hreq : memcpyRequest dst src n kind 0 = d.request host dev n 0) :
      (sendCuMemcpy dst src n kind 0).run env g' =
        (some 0, g'.copied env .cuMemcpy d host dev n) := by
    simp only [sendCuMemcpy, Prog.bind_run, Prog.pure_run, drvDispatch_opened h'.transport, hreq]
    exact congrArg (fun x => (x.1.ret, x.2)) (request h' .cuMemcpy)
  have driver : ∃ g', SyncCopy key pt host dev n g' ∧
      ((driverCopy d host dev n).run env g).1 = some 0 ∧
      ((driverCopy d host dev n).run env g).2.drv = (g'.copied env .cuMemcpy d host dev n).drv := by
    cases d with
    | htod =>
      obtain ⟨g', hpull, h'⟩ := h.pull L
      refine ⟨g', h', ?_⟩
      simp only [driverCopy, cuMemcpyHtoD, Prog.bind_run, hpull, send g' h' dev host 1 rfl]
      exact ⟨trivial, trivial⟩
    | dtoh =>
      refine ⟨g, h, ?_⟩
      simp only [driverCopy, cuMemcpyDtoH, Prog.bind_run, send g h host dev 2 rfl]
      exact ⟨rfl, rfl⟩
  cases api with
  | runtime =>
    refine ⟨g, .memcpy, h, by simp, fun _ => rfl, ?_⟩
    have hd := request h .memcpy
    cases d <;> simp only [CopyApi.run, runtimeCopy, cudaMemcpy, Prog.bind_run, Prog.pure_run]
    · exact ⟨congrArg (fun x => x.1.ret) hd, congrArg (fun x => x.2.drv) hd⟩
    · exact ⟨congrArg (fun x => x.1.ret) hd, congrArg (fun x => x.2.drv) hd⟩
  | driver =>
    obtain ⟨g', h', hr⟩ := driver
    exact ⟨g', .cuMemcpy, h', by simp, by simp, hr⟩
  | unified =>
    obtain ⟨hdev, hhost⟩ := known rfl
    obtain ⟨g', h', hr⟩ := driver
    refine ⟨g', .cuMemcpy, h', by simp, by simp, ?_⟩
    -- the handles tell the direction, and the route is the one of the two functions
    cases d with
    | htod =>
      have hrun : (cuMemcpy dev host n).run env g = (driverCopy .htod host dev n).run env g := by
        simp [cuMemcpy, cuMemcpyAsync, driverCopy, cuMemcpyHtoD, hdev, hhost]
      rw [CopyApi.run, hrun]
      exact hr
    | dtoh =>
      have hrun : (cuMemcpy host dev n).run env g = (driverCopy .dtoh host dev n).run env g := by
        simp [cuMemcpy, cuMemcpyAsync, driverCopy, cuMemcpyDtoH, hdev, hhost]
      rw [CopyApi.run, hrun]
      exact hr

/-- While the DMA engine does nothing, a call that does not wait returns too early. -/
theorem SyncCopy.incomplete (L : Linking env key pt) (h : SyncCopy key pt host dev n g)
    (api : CopyApi) (d : Dir)
    (known : api = .unified → g.deviceHandles dev = true ∧ g.deviceHandles host = false)
    (hsync : ¬(api = .runtime ∧ d = .dtoh)) (hn : n ≠ 0) :
    ((api.run d host dev n).run (env.scheduled fun _ _ => []) g).1 = some 0 ∧
      ¬Complete d pt dev host n g.drv.m.dev.eng.mem
        ((api.run d host dev n).run (env.scheduled fun _ _ => []) g).2.drv.m.dev.eng := by
  have L' := L.scheduled fun _ _ => []
  obtain ⟨g', m, h', hm, -, hret, hdrv⟩ := h.call L' api d known
  obtain ⟨tag, hs, hpend⟩ := h'.sent L' m d
  obtain ⟨cs, hsub⟩ := hs.subm
  have hunsynced : m.syncs d = false := by
    by_contra hms
    simp only [MemCmd.syncs, Bool.not_eq_false, decide_eq_true_eq] at hms
    exact hsync ⟨hm.mp hms.1, hms.2⟩
  refine ⟨hret, ?_⟩
  rw [hdrv]
  exact hsub.not_complete (hpend hunsynced (fun _ _ => rfl) (Nat.pos_of_ne_zero hn))

/-- A synchronous call has copied its range when it returns, under every schedule of the DMA
engine, exactly when it is cudaMemcpy to the host or copies nothing. -/
theorem syncCopy_complete_iff (L : Linking env key pt) (h : SyncCopy key pt host dev n g)
    (api : CopyApi) (d : Dir)
    (known : api = .unified → g.deviceHandles dev = true ∧ g.deviceHandles host = false) :
    (∀ dma, ((api.run d host dev n).run (env.scheduled dma) g).1 = some 0 →
      Complete d pt dev host n g.drv.m.dev.eng.mem
        ((api.run d host dev n).run (env.scheduled dma) g).2.drv.m.dev.eng) ↔
      (api = .runtime ∧ d = .dtoh) ∨ n = 0 := by
  constructor
  · intro hall
    by_contra hno
    obtain ⟨hsync, hn⟩ := not_or.mp hno
    obtain ⟨hret, hbad⟩ := h.incomplete L api d known hsync hn
    exact hbad (hall (fun _ _ => []) hret)
  · rintro (⟨rfl, rfl⟩ | rfl) dma hret
    · have L' := L.scheduled dma
      obtain ⟨g', m, -, hm, hg, -, hdrv⟩ := h.call L' .runtime .dtoh known
      obtain rfl := hg rfl
      obtain rfl := hm.mpr rfl
      obtain ⟨tag, hs, -⟩ := h.sent L' .memcpy .dtoh
      obtain ⟨cs, hsub⟩ := hs.subm
      rw [hdrv]
      exact hsub.complete (hs.synced rfl)
    · exact fun _ _ _ i hi => absurd hi (Nat.not_lt_zero i)

end

theorem eightBytesEnv_linking : Linking eightBytesEnv ⟨1, 1⟩ id :=
  ⟨fun _ => Nat.le_of_ble_eq_true rfl, fun _ => ⟨fun _ => rfl, fun _ _ _ => rfl, fun _ => rfl, rfl,
    fun _ _ => rfl⟩, fun _ => rfl⟩

theorem eightBytesGuest_sync (dirty : Bool) :
    SyncCopy ⟨1, 1⟩ id 0x7000 0x8000 8 (eightBytesGuest dirty) := by
  have h := eightBytesGuest_copy dirty
  obtain ⟨c, hc, hp, hpos, ⟨x, hx, hlo, hhi⟩, r, hr, o, ho, hn, hno⟩ := h.session
  obtain ⟨c', hc', hp', hm, hh⟩ := aliasRun_placed 0x8000 (by decide)
  have hid := h.reachable.identity c (List.mem_of_find?_eq_some hc)
  refine ⟨h.linked.transport, h.user, h.frames, h.idle, c, hc, hp, by decide, by decide,
    fun i hi => resGet_mem_inside hp.device hid ⟨x, hx, hlo.trans (Nat.le_add_right _ _), by omega⟩,
    fun _ => ?_⟩
  obtain rfl : c' = c := Option.some.inj (hc'.symm.trans hc)
  rw [hh, hm]
  exact ⟨_, List.mem_singleton_self _, rfl, by decide, by decide⟩

/-- cudaMemcpy of 8 bytes to the host is complete under a DMA engine that only finishes copies
for the synchronize. -/
theorem syncCopy_complete_iff_eightBytes :
    Complete .dtoh id 0x8000 0x7000 8 (eightBytesGuest false).drv.m.dev.eng.mem
      ((CopyApi.runtime.run .dtoh 0x7000 0x8000 8).run (eightBytesEnv.scheduled fun _ _ => [])
        (eightBytesGuest false)).2.drv.m.dev.eng := by
  have L := eightBytesEnv_linking.scheduled fun _ _ => []
  obtain ⟨-, -, -, -, -, hret, -⟩ :=
    (eightBytesGuest_sync false).call L .runtime .dtoh (by decide)
  exact (syncCopy_complete_iff eightBytesEnv_linking (eightBytesGuest_sync false) .runtime .dtoh
    (by decide)).mpr (.inl ⟨rfl, rfl⟩) (fun _ _ => []) hret

/-- cudaMemcpy of 8 bytes to the device returns 0 with its copy pending. -/
theorem syncCopy_incomplete :
    ((CopyApi.runtime.run .htod 0x7000 0x8000 8).run (eightBytesEnv.scheduled fun _ _ => [])
        (eightBytesGuest false)).1 = some 0 ∧
      ¬Complete .htod id 0x8000 0x7000 8 (eightBytesGuest false).drv.m.dev.eng.mem
        ((CopyApi.runtime.run .htod 0x7000 0x8000 8).run (eightBytesEnv.scheduled fun _ _ => [])
          (eightBytesGuest false)).2.drv.m.dev.eng :=
  (eightBytesGuest_sync false).incomplete eightBytesEnv_linking .runtime .htod (by decide)
    (by decide) (by decide)

end HmCuda
