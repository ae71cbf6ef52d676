import HmCuda.Driver.GupSpec

/-! What an ioctl holds while it runs (buffers, pinned pages, requests on the queue and the
mutex), and that it holds nothing when it returns. -/

namespace HmCuda
open Layout

/-- What was taken and not given back yet; pages are held by the batch. -/
structure Held where
  bufs : List Buf
  pages : List (List Nat)
  queued : List Elem
  locked : Bool
  deriving DecidableEq

namespace Held

def nothing : Held := ⟨[], [], [], false⟩

/-- What is held after an event. There is none if a buffer is freed or a batch of pages is
unpinned that is not held, if pages are unpinned while a request is on the queue, or if the
mutex is taken twice or released by another. -/
def step (h : Held) : Ev → Option Held
  | .alloc b => some { h with bufs := b :: h.bufs }
  | .free b => if b ∈ h.bufs then some { h with bufs := h.bufs.erase b } else none
  | .pin pfns => some { h with pages := pfns :: h.pages }
  | .unpin pfns _ =>
    if pfns ∈ h.pages ∧ h.queued = [] then some { h with pages := h.pages.erase pfns } else none
  | .lock => if h.locked then none else some { h with locked := true }
  | .unlock => if h.locked then some { h with locked := false } else none
  | .submit e => if h.locked then some { h with queued := e :: h.queued } else none
  | .complete e => if e ∈ h.queued then some { h with queued := h.queued.erase e } else none

def after (h : Held) (evs : List Ev) : Option Held := evs.foldlM step h

theorem after_append {h h' : Held} {evs : List Ev} (hh : h.after evs = some h') (evs' : List Ev) :
    h.after (evs ++ evs') = h'.after evs' := by
  unfold after at hh ⊢
  rw [List.foldlM_append, hh]
  rfl

end Held

def Balanced (evs : List Ev) : Prop := Held.nothing.after evs = some .nothing

instance (evs : List Ev) : Decidable (Balanced evs) :=
  inferInstanceAs (Decidable (_ = _))

/-- From what `h` holds on, `m` does only what it may, and ends with `Q`. -/
def Spends {α : Type} (h : Held) (m : DrvM α) (Q : α → Held → Prop) : Prop :=
  ∀ e s, ∃ evs h', (m.run e s).2.evs = s.evs ++ evs ∧ h.after evs = some h' ∧ Q (m.run e s).1 h'

section Spends
variable {α β : Type} {h : Held} {m : DrvM α} {f : α → DrvM β} {Q : α → Held → Prop}
  {R : β → Held → Prop}

theorem spends_pure {a : α} (hq : Q a h) : Spends h (pure a) Q := fun _ s =>
  ⟨[], h, (List.append_nil s.evs).symm, rfl, hq⟩

theorem spends_bind (hm : Spends h m Q) (hf : ∀ a h', Q a h' → Spends h' (f a) R) :
    Spends h (m >>= f) R := by
  intro e s
  obtain ⟨x, h₁, hx, h1, hq⟩ := hm e s
  obtain ⟨y, h₂, hy, h2, hr⟩ := hf _ _ hq e (m.run e s).2
  refine ⟨x ++ y, h₂, ?_, (Held.after_append h1 y).trans h2, hr⟩
  rw [Prog.bind_run, hy, hx, List.append_assoc]

theorem spends_ev {x : Ev} {t : Held} {f : Unit → DrvM β} (hx : h.step x = some t)
    (hf : Spends t (f ()) R) : Spends h (ev x >>= f) R := by
  refine spends_bind (Q := fun _ u => u = t) (fun _ s => ⟨[x], t, rfl, ?_, rfl⟩) ?_
  · rw [Held.after, List.foldlM_cons, hx]
    rfl
  · rintro _ _ rfl
    exact hf

theorem spends_quiet (hm : ∀ e s, (m.run e s).2.evs = s.evs) (hf : ∀ a, Spends h (f a) R) :
    Spends h (m >>= f) R := by
  refine spends_bind (Q := fun _ t => t = h) (fun e s => ⟨[], h, ?_, rfl, rfl⟩) ?_
  · rw [hm, List.append_nil]
  · rintro a _ rfl
    exact hf a

theorem spends_ite {c : Prop} [Decidable c] {m n : DrvM α} (hm : c → Spends h m Q)
    (hn : ¬c → Spends h n Q) : Spends h (if c then m else n) Q := by
  split
  next hc => exact hm hc
  next hc => exact hn hc

theorem spends_unpin {pfns : List Nat} {t : Held} {f : Unit → DrvM β}
    (hx : ∀ p, h.step (.unpin pfns p) = some t) (hf : Spends t (f ()) R) :
    Spends h (unpin pfns >>= f) R :=
  spends_quiet (m := Prog.get) (f := fun s => ev (.unpin pfns s.m.dev.eng.pending) >>= f)
    (fun _ _ => rfl) fun _ => spends_ev (hx _) hf

theorem spends_kmalloc {b : Buf} {f : Bool → DrvM β}
    (ht : Spends { h with bufs := b :: h.bufs } (f true) R) (hf : Spends h (f false) R) :
    Spends h (kmalloc b >>= f) R := by
  refine spends_bind (Q := fun r t => (r = true ∧ t = { h with bufs := b :: h.bufs }) ∨
    (r = false ∧ t = h)) (fun e s => ?_) ?_
  · rw [kmalloc_run]
    split
    · exact ⟨[.alloc b], _, rfl, rfl, .inl ⟨rfl, rfl⟩⟩
    · exact ⟨[], h, (List.append_nil _).symm, rfl, .inr ⟨rfl, rfl⟩⟩
  · rintro _ _ (⟨rfl, rfl⟩ | ⟨rfl, rfl⟩)
    · exact ht
    · exact hf

end Spends

/-- A return leaves exactly `h`; the other ways to end keep its buffers. -/
def Halt.Leaves (h : Held) (r : Halt) (h' : Held) : Prop :=
  (∀ n, r = .ret n → h' = h) ∧ h'.bufs = h.bufs

theorem Halt.leaves (h : Held) (r : Halt) : r.Leaves h h := ⟨fun _ _ => rfl, rfl⟩

section Parts
variable {cmd tr tp : Nat}

theorem getReqSizes_spends (h : Held) (cmd : Nat) : Spends h (getReqSizes cmd) fun _ t => t = h := by
  unfold getReqSizes
  rcases cmdGetSizes cmd none with _ | sizes
  · exact spends_pure rfl
  refine spends_ite (fun _ => spends_kmalloc ?_ (spends_pure rfl)) fun _ => spends_pure rfl
  have hfree : Held.step { h with bufs := .fixedReq :: h.bufs } (.free .fixedReq) = some h := by
    simp [Held.step]
  refine spends_quiet (fun _ _ => rfl) fun e => ?_
  rcases e.fetch 1 (sizeof reqHeader) sizes.reqSize with _ | p
  · exact spends_ev hfree (spends_pure rfl)
  · refine spends_ev hfree ?_
    rcases cmdGetSizes cmd (some p) with _ | sizes₂ <;> exact spends_pure rfl

def Held.withRequest (h : Held) : Held := { h with bufs := .resp :: .req :: h.bufs }

def Built.Leaves (h : Held) (r : Except Halt (Nat × Nat)) (h' : Held) : Prop :=
  match r with
  | .error halt => ∀ n, halt = .ret n → h' = h
  | .ok _ => h' = h.withRequest

theorem buildReqBuf_spends (h : Held) (hdr : Nat → UInt8) (reqLen respLen : Nat) :
    Spends h (buildReqBuf hdr reqLen respLen) (Built.Leaves h) := by
  unfold buildReqBuf
  refine spends_quiet (fun _ _ => rfl) fun e => spends_kmalloc (spends_kmalloc ?_ ?_) ?_
  · refine spends_quiet (fun _ _ => rfl) fun _ => ?_
    refine spends_ite (fun _ => spends_pure fun _ h => by cases h) fun _ => ?_
    refine spends_quiet (fun _ _ => rfl) fun _ => spends_ite (fun _ => ?_) fun _ => spends_pure rfl
    rcases e.fetch 2 (sizeof reqHeader) reqLen with _ | p
    · refine spends_ev (t := { h with bufs := .req :: h.bufs }) (by simp [Held.step]) ?_
      exact spends_ev (t := h) (by simp [Held.step]) (spends_pure fun _ _ => rfl)
    · exact spends_quiet (fun _ _ => rfl) fun _ => spends_pure rfl
  · exact spends_ev (t := h) (by simp [Held.step]) (spends_pure fun _ _ => rfl)
  · exact spends_pure fun _ _ => rfl

def Batch.Leaves (h : Held) (r : Except Halt Nat) (h' : Held) : Prop :=
  match r with
  | .error halt => halt.Leaves h h'
  | .ok _ => h' = h

theorem gupBatch_spends (h : Held) (hq : h.queued = []) (hl : h.locked = false) (a : MemcpyArgs)
    (off : Nat) : Spends h (gupBatch cmd tr tp a off) (Batch.Leaves h) := by
  obtain ⟨bufs, pages, _, _⟩ := h
  dsimp only at hq hl
  subst hq hl
  unfold gupBatch
  refine spends_quiet (fun _ _ => rfl) fun e => ?_
  dsimp only
  rcases e.pin ((batchAt a off).userAddr / pageSize * pageSize) (batchAt a off).pages
    (a.kind = 2) with err | pfns
  · exact spends_pure (Halt.leaves _ _)
  refine spends_ev (t := ⟨bufs, pfns :: pages, [], false⟩) rfl ?_
  refine spends_ite (fun _ => ?_) fun _ => ?_
  · -- a partial pin
    refine spends_unpin (t := ⟨bufs, pages, [], false⟩) (fun p => by simp [Held.step]) ?_
    exact spends_pure (Halt.leaves _ _)
  refine spends_ite (fun _ => spends_pure ⟨nofun, rfl⟩) fun _ => ?_
  refine spends_quiet (fun _ _ => rfl) fun s => spends_quiet (fun _ _ => rfl) fun _ => ?_
  refine spends_ev (t := ⟨bufs, pfns :: pages, [], true⟩) rfl ?_
  generalize memcpyElem e.caller tr tp a.kind (coalesce _ _ pfns) = elem
  -- the queue takes the request, or the batch is given up
  rcases e.addSgs off with _ | err
  · refine spends_bind (Q := fun _ t => t = ⟨bufs, pfns :: pages, [elem], true⟩)
      (fun _ s => ⟨[.submit elem], _, rfl, rfl, rfl⟩) ?_
    rintro _ _ rfl
    refine spends_quiet (fun _ _ => rfl) fun o => ?_
    rcases o with _ | served
    · exact spends_pure ⟨nofun, rfl⟩
    refine spends_ev (t := ⟨bufs, pfns :: pages, [], true⟩) (by simp [Held.step]) ?_
    refine spends_ev (t := ⟨bufs, pfns :: pages, [], false⟩) rfl ?_
    refine spends_unpin (t := ⟨bufs, pages, [], false⟩) (fun p => by simp [Held.step]) ?_
    refine spends_quiet (fun _ _ => rfl) fun t => spends_quiet (fun _ _ => rfl) fun _ => ?_
    exact spends_ite (fun _ => spends_pure (Halt.leaves _ _)) fun _ => spends_pure rfl
  · refine spends_ev (t := ⟨bufs, pfns :: pages, [], false⟩) rfl ?_
    refine spends_unpin (t := ⟨bufs, pages, [], false⟩) (fun p => by simp [Held.step]) ?_
    exact spends_pure (Halt.leaves _ _)

theorem gupLoop_spends (h : Held) (hq : h.queued = []) (hl : h.locked = false) (a : MemcpyArgs)
    (fuel off : Nat) : Spends h (gupLoop cmd tr tp a fuel off) (Halt.Leaves h) := by
  induction fuel generalizing off with
  | zero => exact spends_pure ⟨nofun, rfl⟩
  | succ fuel ih =>
    refine spends_ite (fun _ => spends_bind (gupBatch_spends h hq hl a off) fun r t ht => ?_)
      fun _ => spends_pure (Halt.leaves h _)
    rcases r with halt | next
    · exact spends_pure ht
    · obtain rfl : t = h := ht
      exact ih next

theorem spends_free {α : Type} {h : Held} {b : Buf} {f : Unit → DrvM α} {Q : α → Held → Prop}
    (hb : b ∈ h.bufs) (hf : Spends { h with bufs := h.bufs.erase b } (f ()) Q) :
    Spends h (ev (.free b) >>= f) Q := spends_ev (if_pos hb) hf

theorem Halt.Leaves.erase {h h' : Held} {r : Halt} {l : List Buf} (ht : r.Leaves h h')
    {bs : List Buf} (hb : bs = l) : r.Leaves { h with bufs := l } { h' with bufs := bs } := by
  subst hb
  exact ⟨fun n hn => by rw [ht.1 n hn], rfl⟩

theorem doMemcpyGup_spends (h : Held) (hq : h.queued = []) (hl : h.locked = false)
    (a : MemcpyArgs) : Spends h (doMemcpyGup cmd tr tp a) (Halt.Leaves h) := by
  refine spends_kmalloc (spends_kmalloc ?_ ?_) (spends_pure (Halt.leaves h _))
  · refine spends_bind (gupLoop_spends { h with bufs := .sgBatch :: .pages :: h.bufs }
      hq hl a _ _) fun r t ht => ?_
    have hbufs : t.bufs = .sgBatch :: .pages :: h.bufs := ht.2
    refine spends_free (by simp [hbufs]) (spends_free (by simp [hbufs]) (spends_pure ?_))
    exact ht.erase (by simp [hbufs])
  · exact spends_free (by simp) (spends_pure ((Halt.leaves h _).erase (by simp)))

theorem doSimpleCmd_spends (h : Held) (hl : h.locked = false) :
    Spends h (doSimpleCmd tr tp) (Halt.Leaves h) := by
  obtain ⟨bufs, pages, queued, _⟩ := h
  dsimp only at hl
  subst hl
  refine spends_quiet (fun _ _ => rfl) fun e => ?_
  refine spends_ev (t := ⟨bufs, pages, queued, true⟩) rfl ?_
  generalize simpleElem e.caller tr tp = elem
  rcases e.addSgs 0 with _ | err
  · refine spends_bind (Q := fun _ t => t = ⟨bufs, pages, elem :: queued, true⟩)
      (fun _ s => ⟨[.submit elem], _, rfl, rfl, rfl⟩) ?_
    rintro _ _ rfl
    refine spends_quiet (fun _ _ => rfl) fun o => ?_
    rcases o with _ | served
    · exact spends_pure ⟨nofun, rfl⟩
    refine spends_ev (t := ⟨bufs, pages, queued, true⟩) (by simp [Held.step]) ?_
    refine spends_ev (t := ⟨bufs, pages, queued, false⟩) rfl ?_
    exact spends_quiet (fun _ _ => rfl) fun _ => spends_pure (Halt.leaves _ _)
  · refine spends_ev (t := ⟨bufs, pages, queued, false⟩) rfl ?_
    exact spends_pure (Halt.leaves _ _)

theorem finishIoctl_spends {h t : Held} {r : Halt} (n : Nat)
    (ht : r.Leaves h.withRequest t) :
    Spends t (finishIoctl n r) fun x h' => ∀ n, x.halt = .ret n → h' = h := by
  have hbufs : t.bufs = .resp :: .req :: h.bufs := ht.2
  refine spends_quiet (fun _ _ => rfl) fun e => spends_quiet (fun _ _ => rfl) fun s => ?_
  refine spends_free (by simp [hbufs]) (spends_free (by simp [hbufs]) ?_)
  have hend : r.Leaves h { t with bufs := (t.bufs.erase .req).erase .resp } :=
    ht.erase (l := h.bufs) (by simp [hbufs])
  -- the copy to the caller may fault
  exact spends_ite (fun hr => spends_ite (fun _ => spends_pure hend.1) fun _ =>
    spends_pure fun _ _ => hend.1 0 hr) fun _ => spends_pure hend.1

theorem hmcudaIoctl_spends {h : Held} (hq : h.queued = []) (hl : h.locked = false) :
    Spends h hmcudaIoctl fun x h' => ∀ n, x.halt = .ret n → h' = h := by
  refine spends_quiet (fun _ _ => rfl) fun e => ?_
  rcases e.fetch 0 0 (sizeof reqHeader) with _ | hdr
  · exact spends_pure fun _ _ => rfl
  refine spends_bind (getReqSizes_spends h _) fun r t ht => ?_
  subst t
  rcases r with err | ⟨reqLen, respLen⟩
  · exact spends_pure fun _ _ => rfl
  refine spends_bind (buildReqBuf_spends _ hdr reqLen respLen) ?_
  rintro (halt | ⟨totalReq, totalResp⟩) t ht
  · exact spends_pure ht
  obtain rfl : t = h.withRequest := ht
  refine spends_quiet (fun _ _ => rfl) fun s => ?_
  have hend {m : DrvM Halt} (hm : Spends h.withRequest m (Halt.Leaves h.withRequest)) :
      Spends h.withRequest (m >>= finishIoctl totalResp) fun x h' =>
        ∀ n, x.halt = .ret n → h' = h :=
    spends_bind hm fun _ _ ht => finishIoctl_spends _ ht
  exact spends_ite (fun _ => hend (doMemcpyGup_spends h.withRequest hq hl _)) fun _ =>
    hend (doSimpleCmd_spends h.withRequest hl)

end Parts

/-- When the ioctl returns, every buffer it allocated has been freed and every page it pinned
unpinned, once, with no request on the queue, and the mutex is free. -/
theorem hmcudaIoctl_balanced (e : DrvEnv) (s : DrvSt) (r : Int)
    (hr : (hmcudaIoctl.run e s).1.halt = .ret r) :
    ∃ evs, (hmcudaIoctl.run e s).2.evs = s.evs ++ evs ∧ Balanced evs := by
  obtain ⟨evs, h', hevs, hrun, hend⟩ := hmcudaIoctl_spends (h := .nothing) rfl rfl e s
  exact ⟨evs, hevs, hrun.trans (congrArg some (hend r hr))⟩

def halfPinned : DrvEnv := { DrvEnv.quiet .quiet fun _ =>
    (⟨0x8000, 0x6ffc, 8, 1, 0⟩ : MemReq).arg RtCmd.memcpy.code with
  pin := fun _ _ _ => .ok [6] }

theorem hmcudaIoctl_balanced_half : ∃ evs,
    (hmcudaIoctl.run halfPinned (.start fun _ _ => 0)).2.evs = [] ++ evs ∧ Balanced evs :=
  hmcudaIoctl_balanced halfPinned (.start fun _ _ => 0) efault (by decide +kernel)

end HmCuda
