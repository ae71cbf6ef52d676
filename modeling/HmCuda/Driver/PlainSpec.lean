import HmCuda.Driver.Spec
import HmCuda.Host.ProcessSpec

/-! The plain round trip: one element, one answer, and the response the caller gets. -/

namespace HmCuda
open Layout

/-- The request of a command was sized, copied in as `img`, and the queue takes it; `n`
and `m` are its lengths behind the headers. -/
structure Sent (e : DrvEnv) (c : Cmd) (n m : Nat) (img : Nat → UInt8) : Prop where
  image : ∃ hdr, e.fetch 0 0 (sizeof reqHeader) = some hdr ∧
    reqHeader.cmdType.get hdr = c.code ∧ built e hdr n = .ok img
  sizes : reqSizes e c = .ok (n, m)
  taken : e.addSgs 0 = none

def DrvSt.showing (s : DrvSt) (e : DrvEnv) (img : Nat → UInt8) : Machine :=
  (s.m.setMem (.resp e.caller) fun _ => 0).setMem (.req e.caller) img

theorem showing_mem {e : DrvEnv} {s : DrvSt} {img : Nat → UInt8} {sp : Space}
    (h : sp ≠ .req e.caller ∧ sp ≠ .resp e.caller) :
    (s.showing e img).dev.eng.mem sp = s.m.dev.eng.mem sp :=
  (Function.update_of_ne h.1 _ _).trans (Function.update_of_ne h.2 _ _)

def plainElem (e : DrvEnv) (n m : Nat) : Elem :=
  simpleElem e.caller (add64 (sizeof reqHeader) n) (add64 (sizeof respHeader) m)

@[simp] theorem simpleElem_reqLen (caller tr tp : Nat) : (simpleElem caller tr tp).reqLen = tr := by
  rfl

def plainReply (e : DrvEnv) (c : Cmd) (n m : Nat) (M : Machine) : Bool × CmdSt :=
  (dispatchCmd c.code).run (cmdEnv e.sys e.key (plainElem e n m))
    (cmdStart e.sys (plainElem e n m) M)

theorem built_len {e : DrvEnv} {hdr img : Nat → UInt8} {n : Nat} (h : built e hdr n = .ok img) :
    sizeof reqHeader + n < 2 ^ 64 := by
  have hhdr : sizeof reqHeader = 8 := by decide
  obtain ⟨p, hp, -⟩ := built_ok h
  rcases Nat.eq_zero_or_pos n with rfl | hn
  · omega
  · have hf := hp hn
    have htask : taskSize < 2 ^ 64 := by decide
    unfold DrvEnv.fetch at hf
    split at hf
    · omega
    · cases hf

theorem cmdType_reqImage (hdr p : Nat → UInt8) (n : Nat) :
    reqHeader.cmdType.get (reqImage hdr p n) = reqHeader.cmdType.get hdr :=
  Field.get_congr fun _ _ ha => if_pos (ha.trans_le (stop_le_sizeof reqHeader 0))

section
variable {e : DrvEnv} {c : Cmd} {n m : Nat} {img : Nat → UInt8}

theorem Sent.code (h : Sent e c n m img) : reqHeader.cmdType.get img = c.code := by
  obtain ⟨hdr, -, hc, hb⟩ := h.image
  obtain ⟨p, -, rfl⟩ := built_ok hb
  rw [cmdType_reqImage, hc]

theorem plainElem_image (s : DrvSt) : (plainElem e n m).image (s.showing e img) = img := by
  simp [Elem.image, plainElem, simpleElem, DrvSt.showing, Machine.setMem]

theorem Sent.reqLen (h : Sent e c n m img) :
    (plainElem e n m).reqLen = sizeof reqHeader + n := by
  obtain ⟨hdr, -, -, hb⟩ := h.image
  rw [plainElem, simpleElem_reqLen, add64_of_lt (built_len hb)]

theorem plainElem_run (h : Sent e c n m img) (s : DrvSt) :
    (processElem e.key (plainElem e n m)).run e.sys (s.showing e img) =
      (some (respond c.code (plainElem e n m) true (plainReply e c n m (s.showing e img)).2),
        (plainReply e c n m (s.showing e img)).2.be.deliver e.sys
          (respond c.code (plainElem e n m) true
            (plainReply e c n m (s.showing e img)).2).writes) := by
  have hlen : sizeof reqHeader ≤ (plainElem e n m).reqLen := by
    rw [h.reqLen]
    exact Nat.le_add_right _ _
  have hknown : (plainReply e c n m (s.showing e img)).1 = true := by
    rw [plainReply, dispatchCmd, Cmd.ofCode_code]
    cases c <;> rfl
  have hcode : reqHeader.cmdType.get ((plainElem e n m).image (s.showing e img)) = c.code := by
    rw [plainElem_image]
    exact h.code
  have hreply : (dispatchCmd c.code).run (cmdEnv e.sys e.key (plainElem e n m))
      (cmdStart e.sys (plainElem e n m) (s.showing e img)) = plainReply e c n m (s.showing e img) :=
    rfl
  rw [processElem_run hlen hcode hreply, hknown]

def plainServed (e : DrvEnv) (c : Cmd) (n m : Nat) (M : Machine) : Served :=
  respond c.code (plainElem e n m) true (plainReply e c n m M).2

def DrvSt.answered (s : DrvSt) (e : DrvEnv) (c : Cmd) (n m : Nat) (img : Nat → UInt8)
    (evs : List Ev) : DrvSt where
  m := (plainReply e c n m (s.showing e img)).2.be.deliver e.sys
    (plainServed e c n m (s.showing e img)).writes
  reqBuf := img
  evs := evs
  submitted := s.submitted ++ [(plainElem e n m, img)]
  batches := s.batches
  served := s.served ++ [(plainElem e n m, plainServed e c n m (s.showing e img))]

variable (e n m img) in
theorem doSimpleCmd_served (ha : e.addSgs 0 = none) (s : DrvSt) (evs : List Ev) {served : Served}
    {M : Machine} (hp : (processElem e.key (plainElem e n m)).run e.sys (s.showing e img) =
      (some served, M)) :
    (doSimpleCmd (add64 (sizeof reqHeader) n) (add64 (sizeof respHeader) m)).run e
        { s with
          m := s.m.setMem (.resp e.caller) fun _ => 0
          reqBuf := img
          evs := evs } =
      (.ret 0, { s with
        m := M
        reqBuf := img
        evs := evs ++ [.lock, .submit (plainElem e n m), .complete (plainElem e n m), .unlock]
        submitted := s.submitted ++ [(plainElem e n m, img)]
        served := s.served ++ [(plainElem e n m, served)] }) := by
  have hserve (x : List Ev) (y : List (Elem × (Nat → UInt8))) : (serve (plainElem e n m)).run e
      ⟨s.m.setMem (.resp e.caller) fun _ => 0, img, x, y, s.batches, s.served⟩ =
        (some served, ⟨M, img, x, y, s.batches, s.served⟩) := by
    rw [serve]
    dsimp only
    rw [DrvSt.showing] at hp
    rw [hp]
  unfold doSimpleCmd
  rw [plainElem] at hserve ⊢
  simp only [Prog.bind_run, Prog.ask_run, ev_run, ha, submit_run, hserve, Prog.modify_run,
    Prog.pure_run, List.append_assoc, List.cons_append, List.nil_append]

theorem hmcudaIoctl_answered (h : Sent e c n m img) (hm : ¬isMemcpy c.code) (s : DrvSt) :
    ∃ evs, (hmcudaIoctl.run e s).2 = s.answered e c n m img evs ∧
      (hmcudaIoctl.run e s).1 = if e.copyOut then
        ⟨.ret 0, some ((hmcudaIoctl.run e s).2.m.dev.eng.mem.read (.resp e.caller) 0
          (add64 (sizeof respHeader) m))⟩ else ⟨.ret efault, none⟩ := by
  obtain ⟨hdr, hh, hc, hb⟩ := h.image
  obtain ⟨h1, evs, h2, -⟩ := getReqSizes_spec c e s
  obtain ⟨h3, evs', h4, -⟩ := buildReqBuf_ok hb m { s with evs := s.evs ++ evs }
  have h5 := doSimpleCmd_served e n m img h.taken s (s.evs ++ evs ++ evs') (plainElem_run h s)
  generalize (s.evs ++ evs ++ evs' ++ _ : List Ev) = evs'' at h5
  have hrun : hmcudaIoctl.run e s = (finishIoctl (add64 (sizeof respHeader) m) (.ret 0)).run e
      (s.answered e c n m img evs'') := by
    unfold hmcudaIoctl DrvSt.answered plainServed
    simp only [Prog.bind_run, Prog.ask_run, hh, hc, h1, h2, h.sizes, h3, h4, Prog.get_run,
      if_neg hm, h5]
  obtain ⟨x, hx, -⟩ := finishIoctl_sameBut (add64 (sizeof respHeader) m) (.ret 0) e
    (s.answered e c n m img evs'')
  rw [hrun, hx]
  exact ⟨evs'' ++ x, rfl, finishIoctl_zero _ _ _⟩

theorem reqSizes_error {err : Int} (h : reqSizes e c = .error err) : err < 0 := by
  unfold reqSizes at h
  split at h
  · split at h
    · split at h
      · rw [← Except.error.inj h]
        decide
      · cases h
    · rw [← Except.error.inj h]
      decide
  · cases h

theorem built_refused {hdr : Nat → UInt8} {halt : Halt} (h : built e hdr n = .error halt) :
    (∃ err < 0, halt = .ret err) ∨
      halt = .fault ∧ ¬sizeof reqHeader ≤ add64 (sizeof reqHeader) n := by
  by_cases ha : e.kmalloc .req = true ∧ e.kmalloc .resp = true
  · exact (built_error ha h).symm.imp_left fun h => ⟨efault, by decide, h.1⟩
  · rw [built, if_neg ha] at h
    exact .inl ⟨enomem, by decide, (Except.error.inj h).symm⟩

/-- A plain request that is not sent fails, unless its length wrapped around with the header,
and nothing else happens. -/
theorem hmcudaIoctl_refused (hm : ¬isMemcpy c.code)
    (hc : ∀ hdr, e.fetch 0 0 (sizeof reqHeader) = some hdr → reqHeader.cmdType.get hdr = c.code)
    (h : ∀ n m img, ¬Sent e c n m img) (s : DrvSt) :
    ((∃ err < 0, (hmcudaIoctl.run e s).1.halt = .ret err) ∨
      (hmcudaIoctl.run e s).1.halt = .fault ∧ ∃ n m, reqSizes e c = .ok (n, m) ∧
        ¬sizeof reqHeader ≤ add64 (sizeof reqHeader) n) ∧
      s.Quiet e.caller (hmcudaIoctl.run e s).2 := by
  rcases hh : e.fetch 0 0 (sizeof reqHeader) with _ | hdr
  · rw [hmcudaIoctl_noHeader hh]
    exact ⟨.inl ⟨efault, by decide, rfl⟩, DrvSt.sameBut.quiet ⟨[], by simp, by simp⟩ _⟩
  have hcode := hc hdr hh
  rcases hs : reqSizes e c with err | ⟨n, m⟩
  · obtain ⟨hr, hq⟩ := hmcudaIoctl_unsent hh hcode (.inl ⟨err, rfl, hs⟩) s
    exact ⟨.inl ⟨err, reqSizes_error hs, hr⟩, hq⟩
  rcases hb : built e hdr n with halt | img
  · obtain ⟨hr, hq⟩ := hmcudaIoctl_unsent hh hcode (.inr ⟨n, m, hs, hb⟩) s
    rw [hr]
    exact ⟨(built_refused hb).imp_right fun h => ⟨h.1, n, m, rfl, h.2⟩, hq⟩
  rcases ha : e.addSgs 0 with _ | err
  · exact absurd ⟨⟨hdr, hh, hcode, hb⟩, hs, ha⟩ (h n m img)
  have hsent := hmcudaIoctl_sent hh hcode hm hs hb s
  rw [ha] at hsent
  exact ⟨.inl ⟨Int.negSucc err, Int.negSucc_lt_zero err, hsent.1⟩, hsent.2⟩

theorem hmcudaIoctl_refused_fixed {k : Nat} (hk : ∀ p, (c.sizes p).reqSize = k)
    (hm : ¬isMemcpy c.code)
    (hc : ∀ hdr, e.fetch 0 0 (sizeof reqHeader) = some hdr → reqHeader.cmdType.get hdr = c.code)
    (h : ∀ n m img, ¬Sent e c n m img) (s : DrvSt) :
    ∃ err < 0, (hmcudaIoctl.run e s).1.halt = .ret err := by
  refine (hmcudaIoctl_refused hm hc h s).1.resolve_right fun hf => ?_
  obtain ⟨-, n, m, hs, hn⟩ := hf
  refine hn ?_
  have hk' : k < 2 ^ 32 := by
    rw [← hk none]
    cases c with
    | rt c => cases c <;> decide
    | drv c => cases c <;> decide
  have hhdr : sizeof reqHeader = 8 := by decide
  rw [reqSizes_fixed hk hs, add64_of_lt (by omega)]
  exact Nat.le_add_right _ _

end
end HmCuda
