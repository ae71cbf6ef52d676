import HmCuda.Driver.Ioctl

/-! What each part of the ioctl returns and what it leaves in the driver's state. -/

namespace HmCuda
open Layout

@[simp] theorem ev_run (x : Ev) (e : DrvEnv) (s : DrvSt) :
    (ev x).run e s = ((), { s with evs := s.evs ++ [x] }) := by rfl

@[simp] theorem kmalloc_run (b : Buf) (e : DrvEnv) (s : DrvSt) :
    (kmalloc b).run e s = if e.kmalloc b then (true, { s with evs := s.evs ++ [.alloc b] })
      else (false, s) := by
  simp only [kmalloc, Prog.bind_run, Prog.ask_run, Prog.ite_run, ev_run, Prog.pure_run]

@[simp] theorem setReq_run (f : Nat → UInt8) (e : DrvEnv) (s : DrvSt) :
    (setReq f).run e s = ((), { s with reqBuf := f }) := by rfl

/-- Only events were added, and none of them unpins pages. -/
def DrvSt.sameBut (s s' : DrvSt) : Prop :=
  ∃ evs, s' = { s with evs := s.evs ++ evs } ∧ ∀ pfns p, Ev.unpin pfns p ∉ evs

theorem DrvSt.sameBut.refl (s : DrvSt) : s.sameBut s := ⟨[], by simp, by simp⟩

theorem DrvSt.sameBut.trans {s t u : DrvSt} (h : s.sameBut t) (h' : t.sameBut u) :
    s.sameBut u := by
  obtain ⟨x, rfl, hx⟩ := h
  obtain ⟨y, rfl, hy⟩ := h'
  exact ⟨x ++ y, by simp, by simp [hx, hy]⟩

/-- Nothing reached the queue; at most the response buffer was cleared. -/
structure DrvSt.Quiet (caller : Nat) (s s' : DrvSt) : Prop where
  submitted : s'.submitted = s.submitted
  batches : s'.batches = s.batches
  served : s'.served = s.served
  m : ∃ f, s'.m = s.m.setMem (.resp caller) f
  evs : ∃ evs, s'.evs = s.evs ++ evs ∧ ∀ pfns p, Ev.unpin pfns p ∉ evs

@[simp] theorem Machine.setMem_self (m : Machine) (sp : Space) :
    m.setMem sp (m.dev.eng.mem sp) = m := by
  simp [setMem]

theorem mem_setMem_of_ne (m : Machine) {sp sp' : Space} (h : sp' ≠ sp) (f : Nat → UInt8) :
    (m.setMem sp f).dev.eng.mem sp' = m.dev.eng.mem sp' := Function.update_of_ne h _ _

theorem mem_setMem_self (m : Machine) (sp : Space) (f : Nat → UInt8) :
    (m.setMem sp f).dev.eng.mem sp = f := Function.update_self _ _ _

theorem DrvSt.sameBut.quiet {s s' : DrvSt} (h : s.sameBut s') (caller : Nat) :
    s.Quiet caller s' := by
  obtain ⟨evs, rfl, hn⟩ := h
  exact ⟨rfl, rfl, rfl, ⟨_, (s.m.setMem_self _).symm⟩, evs, rfl, hn⟩

theorem DrvSt.Quiet.after {s t u : DrvSt} {caller : Nat} (h : s.sameBut t)
    (h' : t.Quiet caller u) : s.Quiet caller u := by
  obtain ⟨x, rfl, hx⟩ := h
  obtain ⟨h1, h2, h3, h4, y, h5, hy⟩ := h'
  exact ⟨h1, h2, h3, h4, x ++ y, by rw [h5, List.append_assoc], by simp [hx, hy]⟩

/-- The lengths `hmcuda_get_req_sizes` computes for a known command. -/
def reqSizes (e : DrvEnv) (c : Cmd) : Except Int (Nat × Nat) :=
  if 0 < (c.sizes none).reqSize then
    if e.kmalloc .fixedReq then
      match e.fetch 1 (sizeof reqHeader) (c.sizes none).reqSize with
      | none => .error efault
      | some p => .ok ((c.sizes (some p)).reqSize, (c.sizes none).respSize)
    else .error enomem
  else .ok ((c.sizes none).reqSize, (c.sizes none).respSize)

theorem getReqSizes_spec (c : Cmd) (e : DrvEnv) (s : DrvSt) :
    ((getReqSizes c.code).run e s).1 = reqSizes e c ∧ s.sameBut ((getReqSizes c.code).run e s).2 := by
  unfold getReqSizes reqSizes cmdGetSizes
  simp only [Cmd.ofCode_code, Option.map_some]
  by_cases h0 : 0 < (c.sizes none).reqSize
  · by_cases hk : e.kmalloc .fixedReq = true
    · rcases hf : e.fetch 1 (sizeof reqHeader) (c.sizes none).reqSize with _ | p
      · simp only [Prog.bind_run, Prog.ite_run, kmalloc_run, Prog.ask_run, if_pos h0, if_pos hk, hf]
        exact ⟨rfl, [.alloc .fixedReq, .free .fixedReq], by simp, by simp⟩
      · simp only [Prog.bind_run, Prog.ite_run, kmalloc_run, Prog.ask_run, if_pos h0, if_pos hk, hf]
        exact ⟨rfl, [.alloc .fixedReq, .free .fixedReq], by simp, by simp⟩
    · simp only [Prog.bind_run, Prog.ite_run, kmalloc_run, if_pos h0, if_neg hk]
      exact ⟨rfl, .refl s⟩
  · simp only [if_neg h0]
    exact ⟨rfl, .refl s⟩

/-- The request buffer with `reqLen` bytes behind the header; the rest is zero. -/
def reqImage (hdr p : Nat → UInt8) (reqLen : Nat) : Nat → UInt8 := fun a =>
  if a < sizeof reqHeader then hdr a
  else if a < sizeof reqHeader + reqLen then p (a - sizeof reqHeader) else 0

/-- The request buffer `hmcuda_build_req_buf` fills in, or how it fails. -/
def built (e : DrvEnv) (hdr : Nat → UInt8) (reqLen : Nat) : Except Halt (Nat → UInt8) :=
  if e.kmalloc .req ∧ e.kmalloc .resp then
    if add64 (sizeof reqHeader) reqLen < sizeof reqHeader then .error .fault
    else if 0 < reqLen then
      match e.fetch 2 (sizeof reqHeader) reqLen with
      | none => .error (.ret efault)
      | some p => .ok (reqImage hdr p reqLen)
    else .ok (reqImage hdr (fun _ => 0) 0)
  else .error (.ret enomem)

theorem reqImage_zero (hdr p : Nat → UInt8) :
    reqImage hdr p 0 = fun a => if a < sizeof reqHeader then hdr a else 0 := by
  funext a
  unfold reqImage
  split
  · rfl
  · rw [if_neg (by omega)]

theorem payloadOf_reqImage (hdr p : Nat → UInt8) {n a : Nat} (h : a < n) :
    payloadOf (reqImage hdr p n) a = p a := by
  rw [payloadOf, reqImage, if_neg (by omega), if_pos (by omega), Nat.add_sub_cancel_left]

def Halt.Failed (h : Halt) : Prop := ∀ r, h = .ret r → r < 0

theorem Halt.failed_ret {r : Int} (h : r < 0) : (Halt.ret r).Failed := by
  rintro _ ⟨⟩
  exact h

theorem built_error {e : DrvEnv} {hdr : Nat → UInt8} {n : Nat} {halt : Halt}
    (ha : e.kmalloc .req = true ∧ e.kmalloc .resp = true) (h : built e hdr n = .error halt) :
    (halt = .fault ∧ ¬sizeof reqHeader ≤ add64 (sizeof reqHeader) n) ∨
      (halt = .ret efault ∧ sizeof reqHeader ≤ add64 (sizeof reqHeader) n ∧ 0 < n ∧
        e.fetch 2 (sizeof reqHeader) n = none) := by
  rw [built, if_pos ha] at h
  by_cases hw : add64 (sizeof reqHeader) n < sizeof reqHeader
  · rw [if_pos hw] at h
    exact .inl ⟨(Except.error.inj h).symm, Nat.not_le.mpr hw⟩
  rw [if_neg hw] at h
  by_cases hn : 0 < n
  · rcases hf : e.fetch 2 (sizeof reqHeader) n with _ | p
    · simp only [hn, hf, if_true, Except.error.injEq] at h
      exact .inr ⟨h.symm, Nat.not_lt.mp hw, hn, rfl⟩
    · simp [hn, hf] at h
  · simp [hn] at h

theorem built_of_fetch {e : DrvEnv} {hdr p : Nat → UInt8} {n : Nat}
    (ha : e.kmalloc .req = true ∧ e.kmalloc .resp = true) (hn : 0 < n)
    (hlt : sizeof reqHeader + n < 2 ^ 64) (h : e.fetch 2 (sizeof reqHeader) n = some p) :
    built e hdr n = .ok (reqImage hdr p n) := by
  have hfit : ¬add64 (sizeof reqHeader) n < sizeof reqHeader := by
    rw [add64_of_lt hlt]
    exact Nat.not_lt.mpr (Nat.le_add_right _ _)
  rw [built, if_pos ha, if_neg hfit, if_pos hn, h]

theorem built_ok {e : DrvEnv} {hdr img : Nat → UInt8} {n : Nat} (h : built e hdr n = .ok img) :
    ∃ p, (0 < n → e.fetch 2 (sizeof reqHeader) n = some p) ∧ img = reqImage hdr p n := by
  unfold built at h
  split at h
  next =>
    split at h
    · cases h
    by_cases hn : 0 < n
    · rcases hf : e.fetch 2 (sizeof reqHeader) n with _ | p
      · simp [hn, hf] at h
      · simp only [hn, hf, if_true, Except.ok.injEq] at h
        exact ⟨p, fun _ => rfl, h.symm⟩
    · obtain rfl : n = 0 := by omega
      simp only [lt_irrefl, if_false, Except.ok.injEq] at h
      exact ⟨fun _ => 0, fun h0 => absurd h0 (lt_irrefl 0), h.symm⟩
  next => simp at h

theorem buildReqBuf_error {e : DrvEnv} {hdr : Nat → UInt8} {reqLen : Nat} {halt : Halt}
    (h : built e hdr reqLen = .error halt) (respLen : Nat) (s : DrvSt) :
    ((buildReqBuf hdr reqLen respLen).run e s).1 = .error halt ∧
      s.Quiet e.caller ((buildReqBuf hdr reqLen respLen).run e s).2 := by
  unfold built at h
  unfold buildReqBuf
  by_cases h1 : e.kmalloc .req = true
  · by_cases h2 : e.kmalloc .resp = true
    · by_cases hw : add64 (sizeof reqHeader) reqLen < sizeof reqHeader
      · simp only [h1, h2, hw, and_self, if_true, Except.error.injEq] at h
        subst h
        simp only [Prog.bind_run, Prog.ask_run, kmalloc_run, Prog.modify_run, Prog.pure_run, h1,
          h2, hw, if_true]
        exact ⟨trivial, rfl, rfl, rfl, ⟨_, rfl⟩, [.alloc .req, .alloc .resp], by simp, by simp⟩
      by_cases h0 : 0 < reqLen
      · rcases hf : e.fetch 2 (sizeof reqHeader) reqLen with _ | p
        · simp only [h1, h2, hw, h0, hf, and_self, if_true, if_false, Except.error.injEq] at h
          subst h
          simp only [Prog.bind_run, kmalloc_run, Prog.ask_run, Prog.modify_run, setReq_run, ev_run,
            Prog.pure_run, h1, h2, hw, h0, hf, if_true, if_false]
          exact ⟨trivial, rfl, rfl, rfl, ⟨_, rfl⟩, [.alloc .req, .alloc .resp, .free .resp, .free .req],
            by simp, by simp⟩
        · simp [h1, h2, hw, h0, hf] at h
      · simp [h1, h2, hw, h0] at h
    · simp only [h2, and_false, if_false, Except.error.injEq, Bool.false_eq_true] at h
      subst h
      simp only [Prog.bind_run, Prog.ask_run, kmalloc_run, ev_run, Prog.pure_run, h1, h2,
        if_true, if_false, Bool.false_eq_true]
      exact ⟨trivial, DrvSt.sameBut.quiet ⟨[.alloc .req, .free .req], by simp, by simp⟩ _⟩
  · simp only [h1, false_and, if_false, Except.error.injEq, Bool.false_eq_true] at h
    subst h
    simp only [Prog.bind_run, Prog.ask_run, kmalloc_run, Prog.pure_run, h1, if_false,
      Bool.false_eq_true]
    exact ⟨trivial, (DrvSt.sameBut.refl s).quiet _⟩

theorem buildReqBuf_ok {e : DrvEnv} {hdr img : Nat → UInt8} {reqLen : Nat}
    (h : built e hdr reqLen = .ok img) (respLen : Nat) (s : DrvSt) :
    ((buildReqBuf hdr reqLen respLen).run e s).1 =
        .ok (add64 (sizeof reqHeader) reqLen, add64 (sizeof respHeader) respLen) ∧
      { s with m := s.m.setMem (.resp e.caller) fun _ => 0, reqBuf := img }.sameBut
        ((buildReqBuf hdr reqLen respLen).run e s).2 := by
  unfold built at h
  unfold buildReqBuf
  split at h
  next hk =>
    obtain ⟨h1, h2⟩ := hk
    split at h
    · cases h
    next hw =>
    by_cases h0 : 0 < reqLen
    · rcases hf : e.fetch 2 (sizeof reqHeader) reqLen with _ | p
      · simp [h0, hf] at h
      · simp only [h0, hf, if_true, Except.ok.injEq] at h
        subst h
        simp only [Prog.bind_run, kmalloc_run, Prog.ask_run, Prog.modify_run,
          setReq_run, Prog.pure_run, h1, h2, hw, h0, hf, if_true, if_false, true_and]
        refine ⟨[.alloc .req, .alloc .resp], ?_, by simp⟩
        rw [List.append_assoc]
        rfl
    · simp only [h0, if_false, Except.ok.injEq, reqImage_zero] at h
      subst h
      simp only [Prog.bind_run, kmalloc_run, Prog.ask_run, Prog.modify_run,
        setReq_run, Prog.pure_run, h1, h2, hw, h0, if_true, if_false, true_and]
      exact ⟨[.alloc .req, .alloc .resp], by simp [List.append_assoc], by simp⟩
  next => simp at h

@[simp] theorem submit_run (x : Elem) (e : DrvEnv) (s : DrvSt) : (submit x).run e s =
    ((), { s with evs := s.evs ++ [.submit x], submitted := s.submitted ++ [(x, s.reqBuf)] }) := by
  rfl

theorem serve_run {x : Elem} {e : DrvEnv} {s : DrvSt} {r : Option Served × Machine}
    (h : (processElem e.key x).run e.sys (s.m.setMem (.req e.caller) s.reqBuf) = r) :
    (serve x).run e s = (r.1, { s with m := r.2 }) := by
  subst h
  rfl

@[simp] theorem submit_submitted (x : Elem) (e : DrvEnv) (s : DrvSt) :
    ((submit x).run e s).2.submitted = s.submitted ++ [(x, s.reqBuf)] := by rfl

@[simp] theorem serve_submitted (x : Elem) (e : DrvEnv) (s : DrvSt) :
    ((serve x).run e s).2.submitted = s.submitted := by rfl

theorem finishIoctl_submitted (n : Nat) (h : Halt) (e : DrvEnv) (s : DrvSt) :
    ((finishIoctl n h).run e s).2.submitted = s.submitted := by
  by_cases hr : h = .ret 0
  · by_cases hc : e.copyOut = true <;> simp [finishIoctl, hr, hc]
  · simp [finishIoctl, hr]

theorem finishIoctl_sameBut (n : Nat) (h : Halt) (e : DrvEnv) (s : DrvSt) :
    s.sameBut ((finishIoctl n h).run e s).2 := by
  refine ⟨[.free .req, .free .resp], ?_, by simp⟩
  by_cases hr : h = .ret 0
  · by_cases hc : e.copyOut = true <;> simp [finishIoctl, hr, hc]
  · simp [finishIoctl, hr]

theorem finishIoctl_m (n : Nat) (h : Halt) (e : DrvEnv) (s : DrvSt) :
    ((finishIoctl n h).run e s).2.m = s.m := by
  obtain ⟨x, hx, -⟩ := finishIoctl_sameBut n h e s
  rw [hx]

theorem finishIoctl_zero (n : Nat) (e : DrvEnv) (s : DrvSt) :
    ((finishIoctl n (.ret 0)).run e s).1 = if e.copyOut then
      ⟨.ret 0, some (s.m.dev.eng.mem.read (.resp e.caller) 0 n)⟩ else ⟨.ret efault, none⟩ := by
  by_cases hc : e.copyOut = true <;> simp [finishIoctl, hc]

theorem finishIoctl_halt {n : Nat} {h : Halt} (hr : h ≠ .ret 0) (e : DrvEnv) (s : DrvSt) :
    ((finishIoctl n h).run e s).1.halt = h := by
  simp [finishIoctl, hr]

theorem doSimpleCmd_refused {e : DrvEnv} {err : Nat} (h : e.addSgs 0 = some err) (tr tp : Nat)
    (s : DrvSt) : ((doSimpleCmd tr tp).run e s).1 = .ret (Int.negSucc err) ∧
      s.sameBut ((doSimpleCmd tr tp).run e s).2 := by
  simp only [doSimpleCmd, Prog.bind_run, Prog.ask_run, ev_run, h, Prog.pure_run, true_and]
  exact ⟨[.lock, .unlock], by simp, by simp⟩

theorem doSimpleCmd_accepted {e : DrvEnv} (h : e.addSgs 0 = none) (tr tp : Nat) (s : DrvSt) :
    ((doSimpleCmd tr tp).run e s).2.submitted =
      s.submitted ++ [(simpleElem e.caller tr tp, s.reqBuf)] := by
  simp only [doSimpleCmd, Prog.bind_run, Prog.ask_run, ev_run, h]
  split <;> simp

theorem hmcudaIoctl_noHeader {e : DrvEnv} (h : e.fetch 0 0 (sizeof reqHeader) = none)
    (s : DrvSt) : hmcudaIoctl.run e s = (⟨.ret efault, none⟩, s) := by
  unfold hmcudaIoctl
  simp only [Prog.bind_run, Prog.ask_run, h, Prog.pure_run]

theorem reqSizes_resp {e : DrvEnv} {c : Cmd} {n m : Nat} (h : reqSizes e c = .ok (n, m)) :
    m = (c.sizes none).respSize := by
  unfold reqSizes at h
  split at h
  · split at h
    · split at h
      · cases h
      · exact (Prod.mk.inj (Except.ok.inj h)).2.symm
    · cases h
  · exact (Prod.mk.inj (Except.ok.inj h)).2.symm

theorem reqSizes_fixed {e : DrvEnv} {c : Cmd} {k n m : Nat}
    (hk : ∀ p, (c.sizes p).reqSize = k) (h : reqSizes e c = .ok (n, m)) : n = k := by
  unfold reqSizes at h
  split at h
  · split at h
    · split at h
      · cases h
      next p _ => exact (Prod.mk.inj (Except.ok.inj h)).1.symm.trans (hk (some p))
    · cases h
  · exact (Prod.mk.inj (Except.ok.inj h)).1.symm.trans (hk none)

theorem hmcudaIoctl_unsent {e : DrvEnv} {c : Cmd} {hdr : Nat → UInt8} {halt : Halt}
    (hh : e.fetch 0 0 (sizeof reqHeader) = some hdr) (hc : reqHeader.cmdType.get hdr = c.code)
    (h : (∃ err, halt = .ret err ∧ reqSizes e c = .error err) ∨
      ∃ n m, reqSizes e c = .ok (n, m) ∧ built e hdr n = .error halt) (s : DrvSt) :
    (hmcudaIoctl.run e s).1.halt = halt ∧ s.Quiet e.caller (hmcudaIoctl.run e s).2 := by
  obtain ⟨h1, evs, h2, hn⟩ := getReqSizes_spec c e s
  unfold hmcudaIoctl
  simp only [Prog.bind_run, Prog.ask_run, hh, hc, h1, h2]
  rcases h with ⟨err, rfl, h⟩ | ⟨n, m, h, hb⟩
  · simp only [h]
    exact ⟨rfl, DrvSt.sameBut.quiet ⟨evs, rfl, hn⟩ _⟩
  · obtain ⟨h3, h4⟩ := buildReqBuf_error hb m { s with evs := s.evs ++ evs }
    simp only [h, Prog.bind_run, h3]
    exact ⟨rfl, DrvSt.Quiet.after ⟨evs, rfl, hn⟩ h4⟩

theorem hmcudaIoctl_sent {e : DrvEnv} {c : Cmd} {hdr img : Nat → UInt8} {n m : Nat}
    (hh : e.fetch 0 0 (sizeof reqHeader) = some hdr) (hc : reqHeader.cmdType.get hdr = c.code)
    (hm : ¬isMemcpy c.code) (hs : reqSizes e c = .ok (n, m)) (hb : built e hdr n = .ok img)
    (s : DrvSt) :
    match e.addSgs 0 with
    | some err => (hmcudaIoctl.run e s).1.halt = .ret (Int.negSucc err) ∧
        s.Quiet e.caller (hmcudaIoctl.run e s).2
    | none => (hmcudaIoctl.run e s).2.submitted = s.submitted ++
        [(simpleElem e.caller (add64 (sizeof reqHeader) n) (add64 (sizeof respHeader) m), img)] := by
  obtain ⟨h1, evs, h2, hn⟩ := getReqSizes_spec c e s
  obtain ⟨h3, evs', h4, hn'⟩ := buildReqBuf_ok hb m { s with evs := s.evs ++ evs }
  unfold hmcudaIoctl
  simp only [Prog.bind_run, Prog.ask_run, hh, hc, h1, h2, hs, h3, h4, Prog.get_run, if_neg hm]
  cases ha : e.addSgs 0 with
  | some err =>
    obtain ⟨h5, h6⟩ := doSimpleCmd_refused ha (add64 (sizeof reqHeader) n)
      (add64 (sizeof respHeader) m)
      { s with
        evs := s.evs ++ evs ++ evs'
        m := s.m.setMem (.resp e.caller) fun _ => 0
        reqBuf := img }
    simp only [h5]
    refine ⟨finishIoctl_halt (by simp) e _, ?_⟩
    obtain ⟨x, hx, hxn⟩ := h6.trans (finishIoctl_sameBut _ _ e _)
    rw [hx]
    exact ⟨rfl, rfl, rfl, ⟨_, rfl⟩, evs ++ evs' ++ x, by simp, by simp [hn, hn', hxn]⟩
  | none =>
    simp only [finishIoctl_submitted, doSimpleCmd_accepted ha]

end HmCuda
