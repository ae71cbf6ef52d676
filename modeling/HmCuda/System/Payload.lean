import HmCuda.Driver.GupSpec
import HmCuda.Driver.PlainSpec
import HmCuda.Guest.Transport
import HmCuda.Host.Replies

/-! The response payload on its way from a handler to the intercept library: three
tables of sizes, in the library, the driver and the handler, must agree on its length. -/

namespace HmCuda
open Layout

structure Call where
  transport : Transport
  left : Nat → UInt8
  cmd : Cmd
  req : List UInt8
  respLen : Nat

namespace Call

def buf (x : Call) : Nat → UInt8 := dispatchBuf x.left x.cmd.code x.req x.respLen

def dispatch (x : Call) : DrvM Dispatched :=
  transportDispatch x.transport x.left x.cmd.code x.req x.respLen

def ready (x : Call) : Prop := x.transport.rpc = false ∧ x.transport.opened = true

end Call

/-- The elements the backend answered, with their answers. -/
def DrvSt.exchanges (s : DrvSt) : List (Elem × Served) :=
  s.batches.map (fun b => (b.elem, b.served)) ++ s.served

def DrvSt.fresh (s : DrvSt) : DrvSt := { s with batches := [], served := [] }

/-- The room for a payload in the response descriptor, which comes last. -/
def Elem.respRoom (x : Elem) : Nat :=
  (x.inSg.getLast?.map (·.len)).getD 0 - sizeof respHeader

/-- The payload of an answer is handed on, cut only by the caller. -/
structure HandedOn (respLen : Nat) (resp : Option (List UInt8)) (x : Elem × Served) : Prop where
  room : min x.2.payload.length respLen ≤ x.1.respRoom
  bytes : ∀ bs, resp = some bs → bs.take x.2.payload.length = x.2.payload.take respLen

/-- Every answer of a handler that succeeded is handed on. -/
def PayloadLaw (x : Call) (e : DrvEnv) (s : DrvSt) : Prop :=
  ∀ y ∈ (x.dispatch.run e s.fresh).2.exchanges, y.2.err = 0 →
    HandedOn x.respLen (x.dispatch.run e s.fresh).1.resp y

/-- A text that CUDA answers a queued request with fits what the driver allows the
command, as far as the caller asked for it. -/
def TextFits (x : Call) (e : DrvEnv) (s : DrvSt) : Prop :=
  x.ready → (∃ n m img, Sent (e.calling x.buf) x.cmd n m img) →
    ∀ k, textLen e.sys s.m.dev.clock (payloadOf x.buf) x.cmd = some k →
      min (4 + k) x.respLen ≤ (x.cmd.sizes none).respSize

/-! The copy commands answer without a payload. -/

section
variable {e : DrvEnv} {c : CopyCmd}

theorem copyLoop_payloads (a : MemcpyArgs) {s : DrvSt}
    (hc : reqHeader.cmdType.get s.reqBuf = c.cmd.code) (hs : ∀ b ∈ s.batches, b.served.payload = [])
    (hn : s.served = []) :
    (∀ b ∈ ((copyLoop c a).run e s).2.batches, b.served.payload = []) ∧
      ((copyLoop c a).run e s).2.served = [] := by
  have step {off : Nat} {t t' : DrvSt} {pfns : List Nat} {sv : Served}
      (hb : Batched e c a off t pfns sv t') (ht : ∀ b ∈ t.batches, b.served.payload = []) :
      ∀ b ∈ t'.batches, b.served.payload = [] := by
    rw [hb.post]
    intro b hm
    rcases List.mem_append.mp hm with hm | hm
    · exact ht b hm
    · rw [List.mem_singleton.mp hm]
      exact hb.payload
  refine copyLoop_rule (I := fun _ t => reqHeader.cmdType.get t.reqBuf = c.cmd.code ∧
    (∀ b ∈ t.batches, b.served.payload = []) ∧ t.served = [])
    (Q := fun _ t => (∀ b ∈ t.batches, b.served.payload = []) ∧ t.served = [])
    (fun _ _ hI => hI.1) (fun off t t' h _ hI hu _ _ => ?_) (fun off t t' pfns sv _ hI hb _ => ?_)
    (fun off t t' pfns sv _ hI hb _ => ?_) (fun _ hI => hI.2) ⟨hc, hs, hn⟩
  · rw [hu.batches, hu.served]
    exact hI.2
  · refine ⟨?_, step hb hI.2.1, ?_⟩
    · rw [hb.post]
      exact (cmdType_withPayload _ _).trans hI.1
    · rw [hb.post]
      exact hI.2.2
  · refine ⟨step hb hI.2.1, ?_⟩
    rw [hb.post]
    exact hI.2.2

theorem hmcudaIoctl_copyPayloads
    (hc : ∀ hdr, e.fetch 0 0 (sizeof reqHeader) = some hdr →
      reqHeader.cmdType.get hdr = c.cmd.code) (s : DrvSt) :
    ∀ y ∈ (hmcudaIoctl.run e s.fresh).2.exchanges, y.2.payload = [] := by
  have quiet (h : s.fresh.Quiet e.caller (hmcudaIoctl.run e s.fresh).2) :
      ∀ y ∈ (hmcudaIoctl.run e s.fresh).2.exchanges, y.2.payload = [] := by
    rw [DrvSt.exchanges, h.batches, h.served]
    intro y hy
    cases hy
  rcases hh : e.fetch 0 0 (sizeof reqHeader) with _ | hdr
  · rw [hmcudaIoctl_noHeader hh]
    intro y hy
    cases hy
  have hcode := hc hdr hh
  by_cases hbuilt : ∃ p, Built e c hdr p
  swap
  · obtain ⟨-, -, -, hq⟩ := hmcudaIoctl_unbuilt hh hcode (not_exists.mp hbuilt) s.fresh
    exact quiet hq
  obtain ⟨p, hp⟩ := hbuilt
  by_cases ha : e.kmalloc .pages = true ∧ e.kmalloc .sgBatch = true
  swap
  · exact quiet (hmcudaIoctl_noLoop hp ha s.fresh).2
  obtain ⟨evs, s', -, hsame, hrun⟩ := hmcudaIoctl_loop hp ha s.fresh
  obtain ⟨x, hx, -⟩ := hsame.trans (finishIoctl_sameBut _ _ e s')
  obtain ⟨h1, h2⟩ := copyLoop_payloads (e := e) (c := c) (copyArgs c hdr p)
    (s := s.fresh.atLoop e c hdr p evs) ((cmdType_reqImage _ _ _).trans hcode)
    (fun b hb => by cases hb) rfl
  rw [hrun, hx, DrvSt.exchanges, h2, List.append_nil]
  intro y hy
  obtain ⟨b, hb, rfl⟩ := List.mem_map.mp hy
  exact h1 b hb

end

theorem cudaError_answered (buf : Nat → UInt8) (s : DrvSt) (caller : Nat) :
    respHeader.cudaError.get (answered buf
      (some (s.m.dev.eng.mem.read (.resp caller) 0 (sizeof respHeader)))) = s.seen caller := by
  refine Field.get_congr fun a _ ha => ?_
  have hlt : a < sizeof respHeader := ha.trans_le (by decide)
  simp only [answered, ByteMem.length_read, if_pos hlt]
  rw [ByteMem.getD_read _ _ hlt, Nat.zero_add]

/-! A plain command -/

theorem respSize_le (c : Cmd) : (c.sizes none).respSize ≤ 2048 := by
  rcases c with c | c <;> cases c <;> decide +kernel

section
variable {e : DrvEnv} {c : Cmd} {n m : Nat} {img buf : Nat → UInt8}

theorem Sent.respLen (h : Sent e c n m img) : m = (c.sizes none).respSize := reqSizes_resp h.sizes

theorem Sent.totalResp (h : Sent e c n m img) :
    add64 (sizeof respHeader) m = sizeof respHeader + m := by
  have h8 : sizeof respHeader = 8 := by decide
  have hle := respSize_le c
  rw [← h.respLen] at hle
  exact add64_of_lt (by omega)

theorem respRoom_plainElem (h : Sent e c n m img) : (plainElem e n m).respRoom = m := by
  show add64 (sizeof respHeader) m - sizeof respHeader = m
  rw [h.totalResp, Nat.add_sub_cancel_left]

theorem plainServed_writes (h : Sent e c n m img) (M : Machine) :
    (plainServed e c n m M).writes = [⟨.resp e.caller, 0,
      (respBytes c.code (plainServed e c n m M).err (plainServed e c n m M).payload).take
        (sizeof respHeader + m)⟩] := by
  have hne (err : Nat) (bs : List UInt8) : respBytes c.code err bs ≠ [] := by
    simp [respBytes, Bytes.le]
  rw [← h.totalResp]
  simp [plainServed, respond, respWrites, plainElem, simpleElem, bufToIov, hne]

theorem answered_resp (h : Sent e c n m img) (s : DrvSt) (evs : List Ev) {i : Nat}
    (hm : i < m) (hi : i < (plainServed e c n m (s.showing e img)).payload.length) :
    (s.answered e c n m img evs).m.dev.eng.mem (.resp e.caller) (sizeof respHeader + i) =
      (plainServed e c n m (s.showing e img)).payload.getD i 0 := by
  have hw := plainServed_writes h (s.showing e img)
  unfold DrvSt.answered Machine.deliver
  simp only [hw, applyWrites, List.foldl_cons, List.foldl_nil]
  generalize plainServed e c n m (s.showing e img) = sv at hi
  have h8 : sizeof respHeader = 8 := by decide
  rw [← Nat.zero_add (sizeof respHeader + i), ByteMem.write_hit]
  · rw [List.getD_eq_getElem?_getD, List.getElem?_take_of_lt (by omega),
      ← List.getD_eq_getElem?_getD, respBytes, List.getD_append_right _ _ _ _ (by simp [h8])]
    simp [h8]
  · rw [List.length_take, length_respBytes]
    omega

theorem dispatchResult_resp {buf : Nat → UInt8} {respLen : Nat} {r : IoctlRes} {bs : List UInt8}
    (h : (dispatchResult buf respLen r).resp = some bs) :
    bs = (List.range respLen).map fun i => answered buf r.out (sizeof respHeader + i) := by
  unfold dispatchResult at h
  split at h
  · split at h
    · cases h
    · dsimp only at h
      split at h
      · cases h
      · split at h
        · exact (Option.some.inj h).symm
        · cases h
  · cases h
  · cases h

variable (buf) in
theorem handedOn_of_room (h : Sent e c n m img) (hc : ¬isMemcpy c.code) (s : DrvSt)
    (respLen : Nat)
    (hroom : min (plainServed e c n m (s.showing e img)).payload.length respLen ≤ m) :
    HandedOn respLen (dispatchResult buf respLen (hmcudaIoctl.run e s).1).resp
      (plainElem e n m, plainServed e c n m (s.showing e img)) := by
  refine ⟨by rwa [respRoom_plainElem h], fun bs hbs => ?_⟩
  obtain ⟨evs, hst, hres⟩ := hmcudaIoctl_answered h hc s
  rw [dispatchResult_resp hbs]
  generalize hsv : plainServed e c n m (s.showing e img) = sv at hroom ⊢
  apply List.ext_getElem
  · simp [Nat.min_comm]
  intro i h1 h2
  have hi : i < sv.payload.length ∧ i < respLen := by simpa using h1
  have him : i < m := by omega
  have hmem := answered_resp h s evs him (by rw [hsv]; exact hi.1)
  rw [hsv, ← hst] at hmem
  simp only [List.getElem_take, List.getElem_map, List.getElem_range]
  by_cases hcopy : e.copyOut = true
  · rw [if_pos hcopy] at hres
    have hlt : sizeof respHeader + i < add64 (sizeof respHeader) m := by
      rw [h.totalResp]
      omega
    rw [hres, answered, ByteMem.length_read, if_pos hlt, ByteMem.getD_read _ _ hlt, Nat.zero_add, hmem,
      List.getD_eq_getElem _ _ hi.1]
  · rw [if_neg hcopy] at hres
    rw [hres] at hbs
    cases hbs

theorem Sent.textReqLen (h : Sent e c n m img) (hc : c ∈ textCmds) :
    n = (c.sizes none).reqSize :=
  reqSizes_fixed (reqSize_of_text hc) h.sizes

theorem textLen_showing (h : Sent (e.calling buf) c n m img) (s : DrvSt) :
    textLen e.sys s.m.dev.clock
        (cmdStart e.sys (plainElem (e.calling buf) n m) (s.showing (e.calling buf) img)).payload c =
      textLen e.sys s.m.dev.clock (payloadOf buf) c := by
  by_cases hc : c ∈ textCmds
  swap
  · rw [textLen_none _ _ _ hc, textLen_none _ _ _ hc]
  apply textLen_congr
  intro a ha
  rw [← h.textReqLen hc] at ha
  have hlen : payloadOff + a < (plainElem (e.calling buf) n m).reqLen := by
    rw [h.reqLen]
    exact Nat.add_lt_add_left ha _
  obtain ⟨hdr, -, -, hb⟩ := h.image
  obtain ⟨p, hp, rfl⟩ := built_ok hb
  have hfetch := hp (Nat.zero_lt_of_lt ha)
  rw [cmdStart_payload hlen, plainElem_image, payloadOf_reqImage hdr p ha]
  unfold DrvEnv.fetch at hfetch
  split at hfetch
  · exact (congrFun (Option.some.inj hfetch) a).symm
  · cases hfetch

theorem header_dispatchBuf (left : Nat → UInt8) (cmd : Nat) (req : List UInt8) (respLen : Nat) :
    reqHeader.cmdType.get (dispatchBuf left cmd req respLen) = cmd % 2 ^ 32 := by
  have hb : (List.range 4).map (fun i => dispatchBuf left cmd req respLen (0 + i)) =
      Bytes.le 4 cmd := by
    simp [List.range_succ, dispatchBuf, sizeof, reqHeader, roundUp, stopFrom, alignOf, CTy.align,
      CTy.size, Bytes.le]
  rw [Field.get]
  exact (congrArg Bytes.val hb).trans (Bytes.val_le 4 cmd)

theorem Call.header (x : Call) (e : DrvEnv) (hdr : Nat → UInt8)
    (h : (e.calling x.buf).fetch 0 0 (sizeof reqHeader) = some hdr) :
    reqHeader.cmdType.get hdr = x.cmd.code := by
  unfold DrvEnv.fetch at h
  split at h
  · obtain rfl := Option.some.inj h
    have hget := header_dispatchBuf x.left x.cmd.code x.req x.respLen
    have hlt : x.cmd.code < 2 ^ 32 := x.cmd.code_lt
    rw [Nat.mod_eq_of_lt hlt] at hget
    rw [← hget]
    exact Field.get_congr fun a _ _ => congrArg x.buf (Nat.zero_add a)
  · cases h

theorem copyCmd_of_isMemcpy {c : Cmd} (h : isMemcpy c.code) : ∃ d : CopyCmd, c = d.cmd := by
  have inj {a b : Cmd} (hab : a.code = b.code) : a = b := by
    have hcode := Cmd.ofCode_code a
    rw [hab, Cmd.ofCode_code] at hcode
    exact (Option.some.inj hcode).symm
  rcases h with h | h | h
  · exact ⟨.memcpy, inj h⟩
  · exact ⟨.cuMemcpy, inj h⟩
  · exact ⟨.cuMemHostAlloc, inj h⟩

theorem Call.dispatch_run {x : Call} (hx : x.ready) (e : DrvEnv) (s : DrvSt) :
    x.dispatch.run e s =
      (dispatchResult x.buf x.respLen (hmcudaIoctl.run (e.calling x.buf) s).1,
        (hmcudaIoctl.run (e.calling x.buf) s).2) := by
  obtain ⟨h1, h2⟩ := hx
  unfold Call.dispatch transportDispatch
  simp only [h1, h2, Bool.false_eq_true, not_true_eq_false, if_false]
  rfl

theorem Call.dispatch_unready {x : Call} (hx : ¬x.ready) (e : DrvEnv) (s : DrvSt) :
    (x.dispatch.run e s).2 = s := by
  unfold Call.dispatch transportDispatch
  dsimp only
  split
  · rfl
  next h1 =>
    split
    · rfl
    next h2 => exact absurd ⟨by simpa using h1, by simpa using h2⟩ hx

theorem payloadLaw_sent {x : Call} (hx : x.ready) (hc : ¬isMemcpy x.cmd.code)
    (h : Sent (e.calling x.buf) x.cmd n m img) (s : DrvSt) : PayloadLaw x e s ↔
      ∀ k, textLen e.sys s.m.dev.clock (payloadOf x.buf) x.cmd = some k →
        min (4 + k) x.respLen ≤ (x.cmd.sizes none).respSize := by
  obtain ⟨evs, hst, -⟩ := hmcudaIoctl_answered h hc s.fresh
  have hex : (x.dispatch.run e s.fresh).2.exchanges = [(plainElem (e.calling x.buf) n m,
      plainServed (e.calling x.buf) x.cmd n m (s.fresh.showing (e.calling x.buf) img))] := by
    rw [Call.dispatch_run hx, hst]
    rfl
  have hplain : x.cmd ∉ [.rt .memcpy, .drv .cuMemcpy, .drv .cuMemHostAlloc] := by
    intro hm
    simp only [List.mem_cons, List.not_mem_nil, or_false] at hm
    rcases hm with hm | hm | hm <;> exact hc (by rw [hm]; decide)
  have hfills : Fills (textLen e.sys s.m.dev.clock (payloadOf x.buf) x.cmd) m
      (plainReply (e.calling x.buf) x.cmd n m (s.fresh.showing (e.calling x.buf) img)).2 := by
    have htext : textLen e.sys s.m.dev.clock (cmdStart e.sys (plainElem (e.calling x.buf) n m)
        (s.fresh.showing (e.calling x.buf) img)).payload x.cmd =
          textLen e.sys s.m.dev.clock (payloadOf x.buf) x.cmd := textLen_showing h s.fresh
    rw [← htext, h.respLen]
    exact dispatchCmd_fills (cmdEnv e.sys e.key (plainElem (e.calling x.buf) n _))
      (cmdStart e.sys (plainElem (e.calling x.buf) n _) (s.fresh.showing (e.calling x.buf) img))
      hplain rfl
  have handed := handedOn_of_room x.buf h hc s.fresh x.respLen
  unfold PayloadLaw
  rw [hex, Call.dispatch_run hx, ← h.respLen]
  simp only [List.mem_singleton, forall_eq]
  have hpayload : (plainServed (e.calling x.buf) x.cmd n m (s.fresh.showing (e.calling x.buf)
      img)).payload = (plainReply (e.calling x.buf) x.cmd n m
        (s.fresh.showing (e.calling x.buf) img)).2.resp := rfl
  have herr : (plainServed (e.calling x.buf) x.cmd n m (s.fresh.showing (e.calling x.buf)
      img)).err = (plainReply (e.calling x.buf) x.cmd n m
        (s.fresh.showing (e.calling x.buf) img)).2.err := rfl
  rw [herr]
  rw [hpayload] at handed
  generalize plainReply (e.calling x.buf) x.cmd n m (s.fresh.showing (e.calling x.buf) img) = r
    at hfills handed hpayload
  unfold Fills at hfills
  rcases htext : textLen e.sys s.m.dev.clock (payloadOf x.buf) x.cmd with _ | k
  · -- no text: the response is within the driver's table
    rw [htext] at hfills
    exact ⟨fun _ k hk => (by cases hk), fun _ h0 => handed ((min_le_left _ _).trans (hfills h0))⟩
  · -- a text: it is cut to the descriptor, and that is the room the law asks for
    rw [htext] at hfills
    obtain ⟨h0, hlen⟩ := hfills
    rw [hlen] at handed
    refine ⟨fun hlaw j hj => ?_, fun hfit _ => handed (hfit k rfl)⟩
    obtain rfl := Option.some.inj hj
    have hroom := (hlaw h0).room
    rwa [respRoom_plainElem h, hpayload, hlen] at hroom

end

/-- For every command and request, what a successful handler answers is handed on, cut
only by the caller, exactly when the text CUDA answers with fits the driver's table. -/
theorem payloadLaw_iff (x : Call) (e : DrvEnv) (s : DrvSt) : PayloadLaw x e s ↔ TextFits x e s := by
  by_cases hx : x.ready
  swap
  · refine ⟨fun _ h => absurd h hx, fun _ y hy => ?_⟩
    rw [Call.dispatch_unready hx] at hy
    cases hy
  have hrun := Call.dispatch_run hx e s.fresh
  have hcode := x.header e
  by_cases hc : isMemcpy x.cmd.code
  · obtain ⟨c, hc⟩ := copyCmd_of_isMemcpy hc
    have hnone : x.cmd ∉ textCmds := by
      rw [hc]
      cases c <;> decide
    refine ⟨fun _ _ _ k hk => ?_, fun _ y hy _ => ?_⟩
    · rw [textLen_none _ _ _ hnone] at hk
      cases hk
    · rw [hrun] at hy
      have hp := hmcudaIoctl_copyPayloads (fun hdr hh => (hcode hdr hh).trans (congrArg Cmd.code hc))
        s y hy
      refine ⟨?_, fun bs _ => ?_⟩
      · rw [hp, List.length_nil, Nat.zero_min]
        exact Nat.zero_le _
      · rw [hp, List.length_nil, List.take_zero, List.take_nil]
  by_cases hsent : ∃ n m img, Sent (e.calling x.buf) x.cmd n m img
  · obtain ⟨n, m, img, h⟩ := hsent
    rw [payloadLaw_sent hx hc h]
    exact ⟨fun h' _ _ => h', fun h' => h' hx ⟨n, m, img, h⟩⟩
  · refine ⟨fun _ _ h => absurd h hsent, fun _ y hy => ?_⟩
    obtain ⟨-, hq⟩ := hmcudaIoctl_refused hc hcode
      (fun n m img h => hsent ⟨n, m, img, h⟩) s.fresh
    rw [hrun, DrvSt.exchanges, hq.batches, hq.served] at hy
    cases hy

/-- `cuDeviceGetName` into a buffer of 100 bytes. -/
def nameCall : Call where
  transport := ⟨false, true⟩
  left _ := 0
  cmd := .drv .cuDeviceGetName
  req := Bytes.le 4 0 ++ Bytes.le 4 100
  respLen := sizeof cuDeviceGetNameResp + 100

def nameEnv : DrvEnv :=
  .quiet { Env.quiet with
    ret _ c := if c.fn = .cuDeviceGetName then ⟨0, [], some [65]⟩ else .ok } fun _ _ => 0

theorem name_not_handedOn : ¬PayloadLaw nameCall nameEnv (.start fun _ _ => 0) := by
  have hsent : Sent (nameEnv.calling nameCall.buf) nameCall.cmd 8 4 _ :=
    ⟨⟨_, rfl, by decide, rfl⟩, rfl, rfl⟩
  rw [payloadLaw_sent ⟨rfl, rfl⟩ (by decide) hsent]
  intro h
  have hfit := h 2 (by decide)
  exact absurd hfit (by decide)

end HmCuda
