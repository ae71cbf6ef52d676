import HmCuda.Guest.Process
import HmCuda.System.LaunchParams
import HmCuda.System.RequestDecoding

/-! The image of a fat binary from `__cudaRegisterFatBinary` to `cuModuleLoadData`. The
library takes the size of the content for the size of the image. -/

namespace HmCuda
open Layout

/-- `__fatBinaryHeader::headerSize` -/
def fatBinaryHeader.headerSize : Field := ⟨6, 2⟩

def fatbinMagics : List Nat := [0xBA55ED50, 0x50ED5AB4, 0x466243b1, 0xB1436246]

/-- `__cudaRegisterFatBinary` on the bytes at its argument and at the wrapper's `data`:
NULL or a pointer to a handle, and `none` if it never returns. -/
def cudaRegisterFatBinary (fatCubin : Option ((Nat → UInt8) × (Nat → UInt8))) :
    GuestM (Option (Option Nat)) := do
  match fatCubin with
  | none => return some none
  | some (bytes, wrapped) =>
    let req := VarReq.registerFatbin bytes wrapped
    let left := (← Prog.ask).left (← Prog.get).sent.length
    let r ← dispatch req.cmd.cmd (req.payload left) req.respLen
    return r.ret.map fun x => if x = 0 then some (respWord registerFatbinResp r) else none

/-- The image by its own header: the header, then the content. -/
def wholeImage (data : Nat → UInt8) : List UInt8 :=
  (List.range (fatBinaryHeader.headerSize.get data + fatBinaryHeader.fatSize.get data)).map data

/-- What lies in a request from where `cuModuleLoadData` is pointed to its end. -/
def handedImage (x : Elem × (Nat → UInt8)) : List UInt8 :=
  let off := payloadOff + sizeof registerFatbinReq
  (List.range (x.1.reqLen - off)).map fun i => x.2 (off + i)

/-- In every run in which the fat binary is registered, the image that is handed over is
as `P` says. -/
def Registers (bytes wrapped : Nat → UInt8) (P : List UInt8 → Prop) : Prop :=
  ∀ (e : GuestEnv) (s : GuestSt) (h : Nat),
    ((cudaRegisterFatBinary (some (bytes, wrapped))).run e s).1 = some (some h) →
    ∃ x, ((cudaRegisterFatBinary (some (bytes, wrapped))).run e s).2.drv.submitted =
      s.drv.submitted ++ [x] ∧ P (handedImage x)

/-- `cuModuleLoadData` reads the bytes that were handed over first. -/
theorem peek_handedImage (e : CmdEnv) (env : Env) (x : Elem) (m : Machine) (n : Nat) :
    ((peek (sizeof registerFatbinReq) n).run e (cmdStart env x m)).1.take
        (handedImage (x, x.image m)).length = (handedImage (x, x.image m)).take n := by
  apply List.ext_getElem
  · simp [handedImage, peek, Nat.min_comm]
  intro i h1 h2
  have hi : i < x.reqLen - (payloadOff + sizeof registerFatbinReq) := by
    simp only [handedImage, List.length_take, List.length_map, List.length_range] at h2
    omega
  have hlt : payloadOff + (sizeof registerFatbinReq + i) < x.reqLen := by omega
  simp only [List.getElem_take, peek, handedImage, List.getElem_map, List.getElem_range]
  rw [Nat.add_assoc]
  exact cmdStart_payload hlt

theorem fatbinSize_le (data : Nat → UInt8) : fatbinSize data ≤ 100 * 1024 * 1024 := by
  have clamp (n : Nat) :
      (if n = 0 ∨ n > 100 * 1024 * 1024 then 65536 else n) ≤ 100 * 1024 * 1024 := by
    split <;> omega
  exact clamp _

theorem fits_registerFatbin (bytes wrapped : Nat → UInt8) :
    (VarReq.registerFatbin bytes wrapped).Fits := by
  have hle := fatbinSize_le (fatbinData bytes wrapped)
  have hcount : (VarReq.registerFatbin bytes wrapped).count < 256 ^ 8 :=
    hle.trans_lt (by decide)
  refine ⟨fun i v hv => ?_, hcount, trivial⟩
  cases i with
  | zero =>
    obtain rfl : (VarReq.registerFatbin bytes wrapped).count = v := by
      simpa [VarReq.members] using hv
    exact hcount
  | succ i => simp [VarReq.members] at hv

section
variable {d : DrvEnv} {t : Transport} {stack left : Nat → UInt8} {r : VarReq} {n m : Nat}
  {img : Nat → UInt8}

theorem VarReq.Fits.of_sent (hr : r.Fits) (hlt : (r.payload left).length < 2 ^ 64)
    (h : Sent (d.calling (r.call t stack left).buf) r.cmd.cmd n m img) :
    n = (r.payload left).length ∧
      ∀ a < (r.payload left).length, img (sizeof reqHeader + a) = (r.payload left).getD a 0 := by
  have hlen := r.length_payload left
  have hbuf (a : Nat) (ha : a < (r.payload left).length) :
      (r.call t stack left).buf (sizeof reqHeader + a) = (r.payload left).getD a 0 :=
    VarReq.dispatchBuf_payload stack _ _ _ ha
  have hsizes := h.sizes
  have hn : n = (r.payload left).length := by
    unfold reqSizes at hsizes
    rw [r.cmd.sizes_none, if_pos r.cmd.fixed_pos] at hsizes
    split at hsizes
    · split at hsizes
      · cases hsizes
      next q hq =>
        obtain rfl := VarReq.fetch_calling_eq hq
        have hstated : r.cmd.stated (fun a => (r.call t stack left).buf (sizeof reqHeader + a)) =
            r.count * r.cmd.unit := congrArg (· * r.cmd.unit) (hr.stated left hbuf)
        have hadd := (Prod.mk.inj (Except.ok.inj hsizes)).1
        rw [r.cmd.sizes_some, hstated, add64_of_lt (hlen ▸ hlt), ← hlen] at hadd
        exact hadd.symm
    · cases hsizes
  refine ⟨hn, fun a ha => ?_⟩
  exact VarReq.Sent.image_of_call (x := r.call t stack left) h hn (hn ▸ ha)

end

theorem sent_of_ret {e : DrvEnv} {c : Cmd} (hm : ¬isMemcpy c.code)
    (hc : ∀ hdr, e.fetch 0 0 (sizeof reqHeader) = some hdr → reqHeader.cmdType.get hdr = c.code)
    {s : DrvSt} {x : Int} (hx : (hmcudaIoctl.run e s).1.halt = .ret x) (h0 : 0 ≤ x) :
    ∃ n m img, Sent e c n m img := by
  by_contra hno
  rcases (hmcudaIoctl_refused hm hc (fun n m img h => hno ⟨n, m, img, h⟩) s).1 with
    ⟨err, hneg, hr⟩ | ⟨hf, -⟩
  · obtain rfl : err = x := by simpa using hr.symm.trans hx
    exact absurd h0 (Int.not_le.mpr hneg)
  · rw [hf] at hx
    cases hx

/-! The registration -/

section
variable {bytes wrapped : Nat → UInt8}

def registerCall (e : GuestEnv) (s : GuestSt) (bytes wrapped : Nat → UInt8) : Call :=
  (VarReq.registerFatbin bytes wrapped).call s.transport (e.stack s.sent.length)
    (e.left s.sent.length)

theorem cudaRegisterFatBinary_run (e : GuestEnv) (s : GuestSt) :
    ((cudaRegisterFatBinary (some (bytes, wrapped))).run e s).1 =
        (((registerCall e s bytes wrapped).dispatch.run (e.drv s.sent.length) s.drv).1.ret.map
          fun x => if x = 0 then some (respWord registerFatbinResp
            ((registerCall e s bytes wrapped).dispatch.run (e.drv s.sent.length) s.drv).1)
          else none) ∧
      ((cudaRegisterFatBinary (some (bytes, wrapped))).run e s).2.drv =
        ((registerCall e s bytes wrapped).dispatch.run (e.drv s.sent.length) s.drv).2 :=
  ⟨rfl, rfl⟩

theorem registered_iff (e : GuestEnv) (s : GuestSt) :
    (∃ h, ((cudaRegisterFatBinary (some (bytes, wrapped))).run e s).1 = some (some h)) ↔
      ((registerCall e s bytes wrapped).dispatch.run (e.drv s.sent.length) s.drv).1.ret = some 0 := by
  rw [(cudaRegisterFatBinary_run e s).1]
  generalize ((registerCall e s bytes wrapped).dispatch.run (e.drv s.sent.length) s.drv).1 = r
  rcases r.ret with _ | x
  · simp
  · by_cases h0 : x = 0
    · simp [h0]
    · simp [h0]

theorem Call.ready_of_ret {x : Call} {e : DrvEnv} {s : DrvSt}
    (h : (x.dispatch.run e s).1.ret = some 0) : x.ready := by
  unfold Call.dispatch transportDispatch at h
  dsimp only at h
  split at h
  · cases h
  next h1 =>
    split at h
    · cases h
    next h2 => exact ⟨by simpa using h1, by simpa using h2⟩

theorem halt_of_ret {buf : Nat → UInt8} {respLen : Nat} {r : IoctlRes}
    (h : (dispatchResult buf respLen r).ret = some 0) : ∃ x, r.halt = .ret x ∧ 0 ≤ x := by
  unfold dispatchResult at h
  split at h
  next x hx =>
    split at h
    · cases h
    next h0 => exact ⟨x, hx, Int.not_lt.mp h0⟩
  · cases h
  · cases h

theorem VarReq.Fits.submitted {r : VarReq} {t : Transport} {stack left : Nat → UInt8} {d : DrvEnv}
    {s : DrvSt} (hr : r.Fits) (hlt : (r.payload left).length < 2 ^ 64)
    (h : ((r.call t stack left).dispatch.run d s).1.ret = some 0) :
    ∃ x, ((r.call t stack left).dispatch.run d s).2.submitted = s.submitted ++ [x] ∧
      x.1.reqLen = sizeof reqHeader + r.cmd.fixed + r.tail.length ∧
      ∀ j < r.tail.length, x.2 (sizeof reqHeader + r.cmd.fixed + j) = r.tail.getD j 0 := by
  have hready := Call.ready_of_ret h
  rw [Call.dispatch_run hready] at h ⊢
  obtain ⟨x, hx, h0⟩ := halt_of_ret h
  obtain ⟨n, m, img, hsent⟩ := sent_of_ret r.cmd.not_isMemcpy (Call.header _ _) hx h0
  obtain ⟨hn, himg⟩ := hr.of_sent hlt hsent
  obtain ⟨evs, hst, -⟩ := hmcudaIoctl_answered hsent r.cmd.not_isMemcpy s
  refine ⟨_, congrArg DrvSt.submitted hst, ?_, fun j hj => ?_⟩
  · have hreq : (plainElem (d.calling (r.call t stack left).buf) n m).reqLen = _ := hsent.reqLen
    rw [hreq, hn, r.length_payload, ← r.length_tail, Nat.add_assoc]
  · rw [Nat.add_assoc]
    exact VarReq.payload_tail (p := fun a => img (sizeof reqHeader + a)) left himg hj

theorem length_registerFatbin (left : Nat → UInt8) :
    ((VarReq.registerFatbin bytes wrapped).payload left).length =
      8 + fatbinSize (fatbinData bytes wrapped) := by
  have hfixed : (VarReq.registerFatbin bytes wrapped).cmd.fixed = 8 :=
    (by decide : VarCmd.registerFatbin.fixed = 8)
  rw [VarReq.length_payload, hfixed, ← VarReq.length_tail]
  simp [VarReq.tail, VarReq.count]

theorem registerCall_handed {e : GuestEnv} {s : GuestSt}
    (h : ((registerCall e s bytes wrapped).dispatch.run (e.drv s.sent.length) s.drv).1.ret =
      some 0) :
    ∃ x, ((registerCall e s bytes wrapped).dispatch.run (e.drv s.sent.length) s.drv).2.submitted =
      s.drv.submitted ++ [x] ∧ handedImage x = (VarReq.registerFatbin bytes wrapped).tail := by
  have hfixed : (VarReq.registerFatbin bytes wrapped).cmd.fixed = 8 :=
    (by decide : VarCmd.registerFatbin.fixed = 8)
  have hlt : ((VarReq.registerFatbin bytes wrapped).payload (e.left s.sent.length)).length <
      2 ^ 64 := by
    have hle := fatbinSize_le (fatbinData bytes wrapped)
    rw [length_registerFatbin]
    omega
  obtain ⟨x, hx, hlen, hbytes⟩ := (fits_registerFatbin bytes wrapped).submitted hlt h
  refine ⟨x, hx, ?_⟩
  rw [hfixed] at hlen hbytes
  have hoff : sizeof reqHeader + 8 = payloadOff + sizeof registerFatbinReq := by decide
  rw [hoff] at hlen hbytes
  rw [handedImage, hlen, Nat.add_sub_cancel_left,
    ← map_getD_range (VarReq.registerFatbin bytes wrapped).tail]
  simp only [List.length_map, List.length_range]
  exact List.map_congr_left fun i hi => hbytes i (List.mem_range.mp hi)

/-! A backend with a session and nothing else, that registers every fat binary -/

def readyEnv : GuestEnv :=
  ⟨fun _ => .quiet .quiet fun _ _ => 0, fun _ _ => 0, fun _ _ => 0, false, fun _ => true⟩

def readySt : GuestSt :=
  { GuestSt.start { DrvSt.start fun _ _ => 0 with
      m := { Machine.start fun _ _ => 0 with tab := Tables.start.ctxCreate ⟨1, 1⟩ } } with
    transport := ⟨false, true⟩ }

theorem coreRegisterFatbin_ok {env : Env} {k : Key} {c : Context} {M : Machine} {image : List UInt8}
    (hc : M.tab.ctxGet k = some c)
    (h0 : (env.ret M.dev.clock ⟨.cuModuleLoadData, [], [image]⟩).code = 0) :
    ((coreRegisterFatbin k image).run env M).1.1 = 0 := by
  simp [coreRegisterFatbin, withCtxM, hc, lib, h0]

theorem handleRegisterFatbin_ok {e : CmdEnv} {s : CmdSt} {c : Context}
    (hc : s.be.tab.ctxGet e.key = some c)
    (h0 : ∀ call, (e.env.ret s.be.dev.clock call).code = 0) :
    (handleRegisterFatbin.run e s).2.err = 0 := by
  have hsome : (s.be.tab.ctxGet e.key).isSome = true := by rw [hc]; rfl
  unfold handleRegisterFatbin answerWith
  simp only [Prog.bind_run, key_run, Prog.get_run, Prog.ask_run, req_be, hsome, if_true, reply_err,
    setErr_err, core_fst]
  exact congrArg (· % 2 ^ 32) (coreRegisterFatbin_ok hc (h0 _))

theorem plainServed_registerFatbin {e : DrvEnv} {n m : Nat} {M : Machine} {c : Context}
    (hc : M.tab.ctxGet e.key = some c) (h0 : ∀ i call, (e.sys.ret i call).code = 0) :
    (plainServed e (.rt .registerFatbin) n m M).err = 0 := by
  have hreply : (plainReply e (.rt .registerFatbin) n m M).2 = (handleRegisterFatbin.run
      (cmdEnv e.sys e.key (plainElem e n m)) (cmdStart e.sys (plainElem e n m) M)).2 := by
    rw [plainReply, dispatchCmd, Cmd.ofCode_code]
    rfl
  show (plainReply e (.rt .registerFatbin) n m M).2.err = 0
  rw [hreply]
  exact handleRegisterFatbin_ok (c := c) hc fun call => h0 _ call

theorem ret_of_served {e : DrvEnv} {c : Cmd} {n m : Nat} {img buf : Nat → UInt8} {respLen : Nat}
    (h : Sent e c n m img) (hm : ¬isMemcpy c.code) (hcopy : e.copyOut = true) {s : DrvSt}
    (h0 : (plainServed e c n m (s.showing e img)).err = 0) :
    (dispatchResult buf respLen (hmcudaIoctl.run e s).1).ret = some 0 := by
  obtain ⟨evs, hst, hres⟩ := hmcudaIoctl_answered h hm s
  have hseen := answered_seen h s evs
  rw [h0, ← hst] at hseen
  rw [if_pos hcopy] at hres
  rw [dispatchResult, hres]
  have herr : respHeader.cudaError.get (answered buf (some
      ((hmcudaIoctl.run e s).2.m.dev.eng.mem.read (.resp e.caller) 0 (add64 (sizeof respHeader) m)))) =
        0 := by
    refine (Field.get_congr fun a _ ha => ?_).trans hseen
    have hlt : a < add64 (sizeof respHeader) m := by
      rw [h.totalResp]
      exact (ha.trans_le (by decide : respHeader.cudaError.stop ≤ sizeof respHeader)).trans_le
        (Nat.le_add_right _ _)
    simp only [answered, ByteMem.length_read, if_pos hlt]
    rw [ByteMem.getD_read _ _ hlt, Nat.zero_add]
  simp only [herr, ne_eq, not_true_eq_false, if_false]
  split
  next hneg => exact absurd hneg (by decide)
  next => split <;> rfl

theorem readySt_registers (bytes wrapped : Nat → UInt8) : ∃ h,
    ((cudaRegisterFatBinary (some (bytes, wrapped))).run readyEnv readySt).1 = some (some h) := by
  have hle := fatbinSize_le (fatbinData bytes wrapped)
  have harg : dispatchLen ((VarReq.registerFatbin bytes wrapped).payload fun _ => 0).length
      (VarReq.registerFatbin bytes wrapped).respLen ≤ taskSize := by
    rw [length_registerFatbin]
    have h8 : sizeof reqHeader = 8 ∧ sizeof respHeader = 8 ∧ sizeof registerFatbinResp = 8 ∧
      taskSize = 2 ^ 47 - 4096 := by decide
    simp only [dispatchLen, VarReq.respLen, h8]
    omega
  obtain ⟨img, hsent, -⟩ := (fits_registerFatbin bytes wrapped).sent (fun _ => 0)
    ⟨false, true⟩ (fun _ => 0) (d := .quiet .quiet fun _ _ => 0) (fun _ => rfl)
    ((Nat.zero_add _).trans_le harg) rfl
  have hcall : registerCall readyEnv readySt bytes wrapped =
      (VarReq.registerFatbin bytes wrapped).call ⟨false, true⟩ (fun _ => 0) fun _ => 0 := rfl
  have hplain := (VarReq.registerFatbin bytes wrapped).cmd.not_isMemcpy
  rw [registered_iff, hcall, Call.dispatch_run ⟨rfl, rfl⟩]
  exact ret_of_served hsent hplain rfl
    (plainServed_registerFatbin (c := ⟨⟨1, 1⟩, fun _ => []⟩) rfl fun _ _ => rfl)

theorem registers_iff (P : List UInt8 → Prop) : Registers bytes wrapped P ↔
    P ((List.range (fatbinSize (fatbinData bytes wrapped))).map (fatbinData bytes wrapped)) := by
  have handed (e : GuestEnv) (s : GuestSt) (h : Nat)
      (hh : ((cudaRegisterFatBinary (some (bytes, wrapped))).run e s).1 = some (some h)) :
      ∃ x, ((cudaRegisterFatBinary (some (bytes, wrapped))).run e s).2.drv.submitted =
        s.drv.submitted ++ [x] ∧ handedImage x = (VarReq.registerFatbin bytes wrapped).tail :=
    registerCall_handed ((registered_iff e s).mp ⟨h, hh⟩)
  constructor
  · intro hreg
    obtain ⟨h, hh⟩ := readySt_registers bytes wrapped
    obtain ⟨x, hx, htail⟩ := handed _ _ h hh
    obtain ⟨y, hy, hP⟩ := hreg _ _ h hh
    obtain rfl : x = y := by simpa using hx.symm.trans hy
    rw [htail] at hP
    exact hP
  · intro hP e s h hh
    obtain ⟨x, hx, htail⟩ := handed e s h hh
    refine ⟨x, hx, ?_⟩
    rw [htail]
    exact hP

theorem map_range_inj {α : Type} {f : Nat → α} {a b : Nat} :
    (List.range a).map f = (List.range b).map f ↔ a = b := by
  refine ⟨fun h => ?_, fun h => by rw [h]⟩
  simpa using congrArg List.length h

theorem map_range_prefix {α : Type} {f : Nat → α} {a b : Nat} :
    (List.range a).map f <+: (List.range b).map f ↔ a ≤ b := by
  constructor
  · intro h
    simpa using h.length_le
  · intro h
    apply List.IsPrefix.map
    rw [← Nat.min_eq_left h, ← List.take_range]
    exact List.take_prefix _ _

theorem fatbinSize_of_magic {data : Nat → UInt8}
    (hm : fatBinaryHeader.magic.get data ∈ fatbinMagics) : fatbinSize data =
      if fatBinaryHeader.fatSize.get data = 0 ∨ fatBinaryHeader.fatSize.get data > 100 * 1024 * 1024
        then 65536 else fatBinaryHeader.fatSize.get data := by
  have hm' : fatBinaryHeader.magic.get data ∈ [0xBA55ED50, 0x50ED5AB4, 0x466243b1, 0xB1436246] := hm
  simp only [fatbinSize, if_pos hm']

end

/-- The image of a registered fat binary is handed over as it is exactly if it has no
header and between 1 byte and 100 MB of content, and at least not cut short exactly if it has
no content, or no header and no more than 100 MB. -/
theorem registers_image_iff (bytes wrapped : Nat → UInt8)
    (hm : fatBinaryHeader.magic.get (fatbinData bytes wrapped) ∈ fatbinMagics) :
    (Registers bytes wrapped (· = wholeImage (fatbinData bytes wrapped)) ↔
      fatBinaryHeader.headerSize.get (fatbinData bytes wrapped) = 0 ∧
        0 < fatBinaryHeader.fatSize.get (fatbinData bytes wrapped) ∧
        fatBinaryHeader.fatSize.get (fatbinData bytes wrapped) ≤ 100 * 1024 * 1024) ∧
    (Registers bytes wrapped (wholeImage (fatbinData bytes wrapped) <+: ·) ↔
      fatBinaryHeader.fatSize.get (fatbinData bytes wrapped) = 0 ∨
        fatBinaryHeader.headerSize.get (fatbinData bytes wrapped) = 0 ∧
          fatBinaryHeader.fatSize.get (fatbinData bytes wrapped) ≤ 100 * 1024 * 1024) := by
  have hheader : fatBinaryHeader.headerSize.get (fatbinData bytes wrapped) < 256 ^ 2 :=
    Field.get_lt _ _
  rw [registers_iff, registers_iff, wholeImage, map_range_inj, map_range_prefix,
    fatbinSize_of_magic hm]
  generalize fatBinaryHeader.headerSize.get (fatbinData bytes wrapped) = h at hheader ⊢
  generalize fatBinaryHeader.fatSize.get (fatbinData bytes wrapped) = n
  split <;> omega

def smallFatbin : Nat → UInt8 := fun a =>
  (Bytes.le 4 0xBA55ED50 ++ Bytes.le 2 1 ++ Bytes.le 2 16 ++ Bytes.le 8 8).getD a 0

theorem registers_image_iff_small :
    ¬Registers smallFatbin smallFatbin (wholeImage (fatbinData smallFatbin smallFatbin) <+: ·) :=
  fun h => absurd ((registers_image_iff smallFatbin smallFatbin (by decide)).2.mp h) (by decide)

/-- 8 of its 24 bytes are handed over. -/
theorem smallFatbin_cut : ¬∀ bytes wrapped,
    fatBinaryHeader.magic.get (fatbinData bytes wrapped) ∈ fatbinMagics →
      Registers bytes wrapped (· = wholeImage (fatbinData bytes wrapped)) := by
  intro h
  have hcut := (registers_iff _).mp (h smallFatbin smallFatbin (by decide))
  exact absurd (congrArg List.length hcut) (by decide)

end HmCuda
