import HmCuda.Host.CopySpec

/-! How far into the copied request each handler reads or writes. -/

namespace HmCuda
open Layout

/-- The access stays below `len`. -/
def Within (len : Nat) (r : Nat × Nat) : Prop := r.2 = 0 ∨ r.1 + r.2 ≤ len

def lastEnd : List (Nat × Nat) → Nat
  | [] => 0
  | r :: rs => max (if r.2 = 0 then 0 else r.1 + r.2) (lastEnd rs)

theorem within_iff_lastEnd (len : Nat) (rs : List (Nat × Nat)) :
    (∀ r ∈ rs, Within len r) ↔ lastEnd rs ≤ len := by
  induction rs with
  | nil => simp [lastEnd]
  | cons r rs ih =>
    rw [List.forall_mem_cons, ih, lastEnd, Nat.max_le]
    refine and_congr_left fun _ => ?_
    unfold Within
    split <;> omega

theorem lastEnd_append (rs ts : List (Nat × Nat)) :
    lastEnd (rs ++ ts) = max (lastEnd rs) (lastEnd ts) := by
  induction rs with
  | nil => simp [lastEnd]
  | cons r rs ih => rw [List.cons_append, lastEnd, ih, lastEnd, Nat.max_assoc]

def CmdSt.top (s : CmdSt) : Nat := lastEnd s.touched

def endOf (f : Field) : Nat := if f.size = 0 then 0 else payloadOff + f.stop

section
variable {α : Type} (e : CmdEnv) (s : CmdSt)

@[simp] theorem top_req (f : Field) : ((req f).run e s).2.top = max s.top (endOf f) := by
  rw [CmdSt.top, req_touched, lastEnd_append, lastEnd, lastEnd, endOf, Field.stop, Nat.add_assoc,
    Nat.max_zero]
  rfl

@[simp] theorem top_peek (off len : Nat) : ((peek off len).run e s).2.top =
    max s.top (if len = 0 then 0 else payloadOff + off + len) := by
  rw [CmdSt.top, peek, lastEnd_append, lastEnd, lastEnd, Nat.max_zero]
  rfl

@[simp] theorem top_poke (off : Nat) (bs : List UInt8) : ((poke off bs).run e s).2.top =
    max s.top (if bs.length = 0 then 0 else payloadOff + off + bs.length) := by
  rw [CmdSt.top, poke, Prog.modify_run, lastEnd_append, lastEnd, lastEnd, Nat.max_zero]
  rfl

@[simp] theorem top_core (m : CoreM α) : ((core m).run e s).2.top = s.top := by rfl
@[simp] theorem top_setErr (n : Nat) : ((setErr n).run e s).2.top = s.top := by rfl
@[simp] theorem top_setD2h : (setD2h.run e s).2.top = s.top := by rfl
@[simp] theorem top_reply (t : CStruct) (v : List (Option Nat)) (r : List UInt8) :
    ((reply t v r).run e s).2.top = s.top := by rfl
@[simp] theorem top_replyFilled (t : CStruct) (o : Option (List Nat)) :
    ((replyFilled t o).run e s).2.top = s.top := by rfl
@[simp] theorem top_answer (m : CoreM Nat) : ((answer m).run e s).2.top = s.top := by rfl
@[simp] theorem top_answerWith (r : CStruct) (m : CoreM (Nat × Option Nat)) :
    ((answerWith r m).run e s).2.top = s.top := by rfl
@[simp] theorem top_answerLib (r : CStruct) (m : QueryM LibRet) :
    ((answerLib r m).run e s).2.top = s.top := by rfl

end

def RtCmd.reads : RtCmd → List Field
  | .malloc => [mallocReq.size]
  | .free => [freeReq.devPtr]
  | .memcpy => [memcpyReq.kind]
  | .memset => [memsetReq.devPtr, memsetReq.value, memsetReq.count]
  | .launchKernel => launchKernelReq.func :: (List.range 3).map launchKernelReq.gridDim ++
    (List.range 3).map launchKernelReq.blockDim ++
    [launchKernelReq.sharedMem, launchKernelReq.stream, launchKernelReq.argsSize]
  | .streamCreate => [streamCreateReq.flags]
  | .streamSynchronize => [streamSynchronizeReq.stream]
  | .eventCreate => [eventCreateReq.flags]
  | .eventRecord => [eventRecordReq.event, eventRecordReq.stream]
  | .eventSynchronize => [eventSynchronizeReq.event]
  | .eventElapsedTime => [eventElapsedTimeReq.startEvent, eventElapsedTimeReq.endEvent]
  | .eventDestroy => [eventDestroyReq.event]
  | .pushCallConfiguration => (List.range 3).map pushCallCfgReq.gridDim ++
    (List.range 3).map pushCallCfgReq.blockDim ++
    [pushCallCfgReq.sharedMem, pushCallCfgReq.stream]
  | .initModule => [initModuleReq.fatbinHandle]
  | .getDeviceProperties => [getDevicePropertiesReq.device]
  | .setDevice => [setDeviceReq.device]
  | .getErrorString | .getErrorName => [getErrorStringReq.error]
  | .funcGetAttributes => [funcGetAttributesReq.func]
  | .registerFatbin => [registerFatbinReq.size]
  | .registerFunction => [registerFunctionReq.fatbinHandle, registerFunctionReq.hostFun]
  | .init | .deviceSynchronize | .popCallConfiguration | .getDeviceCount | .runtimeGetVersion => []

def DrvCmd.reads : DrvCmd → List Field
  | .cuInit => [cuInitReq.flags]
  | .cuDeviceGet => [cuDeviceGetReq.ordinal]
  | .cuDeviceGetName => [cuDeviceGetNameReq.nameLen]
  | .cuDeviceGetAttribute => [cuDeviceGetAttributeReq.attrib, cuDeviceGetAttributeReq.device]
  | .cuDeviceGetUuid => [cuDeviceGetUuidReq.device]
  | .cuDeviceCanAccessPeer =>
    [cuDeviceCanAccessPeerReq.device, cuDeviceCanAccessPeerReq.peerDevice]
  | .cuDevicePrimaryCtxRetain => [cuDevicePrimaryCtxRetainReq.device]
  | .cuDevicePrimaryCtxRelease => [cuDevicePrimaryCtxReleaseReq.device]
  | .cuCtxSetCurrent => [cuCtxSetCurrentReq.context]
  | .cuCtxEnablePeerAccess =>
    [cuCtxEnablePeerAccessReq.peerContext, cuCtxEnablePeerAccessReq.flags]
  | .cuStreamCreate => [cuStreamCreateReq.flags]
  | .cuStreamDestroy => [cuStreamDestroyReq.stream]
  | .cuStreamSynchronize => [cuStreamSynchronizeReq.stream]
  | .cuStreamQuery => [cuStreamQueryReq.stream]
  | .cuStreamWaitEvent =>
    [cuStreamWaitEventReq.stream, cuStreamWaitEventReq.event, cuStreamWaitEventReq.flags]
  | .cuStreamGetCtx => [cuStreamGetCtxReq.stream]
  | .cuEventCreate => [cuEventCreateReq.flags]
  | .cuEventDestroy => [cuEventDestroyReq.event]
  | .cuEventRecord => [cuEventRecordReq.event, cuEventRecordReq.stream]
  | .cuEventElapsedTime => [cuEventElapsedTimeReq.startEvent, cuEventElapsedTimeReq.endEvent]
  | .cuMemAlloc => [cuMemAllocReq.bytesize]
  | .cuMemFree => [cuMemFreeReq.dptr]
  | .cuMemFreeHost => [cuMemFreeHostReq.guestVa]
  | .cuMemsetD32 => [cuMemsetD32Req.dptr, cuMemsetD32Req.value, cuMemsetD32Req.count]
  | .cuMemcpyAsync => [cuMemcpyAsyncReq.dst, cuMemcpyAsyncReq.src, cuMemcpyAsyncReq.bytesize,
    cuMemcpyAsyncReq.stream]
  | .cuMemcpyHtod => [cuMemcpyHtodReq.dstDevice, cuMemcpyHtodReq.srcHost, cuMemcpyHtodReq.bytesize]
  | .cuMemcpy => [memcpyReq.kind]
  | .cuPointerGetAttribute => [cuPointerGetAttributeReq.attrib, cuPointerGetAttributeReq.ptr]
  | .cuGetErrorString => [cuGetErrorStringReq.error]
  | .cuGetErrorName => [cuGetErrorNameReq.error]
  | .cuMemCreate => cuMemCreateReq.size :: (List.range 4).map cuMemCreateReq.prop ++
    [cuMemCreateReq.flags]
  | .cuMemRelease => [cuMemReleaseReq.handle]
  | .cuMemMap => [cuMemMapReq.ptr, cuMemMapReq.size, cuMemMapReq.offset, cuMemMapReq.handle,
    cuMemMapReq.flags]
  | .cuMemUnmap => [cuMemUnmapReq.ptr, cuMemUnmapReq.size]
  | .cuMemAddressReserve => [cuMemAddressReserveReq.size, cuMemAddressReserveReq.alignment,
    cuMemAddressReserveReq.addr, cuMemAddressReserveReq.flags]
  | .cuMemAddressFree => [cuMemAddressFreeReq.ptr, cuMemAddressFreeReq.size]
  | .cuMemExportToShareableHandle =>
    [cuMemExportReq.handle, cuMemExportReq.handleType, cuMemExportReq.flags]
  | .cuMemImportFromShareableHandle => [cuMemImportReq.shareableHandle, cuMemImportReq.handleType]
  | .cuMemSetAccess => [cuMemSetAccessReq.count]
  | .cuMemGetAllocGranularity => (List.range 4).map cuMemGetAllocGranularityReq.prop ++
    [cuMemGetAllocGranularityReq.option]
  | .cuMulticastCreate => (List.range 3).map cuMulticastCreateReq.prop
  | .cuMulticastGetGranularity => (List.range 3).map cuMulticastGetGranularityReq.prop ++
    [cuMulticastGetGranularityReq.option]
  | .cuMulticastAddDevice => [cuMulticastAddDeviceReq.mcHandle, cuMulticastAddDeviceReq.device]
  | .cuMulticastBindMem => [cuMulticastBindMemReq.mcHandle, cuMulticastBindMemReq.mcOffset,
    cuMulticastBindMemReq.memHandle, cuMulticastBindMemReq.memOffset, cuMulticastBindMemReq.size,
    cuMulticastBindMemReq.flags]
  | .cuMulticastUnbind => [cuMulticastUnbindReq.mcHandle, cuMulticastUnbindReq.device,
    cuMulticastUnbindReq.mcOffset, cuMulticastUnbindReq.size]
  | .cuDriverGetVersion | .cuDeviceGetCount | .cuCtxGetDevice | .cuMemHostAlloc => []

def membersEnd (fs : List Field) : Nat := fs.foldr (fun f n => max (endOf f) n) 0

theorem membersEnd_cons (f : Field) (fs : List Field) :
    membersEnd (f :: fs) = max (endOf f) (membersEnd fs) := rfl

@[simp] theorem membersEnd_nil : membersEnd [] = 0 := rfl

def RtCmd.varied : List RtCmd := [.memcpy, .launchKernel, .registerFatbin, .registerFunction]

def DrvCmd.varied : List DrvCmd := [.cuMemHostAlloc, .cuMemcpy, .cuMemSetAccess]

section
variable (e : CmdEnv) (s : CmdSt)

theorem handleGetErrorText_top (m : QueryM LibRet) :
    ((handleGetErrorText m).run e s).2.top = s.top := by
  simp only [handleGetErrorText, Prog.bind_run]
  split <;> simp

theorem handleCuGetErrorText_top (resp : CStruct) (m : QueryM LibRet) :
    ((handleCuGetErrorText resp m).run e s).2.top = s.top := by
  simp only [handleCuGetErrorText, Prog.bind_run]
  split <;> simp

theorem handleCuDeviceGetName_top :
    (handleCuDeviceGetName.run e s).2.top = max s.top (endOf cuDeviceGetNameReq.nameLen) := by
  have hle : endOf cuDeviceGetNameReq.device ≤ endOf cuDeviceGetNameReq.nameLen := by decide
  simp only [handleCuDeviceGetName, Prog.bind_run, Prog.ite_run]
  split
  · simp only [top_reply, top_setErr, top_core, top_req]
    rw [Nat.max_assoc, Nat.max_eq_left hle]
  · simp

theorem words_top (f : Nat → Field) (n : Nat) :
    ((words f n).run e s).2.top = max s.top (membersEnd ((List.range n).map f)) := by
  unfold words
  induction List.range n generalizing s with
  | nil => simp [Prog.collect]
  | cons i is ih =>
    simp only [Prog.collect, Prog.bind_run, Prog.pure_run, ih, top_req, List.map_cons,
      membersEnd_cons, Nat.max_assoc]

theorem runtimeHandleCmd_top {c : RtCmd} (hc : c ∉ RtCmd.varied) :
    ((runtimeHandleCmd c).run e s).2.top = max s.top (membersEnd c.reads) := by
  cases c
  case memcpy | launchKernel | registerFatbin | registerFunction => exact absurd (by decide) hc
  all_goals
    simp only [runtimeHandleCmd, RtCmd.reads, dim3, List.range_succ, List.range_zero, List.map_cons,
      List.map_nil, List.nil_append, List.cons_append, Prog.bind_run, Prog.pure_run,
      key_run, top_req, top_core, top_setErr, top_reply, top_replyFilled, top_answer,
      top_answerWith, top_answerLib, handleGetErrorText_top, membersEnd_cons, membersEnd_nil,
      Nat.max_zero, Nat.max_assoc]

theorem driverHandleCmd_top {c : DrvCmd} (hc : c ∉ DrvCmd.varied) :
    ((driverHandleCmd c).run e s).2.top = max s.top (membersEnd c.reads) := by
  cases c
  case cuMemHostAlloc | cuMemcpy | cuMemSetAccess => exact absurd (by decide) hc
  all_goals
    simp only [driverHandleCmd, DrvCmd.reads, List.range_succ, List.range_zero, List.map_cons,
      List.map_nil, List.nil_append, List.cons_append, Prog.bind_run, key_run, top_req, top_core,
      top_setErr, top_reply, top_answer, top_answerWith, top_answerLib,
      handleCuGetErrorText_top, handleCuDeviceGetName_top, words_top, membersEnd_cons,
      membersEnd_nil, Nat.max_zero, Nat.max_assoc]

end

/-! The copy commands -/

theorem chunksFrom_eq_nil (cut : Nat → Nat → Nat) (limit off : Nat) (vs : List Iov) :
    chunksFrom cut limit off vs = [] ↔ vs = [] ∨ limit ≤ off := by
  cases vs with
  | nil => simp [chunksFrom]
  | cons v vs =>
    by_cases h : off < limit
    · simp [chunksFrom, h]
    · simp [chunksFrom, h, Nat.le_of_not_lt h]

@[simp] theorem endOf_dst : endOf memcpyReq.dst = 16 := by decide
@[simp] theorem endOf_src : endOf memcpyReq.src = 24 := by decide
@[simp] theorem endOf_count : endOf memcpyReq.count = 32 := by decide
@[simp] theorem endOf_kind : endOf memcpyReq.kind = 36 := by decide
@[simp] theorem endOf_stream : endOf memcpyReq.stream = 48 := by decide

def InAttempted (e : CmdEnv) (count : Nat) : Prop :=
  2 ≤ e.elem.outSg.length ∧ count ≤ sub64 e.totalOutLen (sizeof reqHeader + sizeof memcpyReq)

def OutAttempted (e : CmdEnv) (count : Nat) : Prop :=
  2 ≤ e.elem.inSg.length ∧ count ≤ sum64 (e.elem.inSg.dropLast.map (·.len))

def LegacyAttempted (e : CmdEnv) (gpa count : Nat) : Prop :=
  (e.env.gpaToVa gpa count).any fun x => count ≤ x.2

instance (e : CmdEnv) (n : Nat) : Decidable (InAttempted e n) :=
  inferInstanceAs (Decidable (_ ∧ _))

instance (e : CmdEnv) (n : Nat) : Decidable (OutAttempted e n) :=
  inferInstanceAs (Decidable (_ ∧ _))

instance (e : CmdEnv) (a n : Nat) : Decidable (LegacyAttempted e a n) :=
  inferInstanceAs (Decidable (_ = true))

/-- `handle_memcpy` goes on to read the whole request. -/
def MemcpyWhole (e : CmdEnv) (r : MemReq) : Prop :=
  (r.kind = 1 ∧ r.src = 0 ∧ InAttempted e r.count ∧ 0 < r.count) ∨
  (r.kind = 1 ∧ r.src ≠ 0 ∧ LegacyAttempted e r.src r.count) ∨
  (r.kind = 2 ∧ r.dst = 0 ∧ OutAttempted e r.count) ∨
  (r.kind = 2 ∧ r.dst ≠ 0 ∧ LegacyAttempted e r.dst r.count) ∨
  (r.kind ≠ 1 ∧ r.kind ≠ 2)

instance (e : CmdEnv) (r : MemReq) : Decidable (MemcpyWhole e r) :=
  inferInstanceAs (Decidable (_ ∨ _))

def CuMemcpyWhole (e : CmdEnv) (r : MemReq) : Prop :=
  0 < r.count ∧ ((r.kind = 1 ∧ InAttempted e r.count) ∨ (r.kind = 2 ∧ OutAttempted e r.count))

instance (e : CmdEnv) (r : MemReq) : Decidable (CuMemcpyWhole e r) :=
  inferInstanceAs (Decidable (_ ∧ _))

section
variable {e : CmdEnv} {s : CmdSt} {r : MemReq}

theorem transfer_top (dev : Field) (f : Nat → Nat → Chunk → QueryM Nat) (cs : List Chunk) :
    ((transfer dev f cs).run e s).2.top =
      if cs = [] then s.top else max (max s.top (endOf dev)) 48 := by
  unfold transfer
  by_cases h : cs = [] <;> simp [h]

theorem ne_nil_of_two_le {α : Type} {l : List α} (h : 2 ≤ l.length) :
    l.tail ≠ [] ∧ l.dropLast ≠ [] := by
  refine ⟨fun h0 => ?_, fun h0 => ?_⟩
  all_goals
    have hl := congrArg List.length h0
    simp at hl
    omega

theorem copyIn_top (hr : memReq s.payload = r) (hs : 36 ≤ s.top)
    (f : Nat → Nat → Chunk → QueryM Nat) : ((copyIn f).run e s).2.top =
      if InAttempted e r.count ∧ 0 < r.count then max s.top 48 else s.top := by
  have hcount := MemReq.count_eq hr
  unfold copyIn
  simp only [Prog.bind_run, Prog.ask_run, Prog.ite_run, req_fst, hcount]
  by_cases h1 : 2 ≤ e.elem.outSg.length
  · rw [if_pos h1]
    by_cases h2 : r.count ≤ sub64 e.totalOutLen (sizeof reqHeader + sizeof memcpyReq)
    · have hch : chunks r.count e.elem.outSg.tail = [] ↔ ¬0 < r.count := by
        rw [chunks, chunksFrom_eq_nil, or_iff_right (ne_nil_of_two_le h1).1, Nat.not_lt]
      rw [if_pos h2, transfer_top]
      by_cases h3 : 0 < r.count
      · rw [if_neg fun h => hch.mp h h3, if_pos ⟨⟨h1, h2⟩, h3⟩, top_req, endOf_count, endOf_dst]
        omega
      · rw [if_pos (hch.mpr h3), if_neg fun h => h3 h.2, top_req, endOf_count]
        omega
    · rw [if_neg h2, if_neg fun h => h2 h.1.2, top_setErr, top_req, endOf_count]
      omega
  · rw [if_neg h1, if_neg fun h => h1 h.1.1, top_setErr]

/-- `after` may read the stream; `P` says that it does when no chunk has. -/
theorem copyOut_top (hr : memReq s.payload = r) (hs : 36 ≤ s.top)
    (f : Nat → Nat → Chunk → QueryM Nat) {after : CmdM Unit} {P : Prop} [Decidable P]
    (ha : ∀ s', (after.run e s').2.top = s'.top ∨ (after.run e s').2.top = max s'.top 48)
    (h0 : ∀ s', s'.err = 0 → (after.run e s').2.top = if P then max s'.top 48 else s'.top) :
    ((copyOut f after).run e s).2.top =
      if OutAttempted e r.count ∧ (0 < r.count ∨ P) then max s.top 48 else s.top := by
  have hcount : memcpyReq.count.get (setD2h.run e s).2.payload = r.count := MemReq.count_eq hr
  have htop : (setD2h.run e s).2.top = s.top := rfl
  unfold copyOut
  simp only [Prog.bind_run, Prog.ask_run, Prog.ite_run, req_fst, hcount]
  by_cases h1 : 2 ≤ e.elem.inSg.length
  · rw [if_pos h1]
    by_cases h2 : r.count ≤ sum64 (e.elem.inSg.dropLast.map (·.len))
    · have hch : chunks r.count e.elem.inSg.dropLast = [] ↔ ¬0 < r.count := by
        rw [chunks, chunksFrom_eq_nil, or_iff_right (ne_nil_of_two_le h1).2, Nat.not_lt]
      have ht := transfer_top (e := e) (s := ((req memcpyReq.count).run e (setD2h.run e s).2).2)
        memcpyReq.src f (chunks r.count e.elem.inSg.dropLast)
      rw [top_req, endOf_count, endOf_src, htop] at ht
      rw [if_pos h2]
      by_cases h3 : 0 < r.count
      · rw [if_neg fun h => hch.mp h h3] at ht
        rw [if_pos ⟨⟨h1, h2⟩, .inl h3⟩]
        rcases ha ((transfer memcpyReq.src f (chunks r.count e.elem.inSg.dropLast)).run e
          ((req memcpyReq.count).run e (setD2h.run e s).2).2).2 with h | h <;> rw [h, ht] <;> omega
      · rw [if_pos (hch.mpr h3)] at ht
        rw [h0 _ (by simp [transfer, hch.mpr h3]), ht]
        by_cases hP : P
        · rw [if_pos hP, if_pos ⟨⟨h1, h2⟩, .inr hP⟩]
          omega
        · rw [if_neg hP, if_neg fun h => h.2.elim h3 hP]
          omega
    · rw [if_neg h2, if_neg fun h => h2 h.1.2, top_setErr, top_req, endOf_count, htop]
      omega
  · rw [if_neg h1, if_neg fun h => h1 h.1.1, top_setErr, htop]

theorem syncAfter_top : (syncAfter.run e s).2.top = if s.err = 0 then max s.top 48 else s.top := by
  unfold syncAfter
  simp only [Prog.bind_run, Prog.get_run, Prog.ite_run]
  split <;> simp

theorem copyLegacy_top (hr : memReq s.payload = r) (hs : 36 ≤ s.top) (gpa : Nat)
    {f : Nat → Space × Nat → CmdM Unit}
    (hf : ∀ s' hp, 36 ≤ s'.top → ((f r.count hp).run e s').2.top = max s'.top 48) :
    ((copyLegacy gpa f).run e s).2.top =
      if LegacyAttempted e gpa r.count then max s.top 48 else s.top := by
  have hcount := MemReq.count_eq hr
  have htop : ((req memcpyReq.count).run e s).2.top = s.top := by
    rw [top_req, endOf_count]
    omega
  unfold copyLegacy
  simp only [Prog.bind_run, Prog.ask_run, req_fst, hcount]
  rcases hx : e.env.gpaToVa gpa r.count with _ | ⟨hp, plen⟩
  · have hl : ¬LegacyAttempted e gpa r.count := by simp [LegacyAttempted, hx]
    rw [if_neg hl, top_setErr, htop]
  · have hl : LegacyAttempted e gpa r.count ↔ r.count ≤ plen := by simp [LegacyAttempted, hx]
    simp only [Prog.ite_run]
    by_cases h : plen < r.count
    · rw [if_pos h, if_neg (hl.not.mpr (Nat.not_le.mpr h)), top_setErr, htop]
    · rw [if_neg h, if_pos (hl.mpr (Nat.not_lt.mp h)), hf _ _ (htop ▸ hs), htop]

theorem handleMemcpy_top (hr : memReq s.payload = r) : (handleMemcpy.run e s).2.top =
    max s.top (if MemcpyWhole e r then 48 else 36) := by
  have hkind := MemReq.kind_eq hr
  unfold handleMemcpy
  simp only [Prog.bind_run, key_run, Prog.ite_run, req_fst, hkind]
  generalize hs₁ : ((req memcpyReq.kind).run e s).2 = s₁
  have ht₁ : s₁.top = max s.top 36 := by rw [← hs₁, top_req, endOf_kind]
  have hr₁ : memReq s₁.payload = r := by rw [← hs₁]; exact hr
  by_cases h1 : r.kind = 1
  · rw [if_pos h1, MemReq.src_eq hr₁]
    generalize hs₂ : ((req memcpyReq.src).run e s₁).2 = s₂
    have ht₂ : s₂.top = max s.top 36 := by rw [← hs₂, top_req, endOf_src]; omega
    have hr₂ : memReq s₂.payload = r := by rw [← hs₂]; exact hr₁
    by_cases h2 : r.src = 0
    -- the data came in descriptors, or by the legacy route behind the request
    · rw [if_pos h2, copyIn_top hr₂ (by omega), ht₂]
      have hw : MemcpyWhole e r ↔ InAttempted e r.count ∧ 0 < r.count := by
        simp [MemcpyWhole, h1, h2]
      simp only [hw]
      split <;> omega
    · rw [if_neg h2, copyLegacy_top hr₂ (by omega), ht₂]
      · have hw : MemcpyWhole e r ↔ LegacyAttempted e r.src r.count := by
          simp [MemcpyWhole, h1, h2]
        simp only [hw]
        split <;> omega
      · intro s' hp hs'
        simp only [Prog.bind_run, top_answer, top_req, endOf_dst, endOf_stream]
        omega
  by_cases h2 : r.kind = 2
  · rw [if_neg h1, if_pos h2, MemReq.dst_eq hr₁]
    generalize hs₂ : ((req memcpyReq.dst).run e s₁).2 = s₂
    have ht₂ : s₂.top = max s.top 36 := by rw [← hs₂, top_req, endOf_dst]; omega
    have hr₂ : memReq s₂.payload = r := by rw [← hs₂]; exact hr₁
    by_cases h3 : r.dst = 0
    -- the stream is read again for the synchronize, if a chunk has not failed before
    · rw [if_pos h3, copyOut_top (P := True) hr₂ (by omega), ht₂]
      · have hw : MemcpyWhole e r ↔ OutAttempted e r.count := by simp [MemcpyWhole, h2, h3]
        simp only [hw, or_true, and_true]
        split <;> omega
      · intro s'
        rw [syncAfter_top]
        split
        · exact .inr rfl
        · exact .inl rfl
      · intro s' h
        rw [syncAfter_top, if_pos h, if_pos trivial]
    · rw [if_neg h3, copyLegacy_top hr₂ (by omega), ht₂]
      · have hw : MemcpyWhole e r ↔ LegacyAttempted e r.dst r.count := by
          simp [MemcpyWhole, h2, h3]
        simp only [hw]
        split <;> omega
      · intro s' hp hs'
        simp only [Prog.bind_run, syncAfter_top, top_answer, top_req, endOf_src, endOf_stream]
        split <;> omega
  · -- any other kind reads all members
    have hw : MemcpyWhole e r := .inr (.inr (.inr (.inr ⟨h1, h2⟩)))
    rw [if_neg h1, if_neg h2, if_pos hw, top_answer, top_req, top_req, top_req, top_req, ht₁,
      endOf_dst, endOf_src, endOf_count, endOf_stream]
    omega

theorem handleCuMemcpy_top (hr : memReq s.payload = r) : (handleCuMemcpy.run e s).2.top =
    max s.top (if CuMemcpyWhole e r then 48 else 36) := by
  have hkind := MemReq.kind_eq hr
  unfold handleCuMemcpy
  simp only [Prog.bind_run, key_run, Prog.ite_run, req_fst, hkind]
  generalize hs₁ : ((req memcpyReq.kind).run e s).2 = s₁
  have ht₁ : s₁.top = max s.top 36 := by rw [← hs₁, top_req, endOf_kind]
  have hr₁ : memReq s₁.payload = r := by rw [← hs₁]; exact hr
  by_cases h1 : r.kind = 1
  · have hw : CuMemcpyWhole e r ↔ InAttempted e r.count ∧ 0 < r.count := by
      simp [CuMemcpyWhole, h1, and_comm]
    rw [if_pos h1, copyIn_top hr₁ (by omega), ht₁]
    simp only [hw]
    split <;> omega
  by_cases h2 : r.kind = 2
  · have hw : CuMemcpyWhole e r ↔ OutAttempted e r.count ∧ (0 < r.count ∨ False) := by
      simp [CuMemcpyWhole, h2, and_comm]
    rw [if_neg h1, if_pos h2, copyOut_top (P := False) hr₁ (by omega), ht₁]
    · simp only [hw]
      split <;> omega
    · exact fun s' => .inl rfl
    · exact fun s' _ => rfl
  · have hw : ¬CuMemcpyWhole e r := by simp [CuMemcpyWhole, h1, h2]
    rw [if_neg h1, if_neg h2, top_setErr, ht₁, if_neg hw]

end

/-! The commands with a tail behind the structure -/

def lastOf (ns : List Nat) : Nat := ns.foldr max 0

theorem lastOf_cons (n : Nat) (ns : List Nat) : lastOf (n :: ns) = max n (lastOf ns) := rfl

theorem lastOf_append (ms ns : List Nat) : lastOf (ms ++ ns) = max (lastOf ms) (lastOf ns) := by
  induction ms with
  | nil => simp [lastOf]
  | cons m ms ih => rw [List.cons_append, lastOf_cons, ih, lastOf_cons, Nat.max_assoc]

theorem lastOf_slots (start w n : Nat) :
    lastOf ((List.range n).map fun i => start + w * i + w) = if n = 0 then 0 else start + w * n := by
  induction n with
  | zero => rfl
  | succ n ih =>
    have hmul : w * (n + 1) = w * n + w := Nat.mul_succ w n
    rw [List.range_succ, List.map_append, lastOf_append, ih, if_neg (Nat.succ_ne_zero n), hmul]
    simp only [List.map_cons, List.map_nil, lastOf, List.foldr_cons, List.foldr_nil, Nat.max_zero]
    split <;> omega

section
variable {α ι : Type} {e : CmdEnv} {g : ι → Nat}

theorem forEach_top {f : ι → CmdM Unit} (h : ∀ i s, ((f i).run e s).2.top = max s.top (g i))
    (is : List ι) (s : CmdSt) :
    ((Prog.forEach f is).run e s).2.top = max s.top (lastOf (is.map g)) := by
  induction is generalizing s with
  | nil => simp [Prog.forEach, lastOf]
  | cons i is ih => rw [Prog.forEach, Prog.bind_run, ih, h, List.map_cons, lastOf_cons, Nat.max_assoc]

theorem collect_top {f : ι → CmdM α} (h : ∀ i s, ((f i).run e s).2.top = max s.top (g i))
    (is : List ι) (s : CmdSt) :
    ((Prog.collect f is).run e s).2.top = max s.top (lastOf (is.map g)) := by
  rw [Prog.collect_snd]
  exact forEach_top (f := fun i => do let _ ← f i) h is s

end

/-- How far the parameters CUDA reads go, behind an argument blob at `args`. -/
def paramsEnd (args n : Nat) (sizes : List Nat) : Nat :=
  lastOf ((sizes.take n).zipIdx.map fun p =>
    if p.1 = 0 then 0 else payloadOff + (args + 8 * p.2) + p.1)

section
variable {e : CmdEnv} {s : CmdSt}

theorem translateArg_top (c : Context) (args i : Nat) (s : CmdSt) :
    ((translateArg c args i).run e s).2.top = max s.top (payloadOff + args + 8 * i + 8) := by
  unfold translateArg
  simp only [Prog.bind_run, Prog.ite_run]
  split
  · simp only [top_poke, top_peek, Bytes.length_le, OfNat.ofNat_ne_zero, if_false]
    omega
  · simp only [Prog.pure_run, top_peek, OfNat.ofNat_ne_zero, if_false]
    omega

theorem readParams_top (args n : Nat) (sizes : List Nat) (s : CmdSt) :
    ((readParams args n sizes).run e s).2.top = max s.top (paramsEnd args n sizes) :=
  collect_top (fun p s => top_peek e s (args + 8 * p.2) p.1) _ s

def launchArgs (e : CmdEnv) (s : CmdSt) (func argsSize : Nat) : Nat :=
  match s.be.tab.ctxGet e.key with
  | none => 0
  | some c =>
    let n := argsSize / 8
    if c.resGet .function func = 0 ∨ n = 0 then 0
    else max (payloadOff + sizeof launchKernelReq + 8 * n)
      (paramsEnd (sizeof launchKernelReq) n (e.env.paramSizes (c.resGet .function func)))

theorem launchArgs_req (f : Field) (s : CmdSt) :
    launchArgs e ((req f).run e s).2 = launchArgs e s := rfl

theorem coreLaunchKernel_top (s : CmdSt) (func : Nat) (grid block : List Nat)
    (sharedMem stream argsSize : Nat) :
    ((coreLaunchKernel e.key func grid block sharedMem stream (sizeof launchKernelReq)
      argsSize).run e s).2.top = max s.top (launchArgs e s func argsSize) := by
  unfold coreLaunchKernel launchArgs
  simp only [Prog.bind_run, Prog.get_run]
  rcases hc : s.be.tab.ctxGet e.key with _ | c
  · simp
  simp only [Prog.ite_run]
  by_cases h0 : c.resGet .function func = 0
  · simp [h0]
  -- the result of the launch decides nothing about the request
  have tail (t : CmdSt) (params : List (List UInt8)) (config : List Nat) : ((do
      let res ← core (query (lib .cuLaunchKernel config params))
      if res.code ≠ 0 then
        let _ ← core (query (lib .cuGetErrorString [res.code] []))
        return 719
      return 0 : CmdM Nat).run e t).2.top = t.top := by
    simp only [Prog.bind_run, Prog.ite_run]
    split <;> simp
  rw [if_neg h0]
  by_cases ha : argsSize > 0
  · simp only [if_pos ha]
    rw [Prog.bind_run, Prog.bind_run, Prog.ask_run, Prog.bind_run, tail]
    rw [readParams_top, forEach_top fun i s => translateArg_top c (sizeof launchKernelReq) i s,
      lastOf_slots]
    by_cases hn : argsSize / 8 = 0
    · simp [hn, paramsEnd, lastOf]
    · rw [if_neg hn, if_neg (by simp [h0, hn]), Nat.max_assoc]
  · simp only [if_neg ha]
    rw [Prog.bind_run, tail, Prog.pure_run, if_pos (.inr (by omega)), Nat.max_zero]

theorem handleLaunchKernel_top (s : CmdSt) : (handleLaunchKernel.run e s).2.top =
    max s.top (max (membersEnd RtCmd.launchKernel.reads)
      (launchArgs e s (launchKernelReq.func.get s.payload) (launchKernelReq.argsSize.get s.payload))) := by
  have hmem : membersEnd RtCmd.launchKernel.reads = payloadOff + 52 := by decide
  unfold handleLaunchKernel
  simp only [dim3, Prog.bind_run, Prog.pure_run, key_run, top_setErr, coreLaunchKernel_top, req_fst,
    req_payload, launchArgs_req, top_req]
  generalize launchArgs e s (launchKernelReq.func.get s.payload)
    (launchKernelReq.argsSize.get s.payload) = n
  have h : endOf launchKernelReq.func = 16 ∧ endOf (launchKernelReq.gridDim 0) = 20 ∧
      endOf (launchKernelReq.gridDim 1) = 24 ∧ endOf (launchKernelReq.gridDim 2) = 28 ∧
      endOf (launchKernelReq.blockDim 0) = 32 ∧ endOf (launchKernelReq.blockDim 1) = 36 ∧
      endOf (launchKernelReq.blockDim 2) = 40 ∧ endOf launchKernelReq.sharedMem = 44 ∧
      endOf launchKernelReq.stream = 56 ∧ endOf launchKernelReq.argsSize = 60 := by decide
  obtain ⟨h1, h2, h3, h4, h5, h6, h7, h8, h9, h10⟩ := h
  rw [hmem, h1, h2, h3, h4, h5, h6, h7, h8, h9, h10, payloadOff]
  omega

/-- How far `cuModuleLoadData` reads behind a fatbin request. -/
def fatbinEnd (e : CmdEnv) (s : CmdSt) : Nat :=
  if (s.be.tab.ctxGet e.key).isSome then
    payloadOff + sizeof registerFatbinReq +
      e.env.imageLen fun i => s.buf (payloadOff + sizeof registerFatbinReq + i)
  else 0

theorem handleRegisterFatbin_top (s : CmdSt) : (handleRegisterFatbin.run e s).2.top =
    max s.top (max (membersEnd RtCmd.registerFatbin.reads) (fatbinEnd e s)) := by
  have hmem : membersEnd RtCmd.registerFatbin.reads = 16 := by decide
  have hend : endOf registerFatbinReq.size = 16 := by decide
  have hoff : payloadOff + sizeof registerFatbinReq = 16 := by decide
  unfold handleRegisterFatbin fatbinEnd
  simp only [Prog.bind_run, key_run, Prog.get_run, Prog.ite_run, Prog.ask_run, req_be, req_buf]
  by_cases hc : (s.be.tab.ctxGet e.key).isSome
  · rw [if_pos hc, if_pos hc, top_answerWith, top_peek, top_req, hend, hoff, hmem]
    split <;> omega
  · rw [if_neg hc, if_neg hc, top_answerWith, top_req, hend, hmem]
    omega

def nameEnd (e : CmdEnv) (s : CmdSt) (fatbin : Nat) : Nat :=
  match s.be.tab.ctxGet e.key with
  | none => 0
  | some c =>
    if c.resGet .module fatbin = 0 then 0
    else strEnd e.env.heap s.buf e.elem.reqLen (payloadOff + sizeof registerFunctionReq)

theorem strEnd_gt (h : Heap) (buf : Nat → UInt8) (len start : Nat) :
    start < strEnd h buf len start := by
  unfold strEnd
  split
  · omega
  · have := (Nat.find_spec (h.nul (max start len))).1
    omega

theorem handleRegisterFunction_top (s : CmdSt) : (handleRegisterFunction.run e s).2.top =
    max s.top (max (membersEnd RtCmd.registerFunction.reads)
      (nameEnd e s (registerFunctionReq.fatbinHandle.get s.payload))) := by
  have hmem : membersEnd RtCmd.registerFunction.reads = 24 := by decide
  have h1 : endOf registerFunctionReq.fatbinHandle = 16 := by decide
  have h2 : endOf registerFunctionReq.hostFun = 24 := by decide
  unfold handleRegisterFunction nameEnd
  simp only [Prog.bind_run, key_run, Prog.get_run, req_be, req_fst]
  rcases hc : s.be.tab.ctxGet e.key with _ | c
  · simp only [Prog.bind_run, top_reply, top_setErr, top_req, h1, h2, hmem]
    omega
  simp only [Prog.ite_run]
  by_cases h0 : c.resGet .module (registerFunctionReq.fatbinHandle.get s.payload) = 0
  · simp only [if_pos h0, Prog.bind_run, top_reply, top_setErr, top_req, h1, h2, hmem]
    omega
  · have hgt := strEnd_gt e.env.heap s.buf e.elem.reqLen (payloadOff + sizeof registerFunctionReq)
    simp only [if_neg h0, peekStr, Prog.bind_run, Prog.ask_run, Prog.get_run, top_reply, top_setErr,
      top_core, top_peek, top_req, req_buf, h1, h2, hmem]
    split <;> omega

def descsEnd (e : CmdEnv) (s : CmdSt) (count : Nat) : Nat :=
  if (e.env.ret s.be.dev.clock ⟨.calloc, [count * sizeof cuMemAccessDesc], []⟩).code = 0 ∧ count ≠ 0
  then payloadOff + sizeof cuMemSetAccessReq + sizeof cuMemAccessDesc * count else 0

theorem readDesc_top (i : Nat) (s : CmdSt) : ((readDesc i).run e s).2.top =
    max s.top (payloadOff + sizeof cuMemSetAccessReq + sizeof cuMemAccessDesc * i +
      sizeof cuMemAccessDesc) := by
  have hs : sizeof cuMemAccessDesc = 12 ∧ cuMemAccessDesc.locationType = ⟨0, 4⟩ ∧
      cuMemAccessDesc.locationId = ⟨4, 4⟩ ∧ cuMemAccessDesc.flags = ⟨8, 4⟩ := by decide
  obtain ⟨h0, h1, h2, h3⟩ := hs
  unfold readDesc
  simp only [Prog.bind_run, Prog.pure_run, top_req, h0, h1, h2, h3, endOf, Field.stop,
    OfNat.ofNat_ne_zero, if_false]
  omega

theorem handleCuMemSetAccess_top (s : CmdSt) : (handleCuMemSetAccess.run e s).2.top =
    max s.top (max (membersEnd DrvCmd.cuMemSetAccess.reads)
      (descsEnd e s (cuMemSetAccessReq.count.get s.payload))) := by
  have hmem : membersEnd DrvCmd.cuMemSetAccess.reads = 28 := by decide
  have hends : endOf cuMemSetAccessReq.ptr = 16 ∧ endOf cuMemSetAccessReq.size = 24 ∧
      endOf cuMemSetAccessReq.count = 28 := by decide
  obtain ⟨h1, h2, h3⟩ := hends
  generalize hn : cuMemSetAccessReq.count.get s.payload = n
  have halloc : ((core (query (alloc .calloc (n * sizeof cuMemAccessDesc)))).run e
      ((req cuMemSetAccessReq.count).run e s).2).1 = true ↔ (e.env.ret s.be.dev.clock
        ⟨.calloc, [n * sizeof cuMemAccessDesc], []⟩).code = 0 := by
    simp [alloc, lib_run]
  unfold handleCuMemSetAccess descsEnd
  simp only [Prog.bind_run, req_fst, hn, Prog.ite_run, halloc]
  by_cases h0 : (e.env.ret s.be.dev.clock ⟨.calloc, [n * sizeof cuMemAccessDesc], []⟩).code = 0
  · simp only [h0, if_true, true_and, top_answer, top_req, key_run, h1, h2, hmem]
    rw [collect_top readDesc_top, top_core, top_req, h3, lastOf_slots]
    by_cases hz : n = 0
    · simp only [hz, if_true, ne_eq, not_true_eq_false, if_false]
      omega
    · simp only [hz, if_false, ne_eq, not_false_eq_true, if_true]
      omega
  · simp only [h0, if_false, false_and, top_setErr, top_core, top_req, h3, hmem]
    omega

def AllocAttempted (e : CmdEnv) : Prop := 2 ≤ e.elem.outSg.length ∧
  0 < sub64 e.totalOutLen (sizeof reqHeader + sizeof cuMemHostAllocReq)

instance (e : CmdEnv) : Decidable (AllocAttempted e) := inferInstanceAs (Decidable (_ ∧ _))

theorem handleCuMemHostAlloc_top (s : CmdSt) : (handleCuMemHostAlloc.run e s).2.top =
    max s.top (if AllocAttempted e then endOf cuMemHostAllocReq.byteOffset else 0) := by
  have hends : endOf cuMemHostAllocReq.bytesize = 16 ∧ endOf cuMemHostAllocReq.flags = 20 ∧
      endOf cuMemHostAllocReq.guestVa = 32 ∧ endOf cuMemHostAllocReq.byteOffset = 40 := by decide
  obtain ⟨h1, h2, h3, h4⟩ := hends
  unfold handleCuMemHostAlloc
  simp only [Prog.bind_run, key_run, Prog.ask_run, Prog.ite_run]
  by_cases hl : 2 ≤ e.elem.outSg.length
  · rw [if_pos hl]
    have hch : hostAllocChunks e = [] ↔ ¬AllocAttempted e := by
      rw [hostAllocChunks, chunksFrom_eq_nil, or_iff_right (ne_nil_of_two_le hl).1, AllocAttempted,
        not_and, Nat.not_lt]
      exact ⟨fun h _ => h, fun h => h hl⟩
    unfold hostAllocChunks at hch
    by_cases ha : AllocAttempted e
    · rw [if_pos fun h => hch.mp h ha, if_pos ha]
      simp only [top_setErr, top_core, top_req, h1, h2, h3, h4]
      omega
    · rw [if_neg fun h => h (hch.mpr ha), if_neg ha]
      simp
  · rw [if_neg hl, if_neg fun h => hl h.1]
    simp

/-- How many bytes of the request its handler needs, from the start of the header. -/
def Cmd.needs (c : Cmd) (e : CmdEnv) (s : CmdSt) : Nat :=
  match c with
  | .rt .memcpy => endOf (if MemcpyWhole e (memReq s.payload) then memcpyReq.stream
      else memcpyReq.kind)
  | .rt .launchKernel => max (membersEnd RtCmd.launchKernel.reads) (launchArgs e s
      (launchKernelReq.func.get s.payload) (launchKernelReq.argsSize.get s.payload))
  | .rt .registerFatbin => max (membersEnd RtCmd.registerFatbin.reads) (fatbinEnd e s)
  | .rt .registerFunction => max (membersEnd RtCmd.registerFunction.reads)
      (nameEnd e s (registerFunctionReq.fatbinHandle.get s.payload))
  | .rt c => membersEnd c.reads
  | .drv .cuMemcpy => endOf (if CuMemcpyWhole e (memReq s.payload) then memcpyReq.stream
      else memcpyReq.kind)
  | .drv .cuMemHostAlloc => if AllocAttempted e then endOf cuMemHostAllocReq.byteOffset else 0
  | .drv .cuMemSetAccess => max (membersEnd DrvCmd.cuMemSetAccess.reads)
      (descsEnd e s (cuMemSetAccessReq.count.get s.payload))
  | .drv c => membersEnd c.reads

theorem runtimeHandleCmd_needs (c : RtCmd) (s : CmdSt) :
    ((runtimeHandleCmd c).run e s).2.top = max s.top ((Cmd.rt c).needs e s) := by
  by_cases hc : c ∈ RtCmd.varied
  · simp only [RtCmd.varied, List.mem_cons, List.not_mem_nil, or_false] at hc
    rcases hc with rfl | rfl | rfl | rfl
    · rw [runtimeHandleCmd, handleMemcpy_top rfl, Cmd.needs]
      split <;> rfl
    · exact handleLaunchKernel_top s
    · exact handleRegisterFatbin_top s
    · exact handleRegisterFunction_top s
  · rw [runtimeHandleCmd_top e s hc]
    cases c <;> simp [RtCmd.varied] at hc <;> rfl

theorem driverHandleCmd_needs (c : DrvCmd) (s : CmdSt) :
    ((driverHandleCmd c).run e s).2.top = max s.top ((Cmd.drv c).needs e s) := by
  by_cases hc : c ∈ DrvCmd.varied
  · simp only [DrvCmd.varied, List.mem_cons, List.not_mem_nil, or_false] at hc
    rcases hc with rfl | rfl | rfl
    · exact handleCuMemHostAlloc_top s
    · rw [driverHandleCmd, handleCuMemcpy_top rfl, Cmd.needs]
      split <;> rfl
    · exact handleCuMemSetAccess_top s
  · rw [driverHandleCmd_top e s hc]
    cases c <;> simp [DrvCmd.varied] at hc <;> rfl

/-- A handler reads or writes the request up to exactly what its command needs. -/
theorem dispatchCmd_top (c : Cmd) (s : CmdSt) :
    ((dispatchCmd c.code).run e s).2.top = max s.top (c.needs e s) := by
  unfold dispatchCmd
  rw [Cmd.ofCode_code]
  cases c with
  | rt c => exact runtimeHandleCmd_needs c s
  | drv c => exact driverHandleCmd_needs c s

end
end HmCuda