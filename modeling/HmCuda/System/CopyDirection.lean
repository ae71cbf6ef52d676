import HmCuda.Guest.Process

/-! How `cuMemcpyAsync` tells device addresses from host addresses: by the handles that
this library handed out, and by nothing else. -/

namespace HmCuda
open Layout

section Frame
variable (e : GuestEnv) (s : GuestSt) (cmd : Cmd) (req : List UInt8) (respLen : Nat)

@[simp] theorem dispatch_hostMem :
    ((dispatch cmd req respLen).run e s).2.hostMem = s.hostMem := by rfl
@[simp] theorem dispatch_deviceHandles :
    ((dispatch cmd req respLen).run e s).2.deviceHandles = s.deviceHandles := by rfl
@[simp] theorem dispatch_sent :
    ((dispatch cmd req respLen).run e s).2.sent = s.sent ++ [⟨cmd, req⟩] := by rfl

theorem drvDispatch_run : ∃ t : Transport, (drvDispatch cmd req respLen).run e s =
    (dispatch cmd req respLen).run e { s with transport := t } := by
  unfold drvDispatch
  simp only [Prog.bind_run, Prog.get_run, Prog.ite_run]
  split
  · exact ⟨_, rfl⟩
  · exact ⟨s.transport, rfl⟩

@[simp] theorem drvDispatch_hostMem :
    ((drvDispatch cmd req respLen).run e s).2.hostMem = s.hostMem := by
  obtain ⟨t, h⟩ := drvDispatch_run e s cmd req respLen
  rw [h, dispatch_hostMem]

@[simp] theorem drvDispatch_deviceHandles :
    ((drvDispatch cmd req respLen).run e s).2.deviceHandles = s.deviceHandles := by
  obtain ⟨t, h⟩ := drvDispatch_run e s cmd req respLen
  rw [h, dispatch_deviceHandles]

@[simp] theorem drvDispatch_sent :
    ((drvDispatch cmd req respLen).run e s).2.sent = s.sent ++ [⟨cmd, req⟩] := by
  obtain ⟨t, h⟩ := drvDispatch_run e s cmd req respLen
  rw [h, dispatch_sent]

end Frame

/-! The handles after a call -/

/-- The handles are `d`. -/
def GuestSt.Handles (d : Nat → Bool) (s : GuestSt) : Prop := s.deviceHandles = d

/-- What the requests of the commands in `Q` and the dirty flags leave as it is. -/
structure Framed (Q : Cmd → Prop) (P : GuestSt → Prop) : Prop where
  dispatch (cmd : Cmd) (hq : Q cmd) (req : List UInt8) (n : Nat) : Prog.Keeps P (dispatch cmd req n)
  transport (s : GuestSt) (t : Transport) : P s → P { s with transport := t }
  dirty (b : Bool) (va : Nat) : Prog.Keeps P (setGpuDirty b va)

section Keeps
open Prog
variable {Q : Cmd → Prop} {P : GuestSt → Prop}

theorem framed_handles (d : Nat → Bool) : Framed (fun _ => True) (GuestSt.Handles d) :=
  ⟨fun _ _ _ _ _ _ h => h, fun _ _ h => h, fun _ _ _ _ h => h⟩

theorem Framed.drvDispatch (h : Framed Q P) {cmd : Cmd} (hq : Q cmd) (req : List UInt8) (n : Nat) :
    Keeps P (drvDispatch cmd req n) := by
  intro e s hs
  obtain ⟨t, hrun⟩ := drvDispatch_run e s cmd req n
  rw [hrun]
  exact h.dispatch cmd hq req n e _ (h.transport s t hs)

theorem Framed.sendCuMemcpy (h : Framed Q P) (hq : Q (.drv .cuMemcpy))
    (dst src n kind stream : Nat) : Keeps P (sendCuMemcpy dst src n kind stream) :=
  keeps_bind (h.drvDispatch hq _ _) fun _ => keeps_pure _

theorem Framed.syncDirty (h : Framed Q P) (hq : Q (.drv .cuMemcpy)) (p n stream : Nat) :
    Keeps P (syncDirtyHostSrcToGuest p n stream) := by
  refine keeps_bind (h.sendCuMemcpy hq _ _ _ _ _) fun r => ?_
  split
  · exact keeps_bind (h.dirty _ _) fun _ => keeps_pure _
  · exact keeps_pure _

theorem Framed.pullDirty (h : Framed Q P) (hq : Q (.drv .cuMemcpy)) (p n stream : Nat) :
    Keeps P (pullDirty p n stream) := by
  refine keeps_bind keeps_get fun s => keeps_ite (fun _ => ?_) fun _ => keeps_pure _
  exact keeps_bind (h.syncDirty hq _ _ _) fun _ => keeps_pure _

theorem Framed.pulledCopy (h : Framed Q P) (hq : Q (.drv .cuMemcpy))
    (p n stream dst kind : Nat) : Keeps P (do
    match ← HmCuda.pullDirty p n stream with
    | some r => return r
    | none => HmCuda.sendCuMemcpy dst p n kind stream) := by
  refine keeps_bind (h.pullDirty hq _ _ _) fun r => ?_
  cases r with
  | some r => exact keeps_pure _
  | none => exact h.sendCuMemcpy hq _ _ _ _ _

theorem Framed.copyBack (h : Framed Q P) (hq : Q (.drv .cuMemcpy)) (p src n stream : Nat) :
    Keeps P (do
    let r ← HmCuda.sendCuMemcpy p src n 2 stream
    if r.isSome then
      clearGpuDirty p
    return r) := by
  refine keeps_bind (h.sendCuMemcpy hq _ _ _ _ _) fun r => ?_
  split
  · exact keeps_bind (h.dirty _ _) fun _ => keeps_pure _
  · exact keeps_pure _

theorem keeps_syncArgs (hd : ∀ req n, Keeps P (dispatch (.drv .cuMemcpy) req n))
    (ptrs : List Nat) : Keeps P (syncArgs ptrs) := by
  induction ptrs with
  | nil => exact keeps_pure _
  | cons p ptrs ih =>
    refine keeps_bind (keeps_bind keeps_get fun s => ?_) fun r => ?_
    · split
      · exact keeps_pure _
      · refine keeps_ite (fun _ => keeps_pure _) fun _ => ?_
        exact keeps_bind keeps_ask fun _ => keeps_bind (hd _ _) fun _ => keeps_pure _
    · cases r with
      | none => exact keeps_pure _
      | some u => exact ih

theorem Framed.cudaLaunchKernel (h : Framed Q P) (hq : Q (.drv .cuMemcpy))
    (hl : Q (.rt .launchKernel)) (func : Nat) (grid block : Nat × Nat × Nat)
    (args : Option (Nat → Nat → UInt8)) (sharedMem stream : Nat) :
    Keeps P (cudaLaunchKernel func grid block args sharedMem stream) := by
  refine keeps_bind keeps_get fun s => ?_
  split
  · exact keeps_pure _
  · refine keeps_bind (keeps_syncArgs (h.dispatch _ hq) _) fun r => ?_
    cases r with
    | none => exact keeps_pure _
    | some u =>
      refine keeps_bind (h.dispatch _ hl _ _) fun r => ?_
      split
      · exact keeps_bind (keeps_forEach (fun _ => h.dirty _ _) _) fun _ => keeps_pure _
      · exact keeps_pure _

theorem keeps_cudaRegisterFunction (d : Nat → Bool) (fatbinHandle hostFun : Nat)
    (deviceFun : List UInt8) (paramCount : Nat) : Keeps (GuestSt.Handles d)
      (cudaRegisterFunction fatbinHandle hostFun deviceFun paramCount) := by
  refine keeps_bind keeps_ask fun e => keeps_bind keeps_get fun s =>
    keeps_bind ((framed_handles d).dispatch _ trivial _ _) fun r => ?_
  split
  · exact keeps_bind (fun _ _ h => h) fun _ => keeps_pure _
  · exact keeps_pure _

end Keeps

/-- `g_device_handles` after a call that returned `r`. -/
def GuestCall.handlesAfter (c : GuestCall) (r : Returned) (d : Nat → Bool) (a : Nat) : Bool :=
  match c with
  | .cuMemAlloc .. | .cuMemAddressReserve .. => r.out = some a || d a
  | .cuMemFree b | .cuMemAddressFree b _ => a ≠ b && d a
  | _ => d a

theorem alloc_handles {e : GuestEnv} {s : GuestSt} (cmd : Cmd) (req : List UInt8) (resp : CStruct)
    (out : Bool) :
    let r := (do
      let r ← drvDispatch cmd req (sizeof resp)
      if r.ret = some 0 ∧ out then
        let h := respWord resp r
        Prog.modify fun s => { s with deviceHandles := Function.update s.deviceHandles h true }
        return ⟨some 0, some h⟩
      else
        return ⟨r.ret, none⟩ : GuestM Returned).run e s
    ∀ a, r.2.deviceHandles a = (decide (r.1.out = some a) || s.deviceHandles a) := by
  intro r a
  have hd := congrFun (drvDispatch_deviceHandles e s cmd req (sizeof resp)) a
  simp only [r, Prog.bind_run, Prog.ite_run]
  split
  · simp only [Prog.modify_run, Prog.pure_run, Option.some.injEq]
    rw [← hd]
    by_cases h : a = respWord resp ((drvDispatch cmd req (sizeof resp)).run e s).1
    · simp [h]
    · rw [Function.update_of_ne h, decide_eq_false (Ne.symm h), Bool.false_or]
  · simp [hd]

theorem free_handles {e : GuestEnv} {s : GuestSt} (cmd : Cmd) (req : List UInt8) (b : Nat) :
    let r := (do
      Prog.modify fun s => { s with deviceHandles := Function.update s.deviceHandles b false }
      return ⟨(← drvDispatch cmd req 0).ret, none⟩ : GuestM Returned).run e s
    ∀ a, r.2.deviceHandles a = (decide (a ≠ b) && s.deviceHandles a) := by
  intro r a
  simp only [r, Prog.bind_run, Prog.modify_run, Prog.pure_run, drvDispatch_deviceHandles]
  by_cases h : a = b
  · simp [h]
  · rw [Function.update_of_ne h, decide_eq_true h, Bool.true_and]

theorem call_handles (c : GuestCall) (e : GuestEnv) (s : GuestSt) (a : Nat) :
    (c.run.run e s).2.deviceHandles a =
      c.handlesAfter (c.run.run e s).1 s.deviceHandles a := by
  have same (m : GuestM Returned) (hm : Prog.Keeps (GuestSt.Handles s.deviceHandles) m) :
      (m.run e s).2.deviceHandles a = s.deviceHandles a := by
    have hk : (m.run e s).2.deviceHandles = s.deviceHandles := hm e s rfl
    rw [hk]
  have frame := framed_handles s.deviceHandles
  -- the four calls that hand out and take back addresses change the set, and no other call
  cases c with
  | cuMemAlloc dptr n => exact alloc_handles (.drv .cuMemAlloc) _ _ dptr a
  | cuMemAddressReserve ptr n al ad fl => exact alloc_handles (.drv .cuMemAddressReserve) _ _ ptr a
  | cuMemFree b => exact free_handles (.drv .cuMemFree) _ b a
  | cuMemAddressFree b n => exact free_handles (.drv .cuMemAddressFree) _ b a
  | cuMemHostAlloc malloc n fl =>
    refine same _ ?_
    cases malloc with
    | none => exact Prog.keeps_pure _
    | some va =>
      refine Prog.keeps_bind (frame.drvDispatch trivial _ _) fun r => ?_
      split
      · exact Prog.keeps_bind (fun _ _ h => h) fun _ => Prog.keeps_pure _
      · exact Prog.keeps_pure _
  | cuMemFreeHost p =>
    refine same _ (Prog.keeps_bind Prog.keeps_get fun t => Prog.keeps_ite
      (fun _ => Prog.keeps_pure _) fun _ => ?_)
    exact Prog.keeps_bind (fun _ _ h => h) fun _ =>
      Prog.keeps_bind (frame.drvDispatch trivial _ _) fun _ => Prog.keeps_pure _
  | cuMemcpyAsync dst src n stream =>
    refine same _ (Prog.keeps_map (Prog.keeps_bind Prog.keeps_get fun t => ?_))
    refine Prog.keeps_ite (fun _ => frame.pulledCopy trivial _ _ _ _ _) fun _ => ?_
    refine Prog.keeps_ite (fun _ => frame.copyBack trivial _ _ _ _) fun _ => ?_
    exact Prog.keeps_bind (frame.drvDispatch trivial _ _) fun _ => Prog.keeps_pure _
  | cuMemcpyHtoD dst src n => exact same _ (Prog.keeps_map (frame.pulledCopy trivial _ _ _ _ _))
  | cuMemcpyDtoH dst src n => exact same _ (Prog.keeps_map (frame.copyBack trivial _ _ _ _))
  | cudaMalloc devPtr n => exact same _ (Prog.keeps_bind (frame.dispatch _ trivial _ _) fun _ =>
      Prog.keeps_pure _)
  | cudaFree devPtr => exact same _ (Prog.keeps_bind (frame.dispatch _ trivial _ _) fun _ =>
      Prog.keeps_pure _)
  | cudaMemcpy dst src n kind => exact same _ (Prog.keeps_map (Prog.keeps_bind
      (frame.dispatch _ trivial _ _) fun _ => Prog.keeps_pure _))
  | cudaLaunchKernel func grid block args sharedMem stream =>
    exact same _ (Prog.keeps_map (frame.cudaLaunchKernel trivial trivial _ _ _ _ _ _))
  | cudaRegisterFunction fatbin hostFun name k =>
    exact same _ (Prog.keeps_map (keeps_cudaRegisterFunction _ _ _ _ _))
  | forward drv cmd req n =>
    cases drv with
    | true => exact same _ (Prog.keeps_bind (frame.drvDispatch trivial _ _) fun _ =>
        Prog.keeps_pure _)
    | false => exact same _ (Prog.keeps_bind (frame.dispatch _ trivial _ _) fun _ =>
        Prog.keeps_pure _)

/-! The requests of a copy -/

def Sending.pinned (q : Sending) : Option Nat :=
  if isMemcpy q.cmd.code then
    some (parseMemcpyArgs q.cmd.code fun a => q.req.getD a 0).userAddrStart
  else none

theorem pinned_cuMemcpy {dst src n kind stream : Nat} (hk : kind < 2 ^ 32) :
    Sending.pinned ⟨.drv .cuMemcpy, memcpyRequest dst src n kind stream⟩ =
      some (if kind = 1 then src % 2 ^ 64 else dst % 2 ^ 64) := by
  have get (i v : Nat) (hv : [dst, src, n, kind, 0, stream][i]? = some v) :
      (field memcpyReq i).get (fun a => (memcpyRequest dst src n kind stream).getD a 0) =
        v % 256 ^ (field memcpyReq i).size := get_respImage memcpyReq _ _ (Nat.le_of_eq rfl) hv
  have hdst : memcpyReq.dst.get (fun a => (memcpyRequest dst src n kind stream).getD a 0) =
      dst % 2 ^ 64 := get 0 dst rfl
  have hsrc : memcpyReq.src.get (fun a => (memcpyRequest dst src n kind stream).getD a 0) =
      src % 2 ^ 64 := get 1 src rfl
  have hkind : memcpyReq.kind.get (fun a => (memcpyRequest dst src n kind stream).getD a 0) =
      kind := (get 3 kind rfl).trans (Nat.mod_eq_of_lt hk)
  have hm : isMemcpy (Cmd.drv .cuMemcpy).code := by decide
  have hc : (Cmd.drv .cuMemcpy).code ≠ DrvCmd.cuMemHostAlloc.code := by decide
  rw [Sending.pinned, if_pos hm, parseMemcpyArgs, if_neg hc, hkind, hdst, hsrc]
  split <;> rfl

def hostCopy (dst src n kind stream : Nat) : Sending :=
  ⟨.drv .cuMemcpy, memcpyRequest dst src n kind stream⟩

def deviceCopy (dst src n stream : Nat) : Sending :=
  ⟨.drv .cuMemcpyAsync, request cuMemcpyAsyncReq [dst, src, n, stream]⟩

section
variable (e : GuestEnv) (s : GuestSt) (dst src n stream : Nat)

theorem sendCuMemcpy_sent (kind : Nat) : ((sendCuMemcpy dst src n kind stream).run e s).2.sent =
    s.sent ++ [hostCopy dst src n kind stream] := drvDispatch_sent e s _ _ _

theorem syncDirty_sent : ((syncDirtyHostSrcToGuest src n stream).run e s).2.sent =
    s.sent ++ [hostCopy src src n 2 stream] := by
  rw [← sendCuMemcpy_sent e s src src n stream 2]
  unfold syncDirtyHostSrcToGuest
  simp only [Prog.bind_run]
  split <;> rfl

theorem pullDirty_sent : ((pullDirty src n stream).run e s).2.sent = s.sent ++
    if s.isGpuDirty src then [hostCopy src src n 2 stream] else [] := by
  unfold pullDirty
  simp only [Prog.bind_run, Prog.get_run, Prog.ite_run]
  split
  · exact syncDirty_sent e s src n stream
  · exact (List.append_nil _).symm

/-- The requests of a copy where `live` are the device addresses: a dirty source is brought up
to date first, and the copy follows unless that failed. -/
def Directed (live : Nat → Bool) (reqs : List Sending) : Prop :=
  if ¬live src ∧ live dst then
    reqs = (if s.isGpuDirty src then [hostCopy src src n 2 stream] else []) ++
      (if ((pullDirty src n stream).run e s).1 = none then [hostCopy dst src n 1 stream] else [])
  else if live src ∧ ¬live dst then reqs = [hostCopy dst src n 2 stream]
  else reqs = [deviceCopy dst src n stream]

theorem cuMemcpyAsync_sent : ∃ reqs,
    ((cuMemcpyAsync dst src n stream).run e s).2.sent = s.sent ++ reqs ∧
      Directed e s dst src n stream s.deviceHandles reqs := by
  unfold cuMemcpyAsync Directed
  simp only [Prog.bind_run, Prog.get_run, Prog.ite_run]
  by_cases h1 : ¬s.deviceHandles src ∧ s.deviceHandles dst
  · simp only [if_pos h1]
    refine ⟨_, ?_, rfl⟩
    rw [← List.append_assoc, ← pullDirty_sent]
    rcases hp : ((pullDirty src n stream).run e s).1 with _ | r
    · exact sendCuMemcpy_sent e _ dst src n stream 1
    · exact (List.append_nil _).symm
  · simp only [if_neg h1]
    by_cases h2 : s.deviceHandles src ∧ ¬s.deviceHandles dst
    · simp only [if_pos h2]
      refine ⟨_, ?_, rfl⟩
      rw [← sendCuMemcpy_sent e s dst src n stream 2]
      split <;> rfl
    · simp only [if_neg h2]
      exact ⟨_, drvDispatch_sent e s _ _ _, rfl⟩

end

theorem Directed.pinned {e : GuestEnv} {s : GuestSt} {dst src n stream : Nat} {live : Nat → Bool}
    {reqs : List Sending} (hdst : dst < 2 ^ 64) (hsrc : src < 2 ^ 64)
    (hreqs : Directed e s dst src n stream live reqs) {q : Sending} (hq : q ∈ reqs) {a : Nat}
    (ha : q.pinned = some a) : live a = false := by
  have pinned (d u kind : Nat) (hk : kind < 2 ^ 32)
      (hq : q = hostCopy d u n kind stream) : a = if kind = 1 then u % 2 ^ 64 else d % 2 ^ 64 := by
    rw [hq, hostCopy, pinned_cuMemcpy hk] at ha
    exact (Option.some.inj ha).symm
  unfold Directed at hreqs
  split at hreqs
  next h1 =>
    have hfalse : live src = false := by simpa using h1.1
    rw [hreqs] at hq
    rcases List.mem_append.mp hq with hq | hq
    · split at hq
      · rw [pinned src src 2 (by decide) (List.mem_singleton.mp hq), if_neg (by decide),
          Nat.mod_eq_of_lt hsrc, hfalse]
      · cases hq
    · split at hq
      · rw [pinned dst src 1 (by decide) (List.mem_singleton.mp hq), if_pos rfl,
          Nat.mod_eq_of_lt hsrc, hfalse]
      · cases hq
  next h1 =>
    split at hreqs
    next h2 =>
      have hfalse : live dst = false := by simpa using h2.2
      rw [hreqs] at hq
      rw [pinned dst src 2 (by decide) (List.mem_singleton.mp hq), if_neg (by decide),
        Nat.mod_eq_of_lt hdst, hfalse]
    next =>
      have hm : ¬isMemcpy (Cmd.drv .cuMemcpyAsync).code := by decide
      rw [hreqs] at hq
      rw [List.mem_singleton.mp hq, deviceCopy, Sending.pinned, if_neg hm] at ha
      cases ha

/-- The device allocations of the process, as base and size: those that were handed out by
either library and not freed since. -/
def deviceAllocs : List (GuestCall × Returned) → List (Nat × Nat)
  | [] => []
  | (c, r) :: tr =>
    match c with
    | .cuMemAlloc _ n | .cuMemAddressReserve _ n _ _ _ | .cudaMalloc _ n =>
      (r.out.map fun h => (h, n)).toList ++ deviceAllocs tr
    | .cuMemFree a | .cuMemAddressFree a _ | .cudaFree a =>
      if r.ret = some 0 then (deviceAllocs tr).filter fun x => x.1 ≠ a else deviceAllocs tr
    | _ => deviceAllocs tr

/-- Device addresses are those inside a device allocation. -/
def RangeLaw (tr : List (GuestCall × Returned)) (s : GuestSt) : Prop :=
  ∀ a, s.deviceHandles a = true ↔ ∃ x ∈ deviceAllocs tr, x.1 ≤ a ∧ a < x.1 + x.2

def allocEnv : GuestEnv where
  drv _ := .quiet { Env.quiet with ret := fun _ c =>
    if c.fn = .cuMemAlloc ∧ 0 < c.args.getD 0 0 ∧ c.args.getD 0 0 < 2 ^ 40 then
      ⟨0, [0x7f0000000000], none⟩
    else if c.fn = .cuMemAlloc ∨ c.fn = .cuMemAddressReserve then ⟨2, [], none⟩ else .ok }
    fun _ _ => 0
  stack _ _ := 0
  left _ _ := 0
  rpc := false
  opens _ := true

def allocInit : Returned × GuestSt :=
  (GuestCall.forward true (.rt .init) [] 0).run.run allocEnv (.start (.start fun _ _ => 0))

def allocRun : Returned × GuestSt := (GuestCall.cuMemAlloc true 256).run.run allocEnv allocInit.2

theorem allocRun_guestRun : GuestRun allocEnv (.start fun _ _ => 0)
    [(.cuMemAlloc true 256, allocRun.1), (.forward true (.rt .init) [] 0, allocInit.1)] allocRun.2 :=
  have hret : allocInit.1.ret.isSome = true := by decide +kernel
  .call _ (.call _ .start (by simp)) (by simpa using hret)

theorem allocRun_out : allocRun.1 = ⟨some 0, some 0x7f0000000000⟩ := by decide +kernel

/-- A copy inside one allocation, from its middle to its start, has the middle pinned. -/
theorem not_rangeLaw : GuestRun allocEnv (.start fun _ _ => 0)
      [(.cuMemAlloc true 256, allocRun.1), (.forward true (.rt .init) [] 0, allocInit.1)] allocRun.2 ∧
    ¬RangeLaw [(.cuMemAlloc true 256, allocRun.1), (.forward true (.rt .init) [] 0, allocInit.1)]
      allocRun.2 ∧
    (0x7f0000000000, 256) ∈ deviceAllocs [(.cuMemAlloc true 256, allocRun.1),
      (.forward true (.rt .init) [] 0, allocInit.1)] ∧
    ∃ q, ((cuMemcpyAsync 0x7f0000000000 0x7f0000000080 64 0).run allocEnv allocRun.2).2.sent =
      allocRun.2.sent ++ [q] ∧ q.pinned = some 0x7f0000000080 := by
  have hmem : (0x7f0000000000, 256) ∈ deviceAllocs [(.cuMemAlloc true 256, allocRun.1),
      (.forward true (.rt .init) [] 0, allocInit.1)] := by
    rw [allocRun_out]
    exact List.mem_cons_self
  have hfalse : allocRun.2.deviceHandles 0x7f0000000080 = false := by decide +kernel
  refine ⟨allocRun_guestRun, fun hlaw => ?_, hmem,
    hostCopy 0x7f0000000000 0x7f0000000080 64 1 0, by decide +kernel, by decide +kernel⟩
  have htrue := (hlaw 0x7f0000000080).mpr ⟨_, hmem, by decide, by decide⟩
  rw [hfalse] at htrue
  cases htrue

end HmCuda
