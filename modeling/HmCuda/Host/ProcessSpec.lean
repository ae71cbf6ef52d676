import HmCuda.Host.CopySpec

/-! One element through the backend: the header, the dispatch, and what a copy
command leaves behind. -/

namespace HmCuda
open Layout

theorem iovToBuf_zero (mem : ByteMem Space) (vs : List Iov) : iovToBuf mem vs 0 = [] := by
  cases vs <;> simp [iovToBuf]

theorem iovToBuf_cons (mem : ByteMem Space) (v : Iov) (vs : List Iov) {n : Nat} (h : n ≤ v.len) :
    iovToBuf mem (v :: vs) n = mem.read v.sp v.base n := by
  rw [iovToBuf, min_eq_left h, Nat.sub_self, iovToBuf_zero, List.append_nil]
  by_cases h0 : n = 0
  · simp [h0, ByteMem.read]
  · exact if_neg h0

@[simp] theorem length_respBytes (cmd err : Nat) (payload : List UInt8) :
    (respBytes cmd err payload).length = sizeof respHeader + payload.length := by
  have h : sizeof respHeader = 8 := by decide
  simp [respBytes, h]
  omega

theorem take_respBytes (cmd err : Nat) (payload : List UInt8) (k : Nat) :
    (respBytes cmd err payload).take (sizeof respHeader + k) =
      respBytes cmd err (payload.take k) := by
  have h8 : sizeof respHeader = 8 := by decide
  rw [respBytes, respBytes, List.take_append, List.take_of_length_le (by simp [h8])]
  simp [h8]

def Elem.image (e : Elem) (m : Machine) : Nat → UInt8 :=
  let v := e.outSg.headD ⟨.ram, 0, 0⟩
  fun a => m.dev.eng.mem v.sp (v.base + a)

theorem processElem_run {k : Key} {e : Elem} {env : Env} {m : Machine} {cmd : Nat}
    (h : sizeof reqHeader ≤ e.reqLen) (hc : reqHeader.cmdType.get (e.image m) = cmd)
    {r : Bool × CmdSt} (hr : (dispatchCmd cmd).run (cmdEnv env k e) (cmdStart env e m) = r) :
    (processElem k e).run env m =
      (some (respond cmd e r.1 r.2), r.2.be.deliver env (respond cmd e r.1 r.2).writes) := by
  obtain ⟨outSg, inSg⟩ := e
  rcases outSg with _ | ⟨v, vs⟩
  · simp [Elem.reqLen, reqHeader, sizeof, roundUp, stopFrom, alignOf, CTy.align, CTy.size] at h
  · have hb := iovToBuf_cons m.dev.eng.mem v vs h
    have hcmd : (reqHeader.cmdType.get fun a => (m.dev.eng.mem.read v.sp v.base
        (sizeof reqHeader)).getD a 0) = reqHeader.cmdType.get (Elem.image ⟨v :: vs, inSg⟩ m) :=
      Field.get_congr fun a _ ha => ByteMem.getD_read _ _
        (ha.trans_le (stop_le_sizeof reqHeader 0))
    simp only [processElem, hb, ByteMem.length_read, ne_eq, not_true_eq_false, if_false, hcmd, hc,
      hr]

/-- The commands whose data travels in descriptors of their own. -/
inductive CopyCmd where
  | memcpy | cuMemcpy | cuMemHostAlloc
  deriving DecidableEq, Repr

namespace CopyCmd

def cmd : CopyCmd → Cmd
  | memcpy => .rt .memcpy
  | cuMemcpy => .drv .cuMemcpy
  | cuMemHostAlloc => .drv .cuMemHostAlloc

def plan (c : CopyCmd) (k : Key) (e : CmdEnv) (p : Nat → UInt8) : CoreM Nat :=
  match c with
  | memcpy => query (memcpyPlan k e (memReq p))
  | cuMemcpy => query (cuMemcpyPlan k e (memReq p))
  | cuMemHostAlloc => cuMemHostAllocPlan k e p

/-- Whether the handler marks the response as one for the last descriptor only. -/
def marks (c : CopyCmd) (p : Nat → UInt8) : Bool :=
  match c with
  | memcpy => decide ((memReq p).kind = 2 ∧ (memReq p).dst = 0)
  | cuMemcpy => decide ((memReq p).kind = 2)
  | cuMemHostAlloc => false

theorem dispatch_ran (c : CopyCmd) {e : CmdEnv} {s : CmdSt} (hd : s.d2h = false) :
    ((dispatchCmd c.cmd.code).run e s).1 = true ∧
      Ran e (c.plan e.key e s.payload) (c.marks s.payload) s
        ((dispatchCmd c.cmd.code).run e s).2 := by
  unfold dispatchCmd
  rw [Cmd.ofCode_code]
  cases c with
  | memcpy =>
    have h := handleMemcpy_ran (e := e) (s := s) rfl
    rw [hd, Bool.false_or] at h
    exact ⟨rfl, h⟩
  | cuMemcpy =>
    have h := handleCuMemcpy_ran (e := e) (s := s) rfl
    rw [hd, Bool.false_or] at h
    exact ⟨rfl, h⟩
  | cuMemHostAlloc =>
    have h := handleCuMemHostAlloc_ran (e := e) (s := s)
    rw [hd] at h
    exact ⟨rfl, h⟩

end CopyCmd

theorem processElem_copy (c : CopyCmd) {e : Elem} {m : Machine} (k : Key) (env : Env)
    (h : sizeof reqHeader ≤ e.reqLen) (hc : reqHeader.cmdType.get (e.image m) = c.cmd.code) :
    let p := (cmdStart env e m).payload
    let r := (c.plan k (cmdEnv env k e) p).run env m
    ∃ served : Served, (processElem k e).run env m =
        (some served, r.2.deliver env served.writes) ∧
      served.err = r.1 % 2 ^ 32 ∧ served.payload = [] ∧ served.writes =
        respWrites (c.marks p) e.inSg (respBytes c.cmd.code (r.1 % 2 ^ 32) []) := by
  obtain ⟨h1, h2⟩ := c.dispatch_ran (e := cmdEnv env k e) (s := cmdStart env e m) rfl
  rw [processElem_run h hc rfl]
  generalize (dispatchCmd c.cmd.code).run (cmdEnv env k e) (cmdStart env e m) = out at h1 h2 ⊢
  refine ⟨respond c.cmd.code e out.1 out.2, ?_, ?_, ?_, ?_⟩
  · rw [h2.be]
    rfl
  · rw [respond, h1]
    exact h2.err
  · exact h2.resp
  · rw [respond, h1, h2.d2h, h2.resp, h2.err]
    rfl

@[simp] theorem deliver_tab (env : Env) (m : Machine) (ws : List RespWrite) :
    (m.deliver env ws).tab = m.tab := by rfl

theorem deliver_pending {env : Env} {m : Machine} {ws : List RespWrite}
    (h : env.dma m.dev.clock = []) :
    (m.deliver env ws).dev.eng.pending = m.dev.eng.pending := by
  simp only [Machine.deliver, idle_run, h]
  rfl

end HmCuda
