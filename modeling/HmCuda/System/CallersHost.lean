import HmCuda.System.Callers
import HmCuda.System.Payload
import HmCuda.System.Response

/-! The requests of concurrent callers, and what the host's answers leave in their response
buffers. -/

namespace HmCuda.Callers
open Layout

/-- What a caller queues: a simple command, or one batch of a copy of some kind. -/
inductive Request where
  | plain (totalReq payload : Nat)
  | batch (totalReq kind : Nat) (data : List Iov)

structure Reply where
  cmd : Nat
  err : Nat
  payload : List UInt8

def Reply.bytes (a : Reply) : List UInt8 := respBytes a.cmd a.err a.payload

namespace Request

def room : Request → Nat
  | plain _ payload => payload
  | batch _ _ _ => 0

def elem (caller : Nat) : Request → Elem
  | plain totalReq payload => simpleElem caller totalReq (sizeof respHeader + payload)
  | batch totalReq kind data => memcpyElem caller totalReq (sizeof respHeader) kind data

def d2h : Request → Bool
  | plain _ _ => false
  | batch _ kind _ => decide (kind = 2)

def writes (q : Request) (caller : Nat) (a : Reply) : List RespWrite :=
  respWrites q.d2h (q.elem caller).inSg a.bytes

/-- A copy goes to the device or comes from it. -/
def Directed : Request → Prop
  | plain _ _ => True
  | batch _ kind _ => kind = 1 ∨ kind = 2

end Request

/-- A caller's response buffer is its own space of the machine's memory. -/
def hostBuffer : Buffer Nat Request Reply (Nat → UInt8) where
  zero _ := 0
  write d a f := applyWrites (Function.update (fun _ _ => 0) (.resp d.owner) f)
    (d.req.writes d.owner a) (.resp d.owner)
  holds d a f := ∀ i < sizeof respHeader + d.req.room, i < a.bytes.length → f i = a.bytes.getD i 0
  failed f := respHeader.cudaError.get f ≠ 0

theorem applyWrites_space (mem : ByteMem Space) (ws : List RespWrite) (sp : Space) :
    applyWrites mem ws sp = applyWrites (Function.update (fun _ _ => 0) sp (mem sp)) ws sp := by
  have congr (mem mem' : ByteMem Space) (h : mem sp = mem' sp) :
      applyWrites mem ws sp = applyWrites mem' ws sp := by
    induction ws generalizing mem mem' with
    | nil => exact h
    | cons w ws ih =>
      refine ih _ _ (funext fun b => ?_)
      simp only [ByteMem.write, h]
  refine congr mem _ ?_
  rw [Function.update_self]

section Writes
variable {q : Request} {caller : Nat} {a : Reply}

theorem Reply.bytes_ne_nil (a : Reply) : a.bytes ≠ [] := by simp [bytes, respBytes, Bytes.le]

theorem writes_directed (h : q.Directed) : q.writes caller a =
    [⟨.resp caller, 0, a.bytes.take (sizeof respHeader + q.room)⟩] := by
  have hne := a.bytes_ne_nil
  cases q with
  | plain tr payload =>
    simp [Request.writes, Request.d2h, Request.elem, Request.room, simpleElem, respWrites, bufToIov,
      hne]
  | batch tr kind data =>
    rcases h with rfl | rfl
    · simp [Request.writes, Request.d2h, Request.elem, Request.room, memcpyElem, respWrites,
        bufToIov, hne]
    · rcases eq_or_ne data [] with rfl | hd
      · simp [Request.writes, Request.d2h, Request.elem, Request.room, memcpyElem, respWrites,
          bufToIov, hne]
      · simp [Request.writes, Request.d2h, Request.elem, Request.room, memcpyElem, respWrites, hd]

theorem write_directed {d : Desc Nat Request} (h : d.req.Directed) (f : Nat → UInt8) :
    hostBuffer.write d a f =
      ByteMem.write (Function.update (fun _ _ => 0) (Space.resp d.owner) f) (Space.resp d.owner) 0
        (a.bytes.take (sizeof respHeader + d.req.room)) (Space.resp d.owner) := by
  show applyWrites _ (d.req.writes d.owner a) _ = _
  rw [writes_directed h]
  rfl

theorem holds_write {d : Desc Nat Request} (h : d.req.Directed) (f : Nat → UInt8) :
    hostBuffer.holds d a (hostBuffer.write d a f) := by
  intro i hi hlen
  have hit : i < (a.bytes.take (sizeof respHeader + d.req.room)).length := by
    rw [List.length_take]
    exact Nat.lt_min.mpr ⟨hi, hlen⟩
  rw [write_directed h, ← Nat.zero_add i, ByteMem.write_hit _ _ hit, Nat.zero_add,
    List.getD_eq_getElem?_getD, List.getElem?_take_of_lt hi, ← List.getD_eq_getElem?_getD]

theorem failed_write {d : Desc Nat Request} (h : d.req.Directed) (f : Nat → UInt8) :
    hostBuffer.failed (hostBuffer.write d a f) ↔ a.err % 2 ^ 32 ≠ 0 := by
  rw [write_directed h, Reply.bytes, take_respBytes]
  show respHeader.cudaError.get _ ≠ 0 ↔ _
  rw [cudaError_write]

end Writes

/-! The requests of the driver, and their answers from the host -/

section Served
variable {e : DrvEnv} {s : DrvSt}

theorem deliver_resp {q : Request} {caller : Nat} {a : Reply} {ws : List RespWrite}
    (h : ws = q.writes caller a) (env : Env) (m : Machine) (id : Nat) :
    (m.deliver env ws).dev.eng.mem (.resp caller) = hostBuffer.write ⟨caller, id, q⟩ a
      ((idle.run ⟨env, m.tab⟩ m.dev).2.eng.mem (.resp caller)) := by
  subst h
  exact applyWrites_space _ _ _

theorem plain_resp {c : Cmd} {n m : Nat} {img : Nat → UInt8} (h : Sent e c n m img)
    (evs : List Ev) (id : Nat) : ∃ f, (s.answered e c n m img evs).m.dev.eng.mem (.resp e.caller) =
      hostBuffer.write ⟨e.caller, id, .plain (sizeof reqHeader + n) m⟩
        ⟨c.code, (plainServed e c n m (s.showing e img)).err,
          (plainServed e c n m (s.showing e img)).payload⟩ f := by
  refine ⟨_, deliver_resp ((plainServed_writes h _).trans ?_) _ _ _⟩
  rw [writes_directed (show Request.Directed (.plain _ _) from trivial)]
  rfl

/-- Batches of copies, and of `cuMemHostAlloc`, which goes to the device. -/
theorem batch_resp {c : CopyCmd} {a : MemcpyArgs} {off : Nat} {s' : DrvSt} {pfns : List Nat}
    {served : Served} (hb : Batched e c a off s pfns served s')
    (hc : c = .cuMemHostAlloc ∧ a.kind = 1 ∨ c ≠ .cuMemHostAlloc ∧ a.totalCount < 2 ^ 64 ∧
      ∃ stream, CopyReq c a.kind stream s.reqBuf) (id : Nat) :
    ∃ f, s'.m.dev.eng.mem (.resp e.caller) = hostBuffer.write
      ⟨e.caller, id, .batch (sizeof reqHeader + c.fixed) a.kind (batchData a off pfns)⟩
      ⟨c.cmd.code, served.err, []⟩ f := by
  have hmark : c.marks (batchPayload e c a off s pfns) = decide (a.kind = 2) := by
    rcases hc with ⟨rfl, hk⟩ | ⟨hc, ht, stream, hr⟩
    · rw [hk]
      rfl
    · exact marks_batchPayload hc hr ht
  rw [hb.post]
  refine ⟨_, deliver_resp ?_ _ _ _⟩
  rw [hb.writes, hmark]
  rfl

end Served

section Runs
variable {resp : Nat → Nat → UInt8} {s : St Nat Request Reply (Nat → UInt8)}

/-- Whatever the callers ask and however their steps, the host's and the callback's interleave,
while the copies that are queued go to the device or come from it. -/
theorem callers_orderly
    (h : Relation.ReflTransGen (Step hostBuffer fun d => d.req.Directed) (St.start resp) s) :
    Orderly hostBuffer s := (run_inv h).orderly fun _ _ f hd => holds_write hd f

theorem reads_alone (resp : Nat → Nat → UInt8) (ok : Desc Nat Request → Prop) (q : Request)
    (a : Reply) (hok : ok ⟨0, 0, q⟩) : ∃ s, Relation.ReflTransGen (Step hostBuffer ok) (St.start resp) s ∧
      s.pc 0 = .reading ⟨0, 0, q⟩ [] ∧ s.dev.answered = [(⟨0, 0, q⟩, a)] ∧
      s.dev.resp 0 = hostBuffer.write ⟨0, 0, q⟩ a hostBuffer.zero := by
  have h0 : Relation.ReflTransGen (Step hostBuffer ok) (St.start resp) _ :=
    .single (.enter [q] (t := 0) rfl)
  have h1 := h0.tail (.lock (show St.pc _ 0 = .between [q] from rfl) rfl)
  have h2 := h1.tail (.reinit (show St.pc _ 0 = .locked q [] from rfl))
  have h3 := h2.tail (.add (show St.pc _ 0 = .fresh q [] from rfl) hok)
  have h4 := h3.tail (.kick (show St.pc _ 0 = .added ⟨0, 0, q⟩ [] from rfl))
  have h5 := h4.tail (.pop (show Dev.avail _ = [⟨0, 0, q⟩] from rfl) rfl)
  have h6 := h5.tail (.process a (show Dev.host _ = some (⟨0, 0, q⟩, none) from rfl))
  have h7 := h6.tail (.push (show Dev.host _ = some (⟨0, 0, q⟩, some a) from rfl))
  have h8 := h7.tail (.callback (Nat.zero_lt_one))
  have h9 := h8.tail (.wake (show St.pc _ 0 = .waiting ⟨0, 0, q⟩ [] from rfl) Nat.zero_lt_one)
  have h10 := h9.tail (.getBuf (show St.pc _ 0 = .woken ⟨0, 0, q⟩ [] from rfl))
  have h11 := h10.tail (.unlock
    (show St.pc _ 0 = .got ⟨0, 0, q⟩ (some ⟨0, 0, q⟩) [] from rfl))
  exact ⟨_, h11, rfl, rfl, rfl⟩

/-- The one batch of a copy from the device, refused with 700. -/
theorem callers_orderly_refusedCopy : ∃ s : St Nat Request Reply (Nat → UInt8), ∃ d a,
    s.pc 0 = .reading d [] ∧ d.req = .batch 40 2 [⟨.ram, 4096, 16⟩] ∧
      hostBuffer.holds d a (s.dev.resp 0) ∧ ∀ b, (d, b) ∈ s.dev.answered ↔ b = a := by
  obtain ⟨s, hrun, hpc, -⟩ := reads_alone (fun _ _ => 0) (fun d => d.req.Directed)
    (.batch 40 2 [⟨.ram, 4096, 16⟩]) ⟨Cmd.code (.drv .cuMemcpy), 700, []⟩ (.inr rfl)
  obtain ⟨-, a, ha⟩ := (callers_orderly hrun).reading 0 _ [] hpc
  exact ⟨s, _, a, hpc, rfl, ha⟩

/-- For a copy of another kind the answer goes over its data, and the caller reads zeros. -/
theorem not_callers_orderly : ¬∀ (resp : Nat → Nat → UInt8) s,
    Relation.ReflTransGen (Step hostBuffer fun _ => True) (St.start resp) s →
      Orderly hostBuffer s := by
  intro h
  obtain ⟨s, hrun, hpc, hans, hresp⟩ := reads_alone (fun _ _ => 0) (fun _ => True)
    (.batch 40 3 [⟨.ram, 4096, 16⟩]) ⟨Cmd.code (.drv .cuMemcpy), 1, []⟩ trivial
  obtain ⟨-, a, ha, hone⟩ := (h _ s hrun).reading 0 _ [] hpc
  rw [hans] at hone
  have hreply := (hone _).mp (List.mem_singleton_self _)
  subst hreply
  rw [hresp] at ha
  have h4 := ha 4 (by decide) (by decide)
  revert h4
  decide

end Runs
end HmCuda.Callers
