import HmCuda.Abi.Structs
import HmCuda.Host.CoreDriver
import Mathlib.Data.List.Induction

/-! What a command handler works on: the copied request, in which every access is
recorded, the response it fills in, and the backend. -/

namespace HmCuda
open Layout

/-- The read-only part of `hmcuda_vhost_cmd_ctx`. -/
structure CmdEnv where
  env : Env
  key : Key
  elem : Elem
  totalOutLen : Nat
  payloadLen : Nat

/-- `buf` is `req_buf` and the heap behind it; `touched` is history. -/
structure CmdSt where
  be : Machine
  buf : Nat → UInt8
  touched : List (Nat × Nat)
  resp : List UInt8
  err : Nat
  d2h : Bool

abbrev CmdM := Prog CmdEnv CmdSt

def payloadOff : Nat := 8

def CmdSt.payload (s : CmdSt) : Nat → UInt8 := fun a => s.buf (payloadOff + a)

def req (f : Field) : CmdM Nat := ⟨fun _ s =>
  (f.get s.payload,
    { s with touched := s.touched ++ [(payloadOff + f.off, f.size)] })⟩

def peek (off len : Nat) : CmdM (List UInt8) := ⟨fun _ s =>
  ((List.range len).map fun i => s.buf (payloadOff + off + i),
    { s with touched := s.touched ++ [(payloadOff + off, len)] })⟩

def poke (off : Nat) (bs : List UInt8) : CmdM Unit := Prog.modify fun s =>
  { s with
    buf := fun a => if payloadOff + off ≤ a ∧ a < payloadOff + off + bs.length then
      bs.getD (a - (payloadOff + off)) 0 else s.buf a
    touched := s.touched ++ [(payloadOff + off, bs.length)] }

def core {α : Type} (m : CoreM α) : CmdM α := ⟨fun e s =>
  let r := m.run e.env s.be
  (r.1, { s with be := r.2 })⟩

/-- `ctx->cuda_error = e` -/
def setErr (e : Nat) : CmdM Unit := Prog.modify fun s => { s with err := e % 2 ^ 32 }

def key : CmdM Key := ⟨fun e s => (e.key, s)⟩

/-- A response structure on the stack: the members that were assigned over what the
stack held before. -/
def respImage (s : CStruct) (stale : Nat → UInt8) (vals : List (Option Nat)) : List UInt8 :=
  let h := vals.zipIdx.foldl (fun h v => match v.1 with
    | some x => (field s v.2).set x h
    | none => h) stale
  (List.range (sizeof s)).map h

@[simp] theorem length_respImage (s : CStruct) (stale : Nat → UInt8) (vals : List (Option Nat)) :
    (respImage s stale vals).length = sizeof s := by
  simp [respImage]

theorem getD_respImage {s : CStruct} {stale : Nat → UInt8} {vals : List (Option Nat)} {a : Nat}
    (ha : a < sizeof s) : (respImage s stale vals).getD a 0 =
      (vals.zipIdx.foldl (fun h v => match v.1 with
        | some x => (field s v.2).set x h
        | none => h) stale) a := by
  rw [List.getD_eq_getElem _ _ (by simpa using ha)]
  simp [respImage]

theorem get_respImage (s : CStruct) (stale : Nat → UInt8) (vals : List Nat)
    (hl : vals.length ≤ s.length) {i v : Nat} (hv : vals[i]? = some v) :
    (field s i).get (fun a => (respImage s stale (vals.map some)).getD a 0) =
      v % 256 ^ (field s i).size := by
  rw [Field.get_congr fun a _ ha => getD_respImage (ha.trans_le (stop_le_sizeof s i))]
  -- by the last assignment: it is the member, or lies behind it
  induction vals using List.reverseRecOn with
  | nil => simp at hv
  | append_singleton vals x ih =>
    simp only [List.length_append, List.length_cons, List.length_nil] at hl
    simp only [List.map_append, List.map_cons, List.map_nil, List.zipIdx_append, List.length_map,
      Nat.zero_add, List.zipIdx_cons, List.zipIdx_nil, List.foldl_append, List.foldl_cons,
      List.foldl_nil]
    rcases Nat.lt_or_ge i vals.length with hi | hi
    · have hd := field_stop_le_off hi (by omega : vals.length < s.length)
      rw [List.getElem?_append_left hi] at hv
      rw [Field.get_set_ne _ _ (.inr hd)]
      exact ih (by omega) hv
    · obtain ⟨hlt, hx⟩ := List.getElem?_eq_some_iff.mp hv
      obtain rfl : i = vals.length := by simp at hlt; omega
      rw [List.getElem_append_right le_rfl] at hx
      obtain rfl : x = v := by simpa using hx
      exact Field.get_set _ _ _

/-- Copies a response structure and the bytes that follow it into the response. -/
def reply (s : CStruct) (vals : List (Option Nat)) (rest : List UInt8) : CmdM Unit := ⟨fun e st =>
  ((), { st with resp := respImage s (e.env.stale st.be.dev.clock) vals ++ rest })⟩

/-- The same for a structure that the operation clears before it fills it in, and leaves
alone when it fails. -/
def replyFilled (s : CStruct) (out : Option (List Nat)) : CmdM Unit := ⟨fun e st =>
  ((), { st with resp := match out with
    | some vals => respImage s (fun _ => 0) (vals.map some)
    | none => respImage s (e.env.stale st.be.dev.clock) [] })⟩

section Run
variable {α : Type} (e : CmdEnv) (s : CmdSt)

@[simp] theorem req_fst (f : Field) : ((req f).run e s).1 = f.get s.payload := by rfl
@[simp] theorem req_payload (f : Field) : ((req f).run e s).2.payload = s.payload := by rfl
@[simp] theorem req_be (f : Field) : ((req f).run e s).2.be = s.be := by rfl
@[simp] theorem req_buf (f : Field) : ((req f).run e s).2.buf = s.buf := by rfl
@[simp] theorem req_err (f : Field) : ((req f).run e s).2.err = s.err := by rfl
@[simp] theorem req_resp (f : Field) : ((req f).run e s).2.resp = s.resp := by rfl
@[simp] theorem req_d2h (f : Field) : ((req f).run e s).2.d2h = s.d2h := by rfl
@[simp] theorem req_touched (f : Field) :
    ((req f).run e s).2.touched = s.touched ++ [(payloadOff + f.off, f.size)] := by rfl

@[simp] theorem core_fst (m : CoreM α) : ((core m).run e s).1 = (m.run e.env s.be).1 := by rfl
@[simp] theorem core_be (m : CoreM α) : ((core m).run e s).2.be = (m.run e.env s.be).2 := by rfl
@[simp] theorem core_payload (m : CoreM α) : ((core m).run e s).2.payload = s.payload := by rfl
@[simp] theorem core_buf (m : CoreM α) : ((core m).run e s).2.buf = s.buf := by rfl
@[simp] theorem core_err (m : CoreM α) : ((core m).run e s).2.err = s.err := by rfl
@[simp] theorem core_resp (m : CoreM α) : ((core m).run e s).2.resp = s.resp := by rfl
@[simp] theorem core_d2h (m : CoreM α) : ((core m).run e s).2.d2h = s.d2h := by rfl
@[simp] theorem core_touched (m : CoreM α) : ((core m).run e s).2.touched = s.touched := by rfl

@[simp] theorem setErr_be (n : Nat) : ((setErr n).run e s).2.be = s.be := by rfl
@[simp] theorem setErr_payload (n : Nat) : ((setErr n).run e s).2.payload = s.payload := by rfl
@[simp] theorem setErr_buf (n : Nat) : ((setErr n).run e s).2.buf = s.buf := by rfl
@[simp] theorem setErr_err (n : Nat) : ((setErr n).run e s).2.err = n % 2 ^ 32 := by rfl
@[simp] theorem setErr_resp (n : Nat) : ((setErr n).run e s).2.resp = s.resp := by rfl
@[simp] theorem setErr_d2h (n : Nat) : ((setErr n).run e s).2.d2h = s.d2h := by rfl
@[simp] theorem setErr_touched (n : Nat) : ((setErr n).run e s).2.touched = s.touched := by rfl

@[simp] theorem reply_be (t : CStruct) (v : List (Option Nat)) (r : List UInt8) :
    ((reply t v r).run e s).2.be = s.be := by rfl
@[simp] theorem reply_err (t : CStruct) (v : List (Option Nat)) (r : List UInt8) :
    ((reply t v r).run e s).2.err = s.err := by rfl
@[simp] theorem reply_d2h (t : CStruct) (v : List (Option Nat)) (r : List UInt8) :
    ((reply t v r).run e s).2.d2h = s.d2h := by rfl
@[simp] theorem reply_touched (t : CStruct) (v : List (Option Nat)) (r : List UInt8) :
    ((reply t v r).run e s).2.touched = s.touched := by rfl
@[simp] theorem reply_resp (t : CStruct) (v : List (Option Nat)) (r : List UInt8) :
    ((reply t v r).run e s).2.resp = respImage t (e.env.stale s.be.dev.clock) v ++ r := by rfl

@[simp] theorem replyFilled_be (t : CStruct) (o : Option (List Nat)) :
    ((replyFilled t o).run e s).2.be = s.be := by rfl
@[simp] theorem replyFilled_err (t : CStruct) (o : Option (List Nat)) :
    ((replyFilled t o).run e s).2.err = s.err := by rfl
@[simp] theorem replyFilled_d2h (t : CStruct) (o : Option (List Nat)) :
    ((replyFilled t o).run e s).2.d2h = s.d2h := by rfl
@[simp] theorem replyFilled_touched (t : CStruct) (o : Option (List Nat)) :
    ((replyFilled t o).run e s).2.touched = s.touched := by rfl
@[simp] theorem length_replyFilled (t : CStruct) (o : Option (List Nat)) :
    ((replyFilled t o).run e s).2.resp.length = sizeof t := by
  cases o <;> exact length_respImage t _ _

@[simp] theorem key_run : key.run e s = (e.key, s) := by rfl

end Run

def answer (m : CoreM Nat) : CmdM Unit := do setErr (← core m)

def answerWith (resp : CStruct) (m : CoreM (Nat × Option Nat)) : CmdM Unit := do
  let (err, out) ← core m
  setErr err
  reply resp [out] []

/-- A handler that calls CUDA itself and passes one result on, written or not. -/
def answerLib (resp : CStruct) (m : QueryM LibRet) : CmdM Unit :=
  answerWith resp (query do
    let r ← m
    return (r.code, if r.code = 0 then some (r.out 0) else none))

/-- One transfer of a descriptor loop: the offset in the request's range, the
descriptor, and how many bytes of it belong to the range. -/
structure Chunk where
  off : Nat
  iov : Iov
  len : Nat
  deriving DecidableEq, Repr

/-- The transfers of `for (i...; i < n && offset < limit; i++)`, before any fails. -/
def chunksFrom (cut : Nat → Nat → Nat) (limit : Nat) : Nat → List Iov → List Chunk
  | _, [] => []
  | off, v :: vs =>
    if off < limit then
      let len := cut off v.len
      ⟨off, v, len⟩ :: chunksFrom cut limit (add64 off len) vs
    else []

/-- The last descriptor is cut so that the range ends at `count`. -/
def cutAt (count off len : Nat) : Nat := if add64 off len > count then sub64 count off else len

def chunks (count : Nat) (vs : List Iov) : List Chunk := chunksFrom (cutAt count) count 0 vs

def sum64 (ns : List Nat) : Nat := ns.foldl add64 0

end HmCuda
