import Mathlib.Algebra.Group.Nat.Defs
import Mathlib.Logic.Function.Basic
import Mathlib.Data.List.Basic

/-! The backend's session tables (resource.c): one list of resources for each
type, newest first, searched from the head. Words are 64 bits wide. -/

namespace HmCuda

def add64 (a b : Nat) : Nat := (a + b) % 2 ^ 64

def sub64 (a b : Nat) : Nat := (a + (2 ^ 64 - b % 2 ^ 64)) % 2 ^ 64

theorem add64_of_lt {a b : Nat} (h : a + b < 2 ^ 64) : add64 a b = a + b := Nat.mod_eq_of_lt h

theorem add64_lt (a b : Nat) : add64 a b < 2 ^ 64 := Nat.mod_lt _ (Nat.two_pow_pos 64)

theorem sub64_of_le {a b : Nat} (h : b ≤ a) (ha : a < 2 ^ 64) : sub64 a b = a - b := by
  unfold sub64
  rw [Nat.mod_eq_of_lt (Nat.lt_of_le_of_lt h ha)]
  omega

inductive ResType where
  | mem | stream | event | module | function | context | hostMem | hostDevPtr | genericAlloc
  deriving DecidableEq, Repr

def ResType.all : List ResType :=
  [.mem, .stream, .event, .module, .function, .context, .hostMem, .hostDevPtr, .genericAlloc]

/-- Device and pinned memory are found by any address of their range. -/
def ResType.ranged (t : ResType) : Bool := t = .mem ∨ t = .hostMem

structure Resource where
  handle : Nat
  realPtr : Nat
  size : Nat
  deriving DecidableEq, Repr

namespace Resource

def covers (t : ResType) (h : Nat) (r : Resource) : Bool :=
  if t.ranged then r.handle ≤ h ∧ h < add64 r.handle r.size else r.handle = h

/-- The pointer the table gives for handle `h` of the entry `r`. -/
def pointer (t : ResType) (h : Nat) (r : Resource) : Nat :=
  if t.ranged then add64 r.realPtr (h - r.handle) else r.realPtr

end Resource

/-- Session and VM, the key of a context. -/
structure Key where
  sid : Nat
  vid : Nat
  deriving DecidableEq, Repr

structure Context where
  key : Key
  resources : ResType → List Resource

namespace Context

/-- The entry at which the walk of `hmcuda_res_get` stops. -/
def resFind (c : Context) (t : ResType) (h : Nat) : Option Resource :=
  (c.resources t).find? (Resource.covers t h)

/-- `hmcuda_res_get`; 0 is the NULL pointer. -/
def resGet (c : Context) (t : ResType) (h : Nat) : Nat :=
  match c.resFind t h with
  | some r => r.pointer t h
  | none => 0

/-- `hmcuda_res_get_handle` -/
def resGetHandle (c : Context) (t : ResType) (realPtr : Nat) : Nat :=
  if realPtr = 0 then 0
  else match (c.resources t).find? (·.realPtr = realPtr) with
    | some r => r.handle
    | none => 0

def push (c : Context) (t : ResType) (r : Resource) : Context :=
  { c with resources := Function.update c.resources t (r :: c.resources t) }

/-- `hmcuda_res_remove` -/
def resRemove (c : Context) (t : ResType) (h : Nat) : Context :=
  { c with resources := Function.update c.resources t ((c.resources t).eraseP (·.handle = h)) }

@[simp] theorem push_key (c : Context) (t : ResType) (r : Resource) : (c.push t r).key = c.key :=
  rfl

@[simp] theorem resRemove_key (c : Context) (t : ResType) (h : Nat) :
    (c.resRemove t h).key = c.key := rfl

theorem push_resources (c : Context) (t u : ResType) (r : Resource) :
    (c.push t r).resources u = if u = t then r :: c.resources t else c.resources u := by
  simp [push, Function.update_apply]

theorem resRemove_resources (c : Context) (t u : ResType) (h : Nat) :
    (c.resRemove t h).resources u =
      if u = t then (c.resources t).eraseP (·.handle = h) else c.resources u := by
  simp [resRemove, Function.update_apply]

theorem resGet_eq (c : Context) (t : ResType) (h : Nat) :
    c.resGet t h = ((c.resFind t h).map (·.pointer t h)).getD 0 := by
  unfold resGet
  cases c.resFind t h <;> rfl

end Context

/-- `g_ctx_list` and `g_next_handle`. -/
structure Tables where
  ctxs : List Context
  nextHandle : Nat

namespace Tables

def start : Tables := ⟨[], 0x10000000⟩

/-- `hmcuda_ctx_get` -/
def ctxGet (t : Tables) (k : Key) : Option Context := t.ctxs.find? (·.key = k)

/-- `hmcuda_ctx_create` -/
def ctxCreate (t : Tables) (k : Key) : Tables := { t with ctxs := ⟨k, fun _ => []⟩ :: t.ctxs }

/-- The list part of `hmcuda_ctx_destroy`. -/
def ctxUnlink (t : Tables) (k : Key) : Tables := { t with ctxs := t.ctxs.eraseP (·.key = k) }

/-- The context `hmcuda_ctx_get` returns, updated in place. -/
def ctxUpdate (t : Tables) (k : Key) (f : Context → Context) : Tables :=
  { t with ctxs := go t.ctxs }
where
  go : List Context → List Context
    | [] => []
    | c :: cs => if c.key = k then f c :: cs else c :: go cs

/-- `hmcuda_res_add_with_handle` -/
def resAddWithHandle (t : Tables) (k : Key) (ty : ResType) (realPtr size handle : Nat) : Tables :=
  t.ctxUpdate k (·.push ty ⟨handle, realPtr, size⟩)

/-- `hmcuda_res_add`: memory also advances the counter by its size. -/
def resAdd (t : Tables) (k : Key) (ty : ResType) (realPtr size : Nat) : Nat × Tables :=
  let handle := add64 t.nextHandle 1
  let next := if ty = .mem ∧ 0 < size then add64 handle size else handle
  (handle, ({ t with nextHandle := next }).resAddWithHandle k ty realPtr size handle)

/-- `hmcuda_res_remove` on the context of `k`. -/
def resRemove (t : Tables) (k : Key) (ty : ResType) (handle : Nat) : Tables :=
  t.ctxUpdate k (·.resRemove ty handle)

theorem ctxUpdate_go_find (k l : Key) (f : Context → Context) (hf : ∀ c, (f c).key = c.key)
    (cs : List Context) :
    (ctxUpdate.go k f cs).find? (·.key = l) =
      if l = k then (cs.find? (·.key = k)).map f else cs.find? (·.key = l) := by
  induction cs with
  | nil => simp [ctxUpdate.go]
  | cons c cs ih =>
    unfold ctxUpdate.go
    by_cases hc : c.key = k
    · by_cases hl : l = k
      · subst hl
        simp [hc, hf]
      · have hcl : c.key ≠ l := fun h => hl (h.symm.trans hc)
        simp [hc, hl, hf, Ne.symm hl]
    · by_cases hl : l = k
      · subst hl
        simp [hc, ih]
      · simp [hc, hl, List.find?_cons, ih]

theorem ctxGet_ctxUpdate (t : Tables) (k l : Key) {f : Context → Context}
    (hf : ∀ c, (f c).key = c.key) :
    (t.ctxUpdate k f).ctxGet l = if l = k then (t.ctxGet k).map f else t.ctxGet l :=
  ctxUpdate_go_find k l f hf t.ctxs

section
variable {t : Tables} {k : Key} {c : Context} (hc : t.ctxGet k = some c)
include hc

theorem ctxGet_resAddWithHandle (ty : ResType) (p size handle : Nat) :
    (t.resAddWithHandle k ty p size handle).ctxGet k = some (c.push ty ⟨handle, p, size⟩) := by
  rw [resAddWithHandle, ctxGet_ctxUpdate t k k fun c => c.push_key _ _, if_pos rfl, hc]
  rfl

theorem ctxGet_resRemove (ty : ResType) (h : Nat) :
    (t.resRemove k ty h).ctxGet k = some (c.resRemove ty h) := by
  rw [resRemove, ctxGet_ctxUpdate t k k fun c => c.resRemove_key _ _, if_pos rfl, hc]
  rfl

end

theorem ctxGet_ctxCreate (t : Tables) (k l : Key) :
    (t.ctxCreate k).ctxGet l = if l = k then some ⟨k, fun _ => []⟩ else t.ctxGet l := by
  by_cases h : l = k
  · simp [ctxGet, ctxCreate, h]
  · simp [ctxGet, ctxCreate, h, Ne.symm h]

end Tables
end HmCuda
