import Mathlib.Algebra.BigOperators.Group.List.Basic
import Mathlib.Algebra.Order.Ring.Int

/-! Text with angle brackets and parentheses: how deep a position lies in them, and the commas
of one level. -/

namespace Nesting

def weight (c : Char) : Int :=
  if c = '<' ∨ c = '(' then 1 else if c = '>' ∨ c = ')' then -1 else 0

def depth (s : List Char) : Int := (s.map weight).sum

/-- The commas at depth 0 of a text that begins at depth `d`. -/
def commas (d : Int) : List Char → Nat
  | [] => 0
  | c :: s => (if c = ',' ∧ d = 0 then 1 else 0) + commas (d + weight c) s

/-- Every bracket is closed by its partner; `open_` are the brackets that are open. -/
def balancedFrom : List Char → List Char → Bool
  | open_, [] => open_ = []
  | open_, c :: s =>
    if c = '<' ∨ c = '(' then balancedFrom (c :: open_) s
    else if c = '>' ∨ c = ')' then
      match open_ with
      | [] => false
      | o :: open_ => (o = '<' ∧ c = '>' ∨ o = '(' ∧ c = ')') && balancedFrom open_ s
    else balancedFrom open_ s

def balanced (s : List Char) : Bool := balancedFrom [] s

variable {s t : List Char} {c : Char} {d : Int}

@[simp] theorem depth_nil : depth [] = 0 := rfl

@[simp] theorem depth_cons (c : Char) (s : List Char) : depth (c :: s) = weight c + depth s := by
  simp [depth]

@[simp] theorem depth_append (s t : List Char) : depth (s ++ t) = depth s + depth t := by
  simp [depth]

@[simp] theorem commas_append (d : Int) (s t : List Char) :
    commas d (s ++ t) = commas d s + commas (d + depth s) t := by
  induction s generalizing d with
  | nil => simp [commas]
  | cons c s ih =>
    rw [List.cons_append, commas, commas, ih, depth_cons]
    simp only [add_assoc]

theorem depth_balancedFrom {o : List Char} (h : balancedFrom o s = true) :
    depth s = -(o.length : Int) := by
  induction s generalizing o with
  | nil =>
    have ho : o = [] := by simpa [balancedFrom] using h
    rw [ho]
    rfl
  | cons c s ih =>
    unfold balancedFrom at h
    rw [depth_cons, weight]
    split at h
    next hopen =>
      rw [if_pos hopen, ih h, List.length_cons]
      push_cast
      omega
    next hopen =>
      rw [if_neg hopen]
      split at h
      next hclose =>
        rw [if_pos hclose]
        rcases o with _ | ⟨b, o⟩
        · cases h
        · rw [ih (Bool.and_eq_true_iff.mp h).2, List.length_cons]
          push_cast
          omega
      next hclose => rw [if_neg hclose, ih h, zero_add]

theorem depth_balanced (h : balanced s = true) : depth s = 0 := depth_balancedFrom h

theorem commas_intercalate {ts : List (List Char)} (h : ∀ t ∈ ts, depth t = 0 ∧ commas 0 t = 0)
    (hne : ts ≠ []) : commas 0 ([',', ' '].intercalate ts) + 1 = ts.length := by
  induction ts with
  | nil => exact absurd rfl hne
  | cons t ts ih =>
    obtain ⟨hd, hc⟩ := h t List.mem_cons_self
    rcases ts with _ | ⟨u, ts⟩
    · simp [hc]
    · have hih := ih (fun x hx => h x (List.mem_cons_of_mem _ hx)) (List.cons_ne_nil u ts)
      have hsep : weight ',' = 0 ∧ weight ' ' = 0 := by decide
      rw [List.intercalate_cons_cons, commas_append, commas_append, hc, List.length_cons, ← hih]
      simp [commas, hsep, hd]
      omega

end Nesting
