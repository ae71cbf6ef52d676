import Mathlib.Logic.Basic

/-! Programs over a read-only environment and a state, and the rules for what
they preserve. -/

/-- A program reads `ε`, updates `σ` and returns an `α`. -/
structure Prog (ε σ α : Type) where
  run : ε → σ → α × σ

namespace Prog
variable {ε σ τ α β ι : Type}

instance : Monad (Prog ε σ) where
  pure a := ⟨fun _ s => (a, s)⟩
  bind m f := ⟨fun e s => (f (m.run e s).1).run e (m.run e s).2⟩

@[simp] theorem pure_run (a : α) (e : ε) (s : σ) : (pure a : Prog ε σ α).run e s = (a, s) := by rfl

@[simp] theorem bind_run (m : Prog ε σ α) (f : α → Prog ε σ β) (e : ε) (s : σ) :
    (m >>= f).run e s = (f (m.run e s).1).run e (m.run e s).2 := by rfl

@[simp] theorem map_run (f : α → β) (m : Prog ε σ α) (e : ε) (s : σ) :
    (f <$> m).run e s = (f (m.run e s).1, (m.run e s).2) := by rfl

@[simp] theorem ite_run (c : Prop) [Decidable c] (m n : Prog ε σ α) (e : ε) (s : σ) :
    (if c then m else n).run e s = if c then m.run e s else n.run e s := by
  split <;> rfl

def ask : Prog ε σ ε := ⟨fun e s => (e, s)⟩

def get : Prog ε σ σ := ⟨fun _ s => (s, s)⟩

def modify (f : σ → σ) : Prog ε σ Unit := ⟨fun _ s => ((), f s)⟩

@[simp] theorem ask_run (e : ε) (s : σ) : (ask : Prog ε σ ε).run e s = (e, s) := by rfl
@[simp] theorem get_run (e : ε) (s : σ) : (get : Prog ε σ σ).run e s = (s, s) := by rfl
@[simp] theorem modify_run (f : σ → σ) (e : ε) (s : σ) :
    (modify f : Prog ε σ Unit).run e s = ((), f s) := by rfl

/-- The loop `for x in xs do (err := f x; if err ≠ 0 then break)`. -/
def firstError (f : ι → Prog ε σ Nat) : List ι → Prog ε σ Nat
  | [] => pure 0
  | x :: xs => do
    let err ← f x
    if err ≠ 0 then return err else firstError f xs

@[simp] theorem firstError_nil (f : ι → Prog ε σ Nat) (e : ε) (s : σ) :
    (firstError f []).run e s = (0, s) := by rfl

theorem firstError_cons (f : ι → Prog ε σ Nat) (x : ι) (xs : List ι) (e : ε) (s : σ) :
    (firstError f (x :: xs)).run e s =
      if ((f x).run e s).1 ≠ 0 then (f x).run e s
      else (firstError f xs).run e ((f x).run e s).2 := by
  simp only [firstError, bind_run, ite_run, pure_run]

def forEach (f : ι → Prog ε σ Unit) : List ι → Prog ε σ Unit
  | [] => pure ()
  | x :: xs => do
    f x
    forEach f xs

/-- The results of `f` on each element, in order. -/
def collect (f : ι → Prog ε σ α) : List ι → Prog ε σ (List α)
  | [] => pure []
  | x :: xs => do
    let a ← f x
    return a :: (← collect f xs)

/-- The states that `collect` goes through are those of the loop. -/
theorem collect_snd (f : ι → Prog ε σ α) (is : List ι) (e : ε) (s : σ) :
    ((collect f is).run e s).2 = ((forEach (fun i => do let _ ← f i) is).run e s).2 := by
  induction is generalizing s with
  | nil => rfl
  | cons i is ih => exact ih _

/-- Running `m` from a state with `P` ends in a state with `P`. -/
def Keeps (P : σ → Prop) (m : Prog ε σ α) : Prop := ∀ e s, P s → P (m.run e s).2

section Keeps
variable {P : σ → Prop}

theorem keeps_pure (a : α) : Keeps P (pure a : Prog ε σ α) := fun _ _ h => h

theorem keeps_bind {m : Prog ε σ α} {f : α → Prog ε σ β} (hm : Keeps P m)
    (hf : ∀ a, Keeps P (f a)) : Keeps P (m >>= f) :=
  fun e s h => hf _ e _ (hm e s h)

theorem keeps_map {f : α → β} {m : Prog ε σ α} (hm : Keeps P m) : Keeps P (f <$> m) :=
  fun e s h => hm e s h

theorem keeps_ite {c : Prop} [Decidable c] {m n : Prog ε σ α} (hm : c → Keeps P m)
    (hn : ¬c → Keeps P n) : Keeps P (if c then m else n) := by
  split
  · exact hm ‹_›
  · exact hn ‹_›

/-- A loop of steps that keep `P` in one environment. -/
theorem firstError_keeps {f : ι → Prog ε σ Nat} {xs : List ι} {e : ε}
    (h : ∀ x ∈ xs, ∀ s, P s → P ((f x).run e s).2) {s : σ} (hs : P s) :
    P ((firstError f xs).run e s).2 := by
  induction xs generalizing s with
  | nil => exact hs
  | cons x xs ih =>
    have hx := h x List.mem_cons_self s hs
    rw [firstError_cons]
    split
    · exact hx
    · exact ih (fun y hy => h y (List.mem_cons_of_mem _ hy)) hx

theorem keeps_firstError {f : ι → Prog ε σ Nat} {xs : List ι}
    (h : ∀ x ∈ xs, Keeps P (f x)) : Keeps P (firstError f xs) :=
  fun e _ hs => firstError_keeps (fun x hx s hs => h x hx e s hs) hs

theorem keeps_forEach {f : ι → Prog ε σ Unit} (h : ∀ x, Keeps P (f x)) (xs : List ι) :
    Keeps P (forEach f xs) := by
  induction xs with
  | nil => exact keeps_pure ()
  | cons x xs ih => exact keeps_bind (h x) fun _ => ih

theorem keeps_collect {f : ι → Prog ε σ α} (h : ∀ x, Keeps P (f x)) (xs : List ι) :
    Keeps P (collect f xs) := by
  induction xs with
  | nil => exact keeps_pure []
  | cons x xs ih => exact keeps_bind (h x) fun _ => keeps_bind ih fun _ => keeps_pure _

theorem keeps_ask : Keeps P (ask : Prog ε σ ε) := fun _ _ h => h

theorem keeps_get : Keeps P (get : Prog ε σ σ) := fun _ _ h => h

end Keeps

/-- The loop comes to an element that stops it, past quiet ones only. -/
def Stopped (quiet stop : ι → Prop) : List ι → Prop
  | [] => False
  | x :: xs => quiet x ∧ (stop x ∨ Stopped quiet stop xs)

section Stopped
variable {f : ι → Prog ε σ Nat} {e : ε} {quiet stop : ι → Prop} {I P : σ → Prop} {xs : List ι} {s : σ}

/-- Quiet elements keep `P`, with small codes; then a stopped loop ends in an error and `P`. -/
theorem Stopped.error {b : Nat} (h : Stopped quiet stop xs)
    (hq : ∀ x s, quiet x → P s → P ((f x).run e s).2 ∧ ((f x).run e s).1 < b)
    (hs : ∀ x s, quiet x → stop x → ((f x).run e s).1 ≠ 0) (hP : P s) :
    P ((firstError f xs).run e s).2 ∧ ((firstError f xs).run e s).1 ≠ 0 ∧
      ((firstError f xs).run e s).1 < b := by
  induction xs generalizing s with
  | nil => exact h.elim
  | cons x xs ih =>
    obtain ⟨hx, h⟩ := h
    obtain ⟨hP', hb⟩ := hq x s hx hP
    rw [firstError_cons]
    split
    next herr => exact ⟨hP', herr, hb⟩
    next h0 =>
      rcases h with hstop | h
      · exact absurd (hs x s hx hstop) h0
      · exact ih h hP'

/-- A loop that is not stopped runs to its end, unless a loud element has made `P` true. -/
theorem ok_of_not_stopped (h : ¬Stopped quiet stop xs)
    (hq : ∀ x s, quiet x → ¬stop x → ((f x).run e s).1 = 0)
    (hl : ∀ x s, ¬quiet x → I s → P ((f x).run e s).2) (hm : ∀ x s, P s → P ((f x).run e s).2)
    (hI : ∀ x s, I s → I ((f x).run e s).2) (hs : I s) :
    ((firstError f xs).run e s).1 = 0 ∨ P ((firstError f xs).run e s).2 := by
  induction xs generalizing s with
  | nil => exact .inl rfl
  | cons x xs ih =>
    rw [firstError_cons]
    by_cases hx : quiet x
    · have hstop : ¬stop x := fun hs => h ⟨hx, .inl hs⟩
      rw [if_neg (not_not.mpr (hq x s hx hstop))]
      exact ih (fun hs => h ⟨hx, .inr hs⟩) (hI x s hs)
    · right
      have hP := hl x s hx hs
      split
      · exact hP
      · exact firstError_keeps (fun y _ s' => hm y s') hP

end Stopped

end Prog
