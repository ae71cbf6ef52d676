import HmCuda.General.Prog

/-! Traces of programs: which steps a run took and what each returned, when the state may also
move by itself between the steps. A loop that breaks at its first error leaves a trace whose
last result alone is an error. -/

namespace Prog
variable {ε σ ι κ : Type}

/-- From `s` to `s'` the programs `f` of the elements of `t` ran with the results in `t`, and
before, between and behind them the state moved by `R`. -/
inductive Trace (f : ι → Prog ε σ Nat) (R : σ → σ → Prop) (e : ε) :
    σ → List (ι × Nat) → σ → Prop
  | done {s s' : σ} (h : R s s') : Trace f R e s [] s'
  | step {s s₁ s' : σ} {x : ι} {t : List (ι × Nat)} (h : R s s₁)
      (ht : Trace f R e ((f x).run e s₁).2 t s') :
      Trace f R e s ((x, ((f x).run e s₁).1) :: t) s'

/-- The results in `t` are 0, or the last one is `code`, an error, and the others are. -/
inductive Ends : List (ι × Nat) → Nat → Prop
  | nil : Ends [] 0
  | ok {t : List (ι × Nat)} {code : Nat} (x : ι) (h : Ends t code) : Ends ((x, 0) :: t) code
  | error {code : Nat} (x : ι) (h : code ≠ 0) : Ends [(x, code)] code

section Trace
variable {f : ι → Prog ε σ Nat} {R : σ → σ → Prop} {e : ε} {s s₁ s' : σ} {t t' : List (ι × Nat)}

theorem Trace.before (hR : ∀ a b c, R a b → R b c → R a c) (h : R s s₁)
    (ht : Trace f R e s₁ t s') : Trace f R e s t s' := by
  cases ht with
  | done h' => exact .done (hR _ _ _ h h')
  | step h' ht => exact .step (hR _ _ _ h h') ht

theorem Trace.append (hR : ∀ a b c, R a b → R b c → R a c) (h : Trace f R e s t s₁)
    (h' : Trace f R e s₁ t' s') : Trace f R e s (t ++ t') s' := by
  induction h with
  | done h => exact h'.before hR h
  | step h _ ih => exact .step h (ih h')

end Trace

section Ends
variable {t t' pre post : List (ι × Nat)} {x : ι} {code c : Nat}

theorem Ends.single (x : ι) (c : Nat) : Ends [(x, c)] c := by
  rcases Nat.eq_zero_or_pos c with rfl | hpos
  · exact .ok x .nil
  · exact .error x (Nat.pos_iff_ne_zero.mp hpos)

theorem Ends.append (h : Ends t 0) (h' : Ends t' c) : Ends (t ++ t') c := by
  generalize hz : 0 = z at h
  induction h with
  | nil => exact h'
  | ok x _ ih => exact .ok x (ih hz)
  | error x hne => exact absurd hz.symm hne

theorem Ends.split (h : Ends t code) (ht : t = pre ++ (x, c) :: post) (hc : c ≠ 0) :
    post = [] ∧ code = c ∧ ∀ y ∈ pre, y.2 = 0 := by
  induction h generalizing pre with
  | nil => simp at ht
  | ok y _ ih =>
    rcases pre with _ | ⟨z, pre⟩
    · obtain ⟨hy, -⟩ := List.cons.inj ht
      exact absurd (Prod.mk.inj hy).2.symm hc
    · obtain ⟨rfl, htail⟩ := List.cons.inj ht
      obtain ⟨h1, h2, h3⟩ := ih htail
      exact ⟨h1, h2, List.forall_mem_cons.mpr ⟨rfl, h3⟩⟩
  | error y hne =>
    rcases pre with _ | ⟨z, pre⟩
    · obtain ⟨hy, hpost⟩ := List.cons.inj ht
      exact ⟨hpost.symm, (Prod.mk.inj hy).2, by simp⟩
    · have hlen := congrArg List.length ht
      simp at hlen

end Ends

section Loop
variable {f : ι → Prog ε σ Nat} {R : σ → σ → Prop} {e : ε}

/-- The loop that breaks at its first error, as a trace: it ran a prefix of its elements, and
all of them if there was no error. -/
theorem firstError_trace (hR : ∀ s, R s s) (xs : List ι) (s : σ) :
    ∃ t, Trace f R e s t ((firstError f xs).run e s).2 ∧ Ends t ((firstError f xs).run e s).1 ∧
      t.map Prod.fst <+: xs ∧ (((firstError f xs).run e s).1 = 0 → t.map Prod.fst = xs) := by
  induction xs generalizing s with
  | nil => exact ⟨[], .done (hR s), .nil, List.prefix_rfl, fun _ => rfl⟩
  | cons x xs ih =>
    rw [firstError_cons]
    by_cases h0 : ((f x).run e s).1 = 0
    · rw [if_neg (not_not.mpr h0)]
      obtain ⟨t, ht, hends, hpre, hall⟩ := ih ((f x).run e s).2
      refine ⟨(x, 0) :: t, h0 ▸ .step (hR s) ht, .ok x hends, List.prefix_cons_inj x |>.mpr hpre, ?_⟩
      intro hz
      rw [List.map_cons, hall hz]
    · rw [if_pos h0]
      exact ⟨[(x, ((f x).run e s).1)], .step (hR s) (.done (hR _)), .error x h0, ⟨xs, rfl⟩,
        fun hz => absurd hz h0⟩

theorem firstError_code {b : Nat} (hb : 0 < b) (h : ∀ x s, ((f x).run e s).1 < b) (xs : List ι)
    (s : σ) : ((firstError f xs).run e s).1 < b := by
  induction xs generalizing s with
  | nil => exact hb
  | cons x xs ih =>
    rw [firstError_cons]
    split
    · exact h x s
    · exact ih _

theorem firstError_map (g : κ → ι) (xs : List κ) (s : σ) :
    (firstError f (xs.map g)).run e s = (firstError (fun x => f (g x)) xs).run e s := by
  induction xs generalizing s with
  | nil => rfl
  | cons x xs ih => rw [List.map_cons, firstError_cons, firstError_cons, ih]

end Loop

end Prog
