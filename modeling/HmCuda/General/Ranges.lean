import Mathlib.Data.List.Pairwise

/-! Half-open ranges attached to the entries of a list. A list whose ranges lie apart
is a partial function of the addresses, however it is searched and whatever is removed. -/

namespace Ranges
variable {α : Type} (lo len : α → Nat)

def Inside (x : α) (a : Nat) : Prop := lo x ≤ a ∧ a < lo x + len x

instance (x : α) (a : Nat) : Decidable (Inside lo len x a) := inferInstanceAs (Decidable (_ ∧ _))

def Apart (l : List α) : Prop := l.Pairwise fun x y => ∀ a, Inside lo len x a → ¬Inside lo len y a

variable {lo len} {l : List α} {x y : α} {a : Nat}

instance : Std.Symm fun x y : α => ∀ a, Inside lo len x a → ¬Inside lo len y a :=
  ⟨fun _ _ h a hy hx => h a hx hy⟩

theorem Apart.eq (h : Apart lo len l) (hx : x ∈ l) (hy : y ∈ l) (hxa : Inside lo len x a)
    (hya : Inside lo len y a) : x = y := by
  by_contra hne
  exact (List.Pairwise.forall h hx hy hne) a hxa hya

theorem Apart.find?_eq (h : Apart lo len l) (hx : x ∈ l) (hxa : Inside lo len x a) :
    l.find? (fun y => decide (Inside lo len y a)) = some x := by
  rcases hf : l.find? (fun y => decide (Inside lo len y a)) with _ | y
  · exact absurd hxa (by simpa using List.find?_eq_none.mp hf x hx)
  · have hya := List.find?_some hf
    rw [h.eq hx (List.mem_of_find?_eq_some hf) hxa (by simpa using hya)]

theorem eraseP_congr {p q : α → Bool} (h : ∀ x ∈ l, p x = q x) : l.eraseP p = l.eraseP q := by
  induction l with
  | nil => rfl
  | cons x l ih =>
    rw [List.eraseP_cons, List.eraseP_cons, h x List.mem_cons_self,
      ih fun y hy => h y (List.mem_cons_of_mem _ hy)]

theorem find?_eraseP {p q : α → Bool} {x : α} (h : l.find? q = some x) (hx : p x = false) :
    (l.eraseP p).find? q = some x := by
  induction l with
  | nil => cases h
  | cons y l ih =>
    by_cases hq : q y = true
    · rw [List.find?_cons_of_pos hq] at h
      obtain rfl := Option.some.inj h
      rw [List.eraseP_cons_of_neg (by simp [hx]), List.find?_cons_of_pos hq]
    · rw [List.find?_cons_of_neg hq] at h
      by_cases hp : p y = true
      · rwa [List.eraseP_cons_of_pos hp]
      · rw [List.eraseP_cons_of_neg hp, List.find?_cons_of_neg hq]
        exact ih h

theorem find?_eraseP_of_not {p q : α → Bool} (h : ∀ x, p x = true → q x = false) :
    (l.eraseP p).find? q = l.find? q := by
  induction l with
  | nil => rfl
  | cons x l ih =>
    by_cases hp : p x = true
    · rw [List.eraseP_cons_of_pos hp, List.find?_cons_of_neg (by simp [h x hp])]
    · rw [List.eraseP_cons_of_neg hp, List.find?_cons, List.find?_cons, ih]

theorem eraseP_eq_filter {b : Nat} (h : (l.map lo).Nodup) :
    l.eraseP (lo · = b) = l.filter (lo · ≠ b) := by
  induction l with
  | nil => rfl
  | cons x l ih =>
    rw [List.map_cons, List.nodup_cons] at h
    by_cases hx : lo x = b
    · rw [List.eraseP_cons_of_pos (by simpa using hx), List.filter_cons_of_neg (by simpa using hx)]
      refine (List.filter_eq_self.mpr fun y hy => ?_).symm
      have hne : lo y ≠ b := fun hb => h.1 (List.mem_map.mpr ⟨y, hy, hb.trans hx.symm⟩)
      simpa using hne
    · rw [List.eraseP_cons_of_neg (by simpa using hx), List.filter_cons_of_pos (by simpa using hx),
        ih h.2]

theorem Apart.nodup (h : Apart lo len l) (hpos : ∀ x ∈ l, 0 < len x) : (l.map lo).Nodup := by
  induction l with
  | nil => exact List.nodup_nil
  | cons x l ih =>
    have hx := hpos x List.mem_cons_self
    have hcons := List.pairwise_cons.mp h
    rw [List.map_cons, List.nodup_cons]
    refine ⟨fun hm => ?_, ih hcons.2 fun y hy => hpos y (List.mem_cons_of_mem _ hy)⟩
    obtain ⟨y, hy, hlo⟩ := List.mem_map.mp hm
    have hypos := hpos y (List.mem_cons_of_mem _ hy)
    exact hcons.1 y hy (lo x) ⟨Nat.le_refl _, by omega⟩
      ⟨Nat.le_of_eq hlo, by omega⟩

end Ranges
