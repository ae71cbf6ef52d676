import HmCuda.General.Bytes

/-! Byte memories made of several address spaces, with range reads and writes. -/

abbrev ByteMem (S : Type) := S → Nat → UInt8

namespace ByteMem
variable {S : Type} [DecidableEq S]

def read (m : ByteMem S) (s : S) (a n : Nat) : List UInt8 :=
  (List.range n).map fun i => m s (a + i)

def write (m : ByteMem S) (s : S) (a : Nat) (bs : List UInt8) : ByteMem S := fun t b =>
  if t = s ∧ a ≤ b ∧ b < a + bs.length then bs.getD (b - a) 0 else m t b

omit [DecidableEq S] in
@[simp] theorem length_read (m : ByteMem S) (s : S) (a n : Nat) : (m.read s a n).length = n := by
  simp [read]

omit [DecidableEq S] in
theorem getD_read (m : ByteMem S) (s : S) {a n i : Nat} (hi : i < n) :
    (m.read s a n).getD i 0 = m s (a + i) := by
  rw [List.getD_eq_getElem _ _ (by simpa using hi)]
  simp [read]

theorem write_hit (m : ByteMem S) (s : S) {a : Nat} {bs : List UInt8} {i : Nat}
    (hi : i < bs.length) : m.write s a bs s (a + i) = bs.getD i 0 := by
  rw [write, if_pos ⟨rfl, Nat.le_add_right _ _, Nat.add_lt_add_left hi _⟩, Nat.add_sub_cancel_left]

theorem write_miss (m : ByteMem S) {s t : S} {a b : Nat} {bs : List UInt8}
    (h : ¬ (t = s ∧ a ≤ b ∧ b < a + bs.length)) : m.write s a bs t b = m t b := if_neg h

theorem write_space (m : ByteMem S) {s t : S} (a : Nat) (bs : List UInt8) (h : t ≠ s) :
    m.write s a bs t = m t := by
  funext b
  exact m.write_miss fun hc => h hc.1

@[simp] theorem write_nil (m : ByteMem S) (s : S) (a : Nat) : m.write s a [] = m := by
  funext t b
  exact m.write_miss (by simp)

theorem read_write (m : ByteMem S) (s : S) (a : Nat) (bs : List UInt8) :
    (m.write s a bs).read s a bs.length = bs := by
  apply List.ext_getElem
  · exact length_read _ s a _
  · intro i hi hi'
    rw [← List.getD_eq_getElem _ 0 hi, getD_read _ s hi', m.write_hit s hi',
      List.getD_eq_getElem _ _ hi']

theorem write_write (m : ByteMem S) (s : S) (a : Nat) (bs cs : List UInt8) :
    (m.write s a bs).write s (a + bs.length) cs = m.write s a (bs ++ cs) := by
  funext t b
  rcases eq_or_ne t s with rfl | hts
  · simp only [write, List.length_append, true_and]
    by_cases hb : a ≤ b ∧ b < a + (bs.length + cs.length)
    · rw [if_pos hb]
      rcases Nat.lt_or_ge (b - a) bs.length with hlt | hge
      · rw [if_neg (by omega), if_pos (by omega), List.getD_append _ _ _ _ hlt]
      · rw [if_pos (by omega), List.getD_append_right _ _ _ _ hge, Nat.sub_sub]
    · rw [if_neg (by omega), if_neg (by omega), if_neg hb]
  · rw [write_space _ _ _ hts, write_space _ _ _ hts, write_space _ _ _ hts]

omit [DecidableEq S] in
theorem read_congr {m m' : ByteMem S} {s : S} {a n : Nat} (h : ∀ i < n, m s (a + i) = m' s (a + i)) :
    m.read s a n = m'.read s a n :=
  List.map_congr_left fun i hi => h i (List.mem_range.mp hi)

end ByteMem
