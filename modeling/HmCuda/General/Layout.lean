import HmCuda.General.Bytes

/-! C structure layout: the offsets and sizes a compiler gives to a list of
scalar members, and reading or writing one member of a byte image. -/

namespace Layout

/-- A member type: a 32-bit or 64-bit word, or an array of `n` bytes. -/
inductive CTy where
  | u32
  | u64
  | bytes (n : Nat)
  deriving DecidableEq, Repr

def CTy.size : CTy → Nat
  | .u32 => 4
  | .u64 => 8
  | .bytes n => n

def CTy.align : CTy → Nat
  | .u32 => 4
  | .u64 => 8
  | .bytes _ => 1

theorem CTy.align_pos (t : CTy) : 0 < t.align := by
  cases t <;> simp [align]

abbrev CStruct := List CTy

structure Field where
  off : Nat
  size : Nat
  deriving DecidableEq, Repr

def Field.stop (f : Field) : Nat := f.off + f.size

def roundUp (n a : Nat) : Nat := (n + a - 1) / a * a

theorem le_roundUp (n : Nat) {a : Nat} (ha : 0 < a) : n ≤ roundUp n a := by
  unfold roundUp
  have h := Nat.div_add_mod (n + a - 1) a
  have hm := Nat.mod_lt (n + a - 1) ha
  rw [Nat.mul_comm] at h
  omega

def fieldsFrom : Nat → CStruct → List Field
  | _, [] => []
  | o, t :: ts =>
    let p := roundUp o t.align
    ⟨p, t.size⟩ :: fieldsFrom (p + t.size) ts

/-- Where the members end, before the trailing padding. -/
def stopFrom : Nat → CStruct → Nat
  | o, [] => o
  | o, t :: ts => stopFrom (roundUp o t.align + t.size) ts

def alignOf (s : CStruct) : Nat := (s.map CTy.align).foldr max 1

def sizeof (s : CStruct) : Nat := roundUp (stopFrom 0 s) (alignOf s)

def field (s : CStruct) (i : Nat) : Field := (fieldsFrom 0 s).getD i ⟨0, 0⟩

theorem alignOf_pos (s : CStruct) : 0 < alignOf s := by
  induction s with
  | nil => decide
  | cons t s ih => exact Nat.lt_of_lt_of_le ih (le_max_right _ _)

theorem le_stopFrom (o : Nat) (s : CStruct) : o ≤ stopFrom o s := by
  induction s generalizing o with
  | nil => exact le_rfl
  | cons t s ih =>
    have h := le_roundUp o t.align_pos
    exact (by omega : o ≤ roundUp o t.align + t.size).trans (ih _)

theorem stop_le_stopFrom {o : Nat} {s : CStruct} {f : Field} (h : f ∈ fieldsFrom o s) :
    f.stop ≤ stopFrom o s := by
  induction s generalizing o with
  | nil => simp [fieldsFrom] at h
  | cons t s ih =>
    rcases List.mem_cons.mp h with rfl | h
    · exact le_stopFrom _ s
    · exact ih h

theorem stop_le_sizeof (s : CStruct) (i : Nat) : (field s i).stop ≤ sizeof s := by
  by_cases hi : i < (fieldsFrom 0 s).length
  · have hm : field s i ∈ fieldsFrom 0 s := by
      rw [field, List.getD_eq_getElem _ _ hi]
      exact List.getElem_mem hi
    exact (stop_le_stopFrom hm).trans (le_roundUp _ (alignOf_pos s))
  · rw [field, List.getD_eq_default _ _ (by omega)]
    exact Nat.zero_le _

theorem length_fieldsFrom (o : Nat) (s : CStruct) : (fieldsFrom o s).length = s.length := by
  induction s generalizing o with
  | nil => rfl
  | cons t s ih => exact congrArg Nat.succ (ih _)

theorem le_off_of_mem {o : Nat} {s : CStruct} {f : Field} (h : f ∈ fieldsFrom o s) : o ≤ f.off := by
  induction s generalizing o with
  | nil => simp [fieldsFrom] at h
  | cons t s ih =>
    have hp := le_roundUp o t.align_pos
    rcases List.mem_cons.mp h with rfl | h
    · exact hp
    · exact (hp.trans (Nat.le_add_right _ _)).trans (ih h)

theorem fieldsFrom_pairwise (o : Nat) (s : CStruct) :
    (fieldsFrom o s).Pairwise fun f g => f.stop ≤ g.off := by
  induction s generalizing o with
  | nil => exact List.Pairwise.nil
  | cons t s ih => exact List.Pairwise.cons (fun _ hg => le_off_of_mem hg) (ih _)

theorem field_stop_le_off {s : CStruct} {i j : Nat} (hij : i < j) (hj : j < s.length) :
    (field s i).stop ≤ (field s j).off := by
  have hj' : j < (fieldsFrom 0 s).length := (length_fieldsFrom 0 s).symm ▸ hj
  have hi' : i < (fieldsFrom 0 s).length := hij.trans hj'
  rw [field, field, List.getD_eq_getElem _ _ hi', List.getD_eq_getElem _ _ hj']
  exact List.pairwise_iff_getElem.mp (fieldsFrom_pairwise 0 s) i j hi' hj' hij

/-- The value of a member in the byte image `h`. -/
def Field.get (f : Field) (h : Nat → UInt8) : Nat :=
  Bytes.val ((List.range f.size).map fun i => h (f.off + i))

def Field.set (f : Field) (v : Nat) (h : Nat → UInt8) : Nat → UInt8 := fun a =>
  if f.off ≤ a ∧ a < f.stop then (Bytes.le f.size v).getD (a - f.off) 0 else h a

theorem Field.get_lt (f : Field) (h : Nat → UInt8) : f.get h < 256 ^ f.size := by
  have hv := Bytes.val_lt ((List.range f.size).map fun i => h (f.off + i))
  simpa [Field.get] using hv

theorem Field.get_congr {f : Field} {h h' : Nat → UInt8}
    (he : ∀ a, f.off ≤ a → a < f.stop → h a = h' a) : f.get h = f.get h' := by
  unfold Field.get
  congr 1
  apply List.map_congr_left
  intro i hi
  exact he _ (Nat.le_add_right _ _) (Nat.add_lt_add_left (List.mem_range.mp hi) _)

theorem Field.get_set (f : Field) (v : Nat) (h : Nat → UInt8) :
    f.get (f.set v h) = v % 256 ^ f.size := by
  have hb : (List.range f.size).map (fun i => f.set v h (f.off + i)) = Bytes.le f.size v := by
    apply List.ext_getElem (by simp)
    intro i h1 h2
    have hi : i < f.size := by simpa using h1
    simp only [List.getElem_map, List.getElem_range, Field.set, Field.stop]
    rw [if_pos ⟨Nat.le_add_right _ _, Nat.add_lt_add_left hi _⟩, Nat.add_sub_cancel_left,
      List.getD_eq_getElem _ _ h2]
  rw [Field.get, hb, Bytes.val_le]

theorem Field.get_set_of_lt {f : Field} {v : Nat} (h : Nat → UInt8) (hv : v < 256 ^ f.size) :
    f.get (f.set v h) = v := by
  rw [Field.get_set, Nat.mod_eq_of_lt hv]

theorem Field.get_set_ne {f g : Field} (v : Nat) (h : Nat → UInt8)
    (hd : f.stop ≤ g.off ∨ g.stop ≤ f.off) : g.get (f.set v h) = g.get h := by
  apply Field.get_congr
  intro a h1 h2
  rw [Field.set, if_neg (by omega)]

end Layout
