import HmCuda.System.PinnedRoundTrip

/-! The translation of embedded pinned addresses, word by word. -/

namespace HmCuda

/-- What a word becomes: the backend's address of it, if it lies in a pinned buffer. -/
def patchWord (c : Context) (w : List UInt8) : List UInt8 :=
  match patchedWord c (Bytes.val w) with
  | some v => Bytes.le 8 v
  | none => w

/-- The `j`-th full word. -/
def wordAt (bs : List UInt8) (j : Nat) : List UInt8 := (bs.drop (8 * j)).take 8

section
variable {c : Context} {w bs : List UInt8} {v : Nat}

theorem patch_cons (c : Context) (hw : w.length = 8) (rest : List UInt8) :
    patchEmbeddedHostPtrs c (w ++ rest) = patchWord c w ++ patchEmbeddedHostPtrs c rest := by
  match w, hw with
  | [_, _, _, _, _, _, _, _], _ => rfl

theorem patch_short (c : Context) (h : bs.length < 8) : patchEmbeddedHostPtrs c bs = bs := by
  unfold patchEmbeddedHostPtrs
  split
  · simp only [List.length_cons] at h
    omega
  · rfl

theorem patchedWord_lt {x : Nat} (h : patchedWord c x = some v) : v < 2 ^ 64 := by
  obtain ⟨r, -, rfl⟩ := Option.map_eq_some_iff.mp h
  exact add64_lt r.realPtr (x - r.handle)

@[simp] theorem length_patchWord (hw : w.length = 8) : (patchWord c w).length = 8 := by
  unfold patchWord
  split
  · exact Bytes.length_le 8 _
  · exact hw

theorem patchWord_eq_iff (hw : w.length = 8) :
    patchWord c w = w ↔ ∀ v, patchedWord c (Bytes.val w) = some v → v = Bytes.val w := by
  unfold patchWord
  rcases hp : patchedWord c (Bytes.val w) with _ | v
  · simp
  constructor
  · rintro hle _ ⟨⟩
    rw [← hle, Bytes.val_le]
    exact (Nat.mod_eq_of_lt (patchedWord_lt hp)).symm
  · intro h
    rw [h v rfl]
    exact hw ▸ Bytes.le_val w

theorem wordAt_zero (hw : w.length = 8) (rest : List UInt8) : wordAt (w ++ rest) 0 = w := by
  rw [wordAt, Nat.mul_zero, List.drop_zero, ← hw, List.take_left]

theorem wordAt_succ (hw : w.length = 8) (rest : List UInt8) (j : Nat) :
    wordAt (w ++ rest) (j + 1) = wordAt rest j := by
  rw [wordAt, List.drop_append, List.drop_of_length_le (by omega), hw, List.nil_append]
  rfl

theorem words_induction {motive : List UInt8 → Prop} (short : ∀ bs, bs.length < 8 → motive bs)
    (word : ∀ w rest, w.length = 8 → motive rest → motive (w ++ rest)) (bs : List UInt8) :
    motive bs := by
  induction hn : bs.length using Nat.strong_induction_on generalizing bs with
  | _ n ih =>
    subst hn
    rcases Nat.lt_or_ge bs.length 8 with h | h
    · exact short bs h
    · rw [← List.take_append_drop 8 bs]
      refine word _ _ (List.length_take_of_le h) (ih _ ?_ _ rfl)
      rw [List.length_drop]
      omega

theorem patch_eq_iff : patchEmbeddedHostPtrs c bs = bs ↔
    ∀ j, 8 * j + 8 ≤ bs.length → ∀ v, patchedWord c (Bytes.val (wordAt bs j)) = some v →
      v = Bytes.val (wordAt bs j) := by
  induction bs using words_induction with
  | short bs h => exact ⟨fun _ j hj => by omega, fun _ => patch_short c h⟩
  | word w rest hw ih =>
    have hsplit : patchWord c w ++ patchEmbeddedHostPtrs c rest = w ++ rest ↔
        patchWord c w = w ∧ patchEmbeddedHostPtrs c rest = rest :=
      ⟨fun h => List.append_inj h (by rw [length_patchWord hw, hw]), fun h => by rw [h.1, h.2]⟩
    rw [patch_cons c hw, hsplit, patchWord_eq_iff hw, ih]
    constructor
    · rintro ⟨h0, hr⟩ (_ | j) hj
      · rwa [wordAt_zero hw]
      · rw [wordAt_succ hw]
        rw [List.length_append] at hj
        exact hr j (by omega)
    · intro h
      refine ⟨?_, fun j hj => ?_⟩
      · have h0 := h 0 (by rw [List.length_append]; omega)
        rwa [wordAt_zero hw] at h0
      · have hs := h (j + 1) (by rw [List.length_append]; omega)
        rwa [wordAt_succ hw] at hs

theorem patch_append {a : List UInt8} (b : List UInt8) (ha : a.length % 8 = 0) :
    patchEmbeddedHostPtrs c (a ++ b) = patchEmbeddedHostPtrs c a ++ patchEmbeddedHostPtrs c b := by
  induction a using words_induction with
  | short a hlt =>
    obtain rfl : a = [] := List.length_eq_zero_iff.mp (by omega)
    rfl
  | word w rest hw ih =>
    rw [List.length_append, hw, Nat.add_mod_left] at ha
    rw [List.append_assoc, patch_cons c hw, patch_cons c hw, ih ha, List.append_assoc]

theorem patch_getD {i : Nat} (h : 8 * (i / 8) + 8 ≤ bs.length →
    patchedWord c (Bytes.val (wordAt bs (i / 8))) = none) :
    (patchEmbeddedHostPtrs c bs).getD i 0 = bs.getD i 0 := by
  induction bs using words_induction generalizing i with
  | short bs hlt => rw [patch_short c hlt]
  | word w rest hw ih =>
    rw [patch_cons c hw]
    rw [List.length_append, hw] at h
    rcases Nat.lt_or_ge i 8 with hi | hi
    · have hzero : i / 8 = 0 := Nat.div_eq_of_lt hi
      rw [hzero, wordAt_zero hw] at h
      have hstay : patchWord c w = w := by
        rw [patchWord, h (by omega)]
      rw [hstay, List.getD_append _ _ _ _ (by omega), List.getD_append _ _ _ _ (by omega)]
    · have hdiv : i / 8 = (i - 8) / 8 + 1 := by omega
      rw [hdiv, wordAt_succ hw] at h
      rw [List.getD_append_right _ _ _ _ (by rw [length_patchWord hw]; exact hi),
        List.getD_append_right _ _ _ _ (by omega), length_patchWord hw, hw]
      exact ih fun hle => h (by omega)

/-- What a word becomes, by `hmcuda_res_get`. -/
def wordTranslation (c : Context) (w : List UInt8) : List UInt8 :=
  if c.resGet .hostMem (Bytes.val w) ≠ 0 then Bytes.le 8 (c.resGet .hostMem (Bytes.val w)) else w

/-- Each full word of the bytes translated once, and the bytes behind them. -/
def wholeTranslation (c : Context) (bs : List UInt8) : List UInt8 :=
  (List.range (bs.length / 8)).flatMap (fun j => wordTranslation c (wordAt bs j)) ++
    bs.drop (8 * (bs.length / 8))

def PinnedPlaced (c : Context) : Prop :=
  ∀ r ∈ c.resources .hostMem, r.realPtr ≠ 0 ∧ r.realPtr + r.size < 2 ^ 64

theorem wordTranslation_eq (h : PinnedPlaced c) (w : List UInt8) :
    wordTranslation c w = patchWord c w := by
  unfold wordTranslation patchWord patchedWord
  rw [Context.resGet_eq]
  rcases hf : c.resFind .hostMem (Bytes.val w) with _ | r
  · rfl
  · obtain ⟨h0, hwrap⟩ := h r (List.mem_of_find?_eq_some hf)
    have hcov : r.covers .hostMem (Bytes.val w) = true := by
      exact List.find?_some (p := Resource.covers .hostMem (Bytes.val w)) hf
    have hin : r.handle ≤ Bytes.val w ∧ Bytes.val w < add64 r.handle r.size := by
      simpa [Resource.covers, ResType.ranged] using hcov
    have hle : add64 r.handle r.size ≤ r.handle + r.size := Nat.mod_le _ _
    have hne : r.pointer .hostMem (Bytes.val w) ≠ 0 := by
      show add64 r.realPtr (Bytes.val w - r.handle) ≠ 0
      rw [add64_of_lt (by omega)]
      omega
    simp only [Option.map_some, Option.getD_some, ne_eq, hne, not_false_eq_true, if_true]

theorem patch_whole (h : PinnedPlaced c) (bs : List UInt8) :
    patchEmbeddedHostPtrs c bs = wholeTranslation c bs := by
  induction bs using words_induction with
  | short bs hlt =>
    rw [patch_short c hlt, wholeTranslation, Nat.div_eq_of_lt hlt]
    rfl
  | word w rest hw ih =>
    have hdiv : (w ++ rest).length / 8 = rest.length / 8 + 1 := by
      rw [List.length_append, hw]
      omega
    rw [patch_cons c hw, ih, wholeTranslation, wholeTranslation, hdiv, List.range_succ_eq_map,
      List.flatMap_cons, wordAt_zero hw, wordTranslation_eq h, List.flatMap_map, List.append_assoc]
    congr 2
    · apply List.flatMap_congr
      intro j _
      rw [wordAt_succ hw]
    · have hsucc : 8 * (rest.length / 8 + 1) = w.length + 8 * (rest.length / 8) := by omega
      rw [hsucc, List.drop_append, List.drop_of_length_le (Nat.le_add_right _ _), List.nil_append,
        Nat.add_sub_cancel_left]

end
end HmCuda
