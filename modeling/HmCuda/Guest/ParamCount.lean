import HmCuda.General.Nesting
import Mathlib.Data.List.Infix
import Mathlib.Data.List.TakeWhile

/-! The parameter count of a kernel (hmcuda_runtime.cpp): it is read off the demangled name,
between its first and its last parenthesis. -/

namespace HmCuda
open Nesting

def strchr (s : List Char) (c : Char) : Option Nat := s.findIdx? (· = c)

def strrchr (s : List Char) (c : Char) : Option Nat :=
  (s.reverse.findIdx? (· = c)).map (s.length - 1 - ·)

/-- The loop from `paren` to `end`. -/
def countCommas : Int → Nat → List Char → Nat
  | _, count, [] => count
  | depth, count, c :: cs =>
    if c = '<' ∨ c = '(' then countCommas (depth + 1) count cs
    else if c = '>' ∨ c = ')' then countCommas (depth - 1) count cs
    else if c = ',' ∧ depth = 0 then countCommas depth ((count + 1) % 2 ^ 32) cs
    else countCommas depth count cs

/-- `strncmp(paren, "void", 4) == 0` once the blanks are skipped. -/
def beginsVoid (s : List Char) : Bool := ['v', 'o', 'i', 'd'].isPrefixOf (s.dropWhile (· = ' '))

def countParams (demangled : List Char) : Nat :=
  match strchr demangled '(' with
  | none => 0
  | some i =>
    let paren := i + 1
    match strrchr demangled ')' with
    | none => 0
    | some e =>
      if e ≤ paren then 0
      else
        let count := countCommas 0 1 ((demangled.take e).drop paren)
        if count = 1 ∧ beginsVoid (demangled.drop paren) then 0 else count

/-- `count_params_from_mangled`, with `abi::__cxa_demangle`. -/
def countParamsFromMangled (demangle : List UInt8 → Option (List Char)) (mangled : List UInt8) :
    Nat :=
  match demangle mangled with
  | none => 0
  | some demangled => countParams demangled

/-! Demangled names -/

/-- The demangled name of a kernel: a qualified name and the types of its parameters. -/
structure Demangled where
  name : List Char
  params : List (List Char)
  name_balanced : balanced name = true
  params_balanced : ∀ t ∈ params, balanced t = true ∧ commas 0 t = 0 ∧ t ≠ []

namespace Demangled

def list (t : Demangled) : List Char := [',', ' '].intercalate t.params

def text (t : Demangled) : List Char := t.name ++ '(' :: (t.list ++ [')'])

/-- The number of parameters; the single type `void` means that there are none. -/
def arity (t : Demangled) : Nat := if t.params = [['v', 'o', 'i', 'd']] then 0 else t.params.length

/-- The condition under which the count is right. If the name has no parenthesis, the list must
not be one type that begins with `void`. If it has one, the commas behind the first parenthesis
of the name, as deep as its inside is, must happen to be as many as those of the list. -/
def Countable (t : Demangled) : Prop :=
  match t.name.dropWhile (· ≠ '(') with
  | [] => t.params.length < 2 ^ 32 ∧
      ¬(t.params.length = 1 ∧ t.params ≠ [['v', 'o', 'i', 'd']] ∧ beginsVoid t.list)
  | _ :: inner =>
    let commas := commas 0 inner + commas (depth inner + 1) t.list
    if commas % 2 ^ 32 = 0 ∧ beginsVoid inner then t.arity = 0
    else (commas + 1) % 2 ^ 32 = t.arity

end Demangled

theorem countCommas_eq (d : Int) {count : Nat} (h : count < 2 ^ 32) (s : List Char) :
    countCommas d count s = (count + commas d s) % 2 ^ 32 := by
  induction s generalizing d count with
  | nil => exact (Nat.mod_eq_of_lt h).symm
  | cons c s ih =>
    unfold countCommas commas weight
    split
    next hopen =>
      have hc : c ≠ ',' := by
        rintro rfl
        exact absurd hopen (by decide)
      rw [ih _ h, if_neg fun hd => hc hd.1, Nat.zero_add]
    next =>
      split
      next hclose =>
        have hc : c ≠ ',' := by
          rintro rfl
          exact absurd hclose (by decide)
        rw [ih _ h, if_neg fun hd => hc hd.1, Nat.zero_add, sub_eq_add_neg]
      next =>
        rw [add_zero]
        split
        · rw [ih _ (Nat.mod_lt _ (by decide)), Nat.mod_add_mod, Nat.add_assoc]
        · rw [ih _ h, Nat.zero_add]

theorem beginsVoid_append (s t : List Char) {c : Char} (hc : c ∉ [' ', 'v', 'o', 'i', 'd']) :
    beginsVoid (s ++ c :: t) = beginsVoid s := by
  simp only [List.mem_cons, List.not_mem_nil, or_false, not_or] at hc
  obtain ⟨h1, h2, h3, h4, h5⟩ := hc
  induction s with
  | nil => simp [beginsVoid, List.isPrefixOf, h1, Ne.symm h2]
  | cons a s ih =>
    by_cases ha : a = ' '
    · simpa [beginsVoid, ha] using ih
    · -- the word is compared here, and `c` is none of its letters
      rcases s with _ | ⟨b, _ | ⟨e, _ | ⟨f, s⟩⟩⟩
      all_goals simp [beginsVoid, List.isPrefixOf, ha, Ne.symm h3, Ne.symm h4, Ne.symm h5]

theorem strchr_first {pre : List Char} (rest : List Char) {c : Char} (h : c ∉ pre) :
    strchr (pre ++ c :: rest) c = some pre.length := by
  have hnone : pre.findIdx? (· = c) = none := by
    rw [List.findIdx?_eq_none_iff]
    exact fun x hx => decide_eq_false fun heq => h (heq ▸ hx)
  rw [strchr, List.findIdx?_append, hnone, List.findIdx?_cons]
  simp

theorem strrchr_last (s : List Char) (c : Char) : strrchr (s ++ [c]) c = some s.length := by
  simp [strrchr, List.findIdx?_cons]

/-- The count of a text whose first parenthesis is the one shown and which ends with one. -/
theorem countParams_split {pre inside : List Char} (hpre : '(' ∉ pre) :
    countParams (pre ++ '(' :: (inside ++ [')'])) =
      if inside = [] then 0
      else if (1 + commas 0 inside) % 2 ^ 32 = 1 ∧ beginsVoid inside then 0
      else (1 + commas 0 inside) % 2 ^ 32 := by
  have hend : strrchr (pre ++ '(' :: (inside ++ [')'])) ')' =
      some (pre.length + 1 + inside.length) := by
    have hlast := strrchr_last (pre ++ '(' :: inside) ')'
    rw [List.append_assoc, List.cons_append, List.length_append, List.length_cons] at hlast
    rw [hlast]
    exact congrArg some (by omega)
  have hdrop : (pre ++ '(' :: (inside ++ [')'])).drop (pre.length + 1) = inside ++ [')'] := by
    rw [← List.drop_drop, List.drop_left]
    rfl
  have hregion : ((pre ++ '(' :: (inside ++ [')'])).take (pre.length + 1 + inside.length)).drop
      (pre.length + 1) = inside := by
    rw [List.drop_take, hdrop, Nat.add_sub_cancel_left, List.take_left]
  unfold countParams
  rw [strchr_first _ hpre]
  dsimp only
  rw [hend]
  dsimp only
  rw [hregion, hdrop, countCommas_eq 0 (by decide), beginsVoid_append _ _ (by decide)]
  by_cases h0 : inside = []
  · rw [if_pos h0, if_pos (by simp [h0])]
  · have hpos := List.length_pos_of_ne_nil h0
    rw [if_neg h0, if_neg (by omega)]

namespace Demangled
variable {t : Demangled}

theorem list_eq_nil : t.list = [] ↔ t.params = [] := by
  unfold list
  rcases h : t.params with _ | ⟨u, ts⟩
  · simp
  · have hu := (t.params_balanced u (h ▸ List.mem_cons_self)).2.2
    rcases ts with _ | ⟨v, ts⟩
    · simpa using hu
    · simp

theorem commas_list (h : t.params ≠ []) : commas 0 t.list + 1 = t.params.length :=
  commas_intercalate (fun u hu => ⟨depth_balanced (t.params_balanced u hu).1,
    (t.params_balanced u hu).2.1⟩) h

theorem arity_of_ne (h : t.params ≠ [['v', 'o', 'i', 'd']]) : t.arity = t.params.length := if_neg h

theorem count_plain (h : '(' ∉ t.name) : countParams t.text = t.arity ↔
    t.params.length < 2 ^ 32 ∧
      ¬(t.params.length = 1 ∧ t.params ≠ [['v', 'o', 'i', 'd']] ∧ beginsVoid t.list) := by
  unfold text
  rw [countParams_split h]
  by_cases hnil : t.params = []
  · rw [if_pos (list_eq_nil.mpr hnil), arity, hnil]
    simp
  rw [if_neg fun h0 => hnil (list_eq_nil.mp h0), Nat.add_comm, commas_list hnil]
  have hpos := List.length_pos_of_ne_nil hnil
  by_cases hvoid : t.params = [['v', 'o', 'i', 'd']]
  · have hbegins : beginsVoid t.list = true := by
      unfold list
      rw [hvoid]
      decide
    rw [arity, if_pos hvoid, hvoid, hbegins]
    simp
  · rw [arity_of_ne hvoid]
    generalize t.params.length = n at hpos
    have hmod : n % 2 ^ 32 = n ↔ n < 2 ^ 32 := Nat.mod_eq_iff_lt (by decide)
    constructor
    · intro heq
      split at heq
      next => omega
      next hone =>
        have hlt := hmod.mp heq
        exact ⟨hlt, fun hn => hone ⟨heq.trans hn.1, hn.2.2⟩⟩
    · rintro ⟨hlt, hone⟩
      rw [hmod.mpr hlt, if_neg fun hn => hone ⟨hn.1, hvoid, hn.2⟩]

theorem count_nested {pre inner : List Char} (hname : t.name = pre ++ '(' :: inner)
    (hpre : '(' ∉ pre) : countParams t.text = t.arity ↔
      let commas := commas 0 inner + commas (depth inner + 1) t.list
      if commas % 2 ^ 32 = 0 ∧ beginsVoid inner then t.arity = 0
      else (commas + 1) % 2 ^ 32 = t.arity := by
  have htext : t.text = pre ++ '(' :: (inner ++ '(' :: t.list ++ [')']) := by
    rw [text, hname]
    simp
  have hinside : inner ++ '(' :: t.list ≠ [] := by simp
  have hcommas : commas 0 (inner ++ '(' :: t.list) =
      commas 0 inner + commas (depth inner + 1) t.list := by
    rw [commas_append, commas, zero_add]
    have hw : weight '(' = 1 := by decide
    rw [hw, if_neg fun hc => absurd hc.1 (by decide), Nat.zero_add]
  rw [htext, countParams_split hpre, if_neg hinside, beginsVoid_append _ _ (by decide), hcommas]
  dsimp only
  generalize commas 0 inner + commas (depth inner + 1) t.list = k
  have hone : (1 + k) % 2 ^ 32 = 1 ↔ k % 2 ^ 32 = 0 := by omega
  simp only [hone]
  split
  · exact eq_comm
  · rw [Nat.add_comm]

/-- The count is right exactly under the condition. -/
theorem count_iff (demangle : List UInt8 → Option (List Char)) (mangled : List UInt8)
    (t : Demangled) (h : demangle mangled = some t.text) :
    countParamsFromMangled demangle mangled = t.arity ↔ t.Countable := by
  unfold countParamsFromMangled Countable
  rw [h]
  dsimp only
  rcases hd : t.name.dropWhile (· ≠ '(') with _ | ⟨c, inner⟩
  · refine count_plain fun hin => ?_
    have hall := List.dropWhile_eq_nil_iff.mp hd _ hin
    simp at hall
  · have hname := List.takeWhile_append_dropWhile (p := (· ≠ '(')) (l := t.name)
    rw [hd] at hname
    have hc : c = '(' := by
      have hhead := List.head_dropWhile_not (p := (· ≠ '(')) (l := t.name) (by rw [hd]; simp)
      simp only [hd, List.head_cons] at hhead
      simpa using hhead
    subst hc
    refine count_nested hname.symm fun hin => ?_
    have htake := List.mem_takeWhile_imp hin
    simp at htake

end Demangled

/-! A kernel of four parameters, and three that are miscounted: `kernel(void*)`,
`(anonymous namespace)::kernel()` and `kernel<(Kind)1>(int*, int*)` -/

def vecAdd : Demangled where
  name := "vecAdd".toList
  params := ["float const*".toList, "float const*".toList, "float*".toList, "int".toList]
  name_balanced := by decide
  params_balanced := by decide

theorem count_iff_vecAdd : vecAdd.text = "vecAdd(float const*, float const*, float*, int)".toList ∧
    countParamsFromMangled (fun _ => some vecAdd.text) [] = 4 := by
  refine ⟨by decide, (Demangled.count_iff _ _ vecAdd rfl).mpr ?_⟩
  have hname : vecAdd.name.dropWhile (· ≠ '(') = [] := by decide
  rw [Demangled.Countable, hname]
  decide

def voidPtr : Demangled where
  name := "kernel".toList
  params := ["void*".toList]
  name_balanced := by decide
  params_balanced := by decide

def anonymous : Demangled where
  name := "(anonymous namespace)::kernel".toList
  params := []
  name_balanced := by decide
  params_balanced := by decide

def cast : Demangled where
  name := "kernel<(Kind)1>".toList
  params := ["int*".toList, "int*".toList]
  name_balanced := by decide
  params_balanced := by decide

theorem count_wrong : [voidPtr, anonymous, cast].map (·.arity) = [1, 0, 2] ∧
    [voidPtr, anonymous, cast].map (fun t => countParamsFromMangled (fun _ => some t.text) []) =
      [0, 1, 1] := by
  constructor <;> decide

end HmCuda
