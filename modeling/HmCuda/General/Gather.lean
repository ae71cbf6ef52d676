import Mathlib.Data.List.Nodup
import Mathlib.Logic.Function.Basic

/-! Values gathered from a list of places and scattered over it, in order: copies through a
vector of buffers, however the vector is cut. -/

namespace Gather
variable {A B : Type}

/-- The first `n` values of the places. -/
def gather (m : A → B) (as : List A) (n : Nat) : List B := (as.take n).map m

theorem length_gather (m : A → B) (as : List A) (n : Nat) :
    (gather m as n).length = min n as.length := by
  rw [gather, List.length_map, List.length_take]

theorem gather_append (m : A → B) (as cs : List A) (n : Nat) :
    gather m (as ++ cs) n = gather m as n ++ gather m cs (n - as.length) := by
  rw [gather, List.take_append, List.map_append]
  rfl

theorem gather_getElem? (m : A → B) (as : List A) {n i : Nat} (hi : i < n) :
    (gather m as n)[i]? = as[i]?.map m := by
  rw [gather, List.getElem?_map, List.getElem?_take_of_lt hi]

variable [DecidableEq A]

def scatter (m : A → B) : List A → List B → A → B
  | a :: as, b :: bs => scatter (Function.update m a b) as bs
  | _, _ => m

@[simp] theorem scatter_nil (m : A → B) (as : List A) : scatter m as [] = m := by
  cases as <;> rfl

theorem scatter_append (m : A → B) (as cs : List A) (bs : List B) :
    scatter m (as ++ cs) bs = scatter (scatter m as (bs.take as.length)) cs (bs.drop as.length) := by
  induction as generalizing m bs with
  | nil => rfl
  | cons a as ih =>
    cases bs with
    | nil => simp
    | cons b bs => exact ih (Function.update m a b) bs

theorem scatter_other {m : A → B} {as : List A} {bs : List B} {a : A}
    (h : a ∉ as.take bs.length) : scatter m as bs a = m a := by
  induction as generalizing m bs with
  | nil => rfl
  | cons c as ih =>
    cases bs with
    | nil => rfl
    | cons b bs =>
      rw [List.length_cons, List.take_succ_cons, List.mem_cons, not_or] at h
      exact (ih h.2).trans (Function.update_of_ne h.1 b m)

theorem gather_scatter (m : A → B) {as : List A} (h : as.Nodup) (bs : List B) :
    gather (scatter m as bs) as bs.length = bs.take as.length := by
  induction as generalizing m bs with
  | nil => simp [gather]
  | cons a as ih =>
    cases bs with
    | nil => rfl
    | cons b bs =>
      obtain ⟨ha, h⟩ := List.nodup_cons.mp h
      have hhead : scatter m (a :: as) (b :: bs) a = b := by
        rw [scatter, scatter_other fun hmem => ha (List.mem_of_mem_take hmem),
          Function.update_self]
      rw [gather, List.length_cons, List.take_succ_cons, List.map_cons, hhead, List.length_cons,
        List.take_succ_cons]
      exact congrArg (List.cons b) (ih (Function.update m a b) h bs)

theorem map_scatter (m : A → B) {as : List A} (h : as.Nodup) (bs : List B) :
    as.map (scatter m as bs) = bs.take as.length ++ (as.drop bs.length).map m := by
  have hsplit := congrArg (List.map (scatter m as bs)) (List.take_append_drop bs.length as)
  rw [List.map_append] at hsplit
  rw [← hsplit]
  refine congrArg₂ (· ++ ·) (gather_scatter m h bs) (List.map_congr_left fun a ha => ?_)
  exact scatter_other fun hmem => List.disjoint_take_drop h (Nat.le_refl _) hmem ha

end Gather
