import HmCuda.System.CallersHost
import Mathlib.Algebra.BigOperators.Group.Finset.Basic
import Mathlib.Algebra.Order.BigOperators.Group.Finset

/-! Callers of the driver come back: no deadlock, a bound on the steps that are left, and the
batches of a copy answered in order up to the first error. -/

namespace HmCuda.Callers

section Drain
variable {T Q A R : Type} [DecidableEq T] {B : Buffer T Q A R} {ok : Desc T Q → Prop}
  {s s' : St T Q A R}

/-- A step of the system while no further ioctl starts. -/
structure Settling (B : Buffer T Q A R) (ok : Desc T Q → Prop) (s s' : St T Q A R) : Prop where
  step : Step B ok s s'
  idle : ∀ t, s.pc t = .away → s'.pc t = .away

/-- Such a step in which no caller's pages fail to be pinned and no ring is full. -/
structure Going (B : Buffer T Q A R) (ok : Desc T Q → Prop) (s s' : St T Q A R) : Prop
    extends Settling B ok s s' where
  pinned : ∀ t q qs, s.pc t = .between (q :: qs) → s'.pc t ≠ .away
  queued : ∀ t q qs, s.pc t = .fresh q qs → s'.pc t ≠ .refused

/-- The steps a caller has left: twelve for a batch, four of which are the device's. -/
def Pc.work : Pc T Q → Nat
  | .away => 0
  | .refused => 1
  | .between qs => 12 * qs.length + 1
  | .reading _ qs => 12 * qs.length + 2
  | .got _ _ qs => 12 * qs.length + 3
  | .woken _ qs => 12 * qs.length + 4
  | .waiting _ qs => 12 * qs.length + 5
  | .added _ qs => 12 * qs.length + 6
  | .fresh _ qs => 12 * qs.length + 11
  | .locked _ qs => 12 * qs.length + 12

def Dev.work (v : Dev T Q A R) : Nat :=
  4 * v.avail.length + v.host.elim 0 (fun x => x.2.elim 3 fun _ => 2) + v.irqs

/-- The steps that the callers in `F` and the device have left. -/
def St.work (s : St T Q A R) (F : Finset T) : Nat := (∑ t ∈ F, (s.pc t).work) + s.dev.work

theorem work_lt {F : Finset T} {t : T} (ht : t ∈ F) {p : Pc T Q}
    (hpc : s'.pc = Function.update s.pc t p)
    (hlt : p.work + s'.dev.work < (s.pc t).work + s.dev.work) : s'.work F < s.work F := by
  have hrest : ∑ u ∈ F.erase t, (s'.pc u).work = ∑ u ∈ F.erase t, (s.pc u).work :=
    Finset.sum_congr rfl fun u hu => by
      rw [hpc, Function.update_of_ne (Finset.ne_of_mem_erase hu)]
  have h1 := Finset.add_sum_erase F (fun u => (s'.pc u).work) ht
  have h2 := Finset.add_sum_erase F (fun u => (s.pc u).work) ht
  have hp : (s'.pc t).work = p.work := by rw [hpc, Function.update_self]
  unfold St.work
  omega

theorem Settling.inside (h : Settling B ok s s') {F : Finset T}
    (hF : ∀ t, s.pc t ≠ .away → t ∈ F) (t : T) (ht : s'.pc t ≠ .away) : t ∈ F :=
  hF t fun h0 => ht (h.idle t h0)

theorem Settling.work_lt (h : Settling B ok s s') {F : Finset T}
    (hF : ∀ t, s.pc t ≠ .away → t ∈ F) : s'.work F < s.work F := by
  have moved {t : T} {p p' : Pc T Q} (hpc : s.pc t = p) (hne : p ≠ .away)
      (hpc' : s'.pc = Function.update s.pc t p')
      (hlt : p'.work + s'.dev.work < p.work + s.dev.work) : s'.work F < s.work F :=
    HmCuda.Callers.work_lt (hF t (by rw [hpc]; exact hne)) hpc' (by rwa [hpc])
  obtain ⟨step, idle⟩ := h
  cases step with
  | @enter t qs hpc =>
    have := idle t hpc
    simp [St.at] at this
  | leave hpc => exact moved hpc (by simp) rfl (by simp [St.at, Pc.work])
  | lock hpc hl => exact moved hpc (by simp) rfl (by simp [St.at, Pc.work]; omega)
  | reinit hpc => exact moved hpc (by simp) rfl (by simp [Pc.work, Dev.work])
  | add hpc hok => exact moved hpc (by simp) rfl (by simp [Pc.work, Dev.work]; omega)
  | addFails hpc => exact moved hpc (by simp) rfl (by simp [St.at, Pc.work])
  | unlockRefused hpc => exact moved hpc (by simp) rfl (by simp [St.at, Pc.work])
  | kick hpc => exact moved hpc (by simp) rfl (by simp [St.at, Pc.work])
  | wake hpc hd => exact moved hpc (by simp) rfl (by simp [Pc.work, Dev.work])
  | getBuf hpc => exact moved hpc (by simp) rfl (by simp [Pc.work, Dev.work])
  | unlock hpc => exact moved hpc (by simp) rfl (by simp [St.at, Pc.work])
  | read hpc hf => exact moved hpc (by simp) rfl (by simp [St.at, Pc.work])
  | readError hpc hf => exact moved hpc (by simp) rfl (by simp [St.at, Pc.work])
  | pop hav hh =>
    refine Nat.add_lt_add_left ?_ _
    simp only [Dev.work, hav, hh, List.length_cons, Option.elim]
    omega
  | process a hh =>
    refine Nat.add_lt_add_left ?_ _
    simp [Dev.work, hh]
  | push hh =>
    refine Nat.add_lt_add_left ?_ _
    simp only [Dev.work, hh, Option.elim]
    omega
  | callback hirq =>
    refine Nat.add_lt_add_left ?_ _
    simp only [Dev.work]
    omega

/-- No run without a new ioctl takes more steps than the callers and the device have left. -/
theorem settling_bound {F : Finset T} (f : Nat → St T Q A R) (k : Nat)
    (hF : ∀ t, (f 0).pc t ≠ .away → t ∈ F)
    (hf : ∀ i < k, Settling B ok (f i) (f (i + 1))) : k + (f k).work F ≤ (f 0).work F := by
  have key : ∀ i ≤ k, (∀ t, (f i).pc t ≠ .away → t ∈ F) ∧ i + (f i).work F ≤ (f 0).work F := by
    intro i hi
    induction i with
    | zero => exact ⟨hF, by rw [Nat.zero_add]⟩
    | succ i ih =>
      obtain ⟨hin, hle⟩ := ih (Nat.le_of_succ_le hi)
      have hlt := (hf i hi).work_lt hin
      exact ⟨(hf i hi).inside hin, by omega⟩
  exact (key k (Nat.le_refl k)).2

/-- A step of one caller, from `p` to `p'`, that is not a fault. -/
theorem going_at {t : T} {p p' : Pc T Q} (hpc : s.pc t = p) (step : Step B ok s s')
    (hpc' : s'.pc = Function.update s.pc t p') (hidle : p ≠ .away)
    (hpin : ∀ q qs, p = .between (q :: qs) → p' ≠ .away)
    (hadd : ∀ q qs, p = .fresh q qs → p' ≠ .refused) : Going B ok s s' := by
  have self : s'.pc t = p' := by rw [hpc', Function.update_self]
  have other {u : T} (hu : u ≠ t) : s'.pc u = s.pc u := by rw [hpc', Function.update_of_ne hu]
  refine ⟨⟨step, fun u hu => ?_⟩, fun u q qs hu => ?_, fun u q qs hu => ?_⟩
  all_goals by_cases hut : u = t
  · exact absurd (hpc.symm.trans (hut ▸ hu)) hidle
  · exact (other hut).trans hu
  · rw [hut, self]
    exact hpin q qs (hpc.symm.trans (hut ▸ hu))
  · rw [other hut, hu]
    exact nofun
  · rw [hut, self]
    exact hadd q qs (hpc.symm.trans (hut ▸ hu))
  · rw [other hut, hu]
    exact nofun

theorem going_device (step : Step B ok s s') (hpc : s'.pc = s.pc) : Going B ok s s' where
  step := step
  idle t ht := by rw [hpc, ht]
  pinned t q qs ht := by rw [hpc, ht]; exact nofun
  queued t q qs ht := by rw [hpc, ht]; exact nofun

theorem going_waiting [Inhabited A] {t : T} {d : Desc T Q} {qs : List Q}
    (hpc : s.pc t = .waiting d qs) (hd : InFlight B s.dev d) : ∃ s'', Going B ok s s'' := by
  rcases hd with hd | hd | ⟨a, hd⟩ | hd | hd
  all_goals
    have hr := hd.1
    rw [Dev.ring_eq] at hr
  · exact ⟨_, going_device (.pop hr.1 hr.2.1) rfl⟩
  · exact ⟨_, going_device (.process default hr.2.1) rfl⟩
  · exact ⟨_, going_device (.push hr.2.1) rfl⟩
  · exact ⟨_, going_device (.callback (by omega)) rfl⟩
  · exact ⟨_, going_at hpc (.wake hpc (by omega)) rfl nofun nofun nofun⟩

/-- While a caller is in an ioctl, somebody can go on. -/
theorem Inv.going [Inhabited A] (h : Inv B (fun _ => True) s) {t : T} (ht : s.pc t ≠ .away) :
    ∃ s'', Going B (fun _ => True) s s'' := by
  rcases hl : s.lock with _ | u
  · have hno : ¬(s.pc t).Holds := fun hh => by
      have := (h.holds t).mp hh
      rw [hl] at this
      cases this
    rcases hpc : s.pc t with _ | qs | _ | _ | _ | _ | _ | _ | _ | ⟨d, qs⟩
    all_goals rw [hpc] at hno
    case away => exact absurd hpc ht
    case between =>
      rcases qs with _ | ⟨q, qs⟩
      · exact ⟨_, going_at hpc (.leave hpc) rfl nofun nofun nofun⟩
      · exact ⟨_, going_at hpc (.lock hpc hl) rfl nofun nofun nofun⟩
    case reading =>
      by_cases hf : B.failed (s.dev.resp t)
      · exact ⟨_, going_at hpc (.readError hpc hf) rfl nofun nofun nofun⟩
      · exact ⟨_, going_at hpc (.read hpc hf) rfl nofun nofun nofun⟩
    all_goals exact absurd trivial hno
  · have hs := h.serving u hl
    have hu := (h.holds u).mpr hl
    rcases hpc : s.pc u with _ | _ | ⟨q, qs⟩ | ⟨q, qs⟩ | _ | ⟨d, qs⟩ | ⟨d, qs⟩ | ⟨d, qs⟩
      | ⟨d, g, qs⟩ | _
    all_goals rw [hpc] at hs hu
    case locked => exact ⟨_, going_at hpc (.reinit hpc) rfl nofun nofun nofun⟩
    case fresh => exact ⟨_, going_at hpc (.add hpc trivial) rfl nofun nofun nofun⟩
    case refused => exact ⟨_, going_at hpc (.unlockRefused hpc) rfl nofun nofun nofun⟩
    case added => exact ⟨_, going_at hpc (.kick hpc) rfl nofun nofun nofun⟩
    case waiting => exact going_waiting hpc hs.2
    case woken => exact ⟨_, going_at hpc (.getBuf hpc) rfl nofun nofun nofun⟩
    case got => exact ⟨_, going_at hpc (.unlock hpc) rfl nofun nofun nofun⟩
    all_goals exact absurd hu id

theorem Settling.inv (h : Relation.ReflTransGen (Settling B ok) s s') (hs : Inv B ok s) : Inv B ok s' := by
  induction h with
  | refl => exact hs
  | tail _ hstep ih => exact hstep.step.inv ih

/-- Nobody is in an ioctl, the lock is free, and the rings are empty. -/
structure AtRest (s : St T Q A R) : Prop where
  away : ∀ t, s.pc t = .away
  lock : s.lock = none
  rings : s.dev.ring = ([], none, [], 0, 0)

omit [DecidableEq T] in
theorem Inv.atRest (h : Inv B ok s) (haway : ∀ t, s.pc t = .away) : AtRest s := by
  have hl : s.lock = none := by
    rcases hl : s.lock with _ | t
    · rfl
    · have hh := (h.holds t).mpr hl
      rw [haway t] at hh
      exact absurd hh id
  exact ⟨haway, hl, (h.quiet hl).1⟩

/-- Once no further ioctl starts, the callers and the device are done after a bounded number
of steps, in any order, and none of them is stuck before: where nothing goes on any more, all
callers are back. -/
theorem callers_drain [Inhabited A] {resp : T → R} {F : Finset T}
    (h : Relation.ReflTransGen (Step B fun _ => True) (St.start resp) s)
    (hF : ∀ t, s.pc t ≠ .away → t ∈ F) :
    (∀ (f : Nat → St T Q A R) (k : Nat), f 0 = s →
      (∀ i < k, Settling B (fun _ => True) (f i) (f (i + 1))) → k ≤ s.work F) ∧
    ∀ s', Relation.ReflTransGen (Settling B fun _ => True) s s' →
      AtRest s' ∨ ∃ s'', Going B (fun _ => True) s' s'' := by
  refine ⟨fun f k h0 hf => ?_, fun s' hrun => ?_⟩
  · subst h0
    exact Nat.le_of_add_right_le (settling_bound f k hF hf)
  · have hinv := Settling.inv hrun (run_inv h)
    by_cases haway : ∀ t, s'.pc t = .away
    · exact .inl (hinv.atRest haway)
    · obtain ⟨t, ht⟩ := not_forall.mp haway
      exact .inr (hinv.going ht)

def wordBuffer : Buffer Unit Unit Nat Nat := ⟨0, fun _ a _ => a, fun _ a r => r = a, (· ≠ 0)⟩

def startedCopy : St Unit Unit Nat Nat :=
  let s : St Unit Unit Nat Nat := .start fun _ => 0
  { s.at () (.between [(), ()]) with dev :=
    { s.dev with resp := Function.update s.dev.resp () wordBuffer.zero } }

theorem callers_drain_oneCaller :
    (∀ (f : Nat → St Unit Unit Nat Nat) (k : Nat), f 0 = startedCopy →
      (∀ i < k, Settling wordBuffer (fun _ => True) (f i) (f (i + 1))) → k ≤ startedCopy.work {()}) ∧
    ∀ s', Relation.ReflTransGen (Settling wordBuffer fun _ => True) startedCopy s' →
      AtRest s' ∨ ∃ s'', Going wordBuffer (fun _ => True) s' s'' := by
  have h0 : Relation.ReflTransGen (Step wordBuffer fun _ => True) (St.start fun _ => 0)
      startedCopy := .single (.enter [(), ()] (t := ()) rfl)
  exact callers_drain h0 fun t _ => Finset.mem_singleton_self t

end Drain

/-! One caller beside the others: the device as it sees it answers one request at a time -/

section Solo
variable {T Q A R : Type} [DecidableEq T] {B : Buffer T Q A R} {ok : Desc T Q → Prop}
  {failed : A → Prop} {s s' : St T Q A R} {t : T}

def Dev.unanswered (v : Dev T Q A R) : List (Desc T Q) :=
  (v.host.elim [] fun x => x.2.elim [x.1] fun _ => []) ++ v.avail

/-- What a caller is about: where it is, its answers, and its requests without one. -/
structure Solo (T Q A : Type) where
  pc : Pc T Q
  answers : List (Desc T Q × A)
  unanswered : List (Desc T Q)

def St.solo (s : St T Q A R) (t : T) : Solo T Q A :=
  ⟨s.pc t, s.dev.answered.filter (·.1.owner = t), s.dev.unanswered.filter (·.owner = t)⟩

/-- A step of the system in which the caller `t` starts no further ioctl, its pages can be pinned
and the ring has room for its request; the others do what they like. -/
structure Unhindered (B : Buffer T Q A R) (ok : Desc T Q → Prop) (t : T) (s s' : St T Q A R) :
    Prop where
  step : Step B ok s s'
  idle : s.pc t = .away → s'.pc t = .away
  pinned : ∀ q qs, s.pc t = .between (q :: qs) → s'.pc t ≠ .away
  queued : ∀ q qs, s.pc t = .fresh q qs → s'.pc t ≠ .refused

theorem Going.unhindered (h : Going B ok s s') (t : T) : Unhindered B ok t s s' :=
  ⟨h.step, h.idle t, h.pinned t, h.queued t⟩

/-- A caller's steps, and its device's, in an ioctl without a fault. `failed` says which answers
carry a CUDA error. -/
inductive Solo.Step (failed : A → Prop) (x : Solo T Q A) : Solo T Q A → Prop where
  | leave (h : x.pc = .between []) : Solo.Step failed x { x with pc := .away }
  | lock {q : Q} {qs : List Q} (h : x.pc = .between (q :: qs)) :
      Solo.Step failed x { x with pc := .locked q qs }
  | reinit {q : Q} {qs : List Q} (h : x.pc = .locked q qs) :
      Solo.Step failed x { x with pc := .fresh q qs }
  | unlockRefused (h : x.pc = .refused) : Solo.Step failed x { x with pc := .away }
  | add {d : Desc T Q} {qs : List Q} (h : x.pc = .fresh d.req qs) :
      Solo.Step failed x ⟨.added d qs, x.answers, x.unanswered ++ [d]⟩
  | kick {d : Desc T Q} {qs : List Q} (h : x.pc = .added d qs) :
      Solo.Step failed x { x with pc := .waiting d qs }
  | answer {d : Desc T Q} {ds : List (Desc T Q)} (a : A) (h : x.unanswered = d :: ds) :
      Solo.Step failed x ⟨x.pc, x.answers ++ [(d, a)], ds⟩
  | wake {d : Desc T Q} {qs : List Q} (h : x.pc = .waiting d qs) (hu : x.unanswered = []) :
      Solo.Step failed x { x with pc := .woken d qs }
  | getBuf {d : Desc T Q} {qs : List Q} (h : x.pc = .woken d qs) (g : Option (Desc T Q)) :
      Solo.Step failed x { x with pc := .got d g qs }
  | unlock {d : Desc T Q} {g : Option (Desc T Q)} {qs : List Q} (h : x.pc = .got d g qs) :
      Solo.Step failed x { x with pc := .reading d qs }
  | read {d : Desc T Q} {qs : List Q} (h : x.pc = .reading d qs)
      (hr : ∀ a, (d, a) ∈ x.answers → ¬failed a) : Solo.Step failed x { x with pc := .between qs }
  | readError {d : Desc T Q} {qs : List Q} (h : x.pc = .reading d qs)
      (hr : ∀ a, (d, a) ∈ x.answers → failed a) : Solo.Step failed x { x with pc := .away }

/-- The requests and the answers in order, up to the first error: what a caller's batches
`qs` have come to, with the answers `new`. -/
structure Answered (failed : A → Prop) (qs : List Q) (new : List (Desc T Q × A)) : Prop where
  order : new.map (·.1.req) <+: qs
  fine : ∀ x ∈ new.dropLast, ¬failed x.2
  all : new.map (·.1.req) = qs ∨ ∃ x ∈ new.getLast?, failed x.2

def Ahead (failed : A → Prop) (qs : List Q) (new : List (Desc T Q × A)) (rest : List Q) : Prop :=
  new.map (·.1.req) ++ rest = qs ∧ ∀ x ∈ new, ¬failed x.2

/-- The last answer is `d`'s, the others are good, and these batches are left. -/
def Latest (failed : A → Prop) (qs : List Q) (new : List (Desc T Q × A)) (d : Desc T Q)
    (rest : List Q) : Prop :=
  ∃ fin a, new = fin ++ [(d, a)] ∧ Ahead failed qs fin (d.req :: rest)

/-- Where a caller is with the batches `qs` of its ioctl. -/
def Midway (failed : A → Prop) (qs : List Q) (new : List (Desc T Q × A))
    (unanswered : List (Desc T Q)) : Pc T Q → Prop
  | .away => unanswered = [] ∧ Answered failed qs new
  | .between r => unanswered = [] ∧ Ahead failed qs new r
  | .locked q r | .fresh q r => unanswered = [] ∧ Ahead failed qs new (q :: r)
  | .refused => False
  | .added d r | .waiting d r => (unanswered = [d] ∧ Ahead failed qs new (d.req :: r)) ∨
      (unanswered = [] ∧ Latest failed qs new d r)
  | .woken d r | .got d _ r | .reading d r => unanswered = [] ∧ Latest failed qs new d r

section Midway
variable {qs rest : List Q} {new : List (Desc T Q × A)} {d : Desc T Q} {a : A}
omit [DecidableEq T]

theorem Ahead.latest (h : Ahead failed qs new (d.req :: rest)) (a : A) :
    Latest failed qs (new ++ [(d, a)]) d rest := ⟨new, a, rfl, h⟩

theorem Latest.ahead (h : Latest failed qs new d rest) (hf : ∀ a, (d, a) ∈ new → ¬failed a) :
    Ahead failed qs new rest := by
  obtain ⟨fin, a, rfl, hreq, hgood⟩ := h
  refine ⟨by rw [List.map_append, List.append_assoc]; exact hreq, fun x hx => ?_⟩
  rcases List.mem_append.mp hx with hx | hx
  · exact hgood x hx
  · rw [List.mem_singleton.mp hx]
    exact hf a (List.mem_append_right _ (List.mem_singleton_self _))

theorem Latest.answered (h : Latest failed qs new d rest) (hf : ∀ a, (d, a) ∈ new → failed a) :
    Answered failed qs new := by
  obtain ⟨fin, a, rfl, hreq, hgood⟩ := h
  refine ⟨⟨rest, ?_⟩, ?_, .inr ⟨(d, a), ?_, hf a ?_⟩⟩
  · rw [List.map_append, List.append_assoc]
    exact hreq
  · rwa [List.dropLast_concat]
  · rw [List.getLast?_concat]
    rfl
  · exact List.mem_append_right _ (List.mem_singleton_self _)

theorem Ahead.answered (h : Ahead failed qs new []) : Answered failed qs new := by
  obtain ⟨hreq, hgood⟩ := h
  rw [List.append_nil] at hreq
  exact ⟨hreq ▸ List.prefix_rfl, fun x hx => hgood x (List.dropLast_subset _ hx), .inl hreq⟩

end Midway

/-- Since its ioctl began with the batches `qs` and the answers `old`. -/
def Solo.Since (failed : A → Prop) (old : List (Desc T Q × A)) (qs : List Q) (x : Solo T Q A) :
    Prop :=
  ∃ new, x.answers = old ++ new ∧ Midway failed qs new x.unanswered x.pc

omit [DecidableEq T] in
theorem Solo.Step.since {x y : Solo T Q A} {old : List (Desc T Q × A)} {qs : List Q}
    (step : Solo.Step failed x y) (h : x.Since failed old qs) : y.Since failed old qs := by
  obtain ⟨new, hans, hmid⟩ := h
  have mem {z : Desc T Q × A} (hz : z ∈ new) : z ∈ x.answers := by
    rw [hans]
    exact List.mem_append_right _ hz
  cases step with
  | leave hpc =>
    rw [hpc] at hmid
    exact ⟨new, hans, hmid.1, hmid.2.answered⟩
  | lock hpc | reinit hpc =>
    rw [hpc] at hmid
    exact ⟨new, hans, hmid⟩
  | unlockRefused hpc =>
    rw [hpc] at hmid
    exact absurd hmid id
  | add hpc =>
    rw [hpc] at hmid
    exact ⟨new, hans, .inl ⟨by rw [hmid.1]; rfl, hmid.2⟩⟩
  | kick hpc =>
    rw [hpc] at hmid
    exact ⟨new, hans, hmid⟩
  | @answer d ds a hu =>
    refine ⟨new ++ [(d, a)], by rw [hans, List.append_assoc], ?_⟩
    -- only a caller that waits has a request without an answer
    have none {p : Prop} (hn : x.unanswered = []) : p := by
      rw [hu] at hn
      cases hn
    rcases hpc : x.pc with _ | _ | _ | _ | _ | ⟨d', r⟩ | ⟨d', r⟩ | _ | _ | _
    all_goals rw [hpc] at hmid
    case added | waiting =>
      rcases hmid with ⟨hd, hah⟩ | ⟨hn, -⟩
      · obtain ⟨rfl, rfl⟩ := List.cons.inj (hu.symm.trans hd)
        exact .inr ⟨rfl, hah.latest a⟩
      · exact none hn
    case refused => exact hmid
    all_goals exact none hmid.1
  | wake hpc hu =>
    rw [hpc] at hmid
    rcases hmid with ⟨hd, -⟩ | hmid
    · rw [hu] at hd
      cases hd
    · exact ⟨new, hans, hmid⟩
  | getBuf hpc g | unlock hpc =>
    rw [hpc] at hmid
    exact ⟨new, hans, hmid⟩
  | read hpc hr =>
    rw [hpc] at hmid
    exact ⟨new, hans, hmid.1, hmid.2.ahead fun a ha => hr a (mem ha)⟩
  | readError hpc hr =>
    rw [hpc] at hmid
    exact ⟨new, hans, hmid.1, hmid.2.answered fun a ha => hr a (mem ha)⟩

theorem solo_of_ne {u : T} {p : Pc T Q} (hu : u ≠ t) (hpc : s'.pc = Function.update s.pc u p)
    (hans : s'.dev.answered = s.dev.answered) (hun : s'.dev.unanswered = s.dev.unanswered) :
    s'.solo t = s.solo t := by
  unfold St.solo
  rw [hpc, Function.update_of_ne hu.symm, hans, hun]

theorem solo_at {p : Pc T Q} (hpc : s'.pc = Function.update s.pc t p)
    (hans : s'.dev.answered = s.dev.answered) (hun : s'.dev.unanswered = s.dev.unanswered) :
    s'.solo t = { s.solo t with pc := p } := by
  unfold St.solo
  rw [hpc, Function.update_self, hans, hun]

omit [DecidableEq T] in
theorem Dev.unanswered_idle {v : Dev T Q A R} (hh : v.host = none) (hav : v.avail = []) :
    v.unanswered = [] := by
  rw [unanswered, hh, hav]
  rfl

theorem Unhindered.solo (h : Unhindered B ok t s s') (hs : Inv B ok s)
    (hfail : ∀ d a r, d.owner = t → ok d → (B.failed (B.write d a r) ↔ failed a)) :
    s'.solo t = s.solo t ∨ Solo.Step failed (s.solo t) (s'.solo t) := by
  -- the steps of a caller between two places in the driver
  have moves {u : T} {p : Pc T Q} (hpc : s'.pc = Function.update s.pc u p)
      (hans : s'.dev.answered = s.dev.answered) (hun : s'.dev.unanswered = s.dev.unanswered)
      (hstep : u = t → Solo.Step failed (s.solo t) { s.solo t with pc := p }) :
      s'.solo t = s.solo t ∨ Solo.Step failed (s.solo t) (s'.solo t) := by
    by_cases hu : u = t
    · subst hu
      right
      rw [solo_at hpc hans hun]
      exact hstep rfl
    · exact .inl (solo_of_ne hu hpc hans hun)
  -- what the caller reads shows the error of the answer to its request
  have shown {d : Desc T Q} {qs : List Q} {a : A} (hpc : s.pc t = .reading d qs)
      (ha : (d, a) ∈ (s.solo t).answers) : B.failed (s.dev.resp t) ↔ failed a := by
    obtain ⟨ho, hok, b, r, hr, hone⟩ := hs.read hpc
    rw [hr, (hone a).mp (List.mem_of_mem_filter ha)]
    exact hfail d b r ho hok
  obtain ⟨step, idle, pinned, queued⟩ := h
  cases step with
  | @enter u qs hpc =>
    refine .inl (solo_of_ne (p := .between qs) (fun hu => ?_) rfl rfl rfl)
    subst hu
    have hne : Function.update s.pc u (.between qs) u = .away := idle hpc
    rw [Function.update_self] at hne
    cases hne
  | @leave u qs hpc =>
    refine moves rfl rfl rfl fun hu => .leave ?_
    subst hu
    rcases qs with _ | ⟨q, qs⟩
    · exact hpc
    · exact absurd (Function.update_self _ _ _) (pinned q qs hpc)
  | @lock u q qs hpc hl => exact moves rfl rfl rfl fun hu => .lock (hu ▸ hpc)
  | @reinit u q qs hpc => exact moves rfl rfl rfl fun hu => .reinit (hu ▸ hpc)
  | @add u q qs hpc hok =>
    have hun : (s.dev.avail ++ [(⟨u, s.dev.next, q⟩ : Desc T Q)]).filter (·.owner = t) =
        s.dev.avail.filter (·.owner = t) ++ if u = t then [⟨u, s.dev.next, q⟩] else [] := by
      rw [List.filter_append, List.filter_singleton]
      simp
    by_cases hu : u = t
    · subst hu
      right
      convert Solo.Step.add (d := ⟨u, s.dev.next, q⟩) (x := s.solo u) hpc using 1
      rw [if_pos rfl] at hun
      simp only [St.solo, St.at, Function.update_self, Dev.unanswered, List.filter_append, hun,
        List.append_assoc]
    · left
      rw [if_neg hu, List.append_nil] at hun
      simp only [St.solo, St.at, Function.update_of_ne (Ne.symm hu), Dev.unanswered,
        List.filter_append, hun]
  | @addFails u q qs hpc =>
    refine .inl (solo_of_ne (p := .refused) (fun hu => ?_) rfl rfl rfl)
    subst hu
    exact absurd (Function.update_self _ _ _) (queued q qs hpc)
  | @unlockRefused u hpc => exact moves rfl rfl rfl fun hu => .unlockRefused (hu ▸ hpc)
  | @kick u d qs hpc => exact moves rfl rfl rfl fun hu => .kick (hu ▸ hpc)
  | @wake u d qs hpc hd =>
    refine moves rfl rfl rfl fun hu => .wake (hu ▸ hpc) ?_
    obtain ⟨hr, -⟩ := (hs.inFlight hpc).2.signalled (Nat.pos_iff_ne_zero.mp hd)
    rw [Dev.ring_eq] at hr
    show s.dev.unanswered.filter (·.owner = t) = []
    rw [Dev.unanswered_idle hr.2.1 hr.1]
    rfl
  | @getBuf u d qs hpc => exact moves rfl rfl rfl fun hu => .getBuf (hu ▸ hpc) _
  | @unlock u d g qs hpc => exact moves rfl rfl rfl fun hu => .unlock (hu ▸ hpc)
  | @read u d qs hpc hf =>
    refine moves rfl rfl rfl fun hu => .read (hu ▸ hpc) fun a ha => ?_
    subst hu
    exact (shown hpc ha).not.mp hf
  | @readError u d qs hpc hf =>
    refine moves rfl rfl rfl fun hu => .readError (hu ▸ hpc) fun a ha => ?_
    subst hu
    exact (shown hpc ha).mp hf
  | pop hav hh =>
    left
    simp only [St.solo, Dev.unanswered, hav, hh, Option.elim, List.nil_append,
      List.singleton_append]
  | @process d a hh =>
    by_cases hd : d.owner = t
    · right
      have hun : (s.solo t).unanswered = d :: s.dev.avail.filter (·.owner = t) := by
        simp [St.solo, Dev.unanswered, hh, hd]
      have hstep : Solo.Step failed (s.solo t) _ := .answer a hun
      convert hstep using 1
      simp [St.solo, Dev.unanswered, hd]
    · left
      simp [St.solo, Dev.unanswered, hh, hd]
  | push hh =>
    left
    simp only [St.solo, Dev.unanswered, hh, Option.elim]
  | callback hirq => exact .inl rfl

omit [DecidableEq T] in
theorem Inv.unanswered_owner (h : Inv B ok s) {d : Desc T Q} (hd : d ∈ s.dev.unanswered) :
    (s.pc d.owner).Holds := by
  have hb : s.dev.avail ≠ [] ∨ s.dev.host ≠ none ∨ 0 < s.dev.irqs := by
    by_contra hno
    obtain ⟨hav, hhost, -⟩ := not_or.mp hno |>.imp_right not_or.mp
    rw [Dev.unanswered_idle (not_not.mp hhost) (not_not.mp hav)] at hd
    cases hd
  obtain ⟨t, d', hl, ho, hd', -⟩ := h.busy hb
  have hq : d = d' := by
    rcases hd' with hd' | hd' | ⟨a, hd'⟩ | hd' | hd'
    all_goals
      have hr := hd'.1
      rw [Dev.ring_eq] at hr
      rw [Dev.unanswered, hr.1, hr.2.1] at hd
    · exact List.mem_singleton.mp hd
    · exact List.mem_singleton.mp hd
    all_goals cases hd
  exact (h.holds _).mpr (by rw [hq, ho, hl])

/-- However the callers interleave, the batches of a caller are answered in order up to the first
error that its buffer shows. -/
theorem batches_answered {resp : T → R} {qs : List Q}
    (hfail : ∀ d a r, d.owner = t → ok d → (B.failed (B.write d a r) ↔ failed a))
    (h : Relation.ReflTransGen (Step B ok) (St.start resp) s) (hpc : s.pc t = .between qs)
    (hrun : Relation.ReflTransGen (Unhindered B ok t) s s') (hend : s'.pc t = .away) :
    ∃ new, s'.dev.answered.filter (·.1.owner = t) =
      s.dev.answered.filter (·.1.owner = t) ++ new ∧ Answered failed qs new := by
  have hstart : (s.solo t).Since failed (s.dev.answered.filter (·.1.owner = t)) qs := by
    refine ⟨[], (List.append_nil _).symm, ?_⟩
    show Midway failed qs [] _ (s.pc t)
    rw [hpc]
    refine ⟨List.filter_eq_nil_iff.mpr fun d hd ho => ?_, rfl, fun x hx => by cases hx⟩
    have hh := (run_inv h).unanswered_owner hd
    rw [of_decide_eq_true ho, hpc] at hh
    exact hh
  have key : Inv B ok s' ∧ (s'.solo t).Since failed (s.dev.answered.filter (·.1.owner = t)) qs := by
    clear hend
    induction hrun with
    | refl => exact ⟨run_inv h, hstart⟩
    | @tail m m' _ hstep ih =>
      refine ⟨hstep.step.inv ih.1, ?_⟩
      rcases hstep.solo ih.1 hfail with heq | hs
      · rw [heq]
        exact ih.2
      · exact hs.since ih.2
  obtain ⟨new, hans, hmid⟩ := key.2
  have hmid : Midway failed qs new _ (s'.pc t) := hmid
  rw [hend] at hmid
  exact ⟨new, hans, hmid.2⟩

def Reply.Failed (a : Reply) : Prop := a.err % 2 ^ 32 ≠ 0

/-- However the callers interleave, the host answers the batches of a copy to the device or from it
in order, each once, until one is answered with an error or all are; then the copy returns. The
other callers queue what they like. -/
theorem callers_batches {t : Nat} {qs : List Request} {resp : Nat → Nat → UInt8}
    {s s' : St Nat Request Reply (Nat → UInt8)}
    (h : Relation.ReflTransGen (Step hostBuffer fun d => d.owner = t → d.req.Directed)
      (St.start resp) s) (hpc : s.pc t = .between qs)
    (hrun : Relation.ReflTransGen
      (Unhindered hostBuffer (fun d => d.owner = t → d.req.Directed) t) s s')
    (hend : s'.pc t = .away) :
    ∃ new, s'.dev.answered.filter (·.1.owner = t) =
      s.dev.answered.filter (·.1.owner = t) ++ new ∧ Answered Reply.Failed qs new :=
  batches_answered (fun _ _ f ho hd => failed_write (hd ho) f) h hpc hrun hend

/-- A copy of two batches from the device, the first of which is answered with an error, while a
second caller comes with a copy between devices. -/
theorem callers_batches_error : ∃ s s' : St Nat Request Reply (Nat → UInt8), ∃ qs new,
    s.pc 0 = .between qs ∧ qs.length = 2 ∧ s'.pc 0 = .away ∧
      s'.pc 1 = .between [.batch 40 3 [⟨.ram, 0, 16⟩]] ∧
      s'.dev.answered.filter (·.1.owner = 0) = s.dev.answered.filter (·.1.owner = 0) ++ new ∧
        Answered Reply.Failed qs new := by
  let ok : Desc Nat Request → Prop := fun d => d.owner = 0 → d.req.Directed
  let q : Request := .batch 40 2 [⟨.ram, 4096, 16⟩]
  let q' : Request := .batch 40 2 [⟨.ram, 8192, 16⟩]
  let d : Desc Nat Request := ⟨0, 0, q⟩
  let a : Reply := ⟨Cmd.code (.drv .cuMemcpy), 1, []⟩
  have h0 : Relation.ReflTransGen (Step hostBuffer ok)
      (St.start fun _ _ => 0 : St Nat Request Reply (Nat → UInt8)) _ :=
    .single (.enter [q, q'] (t := 0) rfl)
  have moves {s s' s'' : St Nat Request Reply (Nat → UInt8)} (p : Pc Nat Request)
      {p' : Pc Nat Request} (h : Relation.ReflTransGen (Unhindered hostBuffer ok 0) s s')
      (hpc : s'.pc 0 = p) (step : s'.pc 0 = p → Step hostBuffer ok s' s'')
      (hpc' : s''.pc = Function.update s'.pc 0 p') (hidle : p ≠ .away)
      (hpin : ∀ q qs, p = .between (q :: qs) → p' ≠ .away)
      (hadd : ∀ q qs, p = .fresh q qs → p' ≠ .refused) :
      Relation.ReflTransGen (Unhindered hostBuffer ok 0) s s'' :=
    h.tail ((going_at hpc (step hpc) hpc' hidle hpin hadd).unhindered 0)
  have device {s s' s'' : St Nat Request Reply (Nat → UInt8)}
      (h : Relation.ReflTransGen (Unhindered hostBuffer ok 0) s s') (step : Step hostBuffer ok s' s'')
      (hpc : s''.pc = s'.pc) : Relation.ReflTransGen (Unhindered hostBuffer ok 0) s s'' :=
    h.tail ((going_device step hpc).unhindered 0)
  have started {s s' : St Nat Request Reply (Nat → UInt8)}
      (_ : Relation.ReflTransGen (Step hostBuffer ok) s s') :
      Relation.ReflTransGen (Unhindered hostBuffer ok 0) s' s' := .refl
  have h1 := moves (.between [q, q']) (started h0) rfl (fun h => .lock h rfl) rfl nofun nofun nofun
  have h2 := moves (.locked q [q']) h1 rfl (fun h => .reinit h) rfl nofun nofun nofun
  have h3 := h2.tail ⟨.enter [.batch 40 3 [⟨.ram, 0, 16⟩]] (t := 1) rfl, nofun, nofun, nofun⟩
  have h4 := moves (.fresh q [q']) h3 rfl (fun h => .add h fun _ => .inr rfl) rfl nofun nofun nofun
  have h5 := moves (.added d [q']) h4 rfl (fun h => .kick h) rfl nofun nofun nofun
  have h6 := device h5 (.pop (show Dev.avail _ = [d] from rfl) rfl) rfl
  have h7 := device h6 (.process a (show Dev.host _ = some (d, none) from rfl)) rfl
  have h8 := device h7 (.push (show Dev.host _ = some (d, some a) from rfl)) rfl
  have h9 := device h8 (.callback Nat.zero_lt_one) rfl
  have h10 := moves (.waiting d [q']) h9 rfl (fun h => .wake h Nat.zero_lt_one) rfl nofun nofun nofun
  have h11 := moves (.woken d [q']) h10 rfl (fun h => .getBuf h) rfl nofun nofun nofun
  have h12 := moves (.got d (some d) [q']) h11 rfl (fun h => .unlock h) rfl nofun nofun nofun
  have failed : hostBuffer.failed (hostBuffer.write d a hostBuffer.zero) :=
    (failed_write (show q.Directed from .inr rfl) _).mpr (by decide)
  have h13 := moves (.reading d [q']) h12 rfl (fun h => .readError h failed) rfl nofun nofun nofun
  obtain ⟨new, hnew⟩ := callers_batches h0 (show St.pc _ 0 = .between [q, q'] from rfl) h13
    (show St.pc _ 0 = .away from rfl)
  exact ⟨_, _, [q, q'], new, rfl, rfl, rfl, rfl, hnew⟩

end Solo
end HmCuda.Callers
