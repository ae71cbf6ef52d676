import Mathlib.Data.List.Nodup
import Mathlib.Data.List.Range
import Mathlib.Logic.Function.Basic
import Mathlib.Logic.Relation

/-! Concurrent callers of the driver: one virtqueue, one completion and one mutex, which
a multi-batch copy drops between its batches. Callers, requests, answers and the contents of
response buffers are any. -/

namespace HmCuda.Callers

/-- A queued request: its caller, whose buffers it names, and when it was queued. -/
structure Desc (T Q : Type) where
  owner : T
  id : Nat
  req : Q

/-- Where a caller of `hmcuda_ioctl` is; `rest` are the batches still to do. -/
inductive Pc (T Q : Type) where
  | away
  | between (rest : List Q)
  | locked (q : Q) (rest : List Q)
  | fresh (q : Q) (rest : List Q)
  | refused
  | added (d : Desc T Q) (rest : List Q)
  | waiting (d : Desc T Q) (rest : List Q)
  | woken (d : Desc T Q) (rest : List Q)
  | got (d : Desc T Q) (g : Option (Desc T Q)) (rest : List Q)
  | reading (d : Desc T Q) (rest : List Q)

/-- The caller is between `mutex_lock` and `mutex_unlock`. -/
def Pc.Holds {T Q : Type} : Pc T Q → Prop
  | away | between _ | reading _ _ => False
  | locked _ _ | fresh _ _ | refused | added _ _ | waiting _ _ | woken _ _ | got _ _ _ => True

/-- The response buffer of a caller: what it is allocated with, what the host's writes for an
answer make of it, when it holds that answer, and when it shows a CUDA error. -/
structure Buffer (T Q A R : Type) where
  zero : R
  write : Desc T Q → A → R → R
  holds : Desc T Q → A → R → Prop
  failed : R → Prop

/-- The completion, the rings, the host's loop and the response buffers. `answered` and
`taken` are history: what the host has answered, and which caller took which element off
the used ring. -/
structure Dev (T Q A R : Type) where
  done : Nat
  avail : List (Desc T Q)
  host : Option (Desc T Q × Option A)
  used : List (Desc T Q)
  irqs : Nat
  resp : T → R
  next : Nat
  answered : List (Desc T Q × A)
  taken : List (T × Desc T Q)

structure St (T Q A R : Type) where
  pc : T → Pc T Q
  lock : Option T
  dev : Dev T Q A R

section Steps
variable {T Q A R : Type} [DecidableEq T]

def St.at (s : St T Q A R) (t : T) (p : Pc T Q) : St T Q A R := { s with pc := Function.update s.pc t p }

def St.start (resp : T → R) : St T Q A R :=
  ⟨fun _ => .away, none, ⟨0, [], none, [], 0, resp, 0, [], []⟩⟩

/-- The steps of the callers, of the host's loop, and of the interrupt callback, where the
requests that are queued meet `ok`. -/
inductive Step (B : Buffer T Q A R) (ok : Desc T Q → Prop) (s : St T Q A R) : St T Q A R → Prop where
  /-- An ioctl starts; a simple command is one request, a copy one for each batch. -/
  | enter {t : T} (qs : List Q) (h : s.pc t = .away) :
      Step B ok s { s.at t (.between qs) with dev := { s.dev with
        resp := Function.update s.dev.resp t B.zero } }
  /-- No batch is left, or the next one's pages cannot be pinned. -/
  | leave {t : T} {qs : List Q} (h : s.pc t = .between qs) : Step B ok s (s.at t .away)
  | lock {t : T} {q : Q} {qs : List Q} (h : s.pc t = .between (q :: qs)) (hl : s.lock = none) :
      Step B ok s { s.at t (.locked q qs) with lock := some t }
  | reinit {t : T} {q : Q} {qs : List Q} (h : s.pc t = .locked q qs) :
      Step B ok s { s.at t (.fresh q qs) with dev := { s.dev with done := 0 } }
  | add {t : T} {q : Q} {qs : List Q} (h : s.pc t = .fresh q qs) (hok : ok ⟨t, s.dev.next, q⟩) :
      Step B ok s { s.at t (.added ⟨t, s.dev.next, q⟩ qs) with dev := { s.dev with
        avail := s.dev.avail ++ [⟨t, s.dev.next, q⟩], next := s.dev.next + 1 } }
  | addFails {t : T} {q : Q} {qs : List Q} (h : s.pc t = .fresh q qs) :
      Step B ok s (s.at t .refused)
  | unlockRefused {t : T} (h : s.pc t = .refused) :
      Step B ok s { s.at t .away with lock := none }
  | kick {t : T} {d : Desc T Q} {qs : List Q} (h : s.pc t = .added d qs) :
      Step B ok s (s.at t (.waiting d qs))
  | wake {t : T} {d : Desc T Q} {qs : List Q} (h : s.pc t = .waiting d qs) (hd : 0 < s.dev.done) :
      Step B ok s { s.at t (.woken d qs) with dev := { s.dev with done := s.dev.done - 1 } }
  /-- The result of `virtqueue_get_buf` is dropped; it may be NULL. -/
  | getBuf {t : T} {d : Desc T Q} {qs : List Q} (h : s.pc t = .woken d qs) :
      Step B ok s { s.at t (.got d s.dev.used.head? qs) with dev := { s.dev with
        used := s.dev.used.tail
        taken := s.dev.taken ++ (s.dev.used.head?.map fun u => (t, u)).toList } }
  | unlock {t : T} {d : Desc T Q} {g : Option (Desc T Q)} {qs : List Q} (h : s.pc t = .got d g qs) :
      Step B ok s { s.at t (.reading d qs) with lock := none }
  /-- The caller reads its response buffer and goes on to the next batch. -/
  | read {t : T} {d : Desc T Q} {qs : List Q} (h : s.pc t = .reading d qs)
      (hf : ¬B.failed (s.dev.resp t)) : Step B ok s (s.at t (.between qs))
  | readError {t : T} {d : Desc T Q} {qs : List Q} (h : s.pc t = .reading d qs)
      (hf : B.failed (s.dev.resp t)) : Step B ok s (s.at t .away)
  | pop {d : Desc T Q} {ds : List (Desc T Q)} (h : s.dev.avail = d :: ds)
      (hh : s.dev.host = none) :
      Step B ok s { s with dev := { s.dev with avail := ds, host := some (d, none) } }
  /-- The host writes its answer over the descriptors of the element. -/
  | process {d : Desc T Q} (a : A) (h : s.dev.host = some (d, none)) :
      Step B ok s { s with dev := { s.dev with
        host := some (d, some a)
        resp := Function.update s.dev.resp d.owner (B.write d a (s.dev.resp d.owner))
        answered := s.dev.answered ++ [(d, a)] } }
  | push {d : Desc T Q} {a : A} (h : s.dev.host = some (d, some a)) :
      Step B ok s { s with dev := { s.dev with
        host := none, used := s.dev.used ++ [d], irqs := s.dev.irqs + 1 } }
  /-- The callback runs once for an element that was pushed. -/
  | callback (h : 0 < s.dev.irqs) :
      Step B ok s { s with dev := { s.dev with irqs := s.dev.irqs - 1, done := s.dev.done + 1 } }

def Settled (v : Dev T Q A R) : Prop :=
  v.answered.map (·.1) = v.taken.map (·.2) ∧ v.answered.map (·.1.id) = List.range v.next

/-- The newest request is `d` and the host has not answered it. -/
def Unanswered (v : Dev T Q A R) (d : Desc T Q) : Prop :=
  v.answered.map (·.1) = v.taken.map (·.2) ∧ v.answered.map (·.1.id) = List.range d.id ∧
    v.next = d.id + 1

/-- The buffer of the caller is what the host's writes for an answer to `d` left. -/
def Written (B : Buffer T Q A R) (v : Dev T Q A R) (d : Desc T Q) : Prop :=
  ∃ a, (d, a) ∈ v.answered ∧ ∃ r, v.resp d.owner = B.write d a r

def Untaken (B : Buffer T Q A R) (v : Dev T Q A R) (d : Desc T Q) : Prop :=
  v.answered.map (·.1) = v.taken.map (·.2) ++ [d] ∧
    v.answered.map (·.1.id) = List.range v.next ∧ Written B v d

def Dev.ring (v : Dev T Q A R) := (v.avail, v.host, v.used, v.irqs, v.done)

omit [DecidableEq T] in
theorem Dev.ring_eq (v : Dev T Q A R) {av us : List (Desc T Q)} {h : Option (Desc T Q × Option A)}
    {i n : Nat} : v.ring = (av, h, us, i, n) ↔
      v.avail = av ∧ v.host = h ∧ v.used = us ∧ v.irqs = i ∧ v.done = n := by
  simp only [Dev.ring, Prod.mk.injEq]

def Quiet (v : Dev T Q A R) : Prop := v.ring = ([], none, [], 0, 0) ∧ Settled v

/-- The request is queued, popped, answered, pushed, or signalled by the callback. -/
def InFlight (B : Buffer T Q A R) (v : Dev T Q A R) (d : Desc T Q) : Prop :=
  (v.ring = ([d], none, [], 0, 0) ∧ Unanswered v d) ∨
  (v.ring = ([], some (d, none), [], 0, 0) ∧ Unanswered v d) ∨
  (∃ a, v.ring = ([], some (d, some a), [], 0, 0) ∧ Untaken B v d) ∨
  (v.ring = ([], none, [d], 1, 0) ∧ Untaken B v d) ∨
  (v.ring = ([], none, [d], 0, 1) ∧ Untaken B v d)

/-- What the device is doing while a caller holds the lock. -/
def Serving (B : Buffer T Q A R) (v : Dev T Q A R) (t : T) : Pc T Q → Prop
  | .away | .between _ | .reading _ _ => False
  | .locked _ _ | .fresh _ _ | .refused => Quiet v
  | .added d _ | .waiting d _ => d.owner = t ∧ InFlight B v d
  | .woken d _ => d.owner = t ∧ v.ring = ([], none, [d], 0, 0) ∧ Untaken B v d
  | .got d g _ => d.owner = t ∧ g = some d ∧ Quiet v ∧ Written B v d

def Pc.request : Pc T Q → Option (Desc T Q)
  | .added d _ | .waiting d _ | .woken d _ | .got d _ _ | .reading d _ => some d
  | .away | .between _ | .locked _ _ | .fresh _ _ | .refused => none

structure Inv (B : Buffer T Q A R) (ok : Desc T Q → Prop) (s : St T Q A R) : Prop where
  holds : ∀ t, (s.pc t).Holds ↔ s.lock = some t
  quiet : s.lock = none → Quiet s.dev
  serving : ∀ t, s.lock = some t → Serving B s.dev t (s.pc t)
  reading : ∀ t d qs, s.pc t = .reading d qs → d.owner = t ∧ Written B s.dev d
  own : ∀ x ∈ s.dev.taken, x.1 = x.2.owner
  asked : ∀ t d, (s.pc t).request = some d → ok d

section Inv
variable {B : Buffer T Q A R} {ok : Desc T Q → Prop} {s s' : St T Q A R} {t : T} {p : Pc T Q}

omit [DecidableEq T] in
theorem Written.congr {v w : Dev T Q A R} {d : Desc T Q} (h : Written B v d)
    (hans : ∀ x ∈ v.answered, x ∈ w.answered) (hresp : w.resp d.owner = v.resp d.owner) :
    Written B w d := by
  obtain ⟨a, ha, r, hr⟩ := h
  exact ⟨a, hans _ ha, r, hresp.trans hr⟩

omit [DecidableEq T] in
theorem Serving.congr {v w : Dev T Q A R} (h : Serving B v t p)
    (hdev : w = { v with resp := w.resp }) (hresp : w.resp t = v.resp t) : Serving B w t p := by
  have written {d : Desc T Q} (ho : d.owner = t) (hd : Written B v d) : Written B w d :=
    hd.congr (fun x hx => by rw [hdev]; exact hx) (by rw [ho, hresp])
  have untaken {d : Desc T Q} (ho : d.owner = t) (hd : Untaken B v d) : Untaken B w d :=
    ⟨by rw [hdev]; exact hd.1, by rw [hdev]; exact hd.2.1, written ho hd.2.2⟩
  have ring : w.ring = v.ring := by rw [hdev]; rfl
  have quiet (hq : Quiet v) : Quiet w := by rw [hdev]; exact hq
  have inFlight {d : Desc T Q} (ho : d.owner = t) (hd : InFlight B v d) : InFlight B w d := by
    unfold InFlight
    rw [ring]
    have un (hu : Unanswered v d) : Unanswered w d := by rw [hdev]; exact hu
    rcases hd with hd | hd | ⟨a, hd⟩ | hd | hd
    · exact .inl (hd.imp_right un)
    · exact .inr (.inl (hd.imp_right un))
    · exact .inr (.inr (.inl ⟨a, hd.imp_right (untaken ho)⟩))
    · exact .inr (.inr (.inr (.inl (hd.imp_right (untaken ho)))))
    · exact .inr (.inr (.inr (.inr (hd.imp_right (untaken ho)))))
  cases p with
  | away | between | reading => exact h
  | locked | fresh | refused => exact quiet h
  | added | waiting => exact ⟨h.1, inFlight h.1 h.2⟩
  | woken => exact ⟨h.1, ring.trans h.2.1, untaken h.1 h.2.2⟩
  | got => exact ⟨h.1, h.2.1, quiet h.2.2.1, written h.1 h.2.2.2⟩

theorem Inv.outside (h : Inv B ok s) (h0 : ¬(s.pc t).Holds) (hp : ¬p.Holds)
    (hr : p.request = none) (hpc : s'.pc = Function.update s.pc t p) (hl : s'.lock = s.lock)
    (hdev : s'.dev = { s.dev with resp := s'.dev.resp })
    (hresp : ∀ u, u ≠ t → s'.dev.resp u = s.dev.resp u) : Inv B ok s' where
  holds u := by
    rw [hpc, hl]
    by_cases hu : u = t
    · subst hu
      have hl : s.lock ≠ some u := fun hl => h0 ((h.holds u).mpr hl)
      simp [hp, hl]
    · simpa [hu] using h.holds u
  quiet hn := by
    rw [hdev]
    exact h.quiet (hl ▸ hn)
  serving u hu := by
    rw [hl] at hu
    have hut : u ≠ t := by
      rintro rfl
      exact h0 ((h.holds u).mpr hu)
    rw [hpc, Function.update_of_ne hut]
    exact (h.serving u hu).congr hdev (hresp u hut)
  reading u d qs hu := by
    rw [hpc] at hu
    by_cases hut : u = t
    · subst hut
      rw [Function.update_self] at hu
      subst hu
      cases hr
    · rw [Function.update_of_ne hut] at hu
      obtain ⟨ho, hw⟩ := h.reading u d qs hu
      exact ⟨ho, hw.congr (fun x hx => by rw [hdev]; exact hx) (hresp _ (ho ▸ hut))⟩
  own := by
    rw [hdev]
    exact h.own
  asked u d hu := by
    rw [hpc] at hu
    by_cases hut : u = t
    · subst hut
      rw [Function.update_self, hr] at hu
      cases hu
    · rw [Function.update_of_ne hut] at hu
      exact h.asked u d hu

theorem Inv.inside (h : Inv B ok s) (hfree : ∀ u, s.lock = some u → u = t)
    (hpc : s'.pc = Function.update s.pc t p) (hl : s'.lock = none ∨ s'.lock = some t)
    (hp : p.Holds ↔ s'.lock = some t) (hresp : ∀ u, u ≠ t → s'.dev.resp u = s.dev.resp u)
    (hans : ∀ x ∈ s.dev.answered, x ∈ s'.dev.answered) (hq : s'.lock = none → Quiet s'.dev)
    (hs : s'.lock = some t → Serving B s'.dev t p)
    (hr : ∀ d qs, p = .reading d qs → d.owner = t ∧ Written B s'.dev d)
    (hown : ∀ x ∈ s'.dev.taken, x.1 = x.2.owner) (hok : ∀ d, p.request = some d → ok d) :
    Inv B ok s' where
  holds u := by
    rw [hpc]
    by_cases hu : u = t
    · subst hu
      rw [Function.update_self]
      exact hp
    · rw [Function.update_of_ne hu]
      have hno : ¬(s.pc u).Holds := fun hh => hu (hfree u ((h.holds u).mp hh))
      refine ⟨fun hh => absurd hh hno, fun hh => ?_⟩
      rcases hl with hl | hl
      · rw [hl] at hh
        cases hh
      · exact absurd (Option.some.inj (hh.symm.trans hl)) hu
  quiet := hq
  serving u hu := by
    obtain rfl : u = t := by
      rcases hl with hl | hl
      · rw [hl] at hu
        cases hu
      · exact Option.some.inj (hu.symm.trans hl)
    rw [hpc, Function.update_self]
    exact hs hu
  reading u d qs hu := by
    rw [hpc] at hu
    by_cases hut : u = t
    · subst hut
      rw [Function.update_self] at hu
      exact hr d qs hu
    · rw [Function.update_of_ne hut] at hu
      obtain ⟨ho, hw⟩ := h.reading u d qs hu
      exact ⟨ho, hw.congr hans (hresp _ (ho ▸ hut))⟩
  own := hown
  asked u d hu := by
    rw [hpc] at hu
    by_cases hut : u = t
    · subst hut
      rw [Function.update_self] at hu
      exact hok d hu
    · rw [Function.update_of_ne hut] at hu
      exact h.asked u d hu

omit [DecidableEq T] in
theorem Inv.lockedBy (h : Inv B ok s) (hh : (s.pc t).Holds) : s.lock = some t := (h.holds t).mp hh

omit [DecidableEq T] in
theorem Inv.at_pc (h : Inv B ok s) (hpc : s.pc t = p) (hp : p.Holds) :
    (s.pc t).Holds ∧ Serving B s.dev t p := by
  subst hpc
  exact ⟨hp, h.serving t (h.lockedBy hp)⟩

theorem Inv.holder (h : Inv B ok s) (hh : (s.pc t).Holds) (hp : p.Holds)
    (hpc : s'.pc = Function.update s.pc t p) (hl : s'.lock = s.lock)
    (hresp : s'.dev.resp = s.dev.resp) (hans : s'.dev.answered = s.dev.answered)
    (hs : Serving B s'.dev t p) (hown : ∀ x ∈ s'.dev.taken, x.1 = x.2.owner)
    (hok : ∀ d, p.request = some d → ok d) : Inv B ok s' := by
  have hlock := h.lockedBy hh
  have hl' : s'.lock = some t := hl.trans hlock
  refine h.inside (fun u hu => Option.some.inj (hu.symm.trans hlock)) hpc (.inr hl')
    ⟨fun _ => hl', fun _ => hp⟩ (fun u _ => by rw [hresp]) (fun x hx => by rwa [hans])
    (fun hn => ?_) (fun _ => hs) (fun d qs hr => ?_) hown hok
  · rw [hl'] at hn
    cases hn
  · subst hr
    exact absurd hp id

theorem Inv.device (h : Inv B ok s) (hl : s.lock = some t) (hpc : s'.pc = s.pc) (hl' : s'.lock = s.lock)
    (hresp : ∀ u, u ≠ t → s'.dev.resp u = s.dev.resp u)
    (hans : ∀ x ∈ s.dev.answered, x ∈ s'.dev.answered) (hs : Serving B s'.dev t (s.pc t))
    (htaken : s'.dev.taken = s.dev.taken) : Inv B ok s' := by
  have hh : (s.pc t).Holds := (h.holds t).mpr hl
  refine h.inside (p := s.pc t) (fun u hu => Option.some.inj (hu.symm.trans hl))
    (by rw [hpc, Function.update_eq_self]) (.inr (hl'.trans hl))
    ⟨fun _ => hl'.trans hl, fun _ => hh⟩ hresp hans (fun hn => ?_) (fun _ => hs) (fun d qs hr => ?_)
    (by rw [htaken]; exact h.own) (h.asked t)
  · rw [hl', hl] at hn
    cases hn
  · rw [hr] at hh
    exact absurd hh id

omit [DecidableEq T] in
theorem Inv.busy (h : Inv B ok s) (hb : s.dev.avail ≠ [] ∨ s.dev.host ≠ none ∨ 0 < s.dev.irqs) :
    ∃ t d, s.lock = some t ∧ d.owner = t ∧ InFlight B s.dev d ∧
      ∀ v : Dev T Q A R, InFlight B v d → Serving B v t (s.pc t) := by
  have notQuiet (hq : Quiet s.dev) : False := by
    have hd := hq.1
    rw [Dev.ring_eq] at hd
    rcases hb with hb | hb | hb
    · exact hb hd.1
    · exact hb hd.2.1
    · omega
  rcases hl : s.lock with _ | t
  · exact absurd (h.quiet hl) notQuiet
  have hs := h.serving t hl
  rcases hpc : s.pc t with _ | _ | _ | _ | _ | ⟨d, qs⟩ | ⟨d, qs⟩ | ⟨d, qs⟩ | ⟨d, g, qs⟩ | _
  all_goals rw [hpc] at hs
  case added | waiting =>
    refine ⟨t, d, rfl, hs.1, hs.2, fun v hd => ?_⟩
    rw [hpc]
    exact ⟨hs.1, hd⟩
  case woken =>
    have hd := hs.2.1
    rw [Dev.ring_eq] at hd
    rcases hb with hb | hb | hb
    · exact absurd hd.1 hb
    · exact absurd hd.2.1 hb
    · omega
  case got => exact absurd hs.2.2.1 notQuiet
  case locked | fresh | refused => exact absurd hs notQuiet
  case away | between | reading => exact absurd hs id

/-! The phase of a request, from what the device holds -/

section Phase
variable {v : Dev T Q A R} {d d' : Desc T Q} {ds : List (Desc T Q)} {a : A}
omit [DecidableEq T]

theorem InFlight.queued (h : InFlight B v d') (hav : v.avail = d :: ds) :
    d = d' ∧ ds = [] ∧ v.ring = ([d'], none, [], 0, 0) ∧ Unanswered v d' := by
  rcases h with h | h | ⟨a, h⟩ | h | h
  all_goals
    have hr := h.1
    rw [Dev.ring_eq] at hr
  case inl =>
    obtain ⟨hd, hds⟩ : d = d' ∧ ds = [] := by simpa using hav.symm.trans hr.1
    exact ⟨hd, hds, h⟩
  all_goals
    rw [hr.1] at hav
    cases hav

theorem InFlight.popped (h : InFlight B v d') (hh : v.host = some (d, none)) :
    d = d' ∧ v.ring = ([], some (d', none), [], 0, 0) ∧ Unanswered v d' := by
  rcases h with h | h | ⟨a, h⟩ | h | h
  all_goals
    have hr := h.1
    rw [Dev.ring_eq] at hr
  case inr.inl =>
    have he := hh.symm.trans hr.2.1
    exact ⟨(Prod.mk.inj (Option.some.inj he)).1, h⟩
  all_goals
    rw [hr.2.1] at hh
    cases hh

theorem InFlight.served (h : InFlight B v d') (hh : v.host = some (d, some a)) :
    d = d' ∧ v.ring = ([], some (d', some a), [], 0, 0) ∧ Untaken B v d' := by
  rcases h with h | h | ⟨b, h⟩ | h | h
  all_goals
    have hr := h.1
    rw [Dev.ring_eq] at hr
  case inr.inr.inl =>
    obtain ⟨hd, hb⟩ := Prod.mk.inj (Option.some.inj (hh.symm.trans hr.2.1))
    obtain rfl := Option.some.inj hb
    exact ⟨hd, h⟩
  all_goals
    rw [hr.2.1] at hh
    cases hh

theorem InFlight.pushed (h : InFlight B v d) (hirq : v.irqs ≠ 0) :
    v.ring = ([], none, [d], 1, 0) ∧ Untaken B v d := by
  rcases h with h | h | ⟨a, h⟩ | h | h
  all_goals
    have hr := h.1
    rw [Dev.ring_eq] at hr
  case inr.inr.inr.inl => exact h
  all_goals exact absurd hr.2.2.2.1 hirq

theorem InFlight.signalled (h : InFlight B v d) (hdone : v.done ≠ 0) :
    v.ring = ([], none, [d], 0, 1) ∧ Untaken B v d := by
  rcases h with h | h | ⟨a, h⟩ | h | h
  all_goals
    have hr := h.1
    rw [Dev.ring_eq] at hr
  case inr.inr.inr.inr => exact h
  all_goals exact absurd hr.2.2.2.2 hdone

end Phase

omit [DecidableEq T] in
theorem Settled.untaken {v w : Dev T Q A R} {d : Desc T Q} (hd : Untaken B v d)
    (ha : w.answered = v.answered) (ht : w.taken.map (·.2) = v.taken.map (·.2) ++ [d])
    (hn : w.next = v.next) : Settled w :=
  ⟨by rw [ha, ht, hd.1], by rw [ha, hn, hd.2.1]⟩

omit [DecidableEq T] in
theorem inv_start (resp : T → R) : Inv B ok (St.start resp : St T Q A R) where
  holds t := ⟨False.elim, fun h => by cases h⟩
  quiet _ := ⟨rfl, rfl, rfl⟩
  serving t h := by cases h
  reading t d qs h := by cases h
  own x hx := by cases hx
  asked t d h := by cases h

theorem Step.inv (step : Step B ok s s') (h : Inv B ok s) : Inv B ok s' := by
  cases step with
  | enter qs hpc =>
    exact h.outside (by rw [hpc]; exact id) id rfl rfl rfl rfl fun u hu =>
      Function.update_of_ne hu _ _
  | leave hpc | read hpc | readError hpc =>
    exact h.outside (by rw [hpc]; exact id) id rfl rfl rfl rfl fun _ _ => rfl
  | @lock t q qs hpc hl =>
    refine h.inside (fun u hu => ?_) rfl (.inr rfl) ⟨fun _ => rfl, fun _ => trivial⟩
      (fun _ _ => rfl) (fun _ hx => hx) (fun hn => by cases hn) (fun _ => h.quiet hl)
      (fun d qs hr => by cases hr) h.own fun d hd => by cases hd
    rw [hl] at hu
    cases hu
  | @reinit t q qs hpc =>
    obtain ⟨hh, hs⟩ := h.at_pc hpc trivial
    refine h.holder hh (p := .fresh q qs) trivial rfl rfl rfl rfl ⟨?_, hs.2⟩ h.own
      fun d hd => by cases hd
    have hd := hs.1
    rw [Dev.ring_eq] at hd ⊢
    exact ⟨hd.1, hd.2.1, hd.2.2.1, hd.2.2.2.1, rfl⟩
  | @add t q qs hpc hok =>
    obtain ⟨hh, hs⟩ := h.at_pc hpc trivial
    refine h.holder hh (p := .added ⟨t, s.dev.next, q⟩ qs) trivial rfl rfl rfl rfl
      ⟨rfl, .inl ⟨?_, hs.2.1, hs.2.2, rfl⟩⟩ h.own fun d hd => Option.some.inj hd ▸ hok
    have hd := hs.1
    rw [Dev.ring_eq] at hd ⊢
    exact ⟨by rw [hd.1]; rfl, hd.2.1, hd.2.2.1, hd.2.2.2.1, hd.2.2.2.2⟩
  | @addFails t q qs hpc =>
    obtain ⟨hh, hs⟩ := h.at_pc hpc trivial
    exact h.holder hh (p := .refused) trivial rfl rfl rfl rfl hs h.own fun d hd => by cases hd
  | @unlockRefused t hpc =>
    obtain ⟨hh, hs⟩ := h.at_pc hpc trivial
    have hl := h.lockedBy hh
    exact h.inside (fun u hu => Option.some.inj (hu.symm.trans hl)) rfl (.inl rfl)
      ⟨False.elim, fun hn => by cases hn⟩ (fun _ _ => rfl) (fun _ hx => hx) (fun _ => hs)
      (fun hn => by cases hn) (fun d qs hr => by cases hr) h.own fun d hd => by cases hd
  | @kick t d qs hpc =>
    obtain ⟨hh, hs⟩ := h.at_pc hpc trivial
    exact h.holder hh (p := .waiting d qs) trivial rfl rfl rfl rfl hs h.own
      (by simpa [hpc, Pc.request] using h.asked t)
  | @wake t d qs hpc hdone =>
    obtain ⟨hh, hs⟩ := h.at_pc hpc trivial
    obtain ⟨ho, hd⟩ := hs
    -- the completion counts only once the callback has run for this element
    obtain ⟨hr, hun⟩ := hd.signalled (Nat.pos_iff_ne_zero.mp hdone)
    refine h.holder hh (p := .woken d qs) trivial rfl rfl rfl rfl ⟨ho, ?_, hun⟩ h.own
      (by simpa [hpc, Pc.request] using h.asked t)
    rw [Dev.ring_eq] at hr ⊢
    exact ⟨hr.1, hr.2.1, hr.2.2.1, hr.2.2.2.1, by rw [hr.2.2.2.2]⟩
  | @getBuf t d qs hpc =>
    obtain ⟨hh, hs⟩ := h.at_pc hpc trivial
    obtain ⟨ho, hring, hd⟩ := hs
    have hr := hring
    rw [Dev.ring_eq] at hr
    refine h.holder hh (p := .got d s.dev.used.head? qs) trivial rfl rfl rfl rfl
      ⟨ho, by rw [hr.2.2.1]; rfl, ⟨?_, ?_⟩, hd.2.2⟩ ?_ (by simpa [hpc, Pc.request] using h.asked t)
    · rw [Dev.ring_eq]
      exact ⟨hr.1, hr.2.1, by rw [hr.2.2.1]; rfl, hr.2.2.2⟩
    · exact Settled.untaken hd rfl (by simp [hr.2.2.1]) rfl
    · intro x hx
      rw [hr.2.2.1] at hx
      rcases List.mem_append.mp hx with hx | hx
      · exact h.own x hx
      · obtain rfl : x = (t, d) := by simpa using hx
        exact ho.symm
  | @unlock t d g qs hpc =>
    obtain ⟨hh, hs⟩ := h.at_pc hpc trivial
    have hl := h.lockedBy hh
    obtain ⟨ho, -, hq, hres⟩ := hs
    refine h.inside (fun u hu => Option.some.inj (hu.symm.trans hl)) rfl (.inl rfl)
      ⟨False.elim, fun hn => by cases hn⟩ (fun _ _ => rfl) (fun _ hx => hx) (fun _ => hq)
      (fun hn => by cases hn) (fun d' qs' hr => ?_) h.own
      (by simpa [hpc, Pc.request] using h.asked t)
    obtain ⟨rfl, rfl⟩ := Pc.reading.inj hr
    exact ⟨ho, hres⟩
  | @pop d ds hav hh =>
    obtain ⟨t, d', hl, ho, hd, hserve⟩ := h.busy (.inl (by rw [hav]; simp))
    obtain ⟨rfl, rfl, hr, hun⟩ := hd.queued hav
    rw [Dev.ring_eq] at hr
    refine h.device hl rfl rfl (fun _ _ => rfl) (fun _ hx => hx) (hserve _ ?_) rfl
    exact .inr (.inl ⟨by rw [Dev.ring_eq]; exact ⟨rfl, rfl, hr.2.2⟩, hun⟩)
  | @process d a hh =>
    obtain ⟨t, d', hl, ho, hd, hserve⟩ := h.busy (.inr (.inl (by rw [hh]; simp)))
    obtain ⟨rfl, hr, hun⟩ := hd.popped hh
    rw [Dev.ring_eq] at hr
    refine h.device hl rfl rfl (fun u hu => ?_) (fun _ hx => List.mem_append_left _ hx)
      (hserve _ (.inr (.inr (.inl ⟨a, ?_, ?_, ?_, a, ?_, s.dev.resp d.owner, ?_⟩)))) rfl
    · exact Function.update_of_ne (ho ▸ hu) _ _
    · rw [Dev.ring_eq]
      exact ⟨hr.1, rfl, hr.2.2⟩
    · rw [List.map_append, hun.1]
      rfl
    · rw [List.map_append, hun.2.1, hun.2.2, List.range_succ]
      rfl
    · exact List.mem_append_right _ (List.mem_singleton_self _)
    · exact Function.update_self _ _ _
  | @push d a hh =>
    obtain ⟨t, d', hl, ho, hd, hserve⟩ := h.busy (.inr (.inl (by rw [hh]; simp)))
    obtain ⟨rfl, hr, hun⟩ := hd.served hh
    rw [Dev.ring_eq] at hr
    refine h.device hl rfl rfl (fun _ _ => rfl) (fun _ hx => hx) (hserve _ ?_) rfl
    refine .inr (.inr (.inr (.inl ⟨?_, hun⟩)))
    rw [Dev.ring_eq]
    exact ⟨hr.1, rfl, by rw [hr.2.2.1]; rfl, by rw [hr.2.2.2.1], hr.2.2.2.2⟩
  | callback hirq =>
    obtain ⟨t, d, hl, ho, hd, hserve⟩ := h.busy (.inr (.inr hirq))
    obtain ⟨hr, hun⟩ := hd.pushed (Nat.pos_iff_ne_zero.mp hirq)
    rw [Dev.ring_eq] at hr
    refine h.device hl rfl rfl (fun _ _ => rfl) (fun _ hx => hx) (hserve _ ?_) rfl
    refine .inr (.inr (.inr (.inr ⟨?_, hun⟩)))
    rw [Dev.ring_eq]
    exact ⟨hr.1, hr.2.1, hr.2.2.1, by rw [hr.2.2.2.1], by rw [hr.2.2.2.2]⟩

theorem run_inv {resp : T → R}
    (h : Relation.ReflTransGen (Step B ok) (St.start resp) s) : Inv B ok s := by
  induction h with
  | refl => exact inv_start resp
  | tail _ step ih => exact step.inv ih

def Pc.current : Pc T Q → Option (Desc T Q)
  | .added d _ | .waiting d _ | .woken d _ => some d
  | .away | .between _ | .locked _ _ | .fresh _ _ | .refused | .got _ _ _ | .reading _ _ => none

omit [DecidableEq T] in
theorem Inv.history (h : Inv B ok s) : (s.dev.answered.map (·.1.id)).Nodup ∧
    (s.dev.answered.map (·.1) = s.dev.taken.map (·.2) ∨
      ∃ t d, d.owner = t ∧ (s.pc t).current = some d ∧
        s.dev.answered.map (·.1) = s.dev.taken.map (·.2) ++ [d]) := by
  have settled (hs : Settled s.dev) : (s.dev.answered.map (·.1.id)).Nodup ∧
      s.dev.answered.map (·.1) = s.dev.taken.map (·.2) := ⟨by rw [hs.2]; exact List.nodup_range, hs.1⟩
  rcases hl : s.lock with _ | t
  · exact ⟨(settled (h.quiet hl).2).1, .inl (settled (h.quiet hl).2).2⟩
  have hs := h.serving t hl
  have untaken {d : Desc T Q} (ho : d.owner = t) (hc : (s.pc t).current = some d)
      (hd : Untaken B s.dev d) : (s.dev.answered.map (·.1.id)).Nodup ∧
        (s.dev.answered.map (·.1) = s.dev.taken.map (·.2) ∨
          ∃ t d, d.owner = t ∧ (s.pc t).current = some d ∧
            s.dev.answered.map (·.1) = s.dev.taken.map (·.2) ++ [d]) :=
    ⟨by rw [hd.2.1]; exact List.nodup_range, .inr ⟨t, d, ho, hc, hd.1⟩⟩
  have unanswered {d : Desc T Q} (hd : Unanswered s.dev d) :
      (s.dev.answered.map (·.1.id)).Nodup :=
    by rw [hd.2.1]; exact List.nodup_range
  rcases hpc : s.pc t with _ | _ | _ | _ | _ | ⟨d, qs⟩ | ⟨d, qs⟩ | ⟨d, qs⟩ | ⟨d, g, qs⟩ | _
  all_goals rw [hpc] at hs
  case added | waiting =>
    obtain ⟨ho, hd⟩ := hs
    have hc : (s.pc t).current = some d := by rw [hpc]; rfl
    rcases hd with hd | hd | ⟨a, hd⟩ | hd | hd
    · exact ⟨unanswered hd.2, .inl hd.2.1⟩
    · exact ⟨unanswered hd.2, .inl hd.2.1⟩
    · exact untaken ho hc hd.2
    · exact untaken ho hc hd.2
    · exact untaken ho hc hd.2
  case woken => exact untaken hs.1 (by rw [hpc]; rfl) hs.2.2
  case got => exact ⟨(settled hs.2.2.1.2).1, .inl (settled hs.2.2.1.2).2⟩
  case locked | fresh | refused => exact ⟨(settled hs.2).1, .inl (settled hs.2).2⟩
  case away | between | reading => exact absurd hs id

/-- What the callers can rely on. -/
structure Orderly (B : Buffer T Q A R) (s : St T Q A R) : Prop where
  /-- At most one request is on the rings or with the host. -/
  single : (s.dev.avail ++ (s.dev.host.map (·.1)).toList ++ s.dev.used).length ≤ 1
  /-- A woken caller's own current request has been answered. -/
  woken : ∀ t d qs, s.pc t = .woken d qs → d.owner = t ∧ ∃ a, (d, a) ∈ s.dev.answered
  /-- What a caller reads is the host's one answer to its request. -/
  reading : ∀ t d qs, s.pc t = .reading d qs → d.owner = t ∧
    ∃ a, B.holds d a (s.dev.resp t) ∧ ∀ b, (d, b) ∈ s.dev.answered ↔ b = a
  /-- `virtqueue_get_buf` returned the caller's own element. -/
  got : ∀ t d g qs, s.pc t = .got d g qs → d.owner = t ∧ g = some d
  /-- No response is taken by another caller, or twice. -/
  own : ∀ x ∈ s.dev.taken, x.1 = x.2.owner
  once : (s.dev.taken.map (·.2.id)).Nodup
  /-- No response is lost: its caller has taken it or is on the way to it. -/
  kept : ∀ x ∈ s.dev.answered, (x.1.owner, x.1) ∈ s.dev.taken ∨
    (s.pc x.1.owner).current = some x.1
  /-- No wake-up is lost: what a caller waits for is still to come. -/
  wakes : ∀ t d qs, s.pc t = .waiting d qs →
    d ∈ s.dev.avail ∨ (∃ x, s.dev.host = some (d, x)) ∨ 0 < s.dev.irqs ∨ 0 < s.dev.done

omit [DecidableEq T] in
theorem Inv.inFlight (h : Inv B ok s) {d : Desc T Q} {qs : List Q} (hpc : s.pc t = .waiting d qs) :
    d.owner = t ∧ InFlight B s.dev d := by
  have hs := h.serving t (h.lockedBy (by rw [hpc]; trivial))
  rw [hpc] at hs
  exact hs

omit [DecidableEq T] in
theorem Inv.single (h : Inv B ok s) :
    (s.dev.avail ++ (s.dev.host.map (·.1)).toList ++ s.dev.used).length ≤ 1 := by
  have of_ring {av us : List (Desc T Q)} {x : Option (Desc T Q × Option A)} {i n : Nat}
      (hr : s.dev.ring = (av, x, us, i, n))
      (hle : (av ++ (x.map (·.1)).toList ++ us).length ≤ 1) :
      (s.dev.avail ++ (s.dev.host.map (·.1)).toList ++ s.dev.used).length ≤ 1 := by
    rw [Dev.ring_eq] at hr
    rw [hr.1, hr.2.1, hr.2.2.1]
    exact hle
  rcases hl : s.lock with _ | t
  · exact of_ring (h.quiet hl).1 (Nat.zero_le _)
  have hs := h.serving t hl
  rcases hpc : s.pc t with _ | _ | _ | _ | _ | ⟨d, qs⟩ | ⟨d, qs⟩ | ⟨d, qs⟩ | ⟨d, g, qs⟩ | _
  all_goals rw [hpc] at hs
  case added | waiting =>
    rcases hs.2 with hd | hd | ⟨a, hd⟩ | hd | hd
    all_goals exact of_ring hd.1 (Nat.le_refl _)
  case woken => exact of_ring hs.2.1 (Nat.le_refl _)
  case got => exact of_ring hs.2.2.1.1 (Nat.zero_le _)
  case locked | fresh | refused => exact of_ring hs.1 (Nat.zero_le _)
  case away | between | reading => exact absurd hs id

omit [DecidableEq T] in
theorem Inv.read (h : Inv B ok s) {d : Desc T Q} {qs : List Q} (hpc : s.pc t = .reading d qs) :
    d.owner = t ∧ ok d ∧ ∃ a r, s.dev.resp t = B.write d a r ∧
      ∀ b, (d, b) ∈ s.dev.answered ↔ b = a := by
  obtain ⟨ho, a, ha, r, hr⟩ := h.reading t d qs hpc
  refine ⟨ho, h.asked t d (by rw [hpc]; rfl), a, r, ho ▸ hr, fun b => ⟨fun hb => ?_, ?_⟩⟩
  · exact (Prod.mk.inj (List.inj_on_of_nodup_map h.history.1 hb ha rfl)).2
  · exact fun hb => hb ▸ ha

omit [DecidableEq T] in
theorem Inv.orderly (h : Inv B ok s)
    (hland : ∀ d a r, ok d → B.holds d a (B.write d a r)) : Orderly B s where
  single := h.single
  woken t d qs hpc := by
    have hs := h.serving t (h.lockedBy (by rw [hpc]; trivial))
    rw [hpc] at hs
    obtain ⟨a, ha, -⟩ := hs.2.2.2.2
    exact ⟨hs.1, a, ha⟩
  reading t d qs hpc := by
    obtain ⟨ho, hok, a, r, hr, hone⟩ := h.read hpc
    exact ⟨ho, a, hr ▸ hland d a r hok, hone⟩
  got t d g qs hpc := by
    have hs := h.serving t (h.lockedBy (by rw [hpc]; trivial))
    rw [hpc] at hs
    exact ⟨hs.1, hs.2.1⟩
  own := h.own
  once := by
    obtain ⟨hnd, hh⟩ := h.history
    have hsub : (s.dev.taken.map (·.2)).Sublist (s.dev.answered.map (·.1)) := by
      rcases hh with hh | ⟨t, d, -, -, hh⟩
      · rw [hh]
      · rw [hh]
        exact List.sublist_append_left _ _
    have hids := hsub.map Desc.id
    rw [List.map_map, List.map_map] at hids
    exact hnd.sublist hids
  kept x hx := by
    have hmem : x.1 ∈ s.dev.answered.map (·.1) := List.mem_map_of_mem hx
    have taken (ht : x.1 ∈ s.dev.taken.map (·.2)) : (x.1.owner, x.1) ∈ s.dev.taken := by
      obtain ⟨y, hy, hyx⟩ := List.mem_map.mp ht
      have ho := h.own y hy
      rw [hyx] at ho
      rwa [← ho, ← hyx]
    rcases h.history.2 with hh | ⟨t, d, ho, hc, hh⟩
    · rw [hh] at hmem
      exact .inl (taken hmem)
    · rw [hh] at hmem
      rcases List.mem_append.mp hmem with hm | hm
      · exact .inl (taken hm)
      · rw [List.mem_singleton.mp hm, ho]
        exact .inr hc
  wakes t d qs hpc := by
    rcases (h.inFlight hpc).2 with hd | hd | ⟨a, hd⟩ | hd | hd
    all_goals
      have hr := hd.1
      rw [Dev.ring_eq] at hr
    · exact .inl (by rw [hr.1]; exact List.mem_singleton_self _)
    · exact .inr (.inl ⟨_, hr.2.1⟩)
    · exact .inr (.inl ⟨_, hr.2.1⟩)
    · exact .inr (.inr (.inl (by omega)))
    · exact .inr (.inr (.inr (by omega)))

end Inv
end Steps
end HmCuda.Callers
