import HmCuda.General.ByteMem
import Mathlib.Data.List.Nodup
import Mathlib.Data.List.Pairwise

/-! Copies that an engine finishes in any order. A copy moves its bytes when it
finishes, and a list of copies that do not overlap has one result whatever the
order, which `Covers` tracks while some of them are still pending. -/

namespace AsyncCopy
variable {S : Type} [DecidableEq S]

/-- A copy of `len` bytes between two addresses; `tag` is its queue. -/
structure Copy (S : Type) where
  dst : S × Nat
  src : S × Nat
  len : Nat
  tag : Nat
  deriving DecidableEq

namespace Copy

def run (c : Copy S) (m : ByteMem S) : ByteMem S :=
  m.write c.dst.1 c.dst.2 (m.read c.src.1 c.src.2 c.len)

def dsts (c : Copy S) : List (S × Nat) := (List.range c.len).map fun i => (c.dst.1, c.dst.2 + i)

def srcs (c : Copy S) : List (S × Nat) := (List.range c.len).map fun i => (c.src.1, c.src.2 + i)

def pairs (c : Copy S) : List ((S × Nat) × (S × Nat)) :=
  (List.range c.len).map fun i => ((c.dst.1, c.dst.2 + i), (c.src.1, c.src.2 + i))

omit [DecidableEq S] in
theorem map_fst_pairs (c : Copy S) : c.pairs.map Prod.fst = c.dsts := by
  simp [pairs, dsts, Function.comp_def]

omit [DecidableEq S] in
theorem map_snd_pairs (c : Copy S) : c.pairs.map Prod.snd = c.srcs := by
  simp [pairs, srcs, Function.comp_def]

theorem run_dst (c : Copy S) (m : ByteMem S) {i : Nat} (hi : i < c.len) :
    c.run m c.dst.1 (c.dst.2 + i) = m c.src.1 (c.src.2 + i) := by
  rw [run, ByteMem.write_hit _ _ (by simpa using hi), ByteMem.getD_read _ _ hi]

theorem run_other (c : Copy S) (m : ByteMem S) {s : S} {a : Nat} (h : (s, a) ∉ c.dsts) :
    c.run m s a = m s a := by
  apply ByteMem.write_miss
  rintro ⟨rfl, h1, h2⟩
  apply h
  rw [ByteMem.length_read] at h2
  exact List.mem_map.mpr ⟨a - c.dst.2, List.mem_range.mpr (by omega), by
    rw [Nat.add_sub_cancel' h1]⟩

end Copy

/-- The memory and the copies that were submitted and have not moved yet. -/
structure Engine (S : Type) where
  mem : ByteMem S
  pending : List (Copy S)

namespace Engine

/-- The `i`-th pending copy moves its bytes. -/
def finish (g : Engine S) (i : Nat) : Engine S :=
  match g.pending[i]? with
  | some c => ⟨c.run g.mem, g.pending.eraseIdx i⟩
  | none => g

def finishMany (g : Engine S) (is : List Nat) : Engine S := is.foldl finish g

def submit (g : Engine S) (c : Copy S) : Engine S := { g with pending := g.pending ++ [c] }

/-- Every pending copy of the queues in `q` moves its bytes, in order of submission. -/
def drain (g : Engine S) (q : Nat → Bool) : Engine S :=
  ⟨(g.pending.filter fun c => q c.tag).foldl (fun m c => c.run m) g.mem,
    g.pending.filter fun c => !q c.tag⟩

theorem finish_pending_subset (g : Engine S) (i : Nat) {c : Copy S}
    (h : c ∈ (g.finish i).pending) : c ∈ g.pending := by
  unfold finish at h
  split at h
  · exact List.mem_of_mem_eraseIdx h
  · exact h

theorem finishMany_pending_subset (g : Engine S) (is : List Nat) {c : Copy S}
    (h : c ∈ (g.finishMany is).pending) : c ∈ g.pending := by
  induction is generalizing g with
  | nil => exact h
  | cons i is ih => exact g.finish_pending_subset i (ih (g.finish i) h)

theorem finishMany_pending_length (g : Engine S) (is : List Nat) :
    (g.finishMany is).pending.length ≤ g.pending.length := by
  induction is generalizing g with
  | nil => exact le_rfl
  | cons i is ih =>
    refine (ih (g.finish i)).trans ?_
    unfold finish
    split
    · exact (List.eraseIdx_sublist g.pending i).length_le
    · exact le_rfl

theorem finishMany_idle {g : Engine S} (h : g.pending = []) (is : List Nat) :
    g.finishMany is = g := by
  induction is with
  | nil => rfl
  | cons i is ih =>
    have hfin : g.finish i = g := by rw [finish, h]; rfl
    show (g.finish i).finishMany is = g
    rw [hfin, ih]

theorem finishMany_other {g : Engine S} {s : S} {a : Nat} (h : ∀ c ∈ g.pending, (s, a) ∉ c.dsts)
    (is : List Nat) : (g.finishMany is).mem s a = g.mem s a := by
  induction is generalizing g with
  | nil => rfl
  | cons i is ih =>
    show ((g.finish i).finishMany is).mem s a = _
    rw [ih fun c hc => h c (g.finish_pending_subset i hc)]
    unfold finish
    split
    next c hc => exact c.run_other g.mem (h c (List.mem_of_getElem? hc))
    · rfl

theorem finish_pending {g : Engine S} {c : Copy S} {j : Nat} (h : g.pending[j]? = some c) {i : Nat}
    (hi : i < c.len) : (g.finish j).mem c.dst.1 (c.dst.2 + i) = g.mem c.src.1 (c.src.2 + i) := by
  simp only [finish, h]
  exact c.run_dst g.mem hi

end Engine

omit [DecidableEq S] in
instance : Std.Symm fun c d : Copy S => List.Disjoint c.dsts d.dsts :=
  ⟨fun _ _ h _ hx hy => h hy hx⟩

/-- Copies whose destinations are apart from each other and from every source. -/
structure Independent (cs : List (Copy S)) : Prop where
  apart : cs.Pairwise fun c d => List.Disjoint c.dsts d.dsts
  fixed : ∀ c ∈ cs, ∀ d ∈ cs, List.Disjoint c.srcs d.dsts

omit [DecidableEq S] in
theorem Independent.of_nodup {cs : List (Copy S)} (hn : (cs.flatMap Copy.dsts).Nodup)
    (hf : ∀ x ∈ cs.flatMap Copy.srcs, x ∉ cs.flatMap Copy.dsts) : Independent cs := by
  refine ⟨(List.nodup_flatMap.mp hn).2, fun c hc d hd x hx hy => ?_⟩
  exact hf x (List.mem_flatMap.mpr ⟨c, hc, hx⟩) (List.mem_flatMap.mpr ⟨d, hd, hy⟩)

/-- The destination of `c` holds the bytes its source held in `m₀`. -/
def Done (m₀ m : ByteMem S) (c : Copy S) : Prop :=
  ∀ p ∈ c.pairs, m p.1.1 p.1.2 = m₀ p.2.1 p.2.2

/-- Outside the destinations of `cs`, the spaces in `D` are as in `m₀`. -/
def Frame (D : S → Prop) (m₀ m : ByteMem S) (cs : List (Copy S)) : Prop :=
  ∀ s a, D s → (s, a) ∉ cs.flatMap Copy.dsts → m s a = m₀ s a

section Run
variable {D : S → Prop} {m₀ m : ByteMem S} {cs : List (Copy S)} {c d : Copy S}

theorem Frame.run (hf : Frame D m₀ m cs) (hc : c ∈ cs) : Frame D m₀ (c.run m) cs := by
  intro s a hs ha
  rw [c.run_other m fun h => ha (List.mem_flatMap.mpr ⟨c, hc, h⟩)]
  exact hf s a hs ha

theorem Done.self (hi : Independent cs) (hf : Frame D m₀ m cs) (hc : c ∈ cs) (hD : D c.src.1) :
    Done m₀ (c.run m) c := by
  intro p hp
  obtain ⟨i, hlt, rfl⟩ := List.mem_map.mp hp
  rw [List.mem_range] at hlt
  rw [c.run_dst m hlt]
  apply hf _ _ hD
  intro hmem
  obtain ⟨d, hd, hx⟩ := List.mem_flatMap.mp hmem
  exact hi.fixed c hc d hd (List.mem_map.mpr ⟨i, List.mem_range.mpr hlt, rfl⟩) hx

theorem Done.other (hi : Independent cs) (hc : c ∈ cs) (hd : d ∈ cs) (hne : d ≠ c)
    (h : Done m₀ m d) : Done m₀ (c.run m) d := by
  intro p hp
  rw [c.run_other m ?_]
  · exact h p hp
  intro hx
  have hdis := hi.apart.forall hd hc hne
  exact hdis (d.map_fst_pairs ▸ List.mem_map_of_mem hp) hx

end Run

/-- `g` is what some order of the submitted copies `cs` has made of `m₀` so far. -/
structure Covers (D : S → Prop) (m₀ : ByteMem S) (cs : List (Copy S)) (g : Engine S) : Prop where
  sub : ∀ c ∈ g.pending, c ∈ cs
  done : ∀ c ∈ cs, c ∈ g.pending ∨ Done m₀ g.mem c
  frame : Frame D m₀ g.mem cs

section Covers
variable {D : S → Prop} {m₀ : ByteMem S} {cs : List (Copy S)} {g : Engine S}

omit [DecidableEq S] in
theorem Covers.start (D : S → Prop) (g : Engine S) (h : g.pending = []) : Covers D g.mem [] g :=
  ⟨by simp [h], by simp, fun _ _ _ _ => rfl⟩

theorem Covers.finish (h : Covers D m₀ cs g) (hi : Independent cs)
    (hD : ∀ c ∈ cs, D c.src.1) (i : Nat) : Covers D m₀ cs (g.finish i) := by
  unfold Engine.finish
  split
  next c hc =>
    have hcp : c ∈ g.pending := List.mem_of_getElem? hc
    have hcs := h.sub c hcp
    refine ⟨fun d hd => h.sub d (List.mem_of_mem_eraseIdx hd), fun d hd => ?_,
      h.frame.run hcs⟩
    rcases eq_or_ne d c with rfl | hdc
    · exact .inr (Done.self hi h.frame hd (hD d hd))
    · rcases h.done d hd with hp | hdone
      · obtain ⟨j, hj⟩ := List.mem_iff_getElem?.mp hp
        refine .inl (List.mem_eraseIdx_iff_getElem?.mpr ⟨j, ?_, hj⟩)
        rintro rfl
        exact hdc (Option.some.inj (hj.symm.trans hc))
      · exact .inr (hdone.other hi hcs hd hdc)
  next => exact h

theorem Covers.finishMany (h : Covers D m₀ cs g) (hi : Independent cs)
    (hD : ∀ c ∈ cs, D c.src.1) (is : List Nat) : Covers D m₀ cs (g.finishMany is) := by
  induction is generalizing g with
  | nil => exact h
  | cons i is ih => exact ih (h.finish hi hD i)

omit [DecidableEq S] in
theorem Covers.submit (h : Covers D m₀ cs g) (c : Copy S) :
    Covers D m₀ (cs ++ [c]) (g.submit c) := by
  refine ⟨fun d hd => ?_, fun d hd => ?_, fun s a hs ha => ?_⟩
  · rcases List.mem_append.mp hd with hd | hd
    · exact List.mem_append_left _ (h.sub d hd)
    · exact List.mem_append_right _ hd
  · rcases List.mem_append.mp hd with hd | hd
    · exact (h.done d hd).imp_left (List.mem_append_left _)
    · exact .inl (List.mem_append_right _ hd)
  · exact h.frame s a hs fun hm => ha (by simp [List.flatMap_append, hm])

omit [DecidableEq S] in
/-- Writes outside `D` change nothing the copies depend on. -/
theorem Covers.outside (h : Covers D m₀ cs g) (hD : ∀ c ∈ cs, D c.dst.1) {m : ByteMem S}
    (hm : ∀ s, D s → m s = g.mem s) : Covers D m₀ cs { g with mem := m } := by
  refine ⟨h.sub, fun c hc => (h.done c hc).imp_right fun hd p hp => ?_, fun s a hs ha => ?_⟩
  · obtain ⟨i, -, rfl⟩ := List.mem_map.mp hp
    simpa only [hm _ (hD c hc)] using hd _ hp
  · simpa only [hm s hs] using h.frame s a hs ha

theorem run_all (hi : Independent cs) (hD : ∀ c ∈ cs, D c.src.1) {m : ByteMem S}
    (hf : Frame D m₀ m cs) (ds : List (Copy S)) (hds : ∀ d ∈ ds, d ∈ cs) :
    Frame D m₀ (ds.foldl (fun m c => c.run m) m) cs ∧
      ∀ c ∈ cs, (c ∈ ds ∨ Done m₀ m c) → Done m₀ (ds.foldl (fun m c => c.run m) m) c := by
  induction ds generalizing m with
  | nil => exact ⟨hf, fun c _ h => h.resolve_left (by simp)⟩
  | cons d ds ih =>
    have hd := hds d List.mem_cons_self
    obtain ⟨h1, h2⟩ := ih (hf.run hd) fun e he => hds e (List.mem_cons_of_mem _ he)
    refine ⟨h1, fun c hc h => h2 c hc ?_⟩
    rcases eq_or_ne c d with rfl | hcd
    · exact .inr (Done.self hi hf hc (hD c hc))
    · rcases h with h | h
      · exact .inl ((List.mem_cons.mp h).resolve_left hcd)
      · exact .inr (h.other hi hd hc hcd)

theorem Covers.drain (h : Covers D m₀ cs g) (hi : Independent cs) (hD : ∀ c ∈ cs, D c.src.1)
    (q : Nat → Bool) : Covers D m₀ cs (g.drain q) := by
  obtain ⟨h1, h2⟩ := run_all hi hD h.frame (g.pending.filter fun c => q c.tag)
    fun d hd => h.sub d (List.mem_filter.mp hd).1
  refine ⟨fun c hc => h.sub c (List.mem_filter.mp hc).1, fun c hc => ?_, h1⟩
  by_cases ht : q c.tag = true
  · exact .inr (h2 c hc ((h.done c hc).imp_left fun hp => List.mem_filter.mpr ⟨hp, ht⟩))
  · rcases h.done c hc with hp | hd
    · exact .inl (List.mem_filter.mpr ⟨hp, by simpa using ht⟩)
    · exact .inr (h2 c hc (.inr hd))

omit [DecidableEq S] in
theorem Covers.settled (h : Covers D m₀ cs g) (hp : g.pending = []) :
    ∀ p ∈ cs.flatMap Copy.pairs, g.mem p.1.1 p.1.2 = m₀ p.2.1 p.2.2 := by
  intro p hm
  obtain ⟨c, hc, hx⟩ := List.mem_flatMap.mp hm
  rcases h.done c hc with h | h
  · simp [hp] at h
  · exact h p hx

omit [DecidableEq S] in
theorem Independent.sublist {ds : List (Copy S)} (h : Independent cs) (hs : ds.Sublist cs) :
    Independent ds :=
  ⟨h.apart.sublist hs, fun c hc d hd => h.fixed c (hs.subset hc) d (hs.subset hd)⟩

theorem Covers.now (h : Covers D m₀ cs g) {c : Copy S} (hi : Independent (cs ++ [c]))
    (hD : ∀ d ∈ cs ++ [c], D d.src.1) : Covers D m₀ (cs ++ [c]) { g with mem := c.run g.mem } := by
  have hf := (h.submit c).finish hi hD g.pending.length
  have hlast : (g.pending ++ [c])[g.pending.length]? = some c := by simp
  have herase : (g.pending ++ [c]).eraseIdx g.pending.length = g.pending := by
    rw [List.eraseIdx_append_of_length_le (Nat.le_refl _), Nat.sub_self]
    simp
  simp only [Engine.finish, Engine.submit, hlast, herase] at hf
  exact hf

end Covers

/-- `x` writes neither end of `c`. -/
def Copy.Spares (x c : Copy S) : Prop := ∀ p ∈ c.dsts ++ c.srcs, p ∉ x.dsts

def Copy.Apart (c : Copy S) : Prop := ∀ p ∈ c.srcs, p ∉ c.dsts

/-- `bs` is on its way by `c`, which nothing else that is pending disturbs, or has arrived. -/
structure Arriving (c : Copy S) (bs : List UInt8) (g : Engine S) : Prop where
  apart : c.Apart
  spared : ∀ x ∈ g.pending, x = c ∨ x.Spares c
  src : g.mem.read c.src.1 c.src.2 c.len = bs
  dst : c ∈ g.pending ∨ g.mem.read c.dst.1 c.dst.2 c.len = bs

section Arriving
variable {c x : Copy S} {bs : List UInt8} {g : Engine S} {m : ByteMem S}

theorem Copy.run_read (c : Copy S) (m : ByteMem S) :
    (c.run m).read c.dst.1 c.dst.2 c.len = m.read c.src.1 c.src.2 c.len :=
  List.map_congr_left fun _ hi => c.run_dst m (List.mem_range.mp hi)

theorem Copy.Spares.read_dst (h : x.Spares c) (m : ByteMem S) :
    (x.run m).read c.dst.1 c.dst.2 c.len = m.read c.dst.1 c.dst.2 c.len :=
  ByteMem.read_congr fun i hi => x.run_other m (h _ (List.mem_append_left _
    (List.mem_map.mpr ⟨i, List.mem_range.mpr hi, rfl⟩)))

theorem Copy.Spares.read_src (h : x.Spares c) (m : ByteMem S) :
    (x.run m).read c.src.1 c.src.2 c.len = m.read c.src.1 c.src.2 c.len :=
  ByteMem.read_congr fun i hi => x.run_other m (h _ (List.mem_append_right _
    (List.mem_map.mpr ⟨i, List.mem_range.mpr hi, rfl⟩)))

theorem Copy.apart_of_ne (h : c.src.1 ≠ c.dst.1) : c.Apart := by
  intro p hp hq
  obtain ⟨i, -, rfl⟩ := List.mem_map.mp hp
  obtain ⟨j, -, hj⟩ := List.mem_map.mp hq
  exact h (congrArg Prod.fst hj).symm

theorem Copy.run_read_src (c : Copy S) (h : c.Apart) (m : ByteMem S) :
    (c.run m).read c.src.1 c.src.2 c.len = m.read c.src.1 c.src.2 c.len :=
  ByteMem.read_congr fun i hi => c.run_other m (h _
    (List.mem_map.mpr ⟨i, List.mem_range.mpr hi, rfl⟩))

theorem Arriving.run (h : Arriving c bs g) (hx : x ∈ g.pending) {ps : List (Copy S)}
    (hsub : ∀ y ∈ ps, y ∈ g.pending) (hps : c ∈ g.pending → c ≠ x → c ∈ ps) :
    Arriving c bs ⟨x.run g.mem, ps⟩ := by
  rcases eq_or_ne x c with rfl | hne
  · refine ⟨h.apart, fun y hy => h.spared y (hsub y hy), ?_, .inr ?_⟩
    · exact (x.run_read_src h.apart g.mem).trans h.src
    · exact (x.run_read g.mem).trans h.src
  · have hs := (h.spared x hx).resolve_left hne
    refine ⟨h.apart, fun y hy => h.spared y (hsub y hy), (hs.read_src g.mem).trans h.src, ?_⟩
    exact h.dst.imp (fun hc => hps hc hne.symm) (hs.read_dst g.mem).trans

theorem Arriving.finishMany (h : Arriving c bs g) (is : List Nat) :
    Arriving c bs (g.finishMany is) := by
  induction is generalizing g with
  | nil => exact h
  | cons i is ih =>
    refine ih ?_
    unfold Engine.finish
    split
    next x hx =>
      refine h.run (List.mem_of_getElem? hx) (fun y hy => List.mem_of_mem_eraseIdx hy) ?_
      intro hc hne
      obtain ⟨j, hj⟩ := List.mem_iff_getElem?.mp hc
      refine List.mem_eraseIdx_iff_getElem?.mpr ⟨j, ?_, hj⟩
      rintro rfl
      exact hne (Option.some.inj (hj.symm.trans hx))
    next => exact h

omit [DecidableEq S] in
theorem Arriving.submit {c : Copy S} (h : c.Apart) (hs : ∀ x ∈ g.pending, x.Spares c) :
    Arriving c (g.mem.read c.src.1 c.src.2 c.len) (g.submit c) := by
  refine ⟨h, fun x hx => ?_, rfl, .inl (List.mem_append_right _ (List.mem_singleton_self c))⟩
  rcases List.mem_append.mp hx with hx | hx
  · exact .inr (hs x hx)
  · exact .inl (List.mem_singleton.mp hx)

theorem Arriving.foldl (h : Arriving c bs g) (ds : List (Copy S)) (hds : ∀ d ∈ ds, d ∈ g.pending) :
    Arriving c bs ⟨ds.foldl (fun m d => d.run m) g.mem, g.pending⟩ ∧
      (c ∈ ds ∨ g.mem.read c.dst.1 c.dst.2 c.len = bs →
        (ds.foldl (fun m d => d.run m) g.mem).read c.dst.1 c.dst.2 c.len = bs) := by
  induction ds generalizing g with
  | nil => exact ⟨h, fun hc => hc.resolve_left List.not_mem_nil⟩
  | cons d ds ih =>
    have hd := hds d List.mem_cons_self
    obtain ⟨h1, h2⟩ := ih (h.run hd (fun _ hy => hy) fun hc _ => hc)
      fun x hx => hds x (List.mem_cons_of_mem _ hx)
    refine ⟨h1, fun hc => h2 ?_⟩
    rcases eq_or_ne d c with rfl | hne
    · exact .inr ((d.run_read g.mem).trans h.src)
    · have hs := (h.spared d hd).resolve_left hne
      exact hc.imp (fun hm => (List.mem_cons.mp hm).resolve_left hne.symm) (hs.read_dst g.mem).trans

theorem Arriving.drain (h : Arriving c bs g) (q : Nat → Bool) : Arriving c bs (g.drain q) := by
  obtain ⟨h1, h2⟩ := h.foldl (g.pending.filter fun x => q x.tag) fun x hx => (List.mem_filter.mp hx).1
  refine ⟨h.apart, fun x hx => h.spared x (List.mem_filter.mp hx).1, h1.src, ?_⟩
  by_cases hq : q c.tag = true
  · exact .inr (h2 (h.dst.imp_left fun hc => List.mem_filter.mpr ⟨hc, hq⟩))
  · exact h1.dst.imp_left fun hc => List.mem_filter.mpr ⟨hc, by simpa using hq⟩

omit [DecidableEq S] in
theorem Arriving.arrived (h : Arriving c bs g) (hp : g.pending = []) :
    g.mem.read c.dst.1 c.dst.2 c.len = bs :=
  h.dst.resolve_left (by simp [hp])

end Arriving
end AsyncCopy
