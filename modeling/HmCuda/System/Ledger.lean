import HmCuda.System.Handles

/-! The handles of the counter: which of them `hmcuda_res_add` has returned, which were
released, and what the tables of all sessions hold of them. -/

namespace HmCuda
open Layout

/-- A handle `hmcuda_res_add` has returned. -/
structure Issue where
  key : Key
  ty : ResType
  handle : Nat
  size : Nat
  deriving DecidableEq, Repr

def Issue.range (i : Issue) (a : Nat) : Prop := i.handle ≤ a ∧ a < i.handle + i.size

/-- The tables, the handles returned and those released; the lists are history. -/
structure Ledger where
  tab : Tables
  issued : List Issue
  gone : List Issue

def Ledger.start : Ledger := ⟨.start, [], []⟩

/-- The functions of resource.c that issue or release such handles; `renew` destroys the
context and creates the next one. -/
inductive CountOp where
  | renew (k : Key)
  | add (k : Key) (ty : ResType) (realPtr size : Nat)
  | remove (k : Key) (ty : ResType) (handle : Nat)
  deriving DecidableEq

def CountOp.apply : CountOp → Tables → Tables
  | renew k, t => (t.ctxUnlink k).ctxCreate k
  | add k ty p n, t => (t.resAdd k ty p n).2
  | remove k ty h, t => t.resRemove k ty h

def CountOp.issues (t : Tables) : CountOp → List Issue
  | add k ty p n => [⟨k, ty, (t.resAdd k ty p n).1, n⟩]
  | renew _ | remove _ _ _ => []

def CountOp.releases (i : Issue) : CountOp → Bool
  | renew k => i.key = k
  | add _ _ _ _ => false
  | remove k ty h => i.key = k ∧ i.ty = ty ∧ i.handle = h

def CountOp.Counts (t : Tables) : CountOp → Prop
  | add _ ty _ n => t.nextHandle + 1 + (if ty = .mem then n else 0) < 2 ^ 64
  | renew _ | remove _ _ _ => True

instance (t : Tables) : (o : CountOp) → Decidable (o.Counts t)
  | .add _ _ _ _ => inferInstanceAs (Decidable (_ < _))
  | .renew _ | .remove _ _ _ => inferInstanceAs (Decidable True)

def Ledger.next (l : Ledger) (o : CountOp) : Ledger where
  tab := o.apply l.tab
  issued := o.issues l.tab ++ l.issued
  gone := l.issued.filter (o.releases ·) ++ l.gone

/-! What the commands do -/

/-- The commands on such handles, and the functions of resource.c themselves. -/
inductive HandleCmd where
  | init
  | retain (device : Nat)
  | streamCreate (flags : Nat)
  | cuStreamCreate (flags : Nat)
  | cuStreamDestroy (stream : Nat)
  | eventCreate (flags : Nat)
  | eventDestroy (event : Nat)
  | cuEventCreate (flags : Nat)
  | cuEventDestroy (event : Nat)
  | registerFatbin (image : List UInt8)
  | cuStreamGetCtx (stream : Nat)
  | cuMemCreate (size : Nat) (prop : List Nat) (flags : Nat)
  | cuMemImport (shareable handleType : Nat)
  | cuMulticastCreate (prop : List Nat)
  | cuMemRelease (handle : Nat)
  | resAdd (ty : ResType) (realPtr size : Nat) (counted : ty ≠ .hostMem)
  | resRemove (ty : ResType) (handle : Nat)

def HandleCmd.exec (k : Key) : HandleCmd → CoreM Unit
  | init => do let _ ← coreInit k
  | retain device => do let _ ← coreCuDevicePrimaryCtxRetain k device
  | streamCreate flags => do let _ ← coreStreamCreate k flags
  | cuStreamCreate flags => do let _ ← coreCuStreamCreate k flags
  | cuStreamDestroy stream => do let _ ← coreCuStreamDestroy k stream
  | eventCreate flags => do let _ ← coreEventCreate k flags
  | eventDestroy event => do let _ ← coreEventDestroy k event
  | cuEventCreate flags => do let _ ← coreCuEventCreate k flags
  | cuEventDestroy event => do let _ ← coreCuEventDestroy k event
  | registerFatbin image => do let _ ← coreRegisterFatbin k image
  | cuStreamGetCtx stream => do let _ ← coreCuStreamGetCtx k stream
  | cuMemCreate size prop flags => do let _ ← coreCuMemCreate k size prop flags
  | cuMemImport shareable handleType => do let _ ← coreCuMemImport k shareable handleType
  | cuMulticastCreate prop => do let _ ← coreCuMulticastCreate k prop
  | cuMemRelease handle => do let _ ← coreCuMemRelease k handle
  | .resAdd ty realPtr size _ => do let _ ← HmCuda.resAdd k ty realPtr size
  | .resRemove ty handle => table (·.resRemove k ty handle)

def HandleCmd.issuing : HandleCmd → Option ResType
  | retain _ | cuStreamGetCtx _ => some .context
  | streamCreate _ | cuStreamCreate _ => some .stream
  | eventCreate _ | cuEventCreate _ => some .event
  | registerFatbin _ => some .module
  | cuMemCreate .. | cuMemImport .. | cuMulticastCreate _ => some .genericAlloc
  | .resAdd ty .. => some ty
  | _ => none

def HandleCmd.releasing : HandleCmd → Option (ResType × Nat)
  | cuStreamDestroy h => some (.stream, h)
  | eventDestroy h | cuEventDestroy h => some (.event, h)
  | cuMemRelease h => some (.genericAlloc, h)
  | .resRemove ty h => some (ty, h)
  | _ => none

def HandleCmd.Makes (k : Key) (c : HandleCmd) (ops : List CountOp) : Prop :=
  match c with
  | init => ops = [.renew k]
  | retain device => ops = [] ∨ (∃ p, ops = [.add k .context p device]) ∨ ops = [.renew k] ∨
      ∃ p, ops = [.renew k, .add k .context p device]
  | _ => ops = [] ∨ (∃ ty p n, c.issuing = some ty ∧ ops = [.add k ty p n]) ∨
      ∃ ty h, c.releasing = some (ty, h) ∧ ops = [.remove k ty h]

def Tables.afterCount (t : Tables) (ops : List CountOp) : Tables :=
  ops.foldl (fun t o => o.apply t) t

/-- The operations that a command has made, as its handler shows them on the tables. -/
structure HandleCmd.Made (k : Key) (c : HandleCmd) (env : Env) (m : Machine) (ops : List CountOp) :
    Prop where
  makes : c.Makes k ops
  tab : ((c.exec k).run env m).2.tab = m.tab.afterCount ops

def Ledger.CountsAll (l : Ledger) : List CountOp → Prop
  | [] => True
  | o :: ops => o.Counts l.tab ∧ (l.next o).CountsAll ops

/-- The runs of commands of any sessions, from an empty backend, while the counter does not
wrap. What else the backend does between them leaves the tables alone. -/
inductive HandleRun : Ledger → Prop where
  | start : HandleRun .start
  | serve {l : Ledger} (run : HandleRun l) (k : Key) (c : HandleCmd) (env : Env) (d : Device)
      (ops : List CountOp) (made : c.Made k env ⟨l.tab, d⟩ ops) (counts : l.CountsAll ops) :
      HandleRun (ops.foldl .next l)

/-- In the environment `e`, `m` changes the tables by operations as `Q` allows them. -/
def Performs {α : Type} (e : Env) (Q : List CountOp → Prop) (m : CoreM α) : Prop :=
  ∀ s, ∃ ops, Q ops ∧ (m.run e s).2.tab = s.tab.afterCount ops

section Performs
variable {α β : Type} {e : Env} {k : Key} {Q : List CountOp → Prop} {m : CoreM α} {f : α → CoreM β}

theorem performs_still (hm : Only e (fun _ => False) m) (hQ : Q []) : Performs e Q m :=
  fun s => ⟨[], hQ, hm.still s⟩

theorem performs_pure (a : α) (hQ : Q []) : Performs e Q (pure a : CoreM α) :=
  performs_still (only_pure a) hQ

theorem performs_query {q : QueryM α} (h : ∀ a, Performs e Q (f a)) :
    Performs e Q (query q >>= f) := fun s => h _ ((query q).run e s).2

theorem performs_ite {c : Prop} [Decidable c] {n : CoreM α} (hm : Performs e Q m)
    (hn : Performs e Q n) : Performs e Q (if c then m else n) := by
  split
  · exact hm
  · exact hn

theorem performs_withCtxM {missing : α} {g : Context → CoreM α} (hQ : Q [])
    (h : ∀ c, c.key = k → Performs e Q (g c)) : Performs e Q (withCtxM k missing g) := by
  intro s
  unfold withCtxM
  dsimp only
  rcases hc : s.tab.ctxGet k with _ | c
  · exact ⟨[], hQ, rfl⟩
  · exact h c (by simpa using List.find?_some hc) s

/-- The first operation of `m`, before the others. -/
theorem performs_cons {o : CountOp} (hm : ∀ s, (m.run e s).2.tab = o.apply s.tab)
    (hf : ∀ a, Performs e (fun ops => Q (o :: ops)) (f a)) : Performs e Q (m >>= f) := by
  intro s
  obtain ⟨ops, hQ, h⟩ := hf (m.run e s).1 (m.run e s).2
  refine ⟨o :: ops, hQ, ?_⟩
  rw [Prog.bind_run, h, hm]
  rfl

theorem performs_once {ty : ResType} (hm : Once e k ty m) (hQ : Q [])
    (hadd : ∀ p n, Q [.add k ty p n]) : Performs e Q m := by
  intro s
  rcases hm s with h | ⟨p, n, h⟩
  · exact ⟨[], hQ, h⟩
  · exact ⟨[.add k ty p n], hadd p n, h⟩

theorem performs_release {fn : LibFn} {args : Context → List Nat} {ty : ResType}
    {h missing err : Nat} (hQ : Q []) (hremove : Q [.remove k ty h]) :
    Performs e Q (withCtxM k missing fun c =>
      let p := c.resGet ty h
      if p = 0 then return err
      else do
        let r ← query (lib fn (args c) [])
        table (·.resRemove k ty h)
        return r.code) :=
  performs_withCtxM hQ fun _ _ => performs_ite (performs_pure _ hQ) <| performs_query fun _ =>
    performs_cons (o := .remove k ty h) (fun _ => rfl) fun _ => performs_pure _ hremove

theorem performs_init : Performs e (fun ops => ops = [.renew k]) (coreInit k) :=
  fun s => ⟨[.renew k], rfl, coreInit_tab s⟩

theorem performs_retain {device : Nat} :
    Performs e ((HandleCmd.retain device).Makes k) (coreCuDevicePrimaryCtxRetain k device) := by
  have add (Q : List CountOp → Prop) (p : Nat) (hQ : Q [.add k .context p device]) :
      Performs e Q (do
        let h ← resAdd k .context p device
        query registerGuestMemory
        return (0, some h)) :=
    performs_cons (o := .add k .context p device) (fun _ => rfl) fun _ => performs_query fun _ =>
      performs_pure _ hQ
  refine performs_withCtxM (.inl rfl) fun c hk => performs_query fun r => performs_ite ?_
    (add _ _ (.inr (.inl ⟨_, rfl⟩)))
  -- the session's context is destroyed and created again before the second try
  refine performs_query fun _ => fun s => ?_
  have renewed := performs_cons (Q := (HandleCmd.retain device).Makes k) (e := e)
    (m := (do ctxDestroy c; table (·.ctxCreate k))) (o := .renew k)
    (f := fun _ => do
      let r ← query (lib .cuDevicePrimaryCtxRetain [device] [])
      if r.code ≠ 0 then
        return (r.code, none)
      let h ← resAdd k .context (r.out 0) device
      query registerGuestMemory
      return (0, some h)) (fun s => by rw [← hk]; rfl) fun _ => ?_
  · exact renewed s
  · exact performs_query fun _ => performs_ite (performs_pure _ (.inr (.inr (.inl rfl))))
      (add _ _ (.inr (.inr (.inr ⟨_, rfl⟩))))

theorem performs_discard (hm : Performs e Q m) :
    Performs e Q (do let _ ← m : CoreM Unit) := fun s => hm s

/-- Whatever CUDA answers, a command changes the tables by operations it may make. -/
theorem performs_exec (c : HandleCmd) : Performs e (c.Makes k) (c.exec k) := by
  have issues {ty : ResType} {c : HandleCmd} {m : CoreM (Nat × Option Nat)}
      (hc : c.issuing = some ty) (hm : Once e k ty m) (hmakes : c.Makes k = fun ops => ops = [] ∨
        (∃ ty p n, c.issuing = some ty ∧ ops = [.add k ty p n]) ∨
        ∃ ty h, c.releasing = some (ty, h) ∧ ops = [.remove k ty h]) :
      Performs e (c.Makes k) (do let _ ← m : CoreM Unit) := by
    rw [hmakes]
    exact performs_discard <| performs_once hm (.inl rfl) fun p n => .inr (.inl ⟨ty, p, n, hc, rfl⟩)
  cases c with
  | init => exact performs_discard performs_init
  | retain => exact performs_discard performs_retain
  | streamCreate | cuStreamCreate | eventCreate | cuEventCreate | cuMemCreate | cuMemImport
      | cuMulticastCreate => exact issues rfl once_acquire rfl
  | registerFatbin => exact issues rfl (once_coreRegisterFatbin _) rfl
  | cuStreamGetCtx => exact issues rfl (once_coreCuStreamGetCtx _) rfl
  | cuStreamDestroy | cuEventDestroy | cuMemRelease =>
    exact performs_discard (performs_release (.inl rfl) (.inr (.inr ⟨_, _, rfl, rfl⟩)))
  | eventDestroy h =>
    refine performs_discard <| performs_withCtxM (.inl rfl) fun _ _ => performs_ite
      (performs_query fun _ => ?_) (performs_pure _ (.inl rfl))
    exact performs_cons (o := .remove k .event h) (fun _ => rfl) fun _ => performs_pure _
      (.inr (.inr ⟨_, _, rfl, rfl⟩))
  | resAdd ty p n => exact fun s => ⟨[.add k ty p n], .inr (.inl ⟨ty, p, n, rfl, rfl⟩), rfl⟩
  | resRemove ty h => exact fun s => ⟨[.remove k ty h], .inr (.inr ⟨ty, h, rfl, rfl⟩), rfl⟩

end Performs

/-! The invariant -/

/-- An entry of a table stands for a handle that was returned and not released. -/
structure Ledger.Stands (l : Ledger) (k : Key) (ty : ResType) (r : Resource) (i : Issue) :
    Prop where
  issued : i ∈ l.issued
  live : i ∉ l.gone
  key : i.key = k
  ty : i.ty = ty
  handle : i.handle = r.handle
  size : i.size = r.size

def Issue.Behind (i j : Issue) : Prop :=
  j.handle < i.handle ∧ (j.ty = .mem → j.handle + j.size < i.handle)

def Issue.Passed (next : Nat) (i : Issue) : Prop :=
  i.handle ≤ next ∧ (i.ty = .mem → i.handle + i.size ≤ next)

structure LedgerInv (l : Ledger) : Prop where
  counter : 0x10000000 ≤ l.tab.nextHandle ∧ l.tab.nextHandle < 2 ^ 64
  low : ∀ i ∈ l.issued, 0x10000000 < i.handle
  passed : ∀ i ∈ l.issued, i.Passed l.tab.nextHandle
  ordered : l.issued.Pairwise Issue.Behind
  unpinned : ∀ i ∈ l.issued, i.ty ≠ .hostMem
  gone : ∀ i ∈ l.gone, i ∈ l.issued
  distinct : ∀ k c, l.tab.ctxGet k = some c → ∀ ty, ((c.resources ty).map (·.handle)).Nodup
  stands : ∀ k c, l.tab.ctxGet k = some c → ∀ ty, ∀ r ∈ c.resources ty, ∃ i, l.Stands k ty r i

theorem Ledger.Stands.mono {l l' : Ledger} {k : Key} {ty : ResType} {r : Resource} {i : Issue}
    (h : l.Stands k ty r i) (hi : i ∈ l'.issued) (hg : i ∉ l'.gone) : l'.Stands k ty r i :=
  ⟨hi, hg, h.key, h.ty, h.handle, h.size⟩

namespace LedgerInv
variable {l : Ledger} {k : Key} {ty : ResType}

theorem start : LedgerInv .start where
  counter := by decide
  low _ hi := by cases hi
  passed _ hi := by cases hi
  ordered := List.Pairwise.nil
  unpinned _ hi := by cases hi
  gone _ hi := by cases hi
  distinct _ _ hc := by cases hc
  stands _ _ hc := by cases hc

theorem ctxGet_renew {t : Tables} {k' : Key} : ((t.ctxUnlink k).ctxCreate k).ctxGet k' =
    if k' = k then some ⟨k, fun _ => []⟩ else t.ctxGet k' := by
  rw [Tables.ctxGet_ctxCreate]
  split
  next => rfl
  next hne =>
    refine Ranges.find?_eraseP_of_not fun c hc => ?_
    have hk : c.key = k := of_decide_eq_true hc
    simp [hk, Ne.symm hne]

theorem renew (h : LedgerInv l) : LedgerInv (l.next (.renew k)) where
  counter := h.counter
  low := h.low
  passed := h.passed
  ordered := h.ordered
  unpinned := h.unpinned
  gone i hi := (List.mem_append.mp hi).elim (fun hi => (List.mem_filter.mp hi).1) (h.gone i)
  distinct k' c hc ty := by
    rw [Ledger.next, CountOp.apply, ctxGet_renew] at hc
    split at hc
    · cases hc
      exact List.nodup_nil
    · exact h.distinct k' c hc ty
  stands k' c hc ty r hr := by
    rw [Ledger.next, CountOp.apply, ctxGet_renew] at hc
    split at hc
    next =>
      cases hc
      cases hr
    next hne =>
      obtain ⟨i, hi⟩ := h.stands k' c hc ty r hr
      refine ⟨i, hi.mono hi.issued fun hg => ?_⟩
      rcases List.mem_append.mp hg with hg | hg
      · refine hne (hi.key.symm.trans ?_)
        simpa [CountOp.releases] using (List.mem_filter.mp hg).2
      · exact hi.live hg

theorem handle_add {t : Tables} {p n : Nat} (hc : (CountOp.add k ty p n).Counts t) :
    (t.resAdd k ty p n).1 = t.nextHandle + 1 := add64_of_lt (by
  simp only [CountOp.Counts] at hc
  omega)

theorem next_add {t : Tables} {p n : Nat} (hc : (CountOp.add k ty p n).Counts t) :
    (t.resAdd k ty p n).2.nextHandle = t.nextHandle + 1 + if ty = .mem then n else 0 := by
  have hhandle : add64 t.nextHandle 1 = t.nextHandle + 1 := handle_add hc
  simp only [CountOp.Counts] at hc
  show (if ty = .mem ∧ 0 < n then add64 (add64 t.nextHandle 1) n else add64 t.nextHandle 1) = _
  rw [hhandle]
  by_cases hm : ty = .mem
  · rw [if_pos hm] at hc
    rw [if_pos hm]
    split
    next => exact add64_of_lt hc
    next hn =>
      obtain rfl : n = 0 := Nat.eq_zero_of_not_pos fun h0 => hn ⟨hm, h0⟩
      rfl
  · rw [if_neg fun hn => hm hn.1, if_neg hm]

theorem add (h : LedgerInv l) {p n : Nat} (hc : (CountOp.add k ty p n).Counts l.tab)
    (hty : ty ≠ .hostMem) : LedgerInv (l.next (.add k ty p n)) := by
  have hhandle := handle_add hc
  have hnext : (l.next (.add k ty p n)).tab.nextHandle = _ := next_add hc
  have hissued : (l.next (.add k ty p n)).issued = ⟨k, ty, l.tab.nextHandle + 1, n⟩ :: l.issued := by
    rw [← hhandle]
    rfl
  have hgone : (l.next (.add k ty p n)).gone = l.gone := by
    show l.issued.filter (fun _ => false) ++ l.gone = _
    rw [List.filter_false, List.nil_append]
  have hget (k' : Key) : (l.next (.add k ty p n)).tab.ctxGet k' = if k' = k then
      (l.tab.ctxGet k).map (·.push ty ⟨l.tab.nextHandle + 1, p, n⟩) else l.tab.ctxGet k' := by
    rw [← hhandle]
    exact Tables.ctxGet_ctxUpdate _ _ _ fun _ => rfl
  have hfresh {i : Issue} (hi : i ∈ l.issued) : i.handle < l.tab.nextHandle + 1 :=
    Nat.lt_succ_of_le (h.passed i hi).1
  have hmono {k' : Key} {ty' : ResType} {r : Resource} :
      (∃ i, l.Stands k' ty' r i) → ∃ i, (l.next (.add k ty p n)).Stands k' ty' r i :=
    fun ⟨i, hi⟩ => ⟨i, hi.mono (hissued ▸ List.mem_cons_of_mem _ hi.issued) (hgone ▸ hi.live)⟩
  constructor
  case counter =>
    rw [hnext]
    exact ⟨by have := h.counter.1; omega, hc⟩
  case low =>
    rw [hissued]
    exact List.forall_mem_cons.mpr ⟨Nat.lt_succ_of_le h.counter.1, h.low⟩
  case passed =>
    rw [hissued, hnext]
    refine List.forall_mem_cons.mpr ⟨⟨Nat.le_add_right _ _, fun hm => ?_⟩, fun i hi => ?_⟩
    · rw [if_pos hm]
    · obtain ⟨h1, h2⟩ := h.passed i hi
      exact ⟨by omega, fun hm => by have := h2 hm; omega⟩
  case ordered =>
    rw [hissued]
    refine List.pairwise_cons.mpr ⟨fun j hj => ⟨hfresh hj, fun hm => ?_⟩, h.ordered⟩
    exact Nat.lt_succ_of_le ((h.passed j hj).2 hm)
  case unpinned =>
    rw [hissued]
    exact List.forall_mem_cons.mpr ⟨hty, h.unpinned⟩
  case gone =>
    rw [hissued, hgone]
    exact fun i hi => List.mem_cons_of_mem _ (h.gone i hi)
  case distinct =>
    intro k' c hc ty'
    rw [hget] at hc
    split at hc
    next =>
      obtain ⟨d, hd, rfl⟩ := Option.map_eq_some_iff.mp hc
      rw [Context.push_resources]
      split
      next =>
        -- the entries that are there stand for earlier handles
        refine List.nodup_cons.mpr ⟨fun hin => ?_, h.distinct k d hd ty⟩
        obtain ⟨r, hr, heq⟩ := List.mem_map.mp hin
        obtain ⟨i, hi⟩ := h.stands k d hd ty r hr
        have hlt := hfresh hi.issued
        rw [hi.handle, heq] at hlt
        exact absurd hlt (Nat.lt_irrefl _)
      next => exact h.distinct k d hd ty'
    next => exact h.distinct k' c hc ty'
  case stands =>
    intro k' c hc ty' r hr
    rw [hget] at hc
    split at hc
    next hk =>
      subst hk
      obtain ⟨d, hd, rfl⟩ := Option.map_eq_some_iff.mp hc
      rw [Context.push_resources] at hr
      split at hr
      next hty' =>
        subst hty'
        rcases List.mem_cons.mp hr with rfl | hr
        · refine ⟨_, hissued ▸ List.mem_cons_self, fun hg => ?_, rfl, rfl, rfl, rfl⟩
          exact Nat.lt_irrefl _ (hfresh (h.gone _ (hgone ▸ hg)))
        · exact hmono (h.stands k' d hd ty' r hr)
      next => exact hmono (h.stands k' d hd ty' r hr)
    next => exact hmono (h.stands k' c hc ty' r hr)

theorem remove (h : LedgerInv l) {a : Nat} : LedgerInv (l.next (.remove k ty a)) := by
  have hget (k' : Key) : (l.next (.remove k ty a)).tab.ctxGet k' =
      if k' = k then (l.tab.ctxGet k).map (·.resRemove ty a) else l.tab.ctxGet k' :=
    Tables.ctxGet_ctxUpdate _ _ _ fun _ => rfl
  -- what is left of a session's entries are others than the removed one
  have hleft {k' : Key} {c : Context} (hc : (l.next (.remove k ty a)).tab.ctxGet k' = some c)
      (ty' : ResType) : ∃ d, l.tab.ctxGet k' = some d ∧
        (c.resources ty').Sublist (d.resources ty') ∧
        (k' = k → ty' = ty → ∀ r ∈ c.resources ty', r.handle ≠ a) := by
    rw [hget] at hc
    split at hc
    next hk =>
      subst hk
      obtain ⟨d, hd, rfl⟩ := Option.map_eq_some_iff.mp hc
      refine ⟨d, hd, ?_⟩
      rw [Context.resRemove_resources]
      split
      next hty =>
        subst hty
        refine ⟨List.eraseP_sublist, fun _ _ r hr => ?_⟩
        rw [Ranges.eraseP_eq_filter (h.distinct k' d hd ty')] at hr
        simpa using (List.mem_filter.mp hr).2
      next hty => exact ⟨List.Sublist.refl _, fun _ heq => absurd heq hty⟩
    next hk => exact ⟨c, hc, List.Sublist.refl _, fun heq => absurd heq hk⟩
  constructor
  case counter => exact h.counter
  case low => exact h.low
  case passed => exact h.passed
  case ordered => exact h.ordered
  case unpinned => exact h.unpinned
  case gone =>
    exact fun i hi => (List.mem_append.mp hi).elim (fun hi => (List.mem_filter.mp hi).1) (h.gone i)
  case distinct =>
    intro k' c hc ty'
    obtain ⟨d, hd, hsub, -⟩ := hleft hc ty'
    exact (h.distinct k' d hd ty').sublist (hsub.map _)
  case stands =>
    intro k' c hc ty' r hr
    obtain ⟨d, hd, hsub, hne⟩ := hleft hc ty'
    obtain ⟨i, hi⟩ := h.stands k' d hd ty' r (hsub.subset hr)
    refine ⟨i, hi.mono hi.issued fun hg => ?_⟩
    rcases List.mem_append.mp hg with hg | hg
    · obtain ⟨hk, hty, ha⟩ : i.key = k ∧ i.ty = ty ∧ i.handle = a := by
        simpa [CountOp.releases] using (List.mem_filter.mp hg).2
      exact hne (hi.key.symm.trans hk) (hi.ty.symm.trans hty) r hr (hi.handle.symm.trans ha)
    · exact hi.live hg

theorem next (h : LedgerInv l) {o : CountOp} (hc : o.Counts l.tab)
    (hty : ∀ k ty p n, o = .add k ty p n → ty ≠ .hostMem) : LedgerInv (l.next o) := by
  cases o with
  | renew => exact h.renew
  | add k ty p n => exact h.add hc (hty k ty p n rfl)
  | remove => exact h.remove

end LedgerInv

section Run
variable {l : Ledger} {k : Key}

theorem HandleCmd.issuing_ne {c : HandleCmd} {ty : ResType} (h : c.issuing = some ty) :
    ty ≠ .hostMem := by
  cases c
  case resAdd counted =>
    cases h
    exact counted
  all_goals cases h <;> decide

theorem HandleCmd.Makes.unpinned {c : HandleCmd} {ops : List CountOp} (h : c.Makes k ops)
    {k' : Key} {ty : ResType} {p n : Nat} (ho : .add k' ty p n ∈ ops) : ty ≠ .hostMem := by
  have general (h : ops = [] ∨ (∃ ty p n, c.issuing = some ty ∧ ops = [.add k ty p n]) ∨
      ∃ ty h, c.releasing = some (ty, h) ∧ ops = [.remove k ty h]) : ty ≠ .hostMem := by
    rcases h with rfl | ⟨ty', p', n', hty, rfl⟩ | ⟨ty', h', -, rfl⟩
    · cases ho
    · obtain ⟨-, rfl, -⟩ := CountOp.add.inj (List.mem_singleton.mp ho)
      exact HandleCmd.issuing_ne hty
    · cases List.mem_singleton.mp ho
  cases c
  case init =>
    obtain rfl : ops = [.renew k] := h
    cases List.mem_singleton.mp ho
  case retain device =>
    have context {p' : Nat} (heq : CountOp.add k' ty p n = .add k .context p' device) :
        ty ≠ .hostMem := by
      cases heq
      decide
    rcases h with rfl | ⟨p', rfl⟩ | rfl | ⟨p', rfl⟩
    · cases ho
    · exact context (List.mem_singleton.mp ho)
    · cases List.mem_singleton.mp ho
    · rcases List.mem_cons.mp ho with heq | ho
      · cases heq
      · exact context (List.mem_singleton.mp ho)
  all_goals exact general h

theorem LedgerInv.all {ops : List CountOp} (h : LedgerInv l) (hc : l.CountsAll ops)
    (hty : ∀ k ty p n, .add k ty p n ∈ ops → ty ≠ .hostMem) : LedgerInv (ops.foldl .next l) := by
  induction ops generalizing l with
  | nil => exact h
  | cons o ops ih =>
    refine ih (h.next hc.1 ?_) hc.2 fun k ty p n ho => hty k ty p n (List.mem_cons_of_mem _ ho)
    rintro k ty p n rfl
    exact hty k ty p n List.mem_cons_self

theorem HandleRun.inv (run : HandleRun l) : LedgerInv l := by
  induction run with
  | start => exact LedgerInv.start
  | serve _ _ _ _ _ _ made counts ih => exact ih.all counts fun _ _ _ _ => made.makes.unpinned

theorem HandleCmd.Made.next_tab {c : HandleCmd} {env : Env} {d : Device} {ops : List CountOp}
    (h : c.Made k env ⟨l.tab, d⟩ ops) :
    (ops.foldl Ledger.next l).tab = ((c.exec k).run env ⟨l.tab, d⟩).2.tab := by
  have go (ops : List CountOp) (l : Ledger) :
      (ops.foldl Ledger.next l).tab = l.tab.afterCount ops := by
    induction ops generalizing l with
    | nil => rfl
    | cons o ops ih => exact ih (l.next o)
  rw [h.tab, go]

theorem exists_made (c : HandleCmd) (env : Env) (m : Machine) : ∃ ops, c.Made k env m ops := by
  obtain ⟨ops, makes, tab⟩ := performs_exec (e := env) c m
  exact ⟨ops, makes, tab⟩

instance : Std.Symm fun i j : Issue => i.Behind j ∨ j.Behind i := ⟨fun _ _ h => h.symm⟩

theorem LedgerInv.behind (h : LedgerInv l) {i j : Issue} (hi : i ∈ l.issued) (hj : j ∈ l.issued)
    (hne : i ≠ j) : i.Behind j ∨ j.Behind i :=
  List.Pairwise.forall (R := fun i j : Issue => i.Behind j ∨ j.Behind i)
    (h.ordered.imp .inl) hi hj hne

theorem LedgerInv.apart (h : LedgerInv l) {i j : Issue} (hi : i ∈ l.issued) (hj : j ∈ l.issued)
    (hm : i.ty = .mem) (hr : i.range j.handle) : j = i := by
  by_contra hne
  rcases h.behind hi hj (Ne.symm hne) with hb | hb
  · exact absurd hr.1 (Nat.not_le.mpr hb.1)
  · exact absurd hr.2 (Nat.not_lt.mpr (hb.2 hm).le)

theorem LedgerInv.lookup (h : LedgerInv l) {c : Context} (hc : l.tab.ctxGet k = some c) {i : Issue}
    (hi : i ∈ l.issued) {r : Resource} (hr : c.resFind i.ty i.handle = some r) :
    l.Stands k i.ty r i := by
  obtain ⟨j, hj⟩ := h.stands k c hc i.ty r (List.mem_of_find?_eq_some hr)
  have hcov : r.covers i.ty i.handle = true := List.find?_some hr
  suffices heq : i = j from heq ▸ hj
  rcases hty : i.ty.ranged with _ | _
  · -- found by the handle itself
    have hhandle : r.handle = i.handle := by simpa [Resource.covers, hty] using hcov
    by_contra hne
    have hb := h.behind hi hj.issued hne
    have heq := hj.handle.trans hhandle
    unfold Issue.Behind at hb
    omega
  · -- found by the range, which does not wrap
    have hmem : i.ty = .mem := by
      have := h.unpinned i hi
      unfold ResType.ranged at hty
      simpa [this] using hty
    refine h.apart hj.issued hi (hj.ty.trans hmem) ?_
    have hlt := (h.passed j hj.issued).2 (hj.ty.trans hmem)
    rw [hj.handle, hj.size] at hlt
    rw [Resource.covers, hty, add64_of_lt (hlt.trans_lt h.counter.2)] at hcov
    rw [Issue.range, hj.handle, hj.size]
    simpa using hcov

/-- The handles of the counter are distinct, none is a reserved value or lies in the range of
other memory, and one that was released resolves in no session. -/
theorem handles_fresh (run : HandleRun l) :
    (l.issued.map (·.handle)).Nodup ∧ (∀ i ∈ l.issued, 2 < i.handle) ∧
      (∀ i ∈ l.issued, i.ty = .mem → ∀ j ∈ l.issued, j ≠ i → ¬i.range j.handle) ∧
      ∀ i ∈ l.gone, ∀ k c, l.tab.ctxGet k = some c → c.resGet i.ty i.handle = 0 := by
  have h := run.inv
  refine ⟨?_, fun i hi => (by decide : 2 < 0x10000000).trans (h.low i hi),
    fun i hi hm j hj hne hr => hne (h.apart hi hj hm hr), fun i hi k c hc => ?_⟩
  · exact List.pairwise_map.mpr (h.ordered.imp fun hb => hb.1.ne')
  · rcases hr : c.resFind i.ty i.handle with _ | r
    · rw [c.resGet_eq, hr]
      rfl
    · exact absurd hi (h.lookup hc (h.gone i hi) hr).live

end Run

/-! A session that is destroyed with 100 bytes of memory and a stream -/

def streamEnv : Env := { Env.quiet with ret := fun n _ => ⟨0, [0x5000 + n], none⟩ }

def usedOps : List CountOp := [.add ⟨1, 1⟩ .mem 0x8000 100, .add ⟨1, 1⟩ .stream 0x5000 0]

def usedLedger : Ledger := usedOps.foldl .next (Ledger.start.next (.renew ⟨1, 1⟩))

theorem usedLedger_run : HandleRun (usedLedger.next (.renew ⟨1, 1⟩)) := by
  have init {l : Ledger} (run : HandleRun l) : HandleRun (l.next (.renew ⟨1, 1⟩)) :=
    .serve run ⟨1, 1⟩ .init streamEnv (Machine.start fun _ _ => 0).dev [.renew ⟨1, 1⟩]
      ⟨rfl, coreInit_tab _⟩ ⟨trivial, trivial⟩
  have mem : HandleRun ((Ledger.start.next (.renew ⟨1, 1⟩)).next (.add ⟨1, 1⟩ .mem 0x8000 100)) :=
    .serve (init .start) ⟨1, 1⟩ (.resAdd .mem 0x8000 100 (by decide)) streamEnv
      (Machine.start fun _ _ => 0).dev [.add ⟨1, 1⟩ .mem 0x8000 100]
      ⟨.inr (.inl ⟨_, _, _, rfl, rfl⟩), rfl⟩ ⟨by decide, trivial⟩
  exact init <| .serve mem ⟨1, 1⟩ (.streamCreate 1) streamEnv (Machine.start fun _ _ => 0).dev
    [.add ⟨1, 1⟩ .stream 0x5000 0] ⟨.inr (.inl ⟨_, _, _, rfl, rfl⟩), rfl⟩ ⟨by decide, trivial⟩

theorem handles_fresh_used : usedLedger.issued.map (·.handle) = [0x10000066, 0x10000001] ∧
    ∀ i ∈ usedLedger.issued, ∀ k c,
      (usedLedger.next (.renew ⟨1, 1⟩)).tab.ctxGet k = some c → c.resGet i.ty i.handle = 0 := by
  refine ⟨by decide, fun i hi => (handles_fresh usedLedger_run).2.2.2 i ?_⟩
  have hkey : ∀ i ∈ usedLedger.issued, i ∈ (usedLedger.next (.renew ⟨1, 1⟩)).gone := by decide
  exact hkey i hi

end HmCuda
