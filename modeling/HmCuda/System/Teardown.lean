import HmCuda.System.Ledger
import HmCuda.System.PinnedBounds

/-! What destroying a session releases, against the CUDA objects that it acquired and has not
released, over runs of the commands that do either. -/

namespace HmCuda

inductive ObjKind where
  | memory | reserved | stream | event | module | pinned | generic
  deriving DecidableEq, Repr

def ObjKind.list : ObjKind → ResType
  | memory | reserved => .mem
  | stream => .stream
  | event => .event
  | module => .module
  | pinned => .hostMem
  | generic => .genericAlloc

/-- The lists that hold objects; the others hold what CUDA manages itself. -/
def ResType.stocked (t : ResType) : Prop := t ≠ .function ∧ t ≠ .context ∧ t ≠ .hostDevPtr

instance (t : ResType) : Decidable t.stocked := inferInstanceAs (Decidable (_ ∧ _))

def LibFn.acquires : LibFn → Option ObjKind
  | .cudaMalloc | .cuMemAlloc => some .memory
  | .cuMemAddressReserve => some .reserved
  | .cudaStreamCreateWithFlags | .cuStreamCreate => some .stream
  | .cudaEventCreateWithFlags | .cuEventCreate => some .event
  | .cuModuleLoadData => some .module
  | .cuMemHostAlloc => some .pinned
  | .cuMemCreate | .cuMemImportFromShareableHandle | .cuMulticastCreate => some .generic
  | _ => none

/-- The kind of object a call releases, by either API. The backend never calls
cuModuleUnload. -/
def LibFn.releases : LibFn → Option ObjKind
  | .cudaFree | .cuMemFree => some .memory
  | .cuMemAddressFree => some .reserved
  | .cudaStreamDestroy | .cuStreamDestroy => some .stream
  | .cudaEventDestroy | .cuEventDestroy => some .event
  | .cuMemFreeHost => some .pinned
  | .cuMemRelease => some .generic
  | _ => none

structure Obj where
  key : Key
  kind : ObjKind
  ptr : Nat
  deriving DecidableEq, Repr

/-- The live objects after a call that a session made, with its answer. NULL is no object, and
a device reset leaves none. -/
def objsAfter (k : Key) (live : List Obj) (x : LibCall × LibRet) : List Obj :=
  if x.2.code ≠ 0 then live
  else if x.1.fn = .cudaDeviceReset then []
  else match x.1.fn.acquires with
    | some kind => if x.2.out 0 = 0 then live else ⟨k, kind, x.2.out 0⟩ :: live
    | none =>
      match x.1.fn.releases with
      | some kind => live.erase ⟨k, kind, x.1.args.headD 0⟩
      | none => live

/-- The calls from `v` to `v'`, each with what CUDA answers at its count of the clock. -/
def answers (e : Env) (v v' : Device) : List (LibCall × LibRet) :=
  (v'.calls.drop v.calls.length).zipIdx.map fun c => (c.1, e.ret (v.clock + c.2) c.1)

/-- The calls from `v` to `v'` are those of `os`, and so are their answers. -/
structure Answered (e : Env) (v v' : Device) (os : List (LibCall × LibRet)) : Prop where
  calls : v'.calls = v.calls ++ os.map Prod.fst
  clock : v'.clock = v.clock + os.length
  ret : ∀ i x, os[i]? = some x → x.2 = e.ret (v.clock + i) x.1

namespace Answered
variable {e : Env} {v v' w : Device} {os os' : List (LibCall × LibRet)}

theorem nil (h : v'.calls = v.calls) (hc : v'.clock = v.clock) : Answered e v v' [] :=
  ⟨by simpa using h, by simpa using hc, fun i x hx => by simp at hx⟩

theorem append (h : Answered e v v' os) (h' : Answered e v' w os') :
    Answered e v w (os ++ os') := by
  refine ⟨?_, ?_, fun i x hx => ?_⟩
  · rw [h'.calls, h.calls, List.map_append, List.append_assoc]
  · rw [h'.clock, h.clock, List.length_append, Nat.add_assoc]
  · rcases Nat.lt_or_ge i os.length with hlt | hge
    · rw [List.getElem?_append_left hlt] at hx
      exact h.ret i x hx
    · rw [List.getElem?_append_right hge] at hx
      have hret := h'.ret _ x hx
      rw [h.clock, Nat.add_assoc, Nat.add_sub_cancel' hge] at hret
      exact hret

/-- The calls from `v` to `v'` have these answers and no others. -/
theorem eq (h : Answered e v v' os) : answers e v v' = os := by
  unfold answers
  rw [h.calls, List.drop_left]
  apply List.ext_getElem?
  intro i
  rw [List.getElem?_map, List.getElem?_zipIdx, List.getElem?_map]
  rcases hi : os[i]? with _ | x
  · rfl
  · have hret := h.ret i x hi
    simp only [Option.map_some, Nat.zero_add]
    rw [← hret]

end Answered

/-- In whatever state it starts, `m` makes calls as `P` allows them, one for each count of the
clock. -/
def Logs {α : Type} (P : LibCall → Prop) (m : CoreM α) : Prop :=
  ∀ e s, ∃ os, Answered e s.dev (m.run e s).2.dev os ∧ ∀ x ∈ os, P x.1

section Logs
variable {α β : Type} {P : LibCall → Prop} {m : CoreM α} {f : α → CoreM β} {k : Key}

theorem logs_pure (a : α) : Logs P (pure a : CoreM α) :=
  fun _ _ => ⟨[], .nil rfl rfl, fun _ hx => by cases hx⟩

theorem logs_bind (hm : Logs P m) (hf : ∀ a, Logs P (f a)) : Logs P (m >>= f) := by
  intro e s
  obtain ⟨os, h, hP⟩ := hm e s
  obtain ⟨os', h', hP'⟩ := hf (m.run e s).1 e (m.run e s).2
  exact ⟨os ++ os', h.append h', List.forall_mem_append.mpr ⟨hP, hP'⟩⟩

theorem logs_ite {c : Prop} [Decidable c] {n : CoreM α} (hm : Logs P m) (hn : Logs P n) :
    Logs P (if c then m else n) := by
  split
  · exact hm
  · exact hn

theorem logs_resAdd (t : ResType) (p n : Nat) : Logs P (resAdd k t p n) :=
  fun _ _ => ⟨[], .nil rfl rfl, fun _ hx => by cases hx⟩

theorem answered_lib (q : QEnv) (v : Device) (fn : LibFn) (args : List Nat)
    (data : List (List UInt8)) : Answered q.env v ((lib fn args data).run q v).2
      [(⟨fn, args, data⟩, q.env.ret v.clock ⟨fn, args, data⟩)] := by
  refine ⟨rfl, rfl, fun i x hx => ?_⟩
  obtain ⟨hi, rfl⟩ := List.getElem?_eq_some_iff.mp hx
  have h0 : i = 0 := by simpa using hi
  subst h0
  rfl

theorem logs_lib {fn : LibFn} {args : List Nat} {data : List (List UInt8)}
    (h : P ⟨fn, args, data⟩) : Logs P (query (lib fn args data)) :=
  fun e s => ⟨_, answered_lib ⟨e, s.tab⟩ s.dev fn args data, List.forall_mem_singleton.mpr h⟩

theorem registerRegions_answered (q : QEnv) (rs : List (Nat × Nat)) (v : Device) :
    ∃ os, Answered q.env v ((registerRegions rs).run q v).2 os ∧
      ∀ x ∈ os, x.1.fn = .cuMemHostRegister := by
  induction rs generalizing v with
  | nil => exact ⟨[], .nil rfl rfl, fun _ hx => by cases hx⟩
  | cons r rs ih =>
    unfold registerRegions
    split
    next =>
      obtain ⟨os, h, hos⟩ := ih ((lib .cuMemHostRegister [r.1, r.2, 1] []).run q v).2
      refine ⟨_, (answered_lib q v .cuMemHostRegister [r.1, r.2, 1] []).append h, ?_⟩
      exact List.forall_mem_cons.mpr ⟨rfl, hos⟩
    next => exact ih v

theorem logs_registerGuestMemory (hP : ∀ c : LibCall, c.fn = .cuMemHostRegister → P c) :
    Logs P (query registerGuestMemory) := by
  intro e s
  show ∃ os, Answered e s.dev (registerGuestMemory.run ⟨e, s.tab⟩ s.dev).2 os ∧ ∀ x ∈ os, P x.1
  by_cases hr : s.dev.registered
  · refine ⟨[], ?_, fun _ hx => by cases hx⟩
    simp only [registerGuestMemory, Prog.bind_run, Prog.get_run, hr, if_true]
    exact .nil rfl rfl
  · obtain ⟨os, h, hos⟩ := registerRegions_answered ⟨e, s.tab⟩ e.regions s.dev
    refine ⟨os, ?_, fun x hx => hP x.1 (hos x hx)⟩
    simp only [registerGuestMemory, Prog.bind_run, Prog.get_run, hr]
    exact ⟨h.calls, h.clock, h.ret⟩

end Logs

/-! What destroying a context calls -/

def Context.entries (c : Context) (t : ResType) : List Nat :=
  ((c.resources t).map (·.realPtr)).filter (· ≠ 0)

def releaseCalls (c : Context) (t : ResType) : List LibCall :=
  match freeCall t with
  | some fn => (c.entries t).map fun p => ⟨fn, [p], []⟩
  | none => []

theorem freeResourceList_answered (q : QEnv) (t : ResType) (rs : List Resource) (v : Device) :
    ∃ os, Answered q.env v ((freeResourceList t rs).run q v).2 os ∧
      os.map Prod.fst = match freeCall t with
        | some fn => ((rs.map (·.realPtr)).filter (· ≠ 0)).map fun p => ⟨fn, [p], []⟩
        | none => [] := by
  induction rs generalizing v with
  | nil => exact ⟨[], .nil rfl rfl, by cases freeCall t <;> rfl⟩
  | cons r rs ih =>
    unfold freeResourceList
    rcases hf : freeCall t with _ | fn
    · obtain ⟨os, h, hos⟩ := ih v
      rw [hf] at hos
      exact ⟨os, h, hos⟩
    · by_cases h0 : r.realPtr = 0
      · obtain ⟨os, h, hos⟩ := ih v
        rw [hf] at hos
        refine ⟨os, ?_, ?_⟩
        · simp only [h0, ne_eq, not_true_eq_false, if_false]
          exact h
        · rw [hos]
          simp [h0]
      · obtain ⟨os, h, hos⟩ := ih ((lib fn [r.realPtr] []).run q v).2
        rw [hf] at hos
        refine ⟨[(⟨fn, [r.realPtr], []⟩, q.env.ret v.clock ⟨fn, [r.realPtr], []⟩)] ++ os, ?_, ?_⟩
        · simp only [ne_eq, h0, not_false_eq_true, if_true]
          exact (answered_lib q v fn [r.realPtr] []).append h
        · rw [List.map_append, hos]
          simp [h0]

theorem freeResourceLists_answered (q : QEnv) (c : Context) (ts : List ResType) (v : Device) :
    ∃ os, Answered q.env v ((freeResourceLists c ts).run q v).2 os ∧
      os.map Prod.fst = ts.flatMap (releaseCalls c) := by
  induction ts generalizing v with
  | nil => exact ⟨[], .nil rfl rfl, rfl⟩
  | cons t ts ih =>
    obtain ⟨os, h, hos⟩ := freeResourceList_answered q t (c.resources t) v
    obtain ⟨os', h', hos'⟩ := ih ((freeResourceList t (c.resources t)).run q v).2
    exact ⟨os ++ os', h.append h', by rw [List.map_append, hos, hos']; rfl⟩

theorem ctxDestroy_answered (e : Env) (c : Context) (s : Machine) :
    ∃ os, Answered e s.dev ((ctxDestroy c).run e s).2.dev os ∧
      os.map Prod.fst = ResType.all.flatMap (releaseCalls c) :=
  freeResourceLists_answered ⟨e, (s.tab.ctxUnlink c.key)⟩ c ResType.all s.dev

/-! The live objects and the tables -/

def stock (live : List Obj) (k : Key) (t : ResType) : List Nat :=
  (live.filter fun o => o.key = k ∧ o.kind.list = t).map (·.ptr)

theorem stock_cons (o : Obj) (live : List Obj) (k : Key) (t : ResType) :
    stock (o :: live) k t =
      if o.key = k ∧ o.kind.list = t then o.ptr :: stock live k t else stock live k t := by
  unfold stock
  by_cases h : o.key = k ∧ o.kind.list = t
  · rw [if_pos h, List.filter_cons_of_pos (by simpa using h), List.map_cons]
  · rw [if_neg h, List.filter_cons_of_neg (by simpa using h)]

theorem stock_perm {live live' : List Obj} (h : live.Perm live') (k : Key) (t : ResType) :
    (stock live k t).Perm (stock live' k t) := (h.filter _).map _

theorem stock_others (live : List Obj) (k k' : Key) (t : ResType) :
    stock (live.filter (·.key ≠ k)) k' t = if k' = k then [] else stock live k' t := by
  unfold stock
  rw [List.filter_filter]
  split
  next h =>
    subst h
    rw [List.filter_eq_nil_iff.mpr fun o _ => by simp; tauto]
    rfl
  next h =>
    congr 1
    refine List.filter_congr fun o _ => ?_
    by_cases ho : o.key = k'
    · simp [ho, h]
    · simp [ho]

def StockInv (t : Tables) (live : List Obj) : Prop :=
  ∀ k c ty, ty.stocked → t.ctxGet k = some c → (c.entries ty).Perm (stock live k ty)

section Inv
variable {t t' : Tables} {live : List Obj} {k : Key} {kind : ObjKind} {h : Nat}

theorem StockInv.update {f : Context → Context} (hinv : StockInv t live)
    (ht : ∀ k', t'.ctxGet k' = if k' = k then (t.ctxGet k).map f else t.ctxGet k')
    (hf : ∀ c ty, ty.stocked → (f c).resources ty = c.resources ty) : StockInv t' live := by
  intro k' c ty hty hc
  rw [ht] at hc
  split at hc
  next hk =>
    subst hk
    obtain ⟨d, hd, rfl⟩ := Option.map_eq_some_iff.mp hc
    rw [Context.entries, hf d ty hty]
    exact hinv k' d ty hty hd
  next => exact hinv k' c ty hty hc

theorem StockInv.push {p n : Nat} (hinv : StockInv t live)
    (ht : ∀ k', t'.ctxGet k' = if k' = k then (t.ctxGet k).map (·.push kind.list ⟨h, p, n⟩)
      else t.ctxGet k') :
    StockInv t' (if p = 0 then live else ⟨k, kind, p⟩ :: live) := by
  intro k' c ty hty hc
  rw [ht] at hc
  split at hc
  next hk =>
    subst hk
    obtain ⟨d, hd, rfl⟩ := Option.map_eq_some_iff.mp hc
    have hold := hinv k' d ty hty hd
    rw [Context.entries, Context.push_resources]
    by_cases hp : p = 0
    · rw [if_pos hp]
      split
      next hl =>
        subst hl
        simpa [hp, Context.entries] using hold
      next => exact hold
    · rw [if_neg hp, stock_cons]
      split
      next hl =>
        subst hl
        rw [if_pos ⟨rfl, rfl⟩]
        simpa [hp, Context.entries] using hold
      next hl =>
        rw [if_neg fun hn => hl hn.2.symm]
        exact hold
  next hk =>
    split
    next => exact hinv k' c ty hty hc
    next =>
      rw [stock_cons, if_neg fun hn => hk hn.1.symm]
      exact hinv k' c ty hty hc

theorem StockInv.unlisted (hinv : StockInv t live)
    (hno : ∀ c, t.ctxGet k = some c → (c.resources kind.list).find? (·.handle = h) = none) :
    StockInv (t.resRemove k kind.list h) live := by
  intro k' c ty hty hc
  rw [Tables.resRemove, Tables.ctxGet_ctxUpdate t k k' (Context.resRemove_key · kind.list h)] at hc
  split at hc
  next hk =>
    subst hk
    obtain ⟨d, hd, rfl⟩ := Option.map_eq_some_iff.mp hc
    rw [Context.entries, Context.resRemove_resources]
    split
    next hl =>
      subst hl
      rw [List.eraseP_of_forall_not (List.find?_eq_none.mp (hno d hd))]
      exact hinv k' d _ hty hd
    next => exact hinv k' d ty hty hd
  next => exact hinv k' c ty hty hc

theorem StockInv.remove {p : Nat} (hinv : StockInv t live) (hp : p ≠ 0)
    (hlive : ⟨k, kind, p⟩ ∈ live)
    (hentry : ∀ c, t.ctxGet k = some c →
      ∃ r, (c.resources kind.list).find? (·.handle = h) = some r ∧ r.realPtr = p) :
    StockInv (t.resRemove k kind.list h) (live.erase ⟨k, kind, p⟩) := by
  have hperm := List.perm_cons_erase hlive
  -- what is left is stocked as before, up to the object itself
  have hstock (k' : Key) (ty : ResType) := (stock_perm hperm k' ty)
  intro k' c ty hty hc
  rw [Tables.resRemove, Tables.ctxGet_ctxUpdate t k k' (Context.resRemove_key · kind.list h)] at hc
  have hothers (hne : ¬(k = k' ∧ kind.list = ty)) :
      (stock live k' ty).Perm (stock (live.erase ⟨k, kind, p⟩) k' ty) := by
    have hs := hstock k' ty
    rw [stock_cons, if_neg hne] at hs
    exact hs
  split at hc
  next hk =>
    subst hk
    obtain ⟨d, hd, rfl⟩ := Option.map_eq_some_iff.mp hc
    have hold := hinv k' d ty hty hd
    rw [Context.entries, Context.resRemove_resources]
    split
    next hl =>
      subst hl
      obtain ⟨r, hfind, hr⟩ := hentry d hd
      obtain ⟨hh, as, bs, hsplit, has⟩ := List.find?_eq_some_iff_append.mp hfind
      have herase : (d.resources kind.list).eraseP (·.handle = h) = as ++ bs := by
        rw [hsplit, List.eraseP_append_right _ fun b hb => by simpa using has b hb]
        rw [List.eraseP_cons, hh]
        rfl
      rw [Context.entries, hsplit] at hold
      rw [herase]
      have hs := hold.trans (hstock k' kind.list)
      rw [stock_cons, if_pos ⟨rfl, rfl⟩] at hs
      refine List.Perm.cons_inv (a := p) (List.Perm.trans ?_ hs)
      simp only [List.map_append, List.map_cons, List.filter_append, hr]
      rw [List.filter_cons_of_pos (by simpa using hp)]
      exact List.perm_middle.symm
    next hl => exact hold.trans (hothers fun hn => hl hn.2.symm)
  next hk => exact (hinv k' c ty hty hc).trans (hothers fun hn => hk hn.1.symm)

theorem StockInv.renew (hinv : StockInv t live) :
    StockInv ((t.ctxUnlink k).ctxCreate k) (live.filter (·.key ≠ k)) := by
  intro k' c ty hty hc
  rw [LedgerInv.ctxGet_renew] at hc
  rw [stock_others]
  split at hc
  next hk =>
    cases hc
    rw [if_pos hk]
    exact .rfl
  next hk =>
    rw [if_neg hk]
    exact hinv k' c ty hty hc

end Inv

/-! Calls that acquire, in a session that is not destroyed -/

theorem LibFn.acquires_of_releases {fn : LibFn} (h : fn.releases = some kind) :
    fn.acquires = none ∧ fn ≠ .cudaDeviceReset := by
  cases fn <;> simp_all [LibFn.releases, LibFn.acquires]

/-- Where `P` holds of the tables and the live objects, `m` leaves them as `Q` says. -/
def Holds {α : Type} (e : Env) (k : Key) (P : Tables → List Obj → Prop) (m : CoreM α)
    (Q : α → Tables → List Obj → Prop) : Prop :=
  ∀ s live, P s.tab live → ∃ os, Answered e s.dev (m.run e s).2.dev os ∧
    Q (m.run e s).1 (m.run e s).2.tab (os.foldl (objsAfter k) live)

section Holds
variable {α β : Type} {e : Env} {k : Key} {P : Tables → List Obj → Prop} {m : CoreM α}
  {f : α → CoreM β} {Q : α → Tables → List Obj → Prop} {R : β → Tables → List Obj → Prop}

theorem holds_pure {a : α} (h : ∀ t live, P t live → Q a t live) :
    Holds e k P (pure a : CoreM α) Q :=
  fun s live hP => ⟨[], .nil rfl rfl, h s.tab live hP⟩

theorem holds_bind (hm : Holds e k P m Q) (hf : ∀ a, Holds e k (Q a) (f a) R) :
    Holds e k P (m >>= f) R := by
  intro s live hP
  obtain ⟨os, h, hQ⟩ := hm s live hP
  obtain ⟨os', h', hR⟩ := hf _ _ _ hQ
  exact ⟨os ++ os', h.append h', by rw [List.foldl_append]; exact hR⟩

theorem holds_discard {Q : Tables → List Obj → Prop} (hm : Holds e k P m fun _ => Q) :
    Holds e k P (do let _ ← m : CoreM Unit) fun _ => Q := fun s live hP => hm s live hP

theorem holds_ite {c : Prop} [Decidable c] {n : CoreM α} (hm : c → Holds e k P m Q)
    (hn : ¬c → Holds e k P n Q) : Holds e k P (if c then m else n) Q := by
  split
  next h => exact hm h
  next h => exact hn h

theorem holds_table {g : Tables → Tables} {Q : Tables → List Obj → Prop}
    (h : ∀ t live, P t live → Q (g t) live) : Holds e k P (table g) fun _ => Q :=
  fun s live hP => ⟨[], .nil rfl rfl, h s.tab live hP⟩

theorem holds_resAdd {ty : ResType} {p n : Nat} {Q : Tables → List Obj → Prop}
    (h : ∀ t live, P t live → Q (t.resAdd k ty p n).2 live) :
    Holds e k P (resAdd k ty p n) fun _ => Q :=
  fun s live hP => ⟨[], .nil rfl rfl, h s.tab live hP⟩

/-- What a call leaves of the live objects depends on its answer only. -/
theorem holds_lib (fn : LibFn) (args : List Nat) (data : List (List UInt8)) :
    Holds e k P (query (lib fn args data)) fun r t live' =>
      ∃ live, P t live ∧ live' = objsAfter k live (⟨fn, args, data⟩, r) :=
  fun s live hP => ⟨_, answered_lib ⟨e, s.tab⟩ s.dev fn args data, live, hP, rfl⟩

theorem holds_withCtxM {missing : α} {g : Context → CoreM α}
    (hmissing : ∀ t live, P t live → Q missing t live) (h : ∀ c, Holds e k P (g c) Q) :
    Holds e k P (withCtxM k missing g) Q := by
  intro s live hP
  unfold withCtxM
  dsimp only
  rcases s.tab.ctxGet k with _ | c
  · exact ⟨[], .nil rfl rfl, hmissing s.tab live hP⟩
  · exact h c s live hP

end Holds

/-! The commands -/

/-- The commands that acquire or release objects, and the others that change the tables. -/
inductive ObjCmd where
  | init
  | retain (device : Nat)
  | malloc (size : Nat)
  | cuMemAlloc (bytesize : Nat)
  | cuMemAddressReserve (size alignment addr flags : Nat)
  | streamCreate (flags : Nat)
  | cuStreamCreate (flags : Nat)
  | eventCreate (flags : Nat)
  | cuEventCreate (flags : Nat)
  | registerFatbin (image : List UInt8)
  | cuMemHostAlloc (bytesize flags guestVa byteOffset : Nat) (hostPtr : Space × Nat)
      (batchSize : Nat)
  | cuMemCreate (size : Nat) (prop : List Nat) (flags : Nat)
  | cuMemImport (shareable handleType : Nat)
  | cuMulticastCreate (prop : List Nat)
  | free (devPtr : Nat)
  | cuMemFree (handle : Nat)
  | cuMemAddressFree (va size : Nat)
  | cuStreamDestroy (stream : Nat)
  | eventDestroy (event : Nat)
  | cuEventDestroy (event : Nat)
  | cuMemFreeHost (guestVa : Nat)
  | cuMemRelease (handle : Nat)
  | cuStreamGetCtx (stream : Nat)
  | registerFunction (module hostFun : Nat) (name : List UInt8)

def ObjCmd.exec (k : Key) : ObjCmd → CoreM Unit
  | init => do let _ ← coreInit k
  | retain device => do let _ ← coreCuDevicePrimaryCtxRetain k device
  | malloc size => do let _ ← coreMalloc k size
  | cuMemAlloc bytesize => do let _ ← coreCuMemAlloc k bytesize
  | cuMemAddressReserve size alignment addr flags => do
    let _ ← coreCuMemAddressReserve k size alignment addr flags
  | streamCreate flags => do let _ ← coreStreamCreate k flags
  | cuStreamCreate flags => do let _ ← coreCuStreamCreate k flags
  | eventCreate flags => do let _ ← coreEventCreate k flags
  | cuEventCreate flags => do let _ ← coreCuEventCreate k flags
  | registerFatbin image => do let _ ← coreRegisterFatbin k image
  | cuMemHostAlloc bytesize flags guestVa byteOffset hostPtr batchSize => do
    let _ ← coreCuMemHostAllocVq k bytesize flags guestVa byteOffset hostPtr batchSize
  | cuMemCreate size prop flags => do let _ ← coreCuMemCreate k size prop flags
  | cuMemImport shareable handleType => do let _ ← coreCuMemImport k shareable handleType
  | cuMulticastCreate prop => do let _ ← coreCuMulticastCreate k prop
  | free devPtr => do let _ ← coreFree k devPtr
  | cuMemFree handle => do let _ ← coreCuMemFree k handle
  | cuMemAddressFree va size => do let _ ← coreCuMemAddressFree k va size
  | cuStreamDestroy stream => do let _ ← coreCuStreamDestroy k stream
  | eventDestroy event => do let _ ← coreEventDestroy k event
  | cuEventDestroy event => do let _ ← coreCuEventDestroy k event
  | cuMemFreeHost guestVa => do let _ ← coreCuMemFreeHost k guestVa
  | cuMemRelease handle => do let _ ← coreCuMemRelease k handle
  | cuStreamGetCtx stream => do let _ ← coreCuStreamGetCtx k stream
  | registerFunction module hostFun name => do let _ ← coreRegisterFunction k module hostFun name

/-- The kind of object a command releases, and the handle it removes. -/
def ObjCmd.releasing : ObjCmd → Option (ObjKind × Nat)
  | free h | cuMemFree h => some (.memory, h)
  | cuMemAddressFree h _ => some (.reserved, h)
  | cuStreamDestroy h => some (.stream, h)
  | eventDestroy h | cuEventDestroy h => some (.event, h)
  | cuMemFreeHost h => some (.pinned, h)
  | cuMemRelease h => some (.generic, h)
  | _ => none

/-- A command destroys the context of its session: INIT always, a retain when CUDA refuses
it, which is when it resets the device. -/
def ObjCmd.destroys (os : List (LibCall × LibRet)) : ObjCmd → Bool
  | init => true
  | retain _ => os.any (·.1.fn = .cudaDeviceReset)
  | _ => false

/-- What a command leaves of the live objects. A session that starts again has acquired none
through its new table. -/
def ObjCmd.leaves (k : Key) (live : List Obj) (os : List (LibCall × LibRet)) (c : ObjCmd) :
    List Obj :=
  if c.destroys os then (os.foldl (objsAfter k) live).filter (·.key ≠ k)
  else os.foldl (objsAfter k) live

/-- The tables, and the objects acquired through them and not released; the list is
history. -/
structure Stock where
  tab : Tables
  live : List Obj

def Resets (os : List (LibCall × LibRet)) : Prop :=
  ∃ x ∈ os, x.1.fn = .cudaDeviceReset ∧ x.2.code = 0

/-- A command that releases removes the entry of the object it released, and no entry if CUDA
refused; no device reset hits a live object of another session. -/
def ObjCmd.Clean (k : Key) (s : Stock) (os : List (LibCall × LibRet)) (c : ObjCmd) : Prop :=
  (c.destroys os = true → Resets os → ∀ o ∈ s.live, o.key = k) ∧
  ∀ kind h, c.releasing = some (kind, h) → ∀ ctx, s.tab.ctxGet k = some ctx → ∀ x ∈ os,
    if x.2.code = 0 then
      ⟨k, kind, x.1.args.headD 0⟩ ∈ s.live ∧
        ∃ r, (ctx.resources kind.list).find? (·.handle = h) = some r ∧
          r.realPtr = x.1.args.headD 0
    else (ctx.resources kind.list).find? (·.handle = h) = none

def Stock.serve (s : Stock) (k : Key) (c : ObjCmd) (e : Env) (v : Device) : Stock :=
  let s' := ((c.exec k).run e ⟨s.tab, v⟩).2
  ⟨s'.tab, c.leaves k s.live (answers e v s'.dev)⟩

/-- The runs of commands of any sessions, from an empty backend. What else the backend does
between them acquires and releases nothing. -/
inductive StockRun : Stock → Prop where
  | start : StockRun ⟨.start, []⟩
  | serve {s : Stock} (run : StockRun s) (k : Key) (c : ObjCmd) (e : Env) (v : Device)
      (clean : c.Clean k s (answers e v ((c.exec k).run e ⟨s.tab, v⟩).2.dev)) :
      StockRun (s.serve k c e v)

/-- No reserved range is left to cudaFree, and no reset has already taken the objects that the
walk of the lists releases. -/
def ObjCmd.Covers (k : Key) (s : Stock) (os : List (LibCall × LibRet)) (c : ObjCmd) : Prop :=
  (∀ o ∈ s.live, o.key = k → o.kind ≠ .reserved) ∧
  ∀ device, c = .retain device → Resets os → ∀ o ∈ s.live, o.key ≠ k

/-- The objects of a kind that calls release; cudaFree of NULL releases none. -/
def freed (kind : ObjKind) (cs : List LibCall) : List Nat :=
  ((cs.filter (·.fn.releases = some kind)).map (·.args.headD 0)).filter (· ≠ 0)

def held (live : List Obj) (k : Key) (kind : ObjKind) : List Nat :=
  (live.filter fun o => o.key = k ∧ o.kind = kind).map (·.ptr)

/-! Commands that acquire -/

section Acquire
variable {e : Env} {k : Key} {α : Type} {p : Nat}

/-- CUDA has given `p`, and the table does not hold it yet. -/
def Acquired (k : Key) (kind : ObjKind) (p : Nat) (t : Tables) (live' : List Obj) : Prop :=
  ∃ live, StockInv t live ∧ live' = if p = 0 then live else ⟨k, kind, p⟩ :: live

theorem holds_acquire (kind : ObjKind) {fn : LibFn} {args : List Nat} {data : List (List UInt8)}
    {f : LibRet → CoreM α} {Q : α → Tables → List Obj → Prop} (hfn : fn.acquires = some kind)
    (hbad : ∀ r, r.code ≠ 0 → Holds e k StockInv (f r) Q)
    (hok : ∀ r, r.code = 0 → Holds e k (Acquired k kind (r.out 0)) (f r) Q) :
    Holds e k StockInv (query (lib fn args data) >>= f) Q := by
  have hreset : fn ≠ .cudaDeviceReset := by
    rintro rfl
    cases hfn
  refine holds_bind (holds_lib fn args data) fun r s live' hP => ?_
  obtain ⟨live, hinv, rfl⟩ := hP
  by_cases hr : r.code = 0
  · refine hok r hr s _ ⟨live, hinv, ?_⟩
    simp only [objsAfter, hr, hfn, hreset, ne_eq, not_true_eq_false, if_false]
  · refine hbad r hr s _ ?_
    simpa only [objsAfter, ne_eq, hr, not_false_eq_true, if_true] using hinv

theorem holds_enter (kind : ObjKind) {n h : Nat} : Holds e k (Acquired k kind p)
    (table (·.resAddWithHandle k kind.list p n h)) fun _ => StockInv := by
  refine holds_table fun t live' ⟨live, hinv, hl⟩ => ?_
  rw [hl]
  exact hinv.push fun _ => Tables.ctxGet_ctxUpdate _ _ _ fun _ => rfl

theorem holds_add (kind : ObjKind) {n : Nat} :
    Holds e k (Acquired k kind p) (resAdd k kind.list p n) fun _ => StockInv := by
  refine holds_resAdd fun t live' ⟨live, hinv, hl⟩ => ?_
  rw [hl]
  exact hinv.push fun _ => Tables.ctxGet_ctxUpdate _ _ _ fun _ => rfl

theorem StockInv.push_other {t t' : Tables} {live : List Obj} (ty : ResType) {r : Resource}
    (hinv : StockInv t live) (hty : ¬ty.stocked)
    (ht : ∀ k', t'.ctxGet k' = if k' = k then (t.ctxGet k).map (·.push ty r) else t.ctxGet k') :
    StockInv t' live := by
  refine hinv.update ht fun c ty' hty' => ?_
  rw [Context.push_resources, if_neg]
  rintro rfl
  exact hty hty'

theorem holds_idle {P : Tables → List Obj → Prop} {fn : LibFn} {args : List Nat}
    {data : List (List UInt8)} (ha : fn.acquires = none) (hr : fn.releases = none)
    (hd : fn ≠ .cudaDeviceReset) : Holds e k P (query (lib fn args data)) fun _ => P := by
  intro s live hP
  refine ⟨_, answered_lib ⟨e, s.tab⟩ s.dev fn args data, ?_⟩
  show P s.tab (objsAfter k live _)
  simpa only [objsAfter, ha, hr, hd, if_false, ite_self] using hP

theorem holds_silent {P : Tables → List Obj → Prop} {m : QueryM α}
    (h : ∀ q v, Answered q.env v (m.run q v).2 []) : Holds e k P (query m) fun _ => P :=
  fun s _ hP => ⟨[], h ⟨e, s.tab⟩ s.dev, hP⟩

theorem holds_keep (a : α) : Holds e k StockInv (pure a : CoreM α) fun _ => StockInv :=
  holds_pure fun _ _ h => h

theorem holds_issue (kind : ObjKind) {fn : LibFn} {args : Context → List Nat} {n : Nat}
    {missing : α} {good : LibRet → Nat → α} {bad : LibRet → α} (hfn : fn.acquires = some kind) :
    Holds e k StockInv (withCtxM k missing fun c => do
      let r ← query (lib fn (args c) [])
      if r.code = 0 then
        let h ← resAdd k kind.list (r.out 0) n
        return good r h
      else
        return bad r) fun _ => StockInv :=
  holds_withCtxM (fun _ _ h => h) fun _ => holds_acquire kind hfn
    (fun r hr => by
      rw [if_neg hr]
      exact holds_keep _)
    fun r hr => by
      rw [if_pos hr]
      exact holds_bind (holds_add kind) fun _ => holds_keep _

theorem holds_place (kind : ObjKind) {fn : LibFn} {args : Context → List Nat} {n : Nat}
    {missing : α} {good bad : LibRet → α} (hfn : fn.acquires = some kind) :
    Holds e k StockInv (withCtxM k missing fun c => do
      let r ← query (lib fn (args c) [])
      if r.code = 0 then
        table (·.resAddWithHandle k kind.list (r.out 0) n (r.out 0))
        return good r
      else
        return bad r) fun _ => StockInv :=
  holds_withCtxM (fun _ _ h => h) fun _ => holds_acquire kind hfn
    (fun r hr => by
      rw [if_neg hr]
      exact holds_keep _)
    fun r hr => by
      rw [if_pos hr]
      exact holds_bind (holds_enter kind) fun _ => holds_keep _

theorem holds_registerFatbin {image : List UInt8} :
    Holds e k StockInv (coreRegisterFatbin k image) fun _ => StockInv := by
  refine holds_withCtxM (fun _ _ h => h) fun _ => holds_acquire .module rfl
    (fun r hr => ?_) fun r hr => ?_
  · rw [if_pos hr]
    exact holds_bind (holds_idle rfl rfl (by decide)) fun _ => holds_keep _
  · rw [if_neg (not_not.mpr hr)]
    exact holds_bind (holds_add .module) fun _ => holds_keep _

theorem copyToHostAlloc_silent {guestVa byteOffset len : Nat} {hp : Space × Nat} (q : QEnv)
    (v : Device) :
    Answered q.env v ((copyToHostAlloc k guestVa byteOffset hp len).run q v).2 [] := by
  unfold copyToHostAlloc withCtx
  dsimp only
  rcases q.tab.ctxGet k with _ | c
  · exact .nil rfl rfl
  · dsimp only
    rcases c.resFind .hostMem guestVa with _ | r
    · exact .nil rfl rfl
    · dsimp only
      split
      next => exact .nil rfl rfl
      next => exact .nil rfl rfl

theorem holds_hostAlloc {bytesize flags guestVa byteOffset len : Nat} {hp : Space × Nat} :
    Holds e k StockInv (coreCuMemHostAllocVq k bytesize flags guestVa byteOffset hp len)
      fun _ => StockInv := by
  have copy : Holds e k StockInv (query (copyToHostAlloc k guestVa byteOffset hp len))
      fun _ => StockInv := holds_silent copyToHostAlloc_silent
  refine holds_withCtxM (fun _ _ h => h) fun _ => holds_ite (fun _ => ?_) fun _ => copy
  refine holds_acquire .pinned rfl (fun r hr => ?_) fun r hr => ?_
  · rw [if_pos hr]
    exact holds_keep _
  · rw [if_neg (not_not.mpr hr)]
    refine holds_bind (holds_enter .pinned) fun _ => ?_
    refine holds_bind (holds_idle rfl rfl (by decide)) fun g => ?_
    refine holds_ite (fun _ => ?_) fun _ => copy
    refine holds_bind (holds_table fun t live hinv => ?_) fun _ => copy
    exact hinv.push_other .hostDevPtr (by decide) fun _ =>
      Tables.ctxGet_ctxUpdate _ _ _ fun _ => rfl

theorem holds_streamGetCtx {stream : Nat} :
    Holds e k StockInv (coreCuStreamGetCtx k stream) fun _ => StockInv := by
  refine holds_withCtxM (fun _ _ h => h) fun c => holds_bind (holds_idle rfl rfl (by decide))
    fun r => holds_ite (fun _ => ?_) fun _ => holds_keep _
  refine holds_ite (fun _ => ?_) fun _ => holds_keep _
  refine holds_bind (holds_resAdd fun t live hinv => ?_) fun _ => holds_keep _
  exact hinv.push_other .context (by decide) fun _ =>
    Tables.ctxGet_ctxUpdate _ _ _ fun _ => rfl

theorem holds_registerFunction {module hostFun : Nat} {name : List UInt8} :
    Holds e k StockInv (coreRegisterFunction k module hostFun name) fun _ => StockInv := by
  refine holds_bind (holds_idle rfl rfl (by decide)) fun r => holds_ite (fun _ => ?_) fun _ => ?_
  · exact holds_bind (holds_idle rfl rfl (by decide)) fun _ => holds_keep _
  · refine holds_bind (holds_table fun t live hinv => ?_) fun _ => holds_keep _
    exact hinv.push_other .function (by decide) fun _ =>
      Tables.ctxGet_ctxUpdate _ _ _ fun _ => rfl

end Acquire

/-! Commands that release -/

section Release
variable {α : Type} {e : Env} {k : Key} {s : Machine} {kind : ObjKind} {h : Nat} {m : CoreM α}

/-- The tables without the entry, as `m` leaves them. Pinned memory has a second entry. -/
def Tables.without (t : Tables) (k : Key) (kind : ObjKind) (h : Nat) : Tables :=
  if kind = .pinned then (t.resRemove k .hostMem h).resRemove k .hostDevPtr h
  else t.resRemove k kind.list h

/-- `m` does nothing, or makes one call, on an object of the kind, and removes the entry. -/
def Released (e : Env) (k : Key) (kind : ObjKind) (h : Nat) (m : CoreM α) (s : Machine) : Prop :=
  ((m.run e s).2.tab = s.tab ∧ Answered e s.dev (m.run e s).2.dev []) ∨
  ∃ c call, s.tab.ctxGet k = some c ∧ call.fn.releases = some kind ∧ call.args.headD 0 ≠ 0 ∧
    (m.run e s).2.tab = s.tab.without k kind h ∧
    Answered e s.dev (m.run e s).2.dev [(call, e.ret s.dev.clock call)]

theorem released_pure (a : α) : Released e k kind h (pure a) s := .inl ⟨rfl, .nil rfl rfl⟩

theorem released_withCtxM {missing : α} {g : Context → CoreM α}
    (hg : ∀ c, s.tab.ctxGet k = some c → Released e k kind h (g c) s) :
    Released e k kind h (withCtxM k missing g) s := by
  unfold Released withCtxM
  dsimp only
  rcases hc : s.tab.ctxGet k with _ | c
  · exact .inl ⟨rfl, .nil rfl rfl⟩
  · have hrel := hg c hc
    unfold Released at hrel
    rw [hc] at hrel
    exact hrel

theorem released_ite {c : Prop} [Decidable c] {n : CoreM α}
    (hm : c → Released e k kind h m s) (hn : ¬c → Released e k kind h n s) :
    Released e k kind h (if c then m else n) s := by
  split
  next h => exact hm h
  next h => exact hn h

theorem released_call {c : Context} {fn : LibFn} {args : List Nat} {f : LibRet → CoreM α}
    (hc : s.tab.ctxGet k = some c) (hfn : fn.releases = some kind) (harg : args.headD 0 ≠ 0)
    (hf : ∀ r s, ((f r).run e s).2 = ⟨s.tab.without k kind h, s.dev⟩) :
    Released e k kind h (query (lib fn args []) >>= f) s := by
  refine .inr ⟨c, ⟨fn, args, []⟩, hc, hfn, harg, ?_, ?_⟩
  · rw [Prog.bind_run, hf]
    rfl
  · rw [Prog.bind_run, hf]
    exact answered_lib ⟨e, s.tab⟩ s.dev fn args []

theorem released_get {fn : LibFn} {args : Context → List Nat} {missing err : α}
    {ret : LibRet → α} (hfn : fn.releases = some kind) (hkind : kind ≠ .pinned)
    (harg : ∀ c, (args c).headD 0 = c.resGet kind.list h) :
    Released e k kind h (withCtxM k missing fun c =>
      if c.resGet kind.list h = 0 then return err
      else do
        let r ← query (lib fn (args c) [])
        table (·.resRemove k kind.list h)
        return ret r) s :=
  released_withCtxM fun c hc => released_ite (fun _ => released_pure _) fun h0 =>
    released_call hc hfn (by rwa [harg]) fun r s => by
      rw [Tables.without, if_neg hkind]
      rfl

theorem released_get_ne {fn : LibFn} {args : Context → List Nat} {missing err : α}
    {ret : LibRet → α} (hfn : fn.releases = some kind) (hkind : kind ≠ .pinned)
    (harg : ∀ c, (args c).headD 0 = c.resGet kind.list h) :
    Released e k kind h (withCtxM k missing fun c =>
      if c.resGet kind.list h ≠ 0 then do
        let r ← query (lib fn (args c) [])
        table (·.resRemove k kind.list h)
        return ret r
      else return err) s :=
  released_withCtxM fun c hc => released_ite
    (fun h0 => released_call hc hfn (by rwa [harg]) fun r s => by
      rw [Tables.without, if_neg hkind]
      rfl) fun _ => released_pure _

theorem released_freeHost : Released e k .pinned h (coreCuMemFreeHost k h) s :=
  released_withCtxM fun _ hc => released_ite (fun _ => released_pure _) fun h0 =>
    released_call hc rfl h0 fun _ _ => rfl

theorem released_discard {m : CoreM α} (hm : Released e k kind h m s) :
    Released e k kind h (do let _ ← m : CoreM Unit) s := hm

theorem ObjCmd.released {c : ObjCmd} (hc : c.releasing = some (kind, h)) :
    Released e k kind h (c.exec k) s := by
  cases c
  case free | eventDestroy =>
    cases hc
    exact released_discard (released_get_ne rfl (by decide) fun _ => rfl)
  case cuMemFreeHost =>
    cases hc
    exact released_discard released_freeHost
  case cuMemFree | cuMemAddressFree | cuStreamDestroy | cuEventDestroy | cuMemRelease =>
    cases hc
    exact released_discard (released_get rfl (by decide) fun _ => rfl)
  all_goals cases hc

theorem StockInv.without {t : Tables} {live : List Obj}
    (hinv : StockInv (t.resRemove k kind.list h) live) : StockInv (t.without k kind h) live := by
  unfold Tables.without
  split
  next hk =>
    subst hk
    refine hinv.update (k := k) (Tables.ctxGet_ctxUpdate _ _ · fun _ => rfl) fun c ty hty => ?_
    rw [Context.resRemove_resources, if_neg]
    rintro rfl
    exact absurd hty (by decide)
  next => exact hinv

end Release

/-! Commands that destroy the context -/

section Destroy
variable {e : Env} {k : Key}

theorem foldl_others {live : List Obj} {os : List (LibCall × LibRet)}
    (h : Resets os → ∀ o ∈ live, o.key = k) :
    (os.foldl (objsAfter k) live).filter (·.key ≠ k) = live.filter (·.key ≠ k) := by
  have hnone (h : ∀ o ∈ live, o.key = k) : live.filter (·.key ≠ k) = [] :=
    List.filter_eq_nil_iff.mpr fun o ho => by simp [h o ho]
  generalize hL : live.filter (·.key ≠ k) = L at hnone ⊢
  have hreset : Resets os → L = [] := fun hr => hnone (h hr)
  clear h hnone
  induction os generalizing live with
  | nil => exact hL
  | cons x os ih =>
    refine ih ?_ fun ⟨y, hy, hr⟩ => hreset ⟨y, List.mem_cons_of_mem _ hy, hr⟩
    unfold objsAfter
    split
    next => exact hL
    next hok =>
      split
      next hfn =>
        rw [hreset ⟨x, List.mem_cons_self, hfn, not_not.mp hok⟩]
        rfl
      next =>
        -- what is acquired or released is an object of this session
        rcases x.1.fn.acquires with _ | kind
        · rcases x.1.fn.releases with _ | kind
          · exact hL
          · rw [← hL]
            dsimp only
            rw [← List.erase_filter, List.erase_of_not_mem (by simp)]
        · dsimp only
          split
          next => exact hL
          next =>
            rw [List.filter_cons_of_neg (by simp)]
            exact hL

/-- The call releases an object, which cudaFree does not when it is given NULL. -/
def LibCall.frees (c : LibCall) : Bool := c.fn.releases.isSome ∧ c.args.headD 0 ≠ 0

/-- What is called to destroy a session's context, among the calls of a command. -/
structure Destroyed (e : Env) (v v' : Device) (c : Context) (os : List (LibCall × LibRet)) :
    Prop where
  answered : Answered e v v' os
  calls : ∃ pre post, os.map Prod.fst = pre ++ ResType.all.flatMap (releaseCalls c) ++ post ∧
    (∀ x ∈ pre, x.frees = false) ∧ ∀ x ∈ post, x.frees = false

theorem coreInit_destroyed {c : Context} (s : Machine) (hc : s.tab.ctxGet k = some c) :
    ∃ os, Destroyed e s.dev ((coreInit k).run e s).2.dev c os := by
  have rest : Logs (fun x => x.frees = false) (do
      let res ← query (lib .cuInit [0] [])
      if res.code ≠ 0 then
        let _ ← query (lib .cuGetErrorString [res.code] [])
        return 3
      let err ← query (lib .cudaSetDevice [0] [])
      if err.code ≠ 0 then
        return err.code
      let err ← query (lib .cudaFree [0] [])
      if err.code ≠ 0 then
        let _ ← query (lib .cudaDeviceReset [] [])
        let err ← query (lib .cudaSetDevice [0] [])
        if err.code ≠ 0 then
          return err.code
        let err ← query (lib .cudaFree [0] [])
        return err.code
      return err.code) := by
    refine logs_bind (logs_lib rfl) fun _ => logs_ite
      (logs_bind (logs_lib rfl) fun _ => logs_pure _) ?_
    refine logs_bind (logs_lib rfl) fun _ => logs_ite (logs_pure _) ?_
    refine logs_bind (logs_lib rfl) fun _ => logs_ite ?_ (logs_pure _)
    refine logs_bind (logs_lib rfl) fun _ => logs_bind (logs_lib rfl) fun _ => ?_
    exact logs_ite (logs_pure _) (logs_bind (logs_lib rfl) fun _ => logs_pure _)
  obtain ⟨rel, hrel, hcalls⟩ := ctxDestroy_answered e c s
  obtain ⟨post, hpost, hfrees⟩ := rest e ((do ctxDestroy c; table (·.ctxCreate k)).run e s).2
  refine ⟨rel ++ post, ⟨?_, [], post.map Prod.fst, ?_, fun _ hx => (by cases hx), ?_⟩⟩
  · unfold coreInit
    simp only [Prog.bind_run, Prog.get_run, hc]
    exact hrel.append hpost
  · rw [List.map_append, hcalls, List.nil_append]
  · intro x hx
    obtain ⟨y, hy, rfl⟩ := List.mem_map.mp hx
    exact hfrees y hy

section Retain
variable {c : Context} {device : Nat} {s : Machine}

def retained (k : Key) (device : Nat) (r : LibRet) : CoreM (Nat × Option Nat) := do
  let h ← resAdd k .context (r.out 0) device
  query registerGuestMemory
  return (0, some h)

variable (device) in
theorem logs_retained {P : LibCall → Prop} (hP : ∀ c : LibCall, c.fn = .cuMemHostRegister → P c)
    (r : LibRet) : Logs P (retained k device r) :=
  logs_bind (logs_resAdd _ _ _) fun _ =>
    logs_bind (logs_registerGuestMemory hP) fun _ => logs_pure _

def retainAgain (k : Key) (device : Nat) : CoreM (Nat × Option Nat) := do
  let r ← query (lib .cuDevicePrimaryCtxRetain [device] [])
  if r.code ≠ 0 then
    return (r.code, none)
  retained k device r

theorem retain_run_accepted (hc : s.tab.ctxGet k = some c)
    (hr : (e.ret s.dev.clock ⟨.cuDevicePrimaryCtxRetain, [device], []⟩).code = 0) :
    (coreCuDevicePrimaryCtxRetain k device).run e s =
      (retained k device (e.ret s.dev.clock ⟨.cuDevicePrimaryCtxRetain, [device], []⟩)).run e
        ⟨s.tab, ((lib .cuDevicePrimaryCtxRetain [device] []).run ⟨e, s.tab⟩ s.dev).2⟩ := by
  unfold coreCuDevicePrimaryCtxRetain withCtxM
  dsimp only
  rw [hc]
  show (if (e.ret s.dev.clock ⟨.cuDevicePrimaryCtxRetain, [device], []⟩).code ≠ 0 then _ else _ :
    CoreM (Nat × Option Nat)).run e _ = _
  rw [if_neg (not_not.mpr hr)]
  rfl

theorem retain_accepted (hc : s.tab.ctxGet k = some c)
    (hr : (e.ret s.dev.clock ⟨.cuDevicePrimaryCtxRetain, [device], []⟩).code = 0) :
    ∃ p os, ((coreCuDevicePrimaryCtxRetain k device).run e s).2.tab =
        (s.tab.resAdd k .context p device).2 ∧
      Answered e s.dev ((coreCuDevicePrimaryCtxRetain k device).run e s).2.dev os ∧
      ∀ x ∈ os, x.1.fn = .cuDevicePrimaryCtxRetain ∨ x.1.fn = .cuMemHostRegister := by
  have first := answered_lib ⟨e, s.tab⟩ s.dev .cuDevicePrimaryCtxRetain [device] []
  obtain ⟨os, h, hos⟩ := logs_retained (k := k) device (fun _ hx => hx)
    (e.ret s.dev.clock ⟨.cuDevicePrimaryCtxRetain, [device], []⟩) e
    ⟨s.tab, ((lib .cuDevicePrimaryCtxRetain [device] []).run ⟨e, s.tab⟩ s.dev).2⟩
  rw [retain_run_accepted hc hr]
  refine ⟨_, _, rfl, first.append h, ?_⟩
  exact List.forall_mem_cons.mpr ⟨.inl rfl, fun x hx => .inr (hos x hx)⟩

/-- A retain that CUDA refuses resets the device, destroys the context and tries again. -/
theorem retain_run_refused (hc : s.tab.ctxGet k = some c)
    (hr : (e.ret s.dev.clock ⟨.cuDevicePrimaryCtxRetain, [device], []⟩).code ≠ 0) :
    ∃ u rel r, rel.map Prod.fst = ResType.all.flatMap (releaseCalls c) ∧ Answered e s.dev u
        ([(⟨.cuDevicePrimaryCtxRetain, [device], []⟩,
          e.ret s.dev.clock ⟨.cuDevicePrimaryCtxRetain, [device], []⟩)] ++
          [(⟨.cudaDeviceReset, [], []⟩, r)] ++ rel) ∧
      (coreCuDevicePrimaryCtxRetain k device).run e s =
        (retainAgain k device).run e ⟨(s.tab.ctxUnlink k).ctxCreate k, u⟩ := by
  have hk : c.key = k := by simpa using List.find?_some hc
  have first := answered_lib ⟨e, s.tab⟩ s.dev .cuDevicePrimaryCtxRetain [device] []
  generalize hv : ((lib .cuDevicePrimaryCtxRetain [device] []).run ⟨e, s.tab⟩ s.dev).2 = v at first
  have reset := answered_lib ⟨e, s.tab⟩ v .cudaDeviceReset [] []
  generalize hw : ((lib .cudaDeviceReset [] []).run ⟨e, s.tab⟩ v).2 = w at reset
  obtain ⟨rel, hrel, hcalls⟩ := ctxDestroy_answered e c ⟨s.tab, w⟩
  generalize hu : ((ctxDestroy c).run e ⟨s.tab, w⟩).2.dev = u at hrel
  refine ⟨u, rel, _, hcalls, (first.append reset).append hrel, ?_⟩
  rw [← hu, ← hw, ← hv, ← hk]
  unfold coreCuDevicePrimaryCtxRetain withCtxM
  dsimp only
  rw [hk, hc]
  show (if (e.ret s.dev.clock ⟨.cuDevicePrimaryCtxRetain, [device], []⟩).code ≠ 0 then _ else _ :
    CoreM (Nat × Option Nat)).run e _ = _
  rw [if_pos hr]
  subst hk
  rfl

variable (device) in
theorem logs_retainAgain {P : LibCall → Prop} (h : P ⟨.cuDevicePrimaryCtxRetain, [device], []⟩)
    (hP : ∀ c : LibCall, c.fn = .cuMemHostRegister → P c) : Logs P (retainAgain k device) :=
  logs_bind (logs_lib h) fun r => logs_ite (logs_pure _) (logs_retained device hP r)

/-- A retain that CUDA refuses destroys the context, after a reset. -/
theorem retain_refused (hc : s.tab.ctxGet k = some c)
    (hr : (e.ret s.dev.clock ⟨.cuDevicePrimaryCtxRetain, [device], []⟩).code ≠ 0) :
    ∃ os, Destroyed e s.dev ((coreCuDevicePrimaryCtxRetain k device).run e s).2.dev c os ∧
      os.any (·.1.fn = .cudaDeviceReset) = true ∧
      (((coreCuDevicePrimaryCtxRetain k device).run e s).2.tab = (s.tab.ctxUnlink k).ctxCreate k ∨
        ∃ p, ((coreCuDevicePrimaryCtxRetain k device).run e s).2.tab =
          (((s.tab.ctxUnlink k).ctxCreate k).resAdd k .context p device).2) := by
  obtain ⟨u, rel, r, hcalls, hu, hrun⟩ := retain_run_refused hc hr
  have hnone (x : LibCall) (hx : x.fn = .cuMemHostRegister) : x.frees = false := by
    simp [LibCall.frees, hx, LibFn.releases]
  obtain ⟨post, hpost, hfrees⟩ := logs_retainAgain (k := k) device
    (P := fun x => x.frees = false) rfl hnone e ⟨(s.tab.ctxUnlink k).ctxCreate k, u⟩
  rw [hrun]
  refine ⟨_, ⟨hu.append hpost, ?_⟩, ?_, ?_⟩
  · refine ⟨[⟨.cuDevicePrimaryCtxRetain, [device], []⟩, ⟨.cudaDeviceReset, [], []⟩],
      post.map Prod.fst, ?_, ?_, fun x hx => ?_⟩
    · simp only [List.map_append, hcalls, List.append_assoc]
      rfl
    · exact List.forall_mem_cons.mpr ⟨rfl, List.forall_mem_singleton.mpr rfl⟩
    · obtain ⟨y, hy, rfl⟩ := List.mem_map.mp hx
      exact hfrees y hy
  · simp
  · show ((if (e.ret u.clock ⟨.cuDevicePrimaryCtxRetain, [device], []⟩).code ≠ 0 then _ else _ :
      CoreM (Nat × Option Nat)).run e _).2.tab = _ ∨ ∃ p, ((if (e.ret u.clock
        ⟨.cuDevicePrimaryCtxRetain, [device], []⟩).code ≠ 0 then _ else _ :
      CoreM (Nat × Option Nat)).run e _).2.tab = _
    split
    next => exact .inl rfl
    next => exact .inr ⟨_, rfl⟩

end Retain

end Destroy

/-! The runs -/

section Run
variable {s : Stock} {k : Key} {cmd : ObjCmd} {e : Env} {v : Device} {live : List Obj}

theorem leaves_of_eq {os : List (LibCall × LibRet)} (h : cmd.destroys os = false) :
    cmd.leaves k live os = os.foldl (objsAfter k) live := by
  rw [ObjCmd.leaves, h]
  rfl

theorem Holds.serve (h : Holds e k StockInv (cmd.exec k) fun _ => StockInv)
    (hd : ∀ os, cmd.destroys os = false) (hinv : StockInv s.tab s.live) :
    StockInv (s.serve k cmd e v).tab (s.serve k cmd e v).live := by
  obtain ⟨os, hans, hos⟩ := h ⟨s.tab, v⟩ s.live hinv
  show StockInv _ (cmd.leaves k s.live (answers e v _))
  rw [hans.eq, leaves_of_eq (hd os)]
  exact hos

theorem StockInv.serve_release {kind : ObjKind} {h : Nat} (hinv : StockInv s.tab s.live)
    (hrel : cmd.releasing = some (kind, h)) (hd : ∀ os, cmd.destroys os = false)
    (clean : cmd.Clean k s (answers e v ((cmd.exec k).run e ⟨s.tab, v⟩).2.dev)) :
    StockInv (s.serve k cmd e v).tab (s.serve k cmd e v).live := by
  show StockInv ((cmd.exec k).run e ⟨s.tab, v⟩).2.tab (cmd.leaves k s.live (answers e v _))
  rcases ObjCmd.released (e := e) (k := k) (s := ⟨s.tab, v⟩) hrel with ⟨htab, hans⟩ |
    ⟨c, call, hc, hfn, harg, htab, hans⟩
  · rw [hans.eq, leaves_of_eq (hd _), htab]
    exact hinv
  · have hcall := clean.2 kind h hrel c hc
    rw [hans.eq] at hcall
    have hcall := hcall _ List.mem_cons_self
    obtain ⟨hacq, hreset⟩ := LibFn.acquires_of_releases hfn
    rw [hans.eq, leaves_of_eq (hd _), htab]
    refine StockInv.without ?_
    show StockInv _ (objsAfter k s.live (call, _))
    have hget {d : Context} (hd : s.tab.ctxGet k = some d) : d = c :=
      Option.some.inj (hd.symm.trans hc)
    by_cases h0 : (e.ret v.clock call).code = 0
    · rw [if_pos h0] at hcall
      have hafter : objsAfter k s.live (call, e.ret v.clock call) =
          s.live.erase ⟨k, kind, call.args.headD 0⟩ := by
        simp only [objsAfter, h0, hacq, hreset, hfn, ne_eq, not_true_eq_false, if_false]
      rw [hafter]
      exact hinv.remove harg hcall.1 fun d hd => hget hd ▸ hcall.2
    · rw [if_neg h0] at hcall
      have hafter : objsAfter k s.live (call, e.ret v.clock call) = s.live := if_pos h0
      rw [hafter]
      exact hinv.unlisted fun d hd => hget hd ▸ hcall

theorem StockInv.serve_init (hinv : StockInv s.tab s.live)
    (clean : ObjCmd.init.Clean k s (answers e v ((ObjCmd.init.exec k).run e ⟨s.tab, v⟩).2.dev)) :
    StockInv (s.serve k .init e v).tab (s.serve k .init e v).live := by
  have htab : (s.serve k .init e v).tab = (s.tab.ctxUnlink k).ctxCreate k := coreInit_tab _
  have hlive : (s.serve k .init e v).live = s.live.filter (·.key ≠ k) :=
    foldl_others (clean.1 rfl)
  rw [htab, hlive]
  exact hinv.renew

theorem StockInv.serve_retain {device : Nat} (hinv : StockInv s.tab s.live)
    (clean : (ObjCmd.retain device).Clean k s
      (answers e v (((ObjCmd.retain device).exec k).run e ⟨s.tab, v⟩).2.dev)) :
    StockInv (s.serve k (.retain device) e v).tab (s.serve k (.retain device) e v).live := by
  show StockInv ((coreCuDevicePrimaryCtxRetain k device).run e ⟨s.tab, v⟩).2.tab
    ((ObjCmd.retain device).leaves k s.live (answers e v
      ((coreCuDevicePrimaryCtxRetain k device).run e ⟨s.tab, v⟩).2.dev))
  have hcontext {t : Tables} {live : List Obj} {p : Nat} (h : StockInv t live) :
      StockInv (t.resAdd k .context p device).2 live :=
    h.push_other .context (by decide) fun _ => Tables.ctxGet_ctxUpdate _ _ _ fun _ => rfl
  rcases hc : s.tab.ctxGet k with _ | c
  · have hrun : (coreCuDevicePrimaryCtxRetain k device).run e ⟨s.tab, v⟩ =
        ((3, none), ⟨s.tab, v⟩) := by
      unfold coreCuDevicePrimaryCtxRetain withCtxM
      dsimp only
      rw [hc]
    have hans : Answered e v v [] := .nil rfl rfl
    rw [hrun]
    show StockInv s.tab ((ObjCmd.retain device).leaves k s.live (answers e v v))
    rw [hans.eq]
    exact hinv
  · by_cases hr : (e.ret v.clock ⟨.cuDevicePrimaryCtxRetain, [device], []⟩).code = 0
    · obtain ⟨p, os, htab, hans, hfn⟩ := retain_accepted (s := ⟨s.tab, v⟩) hc hr
      have hd : (ObjCmd.retain device).destroys os = false := by
        refine List.any_eq_false.mpr fun x hx => ?_
        rcases hfn x hx with h | h <;> simp [h]
      have hkeep (live : List Obj) : os.foldl (objsAfter k) live = live := by
        clear hans hd
        induction os generalizing live with
        | nil => rfl
        | cons x os ih =>
          rw [List.foldl_cons, ih fun y hy => hfn y (List.mem_cons_of_mem _ hy)]
          rcases hfn x List.mem_cons_self with h | h <;>
            simp [objsAfter, h, LibFn.acquires, LibFn.releases]
      rw [hans.eq, leaves_of_eq hd, hkeep, htab]
      exact hcontext hinv
    · obtain ⟨os, hdes, hreset, htab⟩ := retain_refused (s := ⟨s.tab, v⟩) hc hr
      have hd : (ObjCmd.retain device).destroys os = true := hreset
      have heq : answers e v (((ObjCmd.retain device).exec k).run e ⟨s.tab, v⟩).2.dev = os :=
        hdes.answered.eq
      rw [heq] at clean
      have hlive : (ObjCmd.retain device).leaves k s.live os = s.live.filter (·.key ≠ k) := by
        rw [ObjCmd.leaves, if_pos hd]
        exact foldl_others (clean.1 hd)
      rw [hdes.answered.eq, hlive]
      rcases htab with htab | ⟨p, htab⟩
      · rw [htab]
        exact hinv.renew
      · rw [htab]
        exact hcontext hinv.renew

theorem StockInv.serve (hinv : StockInv s.tab s.live)
    (clean : cmd.Clean k s (answers e v ((cmd.exec k).run e ⟨s.tab, v⟩).2.dev)) :
    StockInv (s.serve k cmd e v).tab (s.serve k cmd e v).live := by
  cases cmd
  case init => exact hinv.serve_init clean
  case retain => exact hinv.serve_retain clean
  case malloc | cuMemAlloc =>
    refine Holds.serve (holds_discard ?_) (fun _ => rfl) hinv
    refine holds_place .memory ?_
    rfl
  case cuMemAddressReserve =>
    refine Holds.serve (holds_discard ?_) (fun _ => rfl) hinv
    refine holds_place .reserved ?_
    rfl
  case streamCreate | cuStreamCreate =>
    refine Holds.serve (holds_discard ?_) (fun _ => rfl) hinv
    refine holds_issue .stream ?_
    rfl
  case eventCreate | cuEventCreate =>
    refine Holds.serve (holds_discard ?_) (fun _ => rfl) hinv
    refine holds_issue .event ?_
    rfl
  case cuMemCreate | cuMemImport | cuMulticastCreate =>
    refine Holds.serve (holds_discard ?_) (fun _ => rfl) hinv
    refine holds_issue .generic ?_
    rfl
  case registerFatbin => exact Holds.serve (holds_discard holds_registerFatbin) (fun _ => rfl) hinv
  case cuMemHostAlloc => exact Holds.serve (holds_discard holds_hostAlloc) (fun _ => rfl) hinv
  case cuStreamGetCtx => exact Holds.serve (holds_discard holds_streamGetCtx) (fun _ => rfl) hinv
  case registerFunction =>
    exact Holds.serve (holds_discard holds_registerFunction) (fun _ => rfl) hinv
  all_goals exact hinv.serve_release rfl (fun _ => rfl) clean

theorem StockRun.inv (run : StockRun s) : StockInv s.tab s.live := by
  induction run with
  | start => exact fun k c ty _ hc => by cases hc
  | serve _ _ _ _ _ clean ih => exact ih.serve clean

/-! What the walk of the lists releases -/

theorem freed_append (kind : ObjKind) (cs ds : List LibCall) :
    freed kind (cs ++ ds) = freed kind cs ++ freed kind ds := by
  simp [freed]

theorem freed_none {kind : ObjKind} {cs : List LibCall} (h : ∀ x ∈ cs, x.frees = false) :
    freed kind cs = [] := by
  unfold freed
  rw [List.filter_map, List.map_eq_nil_iff, List.filter_filter]
  refine List.filter_eq_nil_iff.mpr fun x hx hn => ?_
  have hf := h x hx
  simp [LibCall.frees] at hf
  simp at hn
  exact hn.1 (hf (by simp [hn.2]))

theorem freed_releaseCalls (kind : ObjKind) (c : Context) (t : ResType) :
    freed kind (releaseCalls c t) =
      if (freeCall t).bind LibFn.releases = some kind then c.entries t else [] := by
  unfold releaseCalls
  rcases hf : freeCall t with _ | fn
  · rfl
  · show freed kind ((c.entries t).map _) = if fn.releases = some kind then _ else _
    by_cases hk : fn.releases = some kind
    · simp [freed, hk, List.filter_map, Function.comp_def, Context.entries]
    · simp [freed, hk, List.filter_map, Function.comp_def]

theorem freed_destroy (kind : ObjKind) (c : Context) :
    freed kind (ResType.all.flatMap (releaseCalls c)) =
      if kind = .module ∨ kind = .reserved then [] else c.entries kind.list := by
  simp only [ResType.all, List.flatMap_cons, List.flatMap_nil, freed_append, freed_releaseCalls]
  cases kind <;> simp [freeCall, LibFn.releases, ObjKind.list, freed]

/-- Where a session holds no reserved range, a list stocks the objects of one kind. -/
theorem stock_eq_held {kind : ObjKind} (hkind : kind ≠ .reserved)
    (hres : ∀ o ∈ live, o.key = k → o.kind ≠ .reserved) :
    stock live k kind.list = held live k kind := by
  unfold stock held
  congr 1
  refine List.filter_congr fun o ho => ?_
  by_cases hk : o.key = k
  · have hne := hres o ho hk
    revert hne
    cases o.kind <;> cases kind <;> simp_all [ObjKind.list]
  · simp [hk]

theorem Destroyed.freed {v' : Device} {c : Context} {os : List (LibCall × LibRet)}
    (h : Destroyed e v v' c os) (kind : ObjKind) : freed kind (v'.calls.drop v.calls.length) =
      if kind = .module ∨ kind = .reserved then [] else c.entries kind.list := by
  obtain ⟨pre, post, hos, hpre, hpost⟩ := h.calls
  rw [h.answered.calls, List.drop_left, hos, freed_append, freed_append, freed_none hpre,
    freed_none hpost, freed_destroy, List.nil_append, List.append_nil]

/-- Destroying a session's context releases the objects that the session holds, each once and
by a call for its kind, and leaves its modules to CUDA. -/
theorem destroy_releases (run : StockRun s) {c : Context} (hc : s.tab.ctxGet k = some c)
    (hd : cmd.destroys (answers e v ((cmd.exec k).run e ⟨s.tab, v⟩).2.dev) = true)
    (hcov : cmd.Covers k s (answers e v ((cmd.exec k).run e ⟨s.tab, v⟩).2.dev)) :
    (∀ kind, kind ≠ .module →
      (freed kind (((cmd.exec k).run e ⟨s.tab, v⟩).2.dev.calls.drop v.calls.length)).Perm
        (held s.live k kind)) ∧
    freed .module (((cmd.exec k).run e ⟨s.tab, v⟩).2.dev.calls.drop v.calls.length) = [] := by
  have hdes : ∃ os, Destroyed e v ((cmd.exec k).run e ⟨s.tab, v⟩).2.dev c os := by
    cases cmd
    case init => exact coreInit_destroyed ⟨s.tab, v⟩ hc
    case retain device =>
      by_cases hr : (e.ret v.clock ⟨.cuDevicePrimaryCtxRetain, [device], []⟩).code = 0
      · -- an accepted retain has reset nothing
        obtain ⟨p, os, -, hans, hfn⟩ := retain_accepted (s := ⟨s.tab, v⟩) hc hr
        exfalso
        have heq : answers e v (((ObjCmd.retain device).exec k).run e ⟨s.tab, v⟩).2.dev = os :=
          hans.eq
        rw [heq] at hd
        have hany : os.any (·.1.fn = .cudaDeviceReset) = true := hd
        obtain ⟨x, hx, hreset⟩ := List.any_eq_true.mp hany
        rcases hfn x hx with h | h <;> simp [h] at hreset
      · obtain ⟨os, hdes, -⟩ := retain_refused (s := ⟨s.tab, v⟩) hc hr
        exact ⟨os, hdes⟩
    all_goals cases hd
  obtain ⟨os, hdes⟩ := hdes
  refine ⟨fun kind hkind => ?_, (hdes.freed .module).trans (if_pos (.inl rfl))⟩
  rw [hdes.freed kind]
  by_cases hr : kind = .reserved
  · -- there is none of them
    rw [if_pos (.inr hr), held, List.filter_eq_nil_iff.mpr]
    · exact .rfl
    · intro o ho hn
      have hn : o.key = k ∧ o.kind = kind := by simpa using hn
      exact hcov.1 o ho hn.1 (hn.2.trans hr)
  · rw [if_neg fun hn => hn.elim hkind hr, ← stock_eq_held hr hcov.1]
    exact run.inv k c kind.list (by cases kind <;> decide) hc

end Run

/-! A session that holds memory, a stream and a module, and what other sessions leave -/

def objectEnv : Env :=
  { Env.quiet with ret := fun _ c => ⟨0, [0x5000 + c.args.headD 0], none⟩ }

def refusingEnv : Env :=
  { objectEnv with ret := fun n c => if n = 0 then ⟨1, [], none⟩ else objectEnv.ret n c }

def newDevice : Device := (Machine.start fun _ _ => 0).dev

def Stock.commands (e : Env) (s : Stock) (cs : List ObjCmd) : Stock :=
  cs.foldl (fun s c => s.serve ⟨1, 1⟩ c e newDevice) s

def Stock.teardown (s : Stock) (e : Env) (c : ObjCmd) : List LibCall :=
  ((c.exec ⟨1, 1⟩).run e ⟨s.tab, newDevice⟩).2.dev.calls

def usedStock : Stock :=
  Stock.commands objectEnv ⟨.start, []⟩
    [.init, .cuMemAlloc 100, .streamCreate 1, .registerFatbin []]

theorem usedStock_run : StockRun usedStock := by
  have quiet {s : Stock} {c : ObjCmd} {os : List (LibCall × LibRet)} (hd : c.destroys os = false)
      (hr : c.releasing = none) : c.Clean ⟨1, 1⟩ s os := by
    refine ⟨fun h => ?_, fun kind h hn => ?_⟩
    · rw [hd] at h
      cases h
    · rw [hr] at hn
      cases hn
  have init : StockRun (Stock.commands objectEnv ⟨.start, []⟩ [.init]) := by
    refine .serve .start _ _ _ _ ⟨fun _ _ o ho => ?_, fun kind h hn => ?_⟩
    · cases ho
    · cases hn
  exact .serve (.serve (.serve init _ _ _ _ (quiet rfl rfl)) _ _ _ _ (quiet rfl rfl)) _ _ _ _
    (quiet rfl rfl)

theorem destroy_releases_used : (freed .memory (usedStock.teardown objectEnv .init)).Perm [0x5064] ∧
    (freed .stream (usedStock.teardown objectEnv .init)).Perm [0x5001] ∧
    held usedStock.live ⟨1, 1⟩ .module = [0x5000] ∧
    freed .module (usedStock.teardown objectEnv .init) = [] := by
  have hsome : (usedStock.tab.ctxGet ⟨1, 1⟩).isSome = true := by decide +kernel
  obtain ⟨c, hc⟩ := Option.isSome_iff_exists.mp hsome
  have hd : ObjCmd.init.destroys (answers objectEnv newDevice
      ((ObjCmd.init.exec ⟨1, 1⟩).run objectEnv ⟨usedStock.tab, newDevice⟩).2.dev) = true := rfl
  have hres : ∀ o ∈ usedStock.live, o.key = ⟨1, 1⟩ → o.kind ≠ .reserved := by decide +kernel
  have h := destroy_releases usedStock_run hc hd ⟨hres, fun device h => by cases h⟩
  have hmem : held usedStock.live ⟨1, 1⟩ .memory = [0x5064] := by decide +kernel
  have hstream : held usedStock.live ⟨1, 1⟩ .stream = [0x5001] := by decide +kernel
  exact ⟨hmem ▸ h.1 .memory (by decide), hstream ▸ h.1 .stream (by decide), by decide +kernel, h.2⟩

def reservedStock : Stock :=
  Stock.commands objectEnv ⟨.start, []⟩ [.init, .registerFatbin [], .cuMemAddressReserve 64 0 0 0]

def streamStock : Stock := Stock.commands objectEnv ⟨.start, []⟩ [.init, .streamCreate 1]

/-- A session whose event CUDA has refused to destroy. -/
def eventStock : Stock :=
  (Stock.commands objectEnv ⟨.start, []⟩ [.init, .eventCreate 1]).commands refusingEnv
    [.eventDestroy 0x10000001]

/-- A module and a reserved range are not released, the range being given to cudaFree; a stream
that the reset of a retain has destroyed is destroyed again; and an event that CUDA refuses to
destroy is forgotten. -/
theorem destroy_releases_not :
    (held reservedStock.live ⟨1, 1⟩ .module = [0x5000] ∧
      held reservedStock.live ⟨1, 1⟩ .reserved = [0x5040] ∧ reservedStock.live.length = 2 ∧
      freed .module (reservedStock.teardown objectEnv .init) = [] ∧
      freed .reserved (reservedStock.teardown objectEnv .init) = [] ∧
      freed .memory (reservedStock.teardown objectEnv .init) = [0x5040]) ∧
    streamStock.teardown refusingEnv (.retain 0) = [⟨.cuDevicePrimaryCtxRetain, [0], []⟩,
      ⟨.cudaDeviceReset, [], []⟩, ⟨.cudaStreamDestroy, [0x5001], []⟩,
      ⟨.cuDevicePrimaryCtxRetain, [0], []⟩] ∧
    held eventStock.live ⟨1, 1⟩ .event = [0x5001] ∧
    freed .event (eventStock.teardown objectEnv .init) = [] := by
  decide +kernel

end HmCuda
