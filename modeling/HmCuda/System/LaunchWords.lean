import HmCuda.System.LaunchParams

/-! The words of a launch's argument blob in a session that has been served from the start,
when CUDA hands out memory at addresses of its own. -/

namespace HmCuda

/-- What CUDA promises of memory: it is not at NULL, and ends below 2^64. -/
def Env.Places (env : Env) : Prop :=
  ∀ i fn size rest, fn ∈ allots → (env.ret i ⟨fn, size :: rest, []⟩).code = 0 → 0 < size →
    (env.ret i ⟨fn, size :: rest, []⟩).out 0 ≠ 0 ∧
      (env.ret i ⟨fn, size :: rest, []⟩).out 0 + size < 2 ^ 64

/-- The states of a backend whose CUDA keeps that promise. -/
inductive AllocReachable (k : Key) : Machine → Prop where
  | start (mem : ByteMem Space) : AllocReachable k (.start mem)
  | serve {m : Machine} (h : AllocReachable k m) (el : Elem) (env : Env) (places : env.Places) :
      AllocReachable k ((processElem k el).run env m).2
  | idle {m : Machine} (h : AllocReachable k m) (d : Device) : AllocReachable k { m with dev := d }

theorem AllocReachable.reachable {k : Key} {m : Machine} (h : AllocReachable k m) : Reachable k m := by
  induction h with
  | start mem => exact .start mem
  | serve _ el env _ ih => exact ih.serve el env
  | idle _ d ih => exact ih.idle d

def Resource.Allocated (r : Resource) : Prop := 0 < r.size → r.realPtr ≠ 0 ∧ r.realPtr + r.size < 2 ^ 64

theorem CmdOp.fresh_ty {k l : Key} {p : Nat → UInt8} {c : Cmd} {ty : ResType} {q n : Nat}
    (ho : CmdOp k p c (.fresh l ty q n)) : ty.ranged = false := by
  rcases c with c | c <;> cases c
  all_goals simp only [CmdOp, TabOp.fresh.injEq, reduceCtorEq, and_false, exists_false,
    false_or, or_self] at ho
  all_goals
    obtain ⟨-, -, rfl, -⟩ := ho
    rfl

theorem Env.Places.entered {env : Env} (h : env.Places) {k : Key} {p : Nat → UInt8} {c : Cmd}
    {o : TabOp} {ty : ResType} {r : Resource} (hty : ty.ranged = true) (ho : CmdOp k p c o)
    (ha : Allotted env o) (hr : o.Enters ty r) : r.Allocated := by
  cases o with
  | add l u q n a =>
    obtain ⟨rfl, rfl⟩ := hr
    obtain ⟨i, fn, rest, hfn, h0, rfl⟩ := ha (of_decide_eq_true hty)
    exact fun hn => h i fn n rest hfn h0 hn
  | fresh l u q n =>
    obtain ⟨rfl, -⟩ := hr
    exact absurd (ho.fresh_ty.symm.trans hty) (by decide)
  | create _ | unlink _ | remove _ _ _ => exact hr.elim

theorem entries_processElem {k : Key} {el : Elem} {env : Env} {m : Machine} {ty : ResType}
    {P : Resource → Prop} (hm : ∀ c ∈ m.tab.ctxs, ∀ r ∈ c.resources ty, P r)
    (hP : ∀ o c r, el.cmd m = some c → CmdOp k (cmdStart env el m).payload c o → Allotted env o →
      o.Enters ty r → P r) :
    ∀ c ∈ ((processElem k el).run env m).2.tab.ctxs, ∀ r ∈ c.resources ty, P r := by
  obtain ⟨ops, hops, htab⟩ := processElem_allotted k el env m
  rw [htab]
  clear htab
  generalize m.tab = t at hm
  induction ops generalizing t with
  | nil => exact hm
  | cons o ops ih =>
    refine ih (fun o' ho' => hops o' (List.mem_cons_of_mem _ ho')) (o.apply t) fun d hd r hr => ?_
    obtain ⟨c, hcmd, hop, -, ha⟩ := hops o List.mem_cons_self
    rcases TabOp.entry_apply hd hr with ⟨d', hd', hr'⟩ | hr
    · exact hm d' hd' r hr'
    · exact hP o c r hcmd hop ha hr

theorem AllocReachable.allocated {k : Key} {m : Machine} (h : AllocReachable k m) {ty : ResType}
    (hty : ty.ranged = true) : ∀ c ∈ m.tab.ctxs, ∀ r ∈ c.resources ty, r.Allocated := by
  induction h with
  | start => exact fun c hc => absurd hc List.not_mem_nil
  | serve _ el env places ih =>
    exact entries_processElem ih fun o c r _ hop ha hr => places.entered hty hop ha hr
  | idle _ _ ih => exact ih

theorem mem_filled {k : Key} (el : Elem) (env : Env) (m : Machine) :
    ∀ c ∈ ((processElem k el).run env m).2.tab.ctxs, ∀ r ∈ c.resources .mem,
      (∃ d ∈ m.tab.ctxs, r ∈ d.resources .mem) ∨
        ∃ cmd ∈ fills, el.cmd m = some cmd ∧ r.handle = r.realPtr :=
  entries_processElem (fun c hc _ hr => .inl ⟨c, hc, hr⟩) fun _ c _ hcmd hop _ hr =>
    .inr ⟨c, (hop.enters_mem hr).1, hcmd, (hop.enters_mem hr).2⟩

def Resource.Spans (r : Resource) (a : Nat) : Prop := r.handle ≤ a ∧ a < add64 r.handle r.size

instance (r : Resource) (a : Nat) : Decidable (r.Spans a) := inferInstanceAs (Decidable (_ ∧ _))

/-- What becomes of the word `w`: `w'`. The lists are kept newest first. -/
structure WordRule (c : Context) (w w' : List UInt8) : Prop where
  device : (∃ d ∈ c.resources .mem, d.Spans (Bytes.val w)) → w' = w
  pinned : (¬∃ d ∈ c.resources .mem, d.Spans (Bytes.val w)) → ∀ newer r older,
    c.resources .hostMem = newer ++ r :: older → r.Spans (Bytes.val w) →
      (∀ x ∈ newer, ¬x.Spans (Bytes.val w)) →
        w' = Bytes.le 8 (r.realPtr + (Bytes.val w - r.handle))
  other : (¬∃ d ∈ c.resources .mem, d.Spans (Bytes.val w)) →
    (¬∃ r ∈ c.resources .hostMem, r.Spans (Bytes.val w)) → w' = w

section
variable {c : Context} {ty : ResType} {r : Resource} {a : Nat}

theorem covers_eq_spans (hty : ty.ranged = true) (r : Resource) (a : Nat) :
    r.covers ty a = decide (r.Spans a) := by
  unfold Resource.covers
  rw [if_pos hty]
  rfl

theorem resFind_spans (hty : ty.ranged = true) (a : Nat) :
    c.resFind ty a = (c.resources ty).find? fun r => decide (r.Spans a) := by
  rw [Context.resFind]
  exact List.find?_congr fun r _ => covers_eq_spans hty r a

theorem resGet_spanned_none (hty : ty.ranged = true) (h : ¬∃ r ∈ c.resources ty, r.Spans a) :
    c.resGet ty a = 0 := by
  have hnone : c.resFind ty a = none := by
    rw [resFind_spans hty, List.find?_eq_none]
    intro r hr
    simpa using fun hin => h ⟨r, hr, hin⟩
  rw [c.resGet_eq, hnone]
  rfl

theorem pointer_spans (hty : ty.ranged = true) (hp : r.Allocated) (ha : r.Spans a) :
    r.pointer ty a = r.realPtr + (a - r.handle) ∧ r.realPtr + (a - r.handle) ≠ 0 := by
  obtain ⟨hlo, hhi⟩ := ha
  have hsum : add64 r.handle r.size ≤ r.handle + r.size := Nat.mod_le _ _
  obtain ⟨h0, hlt⟩ := hp (by omega)
  unfold Resource.pointer
  rw [if_pos hty, add64_of_lt (by omega)]
  exact ⟨rfl, by omega⟩

theorem resGet_newest (hty : ty.ranged = true) (hp : r.Allocated) (ha : r.Spans a)
    {newer older : List Resource} (hl : c.resources ty = newer ++ r :: older)
    (hn : ∀ x ∈ newer, ¬x.Spans a) : c.resGet ty a = r.realPtr + (a - r.handle) := by
  have hfind : c.resFind ty a = some r := by
    rw [resFind_spans hty, List.find?_eq_some_iff_append]
    exact ⟨decide_eq_true ha, newer, older, hl, fun x hx => by simpa using hn x hx⟩
  rw [c.resGet_eq, hfind]
  exact (pointer_spans hty hp ha).1

theorem resGet_device (hid : ∀ r ∈ c.resources .mem, r.handle = r.realPtr)
    (hp : ∀ r ∈ c.resources .mem, r.Allocated) (h : ∃ d ∈ c.resources .mem, d.Spans a) :
    c.resGet .mem a = a ∧ a ≠ 0 := by
  have hsome : ((c.resources .mem).find? fun r => decide (r.Spans a)).isSome := by
    rw [List.find?_isSome]
    obtain ⟨d, hd, ha⟩ := h
    exact ⟨d, hd, decide_eq_true ha⟩
  obtain ⟨d, hd⟩ := Option.isSome_iff_exists.mp hsome
  have hmem := List.mem_of_find?_eq_some hd
  have hin := List.find?_some hd
  have ha : d.Spans a := by simpa using hin
  obtain ⟨hptr, hne⟩ := pointer_spans (rfl : ResType.mem.ranged = true) (hp d hmem) ha
  have hback : d.realPtr + (a - d.handle) = a := by
    rw [← hid d hmem]
    exact Nat.add_sub_cancel' ha.1
  rw [c.resGet_eq, resFind_spans rfl, hd]
  exact ⟨hptr.trans hback, hback ▸ hne⟩

theorem passed_word {w : List UInt8} (hw : w.length = 8)
    (hid : ∀ r ∈ c.resources .mem, r.handle = r.realPtr)
    (hmem : ∀ r ∈ c.resources .mem, r.Allocated) (hhost : ∀ r ∈ c.resources .hostMem, r.Allocated) :
    WordRule c w (c.passed w) := by
  have hback : Bytes.le 8 (Bytes.val w) = w := by
    rw [← hw]
    exact Bytes.le_val w
  unfold Context.passed resolveAnyMem
  constructor
  · intro hd
    obtain ⟨hget, hne⟩ := resGet_device hid hmem hd
    simp only [hget, ne_eq, hne, not_false_eq_true, if_true, if_false, hback]
  · intro hno newer r older hl hin hnewer
    have hp : r.Allocated := hhost r (by rw [hl]; simp)
    have hne := (pointer_spans (rfl : ResType.hostMem.ranged = true) hp hin).2
    rw [resGet_spanned_none rfl hno, resGet_newest rfl hp hin hl hnewer]
    rw [if_neg (not_not.mpr rfl), if_neg hne]
  · intro hno hnone
    rw [resGet_spanned_none rfl hno, resGet_spanned_none rfl hnone]
    simp

end

/-- The launch loop leaves device addresses, translates pinned ones by the newest buffer
that holds them, and changes nothing else of the blob; CUDA reads parameter `i` at word `i`. -/
theorem launch_words {k : Key} {m : Machine} {c : Context} (h : AllocReachable k m)
    (hc : m.tab.ctxGet k = some c) {e : CmdEnv} {s : CmdSt} (hk : e.key = k) (hs : s.be.tab = m.tab)
    (func sharedMem stream args size : Nat) (grid block : List Nat)
    (hf : c.resGet .function func ≠ 0) :
    (∀ r ∈ c.resources .mem, r.handle = r.realPtr) ∧
    (∀ el env, ∀ d ∈ ((processElem k el).run env m).2.tab.ctxs, ∀ r ∈ d.resources .mem,
      (∃ d' ∈ m.tab.ctxs, r ∈ d'.resources .mem) ∨
        ∃ cmd ∈ fills, el.cmd m = some cmd ∧ r.handle = r.realPtr) ∧
    ∃ t err, (coreLaunchKernel k func grid block sharedMem stream args size).run e s = (err, t) ∧
      (∀ i < size / 8, WordRule c (s.slot args i) (t.slot args i)) ∧
      (∀ a, a < payloadOff + args ∨ payloadOff + args + 8 * (size / 8) ≤ a → t.buf a = s.buf a) ∧
      ∃ config after, t.be.dev.calls = s.be.dev.calls ++ ⟨.cuLaunchKernel, config,
        ((e.env.paramSizes (c.resGet .function func)).take (size / 8)).zipIdx.map fun p =>
          t.param args p.2 p.1⟩ :: after := by
  subst hk
  have hmem : c ∈ m.tab.ctxs := List.mem_of_find?_eq_some hc
  have hid := h.reachable.identity c hmem
  obtain ⟨hwords, hrest, after, hcalls, -⟩ := coreLaunchKernel_launches args s func sharedMem
    stream size grid block (hs ▸ hc) hf
  generalize (coreLaunchKernel e.key func grid block sharedMem stream args size).run e s = out
    at hwords hrest hcalls ⊢
  refine ⟨hid, fun el env => mem_filled el env m, out.2, out.1, rfl, fun i hi => ?_, hrest, _, after,
    hcalls⟩
  rw [hwords i hi]
  exact passed_word (by simp [CmdSt.slot]) hid (h.allocated rfl c hmem) (h.allocated rfl c hmem)

/-! A session with device memory, a pinned buffer and a kernel, and a launch whose words are
an address in the one, an address in the other, and a number -/

def launchMem : ByteMem Space := fun sp a =>
  match sp with
  | .req 0 => (Bytes.le 4 RtCmd.init.code).getD a 0
  | .req 1 => (Bytes.le 4 DrvCmd.cuMemAlloc.code ++ Bytes.le 4 8 ++ Bytes.le 8 64).getD a 0
  | .req 2 => (Bytes.le 4 DrvCmd.cuMemHostAlloc.code ++ Bytes.le 4 32 ++ Bytes.le 8 8 ++
      Bytes.le 8 0 ++ Bytes.le 8 0x7000 ++ Bytes.le 8 0).getD a 0
  | .req 3 => (Bytes.le 4 RtCmd.registerFatbin.code ++ Bytes.le 4 8).getD a 0
  | .req 4 => (Bytes.le 4 RtCmd.registerFunction.code ++ Bytes.le 4 24 ++ Bytes.le 8 0x10000001 ++
      Bytes.le 8 0x1000 ++ Bytes.le 8 1 ++ [107, 0]).getD a 0
  | .req 5 => (Bytes.le 4 RtCmd.launchKernel.code ++ Bytes.le 4 83 ++ Bytes.le 8 0x1000 ++
      (List.replicate 6 (Bytes.le 4 1)).flatten ++ Bytes.le 8 0 ++ Bytes.le 8 0 ++ Bytes.le 8 27 ++
      Bytes.le 8 0x8010 ++ Bytes.le 8 0x7004 ++ Bytes.le 8 5 ++ [1, 2, 3]).getD a 0
  | _ => 0

/-- CUDA has 2^32 bytes from 0x8000 on, and as many to be pinned from 0x9000 on. -/
def launchEnv : Env :=
  { Env.quiet with ret := fun _ c =>
      if c.fn ∈ allots ∧ 2 ^ 32 < c.args.headD 0 then ⟨2, [], none⟩
      else if c.fn = .cuMemHostAlloc then ⟨0, [0x9000], none⟩ else ⟨0, [0x8000], none⟩ }

def launchElems : List Elem :=
  [⟨[⟨.req 0, 0, 8⟩], [⟨.resp 0, 0, 8⟩]⟩, ⟨[⟨.req 1, 0, 16⟩], [⟨.resp 1, 0, 16⟩]⟩,
    ⟨[⟨.req 2, 0, 40⟩, ⟨.ram, 0, 8⟩], [⟨.resp 2, 0, 8⟩]⟩,
    ⟨[⟨.req 3, 0, 16⟩], [⟨.resp 3, 0, 16⟩]⟩, ⟨[⟨.req 4, 0, 34⟩], [⟨.resp 4, 0, 16⟩]⟩]

def launchRun : Machine :=
  launchElems.foldl (fun m el => ((processElem ⟨1, 1⟩ el).run launchEnv m).2) (.start launchMem)

theorem launchEnv_places : launchEnv.Places := by
  intro i fn size rest hfn h0 _
  have hsize : ¬2 ^ 32 < size := by
    intro hlt
    have hret : launchEnv.ret i ⟨fn, size :: rest, []⟩ = ⟨2, [], none⟩ := if_pos ⟨hfn, hlt⟩
    rw [hret] at h0
    exact absurd h0 (by decide)
  have hret : launchEnv.ret i ⟨fn, size :: rest, []⟩ =
      if fn = .cuMemHostAlloc then ⟨0, [0x9000], none⟩ else ⟨0, [0x8000], none⟩ :=
    if_neg fun h => hsize h.2
  rw [hret]
  split
  all_goals
    simp only [LibRet.out, List.getD_cons_zero]
    omega

theorem launchRun_reachable : AllocReachable ⟨1, 1⟩ launchRun := by
  unfold launchRun
  generalize hm : Machine.start launchMem = m
  have h : AllocReachable ⟨1, 1⟩ m := hm ▸ .start launchMem
  clear hm
  induction launchElems generalizing m with
  | nil => exact h
  | cons el els ih => exact ih _ (h.serve el launchEnv launchEnv_places)

theorem launchRun_tables : (launchRun.tab.ctxGet ⟨1, 1⟩).map (fun c =>
    (c.resGet .function 0x1000, c.resources .mem, c.resources .hostMem)) =
      some (0x8000, [⟨0x8000, 0x8000, 64⟩], [⟨0x7000, 0x9000, 8⟩]) := by
  decide +kernel

def launchElem : Elem := ⟨[⟨.req 5, 0, 91⟩], [⟨.resp 5, 0, 8⟩]⟩

def launchCmd : CmdSt := cmdStart launchEnv launchElem launchRun

theorem launchCmd_words : (List.range 3).map (fun i => Bytes.val (launchCmd.slot 56 i)) =
    [0x8010, 0x7004, 5] := by
  decide +kernel

theorem launch_words_launchRun : ∃ t err,
    (coreLaunchKernel ⟨1, 1⟩ 0x1000 [1, 1, 1] [1, 1, 1] 0 0 56 27).run
      (cmdEnv launchEnv ⟨1, 1⟩ launchElem) launchCmd = (err, t) ∧
    t.slot 56 0 = launchCmd.slot 56 0 ∧ t.slot 56 1 = Bytes.le 8 0x9004 ∧
    t.slot 56 2 = launchCmd.slot 56 2 := by
  obtain ⟨c, hc, htables⟩ := Option.map_eq_some_iff.mp launchRun_tables
  simp only [Prod.mk.injEq] at htables
  obtain ⟨hf, hdevice, hpinned⟩ := htables
  obtain ⟨-, -, t, err, hrun, hwords, -⟩ := launch_words launchRun_reachable hc
    (e := cmdEnv launchEnv ⟨1, 1⟩ launchElem) (s := launchCmd) rfl rfl
    0x1000 0 0 56 27 [1, 1, 1] [1, 1, 1] (by rw [hf]; decide)
  have hword := launchCmd_words
  simp only [List.range_succ, List.range_zero, List.nil_append, List.map_cons, List.map_nil,
    List.cons_append, List.cons.injEq, and_true] at hword
  obtain ⟨h0, h1, h2⟩ := hword
  refine ⟨t, err, hrun, ?_, ?_, ?_⟩
  · refine (hwords 0 (by decide)).device ?_
    rw [hdevice, h0]
    decide
  · have hnone : ¬∃ d ∈ c.resources .mem, d.Spans (Bytes.val (launchCmd.slot 56 1)) := by
      rw [hdevice, h1]
      decide
    have hnew := (hwords 1 (by decide)).pinned hnone [] ⟨0x7000, 0x9000, 8⟩ [] hpinned
      (by rw [h1]; decide) (by simp)
    rw [hnew, h1]
    rfl
  · refine (hwords 2 (by decide)).other ?_ ?_
    · rw [hdevice, h2]
      decide
    · rw [hpinned, h2]
      decide

end HmCuda
