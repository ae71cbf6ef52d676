import HmCuda.System.Callers
import HmCuda.System.GuestMemory
import HmCuda.System.Payload

/-! Concurrent ioctls on one backend: a plain command takes effect at one point, as the ioctl
does when it is run alone, and so does each batch of a copy, whatever the other callers do
meanwhile. -/

namespace HmCuda
open Layout AsyncCopy
open Callers (St Desc Pc)

def DrvSt.on (m : Machine) : DrvSt := ⟨m, fun _ => 0, [], [], [], []⟩

/-- A plain command that its ioctl sends, with the request it has copied in. -/
structure PlainIoctl where
  env : DrvEnv
  cmd : Cmd
  n : Nat
  m : Nat
  img : Nat → UInt8
  sent : Sent env cmd n m img
  plain : ¬isMemcpy cmd.code

/-- One batch of a copy, as `hmcuda_do_memcpy_gup` queues it: the data lies in the guest's RAM,
as does whatever has a guest-physical address. -/
structure CopyBatch where
  env : DrvEnv
  totalReq : Nat
  totalResp : Nat
  kind : Nat
  data : List Iov
  img : Nat → UInt8
  inRam : ∀ v ∈ data, v.sp = .ram
  mapped : ∀ a n hp len, env.sys.gpaToVa a n = some (hp, len) → hp.1 = .ram

/-- What one turn on the queue is for. -/
inductive Job where
  | plain (x : PlainIoctl)
  | batch (b : CopyBatch)

namespace Job

def env : Job → DrvEnv
  | plain x => x.env
  | batch b => b.env

def elem : Job → Elem
  | plain x => plainElem x.env x.n x.m
  | batch b => memcpyElem b.env.caller b.totalReq b.totalResp b.kind b.data

def serve (q : Job) (m : Machine) : Option Served × Machine :=
  (processElem q.env.key q.elem).run q.env.sys m

def isPlain : Job → Bool
  | plain _ => true
  | batch _ => false

end Job

namespace PlainIoctl
variable (x : PlainIoctl)

/-- `hmcuda_build_req_buf`: both buffers of the caller. -/
def build (m : Machine) : Machine :=
  (m.setMem (.resp x.env.caller) fun _ => 0).setMem (.req x.env.caller) x.img

def result (m : Machine) : IoctlRes :=
  if x.env.copyOut then
    ⟨.ret 0, some (m.dev.eng.mem.read (.resp x.env.caller) 0 (add64 (sizeof respHeader) x.m))⟩
  else
    ⟨.ret efault, none⟩

/-- The ioctl with nobody else about. -/
def alone (m : Machine) : IoctlRes × DrvSt := hmcudaIoctl.run x.env (.on m)

end PlainIoctl

def errorSeen (t : Nat) (m : Machine) : Nat := respHeader.cudaError.get (m.dev.eng.mem (.resp t))

/-- What the caller of a job has of it: the result of a plain command, the error that decides
whether a copy goes on. -/
inductive JobOutcome where
  | ret (r : IoctlRes)
  | seen (err : Nat)

def Job.outcome (m : Machine) : Job → JobOutcome
  | plain x => .ret (x.result m)
  | batch b => .seen (errorSeen b.env.caller m)

def machineBuffer : Callers.Buffer Nat Job Served Unit :=
  ⟨(), fun _ _ _ => (), fun _ _ _ => True, fun _ => False⟩

abbrev CallersSt := St Nat Job Served Unit

structure Joint where
  callers : CallersSt
  m : Machine

/-- A step of the driver's scheduling, which starts no ioctl, answers and reads nothing. -/
structure Schedules (m : Machine) (s c : CallersSt) : Prop where
  step : Callers.Step machineBuffer (fun _ => True) s c
  answered : c.dev.answered = s.dev.answered
  idle : ∀ t, s.pc t = .away → c.pc t = .away
  reading : ∀ t d qs, s.pc t = .reading d qs → c.pc t = .reading d qs
  /-- A batch is locked in with its request in place. -/
  request : ∀ t b qs, s.pc t = .between (.batch b :: qs) → c.pc t = .locked (.batch b) qs →
    m.dev.eng.mem (.req t) = b.img

/-- The steps of the callers, the host and the guest. A caller fills its buffers before it takes
the lock. -/
inductive Joint.Step (s : Joint) : Joint → Prop where
  | plain {t : Nat} (x : PlainIoctl) (ht : x.env.caller = t) (h : s.callers.pc t = .away) :
      Step s ⟨s.callers.at t (.between [.plain x]), x.build s.m⟩
  | copy {t : Nat} (qs : List Job) (hq : ∀ q ∈ qs, q.isPlain = false ∧ q.env.caller = t)
      (f : Nat → UInt8) (h : s.callers.pc t = .away) :
      Step s ⟨s.callers.at t (.between qs),
        (s.m.setMem (.resp t) fun _ => 0).setMem (.req t) f⟩
  | rewrite {t : Nat} {b : CopyBatch} {qs : List Job}
      (h : s.callers.pc t = .between (.batch b :: qs)) :
      Step s ⟨s.callers, s.m.setMem (.req t) b.img⟩
  | schedule {c : CallersSt} (h : Schedules s.m s.callers c) : Step s ⟨c, s.m⟩
  | process {d : Desc Nat Job} {a : Served} {c : CallersSt}
      (h : s.callers.dev.host = some (d, none)) (hrun : (d.req.serve s.m).1 = some a)
      (hc : c = { s.callers with dev := { s.callers.dev with
        host := some (d, some a), resp := Function.update s.callers.dev.resp d.owner ()
        answered := s.callers.dev.answered ++ [(d, a)] } }) : Step s ⟨c, (d.req.serve s.m).2⟩
  | read {t : Nat} {d : Desc Nat Job} {qs : List Job} (h : s.callers.pc t = .reading d qs)
      (hf : errorSeen t s.m = 0) : Step s ⟨s.callers.at t (.between qs), s.m⟩
  | readError {t : Nat} {d : Desc Nat Job} {qs : List Job} (h : s.callers.pc t = .reading d qs)
      (hf : errorSeen t s.m ≠ 0) : Step s ⟨s.callers.at t .away, s.m⟩
  | guest (f : Nat → UInt8) : Step s ⟨s.callers, s.m.setMem .ram f⟩
  | later (env : Env) : Step s ⟨s.callers, { s.m with dev := (idle.run ⟨env, s.m.tab⟩ s.m.dev).2 }⟩

/-- The host's answers, with what their callers have of them. -/
abbrev Trace := List ((Desc Nat Job × Served) × JobOutcome)

/-- Whole ioctls and batches, one after another; in between the guest writes to its RAM, and the
driver fills the buffers of a caller. -/
inductive Atomic (m₀ : Machine) : Trace → Machine → Prop where
  | start : Atomic m₀ [] m₀
  | ioctl {tr : Trace} {m : Machine} (h : Atomic m₀ tr m) {d : Desc Nat Job} {x : PlainIoctl}
      (hd : d.req = .plain x) {a : Served}
      (ha : (x.alone m).2.served = [(plainElem x.env x.n x.m, a)]) :
      Atomic m₀ (tr ++ [((d, a), .ret (x.alone m).1)]) (x.alone m).2.m
  | batch {tr : Trace} {m : Machine} (h : Atomic m₀ tr m) {d : Desc Nat Job} {b : CopyBatch}
      (hd : d.req = .batch b) {a : Served} (hreq : m.dev.eng.mem (.req b.env.caller) = b.img)
      (ha : ((Job.batch b).serve m).1 = some a) :
      Atomic m₀ (tr ++ [((d, a), .seen (errorSeen b.env.caller ((Job.batch b).serve m).2))])
        ((Job.batch b).serve m).2
  | fill {tr : Trace} {m : Machine} (h : Atomic m₀ tr m) (t : Nat) {sp : Space}
      (hsp : sp = .req t ∨ sp = .resp t) (f : Nat → UInt8) : Atomic m₀ tr (m.setMem sp f)
  | guest {tr : Trace} {m : Machine} (h : Atomic m₀ tr m) (f : Nat → UInt8) :
      Atomic m₀ tr (m.setMem .ram f)
  | later {tr : Trace} {m : Machine} (h : Atomic m₀ tr m) (env : Env) :
      Atomic m₀ tr { m with dev := (idle.run ⟨env, m.tab⟩ m.dev).2 }

/-! The callers' buffers -/

def Space.IsBuf : Space → Prop
  | .req _ | .resp _ => True
  | .ram | .uva | .heap _ => False

/-- No copy that is pending ends in a caller's buffer. -/
def Aside (m : Machine) : Prop := ∀ c ∈ m.dev.eng.pending, ∀ x ∈ c.dsts, ¬x.1.IsBuf

/-- As far as the buffers go, only the response of `t` is not as in `mem`. -/
structure Clean (t : Nat) (mem : ByteMem Space) (m : Machine) : Prop where
  aside : Aside m
  bufs : ∀ sp : Space, sp.IsBuf → sp ≠ .resp t → m.dev.eng.mem sp = mem sp

section Buffers
variable {m be : Machine} {t : Nat} {env : Env} {x : PlainIoctl}

theorem foreign_isBuf : Foreign fun sp _ => sp.IsBuf := by
  intro sp a h
  constructor
  · rintro rfl
    exact h
  · rintro id rfl
    exact h

theorem Aside.kept (h : Aside m) : BytesKept (fun sp _ => sp.IsBuf) m.dev.eng.mem m.dev :=
  ⟨h, fun _ _ _ => rfl⟩

theorem Aside.later (h : Aside m) (env : Env) :
    Aside { m with dev := (idle.run ⟨env, m.tab⟩ m.dev).2 } ∧ ∀ sp : Space, sp.IsBuf →
      (idle.run ⟨env, m.tab⟩ m.dev).2.eng.mem sp = m.dev.eng.mem sp := by
  have hk := (bytesKept_kept foreign_isBuf).idle ⟨env, m.tab⟩ m.dev h.kept
  exact ⟨hk.pending, fun sp hsp => funext fun a => hk.mem sp a hsp⟩

theorem deliver_clean {mem : ByteMem Space} {ws : List RespWrite}
    (hk : BytesKept (fun sp _ => sp.IsBuf) mem be.dev)
    (hw : ∀ w ∈ ws, w.sp = .ram ∨ w.sp = .resp t) : Clean t mem (be.deliver env ws) := by
  have hi := (bytesKept_kept foreign_isBuf).idle ⟨env, be.tab⟩ be.dev hk
  refine ⟨hi.pending, fun sp hsp hne => ?_⟩
  apply (applyWrites_other (fun w hmem => ?_) _).trans (funext fun a => hi.mem sp a hsp)
  rcases hw w hmem with h | h
  · rw [h]
    rintro rfl
    exact hsp
  · rw [h]
    exact hne.symm

/-! A batch -/

theorem batch_data (b : CopyBatch) {v : Iov} (h : v ∈ (Job.batch b).elem.inSg) :
    v.sp = .ram ∨ v.sp = .resp b.env.caller := by
  unfold Job.elem memcpyElem at h
  dsimp only at h
  split at h
  · exact .inr (by rw [List.mem_singleton.mp h])
  · rcases List.mem_append.mp h with h | h
    · exact .inl (b.inRam v h)
    · exact .inr (by rw [List.mem_singleton.mp h])

theorem batch_dropLast (b : CopyBatch) {v : Iov} (h : v ∈ (Job.batch b).elem.inSg.dropLast) :
    v.sp = .ram := by
  unfold Job.elem memcpyElem at h
  dsimp only at h
  split at h
  · cases h
  · rw [List.dropLast_concat] at h
    exact b.inRam v h

theorem batch_clean (b : CopyBatch) (h : Aside m) :
    Clean b.env.caller m.dev.eng.mem ((Job.batch b).serve m).2 := by
  have inRam {hp : Space × Nat} (hr : hp.1 = .ram) (n : Nat) :
      Clear (fun sp _ => sp.IsBuf) hp n := fun i _ hb => by rw [hr] at hb; exact hb
  unfold Job.serve processElem
  dsimp only
  split
  · exact ⟨h, fun _ _ _ => rfl⟩
  · refine deliver_clean (dispatchCmd_kept (bytesKept_kept foreign_isBuf) foreign_isBuf.ownMemory _
      ⟨fun v hv n _ => inRam (batch_dropLast b hv) n,
        fun _ _ _ hp n hsome => inRam (b.mapped _ _ _ _ hsome) _⟩ h.kept) fun w hw => ?_
    obtain ⟨v, hv, hsp, -⟩ := mem_respWrites hw
    rw [hsp]
    exact batch_data b hv

/-! A plain command -/

/-- The buffers are as `hmcuda_build_req_buf` leaves them. -/
structure PlainIoctl.Built (x : PlainIoctl) (m : Machine) : Prop where
  req : m.dev.eng.mem (.req x.env.caller) = x.img
  resp : m.dev.eng.mem (.resp x.env.caller) = fun _ => 0

theorem PlainIoctl.built_build (x : PlainIoctl) (m : Machine) : x.Built (x.build m) where
  req := mem_setMem_self _ _ _
  resp := (mem_setMem_of_ne _ (by simp) _).trans (mem_setMem_self _ _ _)

theorem PlainIoctl.Built.build_eq (h : x.Built m) : x.build m = m := by
  have hresp : m.setMem (.resp x.env.caller) (fun _ => 0) = m := by
    rw [← h.resp]
    exact m.setMem_self _
  rw [PlainIoctl.build, hresp, ← h.req]
  exact m.setMem_self _

theorem PlainIoctl.Built.showing (h : x.Built m) : (DrvSt.on m).showing x.env x.img = m :=
  h.build_eq

theorem PlainIoctl.Built.serve (h : x.Built m) : (Job.plain x).serve m =
    (some (plainServed x.env x.cmd x.n x.m m), (plainReply x.env x.cmd x.n x.m m).2.be.deliver
      x.env.sys (plainServed x.env x.cmd x.n x.m m).writes) := by
  have hrun := plainElem_run x.sent (.on m)
  rw [h.showing] at hrun
  unfold Job.serve Job.env Job.elem
  dsimp only
  rw [hrun, plainServed]

theorem PlainIoctl.Built.alone (h : x.Built m) :
    (x.alone m).2.m = ((Job.plain x).serve m).2 ∧ (x.alone m).1 = x.result (x.alone m).2.m ∧
      (x.alone m).2.served =
        [(plainElem x.env x.n x.m, plainServed x.env x.cmd x.n x.m m)] := by
  obtain ⟨evs, hst, hres⟩ := hmcudaIoctl_answered x.sent x.plain (.on m)
  unfold PlainIoctl.alone PlainIoctl.result
  refine ⟨?_, hres, ?_⟩
  · rw [h.serve, hst, DrvSt.answered, h.showing]
  · rw [hst, DrvSt.answered, h.showing]
    rfl

theorem PlainIoctl.Built.clean (h : x.Built m) (ha : Aside m) :
    Clean x.env.caller m.dev.eng.mem ((Job.plain x).serve m).2 := by
  rw [h.serve]
  refine deliver_clean ?_ fun w hw => ?_
  · refine dispatchCmd_kept (bytesKept_kept foreign_isBuf) foreign_isBuf.ownMemory x.cmd.code ?_
      ha.kept
    refine ⟨fun v hv => absurd hv List.not_mem_nil, fun hc => ?_⟩
    rw [Cmd.ofCode_code] at hc
    exact absurd (.inl (by rw [Option.some.inj hc]; rfl)) x.plain
  · rw [plainServed_writes x.sent] at hw
    exact .inr (by rw [List.mem_singleton.mp hw])

end Buffers

/-! A run -/

/-- The buffers of caller `t` are the same in both. -/
def SameBufs (t : Nat) (m m' : Machine) : Prop :=
  m'.dev.eng.mem (.req t) = m.dev.eng.mem (.req t) ∧
    m'.dev.eng.mem (.resp t) = m.dev.eng.mem (.resp t)

/-- The jobs that caller `t` has still to do: batches, or the one plain command, with its
buffers in place. -/
def Waits (t : Nat) (m : Machine) (qs : List Job) : Prop :=
  (∀ q ∈ qs, q.isPlain = false ∧ q.env.caller = t) ∨
    ∃ x, qs = [.plain x] ∧ x.env.caller = t ∧ x.Built m

structure InHand (t : Nat) (m : Machine) (q : Job) (qs : List Job) : Prop where
  waits : Waits t m (q :: qs)
  request : ∀ b, q = .batch b → m.dev.eng.mem (.req t) = b.img

/-- The job of `d` is done, and is in the trace with what its caller will read. -/
structure HasAnswer (t : Nat) (tr : Trace) (m : Machine) (d : Desc Nat Job) (qs : List Job) :
    Prop where
  rest : ∀ q ∈ qs, q.isPlain = false ∧ q.env.caller = t
  caller : d.req.env.caller = t
  done : ∃ a, ((d, a), d.req.outcome m) ∈ tr

/-- What the machine has for a caller, by where it is. -/
def View (t : Nat) (tr : Trace) (m : Machine) (answered : List (Desc Nat Job × Served)) :
    Pc Nat Job → Prop
  | .away | .refused => True
  | .between qs => Waits t m qs
  | .locked q qs | .fresh q qs => InHand t m q qs
  | .added d qs | .waiting d qs =>
    (d ∉ answered.map Prod.fst → InHand t m d.req qs) ∧
      (d ∈ answered.map Prod.fst → HasAnswer t tr m d qs)
  | .woken d qs | .got d _ qs | .reading d qs => HasAnswer t tr m d qs

section Views
variable {t : Nat} {m m' : Machine} {tr tr' : Trace} {d : Desc Nat Job} {q : Job}
  {qs : List Job} {p : Pc Nat Job} {answered answered' : List (Desc Nat Job × Served)}

theorem Clean.same {u : Nat} (h : Clean u m.dev.eng.mem m') (hu : t ≠ u) : SameBufs t m m' :=
  ⟨h.bufs _ trivial (by simp), h.bufs _ trivial (by simpa using hu)⟩

theorem sameBufs_setMem {sp : Space} (h : sp ≠ .req t ∧ sp ≠ .resp t) (f : Nat → UInt8) :
    SameBufs t m (m.setMem sp f) :=
  ⟨mem_setMem_of_ne m h.1.symm f, mem_setMem_of_ne m h.2.symm f⟩

theorem SameBufs.trans {m'' : Machine} (h : SameBufs t m m') (h' : SameBufs t m' m'') :
    SameBufs t m m'' := ⟨h'.1.trans h.1, h'.2.trans h.2⟩

theorem sameBufs_build {u : Nat} (hu : t ≠ u) (f g : Nat → UInt8) :
    SameBufs t m ((m.setMem (.resp u) f).setMem (.req u) g) :=
  (sameBufs_setMem (by simp [hu.symm]) f).trans (sameBufs_setMem (by simp [hu.symm]) g)

theorem Waits.rest (h : Waits t m (q :: qs)) :
    ∀ q' ∈ qs, q'.isPlain = false ∧ q'.env.caller = t := by
  rcases h with h | ⟨x, hx, -⟩
  · exact fun q' hq => h q' (List.mem_cons_of_mem _ hq)
  · rw [(List.cons.inj hx).2]
    exact fun q' hq => absurd hq List.not_mem_nil

theorem Waits.caller (h : Waits t m (q :: qs)) : q.env.caller = t := by
  rcases h with h | ⟨x, hx, rfl, -⟩
  · exact (h q List.mem_cons_self).2
  · rw [(List.cons.inj hx).1]
    rfl

theorem Waits.plain {x : PlainIoctl} (h : Waits t m (.plain x :: qs)) : x.Built m := by
  rcases h with h | ⟨y, hy, -, hb⟩
  · cases (h _ List.mem_cons_self).1
  · rw [Job.plain.inj (List.cons.inj hy).1]
    exact hb

theorem Waits.same (h : Waits t m qs) (hs : SameBufs t m m') : Waits t m' qs := by
  rcases h with h | ⟨x, hq, rfl, hb⟩
  · exact .inl h
  · exact .inr ⟨x, hq, rfl, hs.1.trans hb.req, hs.2.trans hb.resp⟩

theorem InHand.same (h : InHand t m q qs) (hs : SameBufs t m m') : InHand t m' q qs :=
  ⟨h.waits.same hs, fun b hb => hs.1.trans (h.request b hb)⟩

theorem outcome_same (hs : SameBufs q.env.caller m m') : q.outcome m' = q.outcome m := by
  cases q with
  | plain x =>
    have hread (k : Nat) : m'.dev.eng.mem.read (.resp x.env.caller) 0 k =
        m.dev.eng.mem.read (.resp x.env.caller) 0 k :=
      ByteMem.read_congr fun i _ => congrFun hs.2 _
    simp only [Job.outcome, PlainIoctl.result, hread]
  | batch b =>
    have hresp : m'.dev.eng.mem (.resp b.env.caller) = m.dev.eng.mem (.resp b.env.caller) := hs.2
    simp only [Job.outcome, errorSeen, hresp]

theorem HasAnswer.same (h : HasAnswer t tr m d qs) (hs : SameBufs t m m')
    (htr : ∀ y ∈ tr, y ∈ tr') : HasAnswer t tr' m' d qs := by
  obtain ⟨hrest, rfl, a, ha⟩ := h
  exact ⟨hrest, rfl, a, by rw [outcome_same hs]; exact htr _ ha⟩

theorem View.same (h : View t tr m answered p) (hs : SameBufs t m m')
    (htr : ∀ y ∈ tr, y ∈ tr') : View t tr' m' answered p := by
  cases p with
  | away | refused => trivial
  | between qs => exact Waits.same h hs
  | locked q qs | fresh q qs => exact InHand.same h hs
  | added d qs | waiting d qs =>
    exact ⟨fun hd => (h.1 hd).same hs, fun hd => (h.2 hd).same hs htr⟩
  | woken d qs | got d g qs | reading d qs => exact HasAnswer.same h hs htr

theorem View.unlocked (h : View t tr m answered p) (hp : ¬p.Holds) :
    View t tr m answered' p := by
  cases p with
  | away => trivial
  | between qs => exact h
  | reading d qs => exact h
  | locked | fresh | refused | added | waiting | woken | got => exact absurd trivial hp

theorem views_update {pc : Nat → Pc Nat Job} (h : ∀ u, u ≠ t → View u tr m answered (pc u))
    (hp : View t tr m answered p) (u : Nat) : View u tr m answered (Function.update pc t p u) := by
  by_cases hu : u = t
  · subst hu
    rwa [Function.update_self]
  · rw [Function.update_of_ne hu]
    exact h u hu

theorem views_schedule {s c : CallersSt} (h : Callers.Inv machineBuffer (fun _ => True) s)
    (hv : ∀ t, View t tr m s.dev.answered (s.pc t)) (hc : Schedules m s c) :
    ∀ t, View t tr m c.dev.answered (c.pc t) := by
  obtain ⟨step, hans, hidle, hread, hreq⟩ := hc
  cases step with
  | @enter t qs hpc =>
    have hne := hidle t hpc
    simp [St.at] at hne
  | process a hh =>
    have hlen := congrArg List.length hans
    simp at hlen
  | @read t d qs hpc | @readError t d qs hpc =>
    have hne := hread t d qs hpc
    simp [St.at] at hne
  | leave | addFails | unlockRefused => exact views_update (fun u _ => hv u) trivial
  | @lock t q qs hpc =>
    have ht := hv t
    rw [hpc] at ht
    refine views_update (fun u _ => hv u) ⟨ht, fun b hb => ?_⟩
    subst hb
    exact hreq t b qs hpc (Function.update_self _ _ _)
  | @reinit t q qs hpc | @kick t d qs hpc | @getBuf t d qs hpc | @unlock t d g qs hpc =>
    have ht := hv t
    rw [hpc] at ht
    exact views_update (fun u _ => hv u) ht
  | @add t q qs hpc =>
    have ht := hv t
    rw [hpc] at ht
    refine views_update (fun u _ => hv u) ⟨fun _ => ht, fun hmem => ?_⟩
    -- its number is that of no answer
    obtain ⟨x, hx, hd⟩ := List.mem_map.mp hmem
    have hids := (h.at_pc hpc trivial).2.2.2
    have hid : x.1.id ∈ List.range s.dev.next := hids ▸ List.mem_map_of_mem hx
    rw [hd] at hid
    exact absurd (List.mem_range.mp hid) (lt_irrefl _)
  | @wake t d qs hpc hdone =>
    have ht := hv t
    rw [hpc] at ht
    obtain ⟨-, -, -, a, ha, -⟩ := (h.inFlight hpc).2.signalled (Nat.pos_iff_ne_zero.mp hdone)
    exact views_update (fun u _ => hv u) (ht.2 (List.mem_map_of_mem ha))
  | pop | push | callback => exact hv

end Views

/-- The machine is where whole ioctls have led, in the order of the answers. -/
structure Tracks (m₀ : Machine) (tr : Trace) (s : Joint) : Prop where
  inv : Callers.Inv machineBuffer (fun _ => True) s.callers
  aside : Aside s.m
  atomic : Atomic m₀ tr s.m
  order : tr.map Prod.fst = s.callers.dev.answered
  view : ∀ t, View t tr s.m s.callers.dev.answered (s.callers.pc t)

section Runs
variable {m₀ : Machine} {tr : Trace} {s s' : Joint}

theorem host_caller {c : CallersSt} {d : Desc Nat Job}
    (h : Callers.Inv machineBuffer (fun _ => True) c)
    (hh : c.dev.host = some (d, none)) : d ∉ c.dev.answered.map Prod.fst ∧
      c.lock = some d.owner ∧ ∃ qs, c.pc d.owner = .added d qs ∨ c.pc d.owner = .waiting d qs := by
  obtain ⟨t, d', hl, ho, hd, -⟩ := h.busy (.inr (.inl (by rw [hh]; simp)))
  obtain ⟨rfl, -, hun⟩ := hd.popped hh
  refine ⟨fun hmem => ?_, ho ▸ hl, ?_⟩
  · obtain ⟨x, hx, hxd⟩ := List.mem_map.mp hmem
    have hid : x.1.id ∈ List.range d.id := hun.2.1 ▸ List.mem_map_of_mem hx
    rw [hxd] at hid
    exact absurd (List.mem_range.mp hid) (lt_irrefl _)
  · subst ho
    have hs := h.serving _ hl
    have busy {v : Callers.Dev Nat Job Served Unit} (hv : v.host = some (d, none))
        (hq : Callers.Quiet v) : False := by
      have hr := hq.1
      rw [Callers.Dev.ring_eq] at hr
      rw [hr.2.1] at hv
      cases hv
    rcases hpc : c.pc d.owner with _ | _ | _ | _ | _ | ⟨d', qs⟩ | ⟨d', qs⟩ | ⟨d', qs⟩
      | ⟨d', g, qs⟩ | _
    all_goals rw [hpc] at hs
    case added =>
      obtain ⟨rfl, -⟩ := hs.2.popped hh
      exact ⟨qs, .inl rfl⟩
    case waiting =>
      obtain ⟨rfl, -⟩ := hs.2.popped hh
      exact ⟨qs, .inr rfl⟩
    case woken =>
      have hr := hs.2.1
      rw [Callers.Dev.ring_eq] at hr
      rw [hr.2.1] at hh
      cases hh
    case got => exact (busy hh hs.2.2.1).elim
    case locked | fresh | refused => exact (busy hh hs).elim
    case away | between | reading => exact hs.elim

theorem Tracks.answer {d : Desc Nat Job} {a : Served} {m' : Machine} {o : JobOutcome}
    (h : Tracks m₀ tr s) (hh : s.callers.dev.host = some (d, none))
    (hclean : Clean d.owner s.m.dev.eng.mem m') (hat : Atomic m₀ (tr ++ [((d, a), o)]) m')
    (ho : o = d.req.outcome m') : Tracks m₀ (tr ++ [((d, a), o)]) ⟨{ s.callers with
      dev := { s.callers.dev with
        host := some (d, some a), resp := Function.update s.callers.dev.resp d.owner ()
        answered := s.callers.dev.answered ++ [(d, a)] } }, m'⟩ where
  inv := (show Callers.Step machineBuffer (fun _ => True) _ _ from .process a hh).inv h.inv
  aside := hclean.aside
  atomic := hat
  order := by rw [List.map_append, h.order]; rfl
  view t := by
    obtain ⟨hnew, hl, qs, hpc⟩ := host_caller h.inv hh
    by_cases ht : t = d.owner
    · subst ht
      have hv := h.view d.owner
      have hmem : d ∈ (s.callers.dev.answered ++ [(d, a)]).map Prod.fst := by simp
      have has (hw : InHand d.owner s.m d.req qs) :
          HasAnswer d.owner (tr ++ [((d, a), o)]) m' d qs :=
        ⟨hw.waits.rest, hw.waits.caller, a, by rw [← ho]; simp⟩
      dsimp only
      rcases hpc with hpc | hpc
      all_goals
        rw [hpc] at hv ⊢
        exact ⟨fun hno => absurd hmem hno, fun _ => has (hv.1 hnew)⟩
    · have hno : ¬(s.callers.pc t).Holds := fun hholds =>
        ht (Option.some.inj (((h.inv.holds t).mp hholds).symm.trans hl))
      exact ((h.view t).same (hclean.same ht) fun _ hy => List.mem_append_left _ hy).unlocked hno

theorem Tracks.reads {t : Nat} {d : Desc Nat Job} {qs : List Job} {p : Pc Nat Job}
    (h : Tracks m₀ tr s) (hpc : s.callers.pc t = .reading d qs) (hp : ¬p.Holds)
    (hr : p.request = none) (hv : View t tr s.m s.callers.dev.answered p) :
    Tracks m₀ tr ⟨s.callers.at t p, s.m⟩ where
  inv := h.inv.outside (by rw [hpc]; exact id) hp hr rfl rfl rfl fun _ _ => rfl
  aside := h.aside
  atomic := h.atomic
  order := h.order
  view := views_update (fun u _ => h.view u) hv

theorem Tracks.step (h : Tracks m₀ tr s) (step : Joint.Step s s') : ∃ tr', Tracks m₀ tr' s' := by
  have entered {t : Nat} {p : Pc Nat Job} (hpc : s.callers.pc t = .away) (hp : ¬p.Holds)
      (hr : p.request = none) :
      Callers.Inv machineBuffer (fun _ => True) (s.callers.at t p) :=
    h.inv.outside (by rw [hpc]; exact id) hp hr rfl rfl rfl fun _ _ => rfl
  cases step with
  | @plain t x ht hpc =>
    subst ht
    refine ⟨tr, entered hpc id rfl, h.aside, (h.atomic.fill _ (.inr rfl) _).fill _ (.inl rfl) _,
      h.order, ?_⟩
    refine views_update (fun u hu => (h.view u).same ?_ fun _ hy => hy)
      (.inr ⟨x, rfl, rfl, x.built_build s.m⟩)
    exact sameBufs_build hu _ _
  | @copy t qs hq f hpc =>
    refine ⟨tr, entered hpc id rfl, h.aside, (h.atomic.fill _ (.inr rfl) _).fill _ (.inl rfl) _,
      h.order, ?_⟩
    refine views_update (fun u hu => (h.view u).same ?_ fun _ hy => hy) (.inl hq)
    exact sameBufs_build hu _ _
  | @rewrite t b qs hpc =>
    refine ⟨tr, h.inv, h.aside, h.atomic.fill t (.inl rfl) _, h.order, fun u => ?_⟩
    by_cases hu : u = t
    · subst hu
      have hv := h.view u
      dsimp only
      rw [hpc] at hv ⊢
      rcases hv with hv | ⟨x, hx, -⟩
      · exact .inl hv
      · cases hx
    · exact (h.view u).same (sameBufs_setMem (by simp [Ne.symm hu]) _) fun _ hy => hy
  | schedule hc =>
    exact ⟨tr, hc.step.inv h.inv, h.aside, h.atomic, by rw [h.order, hc.answered],
      views_schedule h.inv h.view hc⟩
  | @process d a c hh hrun hc =>
    subst hc
    obtain ⟨hnew, -, qs, hpc⟩ := host_caller h.inv hh
    have hw : InHand d.owner s.m d.req qs := by
      have hv := h.view d.owner
      rcases hpc with hpc | hpc
      all_goals
        rw [hpc] at hv
        exact hv.1 hnew
    have hown := hw.waits.caller
    rcases hreq : d.req with x | b
    all_goals rw [hreq] at hw hown hrun
    · -- the whole ioctl happens here
      have hb := hw.waits.plain
      obtain ⟨hm, hres, hserved⟩ := hb.alone
      have ha : plainServed x.env x.cmd x.n x.m s.m = a := by
        rw [hb.serve] at hrun
        exact Option.some.inj hrun
      rw [ha] at hserved
      refine ⟨_, h.answer hh ?_ (hm ▸ h.atomic.ioctl hreq hserved) ?_⟩
      · rw [← hown]
        exact hb.clean h.aside
      · rw [hreq, hres, hm]
        rfl
    · have hown : b.env.caller = d.owner := hown
      refine ⟨_, h.answer hh ?_ (h.atomic.batch hreq ?_ hrun) ?_⟩
      · rw [← hown]
        exact batch_clean b h.aside
      · rw [hown]
        exact hw.request b rfl
      · rw [hreq]
        rfl
  | @read t d qs hpc hf =>
    have hv := h.view t
    rw [hpc] at hv
    exact ⟨tr, h.reads hpc id rfl (.inl hv.rest)⟩
  | @readError t d qs hpc hf => exact ⟨tr, h.reads hpc id rfl trivial⟩
  | guest f =>
    exact ⟨tr, h.inv, h.aside, h.atomic.guest f, h.order, fun u =>
      (h.view u).same (sameBufs_setMem (by simp) f) fun _ hy => hy⟩
  | later env =>
    obtain ⟨ha, hbufs⟩ := h.aside.later env
    exact ⟨tr, h.inv, ha, h.atomic.later env, h.order, fun u =>
      (h.view u).same ⟨hbufs _ trivial, hbufs _ trivial⟩ fun _ hy => hy⟩

theorem joint_tracks {resp : Nat → Unit} (h0 : Aside m₀)
    (h : Relation.ReflTransGen Joint.Step ⟨.start resp, m₀⟩ s) : ∃ tr, Tracks m₀ tr s := by
  induction h with
  | refl => exact ⟨[], Callers.inv_start resp, h0, .start, rfl, fun _ => trivial⟩
  | tail _ step ih =>
    obtain ⟨tr, htr⟩ := ih
    exact htr.step step

/-- However the ioctls of concurrent callers interleave, with each other, with the host and with
the guest, the machine is where plain ioctls run alone and batches of copies with their own requests
lead, one after another, exactly the answered ones in the order the host answered them, each once;
and what a caller reads of its response buffer is what its ioctl alone returned there, or the error
that its batch left there. -/
theorem ioctls_atomic {resp : Nat → Unit} (h0 : Aside m₀)
    (h : Relation.ReflTransGen Joint.Step ⟨.start resp, m₀⟩ s) :
    ∃ tr, Atomic m₀ tr s.m ∧ tr.map Prod.fst = s.callers.dev.answered ∧
      (tr.map (·.1.1.id)).Nodup ∧ ∀ t d qs, s.callers.pc t = .reading d qs →
        d.req.env.caller = t ∧ ∃ a, ((d, a), d.req.outcome s.m) ∈ tr := by
  obtain ⟨tr, htr⟩ := joint_tracks h0 h
  refine ⟨tr, htr.atomic, htr.order, ?_, fun t d qs hpc => ?_⟩
  · have hnd := htr.inv.history.1
    rwa [← htr.order, List.map_map] at hnd
  · have hv := htr.view t
    rw [hpc] at hv
    exact ⟨hv.caller, hv.done⟩

end Runs

/-- `cudaDeviceSynchronize` of caller 0. -/
def syncIoctl : PlainIoctl where
  env := .quiet .quiet fun _ a =>
    if a = 0 then UInt8.ofNat (Cmd.rt .deviceSynchronize).code else 0
  cmd := .rt .deviceSynchronize
  n := _
  m := _
  img := _
  sent := ⟨⟨_, rfl, by decide, rfl⟩, rfl, rfl⟩
  plain := by decide

theorem ioctls_atomic_synchronize : ∃ (s : Joint) (tr : Trace) (d : _) (a : Served),
    Atomic (.start fun _ _ => 0) tr s.m ∧ s.callers.pc 0 = .reading d [] ∧
      d.req = .plain syncIoctl ∧ ((d, a), .ret (syncIoctl.result s.m)) ∈ tr := by
  let m₀ : Machine := .start fun _ _ => 0
  let d : Desc Nat Job := ⟨0, 0, .plain syncIoctl⟩
  have caller {s s' : Joint} {c : CallersSt} (p : Pc Nat Job) {p' : Pc Nat Job}
      (h : Relation.ReflTransGen Joint.Step s s') (hpc : s'.callers.pc 0 = p) (hp : p ≠ .away)
      (hr : p.Holds ∨ p = .between [.plain syncIoctl])
      (step : s'.callers.pc 0 = p → Callers.Step machineBuffer (fun _ => True) s'.callers c)
      (hpc' : c.pc = Function.update s'.callers.pc 0 p')
      (hans : c.dev.answered = s'.callers.dev.answered) :
      Relation.ReflTransGen Joint.Step s ⟨c, s'.m⟩ := by
    have other {t : Nat} (ht : t ≠ 0) : c.pc t = s'.callers.pc t := by
      rw [hpc', Function.update_of_ne ht]
    refine h.tail (.schedule ⟨step hpc, hans, fun t ht => ?_, fun t d qs ht => ?_,
      fun t b qs ht => ?_⟩)
    · rwa [other fun h0 => hp (by rw [← hpc, ← h0, ht])]
    · rw [other fun h0 => ?_, ht]
      rw [← hpc, ← h0, ht] at hr
      rcases hr with hr | hr
      · exact hr
      · cases hr
    · by_cases h0 : t = 0
      · rw [← hpc, ← h0, ht] at hr
        rcases hr with hr | hr
        · exact hr.elim
        · cases hr
      · rw [other h0, ht]
        exact nofun
  have device {s s' : Joint} {c : CallersSt} (h : Relation.ReflTransGen Joint.Step s s')
      (step : Callers.Step machineBuffer (fun _ => True) s'.callers c) (hpc : c.pc = s'.callers.pc)
      (hans : c.dev.answered = s'.callers.dev.answered) :
      Relation.ReflTransGen Joint.Step s ⟨c, s'.m⟩ :=
    h.tail (.schedule ⟨step, hans, fun t ht => by rw [hpc, ht], fun t d qs ht => by rw [hpc, ht],
      fun t b qs ht hl => by rw [hpc, ht] at hl; cases hl⟩)
  have served := congrArg Prod.fst (syncIoctl.built_build m₀).serve
  have h0 : Relation.ReflTransGen Joint.Step ⟨.start fun _ => (), m₀⟩ _ :=
    .single (.plain (t := 0) syncIoctl rfl rfl)
  have h1 := caller (.between [.plain syncIoctl]) h0 rfl (by simp) (.inr rfl)
    (fun h => .lock h rfl) rfl rfl
  have h2 := caller (.locked (.plain syncIoctl) []) h1 rfl (by simp) (.inl trivial)
    (fun h => .reinit h) rfl rfl
  have h3 := caller (.fresh (.plain syncIoctl) []) h2 rfl (by simp) (.inl trivial)
    (fun h => .add h trivial) rfl rfl
  have h4 := caller (.added d []) h3 rfl (by simp) (.inl trivial) (fun h => .kick h) rfl rfl
  have h5 := device h4 (.pop (show Callers.Dev.avail _ = [d] from rfl) rfl) rfl rfl
  have h6 := h5.tail (.process (show Callers.Dev.host _ = some (d, none) from rfl) served rfl)
  have h7 := device h6 (.push (show Callers.Dev.host _ = some (d, some _) from rfl)) rfl rfl
  have h8 := device h7 (.callback (by decide)) rfl rfl
  have h9 := caller (.waiting d []) h8 rfl (by simp) (.inl trivial)
    (fun h => .wake h (by decide)) rfl rfl
  have h10 := caller (.woken d []) h9 rfl (by simp) (.inl trivial) (fun h => .getBuf h) rfl rfl
  have h11 := caller (.got d (some d) []) h10 rfl (by simp) (.inl trivial)
    (fun h => .unlock h) rfl rfl
  obtain ⟨tr, hat, -, -, hread⟩ := ioctls_atomic (fun c hc => absurd hc List.not_mem_nil) h11
  obtain ⟨-, a, ha⟩ := hread 0 d [] rfl
  exact ⟨_, tr, d, a, hat, rfl, rfl, ha⟩

end HmCuda
