import HmCuda.Guest.Requests
import HmCuda.Guest.Transport
import HmCuda.System.Payload
import HmCuda.System.RequestBounds

/-! The variable-length requests from the intercept library to the handler: three
programs compute the length of the tail and where it lies, each from its own tables. -/

namespace HmCuda
open Layout

theorem getD_flatMap {α : Type} {f : α → List UInt8} {w : Nat} (hf : ∀ x, (f x).length = w)
    {l : List α} {i : Nat} {x : α} (hx : l[i]? = some x) {j : Nat} (hj : j < w) :
    (l.flatMap f).getD (w * i + j) 0 = (f x).getD j 0 := by
  induction l generalizing i with
  | nil => simp at hx
  | cons y l ih =>
    rw [List.flatMap_cons]
    cases i with
    | zero =>
      obtain rfl : y = x := by simpa using hx
      rw [Nat.mul_zero, Nat.zero_add, List.getD_append _ _ _ _ (by rw [hf]; exact hj)]
    | succ i =>
      have hle : (f y).length ≤ w * (i + 1) + j := by
        rw [hf, Nat.mul_succ]
        omega
      have hsub : w * (i + 1) + j - (f y).length = w * i + j := by
        rw [hf, Nat.mul_succ]
        omega
      rw [List.getD_append_right _ _ _ _ hle, hsub]
      exact ih (by simpa using hx)

theorem length_flatMap_of {α : Type} {f : α → List UInt8} {w : Nat} (hf : ∀ x, (f x).length = w)
    (l : List α) : (l.flatMap f).length = l.length * w := by
  induction l with
  | nil => simp
  | cons y l ih => rw [List.flatMap_cons, List.length_append, hf, ih, List.length_cons, Nat.succ_mul,
      Nat.add_comm]

@[simp] theorem length_argWord (args : Option (Nat → Nat → UInt8)) (i : Nat) :
    (argWord args i).length = 8 := by
  simp [argWord]

@[simp] theorem length_encode (s : CStruct) (left : Nat → UInt8) (vals : List Nat) :
    (encode s left vals).length = sizeof s := by
  simp [encode]

theorem length_encodeDesc (d : Nat × Nat × Nat) :
    (encodeDesc d).length = sizeof cuMemAccessDesc := length_encode _ _ _

theorem map_getD_range (l : List UInt8) :
    (List.range l.length).map (fun i => l.getD i 0) = l := by
  apply List.ext_getElem (by simp)
  intro i h1 h2
  simp [List.getD_eq_getElem?_getD, List.getElem?_eq_getElem h2]

section
variable {e : CmdEnv} {s : CmdSt} {off : Nat}

theorem peek_tail {bs : List UInt8} (h : ∀ j < bs.length, s.payload (off + j) = bs.getD j 0)
    {j n : Nat} (hj : j + n ≤ bs.length) :
    ((peek (off + j) n).run e s).1 = (List.range n).map fun i => bs.getD (j + i) 0 := by
  apply List.map_congr_left
  intro i hi
  have hlt : j + i < bs.length := by
    have := List.mem_range.mp hi
    omega
  rw [Nat.add_assoc, Nat.add_assoc]
  exact h _ hlt

theorem peek_whole {bs : List UInt8} (h : ∀ j < bs.length, s.payload (off + j) = bs.getD j 0) :
    ((peek off bs.length).run e s).1 = bs := by
  have hpeek := peek_tail (e := e) h (j := 0) (n := bs.length) (Nat.le_of_eq (Nat.zero_add _))
  simp only [Nat.zero_add] at hpeek
  exact hpeek.trans (map_getD_range bs)

theorem peek_argWord {n : Nat} {args : Option (Nat → Nat → UInt8)}
    (h : ∀ j < ((List.range n).flatMap (argWord args)).length,
      s.payload (off + j) = ((List.range n).flatMap (argWord args)).getD j 0) {i : Nat} (hi : i < n) :
    ((peek (off + 8 * i) 8).run e s).1 = argWord args i := by
  have hlen := length_flatMap_of (length_argWord args) (List.range n)
  rw [List.length_range] at hlen
  refine (peek_tail h (by omega)).trans ?_
  have hall := map_getD_range (argWord args i)
  rw [length_argWord] at hall
  rw [← hall]
  exact List.map_congr_left fun j hj =>
    getD_flatMap (length_argWord args) (List.getElem?_range hi) (List.mem_range.mp hj)

theorem peekStr_name {name : List UInt8}
    (h : ∀ j < (name ++ [0]).length, s.payload (off + j) = (name ++ [0]).getD j 0)
    (hlen : payloadOff + off + (name.length + 1) ≤ e.elem.reqLen) (h0 : 0 ∉ name) :
    strEnd e.env.heap s.buf e.elem.reqLen (payloadOff + off) = payloadOff + off + name.length + 1 ∧
      ((peekStr off).run e s).1 = name ++ [0] := by
  have hb (j : Nat) (hj : j < (name ++ [0]).length) :
      s.buf (payloadOff + off + j) = (name ++ [0]).getD j 0 := by
    rw [Nat.add_assoc]
    exact h j hj
  have hz : s.buf (payloadOff + off + name.length) = 0 := by
    rw [hb _ (by simp)]
    simp
  have hne (j : Nat) (hj : j < name.length) : s.buf (payloadOff + off + j) ≠ 0 := by
    rw [hb j (by simp; omega), List.getD_append _ _ _ _ hj, List.getD_eq_getElem _ _ hj]
    exact fun he => h0 (he ▸ List.getElem_mem hj)
  have hfind : (List.range (e.elem.reqLen - (payloadOff + off))).find?
      (fun i => decide (s.buf (payloadOff + off + i) = 0)) = some name.length := by
    rw [List.find?_range_eq_some]
    refine ⟨by simpa using hz, List.mem_range.mpr (by omega), fun j hj => ?_⟩
    simpa using hne j hj
  have hstr : strEnd e.env.heap s.buf e.elem.reqLen (payloadOff + off) =
      payloadOff + off + name.length + 1 := by
    rw [strEnd, hfind]
  have hn : payloadOff + off + name.length + 1 - (payloadOff + off) = (name ++ [0]).length := by
    simp
    omega
  refine ⟨hstr, ?_⟩
  show ((peek off (strEnd e.env.heap s.buf e.elem.reqLen (payloadOff + off) -
    (payloadOff + off))).run e s).1 = name ++ [0]
  rw [hstr, hn]
  exact peek_whole h

theorem readDesc_encodeDesc {desc : List (Nat × Nat × Nat)}
    (h : ∀ j < (desc.flatMap encodeDesc).length,
      s.payload (sizeof cuMemSetAccessReq + j) = (desc.flatMap encodeDesc).getD j 0)
    {i : Nat} {d : Nat × Nat × Nat} (hd : desc[i]? = some d)
    (hlt : d.1 < 2 ^ 32 ∧ d.2.1 < 2 ^ 32 ∧ d.2.2 < 2 ^ 32) :
    ((readDesc i).run e s).1 = [d.1, d.2.1, d.2.2] := by
  have hi : i < desc.length := (List.getElem?_eq_some_iff.mp hd).1
  have hlen := length_flatMap_of length_encodeDesc desc
  have h12 : sizeof cuMemAccessDesc = 12 := by decide
  have read (f v : Nat) (hs : (field cuMemAccessDesc f).size = 4)
      (ho : (field cuMemAccessDesc f).off + 4 ≤ 12) (hv : [d.1, d.2.1, d.2.2][f]? = some v)
      (hsm : v < 256 ^ 4) :
      Field.get ⟨sizeof cuMemSetAccessReq + i * sizeof cuMemAccessDesc +
        (field cuMemAccessDesc f).off, (field cuMemAccessDesc f).size⟩ s.payload = v := by
    have hget := get_respImage cuMemAccessDesc (fun _ => 0) [d.1, d.2.1, d.2.2]
      (Nat.le_of_eq rfl) hv
    rw [hs, Nat.mod_eq_of_lt hsm] at hget
    rw [← hget, Field.get, Field.get, hs]
    congr 1
    apply List.map_congr_left
    intro j hj
    have hj := List.mem_range.mp hj
    have hdesc := getD_flatMap length_encodeDesc hd
      (by omega : (field cuMemAccessDesc f).off + j < sizeof cuMemAccessDesc)
    have hpay := h (sizeof cuMemAccessDesc * i + ((field cuMemAccessDesc f).off + j)) (by
      rw [hlen, h12]
      omega)
    rw [hdesc, ← Nat.add_assoc, ← Nat.add_assoc, Nat.mul_comm] at hpay
    exact hpay
  have h0 := read 0 d.1 (by decide) (by decide) rfl hlt.1
  have h1 := read 1 d.2.1 (by decide) (by decide) rfl hlt.2.1
  have h2 := read 2 d.2.2 (by decide) (by decide) rfl hlt.2.2
  simp only [readDesc, Prog.bind_run, Prog.pure_run, req_fst, req_payload]
  exact congrArg₂ List.cons h0 (congrArg₂ List.cons h1 (congrArg₂ List.cons h2 rfl))

end

namespace VarReq

theorem length_tail (r : VarReq) : r.tail.length = r.count * r.cmd.unit := by
  cases r with
  | launchKernel func grid block sharedMem stream paramCount args =>
    rw [tail, length_flatMap_of (length_argWord args), List.length_range]
    exact (Nat.mul_one _).symm
  | registerFatbin fatCubin wrapped => simp [tail, VarReq.cmd, VarCmd.unit]
  | registerFunction fatbinHandle hostFun deviceFun => simp [tail, count, VarReq.cmd, VarCmd.unit]
  | cuMemSetAccess ptr size desc => exact length_flatMap_of length_encodeDesc desc

variable {r : VarReq} (left : Nat → UInt8)

theorem length_payload (r : VarReq) :
    (r.payload left).length = r.cmd.fixed + r.count * r.cmd.unit := by
  rw [payload, List.length_append, length_encode, length_tail, VarCmd.fixed]

theorem members_le (r : VarReq) : r.members.length ≤ r.cmd.struct.length := by
  cases r <;> exact Nat.le_of_eq rfl

theorem Fits.get (hr : r.Fits) {p : Nat → UInt8}
    (hp : ∀ a < (r.payload left).length, p a = (r.payload left).getD a 0) {i v : Nat}
    (hv : r.members[i]? = some v) : (field r.cmd.struct i).get p = v := by
  have hget := get_respImage r.cmd.struct (if r.zeroed then fun _ => 0 else left) _ r.members_le hv
  rw [Nat.mod_eq_of_lt (hr.members i v hv)] at hget
  rw [← hget]
  apply Field.get_congr
  intro a _ ha
  have hs : a < sizeof r.cmd.struct := ha.trans_le (stop_le_sizeof _ _)
  have hlen : a < (r.payload left).length := by
    rw [length_payload, VarCmd.fixed]
    omega
  rw [hp a hlen, payload, List.getD_append _ _ _ _ (by rw [length_encode]; exact hs), encode]

theorem payload_tail {p : Nat → UInt8}
    (hp : ∀ a < (r.payload left).length, p a = (r.payload left).getD a 0) {j : Nat}
    (hj : j < r.tail.length) : p (r.cmd.fixed + j) = r.tail.getD j 0 := by
  have hlen : r.cmd.fixed + j < (r.payload left).length := by
    rw [length_payload, ← length_tail]
    omega
  rw [hp _ hlen, payload, List.getD_append_right _ _ _ _ (by rw [length_encode, VarCmd.fixed]; omega),
    length_encode, VarCmd.fixed, Nat.add_sub_cancel_left]

theorem Fits.stated (hr : r.Fits) {p : Nat → UInt8}
    (hp : ∀ a < (r.payload left).length, p a = (r.payload left).getD a 0) :
    (field r.cmd.struct r.cmd.index).get p = r.count := by
  have hc := hr.count
  cases r with
  | registerFatbin fatCubin wrapped => exact hr.get left hp rfl
  | launchKernel func grid block sharedMem stream paramCount args =>
    exact (hr.get left hp rfl).trans (Nat.mod_eq_of_lt hc)
  | registerFunction fatbinHandle hostFun deviceFun =>
    exact (hr.get left hp rfl).trans (Nat.mod_eq_of_lt hc)
  | cuMemSetAccess ptr size desc => exact (hr.get left hp rfl).trans (Nat.mod_eq_of_lt hc)

/-- What the handler reads from its request by its own means is what was encoded. -/
structure DecodedBy (r : VarReq) (e : CmdEnv) (s : CmdSt) : Prop where
  members : ∀ i v, r.members[i]? = some v → ((req (field r.cmd.struct i)).run e s).1 = v
  count : ((req (field r.cmd.struct r.cmd.index)).run e s).1 = r.count
  tail : match r with
    | launchKernel _ _ _ _ _ paramCount args => ∀ i < paramCount,
      ((peek (sizeof launchKernelReq + 8 * i) 8).run e s).1 = argWord args i
    | registerFatbin fatCubin wrapped =>
      ((peek (sizeof registerFatbinReq) (fatbinSize (fatbinData fatCubin wrapped))).run e s).1 =
        (List.range (fatbinSize (fatbinData fatCubin wrapped))).map (fatbinData fatCubin wrapped)
    | registerFunction _ _ deviceFun =>
      ((peekStr (sizeof registerFunctionReq)).run e s).1 = deviceFun ++ [0]
    | cuMemSetAccess _ _ desc => ∀ i d, desc[i]? = some d →
      ((readDesc i).run e s).1 = [d.1, d.2.1, d.2.2]

theorem Fits.decodedBy (hr : r.Fits) {e : CmdEnv} {s : CmdSt}
    (hlen : e.elem.reqLen = payloadOff + (r.payload left).length)
    (hp : ∀ a < (r.payload left).length, s.payload a = (r.payload left).getD a 0) :
    r.DecodedBy e s := by
  refine ⟨fun i v hv => hr.get left hp hv, hr.stated left hp, ?_⟩
  have hpl := r.length_payload left
  have ht (j : Nat) (hj : j < r.tail.length) := payload_tail left hp hj
  cases r with
  | launchKernel func grid block sharedMem stream paramCount args =>
    exact fun i hi => peek_argWord ht hi
  | registerFatbin fatCubin wrapped =>
    have h := peek_whole (e := e) ht
    have hcount : (registerFatbin fatCubin wrapped).tail.length =
        fatbinSize (fatbinData fatCubin wrapped) := by
      simp only [VarReq.tail, VarReq.count, List.length_map, List.length_range]
    rw [hcount] at h
    exact h
  | registerFunction fatbinHandle hostFun deviceFun =>
    have hle : payloadOff + sizeof registerFunctionReq + (deviceFun.length + 1) ≤ e.elem.reqLen := by
      rw [hlen, hpl, Nat.add_assoc]
      exact Nat.le_of_eq (congrArg (fun n => payloadOff + (sizeof registerFunctionReq + n))
        (Nat.mul_one (deviceFun.length + 1)).symm)
    exact (peekStr_name ht hle hr.tail).2
  | cuMemSetAccess ptr size desc =>
    exact fun i d hd => readDesc_encodeDesc ht hd (hr.tail d (List.mem_of_getElem? hd))

end VarReq

/-! What a handler reads -/

/-- A read that CUDA makes itself, of an image or of a parameter it is pointed to. -/
def CudaRead (env : Env) (v : VarCmd) (n : Nat) (a : Nat × Nat) : Prop :=
  match v with
  | .launchKernel => ∃ func i, i < n ∧ (env.paramSizes func)[i]? = some a.2 ∧
      a.1 = payloadOff + (sizeof launchKernelReq + 8 * i)
  | .registerFatbin => ∃ image, a = (payloadOff + sizeof registerFatbinReq, env.imageLen image)
  | .registerFunction | .cuMemSetAccess => False

section
variable {e : CmdEnv} {ι α : Type}

theorem mem_touched_forEach {f : ι → CmdM Unit} {g : ι → Nat × Nat}
    (hf : ∀ i s, ∀ a ∈ ((f i).run e s).2.touched, a ∈ s.touched ∨ a = g i) (is : List ι)
    (s : CmdSt) : ∀ a ∈ ((Prog.forEach f is).run e s).2.touched,
      a ∈ s.touched ∨ ∃ i ∈ is, a = g i := by
  induction is generalizing s with
  | nil => exact fun a ha => .inl ha
  | cons i is ih =>
    intro a ha
    rcases ih ((f i).run e s).2 a ha with ha | ⟨j, hj, rfl⟩
    · rcases hf i s a ha with ha | rfl
      · exact .inl ha
      · exact .inr ⟨i, List.mem_cons_self, rfl⟩
    · exact .inr ⟨j, List.mem_cons_of_mem _ hj, rfl⟩

theorem mem_touched_collect {f : ι → CmdM α} {g : ι → Nat × Nat}
    (hf : ∀ i s, ∀ a ∈ ((f i).run e s).2.touched, a ∈ s.touched ∨ a = g i) (is : List ι)
    (s : CmdSt) : ∀ a ∈ ((Prog.collect f is).run e s).2.touched,
      a ∈ s.touched ∨ ∃ i ∈ is, a = g i := by
  rw [Prog.collect_snd]
  exact mem_touched_forEach (f := fun i => do let _ ← f i) hf is s

theorem mem_touched_translateArg (c : Context) (args i : Nat) (s : CmdSt) :
    ∀ a ∈ ((translateArg c args i).run e s).2.touched,
      a ∈ s.touched ∨ a = (payloadOff + (args + 8 * i), 8) := by
  intro a ha
  unfold translateArg at ha
  simp only [Prog.bind_run, Prog.ite_run] at ha
  split at ha
  · simp only [poke, peek, Prog.modify_run, List.mem_append, List.mem_singleton, Bytes.length_le]
      at ha
    rcases ha with (ha | ha) | ha
    exacts [.inl ha, .inr ha, .inr ha]
  · simp only [peek, Prog.pure_run, List.mem_append, List.mem_singleton] at ha
    exact ha

theorem mem_touched_readParams (args n : Nat) (sizes : List Nat) (s : CmdSt) :
    ∀ a ∈ ((readParams args n sizes).run e s).2.touched, a ∈ s.touched ∨
      ∃ i < n, sizes[i]? = some a.2 ∧ a.1 = payloadOff + (args + 8 * i) := by
  intro a ha
  have hone (p : Nat × Nat) (s : CmdSt) (b : Nat × Nat)
      (hb : b ∈ ((peek (args + 8 * p.2) p.1).run e s).2.touched) :
      b ∈ s.touched ∨ b = (payloadOff + (args + 8 * p.2), p.1) := by
    simpa [peek] using hb
  rcases mem_touched_collect hone _ s a ha with ha | ⟨⟨x, i⟩, hp, rfl⟩
  · exact .inl ha
  · have hget := List.mem_zipIdx_iff_getElem?.mp hp
    obtain ⟨hlt, -⟩ := List.getElem?_eq_some_iff.mp hget
    have hi : i < n := by
      rw [List.length_take] at hlt
      omega
    rw [List.getElem?_take_of_lt hi] at hget
    exact .inr ⟨i, hi, hget, rfl⟩

theorem mem_touched_coreLaunchKernel (s : CmdSt) (func : Nat) (grid block : List Nat)
    (sharedMem stream args argsSize : Nat) : ∀ a ∈ ((coreLaunchKernel e.key func grid block
      sharedMem stream args argsSize).run e s).2.touched, a ∈ s.touched ∨
        ∃ i < argsSize / 8, a.1 = payloadOff + (args + 8 * i) ∧
          (a.2 = 8 ∨ ∃ f, (e.env.paramSizes f)[i]? = some a.2) := by
  intro a ha
  unfold coreLaunchKernel at ha
  simp only [Prog.bind_run, Prog.get_run] at ha
  rcases hc : s.be.tab.ctxGet e.key with _ | c
  · simp only [hc, Prog.pure_run] at ha
    exact .inl ha
  simp only [hc, Prog.ite_run] at ha
  -- the result of the launch decides nothing about the request
  have tail (t : CmdSt) (params : List (List UInt8)) (config : List Nat) : ((do
      let res ← core (query (lib .cuLaunchKernel config params))
      if res.code ≠ 0 then
        let _ ← core (query (lib .cuGetErrorString [res.code] []))
        return 719
      return 0 : CmdM Nat).run e t).2.touched = t.touched := by
    simp only [Prog.bind_run, Prog.ite_run]
    split <;> simp
  by_cases h0 : c.resGet .function func = 0
  · rw [if_pos h0, Prog.pure_run] at ha
    exact .inl ha
  rw [if_neg h0] at ha
  by_cases hs : argsSize > 0
  · simp only [if_pos hs] at ha
    rw [Prog.bind_run, Prog.bind_run, Prog.ask_run, Prog.bind_run, tail] at ha
    rcases mem_touched_readParams _ _ _ _ a ha with ha | ⟨i, hi, hsz, h1⟩
    · rcases mem_touched_forEach (mem_touched_translateArg c args) _ _ a ha with ha | ⟨i, hi, rfl⟩
      · exact .inl ha
      · exact .inr ⟨i, List.mem_range.mp hi, rfl, .inl rfl⟩
    · exact .inr ⟨i, hi, h1, .inr ⟨_, hsz⟩⟩
  · simp only [if_neg hs] at ha
    rw [Prog.bind_run, tail, Prog.pure_run] at ha
    exact .inl ha

theorem handleLaunchKernel_touched (s : CmdSt) :
    ∀ a ∈ (handleLaunchKernel.run e s).2.touched, a ∈ s.touched ∨
      (∃ f ∈ RtCmd.launchKernel.reads, a = (payloadOff + f.off, f.size)) ∨
      ∃ i < launchKernelReq.argsSize.get s.payload / 8,
        a.1 = payloadOff + (sizeof launchKernelReq + 8 * i) ∧
          (a.2 = 8 ∨ ∃ f, (e.env.paramSizes f)[i]? = some a.2) := by
  intro a ha
  unfold handleLaunchKernel at ha
  simp only [dim3, Prog.bind_run, Prog.pure_run, key_run, setErr_touched, req_fst, req_payload] at ha
  rcases mem_touched_coreLaunchKernel _ _ _ _ _ _ _ _ a ha with ha | ha
  · simp only [req_touched, List.append_assoc] at ha
    have hmem : a ∈ s.touched ++ RtCmd.launchKernel.reads.map
        fun f => (payloadOff + f.off, f.size) := ha
    rcases List.mem_append.mp hmem with ha | ha
    · exact .inl ha
    · obtain ⟨f, hf, rfl⟩ := List.mem_map.mp ha
      exact .inr (.inl ⟨f, hf, rfl⟩)
  · exact .inr (.inr ha)

theorem launchKernel_reads_stop : ∀ f ∈ RtCmd.launchKernel.reads, f.stop ≤ sizeof launchKernelReq := by
  decide

theorem handleRegisterFatbin_touched (s : CmdSt) :
    ∀ a ∈ (handleRegisterFatbin.run e s).2.touched, a ∈ s.touched ∨
      a = (payloadOff + registerFatbinReq.size.off, registerFatbinReq.size.size) ∨
      ∃ image, a = (payloadOff + sizeof registerFatbinReq, e.env.imageLen image) := by
  intro a ha
  unfold handleRegisterFatbin at ha
  simp only [Prog.bind_run, key_run, Prog.get_run, Prog.ite_run, Prog.ask_run] at ha
  split at ha
  · have hmem : a ∈ (s.touched ++ [(payloadOff + registerFatbinReq.size.off,
        registerFatbinReq.size.size)]) ++ [(payloadOff + sizeof registerFatbinReq,
          e.env.imageLen fun i => s.buf (payloadOff + sizeof registerFatbinReq + i))] := ha
    simp only [List.mem_append, List.mem_singleton] at hmem
    rcases hmem with (ha | ha) | ha
    exacts [.inl ha, .inr (.inl ha), .inr (.inr ⟨_, ha⟩)]
  · have hmem : a ∈ s.touched ++ [(payloadOff + registerFatbinReq.size.off,
        registerFatbinReq.size.size)] := ha
    simp only [List.mem_append, List.mem_singleton] at hmem
    rcases hmem with ha | ha
    exacts [.inl ha, .inr (.inl ha)]

/-! Every read is inside a request of the length that was sent, or CUDA's own. -/

variable {s : CmdSt} {n : Nat}

theorem launchKernel_within (hs : s.touched = [])
    (hn : launchKernelReq.argsSize.get s.payload = n * 8)
    (hlen : e.elem.reqLen = payloadOff + (sizeof launchKernelReq + n * 8)) :
    ∀ a ∈ ((dispatchCmd (Cmd.rt .launchKernel).code).run e s).2.touched,
      Within e.elem.reqLen a ∨ CudaRead e.env .launchKernel n a := by
  intro a ha
  rw [dispatchCmd, Cmd.ofCode_code] at ha
  rcases handleLaunchKernel_touched s a ha with ha | ⟨f, hf, rfl⟩ | ⟨i, hi, h1, h2⟩
  · rw [hs] at ha
    cases ha
  · have hstop := launchKernel_reads_stop f hf
    refine .inl (.inr ?_)
    rw [hlen, Nat.add_assoc]
    unfold Field.stop at hstop
    omega
  · rw [hn, Nat.mul_div_cancel _ (by decide)] at hi
    rcases h2 with h2 | ⟨g, hg⟩
    · refine .inl (.inr ?_)
      rw [hlen, h1, h2]
      omega
    · exact .inr ⟨g, i, hi, hg, h1⟩

theorem registerFatbin_within (hs : s.touched = [])
    (hlen : payloadOff + sizeof registerFatbinReq ≤ e.elem.reqLen) :
    ∀ a ∈ ((dispatchCmd (Cmd.rt .registerFatbin).code).run e s).2.touched,
      Within e.elem.reqLen a ∨ CudaRead e.env .registerFatbin n a := by
  intro a ha
  rw [dispatchCmd, Cmd.ofCode_code] at ha
  rcases handleRegisterFatbin_touched s a ha with ha | rfl | ⟨image, rfl⟩
  · rw [hs] at ha
    cases ha
  · exact .inl (.inr hlen)
  · exact .inr ⟨image, rfl⟩

theorem within_of_needs {c : Cmd} (hs : s.touched = []) (hneeds : c.needs e s ≤ e.elem.reqLen) :
    ∀ a ∈ ((dispatchCmd c.code).run e s).2.touched, Within e.elem.reqLen a := by
  have htop := dispatchCmd_top (e := e) c s
  rw [CmdSt.top, CmdSt.top, hs] at htop
  exact (within_iff_lastEnd _ _).mpr ((htop.trans (Nat.zero_max _)).trans_le hneeds)

theorem registerFunction_within {name : List UInt8} (hs : s.touched = [])
    (h : ∀ j < (name ++ [0]).length,
      s.payload (sizeof registerFunctionReq + j) = (name ++ [0]).getD j 0) (h0 : 0 ∉ name)
    (hlen : payloadOff + sizeof registerFunctionReq + (name.length + 1) ≤ e.elem.reqLen) :
    ∀ a ∈ ((dispatchCmd (Cmd.rt .registerFunction).code).run e s).2.touched,
      Within e.elem.reqLen a := by
  refine within_of_needs hs ?_
  have hend := (peekStr_name h hlen h0).1
  have hmem : membersEnd RtCmd.registerFunction.reads = 24 := by decide
  have hoff : payloadOff + sizeof registerFunctionReq = 32 := by decide
  rw [Cmd.needs, hmem, nameEnd]
  split
  · omega
  · split
    · omega
    · rw [hend]
      omega

theorem cuMemSetAccess_within (hs : s.touched = [])
    (hn : cuMemSetAccessReq.count.get s.payload = n)
    (hlen : e.elem.reqLen = payloadOff + (sizeof cuMemSetAccessReq + n * sizeof cuMemAccessDesc)) :
    ∀ a ∈ ((dispatchCmd (Cmd.drv .cuMemSetAccess).code).run e s).2.touched,
      Within e.elem.reqLen a := by
  refine within_of_needs hs ?_
  have hmem : membersEnd DrvCmd.cuMemSetAccess.reads = 28 := by decide
  have hoff : payloadOff + sizeof cuMemSetAccessReq = 32 := by decide
  rw [← Nat.add_assoc, hoff] at hlen
  rw [Cmd.needs, hmem, descsEnd, hn, hoff, hlen, Nat.mul_comm]
  split
  · exact Nat.max_le.mpr ⟨by omega, le_rfl⟩
  · omega

end

namespace VarReq
variable {r : VarReq} (left : Nat → UInt8) {e : CmdEnv} {s : CmdSt}

theorem Fits.within (hr : r.Fits) (hs : s.touched = [])
    (hlen : e.elem.reqLen = payloadOff + (r.payload left).length)
    (hp : ∀ a < (r.payload left).length, s.payload a = (r.payload left).getD a 0) :
    ∀ a ∈ ((dispatchCmd r.cmd.cmd.code).run e s).2.touched,
      Within e.elem.reqLen a ∨ CudaRead e.env r.cmd (r.count / 8) a := by
  have hcount := hr.stated left hp
  have ht (j : Nat) (hj : j < r.tail.length) := payload_tail left hp hj
  rw [length_payload] at hlen
  cases r with
  | launchKernel func grid block sharedMem stream paramCount args =>
    have hdiv : (launchKernel func grid block sharedMem stream paramCount args).count / 8 =
        paramCount := Nat.mul_div_cancel _ (by decide)
    rw [hdiv]
    exact launchKernel_within hs hcount (hlen.trans (congrArg
      (fun n => payloadOff + (sizeof launchKernelReq + n)) (Nat.mul_one _)))
  | registerFatbin fatCubin wrapped =>
    generalize (registerFatbin fatCubin wrapped).count *
      (registerFatbin fatCubin wrapped).cmd.unit = n at hlen
    refine registerFatbin_within hs ?_
    rw [hlen]
    exact Nat.add_le_add_left (Nat.le_add_right (sizeof registerFatbinReq) n) payloadOff
  | registerFunction fatbinHandle hostFun deviceFun =>
    have hle : payloadOff + sizeof registerFunctionReq + (deviceFun.length + 1) ≤ e.elem.reqLen := by
      rw [hlen, Nat.add_assoc]
      exact Nat.le_of_eq (congrArg (fun n => payloadOff + (sizeof registerFunctionReq + n))
        (Nat.mul_one (deviceFun.length + 1)).symm)
    exact fun a ha => .inl (registerFunction_within hs ht hr.tail hle a ha)
  | cuMemSetAccess ptr size desc =>
    have hn : cuMemSetAccessReq.count.get s.payload = desc.length := hcount
    simp only [VarReq.cmd, VarReq.count, VarCmd.fixed, VarCmd.unit, VarCmd.struct] at hlen
    have hall := cuMemSetAccess_within hs hn hlen
    intro a ha
    simp only [VarReq.cmd, VarCmd.cmd] at ha
    exact .inl (hall a ha)

/-! From the caller's buffer to the handler -/

theorem dispatchBuf_payload (stack : Nat → UInt8) (cmd : Nat) (req : List UInt8) (respLen : Nat)
    {a : Nat} (ha : a < req.length) :
    dispatchBuf stack cmd req respLen (sizeof reqHeader + a) = req.getD a 0 := by
  simp only [dispatchBuf]
  rw [if_neg (by omega), if_pos (by omega), Nat.add_sub_cancel_left]

def call (r : VarReq) (t : Transport) (stack left : Nat → UInt8) : Call :=
  ⟨t, stack, r.cmd.cmd, r.payload left, r.respLen⟩

def element (r : VarReq) (e : DrvEnv) (left : Nat → UInt8) : Elem :=
  plainElem e (r.payload left).length (r.cmd.cmd.sizes none).respSize

section
variable {d : DrvEnv} {t : Transport} {stack : Nat → UInt8}

theorem fetch_calling {buf : Nat → UInt8} {i off n : Nat} (h : d.arg + off + n ≤ taskSize) :
    (d.calling buf).fetch i off n = some fun a => buf (off + a) := by
  unfold DrvEnv.fetch
  exact if_pos h

theorem fetch_calling_eq {buf p : Nat → UInt8} {i off n : Nat}
    (h : (d.calling buf).fetch i off n = some p) : p = fun a => buf (off + a) := by
  unfold DrvEnv.fetch at h
  split at h
  · exact (Option.some.inj h).symm
  · cases h

variable (t stack) in
theorem Fits.sent (hr : r.Fits) (halloc : ∀ b, d.kmalloc b = true)
    (harg : d.arg + dispatchLen (r.payload left).length r.respLen ≤ taskSize)
    (htaken : d.addSgs 0 = none) :
    ∃ img, Sent (d.calling (r.call t stack left).buf) r.cmd.cmd (r.payload left).length
        (r.cmd.cmd.sizes none).respSize img ∧
      ∀ a < (r.payload left).length, img (sizeof reqHeader + a) = (r.payload left).getD a 0 := by
  have hlen := r.length_payload left
  have hpos := r.cmd.fixed_pos
  have htask : taskSize < 2 ^ 64 := by decide
  have hmax : sizeof reqHeader + (r.payload left).length ≤
      dispatchLen (r.payload left).length r.respLen :=
    (Nat.add_le_add_left (le_max_left _ _) _).trans (le_max_left _ _)
  have hbuf (a : Nat) (ha : a < (r.payload left).length) :
      (r.call t stack left).buf (sizeof reqHeader + a) = (r.payload left).getD a 0 :=
    dispatchBuf_payload stack _ _ _ ha
  let p : Nat → UInt8 := fun a => (r.call t stack left).buf (sizeof reqHeader + a)
  have hfirst : (d.calling (r.call t stack left).buf).fetch 1 (sizeof reqHeader) r.cmd.fixed =
      some p := fetch_calling (by omega)
  have hstated : r.cmd.stated p = r.count * r.cmd.unit :=
    congrArg (· * r.cmd.unit) (hr.stated left hbuf)
  have hsize : add64 r.cmd.fixed (r.cmd.stated p) = (r.payload left).length := by
    rw [hstated, hlen, add64_of_lt (by omega)]
  have hsecond : (d.calling (r.call t stack left).buf).fetch 2 (sizeof reqHeader)
      (r.payload left).length = some p := fetch_calling (by omega)
  have hheader : (d.calling (r.call t stack left).buf).fetch 0 0 (sizeof reqHeader) =
      some fun a => (r.call t stack left).buf (0 + a) := fetch_calling (by omega)
  refine ⟨reqImage (fun a => (r.call t stack left).buf (0 + a)) p (r.payload left).length,
    ⟨⟨_, hheader, ?_, ?_⟩, ?_, htaken⟩, fun a ha => ?_⟩
  · exact (r.call t stack left).header d _ hheader
  · exact built_of_fetch ⟨halloc _, halloc _⟩ (by omega) (by omega) hsecond
  · rw [← hsize]
    exact reqSizes_var (halloc _) hfirst
  · exact (payloadOf_reqImage _ p ha).trans (hbuf a ha)

theorem Sent.image_of_call {x : Call} {n m : Nat} {img : Nat → UInt8}
    (h : Sent (d.calling x.buf) x.cmd n m img) (hlen : n = x.req.length) {a : Nat} (ha : a < n) :
    img (sizeof reqHeader + a) = x.req.getD a 0 := by
  obtain ⟨hdr, -, -, hb⟩ := h.image
  obtain ⟨p, hp, rfl⟩ := built_ok hb
  have hq := fetch_calling_eq (hp (Nat.zero_lt_of_lt ha))
  exact (payloadOf_reqImage hdr p ha).trans
    ((congrFun hq a).trans (dispatchBuf_payload x.left _ _ _ (hlen ▸ ha)))

theorem Sent.payload_cmdStart {left : Nat → UInt8} {r : VarReq} {img : Nat → UInt8}
    (hsent : Sent (d.calling (r.call t stack left).buf) r.cmd.cmd (r.payload left).length
      (r.cmd.cmd.sizes none).respSize img)
    (himg : ∀ a < (r.payload left).length, img (sizeof reqHeader + a) = (r.payload left).getD a 0)
    (s : DrvSt) {a : Nat} (ha : a < (r.payload left).length) :
    (cmdStart d.sys (r.element d left) (s.showing d img)).payload a = (r.payload left).getD a 0 := by
  have hlen : (r.element d left).reqLen = sizeof reqHeader + (r.payload left).length := hsent.reqLen
  have hlt : payloadOff + a < (r.element d left).reqLen := by
    rw [hlen]
    exact Nat.add_lt_add_left ha _
  rw [cmdStart_payload hlt]
  exact (congrFun (plainElem_image s) _).trans (himg a ha)

end
end VarReq

/-- Every request of the family reaches its handler as it was built: the handler decodes
the members and the tail that were encoded, and reads nothing behind them. -/
theorem varReq_decoded (r : VarReq) (t : Transport) (stack left : Nat → UInt8) (d : DrvEnv)
    (s : DrvSt) (hr : r.Fits) (hready : (r.call t stack left).ready)
    (halloc : ∀ b, d.kmalloc b = true)
    (harg : d.arg + dispatchLen (r.payload left).length r.respLen ≤ taskSize)
    (htaken : d.addSgs 0 = none) :
    ∃ img sv,
      ((r.call t stack left).dispatch.run d s).2.submitted =
        s.submitted ++ [(r.element d left, img)] ∧
      ((r.call t stack left).dispatch.run d s).2.served = s.served ++ [(r.element d left, sv)] ∧
      (r.element d left).reqLen = sizeof reqHeader + (r.payload left).length ∧
      r.DecodedBy (cmdEnv d.sys d.key (r.element d left))
        (cmdStart d.sys (r.element d left) (s.showing d img)) ∧
      sv.touched = ((dispatchCmd r.cmd.cmd.code).run (cmdEnv d.sys d.key (r.element d left))
        (cmdStart d.sys (r.element d left) (s.showing d img))).2.touched ∧
      ∀ a ∈ sv.touched, Within (r.element d left).reqLen a ∨ CudaRead d.sys r.cmd (r.count / 8) a := by
  obtain ⟨img, hsent, himg⟩ := hr.sent left t stack halloc harg htaken
  obtain ⟨evs, hst, -⟩ := hmcudaIoctl_answered hsent r.cmd.not_isMemcpy s
  have hlen : (r.element d left).reqLen = sizeof reqHeader + (r.payload left).length := hsent.reqLen
  have hp (a : Nat) (ha : a < (r.payload left).length) :
      (cmdStart d.sys (r.element d left) (s.showing d img)).payload a =
        (r.payload left).getD a 0 := VarReq.Sent.payload_cmdStart hsent himg s ha
  have hrun := Call.dispatch_run hready d s
  refine ⟨img, plainServed d r.cmd.cmd (r.payload left).length (r.cmd.cmd.sizes none).respSize
    (s.showing d img), ?_, ?_, hlen, hr.decodedBy left hlen hp, rfl, ?_⟩
  · rw [hrun, hst]
    rfl
  · rw [hrun, hst]
    rfl
  · exact hr.within left (e := cmdEnv d.sys d.key (r.element d left)) rfl hlen hp

def twoWords : VarReq := .launchKernel 0x1000 (1, 1, 1) (32, 1, 1) 0 0 2 (some fun i j =>
  UInt8.ofNat (8 * i + j))

theorem varReq_decoded_twoWords :
    ∃ img sv,
      ((twoWords.call ⟨false, true⟩ (fun _ => 0) fun _ => 0).dispatch.run
        (.quiet .quiet fun _ _ => 0) (.start fun _ _ => 0)).2.submitted =
          [] ++ [(twoWords.element (.quiet .quiet fun _ _ => 0) fun _ => 0, img)] ∧
      ((twoWords.call ⟨false, true⟩ (fun _ => 0) fun _ => 0).dispatch.run
        (.quiet .quiet fun _ _ => 0) (.start fun _ _ => 0)).2.served =
          [] ++ [(twoWords.element (.quiet .quiet fun _ _ => 0) fun _ => 0, sv)] ∧
      twoWords.DecodedBy (cmdEnv .quiet ⟨1, 1⟩ (twoWords.element (.quiet .quiet fun _ _ => 0)
        fun _ => 0)) (cmdStart .quiet (twoWords.element (.quiet .quiet fun _ _ => 0) fun _ => 0)
          ((DrvSt.start fun _ _ => 0).showing (.quiet .quiet fun _ _ => 0) img)) := by
  have hr : twoWords.Fits := by
    refine ⟨fun i v hv => ?_, by decide, trivial⟩
    have hi : i < 10 := (List.getElem?_eq_some_iff.mp hv).1
    have hall : ∀ i < 10, twoWords.members.getD i 0 < 256 ^ (field launchKernelReq i).size := by
      decide
    have h := hall i hi
    rw [List.getD_eq_getElem?_getD, hv] at h
    exact h
  have hready : (twoWords.call ⟨false, true⟩ (fun _ => 0) fun _ => 0).ready := ⟨rfl, rfl⟩
  have harg : (DrvEnv.quiet .quiet fun _ _ => 0).arg +
      dispatchLen (twoWords.payload fun _ => 0).length twoWords.respLen ≤ taskSize := by
    decide +kernel
  obtain ⟨img, sv, h1, h2, -, h3, -⟩ := varReq_decoded twoWords ⟨false, true⟩ (fun _ => 0)
    (fun _ => 0) (.quiet .quiet fun _ _ => 0) (.start fun _ _ => 0) hr hready (fun _ => rfl) harg rfl
  exact ⟨img, sv, h1, h2, h3⟩

end HmCuda
