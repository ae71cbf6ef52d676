import HmCuda.Driver.Spec

/-! The length of a submitted request against the length its own structure states,
when the caller's memory may change between the driver's two copies. -/

namespace HmCuda
open Layout

/-- The commands whose structure states the length of what follows it. -/
inductive VarCmd where
  | launchKernel | registerFatbin | registerFunction | cuMemSetAccess
  deriving DecidableEq, Repr

namespace VarCmd

def cmd : VarCmd → Cmd
  | launchKernel => .rt .launchKernel
  | registerFatbin => .rt .registerFatbin
  | registerFunction => .rt .registerFunction
  | cuMemSetAccess => .drv .cuMemSetAccess

def struct : VarCmd → CStruct
  | launchKernel => launchKernelReq
  | registerFatbin => registerFatbinReq
  | registerFunction => registerFunctionReq
  | cuMemSetAccess => cuMemSetAccessReq

def index : VarCmd → Nat
  | launchKernel => 9
  | registerFatbin => 0
  | registerFunction => 2
  | cuMemSetAccess => 2

def unit : VarCmd → Nat
  | launchKernel | registerFatbin | registerFunction => 1
  | cuMemSetAccess => sizeof cuMemAccessDesc

def fixed (v : VarCmd) : Nat := sizeof v.struct

/-- The length the structure states for what follows it. -/
def stated (v : VarCmd) (p : Nat → UInt8) : Nat := (field v.struct v.index).get p * v.unit

theorem sizes_none (v : VarCmd) : (v.cmd.sizes none).reqSize = v.fixed := by
  cases v <;> rfl

theorem sizes_some (v : VarCmd) (p : Nat → UInt8) :
    (v.cmd.sizes (some p)).reqSize = add64 v.fixed (v.stated p) := by
  have h1 (n : Nat) : n * 1 = n := Nat.mul_one n
  cases v <;> simp only [stated, unit, h1] <;> rfl

theorem not_isMemcpy (v : VarCmd) : ¬isMemcpy v.cmd.code := by
  cases v <;> decide

theorem fixed_pos (v : VarCmd) : 0 < v.fixed := by
  cases v <;> decide

theorem stated_lt (v : VarCmd) (p : Nat → UInt8) : v.stated p < 2 ^ 64 := by
  have h := (field v.struct v.index).get_lt p
  have hu : 256 ^ (field v.struct v.index).size * v.unit ≤ 2 ^ 64 := by cases v <;> decide
  have hpos : 0 < v.unit := by cases v <;> decide
  exact ((Nat.mul_lt_mul_right hpos).mpr h).trans_le hu

theorem stated_congr (v : VarCmd) {p q : Nat → UInt8} (h : ∀ a < v.fixed, p a = q a) :
    v.stated p = v.stated q := by
  unfold stated
  rw [Field.get_congr fun a _ ha => h a (ha.trans_le (stop_le_sizeof v.struct v.index))]

end VarCmd

theorem DrvEnv.fetch_le {e : DrvEnv} {i off n : Nat} {p : Nat → UInt8}
    (h : e.fetch i off n = some p) : off + n ≤ taskSize := by
  unfold fetch at h
  split at h
  · omega
  · simp at h

/-- What an ioctl owes: one request of exactly the stated length, or a failure. -/
def LengthLaw (v : VarCmd) (e : DrvEnv) (s : DrvSt) : Prop :=
  (∃ x, (hmcudaIoctl.run e s).2.submitted = s.submitted ++ [x] ∧
    x.1.reqLen = sizeof reqHeader + v.fixed + v.stated (payloadOf x.2)) ∨
  ((hmcudaIoctl.run e s).2.submitted = s.submitted ∧
    ∃ err < 0, (hmcudaIoctl.run e s).1.halt = .ret err)

/-- The two copies give a request of `n` bytes behind the header that is queued. -/
structure Queued (v : VarCmd) (e : DrvEnv) (p₁ p₂ : Nat → UInt8) : Prop where
  alloc : ∀ b ∈ [Buf.fixedReq, .req, .resp], e.kmalloc b = true
  first : e.fetch 1 (sizeof reqHeader) v.fixed = some p₁
  second : 0 < add64 v.fixed (v.stated p₁) →
    e.fetch 2 (sizeof reqHeader) (add64 v.fixed (v.stated p₁)) = some p₂
  free : e.addSgs 0 = none

structure Sized (v : VarCmd) (e : DrvEnv) (p₁ : Nat → UInt8) : Prop where
  alloc : ∀ b ∈ [Buf.fixedReq, .req, .resp], e.kmalloc b = true
  first : e.fetch 1 (sizeof reqHeader) v.fixed = some p₁

/-- No length wraps around with the header alone, and no queued request has a length that
wraps or that changed between the copies. -/
structure Steady (v : VarCmd) (e : DrvEnv) : Prop where
  header : ∀ p₁, Sized v e p₁ → v.fixed + v.stated p₁ < 2 ^ 64 →
    sizeof reqHeader + (v.fixed + v.stated p₁) < 2 ^ 64
  copies : ∀ p₁ p₂, Queued v e p₁ p₂ →
    v.fixed + v.stated p₁ < 2 ^ 64 ∧ v.stated p₂ = v.stated p₁

section
variable {v : VarCmd} {e : DrvEnv} {hdr p₁ p₂ : Nat → UInt8}

theorem reqSizes_var (ha : e.kmalloc .fixedReq = true)
    (h : e.fetch 1 (sizeof reqHeader) v.fixed = some p₁) :
    reqSizes e v.cmd = .ok (add64 v.fixed (v.stated p₁), (v.cmd.sizes none).respSize) := by
  simp only [reqSizes, v.sizes_none, v.sizes_some, v.fixed_pos, ha, h, if_true]

theorem add64_stated_lt (h : ¬v.fixed + v.stated p₁ < 2 ^ 64) :
    add64 v.fixed (v.stated p₁) < v.fixed := by
  have h1 := v.stated_lt p₁
  have h2 : v.fixed < 2 ^ 64 := by cases v <;> decide
  unfold add64
  omega

theorem header_fits : sizeof reqHeader ≤ add64 (sizeof reqHeader) (add64 v.fixed (v.stated p₁)) ↔
    (v.fixed + v.stated p₁ < 2 ^ 64 → sizeof reqHeader + (v.fixed + v.stated p₁) < 2 ^ 64) := by
  have hhdr : sizeof reqHeader = 8 := by decide
  have hfix : v.fixed < 2 ^ 63 := by cases v <;> decide
  have hst := v.stated_lt p₁
  unfold add64
  omega

theorem queued_length (h : Queued v e p₁ p₂) :
    let n := add64 v.fixed (v.stated p₁)
    add64 (sizeof reqHeader) n =
        sizeof reqHeader + v.fixed + v.stated (payloadOf (reqImage hdr p₂ n)) ↔
      v.fixed + v.stated p₁ < 2 ^ 64 ∧ v.stated p₂ = v.stated p₁ := by
  intro n
  have hpos := v.fixed_pos
  have hhdr : sizeof reqHeader = 8 := by decide
  by_cases hw : v.fixed + v.stated p₁ < 2 ^ 64
  · have hn : n = v.fixed + v.stated p₁ := add64_of_lt hw
    have hle := DrvEnv.fetch_le (h.second (by omega))
    have htask : taskSize < 2 ^ 64 := by decide
    have hst : v.stated (payloadOf (reqImage hdr p₂ n)) = v.stated p₂ :=
      v.stated_congr fun a ha => payloadOf_reqImage hdr p₂ (by omega)
    rw [hst, add64_of_lt (by omega), hn]
    omega
  · have hn : n < v.fixed := add64_stated_lt hw
    have h2 : v.fixed < 2 ^ 63 := by cases v <;> decide
    rw [add64_of_lt (by omega)]
    omega

theorem lengthLaw_of_unsent {s : DrvSt} {err : Int} (herr : err < 0)
    (hh : ∀ p₁, Sized v e p₁ → v.fixed + v.stated p₁ < 2 ^ 64 →
      sizeof reqHeader + (v.fixed + v.stated p₁) < 2 ^ 64)
    (hq : ∀ p₁ p₂, ¬Queued v e p₁ p₂) (hu : (hmcudaIoctl.run e s).1.halt = .ret err ∧
      (hmcudaIoctl.run e s).2.submitted = s.submitted) : LengthLaw v e s ↔ Steady v e :=
  ⟨fun _ => ⟨hh, fun p₁ p₂ h => absurd h (hq p₁ p₂)⟩, fun _ => .inr ⟨hu.2, err, herr, hu.1⟩⟩

theorem lengthLaw_append {s : DrvSt} {x : Elem × (Nat → UInt8)}
    (hs : (hmcudaIoctl.run e s).2.submitted = s.submitted ++ [x]) : LengthLaw v e s ↔
      x.1.reqLen = sizeof reqHeader + v.fixed + v.stated (payloadOf x.2) := by
  constructor
  · rintro (⟨y, hy, hl⟩ | ⟨hy, -⟩)
    · rw [hs, List.append_cancel_left_eq, List.singleton_inj] at hy
      rwa [hy]
    · simp [hs] at hy
  · exact fun hl => .inl ⟨x, hs, hl⟩

theorem lengthLaw_of_sent {s : DrvSt} {m : Nat} (h : Queued v e p₁ p₂)
    (hh : ∀ p₁, Sized v e p₁ → v.fixed + v.stated p₁ < 2 ^ 64 →
      sizeof reqHeader + (v.fixed + v.stated p₁) < 2 ^ 64)
    (hs : (hmcudaIoctl.run e s).2.submitted = s.submitted ++
      [(simpleElem e.caller (add64 (sizeof reqHeader) (add64 v.fixed (v.stated p₁)))
        (add64 (sizeof respHeader) m), reqImage hdr p₂ (add64 v.fixed (v.stated p₁)))]) :
    LengthLaw v e s ↔ Steady v e := by
  rw [lengthLaw_append hs]
  refine (queued_length h).trans ⟨?_, fun hst => hst.copies p₁ p₂ h⟩
  rintro ⟨hw, hst⟩
  refine ⟨hh, fun q₁ q₂ hq => ?_⟩
  obtain rfl : p₁ = q₁ := Option.some.inj (h.first.symm.trans hq.first)
  have hpos : 0 < add64 v.fixed (v.stated p₁) := by
    rw [add64_of_lt hw]
    exact Nat.add_pos_left v.fixed_pos _
  obtain rfl : p₂ = q₂ := Option.some.inj ((h.second hpos).symm.trans (hq.second hpos))
  exact ⟨hw, hst⟩

/-- A request that the header wraps around does not come back. -/
theorem not_lengthLaw_of_fault {s : DrvSt} (hu : (hmcudaIoctl.run e s).1.halt = .fault ∧
    (hmcudaIoctl.run e s).2.submitted = s.submitted) : ¬LengthLaw v e s := by
  rintro (⟨x, hx, -⟩ | ⟨-, err, -, herr⟩)
  · simp [hu.2] at hx
  · rw [hu.1] at herr
    cases herr

end

/-- An ioctl of a variable-length command submits a request of the length its
structure states, or fails, exactly when the two copies are steady. -/
theorem lengthLaw_iff_steady (v : VarCmd) (e : DrvEnv) (s : DrvSt) (hdr : Nat → UInt8)
    (hh : e.fetch 0 0 (sizeof reqHeader) = some hdr)
    (hc : reqHeader.cmdType.get hdr = v.cmd.code) : LengthLaw v e s ↔ Steady v e := by
  by_cases h1 : e.kmalloc .fixedReq = true
  swap
  · have hr : reqSizes e v.cmd = .error enomem := by
      simp [reqSizes, v.sizes_none, v.fixed_pos, h1]
    exact lengthLaw_of_unsent (by decide) (fun _ h => absurd (h.alloc _ (by simp)) h1)
      (fun _ _ h => h1 (h.alloc _ (by simp)))
      ((hmcudaIoctl_unsent hh hc (.inl ⟨_, rfl, hr⟩) s).imp_right (·.submitted))
  rcases h2 : e.fetch 1 (sizeof reqHeader) v.fixed with _ | p₁
  · have hr : reqSizes e v.cmd = .error efault := by
      simp [reqSizes, v.sizes_none, v.fixed_pos, h1, h2]
    exact lengthLaw_of_unsent (by decide) (fun _ h => by simpa [h2] using h.first)
      (fun _ _ h => by simpa [h2] using h.first)
      ((hmcudaIoctl_unsent hh hc (.inl ⟨_, rfl, hr⟩) s).imp_right (·.submitted))
  have hr := reqSizes_var h1 h2
  by_cases h3 : e.kmalloc .req = true ∧ e.kmalloc .resp = true
  swap
  · have hb : built e hdr (add64 v.fixed (v.stated p₁)) = .error (.ret enomem) := if_neg h3
    exact lengthLaw_of_unsent (by decide)
      (fun _ h => absurd ⟨h.alloc _ (by simp), h.alloc _ (by simp)⟩ h3)
      (fun _ _ h => h3 ⟨h.alloc _ (by simp), h.alloc _ (by simp)⟩)
      ((hmcudaIoctl_unsent hh hc (.inr ⟨_, _, hr, hb⟩) s).imp_right (·.submitted))
  have hall : ∀ b ∈ [Buf.fixedReq, .req, .resp], e.kmalloc b = true := fun b hb => by
    simp only [List.mem_cons, List.not_mem_nil, or_false] at hb
    rcases hb with rfl | rfl | rfl
    exacts [h1, h3.1, h3.2]
  -- what the header does to the length is decided by the first copy
  by_cases hfit : sizeof reqHeader ≤ add64 (sizeof reqHeader) (add64 v.fixed (v.stated p₁))
  swap
  · have hb : built e hdr (add64 v.fixed (v.stated p₁)) = .error .fault := by
      rw [built, if_pos h3, if_pos (Nat.not_le.mp hfit)]
    refine iff_of_false (not_lengthLaw_of_fault
      ((hmcudaIoctl_unsent hh hc (.inr ⟨_, _, hr, hb⟩) s).imp_right (·.submitted))) fun hst => ?_
    exact hfit (header_fits.mpr (hst.header p₁ ⟨hall, h2⟩))
  have hheader (q : Nat → UInt8) (h : Sized v e q) : v.fixed + v.stated q < 2 ^ 64 →
      sizeof reqHeader + (v.fixed + v.stated q) < 2 ^ 64 := by
    obtain rfl : p₁ = q := Option.some.inj (h2.symm.trans h.first)
    exact header_fits.mp hfit
  rcases h4 : built e hdr (add64 v.fixed (v.stated p₁)) with halt | img
  · obtain ⟨rfl, -, hq⟩ := (built_error h3 h4).resolve_left fun h => h.2 hfit
    refine lengthLaw_of_unsent (by decide) hheader (fun q₁ q₂ h => ?_)
      ((hmcudaIoctl_unsent hh hc (.inr ⟨_, _, hr, h4⟩) s).imp_right (·.submitted))
    obtain rfl : p₁ = q₁ := Option.some.inj (h2.symm.trans h.first)
    simpa [hq.2] using h.second hq.1
  have hsent := hmcudaIoctl_sent hh hc v.not_isMemcpy hr h4 s
  rcases h5 : e.addSgs 0 with _ | err
  · obtain ⟨p₂, hp₂, rfl⟩ := built_ok h4
    rw [h5] at hsent
    exact lengthLaw_of_sent ⟨hall, h2, hp₂, h5⟩ hheader hsent
  · rw [h5] at hsent
    exact lengthLaw_of_unsent (Int.negSucc_lt_zero err) hheader
      (fun _ _ h => by simpa [h5] using h.free) (hsent.imp_right (·.submitted))

/-- An argument of command `cmd` with one payload byte set. -/
def argWith (cmd off : Nat) (b : UInt8) : Nat → UInt8 := fun a =>
  if a < 4 then (Bytes.le 4 cmd).getD a 0 else if a = sizeof reqHeader + off then b else 0

def steadyLaunch : DrvEnv := .quiet .quiet fun _ => argWith RtCmd.launchKernel.code 48 8

theorem lengthLaw_steadyLaunch :
    LengthLaw .launchKernel steadyLaunch (.start fun _ _ => 0) := by
  refine (lengthLaw_iff_steady .launchKernel steadyLaunch _
    (fun a => argWith RtCmd.launchKernel.code 48 8 (0 + a)) rfl (by decide)).mpr
    ⟨fun p₁ h _ => ?_, fun p₁ p₂ h => ?_⟩
  · obtain rfl : (fun a => argWith RtCmd.launchKernel.code 48 8 (8 + a)) = p₁ :=
      Option.some.inj h.first
    decide
  · obtain rfl : (fun a => argWith RtCmd.launchKernel.code 48 8 (8 + a)) = p₁ :=
      Option.some.inj h.first
    obtain rfl : (fun a => argWith RtCmd.launchKernel.code 48 8 (8 + a)) = p₂ :=
      Option.some.inj (h.second (by decide))
    exact ⟨by decide, rfl⟩

/-- A launch that states no arguments when it is sized and 8 bytes when it is copied. -/
def racingLaunch : DrvEnv :=
  .quiet .quiet fun i => argWith RtCmd.launchKernel.code 48 (if i = 2 then 8 else 0)

/-- A fat binary that states a length of `2 ^ 64 - 256 + b`. -/
def wrappingFatbin (b : UInt8) : DrvEnv := .quiet .quiet fun _ a =>
  if a = 8 then b else if 8 < a then 0xff else argWith RtCmd.registerFatbin.code 0 0 a

/-- A length that changes between the copies, one that wraps by itself, and one that wraps with
the header. -/
theorem not_lengthLaw :
    ¬LengthLaw .launchKernel racingLaunch (.start fun _ _ => 0) ∧
      ¬LengthLaw .registerFatbin (wrappingFatbin 0xf8) (.start fun _ _ => 0) ∧
      ¬LengthLaw .registerFatbin (wrappingFatbin 0xf0) (.start fun _ _ => 0) := by
  have h1 := hmcudaIoctl_sent (e := racingLaunch) (c := .rt .launchKernel) (n := 56) (m := 0)
    rfl (by decide) (by decide) rfl rfl (.start fun _ _ => 0)
  have h2 := hmcudaIoctl_sent (e := wrappingFatbin 0xf8) (c := .rt .registerFatbin) (n := 0)
    (m := 8) rfl (by decide) (by decide) rfl rfl (.start fun _ _ => 0)
  have h3 := hmcudaIoctl_unsent (e := wrappingFatbin 0xf0) (c := .rt .registerFatbin)
    rfl (by decide) (.inr ⟨2 ^ 64 - 8, 8, rfl, rfl⟩) (.start fun _ _ => 0)
  exact ⟨(lengthLaw_append h1).not.mpr (by decide), (lengthLaw_append h2).not.mpr (by decide),
    not_lengthLaw_of_fault (h3.imp_right (·.submitted))⟩

end HmCuda
