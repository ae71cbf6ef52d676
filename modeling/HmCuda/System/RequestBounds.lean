import HmCuda.Driver.Sizes
import HmCuda.Host.Accesses
import HmCuda.Host.ProcessSpec

/-! Whether the backend stays inside the request it copied, and refuses one that is too short. No
handler compares the length of the copy with what it reads. -/

namespace HmCuda
open Layout

theorem RtCmd.code_of_ofCode {n : Nat} {c : RtCmd} (h : RtCmd.ofCode n = some c) : n = c.code := by
  have hn : RtCmd.all.Nodup := by decide
  unfold ofCode at h
  split at h
  · simp at h
  · obtain ⟨hlt, rfl⟩ := List.getElem?_eq_some_iff.mp h
    rw [code, hn.idxOf_getElem _ hlt]
    omega

theorem DrvCmd.code_of_ofCode {n : Nat} {c : DrvCmd} (h : DrvCmd.ofCode n = some c) :
    n = c.code := by
  have hn : DrvCmd.all.Nodup := by decide
  unfold ofCode at h
  split at h
  · simp at h
  · obtain ⟨hlt, rfl⟩ := List.getElem?_eq_some_iff.mp h
    rw [code, hn.idxOf_getElem _ hlt]
    omega

theorem Cmd.code_of_ofCode {n : Nat} {c : Cmd} (h : Cmd.ofCode n = some c) : n = c.code := by
  rw [ofCode, Option.or_eq_some_iff] at h
  rcases h with h | ⟨-, h⟩ <;> obtain ⟨d, hd, rfl⟩ := Option.map_eq_some_iff.mp h
  · exact RtCmd.code_of_ofCode hd
  · exact DrvCmd.code_of_ofCode hd

/-- The command word of an element, when its descriptors hold a header. -/
def Elem.header (e : Elem) (m : Machine) : Option Nat :=
  let hdr := iovToBuf m.dev.eng.mem e.outSg (sizeof reqHeader)
  if hdr.length = sizeof reqHeader then some (reqHeader.cmdType.get fun a => hdr.getD a 0) else none

def Elem.command (e : Elem) (m : Machine) : Option Cmd := (e.header m).bind Cmd.ofCode

section
variable {k : Key} {e : Elem} {env : Env} {m : Machine}

end

/-- The length behind the request structure that the request states itself. -/
def Cmd.statedTail (c : Cmd) (p : Nat → UInt8) : Nat :=
  match c with
  | .rt .launchKernel => launchKernelReq.argsSize.get p
  | .rt .registerFatbin => registerFatbinReq.size.get p
  | .rt .registerFunction => registerFunctionReq.deviceNameLen.get p
  | .drv .cuMemSetAccess => cuMemSetAccessReq.count.get p * sizeof cuMemAccessDesc
  | _ => 0

/-- The length of a whole request, with its header. -/
def Cmd.whole (c : Cmd) (p : Nat → UInt8) : Nat :=
  sizeof reqHeader + (c.sizes none).reqSize + c.statedTail p

instance (len : Nat) (r : Nat × Nat) : Decidable (Within len r) :=
  inferInstanceAs (Decidable (_ ∨ _))

end HmCuda
