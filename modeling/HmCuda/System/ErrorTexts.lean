import HmCuda.Guest.DriverLib
import HmCuda.System.DeviceQueries

/-! The text of an error, from CUDA on the host to the application, and what the application
gets of it by the driver library. -/

namespace HmCuda
open Layout DriverLib

def errorTexts : List (RtCmd × LibFn) :=
  [(.getErrorString, .cudaGetErrorString), (.getErrorName, .cudaGetErrorName)]

def textCall (cmd : RtCmd) (error : Nat) (e : GuestEnv) (s : GuestSt) : Call :=
  ⟨s.transport, e.stack s.sent.length, .rt cmd, request getErrorStringReq [error],
    sizeof getErrorStringResp + 256⟩

def Call.Answered (x : Call) (d : DrvEnv) : Prop :=
  x.ready ∧ (d.calling x.buf).copyOut = true ∧ ∃ n m img, Sent (d.calling x.buf) x.cmd n m img

/-- A command of one word that answers with a text: its request and its handler. -/
structure TextOf (c : Cmd) (t : CStruct) (respLen : Nat) (answer : Nat → CmdM Unit) : Prop where
  text : c ∈ textCmds
  plain : ¬isMemcpy c.code
  sizes : c.sizes none = ⟨sizeof t, respLen⟩
  handler : c.handler = req (field t 0) >>= answer

namespace TextOf
variable {x : Call} {d : DrvEnv} {t : CStruct} {respLen : Nat} {answer : Nat → CmdM Unit}

theorem unanswered_ret (h : TextOf x.cmd t respLen answer) (hno : ¬x.Answered d) (s : DrvSt) :
    ∃ err, err ≠ 0 ∧ (x.dispatch.run d s).1.ret = some err := by
  by_cases hready : x.ready
  · refine ⟨1, one_ne_zero, ?_⟩
    by_cases hs : ∃ n m img, Sent (d.calling x.buf) x.cmd n m img
    · obtain ⟨n, m, img, hsent⟩ := hs
      have hcopy : (d.calling x.buf).copyOut = false := by
        by_contra hc
        exact hno ⟨hready, by simpa using hc, n, m, img, hsent⟩
      rw [Call.dispatch_run hready, ret_lost hsent h.plain hcopy]
    · obtain ⟨err, hneg, hret⟩ := hmcudaIoctl_refused_fixed (reqSize_of_text h.text) h.plain
        (x.header d) (fun n m img hm => hs ⟨n, m, img, hm⟩) s
      rw [Call.dispatch_run hready, dispatchResult, hret]
      exact congrArg Dispatched.ret (if_pos hneg)
  · obtain ⟨err, hne, hrun⟩ := Call.unready_result hready d s
    exact ⟨err, hne, congrArg (fun r => r.1.ret) hrun⟩

theorem reply (h : TextOf x.cmd t respLen answer) {v : Nat} (hreq : x.req = request t [v])
    (ht : 0 < t.length) (hv : v < 256 ^ (field t 0).size) {n m : Nat} {img : Nat → UInt8}
    (hsent : Sent (d.calling x.buf) x.cmd n m img) (s : DrvSt) :
    let e := d.calling x.buf
    let env := cmdEnv e.sys e.key (plainElem e n m)
    let st := cmdStart e.sys (plainElem e n m) (s.showing e img)
    (plainReply e x.cmd n m (s.showing e img)).2 =
      ((answer v).run env ((req (field t 0)).run env st).2).2 := by
  intro e env st
  have hn : n = sizeof t := by rw [hsent.textReqLen h.text, h.sizes]
  have hlen : n = x.req.length := by rw [hn, hreq, request, length_encode]
  have hword : (field t 0).get st.payload = v := by
    refine get_request [v] (fun a ha => ?_) ht rfl hv
    have hin : payloadOff + a < (plainElem e n m).reqLen := by
      rw [hsent.reqLen, hn]
      exact Nat.add_lt_add_left ha _
    rw [cmdStart_payload hin, plainElem_image, ← hreq]
    exact VarReq.Sent.image_of_call hsent hlen (hn ▸ ha)
  rw [plainReply, dispatchCmd_handler, h.handler, Prog.bind_run]
  show ((answer ((field t 0).get st.payload)).run env _).2 = _
  rw [hword]

end TextOf

theorem errorText_run (cmd : RtCmd) (unknown : String) (error : Nat) (e : GuestEnv)
    (t : ThreadSt) : ((Thread.errorText cmd unknown error).run e t).1 =
      (((textCall cmd error e t.proc).dispatch.run (e.drv t.proc.sent.length) t.proc.drv).1.ret.map
        fun err =>
          let r := ((textCall cmd error e t.proc).dispatch.run
            (e.drv t.proc.sent.length) t.proc.drv).1
          if err = 0 ∧ 0 < respWord getErrorStringResp r then
            .text (((r.resp.getD []).drop (sizeof getErrorStringResp)).take
              (min (respWord getErrorStringResp r) 255))
          else .text unknown.toUTF8.toList) := rfl

theorem errorText_textOf {cmd : RtCmd} {fn : LibFn} (h : (cmd, fn) ∈ errorTexts) :
    TextOf (.rt cmd) getErrorStringReq (sizeof getErrorStringResp + 256) fun error =>
      handleGetErrorText (lib fn [error] []) := by
  rcases h with _ | ⟨_, _ | ⟨_, h⟩⟩
  · exact ⟨by decide, by decide, rfl, rfl⟩
  · exact ⟨by decide, by decide, rfl, rfl⟩
  · cases h

theorem handleGetErrorText_reply {m : QueryM LibRet} {e : CmdEnv} {s : CmdSt} {str : List UInt8}
    (hstr : (m.run ⟨e.env, s.be.tab⟩ s.be.dev).1.str = some str)
    (hfits : str.length + 5 ≤ respPayloadCap) :
    ((handleGetErrorText m).run e s).2.err = 0 ∧ ∃ stale,
      ((handleGetErrorText m).run e s).2.resp =
        respImage getErrorStringResp stale [some (str.length + 1)] ++ (str ++ [0]) := by
  have hroom : str.length + 1 + sizeof getErrorStringResp ≤ respPayloadCap := hfits
  unfold handleGetErrorText
  simp only [Prog.bind_run, core_fst, query_fst, hstr, Prog.ask_run, Prog.get_run, reply_resp,
    reply_err, setErr_err]
  rw [if_pos hroom]
  exact ⟨rfl, _, rfl⟩

theorem take_behind {α : Type} {bs head rest : List α} {a b : Nat} (hb : b ≤ a)
    (h : bs.take (head.length + rest.length) = (head ++ rest).take (head.length + a)) :
    (bs.drop head.length).take (min rest.length b) = rest.take b := by
  have hrest : rest.take b = rest.take (min rest.length b) := by
    rw [Nat.min_comm, ← List.take_take, List.take_length]
  have hcut : min rest.length b ≤ rest.length ∧ min rest.length b ≤ a :=
    ⟨min_le_left _ _, (min_le_right _ _).trans hb⟩
  rw [hrest]
  generalize min rest.length b = k at hcut
  have hk := congrArg (List.drop head.length) (congrArg (List.take (head.length + k)) h)
  rwa [List.take_take, List.take_take, Nat.min_eq_left (by omega), Nat.min_eq_left (by omega),
    List.drop_take, List.drop_take, List.drop_left, Nat.add_sub_cancel_left] at hk

theorem text_of_payload {bs : List UInt8} {stale : Nat → UInt8} {str : List UInt8}
    {r : Dispatched} (hr : r.resp = some bs) (hfits : str.length + 5 ≤ respPayloadCap)
    (hbs : bs.take (sizeof getErrorStringResp + (str.length + 1)) = (respImage getErrorStringResp
      stale [some (str.length + 1)] ++ (str ++ [0])).take (sizeof getErrorStringResp + 256)) :
    respWord getErrorStringResp r = str.length + 1 ∧
      (bs.drop (sizeof getErrorStringResp)).take (min (str.length + 1) 255) =
        (str ++ [0]).take 255 := by
  have hlen := length_respImage getErrorStringResp stale [some (str.length + 1)]
  have hget := get_respImage_assigned getErrorStringResp stale [some (str.length + 1)]
    (i := 0) (v := str.length + 1) rfl
  generalize respImage getErrorStringResp stale [some (str.length + 1)] = head at hbs hlen hget
  have hstr : (str ++ [0]).length = str.length + 1 := List.length_append
  rw [← hlen, ← hstr] at hbs ⊢
  refine ⟨?_, take_behind (by decide) hbs⟩
  have hlt : str.length + 1 < 256 ^ (field getErrorStringResp 0).size := by
    have hsize : (field getErrorStringResp 0).size = 4 := by decide
    rw [hsize]
    unfold respPayloadCap at hfits
    omega
  rw [Nat.mod_eq_of_lt hlt] at hget
  rw [hstr, ← hget]
  refine Field.get_congr fun a _ ha => ?_
  have hhead : a < head.length := hlen ▸ ha.trans_le (stop_le_sizeof _ _)
  have h := congrArg (fun l => l[a]?) hbs
  simp only [List.getElem?_take_of_lt (hhead.trans_le (Nat.le_add_right _ _)),
    List.getElem?_append_left hhead] at h
  rw [hr, Option.getD_some, List.getD_eq_getElem?_getD, List.getD_eq_getElem?_getD, h]

section
variable {cmd : RtCmd} {fn : LibFn} {error : Nat} {e : GuestEnv} {s : GuestSt} {n m : Nat}
  {img : Nat → UInt8} {str : List UInt8}

theorem plainServed_text (h : (cmd, fn) ∈ errorTexts) (herr : error < 2 ^ 32)
    (hstr : ((e.drv s.sent.length).sys.ret s.drv.m.dev.clock ⟨fn, [error], []⟩).str = some str)
    (hfits : str.length + 5 ≤ respPayloadCap)
    (hsent : Sent ((e.drv s.sent.length).calling (textCall cmd error e s).buf) (.rt cmd) n m img) :
    let d := (e.drv s.sent.length).calling (textCall cmd error e s).buf
    let sv := plainServed d (.rt cmd) n m (s.drv.showing d img)
    sv.err = 0 ∧ ∃ stale, sv.payload =
      respImage getErrorStringResp stale [some (str.length + 1)] ++ (str ++ [0]) := by
  intro d sv
  let env := cmdEnv d.sys d.key (plainElem d n m)
  let st := cmdStart d.sys (plainElem d n m) (s.drv.showing d img)
  have hreply : (plainReply d (.rt cmd) n m (s.drv.showing d img)).2 =
      ((handleGetErrorText (lib fn [error] [])).run env
        ((req (field getErrorStringReq 0)).run env st).2).2 :=
    TextOf.reply (x := textCall cmd error e s) (errorText_textOf h) rfl (by decide) herr hsent s.drv
  have hr := handleGetErrorText_reply (m := lib fn [error] []) (e := env)
    (s := ((req (field getErrorStringReq 0)).run env st).2) hstr hfits
  rw [← hreply] at hr
  exact hr

variable (unknown : String)

/-- The text of an error, as CUDA has it on the host. -/
theorem errorText_carried (h : (cmd, fn) ∈ errorTexts) {t : ThreadSt} (herr : error < 2 ^ 32)
    (hstr : ((e.drv t.proc.sent.length).sys.ret t.proc.drv.m.dev.clock ⟨fn, [error], []⟩).str =
      some str) (hfits : str.length + 5 ≤ respPayloadCap) :
    ((textCall cmd error e t.proc).Answered (e.drv t.proc.sent.length) →
      ((Thread.errorText cmd unknown error).run e t).1 = some (.text ((str ++ [0]).take 255))) ∧
    (¬(textCall cmd error e t.proc).Answered (e.drv t.proc.sent.length) →
      ((Thread.errorText cmd unknown error).run e t).1 =
        some (.text unknown.toUTF8.toList)) := by
  refine ⟨fun hx => ?_, fun hno => ?_⟩
  swap
  · obtain ⟨err, hne, hret⟩ := TextOf.unanswered_ret (x := textCall cmd error e t.proc)
      (errorText_textOf h) hno t.proc.drv
    rw [errorText_run, hret, Option.map_some, if_neg fun hc => hne hc.1]
  let x := textCall cmd error e t.proc
  let d := e.drv t.proc.sent.length
  obtain ⟨hready, hcopy, n, m, img, hsent⟩ := hx
  change Sent (d.calling x.buf) (.rt cmd) n m img at hsent
  obtain ⟨-, hplain, hsizes, -⟩ := errorText_textOf h
  obtain ⟨hcode, stale, hpay⟩ := plainServed_text h herr hstr hfits hsent
  have hret : (x.dispatch.run d t.proc.drv).1.ret = some 0 := by
    rw [Call.dispatch_run hready, ret_answered hsent hplain hcopy, hcode]
    rfl
  have hresp := hret
  rw [Call.dispatch_run hready] at hresp
  obtain ⟨bs, hbs⟩ := dispatchResult_some hresp (by decide : 0 < sizeof getErrorStringResp + 256)
  have hm : m = sizeof getErrorStringResp + 256 := hsent.respLen.trans (by rw [hsizes])
  have hb := (handedOn_of_room x.buf hsent hplain t.proc.drv x.respLen
    (hm ▸ min_le_right _ _)).bytes bs hbs
  rw [hpay, List.length_append, length_respImage, List.length_append] at hb
  have hr : (x.dispatch.run d t.proc.drv).1.resp = some bs := by
    rw [Call.dispatch_run hready]
    exact hbs
  obtain ⟨hword, hcut⟩ := text_of_payload hr hfits hb
  rw [errorText_run, hret, Option.map_some, if_pos ⟨rfl, hword ▸ Nat.succ_pos _⟩, hr, hword]
  exact congrArg (fun bs => some (Outcome.text bs)) hcut

end

def namingGuest : GuestEnv :=
  { quietGuest with
    drv := fun _ => .quiet { Env.quiet with ret := fun _ _ => ⟨0, [], some [97, 98]⟩ }
      fun _ _ => 0 }

theorem errorText_carried_ab : ((Thread.cudaGetErrorName 2).run namingGuest ⟨openGuest, 0⟩).1 =
    some (.text [97, 98, 0]) := by
  have h := @errorText_carried .getErrorName .cudaGetErrorName 2 namingGuest [97, 98] "UNKNOWN"
    (.tail _ (.head _)) ⟨openGuest, 0⟩ (by decide) rfl (by decide)
  refine h.1 (by_contra fun hno => ?_)
  exact absurd (h.2 hno) (by decide +kernel)

/-! The texts of the driver library -/

/-- The commands that ask for a text, as in `errorTexts`. -/
def cuErrorTexts : List (DrvCmd × LibFn) :=
  [(.cuGetErrorString, .cuGetErrorString), (.cuGetErrorName, .cuGetErrorName)]

def cuTextCall (cmd : DrvCmd) (error : Nat) (e : GuestEnv) (s : GuestSt) : Call :=
  ⟨s.link e, e.stack s.sent.length, .drv cmd, request cuGetErrorStringReq [error],
    sizeof cuGetErrorStringResp + 256⟩

/-- What the device has copied out is the answer as far as it was given room; the rest is
what the caller's buffer held. -/
theorem answered_getD {e : DrvEnv} {c : Cmd} {n m : Nat} {img : Nat → UInt8}
    (h : Sent e c n m img) (hm : ¬isMemcpy c.code) (s : DrvSt) {buf : Nat → UInt8} {respLen : Nat}
    {bs : List UInt8}
    (hbs : (dispatchResult buf respLen (hmcudaIoctl.run e s).1).resp = some bs) :
    bs.length = respLen ∧
      (∀ i < m, i < respLen → i < (plainServed e c n m (s.showing e img)).payload.length →
        bs.getD i 0 = (plainServed e c n m (s.showing e img)).payload.getD i 0) ∧
      ∀ i, m ≤ i → i < respLen → bs.getD i 0 = buf (sizeof respHeader + i) := by
  obtain ⟨evs, hst, hres⟩ := hmcudaIoctl_answered h hm s
  have hcopy : e.copyOut = true := by
    by_contra hc
    rw [if_neg hc] at hres
    rw [hres] at hbs
    cases hbs
  rw [if_pos hcopy] at hres
  have hbytes := dispatchResult_resp hbs
  have hget {i : Nat} (hi : i < respLen) :
      bs.getD i 0 = answered buf (hmcudaIoctl.run e s).1.out (sizeof respHeader + i) := by
    rw [hbytes, List.getD_eq_getElem?_getD, List.getElem?_map, List.getElem?_range hi]
    rfl
  refine ⟨by rw [hbytes, List.length_map, List.length_range], fun i him hi hp => ?_,
    fun i him hi => ?_⟩
  · have hlt : sizeof respHeader + i < add64 (sizeof respHeader) m := by
      rw [h.totalResp]
      exact Nat.add_lt_add_left him _
    rw [hget hi, hres, answered, ByteMem.length_read, if_pos hlt, ByteMem.getD_read _ _ hlt,
      Nat.zero_add, hst]
    exact answered_resp h s evs him hp
  · have hge : ¬sizeof respHeader + i < add64 (sizeof respHeader) m := by
      rw [h.totalResp]
      exact Nat.not_lt.mpr (Nat.add_le_add_left him _)
    rw [hget hi, hres, answered, ByteMem.length_read, if_neg hge]

theorem cuErrorText_textOf {cmd : DrvCmd} {fn : LibFn} (h : (cmd, fn) ∈ cuErrorTexts) :
    TextOf (.drv cmd) cuGetErrorStringReq (sizeof cuGetErrorStringResp) fun error =>
      handleCuGetErrorText cuGetErrorStringResp (lib fn [error] []) := by
  rcases h with _ | ⟨_, _ | ⟨_, h⟩⟩
  · exact ⟨by decide, by decide, rfl, rfl⟩
  · exact ⟨by decide, by decide, rfl, rfl⟩
  · cases h

theorem handleCuGetErrorText_head {t : CStruct} {m : QueryM LibRet} {e : CmdEnv} {s : CmdSt} :
    ∃ stale rest, ((handleCuGetErrorText t m).run e s).2.resp = respImage t stale
      [some ((errorTextLen (m.run ⟨e.env, s.be.tab⟩ s.be.dev).1).getD 0)] ++ rest := by
  unfold handleCuGetErrorText errorTextLen
  simp only [Prog.bind_run, core_fst, query_fst]
  rcases (m.run ⟨e.env, s.be.tab⟩ s.be.dev).1.str with _ | str
  · exact ⟨_, _, rfl⟩
  · exact ⟨_, _, rfl⟩

section
variable {cmd : DrvCmd} {fn : LibFn} {e : GuestEnv} {s : GuestSt} {error : Nat}

theorem cuErrorText_run (unknown : String) (pStr : Bool) :
    let r := ((cuTextCall cmd error e s).dispatch.run (e.drv s.sent.length) s.drv).1
    ((cuErrorText cmd unknown error pStr).run e s).1 =
      if r.ret = some 0 ∧ pStr then
        (r.ret, some (if 0 < respWord cuGetErrorStringResp r then
          ((r.resp.getD []).drop (sizeof cuGetErrorStringResp)).take
            (min (respWord cuGetErrorStringResp r) 255) else unknown.toUTF8.toList))
      else (r.ret, none) := by
  intro r
  unfold cuErrorText
  rw [Prog.bind_run, drvDispatch_link, Prog.ite_run]
  change (if r.ret = some 0 ∧ pStr then _ else _ :
    (Option Nat × Option (List UInt8)) × GuestSt).1 = _
  split
  · rw [Prog.ite_run]
    change (if 0 < respWord cuGetErrorStringResp r then _ else _ :
      (Option Nat × Option (List UInt8)) × GuestSt).1 = _
    split <;> rfl
  · rfl

theorem cuTextCall_buf (cmd : DrvCmd) (error : Nat) (e : GuestEnv) (s : GuestSt) (i : Nat) :
    (cuTextCall cmd error e s).buf (12 + i) = e.stack s.sent.length (12 + i) := by
  have hlen : (cuTextCall cmd error e s).req.length = sizeof cuGetErrorStringReq :=
    length_encode _ _ _
  have htotal : dispatchLen (cuTextCall cmd error e s).req.length
      (cuTextCall cmd error e s).respLen ≤ stackBufLen := by
    rw [hlen]
    exact (by decide : dispatchLen (sizeof cuGetErrorStringReq)
      (sizeof cuGetErrorStringResp + 256) ≤ stackBufLen)
  have hreq : sizeof reqHeader + (cuTextCall cmd error e s).req.length = 12 := by
    rw [hlen]
    decide
  have hhdr : sizeof reqHeader = 8 := by decide
  unfold Call.buf dispatchBuf
  rw [if_neg (by omega), if_neg (by omega), if_neg (by omega)]
  rfl

theorem plainServed_cuText (h : (cmd, fn) ∈ cuErrorTexts) (herr : error < 2 ^ 32) {k : Nat}
    (hk : (errorTextLen ((e.drv s.sent.length).sys.ret s.drv.m.dev.clock
      ⟨fn, [error], []⟩)).getD 0 = k) {n m : Nat} {img : Nat → UInt8}
    (hsent : Sent ((e.drv s.sent.length).calling (cuTextCall cmd error e s).buf) (.drv cmd) n m
      img) :
    let d := (e.drv s.sent.length).calling (cuTextCall cmd error e s).buf
    ∃ stale rest, (plainServed d (.drv cmd) n m (s.drv.showing d img)).payload =
      respImage cuGetErrorStringResp stale [some k] ++ rest := by
  intro d
  let env := cmdEnv d.sys d.key (plainElem d n m)
  let st := cmdStart d.sys (plainElem d n m) (s.drv.showing d img)
  have hreply : (plainReply d (.drv cmd) n m (s.drv.showing d img)).2 =
      ((handleCuGetErrorText cuGetErrorStringResp (lib fn [error] [])).run env
        ((req (field cuGetErrorStringReq 0)).run env st).2).2 :=
    TextOf.reply (x := cuTextCall cmd error e s) (cuErrorText_textOf h) rfl (by decide) herr hsent
      s.drv
  obtain ⟨stale, rest, hpay⟩ := @handleCuGetErrorText_head cuGetErrorStringResp
    (lib fn [error] []) env ((req (field cuGetErrorStringReq 0)).run env st).2
  refine ⟨stale, rest, ?_⟩
  rw [← hk]
  exact (congrArg CmdSt.resp hreply).trans hpay

theorem cuText_word {r : Dispatched} {bs rest : List UInt8} {stale : Nat → UInt8} {k : Nat}
    (hr : r.resp = some bs) (hk : k < 2 ^ 32) (hbs : ∀ i < sizeof cuGetErrorStringResp,
      bs.getD i 0 = (respImage cuGetErrorStringResp stale [some k] ++ rest).getD i 0) :
    respWord cuGetErrorStringResp r = k := by
  have hget := @get_respImage_assigned cuGetErrorStringResp stale [some k] 0 k rfl
  rw [Nat.mod_eq_of_lt (hk.trans_eq (by decide))] at hget
  refine Eq.trans (Field.get_congr fun a _ ha => ?_) hget
  have hlt : a < sizeof cuGetErrorStringResp := ha.trans_le (stop_le_sizeof _ _)
  rw [hr, Option.getD_some, hbs a hlt, List.getD_append _ _ _ _ (by rwa [length_respImage])]

/-- The text that the driver library hands out is what its own stack held, at the length of
CUDA's text: none of CUDA's bytes reach the application. -/
theorem cuErrorText_stale (h : (cmd, fn) ∈ cuErrorTexts) (unknown : String) (herr : error < 2 ^ 32)
    {k : Nat} (hk : (errorTextLen ((e.drv s.sent.length).sys.ret s.drv.m.dev.clock
      ⟨fn, [error], []⟩)).getD 0 = k) (hfits : k + 4 ≤ respPayloadCap)
    (h0 : ((cuErrorText cmd unknown error true).run e s).1.1 = some 0) :
    ((cuErrorText cmd unknown error true).run e s).1.2 = some (
      if 0 < k then (List.range (min k 255)).map fun i => e.stack s.sent.length (12 + i)
      else unknown.toUTF8.toList) := by
  let x := cuTextCall cmd error e s
  let d := e.drv s.sent.length
  obtain ⟨-, hplain, hsizes, -⟩ := cuErrorText_textOf h
  have hret : (x.dispatch.run d s.drv).1.ret = some 0 := by
    rw [cuErrorText_run] at h0
    split at h0 <;> exact h0
  have hx : x.Answered d := by
    by_contra hno
    obtain ⟨err, hne, hr⟩ := TextOf.unanswered_ret (cuErrorText_textOf h) hno s.drv
    exact hne (Option.some.inj (hr.symm.trans hret))
  obtain ⟨hready, -, n, m, img, hsent⟩ := hx
  change Sent (d.calling x.buf) (.drv cmd) n m img at hsent
  obtain ⟨stale, rest, hpay⟩ := plainServed_cuText h herr hk hsent
  have hm : m = sizeof cuGetErrorStringResp := hsent.respLen.trans (by rw [hsizes])
  have hresp := hret
  rw [Call.dispatch_run hready] at hresp
  obtain ⟨bs, hbs⟩ := dispatchResult_some hresp (by decide : 0 < sizeof cuGetErrorStringResp + 256)
  have hr : (x.dispatch.run d s.drv).1.resp = some bs := by
    rw [Call.dispatch_run hready]
    exact hbs
  obtain ⟨hlength, hlow, hhigh⟩ := answered_getD hsent hplain s.drv hbs
  rw [hpay] at hlow
  have hword := cuText_word (k := k) hr (by unfold respPayloadCap at hfits; omega) fun i hi =>
    hlow i (hm ▸ hi) (hi.trans_le (Nat.le_add_right _ 256)) (by
      rw [List.length_append, length_respImage]
      exact Nat.lt_add_right _ hi)
  have hown {i : Nat} (hi : i < 256) : bs.getD (4 + i) 0 = e.stack s.sent.length (12 + i) := by
    rw [hhigh (4 + i) (hm ▸ Nat.le_add_right 4 i) (Nat.add_lt_add_left hi 4),
      ← cuTextCall_buf cmd error, ← Nat.add_assoc]
    rfl
  have hcut : (bs.drop 4).take (min k 255) =
      (List.range (min k 255)).map fun i => e.stack s.sent.length (12 + i) := by
    have hlen : bs.length = 4 + 256 := hlength
    refine List.ext_getElem (by simp; omega) fun i h1 h2 => ?_
    have hi : i < min k 255 := by simpa using h2
    rw [List.getElem_take, List.getElem_drop, List.getElem_map, List.getElem_range,
      ← hown (by omega), List.getD_eq_getElem _ _ (by omega)]
  rw [cuErrorText_run, if_pos ⟨hret, rfl⟩, hword, hr, Option.getD_some, ← hcut]
  rfl

end

/-- A library whose stack holds the offsets, on a host that names every error "ab". -/
def staleGuest : GuestEnv := { namingGuest with stack := fun _ a => UInt8.ofNat a }

theorem cuErrorText_stale_ab : ((cuGetErrorName 2 true).run staleGuest openGuest).1.2 =
    some [12, 13, 14] :=
  @cuErrorText_stale .cuGetErrorName .cuGetErrorName staleGuest openGuest 2 (.tail _ (.head _))
    "UNKNOWN" (by decide) 3 rfl (by decide) (by decide +kernel)

end HmCuda
