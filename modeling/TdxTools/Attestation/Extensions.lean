import TdxTools.Attestation.Verify

namespace TdxTools.Attestation.Extensions

open Python.ByteString Python.Text Python.Exec Python.Struct Actor Utility Rtmr
open DeviceFile Descriptors ReportParsing ReportRequest Verify

/-- A register index and the value that the register is extended with. -/
abbrev Extension := Nat × Bytes

section Effects

variable (file : TdxAttestFile)

/-- What one call extends: the driver takes the 48 bytes of an extend request and
the index behind them, unless the call fails. -/
def extendedByCall (before : Calls) (c : DeviceCall) : List Extension :=
  match c with
  | .ioctl request req =>
    if request = TDX_CMD_EXTEND_RTMR ∧ file.ioctlSucceeds (before ++ [c]) = true then
      [(leNat (req.drop 48), req.take 48)]
    else []
  | _ => []

/-- What some calls extend, with other calls made before. -/
def extendedBy : Calls → Calls → List Extension
  | _, [] => []
  | before, c :: calls => extendedByCall file before c ++ extendedBy (before ++ [c]) calls

theorem extendedBy_append (before calls later : Calls) :
    extendedBy file before (calls ++ later) =
      extendedBy file before calls ++ extendedBy file (before ++ calls) later := by
  induction calls generalizing before with
  | nil => rw [List.nil_append, extendedBy, List.nil_append, List.append_nil]
  | cons c calls ih =>
    rw [List.cons_append, extendedBy, ih, extendedBy, List.append_assoc, List.append_assoc,
      List.singleton_append]

/-- Calls are added that do not extend a register. -/
def Quiet (calls calls' : Calls) : Prop :=
  ∃ new, calls' = calls ++ new ∧ ∀ request req, .ioctl request req ∈ new → request ≠ TDX_CMD_EXTEND_RTMR

variable {file}

theorem Quiet.refl (calls : Calls) : Quiet calls calls := ⟨[], by simp, by simp⟩

theorem Quiet.trans {calls calls' calls'' : Calls} (h : Quiet calls calls')
    (h' : Quiet calls' calls'') : Quiet calls calls'' := by
  obtain ⟨new, rfl, hnew⟩ := h
  obtain ⟨new', rfl, hnew'⟩ := h'
  refine ⟨new ++ new', List.append_assoc _ _ _, fun request req hmem => ?_⟩
  exact (List.mem_append.mp hmem).elim (hnew request req) (hnew' request req)

theorem extendedBy_of_no_request {before calls : Calls}
    (h : ∀ request req, .ioctl request req ∈ calls → request ≠ TDX_CMD_EXTEND_RTMR) :
    extendedBy file before calls = [] := by
  induction calls generalizing before with
  | nil => rfl
  | cons c calls ih =>
    rw [extendedBy, ih fun request req hmem => h request req (List.mem_cons_of_mem _ hmem),
      List.append_nil]
    cases c with
    | opened => rfl
    | closed => rfl
    | ioctl request req => exact if_neg fun hc => h request req List.mem_cons_self hc.1

variable (file) in
theorem Quiet.extendedBy {calls calls' : Calls} (h : Quiet calls calls') :
    ∃ new, calls' = calls ++ new ∧ Extensions.extendedBy file calls new = [] := by
  obtain ⟨new, rfl, hnew⟩ := h
  exact ⟨new, rfl, extendedBy_of_no_request hnew⟩

end Effects

section QuietFunctions

variable (machine : Machine)

theorem call_quiet {c : DeviceCall}
    (h : ∀ request req, c = .ioctl request req → request ≠ TDX_CMD_EXTEND_RTMR) :
    Py.Keeps Quiet (call c) := fun _ =>
  ⟨[c], rfl, fun request req hmem => h request req (List.mem_singleton.mp hmem).symm⟩

theorem ioctlAndClose_quiet {operator : Nat} (h : operator ≠ TDX_CMD_EXTEND_RTMR) (req : Bytes) :
    Py.Keeps Quiet (ioctlAndClose machine operator req) := by
  intro calls
  rw [ioctlAndClose_eq]
  refine ⟨_, rfl, fun request req' hmem => ?_⟩
  simp only [List.mem_cons, DeviceCall.ioctl.injEq, reduceCtorEq, List.not_mem_nil, or_false] at hmem
  rw [hmem.1]
  exact h

/-- The calls that a state holds only grow, and none extends a register. -/
def QuietOn {σ : Type} (callsOf : σ → Calls) (s s' : σ) : Prop := Quiet (callsOf s) (callsOf s')

section QuietOn

variable {σ α β : Type} {callsOf : σ → Calls}

theorem quiet_of_same {x : Py σ α} (h : ∀ s, callsOf (x s).2 = callsOf s) :
    Py.Keeps (QuietOn callsOf) x := by
  intro s
  rw [QuietOn, h]
  exact Quiet.refl _

theorem quiet_bind {x : Py σ α} {f : α → Py σ β} (hx : Py.Keeps (QuietOn callsOf) x)
    (hf : ∀ a, Py.Keeps (QuietOn callsOf) (f a)) : Py.Keeps (QuietOn callsOf) (x >>= f) :=
  Py.Keeps.bind (R := QuietOn callsOf) (fun h h' => Quiet.trans h h') hx hf

theorem quiet_get_bind {f : σ → Py σ β} (hf : ∀ s, Py.Keeps (QuietOn callsOf) (f s)) :
    Py.Keeps (QuietOn callsOf) (Py.get >>= f) := quiet_bind (quiet_of_same fun _ => rfl) hf

/-- A computed value leaves the state alone; only what is done with it counts. -/
theorem quiet_lift_bind {x : Outcome α} {f : α → Py σ β}
    (h : ∀ a, x = .ok a → Py.Keeps (QuietOn callsOf) (f a)) :
    Py.Keeps (QuietOn callsOf) (Py.lift x >>= f) := by
  intro s
  obtain ⟨a, ha, hrun⟩ | ⟨o, hrun⟩ := Py.lift_bind_cases x f s
  · rw [hrun]
    exact h a ha s
  · rw [hrun]
    exact Quiet.refl _

end QuietOn

theorem onCalls_quiet {α : Type} {x : Py Calls α} (h : Py.Keeps Quiet x) :
    Py.Keeps (QuietOn State.calls) (onCalls x) := Py.Keeps.within (fun _ _ hq => hq) h

theorem reportOperator_ne (name : NodeName) : reportOperator name ≠ TDX_CMD_EXTEND_RTMR := by
  cases name <;> decide

theorem getTdreportBytes_quiet (reportData : Option Bytes) :
    Py.Keeps (QuietOn State.calls) (getTdreportBytes machine reportData) := by
  intro s
  by_cases hopen : s.node.deviceNodeName.isSome ∧ machine.opens s.calls = true
  case neg =>
    rw [getTdreportBytes_closed hopen]
    exact Quiet.refl _
  obtain ⟨name, hname⟩ := Option.isSome_iff_exists.mp hopen.1
  by_cases hlong : TooLong reportData
  · rw [getTdreportBytes_tooLong hname hopen.2 hlong]
    exact ⟨[.opened], rfl, by simp⟩
  · obtain ⟨result, s', hrun, hcalls, -⟩ := getTdreportBytes_session hname hopen.2 hlong
    rw [hrun, QuietOn, hcalls]
    refine ⟨_, rfl, fun request req hmem => ?_⟩
    simp only [session, List.mem_cons, DeviceCall.ioctl.injEq, reduceCtorEq, List.not_mem_nil,
      or_false, false_or] at hmem
    rw [hmem.1]
    exact reportOperator_ne name

theorem getTdquote_operator_ne {name : NodeName} {operator : Nat}
    (h : operatorOf name .GET_TDQUOTE = .ok operator) : operator ≠ TDX_CMD_EXTEND_RTMR := by
  cases name with
  | DEVICE_NODE_NAME_1_0 =>
    obtain rfl := Outcome.ok.inj h
    decide
  | DEVICE_NODE_NAME_1_5 => cases h

theorem requestTdquote_quiet (tdreport : Bytes) :
    Py.Keeps (QuietOn State.calls) (requestTdquote machine tdreport) := by
  have hopened : Py.Keeps (QuietOn State.calls) (onCalls (call .opened)) :=
    onCalls_quiet (call_quiet (by simp))
  rw [requestTdquote]
  refine quiet_bind (quiet_of_same fun _ => rfl) fun req => quiet_get_bind fun s => ?_
  cases s.node.deviceNodeName with
  | none => exact quiet_of_same fun _ => rfl
  | some name =>
    dsimp only
    split
    · exact quiet_of_same fun _ => rfl
    · refine quiet_bind hopened fun _ => ?_
      refine quiet_lift_bind fun operator hoperator => quiet_lift_bind fun req _ => ?_
      have hioctl := onCalls_quiet (ioctlAndClose_quiet machine (getTdquote_operator_ne hoperator) req)
      refine quiet_bind hioctl fun executed => ?_
      split
      · exact quiet_get_bind fun s => quiet_of_same fun _ => rfl
      · exact quiet_of_same fun _ => rfl

theorem getTdquoteBytes_quiet (reportData : Option Bytes) :
    Py.Keeps (QuietOn State.calls) (getTdquoteBytes machine reportData) := by
  rw [getTdquoteBytes]
  refine quiet_bind (getTdreportBytes_quiet machine reportData) fun tdreport => ?_
  cases tdreport with
  | none => exact quiet_of_same fun _ => rfl
  | some tdreport => exact requestTdquote_quiet machine tdreport

theorem getTdReport_quiet (guest : Guest) (reportData : Option Bytes) :
    Py.Keeps Quiet (getTdReport guest reportData) := by
  refine Py.Keeps.within (Q := QuietOn State.calls) (fun _ _ h => h) ?_
  refine quiet_bind (getTdreportBytes_quiet _ reportData) fun tdreport => ?_
  exact quiet_lift_bind fun bytes _ => quiet_get_bind fun s => quiet_of_same fun _ => rfl

theorem verifyRegister_quiet (actor : TDEventLogActor) (report : TdReport) (i : Nat) :
    Py.Keeps (QuietOn World.calls) (VerifyActor.verifyRegister actor report i) := by
  rw [VerifyActor.verifyRegister]
  refine quiet_lift_bind fun _ _ => quiet_lift_bind fun _ _ => quiet_lift_bind fun _ _ => ?_
  exact quiet_lift_bind fun _ _ => quiet_of_same fun _ => rfl

/-- Verifying extends no register. -/
theorem verifyRtmr_quiet (platform : Platform) :
    Py.Keeps (QuietOn World.calls) (VerifyActor.verifyRtmr platform) := by
  have hreport : Py.Keeps (QuietOn World.calls)
      (.within World.calls (fun calls w => { w with calls }) (getTdReport platform.toGuest none)) :=
    Py.Keeps.within (fun _ _ h => h) (getTdReport_quiet platform.toGuest none)
  rw [VerifyActor.verifyRtmr]
  refine quiet_lift_bind fun ccelobj _ => ?_
  cases ccelobj with
  | none => exact quiet_of_same fun _ => rfl
  | some ccel =>
    refine quiet_lift_bind fun base _ => quiet_lift_bind fun length _ => quiet_lift_bind fun _ _ => ?_
    refine quiet_bind hreport fun report => ?_
    exact quiet_bind (verifyRegister_quiet _ _ _) fun _ => quiet_bind (verifyRegister_quiet _ _ _)
      fun _ => quiet_bind (verifyRegister_quiet _ _ _) fun _ => verifyRegister_quiet _ _ _

end QuietFunctions

section Extend

variable {file : TdxAttestFile} {sha384 : HashFunction 48}

/-- The arguments of `RTMR.extend_rtmr`. -/
structure ExtendArgs where
  raw : Option PyStr
  str : Option PyStr
  digest : Option PyStr
  index : Int

/-- The value that the arguments name, if they name one. -/
def ExtendArgs.value (sha384 : HashFunction 48) (args : ExtendArgs) : Bytes :=
  match args.str, args.digest with
  | some s, _ => ((encode s).map sha384.digest).getD []
  | none, some d => ((chars? d).bind fromhex).getD []
  | none, none => (args.raw.bind encode).getD []

def ExtendArgs.run (file : TdxAttestFile) (sha384 : HashFunction 48) (args : ExtendArgs) :
    Py Calls (Option ExtendResult) :=
  extendRtmr file sha384 args.raw args.str args.digest args.index

/-- What is reported as extended. -/
def reportedBy (index : Int) (value : Bytes) (o : Outcome (Option ExtendResult)) : List Extension :=
  if o = .ok (some .EXTEND_SUCCESS) then [(index.toNat, value)] else []

theorem toNat_of_toNat? {index : Int} {n : Nat} (h : index.toNat? = some n) : index.toNat = n := by
  cases index with
  | ofNat m => exact Option.some.inj h
  | negSucc m => cases h

/-- What one request extends is what is reported of it. -/
theorem extend_effect {value : Bytes} (hlen : value.length = 48) (index : Int) (calls : Calls) :
    ∃ new, (extend file value index calls).2 = calls ++ new ∧
      extendedBy file calls new = reportedBy index value (extend file value index calls).1 := by
  rw [extend]
  cases hindex : index.toNat? with
  | none => exact ⟨[], (List.append_nil calls).symm, rfl⟩
  | some n =>
    rw [Outcome.ofOption_some, Py.lift_ok_bind_apply]
    by_cases hn : n < 256
    case neg =>
      have hpack : pack [.raw 48, .uint 1] (value, n, ()) = none := by
        simp [pack, Fmt.encode, hn]
      rw [hpack]
      exact ⟨[], (List.append_nil calls).symm, rfl⟩
    have hpack : pack [.raw 48, .uint 1] (value, n, ()) = some (value ++ leBytes 1 n) := by
      simp [pack, Fmt.encode, hlen, hn, List.take_of_length_le]
    let ioctl : DeviceCall := .ioctl TDX_CMD_EXTEND_RTMR (value ++ leBytes 1 n)
    have hdecoded : (leNat ((value ++ leBytes 1 n).drop 48), (value ++ leBytes 1 n).take 48) =
        (n, value) := by
      rw [List.drop_left' hlen, List.take_left' hlen, leNat_leBytes 1 n (by simpa using hn)]
    rw [hpack, Outcome.ofOption_some, Py.lift_ok_bind_apply, call, Py.modify_bind_apply,
      Py.get_bind_apply]
    refine ⟨[ioctl, .closed], ?_⟩
    rw [extendedBy, extendedByCall, hdecoded, reportedBy, toNat_of_toNat? hindex]
    cases file.ioctlSucceeds (calls ++ [ioctl]) with
    | true => simp [ioctl, call, extendedBy, extendedByCall]
    | false => simp [ioctl, call, extendedBy, extendedByCall]

variable (file) in
/-- Data of another length than a register's is refused before a request is made. -/
theorem checked_effect (e : Exn) (data : Option Bytes) (index : Int) (calls : Calls) :
    let checked : Py Calls (Option ExtendResult) :=
      .lift (.ofOption e data) >>= fun b =>
        if b.length ≠ RTMR.RTMR_LENGTH_BY_BYTES then pure (some .EXTEND_FAILURE_WITH_WRONG_INPUT)
        else extend file b index
    ∃ new, (checked calls).2 = calls ++ new ∧
      extendedBy file calls new = reportedBy index (data.getD []) (checked calls).1 := by
  cases data with
  | none => exact ⟨[], (List.append_nil calls).symm, rfl⟩
  | some b =>
    dsimp only
    rw [Outcome.ofOption_some, Py.lift_ok_bind_apply]
    by_cases hb : b.length = RTMR.RTMR_LENGTH_BY_BYTES
    · rw [if_neg (not_not_intro hb)]
      exact extend_effect hb index calls
    · rw [if_pos hb]
      exact ⟨[], (List.append_nil calls).symm, rfl⟩

variable (file) in
/-- A register is extended with the value that the arguments name, once, if
success is reported; otherwise no register is extended. -/
theorem run_effect (sha384 : HashFunction 48) (args : ExtendArgs) (calls : Calls) :
    ∃ new, (args.run file sha384 calls).2 = calls ++ new ∧
      extendedBy file calls new =
        reportedBy args.index (args.value sha384) (args.run file sha384 calls).1 := by
  obtain ⟨raw, str, digest, index⟩ := args
  rw [ExtendArgs.run, extendRtmr.eq_def, Py.get_bind_apply]
  by_cases hthere : file.isThere calls = true
  case neg =>
    rw [if_pos hthere]
    exact ⟨[], (List.append_nil calls).symm, rfl⟩
  by_cases hopens : file.opens calls = true
  case neg =>
    rw [if_neg (not_not_intro hthere), if_pos hopens]
    exact ⟨[], (List.append_nil calls).symm, rfl⟩
  rw [if_neg (not_not_intro hthere), if_neg (not_not_intro hopens), call, Py.modify_bind_apply]
  -- opening the file extends nothing
  have hopened : ∀ {o : Outcome (Option ExtendResult)} {after : Calls} {value : Bytes},
      (∃ new, after = calls ++ [.opened] ++ new ∧
        extendedBy file (calls ++ [.opened]) new = reportedBy index value o) →
      ∃ new, after = calls ++ new ∧ extendedBy file calls new = reportedBy index value o := by
    rintro o after value ⟨new, hafter, hnew⟩
    refine ⟨.opened :: new, by rw [hafter, List.append_assoc, List.singleton_append], ?_⟩
    rw [extendedBy, hnew]
    rfl
  cases str with
  | some s =>
    dsimp only [ExtendArgs.value]
    cases encode s with
    | none => exact hopened ⟨[], (List.append_nil _).symm, rfl⟩
    | some data => exact hopened (extend_effect (sha384.length_digest data) index _)
  | none =>
    cases digest with
    | some d => exact hopened (checked_effect file .valueError ((chars? d).bind fromhex) index _)
    | none =>
      cases raw with
      | none => exact hopened ⟨[], (List.append_nil _).symm, rfl⟩
      | some s => exact hopened (checked_effect file .unicodeEncodeError (encode s) index _)

end Extend

end TdxTools.Attestation.Extensions
