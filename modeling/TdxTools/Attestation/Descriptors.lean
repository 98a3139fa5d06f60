import TdxTools.Attestation.DeviceFile
import TdxTools.Attestation.ExtendIma

namespace TdxTools.Attestation.Descriptors

open Python.ByteString Python.Exec Python.Struct Python.Text
open Actor Utility Rtmr ExtendIma DeviceFile

/-- The descriptors that are open after some calls, the last call first. A
descriptor is known by the number of calls before the one that opened it, and
a function closes none but the one it has opened last. -/
def openAfter : Calls → List Nat
  | [] => []
  | .opened :: calls => calls.length :: openAfter calls
  | .ioctl _ _ :: calls => openAfter calls
  | .closed :: calls => (openAfter calls).tail

def descriptors (calls : Calls) : List Nat := openAfter calls.reverse

/-- A request to a device file that is opened for it and closed. -/
def session (operator : Nat) (req : Bytes) : Calls := [.opened, .ioctl operator req, .closed]

theorem descriptors_opened (calls : Calls) :
    descriptors (calls ++ [.opened]) = calls.length :: descriptors calls := by
  simp [descriptors, openAfter]

theorem descriptors_session (calls : Calls) (operator : Nat) (req : Bytes) :
    descriptors (calls ++ session operator req) = descriptors calls := by
  simp [descriptors, session, openAfter]

/-- What is opened and not closed is a descriptor more. -/
theorem descriptors_opened_ne (calls : Calls) :
    descriptors (calls ++ [.opened]) ≠ descriptors calls := by
  rw [descriptors_opened]
  exact List.cons_ne_self _ _

section Extend

variable {file : TdxAttestFile} {sha384 : HashFunction 48} {raw str digest : Option PyStr}
  {index : Int} {calls : Calls}

def InByte (index : Int) : Prop := 0 ≤ index ∧ index < 256

/-- The extend data is found, can be encoded, and has the length of a register
where it is not hashed. -/
def Usable (raw str digest : Option PyStr) : Prop :=
  match str, digest with
  | some s, _ => (encode s).isSome
  | none, some d => ∃ b ∈ (chars? d).bind fromhex, b.length = RTMR.RTMR_LENGTH_BY_BYTES
  | none, none => ∃ s ∈ raw, ∃ b ∈ encode s, b.length = RTMR.RTMR_LENGTH_BY_BYTES

theorem extend_session (extendData : Bytes) (hi : InByte index) :
    ∃ req, (extend file extendData index (calls ++ [.opened])).2 =
      calls ++ session TDX_CMD_EXTEND_RTMR req := by
  obtain ⟨n, rfl⟩ := Int.eq_ofNat_of_zero_le hi.1
  have hn : n < 256 ^ 1 := by
    have hlt := hi.2
    omega
  have hindex : (n : Int).toNat? = some n := rfl
  obtain ⟨req, hpack⟩ : ∃ req, pack [.raw 48, .uint 1] (extendData, n, ()) = some req := by
    simp only [pack, Fmt.encode, if_pos hn]
    exact ⟨_, rfl⟩
  refine ⟨req, ?_⟩
  rw [extend, hindex, Outcome.ofOption_some, Py.lift_ok_bind_apply, hpack, Outcome.ofOption_some,
    Py.lift_ok_bind_apply, call, Py.modify_bind_apply, Py.get_bind_apply]
  split <;> simp [call, session]

theorem extend_unpacked (extendData : Bytes) (hi : ¬ InByte index) :
    (extend file extendData index calls).2 = calls := by
  rw [extend]
  cases hindex : index.toNat? with
  | none => rfl
  | some n =>
    have hn : ¬ n < 256 ^ 1 := by
      intro hlt
      apply hi
      cases index with
      | ofNat m =>
        cases hindex
        exact ⟨Int.natCast_nonneg _, by simpa using hlt⟩
      | negSucc m => cases hindex
    have hpack : pack [.raw 48, .uint 1] (extendData, n, ()) = none := by
      simp only [pack, Fmt.encode, if_neg hn]
    rw [Outcome.ofOption_some, Py.lift_ok_bind_apply, hpack]
    rfl

theorem extendRtmr_absent (h : ¬ (file.isThere calls = true ∧ file.opens calls = true)) :
    (extendRtmr file sha384 raw str digest index calls).2 = calls := by
  rw [extendRtmr.eq_def, Py.get_bind_apply]
  by_cases hthere : file.isThere calls = true
  · have hopens : ¬ file.opens calls = true := fun hopens => h ⟨hthere, hopens⟩
    rw [if_neg (not_not_intro hthere), if_pos hopens]
    rfl
  · rw [if_pos hthere]
    rfl

/-- Data that is there and has the length goes on to the request, and without it
the function ends. -/
theorem checked_calls (file : TdxAttestFile) (e : Exn) (data : Option Bytes) (index : Int)
    (calls : Calls) :
    let checked : Py Calls (Option ExtendResult) :=
      .lift (.ofOption e data) >>= fun b =>
        if b.length ≠ RTMR.RTMR_LENGTH_BY_BYTES then pure (some .EXTEND_FAILURE_WITH_WRONG_INPUT)
        else extend file b index
    ((∃ b ∈ data, b.length = RTMR.RTMR_LENGTH_BY_BYTES) →
      ∃ extendData, (checked calls).2 = (extend file extendData index calls).2) ∧
    ((¬ ∃ b ∈ data, b.length = RTMR.RTMR_LENGTH_BY_BYTES) → (checked calls).2 = calls) := by
  cases data with
  | none =>
    refine ⟨?_, fun _ => rfl⟩
    rintro ⟨b, hb, -⟩
    cases hb
  | some b =>
    dsimp only
    rw [Outcome.ofOption_some, Py.lift_ok_bind_apply]
    by_cases hb : b.length = RTMR.RTMR_LENGTH_BY_BYTES
    · rw [if_neg (not_not_intro hb)]
      exact ⟨fun _ => ⟨b, rfl⟩, fun hno => absurd ⟨b, rfl, hb⟩ hno⟩
    · rw [if_pos hb]
      refine ⟨?_, fun _ => rfl⟩
      rintro ⟨b', hsome, hl⟩
      cases hsome
      exact absurd hl hb

theorem extendRtmr_opened (sha384 : HashFunction 48) (raw str digest : Option PyStr) (index : Int)
    (hthere : file.isThere calls = true) (hopens : file.opens calls = true) :
    (Usable raw str digest → ∃ extendData, (extendRtmr file sha384 raw str digest index calls).2 =
      (extend file extendData index (calls ++ [.opened])).2) ∧
    (¬ Usable raw str digest →
      (extendRtmr file sha384 raw str digest index calls).2 = calls ++ [.opened]) := by
  rw [extendRtmr.eq_def, Py.get_bind_apply, if_neg (not_not_intro hthere),
    if_neg (not_not_intro hopens), call, Py.modify_bind_apply]
  cases str with
  | some s =>
    dsimp only
    cases hs : encode s with
    | none =>
      have hunusable : ¬ Usable raw (some s) digest := by simp [Usable, hs]
      exact ⟨fun h => absurd h hunusable, fun _ => rfl⟩
    | some data =>
      have husable : Usable raw (some s) digest := by simp [Usable, hs]
      exact ⟨fun _ => ⟨_, rfl⟩, fun hno => absurd husable hno⟩
  | none =>
    cases digest with
    | some d => exact checked_calls file .valueError ((chars? d).bind fromhex) index _
    | none =>
      cases raw with
      | none =>
        have hunusable : ¬ Usable none none none := by simp [Usable]
        exact ⟨fun h => absurd h hunusable, fun _ => rfl⟩
      | some s =>
        have hchecked := checked_calls file .unicodeEncodeError (encode s) index (calls ++ [.opened])
        have husable : Usable (some s) none none ↔
            ∃ b ∈ encode s, b.length = RTMR.RTMR_LENGTH_BY_BYTES := by simp [Usable]
        rw [husable]
        exact hchecked

/-- The file is opened and one of the checks before the request fails. -/
def ExtendLeaks (file : TdxAttestFile) (calls : Calls) (raw str digest : Option PyStr)
    (index : Int) : Prop :=
  (file.isThere calls = true ∧ file.opens calls = true) ∧ ¬ (Usable raw str digest ∧ InByte index)

theorem extend_kept_iff :
    descriptors (extendRtmr file sha384 raw str digest index calls).2 = descriptors calls ↔
      ¬ ExtendLeaks file calls raw str digest index := by
  by_cases hopen : file.isThere calls = true ∧ file.opens calls = true
  case neg =>
    rw [extendRtmr_absent hopen]
    exact iff_of_true rfl (fun h => hopen h.1)
  obtain ⟨husable, hunusable⟩ := extendRtmr_opened sha384 raw str digest index hopen.1 hopen.2
  by_cases hu : Usable raw str digest
  case neg =>
    rw [hunusable hu]
    exact iff_of_false (descriptors_opened_ne calls) (fun h => h ⟨hopen, fun hok => hu hok.1⟩)
  obtain ⟨extendData, hrun⟩ := husable hu
  by_cases hi : InByte index
  · obtain ⟨req, hsession⟩ : ∃ req, (extend file extendData index (calls ++ [.opened])).2 =
        calls ++ session TDX_CMD_EXTEND_RTMR req := extend_session extendData hi
    rw [hrun, hsession, descriptors_session]
    exact iff_of_true rfl (fun h => h.2 ⟨hu, hi⟩)
  · rw [hrun, extend_unpacked extendData hi]
    exact iff_of_false (descriptors_opened_ne calls) (fun h => h ⟨hopen, fun hok => hi hok.2⟩)

end Extend

section Report

variable {machine : Machine} {s : State} {reportData : Option Bytes} {name : NodeName}

def TooLong (reportData : Option Bytes) : Prop :=
  TDX_REPORTDATA_LEN < (reportData.map List.length).getD 0

def reportOperator : NodeName → Nat
  | .DEVICE_NODE_NAME_1_0 => TDX_CMD_GET_REPORT_V1_0
  | .DEVICE_NODE_NAME_1_5 => TDX_CMD_GET_REPORT0_V1_5

theorem operatorOf_report (name : NodeName) :
    operatorOf name .GET_TDREPORT = .ok (reportOperator name) := by
  cases name <;> rfl

def reportVals (machine : Machine) : Vals reportFmt :=
  (0, List.replicate 7 0, machine.addressofReportdata.toNat, TDX_REPORTDATA_LEN,
    machine.addressofTdreport.toNat, TDX_REPORT_LEN, ())

/-- The request for a report: addresses for 1.0, the data itself for 1.5. -/
def reportRequest (machine : Machine) (name : NodeName) (reportData : Option Bytes) : Bytes :=
  match name with
  | .DEVICE_NODE_NAME_1_0 => (pack reportFmt (reportVals machine)).getD []
  | .DEVICE_NODE_NAME_1_5 => paddedReportData reportData ++ List.replicate TDX_REPORT_LEN 0

theorem fits_reportVals (machine : Machine) : Fits reportFmt (reportVals machine) := by
  have hword : ∀ a : UInt64, a.toNat < 256 ^ 8 := fun a =>
    Nat.lt_of_lt_of_eq a.toNat_lt (by norm_num)
  exact ⟨by norm_num, List.length_replicate, hword _, by norm_num [TDX_REPORTDATA_LEN], hword _,
    by norm_num [TDX_REPORT_LEN], trivial⟩

theorem createTdxReportReq_tooLong (h : TooLong reportData) :
    createTdxReportReq machine reportData s = (.ok none, s) := by
  rw [createTdxReportReq]
  exact congrFun (if_pos h) s

theorem createTdxReportReq_eq (machine : Machine) (h : ¬ TooLong reportData)
    (hname : s.node.deviceNodeName = some name) :
    ∃ s', createTdxReportReq machine reportData s =
        (.ok (some (reportRequest machine name reportData)), s') ∧
      s'.calls = s.calls ∧ s'.node.toDeviceNode = s.node.toDeviceNode := by
  have hif : ∀ {x y : Py State (Option Bytes)},
      (if (reportData.map List.length).getD 0 > TDX_REPORTDATA_LEN then x else y) = y := if_neg h
  rw [createTdxReportReq, hif, Py.get_bind_apply, hname]
  cases name with
  | DEVICE_NODE_NAME_1_0 =>
    obtain ⟨req, hpack, -, -⟩ := pack_of_fits reportFmt _ (fits_reportVals machine)
    have hreq : reportRequest machine .DEVICE_NODE_NAME_1_0 reportData = req := by
      rw [reportRequest, hpack]
      rfl
    rw [reportVals] at hpack
    dsimp only
    rw [Py.modify_bind_apply, hpack, Outcome.ofOption_some, Py.lift_ok_bind_apply, hreq]
    exact ⟨_, rfl, rfl, rfl⟩
  | DEVICE_NODE_NAME_1_5 => exact ⟨s, rfl, rfl, rfl⟩

theorem getTdreportBytes_closed
    (h : ¬ (s.node.deviceNodeName.isSome ∧ machine.opens s.calls = true)) :
    getTdreportBytes machine reportData s = (.ok none, s) := by
  rw [getTdreportBytes, Py.get_bind_apply]
  cases hname : s.node.deviceNodeName with
  | none => rfl
  | some name =>
    have hopens : ¬ machine.opens s.calls = true := fun hopens => h ⟨by rw [hname]; rfl, hopens⟩
    dsimp only
    rw [operatorOf_report, Py.lift_ok_bind_apply, if_pos hopens]
    rfl

theorem ioctlAndClose_eq (operator : Nat) (req : Bytes) (calls : Calls) :
    ioctlAndClose machine operator req calls =
      (.ok (machine.ioctlSucceeds (calls ++ [.ioctl operator req])),
        calls ++ [.ioctl operator req, .closed]) := by
  rw [ioctlAndClose, call, Py.modify_bind_apply, Py.get_bind_apply]
  cases machine.ioctlSucceeds (calls ++ [.ioctl operator req]) <;> simp [call]

theorem getTdreportBytesFromReq_eq (machine : Machine) (reportData : Option Bytes)
    {self : DeviceNode} (hname : self.deviceNodeName = some name) (memory : Nat → UInt8)
    (calls : Calls) : ∃ tdreport,
      getTdreportBytesFromReq self memory
        (answered machine name calls (reportRequest machine name reportData)) = .ok (some tdreport) ∧
      (¬ TooLong reportData → tdreport.length = TDX_REPORT_LEN) := by
  rw [getTdreportBytesFromReq, hname]
  cases name with
  | DEVICE_NODE_NAME_1_0 =>
    obtain ⟨req, hpack, -, hunpack⟩ := unpack_pack reportFmt _ (fits_reportVals machine)
    have hreq : answered machine .DEVICE_NODE_NAME_1_0 calls
        (reportRequest machine .DEVICE_NODE_NAME_1_0 reportData) = req := by
      rw [answered, reportRequest, hpack]
      rfl
    dsimp only
    rw [hreq, hunpack]
    exact ⟨_, rfl, fun _ => length_readMemory _ _ _⟩
  | DEVICE_NODE_NAME_1_5 =>
    refine ⟨_, rfl, fun h => ?_⟩
    have hlen : ((reportData.map List.length).getD 0) = (reportData.getD []).length := by
      cases reportData <;> rfl
    rw [TooLong, hlen] at h
    simp only [answered, List.length_drop, machine.length_reply, reportRequest, paddedReportData, hlen,
      List.length_append, List.length_replicate]
    omega

section Opened

variable (hname : s.node.deviceNodeName = some name) (hopens : machine.opens s.calls = true)
include hname hopens

theorem getTdreportBytes_opened : getTdreportBytes machine reportData s =
    requestTdreport machine name (reportOperator name) reportData
      { s with calls := s.calls ++ [.opened] } := by
  rw [getTdreportBytes, Py.get_bind_apply, hname]
  dsimp only
  rw [operatorOf_report, Py.lift_ok_bind_apply, if_neg (not_not_intro hopens)]
  rfl

/-- A request that was not built ends in a `TypeError`. -/
theorem getTdreportBytes_tooLong (h : TooLong reportData) :
    getTdreportBytes machine reportData s =
      (.raised .typeError, { s with calls := s.calls ++ [.opened] }) := by
  rw [getTdreportBytes_opened hname hopens, requestTdreport,
    Py.bind_ok (createTdxReportReq_tooLong h)]
  rfl

theorem getTdreportBytes_session (h : ¬ TooLong reportData) :
    ∃ result s', getTdreportBytes machine reportData s = (.ok result, s') ∧
      s'.calls = s.calls ++ session (reportOperator name) (reportRequest machine name reportData) ∧
      s'.node.toDeviceNode = s.node.toDeviceNode ∧
      (result.isSome ↔ machine.ioctlSucceeds (s.calls ++
        [.opened, .ioctl (reportOperator name) (reportRequest machine name reportData)]) = true) ∧
      ∀ tdreport ∈ result, tdreport.length = TDX_REPORT_LEN := by
  let req := reportRequest machine name reportData
  let opened : State := { s with calls := s.calls ++ [.opened] }
  obtain ⟨s', hcreate, hcalls, hnode⟩ := createTdxReportReq_eq (s := opened) machine h hname
  have hioctl : onCalls (ioctlAndClose machine (reportOperator name) req) s' =
      (.ok (machine.ioctlSucceeds (s.calls ++ [.opened, .ioctl (reportOperator name) req])),
        { s' with calls := s.calls ++ session (reportOperator name) req }) := by
    rw [onCalls, Py.within_apply, hcalls, ioctlAndClose_eq]
    simp [opened, session]
  rw [getTdreportBytes_opened hname hopens, requestTdreport, Py.bind_ok hcreate,
    Outcome.ofOption_some, Py.lift_ok_bind_apply, Py.bind_ok hioctl]
  have hnode' : s'.node.deviceNodeName = some name := by
    rw [hnode]
    exact hname
  cases hok : machine.ioctlSucceeds (s.calls ++ [.opened, .ioctl (reportOperator name) req]) with
  | false => exact ⟨none, _, rfl, rfl, hnode, by simp, by simp⟩
  | true =>
    obtain ⟨tdreport, hget, hlen⟩ := getTdreportBytesFromReq_eq machine reportData hnode'
      (machine.memory (s.calls ++ session (reportOperator name) req))
      (s.calls ++ session (reportOperator name) req)
    rw [if_pos rfl, Py.get_bind_apply]
    dsimp only
    rw [hget]
    exact ⟨some tdreport, _, rfl, rfl, hnode, by simp, by simpa using hlen h⟩

end Opened

/-- The node is opened, but there is too much data for a request. -/
def ReportLeaks (machine : Machine) (s : State) (reportData : Option Bytes) : Prop :=
  (s.node.deviceNodeName.isSome ∧ machine.opens s.calls = true) ∧ TooLong reportData

theorem report_kept_iff :
    descriptors (getTdreportBytes machine reportData s).2.calls = descriptors s.calls ↔
      ¬ ReportLeaks machine s reportData := by
  by_cases hopen : s.node.deviceNodeName.isSome ∧ machine.opens s.calls = true
  case neg =>
    rw [getTdreportBytes_closed hopen]
    exact iff_of_true rfl (fun h => hopen h.1)
  obtain ⟨name, hname⟩ := Option.isSome_iff_exists.mp hopen.1
  by_cases hlong : TooLong reportData
  · rw [getTdreportBytes_tooLong hname hopen.2 hlong]
    exact iff_of_false (descriptors_opened_ne s.calls) (fun h => h ⟨hopen, hlong⟩)
  · obtain ⟨result, s', hrun, hcalls, -⟩ := getTdreportBytes_session hname hopen.2 hlong
    rw [hrun, hcalls, descriptors_session]
    exact iff_of_true rfl (fun h => hlong h.2)

end Report

section Quote

variable {machine : Machine} {s : State} {tdreport : Bytes} {name : NodeName}

theorem getTdquoteBytes_some {reportData : Option Bytes} {s' : State}
    (h : getTdreportBytes machine reportData s = (.ok (some tdreport), s')) :
    getTdquoteBytes machine reportData s = requestTdquote machine tdreport s' := Py.bind_ok h

theorem getTdquoteBytes_none {reportData : Option Bytes} {s' : State}
    (h : getTdreportBytes machine reportData s = (.ok none, s')) :
    getTdquoteBytes machine reportData s = (.ok none, s') := Py.bind_ok h

theorem getTdquoteBytes_raised {reportData : Option Bytes} {s' : State} {e : Exn}
    (h : getTdreportBytes machine reportData s = (.raised e, s')) :
    getTdquoteBytes machine reportData s = (.raised e, s') := Py.bind_raised h

variable (hl : tdreport.length = TDX_REPORT_LEN)
include hl

theorem requestTdquote_1_0 (hname : s.node.deviceNodeName = some .DEVICE_NODE_NAME_1_0) :
    descriptors (requestTdquote machine tdreport s).2.calls = descriptors s.calls := by
  have hcreate := Quote.createTdxQuoteReq_eq hl hname machine.addressofTdquote.toNat_lt
  obtain ⟨s', hnode, hnamed, hcalls⟩ : ∃ s', onNode
      (DeviceNode.createTdxQuoteReq machine.addressofTdquote.toNat tdreport) s =
        (.ok (some (leBytes 8 machine.addressofTdquote.toNat ++ leBytes 8 TDX_QUOTE_LEN)), s') ∧
      s'.node.deviceNodeName = some .DEVICE_NODE_NAME_1_0 ∧ s'.calls = s.calls := by
    refine ⟨_, Py.within_ok hcreate, hname, rfl⟩
  rw [requestTdquote, Py.bind_ok hnode, Py.get_bind_apply, hnamed]
  dsimp only
  by_cases hopens : machine.opens s'.calls = true
  case neg =>
    rw [if_pos hopens, ← hcalls]
    rfl
  have hoperator : operatorOf .DEVICE_NODE_NAME_1_0 .GET_TDQUOTE = .ok TDX_CMD_GET_QUOTE_V1_0 := rfl
  have hopened : onCalls (call .opened) s' = (.ok (), { s' with calls := s'.calls ++ [.opened] }) := rfl
  rw [if_neg (not_not_intro hopens), Py.bind_ok hopened, hoperator, Py.lift_ok_bind_apply,
    Outcome.ofOption_some, Py.lift_ok_bind_apply]
  have hioctl : ∀ req, onCalls (ioctlAndClose machine TDX_CMD_GET_QUOTE_V1_0 req)
      { s' with calls := s'.calls ++ [.opened] } =
      (.ok (machine.ioctlSucceeds (s'.calls ++ [.opened, .ioctl TDX_CMD_GET_QUOTE_V1_0 req])),
        { s' with calls := s'.calls ++ session TDX_CMD_GET_QUOTE_V1_0 req }) := by
    intro req
    rw [onCalls, Py.within_apply, ioctlAndClose_eq]
    simp [session]
  rw [Py.bind_ok (hioctl _), ← hcalls]
  split
  · exact descriptors_session _ _ _
  · exact descriptors_session _ _ _

/-- A node of 1.5 has no operator for a quote, which is found out when the node is open. -/
theorem requestTdquote_1_5 (hname : s.node.deviceNodeName = some .DEVICE_NODE_NAME_1_5) :
    (requestTdquote machine tdreport s).2.calls =
      if machine.opens s.calls then s.calls ++ [.opened] else s.calls := by
  have hcreate : DeviceNode.createTdxQuoteReq machine.addressofTdquote.toNat tdreport
      s.node.toDeviceNode = (.ok none, s.node.toDeviceNode) := by
    rw [DeviceNode.createTdxQuoteReq, Quote.qgsMsgQuoteReq_eq hl, Py.lift_ok_bind_apply,
      Py.get_bind_apply, hname]
    rfl
  have hnode : onNode (DeviceNode.createTdxQuoteReq machine.addressofTdquote.toNat tdreport) s =
      (.ok none, s) := Py.within_ok hcreate
  rw [requestTdquote, Py.bind_ok hnode, Py.get_bind_apply, hname]
  dsimp only
  by_cases hopens : machine.opens s.calls = true
  · rw [if_neg (not_not_intro hopens), if_pos hopens]
    rfl
  · rw [if_pos hopens, if_neg hopens]
    rfl

end Quote

section Calls

/-- After the report a node of 1.5 is opened again. -/
def OpensAgain (machine : Machine) (s : State) (reportData : Option Bytes) : Prop :=
  let req := reportRequest machine .DEVICE_NODE_NAME_1_5 reportData
  s.node.deviceNodeName = some .DEVICE_NODE_NAME_1_5 ∧
    machine.ioctlSucceeds (s.calls ++ [.opened, .ioctl TDX_CMD_GET_REPORT0_V1_5 req]) = true ∧
    machine.opens (s.calls ++ session TDX_CMD_GET_REPORT0_V1_5 req) = true

def QuoteLeaks (machine : Machine) (s : State) (reportData : Option Bytes) : Prop :=
  (s.node.deviceNodeName.isSome ∧ machine.opens s.calls = true) ∧
    (TooLong reportData ∨ OpensAgain machine s reportData)

variable {machine : Machine} {s : State} {reportData : Option Bytes}

theorem quote_kept_iff :
    descriptors (getTdquoteBytes machine reportData s).2.calls = descriptors s.calls ↔
      ¬ QuoteLeaks machine s reportData := by
  by_cases hopen : s.node.deviceNodeName.isSome ∧ machine.opens s.calls = true
  case neg =>
    rw [getTdquoteBytes_none (getTdreportBytes_closed hopen)]
    exact iff_of_true rfl (fun h => hopen h.1)
  obtain ⟨name, hname⟩ := Option.isSome_iff_exists.mp hopen.1
  by_cases hlong : TooLong reportData
  · rw [getTdquoteBytes_raised (getTdreportBytes_tooLong hname hopen.2 hlong)]
    exact iff_of_false (descriptors_opened_ne s.calls) (fun h => h ⟨hopen, .inl hlong⟩)
  obtain ⟨result, s', hrun, hcalls, hnode, hsome, hlen⟩ := getTdreportBytes_session hname hopen.2 hlong
  have hname' : s'.node.deviceNodeName = some name := by rw [hnode, hname]
  have hsame : descriptors s'.calls = descriptors s.calls := by rw [hcalls, descriptors_session]
  cases result with
  | none =>
    rw [getTdquoteBytes_none hrun, hsame]
    refine iff_of_true rfl ?_
    rintro ⟨-, hor⟩
    obtain ⟨hfive, hioctl, -⟩ := hor.resolve_left hlong
    obtain rfl : name = .DEVICE_NODE_NAME_1_5 := Option.some.inj (hname.symm.trans hfive)
    exact absurd (hsome.mpr hioctl) (by simp)
  | some tdreport =>
    have hlen := hlen tdreport rfl
    rw [getTdquoteBytes_some hrun]
    cases name with
    | DEVICE_NODE_NAME_1_0 =>
      rw [requestTdquote_1_0 hlen hname', hsame]
      refine iff_of_true rfl ?_
      rintro ⟨-, hor⟩
      obtain ⟨hfive, -⟩ := hor.resolve_left hlong
      rw [hname] at hfive
      cases hfive
    | DEVICE_NODE_NAME_1_5 =>
      rw [requestTdquote_1_5 hlen hname']
      by_cases hagain : machine.opens s'.calls = true
      · rw [if_pos hagain, ← hsame]
        refine iff_of_false (descriptors_opened_ne s'.calls) (fun h => h ⟨hopen, .inr ?_⟩)
        exact ⟨hname, hsome.mp rfl, hcalls ▸ hagain⟩
      · rw [if_neg hagain, hsame]
        refine iff_of_true rfl ?_
        rintro ⟨-, hor⟩
        obtain ⟨-, -, hopens⟩ := hor.resolve_left hlong
        exact hagain (hcalls ▸ hopens)

end Calls

/-- A call of one of the functions that open the device. -/
inductive TdxCall
  | extendRtmr (raw str digest : Option PyStr) (index : Int)
  | getTdreportBytes (reportData : Option Bytes)
  | getTdquoteBytes (reportData : Option Bytes)

namespace TdxCall

/-- The system calls made when it has returned or raised. -/
def callsAfter (machine : Machine) (sha384 : HashFunction 48) (s : State) : TdxCall → Calls
  | extendRtmr raw str digest index =>
    (Rtmr.extendRtmr machine.toTdxAttestFile sha384 raw str digest index s.calls).2
  | getTdreportBytes reportData => (DeviceFile.getTdreportBytes machine reportData s).2.calls
  | getTdquoteBytes reportData => (DeviceFile.getTdquoteBytes machine reportData s).2.calls

def Leaks (machine : Machine) (s : State) : TdxCall → Prop
  | extendRtmr raw str digest index =>
    ExtendLeaks machine.toTdxAttestFile s.calls raw str digest index
  | getTdreportBytes reportData => ReportLeaks machine s reportData
  | getTdquoteBytes reportData => QuoteLeaks machine s reportData

end TdxCall

/-- The descriptors are those from before the call, except when the device was
opened and the function ended between that and the request. -/
theorem descriptors_kept_iff (machine : Machine) (sha384 : HashFunction 48) (s : State)
    (tdxCall : TdxCall) :
    descriptors (tdxCall.callsAfter machine sha384 s) = descriptors s.calls ↔
      ¬ tdxCall.Leaks machine s := by
  cases tdxCall with
  | extendRtmr raw str digest index => exact extend_kept_iff
  | getTdreportBytes reportData => exact report_kept_iff
  | getTdquoteBytes reportData => exact quote_kept_iff

/-- A machine on which every call succeeds. -/
def workingMachine : Machine :=
  { toTdxAttestFile := workingFile
    addressofReportdata := 0, addressofTdreport := 0, addressofTdquote := 0
    memory := fun _ _ => 0, reply := fun _ req => req, length_reply := fun _ _ => rfl }

def freshState (name : NodeName) : State :=
  { node := { deviceNodeName := some name, tdquote := none, reportdata := none, tdreport := none }
    calls := [] }

/-- A digest of one byte, a text with a lone surrogate, report data of 65 bytes, and a
quote from a node of 1.5: each leaves a descriptor open. -/
theorem descriptors_leak :
    (extendRtmr workingFile emptySha384 none none (some (ofStr "00".toList)) 2 [] =
        (.ok (some .EXTEND_FAILURE_WITH_WRONG_INPUT), [.opened])) ∧
      (extendRtmr workingFile emptySha384 none (some [.surrogate 0x480]) none 2 [] =
        (.raised .unicodeEncodeError, [.opened])) ∧
      (getTdreportBytes workingMachine (some (List.replicate 65 0))
        (freshState .DEVICE_NODE_NAME_1_0)).1 = .raised .typeError ∧
      (getTdquoteBytes workingMachine none (freshState .DEVICE_NODE_NAME_1_5)).1 =
        .raised .keyError ∧
      descriptors ((TdxCall.extendRtmr none none (some (ofStr "00".toList)) 2).callsAfter
        workingMachine emptySha384 (freshState .DEVICE_NODE_NAME_1_5)) ≠ descriptors [] ∧
      descriptors ((TdxCall.extendRtmr none (some [.surrogate 0x480]) none 2).callsAfter
        workingMachine emptySha384 (freshState .DEVICE_NODE_NAME_1_5)) ≠ descriptors [] ∧
      descriptors ((TdxCall.getTdreportBytes (some (List.replicate 65 0))).callsAfter workingMachine
        emptySha384 (freshState .DEVICE_NODE_NAME_1_0)) ≠ descriptors [] ∧
      descriptors ((TdxCall.getTdquoteBytes none).callsAfter workingMachine emptySha384
        (freshState .DEVICE_NODE_NAME_1_5)) ≠ descriptors [] := by
  refine ⟨by decide +kernel, by decide +kernel, by decide +kernel, by decide +kernel,
    by decide +kernel, by decide +kernel, by decide +kernel, by decide +kernel⟩

end TdxTools.Attestation.Descriptors
