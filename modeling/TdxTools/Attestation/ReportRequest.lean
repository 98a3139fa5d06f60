import TdxTools.Attestation.Descriptors
import TdxTools.Attestation.ReportParsing

namespace TdxTools.Attestation.ReportRequest

open Python.ByteString Python.Text Python.Exec Python.Struct Utility Rtmr DeviceFile Descriptors
open ReportParsing

/-- A guest: its device node and which of the node's names exist in it. -/
structure Guest extends Machine where
  pathExists : Str → Bool

def DEVICE_OPERATOR_MAPS : List NodeName := [.DEVICE_NODE_NAME_1_0, .DEVICE_NODE_NAME_1_5]

/-- The second search is the first one made again. -/
def determineDeviceNode (pathExists : Str → Bool) : Option NodeName :=
  if pathExists DEVICE_NODE_NAME_DEPRECATED then none
  else
    match DEVICE_OPERATOR_MAPS.find? (fun dom => pathExists dom.path) with
    | some dom => some dom
    | none => DEVICE_OPERATOR_MAPS.find? (fun dom => pathExists dom.path)

def newDeviceNode (pathExists : Str → Bool) : ReportNode :=
  { deviceNodeName := determineDeviceNode pathExists, tdquote := none, reportdata := none
    tdreport := none }

section Requests

variable (guest : Guest)

/-- `TdReport.get_td_report`. Without report bytes their length is asked of `None`. -/
def getTdReport (reportData : Option Bytes) : Py Calls TdReport :=
  .within (fun calls => { node := newDeviceNode guest.pathExists, calls }) (fun s _ => s.calls) do
    let tdreportBytes ← getTdreportBytes guest.toMachine reportData
    let tdreportBytes ← .lift (.ofOption .typeError tdreportBytes)
    let s ← .get
    .lift (TdReport.init tdreportBytes s.node.toDeviceNode)

end Requests

section Reports

variable {machine : Machine} {s : State} {name : NodeName}

/-- The report that the driver leaves behind these calls. -/
def reportLeft (machine : Machine) (name : NodeName) (calls : Calls) (reportData : Option Bytes) :
    Bytes :=
  match name with
  | .DEVICE_NODE_NAME_1_0 =>
    readMemory (machine.memory calls) machine.addressofTdreport.toNat TDX_REPORT_LEN
  | .DEVICE_NODE_NAME_1_5 =>
    (machine.reply calls (reportRequest machine .DEVICE_NODE_NAME_1_5 reportData)).drop
      TDX_REPORTDATA_LEN

theorem length_reportLeft {reportData : Option Bytes} (h : ¬ TooLong reportData) (calls : Calls) :
    (reportLeft machine name calls reportData).length = TDX_REPORT_LEN := by
  cases name with
  | DEVICE_NODE_NAME_1_0 => exact length_readMemory _ _ _
  | DEVICE_NODE_NAME_1_5 =>
    have hlen : ((reportData.map List.length).getD 0) = (reportData.getD []).length := by
      cases reportData <;> rfl
    rw [TooLong, hlen] at h
    rw [reportLeft, List.length_drop, machine.length_reply, reportRequest, List.length_append,
      List.length_replicate, paddedReportData, List.length_append, List.length_replicate, hlen]
    omega

theorem bytesFromReq_eq (reportData : Option Bytes) {self : DeviceNode}
    (hname : self.deviceNodeName = some name) (calls : Calls) :
    getTdreportBytesFromReq self (machine.memory calls)
        (answered machine name calls (reportRequest machine name reportData)) =
      .ok (some (reportLeft machine name calls reportData)) := by
  rw [getTdreportBytesFromReq, hname]
  cases name with
  | DEVICE_NODE_NAME_1_0 =>
    obtain ⟨req, hpack, -, hunpack⟩ := unpack_pack reportFmt _ (fits_reportVals machine)
    have hreq : answered machine .DEVICE_NODE_NAME_1_0 calls
        (reportRequest machine .DEVICE_NODE_NAME_1_0 reportData) = req := by
      rw [answered, reportRequest, hpack]
      rfl
    dsimp only
    rw [hreq, hunpack]
    rfl
  | DEVICE_NODE_NAME_1_5 => rfl

/-- The calls of a whole request for a report. -/
def reportSession (machine : Machine) (name : NodeName) (reportData : Option Bytes) : Calls :=
  session (reportOperator name) (reportRequest machine name reportData)

/-- The driver is asked with these calls made before. -/
def Answers (machine : Machine) (name : NodeName) (calls : Calls) (reportData : Option Bytes) : Prop :=
  machine.opens calls = true ∧ machine.ioctlSucceeds (calls ++
    [.opened, .ioctl (reportOperator name) (reportRequest machine name reportData)]) = true

instance (machine : Machine) (name : NodeName) (calls : Calls) (reportData : Option Bytes) :
    Decidable (Answers machine name calls reportData) := inferInstanceAs (Decidable (_ ∧ _))

variable (machine) in
theorem getTdreportBytes_eq {reportData : Option Bytes} (h : ¬ TooLong reportData)
    (hname : s.node.deviceNodeName = some name) : ∃ s', getTdreportBytes machine reportData s =
      (.ok (if Answers machine name s.calls reportData then
        some (reportLeft machine name (s.calls ++ reportSession machine name reportData) reportData)
        else none), s') ∧
      s'.node.toDeviceNode = s.node.toDeviceNode ∧
      (Answers machine name s.calls reportData →
        s'.calls = s.calls ++ reportSession machine name reportData) := by
  by_cases hopens : machine.opens s.calls = true
  case neg =>
    have hno : ¬ Answers machine name s.calls reportData := fun ha => hopens ha.1
    exact ⟨s, by rw [if_neg hno, getTdreportBytes_closed (fun ha => hopens ha.2)], rfl,
      fun ha => absurd ha hno⟩
  let req := reportRequest machine name reportData
  let opened : State := { s with calls := s.calls ++ [.opened] }
  obtain ⟨s', hcreate, hcalls, hnode⟩ := createTdxReportReq_eq (s := opened) machine h hname
  have hioctl : onCalls (ioctlAndClose machine (reportOperator name) req) s' =
      (.ok (machine.ioctlSucceeds (s.calls ++ [.opened, .ioctl (reportOperator name) req])),
        { s' with calls := s.calls ++ session (reportOperator name) req }) := by
    rw [onCalls, Py.within_apply, hcalls, ioctlAndClose_eq]
    simp [opened, session]
  have hname' : s'.node.deviceNodeName = some name := by
    rw [hnode]
    exact hname
  rw [getTdreportBytes_opened hname hopens, requestTdreport, Py.bind_ok hcreate,
    Outcome.ofOption_some, Py.lift_ok_bind_apply, Py.bind_ok hioctl]
  refine ⟨{ s' with calls := s.calls ++ session (reportOperator name) req }, ?_, hnode, fun _ => rfl⟩
  by_cases hok : machine.ioctlSucceeds (s.calls ++ [.opened, .ioctl (reportOperator name) req]) = true
  · have hanswers : Answers machine name s.calls reportData := ⟨hopens, hok⟩
    rw [if_pos hok, Py.get_bind_apply, if_pos hanswers, Py.lift_apply]
    exact congrArg (·, _) (bytesFromReq_eq reportData hname' _)
  · have hno : ¬ Answers machine name s.calls reportData := fun ha => hok ha.2
    rw [if_neg hok, if_neg hno]
    rfl

end Reports

section TdReports

variable {guest : Guest} {reportData : Option Bytes} {calls : Calls}

/-- The bytes of a register in the bytes of a report. -/
def registerOf (report : Bytes) (i : Nat) : Bytes :=
  slice report (0x2d0 + 0x30 * i) (0x2d0 + 0x30 * (i + 1))

def TdInfo.rtmr (info : TdInfo) : Nat → Option Bytes
  | 0 => info.rtmr_0
  | 1 => info.rtmr_1
  | 2 => info.rtmr_2
  | 3 => info.rtmr_3
  | _ => none

theorem rtmr_of_measurements {report : Bytes} {info : TdInfo}
    (h : info.measurements =
      (pieces (report.drop 0x200) 0 TdInfo.measurementWidths).map some) :
    ∀ i < 4, TdInfo.rtmr info i = some (registerOf report i) := by
  simp only [TdInfo.measurements, TdInfo.measurementWidths, pieces, slice_drop, List.map_cons,
    List.map_nil, List.cons.injEq] at h
  obtain ⟨-, -, -, -, -, -, h0, h1, h2, h3, -⟩ := h
  intro i hi
  obtain rfl | rfl | rfl | rfl : i = 0 ∨ i = 1 ∨ i = 2 ∨ i = 3 := by omega
  · exact h0
  · exact h1
  · exact h2
  · exact h3

variable (guest) in
theorem getTdReport_eq (h : ¬ TooLong reportData) (calls : Calls) :
    (∃ name report, determineDeviceNode guest.pathExists = some name ∧
      Answers guest.toMachine name calls reportData ∧
      TdReport.init (reportLeft guest.toMachine name
        (calls ++ reportSession guest.toMachine name reportData) reportData) ⟨some name, none⟩ =
          .ok report ∧
      getTdReport guest reportData calls =
        (.ok report, calls ++ reportSession guest.toMachine name reportData)) ∨
    ((∀ name, determineDeviceNode guest.pathExists = some name →
        ¬ Answers guest.toMachine name calls reportData) ∧
      (getTdReport guest reportData calls).1 = .raised .typeError) := by
  let s : State := { node := newDeviceNode guest.pathExists, calls }
  cases hname : determineDeviceNode guest.pathExists with
  | none =>
    have hclosed : getTdreportBytes guest.toMachine reportData s = (.ok none, s) := by
      apply getTdreportBytes_closed
      rintro ⟨hsome, -⟩
      have hnode : s.node.deviceNodeName = none := hname
      rw [hnode] at hsome
      cases hsome
    refine .inr ⟨fun name h => absurd h (by simp), ?_⟩
    rw [getTdReport, Py.within_apply, Py.bind_ok hclosed]
    rfl
  | some name =>
    obtain ⟨s', hrun, hnode, hcalls⟩ := getTdreportBytes_eq guest.toMachine (s := s) h hname
    by_cases hanswers : Answers guest.toMachine name calls reportData
    · rw [if_pos hanswers] at hrun
      have hnode' : s'.node.toDeviceNode = ⟨some name, none⟩ := by
        rw [hnode, ← hname]
        rfl
      obtain ⟨report, -, hinit, -⟩ := TdReport.init_eq (length_reportLeft h _) name none
      refine .inl ⟨name, report, rfl, hanswers, hinit, ?_⟩
      rw [getTdReport, Py.within_apply, Py.bind_ok hrun, Outcome.ofOption_some, Py.lift_ok_bind_apply,
        Py.get_bind_apply, hnode', Py.lift_apply, hcalls hanswers]
      exact congrArg (·, _) hinit
    · rw [if_neg hanswers] at hrun
      refine .inr ⟨?_, ?_⟩
      · intro name' hname'
        obtain rfl := Option.some.inj hname'
        exact hanswers
      · rw [getTdReport, Py.within_apply, Py.bind_ok hrun]
        rfl

end TdReports

end TdxTools.Attestation.ReportRequest
