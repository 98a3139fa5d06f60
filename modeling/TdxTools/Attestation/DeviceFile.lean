import TdxTools.Attestation.Quote
import TdxTools.Attestation.Rtmr

namespace TdxTools.Attestation.DeviceFile

open Python.ByteString Python.Exec Python.Struct Utility Rtmr

def TDX_REPORTDATA_LEN : Nat := 64
def TDX_REPORT_LEN : Nat := 1024

/-- `int.from_bytes(struct.pack('Hcb', size, b'T', nr), 'big')`. -/
def tdxCmd (size nr : Nat) : Nat := beNat (leBytes 2 size ++ [0x54] ++ leBytes 1 nr)

def TDX_CMD_GET_REPORT_V1_0 : Nat := tdxCmd 0x08c0 1
def TDX_CMD_GET_QUOTE_V1_0 : Nat := tdxCmd 0x0880 2
def TDX_CMD_GET_REPORT0_V1_5 : Nat := tdxCmd 0x40c4 1

inductive Operation
  | GET_TDREPORT
  | GET_TDQUOTE
  deriving DecidableEq

/-- The `DEVICE_OPERATOR_MAPS`. Their values are numbers, so that the tests of
an operator for `None` never succeed. -/
def operators : NodeName → List (Operation × Nat)
  | .DEVICE_NODE_NAME_1_0 =>
    [(.GET_TDREPORT, TDX_CMD_GET_REPORT_V1_0), (.GET_TDQUOTE, TDX_CMD_GET_QUOTE_V1_0)]
  | .DEVICE_NODE_NAME_1_5 => [(.GET_TDREPORT, TDX_CMD_GET_REPORT0_V1_5)]

/-- `self.operators[operation]`. -/
def operatorOf (name : NodeName) (operation : Operation) : Outcome Nat :=
  .ofOption .keyError ((operators name).lookup operation)

/-- The object with the buffers of a report request. -/
structure ReportNode extends DeviceNode where
  reportdata : Option Bytes
  tdreport : Option Bytes

/-- What the calls meet: the device node, the addresses of the buffers, and what
the driver leaves in the memory and in the bytes of a request. -/
structure Machine extends TdxAttestFile where
  addressofReportdata : UInt64
  addressofTdreport : UInt64
  addressofTdquote : UInt64
  memory : Calls → Nat → UInt8
  reply : Calls → Bytes → Bytes
  length_reply : ∀ calls req, (reply calls req).length = req.length

structure State where
  node : ReportNode
  calls : Calls

section Functions

variable {α : Type} (machine : Machine)

def onCalls (x : Py Calls α) : Py State α := .within State.calls (fun calls s => { s with calls }) x

def onNode (x : Py DeviceNode α) : Py State α :=
  .within (fun s => s.node.toDeviceNode)
    (fun node s => { s with node := { s.node with toDeviceNode := node } }) x

/-- `"BQLQL"` with the bytes that align the first address. -/
def reportFmt : List Fmt := [.uint 1, .raw 7, .uint 8, .uint 8, .uint 8, .uint 8]

/-- The report data, filled up with zeros. -/
def paddedReportData (reportData : Option Bytes) : Bytes :=
  let length := (reportData.map List.length).getD 0
  reportData.getD [] ++ List.replicate (TDX_REPORTDATA_LEN - length) 0

def createTdxReportReq (reportData : Option Bytes) : Py State (Option Bytes) := do
  let length := (reportData.map List.length).getD 0
  if length > TDX_REPORTDATA_LEN then pure none
  else
    let s ← .get
    match s.node.deviceNodeName with
    | some .DEVICE_NODE_NAME_1_0 =>
      .modify (fun s => { s with node := { s.node with
        reportdata := some (paddedReportData reportData)
        tdreport := some (List.replicate TDX_REPORT_LEN 0) } })
      let req ← .lift (.ofOption .structError (pack reportFmt
        (0, List.replicate 7 0, machine.addressofReportdata.toNat, TDX_REPORTDATA_LEN,
          machine.addressofTdreport.toNat, TDX_REPORT_LEN, ())))
      pure (some req)
    | some .DEVICE_NODE_NAME_1_5 =>
      pure (some (paddedReportData reportData ++ List.replicate TDX_REPORT_LEN 0))
    | none => pure none

def getTdreportBytesFromReq (self : DeviceNode) (memory : Nat → UInt8) (req : Bytes) :
    Outcome (Option Bytes) :=
  match self.deviceNodeName with
  | some .DEVICE_NODE_NAME_1_0 =>
    match unpack reportFmt req with
    | none => .raised .structError
    | some (_, _, _, _, address, _, ()) => .ok (some (readMemory memory address TDX_REPORT_LEN))
  | some .DEVICE_NODE_NAME_1_5 => .ok (some (req.drop TDX_REPORTDATA_LEN))
  | none => .ok none

/-- `fcntl.ioctl` and `os.close` behind it, after an `OSError` too. -/
def ioctlAndClose (operator : Nat) (req : Bytes) : Py Calls Bool := do
  call (.ioctl operator req)
  let calls ← .get
  if machine.ioctlSucceeds calls then
    call .closed
    pure true
  else
    call .closed
    pure false

/-- The request after the call. Only that of 1.5 is a `bytearray` that the driver
writes into. -/
def answered (name : NodeName) (calls : Calls) (req : Bytes) : Bytes :=
  match name with
  | .DEVICE_NODE_NAME_1_0 => req
  | .DEVICE_NODE_NAME_1_5 => machine.reply calls req

/-- `get_tdreport_bytes` on the open node. -/
def requestTdreport (name : NodeName) (operator : Nat) (reportData : Option Bytes) :
    Py State (Option Bytes) := do
  let req ← createTdxReportReq machine reportData
  -- `ioctl` takes no `None`; its `TypeError` is no `OSError`
  let req ← .lift (.ofOption .typeError req)
  let executed ← onCalls (ioctlAndClose machine operator req)
  if executed then
    let s ← .get
    .lift (getTdreportBytesFromReq s.node.toDeviceNode (machine.memory s.calls)
      (answered machine name s.calls req))
  else pure none

def getTdreportBytes (reportData : Option Bytes) : Py State (Option Bytes) := do
  let s ← .get
  match s.node.deviceNodeName with
  | none => pure none
  | some name =>
    let operator ← .lift (operatorOf name .GET_TDREPORT)
    if ¬ machine.opens s.calls then pure none
    else
      onCalls (call .opened)
      requestTdreport machine name operator reportData

/-- `get_tdquote_bytes` once there is a report. The node is opened before the
operator is looked up. -/
def requestTdquote (tdreport : Bytes) : Py State (Option Bytes) := do
  let tdquoteReq ← onNode (DeviceNode.createTdxQuoteReq machine.addressofTdquote.toNat tdreport)
  let s ← .get
  match s.node.deviceNodeName with
  | none => .raise .typeError
  | some name =>
    if ¬ machine.opens s.calls then pure none
    else
      onCalls (call .opened)
      let operator ← .lift (operatorOf name .GET_TDQUOTE)
      let tdquoteReq ← .lift (.ofOption .typeError tdquoteReq)
      let executed ← onCalls (ioctlAndClose machine operator tdquoteReq)
      if executed then
        let s ← .get
        .lift (DeviceNode.getTdquoteBytesFromReq s.node.toDeviceNode (machine.memory s.calls)
          tdquoteReq)
      else pure none

def getTdquoteBytes (reportData : Option Bytes) : Py State (Option Bytes) := do
  let tdreportBytes ← getTdreportBytes machine reportData
  match tdreportBytes with
  | none => pure none
  | some tdreport => requestTdquote machine tdreport

end Functions

end TdxTools.Attestation.DeviceFile
