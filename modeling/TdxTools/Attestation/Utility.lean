import TdxTools.Python.Exec
import TdxTools.Python.Struct
import TdxTools.Python.Text

namespace TdxTools.Attestation.Utility

open Python.ByteString Python.Text Python.Exec Python.Struct

def TDX_QUOTE_LEN : Nat := 4 * 4096

inductive NodeName
  | DEVICE_NODE_NAME_1_0
  | DEVICE_NODE_NAME_1_5
  deriving DecidableEq

def DEVICE_NODE_NAME_DEPRECATED : Str := "/dev/tdx-attest".toList

def NodeName.path : NodeName → Str
  | .DEVICE_NODE_NAME_1_0 => "/dev/tdx-guest".toList
  | .DEVICE_NODE_NAME_1_5 => "/dev/tdx_guest".toList

theorem NodeName.path_ne_deprecated (name : NodeName) :
    some name.path ≠ some DEVICE_NODE_NAME_DEPRECATED := by
  cases name <;> decide

structure DeviceNode where
  deviceNodeName : Option NodeName
  tdquote : Option Bytes
  deriving DecidableEq

/-- The bytes behind an address, as `from_address` sees them. -/
def readMemory (memory : Nat → UInt8) (address n : Nat) : Bytes :=
  (List.range n).map (fun i => memory (address + i))

@[simp] theorem length_readMemory (memory : Nat → UInt8) (address n : Nat) :
    (readMemory memory address n).length = n := by
  simp [readMemory]

theorem take_drop_readMemory (memory : Nat → UInt8) (address : Nat) {n pos w : Nat}
    (h : pos + w ≤ n) : ((readMemory memory address n).drop pos).take w =
      readMemory memory (address + pos) w := by
  apply List.ext_getElem?
  intro k
  by_cases hk : k < w
  · rw [List.getElem?_take_of_lt hk, List.getElem?_drop, readMemory, readMemory, List.getElem?_map,
      List.getElem?_map, List.getElem?_range (by omega), List.getElem?_range hk, Option.map_some,
      Option.map_some, Nat.add_assoc]
  · rw [List.getElem?_eq_none (by simp; omega), List.getElem?_eq_none (by simp; omega)]

namespace DeviceNode

/-- The four-byte fields and the two-byte fields of the QGS header, and the
two sizes behind it. -/
def qgsFmt (n : Nat) : List Fmt :=
  [.uint 2, .uint 2, .uint 4, .uint 4, .uint 4, .uint 4, .uint 4, .raw n]

def qgsMsgQuoteReq (tdreport : Option Bytes) : Outcome Bytes :=
  let majorVersion := 1
  let minorVersion := 0
  let msgType := 0
  let errorCode := 0
  let idListSize := 0
  match tdreport with
  | none => .raised .structError
  | some tdreport =>
    let reportSize := tdreport.length
    let msgSize := 16 + 8 + reportSize
    .ofOption .structError (pack (qgsFmt reportSize)
      (majorVersion, minorVersion, msgType, msgSize, errorCode, reportSize, idListSize, tdreport, ()))

def qgsMsgQuoteResp (buf : Bytes) : Outcome (Option Bytes) :=
  -- a negative width is not a format
  if buf.length < 16 + 8 then .raised .structError
  else
    match unpack (qgsFmt (buf.length - (16 + 8))) buf with
    | none => .raised .structError
    | some (majorVersion, minorVersion, msgType, _, errorCode, _, quoteSize, quote, ()) =>
      if majorVersion ≠ 1 ∧ minorVersion ≠ 0 ∧ msgType ≠ 1 ∧ errorCode ≠ 0 then .ok none
      else .ok (some (quote.take quoteSize))

def quoteHdrFmt (reportSize : Nat) : List Fmt :=
  [.uint 8, .uint 8, .uint 4, .uint 4, .raw 4, .raw reportSize]

/-- The request holds the address of the buffer that the object keeps. A
message of 2 ^ 32 bytes, whose length has no four bytes, is not built. -/
def createTdxQuoteReq (addressof : Nat) (tdreport : Bytes) : Py DeviceNode (Option Bytes) := do
  let reportSize := tdreport.length
  let version := 1
  let status := 0
  let outLen := 0
  let qgsMsg ← .lift (qgsMsgQuoteReq (some tdreport))
  let inLen := qgsMsg.length + 4
  let self ← .get
  match self.deviceNodeName with
  | some .DEVICE_NODE_NAME_1_0 =>
    let tdquoteHdr ← .lift (.ofOption .structError (pack (quoteHdrFmt reportSize)
      (version, status, inLen, outLen, beBytes 4 qgsMsg.length, qgsMsg, ())))
    let buffer : Bytes := List.replicate TDX_QUOTE_LEN 0
    .modify (fun self => { self with tdquote := some buffer })
    if tdquoteHdr.length ≤ TDX_QUOTE_LEN then
      .modify (fun self =>
        { self with tdquote := some (setSlice buffer 0 tdquoteHdr.length tdquoteHdr) })
      let req ← .lift (.ofOption .structError
        (pack [.uint 8, .uint 8] (addressof, TDX_QUOTE_LEN, ())))
      pure (some req)
    else .raise .valueError
  | some .DEVICE_NODE_NAME_1_5 => pure none
  | none => pure none

def getTdquoteBytesFromReq (self : DeviceNode) (memory : Nat → UInt8) (req : Bytes) :
    Outcome (Option Bytes) :=
  match self.deviceNodeName with
  | some .DEVICE_NODE_NAME_1_0 =>
    match unpack [.uint 8, .uint 8] req with
    | none => .raised .structError
    | some (bufAddr, bufLen, ()) =>
      let buf := readMemory memory bufAddr bufLen
      if bufLen < 24 then .raised .structError
      else
        match unpack [.uint 8, .uint 8, .uint 4, .uint 4, .raw (bufLen - 24)] buf with
        | none => .raised .structError
        | some (_, _, _, outLen, data, ()) =>
          let dataLen := beNat (data.take 4)
          if (dataLen : Int) ≠ (outLen : Int) - 4 then .ok none
          else qgsMsgQuoteResp (data.drop 4)
  | some .DEVICE_NODE_NAME_1_5 => .ok none
  | none => .ok none

end DeviceNode

structure ModuleVersion where
  releaseNames : List Str
  major : Nat
  minor : Nat
  isDebug : Bool := false
  deriving DecidableEq, Repr

namespace ModuleVersion

def VALID_SVN_LENGTH : Nat := 16

def toHex (self : ModuleVersion) : Nat := self.major * 16 * 16 + self.minor

def VALID_MODULE_VERSIONS : List ModuleVersion :=
  [ { releaseNames := ["1.0".toList], major := 0, minor := 0, isDebug := true },
    { releaseNames := ["1.0".toList], major := 0, minor := 3 },
    { releaseNames := ["1.4".toList, "1.5".toList], major := 1, minor := 0, isDebug := true },
    { releaseNames := ["1.4".toList, "1.5".toList], major := 1, minor := 3 },
    { releaseNames := ["2.0".toList], major := 2, minor := 0, isDebug := true },
    { releaseNames := ["2.0".toList], major := 2, minor := 3 } ]

/-- The version of an SVN; the second result of the source says whether there is one. -/
def fromBytes (teeTcbSvn : Bytes) : Option ModuleVersion :=
  if teeTcbSvn.length ≠ VALID_SVN_LENGTH then none
  else VALID_MODULE_VERSIONS.find? (fun version => leBytes 2 version.toHex = teeTcbSvn.take 2)

end ModuleVersion

end TdxTools.Attestation.Utility
