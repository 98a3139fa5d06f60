import TdxTools.Python.Exec
import TdxTools.Python.Struct
import TdxTools.Python.Text
import TdxTools.Attestation.Actor

namespace TdxTools.Attestation.Rtmr

open Python.ByteString Python.Text Python.Exec Python.Struct Actor

inductive DeviceCall
  | opened
  | ioctl (request : Nat) (req : Bytes)
  | closed
  deriving DecidableEq, Repr

abbrev Calls := List DeviceCall

/-- The device file `/dev/tdx_guest`. What a call meets may depend on the
calls made before. -/
structure TdxAttestFile where
  isThere : Calls → Bool
  opens : Calls → Bool
  ioctlSucceeds : Calls → Bool

def TdxAttestFile.Works (file : TdxAttestFile) : Prop :=
  ∀ calls, file.isThere calls = true ∧ file.opens calls = true ∧ file.ioctlSucceeds calls = true

inductive ExtendResult
  | EXTEND_SUCCESS
  | EXTEND_FAILURE
  | EXTEND_FAILURE_WITH_WRONG_INPUT
  deriving DecidableEq, Repr

def call (c : DeviceCall) : Py Calls Unit := .modify (fun calls => calls ++ [c])

def TDX_CMD_EXTEND_RTMR : Nat := beNat (leBytes 2 0x3180 ++ [0x54] ++ leBytes 1 3)

section Extend

variable (file : TdxAttestFile) (sha384 : HashFunction 48)

def extend (extendData : Bytes) (extendRtmrIndex : Int) : Py Calls (Option ExtendResult) := do
  let index ← .lift (.ofOption .structError extendRtmrIndex.toNat?)
  let req ← .lift (.ofOption .structError (pack [.raw 48, .uint 1] (extendData, index, ())))
  call (.ioctl TDX_CMD_EXTEND_RTMR req)
  let calls ← .get
  if file.ioctlSucceeds calls then
    call .closed
    pure (some .EXTEND_SUCCESS)
  else
    call .closed
    pure (some .EXTEND_FAILURE)

/-- Where the data has a wrong length or is no text to encode, the file stays open. -/
def extendRtmr (rawExtendData strExtendData digestExtendData : Option PyStr)
    (extendRtmrIndex : Int) : Py Calls (Option ExtendResult) := do
  let calls ← .get
  if ¬ file.isThere calls then pure none
  else if ¬ file.opens calls then pure none
  else
    call .opened
    match strExtendData, digestExtendData with
    | some s, _ =>
      let data ← .lift (.ofOption .unicodeEncodeError (encode s))
      extend file (sha384.digest data) extendRtmrIndex
    | none, some d =>
      let extendData ← .lift (.ofOption .valueError ((chars? d).bind fromhex))
      if extendData.length ≠ RTMR.RTMR_LENGTH_BY_BYTES then
        pure (some .EXTEND_FAILURE_WITH_WRONG_INPUT)
      else extend file extendData extendRtmrIndex
    | none, none =>
      let s ← .lift (.ofOption .attributeError rawExtendData)
      let extendData ← .lift (.ofOption .unicodeEncodeError (encode s))
      if extendData.length ≠ RTMR.RTMR_LENGTH_BY_BYTES then
        pure (some .EXTEND_FAILURE_WITH_WRONG_INPUT)
      else extend file extendData extendRtmrIndex

end Extend

end TdxTools.Attestation.Rtmr
