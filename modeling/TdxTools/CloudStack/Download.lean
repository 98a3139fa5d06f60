import TdxTools.Python.Files

namespace TdxTools.CloudStack.Download

open Python.ByteString Python.Text Python.Path Python.Exec Python.Files

def MB : Nat := 1024 * 1024

inductive ContentLength
  | missing
  | notANumber
  | number (n : Int)
  deriving DecidableEq

/-- What the server does: an exception of `requests`, or a response whose
chunks arrive until the stream ends or breaks off. -/
inductive Reply
  | failed (e : Exn)
  | success (contentLength : ContentLength) (chunks : List Bytes)
  deriving DecidableEq

structure Attempt where
  reply : Reply
  fault : WriteFault
  deriving DecidableEq

/-- The loop over the chunks. The progress is computed after each of them and
divides by the size of the file. -/
def receive (fileSize : Int) : List Bytes → Bytes → Outcome Unit × Bytes
  | [], content => (.ok (), content)
  | chunk :: chunks, content =>
    if fileSize = 0 then (.raised .zeroDivisionError, content ++ chunk)
    else receive fileSize chunks (content ++ chunk)

/-- `file_size / chunk_size` has no value as a float. -/
def Overflows (fileSize : Int) : Prop := (2 ^ 1024 - 2 ^ 970) * MB ≤ fileSize.natAbs

instance (fileSize : Int) : Decidable (Overflows fileSize) := inferInstanceAs (Decidable (_ ≤ _))

def stream : ContentLength → List Bytes → Outcome Unit × Bytes
  | .missing, chunks => receive 0 chunks []
  | .notANumber, _ => (.raised .valueError, [])
  | .number fileSize, chunks =>
    if Overflows fileSize then (.raised .overflowError, []) else receive fileSize chunks []

namespace Attempt

/-- What `run` comes to. An error of the file or of the stream is only logged. -/
def outcome (a : Attempt) : Outcome Unit :=
  match a.reply, a.fault with
  | .failed e, _ => .raised e
  | .success _ _, .notOpened => .ok ()
  | .success contentLength chunks, .none => (stream contentLength chunks).1
  | .success contentLength chunks, .cutAfter n =>
    if n < (stream contentLength chunks).2.length then .ok () else (stream contentLength chunks).1

def received (a : Attempt) : Option Bytes :=
  match a.reply, a.fault with
  | .failed _, _ => none
  | .success _ _, .notOpened => none
  | .success contentLength chunks, .none => some (stream contentLength chunks).2
  | .success contentLength chunks, .cutAfter n => some ((stream contentLength chunks).2.take n)

end Attempt

/-- `DownloadExecutor.run`, where an attempt on a path that cannot be opened
does not open it. -/
def DownloadExecutor.run (env : Env) (attempt : Attempt) (filepath : Str) : Py World Unit := fun w =>
  (attempt.outcome,
    match attempt.received with
    | some content => w.put (resolve env.cwd filepath) content
    | none => w)

end TdxTools.CloudStack.Download
