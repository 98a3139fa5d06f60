import TdxTools.CloudStack.Download
import TdxTools.Python.Url

namespace TdxTools.CloudStack.Artifacts

open Python.ByteString Python.Text Python.Path Python.Exec Python.Files Python.Url
open Download

/-- The machine and the servers that a call meets. Downloads are counted;
`dirs` gives the directories with their creation times, `untar` is what
`tarfile` finds in an archive, `extractFault` what writing its members meets.
`copyReadFails` is that the source of the copy, or the archive, cannot be opened:
a read that fails behind the opening of the destination is a `copyFault` that
cuts it. -/
structure Host where
  cwd : Place
  dirs : Place → Option Nat
  downloads : Nat → Attempt
  checksums : Nat → Attempt
  readFails : Nat → Bool
  copyReadFails : Bool
  copyFault : WriteFault
  untar : Bytes → Option (List (Str × Bytes))
  extractFault : Nat → WriteFault := fun _ => .none

structure Client where
  world : World
  downloads : Nat
  checksums : Nat

def onWorld {α : Type} (x : Py World α) : Py Client α :=
  .within Client.world (fun world c => { c with world }) x

namespace Host

/-- The surroundings of a copy. -/
def env (host : Host) : Env :=
  { Env.reliable with
    cwd := host.cwd, readFails := fun _ => host.copyReadFails, writeFault := fun _ => host.copyFault }

/-- The surroundings of the extraction of a member. -/
def extractEnv (host : Host) (k : Nat) : Env :=
  { Env.reliable with cwd := host.cwd, writeFault := fun _ => host.extractFault k }

def isdir (host : Host) (p : Str) : Bool := (host.dirs (resolve host.cwd p)).isSome

def exists_ (host : Host) (w : World) (p : Str) : Bool := w.isfile host.env p || host.isdir p

def getctime (host : Host) (w : World) (p : Str) : Outcome Nat :=
  .ofOption .fileNotFoundError
    (((w.file host.env p).map File.ctime).or (host.dirs (resolve host.cwd p)))

/-- The `k`th download to a path. -/
def attempt (host : Host) (filepath : Str) (k : Nat) : Attempt :=
  if Names filepath ∧ host.isdir filepath = false then host.downloads k
  else { host.downloads k with fault := .notOpened }

end Host

structure Artifact where
  source : Str
  sha256sum : Option Str
  schema : Str
  path : Str
  filename : Str
  deriving DecidableEq

namespace Artifact

def init (source sha256sum : Option Str) : Outcome Artifact :=
  match source with
  | none => .raised .assertionError
  | some source => do
    let result ← urlparse source
    .ok { source, sha256sum, schema := result.scheme, path := result.path
          filename := basename result.path }

def findHash (filename : Str) : List Str → Outcome (Option Str)
  | [] => .ok none
  | line :: lines =>
    match words line with
    | [hashData, name] =>
      if stripBy isWhitespace name = filename then .ok (some (stripBy isWhitespace hashData))
      else findHash filename lines
    | _ => .raised .valueError

/-- `_get_sha256sum_from_file` on what the file holds. -/
def getSha256sumFromFile (self : Artifact) (content : Option Bytes) : Outcome (Option Str) := do
  let content ← .ofOption .fileNotFoundError content
  let text ← .ofOption .unicodeDecodeError (decodeUtf8 content)
  findHash self.filename (readlines text)

/-- The property `sha256sum`. A checksum file is downloaded to a new file of
`mkstemp`, which nothing else names. -/
def sha256sumProperty (host : Host) (self : Artifact) : Py Client (Option Str) :=
  match self.sha256sum with
  | none => pure none
  | some sha256sum => do
    let result ← .lift (urlparse sha256sum)
    if result.scheme ∈ ["http".toList, "https".toList] then
      let c ← .get
      let attempt := host.checksums c.checksums
      .modify (fun c => { c with checksums := c.checksums + 1 })
      let _ ← .lift attempt.outcome
      .lift (self.getSha256sumFromFile (some (attempt.received.getD [])))
    else if result.scheme = "file".toList then
      let c ← .get
      .lift (self.getSha256sumFromFile (c.world.content host.env result.path))
    else pure (some sha256sum)

section Downloading

variable (host : Host) (sha256 : HashFunction 32) (self : Artifact)

def validateSha256sum (filepath : Str) : Py Client Bool := do
  let c ← .get
  if host.isdir filepath ∨ host.readFails c.downloads then .raise .osError
  else
    let content ← .lift (.ofOption .fileNotFoundError (c.world.content host.env filepath))
    let provider ← sha256sumProperty host self
    pure (decide (some (sha256.hexdigest content) = provider))

/-- `DownloadExecutor.download(self._source, cache_file)`. -/
def fetch (cacheFile : Str) : Py Client Unit := do
  let c ← .get
  .modify (fun c => { c with downloads := c.downloads + 1 })
  onWorld (DownloadExecutor.run host.env (host.attempt cacheFile c.downloads) cacheFile)

/-- The turns of the loop that are left. It ends with a file that was checked,
or when no turn is left. -/
def retry (cacheFile : Str) : Nat → Bool → Py Client Bool
  | 0, isDownloadNew => pure isDownloadNew
  | retries + 1, isDownloadNew => do
    let c ← .get
    if host.exists_ c.world cacheFile then
      let valid ← validateSha256sum host sha256 self cacheFile
      if valid then pure isDownloadNew
      else do
        onWorld (removeFile host.env cacheFile)
        fetch host cacheFile
        retry cacheFile retries true
    else do
      fetch host cacheFile
      retry cacheFile retries true

/-- Write the members that are left, the `k`th of the archive first. -/
def extractMembers (cacheDir : Str) : Nat → List (Str × Bytes) → Py World Unit
  | _, [] => pure ()
  | k, (name, content) :: members =>
    if host.isdir (join cacheDir name) then .raise .osError
    else do
      writeFile (host.extractEnv k) (join cacheDir name) content
      extractMembers cacheDir (k + 1) members

def extractall (cacheFile cacheDir : Str) : Py Client Unit := do
  let content ← onWorld (readFile host.env cacheFile)
  let members ← .lift (.ofOption .readError (host.untar content))
  onWorld (extractMembers host cacheDir 0 members)

def copyIfNewer (cacheFile destFile : Str) : Py Client Str := do
  let c ← .get
  let needCopy ← if ¬ host.exists_ c.world destFile then pure true else do
    let cacheFileCreated ← .lift (host.getctime c.world cacheFile)
    let destFileCreated ← .lift (host.getctime c.world destFile)
    pure (decide (cacheFileCreated > destFileCreated))
  if needCopy then
    if host.isdir cacheFile ∨ host.isdir destFile then .raise .osError
    else
      onWorld (copyfile host.env cacheFile destFile)
      pure destFile
  else pure destFile

/-- `p[:-7]`. -/
def cut (p : Str) : Str := p.take (p.length - 7)

def IsTarXz (p : Str) : Prop := "tar.xz".toList <:+ p

instance (p : Str) : Decidable (IsTarXz p) := inferInstanceAs (Decidable (_ <:+ _))

def download (destDir cacheDir : Str) : Py Client Str := do
  let c ← .get
  if ¬ host.exists_ c.world destDir then .raise .assertionError
  else if ¬ host.exists_ c.world cacheDir then .raise .assertionError
  else
    let cacheFile := join cacheDir self.filename
    let destFile := join destDir self.filename
    let isDownloadNew ← retry host sha256 self cacheFile 5 false
    if IsTarXz cacheFile then
      let c ← .get
      if isDownloadNew ∨ ¬ host.exists_ c.world (cut cacheFile) then
        extractall host cacheFile cacheDir
      copyIfNewer host (cut cacheFile) (cut destFile)
    else copyIfNewer host cacheFile destFile

/-- `Artifact.get`. -/
def get (destDir cacheDir : Str) : Py Client Str :=
  if self.schema ∈ ["http".toList, "https".toList] then
    if self.sha256sum = none then .raise .assertionError
    else download host sha256 self destDir cacheDir
  else if self.schema = "file".toList then do
    let c ← .get
    if ¬ host.exists_ c.world self.path then .raise .assertionError
    else if IsTarXz self.path then .raise .assertionError
    else pure self.path
  else .raise .assertionError

end Downloading

end Artifact

end TdxTools.CloudStack.Artifacts
