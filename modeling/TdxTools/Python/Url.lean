import TdxTools.Python.Exec
import TdxTools.Python.Path

namespace TdxTools.Python.Url

open Text Exec Python.Path

structure ParseResult where
  scheme : Str
  netloc : Str
  path : Str
  deriving DecidableEq

def isAsciiAlpha (c : Char) : Bool := c.isUpper || c.isLower

def isSchemeChar (c : Char) : Bool := isAsciiAlpha c || c.isDigit || ['+', '-', '.'].contains c

/-- The part before the first colon, where it can be a scheme, and the rest. -/
def splitScheme (url : Str) : Str × Str :=
  let before := url.takeWhile (· ≠ ':')
  if ':' ∈ url ∧ (before.head?.any isAsciiAlpha ∧ before.all isSchemeChar) then
    (lower before, url.drop (before.length + 1))
  else ([], url)

def splitNetloc (url : Str) : Str × Str :=
  if ['/', '/'] <+: url then
    ((url.drop 2).takeWhile (fun c => c ≠ '/' ∧ c ≠ '?' ∧ c ≠ '#'),
      (url.drop 2).dropWhile (fun c => c ≠ '/' ∧ c ≠ '?' ∧ c ≠ '#'))
  else ([], url)

def usesParams : List Str :=
  ["", "ftp", "hdl", "prospero", "http", "https", "shttp", "rtsp", "rtsps", "sip", "sips", "mms",
    "sftp", "tel"].map String.toList

/-- `urllib.parse.urlparse`. Of the network location only the brackets are
checked. -/
def urlparse (url : Str) : Outcome ParseResult :=
  let url := (url.dropWhile (fun c => c.toNat ≤ 32)).filter (fun c => c ∉ ['\t', '\r', '\n'])
  let (scheme, url) := splitScheme url
  let (netloc, url) := splitNetloc url
  if decide ('[' ∈ netloc) ≠ decide (']' ∈ netloc) then .raised .valueError
  else
    let path := (url.takeWhile (· ≠ '#')).takeWhile (· ≠ '?')
    if scheme ∈ usesParams then
      .ok { scheme, netloc, path := head path ++ (basename path).takeWhile (· ≠ ';') }
    else .ok { scheme, netloc, path }

end TdxTools.Python.Url
