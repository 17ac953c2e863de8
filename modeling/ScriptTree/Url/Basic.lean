import ScriptTree.Url.Host

/-!
# URLs

A URL by its parts, each in the form in which it is written. `Url.toText` puts the parts together.
-/
namespace ScriptTree

/-- The user, the host and the port of a URL. -/
structure Authority where
  username : List Char
  password : List Char
  host : List Char
  port : Option Nat
  deriving DecidableEq, Repr

/-- The path of a URL: names, each after a slash, or a text without structure. -/
inductive UrlPath where
  | names (segments : List (List Char))
  | plain (text : List Char)
  deriving DecidableEq, Repr

/-- A URL. -/
structure Url where
  scheme : List Char
  authority : Option Authority
  path : UrlPath
  query : Option (List Char)
  fragment : Option (List Char)
  deriving DecidableEq, Repr

namespace Authority

/-- A host alone. -/
def ofHost (host : List Char) : Authority :=
  ⟨[], [], host, none⟩

/-- The text of an authority. -/
def toText (a : Authority) : List Char :=
  let password := if a.password = [] then [] else ':' :: a.password
  let user := if a.username = [] ∧ a.password = [] then [] else a.username ++ password ++ ['@']
  let port := match a.port with
    | some n => ':' :: Nat.toDigits 10 n
    | none => []
  user ++ a.host ++ port

end Authority

/-- The text of a path. -/
def UrlPath.toText : UrlPath → List Char
  | .names segments => segments.flatMap ('/' :: ·)
  | .plain text => text

namespace Url

/-- The scheme of files. -/
def fileScheme : List Char := ['f', 'i', 'l', 'e']

/-- The port that a scheme stands for; the schemes of the web have one. -/
def defaultPort? (scheme : List Char) : Option Nat :=
  if scheme = "http".toList ∨ scheme = "ws".toList then some 80
  else if scheme = "https".toList ∨ scheme = "wss".toList then some 443
  else if scheme = "ftp".toList then some 21
  else none

/-- Whether a scheme is one of the web or that of files. -/
def isSpecial (scheme : List Char) : Bool :=
  scheme == fileScheme || (defaultPort? scheme).isSome

/-- Whether a URL is that of a file. -/
def isFile (u : Url) : Bool :=
  u.scheme == fileScheme

/-- Whether a URL has no structure below it, so that nothing can be relative to it. -/
def isPlain (u : Url) : Bool :=
  match u.path with
  | .plain _ => true
  | .names _ => false

/-- What stands between the scheme and the path; a dot keeps a path of two slashes apart from an
authority. -/
def originText (u : Url) : List Char :=
  match u.authority with
  | some a => '/' :: '/' :: a.toText
  | none => if u.path.toText.take 2 = ['/', '/'] then ['/', '.'] else []

/-- The text of a URL. -/
def toText (u : Url) : List Char :=
  let tail (mark : Char) : Option (List Char) → List Char
    | some text => mark :: text
    | none => []
  u.scheme ++ ':' :: u.originText ++ u.path.toText ++ tail '?' u.query ++ tail '#' u.fragment

/-- A URL with a slash at the end of its path, if it has structure. -/
def asDirectory (u : Url) : Url :=
  match u.path with
  | .plain _ => u
  | .names segments =>
    if segments.getLast? = some [] then u else { u with path := .names (segments ++ [[]]) }

end Url

end ScriptTree
