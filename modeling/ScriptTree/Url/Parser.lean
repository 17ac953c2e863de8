import ScriptTree.Url.Basic

/-!
# Reading URLs

A text is read alone or relative to a base URL. Spaces around it and line breaks and tabs in it say
nothing. What follows a number sign is the fragment and what then follows a question mark the query;
the text before them is the location, which is read by the rules of its scheme.
-/
namespace ScriptTree.Url

/-! ## Parts of the text -/

/-- Whether a character says nothing at either end of a URL. -/
def isPadding (c : Char) : Bool :=
  decide (c.toNat ≤ 0x20)

/-- A text without padding, line breaks and tabs. -/
def clean (text : List Char) : List Char :=
  let inner := ((text.dropWhile isPadding).reverse.dropWhile isPadding).reverse
  inner.filter fun c => c != '\t' && c != '\n' && c != '\r'

/-- A text up to a character and what follows it, if it is there. -/
def cut (mark : Char) : List Char → List Char × Option (List Char)
  | [] => ([], none)
  | c :: rest =>
    if c = mark then ([], some rest)
    else
      let (before, after) := cut mark rest
      (c :: before, after)

/-- A scheme in lower case and what follows its colon. -/
def scheme? (text : List Char) : Option (List Char × List Char) :=
  match cut ':' text with
  | (c :: name, some rest) =>
    if c.isAlpha && name.all fun d => d.isAlphanum || d == '+' || d == '-' || d == '.' then
      some ((c :: name).map Char.toLower, rest)
    else none
  | _ => none

/-- The text of a URL without its scheme, in three parts. -/
structure Parts where
  location : List Char
  query : Option (List Char)
  fragment : Option (List Char)
  deriving DecidableEq, Repr

/-- Cuts a text into its parts. -/
def Parts.ofText (text : List Char) : Parts :=
  let (rest, fragment) := cut '#' text
  let (location, query) := cut '?' rest
  ⟨location, query, fragment⟩

/-- Whether something follows the location. -/
def Parts.hasTail (parts : Parts) : Bool :=
  parts.query.isSome || parts.fragment.isSome

/-- The query as it is written under a scheme. -/
def Parts.encodedQuery (parts : Parts) (scheme : List Char) : Option (List Char) :=
  parts.query.map (Percent.encode (if isSpecial scheme then Percent.inSpecialQuery
    else Percent.inQuery))

/-- The fragment as it is written. -/
def Parts.encodedFragment (parts : Parts) : Option (List Char) :=
  parts.fragment.map (Percent.encode Percent.inFragment)

/-- A URL with the query and the fragment of a text. -/
def ofParts (scheme : List Char) (authority : Option Authority) (path : UrlPath) (parts : Parts) :
    Url :=
  ⟨scheme, authority, path, parts.encodedQuery scheme, parts.encodedFragment⟩

/-! ## Paths -/

/-- Whether a character is a slash of either kind. -/
def isSlash (c : Char) : Bool :=
  c == '/' || c == '\\'

/-- A text in which backslashes are slashes, for a special scheme. -/
def straighten (scheme text : List Char) : List Char :=
  if isSpecial scheme then text.map fun c => if c = '\\' then '/' else c else text

/-- Whether a name is a letter and a colon or a bar. -/
def isDrive : List Char → Bool
  | [c, mark] => c.isAlpha && (mark == ':' || mark == '|')
  | _ => false

/-- Whether the first name of a text is a letter and a colon or a bar. -/
def startsWithDrive (text : List Char) : Bool :=
  isDrive (text.takeWhile fun c => !isSlash c)

/-- A name with its encoded dots read. -/
def plainDots : List Char → List Char
  | '%' :: '2' :: c :: rest =>
    if c = 'e' ∨ c = 'E' then '.' :: plainDots rest else '%' :: '2' :: plainDots (c :: rest)
  | c :: rest => c :: plainDots rest
  | [] => []

/-- Names without the last one; a drive stays. -/
def ascend (names : List (List Char)) : List (List Char) :=
  match names.getLast? with
  | some last => if isDrive last then names else names.dropLast
  | none => []

/-- A name as it is written in a directory. At the root of files a drive is written with a colon. -/
def writeName (scheme : List Char) (directory : List (List Char)) (name : List Char) : List Char :=
  if scheme = fileScheme ∧ directory = [] ∧ isDrive name then name.take 1 ++ [':']
  else Percent.encode Percent.inPath name

/-- Goes from a directory along names, of which one dot stays and two dots ascend. -/
def descend (scheme : List Char) (directory : List (List Char)) :
    List (List Char) → List (List Char)
  | [] => directory
  | name :: rest =>
    let dots := plainDots name
    let next :=
      if dots = ['.', '.'] then ascend directory
      else if dots = ['.'] then directory
      else directory ++ [writeName scheme directory name]
    let next := if rest = [] ∧ (dots = ['.', '.'] ∨ dots = ['.']) then next ++ [[]] else next
    descend scheme next rest

/-- The names that a text leads to from a directory. -/
def namesBelow (scheme : List Char) (directory : List (List Char)) (text : List Char) :
    List (List Char) :=
  descend scheme directory (Text.pieces '/' (straighten scheme text))

/-- The path of names. That of a file does not start with empty names. -/
def pathOf (scheme : List Char) (names : List (List Char)) : UrlPath :=
  if scheme = fileScheme then
    let kept := names.dropWhile (· == [])
    .names (if kept = [] then [[]] else kept)
  else .names names

/-- The path that a text names below a directory. -/
def pathBelow (scheme : List Char) (directory : List (List Char)) (text : List Char) : UrlPath :=
  pathOf scheme (namesBelow scheme directory text)

/-- A text without the slash at its start. -/
def dropSlash : List Char → List Char
  | '/' :: rest => rest
  | text => text

/-- The path that follows an authority. -/
def pathAfter (scheme text : List Char) : UrlPath :=
  if text = [] ∧ !isSpecial scheme then .names []
  else pathBelow scheme [] (dropSlash text)

/-- The names of a path without the last one. -/
def directoryOf (u : Url) : List (List Char) :=
  match u.path with
  | .plain _ => []
  | .names segments => segments.dropLast

/-! ## Authorities -/

/-- A text before the last occurrence of a character and what follows it, if it is there. -/
def cutLast (mark : Char) (text : List Char) : Option (List Char) × List Char :=
  match cut mark text.reverse with
  | (after, some before) => (some before.reverse, after.reverse)
  | (_, none) => (none, text)

/-- The text of a host up to a colon outside brackets, and the text from that colon on. -/
def cutHost (bracketed : Bool) : List Char → List Char × List Char
  | [] => ([], [])
  | c :: rest =>
    if c = ':' ∧ !bracketed then ([], c :: rest)
    else
      let (host, port) := cutHost (c == '[' || (bracketed && c != ']')) rest
      (c :: host, port)

/-- The port after a colon; none if it is missing or the one that the scheme stands for. -/
def readPort (scheme : List Char) : List Char → Except UrlError (Option Nat)
  | [] => .ok none
  | _ :: digits =>
    if digits.all Char.isDigit then
      match Host.readBase? 10 digits with
      | some n =>
        if n > 65535 then .error .badPort
        else if digits = [] ∨ defaultPort? scheme = some n then .ok none
        else .ok (some n)
      | none => .error .badPort
    else .error .badPort

/-- The host of a scheme. -/
def readHost (scheme text : List Char) : Except UrlError (List Char) :=
  if isSpecial scheme then
    if text = [] then .error .emptyHost else Host.readSpecial text
  else Host.readOpaque text

/-- Reads an authority; `closed` tells whether something follows it. A backslash ends the port, and
what follows it is left over. -/
def readAuthority (scheme : List Char) (closed : Bool) (text : List Char) :
    Except UrlError (Authority × List Char) := do
  let (user, rest) := cutLast '@' text
  if user = some [] ∧ rest = [] ∧ closed then throw .emptyHost
  let (username, password) := cut ':' (user.getD [])
  let username := Percent.encode Percent.inUserInfo username
  let password := Percent.encode Percent.inUserInfo (password.getD [])
  let (hostText, portText) := cutHost false rest
  let host ← readHost scheme hostText
  if host = [] ∧ (portText ≠ [] ∨ username ≠ [] ∨ password ≠ []) then throw .emptyHost
  let port ← readPort scheme (portText.takeWhile (· != '\\'))
  return (⟨username, password, host, port⟩, portText.dropWhile (· != '\\'))

/-- Reads an authority and the path after it. -/
def readRemote (scheme : List Char) (parts : Parts) (text : List Char) : Except UrlError Url := do
  let text := straighten scheme text
  let path := text.dropWhile (· != '/')
  let (authority, rest) ←
    readAuthority scheme (path != [] || parts.hasTail) (text.takeWhile (· != '/'))
  return ofParts scheme authority (pathAfter scheme (rest ++ path)) parts

/-! ## Relative texts -/

/-- A base with the fragment of a text. -/
def withFragment (base : Url) (parts : Parts) : Url :=
  { base with fragment := parts.encodedFragment }

/-- A base with the query and the fragment of a text without a location. -/
def withTail (base : Url) (parts : Parts) : Url :=
  { base with
    query := if parts.query.isSome then parts.encodedQuery base.scheme else base.query
    fragment := parts.encodedFragment }

/-- Reads a location relative to a base that is no file. -/
def readRelative (base : Url) (parts : Parts) : Except UrlError Url :=
  let text := parts.location
  let slashes := (text.takeWhile isSlash).length
  if text = [] then .ok (base.withTail parts)
  else if 2 ≤ slashes then
    let skipped := if text.take 2 = ['/', '/'] then 2 else slashes
    readRemote base.scheme parts (text.drop skipped)
  else
    let path :=
      if slashes = 1 then pathBelow base.scheme [] (text.drop 1)
      else pathBelow base.scheme base.directoryOf text
    .ok (ofParts base.scheme base.authority path parts)

/-! ## Files -/

/-- The authority of a file on this machine. -/
def localAuthority : Authority :=
  .ofHost []

/-- The host of a file; this machine has none. -/
def readFileHost (text : List Char) : Except UrlError (List Char) :=
  if text = [] then .ok []
  else (Host.readSpecial text).map fun host => if host = "localhost".toList then [] else host

/-- The directory and the authority of a base for a location that starts with one slash. -/
def fileRoot (base : Option Url) (text : List Char) : List (List Char) × Authority :=
  match base with
  | none => ([], localAuthority)
  | some base =>
    let authority := base.authority.getD localAuthority
    if startsWithDrive text then ([], localAuthority)
    else
      match base.path with
      | .names (first :: _) =>
        if isDrive first ∧ first.getLast? = some ':' then ([first], localAuthority)
        else ([], authority)
      | _ => ([], authority)

/-- The directory of a base file; a drive is its own directory. -/
def fileDirectory (base : Url) : List (List Char) :=
  match base.path with
  | .plain _ => []
  | .names segments =>
    match segments.getLast? with
    | some last => if isDrive last ∧ last.getLast? = some ':' then segments else segments.dropLast
    | none => []

/-- Reads the location of a file, relative to a base if there is one. -/
def readFile (base : Option Url) (parts : Parts) : Except UrlError Url := do
  let text := parts.location
  let file (authority : Authority) (directory : List (List Char)) (text : List Char) : Url :=
    ofParts fileScheme authority (pathBelow fileScheme directory text) parts
  match (text.takeWhile isSlash).length, base with
  | 0, none => return file localAuthority [] text
  | 0, some base =>
    if text = [] then return base.withTail parts
    else if startsWithDrive text then return file localAuthority [] text
    else return file (base.authority.getD localAuthority) (fileDirectory base) text
  | 1, base =>
    let (directory, authority) := fileRoot base (text.drop 1)
    return file authority directory (text.drop 1)
  | _, _ =>
    let rest := text.drop 2
    if startsWithDrive rest then return file localAuthority [] rest
    else
      let host ← readFileHost (rest.takeWhile fun c => !isSlash c)
      let names := namesBelow fileScheme [] ((rest.dropWhile fun c => !isSlash c).drop 1)
      let authority := if names.head?.any isDrive then localAuthority else .ofHost host
      return ofParts fileScheme authority (pathOf fileScheme names) parts

/-! ## Whole texts -/

/-- Reads what follows a scheme. -/
def readScheme (base : Option Url) (scheme text : List Char) : Except UrlError Url :=
  let parts := Parts.ofText text
  let location := parts.location
  let related := base.filter (·.scheme == scheme)
  if scheme = fileScheme then readFile related parts
  else if isSpecial scheme then
    match related, decide ((location.takeWhile isSlash).length < 2) with
    | some base, true => readRelative base parts
    | _, _ => readRemote scheme parts (location.dropWhile isSlash)
  else if location.take 2 = ['/', '/'] then readRemote scheme parts (location.drop 2)
  else if location.head? = some '/' then
    .ok (ofParts scheme none (pathBelow scheme [] (location.drop 1)) parts)
  else
    .ok (ofParts scheme none (.plain (Percent.encode Percent.inOpaque location)) parts)

/-- Reads a text relative to a base, if there is one. -/
def read (base : Option Url) (text : List Char) : Except UrlError Url :=
  let text := clean text
  match scheme? text, base with
  | some (scheme, rest), base => readScheme base scheme rest
  | none, none => .error .noBase
  | none, some base =>
    let parts := Parts.ofText text
    if text.head? = some '#' then .ok (base.withFragment parts)
    else if base.isPlain then .error .opaqueBase
    else if base.isFile then readFile base parts
    else readRelative base parts

/-- Reads a text that stands alone. -/
def parse (text : List Char) : Except UrlError Url :=
  read none text

/-- Reads a text that may be relative to a URL. -/
def join (base : Url) (text : List Char) : Except UrlError Url :=
  read (some base) text

/-- A URL with a slash at the end of its path, if it has structure. A path without the slash is read
again together with it. -/
def readAsDirectory (u : Url) : Url :=
  match u.path with
  | .plain _ => u
  | .names segments =>
    if segments.getLast? = some [] then u
    else { u with path := pathBelow u.scheme [] ((u.path.toText ++ ['/']).drop 1) }

end ScriptTree.Url
