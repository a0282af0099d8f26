import ContainerJobs.Text.Blank
import ContainerJobs.Text.DecimalDigit
import ContainerJobs.Text.Split

/-!
# Local addresses

An address that names the host by one of its local names means nothing inside a
container. `containerUrl` puts the host's alias there, and leaves all other
addresses as they are. A local address is made of

* optionally a scheme: a letter, then letters, digits, `+`, `.` and `-`, then
  `://`;
* the host, `localhost` or `127.0.0.1`;
* optionally a port: a colon and decimal digits of any script;
* optionally a path: a slash and any characters but line feeds.

Letters match in either case. Case is folded as Unicode does, so the long s
stands for an s and the Kelvin sign for a k.
-/

namespace ContainerJobs

/-- The name by which a container reaches its host. -/
def hostAlias : String := "host.docker.internal"

/-- The variable parts of a local address. -/
structure LocalUrl where
  /-- The scheme with its `://`, or nothing. -/
  scheme : List Char
  /-- The port with its colon, or nothing. -/
  port : List Char
  /-- The path with its slash, or nothing. -/
  path : List Char
deriving DecidableEq, Repr

namespace LocalUrl

/-- The character with its case folded, as far as ASCII letters are concerned. -/
def fold (c : Char) : Char :=
  if c = 'ſ' then 's' else if c.toNat = 0x212A then 'k' else c.toLower

/-- The character may stand in a scheme. -/
def isSchemeChar (c : Char) : Bool :=
  (fold c).isAlphanum || c == '+' || c == '.' || c == '-'

/-- A scheme with its `://`, and what follows it. -/
def scheme? (l : List Char) : Option (List Char × List Char) :=
  let (name, rest) := l.span isSchemeChar
  if (name.head?.map fun c => (fold c).isAlpha) == some true then
    (Text.after? [':', '/', '/'] rest).map fun r => (name ++ [':', '/', '/'], r)
  else none

/-- What follows a host name in any case. -/
def afterName? (name l : List Char) : Option (List Char) :=
  if (l.take name.length).map fold = name then some (l.drop name.length) else none

/-- What follows the host. -/
def afterHost? (l : List Char) : Option (List Char) :=
  afterName? "localhost".toList l <|> afterName? "127.0.0.1".toList l

/-- The port with its colon, or nothing, and what follows it. -/
def takePort (l : List Char) : List Char × List Char :=
  match l with
  | ':' :: r =>
    let (ds, rest) := r.span Text.isDecimalDigit
    if ds.isEmpty then ([], l) else (':' :: ds, rest)
  | _ => ([], l)

/-- Nothing, or a slash and characters without a line feed. -/
def isPath : List Char → Bool
  | [] => true
  | c :: r => c == '/' && !r.contains '\n'

/-- The parts of an address after its scheme. -/
def afterScheme? (scheme l : List Char) : Option LocalUrl := do
  let (port, path) := takePort (← afterHost? l)
  if isPath path then some { scheme, port, path } else none

/-- The parts of a local address. -/
def parse? (l : List Char) : Option LocalUrl :=
  ((scheme? l).bind fun (scheme, r) => afterScheme? scheme r) <|> afterScheme? [] l

/-- The address with the host's alias in place of its name. -/
def inContainer (u : LocalUrl) : String :=
  String.ofList (u.scheme ++ hostAlias.toList ++ u.port ++ u.path)

end LocalUrl

/-- The address that means the same inside a container. A local address is
    trimmed, any other stays as it is. -/
def containerUrl (url : String) : String :=
  match LocalUrl.parse? (Text.trimmed url.toList) with
  | some u => u.inContainer
  | none => url

end ContainerJobs
