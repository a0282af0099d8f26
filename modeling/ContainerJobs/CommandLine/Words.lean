import ContainerJobs.Text.Split

/-!
# Words of a command line

The options of a command line, in all the ways they can be written: `--name value`,
`--name=value`, `-n value`, `-nvalue` and `-n=value`. A value in a word of its own
must not begin with a dash, unless it is the dash alone; an attached value may be
any text. No option may be given twice, names are not abbreviated, and `--help`
and `-h` are understood everywhere. Words are read from left to right, and the
first one that is refused, or that asks for help, decides.

An option that waits for its value, or has got it in a word of its own, is only
accepted when the next option or the end of the words is reached.
-/

namespace ContainerJobs.CommandLine

/-- An option that a command understands. -/
structure OptionForm where
  /-- The name, which stands after two dashes. -/
  name : String
  /-- The letter, which stands after one dash. -/
  letter : Option Char := none
  /-- The option has a value; otherwise it is a flag. -/
  takesValue : Bool := true
  /-- The value is allowed. -/
  accepts : String → Bool := fun _ => true

/-- Why words are not carried out. -/
inductive Refusal where
  /-- They do not follow the grammar. -/
  | usage
  /-- They ask for help. -/
  | help
deriving DecidableEq, Repr

/-- The exit code that goes with a refusal. -/
def Refusal.exitCode : Refusal → Nat
  | usage => 2
  | help => 0

/-- The kinds of words. -/
inductive Word where
  /-- Two dashes alone: no options follow. -/
  | separator
  /-- A name after two dashes, and what follows its first equals sign. -/
  | long (name : List Char) (value : Option (List Char))
  /-- Letters after one dash. -/
  | letters (l : List Char)
  /-- Any other word. -/
  | plain
deriving DecidableEq, Repr

/-- The kind of a word. -/
def Word.ofChars : List Char → Word
  | ['-', '-'] => separator
  | '-' :: '-' :: r =>
    match Text.cut? '=' r with
    | some (name, value) => long name (some value)
    | none => long r none
  | '-' :: c :: r => letters (c :: r)
  | _ => plain

/-- What the words so far have given. -/
structure Reading where
  /-- The accepted options with their values, the latest first. A flag has an
      empty value. -/
  given : List (String × String) := []
  /-- The option that is not accepted yet, and its value if that has come. -/
  pending : Option (OptionForm × Option String) := none

namespace Reading

/-- The value that was given to an option. -/
def get? (s : Reading) (name : String) : Option String :=
  s.given.lookup name

/-- An option waits for its value. -/
def awaitsValue (s : Reading) : Bool :=
  s.pending.any (·.2.isNone)

/-- An option with its value is accepted, unless it was given before or the value
    is not allowed. -/
def accept (o : OptionForm) (value : String) (s : Reading) : Except Refusal Reading :=
  if s.given.any (·.1 == o.name) || !o.accepts value then .error .usage
  else .ok { s with given := (o.name, value) :: s.given }

/-- The pending option is accepted, if there is one. -/
def settle (s : Reading) : Except Refusal Reading :=
  match s.pending with
  | none => .ok s
  | some (_, none) => .error .usage
  | some (o, some value) => accept o value { s with pending := none }

/-- An option, with the value that is attached to it. -/
def option (o : OptionForm) (attached : Option (List Char)) (s : Reading) :
    Except Refusal Reading := do
  if o.takesValue then
    match attached with
    | some value => accept o (String.ofList value) (← s.settle)
    | none => return { (← s.settle) with pending := some (o, none) }
  else
    match attached with
    | some _ => throw .usage
    | none => accept o "" (← s.settle)

/-- Help is asked for, which is given if the option before is accepted. -/
def askHelp (s : Reading) : Except Refusal Reading := do
  let _ ← s.settle
  throw .help

/-- A name after two dashes. -/
def long (forms : List OptionForm) (name : List Char) (value : Option (List Char))
    (s : Reading) : Except Refusal Reading :=
  match forms.find? (·.name.toList == name) with
  | some o => option o value s
  | none => if name = "help".toList ∧ value = none then askHelp s else .error .usage

/-- Letters after one dash. What follows an option that takes a value is its
    value, without an equals sign in front. -/
def letters (forms : List OptionForm) : List Char → Reading → Except Refusal Reading
  | [], s => .ok s
  | c :: r, s =>
    match forms.find? (·.letter == some c) with
    | some o =>
      if o.takesValue then
        match r with
        | [] => option o none s
        | '=' :: value => option o (some value) s
        | value => option o (some value) s
      else do letters forms r (← option o none s)
    | none => if c = 'h' then askHelp s else .error .usage

/-- A word that is no option is the value that an option waits for. -/
def plain (w : String) (s : Reading) : Except Refusal Reading :=
  match s.pending with
  | some (o, none) => .ok { s with pending := some (o, some w) }
  | _ => .error .usage

/-- Reads words up to the first one that is `last` and no value. Gives what has
    been read and the words from there on. -/
def words (forms : List OptionForm) (last : String → Bool) :
    Reading → List String → Except Refusal (Reading × List String)
  | s, [] => .ok (s, [])
  | s, w :: r =>
    if last w && !s.awaitsValue then .ok (s, w :: r)
    else
      match Word.ofChars w.toList with
      | .separator => if r.isEmpty then .ok (s, []) else .error .usage
      | .long name value => do words forms last (← long forms name value s) r
      | .letters l => do words forms last (← letters forms l s) r
      | .plain => do words forms last (← plain w s) r

end Reading

end ContainerJobs.CommandLine
