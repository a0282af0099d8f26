/-!
# Shell tokens

What a POSIX shell divides a script into: words, and signs between them. A word
is kept as the pieces that it is written in, since quotes decide what a shell
does with them: characters between single quotes stand for themselves, between
double quotes parameters and commands are still replaced, and a backslash takes
the meaning from the character behind it. The scripts inside of a word are tokens
again.
-/

namespace ContainerJobs.Shell

/-- What is done to the value of a parameter between braces. -/
inductive Edit where
  /-- The length of the value is taken instead. -/
  | length
  /-- A word stands in where there is no value, or also for an empty one. -/
  | fallback (evenEmpty : Bool)
  /-- Likewise, and the word becomes the value. -/
  | adopt (evenEmpty : Bool)
  /-- Likewise, and the word is a message that ends the shell. -/
  | demand (evenEmpty : Bool)
  /-- A word stands in where there is a value, and it need not be empty. -/
  | replace (evenEmpty : Bool)
  /-- A part that matches a pattern is taken away from the start or the end. -/
  | trim (start longest : Bool)
  /-- There is no such edit. -/
  | unknown
deriving DecidableEq, Repr

/-- What a redirection does with a descriptor. -/
inductive Direction where
  /-- It reads a file. -/
  | input
  /-- It writes a file, which may be one to keep. -/
  | output
  /-- It writes a file, whatever there is. -/
  | overwrite
  /-- It writes at the end of a file. -/
  | append
  /-- It reads and writes a file. -/
  | both
  /-- It goes where another descriptor goes. -/
  | duplicate
  /-- It reads the lines that follow in the script, without their tabs in front
      or with them. -/
  | document (withoutTabs : Bool)
deriving DecidableEq, Repr

/-- A sign between words. -/
inductive Sign where
  /-- The end of a line. -/
  | newline
  /-- One command after the other. -/
  | semicolon
  /-- The end of a branch. -/
  | branchEnd
  /-- A command that is not waited for. -/
  | background
  /-- A command after a success. -/
  | both
  /-- A command after a failure. -/
  | either
  /-- A command that reads the output of the one before. -/
  | pipe
  /-- An opening parenthesis. -/
  | opening
  /-- A closing parenthesis. -/
  | closing
  /-- A redirection of a descriptor. -/
  | redirect (descriptor : Nat) (direction : Direction)
  /-- The end of the script. -/
  | endOfFile
deriving DecidableEq, Repr

/-- Why a script cannot be read. -/
inductive Fault where
  /-- Quotes stay open. -/
  | openQuotes
  /-- A brace stays open. -/
  | openBrace
  /-- The parentheses of an expression stay open. -/
  | openExpression
  /-- A backquote stays open. -/
  | openBackquote
deriving DecidableEq, Repr

/-- The text of a fault. -/
def Fault.message : Fault → String
  | .openQuotes => "Unterminated quoted string"
  | .openBrace => "Missing '\x7d'"
  | .openExpression => "Missing '))'"
  | .openBackquote => "EOF in backquote substitution"

mutual

/-- A piece of a word. -/
inductive Piece where
  /-- A character that stands for itself. -/
  | char (c : Char) (quoted : Bool)
  /-- The beginning or the end of a quoted part, which makes a word even of
      nothing. -/
  | quotes
  /-- The value of a parameter. -/
  | parameter (name : List Char) (quoted : Bool)
  /-- The value of a parameter after an edit, which may need a word. -/
  | edited (name : List Char) (edit : Edit) (word : List Piece) (quoted : Bool)
  /-- The value of an expression. -/
  | arithmetic (expression : List Piece) (quoted : Bool)
  /-- The output of a script. -/
  | substitution (script : List Token) (quoted : Bool)
  /-- The output of a script that has not been divided yet. -/
  | backquoted (script : List Char) (quoted : Bool)

/-- A part of a script. Each knows the line in which it ends. -/
inductive Token where
  /-- A word. -/
  | word (pieces : List Piece) (line : Nat)
  /-- A sign. -/
  | sign (s : Sign) (line : Nat)
  /-- The lines for a redirection in front of them, and whether they stand for
      themselves. -/
  | document (text : List Char) (literal : Bool) (line : Nat)
  /-- The script cannot be read any further, behind some pieces of a word. -/
  | fault (f : Fault) (pieces : List Piece) (line : Nat)

end

/-- A word as it is written. -/
abbrev Word := List Piece

/-- The character can begin a name. -/
def isNameStart (c : Char) : Bool :=
  c.isAlpha || c == '_'

/-- The character can stand in a name. -/
def isNameChar (c : Char) : Bool :=
  c.isAlphanum || c == '_'

/-- The text is a name. -/
def isName (text : List Char) : Bool :=
  match text with
  | c :: r => isNameStart c && r.all isNameChar
  | [] => false

namespace Piece

/-- The character of a piece that is nothing but an unquoted one. -/
def char? : Piece → Option Char
  | .char c false => some c
  | _ => none

/-- The piece takes meaning away. -/
def isQuoting : Piece → Bool
  | .quotes | .char _ true => true
  | _ => false

end Piece

namespace Word

/-- The text of a word that is written without anything special. -/
def literal? (w : Word) : Option (List Char) :=
  w.mapM Piece.char?

/-- The variable and the value, if a word is an assignment. -/
def assignment? (w : Word) : Option (List Char × Word) :=
  let name := (w.map Piece.char?).takeWhile (· ≠ some '=')
  match w.drop name.length with
  | .char _ _ :: value => do
    let name ← name.mapM id
    if isName name then some (name, value) else none
  | _ => none

/-- The text of the end of a document, where only quotes have a meaning. -/
def delimiter (w : Word) : List Char :=
  w.filterMap fun
    | .char c _ => some c
    | _ => none

end Word

end ContainerJobs.Shell
