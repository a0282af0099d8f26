import ContainerJobs.Shell.Token

/-!
# Dividing a script into tokens

Characters are taken one at a time by a machine with a stack: a word may hold an
edit of a parameter, which holds a word, which may hold a script, which holds
words again, and the innermost of them takes the next character. So what a text
is divided into follows by induction on the text.

A script in parentheses ends at the first closing parenthesis that nothing in it
has use for. To find it, the branches and groups that are open are kept in mind.
-/

namespace ContainerJobs.Shell

/-! ## Unfinished parts -/

/-- What a stretch of pieces belongs to. -/
inductive Role where
  /-- To a word of a script. -/
  | word
  /-- To the word of an edit. -/
  | edit (name : List Char) (edit : Edit)
  /-- To an expression, in which some parentheses are open. -/
  | expression (opened : Nat)
deriving DecidableEq, Repr

/-- An unfinished stretch of pieces, the latest first. -/
structure Stretch where
  /-- What it belongs to. -/
  role : Role := .word
  /-- It stands in double quotes that were opened in front of it. -/
  outer : Bool := false
  /-- It stands in double quotes that were opened within it. -/
  inner : Bool := false
  /-- The pieces. -/
  pieces : List Piece := []

/-- Double quotes are open. -/
def Stretch.isQuoted (s : Stretch) : Bool :=
  s.outer || s.inner

/-- The piece that a finished stretch makes in the stretch around it. -/
def Stretch.piece (s : Stretch) (quoted : Bool) : Piece :=
  match s.role with
  | .edit name edit => .edited name edit s.pieces.reverse quoted
  | _ => .arithmetic s.pieces.reverse quoted

/-- What the next word of a script can be. -/
inductive Phase where
  /-- The first word of a command. -/
  | start
  /-- Any word. -/
  | words
  /-- The word that branches are chosen by. -/
  | subject
  /-- What stands between that word and the branches. -/
  | subjectEnd
  /-- The variable of a loop. -/
  | loopName
  /-- What stands behind that variable. -/
  | loopNameEnd
deriving DecidableEq, Repr

/-- A part of a script that a closing parenthesis can belong to. -/
inductive Group where
  /-- Commands in parentheses. -/
  | parentheses
  /-- The patterns of a branch. -/
  | patterns
  /-- The commands of a branch. -/
  | branch
deriving DecidableEq, Repr

/-- The end of a document. -/
structure Delimiter where
  /-- The line that ends it. -/
  text : List Char
  /-- Its lines stand for themselves. -/
  literal : Bool
  /-- Its lines lose the tabs in front. -/
  withoutTabs : Bool
deriving DecidableEq, Repr

/-- An unfinished script. -/
structure Passage where
  /-- Its tokens, the latest first. -/
  tokens : List Token := []
  /-- It is part of a word and ends at a parenthesis. -/
  nested : Bool := false
  /-- The open groups, the innermost first. -/
  groups : List Group := []
  /-- What the next word can be. -/
  phase : Phase := .start
  /-- The redirection that the next word belongs to. -/
  redirection : Option Direction := none
  /-- The ends of the documents that come after this line. -/
  awaited : List Delimiter := []

namespace Passage

/-- The words behind which a command begins. -/
def openers : List String :=
  ["!", "do", "done", "elif", "else", "fi", "if", "then", "until", "while", "\x7b", "\x7d"]

/-- The groups and the phase behind a word. -/
def follow (p : Passage) (text : Option String) : List Group × Phase :=
  match p.phase, p.groups, text with
  | .start, .patterns :: r, some "esac" => (r, .start)
  | .start, .patterns :: _, _ => (p.groups, .words)
  | .start, .branch :: r, some "esac" => (r, .start)
  | .start, g, some "case" => (g, .subject)
  | .start, g, some "for" => (g, .loopName)
  | .start, g, some t => (g, if openers.contains t then .start else .words)
  | .subject, g, _ => (g, .subjectEnd)
  | .subjectEnd, g, some "in" => (.patterns :: g, .start)
  | .loopName, g, _ => (g, .loopNameEnd)
  | .loopNameEnd, g, some "do" => (g, .start)
  | _, g, _ => (g, .words)

/-- Adds a word. -/
def addWord (p : Passage) (w : Word) (line : Nat) : Passage :=
  let q := { p with tokens := .word w line :: p.tokens, redirection := none }
  match p.redirection with
  | some (.document withoutTabs) =>
    let d : Delimiter :=
      { text := w.delimiter, literal := w.any Piece.isQuoting, withoutTabs }
    { q with awaited := p.awaited ++ [d] }
  | some _ => q
  | none =>
    let (groups, phase) := p.follow (w.literal?.map String.ofList)
    { q with groups, phase }

/-- Adds a sign. -/
def addSign (p : Passage) (s : Sign) (line : Nat) : Passage :=
  let q := { p with tokens := .sign s line :: p.tokens, redirection := none }
  match s, p.groups with
  | .redirect _ d, _ => { q with redirection := some d }
  | .newline, _ =>
    if p.phase = .subjectEnd ∨ p.phase = .loopNameEnd then q else { q with phase := .start }
  | .branchEnd, .branch :: r => { q with groups := .patterns :: r, phase := .start }
  | .opening, .patterns :: _ => { q with phase := .words }
  | .opening, g => { q with groups := .parentheses :: g, phase := .start }
  | .closing, .patterns :: r => { q with groups := .branch :: r, phase := .start }
  | .closing, .parentheses :: r => { q with groups := r, phase := .start }
  | .pipe, .patterns :: _ => q
  | _, _ => { q with phase := .start }

/-- The next closing parenthesis ends the script. -/
def isClosable (p : Passage) : Bool :=
  p.nested && p.groups.isEmpty

/-- Adds the lines of the next document. -/
def addDocument (p : Passage) (text : List Char) (line : Nat) : Passage :=
  match p.awaited with
  | d :: r => { p with tokens := .document text d.literal line :: p.tokens, awaited := r }
  | [] => p

end Passage

/-- Something unfinished. -/
inductive Frame where
  /-- A part of a word. -/
  | stretch (s : Stretch)
  /-- A script. -/
  | passage (p : Passage)

/-- How the next character is taken. -/
inductive Mode where
  /-- As the innermost frame says. -/
  | text
  /-- Behind a number sign. -/
  | comment
  /-- Between single quotes. -/
  | single
  /-- Behind a backslash. -/
  | backslash
  /-- Behind a character that may begin a longer sign. -/
  | sign (c : Char)
  /-- Behind a character that begins a redirection. -/
  | redirection (c : Char) (descriptor : Option Nat)
  /-- Behind the sign for a document. -/
  | documentSign (descriptor : Option Nat)
  /-- Behind a dollar sign. -/
  | dollar
  /-- In a name behind a dollar sign; its letters come latest first. -/
  | name (letters : List Char)
  /-- Behind a dollar sign and a parenthesis. -/
  | parenthesis
  /-- Behind a dollar sign and a brace. -/
  | brace
  /-- In a name behind them, perhaps one whose value is measured. -/
  | braceName (measured : Bool) (letters : List Char)
  /-- Behind a number sign behind them. -/
  | braceSign
  /-- Behind another character behind that. -/
  | braceSignBefore (c : Char)
  /-- Behind a name between braces. -/
  | edit (name : List Char)
  /-- Behind a colon behind that. -/
  | colon (name : List Char)
  /-- Behind a character that takes something away. -/
  | trim (name : List Char) (c : Char)
  /-- Behind a backquote; the characters come latest first. -/
  | backquote (text : List Char)
  /-- Behind a backslash behind a backquote. -/
  | backquoteBackslash (text : List Char)
  /-- Behind a parenthesis that may end an expression. -/
  | expressionEnd
  /-- In a document, with the characters of the line and of the lines before. -/
  | document (line lines : List Char)

/-- Where in a script a character stands. -/
structure Place where
  /-- The number of the line. -/
  line : Nat := 1
  /-- How the next character is taken. -/
  mode : Mode := .text
  /-- What is unfinished, the innermost first. -/
  frames : List Frame := [.passage {}]

namespace Place

/-! ## Changes of the innermost frame -/

/-- Double quotes are open. -/
def isQuoted (p : Place) : Bool :=
  match p.frames with
  | .stretch s :: _ => s.isQuoted
  | _ => false

/-- The word is the end of a document. -/
def isDelimiter (p : Place) : Bool :=
  match p.frames with
  | .stretch { role := .word, .. } :: .passage a :: _ =>
    match a.redirection with
    | some (.document _) => true
    | _ => false
  | _ => false

/-- The place with another innermost stretch. -/
def mapStretch (p : Place) (f : Stretch → Stretch) : Place :=
  match p.frames with
  | .stretch s :: r => { p with frames := .stretch (f s) :: r }
  | _ => p

/-- The place with another innermost script. -/
def mapPassage (p : Place) (f : Passage → Passage) : Place :=
  match p.frames with
  | .passage a :: r => { p with frames := .passage (f a) :: r }
  | _ => p

/-- Goes on with the text. -/
def toText (p : Place) : Place :=
  { p with mode := .text }

/-- Adds a piece. -/
def push (p : Place) (x : Piece) : Place :=
  p.mapStretch fun s => { s with pieces := x :: s.pieces }

/-- Adds a character as it is. -/
def pushChar (p : Place) (c : Char) : Place :=
  p.push (.char c p.isQuoted)

/-- Opens a frame. -/
def enter (p : Place) (f : Frame) : Place :=
  { p with mode := .text, frames := f :: p.frames }

/-- Opens the word of an edit. -/
def enterEdit (p : Place) (name : List Char) (edit : Edit) : Place :=
  let outer := match edit with
    | .trim .. => false
    | _ => p.isQuoted
  p.enter (.stretch { role := .edit name edit, outer })

/-- Closes a stretch that is part of another one. -/
def leaveStretch (p : Place) : Place :=
  match p.frames with
  | .stretch s :: r =>
    let p := { p with mode := .text, frames := r }
    p.push (s.piece p.isQuoted)
  | _ => p

/-- Closes a word. Nothing at all is no word. -/
def leaveWord (p : Place) : Place :=
  match p.frames with
  | .stretch s :: r =>
    let q := { p with mode := .text, frames := r }
    if s.pieces.isEmpty then q else q.mapPassage (·.addWord s.pieces.reverse p.line)
  | _ => p

/-- Closes a script. -/
def leavePassage (p : Place) : Place :=
  match p.frames with
  | .passage a :: r =>
    let q := { p with mode := .text, frames := r }
    q.push (.substitution (.sign .closing p.line :: a.tokens).reverse q.isQuoted)
  | _ => p

/-- Adds a sign. -/
def addSign (p : Place) (s : Sign) : Place :=
  (p.mapPassage (·.addSign s p.line)).toText

/-! ## Characters -/

/-- The backquote. -/
def backquote : Char := Char.ofNat 0x60

/-- The character cannot stand in an unquoted word. -/
def isSeparator (c : Char) : Bool :=
  " \t\n&|;()<>".toList.contains c

/-- The character is the name of a special parameter. -/
def isSpecialName (c : Char) : Bool :=
  c.isDigit || "@*#?$!-".toList.contains c

/-- A separator between words. -/
def separatorStep (p : Place) (c : Char) : Place :=
  match c, p.frames with
  | '\n', .passage a :: _ =>
    let p := p.mapPassage (·.addSign .newline (p.line + 1))
    { p with mode := if a.awaited.isEmpty then .text else .document [] [] }
  | '(', _ => p.addSign .opening
  | ')', .passage a :: _ => if a.isClosable then p.leavePassage else p.addSign .closing
  | '<', _ | '>', _ => { p with mode := .redirection c none }
  | '&', _ | '|', _ | ';', _ => { p with mode := .sign c }
  | _, _ => p.toText

/-- A character of a stretch that ends no word. -/
def charStep (p : Place) (s : Stretch) (c : Char) : Place :=
  let p := p.toText
  if c = '\\' then { p with mode := .backslash }
  else if c = '$' then { p with mode := .dollar }
  else if c = backquote then
    if p.isDelimiter then p.pushChar c else { p with mode := .backquote [] }
  else
    match c, s.role with
    | '(', .expression n =>
      (p.mapStretch fun s => { s with role := .expression (n + 1) }).pushChar c
    | ')', .expression 0 => { p with mode := .expressionEnd }
    | ')', .expression (n + 1) =>
      (p.mapStretch fun s => { s with role := .expression n }).pushChar c
    | '"', .expression _ => p.pushChar c
    | '"', _ => (p.push .quotes).mapStretch fun s => { s with inner := !s.inner }
    | '\'', _ => if s.isQuoted then p.pushChar c else { p.push .quotes with mode := .single }
    | '}', .edit .. => if s.inner then p.pushChar c else p.leaveStretch
    | _, _ => p.pushChar c

/-- A character outside of single quotes. -/
def textStep (p : Place) (c : Char) : Place :=
  match p.frames with
  | .stretch s :: .passage a :: r =>
    if s.role = .word && !s.isQuoted && isSeparator c then
      match s.pieces, c == '<' || c == '>' with
      | [.char d false], true =>
        if d.isDigit then
          { p with mode := .redirection c (some (d.toNat - 48)), frames := .passage a :: r }
        else p.leaveWord.separatorStep c
      | _, _ => p.leaveWord.separatorStep c
    else p.charStep s c
  | .stretch s :: _ => p.charStep s c
  | .passage _ :: _ =>
    if isSeparator c then p.separatorStep c
    else if c = '#' then { p with mode := .comment }
    else (p.enter (.stretch {})).charStep {} c
  | [] => p

/-- Goes on with a character that has not been used. -/
def resume (p : Place) (c : Char) : Place :=
  p.toText.textStep c

/-! ## Parameters -/

/-- The edit of a character. -/
def edit? (c : Char) (evenEmpty : Bool) : Option Edit :=
  match c with
  | '-' => some (.fallback evenEmpty)
  | '=' => some (.adopt evenEmpty)
  | '?' => some (.demand evenEmpty)
  | '+' => some (.replace evenEmpty)
  | _ => none

/-- The character behind the name of a parameter between braces. -/
def editStep (p : Place) (name : List Char) (c : Char) : Place :=
  match c with
  | '}' => (p.push (.parameter name p.isQuoted)).toText
  | ':' => { p with mode := .colon name }
  | '%' | '#' => { p with mode := .trim name c }
  | _ => p.enterEdit name ((edit? c false).getD .unknown)

/-- The character behind one that takes something away. -/
def trimStep (p : Place) (name : List Char) (c d : Char) : Place :=
  if c = d then p.enterEdit name (.trim (c == '#') true)
  else (p.enterEdit name (.trim (c == '#') false)).textStep d

/-- The character behind a colon. -/
def colonStep (p : Place) (name : List Char) (c : Char) : Place :=
  p.enterEdit name ((edit? c true).getD .unknown)

/-- The first character between braces. -/
def braceStep (p : Place) (c : Char) : Place :=
  if isNameStart c || c.isDigit then { p with mode := .braceName false [c] }
  else if c = '#' then { p with mode := .braceSign }
  else if isSpecialName c then { p with mode := .edit [c] }
  else
    let p := p.enterEdit [] .unknown
    if c = '}' then p.textStep c else p

/-- The name goes on with the character. -/
def continuesName (letters : List Char) (c : Char) : Bool :=
  if letters.all Char.isDigit then c.isDigit else isNameChar c

/-- A character in or behind a name between braces. -/
def braceNameStep (p : Place) (measured : Bool) (letters : List Char) (c : Char) : Place :=
  if continuesName letters c then { p with mode := .braceName measured (c :: letters) }
  else if measured then
    if c = '}' then (p.push (.edited letters.reverse .length [] p.isQuoted)).toText
    else (p.enterEdit [] .unknown).textStep c
  else p.editStep letters.reverse c

/-- The two characters behind a number sign between braces: a special parameter
    is measured, or the number sign is a parameter itself. -/
def braceSignStep (p : Place) (c d : Char) : Place :=
  if c ≠ '}' ∧ d = '}' then
    if isSpecialName c then (p.push (.edited [c] .length [] p.isQuoted)).toText
    else (p.enterEdit [] .unknown).textStep d
  else
    let p := p.editStep ['#'] c
    match p.mode with
    | .colon name => p.colonStep name d
    | .trim name c => p.trimStep name c d
    | _ => p.textStep d

/-! ## Documents -/

/-- The end of a line in a document. A backslash joins the next line to it. -/
def documentLineStep (p : Place) (line lines : List Char) : Place :=
  match p.frames with
  | .passage { awaited := d :: r, .. } :: _ =>
    let joined := !d.literal && (line.takeWhile (· == '\\')).length % 2 == 1
    if joined then { p with mode := .document ('\n' :: line) lines }
    else
      let text := line.reverse
      let text := if d.withoutTabs then text.dropWhile (· == '\t') else text
      if text = d.text then
        let p := p.mapPassage (·.addDocument lines.reverse p.line)
        { p with mode := if r.isEmpty then .text else .document [] [] }
      else { p with mode := .document [] ('\n' :: (text.reverse ++ lines)) }
  | _ => p.toText

/-! ## Steps -/

/-- The character behind a backslash. -/
def backslashStep (p : Place) (c : Char) : Place :=
  match p.frames with
  | .stretch s :: r =>
    let p := p.toText
    if c = '\n' then
      if s.pieces.isEmpty && s.role == .word then { p with frames := r } else p
    else if s.isQuoted then
      let known := c == '\\' || c == '$' || c == backquote ||
        c == '"' || (c == '}' && match s.role with | .edit .. => true | _ => false)
      if known then p.push (.char c true) else (p.push (.char '\\' true)).push (.char c true)
    else p.push (.char c true)
  | _ => p.toText

/-- The character behind a dollar sign. -/
def dollarStep (p : Place) (c : Char) : Place :=
  if p.isDelimiter then (p.pushChar '$').resume c
  else if c = '{' then { p with mode := .brace }
  else if c = '(' then { p with mode := .parenthesis }
  else if isNameStart c then { p with mode := .name [c] }
  else if isSpecialName c then (p.push (.parameter [c] p.isQuoted)).toText
  else (p.pushChar '$').resume c

/-- The sign that a character is when nothing more belongs to it. -/
def shortSign (c : Char) : Sign :=
  match c with
  | '&' => .background
  | '|' => .pipe
  | _ => .semicolon

/-- The sign that a character makes twice. -/
def longSign (c : Char) : Sign :=
  match c with
  | '&' => .both
  | '|' => .either
  | _ => .branchEnd

/-- The character behind one that begins a redirection. -/
def redirectionStep (p : Place) (c : Char) (descriptor : Option Nat) (d : Char) : Place :=
  let add (direction : Direction) : Place :=
    p.addSign (.redirect (descriptor.getD (if c = '<' then 0 else 1)) direction)
  match c, d with
  | '<', '<' => { p with mode := .documentSign descriptor }
  | '<', '>' => add .both
  | '>', '>' => add .append
  | '>', '|' => add .overwrite
  | _, '&' => add .duplicate
  | '<', _ => (add .input).textStep d
  | _, _ => (add .output).textStep d

/-- Takes one character, before lines are counted. -/
def stepIn (p : Place) (c : Char) : Place :=
  match p.mode with
  | .text => p.textStep c
  | .comment => if c = '\n' then p.separatorStep c else p
  | .single => if c = '\'' then (p.push .quotes).toText else p.push (.char c true)
  | .backslash => p.backslashStep c
  | .sign d =>
    if c = d then p.addSign (longSign c) else (p.addSign (shortSign d)).textStep c
  | .redirection d descriptor => p.redirectionStep d descriptor c
  | .documentSign descriptor =>
    let p := p.addSign (.redirect (descriptor.getD 0) (.document (c == '-')))
    if c = '-' then p else p.textStep c
  | .dollar => p.dollarStep c
  | .name letters =>
    if isNameChar c then { p with mode := .name (c :: letters) }
    else (p.push (.parameter letters.reverse p.isQuoted)).resume c
  | .parenthesis =>
    if c = '(' then p.enter (.stretch { role := .expression 0, outer := true })
    else (p.enter (.passage { nested := true })).textStep c
  | .brace => p.braceStep c
  | .braceName measured letters => p.braceNameStep measured letters c
  | .braceSign =>
    if isNameChar c then { p with mode := .braceName true [c] }
    else { p with mode := .braceSignBefore c }
  | .braceSignBefore d => p.braceSignStep d c
  | .edit name => p.editStep name c
  | .colon name => p.colonStep name c
  | .trim name d => p.trimStep name d c
  | .backquote text =>
    if c = backquote then (p.push (.backquoted text.reverse p.isQuoted)).toText
    else if c = '\\' then { p with mode := .backquoteBackslash text }
    else { p with mode := .backquote (c :: text) }
  | .backquoteBackslash text =>
    let text :=
      if c = '\n' then text
      else if c == '\\' || c == '$' || c == backquote || (c == '"' && p.isQuoted) then c :: text
      else c :: '\\' :: text
    { p with mode := .backquote text }
  | .expressionEnd => if c = ')' then p.leaveStretch else (p.pushChar ')').resume c
  | .document line lines =>
    if c = '\n' then p.documentLineStep line lines
    else { p with mode := .document (c :: line) lines }

/-- The end of a line counts. It does not where a brace is followed by something
    else than it should be. -/
def countsLine : Mode → Bool
  | .brace | .braceName .. | .braceSign | .braceSignBefore _ | .edit _ | .colon _ => false
  | _ => true

/-- Takes one character. -/
def step (p : Place) (c : Char) : Place :=
  let q := p.stepIn c
  if c = '\n' && countsLine p.mode then { q with line := p.line + 1 } else q

/-! ## The end -/

/-- What the end of the script makes of the mode, or the fault that it is. -/
def endMode (p : Place) : Except Fault Place :=
  match p.mode with
  | .text | .comment => .ok p
  | .single => .error .openQuotes
  | .backslash => .ok (p.push (.char '\\' true))
  | .sign c => .ok (p.addSign (shortSign c))
  | .redirection c descriptor =>
    .ok (p.addSign
      (if c = '<' then .redirect (descriptor.getD 0) .input
        else .redirect (descriptor.getD 1) .output))
  | .documentSign descriptor => .ok (p.addSign (.redirect (descriptor.getD 0) (.document false)))
  | .dollar => .ok (p.pushChar '$')
  | .name letters => .ok (p.push (.parameter letters.reverse p.isQuoted))
  | .parenthesis => .ok (p.enter (.passage { nested := true }))
  | .braceSignBefore '}' => .ok (p.push (.parameter ['#'] p.isQuoted))
  | .trim name c => .ok (p.enterEdit name (.trim (c == '#') false))
  | .brace | .braceName .. | .braceSign | .braceSignBefore _ | .edit _ | .colon _ =>
    .ok (p.enterEdit [] .unknown)
  | .backquote _ | .backquoteBackslash _ => .error .openBackquote
  | .expressionEnd => .ok (p.pushChar ')')
  | .document line lines =>
    let p := p.documentLineStep line lines
    match p.mode with
    | .document _ lines => .ok (p.mapPassage (·.addDocument (lines.drop 1).reverse p.line))
    | _ => .ok p

/-- What the end of the script leaves of the innermost frame. -/
inductive Rest where
  /-- Nothing. -/
  | nothing
  /-- A fault behind some pieces. -/
  | fault (f : Fault) (pieces : List Piece)
  /-- A word. -/
  | word (w : Word)
  /-- A piece for the frame around it. -/
  | piece (x : Piece)

/-- The rest of a stretch around a rest. -/
def restOfStretch (s : Stretch) : Rest → Rest
  | .piece x =>
    let s := { s with pieces := x :: s.pieces }
    match s.role with
    | .word => .word s.pieces.reverse
    | _ => .piece (s.piece true)
  | .fault f pieces => .fault f (s.pieces.reverse ++ pieces)
  | _ =>
    let fault (f : Fault) : Rest := .fault f s.pieces.reverse
    match s.role with
    | .expression _ => fault .openExpression
    | .word =>
      if s.isQuoted then fault .openQuotes
      else if s.pieces.isEmpty then .nothing
      else .word s.pieces.reverse
    | .edit .. => fault (if s.isQuoted then .openQuotes else .openBrace)

/-- The tokens of a script around a rest. -/
def tokensOfPassage (line : Nat) (a : Passage) (rest : Rest) : List Token :=
  let a := match rest with
    | .fault f pieces => { a with tokens := .fault f pieces line :: a.tokens }
    | .word w => a.addWord w line
    | _ => a
  (.sign .endOfFile line :: a.tokens).reverse

/-- The rest of all frames. -/
def restOf (line : Nat) (rest : Rest) : List Frame → Rest
  | [] => rest
  | .stretch s :: r => restOf line (restOfStretch s rest) r
  | .passage a :: r =>
    restOf line (.piece (.substitution (tokensOfPassage line a rest) true)) r

/-- The rest of everything at the end of the script. -/
def finish (p : Place) : Rest :=
  match p.endMode with
  | .ok p => restOf p.line .nothing p.frames
  | .error f => restOf p.line (.fault f []) p.frames

end Place

/-- The tokens of a script. The last one is the end of the script. -/
def tokens (script : List Char) : List Token :=
  match (script.foldl Place.step {}).finish with
  | .piece (.substitution tokens _) => tokens
  | _ => []

end ContainerJobs.Shell
