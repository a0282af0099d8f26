/-!
# Quoting for a shell

A word is handed to a POSIX shell so that the shell reads exactly this word,
whatever characters it holds. Words of harmless characters stay as they are;
all others are put between single quotes, and a single quote inside is written
outside of them, after a backslash.
-/

namespace ContainerJobs.Shell

/-- A character that means nothing to a shell. -/
def isPlain (c : Char) : Bool :=
  c.isAlphanum || "._/-:@=+,".toList.contains c

/-- A character between single quotes. -/
def quoteChar (c : Char) : List Char :=
  if c = '\'' then ['\'', '\\', '\'', '\''] else [c]

/-- The text that a shell reads as one given word, as characters. -/
def quoted (l : List Char) : List Char :=
  if !l.isEmpty && l.all isPlain then l else '\'' :: (l.flatMap quoteChar ++ ['\''])

/-- The text that a shell reads as one given word. -/
def quote (word : String) : String :=
  String.ofList (quoted word.toList)

end ContainerJobs.Shell
