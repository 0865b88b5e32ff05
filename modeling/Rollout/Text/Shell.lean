/-!
# Command lines of a shell

How a shell takes a command line apart before it runs anything: into words, which lose their
quotes, and operators. A line that ends within quotes has no parts. Nor has one with a bare
character by which a word may come to stand for other words: whether it does, and for which, is
not decided here.
-/

namespace Rollout.Shell

/-- A part of a command line. An operator of several characters is as many parts, and a line end
is one. -/
inductive Token where
  | word (text : String)
  | operator (c : Char)
deriving DecidableEq, Repr

def apostrophe : Char := Char.ofNat 39

def isBlank (c : Char) : Bool := c = ' ' || c = '\t'

def isOperator (c : Char) : Bool := ['\n', '|', '&', ';', '<', '>', '(', ')'].contains c

def isQuoting (c : Char) : Bool := ['\\', '"', apostrophe].contains c

/-- The characters that begin an expansion also between double quotes. -/
def isSubstituting (c : Char) : Bool := ['$', '\x60'].contains c

/-- The characters by which a word may stand for other words: substitutions, patterns of file
names, alternatives in braces and home folders. -/
def isExpanding (c : Char) : Bool := isSubstituting c || ['*', '?', '[', '\x7b', '~'].contains c

/-- Where in a line a shell is: outside of quotes, in a comment, within quotes, or behind a
backslash outside of quotes or within double ones. -/
inductive Mode where
  | bare
  | comment
  | escaped
  | single
  | double
  | doubleEscaped
deriving DecidableEq, Repr

/-- What has been read of a line: its parts, the word that has begun, and where the reading is. -/
structure State where
  tokens : List Token := []
  word : Option (List Char) := none
  mode : Mode := .bare
deriving DecidableEq, Repr

namespace State

/-- Adds to the word, which begins if there is none. -/
def add (s : State) (cs : List Char) : State := { s with word := some (s.word.getD [] ++ cs) }

/-- Ends the word, if there is one. -/
def close (s : State) : State :=
  { s with
    tokens := s.tokens ++ (s.word.map fun cs => .word (String.ofList cs)).toList
    word := none }

def operator (s : State) (c : Char) : State :=
  { s.close with tokens := s.close.tokens ++ [.operator c] }

def within (s : State) (mode : Mode) : State := { s with mode }

end State

/-- Reads one character. -/
def step (s : State) (c : Char) : Option State :=
  match s.mode with
  | .bare =>
    if isBlank c then some s.close
    else if isOperator c then some (s.operator c)
    else if c = '#' ∧ s.word = none then some (s.within .comment)
    else if c = '\\' then some (s.within .escaped)
    else if c = '"' then some ((s.add []).within .double)
    else if c = apostrophe then some ((s.add []).within .single)
    else if isExpanding c then none
    else some (s.add [c])
  | .comment => if c = '\n' then some ((s.operator c).within .bare) else some s
  | .escaped => if c = '\n' then some (s.within .bare) else some ((s.add [c]).within .bare)
  | .single => if c = apostrophe then some (s.within .bare) else some (s.add [c])
  | .double =>
    if c = '"' then some (s.within .bare)
    else if c = '\\' then some (s.within .doubleEscaped)
    else if isSubstituting c then none
    else some (s.add [c])
  | .doubleEscaped =>
    if c = '\n' then some (s.within .double)
    else if c = '"' ∨ c = '\\' ∨ isSubstituting c then some ((s.add [c]).within .double)
    else some ((s.add ['\\', c]).within .double)

def run (s : State) (cs : List Char) : Option State := cs.foldlM step s

/-- Whether a line can end here. -/
def State.isOpen (s : State) : Bool := s.mode = .bare || s.mode = .comment

/-- The parts of a command line. -/
def tokens? (line : String) : Option (List Token) :=
  ((run {} line.toList).filter State.isOpen).map fun s => s.close.tokens

example : tokens? "compile 'web app' a\\ b\"c\">out # all" =
    some [.word "compile", .word "web app", .word "a bc", .operator '>', .word "out"] := by
  decide +kernel

end Rollout.Shell
