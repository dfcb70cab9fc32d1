/-! The characters of YAML by what they do. -/
namespace WindowFold.Yaml

def isBlank (c : Char) : Bool := c = ' ' || c = '\t'

/-- Where a line ends. All other breaks are read as the first of these. -/
def isBreak (c : Char) : Bool := c = '\n' || c = '\u2028' || c = '\u2029'

/-- A blank, a line break or the end. -/
def endsWord : List Char → Bool
  | [] => true
  | c :: _ => isBlank c || isBreak c

/-- The marks between documents stand at the start of a line. -/
def isMark (mark : Char) : List Char → Bool
  | a :: b :: c :: rest => a = mark && b = mark && c = mark && endsWord rest
  | _ => false

def isFlowSign (c : Char) : Bool :=
  c = ',' || c = '[' || c = ']' || c = '\x7b' || c = '\x7d'

/-- Signs outside of flow style that no plain text begins with. -/
def reservedSigns : List Char := ['#', '&', '*', '!', '|', '>', '\'', '"', '%', '@', '\x60']

/-- The signs of names. -/
def isNameSign (c : Char) : Bool := c.isAlphanum || c = '-' || c = '_'

def hexDigit? (c : Char) : Option Nat :=
  if c.isDigit then some (c.toNat - '0'.toNat)
  else if 'a' ≤ c && c ≤ 'f' then some (c.toNat - 'a'.toNat + 10)
  else if 'A' ≤ c && c ≤ 'F' then some (c.toNat - 'A'.toNat + 10)
  else none

/-- Signs that stand for one character after a backslash. -/
def escapes : List (Char × Char) :=
  [('0', '\x00'), ('a', '\x07'), ('b', '\x08'), ('t', '\t'), ('\t', '\t'), ('n', '\n'),
    ('v', '\x0b'), ('f', '\x0c'), ('r', '\r'), ('e', '\x1b'), (' ', ' '), ('"', '"'),
    ('/', '/'), ('\\', '\\'), ('N', '\u0085'), ('_', '\u00a0'), ('L', '\u2028'), ('P', '\u2029')]

/-- Signs that are followed by so many hexadecimal digits of a code point. -/
def codeWidths : List (Char × Nat) := [('x', 2), ('u', 4), ('U', 8)]

/-- Characters that a document may hold. -/
def isAllowed (c : Char) : Bool :=
  let n := c.toNat
  n = 9 || n = 10 || n = 13 || (32 ≤ n && n ≤ 126) || n = 133 || (160 ≤ n && n ≤ 65533) || 65536 ≤ n

/-- Characters of a line that are written without an escape. -/
def isShown (c : Char) : Bool :=
  isAllowed c && 32 ≤ c.toNat && c ≠ '\u0085' && c ≠ '\ufeff' && !isBreak c

/-- Every pair of return and line feed, and every other break of ASCII's kind, as a line feed. -/
def unifyBreaks : List Char → List Char
  | '\r' :: '\n' :: rest => '\n' :: unifyBreaks rest
  | c :: rest => (if c = '\r' || c = '\u0085' then '\n' else c) :: unifyBreaks rest
  | [] => []

end WindowFold.Yaml
