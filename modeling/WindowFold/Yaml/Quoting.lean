import WindowFold.Yaml.Node
import WindowFold.Yaml.Plain

/-! Which style a text is written in, and how. Plain is best, unless the text
would be cut, joined or taken for a value; several lines are written as they are;
single quotes are better than double ones, which can hold any character. -/
namespace WindowFold.Yaml

/-- Text that begins like something else than plain text. -/
def hasStartSign : List Char → Bool
  | [] => false
  | '-' :: '-' :: '-' :: _ | '.' :: '.' :: '.' :: _ => true
  | c :: rest => isFlowSign c || reservedSigns.contains c
    || ((c = '-' || c = '?' || c = ':') && endsWord rest)

/-- A colon that ends a word, or a `#` that begins one. -/
def hasInnerSign : (afterBlank : Bool) → List Char → Bool
  | _, [] => false
  | afterBlank, c :: rest =>
    (c = ':' && endsWord rest) || (c = '#' && afterBlank) || hasInnerSign (isBlank c) rest

def fitsPlain (cs : List Char) : Bool :=
  cs.all isShown && cs.head? ≠ some ' ' && cs.getLast? ≠ some ' '
    && !hasStartSign cs && !hasInnerSign false cs

/-- A blank before a line break. -/
def hasTrailingBlank : List Char → Bool
  | [] => false
  | c :: rest => (c = ' ' && rest.head?.any isBreak) || hasTrailingBlank rest

/-- A blank behind a line break. -/
def hasLeadingBlank : List Char → Bool
  | [] => false
  | c :: rest => (isBreak c && rest.head? = some ' ') || hasLeadingBlank rest

def fitsLiteral (cs : List Char) : Bool :=
  cs.all (fun c => isShown c || isBreak c) && !hasTrailingBlank cs && cs.getLast? ≠ some ' '

/-- Single quotes hold line breaks other than line feeds. -/
def fitsSingle (cs : List Char) : Bool :=
  cs.all (fun c => isShown c || (isBreak c && c ≠ '\n')) && !hasTrailingBlank cs
    && !hasLeadingBlank cs

/-- The style in which a text is written. -/
def Style.ofText (text : String) : Style :=
  let cs := text.toList
  if Plain.isAmbiguous text then .quoted
  else if cs.contains '\n' then if fitsLiteral cs then .literal else .quoted
  else if fitsPlain cs then .plain
  else .quoted

/-- A scalar that stands for the text. -/
def Node.ofText (text : String) : Node := .scalar (.ofText text) none text

/-! ### Writing scalars -/

def blanks (count : Nat) : List Char := List.replicate count ' '

/-- A quote is written twice. What follows a line break stands at column `column`. -/
def writeSingleFrom (column : Nat) : (fresh : Bool) → List Char → List Char
  | fresh, [] => (if fresh then blanks column else []) ++ ['\'']
  | fresh, c :: rest =>
    if isBreak c then c :: writeSingleFrom column true rest
    else
      (if fresh then blanks column else []) ++ (if c = '\'' then ['\'', '\''] else [c])
        ++ writeSingleFrom column false rest

def writeSingle (column : Nat) (cs : List Char) : List Char :=
  '\'' :: writeSingleFrom column false cs

/-- So many hexadecimal digits. -/
def hexDigits (n : Nat) : (width : Nat) → List Char
  | 0 => []
  | width + 1 => hexDigits (n / 16) width ++ [(Nat.digitChar (n % 16)).toUpper]

/-- A sign of its own if the character has one, else its code point. -/
def writeEscape (c : Char) : List Char :=
  match escapes.find? (·.2 = c) with
  | some (sign, _) => ['\\', sign]
  | none =>
    let n := c.toNat
    if n ≤ 0xff then '\\' :: 'x' :: hexDigits n 2
    else if n ≤ 0xffff then '\\' :: 'u' :: hexDigits n 4
    else '\\' :: 'U' :: hexDigits n 8

def writeDouble (cs : List Char) : List Char :=
  let plain (c : Char) : Bool := isShown c && c ≠ '"' && c ≠ '\\'
  ['"'] ++ cs.flatMap (fun c => if plain c then [c] else writeEscape c) ++ ['"']

/-- What follows the bar: how deep the text is, if its first line begins with a
blank or is empty, and what becomes of the breaks at its end. -/
def literalSigns (cs : List Char) : List Char :=
  let indent := if cs.head?.any (fun c => c = ' ' || isBreak c) then ['2'] else []
  let chomp :=
    match cs.reverse with
    | [] => ['-']
    | last :: before =>
      if !isBreak last then ['-']
      else if before.isEmpty || before.head?.any isBreak then ['+']
      else []
  indent ++ chomp

/-- The lines of a text, each at column `column` unless it is empty. -/
def indentLines (column : Nat) : (atStart : Bool) → List Char → List Char
  | _, [] => []
  | atStart, c :: rest =>
    if isBreak c then c :: indentLines column true rest
    else (if atStart then blanks column else []) ++ c :: indentLines column false rest

/-- A text line by line. A break at its end is the break after its last line. -/
def writeLiteral (column : Nat) (cs : List Char) : List Char :=
  ['|'] ++ literalSigns cs ++ ['\n'] ++ indentLines column true cs
    ++ if cs.getLast?.any isBreak then [] else ['\n']

/-- A scalar, up to the end of its line. Further lines stand at column `column`. -/
def writeScalar (column : Nat) (style : Style) (text : String) : List Char :=
  let cs := text.toList
  match style with
  | .plain => cs ++ ['\n']
  | .quoted => (if fitsSingle cs then writeSingle column cs else writeDouble cs) ++ ['\n']
  | .literal | .folded => writeLiteral column cs

end WindowFold.Yaml
