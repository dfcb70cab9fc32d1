import WindowFold.Yaml.Place

/-! Reading plain and quoted text. A line break within it reads as a blank, and
further breaks as themselves. -/
namespace WindowFold.Yaml

/-- What stands between two stretches of text: blanks, or line breaks. -/
inductive Gap where
  | blanks (reversed : List Char)
  /-- The first break, unless it was escaped, and later ones, the last of them first. -/
  | breaks (first : Option Char) (later : List Char)
  deriving DecidableEq

namespace Gap

def none : Gap := .blanks []

def addBlank (c : Char) : Gap → Gap
  | blanks cs => blanks (c :: cs)
  | gap => gap

def addBreak (c : Char) : Gap → Gap
  | blanks _ => breaks (some c) []
  | breaks first later => breaks first (c :: later)

/-- The text that the gap stands for, put before `reversed`. -/
def onto (gap : Gap) (reversed : List Char) : List Char :=
  match gap with
  | blanks cs => cs ++ reversed
  | breaks (some '\n') [] => ' ' :: reversed
  | breaks (some '\n') later => later ++ reversed
  | breaks first later => later ++ first.toList ++ reversed

def onNewLine : Gap → Bool
  | blanks _ => false
  | breaks _ _ => true

def isEmpty : Gap → Bool
  | blanks [] => true
  | _ => false

end Gap

/-- A scalar that has been read, and the place behind it. -/
structure ScalarRead where
  text : String
  place : Place
  /-- Only blanks stand before the place on its line. -/
  onNewLine : Bool

/-- Where plain text ends: before a colon that ends a word, before a sign of
the flow it stands in, and at a comment. -/
def endsPlain (inFlow : Bool) (gap : Gap) (c : Char) (rest : List Char) : Bool :=
  (c = '#' && !gap.isEmpty) || (c = ':' && endsWord rest) || (inFlow && isFlowSign c)

/-- A colon of the flow that no blank follows. -/
def strayColon (inFlow : Bool) (c : Char) (rest : List Char) : Bool :=
  inFlow && c = ':' &&
    match rest with
    | d :: _ => d = '?' || isFlowSign d
    | [] => false

/-- Reads plain text. Outside of the flow, a line that begins before column
`level` does not belong to it. -/
def readPlainFrom (inFlow : Bool) (level : Nat) :
    List Char → Position → (text : List Char) → Gap → Option ScalarRead
  | [], p, text, gap => some ⟨String.ofList text.reverse, ⟨[], p⟩, gap.onNewLine⟩
  | c :: rest, p, text, gap =>
    if isBlank c then
      if gap.onNewLine && p.column < level && c = '\t' then none
      else readPlainFrom inFlow level rest (p.after c) text (gap.addBlank c)
    else if isBreak c then readPlainFrom inFlow level rest (p.after c) text (gap.addBreak c)
    else
      let outside :=
        (gap.onNewLine && !inFlow && p.column < level) || Place.atMark ⟨c :: rest, p⟩
      if !outside && strayColon inFlow c rest then none
      else if outside || endsPlain inFlow gap c rest then
        some ⟨String.ofList text.reverse, ⟨c :: rest, p⟩, gap.onNewLine⟩
      else readPlainFrom inFlow level rest (p.after c) (c :: gap.onto text) .none

def readPlain (inFlow : Bool) (level : Nat) (p : Place) : Option ScalarRead :=
  readPlainFrom inFlow level p.rest p.position [] .none

/-- Reads what follows a single quote; two of them stand for one. -/
def readSingleFrom : List Char → Position → (text : List Char) → Gap → Option ScalarRead
  | [], _, _, _ => none
  | '\'' :: '\'' :: rest, p, text, gap =>
    readSingleFrom rest ((p.after '\'').after '\'') ('\'' :: gap.onto text) .none
  | c :: rest, p, text, gap =>
    if c = '\'' then
      some ⟨String.ofList (gap.onto text).reverse, ⟨rest, p.after c⟩, false⟩
    else if isBlank c then readSingleFrom rest (p.after c) text (gap.addBlank c)
    else if isBreak c then readSingleFrom rest (p.after c) text (gap.addBreak c)
    else if Place.atMark ⟨c :: rest, p⟩ then none
    else readSingleFrom rest (p.after c) (c :: gap.onto text) .none

/-- How far into an escape the text is. -/
inductive EscapeState where
  | outside
  | begun
  | code (digits : Nat) (value : Nat)
  deriving DecidableEq

/-- Reads what follows a double quote. -/
def readDoubleFrom : List Char → Position → (text : List Char) → Gap → EscapeState →
    Option ScalarRead
  | [], _, _, _, _ => none
  | c :: rest, p, text, gap, .code digits value =>
    match hexDigit? c with
    | none => none
    | some d =>
      let value := 16 * value + d
      if 1 < digits then
        readDoubleFrom rest (p.after c) text gap (.code (digits - 1) value)
      else if value.isValidChar then
        readDoubleFrom rest (p.after c) (Char.ofNat value :: text) .none .outside
      else none
  | c :: rest, p, text, gap, .begun =>
    if isBreak c then
      readDoubleFrom rest (p.after c) (gap.onto text) (.breaks none []) .outside
    else
      match escapes.lookup c, codeWidths.lookup c with
      | some d, _ => readDoubleFrom rest (p.after c) (d :: gap.onto text) .none .outside
      | none, some width =>
        readDoubleFrom rest (p.after c) (gap.onto text) .none (.code width 0)
      | none, none => none
  | c :: rest, p, text, gap, .outside =>
    if c = '"' then
      some ⟨String.ofList (gap.onto text).reverse, ⟨rest, p.after c⟩, false⟩
    else if isBlank c then readDoubleFrom rest (p.after c) text (gap.addBlank c) .outside
    else if isBreak c then readDoubleFrom rest (p.after c) text (gap.addBreak c) .outside
    else if Place.atMark ⟨c :: rest, p⟩ then none
    else if c = '\\' then readDoubleFrom rest (p.after c) text gap .begun
    else readDoubleFrom rest (p.after c) (c :: gap.onto text) .none .outside

/-- Reads quoted text from its first quote on. -/
def readQuoted (p : Place) : Option ScalarRead :=
  match p.rest with
  | '\'' :: rest => readSingleFrom rest (p.position.after '\'') [] .none
  | '"' :: rest => readDoubleFrom rest (p.position.after '"') [] .none .outside
  | _ => none

end WindowFold.Yaml
