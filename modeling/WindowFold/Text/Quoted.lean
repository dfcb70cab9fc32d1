import WindowFold.Text.Visibility

/-! Texts between quotes, as they are shown to a person. -/
namespace WindowFold.Text

/-- Characters that have a sign of their own behind a backslash. -/
def shortEscapes : List (Char × Char) :=
  [('\x00', '0'), ('\t', 't'), ('\n', 'n'), ('\r', 'r'), ('"', '"'), ('\\', '\\')]

/-- What cannot be seen by itself is written as its code point. -/
def quoteChar (c : Char) : List Char :=
  match shortEscapes.lookup c with
  | some sign => ['\\', sign]
  | none =>
    if isAttached c || isHidden c then
      ['\\', 'u', '\x7b'] ++ Nat.toDigits 16 c.toNat ++ ['\x7d']
    else [c]

def quoted (text : String) : String :=
  String.ofList ('"' :: text.toList.flatMap quoteChar ++ ['"'])

end WindowFold.Text
