import WindowFold.Yaml.Place

/-! Tags. A tag is written as a handle and a suffix; a handle stands for the
beginning of a tag. -/
namespace WindowFold.Yaml

/-- The bytes of a tag; escapes may write any but zero. -/
abbrev Tag := List UInt8

namespace Tag

def ofString (text : String) : Tag := text.toUTF8.toList

/-- A tag of the language itself, in full. -/
def standard (kind : String) : Tag := ofString ("tag:yaml.org,2002:" ++ kind)

/-- The tag of a lone exclamation mark, which says nothing. -/
def unspecific : Tag := ofString "!"

/-- The name of a tag of the document's own. -/
def localName? : Tag → Option String
  | 0x21 :: name => String.fromUTF8? ⟨name.toArray⟩
  | _ => none

end Tag

/-- What handles stand for. The two that every document has may be given another meaning. -/
abbrev Handles := List (String × Tag)

namespace Handles

def usual : Handles := [("!", Tag.unspecific), ("!!", Tag.standard "")]

/-- A tag that is written without a handle is its suffix. -/
def tag? (handles : Handles) (handle : String) (suffix : Tag) : Option Tag :=
  if handle.isEmpty then some suffix else (handles.lookup handle).map (· ++ suffix)

end Handles

/-! ### Reading -/

/-- Signs of a suffix that are written as they are. The last ones stand only
between angle brackets and in directions. -/
def isSuffixSign (free : Bool) (c : Char) : Bool :=
  isNameSign c || (";/?:@&=+$.!~*'()".toList.contains c)
    || (free && (c = ',' || c = '[' || c = ']'))

/-- How many bytes the character has that begins with a byte; none begins with the others. -/
def byteCount (first : Nat) : Nat :=
  if first < 0x80 then 1
  else if 0xc0 ≤ first && first < 0xe0 then 2
  else if 0xe0 ≤ first && first < 0xf0 then 3
  else if 0xf0 ≤ first && first < 0xf8 then 4
  else 0

/-- Reads a suffix. A percent sign and two digits are a byte; `missing` is the
number of bytes that are still to come for the last character. -/
def readSuffixFrom (free : Bool) :
    List Char → Position → (missing : Nat) → (bytes : Tag) → Option (Tag × Place)
  | '%' :: high :: low :: rest, p, missing, bytes =>
    match hexDigit? high, hexDigit? low with
    | some x, some y =>
      let byte := 16 * x + y
      let p := ((p.after '%').after high).after low
      if missing = 0 then
        match byteCount byte with
        | 0 => none
        | count + 1 => readSuffixFrom free rest p count (byte.toUInt8 :: bytes)
      else if byte / 64 = 2 then readSuffixFrom free rest p (missing - 1) (byte.toUInt8 :: bytes)
      else none
    | _, _ => none
  | c :: rest, p, missing, bytes =>
    if c = '%' || 0 < missing then none
    else if isSuffixSign free c then
      readSuffixFrom free rest (p.after c) 0 (c.toNat.toUInt8 :: bytes)
    else some (bytes.reverse, ⟨c :: rest, p⟩)
  | [], p, missing, bytes => if 0 < missing then none else some (bytes.reverse, ⟨[], p⟩)

/-- A suffix behind a beginning; something must be there. A byte zero ends it. -/
def readSuffix (free : Bool) (beginning : List Char) (p : Place) : Option (Tag × Place) :=
  match readSuffixFrom free p.rest p.position 0 [] with
  | none => none
  | some (bytes, q) =>
    let all := Tag.ofString (String.ofList (beginning.drop 1)) ++ bytes
    if beginning.isEmpty && bytes.isEmpty then none else some (all.takeWhile (· ≠ 0), q)

/-- An exclamation mark, and perhaps a name and another one. -/
def readHandle (p : Place) : List Char × Place :=
  let (name, q) := (p.skip 1).span isNameSign
  if q.startsWith '!' then ('!' :: name ++ ['!'], q.skip 1) else ('!' :: name, q)

/-- Whether a handle is complete, so that a suffix follows it. -/
def isHandle (handle : List Char) : Bool := 1 < handle.length && handle.getLast? = some '!'

/-- Reads a tag from its exclamation mark on, as a handle and a suffix. A blank
must follow, or a comma of the flow. -/
def readTag (inFlow : Bool) (p : Place) : Option ((String × Tag) × Place) :=
  let found :=
    if (p.skip 1).startsWith '<' then
      match readSuffix true [] (p.skip 2) with
      | none => none
      | some (suffix, q) => if q.startsWith '>' then some (("", suffix), q.skip 1) else none
    else
      let (handle, q) := readHandle p
      if isHandle handle then
        (readSuffix false [] q).map fun (suffix, q) => ((String.ofList handle, suffix), q)
      else
        (readSuffix false handle q).map fun (suffix, q) =>
          (if suffix.isEmpty then ("", Tag.unspecific) else ("!", suffix), q)
  match found with
  | none => none
  | some (tag, q) => if q.endsWord || (inFlow && q.startsWith ',') then some (tag, q) else none

end WindowFold.Yaml
