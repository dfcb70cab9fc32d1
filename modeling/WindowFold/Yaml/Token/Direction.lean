import WindowFold.Yaml.Token

/-! Reading directions: lines before a document that begin with a percent sign. -/
namespace WindowFold.Yaml

/-- A number of at most nine digits. -/
private def readVersionNumber (p : Place) : Option (Nat × Place) :=
  let (digits, q) := p.span Char.isDigit
  if digits.isEmpty || 9 < digits.length then none
  else some (digits.foldl (fun n c => 10 * n + (c.toNat - '0'.toNat)) 0, q)

/-- Two numbers with a point between them. -/
def readVersion (p : Place) : Option (Token × Place) :=
  match readVersionNumber (p.skipWhile isBlank) with
  | none => none
  | some (major, q) =>
    if q.startsWith '.' then
      (readVersionNumber (q.skip 1)).map fun (minor, q) => (.version major minor, q)
    else none

/-- A handle and the tag that it stands for. -/
def readHandleMeaning (p : Place) : Option (Token × Place) :=
  let p := p.skipWhile isBlank
  if !p.startsWith '!' then none
  else
    let (handle, q) := readHandle p
    if (isHandle handle || handle = ['!']) && q.rest.head?.any isBlank then
      match readSuffix true [] (q.skipWhile isBlank) with
      | none => none
      | some (tag, q) =>
        if q.endsWord then some (.handle (String.ofList handle) tag, q) else none
    else none

/-- Reads a line from its percent sign on. -/
def readDirection (p : Place) : Option (Token × Place) :=
  let (name, q) := (p.skip 1).span isNameSign
  let found :=
    if !q.endsWord then none
    else if name = "YAML".toList then readVersion q
    else if name = "TAG".toList then readHandleMeaning q
    else none
  match found with
  | none => none
  | some (token, q) => q.endLine?.map (token, ·)

end WindowFold.Yaml
