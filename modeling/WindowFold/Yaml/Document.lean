import WindowFold.Yaml.Node.Builder
import WindowFold.Yaml.Token.Lexer

/-! Documents: directions, a node, and what it repeats. -/
namespace WindowFold.Yaml

/-- Reads directions. The version is given once at most, and so is a handle. -/
def readDirections : List Token → (versioned : Bool) → Handles → Option (Handles × List Token)
  | .version major minor :: rest, versioned, handles =>
    if versioned || major ≠ 1 || (minor ≠ 1 && minor ≠ 2) then none
    else readDirections rest true handles
  | .handle name tag :: rest, versioned, handles =>
    if (handles.lookup name).isSome then none
    else readDirections rest versioned ((name, tag) :: handles)
  | tokens, _, handles => some (handles ++ Handles.usual, tokens)

/-- The node of the only document. It has a mark before it if directions do; end
marks may follow it, and nothing else. -/
def readRoot (tokens : List Token) : Option Node :=
  let fuel := 4 * tokens.length + 4
  let opened :=
    match tokens with
    | .version _ _ :: _ | .handle _ _ :: _ | .documentStart :: _ =>
      match readDirections tokens false [] with
      | some (handles, .documentStart :: rest) => some (handles, rest, true)
      | _ => none
    | _ => some (Handles.usual, tokens, tokens.isEmpty)
  match opened with
  | none => none
  | some (handles, tokens, mayBeEmpty) =>
    let ended :=
      match tokens with
      | .version _ _ :: _ | .handle _ _ :: _ | .documentStart :: _ | .documentEnd :: _ | [] => true
      | _ => false
    let found :=
      if mayBeEmpty && ended then some (Node.empty, ⟨tokens, []⟩)
      else readNode handles fuel true false ⟨tokens, []⟩
    match found with
    | none => none
    | some (node, c) => if c.tokens.all (· = .documentEnd) then some node else none

/-- Reads the only document of a text. An empty text has an empty one. -/
def readDocument (text : String) : Option Node := (Token.ofText? text).bind readRoot

end WindowFold.Yaml
