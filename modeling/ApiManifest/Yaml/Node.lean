import ApiManifest.Yaml.Token.Scan

/-!
The nodes of a YAML document. A reference to an anchor stays a reference: what it stands for is
looked up only where its value is asked for, so a node may be met many times, or contain itself.
-/

namespace ApiManifest.Yaml

inductive Node where
  | scalar (tag : Option String) (style : Style) (text : String)
  | sequence (tag : Option String) (items : List Node)
  | mapping (tag : Option String) (entries : List (Node × Node))
  | reference (anchor : Nat)
  deriving Inhabited

namespace Node

/-- A value that is left out. -/
def absent : Node :=
  .scalar none .plain ""

mutual

/-- The size of a node: one for a scalar or a reference, two for a collection besides what it
holds. -/
def size : Node → Nat
  | .scalar .. => 1
  | .reference _ => 1
  | .sequence _ items => 2 + sizeItems items
  | .mapping _ entries => 2 + sizeEntries entries

def sizeItems : List Node → Nat
  | [] => 0
  | item :: rest => size item + sizeItems rest

def sizeEntries : List (Node × Node) → Nat
  | [] => 0
  | (key, value) :: rest => size key + size value + sizeEntries rest

end

end Node

/-- The anchors met so far. An anchor is known by a number, that of the names before it; a name
that comes again takes a number that the next new name shares with it, and a number stands for the
node that took it last. -/
structure Anchors where
  numbers : List (List Char × Nat) := []
  /-- The anchored node each number stands for. -/
  latest : List (Nat × Nat) := []
  /-- The anchored nodes that are complete. -/
  nodes : List (Nat × Node) := []
  count : Nat := 0

namespace Anchors

/-- Gives a number to a name, for the node that starts here. -/
def declare (anchors : Anchors) (name : List Char) : Anchors :=
  let number := anchors.numbers.length
  { anchors with
    numbers := (name, number) :: anchors.numbers.filter (fun entry => entry.1 ≠ name)
    latest := (number, anchors.count) :: anchors.latest
    count := anchors.count + 1 }

def complete (anchors : Anchors) (position : Nat) (node : Node) : Anchors :=
  { anchors with nodes := (position, node) :: anchors.nodes }

/-- The node a number stands for. -/
def resolve? (anchors : Anchors) (number : Nat) : Option Node :=
  (anchors.latest.lookup number).bind (fun position => anchors.nodes.lookup position)

end Anchors

/-- What is left to read, the anchors met so far, and the meaning of tag handles. -/
structure ParseState where
  tokens : List Token
  anchors : Anchors
  handles : List (List Char × List Char)

abbrev Parse (α : Type) := StateT ParseState Option α

namespace Parse

def peek : Parse (Option Token) := do
  return (← get).tokens.head?

def skip : Parse Unit :=
  modify (fun state => { state with tokens := state.tokens.drop 1 })

/-- Passes over the token if it stands here. -/
def accept (token : Token) : Parse Bool := do
  if (← peek) = some token then
    skip
    return true
  else
    return false

def expect (token : Token) : Parse Unit := do
  if !(← accept token) then failure

/-- Whether one of the tokens, or nothing, stands here. -/
def atAny (tokens : List Token) : Parse Bool := do
  match ← peek with
  | some token => return tokens.contains token
  | none => return true

/-- A tag written out: its handle replaced by what it stands for. -/
def fullTag (handle suffix : List Char) : Parse String := do
  if handle.isEmpty then return String.ofList suffix
  else
    match (← get).handles.lookup handle with
    | some leading => return String.ofList (leading ++ suffix)
    | none => failure

structure Properties where
  anchor : Option (List Char) := none
  tag : Option String := none

def anchor? : Parse (Option (List Char)) := do
  match ← peek with
  | some (.anchor name) =>
    skip
    return some name
  | _ => return none

def tag? : Parse (Option String) := do
  match ← peek with
  | some (.tag handle suffix) =>
    skip
    return some (← fullTag handle suffix)
  | _ => return none

/-- The anchor and the tag of a node, in either order. -/
def properties : Parse Properties := do
  match ← anchor? with
  | some name => return ⟨some name, ← tag?⟩
  | none =>
    match ← tag? with
    | some tag => return ⟨← anchor?, some tag⟩
    | none => return {}

mutual

/-- A node, which is a block collection only if `block` holds; `indentless` admits a sequence
that stands at the column of the mapping around it. -/
def node (block indentless : Bool) : Nat → Parse Node
  | 0 => failure
  | fuel + 1 => do
    match ← peek with
    | some (.reference name) =>
      skip
      match (← get).anchors.numbers.lookup name with
      | some number => return .reference number
      | none => failure
    | _ =>
      let properties ← properties
      match properties.anchor with
      | some name =>
        let position := (← get).anchors.count
        modify (fun state => { state with anchors := state.anchors.declare name })
        let result ← content properties block indentless fuel
        modify (fun state => { state with anchors := state.anchors.complete position result })
        return result
      | none => content properties block indentless fuel

def content (properties : Properties) (block indentless : Bool) : Nat → Parse Node
  | 0 => failure
  | fuel + 1 => do
    match ← peek with
    | some (.scalar style text) =>
      skip
      return .scalar properties.tag style (String.ofList text)
    | some .flowSequenceStart =>
      skip
      return .sequence properties.tag (← flowItems true fuel)
    | some .flowMappingStart =>
      skip
      return .mapping properties.tag (← flowEntries true fuel)
    | some .blockSequenceStart =>
      if block then
        skip
        return .sequence properties.tag (← blockItems fuel)
      else if properties.anchor.isSome || properties.tag.isSome then
        return .scalar properties.tag .plain ""
      else failure
    | some .blockMappingStart =>
      if block then
        skip
        return .mapping properties.tag (← blockEntries fuel)
      else if properties.anchor.isSome || properties.tag.isSome then
        return .scalar properties.tag .plain ""
      else failure
    | some .blockEntry =>
      if indentless then return .sequence properties.tag (← indentlessItems fuel)
      else if properties.anchor.isSome || properties.tag.isSome then
        return .scalar properties.tag .plain ""
      else failure
    | _ =>
      if properties.anchor.isSome || properties.tag.isSome then
        return .scalar properties.tag .plain ""
      else failure

def blockItems : Nat → Parse (List Node)
  | 0 => failure
  | fuel + 1 => do
    if ← accept .blockEntry then
      let item ← if ← atAny [.blockEntry, .blockEnd] then pure .absent else node true false fuel
      return item :: (← blockItems fuel)
    else
      expect .blockEnd
      return []

def indentlessItems : Nat → Parse (List Node)
  | 0 => failure
  | fuel + 1 => do
    if ← accept .blockEntry then
      let item ← if ← atAny [.blockEntry, .key, .value, .blockEnd] then pure .absent
        else node true false fuel
      return item :: (← indentlessItems fuel)
    else return []

def blockEntries : Nat → Parse (List (Node × Node))
  | 0 => failure
  | fuel + 1 => do
    if ← accept .key then
      let key ← if ← atAny [.key, .value, .blockEnd] then pure .absent else node true true fuel
      let value ←
        if ← accept .value then
          if ← atAny [.key, .value, .blockEnd] then pure .absent else node true true fuel
        else pure .absent
      return (key, value) :: (← blockEntries fuel)
    else
      expect .blockEnd
      return []

/-- The value after a key in a flow collection that ends with `close`. -/
def flowValue (close : Token) : Nat → Parse Node
  | 0 => failure
  | fuel + 1 => do
    if ← accept .value then
      if ← atAny [.flowEntry, close] then return .absent else node false false fuel
    else return .absent

def flowItems (first : Bool) : Nat → Parse (List Node)
  | 0 => failure
  | fuel + 1 => do
    if ← accept .flowSequenceEnd then return []
    else
      if !first then expect .flowEntry
      if ← accept .key then
        -- A pair inside a sequence is a mapping of its own. Where its key is missing, the next
        -- token is passed over with it.
        let key ←
          if ← atAny [.value, .flowEntry, .flowSequenceEnd] then
            skip
            pure .absent
          else node false false fuel
        let value ← flowValue .flowSequenceEnd fuel
        return .mapping none [(key, value)] :: (← flowItems false fuel)
      else if ← accept .flowSequenceEnd then return []
      else
        let item ← node false false fuel
        return item :: (← flowItems false fuel)

def flowEntries (first : Bool) : Nat → Parse (List (Node × Node))
  | 0 => failure
  | fuel + 1 => do
    if ← accept .flowMappingEnd then return []
    else
      if !first then expect .flowEntry
      if ← accept .key then
        let key ← if ← atAny [.value, .flowEntry, .flowMappingEnd] then pure .absent
          else node false false fuel
        let value ← flowValue .flowMappingEnd fuel
        return (key, value) :: (← flowEntries false fuel)
      else if ← accept .flowMappingEnd then return []
      else
        let key ← node false false fuel
        return (key, .absent) :: (← flowEntries false fuel)

end

def defaultHandles : List (List Char × List Char) :=
  [(['!'], ['!']), (['!', '!'], "tag:yaml.org,2002:".toList)]

/-- The directives in front of a document. A version may come once and must be 1.1 or 1.2, and
each handle is given a meaning once. -/
def directives (versioned : Bool) (handles : List (List Char × List Char)) : Nat → Parse Bool
  | 0 => failure
  | fuel + 1 => do
    match ← peek with
    | some (.version major minor) =>
      if versioned || major ≠ 1 || (minor ≠ 1 && minor ≠ 2) then failure
      skip
      directives true handles fuel
    | some (.tagDirective handle leading) =>
      if (handles.lookup handle).isSome then failure
      skip
      directives versioned (handles ++ [(handle, leading)]) fuel
    | _ =>
      modify (fun state => { state with handles := handles ++ defaultHandles })
      return versioned || !handles.isEmpty

def isDocumentBound (token : Token) : Bool :=
  match token with
  | .version .. => true
  | .tagDirective .. => true
  | .documentStart => true
  | .documentEnd => true
  | _ => false

/-- The root of the only document, none if there is no document at all. -/
def document (fuel : Nat) : Parse (Option Node) := do
  if (← peek).isNone then return none
  else
    let marked ← directives false [] fuel
    let started ← accept .documentStart
    if marked && !started then failure
    let empty := match ← peek with
      | some token => started && isDocumentBound token
      | none => started
    let root ← if empty then pure .absent else node true false fuel
    modify (fun state => { state with tokens := state.tokens.dropWhile (· = .documentEnd) })
    if (← peek).isSome then failure
    return some root

end Parse

/-- A text that holds at most one document, with the anchors of that document. -/
structure Stream where
  root : Option Node
  anchors : Anchors

namespace Stream

def size (stream : Stream) : Nat :=
  match stream.root with
  | some node => node.size
  | none => 1

def parse? (text : List Char) : Option Stream := do
  let tokens ← tokens? text
  let (root, state) ← (Parse.document (4 * tokens.length + 8)).run ⟨tokens, {}, []⟩
  some ⟨root, state.anchors⟩

end Stream

end ApiManifest.Yaml
