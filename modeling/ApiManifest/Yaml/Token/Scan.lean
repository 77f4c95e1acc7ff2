import ApiManifest.Yaml.Token.Scalar

/-!
The tokens of a text, in one pass over its characters. Only a colon shows that what stood before
it was a key, so the pass remembers where a key may have begun, and where the colon comes it notes
that a key, and perhaps a block mapping, starts at that token.
-/

namespace ApiManifest.Yaml

/-- The place of a token that may turn out to be a key. -/
structure KeyCandidate where
  /-- The number of tokens before it. -/
  position : Nat
  /-- A key must stand here: nothing else may begin at this column. -/
  required : Bool
  index : Nat
  line : Nat
  column : Nat

/-- A key that was found: the token it starts at, and whether a block mapping starts there. -/
structure FoundKey where
  position : Nat
  opens : Bool

/-- The tokens that mark a key. -/
def FoundKey.marks (found : FoundKey) : List Token :=
  if found.opens then [.blockMappingStart, .key] else [.key]

structure Scan where
  cursor : Cursor
  /-- The columns of the open block collections, the innermost first. -/
  indents : List Nat
  /-- The candidates of the open flow collections, the innermost first; the last is that of the
  block context. -/
  candidates : List (Option KeyCandidate)
  keyAllowed : Bool
  count : Nat
  /-- The tokens, the last one first. -/
  tokens : List Token
  /-- The keys that were found, the last token first. -/
  keys : List FoundKey

namespace Scan

def start (text : List Char) : Scan :=
  ⟨.start text, [], [none], true, 0, [], []⟩

def inFlow (scan : Scan) : Bool :=
  1 < scan.candidates.length

def push (scan : Scan) (token : Token) : Scan :=
  { scan with tokens := token :: scan.tokens, count := scan.count + 1 }

def moveTo (scan : Scan) (cursor : Cursor) : Scan :=
  { scan with cursor := cursor }

/-- Passes over blanks, comments and line breaks. A tab is blank only where no key could start,
and a byte order mark may begin a line. -/
def toToken (scan : Scan) : Nat → Scan
  | 0 => scan
  | fuel + 1 =>
    let cursor := scan.cursor
    let cursor :=
      if cursor.column = 0 && cursor.rest.head? = some '\ufeff' then cursor.skip 1 else cursor
    let cursor := cursor.skipWhile (fun c =>
      c = ' ' || (c = '\t' && (scan.inFlow || !scan.keyAllowed)))
    let cursor := if cursor.rest.head? = some '#' then cursor.skipToLineEnd else cursor
    if cursor.rest.head?.any isBreak then
      toToken
        { scan with cursor := cursor.skipBreak, keyAllowed := scan.keyAllowed || !scan.inFlow } fuel
    else scan.moveTo cursor

/-- A key ends on the line it began on, within 1024 characters. -/
def isStale (cursor : Cursor) (candidate : KeyCandidate) : Bool :=
  candidate.line < cursor.line || candidate.index + 1024 < cursor.index

def dropStaleFrom (cursor : Cursor) :
    List (Option KeyCandidate) → Option (List (Option KeyCandidate))
  | [] => some []
  | none :: rest => (dropStaleFrom cursor rest).map (none :: ·)
  | some candidate :: rest =>
    if isStale cursor candidate then
      if candidate.required then none else (dropStaleFrom cursor rest).map (none :: ·)
    else (dropStaleFrom cursor rest).map (some candidate :: ·)

/-- Gives up the candidates that can no longer be keys; fails if one of them had to be. -/
def dropStale (scan : Scan) : Option Scan :=
  (dropStaleFrom scan.cursor scan.candidates).map (fun candidates =>
    { scan with candidates := candidates })

/-- Gives up the innermost candidate. -/
def dropCandidate (scan : Scan) : Option Scan :=
  match scan.candidates with
  | some candidate :: rest =>
    if candidate.required then none else some { scan with candidates := none :: rest }
  | _ => some scan

/-- Remembers that a key may start here. -/
def saveCandidate (scan : Scan) : Option Scan :=
  if scan.keyAllowed then do
    let scan ← scan.dropCandidate
    let required := !scan.inFlow && decide (scan.indents.head? = some scan.cursor.column)
    let candidate : KeyCandidate :=
      ⟨scan.count, required, scan.cursor.index, scan.cursor.line, scan.cursor.column⟩
    some { scan with candidates := some candidate :: scan.candidates.drop 1 }
  else some scan

/-- Closes the block collections that stand deeper than a column; none closes all of them. -/
def unroll (scan : Scan) (column : Option Nat) : Scan :=
  if scan.inFlow then scan
  else
    let closed := scan.indents.takeWhile (fun indent => column.all (fun column => column < indent))
    { scan with
      indents := scan.indents.drop closed.length
      tokens := List.replicate closed.length .blockEnd ++ scan.tokens
      count := scan.count + closed.length }

/-- Whether a block collection at this column would be a new one. -/
def opensAt (scan : Scan) (column : Nat) : Bool :=
  !scan.inFlow && scan.indents.head?.all (fun indent => indent < column)

/-- Opens a block collection at the present column, unless one is open there. -/
def roll (scan : Scan) (token : Token) : Scan :=
  if scan.opensAt scan.cursor.column then
    { scan.push token with indents := scan.cursor.column :: scan.indents }
  else scan

def single (scan : Scan) (token : Token) : Scan :=
  (scan.push token).moveTo (scan.cursor.skip 1)

def flowStart (scan : Scan) (token : Token) : Option Scan := do
  let scan ← scan.saveCandidate
  some { scan.single token with candidates := none :: scan.candidates, keyAllowed := true }

def flowEnd (scan : Scan) (token : Token) : Option Scan := do
  let scan ← scan.dropCandidate
  let candidates := if scan.inFlow then scan.candidates.drop 1 else scan.candidates
  some { scan.single token with candidates := candidates, keyAllowed := false }

def flowEntry (scan : Scan) : Option Scan := do
  let scan ← scan.dropCandidate
  some { scan.single .flowEntry with keyAllowed := true }

def blockEntry (scan : Scan) : Option Scan :=
  if !scan.inFlow && !scan.keyAllowed then none
  else do
    let scan ← (if scan.inFlow then scan else scan.roll .blockSequenceStart).dropCandidate
    some { scan.single .blockEntry with keyAllowed := true }

/-- A key marked by a question mark. -/
def explicitKey (scan : Scan) : Option Scan :=
  if !scan.inFlow && !scan.keyAllowed then none
  else do
    let scan ← (scan.roll .blockMappingStart).dropCandidate
    some { scan.single .key with keyAllowed := !scan.inFlow }

/-- The keys with one more, which may begin before others: a flow collection that is a key has keys
of its own. -/
def addKey (found : FoundKey) : List FoundKey → List FoundKey
  | [] => [found]
  | other :: rest =>
    if other.position < found.position then found :: other :: rest else other :: addKey found rest

def valueMark (scan : Scan) : Option Scan :=
  match scan.candidates with
  | some candidate :: rest =>
    let opens := scan.opensAt candidate.column
    let scan := { scan with
      keys := addKey ⟨candidate.position, opens⟩ scan.keys
      indents := if opens then candidate.column :: scan.indents else scan.indents
      candidates := none :: rest
      keyAllowed := false }
    some (scan.single .value)
  | _ =>
    if !scan.inFlow && !scan.keyAllowed then none
    else
      let scan := scan.roll .blockMappingStart
      some { scan.single .value with keyAllowed := !scan.inFlow }

/-- What may follow the name of an anchor. -/
def endsName (rest : List Char) : Bool :=
  endsWord rest || rest.head?.any (fun c =>
    c = '?' || c = ':' || c = ',' || c = ']' || c = '\x7d' || c = '%' || c = '@' || c = '\x60')

def anchorName (scan : Scan) (token : List Char → Token) : Option Scan := do
  let scan ← scan.saveCandidate
  let cursor := scan.cursor.skip 1
  let name := cursor.takeWhile isWord
  let cursor := cursor.skip name.length
  if name.isEmpty || !endsName cursor.rest then none
  else some { (scan.push (token name)).moveTo cursor with keyAllowed := false }

/-- Characters a tag may hold besides percent escapes. -/
def isTagChar (verbatim : Bool) (c : Char) : Bool :=
  isWord c || c = ';' || c = '/' || c = '?' || c = ':' || c = '@' || c = '&' || c = '=' || c = '+'
    || c = '$' || c = '.' || c = '!' || c = '~' || c = '*' || c = '\x27' || c = '(' || c = ')'
    || (verbatim && (c = ',' || c = '[' || c = ']'))

/-- One byte written as a percent sign and two hexadecimal digits. -/
def escapedByte? : List Char → Option Nat
  | '%' :: high :: low :: _ => Plain.digits? 16 [high, low]
  | _ => none

def continuation? (rest : List Char) : Option Nat :=
  (escapedByte? rest).bind (fun byte => if byte / 64 = 2 then some (byte % 64) else none)

/-- A character written by escaping the bytes of its encoding, and the number of its bytes. -/
def escapedChar? (rest : List Char) : Option (Char × Nat) := do
  let first ← escapedByte? rest
  if first < 0x80 then some (Char.ofNat first, 1)
  else if first / 32 = 6 then do
    let second ← continuation? (rest.drop 3)
    some (Char.ofNat (first % 32 * 64 + second), 2)
  else if first / 16 = 14 then do
    let second ← continuation? (rest.drop 3)
    let third ← continuation? (rest.drop 6)
    some (Char.ofNat ((first % 16 * 64 + second) * 64 + third), 3)
  else if first / 8 = 30 then do
    let second ← continuation? (rest.drop 3)
    let third ← continuation? (rest.drop 6)
    let fourth ← continuation? (rest.drop 9)
    some (Char.ofNat (((first % 8 * 64 + second) * 64 + third) * 64 + fourth), 4)
  else none

/-- The characters of a tag from here on. -/
def tagText (verbatim : Bool) (text : List Char) (cursor : Cursor) :
    Nat → Option (List Char × Cursor)
  | 0 => none
  | fuel + 1 =>
    match cursor.rest with
    | [] => some (text, cursor)
    | c :: _ =>
      if c = '%' then do
        let (image, bytes) ← escapedChar? cursor.rest
        tagText verbatim (text ++ [image]) (cursor.skip (3 * bytes)) fuel
      else if isTagChar verbatim c then tagText verbatim (text ++ [c]) (cursor.skip 1) fuel
      else some (text, cursor)

/-- A tag handle: an exclamation mark, and word characters up to another one if there is one. -/
def handle (cursor : Cursor) : List Char × Cursor :=
  let cursor := cursor.skip 1
  let name := cursor.takeWhile isWord
  let cursor := cursor.skip name.length
  if cursor.rest.head? = some '!' then ('!' :: name ++ ['!'], cursor.skip 1)
  else ('!' :: name, cursor)

/-- A tag as a handle and what follows it; a tag in angle brackets has no handle. -/
def tagParts (cursor : Cursor) (fuel : Nat) : Option (List Char × List Char × Cursor) :=
  if (cursor.rest.drop 1).head? = some '<' then do
    let (suffix, cursor) ← tagText true [] (cursor.skip 2) fuel
    if suffix.isEmpty || cursor.rest.head? ≠ some '>' then none
    else some ([], suffix, cursor.skip 1)
  else
    let (name, cursor) := handle cursor
    if 1 < name.length && name.getLast? = some '!' then do
      let (suffix, cursor) ← tagText false [] cursor fuel
      if suffix.isEmpty then none else some (name, suffix, cursor)
    else do
      let (suffix, cursor) ← tagText false (name.drop 1) cursor fuel
      if suffix.isEmpty then some ([], ['!'], cursor) else some (['!'], suffix, cursor)

def tag (scan : Scan) (fuel : Nat) : Option Scan := do
  let scan ← scan.saveCandidate
  let (name, suffix, cursor) ← tagParts scan.cursor fuel
  if endsWord cursor.rest || (scan.inFlow && cursor.rest.head? = some ',') then
    some { (scan.push (.tag name suffix)).moveTo cursor with keyAllowed := false }
  else none

def blockScalar (scan : Scan) (literal : Bool) (fuel : Nat) : Option Scan := do
  let scan ← scan.dropCandidate
  let (text, cursor) ← Scalar.block literal scan.indents.head? scan.cursor fuel
  let style := if literal then Style.literal else Style.folded
  some { (scan.push (.scalar style text)).moveTo cursor with keyAllowed := true }

def quotedScalar (scan : Scan) (single : Bool) (fuel : Nat) : Option Scan := do
  let scan ← scan.saveCandidate
  let (text, cursor) ← Scalar.quoted single scan.cursor fuel
  let style := if single then Style.singleQuoted else Style.doubleQuoted
  some { (scan.push (.scalar style text)).moveTo cursor with keyAllowed := false }

def plainScalar (scan : Scan) (fuel : Nat) : Option Scan := do
  let scan ← scan.saveCandidate
  let least := match scan.indents with
    | indent :: _ => indent + 1
    | [] => 0
  let found ← Scalar.plain scan.inFlow least scan.cursor fuel
  let scan := (scan.push (.scalar .plain found.text)).moveTo found.cursor
  some { scan with keyAllowed := found.broken }

/-- Ends all block collections, as a directive, a document mark and the end of the text do. -/
def endBlocks (scan : Scan) : Option Scan := do
  let scan ← (scan.unroll none).dropCandidate
  some { scan with keyAllowed := false }

def documentMark (scan : Scan) (token : Token) : Option Scan := do
  let scan ← scan.endBlocks
  some ((scan.push token).moveTo (scan.cursor.skip 3))

/-- A version number of at most nine digits. -/
def versionNumber (cursor : Cursor) : Option (Nat × Cursor) :=
  let digits := cursor.takeWhile Char.isDigit
  if 9 < digits.length then none
  else (Plain.digits? 10 digits).map (fun n => (n, cursor.skip digits.length))

def versionDirective (cursor : Cursor) : Option (Token × Cursor) := do
  let (major, cursor) ← versionNumber (cursor.skipWhile isBlank)
  if cursor.rest.head? ≠ some '.' then none
  else
    let (minor, cursor) ← versionNumber (cursor.skip 1)
    some (.version major minor, cursor)

def tagDirective (cursor : Cursor) (fuel : Nat) : Option (Token × Cursor) := do
  let cursor := cursor.skipWhile isBlank
  if cursor.rest.head? ≠ some '!' then none
  else
    let (name, cursor) := handle cursor
    if name ≠ ['!'] && name.getLast? ≠ some '!' then none
    else if !cursor.rest.head?.any isBlank then none
    else
      let (leading, cursor) ← tagText true [] (cursor.skipWhile isBlank) fuel
      if leading.isEmpty || !endsWord cursor.rest then none
      else some (.tagDirective name leading, cursor)

/-- A line that begins with a percent sign: a version or a tag directive. -/
def directive (scan : Scan) (fuel : Nat) : Option Scan := do
  let scan ← scan.endBlocks
  let cursor := scan.cursor.skip 1
  let name := cursor.takeWhile isWord
  let cursor := cursor.skip name.length
  if !endsWord cursor.rest then none
  else
    let (token, cursor) ←
      if name = "YAML".toList then versionDirective cursor
      else if name = "TAG".toList then tagDirective cursor fuel
      else none
    let cursor := cursor.skipWhile isBlank
    let cursor := if cursor.rest.head? = some '#' then cursor.skipToLineEnd else cursor
    if endsLine cursor.rest then
      some ((scan.push token).moveTo (if cursor.rest.isEmpty then cursor else cursor.skipBreak))
    else none

/-- Characters that cannot begin a plain scalar. -/
def isIndicator (c : Char) : Bool :=
  c = '-' || c = '?' || c = ':' || c = ',' || c = '[' || c = ']' || c = '\x7b' || c = '\x7d'
    || c = '#' || c = '&' || c = '*' || c = '!' || c = '|' || c = '>' || c = '\x27' || c = '"'
    || c = '%' || c = '@' || c = '\x60'

/-- Whether a plain scalar begins with `c` in front of `rest`. -/
def startsPlain (flow : Bool) (c : Char) (rest : List Char) : Bool :=
  (!isIndicator c && !isBlank c) || (c = '-' && !rest.head?.any isBlank)
    || (!flow && (c = '?' || c = ':') && !endsWord rest)

/-- Reads the token that starts with `c`, in front of `rest`. -/
def token (scan : Scan) (c : Char) (rest : List Char) (fuel : Nat) : Option Scan :=
  let flow := scan.inFlow
  if scan.cursor.column = 0 && c = '%' then scan.directive fuel
  else if scan.cursor.atDocumentMark then
    scan.documentMark (if c = '-' then .documentStart else .documentEnd)
  else match c with
    | '[' => scan.flowStart .flowSequenceStart
    | '\x7b' => scan.flowStart .flowMappingStart
    | ']' => scan.flowEnd .flowSequenceEnd
    | '\x7d' => scan.flowEnd .flowMappingEnd
    | ',' => scan.flowEntry
    | '*' => scan.anchorName .reference
    | '&' => scan.anchorName .anchor
    | '!' => scan.tag fuel
    | '\x27' => scan.quotedScalar true fuel
    | '"' => scan.quotedScalar false fuel
    | c =>
      if c = '-' && endsWord rest then scan.blockEntry
      else if c = '?' && (flow || endsWord rest) then scan.explicitKey
      else if c = ':' && (flow || endsWord rest) then scan.valueMark
      else if c = '|' && !flow then scan.blockScalar true fuel
      else if c = '>' && !flow then scan.blockScalar false fuel
      else if startsPlain flow c rest then scan.plainScalar fuel
      else none

/-- The end of the text, which counts as the start of a line. -/
def finish (scan : Scan) : Option Scan :=
  scan.endBlocks

/-- All tokens up to the end of the text. -/
def run (scan : Scan) : Nat → Option Scan
  | 0 => none
  | fuel + 1 => do
    let scan := scan.toToken (fuel + 1)
    let scan ← scan.dropStale
    let scan := scan.unroll (some scan.cursor.column)
    match scan.cursor.rest with
    | [] => scan.finish
    | c :: rest =>
      let scan ← scan.token c rest (fuel + 1)
      run scan fuel

/-- The tokens from a position on, with the keys that were found put in front of theirs. -/
def withKeys : Nat → List FoundKey → List Token → List Token
  | _, _, [] => []
  | _, [], tokens => tokens
  | position, found :: keys, token :: rest =>
    if found.position = position then
      found.marks ++ token :: withKeys (position + 1) keys rest
    else token :: withKeys (position + 1) (found :: keys) rest

end Scan

/-- The tokens of a text, or none if it has a character that may not stand there. -/
def tokens? (text : List Char) : Option (List Token) :=
  if text.all isAllowed then do
    let text := uniformBreaks text
    let scan ← (Scan.start text).run (text.length + 2)
    some (Scan.withKeys 0 scan.keys.reverse scan.tokens.reverse)
  else none

end ApiManifest.Yaml
