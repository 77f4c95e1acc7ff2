import ApiManifest.Yaml.Token
import ApiManifest.Yaml.Token.Gap
import ApiManifest.Yaml.Plain

/-!
The three ways to write a scalar: plain, in quotes, and as an indented block. Each reader starts
at the first character of the scalar and answers its text and the place after it, or nothing
where the scalar is malformed. The fuel is the number of characters that may remain.
-/

namespace ApiManifest.Yaml.Scalar

/-- The plain characters of one line. A colon ends them before a blank; inside flow collections
the flow indicators end them, and a colon in front of one of those is refused. -/
def plainRun (flow : Bool) : List Char → Option (List Char)
  | [] => some []
  | c :: rest =>
    if isBlank c || isBreak c then some []
    else if flow && c = ':' && rest.head?.any (fun d => isFlowIndicator d || d = '?') then none
    else if (c = ':' && endsWord rest) || (flow && isFlowIndicator c) then some []
    else (plainRun flow rest).map (c :: ·)

structure PlainScan where
  text : List Char
  cursor : Cursor
  /-- Whether line breaks followed the last piece. -/
  broken : Bool

/-- Reads the pieces of a plain scalar; `gap` is what stands before the next piece. Outside flow
collections a piece must stand at column `least` at least. -/
def plainPieces (flow : Bool) (least : Nat) (gap : Gap) (cursor : Cursor) :
    Nat → Option PlainScan
  | 0 => some ⟨[], cursor, gap.broken⟩
  | fuel + 1 =>
    if cursor.atDocumentMark || cursor.rest.head? = some '#' then some ⟨[], cursor, gap.broken⟩
    else do
      let piece ← plainRun flow cursor.rest
      let text := if piece.isEmpty then [] else gap.fold ++ piece
      let gap := if piece.isEmpty then gap else {}
      let cursor := cursor.skip piece.length
      if cursor.rest.head?.any (fun c => isBlank c || isBreak c) then
        let (gap, cursor) ← gap.read (some least) cursor (fuel + 1)
        if !flow && cursor.column < least then some ⟨text, cursor, gap.broken⟩
        else
          let following ← plainPieces flow least gap cursor fuel
          some { following with text := text ++ following.text }
      else some ⟨text, cursor, gap.broken⟩

def plain (flow : Bool) (least : Nat) (cursor : Cursor) (fuel : Nat) : Option PlainScan :=
  plainPieces flow least {} cursor fuel

/-- The character of an escape that stands for one character. -/
def simpleEscape? (c : Char) : Option Char :=
  match c with
  | '0' => some '\x00'
  | 'a' => some '\x07'
  | 'b' => some '\x08'
  | 't' => some '\t'
  | '\t' => some '\t'
  | 'n' => some '\n'
  | 'v' => some '\x0b'
  | 'f' => some '\x0c'
  | 'r' => some '\r'
  | 'e' => some '\x1b'
  | ' ' => some ' '
  | '"' => some '"'
  | '/' => some '/'
  | '\\' => some '\\'
  | 'N' => some '\u0085'
  | '_' => some '\u00a0'
  | 'L' => some '\u2028'
  | 'P' => some '\u2029'
  | _ => none

/-- How many hexadecimal digits an escape takes. -/
def escapeWidth? (c : Char) : Option Nat :=
  match c with
  | 'x' => some 2
  | 'u' => some 4
  | 'U' => some 8
  | _ => none

/-- The escape after a backslash: its character and how many characters it takes. Code points
that are no characters are refused. -/
def escape? : List Char → Option (Char × Nat)
  | [] => none
  | c :: rest =>
    match simpleEscape? c with
    | some image => some (image, 1)
    | none => do
      let width ← escapeWidth? c
      let digits := rest.take width
      if digits.length = width then
        let code ← Plain.digits? 16 digits
        if h : code.isValidChar then some (Char.ofNatAux code h, width + 1)
        else none
      else none

/-- The characters of a quoted scalar up to a blank, a break or the closing quote. -/
structure QuotedRun where
  text : List Char
  cursor : Cursor
  /-- Whether an escaped line break ends them. -/
  escaped : Bool

def QuotedRun.after (c : Char) (run : QuotedRun) : QuotedRun :=
  { run with text := c :: run.text }

def quotedRun (single : Bool) (cursor : Cursor) : Nat → Option QuotedRun
  | 0 => none
  | fuel + 1 =>
    match cursor.rest with
    | [] => some ⟨[], cursor, false⟩
    | c :: rest =>
      if isBlank c || isBreak c then some ⟨[], cursor, false⟩
      else if single then
        if c = '\x27' then
          if rest.head? = some '\x27' then
            (quotedRun single (cursor.skip 2) fuel).map (.after '\x27')
          else some ⟨[], cursor, false⟩
        else (quotedRun single (cursor.skip 1) fuel).map (.after c)
      else if c = '"' then some ⟨[], cursor, false⟩
      else if c = '\\' then
        if rest.head?.any isBreak then some ⟨[], (cursor.skip 1).skipBreak, true⟩
        else do
          let (image, width) ← escape? rest
          (quotedRun single (cursor.skip (width + 1)) fuel).map (.after image)
      else (quotedRun single (cursor.skip 1) fuel).map (.after c)

/-- Reads the pieces of a quoted scalar up to its closing quote. -/
def quotedPieces (single : Bool) (cursor : Cursor) : Nat → Option (List Char × Cursor)
  | 0 => none
  | fuel + 1 =>
    if cursor.atDocumentMark || cursor.rest.isEmpty then none
    else do
      let run ← quotedRun single cursor (fuel + 1)
      if !run.escaped && run.cursor.rest.head? = some (if single then '\x27' else '"') then
        some (run.text, run.cursor.skip 1)
      else
        let (gap, cursor) ← Gap.read none { broken := run.escaped } run.cursor (fuel + 1)
        let (following, cursor) ← quotedPieces single cursor fuel
        some (run.text ++ (gap.fold ++ following), cursor)

def quoted (single : Bool) (cursor : Cursor) (fuel : Nat) : Option (List Char × Cursor) :=
  quotedPieces single (cursor.skip 1) fuel

/-- What becomes of the line breaks at the end of a block. -/
inductive Chomping where
  | strip
  | clip
  | keep
  deriving DecidableEq

structure BlockHeader where
  chomping : Chomping
  /-- How far the block is indented beyond what surrounds it, if that is given. -/
  increment : Option Nat
  cursor : Cursor

def chomping? : Char → Option Chomping
  | '-' => some .strip
  | '+' => some .keep
  | _ => none

def increment? (c : Char) : Option Nat :=
  if '1' ≤ c ∧ c ≤ '9' then some (c.toNat - 48) else none

/-- The indicators after `|` or `>`: chomping and indentation in either order. A zero is left
where it stands, and refused with everything else that may not follow. -/
def blockIndicators (cursor : Cursor) : BlockHeader :=
  match cursor.rest with
  | [] => ⟨.clip, none, cursor⟩
  | c :: rest =>
    match chomping? c, increment? c with
    | some chomping, _ =>
      match rest.head?.bind increment? with
      | some increment => ⟨chomping, some increment, cursor.skip 2⟩
      | none => ⟨chomping, none, cursor.skip 1⟩
    | none, some increment =>
      match rest.head?.bind chomping? with
      | some chomping => ⟨chomping, some increment, cursor.skip 2⟩
      | none => ⟨.clip, some increment, cursor.skip 1⟩
    | none, none => ⟨.clip, none, cursor⟩

/-- The rest of a header line: blanks, perhaps a comment, and the line break. -/
def endHeader (cursor : Cursor) : Option Cursor :=
  let cursor := cursor.skipWhile isBlank
  let cursor := if cursor.rest.head? = some '#' then cursor.skipToLineEnd else cursor
  match cursor.rest with
  | [] => some cursor
  | c :: _ => if isBreak c then some cursor.skipBreak else none

structure BlockBreaks where
  breaks : List Char
  deepest : Nat
  cursor : Cursor

/-- Empty lines in a block, less their indentation. While the indentation is unknown, all leading
spaces belong to it. A tab within the indentation is refused. -/
def blockBreaks (indent : Option Nat) (breaks : List Char) (deepest : Nat) (cursor : Cursor) :
    Nat → Option BlockBreaks
  | 0 => some ⟨breaks, deepest, cursor⟩
  | fuel + 1 =>
    let spaces := (cursor.takeWhile (· = ' ')).length
    let count := match indent with
      | none => spaces
      | some indent => min spaces (indent - cursor.column)
    let cursor := cursor.skip count
    let deepest := max deepest cursor.column
    let inside := indent.all (fun indent => cursor.column < indent)
    match cursor.rest with
    | [] => some ⟨breaks, deepest, cursor⟩
    | c :: _ =>
      if inside && c = '\t' then none
      else if isBreak c then blockBreaks indent (breaks ++ [c]) deepest cursor.skipBreak fuel
      else some ⟨breaks, deepest, cursor⟩

/-- What stands between two lines of a block. -/
structure Joint where
  /-- The break after the line before. -/
  last : Option Char
  /-- The breaks of the empty lines after it. -/
  later : List Char
  /-- Whether the line before began with a blank. -/
  indented : Bool

/-- The text before the next line. A folded block joins two lines by a space, unless one of them
begins with a blank or empty lines stand between. -/
def Joint.fold (literal : Bool) (joint : Joint) (blank : Bool) : List Char :=
  if !literal && joint.last = some '\n' && !joint.indented && !blank then
    if joint.later.isEmpty then [' '] else joint.later
  else joint.last.toList ++ joint.later

/-- The lines of a block, and the breaks after the last of them. -/
structure BlockText where
  text : List Char
  last : Option Char
  later : List Char
  cursor : Cursor

def blockLines (literal : Bool) (indent : Nat) (joint : Joint) (cursor : Cursor) :
    Nat → Option BlockText
  | 0 => some ⟨[], joint.last, joint.later, cursor⟩
  | fuel + 1 =>
    if cursor.column = indent && !cursor.rest.isEmpty then do
      let blank := cursor.rest.head?.any isBlank
      let line := cursor.takeWhile (fun c => !isBreak c)
      let cursor := cursor.skip line.length
      let last := cursor.rest.head?
      let cursor := if cursor.rest.isEmpty then cursor else cursor.skipBreak
      let found ← blockBreaks (some indent) [] 0 cursor (fuel + 1)
      let following ← blockLines literal indent ⟨last, found.breaks, blank⟩ found.cursor fuel
      some { following with text := joint.fold literal blank ++ (line ++ following.text) }
    else some ⟨[], joint.last, joint.later, cursor⟩

/-- A block scalar; `surrounding` is the column of the collection it stands in, if any. -/
def block (literal : Bool) (surrounding : Option Nat) (cursor : Cursor) (fuel : Nat) :
    Option (List Char × Cursor) := do
  let header := blockIndicators (cursor.skip 1)
  let cursor ← endHeader header.cursor
  let given := header.increment.map (fun increment => surrounding.getD 0 + increment)
  let found ← blockBreaks given [] 0 cursor fuel
  let outer := match surrounding with
    | some column => column + 1
    | none => 0
  let indent := given.getD (max (max found.deepest outer) 1)
  let lines ← blockLines literal indent ⟨none, found.breaks, false⟩ found.cursor fuel
  let text := match header.chomping with
    | .strip => lines.text
    | .clip => lines.text ++ lines.last.toList
    | .keep => lines.text ++ lines.last.toList ++ lines.later
  some (text, lines.cursor)

end ApiManifest.Yaml.Scalar
