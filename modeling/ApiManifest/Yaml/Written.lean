import ApiManifest.Json.Printer
import ApiManifest.Yaml.Cursor
import ApiManifest.Yaml.Plain
import ApiManifest.Yaml.Token

/-!
How a text is written as a YAML scalar. It stands as it is where that reads back as the same text,
otherwise in single quotes; a text of several lines stands as a block under a bar, and a text with
characters that cannot be shown in double quotes.
-/

namespace ApiManifest.Yaml.Written

/-- The characters that may be shown. -/
def isShown (c : Char) : Bool :=
  let n := c.toNat
  n = 0xA || (0x20 ≤ n && n ≤ 0x7E) || (0xA0 ≤ n && n ≠ 0xFEFF && n ≠ 0xFFFE && n ≠ 0xFFFF)

/-- All characters that break lines, those included that are made uniform when a text is read. -/
def breaksLine (c : Char) : Bool :=
  isBreak c || c = '\r' || c = '\u0085'

/-- Whether somewhere a character of one kind stands directly before one of another. -/
def adjacent (left right : Char → Bool) : List Char → Bool
  | [] => false
  | c :: rest => (left c && rest.head?.any right) || adjacent left right rest

/-- A space before a break, or a character that cannot be shown, leaves only double quotes. -/
def needsEscapes (text : List Char) : Bool :=
  text.any (fun c => !isShown c) || adjacent (· = ' ') breaksLine text

/-- Whether the text begins like a document mark. -/
def startsLikeMark : List Char → Bool
  | '-' :: '-' :: '-' :: _ => true
  | '.' :: '.' :: '.' :: _ => true
  | _ => false

/-- Whether `c`, in front of `rest`, begins something other than plain text. -/
def startsOther (c : Char) (rest : List Char) : Bool :=
  "#,[]\x7b\x7d&*!|>'\"%@\x60".toList.contains c
    || ((c = '-' || c = '?' || c = ':') && endsWord rest)

/-- Whether what follows `before` has a colon at the end of a word or a hash sign at the start of
one. -/
def holdsMark (before : Char) : List Char → Bool
  | [] => false
  | c :: rest =>
    (c = ':' && endsWord rest) || (c = '#' && (isBlank before || isBreak before))
      || holdsMark c rest

/-- Whether the text can stand as it is. -/
def standsPlain : List Char → Bool
  | [] => true
  | c :: rest =>
    !needsEscapes (c :: rest) && !(c :: rest).any breaksLine && c ≠ ' '
      && (c :: rest).getLast? ≠ some ' ' && !startsLikeMark (c :: rest) && !startsOther c rest
      && !holdsMark c rest

/-- Whether the text reads as something else than text when it stands plain. -/
def readsAsOther (text : List Char) : Bool :=
  Plain.resolve text ≠ .text || Plain.isZeroPadded text

def style (text : List Char) : Style :=
  if text.contains '\n' then
    if needsEscapes text || text.getLast? = some ' ' then .doubleQuoted else .literal
  else if standsPlain text && !readsAsOther text then .plain
  else if needsEscapes text || adjacent breaksLine (· = ' ') text then .doubleQuoted
  else .singleQuoted

def pad (indent : Nat) : List Char :=
  List.replicate indent ' '

/-- A text of several lines. Each line that is not empty is indented; `fresh` says that a line
begins here. -/
def lines (indent : Nat) (fresh : Bool) : List Char → List Char
  | [] => []
  | c :: rest =>
    if breaksLine c then c :: lines indent true rest
    else (if fresh then pad indent else []) ++ c :: lines indent false rest

/-- The content of single quotes, where a quote is doubled. -/
def singleQuoted (indent : Nat) (text : List Char) : List Char :=
  let body := lines indent false (text.flatMap (fun c => if c = '\x27' then [c, c] else [c]))
  '\x27' :: body ++ (if text.getLast?.any breaksLine then pad indent else []) ++ ['\x27']

def upperHex (width n : Nat) : List Char :=
  (Json.hexDigits width n).map Char.toUpper

def escapeCode (n : Nat) : List Char :=
  if n ≤ 0xFF then 'x' :: upperHex 2 n
  else if n ≤ 0xFFFF then 'u' :: upperHex 4 n
  else 'U' :: upperHex 8 n

/-- A character as it stands in double quotes. -/
def escapeChar (c : Char) : List Char :=
  match c with
  | '"' => ['\\', '"']
  | '\\' => ['\\', '\\']
  | '\x00' => ['\\', '0']
  | '\x07' => ['\\', 'a']
  | '\x08' => ['\\', 'b']
  | '\t' => ['\\', 't']
  | '\n' => ['\\', 'n']
  | '\x0b' => ['\\', 'v']
  | '\x0c' => ['\\', 'f']
  | '\r' => ['\\', 'r']
  | '\x1b' => ['\\', 'e']
  | '\u0085' => ['\\', 'N']
  | '\u2028' => ['\\', 'L']
  | '\u2029' => ['\\', 'P']
  | c => if isShown c then [c] else '\\' :: escapeCode c.toNat

def doubleQuoted (text : List Char) : List Char :=
  '"' :: text.flatMap escapeChar ++ ['"']

/-- What the bar of a block says of its last line breaks: none, one, or more than one. -/
def chomping (text : List Char) : List Char :=
  match text.reverse with
  | [] => ['-']
  | last :: before =>
    if !breaksLine last then ['-']
    else if before.head?.all breaksLine then ['+']
    else []

/-- A block under a bar. Where it begins with a space or a break, the bar says its indent. -/
def literal (indent : Nat) (text : List Char) : List Char :=
  let hint := if text.head?.any (fun c => c = ' ' || breaksLine c) then ['2'] else []
  '|' :: hint ++ chomping text ++ '\n' :: lines indent true text

/-- The scalar, whose further lines are indented so, with the break that ends its last line. -/
def scalar (indent : Nat) (text : List Char) : List Char :=
  match style text with
  | .plain => text ++ ['\n']
  | .singleQuoted => singleQuoted indent text ++ ['\n']
  | .literal => literal indent text ++ (if text.getLast?.any breaksLine then [] else ['\n'])
  | _ => doubleQuoted text ++ ['\n']

/-- The greatest number of bytes of a key that stands on one line with its value. -/
def keyLimit : Nat := 128

/-- Whether a key can stand on one line with its value. -/
def isSimpleKey (text : List Char) : Bool :=
  !text.any breaksLine && (String.ofList text).utf8ByteSize ≤ keyLimit

/-- A key that stands on one line with its value. -/
def simpleKey (text : List Char) : List Char :=
  match style text with
  | .plain => text
  | .singleQuoted => singleQuoted 0 text
  | _ => doubleQuoted text

end ApiManifest.Yaml.Written
