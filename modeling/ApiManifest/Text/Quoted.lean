import ApiManifest.Text.Printable

/-!
Text in double quotes, as it stands inside messages: quotes and backslashes are escaped, tab,
line breaks and NUL are written by a letter, and whatever is not printable or would be drawn onto
its neighbour is written by its code point.
-/

namespace ApiManifest.Text

def escapeChar (c : Char) : List Char :=
  match c with
  | '"' => ['\\', '"']
  | '\\' => ['\\', '\\']
  | '\t' => ['\\', 't']
  | '\r' => ['\\', 'r']
  | '\n' => ['\\', 'n']
  | '\x00' => ['\\', '0']
  | c =>
    if c.toNat < 127 ∧ 32 ≤ c.toNat then [c]
    else if isPrintable c && !isExtender c then [c]
    else ['\\', 'u', '\x7b'] ++ Nat.toDigits 16 c.toNat ++ ['\x7d']

def quoted (text : String) : String :=
  String.ofList ('"' :: text.toList.flatMap escapeChar ++ ['"'])

end ApiManifest.Text
