/-!
Pieces of texts, which are lists of characters: words, the parts between separators, and numbers
in digits. Letters and digits are those of ASCII.
-/

namespace ApiManifest.Text

def isWordChar (c : Char) : Bool :=
  c.isAlphanum || c = '_'

def splitOn (separator : Char) (text : List Char) : List (List Char) :=
  text.foldr (fun c parts =>
    if c = separator then [] :: parts
    else match parts with
      | part :: rest => (c :: part) :: rest
      | [] => [[c]]) [[]]

/-- The number that decimal digits write, none of a text that is not digits alone. -/
def decimal? (digits : List Char) : Option Nat :=
  if digits.isEmpty || !digits.all Char.isDigit then none
  else some (Nat.ofDigitChars 10 digits 0)

def dropPlus : List Char → List Char
  | '+' :: rest => rest
  | text => text

end ApiManifest.Text
