import LazyStack.Text.Printable

/-!
Quoted text. A text stands between single quotes, or between double quotes when it holds a single
one and no double one. The quote in use and the backslash are escaped by a backslash, so a quoted
text ends at its first bare quote. Tab, line feed and carriage return have letters of their own;
other characters that are not printable are written by code point in two, four or eight hexadecimal
digits. A string of bytes follows the same rules with ASCII alone counted as printable.
-/

namespace LazyStack

def singleQuote : Char := '\x27'

def doubleQuote : Char := '\x22'

def backslash : Char := '\x5c'

def quoteMark (characters : List Char) : Char :=
  if singleQuote ∈ characters ∧ doubleQuote ∉ characters then doubleQuote else singleQuote

def hexDigits (width value : Nat) : List Char :=
  (List.range width).reverse.map fun place => Nat.digitChar (value / Nat.pow 16 place % 16)

def escapeCode (code : Nat) : List Char :=
  if code < 0x100 then backslash :: 'x' :: hexDigits 2 code
  else if code < 0x10000 then backslash :: 'u' :: hexDigits 4 code
  else backslash :: 'U' :: hexDigits 8 code

def escapeCharacter (printable : Char → Bool) (mark character : Char) : List Char :=
  if character = mark ∨ character = backslash then [backslash, character]
  else if character = '\t' then [backslash, 't']
  else if character = '\n' then [backslash, 'n']
  else if character = '\r' then [backslash, 'r']
  else if printable character then [character]
  else escapeCode character.toNat

def quoteCharacters (printable : Char → Bool) (characters : List Char) : List Char :=
  let mark := quoteMark characters
  mark :: characters.flatMap (escapeCharacter printable mark) ++ [mark]

def quoteText (text : String) : String :=
  String.ofList (quoteCharacters isPrintable text.toList)

def isPrintableByte (character : Char) : Bool :=
  32 ≤ character.toNat && character.toNat < 127

def quoteBytes (bytes : List UInt8) : String :=
  String.ofList ('b' :: quoteCharacters isPrintableByte (bytes.map fun byte => Char.ofNat byte.toNat))

end LazyStack
