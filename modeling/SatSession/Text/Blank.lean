set_option autoImplicit false

namespace SatSession.Text

def isBlank (c : Char) : Bool :=
  c == ' ' || c == '\t' || c == '\n' || c == '\x0c' || c == '\r'

def isWhiteSpace (c : Char) : Bool :=
  let n := c.toNat
  (9 ≤ n && n ≤ 13) || n == 0x20 || n == 0x85 || n == 0xa0 || n == 0x1680
    || (0x2000 ≤ n && n ≤ 0x200a) || n == 0x2028 || n == 0x2029 || n == 0x202f
    || n == 0x205f || n == 0x3000

def trim (cs : List Char) : List Char :=
  ((cs.dropWhile isWhiteSpace).reverse.dropWhile isWhiteSpace).reverse

def closeWord (word : List Char) (found : List (List Char)) : List (List Char) :=
  if word.isEmpty then found else word.reverse :: found

def wordsFrom (word : List Char) (found : List (List Char)) : List Char → List (List Char)
  | [] => (closeWord word found).reverse
  | c :: cs =>
      if isBlank c then wordsFrom [] (closeWord word found) cs
      else wordsFrom (c :: word) found cs

def words (cs : List Char) : List (List Char) := wordsFrom [] [] cs

end SatSession.Text
