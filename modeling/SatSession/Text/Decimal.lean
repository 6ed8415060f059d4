set_option autoImplicit false

namespace SatSession.Text

def appendDigit? (n : Nat) (c : Char) : Option Nat :=
  if c.isDigit then some (10 * n + (c.toNat - '0'.toNat)) else none

def digits? : List Char → Option Nat
  | [] => none
  | c :: cs => (c :: cs).foldlM appendDigit? 0

def unsigned? : List Char → Option Nat
  | '+' :: cs => digits? cs
  | cs => digits? cs

def signed? : List Char → Option Int
  | '-' :: cs => (digits? cs).map fun n => -(n : Int)
  | cs => (unsigned? cs).map Int.ofNat

def signedOfWidth? (bits : Nat) (cs : List Char) : Option Int :=
  (signed? cs).filter fun n => -(Nat.pow 2 (bits - 1) : Int) ≤ n && n < (Nat.pow 2 (bits - 1) : Int)

def unsignedOfWidth? (bits : Nat) (cs : List Char) : Option Nat :=
  (unsigned? cs).filter fun n => n < Nat.pow 2 bits

end SatSession.Text
