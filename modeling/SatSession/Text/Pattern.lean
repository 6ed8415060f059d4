import SatSession.Text.Decimal

set_option autoImplicit false

namespace SatSession.Text

structure CharSet where
  ranges : List (Char × Char)
  negated : Bool := false
deriving DecidableEq

namespace CharSet

def contains (s : CharSet) (c : Char) : Bool :=
  (s.ranges.any fun (lo, hi) => lo ≤ c && c ≤ hi) != s.negated

def all : CharSet := ⟨[], true⟩

def ofChar (c : Char) : CharSet := ⟨[(c, c)], false⟩

def digits : CharSet := ⟨[('0', '9')], false⟩

def wordChars : CharSet := ⟨[('0', '9'), ('A', 'Z'), ('_', '_'), ('a', 'z')], false⟩

def blanks : CharSet := ⟨[('\t', '\r'), (' ', ' ')], false⟩

def complement (s : CharSet) : CharSet := { s with negated := !s.negated }

end CharSet

inductive Pattern where
  | never
  | empty
  | char (set : CharSet)
  | atStart
  | atEnd
  | seq (p q : Pattern)
  | alt (p q : Pattern)
  | star (p : Pattern)
deriving DecidableEq

namespace Pattern

def acceptsEmpty (first last : Bool) : Pattern → Bool
  | never => false
  | empty => true
  | char _ => false
  | atStart => first
  | atEnd => last
  | seq p q => p.acceptsEmpty first last && q.acceptsEmpty first last
  | alt p q => p.acceptsEmpty first last || q.acceptsEmpty first last
  | star _ => true

def seq' : Pattern → Pattern → Pattern
  | never, _ => never
  | empty, q => q
  | p, q => seq p q

def alt' : Pattern → Pattern → Pattern
  | never, q => q
  | p, never => p
  | p, q => if p = q then p else alt p q

def derive (first : Bool) (c : Char) : Pattern → Pattern
  | never => never
  | empty => never
  | char s => if s.contains c then empty else never
  | atStart => never
  | atEnd => never
  | seq p q =>
      let r := seq' (p.derive first c) q
      if p.acceptsEmpty first false then alt' r (q.derive first c) else r
  | alt p q => alt' (p.derive first c) (q.derive first c)
  | star p => seq' (p.derive first c) (star p)

def matchesFrom (first : Bool) (p : Pattern) : List Char → Bool
  | [] => p.acceptsEmpty first true
  | c :: cs => (p.derive first c).matchesFrom false cs

def occursIn (p : Pattern) (text : String) : Bool :=
  (seq (star (char .all)) (seq p (star (char .all)))).matchesFrom true text.toList

def times (p : Pattern) : Nat → Pattern
  | 0 => empty
  | n + 1 => seq p (p.times n)

def between (p : Pattern) (least most : Nat) : Pattern :=
  seq (p.times least) ((alt empty p).times (most - least))

def escaped? (c : Char) : Option CharSet :=
  match c with
  | 'd' => some .digits
  | 'D' => some CharSet.digits.complement
  | 'w' => some .wordChars
  | 'W' => some CharSet.wordChars.complement
  | 's' => some .blanks
  | 'S' => some CharSet.blanks.complement
  | 'n' => some (.ofChar '\n')
  | 't' => some (.ofChar '\t')
  | 'r' => some (.ofChar '\r')
  | c => if "\\.+*?()|[]\x7b\x7d^$#&-~/".toList.contains c then some (.ofChar c) else none

def members? : List Char → Option (List (Char × Char) × List Char)
  | [] => none
  | ']' :: cs => some ([], cs)
  | '\\' :: c :: cs => do
      let s ← escaped? c
      if s.negated then none
      else
        let (rest, cs) ← members? cs
        some (s.ranges ++ rest, cs)
  | '[' :: _ => none
  | lo :: '-' :: hi :: cs =>
      if hi = ']' then some ([(lo, lo), ('-', '-')], cs)
      else if hi = '\\' || hi < lo then none
      else (members? cs).map fun (rest, cs) => ((lo, hi) :: rest, cs)
  | c :: cs => (members? cs).map fun (rest, cs) => ((c, c) :: rest, cs)

def charSet? (cs : List Char) : Option (CharSet × List Char) := do
  let (negated, cs) := match cs with | '^' :: cs => (true, cs) | cs => (false, cs)
  let (own, cs) := match cs with | ']' :: cs => ([(']', ']')], cs) | cs => ([], cs)
  let (rest, cs) ← members? cs
  some (⟨own ++ rest, negated⟩, cs)

def bounds? (cs : List Char) : Option (Nat × Option Nat) := do
  let least ← digits? (cs.takeWhile (· != ','))
  match cs.dropWhile (· != ',') with
  | [] => some (least, some least)
  | [_] => some (least, none)
  | _ :: most => do
      let most ← digits? most
      if most < least then none else some (least, some most)

-- Applies the repetitions that follow a pattern; a question mark after one changes nothing.
def repeated? : Nat → Pattern → List Char → Option (Pattern × List Char)
  | 0, _, _ => none
  | fuel + 1, p, cs =>
      let next := fun (q : Pattern) (cs : List Char) =>
        repeated? fuel q (match cs with | '?' :: cs => cs | cs => cs)
      match cs with
      | '*' :: cs => next (star p) cs
      | '+' :: cs => next (seq p (star p)) cs
      | '?' :: cs => next (alt empty p) cs
      | '\x7b' :: cs =>
          match cs.dropWhile (· != '\x7d'), bounds? (cs.takeWhile (· != '\x7d')) with
          | _ :: rest, some (least, some most) =>
              if most ≤ 1000 then next (p.between least most) rest else none
          | _ :: rest, some (least, none) =>
              if least ≤ 1000 then next (seq (p.times least) (star p)) rest else none
          | _, _ => none
      | cs => some (p, cs)

def alternatives? : Nat → Pattern → List Char → Option (Pattern × List Char)
  | 0, _, _ => none
  | fuel + 1, before, cs =>
      let then? := fun (p : Pattern) (cs : List Char) => do
        let (p, cs) ← repeated? (cs.length + 1) p cs
        alternatives? fuel (seq before p) cs
      match cs with
      | [] => some (before, [])
      | ')' :: _ => some (before, cs)
      | '|' :: cs => (alternatives? fuel empty cs).map fun (q, cs) => (alt before q, cs)
      | '(' :: cs => do
          let cs := match cs with | '?' :: ':' :: cs => cs | cs => cs
          match ← alternatives? fuel empty cs with
          | (p, ')' :: cs) => then? p cs
          | _ => none
      | '[' :: cs => do
          let (s, cs) ← charSet? cs
          then? (char s) cs
      | '\\' :: c :: cs => do
          let s ← escaped? c
          then? (char s) cs
      | '.' :: cs => then? (char (CharSet.ofChar '\n').complement) cs
      | '^' :: cs => then? atStart cs
      | '$' :: cs => then? atEnd cs
      | c :: cs => if "\\*+?\x7b".toList.contains c then none else then? (char (.ofChar c)) cs

def ofText? (text : String) : Option Pattern :=
  match alternatives? (text.length + 1) empty text.toList with
  | some (p, []) => some p
  | _ => none

end Pattern

end SatSession.Text
