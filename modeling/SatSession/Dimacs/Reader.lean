import SatSession.Formula
import SatSession.Text.Blank
import SatSession.Text.Decimal

set_option autoImplicit false

namespace SatSession.Dimacs

structure Header where
  varCount : Nat
  clauseCount : Nat
deriving DecidableEq

def Header.ofFormula (f : Formula) : Header := ⟨f.varCount, f.size⟩

inductive Counted where
  | vars
  | clauses
deriving DecidableEq

inductive ReadError where
  | noLiteral (line : Nat) (token : String)
  | outOfRange (line : Nat) (token : String)
  | malformedHeader (line : Nat) (header : String)
  | misplacedHeader (line : Nat)
  | unterminatedClause (line : Nat)
  | headerMismatch (counted : Counted) (declared found : Nat)
  | notText
deriving DecidableEq

namespace ReadError

def atLine (line : Nat) (message : String) : String := "line " ++ toString line ++ ": " ++ message

def message : ReadError → String
  | noLiteral line token => atLine line ("expected a literal, found '" ++ token ++ "'")
  | outOfRange line token => atLine line ("literal " ++ token ++ " is out of range")
  | malformedHeader line header =>
      atLine line ("malformed header '" ++ header ++ "', expected 'p cnf <variables> <clauses>'")
  | misplacedHeader line => atLine line "header after the first clause or a second header"
  | unterminatedClause line => atLine line "last clause is missing its terminating 0"
  | headerMismatch counted declared found =>
      "header declares " ++ toString declared ++
        (match counted with | .vars => " variables" | .clauses => " clauses") ++
        " but the input has " ++ toString found
  | notText => "stream did not contain valid UTF-8"

end ReadError

structure Reader where
  formula : Formula
  pending : Array Lit
  header : Option Header
  line : Nat
  done : Bool

namespace Reader

def start : Reader := ⟨.empty, #[], none, 0, false⟩

/-- What a token of a clause line stands for: a literal, or nothing if it ends the clause. Numbers
are read in 64 bits before their range as a literal is checked. -/
def literalOf (line : Nat) (t : List Char) : Except ReadError (Option Lit) :=
  match Text.signedOfWidth? 64 t with
  | none => .error (.noLiteral line (String.ofList t))
  | some n =>
      if n = 0 then .ok none
      else
        match Lit.ofNumber? n with
        | none => .error (.outOfRange line (String.ofList t))
        | some l => .ok (some l)

def take (r : Reader) : Option Lit → Reader
  | some l => { r with pending := r.pending.push l }
  | none => { r with formula := r.formula.add r.pending.toList, pending := #[] }

-- Takes tokens up to the first bad one; what came before it stays taken.
def tokens (r : Reader) : List (List Char) → Except ReadError Unit × Reader
  | [] => (.ok (), r)
  | t :: ts =>
      match literalOf r.line t with
      | .ok x => (r.take x).tokens ts
      | .error e => (.error e, r)

def headerOfWords? : List (List Char) → Option Header
  | [p, cnf, vars, clauses] =>
      if p = ['p'] ∧ cnf = ['c', 'n', 'f'] then do
        let v ← Text.unsignedOfWidth? 64 vars
        let c ← Text.unsignedOfWidth? 64 clauses
        pure ⟨v, c⟩
      else none
  | _ => none

def headerLine (r : Reader) (line : List Char) : Except ReadError Reader :=
  if r.header.isSome || r.formula.size != 0 || !r.pending.isEmpty then
    .error (.misplacedHeader r.line)
  else
    match headerOfWords? (Text.words line) with
    | none => .error (.malformedHeader r.line (String.ofList (Text.trim line)))
    | some h =>
        if h.varCount ≤ maxVar then
          .ok { r with formula := r.formula.reserve h.varCount, header := some h }
        else .error (.outOfRange r.line (toString h.varCount))

def feed (r : Reader) (line : List Char) : Except ReadError Unit × Reader :=
  if r.done then (.ok (), r)
  else
    let r := { r with line := r.line + 1 }
    match Text.words line with
    | [] => (.ok (), r)
    | ['%'] :: _ => (.ok (), { r with done := true })
    | ('c' :: _) :: _ => (.ok (), r)
    | ('p' :: _) :: _ =>
        match r.headerLine line with
        | .ok r => (.ok (), r)
        | .error e => (.error e, r)
    | ts => r.tokens ts

def finish (r : Reader) : Except ReadError (Option Header × Formula) :=
  if !r.pending.isEmpty then .error (.unterminatedClause r.line)
  else
    match r.header with
    | none => .ok (none, r.formula)
    | some h =>
        if r.formula.varCount ≠ h.varCount then
          .error (.headerMismatch .vars h.varCount r.formula.varCount)
        else if r.formula.size ≠ h.clauseCount then
          .error (.headerMismatch .clauses h.clauseCount r.formula.size)
        else .ok (some h, r.formula)

end Reader

def linesFrom (line : List UInt8) (found : List (List UInt8)) : List UInt8 → List (List UInt8)
  | [] => (if line.isEmpty then found else line.reverse :: found).reverse
  | b :: bs =>
      if b = 10 then linesFrom [] ((b :: line).reverse :: found) bs
      else linesFrom (b :: line) found bs

def lines (bs : List UInt8) : List (List UInt8) := linesFrom [] [] bs

def decode? (bs : List UInt8) : Option (List Char) :=
  (String.fromUTF8? ⟨bs.toArray⟩).map String.toList

-- Reads line by line up to the end mark; bytes after it need not even be text.
def readLines (r : Reader) : List (List UInt8) → Except ReadError (Option Header × Formula)
  | [] => r.finish
  | l :: ls =>
      if r.done then r.finish
      else
        match decode? l with
        | none => .error .notText
        | some cs =>
            match r.feed cs with
            | (.ok _, r) => readLines r ls
            | (.error e, _) => .error e

def read (bs : List UInt8) : Except ReadError (Option Header × Formula) :=
  readLines .start (lines bs)

end SatSession.Dimacs
