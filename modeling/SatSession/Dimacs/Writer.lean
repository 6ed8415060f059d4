import SatSession.Dimacs.Reader
import SatSession.Destination

set_option autoImplicit false

namespace SatSession.Dimacs

def headerPieces (h : Header) : List String :=
  ["p cnf ", toString h.varCount, " ", toString h.clauseCount, "\n"]

def clausePieces (c : Clause) : List String :=
  c.flatMap (fun l => [l.text, " "]) ++ ["0\n"]

def clausesPieces (cs : List Clause) : List String := cs.flatMap clausePieces

def pieces (h : Header) (cs : List Clause) : List String := headerPieces h ++ clausesPieces cs

def formulaPieces (f : Formula) : List String := pieces (.ofFormula f) f.clauses

def text (f : Formula) : String := String.join (formulaPieces f)

def textBytes (f : Formula) : Bytes := Bytes.ofString (text f)

def writePieces (ps : List String) (d : Destination) : Outcome IoError Unit × Destination :=
  d.writePieces (ps.map Bytes.ofString)

end SatSession.Dimacs
