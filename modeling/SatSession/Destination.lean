import SatSession.Step

set_option autoImplicit false

namespace SatSession

abbrev Bytes := List UInt8

def Bytes.ofString (s : String) : Bytes := s.toUTF8.data.toList

-- A write that was only interrupted is made again, so this is no kind of failure.
inductive IoKind where
  | other
  | brokenPipe
  | notFound
  | invalidData
  | writeZero
  | named (kind : String)
deriving DecidableEq

structure IoError where
  kind : IoKind
  message : String
deriving DecidableEq

inductive WhenFull where
  | fails (cause : IoError)
  | acceptsNothing
  | panics (cause : Panic)
deriving DecidableEq

structure Destination where
  capacity : Option Nat := none
  whenFull : WhenFull := .fails ⟨.other, "destination full"⟩
  flushError : Option IoError := none
  received : Bytes := []
deriving DecidableEq

namespace Destination

def fitting (d : Destination) (n : Nat) : Nat :=
  match d.capacity with
  | none => n
  | some c => min n (c - d.received.length)

def take (d : Destination) (bs : Bytes) : Destination := { d with received := d.received ++ bs }

def write (d : Destination) (bs : Bytes) : Outcome IoError Nat × Destination :=
  match bs, d.fitting bs.length with
  | [], _ => (.ok 0, d)
  | _, n + 1 => (.ok (n + 1), d.take (bs.take (n + 1)))
  | _, 0 =>
      match d.whenFull with
      | .fails e => (.error e, d)
      | .acceptsNothing => (.ok 0, d)
      | .panics p => (.panic p, d)

def writeAll (d : Destination) (bs : Bytes) : Outcome IoError Unit × Destination :=
  if _h : bs = [] then (.ok (), d)
  else
    match d.write bs with
    | (.ok 0, d) => (.error ⟨.writeZero, "failed to write whole buffer"⟩, d)
    | (.ok (n + 1), d) => writeAll d (bs.drop (n + 1))
    | (.error e, d) => (.error e, d)
    | (.panic p, d) => (.panic p, d)
termination_by bs.length
decreasing_by
  have := List.length_pos_iff.mpr _h
  rw [List.length_drop]
  omega

def writePieces (d : Destination) : List Bytes → Outcome IoError Unit × Destination
  | [] => (.ok (), d)
  | p :: ps =>
      match d.writeAll p with
      | (.ok _, d) => d.writePieces ps
      | failed => failed

def flush (d : Destination) : Outcome IoError Unit :=
  match d.flushError with
  | some e => .error e
  | none => .ok ()

def Calm (d : Destination) : Prop := ∀ p, d.whenFull ≠ .panics p

end Destination

end SatSession
