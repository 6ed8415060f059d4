import SatSession.Error

/-!
Streaming a report to a destination. A producer writes through a buffer into a bounded pipe while
a drain copies the pipe into the destination. `apply` says what one move of either party does,
`next?` picks the move the library makes, and `run` makes moves until both parties have ended.
-/

set_option autoImplicit false

namespace SatSession

structure Report where
  chunks : List Bytes
  ending : Outcome Error Unit
  wrapping : Option String

def Report.bytes (r : Report) : Bytes := r.chunks.flatten

def Report.sinkError (r : Report) (e : IoError) : Error :=
  match r.wrapping with
  | none => .io e
  | some context => .ofEngine (.wrapped context e)

namespace Transfer

structure Limits where
  buffer : Nat
  pipe : Nat
  read : Nat

def Limits.standard : Limits := ⟨8192, 65536, 8192⟩

inductive Producer where
  | writing
  | flushing
  | leaving (result : Outcome Error Unit)
  | closed (result : Outcome Error Unit)

inductive Drain where
  | copying
  | ended (result : Outcome IoError Unit)

structure State where
  report : Report
  unwritten : Bytes
  producer : Producer
  buffer : Bytes
  pipe : Bytes
  held : Bytes
  drain : Drain
  destination : Destination

def start (r : Report) (d : Destination) : State :=
  ⟨r, r.bytes, .writing, [], [], [], .copying, d⟩

inductive Move where
  | write (n : Nat)
  -- The producer puts bytes past an empty buffer into the pipe.
  | bypass (n : Nat)
  | spill (n : Nat)
  -- Bytes bound for the pipe find no reader.
  | breakOff
  | finish
  | advance
  | read (n : Nat)
  | deliver (n : Nat)
  | stop

def hungUp : IoError := ⟨.brokenPipe, "Broken pipe (os error 32)"⟩

def Drain.isCopying : Drain → Bool
  | .copying => true
  | .ended _ => false

def Producer.isClosed : Producer → Bool
  | .closed _ => true
  | _ => false

def Producer.isWriting : Producer → Bool
  | .writing => true
  | _ => false

def breakOff? (s : State) : Option State :=
  match s.producer with
  | .writing =>
      if s.unwritten.isEmpty && s.buffer.isEmpty then none
      else some { s with
        producer := .leaving (.error (s.report.sinkError hungUp)), unwritten := [], buffer := [] }
  | .flushing =>
      if s.buffer.isEmpty then none
      else some { s with producer := .leaving (.error (.io hungUp)), buffer := [] }
  | .leaving _ => if s.buffer.isEmpty then none else some { s with buffer := [] }
  | .closed _ => none

def apply (l : Limits) (s : State) : Move → Option State
  | .write n =>
      if s.producer.isWriting && 0 < n && n ≤ s.unwritten.length && s.buffer.length + n ≤ l.buffer
      then some { s with
        unwritten := s.unwritten.drop n, buffer := s.buffer ++ s.unwritten.take n }
      else none
  | .bypass n =>
      if s.producer.isWriting && s.drain.isCopying && s.buffer.isEmpty && 0 < n
        && n ≤ s.unwritten.length && s.pipe.length + n ≤ l.pipe
      then some { s with unwritten := s.unwritten.drop n, pipe := s.pipe ++ s.unwritten.take n }
      else none
  | .spill n =>
      if !s.producer.isClosed && s.drain.isCopying && 0 < n && n ≤ s.buffer.length
        && s.pipe.length + n ≤ l.pipe
      then some { s with buffer := s.buffer.drop n, pipe := s.pipe ++ s.buffer.take n }
      else none
  | .breakOff => if s.drain.isCopying then none else breakOff? s
  | .finish =>
      if s.producer.isWriting && s.unwritten.isEmpty then
        match s.report.ending with
        | .ok _ => some { s with producer := .flushing }
        | r => some { s with producer := .leaving r }
      else none
  | .advance =>
      if s.buffer.isEmpty then
        match s.producer with
        | .flushing => some { s with producer := .leaving (.ok ()) }
        | .leaving r => some { s with producer := .closed r }
        | _ => none
      else none
  | .read n =>
      if s.drain.isCopying && s.held.isEmpty && 0 < n && n ≤ l.read && n ≤ s.pipe.length
      then some { s with pipe := s.pipe.drop n, held := s.pipe.take n }
      else none
  | .deliver n =>
      if s.drain.isCopying && 0 < n && n ≤ s.held.length then
        match s.destination.write (s.held.take n) with
        | (.ok 0, d) => some { s with
            destination := d
            drain := .ended (.error ⟨.writeZero, "failed to write whole buffer"⟩) }
        | (.ok (k + 1), d) => some { s with destination := d, held := s.held.drop (k + 1) }
        | (.error e, d) => some { s with destination := d, drain := .ended (.error e) }
        | (.panic p, d) => some { s with destination := d, drain := .ended (.panic p) }
      else none
  | .stop =>
      if s.drain.isCopying && s.held.isEmpty && s.pipe.isEmpty && s.producer.isClosed
      then some { s with drain := .ended s.destination.flush }
      else none

/-- A panic of the producer comes first, then one of the destination. The producer's error comes
before the drain's, unless the producer only found that the drain had stopped reading. -/
def combine (produced : Outcome Error Unit) (drained : Outcome IoError Unit) :
    Outcome Error Unit :=
  match produced, drained with
  | .panic p, _ => .panic p
  | _, .panic p => .panic p
  | .ok _, .ok _ => .ok ()
  | .ok _, .error e => .error (.io e)
  | .error (.io e), .error e' =>
      if e.kind = .brokenPipe then .error (.io e') else .error (.io e)
  | .error e, _ => .error e

def result? (s : State) : Option (Outcome Error Unit) :=
  match s.producer, s.drain with
  | .closed produced, .ended drained => some (combine produced drained)
  | _, _ => none

def nextOfDrain? (l : Limits) (s : State) : Option Move :=
  if !s.drain.isCopying then none
  else if !s.held.isEmpty then some (.deliver s.held.length)
  else if !s.pipe.isEmpty then some (.read (min l.read s.pipe.length))
  else if s.producer.isClosed then some .stop
  else none

def nextOfBuffer? (l : Limits) (s : State) : Option Move :=
  if !s.drain.isCopying then some .breakOff
  else if s.pipe.length < l.pipe then some (.spill (min (l.pipe - s.pipe.length) s.buffer.length))
  else nextOfDrain? l s

-- The producer moves while it can; the drain moves when the producer has to wait.
def next? (l : Limits) (s : State) : Option Move :=
  match s.producer with
  | .writing =>
      if s.unwritten.isEmpty then some .finish
      else if s.buffer.length < l.buffer then
        some (.write (min (l.buffer - s.buffer.length) s.unwritten.length))
      else if !s.buffer.isEmpty then nextOfBuffer? l s
      else if !s.drain.isCopying then some .breakOff
      else if s.pipe.length < l.pipe then
        some (.bypass (min (l.pipe - s.pipe.length) s.unwritten.length))
      else nextOfDrain? l s
  | .closed _ => nextOfDrain? l s
  | _ => if s.buffer.isEmpty then some .advance else nextOfBuffer? l s

def work (s : State) : Nat :=
  4 * s.unwritten.length + 3 * s.buffer.length + 2 * s.pipe.length + s.held.length
    + (match s.producer with | .writing => 3 | .flushing => 2 | .leaving _ => 1 | .closed _ => 0)
    + (match s.drain with | .copying => 1 | .ended _ => 0)

def runFor (l : Limits) : Nat → State → State
  | 0, s => s
  | fuel + 1, s =>
      match (next? l s).bind (apply l s) with
      | some t => runFor l fuel t
      | none => s

def run (l : Limits) (s : State) : State := runFor l (work s) s

def redirect (r : Report) (d : Destination) : Outcome Error Unit × Destination :=
  let s := run .standard (start r d)
  ((result? s).getD (.panic .outOfRange), s.destination)

end Transfer

end SatSession
