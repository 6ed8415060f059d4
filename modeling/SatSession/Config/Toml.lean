import SatSession.Config.Options
import SatSession.Text.Decimal

set_option autoImplicit false

namespace SatSession.Config.Toml

inductive Value where
  | boolean (b : Bool)
  | integer (n : Int)
  | float
  | text (s : String)
  | datetime (shown : String)
  | list (items : List Value)
  | table (entries : List (String × Value))

inductive Token where
  | blank (chars : List Char)
  | newline
  | comment
  | mark (c : Char)
  | word (chars : List Char)
  | text (chars : List Char) (multiline : Bool)
  | bad
deriving DecidableEq

def isWordChar (c : Char) : Bool := c.isAlphanum || c == '-' || c == '_'

def isMark (c : Char) : Bool := "=.,:+{}[]".toList.contains c

def isTextChar (c : Char) : Bool := c == '\t' || (0x20 ≤ c.toNat && c.toNat ≠ 0x7f)

def isCommentChar (c : Char) : Bool := c == '\t' || 0x20 ≤ c.toNat

def foldLineEnds : List Char → List Char
  | '\r' :: '\n' :: cs => '\n' :: foldLineEnds cs
  | c :: cs => c :: foldLineEnds cs
  | [] => []

def hexValue? (c : Char) : Option Nat :=
  if c.isDigit then some (c.toNat - 48)
  else if 'a' ≤ c ∧ c ≤ 'f' then some (c.toNat - 87)
  else if 'A' ≤ c ∧ c ≤ 'F' then some (c.toNat - 55)
  else none

def hexNumber? (ds : List Char) : Option Nat :=
  ds.foldlM (fun n d => (hexValue? d).map (16 * n + ·)) 0

def codePoint? (width : Nat) (cs : List Char) : Option (Char × List Char) := do
  if cs.length < width then none
  else
    let n ← hexNumber? (cs.take width)
    if n.isValidChar then some (Char.ofNat n, cs.drop width) else none

def isLayout (c : Char) : Bool := c == ' ' || c == '\t' || c == '\n'

def continueLine? (cs : List Char) : Option (List Char) :=
  let rest := cs.dropWhile fun c => c == ' ' || c == '\t'
  match rest with
  | '\n' :: _ => some (rest.dropWhile isLayout)
  | [] => some []
  | _ => none

-- One escape, after its backslash: the character it stands for, if any, and the rest.
def escape? (multiline : Bool) : List Char → Option (Option Char × List Char)
  | '"' :: cs => some (some '"', cs)
  | '\\' :: cs => some (some '\\', cs)
  | 'b' :: cs => some (some (Char.ofNat 8), cs)
  | 'f' :: cs => some (some (Char.ofNat 12), cs)
  | 'n' :: cs => some (some '\n', cs)
  | 'r' :: cs => some (some '\r', cs)
  | 't' :: cs => some (some '\t', cs)
  | 'u' :: cs => (codePoint? 4 cs).map fun (c, r) => (some c, r)
  | 'U' :: cs => (codePoint? 8 cs).map fun (c, r) => (some c, r)
  | cs => if multiline then (continueLine? cs).map (none, ·) else none

def readText (quote : Char) (escapes multiline : Bool) :
    Nat → List Char → List Char → Option (List Char × List Char)
  | 0, _, _ => none
  | _, _, [] => none
  | fuel + 1, seen, c :: cs =>
      if c == quote then
        if !multiline then some (seen.reverse, cs)
        else
          match cs.takeWhile (· == quote) with
          | [] => readText quote escapes multiline fuel (c :: seen) cs
          | [_] => readText quote escapes multiline fuel (c :: c :: seen) (cs.drop 1)
          | more =>
              let extra := min 2 (more.length - 2)
              some ((List.replicate extra quote ++ seen).reverse, cs.drop (2 + extra))
      else if c == '\n' then
        if multiline then readText quote escapes multiline fuel (c :: seen) cs else none
      else if escapes && c == '\\' then
        match escape? multiline cs with
        | some (some e, rest) => readText quote escapes multiline fuel (e :: seen) rest
        | some (none, rest) => readText quote escapes multiline fuel seen rest
        | none => none
      else if isTextChar c then readText quote escapes multiline fuel (c :: seen) cs
      else none

def textToken (quote : Char) (escapes : Bool) (cs : List Char) : Token × List Char :=
  let finish := fun (multiline : Bool) (cs : List Char) =>
    match readText quote escapes multiline (cs.length + 1) [] cs with
    | some (t, rest) => (Token.text t multiline, rest)
    | none => (.bad, [])
  match cs with
  | c :: c' :: rest =>
      if c == quote && c' == quote then
        finish true (match rest with | '\n' :: r => r | r => r)
      else if c == quote then (.text [] false, c' :: rest)
      else finish false cs
  | [c] => if c == quote then (.text [] false, []) else finish false cs
  | [] => (.bad, [])

def singleQuote : Char := '\x27'

def nextToken (c : Char) (cs : List Char) : Token × List Char :=
  if c == '\n' then (.newline, cs)
  else if c == ' ' || c == '\t' then
    let p := fun c => c == ' ' || c == '\t'
    (.blank (c :: cs.takeWhile p), cs.dropWhile p)
  else if c == '#' then (.comment, cs.dropWhile isCommentChar)
  else if isMark c then (.mark c, cs)
  else if c == '"' then textToken '"' true cs
  else if c == singleQuote then textToken singleQuote false cs
  else if isWordChar c then (.word (c :: cs.takeWhile isWordChar), cs.dropWhile isWordChar)
  else (.bad, [])

def tokensFor : Nat → List Char → List Token
  | 0, _ => []
  | _, [] => []
  | fuel + 1, c :: cs =>
      let (t, rest) := nextToken c cs
      t :: tokensFor fuel rest

def tokens (cs : List Char) : List Token := tokensFor cs.length cs

-- Whether the digits may be used in a number: no underscore at an end or beside another.
def underscoresFit : List Char → Bool
  | [] => false
  | c :: cs => c != '_' && (c :: cs).getLast? != some '_' &&
      !((c :: cs).zip cs).any fun (a, b) => a == '_' && b == '_'

def digitsOf? (radix : Nat) (cs : List Char) : Option Nat :=
  if underscoresFit cs then
    (cs.filter (· != '_')).foldlM (fun n d => do
      let v ← hexValue? d
      if v < radix then some (radix * n + v) else none) 0
  else none

def dropSign : List Char → List Char
  | '-' :: cs => cs
  | '+' :: cs => cs
  | cs => cs

def noLeadingZero : List Char → Bool
  | '0' :: _ :: _ => false
  | _ => true

def decimal? (cs : List Char) : Option Int :=
  let ds := dropSign cs
  if noLeadingZero ds then
    (digitsOf? 10 ds).map fun n => if cs.head? = some '-' then -(n : Int) else n
  else none

def fits64 (n : Int) : Bool := -(Nat.pow 2 63 : Int) ≤ n && n < (Nat.pow 2 63 : Int)

def integer? (cs : List Char) : Option Value :=
  let n : Option Int := match cs with
    | '0' :: 'x' :: ds => (digitsOf? 16 ds).map Int.ofNat
    | '0' :: 'o' :: ds => (digitsOf? 8 ds).map Int.ofNat
    | '0' :: 'b' :: ds => (digitsOf? 2 ds).map Int.ofNat
    | ds => decimal? ds
  (n.filter fits64).map .integer

def isExponentMark (c : Char) : Bool := c == 'e' || c == 'E'

def isExponent : List Char → Bool
  | c :: ds => isExponentMark c && (digitsOf? 10 (dropSign ds)).isSome
  | [] => false

def number? (w : List Char) (ts : List Token) : Option (Value × List Token) :=
  let whole := w.takeWhile (!isExponentMark ·)
  let tail := w.dropWhile (!isExponentMark ·)
  if ["inf", "-inf", "nan", "-nan"].contains (String.ofList w) then some (.float, ts)
  else if (w.take 2 ∈ [['0', 'x'], ['0', 'o'], ['0', 'b']]) then (integer? w).map (·, ts)
  else if !tail.isEmpty then
    if (decimal? whole).isNone then none
    else if isExponent tail then some (.float, ts)
    else if tail.length == 1 then
      match ts with
      | .mark '+' :: .word ds :: ts => if (digitsOf? 10 ds).isSome then some (.float, ts) else none
      | .word ds :: ts => if (digitsOf? 10 ds).isSome then some (.float, ts) else none
      | _ => none
    else none
  else
    match ts with
    | .mark '.' :: .word f :: ts =>
        let fraction := f.takeWhile (!isExponentMark ·)
        let exponent := f.dropWhile (!isExponentMark ·)
        if (decimal? w).isNone || (digitsOf? 10 fraction).isNone then none
        else if exponent.isEmpty || isExponent exponent then some (.float, ts)
        else if exponent.length == 1 then
          match ts with
          | .mark '+' :: .word ds :: ts =>
              if (digitsOf? 10 ds).isSome then some (.float, ts) else none
          | _ => none
        else none
    | .mark '.' :: _ => none
    | ts => (integer? w).map (·, ts)

def digitsIn? (width : Nat) (cs : List Char) : Option (Nat × List Char) :=
  if (cs.take width).length = width then (Text.digits? (cs.take width)).map (·, cs.drop width)
  else none

def after? (mark : Char) : List Char → Option (List Char)
  | [] => none
  | c :: cs => if c == mark then some cs else none

abbrev Shown := List Char × List Char

def date? (cs : List Char) : Option Shown := do
  let (_, ms) ← digitsIn? 4 cs
  let (m, ds) ← digitsIn? 2 (← after? '-' ms)
  let (d, rest) ← digitsIn? 2 (← after? '-' ds)
  if 1 ≤ m ∧ m ≤ 12 ∧ 1 ≤ d ∧ d ≤ 31 then some (cs.take 10, rest) else none

-- The digits up to nanoseconds, without zeros at their end.
def fraction (ds : List Char) : List Char :=
  match ((ds.take 9).reverse.dropWhile (· == '0')).reverse with
  | [] => []
  | shown => '.' :: shown

def time? (cs : List Char) : Option Shown := do
  let (h, ms) ← digitsIn? 2 cs
  let (m, ss) ← digitsIn? 2 (← after? ':' ms)
  let (s, rest) ← digitsIn? 2 (← after? ':' ss)
  if h ≤ 24 ∧ m ≤ 59 ∧ s ≤ 60 then
    match rest with
    | '.' :: f =>
        let ds := f.takeWhile Char.isDigit
        if ds.isEmpty then none else some (cs.take 8 ++ fraction ds, f.dropWhile Char.isDigit)
    | rest => some (cs.take 8, rest)
  else none

def offset? : List Char → Option (List Char)
  | [] => some []
  | ['Z'] | ['z'] => some ['Z']
  | c :: cs => do
      let (h, ms) ← digitsIn? 2 cs
      let (_, rest) ← digitsIn? 2 (← after? ':' ms)
      if !rest.isEmpty then none
      -- An offset of no whole hour is shown as one to the east.
      else if c == '+' || (c == '-' && h == 0) then some ('+' :: cs)
      else if c == '-' then some ('-' :: cs)
      else none

def datetimeText? (cs : List Char) : Option (List Char) :=
  match date? cs with
  | some (d, []) => some d
  | some (d, c :: cs) =>
      if c == 'T' || c == 't' || c == ' ' then do
        let (t, rest) ← time? cs
        (offset? rest).map fun o => d ++ 'T' :: t ++ o
      else none
  | none =>
      match time? cs with
      | some (t, []) => some t
      | _ => none

def tokenChars : Token → List Char
  | .blank cs => cs
  | .mark c => [c]
  | .word cs => cs
  | _ => ['\n']

def isDatePart : Token → Bool
  | .word _ => true
  | .mark c => c == ':' || c == '.' || c == '+'
  | _ => false

def datetime? (w : List Char) (ts : List Token) : Option (Value × List Token) :=
  let (lead, ts) := match ts with
    | .blank [' '] :: .word h :: ts => (w ++ ' ' :: h, ts)
    | ts => (w, ts)
  let more := ts.takeWhile isDatePart
  (datetimeText? (lead ++ more.flatMap tokenChars)).map fun shown =>
    (.datetime (String.ofList shown), ts.dropWhile isDatePart)

def looksLikeDate (w : List Char) (ts : List Token) : Bool :=
  let hasExponent := (w.zip (w.drop 1)).any fun (a, b) => isExponentMark a && b == '-'
  w.contains 'T' || w.contains 't' || ((w.drop 1).contains '-' && !hasExponent)
    || ts.head? == some (.mark ':')

def scalar? (w : List Char) (ts : List Token) : Option (Value × List Token) :=
  if w = "true".toList then some (.boolean true, ts)
  else if w = "false".toList then some (.boolean false, ts)
  else
    match w with
    | [] => none
    | c :: _ =>
        if c.isDigit || c == '-' then
          if looksLikeDate w ts then datetime? w ts else number? w ts
        else if w = "inf".toList || w = "nan".toList then some (.float, ts)
        else none

def skipBlanks (ts : List Token) : List Token :=
  ts.dropWhile fun t => match t with | .blank _ => true | _ => false

def skipLayout (ts : List Token) : List Token :=
  ts.dropWhile fun t => match t with | .blank _ => true | .newline => true | .comment => true | _ => false

def endLine? (ts : List Token) : Option (List Token) :=
  let ts := match skipBlanks ts with | .comment :: ts => ts | ts => ts
  match ts with
  | [] => some []
  | .newline :: ts => some ts
  | _ => none

def simpleKey? : List Token → Option (String × List Token)
  | .word w :: ts => some (String.ofList w, ts)
  | .text t false :: ts => some (String.ofList t, ts)
  | _ => none

def path? : Nat → List Token → Option (List String × List Token)
  | 0, _ => none
  | fuel + 1, ts => do
      let (k, ts) ← simpleKey? ts
      match skipBlanks ts with
      | .mark '.' :: ts =>
          let (ks, ts) ← path? fuel (skipBlanks ts)
          some (k :: ks, ts)
      | ts => some ([k], ts)

inductive Node where
  | closed (value : Value)
  | dotted (entries : List (String × Node))

def addPath? : List String → Value → List (String × Node) → Option (List (String × Node))
  | [], _, _ => none
  | [k], v, es => some (es ++ [(k, .closed v)])
  | k :: ks, v, es =>
      match es.lookup k with
      | none => (addPath? ks v []).map fun sub => es ++ [(k, .dotted sub)]
      | some (.closed _) => none
      | some (.dotted sub) => (addPath? ks v sub).map fun sub =>
          es.map fun (k', n) => if k' = k then (k', .dotted sub) else (k', n)

mutual

def Node.value : Node → Value
  | .closed v => v
  | .dotted es => .table (entriesOfNodes es)

def entriesOfNodes : List (String × Node) → List (String × Value)
  | [] => []
  | (k, n) :: es => (k, n.value) :: entriesOfNodes es

end

mutual

def value? : Nat → List Token → Option (Value × List Token)
  | 0, _ => none
  | fuel + 1, ts =>
      match ts with
      | .text t _ :: ts => some (.text (String.ofList t), ts)
      | .word w :: ts => scalar? w ts
      | .mark '+' :: .word w :: ts => number? w ts
      | .mark '[' :: ts => items? fuel (skipLayout ts)
      | .mark '\x7b' :: ts =>
          match skipBlanks ts with
          | .mark '\x7d' :: ts => some (.table [], ts)
          | ts => inline? fuel [] ts
      | _ => none

def items? : Nat → List Token → Option (Value × List Token)
  | 0, _ => none
  | fuel + 1, ts =>
      match ts with
      | .mark ']' :: ts => some (.list [], ts)
      | ts => do
          let (v, ts) ← value? fuel ts
          match skipLayout ts with
          | .mark ',' :: ts =>
              let (rest, ts) ← items? fuel (skipLayout ts)
              match rest with
              | .list vs => some (.list (v :: vs), ts)
              | _ => none
          | .mark ']' :: ts => some (.list [v], ts)
          | _ => none

def inline? : Nat → List (String × Node) → List Token → Option (Value × List Token)
  | 0, _, _ => none
  | fuel + 1, es, ts => do
      let (ks, ts) ← path? (ts.length + 1) ts
      match skipBlanks ts with
      | .mark '=' :: ts =>
          let (v, ts) ← value? fuel (skipBlanks ts)
          let es ← addPath? ks v es
          match skipBlanks ts with
          | .mark '\x7d' :: ts => some (.table (entriesOfNodes es), ts)
          | .mark ',' :: ts => inline? fuel es (skipBlanks ts)
          | _ => none
      | _ => none

end

structure Section where
  path : List String
  isItem : Bool
  entries : List (String × Node)

def header? (ts : List Token) : Option (Section × List Token) := do
  let (isItem, ts) := match ts with | .mark '[' :: ts => (true, ts) | ts => (false, ts)
  let (ks, ts) ← path? (ts.length + 1) (skipBlanks ts)
  match isItem, ts with
  | false, .mark ']' :: ts => (endLine? ts).map (⟨ks, false, []⟩, ·)
  | true, .mark ']' :: .mark ']' :: ts => (endLine? ts).map (⟨ks, true, []⟩, ·)
  | _, _ => none

def sections? : Nat → Section → List Section → List Token → Option (List Section)
  | 0, _, _, _ => none
  | fuel + 1, current, found, ts =>
      match skipLayout ts with
      | [] => some (current :: found).reverse
      | .mark '[' :: ts => do
          let (next, ts) ← header? ts
          sections? fuel next (current :: found) ts
      | ts => do
          let (ks, ts) ← path? (ts.length + 1) ts
          match skipBlanks ts with
          | .mark '=' :: ts =>
              let (v, ts) ← value? (ts.length + 1) (skipBlanks ts)
              let ts ← endLine? ts
              let es ← addPath? ks v current.entries
              sections? fuel { current with entries := es } found ts
          | _ => none

def place? (isItem : Bool) (sub : List (String × Value)) :
    List String → List (String × Value) → Option (List (String × Value))
  | [], _ => none
  | [k], es =>
      match es.lookup k with
      | none => some (es ++ [(k, if isItem then .list [.table sub] else .table sub)])
      | some (.list vs) =>
          if isItem then
            some (es.map fun (k', v) => if k' = k then (k', .list (vs ++ [.table sub])) else (k', v))
          else none
      | some (.table old) =>
          if isItem then none
          else if old.all (fun (_, v) => match v with | .table _ => true | .list _ => true | _ => false)
          then some (es.map fun (k', v) => if k' = k then (k', .table (sub ++ old)) else (k', v))
          else none
      | some _ => none
  | k :: ks, es =>
      match es.lookup k with
      | none => (place? isItem sub ks []).map fun t => es ++ [(k, .table t)]
      | some (.table t) => (place? isItem sub ks t).map fun t =>
          es.map fun (k', v) => if k' = k then (k', .table t) else (k', v)
      | some (.list vs) =>
          match vs.getLast? with
          | some (.table t) => (place? isItem sub ks t).map fun t =>
              es.map fun (k', v) => if k' = k then (k', .list (vs.dropLast ++ [.table t])) else (k', v)
          | _ => none
      | some _ => none

mutual

def keysDiffer : Value → Bool
  | .list vs => itemsDiffer vs
  | .table es => (es.map (·.1)).eraseDups.length == es.length && entriesDiffer es
  | _ => true

def itemsDiffer : List Value → Bool
  | [] => true
  | v :: vs => keysDiffer v && itemsDiffer vs

def entriesDiffer : List (String × Value) → Bool
  | [] => true
  | (_, v) :: es => keysDiffer v && entriesDiffer es

end

def placeAll? (es : List (String × Value)) : List Section → Option (List (String × Value))
  | [] => some es
  | s :: ss => (place? s.isItem (entriesOfNodes s.entries) s.path es).bind (placeAll? · ss)

def hasRepeatedHeader (ss : List Section) : Bool :=
  let plain := (ss.filter (!·.isItem)).map (·.path)
  plain.eraseDups.length != plain.length

def entries? (document : String) : Option (List (String × Value)) := do
  let cs := match document.toList with | '\ufeff' :: cs => cs | cs => cs
  let ts := tokens (foldLineEnds cs)
  match ← sections? (ts.length + 1) ⟨[], false, []⟩ [] ts with
  | [] => none
  | root :: rest =>
      let es := entriesOfNodes root.entries
      let tables ← placeAll? [] rest
      if hasRepeatedHeader rest && rest.all (!·.isItem) then none
      else if entriesDiffer es && entriesDiffer tables then some (es ++ tables)
      else none

-- At the root a key that is written twice keeps its last value.
def read? (document : String) : Option (Table Value) := (entries? document).map Table.empty.extend

def reading : Reading Value where
  integer?
    | .integer n => some n
    | _ => none
  bool?
    | .boolean b => some b
    | _ => none
  text?
    | .text s | .datetime s => some s
    | _ => none
  choice?
    | .text s => some s
    | _ => none

def format : Format where
  Value := Value
  ofBool := .boolean
  reading := reading
  read? := read?
  config? t := reading.setAll? {} t.entries

end SatSession.Config.Toml
