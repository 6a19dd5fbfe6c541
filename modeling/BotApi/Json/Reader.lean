import BotApi.Text.Blank
import BotApi.Text.Octets
import BotApi.Value.Compare
/-!
Reading JSON text. The reader takes the number texts `NaN` and `Infinity` too, keeps the order of
keys, and lets the last of two equal keys win. A fault carries the text that was left where it arose.
-/

namespace BotApi.Json

inductive Fault where
  | expectingValue
  | expectingName
  | expectingColon
  | expectingComma
  | extraData
  | invalidControl
  | invalidEscape
  | invalidUnicodeEscape
  | unterminated
  | tooManyDigits (count : Nat)
  deriving Repr, DecidableEq

def Fault.message : Fault → String
  | expectingValue => "Expecting value"
  | expectingName => "Expecting property name enclosed in double quotes"
  | expectingColon => "Expecting ':' delimiter"
  | expectingComma => "Expecting ',' delimiter"
  | extraData => "Extra data"
  | invalidControl => "Invalid control character at"
  | invalidEscape => "Invalid \\escape"
  | invalidUnicodeEscape => "Invalid \\uXXXX escape"
  | unterminated => "Unterminated string starting at"
  | tooManyDigits n =>
      s!"Exceeds the limit (4300 digits) for integer string conversion: value has {n} digits; " ++
        "use sys.set_int_max_str_digits() to increase the limit"

structure Stuck where
  fault : Fault
  rest : List Char

def isSpace (c : Char) : Bool := c == ' ' || c == '\t' || c == '\n' || c == '\r'

def skip (s : List Char) : List Char := s.dropWhile isSpace

def hex4? : List Char → Option (Nat × List Char)
  | a :: b :: c :: d :: s => do
      let a ← Text.hexValue? a
      let b ← Text.hexValue? b
      let c ← Text.hexValue? c
      let d ← Text.hexValue? d
      pure (((a * 16 + b) * 16 + c) * 16 + d, s)
  | _ => none

def shortEscape? : Char → Option Char
  | '"' => some '"'
  | '\\' => some '\\'
  | '/' => some '/'
  | 'b' => some '\x08'
  | 'f' => some '\x0c'
  | 'n' => some '\n'
  | 'r' => some '\r'
  | 't' => some '\t'
  | _ => none

/-- A code point above the basic plane is escaped as two units. -/
def readCode (atU : List Char) (s : List Char) : Except Stuck (Char × List Char) :=
  match hex4? s with
  | none => .error ⟨.invalidUnicodeEscape, atU⟩
  | some (_, []) => .error ⟨.invalidUnicodeEscape, atU⟩
  | some (n, '\\' :: 'u' :: t) =>
      if Text.isHighSurrogate n && 5 ≤ t.length then
        match hex4? t with
        | none => .error ⟨.invalidUnicodeEscape, 'u' :: t⟩
        | some (m, u) =>
            if Text.isLowSurrogate m then .ok (Char.ofNat (Text.joinSurrogates n m), u)
            else .ok (Text.charOfCode n, '\\' :: 'u' :: t)
      else .ok (Text.charOfCode n, '\\' :: 'u' :: t)
  | some (n, t) => .ok (Text.charOfCode n, t)

def readString (opening : List Char) : Nat → List Char → Except Stuck (List Char × List Char)
  | 0, _ => .error ⟨.unterminated, opening⟩
  | _ + 1, [] => .error ⟨.unterminated, opening⟩
  | fuel + 1, c :: s =>
      if c = '"' then .ok ([], s)
      else if c = '\\' then
        match s with
        | [] => .error ⟨.unterminated, opening⟩
        | 'u' :: t => do
            let (d, rest) ← readCode s t
            let (cs, rest) ← readString opening fuel rest
            pure (d :: cs, rest)
        | e :: t =>
            match shortEscape? e with
            | none => .error ⟨.invalidEscape, c :: s⟩
            | some d => do
                let (cs, rest) ← readString opening fuel t
                pure (d :: cs, rest)
      else if c.toNat < 0x20 then .error ⟨.invalidControl, c :: s⟩
      else do
        let (cs, rest) ← readString opening fuel s
        pure (c :: cs, rest)

def takeDigits (s : List Char) : List Char × List Char := s.span Text.isAsciiDigit

def digitsValue (s : List Char) : Nat := (Text.decimalNumber? s).getD 0

def integerPart? : List Char → Option (List Char × List Char)
  | '0' :: s => some (['0'], s)
  | s => match takeDigits s with
      | ([], _) => none
      | (ds, rest) => some (ds, rest)

def fractionPart (s : List Char) : List Char × List Char :=
  match s with
  | '.' :: t => match takeDigits t with
      | ([], _) => ([], s)
      | (ds, rest) => (ds, rest)
  | _ => ([], s)

def exponentPart? (s : List Char) : Option Int × List Char :=
  match s with
  | e :: t =>
      if e = 'e' ∨ e = 'E' then
        let (negative, u) := match t with
          | '-' :: u => (true, u)
          | '+' :: u => (false, u)
          | _ => (false, t)
        match takeDigits u with
        | ([], _) => (none, s)
        | (ds, rest) =>
            let n : Int := digitsValue ds
            (some (if negative then -n else n), rest)
      else (none, s)
  | [] => (none, s)

def readNumber (start : List Char) : Except Stuck (Value × List Char) :=
  let (negative, s) := match start with
    | '-' :: t => (true, t)
    | _ => (false, start)
  match integerPart? s with
  | none => .error ⟨.expectingValue, start⟩
  | some (ds, s) =>
      let (frac, s) := fractionPart s
      let (exponent, s) := exponentPart? s
      if frac.isEmpty && exponent.isNone then
        if Text.digitsMost < ds.length then .error ⟨.tooManyDigits ds.length, start⟩
        else
          let n : Int := digitsValue ds
          .ok (.int (if negative then -n else n), s)
      else
        let d : Number.Decimal :=
          ⟨negative, digitsValue (ds ++ frac), exponent.getD 0 - frac.length⟩
        .ok (.float d.toFloat, s)

def words : List (List Char × Value) :=
  [("null".toList, .null), ("true".toList, .bool true), ("false".toList, .bool false),
    ("NaN".toList, .float Number.nan), ("Infinity".toList, .float (Number.infinity false)),
    ("-Infinity".toList, .float (Number.infinity true))]

def readWord? (s : List Char) : Option (Value × List Char) :=
  words.findSome? fun (w, v) => (Text.dropStart? w s).map fun rest => (v, rest)

mutual
def readValue : Nat → List Char → Except Stuck (Value × List Char)
  | 0, s => .error ⟨.expectingValue, s⟩
  | fuel + 1, s =>
      match s with
      | '"' :: t => do
          let (cs, rest) ← readString s (t.length + 1) t
          pure (.str (.ofList cs), rest)
      | '[' :: t =>
          match skip t with
          | ']' :: rest => .ok (.list [], rest)
          | t => do
              let (xs, rest) ← readItems fuel t
              pure (.list xs, rest)
      | '{' :: t =>
          match skip t with
          | '}' :: rest => .ok (.dict [], rest)
          | t => do
              let (es, rest) ← readEntries fuel [] t
              pure (.dict es, rest)
      | _ =>
          match readWord? s with
          | some r => .ok r
          | none => readNumber s
def readItems : Nat → List Char → Except Stuck (List Value × List Char)
  | 0, s => .error ⟨.expectingValue, s⟩
  | fuel + 1, s => do
      let (x, s) ← readValue fuel s
      match skip s with
      | ']' :: rest => pure ([x], rest)
      | ',' :: t => do
          let (xs, rest) ← readItems fuel (skip t)
          pure (x :: xs, rest)
      | t => .error ⟨.expectingComma, t⟩
def readEntries : Nat → Entries → List Char → Except Stuck (Entries × List Char)
  | 0, _, s => .error ⟨.expectingValue, s⟩
  | fuel + 1, es, s =>
      match s with
      | '"' :: t => do
          let (cs, s) ← readString s (t.length + 1) t
          match skip s with
          | ':' :: t => do
              let (v, s) ← readValue fuel (skip t)
              let es := es.put (.str (.ofList cs)) v
              match skip s with
              | '}' :: rest => pure (es, rest)
              | ',' :: t => readEntries fuel es (skip t)
              | t => .error ⟨.expectingComma, t⟩
          | t => .error ⟨.expectingColon, t⟩
      | t => .error ⟨.expectingName, t⟩
end

def read (s : List Char) : Except Stuck Value := do
  let (v, rest) ← readValue (2 * s.length + 2) (skip s)
  match skip rest with
  | [] => pure v
  | t => .error ⟨.extraData, t⟩

def hasLoneEscape : List Char → Bool
  | '\\' :: 'u' :: t =>
      match t with
      | a :: b :: c :: d :: u =>
          match hex4? [a, b, c, d] with
          | none => hasLoneEscape u
          | some (n, _) =>
              if Text.isHighSurrogate n then
                match u with
                | '\\' :: 'u' :: e :: f :: g :: h :: v =>
                    match hex4? [e, f, g, h] with
                    | some (m, _) => !Text.isLowSurrogate m || hasLoneEscape v
                    | none => true
                | _ => true
              else Text.isLowSurrogate n || hasLoneEscape u
      | _ => false
  | '\\' :: _ :: t => hasLoneEscape t
  | _ :: t => hasLoneEscape t
  | [] => false

def readStrict (s : List Char) : Option Value :=
  if hasLoneEscape s then none else (read s).toOption

structure Place where
  line : Nat
  column : Nat
  offset : Nat
  deriving Repr, DecidableEq

def Place.after (before : List Char) : Place :=
  ⟨before.count '\n' + 1, (before.reverse.takeWhile (· != '\n')).length + 1, before.length⟩

def Stuck.message (text : List Char) (e : Stuck) : String :=
  match e.fault with
  | .tooManyDigits _ => e.fault.message
  | _ =>
      let p := Place.after (text.take (text.length - e.rest.length))
      s!"{e.fault.message}: line {p.line} column {p.column} (char {p.offset})"

/-- The encoding is told by a byte order mark, or by where the first octets are zero. -/
def decodeOctets (bs : List UInt8) : Except Text.Undecodable (List Char) :=
  match bs with
  | 0x00 :: 0x00 :: 0xFE :: 0xFF :: r => Text.decode32 .big 4 r
  | 0xFF :: 0xFE :: 0x00 :: 0x00 :: r => Text.decode32 .little 4 r
  | 0xFE :: 0xFF :: r => Text.decode16 .big 2 r
  | 0xFF :: 0xFE :: r => Text.decode16 .little 2 r
  | 0xEF :: 0xBB :: 0xBF :: r => Text.Utf8.decodeLoose r
  | a :: b :: c :: d :: _ =>
      if a = 0 then if b = 0 then Text.decode32 .big 0 bs else Text.decode16 .big 0 bs
      else if b = 0 then
        if c = 0 ∧ d = 0 then Text.decode32 .little 0 bs else Text.decode16 .little 0 bs
      else Text.Utf8.decodeLoose bs
  | [a, b] =>
      if a = 0 then Text.decode16 .big 0 bs
      else if b = 0 then Text.decode16 .little 0 bs
      else Text.Utf8.decodeLoose bs
  | _ => Text.Utf8.decodeLoose bs

inductive ReadError where
  | undecodable (f : Text.Undecodable)
  | stuck (text : List Char) (s : Stuck)

def ReadError.message : ReadError → String
  | undecodable f => f.message
  | stuck text s => s.message text

def readOctets (bs : List UInt8) : Except ReadError Value :=
  match decodeOctets bs with
  | .error f => .error (.undecodable f)
  | .ok text =>
      match read text with
      | .error s => .error (.stuck text s)
      | .ok v => .ok v

end BotApi.Json
