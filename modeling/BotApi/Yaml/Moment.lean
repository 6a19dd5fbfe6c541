import BotApi.Text.Blank
import BotApi.Text.Digit
/-!
Days, and moments with a time of day. A day is written with all its digits; the time after it can have
a fraction of a second and the difference of its zone.
-/

namespace BotApi.Yaml

structure Time where
  hour : Nat
  minute : Nat
  second : Nat
  microsecond : Nat
  zone : Option Int
  deriving Repr, DecidableEq

structure Moment where
  year : Nat
  month : Nat
  day : Nat
  time : Option Time
  deriving Repr, DecidableEq

namespace Moment

def digits? (least most : Nat) (s : List Char) : Option (Nat × List Char) :=
  let t := (s.take most).takeWhile Text.isAsciiDigit
  if t.length < least then none else (Text.decimalNumber? t).map fun n => (n, s.drop t.length)

def char? (x : Char) : List Char → Option (List Char)
  | c :: s => if c = x then some s else none
  | [] => none

def isBlank (c : Char) : Bool := c = ' ' || c = '\t'

def between? : List Char → Option (List Char)
  | [] => none
  | c :: s => if c = 'T' || c = 't' then some s else if isBlank c then some (s.dropWhile isBlank) else none

def fraction (s : List Char) : Nat × List Char :=
  match s with
  | '.' :: s =>
      let t := s.takeWhile Text.isAsciiDigit
      let six := (t ++ List.replicate 6 '0').take 6
      ((Text.decimalNumber? six).getD 0, s.drop t.length)
  | s => (0, s)

def zone? (s : List Char) : Option (Option Int) :=
  match s.dropWhile isBlank with
  | [] => if s.isEmpty then some none else none
  | ['Z'] => some (some 0)
  | c :: t =>
      if c = '+' || c = '-' then do
        let (h, t) ← digits? 1 2 t
        let (m, t) ← match t with
          | ':' :: t => digits? 2 2 t
          | t => some (0, t)
        guard t.isEmpty
        let n : Int := h * 60 + m
        pure (some (if c = '-' then -n else n))
      else none

def time? (s : List Char) : Option Time := do
  let (hour, s) ← digits? 1 2 s
  let (minute, s) ← digits? 2 2 (← char? ':' s)
  let (second, s) ← digits? 2 2 (← char? ':' s)
  let (micro, s) := fraction s
  pure ⟨hour, minute, second, micro, ← zone? s⟩

def ofChars? (s : List Char) : Option Moment := do
  let (year, rest) ← digits? 4 4 s
  let (month, rest) ← digits? 1 2 (← char? '-' rest)
  let (day, rest) ← digits? 1 2 (← char? '-' rest)
  if rest.isEmpty then
    guard (s.length = 10)
    pure ⟨year, month, day, none⟩
  else pure ⟨year, month, day, some (← time? (← between? rest))⟩

def isLeap (year : Nat) : Bool := year % 4 == 0 && (year % 100 != 0 || year % 400 == 0)

def daysIn (year month : Nat) : Nat :=
  if month = 2 then (if isLeap year then 29 else 28)
  else if [4, 6, 9, 11].contains month then 30 else 31

def Time.isValid (t : Time) : Bool :=
  t.hour < 24 && t.minute < 60 && t.second < 60 && t.zone.all fun z => z.natAbs < 24 * 60

def isValid (m : Moment) : Bool :=
  0 < m.year && 0 < m.month && m.month ≤ 12 && 0 < m.day && m.day ≤ daysIn m.year m.month &&
    m.time.all Time.isValid

def pad (width n : Nat) : List Char :=
  let s := Text.natDigits n
  List.replicate (width - s.length) '0' ++ s

def dayText (m : Moment) : List Char := pad 4 m.year ++ '-' :: pad 2 m.month ++ '-' :: pad 2 m.day

def zoneText (z : Int) : List Char :=
  (if z < 0 then '-' else '+') :: pad 2 (z.natAbs / 60) ++ ':' :: pad 2 (z.natAbs % 60)

def text (m : Moment) : List Char :=
  match m.time with
  | none => m.dayText
  | some t =>
      m.dayText ++ ' ' :: pad 2 t.hour ++ ':' :: pad 2 t.minute ++ ':' :: pad 2 t.second ++
        (if t.microsecond = 0 then [] else '.' :: pad 6 t.microsecond) ++
        (t.zone.map zoneText).getD []

def kind (m : Moment) : String := if m.time.isSome then "datetime" else "date"

def zoneQuoted (z : Int) : String :=
  if z = 0 then "datetime.timezone.utc"
  else
    let seconds := z * 60
    let delta := if seconds < 0 then s!"days=-1, seconds={seconds + 86400}" else s!"seconds={seconds}"
    s!"datetime.timezone(datetime.timedelta({delta}))"

def timeNumbers (t : Time) : List Nat :=
  [t.hour, t.minute] ++
    (if t.microsecond = 0 then (if t.second = 0 then [] else [t.second]) else [t.second, t.microsecond])

def quoted (m : Moment) : String :=
  let numbers := [m.year, m.month, m.day] ++ (m.time.map timeNumbers).getD []
  let zone := match m.time.bind (·.zone) with
    | some z => [s!"tzinfo=" ++ zoneQuoted z]
    | none => []
  s!"datetime.{m.kind}(" ++ String.intercalate ", " (numbers.map toString ++ zone) ++ ")"

end Moment

end BotApi.Yaml
