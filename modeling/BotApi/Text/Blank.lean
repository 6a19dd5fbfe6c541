/-!
Blank characters, trimming and splitting into words, over lists of characters.
-/

namespace BotApi.Text

def isBlank (c : Char) : Bool :=
  let n := c.toNat
  (9 ≤ n && n ≤ 13) || (28 ≤ n && n ≤ 32) || n == 0x85 || n == 0xA0 || n == 0x1680 ||
    (0x2000 ≤ n && n ≤ 0x200A) || n == 0x2028 || n == 0x2029 || n == 0x202F ||
    n == 0x205F || n == 0x3000

def isWhite (c : Char) : Bool :=
  isBlank c && !(28 ≤ c.toNat && c.toNat ≤ 31)

def isAsciiBlank (c : Char) : Bool :=
  c.toNat == 32 || (9 ≤ c.toNat && c.toNat ≤ 13)

def trimLeft (p : Char → Bool) (s : List Char) : List Char := s.dropWhile p

def trimRight (p : Char → Bool) (s : List Char) : List Char :=
  (s.reverse.dropWhile p).reverse

def trim (p : Char → Bool) (s : List Char) : List Char := trimRight p (trimLeft p s)

def runsFrom (p : Char → Bool) (run : List Char) : List Char → List (List Char)
  | [] => if run.isEmpty then [] else [run.reverse]
  | c :: cs =>
      if p c then
        if run.isEmpty then runsFrom p [] cs else run.reverse :: runsFrom p [] cs
      else runsFrom p (c :: run) cs

def words (s : List Char) : List (List Char) := runsFrom isBlank [] s

def pieces (sep : Char) : List Char → List (List Char)
  | [] => [[]]
  | c :: cs =>
      if c = sep then [] :: pieces sep cs
      else match pieces sep cs with
        | [] => [[c]]
        | p :: ps => (c :: p) :: ps

def join (sep : List Char) : List (List Char) → List Char
  | [] => []
  | [p] => p
  | p :: q :: ps => p ++ sep ++ join sep (q :: ps)

def flatten (s : List Char) : List Char := join [' '] (words s)

def startsWith (start s : List Char) : Bool := start.isPrefixOf s

def dropStart? : List Char → List Char → Option (List Char)
  | [], s => some s
  | _ :: _, [] => none
  | a :: p, c :: s => if a = c then dropStart? p s else none

def splitFirst? (needle : List Char) : List Char → Option (List Char × List Char)
  | [] => if needle.isEmpty then some ([], []) else none
  | c :: s =>
      match dropStart? needle (c :: s) with
      | some rest => some ([], rest)
      | none => (splitFirst? needle s).map fun (a, b) => (c :: a, b)

def contains (needle s : List Char) : Bool := (splitFirst? needle s).isSome

def replaceChar (a b : Char) (s : List Char) : List Char := s.map fun c => if c = a then b else c

def onChars (f : List Char → List Char) (s : String) : String := .ofList (f s.toList)

end BotApi.Text
