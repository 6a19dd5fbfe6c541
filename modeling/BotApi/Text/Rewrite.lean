/-!
Rewriting the parts of a text that a pattern matches, from left to right, and each character
between them on its own.
-/

namespace BotApi.Text

structure Match where
  result : List Char
  length : Nat

/-- `skip` counts the characters still left of the part last matched. -/
def rewriteFrom (match? : List Char → Option Match) (plain : Char → List Char) :
    Nat → List Char → List Char
  | _, [] => []
  | skip + 1, _ :: s => rewriteFrom match? plain skip s
  | 0, c :: s => match match? (c :: s) with
      | some m => m.result ++ rewriteFrom match? plain (m.length - 1) s
      | none => plain c ++ rewriteFrom match? plain 0 s

def rewrite (match? : List Char → Option Match) (plain : Char → List Char) (s : List Char) :
    List Char :=
  rewriteFrom match? plain 0 s

def escapeChars (p : Char → Bool) (s : List Char) : List Char :=
  s.flatMap fun c => if p c then ['\\', c] else [c]

end BotApi.Text
