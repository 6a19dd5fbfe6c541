import BotApi.Catalog.Basic
import BotApi.Error
import BotApi.Text.Case
import BotApi.Value.Compare
/-!
Finding methods by the names callers use, and bringing the keys of parameters into one spelling.
-/

namespace BotApi

def camelCase (s : String) : String :=
  Text.onChars (fun cs => match Text.pieces '_' cs with
    | [] => []
    | head :: rest => head ++ rest.flatMap Text.capitalize) s

def Spec.find (s : Spec) (name : String) : Except Error Method :=
  match (s.method? name).or (s.method? (camelCase name)) with
  | some m => .ok m
  | none => .error (.unknownMethod name)

namespace Value

def underscoredKey : Value → Value
  | str s => str (Text.onChars (Text.replaceChar '-' '_') s)
  | v => v

mutual
def withUnderscores : Value → Value
  | dict es => dict (Entries.ofPairs (entriesWithUnderscores es))
  | list xs => list (itemsWithUnderscores xs)
  | tuple xs => list (itemsWithUnderscores xs)
  | v => v
def entriesWithUnderscores : List (Value × Value) → List (Value × Value)
  | [] => []
  | (k, v) :: es => (underscoredKey k, withUnderscores v) :: entriesWithUnderscores es
def itemsWithUnderscores : List Value → List Value
  | [] => []
  | x :: xs => withUnderscores x :: itemsWithUnderscores xs
end

end Value

end BotApi
