/-!
What is noted while work goes on.
-/

namespace BotApi

structure LogEntry where
  level : Int
  message : String
  deriving Repr, DecidableEq

namespace LogEntry

def info (message : String) : LogEntry := ⟨20, message⟩

def warning (message : String) : LogEntry := ⟨30, message⟩

end LogEntry

abbrev Noted (ε α : Type) := List LogEntry × Except ε α

def Noted.followedBy {ε α β : Type} (n : Noted ε α) (f : α → Noted ε β) : Noted ε β :=
  match n.2 with
  | .error e => (n.1, .error e)
  | .ok a => (n.1 ++ (f a).1, (f a).2)

end BotApi
