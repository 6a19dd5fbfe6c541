import BotApi.Error
/-!
Stages. Work goes through stages, each of which may change a state. A stage hands a value to the next
one, or ends the work with an error that is kept as its result. An error that a stage does not keep is
fatal: it ends the work without a result.
-/

namespace BotApi

abbrev Kept (α : Type) := Except Error α

abbrev Stage (σ α β : Type) := α → σ → Except Error (Kept β) × σ

namespace Stage

variable {σ α β γ : Type}

def attempt (keeps : Error → Bool) (r : Except Error α) : Except Error (Kept α) :=
  match r with
  | .ok a => .ok (.ok a)
  | .error e => if keeps e then .ok (.error e) else .error e

def followedBy (f : Stage σ α β) (g : Stage σ β γ) : Stage σ α γ := fun a s =>
  match f a s with
  | (.ok (.ok b), s) => g b s
  | (.ok (.error e), s) => (.ok (.error e), s)
  | (.error e, s) => (.error e, s)

def run : List (Stage σ α α) → Stage σ α α
  | [] => fun a s => (.ok (.ok a), s)
  | f :: fs => followedBy f (run fs)

end Stage

end BotApi
