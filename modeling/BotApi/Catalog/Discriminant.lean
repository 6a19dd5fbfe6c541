import BotApi.Catalog.Basic
/-!
Discriminants. A supertype has one if its subtypes can be told apart by a text that each of them
always carries in the same field.
-/

namespace BotApi

structure Discriminant where
  supertype : String
  subtypes : List String
  field : String
  deriving Repr, DecidableEq

namespace Spec

def literals? (types : List ApiType) (first : Param) : Option (List String) :=
  types.mapM fun t => (t.field? first.name).bind fun f =>
    if f.required && f.type == first.type then f.value else none

/-- The candidate is the first field of the first subtype. No two subtypes may share its text. -/
def discriminantOf (s : Spec) (t : ApiType) : Option String := do
  let ids ← t.subtypes?
  guard (2 ≤ ids.length)
  let types ← ids.mapM s.type?
  guard (types.all fun u => !u.isSupertype && !u.fields.isEmpty)
  let first ← types.head?.bind (·.fields.head?)
  let values ← literals? types first
  guard (values.Nodup)
  pure first.name

def discriminants (s : Spec) : List Discriminant :=
  s.types.filterMap fun t => (s.discriminantOf t).map fun f => ⟨t.id, t.subtypes?.getD [], f⟩

def discriminant? (s : Spec) (id : String) : Option String :=
  (s.discriminants.reverse.find? (·.supertype == id)).map (·.field)

def tellsApart (s : Spec) (id field : String) : Bool :=
  s.discriminants.any fun d => d.field == field && d.subtypes.contains id

end Spec

end BotApi
