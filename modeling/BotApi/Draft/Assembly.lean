import BotApi.Draft.Build
import BotApi.Schema.Finding
/-!
How the schema of a record is put together from those of the records it leads to. A record that is met once has
its schema where it is met; those that are met again are shared, and their schemas are made beforehand, one
after the other. A union is named with the record it is in, when the records that are shared later have no name
yet. A record that is complete has been made before, and keeps the names it was made with.
-/

namespace BotApi.Draft

structure Body where
  refs : List Nat
  within : List Nat

structure Assembly where
  bodies : List (Nat × Body)
  unnamed : Schema.Unnamed

abbrev Bodies := List (Nat × Body)

namespace Bodies

def get (bs : Bodies) (key : Nat) : Body := ((bs.find? (·.1 == key)).map (·.2)).getD ⟨[], []⟩

/-- The records met on the way into one, in order, and whether they are met again; at most `n` records deep. -/
def meet (bs : Bodies) : Nat → List (Nat × Bool) → Nat → List (Nat × Bool)
  | 0, met, _ => met
  | n + 1, met, key =>
      if met.any (·.1 == key) then met.map fun (k, again) => (k, again || k == key)
      else (bs.get key).refs.foldl (meet bs n) (met ++ [(key, false)])

def inlined (bs : Bodies) (shared : List Nat) : Nat → Body → Body
  | 0, b => b
  | n + 1, b => b.refs.foldl (fun whole key =>
      if shared.contains key then { whole with refs := whole.refs ++ [key] }
      else
        let part := inlined bs shared n (bs.get key)
        ⟨whole.refs ++ part.refs, whole.within ++ key :: part.within⟩) ⟨[], b.within⟩

end Bodies

abbrev Assemblies := List (Nat × Assembly)

def Assemblies.get? (made : Assemblies) (key : Nat) : Option Assembly :=
  (made.find? (·.1 == key)).map (·.2)

namespace Site

def bodies (site : Site) (made : Assemblies) : Nat → Option Origin → List Nat → Bodies → Nat → Bodies
  | 0, _, _, bs, _ => bs
  | n + 1, origin, above, bs, key =>
      if above.contains key || bs.any (·.1 == key) then bs
      else match made.get? key, site.record? key with
        | some a, _ => a.bodies ++ bs
        | none, none => bs
        | none, some r =>
            let refs := match site.fieldsOf origin r key with
              | .ok fs => fs.flatMap (·.draft.keys)
              | .error _ => []
            let origin := origin.getD ⟨r.name, key⟩
            (key, ⟨refs, []⟩) :: refs.foldl (bodies site made n (some origin) (key :: above)) bs

def assemble (site : Site) (made : Assemblies) (refs : List Nat) : Assembly :=
  let bs := refs.foldl (site.bodies made site.depth none []) []
  let met := refs.foldl (bs.meet site.depth) []
  let shared := (met.filter (·.2)).map (·.1)
  let body (key : Nat) := bs.inlined shared site.depth (bs.get key)
  let whole := bs.inlined shared site.depth ⟨refs, []⟩
  let unnamed (keys later : List Nat) : Schema.Unnamed :=
    (keys.filter fun k => (made.get? k).isNone).map (·, later)
  ⟨(shared ++ refs.filter fun k => !shared.contains k).map fun k => (k, body k),
    unnamed whole.within [] ++
      shared.zipIdx.flatMap fun (k, i) => unnamed (k :: (body k).within) (shared.drop i)⟩

end Site

end BotApi.Draft
