import BotApi.Draft.Compiler
import BotApi.Schema.Validate
import BotApi.Text.Case
/-!
Checking values against the types of a catalog, and the parameters of a call against its method.
Checked parameters keep their wire names; files to upload stay as they are and come last.
-/

namespace BotApi

namespace Value

mutual
def plainData : Value → Value
  | record _ fs => dict (plainFields fs)
  | limits fs => dict (plainFields fs)
  | list xs => list (plainItems xs)
  | tuple xs => tuple (plainItems xs)
  | dict es => dict (plainEntries es)
  | stream _ _ => spent
  | v => v
def plainItems : List Value → List Value
  | [] => []
  | x :: xs => plainData x :: plainItems xs
def plainEntries : List (Value × Value) → List (Value × Value)
  | [] => []
  | (k, v) :: es => (k, plainData v) :: plainEntries es
def plainFields : List (String × Value) → List (Value × Value)
  | [] => []
  | (k, v) :: fs => (str k, plainData v) :: plainFields fs
end

def wireParams : Value → Entries
  | record _ fs =>
      let (files, rest) := fs.partition fun f => Schema.isFile f.2
      (rest.map fun (k, v) => (str k, v.plainData)) ++ files.map fun (k, v) => (str k, v)
  | _ => []

end Value

def Draft.checkBuilt (n : Schema.Naming) (built : Except Obstacle (Schema.Records × Schema)) (v : Value) :
    Except Error Value :=
  match built with
  | .error o => .error o.error
  | .ok (rs, s) => (Schema.checkNamed n rs .values s v).mapError .invalid

namespace Compiler

def naming (c : Compiler) (d : Draft) : Schema.Naming :=
  ⟨(c.site.assemble c.assemblies d.keys).unnamed, c.assemblies.map fun (k, a) => (k, a.unnamed)⟩

def check (c : Compiler) (d : Draft) (v : Value) : Except Error Value :=
  Draft.checkBuilt (c.naming d) (c.site.build d) v

end Compiler

namespace Work

def check (d : Draft) (v : Value) : Work Value := do MonadExcept.ofExcept ((← get).check d v)

def validate (id : String) (v : Value) : Work Value := do check (← draft id) v

def validateExpr (e : TypeExpr) (v : Value) : Work Value := do check (← expression e) v

def paramsName (m : Method) : String := Text.onChars Text.capitalize m.name ++ "Params"

/-- No documented type has this key. -/
def paramsKey : Work Nat := do pure (← get).spec.types.length

def paramsRecord (m : Method) : Work Draft.Record := do
  match (← get).params.find? (·.1 == m.id) with
  | some (_, r) => pure r
  | none =>
      let fields ← m.params.mapM fun p => do pure (draftField p (← annotation draft p.type))
      let r ← record (← paramsKey) (paramsName m) fields
      modify fun c => { c with params := c.params ++ [(m.id, r)] }
      pure r

def validateParams (m : Method) (params : Value) : Work Entries := do
  let r ← paramsRecord m
  let key ← paramsKey
  let v ← MonadExcept.ofExcept (((← get).putRecord key r).check (.record key)
    (if params.truthy then params else .dict []))
  pure v.wireParams

def everything : Work Unit := do
  (← get).spec.types.forM fun t => do let _ ← draft t.id
  (← get).spec.methods.forM fun m => do let _ ← paramsRecord m

end Work

end BotApi
