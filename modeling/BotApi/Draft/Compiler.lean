import BotApi.Draft.Assembly
/-!
Drafting the types of a catalog on demand. Each type is drafted once; a type met while it is being
drafted stands as its name. What is drafted stays, also when a later part of the work fails.
-/

namespace BotApi

open Draft (Scope Site Obstacle)

structure Compiler where
  spec : Spec
  drafts : List (String × Draft)
  names : Scope
  records : List (Nat × Draft.Record)
  assemblies : Draft.Assemblies
  pending : List Nat
  /-- Supertypes with members that were being drafted. -/
  deferred : List String
  params : List (String × Draft.Record)

/-- What is done stays done when the work fails. -/
abbrev Work (α : Type) := ExceptT Error (StateM Compiler) α

def Spec.typeEntry? (s : Spec) (id : String) : Option (ApiType × Nat) :=
  s.types.zipIdx.reverse.find? (·.1.id == id)

namespace Compiler

def new (spec : Spec) : Compiler := ⟨spec, [], [], [], [], [], [], []⟩

def draft? (c : Compiler) (id : String) : Option Draft := (c.drafts.find? (·.1 == id)).map (·.2)

def site (c : Compiler) : Site := ⟨c.records, c.names⟩

def put {α β : Type} [BEq α] (table : List (α × β)) (a : α) (b : β) : List (α × β) :=
  if table.any (·.1 == a) then table.map fun e => if e.1 == a then (a, b) else e
  else table ++ [(a, b)]

def store (c : Compiler) (t : ApiType) (d : Draft) : Compiler :=
  { c with drafts := put c.drafts t.id d, names := put c.names t.name d }

def putRecord (c : Compiler) (key : Nat) (r : Draft.Record) : Compiler :=
  let records := put c.records key r
  { c with
    records
    assemblies :=
      if r.complete then put c.assemblies key (Site.assemble ⟨records, c.names⟩ c.assemblies [key])
      else c.assemblies }

def defer (c : Compiler) (id : String) : Compiler :=
  if c.deferred.contains id then c else { c with deferred := c.deferred ++ [id] }

def deferredInOrder (c : Compiler) : List String := c.deferred.mergeSort (fun a b => a ≤ b)

end Compiler

namespace Work

variable {α : Type}

def fail (how : Misuse) : Work α := throw (.misuse how "")

def reference (name : String) : Work Draft :=
  if Draft.Name.isExpression name then pure (.named name) else fail .name

mutual
def annotation (self : String → Work Draft) : TypeExpr → Work Draft
  | .basic n => pure (.basic (.ofName n))
  | .ref id => self id
  | .array e => do pure (.array (← annotation self e))
  | .union es => do pure (Draft.unionOf (← annotations self es))
def annotations (self : String → Work Draft) : List TypeExpr → Work (List Draft)
  | [] => pure []
  | e :: es => do
      let d ← annotation self e
      pure (d :: (← annotations self es))
end

def draftField (p : Param) (d : Draft) : Draft.Field :=
  ⟨Catalog.attributeName p.name, p.name, d, p.required⟩

def field (self : String → Work Draft) (id : String) (p : Param) : Work Draft.Field := do
  if (← get).spec.tellsApart id p.name then
    pure (draftField p (.literal (p.value.getD "")))
  else
    pure (draftField p (← annotation self p.type))

def settle (scope : Scope) (f : Draft.Field) : Work Draft.Field :=
  match Site.resolveField scope f with
  | .ok f => pure f
  | .error (.undefined _) => pure f
  | .error o => throw o.error

def record (key : Nat) (name : String) (fields : List Draft.Field) : Work Draft.Record := do
  if fields.any fun f => f.name.startsWith "_" then fail .schema
  else
    let c ← get
    let r : Draft.Record := ⟨name, fields.foldl Draft.putField [], false⟩
    let fields ← r.fields.mapM (settle (c.site.scopeOf none r key))
    let r := { r with fields }
    match (c.putRecord key r).site.recordsFrom key with
    | .ok _ => pure { r with complete := true }
    | .error (.undefined _) => pure r
    | .error o => throw o.error

def fieldsRecord (self : String → Work Draft) (t : ApiType) (key : Nat) (fs : List Param) :
    Work Draft := do
  let fields ← fs.mapM (field self t.id)
  let r ← record key t.name fields
  modify fun c =>
    let c := c.putRecord key r
    if r.complete then c else { c with pending := c.pending ++ [key] }
  pure (.record key)

def supertype (self : String → Work Draft) (id : String) (members : List String) : Work Draft := do
  let ds ← members.mapM self
  if ds.any Draft.isNamed then modify (·.defer id)
  match ds with
  | [] => fail .kind
  | [d] => pure d
  | ds => pure (.choice id ((← get).spec.discriminant? id) (Draft.distinct ds))

def type (self : String → Work Draft) (t : ApiType) (key : Nat) : Work Draft :=
  if t.name = inputFileName then pure (.basic .file)
  else match t.shape with
    | .subtypes ids => supertype self t.id ids
    | .fields [] => pure (.basic .any)
    | .fields fs => fieldsRecord self t key fs

def obtain : Nat → List String → String → Work Draft
  | 0, _, _ => fail .runtime
  | n + 1, path, id => do
      let c ← get
      match c.draft? id with
      | some d => pure d
      | none => match c.spec.typeEntry? id with
          | none => throw (.compile (.unknownType id))
          | some (t, key) =>
              if path.contains id then reference t.name
              else
                let d ← type (obtain n (id :: path)) t key
                modify (·.store t d)
                pure d

def finish (key : Nat) : Work Unit := do
  let c ← get
  match c.site.record? key with
  | none => pure ()
  | some r =>
      if r.complete then pure ()
      else match c.site.fieldsOf none r key with
        | .error o => raise r.name o
        | .ok fields =>
            let r := { r with fields }
            set (c.putRecord key r)
            match (c.putRecord key r).site.recordsFrom key with
            | .error o => raise r.name o
            | .ok _ => modify (·.putRecord key { r with complete := true })
where
  raise (name : String) : Obstacle → Work Unit
    | .undefined fault => throw (.compile (.incomplete name fault))
    | o => throw o.error

def redraft (self : String → Work Draft) (id : String) : Work Unit := do
  match (← get).spec.typeEntry? id with
  | some (t, _) =>
      let d ← supertype self id (t.subtypes?.getD [])
      modify (·.store t d)
  | none => pure ()

def complete (self : String → Work Draft) : Work Unit := do
  (← get).deferredInOrder.forM (redraft self)
  modify fun c => { c with deferred := [] }
  let pending := (← get).pending
  modify fun c => { c with pending := [] }
  pending.forM finish

def depth : Work Nat := do pure ((← get).spec.types.length + 1)

def settled : Nat → String → Work Draft
  | 0, id => do obtain (← depth) [] id
  | n + 1, id => do
      match (← get).draft? id with
      | some d => pure d
      | none =>
          let d ← obtain (← depth) [] id
          complete (settled n)
          pure (((← get).draft? id).getD d)

def draft (id : String) : Work Draft := do settled (← depth) id

def expression (e : TypeExpr) : Work Draft := annotation draft e

end Work

end BotApi
