import BotApi.Draft.Scope
/-!
Building schemas from drafts, with a table of all records they lead to. A record that is not
complete has its names looked up while it is built: first its own, then that of the record the
building started from, then those of the drafted types.
-/

namespace BotApi.Draft

open Schema (Records)

structure Site where
  records : List (Nat × Record)
  names : Scope

structure Origin where
  name : String
  key : Nat

structure Progress where
  visited : List Nat
  built : Records

namespace Site

def record? (site : Site) (key : Nat) : Option Record := (site.records.find? (·.1 == key)).map (·.2)

def scopeOf (site : Site) (origin : Option Origin) (r : Record) (key : Nat) : Scope :=
  (r.name, record key) :: (origin.toList.map fun o => (o.name, record o.key)) ++ site.names

def resolveField (scope : Scope) (f : Field) : Except Obstacle Field :=
  (scope.resolve f.draft).map fun d => { f with draft := d }

def fieldsOf (site : Site) (origin : Option Origin) (r : Record) (key : Nat) :
    Except Obstacle (List Field) :=
  if r.complete then .ok r.fields else r.fields.mapM (resolveField (site.scopeOf origin r key))

def tagText? (site : Site) (field : String) (d : Draft) : Option String :=
  match d with
  | record k => match (site.record? k).bind (·.field? (Catalog.attributeName field)) with
      | some f => match f.draft with
          | literal t => some t
          | _ => none
      | none => none
  | _ => none

def readers (field : String) : List String :=
  let a := Catalog.attributeName field
  if a = field then [field] else [a, field]

/-- A supertype of several subtypes leaves no choice if they are all the same, or if two members bear one
text. -/
def choiceOf (site : Site) (field : Option String) (members : List Draft) (ss : List Schema) :
    Except Obstacle Schema :=
  if members.length = 1 then .error (.misuse .runtime)
  else match field with
    | none => .ok (.firstOf ss)
    | some f => match members.mapM (site.tagText? f) with
        | some ts => if ts.Nodup then .ok (.tagged (readers f) (ts.zip ss)) else .error (.misuse .kind)
        | none => .error (.misuse .kind)

mutual
def schemaOf (site : Site) : Draft → Except Obstacle Schema
  | basic b => .ok b.schema
  | literal t => .ok (.onlyText [t])
  | named n => .error (.undefined (.unknown n))
  | record k => .ok (.record k)
  | array d => (schemaOf site d).map .array
  | union ds => (schemasOf site ds).map .union
  | choice _ f ds => (schemasOf site ds).bind (choiceOf site f ds)
def schemasOf (site : Site) : List Draft → Except Obstacle (List Schema)
  | [] => .ok []
  | d :: ds => (schemaOf site d).bind fun s => (schemasOf site ds).map (s :: ·)
end

def fieldSchema (f : Field) (s : Schema) : Schema.Field :=
  ⟨f.name, f.wire, if f.required then s else .optional s, f.required, none⟩

def schemaWithin (site : Site) (scope : Scope) (d : Draft) : Except Obstacle Schema :=
  match site.schemaOf d with
  | .error (.undefined (.unknown n)) => .error (scope.remains n)
  | r => r

def buildField (site : Site) (scope : Scope) (visit : Progress → Nat → Except Obstacle Progress)
    (acc : Progress × List Schema.Field) (f : Field) :
    Except Obstacle (Progress × List Schema.Field) :=
  (f.draft.keys.foldlM visit acc.1).bind fun p =>
    (site.schemaWithin scope f.draft).map fun s => (p, acc.2 ++ [fieldSchema f s])

def visit (site : Site) : Nat → Option Origin → Progress → Nat → Except Obstacle Progress
  | 0, _, p, _ => .ok p
  | n + 1, origin, p, key =>
      if p.visited.contains key then .ok p
      else match site.record? key with
        | none => .ok p
        | some r =>
            (site.fieldsOf origin r key).bind fun fs =>
              let start := (⟨key :: p.visited, p.built⟩, [])
              let scope := site.scopeOf origin r key
              let origin := origin.getD ⟨r.name, key⟩
              (fs.foldlM (site.buildField scope (site.visit n (some origin))) start).map fun (p, fs) =>
                { p with built := p.built ++ [(key, ⟨r.name, fs, true, .none⟩)] }

def depth (site : Site) : Nat := site.records.length + 1

def recordsFrom (site : Site) (key : Nat) : Except Obstacle Records :=
  (site.visit site.depth none ⟨[], []⟩ key).map (·.built)

def build (site : Site) (d : Draft) : Except Obstacle (Records × Schema) :=
  (d.keys.foldlM (site.visit site.depth none) ⟨[], []⟩).bind fun p =>
    (site.schemaOf d).map fun s => (p.built, s)

end Site

end BotApi.Draft
