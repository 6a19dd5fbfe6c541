import BotApi.Catalog.Basic
import BotApi.Html.Render
import BotApi.Page.TypeCell
import BotApi.Text.Letter
/-!
Tables of fields or parameters, and lists of subtypes.
-/

namespace BotApi.Page

open Html (Node)

inductive Column where
  | field
  | parameter
  | type
  | required
  | description
  deriving Repr, DecidableEq

namespace Column

def ofTitle? (title : List Char) : Option Column :=
  if title = "Field".toList then some field
  else if title = "Parameter".toList then some parameter
  else if title = "Type".toList then some type
  else if title = "Required".toList then some required
  else if title = "Description".toList then some description
  else none

def holdsName : Column → Bool
  | field | parameter => true
  | _ => false

end Column

abbrev Row := List (Column × Node)

/-- Of several cells that a column could mean the last counts. -/
def Row.cell? (r : Row) (p : Column → Bool) : Option Node :=
  (r.reverse.find? fun c => p c.1).map (·.2)

def titles (table : Node) : List (List Char) :=
  (table.select ["thead", "tr"] "th").map Node.trimmedText

def columns (table : Node) : Except CompileFault (List Column) :=
  let ts := titles table
  if ts.isEmpty then .error .noHeader
  else
    let unknown := ts.filter fun t => (Column.ofTitle? t).isNone
    if unknown.isEmpty then .ok (ts.filterMap Column.ofTitle?)
    else .error (.unknownColumns (unknown.map String.ofList))

def row (columns : List Column) (tr : Node) : Except CompileFault Row :=
  let cells := tr.children.filter (Node.isElement ["td"])
  if cells.length = columns.length then .ok (columns.zip cells)
  else .error (.rowWidth cells.length columns.length
    (.ofList (Text.join [' '] tr.trimmedContents)))

def rows (columns : List Column) (table : Node) : Except CompileFault (List Row) :=
  (table.select ["tbody"] "tr").mapM (row columns)

def saysOptional (description : List Char) : Bool :=
  match Text.words description with
  | [] => false
  | w :: _ => Text.trim (fun c => c == '.' || c == ',') w == "Optional".toList

def isQuote (left : Bool) (c : Char) : Bool :=
  c == '"' || c == (if left then Char.ofNat 0x201C else Char.ofNat 0x201D)

def dropOne (p : Char → Bool) : List Char → List Char
  | c :: s => if p c then s else c :: s
  | [] => []

def lastWord? (s : List Char) : Option String :=
  let s' := dropOne (isQuote true) (s.dropWhile Text.isBlank)
  let word := s'.takeWhile Text.isWordChar
  let rest := dropOne (· == '.') (dropOne (isQuote false) (s'.dropWhile Text.isWordChar))
  if s.head?.any Text.isBlank && !word.isEmpty && rest.all Text.isBlank then some (.ofList word)
  else none

def constantWord? : List Char → Option String
  | [] => none
  | c :: s =>
      let after := (Text.dropStart? "always".toList (c :: s)).or
        (Text.dropStart? "must be".toList (c :: s))
      (after.bind lastWord?).or (constantWord? s)

def constant? (type : TypeExpr) (description : List Char) : Option String :=
  if type = .basic "String" then constantWord? description else none

def paramOf (r : Row) (required : Bool) : Except CompileFault Param :=
  match r.cell? Column.holdsName, r.cell? (· == .type) with
  | some name, some type =>
      let cell := r.cell? (· == .description)
      let text := (cell.map Node.textContent).getD []
      (typeCell type).map fun e => {
        name := .ofList name.trimmedText
        type := e
        required
        description := .ofList ((cell.map Node.inner).getD [])
        value := constant? e text
        jsonSerialized := Text.contains "JSON-serialized".toList text }
  | _, _ => .error .noNameOrType

def isRequiredField (r : Row) : Bool :=
  !saysOptional (((r.cell? (· == .description)).map Node.textContent).getD [])

def isRequiredParameter (r : Row) : Bool :=
  (r.cell? (· == .required)).any fun c => c.trimmedText == "Yes".toList

inductive Listing where
  | fields (fs : List Param)
  | params (ps : List Param)
  deriving Repr

def listing (table : Node) : Except CompileFault Listing := do
  let cs ← columns table
  let rs ← rows cs table
  match cs.head? with
  | some .field => .fields <$> rs.mapM fun r => paramOf r (isRequiredField r)
  | some .parameter => .params <$> rs.mapM fun r => paramOf r (isRequiredParameter r)
  | _ => .error (.firstColumn (.ofList ((titles table).headD [])))

def subtypes (list : Node) : Except CompileFault (List String) :=
  match TypeExpr.distinct ((list.select ["li"] "a").filterMap Node.anchorId?) with
  | [] => .error .noSubtypes
  | ids => .ok ids

end BotApi.Page
