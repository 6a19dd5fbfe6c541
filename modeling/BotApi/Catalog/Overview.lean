import BotApi.Catalog.Lookup
import BotApi.Json.Writer
import BotApi.Page.Element
/-!
Overviews of a catalog: its methods, or the parameters of one of them, in plain text.
-/

namespace BotApi

def plainText (html : String) : Except Error String :=
  (Html.read html).map fun ns => Text.onChars Text.flatten (.ofList (Html.Node.contentsList ns).flatten)

structure MethodOverview where
  name : String
  description : String
  deriving Repr, DecidableEq

structure ParamOverview where
  name : String
  type : String
  required : Bool
  description : String
  deriving Repr, DecidableEq

open Json (Doc)

def MethodOverview.toDoc (o : MethodOverview) : Doc :=
  .record [("name", .str o.name), ("description", .str o.description)]

def ParamOverview.toDoc (o : ParamOverview) : Doc :=
  .record [("name", .str o.name), ("type", .str o.type), ("required", .bool o.required),
    ("description", .str o.description)]

namespace Spec

def methodOverviews (s : Spec) : Except Error (List MethodOverview) :=
  s.methods.mapM fun m => (plainText m.description).map (⟨m.name, ·⟩)

def describe (s : Spec) (e : TypeExpr) : String := e.describe s.typeName?

def paramOverviews (s : Spec) (method : String) : Except Error (List ParamOverview) :=
  (s.find method).bind fun m => m.params.mapM fun p =>
    (plainText p.description).map (⟨p.name, s.describe p.type, p.required, ·⟩)

def explore (s : Spec) : Option String → Except Error (List Doc)
  | none => s.methodOverviews.map fun os => os.map MethodOverview.toDoc
  | some method => (s.paramOverviews method).map fun os => os.map ParamOverview.toDoc

end Spec

end BotApi
