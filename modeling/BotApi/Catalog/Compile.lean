import BotApi.Catalog.Basic
import BotApi.Error
/-!
Compiling elements into a catalog: the methods, and every type that their parameters lead to, each
once and in the order of discovery. A type is discovered before the types it refers to.
-/

namespace BotApi

namespace Element

def toType (e : Element) : ApiType where
  id := e.id
  name := e.name
  description := e.description
  shape := match e.subtypes with
    | some ss => .subtypes ss
    | none => .fields (e.fields.getD [])

def paramList (e : Element) : List Param := e.params.getD []

end Element

structure Reference where
  id : String
  referrer : String
  deriving Repr, DecidableEq

def Param.references (p : Param) (referrer : String) : List Reference :=
  p.type.refs.map fun i => ⟨i, referrer⟩

def ApiType.referencesFrom (t : ApiType) : List Reference := t.references.map fun i => ⟨i, t.name⟩

namespace Compile

/-- The element that a type identifier stands for: the last one wins. -/
def typeElement? (elements : List Element) (id : String) : Option Element :=
  elements.reverse.find? fun e => e.kind == .type && e.id == id

def isUsed (used : List ApiType) (id : String) : Bool := used.any (·.id == id)

def unused (elements : List Element) (used : List ApiType) : List Element :=
  elements.filter fun e => !isUsed used e.id

theorem typeElement?_some {elements : List Element} {id : String} {e : Element}
    (h : typeElement? elements id = some e) : e ∈ elements ∧ e.kind = .type ∧ e.id = id := by
  refine ⟨by simpa using List.mem_of_find?_eq_some h, ?_⟩
  simpa using List.find?_some h

theorem isUsed_append (used : List ApiType) (t : ApiType) (id : String) :
    isUsed (used ++ [t]) id = (isUsed used id || t.id == id) := by
  simp [isUsed]

theorem length_filter_lt {α : Type} {p q : α → Bool} {xs : List α} {a : α}
    (imp : ∀ x, q x = true → p x = true) (mem : a ∈ xs) (yes : p a = true) (no : q a = false) :
    (xs.filter q).length < (xs.filter p).length := by
  have le : ∀ ys : List α, (ys.filter q).length ≤ (ys.filter p).length := by
    intro ys
    simpa only [List.countP_eq_length_filter] using List.countP_mono_left fun x _ => imp x
  induction xs with
  | nil => cases mem
  | cons x xs ih =>
      simp only [List.filter_cons]
      have step := le xs
      rcases List.mem_cons.1 mem with rfl | mem
      · simp [yes, no]
        omega
      · have shorter := ih mem
        cases hq : q x with
        | true => simpa [imp x hq] using shorter
        | false => cases hp : p x <;> simp <;> omega

theorem unused_lt {elements : List Element} {used : List ApiType} {id : String} {e : Element}
    (found : typeElement? elements id = some e) (new : isUsed used id = false) :
    (unused elements (used ++ [e.toType])).length < (unused elements used).length := by
  have ⟨mem, _, same⟩ := typeElement?_some found
  refine length_filter_lt (a := e) ?_ mem ?_ ?_
  · intro x h
    simp only [isUsed_append, Bool.not_or, Bool.and_eq_true] at h
    exact h.1
  · simp [same, new]
  · simp [isUsed_append, Element.toType]

/-- Follows references depth first; `used` holds the types discovered so far. -/
def discover (elements : List Element) (used : List ApiType) :
    List Reference → Except CompileFault (List ApiType)
  | [] => .ok used
  | r :: rest =>
      match _new : isUsed used r.id with
      | true => discover elements used rest
      | false => match _found : typeElement? elements r.id with
          | none => .error (.unresolved r.id r.referrer)
          | some e => discover elements (used ++ [e.toType]) (e.toType.referencesFrom ++ rest)
termination_by refs => ((unused elements used).length, refs.length)
decreasing_by
  · exact Prod.Lex.right _ (by simp)
  · exact Prod.Lex.left _ _ (unused_lt _found _new)

def uploads (used : List ApiType) (e : TypeExpr) : Bool :=
  e.leaves.any fun
    | .ref i => used.any fun t => t.id == i && t.name == inputFileName
    | .basic n => n == inputFileName
    | _ => false

def methodElements (elements : List Element) : List Element := elements.filter (·.kind == .method)

def seeds (elements : List Element) : List Reference :=
  (methodElements elements).flatMap fun e => e.paramList.flatMap (·.references e.name)

def toMethod (used : List ApiType) (e : Element) : Method where
  id := e.id
  name := e.name
  description := e.description
  params := e.paramList
  uploadsFile := e.paramList.any fun p => uploads used p.type
  jsonSerializedParams := (e.paramList.filter (·.jsonSerialized)).map (·.name)

end Compile

def Spec.ofElements (elements : List Element) : Except CompileFault Spec :=
  (Compile.discover elements [] (Compile.seeds elements)).map fun used =>
    ⟨(Compile.methodElements elements).map (Compile.toMethod used), used⟩

namespace Spec

def references (s : Spec) : List Reference :=
  s.types.flatMap ApiType.referencesFrom ++
    s.methods.flatMap fun m => m.params.flatMap (·.references m.name)

def checkReferences (s : Spec) : Except CompileFault Unit :=
  match s.references.find? fun r => (s.type? r.id).isNone with
  | some r => .error (.unresolved r.id r.referrer)
  | none => .ok ()

end Spec

end BotApi
