import BotApi.Proofs.Catalog.Guarded
/-!
Compiling a page with every look-up failing on its own, those of the catalog too: a type that is both a
record and a supertype, or neither, and a used type that is not there. None of them fails, so that compiling
a page ends with a catalog or with a fault that it reports.
-/

namespace BotApi

namespace Guarded

open Html (Node)
open TypeExpr

def typeWith (id name description : String) : Option (List Param) → Option (List String) → Except Stop ApiType
  | some fs, none => .ok ⟨id, name, description, .fields fs⟩
  | none, some ids => .ok ⟨id, name, description, .subtypes ids⟩
  | _, _ => .error .form

def toType (e : Element) : Except Stop ApiType :=
  match e.subtypes with
  | some ids => typeWith e.id e.name e.description none (some ids)
  | none => typeWith e.id e.name e.description (some (e.fields.getD [])) none

theorem toType_eq (e : Element) : toType e = .ok e.toType := by
  unfold toType Element.toType
  cases e.subtypes <;> rfl

open Compile

def discover (elements : List Element) (used : List ApiType) : List Reference → Except Stop (List ApiType)
  | [] => .ok used
  | r :: rest =>
      match _new : isUsed used r.id with
      | true => discover elements used rest
      | false => match _found : typeElement? elements r.id with
          | none => .error (.fault (.unresolved r.id r.referrer))
          | some e => match _made : toType e with
              | .error stop => .error stop
              | .ok t => discover elements (used ++ [t]) (t.referencesFrom ++ rest)
termination_by refs => ((unused elements used).length, refs.length)
decreasing_by
  · exact Prod.Lex.right _ (by simp)
  · obtain rfl := Except.ok.inj (_made.symm.trans (toType_eq e))
    exact Prod.Lex.left _ _ (unused_lt _found _new)

theorem discover_eq (elements : List Element) (used : List ApiType) (refs : List Reference) :
    discover elements used refs = reported (Compile.discover elements used refs) := by
  induction used, refs using Compile.discover.induct elements with
  | case1 used =>
      rw [discover, discover_nil]
      rfl
  | case2 used r rest hu ih =>
      rw [discover, discover_used hu]
      split
      · exact ih
      · simp_all
  | case3 used r rest hu hf =>
      rw [discover, discover_missing hu hf]
      split
      · simp_all
      · split
        · rfl
        · simp_all
  | case4 used r rest hu e hf ih =>
      rw [discover, discover_new hu hf, ← ih]
      split
      · simp_all
      · split
        · simp_all
        next e' he' =>
          obtain rfl := Option.some.inj (hf.symm.trans he')
          split
          next stop hmade => cases hmade.symm.trans (toType_eq e)
          next t hmade =>
            obtain rfl := Except.ok.inj (hmade.symm.trans (toType_eq e))
            rfl

def uploads (used : List ApiType) : List TypeExpr → Except Stop Bool
  | [] => .ok false
  | .ref i :: es => (getOr .key (used.find? (·.id == i))).bind fun t =>
      if t.name == inputFileName then .ok true else uploads used es
  | .basic n :: es => if n == inputFileName then .ok true else uploads used es
  | .array _ :: _ | .union _ :: _ => .error .member

def uploadsAny (used : List ApiType) : List Param → Except Stop Bool
  | [] => .ok false
  | p :: ps => (uploads used p.type.leaves).bind fun found => if found then .ok true else uploadsAny used ps

def toMethod (used : List ApiType) (e : Element) : Except Stop Method :=
  (uploadsAny used e.paramList).map fun found => {
    id := e.id
    name := e.name
    description := e.description
    params := e.paramList
    uploadsFile := found
    jsonSerializedParams := (e.paramList.filter (·.jsonSerialized)).map (·.name) }

def methods (elements : List Element) : List Element → List ApiType → Except Stop (List Method × List ApiType)
  | [], used => .ok ([], used)
  | m :: ms, used => (discover elements used (seedsOf [m])).bind fun used => (toMethod used m).bind fun method =>
      (methods elements ms used).map fun (rest, used) => (method :: rest, used)

def ofElements (elements : List Element) : Except Stop Spec :=
  (methods elements (methodElements elements) []).map fun (ms, types) => ⟨ms, types⟩

def compile (page : List Node) : Except Stop Spec := (elements page).bind ofElements

mutual
theorem leaf_cases : ∀ e : TypeExpr, ∀ l ∈ e.leaves, (∃ n, l = .basic n) ∨ ∃ i, l = .ref i
  | .basic n, l, h => .inl ⟨n, by simpa [leaves] using h⟩
  | .ref i, l, h => .inr ⟨i, by simpa [leaves] using h⟩
  | .array e, l, h => leaf_cases e l (by simpa [leaves] using h)
  | .union es, l, h => leafList_cases es l (by simpa [leaves] using h)
theorem leafList_cases : ∀ es : List TypeExpr, ∀ l ∈ leavesList es, (∃ n, l = .basic n) ∨ ∃ i, l = .ref i
  | [], l, h => by simp [leavesList] at h
  | e :: es, l, h => by
      rcases List.mem_append.1 (by simpa [leavesList] using h) with h | h
      · exact leaf_cases e l h
      · exact leafList_cases es l h
end

theorem named_eq {used : List ApiType} {i : String} {t : ApiType} (hn : (used.map (·.id)).Nodup)
    (h : used.find? (·.id == i) = some t) (name : String) :
    (used.any fun t => t.id == i && t.name == name) = (t.name == name) := by
  have hmem := List.mem_of_find?_eq_some h
  have hid : t.id = i := by simpa using List.find?_some h
  rw [Bool.eq_iff_iff, List.any_eq_true]
  constructor
  · rintro ⟨u, hu, hnamed⟩
    obtain ⟨huid, hname⟩ := Bool.and_eq_true_iff.1 hnamed
    rwa [List.inj_on_of_nodup_map hn hmem hu (hid.trans (eq_of_beq huid).symm)]
  · intro hname
    exact ⟨t, hmem, by rw [hname, hid, beq_self_eq_true]; rfl⟩

theorem uploads_eq {used : List ApiType} (hn : (used.map (·.id)).Nodup) {e : TypeExpr}
    (hu : ∀ i, .ref i ∈ e.leaves → isUsed used i = true) : uploads used e.leaves = .ok (Compile.uploads used e) := by
  have hcases := leaf_cases e
  unfold Compile.uploads
  generalize e.leaves = ls at hu hcases
  induction ls with
  | nil => rfl
  | cons l ls ih =>
      rw [List.forall_mem_cons] at hcases
      have hrest := ih (fun i hi => hu i (List.mem_cons_of_mem _ hi)) hcases.2
      rcases hcases.1 with ⟨n, rfl⟩ | ⟨i, rfl⟩
      · rw [uploads, List.any_cons, hrest]
        dsimp only
        cases n == inputFileName <;> rfl
      · have hused := hu i List.mem_cons_self
        obtain ⟨t, ht⟩ := Option.isSome_iff_exists.1 (List.find?_isSome.2 (List.any_eq_true.1 hused))
        rw [uploads, List.any_cons, hrest, ht]
        dsimp only
        rw [named_eq hn ht]
        change (if t.name == inputFileName then _ else _) = _
        cases t.name == inputFileName <;> rfl

theorem toMethod_eq {used : List ApiType} (hn : (used.map (·.id)).Nodup) {m : Element}
    (hu : ∀ p ∈ m.paramList, ∀ i, .ref i ∈ p.type.leaves → isUsed used i = true) :
    toMethod used m = .ok (Compile.toMethod used m) := by
  have hany : uploadsAny used m.paramList = .ok (m.paramList.any fun p => Compile.uploads used p.type) := by
    generalize m.paramList = ps at hu
    induction ps with
    | nil => rfl
    | cons p ps ih =>
        rw [List.forall_mem_cons] at hu
        rw [uploadsAny, uploads_eq hn hu.1, ih hu.2, List.any_cons]
        change (if Compile.uploads used p.type = true then _ else _) = _
        cases Compile.uploads used p.type <;> rfl
  rw [toMethod, hany]
  rfl

theorem methods_eq {elements ms : List Element} {used : List ApiType} (hn : (used.map (·.id)).Nodup) :
    methods elements ms used = reported ((Compile.discover elements used (seedsOf ms)).map fun types =>
      (ms.map (Compile.toMethod types), types)) := by
  induction ms generalizing used with
  | nil =>
      rw [methods, seedsOf, List.flatMap_nil, discover_nil]
      rfl
  | cons m ms ih =>
      have hseeds : seedsOf (m :: ms) = seedsOf [m] ++ seedsOf ms := by simp [seedsOf]
      rw [methods, discover_eq, hseeds, discover_append]
      cases hfirst : Compile.discover elements used (seedsOf [m]) with
      | error f => rfl
      | ok used₁ =>
          have hn₁ : (used₁.map (·.id)).Nodup := (depthFirst_of_discover hfirst).nodup hn
          have hused : ∀ p ∈ m.paramList, ∀ i, .ref i ∈ p.type.leaves → isUsed used₁ i = true := by
            intro p hp i hi
            refine isUsed_iff.2 ((depthFirst_of_discover hfirst).visited i ?_)
            rw [map_id_seedsOf]
            simpa using ⟨p, hp, mem_refs_iff.2 hi⟩
          change ((toMethod used₁ m).bind fun method =>
            (methods elements ms used₁).map fun (rest, used) => (method :: rest, used)) =
              reported ((Compile.discover elements used₁ (seedsOf ms)).map _)
          rw [toMethod_eq hn₁ hused, ih hn₁]
          cases hrest : Compile.discover elements used₁ (seedsOf ms) with
          | error f => rfl
          | ok types =>
              have hsame := toMethod_eq_of_extends (extends_of_discover hrest)
                ((depthFirst_of_discover hrest).nodup hn₁) hused
              rw [hsame]
              rfl

theorem ofElements_eq (elements : List Element) : ofElements elements = reported (Spec.ofElements elements) := by
  have hnil : (([] : List ApiType).map (·.id)).Nodup := List.nodup_nil
  rw [ofElements, methods_eq hnil, Spec.ofElements]
  change _ = reported ((Compile.discover elements [] (seedsOf (methodElements elements))).map _)
  cases Compile.discover elements [] (seedsOf (methodElements elements)) <;> rfl

theorem compile_eq (page : List Node) : compile page = reported (Page.compile page).2 := by
  rw [compile, elements_eq]
  change _ = reported ((Page.elements page).2.bind Spec.ofElements)
  rw [reported_bind]
  congr 1
  funext es
  exact ofElements_eq es

end Guarded

theorem compiles_whole_or_fails (page : List Html.Node) : match Guarded.compile page with
    | .ok s => (Page.compile page).2 = .ok s ∧ s.checkReferences = .ok ()
    | .error (.fault f) => (Page.compile page).2 = .error f
    | .error _ => False := by
  rw [Guarded.compile_eq]
  cases hcompile : (Page.compile page).2 with
  | error f => rfl
  | ok s =>
      obtain ⟨es, hes, hs⟩ := ok_of_bind (show (Page.elements page).2.bind Spec.ofElements = .ok s from hcompile)
      exact ⟨rfl, (Spec.proper_ofElements (Page.proper_elements hes) hs).2⟩

end BotApi
