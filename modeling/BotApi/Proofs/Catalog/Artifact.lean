import BotApi.Proofs.Catalog.Expression
import BotApi.Proofs.Disk
import BotApi.Proofs.Json.RoundTrip
/-!
The written form of a catalog and its way back: what each entry is read as, the text of the whole, and
the file that keeps it.
-/

namespace BotApi

open Json (Doc)
open Text (Path)

attribute [simp] Json.Doc.ifSome Form.required Form.withFallback Form.nullable Form.description

theorem Json.Doc.toValues_map {α : Type} (f : α → Doc) (xs : List α) :
    Doc.toValues (xs.map f) = xs.map fun x => (f x).toValue := by
  induction xs with
  | nil => rfl
  | cons x xs ih => rw [List.map_cons, Doc.toValues, ih, List.map_cons]

def Value.ofText? : Option String → Value
  | some s => .str s
  | none => .null

def Param.checked (p : Param) : Value :=
  .record "Param" [("name", .str p.name), ("type", p.type.checked), ("required", .bool p.required),
    ("description", .str p.description), ("value", .ofText? p.value),
    ("json_serialized", .bool p.jsonSerialized)]

def Shape.checked : Shape → List (String × Value)
  | .fields fs => [("fields", .list (fs.map Param.checked)), ("subtypes", .null)]
  | .subtypes ids => [("fields", .null), ("subtypes", .list (ids.map .str))]

def ApiType.checked (t : ApiType) : Value :=
  .record "ApiType" ([("id", .str t.id), ("name", .str t.name), ("description", .str t.description)] ++
    t.shape.checked)

def Method.checked (m : Method) : Value :=
  .record "ApiMethod" [("id", .str m.id), ("name", .str m.name), ("description", .str m.description),
    ("params", .list (m.params.map Param.checked)), ("uploads_file", .bool m.uploadsFile),
    ("json_serialized_params", .list (m.jsonSerializedParams.map .str))]

def Spec.checked (s : Spec) : Value :=
  .record "ApiSpec" [("methods", .list (s.methods.map Method.checked)),
    ("types", .list (s.types.map ApiType.checked))]

def Spec.Proper (s : Spec) : Prop :=
  (∀ t ∈ s.types, ∀ f ∈ t.fields, f.type.Proper) ∧ ∀ m ∈ s.methods, ∀ p ∈ m.params, p.type.Proper

theorem Param.toParam_checked (p : Param) : p.checked.toParam = p := by
  obtain ⟨name, type, required, description, value, jsonSerialized⟩ := p
  cases value <;>
    simp [Param.checked, Value.toParam, Value.textField, Value.flagField, Value.field, Value.ofText?,
      Value.str?, Value.truthy, TypeExpr.toTypeExpr_checked]

theorem texts_map_str (ss : List String) : Value.texts (ss.map .str) = ss := by
  simp [Value.texts, List.filterMap_map, Function.comp_def, Value.str?]

theorem ApiType.toApiType_checked (t : ApiType) : t.checked.toApiType = t := by
  obtain ⟨id, name, description, shape⟩ := t
  cases shape with
  | fields fs =>
      simp [ApiType.checked, Shape.checked, Value.toApiType, Value.textField, Value.listField?,
        Value.field, Value.str?, Function.comp_def, Param.toParam_checked]
  | subtypes ids =>
      simp [ApiType.checked, Shape.checked, Value.toApiType, Value.textField, Value.listField?,
        Value.field, Value.str?, texts_map_str]

theorem Method.toMethod_checked (m : Method) : m.checked.toMethod = m := by
  simp [Method.checked, Value.toMethod, Value.textField, Value.listField?, Value.flagField, Value.field,
    Value.str?, Value.truthy, Function.comp_def, Param.toParam_checked, texts_map_str]

theorem Spec.toSpec_checked (s : Spec) : s.checked.toSpec = s := by
  simp [Spec.checked, Value.toSpec, Value.listField?, Value.field, Function.comp_def,
    Method.toMethod_checked, ApiType.toApiType_checked]

mutual
theorem TypeExpr.eq_of_toDoc : ∀ {e f : TypeExpr}, e.toDoc.toValue = f.toDoc.toValue → e = f
  | .basic _, f, h | .ref _, f, h => by
      cases f <;> simp_all [toDoc]
  | .array e, f, h => by
      cases f with
      | array f =>
          have hitem : e.toDoc.toValue = f.toDoc.toValue := by simpa [toDoc] using h
          rw [TypeExpr.eq_of_toDoc hitem]
      | basic _ | ref _ | union _ => simp [toDoc] at h
  | .union es, f, h => by
      cases f with
      | union fs =>
          have hitems : Doc.toValues (toDocs es) = Doc.toValues (toDocs fs) := by simpa [toDoc] using h
          rw [TypeExpr.eq_of_toDocs hitems]
      | basic _ | ref _ | array _ => simp [toDoc] at h
theorem TypeExpr.eq_of_toDocs : ∀ {es fs : List TypeExpr},
    Doc.toValues (toDocs es) = Doc.toValues (toDocs fs) → es = fs
  | [], [], _ => rfl
  | [], _ :: _, h | _ :: _, [], h => by simp [toDocs, Doc.toValues] at h
  | e :: es, f :: fs, h => by
      simp only [toDocs, Doc.toValues, List.cons.injEq] at h
      rw [TypeExpr.eq_of_toDoc h.1, TypeExpr.eq_of_toDocs h.2]
end

theorem Param.toDoc_injective : Function.Injective fun p : Param => p.toDoc.toValue := by
  intro p q h
  obtain ⟨name, type, needed, description, value, jsonSerialized⟩ := p
  obtain ⟨name', type', needed', description', value', jsonSerialized'⟩ := q
  have htype : type.toDoc.toValue = type'.toDoc.toValue → type = type' := TypeExpr.eq_of_toDoc
  cases value <;> cases value' <;> simp_all [toDoc]

theorem texts_injective : Function.Injective fun ids => (Doc.texts ids).toValue := by
  intro ids ids' h
  have hstr : Function.Injective Value.str := fun _ _ h => Value.str.inj h
  exact List.map_injective_iff.2 hstr (by simpa [Doc.texts, Doc.toValues_map, Function.comp_def] using h)

theorem ApiType.toDoc_injective : Function.Injective fun t : ApiType => t.toDoc.toValue := by
  intro t u h
  obtain ⟨id, name, description, shape⟩ := t
  obtain ⟨id', name', description', shape'⟩ := u
  cases shape with
  | fields ps =>
      cases shape' with
      | subtypes _ => simp [toDoc, Shape.toFields] at h
      | fields qs =>
          obtain ⟨rfl, rfl, rfl, hps⟩ : id = id' ∧ name = name' ∧ description = description' ∧
              ps.map (·.toDoc.toValue) = qs.map (·.toDoc.toValue) := by
            simpa [toDoc, Shape.toFields, Doc.toValues_map] using h
          rw [List.map_injective_iff.2 Param.toDoc_injective hps]
  | subtypes ids =>
      cases shape' with
      | fields _ => simp [toDoc, Shape.toFields] at h
      | subtypes ids' =>
          obtain ⟨rfl, rfl, rfl, hids⟩ : id = id' ∧ name = name' ∧ description = description' ∧
              (Doc.texts ids).toValue = (Doc.texts ids').toValue := by
            simpa [toDoc, Shape.toFields] using h
          rw [texts_injective hids]

theorem Method.toDoc_injective : Function.Injective fun m : Method => m.toDoc.toValue := by
  intro m n h
  obtain ⟨id, name, description, params, uploads, serialized⟩ := m
  obtain ⟨id', name', description', params', uploads', serialized'⟩ := n
  obtain ⟨rfl, rfl, rfl, hparams, rfl, hserialized⟩ : id = id' ∧ name = name' ∧ description = description' ∧
      params.map (·.toDoc.toValue) = params'.map (·.toDoc.toValue) ∧ uploads = uploads' ∧
      (Doc.texts serialized).toValue = (Doc.texts serialized').toValue := by
    simpa [toDoc, Doc.toValues_map] using h
  rw [List.map_injective_iff.2 Param.toDoc_injective hparams, texts_injective hserialized]

theorem Spec.toDoc_injective : Function.Injective fun s : Spec => s.toDoc.toValue := by
  intro s t h
  obtain ⟨methods, types⟩ := s
  obtain ⟨methods', types'⟩ := t
  obtain ⟨hmethods, htypes⟩ : methods.map (·.toDoc.toValue) = methods'.map (·.toDoc.toValue) ∧
      types.map (·.toDoc.toValue) = types'.map (·.toDoc.toValue) := by
    simpa [toDoc, Doc.toValues_map] using h
  rw [List.map_injective_iff.2 Method.toDoc_injective hmethods, List.map_injective_iff.2 ApiType.toDoc_injective htypes]

namespace Form

variable {n : Nat}

theorem reads_items {α : Type} {f : α → Doc} {g : α → Value} {s : Schema} {xs : List α}
    (h : ∀ x ∈ xs, ∀ {n}, (f x).toValue.depth ≤ n → Reads .json n s (f x).toValue (g x))
    (hn : (Doc.list (xs.map f)).toValue.depth ≤ n) :
    Reads .json n (.array s) (Doc.list (xs.map f)).toValue (.list (xs.map g)) := by
  obtain ⟨n, rfl, hitems⟩ := Value.exists_of_depth_list_le hn
  rw [Doc.toValue, Doc.toValues_map]
  rw [Doc.toValues_map, List.forall_mem_map] at hitems
  refine reads_array ?_
  rw [List.forall₂_map_left_iff, List.forall₂_map_right_iff, List.forall₂_same]
  exact fun x hx => h x hx (hitems x hx)

theorem reads_texts {ss : List String} (hn : (Doc.texts ss).toValue.depth ≤ n) :
    Reads .json n (.array .text) (Doc.texts ss).toValue (.list (ss.map .str)) := by
  refine reads_items (fun s _ n hs => ?_) hn
  obtain ⟨n, rfl⟩ := Nat.exists_eq_add_of_lt hs
  exact reads_text s

theorem reads_param {p : Param} (hp : p.type.Proper) (hn : p.toDoc.toValue.depth ≤ n) :
    Reads .json n Key.param.schema p.toDoc.toValue p.checked := by
  obtain ⟨name, type, needed, description, value, jsonSerialized⟩ := p
  obtain ⟨n, rfl, hparts⟩ := Value.exists_of_depth_dict_le hn
  have htype := reads_typeExpr type hp (hparts (.str "type", type.toDoc.toValue) (by simp))
  cases value with
  | none =>
      refine reads_record .param ?_ rfl rfl
      exact .cons (.given (by simp) (reads_text name)) <|
        .cons (.given (by simp) htype) <|
        .cons (.given (by simp) (reads_flag needed)) <|
        .cons (.given (by simp) (reads_text description)) <|
        .cons (.absent (by simp) (by simp) rfl rfl) <|
        .cons (.given (by simp) (reads_flag jsonSerialized)) .nil
  | some t =>
      refine reads_record .param ?_ rfl rfl
      exact .cons (.given (by simp) (reads_text name)) <|
        .cons (.given (by simp) htype) <|
        .cons (.given (by simp) (reads_flag needed)) <|
        .cons (.given (by simp) (reads_text description)) <|
        .cons (.given (by simp) (reads_optional rfl (reads_text t))) <|
        .cons (.given (by simp) (reads_flag jsonSerialized)) .nil

theorem reads_params {ps : List Param} (hps : ∀ p ∈ ps, p.type.Proper)
    (hn : (Doc.list (ps.map Param.toDoc)).toValue.depth ≤ n) :
    Reads .json n params (Doc.list (ps.map Param.toDoc)).toValue (.list (ps.map Param.checked)) :=
  reads_items (fun p hp _ hn => reads_param (hps p hp) hn) hn

theorem reads_apiType {t : ApiType} (ht : ∀ f ∈ t.fields, f.type.Proper)
    (hn : t.toDoc.toValue.depth ≤ n) : Reads .json n Key.type.schema t.toDoc.toValue t.checked := by
  obtain ⟨id, name, description, shape⟩ := t
  obtain ⟨n, rfl, hparts⟩ := Value.exists_of_depth_dict_le hn
  cases shape with
  | fields fs =>
      have ht : ∀ f ∈ fs, f.type.Proper := ht
      have hfields := reads_params ht (hparts (.str "fields", (Doc.list (fs.map Param.toDoc)).toValue)
        (by simp [Shape.toFields]))
      refine reads_record .type ?_ rfl rfl
      exact .cons (.given (by simp) (reads_text id)) <|
        .cons (.given (by simp) (reads_text name)) <|
        .cons (.given (by simp) (reads_text description)) <|
        .cons (.given (by simp [Shape.toFields]) (reads_optional rfl hfields)) <|
        .cons (.absent (by simp [Shape.toFields]) (by simp [Shape.toFields]) rfl rfl) .nil
  | subtypes ids =>
      have hids := reads_texts (hparts (.str "subtypes", (Doc.texts ids).toValue)
        (by simp [Shape.toFields]))
      refine reads_record .type ?_ rfl rfl
      exact .cons (.given (by simp) (reads_text id)) <|
        .cons (.given (by simp) (reads_text name)) <|
        .cons (.given (by simp) (reads_text description)) <|
        .cons (.absent (by simp [Shape.toFields]) (by simp [Shape.toFields]) rfl rfl) <|
        .cons (.given (by simp [Shape.toFields]) (reads_optional rfl hids)) .nil

theorem reads_method {m : Method} (hm : ∀ p ∈ m.params, p.type.Proper)
    (hn : m.toDoc.toValue.depth ≤ n) : Reads .json n Key.method.schema m.toDoc.toValue m.checked := by
  obtain ⟨n, rfl, hparts⟩ := Value.exists_of_depth_dict_le hn
  have hparams := reads_params hm (hparts (.str "params", (Doc.list (m.params.map Param.toDoc)).toValue)
    (by simp))
  have htexts := reads_texts (hparts
    (.str "json_serialized_params", (Doc.texts m.jsonSerializedParams).toValue) (by simp))
  refine reads_record .method ?_ rfl rfl
  exact .cons (.given (by simp) (reads_text m.id)) <|
    .cons (.given (by simp) (reads_text m.name)) <|
    .cons (.given (by simp) (reads_text m.description)) <|
    .cons (.given (by simp) hparams) <|
    .cons (.given (by simp) (reads_flag m.uploadsFile)) <|
    .cons (.given (by simp) htexts) .nil

theorem reads_spec {s : Spec} (hs : s.Proper) (hn : s.toDoc.toValue.depth ≤ n) :
    Reads .json n Key.spec.schema s.toDoc.toValue s.checked := by
  obtain ⟨n, rfl, hparts⟩ := Value.exists_of_depth_dict_le hn
  have hmethods := reads_items (fun m hm _ hn => reads_method (hs.2 m hm) hn)
    (hparts (.str "methods", (Doc.list (s.methods.map Method.toDoc)).toValue) (by simp))
  have htypes := reads_items (fun t ht _ hn => reads_apiType (hs.1 t ht) hn)
    (hparts (.str "types", (Doc.list (s.types.map ApiType.toDoc)).toValue) (by simp))
  refine reads_record .spec ?_ rfl rfl
  exact .cons (.given (by simp) hmethods) <|
    .cons (.given (by simp) htypes) .nil

end Form

theorem Json.Doc.keyedItems_map {α : Type} {f : α → Doc} {xs : List α}
    (h : ∀ x ∈ xs, (f x).Keyed) : Doc.KeyedItems (xs.map f) := by
  induction xs with
  | nil => trivial
  | cons x xs ih =>
      rw [List.forall_mem_cons] at h
      exact ⟨h.1, ih h.2⟩

theorem Json.Doc.keyed_texts (ss : List String) : (Doc.texts ss).Keyed :=
  keyedItems_map fun _ _ => trivial

mutual
theorem TypeExpr.keyed_toDoc : ∀ e : TypeExpr, e.toDoc.Keyed
  | .basic _ | .ref _ => ⟨by simp, trivial, trivial, trivial⟩
  | .array e => ⟨by simp, trivial, keyed_toDoc e, trivial⟩
  | .union es => ⟨by simp, trivial, keyedItems_toDocs es, trivial⟩
theorem TypeExpr.keyedItems_toDocs : ∀ es : List TypeExpr, Doc.KeyedItems (toDocs es)
  | [] => trivial
  | e :: es => ⟨keyed_toDoc e, keyedItems_toDocs es⟩
end

theorem Param.keyed_toDoc (p : Param) : p.toDoc.Keyed := by
  obtain ⟨name, type, needed, description, value, jsonSerialized⟩ := p
  have htype := type.keyed_toDoc
  cases value <;> simp [Param.toDoc, Doc.Keyed, Doc.KeyedFields, htype]

theorem ApiType.keyed_toDoc (t : ApiType) : t.toDoc.Keyed := by
  obtain ⟨id, name, description, shape⟩ := t
  cases shape with
  | fields fs =>
      exact ⟨by simp [Shape.toFields], trivial, trivial, trivial,
        Doc.keyedItems_map fun f _ => f.keyed_toDoc, trivial⟩
  | subtypes ids =>
      exact ⟨by simp [Shape.toFields], trivial, trivial, trivial, Doc.keyed_texts ids, trivial⟩

theorem Method.keyed_toDoc (m : Method) : m.toDoc.Keyed :=
  ⟨by simp, trivial, trivial, trivial, Doc.keyedItems_map fun p _ => p.keyed_toDoc, trivial,
    Doc.keyed_texts m.jsonSerializedParams, trivial⟩

namespace Spec

theorem keyed_toDoc (s : Spec) : s.toDoc.Keyed :=
  ⟨by simp, Doc.keyedItems_map fun m _ => m.keyed_toDoc, Doc.keyedItems_map fun t _ => t.keyed_toDoc,
    trivial⟩

theorem ofJson?_render {s : Spec} (hs : s.Proper) {t : List Char} (ht : t.all Json.isSpace = true)
    (hlone : Json.hasLoneEscape t = false) : ofJson? (.ofList (s.toDoc.render 0 ++ t)) = .ok s := by
  have hread : Json.readStrict (s.toDoc.render 0 ++ t) = some s.toDoc.toValue := by
    rw [Json.readStrict, Json.hasLoneEscape_render, hlone, Json.read_render s.keyed_toDoc t ht]
    rfl
  obtain ⟨p, hp, hvalue⟩ := Form.reads_spec hs (Nat.le_refl _)
  rw [ofJson?, String.toList_ofList, hread]
  simp only [ofValue?, Form.check, Schema.check_eq_ok.2 ⟨p, hp, hvalue⟩, Except.map, toSpec_checked]

theorem noReturn_toJson (s : Spec) : ∀ c ∈ (s.toJson ++ "\n").toList, c ≠ '\r' := by
  rw [String.toList_append, toJson, String.toList_ofList]
  exact Json.textual_noReturn.append (Json.textual_noReturn.render _ _) (by simp)

theorem load_eq_ok {d : Disk} {p : Path} {s : Spec} :
    load d p = .ok s ↔ ∃ t, d.readText p = .ok t ∧ ofJson? t = .ok s ∧ s.checkReferences = .ok () := by
  constructor
  · intro h
    unfold load at h
    split at h
    · cases h
    · cases h
    · rename_i t hread
      split at h
      · cases h
      · rename_i s' hparse
        split at h
        · cases h
        · rename_i hrefs
          cases h
          exact ⟨t, hread, hparse, hrefs⟩
  · rintro ⟨t, hread, hparse, hrefs⟩
    simp only [load, hread, hparse, hrefs]

theorem load_of_save {s : Spec} (hs : s.Proper) (hrefs : s.checkReferences = .ok ()) {d d' : Disk}
    {p : Path} (h : s.save d p = .ok d') : load d' p = .ok s := by
  obtain ⟨d₁, -, hwrite⟩ : ∃ d₁, d.makeParents p = .ok d₁ ∧ d₁.writeText p (s.toJson ++ "\n") = .ok d' := by
    cases hparents : d.makeParents p with
    | error e =>
        rw [save, hparents] at h
        cases h
    | ok d₁ => exact ⟨d₁, rfl, by rwa [save, hparents] at h⟩
  have hread := Disk.readText_of_writeText s.noReturn_toJson hwrite
  have hparse : ofJson? (s.toJson ++ "\n") = .ok s := by
    have htext : s.toJson ++ "\n" = .ofList (s.toDoc.render 0 ++ ['\n']) := by
      rw [String.ofList_append]
      rfl
    rw [htext]
    exact ofJson?_render hs (by decide) (by decide)
  exact load_eq_ok.2 ⟨_, hread, hparse, hrefs⟩

theorem eq_of_toJson {s t : Spec} (h : s.toJson = t.toJson) : s = t := by
  have hrender : s.toDoc.render 0 ++ [] = t.toDoc.render 0 ++ [] := by
    simpa using String.ofList_injective h
  have hread := Json.read_render s.keyed_toDoc [] rfl
  rw [hrender, Json.read_render t.keyed_toDoc [] rfl] at hread
  exact toDoc_injective (Except.ok.inj hread).symm

theorem exists_save {d : Disk} {p : Path} (hp : d.Writable p) (s : Spec) : ∃ d', s.save d p = .ok d' := by
  obtain ⟨d₁, d₂, hparents, hwrite⟩ := Disk.exists_write hp (Text.Utf8.encode (s.toJson ++ "\n").toList)
  exact ⟨d₂, by simp only [save, hparents, Disk.writeText, hwrite, bind, Except.bind]⟩

theorem artifact_round_trip {s : Spec} (hs : s.Proper) (hrefs : s.checkReferences = .ok ()) :
    (∀ (d : Disk) (p : Path), d.Writable p → ∃ d', s.save d p = .ok d') ∧
    (∀ (d d' : Disk) (p : Path), s.save d p = .ok d' → ∃ t, load d' p = .ok t ∧ t = s ∧
      t.toJson = s.toJson ∧ t.fingerprint = s.fingerprint) ∧
    ∀ t : Spec, t.Proper → t.checkReferences = .ok () → t.toJson = s.toJson → t = s := by
  refine ⟨fun d p hp => exists_save hp s, fun d d' p h => ?_, fun t _ _ h => eq_of_toJson h⟩
  exact ⟨s, load_of_save hs hrefs h, rfl, rfl, rfl⟩

namespace Album

def photo : ApiType :=
  ⟨"photo", "Photo", "A \"photo\"\r\nwith\ttabs, a bell \x07 and a snowman \u2603",
    .fields [⟨"sizes", .union [.basic "Integer", .array (.union [.ref "photo", .basic "String"])], true, "",
      none, false⟩, ⟨"kind", .basic "String", true, "", some "photo", false⟩]⟩

def media : ApiType := ⟨"media", "Media", "", .subtypes ["photo"]⟩

def send : Method := ⟨"send", "send", "", [⟨"item", .ref "media", true, "", none, true⟩], false, ["item"]⟩

def spec : Spec := ⟨[send], [photo, media]⟩

def path : Path := ⟨false, ["out", "spec.json"]⟩

theorem proper : spec.Proper := by
  simp [Proper, spec, photo, media, send, ApiType.fields, TypeExpr.Proper, TypeExpr.ProperList]

end Album

theorem album_round_trip : Album.spec.Proper ∧ Album.spec.checkReferences = .ok () ∧
    ∃ d', Album.spec.save .empty Album.path = .ok d' ∧ load d' Album.path = .ok Album.spec := by
  have hrefs : Album.spec.checkReferences = .ok () := rfl
  obtain ⟨hsave, hload, -⟩ := artifact_round_trip Album.proper hrefs
  obtain ⟨d', h⟩ := hsave .empty Album.path ⟨by decide, .inr ⟨by decide, by decide⟩⟩
  obtain ⟨t, ht, rfl, -⟩ := hload .empty d' Album.path h
  exact ⟨Album.proper, hrefs, d', h, ht⟩

end Spec

end BotApi
