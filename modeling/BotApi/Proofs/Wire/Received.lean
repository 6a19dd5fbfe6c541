import BotApi.Proofs.Json.Written
import BotApi.Proofs.Wire.Encode
import BotApi.Proofs.Wire.Form
import Mathlib.Data.List.Forall2
/-!
What a receiver makes of a request: its body, read as its type says, gives back the parameters that it was
encoded from.
-/

namespace BotApi.Wire

open Text (dropStart? Utf8.decode Utf8.encode)

/-! Headers -/

namespace Headers

theorem get?_cons (h : String × Value) (hs : Headers) (name : String) :
    get? (h :: hs) name = if sameName name h.1 then some h.2 else hs.get? name := by
  rw [get?, List.find?_cons]
  cases sameName name h.1 <;> rfl

theorem sameName_eq {name other : String} (h : sameName name other = true) (third : String) :
    sameName third name = sameName third other ∧ sameName name third = sameName other third := by
  have hfold : fold name = fold other := by simpa [sameName] using h
  simp only [sameName, hfold, and_self]

theorem get?_put (hs : Headers) (name other : String) (v : Value) :
    (hs.put name v).get? other = if sameName other name then some v else hs.get? other := by
  induction hs with
  | nil => exact get?_cons (name, v) [] other
  | cons h hs ih =>
      rw [put]
      split
      next hsame =>
        rw [get?_cons, get?_cons, ← (sameName_eq hsame other).1]
        split <;> rfl
      next hother =>
        rw [get?_cons, get?_cons, ih]
        by_cases hh : sameName other h.1 = true
        · have hname : ¬ sameName other name = true := fun hname => hother ((sameName_eq hname h.1).2 ▸ hh)
          rw [if_pos hh, if_pos hh, if_neg hname]
        · rw [if_neg hh, if_neg hh]

theorem get?_ofEntries {es : Entries} {hs : Headers} {name : String} (h : ofEntries es = .ok hs)
    (hnone : ∀ e ∈ es, sameName name (nameOf e.1) = false) : hs.get? name = none := by
  unfold ofEntries at h
  refine foldlM_keeps (P := fun hs => get? hs name = none) (fun hs e he hs' hbefore hstep => ?_) rfl h
  split at hstep
  next => cases hstep
  split at hstep
  next => cases hstep
  next =>
    cases hstep
    rw [get?_put, if_neg (by rw [hnone e he]; decide), hbefore]

end Headers

/-! Bodies -/

inductive Reading where
  | nothing
  | json (v : Value)
  | line (fields : List (List UInt8 × List UInt8))
  | parts (ps : List Form.Part)

namespace Reading

def json? (b : List UInt8) : Option Value := (Utf8.decode b).toOption.bind fun t => (Json.read t).toOption

def line? (b : List UInt8) : Option (List (List UInt8 × List UInt8)) :=
  (Utf8.decode b).toOption.bind Form.fields?

def boundary? (type : String) : Option (List Char) := dropStart? "multipart/form-data; boundary=".toList type.toList

def ofType? (type : String) (b : List UInt8) : Option Reading :=
  if type = Encode.jsonType then (json? b).map json
  else if type = Encode.joinedType then (line? b).map line
  else (boundary? type).bind fun boundary => (Form.parts? boundary b).map parts

-- The body is read as its type says; without a body there is nothing to be read.
def of? (p : Prepared) : Option Reading :=
  p.body.elim (some nothing) fun b =>
    ((Headers.get? p.headers "Content-Type").bind Value.str?).bind fun type => ofType? type b

def Spells (v : Value) (b : List UInt8) : Prop :=
  (∃ s, v = .str s ∧ b = Utf8.encode s.toList) ∨ (¬ Encode.IsText v ∧ json? b = some v)

inductive Holds (disk : Disk) : Value → List UInt8 → Prop
  | bytes (b : List UInt8) : Holds disk (.bytes b) b
  | buffer (b : List UInt8) : Holds disk (.buffer b) b
  | path {p : String} {b : List UInt8} (h : disk.read (Text.Path.ofText p) = .ok b) : Holds disk (.path p) b
  | stream (b : List UInt8) (name : Option Value) : Holds disk (.stream b name) b

def Names (key : Value) (name : Option (List Char)) : Prop :=
  ∃ k : String, key = .str k ∧ name = some (Form.unescapeName k.toList) ∧
    (¬ Form.HasEscape k.toList → name = some k.toList)

def Gives (disk : Disk) (given : Entries) : Reading → Prop
  | nothing => given = []
  | json v => v = .dict given
  | line fs => List.Forall₂ (fun e f => Spells e.1 f.1 ∧ Spells e.2 f.2) given fs
  | parts ps => ∃ fs us, ps = fs ++ us ∧
      List.Forall₂ (fun e p => Names e.1 p.name ∧ p.fileName = none ∧ Spells e.2 p.content)
        (given.filter fun e => !Schema.isFile e.2) fs ∧
      List.Forall₂ (fun e p => Names e.1 p.name ∧ p.fileName.isSome = true ∧ Holds disk e.2 p.content)
        (given.filter fun e => Schema.isFile e.2) us

theorem json?_write {style : Json.Style} {v : Value} {t : List Char} (hv : v.IsJson) (h : Json.write style v = .ok t) :
    json? (Utf8.encode t) = some v := by
  rw [json?, Text.Utf8.decode_encode]
  dsimp only [Except.toOption, Option.bind_some]
  rw [Json.read_write (Json.legible_of_writable hv ⟨t, h⟩) h]

end Reading

namespace Encode

open Reading

variable {boundary : List Char} {disk : Disk}

/-! What the parameters of a form become -/

theorem ok_of_orText {ε α : Type} {message : ε → String} {x : Except ε α} {a : α} (h : orText message x = .ok a) :
    x = .ok a := by
  cases x with
  | error e => cases h
  | ok b =>
      cases h
      rfl

theorem spells_fieldOctets {v : Value} {b : List UInt8} (hv : v.IsJson) (h : fieldOctets v = .ok b) : Spells v b := by
  by_cases htext : IsText v
  · obtain ⟨s, rfl⟩ := htext
    cases h
    exact .inl ⟨s, rfl, rfl⟩
  · rw [fieldOctets_of_not_text htext] at h
    obtain ⟨t, ht, rfl⟩ := ok_of_map h
    exact .inr ⟨htext, json?_write hv (ok_of_orText ht)⟩

theorem upload?_of_isFile {k v : Value} {found : Option Upload} (hv : Schema.isFile v = true)
    (h : upload? disk k v = .ok found) : ∃ u, found = some u ∧ Holds disk v u.content := by
  cases v with
  | bytes b =>
      cases h
      exact ⟨_, rfl, .bytes b⟩
  | buffer b =>
      cases h
      exact ⟨_, rfl, .buffer b⟩
  | path p =>
      obtain ⟨b, hb, rfl⟩ := ok_of_map h
      exact ⟨_, rfl, .path (ok_of_orText hb)⟩
  | stream b name =>
      cases h
      exact ⟨_, rfl, .stream b name⟩
  | _ => cases hv

theorem upload?_of_not_isFile {k v : Value} (hv : Schema.isFile v = false) : upload? disk k v = .ok none := by
  cases v with
  | bytes | buffer | path | stream => cases hv
  | _ => rfl

theorem forall₂_shares {given : Entries} {shares : List Share} (h : given.mapM (share disk) = .ok shares) :
    List.Forall₂ (fun e f => e.1 = f.1 ∧ fieldOctets e.2 = .ok f.2) (given.filter fun e => !Schema.isFile e.2)
      (shares.filterMap Sum.getLeft?) ∧
    List.Forall₂ (fun e f => e.1 = f.1 ∧ upload? disk e.1 e.2 = .ok (some f.2))
      (given.filter fun e => Schema.isFile e.2) (shares.filterMap Sum.getRight?) := by
  have hall := forall₂_of_mapM h
  clear h
  induction hall with
  | nil => exact ⟨.nil, .nil⟩
  | @cons e s given shares hs _ ih =>
      obtain ⟨found, hfound, hs⟩ := ok_of_bind hs
      cases hfile : Schema.isFile e.2 with
      | true =>
          obtain ⟨u, rfl, -⟩ := upload?_of_isFile hfile hfound
          cases hs
          simp only [List.filter_cons, hfile, Bool.not_true, if_true, List.filterMap_cons, Sum.getLeft?, Sum.getRight?]
          exact ⟨ih.1, .cons ⟨rfl, hfound⟩ ih.2⟩
      | false =>
          rw [upload?_of_not_isFile hfile] at hfound
          cases hfound
          obtain ⟨b, hb, rfl⟩ := ok_of_map hs
          simp only [List.filter_cons, hfile, Bool.not_false, if_true, List.filterMap_cons, Sum.getLeft?, Sum.getRight?]
          exact ⟨.cons ⟨rfl, hb⟩ ih.1, ih.2⟩

theorem names_text (k : String) : Names (.str k) (some (Form.unescapeName k.toList)) :=
  ⟨k, rfl, rfl, fun h => congrArg some (Form.unescapeName_of_not_hasEscape h)⟩

theorem forall₂_line {given : Entries} {fields : List (Value × List UInt8)}
    (hgiven : ∀ e ∈ given, IsText e.1 ∧ e.2.IsJson)
    (h : List.Forall₂ (fun e f => e.1 = f.1 ∧ fieldOctets e.2 = .ok f.2) given fields) :
    List.Forall₂ (fun e f => Spells e.1 f.1 ∧ Spells e.2 f.2) given (fields.map fun f => (keyOctets f.1, f.2)) := by
  rw [List.forall₂_map_right_iff]
  refine ((List.forall₂_and_left _ _).2 ⟨hgiven, h⟩).imp ?_
  rintro ⟨k, v⟩ ⟨_, b⟩ ⟨⟨⟨k, rfl⟩, hjson⟩, rfl, hb⟩
  exact ⟨.inl ⟨k, rfl, rfl⟩, spells_fieldOctets hjson hb⟩

theorem forall₂_fieldPart {given : Entries} {fields : List (Value × List UInt8)} {fs : List Form.Part}
    (hgiven : ∀ e ∈ given, IsText e.1 ∧ e.2.IsJson)
    (h : List.Forall₂ (fun e f => e.1 = f.1 ∧ fieldOctets e.2 = .ok f.2) given fields)
    (hfs : fields.mapM fieldPart = .ok fs) :
    (∀ p ∈ fs, p.name.isSome = true) ∧
    List.Forall₂ (fun e p => Names e.1 p.name ∧ p.fileName = none ∧ Spells e.2 p.content) given
      (fs.map Form.Part.reading) := by
  have hparts := forall₂_of_mapM hfs
  clear hfs
  induction h generalizing fs with
  | nil =>
      cases hparts
      exact ⟨by simp, .nil⟩
  | @cons e f given fields hf _ ih =>
      cases hparts with
      | @cons _ p _ fs hp hparts =>
        obtain ⟨hnames, hread⟩ := ih (fun e he => hgiven e (List.mem_cons_of_mem _ he)) hparts
        obtain ⟨⟨k, hk⟩, hjson⟩ := hgiven e (by simp)
        obtain ⟨hkey, hb⟩ := hf
        rw [fieldPart, ← hkey, hk] at hp
        cases hp
        refine ⟨List.forall_mem_cons.2 ⟨rfl, hnames⟩, .cons ⟨?_, rfl, spells_fieldOctets hjson hb⟩ hread⟩
        rw [hk]
        exact names_text k

theorem forall₂_filePart {given : Entries} {files : List (Value × Upload)} {us : List Form.Part}
    (hgiven : ∀ e ∈ given, IsText e.1 ∧ Schema.isFile e.2 = true)
    (h : List.Forall₂ (fun e f => e.1 = f.1 ∧ upload? disk e.1 e.2 = .ok (some f.2)) given files)
    (hus : files.mapM filePart = .ok us) :
    (∀ p ∈ us, p.name.isSome = true) ∧
    List.Forall₂ (fun e p => Names e.1 p.name ∧ p.fileName.isSome = true ∧ Holds disk e.2 p.content) given
      (us.map Form.Part.reading) := by
  have hparts := forall₂_of_mapM hus
  clear hus
  induction h generalizing us with
  | nil =>
      cases hparts
      exact ⟨by simp, .nil⟩
  | @cons e f given files hf _ ih =>
      cases hparts with
      | @cons _ p _ us hp hparts =>
        obtain ⟨hnames, hread⟩ := ih (fun e he => hgiven e (List.mem_cons_of_mem _ he)) hparts
        obtain ⟨⟨k, hk⟩, hfile⟩ := hgiven e (by simp)
        obtain ⟨hkey, hupload⟩ := hf
        obtain ⟨u, hu, hholds⟩ := upload?_of_isFile hfile hupload
        obtain ⟨name, hname⟩ := isText_upload? ⟨k, hk⟩ hupload
        cases hu
        rw [filePart, ← hkey, hk, hname] at hp
        cases hp
        refine ⟨List.forall_mem_cons.2 ⟨rfl, hnames⟩, .cons ⟨?_, rfl, hholds⟩ hread⟩
        rw [hk]
        exact names_text k

/-! The type of the body -/

theorem get?_withBody {hs : Headers} (hs' : hs.get? "Content-Type" = none) (b : List UInt8) (type : String) :
    (withBody hs (some (b, type))).get? "Content-Type" = some (.str type) := by
  have hlength : Headers.sameName "Content-Type" "Content-Length" = false := by decide +kernel
  have hsame : Headers.sameName "Content-Type" "Content-Type" = true := by simp [Headers.sameName]
  have hnone : (hs.put "Content-Length" (natText b.length)).get? "Content-Type" = none := by
    rw [Headers.get?_put, if_neg (by rw [hlength]; decide), hs']
  rw [withBody, if_neg (by rw [hnone]; decide), Headers.get?_put, if_pos hsame]

theorem get?_withCredentials {url : List Char} {hs hs' : Headers} (h : withCredentials url hs = .ok hs') :
    hs'.get? "Content-Type" = hs.get? "Content-Type" := by
  have hother : Headers.sameName "Content-Type" "Authorization" = false := by decide +kernel
  obtain ⟨found, -, h⟩ := ok_of_bind h
  cases found with
  | none =>
      cases h
      rfl
  | some c =>
      obtain ⟨header, -, rfl⟩ := ok_of_map h
      rw [Headers.get?_put, if_neg (by rw [hother]; decide)]

/-! Reading what was encoded -/

def parts : Content → Encoding (List Form.Part)
  | .json _ | .form _ [] => .ok []
  | .form fields files => (fields.mapM fieldPart).bind fun fs => (files.mapM filePart).map (fs ++ ·)

-- A boundary that stands in no part, nor ends a line.
structure Bounds (boundary : List Char) (disk : Disk) (r : Request) : Prop where
  line : '\r' ∉ boundary
  apart : ∀ content ps, contentOf disk r = .ok content → parts content = .ok ps →
    ∀ p ∈ ps, ¬ Utf8.encode boundary <:+: p.text

structure Sends (r : Request) (es : Entries) : Prop where
  params : r.params = .dict es
  texts : ∀ e ∈ es, IsText e.1
  nodup : (es.map (·.1)).Nodup
  values : ∀ e ∈ es, e.2.IsJson ∨ (r.multipart = true ∧ Schema.isFile e.2 = true)
  -- No header of its own says what type the body has.
  untyped : ∃ hs, r.headers.orEmpty = .dict hs ∧
    ∀ e ∈ hs, Headers.sameName "Content-Type" (Headers.nameOf e.1) = false

def given (es : Entries) : Entries := es.filter fun e => !e.2.isNull

theorem ofType?_json (b : List UInt8) : ofType? jsonType b = (json? b).map json := if_pos rfl

theorem ofType?_joined (b : List UInt8) : ofType? joinedType b = (line? b).map line :=
  (if_neg (by decide)).trans (if_pos rfl)

theorem toList_multipartType (boundary : List Char) :
    (multipartType boundary).toList = "multipart/form-data; boundary=".toList ++ boundary :=
  (String.toList_append).trans (congrArg _ (String.toList_ofList))

theorem ofType?_multipart (boundary : List Char) (b : List UInt8) :
    ofType? (multipartType boundary) b = (Form.parts? boundary b).map Reading.parts := by
  have hboundary : boundary? (multipartType boundary) = some boundary := by
    rw [boundary?, toList_multipartType, Text.dropStart?_append]
  have htype (type : String) (hhead : type.toList.head? ≠ some 'm') : multipartType boundary ≠ type := by
    rintro rfl
    rw [toList_multipartType] at hhead
    exact hhead rfl
  rw [ofType?, if_neg (htype _ (by decide)), if_neg (htype _ (by decide)), hboundary, Option.bind_some]

namespace Sends

variable {r : Request} {es : Entries}

theorem isJson_given (h : Sends r es) (hbody : r.multipart = false) : (Value.dict (given es)).IsJson := by
  refine .dict (fun e he => h.texts e (List.mem_filter.1 he).1) (h.nodup.sublist (List.filter_sublist.map _)) ?_
  intro e he
  refine (h.values e (List.mem_filter.1 he).1).resolve_right fun hfile => ?_
  rw [hbody] at hfile
  cases hfile.1

theorem fields (h : Sends r es) : ∀ e ∈ (given es).filter fun e => !Schema.isFile e.2, IsText e.1 ∧ e.2.IsJson := by
  intro e he
  obtain ⟨hgiven, hfile⟩ := List.mem_filter.1 he
  have hmem := (List.mem_filter.1 hgiven).1
  refine ⟨h.texts e hmem, (h.values e hmem).resolve_right fun hupload => ?_⟩
  rw [hupload.2] at hfile
  cases hfile

theorem files (h : Sends r es) :
    ∀ e ∈ (given es).filter fun e => Schema.isFile e.2, IsText e.1 ∧ Schema.isFile e.2 = true := by
  intro e he
  obtain ⟨hgiven, hfile⟩ := List.mem_filter.1 he
  exact ⟨h.texts e (List.mem_filter.1 hgiven).1, hfile⟩

end Sends

theorem filter_not_eq_self {α : Type} {p : α → Bool} {l : List α} (h : l.filter p = []) :
    (l.filter fun a => !p a) = l := by
  rw [List.filter_eq_nil_iff] at h
  exact List.filter_eq_self.2 fun a ha => by simpa using h a ha

theorem parts_files (fields : List (Value × List UInt8)) (u : Value × Upload) (files : List (Value × Upload)) :
    parts (.form fields (u :: files)) =
      (fields.mapM fieldPart).bind fun fs => ((u :: files).mapM filePart).map (fs ++ ·) := by
  cases fields <;> rfl

theorem body_files (boundary : List Char) (fields : List (Value × List UInt8)) (u : Value × Upload)
    (files : List (Value × Upload)) : body boundary (.form fields (u :: files)) =
      (parts (.form fields (u :: files))).map fun ps => some (Form.multipart boundary ps, multipartType boundary) := by
  have hbody : body boundary (.form fields (u :: files)) = (fields.mapM fieldPart).bind fun fs =>
      ((u :: files).mapM filePart).bind fun us =>
        .ok (some (Form.multipart boundary (fs ++ us), multipartType boundary)) := by
    cases fields <;> rfl
  rw [hbody, parts_files]
  cases fields.mapM fieldPart with
  | error e => rfl
  | ok fs => cases (u :: files).mapM filePart <;> rfl

theorem line_of_body {boundary : List Char} {given : Entries} {fields : List (Value × List UInt8)}
    {b : Option (List UInt8 × String)} (hgiven : ∀ e ∈ given, IsText e.1 ∧ e.2.IsJson)
    (hfields : List.Forall₂ (fun e f => e.1 = f.1 ∧ fieldOctets e.2 = .ok f.2) given fields)
    (hb : body boundary (.form fields []) = .ok b) :
    (b = none ∧ given = []) ∨ ∃ octets fs, b = some (octets, joinedType) ∧ line? octets = some fs ∧
      List.Forall₂ (fun e f => Spells e.1 f.1 ∧ Spells e.2 f.2) given fs := by
  cases fields with
  | nil =>
      cases hb
      exact .inl ⟨rfl, List.forall₂_nil_right_iff.1 hfields⟩
  | cons f fields =>
      cases hb
      refine .inr ⟨_, _, rfl, ?_, forall₂_line hgiven hfields⟩
      rw [line?, Text.Utf8.decode_encode]
      dsimp only [Except.toOption, Option.bind_some]
      rw [Form.fields?_joined (by simp)]

theorem gives_of_form {boundary : List Char} {given : Entries} {fields : List (Value × List UInt8)}
    {files : List (Value × Upload)} {b : Option (List UInt8 × String)} (hline : '\r' ∉ boundary)
    (happart : ∀ ps, parts (.form fields files) = .ok ps → ∀ p ∈ ps, ¬ Utf8.encode boundary <:+: p.text)
    (htexts : ∀ e ∈ given.filter fun e => !Schema.isFile e.2, IsText e.1 ∧ e.2.IsJson)
    (huploads : ∀ e ∈ given.filter fun e => Schema.isFile e.2, IsText e.1 ∧ Schema.isFile e.2 = true)
    (hfields : List.Forall₂ (fun e f => e.1 = f.1 ∧ fieldOctets e.2 = .ok f.2)
      (given.filter fun e => !Schema.isFile e.2) fields)
    (hfiles : List.Forall₂ (fun e f => e.1 = f.1 ∧ upload? disk e.1 e.2 = .ok (some f.2))
      (given.filter fun e => Schema.isFile e.2) files)
    (hb : body boundary (.form fields files) = .ok b) :
    ∃ reading, (b.elim (some nothing) fun b => ofType? b.2 b.1) = some reading ∧ reading.Gives disk given := by
  cases files with
  | nil =>
      have hall := filter_not_eq_self (List.forall₂_nil_right_iff.1 hfiles)
      rw [hall] at htexts hfields
      obtain ⟨rfl, hempty⟩ | ⟨octets, fs, rfl, hfs, hread⟩ := line_of_body htexts hfields hb
      · exact ⟨nothing, rfl, hempty⟩
      · refine ⟨line fs, ?_, hread⟩
        dsimp only [Option.elim_some]
        rw [ofType?_joined, hfs]
        rfl
  | cons u files =>
      rw [body_files] at hb
      obtain ⟨ps, hps, rfl⟩ := ok_of_map hb
      obtain ⟨fs, hfs, hparts⟩ := ok_of_bind hps
      obtain ⟨us, hus, rfl⟩ := ok_of_map hparts
      obtain ⟨hnames, hread⟩ := forall₂_fieldPart htexts hfields hfs
      obtain ⟨hnames', hread'⟩ := forall₂_filePart huploads hfiles hus
      refine ⟨Reading.parts ((fs ++ us).map Form.Part.reading), ?_, _, _, List.map_append, hread, hread'⟩
      have hmultipart := Form.parts?_multipart hline
        (fun p hp => (List.mem_append.1 hp).elim (hnames p) (hnames' p)) (happart _ hps)
      dsimp only [Option.elim_some]
      rw [ofType?_multipart, hmultipart]
      rfl

theorem gives_of_body {r : Request} {es : Entries} (hr : Sends r es) (hbounds : Bounds boundary disk r)
    {content : Content} {b : Option (List UInt8 × String)} (hcontent : contentOf disk r = .ok content)
    (hb : body boundary content = .ok b) :
    ∃ reading, (b.elim (some nothing) fun b => ofType? b.2 b.1) = some reading ∧ reading.Gives disk (given es) := by
  have happart := hbounds.apart content
  have hform := hcontent
  unfold contentOf at hform
  rw [hr.params] at hform
  dsimp only at hform
  split at hform
  next hmultipart =>
    rw [formOf_eq] at hform
    obtain ⟨shares, hshares, rfl⟩ := ok_of_map hform
    obtain ⟨hfields, hfiles⟩ := forall₂_shares hshares
    exact gives_of_form hbounds.line (fun ps hps => happart ps hcontent hps) hr.fields hr.files hfields hfiles hb
  next hmultipart =>
    cases hform
    obtain ⟨t, ht, rfl⟩ := ok_of_map hb
    refine ⟨json (.dict (given es)), ?_, rfl⟩
    dsimp only [Option.elim_some]
    rw [ofType?_json]
    have hread := json?_write (hr.isJson_given (by simpa using hmultipart)) (ok_of_orText ht)
    rw [hread]
    rfl

end Encode

theorem Request.params_read_back {boundary : List Char} {disk : Disk} {r : Request} {es : Entries} {p : Prepared}
    (hr : Encode.Sends r es) (hbounds : Encode.Bounds boundary disk r) (h : r.encode boundary disk = .ok p) :
    ∃ reading, Reading.of? p = some reading ∧ reading.Gives disk (Encode.given es) := by
  have hencoding := encoding_of_encode h
  obtain ⟨content, hcontent, hencoding⟩ := ok_of_bind hencoding
  obtain ⟨url, -, hencoding⟩ := ok_of_bind hencoding
  obtain ⟨hs, hheld, hencoding⟩ := ok_of_bind hencoding
  obtain ⟨b, hb, hencoding⟩ := ok_of_bind hencoding
  obtain ⟨hs', hcredentials, hencoding⟩ := ok_of_bind hencoding
  cases hencoding
  obtain ⟨reading, hreading, hgives⟩ := Encode.gives_of_body hr hbounds hcontent hb
  refine ⟨reading, ?_, hgives⟩
  cases b with
  | none => exact hreading
  | some b =>
      obtain ⟨headers, hheaders, huntyped⟩ := hr.untyped
      have hnone : Headers.get? hs "Content-Type" = none := by
        rw [Encode.headersOf, hheaders] at hheld
        exact Headers.get?_ofEntries (Encode.ok_of_orText hheld) huntyped
      have htype : Headers.get? hs' "Content-Type" = some (.str b.2) := by
        rw [Encode.get?_withCredentials hcredentials, Encode.get?_withBody hnone]
      rw [Reading.of?]
      dsimp only [Option.map_some, Option.elim_some]
      rw [htype]
      exact hreading

def album : Entries :=
  [(.str "chat_id", .int (-7)), (.str "caption", .str "say \"hi\""), (.str "thumbnail", .null),
    (.str "reply_markup", .dict [(.str "force", .list [.bool true, .null])]), (.str "photo", .bytes [0xFF, 0x0D, 0x0A])]

def albumRequest : Request where
  method := "sendPhoto"
  url := "https://h/"
  params := .dict album
  multipart := true
  headers := .dict [(.str "X-Trace", .str "1")]
  timeout := .null

theorem album_read_back : ∃ p, albumRequest.encode ['0', '1'] .empty = .ok p ∧ Encode.Sends albumRequest album ∧
    Encode.Bounds ['0', '1'] .empty albumRequest ∧
    ∃ reading, Reading.of? p = some reading ∧ reading.Gives .empty (Encode.given album) := by
  have hsends : Encode.Sends albumRequest album :=
    { params := rfl
      texts := by simp [album, Encode.IsText]
      nodup := by simp [album]
      values := by
        have hlist : (Value.list [.bool true, .null]).IsJson := .list (by
          intro v hv
          simp only [List.mem_cons, List.not_mem_nil, or_false] at hv
          rcases hv with rfl | rfl
          · exact .bool true
          · exact .null)
        intro e he
        simp only [album, List.mem_cons, List.not_mem_nil, or_false] at he
        rcases he with rfl | rfl | rfl | rfl | rfl
        · exact .inl (.int (-7))
        · exact .inl (.str "say \"hi\"")
        · exact .inl .null
        · exact .inl (.dict (by simp) (by simp) (by simpa using hlist))
        · exact .inr ⟨rfl, rfl⟩
      untyped := ⟨_, rfl, by decide +kernel⟩ }
  have hbounds : Encode.Bounds ['0', '1'] .empty albumRequest :=
    { line := by decide
      apart := by
        intro content ps hcontent hps
        cases hcontent
        cases hps
        decide +kernel }
  exact ⟨_, rfl, hsends, hbounds, Request.params_read_back hsends hbounds rfl⟩

def lone (key : String) : Request where
  method := "sendPhoto"
  url := "https://h/"
  params := .dict [(.str key, .bytes [0x01])]
  multipart := true
  headers := .null
  timeout := .null

-- A quote in a name and the escape that stands for it make the same request.
theorem names_lost : ∃ p, (lone "a\"").encode ['b'] .empty = .ok p ∧ (lone "a%22").encode ['b'] .empty = .ok p ∧
    ∀ read : Prepared → Value, ¬ (read p = (lone "a\"").params ∧ read p = (lone "a%22").params) := by
  refine ⟨_, rfl, rfl, fun read h => ?_⟩
  have hsame := h.1.symm.trans h.2
  simp [lone] at hsame

end BotApi.Wire
