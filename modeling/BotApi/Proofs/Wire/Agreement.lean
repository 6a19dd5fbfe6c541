import BotApi.Proofs.Wire.Sent
/-!
One set of parameters without files, encoded as JSON and as a form. Both bodies carry the same values, and where one
of the two cannot be had neither can the other, but for numbers that are not finite: a form takes them.
-/

namespace BotApi

open Json (Writable)
open Schema (isFile)

-- Data of a call without files: numbers need not be finite, and objects have no JSON text in any style.
inductive Value.IsData : Value → Prop
  | null : IsData .null
  | bool (b : Bool) : IsData (.bool b)
  | int (n : Int) : IsData (.int n)
  | float (x : Float) : IsData (.float x)
  | str (s : String) : IsData (.str s)
  | list {xs : List Value} (h : ∀ x ∈ xs, IsData x) : IsData (.list xs)
  | dict {es : Entries} (texts : ∀ e ∈ es, ∃ k, e.1 = .str k) (nodup : (es.map (·.1)).Nodup)
      (values : ∀ e ∈ es, IsData e.2) : IsData (.dict es)
  | object {v : Value} (file : isFile v = false) (unwritable : ∀ style, ¬ Writable style v) : IsData v

theorem Value.IsData.not_isFile {v : Value} (h : v.IsData) : isFile v = false := by
  cases h with
  | object file _ => exact file
  | _ => rfl

theorem Value.IsData.isJson {v : Value} (h : v.IsData) {style : Json.Style} (hw : Writable style v)
    (hfinite : v.allFinite = true) : v.IsJson := by
  induction h with
  | null => exact .null
  | bool b => exact .bool b
  | int n => exact .int n
  | float x => exact .float hfinite
  | str s => exact .str s
  | list _ ih =>
      have hitems := Value.itemsFinite_iff.1 hfinite
      exact .list fun x hx => ih x hx (Json.writable_list.1 hw x hx) (hitems x hx)
  | dict texts nodup _ ih =>
      have hentries := Value.entriesFinite_iff.1 hfinite
      exact .dict texts nodup fun e he => ih e he (Json.writable_dict.1 hw e he).2 (hentries e he).2
  | object _ unwritable => exact absurd hw (unwritable style)

namespace Wire

open Text (Utf8.encode)

def Request.asJson (r : Request) : Request := { r with multipart := false }

def Request.asForm (r : Request) : Request := { r with multipart := true }

namespace Encode

open Reading (json? line? Spells)

variable {boundary : List Char} {disk : Disk} {r : Request} {es : Entries}

structure Passes (r : Request) (es : Entries) : Prop where
  params : r.params = .dict es
  texts : ∀ e ∈ es, IsText e.1
  nodup : (es.map (·.1)).Nodup
  values : ∀ e ∈ es, e.2.IsData
  headers : ∃ hs, r.headers.orEmpty = .dict hs

theorem mem_of_given {e : Value × Value} (h : e ∈ given es) : e ∈ es := (List.mem_filter.1 h).1

theorem null_or_given {e : Value × Value} (h : e ∈ es) : e.2 = .null ∨ e ∈ given es := by
  cases hnull : e.2.isNull with
  | false => exact .inr (List.mem_filter.2 ⟨h, by simp [hnull]⟩)
  | true =>
      left
      obtain ⟨k, v⟩ := e
      cases v with
      | null => rfl
      | _ => cases hnull

theorem writable_of_fieldOctets {v : Value} {b : List UInt8} (h : fieldOctets v = .ok b) : Writable fieldStyle v := by
  by_cases htext : IsText v
  · obtain ⟨s, rfl⟩ := htext
    exact Json.writable_str s
  · rw [fieldOctets_of_not_text htext] at h
    obtain ⟨t, ht, -⟩ := ok_of_map h
    exact ⟨t, ok_of_orText ht⟩

theorem filter_given (hfiles : ∀ e ∈ es, isFile e.2 = false) :
    ((given es).filter fun e => isFile e.2) = [] ∧ ((given es).filter fun e => !isFile e.2) = given es := by
  have hnone : ((given es).filter fun e => isFile e.2) = [] :=
    List.filter_eq_nil_iff.2 fun e he => by simp [hfiles e (mem_of_given he)]
  exact ⟨hnone, filter_not_eq_self hnone⟩

theorem payload_asJson (hparams : r.params = .dict es) : payload boundary disk r.asJson =
    (orText Json.Unwritable.message (Json.write bodyStyle (.dict (given es)))).map fun t =>
      some (Utf8.encode t, jsonType) := by
  simp only [payload, contentOf, Request.asJson, hparams]
  rfl

theorem exists_payload_asJson (hparams : r.params = .dict es) (htexts : ∀ e ∈ es, IsText e.1) :
    (∃ b, payload boundary disk r.asJson = .ok b) ↔ ∀ e ∈ given es, Writable bodyStyle e.2 := by
  have hkeys : ∀ e ∈ given es, ∃ k, Json.key bodyStyle e.1 = .ok k := by
    intro e he
    obtain ⟨s, hs⟩ := htexts e (mem_of_given he)
    exact hs ▸ Json.exists_key s
  have hdict : Writable bodyStyle (.dict (given es)) ↔ ∀ e ∈ given es, Writable bodyStyle e.2 :=
    Json.writable_dict.trans ⟨fun h e he => (h e he).2, fun h e he => ⟨hkeys e he, h e he⟩⟩
  rw [payload_asJson hparams, ← hdict, Writable]
  cases Json.write bodyStyle (.dict (given es)) <;> simp [orText, Except.mapError, Except.map]

theorem form_of_payload (hparams : r.params = .dict es) (hfiles : ∀ e ∈ es, isFile e.2 = false)
    {b : Option (List UInt8 × String)} (h : payload boundary disk r.asForm = .ok b) :
    ∃ fields, List.Forall₂ (fun e f => e.1 = f.1 ∧ fieldOctets e.2 = .ok f.2) (given es) fields ∧
      body boundary (.form fields []) = .ok b := by
  simp only [payload, contentOf, Request.asForm, hparams, if_true] at h
  obtain ⟨content, hcontent, hb⟩ := ok_of_bind h
  change formOf disk (given es) = .ok content at hcontent
  rw [formOf_eq] at hcontent
  obtain ⟨shares, hshares, rfl⟩ := ok_of_map hcontent
  obtain ⟨hfields, huploads⟩ := forall₂_shares hshares
  obtain ⟨hnone, hall⟩ := filter_given hfiles
  rw [hall] at hfields
  rw [hnone, List.forall₂_nil_left_iff] at huploads
  refine ⟨_, hfields, ?_⟩
  rw [contentOfShares, huploads] at hb
  exact hb

theorem exists_payload_asForm (hparams : r.params = .dict es) (htexts : ∀ e ∈ es, IsText e.1)
    (hfiles : ∀ e ∈ es, isFile e.2 = false) :
    (∃ b, payload boundary disk r.asForm = .ok b) ↔ ∀ e ∈ given es, Writable fieldStyle e.2 := by
  constructor
  · rintro ⟨b, hb⟩ e he
    obtain ⟨fields, hfields, -⟩ := form_of_payload hparams hfiles hb
    obtain ⟨f, -, -, hf⟩ := exists_right_of_mem hfields he
    exact writable_of_fieldOctets hf
  · intro h
    have hwritten : ∀ e ∈ es, Writable fieldStyle e.2 := by
      intro e he
      rcases null_or_given he with hnull | hgiven
      · rw [hnull]
        exact Json.writable_null
      · exact h e hgiven
    have hform : r.asForm.params = .dict es := hparams
    obtain ⟨b, hb, -⟩ := exists_payload hform (fun e he => ⟨htexts e he, .inl (hwritten e he)⟩) fun h => by cases h
    exact ⟨b, hb⟩

namespace Passes

theorem not_isFile (hr : Passes r es) : ∀ e ∈ es, isFile e.2 = false := fun e he => (hr.values e he).not_isFile

theorem isJson (hr : Passes r es) {style : Json.Style} (hw : ∀ e ∈ given es, Writable style e.2)
    (hfinite : ∀ e ∈ es, e.2.allFinite = true) : ∀ e ∈ given es, IsText e.1 ∧ e.2.IsJson := fun e he =>
  ⟨hr.texts e (mem_of_given he), (hr.values e (mem_of_given he)).isJson (hw e he) (hfinite e (mem_of_given he))⟩

-- Only numbers that are not finite make a difference.
theorem exists_payload_iff (hr : Passes r es) : (∃ b, payload boundary disk r.asJson = .ok b) ↔
    (∃ b, payload boundary disk r.asForm = .ok b) ∧ ∀ e ∈ es, e.2.allFinite = true := by
  rw [exists_payload_asJson hr.params hr.texts, exists_payload_asForm hr.params hr.texts hr.not_isFile]
  have hstyle : bodyStyle.finiteOnly = true := rfl
  constructor
  · intro h
    refine ⟨fun e he => ((Json.writable_iff_of_finiteOnly hstyle).1 (h e he)).1, fun e he => ?_⟩
    rcases null_or_given he with hnull | hgiven
    · rw [hnull]
      rfl
    · exact (h e hgiven).allFinite hstyle
  · rintro ⟨h, hfinite⟩ e he
    exact (h e he).of_finite (hfinite e (mem_of_given he))

theorem read_asJson (hr : Passes r es) {b : Option (List UInt8 × String)}
    (h : payload boundary disk r.asJson = .ok b) : (b.map (·.1)).bind json? = some (.dict (given es)) := by
  have hfinite := (hr.exists_payload_iff.1 ⟨b, h⟩).2
  have hvalues := hr.isJson ((exists_payload_asJson hr.params hr.texts).1 ⟨b, h⟩) hfinite
  have hdict : (Value.dict (given es)).IsJson := .dict (fun e he => (hvalues e he).1)
    (hr.nodup.sublist (List.filter_sublist.map _)) fun e he => (hvalues e he).2
  rw [payload_asJson hr.params] at h
  obtain ⟨t, ht, rfl⟩ := ok_of_map h
  exact Reading.json?_write hdict (ok_of_orText ht)

theorem read_asForm (hr : Passes r es) (hfinite : ∀ e ∈ es, e.2.allFinite = true) {b : Option (List UInt8 × String)}
    (h : payload boundary disk r.asForm = .ok b) : (b = none ∧ given es = []) ∨
      ∃ fs, (b.map (·.1)).bind line? = some fs ∧
        List.Forall₂ (fun e f => Spells e.1 f.1 ∧ Spells e.2 f.2) (given es) fs := by
  have hvalues := hr.isJson ((exists_payload_asForm hr.params hr.texts hr.not_isFile).1 ⟨b, h⟩) hfinite
  obtain ⟨fields, hfields, hb⟩ := form_of_payload hr.params hr.not_isFile h
  obtain hnone | ⟨octets, fs, rfl, hfs, hread⟩ := line_of_body hvalues hfields hb
  · exact .inl hnone
  · exact .inr ⟨fs, hfs, hread⟩

end Passes

end Encode

open Encode (Passes given payload address)
open Reading (json? line? Spells)

variable {boundary : List Char} {disk : Disk} {r : Request} {es : Entries}

theorem Request.exists_encode_iff : (∃ p, r.encode boundary disk = .ok p) ↔
    (∃ b, payload boundary disk r = .ok b) ∧ (address r).isOk = true := by
  have hencode : (r.encode boundary disk).isOk = (Encode.encoding boundary disk r).isOk := by
    rw [Request.encode]
    cases Encode.encoding boundary disk r <;> rfl
  rw [exists_ok_iff, exists_ok_iff, hencode, Encode.encoding_isOk, Bool.and_eq_true]

theorem Request.encodings_agree (boundary : List Char) (disk : Disk) (hr : Passes r es) :
    (∀ e, r.asJson.encode boundary disk = .error e ∨ r.asForm.encode boundary disk = .error e →
      ∃ f, e = .transport f) ∧
    ((∃ e, r.asJson.encode boundary disk = .error e) ↔
      (∃ e, r.asForm.encode boundary disk = .error e) ∨ ∃ e ∈ es, e.2.allFinite = false) ∧
    ∀ p q, r.asJson.encode boundary disk = .ok p → r.asForm.encode boundary disk = .ok q →
      p.body.bind json? = some (.dict (given es)) ∧
      ((q.body = none ∧ given es = []) ∨ ∃ fs, q.body.bind line? = some fs ∧
        List.Forall₂ (fun e f => Spells e.1 f.1 ∧ Spells e.2 f.2) (given es) fs) := by
  obtain ⟨hs, hheaders⟩ := hr.headers
  refine ⟨fun e he => ?_, ?_, fun p q hp hq => ?_⟩
  · rcases he with he | he
    · exact encode_error (r := r.asJson) hr.params hr.texts hheaders he
    · exact encode_error (r := r.asForm) hr.params hr.texts hheaders he
  · have haddress : address r.asJson = address r.asForm := rfl
    have hfinite : (∃ e ∈ es, e.2.allFinite = false) ↔ ¬ ∀ e ∈ es, e.2.allFinite = true := by simp
    rw [exists_error_iff, exists_error_iff, exists_encode_iff, exists_encode_iff, haddress, hr.exists_payload_iff,
      hfinite]
    tauto
  · obtain ⟨b, hb, hbody⟩ := Encode.exists_payload_of_encoding (encoding_of_encode hp)
    obtain ⟨c, hc, hform⟩ := Encode.exists_payload_of_encoding (encoding_of_encode hq)
    rw [hbody, hform]
    have hfinite := (hr.exists_payload_iff.1 ⟨b, hb⟩).2
    refine ⟨hr.read_asJson hb, ?_⟩
    rcases hr.read_asForm hfinite hc with ⟨rfl, hnone⟩ | hread
    · exact .inl ⟨rfl, hnone⟩
    · exact .inr hread

def poll : Entries :=
  [(.str "question", .str "say \"hi\""), (.str "options", .list [.dict [(.str "text", .str "a")], .null]),
    (.str "open_period", .int (-7)), (.str "explanation", .null), (.str "is_anonymous", .bool true)]

def pollRequest : Request := ⟨"sendPoll", "https://h/", .dict poll, false, .dict [], .null⟩

theorem poll_agrees : Passes pollRequest poll ∧
    ∃ p q, pollRequest.asJson.encode ['b'] .empty = .ok p ∧ pollRequest.asForm.encode ['b'] .empty = .ok q ∧
      p.body.bind json? = some (.dict (given poll)) ∧
      ∃ fs, q.body.bind line? = some fs ∧
        List.Forall₂ (fun e f => Spells e.1 f.1 ∧ Spells e.2 f.2) (given poll) fs := by
  have hoptions : (Value.list [.dict [(.str "text", .str "a")], .null]).IsData := by
    have hoption : (Value.dict [(.str "text", .str "a")]).IsData := by
      refine .dict (by simp) (by simp) ?_
      simpa using .str "a"
    exact .list (by simpa using ⟨hoption, .null⟩)
  have hpasses : Passes pollRequest poll :=
    { params := rfl
      texts := by simp [poll, Encode.IsText]
      nodup := by simp [poll]
      values := by
        intro e he
        simp only [poll, List.mem_cons, List.not_mem_nil, or_false] at he
        rcases he with rfl | rfl | rfl | rfl | rfl
        · exact .str "say \"hi\""
        · exact hoptions
        · exact .int (-7)
        · exact .null
        · exact .bool true
      headers := ⟨[], rfl⟩ }
  obtain ⟨p, hp⟩ : ∃ p, pollRequest.asJson.encode ['b'] .empty = .ok p := ⟨_, rfl⟩
  obtain ⟨q, hq⟩ : ∃ q, pollRequest.asForm.encode ['b'] .empty = .ok q := ⟨_, rfl⟩
  obtain ⟨hjson, hform⟩ := (Request.encodings_agree ['b'] .empty hpasses).2.2 p q hp hq
  exact ⟨hpasses, p, q, hp, hq, hjson, hform.resolve_left fun h => absurd h.2 (by simp [poll, given, Value.isNull])⟩

def latitude : Entries := [(.str "latitude", .float Number.nan)]

def latitudeRequest : Request := ⟨"sendLocation", "https://h/", .dict latitude, false, .dict [], .null⟩

-- JSON has no text for a number that is not finite, and a form sends one all the same.
theorem nan_in_form_only : Passes latitudeRequest latitude ∧
    latitudeRequest.asJson.encode ['b'] .empty = .error (.transport (.unencodable "sendLocation"
      "Out of range float values are not JSON compliant")) ∧
    ∃ p, latitudeRequest.asForm.encode ['b'] .empty = .ok p ∧
      p.body = some (Text.Utf8.encode "latitude=NaN".toList) := by
  have hpasses : Passes latitudeRequest latitude :=
    { params := rfl
      texts := by simp [latitude, Encode.IsText]
      nodup := by simp [latitude]
      values := by simpa [latitude] using .float Number.nan
      headers := ⟨[], rfl⟩ }
  exact ⟨hpasses, rfl, _, rfl, rfl⟩

end Wire

end BotApi
