import BotApi.Proofs.Json.Writable
import BotApi.Proofs.Wire.Received
/-!
Requests that can be encoded: parameters that are readable files or have a JSON text, each under a text. The octets
of the files are then parts of the body.
-/

namespace BotApi.Wire.Encode

open Json (Writable)
open Reading (Holds)
open Schema (isFile)

variable {boundary : List Char} {disk : Disk} {v : Value} {b : List UInt8} {e : Value × Value}

theorem isFile_of_holds (h : Holds disk v b) : isFile v = true := by
  cases h <;> rfl

theorem exists_fieldOctets (h : Writable fieldStyle v) : ∃ b, fieldOctets v = .ok b := by
  by_cases htext : IsText v
  · obtain ⟨s, rfl⟩ := htext
    exact ⟨_, rfl⟩
  · obtain ⟨t, ht⟩ := h
    exact ⟨_, by rw [fieldOctets_of_not_text htext, ht]; rfl⟩

theorem upload?_of_holds (key : String) (h : Holds disk v b) :
    ∃ name : String, upload? disk (.str key) v = .ok (some ⟨.str name, b⟩) := by
  cases h with
  | bytes | buffer => exact ⟨key, rfl⟩
  | path hread => exact ⟨_, by rw [upload?, hread]; rfl⟩
  | stream => exact ⟨_, rfl⟩

def Sendable (disk : Disk) (e : Value × Value) : Prop :=
  IsText e.1 ∧ (Writable fieldStyle e.2 ∨ ∃ b, Holds disk e.2 b)

theorem share_of_holds (key : String) (h : Holds disk v b) :
    ∃ name : String, share disk (.str key, v) = .ok (.inr (.str key, ⟨.str name, b⟩)) := by
  obtain ⟨name, hname⟩ := upload?_of_holds key h
  exact ⟨name, by rw [share, hname]; rfl⟩

def Share.Named : Share → Prop
  | .inl f => IsText f.1
  | .inr f => IsText f.1 ∧ IsText f.2.name

theorem exists_share (h : Sendable disk e) : ∃ s, share disk e = .ok s ∧ Share.Named s := by
  obtain ⟨k, v⟩ := e
  obtain ⟨⟨k, rfl⟩, htext | ⟨b, hb⟩⟩ := h
  · obtain ⟨b, hb⟩ := exists_fieldOctets htext
    exact ⟨.inl (.str k, b), by rw [share, upload?_of_not_isFile htext.not_isFile, Except.bind, hb]; rfl, k, rfl⟩
  · obtain ⟨name, hshare⟩ := share_of_holds k hb
    exact ⟨_, hshare, ⟨k, rfl⟩, name, rfl⟩

theorem exists_fieldPart {f : Value × List UInt8} (h : IsText f.1) : ∃ p, fieldPart f = .ok p := by
  obtain ⟨k, b⟩ := f
  obtain ⟨k, rfl⟩ := h
  exact ⟨_, rfl⟩

theorem exists_filePart {f : Value × Upload} (h : IsText f.1 ∧ IsText f.2.name) : ∃ p, filePart f = .ok p := by
  obtain ⟨k, name, b⟩ := f
  obtain ⟨⟨k, rfl⟩, name, rfl⟩ := h
  exact ⟨_, rfl⟩

theorem exists_body {fields : List (Value × List UInt8)} {files : List (Value × Upload)}
    (hfields : ∀ f ∈ fields, IsText f.1) (hfiles : ∀ f ∈ files, IsText f.1 ∧ IsText f.2.name) :
    ∃ b, body boundary (.form fields files) = .ok b ∧ ∀ f ∈ files, ∃ ps,
      b = some (Form.multipart boundary ps, multipartType boundary) ∧ ∃ p ∈ ps, filePart f = .ok p := by
  cases files with
  | nil => cases fields <;> exact ⟨_, rfl, by simp⟩
  | cons u files =>
      obtain ⟨fs, hfs⟩ := exists_mapM fun f hf => exists_fieldPart (hfields f hf)
      obtain ⟨us, hus⟩ := exists_mapM fun f hf => exists_filePart (hfiles f hf)
      have hparts : parts (.form fields (u :: files)) = .ok (fs ++ us) := by
        rw [parts_files, hfs, Except.bind, hus]
        rfl
      refine ⟨_, by rw [body_files, hparts]; rfl, fun f hf => ⟨fs ++ us, rfl, ?_⟩⟩
      obtain ⟨p, hp, hpart⟩ := exists_right_of_mem (forall₂_of_mapM hus) hf
      exact ⟨p, List.mem_append_right _ hp, hpart⟩

theorem exists_body_of_named {shares : List Share} (h : ∀ s ∈ shares, Share.Named s) :
    ∃ b, body boundary (contentOfShares shares) = .ok b ∧ ∀ f, .inr f ∈ shares → ∃ ps,
      b = some (Form.multipart boundary ps, multipartType boundary) ∧ ∃ p ∈ ps, filePart f = .ok p := by
  have hfields : ∀ f ∈ shares.filterMap Sum.getLeft?, IsText f.1 := by
    intro f hf
    obtain ⟨s, hs, hleft⟩ := List.mem_filterMap.1 hf
    cases Sum.getLeft?_eq_some_iff.1 hleft
    exact h _ hs
  have hfiles : ∀ f ∈ shares.filterMap Sum.getRight?, IsText f.1 ∧ IsText f.2.name := by
    intro f hf
    obtain ⟨s, hs, hright⟩ := List.mem_filterMap.1 hf
    cases Sum.getRight?_eq_some_iff.1 hright
    exact h _ hs
  obtain ⟨b, hb, hparts⟩ := exists_body hfields hfiles
  exact ⟨b, hb, fun f hf => hparts f (List.mem_filterMap.2 ⟨_, hf, rfl⟩)⟩

theorem isNull_of_isFile (h : isFile v = true) : v.isNull = false := by
  cases v with
  | null => cases h
  | _ => rfl

def HasPart (boundary : List Char) (body : Option (List UInt8)) (key : String) (octets : List UInt8) : Prop :=
  ∃ ps, body = some (Form.multipart boundary ps) ∧
    ∃ p ∈ ps, p.name = some key.toList ∧ p.fileName.isSome = true ∧ p.content = octets

theorem exists_form {es : Entries} (hes : ∀ e ∈ es, Sendable disk e) :
    ∃ b, ((formOf disk (given es)).bind (body boundary)) = .ok b ∧ ∀ (k : String) v octets, (.str k, v) ∈ es →
      Holds disk v octets → HasPart boundary (b.map (·.1)) k octets := by
  have hshare : ∀ e ∈ given es, ∃ s, share disk e = .ok s ∧ Share.Named s := fun e he =>
    exists_share (hes e (List.mem_filter.1 he).1)
  obtain ⟨shares, hshares⟩ := exists_mapM fun e he => (hshare e he).imp fun _ h => h.1
  have hall := forall₂_of_mapM hshares
  have hnamed : ∀ s ∈ shares, Share.Named s := by
    intro s hs
    obtain ⟨e, he, hes⟩ := exists_left_of_mem hall hs
    obtain ⟨s', hs', hname⟩ := hshare e he
    cases hes.symm.trans hs'
    exact hname
  obtain ⟨b, hb, hparts⟩ := exists_body_of_named hnamed
  refine ⟨b, by rw [formOf_eq, hshares]; exact hb, fun k v octets hmem hholds => ?_⟩
  have hgiven : (.str k, v) ∈ given es :=
    List.mem_filter.2 ⟨hmem, by rw [isNull_of_isFile (isFile_of_holds hholds)]; rfl⟩
  obtain ⟨s, hs, hkv⟩ := exists_right_of_mem hall hgiven
  obtain ⟨name, hfile⟩ := share_of_holds k hholds
  cases hkv.symm.trans hfile
  obtain ⟨ps, rfl, p, hp, hpart⟩ := hparts _ hs
  cases hpart
  exact ⟨ps, rfl, _, hp, rfl, rfl, rfl⟩

theorem exists_payload {r : Request} {es : Entries} (hparams : r.params = .dict es) (hes : ∀ e ∈ es, Sendable disk e)
    (hjson : r.multipart = false → Writable bodyStyle (.dict es)) :
    ∃ b, payload boundary disk r = .ok b ∧ (r.multipart = true → ∀ (k : String) v octets, (.str k, v) ∈ es →
      Holds disk v octets → HasPart boundary (b.map (·.1)) k octets) := by
  unfold payload contentOf
  rw [hparams]
  dsimp only
  split
  next =>
    obtain ⟨b, hb, hparts⟩ := exists_form hes
    exact ⟨b, hb, fun _ => hparts⟩
  next hbody =>
    have hgiven : Writable bodyStyle (.dict (given es)) :=
      Json.writable_dict.2 fun e he => Json.writable_dict.1 (hjson (by simpa using hbody)) e (List.mem_filter.1 he).1
    obtain ⟨t, ht⟩ := hgiven
    refine ⟨some (Text.Utf8.encode t, jsonType), ?_, fun hmultipart => absurd hmultipart hbody⟩
    change body boundary (.json (given es)) = _
    rw [body, ht]
    rfl

end BotApi.Wire.Encode
