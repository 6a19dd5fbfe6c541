import BotApi.Proofs.Result
import BotApi.Wire.Encode
/-!
What a request is encoded to: its body on the one hand, for which the address does not count, and the
address on the other, for which the parameters do not.
-/

namespace BotApi.Wire.Encode

variable {boundary : List Char} {disk : Disk}

def IsText (v : Value) : Prop := ∃ s, v = .str s

theorem fieldOctets_of_not_text {v : Value} (hv : ¬ IsText v) :
    fieldOctets v = (orText Json.Unwritable.message (Json.write fieldStyle v)).map Text.Utf8.encode := by
  cases v with
  | str s => exact absurd ⟨s, rfl⟩ hv
  | _ => rfl

/-! The parameters of a form, each on its own -/

abbrev Share := Sum (Value × List UInt8) (Value × Upload)

def share (disk : Disk) (e : Value × Value) : Encoding Share :=
  (upload? disk e.1 e.2).bind fun
    | some u => .ok (.inr (e.1, u))
    | none => (fieldOctets e.2).map fun b => .inl (e.1, b)

def contentOfShares (shares : List Share) : Content :=
  .form (shares.filterMap Sum.getLeft?) (shares.filterMap Sum.getRight?)

theorem formOf_eq (disk : Disk) (es : Entries) : formOf disk es = (es.mapM (share disk)).map contentOfShares := by
  induction es with
  | nil => rfl
  | cons e es ih =>
      obtain ⟨k, v⟩ := e
      rw [formOf, ih, List.mapM_cons, share]
      cases upload? disk k v with
      | error f => rfl
      | ok found =>
          cases found with
          | some u => cases es.mapM (share disk) <;> rfl
          | none =>
              simp only [bind, Except.bind, Option.isSome, Bool.false_eq_true, if_false]
              cases fieldOctets v with
              | error f => rfl
              | ok b => cases es.mapM (share disk) <;> rfl

/-! Body and address -/

def payload (boundary : List Char) (disk : Disk) (r : Request) : Encoding (Option (List UInt8 × String)) :=
  (contentOf disk r).bind (body boundary)

theorem withCredentials_isOk (url : List Char) (hs hs' : Headers) :
    (withCredentials url hs).isOk = (withCredentials url hs').isOk := by
  unfold withCredentials
  cases Url.credentials? url with
  | error f => rfl
  | ok c =>
      cases c with
      | none => rfl
      | some p =>
          obtain ⟨name, secret⟩ := p
          change ((orText id (Credential.header name secret)).map _).isOk = ((orText id _).map _).isOk
          cases Credential.header name secret <;> rfl

def address (r : Request) : Encoding Headers :=
  (orText UrlFault.message (Url.target r.url)).bind fun url =>
    (headersOf r.headers).bind fun hs => withCredentials url hs

theorem encoding_isOk (boundary : List Char) (disk : Disk) (r : Request) :
    (encoding boundary disk r).isOk = ((payload boundary disk r).isOk && (address r).isOk) := by
  unfold encoding payload address
  cases contentOf disk r with
  | error e => rfl
  | ok content =>
      cases orText UrlFault.message (Url.target r.url) with
      | error e => exact (Bool.and_false _).symm
      | ok url =>
          cases headersOf r.headers with
          | error e => exact (Bool.and_false _).symm
          | ok hs =>
              simp only [bind, Except.bind]
              cases body boundary content with
              | error e => rfl
              | ok b =>
                  rw [← withCredentials_isOk url (withBody hs b) hs]
                  dsimp only
                  cases withCredentials url (withBody hs b) <;> rfl

theorem exists_payload_of_encoding {r : Request} {p : Prepared} (h : encoding boundary disk r = .ok p) :
    ∃ b, payload boundary disk r = .ok b ∧ p.body = b.map (·.1) := by
  obtain ⟨content, hcontent, h⟩ := ok_of_bind h
  obtain ⟨url, -, h⟩ := ok_of_bind h
  obtain ⟨hs, -, h⟩ := ok_of_bind h
  obtain ⟨b, hb, h⟩ := ok_of_bind h
  obtain ⟨hs', -, h⟩ := ok_of_bind h
  cases h
  exact ⟨b, by rw [payload, hcontent]; exact hb, rfl⟩

theorem encoding_of_bare {r bare : Request} (hurl : bare.url = r.url) (hheaders : bare.headers = r.headers)
    (h : (encoding boundary disk bare).isOk = true) :
    (∀ e, payload boundary disk r = .error e → encoding boundary disk r = .error e) ∧
    (∀ b, payload boundary disk r = .ok b → ∃ p, encoding boundary disk r = .ok p ∧ p.body = b.map (·.1)) := by
  obtain ⟨_, -, h⟩ := exists_of_bind h
  obtain ⟨url, htarget, h⟩ := exists_of_bind h
  obtain ⟨hs, hheld, h⟩ := exists_of_bind h
  obtain ⟨bareBody, -, h⟩ := exists_of_bind h
  obtain ⟨_, hcredentials, -⟩ := exists_of_bind h
  rw [hurl] at htarget
  rw [hheaders] at hheld
  unfold payload encoding
  cases contentOf disk r with
  | error e => exact ⟨fun e' he => congrArg _ (Except.error.inj he), nofun⟩
  | ok content =>
      simp only [bind, Except.bind, htarget, hheld]
      cases body boundary content with
      | error e => exact ⟨fun e' he => congrArg _ (Except.error.inj he), nofun⟩
      | ok b =>
          refine ⟨nofun, fun b' hb => ?_⟩
          cases hb
          have hany := withCredentials_isOk url (withBody hs b) (withBody hs bareBody)
          rw [hcredentials] at hany
          cases hok : withCredentials url (withBody hs b) with
          | error e =>
              rw [hok] at hany
              cases hany
          | ok hs =>
              simp only [hok]
              exact ⟨_, rfl, rfl⟩

/-! Faults of the parameters are told -/

def Told {α : Type} (x : Encoding α) : Prop := x ≠ .error .member

theorem told_orText {ε α : Type} (message : ε → String) (r : Except ε α) : Told (orText message r) := by
  cases r <;> exact nofun

theorem told_bind {α β : Type} {x : Encoding α} {f : α → Encoding β} (hx : Told x)
    (hf : ∀ a, x = .ok a → Told (f a)) : Told (x.bind f) := by
  cases x with
  | error e => exact fun h => hx (congrArg _ (Except.error.inj h))
  | ok a => exact hf a rfl

theorem told_map {α β : Type} {x : Encoding α} (g : α → β) (hx : Told x) : Told (x.map g) := by
  cases x with
  | error e => exact fun h => hx (congrArg _ (Except.error.inj h))
  | ok a => exact nofun

theorem told_mapM {α β : Type} {f : α → Encoding β} {l : List α} (h : ∀ a ∈ l, Told (f a)) : Told (l.mapM f) := by
  induction l with
  | nil => exact nofun
  | cons a l ih =>
      rw [List.mapM_cons]
      exact told_bind (h a (by simp)) fun b _ => told_bind (ih fun a ha => h a (by simp [ha])) fun bs _ => nofun

theorem told_partName {v : Value} (hv : IsText v) : Told (partName v) := by
  obtain ⟨s, rfl⟩ := hv
  exact nofun

theorem told_fieldOctets (v : Value) : Told (fieldOctets v) := by
  by_cases hv : IsText v
  · obtain ⟨s, rfl⟩ := hv
    exact nofun
  · rw [fieldOctets_of_not_text hv]
    exact told_map _ (told_orText _ _)

theorem told_upload? (key v : Value) : Told (upload? disk key v) := by
  cases v with
  | path p => exact told_map _ (told_orText _ _)
  | _ => exact nofun

theorem told_share (e : Value × Value) : Told (share disk e) := by
  refine told_bind (told_upload? e.1 e.2) fun found _ => ?_
  cases found with
  | some u => exact nofun
  | none => exact told_map _ (told_fieldOctets e.2)

theorem isText_upload? {key v : Value} {u : Upload} (hkey : IsText key) (h : upload? disk key v = .ok (some u)) :
    IsText u.name := by
  cases v with
  | bytes b | buffer b =>
      cases h
      exact hkey
  | path p =>
      obtain ⟨b, -, hu⟩ := ok_of_map h
      cases hu
      exact ⟨_, rfl⟩
  | stream b name =>
      cases h
      exact ⟨_, rfl⟩
  | _ => cases h

theorem told_parts {e : Value × Value} {s : Share} (hkey : IsText e.1) (h : share disk e = .ok s) :
    (∀ f, s = .inl f → Told (fieldPart f)) ∧ (∀ f, s = .inr f → Told (filePart f)) := by
  obtain ⟨found, hfound, h⟩ := ok_of_bind h
  cases found with
  | none =>
      obtain ⟨b, -, rfl⟩ := ok_of_map h
      refine ⟨fun f hf => ?_, nofun⟩
      cases hf
      exact told_map _ (told_partName hkey)
  | some u =>
      cases h
      refine ⟨nofun, fun f hf => ?_⟩
      cases hf
      exact told_bind (told_partName hkey) fun _ _ =>
        told_bind (told_partName (isText_upload? hkey hfound)) fun _ _ => nofun

theorem told_payload {r : Request} {es : Entries} (hparams : r.params = .dict es) (hkeys : ∀ e ∈ es, IsText e.1) :
    Told (payload boundary disk r) := by
  unfold payload contentOf
  rw [hparams]
  dsimp only
  split
  next hform =>
    rw [formOf_eq]
    refine told_bind (told_map _ (told_mapM fun e _ => told_share e)) fun content hcontent => ?_
    obtain ⟨shares, hshares, rfl⟩ := ok_of_map hcontent
    have hparts : ∀ s ∈ shares, (∀ f, s = .inl f → Told (fieldPart f)) ∧ ∀ f, s = .inr f → Told (filePart f) := by
      intro s hs
      obtain ⟨e, he, hshare⟩ := exists_left_of_mem (forall₂_of_mapM hshares) hs
      exact told_parts (hkeys e (List.mem_filter.1 he).1) hshare
    unfold contentOfShares body
    split
    · cases ‹Content.form _ _ = Content.json _›
    · exact nofun
    · exact nofun
    next heq =>
      cases heq
      refine told_bind (told_mapM fun f hf => ?_) fun _ _ => told_bind (told_mapM fun f hf => ?_) fun _ _ => nofun
      · obtain ⟨s, hs, hleft⟩ := List.mem_filterMap.1 hf
        exact (hparts s hs).1 f (Sum.getLeft?_eq_some_iff.1 hleft)
      · obtain ⟨s, hs, hright⟩ := List.mem_filterMap.1 hf
        exact (hparts s hs).2 f (Sum.getRight?_eq_some_iff.1 hright)
  next => exact told_map _ (told_orText _ _)

theorem told_withCredentials (url : List Char) (hs : Headers) : Told (withCredentials url hs) := by
  refine told_bind (told_orText _ _) fun found _ => ?_
  cases found with
  | none => exact nofun
  | some p => exact told_map _ (told_orText _ _)

theorem told_encoding {r : Request} {es hs : Entries} (hparams : r.params = .dict es) (hkeys : ∀ e ∈ es, IsText e.1)
    (hheaders : r.headers.orEmpty = .dict hs) : Told (encoding boundary disk r) := by
  have hpayload : Told (payload boundary disk r) := told_payload hparams hkeys
  refine told_bind (fun h => hpayload (by rw [payload, h]; rfl)) fun content hcontent => ?_
  refine told_bind (told_orText _ _) fun url _ => ?_
  refine told_bind (by rw [headersOf, hheaders]; exact told_orText _ _) fun hs _ => ?_
  refine told_bind (fun h => hpayload (by rw [payload, hcontent]; exact h)) fun b _ => ?_
  exact told_bind (told_withCredentials _ _) fun _ _ => nofun

end BotApi.Wire.Encode

namespace BotApi.Wire

open Encode (IsText told_encoding)

theorem Request.encoding_of_encode {r : Request} {boundary : List Char} {disk : Disk} {p : Prepared}
    (h : r.encode boundary disk = .ok p) : Encode.encoding boundary disk r = .ok p := by
  rw [encode] at h
  cases hx : Encode.encoding boundary disk r with
  | error e =>
      rw [hx] at h
      cases h
  | ok q =>
      rw [hx] at h
      cases h
      rfl

theorem Request.encode_error {r : Request} {boundary : List Char} {disk : Disk} {es hs : Entries} {e : Error}
    (hparams : r.params = .dict es) (hkeys : ∀ e ∈ es, IsText e.1) (hheaders : r.headers.orEmpty = .dict hs)
    (h : r.encode boundary disk = .error e) : ∃ f, e = .transport f := by
  have htold : Encode.Told (Encode.encoding boundary disk r) := told_encoding hparams hkeys hheaders
  unfold Request.encode at h
  cases hencoding : Encode.encoding boundary disk r with
  | ok p =>
      rw [hencoding] at h
      cases h
  | error fault =>
      rw [hencoding] at h
      cases fault with
      | text why =>
          cases h
          exact ⟨_, rfl⟩
      | member => exact absurd hencoding htold

end BotApi.Wire
