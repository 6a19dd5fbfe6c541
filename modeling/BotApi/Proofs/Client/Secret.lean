import BotApi.Client.Call
import BotApi.Proofs.Text.Split
import BotApi.Proofs.Wire.Encode
/-!
What the errors of sending tell of a bot's token. In an address the mask finds a token wherever `/bot`
stands before it, and no part of the text around it can hide that place, since what the mask matches
has no slash but its first character.
-/

namespace BotApi

namespace Text

theorem isDecimal_of_decimalNumber? {s : List Char} {n : Nat} (h : decimalNumber? s = some n) :
    ∀ c ∈ s, isDecimal c = true := by
  suffices hfold : ∀ acc : Option Nat, s.foldl (fun acc c => do
      let n ← acc
      let d ← decimalValue? c
      pure (10 * n + d)) acc = some n → (∀ c ∈ s, isDecimal c = true) ∧ acc ≠ none from (hfold _ h).1
  clear h
  induction s with
  | nil => exact fun acc h => ⟨by simp, by rw [show acc = some n from h]; simp⟩
  | cons c s ih =>
      intro acc h
      obtain ⟨hs, hne⟩ := ih _ h
      cases acc with
      | none => exact absurd rfl hne
      | some m =>
          cases hd : decimalValue? c with
          | none => simp [hd] at hne
          | some d =>
              refine ⟨fun x hx => ?_, by simp⟩
              rcases List.mem_cons.1 hx with rfl | hx
              · simp [isDecimal, hd]
              · exact hs x hx

end Text

namespace Token

structure Reads (token : String) (digits secret : List Char) : Prop where
  split : Text.splitFirst? [':'] token.toList = some (digits, secret)
  some_secret : secret ≠ []
  chars : ∀ c ∈ secret, isSecretChar c = true

theorem Reads.eq {token : String} {digits secret : List Char} (h : Reads token digits secret) :
    token.toList = digits ++ ':' :: secret := by
  simpa using Text.eq_append_of_splitFirst? h.split

theorem Reads.botId_eq {t₁ t₂ : String} {digits s₁ s₂ : List Char} (h₁ : Reads t₁ digits s₁)
    (h₂ : Reads t₂ digits s₂) : botId t₁ = botId t₂ := by
  unfold botId head?
  rw [h₁.split, h₂.split]

theorem Reads.decimal {token : String} {digits secret : List Char} {n : Nat} (h : Reads token digits secret)
    (hn : botId token = .ok n) : digits ≠ [] ∧ ∀ c ∈ digits, Text.isDecimal c = true := by
  unfold botId head? at hn
  rw [h.split] at hn
  dsimp only at hn
  split at hn
  next => cases hn
  next head hhead =>
    split at hhead
    next hdigits =>
        cases hhead
        refine ⟨by simp at hdigits; exact hdigits.1, ?_⟩
        unfold Text.readableNumber? at hn
        split at hn
        next m hm =>
            split at hm
            · cases hm
            · exact Text.isDecimal_of_decimalNumber? hm
        next => cases hn
    next => cases hhead

theorem inPath?_token {digits secret : List Char} (hne : digits ≠ []) (hdigits : ∀ c ∈ digits, Text.isDecimal c = true)
    (hsecret : secret ≠ []) (hchars : ∀ c ∈ secret, isSecretChar c = true) (b : List Char) :
    inPath? ("/bot".toList ++ (digits ++ ':' :: (secret ++ '/' :: b))) =
      some ⟨"/bot".toList ++ digits ++ ":...".toList, 4 + digits.length + 1 + secret.length⟩ := by
  have hd : (digits ++ ':' :: (secret ++ '/' :: b)).takeWhile Text.isDecimal = digits := by
    rw [Text.takeWhile_append_stop (by decide), List.takeWhile_eq_self_iff.2 hdigits]
  have hs : (secret ++ '/' :: b).takeWhile isSecretChar = secret := by
    rw [Text.takeWhile_append_stop (by decide), List.takeWhile_eq_self_iff.2 hchars]
  unfold inPath?
  rw [Text.dropStart?_append]
  dsimp only [Option.bind_eq_bind, Option.bind_some]
  rw [hd, List.drop_left, List.isEmpty_eq_false_iff.2 hne, Text.dropStart?, if_pos rfl, Text.dropStart?]
  dsimp only [Option.bind_some]
  rw [hs, List.isEmpty_eq_false_iff.2 hsecret]
  rfl

-- Before a slash a match ends, so it does not depend on what follows.
theorem inPath?_append {s : List Char} (hs : s ≠ []) (b : List Char) : inPath? (s ++ '/' :: b) = inPath? s := by
  have hstart : Text.dropStart? "/bot".toList (s ++ '/' :: b) =
      (Text.dropStart? "/bot".toList s).map (· ++ '/' :: b) := by
    cases s with
    | nil => exact absurd rfl hs
    | cons c s =>
        change Text.dropStart? ('/' :: "bot".toList) (c :: (s ++ '/' :: b)) = _
        rw [Text.dropStart?, Text.dropStart?_append_stop (by decide)]
        change _ = (Text.dropStart? ('/' :: "bot".toList) (c :: s)).map _
        rw [Text.dropStart?]
        split <;> rfl
  unfold inPath?
  rw [hstart]
  cases Text.dropStart? "/bot".toList s with
  | none => rfl
  | some rest =>
      have hlength : (rest.takeWhile Text.isDecimal).length ≤ rest.length := (List.takeWhile_sublist _).length_le
      dsimp only [Option.map_some, Option.bind_eq_bind, Option.bind_some]
      rw [Text.takeWhile_append_stop (show Text.isDecimal '/' = false by decide), List.drop_append_of_le_length hlength,
        Text.dropStart?_append_stop (show '/' ∉ [':'] by decide)]
      cases Text.dropStart? [':'] (rest.drop (rest.takeWhile Text.isDecimal).length) with
      | none => rfl
      | some rest =>
          dsimp only [Option.map_some, Option.bind_some]
          rw [Text.takeWhile_append_stop (show isSecretChar '/' = false by decide)]

theorem inPath?_length {s : List Char} {m : Text.Match} (h : inPath? s = some m) : m.length ≤ s.length := by
  unfold inPath? at h
  obtain ⟨rest, hstart, h⟩ := Option.bind_eq_some_iff.1 h
  obtain ⟨-, -, h⟩ := Option.bind_eq_some_iff.1 h
  obtain ⟨rest', hcolon, h⟩ := Option.bind_eq_some_iff.1 h
  obtain ⟨-, -, h⟩ := Option.bind_eq_some_iff.1 h
  cases h
  have hs := congrArg List.length (Text.eq_append_of_dropStart? hstart)
  have hrest := congrArg List.length (Text.eq_append_of_dropStart? hcolon)
  have hdigits : (rest.takeWhile Text.isDecimal).length ≤ rest.length := (List.takeWhile_sublist _).length_le
  have hsecret : (rest'.takeWhile isSecretChar).length ≤ rest'.length := (List.takeWhile_sublist _).length_le
  simp only [List.length_append, List.length_drop, List.length_cons, List.length_nil] at hs hrest
  have hbot : "/bot".toList.length = 4 := rfl
  dsimp only
  omega

def masked (s : List Char) : List Char := Text.rewrite inPath? (fun c => [c]) s

theorem masked_append_slash (s b : List Char) : masked (s ++ '/' :: b) = masked s ++ masked ('/' :: b) :=
  Text.rewriteFrom_append (fun _ h => inPath?_append h b) (fun _ _ => inPath?_length) (Nat.zero_le _)

theorem masked_token {token : String} {digits secret : List Char} {n : Nat} (h : Reads token digits secret)
    (hn : botId token = .ok n) (a b : List Char) :
    masked (a ++ "/bot".toList ++ token.toList ++ '/' :: b) =
      masked a ++ ("/bot".toList ++ digits ++ ":...".toList) ++ masked ('/' :: b) := by
  obtain ⟨hne, hdigits⟩ := h.decimal hn
  have hmatch := inPath?_token hne hdigits h.some_secret h.chars b
  have hhere : masked ("/bot".toList ++ (digits ++ ':' :: (secret ++ '/' :: b))) =
      ("/bot".toList ++ digits ++ ":...".toList) ++ masked ('/' :: b) := by
    have hlength : 4 + digits.length + 1 + secret.length =
        ('/' :: ("bot".toList ++ digits ++ ':' :: secret)).length := by
      simp only [List.length_append, List.length_cons, show "bot".toList.length = 3 from rfl]
      omega
    have hword : "/bot".toList ++ (digits ++ ':' :: (secret ++ '/' :: b)) =
        '/' :: (("bot".toList ++ digits ++ ':' :: secret) ++ '/' :: b) := by
      simp
    rw [hword, hlength] at hmatch
    rw [hword]
    exact Text.rewrite_match hmatch
  calc masked (a ++ "/bot".toList ++ token.toList ++ '/' :: b)
      = masked (a ++ '/' :: ("bot".toList ++ (digits ++ ':' :: (secret ++ '/' :: b)))) := by
        rw [h.eq]
        simp
    _ = masked a ++ masked ("/bot".toList ++ (digits ++ ':' :: (secret ++ '/' :: b))) :=
        masked_append_slash a _
    _ = _ := by simp only [hhere, List.append_assoc]

theorem masked_intercalate {t₁ t₂ : String} {digits s₁ s₂ : List Char} {n₁ n₂ : Nat} (h₁ : Reads t₁ digits s₁)
    (h₂ : Reads t₂ digits s₂) (hn₁ : botId t₁ = .ok n₁) (hn₂ : botId t₂ = .ok n₂) (base path : List Char)
    (pieces : List (List Char)) (a : List Char) :
    masked (a ++ (base ++ "/bot".toList ++ t₁.toList ++ '/' :: path).intercalate pieces) =
      masked (a ++ (base ++ "/bot".toList ++ t₂.toList ++ '/' :: path).intercalate pieces) := by
  induction pieces generalizing a with
  | nil => rfl
  | cons p pieces ih =>
      cases pieces with
      | nil => simp [List.intercalate_singleton]
      | cons q pieces =>
          have hshape (t : String) : a ++ (p ++ (base ++ "/bot".toList ++ t.toList ++ '/' :: path) ++
              (base ++ "/bot".toList ++ t.toList ++ '/' :: path).intercalate (q :: pieces)) =
              (a ++ p ++ base) ++ "/bot".toList ++ t.toList ++ '/' :: (path ++
              (base ++ "/bot".toList ++ t.toList ++ '/' :: path).intercalate (q :: pieces)) := by
            simp
          rw [List.intercalate_cons_cons, List.intercalate_cons_cons, hshape, hshape, masked_token h₁ hn₁,
            masked_token h₂ hn₂]
          exact congrArg _ (ih ('/' :: path))

end Token

namespace Client

def failing (fault : NetworkFault) (pieces : List String) (url : String) : Wire.Transport :=
  .network fun _ => .error (.network fault (url.intercalate pieces))

def failure (c : Client) (setting : Wire.Setting) (method : Method) (params : Entries) (fault : NetworkFault)
    (pieces : List String) : Except Error Wire.Response :=
  ((failing fault pieces (c.request method params).url).send setting (c.request method params)).1

def Addresses (c : Client) (setting : Wire.Setting) (method : Method) : Prop :=
  ((c.request method []).encode setting.boundary setting.disk).isOk = true

instance (c : Client) (setting : Wire.Setting) (method : Method) : Decidable (c.Addresses setting method) :=
  inferInstanceAs (Decidable (_ = true))

theorem ofOptions_ok {own : Wire.Transport} {o : ClientOptions} {token : String} {c : Client}
    (h : ofOptions own { o with token := .str token } = .ok c) :
    c.token = token ∧ nonEmptyText .noServerUrl (o.serverUrl.getD (.str globalServerUrl)) = .ok c.serverUrl ∧
      Token.botId token = .ok c.botId ∧ c.timeout = o.timeout := by
  unfold ofOptions at h
  dsimp only [nonEmptyText] at h
  split at h
  · cases h
  · simp only [bind, Except.bind] at h
    split at h
    · cases h
    next server hserver =>
      split at h
      · cases h
      split at h
      · cases h
      split at h
      · cases h
      next id hid =>
        split at h
        · cases h
        cases h
        exact ⟨rfl, hserver, hid, rfl⟩

theorem Addresses.encoding {c : Client} {setting : Wire.Setting} {method : Method} (h : c.Addresses setting method)
    (params : Entries) :
    (∀ e, Wire.Encode.payload setting.boundary setting.disk (c.request method params) = .error e →
      Wire.Encode.encoding setting.boundary setting.disk (c.request method params) = .error e) ∧
    ∀ b, Wire.Encode.payload setting.boundary setting.disk (c.request method params) = .ok b →
      ∃ p, Wire.Encode.encoding setting.boundary setting.disk (c.request method params) = .ok p ∧
        p.body = b.map (·.1) := by
  refine Wire.Encode.encoding_of_bare (show (c.request method []).url = _ from rfl) rfl ?_
  unfold Addresses Wire.Request.encode at h
  cases hencoding : Wire.Encode.encoding setting.boundary setting.disk (c.request method []) with
  | error e =>
      rw [hencoding] at h
      cases h
  | ok p => rfl

theorem failure_eq {c : Client} {setting : Wire.Setting} {method : Method} (h : c.Addresses setting method)
    (params : Entries) (fault : NetworkFault) (pieces : List String) :
    c.failure setting method params fault pieces =
      match Wire.Encode.payload setting.boundary setting.disk (c.request method params) with
      | .error e => .error (e.error method.name)
      | .ok _ => .error (Wire.networkError method.name
          (.network fault ((c.request method params).url.intercalate pieces))) := by
  obtain ⟨herror, hok⟩ := h.encoding params
  unfold failure failing Wire.Transport.send Wire.Request.encode
  cases hpayload : Wire.Encode.payload setting.boundary setting.disk (c.request method params) with
  | error e => rw [herror e hpayload]; rfl
  | ok b =>
      obtain ⟨p, hp, -⟩ := hok b hpayload
      rw [hp]
      rfl

theorem toList_url (c : Client) (method : Method) (params : Entries) :
    (c.request method params).url.toList = c.serverUrl.toList ++ c.token.toList ++ '/' :: method.name.toList := by
  simp [request]

theorem secret_hidden {own : Wire.Transport} {o : ClientOptions} {t₁ t₂ : String} {c₁ c₂ : Client}
    (h₁ : ofOptions own { o with token := .str t₁ } = .ok c₁) (h₂ : ofOptions own { o with token := .str t₂ } = .ok c₂)
    {digits s₁ s₂ : List Char} (hr₁ : Token.Reads t₁ digits s₁) (hr₂ : Token.Reads t₂ digits s₂)
    (hserver : "/bot".toList <:+ c₁.serverUrl.toList) {setting : Wire.Setting} {method : Method}
    (ha₁ : c₁.Addresses setting method) (ha₂ : c₂.Addresses setting method) {params : Entries}
    (hkeys : ∀ p ∈ params, ∃ name, p.1 = .str name) (fault : NetworkFault) (pieces : List String) :
    (∃ f, c₁.failure setting method params fault pieces = .error (.transport f) ∧
      c₂.failure setting method params fault pieces = .error (.transport f)) ∧
    c₁.describe = c₂.describe := by
  obtain ⟨ht₁, hs₁, hid₁, hw₁⟩ := ofOptions_ok h₁
  obtain ⟨ht₂, hs₂, hid₂, hw₂⟩ := ofOptions_ok h₂
  have hs : c₁.serverUrl = c₂.serverUrl := Except.ok.inj (hs₁.symm.trans hs₂)
  have hid : c₁.botId = c₂.botId := by
    rw [hr₁.botId_eq hr₂] at hid₁
    exact Except.ok.inj (hid₁.symm.trans hid₂)
  refine ⟨?_, ?_⟩
  · have hsame : Wire.Encode.payload setting.boundary setting.disk (c₂.request method params) =
        Wire.Encode.payload setting.boundary setting.disk (c₁.request method params) := rfl
    rw [failure_eq ha₁, failure_eq ha₂, hsame]
    cases hpayload : Wire.Encode.payload setting.boundary setting.disk (c₁.request method params) with
    | error e =>
        cases e with
        | text why => exact ⟨_, rfl, rfl⟩
        | member => exact absurd hpayload (Wire.Encode.told_payload rfl hkeys)
    | ok b =>
        obtain ⟨base, hbase⟩ := hserver
        have hmasked : Token.maskUrl ((c₁.request method params).url.intercalate pieces) =
            Token.maskUrl ((c₂.request method params).url.intercalate pieces) := by
          change String.ofList (Token.masked _) = String.ofList (Token.masked _)
          rw [String.toList_intercalate, String.toList_intercalate, toList_url, toList_url, ← hs, ← hbase, ht₁, ht₂]
          exact congrArg _ (Token.masked_intercalate hr₁ hr₂ hid₁ hid₂ base _ _ [])
        refine ⟨_, rfl, ?_⟩
        rw [hmasked]
        rfl
  · unfold describe Token.mask
    rw [ht₁, ht₂, hid₁, hid₂, hid, hs]

namespace Bots

def method : Method := ⟨"getme", "getMe", "", [], false, []⟩

def options (serverUrl : Option Value) : ClientOptions := ⟨.null, serverUrl, none, .null, none, none, [], .null⟩

def setting : Wire.Setting := ⟨"boundary".toList, .empty⟩

def own : Wire.Transport := failing .connection [] ""

def client (token serverUrl : String) : Client :=
  ⟨token, 1, serverUrl, true, .null, own, true, [], .null⟩

theorem ofOptions_client {token serverUrl : String} (ht : token.isEmpty = false) (hs : serverUrl.isEmpty = false)
    (hid : Token.botId token = .ok 1) :
    ofOptions own { options (some (.str serverUrl)) with token := .str token } = .ok (client token serverUrl) := by
  unfold ofOptions
  simp only [options, nonEmptyText, ht, hs, hid, Option.getD_some, Bool.false_eq_true, if_false, bind, Except.bind,
    flag, chooseTransport, Option.getD_none]
  rfl

theorem reads_secret : Token.Reads "1:SECRET" "1".toList "SECRET".toList :=
  ⟨by decide +kernel, by decide, List.all_eq_true.1 (by decide)⟩

theorem reads_other : Token.Reads "1:OTHER" "1".toList "OTHER".toList :=
  ⟨by decide +kernel, by decide, List.all_eq_true.1 (by decide)⟩

end Bots

theorem secret_hidden_from_requests : ∃ f,
    (Bots.client "1:SECRET" globalServerUrl).failure Bots.setting Bots.method [] .connection ["cannot reach ", ""] =
      .error (.transport f) ∧
    (Bots.client "1:OTHER" globalServerUrl).failure Bots.setting Bots.method [] .connection ["cannot reach ", ""] =
      .error (.transport f) :=
  (secret_hidden (Bots.ofOptions_client (by decide) (by decide) rfl) (Bots.ofOptions_client (by decide) (by decide) rfl)
    Bots.reads_secret Bots.reads_other (by decide) (by decide +kernel) (by decide +kernel) (by simp) .connection
    ["cannot reach ", ""]).1

-- A request whose address names no host cannot be encoded, and the fault shows the address, token included.
theorem secret_shown : ∃ c₁ c₂,
    ofOptions Bots.own { Bots.options (some (.str "https:/api.telegram.org/bot")) with token := .str "1:SECRET" } =
      .ok c₁ ∧
    ofOptions Bots.own { Bots.options (some (.str "https:/api.telegram.org/bot")) with token := .str "1:OTHER" } =
      .ok c₂ ∧
    ∃ f₁ f₂, c₁.failure Bots.setting Bots.method [] .connection [] = .error (.transport f₁) ∧
      c₂.failure Bots.setting Bots.method [] .connection [] = .error (.transport f₂) ∧ f₁.message ≠ f₂.message := by
  refine ⟨Bots.client "1:SECRET" _, Bots.client "1:OTHER" _, Bots.ofOptions_client (by decide) (by decide) rfl,
    Bots.ofOptions_client (by decide) (by decide) rfl, _, _, rfl, rfl, ?_⟩
  decide +kernel

end Client

end BotApi
