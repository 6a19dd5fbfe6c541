import BotApi.Proofs.Client.Outcome
import BotApi.Proofs.Json.Written
import BotApi.Proofs.Text.Utf8
/-!
Prepared envelopes. An envelope that is sent as a response is read from its body as it was, so a call for which it was
prepared ends in the outcome that the envelope stands for.
-/

namespace BotApi

namespace Json

-- The octets of a mapping with entries are taken for no other encoding.
theorem decodeOctets_encode (s : List Char) :
    decodeOctets (Text.Utf8.encode ('{' :: '"' :: s)) = .ok ('{' :: '"' :: s) := by
  have hdecode : Text.Utf8.decodeLoose (Text.Utf8.encode ('{' :: '"' :: s)) = .ok ('{' :: '"' :: s) :=
    Text.Utf8.decodeFrom_encode true _ _ _ (Nat.le_refl _)
  have hencode : Text.Utf8.encode ('{' :: '"' :: s) = 0x7B :: 0x22 :: Text.Utf8.encode s := rfl
  rw [hencode] at hdecode ⊢
  generalize Text.Utf8.encode s = bs at hdecode ⊢
  rcases bs with _ | ⟨c, _ | ⟨d, bs⟩⟩ <;> exact hdecode

theorem readOctets_write {style : Style} {es : Entries} {t : List Char} (hne : es ≠ [])
    (hes : (Value.dict es).Legible) (h : write style (.dict es) = .ok t) :
    readOctets (Text.Utf8.encode t) = .ok (.dict es) := by
  have hread := read_write hes h
  obtain ⟨u, rfl⟩ : ∃ u, t = '{' :: '"' :: u := by
    obtain ⟨ts, hts, rfl⟩ := write_dict h
    cases hes with
    | dict texts nodup values =>
        cases es with
        | nil => exact absurd rfl hne
        | cons e es =>
            obtain ⟨l, v⟩ := e
            obtain ⟨k, hk⟩ := texts (l, v) List.mem_cons_self
            change l = .str k at hk
            subst hk
            obtain ⟨t, us, -, -, rfl⟩ := writeEntries_cons hts
            obtain ⟨w, hw⟩ := intercalate_head separator (string style.ascii k.toList ++ ':' :: ' ' :: t) us
            rw [hw]
            exact ⟨_, rfl⟩
  rw [readOctets, decodeOctets_encode]
  dsimp only
  rw [hread]

end Json

namespace Envelope

variable {es : Entries}

structure Sendable (es : Entries) : Prop where
  legible : (Value.dict es).Legible
  marked : (es.getText? "ok").isSome = true
  code : ∀ v, es.getText? "error_code" = some v → v.truthy = true → v.integer?.isSome = true

theorem ofValue_integer {v : Value} (h : v.integer?.isSome = true) : ∃ n, Wire.Status.ofValue v = .ok n := by
  cases v with
  | bool b => exact ⟨_, rfl⟩
  | int n => exact ⟨n, rfl⟩
  | _ => cases h

theorem Sendable.exists_status (h : Sendable es) : ∃ n, Wire.Status.ofEnvelope es = .ok n := by
  have hcode : ∃ n, Wire.Status.ofValue (if (Entries.getText es "error_code").truthy then
      Entries.getText es "error_code" else Wire.Status.badRequest) = .ok n := by
    split
    next htruthy =>
      refine ofValue_integer ?_
      cases hget : es.getText? "error_code" with
      | none =>
          rw [Entries.getText, hget] at htruthy
          cases htruthy
      | some v =>
          rw [Entries.getText, hget] at htruthy ⊢
          exact h.code v hget htruthy
    next => exact ⟨_, rfl⟩
  unfold Wire.Status.ofEnvelope
  split
  · exact ⟨_, rfl⟩
  · exact hcode

theorem Sendable.ne_nil (h : Sendable es) : es ≠ [] := by
  rintro rfl
  cases h.marked

-- The body starts with a brace, so it is not taken for an absent one.
theorem exists_not_blank {style : Json.Style} {t : List Char} (h : Json.write style (.dict es) = .ok t) :
    ∃ b ∈ Text.Utf8.encode t, isBlankOctet b = false := by
  obtain ⟨ts, -, rfl⟩ := Json.write_dict h
  exact ⟨0x7B, List.mem_cons_self, by decide⟩

theorem ofResponse_of_not_blank {r : Wire.Response} {v : Value} (hbody : ∃ b ∈ r.body, isBlankOctet b = false)
    (h : Json.readOctets r.body = .ok v) : ofResponse r = .ok v := by
  obtain ⟨b, hb, hblank⟩ := hbody
  have hall : ¬ r.body.all isBlankOctet = true := fun hall => by
    rw [List.all_eq_true.1 hall b hb] at hblank
    cases hblank
  rw [ofResponse, if_neg (by simp [hall]), h]

theorem Sendable.exists_response (h : Sendable es) : ∃ r, Wire.Response.ofEnvelope (.dict es) = .ok r ∧
    (∃ b ∈ r.body, isBlankOctet b = false) ∧ ofResponse r = .ok (.dict es) := by
  obtain ⟨n, hn⟩ := h.exists_status
  obtain ⟨t, ht⟩ : Json.Writable ⟨true, false⟩ (.dict es) := Json.writable_of_legible rfl h.legible
  have hbody := exists_not_blank ht
  refine ⟨⟨n, Text.Utf8.encode t, "", [(.str "Content-Type", .str "application/json")]⟩, ?_, hbody,
    ofResponse_of_not_blank hbody (Json.readOctets_write h.ne_nil h.legible ht)⟩
  simp only [Wire.Response.ofEnvelope, hn, Except.bind, ht]

end Envelope

namespace Client

variable {c : Client} {setting : Wire.Setting} {m : Method} {override params v : Value} {s s' : ClientState}
  {o : CallOptions} {callbacks : Callbacks} {out : Outcome} {response : Wire.Response}

inductive Answered (c : Client) (setting : Wire.Setting) (m : Method) (override params : Value) (s : ClientState)
    (v : Value) : ClientState → Prop
  | handed {rs es s₁ r p canned} (prepared : c.transport = .canned rs) (passes : Passes c m override params s es s₁)
      (hooked : c.hooked (c.request m es) = .ok r) (encode : r.encode setting.boundary setting.disk = .ok p)
      (found : rs.find r = .ok canned) (answer : canned.answerTo r = .ok (.value v)) :
      Answered c setting m override params s v { s₁ with sent := s₁.sent ++ [.request r] }

theorem Answered.stages (h : Answered c setting m override params s v s')
    (hresponse : Wire.Response.ofEnvelope v = .ok response) :
    c.stages setting m override params s = interpret response s' := by
  cases h with
  | @handed rs es s₁ r p canned prepared passes hooked encode found answer =>
      have hanswer : rs.answer r = .ok response := by
        simp only [Wire.Responses.answer, found, answer, bind, Except.bind, Wire.Answer.response?, hresponse]
      have hsend : c.send setting m es s₁ = (.ok (.ok response), { s₁ with sent := s₁.sent ++ [.request r] }) := by
        simp only [send, hooked, Wire.Transport.send, prepared, encode, hanswer]
      rw [passes.stages, Stage.followedBy, hsend]

theorem Answered.call (hprepare : prepare s o = .ok (m, callbacks, params))
    (h : Answered c setting m o.policy params s v s') (hresponse : Wire.Response.ofEnvelope v = .ok response)
    (hdecode : Envelope.ofResponse response = .ok v) (hout : Outcome.ofEnvelope v = .ok out) :
    c.call setting s o = (out.reply m.name params callbacks, s') := by
  have hstages := h.stages hresponse
  rw [interpret_envelope hdecode, hout] at hstages
  simp only [Client.call, hprepare, hstages]
  rfl

end Client

theorem Outcome.exists_of_marked {es : Entries} (h : (es.getText? "ok").isSome = true) :
    ∃ out, Outcome.ofEnvelope (.dict es) = .ok out := by
  have hvalid : Envelope.isValid (.dict es) = true := h
  exact ⟨_, by rw [Outcome.ofEnvelope, if_pos hvalid]⟩

theorem envelope_received {es : Entries} (h : Envelope.Sendable es) : ∃ r out,
    Wire.Response.ofEnvelope (.dict es) = .ok r ∧ (∃ b ∈ r.body, Envelope.isBlankOctet b = false) ∧
    Envelope.ofResponse r = .ok (.dict es) ∧ Outcome.ofEnvelope (.dict es) = .ok out ∧
    ∀ (c : Client) (setting : Wire.Setting) (s s' : ClientState) (o : CallOptions) (m : Method) (callbacks : Callbacks)
      (params : Value), Client.prepare s o = .ok (m, callbacks, params) →
      Client.Answered c setting m o.policy params s (.dict es) s' →
      c.call setting s o = (out.reply m.name params callbacks, s') := by
  obtain ⟨r, hresponse, hbody, hdecode⟩ := h.exists_response
  obtain ⟨out, hout⟩ := Outcome.exists_of_marked h.marked
  exact ⟨r, out, hresponse, hbody, hdecode, hout, fun c setting s s' o m callbacks params hprepare hanswered =>
    hanswered.call hprepare hresponse hdecode hout⟩

namespace Muted

def envelope : Entries :=
  [(.str "ok", .bool false), (.str "error_code", .int 403), (.str "description", .str "\"muted\" \x01 😀\n"),
    (.str "parameters", .dict [(.str "ids", .list [.int (-10 ^ 30), .null]), (.str "", .dict [])])]

def method : Method := ⟨"getme", "getMe", "", [], false, []⟩

def client : Client where
  token := "1:A"
  botId := 1
  serverUrl := Client.globalServerUrl
  limitRate := false
  policy := .null
  transport := .canned (.byMethod [("getMe", .answer (.value (.dict envelope)))])
  ownsTransport := false
  hooks := []
  timeout := .null

def start : ClientState := ⟨.new ⟨[method], []⟩, .new Limit.defaultStripes, ⟨0, none⟩, []⟩

def callbacks : Callbacks := ⟨.ignore, .call fun _ => .ok (.str "muted"), .ignore⟩

def options : CallOptions where
  method := "get_me"
  params := .null
  onSuccess := .slot callbacks.onSuccess
  onFailure := .slot callbacks.onFailure
  onError := .slot callbacks.onError
  policy := .null

theorem legible : (Value.dict envelope).Legible := by
  have hids : (Value.list [.int (-10 ^ 30), .null]).Legible := .list (by
    intro v hv
    rcases List.mem_pair.1 hv with rfl | rfl
    · exact .int (by decide +kernel)
    · exact .null)
  have hparameters : (Value.dict [(.str "ids", .list [.int (-10 ^ 30), .null]), (.str "", .dict [])]).Legible :=
    .dict (by simp) (by simp) (by
      intro e he
      rcases List.mem_pair.1 he with rfl | rfl
      · exact hids
      · exact .dict (by simp) (by simp) (by simp))
  refine .dict (by simp [envelope]) (by simp [envelope]) fun e he => ?_
  simp only [envelope, List.mem_cons, List.not_mem_nil, or_false] at he
  rcases he with rfl | rfl | rfl | rfl
  · exact .bool false
  · exact .int (by decide +kernel)
  · exact .str _
  · exact hparameters

theorem sendable : Envelope.Sendable envelope where
  legible := legible
  marked := by decide +kernel
  code := by
    intro v hv _
    have hcode : envelope.getText? "error_code" = some (.int 403) := by simp [envelope]
    obtain rfl : Value.int 403 = v := Option.some.inj (hcode.symm.trans hv)
    rfl

theorem answered : ∃ s', Client.Answered client ⟨[], .empty⟩ method .null .null start (.dict envelope) s' := by
  have hrun : ((Work.validateParams method .null).run start.compiler).1 = .ok [] := rfl
  have passes : Client.Passes client method .null .null start [] _ := .unlimited (Prod.ext hrun rfl) rfl
  obtain ⟨p, hp⟩ : ∃ p, (client.request method []).encode [] .empty = .ok p :=
    exists_ok_iff.2 (by decide +kernel)
  exact ⟨_, .handed rfl passes rfl hp rfl rfl⟩

end Muted

theorem muted_received : Envelope.Sendable Muted.envelope ∧ ∃ r s',
    Wire.Response.ofEnvelope (.dict Muted.envelope) = .ok r ∧
    Envelope.ofResponse r = .ok (.dict Muted.envelope) ∧
    Muted.client.call ⟨[], .empty⟩ Muted.start Muted.options =
      (⟨.ok (.str "muted"), [], [.failure "getMe" .null (.dict Muted.envelope)]⟩, s') := by
  obtain ⟨r, out, hresponse, -, hdecode, hout, hcall⟩ := envelope_received Muted.sendable
  have hfailure : Outcome.ofEnvelope (.dict Muted.envelope) = .ok (.failure (.dict Muted.envelope)) := by
    simp [Outcome.ofEnvelope, Envelope.isValid, Envelope.isSuccessful, Value.entries?, Muted.envelope]
  obtain rfl : Outcome.failure (.dict Muted.envelope) = out := Except.ok.inj (hfailure.symm.trans hout)
  obtain ⟨s', hanswered⟩ := Muted.answered
  exact ⟨Muted.sendable, r, s', hresponse, hdecode,
    hcall Muted.client ⟨[], .empty⟩ Muted.start s' Muted.options Muted.method Muted.callbacks .null rfl hanswered⟩

end BotApi
