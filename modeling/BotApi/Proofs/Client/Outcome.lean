import BotApi.Proofs.Client.HandOver
import BotApi.Proofs.Draft.Parameters
import BotApi.Proofs.Limit.Waiting
/-!
How calls end whose responses are prepared. The first stage that fails decides the course of a call, and
the slot for its outcome alone decides the reply.
-/

namespace BotApi

open Limit (Fits defaultPolicy)

namespace Envelope

theorem isTransport_of_ofResponse {r : Wire.Response} {e : Error} (h : ofResponse r = .error e) :
    Client.isTransport e = true := by
  unfold ofResponse at h
  split at h
  · cases h
  · split at h <;> cases h
    rfl

theorem present_ok (es : Entries) (keys : List String) :
    ∃ found, present (.dict es) keys = .ok found := by
  induction keys with
  | nil => exact ⟨[], rfl⟩
  | cons k ks ih =>
      obtain ⟨found, hfound⟩ := ih
      cases hk : Entries.getText? es k with
      | none => exact ⟨found, by simp [present, Value.mentions, hk, hfound, Except.bind]⟩
      | some v =>
          refine ⟨(.str k, v) :: found, ?_⟩
          simp [present, Value.mentions, Value.required, hk, hfound, Except.bind, Except.map]

theorem error?_ok {v : Value} (h : isValid v = true) : ∃ reason, error? v = .ok reason := by
  cases v with
  | dict es =>
      unfold error?
      split
      · exact ⟨_, rfl⟩
      · obtain ⟨found, hfound⟩ := present_ok es reasonKeys
        exact ⟨some found, by rw [hfound]; rfl⟩
  | _ => cases h

end Envelope

namespace Client

def normal (given : Value) : Value := if given.isNull then .null else given.withUnderscores

theorem paramsOf_normal {given : Value} (h : given = .null ∨ ∃ es, given = .dict es) :
    paramsOf given = .ok (normal given) := by
  rcases h with rfl | ⟨es, rfl⟩ <;> rfl

inductive End where
  | outcome (o : Outcome)
  | fatal (e : Error)

def End.ofStages : Except Error (Kept Outcome) → End
  | .ok kept => .outcome (outcomeOf kept)
  | .error e => .fatal e

def End.reply (method : String) (params : Value) (callbacks : Callbacks) : End → Reply
  | .outcome o => o.reply method params callbacks
  | .fatal e => ⟨.error e, [], []⟩

section Course

variable (c : Client) (setting : Wire.Setting) (m : Method) (override params : Value)
  (s : ClientState)

inductive Passes : Entries → ClientState → Prop
  | unlimited {es k} (checked : (Work.validateParams m params).run s.compiler = (.ok es, k))
      (off : c.limitRate = false) : Passes es { s with compiler := k }
  | permitted {es k r t} (checked : (Work.validateParams m params).run s.compiler = (.ok es, k))
      (on : c.limitRate = true) (waited : c.acquire m override es { s with compiler := k } =
        (.ok (), { s with compiler := k, registry := r, clock := t })) :
      Passes es { s with compiler := k, registry := r, clock := t }

inductive Sends (rs : Wire.Responses) : Except Error Wire.Response → ClientState → Prop
  | handed {es s₁ p} (passes : Passes c m override params s es s₁)
      (encode : (c.request m es).encode setting.boundary setting.disk = .ok p) :
      Sends rs (rs.answer (c.request m es))
        { s₁ with sent := s₁.sent ++ [.request (c.request m es)] }

inductive Course (rs : Wire.Responses) : End → ClientState → Prop
  | invalid {is k} (checked : (Work.validateParams m params).run s.compiler =
      (.error (.invalid is), k)) :
      Course rs (.outcome (.error (.invalidParams m.name is))) { s with compiler := k }
  | interrupted {es k r t text} (checked : (Work.validateParams m params).run s.compiler = (.ok es, k))
      (on : c.limitRate = true) (waited : c.acquire m override es { s with compiler := k } =
        (.error (.interrupted text), { s with compiler := k, registry := r, clock := t })) :
      Course rs (.outcome (.error (.interrupted text)))
        { s with compiler := k, registry := r, clock := t }
  -- No limiter can be made of the policies, or none for the chat.
  | barred {es k r t e} (checked : (Work.validateParams m params).run s.compiler = (.ok es, k))
      (on : c.limitRate = true) (waited : c.acquire m override es { s with compiler := k } =
        (.error e, { s with compiler := k, registry := r, clock := t }))
      (other : isInterrupted e = false) (unfit : ¬ Fits s.registry m.name (Entries.getText es "chat_id")
        [override, c.policy, defaultPolicy]) :
      Course rs (.fatal e) { s with compiler := k, registry := r, clock := t }
  | unencodable {es s₁ e} (passes : Passes c m override params s es s₁)
      (encode : (c.request m es).encode setting.boundary setting.disk = .error e) :
      Course rs (.outcome (.error e)) s₁
  | refused {e s'} (sends : Sends c setting m override params s rs (.error e) s') :
      Course rs (.outcome (.error e)) s'
  | undecodable {response e s'} (sends : Sends c setting m override params s rs (.ok response) s')
      (decode : Envelope.ofResponse response = .error e) : Course rs (.outcome (.error e)) s'
  | malformed {response v s'} (sends : Sends c setting m override params s rs (.ok response) s')
      (decode : Envelope.ofResponse response = .ok v) (valid : Envelope.isValid v = false) :
      Course rs (.fatal (.malformed s!"Malformed Telegram Bot API response: {v.quotedText}")) s'
  | success {response es s'} (sends : Sends c setting m override params s rs (.ok response) s')
      (decode : Envelope.ofResponse response = .ok (.dict es))
      (ok : Entries.getText? es "ok" = some (.bool true)) :
      Course rs (.outcome (.success (Entries.getText es "result") (.dict es))) s'
  | failure {response es v s'} (sends : Sends c setting m override params s rs (.ok response) s')
      (decode : Envelope.ofResponse response = .ok (.dict es))
      (ok : Entries.getText? es "ok" = some v) (other : v ≠ .bool true) :
      Course rs (.outcome (.failure (.dict es))) s'

end Course

variable {c : Client} {setting : Wire.Setting} {m : Method} {override params : Value}
  {s s' : ClientState} {es : Entries} {rs : Wire.Responses} {e : End}

theorem acquire_state (c : Client) (m : Method) (override : Value) (s : ClientState) (es : Entries) :
    ∃ r t, (c.acquire m override es s).2 = { s with registry := r, clock := t } := by
  unfold acquire
  dsimp only
  split <;> exact ⟨_, _, rfl⟩

theorem acquire_error {err : Error} (tidy : s.registry.Tidy)
    (fits : Fits s.registry m.name (Entries.getText es "chat_id") [override, c.policy, defaultPolicy])
    (h : c.acquire m override es s = (.error err, s')) : ∃ text, err = .interrupted text := by
  obtain ⟨ls, r, hls, tidy', hmem⟩ := Limit.Registry.limitersFor_ok c.botId tidy fits
  simp only [acquire, hls] at h
  obtain ⟨res, r', t, hall⟩ : ∃ res r' t, r.acquireAll s.clock ls = (res, r', t) := ⟨_, _, _, rfl⟩
  rw [hall] at h
  obtain rfl : res = .error err := (Prod.mk.inj h).1
  exact Limit.Registry.acquireAll_error tidy' hmem hall

theorem validate_ok {k : Compiler}
    (h : (Work.validateParams m params).run s.compiler = (.ok es, k)) :
    validate m params s = (.ok (.ok es), { s with compiler := k }) := by
  rw [validate, h]
  rfl

theorem limit_on (on : c.limitRate = true) {res : Except Error Unit}
    (h : c.acquire m override es s = (res, s')) :
    c.limit m override es s = (Stage.attempt isInterrupted (res.map fun _ => es), s') := by
  simp only [limit, on, ↓reduceIte, h]

theorem Passes.stages (h : Passes c m override params s es s') :
    c.stages setting m override params s = (c.send setting m).followedBy interpret es s' := by
  have hlimit : ∃ s₁, validate m params s = (.ok (.ok es), s₁) ∧
      c.limit m override es s₁ = (.ok (.ok es), s') := by
    cases h with
    | unlimited checked off => exact ⟨_, validate_ok checked, by simp [limit, off]⟩
    | permitted checked on waited => exact ⟨_, validate_ok checked, limit_on on waited⟩
  obtain ⟨s₁, hvalidate, hlimit⟩ := hlimit
  simp only [Client.stages, Stage.followedBy, hvalidate, hlimit]

theorem send_error (hcanned : c.transport = .canned rs) (hhooks : c.hooks = []) {err : Error}
    (h : (c.request m es).encode setting.boundary setting.disk = .error err) :
    c.send setting m es s = (.ok (.error err), s) := by
  simp [send, hooked, hhooks, hcanned, Wire.Transport.send, h, pure, Except.pure]

theorem Sends.stages {answer : Except Error Wire.Response} (hcanned : c.transport = .canned rs)
    (hhooks : c.hooks = []) (h : Sends c setting m override params s rs answer s') :
    (∀ err, answer = .error err →
      c.stages setting m override params s = (.ok (.error err), s')) ∧
    ∀ response, answer = .ok response →
      c.stages setting m override params s = interpret response s' := by
  cases h with
  | @handed es s₁ p passes encode =>
      have hsend : c.send setting m es s₁ = (.ok (rs.answer (c.request m es)),
          { s₁ with sent := s₁.sent ++ [.request (c.request m es)] }) := by
        simp [send, hooked, hhooks, hcanned, Wire.Transport.send, encode, pure, Except.pure]
      rw [passes.stages, Stage.followedBy, hsend]
      exact ⟨fun err h => by rw [h], fun response h => by rw [h]⟩

theorem interpret_error {response : Wire.Response} {err : Error}
    (decode : Envelope.ofResponse response = .error err) :
    interpret response s = (.ok (.error err), s) := by
  simp only [interpret, decode, Envelope.isTransport_of_ofResponse decode, ↓reduceIte]

theorem interpret_envelope {response : Wire.Response} {v : Value}
    (decode : Envelope.ofResponse response = .ok v) :
    interpret response s = ((Outcome.ofEnvelope v).map .ok, s) := by
  rw [interpret, decode]

theorem isSuccessful_iff {es : Entries} :
    Envelope.isSuccessful (.dict es) = true ↔ Entries.getText? es "ok" = some (.bool true) := by
  unfold Envelope.isSuccessful
  dsimp only
  split
  · rename_i b hb
    simp [hb]
  · rename_i hother
    simpa using hother true

theorem Course.stages (hcanned : c.transport = .canned rs) (hhooks : c.hooks = [])
    (h : Course c setting m override params s rs e s') :
    End.ofStages (c.stages setting m override params s).1 = e ∧
      (c.stages setting m override params s).2 = s' := by
  cases h with
  | invalid checked =>
      rw [Client.stages, Stage.followedBy, Stage.followedBy, Stage.followedBy, validate, checked]
      exact ⟨rfl, rfl⟩
  | interrupted checked on waited =>
      simp only [Client.stages, Stage.followedBy, validate_ok checked, limit_on on waited]
      exact ⟨rfl, rfl⟩
  | barred checked on waited other unfit =>
      simp only [Client.stages, Stage.followedBy, validate_ok checked, limit_on on waited,
        Except.map, Stage.attempt, other]
      exact ⟨rfl, rfl⟩
  | unencodable passes encode =>
      rw [passes.stages, Stage.followedBy, send_error hcanned hhooks encode]
      exact ⟨rfl, rfl⟩
  | refused sends =>
      rw [(sends.stages hcanned hhooks).1 _ rfl]
      exact ⟨rfl, rfl⟩
  | undecodable sends decode =>
      rw [(sends.stages hcanned hhooks).2 _ rfl, interpret_error decode]
      exact ⟨rfl, rfl⟩
  | malformed sends decode valid =>
      rw [(sends.stages hcanned hhooks).2 _ rfl, interpret_envelope decode, Outcome.ofEnvelope, valid]
      exact ⟨rfl, rfl⟩
  | @success response es s' sends decode ok =>
      have hvalid : Envelope.isValid (.dict es) = true := by
        simp [Envelope.isValid, Value.entries?, ok]
      rw [(sends.stages hcanned hhooks).2 _ rfl, interpret_envelope decode, Outcome.ofEnvelope,
        if_pos hvalid, if_pos (isSuccessful_iff.2 ok), Envelope.result, if_pos (isSuccessful_iff.2 ok)]
      exact ⟨rfl, rfl⟩
  | @failure response es v s' sends decode ok other =>
      have hvalid : Envelope.isValid (.dict es) = true := by
        simp [Envelope.isValid, Value.entries?, ok]
      have hfailed : ¬ Envelope.isSuccessful (.dict es) = true := by
        rw [isSuccessful_iff, ok]
        exact fun h => other (Option.some.inj h)
      rw [(sends.stages hcanned hhooks).2 _ rfl, interpret_envelope decode, Outcome.ofEnvelope,
        if_pos hvalid, if_neg hfailed]
      exact ⟨rfl, rfl⟩

theorem Sends.exists_course {answer : Except Error Wire.Response}
    (h : Sends c setting m override params s rs answer s') :
    ∃ e, Course c setting m override params s rs e s' := by
  cases answer with
  | error err => exact ⟨_, .refused h⟩
  | ok response =>
      cases decode : Envelope.ofResponse response with
      | error err => exact ⟨_, .undecodable h decode⟩
      | ok v =>
          cases valid : Envelope.isValid v with
          | false => exact ⟨_, .malformed h decode valid⟩
          | true =>
              cases v with
              | dict es =>
                  obtain ⟨v, ok⟩ := Option.isSome_iff_exists.1 valid
                  by_cases htrue : v = .bool true
                  · exact ⟨_, .success h decode (htrue ▸ ok)⟩
                  · exact ⟨_, .failure h decode ok htrue⟩
              | _ => cases valid

theorem Passes.exists_course (h : Passes c m override params s es s') :
    ∃ e s₁, Course c setting m override params s rs e s₁ := by
  cases encode : (c.request m es).encode setting.boundary setting.disk with
  | error err => exact ⟨_, _, .unencodable h encode⟩
  | ok p =>
      have hsends : Sends c setting m override params s rs _ _ := .handed h encode
      obtain ⟨e, he⟩ := hsends.exists_course
      exact ⟨e, _, he⟩

theorem exists_course (compiles : s.compiler.compiles m = true) (tidy : s.registry.Tidy) :
    ∃ e s', Course c setting m override params s rs e s' := by
  obtain ⟨k, ⟨es, checked⟩ | ⟨is, checked⟩⟩ := Compiler.checked_of_compiles compiles params
  · cases on : c.limitRate with
    | false => exact (Passes.unlimited checked on).exists_course
    | true =>
        obtain ⟨r, t, hstate⟩ := acquire_state c m override { s with compiler := k } es
        have waited : c.acquire m override es { s with compiler := k } =
            ((c.acquire m override es { s with compiler := k }).1,
              { s with compiler := k, registry := r, clock := t }) := Prod.ext rfl hstate
        rcases hres : (c.acquire m override es { s with compiler := k }).1 with err | ⟨⟩
        · rw [hres] at waited
          by_cases hinterrupted : ∃ text, err = .interrupted text
          · obtain ⟨text, rfl⟩ := hinterrupted
            exact ⟨_, _, .interrupted checked on waited⟩
          · refine ⟨_, _, .barred checked on waited ?_ fun fits => ?_⟩
            · cases err with
              | interrupted text => exact absurd ⟨text, rfl⟩ hinterrupted
              | _ => rfl
            · exact hinterrupted (acquire_error (s := { s with compiler := k }) tidy fits waited)
        · rw [hres] at waited
          exact (Passes.permitted checked on waited).exists_course
  · exact ⟨_, _, .invalid checked⟩

-- What comes of an end, with the slot for it: a callback is told of it, or nobody is.
inductive Answers (callbacks : Callbacks) (method : String) (params : Value) : End → Reply → Prop
  | told {o f} (slot : o.slot callbacks = .call f) : Answers callbacks method params (.outcome o)
      ⟨f (o.occasion method params), [], [o.occasion method params]⟩
  | ignored {o} (slot : o.slot callbacks = .ignore) :
      Answers callbacks method params (.outcome o) ⟨.ok .null, [], []⟩
  | result {v envelope} (slot : callbacks.onSuccess = .default) :
      Answers callbacks method params (.outcome (.success v envelope)) ⟨.ok v, [], []⟩
  | refused {envelope note} (slot : callbacks.onFailure = .default)
      (noted : Reply.failureNote Reply.failureText Reply.errorLevel method params envelope = .ok note) :
      Answers callbacks method params (.outcome (.failure envelope))
        ⟨.error (.failure Reply.failureText method params envelope), [note], []⟩
  | failed {cause} (slot : callbacks.onError = .default) :
      Answers callbacks method params (.outcome (.error cause))
        ⟨.error (.call Reply.errorText method params cause),
          [Reply.errorNote Reply.errorText Reply.errorLevel method params], []⟩
  | fatal {err} : Answers callbacks method params (.fatal err) ⟨.error err, [], []⟩

variable {callbacks : Callbacks} {method : String}

theorem Answers.told_length {reply : Reply} (h : Answers callbacks method params e reply) :
    reply.told.length ≤ 1 := by
  cases h <;> simp

theorem answers_default {o : Outcome} (h : o.slot callbacks = .default)
    (henvelope : ∀ v, o = .failure v → Envelope.isValid v = true) :
    Answers callbacks method params (.outcome o) (o.reply method params callbacks) := by
  cases o with
  | success v envelope =>
      simp only [Outcome.reply, h]
      exact .result h
  | failure v =>
      obtain ⟨reason, hreason⟩ := Envelope.error?_ok (henvelope v rfl)
      obtain ⟨note, hnote⟩ : ∃ note, Reply.failureNote Reply.failureText Reply.errorLevel method
          params v = .ok note := ⟨_, by rw [Reply.failureNote, hreason]; rfl⟩
      simp only [Outcome.reply, h, Reply.unhandled, Reply.unhandledFailure, hnote]
      exact .refused h hnote
  | error cause =>
      simp only [Outcome.reply, h]
      exact .failed h

theorem Course.answers (h : Course c setting m override params s rs e s') :
    Answers callbacks method params e (e.reply method params callbacks) := by
  cases e with
  | fatal err => exact .fatal
  | outcome o =>
      rw [End.reply]
      cases hslot : o.slot callbacks with
      | call f =>
          simp only [Outcome.reply, hslot]
          exact .told hslot
      | ignore =>
          simp only [Outcome.reply, hslot]
          exact .ignored hslot
      | default =>
          refine answers_default hslot fun v hv => ?_
          subst hv
          cases h with
          | failure sends decode ok other => simp [Envelope.isValid, Value.entries?, ok]

end Client

theorem call_outcome {c : Client} (setting : Wire.Setting) {s : ClientState} {o : CallOptions}
    {rs : Wire.Responses} {m : Method} {callbacks : Callbacks}
    (hcanned : c.transport = .canned rs) (hhooks : c.hooks = [])
    (hmethod : s.compiler.spec.find o.method = .ok m)
    (hparams : o.params = .null ∨ ∃ es, o.params = .dict es)
    (hslots : Callbacks.ofChoices o.onSuccess o.onFailure o.onError = .ok callbacks)
    (hpolicy : Limit.checkPolicy? o.policy = .ok ())
    (compiles : s.compiler.compiles m = true) (tidy : s.registry.Tidy) :
    ∃ e s', Client.Course c setting m o.policy (Client.normal o.params) s rs e s' ∧
      (∀ e₁ s₁, Client.Course c setting m o.policy (Client.normal o.params) s rs e₁ s₁ →
        e₁ = e ∧ s₁ = s') ∧
      (c.call setting s o).2 = s' ∧
      Client.Answers callbacks m.name (Client.normal o.params) e (c.call setting s o).1 ∧
      (c.call setting s o).1.told.length ≤ 1 := by
  obtain ⟨e, s', hcourse⟩ : ∃ e s',
      Client.Course c setting m o.policy (Client.normal o.params) s rs e s' :=
    Client.exists_course compiles tidy
  obtain ⟨hend, hstate⟩ := hcourse.stages hcanned hhooks
  have hprepare : Client.prepare s o = .ok (m, callbacks, Client.normal o.params) := by
    simp [Client.prepare, hmethod, hslots, Client.paramsOf_normal hparams, hpolicy, bind, Except.bind,
      pure, Except.pure]
  have hcall : c.call setting s o =
      (e.reply m.name (Client.normal o.params) callbacks, s') := by
    obtain ⟨r, s₁, hr⟩ : ∃ r s₁, c.stages setting m o.policy (Client.normal o.params) s = (r, s₁) :=
      ⟨_, _, rfl⟩
    rw [hr] at hend hstate
    obtain rfl : s₁ = s' := hstate
    simp only [Client.call, hprepare, hr]
    cases r <;> rw [← hend] <;> rfl
  have hanswers : Client.Answers callbacks m.name (Client.normal o.params) e
      (e.reply m.name (Client.normal o.params) callbacks) := hcourse.answers
  refine ⟨e, s', hcourse, fun e₁ s₁ h₁ => ?_, by rw [hcall], by rw [hcall]; exact hanswers, ?_⟩
  · obtain ⟨hend₁, hstate₁⟩ := h₁.stages hcanned hhooks
    exact ⟨hend₁.symm.trans hend, hstate₁.symm.trans hstate⟩
  · rw [hcall]
    exact hanswers.told_length

namespace Refused

def method : Method where
  id := "sendmessage"
  name := "sendMessage"
  description := ""
  params := [⟨"chat_id", .basic "Integer", true, "", none, false⟩,
    ⟨"text", .basic "String", true, "", none, false⟩]
  uploadsFile := false
  jsonSerializedParams := []

def responses : Wire.Responses := .byMethod [("sendMessage", .answer (.value (.ofFields
  [("ok", .bool false), ("error_code", .int 400), ("description", .str "chat not found")])))]

def client : Client where
  token := "1:A"
  botId := 1
  serverUrl := Client.globalServerUrl
  limitRate := true
  policy := .null
  transport := .canned responses
  ownsTransport := false
  hooks := []
  timeout := .null

def start : ClientState := ⟨.new ⟨[method], []⟩, .new Limit.defaultStripes, ⟨0, none⟩, []⟩

def onFailure : Slot := .call fun _ => .ok (.str "refused")

def options : CallOptions where
  method := "send_message"
  params := .ofFields [("chat-id", .str "7"), ("text", .str "hello")]
  onSuccess := .slot .ignore
  onFailure := .slot onFailure
  onError := .value .null
  policy := .null

end Refused

theorem refused_outcome : ∃ e s', Client.Course Refused.client ⟨[], .empty⟩ Refused.method .null
      (Client.normal Refused.options.params) Refused.start Refused.responses e s' ∧
    Client.Answers ⟨.ignore, Refused.onFailure, .default⟩ "sendMessage"
      (Client.normal Refused.options.params) e
      (Refused.client.call ⟨[], .empty⟩ Refused.start Refused.options).1 ∧
    (Refused.client.call ⟨[], .empty⟩ Refused.start Refused.options).1.told.length = 1 := by
  obtain ⟨e, s', hcourse, -, -, hanswers, -⟩ := call_outcome (c := Refused.client)
    ⟨[], .empty⟩ (s := Refused.start) (o := Refused.options) (m := Refused.method) rfl rfl rfl (.inr ⟨_, rfl⟩)
    rfl rfl (by decide +kernel)
    (Limit.Registry.tidy_new _)
  exact ⟨e, s', hcourse, hanswers, by decide +kernel⟩

def Reply.misuse? (r : Reply) : Option (Misuse × String) :=
  match r.result with
  | .error (.misuse how text) => some (how, text)
  | _ => none

theorem Reply.result_of_misuse? {r : Reply} {how : Misuse} {text : String} (h : r.misuse? = some (how, text)) :
    r.result = .error (.misuse how text) := by
  unfold misuse? at h
  split at h
  next hresult =>
    cases h
    exact hresult
  next => cases h

-- A call with valid parameters that sends nothing and tells no callback, though there is one for every outcome.
structure Client.Unanswered (c : Client) (setting : Wire.Setting) (s : ClientState) (o : CallOptions) (m : Method) :
    Prop where
  transport : ∃ rs, c.transport = .canned rs
  hooks : c.hooks = []
  method : s.compiler.spec.find o.method = .ok m
  compiles : s.compiler.compiles m = true
  params : ∃ es, o.params = .dict es
  valid : ((Work.validateParams m (normal o.params)).run s.compiler).1.isOk = true
  slots : ∃ f g h, Callbacks.ofChoices o.onSuccess o.onFailure o.onError = .ok ⟨.call f, .call g, .call h⟩
  policy : Limit.checkPolicy? o.policy = .ok ()
  tidy : s.registry.Tidy
  raised : ∃ how text, (c.call setting s o).1.result = .error (.misuse how text)
  unsent : (c.call setting s o).2.sent = s.sent
  untold : (c.call setting s o).1.told = []

-- A chat that is no number and no name: whether it is a group cannot be told, and so not how often it may be called.
namespace Unordered

def method : Method := { Refused.method with params := [⟨"chat_id", .basic "Whatever", true, "", none, false⟩] }

def start : ClientState := { Refused.start with compiler := .new ⟨[method], []⟩ }

def slot : SlotChoice := .slot (.call fun _ => .ok .null)

def options : CallOptions where
  method := "sendMessage"
  params := .ofFields [("chat_id", .dict [])]
  onSuccess := slot
  onFailure := slot
  onError := slot
  policy := .null

end Unordered

theorem unordered_unanswered :
    Refused.client.Unanswered ⟨[], .empty⟩ Unordered.start Unordered.options Unordered.method where
  transport := ⟨_, rfl⟩
  hooks := rfl
  method := rfl
  compiles := by decide +kernel
  params := ⟨_, rfl⟩
  valid := by decide +kernel
  slots := ⟨_, _, _, rfl⟩
  policy := rfl
  tidy := Limit.Registry.tidy_new _
  raised := ⟨.kind, "", Reply.result_of_misuse? (by decide +kernel)⟩
  unsent := List.eq_nil_of_length_eq_zero (by decide +kernel)
  untold := List.eq_nil_of_length_eq_zero (by decide +kernel)

end BotApi
