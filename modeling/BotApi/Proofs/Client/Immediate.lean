import BotApi.Client.Immediate
import BotApi.Proofs.Client.Outcome
import BotApi.Proofs.Values.Validated
import BotApi.Proofs.Wire.Encode
/-!
A call as the reply to a delivery and the same call sent agree: they refuse the same parameters, and their
requests differ in nothing but the name of the method. The reply sends nothing and takes no permit.
-/

namespace BotApi

open Wire.Encode (IsText)

theorem Value.isText_wireParams (v : Value) : ∀ e ∈ v.wireParams, IsText e.1 := by
  cases v with
  | record name fs =>
      intro e he
      obtain ⟨f, -, rfl⟩ := List.mem_map.1 ((perm_wireParams name fs).mem_iff.1 he)
      exact ⟨f.1, rfl⟩
  | _ => exact nofun

theorem Work.isText_validateParams {m : Method} {c c' : Compiler} {params : Value} {es : Entries}
    (h : (Work.validateParams m params).run c = (.ok es, c')) : ∀ e ∈ es, IsText e.1 := by
  obtain ⟨r, c₁, rs, schema, p, v, -, -, -, -, rfl⟩ := exists_of_validateParams h
  exact p.value.isText_wireParams

namespace Client

variable {c : Client} {setting : Wire.Setting} {m : Method} {name : String} {given params override : Value}
  {s s' : ClientState} {o : CallOptions} {callbacks : Callbacks} {f : Callback} {es : Entries}
  {is : List Issue} {k : Compiler} {e : Error}

/-! The reply -/

theorem immediate_state (c : Client) (setting : Wire.Setting) (s : ClientState) (name : String)
    (given : Value) :
    ∃ k, (c.immediate setting s name given).2 = { s with compiler := k } := by
  unfold immediate
  split <;> exact ⟨_, rfl⟩

theorem immediate_invalid (c : Client) (setting : Wire.Setting) (hmethod : s.compiler.spec.find name = .ok m)
    (hgiven : paramsOf given = .ok params)
    (hrun : (Work.validateParams m params).run s.compiler = (.error (.invalid is), k)) :
    (c.immediate setting s name given).1 = .error (.invalidParams m.name is) := by
  simp only [immediate, hmethod, hgiven, hrun]
  rfl

theorem immediate_valid (c : Client) (setting : Wire.Setting) (hmethod : s.compiler.spec.find name = .ok m)
    (hgiven : paramsOf given = .ok params)
    (hrun : (Work.validateParams m params).run s.compiler = (.ok es, k)) :
    (c.immediate setting s name given).1 =
      ((c.immediateRequest m es).encode setting.boundary setting.disk).map fun p => ⟨200, p.headers, p.body⟩ := by
  simp only [immediate, hmethod, hgiven, hrun]
  rfl

theorem immediate_error (hrun : (Work.validateParams m params).run s.compiler = (.ok es, k))
    (h : (c.immediateRequest m es).encode setting.boundary setting.disk = .error e) :
    ∃ f, e = .transport f := by
  refine Wire.Request.encode_error rfl (fun x hx => ?_) rfl h
  rcases Entries.exists_of_mem_put hx with hkey | ⟨w, hw⟩
  · exact ⟨_, hkey⟩
  · exact Work.isText_validateParams hrun (x.1, w) hw

/-! The call -/

theorem sent_invalid (hrun : (Work.validateParams m params).run s.compiler = (.ok es, k))
    (h : (c.transport.send setting (c.request m es)).1 = .error (.invalidParams name is)) :
    (c.transport.send setting (c.request m es)).2 ≠ [] := by
  have hencode {e : Error} (h : (c.request m es).encode setting.boundary setting.disk = .error e) :
      ∃ f, e = .transport f := Wire.Request.encode_error rfl (Work.isText_validateParams hrun) rfl h
  unfold Wire.Transport.send at h ⊢
  cases htransport : c.transport with
  | custom g => exact nofun
  | canned rs | network exchange =>
      rw [htransport] at h
      cases hp : (c.request m es).encode setting.boundary setting.disk with
      | ok p => exact nofun
      | error e =>
          obtain ⟨f, rfl⟩ := hencode hp
          rw [hp] at h
          cases h

theorem call_eq (c : Client) (setting : Wire.Setting) (h : prepare s o = .ok (m, callbacks, params)) :
    c.call setting s o = ((End.ofStages (c.stages setting m o.policy params s).1).reply m.name params callbacks,
      (c.stages setting m o.policy params s).2) := by
  obtain ⟨r, s₁, hr⟩ : ∃ r s₁, c.stages setting m o.policy params s = (r, s₁) := ⟨_, _, rfl⟩
  simp only [call, h, hr]
  cases r <;> rfl

theorem told_error_iff (hslot : callbacks.onError = .call f) {e : Error} {end' : End} :
    (end'.reply m.name params callbacks).told = [.error m.name params e] ↔ end' = .outcome (.error e) := by
  cases end' with
  | fatal e' => simp [End.reply]
  | outcome out =>
      cases out with
      | error cause => simp [End.reply, Outcome.reply, Outcome.slot, Outcome.occasion, hslot]
      | success result envelope =>
          simp only [End.reply, Outcome.reply]
          split <;> simp [Outcome.occasion]
      | failure envelope =>
          simp only [End.reply, Outcome.reply]
          split <;> simp [Outcome.occasion]

theorem stages_invalid (c : Client) (setting : Wire.Setting) (override : Value)
    (hrun : (Work.validateParams m params).run s.compiler = (.error (.invalid is), k)) :
    c.stages setting m override params s =
      (.ok (.error (.invalidParams m.name is)), { s with compiler := k }) := by
  rw [stages, Stage.followedBy, Stage.followedBy, Stage.followedBy, validate, hrun]
  rfl

theorem hooked_nil {r : Wire.Request} (h : c.hooks = []) : c.hooked r = .ok r := by
  simp [hooked, h, pure, Except.pure]

theorem passes_of_limit {es' : Entries} (hrun : (Work.validateParams m params).run s.compiler = (.ok es, k))
    (h : c.limit m override es { s with compiler := k } = (.ok (.ok es'), s')) :
    Passes c m override params s es s' := by
  cases hlimit : c.limitRate with
  | false =>
      simp only [limit, hlimit, Bool.false_eq_true, if_false, Prod.mk.injEq] at h
      exact h.2 ▸ .unlimited hrun hlimit
  | true =>
      obtain ⟨r, t, hstate⟩ := acquire_state c m override { s with compiler := k } es
      obtain ⟨res, hres⟩ : ∃ res, c.acquire m override es { s with compiler := k } =
          (res, { s with compiler := k, registry := r, clock := t }) := ⟨_, Prod.ext rfl hstate⟩
      rw [limit_on hlimit hres] at h
      cases res with
      | error e => cases he : isInterrupted e <;> simp [Except.map, Stage.attempt, he] at h
      | ok u =>
          obtain rfl := (Prod.mk.inj h).2
          exact .permitted hrun hlimit hres

theorem stages_sent (setting : Wire.Setting) (override : Value) (hhooks : c.hooks = [])
    (hrun : (Work.validateParams m params).run s.compiler = (.ok es, k)) :
    (∀ s₁, Passes c m override params s es s₁ → (c.stages setting m override params s).2.sent =
      s.sent ++ (c.transport.send setting (c.request m es)).2) ∧
    ((∀ s₁, ¬ Passes c m override params s es s₁) →
      (c.stages setting m override params s).2.sent = s.sent) := by
  refine ⟨fun s₁ h => ?_, fun h => ?_⟩
  · have hsent : s₁.sent = s.sent := by cases h <;> rfl
    rw [h.stages, followedBy_interpret_state, send_state, hooked_nil hhooks, hsent]
  · have hsame := limit_sent c m override es { s with compiler := k }
    obtain ⟨res, s₁, hlimit⟩ :
        ∃ res s₁, c.limit m override es { s with compiler := k } = (res, s₁) := ⟨_, _, rfl⟩
    rw [hlimit] at hsame
    simp only [stages, Stage.followedBy, validate_ok hrun, hlimit]
    rcases res with e | e | es'
    · exact hsame
    · exact hsame
    · exact absurd (passes_of_limit hrun hlimit) (h s₁)

theorem limit_kept {e : Error} (h : c.limit m override es s = (.ok (.error e), s')) :
    ∃ text, e = .interrupted text := by
  unfold limit at h
  split at h
  · obtain ⟨r, s₁, hr⟩ : ∃ r s₁, c.acquire m override es s = (r, s₁) := ⟨_, _, rfl⟩
    simp only [hr] at h
    cases r with
    | ok u => cases (Prod.mk.inj h).1
    | error e' =>
        cases e' with
        | interrupted text =>
            cases (Prod.mk.inj h).1
            exact ⟨text, rfl⟩
        | _ => cases (Prod.mk.inj h).1
  · cases (Prod.mk.inj h).1

theorem interpret_invalid (response : Wire.Response) (s : ClientState) :
    End.ofStages (interpret response s).1 ≠ .outcome (.error (.invalidParams name is)) := by
  unfold interpret
  cases decode : Envelope.ofResponse response with
  | error e =>
      intro h
      have htransport := Envelope.isTransport_of_ofResponse decode
      simp only [htransport, if_true, End.ofStages, outcomeOf, End.outcome.injEq, Outcome.error.injEq] at h
      rw [h] at htransport
      cases htransport
  | ok envelope =>
      dsimp only
      unfold Outcome.ofEnvelope
      split
      · split <;> simp [Except.map, End.ofStages, outcomeOf]
      · simp [Except.map, End.ofStages]

theorem stages_invalid_error (hhooks : c.hooks = [])
    (hrun : (Work.validateParams m params).run s.compiler = (.ok es, k))
    (h : End.ofStages (c.stages setting m override params s).1 = .outcome (.error (.invalidParams name is))) :
    ∃ s₁, Passes c m override params s es s₁ ∧
      (c.transport.send setting (c.request m es)).1 = .error (.invalidParams name is) := by
  obtain ⟨res, s₁, hlimit⟩ :
      ∃ res s₁, c.limit m override es { s with compiler := k } = (res, s₁) := ⟨_, _, rfl⟩
  rcases res with e | e | es'
  · simp [stages, Stage.followedBy, validate_ok hrun, hlimit, End.ofStages] at h
  · obtain ⟨text, rfl⟩ : ∃ text, e = .interrupted text := limit_kept hlimit
    simp [stages, Stage.followedBy, validate_ok hrun, hlimit, End.ofStages, outcomeOf] at h
  · have hpasses : Passes c m override params s es s₁ := passes_of_limit hrun hlimit
    refine ⟨s₁, hpasses, ?_⟩
    rw [hpasses.stages] at h
    simp only [Stage.followedBy, send, hooked_nil hhooks] at h
    cases hsend : (c.transport.send setting (c.request m es)).1 with
    | error e =>
        simp only [hsend, End.ofStages, outcomeOf, End.outcome.injEq, Outcome.error.injEq] at h
        rw [h]
    | ok response =>
        simp only [hsend] at h
        exact absurd h (interpret_invalid response _)

/-! Both together -/

def Reports (c : Client) (setting : Wire.Setting) (s : ClientState) (o : CallOptions) (m : Method)
    (e : Error) : Prop :=
  (c.call setting s o).1.told = [.error m.name (normal o.params) e]

structure Names (m : Method) (es : Entries) (sent encoded : Wire.Request) : Prop where
  url : encoded.url = sent.url
  multipart : encoded.multipart = sent.multipart
  sent : sent.params = .dict es
  encoded : ∃ fs : Entries, encoded.params = .dict fs ∧
    ∀ key, fs.getText? key = if key = "method" then some (.str m.name) else es.getText? key

structure Encodes (c : Client) (setting : Wire.Setting) (s : ClientState) (o : CallOptions) (m : Method)
    (es : Entries) (sent encoded : Wire.Request) : Prop where
  names : Names m es sent encoded
  handed : ∀ s₁, Passes c m o.policy (normal o.params) s es s₁ →
    (c.call setting s o).2.sent = s.sent ++ (c.transport.send setting sent).2
  withheld : (∀ s₁, ¬ Passes c m o.policy (normal o.params) s es s₁) →
    (c.call setting s o).2.sent = s.sent
  reply : (c.immediate setting s o.method o.params).1 =
    (encoded.encode setting.boundary setting.disk).map fun p => ⟨200, p.headers, p.body⟩
  refused : (∃ f, (c.immediate setting s o.method o.params).1 = .error (.transport f)) ↔
    ∀ p, encoded.encode setting.boundary setting.disk ≠ .ok p

structure Agrees (c : Client) (setting : Wire.Setting) (s : ClientState) (o : CallOptions) (m : Method) : Prop where
  invalid : ∀ is, (c.immediate setting s o.method o.params).1 = .error (.invalidParams m.name is) ↔
    Reports c setting s o m (.invalidParams m.name is) ∧ (c.call setting s o).2.sent = s.sent
  -- Only a transport with such errors of its own makes a call report one that the reply does not have.
  reported : ∀ name is, Reports c setting s o m (.invalidParams name is) →
    (c.immediate setting s o.method o.params).1 = .error (.invalidParams name is) ∨
      ∃ es s₁, Passes c m o.policy (normal o.params) s es s₁ ∧
        (c.transport.send setting (c.request m es)).1 = .error (.invalidParams name is)
  valid : (∀ is, (c.immediate setting s o.method o.params).1 ≠ .error (.invalidParams m.name is)) →
    ∃ es sent encoded, Encodes c setting s o m es sent encoded
  traceless : (c.immediate setting s o.method o.params).2.sent = s.sent ∧
    (c.immediate setting s o.method o.params).2.registry = s.registry ∧
    (c.immediate setting s o.method o.params).2.clock = s.clock

theorem names_request (c : Client) (m : Method) (es : Entries) :
    Names m es (c.request m es) (c.immediateRequest m es) where
  url := rfl
  multipart := rfl
  sent := rfl
  encoded := ⟨_, rfl, fun key => by
    rw [Entries.getText?_put]
    exact if_congr eq_comm rfl rfl⟩

end Client

open Client in
theorem immediate_agrees {c : Client} (setting : Wire.Setting) {s : ClientState} {o : CallOptions} {m : Method}
    {callbacks : Callbacks} {f : Callback} (hhooks : c.hooks = []) (hmethod : s.compiler.spec.find o.method = .ok m)
    (hparams : o.params = .null ∨ ∃ es, o.params = .dict es)
    (hslots : Callbacks.ofChoices o.onSuccess o.onFailure o.onError = .ok callbacks)
    (herror : callbacks.onError = .call f) (hpolicy : Limit.checkPolicy? o.policy = .ok ())
    (compiles : s.compiler.compiles m = true) : Agrees c setting s o m := by
  have hgiven : paramsOf o.params = .ok (normal o.params) := paramsOf_normal hparams
  have hprepare : prepare s o = .ok (m, callbacks, normal o.params) := by
    simp [prepare, hmethod, hslots, hgiven, hpolicy, bind, Except.bind, pure, Except.pure]
  have hcall := call_eq c setting hprepare
  have hreports (e : Error) : Reports c setting s o m e ↔
      End.ofStages (c.stages setting m o.policy (normal o.params) s).1 = .outcome (.error e) := by
    rw [Reports, hcall]
    exact told_error_iff herror
  obtain ⟨k', hstate⟩ := immediate_state c setting s o.method o.params
  have htraceless : (c.immediate setting s o.method o.params).2.sent = s.sent ∧
      (c.immediate setting s o.method o.params).2.registry = s.registry ∧
      (c.immediate setting s o.method o.params).2.clock = s.clock := by simp [hstate]
  obtain ⟨k, ⟨es, hrun⟩ | ⟨is, hrun⟩⟩ := Compiler.checked_of_compiles compiles (normal o.params)
  · have hreply := immediate_valid c setting hmethod hgiven hrun
    have hvalid (name : String) (is : List Issue) :
        (c.immediate setting s o.method o.params).1 ≠ .error (.invalidParams name is) := by
      rw [hreply]
      cases hencode : (c.immediateRequest m es).encode setting.boundary setting.disk with
      | ok p =>
          intro h
          cases h
      | error e =>
          obtain ⟨f, rfl⟩ := immediate_error hrun hencode
          intro h
          cases h
    obtain ⟨hhanded, hwithheld⟩ := stages_sent setting o.policy hhooks hrun
    refine ⟨fun is => ⟨fun h => absurd h (hvalid _ _), fun h => ?_⟩, fun name is h => ?_, fun _ => ?_,
      htraceless⟩
    · obtain ⟨s₁, hpasses, hsend⟩ := stages_invalid_error hhooks hrun ((hreports _).1 h.1)
      have hunsent := h.2
      rw [hcall] at hunsent
      have hnothing := List.append_right_eq_self.1 ((hhanded s₁ hpasses).symm.trans hunsent)
      exact absurd hnothing (sent_invalid hrun hsend)
    · obtain ⟨s₁, hpasses, hsend⟩ := stages_invalid_error hhooks hrun ((hreports _).1 h)
      exact .inr ⟨es, s₁, hpasses, hsend⟩
    · refine ⟨es, _, _, names_request c m es, ?_, ?_, hreply, ?_⟩
      · rw [hcall]
        exact hhanded
      · rw [hcall]
        exact hwithheld
      · rw [hreply]
        cases hencode : (c.immediateRequest m es).encode setting.boundary setting.disk with
        | ok p => simp [Except.map]
        | error e =>
            obtain ⟨f, rfl⟩ := immediate_error hrun hencode
            simp [Except.map]
  · have hreply := immediate_invalid c setting hmethod hgiven hrun
    have hstages := stages_invalid c setting o.policy hrun
    have hsame {name : String} {is' : List Issue} :
        (c.immediate setting s o.method o.params).1 = .error (.invalidParams name is') ↔
          Reports c setting s o m (.invalidParams name is') := by
      rw [hreports, hreply, hstages]
      simp [End.ofStages, outcomeOf]
    refine ⟨fun is' => ?_, fun name is' h => .inl (hsame.2 h), fun h => absurd hreply (h is), htraceless⟩
    rw [hsame, and_iff_left]
    rw [hcall, hstages]

namespace Refused

def reporting : CallOptions := { options with onError := .slot (.call fun _ => .ok .null) }

end Refused

theorem reporting_agrees : Refused.start.compiler.compiles Refused.method = true ∧
    Client.Agrees Refused.client ⟨[], .empty⟩ Refused.start Refused.reporting Refused.method := by
  have compiles : Refused.start.compiler.compiles Refused.method = true := by decide +kernel
  have hslots : Callbacks.ofChoices (.slot .ignore) (.slot Refused.onFailure) (.slot (.call fun _ => .ok .null)) =
      .ok ⟨.ignore, Refused.onFailure, .call fun _ => .ok .null⟩ := rfl
  exact ⟨compiles, immediate_agrees _ rfl rfl (.inr ⟨_, rfl⟩) hslots rfl rfl compiles⟩

end BotApi
