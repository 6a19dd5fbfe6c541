import BotApi.Client.Call
import BotApi.Proofs.Limit.Account
/-!
What a call does before it hands its request to the transport. The request is handed over when all
permits are there: that of all calls may be older, by as long as the chat made the call wait.
-/

namespace BotApi

open Limit (Accounts Clock Options Registry baseMethod defaultPolicy levelOptions totalKey)
open Limit.Registry (Conserves)

structure HandOver where
  bot : Nat
  method : String
  permitted : Nat
  time : Nat
  request : Wire.Request

namespace Client

def firstPermit (c : Client) (method : Method) (override : Value) (params : Entries)
    (s : ClientState) : Nat :=
  match s.registry.limitersFor (.int c.botId) method.name (Entries.getText params "chat_id")
    c.policy override with
  | (.ok (l :: _), registry) => (registry.acquire l s.clock).2.2.now
  | _ => s.clock.now

def checked? (s : ClientState) (o : CallOptions) : Option (Method × Entries × ClientState) :=
  match prepare s o with
  | .error _ => none
  | .ok (method, _, params) => match validate method params s with
    | (.ok (.ok params), s) => some (method, params, s)
    | _ => none

def handOver? (c : Client) (s : ClientState) (o : CallOptions) : Option HandOver :=
  (checked? s o).bind fun (method, params, s) =>
    match c.limit method o.policy params s with
    | (.ok (.ok _), s') => match c.hooked (c.request method params) with
      | .ok r => some ⟨c.botId, method.name, c.firstPermit method o.policy params s,
          s'.clock.now, r⟩
      | .error _ => none
    | _ => none

theorem validate_state (method : Method) (params : Value) (s : ClientState) :
    ∃ compiler, (validate method params s).2 = { s with compiler := compiler } := ⟨_, rfl⟩

theorem limit_params {c : Client} {method : Method} {override : Value} {params params' : Entries}
    {s s' : ClientState} (h : c.limit method override params s = (.ok (.ok params'), s')) :
    params' = params := by
  unfold limit at h
  split at h
  · obtain ⟨r, s₁, hr⟩ : ∃ r s₁, c.acquire method override params s = (r, s₁) := ⟨_, _, rfl⟩
    simp only [hr] at h
    cases r with
    | ok u => exact (Except.ok.inj (Except.ok.inj (Prod.mk.inj h).1)).symm
    | error e =>
        cases he : isInterrupted e <;> simp [Stage.attempt, Except.map, he] at h
  · cases h
    rfl

theorem limit_state {c : Client} {method : Method} {override : Value} {params : Entries}
    {s : ClientState} (hlimit : c.limitRate = true) :
    (c.limit method override params s).2 = (c.acquire method override params s).2 := by
  simp only [limit, hlimit, ↓reduceIte]

theorem limit_sent (c : Client) (method : Method) (override : Value) (params : Entries)
    (s : ClientState) : (c.limit method override params s).2.sent = s.sent := by
  cases hlimit : c.limitRate with
  | false => simp [limit, hlimit]
  | true =>
      rw [limit_state hlimit]
      unfold acquire
      dsimp only
      split <;> rfl

theorem interpret_state (response : Wire.Response) (s : ClientState) :
    (interpret response s).2 = s := by
  unfold interpret
  split <;> rfl

theorem send_state (c : Client) (setting : Wire.Setting) (method : Method) (params : Entries)
    (s : ClientState) : (c.send setting method params s).2 = { s with
      sent := s.sent ++ match c.hooked (c.request method params) with
        | .ok r => (c.transport.send setting r).2
        | .error _ => [] } := by
  unfold send
  cases c.hooked (c.request method params) with
  | error e => simp
  | ok r => rfl

theorem followedBy_interpret_state {α : Type} (f : Stage ClientState α Wire.Response) (a : α)
    (s : ClientState) : (f.followedBy interpret a s).2 = (f a s).2 := by
  unfold Stage.followedBy
  split
  · rename_i h
    rw [interpret_state, h]
  · rename_i h
    rw [h]
  · rename_i h
    rw [h]

theorem call_state (c : Client) (setting : Wire.Setting) (s : ClientState) (o : CallOptions) :
    match checked? s o with
    | none => (c.call setting s o).2.registry = s.registry ∧
        (c.call setting s o).2.clock = s.clock ∧ (c.call setting s o).2.sent = s.sent
    | some (method, params, s₁) => (c.call setting s o).2 =
        match c.limit method o.policy params s₁ with
        | (.ok (.ok params), s₂) => (c.send setting method params s₂).2
        | (_, s₂) => s₂ := by
  have hcall : (c.call setting s o).2 = match prepare s o with
      | .error _ => s
      | .ok (method, _, params) => (c.stages setting method o.policy params s).2 := by
    cases hprepare : prepare s o with
    | error e => simp only [call, hprepare]
    | ok m =>
        obtain ⟨method, callbacks, params⟩ := m
        simp only [call, hprepare]
        obtain ⟨r, s₁, hr⟩ : ∃ r s₁, c.stages setting method o.policy params s = (r, s₁) :=
          ⟨_, _, rfl⟩
        rw [hr]
        cases r <;> rfl
  rw [hcall]
  cases hprepare : prepare s o with
  | error e => simp [checked?, hprepare]
  | ok m =>
      obtain ⟨method, callbacks, params⟩ := m
      simp only [checked?, hprepare, stages, followedBy_interpret_state]
      obtain ⟨compiler, hcompiler⟩ := validate_state method params s
      obtain ⟨r, s₁, hr⟩ : ∃ r s₁, validate method params s = (r, s₁) := ⟨_, _, rfl⟩
      rw [hr] at hcompiler
      obtain rfl : s₁ = { s with compiler := compiler } := hcompiler
      rcases r with e | e | params'
      · simp [hr, Stage.followedBy]
      · simp [hr, Stage.followedBy]
      · simp only [hr, Stage.followedBy]
        rcases c.limit method o.policy params' { s with compiler := compiler } with
          ⟨e | e | params'', s₂⟩ <;> rfl

theorem checked?_state {s s₁ : ClientState} {o : CallOptions} {method : Method}
    {params : Entries} (h : checked? s o = some (method, params, s₁)) :
    s₁.registry = s.registry ∧ s₁.clock = s.clock ∧ s₁.sent = s.sent := by
  unfold checked? at h
  split at h
  · cases h
  · rename_i method' callbacks params' hprepare
    obtain ⟨compiler, hcompiler⟩ := validate_state method' params' s
    split at h
    · rename_i hv
      cases h
      rw [hv] at hcompiler
      obtain rfl : s₁ = { s with compiler := compiler } := hcompiler
      exact ⟨rfl, rfl, rfl⟩
    · cases h

theorem handOver?_call (c : Client) (setting : Wire.Setting) (s : ClientState) (o : CallOptions) :
    match c.handOver? s o with
    | none => (c.call setting s o).2.sent = s.sent
    | some d => (c.call setting s o).2.sent = s.sent ++ (c.transport.send setting d.request).2 ∧
        (c.call setting s o).2.clock.now = d.time := by
  have hcall := c.call_state setting s o
  cases hchecked : checked? s o with
  | none =>
      rw [hchecked] at hcall
      simp [handOver?, hchecked, hcall.2.2]
  | some x =>
      obtain ⟨method, params, s₁⟩ := x
      obtain ⟨-, -, hsent⟩ := checked?_state hchecked
      have hlimited := c.limit_sent method o.policy params s₁
      obtain ⟨r, s₂, hr⟩ : ∃ r s₂, c.limit method o.policy params s₁ = (r, s₂) := ⟨_, _, rfl⟩
      have hs₂ : s₂.sent = s.sent := by
        rw [hr] at hlimited
        exact hlimited.trans hsent
      rw [hchecked] at hcall
      simp only [hr] at hcall
      simp only [handOver?, hchecked, Option.bind_some, hr]
      rcases r with e | e | params'
      · simp [hcall, hs₂]
      · simp [hcall, hs₂]
      · have hparams : params' = params := limit_params hr
        simp only [hcall, send_state, hparams]
        cases c.hooked (c.request method params) with
        | error e => simp [hs₂]
        | ok r => simp [hs₂]

theorem call_acquire {c : Client} (setting : Wire.Setting) {s : ClientState} {o : CallOptions}
    (hlimit : c.limitRate = true) {method : Method} {params : Entries} {s₁ : ClientState}
    (hchecked : checked? s o = some (method, params, s₁)) :
    ∃ res s₂, c.acquire method o.policy params s₁ = (res, s₂) ∧
      (c.call setting s o).2.registry = s₂.registry ∧ (c.call setting s o).2.clock = s₂.clock ∧
      ∀ d, c.handOver? s o = some d → res = .ok () ∧ d.bot = c.botId ∧ d.method = method.name ∧
        d.permitted = c.firstPermit method o.policy params s₁ ∧ d.time = s₂.clock.now := by
  have hcall := c.call_state setting s o
  obtain ⟨res, s₂, hres⟩ : ∃ res s₂, c.acquire method o.policy params s₁ = (res, s₂) :=
    ⟨_, _, rfl⟩
  have hlimited : c.limit method o.policy params s₁ =
      (Stage.attempt isInterrupted (res.map fun _ => params), s₂) := by
    simp only [limit, hlimit, ↓reduceIte, hres]
  rw [hchecked] at hcall
  simp only [hlimited] at hcall
  refine ⟨res, s₂, hres, ?_⟩
  simp only [handOver?, hchecked, Option.bind_some, hlimited]
  cases res with
  | error e =>
      cases he : isInterrupted e <;>
        simp [hcall, Stage.attempt, Except.map, he]
  | ok u =>
      simp only [hcall, Stage.attempt, Except.map, send_state, true_and]
      intro d hd
      split at hd
      · cases hd
        exact ⟨rfl, rfl, rfl, rfl⟩
      · cases hd

theorem acquire_accounts {c : Client} {method : Method} {override : Value} {params : Entries}
    {s s' : ClientState} {res : Except Error Unit} (bot : Nat) {base : String} {o : Options}
    (tidy : s.registry.Tidy)
    (ho : levelOptions .total base .null [override, c.policy, defaultPolicy] = .ok (some o))
    (h : c.acquire method override params s = (res, s')) :
    Conserves (totalKey bot base) o s.registry s.clock s'.registry s'.clock ∧
      (res = .ok () → c.botId = bot →
        baseMethod method.name [override, c.policy, defaultPolicy] = .ok base →
        s.clock.now ≤ c.firstPermit method override params s ∧
        c.firstPermit method override params s ≤ s'.clock.now ∧
        ∀ permits, Accounts o s.clock.now permits (s.registry.bucket? (totalKey bot base)) →
          Accounts o s'.clock.now (c.firstPermit method override params s :: permits)
            (s'.registry.bucket? (totalKey bot base))) := by
  unfold acquire at h
  unfold firstPermit
  dsimp only at h
  obtain ⟨ls, r₁, hls⟩ : ∃ ls r₁, s.registry.limitersFor (.int c.botId) method.name
      (Entries.getText params "chat_id") c.policy override = (ls, r₁) := ⟨_, _, rfl⟩
  have hcourse := Registry.course_of_limitersFor hls
  have hprepared : Conserves (totalKey bot base) o s.registry s.clock r₁ s.clock := hcourse.conserves tidy s.clock ho
  simp only [hls] at h ⊢
  cases ls with
  | error e =>
      cases h
      exact ⟨hprepared, fun hres => by cases hres⟩
  | ok ls =>
      have hscoped : ∀ l ∈ ls, ∃ base' scope, l.key = Limit.scopedKey c.botId base' scope := by
        obtain ⟨base', -, hkeys⟩ := hcourse.keys tidy rfl
        exact fun l hl => ⟨base', hkeys l hl⟩
      obtain ⟨res', r₂, clock, hall⟩ : ∃ res' r₂ clock,
          r₁.acquireAll s.clock ls = (res', r₂, clock) := ⟨_, _, _, rfl⟩
      simp only [hall] at h
      cases h
      have hacquired : Conserves (totalKey bot base) o r₁ s.clock r₂ clock :=
        Registry.conserves_acquireAll hprepared.tidy hscoped hall
      refine ⟨hprepared.trans hacquired, fun hres hbot hbase => ?_⟩
      rw [hbot] at hcourse
      obtain ⟨l, ls', rfl, hkey⟩ := hcourse.head tidy hbase ho rfl
      cases hres
      obtain ⟨hstart, hend, haccounts⟩ := Registry.accounts_acquireAll hprepared.tidy hkey hscoped hall
      exact ⟨hstart, hend, fun permits hpermits => haccounts permits (hprepared.accounts permits hpermits)⟩

end Client

end BotApi
