import BotApi.Proofs.Client.HandOver
/-!
The pace at which clients hand requests to their transports, over all runs of calls under one policy.
-/

namespace BotApi

open Limit (Accounts Clock Options Registry baseMethod defaultPolicy levelOptions totalKey within)

namespace HandOver

def isOf (bot : Nat) (base : String) (policies : List Value) (d : HandOver) : Bool :=
  d.bot == bot && match baseMethod d.method policies with
    | .ok b => b == base
    | .error _ => false

theorem isOf_iff {bot : Nat} {base : String} {policies : List Value} {d : HandOver} :
    d.isOf bot base policies = true ↔ d.bot = bot ∧ baseMethod d.method policies = .ok base := by
  unfold isOf
  cases baseMethod d.method policies <;> simp

-- One after another, the last one first: a call asks for its permits when the former has ended.
def InTurn (now : Nat) : List HandOver → Prop
  | [] => True
  | d :: ds => d.permitted ≤ d.time ∧ d.time ≤ now ∧ InTurn d.permitted ds

theorem InTurn.later {now later : Nat} {ds : List HandOver} (h : InTurn now ds)
    (hle : now ≤ later) : InTurn later ds := by
  cases ds with
  | nil => trivial
  | cons d ds => exact ⟨h.1, Nat.le_trans h.2.1 hle, h.2.2⟩

theorem InTurn.time_le {now : Nat} {ds : List HandOver} (h : InTurn now ds) :
    ∀ d ∈ ds, d.permitted ≤ d.time ∧ d.time ≤ now := by
  induction ds generalizing now with
  | nil => simp
  | cons d ds ih =>
      obtain ⟨hd, hnow, hds⟩ := h
      intro d' hd'
      rcases List.mem_cons.1 hd' with rfl | hd'
      · exact ⟨hd, hnow⟩
      · obtain ⟨hpermitted, htime⟩ := ih hds d' hd'
        exact ⟨hpermitted, by omega⟩

-- The permits of two hand-overs cannot both be older than the earlier one of them.
theorem InTurn.length_early_le {now : Nat} {ds : List HandOver} (h : InTurn now ds)
    (start : Nat) :
    (ds.filter fun d => d.permitted < start && start ≤ d.time).length ≤ 1 := by
  induction ds generalizing now with
  | nil => simp
  | cons d ds ih =>
      obtain ⟨hd, hnow, hds⟩ := h
      by_cases hearly : d.permitted < start
      · have hnone : (ds.filter fun d => d.permitted < start && start ≤ d.time) = [] := by
          refine List.filter_eq_nil_iff.2 fun d' hd' => ?_
          have htime := (hds.time_le d' hd').2
          simp only [Bool.and_eq_true, decide_eq_true_eq, not_and]
          omega
        rw [List.filter_cons, hnone]
        split <;> simp
      · rw [List.filter_cons_of_neg (by simp [hearly])]
        exact ih hds

end HandOver

inductive Event where
  | call (c : Client) (compiler : Compiler) (setting : Wire.Setting) (o : CallOptions)
  | pause (length : Nat) (alarm : Option Nat)

namespace Event

def Under (policy override : Value) : Event → Prop
  | call c _ _ o => c.limitRate = true ∧ c.policy = policy ∧ o.policy = override
  | pause _ _ => True

def step (x : ClientState × List HandOver) : Event → ClientState × List HandOver
  | call c compiler setting o =>
      let s := { x.1 with compiler := compiler }
      ((c.call setting s o).2, (c.handOver? s o).toList ++ x.2)
  | pause length alarm => ({ x.1 with clock := ⟨x.1.clock.now + length, alarm⟩ }, x.2)

def run (s : ClientState) (es : List Event) : ClientState × List HandOver := es.foldl step (s, [])

def Sends (d : HandOver) (y : Wire.Sent) : Event → Prop
  | call c _ setting _ => y ∈ (c.transport.send setting d.request).2
  | pause _ _ => False

variable {x : ClientState × List HandOver} {e : Event} {es : List Event} {y : Wire.Sent}

theorem subset_step : x.2 ⊆ (step x e).2 := by
  cases e with
  | pause length alarm => exact List.Subset.refl _
  | call c compiler setting o => exact List.subset_append_right _ _

theorem subset_foldl (es : List Event) (x : ClientState × List HandOver) : x.2 ⊆ (es.foldl step x).2 := by
  induction es generalizing x with
  | nil => exact List.Subset.refl _
  | cons e es ih => exact fun d hd => ih (step x e) (subset_step hd)

theorem sent_step (h : y ∈ (step x e).1.sent) : y ∈ x.1.sent ∨ ∃ d ∈ (step x e).2, e.Sends d y := by
  cases e with
  | pause length alarm => exact .inl h
  | call c compiler setting o =>
      have hcall := c.handOver?_call setting { x.1 with compiler := compiler } o
      simp only [step] at h ⊢
      cases hhand : c.handOver? { x.1 with compiler := compiler } o with
      | none =>
          rw [hhand] at hcall
          exact .inl (hcall ▸ h)
      | some d =>
          rw [hhand] at hcall
          rw [hcall.1] at h
          exact (List.mem_append.1 h).imp id fun hd => ⟨d, by simp, hd⟩

-- Nothing is sent in a run but what is counted as handed over in it.
theorem sent_run {s : ClientState} (h : y ∈ (run s es).1.sent) :
    y ∈ s.sent ∨ ∃ d ∈ (run s es).2, ∃ e ∈ es, e.Sends d y := by
  suffices hfold : ∀ x, y ∈ (es.foldl step x).1.sent →
      y ∈ x.1.sent ∨ ∃ d ∈ (es.foldl step x).2, ∃ e ∈ es, e.Sends d y from hfold (s, []) h
  clear h
  induction es with
  | nil => exact fun x h => .inl h
  | cons e es ih =>
      intro x h
      rcases ih (step x e) h with hstep | ⟨d, hd, e', he', hsends⟩
      · rcases sent_step hstep with hx | ⟨d, hd, hsends⟩
        · exact .inl hx
        · exact .inr ⟨d, subset_foldl es (step x e) hd, e, List.mem_cons_self, hsends⟩
      · exact .inr ⟨d, hd, e', List.mem_cons_of_mem _ he', hsends⟩

end Event

structure Tallies (bot : Nat) (base : String) (o : Options) (s : ClientState)
    (ds : List HandOver) : Prop where
  tidy : s.registry.Tidy
  accounts : Accounts o s.clock.now (ds.map (·.permitted)) (s.registry.bucket? (totalKey bot base))
  inTurn : HandOver.InTurn s.clock.now ds

namespace Tallies

variable {bot : Nat} {base : String} {o : Options} {policy override : Value} {s s' : ClientState}
  {ds : List HandOver}

theorem of_new (hs : ∃ stripes, s.registry = .new stripes) : Tallies bot base o s [] := by
  obtain ⟨stripes, hs⟩ := hs
  refine ⟨hs ▸ Limit.Registry.tidy_new stripes, ?_, trivial⟩
  have hnone : s.registry.bucket? (totalKey bot base) = none := by
    simp [hs, Registry.bucket?, totalKey, Limit.groupKey?_scopedKey, Registry.group?,
      Registry.new]
  rw [hnone]
  rfl

theorem of_conserves (h : Tallies bot base o s ds)
    (hc : Registry.Conserves (totalKey bot base) o s.registry s.clock s'.registry s'.clock) :
    Tallies bot base o s' ds :=
  ⟨hc.tidy, hc.accounts _ h.accounts, h.inTurn.later hc.later⟩

theorem of_same (h : Tallies bot base o s ds) (hregistry : s'.registry = s.registry)
    (hclock : s'.clock = s.clock) : Tallies bot base o s' ds := by
  refine ⟨?_, ?_, ?_⟩
  · rw [hregistry]
    exact h.tidy
  · rw [hregistry, hclock]
    exact h.accounts
  · rw [hclock]
    exact h.inTurn

theorem call {c : Client} {setting : Wire.Setting} {call : CallOptions}
    (ho : levelOptions .total base .null [override, policy, defaultPolicy] = .ok (some o))
    (hlimit : c.limitRate = true) (hpolicy : c.policy = policy) (hover : call.policy = override)
    (h : Tallies bot base o s ds) :
    Tallies bot base o (c.call setting s call).2
      ((c.handOver? s call).toList.filter (·.isOf bot base [override, policy, defaultPolicy])
        ++ ds) := by
  have hcall := c.call_state setting s call
  cases hchecked : Client.checked? s call with
  | none =>
      rw [hchecked] at hcall
      simpa [Client.handOver?, hchecked] using h.of_same hcall.1 hcall.2.1
  | some x =>
      obtain ⟨method, params, s₁⟩ := x
      obtain ⟨hregistry, hclock, -⟩ := Client.checked?_state hchecked
      have h₁ : Tallies bot base o s₁ ds := h.of_same hregistry hclock
      obtain ⟨res, s₂, hres, hregistry, hclock, hover'⟩ :=
        Client.call_acquire setting hlimit hchecked
      rw [← hpolicy, ← hover] at ho
      obtain ⟨hconserves, huse⟩ := Client.acquire_accounts bot h₁.tidy ho hres
      have h₂ : Tallies bot base o s₂ ds := h₁.of_conserves hconserves
      cases hhand : c.handOver? s call with
      | none => simpa using h₂.of_same hregistry hclock
      | some d =>
          obtain ⟨hok, hbot, hmethod, hpermitted, htime⟩ := hover' d hhand
          cases hof : d.isOf bot base [override, policy, defaultPolicy] with
          | false => simpa [hof] using h₂.of_same hregistry hclock
          | true =>
              obtain ⟨hd, hbase⟩ := HandOver.isOf_iff.1 hof
              obtain ⟨hfrom, hto, haccounts⟩ := huse hok (hbot ▸ hd)
                (by rw [← hmethod, hover, hpolicy]; exact hbase)
              rw [← hpermitted] at hfrom hto haccounts
              have h₃ : Tallies bot base o s₂ (d :: ds) :=
                ⟨h₂.tidy, haccounts _ h₁.accounts, htime ▸ hto, Nat.le_of_eq htime,
                  h₁.inTurn.later hfrom⟩
              simpa [hof] using h₃.of_same hregistry hclock

theorem run (hs : ∃ stripes, s.registry = .new stripes)
    (ho : levelOptions .total base .null [override, policy, defaultPolicy] = .ok (some o))
    (es : List Event) (hes : ∀ e ∈ es, e.Under policy override) :
    Tallies bot base o (Event.run s es).1
      ((Event.run s es).2.filter (·.isOf bot base [override, policy, defaultPolicy])) := by
  suffices h : ∀ x : ClientState × List HandOver,
      Tallies bot base o x.1 (x.2.filter (·.isOf bot base [override, policy, defaultPolicy])) →
      Tallies bot base o (es.foldl Event.step x).1
        ((es.foldl Event.step x).2.filter (·.isOf bot base [override, policy, defaultPolicy])) from
    h (s, []) (of_new hs)
  induction es with
  | nil => exact fun x hx => hx
  | cons e es ih =>
      intro x hx
      refine ih (fun e' he' => hes e' (List.mem_cons_of_mem e he')) _ ?_
      cases e with
      | pause length alarm => exact ⟨hx.tidy, hx.accounts.later (Nat.le_add_right _ _),
          hx.inTurn.later (Nat.le_add_right _ _)⟩
      | call c compiler setting call =>
          obtain ⟨hlimit, hpolicy, hover⟩ := hes _ (List.mem_cons_self ..)
          have hx' : Tallies bot base o { x.1 with compiler := compiler }
              (x.2.filter (·.isOf bot base [override, policy, defaultPolicy])) :=
            hx.of_same rfl rfl
          simp only [Event.step, List.filter_append]
          exact hx'.call ho hlimit hpolicy hover

end Tallies

def sentWithin (bot : Nat) (base : String) (policies : List Value) (start length : Nat)
    (ds : List HandOver) : List HandOver :=
  (ds.filter (·.isOf bot base policies)).filter fun d => within start length d.time

-- Of the requests of a period the permits of all but one were given in it. The limit is exceeded,
-- by one, exactly when its permits were all used up beside an older one.
theorem sent_per_period (policy override : Value) (bot : Nat) (base : String) (o : Options)
    (n : Nat) (s : ClientState) (es : List Event) (start : Nat)
    (ho : levelOptions .total base .null [override, policy, defaultPolicy] = .ok (some o))
    (hn : o.interval? = some n) (hs : ∃ stripes, s.registry = .new stripes)
    (hes : ∀ e ∈ es, e.Under policy override) :
    let sent := sentWithin bot base [override, policy, defaultPolicy] start n (Event.run s es).2
    let early := sent.filter (·.permitted < start)
    let inTime := sent.filter (start ≤ ·.permitted)
    inTime.length ≤ o.limit ∧ early.length ≤ 1 ∧
      (o.limit < sent.length ↔ inTime.length = o.limit ∧ early.length = 1) := by
  have h : Tallies bot base o _ _ := .run hs ho es hes
  simp only [sentWithin]
  generalize (Event.run s es).2.filter (·.isOf bot base [override, policy, defaultPolicy]) = ds at h
  have hinTime : ((ds.filter fun d => within start n d.time).filter
      (start ≤ ·.permitted)).length ≤ o.limit := by
    have hle := h.accounts.length_within_le hn start
    rw [List.filter_map, List.length_map] at hle
    refine Nat.le_trans ?_ hle
    rw [List.filter_filter]
    simp only [← List.countP_eq_length_filter]
    refine List.countP_mono_left fun d hd hw => ?_
    have hpermitted := (h.inTurn.time_le d hd).1
    simp only [within, Function.comp, Bool.and_eq_true, decide_eq_true_eq] at hw ⊢
    omega
  have hearly : ((ds.filter fun d => within start n d.time).filter
      (·.permitted < start)).length ≤ 1 := by
    refine Nat.le_trans ?_ (h.inTurn.length_early_le start)
    rw [List.filter_filter]
    simp only [← List.countP_eq_length_filter]
    refine List.countP_mono_left fun d _ hw => ?_
    simp only [within, Bool.and_eq_true, decide_eq_true_eq] at hw ⊢
    omega
  have hsum (l : List HandOver) : l.length =
      (l.filter (·.permitted < start)).length + (l.filter (start ≤ ·.permitted)).length := by
    induction l with
    | nil => rfl
    | cons d l ih =>
        by_cases hd : d.permitted < start
        · simp [hd, ih, Nat.not_le.2 hd]
          omega
        · simp [hd, ih, Nat.not_lt.1 hd]
          omega
  have hlength := hsum (ds.filter fun d => within start n d.time)
  exact ⟨hinTime, hearly, by omega⟩

namespace Ping

def rate (period : Float) : Value := .ofFields [("limit", .int 1), ("period", .float period)]

def policy : Value := .ofFields [("ping", .ofFields [("total", rate 0.01), ("per_chat", rate 0.05)])]

def policies : List Value := [.null, policy, defaultPolicy]

def spec : Spec where
  methods := [⟨"ping", "ping", "", [⟨"chat_id", .basic "Integer", true, "", none, false⟩], false, []⟩]
  types := []

def client : Client where
  token := "1:A"
  botId := 1
  serverUrl := Client.globalServerUrl
  limitRate := true
  policy := policy
  transport := .canned (.byMethod [("ping",
    .answer (.value (.ofFields [("ok", .bool true), ("result", .bool true)])))])
  ownsTransport := false
  hooks := []
  timeout := .null

def callTo (chat : Int) : Event := .call client (.new spec) ⟨[], .empty⟩ {
  method := "ping"
  params := .ofFields [("chat_id", .int chat)]
  onSuccess := .value .null
  onFailure := .value .null
  onError := .value .null
  policy := .null }

def start : ClientState := ⟨.new spec, .new Limit.defaultStripes, ⟨0, none⟩, []⟩

def calls : List Event := [callTo 1, callTo 1, callTo 2]

theorem calls_under : ∀ e ∈ calls, e.Under policy .null := by
  simp [calls, callTo, Event.Under, client]

theorem exists_total : ∃ o, levelOptions .total "ping" .null policies = .ok (some o) ∧
    o.limit = 1 ∧ o.interval? = some 10 := by
  have h : ((levelOptions .total "ping" .null policies).toOption.join.any fun o =>
      o.limit == 1 && o.interval? == some 10) = true := by
    decide +kernel
  rcases hx : levelOptions .total "ping" .null policies with e | _ | o <;>
    simp [hx, Except.toOption] at h
  exact ⟨o, rfl, h⟩

end Ping

-- The second call waits for its chat until 75; its permit of all calls is then too old to count.
theorem ping_total_exceeded : ∃ o, levelOptions .total "ping" .null Ping.policies = .ok (some o) ∧
    o.limit = 1 ∧ o.interval? = some 10 ∧
    (Event.run Ping.start Ping.calls).1.sent.length = 3 ∧
    (sentWithin 1 "ping" Ping.policies 75 10 (Event.run Ping.start Ping.calls).2).map (·.time) =
      [75, 75] := by
  obtain ⟨o, ho, hlimit, hn⟩ := Ping.exists_total
  exact ⟨o, ho, hlimit, hn, by decide +kernel, by decide +kernel⟩

theorem ping_sent_per_period : ∃ o,
    levelOptions .total "ping" .null Ping.policies = .ok (some o) ∧
    ((sentWithin 1 "ping" Ping.policies 75 10 (Event.run Ping.start Ping.calls).2).filter
      (75 ≤ ·.permitted)).length ≤ o.limit := by
  obtain ⟨o, ho, hlimit, hn⟩ := Ping.exists_total
  exact ⟨o, ho, (sent_per_period Ping.policy .null 1 "ping" o 10 Ping.start Ping.calls 75 ho hn
    ⟨Limit.defaultStripes, rfl⟩ Ping.calls_under).1⟩

end BotApi
