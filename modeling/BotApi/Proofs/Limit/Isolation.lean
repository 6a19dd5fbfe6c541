import BotApi.Proofs.Limit.Admission
import BotApi.Proofs.Limit.Waiting
/-!
Limiters of different scopes. What one of them gives does not count for another one, and a call to a chat passes two
of them, unless the chat goes by the name that stands for all calls.
-/

namespace BotApi.Limit

def Limits (o : Except Error (Option Options)) : Prop :=
  ∃ x, o = .ok (some x) ∧ (Registry.bucketFor x).isOk = true

theorem Limits.usable {o : Except Error (Option Options)} (h : Limits o) : Usable o := by
  obtain ⟨x, rfl, hx⟩ := h
  refine ⟨some x, rfl, fun y hy => ?_⟩
  cases hy
  exact hx

def Limiter.Apart (l l' : Limiter) : Prop :=
  ∃ bot base scope bot' base' scope', l.key = scopedKey bot base scope ∧ l'.key = scopedKey bot' base' scope' ∧
    (bot ≠ bot' ∨ base ≠ base' ∨ scopeLevel scope ≠ scopeLevel scope' ∨ scope.shownText ≠ scope'.shownText)

theorem Limiter.Apart.slots {l l' : Limiter} (h : l.Apart l') :
    ∃ σ τ, slot? l.key = some σ ∧ slot? l'.key = some τ ∧ τ ≠ σ := by
  obtain ⟨bot, base, scope, bot', base', scope', hkey, hkey', hdiffer⟩ := h
  refine ⟨slotOf bot base scope, slotOf bot' base' scope', ?_, ?_, ?_⟩
  · rw [hkey, slot?_scopedKey]
  · rw [hkey', slot?_scopedKey]
  · intro heq
    obtain ⟨rfl, rfl, hlevel, htext⟩ := slotOf_inj.1 heq.symm
    rcases hdiffer with h | h | h | h
    · exact h rfl
    · exact h rfl
    · exact h hlevel
    · exact h htext

theorem scopeLevel_chat {scope chat : Value} (hequal : scope.equal chat = true) (hne : chat ≠ .str Level.total.name) :
    scopeLevel scope = Level.perChat.name := by
  unfold scopeLevel
  split
  next htotal =>
    obtain rfl := Value.eq_str_of_equal_str htotal
    exact absurd (Value.eq_str_of_str_equal hequal) hne
  next => rfl

namespace Registry

variable {r r' : Registry} {bot : Int} {base : String} {scope chat : Value} {l l' : Limiter}

theorem tryAcquire_congr (h : r'.bucket? l.key = r.bucket? l.key) (now : Nat) :
    (r'.tryAcquire l now).1 = (r.tryAcquire l now).1 := by
  rw [tryAcquire, tryAcquire, h]
  split <;> rfl

theorem Uses.tryAcquire (tidy : r.Tidy) (h : Uses l.key r r') (hapart : l.Apart l') (now : Nat) :
    (r'.tryAcquire l' now).1 = (r.tryAcquire l' now).1 := by
  obtain ⟨σ, τ, hσ, hτ, hne⟩ := hapart.slots
  apply tryAcquire_congr
  rw [bucket?_eq_at? _ hτ, bucket?_eq_at? _ hτ, h.at? tidy hσ hne]

theorem levelLimiter_one {o : Except Error (Option Options)} (tidy : r.Tidy) (hstripes : 0 < r.stripes)
    (hscope : Named scope) (ho : Limits o) (bot : Int) (base : String) :
    ∃ l r' scope', r.levelLimiter (scopedKey bot base scope) o = (.ok [l], r') ∧ r'.Tidy ∧ Extends r r' ∧
      l ∈ r'.limiters ∧ l.key = scopedKey bot base scope' ∧ scope'.equal scope = true := by
  obtain ⟨ls, r', hlevel, tidy', hextends, -⟩ := levelLimiter_ok bot base scope tidy hstripes hscope.isKey ho.usable
  obtain ⟨hmem, hone⟩ := mem_levelLimiter tidy hlevel
  obtain ⟨x, hx, -⟩ := ho
  obtain ⟨l, rfl⟩ := hone x hx
  obtain ⟨hl, scope', hkey, hscope'⟩ := hmem l List.mem_cons_self
  refine ⟨l, r', scope', hlevel, tidy', hextends, hl, hkey, ?_⟩
  rcases hscope' with rfl | hequal
  · exact hscope.equal_self
  · exact hequal

theorem limitersFor_two {method : String} {policy override : Value} (tidy : r.Tidy) (hstripes : 0 < r.stripes)
    (hchat : Named chat) (hbase : baseMethod method [override, policy, defaultPolicy] = .ok base)
    (htotal : Limits (levelOptions .total base .null [override, policy, defaultPolicy]))
    (hperChat : Limits (levelOptions .perChat base chat [override, policy, defaultPolicy])) (bot : Int) :
    ∃ l l' r' scope, r.limitersFor (.int bot) method chat policy override = (.ok [l, l'], r') ∧ r'.Tidy ∧
      l ∈ r'.limiters ∧ l' ∈ r'.limiters ∧ l.key = totalKey bot base ∧ l'.key = scopedKey bot base scope ∧
      scope.equal chat = true := by
  obtain ⟨l, r₁, scope₁, hfirst, tidy₁, hextends₁, hl, hkey, hscope₁⟩ :=
    levelLimiter_one tidy hstripes (.inr ⟨_, rfl⟩) htotal bot base
  obtain ⟨l', r₂, scope₂, hsecond, tidy₂, hextends₂, hl', hkey', hscope₂⟩ :=
    levelLimiter_one tidy₁ (hextends₁.stripes ▸ hstripes) hchat hperChat bot base
  obtain rfl := Value.eq_str_of_equal_str hscope₁
  refine ⟨l, l', r₂, scope₂, ?_, tidy₂, hextends₂.limiters hl, hl', hkey, hkey', hscope₂⟩
  rw [scopedKey] at hfirst hsecond
  simp only [limitersFor, hbase, hfirst, hchat.isNull, hsecond]
  rfl

end Registry

namespace Ledger

theorem limiters_isolated (stripes : Int) (c : Clock) (acts : List Act) :
    let r := ((start stripes c).run acts).registry
    (∀ (bot : Int) (method base : String) (chat policy override : Value), 0 < r.stripes → Named chat →
      chat ≠ .str Level.total.name → baseMethod method [override, policy, defaultPolicy] = .ok base →
      Limits (levelOptions .total base .null [override, policy, defaultPolicy]) →
      Limits (levelOptions .perChat base chat [override, policy, defaultPolicy]) →
      ∃ l l' r' scope, r.limitersFor (.int bot) method chat policy override = (.ok [l, l'], r') ∧
        l ∈ r'.limiters ∧ l' ∈ r'.limiters ∧ l.key = totalKey bot base ∧ l'.key = scopedKey bot base scope ∧
        scope.equal chat = true ∧ l.key ≠ l'.key ∧ l.Apart l' ∧ groupKey? l.key ≠ groupKey? l'.key ∧
        (r'.bucket? l.key).isSome = true ∧ (r'.bucket? l'.key).isSome = true) ∧
    ∀ l l' : Limiter, l.Apart l' → ∀ clock before now,
      ((r.acquire l clock).2.1.tryAcquire l' now).1 = (r.tryAcquire l' now).1 ∧
      ((r.tryAcquire l before).2.tryAcquire l' now).1 = (r.tryAcquire l' now).1 := by
  intro r
  have tidy : r.Tidy := ((Sound.of_start stripes c).run acts).tidy
  refine ⟨?_, ?_⟩
  · intro bot method base chat policy override hstripes hchat hne hbase htotal hperChat
    obtain ⟨l, l', r', scope, hcall, tidy', hl, hl', hkey, hkey', hscope⟩ :=
      Registry.limitersFor_two tidy hstripes hchat hbase htotal hperChat bot
    have hlevel := scopeLevel_chat hscope hne
    have hlevels : scopeLevel (.str Level.total.name) ≠ scopeLevel scope := by
      rw [hlevel, scopeLevel_total]
      decide
    refine ⟨l, l', r', scope, hcall, hl, hl', hkey, hkey', hscope, ?_, ?_, ?_, tidy'.buckets l hl, tidy'.buckets l' hl'⟩
    · rw [hkey, hkey', totalKey]
      intro heq
      have hscopes : Value.str Level.total.name = scope := by
        simpa [scopedKey] using heq
      rw [hscopes] at hlevels
      exact hlevels rfl
    · exact ⟨bot, base, _, bot, base, scope, hkey, hkey', .inr (.inr (.inl hlevels))⟩
    · rw [hkey, hkey', totalKey, groupKey?_scopedKey, groupKey?_scopedKey]
      intro heq
      apply hlevels
      simpa [scopedKey] using heq
  · intro l l' hapart clock before now
    exact ⟨(r.uses_acquire l clock).tryAcquire tidy hapart now, (r.uses_tryAcquire l before).tryAcquire tidy hapart now⟩

namespace Reserved

def policy : Value := .ofFields [("m", .ofFields [
  (Level.total.name, .ofFields [("limit", .int 2)]), (Level.perChat.name, .ofFields [("limit", .int 1)])])]

def call (chat : Value) : Except Error (List Limiter) × Registry :=
  (Registry.new defaultStripes).limitersFor (.int 1) "m" chat policy .null

def check (o : Except Error (Option Options)) : Bool :=
  match o with
  | .ok (some x) => (Registry.bucketFor x).isOk
  | _ => false

theorem limits_of_check {o : Except Error (Option Options)} (h : check o = true) : Limits o := by
  unfold check at h
  split at h
  next x => exact ⟨x, rfl, h⟩
  next => cases h

def names (chat : Value) : Option (List (String × Nat)) :=
  (call chat).1.toOption.map (·.map fun l => (l.name, l.options.limit))

theorem call_limits : check (levelOptions .total "m" .null [.null, policy, defaultPolicy]) = true ∧
    check (levelOptions .perChat "m" (.int 5) [.null, policy, defaultPolicy]) = true ∧
    (call (.str Level.total.name)).2.size = 1 ∧
    names (.str Level.total.name) = some [("1:m:total", 2), ("1:m:total", 2)] := by
  with_unfolding_all exact ⟨rfl, rfl, rfl, rfl⟩

end Reserved

-- The limiter of all calls is passed twice where the chat has the name of their level.
theorem chat_named_total : (Reserved.call (.str Level.total.name)).2.size = 1 ∧
    Reserved.names (.str Level.total.name) = some [("1:m:total", 2), ("1:m:total", 2)] :=
  Reserved.call_limits.2.2

theorem chat_limited_apart : ∃ l l' r', Reserved.call (.int 5) = (.ok [l, l'], r') ∧ l.Apart l' := by
  obtain ⟨hcalls, -⟩ := limiters_isolated defaultStripes ⟨0, none⟩ []
  have hbase : baseMethod "m" [.null, Reserved.policy, defaultPolicy] = .ok "m" := by
    simp [baseMethod, Reserved.policy, Value.ofFields, Value.mentions, Value.truthy, Except.bind]
  obtain ⟨l, l', r', -, hcall, -, -, -, -, -, -, hapart, -⟩ := hcalls 1 "m" "m" (.int 5) Reserved.policy .null (by decide)
    (.inl ⟨5, rfl⟩) (by simp) hbase (Reserved.limits_of_check Reserved.call_limits.1)
    (Reserved.limits_of_check Reserved.call_limits.2.1)
  exact ⟨l, l', r', hcall, hapart⟩

end Ledger

end BotApi.Limit
