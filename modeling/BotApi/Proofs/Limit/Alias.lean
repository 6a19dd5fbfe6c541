import BotApi.Proofs.Limit.Admission
/-!
Methods that share the limits of others. A method counts against the one its deciding entry names, as long
as that one is not an alias again: names are followed once only.
-/

namespace BotApi.Limit

def listed? (method : String) : Value → Option Value
  | .dict es => Entries.getText? es method
  | _ => none

def firstListed? (method : String) (policies : List Value) : Option Value := policies.findSome? (listed? method)

def Settled (method : String) (policies : List Value) : Prop :=
  ∀ base, firstListed? method policies = some (.str base) → base = method

theorem policy_form {policy : Value} (h : checkPolicy? policy = .ok ()) :
    policy.isNull = true ∨ ∃ es, policy = .dict es := by
  unfold checkPolicy? at h
  split at h
  next hnull => exact .inl hnull
  next =>
    unfold checkPolicy at h
    split at h
    · exact .inr ⟨_, rfl⟩
    · cases h

theorem defaultPolicy_accepted : checkPolicy? defaultPolicy = .ok () := by
  with_unfolding_all rfl

theorem baseMethod_cons {policy : Value} (h : checkPolicy? policy = .ok ()) (method : String) (policies : List Value) :
    baseMethod method (policy :: policies) = match listed? method policy with
      | some (.str base) => .ok base
      | some _ => .ok method
      | none => baseMethod method policies := by
  rcases policy_form h with hnull | ⟨es, rfl⟩
  · cases policy with
    | null => rfl
    | _ => cases hnull
  · cases es with
    | nil => rfl
    | cons e es =>
        simp only [baseMethod, Value.truthy, List.isEmpty_cons, Bool.not_false, Bool.not_true, Bool.false_eq_true,
          ↓reduceIte, Value.mentions, Except.bind, listed?]
        cases Entries.getText? (e :: es) method with
        | none => rfl
        | some v => cases v <;> rfl

theorem baseMethod_eq {policies : List Value} (h : ∀ p ∈ policies, checkPolicy? p = .ok ()) (method : String) :
    baseMethod method policies = .ok (match firstListed? method policies with
      | some (.str base) => base
      | _ => method) := by
  induction policies with
  | nil => rfl
  | cons policy policies ih =>
      rw [List.forall_mem_cons] at h
      rw [baseMethod_cons h.1, firstListed?, List.findSome?_cons, ← firstListed?]
      cases listed? method policy with
      | none => exact ih h.2
      | some v => cases v <;> rfl

theorem baseMethod_eq_self_iff {policies : List Value} (h : ∀ p ∈ policies, checkPolicy? p = .ok ()) (method : String) :
    baseMethod method policies = .ok method ↔ Settled method policies := by
  rw [baseMethod_eq h, Settled]
  constructor
  · intro heq base hbase
    rw [hbase] at heq
    exact Except.ok.inj heq
  · intro hself
    split
    next base hbase => rw [hself base hbase]
    next => rfl

namespace Registry

variable {r r' : Registry} {method other base : String} {chat policy override : Value}

theorem limitersFor_congr (h : baseMethod method [override, policy, defaultPolicy] =
    baseMethod other [override, policy, defaultPolicy]) (r : Registry) (bot : Value) :
    r.limitersFor bot method chat policy override = r.limitersFor bot other chat policy override := by
  rw [limitersFor, limitersFor, h]

end Registry

-- An alias has the limiters of what it names, if that stands for itself, and none of them otherwise.
theorem alias_limiters (m t : String) (chat policy override : Value) (hpolicy : checkPolicy? policy = .ok ())
    (hoverride : checkPolicy? override = .ok ())
    (hm : firstListed? m [override, policy, defaultPolicy] = some (.str t)) :
    let policies := [override, policy, defaultPolicy]
    baseMethod m policies = .ok t ∧ (baseMethod t policies = .ok t ↔ Settled t policies) ∧
      (Settled t policies → ∀ (r : Registry) (bot : Value),
        r.limitersFor bot m chat policy override = r.limitersFor bot t chat policy override) ∧
      (¬ Settled t policies → ∀ (r r' r₁ r₁' : Registry) (bot : Int) (ls ls' : List Limiter), r.Tidy → r'.Tidy →
        r.limitersFor (.int bot) m chat policy override = (.ok ls, r₁) →
        r'.limitersFor (.int bot) t chat policy override = (.ok ls', r₁') → ls.Disjoint ls') := by
  have haccepted : ∀ p ∈ [override, policy, defaultPolicy], checkPolicy? p = .ok () := by
    simp [hoverride, hpolicy, defaultPolicy_accepted]
  intro policies
  have hbase : baseMethod m policies = .ok t := by
    rw [baseMethod_eq haccepted, hm]
  have hself := baseMethod_eq_self_iff haccepted t
  refine ⟨hbase, hself, fun hsettled r bot => ?_, fun hnot r r' r₁ r₁' bot ls ls' tidy tidy' hls hls' l hl hl' => ?_⟩
  · exact Registry.limitersFor_congr (hbase.trans (hself.2 hsettled).symm) r bot
  · have hother := baseMethod_eq haccepted t
    obtain ⟨scope, hkey⟩ := Registry.base_of_mem tidy hbase hls l hl
    obtain ⟨scope', hkey'⟩ := Registry.base_of_mem tidy' hother hls' l hl'
    obtain ⟨-, htarget, -⟩ : bot = bot ∧ t = _ ∧ scope = scope' := by
      simpa [scopedKey] using hkey.symm.trans hkey'
    exact hnot (hself.1 (hother.trans (congrArg Except.ok htarget.symm)))

namespace Copy

def policy (base : String) : Value := .ofFields [("copyMessage", .str base)]

def policies (base : String) : List Value := [.null, policy base, defaultPolicy]

theorem accepted (base : String) : checkPolicy? (policy base) = .ok () := rfl

theorem decides (base : String) : firstListed? "copyMessage" (policies base) = some (.str base) := by
  have hnull : listed? "copyMessage" .null = none := rfl
  have hpolicy : listed? "copyMessage" (policy base) = some (.str base) := by
    simp [listed?, policy, Value.ofFields]
  simp [firstListed?, policies, hnull, hpolicy]

theorem settled : Settled "sendMessage" (policies "sendMessage") := by
  intro base h
  have hlevels : ((firstListed? "sendMessage" (policies "sendMessage")).any fun
      | .dict _ => true
      | _ => false) = true := by
    with_unfolding_all rfl
  rw [h] at hlevels
  cases hlevels

def limiters (method base : String) : Except Error (List Limiter) :=
  ((Registry.new defaultStripes).limitersFor (.int 1) method (.int 5) (policy base) .null).1

end Copy

-- Copies are to count as edits, which count as messages; they do not count at all.
theorem copy_of_edit_unlimited : checkPolicy? (Copy.policy "editMessageText") = .ok () ∧
    firstListed? "copyMessage" (Copy.policies "editMessageText") = some (.str "editMessageText") ∧
    (Copy.limiters "copyMessage" "editMessageText").toOption.map (·.length) = some 0 ∧
    (Copy.limiters "editMessageText" "editMessageText").toOption.map (·.length) = some 2 := by
  exact ⟨Copy.accepted _, Copy.decides _, by decide +kernel, by decide +kernel⟩

theorem copy_limited_as_message :
    Copy.limiters "copyMessage" "sendMessage" = Copy.limiters "sendMessage" "sendMessage" := by
  obtain ⟨-, -, hshared, -⟩ := alias_limiters "copyMessage" "sendMessage" (.int 5) (Copy.policy "sendMessage") .null
    (Copy.accepted _) rfl (Copy.decides _)
  exact congrArg (·.1) (hshared Copy.settled (.new defaultStripes) (.int 1))

end BotApi.Limit
