import BotApi.Proofs.Limit.Admission
import BotApi.Proofs.Limit.Waiting
/-!
What a refused request for limiters leaves behind. Nothing that was in the registry changes; the limiter of all calls
may have been made before the options for the chat are refused, and a group before its first period is.
-/

namespace BotApi

namespace Value

theorem eq_of_int_equal {v : Value} {a b : Int} (ha : equal (.int a) v = true) (hb : equal (.int b) v = true) :
    a = b := by
  cases v <;> simp_all [equal, equalAtoms, integer?, Number.equalsInt]

end Value

namespace Limit

structure Group.Retains (g g' : Group) : Prop where
  key : g'.key = g.key
  buckets : g.buckets <+: g'.buckets

namespace Registry

variable {r r' : Registry} {key : Key} {o : Options} {b : Bucket} {e : Error}

structure Retains (r r' : Registry) : Prop where
  stripes : r'.stripes = r.stripes
  limiters : r.limiters <+: r'.limiters
  groups : ∃ kept more, List.Forall₂ Group.Retains r.groups kept ∧ r'.groups = kept ++ more

theorem Retains.refl (r : Registry) : Retains r r := by
  refine ⟨rfl, List.prefix_rfl, r.groups, [], ?_, (List.append_nil _).symm⟩
  exact List.forall₂_same.2 fun g _ => ⟨rfl, List.prefix_rfl⟩

theorem exists_groups_withGroup (r : Registry) (key : Key) : ∃ more, (r.withGroup key).groups = r.groups ++ more := by
  unfold withGroup
  split
  · exact ⟨[], (List.append_nil _).symm⟩
  · exact ⟨_, rfl⟩

theorem Retains.withGroup (h : Retains r r') (key : Key) : Retains r (r'.withGroup key) := by
  obtain ⟨kept, more, hkept, hgroups⟩ := h.groups
  obtain ⟨last, hlast⟩ := exists_groups_withGroup r' key
  refine ⟨?_, ?_, kept, more ++ last, hkept, ?_⟩
  · rw [(extends_withGroup r' key).stripes, h.stripes]
  · rw [limiters_withGroup]
    exact h.limiters
  · rw [hlast, hgroups, List.append_assoc]

def OneGroup (r : Registry) : Prop :=
  ∀ key, ∀ g ∈ r.groups, Value.equalLists g.key key = true → r.group? key = some g

theorem oneGroup_putBucket (one : r.OneGroup) (key : Key) (b : Bucket) : (r.putBucket key b).OneGroup := by
  cases hk : groupKey? key with
  | none =>
      rw [putBucket, hk]
      exact one
  | some group =>
      intro other g' hg' hother
      simp only [putBucket, hk] at hg'
      obtain ⟨g, hg, rfl⟩ := List.mem_map.1 hg'
      have hkey : Value.equalLists g.key other = true := by
        split at hother
        · rwa [Group.key_put] at hother
        · exact hother
      rw [group?_putBucket r b other hk, one other g hg hkey, Option.map_some]

theorem eq_scopedKey_of_equalLists {bot bot' : Int} {base base' level level' : String}
    (h : Value.equalLists (scopedKey bot base (.str level)) key = true)
    (h' : Value.equalLists (scopedKey bot' base' (.str level')) key = true) :
    scopedKey bot base (.str level) = scopedKey bot' base' (.str level') := by
  rcases key with _ | ⟨x, _ | ⟨y, _ | ⟨z, _ | ⟨w, key⟩⟩⟩⟩ <;>
    simp only [scopedKey, Value.equalLists, Bool.and_eq_true, Bool.and_false, Bool.false_eq_true, and_true] at h h'
  obtain ⟨hx, hy, hz⟩ := h
  obtain ⟨hx', hy', hz'⟩ := h'
  obtain rfl := Value.eq_of_int_equal hx hx'
  obtain rfl := Value.eq_str_of_str_equal hy
  obtain rfl := Value.eq_str_of_str_equal hz
  rw [Value.str.inj (Value.eq_str_of_str_equal hy'), Value.str.inj (Value.eq_str_of_str_equal hz')]

theorem oneGroup_withGroup (tidy : r.Tidy) (one : r.OneGroup) (bot : Int) (base level : String) :
    (r.withGroup (scopedKey bot base (.str level))).OneGroup := by
  by_cases hsome : (r.group? (scopedKey bot base (.str level))).isSome = true
  · rwa [withGroup, if_pos hsome]
  · rw [withGroup, if_neg hsome]
    intro key g hg hkey
    rcases List.mem_append.1 hg with hg | hg
    · have hfound := one key g hg hkey
      rw [group?] at hfound ⊢
      rw [List.find?_append, hfound]
      rfl
    · obtain rfl := List.mem_singleton.1 hg
      have hnone : r.groups.find? (fun g => Value.equalLists g.key key) = none := by
        apply List.find?_eq_none.2
        intro h hh hhkey
        obtain ⟨bot', base', level', hkey'⟩ := tidy.groups h hh
        rw [hkey'] at hhkey
        have hsame := eq_scopedKey_of_equalLists hhkey hkey
        apply hsome
        rw [group?, List.find?_isSome]
        refine ⟨h, hh, ?_⟩
        rw [hkey', hsame]
        exact equalLists_scopedKey.2 ⟨rfl, rfl, Value.equal_str_self level⟩
      simp [group?, hnone, hkey]

theorem oneGroup_make (tidy : r.Tidy) (one : r.OneGroup) (bot : Int) (base : String) (scope : Value) (o : Options) :
    (r.make (scopedKey bot base scope) o).2.OneGroup := by
  simp only [make, groupKey?_scopedKey]
  have one' := oneGroup_withGroup tidy one bot base (scopeLevel scope)
  split
  · exact one
  · split
    · exact one'
    next b _ =>
      split
      · exact one'
      · exact oneGroup_putBucket one' (scopedKey bot base scope) b

theorem oneGroup_getOrMake (tidy : r.Tidy) (one : r.OneGroup) (bot : Int) (base : String) (scope : Value) (o : Options) :
    (r.getOrMake (scopedKey bot base scope) o).2.OneGroup := by
  unfold getOrMake
  split
  · exact one
  · exact one
  · exact oneGroup_make tidy one bot base scope o

theorem oneGroup_limitersFor (tidy : r.Tidy) (one : r.OneGroup) (bot : Int) (method : String)
    (chat policy override : Value) : (r.limitersFor (.int bot) method chat policy override).2.OneGroup := by
  have h : (r.limitersFor (.int bot) method chat policy override).2.Tidy ∧
      (r.limitersFor (.int bot) method chat policy override).2.OneGroup := by
    apply limitersFor_preserves (P := fun r => r.Tidy ∧ r.OneGroup) _ ⟨tidy, one⟩
    rintro r base scope o - ⟨tidy, one⟩
    exact ⟨(prepares_getOrMake tidy rfl).1.tidy, oneGroup_getOrMake tidy one bot base scope o⟩
  exact h.2

theorem oneGroup_uses (one : r.OneGroup) (h : Uses key r r') : r'.OneGroup := by
  rcases h with rfl | ⟨-, b, rfl⟩
  · exact one
  · exact oneGroup_putBucket one key b

theorem retains_put {g : Group} {name : String} (h : g.bucket? name = none) (b : Bucket) :
    g.Retains (g.put name b) := by
  rw [Group.put, h]
  exact ⟨rfl, List.prefix_append _ _⟩

theorem retains_putBucket (one : r.OneGroup) {group : Key} (hk : groupKey? key = some group)
    (hnone : (r.withGroup group).bucket? key = none) (b : Bucket) :
    Retains r ((r.withGroup group).putBucket key b) := by
  obtain ⟨more, hgroups⟩ := exists_groups_withGroup r group
  have hextends := (extends_withGroup r group).stripes
  refine ⟨?_, ?_, ?_⟩
  · rw [(extends_putBucket _ key b).stripes, hextends]
  · rw [limiters_putBucket, limiters_withGroup]
  · simp only [putBucket, hk, hgroups, List.map_append]
    refine ⟨_, _, ?_, rfl⟩
    rw [List.forall₂_map_right_iff, List.forall₂_same]
    intro g hg
    split
    next hsame =>
      apply retains_put
      rw [bucket?_withGroup, bucket?, hk, Option.bind_some, one group g hg hsame] at hnone
      exact hnone
    next => exact ⟨rfl, List.prefix_rfl⟩

theorem Retains.limiter (h : Retains r r') (l : Limiter) : Retains r { r' with limiters := r'.limiters ++ [l] } :=
  ⟨h.stripes, h.limiters.trans (List.prefix_append _ _), h.groups⟩

theorem retains_make (one : r.OneGroup) (key : Key) (o : Options) : Retains r (r.make key o).2 := by
  unfold make
  split
  · exact .refl r
  · split
    · exact .refl r
    next group hk =>
      have hgroup := (Retains.refl r).withGroup group
      dsimp only
      split
      · exact hgroup
      next b _ =>
        split
        · exact hgroup.limiter _
        next hnone =>
          rw [Option.not_isSome_iff_eq_none] at hnone
          exact (retains_putBucket one hk hnone b).limiter _

theorem retains_getOrMake (one : r.OneGroup) (key : Key) (o : Options) : Retains r (r.getOrMake key o).2 := by
  unfold getOrMake
  split
  · exact .refl r
  · exact .refl r
  · exact retains_make one key o

theorem retains_levelLimiter (one : r.OneGroup) (key : Key) (o : Except Error (Option Options)) :
    Retains r (r.levelLimiter key o).2 := by
  unfold levelLimiter
  split
  · exact .refl r
  · exact .refl r
  next o => exact retains_getOrMake one key o

def PeriodFault (e : Error) : Prop := e = .misuse .overflow "" ∨ e = .misuse .assertion ""

theorem periodFault_of_bucketFor (h : bucketFor o = .error e) : PeriodFault e := by
  unfold bucketFor at h
  split at h
  · cases h
    exact .inl rfl
  · cases h
    exact .inr rfl
  · cases h

-- Who is refused leaves the registry as it is, but for an empty group if it is the period that is refused.
def Leaves (bot : Value) (e : Error) (r r' : Registry) : Prop :=
  r' = r ∨ PeriodFault e ∧ ∃ base level, r' = r.withGroup [bot, .str base, .str level]

theorem groupKey?_of_bot (bot : Value) (base : String) (scope : Value) :
    ∃ level, groupKey? [bot, .str base, scope] = some [bot, .str base, .str level] := by
  simp [groupKey?]

variable {bot scope : Value} {base : String}

theorem leaves_make (h : r.make [bot, .str base, scope] o = (.error e, r')) : Leaves bot e r r' := by
  obtain ⟨level, hk⟩ := groupKey?_of_bot bot base scope
  simp only [make, hk] at h
  split at h
  · cases h
    exact .inl rfl
  · split at h
    next hbucket =>
      cases h
      exact .inr ⟨periodFault_of_bucketFor hbucket, base, level, rfl⟩
    next => cases h

theorem leaves_getOrMake (h : r.getOrMake [bot, .str base, scope] o = (.error e, r')) : Leaves bot e r r' := by
  unfold getOrMake at h
  split at h
  · cases h
    exact .inl rfl
  · cases h
  · exact leaves_make h

theorem leaves_levelLimiter {o : Except Error (Option Options)}
    (h : r.levelLimiter [bot, .str base, scope] o = (.error e, r')) : Leaves bot e r r' := by
  rcases levelLimiter_cases h with ⟨e', -, -, rfl⟩ | ⟨-, hres, -⟩ | ⟨x, l, -, hmake, hres⟩
  · exact .inl rfl
  · cases hres
  · cases l with
    | error e' =>
        cases hres
        exact leaves_getOrMake hmake
    | ok l => cases hres

theorem limiters_make {l : Limiter} (h : r.make key o = (.ok l, r')) : r'.limiters = r.limiters ++ [l] := by
  unfold make at h
  split at h
  · cases h
  · split at h
    · cases h
    next group _ =>
      dsimp only at h
      split at h
      · cases h
      · cases h
        split
        · rw [limiters_withGroup]
        · rw [limiters_putBucket, limiters_withGroup]

theorem limiters_getOrMake {l : Limiter} (h : r.getOrMake key o = (.ok l, r')) :
    r'.limiters = r.limiters ∨ r'.limiters = r.limiters ++ [l] := by
  unfold getOrMake at h
  split at h
  · cases h
  · cases h
    exact .inl rfl
  · exact .inr (limiters_make h)

theorem limiters_levelLimiter {o : Except Error (Option Options)} {ls : List Limiter}
    (h : r.levelLimiter key o = (.ok ls, r')) :
    r'.limiters = r.limiters ∨ ∃ l, ls = [l] ∧ r'.limiters = r.limiters ++ [l] := by
  rcases levelLimiter_cases h with ⟨e, -, hres, -⟩ | ⟨-, -, rfl⟩ | ⟨x, l, -, hmake, hres⟩
  · cases hres
  · exact .inl rfl
  · cases l with
    | error e => cases hres
    | ok l =>
        cases hres
        apply (limiters_getOrMake hmake).imp_right
        intro hadded
        exact ⟨l, rfl, hadded⟩

theorem retains_limitersFor_null (one : r.OneGroup) (bot : Value) (method : String) (policy override : Value) :
    Retains r (r.limitersFor bot method .null policy override).2 := by
  simp only [limitersFor]
  split
  · exact .refl r
  next base _ =>
    have h := retains_levelLimiter one [bot, .str base, .str Level.total.name]
      (levelOptions .total base .null [override, policy, defaultPolicy])
    split
    next hfirst => rwa [hfirst] at h
    next hfirst => rwa [hfirst] at h

theorem Retains.leaves {r'' : Registry} (h : Retains r r') (hleaves : Leaves bot e r' r'') : Retains r r'' := by
  rcases hleaves with rfl | ⟨-, base, level, rfl⟩
  · exact h
  · exact h.withGroup _

theorem limitersFor_stages {method : String} {chat policy override : Value}
    (h : r.limitersFor bot method chat policy override = (.error e, r')) :
    (r.limitersFor bot method .null policy override = (.error e, r') ∧ Leaves bot e r r') ∨
      ∃ ls r₁, r.limitersFor bot method .null policy override = (.ok ls, r₁) ∧
        (r₁.limiters = r.limiters ∨ ∃ l, ls = [l] ∧ r₁.limiters = r.limiters ++ [l]) ∧ Leaves bot e r₁ r' := by
  generalize hres : Except.error e = res at h
  cases course_of_limitersFor h with
  | unresolved hbase =>
      cases hres
      exact .inl ⟨by rw [limitersFor, hbase], .inl rfl⟩
  | refused hbase hfirst =>
      cases hres
      exact .inl ⟨by simp only [limitersFor, hbase, hfirst], leaves_levelLimiter hfirst⟩
  | general _ _ _ => cases hres
  | @particular base ls ms r₁ _ hbase hfirst _ hsecond =>
      have hbare : r.limitersFor bot method .null policy override = (.ok ls, r₁) := by
        simp only [limitersFor, hbase, hfirst]
        rfl
      refine .inr ⟨ls, r₁, hbare, limiters_levelLimiter hfirst, ?_⟩
      cases ms with
      | error e' =>
          cases hres
          exact leaves_levelLimiter hsecond
      | ok ms => cases hres

end Registry

namespace Ledger

variable {s : Ledger}

theorem oneGroup_step (sound : s.Sound) (one : s.registry.OneGroup) (a : Act) : (s.step a).registry.OneGroup := by
  cases a with
  | create bot base scope o => exact Registry.oneGroup_getOrMake sound.tidy one bot base scope o
  | prepare bot method chat policy override =>
      exact Registry.oneGroup_limitersFor sound.tidy one bot method chat policy override
  | attempt i =>
      rw [step]
      cases s.registry.limiters[i]? with
      | none => exact one
      | some l => exact Registry.oneGroup_uses one (s.uses_attempt l)
  | await i =>
      rw [step]
      cases s.registry.limiters[i]? with
      | none => exact one
      | some l => exact Registry.oneGroup_uses one (s.uses_await l)
  | pause length alarm => exact one

theorem oneGroup_run (sound : s.Sound) (one : s.registry.OneGroup) (acts : List Act) :
    (s.run acts).registry.OneGroup := by
  induction acts generalizing s with
  | nil => exact one
  | cons a acts ih => exact ih (sound.step a) (oneGroup_step sound one a)

-- A refused request leaves what the same request without its chat leaves, and changes nothing that was there.
theorem limitersFor_refused (stripes : Int) (c : Clock) (acts : List Act) (bot : Value) (method : String)
    (chat policy override : Value) (e : Error) (r' : Registry)
    (h : ((start stripes c).run acts).registry.limitersFor bot method chat policy override = (.error e, r')) :
    let r := ((start stripes c).run acts).registry
    let bare := r.limitersFor bot method .null policy override
    r.Retains r' ∧ (bare = (.error e, r') ∧ Registry.Leaves bot e r r' ∨
      ∃ ls r₁, bare = (.ok ls, r₁) ∧ (r₁.limiters = r.limiters ∨ ∃ l, ls = [l] ∧ r₁.limiters = r.limiters ++ [l]) ∧
        Registry.Leaves bot e r₁ r') := by
  intro r bare
  have one : r.OneGroup := by
    apply oneGroup_run (Sound.of_start stripes c)
    intro key g hg
    cases hg
  have hbare := Registry.retains_limitersFor_null one bot method policy override
  have hstages := Registry.limitersFor_stages h
  refine ⟨?_, hstages⟩
  rcases hstages with ⟨-, hleaves⟩ | ⟨ls, r₁, hr₁, -, hleaves⟩
  · exact (Registry.Retains.refl r).leaves hleaves
  · rw [hr₁] at hbare
    exact hbare.leaves hleaves

namespace Refused

def policy : Value := .ofFields [("m", .ofFields [
  (Level.total.name, .ofFields [("limit", .int 1)]), (Level.perChat.name, .ofFields [("limit", .int 0)])])]

def call : Except Error (List Limiter) × Registry :=
  (Registry.new defaultStripes).limitersFor (.int 1) "m" (.int 5) policy .null

theorem call_adds_limiter : (match call.1 with
      | .error (.config _) => true
      | _ => false) = true ∧ call.2.size = 1 ∧ call.2.groups.length = 1 := by
  with_unfolding_all exact ⟨rfl, rfl, rfl⟩

theorem call_rejected : ∃ fault, call.1 = .error (.config fault) := by
  have h := call_adds_limiter.1
  split at h
  next fault hcall => exact ⟨fault, hcall⟩
  next => cases h

end Refused

-- The limit for the chat is not positive, and the limiter of all calls is made before that is seen.
theorem refused_call_adds : (∃ fault, Refused.call.1 = .error (.config fault)) ∧
    (Registry.new defaultStripes).size = 0 ∧ Refused.call.2.size = 1 ∧ Refused.call.2.groups.length = 1 :=
  ⟨Refused.call_rejected, rfl, Refused.call_adds_limiter.2⟩

theorem refused_call_retains : ∃ fault, Refused.call.1 = .error (.config fault) ∧
    (Registry.new defaultStripes).Retains Refused.call.2 := by
  obtain ⟨fault, hfault⟩ := Refused.call_rejected
  have hrefused := limitersFor_refused defaultStripes ⟨0, none⟩ [] (.int 1) "m" (.int 5) Refused.policy .null
    (.config fault) Refused.call.2 (Prod.ext hfault rfl)
  exact ⟨fault, hfault, hrefused.1⟩

end Ledger

end Limit

end BotApi
