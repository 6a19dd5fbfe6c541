import BotApi.Proofs.Limit.Registry
/-!
Which bucket a key stands for. Limiters of one group share a bucket if their names agree, whatever their
scopes are; a bucket is opened by the first of them and changes only through limiters of its own slot.
-/

namespace BotApi.Limit

def Named (chat : Value) : Prop := (∃ n, chat = .int n) ∨ ∃ name, chat = .str name

theorem Named.isKey {chat : Value} (h : Named chat) : chat.isKey = true := by
  rcases h with ⟨n, rfl⟩ | ⟨name, rfl⟩ <;> rfl

theorem Named.isNull {chat : Value} (h : Named chat) : chat.isNull = false := by
  rcases h with ⟨n, rfl⟩ | ⟨name, rfl⟩ <;> rfl

theorem Named.equal_self {chat : Value} (h : Named chat) : chat.equal chat = true := by
  rcases h with ⟨n, rfl⟩ | ⟨name, rfl⟩
  · rw [Value.equal_int, beq_self_eq_true]
  · exact Value.equal_str_self name

structure Slot where
  bot : Int
  base : String
  level : String
  name : String
  deriving DecidableEq

def Slot.group (σ : Slot) : Key := scopedKey σ.bot σ.base (.str σ.level)

def slotOf (bot : Int) (base : String) (scope : Value) : Slot :=
  ⟨bot, base, scopeLevel scope, nameOf (scopedKey bot base scope)⟩

def slot? : Key → Option Slot
  | [.int bot, .str base, scope] => some (slotOf bot base scope)
  | _ => none

theorem slot?_scopedKey (bot : Int) (base : String) (scope : Value) :
    slot? (scopedKey bot base scope) = some (slotOf bot base scope) := rfl

theorem nameOf_scopedKey (bot : Int) (base : String) (scope : Value) : nameOf (scopedKey bot base scope) =
    (Value.int bot).shownText ++ ":" ++ (Value.str base).shownText ++ ":" ++ scope.shownText := rfl

theorem slotOf_inj {bot bot' : Int} {base base' : String} {scope scope' : Value} :
    slotOf bot base scope = slotOf bot' base' scope' ↔
      bot = bot' ∧ base = base' ∧ scopeLevel scope = scopeLevel scope' ∧ scope.shownText = scope'.shownText := by
  rw [slotOf, slotOf, Slot.mk.injEq, nameOf_scopedKey, nameOf_scopedKey]
  constructor
  · rintro ⟨rfl, rfl, hlevel, hname⟩
    exact ⟨rfl, rfl, hlevel, (String.append_right_inj _).1 hname⟩
  · rintro ⟨rfl, rfl, hlevel, htext⟩
    exact ⟨rfl, rfl, hlevel, by rw [htext]⟩

theorem exists_of_slot? {key : Key} {σ : Slot} (h : slot? key = some σ) :
    ∃ bot base scope, key = scopedKey bot base scope ∧ σ = slotOf bot base scope := by
  unfold slot? at h
  split at h
  · exact ⟨_, _, _, rfl, (Option.some.inj h).symm⟩
  · cases h

theorem equalLists_group {σ τ : Slot} : Value.equalLists σ.group τ.group = true ↔
    σ.bot = τ.bot ∧ σ.base = τ.base ∧ σ.level = τ.level := by
  rw [Slot.group, Slot.group, equalLists_scopedKey]
  refine and_congr_right fun _ => and_congr_right fun _ => ⟨fun h => ?_, fun h => ?_⟩
  · exact Value.str.inj (Value.eq_str_of_equal_str h)
  · rw [h]
    exact Value.equal_str_self _

theorem Group.bucket?_put (g : Group) (name other : String) (b : Bucket) :
    (g.put name b).bucket? other = if other = name then some b else g.bucket? other := by
  split
  next h =>
    rw [h]
    exact g.bucket?_put_self name b
  next hne =>
    have hname : (name == other) = false := by simpa using Ne.symm hne
    unfold put
    split
    · have hkeeps : ((fun e : String × Bucket => e.1 == other) ∘
          fun e => if e.1 == name then (name, b) else e) = fun e => e.1 == other := by
        funext e
        by_cases he : e.1 = name <;> simp [he]
      simp only [bucket?, List.find?_map, hkeeps, Option.map_map]
      cases hfind : g.buckets.find? fun e => e.1 == other with
      | none => rfl
      | some e =>
          have he : e.1 = other := by simpa using List.find?_some hfind
          have hne' : e.1 ≠ name := by rwa [he]
          simp [hne']
    · simp [bucket?, List.find?_append, hname]

namespace Registry

variable {r r' : Registry} {key : Key} {σ τ : Slot} {b : Bucket} {o : Options} {bot : Int} {base : String}
  {scope : Value}

def at? (r : Registry) (σ : Slot) : Option Bucket := (r.group? σ.group).bind (·.bucket? σ.name)

def first? (r : Registry) (σ : Slot) : Option Limiter := r.limiters.find? fun l => slot? l.key == some σ

theorem bucket?_eq_at? (r : Registry) (h : slot? key = some σ) : r.bucket? key = r.at? σ := by
  obtain ⟨bot, base, scope, rfl, rfl⟩ := exists_of_slot? h
  rw [bucket?, groupKey?_scopedKey, Option.bind_some]
  rfl

theorem key_of_group? (tidy : r.Tidy) {g : Group} (h : r.group? σ.group = some g) : g.key = σ.group := by
  obtain ⟨bot, base, level, hkey⟩ := tidy.groups g (List.mem_of_find?_eq_some h)
  have hsame := equalLists_of_group? h
  rw [hkey, Slot.group, equalLists_scopedKey] at hsame
  obtain ⟨rfl, rfl, hlevel⟩ := hsame
  rw [hkey, Slot.group, Value.str.inj (Value.eq_str_of_equal_str hlevel)]

theorem at?_putBucket (tidy : r.Tidy) (h : slot? key = some σ) (hgroup : (r.group? σ.group).isSome = true) (b : Bucket)
    (τ : Slot) : (r.putBucket key b).at? τ = if τ = σ then some b else r.at? τ := by
  have hk : groupKey? key = some σ.group ∧ nameOf key = σ.name := by
    obtain ⟨bot, base, scope, rfl, rfl⟩ := exists_of_slot? h
    exact ⟨groupKey?_scopedKey bot base scope, rfl⟩
  rw [at?, group?_putBucket r b τ.group hk.1, hk.2]
  cases hg : r.group? τ.group with
  | none =>
      have hne : τ ≠ σ := by
        rintro rfl
        rw [hg] at hgroup
        cases hgroup
      rw [if_neg hne, at?, hg]
      rfl
  | some g =>
      rw [Option.map_some, Option.bind_some, key_of_group? tidy hg, at?, hg, Option.bind_some]
      by_cases hsame : Value.equalLists τ.group σ.group = true
      · rw [if_pos hsame, Group.bucket?_put]
        have hiff : τ.name = σ.name ↔ τ = σ := by
          obtain ⟨hbot, hbase, hlevel⟩ := equalLists_group.1 hsame
          refine ⟨fun hname => ?_, fun heq => by rw [heq]⟩
          cases τ
          cases σ
          simp_all
        simp only [hiff]
      · have hne : τ ≠ σ := by
          rintro rfl
          exact hsame (equalLists_group.2 ⟨rfl, rfl, rfl⟩)
        rw [if_neg hsame, if_neg hne]

theorem group?_isSome_of_at? (h : r.at? σ = some b) : (r.group? σ.group).isSome = true := by
  obtain ⟨g, hg, -⟩ := Option.bind_eq_some_iff.1 h
  rw [hg]
  rfl

theorem at?_withGroup (r : Registry) (group : Key) (σ : Slot) : (r.withGroup group).at? σ = r.at? σ := by
  unfold withGroup
  split
  · rfl
  · simp only [at?, group?, List.find?_append]
    cases r.groups.find? fun g => Value.equalLists g.key σ.group with
    | some g => rfl
    | none => cases h : Value.equalLists group σ.group <;> simp [h, Group.bucket?]

theorem limiters_withGroup (r : Registry) (group : Key) : (r.withGroup group).limiters = r.limiters := by
  unfold withGroup
  split <;> rfl

theorem limiters_putBucket (r : Registry) (key : Key) (b : Bucket) : (r.putBucket key b).limiters = r.limiters := by
  unfold putBucket
  split <;> rfl

theorem first?_putBucket (r : Registry) (key : Key) (b : Bucket) (σ : Slot) :
    (r.putBucket key b).first? σ = r.first? σ := by
  rw [first?, first?, limiters_putBucket]

inductive Adds (key : Key) (o : Options) (r r' : Registry) : Prop
  | same (limiters : r'.limiters = r.limiters) (buckets : ∀ σ, r'.at? σ = r.at? σ)
  | limiter {b : Bucket} (opened : bucketFor o = .ok b) (limiters : r'.limiters = r.limiters ++ [⟨key, o⟩])
      (buckets : ∀ σ, r'.at? σ = if slot? key = some σ then (r.at? σ).or (some b) else r.at? σ)

theorem adds_make {res : Except Error Limiter} (tidy : r.Tidy) (h : r.make (scopedKey bot base scope) o = (res, r')) :
    Adds (scopedKey bot base scope) o r r' := by
  have hslot := slot?_scopedKey bot base scope
  have hk := groupKey?_scopedKey bot base scope
  simp only [make, hk] at h
  split at h
  · cases h
    exact .same rfl fun _ => rfl
  · have tidy' := tidy.withGroup bot base (scopeLevel scope)
    split at h
    · cases h
      exact .same (limiters_withGroup _ _) (at?_withGroup r _)
    · next b hb =>
      cases h
      rw [bucket?_eq_at? _ hslot, at?_withGroup]
      cases hold : r.at? (slotOf bot base scope) with
      | some b' =>
          simp only [Option.isSome_some, ↓reduceIte]
          refine .limiter hb (by rw [limiters_withGroup]) fun σ => ?_
          refine (at?_withGroup r _ σ).trans ?_
          split
          next hσ =>
            cases hσ
            rw [hold]
            rfl
          next => rfl
      | none =>
          simp only [Option.isSome_none, Bool.false_eq_true, ↓reduceIte]
          refine .limiter hb (by rw [limiters_putBucket, limiters_withGroup]) fun σ => ?_
          obtain ⟨g, hg⟩ := exists_group?_withGroup r bot base (scopeLevel scope)
          have hgroup : ((r.withGroup (scopedKey bot base (.str (scopeLevel scope)))).group?
              (slotOf bot base scope).group).isSome = true := by
            rw [show (slotOf bot base scope).group = scopedKey bot base (.str (scopeLevel scope)) from rfl, hg]
            rfl
          refine (at?_putBucket tidy' hslot hgroup b σ).trans ?_
          rw [at?_withGroup]
          by_cases hσ : σ = slotOf bot base scope
          · rw [if_pos hσ, if_pos (by rw [hslot, hσ]), hσ, hold]
            rfl
          · rw [if_neg hσ, if_neg fun heq => hσ (Option.some.inj (heq.symm.trans hslot))]

theorem adds_getOrMake {res : Except Error Limiter} (tidy : r.Tidy)
    (h : r.getOrMake (scopedKey bot base scope) o = (res, r')) : Adds (scopedKey bot base scope) o r r' := by
  unfold getOrMake at h
  split at h
  · cases h
    exact .same rfl fun _ => rfl
  · cases h
    exact .same rfl fun _ => rfl
  · exact adds_make tidy h

def Uses (key : Key) (r r' : Registry) : Prop :=
  r' = r ∨ (r.bucket? key).isSome = true ∧ ∃ b, r' = r.putBucket key b

theorem uses_tryAcquire (r : Registry) (l : Limiter) (now : Nat) : Uses l.key r (r.tryAcquire l now).2 := by
  unfold tryAcquire
  split
  · exact .inl rfl
  next b hb => exact .inr ⟨by rw [hb]; rfl, _, rfl⟩

theorem uses_acquire (r : Registry) (l : Limiter) (c : Clock) : Uses l.key r (r.acquire l c).2.1 := by
  obtain ⟨res, r', c', h⟩ : ∃ res r' c', r.acquire l c = (res, r', c') := ⟨_, _, _, rfl⟩
  rw [h]
  cases acquires_of_acquire h with
  | absent _ | woken _ _ => exact .inl rfl
  | granted hb _ _ => exact .inr ⟨by rw [hb]; rfl, _, rfl⟩

theorem Uses.limiters (h : Uses key r r') : r'.limiters = r.limiters := by
  rcases h with rfl | ⟨-, b, rfl⟩
  · rfl
  · exact limiters_putBucket r key b

theorem Uses.at? (tidy : r.Tidy) (h : Uses key r r') (hkey : slot? key = some σ) (hne : τ ≠ σ) :
    r'.at? τ = r.at? τ := by
  rcases h with rfl | ⟨hsome, b, rfl⟩
  · rfl
  · rw [bucket?_eq_at? r hkey] at hsome
    obtain ⟨b', hb'⟩ := Option.isSome_iff_exists.1 hsome
    rw [at?_putBucket tidy hkey (group?_isSome_of_at? hb'), if_neg hne]

end Registry

end BotApi.Limit
