import BotApi.Limit.Registry
import BotApi.Proofs.Limit.Pace
import BotApi.Proofs.Values.Entries
/-!
What the operations of a registry leave as it was. The bucket of all calls of a method changes only
through limiters of that very key, and then only by permits for which there is room.
-/

namespace BotApi

namespace Value

theorem equal_int (a b : Int) : equal (.int a) (.int b) = (a == b) := by
  simp [equal, equalAtoms, integer?]

end Value

namespace Limit

def scopedKey (bot : Int) (base : String) (scope : Value) : Key := [.int bot, .str base, scope]

def totalKey (bot : Int) (base : String) : Key := scopedKey bot base (.str Level.total.name)

def scopeLevel (scope : Value) : String :=
  if scope.equal (.str Level.total.name) then Level.total.name else Level.perChat.name

theorem groupKey?_scopedKey (bot : Int) (base : String) (scope : Value) :
    groupKey? (scopedKey bot base scope) = some (scopedKey bot base (.str (scopeLevel scope))) := by
  by_cases h : scope.equal (.str Level.total.name) = true <;>
    simp [groupKey?, scopedKey, scopeLevel, h]

theorem equalLists_scopedKey {bot bot' : Int} {base base' : String} {scope scope' : Value} :
    Value.equalLists (scopedKey bot base scope) (scopedKey bot' base' scope') = true ↔
      bot = bot' ∧ base = base' ∧ scope.equal scope' = true := by
  have hstr : Value.equal (.str base) (.str base') = (base == base') := by
    simp [Value.equal, Value.equalAtoms]
  simp [scopedKey, Value.equalLists, Value.equal_int, hstr]

theorem scopeLevel_total : scopeLevel (.str Level.total.name) = Level.total.name := by
  simp [scopeLevel, Value.equal_str_self]

theorem eq_total_of_scopeLevel {scope : Value} (h : scopeLevel scope = Level.total.name) :
    scope = .str Level.total.name := by
  unfold scopeLevel at h
  split at h
  · rename_i hs
    exact Value.eq_str_of_equal_str hs
  · simp [Level.name] at h

namespace Group

theorem key_put (g : Group) (name : String) (b : Bucket) : (g.put name b).key = g.key := by
  unfold put
  split <;> rfl

theorem bucket?_put_self (g : Group) (name : String) (b : Bucket) :
    (g.put name b).bucket? name = some b := by
  unfold put
  split
  · rename_i h
    obtain ⟨c, hc⟩ := Option.isSome_iff_exists.1 h
    have hp : ((fun e : String × Bucket => e.1 == name) ∘
        fun e => if e.1 == name then (name, b) else e) = fun e => e.1 == name := by
      funext e
      by_cases he : e.1 = name <;> simp [he]
    simp only [bucket?, List.find?_map, hp]
    obtain ⟨e, he, -⟩ := Option.map_eq_some_iff.1 hc
    have hn : (e.1 == name) = true := by simpa using List.find?_some he
    simp only [he, Option.map_some, hn, ↓reduceIte]
  · rename_i h
    have hnone : g.buckets.find? (·.1 == name) = none := by
      simpa only [bucket?, Option.isSome_map, Option.not_isSome_iff_eq_none] using h
    simp [bucket?, List.find?_append, hnone]

theorem isSome_bucket?_iff {g : Group} {name : String} :
    (g.bucket? name).isSome = true ↔ ∃ e ∈ g.buckets, e.1 = name := by
  simp [bucket?, List.find?_isSome]

theorem isSome_bucket?_put {g : Group} {name : String} (other : String) (b : Bucket)
    (h : (g.bucket? name).isSome = true) : ((g.put other b).bucket? name).isSome = true := by
  obtain ⟨e, he, rfl⟩ := isSome_bucket?_iff.1 h
  rw [isSome_bucket?_iff]
  unfold put
  split
  · refine ⟨_, List.mem_map_of_mem he, ?_⟩
    split
    · rename_i hn
      exact (eq_of_beq hn).symm
    · rfl
  · exact ⟨e, List.mem_append_left _ he, rfl⟩

end Group

namespace Registry

variable {r : Registry} {key : Key} {b : Bucket}

structure Tidy (r : Registry) : Prop where
  limiters : ∀ l ∈ r.limiters, ∃ bot base scope, l.key = scopedKey bot base scope
  groups : ∀ g ∈ r.groups, ∃ bot base level, g.key = scopedKey bot base (.str level)
  buckets : ∀ l ∈ r.limiters, (r.bucket? l.key).isSome = true

theorem tidy_new (stripes : Int) : (new stripes).Tidy :=
  ⟨by simp [new], by simp [new], by simp [new]⟩

theorem group?_putBucket (r : Registry) {key group : Key} (b : Bucket) (other : Key)
    (hg : groupKey? key = some group) :
    (r.putBucket key b).group? other = (r.group? other).map fun g =>
      if Value.equalLists g.key group then g.put (nameOf key) b else g := by
  have hp : ((fun g : Group => Value.equalLists g.key other) ∘
      fun g => if Value.equalLists g.key group then g.put (nameOf key) b else g) =
        fun g => Value.equalLists g.key other := by
    funext g
    simp only [Function.comp]
    split <;> simp [Group.key_put]
  simp only [putBucket, hg, group?, List.find?_map, hp]

theorem equalLists_of_group? {other : Key} {g : Group} (h : r.group? other = some g) :
    Value.equalLists g.key other = true := by
  simpa using List.find?_some h

theorem bucket?_putBucket_self {group : Key} {g : Group} (hk : groupKey? key = some group)
    (hg : r.group? group = some g) : (r.putBucket key b).bucket? key = some b := by
  simp only [bucket?, hk, Option.bind_some, group?_putBucket r b group hk, hg, Option.map_some,
    equalLists_of_group? hg, ↓reduceIte, Group.bucket?_put_self]

theorem isSome_bucket?_putBucket (key : Key) (b : Bucket) {other : Key}
    (h : (r.bucket? other).isSome = true) : ((r.putBucket key b).bucket? other).isSome = true := by
  cases hk : groupKey? key with
  | none => simpa only [putBucket, hk] using h
  | some group =>
      cases ho : groupKey? other with
      | none => simp [bucket?, ho] at h
      | some group' =>
          simp only [bucket?, ho, Option.bind_some, group?_putBucket r b group' hk] at h ⊢
          cases hg : r.group? group' with
          | none => simp [hg] at h
          | some g =>
              simp only [hg, Option.map_some, Option.bind_some] at h ⊢
              split
              · exact Group.isSome_bucket?_put (nameOf key) b h
              · exact h

theorem bucket?_putBucket_total {bot bot' : Int} {base base' : String} {scope : Value}
    (tidy : r.Tidy) (hne : scopedKey bot' base' scope ≠ totalKey bot base) :
    (r.putBucket (scopedKey bot' base' scope) b).bucket? (totalKey bot base) =
      r.bucket? (totalKey bot base) := by
  have hk := groupKey?_scopedKey bot' base' scope
  simp only [bucket?, totalKey, groupKey?_scopedKey, Option.bind_some, group?_putBucket r b _ hk]
  cases hg : r.group? (scopedKey bot base (.str (scopeLevel (.str Level.total.name)))) with
  | none => rfl
  | some g =>
      obtain ⟨bot'', base'', level, hgk⟩ := tidy.groups g (List.mem_of_find?_eq_some hg)
      have hsame := equalLists_of_group? hg
      rw [hgk, equalLists_scopedKey] at hsame
      obtain ⟨rfl, rfl, hlevel⟩ := hsame
      have hother : Value.equalLists g.key
          (scopedKey bot' base' (.str (scopeLevel scope))) = false := by
        rw [hgk, Bool.eq_false_iff, ne_eq, equalLists_scopedKey]
        rintro ⟨rfl, rfl, hscope⟩
        rw [scopeLevel_total] at hlevel
        cases Value.eq_str_of_equal_str hlevel
        have hlevel : scopeLevel scope = Level.total.name := by
          simpa using Value.eq_str_of_str_equal hscope
        exact hne (by rw [eq_total_of_scopeLevel hlevel]; rfl)
      simp [hother]

theorem bucket?_withGroup (r : Registry) (group key : Key) :
    (r.withGroup group).bucket? key = r.bucket? key := by
  unfold withGroup
  split
  · rfl
  · cases hk : groupKey? key with
    | none => simp [bucket?, hk]
    | some other =>
        simp only [bucket?, hk, Option.bind_some, group?, List.find?_append]
        cases r.groups.find? fun g => Value.equalLists g.key other with
        | some g => rfl
        | none =>
            cases h : Value.equalLists group other <;> simp [h, Group.bucket?]

theorem exists_group?_withGroup (r : Registry) (bot : Int) (base level : String) :
    ∃ g, (r.withGroup (scopedKey bot base (.str level))).group?
      (scopedKey bot base (.str level)) = some g := by
  have hself : Value.equalLists (scopedKey bot base (.str level))
      (scopedKey bot base (.str level)) = true :=
    equalLists_scopedKey.2 ⟨rfl, rfl, Value.equal_str_self level⟩
  refine Option.isSome_iff_exists.1 ?_
  unfold withGroup
  split
  · rename_i h
    exact h
  · simp only [group?, List.find?_append]
    cases r.groups.find? fun g => Value.equalLists g.key (scopedKey bot base (.str level)) with
    | some g => rfl
    | none => simp [hself]

theorem Tidy.withGroup (tidy : r.Tidy) (bot : Int) (base level : String) :
    (r.withGroup (scopedKey bot base (.str level))).Tidy := by
  have hbuckets (l : Limiter) (hl : l ∈ r.limiters) :
      ((r.withGroup (scopedKey bot base (.str level))).bucket? l.key).isSome = true := by
    rw [bucket?_withGroup]
    exact tidy.buckets l hl
  by_cases h : (r.group? (scopedKey bot base (.str level))).isSome = true
  · rw [Registry.withGroup, if_pos h]
    exact tidy
  · simp only [Registry.withGroup, if_neg h] at hbuckets ⊢
    refine ⟨tidy.limiters, fun g hg => ?_, hbuckets⟩
    rcases List.mem_append.1 hg with hg | hg
    · exact tidy.groups g hg
    · exact ⟨bot, base, level, by rw [List.mem_singleton.1 hg]⟩

theorem Tidy.putBucket (tidy : r.Tidy) (key : Key) (b : Bucket) : (r.putBucket key b).Tidy := by
  have hbuckets (l : Limiter) (hl : l ∈ r.limiters) :=
    isSome_bucket?_putBucket key b (tidy.buckets l hl)
  unfold Registry.putBucket at hbuckets ⊢
  split at hbuckets
  · exact tidy
  · refine ⟨tidy.limiters, fun g hg => ?_, hbuckets⟩
    obtain ⟨g', hg', rfl⟩ := List.mem_map.1 hg
    obtain ⟨bot, base, level, h⟩ := tidy.groups g' hg'
    refine ⟨bot, base, level, ?_⟩
    split
    · rw [Group.key_put, h]
    · exact h

theorem bucketFor_ok {b : Bucket} (h : bucketFor o = .ok b) :
    ∃ n, o.interval? = some n ∧ b = .new o.limit n o.limit_pos := by
  unfold bucketFor at h
  split at h
  · cases h
  · cases h
  next n _ hn =>
    cases h
    exact ⟨n, hn, rfl⟩

def Opens (o : Options) (before after : Option Bucket) : Prop :=
  after = before ∨ before = none ∧ ∃ b, bucketFor o = .ok b ∧ after = some b

structure Prepares (key : Key) (o : Options) (r r' : Registry) : Prop where
  tidy : r'.Tidy
  own : Opens o (r.bucket? key) (r'.bucket? key)
  others : ∀ bot base, key ≠ totalKey bot base →
    r'.bucket? (totalKey bot base) = r.bucket? (totalKey bot base)

theorem Prepares.same (tidy : r.Tidy) (key : Key) (o : Options) : Prepares key o r r :=
  ⟨tidy, .inl rfl, fun _ _ _ => rfl⟩

theorem prepares_make {bot : Int} {base : String} {scope : Value} {o : Options}
    {res : Except Error Limiter} {r' : Registry} (tidy : r.Tidy)
    (h : r.make (scopedKey bot base scope) o = (res, r')) :
    Prepares (scopedKey bot base scope) o r r' ∧
      ∀ l, res = .ok l → l ∈ r'.limiters ∧ l.key = scopedKey bot base scope := by
  have hk := groupKey?_scopedKey bot base scope
  simp only [make, hk] at h
  split at h
  · cases h
    exact ⟨.same tidy _ o, by simp⟩
  · have tidy' := tidy.withGroup bot base (scopeLevel scope)
    split at h
    · cases h
      exact ⟨⟨tidy', .inl (bucket?_withGroup _ _ _), fun _ _ _ => bucket?_withGroup _ _ _⟩, by simp⟩
    · rename_i b hb
      have limiters (r'' : Registry) (ht : r''.Tidy)
          (hsome : (r''.bucket? (scopedKey bot base scope)).isSome = true) :
          Tidy { r'' with limiters := r''.limiters ++ [⟨scopedKey bot base scope, o⟩] } := by
        refine ⟨fun l hl => ?_, ht.groups, fun l hl => ?_⟩
        · rcases List.mem_append.1 hl with hl | hl
          · exact ht.limiters l hl
          · exact ⟨bot, base, scope, by rw [List.mem_singleton.1 hl]⟩
        · rcases List.mem_append.1 hl with hl | hl
          · exact ht.buckets l hl
          · rw [List.mem_singleton.1 hl]
            exact hsome
      cases h
      refine ⟨?_, fun l hl => by cases hl; exact ⟨by simp, rfl⟩⟩
      split
      · rename_i hsome
        refine ⟨limiters _ tidy' hsome, .inl ?_, fun bot' base' _ => ?_⟩
        · exact bucket?_withGroup _ _ _
        · exact bucket?_withGroup _ _ _
      · rename_i hnone
        obtain ⟨g, hg⟩ := exists_group?_withGroup r bot base (scopeLevel scope)
        have hself := bucket?_putBucket_self (b := b) hk hg
        refine ⟨limiters _ (tidy'.putBucket _ b) (by rw [hself]; rfl), .inr ⟨?_, b, hb, hself⟩,
          fun bot' base' hne => ?_⟩
        · simpa [bucket?_withGroup] using hnone
        · exact (bucket?_putBucket_total tidy' hne).trans (bucket?_withGroup _ _ _)

theorem levelLimiter_cases {o : Except Error (Option Options)} {res : Except Error (List Limiter)} {r' : Registry}
    (h : r.levelLimiter key o = (res, r')) :
    (∃ e, o = .error e ∧ res = .error e ∧ r' = r) ∨ (o = .ok none ∧ res = .ok [] ∧ r' = r) ∨
      ∃ x l, o = .ok (some x) ∧ r.getOrMake key x = (l, r') ∧ res = l.map ([·]) := by
  unfold levelLimiter at h
  split at h
  next e =>
    cases h
    exact .inl ⟨e, rfl, rfl, rfl⟩
  next =>
    cases h
    exact .inr (.inl ⟨rfl, rfl, rfl⟩)
  next x =>
    cases h
    exact .inr (.inr ⟨x, _, rfl, rfl, rfl⟩)

inductive Acquires (r : Registry) (l : Limiter) (c : Clock) : Except Error Unit → Registry → Clock → Prop
  | absent {e} (bucket : r.bucket? l.key = none) : Acquires r l c (.error e) r c
  | granted {b d} (bucket : r.bucket? l.key = some b) (later : c.now ≤ d.now) (room : b.admits d.now = true) :
      Acquires r l c (.ok ()) (r.putBucket l.key (b.grant d.now)) d
  | woken {b d text} (bucket : r.bucket? l.key = some b) (later : c.now ≤ d.now) :
      Acquires r l c (.error (.interrupted text)) r d

theorem acquires_of_acquire {l : Limiter} {c c' : Clock} {res : Except Error Unit} {r' : Registry}
    (h : r.acquire l c = (res, r', c')) : Acquires r l c res r' c' := by
  unfold acquire at h
  split at h
  next hb =>
    cases h
    exact .absent hb
  next b hb =>
    have hends := wait_endsFrom b l.options.interruptible c.alarm c.now
    split at h
    next t alarm hwait =>
      rw [hwait] at hends
      cases h
      exact .granted (d := ⟨t, alarm⟩) hb hends.1 hends.2
    next t hwait =>
      rw [hwait] at hends
      cases h
      exact .woken hb hends

-- How a request for limiters goes: the policies may name no method, the level of all calls comes first, and that of the
-- chat only if there is a chat and the first level made no trouble.
inductive Course (r : Registry) (bot : Value) (method : String) (chat policy override : Value) :
    Except Error (List Limiter) → Registry → Prop
  | unresolved {e} (resolved : baseMethod method [override, policy, defaultPolicy] = .error e) :
      Course r bot method chat policy override (.error e) r
  | refused {base e r'} (resolved : baseMethod method [override, policy, defaultPolicy] = .ok base)
      (first : r.levelLimiter [bot, .str base, .str Level.total.name]
        (levelOptions .total base .null [override, policy, defaultPolicy]) = (.error e, r')) :
      Course r bot method chat policy override (.error e) r'
  | general {base ls r'} (resolved : baseMethod method [override, policy, defaultPolicy] = .ok base)
      (first : r.levelLimiter [bot, .str base, .str Level.total.name]
        (levelOptions .total base .null [override, policy, defaultPolicy]) = (.ok ls, r'))
      (without : chat.isNull = true) : Course r bot method chat policy override (.ok ls) r'
  | particular {base ls ms r₁ r'} (resolved : baseMethod method [override, policy, defaultPolicy] = .ok base)
      (first : r.levelLimiter [bot, .str base, .str Level.total.name]
        (levelOptions .total base .null [override, policy, defaultPolicy]) = (.ok ls, r₁))
      (within : chat.isNull = false) (second : r₁.levelLimiter [bot, .str base, chat]
        (levelOptions .perChat base chat [override, policy, defaultPolicy]) = (ms, r')) :
      Course r bot method chat policy override (ms.map (ls ++ ·)) r'

theorem course_of_limitersFor {bot chat policy override : Value} {method : String} {res : Except Error (List Limiter)}
    {r' : Registry} (h : r.limitersFor bot method chat policy override = (res, r')) :
    Course r bot method chat policy override res r' := by
  simp only [limitersFor] at h
  split at h
  next hbase =>
    cases h
    exact .unresolved hbase
  next base hbase =>
    split at h
    next hfirst =>
      cases h
      exact .refused hbase hfirst
    next hfirst =>
      split at h
      next hnull =>
        cases h
        exact .general hbase hfirst hnull
      next hnull =>
        cases h
        exact .particular hbase hfirst (by simpa using hnull) rfl

theorem scope_of_equalLists {bot : Int} {base : String} {scope : Value} {l : Limiter}
    (tidy : r.Tidy) (hl : l ∈ r.limiters)
    (h : Value.equalLists l.key (scopedKey bot base scope) = true) :
    ∃ scope', l.key = scopedKey bot base scope' ∧ scope'.equal scope = true := by
  obtain ⟨bot', base', scope', hk⟩ := tidy.limiters l hl
  rw [hk, equalLists_scopedKey] at h
  obtain ⟨rfl, rfl, hs⟩ := h
  exact ⟨scope', hk, hs⟩

theorem prepares_getOrMake {bot : Int} {base : String} {scope : Value} {o : Options}
    {res : Except Error Limiter} {r' : Registry} (tidy : r.Tidy)
    (h : r.getOrMake (scopedKey bot base scope) o = (res, r')) :
    Prepares (scopedKey bot base scope) o r r' ∧ ∀ l, res = .ok l → l ∈ r'.limiters ∧
      ∃ scope', l.key = scopedKey bot base scope' ∧
        (scope' = scope ∨ scope'.equal scope = true) := by
  unfold getOrMake at h
  split at h
  · cases h
    exact ⟨.same tidy _ o, by simp⟩
  · rename_i l hl
    cases h
    refine ⟨.same tidy _ o, fun l' hl' => ?_⟩
    cases hl'
    unfold lookUp at hl
    split at hl
    · have hf : r.find? (scopedKey bot base scope) = some l := by simpa using hl
      obtain ⟨scope', hk, hs⟩ := scope_of_equalLists tidy (List.mem_of_find?_eq_some hf)
        (by simpa using List.find?_some hf)
      exact ⟨List.mem_of_find?_eq_some hf, scope', hk, .inr hs⟩
    · simp [Error.wrongKind] at hl
  · obtain ⟨hp, hkey⟩ := prepares_make tidy h
    exact ⟨hp, fun l hl => ⟨(hkey l hl).1, scope, (hkey l hl).2, .inl rfl⟩⟩

end Registry

end Limit

end BotApi
