import BotApi.Proofs.Limit.Account
/-!
Where the policies have options for a method and a chat, waiting for its permits fails only because who
waits is woken.
-/

namespace BotApi.Limit

def Usable (o : Except Error (Option Options)) : Prop :=
  ∃ o', o = .ok o' ∧ ∀ x ∈ o', (Registry.bucketFor x).isOk = true

structure Fits (r : Registry) (method : String) (chat : Value) (policies : List Value) : Prop where
  stripes : 0 < r.stripes
  levels : ∃ base, baseMethod method policies = .ok base ∧
    Usable (levelOptions .total base .null policies) ∧
    (chat.isNull = true ∨ chat.isKey = true ∧ Usable (levelOptions .perChat base chat policies))

namespace Registry

variable {r r' : Registry} {key : Key} {o : Options} {bot : Int} {base : String} {scope : Value}

structure Extends (r r' : Registry) : Prop where
  stripes : r'.stripes = r.stripes
  limiters : r.limiters ⊆ r'.limiters

theorem Extends.refl (r : Registry) : Extends r r := ⟨rfl, fun _ h => h⟩

theorem extends_withGroup (r : Registry) (key : Key) : Extends r (r.withGroup key) := by
  unfold withGroup
  split <;> exact ⟨rfl, fun _ h => h⟩

theorem extends_putBucket (r : Registry) (key : Key) (b : Bucket) :
    Extends r (r.putBucket key b) := by
  unfold putBucket
  split <;> exact ⟨rfl, fun _ h => h⟩

theorem extends_make (r : Registry) (key : Key) (o : Options) : Extends r (r.make key o).2 := by
  unfold make
  split
  · exact .refl r
  · split
    · exact .refl r
    · rename_i group _
      obtain ⟨hstripes, hlimiters⟩ := extends_withGroup r group
      dsimp only
      split
      · exact ⟨hstripes, hlimiters⟩
      · rename_i b _
        obtain ⟨hstripes', hlimiters'⟩ := extends_putBucket (r.withGroup group) key b
        split
        · exact ⟨hstripes, fun l hl => List.mem_append_left _ (hlimiters hl)⟩
        · exact ⟨hstripes'.trans hstripes,
            fun l hl => List.mem_append_left _ (hlimiters' (hlimiters hl))⟩

theorem extends_getOrMake (r : Registry) (key : Key) (o : Options) :
    Extends r (r.getOrMake key o).2 := by
  unfold getOrMake
  split
  · exact .refl r
  · exact .refl r
  · exact extends_make r key o

theorem make_ok (hstripes : 0 < r.stripes) (hb : (bucketFor o).isOk = true) :
    ∃ l r', r.make (scopedKey bot base scope) o = (.ok l, r') := by
  simp only [make, if_neg (Int.not_le.2 hstripes), groupKey?_scopedKey]
  cases hbucket : bucketFor o with
  | error e =>
      rw [hbucket] at hb
      cases hb
  | ok b => exact ⟨_, _, rfl⟩

theorem getOrMake_ok (bot : Int) (base : String) (hstripes : 0 < r.stripes) (hscope : scope.isKey = true)
    (hb : (bucketFor o).isOk = true) :
    ∃ l r', r.getOrMake (scopedKey bot base scope) o = (.ok l, r') := by
  have hkeys : Value.areKeys (scopedKey bot base scope) = true := by
    simp [scopedKey, Value.areKeys, Value.isKey, hscope]
  simp only [getOrMake, lookUp, hkeys, ↓reduceIte]
  cases r.find? (scopedKey bot base scope) with
  | some l => exact ⟨_, _, rfl⟩
  | none => exact make_ok hstripes hb

theorem levelLimiter_ok (bot : Int) (base : String) (scope : Value)
    {o : Except Error (Option Options)} (tidy : r.Tidy) (hstripes : 0 < r.stripes) (hscope : scope.isKey = true)
    (ho : Usable o) :
    ∃ ls r', r.levelLimiter (scopedKey bot base scope) o = (.ok ls, r') ∧ r'.Tidy ∧
      Extends r r' ∧ ls ⊆ r'.limiters := by
  obtain ⟨o', rfl, hbucket⟩ := ho
  cases o' with
  | none => exact ⟨_, _, rfl, tidy, .refl r, by simp⟩
  | some o =>
      obtain ⟨l, r', hmake⟩ := getOrMake_ok bot base hstripes hscope (hbucket o rfl)
      obtain ⟨hprepared, hmem⟩ := prepares_getOrMake tidy hmake
      have hextends := extends_getOrMake r (scopedKey bot base scope) o
      rw [hmake] at hextends
      simp only [levelLimiter, hmake]
      refine ⟨_, _, rfl, hprepared.tidy, hextends, fun l' hl' => ?_⟩
      rw [List.mem_singleton.1 hl']
      exact (hmem l rfl).1

theorem limitersFor_ok (bot : Int) {method : String} {chat policy override : Value} (tidy : r.Tidy)
    (fits : Fits r method chat [override, policy, defaultPolicy]) :
    ∃ ls r', r.limitersFor (.int bot) method chat policy override = (.ok ls, r') ∧ r'.Tidy ∧
      ls ⊆ r'.limiters := by
  obtain ⟨base, hbase, htotal, hchat⟩ := fits.levels
  obtain ⟨ls, r₁, hfirst, tidy₁, hextends, hls⟩ := levelLimiter_ok bot base (.str Level.total.name) tidy
    fits.stripes rfl htotal
  have hkey : [Value.int bot, .str base, .str Level.total.name] =
    scopedKey bot base (.str Level.total.name) := rfl
  simp only [limitersFor, hbase, hkey, hfirst]
  by_cases hnull : chat.isNull = true
  · simp only [if_pos hnull]
    exact ⟨ls, r₁, rfl, tidy₁, hls⟩
  · obtain ⟨hscope, hlevel⟩ := hchat.resolve_left hnull
    obtain ⟨ms, r₂, hsecond, tidy₂, hextends₂, hms⟩ := levelLimiter_ok bot base chat tidy₁
      (hextends.stripes ▸ fits.stripes) hscope hlevel
    have hkey : [Value.int bot, .str base, chat] = scopedKey bot base chat := rfl
    simp only [if_neg hnull, hkey, hsecond]
    refine ⟨ls ++ ms, r₂, rfl, tidy₂, fun l hl => ?_⟩
    rcases List.mem_append.1 hl with hl | hl
    · exact hextends₂.limiters (hls hl)
    · exact hms hl

theorem acquire_error {l : Limiter} {c c' : Clock} {e : Error} (tidy : r.Tidy)
    (hl : l ∈ r.limiters) (h : r.acquire l c = (.error e, r', c')) :
    ∃ text, e = .interrupted text := by
  obtain ⟨b, hb⟩ := Option.isSome_iff_exists.1 (tidy.buckets l hl)
  cases acquires_of_acquire h with
  | absent hnone => cases hnone.symm.trans hb
  | woken _ _ => exact ⟨_, rfl⟩

theorem acquire_ok {l : Limiter} {c c' : Clock} (tidy : r.Tidy)
    (h : r.acquire l c = (.ok (), r', c')) : r'.Tidy ∧ Extends r r' := by
  cases acquires_of_acquire h with
  | granted _ _ _ => exact ⟨tidy.putBucket _ _, extends_putBucket r _ _⟩

theorem acquireAll_error {ls : List Limiter} {c c' : Clock} {e : Error} (tidy : r.Tidy)
    (hls : ls ⊆ r.limiters) (h : r.acquireAll c ls = (.error e, r', c')) :
    ∃ text, e = .interrupted text := by
  induction ls generalizing r c with
  | nil => cases h
  | cons l ls ih =>
      unfold acquireAll at h
      split at h
      · rename_i r₁ c₁ hacquire
        obtain ⟨tidy₁, hextends⟩ := acquire_ok tidy hacquire
        exact ih tidy₁ (fun l' hl' => hextends.limiters (hls (List.mem_cons_of_mem _ hl'))) h
      · rename_i e' r₁ c₁ hacquire
        cases h
        exact acquire_error tidy (hls (List.mem_cons_self ..)) hacquire

end Registry

end BotApi.Limit
