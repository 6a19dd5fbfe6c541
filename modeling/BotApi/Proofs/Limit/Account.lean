import BotApi.Proofs.Limit.Registry
/-!
What a bucket accounts for. Preparing limiters and waiting for permits leave every permit that was
used among the granted ones, at a pace the limit allows.
-/

namespace BotApi.Limit

def Accounts (o : Options) (now : Nat) (permits : List Nat) : Option Bucket → Prop
  | none => permits = []
  | some b => b.limit = o.limit ∧ o.interval? = some b.interval ∧
      Paced b.limit b.interval b.granted ∧ permits.Sublist b.granted ∧ ∀ t ∈ b.granted, t ≤ now

namespace Accounts

variable {o : Options} {now : Nat} {permits : List Nat} {b : Bucket}

theorem later {later : Nat} {x : Option Bucket} (h : Accounts o now permits x)
    (hle : now ≤ later) : Accounts o later permits x := by
  cases x with
  | none => exact h
  | some b =>
      obtain ⟨hlimit, hinterval, hpaced, hsub, htimes⟩ := h
      exact ⟨hlimit, hinterval, hpaced, hsub, fun t ht => Nat.le_trans (htimes t ht) hle⟩

theorem opens {x y : Option Bucket} (h : Accounts o now permits x)
    (hy : Registry.Opens o x y) : Accounts o now permits y := by
  rcases hy with rfl | ⟨rfl, b, hb, rfl⟩
  · exact h
  · have hpermits : permits = [] := h
    obtain ⟨n, hn, rfl⟩ := Registry.bucketFor_ok hb
    exact ⟨rfl, hn, trivial, by simp [hpermits, Bucket.new], by simp [Bucket.new]⟩

theorem use {t : Nat} (h : Accounts o now permits (some b)) (hle : now ≤ t)
    (ha : b.admits t = true) : Accounts o t (t :: permits) (some (b.grant t)) := by
  obtain ⟨hlimit, hinterval, hpaced, hsub, htimes⟩ := h.later hle
  refine ⟨hlimit, hinterval, hpaced.grant ha, hsub.cons_cons t, fun s hs => ?_⟩
  rcases List.mem_cons.1 hs with rfl | hs
  · exact Nat.le_refl s
  · exact htimes s hs

theorem forget {t : Nat} {x : Option Bucket} (h : Accounts o now (t :: permits) x) :
    Accounts o now permits x := by
  cases x with
  | none => cases (show t :: permits = [] from h)
  | some b =>
      obtain ⟨hlimit, hinterval, hpaced, hsub, htimes⟩ := h
      exact ⟨hlimit, hinterval, hpaced, (List.sublist_cons_self t permits).trans hsub, htimes⟩

theorem length_within_le {x : Option Bucket} {n : Nat} (h : Accounts o now permits x)
    (hn : o.interval? = some n) (start : Nat) :
    (permits.filter (within start n)).length ≤ o.limit := by
  cases x with
  | none =>
      have hpermits : permits = [] := h
      simp [hpermits]
  | some b =>
      obtain ⟨hlimit, hinterval, hpaced, hsub, -⟩ := h
      obtain rfl : b.interval = n := by simpa [hinterval] using hn
      have hwithin := hpaced.length_within_le start
      exact hlimit ▸ Nat.le_trans (hsub.filter _).length_le hwithin

end Accounts

namespace Registry

variable {r r' : Registry} {c c' : Clock} {bot bot' : Int} {base base' : String} {o : Options}

structure Conserves (key : Key) (o : Options) (r : Registry) (c : Clock) (r' : Registry)
    (c' : Clock) : Prop where
  tidy : r'.Tidy
  later : c.now ≤ c'.now
  accounts : ∀ permits, Accounts o c.now permits (r.bucket? key) →
    Accounts o c'.now permits (r'.bucket? key)

theorem Conserves.refl (tidy : r.Tidy) (key : Key) (o : Options) (c : Clock) :
    Conserves key o r c r c :=
  ⟨tidy, Nat.le_refl _, fun _ h => h⟩

theorem Conserves.trans {key : Key} {r'' : Registry} {c'' : Clock}
    (h : Conserves key o r c r' c') (h' : Conserves key o r' c' r'' c'') :
    Conserves key o r c r'' c'' :=
  ⟨h'.tidy, Nat.le_trans h.later h'.later, fun ps hps => h'.accounts ps (h.accounts ps hps)⟩

theorem Opens.accounts {o' : Options} {now : Nat} {permits : List Nat} {x y : Option Bucket}
    (hy : Opens o' x y) (h : Accounts o now permits x) (ho : o' = o ∨ x.isSome = true) :
    Accounts o now permits y := by
  rcases ho with rfl | hx
  · exact h.opens hy
  · rcases hy with rfl | ⟨rfl, -⟩
    · exact h
    · cases hx

theorem conserves_levelLimiter {scope : Value} {lo : Except Error (Option Options)}
    {res : Except Error (List Limiter)} (tidy : r.Tidy) (c : Clock)
    (hown : scopedKey bot' base' scope = totalKey bot base →
      lo = .ok (some o) ∨ (r.bucket? (totalKey bot base)).isSome = true)
    (h : r.levelLimiter (scopedKey bot' base' scope) lo = (res, r')) :
    Conserves (totalKey bot base) o r c r' c := by
  rcases levelLimiter_cases h with ⟨e, -, -, rfl⟩ | ⟨-, -, rfl⟩ | ⟨o', l, rfl, hr, -⟩
  · exact .refl tidy _ o c
  · exact .refl tidy _ o c
  · have hp := (prepares_getOrMake tidy hr).1
    refine ⟨hp.tidy, Nat.le_refl _, fun permits hpermits => ?_⟩
    by_cases hkey : scopedKey bot' base' scope = totalKey bot base
    · have ho : o' = o ∨ (r.bucket? (totalKey bot base)).isSome = true :=
        (hown hkey).imp_left fun ho => by injection ho with ho; injection ho
      exact (hkey ▸ hp.own).accounts hpermits ho
    · rw [hp.others bot base hkey]
      exact hpermits

theorem mem_levelLimiter {scope : Value} {lo : Except Error (Option Options)} {ls : List Limiter}
    (tidy : r.Tidy) (h : r.levelLimiter (scopedKey bot base scope) lo = (.ok ls, r')) :
    (∀ l ∈ ls, l ∈ r'.limiters ∧ ∃ scope', l.key = scopedKey bot base scope' ∧
      (scope' = scope ∨ scope'.equal scope = true)) ∧
    ∀ o, lo = .ok (some o) → ∃ l, ls = [l] := by
  rcases levelLimiter_cases h with ⟨e, -, hres, -⟩ | ⟨rfl, hres, rfl⟩ | ⟨o', l, -, hr, hres⟩
  · cases hres
  · cases hres
    exact ⟨by simp, by simp⟩
  · cases l with
    | error e => cases hres
    | ok l =>
        cases hres
        refine ⟨fun l' hl' => ?_, fun _ _ => ⟨l, rfl⟩⟩
        rw [List.mem_singleton.1 hl']
        exact (prepares_getOrMake tidy hr).2 l rfl

theorem levelLimiter_total {ls : List Limiter} (tidy : r.Tidy)
    (h : r.levelLimiter (totalKey bot base) (.ok (some o)) = (.ok ls, r')) :
    ∃ l, ls = [l] ∧ l.key = totalKey bot base ∧ (r'.bucket? (totalKey bot base)).isSome = true := by
  have hc : Conserves (totalKey bot base) o r ⟨0, none⟩ r' ⟨0, none⟩ :=
    conserves_levelLimiter tidy _ (fun _ => .inl rfl) h
  obtain ⟨hmem, hone⟩ := mem_levelLimiter tidy h
  obtain ⟨l, rfl⟩ := hone o rfl
  obtain ⟨hl, scope, hkey, hscope⟩ := hmem l (by simp)
  have hscope : scope = .str Level.total.name := hscope.elim id Value.eq_str_of_equal_str
  have hkey : l.key = totalKey bot base := by rw [hkey, hscope]; rfl
  exact ⟨l, rfl, hkey, hkey ▸ hc.tidy.buckets l hl⟩

theorem conserves_total {res : Except Error (List Limiter)} {policies : List Value} (tidy : r.Tidy) (c : Clock)
    (ho : levelOptions .total base .null policies = .ok (some o))
    (h : r.levelLimiter (totalKey bot' base') (levelOptions .total base' .null policies) = (res, r')) :
    Conserves (totalKey bot base) o r c r' c := by
  refine conserves_levelLimiter tidy c (fun hkey => .inl ?_) h
  cases hkey
  exact ho

theorem base_of_mem_levelLimiter {scope : Value} {lo : Except Error (Option Options)} {ls : List Limiter}
    (tidy : r.Tidy) (h : r.levelLimiter (scopedKey bot base scope) lo = (.ok ls, r')) :
    ∀ l ∈ ls, ∃ scope, l.key = scopedKey bot base scope := by
  intro l hl
  obtain ⟨-, scope', hkey, -⟩ := (mem_levelLimiter tidy h).1 l hl
  exact ⟨scope', hkey⟩

theorem tidy_levelLimiter {scope : Value} {lo : Except Error (Option Options)} {res : Except Error (List Limiter)}
    (tidy : r.Tidy) (h : r.levelLimiter (scopedKey bot base scope) lo = (res, r')) : r'.Tidy := by
  rcases levelLimiter_cases h with ⟨e, -, -, rfl⟩ | ⟨-, -, rfl⟩ | ⟨o, l, -, hmake, -⟩
  · exact tidy
  · exact tidy
  · exact (prepares_getOrMake tidy hmake).1.tidy

namespace Course

variable {method : String} {chat policy override : Value} {res : Except Error (List Limiter)}

-- The options of the chat count for the bucket of all calls only if the chat is named like it, and then it has one.
theorem conserves (h : Course r (.int bot') method chat policy override res r') (tidy : r.Tidy) (c : Clock)
    (ho : levelOptions .total base .null [override, policy, defaultPolicy] = .ok (some o)) :
    Conserves (totalKey bot base) o r c r' c := by
  cases h with
  | unresolved _ => exact .refl tidy _ o c
  | refused _ first => exact conserves_total tidy c ho first
  | general _ first _ => exact conserves_total tidy c ho first
  | @particular base' ls ms r₁ _ _ first _ second =>
      have hfirst : Conserves (totalKey bot base) o r c r₁ c := conserves_total tidy c ho first
      refine hfirst.trans (conserves_levelLimiter hfirst.tidy c (fun hkey => .inr ?_) second)
      cases hkey
      obtain ⟨-, -, -, hsome⟩ := levelLimiter_total tidy (ho ▸ first)
      exact hsome

theorem keys {ls : List Limiter} (h : Course r (.int bot) method chat policy override res r') (tidy : r.Tidy)
    (hres : res = .ok ls) : ∃ base, baseMethod method [override, policy, defaultPolicy] = .ok base ∧
      ∀ l ∈ ls, ∃ scope, l.key = scopedKey bot base scope := by
  cases h with
  | unresolved _ => cases hres
  | refused _ _ => cases hres
  | @general base _ _ resolved first _ =>
      cases hres
      exact ⟨base, resolved, base_of_mem_levelLimiter tidy first⟩
  | @particular base _ ms _ _ resolved first _ second =>
      cases ms with
      | error e => cases hres
      | ok ms =>
          cases hres
          refine ⟨base, resolved, fun l hl => ?_⟩
          rcases List.mem_append.1 hl with hl | hl
          · exact base_of_mem_levelLimiter tidy first l hl
          · exact base_of_mem_levelLimiter (tidy_levelLimiter tidy first) second l hl

theorem head {ls : List Limiter} (h : Course r (.int bot) method chat policy override res r') (tidy : r.Tidy)
    (hbase : baseMethod method [override, policy, defaultPolicy] = .ok base)
    (ho : levelOptions .total base .null [override, policy, defaultPolicy] = .ok (some o)) (hres : res = .ok ls) :
    ∃ l ls', ls = l :: ls' ∧ l.key = totalKey bot base := by
  cases h with
  | unresolved _ => cases hres
  | refused _ _ => cases hres
  | general resolved first _ =>
      cases hres
      cases hbase.symm.trans resolved
      obtain ⟨l, rfl, hkey, -⟩ := levelLimiter_total tidy (ho ▸ first)
      exact ⟨l, [], rfl, hkey⟩
  | @particular _ _ ms _ _ resolved first _ _ =>
      cases hbase.symm.trans resolved
      obtain ⟨l, rfl, hkey, -⟩ := levelLimiter_total tidy (ho ▸ first)
      cases ms with
      | error e => cases hres
      | ok ms =>
          cases hres
          exact ⟨l, ms, rfl, hkey⟩

end Course

theorem base_of_mem {method : String} {chat policy override : Value} {ls : List Limiter} (tidy : r.Tidy)
    (hbase : baseMethod method [override, policy, defaultPolicy] = .ok base)
    (h : r.limitersFor (.int bot) method chat policy override = (.ok ls, r')) :
    ∀ l ∈ ls, ∃ scope, l.key = scopedKey bot base scope := by
  obtain ⟨base', hbase', hkeys⟩ := (course_of_limitersFor h).keys tidy rfl
  cases hbase.symm.trans hbase'
  exact hkeys

theorem accounts_acquire {l : Limiter} {permits : List Nat} (hkey : l.key = totalKey bot base)
    (h : r.acquire l c = (.ok (), r', c'))
    (hpermits : Accounts o c.now permits (r.bucket? (totalKey bot base))) :
    Accounts o c'.now (c'.now :: permits) (r'.bucket? (totalKey bot base)) := by
  cases acquires_of_acquire h with
  | granted hb hle ha =>
      rw [hkey] at hb ⊢
      rw [hb] at hpermits
      obtain ⟨g, hg, -⟩ := Option.bind_eq_some_iff.1 hb
      obtain ⟨group, hk, hg⟩ := Option.bind_eq_some_iff.1 hg
      rw [bucket?_putBucket_self hk hg]
      exact hpermits.use hle ha

theorem conserves_acquire {l : Limiter} {scope : Value} {res : Except Error Unit} (tidy : r.Tidy)
    (hl : l.key = scopedKey bot' base' scope) (h : r.acquire l c = (res, r', c')) :
    Conserves (totalKey bot base) o r c r' c' := by
  cases acquires_of_acquire h with
  | absent _ => exact .refl tidy _ o _
  | granted _ hle _ =>
      refine ⟨tidy.putBucket _ _, hle, fun permits hpermits => ?_⟩
      by_cases hkey : l.key = totalKey bot base
      · exact (accounts_acquire hkey h hpermits).forget
      · rw [hl] at hkey ⊢
        rw [bucket?_putBucket_total tidy hkey]
        exact hpermits.later hle
  | woken _ hle => exact ⟨tidy, hle, fun _ hpermits => hpermits.later hle⟩

theorem conserves_acquireAll {ls : List Limiter} {res : Except Error Unit} (tidy : r.Tidy)
    (hls : ∀ l ∈ ls, ∃ base' scope, l.key = scopedKey bot' base' scope)
    (h : r.acquireAll c ls = (res, r', c')) : Conserves (totalKey bot base) o r c r' c' := by
  induction ls generalizing r c with
  | nil =>
      cases h
      exact .refl tidy _ o _
  | cons l ls ih =>
      obtain ⟨base', scope, hl⟩ := hls l (by simp)
      unfold acquireAll at h
      split at h
      · rename_i r₁ c₁ hacq
        have hfirst : Conserves (totalKey bot base) o r c r₁ c₁ :=
          conserves_acquire tidy hl hacq
        exact hfirst.trans (ih hfirst.tidy (fun l' hl' => hls l' (List.mem_cons_of_mem _ hl')) h)
      · rename_i e r₁ c₁ hacq
        cases h
        exact conserves_acquire tidy hl hacq

theorem accounts_acquireAll {l : Limiter} {ls : List Limiter} (tidy : r.Tidy) (hkey : l.key = totalKey bot base)
    (hls : ∀ l' ∈ l :: ls, ∃ base' scope, l'.key = scopedKey bot' base' scope)
    (h : r.acquireAll c (l :: ls) = (.ok (), r', c')) :
    c.now ≤ (r.acquire l c).2.2.now ∧ (r.acquire l c).2.2.now ≤ c'.now ∧
      ∀ permits, Accounts o c.now permits (r.bucket? (totalKey bot base)) →
        Accounts o c'.now ((r.acquire l c).2.2.now :: permits) (r'.bucket? (totalKey bot base)) := by
  simp only [acquireAll] at h
  split at h
  · rename_i r₁ c₁ hfirst
    obtain ⟨base', scope, hscope⟩ := hls l (by simp)
    have hconserves : Conserves (totalKey bot base) o r c r₁ c₁ := conserves_acquire tidy hscope hfirst
    have hrest : Conserves (totalKey bot base) o r₁ c₁ r' c' :=
      conserves_acquireAll hconserves.tidy (fun l' hl' => hls l' (List.mem_cons_of_mem _ hl')) h
    rw [hfirst]
    exact ⟨hconserves.later, hrest.later, fun permits hpermits =>
      hrest.accounts _ (accounts_acquire hkey hfirst hpermits)⟩
  · cases h

end Registry

end BotApi.Limit
