import BotApi.Proofs.Limit.Slot
import BotApi.Proofs.Limit.Account
import BotApi.Proofs.Number.Rounding
/-!
Runs of a registry. Whatever else is made, prepared, tried or waited for, a bucket holds exactly the
permits that its limiters gave, and admits by the options of the limiter that opened it.
-/

namespace BotApi.Limit

-- The bucket of a slot against the limiter that opened it and the permits that were given, the last one first.
inductive Kept (now : Nat) : List Nat → Option Limiter → Option Bucket → Prop
  | unused : Kept now [] none none
  | used {l : Limiter} {b : Bucket} (limit : b.limit = l.options.limit)
      (interval : l.options.interval? = some b.interval) (paced : Paced b.limit b.interval b.granted)
      (times : ∀ t ∈ b.granted, t ≤ now) (sorted : b.granted.Pairwise (· ≥ ·)) : Kept now b.granted (some l) (some b)

namespace Kept

variable {now t : Nat} {ts : List Nat} {l : Option Limiter} {b : Bucket}

theorem later {x : Option Bucket} (h : Kept now ts l x) (hle : now ≤ t) : Kept t ts l x := by
  cases h with
  | unused => exact .unused
  | used limit interval paced times sorted =>
      exact .used limit interval paced (fun s hs => Nat.le_trans (times s hs) hle) sorted

theorem opened {first : Limiter} (h : Registry.bucketFor first.options = .ok b) :
    Kept now [] (some first) (some b) := by
  obtain ⟨n, hn, rfl⟩ := Registry.bucketFor_ok h
  exact .used (b := .new first.options.limit n first.options.limit_pos) rfl hn trivial (by simp [Bucket.new]) .nil

theorem granted (h : Kept now ts l (some b)) (hle : now ≤ t) (ha : b.admits t = true) :
    Kept t (t :: ts) l (some (b.grant t)) := by
  cases h with
  | used limit interval paced times sorted =>
      refine .used (b := b.grant t) limit interval (paced.grant ha) ?_ ?_
      · exact List.forall_mem_cons.2 ⟨Nat.le_refl t, fun s hs => Nat.le_trans (times s hs) hle⟩
      · exact List.pairwise_cons.2 ⟨fun s hs => Nat.le_trans (times s hs) hle, sorted⟩

variable {first : Limiter}

theorem bucket_eq (h : Kept now ts (some first) (some b)) : b.granted = ts ∧ b.limit = first.options.limit ∧
    first.options.interval? = some b.interval := by
  cases h with
  | used limit interval paced times sorted => exact ⟨rfl, limit, interval⟩

theorem admits_iff (h : Kept now ts (some first) (some b)) (t : Nat) :
    b.admits t = true ↔ (ts.filter fun u => t ≤ u + b.interval).length < first.options.limit := by
  obtain ⟨rfl, hlimit, -⟩ := h.bucket_eq
  rw [← hlimit]
  exact decide_eq_true_iff

theorem le_now (h : Kept now ts (some first) (some b)) : ∀ u ∈ b.granted, u ≤ now := by
  cases h with
  | used limit interval paced times sorted => exact times

theorem apart (h : Kept now ts (some first) (some b)) {oldest newest : Nat} {between : List Nat}
    (hsub : (newest :: between ++ [oldest]).Sublist ts) (hlen : first.options.limit ≤ between.length + 1) :
    oldest + b.interval < newest := by
  cases h with
  | used limit interval paced times sorted => exact paced.apart sorted hsub (limit ▸ hlen)

end Kept

namespace Registry

variable {r r' r'' : Registry} {key : Key} {σ : Slot} {o : Options} {now : Nat}

structure Keeps (r r' : Registry) : Prop where
  tidy : r'.Tidy
  accounts : ∀ σ now ts, Kept now ts (r.first? σ) (r.at? σ) → Kept now ts (r'.first? σ) (r'.at? σ)

theorem Keeps.refl (tidy : r.Tidy) : Keeps r r := ⟨tidy, fun _ _ _ h => h⟩

theorem Keeps.trans (h : Keeps r r') (h' : Keeps r' r'') : Keeps r r'' :=
  ⟨h'.tidy, fun σ now ts hkept => h'.accounts σ now ts (h.accounts σ now ts hkept)⟩

theorem first?_append (h : r'.limiters = r.limiters ++ [⟨key, o⟩]) (σ : Slot) :
    r'.first? σ = (r.first? σ).or (if slot? key = some σ then some ⟨key, o⟩ else none) := by
  rw [first?, h, List.find?_append, first?, List.find?_singleton]
  simp

theorem Adds.accounts (h : Adds key o r r') {ts : List Nat} (hkept : Kept now ts (r.first? σ) (r.at? σ)) :
    Kept now ts (r'.first? σ) (r'.at? σ) := by
  cases h with
  | same limiters buckets => rwa [first?, limiters, ← first?, buckets]
  | limiter opened limiters buckets =>
      rw [first?_append limiters, buckets]
      generalize r.first? σ = first, r.at? σ = old at hkept
      split
      · cases hkept with
        | unused => exact .opened opened
        | used limit interval paced times sorted => exact .used limit interval paced times sorted
      · rwa [Option.or_none]

theorem keeps_getOrMake (tidy : r.Tidy) (bot : Int) (base : String) (scope : Value) (o : Options) :
    Keeps r (r.getOrMake (scopedKey bot base scope) o).2 :=
  ⟨(prepares_getOrMake tidy rfl).1.tidy, fun _ _ _ hkept => (adds_getOrMake tidy rfl).accounts hkept⟩

theorem levelLimiter_preserves {P : Registry → Prop} (hP : ∀ r o, P r → P (r.getOrMake key o).2) (h : P r)
    (o : Except Error (Option Options)) : P (r.levelLimiter key o).2 := by
  unfold levelLimiter
  split
  · exact h
  · exact h
  next o => exact hP r o h

theorem limitersFor_preserves {P : Registry → Prop} {bot chat : Value}
    (hP : ∀ r base scope o, scope = .str Level.total.name ∨ chat.isNull = false ∧ scope = chat → P r →
      P (r.getOrMake [bot, .str base, scope] o).2)
    (h : P r) (method : String) (policy override : Value) : P (r.limitersFor bot method chat policy override).2 := by
  have hlevel {r r' : Registry} {base : String} {scope : Value} {o : Except Error (Option Options)}
      {res : Except Error (List Limiter)} (hscope : scope = .str Level.total.name ∨ chat.isNull = false ∧ scope = chat)
      (hr : P r) (hrun : r.levelLimiter [bot, .str base, scope] o = (res, r')) : P r' := by
    have hkept := levelLimiter_preserves (fun r o => hP r base scope o hscope) hr o
    rwa [hrun] at hkept
  obtain ⟨res, r', hrun⟩ : ∃ res r', r.limitersFor bot method chat policy override = (res, r') := ⟨_, _, rfl⟩
  rw [hrun]
  cases course_of_limitersFor hrun with
  | unresolved _ => exact h
  | refused _ first => exact hlevel (.inl rfl) h first
  | general _ first _ => exact hlevel (.inl rfl) h first
  | particular _ first within second => exact hlevel (.inr ⟨within, rfl⟩) (hlevel (.inl rfl) h first) second

theorem keeps_limitersFor (tidy : r.Tidy) (bot : Int) (method : String) (chat policy override : Value) :
    Keeps r (r.limitersFor (.int bot) method chat policy override).2 := by
  apply limitersFor_preserves _ (Keeps.refl tidy)
  intro r' base scope o _ h
  exact h.trans (keeps_getOrMake h.tidy bot base scope o)

theorem exists_of_mem (tidy : r.Tidy) {l : Limiter} (hl : l ∈ r.limiters) :
    ∃ σ, slot? l.key = some σ ∧ (r.first? σ).isSome = true := by
  obtain ⟨bot, base, scope, hkey⟩ := tidy.limiters l hl
  refine ⟨slotOf bot base scope, by rw [hkey, slot?_scopedKey], ?_⟩
  rw [first?, List.find?_isSome]
  exact ⟨l, hl, by rw [hkey, slot?_scopedKey, beq_self_eq_true]⟩

end Registry

structure Ledger where
  registry : Registry
  clock : Clock
  permits : List (Key × Nat)

inductive Act where
  | create (bot : Int) (base : String) (scope : Value) (o : Options)
  | prepare (bot : Int) (method : String) (chat policy override : Value)
  | attempt (limiter : Nat)
  | await (limiter : Nat)
  | pause (length : Nat) (alarm : Option Nat)

namespace Ledger

def start (stripes : Int) (c : Clock) : Ledger := ⟨.new stripes, c, []⟩

def attempt (s : Ledger) (l : Limiter) : Ledger :=
  match s.registry.tryAcquire l s.clock.now with
  | (true, r) => ⟨r, s.clock, (l.key, s.clock.now) :: s.permits⟩
  | (false, r) => { s with registry := r }

def await (s : Ledger) (l : Limiter) : Ledger :=
  match s.registry.acquire l s.clock with
  | (.ok (), r, c) => ⟨r, c, (l.key, c.now) :: s.permits⟩
  | (.error _, r, c) => ⟨r, c, s.permits⟩

def step (s : Ledger) : Act → Ledger
  | .create bot base scope o => { s with registry := (s.registry.getOrMake (scopedKey bot base scope) o).2 }
  | .prepare bot method chat policy override =>
      { s with registry := (s.registry.limitersFor (.int bot) method chat policy override).2 }
  | .attempt i => (s.registry.limiters[i]?).elim s s.attempt
  | .await i => (s.registry.limiters[i]?).elim s s.await
  | .pause length alarm => { s with clock := ⟨s.clock.now + length, alarm⟩ }

def run (s : Ledger) (acts : List Act) : Ledger := acts.foldl step s

def permitsAt (s : Ledger) (σ : Slot) : List Nat :=
  s.permits.filterMap fun p => if slot? p.1 = some σ then some p.2 else none

def counting (s : Ledger) (σ : Slot) (interval t : Nat) : List Nat := (s.permitsAt σ).filter fun u => t ≤ u + interval

theorem uses_attempt (s : Ledger) (l : Limiter) : Registry.Uses l.key s.registry (s.attempt l).registry := by
  have h := s.registry.uses_tryAcquire l s.clock.now
  unfold attempt
  split
  next hl => rwa [hl] at h
  next hl => rwa [hl] at h

theorem uses_await (s : Ledger) (l : Limiter) : Registry.Uses l.key s.registry (s.await l).registry := by
  have h := s.registry.uses_acquire l s.clock
  unfold await
  split
  next hl => rwa [hl] at h
  next hl => rwa [hl] at h

structure Sound (s : Ledger) : Prop where
  tidy : s.registry.Tidy
  kept : ∀ σ, Kept s.clock.now (s.permitsAt σ) (s.registry.first? σ) (s.registry.at? σ)

namespace Sound

variable {s : Ledger} {l : Limiter} {σ : Slot} {b : Bucket}

theorem of_start (stripes : Int) (c : Clock) : (start stripes c).Sound :=
  ⟨Registry.tidy_new stripes, fun _ => .unused⟩

theorem keeps (h : s.Sound) {r : Registry} (hr : s.registry.Keeps r) : Sound { s with registry := r } :=
  ⟨hr.tidy, fun σ => hr.accounts σ _ _ (h.kept σ)⟩

theorem later (h : s.Sound) {c : Clock} (hle : s.clock.now ≤ c.now) : Sound { s with clock := c } :=
  ⟨h.tidy, fun σ => (h.kept σ).later hle⟩

theorem exists_bucket (h : s.Sound) (hl : l ∈ s.registry.limiters) : ∃ σ b first, slot? l.key = some σ ∧
    s.registry.bucket? l.key = some b ∧ s.registry.at? σ = some b ∧ s.registry.first? σ = some first := by
  obtain ⟨σ, hσ, hfirst⟩ := Registry.exists_of_mem h.tidy hl
  obtain ⟨first, hfirst⟩ := Option.isSome_iff_exists.1 hfirst
  obtain ⟨b, hb⟩ := Option.isSome_iff_exists.1 (h.tidy.buckets l hl)
  exact ⟨σ, b, first, hσ, hb, by rw [← Registry.bucket?_eq_at? _ hσ, hb], hfirst⟩

theorem granted (h : s.Sound) {c : Clock} (hσ : slot? l.key = some σ) (hb : s.registry.at? σ = some b)
    (hle : s.clock.now ≤ c.now) (ha : b.admits c.now = true) :
    Sound ⟨s.registry.putBucket l.key (b.grant c.now), c, (l.key, c.now) :: s.permits⟩ := by
  have hgroup := Registry.group?_isSome_of_at? hb
  refine ⟨h.tidy.putBucket _ _, fun τ => ?_⟩
  rw [Registry.first?_putBucket, Registry.at?_putBucket h.tidy hσ hgroup]
  have hkept := h.kept τ
  by_cases hτ : τ = σ
  · subst hτ
    rw [hb] at hkept
    simpa [permitsAt, hσ] using hkept.granted hle ha
  · have hother : slot? l.key ≠ some τ := fun heq => hτ (Option.some.inj (heq.symm.trans hσ))
    rw [if_neg hτ]
    simpa [permitsAt, hother] using hkept.later hle

theorem refused (h : s.Sound) (hσ : slot? l.key = some σ) (hb : s.registry.at? σ = some b) :
    Sound { s with registry := s.registry.putBucket l.key b } := by
  have hgroup := Registry.group?_isSome_of_at? hb
  refine ⟨h.tidy.putBucket _ _, fun τ => ?_⟩
  rw [Registry.first?_putBucket, Registry.at?_putBucket h.tidy hσ hgroup]
  split
  next hτ =>
    rw [← hb, hτ]
    exact h.kept σ
  next => exact h.kept τ

theorem attempt (h : s.Sound) (hl : l ∈ s.registry.limiters) : (s.attempt l).Sound := by
  obtain ⟨σ, b, -, hσ, hbucket, hb, -⟩ := h.exists_bucket hl
  simp only [Ledger.attempt, Registry.tryAcquire, hbucket, Bucket.tryTake]
  by_cases ha : b.admits s.clock.now = true
  · simp only [if_pos ha]
    exact h.granted hσ hb (Nat.le_refl _) ha
  · simp only [if_neg ha]
    exact h.refused hσ hb

theorem await (h : s.Sound) (hl : l ∈ s.registry.limiters) : (s.await l).Sound := by
  obtain ⟨σ, b, -, hσ, hbucket, hb, -⟩ := h.exists_bucket hl
  obtain ⟨res, r, c, hacquire⟩ : ∃ res r c, s.registry.acquire l s.clock = (res, r, c) := ⟨_, _, _, rfl⟩
  simp only [Ledger.await, hacquire]
  cases Registry.acquires_of_acquire hacquire with
  | absent hnone => cases hnone.symm.trans hbucket
  | granted hsome hle ha =>
      obtain rfl := Option.some.inj (hbucket.symm.trans hsome)
      exact h.granted hσ hb hle ha
  | woken _ hle => exact h.later hle

theorem step (h : s.Sound) (a : Act) : (s.step a).Sound := by
  cases a with
  | create bot base scope o => exact h.keeps (Registry.keeps_getOrMake h.tidy bot base scope o)
  | prepare bot method chat policy override =>
      exact h.keeps (Registry.keeps_limitersFor h.tidy bot method chat policy override)
  | attempt i =>
      rw [Ledger.step]
      cases hi : s.registry.limiters[i]? with
      | none => exact h
      | some l => exact h.attempt (List.mem_of_getElem? hi)
  | await i =>
      rw [Ledger.step]
      cases hi : s.registry.limiters[i]? with
      | none => exact h
      | some l => exact h.await (List.mem_of_getElem? hi)
  | pause length alarm => exact h.later (Nat.le_add_right _ _)

theorem run (h : s.Sound) (acts : List Act) : (s.run acts).Sound := by
  induction acts generalizing s with
  | nil => exact h
  | cons a acts ih => exact ih (h.step a)

theorem kept_of_mem (h : s.Sound) (hl : l ∈ s.registry.limiters) : ∃ σ b first, slot? l.key = some σ ∧
    s.registry.bucket? l.key = some b ∧ s.registry.at? σ = some b ∧ s.registry.first? σ = some first ∧
    Kept s.clock.now (s.permitsAt σ) (some first) (some b) := by
  obtain ⟨σ, b, first, hσ, hbucket, hb, hfirst⟩ := h.exists_bucket hl
  refine ⟨σ, b, first, hσ, hbucket, hb, hfirst, ?_⟩
  rw [← hfirst, ← hb]
  exact h.kept σ

end Sound

-- A permit is there exactly when fewer than the limit were given since the period began, both ends included.
-- The options are those of the limiter that opened the bucket, and a thousand times the period has a float.
theorem admits_exactly (stripes : Int) (c : Clock) (acts : List Act) (l : Limiter)
    (hl : l ∈ ((start stripes c).run acts).registry.limiters) :
    let s := (start stripes c).run acts
    ∃ σ first, slot? l.key = some σ ∧ s.registry.first? σ = some first ∧
      ∀ period, Number.value? first.options.period = some period → 1 ≤ period * 1000 →
        (∃ x, Number.value? x = some (period * 1000)) →
        ((s.registry.tryAcquire l s.clock.now).1 = true ↔
          (s.counting σ ⌊period * 1000⌋₊ s.clock.now).length < first.options.limit) ∧
        ∀ oldest newest between, (newest :: between ++ [oldest]).Sublist (s.permitsAt σ) →
          first.options.limit ≤ between.length + 1 → oldest + ⌊period * 1000⌋₊ < newest := by
  intro s
  have hsound : s.Sound := (Sound.of_start stripes c).run acts
  obtain ⟨σ, b, first, hσ, hbucket, -, hfirst, hkept⟩ := hsound.kept_of_mem hl
  refine ⟨σ, first, hσ, hfirst, fun period hperiod hone ⟨x, hx⟩ => ?_⟩
  have hinterval : b.interval = ⌊period * 1000⌋₊ := by
    have hproduct : first.options.interval? = some ⌊period * 1000⌋₊ :=
      Number.product?_eq_floor hperiod (by push_cast; linarith) (by exact_mod_cast hx)
    exact Option.some.inj (hkept.bucket_eq.2.2.symm.trans hproduct)
  rw [← hinterval]
  refine ⟨?_, fun oldest newest between hsub hlen => hkept.apart hsub hlen⟩
  rw [counting, ← hkept.admits_iff]
  simp only [Registry.tryAcquire, hbucket, Bucket.tryTake]
  split <;> simp_all

namespace Burst

-- Two permits a second, both used up a second ago: they count still.
def options : Options := ⟨2, 1.0, false, by decide⟩

def acts : List Act :=
  [.create 1 "sendMessage" (.str "total") options, .attempt 0, .attempt 0, .pause 1000 none]

def ledger : Ledger := (start defaultStripes ⟨0, none⟩).run acts

def slot : Slot := slotOf 1 "sendMessage" (.str "total")

theorem value?_eq {x : Float} {b : Number.Binary} {p : ℚ} (h : Number.Binary.ofFloat? x = some b)
    (hp : b.value = p) : Number.value? x = some p := by
  rw [Number.value?, h, Option.map_some, hp]

theorem exists_limiter : ∃ l first, l ∈ ledger.registry.limiters ∧ slot? l.key = some slot ∧
    ledger.registry.first? slot = some first ∧ first.options.limit = 2 ∧ Number.value? first.options.period = some 1 := by
  have h : (ledger.registry.limiters[0]?.any fun l => slot? l.key == some slot) = true := by
    with_unfolding_all rfl
  have hfirst : ((ledger.registry.first? slot).any fun l => l.options.limit == 2 &&
      Number.Binary.ofFloat? l.options.period == some ⟨false, 2 ^ 52, -52⟩) = true := by
    with_unfolding_all rfl
  obtain ⟨l, hl, hslot⟩ := (Option.any_eq_true _ _).1 h
  obtain ⟨first, hfirst, hoptions⟩ := (Option.any_eq_true _ _).1 hfirst
  simp only [Bool.and_eq_true, beq_iff_eq] at hslot hoptions
  refine ⟨l, first, List.mem_of_getElem? hl, hslot, hfirst, hoptions.1, value?_eq hoptions.2 ?_⟩
  norm_num [Number.Binary.value, Number.Binary.size]

theorem value?_thousand : Number.value? 1000.0 = some 1000 := by
  have h : Number.Binary.ofFloat? 1000.0 = some ⟨false, 1000 * 2 ^ 43, -43⟩ := by
    with_unfolding_all rfl
  refine value?_eq h ?_
  norm_num [Number.Binary.value, Number.Binary.size]

end Burst

theorem burst_refused : ∃ l, l ∈ Burst.ledger.registry.limiters ∧
    (Burst.ledger.registry.tryAcquire l Burst.ledger.clock.now).1 = false := by
  obtain ⟨l, first, hl, hslot, hfirst, hlimit, hperiod⟩ := Burst.exists_limiter
  obtain ⟨σ, opener, hσ, hopener, h⟩ := admits_exactly defaultStripes ⟨0, none⟩ Burst.acts l hl
  obtain rfl : Burst.slot = σ := Option.some.inj (hslot.symm.trans hσ)
  obtain rfl : first = opener := Option.some.inj (hfirst.symm.trans hopener)
  obtain ⟨hiff, -⟩ := h 1 hperiod (by norm_num) ⟨1000.0, by rw [Burst.value?_thousand]; norm_num⟩
  refine ⟨l, hl, Bool.eq_false_iff.2 fun htaken => ?_⟩
  have hcounting : (Burst.ledger.counting Burst.slot 1000 Burst.ledger.clock.now).length = 2 := by
    decide +kernel
  have hless := hiff.1 htaken
  rw [hlimit] at hless
  norm_num at hless
  exact absurd hless (by rw [← Burst.ledger, hcounting]; decide)

theorem await_ends (stripes : Int) (c : Clock) (acts : List Act) (l : Limiter)
    (hl : l ∈ ((start stripes c).run acts).registry.limiters)
    (halarm : ((start stripes c).run acts).clock.alarm = none) :
    let s := (start stripes c).run acts
    ∃ σ first interval looks, slot? l.key = some σ ∧ s.registry.first? σ = some first ∧
      first.options.interval? = some interval ∧
      let room (look : Nat) : Prop :=
        (s.counting σ interval (s.clock.now + look * pollInterval)).length < first.options.limit
      let ended := s.clock.now + looks * pollInterval
      let (result, registry, clock) := s.registry.acquire l s.clock
      result = .ok () ∧ clock = ⟨ended, none⟩ ∧ looks * pollInterval ≤ interval + pollInterval ∧
      room looks ∧ (∀ look < looks, ¬ room look) ∧
      registry.at? σ = (s.registry.at? σ).map (·.grant ended) ∧
      ∀ τ, τ ≠ σ → registry.at? τ = s.registry.at? τ := by
  intro s
  have hsound : s.Sound := (Sound.of_start stripes c).run acts
  obtain ⟨σ, b, first, hσ, hbucket, hb, hfirst, hkept⟩ := hsound.kept_of_mem hl
  obtain ⟨looks, hwait, hroom, hnone⟩ := exists_wait_eq_granted b l.options.interruptible s.clock.now
  have hacquire : s.registry.acquire l s.clock =
      (.ok (), s.registry.putBucket l.key (b.grant (s.clock.now + looks * pollInterval)),
        ⟨s.clock.now + looks * pollInterval, none⟩) := by
    simp only [Registry.acquire, hbucket, halarm, s, hwait]
  refine ⟨σ, first, b.interval, looks, hσ, hfirst, hkept.bucket_eq.2.2, ?_⟩
  rw [hacquire]
  refine ⟨rfl, rfl, look_le hkept.le_now hnone, (hkept.admits_iff _).1 hroom, fun look hlook => ?_, ?_, fun τ hτ => ?_⟩
  · intro hmore
    have hadmits := (hkept.admits_iff _).2 hmore
    rw [hnone look hlook] at hadmits
    cases hadmits
  · rw [Registry.at?_putBucket hsound.tidy hσ (Registry.group?_isSome_of_at? hb), if_pos rfl, hb]
    rfl
  · rw [Registry.at?_putBucket hsound.tidy hσ (Registry.group?_isSome_of_at? hb), if_neg hτ]

namespace Shared

def slow : Options := ⟨1, 0.1, false, by decide⟩

def fast : Options := ⟨1, 0.01, false, by decide⟩

-- Both limiters are named "1:m:5".
def acts : List Act :=
  [.create 1 "m" (.int 5) slow, .create 1 "m" (.str "5") fast, .await 0, .pause 50 none]

def ledger : Ledger := (start defaultStripes ⟨0, none⟩).run acts

end Shared

-- The limiter waits by the interval of another one: 75 where its own allows 35 at most.
theorem shared_waits_longer : ∃ l, l ∈ Shared.ledger.registry.limiters ∧ Shared.ledger.clock.alarm = none ∧
    l.options.interval? = some 10 ∧
    Shared.ledger.clock.now + 10 + pollInterval < (Shared.ledger.registry.acquire l Shared.ledger.clock).2.2.now := by
  have h : (Shared.ledger.registry.limiters[1]?.any fun l => l.options.interval? == some 10 &&
      decide (Shared.ledger.clock.now + 10 + pollInterval <
        (Shared.ledger.registry.acquire l Shared.ledger.clock).2.2.now)) = true := by
    decide +kernel
  obtain ⟨l, hl, hwaits⟩ := (Option.any_eq_true _ _).1 h
  simp only [Bool.and_eq_true, beq_iff_eq, decide_eq_true_eq] at hwaits
  exact ⟨l, List.mem_of_getElem? hl, rfl, hwaits.1, hwaits.2⟩

theorem shared_await_ends : ∃ l, l ∈ Shared.ledger.registry.limiters ∧
    (Shared.ledger.registry.acquire l Shared.ledger.clock).1 = .ok () := by
  have h : 1 < Shared.ledger.registry.limiters.length := by
    decide +kernel
  have hl := List.getElem_mem h
  obtain ⟨σ, first, interval, looks, -, -, -, hok, -⟩ :=
    await_ends defaultStripes ⟨0, none⟩ Shared.acts _ hl rfl
  exact ⟨_, hl, hok⟩

end Ledger

end BotApi.Limit
