import BotApi.Proofs.Limit.Admission
/-!
Whose options a bucket has. No two limiters of a registry have one key, and a bucket is shared only by the limiters of
a chat that goes by a number and of one that goes by the digits of that number.
-/

namespace BotApi

namespace Text

theorem natDigits_inj {m n : Nat} (h : natDigits m = natDigits n) : m = n := by
  have hnumber : Nat.ofDigitChars 10 (natDigits m) 0 = Nat.ofDigitChars 10 (natDigits n) 0 := by rw [h]
  rwa [natDigits, natDigits, Nat.ofDigitChars_ten_toDigits, Nat.ofDigitChars_ten_toDigits] at hnumber

theorem natDigits_ne_minus (n : Nat) (s : List Char) : natDigits n ≠ '-' :: s := by
  intro h
  have hdigit : Char.isDigit '-' = true := by
    apply Nat.isDigit_of_mem_toDigits (b := 10) (n := n) (by decide) (by decide)
    rw [← natDigits, h]
    exact List.mem_cons_self
  cases hdigit

theorem intDigits_inj {m n : Int} (h : intDigits m = intDigits n) : m = n := by
  unfold intDigits at h
  split at h <;> split at h
  · have hsize := natDigits_inj (List.cons.inj h).2
    omega
  · exact absurd h.symm (natDigits_ne_minus _ _)
  · exact absurd h (natDigits_ne_minus _ _)
  · have hsize := natDigits_inj h
    omega

end Text

namespace Limit

theorem int_of_shownText {m n : Int} (h : (Value.int m).shownText = (Value.int n).shownText) : m = n :=
  Text.intDigits_inj (String.ofList_injective h)

theorem str_of_shownText {chat : Value} {name : String} (h : chat.shownText = (Value.str name).shownText) :
    name = chat.shownText := by
  rw [h, Value.shownText, Value.shown, String.ofList_toList]

def Homonyms (chat chat' : Value) : Prop :=
  ∃ n, chat = .int n ∧ chat' = .str (Value.int n).shownText ∨ chat' = .int n ∧ chat = .str (Value.int n).shownText

theorem Named.eq_or_homonyms {chat chat' : Value} (h : Named chat) (h' : Named chat')
    (htext : chat.shownText = chat'.shownText) : chat = chat' ∨ Homonyms chat chat' := by
  rcases h with ⟨m, rfl⟩ | ⟨name, rfl⟩
  · rcases h' with ⟨n, rfl⟩ | ⟨name, rfl⟩
    · rw [int_of_shownText htext]
      exact .inl rfl
    · rw [str_of_shownText htext]
      exact .inr ⟨m, .inl ⟨rfl, rfl⟩⟩
  · rcases h' with ⟨n, rfl⟩ | ⟨name', rfl⟩
    · rw [str_of_shownText htext.symm]
      exact .inr ⟨n, .inr ⟨rfl, rfl⟩⟩
    · have hname := str_of_shownText htext
      rw [Value.shownText, Value.shown, String.ofList_toList] at hname
      exact .inl (by rw [hname])

namespace Registry

variable {r r' : Registry} {bot : Int} {base : String} {scope : Value} {o : Options}

structure Distinct (r : Registry) : Prop where
  named : ∀ l ∈ r.limiters, ∃ bot base scope, l.key = scopedKey bot base scope ∧ Named scope
  keys : (r.limiters.map (·.key)).Nodup

theorem Distinct.congr (h : r.Distinct) (hlimiters : r'.limiters = r.limiters) : r'.Distinct := by
  refine ⟨?_, ?_⟩
  · rw [hlimiters]
    exact h.named
  · rw [hlimiters]
    exact h.keys

theorem not_mem_of_lookUp (hscope : Named scope) (h : r.lookUp (scopedKey bot base scope) = .ok none) :
    scopedKey bot base scope ∉ r.limiters.map (·.key) := by
  intro hmem
  obtain ⟨l, hl, hkey⟩ := List.mem_map.1 hmem
  have hself : Value.equalLists l.key (scopedKey bot base scope) = true := by
    rw [hkey]
    exact equalLists_scopedKey.2 ⟨rfl, rfl, hscope.equal_self⟩
  unfold lookUp at h
  split at h
  · have hnone : r.find? (scopedKey bot base scope) = none := Except.ok.inj h
    exact List.find?_eq_none.1 hnone l hl hself
  · cases h

theorem distinct_getOrMake (tidy : r.Tidy) (h : r.Distinct) (hscope : Named scope) (bot : Int) (base : String)
    (o : Options) : (r.getOrMake (scopedKey bot base scope) o).2.Distinct := by
  unfold getOrMake
  split
  · exact h
  · exact h
  next hnone =>
    have hmem := not_mem_of_lookUp hscope hnone
    cases adds_make (o := o) tidy (Prod.eta (r.make (scopedKey bot base scope) o)).symm with
    | same limiters buckets => exact h.congr limiters
    | limiter opened limiters buckets =>
        refine ⟨?_, ?_⟩
        · rw [limiters]
          intro l hl
          rcases List.mem_append.1 hl with hl | hl
          · exact h.named l hl
          · rw [List.mem_singleton.1 hl]
            exact ⟨bot, base, scope, rfl, hscope⟩
        · rw [limiters, List.map_append]
          apply h.keys.append (List.nodup_singleton _)
          intro key hkey hlast
          rw [List.mem_singleton.1 hlast] at hkey
          exact hmem hkey

theorem distinct_limitersFor {chat : Value} (tidy : r.Tidy) (h : r.Distinct) (hchat : chat.isNull = true ∨ Named chat)
    (bot : Int) (method : String) (policy override : Value) :
    (r.limitersFor (.int bot) method chat policy override).2.Distinct := by
  have hboth : (r.limitersFor (.int bot) method chat policy override).2.Tidy ∧
      (r.limitersFor (.int bot) method chat policy override).2.Distinct := by
    apply limitersFor_preserves (P := fun r => r.Tidy ∧ r.Distinct) _ ⟨tidy, h⟩
    rintro r base scope o hscope ⟨tidy, h⟩
    refine ⟨(prepares_getOrMake tidy rfl).1.tidy, distinct_getOrMake tidy h ?_ bot base o⟩
    rcases hscope with rfl | ⟨hnull, rfl⟩
    · exact .inr ⟨_, rfl⟩
    · rw [hnull] at hchat
      exact hchat.resolve_left Bool.false_ne_true
  exact hboth.2

theorem Distinct.eq_or_homonyms {l l' : Limiter} (h : r.Distinct) (hl : l ∈ r.limiters) (hl' : l' ∈ r.limiters)
    (hslot : slot? l.key = slot? l'.key) : l = l' ∨ ∃ bot base chat chat', l.key = scopedKey bot base chat ∧
      l'.key = scopedKey bot base chat' ∧ Homonyms chat chat' := by
  obtain ⟨bot, base, chat, hkey, hchat⟩ := h.named l hl
  obtain ⟨bot', base', chat', hkey', hchat'⟩ := h.named l' hl'
  rw [hkey, hkey', slot?_scopedKey, slot?_scopedKey, Option.some.injEq, slotOf_inj] at hslot
  obtain ⟨rfl, rfl, -, htext⟩ := hslot
  rcases hchat.eq_or_homonyms hchat' htext with rfl | hhomonyms
  · left
    exact List.inj_on_of_nodup_map h.keys hl hl' (hkey.trans hkey'.symm)
  · right
    exact ⟨bot, base, chat, chat', hkey, hkey', hhomonyms⟩

end Registry

def Act.Plain : Act → Prop
  | .create _ _ scope _ => Named scope
  | .prepare _ _ chat _ _ => chat.isNull = true ∨ Named chat
  | .attempt _ | .await _ | .pause _ _ => True

namespace Ledger

variable {s : Ledger}

theorem distinct_step {a : Act} (sound : s.Sound) (h : s.registry.Distinct) (ha : a.Plain) :
    (s.step a).registry.Distinct := by
  cases a with
  | create bot base scope o => exact Registry.distinct_getOrMake sound.tidy h ha bot base o
  | prepare bot method chat policy override =>
      exact Registry.distinct_limitersFor sound.tidy h ha bot method policy override
  | attempt i =>
      rw [step]
      cases s.registry.limiters[i]? with
      | none => exact h
      | some l => exact h.congr (s.uses_attempt l).limiters
  | await i =>
      rw [step]
      cases s.registry.limiters[i]? with
      | none => exact h
      | some l => exact h.congr (s.uses_await l).limiters
  | pause length alarm => exact h

theorem distinct_run {acts : List Act} (sound : s.Sound) (h : s.registry.Distinct) (hacts : ∀ a ∈ acts, a.Plain) :
    (s.run acts).registry.Distinct := by
  induction acts generalizing s with
  | nil => exact h
  | cons a acts ih =>
      rw [List.forall_mem_cons] at hacts
      exact ih (sound.step a) (distinct_step sound h hacts.1) hacts.2

-- The rate of a limiter is that of the first one that has its bucket, which is the limiter itself unless their chats
-- go by a number and by its digits.
theorem limiter_rate (stripes : Int) (c : Clock) (acts : List Act) (hacts : ∀ a ∈ acts, a.Plain) (l : Limiter)
    (hl : l ∈ ((start stripes c).run acts).registry.limiters) :
    let r := ((start stripes c).run acts).registry
    ∃ σ first b, slot? l.key = some σ ∧ r.first? σ = some first ∧ r.bucket? l.key = some b ∧
      b.limit = first.options.limit ∧ first.options.interval? = some b.interval ∧
      (first = l ∨ ∃ bot base chat chat', first.key = scopedKey bot base chat ∧ l.key = scopedKey bot base chat' ∧
        Homonyms chat chat') := by
  intro r
  have sound := Sound.of_start stripes c
  have hdistinct : r.Distinct := by
    apply distinct_run sound _ hacts
    refine ⟨?_, List.nodup_nil⟩
    intro l hl
    cases hl
  obtain ⟨σ, b, first, hσ, hbucket, -, hfirst, hkept⟩ := (sound.run acts).kept_of_mem hl
  obtain ⟨-, hlimit, hinterval⟩ := hkept.bucket_eq
  have hmem : first ∈ r.limiters := List.mem_of_find?_eq_some hfirst
  have hslot : slot? first.key = some σ := by simpa using List.find?_some hfirst
  exact ⟨σ, first, b, hσ, hfirst, hbucket, hlimit, hinterval,
    hdistinct.eq_or_homonyms hmem hl (hslot.trans hσ.symm)⟩

namespace Digits

def policy (options : List (String × Value)) : Value := .ofFields [("m", .ofFields [
  (Level.perChat.name, .ofFields options)])]

def acts : List Act := [
  .prepare 1 "m" (.int 5) (policy [("limit", .int 1), ("period", .int 60)]) .null,
  .prepare 1 "m" (.str "5") (policy [("limit", .int 3)]) .null]

theorem plain : ∀ a ∈ acts, a.Plain := by
  intro a ha
  simp only [acts, List.mem_cons, List.not_mem_nil, or_false] at ha
  rcases ha with rfl | rfl
  · exact .inr (.inl ⟨5, rfl⟩)
  · exact .inr (.inr ⟨"5", rfl⟩)

def ledger : Ledger := (start defaultStripes ⟨0, none⟩).run acts

theorem second_shares : (ledger.registry.limiters[1]?.any fun l => l.options.limit == 3 &&
    (ledger.registry.bucket? l.key).any fun b => b.limit == 1) = true := by
  with_unfolding_all rfl

end Digits

-- The limiter of the chat "5" is to give three permits, and has the bucket of the chat 5 with its one.
theorem digits_share_rate : ∃ l, l ∈ Digits.ledger.registry.limiters ∧ l.options.limit = 3 ∧
    ∃ b, Digits.ledger.registry.bucket? l.key = some b ∧ b.limit = 1 := by
  obtain ⟨l, hl, hrate⟩ := (Option.any_eq_true _ _).1 Digits.second_shares
  rw [Bool.and_eq_true, beq_iff_eq, Option.any_eq_true] at hrate
  obtain ⟨hlimit, b, hb, hshared⟩ := hrate
  exact ⟨l, List.mem_of_getElem? hl, hlimit, b, hb, eq_of_beq hshared⟩

theorem digits_rate_of_first : ∃ l first b, l ∈ Digits.ledger.registry.limiters ∧
    first ∈ Digits.ledger.registry.limiters ∧ Digits.ledger.registry.bucket? l.key = some b ∧
    b.limit = first.options.limit := by
  obtain ⟨l, hget, -⟩ := (Option.any_eq_true _ _).1 Digits.second_shares
  have hl := List.mem_of_getElem? hget
  obtain ⟨σ, first, b, -, hfirst, hbucket, hlimit, -⟩ :=
    limiter_rate defaultStripes ⟨0, none⟩ Digits.acts Digits.plain l hl
  exact ⟨l, first, b, hl, List.mem_of_find?_eq_some hfirst, hbucket, hlimit⟩

end Ledger

end Limit

end BotApi
