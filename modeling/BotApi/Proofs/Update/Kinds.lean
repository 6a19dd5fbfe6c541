import BotApi.Update.Kinds
import Mathlib.Data.List.Nodup
/-!
The list of kinds of updates to be delivered: what is in it, how often and in which order. It has no kind twice exactly
if none of those that are only added is added twice.
-/

namespace BotApi.Update

theorem pairwise_idxOf {xs : List String} {p : String → Bool} (h : ∀ x ∈ xs, p x = true → xs.count x = 1) :
    (xs.filter p).Pairwise fun a b => xs.idxOf a < xs.idxOf b := by
  induction xs with
  | nil => exact .nil
  | cons x xs ih =>
      obtain ⟨hx, hxs⟩ := List.forall_mem_cons.1 h
      have hne {a : String} (ha : a ∈ xs.filter p) : x ≠ a := by
        rintro rfl
        obtain ⟨hmem, hp⟩ := List.mem_filter.1 ha
        have hone := hx hp
        rw [List.count_cons_self] at hone
        have hpos := List.count_pos_iff.2 hmem
        omega
      have htail : (xs.filter p).Pairwise fun a b => (x :: xs).idxOf a < (x :: xs).idxOf b := by
        refine (ih fun a ha hp => ?_).imp_of_mem fun ha hb hlt => ?_
        · have hone := hxs a ha hp
          rwa [List.count_cons_of_ne (hne (List.mem_filter.2 ⟨ha, hp⟩))] at hone
        · rw [List.idxOf_cons_ne _ (hne ha), List.idxOf_cons_ne _ (hne hb)]
          exact Nat.succ_lt_succ hlt
      cases hp : p x with
      | false => rwa [List.filter_cons_of_neg (by simp [hp])]
      | true =>
          rw [List.filter_cons_of_pos hp]
          refine List.pairwise_cons.2 ⟨fun a ha => ?_, htail⟩
          rw [List.idxOf_cons_self, List.idxOf_cons_ne _ (hne ha)]
          exact Nat.succ_pos _

namespace Mode

def Keeps (m : Mode) (t : ApiType) (n : String) : Prop :=
  n ∈ t.fields.map (·.name) ∧ n ≠ idKey ∧ (m = .default → n ∉ optInKinds)

instance (m : Mode) (t : ApiType) (n : String) : Decidable (m.Keeps t n) := inferInstanceAs (Decidable (_ ∧ _ ∧ _))

end Mode

variable {spec : Spec} {t : ApiType} {m : Mode} {mode : String} {adding excluding names : List String}

inductive Precedes (t : ApiType) (m : Mode) (adding : List String) (a b : String) : Prop
  | kept (ha : m.Keeps t a) (hb : ¬ m.Keeps t b)
  | page (ha : m.Keeps t a) (hb : m.Keeps t b) (h : (t.fields.map (·.name)).idxOf a < (t.fields.map (·.name)).idxOf b)
  | added (ha : ¬ m.Keeps t a) (hb : ¬ m.Keeps t b) (h : adding.idxOf a < adding.idxOf b)

structure Allows (t : ApiType) (m : Mode) (adding excluding names : List String) : Prop where
  nodup : names.Nodup
  mem : ∀ n, n ∈ names ↔ (m.Keeps t n ∨ n ∈ adding) ∧ n ∉ excluding
  ordered : names.Pairwise (Precedes t m adding)

def listed (t : ApiType) (m : Mode) (adding excluding : List String) : List String :=
  ((t.fields.map (·.name)).filter fun n => m.Keeps t n ∧ n ∉ excluding) ++
    adding.filter fun n => ¬ m.Keeps t n ∧ n ∉ excluding

theorem kinds_eq (ht : spec.type? "update" = some t) (hfields : t.fields ≠ []) :
    kinds spec false false = .ok ((t.fields.map (·.name)).filter fun n => n != idKey) := by
  have hsome : t.fields.isEmpty = false := by simpa using hfields
  simp only [kinds, ht, hsome, Bool.false_eq_true, if_false, Bool.not_false, Bool.true_or, Bool.and_true,
    List.filter_map]
  rfl

theorem keeps_all (t : ApiType) : ((t.fields.map (·.name)).filter fun n => n != idKey) =
    (t.fields.map (·.name)).filter fun n => Mode.all.Keeps t n := by
  refine List.filter_congr fun n hn => ?_
  rw [Bool.eq_iff_iff, bne_iff_ne, decide_eq_true_iff]
  exact ⟨fun h => ⟨hn, h, nofun⟩, fun h => h.2.1⟩

theorem keeps_default (t : ApiType) :
    (((t.fields.map (·.name)).filter fun n => n != idKey).filter fun n => !optInKinds.contains n) =
      (t.fields.map (·.name)).filter fun n => Mode.default.Keeps t n := by
  rw [List.filter_filter]
  refine List.filter_congr fun n hn => ?_
  rw [Bool.eq_iff_iff]
  simp only [Bool.and_eq_true, bne_iff_ne, Bool.not_eq_true', List.contains_eq_mem, decide_eq_false_iff_not,
    decide_eq_true_eq]
  exact ⟨fun h => ⟨hn, h.2, fun _ => h.1⟩, fun h => ⟨h.2.2 rfl, h.2.1⟩⟩

theorem listed_eq (t : ApiType) (m : Mode) (adding excluding : List String) :
    ((((t.fields.map (·.name)).filter fun n => m.Keeps t n) ++
      adding.filter fun n => !((t.fields.map (·.name)).filter fun n => m.Keeps t n).contains n).filter fun n =>
        !excluding.contains n) = listed t m adding excluding := by
  rw [List.filter_append, List.filter_filter, List.filter_filter]
  refine congrArg₂ (· ++ ·) (List.filter_congr fun n _ => ?_) (List.filter_congr fun n _ => ?_)
  · simp [and_comm]
  · rw [Bool.eq_iff_iff]
    simp only [Bool.and_eq_true, Bool.not_eq_true', List.contains_eq_mem, decide_eq_false_iff_not, decide_eq_true_eq,
      List.mem_filter]
    exact ⟨fun h => ⟨fun hkeeps => h.2 ⟨hkeeps.1, hkeeps⟩, h.1⟩, fun h => ⟨h.2, fun hmem => h.1 hmem.2⟩⟩

theorem allowed_eq (ht : spec.type? "update" = some t) (hfields : t.fields ≠ []) (hmode : Mode.ofName? mode = some m) :
    allowed spec mode adding excluding = .ok (listed t m adding excluding) := by
  simp only [allowed, kinds_eq ht hfields, hmode, bind, Except.bind, pure, Except.pure]
  cases m with
  | all =>
      dsimp only
      rw [keeps_all, listed_eq]
  | default =>
      dsimp only
      rw [keeps_default, listed_eq]

theorem count_filter_eq (p : String → Bool) (xs : List String) (n : String) :
    (xs.filter p).count n = if p n = true then xs.count n else 0 := by
  split
  next hp => exact List.count_filter hp
  next hp => exact List.count_eq_zero.2 fun hmem => hp (List.mem_filter.1 hmem).2

theorem count_listed (hnodup : (t.fields.map (·.name)).Nodup) (n : String) : (listed t m adding excluding).count n =
    if n ∈ excluding then 0 else if m.Keeps t n then 1 else adding.count n := by
  rw [listed, List.count_append, count_filter_eq, count_filter_eq]
  by_cases hexcluded : n ∈ excluding
  · simp [hexcluded]
  · by_cases hkeeps : m.Keeps t n
    · have hone : (t.fields.map (·.name)).count n = 1 := List.count_eq_one_of_mem hnodup hkeeps.1
      simp [hexcluded, hkeeps, hone]
    · simp [hexcluded, hkeeps]

theorem mem_listed (n : String) :
    n ∈ listed t m adding excluding ↔ (m.Keeps t n ∨ n ∈ adding) ∧ n ∉ excluding := by
  simp only [listed, List.mem_append, List.mem_filter, decide_eq_true_eq]
  constructor
  · rintro (⟨-, hkeeps, hkept⟩ | ⟨hadded, -, hkept⟩)
    · exact ⟨.inl hkeeps, hkept⟩
    · exact ⟨.inr hadded, hkept⟩
  · rintro ⟨hn, hkept⟩
    by_cases hkeeps : m.Keeps t n
    · exact .inl ⟨hkeeps.1, hkeeps, hkept⟩
    · exact .inr ⟨hn.resolve_left hkeeps, hkeeps, hkept⟩

def AddsOnce (t : ApiType) (m : Mode) (adding excluding : List String) : Prop :=
  ∀ n ∈ adding, ¬ m.Keeps t n → n ∉ excluding → adding.count n = 1

theorem ordered_listed (hnodup : (t.fields.map (·.name)).Nodup) (honce : AddsOnce t m adding excluding) :
    (listed t m adding excluding).Pairwise (Precedes t m adding) := by
  have hpage : ∀ n ∈ t.fields.map (·.name), decide (m.Keeps t n ∧ n ∉ excluding) = true →
      (t.fields.map (·.name)).count n = 1 := fun n hn _ => List.count_eq_one_of_mem hnodup hn
  have hadding : ∀ n ∈ adding, decide (¬ m.Keeps t n ∧ n ∉ excluding) = true → adding.count n = 1 := fun n hn hp =>
    honce n hn (of_decide_eq_true hp).1 (of_decide_eq_true hp).2
  have hkept {n : String} {xs : List String} (h : n ∈ xs.filter fun n => m.Keeps t n ∧ n ∉ excluding) :
      m.Keeps t n := (of_decide_eq_true (List.mem_filter.1 h).2).1
  have hadded {n : String} {xs : List String} (h : n ∈ xs.filter fun n => ¬ m.Keeps t n ∧ n ∉ excluding) :
      ¬ m.Keeps t n := (of_decide_eq_true (List.mem_filter.1 h).2).1
  refine List.pairwise_append.2 ⟨?_, ?_, fun a ha b hb => .kept (hkept ha) (hadded hb)⟩
  · exact (pairwise_idxOf hpage).imp_of_mem fun ha hb h => .page (hkept ha) (hkept hb) h
  · exact (pairwise_idxOf hadding).imp_of_mem fun ha hb h => .added (hadded ha) (hadded hb) h

theorem allows_listed (hnodup : (t.fields.map (·.name)).Nodup) :
    Allows t m adding excluding (listed t m adding excluding) ↔ AddsOnce t m adding excluding := by
  constructor
  · intro h n hn hkeeps hkept
    have hmost := List.nodup_iff_count_le_one.1 h.nodup n
    rw [count_listed hnodup, if_neg hkept, if_neg hkeeps] at hmost
    have hpos := List.count_pos_iff.2 hn
    omega
  · intro honce
    refine ⟨List.nodup_iff_count_le_one.2 fun n => ?_, mem_listed, ordered_listed hnodup honce⟩
    rw [count_listed hnodup]
    split
    · omega
    split
    · omega
    next hkept hkeeps =>
      by_cases hn : n ∈ adding
      · exact Nat.le_of_eq (honce n hn hkeeps hkept)
      · rw [List.count_eq_zero.2 hn]
        omega

theorem allowed_kinds (ht : spec.type? "update" = some t) (hnodup : (t.fields.map (·.name)).Nodup)
    (hmode : Mode.ofName? mode = some m) (adding excluding : List String) :
    (t.fields = [] → allowed spec mode adding excluding = .error (.config .noUpdateType)) ∧
    (t.fields ≠ [] → ∃ names, allowed spec mode adding excluding = .ok names ∧
      (∀ n, names.count n = if n ∈ excluding then 0 else if m.Keeps t n then 1 else adding.count n) ∧
      (Allows t m adding excluding names ↔ AddsOnce t m adding excluding)) := by
  refine ⟨fun hfields => ?_, fun hfields => ?_⟩
  · simp [allowed, kinds, ht, hfields, bind, Except.bind]
  · exact ⟨_, allowed_eq ht hfields hmode, count_listed hnodup, allows_listed hnodup⟩

namespace Reactions

def field (name : String) (type : TypeExpr) : Param := ⟨name, type, false, "", none, false⟩

def update : ApiType := ⟨"update", "Update", "", .fields [field "update_id" (.basic "Integer"),
  field "message" (.ref "message"), field "edited_message" (.ref "message"),
  field "message_reaction" (.ref "messagereactionupdated"), field "chat_member" (.ref "chatmemberupdated")]⟩

def catalog : Spec := ⟨[], [update]⟩

end Reactions

open Reactions in
theorem reactions_allowed : catalog.type? "update" = some update ∧ (update.fields.map (·.name)).Nodup ∧
    Mode.ofName? "default" = some .default ∧
    allowed catalog "default" ["poll", "chat_member", "message", "message"] ["edited_message"] =
      .ok ["message", "poll", "chat_member"] ∧
    Allows update .default ["poll", "chat_member", "message", "message"] ["edited_message"]
      ["message", "poll", "chat_member"] := by
  have hallowed : allowed catalog "default" ["poll", "chat_member", "message", "message"] ["edited_message"] =
      .ok ["message", "poll", "chat_member"] := by rfl
  have htype : catalog.type? "update" = some update := rfl
  have hnodup : (update.fields.map (·.name)).Nodup := by decide
  have hmode : Mode.ofName? "default" = some .default := rfl
  obtain ⟨names, hnames, -, hallows⟩ :=
    (allowed_kinds htype hnodup hmode ["poll", "chat_member", "message", "message"] ["edited_message"]).2 nofun
  obtain rfl := Except.ok.inj (hallowed.symm.trans hnames)
  have honce : AddsOnce update .default ["poll", "chat_member", "message", "message"] ["edited_message"] := by
    unfold AddsOnce
    decide
  exact ⟨htype, hnodup, hmode, hallowed, hallows.2 honce⟩

open Reactions in
theorem repeated_kind_kept : catalog.type? "update" = some update ∧ (update.fields.map (·.name)).Nodup ∧
    Mode.ofName? "default" = some .default ∧
    ¬ ∃ names, allowed catalog "default" ["chat_member", "chat_member"] [] = .ok names ∧
      Allows update .default ["chat_member", "chat_member"] [] names := by
  refine ⟨rfl, by decide, rfl, ?_⟩
  rintro ⟨names, hnames, hallows⟩
  have htwice : allowed catalog "default" ["chat_member", "chat_member"] [] =
      .ok ["message", "edited_message", "chat_member", "chat_member"] := by rfl
  obtain rfl := Except.ok.inj (htwice.symm.trans hnames)
  exact absurd hallows.nodup (by decide)

end BotApi.Update
