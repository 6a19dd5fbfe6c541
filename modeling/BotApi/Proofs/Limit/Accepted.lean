import BotApi.Proofs.Limit.Alias
import BotApi.Proofs.Limit.Merge
import BotApi.Proofs.Limit.Slot
/-!
Which policies are accepted, and what requests for limiters come to under them. Of a policy that is not accepted
the first entry that is wrong is reported, unless that entry has levels of unknown names which cannot be put in
order to be shown. Requests under accepted ones give limiters or report an option that is not valid, as long as
all options go by texts and no new limiter has a period that is endless or below a millisecond.
-/

namespace BotApi

def Reported {α : Type} (x : Except Error α) : Prop :=
  (∃ a, x = .ok a) ∨ ∃ fault, x = .error (.config fault)

section Reported

variable {α β : Type}

@[simp] theorem reported_ok (a : α) : Reported (.ok a : Except Error α) := .inl ⟨a, rfl⟩

@[simp] theorem reported_error {e : Error} :
    Reported (.error e : Except Error α) ↔ ∃ fault, e = .config fault := by
  simp [Reported]

theorem reported_config (fault : ConfigFault) : Reported (.error (.config fault) : Except Error α) :=
  .inr ⟨fault, rfl⟩

@[simp] theorem not_reported_wrongKind : ¬ Reported (Error.wrongKind : Except Error α) := by
  simp [Error.wrongKind]

theorem Reported.bind_iff {x : Except Error α} {f : α → Except Error β} :
    Reported (x.bind f) ↔ Reported x ∧ ∀ a, x = .ok a → Reported (f a) := by
  cases x <;> simp [Except.bind]

theorem Reported.map_iff {x : Except Error α} {f : α → β} : Reported (x.map f) ↔ Reported x := by
  cases x <;> simp [Except.map]

theorem Reported.forM_iff {check : α → Except Error Unit} {as : List α} : Reported (as.forM check) ↔
    ∀ before a after, as = before ++ a :: after → (∀ b ∈ before, check b = .ok ()) → Reported (check a) := by
  induction as with
  | nil => simp [pure, Except.pure]
  | cons a as ih =>
      change Reported ((check a).bind fun _ => as.forM check) ↔ _
      rw [Reported.bind_iff, ih]
      constructor
      · rintro ⟨ha, has⟩ before b after heq hbefore
        cases before with
        | nil =>
            cases heq
            exact ha
        | cons c before =>
            rw [List.forall_mem_cons] at hbefore
            obtain ⟨rfl, hrest⟩ := List.cons.inj heq
            exact has () hbefore.1 before b after hrest hbefore.2
      · intro h
        refine ⟨h [] a as rfl (by simp), fun u ha before b after heq hbefore => ?_⟩
        refine h (a :: before) b after (by rw [heq, List.cons_append]) ?_
        rw [List.forall_mem_cons]
        exact ⟨ha, hbefore⟩

end Reported

namespace Value

variable {v : Value} {vs ws : List Value}

theorem mem_of_insert? (h : insert? v vs = some ws) {w : Value} (hw : w ∈ ws) : w = v ∨ w ∈ vs := by
  induction vs generalizing ws with
  | nil =>
      cases h
      exact .inl (List.mem_singleton.1 hw)
  | cons u vs ih =>
      obtain ⟨b, -, h⟩ := Option.bind_eq_some_iff.1 h
      split at h
      · cases h
        exact List.mem_cons.1 hw
      · obtain ⟨us, hus, rfl⟩ := Option.map_eq_some_iff.1 h
        rcases List.mem_cons.1 hw with rfl | hw
        · exact .inr (by simp)
        · exact (ih hus hw).imp_right (List.mem_cons_of_mem u)

theorem mem_of_sorted? (h : sorted? vs = some ws) {w : Value} (hw : w ∈ ws) : w ∈ vs := by
  induction vs generalizing ws with
  | nil =>
      cases h
      exact hw
  | cons v vs ih =>
      obtain ⟨us, hus, h⟩ := Option.bind_eq_some_iff.1 h
      rcases mem_of_insert? h hw with rfl | hw
      · exact List.mem_cons_self
      · exact List.mem_cons_of_mem v (ih hus hw)

theorem exists_of_insert?_eq_none (h : insert? v vs = none) : ∃ w ∈ vs, less? v w = none := by
  induction vs with
  | nil => cases h
  | cons w vs ih =>
      cases hless : less? v w with
      | none => exact ⟨w, by simp, hless⟩
      | some b =>
          rw [insert?, hless, Option.bind_some] at h
          cases b with
          | true => cases h
          | false =>
              obtain ⟨u, hu, hnone⟩ := ih (Option.map_eq_none_iff.1 h)
              exact ⟨u, by simp [hu], hnone⟩

theorem exists_of_sorted?_eq_none (h : sorted? vs = none) : ∃ v ∈ vs, ∃ w ∈ vs, less? v w = none := by
  induction vs with
  | nil => cases h
  | cons v vs ih =>
      cases hsorted : sorted? vs with
      | none =>
          obtain ⟨a, ha, b, hb, hnone⟩ := ih hsorted
          exact ⟨a, by simp [ha], b, by simp [hb], hnone⟩
      | some ws =>
          rw [sorted?, hsorted, Option.bind_some] at h
          obtain ⟨w, hw, hnone⟩ := exists_of_insert?_eq_none h
          exact ⟨v, by simp, w, by simp [mem_of_sorted? hsorted hw], hnone⟩

end Value

namespace Limit

variable {fromFile : Bool} {method : String} {level : Level} {policy options : Value} {es : Entries}
  {e : Value × Value}

def unknownLevels (levels : Entries) : List Value :=
  (levels.map (·.1)).filter fun k => !k.str?.any levelNames.contains

-- The first entry that is wrong has levels of unknown names, and they cannot be put in order.
def Unsorted (policy : Value) : Prop :=
  ∃ before method levels after, policy = .dict (before ++ (method, .dict levels) :: after) ∧
    (∀ e ∈ before, checkEntry false e = .ok ()) ∧ Value.sorted? (unknownLevels levels) = none

theorem reported_checkLevels : Reported (checkLevels fromFile method es) ↔
    Value.sorted? (unknownLevels es) ≠ none := by
  rw [checkLevels, ← unknownLevels]
  cases hunknown : unknownLevels es with
  | nil =>
      simp only [List.isEmpty_nil, ↓reduceIte, Value.sorted?]
      split <;> simp
  | cons k ks =>
      simp only [List.isEmpty_cons, Bool.false_eq_true, ↓reduceIte]
      cases Value.sorted? (k :: ks) <;> simp

theorem reported_checkEntry : Reported (checkEntry fromFile e) ↔
    ∀ levels, e.2 = .dict levels → Value.sorted? (unknownLevels levels) ≠ none := by
  obtain ⟨k, v⟩ := e
  cases v with
  | dict levels => simp [checkEntry, reported_checkLevels]
  | _ => simp [checkEntry]

theorem reported_checkPolicy? : Reported (checkPolicy? policy) ↔ ¬ Unsorted policy := by
  unfold checkPolicy? checkPolicy
  split
  next hnull =>
    refine iff_of_true (reported_ok ()) ?_
    rintro ⟨before, method, levels, after, rfl, -⟩
    cases hnull
  next =>
    split
    next es =>
      rw [Reported.forM_iff]
      simp only [reported_checkEntry]
      constructor
      · rintro h ⟨before, method, levels, after, heq, hbefore, hnone⟩
        cases heq
        exact h before _ after rfl hbefore levels rfl hnone
      · rintro h before ⟨method, _⟩ after rfl hbefore levels rfl hnone
        exact h ⟨before, method, levels, after, rfl, hbefore, hnone⟩
    next hform =>
      refine iff_of_true (reported_config _) ?_
      rintro ⟨before, method, levels, after, rfl, -⟩
      exact hform _ rfl

theorem forM_eq_ok {check : Value × Value → Except Error Unit} :
    es.forM check = .ok () ↔ ∀ e ∈ es, check e = .ok () := by
  induction es with
  | nil => simp [pure, Except.pure]
  | cons e es ih =>
      rw [List.forall_mem_cons, ← ih]
      change (check e).bind (fun _ => es.forM check) = _ ↔ _
      cases check e <;> simp [Except.bind]

theorem checkLevels_eq_ok : checkLevels fromFile method es = .ok () ↔
    unknownLevels es = [] ∧ ∀ e ∈ es, isOptions fromFile e.2 = true := by
  rw [checkLevels, ← unknownLevels]
  by_cases hunknown : unknownLevels es = []
  · simp only [hunknown, List.isEmpty_nil, ↓reduceIte, true_and]
    cases hfind : es.find? fun e => !isOptions fromFile e.2 with
    | none => simpa using hfind
    | some e =>
        have hbad := List.find?_some hfind
        refine iff_of_false (by simp) fun hall => ?_
        rw [hall e (List.mem_of_find?_eq_some hfind)] at hbad
        cases hbad
  · have hsome : (unknownLevels es).isEmpty = false := List.isEmpty_eq_false_iff.2 hunknown
    simp only [hsome, Bool.false_eq_true, ↓reduceIte, hunknown, false_and, iff_false]
    split <;> simp [Error.wrongKind]

theorem isOptions_of_file (h : isOptions true options = true) : isOptions false options = true := by
  cases options <;> simp_all [isOptions]

def Accepted (policy : Value) : Prop := checkPolicy? policy = .ok () ∨ checkPolicy true policy = .ok ()

theorem Accepted.check (h : Accepted policy) : checkPolicy? policy = .ok () := by
  rcases h with h | h
  · exact h
  · cases policy with
    | dict es =>
        rw [checkPolicy, forM_eq_ok] at h
        rw [checkPolicy?, if_neg (by simp [Value.isNull]), checkPolicy, forM_eq_ok]
        rintro ⟨k, v⟩ he
        have hentry := h _ he
        cases v with
        | dict levels =>
            rw [checkEntry, checkLevels_eq_ok] at hentry ⊢
            exact ⟨hentry.1, fun e he => isOptions_of_file (hentry.2 e he)⟩
        | str base => rfl
        | _ => cases hentry
    | _ => cases h

theorem isOptions_of_stance? (h : checkPolicy? policy = .ok ()) (hoptions : stance? level method policy = some options) :
    isOptions false options = true := by
  rcases policy_form h with hnull | ⟨es, rfl⟩
  · cases policy with
    | null => cases hoptions
    | _ => cases hnull
  · rw [checkPolicy?, if_neg (by simp [Value.isNull]), checkPolicy, forM_eq_ok] at h
    simp only [stance?] at hoptions
    split at hoptions
    next levels hlevels =>
      have hentry := h _ (Entries.mem_of_getText? hlevels)
      rw [checkEntry, checkLevels_eq_ok] at hentry
      exact hentry.2 _ (Entries.mem_of_getText? hoptions)
    next => cases hoptions

end Limit

end BotApi

namespace BotApi.Limit

variable {level : Level} {method base : String} {chat policy : Value} {policies : List Value}

def Static (policy : Value) : Prop :=
  ∀ level method options, stance? level method policy = some options → options.isCallable = false

theorem exists_stated (haccepted : Accepted policy) (hstatic : Static policy) (level : Level) (method : String)
    (chat : Value) : ∃ said, stated level method chat policy = .ok said := by
  rcases policy_form haccepted.check with hnull | ⟨es, rfl⟩
  · cases policy with
    | null => exact ⟨none, rfl⟩
    | _ => cases hnull
  · rw [stated_dict]
    cases hoptions : stance? level method (.dict es) with
    | none => exact ⟨none, rfl⟩
    | some options =>
        have hform := isOptions_of_stance? haccepted.check hoptions
        have hfixed := hstatic _ _ _ hoptions
        cases options with
        | null => exact ⟨_, rfl⟩
        | dict os => exact ⟨_, rfl⟩
        | limits fs => exact ⟨_, rfl⟩
        | byChat _ _ | byChatKind => cases hfixed
        | _ => cases hform

theorem stance?_cons (name : String) (entry : Value) (es : Entries) :
    stance? level method (.dict ((.str name, entry) :: es)) =
      if name = method then
        match entry with
        | .dict levels => Entries.getText? levels level.name
        | _ => none
      else stance? level method (.dict es) := by
  simp only [stance?, Entries.getText?_cons]
  by_cases hname : name = method
  · rw [if_pos hname, if_pos hname]
    cases entry <;> rfl
  · rw [if_neg hname, if_neg hname]

theorem stance?_default (level : Level) (method : String) : stance? level method defaultPolicy = none ∨
    stance? level method defaultPolicy = some (match level with
      | .total => rate 30 1
      | .perChat => .byChatKind) := by
  rw [defaultPolicy, Value.ofFields, List.map_cons, stance?_cons]
  split
  · right
    cases level with
    | total => exact (Entries.getText?_cons ..).trans (if_pos rfl)
    | perChat =>
        have hother : Level.total.name ≠ Level.perChat.name := by decide
        exact (Entries.getText?_cons ..).trans ((if_neg hother).trans (Entries.getText?_cons ..))
  · left
    rw [List.map_cons, stance?_cons]
    split <;> rfl

theorem exists_stated_default (hchat : level = .total ∨ Named chat) (method : String) :
    ∃ said, stated level method chat defaultPolicy = .ok said := by
  obtain ⟨es, hes⟩ : ∃ es, defaultPolicy = .dict es := ⟨_, rfl⟩
  have hstance := stance?_default level method
  rw [hes] at hstance ⊢
  rw [stated_dict]
  rcases hstance with hnone | hsome
  · rw [hnone]
    exact ⟨none, rfl⟩
  · rw [hsome]
    cases level with
    | total => exact ⟨_, rfl⟩
    | perChat =>
        obtain ⟨group, hgroup⟩ : ∃ group, isGroupChat chat = .ok group := by
          rcases hchat.resolve_left (by simp) with ⟨n, rfl⟩ | ⟨name, rfl⟩ <;> exact ⟨_, rfl⟩
        simp only [forChat, hgroup, Except.map, Except.bind]
        cases group <;> exact ⟨_, rfl⟩

-- What a policy says of a level, where it can be asked.
def saidBy (level : Level) (method : String) (chat policy : Value) : Option (Option Entries) :=
  (stated level method chat policy).toOption.getD none

theorem merged_saidBy (h : ∀ p ∈ policies, ∃ said, stated level method chat p = .ok said) :
    merged level method chat policies = .ok (overlay (policies.map (saidBy level method chat))) := by
  refine merged_of_stated (List.forall₂_map_right_iff.2 (List.forall₂_same.2 fun policy hpolicy => ?_))
  obtain ⟨said, hsaid⟩ := h policy hpolicy
  rw [saidBy, hsaid]
  rfl

theorem reported_levelOptions (h : ∀ p ∈ policies, ∃ said, stated level method chat p = .ok said) :
    Reported (levelOptions level method chat policies) ↔
      ∀ es ∈ above (policies.map (saidBy level method chat)), es.Textual := by
  rw [levelOptions, merged_saidBy h, ← textual_overlay]
  simp only [Except.bind]
  cases overlay (policies.map (saidBy level method chat)) with
  | none => simp [Entries.Textual]
  | some es =>
      rw [Option.getD_some, ← Entries.isSome_texts?]
      cases htexts : Entries.texts? es with
      | none => simp [htexts]
      | some texts => cases hof : Options.ofValue? (.dict es) <;> simp [htexts, hof]

namespace Registry

variable {r : Registry} {key : Key} {o : Options} {bot : Int} {scope : Value}

theorem reported_bucketFor : Reported (bucketFor o) ↔ ∃ n, o.interval? = some n ∧ 0 < n := by
  unfold bucketFor
  split
  next hnone => simp [hnone]
  next hzero => simp [hzero]
  next n hne hn => simpa [hn] using Nat.pos_of_ne_zero hne

theorem reported_make (r : Registry) (bot : Int) (base : String) (scope : Value) (o : Options) :
    Reported (r.make (scopedKey bot base scope) o).1 ↔ 0 < r.stripes ∧ ∃ n, o.interval? = some n ∧ 0 < n := by
  simp only [make, groupKey?_scopedKey, ← reported_bucketFor]
  by_cases hstripes : r.stripes ≤ 0
  · simp [hstripes]
  · have hpos : 0 < r.stripes := Int.not_le.1 hstripes
    rw [if_neg hstripes, and_iff_right hpos]
    cases bucketFor o <;> simp

theorem reported_getOrMake (r : Registry) (bot : Int) (base : String) (hscope : scope.isKey = true) (o : Options) :
    Reported (r.getOrMake (scopedKey bot base scope) o).1 ↔
      (r.find? (scopedKey bot base scope) = none → 0 < r.stripes ∧ ∃ n, o.interval? = some n ∧ 0 < n) := by
  have hkeys : Value.areKeys (scopedKey bot base scope) = true := by
    simp [scopedKey, Value.areKeys, Value.isKey, hscope]
  rw [getOrMake, lookUp, if_pos hkeys]
  cases r.find? (scopedKey bot base scope) with
  | some l => simp
  | none => simpa using reported_make r bot base scope o

theorem reported_levelLimiter (r : Registry) (bot : Int) (base : String) (hscope : scope.isKey = true)
    (o : Except Error (Option Options)) : Reported (r.levelLimiter (scopedKey bot base scope) o).1 ↔
      Reported o ∧ ∀ x, o = .ok (some x) → r.find? (scopedKey bot base scope) = none →
        0 < r.stripes ∧ ∃ n, x.interval? = some n ∧ 0 < n := by
  rcases o with e | _ | x
  · simp [levelLimiter]
  · simp [levelLimiter]
  · simp only [levelLimiter, Reported.map_iff, reported_getOrMake r bot base hscope]
    simp

structure Serves (r : Registry) (key : Key) (level : Level) (base : String) (chat : Value) (policies : List Value) :
    Prop where
  names : ∀ es ∈ above (policies.map (saidBy level base chat)), es.Textual
  fresh : ∀ o, levelOptions level base chat policies = .ok (some o) → r.find? key = none →
    0 < r.stripes ∧ ∃ n, o.interval? = some n ∧ 0 < n

theorem reported_level (r : Registry) (bot : Int) (base : String) (hscope : scope.isKey = true)
    (h : ∀ p ∈ policies, ∃ said, stated level base chat p = .ok said) :
    Reported (r.levelLimiter (scopedKey bot base scope) (levelOptions level base chat policies)).1 ↔
      Serves r (scopedKey bot base scope) level base chat policies := by
  rw [reported_levelLimiter r bot base hscope, reported_levelOptions h]
  exact ⟨fun h => ⟨h.1, h.2⟩, fun h => ⟨h.names, h.fresh⟩⟩

end Registry

open Registry (Serves)

-- A request under accepted policies without choices by chat gives limiters or reports an option that is not
-- valid exactly if the level of all calls makes no trouble, nor then that of the chat.
theorem limitersFor_reported (r : Registry) (bot : Int) (method : String) (chat policy override : Value)
    (hchat : Named chat) (hpolicy : Accepted policy) (hoverride : Accepted override) (hstatic : Static policy)
    (hstatic' : Static override) : let policies := [override, policy, defaultPolicy]
    ∃ base, baseMethod method policies = .ok base ∧
      (Reported (r.limitersFor (.int bot) method chat policy override).1 ↔
        Serves r (totalKey bot base) .total base .null policies ∧
        ∀ ls r', r.levelLimiter (totalKey bot base) (levelOptions .total base .null policies) = (.ok ls, r') →
          Serves r' (scopedKey bot base chat) .perChat base chat policies) := by
  intro policies
  have haccepted : ∀ p ∈ policies, checkPolicy? p = .ok () := by
    simp [policies, hoverride.check, hpolicy.check, defaultPolicy_accepted]
  obtain ⟨base, hbase⟩ : ∃ base, baseMethod method policies = .ok base := ⟨_, baseMethod_eq haccepted method⟩
  have hstated {level : Level} {scope : Value} (h : level = .total ∨ Named scope) :
      ∀ p ∈ policies, ∃ said, stated level base scope p = .ok said := by
    simp [policies, exists_stated hoverride hstatic' level base scope, exists_stated hpolicy hstatic level base scope,
      exists_stated_default h base]
  refine ⟨base, hbase, ?_⟩
  rw [totalKey, ← Registry.reported_level r bot base rfl (hstated (.inl rfl))]
  simp only [← Registry.reported_level _ bot base hchat.isKey (hstated (.inr hchat))]
  simp only [Registry.limitersFor, policies] at hbase ⊢
  simp only [hbase, hchat.isNull, Bool.false_eq_true, ↓reduceIte, scopedKey]
  obtain ⟨res, r', hfirst⟩ : ∃ res r', r.levelLimiter [.int bot, .str base, .str Level.total.name]
      (levelOptions .total base .null [override, policy, defaultPolicy]) = (res, r') := ⟨_, _, rfl⟩
  rw [hfirst]
  cases res with
  | error e => simp
  | ok ls => simp [Reported.map_iff]

namespace Brief

-- The period ends before a millisecond is over.
def limits : Value :=
  .ofFields [("m", .ofFields [("total", .ofFields [("limit", .int 1), ("period", .float 0.0001)])])]

theorem accepted : Accepted limits := .inl rfl

theorem static : Static limits := by
  intro level method options h
  simp only [stance?, limits, Value.ofFields, List.map_cons, List.map_nil, Entries.getText?_cons,
    Entries.getText?_nil] at h
  by_cases hm : "m" = method
  · cases level <;> simp [hm, Level.name] at h
    rw [← h]
    rfl
  · simp [hm] at h

theorem static_null : Static .null := by
  intro level method options h
  cases h

def limiters : Except Error (List Limiter) :=
  ((Registry.new defaultStripes).limitersFor (.int 1) "m" (.int 5) limits .null).1

def faulty : Bool := match limiters with
  | .error (.misuse .assertion _) => true
  | _ => false

theorem not_reported : ¬ Reported limiters := by
  have hfaulty : faulty = true := by decide +kernel
  unfold faulty at hfaulty
  split at hfaulty
  next hmisuse => simp [hmisuse]
  next => cases hfaulty

end Brief

theorem brief_not_reported : Accepted Brief.limits ∧ Static Brief.limits ∧ ¬ Reported Brief.limiters :=
  ⟨Brief.accepted, Brief.static, Brief.not_reported⟩

theorem brief_not_served : Named (.int 5) ∧ Accepted Brief.limits ∧ Accepted .null ∧ Static Brief.limits ∧
    Static .null ∧ ∃ base, baseMethod "m" [.null, Brief.limits, defaultPolicy] = .ok base ∧
      ¬ (Serves (.new defaultStripes) (totalKey 1 base) .total base .null [.null, Brief.limits, defaultPolicy] ∧
        ∀ ls r', (Registry.new defaultStripes).levelLimiter (totalKey 1 base)
            (levelOptions .total base .null [.null, Brief.limits, defaultPolicy]) = (.ok ls, r') →
          Serves r' (scopedKey 1 base (.int 5)) .perChat base (.int 5) [.null, Brief.limits, defaultPolicy]) := by
  have hchat : Named (.int 5) := .inl ⟨5, rfl⟩
  have hnull : Accepted .null := .inl rfl
  obtain ⟨base, hbase, hiff⟩ := limitersFor_reported (.new defaultStripes) 1 "m" (.int 5) Brief.limits .null hchat
    Brief.accepted hnull Brief.static Brief.static_null
  exact ⟨hchat, Brief.accepted, hnull, Brief.static, Brief.static_null, base, hbase,
    fun hserves => Brief.not_reported (hiff.2 hserves)⟩

end BotApi.Limit
