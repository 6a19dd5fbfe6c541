import BotApi.Limit.Policy
import BotApi.Proofs.Limit.Options
/-!
The options of several policies laid over each other. Every field has the value of the highest policy that sets
it, among those above the first one that turns the level off.
-/

namespace BotApi

namespace Entries

variable {es fs : Entries} {k v : Value}

def Textual (es : Entries) : Prop := ∀ e ∈ es, ∃ name, e.1 = .str name

theorem textual_cons : Textual ((k, v) :: es) ↔ (∃ name, k = .str name) ∧ es.Textual :=
  List.forall_mem_cons

theorem textual_put : (es.put k v).Textual ↔ es.Textual ∧ ∃ name, k = .str name := by
  induction es with
  | nil => simp [put, Textual]
  | cons e es ih =>
      obtain ⟨l, w⟩ := e
      rw [put]
      by_cases hl : l.equal k = true
      · rw [if_pos hl, textual_cons, textual_cons]
        constructor
        · rintro ⟨⟨name, rfl⟩, hes⟩
          exact ⟨⟨⟨name, rfl⟩, hes⟩, name, Value.eq_str_of_str_equal hl⟩
        · rintro ⟨h, -⟩
          exact h
      · rw [if_neg hl, textual_cons, textual_cons, ih, and_assoc]

theorem textual_merge : (es.merge fs).Textual ↔ es.Textual ∧ fs.Textual := by
  induction fs generalizing es with
  | nil => simp [merge, Textual]
  | cons f fs ih =>
      obtain ⟨k, v⟩ := f
      rw [merge, List.foldl_cons, ← merge, ih, textual_put, textual_cons, and_assoc]

theorem getText?_merge (es : Entries) (hkeys : (fs.map (·.1)).Nodup) (name : String) :
    (es.merge fs).getText? name = (getText? fs name).or (es.getText? name) := by
  induction fs generalizing es with
  | nil => rfl
  | cons f fs ih =>
      obtain ⟨k, v⟩ := f
      rw [List.map_cons, List.nodup_cons] at hkeys
      rw [merge, List.foldl_cons, ← merge, ih _ hkeys.2, getText?_put_key, getText?_cons_key]
      by_cases hk : k.equal (.str name) = true
      · have hnone : getText? fs name = none := by
          apply getText?_eq_none
          intro w hw
          obtain rfl := Value.eq_str_of_equal_str hk
          exact hkeys.1 (List.mem_map.2 ⟨_, hw, rfl⟩)
        rw [if_pos hk, if_pos hk, hnone]
        rfl
      · rw [if_neg hk, if_neg hk]

theorem isSome_texts? : (texts? es).isSome = true ↔ es.Textual := by
  induction es with
  | nil => simp [texts?, Textual]
  | cons e es ih =>
      obtain ⟨k, v⟩ := e
      rw [textual_cons, ← ih, texts?, List.mapM_cons, ← texts?]
      cases k with
      | str name => cases texts? es <;> simp [Value.str?]
      | _ => simp [Value.str?]

end Entries

namespace Limit

variable {level : Level} {method : String} {chat : Value}

def stance? (level : Level) (method : String) : Value → Option Value
  | .dict es => match Entries.getText? es method with
      | some (.dict levels) => Entries.getText? levels level.name
      | _ => none
  | _ => none

inductive Gives : Value → Option Entries → Prop
  | off : Gives .null none
  | mapping {es : Entries} (keys : (es.map (·.1)).Nodup) : Gives (.dict es) (some es)
  | set {fs : List (String × Value)} (names : (fs.map (·.1)).Nodup) :
      Gives (.limits fs) (some (fs.map fun f => (.str f.1, f.2)))

inductive Says (level : Level) (method : String) (chat : Value) : Value → Option (Option Entries) → Prop
  | silent {policy : Value} (form : policy.isNull = true ∨ ∃ es, policy = .dict es)
      (absent : stance? level method policy = none) : Says level method chat policy none
  | options {policy stance chosen : Value} {given : Option Entries}
      (present : stance? level method policy = some stance) (chooses : forChat chat stance = .ok chosen)
      (gives : Gives chosen given) : Says level method chat policy (some given)

-- The options above the first policy that turns the level off, the highest first.
def above (said : List (Option (Option Entries))) : List Entries :=
  ((said.filterMap id).takeWhile Option.isSome).filterMap id

def chosen? (said : List (Option (Option Entries))) (field : String) : Option Value :=
  (above said).findSome? (Entries.getText? · field)

theorem orEmpty_dict (es : Entries) : (Value.dict es).orEmpty = .dict es := by
  cases es <;> rfl

theorem stated_dict (es : Entries) : stated level method chat (.dict es) =
    match stance? level method (.dict es) with
    | none => .ok none
    | some options => (forChat chat options).bind fun
        | .null => .ok (some none)
        | .dict os => .ok (some (some os))
        | .limits fs => .ok (some (some (fs.map fun f => (.str f.1, f.2))))
        | _ => Error.wrongKind := by
  rw [stated, orEmpty_dict]
  simp only [stance?, Entries.getText]
  cases Entries.getText? es method with
  | none => rfl
  | some entry => cases entry <;> rfl

theorem stated_eq_said {policy : Value} {said : Option (Option Entries)} (h : Says level method chat policy said) :
    stated level method chat policy = .ok said := by
  cases h with
  | silent form absent =>
      rcases form with hnull | ⟨es, rfl⟩
      · cases policy with
        | null => rfl
        | _ => cases hnull
      · rw [stated_dict, absent]
  | options present chooses gives =>
      cases policy with
      | dict es =>
          rw [stated_dict, present]
          simp only [chooses, Except.bind]
          cases gives <;> rfl
      | _ => cases present

def overlay : List (Option (Option Entries)) → Option Entries
  | [] => none
  | none :: said => overlay said
  | some none :: _ => none
  | some (some es) :: said => some (((overlay said).getD []).merge es)

theorem merged_of_stated {policies : List Value} {said : List (Option (Option Entries))}
    (h : List.Forall₂ (fun policy x => stated level method chat policy = .ok x) policies said) :
    merged level method chat policies = .ok (overlay said) := by
  induction h with
  | nil => rfl
  | @cons policy x policies said hpolicy _ ih =>
      rw [merged, ih]
      simp only [Except.bind, hpolicy, Except.map]
      rcases x with _ | _ | es <;> rfl

theorem merged_eq {policies : List Value} {said : List (Option (Option Entries))}
    (h : List.Forall₂ (Says level method chat) policies said) :
    merged level method chat policies = .ok (overlay said) :=
  merged_of_stated (h.imp fun _ _ => stated_eq_said)

@[simp] theorem above_silent (said : List (Option (Option Entries))) : above (none :: said) = above said := rfl

@[simp] theorem above_off (said : List (Option (Option Entries))) : above (some none :: said) = [] := rfl

@[simp] theorem above_options (es : Entries) (said : List (Option (Option Entries))) :
    above (some (some es) :: said) = es :: above said := rfl

theorem chosen?_options (es : Entries) (said : List (Option (Option Entries))) (field : String) :
    chosen? (some (some es) :: said) field = (Entries.getText? es field).or (chosen? said field) := by
  rw [chosen?, above_options, List.findSome?_cons, chosen?]
  cases Entries.getText? es field <;> rfl

theorem overlay_eq_none {said : List (Option (Option Entries))} : overlay said = none ↔ above said = [] := by
  induction said with
  | nil => exact ⟨fun _ => rfl, fun _ => rfl⟩
  | cons x said ih =>
      rcases x with _ | _ | es
      · exact ih
      · simp [overlay]
      · simp [overlay]

theorem above_eq_nil {said : List (Option (Option Entries))} :
    above said = [] ↔ said.filterMap id = [] ∨ (said.filterMap id).head? = some none := by
  induction said with
  | nil => simp [above]
  | cons x said ih =>
      rcases x with _ | _ | es
      · exact ih
      · simp
      · simp

variable {said : List (Option (Option Entries))}

theorem getText?_overlay (h : ∀ es, some (some es) ∈ said → (es.map (·.1)).Nodup) (field : String) :
    Entries.getText? ((overlay said).getD []) field = chosen? said field := by
  induction said with
  | nil => rfl
  | cons x said ih =>
      have hsaid := ih fun es hes => h es (List.mem_cons_of_mem _ hes)
      rcases x with _ | _ | es
      · exact hsaid
      · rfl
      · rw [overlay, Option.getD_some, Entries.getText?_merge _ (h es List.mem_cons_self), hsaid, chosen?_options]

theorem textual_overlay : Entries.Textual ((overlay said).getD []) ↔ ∀ es ∈ above said, es.Textual := by
  induction said with
  | nil => simp [overlay, above, Entries.Textual]
  | cons x said ih =>
      rcases x with _ | _ | es
      · exact ih
      · simp [overlay, Entries.Textual]
      · rw [overlay, Option.getD_some, Entries.textual_merge, ih, above_options, List.forall_mem_cons, and_comm]

variable {policies : List Value}

theorem nodup_of_given (h : List.Forall₂ (Says level method chat) policies said) (es : Entries)
    (hes : some (some es) ∈ said) : (es.map (·.1)).Nodup := by
  obtain ⟨policy, -, hpolicy⟩ := exists_left_of_mem h hes
  cases hpolicy with
  | options present chooses gives =>
      cases gives with
      | mapping keys => exact keys
      | set names =>
          rw [List.map_map]
          exact (List.nodup_map_iff_inj_on names.of_map).2
            fun f hf g hg heq => List.inj_on_of_nodup_map names hf hg (Value.str.inj heq)

theorem levelOptions_off (h : List.Forall₂ (Says level method chat) policies said) (hoff : above said = []) :
    levelOptions level method chat policies = .ok none := by
  rw [levelOptions, merged_eq h, overlay_eq_none.2 hoff]
  rfl

theorem exists_overlay (hon : above said ≠ []) : ∃ es, overlay said = some es :=
  Option.ne_none_iff_exists'.1 fun hnone => hon (overlay_eq_none.1 hnone)

theorem levelOptions_untextual (h : List.Forall₂ (Says level method chat) policies said) (hon : above said ≠ [])
    (htexts : ¬∀ es ∈ above said, es.Textual) : levelOptions level method chat policies = Error.wrongKind := by
  obtain ⟨es, hes⟩ := exists_overlay hon
  have hnone : Entries.texts? es = none := by
    rw [← textual_overlay, hes, Option.getD_some, ← Entries.isSome_texts?] at htexts
    exact Option.not_isSome_iff_eq_none.1 htexts
  rw [levelOptions, merged_eq h, hes]
  simp only [Except.bind, hnone]

theorem levelOptions_textual (h : List.Forall₂ (Says level method chat) policies said) (hon : above said ≠ [])
    (htexts : ∀ es ∈ above said, es.Textual) :
    (∀ o, levelOptions level method chat policies = .ok (some o) ↔
      Options.Reads (chosen? said) o.limit o.period o.interruptible) ∧
    ((∃ o, levelOptions level method chat policies = .ok (some o)) ∨
      ∃ issues, levelOptions level method chat policies = .error (.config (.invalidOptions level.name method issues))) := by
  obtain ⟨es, hes⟩ := exists_overlay hon
  have htextual : es.Textual := by
    have := textual_overlay.2 htexts
    rwa [hes] at this
  have hchosen : Entries.getText? es = chosen? said := by
    funext field
    rw [← getText?_overlay (nodup_of_given h), hes, Option.getD_some]
  obtain ⟨texts, htexts⟩ := Option.isSome_iff_exists.1 (Entries.isSome_texts?.2 htextual)
  rw [levelOptions, merged_eq h, hes, ← hchosen]
  simp only [Except.bind, htexts, ← Options.ofValue?_iff htextual]
  cases Options.ofValue? (.dict es) with
  | ok o => exact ⟨fun o' => by simp, .inl ⟨o, rfl⟩⟩
  | error issues => exact ⟨fun o' => by simp, .inr ⟨issues, rfl⟩⟩

theorem levelOptions_merged (h : List.Forall₂ (Says level method chat) policies said) :
    (levelOptions level method chat policies = .ok none ↔
      said.filterMap id = [] ∨ (said.filterMap id).head? = some none) ∧
    (∀ o, levelOptions level method chat policies = .ok (some o) ↔ above said ≠ [] ∧
      (∀ es ∈ above said, es.Textual) ∧ Options.Reads (chosen? said) o.limit o.period o.interruptible) ∧
    ((∃ fault, levelOptions level method chat policies = .error (.config fault)) ↔ above said ≠ [] ∧
      (∀ es ∈ above said, es.Textual) ∧
        ¬∃ o : Options, Options.Reads (chosen? said) o.limit o.period o.interruptible) ∧
    (levelOptions level method chat policies = Error.wrongKind ↔
      above said ≠ [] ∧ ¬∀ es ∈ above said, es.Textual) := by
  rw [← above_eq_nil]
  by_cases hon : above said = []
  · simp [levelOptions_off h hon, hon, Error.wrongKind]
  by_cases htexts : ∀ es ∈ above said, es.Textual
  · obtain ⟨hreads, hresult⟩ := levelOptions_textual h hon htexts
    simp only [← hreads, ne_eq, hon, eq_true htexts]
    rcases hresult with ⟨o, heq⟩ | ⟨issues, heq⟩
    · simp [heq, Error.wrongKind]
    · simp [heq, Error.wrongKind]
  · simp [levelOptions_untextual h hon htexts, hon, htexts, Error.wrongKind]

def overlaidPolicies : List Value := [
  .ofFields [("sendMessage", .ofFields [(Level.perChat.name, .ofFields [("interruptible", .bool true)])])],
  .ofFields [("sendMessage", .str "editMessageText")],
  .null,
  .ofFields [("sendMessage", .ofFields [(Level.perChat.name, .limits [("limit", .int 5)])])],
  .ofFields [("sendMessage", .ofFields [(Level.perChat.name, .null)])],
  defaultPolicy]

def overlaidSaid : List (Option (Option Entries)) := [
  some (some [(.str "interruptible", .bool true)]), none, none, some (some [(.str "limit", .int 5)]), some none,
  some (some [(.str "limit", .int 20), (.str "period", .int 60)])]

theorem stance?_ofFields (options : Value) :
    stance? level method (.ofFields [(method, .ofFields [(level.name, options)])]) = some options := by
  simp [stance?, Value.ofFields]

theorem stance?_defaultPolicy : stance? .perChat "sendMessage" defaultPolicy = some .byChatKind := by
  simp [stance?, defaultPolicy, Value.ofFields, Level.name]

theorem overlaid_spoken :
    List.Forall₂ (Says .perChat "sendMessage" (.int (-1))) overlaidPolicies overlaidSaid := by
  apply List.Forall₂.cons
  · exact .options (stance?_ofFields _) rfl (.mapping (by simp))
  apply List.Forall₂.cons
  · exact .silent (.inr ⟨_, rfl⟩) (by simp [stance?, Value.ofFields])
  apply List.Forall₂.cons
  · exact .silent (.inl rfl) rfl
  apply List.Forall₂.cons
  · exact .options (stance?_ofFields _) rfl (@Gives.set [("limit", .int 5)] (by simp))
  apply List.Forall₂.cons
  · exact .options (stance?_ofFields _) rfl .off
  apply List.Forall₂.cons
  · exact .options stance?_defaultPolicy rfl (.mapping (by simp))
  · exact .nil

theorem overlaid_options : levelOptions .perChat "sendMessage" (.int (-1)) overlaidPolicies =
    .ok (some ⟨5, 1.0, true, by decide⟩) := by
  apply ((levelOptions_merged overlaid_spoken).2.1 _).2
  refine ⟨by simp [overlaidSaid], by simp [overlaidSaid, Entries.Textual], ?_, ?_, .inl ⟨?_, rfl⟩, .inr ?_⟩
  · intro field hfield
    simp only [overlaidSaid, chosen?, above_silent, above_off, above_options, List.findSome?_cons,
      Entries.getText?_cons, Entries.getText?_nil] at hfield
    grind
  · exact ⟨.int 5, by simp [overlaidSaid, chosen?], _, rfl, by decide⟩
  · simp [overlaidSaid, chosen?]
  · exact ⟨.bool true, by simp [overlaidSaid, chosen?], _, rfl⟩

end Limit

end BotApi
