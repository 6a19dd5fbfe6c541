import BotApi.Proofs.Result
import BotApi.Proofs.Values.Entries
import BotApi.Text.Octets
import BotApi.Update.Basic
import Mathlib.Data.List.TakeWhile
/-!
The commands in the message of an update. The positions of their marks count 16-bit units and are taken for counts of
characters: a name is read where it stands if no character before it counts twice.
-/

namespace BotApi

namespace Text

def surplus (s : List Char) : Nat := s.countP fun c => 0x10000 ≤ c.toNat

theorem unitLength_eq (s : List Char) : unitLength s = s.length + surplus s := by
  have hfold (n : Nat) : (s.map fun c => if c.toNat < 0x10000 then 1 else 2).foldl (· + ·) n =
      n + (s.length + surplus s) := by
    induction s generalizing n with
    | nil => rfl
    | cons c s ih =>
        rw [List.map_cons, List.foldl_cons, ih, List.length_cons, surplus, surplus, List.countP_cons]
        by_cases hc : c.toNat < 0x10000
        · rw [if_pos hc, if_neg (by simpa using hc)]
          omega
        · rw [if_neg hc, if_pos (by simpa using hc)]
          omega
  rw [unitLength, hfold, Nat.zero_add]

theorem unitLength_append (s t : List Char) : unitLength (s ++ t) = unitLength s + unitLength t := by
  simp only [unitLength_eq, surplus, List.length_append, List.countP_append]
  omega

end Text

namespace Value

theorem span_natCast {α : Type} (xs : List α) (a b : Nat) : span xs a b = (xs.drop a).take (b - a) := by
  have hposition (i : Nat) : position xs.length (i : Int) = min i xs.length := by
    rw [position, if_neg (by omega), Int.toNat_natCast]
  rw [span, hposition, hposition, ← List.take_eq_take_min, List.drop_take]
  by_cases h : a ≤ xs.length
  · rw [Nat.min_eq_left h]
  · rw [Nat.min_eq_right (by omega), List.drop_length, List.drop_of_length_le (by omega), List.take_nil, List.take_nil]

end Value

namespace Update

open Text (surplus unitLength)

inductive Piece where
  | plain (s : List Char)
  | command (name : List Char) (bot : Option (List Char))

def tag : Option (List Char) → List Char
  | none => []
  | some bot => '@' :: bot

def Piece.text : Piece → List Char
  | plain s => s
  | command name bot => '/' :: (name ++ tag bot)

def written (ps : List Piece) : List Char := ps.flatMap Piece.text

def Piece.name? : Piece → Option String
  | plain _ => none
  | command name _ => some (.ofList name)

def names (ps : List Piece) : List String := ps.filterMap Piece.name?

-- The entities of a passage that begins at a position, both in 16-bit units: one for each command, in order.
inductive Marks : Nat → List Piece → List Value → Prop
  | done (start : Nat) : Marks start [] []
  | other {start : Nat} {ps : List Piece} {marks : List Value} {e : Entries}
      (htype : e.getText? "type" ≠ some (.str "bot_command")) (h : Marks start ps marks) :
      Marks start ps (.dict e :: marks)
  | plain {start : Nat} {ps : List Piece} {marks : List Value} (s : List Char)
      (h : Marks (start + unitLength s) ps marks) : Marks start (.plain s :: ps) marks
  | command {start : Nat} {ps : List Piece} {marks : List Value} {e : Entries} (name : List Char)
      (bot : Option (List Char)) (htype : e.getText? "type" = some (.str "bot_command"))
      (hoffset : e.getText? "offset" = some (.int start))
      (hlength : e.getText? "length" = some (.int (unitLength (Piece.command name bot).text)))
      (h : Marks (start + unitLength (Piece.command name bot).text) ps marks) :
      Marks start (.command name bot :: ps) (.dict e :: marks)

structure Bears (m : Entries) (ps : List Piece) : Prop where
  text : m.getText? "text" = some (.str (.ofList (written ps)))
  marks : ∃ marks, Marks 0 ps marks ∧
    (m.getText? "entities" = some (.list marks) ∨ marks = [] ∧ m.getText? "entities" = none)

inductive Carries (m : Entries) : Value → Prop
  | direct {before after : Entries} {kind : String} (hbefore : ∀ e ∈ before, e.1 = .str idKey) (hid : kind ≠ idKey)
      (hkind : kind ≠ "") (hmessage : (m.getText? "message_id").isSome = true) :
      Carries m (.dict (before ++ (.str kind, .dict m) :: after))
  | inside {before after es : Entries} {kind : String} (hbefore : ∀ e ∈ before, e.1 = .str idKey) (hid : kind ≠ idKey)
      (hkind : kind ≠ "") (hnone : es.getText? "message_id" = none) (hmessage : es.getText? "message" = some (.dict m)) :
      Carries m (.dict (before ++ (.str kind, .dict es) :: after))

theorem payload_eq {before after : Entries} {kind : String} {v : Value} (hbefore : ∀ e ∈ before, e.1 = .str idKey)
    (hid : kind ≠ idKey) (hkind : kind ≠ "") :
    payload (.dict (before ++ (.str kind, v) :: after)) = .ok v := by
  have hkeys : (before.map (·.1)).find? (fun k => k.str? != some idKey) = none := by
    refine List.find?_eq_none.2 fun k hk => ?_
    obtain ⟨e, he, rfl⟩ := List.mem_map.1 hk
    simp [hbefore e he, Value.str?]
  have hother : before.find? (fun e => e.1.equal (.str kind)) = none := by
    refine List.find?_eq_none.2 fun e he => ?_
    simp [hbefore e he, Value.equal, Value.equalAtoms, hid.symm]
  have hfound : kind? (.dict (before ++ (.str kind, v) :: after)) = .ok (some (.str kind)) := by
    have hkind' : ((Value.str kind).str? != some idKey) = true := bne_iff_ne.2 fun h => hid (Option.some.inj h)
    simp only [kind?, Value.items, bind, Except.bind, pure, Except.pure, List.map_append, List.map_cons,
      List.find?_append, hkeys, Option.none_or, List.find?_cons, hkind']
  have hget : Entries.get? (before ++ (.str kind, v) :: after) (.str kind) = some v := by
    simp [Entries.get?, List.find?_append, hother, Value.equal_str_self]
  have htruthy : (Value.str kind).truthy = true := by simpa [Value.truthy] using hkind
  simp [payload, hfound, bind, Except.bind, htruthy, hget, pure, Except.pure]

theorem message_eq {m : Entries} {update : Value} (h : Carries m update) : message update = .ok (.dict m) := by
  cases h with
  | direct hbefore hid hkind hmessage =>
      simp [message, payload_eq hbefore hid hkind, bind, Except.bind, pure, Except.pure, hmessage]
  | inside hbefore hid hkind hnone hmessage =>
      simp [message, payload_eq hbefore hid hkind, bind, Except.bind, pure, Except.pure, hnone, Entries.getText,
        hmessage]

def marksCommand : Value → Bool
  | .dict e => (Entries.getText e "type").str? == some "bot_command"
  | _ => false

theorem marksCommand_eq_true {e : Entries} :
    marksCommand (.dict e) = true ↔ Entries.getText? e "type" = some (.str "bot_command") := by
  rw [marksCommand, Entries.getText, beq_iff_eq]
  cases e.getText? "type" with
  | none => simp [Value.str?]
  | some v => cases v <;> simp [Value.str?]

theorem filterM_marks {start : Nat} {ps : List Piece} {marks : List Value} (h : Marks start ps marks) :
    (marks.filterM fun e => do pure ((← e.entry "type").str? == some "bot_command")) =
      (.ok (marks.filter marksCommand) : Except Error (List Value)) := by
  refine filterM_ok fun v hv => ?_
  have hdict : ∃ e, v = .dict e := by
    induction h with
    | done => cases hv
    | plain _ _ ih => exact ih hv
    | other _ _ ih | command _ _ _ _ _ _ ih =>
        rcases List.mem_cons.1 hv with rfl | hv
        · exact ⟨_, rfl⟩
        · exact ih hv
  obtain ⟨e, rfl⟩ := hdict
  rfl

-- The name that is taken for a command between two texts. Each character of the first that counts twice moves it on
-- by one, each of the command itself makes it longer.
def reading (before command after : List Char) : String :=
  .ofList ((((command ++ after).drop (surplus before + 1)).take (command.length - 1 + surplus command)).takeWhile
    (· != '@'))

def readings : List Char → List Piece → List String
  | _, [] => []
  | before, .plain s :: ps => readings (before ++ s) ps
  | before, .command name bot :: ps =>
      reading before (Piece.command name bot).text (written ps) ::
        readings (before ++ (Piece.command name bot).text) ps

-- No character before a command counts twice, nor does one of a name that no bot follows.
def Narrow : List Char → List Piece → Prop
  | _, [] => True
  | before, .plain s :: ps => Narrow (before ++ s) ps
  | before, .command name bot :: ps =>
      surplus before = 0 ∧ (bot = none → surplus name = 0) ∧ Narrow (before ++ (Piece.command name bot).text) ps

theorem commandName_eq {m e : Entries} {before command after : List Char}
    (htext : m.getText? "text" = some (.str (.ofList (before ++ (command ++ after)))))
    (hoffset : e.getText? "offset" = some (.int (unitLength before)))
    (hlength : e.getText? "length" = some (.int (unitLength command))) (hcommand : command ≠ []) :
    commandName (.dict m) (.dict e) = .ok (reading before command after) := by
  have hpos : 0 < command.length := List.length_pos_iff.2 hcommand
  have hspan : Value.span (before ++ (command ++ after)) (unitLength before + 1 : Int)
      (unitLength before + unitLength command : Int) =
        ((command ++ after).drop (surplus before + 1)).take (command.length - 1 + surplus command) := by
    have hstart : unitLength before + 1 = before.length + (surplus before + 1) := by
      rw [Text.unitLength_eq]
      omega
    have hstop : unitLength before + unitLength command - (unitLength before + 1) =
        command.length - 1 + surplus command := by
      rw [Text.unitLength_eq command]
      omega
    have hcast := Value.span_natCast (before ++ (command ++ after)) (unitLength before + 1)
      (unitLength before + unitLength command)
    rw [hstop, hstart, List.drop_length_add_append, ← hstart] at hcast
    exact_mod_cast hcast
  simp only [commandName, Value.required, hoffset, hlength, htext, Offset.of, Value.integer?, Offset.add, Offset.toInt,
    Value.part, bind, Except.bind, pure, Except.pure, Option.getD_some, String.toList_ofList, hspan]
  rfl

theorem mapM_commandName {m : Entries} {ps : List Piece} {marks : List Value} {before : List Char}
    (h : Marks (unitLength before) ps marks) (htext : m.getText? "text" = some (.str (.ofList (before ++ written ps)))) :
    (marks.filter marksCommand).mapM (commandName (.dict m)) = .ok (readings before ps) := by
  generalize hstart : unitLength before = start at h
  -- What the walk has passed stands in `before`: its length in units is where the next mark begins.
  induction h generalizing before with
  | done => rfl
  | other htype _ ih =>
      rw [List.filter_cons_of_neg (fun h => htype (marksCommand_eq_true.1 h))]
      exact ih htext hstart
  | plain s _ ih =>
      refine @ih (before ++ s) ?_ (by rw [Text.unitLength_append, hstart])
      rwa [List.append_assoc]
  | @command start ps marks e name bot htype hoffset hlength _ ih =>
      subst hstart
      have hread := commandName_eq htext hoffset hlength nofun
      have hrest := @ih (before ++ (Piece.command name bot).text) (by rwa [List.append_assoc])
        (Text.unitLength_append _ _)
      rw [List.filter_cons_of_pos (marksCommand_eq_true.2 htype), List.mapM_cons, hread, hrest]
      rfl

theorem reading_eq {before name after : List Char} {bot : Option (List Char)} (hname : '@' ∉ name)
    (hbefore : surplus before = 0) (hbot : bot = none → surplus name = 0) :
    reading before (Piece.command name bot).text after = .ofList name := by
  have hkept : ∀ c ∈ name, (c != '@') = true := fun c hc => bne_iff_ne.2 fun h => hname (h ▸ hc)
  have hcommand : surplus (Piece.command name bot).text = surplus name + surplus (tag bot) := by
    rw [Piece.text, surplus, List.countP_cons_of_neg (by decide), List.countP_append]
    rfl
  rw [reading, hcommand, hbefore, Piece.text, List.cons_append, List.drop_succ_cons, List.drop_zero, List.length_cons,
    Nat.add_sub_cancel, List.append_assoc, List.length_append]
  refine congrArg String.ofList ?_
  cases bot with
  | none =>
      have hnone : surplus name + surplus (tag none) = 0 := by
        rw [hbot rfl]
        rfl
      rw [hnone, tag, List.length_nil, Nat.add_zero, List.nil_append, List.take_left]
      exact List.takeWhile_eq_self_iff.2 hkept
  | some bot =>
      have hone : name.length + (tag (some bot)).length + (surplus name + surplus (tag (some bot))) =
          name.length + (bot.length + (surplus name + surplus (tag (some bot))) + 1) := by
        rw [tag, List.length_cons]
        omega
      rw [hone, List.take_length_add_append, tag, List.cons_append, List.take_succ_cons,
        List.takeWhile_append_of_pos hkept, List.takeWhile_cons_of_neg (by decide), List.append_nil]

theorem length_readings (before : List Char) (ps : List Piece) : (readings before ps).length = (names ps).length := by
  induction before, ps using readings.induct with
  | case1 => rfl
  | case2 before s ps ih => exact ih
  | case3 before name bot ps ih => exact congrArg Nat.succ ih

theorem readings_eq {before : List Char} {ps : List Piece} (hnames : ∀ name bot, Piece.command name bot ∈ ps → '@' ∉ name)
    (h : Narrow before ps) : readings before ps = names ps := by
  induction before, ps using readings.induct with
  | case1 => rfl
  | case2 before s ps ih => exact ih (fun name bot hp => hnames name bot (List.mem_cons_of_mem _ hp)) h
  | case3 before name bot ps ih =>
      obtain ⟨hbefore, hbot, hrest⟩ := h
      rw [readings, reading_eq (hnames name bot List.mem_cons_self) hbefore hbot,
        ih (fun name bot hp => hnames name bot (List.mem_cons_of_mem _ hp)) hrest]
      rfl

def told (names : List String) : Option (List String) := if names = [] then none else some names

theorem commandEntities_eq {m : Entries} {ps : List Piece} {marks : List Value} (h : Marks 0 ps marks)
    (hmarks : m.getText? "entities" = some (.list marks) ∨ marks = [] ∧ m.getText? "entities" = none) :
    commandEntities (.dict m) = .ok (marks.filter marksCommand) := by
  rcases hmarks with hmarks | ⟨rfl, hnone⟩
  · simp only [commandEntities, Value.entry, Entries.getText, hmarks, Option.getD_some, bind, Except.bind, Value.truthy]
    cases marks with
    | nil => rfl
    | cons e marks => exact filterM_marks h
  · simp only [commandEntities, Value.entry, Entries.getText, hnone]
    rfl

theorem commands?_eq {m : Entries} {update : Value} {ps : List Piece} (hcarries : Carries m update)
    (hbears : Bears m ps) : commands? update = .ok (told (readings [] ps)) := by
  obtain ⟨marks, hmarks, hentities⟩ := hbears.marks
  have hread : (marks.filter marksCommand).mapM (commandName (.dict m)) = .ok (readings [] ps) :=
    @mapM_commandName m ps marks [] hmarks hbears.text
  simp only [commands?, message_eq hcarries, commandEntities_eq hmarks hentities, bind, Except.bind, Value.isNull]
  cases hcommands : marks.filter marksCommand with
  | nil =>
      rw [hcommands] at hread
      rw [← Except.ok.inj hread]
      rfl
  | cons e es =>
      rw [hcommands] at hread
      have hsome : readings [] ps ≠ [] := by
        intro hnil
        have hlength := (forall₂_of_mapM hread).length_eq
        rw [hnil] at hlength
        cases hlength
      rw [told, if_neg hsome, List.isEmpty_cons, if_neg Bool.false_ne_true, if_neg Bool.false_ne_true, hread]
      rfl

theorem commands_read {m : Entries} {update : Value} {ps : List Piece} (hcarries : Carries m update)
    (hbears : Bears m ps) (hnames : ∀ name bot, Piece.command name bot ∈ ps → '@' ∉ name) :
    commands? update = .ok (told (readings [] ps)) ∧ (readings [] ps).length = (names ps).length ∧
      (Narrow [] ps → commands? update = .ok (told (names ps))) :=
  ⟨commands?_eq hcarries hbears, length_readings [] ps,
    fun h => readings_eq hnames h ▸ commands?_eq hcarries hbears⟩

namespace Greeting

def mark (type : String) (offset length : Int) : Entries :=
  [(.str "type", .str type), (.str "offset", .int offset), (.str "length", .int length)]

def message (text : String) (marks : List Entries) : Entries :=
  [(.str "message_id", .int 7), (.str "date", .int 0),
    (.str "chat", .dict [(.str "id", .int 42), (.str "type", .str "private")]), (.str "text", .str text),
    (.str "entities", .list (marks.map .dict))]

def update (m : Entries) : Value := .dict [(.str "update_id", .int 1), (.str "message", .dict m)]

def passage : List Piece :=
  [.plain "Привет ".toList, .command "start".toList (some "my_bot".toList), .plain " now ".toList,
    .command "help".toList none, .plain " 😀".toList]

def marked : Entries := message "Привет /start@my_bot now /help 😀"
  [mark "bold" 0 6, mark "bot_command" 7 13, mark "italic" 21 3, mark "bot_command" 25 5]

theorem carries (text : String) (marks : List Entries) : Carries (message text marks) (update (message text marks)) :=
  @Carries.direct _ [(.str "update_id", .int 1)] [] "message" (by simp [idKey]) (by decide) (by decide) (by simp [message])

theorem bears : Bears marked passage where
  text := by simp [marked, message, written, passage, Piece.text, tag]
  marks := by
    refine ⟨_, ?_, .inl (by simp [marked, message]; rfl)⟩
    refine .other (by simp [mark]) (.plain _ (.command _ _ (by simp [mark]) ?_ ?_ (.other (by simp [mark]) (.plain _
      (.command _ _ (by simp [mark]) ?_ ?_ (.plain _ (.done _)))))))
    all_goals simp [mark, Piece.text, tag, Text.unitLength]

end Greeting

open Greeting in
theorem greeting_read : Carries marked (update marked) ∧ Bears marked passage ∧
    (∀ name bot, Piece.command name bot ∈ passage → '@' ∉ name) ∧ Narrow [] passage ∧
    commands? (update marked) = .ok (some ["start", "help"]) := by
  have hnames : ∀ name bot, Piece.command name bot ∈ passage → '@' ∉ name := by
    rintro name bot h
    rcases (by simpa [passage] using h : _ ∨ _) with ⟨rfl, -⟩ | ⟨rfl, -⟩ <;> decide
  have hnarrow : Narrow [] passage := by
    simp [passage, Narrow, surplus, Piece.text, tag]
  refine ⟨carries _ _, bears, hnames, hnarrow, ?_⟩
  exact (commands_read (carries _ _) bears hnames).2.2 hnarrow

namespace Smile

def passage : List Piece := [.plain "😀 ".toList, .command "start".toList none]

def marked : Entries := Greeting.message "😀 /start" [Greeting.mark "bot_command" 3 6]

theorem bears : Bears marked passage where
  text := by simp [marked, Greeting.message, written, passage, Piece.text, tag]
  marks := by
    refine ⟨_, ?_, .inl (by simp [marked, Greeting.message]; rfl)⟩
    refine .plain _ (.command _ _ (by simp [Greeting.mark]) ?_ ?_ (.done _))
    all_goals simp [Greeting.mark, Piece.text, tag, Text.unitLength]

end Smile

open Smile in
theorem smile_misread : Carries marked (Greeting.update marked) ∧ Bears marked passage ∧
    (∀ name bot, Piece.command name bot ∈ passage → '@' ∉ name) ∧
    commands? (Greeting.update marked) ≠ .ok (told (names passage)) := by
  have hread : commands? (Greeting.update marked) = .ok (some ["tart"]) :=
    commands?_eq (Greeting.carries _ _) bears
  refine ⟨Greeting.carries _ _, bears, by simp [passage], ?_⟩
  rw [hread]
  exact fun h => absurd (Except.ok.inj h) (by decide)

end Update

end BotApi
