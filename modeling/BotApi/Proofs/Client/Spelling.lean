import BotApi.Proofs.Client.Outcome
import BotApi.Proofs.Values.Entries
import Mathlib.Data.List.Forall2
/-!
Dashes and underscores in keys. Values that differ in nothing else have one normal form, in which no entry is lost, and
calls do not tell them apart.
-/

namespace BotApi

namespace Text

-- Some of the underscores of a text have become dashes.
def Dashed (s t : List Char) : Prop := List.Forall₂ (fun c d => d = c ∨ c = '_' ∧ d = '-') s t

instance (s t : List Char) : Decidable (Dashed s t) := inferInstanceAs (Decidable (List.Forall₂ _ s t))

theorem Dashed.replaceChar_eq {s t : List Char} (h : Dashed s t) : replaceChar '-' '_' s = replaceChar '-' '_' t := by
  induction h with
  | nil => rfl
  | @cons c d s t hcd _ ih =>
      rw [replaceChar, replaceChar, List.map_cons, List.map_cons, ← replaceChar, ← replaceChar, ih]
      rcases hcd with rfl | ⟨rfl, rfl⟩ <;> rfl

theorem replaceChar_replaceChar (s : List Char) :
    replaceChar '-' '_' (replaceChar '-' '_' s) = replaceChar '-' '_' s := by
  rw [replaceChar, replaceChar, List.map_map]
  refine List.map_congr_left fun c _ => ?_
  by_cases hc : c = '-' <;> simp [hc]

end Text

namespace Entries

variable {es ps : Entries}

def Apart (es : Entries) : Prop := es.Pairwise fun e f => e.1.equal f.1 = false

theorem foldl_put (h : Apart (es ++ ps)) : ps.foldl (fun es (k, v) => put es k v) es = es ++ ps := by
  induction ps generalizing es with
  | nil => simp
  | cons p ps ih =>
      obtain ⟨k, v⟩ := p
      have hput : put es k v = es ++ [(k, v)] :=
        put_of_apart v fun e he => (List.pairwise_append.1 h).2.2 e he _ List.mem_cons_self
      rw [List.foldl_cons]
      dsimp only
      rw [hput, ih (by simpa using h), List.append_assoc, List.singleton_append]

theorem ofPairs_of_apart (h : Apart ps) : ofPairs ps = ps := @foldl_put [] ps h

theorem apart_put (h : Apart es) (k v : Value) : Apart (es.put k v) := by
  induction es with
  | nil => exact List.pairwise_singleton _ _
  | cons e es ih =>
      obtain ⟨l, w⟩ := e
      obtain ⟨hl, hes⟩ := List.pairwise_cons.1 h
      rw [put]
      split
      next => exact List.pairwise_cons.2 ⟨hl, hes⟩
      next hk =>
        refine List.pairwise_cons.2 ⟨fun f hf => ?_, ih hes⟩
        rcases exists_of_mem_put hf with hkey | ⟨w', hw'⟩
        · rw [hkey]
          exact Bool.eq_false_iff.2 hk
        · exact hl (f.1, w') hw'

theorem forall_put {P Q : Value → Prop} {k v : Value} (h : ∀ e ∈ es, P e.1 ∧ Q e.2) (hk : P k) (hv : Q v) :
    ∀ e ∈ es.put k v, P e.1 ∧ Q e.2 := by
  induction es with
  | nil => simpa [put] using ⟨hk, hv⟩
  | cons e es ih =>
      obtain ⟨hl, hes⟩ := List.forall_mem_cons.1 h
      rw [put]
      split
      · exact List.forall_mem_cons.2 ⟨⟨hl.1, hv⟩, hes⟩
      · exact List.forall_mem_cons.2 ⟨hl, ih hes⟩

theorem ofPairs_induction {P : Entries → Prop} (hnil : P []) (hput : ∀ es, P es → ∀ p ∈ ps, P (es.put p.1 p.2)) :
    P (ofPairs ps) := by
  suffices hfold : ∀ es, P es → P (ps.foldl (fun es (k, v) => es.put k v) es) from hfold [] hnil
  clear hnil
  induction ps with
  | nil => exact fun es hes => hes
  | cons p ps ih =>
      intro es hes
      exact ih (fun es hes q hq => hput es hes q (List.mem_cons_of_mem _ hq)) _ (hput es hes p List.mem_cons_self)

theorem apart_ofPairs (ps : Entries) : Apart (ofPairs ps) :=
  ofPairs_induction List.Pairwise.nil fun _ hes p _ => apart_put hes p.1 p.2

theorem forall_ofPairs {P Q : Value → Prop} (h : ∀ p ∈ ps, P p.1 ∧ Q p.2) : ∀ e ∈ ofPairs ps, P e.1 ∧ Q e.2 :=
  ofPairs_induction (P := fun es => ∀ e ∈ es, P e.1 ∧ Q e.2) nofun fun _ hes p hp =>
    forall_put hes (h p hp).1 (h p hp).2

end Entries

namespace Value

inductive KeyDashed : Value → Value → Prop
  | same (k : Value) : KeyDashed k k
  | dashed {s t : String} (h : Text.Dashed s.toList t.toList) : KeyDashed (.str s) (.str t)

def KeyUnderscored (k l : Value) : Prop := l = underscoredKey k

mutual
-- The second value has the entries, items and leaves of the first, in their order and each under a key that goes with
-- its own. A tuple may have become a list.
def Matches (keys : Value → Value → Prop) : Value → Value → Prop
  | dict es, w => ∃ fs, w = dict fs ∧ EntriesMatch keys es fs
  | list xs, w => ∃ ys, w = list ys ∧ ItemsMatch keys xs ys
  | tuple xs, w => ∃ ys, (w = tuple ys ∨ w = list ys) ∧ ItemsMatch keys xs ys
  | v, w => w = v
def EntriesMatch (keys : Value → Value → Prop) : List (Value × Value) → List (Value × Value) → Prop
  | [], fs => fs = []
  | (k, v) :: es, fs => ∃ l w gs, fs = (l, w) :: gs ∧ keys k l ∧ Matches keys v w ∧ EntriesMatch keys es gs
def ItemsMatch (keys : Value → Value → Prop) : List Value → List Value → Prop
  | [], ys => ys = []
  | x :: xs, ys => ∃ y zs, ys = y :: zs ∧ Matches keys x y ∧ ItemsMatch keys xs zs
end

mutual
def Apart : Value → Prop
  | dict es => (es.map fun e => underscoredKey e.1).Pairwise (fun k l => k.equal l = false) ∧ EntriesApart es
  | list xs | tuple xs => ItemsApart xs
  | _ => True
def EntriesApart : List (Value × Value) → Prop
  | [] => True
  | (_, v) :: es => v.Apart ∧ EntriesApart es
def ItemsApart : List Value → Prop
  | [] => True
  | x :: xs => x.Apart ∧ ItemsApart xs
end

theorem KeyDashed.underscoredKey_eq {k l : Value} (h : KeyDashed k l) : underscoredKey k = underscoredKey l := by
  cases h with
  | same => rfl
  | dashed h => rw [underscoredKey, underscoredKey, Text.onChars, Text.onChars, h.replaceChar_eq]

theorem underscoredKey_underscoredKey (k : Value) : underscoredKey (underscoredKey k) = underscoredKey k := by
  cases k with
  | str s =>
      simp only [underscoredKey, Text.onChars, String.toList_ofList]
      rw [Text.replaceChar_replaceChar]
  | _ => rfl

theorem keys_entriesWithUnderscores (es : Entries) :
    (entriesWithUnderscores es).map (·.1) = es.map fun e => underscoredKey e.1 := by
  induction es with
  | nil => rfl
  | cons e es ih => rw [entriesWithUnderscores, List.map_cons, List.map_cons, ih]

theorem ofPairs_entriesWithUnderscores {es : Entries} (h : (dict es).Apart) :
    Entries.ofPairs (entriesWithUnderscores es) = entriesWithUnderscores es := by
  refine Entries.ofPairs_of_apart ?_
  have hkeys := h.1
  rw [← keys_entriesWithUnderscores, List.pairwise_map] at hkeys
  exact hkeys

mutual
theorem matches_withUnderscores : ∀ {v : Value}, v.Apart → v.Matches KeyUnderscored v.withUnderscores
  | .dict es, h => ⟨_, by rw [withUnderscores, ofPairs_entriesWithUnderscores h], entriesMatch_withUnderscores h.2⟩
  | .list _, h => ⟨_, rfl, itemsMatch_withUnderscores h⟩
  | .tuple _, h => ⟨_, .inr rfl, itemsMatch_withUnderscores h⟩
  | .null, _ | .bool _, _ | .int _, _ | .float _, _ | .str _, _ | .bytes _, _ | .buffer _, _ | .path _, _ | .stream _ _, _
  | .limits _, _ | .byChat _ _, _ | .byChatKind, _ | .record _ _, _ | .moment _ _ _, _ | .spent, _ | .plain, _ => rfl
theorem entriesMatch_withUnderscores : ∀ {es : Entries}, EntriesApart es →
    EntriesMatch KeyUnderscored es (entriesWithUnderscores es)
  | [], _ => rfl
  | (_, _) :: _, h => ⟨_, _, _, rfl, rfl, matches_withUnderscores h.1, entriesMatch_withUnderscores h.2⟩
theorem itemsMatch_withUnderscores : ∀ {xs : List Value}, ItemsApart xs →
    ItemsMatch KeyUnderscored xs (itemsWithUnderscores xs)
  | [], _ => rfl
  | _ :: _, h => ⟨_, _, rfl, matches_withUnderscores h.1, itemsMatch_withUnderscores h.2⟩
end

mutual
theorem withUnderscores_eq : ∀ {v w : Value}, v.Matches KeyDashed w → v.withUnderscores = w.withUnderscores
  | .dict _, _, ⟨_, rfl, h⟩ => by rw [withUnderscores, withUnderscores, entriesWithUnderscores_eq h]
  | .list _, _, ⟨_, rfl, h⟩ => by rw [withUnderscores, withUnderscores, itemsWithUnderscores_eq h]
  | .tuple _, _, ⟨_, .inl rfl, h⟩ | .tuple _, _, ⟨_, .inr rfl, h⟩ => by
      rw [withUnderscores, withUnderscores, itemsWithUnderscores_eq h]
  | .null, _, h | .bool _, _, h | .int _, _, h | .float _, _, h | .str _, _, h | .bytes _, _, h | .buffer _, _, h
  | .path _, _, h | .stream _ _, _, h | .limits _, _, h | .byChat _ _, _, h | .byChatKind, _, h | .record _ _, _, h
  | .moment _ _ _, _, h | .spent, _, h | .plain, _, h => congrArg withUnderscores h.symm
theorem entriesWithUnderscores_eq : ∀ {es fs : Entries}, EntriesMatch KeyDashed es fs →
    entriesWithUnderscores es = entriesWithUnderscores fs
  | [], _, h => congrArg entriesWithUnderscores h.symm
  | (_, _) :: _, _, ⟨_, _, _, rfl, hkey, hvalue, hes⟩ => by
      rw [entriesWithUnderscores, entriesWithUnderscores, hkey.underscoredKey_eq, withUnderscores_eq hvalue,
        entriesWithUnderscores_eq hes]
theorem itemsWithUnderscores_eq : ∀ {xs ys : List Value}, ItemsMatch KeyDashed xs ys →
    itemsWithUnderscores xs = itemsWithUnderscores ys
  | [], _, h => congrArg itemsWithUnderscores h.symm
  | _ :: _, _, ⟨_, _, rfl, hx, hxs⟩ => by
      rw [itemsWithUnderscores, itemsWithUnderscores, withUnderscores_eq hx, itemsWithUnderscores_eq hxs]
end

theorem keys_eq_of_entriesMatch : ∀ {es fs : Entries}, EntriesMatch KeyDashed es fs →
    (es.map fun e => underscoredKey e.1) = fs.map fun e => underscoredKey e.1
  | [], _, h => by rw [h]
  | (_, _) :: _, _, ⟨_, _, _, rfl, hkey, _, hes⟩ => by
      rw [List.map_cons, List.map_cons, hkey.underscoredKey_eq, keys_eq_of_entriesMatch hes]

mutual
theorem Apart.of_matches : ∀ {v w : Value}, v.Matches KeyDashed w → v.Apart → w.Apart
  | .dict _, _, ⟨_, rfl, h⟩, ⟨hkeys, hes⟩ => ⟨keys_eq_of_entriesMatch h ▸ hkeys, entriesApart_of_matches h hes⟩
  | .list _, _, ⟨_, rfl, h⟩, hxs => itemsApart_of_matches h hxs
  | .tuple _, _, ⟨_, .inl rfl, h⟩, hxs | .tuple _, _, ⟨_, .inr rfl, h⟩, hxs => itemsApart_of_matches h hxs
  | .null, _, h, hv | .bool _, _, h, hv | .int _, _, h, hv | .float _, _, h, hv | .str _, _, h, hv | .bytes _, _, h, hv
  | .buffer _, _, h, hv | .path _, _, h, hv | .stream _ _, _, h, hv | .limits _, _, h, hv | .byChat _ _, _, h, hv
  | .byChatKind, _, h, hv | .record _ _, _, h, hv | .moment _ _ _, _, h, hv | .spent, _, h, hv | .plain, _, h, hv =>
      Eq.mpr (congrArg Apart h) hv
theorem entriesApart_of_matches : ∀ {es fs : Entries}, EntriesMatch KeyDashed es fs → EntriesApart es →
    EntriesApart fs
  | [], _, rfl, h => h
  | (_, _) :: _, _, ⟨_, _, _, rfl, _, hvalue, hes⟩, ⟨hv, h⟩ => ⟨hv.of_matches hvalue, entriesApart_of_matches hes h⟩
theorem itemsApart_of_matches : ∀ {xs ys : List Value}, ItemsMatch KeyDashed xs ys → ItemsApart xs → ItemsApart ys
  | [], _, rfl, h => h
  | _ :: _, _, ⟨_, _, rfl, hx, hxs⟩, ⟨hv, h⟩ => ⟨hv.of_matches hx, itemsApart_of_matches hxs h⟩
end

theorem entriesWithUnderscores_eq_self {es : Entries}
    (h : ∀ e ∈ es, underscoredKey e.1 = e.1 ∧ e.2.withUnderscores = e.2) : entriesWithUnderscores es = es := by
  induction es with
  | nil => rfl
  | cons e es ih =>
      obtain ⟨⟨hkey, hvalue⟩, hes⟩ := List.forall_mem_cons.1 h
      rw [entriesWithUnderscores, hkey, hvalue, ih hes]

mutual
theorem withUnderscores_withUnderscores : ∀ v : Value, v.withUnderscores.withUnderscores = v.withUnderscores
  | .dict es => by
      have hsettled := Entries.forall_ofPairs (P := fun k => underscoredKey k = k) (Q := fun v => v.withUnderscores = v)
        (settled_entries es)
      rw [withUnderscores, withUnderscores, entriesWithUnderscores_eq_self hsettled,
        Entries.ofPairs_of_apart (Entries.apart_ofPairs _)]
  | .list xs => by rw [withUnderscores, withUnderscores, settled_items xs]
  | .tuple xs => by rw [withUnderscores, withUnderscores, settled_items xs]
  | .null | .bool _ | .int _ | .float _ | .str _ | .bytes _ | .buffer _ | .path _ | .stream _ _ | .limits _
  | .byChat _ _ | .byChatKind | .record _ _ | .moment _ _ _ | .spent | .plain => rfl
theorem settled_entries : ∀ es : Entries, ∀ e ∈ entriesWithUnderscores es,
    underscoredKey e.1 = e.1 ∧ e.2.withUnderscores = e.2
  | [] => nofun
  | (k, v) :: es => List.forall_mem_cons.2
      ⟨⟨underscoredKey_underscoredKey k, withUnderscores_withUnderscores v⟩, settled_entries es⟩
theorem settled_items : ∀ xs : List Value, itemsWithUnderscores (itemsWithUnderscores xs) = itemsWithUnderscores xs
  | [] => rfl
  | x :: xs => by
      rw [itemsWithUnderscores, itemsWithUnderscores, withUnderscores_withUnderscores x, settled_items xs]
end

end Value

namespace Client

theorem paramsOf_eq {v w : Value} (h : v.withUnderscores = w.withUnderscores)
    (hv : (v = .null ∧ w = .null) ∨ ∃ es fs, v = .dict es ∧ w = .dict fs) : paramsOf v = paramsOf w := by
  rcases hv with ⟨rfl, rfl⟩ | ⟨es, fs, rfl, rfl⟩
  · rfl
  · exact congrArg Except.ok h

theorem call_eq_of_paramsOf (c : Client) (setting : Wire.Setting) (s : ClientState) (o : CallOptions) {v w : Value}
    (h : paramsOf v = paramsOf w) :
    c.call setting s { o with params := v } = c.call setting s { o with params := w } := by
  have hprepare : prepare s { o with params := v } = prepare s { o with params := w } := by
    simp only [prepare, h]
  simp only [call, hprepare]

end Client

theorem spelling_immaterial {v w : Value} (h : v.Matches Value.KeyDashed w) (hv : v.Apart) :
    v.withUnderscores = w.withUnderscores ∧
    v.Matches Value.KeyUnderscored v.withUnderscores ∧ w.Matches Value.KeyUnderscored w.withUnderscores ∧
    v.withUnderscores.withUnderscores = v.withUnderscores ∧
    ∀ (c : Client) (setting : Wire.Setting) (s : ClientState) (o : CallOptions), (v = .null ∨ ∃ es, v = .dict es) →
      c.call setting s { o with params := v } = c.call setting s { o with params := w } := by
  have hsame := Value.withUnderscores_eq h
  refine ⟨hsame, Value.matches_withUnderscores hv, Value.matches_withUnderscores (hv.of_matches h),
    Value.withUnderscores_withUnderscores v, fun c setting s o hparams => ?_⟩
  refine Client.call_eq_of_paramsOf c setting s o (Client.paramsOf_eq hsame ?_)
  rcases hparams with rfl | ⟨es, rfl⟩
  · exact .inl ⟨rfl, h⟩
  · obtain ⟨fs, rfl, -⟩ := h
    exact .inr ⟨es, fs, rfl, rfl⟩

namespace Keyboard

def button (key : String) : Value := .dict [(.str key, .str "a_b")]

def markup (rows data : String) : Value := .dict [(.str rows, .tuple [.list [button data], .list []]), (.int 1, .null)]

def message (chat rows data : String) : Value := .dict [(.str chat, .int 7), (.str "reply_markup", markup rows data)]

theorem respelled : (message "chat_id" "inline_keyboard" "callback_data").Matches Value.KeyDashed
    (message "chat-id" "inline_keyboard" "callback-data") := by
  have hbutton : (button "callback_data").Matches Value.KeyDashed (button "callback-data") :=
    ⟨_, rfl, _, _, _, rfl, .dashed (by decide), rfl, rfl⟩
  have hrows : Value.ItemsMatch Value.KeyDashed [.list [button "callback_data"], .list []]
      [.list [button "callback-data"], .list []] :=
    ⟨_, _, rfl, ⟨_, rfl, _, _, rfl, hbutton, rfl⟩, _, _, rfl, ⟨_, rfl, rfl⟩, rfl⟩
  have hmarkup : (markup "inline_keyboard" "callback_data").Matches Value.KeyDashed
      (markup "inline_keyboard" "callback-data") :=
    ⟨_, rfl, _, _, _, rfl, .same _, ⟨_, .inl rfl, hrows⟩, _, _, _, rfl, .same _, rfl, rfl⟩
  exact ⟨_, rfl, _, _, _, rfl, .dashed (by decide), rfl, _, _, _, rfl, .same _, hmarkup, rfl⟩

theorem apart : (message "chat_id" "inline_keyboard" "callback_data").Apart := by
  have hbutton : (button "callback_data").Apart := ⟨by decide +kernel, trivial, trivial⟩
  have hmarkup : (markup "inline_keyboard" "callback_data").Apart :=
    ⟨by decide +kernel, ⟨⟨hbutton, trivial⟩, trivial, trivial⟩, trivial, trivial⟩
  exact ⟨by decide +kernel, trivial, hmarkup, trivial⟩

end Keyboard

theorem keyboard_spelling :
    (Keyboard.message "chat_id" "inline_keyboard" "callback_data").Apart ∧
    (Keyboard.message "chat-id" "inline_keyboard" "callback-data").withUnderscores =
      (Keyboard.message "chat_id" "inline_keyboard" "callback_data").withUnderscores ∧
    Refused.client.call ⟨[], .empty⟩ Refused.start
        { Refused.options with params := Keyboard.message "chat_id" "inline_keyboard" "callback_data" } =
      Refused.client.call ⟨[], .empty⟩ Refused.start
        { Refused.options with params := Keyboard.message "chat-id" "inline_keyboard" "callback-data" } := by
  obtain ⟨hsame, -, -, -, hcall⟩ := spelling_immaterial Keyboard.respelled Keyboard.apart
  exact ⟨Keyboard.apart, hsame.symm, hcall Refused.client ⟨[], .empty⟩ Refused.start Refused.options (.inr ⟨_, rfl⟩)⟩

end BotApi
