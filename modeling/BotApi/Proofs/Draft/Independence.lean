import BotApi.Proofs.Draft.Parameters
/-!
Work with one outcome, wherever it starts: what fails because of the catalog always fails alike, and the records
of parameters are always the same. So in a catalog whose types all compile, what a compiler was used for before
does not show in its answers, unless a value is checked against a supertype that has supertypes among its subtypes.
-/

namespace BotApi.Compiler

open Work (Gives Keeps)
open TypeExpr (Mentions)

variable {s : Spec} {good : String → Prop} {c : Compiler} {α β : Type}

def Steady (s : Spec) (good : String → Prop) (w : Work α) (r : Except Error α) : Prop :=
  ∀ c, AtRest s good c → ∃ c', w.run c = (r, c') ∧ AtRest s good c'

namespace Steady

variable {w : Work α} {f : α → Work β} {a : α}

theorem pure (a : α) : Steady s good (Pure.pure a : Work α) (.ok a) := fun c h => ⟨c, rfl, h⟩

theorem bind {r : Except Error β} (h : Steady s good w (.ok a)) (hf : Steady s good (f a) r) :
    Steady s good (w >>= f) r := by
  intro c hc
  obtain ⟨c', hrun, hc'⟩ := h c hc
  rw [Work.run_bind, hrun]
  exact hf c' hc'

theorem bind_error {e : Error} (h : Steady s good w (.error e)) :
    Steady s good (w >>= f) (.error e) := by
  intro c hc
  obtain ⟨c', hrun, hc'⟩ := h c hc
  rw [Work.run_bind, hrun]
  exact ⟨c', rfl, hc'⟩

theorem exists_bind (h : ∃ r, Steady s good w r) (hf : ∀ a, ∃ r, Steady s good (f a) r) :
    ∃ r, Steady s good (w >>= f) r := by
  obtain ⟨e | a, h⟩ := h
  · exact ⟨.error e, h.bind_error⟩
  · obtain ⟨r, hr⟩ := hf a
    exact ⟨r, h.bind hr⟩

theorem exists_forM {γ : Type} {f : γ → Work PUnit} {xs : List γ}
    (hf : ∀ x ∈ xs, ∃ r, Steady s good (f x) r) : ∃ r, Steady s good (xs.forM f) r := by
  induction xs with
  | nil => exact ⟨_, .pure _⟩
  | cons x xs ih => exact exists_bind (hf x (by simp)) fun _ => ih fun y hy => hf y (by simp [hy])

theorem keeps {r : Except Error α} (h : Steady s good w r) : Keeps (AtRest s good) w := by
  intro c hc
  obtain ⟨c', hrun, hc'⟩ := h c hc
  rw [hrun]
  exact hc'

end Steady

theorem steady_unknown {id : String} (h : s.typeEntry? id = none) :
    Steady s good (Work.draft id) (.error (.compile (.unknownType id))) := by
  intro c hc
  have hnone : c.draft? id = none := by
    rw [Option.eq_none_iff_forall_ne_some]
    intro d hd
    obtain ⟨t, key, he⟩ := hc.inv.entry (stored_of_draft? hd)
    rw [h] at he
    cases he
  refine ⟨c, ?_, hc⟩
  rw [Work.draft, Work.depth, bind_assoc, Work.run_get, pure_bind, Work.settled, Work.run_get, hnone]
  dsimp only
  rw [Work.depth, bind_assoc, Work.run_get, pure_bind, Work.run_bind, Work.obtain, Work.run_get,
    hnone]
  dsimp only
  rw [hc.inv.spec, h]
  rfl

theorem steady_draft (sound : s.Sound good) (builds : s.Builds good) {id : String} (hg : good id)
    (b : β) : Steady s good (do let _ ← Work.draft id; pure b) (.ok b) := by
  intro c hc
  obtain ⟨d, c', hrun, hc', -⟩ := run_of_gives (draft_rests sound hc hg) (not_not_intro builds)
  rw [Work.run_bind, hrun]
  exact ⟨c', rfl, hc'⟩

mutual
theorem steady_expr (sound : s.Sound good) (builds : s.Builds good) : ∀ {e : TypeExpr} {i : String},
    (∀ j, e.Mentions j → s.typeEntry? j ≠ none → good j) → e.Mentions i → s.typeEntry? i = none →
      ∃ j, Steady s good (Work.expression e) (.error (.compile (.unknownType j)))
  | .ref i, _, _, .ref, h => ⟨_, steady_unknown h⟩
  | .array e, i, hgood, .array hi, h => by
      obtain ⟨unknown, herr⟩ := steady_expr sound builds (fun j hj => hgood j (.array hj)) hi h
      exact ⟨unknown, herr.bind_error⟩
  | .union es, i, hgood, .union he hi, h => by
      obtain ⟨unknown, herr⟩ := steady_exprs sound builds (fun e he j hj => hgood j (.union he hj)) he hi h
      exact ⟨unknown, herr.bind_error⟩
theorem steady_exprs (sound : s.Sound good) (builds : s.Builds good) : ∀ {es : List TypeExpr} {e : TypeExpr}
    {i : String}, (∀ e ∈ es, ∀ j, e.Mentions j → s.typeEntry? j ≠ none → good j) → e ∈ es → e.Mentions i →
      s.typeEntry? i = none → ∃ j, Steady s good (Work.annotations Work.draft es) (.error (.compile (.unknownType j)))
  | e' :: es, e, i, hgood, he, hi, h => by
      rw [List.forall_mem_cons] at hgood
      by_cases hknown : ∀ j, e'.Mentions j → s.typeEntry? j ≠ none
      · have hmem : e ∈ es := by
          rcases List.mem_cons.1 he with rfl | he
          · exact absurd h (hknown i hi)
          · exact he
        obtain ⟨unknown, herr⟩ := steady_exprs sound builds hgood.2 hmem hi h
        refine ⟨unknown, fun c hc => ?_⟩
        obtain ⟨d, c₁, hrun, hc₁, -⟩ := run_of_gives
          (expression_rests sound hc fun j hj => hgood.1 j hj (hknown j hj)) (not_not_intro builds)
        obtain ⟨c₂, hrun₂, hc₂⟩ := herr c₁ hc₁
        rw [Work.expression] at hrun
        refine ⟨c₂, ?_, hc₂⟩
        rw [Work.annotations, Work.run_bind, hrun]
        dsimp only
        rw [Work.run_bind, hrun₂]
      · simp only [not_forall, ne_eq, not_not] at hknown
        obtain ⟨j, hj, hnone⟩ := hknown
        obtain ⟨unknown, herr⟩ := steady_expr sound builds hgood.1 hj hnone
        exact ⟨unknown, herr.bind_error⟩
end

end BotApi.Compiler

namespace BotApi

open Compiler (Use AtRest Steady Founded)
open Work (Keeps)
open TypeExpr (Mentions)

namespace Spec

variable {s : Spec}

-- A catalog whose references are resolved and whose types can each be drafted by a new compiler.
structure Orderly (s : Spec) : Prop extends s.Named where
  references : s.checkReferences = .ok ()
  acyclic : ∀ id, ¬ Relation.TransGen s.Below id id
  drafted : ∀ t ∈ s.types, ∃ d c, (Work.draft t.id).run (.new s) = (.ok d, c)
  methods : (s.methods.map (·.id)).Nodup
  models : ∀ m ∈ s.methods, ∀ t ∈ s.types, t.name ≠ Work.paramsName m

theorem typeEntry?_ne_none {t : ApiType} (ht : t ∈ s.types) : s.typeEntry? t.id ≠ none := by
  obtain ⟨key, hkey⟩ := List.getElem?_of_mem ht
  rw [Ne, ← Option.not_isSome_iff_eq_none, not_not, typeEntry?, List.find?_isSome]
  exact ⟨(t, key), by simpa using List.mem_zipIdx_iff_getElem?.2 hkey, by simp⟩

theorem entry_of_reference (h : s.checkReferences = .ok ()) {r : Reference} (hr : r ∈ s.references) :
    ∃ t key, s.typeEntry? r.id = some (t, key) := by
  have hknown : (s.type? r.id).isSome = true := by
    unfold checkReferences at h
    split at h
    · cases h
    · rename_i hnone
      have hsome := List.find?_eq_none.1 hnone r hr
      simpa [Option.isSome_iff_ne_none] using hsome
  obtain ⟨t, ht, hid⟩ := List.mem_map.1 (Compile.mem_ids_iff.2 hknown)
  obtain ⟨⟨u, k⟩, he⟩ := Option.ne_none_iff_exists'.1 (typeEntry?_ne_none ht)
  rw [hid] at he
  exact ⟨u, k, he⟩

theorem mem_references_of_follows {id i : String} (h : s.Follows id i) :
    ∃ r ∈ s.references, r.id = i := by
  have hmem : ∃ t ∈ s.types, i ∈ t.references := by
    cases h with
    | subtype he hn hs hmem => exact ⟨_, typeEntry?_mem he, by simpa [ApiType.references, hs] using hmem⟩
    | field he hn hs hp ht hmentions =>
        refine ⟨_, typeEntry?_mem he, ?_⟩
        simp only [ApiType.references, hs, List.mem_flatMap]
        exact ⟨_, hp, TypeExpr.mem_refs_iff_mentions.2 hmentions⟩
  obtain ⟨t, ht, hi⟩ := hmem
  refine ⟨⟨i, t.name⟩, ?_, rfl⟩
  simp only [references, List.mem_append, List.mem_flatMap]
  exact .inl ⟨t, ht, List.mem_map_of_mem hi⟩

theorem acyclic_of_depth (depth : String → Nat)
    (h : ∀ t ∈ s.types, ∀ j ∈ t.subtypes?.getD [], depth j < depth t.id) (id : String) :
    ¬ Relation.TransGen s.Below id id := by
  have hstep {i j : String} (hij : s.Below i j) : depth j < depth i := by
    obtain ⟨t, key, ids, he, -, hs, hj⟩ := exists_of_mem_below hij
    rw [← typeEntry?_id he]
    exact h t (typeEntry?_mem he) j (by simpa [ApiType.subtypes?, hs] using hj)
  have hall {i j : String} (hij : Relation.TransGen s.Below i j) : depth j < depth i := by
    induction hij with
    | single hij => exact hstep hij
    | tail _ hij ih => exact Nat.lt_trans (hstep hij) ih
  exact fun hid => Nat.lt_irrefl _ (hall hid)

theorem Takes.good {m : Method} (h : s.Takes s.WellFormed m) : s.Takes s.Good m where
  refs p hp i hi := (h.refs p hp i hi).good
  name := h.name

namespace Orderly

theorem wellFormed (orderly : s.Orderly) {id : String} (hid : s.typeEntry? id ≠ none) : s.WellFormed id where
  entry {i} h := by
    cases h with
    | refl =>
        obtain ⟨⟨t, key⟩, he⟩ := Option.ne_none_iff_exists'.1 hid
        exact ⟨t, key, he⟩
    | tail _ hi =>
        obtain ⟨r, hr, rfl⟩ := mem_references_of_follows hi
        exact entry_of_reference orderly.references hr
  acyclic _ := orderly.acyclic _
  drafted := by
    obtain ⟨⟨t, key⟩, he⟩ := Option.ne_none_iff_exists'.1 hid
    obtain ⟨d, c, hrun⟩ := orderly.drafted t (typeEntry?_mem he)
    exact ⟨d, c, by rw [← typeEntry?_id he]; exact hrun⟩

theorem good (orderly : s.Orderly) {id : String} (hid : s.typeEntry? id ≠ none) : s.Good id :=
  (orderly.wellFormed hid).good

theorem takesWellFormed (orderly : s.Orderly) {m : Method} (hm : m ∈ s.methods) : s.Takes s.WellFormed m where
  refs p hp i hi := by
    have hr : (⟨i, m.name⟩ : Reference) ∈ s.references := by
      simp only [Spec.references, List.mem_append, List.mem_flatMap]
      refine .inr ⟨m, hm, p, hp, ?_⟩
      exact List.mem_map_of_mem (TypeExpr.mem_refs_iff_mentions.2 hi)
    obtain ⟨t, key, he⟩ := entry_of_reference orderly.references hr
    exact orderly.wellFormed (by simp [he])
  name := orderly.models m hm

theorem takes (orderly : s.Orderly) {m : Method} (hm : m ∈ s.methods) : s.Takes s.Good m :=
  (orderly.takesWellFormed hm).good

end Orderly

end Spec

namespace Compiler

variable {s : Spec} {c c₁ : Compiler} {u : Use}

def Use.Within (s : Spec) : Use → Prop
  | .record m => m ∈ s.methods
  | .params m _ => m ∈ s.methods
  | _ => True

def Use.Flat (s : Spec) : Use → Prop
  | .check id _ => ¬ s.Nests id
  | .checkExpr e _ => ∀ i, e.Mentions i → ¬ s.Nests i
  | _ => True

def Use.Formed (s : Spec) : Use → Prop
  | .draft id | .check id _ => s.typeEntry? id ≠ none → s.WellFormed id
  | .checkExpr e _ => ∀ i, e.Mentions i → s.typeEntry? i ≠ none → s.WellFormed i
  | .record m | .params m _ => m ∈ s.methods ∧ s.Takes s.WellFormed m
  | .everything => s.Orderly

theorem Use.Within.formed (hu : u.Within s) (orderly : s.Orderly) : u.Formed s := by
  cases u with
  | draft id | check id v => exact orderly.wellFormed
  | checkExpr e v => exact fun i _ => orderly.wellFormed
  | record m | params m ps => exact ⟨hu, orderly.takesWellFormed hu⟩
  | everything => exact orderly

structure Uniform (s : Spec) (u : Use) : Prop where
  answers : ∀ {c c₁}, AtRest s s.Good c → AtRest s s.Good c₁ → SameFindings (u.answer c) (u.answer c₁)
  keeps : Keeps (AtRest s s.Good) u.work

theorem Steady.uniform {r : Except Error Reply} (h : Steady s s.Good u.work r) : Uniform s u where
  answers {c c₁} hc hc₁ := by
    obtain ⟨c', hrun, -⟩ := h c hc
    obtain ⟨c₁', hrun₁, -⟩ := h c₁ hc₁
    rw [Use.answer, Use.answer, hrun, hrun₁]
    exact .same _
  keeps := h.keeps

theorem uniform_params (named : s.Named) (hids : (s.methods.map (·.id)).Nodup) {m : Method} (hm : m ∈ s.methods)
    (htakes : s.Takes s.Good m) (ps : Value) : Uniform s (.params m ps) := by
  have hrun {c : Compiler} (hc : AtRest s s.Good c) : ∃ n c', AtRest s s.Good c' ∧
      (Use.params m ps).work.run c = ((s.paramsAnswer m n ps).map .params, c') := by
    obtain ⟨n, c', hrun, hc'⟩ :=
      run_validateParams (Spec.sound_good named) (Spec.builds_good named) hids hm htakes hc ps
    refine ⟨n, c', hc', ?_⟩
    rw [Use.work, Work.run_bind, hrun]
    cases s.paramsAnswer m n ps <;> rfl
  refine ⟨fun {c c₁} hc hc₁ => ?_, fun c hc => ?_⟩
  · obtain ⟨n, c', -, h⟩ := hrun hc
    obtain ⟨n₁, c₁', -, h₁⟩ := hrun hc₁
    rw [Use.answer, Use.answer, h, h₁]
    exact (s.paramsAnswer_named m n n₁ ps).map _
  · obtain ⟨n, c', hc', h⟩ := hrun hc
    rwa [h]

theorem steady_paramsRecord (named : s.Named) (hids : (s.methods.map (·.id)).Nodup) {m : Method}
    (hm : m ∈ s.methods) (htakes : s.Takes s.Good m) :
    Steady s s.Good (Work.paramsRecord m) (s.paramsOutcome m) := by
  intro c hc
  obtain ⟨c', hrun, hc', -⟩ :=
    run_paramsRecord (Spec.sound_good named) (Spec.builds_good named) hids hm htakes hc
  exact ⟨c', hrun, hc'⟩

theorem steady_everything (orderly : s.Orderly) : ∃ r, Steady s s.Good Work.everything r := by
  have htypes : ∃ r, Steady s s.Good
      (s.types.forM fun t => do let _ ← Work.draft t.id) r := by
    refine Steady.exists_forM fun t ht => ⟨.ok PUnit.unit, ?_⟩
    refine steady_draft (Spec.sound_good orderly.toNamed) (Spec.builds_good orderly.toNamed)
      (orderly.good ?_) PUnit.unit
    exact Spec.typeEntry?_ne_none ht
  have hmethods (_ : PUnit) : ∃ r, Steady s s.Good (do
      (← MonadState.get).spec.methods.forM fun m => do let _ ← Work.paramsRecord m) r := by
    obtain ⟨r, hr⟩ : ∃ r, Steady s s.Good
        (s.methods.forM fun m => do let _ ← Work.paramsRecord m) r :=
      Steady.exists_forM fun m hm => Steady.exists_bind
        ⟨_, steady_paramsRecord orderly.toNamed orderly.methods hm (orderly.takes hm)⟩ fun _ => ⟨_, .pure _⟩
    refine ⟨r, fun c hc => ?_⟩
    rw [Work.run_get, hc.inv.spec]
    exact hr c hc
  obtain ⟨r, hr⟩ := Steady.exists_bind htypes hmethods
  refine ⟨r, fun c hc => ?_⟩
  rw [Work.everything, Work.run_get, hc.inv.spec]
  exact hr c hc

theorem steady_checkExpr (named : s.Named) {e : TypeExpr} {v : Value} {i : String}
    (hgood : ∀ j, e.Mentions j → s.typeEntry? j ≠ none → s.Good j) (hi : e.Mentions i) (h : s.typeEntry? i = none) :
    ∃ j, Steady s s.Good (Use.checkExpr e v).work (.error (.compile (.unknownType j))) := by
  obtain ⟨j, hj⟩ := steady_expr (Spec.sound_good named) (Spec.builds_good named) hgood hi h
  exact ⟨j, hj.bind_error.bind_error⟩

theorem founded_check (named : s.Named) (hc : AtRest s s.Good c) {id : String} (hg : s.Good id) (v : Value) :
    Founded s s.Good (Work.draft id) (s.ideal id) c ∧ ((Use.check id v).Flat s → ¬ (Use.check id v).Blocked c) := by
  obtain ⟨d, c', hrun, -, -, -, hnames⟩ :=
    run_of_gives (draft_rests (Spec.sound_good named) hc hg) (not_not_intro (Spec.builds_good named))
  exact ⟨founded_draft hc.inv (Spec.sound_good named) (Spec.builds_good named) hg (.inr hc.clear.mine),
    fun hflat => Use.not_blocked rfl hrun fun n hn => hflat (hnames n hn)⟩

theorem founded_expr (named : s.Named) (hc : AtRest s s.Good c) {e : TypeExpr} (hgood : ∀ i, e.Mentions i → s.Good i)
    (v : Value) : Founded s s.Good (Work.expression e) (.ofExpr s.ideal e) c ∧
      ((Use.checkExpr e v).Flat s → ¬ (Use.checkExpr e v).Blocked c) := by
  obtain ⟨d, c', hrun, hc', -, hfits, hnames⟩ :=
    run_of_gives (expression_rests (Spec.sound_good named) hc hgood) (not_not_intro (Spec.builds_good named))
  refine ⟨⟨d, c', hrun, hc'.inv, hfits⟩, fun hflat => Use.not_blocked rfl hrun fun n hn => ?_⟩
  obtain ⟨i, hi, hnests⟩ := hnames n hn
  exact hflat i hi hnests

theorem keeps_checked (named : s.Named) {w : Work Draft}
    (hw : ∀ c, AtRest s s.Good c → Work.Gives (¬ s.Builds s.Good) w c fun _ c' => AtRest s s.Good c') (v : Value) :
    Keeps (AtRest s s.Good) ((w >>= fun d => Work.check d v) >>= fun x => Pure.pure (Reply.value x)) := by
  have hdraft : Keeps (AtRest s s.Good) w := .of_gives (not_not_intro (Spec.builds_good named)) hw
  exact (hdraft.bind fun d => check_keeps d v).bind fun _ => .pure _

theorem Use.Formed.uniform_or_founded (hu : u.Formed s) (named : s.Named) (hids : (s.methods.map (·.id)).Nodup) :
    Uniform s u ∨ ∃ w ideal, u.drafted = some w ∧
      (∀ c, AtRest s s.Good c → Founded s s.Good w ideal c) ∧
      (u.Flat s → ∀ c, AtRest s s.Good c → ¬ u.Blocked c) ∧ Keeps (AtRest s s.Good) u.work := by
  have sound := Spec.sound_good named
  have builds := Spec.builds_good named
  cases u with
  | draft id =>
      left
      by_cases hid : s.typeEntry? id = none
      · exact (steady_unknown hid).bind_error.uniform
      · exact (steady_draft sound builds (hu hid).good _).uniform
  | check id v =>
      by_cases hid : s.typeEntry? id = none
      · exact .inl (steady_unknown hid).bind_error.bind_error.uniform
      · have hg := (hu hid).good
        exact .inr ⟨Work.draft id, s.ideal id, rfl, fun c hc => (founded_check named hc hg v).1,
          fun hflat c hc => (founded_check named hc hg v).2 hflat,
          keeps_checked named (fun c hc => (draft_rests sound hc hg).mono fun _ _ h => h.1) v⟩
  | checkExpr e v =>
      by_cases he : ∃ i, e.Mentions i ∧ s.typeEntry? i = none
      · obtain ⟨i, hi, hnone⟩ := he
        obtain ⟨unknown, hsteady⟩ := steady_checkExpr (v := v) named (fun j hj hne => (hu j hj hne).good) hi hnone
        exact .inl hsteady.uniform
      · have hgood : ∀ i, e.Mentions i → s.Good i := fun i hi =>
          (hu i hi fun hnone => he ⟨i, hi, hnone⟩).good
        exact .inr ⟨Work.expression e, .ofExpr s.ideal e, rfl, fun c hc => (founded_expr named hc hgood v).1,
          fun hflat c hc => (founded_expr named hc hgood v).2 hflat,
          keeps_checked named (fun c hc => (expression_rests sound hc hgood).mono fun _ _ h => h.1) v⟩
  | record m =>
      obtain ⟨r, hr⟩ := Steady.exists_bind ⟨_, steady_paramsRecord named hids hu.1 hu.2.good⟩ fun r =>
        ⟨_, Steady.pure (Reply.record r)⟩
      exact .inl hr.uniform
  | params m ps => exact .inl (uniform_params named hids hu.1 hu.2.good ps)
  | everything =>
      obtain ⟨r, hr⟩ := Steady.exists_bind (steady_everything hu) fun _ =>
        ⟨_, Steady.pure Reply.done⟩
      exact .inl hr.uniform

theorem uniform_or_founded (orderly : s.Orderly) (hu : u.Within s) :
    Uniform s u ∨ ∃ w ideal, u.drafted = some w ∧
      (∀ c, AtRest s s.Good c → Founded s s.Good w ideal c) ∧
      (u.Flat s → ∀ c, AtRest s s.Good c → ¬ u.Blocked c) ∧ Keeps (AtRest s s.Good) u.work :=
  (hu.formed orderly).uniform_or_founded orderly.toNamed orderly.methods

theorem atRest_after_formed (named : s.Named) (hids : (s.methods.map (·.id)).Nodup) {us : List Use}
    (hus : ∀ u ∈ us, u.Formed s) (h : AtRest s s.Good c) : AtRest s s.Good (c.after us) := by
  induction us generalizing c with
  | nil => exact h
  | cons u us ih =>
      refine ih (fun u hu => hus u (by simp [hu])) ?_
      rcases (hus u (by simp)).uniform_or_founded named hids with huniform | ⟨w, ideal, -, -, -, hkeeps⟩
      · exact huniform.keeps c h
      · exact hkeeps c h

theorem atRest_after (orderly : s.Orderly) {us : List Use} (hus : ∀ u ∈ us, u.Within s)
    (h : AtRest s s.Good c) : AtRest s s.Good (c.after us) :=
  atRest_after_formed orderly.toNamed orderly.methods (fun u hu => (hus u hu).formed orderly) h

end Compiler

namespace Nested

def param (name : String) (type : TypeExpr) (required : Bool) : Param :=
  ⟨name, type, required, "", none, false⟩

def spec : Spec where
  methods := []
  types := [
    ⟨"a", "A", "", .fields [param "f" (.ref "s1") false]⟩,
    ⟨"b", "B", "", .fields [param "x" (.basic "Integer") true]⟩,
    ⟨"c", "C", "", .fields [param "y" (.basic "Integer") true]⟩,
    ⟨"s1", "S1", "", .subtypes ["s2", "c"]⟩,
    ⟨"s2", "S2", "", .subtypes ["a", "b"]⟩]

def depth (id : String) : Nat := if id = "s1" then 2 else if id = "s2" then 1 else 0

theorem acyclic (id : String) : ¬ Relation.TransGen spec.Below id id :=
  Spec.acyclic_of_depth depth (by decide) id

theorem orderly : spec.Orderly where
  names := by decide
  free := by decide +kernel
  fields := by decide +kernel
  params := by decide
  references := rfl
  acyclic := acyclic
  drafted t ht := Work.exists_of_isOk <| by
    revert t
    decide +kernel
  methods := by decide
  models := by decide

end Nested

end BotApi
