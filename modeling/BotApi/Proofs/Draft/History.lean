import BotApi.Proofs.Draft.Upkeep
import BotApi.Proofs.Schema.Accepted
import Mathlib.Data.List.Nodup
import Mathlib.Logic.Relation
/-!
Using one compiler again and again. Whatever it was used for before, and however often that failed, it
still knows well-formed types by what they stand for.
-/

namespace BotApi

open Compiler (Inv Path Lasts Fits Mine)
open Work (Gives Keeps)

/-! Well-formed types: what they lead to is known, no supertype among it leads back to itself, and a new
compiler drafts them. These are the types that can be built wherever they are met. -/

namespace Spec

variable (s : Spec)

def Below (id i : String) : Prop := i ∈ s.below id

def Leads : String → String → Prop := Relation.ReflTransGen s.Follows

structure WellFormed (id : String) : Prop where
  entry : ∀ {i}, s.Leads id i → ∃ t key, s.typeEntry? i = some (t, key)
  acyclic : ∀ {i}, s.Leads id i → ¬ Relation.TransGen s.Below i i
  drafted : ∃ d c, (Work.draft id).run (.new s) = (.ok d, c)

def Good (i : String) : Prop := ∃ id, s.WellFormed id ∧ s.Leads id i

variable {s}

theorem follows_of_below {id i : String} (h : s.Below id i) : s.Follows id i := by
  obtain ⟨t, key, ids, he, hn, hs, hi⟩ := exists_of_mem_below h
  exact .subtype he hn hs hi

-- Without cycles, supertypes are nested no deeper than there are types.
theorem settles_of_acyclic {id : String} {path : List String} (n : Nat) (hpath : Path s path)
    (hfuel : n + path.length = s.types.length + 1)
    (habove : ∀ i ∈ path, Relation.TransGen s.Below i id)
    (hacyclic : ∀ {i}, s.Leads id i → ¬ Relation.TransGen s.Below i i) : s.settles n id = true := by
  induction n generalizing id path with
  | zero =>
      have hle := hpath.length_le
      omega
  | succ n ih =>
      rw [settles, List.all_eq_true]
      intro i hi
      obtain ⟨t, key, ids, he, -⟩ := exists_of_mem_below hi
      have hnew : path.contains id = false := by
        by_contra h
        exact hacyclic .refl (habove id (by simpa using h))
      refine ih (hpath.cons he hnew) (by simp only [List.length_cons]; omega) (fun j hj => ?_)
        fun hj => hacyclic (.head (follows_of_below hi) hj)
      rcases List.mem_cons.1 hj with rfl | hj
      · exact .single hi
      · exact (habove j hj).tail hi

theorem Named.sound (named : s.Named) {good : String → Prop}
    (hentry : ∀ {i}, good i → ∃ t key, s.typeEntry? i = some (t, key))
    (hacyclic : ∀ {i}, good i → ¬ Relation.TransGen s.Below i i)
    (hclosed : ∀ {i j}, good i → s.Follows i j → good j) : s.Sound good where
  entry := hentry
  identifier _ he := Draft.Name.isIdentifier_of_isFree (named.free _ (typeEntry?_mem he))
  bearer _ he u hu hname := List.inj_on_of_nodup_map named.names hu (typeEntry?_mem he) hname
  settles {i} hg := by
    refine ⟨_, settles_of_acyclic (s.types.length + 1) ⟨.nil, by simp⟩ rfl (by simp) ?_⟩
    intro j hj
    refine hacyclic ?_
    induction hj with
    | refl => exact hg
    | tail _ h ih => exact hclosed ih h
  closed := hclosed

namespace WellFormed

variable {id : String}

theorem sound (h : s.WellFormed id) (named : s.Named) : s.Sound (s.Leads id) :=
  named.sound h.entry h.acyclic .tail

theorem leads_stored {c : Compiler} (inv : Inv s (s.Leads id) [] c) (hid : c.Stored id) {i : String}
    (hi : s.Leads id i) : c.Stored i := by
  induction hi with
  | refl => exact hid
  | tail hj hi ih => exact Compiler.Known.stored (inv.refs hj ih hi)

theorem builds (h : s.WellFormed id) (named : s.Named) : s.Builds (s.Leads id) := by
  obtain ⟨d, c, hrun⟩ := h.drafted
  have inv₀ : Inv s (s.Leads id) [] (.new s) := .of_new
  have hgives := Compiler.draft_gives inv₀ (h.sound named) .refl
    (.inr (Compiler.Clear.mine ⟨rfl, rfl⟩))
  unfold Gives at hgives
  rw [hrun] at hgives
  obtain ⟨inv, hrests, hstored⟩ := hgives
  have hid : c.Stored id := Compiler.stored_of_draft? hstored
  have hclear : c.Clear := hrests.clear ⟨rfl, rfl⟩
  have hawaits : c.Awaits := hrests.awaits fun ⟨_, hr, _⟩ => by cases hr
  refine ⟨fun hi => inv.formed hi (leads_stored inv hid hi), fun {k} hk => ?_⟩
  obtain ⟨i, t, ps, hi, hr⟩ := hk
  obtain ⟨r, hrecord⟩ := Option.isSome_iff_exists.1 (inv.held hi hr (leads_stored inv hid hi))
  cases hdone : r.complete with
  | true => exact ((inv.record hi hr hrecord).complete hdone).2
  | false =>
      have hmem := hawaits ⟨r, hrecord, hdone⟩
      rw [hclear.1] at hmem
      cases hmem

theorem good (h : s.WellFormed id) : s.Good id := ⟨id, h, .refl⟩

end WellFormed

theorem sound_good (named : s.Named) : s.Sound s.Good :=
  named.sound (fun ⟨_, h, hi⟩ => h.entry hi) (fun ⟨_, h, hi⟩ => h.acyclic hi)
    fun ⟨id, h, hi⟩ hj => ⟨id, h, .tail hi hj⟩

theorem builds_good (named : s.Named) : s.Builds s.Good where
  formed := fun ⟨_, h, hi⟩ => (h.builds named).formed hi
  records := fun ⟨i, t, ps, ⟨_, h, hi⟩, hr⟩ => (h.builds named).records ⟨i, t, ps, hi, hr⟩

end Spec

/-! Uses of a compiler -/

theorem Draft.checkBuilt_eq_ok {names : Schema.Naming} {built : Except Draft.Obstacle (Schema.Records × Schema)}
    {v w : Value} : Draft.checkBuilt names built v = .ok w ↔ ∃ rs schema p, built = .ok (rs, schema) ∧
      Schema.checkDepth rs .values v.depth schema v = .ok p ∧ p.value = w := by
  rcases built with o | ⟨rs, schema⟩
  · simp [Draft.checkBuilt]
  · have hmap : Draft.checkBuilt names (.ok (rs, schema)) v = .ok w ↔
        Schema.checkNamed names rs .values schema v = .ok w := by
      rw [Draft.checkBuilt]
      cases Schema.checkNamed names rs .values schema v <;> simp [Except.mapError]
    rw [hmap, Schema.checkNamed_eq_ok]
    simp

-- The same outcome, but for the names that the places of issues give to the options of unions.
inductive SameFindings {α : Type} : Except Error α → Except Error α → Prop
  | same (r : Except Error α) : SameFindings r r
  | named (rs : Schema.Records) (n n' : Schema.Naming) (found : List Schema.Finding) :
      SameFindings (.error (.invalid (found.map (n.issue rs)))) (.error (.invalid (found.map (n'.issue rs))))

namespace SameFindings

variable {α β : Type} {r r' : Except Error α}

theorem map (h : SameFindings r r') (f : α → β) : SameFindings (r.map f) (r'.map f) := by
  cases h with
  | same => exact .same _
  | named rs n n' found => exact .named rs n n' found

theorem checkBuilt (n n' : Schema.Naming) (built : Except Draft.Obstacle (Schema.Records × Schema)) (v : Value) :
    SameFindings (Draft.checkBuilt n built v) (Draft.checkBuilt n' built v) := by
  unfold Draft.checkBuilt Schema.checkNamed
  rcases built with o | ⟨rs, s⟩
  · exact .same _
  · dsimp only
    cases Schema.checkDepth rs .values v.depth s v with
    | ok p => exact .same _
    | error refused => exact .named rs n n' refused.findings

end SameFindings

namespace Compiler

inductive Use where
  | draft (id : String)
  | check (id : String) (v : Value)
  | checkExpr (e : TypeExpr) (v : Value)
  | record (m : Method)
  | params (m : Method) (params : Value)
  | everything

inductive Reply where
  | done
  | value (v : Value)
  | record (r : Draft.Record)
  | params (es : Entries)

namespace Use

def work : Use → Work Reply
  | draft id => do
      let _ ← Work.draft id
      pure .done
  | check id v => do pure (.value (← Work.validate id v))
  | checkExpr e v => do pure (.value (← Work.validateExpr e v))
  | record m => do pure (.record (← Work.paramsRecord m))
  | params m ps => do pure (.params (← Work.validateParams m ps))
  | everything => do
      Work.everything
      pure .done

def answer (u : Use) (c : Compiler) : Except Error Reply := (u.work.run c).1

def drafted : Use → Option (Work Draft)
  | check id _ => some (Work.draft id)
  | checkExpr e _ => some (Work.expression e)
  | _ => none

def Blocked (u : Use) (c : Compiler) : Prop :=
  ∃ w d, u.drafted = some w ∧ (w.run c).1 = .ok d ∧ d.keepsName = true

def blocked (u : Use) (c : Compiler) : Bool :=
  match u.drafted with
  | some w => match (w.run c).1 with
      | .ok d => d.keepsName
      | .error _ => false
  | none => false

theorem blocked_eq_true {u : Use} {c : Compiler} : u.blocked c = true ↔ u.Blocked c := by
  unfold blocked Blocked
  cases hw : u.drafted with
  | none => simp
  | some w => cases hd : (w.run c).1 <;> simp [hd]

instance (u : Use) (c : Compiler) : Decidable (u.Blocked c) :=
  decidable_of_iff (u.blocked c = true) blocked_eq_true

end Use

def after (c : Compiler) (us : List Use) : Compiler := us.foldl (fun c u => (u.work.run c).2) c

end Compiler

open Compiler (Use)

namespace Compiler

variable {s : Spec} {P : Compiler → Prop}

def Use.Concerns (s : Spec) : Use → Method → Prop
  | record m, m' | params m _, m' => m' = m
  | everything, m' => m' ∈ s.methods
  | draft _, _ | check _ _, _ | checkExpr _ _, _ => False

theorem Use.keeps (hspec : ∀ c, P c → c.spec = s) (hdraft : ∀ i, Keeps P (Work.draft i)) {u : Use}
    (hrecord : ∀ m, u.Concerns s m → Keeps P (Work.paramsRecord m)) : Keeps P u.work := by
  cases u with
  | draft id => exact (hdraft id).bind fun _ => .pure _
  | check id v => exact .bind ((hdraft id).bind fun d => check_keeps d v) fun _ => .pure _
  | checkExpr e v => exact .bind ((Keeps.ofExpr hdraft e).bind fun d => check_keeps d v) fun _ => .pure _
  | record m => exact (hrecord m rfl).bind fun _ => .pure _
  | params m ps => exact (validateParams_keeps_of (hrecord m rfl) ps).bind fun _ => .pure _
  | everything =>
      refine Keeps.bind ?_ fun _ => .pure _
      refine Keeps.get.bind fun c => ?_
      refine Keeps.bind (.forM _ fun t _ => (hdraft t.id).bind fun _ => .pure _) fun _ => ?_
      refine .get_bind fun c hc => .forM _ fun m hm => ?_
      rw [hspec c hc] at hm
      exact (hrecord m hm).bind fun _ => .pure _

theorem after_keeps {us : List Use} (hus : ∀ u ∈ us, Keeps P u.work) {c : Compiler} (h : P c) : P (c.after us) := by
  induction us generalizing c with
  | nil => exact h
  | cons u us ih => exact ih (fun u hu => hus u (List.mem_cons_of_mem _ hu)) (hus u List.mem_cons_self c h)

end Compiler

namespace Spec

variable {s : Spec} {good : String → Prop} {c₀ c : Compiler}

end Spec

namespace Compiler

variable {s : Spec} {good : String → Prop} {c c' : Compiler} {d ideal : Draft} {v : Value}

theorem run_check (d : Draft) (v : Value) (c : Compiler) : (Work.check d v).run c = (c.check d v, c) := by
  rw [Work.check, Work.run_get, Work.run_ofExcept]

theorem check_of_keepsName (h : d.keepsName = true) (v : Value) (c : Compiler) :
    ∃ how text, c.check d v = .error (.misuse how text) := by
  obtain ⟨o, ho⟩ : ∃ o, c.site.build d = .error o := Draft.Site.build_error_of_keepsName h
  rw [check, ho]
  cases o <;> exact ⟨_, _, rfl⟩

theorem Inv.build_eq (inv : Inv s good [] c) (sound : s.Sound good)
    (hd : Fits s good [] c d ideal) (h : d.keepsName = false) :
    c.site.build d = s.blueprint.build ideal := by
  have hbuild := (inv.mirrors sound).build (d := d) fun k hk => hd.keys (Draft.mem_keys.1 hk)
  rw [hd.eq_of_keepsName h] at hbuild ⊢
  exact hbuild.decided

theorem run_of_gives {α : Type} {F : Prop} {w : Work α} {Q : α → Compiler → Prop}
    (h : Gives F w c Q) (hfails : ¬ F) : ∃ a c', w.run c = (.ok a, c') ∧ Q a c' := by
  unfold Gives at h
  rcases hrun : w.run c with ⟨e | a, c'⟩
  · rw [hrun] at h
    exact absurd h hfails
  · rw [hrun] at h
    exact ⟨a, c', rfl, h⟩

structure Founded (s : Spec) (good : String → Prop) (w : Work Draft) (ideal : Draft)
    (c : Compiler) : Prop where
  run : ∃ d c', w.run c = (.ok d, c') ∧ Inv s good [] c' ∧ Fits s good [] c' d ideal

namespace Use

variable {u : Use} {w : Work Draft}

theorem work_of_drafted (h : u.drafted = some w) :
    ∃ v, u.work = (do pure (.value (← (do Work.check (← w) v)))) := by
  cases u with
  | check id v =>
      obtain rfl := Option.some.inj h
      exact ⟨v, rfl⟩
  | checkExpr e v =>
      obtain rfl := Option.some.inj h
      exact ⟨v, rfl⟩
  | _ => cases h

theorem answer_of_work {v : Value} {d : Draft} (hwork : u.work = (do pure (.value (← (do Work.check (← w) v)))))
    (hrun : w.run c = (.ok d, c')) : u.answer c = (c'.check d v).map .value := by
  rw [answer, hwork, Work.run_bind, Work.run_bind, hrun]
  dsimp only
  rw [run_check]
  cases c'.check d v <;> rfl

theorem answer_of_drafted (h : u.drafted = some w) : ∃ v, ∀ {c c' : Compiler} {d : Draft},
    w.run c = (.ok d, c') → u.answer c = (c'.check d v).map .value := by
  obtain ⟨v, hwork⟩ := work_of_drafted h
  exact ⟨v, answer_of_work hwork⟩

theorem blocked_iff (h : u.drafted = some w) (hrun : w.run c = (.ok d, c')) :
    u.Blocked c ↔ d.keepsName = true := by
  constructor
  · rintro ⟨w', d', hw', hd', hkeeps⟩
    obtain rfl := Option.some.inj (h.symm.trans hw')
    rw [hrun] at hd'
    cases hd'
    exact hkeeps
  · exact fun hkeeps => ⟨w, d, h, by rw [hrun], hkeeps⟩

theorem not_blocked (h : u.drafted = some w) (hrun : w.run c = (.ok d, c'))
    (hnames : ∀ n, .named n ∉ d.leaves) : ¬ u.Blocked c := by
  rw [blocked_iff h hrun, Draft.keepsName_eq_false.2 hnames]
  decide

-- Checking gives the same answers in two states, unless a name is left in a draft; and then it is
-- of no use at all.
theorem answers (h : u.drafted = some w) (sound : s.Sound good) {c₁ : Compiler}
    (hc : Founded s good w ideal c) (hc₁ : Founded s good w ideal c₁) :
    (¬ u.Blocked c → ¬ u.Blocked c₁ → SameFindings (u.answer c) (u.answer c₁)) ∧
      (u.Blocked c → ∃ how text, u.answer c = .error (.misuse how text)) := by
  obtain ⟨v, hanswer⟩ := answer_of_drafted h
  obtain ⟨d, c', hrun, inv, hfits⟩ := hc.run
  obtain ⟨d₁, c₁', hrun₁, inv₁, hfits₁⟩ := hc₁.run
  rw [blocked_iff h hrun, blocked_iff h hrun₁, hanswer hrun, hanswer hrun₁]
  constructor
  · intro hnone hnone₁
    rw [Compiler.check, Compiler.check, inv.build_eq sound hfits (by simpa using hnone),
      inv₁.build_eq sound hfits₁ (by simpa using hnone₁)]
    exact (SameFindings.checkBuilt _ _ _ v).map _
  · intro hkeeps
    obtain ⟨how, text, hmisuse⟩ := check_of_keepsName hkeeps v c'
    exact ⟨how, text, by rw [hmisuse]; rfl⟩

end Use

theorem founded_draft (inv : Inv s good [] c) (sound : s.Sound good) (builds : s.Builds good)
    {id : String} (hg : good id) (h : c.Stored id ∨ Mine s good c) :
    Founded s good (Work.draft id) (s.ideal id) c := by
  obtain ⟨d, c', hrun, inv', -, hstored⟩ :=
    run_of_gives (draft_gives inv sound hg h) (not_not_intro builds)
  exact ⟨d, c', hrun, inv', inv'.stored hg hstored⟩

end Compiler

end BotApi
