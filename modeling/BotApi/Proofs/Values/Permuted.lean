import BotApi.Proofs.Values.Taken
/-!
Unions with the same options in another order. They take the same values; and unless the options leave open which of
several readings is the best one, they make the same of them.
-/

namespace BotApi

open Compiler (Use AtRest Reply)
open Schema (Passed Records checkDepth)
open TypeExpr (choices choicesList)

namespace Draft.Site

variable {site : Site} {rs : Records} {n : Nat} {d : Draft} {ds : List Draft} {v : Value} {p q r : Passed}

theorem Makes.value_of_prevails (h : site.Makes rs n (unionOf ds) v r) {o : Draft} (ho : o ∈ ds.flatMap options)
    (hp : site.Makes rs n o v p) (hprevails : p.Prevails fun q => ∃ o ∈ ds.flatMap options, site.Makes rs n o v q) :
    r.value = p.value := by
  rcases unionOf_cases ds with hunion | ⟨-, hall⟩
  · rw [hunion] at h
    obtain ⟨schema, hschema, hr⟩ := h
    obtain ⟨schemas, hschemas, rfl⟩ := ok_of_map hschema
    cases n with
    | zero => cases hr
    | succ n =>
        obtain ⟨o', ho', hp⟩ := hp.exists_mem hschemas (mem_distinct.2 ho)
        refine Schema.value_of_union hr ho' hp (hprevails.mono fun q ⟨o, ho, hq⟩ => ?_)
        obtain ⟨d, hd, hmakes⟩ := makes_of_mem (n := n + 1) hschemas ho hq
        exact ⟨d, mem_distinct.1 hd, hmakes⟩
  · rw [← hall o ho] at h
    rw [h.unique hp]

section

variable (complete : ∀ {k r}, site.record? k = some r → r.complete = true) {ds' : List Draft} {schema : Schema}

include complete

theorem gives_iff {whole : Draft} (h : site.build whole = .ok (rs, schema)) (hkeys : ∀ k ∈ d.keys, k ∈ whole.keys) :
    site.Gives d v p ↔ site.Makes rs v.depth d v p := by
  constructor
  · rintro ⟨rs', schema', hbuild, hp⟩
    obtain ⟨-, -, -, hschema⟩ := build_eq_ok hbuild
    obtain ⟨rs₁, hbuild', hsame⟩ := build_part complete h hkeys hschema
    cases hbuild.symm.trans hbuild'
    exact ⟨schema', hschema, by rw [← hsame _ (Nat.le_refl _)]; exact hp⟩
  · rintro ⟨schema', hschema, hp⟩
    obtain ⟨rs', hbuild, hsame⟩ := build_part complete h hkeys hschema
    exact ⟨rs', schema', hbuild, by rw [hsame _ (Nat.le_refl _)]; exact hp⟩

theorem gives_option_iff (h : site.build (unionOf ds) = .ok (rs, schema)) {o : Draft} (ho : o ∈ ds.flatMap options) :
    site.Gives o v p ↔ site.Makes rs v.depth o v p :=
  gives_iff complete h fun _ hk => mem_keys_unionOf.2 ⟨o, ho, hk⟩

theorem Gives.value_of_prevails (h : site.Gives (unionOf ds) v r) {o : Draft} (ho : o ∈ ds.flatMap options)
    (hp : site.Gives o v p) (hprevails : p.Prevails fun q => ∃ o ∈ ds.flatMap options, site.Gives o v q) :
    r.value = p.value := by
  obtain ⟨rs, schema, hbuild, -⟩ := id h
  rw [gives_iff complete hbuild fun _ hk => hk] at h
  refine h.value_of_prevails ho ((gives_option_iff complete hbuild ho).1 hp) (hprevails.mono fun q ⟨o, ho, hq⟩ => ?_)
  exact ⟨o, ho, (gives_option_iff complete hbuild ho).2 hq⟩

end

end Draft.Site

namespace TypeExpr

theorem choicesList_eq (es : List TypeExpr) : choicesList es = es.flatMap choices := by
  induction es with
  | nil => rfl
  | cons e es ih => rw [choicesList, List.flatMap_cons, ih]

variable {es es' : List TypeExpr}

theorem mem_choicesList_of_perm (h : es.Perm es') {e : TypeExpr} : e ∈ choicesList es ↔ e ∈ choicesList es' := by
  rw [choicesList_eq, choicesList_eq]
  exact (h.flatMap_right _).mem_iff

end TypeExpr

namespace Spec

variable {s : Spec} {es es' : List TypeExpr} {v : Value}

-- What one of the options makes of a value is preferred to whatever else is made of it.
def Undisputed (s : Spec) (es : List TypeExpr) (v : Value) : Prop :=
  ∃ e ∈ choicesList es, ∃ p, s.Gives e v p ∧ p.Prevails fun q => ∃ e' ∈ choicesList es, s.Gives e' v q

theorem blueprint_complete {key : Nat} {r : Draft.Record} (hr : s.blueprint.record? key = some r) :
    r.complete = true := by
  rw [Draft.Site.record?, Option.map_eq_some_iff] at hr
  obtain ⟨e, he, rfl⟩ := hr
  obtain ⟨e', -, rfl⟩ := List.mem_map.1 (List.mem_of_find?_eq_some he)
  rfl

theorem Gives.value_eq {e : TypeExpr} {p r : Passed} (h : s.Gives (.union es) v r) (he : e ∈ choicesList es)
    (hp : s.Gives e v p) (hprevails : p.Prevails fun q => ∃ e' ∈ choicesList es, s.Gives e' v q) :
    r.value = p.value := by
  rw [Gives, Draft.ofExpr] at h
  refine h.value_of_prevails blueprint_complete (mem_options_ofExprs.2 ⟨e, he, rfl⟩) hp
    (hprevails.mono fun q ⟨o, ho, hq⟩ => ?_)
  obtain ⟨e', he', rfl⟩ := mem_options_ofExprs.1 ho
  exact ⟨e', he', hq⟩

def Built (s : Spec) (e : TypeExpr) : Prop := ∃ rs schema, s.blueprint.build (.ofExpr s.ideal e) = .ok (rs, schema)

theorem Gives.built {e : TypeExpr} {p : Passed} (h : s.Gives e v p) : s.Built e := by
  obtain ⟨rs, schema, hbuilt, -⟩ := h
  exact ⟨rs, schema, hbuilt⟩

theorem Undisputed.value_eq {p q : Passed} (hes : s.Undisputed es v) (h : es.Perm es') (hp : s.Gives (.union es) v p)
    (hq : s.Gives (.union es') v q) : p.value = q.value := by
  obtain ⟨e, he, w, hw, hprevails⟩ := hes
  rw [hp.value_eq he hw hprevails]
  refine (hq.value_eq ((TypeExpr.mem_choicesList_of_perm h).1 he) hw (hprevails.mono fun r ⟨e', he', hr⟩ => ?_)).symm
  exact ⟨e', (TypeExpr.mem_choicesList_of_perm h).2 he', hr⟩

inductive Answered (s : Spec) (e : TypeExpr) (v : Value) : Except Error Reply → Prop
  | taken {p : Passed} (gives : s.Gives e v p) : Answered s e v (.ok (.value p.value))
  | refused {issues : List Issue} (built : s.Built e) (none : ∀ p, ¬ s.Gives e v p) :
      Answered s e v (.error (.invalid issues))
  | unbuilt {how : Misuse} {text : String} (unbuilt : ¬ s.Built e) : Answered s e v (.error (.misuse how text))

theorem answered (n : Schema.Naming) (e : TypeExpr) (v : Value) :
    s.Answered e v ((Draft.checkBuilt n (s.blueprint.build (.ofExpr s.ideal e)) v).map .value) := by
  cases hbuild : s.blueprint.build (.ofExpr s.ideal e) with
  | error o =>
      have hnot : ¬ s.Built e := fun ⟨rs, schema, hbuilt⟩ => by cases hbuild.symm.trans hbuilt
      cases o <;> exact .unbuilt hnot
  | ok built =>
      obtain ⟨rs, schema⟩ := built
      unfold Draft.checkBuilt Schema.checkNamed
      dsimp only
      cases hcheck : checkDepth rs .values v.depth schema v with
      | ok p => exact .taken ⟨rs, schema, hbuild, hcheck⟩
      | error r =>
          refine .refused ⟨rs, schema, hbuild⟩ fun p ⟨rs', schema', hbuild', hp⟩ => ?_
          cases hbuild.symm.trans hbuild'
          cases hcheck.symm.trans hp

end Spec

namespace Compiler

variable {s : Spec} {c c' : Compiler} {e : TypeExpr}

end Compiler

namespace Spec

variable {s : Spec} {good : String → Prop} {es : List TypeExpr} {e : TypeExpr} {v : Value} {p : Passed}

theorem Gives.step {n : String} (h : s.Gives (.basic n) v p) : ∃ rs descend,
    Schema.step rs .values descend (BasicType.ofName n).schema v = .ok p := by
  obtain ⟨rs, schema, hbuild, hp⟩ := h
  obtain ⟨-, -, -, hschema⟩ := Draft.Site.build_eq_ok hbuild
  obtain ⟨k, hk⟩ := Value.exists_of_depth_le (Nat.le_refl v.depth)
  cases hschema
  rw [hk] at hp
  exact ⟨rs, _, hp⟩

end Spec

def Compiler.Use.takes (u : Use) (c : Compiler) (w : Value) : Bool :=
  match u.answer c with
  | .ok (.value w') => Value.same w' w
  | _ => false

theorem Compiler.Use.answer_of_takes {u : Use} {c : Compiler} {w : Value} (h : u.takes c w = true) :
    u.answer c = .ok (.value w) := by
  unfold Use.takes at h
  split at h
  · rename_i w' hanswer
    rw [hanswer, Value.eq_of_same h]
  · cases h

namespace Verbatim

def options : List TypeExpr := [.ref "b", .basic "Integer", .basic "String"]

theorem good : Nested.spec.Good "b" := Nested.orderly.good (by decide)

theorem gives : Nested.spec.Gives (.basic "String") (.str "7") ⟨.of .exact, .str "7"⟩ := ⟨[], .text, rfl, rfl⟩

end Verbatim

-- A union and its permutation that do not both reject a value, and do not both accept it with the same result.
structure Disagree (s : Spec) (es es' : List TypeExpr) (v : Value) : Prop where
  references : s.checkReferences = .ok ()
  perm : es.Perm es'
  rejected : ¬ ((∃ issues, (Use.checkExpr (.union es) v).answer (.new s) = .error (.invalid issues)) ∧
    ∃ issues, (Use.checkExpr (.union es') v).answer (.new s) = .error (.invalid issues))
  accepted : ∀ w, ¬ ((Use.checkExpr (.union es) v).answer (.new s) = .ok (.value w) ∧
    (Use.checkExpr (.union es') v).answer (.new s) = .ok (.value w))

namespace Disagree

variable {s : Spec} {es es' : List TypeExpr} {v w u : Value} (references : s.checkReferences = .ok ())
  (perm : es.Perm es')

include references perm

theorem of_takes (hne : w ≠ u) (h : (Use.checkExpr (.union es) v).takes (.new s) w = true)
    (h' : (Use.checkExpr (.union es') v).takes (.new s) u = true) : Disagree s es es' v where
  references := references
  perm := perm
  rejected := by
    rintro ⟨⟨issues, hr⟩, -⟩
    cases (Use.answer_of_takes h).symm.trans hr
  accepted := by
    rintro x ⟨hr, hr'⟩
    cases (Use.answer_of_takes h).symm.trans hr
    cases (Use.answer_of_takes h').symm.trans hr'
    exact hne rfl

end Disagree

-- Two types with one name. What a third type refers to by it depends on which of the two is compiled first.
namespace Namesakes

def spec : Spec where
  methods := []
  types := [
    ⟨"a", "A", "", .fields [Nested.param "x" (.ref "c") false]⟩,
    ⟨"b", "A", "", .fields [Nested.param "y" (.basic "Integer") false]⟩,
    ⟨"c", "C", "", .fields [Nested.param "z" (.ref "a") false]⟩]

def value : Value := .dict [(.str "x", .dict [(.str "z", .dict [(.str "y", .int 1)])])]

end Namesakes

def Joined.value : Value := .dict [(.str "y", .dict [(.str "x", .dict [])])]

namespace Spaced

def spec : Spec where
  methods := []
  types := [⟨"a", "A B", "", .fields [Nested.param "x" (.ref "a") false]⟩]

end Spaced

namespace Hidden

def spec : Spec where
  methods := []
  types := [⟨"a", "A", "", .fields [Nested.param "_x" (.basic "Integer") false]⟩]

end Hidden

namespace Cyclic

def spec : Spec where
  methods := []
  types := [
    ⟨"a", "A", "", .fields [Nested.param "x" (.basic "Integer") true]⟩,
    ⟨"s", "S", "", .subtypes ["s", "a"]⟩]

end Cyclic

-- A subtype that is tried in vain counts three fields for the one after it, and with that as many as another type.
namespace Leftover

def number (name : String) : Param := plainParam name (.basic "Integer") false

def spec : Spec where
  methods := []
  types := [
    ⟨"n", "N", "", .fields [number "p", number "q", number "r"]⟩,
    ⟨"a", "A", "", .fields [plainParam "n" (.ref "n") true, plainParam "z" (.basic "Integer") true]⟩,
    ⟨"b", "B", "", .fields [plainParam "n" (.basic "Whatever") true]⟩,
    ⟨"c", "C", "", .fields [plainParam "n" (.ref "n") true]⟩,
    ⟨"s", "S", "", .subtypes ["a", "b"]⟩]

def value : Value := .dict [(.str "n", .dict [(.str "p", .int 1), (.str "q", .int 2), (.str "r", .int 3)])]

end Leftover

-- Two options leave the value as it is. The one of them that counts fields gives way to a record, and the other does
-- not, so it matters which of the two is first.
namespace Detour

def spec : Spec where
  methods := []
  types := [
    ⟨"n", "N", "", .fields [Leftover.number "p"]⟩,
    ⟨"a", "A", "", .fields [plainParam "n" (.ref "n") true, plainParam "z" (.basic "Integer") true]⟩,
    ⟨"w", "W", "", .fields []⟩,
    ⟨"r", "R", "", .fields [plainParam "n" (.basic "Whatever") true, plainParam "x" (.basic "Integer") true]⟩,
    ⟨"s", "S", "", .subtypes ["a", "w"]⟩]

def value : Value := .dict [(.str "n", .dict []), (.str "x", .str "5")]

end Detour

end BotApi
