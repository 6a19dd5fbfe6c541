import BotApi.Proofs.Draft.Faithful
import BotApi.Proofs.Draft.Parameters
import BotApi.Proofs.Draft.Reach
/-!
The records that are built from what is known of a catalog: each has the fields that are documented, and no field
has a schema but that of a draft it offers. Those that the parameters of a method lead to are built from what the
types of the catalog stand for, and none of them is missing.
-/

namespace BotApi

open Draft (Site Origin)
open TypeExpr (Mentions)

namespace Spec

variable {s : Spec} {m : Method} {site : Site}

inductive Documents (s : Spec) (m : Method) : Nat → (String → Bool) → List Param → Prop
  | type {id : String} {t : ApiType} {key : Nat} {ps : List Param} (record : s.RecordOf id t key ps) :
      Documents s m key (s.tellsApart id) ps
  | params : Documents s m s.types.length (fun _ => false) m.params

structure Describes (s : Spec) (m : Method) (site : Site) : Prop where
  named : s.Named
  names : s.Names site.names
  renames : ∀ {k r}, site.record? k = some r → s.Renames r.name (.record k)
  fields : ∀ {k r}, site.record? k = some r → ∃ told ps, s.Documents m k told ps ∧
    List.Forall₂ (s.OffersField told) ps r.fields

def MadeOf (s : Spec) (m : Method) (site : Site) (key : Nat) (r : Schema.Record) : Prop :=
  ∃ told ps fs, s.Documents m key told ps ∧ List.Forall₂ (s.OffersField told) ps fs ∧ site.Made fs r

namespace Describes

theorem fieldsOf (h : s.Describes m site) {origin : Option Origin} {key : Nat} {r : Draft.Record}
    {fs : List Draft.Field} (horigin : ∀ o ∈ origin, s.Renames o.name (.record o.key))
    (hr : site.record? key = some r) (hfs : site.fieldsOf origin r key = .ok fs) :
    ∃ told ps, s.Documents m key told ps ∧ List.Forall₂ (s.OffersField told) ps fs := by
  obtain ⟨told, ps, hdoc, hfields⟩ := h.fields hr
  refine ⟨told, ps, hdoc, ?_⟩
  unfold Site.fieldsOf at hfs
  split at hfs
  · cases hfs
    exact hfields
  · refine offersFields_resolve ?_ h.named hfields hfs
    refine Names.cons ?_ (h.renames hr)
    cases origin with
    | none => exact h.names
    | some o => exact h.names.cons (horigin o rfl)

theorem build (h : s.Describes m site) {d : Draft} {rs : Schema.Records} {schema : Schema}
    (hbuild : site.build d = .ok (rs, schema)) {k : Nat} {r : Schema.Record} (hr : rs.get? k = some r) :
    s.MadeOf m site k r := by
  have hwithin : site.Within (fun _ => True) fun o => s.Renames o.name (.record o.key) :=
    ⟨fun _ hr => h.renames hr, fun _ _ _ _ _ _ _ _ => trivial⟩
  obtain ⟨origin, r', fs, -, horigin, hr', hfs, hmade⟩ :=
    Site.build_made hwithin (fun _ _ => trivial) hbuild hr
  obtain ⟨told, ps, hdoc, hfields⟩ := h.fieldsOf horigin hr' hfs
  exact ⟨told, ps, fs, hdoc, hfields, hmade⟩

end Describes

end Spec

/-! What the parameters of a method lead to -/

namespace Spec

variable {s : Spec} {good : String → Prop} {m : Method} {id : String} {e : TypeExpr}

theorem Offers.ofSubtypes {ds : List Draft} (h : ∀ d ∈ ds, s.Offers d e) (field : Option String) :
    s.Offers (.ofSubtypes id field ds) e := by
  rcases ds with _ | ⟨d, _ | ⟨d', ds⟩⟩
  · exact .choiceOf id field h
  · exact h d (by simp)
  · exact .choiceOf id field h

theorem Sound.offers_ideal (sound : s.Sound good) (hg : good id) : s.Offers (s.ideal id) (.ref id) := by
  refine sound.induction (P := fun id => s.Offers (s.ideal id) (.ref id)) (fun id hg ih => ?_) hg
  obtain ⟨t, key, he, h⟩ := sound.ideal_cases hg
  rcases h with ⟨hname, h⟩ | ⟨ids, hname, hshape, h⟩ | ⟨hname, hshape, h⟩ | ⟨ps, hr, h⟩
  · rw [h]
    exact .file he hname
  · rw [h]
    refine .ofSubtypes (fun d hd => ?_) _
    obtain ⟨i, hi, rfl⟩ := List.mem_map.1 hd
    exact .subtype he hname hshape hi (ih i ((mem_below he hname hshape).2 hi))
  · rw [h]
    exact .bare he hname hshape
  · rw [h]
    exact .record hr

mutual
theorem Sound.offers_ofExpr (sound : s.Sound good) : ∀ {e : TypeExpr}, (∀ i, e.Mentions i → good i) →
    s.Offers (.ofExpr s.ideal e) e
  | .basic n, _ => .basic n
  | .ref i, h => sound.offers_ideal (h i .ref)
  | .array e, h => .array (sound.offers_ofExpr fun i hi => h i (.array hi))
  | .union es, h => .unionOf fun d hd => by
      obtain ⟨e, he, hoffers⟩ := sound.offers_ofExprs (fun e he i hi => h i (.union he hi)) d hd
      exact .option he hoffers
theorem Sound.offers_ofExprs (sound : s.Sound good) : ∀ {es : List TypeExpr},
    (∀ e ∈ es, ∀ i, e.Mentions i → good i) → ∀ d ∈ Draft.ofExprs s.ideal es, ∃ e ∈ es, s.Offers d e
  | [], _ => by simp [Draft.ofExprs]
  | e :: es, h => by
      have hhead := sound.offers_ofExpr (h e (by simp))
      have htail := sound.offers_ofExprs fun e' (he' : e' ∈ es) => h e' (.tail _ he')
      intro d hd
      rcases List.mem_cons.1 hd with rfl | hd
      · exact ⟨e, by simp, hhead⟩
      · obtain ⟨e', he', hoffers⟩ := htail d hd
        exact ⟨e', by simp [he'], hoffers⟩
end

noncomputable def idealOf (s : Spec) (fixed : String → Bool) (p : Param) : Draft.Field :=
  Work.draftField p <| if fixed p.name then .literal (p.value.getD "") else .ofExpr s.ideal p.type

theorem offersField_idealOf (sound : s.Sound good) {fixed : String → Bool} {p : Param}
    (h : fixed p.name = false → ∀ i, p.type.Mentions i → good i) :
    s.OffersField fixed p (s.idealOf fixed p) := by
  refine ⟨rfl, rfl, rfl, fun hfixed => ?_, fun hfixed => ?_⟩
  · simp [idealOf, Work.draftField, hfixed]
  · simp only [idealOf, Work.draftField, hfixed, Bool.false_eq_true, ↓reduceIte]
    exact sound.offers_ofExpr (h hfixed)

theorem map_attributes (fixed : String → Bool) (ps : List Param) :
    (ps.map (s.idealOf fixed)).map (·.name) = ps.map (Catalog.attributeName ·.name) := by
  rw [List.map_map]
  rfl

structure Lists (s : Spec) (good : String → Prop) (m : Method) (key : Nat) (fixed : String → Bool)
    (ps : List Param) : Prop where
  documents : s.Documents m key fixed ps
  attributes : (ps.map (Catalog.attributeName ·.name)).Nodup
  refs : ∀ p ∈ ps, fixed p.name = false → ∀ i, p.type.Mentions i → good i

variable {key : Nat} {fixed : String → Bool} {ps : List Param} {rs : Schema.Records} {schema : Schema}

theorem RecordOf.lists {t : ApiType} (hr : s.RecordOf id t key ps) (sound : s.Sound good) (hg : good id)
    (distinct : s.Distinct) : s.Lists good m key (s.tellsApart id) ps where
  documents := .type hr
  attributes := hr.attributes distinct
  refs _ hp hfixed _ hi := sound.closed hg (.field hr.entry hr.name hr.shape hp hfixed hi)

theorem Takes.lists (hm : s.Takes good m)
    (hattributes : (m.params.map (Catalog.attributeName ·.name)).Nodup) :
    s.Lists good m s.types.length (fun _ => false) m.params where
  documents := .params
  attributes := hattributes
  refs p hp _ := hm.refs p hp

theorem foldl_putField_idealOf (h : (ps.map (Catalog.attributeName ·.name)).Nodup) :
    (ps.map (s.idealOf fixed)).foldl Draft.putField [] = ps.map (s.idealOf fixed) := by
  refine Draft.foldl_putField ?_
  rw [List.nil_append, map_attributes]
  exact h

theorem RecordOf.idealFields_eq {t : ApiType} (hr : s.RecordOf id t key ps)
    (h : (ps.map (Catalog.attributeName ·.name)).Nodup) :
    s.idealFields t = ps.map (s.idealOf (s.tellsApart id)) := by
  rw [← foldl_putField_idealOf h, idealFields, ApiType.fields, hr.shape, typeEntry?_id hr.entry]
  rfl

namespace Lists

theorem record? (h : s.Lists good m key fixed ps) :
    ∃ name, (s.paramsSite m).record? key = some ⟨name, ps.map (s.idealOf fixed), true⟩ := by
  cases h.documents with
  | @type id t _ _ hr =>
      exact ⟨t.name, by rw [paramsSite_record? (typeEntry?_getElem? hr.entry), hr.idealFields_eq h.attributes]⟩
  | params =>
      have hfields : s.idealParams m = m.params.map (s.idealOf fun _ => false) := by
        rw [← foldl_putField_idealOf h.attributes]
        rfl
      exact ⟨_, by rw [paramsSite_record?_length, hfields]⟩

theorem offers (h : s.Lists good m key fixed ps) (sound : s.Sound good) :
    List.Forall₂ (s.OffersField fixed) ps (ps.map (s.idealOf fixed)) := by
  rw [List.forall₂_map_right_iff]
  exact List.forall₂_same.2 fun p hp => offersField_idealOf sound (h.refs p hp)

theorem keys (h : s.Lists good m key fixed ps) (sound : s.Sound good) {p : Param} (hp : p ∈ ps)
    {k : Nat} (hk : k ∈ (s.idealOf fixed p).draft.keys) : s.KeyOf good k := by
  unfold idealOf Work.draftField at hk
  dsimp only at hk
  split at hk
  · cases hk
  · rename_i hfixed
    rcases Draft.mem_leaves_ofExpr (Draft.mem_keys.1 hk) with ⟨b, hb⟩ | ⟨i, hi, hl⟩
    · cases hb
    · rcases sound.leaves_ideal (h.refs p hp (by simpa using hfixed) i hi) _ hl with ⟨b, hb⟩ | ⟨k', hk', hkey⟩
      · cases hb
      · cases hk'
        exact hkey

end Lists

theorem paramsSite_complete {r : Draft.Record} (hr : (s.paramsSite m).record? key = some r) :
    r.complete = true := by
  rw [Site.record?, Option.map_eq_some_iff] at hr
  obtain ⟨e, he, rfl⟩ := hr
  rcases List.mem_append.1 (List.mem_of_find?_eq_some he) with he | he
  · obtain ⟨e', -, rfl⟩ := List.mem_map.1 he
    rfl
  · rw [List.mem_singleton.1 he]

structure Furnished (s : Spec) (good : String → Prop) (m : Method) (rs : Schema.Records) : Prop where
  root : ∃ g, rs.get? s.types.length = some g
  lists : ∀ {key g}, rs.get? key = some g → ∃ fixed ps, s.Lists good m key fixed ps ∧
    (s.paramsSite m).Made (ps.map (s.idealOf fixed)) g ∧
    ∀ p ∈ ps, ∀ k ∈ (s.idealOf fixed p).draft.keys, ∃ g', rs.get? k = some g'

theorem Furnished.madeOf (h : s.Furnished good m rs) (sound : s.Sound good) {g : Schema.Record}
    (hg : rs.get? key = some g) : s.MadeOf m (s.paramsSite m) key g := by
  obtain ⟨fixed, ps, hlists, hmade, -⟩ := h.lists hg
  exact ⟨fixed, ps, _, hlists.documents, hlists.offers sound, hmade⟩

section

variable (sound : s.Sound good) (distinct : s.Distinct) (hm : s.Takes good m)
  (hattributes : (m.params.map (Catalog.attributeName ·.name)).Nodup)

include sound distinct

theorem KeyOf.lists (h : s.KeyOf good key) : ∃ fixed ps, s.Lists good m key fixed ps := by
  obtain ⟨id, t, ps, hg, hr⟩ := h
  exact ⟨_, _, hr.lists sound hg distinct⟩

theorem KeyOf.known (h : s.KeyOf good key) : (s.paramsSite m).record? key ≠ none := by
  obtain ⟨fixed, ps, hlists⟩ := h.lists (m := m) sound distinct
  obtain ⟨name, hr⟩ := hlists.record?
  simp [hr]

include hm hattributes

theorem lists_of_record? {r : Draft.Record} (hk : s.KeyOf good key ∨ key = s.types.length)
    (hr : (s.paramsSite m).record? key = some r) :
    ∃ fixed ps, s.Lists good m key fixed ps ∧ r.fields = ps.map (s.idealOf fixed) := by
  obtain ⟨fixed, ps, hlists⟩ : ∃ fixed ps, s.Lists good m key fixed ps := by
    rcases hk with hk | rfl
    · exact hk.lists sound distinct
    · exact ⟨_, _, hm.lists hattributes⟩
  obtain ⟨name, hrecord⟩ := hlists.record?
  cases hr.symm.trans hrecord
  exact ⟨fixed, ps, hlists, rfl⟩

theorem paramsSite_within :
    (s.paramsSite m).Within (fun k => s.KeyOf good k ∨ k = s.types.length) fun _ => True := by
  refine ⟨fun _ _ => trivial, fun {origin k r fs} _ hk hr hfs f hf k' hk' => .inl ?_⟩
  obtain ⟨fixed, ps, hlists, hfields⟩ := lists_of_record? sound distinct hm hattributes hk hr
  rw [Site.fieldsOf, if_pos (paramsSite_complete hr)] at hfs
  cases hfs
  rw [hfields] at hf
  obtain ⟨p, hp, rfl⟩ := List.mem_map.1 hf
  exact hlists.keys sound hp hk'

theorem furnished (hbuild : (s.paramsSite m).build (.record s.types.length) = .ok (rs, schema)) :
    s.Furnished good m rs := by
  have hcomplete := Site.build_complete paramsSite_complete hbuild
  have hwithin := paramsSite_within sound distinct hm hattributes
  constructor
  · obtain ⟨name, hroot⟩ := (hm.lists hattributes).record?
    exact hcomplete.entry _ (by simp [Draft.keys]) (by simp [hroot])
  · intro key g hg
    obtain ⟨origin, r, fs, hk, -, hr, hfs, hmade⟩ :=
      Site.build_made hwithin (by simp [Draft.keys]) hbuild hg
    obtain ⟨fixed, ps, hlists, hfields⟩ := lists_of_record? sound distinct hm hattributes hk hr
    rw [Site.fieldsOf, if_pos (paramsSite_complete hr), hfields] at hfs
    cases hfs
    refine ⟨fixed, ps, hlists, hmade, fun p hp k hk' => ?_⟩
    have hfield : s.idealOf fixed p ∈ r.fields := hfields ▸ List.mem_map_of_mem hp
    exact hcomplete.leads hg hr _ hfield k hk' ((hlists.keys sound hp hk').known sound distinct)

end

end Spec

end BotApi
