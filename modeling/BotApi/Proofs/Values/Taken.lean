import BotApi.Proofs.Draft.Ideal
import BotApi.Proofs.Values.Options
import BotApi.Proofs.Values.Supplied
/-!
Values of the documented form are taken. Whatever a check is built from documentation for, it does not refuse a value
that conforms to that, be it to one of several options or to one of the subtypes that a tag tells apart.
-/

namespace BotApi

open Draft (FieldOf Site)
open Schema (Passed Records Verdict checkDepth checkField checkRecord tagOf?)

/-! Basic types and records -/

theorem BasicType.Admits.exists_step {b : BasicType} {w : Value} (h : b.Admits w) (rs : Records)
    (descend : Schema → Value → Verdict) : ∃ p, Schema.step rs .values descend b.schema w = .ok p := by
  cases b with
  | flag =>
      obtain ⟨b, rfl⟩ := h
      exact ⟨_, rfl⟩
  | onlyTrue =>
      obtain rfl : w = .bool true := h
      have hequal : (Value.bool true).equal (.bool true) = true := by simp [Value.equal, Value.equalAtoms, Value.integer?]
      exact ⟨⟨.of .exact, .bool true⟩, by rw [schema, Schema.step, if_pos hequal]⟩
  | text =>
      obtain ⟨t, rfl⟩ := h
      exact ⟨_, rfl⟩
  | integer =>
      obtain ⟨n, rfl, hleast, hmost⟩ := h
      refine ⟨⟨.of .exact, .int n⟩, ?_⟩
      have hbound : Schema.outside? Schema.int64Least Schema.int64Most n = none := by
        rw [Schema.outside?, if_neg (by omega), if_neg (by omega)]
      simp only [schema, Schema.int64, Schema.step, Schema.readInteger, Verdict.bounded, hbound]
  | number =>
      obtain ⟨x, rfl⟩ := h
      exact ⟨_, rfl⟩
  | file =>
      have hfile : Schema.isFile w = true := h
      exact ⟨⟨.of .strict, w⟩, by rw [schema, Schema.step, if_pos hfile]⟩
  | any => exact ⟨_, rfl⟩

namespace Draft

variable {site : Site} {rs : Records} {n : Nat} {descend : Schema → Value → Verdict} {ps : List Param} {p : Param}
  {f : Field} {fs : List Field} {es : Entries} {v : Value}

theorem Site.Makes.exists_takes {q : Passed} (h : site.Makes rs n f.draft v q) :
    ∃ q, site.Takes (checkDepth rs .values n) f (.str f.wire, v) (f.wire, q) := by
  obtain ⟨schema, hschema, hq⟩ := h
  suffices hchecked : ∃ q, checkDepth rs .values n (Site.fieldSchema f schema).schema v = .ok q by
    obtain ⟨q, hq⟩ := hchecked
    exact ⟨q, .inl rfl, rfl, schema, hschema, hq⟩
  unfold Site.fieldSchema
  dsimp only
  split
  · exact ⟨q, hq⟩
  · cases n with
    | zero => cases hq
    | succ n =>
        rw [checkDepth, Schema.step]
        split
        · exact ⟨_, rfl⟩
        · exact ⟨q, hq⟩

theorem Site.makes_literal (site : Site) (rs : Records) (n : Nat) (t : String) :
    site.Makes rs (n + 1) (.literal t) (.str t) ⟨.of .exact, .str t⟩ :=
  ⟨.onlyText [t], rfl, by simp [checkDepth, Schema.step]⟩

theorem Site.exists_takes_null {schema : Schema} (hoptional : f.required = false)
    (hschema : site.schemaOf f.draft = .ok schema) :
    ∃ q, site.Takes (checkDepth rs .values (n + 1)) f (.str f.wire, .null) (f.wire, q) := by
  refine ⟨⟨.of .exact, .null⟩, .inl rfl, rfl, schema, hschema, ?_⟩
  rw [Site.fieldSchema, hoptional]
  rfl

theorem Site.Made.exists_checkRecord {r : Schema.Record} (hmade : site.Made fs r)
    (hattributes : (ps.map (Catalog.attributeName ·.name)).Nodup) (hes : es.Complete ps)
    (hfs : List.Forall₂ (fun p f => FieldOf p f ∧
      ∀ w, (.str p.name, w) ∈ es → ∃ q, site.Takes descend f (.str f.wire, w) (f.wire, q)) ps fs) :
    ∃ q, checkRecord .values descend r (.dict es) = .ok q := by
  have hfind {p f g} (hp : p ∈ ps) (hf : FieldOf p f) {schema} (hg : g = Site.fieldSchema f schema) :
      g.find? es = (es.getText? p.name).map fun v => (p.name, v) := by
    rw [hg]
    exact hf.find? hes.known hattributes hp schema
  have hfield : ∀ g ∈ r.fields, ∃ part, checkField descend es g = .ok part := by
    intro g hg
    obtain ⟨f, hf, schema, hschema, hg⟩ := exists_left_of_mem hmade.fields hg
    obtain ⟨p, hp, hfield, heach⟩ := exists_left_of_mem hfs hf
    unfold checkField
    rw [hfind hp hfield hg]
    cases hget : es.getText? p.name with
    | some w =>
        obtain ⟨q, htakes⟩ := heach w (Entries.mem_of_getText? hget)
        obtain ⟨schema', hschema', hq⟩ := htakes.passed
        cases hschema.symm.trans hschema'
        exact ⟨some (p.name, q), by simp only [Option.map_some, hg, hq, Schema.under, Except.map]⟩
    | none =>
        have hoptional : g.required = false := by
          rw [hg, Site.fieldSchema]
          cases hrequired : p.required with
          | false => rw [hfield.required, hrequired]
          | true =>
              obtain ⟨w, hw⟩ := hes.required p hp hrequired
              rw [(Entries.getText?_eq_some hes.once).2 hw] at hget
              cases hget
        exact ⟨none, by simp [hoptional]⟩
  obtain ⟨parts, hparts⟩ := exists_forall₂ hfield
  refine ⟨_, (Schema.checkRecord_eq_ok hmade.closed hmade.check).2 ⟨es, parts, rfl, hparts, ?_, rfl⟩⟩
  refine Schema.strayFindings_of_found fun e he => ?_
  obtain ⟨p, hp, hkey⟩ := hes.known e he
  obtain ⟨f, hf, hfield, -⟩ := exists_right_of_mem hfs hp
  obtain ⟨g, hg, schema, -, hbuilt⟩ := exists_right_of_mem hmade.fields hf
  have hmem : (.str p.name, e.2) ∈ es := by
    rw [← hkey]
    exact he
  refine ⟨g, hg, (p.name, e.2), ?_, hkey⟩
  rw [hfind hp hfield hbuilt, (Entries.getText?_eq_some hes.once).2 hmem, Option.map_some]

end Draft

namespace Spec

variable {s : Spec} {good : String → Prop} {m : Method} {rs : Records} {n : Nat} {id i f text : String} {t : ApiType}
  {key : Nat} {ids : List String} {ps : List Param} {p : Param} {e : TypeExpr} {es : Entries} {w : Value}

/-! What expressions stand for -/

theorem Sound.ideal_file (sound : s.Sound good) (hg : good id) (he : s.typeEntry? id = some (t, key))
    (hname : t.name = inputFileName) : s.ideal id = .basic .file := by
  rw [sound.ideal_eq hg he, draftOf, if_pos hname]

theorem Sound.ideal_bare (sound : s.Sound good) (hg : good id) (he : s.typeEntry? id = some (t, key))
    (hname : t.name ≠ inputFileName) (hshape : t.shape = .fields []) : s.ideal id = .basic .any := by
  rw [sound.ideal_eq hg he, draftOf, if_neg hname, hshape]

theorem Sound.ideal_subtypes (sound : s.Sound good) (hg : good id) (he : s.typeEntry? id = some (t, key))
    (hname : t.name ≠ inputFileName) (hshape : t.shape = .subtypes ids) :
    s.ideal id = .ofSubtypes id (s.discriminant? id) (ids.map s.ideal) := by
  rw [sound.ideal_eq hg he, draftOf, if_neg hname, hshape, typeEntry?_id he]

-- An expression among those that the parameters lead to: it stands for a draft that is built, and so are the records
-- of that.
structure Stands (s : Spec) (good : String → Prop) (m : Method) (rs : Records) (e : TypeExpr) : Prop where
  refs : ∀ i, e.Mentions i → good i
  built : ∃ schema, (s.paramsSite m).schemaOf (.ofExpr s.ideal e) = .ok schema
  records : ∀ k ∈ (Draft.ofExpr s.ideal e).keys, ∃ g, rs.get? k = some g

namespace Stands

theorem item (h : s.Stands good m rs (.array e)) : s.Stands good m rs e where
  refs i hi := h.refs i (.array hi)
  built := by
    obtain ⟨schema, hschema⟩ := h.built
    obtain ⟨item, hitem, -⟩ := ok_of_map hschema
    exact ⟨item, hitem⟩
  records := h.records

theorem option {es : List TypeExpr} (h : s.Stands good m rs (.union es)) (he : e ∈ es) : s.Stands good m rs e where
  refs i hi := h.refs i (.union he hi)
  built := by
    obtain ⟨schema, hschema⟩ := h.built
    refine Site.exists_schemaOf_option hschema ?_
    rw [Draft.ofExprs_eq]
    exact List.mem_map_of_mem he
  records k hk := by
    refine h.records k (Draft.mem_keys.2 (Draft.mem_leaves_unionOf.2 ⟨_, ?_, Draft.mem_keys.1 hk⟩))
    rw [Draft.ofExprs_eq]
    exact List.mem_map_of_mem he

theorem of_ref (h : s.Stands good m rs (.ref id)) : good id := h.refs id .ref

theorem subtype (h : s.Stands good m rs (.ref id)) (sound : s.Sound good) (he : s.typeEntry? id = some (t, key))
    (hname : t.name ≠ inputFileName) (hshape : t.shape = .subtypes ids) (hi : i ∈ ids) :
    s.Stands good m rs (.ref i) := by
  have hideal := sound.ideal_subtypes h.of_ref he hname hshape
  have hmem : s.ideal i ∈ ids.map s.ideal := List.mem_map_of_mem hi
  refine ⟨fun j hj => ?_, ?_, fun k hk => ?_⟩
  · cases hj
    exact sound.closed h.of_ref (.subtype he hname hshape hi)
  · obtain ⟨schema, hschema⟩ := h.built
    rw [Draft.ofExpr, hideal] at hschema
    exact Site.exists_schemaOf_subtype hschema hmem
  · refine h.records k ?_
    rw [Draft.ofExpr, hideal]
    exact Draft.mem_keys.2 (Draft.mem_leaves_ofSubtypes.2 ⟨_, hmem, Draft.mem_keys.1 hk⟩)

theorem record (h : s.Stands good m rs (.ref id)) (sound : s.Sound good) (furnished : s.Furnished good m rs)
    (hr : s.RecordOf id t key ps) : s.ideal id = .record key ∧ ∃ g, rs.get? key = some g ∧
      s.Lists good m key (s.tellsApart id) ps ∧ (s.paramsSite m).Made (ps.map (s.idealOf (s.tellsApart id))) g ∧
      ∀ p ∈ ps, ∀ k ∈ (s.idealOf (s.tellsApart id) p).draft.keys, ∃ g', rs.get? k = some g' := by
  have hideal := sound.ideal_record h.of_ref hr
  refine ⟨hideal, ?_⟩
  obtain ⟨g, hg⟩ := h.records key (by simp [Draft.ofExpr, hideal, Draft.keys])
  obtain ⟨fixed, ps', hlists, hmade, hkeys⟩ := furnished.lists hg
  obtain ⟨rfl, rfl⟩ := hlists.documents.eq_of_record hr
  exact ⟨g, hg, hlists, hmade, hkeys⟩

end Stands

theorem Lists.stands {fixed : String → Bool} {g : Schema.Record} (h : s.Lists good m key fixed ps)
    (hmade : (s.paramsSite m).Made (ps.map (s.idealOf fixed)) g)
    (hkeys : ∀ p ∈ ps, ∀ k ∈ (s.idealOf fixed p).draft.keys, ∃ g', rs.get? k = some g') (hp : p ∈ ps)
    (hfree : fixed p.name = false) :
    (s.idealOf fixed p).draft = .ofExpr s.ideal p.type ∧ s.Stands good m rs p.type := by
  have hdraft : (s.idealOf fixed p).draft = .ofExpr s.ideal p.type := by
    simp only [idealOf, Work.draftField, hfree, Bool.false_eq_true, ↓reduceIte]
  obtain ⟨f, hf, schema, hschema, -⟩ := exists_right_of_mem hmade.fields (List.mem_map_of_mem hp)
  refine ⟨hdraft, h.refs p hp hfree, ⟨schema, by rw [← hdraft]; exact hschema⟩, fun k hk => hkeys p hp k ?_⟩
  rw [hdraft]
  exact hk

structure Ready (s : Spec) (good : String → Prop) (m : Method) (rs : Records) : Prop where
  sound : s.Sound good
  distinct : s.Distinct
  ids : (s.types.map (·.id)).Nodup
  built : ∃ schema, (s.paramsSite m).build (.record s.types.length) = .ok (rs, schema)
  furnished : s.Furnished good m rs

/-! What is made of a value by an expression alone -/

def Gives (s : Spec) (e : TypeExpr) (v : Value) (p : Passed) : Prop := s.blueprint.Gives (.ofExpr s.ideal e) v p

theorem mem_options_ofExprs {es : List TypeExpr} {o : Draft} : o ∈ (Draft.ofExprs s.ideal es).flatMap Draft.options ↔
    ∃ e ∈ TypeExpr.choicesList es, Draft.ofExpr s.ideal e = o := by
  have hself : ∀ i, (s.ideal i).isUnion = false := fun i => isUnion_idealAt _ i
  rw [← Draft.mem_distinct, Draft.distinct_options_ofExprs hself, Draft.mem_distinct, List.mem_map]

theorem Sound.keys_ofExpr (sound : s.Sound good) {e : TypeExpr} (he : ∀ i, e.Mentions i → good i) {k : Nat}
    (hk : k ∈ (Draft.ofExpr s.ideal e).keys) : s.KeyOf good k := by
  rcases Draft.mem_leaves_ofExpr (Draft.mem_keys.1 hk) with ⟨b, hb⟩ | ⟨i, hi, hl⟩
  · cases hb
  · rcases sound.leaves_ideal (he i hi) _ hl with ⟨b, hb⟩ | ⟨k', hk', hkey⟩
    · cases hb
    · cases hk'
      exact hkey

theorem Sound.blueprint_within (sound : s.Sound good) : s.blueprint.Within (s.KeyOf good) fun _ => True where
  origin _ _ := trivial
  keys _ hk hr hfs f hf := by
    obtain ⟨t, ht⟩ := hk.exists_type
    obtain rfl := Option.some.inj ((blueprint_record? ht).symm.trans hr)
    cases hfs
    exact sound.keys_idealFields hk ht hf

theorem Gives.reads {e : TypeExpr} {q : Passed} (h : s.Gives e w q) (sound : s.Sound good) (distinct : s.Distinct)
    (he : ∀ i, e.Mentions i → good i) : s.Reads e w q.value := by
  obtain ⟨rs, schema, hbuild, hq⟩ := h
  obtain ⟨-, -, -, hschema⟩ := Site.build_eq_ok hbuild
  have hmade {k g} (hg : rs.get? k = some g) : s.MadeOf ⟨"", "", "", [], false, []⟩ s.blueprint k g := by
    obtain ⟨origin, r, fs, ⟨id, t, ps, hid, hrecord⟩, -, hr, hfs, hmade⟩ :=
      Site.build_made sound.blueprint_within (fun k hk => sound.keys_ofExpr he hk) hbuild hg
    obtain rfl := Option.some.inj ((blueprint_record? (typeEntry?_getElem? hrecord.entry)).symm.trans hr)
    cases hfs
    have hlists : s.Lists good ⟨"", "", "", [], false, []⟩ k (s.tellsApart id) ps := hrecord.lists sound hid distinct
    exact ⟨_, ps, _, .type hrecord, hrecord.idealFields_eq hlists.attributes ▸ hlists.offers sound, hmade⟩
  exact checkDepth_reads hmade _ _ _ _ _ _ (sound.offers_ofExpr he) hschema hq

theorem Ready.gives (ready : s.Ready good m rs) {e : TypeExpr} (he : ∀ i, e.Mentions i → good i)
    (hrecords : ∀ k ∈ (Draft.ofExpr s.ideal e).keys, ∃ g, rs.get? k = some g) (hn : w.depth ≤ n) {q : Passed}
    (hq : (s.paramsSite m).Makes rs n (.ofExpr s.ideal e) w q) : s.Gives e w q := by
  obtain ⟨schema, hschema, hq⟩ := hq
  obtain ⟨_, hbuild⟩ := ready.built
  obtain ⟨rs', hbuild', hsame⟩ :=
    Site.build_known paramsSite_complete hbuild (fun k hk _ => hrecords k hk) hschema
  have hmirrors : (s.paramsSite m).build (.ofExpr s.ideal e) = s.blueprint.build (.ofExpr s.ideal e) :=
    ((paramsSite_mirrors ready.sound).build fun k hk => ready.sound.keys_ofExpr he hk).resolve_right And.left
  exact ⟨rs', schema, hmirrors ▸ hbuild', by rw [hsame _ hn, hq]⟩

theorem Stands.gives (h : s.Stands good m rs e) (ready : s.Ready good m rs) (hn : w.depth ≤ n) {q : Passed}
    (hq : (s.paramsSite m).Makes rs n (.ofExpr s.ideal e) w q) : s.Gives e w q :=
  ready.gives h.refs h.records hn hq

theorem Stands.gives_choice {es : List TypeExpr} (h : s.Stands good m rs (.union es)) (ready : s.Ready good m rs)
    (hc : e ∈ (TypeExpr.union es).choices) (hn : w.depth ≤ n) {q : Passed}
    (hq : (s.paramsSite m).Makes rs n (.ofExpr s.ideal e) w q) : s.Gives e w q := by
  refine ready.gives (fun i hi => h.refs i (TypeExpr.mentions_of_mem_choices hi hc)) (fun k hk => ?_) hn hq
  refine h.records k ?_
  rw [Draft.ofExpr]
  exact Site.mem_keys_unionOf.2 ⟨_, mem_options_ofExprs.2 ⟨e, hc, rfl⟩, hk⟩

/-! Tags -/

theorem discriminant?_eq (hids : (s.types.map (·.id)).Nodup) (h : s.discriminant? id = some f) :
    ∃ t, s.type? id = some t ∧ s.discriminantOf t = some f := by
  rw [discriminant?, Option.map_eq_some_iff] at h
  obtain ⟨d, hd, rfl⟩ := h
  obtain ⟨u, hu, hdisc⟩ := List.mem_filterMap.1 (List.mem_reverse.1 (List.mem_of_find?_eq_some hd))
  obtain ⟨f, hf, rfl⟩ := Option.map_eq_some_iff.1 hdisc
  have hid : u.id = id := by simpa using List.find?_some hd
  have hsome : (s.type? id).isSome = true := by
    rw [type?, List.find?_isSome]
    exact ⟨u, List.mem_reverse.2 hu, by simpa using hid⟩
  obtain ⟨t, ht⟩ := Option.isSome_iff_exists.1 hsome
  have hmem : t ∈ s.types := List.mem_reverse.1 (List.mem_of_find?_eq_some ht)
  have htid : t.id = id := by simpa using List.find?_some ht
  obtain rfl : t = u := List.inj_on_of_nodup_map hids hmem hu (htid.trans hid.symm)
  exact ⟨t, ht, hf⟩

theorem Labels.record (hl : s.Labels f i text) (sound : s.Sound good) (distinct : s.Distinct) (hg : good i)
    {text' : String} (h : (s.paramsSite m).tagText? f (s.ideal i) = some text') :
    text' = text ∧ ∃ u key ps, s.RecordOf i u key ps ∧
      ∃ p ∈ ps, p.name = f ∧ p.required = true ∧ p.value = some text := by
  obtain ⟨u, p, hu, hsuper, hp, hrequired, hvalue⟩ := hl.field
  obtain ⟨key, he⟩ := entry_of_type? hu
  have hpf : p.name = f := by simpa using List.find?_some hp
  have hmem := List.mem_of_find?_eq_some hp
  cases hshape : u.shape with
  | subtypes ids => simp [ApiType.isSupertype, ApiType.subtypes?, hshape] at hsuper
  | fields ps =>
      rw [ApiType.fields, hshape] at hmem
      have hname : u.name ≠ inputFileName := by
        intro hname
        rw [sound.ideal_file hg he hname] at h
        cases h
      have hr : s.RecordOf i u key ps := ⟨he, hname, hshape, List.ne_nil_of_mem hmem⟩
      refine ⟨?_, u, key, ps, hr, p, hmem, hpf, hrequired, hvalue⟩
      have hlists : s.Lists good m key (s.tellsApart i) ps := hr.lists sound hg distinct
      obtain ⟨name, hrecord⟩ := hlists.record?
      have htagged : Draft.Tagged (ps.map (s.idealOf (s.tellsApart i))) f text := by
        refine ⟨⟨s.idealOf (s.tellsApart i) p, List.mem_map_of_mem hmem, hpf, hrequired, ?_⟩, fun g hg => ?_, ?_⟩
        · simp [idealOf, Work.draftField, hpf, hl.apart, hvalue]
        · obtain ⟨q, -, rfl⟩ := List.mem_map.1 hg
          rfl
        · rw [map_attributes]
          exact hlists.attributes
      rw [sound.ideal_record hg hr, Draft.Tagged.tagText? (r := ⟨name, _, true⟩) htagged hrecord] at h
      exact (Option.some.inj h).symm

theorem tagOf?_of_conforms (hl : s.Labels f i text) (distinct : s.Distinct) {u : ApiType} (hr : s.RecordOf i u key ps)
    (hp : p ∈ ps) (hname : p.name = f) (hrequired : p.required = true) (hvalue : p.value = some text)
    (h : s.Conforms s.tellsApart (.ref i) w) :
    ∃ es : Entries, w = .dict es ∧ tagOf? (Site.readers f) es = some (.str text) := by
  obtain ⟨es, rfl, hes, heach⟩ := h.of_record hr
  refine ⟨es, rfl, ?_⟩
  obtain ⟨x, hx⟩ := hes.required p hp hrequired
  have hapart : s.tellsApart i p.name = true := hname ▸ hl.apart
  have htext : x = .str text := by
    cases heach p hp x hx with
    | null optional => exact absurd (hrequired.symm.trans optional) (by decide)
    | fixed => rw [Param.fixedText, hvalue, Option.getD_some]
    | typed free => exact absurd (hapart.symm.trans free) (by decide)
  subst htext
  have hget : es.getText? f = some (.str text) := (Entries.getText?_eq_some hes.once).2 (hname ▸ hx)
  unfold Site.readers tagOf?
  dsimp only
  split
  next => simp [hget]
  next hne =>
    have hnone : es.getText? (Catalog.attributeName f) = none := by
      refine Entries.getText?_eq_none fun v hv => hne ?_
      obtain ⟨q, hq, hkey⟩ := hes.known _ hv
      have hqname : Catalog.attributeName f = q.name := Value.str.inj hkey
      obtain rfl := List.inj_on_of_nodup_map (hr.attributes distinct) hq hp (by
        rw [← hqname, Catalog.attributeName_attributeName, hname])
      exact hqname.trans hname
    simp [hnone, hget]

theorem Stands.makes_told (h : s.Stands good m rs (.ref id)) (ready : s.Ready good m rs)
    (he : s.typeEntry? id = some (t, key))
    (hname : t.name ≠ inputFileName) (hshape : t.shape = .subtypes ids) (hi : i ∈ ids)
    (hf : s.discriminant? id = some f) (hw : s.Conforms s.tellsApart (.ref i) w) {q : Passed} :
    (s.paramsSite m).Makes rs n (s.ideal id) w q ↔ (s.paramsSite m).Makes rs n (s.ideal i) w q := by
  obtain ⟨u, hu, hdisc⟩ := discriminant?_eq ready.ids hf
  cases (type?_of_entry he).symm.trans hu
  obtain ⟨hlen, texts, htexts, hnodup⟩ := labels hu hshape hdisc
  have hideal := ready.sound.ideal_subtypes h.of_ref he hname hshape
  obtain ⟨schema, hschema⟩ := h.built
  rw [Draft.ofExpr, hideal, hf] at hschema
  have hgood {j : String} (hj : j ∈ ids) : good j := (h.subtype ready.sound he hname hshape hj).of_ref
  have hmem : s.ideal i ∈ ids.map s.ideal := List.mem_map_of_mem hi
  obtain ⟨text, -, hl⟩ := exists_right_of_mem htexts hi
  obtain ⟨text', htext'⟩ : ∃ text', (s.paramsSite m).tagText? f (s.ideal i) = some text' := by
    rcases Draft.ofSubtypes_cases id (some f) (ids.map s.ideal) with hone | hchoice
    · have hlength := congrArg List.length hone
      simp only [List.length_map, List.length_singleton] at hlength
      omega
    · rw [hchoice] at hschema
      obtain ⟨texts, schemas, -, htexts, -⟩ := Site.schemaOf_choice_eq_ok hschema
      obtain ⟨text', -, htext'⟩ := exists_right_of_mem htexts (Draft.mem_distinct.2 hmem)
      exact ⟨text', htext'⟩
  obtain ⟨rfl, v, k, ps, hr, p, hp, hpname, hrequired, hvalue⟩ := hl.record ready.sound ready.distinct (hgood hi) htext'
  obtain ⟨es, rfl, htag⟩ := tagOf?_of_conforms hl ready.distinct hr hp hpname hrequired hvalue hw
  rw [hideal, hf]
  refine Site.makes_tagged hschema hmem htext' htag fun d hd htext => ?_
  obtain ⟨j, hj, rfl⟩ := List.mem_map.1 hd
  obtain ⟨text, -, hlj⟩ := exists_right_of_mem htexts hj
  obtain ⟨rfl, -⟩ := hlj.record ready.sound ready.distinct (hgood hj) htext
  rw [eq_of_nodup (R := s.Labels f) Labels.unique htexts hnodup hi hj hl hlj]

/-! Values that conform -/

theorem exists_makes_list {site : Site} {d : Draft} {ws : List Value} (hbuilt : ∃ schema, site.schemaOf d = .ok schema)
    (h : ∀ w ∈ ws, ∃ q, site.Makes rs n d w q) : ∃ q, site.Makes rs (n + 1) (.array d) (.list ws) q := by
  obtain ⟨schema, hschema⟩ := hbuilt
  obtain ⟨qs, hqs⟩ : ∃ qs, List.Forall₂ (fun x q => checkDepth rs .values n schema x = .ok q) ws qs := by
    refine exists_forall₂ fun w hw => ?_
    obtain ⟨q, schema', hschema', hq⟩ := h w hw
    cases hschema.symm.trans hschema'
    exact ⟨q, hq⟩
  obtain ⟨q, hq⟩ : ∃ q, checkDepth rs .values (n + 1) (.array schema) (.list ws) = .ok q := by
    simp only [checkDepth, Schema.step, Schema.checkArray_eq_ok]
    exact ⟨_, ws, qs, .exact, .inl ⟨rfl, rfl⟩, hqs, rfl⟩
  exact ⟨q, .array schema, by rw [Site.schemaOf, hschema]; rfl, hq⟩

theorem Stands.exists_makes_record (h : s.Stands good m rs (.ref id)) (ready : s.Ready good m rs)
    (hr : s.RecordOf id t key ps) (hcomplete : es.Complete ps)
    (heach : ∀ p ∈ ps, ∀ w, (.str p.name, w) ∈ es → ∃ q, (s.paramsSite m).Takes (checkDepth rs .values n)
      (s.idealOf (s.tellsApart id) p) (.str p.name, w) (p.name, q)) :
    ∃ q, (s.paramsSite m).Makes rs (n + 1) (.ofExpr s.ideal (.ref id)) (.dict es) q := by
  obtain ⟨hideal, g, hg, hlists, hmade, -⟩ := h.record ready.sound ready.furnished hr
  have hfields : ∀ p ∈ ps, Draft.FieldOf p (s.idealOf (s.tellsApart id) p) ∧ ∀ w, (.str p.name, w) ∈ es →
      ∃ q, (s.paramsSite m).Takes (checkDepth rs .values n) (s.idealOf (s.tellsApart id) p) (.str p.name, w) (p.name, q) :=
    fun p hp => ⟨⟨rfl, rfl, rfl⟩, heach p hp⟩
  obtain ⟨q, hq⟩ := hmade.exists_checkRecord hlists.attributes hcomplete (by
    rw [List.forall₂_map_right_iff]
    exact List.forall₂_same.2 hfields)
  refine ⟨q, .record key, by rw [Draft.ofExpr, hideal]; rfl, ?_⟩
  rw [checkDepth, Schema.step, hg]
  exact Schema.under_eq_ok.2 hq

mutual
theorem Conforms.taken (ready : s.Ready good m rs) : ∀ {e : TypeExpr} {w : Value} {n : Nat},
    s.Conforms s.tellsApart e w → s.Stands good m rs e → w.depth ≤ n →
    ∃ q, (s.paramsSite m).Makes rs n (.ofExpr s.ideal e) w q
  | _, w, n, .basic hadmits, _, hn => by
      obtain ⟨k, rfl⟩ := Value.exists_of_depth_le hn
      obtain ⟨q, hq⟩ := hadmits.exists_step rs (checkDepth rs .values k)
      exact ⟨q, _, rfl, hq⟩
  | _, w, n, .file hentry hname hadmits, h, hn => by
      obtain ⟨k, rfl⟩ := Value.exists_of_depth_le hn
      obtain ⟨q, hq⟩ := BasicType.Admits.exists_step (b := .file) hadmits rs (checkDepth rs .values k)
      exact ⟨q, _, by rw [Draft.ofExpr, ready.sound.ideal_file h.of_ref hentry hname]; rfl, hq⟩
  | _, w, n, .bare hentry hname hshape, h, hn => by
      obtain ⟨k, rfl⟩ := Value.exists_of_depth_le hn
      exact ⟨_, .any, by rw [Draft.ofExpr, ready.sound.ideal_bare h.of_ref hentry hname hshape]; rfl, rfl⟩
  | .ref id, .dict es, n, @Conforms.record _ _ _ _ key ps _ hr hcomplete heach, h, hn => by
      obtain ⟨-, g, -, hlists, hmade, hkeys⟩ := h.record ready.sound ready.furnished hr
      obtain ⟨k, rfl, hes⟩ := Value.exists_of_depth_entries_le hn
      refine h.exists_makes_record ready hr hcomplete fun p hp w hw => ?_
      obtain ⟨f, -, schema, hschema, -⟩ := exists_right_of_mem hmade.fields (List.mem_map_of_mem hp)
      exact (heach p hp w hw).taken ready (hlists.stands hmade hkeys hp) ⟨schema, hschema⟩ (hes _ hw)
  | .ref id, w, n, .subtype hentry hname hshape hmem hconforms, h, hn => by
      obtain ⟨q, hq⟩ := hconforms.taken ready (h.subtype ready.sound hentry hname hshape hmem) hn
      cases hf : s.discriminant? id with
      | some f => exact ⟨q, (h.makes_told ready hentry hname hshape hmem hf hconforms).2 hq⟩
      | none =>
          obtain ⟨schema, hschema⟩ := h.built
          have hideal := ready.sound.ideal_subtypes h.of_ref hentry hname hshape
          rw [Draft.ofExpr, hideal, hf] at hschema ⊢
          exact hq.exists_first (List.mem_map_of_mem hmem) hschema
  | .array e, .list ws, n, .array heach, h, hn => by
      obtain ⟨k, rfl, hws⟩ := Value.exists_of_depth_list_le hn
      rw [Draft.ofExpr]
      exact exists_makes_list h.item.built fun w hw => (heach w hw).taken ready h.item (hws w hw)
  | _, _, n, .option hmem hconforms, h, hn => by
      obtain ⟨q, hq⟩ := hconforms.taken ready (h.option hmem) hn
      obtain ⟨schema, hschema⟩ := h.built
      refine hq.exists_unionOf ?_ hschema
      rw [Draft.ofExprs_eq]
      exact List.mem_map_of_mem hmem
theorem ConformsField.taken (ready : s.Ready good m rs) : ∀ {fixed : String → Bool} {p : Param} {w : Value}
    {n : Nat}, s.ConformsField s.tellsApart fixed p w →
    (fixed p.name = false → (s.idealOf fixed p).draft = .ofExpr s.ideal p.type ∧ s.Stands good m rs p.type) →
    (∃ schema, (s.paramsSite m).schemaOf (s.idealOf fixed p).draft = .ok schema) → w.depth ≤ n →
    ∃ q, (s.paramsSite m).Takes (checkDepth rs .values n) (s.idealOf fixed p) (.str p.name, w) (p.name, q)
  | fixed, p, _, n, .null hoptional, _, hbuilt, hn => by
      obtain ⟨schema, hschema⟩ := hbuilt
      obtain ⟨k, rfl⟩ := Value.exists_of_depth_le hn
      exact Site.exists_takes_null hoptional hschema
  | fixed, p, _, n, .fixed hholds, _, _, hn => by
      obtain ⟨k, rfl⟩ := Value.exists_of_depth_le hn
      have hdraft : (s.idealOf fixed p).draft = .literal p.fixedText := by
        simp only [idealOf, Work.draftField, hholds, ↓reduceIte]
        rfl
      have hmakes := Site.makes_literal (s.paramsSite m) rs k p.fixedText
      rw [← hdraft] at hmakes
      exact hmakes.exists_takes
  | fixed, p, w, n, .typed hfree hconforms, hstands, _, hn => by
      obtain ⟨hdraft, hstands⟩ := hstands hfree
      obtain ⟨q, hq⟩ := hconforms.taken ready hstands hn
      rw [← hdraft] at hq
      exact hq.exists_takes
end

end Spec

end BotApi
