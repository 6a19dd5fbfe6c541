import BotApi.Proofs.Catalog.Discriminant
import BotApi.Proofs.Draft.Blueprint
import BotApi.Proofs.Draft.Reach
import BotApi.Proofs.Result
import BotApi.Proofs.Schema.Accepted
/-!
What is made of a value that there are several options for: a union leaves it to the option that is favored, a
supertype to the first subtype that takes it, or to the one that its tag names.
-/

namespace BotApi

namespace TypeExpr

mutual
def choices : TypeExpr → List TypeExpr
  | .union es => choicesList es
  | e => [e]
def choicesList : List TypeExpr → List TypeExpr
  | [] => []
  | e :: es => choices e ++ choicesList es
end

mutual
theorem mentions_of_mem_choices {c : TypeExpr} {i : String} (hi : c.Mentions i) : ∀ {e : TypeExpr},
    c ∈ e.choices → e.Mentions i
  | .basic _, h | .ref _, h | .array _, h => List.mem_singleton.1 h ▸ hi
  | .union _, h => by
      obtain ⟨e, he, hmentions⟩ := mentions_of_mem_choicesList hi h
      exact .union he hmentions
theorem mentions_of_mem_choicesList {c : TypeExpr} {i : String} (hi : c.Mentions i) : ∀ {es : List TypeExpr},
    c ∈ choicesList es → ∃ e ∈ es, e.Mentions i
  | [], h => by cases h
  | e :: es, h => by
      rcases List.mem_append.1 h with h | h
      · exact ⟨e, List.mem_cons_self, mentions_of_mem_choices hi h⟩
      · obtain ⟨e', he', hmentions⟩ := mentions_of_mem_choicesList hi h
        exact ⟨e', List.mem_cons_of_mem _ he', hmentions⟩
end

end TypeExpr

namespace Draft

open Schema (Passed Records checkDepth tagOf?)

section

variable {self : String → Draft}

mutual
theorem normal_ofExpr (hself : ∀ i, (self i).isUnion = false) : ∀ e : TypeExpr, Normal (ofExpr self e)
  | .basic _ | .array _ => .of_not_isUnion rfl
  | .ref i => .of_not_isUnion (hself i)
  | .union es => normal_unionOf (normal_ofExprs hself es)
theorem normal_ofExprs (hself : ∀ i, (self i).isUnion = false) : ∀ es : List TypeExpr, ∀ d ∈ ofExprs self es, Normal d
  | [] => nofun
  | e :: es => List.forall_mem_cons.2 ⟨normal_ofExpr hself e, normal_ofExprs hself es⟩
end

mutual
theorem options_ofExpr (hself : ∀ i, (self i).isUnion = false) : ∀ e : TypeExpr,
    (ofExpr self e).options = distinct (e.choices.map (ofExpr self))
  | .basic _ | .array _ => rfl
  | .ref i => options_of_not_isUnion (hself i)
  | .union es => by
      rw [ofExpr, options_unionOf fun d hd => (normal_ofExprs hself es d hd).flat]
      exact distinct_options_ofExprs hself es
theorem distinct_options_ofExprs (hself : ∀ i, (self i).isUnion = false) : ∀ es : List TypeExpr,
    distinct ((ofExprs self es).flatMap options) = distinct ((TypeExpr.choicesList es).map (ofExpr self))
  | [] => rfl
  | e :: es => by
      rw [ofExprs, List.flatMap_cons, TypeExpr.choicesList, List.map_append]
      refine distinct_append_congr ?_ (distinct_options_ofExprs hself es)
      rw [options_ofExpr hself e, distinct_distinct]
end

end

theorem unionOf_cases (ds : List Draft) : unionOf ds = union (distinct (ds.flatMap options)) ∨
    unionOf ds ∈ ds.flatMap options ∧ ∀ o ∈ ds.flatMap options, o = unionOf ds := by
  unfold unionOf
  split
  next d hd =>
    refine .inr ⟨mem_distinct.1 (by simp [hd]), fun o ho => ?_⟩
    have hmem : o ∈ distinct (ds.flatMap options) := mem_distinct.2 ho
    rw [hd] at hmem
    exact List.mem_singleton.1 hmem
  next => exact .inl rfl

theorem ofSubtypes_cases (id : String) (field : Option String) (ds : List Draft) :
    ds = [ofSubtypes id field ds] ∨ ofSubtypes id field ds = choice id field (distinct ds) := by
  rcases ds with _ | ⟨d, _ | ⟨d', ds⟩⟩
  · exact .inr rfl
  · exact .inl rfl
  · exact .inr rfl

theorem mem_before_of_distinct {before after pre post : List Draft} {d o : Draft}
    (h : distinct (before ++ d :: after) = pre ++ o :: post) (hd : d ∉ pre) : o ∈ before ∨ o = d := by
  have hsplit : distinct (before ++ d :: after) = distinct (before ++ [d]) ++
      (distinct after).filter fun e => !(before ++ [d]).any (same e) := by
    rw [← distinct_append, List.append_assoc, List.singleton_append]
  have hmem : d ∈ distinct (before ++ [d]) := mem_distinct.2 (by simp)
  rw [hsplit] at h
  obtain ⟨rest, hpre, -⟩ | ⟨rest, hall, hrest⟩ := List.append_eq_append_iff.1 h
  · rw [hpre] at hd
    exact absurd (List.mem_append_left _ hmem) hd
  · cases rest with
    | nil =>
        rw [List.append_nil] at hall
        exact absurd (hall ▸ hmem) hd
    | cons o' rest =>
        cases hrest
        have ho : o ∈ distinct (before ++ [d]) := by simp [hall]
        simpa using mem_distinct.1 ho

structure Tagged (fs : List Field) (f text : String) : Prop where
  tag : ∃ g ∈ fs, g.wire = f ∧ g.required = true ∧ g.draft = .literal text
  names : ∀ g ∈ fs, g.name = Catalog.attributeName g.wire
  nodup : (fs.map (·.name)).Nodup

namespace Tagged

variable {site : Site} {fs : List Field} {f text : String} {r : Record} {k : Nat}

theorem eq_of_wire (h : Tagged fs f text) {g g' : Field} (hg : g ∈ fs) (hg' : g' ∈ fs)
    (hname : Catalog.attributeName g.wire = Catalog.attributeName g'.wire) : g = g' := by
  refine List.inj_on_of_nodup_map h.nodup hg hg' ?_
  rw [h.names g hg, h.names g' hg', hname]

theorem tagText? (h : Tagged r.fields f text) (hr : site.record? k = some r) :
    site.tagText? f (.record k) = some text := by
  obtain ⟨g, hg, rfl, -, hdraft⟩ := h.tag
  have hsome : (r.fields.find? (·.name == Catalog.attributeName g.wire)).isSome = true :=
    List.find?_isSome.2 ⟨g, hg, by simpa using h.names g hg⟩
  obtain ⟨g', hg'⟩ := Option.isSome_iff_exists.1 hsome
  have hmem := List.mem_of_find?_eq_some hg'
  have hname : g'.name = Catalog.attributeName g.wire := by simpa using List.find?_some hg'
  obtain rfl : g' = g := h.eq_of_wire hmem hg (by rw [← h.names g' hmem, hname])
  simp only [Site.tagText?, hr, Option.bind_some, Record.field?, hg', hdraft]

end Tagged

namespace Site

variable {site : Site} {rs : Records} {n : Nat} {d : Draft} {ds : List Draft} {v : Value} {p q : Passed}

theorem exists_schemasOf (h : ∀ d ∈ ds, ∃ schema, site.schemaOf d = .ok schema) :
    ∃ schemas, site.schemasOf ds = .ok schemas := by
  induction ds with
  | nil => exact ⟨[], rfl⟩
  | cons d ds ih =>
      rw [List.forall_mem_cons] at h
      obtain ⟨⟨schema, hschema⟩, hds⟩ := h
      obtain ⟨schemas, hschemas⟩ := ih hds
      exact ⟨schema :: schemas, by rw [schemasOf, hschema, hschemas]; rfl⟩

theorem exists_schemaOf_of_mem {schemas : List Schema} (h : site.schemasOf ds = .ok schemas) (hd : d ∈ ds) :
    ∃ schema, site.schemaOf d = .ok schema := by
  obtain ⟨schema, -, hschema⟩ := exists_right_of_mem (forall₂_schemasOf h) hd
  exact ⟨schema, hschema⟩

def Makes (site : Site) (rs : Records) (n : Nat) (d : Draft) (v : Value) (p : Passed) : Prop :=
  ∃ schema, site.schemaOf d = .ok schema ∧ checkDepth rs .values n schema v = .ok p

def Gives (site : Site) (d : Draft) (v : Value) (p : Passed) : Prop :=
  ∃ rs schema, site.build d = .ok (rs, schema) ∧ checkDepth rs .values v.depth schema v = .ok p

theorem Makes.unique (h : site.Makes rs n d v p) (h' : site.Makes rs n d v q) : p = q := by
  obtain ⟨schema, hschema, hp⟩ := h
  obtain ⟨schema', hschema', hq⟩ := h'
  cases hschema.symm.trans hschema'
  exact Except.ok.inj (hp.symm.trans hq)

/-! Unions -/

section

variable {schemas : List Schema} {o : Draft}

theorem makes_of_mem (h : site.schemasOf ds = .ok schemas) {schema : Schema} (hschema : schema ∈ schemas)
    (hp : checkDepth rs .values n schema v = .ok p) : ∃ d ∈ ds, site.Makes rs n d v p := by
  obtain ⟨d, hd, hbuilt⟩ := exists_left_of_mem (forall₂_schemasOf h) hschema
  exact ⟨d, hd, schema, hbuilt, hp⟩

theorem Makes.exists_mem (h : site.Makes rs n d v p) (hschemas : site.schemasOf ds = .ok schemas) (hd : d ∈ ds) :
    ∃ schema ∈ schemas, checkDepth rs .values n schema v = .ok p := by
  obtain ⟨schema, hschema, hp⟩ := h
  obtain ⟨schema', hmem, hschema'⟩ := exists_right_of_mem (forall₂_schemasOf hschemas) hd
  cases hschema.symm.trans hschema'
  exact ⟨schema, hmem, hp⟩

theorem Makes.option (h : site.Makes rs n d v p) :
    ∃ o ∈ d.options, ∃ q, site.Makes rs n o v q ∧ q.value = p.value := by
  cases d with
  | union ds =>
      obtain ⟨schema, hschema, hp⟩ := h
      obtain ⟨schemas, hschemas, rfl⟩ := ok_of_map hschema
      cases n with
      | zero => cases hp
      | succ n =>
          obtain ⟨o, ho, q, hq, rfl⟩ := Schema.mem_of_union hp
          obtain ⟨d, hd, hmakes⟩ := makes_of_mem (n := n + 1) hschemas ho hq
          exact ⟨d, hd, q, hmakes, rfl⟩
  | _ => exact ⟨_, List.mem_singleton_self _, p, h, rfl⟩

theorem exists_schemaOf_of_unionOf {schema : Schema} (h : site.schemaOf (unionOf ds) = .ok schema)
    (ho : o ∈ ds.flatMap options) : ∃ schema, site.schemaOf o = .ok schema := by
  rcases unionOf_cases ds with hunion | ⟨-, hall⟩
  · rw [hunion] at h
    obtain ⟨schemas, hschemas, -⟩ := ok_of_map h
    exact exists_schemaOf_of_mem hschemas (mem_distinct.2 ho)
  · rw [hall o ho]
    exact ⟨schema, h⟩

theorem exists_schemaOf_option {schema : Schema} (h : site.schemaOf (unionOf ds) = .ok schema) (hd : d ∈ ds) :
    ∃ schema, site.schemaOf d = .ok schema := by
  have hoptions : ∀ o ∈ d.options, ∃ schema, site.schemaOf o = .ok schema := fun o ho =>
    exists_schemaOf_of_unionOf h (List.mem_flatMap.2 ⟨d, hd, ho⟩)
  cases d with
  | union ds' =>
      obtain ⟨schemas, hschemas⟩ : ∃ schemas, site.schemasOf ds' = .ok schemas := exists_schemasOf hoptions
      exact ⟨.union schemas, by rw [schemaOf, hschemas]; rfl⟩
  | _ => exact hoptions _ (List.mem_singleton_self _)

theorem Makes.exists_of_option {schema : Schema} (h : site.Makes rs n o v q) (ho : o ∈ ds.flatMap options)
    (hbuilt : site.schemaOf (unionOf ds) = .ok schema) : ∃ p, site.Makes rs n (unionOf ds) v p := by
  rcases unionOf_cases ds with hunion | ⟨-, hall⟩
  · rw [hunion] at hbuilt
    obtain ⟨schemas, hschemas, rfl⟩ := ok_of_map hbuilt
    obtain ⟨o', ho', hq⟩ := h.exists_mem hschemas (mem_distinct.2 ho)
    obtain ⟨p, hp⟩ := Schema.exists_of_union ho' hq
    exact ⟨p, .union schemas, by rw [hunion]; exact hbuilt, hp⟩
  · exact ⟨q, hall o ho ▸ h⟩

theorem Makes.exists_unionOf {schema : Schema} (h : site.Makes rs n d v q) (hd : d ∈ ds)
    (hbuilt : site.schemaOf (unionOf ds) = .ok schema) : ∃ p, site.Makes rs n (unionOf ds) v p := by
  obtain ⟨o, ho, q', hmakes, -⟩ := h.option
  exact hmakes.exists_of_option (List.mem_flatMap.2 ⟨d, hd, ho⟩) hbuilt

theorem Makes.wanted_option {K : Value → Prop} (h : site.Makes rs n (unionOf ds) v p) {o : Draft}
    (ho : o ∈ ds.flatMap options) (hq : site.Makes rs n o v q) (hK : K q.value)
    (hway : (distinct (ds.flatMap options)).Pairwise fun a b => ∀ q r, site.Makes rs n a v q → site.Makes rs n b v r →
      Schema.Settled (fun x => K x.value) q r) : K p.value := by
  rcases unionOf_cases ds with hunion | ⟨-, hall⟩
  · obtain ⟨schema, hbuilt, hp⟩ := h
    rw [hunion] at hbuilt
    obtain ⟨schemas, hschemas, rfl⟩ := ok_of_map hbuilt
    cases n with
    | zero => cases hp
    | succ n =>
        obtain ⟨o', ho', hq'⟩ := hq.exists_mem hschemas (mem_distinct.2 ho)
        have hpairs := pairwise_of_forall₂ (Q := fun a b => ∀ q r, checkDepth rs .values (n + 1) a v = .ok q →
          checkDepth rs .values (n + 1) b v = .ok r → Schema.Settled (fun x => K x.value) q r)
          (forall₂_schemasOf hschemas) hway fun hs hs' hsettled q r hq hr => hsettled q r ⟨_, hs, hq⟩ ⟨_, hs', hr⟩
        obtain ⟨r, hr, rfl⟩ := Schema.wanted_of_union (K := fun x => K x.value) hp ho' hq' hK hpairs
        exact hr
  · obtain rfl := h.unique (hall o ho ▸ hq)
    exact hK

theorem Makes.wanted {K : Value → Prop} (h : site.Makes rs n (unionOf ds) v p) (hd : d ∈ ds)
    (hq : site.Makes rs n d v q) (hK : K q.value)
    (hway : (distinct (ds.flatMap options)).Pairwise fun a b => ∀ q r, site.Makes rs n a v q → site.Makes rs n b v r →
      Schema.Settled (fun x => K x.value) q r) : K p.value := by
  obtain ⟨o, ho, q', hmakes, hvalue⟩ := hq.option
  exact h.wanted_option (List.mem_flatMap.2 ⟨d, hd, ho⟩) hmakes (hvalue ▸ hK) hway

theorem mem_keys_unionOf {k : Nat} : k ∈ (unionOf ds).keys ↔ ∃ o ∈ ds.flatMap options, k ∈ o.keys := by
  rw [mem_keys, mem_leaves_unionOf]
  constructor
  · rintro ⟨d, hd, hk⟩
    obtain ⟨o, ho, hk⟩ := mem_leaves_options.2 hk
    exact ⟨o, List.mem_flatMap.2 ⟨d, hd, ho⟩, mem_keys.2 hk⟩
  · rintro ⟨o, ho, hk⟩
    obtain ⟨d, hd, ho⟩ := List.mem_flatMap.1 ho
    exact ⟨d, hd, mem_leaves_options.1 ⟨o, ho, mem_keys.1 hk⟩⟩

end

/-! Supertypes -/

section

variable {id f text : String} {field : Option String} {schema : Schema}

theorem exists_schemaOf_subtype (h : site.schemaOf (ofSubtypes id field ds) = .ok schema) (hd : d ∈ ds) :
    ∃ schema, site.schemaOf d = .ok schema := by
  rcases ofSubtypes_cases id field ds with hone | hchoice
  · rw [hone, List.mem_singleton] at hd
    exact ⟨schema, hd ▸ h⟩
  · rw [hchoice] at h
    obtain ⟨schemas, hschemas, -⟩ := ok_of_bind h
    exact exists_schemaOf_of_mem hschemas (mem_distinct.2 hd)

theorem schemaOf_choice_none (h : site.schemaOf (choice id none ds) = .ok schema) :
    ∃ schemas, site.schemasOf ds = .ok schemas ∧ schema = .firstOf schemas := by
  obtain ⟨schemas, hschemas, hchoice⟩ := ok_of_bind h
  rcases choiceOf_eq_ok hchoice with ⟨-, rfl⟩ | ⟨f, texts, hf, -⟩
  · exact ⟨schemas, hschemas, rfl⟩
  · cases hf

theorem Makes.exists_first (h : site.Makes rs n d v q) (hd : d ∈ ds)
    (hbuilt : site.schemaOf (ofSubtypes id none ds) = .ok schema) : ∃ p, site.Makes rs n (ofSubtypes id none ds) v p := by
  rcases ofSubtypes_cases id none ds with hone | hchoice
  · rw [hone, List.mem_singleton] at hd
    exact ⟨q, hd ▸ h⟩
  · have hschema := hbuilt
    rw [hchoice] at hschema
    obtain ⟨schemas, hschemas, rfl⟩ := schemaOf_choice_none hschema
    obtain ⟨o, ho, hq⟩ := h.exists_mem hschemas (mem_distinct.2 hd)
    obtain ⟨p, hp⟩ := Schema.exists_of_firstOf ho hq
    exact ⟨p, _, hbuilt, hp⟩

theorem Makes.first {before after : List Draft} (h : site.Makes rs n (ofSubtypes id none (before ++ d :: after)) v p)
    (hq : site.Makes rs n d v q) : (∃ d' ∈ before, ∃ q', site.Makes rs n d' v q' ∧ q'.value = p.value) ∨
      p.value = q.value := by
  rcases ofSubtypes_cases id none (before ++ d :: after) with hone | hchoice
  · have hd : d ∈ before ++ d :: after := by simp
    rw [hone, List.mem_singleton] at hd
    exact .inr (congrArg Passed.value (h.unique (hd ▸ hq)))
  · obtain ⟨schema, hschema, hp⟩ := h
    rw [hchoice] at hschema
    obtain ⟨schemas, hschemas, rfl⟩ := schemaOf_choice_none hschema
    obtain ⟨k, rfl⟩ : ∃ k, n = k + 1 := by
      cases n with
      | zero => cases hp
      | succ k => exact ⟨k, rfl⟩
    obtain ⟨pre, o, post, r, rfl, hr, hrefused, rfl⟩ := Schema.step_firstOf_eq_ok.1 hp
    have hall := forall₂_schemasOf hschemas
    have hpre := List.forall₂_take_append _ _ _ hall
    obtain ⟨d', ds', hd', -, hrest⟩ := List.forall₂_cons_right_iff.1 (List.forall₂_drop_append _ _ _ hall)
    have hnot : d ∉ (distinct (before ++ d :: after)).take pre.length := by
      intro hmem
      obtain ⟨schema, hschema, hbuilt⟩ := exists_right_of_mem hpre hmem
      obtain ⟨schema', hbuilt', hq⟩ := hq
      cases hbuilt.symm.trans hbuilt'
      exact hrefused _ hschema q hq
    have hsplit := (List.take_append_drop pre.length (distinct (before ++ d :: after))).symm
    rw [hrest] at hsplit
    rcases mem_before_of_distinct hsplit hnot with hbefore | rfl
    · have hmakes : site.Makes rs (k + 1) d' v r := ⟨o, hd', hr⟩
      exact .inl ⟨d', hbefore, r, hmakes, rfl⟩
    · have hmakes : site.Makes rs (k + 1) d' v r := ⟨o, hd', hr⟩
      obtain rfl := hmakes.unique hq
      exact .inr rfl

theorem schemaOf_choice_eq_ok {t : String} {ds : List Draft} {schema : Schema}
    (h : site.schemaOf (choice t (some f) ds) = .ok schema) : ∃ texts ss,
      schema = .tagged (readers f) (texts.zip ss) ∧ List.Forall₂ (fun d t => site.tagText? f d = some t) ds texts ∧
        List.Forall₂ (fun d s => site.schemaOf d = .ok s) ds ss := by
  obtain ⟨ss, hds, h⟩ := ok_of_bind h
  rcases choiceOf_eq_ok h with ⟨hf, -⟩ | ⟨f', texts, hf, htexts, -, rfl⟩
  · cases hf
  · cases hf
    exact ⟨texts, ss, rfl, Spec.forall₂_of_mapM htexts, forall₂_schemasOf hds⟩

theorem mem_zip_iff {α β γ : Type} {R : α → β → Prop} {S : α → γ → Prop} {as : List α} {bs : List β}
    {cs : List γ} (hR : ∀ {a b b'}, R a b → R a b' → b = b') (hS : ∀ {a c c'}, S a c → S a c' → c = c')
    (hbs : List.Forall₂ R as bs) (hcs : List.Forall₂ S as cs) {x : β × γ} :
    x ∈ bs.zip cs ↔ ∃ a ∈ as, R a x.1 ∧ S a x.2 := by
  induction hbs generalizing cs with
  | nil => simp
  | @cons a b as bs hb _ ih =>
      cases hcs with
      | @cons _ c _ cs hc hcs =>
          have hhead : x = (b, c) ↔ R a x.1 ∧ S a x.2 := by
            constructor
            · rintro rfl
              exact ⟨hb, hc⟩
            · exact fun h => Prod.ext (hR h.1 hb) (hS h.2 hc)
          rw [List.zip_cons_cons, List.mem_cons, ih hcs, hhead]
          simp

theorem makes_tagged {es : Entries} (hbuilt : site.schemaOf (ofSubtypes id (some f) ds) = .ok schema) (hd : d ∈ ds)
    (htext : site.tagText? f d = some text) (htag : tagOf? (readers f) es = some (.str text))
    (hone : ∀ d' ∈ ds, site.tagText? f d' = some text → d' = d) :
    site.Makes rs n (ofSubtypes id (some f) ds) (.dict es) p ↔ site.Makes rs n d (.dict es) p := by
  rcases ofSubtypes_cases id (some f) ds with hsingle | hchoice
  · rw [hsingle, List.mem_singleton] at hd
    rw [← hd]
  · have hschema := hbuilt
    rw [hchoice] at hschema
    obtain ⟨texts, schemas, rfl, htexts, hschemas⟩ := schemaOf_choice_eq_ok hschema
    have hzip {c : String × Schema} : c ∈ texts.zip schemas ↔ ∃ d ∈ distinct ds,
        site.tagText? f d = some c.1 ∧ site.schemaOf d = .ok c.2 :=
      mem_zip_iff (fun h h' => Option.some.inj (h.symm.trans h')) (fun h h' => Except.ok.inj (h.symm.trans h'))
        htexts hschemas
    obtain ⟨schema, -, hd'⟩ := exists_right_of_mem hschemas (mem_distinct.2 hd)
    have hsome : ((texts.zip schemas).find? fun c => (Value.str text).str? = some c.1).isSome = true :=
      List.find?_isSome.2 ⟨(text, schema), hzip.2 ⟨d, mem_distinct.2 hd, htext, hd'⟩, by simp [Value.str?]⟩
    obtain ⟨c, hc⟩ := Option.isSome_iff_exists.1 hsome
    have hname : text = c.1 := by simpa [Value.str?] using List.find?_some hc
    obtain ⟨d', hmem, htext', hschema'⟩ := hzip.1 (List.mem_of_find?_eq_some hc)
    obtain rfl := hone d' (mem_distinct.1 hmem) (hname ▸ htext')
    have hchosen : checkDepth rs .values n (.tagged (readers f) (texts.zip schemas)) (.dict es) = .ok p ↔
        checkDepth rs .values n c.2 (.dict es) = .ok p :=
      Schema.checkDepth_tagged_eq_ok (hname ▸ htag) (hname ▸ hc)
    constructor
    · rintro ⟨schema', hschema', hp⟩
      cases hbuilt.symm.trans hschema'
      exact ⟨c.2, ‹_›, hchosen.1 hp⟩
    · rintro ⟨schema', hschema'', hp⟩
      cases hschema'.symm.trans hschema''
      exact ⟨_, hbuilt, hchosen.2 hp⟩

end

end Site

end Draft

end BotApi
