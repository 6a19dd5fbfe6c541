import BotApi.Proofs.Draft.Ideal
import BotApi.Proofs.Schema.Accepted
import BotApi.Proofs.Values.Conforms
/-!
What a check makes of a value is what the documentation makes of it. By induction on the depth of the
value, and within one level on what the draft offers.
-/

namespace BotApi

open Draft (Site)
open Schema (Records Verdict Passed checkDepth checkField step isFile int64Least int64Most)

theorem Schema.lax_of_map {α : Type} {a : α} {g : Schema.Grade} {x : Except Schema.Fault α}
    (h : x.map (·, Schema.Grade.lax) = .ok (a, g)) : g = .lax := by
  cases x <;> cases h
  rfl

namespace BasicType

variable {b : BasicType} {rs : Records} {descend : Schema → Value → Verdict} {v : Value} {p : Passed}

theorem ofScalar_eq_ok {α : Type} {wrap : α → Value} {x : Schema.Graded α}
    (h : Verdict.ofScalar wrap x = .ok p) : ∃ a g, x = .ok (a, g) ∧ p = ⟨.of g, wrap a⟩ := by
  cases x with
  | error f => cases h
  | ok ag =>
      cases h
      exact ⟨ag.1, ag.2, rfl, rfl⟩

theorem bounded_eq_ok {α : Type} {wrap : α → Value} {fault? : α → Option Schema.Fault} {x : Schema.Graded α}
    (h : Verdict.bounded wrap fault? x = .ok p) :
    ∃ a g, x = .ok (a, g) ∧ fault? a = none ∧ p = ⟨.of g, wrap a⟩ := by
  cases x with
  | error f => cases h
  | ok ag =>
      rw [Verdict.bounded] at h
      split at h
      · rename_i hnone
        cases h
        exact ⟨ag.1, ag.2, rfl, hnone, rfl⟩
      · cases h

theorem outside?_eq_none {least most n : Int} (h : Schema.outside? least most n = none) : least ≤ n ∧ n ≤ most := by
  unfold Schema.outside? at h
  split at h
  · cases h
  · split at h
    · cases h
    · omega

theorem reads_of_step (h : step rs .values descend b.schema v = .ok p) : b.Reads v p.value := by
  cases b with
  | flag =>
      obtain ⟨a, g, hread, rfl⟩ := ofScalar_eq_ok h
      exact ⟨a, g, hread, rfl⟩
  | onlyTrue =>
      rw [schema, step] at h
      split at h
      · rename_i hequal
        cases h
        exact ⟨hequal, rfl⟩
      · cases h
  | text =>
      obtain ⟨a, g, hread, rfl⟩ := ofScalar_eq_ok h
      exact ⟨a, g, hread, rfl⟩
  | integer =>
      obtain ⟨a, g, hread, hbound, rfl⟩ := bounded_eq_ok h
      obtain ⟨hleast, hmost⟩ := outside?_eq_none hbound
      exact ⟨a, g, hread, hleast, hmost, rfl⟩
  | number =>
      obtain ⟨a, g, hread, rfl⟩ := ofScalar_eq_ok h
      exact ⟨a, g, hread, rfl⟩
  | file =>
      rw [schema, step] at h
      split at h
      · rename_i hfile
        cases h
        exact ⟨hfile, rfl⟩
      · cases h
  | any =>
      cases h
      rfl

end BasicType

namespace Spec

variable {s : Spec} {m : Method} {site : Site} {rs : Records} {n : Nat}

def ReadsBelow (s : Spec) (site : Site) (descend : Schema → Value → Verdict) : Prop :=
  ∀ d e schema v p, s.Offers d e → site.schemaOf d = .ok schema → descend schema v = .ok p →
    s.Reads e v p.value

variable {fixed : String → Bool} {q : Param} {f : Draft.Field} {es : Entries}

theorem OffersField.find? (hf : s.OffersField fixed q f) (schema : Schema) (es : Entries) :
    ((Site.fieldSchema f schema).find? es).map (·.2) = q.given? es := by
  unfold Schema.Field.find? Param.given? Site.fieldSchema
  rw [hf.wire, hf.name]
  cases es.getText? q.name with
  | some v => rfl
  | none => cases es.getText? (Catalog.attributeName q.name) <;> rfl

theorem OffersField.reads (hf : s.OffersField fixed q f)
    (hbelow : s.ReadsBelow site (checkDepth rs .values n)) {schema : Schema} {v : Value} {p : Passed}
    (hschema : site.schemaOf f.draft = .ok schema)
    (h : checkDepth rs .values n (Site.fieldSchema f schema).schema v = .ok p) :
    s.ReadsField fixed q v p.value := by
  have hdirect (hgiven : q.required = true ∨ v.isNull = false)
      (hcheck : checkDepth rs .values n schema v = .ok p) : s.ReadsField fixed q v p.value := by
    cases hfixed : fixed q.name with
    | false => exact .typed hfixed hgiven (hbelow _ _ _ _ _ (hf.typed hfixed) hschema hcheck)
    | true =>
        rw [hf.literal hfixed] at hschema
        cases hschema
        obtain ⟨rfl, rfl⟩ := Schema.eq_of_checkDepth_onlyText hcheck
        exact .fixed hfixed
  unfold Site.fieldSchema at h
  dsimp only at h
  rw [hf.required] at h
  split at h
  · rename_i hrequired
    exact hdirect (.inl hrequired) h
  · rename_i hoptional
    rcases Schema.checkDepth_optional h with ⟨hnull, rfl⟩ | ⟨hgiven, hcheck⟩
    · cases v with
      | null => exact .null (by simpa using hoptional)
      | _ => cases hnull
    · exact hdirect (.inr hgiven) hcheck

theorem readsFields (hbelow : s.ReadsBelow site (checkDepth rs .values n)) {ps : List Param}
    {fs : List Draft.Field} {gs : List Schema.Field} {parts : List (Option (String × Passed))}
    (hfs : List.Forall₂ (s.OffersField fixed) ps fs)
    (hgs : List.Forall₂ (fun f g => ∃ schema, site.schemaOf f.draft = .ok schema ∧
      g = Site.fieldSchema f schema) fs gs)
    (hparts : List.Forall₂ (fun g x => checkField (checkDepth rs .values n) es g = .ok x) gs parts) :
    s.ReadsFields fixed es ps ((gs.zip parts).filterMap fun x => Schema.fieldResult x.1 x.2) := by
  induction hfs generalizing gs parts with
  | nil =>
      cases hgs
      exact .nil
  | @cons q f ps fs hf _ ih =>
      cases hgs with
      | @cons _ g _ gs hg hgs =>
          cases hparts with
          | @cons _ x _ parts hx hparts =>
              obtain ⟨schema, hschema, rfl⟩ := hg
              have hrest := ih hgs hparts
              have hfound := hf.find? schema es
              unfold checkField at hx
              rw [List.zip_cons_cons, List.filterMap_cons]
              split at hx
              · rename_i name v hfind
                rw [hfind, Option.map_some] at hfound
                obtain ⟨p, hunder, rfl⟩ := ok_of_map hx
                have hreads := hf.reads hbelow hschema (Schema.under_eq_ok.1 hunder)
                simp only [Schema.fieldResult, Site.fieldSchema, hf.wire]
                exact .given hfound.symm hreads hrest
              · rename_i hfind
                rw [hfind, Option.map_none] at hfound
                split at hx
                · cases hx
                · rename_i hoptional
                  cases hx
                  have hrequired : q.required = false := by
                    rw [← hf.required]
                    simpa [Site.fieldSchema] using hoptional
                  exact .absent hfound.symm hrequired hrest

theorem known_of_strayFindings {ps : List Param} {fs : List Draft.Field} {r : Schema.Record}
    (hfs : List.Forall₂ (s.OffersField fixed) ps fs) (hmade : site.Made fs r)
    (h : Schema.strayFindings r es = []) :
    ∀ e ∈ es, ∃ p ∈ ps, e.1 = .str p.name ∨ e.1 = .str (Catalog.attributeName p.name) := by
  intro e he
  obtain ⟨g, hg, x, hx, hkey⟩ := Schema.strayFindings_eq_nil h e he
  obtain ⟨f, hf, schema, -, rfl⟩ := exists_left_of_mem hmade.fields hg
  obtain ⟨p, hp, hoffers⟩ := exists_left_of_mem hfs hf
  refine ⟨p, hp, ?_⟩
  rw [hkey]
  unfold Schema.Field.find? at hx
  split at hx
  · cases hx
    exact .inl (by rw [← hoffers.wire]; rfl)
  · rw [Option.map_eq_some_iff] at hx
    obtain ⟨v, -, rfl⟩ := hx
    exact .inr (by rw [← hoffers.name]; rfl)

theorem record_reads (hbelow : s.ReadsBelow site (checkDepth rs .values n)) {ps : List Param}
    {fs : List Draft.Field} {r : Schema.Record} {v : Value} {p : Passed}
    (hfs : List.Forall₂ (s.OffersField fixed) ps fs) (hmade : site.Made fs r)
    (h : Schema.checkRecord .values (checkDepth rs .values n) r v = .ok p) :
    ∃ es us, v = .dict es ∧ p.value = .record r.name us ∧ s.ReadsFields fixed es ps us ∧
      ∀ e ∈ es, ∃ p ∈ ps, e.1 = .str p.name ∨ e.1 = .str (Catalog.attributeName p.name) := by
  obtain ⟨es, parts, hv, hparts, hstray, rfl⟩ := (Schema.checkRecord_eq_ok hmade.closed hmade.check).1 h
  exact ⟨es, _, hv, rfl, readsFields hbelow hfs hmade.fields hparts, known_of_strayFindings hfs hmade hstray⟩

theorem Documents.eq_of_record {key : Nat} {ps ps' : List Param} {id : String} {t : ApiType}
    (h : s.Documents m key fixed ps) (hr : s.RecordOf id t key ps') :
    fixed = s.tellsApart id ∧ ps = ps' := by
  cases h with
  | @type id' t' _ _ hr' =>
      obtain rfl : t' = t := Option.some.inj
        ((typeEntry?_getElem? hr'.entry).symm.trans (typeEntry?_getElem? hr.entry))
      obtain rfl : id' = id := (typeEntry?_id hr'.entry).symm.trans (typeEntry?_id hr.entry)
      exact ⟨rfl, Shape.fields.inj (hr'.shape.symm.trans hr.shape)⟩
  | params => exact absurd (key_lt hr.entry) (Nat.lt_irrefl _)

theorem Documents.eq_of_params {ps : List Param} (h : s.Documents m s.types.length fixed ps) :
    fixed = (fun _ => false) ∧ ps = m.params := by
  cases h with
  | type hr => exact absurd (key_lt hr.entry) (Nat.lt_irrefl _)
  | params => exact ⟨rfl, rfl⟩

theorem exists_of_choiceOf {field : Option String} {members : List Draft} {schemas : List Schema}
    {schema : Schema} {descend : Schema → Value → Verdict} {v : Value} {p : Passed}
    (hchoice : site.choiceOf field members schemas = .ok schema)
    (h : step rs .values descend schema v = .ok p) :
    ∃ member ∈ schemas, ∃ q, step rs .values descend member v = .ok q ∧ (q = p ∨ ∃ left, q.after left = p) := by
  rcases Site.choiceOf_eq_ok hchoice with ⟨-, rfl⟩ | ⟨f, texts, -, -, -, rfl⟩
  · obtain ⟨before, o, rest, q, rfl, hq, -, hp⟩ := Schema.step_firstOf_eq_ok.1 h
    exact ⟨o, by simp, q, hq, .inr ⟨_, hp⟩⟩
  · cases v with
    | dict es =>
        rw [step] at h
        split at h
        · cases h
        · split at h
          · rename_i hchoose
            obtain ⟨c, hc, hstep⟩ := Schema.exists_of_choose (hchoose.trans (congrArg some h))
            exact ⟨c.2, (List.of_mem_zip hc).2, p, hstep, .inl rfl⟩
          · cases h
    | _ =>
        simp only [step] at h
        split at h <;> cases h

theorem value_of_choiceOf {field : Option String} {members : List Draft} {schemas : List Schema}
    {schema : Schema} {descend : Schema → Value → Verdict} {v : Value} {p : Passed}
    (hchoice : site.choiceOf field members schemas = .ok schema)
    (h : step rs .values descend schema v = .ok p) :
    ∃ member ∈ schemas, ∃ q, step rs .values descend member v = .ok q ∧ q.value = p.value := by
  obtain ⟨member, hmember, q, hq, rfl | ⟨left, rfl⟩⟩ := exists_of_choiceOf hchoice h
  · exact ⟨member, hmember, q, hq, rfl⟩
  · exact ⟨member, hmember, q, hq, rfl⟩

theorem readsItems (hbelow : s.ReadsBelow site (checkDepth rs .values n)) {d : Draft} {e : TypeExpr}
    (hd : s.Offers d e) {item : Schema} (hitem : site.schemaOf d = .ok item) {xs : List Value}
    {ps : List Passed} (h : List.Forall₂ (fun x p => checkDepth rs .values n item x = .ok p) xs ps) :
    s.ReadsItems e xs (ps.map (·.value)) := by
  induction h with
  | nil => exact .nil
  | cons hx _ ih => exact .cons (hbelow _ _ _ _ _ hd hitem hx) ih

theorem step_reads (hbuilt : ∀ {k r}, rs.get? k = some r → s.MadeOf m site k r)
    (hbelow : s.ReadsBelow site (checkDepth rs .values n)) {d : Draft} {e : TypeExpr}
    (hd : s.Offers d e) {schema : Schema} {v : Value} {p : Passed}
    (hschema : site.schemaOf d = .ok schema)
    (h : step rs .values (checkDepth rs .values n) schema v = .ok p) : s.Reads e v p.value := by
  induction hd generalizing schema p with
  | basic name =>
      cases hschema
      exact .basic (BasicType.reads_of_step h)
  | file entry name =>
      cases hschema
      obtain ⟨hfile, hv⟩ : BasicType.file.Reads v p.value := BasicType.reads_of_step h
      rw [hv]
      exact .file entry name hfile
  | bare entry name shape =>
      cases hschema
      cases h
      exact .bare entry name shape
  | @record id t key ps hr =>
      cases hschema
      rw [step] at h
      split at h
      · rename_i r hget
        obtain ⟨fixed, ps', fs, hdoc, hfs, hmade⟩ := hbuilt hget
        obtain ⟨rfl, rfl⟩ := hdoc.eq_of_record hr
        obtain ⟨es, us, rfl, hvalue, hreads, hknown⟩ := record_reads hbelow hfs hmade (Schema.under_eq_ok.1 h)
        rw [hvalue]
        exact .record hr hknown hreads
      · cases h
  | named entry => cases hschema
  | subtype entry name shape mem _ ih => exact .subtype entry name shape mem (ih hschema h)
  | option mem _ ih => exact .option mem (ih hschema h)
  | @array d e hd _ =>
      obtain ⟨item, hitem, rfl⟩ := ok_of_map hschema
      rw [step, Schema.checkArray_eq_ok] at h
      obtain ⟨xs, ps, g, hv, hps, rfl⟩ := h
      exact .array (hv.imp And.left And.left) (readsItems hbelow hd hitem hps)
  | @union ds e _ ih =>
      obtain ⟨schemas, hds, rfl⟩ := ok_of_map hschema
      obtain ⟨member, hmember, q, hstep, rfl⟩ := Schema.mem_of_union h
      obtain ⟨d, hd, heq⟩ := exists_left_of_mem (Site.forall₂_schemasOf hds) hmember
      have hreads := ih d hd heq hstep
      exact hreads
  | @choice ds e id field _ ih =>
      obtain ⟨schemas, hds, hchoice⟩ := ok_of_bind hschema
      obtain ⟨member, hmember, q, hstep, hvalue⟩ := value_of_choiceOf hchoice h
      obtain ⟨d, hd, heq⟩ := exists_left_of_mem (Site.forall₂_schemasOf hds) hmember
      rw [← hvalue]
      exact ih d hd heq hstep

theorem checkDepth_reads (hbuilt : ∀ {k r}, rs.get? k = some r → s.MadeOf m site k r) (n : Nat) :
    s.ReadsBelow site (checkDepth rs .values n) := by
  induction n with
  | zero => exact fun _ _ _ _ _ _ _ h => by cases h
  | succ n ih => exact fun _ _ _ _ _ hd hschema h => step_reads hbuilt ih hd hschema h

end Spec

end BotApi
