import BotApi.Proofs.Draft.Final
import BotApi.Proofs.Draft.History
import BotApi.Proofs.Draft.Rebuilt
import BotApi.Proofs.Schema.Accepted
import BotApi.Proofs.Values.Entries
import BotApi.Proofs.Values.Options
/-!
A supertype that tells its subtypes apart by a field checks a value as if they were tried in turn: no two of
them accept it, and what the one makes of it is what the supertype makes of it.
-/

namespace BotApi

open Catalog (attributeName)
open Draft (Site)
open Schema (Records Source Passed checkDepth tagOf?)

namespace Schema

variable {rs : Records} {source : Source} {n : Nat} {es : Entries} {g : Field} {text : String}

theorem find?_cases {x : String × Value} (h : g.find? es = some x) :
    x.1 = g.wire ∧ es.getText? g.wire = some x.2 ∨
      x.1 = g.name ∧ es.getText? g.wire = none ∧ es.getText? g.name = some x.2 := by
  unfold Field.find? at h
  cases hwire : es.getText? g.wire with
  | some v =>
      rw [hwire] at h
      cases h
      exact .inl ⟨rfl, rfl⟩
  | none =>
      rw [hwire] at h
      obtain ⟨v, hv, rfl⟩ := Option.map_eq_some_iff.1 h
      exact .inr ⟨rfl, rfl, hv⟩

theorem tagOf?_readers {x : String × Value} (hname : g.name = attributeName g.wire)
    (hfind : g.find? es = some x)
    (hone : attributeName g.wire ≠ g.wire → (∃ v, es.getText? g.wire = some v) →
      es.getText? (attributeName g.wire) = none) :
    tagOf? (Site.readers g.wire) es = some x.2 := by
  rw [tagOf?, Site.readers]
  by_cases hsame : attributeName g.wire = g.wire
  · rcases find?_cases hfind with ⟨-, hwire⟩ | ⟨-, hwire, hattr⟩
    · simp [hsame, hwire]
    · rw [hname, hsame, hwire] at hattr
      cases hattr
  · rcases find?_cases hfind with ⟨-, hwire⟩ | ⟨-, -, hattr⟩
    · simp [hsame, hone hsame ⟨_, hwire⟩, hwire]
    · rw [hname] at hattr
      simp [hsame, hattr]

end Schema

namespace Draft.Site

open Schema (Verdict checkField strayFindings)
variable {site : Site} {rs : Records} {source : Source} {n : Nat} {r : Record} {R : Schema.Record}
  {es : Entries} {v : Value} {p : Passed} {f text : String}

theorem fieldSchema_of_literal {g : Field} {s : Schema} (hrequired : g.required = true)
    (hdraft : g.draft = .literal text) (hs : site.schemaOf g.draft = .ok s) :
    fieldSchema g s = ⟨g.name, g.wire, .onlyText [text], true, none⟩ := by
  rw [hdraft] at hs
  cases hs
  rw [fieldSchema, hrequired, if_pos rfl]

theorem find?_of_checkField {g : Schema.Field} {x : Option (String × Passed)} (hrequired : g.required = true)
    (hschema : g.schema = .onlyText [text]) (h : checkField (checkDepth rs source n) es g = .ok x) :
    ∃ name, g.find? es = some (name, .str text) := by
  unfold checkField at h
  split at h
  · rename_i name v hfind
    obtain ⟨q, hq, -⟩ := Schema.map_eq_ok.1 h
    rw [Schema.under_eq_ok, hschema] at hq
    obtain ⟨rfl, -⟩ := Schema.eq_of_checkDepth_onlyText hq
    exact ⟨name, hfind⟩
  · rw [hrequired] at h
    cases h

-- What is given by the wire name of the field is not given by its attribute name as well.
theorem getText?_of_strayFindings (hto : site.BuildsTo r R) (htag : Tagged r.fields f text)
    (hstray : strayFindings R es = []) (hne : attributeName f ≠ f) (hf : ∃ v, es.getText? f = some v) :
    es.getText? (attributeName f) = none := by
  obtain ⟨w, hw⟩ := hf
  obtain ⟨g, hg, rfl, -⟩ := htag.tag
  refine Entries.getText?_eq_none fun v hv => ?_
  obtain ⟨G, hG, x, hfind, hx⟩ := Schema.strayFindings_eq_nil hstray _ hv
  obtain ⟨g', hg', s, -, rfl⟩ := exists_left_of_mem hto.fields hG
  have hkey : attributeName g.wire = x.1 := Value.str.inj hx
  rcases Schema.find?_cases hfind with ⟨hwire, -⟩ | ⟨hname, hnone, -⟩
  · have hwire : x.1 = g'.wire := hwire
    obtain rfl : g' = g := htag.eq_of_wire hg' hg (by
      rw [← hwire, ← hkey, Catalog.attributeName_attributeName])
    exact hne (hkey.trans hwire)
  · have hname : x.1 = g'.name := hname
    obtain rfl : g' = g := htag.eq_of_wire hg' hg (by rw [← htag.names g' hg', ← hname, hkey])
    cases hw.symm.trans hnone

theorem BuildsTo.reads_tag (hto : site.BuildsTo r R) (htag : Tagged r.fields f text)
    (h : Schema.checkRecord source (checkDepth rs source n) R v = .ok p) : ∃ es fields, v = .dict es ∧
      tagOf? (readers f) es = some (.str text) ∧ p.value = .record r.name fields := by
  obtain ⟨es, parts, rfl, hparts, hstray, rfl⟩ := (Schema.checkRecord_eq_ok hto.closed hto.check).1 h
  obtain ⟨g, hg, hwire, hrequired, hdraft⟩ := htag.tag
  obtain ⟨G, hG, s, hs, rfl⟩ := exists_right_of_mem hto.fields hg
  obtain ⟨x, -, hx⟩ := exists_right_of_mem hparts hG
  rw [fieldSchema_of_literal hrequired hdraft hs] at hx
  obtain ⟨name, hfind⟩ := find?_of_checkField rfl rfl hx
  have hone := getText?_of_strayFindings hto htag hstray
  subst hwire
  have htagged := Schema.tagOf?_readers (htag.names g hg) hfind hone
  exact ⟨es, _, rfl, htagged, by rw [← hto.name]⟩

end Draft.Site

namespace Schema

variable {rs : Records} {source : Source} {n : Nat} {v : Value} {p : Passed}

theorem checkDepth_tagged_iff {readers : List String} {cs : List (String × Schema)} {ks : List Nat}
    {text : Nat → String} (hcs : ∀ {c}, c ∈ cs ↔ ∃ k ∈ ks, c = (text k, .record k))
    (htext : ∀ k ∈ ks, ∀ k' ∈ ks, text k = text k' → k = k')
    (hreads : ∀ k ∈ ks, ∀ p, checkDepth rs source n (.record k) v = .ok p →
      ∃ es, v = .dict es ∧ tagOf? readers es = some (.str (text k))) :
    checkDepth rs source n (.tagged readers cs) v = .ok p ↔
      ∃ k ∈ ks, checkDepth rs source n (.record k) v = .ok p := by
  constructor
  · intro h
    cases n with
    | zero => cases h
    | succ n =>
        rw [checkDepth] at h
        cases v with
        | dict es =>
            rw [step] at h
            split at h
            · cases h
            · split at h
              · rename_i hchoose
                obtain ⟨c, hc, hstep⟩ := exists_of_choose (hchoose.trans (congrArg some h))
                obtain ⟨k, hk, rfl⟩ := hcs.1 hc
                exact ⟨k, hk, hstep⟩
              · cases h
        | _ =>
            simp only [step] at h
            split at h <;> cases h
  · rintro ⟨k, hk, h⟩
    obtain ⟨es, rfl, htag⟩ := hreads k hk p h
    have hmem : (text k, .record k) ∈ cs := hcs.2 ⟨k, hk, rfl⟩
    have hsome : (cs.find? fun c => (Value.str (text k)).str? = some c.1).isSome = true :=
      List.find?_isSome.2 ⟨_, hmem, by simp [Value.str?]⟩
    obtain ⟨c, hc⟩ := Option.isSome_iff_exists.1 hsome
    obtain ⟨k', hk', rfl⟩ := hcs.1 (List.mem_of_find?_eq_some hc)
    have htexts : text k = text k' := by simpa [Value.str?] using List.find?_some hc
    obtain rfl := htext k hk k' hk' htexts
    exact (checkDepth_tagged_eq_ok (c := (text k, .record k)) htag hc).2 h

end Schema

def Work.validator (id : String) : Work (Records × Schema) := do
  let d ← draft id
  MonadExcept.ofExcept (((← get).site.build d).mapError Draft.Obstacle.error)

namespace Compiler

variable {s : Spec} {c : Compiler} {id i f text : String} {t : ApiType} {ids : List String} {k : Nat}
  {d : Draft} {rs : Records} {schema : Schema} {v u : Value}

def Accepts (c : Compiler) (id : String) (v u : Value) : Prop := ((Work.validate id v).run c).1 = .ok u

structure Tries (s : Spec) (c : Compiler) (id : String) (ids : List String) (v : Value) : Prop where
  compiles : ∀ i ∈ ids, ((Work.validator i).run c).1.isOk = true
  single : ∀ i ∈ ids, ∀ j ∈ ids, ∀ u w, c.Accepts i v u → c.Accepts j v w → i = j
  accepts : ∀ u, c.Accepts id v u ↔ ∃ i ∈ ids, c.Accepts i v u
  model : ∀ i ∈ ids, ∀ u, c.Accepts i v u → ∃ name fields, s.typeName? i = some name ∧ u = .record name fields

theorem run_draft (h : c.draft? id = some d) : (Work.draft id).run c = (.ok d, c) := by
  rw [Work.draft, Work.run_bind]
  exact run_settled h _

theorem run_validator (h : c.draft? id = some d) (hbuild : c.site.build d = .ok (rs, schema)) :
    (Work.validator id).run c = (.ok (rs, schema), c) := by
  rw [Work.validator, Work.run_bind, run_draft h]
  dsimp only
  rw [Work.run_get, Work.run_ofExcept, hbuild]
  rfl

theorem accepts_iff (h : c.draft? id = some d) (hbuild : c.site.build d = .ok (rs, schema)) :
    c.Accepts id v u ↔ ∃ p, checkDepth rs .values v.depth schema v = .ok p ∧ p.value = u := by
  rw [Accepts, Work.validate, Work.run_bind, run_draft h]
  dsimp only
  rw [run_check, check, Draft.checkBuilt_eq_ok]
  simp [hbuild]

theorem recordAt_of_labels (hl : s.Labels f i text) (hfile : s.typeName? i ≠ some inputFileName) :
    ∃ k, s.RecordAt i k := by
  obtain ⟨u, p, hu, hsuper, hp, -⟩ := hl.field
  obtain ⟨k, he⟩ := Spec.entry_of_type? hu
  have hname : u.name ≠ inputFileName := fun hname => hfile (by rw [Spec.typeName?, hu, Option.map_some, hname])
  have hmem : p ∈ u.fields := List.mem_of_find?_eq_some hp
  cases hshape : u.shape with
  | subtypes ids => simp [ApiType.isSupertype, ApiType.subtypes?, hshape] at hsuper
  | fields ps =>
      rw [ApiType.fields, hshape] at hmem
      exact ⟨k, u, ps, he, hname, hshape, List.ne_nil_of_mem hmem⟩

theorem Kept.tagged (h : Kept s c) (apart : s.Apart) (hl : s.Labels f i text) (hk : s.RecordAt i k)
    {r : Draft.Record} (hr : c.site.record? k = some r) :
    s.typeName? i = some r.name ∧ Draft.Tagged r.fields f text := by
  obtain ⟨t, ps, hrecord⟩ := hk
  obtain ⟨i', t', ps', hrecord', hname, hfields⟩ := h.record hr
  obtain rfl : i' = i := Spec.id_eq_of_key hrecord'.entry hrecord.entry
  cases hrecord'.entry.symm.trans hrecord.entry
  cases hrecord'.shape.symm.trans hrecord.shape
  obtain ⟨u, p, hu, -, hp, hrequired, hvalue⟩ := hl.field
  have htype := Spec.type?_of_entry hrecord.entry
  cases htype.symm.trans hu
  refine ⟨by rw [Spec.typeName?, htype, hname, Option.map_some], ⟨?_, fun g hg => ?_, ?_⟩⟩
  · have hmem : p ∈ ps := by
      have hmem := List.mem_of_find?_eq_some hp
      rwa [ApiType.fields, hrecord.shape] at hmem
    have hpname : p.name = f := by simpa using List.find?_some hp
    obtain ⟨g, hg, hmarks⟩ := exists_right_of_mem hfields hmem
    refine ⟨g, hg, hmarks.wire.trans hpname, hmarks.required.trans hrequired, ?_⟩
    rw [hmarks.literal (hpname ▸ hl.apart), hvalue, Option.getD_some]
  · obtain ⟨p', -, hmarks⟩ := exists_left_of_mem hfields hg
    rw [hmarks.name, hmarks.wire]
  · have hnames : r.fields.map (·.name) = ps.map (attributeName ·.name) := by
      have hsame := hfields.imp fun p g hmarks => hmarks.name
      rw [← List.forall₂_eq_eq_eq, List.forall₂_map_left_iff, List.forall₂_map_right_iff]
      exact hsame.flip
    rw [hnames]
    exact hrecord.apart apart

structure Sorts (s : Spec) (c : Compiler) (f id : String) (ids : List String) (rs : Records) (schema : Schema) :
    Prop where
  kept : Kept s c
  closed : ∀ {k r}, c.site.record? k = some r → r.complete = true
  stored : ∃ ks, List.Forall₂ s.RecordAt ids ks ∧ c.draft? id = some (.choice id (some f) (Draft.distinct (ks.map .record)))
  members : ∀ i ∈ ids, ∀ k, s.RecordAt i k → c.draft? i = some (.record k)
  built : ∀ d, c.draft? id = some d → c.site.build d = .ok (rs, schema)

theorem sorts_of_compiles (apart : s.Apart) (ht : s.type? id = some t) (hname : t.name ≠ inputFileName)
    (hshape : t.shape = .subtypes ids) (hf : s.discriminantOf t = some f) (hlen : 2 ≤ ids.length)
    {ks : List Nat} (hks : List.Forall₂ s.RecordAt ids ks)
    (hrun : (Work.validator id).run (.new s) = (.ok (rs, schema), c)) : Sorts s c f id ids rs schema := by
  obtain ⟨key, he⟩ := Spec.entry_of_type? ht
  have hchoice : s.ChoiceOf id ids ks := ⟨⟨t, key, he, hname, hshape⟩, hks⟩
  have hgives := draft_choice apart hchoice
  rw [Work.validator, Work.run_bind] at hrun
  unfold Work.Gives at hgives
  rcases hdraft : (Work.draft id).run (.new s) with ⟨e | d, c'⟩
  · rw [hdraft] at hrun
    cases hrun
  · rw [hdraft] at hrun hgives
    obtain ⟨kept, hopen, hd, hstored, hbased⟩ := hgives
    have hbuild : c'.site.build d = .ok (rs, schema) ∧ c' = c := by
      dsimp only at hrun
      rw [Work.run_get, Work.run_ofExcept] at hrun
      cases hbuilt : c'.site.build d with
      | ok r =>
          rw [hbuilt] at hrun
          cases hrun
          exact ⟨rfl, rfl⟩
      | error o =>
          rw [hbuilt] at hrun
          cases hrun
    obtain ⟨hbuild, rfl⟩ := hbuild
    refine ⟨kept, fun {k r} hr => ?_, ⟨ks, hks, ?_⟩, hbased ids ks hchoice, fun e he => ?_⟩
    · cases hdone : r.complete with
      | true => rfl
      | false => exact absurd ⟨r, hr, hdone⟩ (hopen k)
    · rw [hstored, hd, Spec.discriminant?_of_type? ht hf]
      rw [hks.length_eq] at hlen
      rcases ks with _ | ⟨k, _ | ⟨k', ks⟩⟩
      · simp at hlen
      · simp at hlen
      · rfl
    · cases hstored.symm.trans he
      exact hbuild

namespace Sorts

variable {texts : List String}

structure Member (s : Spec) (c : Compiler) (f : String) (rs : Records) (i : String) (k : Nat) (text : String)
    (r : Draft.Record) (R : Schema.Record) : Prop where
  label : s.Labels f i text
  name : s.typeName? i = some r.name
  fields : Draft.Tagged r.fields f text
  record : c.site.record? k = some r
  get : rs.get? k = some R
  builds : c.site.BuildsTo r R

theorem member (h : Sorts s c f id ids rs schema) (apart : s.Apart) (htexts : List.Forall₂ (s.Labels f) ids texts)
    (hi : i ∈ ids) (hk : s.RecordAt i k) : ∃ text r R, Member s c f rs i k text r R := by
  obtain ⟨ks, hks, hstored⟩ := h.stored
  have hbuild := h.built _ hstored
  obtain ⟨k', hk', hr⟩ := exists_right_of_mem hks hi
  obtain rfl := Spec.RecordAt.key_eq hr hk
  obtain ⟨text, -, hl⟩ := exists_right_of_mem htexts hi
  obtain ⟨-, -, -, hschema⟩ := Site.build_eq_ok hbuild
  obtain ⟨ts, ss, -, hts, -⟩ := Site.schemaOf_choice_eq_ok hschema
  have hmem : Draft.record k' ∈ Draft.distinct (ks.map .record) :=
    Draft.mem_distinct.2 (List.mem_map_of_mem hk')
  obtain ⟨t, -, ht⟩ := exists_right_of_mem hts hmem
  cases hrecord : c.site.record? k' with
  | none => simp [Site.tagText?, hrecord] at ht
  | some r =>
      have hkeys : k' ∈ (Draft.choice id (some f) (Draft.distinct (ks.map .record))).keys :=
        Draft.mem_keys.2 (Draft.mem_leaves_choice.2 ⟨.record k', List.mem_map_of_mem hk', by simp [Draft.leaves]⟩)
      obtain ⟨R, hR⟩ := (Site.build_complete h.closed hbuild).entry k' hkeys (by simp [hrecord])
      obtain ⟨r', hr', hto⟩ := Site.build_builds h.closed hbuild hR
      cases hrecord.symm.trans hr'
      obtain ⟨hname, hfields⟩ := h.kept.tagged apart hl hk hrecord
      exact ⟨text, r, R, hl, hname, hfields, hrecord, hR, hto⟩

theorem Member.reads {text : String} {r : Draft.Record} {R : Schema.Record} (hm : Member s c f rs i k text r R)
    {n : Nat} {p : Passed} (h : checkDepth rs .values n (.record k) v = .ok p) : ∃ es fields, v = .dict es ∧
      tagOf? (Site.readers f) es = some (.str text) ∧ p.value = .record r.name fields := by
  cases n with
  | zero => cases h
  | succ n =>
      rw [checkDepth, Schema.step, hm.get] at h
      exact hm.builds.reads_tag hm.fields (Schema.under_eq_ok.1 h)

theorem accepts_member (h : Sorts s c f id ids rs schema) (hi : i ∈ ids) (hk : s.RecordAt i k) :
    ((Work.validator i).run c).1.isOk = true ∧
      (c.Accepts i v u ↔ ∃ p, checkDepth rs .values v.depth (.record k) v = .ok p ∧ p.value = u) := by
  obtain ⟨ks, hks, hstored⟩ := h.stored
  obtain ⟨k', hk', hr⟩ := exists_right_of_mem hks hi
  obtain rfl := Spec.RecordAt.key_eq hr hk
  have hkeys : ∀ j ∈ (Draft.record k').keys, j ∈ (Draft.choice id (some f) (Draft.distinct (ks.map .record))).keys := by
    intro j hj
    obtain rfl := List.mem_singleton.1 hj
    exact Draft.mem_keys.2 (Draft.mem_leaves_choice.2 ⟨.record j, List.mem_map_of_mem hk', by simp [Draft.leaves]⟩)
  obtain ⟨rs', hbuild, hsame⟩ := Site.build_part h.closed (h.built _ hstored) hkeys rfl
  refine ⟨?_, ?_⟩
  · rw [run_validator (h.members i hi k' hr) hbuild]
    rfl
  · rw [accepts_iff (h.members i hi k' hr) hbuild, hsame _ (Nat.le_refl _)]

theorem exists_record (h : Sorts s c f id ids rs schema) (hi : i ∈ ids) : ∃ k, s.RecordAt i k := by
  obtain ⟨ks, hks, -⟩ := h.stored
  obtain ⟨k, -, hr⟩ := exists_right_of_mem hks hi
  exact ⟨k, hr⟩

theorem eq_of_labels {j : String} (htexts : List.Forall₂ (s.Labels f) ids texts) (hnodup : texts.Nodup) (hi : i ∈ ids)
    (hj : j ∈ ids) (hil : s.Labels f i text) (hjl : s.Labels f j text) : i = j :=
  eq_of_nodup (R := s.Labels f) Spec.Labels.unique htexts hnodup hi hj hil hjl

theorem checks_iff (h : Sorts s c f id ids rs schema) (apart : s.Apart) (htexts : List.Forall₂ (s.Labels f) ids texts)
    (hnodup : texts.Nodup) : ∃ ks, List.Forall₂ s.RecordAt ids ks ∧ ∀ p,
      checkDepth rs .values v.depth schema v = .ok p ↔ ∃ k ∈ ks, checkDepth rs .values v.depth (.record k) v = .ok p := by
  obtain ⟨ks, hks, hstored⟩ := h.stored
  obtain ⟨-, -, -, hschema⟩ := Site.build_eq_ok (h.built _ hstored)
  obtain ⟨ts, ss, rfl, hts, hss⟩ := Site.schemaOf_choice_eq_ok hschema
  let text (k : Nat) : String := (c.site.tagText? f (.record k)).getD ""
  have hmember : ∀ k ∈ ks, ∃ i ∈ ids, s.RecordAt i k ∧ ∃ t r R, Member s c f rs i k t r R ∧
      c.site.tagText? f (.record k) = some t := by
    intro k hk
    obtain ⟨i, hi, hr⟩ := exists_left_of_mem hks hk
    obtain ⟨t, r, R, hm⟩ := h.member apart htexts hi hr
    exact ⟨i, hi, hr, t, r, R, hm, hm.fields.tagText? hm.record⟩
  have hcs {x : String × Schema} : x ∈ ts.zip ss ↔ ∃ k ∈ ks, x = (text k, .record k) := by
    rw [Site.mem_zip_iff (fun h h' => Option.some.inj (h.symm.trans h'))
      (fun h h' => Except.ok.inj (h.symm.trans h')) hts hss]
    constructor
    · rintro ⟨d, hd, ht, hs⟩
      obtain ⟨k, hk, rfl⟩ := List.mem_map.1 (Draft.mem_distinct.1 hd)
      exact ⟨k, hk, Prod.ext (by simp [text, ht]) (Except.ok.inj hs).symm⟩
    · rintro ⟨k, hk, rfl⟩
      obtain ⟨i, hi, hr, t, r, R, hm, htag⟩ := hmember k hk
      exact ⟨.record k, Draft.mem_distinct.2 (List.mem_map_of_mem hk), by simp [text, htag], rfl⟩
  have htext : ∀ k ∈ ks, ∀ k' ∈ ks, text k = text k' → k = k' := by
    intro k hk k' hk' heq
    obtain ⟨i, hi, hr, t, r, R, hm, htag⟩ := hmember k hk
    obtain ⟨i', hi', hr', t', r', R', hm', htag'⟩ := hmember k' hk'
    simp only [text, htag, htag', Option.getD_some] at heq
    obtain rfl := eq_of_labels htexts hnodup hi hi' hm.label (heq ▸ hm'.label)
    exact Spec.RecordAt.key_eq hr hr'
  refine ⟨ks, hks, fun p => Schema.checkDepth_tagged_iff hcs htext fun k hk p hp => ?_⟩
  obtain ⟨i, hi, hr, t, r, R, hm, htag⟩ := hmember k hk
  obtain ⟨es, fields, hv, ht, -⟩ := hm.reads hp
  exact ⟨es, hv, by simp [text, htag, ht]⟩

theorem single {j : String} {w : Value} (h : Sorts s c f id ids rs schema) (apart : s.Apart)
    (htexts : List.Forall₂ (s.Labels f) ids texts) (hnodup : texts.Nodup) (hi : i ∈ ids) (hj : j ∈ ids)
    (hu : c.Accepts i v u) (hw : c.Accepts j v w) : i = j := by
  obtain ⟨k, hr⟩ := h.exists_record hi
  obtain ⟨k', hr'⟩ := h.exists_record hj
  obtain ⟨p, hp, -⟩ := (h.accepts_member hi hr).2.1 hu
  obtain ⟨q, hq, -⟩ := (h.accepts_member hj hr').2.1 hw
  obtain ⟨t, r, R, hm⟩ := h.member apart htexts hi hr
  obtain ⟨t', r', R', hm'⟩ := h.member apart htexts hj hr'
  obtain ⟨es, -, rfl, ht, -⟩ := hm.reads hp
  obtain ⟨es', -, hes, ht', -⟩ := hm'.reads hq
  cases hes
  cases ht.symm.trans ht'
  exact eq_of_labels htexts hnodup hi hj hm.label hm'.label

theorem accepts_choice (h : Sorts s c f id ids rs schema) (apart : s.Apart)
    (htexts : List.Forall₂ (s.Labels f) ids texts) (hnodup : texts.Nodup) :
    c.Accepts id v u ↔ ∃ i ∈ ids, c.Accepts i v u := by
  obtain ⟨_, -, hstored⟩ := h.stored
  obtain ⟨ks, hks, hiff⟩ := h.checks_iff (v := v) apart htexts hnodup
  rw [accepts_iff hstored (h.built _ hstored)]
  constructor
  · rintro ⟨p, hp, rfl⟩
    obtain ⟨k, hk, hp⟩ := (hiff p).1 hp
    obtain ⟨i, hi, hr⟩ := exists_left_of_mem hks hk
    exact ⟨i, hi, (h.accepts_member hi hr).2.2 ⟨p, hp, rfl⟩⟩
  · rintro ⟨i, hi, hu⟩
    obtain ⟨k, hk, hr⟩ := exists_right_of_mem hks hi
    obtain ⟨p, hp, rfl⟩ := (h.accepts_member hi hr).2.1 hu
    exact ⟨p, (hiff p).2 ⟨k, hk, hp⟩, rfl⟩

theorem model_of_accepts (h : Sorts s c f id ids rs schema) (apart : s.Apart)
    (htexts : List.Forall₂ (s.Labels f) ids texts) (hi : i ∈ ids) (hu : c.Accepts i v u) :
    ∃ name fields, s.typeName? i = some name ∧ u = .record name fields := by
  obtain ⟨k, hr⟩ := h.exists_record hi
  obtain ⟨p, hp, rfl⟩ := (h.accepts_member hi hr).2.1 hu
  obtain ⟨t, r, R, hm⟩ := h.member apart htexts hi hr
  obtain ⟨es, fields, -, -, hvalue⟩ := hm.reads hp
  exact ⟨r.name, fields, hm.name, hvalue⟩

theorem tries (h : Sorts s c f id ids rs schema) (apart : s.Apart)
    (htexts : List.Forall₂ (s.Labels f) ids texts) (hnodup : texts.Nodup) (v : Value) : Tries s c id ids v where
  compiles i hi := by
    obtain ⟨k, hr⟩ := h.exists_record hi
    exact (h.accepts_member (v := v) (u := v) hi hr).1
  single i hi j hj u w hu hw := h.single apart htexts hnodup hi hj hu hw
  accepts u := h.accepts_choice apart htexts hnodup
  model i hi u hu := h.model_of_accepts apart htexts hi hu

end Sorts

theorem validated_by_trial (apart : s.Apart) (ht : s.type? id = some t) (hname : t.name ≠ inputFileName)
    (hshape : t.shape = .subtypes ids) (hf : s.discriminantOf t = some f)
    (hfile : ∀ i ∈ ids, s.typeName? i ≠ some inputFileName)
    (compiles : ((Work.validator id).run (.new s)).1.isOk = true) (v : Value) :
    Tries s ((Work.validator id).run (.new s)).2 id ids v := by
  obtain ⟨hlen, texts, htexts, hnodup⟩ := Spec.labels ht hshape hf
  obtain ⟨ks, hks⟩ : ∃ ks, List.Forall₂ s.RecordAt ids ks := exists_forall₂ fun i hi => by
    obtain ⟨text, -, hl⟩ := exists_right_of_mem htexts hi
    exact recordAt_of_labels hl (hfile i hi)
  obtain ⟨⟨rs, schema⟩, c, hrun⟩ := Work.exists_of_isOk compiles
  rw [hrun]
  exact (sorts_of_compiles apart ht hname hshape hf hlen hks hrun).tries apart htexts hnodup v

def literalParam (name text : String) : Param := ⟨name, .basic "String", true, "", some text, false⟩

-- A tag that is read by two names, and a subtype that leads back to the supertype.
namespace Envelopes

def spec : Spec where
  methods := []
  types := [
    ⟨"a", "A", "", .fields [literalParam "from" "a", ⟨"inner", .ref "s", true, "", none, false⟩]⟩,
    ⟨"b", "B", "", .fields [⟨"count", .basic "Integer", false, "", none, false⟩, literalParam "from" "b"]⟩,
    ⟨"s", "S", "", .subtypes ["a", "b"]⟩]

def value : Value :=
  .dict [(.str "from_", .str "a"), (.str "inner", .dict [(.str "from", .str "b"), (.str "count", .str "7")])]

end Envelopes

theorem envelope_by_trial : ((Work.validator "s").run (.new Envelopes.spec)).1.isOk = true ∧
    Tries Envelopes.spec ((Work.validator "s").run (.new Envelopes.spec)).2 "s" ["a", "b"] Envelopes.value := by
  have compiles : ((Work.validator "s").run (.new Envelopes.spec)).1.isOk = true := by decide +kernel
  exact ⟨compiles, validated_by_trial (f := "from") (by unfold Spec.Apart; decide) rfl (by decide) rfl (by decide)
    (by decide) compiles Envelopes.value⟩

structure Refuses (s : Spec) (id : String) (ids : List String) (v : Value) : Prop where
  references : s.checkReferences = .ok ()
  apart : s.Apart
  files : ∀ t ∈ s.types, ∀ i ∈ t.subtypes?.getD [], s.typeName? i ≠ some inputFileName
  discriminant : ∃ t f, s.type? id = some t ∧ t.shape = .subtypes ids ∧ s.discriminantOf t = some f
  accepted : ∃ i ∈ ids, ∃ u, ((Work.validator id).run (.new s)).2.Accepts i v u
  refused : ∀ u, ¬ ((Work.validator id).run (.new s)).2.Accepts id v u

theorem exists_accepts (h : ((Work.validate id v).run c).1.isOk = true) : ∃ u, c.Accepts id v u := by
  obtain ⟨u, c', hrun⟩ := Work.exists_of_isOk h
  exact ⟨u, by rw [Accepts, hrun]⟩

theorem not_accepts (h : ((Work.validate id v).run c).1.isOk = false) (u : Value) : ¬ c.Accepts id v u := by
  intro hu
  rw [hu] at h
  cases h

namespace Underscored

def spec : Spec where
  methods := []
  types := [
    ⟨"a", "A", "", .fields [literalParam "type" "a", ⟨"_x", .basic "Integer", false, "", none, false⟩]⟩,
    ⟨"b", "B", "", .fields [literalParam "type" "b"]⟩,
    ⟨"s", "S", "", .subtypes ["a", "b"]⟩]

end Underscored

namespace Filed

def spec : Spec where
  methods := []
  types := [
    ⟨"a", "A", "", .fields [literalParam "type" "a"]⟩,
    ⟨"b", "B", "", .fields [literalParam "type" "b"]⟩,
    ⟨"s", "InputFile", "", .subtypes ["a", "b"]⟩]

end Filed

theorem refused_unlike_trial :
    Refuses Underscored.spec "s" ["a", "b"] (.dict [(.str "type", .str "b")]) ∧
      Refuses Filed.spec "s" ["a", "b"] (.dict [(.str "type", .str "b")]) where
  left := {
    references := rfl
    apart := by unfold Spec.Apart; decide
    files := by decide
    discriminant := ⟨_, "type", rfl, rfl, by decide⟩
    accepted := ⟨"b", by simp, exists_accepts (by decide +kernel)⟩
    refused := not_accepts (by decide +kernel) }
  right := {
    references := rfl
    apart := by unfold Spec.Apart; decide
    files := by decide
    discriminant := ⟨_, "type", rfl, rfl, by decide⟩
    accepted := ⟨"b", by simp, exists_accepts (by decide +kernel)⟩
    refused := not_accepts (by decide +kernel) }

end Compiler

end BotApi
