import BotApi.Proofs.Values.Checked
/-!
What is kept of a value by every check. A relation that holds of a value and what is made of it by the types that
are described in no further way, and that passes from items and entries to containers, holds throughout.
-/

namespace BotApi

open Schema (Passed Records Score Verdict checkDepth checkField checkRecord)

namespace Draft

structure Site.Takes (site : Site) (descend : Schema → Value → Verdict) (f : Field) (e : Value × Value)
    (u : String × Passed) : Prop where
  key : e.1 = .str f.wire ∨ e.1 = .str f.name
  name : u.1 = f.wire
  passed : ∃ schema, site.schemaOf f.draft = .ok schema ∧ descend (Site.fieldSchema f schema).schema e.2 = .ok u.2

variable {site : Site} {descend : Schema → Value → Verdict} {es : Entries} {fs : List Field} {f : Field}

theorem find?_fieldSchema {schema : Schema} {x : String × Value} (h : (Site.fieldSchema f schema).find? es = some x) :
    es.getText? x.1 = some x.2 ∧ (x.1 = f.wire ∨ x.1 = f.name) := by
  unfold Schema.Field.find? Site.fieldSchema at h
  dsimp only at h
  split at h
  next v hv =>
    cases h
    exact ⟨hv, .inl rfl⟩
  next =>
    obtain ⟨v, hv, rfl⟩ := Option.map_eq_some_iff.1 h
    exact ⟨hv, .inr rfl⟩

theorem Site.Takes.of_checkField {schema : Schema} {part : Option (String × Passed)}
    (hschema : site.schemaOf f.draft = .ok schema) (h : checkField descend es (Site.fieldSchema f schema) = .ok part) :
    (∀ x, (Site.fieldSchema f schema).find? es = some x →
      ∃ q, part = some (x.1, q) ∧ site.Takes descend f (.str x.1, x.2) (f.wire, q)) ∧
    ((Site.fieldSchema f schema).find? es = none → part = none) := by
  unfold checkField at h
  split at h
  next name v hfind =>
    obtain ⟨q, hq, rfl⟩ := Schema.map_eq_ok.1 h
    refine ⟨fun x hx => ?_, by simp [hfind]⟩
    cases hfind.symm.trans hx
    refine ⟨q, rfl, ?_, rfl, schema, hschema, Schema.under_eq_ok.1 hq⟩
    exact (find?_fieldSchema hfind).2.imp (congrArg _) (congrArg _)
  next hfind =>
    refine ⟨by simp [hfind], fun _ => ?_⟩
    split at h
    · cases h
    · cases h
      rfl

theorem Site.Takes.null_or {rs : Records} {n : Nat} {e : Value × Value} {u : String × Passed}
    (h : site.Takes (checkDepth rs .values n) f e u) : e.2 = .null ∧ u.2 = ⟨.of .exact, .null⟩ ∨
      ∃ schema, site.schemaOf f.draft = .ok schema ∧ checkDepth rs .values n schema e.2 = .ok u.2 := by
  obtain ⟨schema, hschema, hcheck⟩ := h.passed
  unfold Site.fieldSchema at hcheck
  dsimp only at hcheck
  split at hcheck
  · exact .inr ⟨schema, hschema, hcheck⟩
  · rcases Schema.checkDepth_optional hcheck with ⟨hnull, hu⟩ | ⟨-, hcheck⟩
    · refine .inl ⟨?_, hu⟩
      cases hv : e.2 with
      | null => rfl
      | _ =>
          rw [hv] at hnull
          cases hnull
    · exact .inr ⟨schema, hschema, hcheck⟩

theorem Site.exists_taken {gs : List Schema.Field} {parts : List (Option (String × Passed))}
    (hgs : List.Forall₂ (fun f g => ∃ schema, site.schemaOf f.draft = .ok schema ∧
      g = Site.fieldSchema f schema) fs gs)
    (hparts : List.Forall₂ (fun g part => checkField descend es g = .ok part) gs parts) :
    ∃ us : List (String × Passed),
      ((gs.zip parts).filterMap fun x => Schema.fieldResult x.1 x.2) = us.map (fun u => (u.1, u.2.value)) ∧
      (∀ u ∈ us, ∃ f ∈ fs, ∃ e ∈ es, site.Takes descend f e u) ∧
      ∀ g ∈ gs, ∀ x, g.find? es = some x → ∃ f ∈ fs, ∃ u ∈ us, site.Takes descend f (.str x.1, x.2) u := by
  induction hgs generalizing parts with
  | nil =>
      cases hparts
      exact ⟨[], rfl, by simp, by simp⟩
  | @cons f g fs gs hg _ ih =>
      cases hparts with
      | @cons _ part _ parts hpart hparts =>
          obtain ⟨schema, hschema, rfl⟩ := hg
          obtain ⟨us, hvalues, hback, hforth⟩ := ih hparts
          obtain ⟨hsome, hnone⟩ := Takes.of_checkField hschema hpart
          rw [List.zip_cons_cons, List.filterMap_cons, hvalues]
          have hback' : ∀ u ∈ us, ∃ f' ∈ f :: fs, ∃ e ∈ es, site.Takes descend f' e u := fun u hu =>
            (hback u hu).imp fun f' hf' => ⟨List.mem_cons_of_mem _ hf'.1, hf'.2⟩
          cases hfind : (Site.fieldSchema f schema).find? es with
          | none =>
              cases hnone hfind
              refine ⟨us, rfl, hback', List.forall_mem_cons.2 ⟨by simp [hfind], fun g hg x hx => ?_⟩⟩
              exact (hforth g hg x hx).imp fun f' hf' => ⟨List.mem_cons_of_mem _ hf'.1, hf'.2⟩
          | some x =>
              obtain ⟨q, rfl, htakes⟩ := hsome x hfind
              have hmem : (.str x.1, x.2) ∈ es := Entries.mem_of_getText? (find?_fieldSchema hfind).1
              refine ⟨(f.wire, q) :: us, rfl, List.forall_mem_cons.2
                ⟨⟨f, List.mem_cons_self, _, hmem, htakes⟩, hback'⟩, List.forall_mem_cons.2 ⟨fun x' hx' => ?_, ?_⟩⟩
              · cases hfind.symm.trans hx'
                exact ⟨f, List.mem_cons_self, _, List.mem_cons_self, htakes⟩
              · intro g hg x' hx'
                obtain ⟨f', hf', u, hu, htakes'⟩ := hforth g hg x' hx'
                exact ⟨f', List.mem_cons_of_mem _ hf', u, List.mem_cons_of_mem _ hu, htakes'⟩

theorem Site.Made.taken {r : Schema.Record} {v : Value} {p : Passed} (hmade : site.Made fs r)
    (h : checkRecord .values descend r v = .ok p) : ∃ (es : Entries) (us : List (String × Passed)), v = .dict es ∧
      p.value = .record r.name (us.map fun u => (u.1, u.2.value)) ∧
      (∀ u ∈ us, ∃ f ∈ fs, ∃ e ∈ es, site.Takes descend f e u) ∧
      ((es.map (·.1)).Nodup → ∀ e ∈ es, ∃ f ∈ fs, ∃ u ∈ us, site.Takes descend f e u) := by
  obtain ⟨es, parts, hv, hparts, hstray, rfl⟩ := (Schema.checkRecord_eq_ok hmade.closed hmade.check).1 h
  obtain ⟨us, hvalues, hback, hforth⟩ := Site.exists_taken hmade.fields hparts
  refine ⟨es, us, hv, congrArg _ hvalues, hback, fun hkeys e he => ?_⟩
  obtain ⟨g, hg, x, hx, hkey⟩ := Schema.strayFindings_eq_nil hstray e he
  obtain ⟨f, -, schema, -, rfl⟩ := exists_left_of_mem hmade.fields hg
  have hmem : (.str x.1, e.2) ∈ es := by
    rw [← hkey]
    exact he
  have hget := (Entries.getText?_eq_some hkeys).2 hmem
  obtain rfl : e = (.str x.1, x.2) :=
    Prod.ext hkey (Option.some.inj (hget.symm.trans (find?_fieldSchema hx).1))
  exact hforth _ hg x hx

theorem Site.made_of_build {d : Draft} {rs : Records} {schema : Schema} (hbuild : site.build d = .ok (rs, schema))
    {k : Nat} {r : Schema.Record} (hr : rs.get? k = some r) :
    ∃ origin known fs, site.record? k = some known ∧ site.fieldsOf origin known k = .ok fs ∧ site.Made fs r := by
  have hwithin : site.Within (fun _ => True) fun _ => True := ⟨fun _ _ => trivial, fun _ _ _ _ _ _ _ _ => trivial⟩
  obtain ⟨origin, known, fs, -, -, hknown, hfs, hmade⟩ := Site.build_made hwithin (fun _ _ => trivial) hbuild hr
  exact ⟨origin, known, fs, hknown, hfs, hmade⟩

theorem Site.made_of_check {rs : Records} {key : Nat} {schema : Schema} {v : Value} {p : Passed}
    (hbuild : site.build (.record key) = .ok (rs, schema)) (hcheck : checkDepth rs .values v.depth schema v = .ok p) :
    ∃ origin known fs r n, site.record? key = some known ∧ site.fieldsOf origin known key = .ok fs ∧ site.Made fs r ∧
      checkRecord .values (checkDepth rs .values n) r v = .ok p := by
  obtain ⟨-, -, -, hschema⟩ := Site.build_eq_ok hbuild
  cases hschema
  cases hn : v.depth with
  | zero =>
      rw [hn] at hcheck
      cases hcheck
  | succ n =>
      rw [hn, checkDepth, Schema.step] at hcheck
      split at hcheck
      next r hget =>
        obtain ⟨origin, known, fs, hknown, hfs, hmade⟩ := Site.made_of_build hbuild hget
        exact ⟨origin, known, fs, r, n, hknown, hfs, hmade, Schema.under_eq_ok.1 hcheck⟩
      next => cases hcheck

-- A relation between values and what is made of them that passes from the parts of a value to the whole, whatever
-- the score of the whole.
structure Carries (Q : Value → Passed → Prop) : Prop where
  basic {b : BasicType} {rs : Records} {descend : Schema → Value → Verdict} {v : Value} {p : Passed} :
    Schema.step rs .values descend b.schema v = .ok p → Q v p
  literal (t : String) : Q (.str t) ⟨.of .exact, .str t⟩
  null : Q .null ⟨.of .exact, .null⟩
  list {xs : List Value} {ps : List Passed} (score : Score) : List.Forall₂ Q xs ps →
    Q (.list xs) ⟨score, .list (ps.map (·.value))⟩
  tuple {xs : List Value} {ps : List Passed} (score : Score) : List.Forall₂ Q xs ps →
    Q (.tuple xs) ⟨score, .list (ps.map (·.value))⟩
  record {es : Entries} {name : String} {us : List (String × Passed)} {p : Passed} :
    (∀ u ∈ us, ∃ e ∈ es, Q e.2 u.2) → p.value = .record name (us.map fun u => (u.1, u.2.value)) → Q (.dict es) p
  picked {v : Value} {p : Passed} : Q v p → Q v p.picked
  after {v : Value} {p : Passed} (left : Score) : Q v p → Q v (p.after left)

namespace Carries

variable {Q : Value → Passed → Prop} {rs : Records} {n : Nat}

def At (Q : Value → Passed → Prop) (site : Site) (check : Schema → Value → Verdict) (d : Draft) : Prop :=
  ∀ schema v p, site.schemaOf d = .ok schema → check schema v = .ok p → Q v p

theorem of_takes (hQ : Carries Q) (hbelow : ∀ d, At Q site (checkDepth rs .values n) d) {e : Value × Value}
    {u : String × Passed} (h : site.Takes (checkDepth rs .values n) f e u) : Q e.2 u.2 := by
  rcases h.null_or with ⟨hnull, hu⟩ | ⟨schema, hschema, hcheck⟩
  · rw [hnull, hu]
    exact hQ.null
  · exact hbelow f.draft _ _ _ hschema hcheck

mutual
theorem step (hQ : Carries Q) (hmade : ∀ {k r}, rs.get? k = some r → ∃ fs, site.Made fs r)
    (hbelow : ∀ d, At Q site (checkDepth rs .values n) d) :
    ∀ d, At Q site (Schema.step rs .values (checkDepth rs .values n)) d
  | .basic b, _, _, _, hschema, h => by
      cases hschema
      exact hQ.basic h
  | .literal t, _, _, _, hschema, h => by
      cases hschema
      obtain ⟨rfl, rfl⟩ := Schema.eq_of_checkDepth_onlyText (n := n + 1) h
      exact hQ.literal t
  | .named _, _, _, _, hschema, _ => by cases hschema
  | .record k, _, _, _, hschema, h => by
      cases hschema
      rw [Schema.step] at h
      split at h
      next r hget =>
        obtain ⟨fs, hr⟩ := hmade hget
        obtain ⟨es, us, rfl, hvalue, hback, -⟩ := hr.taken (Schema.under_eq_ok.1 h)
        refine hQ.record (fun u hu => ?_) hvalue
        obtain ⟨f, -, e, he, htakes⟩ := hback u hu
        exact ⟨e, he, hQ.of_takes hbelow htakes⟩
      next => cases h
  | .array d, _, _, _, hschema, h => by
      obtain ⟨item, hitem, rfl⟩ := ok_of_map hschema
      rw [Schema.step, Schema.checkArray_eq_ok] at h
      obtain ⟨xs, ps, g, hv, hps, rfl⟩ := h
      have hitems : List.Forall₂ Q xs ps := hps.imp fun _ _ hx => hbelow d _ _ _ hitem hx
      rcases hv with ⟨rfl, rfl⟩ | ⟨rfl, rfl⟩
      · exact hQ.list _ hitems
      · exact hQ.tuple _ hitems
  | .union ds, _, _, _, hschema, h => by
      obtain ⟨schemas, hschemas, rfl⟩ := ok_of_map hschema
      obtain ⟨o, ho, q, hstep, rfl⟩ := Schema.mem_of_union h
      obtain ⟨d, hd, heq⟩ := exists_left_of_mem (Site.forall₂_schemasOf hschemas) ho
      exact hQ.picked (steps hQ hmade hbelow ds d hd _ _ _ heq hstep)
  | .choice _ _ ds, _, _, _, hschema, h => by
      obtain ⟨schemas, hschemas, hchoice⟩ := ok_of_bind hschema
      obtain ⟨o, ho, q, hstep, hq⟩ := Spec.exists_of_choiceOf hchoice h
      obtain ⟨d, hd, heq⟩ := exists_left_of_mem (Site.forall₂_schemasOf hschemas) ho
      have hmember := steps hQ hmade hbelow ds d hd _ _ _ heq hstep
      rcases hq with rfl | ⟨left, rfl⟩
      · exact hmember
      · exact hQ.after left hmember
theorem steps (hQ : Carries Q) (hmade : ∀ {k r}, rs.get? k = some r → ∃ fs, site.Made fs r)
    (hbelow : ∀ d, At Q site (checkDepth rs .values n) d) :
    ∀ ds : List Draft, ∀ d ∈ ds, At Q site (Schema.step rs .values (checkDepth rs .values n)) d
  | [] => by simp
  | d :: ds => List.forall_mem_cons.2 ⟨step hQ hmade hbelow d, steps hQ hmade hbelow ds⟩
end

theorem checkDepth (hQ : Carries Q) (hmade : ∀ {k r}, rs.get? k = some r → ∃ fs, site.Made fs r) (n : Nat) (d : Draft) :
    At Q site (Schema.checkDepth rs .values n) d := by
  induction n generalizing d with
  | zero => exact fun _ _ _ _ h => by cases h
  | succ n ih => exact fun _ _ _ hschema h => step hQ hmade ih d _ _ _ hschema h

end Carries

end Draft

end BotApi
