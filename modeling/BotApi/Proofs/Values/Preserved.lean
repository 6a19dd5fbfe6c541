import BotApi.Proofs.Values.Alike
import BotApi.Proofs.Values.Taken
/-!
Data of the documented form goes on the wire as it is. Wherever the documentation leaves a choice, that takes
that no way to read the data that changes it is preferred to one that keeps it.
-/

namespace BotApi

open Compiler (Use)
open Draft (FieldOf Site)
open Schema (Passed Records Verdict Settled checkDepth checkRecord isFile)

def Value.Keeps (v : Value) (q : Passed) : Prop := q.value.plainData.Alike v

namespace Spec

-- What the options make of a value is given up, where it changes the value, for what keeps it. Which option is listed
-- first matters where neither is better.
def Favors (s : Spec) (e : TypeExpr) (v : Value) : Prop :=
  e.choices.Pairwise fun a b => ∀ q r, s.Gives a v q → s.Gives b v r → Settled v.Keeps q r

mutual
-- Values that conform, for which the choices on the way are clear: subtypes that are tried first keep the value if
-- they take it, and among the options of a union those that keep it are favored.
inductive Preserves (s : Spec) : TypeExpr → Value → Prop
  | basic {n : String} {w : Value} (admits : (BasicType.ofName n).Admits w) : Preserves s (.basic n) w
  | bare {id : String} {t : ApiType} {key : Nat} {w : Value} (entry : s.typeEntry? id = some (t, key))
      (name : t.name ≠ inputFileName) (shape : t.shape = .fields []) : Preserves s (.ref id) w
  | record {id : String} {t : ApiType} {key : Nat} {ps : List Param} {es : Entries}
      (record : s.RecordOf id t key ps) (complete : es.Complete ps)
      (each : ∀ p ∈ ps, ∀ w, (.str p.name, w) ∈ es → PreservesField s (s.tellsApart id) p w) :
      Preserves s (.ref id) (.dict es)
  | told {id i f : String} {t : ApiType} {key : Nat} {ids : List String} {w : Value}
      (entry : s.typeEntry? id = some (t, key)) (name : t.name ≠ inputFileName)
      (shape : t.shape = .subtypes ids) (mem : i ∈ ids) (told : s.discriminant? id = some f)
      (preserves : Preserves s (.ref i) w) : Preserves s (.ref id) w
  | tried {id i : String} {t : ApiType} {key : Nat} {before after : List String} {w : Value}
      (entry : s.typeEntry? id = some (t, key)) (name : t.name ≠ inputFileName)
      (shape : t.shape = .subtypes (before ++ i :: after)) (untold : s.discriminant? id = none)
      (earlier : ∀ j ∈ before, ∀ q, s.Gives (.ref j) w q → w.Keeps q)
      (preserves : Preserves s (.ref i) w) : Preserves s (.ref id) w
  | array {e : TypeExpr} {ws : List Value} (each : ∀ w ∈ ws, Preserves s e w) : Preserves s (.array e) (.list ws)
  | option {e : TypeExpr} {es : List TypeExpr} {w : Value} (mem : e ∈ es) (favors : s.Favors (.union es) w)
      (preserves : Preserves s e w) : Preserves s (.union es) w
inductive PreservesField (s : Spec) : (String → Bool) → Param → Value → Prop
  | null {fixed : String → Bool} {p : Param} (optional : p.required = false) : PreservesField s fixed p .null
  | fixed {fixed : String → Bool} {p : Param} (holds : fixed p.name = true) :
      PreservesField s fixed p (.str p.fixedText)
  | typed {fixed : String → Bool} {p : Param} {w : Value} (free : fixed p.name = false)
      (preserves : Preserves s p.type w) : PreservesField s fixed p w
end

variable {s : Spec}

mutual
theorem Preserves.conforms : ∀ {e : TypeExpr} {w : Value}, s.Preserves e w → s.Conforms s.tellsApart e w
  | _, _, .basic hadmits => .basic hadmits
  | _, _, .bare hentry hname hshape => .bare hentry hname hshape
  | _, _, .record hr hcomplete heach => .record hr hcomplete fun p hp w hw => (heach p hp w hw).conforms
  | _, _, .told hentry hname hshape hmem _ h => .subtype hentry hname hshape hmem h.conforms
  | _, _, .tried hentry hname hshape _ _ h => .subtype hentry hname hshape (by simp) h.conforms
  | _, _, .array heach => .array fun w hw => (heach w hw).conforms
  | _, _, .option hmem _ h => .option hmem h.conforms
theorem PreservesField.conforms : ∀ {fixed : String → Bool} {p : Param} {w : Value}, s.PreservesField fixed p w →
    s.ConformsField s.tellsApart fixed p w
  | _, _, _, .null hoptional => .null hoptional
  | _, _, _, .fixed hholds => .fixed hholds
  | _, _, _, .typed hfree h => .typed hfree h.conforms
end

end Spec

/-! What is made of values that conform -/

theorem BasicType.Reads.eq_of_admits {b : BasicType} {w u : Value} (h : b.Reads w u) (hw : b.Admits w) : u = w := by
  cases b with
  | flag =>
      obtain ⟨b, rfl⟩ := hw
      obtain ⟨b', g, hread, rfl⟩ := h
      cases hread
      rfl
  | onlyTrue =>
      obtain rfl : w = .bool true := hw
      exact h.2
  | text =>
      obtain ⟨t, rfl⟩ := hw
      obtain ⟨t', g, hread, rfl⟩ := h
      cases hread
      rfl
  | integer =>
      obtain ⟨n, rfl, -⟩ := hw
      obtain ⟨n', g, hread, -, -, rfl⟩ := h
      cases hread
      rfl
  | number =>
      obtain ⟨x, rfl⟩ := hw
      obtain ⟨x', g, hread, rfl⟩ := h
      cases hread
      rfl
  | file => exact h.2
  | any => exact h

namespace Value

mutual
theorem hasStream_of_data : ∀ {v : Value}, v.Data → v.hasStream = false
  | list xs, h => by
      rw [hasStream]
      exact someStream_of_data fun x hx => h.item hx
  | tuple xs, h => by
      rw [hasStream]
      exact someStream_of_data fun x hx => h.member hx
  | dict es, h => by
      rw [hasStream]
      exact entryStream_of_data fun e he => h.entry he
  | bytes _, h | buffer _, h | path _, h | stream _ _, h | record _ _, h | limits _, h => by
      have hplain := h.plain _ (.self _)
      cases hplain
  | null, _ | bool _, _ | int _, _ | float _, _ | str _, _ | byChat _ _, _ | byChatKind, _
  | moment _ _ _, _ | spent, _ | plain, _ => rfl
theorem someStream_of_data : ∀ {xs : List Value}, (∀ x ∈ xs, x.Data) → someStream xs = false
  | [], _ => rfl
  | x :: xs, h => by
      rw [List.forall_mem_cons] at h
      rw [someStream, hasStream_of_data h.1, someStream_of_data h.2]
      rfl
theorem entryStream_of_data : ∀ {es : Entries}, (∀ e ∈ es, e.2.Data) → entryStream es = false
  | [], _ => rfl
  | (k, v) :: es, h => by
      rw [List.forall_mem_cons] at h
      rw [entryStream, hasStream_of_data h.1, entryStream_of_data h.2]
      rfl
end

theorem alike_entries (us : List (String × Value)) {out es : Entries}
    (hout : out.Perm (us.map fun u => (.str u.1, u.2))) (hkeys : (es.map (·.1)).Nodup)
    (hsame : es.SameKeys (us.map fun u => .str u.1))
    (heach : ∀ u ∈ us, ∀ w, (.str u.1, w) ∈ es → Alike u.2 w) : Alike (.dict out) (.dict es) := by
  refine .dict ((hout.map (·.1)).trans ?_) fun k v w hv hw => ?_
  · rw [List.map_map]
    exact (List.perm_ext_iff_of_nodup hsame.once hkeys).2 hsame.same
  · obtain ⟨u, hu, heq⟩ := List.mem_map.1 (hout.mem_iff.1 hv)
    cases heq
    exact heach u hu w hw

end Value

namespace Draft

variable {site : Site} {rs : Records} {n : Nat} {descend : Schema → Value → Verdict} {ps : List Param}
  {f : Field} {fs : List Field} {es : Entries} {e : Value × Value} {u : String × Passed} {p : Passed}

theorem Site.Made.taken_keyed {r : Schema.Record} (hmade : site.Made fs r) (hfs : List.Forall₂ FieldOf ps fs)
    (hattributes : (ps.map (Catalog.attributeName ·.name)).Nodup) (hkeyed : es.Keyed ps)
    (hkeys : (es.map (·.1)).Nodup) (h : checkRecord .values descend r (.dict es) = .ok p) :
    ∃ us : List (String × Passed), p.value = .record r.name (us.map fun u => (u.1, u.2.value)) ∧
      es.SameKeys (us.map fun u => .str u.1) ∧
      ∀ u ∈ us, ∀ w, (.str u.1, w) ∈ es → ∃ f ∈ fs, site.Takes descend f (.str u.1, w) u := by
  obtain ⟨vs, hvalue, hnames⟩ := checkRecord_names hkeyed hattributes hfs hmade h
  obtain ⟨es', us, heq, hvalue', -, hforth⟩ := hmade.taken h
  cases heq
  have hvs : us.map (·.1) = es.supplied ps := by
    cases hvalue.symm.trans hvalue'
    rwa [List.map_map] at hnames
  have hsame : es.SameKeys (us.map fun u => .str u.1) := by
    have hsame := hkeyed.sameKeys_supplied hattributes
    rwa [← hvs, List.map_map] at hsame
  refine ⟨us, hvalue', hsame, fun u hu w hw => ?_⟩
  obtain ⟨f, hf, u', hu', htakes⟩ := hforth hkeys _ hw
  obtain ⟨p, hp, hfield⟩ := exists_left_of_mem hfs hf
  obtain ⟨q, hq, hkey⟩ := hkeyed _ hw
  have hqname : u.1 = q.name := Value.str.inj hkey
  -- No other field has the attribute of this one, so it goes by its name.
  have hwire : u.1 = f.wire := by
    rcases htakes.key with hwire | hname
    · exact Value.str.inj hwire
    · have hattribute : q.name = Catalog.attributeName p.name :=
        hqname.symm.trans ((Value.str.inj hname).trans hfield.name)
      obtain rfl := List.inj_on_of_nodup_map hattributes hq hp (by
        rw [hattribute, Catalog.attributeName_attributeName])
      rw [hqname, hfield.wire]
  obtain rfl := List.inj_on_of_nodup_map hsame.once hu' hu (congrArg Value.str (htakes.name.trans hwire.symm))
  exact ⟨f, hf, htakes⟩

theorem Site.Takes.null_of_optional (h : site.Takes (checkDepth rs .values n) f e u) (hoptional : f.required = false)
    (hnull : e.2 = .null) : u.2 = ⟨.of .exact, .null⟩ := by
  obtain ⟨schema, hschema, hcheck⟩ := h.passed
  rw [Site.fieldSchema, hoptional, hnull] at hcheck
  rcases Schema.checkDepth_optional hcheck with ⟨-, hu⟩ | ⟨hnot, -⟩
  · exact hu
  · cases hnot

end Draft

namespace Spec

variable {s : Spec} {good : String → Prop} {m : Method} {rs : Records} {n : Nat} {e : TypeExpr} {w : Value}
  {q : Passed}

theorem Stands.reads (h : s.Stands good m rs e) (ready : s.Ready good m rs)
    (hq : (s.paramsSite m).Makes rs n (.ofExpr s.ideal e) w q) : s.Reads e w q.value := by
  obtain ⟨schema, hschema, hq⟩ := hq
  exact checkDepth_reads (ready.furnished.madeOf ready.sound) n _ _ _ _ _ (ready.sound.offers_ofExpr h.refs) hschema hq

theorem Lists.taken {key : Nat} {fixed : String → Bool} {ps : List Param} {g : Schema.Record} {es : Entries}
    {R : Value → Passed → Prop} (h : s.Lists good m key fixed ps)
    (hmade : (s.paramsSite m).Made (ps.map (s.idealOf fixed)) g) (hes : es.Complete ps)
    (hq : checkRecord .values (checkDepth rs .values n) g (.dict es) = .ok q)
    (heach : ∀ p ∈ ps, ∀ w, (.str p.name, w) ∈ es → ∀ u : String × Passed,
      (s.paramsSite m).Takes (checkDepth rs .values n) (s.idealOf fixed p) (.str p.name, w) u → R w u.2) :
    ∃ us : List (String × Passed), q.value = .record g.name (us.map fun u => (u.1, u.2.value)) ∧
      es.SameKeys (us.map fun u => .str u.1) ∧ ∀ u ∈ us, ∀ w, (.str u.1, w) ∈ es → R w u.2 := by
  have hfs : List.Forall₂ FieldOf ps (ps.map (s.idealOf fixed)) := by
    rw [List.forall₂_map_right_iff]
    exact List.forall₂_same.2 fun p _ => ⟨rfl, rfl, rfl⟩
  obtain ⟨us, hvalue, hsame, htaken⟩ := hmade.taken_keyed hfs h.attributes hes.known hes.once hq
  refine ⟨us, hvalue, hsame, fun u hu w hw => ?_⟩
  obtain ⟨f, hf, htakes⟩ := htaken u hu w hw
  obtain ⟨p, hp, rfl⟩ := List.mem_map.1 hf
  have hname : u.1 = p.name := htakes.name
  rw [hname] at hw htakes
  exact heach p hp w hw u htakes

/-! Each way a value is read, given that what is below it is kept -/

theorem Stands.alike_record {id : String} {t : ApiType} {key : Nat} {ps : List Param} {es : Entries}
    (h : s.Stands good m rs (.ref id)) (ready : s.Ready good m rs) (hr : s.RecordOf id t key ps)
    (hcomplete : es.Complete ps)
    (hq : (s.paramsSite m).Makes rs (n + 1) (.ofExpr s.ideal (.ref id)) (.dict es) q)
    (heach : ∀ p ∈ ps, ∀ w, (.str p.name, w) ∈ es → ∀ u : String × Passed,
      (s.tellsApart id p.name = false → (s.idealOf (s.tellsApart id) p).draft = .ofExpr s.ideal p.type ∧
        s.Stands good m rs p.type) →
      (s.paramsSite m).Takes (checkDepth rs .values n) (s.idealOf (s.tellsApart id) p) (.str p.name, w) u →
      u.2.value.plainData.Alike w) : q.value.plainData.Alike (.dict es) := by
  obtain ⟨hideal, g, hg, hlists, hmade, hkeys⟩ := h.record ready.sound ready.furnished hr
  obtain ⟨schema, hschema, hq⟩ := hq
  rw [Draft.ofExpr, hideal] at hschema
  cases hschema
  rw [checkDepth, Schema.step, hg] at hq
  obtain ⟨us, hvalue, hsame, halike⟩ := hlists.taken (R := fun w q => q.value.plainData.Alike w) hmade hcomplete
    (Schema.under_eq_ok.1 hq) fun p hp w hw u htakes => heach p hp w hw u (hlists.stands hmade hkeys hp) htakes
  rw [hvalue, Value.plainData, Value.plainFields_eq, List.map_map]
  refine Value.alike_entries (us.map fun u => (u.1, u.2.value.plainData)) (by rw [List.map_map]; rfl)
    hcomplete.once (by rw [List.map_map]; exact hsame) fun x hx w hmem => ?_
  obtain ⟨u, hu, rfl⟩ := List.mem_map.1 hx
  exact halike u hu w hmem

theorem alike_array {ws : List Value} (hq : (s.paramsSite m).Makes rs (n + 1) (.ofExpr s.ideal (.array e)) (.list ws) q)
    (heach : ∀ w ∈ ws, ∀ q, (s.paramsSite m).Makes rs n (.ofExpr s.ideal e) w q → q.value.plainData.Alike w) :
    q.value.plainData.Alike (.list ws) := by
  obtain ⟨schema, hschema, hq⟩ := hq
  obtain ⟨item, hitem, rfl⟩ := ok_of_map hschema
  rw [checkDepth, Schema.step, Schema.checkArray_eq_ok] at hq
  obtain ⟨xs, ps, g, hv, hps, rfl⟩ := hq
  obtain rfl : ws = xs := by
    rcases hv with ⟨heq, -⟩ | ⟨heq, -⟩ <;> cases heq
    rfl
  have hitems := forall₂_imp_of_mem (S := fun x p => p.value.plainData.Alike x) hps fun x hx p hp =>
    heach x hx p ⟨item, hitem, hp⟩
  rw [Value.plainData, Value.plainItems_eq, Value.alike_list, List.map_map, List.forall₂_map_left_iff]
  exact hitems.flip

theorem Stands.alike_tried {id i : String} {t : ApiType} {key : Nat} {before after : List String} {q' : Passed}
    (h : s.Stands good m rs (.ref id)) (ready : s.Ready good m rs) (hentry : s.typeEntry? id = some (t, key))
    (hname : t.name ≠ inputFileName) (hshape : t.shape = .subtypes (before ++ i :: after))
    (huntold : s.discriminant? id = none) (hearlier : ∀ j ∈ before, ∀ q, s.Gives (.ref j) w q → w.Keeps q)
    (hn : w.depth ≤ n)
    (hq' : (s.paramsSite m).Makes rs n (.ofExpr s.ideal (.ref i)) w q') (halike : q'.value.plainData.Alike w)
    (hq : (s.paramsSite m).Makes rs n (.ofExpr s.ideal (.ref id)) w q) : q.value.plainData.Alike w := by
  rw [Draft.ofExpr, ready.sound.ideal_subtypes h.of_ref hentry hname hshape, huntold, List.map_append,
    List.map_cons] at hq
  rcases hq.first hq' with ⟨d, hd, r, hmakes, hvalue⟩ | hvalue
  · obtain ⟨j, hj, rfl⟩ := List.mem_map.1 hd
    have hstands := h.subtype ready.sound hentry hname hshape (List.mem_append_left _ hj)
    rw [← hvalue]
    exact hearlier j hj r (hstands.gives ready hn hmakes)
  · rw [hvalue]
    exact halike

theorem Stands.alike_option {es : List TypeExpr} {q' : Passed} (h : s.Stands good m rs (.union es))
    (ready : s.Ready good m rs) (hmem : e ∈ es) (hfavors : s.Favors (.union es) w) (hn : w.depth ≤ n)
    (hq' : (s.paramsSite m).Makes rs n (.ofExpr s.ideal e) w q') (halike : q'.value.plainData.Alike w)
    (hq : (s.paramsSite m).Makes rs n (.ofExpr s.ideal (.union es)) w q) : q.value.plainData.Alike w := by
  have hmem' : Draft.ofExpr s.ideal e ∈ Draft.ofExprs s.ideal es := by
    rw [Draft.ofExprs_eq]
    exact List.mem_map_of_mem hmem
  refine hq.wanted (K := fun u => u.plainData.Alike w) hmem' hq' halike ?_
  have hself : ∀ i, (s.ideal i).isUnion = false := fun i => isUnion_idealAt _ i
  rw [Draft.distinct_options_ofExprs hself]
  refine .sublist (Draft.distinct_sublist _) (List.pairwise_map.2 ?_)
  exact hfavors.imp_of_mem fun ha hb hsettled q r hq hr =>
    hsettled q r (h.gives_choice ready ha hn hq) (h.gives_choice ready hb hn hr)

mutual
theorem Preserves.alike (ready : s.Ready good m rs) : ∀ {e : TypeExpr} {w : Value} {n : Nat} {q : Passed},
    s.Preserves e w → s.Stands good m rs e → w.Data → w.depth ≤ n →
    (s.paramsSite m).Makes rs n (.ofExpr s.ideal e) w q → q.value.plainData.Alike w
  | .basic name, w, n, q, .basic hadmits, h, hw, hn, hq => by
      cases h.reads ready hq with
      | basic reads =>
          rw [reads.eq_of_admits hadmits, Value.plainData_of_data hw]
          exact .same w
  | .ref id, w, n, q, .bare hentry hname hshape, h, hw, hn, hq => by
      obtain ⟨schema, hschema, hq⟩ := hq
      obtain ⟨k, rfl⟩ := Value.exists_of_depth_le hn
      rw [Draft.ofExpr, ready.sound.ideal_bare h.of_ref hentry hname hshape] at hschema
      cases hschema
      have hvalue : q.value = w := BasicType.reads_of_step (b := .any) hq
      rw [hvalue, Value.plainData_of_data hw]
      exact .same w
  | .ref id, .dict es, n, q, .record hr hcomplete heach, h, hw, hn, hq => by
      obtain ⟨k, rfl, hes⟩ := Value.exists_of_depth_entries_le hn
      exact h.alike_record ready hr hcomplete hq fun p hp w hw' u hstands htakes =>
        (heach p hp w hw').alike ready hstands (hw.entry hw') (hes _ hw') htakes
  | .ref id, w, n, q, .told hentry hname hshape hmem hf hpreserves, h, hw, hn, hq =>
      hpreserves.alike ready (h.subtype ready.sound hentry hname hshape hmem) hw hn
        ((h.makes_told ready hentry hname hshape hmem hf hpreserves.conforms).1 hq)
  | .ref id, w, n, q, .tried hentry hname hshape huntold hearlier hpreserves, h, hw, hn, hq => by
      have hstands := h.subtype ready.sound hentry hname hshape (List.mem_append_right _ List.mem_cons_self)
      obtain ⟨q', hq'⟩ := hpreserves.conforms.taken ready hstands hn
      exact h.alike_tried ready hentry hname hshape huntold hearlier hn hq' (hpreserves.alike ready hstands hw hn hq') hq
  | .array e, .list ws, n, q, .array heach, h, hw, hn, hq => by
      obtain ⟨k, rfl, hws⟩ := Value.exists_of_depth_list_le hn
      exact alike_array hq fun x hx q hq => (heach x hx).alike ready h.item (hw.item hx) (hws x hx) hq
  | .union es, w, n, q, .option hmem hfavors hpreserves, h, hw, hn, hq => by
      have hstands := h.option hmem
      obtain ⟨q', hq'⟩ := hpreserves.conforms.taken ready hstands hn
      exact h.alike_option ready hmem hfavors hn hq' (hpreserves.alike ready hstands hw hn hq') hq
theorem PreservesField.alike (ready : s.Ready good m rs) : ∀ {fixed : String → Bool} {p : Param} {w : Value} {n : Nat}
    {u : String × Passed}, s.PreservesField fixed p w →
    (fixed p.name = false → (s.idealOf fixed p).draft = .ofExpr s.ideal p.type ∧ s.Stands good m rs p.type) →
    w.Data → w.depth ≤ n →
    (s.paramsSite m).Takes (checkDepth rs .values n) (s.idealOf fixed p) (.str p.name, w) u →
    u.2.value.plainData.Alike w
  | fixed, p, _, n, u, .null hoptional, _, _, _, htakes => by
      rw [htakes.null_of_optional hoptional rfl]
      exact .same _
  | fixed, p, _, n, u, .fixed hholds, _, _, _, htakes => by
      have hdraft : (s.idealOf fixed p).draft = .literal p.fixedText := by
        simp only [idealOf, Work.draftField, hholds, ↓reduceIte]
        rfl
      rcases htakes.null_or with ⟨hnull, -⟩ | ⟨schema, hschema, hcheck⟩
      · cases hnull
      · rw [hdraft] at hschema
        cases hschema
        rw [(Schema.eq_of_checkDepth_onlyText hcheck).2]
        exact .same _
  | fixed, p, w, n, u, .typed hfree hpreserves, hstands, hw, hn, htakes => by
      obtain ⟨hdraft, hstands⟩ := hstands hfree
      rcases htakes.null_or with ⟨hnull, hu⟩ | hmakes
      · obtain rfl : w = .null := hnull
        rw [hu]
        exact .same _
      · rw [hdraft] at hmakes
        exact hpreserves.alike ready hstands hw hn hmakes
end

end Spec

end BotApi
