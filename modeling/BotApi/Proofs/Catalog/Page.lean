import BotApi.Page.Element
import BotApi.Proofs.Catalog.Artifact
import BotApi.Proofs.Catalog.Discovery
import BotApi.Proofs.Result
import BotApi.Proofs.TypeExpr.Words
import Mathlib.Data.List.Forall2
import Mathlib.Data.List.Nodup
/-!
The elements of a page and the catalog made of them. Of the elements found one after another the last with
each identifier is kept, at the place of the first, and each has the form that its kind asks for and a name
that is a single word. Unions have their options as their form leaves them and references resolve, so the
catalog is one that a file gives back.
-/

namespace BotApi

namespace TypeExpr

theorem properList_of_forall {es : List TypeExpr} (h : ∀ e ∈ es, e.Proper) : ProperList es := by
  induction es with
  | nil => trivial
  | cons e es ih =>
      rw [List.forall_mem_cons] at h
      exact ⟨h.1, ih h.2⟩

theorem proper_nest {e : TypeExpr} (h : e.Proper) (n : Nat) : (nest n e).Proper := by
  induction n generalizing e with
  | zero => exact h
  | succ n ih => exact ih (e := .array e) h

theorem proper_ofLeaves {es : List TypeExpr} {e : TypeExpr} (hes : ∀ e ∈ es, e.Proper)
    (h : ofLeaves? es = some e) : e.Proper := by
  unfold ofLeaves? at h
  split at h
  · cases h
  · cases h
    exact hes e (by simp)
  · rename_i hnil _
    cases h
    refine ⟨fun hempty => ?_, nodup_distinct es, properList_of_forall fun e he => hes e (mem_distinct.1 he)⟩
    obtain ⟨e, he⟩ := List.exists_mem_of_ne_nil es hnil
    exact List.not_mem_nil (hempty ▸ mem_distinct.2 he)

theorem proper_ofTokens {ts : List Token} {e : TypeExpr} (h : ofTokens? ts = some e) : e.Proper := by
  obtain ⟨e', he', rfl⟩ := Option.map_eq_some_iff.1 h
  refine proper_nest (proper_ofLeaves (fun l hl => ?_) he') _
  obtain ⟨t, -, rfl⟩ := List.mem_map.1 hl
  cases t <;> exact trivial

end TypeExpr

def Element.Proper (e : Element) : Prop :=
  (∀ f ∈ e.fields.getD [], f.type.Proper) ∧ ∀ p ∈ e.paramList, p.type.Proper

structure Element.WellFormed (e : Element) : Prop where
  type : e.kind = .type → e.params = none ∧ e.fields.isSome = !e.subtypes.isSome
  method : e.kind = .method → e.params.isSome = true ∧ e.fields = none ∧ e.subtypes = none
  subtypes : ∀ ids, e.subtypes = some ids → ids ≠ [] ∧ ids.Nodup
  unions : e.Proper
  name : ∀ c ∈ e.name.toList, Text.isBlank c = false

namespace Page

open Html (Node)

def idsOf (es : List Element) : List String := es.map (·.id)

structure Keyed (found es : List Element) : Prop where
  ids : ∀ id, id ∈ idsOf es ↔ id ∈ idsOf found
  ordered : (idsOf es).Pairwise fun i j => (idsOf found).idxOf i < (idsOf found).idxOf j
  last : ∀ e ∈ es, ∃ before after, found = before ++ e :: after ∧ ∀ f ∈ after, f.id ≠ e.id

theorem any_id {es : List Element} {id : String} : es.any (·.id == id) = true ↔ id ∈ idsOf es := by
  simp [idsOf]

theorem mem_putElement {es : List Element} {e x : Element} (h : x ∈ putElement es e) :
    x = e ∨ x ∈ es ∧ x.id ≠ e.id := by
  unfold putElement at h
  split at h
  next =>
      obtain ⟨f, hf, rfl⟩ := List.mem_map.1 h
      split
      next => exact .inl rfl
      next hid => exact .inr ⟨hf, by simpa using hid⟩
  next hnew =>
      rw [any_id] at hnew
      rcases List.mem_append.1 h with hx | hx
      · exact .inr ⟨hx, fun hid => hnew (hid ▸ List.mem_map_of_mem hx)⟩
      · exact .inl (List.mem_singleton.1 hx)

theorem idsOf_append (es fs : List Element) : idsOf (es ++ fs) = idsOf es ++ idsOf fs := List.map_append

theorem idsOf_putElement (es : List Element) (e : Element) :
    idsOf (putElement es e) = if e.id ∈ idsOf es then idsOf es else idsOf es ++ [e.id] := by
  unfold putElement
  simp only [any_id]
  split
  next =>
      unfold idsOf
      rw [List.map_map]
      refine List.map_congr_left fun f _ => ?_
      by_cases hid : f.id = e.id <;> simp [hid]
  next => rw [idsOf_append]; rfl

namespace Keyed

theorem nil : Keyed [] [] := ⟨by simp, by simp [idsOf], by simp⟩

variable {found es : List Element}

theorem idxOf_lt (h : Keyed found es) {id : String} (hid : id ∈ idsOf es) :
    (idsOf found).idxOf id < (idsOf found).length :=
  List.idxOf_lt_length_of_mem ((h.ids id).1 hid)

theorem ordered_append (h : Keyed found es) (fs : List Element) :
    (idsOf es).Pairwise fun i j => (idsOf (found ++ fs)).idxOf i < (idsOf (found ++ fs)).idxOf j := by
  refine h.ordered.imp_of_mem fun hi hj hij => ?_
  rwa [idsOf_append, List.idxOf_append_of_mem ((h.ids _).1 hi), List.idxOf_append_of_mem ((h.ids _).1 hj)]

theorem put (h : Keyed found es) (e : Element) : Keyed (found ++ [e]) (putElement es e) where
  ids := by
    intro id
    rw [idsOf_putElement, idsOf_append, List.mem_append, ← h.ids]
    split
    next hid =>
        refine (or_iff_left_of_imp fun hmem => ?_).symm
        rw [List.mem_singleton.1 hmem]
        exact hid
    next => rw [List.mem_append]; rfl
  ordered := by
    rw [idsOf_putElement]
    split
    next => exact h.ordered_append [e]
    next hnew =>
        refine List.pairwise_append.2 ⟨h.ordered_append [e], List.pairwise_singleton _ _, fun i hi j hj => ?_⟩
        rw [List.mem_singleton.1 hj, idsOf_append, List.idxOf_append_of_mem ((h.ids _).1 hi),
          List.idxOf_append_of_notMem fun hmem => hnew ((h.ids _).2 hmem)]
        exact Nat.lt_add_right _ (h.idxOf_lt hi)
  last := by
    intro x hx
    rcases mem_putElement hx with rfl | ⟨hx, hid⟩
    · exact ⟨found, [], rfl, by simp⟩
    · obtain ⟨before, after, rfl, hafter⟩ := h.last x hx
      refine ⟨before, after ++ [e], by simp, fun f hf => ?_⟩
      rcases List.mem_append.1 hf with hf | hf
      · exact hafter f hf
      · rw [List.mem_singleton.1 hf]
        exact hid.symm

theorem nodup (h : Keyed found es) : (idsOf es).Nodup := h.ordered.imp fun hij heq => by simp [heq] at hij

theorem mem (h : Keyed found es) {e : Element} (he : e ∈ es) : e ∈ found := by
  obtain ⟨before, after, rfl, -⟩ := h.last e he
  simp

end Keyed

theorem keyed_collect {ss : List Subsection} {found es es' : List Element} (hkeyed : Keyed found es)
    (h : (collect es ss).2 = .ok es') :
    ∃ more, List.Forall₂ (fun s e => element s = .ok e) ss more ∧ Keyed (found ++ more) es' := by
  induction ss generalizing found es with
  | nil =>
      cases h
      exact ⟨[], .nil, by rwa [List.append_nil]⟩
  | cons s ss ih =>
      unfold collect at h
      split at h
      next => cases h
      next e he =>
          obtain ⟨more, hmore, hkeyed'⟩ := ih (hkeyed.put e) h
          exact ⟨e :: more, .cons he hmore, by rwa [List.append_assoc] at hkeyed'⟩

theorem keyed_elements {page : List Html.Node} {es : List Element} (h : (elements page).2 = .ok es) :
    ∃ ss found, (content page).bind subsections = .ok ss ∧
      List.Forall₂ (fun s e => element s = .ok e) (ss.filter fun s => !isNotes s) found ∧ Keyed found es := by
  unfold elements at h
  split at h
  next => cases h
  next ss hss =>
      obtain ⟨found, hfound, hkeyed⟩ := keyed_collect .nil h
      exact ⟨ss, found, hss, hfound, hkeyed⟩

def Listing.all : Listing → List Param
  | .fields fs => fs
  | .params ps => ps

theorem proper_paramOf {r : Row} {required : Bool} {p : Param} (h : paramOf r required = .ok p) :
    p.type.Proper := by
  unfold paramOf at h
  split at h
  · obtain ⟨e, he, rfl⟩ := ok_of_map h
    unfold typeCell typeOf at he
    split at he
    · rename_i hread
      cases he
      exact TypeExpr.proper_ofTokens hread
    · cases he
  · cases h

theorem proper_listing {table : Node} {l : Listing} (h : listing table = .ok l) :
    ∀ p ∈ l.all, p.type.Proper := by
  obtain ⟨cs, -, h⟩ := ok_of_bind h
  obtain ⟨rs, -, h⟩ := ok_of_bind h
  have hparams {required : Row → Bool} {ps : List Param}
      (hps : (rs.mapM fun r => paramOf r (required r)) = .ok ps) : ∀ p ∈ ps, p.type.Proper := by
    intro p hp
    obtain ⟨r, -, hr⟩ := exists_left_of_mem (forall₂_of_mapM hps) hp
    exact proper_paramOf hr
  split at h
  · obtain ⟨fs, hfs, rfl⟩ := ok_of_map h
    exact hparams hfs
  · obtain ⟨ps, hps, rfl⟩ := ok_of_map h
    exact hparams hps
  · cases h

theorem nodup_subtypes {list : Node} {ids : List String} (h : subtypes list = .ok ids) : ids ≠ [] ∧ ids.Nodup := by
  unfold subtypes at h
  split at h
  next => cases h
  next hne =>
      cases h
      exact ⟨hne, TypeExpr.nodup_distinct _⟩

inductive Fills (s : Subsection) (id : String) : Element → Prop
  | fields {fs : List Param} (proper : ∀ f ∈ fs, f.type.Proper) :
      Fills s id { bare s id .type with fields := some fs }
  | params {ps : List Param} (proper : ∀ p ∈ ps, p.type.Proper) :
      Fills s id { bare s id .method with params := some ps }
  | subtypes {ids : List String} (ne : ids ≠ []) (nodup : ids.Nodup) :
      Fills s id { bare s id .type with subtypes := some ids }

theorem fills_of_filled {s : Subsection} {id : String} {e : Element} (h : filled s id = .ok e) : Fills s id e := by
  unfold filled at h
  split at h
  next =>
      split at h <;> cases h
      · exact .fields (by simp)
      · exact .params (by simp)
  next =>
      split at h
      next =>
          obtain ⟨l, hl, rfl⟩ := ok_of_map h
          have hproper := proper_listing hl
          cases l with
          | fields fs => exact .fields hproper
          | params ps => exact .params hproper
      next =>
          obtain ⟨ids, hids, rfl⟩ := ok_of_map h
          exact .subtypes (nodup_subtypes hids).1 (nodup_subtypes hids).2

theorem exists_fills {s : Subsection} {e : Element} (h : element s = .ok e) : ∃ id, Fills s id e := by
  unfold element at h
  split at h
  next => cases h
  next id _ =>
      split at h
      next hfilled =>
          cases h
          exact ⟨id, fills_of_filled hfilled⟩
      next => cases h

namespace Fills

variable {s : Subsection} {id : String} {e : Element}

theorem name (h : Fills s id e) : e.name = .ofList (headingName s) := by
  cases h <;> rfl

theorem proper (h : Fills s id e) : e.Proper := by
  cases h with
  | fields hproper => exact ⟨hproper, by simp [Element.paramList, bare]⟩
  | params hproper => exact ⟨by simp [bare], hproper⟩
  | subtypes => simp [Element.Proper, Element.paramList, bare]

theorem wellFormed (h : Fills s id e) (hname : ∀ c ∈ headingName s, Text.isBlank c = false) : e.WellFormed := by
  have hname : ∀ c ∈ e.name.toList, Text.isBlank c = false := by
    rwa [h.name, String.toList_ofList]
  have hproper := h.proper
  cases h with
  | fields => exact ⟨fun _ => ⟨rfl, rfl⟩, nofun, nofun, hproper, hname⟩
  | params => exact ⟨nofun, fun _ => ⟨rfl, rfl, rfl⟩, nofun, hproper, hname⟩
  | subtypes hne hnodup =>
      refine ⟨fun _ => ⟨rfl, rfl⟩, nofun, fun ids h => ?_, hproper, hname⟩
      cases h
      exact ⟨hne, hnodup⟩

end Fills

theorem proper_elements {page : List Node} {es : List Element} (h : (elements page).2 = .ok es) :
    ∀ e ∈ es, e.Proper := by
  obtain ⟨_, found, -, hfound, hkeyed⟩ := keyed_elements h
  intro e he
  obtain ⟨s, -, hs⟩ := exists_left_of_mem hfound (hkeyed.mem he)
  obtain ⟨_, hfills⟩ := exists_fills hs
  exact hfills.proper

theorem not_isBlank_headingName {s : Subsection} (h : isNotes s = false) :
    ∀ c ∈ headingName s, Text.isBlank c = false := by
  intro c hc
  by_contra hblank
  have hany : (headingName s).any Text.isBlank = true := List.any_eq_true.2 ⟨c, hc, by simpa using hblank⟩
  have htopic : topicOf s.heading.textContent = .notes := if_pos hany
  simp [isNotes, htopic] at h

theorem elements_keyed {page : List Node} {es : List Element} (h : (elements page).2 = .ok es) :
    ∃ ss found, (content page).bind subsections = .ok ss ∧
      List.Forall₂ (fun s e => element s = .ok e) (ss.filter fun s => !isNotes s) found ∧
      (idsOf es).Nodup ∧ Keyed found es ∧ ∀ e ∈ es, e.WellFormed := by
  obtain ⟨ss, found, hss, hfound, hkeyed⟩ := keyed_elements h
  refine ⟨ss, found, hss, hfound, hkeyed.nodup, hkeyed, fun e he => ?_⟩
  obtain ⟨s, hs, hes⟩ := exists_left_of_mem hfound (hkeyed.mem he)
  have hnotes : isNotes s = false := by simpa using (List.mem_filter.1 hs).2
  obtain ⟨_, hfills⟩ := exists_fills hes
  exact hfills.wellFormed (not_isBlank_headingName hnotes)

namespace Revision

def entry (id title : String) : Node :=
  .element "h4" [] [.element "a" [("href", "#" ++ id)] [], .text .plain title.toList]

def listed : Node := .element "ul" [] [.element "li" [] [.element "a" [("href", "#message")] []]]

def page : List Node :=
  [.element "div" [("id", "dev_page_content")]
    [.element "h3" [] [.text .plain "Getting updates".toList], entry "update" "Update", listed,
      entry "about" "About these types", entry "getme" "getMe", entry "update" " Update"]]

def update : Element := ⟨"update", "Update", .type, "", some [], none, none, none⟩

def getMe : Element := ⟨"getme", "getMe", .method, "", none, some [], none, none⟩

end Revision

theorem revision_elements : (elements Revision.page).2 = .ok [Revision.update, Revision.getMe] ∧
    ∃ ss found, (content Revision.page).bind subsections = .ok ss ∧
      List.Forall₂ (fun s e => element s = .ok e) (ss.filter fun s => !isNotes s) found ∧
      (idsOf [Revision.update, Revision.getMe]).Nodup ∧ Keyed found [Revision.update, Revision.getMe] ∧
      ∀ e ∈ [Revision.update, Revision.getMe], e.WellFormed := by
  have h : (elements Revision.page).2 = .ok [Revision.update, Revision.getMe] := by rfl
  exact ⟨h, elements_keyed h⟩

end Page

namespace Spec

theorem proper_ofElements {es : List Element} {s : Spec} (hes : ∀ e ∈ es, e.Proper)
    (h : ofElements es = .ok s) : s.Proper ∧ s.checkReferences = .ok () := by
  obtain ⟨types, hdiscover, rfl⟩ := ok_of_map h
  have hcompiled := Compile.compiled_of_discover hdiscover
  refine ⟨⟨fun t ht f hf => ?_, fun m hm p hp => ?_⟩, hcompiled.resolved⟩
  · obtain ⟨before, e, after, helements, -, -, -, rfl⟩ := hcompiled.converted t ht
    refine (hes e (by simp [helements])).1 f ?_
    cases hsubtypes : e.subtypes with
    | none => simpa [Element.toType, ApiType.fields, hsubtypes] using hf
    | some ids => simp [Element.toType, ApiType.fields, hsubtypes] at hf
  · obtain ⟨e, he, rfl⟩ := List.mem_map.1 hm
    exact (hes e (List.mem_filter.1 he).1).2 p hp

theorem ofPage_eq_ok {html : String} {s : Spec} : (ofPage html).2 = .ok s ↔
    ∃ page es, Html.parse? html.toList = some page ∧ (Page.elements page).2 = .ok es ∧ ofElements es = .ok s := by
  unfold ofPage Html.read
  cases hparse : Html.parse? html.toList with
  | none => simp
  | some page =>
      constructor
      · intro h
        have hcompile : ((Page.elements page).2.bind ofElements).mapError Error.compile = .ok s := h
        cases hbind : (Page.elements page).2.bind ofElements with
        | error f =>
            rw [hbind] at hcompile
            cases hcompile
        | ok t =>
            rw [hbind] at hcompile
            cases hcompile
            obtain ⟨es, hes, hs⟩ := ok_of_bind hbind
            exact ⟨page, es, rfl, hes, hs⟩
      · rintro ⟨page, es, hpage, hes, hs⟩
        cases hpage
        simp [Page.compile, hes, Except.bind, hs, Except.mapError]

theorem proper_ofPage {html : String} {s : Spec} (h : (ofPage html).2 = .ok s) :
    s.Proper ∧ s.checkReferences = .ok () := by
  obtain ⟨page, es, -, hes, hs⟩ := ofPage_eq_ok.1 h
  exact proper_ofElements (Page.proper_elements hes) hs

end Spec

end BotApi
