import BotApi.Proofs.Draft.Offers
import BotApi.Proofs.Draft.Work
import Mathlib.Data.List.Nodup
/-!
What a compiler has drafted at any time, after whatever it was used for: no draft offers anything but what
its type documents, and the fields of a record are those of its type.
-/

namespace BotApi

open Draft (Scope Site)

namespace Work

variable {α β : Type} {P : Compiler → Prop} {Q : α → Prop} {R : β → Prop} {w : Work α}

structure Yields (P : Compiler → Prop) (Q : α → Prop) (w : Work α) : Prop where
  keeps : Keeps P w
  result : ∀ {c c' a}, P c → w.run c = (.ok a, c') → Q a

namespace Yields

theorem pure {a : α} (h : Q a) : Yields P Q (Pure.pure a : Work α) where
  keeps := .pure a
  result _ hrun := by
    cases hrun
    exact h

theorem throw (e : Error) : Yields P Q (MonadExcept.throw e : Work α) where
  keeps := .throw e
  result _ hrun := by cases hrun

theorem get_bind {f : Compiler → Work β} (h : ∀ c, P c → Yields P R (f c)) :
    Yields P R (MonadState.get >>= f) where
  keeps := .get_bind fun c hc => (h c hc).keeps
  result hc hrun := (h _ hc).result hc hrun

theorem bind {f : α → Work β} (hw : Yields P Q w) (hf : ∀ a, Q a → Yields P R (f a)) :
    Yields P R (w >>= f) where
  keeps c hc := by
    rw [run_bind]
    rcases hrun : w.run c with ⟨e | a, c₁⟩
    · simpa [hrun] using hw.keeps c hc
    · have hc₁ : P c₁ := by simpa [hrun] using hw.keeps c hc
      exact (hf a (hw.result hc hrun)).keeps c₁ hc₁
  result {c c' b} hc hrun := by
    rw [run_bind] at hrun
    rcases hw' : w.run c with ⟨e | a, c₁⟩
    · rw [hw'] at hrun
      cases hrun
    · rw [hw'] at hrun
      have hc₁ : P c₁ := by simpa [hw'] using hw.keeps c hc
      exact (hf a (hw.result hc hw')).result hc₁ hrun

theorem keeps_bind {f : α → Work β} (hw : Keeps P w) (hf : ∀ a, Yields P R (f a)) :
    Yields P R (w >>= f) :=
  Yields.bind (Q := fun _ => True) ⟨hw, fun _ _ => trivial⟩ fun a _ => hf a

theorem forall₂ {γ δ : Type} {S : δ → γ → Prop} {Q : δ → β → Prop} {f : γ → Work β} {as : List δ}
    {xs : List γ} (has : List.Forall₂ S as xs) (h : ∀ a x, S a x → Yields P (Q a) (f x)) :
    Yields P (List.Forall₂ Q as) (xs.mapM f) := by
  induction has with
  | nil =>
      rw [List.mapM_nil]
      exact .pure .nil
  | cons ha _ ih =>
      rw [List.mapM_cons]
      refine (h _ _ ha).bind fun b hb => ?_
      refine ih.bind fun bs hbs => ?_
      exact .pure (.cons hb hbs)

theorem mapM {γ : Type} {Q : γ → β → Prop} {f : γ → Work β} (xs : List γ)
    (h : ∀ x, Yields P (Q x) (f x)) : Yields P (List.Forall₂ Q xs) (xs.mapM f) := by
  have hsame : List.Forall₂ Eq xs xs := List.forall₂_same.2 fun _ _ => rfl
  refine forall₂ hsame fun a x hax => ?_
  subst hax
  exact h a

end Yields

end Work

open Work (Yields Keeps)

namespace Draft

theorem foldl_putField {fs gs : List Field} (h : ((gs ++ fs).map (·.name)).Nodup) :
    fs.foldl putField gs = gs ++ fs := by
  induction fs generalizing gs with
  | nil => simp
  | cons f fs ih =>
      have hnew : gs.any (·.name == f.name) = false := by
        rw [List.any_eq_false]
        intro g hg hname
        rw [List.map_append, List.nodup_append] at h
        exact h.2.2 g.name (List.mem_map_of_mem hg) f.name (by simp) (by simpa using hname)
      rw [List.foldl_cons, putField, if_neg (by simp [hnew]), ih (by simpa using h)]
      simp

theorem foldl_putField_of_names {R : Param → Field → Prop} {ps : List Param} {fs : List Field}
    (hname : ∀ {p f}, R p f → f.name = Catalog.attributeName p.name)
    (hnames : (ps.map (Catalog.attributeName ·.name)).Nodup) (hfs : List.Forall₂ R ps fs) :
    fs.foldl putField [] = fs := by
  have heq : fs.map (·.name) = ps.map (Catalog.attributeName ·.name) := by
    clear hnames
    induction hfs with
    | nil => rfl
    | cons hf _ ih => rw [List.map_cons, List.map_cons, hname hf, ih]
  refine foldl_putField ?_
  rw [List.nil_append, heq]
  exact hnames

theorem Site.resolveField_eq_ok {scope : Scope} {f g : Field} (h : Site.resolveField scope f = .ok g) :
    ∃ d, scope.resolve f.draft = .ok d ∧ g = { f with draft := d } := by
  obtain ⟨d, hd, rfl⟩ := ok_of_map h
  exact ⟨d, hd, rfl⟩

theorem Site.forall₂_resolved {R : Param → Field → Prop} {scope : Scope} {ps : List Param} {fs gs : List Field}
    (hresolve : ∀ {p f g}, R p f → resolveField scope f = .ok g → R p g) (hfs : List.Forall₂ R ps fs)
    (h : fs.mapM (resolveField scope) = .ok gs) : List.Forall₂ R ps gs := by
  induction hfs generalizing gs with
  | nil =>
      cases h
      exact .nil
  | @cons p f ps fs hf _ ih =>
      rw [List.mapM_cons] at h
      obtain ⟨g, hg, h⟩ := ok_of_bind h
      obtain ⟨gs', hgs, h⟩ := ok_of_bind h
      cases h
      exact .cons (hresolve hf hg) (ih hgs)

theorem Site.forall₂_fieldsOf {R : Param → Field → Prop} {site : Site} {origin : Option Origin} {r : Record} {key : Nat}
    {ps : List Param} {fs : List Field} (hresolve : ∀ {scope p f g}, R p f → resolveField scope f = .ok g → R p g)
    (hr : List.Forall₂ R ps r.fields) (h : site.fieldsOf origin r key = .ok fs) : List.Forall₂ R ps fs := by
  unfold Site.fieldsOf at h
  split at h
  next =>
    cases h
    exact hr
  next => exact forall₂_resolved hresolve hr h

end Draft

namespace Work.Yields

variable {P : Compiler → Prop} {scope : Scope} {key : Nat} {name : String} {ps : List Param} {f : Draft.Field}
  {fs : List Draft.Field}

theorem settle {R : Draft.Field → Prop} (hf : R f) (h : ∀ {g}, Site.resolveField scope f = .ok g → R g) :
    Yields P R (Work.settle scope f) := by
  unfold Work.settle
  split
  next hg => exact .pure (h hg)
  next => exact .pure hf
  next => exact .throw _

theorem record {R : Param → Draft.Field → Prop}
    (hname : ∀ {p f}, R p f → f.name = Catalog.attributeName p.name)
    (hresolve : ∀ c, P c → ∀ r : Draft.Record, r.name = name → ∀ {p f g}, R p f →
      Site.resolveField (c.site.scopeOf none r key) f = .ok g → R p g)
    (hnames : (ps.map (Catalog.attributeName ·.name)).Nodup) (hfs : List.Forall₂ R ps fs) :
    Yields P (fun r => r.name = name ∧ List.Forall₂ R ps r.fields) (Work.record key name fs) := by
  unfold Work.record
  split
  · exact .throw _
  · refine .get_bind fun c hc => ?_
    rw [Draft.foldl_putField_of_names hname hnames hfs]
    refine (forall₂ hfs fun p f hf => settle hf (hresolve c hc _ rfl hf)).bind fun gs hgs => ?_
    dsimp only
    split
    · exact .pure ⟨rfl, hgs⟩
    · exact .pure ⟨rfl, hgs⟩
    · exact .throw _

end Work.Yields

namespace Spec

structure OffersField (s : Spec) (told : String → Bool) (p : Param) (f : Draft.Field) : Prop where
  name : f.name = Catalog.attributeName p.name
  wire : f.wire = p.name
  required : f.required = p.required
  literal : told p.name = true → f.draft = .literal (p.value.getD "")
  typed : told p.name = false → s.Offers f.draft p.type

def Apart (s : Spec) : Prop := ∀ t ∈ s.types, (t.fields.map (Catalog.attributeName ·.name)).Nodup

structure Distinct (s : Spec) : Prop extends s.Named where
  attributes : ∀ t ∈ s.types, (t.fields.map (Catalog.attributeName ·.name)).Nodup

variable {s : Spec} {scope : Scope} {told : String → Bool} {p : Param} {ps : List Param}
  {f g : Draft.Field} {fs gs : List Draft.Field}

theorem Distinct.renames (distinct : s.Distinct) {id : String} {t : ApiType} {key : Nat} {d : Draft}
    (he : s.typeEntry? id = some (t, key)) (hd : s.Offers d (.ref id)) : s.Renames t.name d := by
  intro e h
  generalize hn : Draft.named t.name = n at h
  induction h with
  | @named i u k entry =>
      have hname : t.name = u.name := Draft.named.inj hn
      obtain rfl : t = u :=
        List.inj_on_of_nodup_map distinct.names (typeEntry?_mem he) (typeEntry?_mem entry) hname
      rw [← typeEntry?_id entry, typeEntry?_id he]
      exact hd
  | subtype entry name shape mem _ ih => exact .subtype entry name shape mem (ih hn)
  | option mem _ ih => exact .option mem (ih hn)
  | _ => cases hn

theorem RecordOf.apart {id : String} {t : ApiType} {key : Nat} (hr : s.RecordOf id t key ps) (apart : s.Apart) :
    (ps.map (Catalog.attributeName ·.name)).Nodup := by
  have hfields := apart t (typeEntry?_mem hr.entry)
  rwa [ApiType.fields, hr.shape] at hfields

theorem RecordOf.attributes {id : String} {t : ApiType} {key : Nat} (hr : s.RecordOf id t key ps)
    (distinct : s.Distinct) : (ps.map (Catalog.attributeName ·.name)).Nodup :=
  hr.apart distinct.attributes

theorem OffersField.resolveField (names : s.Names scope) (named : s.Named) (hf : s.OffersField told p f)
    (h : Site.resolveField scope f = .ok g) : s.OffersField told p g := by
  obtain ⟨d, hd, rfl⟩ := Site.resolveField_eq_ok h
  refine ⟨hf.name, hf.wire, hf.required, fun ht => ?_, fun ht => names.resolve named (hf.typed ht) hd⟩
  rw [hf.literal ht] at hd
  cases hd
  rfl

theorem offersFields_resolve (names : s.Names scope) (named : s.Named) (hfs : List.Forall₂ (s.OffersField told) ps fs)
    (h : fs.mapM (Site.resolveField scope) = .ok gs) : List.Forall₂ (s.OffersField told) ps gs :=
  Site.forall₂_resolved (fun hf hg => hf.resolveField names named hg) hfs h

end Spec

end BotApi
