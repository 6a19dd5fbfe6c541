import BotApi.Proofs.Draft.Visit
import Mathlib.Data.List.Forall2
/-!
What building comes to when it succeeds: every record it visits is built of its own fields, and every record
that these lead to is built as well.
-/

namespace BotApi.Draft

theorem foldlM_reaches {α β : Type} {P : α → Prop} {L : α → α → Prop} {R : α → β → Prop}
    {f : α → β → Except Obstacle α} {xs : List β} {start stop : α} (refl : ∀ a, L a a)
    (trans : ∀ {a b c}, L a b → L b c → L a c) (mono : ∀ {a b x}, L a b → R a x → R b x)
    (step : ∀ a x b, P a → f a x = .ok b → P b ∧ L a b ∧ R b x) (hstart : P start)
    (h : xs.foldlM f start = .ok stop) : P stop ∧ L start stop ∧ ∀ x ∈ xs, R stop x := by
  induction xs generalizing start with
  | nil =>
      cases h
      exact ⟨hstart, refl _, by simp⟩
  | cons x xs ih =>
      rw [List.foldlM_cons] at h
      obtain ⟨next, hx, h⟩ := ok_of_bind h
      obtain ⟨hnext, hle, hr⟩ := step start x next hstart hx
      obtain ⟨hstop, hle', hrs⟩ := ih hnext h
      exact ⟨hstop, trans hle hle', List.forall_mem_cons.2 ⟨mono hle' hr, hrs⟩⟩

namespace Site

structure Made (site : Site) (fs : List Field) (r : Schema.Record) : Prop where
  closed : r.closed = true
  check : r.check = .none
  fields : List.Forall₂ (fun f g => ∃ schema, site.schemaOf f.draft = .ok schema ∧
    g = fieldSchema f schema) fs r.fields

structure Within (site : Site) (K : Nat → Prop) (O : Origin → Prop) : Prop where
  origin : ∀ {k r}, K k → site.record? k = some r → O ⟨r.name, k⟩
  keys : ∀ {origin k r fs}, (∀ o ∈ origin, O o) → K k → site.record? k = some r →
    site.fieldsOf origin r k = .ok fs → ∀ f ∈ fs, ∀ k' ∈ f.draft.keys, K k'

def MadeFrom (site : Site) (K : Nat → Prop) (O : Origin → Prop) (key : Nat) (g : Schema.Record) : Prop :=
  ∃ origin r fs, K key ∧ (∀ o ∈ origin, O o) ∧ site.record? key = some r ∧
    site.fieldsOf origin r key = .ok fs ∧ site.Made fs g

variable {site : Site} {origin : Option Origin} {p p' : Progress} {key : Nat} {K : Nat → Prop}
  {O : Origin → Prop} {path : List Nat} {rs : Schema.Records}

theorem forall₂_schemasOf {ds : List Draft} {ss : List Schema} (h : site.schemasOf ds = .ok ss) :
    List.Forall₂ (fun d s => site.schemaOf d = .ok s) ds ss := by
  induction ds generalizing ss with
  | nil =>
      cases h
      exact .nil
  | cons d ds ih =>
      obtain ⟨s, hd, h⟩ := ok_of_bind h
      obtain ⟨rest, hds, rfl⟩ := ok_of_map h
      exact .cons hd (ih hds)

theorem foldlM_buildField {scope : Scope} {visit : Progress → Nat → Except Obstacle Progress} {fs : List Field}
    {acc acc' : Progress × List Schema.Field} (h : fs.foldlM (site.buildField scope visit) acc = .ok acc') :
    ∃ gs, acc'.2 = acc.2 ++ gs ∧ List.Forall₂ (fun f g => ∃ schema,
      site.schemaOf f.draft = .ok schema ∧ g = fieldSchema f schema) fs gs := by
  induction fs generalizing acc with
  | nil =>
      cases h
      exact ⟨[], by simp, .nil⟩
  | cons f fs ih =>
      rw [List.foldlM_cons] at h
      obtain ⟨acc₁, hf, h⟩ := ok_of_bind h
      obtain ⟨-, schema, hschema, heq⟩ := buildField_eq_ok hf
      obtain ⟨gs, hgs, hall⟩ := ih h
      exact ⟨fieldSchema f schema :: gs, by simp [hgs, heq], .cons ⟨schema, hschema, rfl⟩ hall⟩

theorem made_of_foldlM {scope : Scope} {visit : Progress → Nat → Except Obstacle Progress} {fs : List Field} {q : Progress}
    {gs : List Schema.Field} (h : fs.foldlM (site.buildField scope visit) (p, []) = .ok (q, gs)) (name : String) :
    site.Made fs ⟨name, gs, true, .none⟩ := by
  obtain ⟨gs', hgs, hmade⟩ := foldlM_buildField h
  obtain rfl : gs = gs' := by simpa using hgs
  exact ⟨rfl, rfl, hmade⟩

theorem visit_made (within : site.Within K O) (n : Nat) (horigin : ∀ o ∈ origin, O o) (hkey : K key)
    (hp : ∀ e ∈ p.built, site.MadeFrom K O e.1 e.2)
    (h : site.visit n origin p key = .ok p') : ∀ e ∈ p'.built, site.MadeFrom K O e.1 e.2 := by
  induction n generalizing origin p p' key with
  | zero =>
      cases h
      exact hp
  | succ n ih =>
      rcases visit_cases h with ⟨rfl, -⟩ | ⟨r, fs, q, gs, -, hr, hfs, hfold, rfl⟩
      · exact hp
      · have hfrom : ∀ o ∈ some (origin.getD ⟨r.name, key⟩), O o := by
          intro o ho
          cases origin with
          | none =>
              cases ho
              exact within.origin hkey hr
          | some o' =>
              cases ho
              exact horigin o' rfl
        have hq : ∀ e ∈ q.built, site.MadeFrom K O e.1 e.2 :=
          foldlM_keeps (P := fun acc : Progress × List Schema.Field =>
            ∀ e ∈ acc.1.built, site.MadeFrom K O e.1 e.2)
            (fun _ f hf _ hacc hstep => foldlM_keeps (P := fun q : Progress =>
              ∀ e ∈ q.built, site.MadeFrom K O e.1 e.2)
              (fun _ k hk _ hq hv => ih hfrom (within.keys horigin hkey hr hfs f hf k hk) hq hv) hacc
              (buildField_eq_ok hstep).1) hp hfold
        intro e he
        rcases List.mem_append.1 he with he | he
        · exact hq e he
        · obtain rfl : e = (key, ⟨r.name, gs, true, .none⟩) := by simpa using he
          exact ⟨origin, r, fs, hkey, horigin, hr, hfs, made_of_foldlM hfold r.name⟩

structure Closed (site : Site) (path : List Nat) (p : Progress) : Prop where
  visited : ∀ e ∈ p.built, e.1 ∈ p.visited
  built : ∀ k ∈ p.visited, k ∉ path → ∃ g, (k, g) ∈ p.built
  leads : ∀ k ∈ p.visited, k ∉ path → ∀ r, site.record? k = some r → ∀ f ∈ r.fields,
    ∀ k' ∈ f.draft.keys, site.record? k' ≠ none → k' ∈ p.visited

-- A record is on the path while what it leads to is visited.
theorem Closed.enter (h : site.Closed path p) (key : Nat) : site.Closed (key :: path) ⟨key :: p.visited, p.built⟩ where
  visited e he := .tail _ (h.visited e he)
  built k hk hpath := by
    rw [List.mem_cons, not_or] at hpath
    exact h.built k (List.mem_of_ne_of_mem hpath.1 hk) hpath.2
  leads k hk hpath r hr f hf k' hk' hknown := by
    rw [List.mem_cons, not_or] at hpath
    exact .tail _ (h.leads k (List.mem_of_ne_of_mem hpath.1 hk) hpath.2 r hr f hf k' hk' hknown)

theorem Closed.leave {r : Draft.Record} {g : Schema.Record} (h : site.Closed (key :: path) p) (hkey : key ∈ p.visited)
    (hr : site.record? key = some r)
    (hleads : ∀ f ∈ r.fields, ∀ k ∈ f.draft.keys, site.record? k ≠ none → k ∈ p.visited) :
    site.Closed path ⟨p.visited, p.built ++ [(key, g)]⟩ where
  visited e he := by
    rcases List.mem_append.1 he with he | he
    · exact h.visited e he
    · rw [List.mem_singleton.1 he]
      exact hkey
  built k hk hpath := by
    by_cases heq : k = key
    · subst heq
      exact ⟨g, List.mem_append_right _ (List.mem_singleton.2 rfl)⟩
    · obtain ⟨g', hg'⟩ := h.built k hk (by simp [heq, hpath])
      exact ⟨g', by simp [hg']⟩
  leads k hk hpath r' hr' f hf k' hk' hknown := by
    by_cases heq : k = key
    · subst heq
      cases hr.symm.trans hr'
      exact hleads f hf k' hk' hknown
    · exact h.leads k hk (by simp [heq, hpath]) r' hr' f hf k' hk' hknown

theorem visit_closed (hcomplete : ∀ {k r}, site.record? k = some r → r.complete = true) (n : Nat)
    (hn : site.unvisited p < n) (hp : site.Closed path p) (h : site.visit n origin p key = .ok p') :
    site.Closed path p' ∧ (site.record? key ≠ none → key ∈ p'.visited) := by
  induction n generalizing origin path p p' key with
  | zero => exact absurd hn (Nat.not_lt_zero _)
  | succ n ih =>
      rcases visit_cases h with ⟨rfl, hdone⟩ | ⟨r, fs, q, gs, hnew, hr, hfs, hfold, rfl⟩
      · exact ⟨hp, fun hknown => hdone.resolve_right hknown⟩
      · rw [fieldsOf, if_pos (hcomplete hr)] at hfs
        cases hfs
        have hless : site.unvisited ⟨key :: p.visited, p.built⟩ < n :=
          Nat.lt_of_lt_of_le (unvisited_lt hr (by simpa using hnew) p.built) (Nat.le_of_lt_succ hn)
        have hkey : ∀ q k q', site.unvisited q < n ∧ site.Closed (key :: path) q →
            site.visit n (some (origin.getD ⟨r.name, key⟩)) q k = .ok q' →
            (site.unvisited q' < n ∧ site.Closed (key :: path) q') ∧ q.visited ⊆ q'.visited ∧
              (site.record? k ≠ none → k ∈ q'.visited) := by
          rintro q k q' ⟨hq, hclosed⟩ hv
          have hsubset := visited_visit n hv
          obtain ⟨hclosed', hmem⟩ := ih hq hclosed hv
          exact ⟨⟨Nat.lt_of_le_of_lt (unvisited_le_of_subset hsubset) hq, hclosed'⟩, hsubset, hmem⟩
        obtain ⟨⟨-, hclosed⟩, hsubset, hleads⟩ := foldlM_reaches
          (P := fun acc : Progress × List Schema.Field =>
            site.unvisited acc.1 < n ∧ site.Closed (key :: path) acc.1)
          (L := fun a b => a.1.visited ⊆ b.1.visited)
          (R := fun acc f => ∀ k ∈ f.draft.keys, site.record? k ≠ none → k ∈ acc.1.visited)
          (fun _ => List.Subset.refl _) List.Subset.trans
          (fun hle hr k hk hknown => hle (hr k hk hknown))
          (fun acc f acc' hacc hf => foldlM_reaches
            (P := fun q : Progress => site.unvisited q < n ∧ site.Closed (key :: path) q)
            (L := fun a b => a.visited ⊆ b.visited)
            (R := fun q k => site.record? k ≠ none → k ∈ q.visited)
            (fun _ => List.Subset.refl _) List.Subset.trans
            (fun hle hr hknown => hle (hr hknown)) hkey hacc (buildField_eq_ok hf).1)
          ⟨hless, hp.enter key⟩ hfold
        have hvisited : key ∈ q.visited := hsubset List.mem_cons_self
        exact ⟨hclosed.leave hvisited hr hleads, fun _ => hvisited⟩

structure Complete (site : Site) (keys : List Nat) (rs : Schema.Records) : Prop where
  entry : ∀ k ∈ keys, site.record? k ≠ none → ∃ g, rs.get? k = some g
  leads : ∀ {k g r}, rs.get? k = some g → site.record? k = some r → ∀ f ∈ r.fields,
    ∀ k' ∈ f.draft.keys, site.record? k' ≠ none → ∃ g', rs.get? k' = some g'

theorem exists_get?_of_mem {k : Nat} {g : Schema.Record} (h : (k, g) ∈ rs) : ∃ g', rs.get? k = some g' := by
  have hsome : (rs.find? (·.1 == k)).isSome = true := List.find?_isSome.2 ⟨_, h, by simp⟩
  obtain ⟨e, he⟩ := Option.isSome_iff_exists.1 hsome
  exact ⟨e.2, by rw [Schema.Records.get?, he]; rfl⟩

theorem mem_of_get? {k : Nat} {g : Schema.Record} (h : rs.get? k = some g) : (k, g) ∈ rs := by
  rw [Schema.Records.get?, Option.map_eq_some_iff] at h
  obtain ⟨e, he, rfl⟩ := h
  obtain rfl : e.1 = k := by simpa using List.find?_some he
  exact List.mem_of_find?_eq_some he

theorem build_eq_ok {d : Draft} {schema : Schema} (h : site.build d = .ok (rs, schema)) :
    ∃ q, d.keys.foldlM (site.visit site.depth none) ⟨[], []⟩ = .ok q ∧ q.built = rs ∧
      site.schemaOf d = .ok schema := by
  obtain ⟨q, hfold, h⟩ := ok_of_bind h
  obtain ⟨schema', hschema, heq⟩ := ok_of_map h
  cases heq
  exact ⟨q, hfold, rfl, hschema⟩

theorem build_made (within : site.Within K O) {d : Draft} {schema : Schema} (hd : ∀ k ∈ d.keys, K k)
    (h : site.build d = .ok (rs, schema)) {k : Nat} {g : Schema.Record} (hg : rs.get? k = some g) : site.MadeFrom K O k g := by
  obtain ⟨q, hfold, rfl, -⟩ := build_eq_ok h
  have hall : ∀ e ∈ q.built, site.MadeFrom K O e.1 e.2 :=
    foldlM_keeps (P := fun q : Progress => ∀ e ∈ q.built, site.MadeFrom K O e.1 e.2)
      (fun _ k hk _ hq hv => visit_made within _ (by simp) (hd k hk) hq hv) (by simp) hfold
  exact hall _ (mem_of_get? hg)

theorem build_complete {d : Draft} {schema : Schema}
    (hcomplete : ∀ {k r}, site.record? k = some r → r.complete = true)
    (h : site.build d = .ok (rs, schema)) : site.Complete d.keys rs := by
  obtain ⟨q, hfold, rfl, -⟩ := build_eq_ok h
  obtain ⟨hclosed, -, hkeys⟩ := foldlM_reaches (P := site.Closed []) (L := fun a b => a.visited ⊆ b.visited)
    (R := fun q k => site.record? k ≠ none → k ∈ q.visited) (fun _ => List.Subset.refl _)
    List.Subset.trans (fun hle hr hknown => hle (hr hknown))
    (fun p k p' hp hv => by
      obtain ⟨hclosed, hmem⟩ := visit_closed hcomplete _ (unvisited_lt_depth site p) hp hv
      exact ⟨hclosed, visited_visit _ hv, hmem⟩) ⟨by simp, by simp, by simp⟩ hfold
  have hget {k : Nat} (hk : k ∈ q.visited) : ∃ g, q.built.get? k = some g := by
    obtain ⟨g, hg⟩ := hclosed.built k hk (by simp)
    exact exists_get?_of_mem hg
  refine ⟨fun k hk hknown => hget (hkeys k hk hknown), fun {k g r} hg hr f hf k' hk' hknown => ?_⟩
  exact hget (hclosed.leads k (hclosed.visited _ (mem_of_get? hg)) (by simp) r hr f hf k' hk' hknown)

end Site

end BotApi.Draft
