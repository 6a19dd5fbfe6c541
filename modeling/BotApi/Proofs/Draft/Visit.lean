import BotApi.Catalog.Compile
import BotApi.Proofs.Draft.Substitute
import BotApi.Proofs.Result
/-!
Building records. What a record leads to does not depend on how deep one may go, as long as that is
deep enough; and two sites that agree on some records build them alike.
-/

namespace BotApi.Draft

theorem foldlM_congr {α β : Type} {P : α → Prop} {f g : α → β → Except Obstacle α}
    {xs : List β} {a : α} (hfg : ∀ a x, P a → f a x = g a x)
    (hf : ∀ a x b, P a → f a x = .ok b → P b) (ha : P a) : xs.foldlM f a = xs.foldlM g a := by
  induction xs generalizing a with
  | nil => rfl
  | cons x xs ih =>
      rw [List.foldlM_cons, List.foldlM_cons, ← hfg a x ha]
      cases hx : f a x with
      | error e => rfl
      | ok a' => exact ih (hf a x a' ha hx)

namespace Site

variable {site : Site} {origin : Option Origin} {p p' : Progress} {key : Nat}

theorem choiceOf_ne_undefined (field : Option String) (ds : List Draft) (ss : List Schema) (fault : NameFault) :
    site.choiceOf field ds ss ≠ .error (.undefined fault) := by
  unfold choiceOf
  split
  · simp
  · split
    · simp
    · split
      · split <;> simp
      · simp

theorem choiceOf_eq_ok {field : Option String} {ds : List Draft} {ss : List Schema} {schema : Schema}
    (h : site.choiceOf field ds ss = .ok schema) : field = none ∧ schema = .firstOf ss ∨
      ∃ f texts, field = some f ∧ ds.mapM (site.tagText? f) = some texts ∧ texts.Nodup ∧
        schema = .tagged (readers f) (texts.zip ss) := by
  unfold choiceOf at h
  split at h
  · cases h
  · split at h
    · exact .inl ⟨rfl, (Except.ok.inj h).symm⟩
    · rename_i f
      split at h
      · rename_i texts htexts
        split at h
        · rename_i hnodup
          exact .inr ⟨f, texts, rfl, htexts, hnodup, (Except.ok.inj h).symm⟩
        · cases h
      · cases h

mutual
theorem named_mem_of_schemaOf {fault : NameFault} : ∀ {d : Draft},
    site.schemaOf d = .error (.undefined fault) → ∃ n, named n ∈ d.leaves
  | basic _, h | literal _, h | .record _, h => by cases h
  | named n, _ => ⟨n, by simp [leaves]⟩
  | array d, h => by
      rw [schemaOf] at h
      cases hd : site.schemaOf d with
      | ok s => simp [hd, Except.map] at h
      | error o =>
          rw [hd] at h
          cases h
          exact named_mem_of_schemaOf (d := d) hd
  | union ds, h => by
      rw [schemaOf] at h
      cases hds : site.schemasOf ds with
      | ok ss => simp [hds, Except.map] at h
      | error o =>
          rw [hds] at h
          cases h
          exact named_mem_of_schemasOf hds
  | choice t f ds, h => by
      rw [schemaOf] at h
      cases hds : site.schemasOf ds with
      | ok ss =>
          rw [hds] at h
          exact absurd h (choiceOf_ne_undefined f ds ss fault)
      | error o =>
          rw [hds] at h
          cases h
          exact named_mem_of_schemasOf hds
theorem named_mem_of_schemasOf {fault : NameFault} : ∀ {ds : List Draft},
    site.schemasOf ds = .error (.undefined fault) → ∃ n, named n ∈ leavesList ds
  | [], h => by cases h
  | d :: ds, h => by
      rw [schemasOf] at h
      simp only [leavesList, List.mem_append]
      cases hd : site.schemaOf d with
      | error o =>
          rw [hd] at h
          cases h
          obtain ⟨n, hn⟩ := named_mem_of_schemaOf hd
          exact ⟨n, .inl hn⟩
      | ok s =>
          rw [hd] at h
          cases hds : site.schemasOf ds with
          | ok ss => simp [hds, Except.bind, Except.map] at h
          | error o =>
              simp only [hds, Except.bind, Except.map, Except.error.injEq] at h
              subst h
              obtain ⟨n, hn⟩ := named_mem_of_schemasOf hds
              exact ⟨n, .inr hn⟩
end

variable {scope : Scope}

theorem schemaWithin_of_keepsName {d : Draft} (h : d.keepsName = false) :
    site.schemaWithin scope d = site.schemaOf d := by
  unfold schemaWithin
  split
  · rename_i n hn
    obtain ⟨m, hm⟩ := named_mem_of_schemaOf hn
    exact absurd hm (keepsName_eq_false.1 h m)
  · rfl

theorem schemaWithin_eq_ok {d : Draft} {schema : Schema} :
    site.schemaWithin scope d = .ok schema ↔ site.schemaOf d = .ok schema := by
  unfold schemaWithin
  cases site.schemaOf d with
  | ok s => rfl
  | error o => split <;> simp_all

theorem buildField_eq_ok {visit : Progress → Nat → Except Obstacle Progress} {f : Field}
    {acc acc' : Progress × List Schema.Field} (h : site.buildField scope visit acc f = .ok acc') :
    f.draft.keys.foldlM visit acc.1 = .ok acc'.1 ∧ ∃ schema, site.schemaOf f.draft = .ok schema ∧
      acc'.2 = acc.2 ++ [fieldSchema f schema] := by
  obtain ⟨q, hkeys, h⟩ := ok_of_bind h
  obtain ⟨schema, hschema, rfl⟩ := ok_of_map h
  exact ⟨hkeys, schema, schemaWithin_eq_ok.1 hschema, rfl⟩

theorem visited_buildField {visit : Progress → Nat → Except Obstacle Progress}
    (hvisit : ∀ p k p', visit p k = .ok p' → p.visited ⊆ p'.visited)
    {acc acc' : Progress × List Schema.Field} {f : Field}
    (h : site.buildField scope visit acc f = .ok acc') : acc.1.visited ⊆ acc'.1.visited :=
  foldlM_keeps (P := fun q => acc.1.visited ⊆ q.visited)
    (fun q k _ q' hq hk => List.Subset.trans hq (hvisit q k q' hk)) (List.Subset.refl _) (buildField_eq_ok h).1

theorem visit_cases {n : Nat} (h : site.visit (n + 1) origin p key = .ok p') :
    p' = p ∧ (key ∈ p.visited ∨ site.record? key = none) ∨
      ∃ r fs q gs, key ∉ p.visited ∧ site.record? key = some r ∧ site.fieldsOf origin r key = .ok fs ∧
        fs.foldlM (site.buildField (site.scopeOf origin r key) (site.visit n (some (origin.getD ⟨r.name, key⟩))))
          (⟨key :: p.visited, p.built⟩, []) = .ok (q, gs) ∧
        p' = { q with built := q.built ++ [(key, ⟨r.name, gs, true, .none⟩)] } := by
  unfold visit at h
  split at h
  · rename_i hvisited
    cases h
    exact .inl ⟨rfl, .inl (by simpa using hvisited)⟩
  · rename_i hnew
    split at h
    · rename_i hnone
      cases h
      exact .inl ⟨rfl, .inr hnone⟩
    · rename_i r hr
      obtain ⟨fs, hfs, h⟩ := ok_of_bind h
      obtain ⟨⟨q, gs⟩, hfold, rfl⟩ := ok_of_map h
      exact .inr ⟨r, fs, q, gs, by simpa using hnew, hr, hfs, hfold, rfl⟩

theorem visited_visit (n : Nat) (h : site.visit n origin p key = .ok p') :
    p.visited ⊆ p'.visited := by
  induction n generalizing origin p p' key with
  | zero =>
      cases h
      exact List.Subset.refl _
  | succ n ih =>
      rcases visit_cases h with ⟨rfl, -⟩ | ⟨r, fs, q, gs, -, -, -, hfold, rfl⟩
      · exact List.Subset.refl _
      · refine foldlM_keeps (P := fun acc => p.visited ⊆ acc.1.visited)
          (fun acc f _ acc' hacc hf => ?_) (by simp) hfold
        exact List.Subset.trans hacc (visited_buildField (fun _ _ _ => ih) hf)

def unvisited (site : Site) (p : Progress) : Nat :=
  (site.records.filter fun e => !p.visited.contains e.1).length

theorem unvisited_le_of_subset (h : p.visited ⊆ p'.visited) :
    site.unvisited p' ≤ site.unvisited p := by
  simp only [unvisited, ← List.countP_eq_length_filter]
  refine List.countP_mono_left fun e _ he => ?_
  simp only [Bool.not_eq_true', List.contains_eq_mem, decide_eq_false_iff_not] at he ⊢
  exact fun hm => he (h hm)

theorem unvisited_lt {r : Record} (hr : site.record? key = some r)
    (hnew : p.visited.contains key = false) (built : Schema.Records) :
    site.unvisited ⟨key :: p.visited, built⟩ < site.unvisited p := by
  obtain ⟨e, he, -⟩ := Option.map_eq_some_iff.1 hr
  have hkey : e.1 = key := by simpa using List.find?_some he
  refine Compile.length_filter_lt (a := e) (fun x hx => ?_) (List.mem_of_find?_eq_some he) ?_ ?_
  · simp only [List.contains_cons, Bool.not_or, Bool.and_eq_true] at hx
    exact hx.2
  · rw [hkey, hnew]
    rfl
  · simp [hkey]

theorem unvisited_lt_depth (site : Site) (p : Progress) : site.unvisited p < site.depth :=
  Nat.lt_succ_of_le (List.length_filter_le _ _)

theorem visit_fuel {n m : Nat} (hn : site.unvisited p < n) (hm : site.unvisited p < m) :
    site.visit n origin p key = site.visit m origin p key := by
  induction n generalizing m origin p key with
  | zero => omega
  | succ n ih =>
      obtain ⟨m, rfl⟩ : ∃ m', m = m' + 1 := ⟨m - 1, by omega⟩
      unfold visit
      cases hnew : p.visited.contains key with
      | true => rfl
      | false =>
          simp only [Bool.false_eq_true, ↓reduceIte]
          cases hr : site.record? key with
          | none => rfl
          | some r =>
              dsimp only
              congr 1
              funext fs
              have hlt := unvisited_lt hr hnew p.built
              congr 1
              refine foldlM_congr (P := fun acc => site.unvisited acc.1 < site.unvisited p)
                (fun acc f hacc => ?_) (fun acc f acc' hacc hf => ?_) hlt
              · unfold buildField
                congr 1
                refine foldlM_congr (P := fun q => site.unvisited q < site.unvisited p)
                  (fun q k hq => ih (by omega) (by omega)) (fun q k q' hq hk => ?_) hacc
                exact Nat.lt_of_le_of_lt (unvisited_le_of_subset (visited_visit n hk)) hq
              · exact Nat.lt_of_le_of_lt (unvisited_le_of_subset
                  (visited_buildField (fun _ _ _ => visited_visit n) hf)) hacc

structure Mirrors (site site' : Site) (undecided : Prop) (K : Nat → Prop) (O : Origin → Prop) :
    Prop where
  record : ∀ {k}, K k → ∃ r r', site.record? k = some r ∧ site'.record? k = some r' ∧
    r.name = r'.name ∧ r'.complete = true ∧ O ⟨r.name, k⟩ ∧
    (∀ f ∈ r'.fields, f.draft.keepsName = false) ∧
    ∀ origin, (∀ o ∈ origin, O o) →
      OrUndefined undecided (site.fieldsOf origin r k) (.ok r'.fields) ∧
      ∀ fs, site.fieldsOf origin r k = .ok fs → ∀ f ∈ fs, ∀ k' ∈ f.draft.keys, K k'
  tag : ∀ {k}, K k → ∀ f, site.tagText? f (.record k) = site'.tagText? f (.record k)

namespace Mirrors

variable {site' : Site} {undecided : Prop} {K : Nat → Prop} {O : Origin → Prop}

theorem tagText? (h : Mirrors site site' undecided K O) {d : Draft} (hd : ∀ k ∈ d.keys, K k)
    (f : String) : site.tagText? f d = site'.tagText? f d := by
  cases d with
  | record k => exact h.tag (hd k (by simp [keys])) f
  | _ => rfl

theorem mapM_tagText? (h : Mirrors site site' undecided K O) {ds : List Draft}
    (hds : ∀ k ∈ keysList ds, K k) (f : String) :
    ds.mapM (site.tagText? f) = ds.mapM (site'.tagText? f) := by
  induction ds with
  | nil => rfl
  | cons d ds ih =>
      simp only [keysList, List.mem_append] at hds
      rw [List.mapM_cons, List.mapM_cons, h.tagText? (fun k hk => hds k (.inl hk)),
        ih fun k hk => hds k (.inr hk)]

mutual
theorem schemaOf (h : Mirrors site site' undecided K O) : ∀ {d : Draft},
    (∀ k ∈ d.keys, K k) → site.schemaOf d = site'.schemaOf d
  | basic _, _ | literal _, _ | named _, _ | .record _, _ => rfl
  | array d, hd => by
      rw [Site.schemaOf, Site.schemaOf, h.schemaOf (d := d) hd]
  | union ds, hd => by
      have hds : ∀ k ∈ keysList ds, K k := hd
      rw [Site.schemaOf, Site.schemaOf, h.schemasOf hds]
  | choice s f ds, hd => by
      have hds : ∀ k ∈ keysList ds, K k := hd
      rw [Site.schemaOf, Site.schemaOf, h.schemasOf hds]
      congr 1
      funext ss
      unfold choiceOf
      cases f with
      | none => rfl
      | some f =>
          dsimp only
          rw [h.mapM_tagText? hds]
theorem schemasOf (h : Mirrors site site' undecided K O) : ∀ {ds : List Draft},
    (∀ k ∈ keysList ds, K k) → site.schemasOf ds = site'.schemasOf ds
  | [], _ => rfl
  | d :: ds, hds => by
      simp only [keysList, List.mem_append] at hds
      rw [Site.schemasOf, Site.schemasOf, h.schemaOf fun k hk => hds k (.inl hk),
        h.schemasOf fun k hk => hds k (.inr hk)]
end

theorem buildField (h : Mirrors site site' undecided K O) {scope scope' : Scope}
    {visit visit' : Progress → Nat → Except Obstacle Progress}
    (hvisit : ∀ k, K k → ∀ p, OrUndefined undecided (visit p k) (visit' p k)) {f : Field}
    (hf : ∀ k ∈ f.draft.keys, K k) (hnames : f.draft.keepsName = false) (acc : Progress × List Schema.Field) :
    OrUndefined undecided (site.buildField scope visit acc f) (site'.buildField scope' visit' acc f) := by
  unfold Site.buildField
  refine OrUndefined.bind (OrUndefined.foldlM _ fun k hk p => hvisit k (hf k hk) p) fun p _ => ?_
  rw [schemaWithin_of_keepsName hnames, schemaWithin_of_keepsName hnames, h.schemaOf hf]
  exact .refl _

theorem visit (h : Mirrors site site' undecided K O) (n : Nat) {origin : Option Origin}
    (horigin : ∀ o ∈ origin, O o) {key : Nat} (hkey : K key) (p : Progress) :
    OrUndefined undecided (site.visit n origin p key) (site'.visit n origin p key) := by
  induction n generalizing origin key p with
  | zero => exact .refl _
  | succ n ih =>
      obtain ⟨r, r', hr, hr', hname, hcomplete, ho, hnames, hfields⟩ := h.record hkey
      unfold Site.visit
      cases hnew : p.visited.contains key with
      | true =>
          simp only [↓reduceIte]
          exact .refl _
      | false =>
          simp only [Bool.false_eq_true, ↓reduceIte, hr, hr']
          obtain ⟨hfs, hkeys⟩ := hfields origin horigin
          have hfs' : site'.fieldsOf origin r' key = .ok r'.fields := by
            rw [fieldsOf, if_pos hcomplete]
          rw [hfs', ← hname]
          refine hfs.bind fun fs hok => ?_
          have hfresh : ∀ f ∈ fs, f.draft.keepsName = false := by
            rcases hfs with heq | ⟨-, n, hn⟩
            · rwa [Except.ok.inj (hok.symm.trans heq)]
            · rw [hn] at hok
              cases hok
          refine OrUndefined.map (OrUndefined.foldlM _ fun f hf acc => ?_) _
          refine h.buildField (fun k hk p => ih ?_ hk p) (hkeys fs hok f hf) (hfresh f hf) acc
          intro o hmem
          cases origin with
          | none =>
              cases hmem
              exact ho
          | some o' =>
              cases hmem
              exact horigin o' rfl

theorem visit_depth (h : Mirrors site site' undecided K O) {key : Nat} (hkey : K key)
    (p : Progress) : OrUndefined undecided (site.visit site.depth none p key)
      (site'.visit site'.depth none p key) := by
  have hvisit : OrUndefined undecided (site.visit (max site.depth site'.depth) none p key)
      (site'.visit (max site.depth site'.depth) none p key) := h.visit _ (by simp) hkey p
  have hle := Nat.le_max_left site.depth site'.depth
  have hle' := Nat.le_max_right site.depth site'.depth
  rw [visit_fuel (unvisited_lt_depth site p) (Nat.lt_of_lt_of_le (unvisited_lt_depth site p) hle),
    visit_fuel (unvisited_lt_depth site' p)
      (Nat.lt_of_lt_of_le (unvisited_lt_depth site' p) hle')]
  exact hvisit

theorem recordsFrom (h : Mirrors site site' undecided K O) {k : Nat} (hk : K k) :
    OrUndefined undecided (site.recordsFrom k) (site'.recordsFrom k) :=
  (h.visit_depth hk _).map _

theorem build (h : Mirrors site site' undecided K O) {d : Draft} (hd : ∀ k ∈ d.keys, K k) :
    OrUndefined undecided (site.build d) (site'.build d) := by
  refine OrUndefined.bind (OrUndefined.foldlM _ fun k hk p => h.visit_depth (hd k hk) p)
    fun p _ => ?_
  rw [h.schemaOf hd]
  exact .refl _

end Mirrors

mutual
theorem named_not_mem_of_schemaOf {n : String} : ∀ {d : Draft} {s : Schema},
    site.schemaOf d = .ok s → named n ∉ d.leaves
  | basic _, _, _ | literal _, _, _ | .record _, _, _ => by simp [leaves]
  | named m, s, h => by simp [schemaOf] at h
  | array d, s, h => by
      obtain ⟨_, hd, -⟩ := ok_of_map h
      exact named_not_mem_of_schemaOf (d := d) hd
  | union ds, s, h => by
      obtain ⟨_, hds, -⟩ := ok_of_map h
      exact named_not_mem_of_schemasOf hds
  | choice t f ds, s, h => by
      obtain ⟨_, hds, -⟩ := ok_of_bind h
      exact named_not_mem_of_schemasOf hds
theorem named_not_mem_of_schemasOf {n : String} : ∀ {ds : List Draft} {ss : List Schema},
    site.schemasOf ds = .ok ss → named n ∉ leavesList ds
  | [], _, _ => by simp [leavesList]
  | d :: ds, ss, h => by
      obtain ⟨_, hd, h⟩ := ok_of_bind h
      obtain ⟨_, hds, -⟩ := ok_of_map h
      rw [leavesList, List.mem_append, not_or]
      exact ⟨named_not_mem_of_schemaOf hd, named_not_mem_of_schemasOf hds⟩
end

theorem build_error_of_keepsName {d : Draft} (h : d.keepsName = true) :
    ∃ o, site.build d = .error o := by
  unfold build
  cases d.keys.foldlM (site.visit site.depth none) ⟨[], []⟩ with
  | error o => exact ⟨o, rfl⟩
  | ok p =>
      cases hs : site.schemaOf d with
      | error o => exact ⟨o, by simp [Except.bind, Except.map]⟩
      | ok s =>
          have hnone := keepsName_eq_false.2 fun n => named_not_mem_of_schemaOf hs
          rw [h] at hnone
          cases hnone

end Site

end BotApi.Draft
