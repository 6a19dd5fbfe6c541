import BotApi.Proofs.Draft.History
/-!
The record of the parameters of a method. It has no name in it, so it is the same whatever was drafted
before.
-/

namespace BotApi

open Draft (OrUndefined Site Origin leaves record)
open Work (Gives)

namespace Spec

variable (s : Spec) (good : String → Prop) (m : Method)

noncomputable def idealParam (p : Param) : Draft.Field :=
  Work.draftField p (.ofExpr s.ideal p.type)

noncomputable def idealParams : List Draft.Field :=
  (m.params.map s.idealParam).foldl Draft.putField []

noncomputable def paramsSite : Site where
  records := s.blueprint.records ++
    [(s.types.length, ⟨Work.paramsName m, s.idealParams m, true⟩)]
  names := []

noncomputable def paramsOutcome : Except Error Draft.Record :=
  if (m.params.map s.idealParam).any fun f => f.name.startsWith "_" then
    .error (.misuse .schema "")
  else match (s.paramsSite m).recordsFrom s.types.length with
    | .ok _ => .ok ⟨Work.paramsName m, s.idealParams m, true⟩
    | .error (.undefined _) => .ok ⟨Work.paramsName m, s.idealParams m, false⟩
    | .error o => .error o.error

noncomputable def paramsAnswer (n : Schema.Naming) (params : Value) : Except Error Entries :=
  (s.paramsOutcome m).bind fun _ => (Draft.checkBuilt n ((s.paramsSite m).build (.record s.types.length))
    (if params.truthy then params else .dict [])).map Value.wireParams

theorem paramsAnswer_named (n n' : Schema.Naming) (params : Value) :
    SameFindings (s.paramsAnswer m n params) (s.paramsAnswer m n' params) := by
  unfold paramsAnswer
  cases s.paramsOutcome m with
  | error e => exact .same _
  | ok r => exact (SameFindings.checkBuilt n n' _ _).map _

structure Takes : Prop where
  refs : ∀ p ∈ m.params, ∀ i, p.type.Mentions i → good i
  name : ∀ t ∈ s.types, t.name ≠ Work.paramsName m

variable {s good m}

theorem KeyOf.ne_length {key : Nat} (h : s.KeyOf good key) : key ≠ s.types.length := by
  obtain ⟨id, t, ps, -, hr⟩ := h
  exact Nat.ne_of_lt (key_lt hr.entry)

theorem paramsSite_record? {key : Nat} {t : ApiType} (h : s.types[key]? = some t) :
    (s.paramsSite m).record? key = some ⟨t.name, s.idealFields t, true⟩ := by
  have hblueprint := blueprint_record? h
  unfold Site.record? at hblueprint ⊢
  rw [paramsSite, List.find?_append]
  cases hfound : s.blueprint.records.find? (·.1 == key) with
  | none =>
      rw [hfound] at hblueprint
      cases hblueprint
  | some e =>
      rw [hfound] at hblueprint
      rw [Option.some_or]
      exact hblueprint

theorem paramsSite_record?_length : (s.paramsSite m).record? s.types.length =
    some ⟨Work.paramsName m, s.idealParams m, true⟩ := by
  have hnone : s.blueprint.records.find? (·.1 == s.types.length) = none := by
    rw [List.find?_eq_none]
    intro e he
    obtain ⟨⟨t, key⟩, hmem, rfl⟩ := List.mem_map.1 he
    have hlt := (List.getElem?_eq_some_iff.1 (List.mem_zipIdx_iff_getElem?.1 hmem)).1
    simp only [beq_iff_eq]
    omega
  rw [Site.record?, paramsSite, List.find?_append, hnone]
  simp

theorem Takes.leaves (sound : s.Sound good) (hm : s.Takes good m) {f : Draft.Field}
    (hf : f ∈ s.idealParams m) : (∃ p ∈ m.params, f = s.idealParam p) ∧
      ∀ l ∈ f.draft.leaves, (∃ b, l = .basic b) ∨ ∃ k, l = .record k ∧ s.KeyOf good k := by
  rcases Draft.mem_foldl_putField hf with hf | hf
  · cases hf
  obtain ⟨p, hp, rfl⟩ := List.mem_map.1 hf
  refine ⟨⟨p, hp, rfl⟩, fun l hl => ?_⟩
  rcases Draft.mem_leaves_ofExpr hl with hb | ⟨i, hi, hl⟩
  · exact .inl hb
  · exact sound.leaves_ideal (hm.refs p hp i hi) l hl

end Spec

namespace Compiler

variable {s : Spec} {good : String → Prop} {m : Method} {c : Compiler}

theorem FitsField.of_param (sound : s.Sound good) (hm : s.Takes good m) {f : Draft.Field}
    (hf : f ∈ s.idealParams m) (hkeys : ∀ k ∈ f.draft.keys, c.Holds k) :
    FitsField s good [] c f f := by
  obtain ⟨⟨p, hp, rfl⟩, hleaves⟩ := hm.leaves sound hf
  refine ⟨rfl, rfl, rfl, .inr (.of_plain ?_ fun l hl => ?_)⟩
  · exact sound.subst_ofExpr fun i hi => hm.refs p hp i hi
  · rcases hleaves l hl with hb | ⟨k, rfl, hk⟩
    · exact .inl hb
    · exact .inr ⟨k, rfl, hk, hkeys k (Draft.mem_keys.2 hl)⟩

theorem mapM_settle {scope : Draft.Scope} {fs gs : List Draft.Field}
    (h : fs.mapM (Site.resolveField scope) = .ok gs) :
    fs.mapM (Work.settle scope) = Pure.pure gs := by
  have hgs := forall₂_of_mapM h
  clear h
  induction hgs with
  | nil => rfl
  | @cons f g fs gs hf _ ih =>
      have hsettle : Work.settle scope f = Pure.pure g := by
        rw [Work.settle, hf]
      rw [List.mapM_cons, hsettle, ih, pure_bind, pure_bind]

theorem mirrors_params (inv : Inv s good [] c) (sound : s.Sound good) (hm : s.Takes good m)
    (hkeys : ∀ f ∈ s.idealParams m, ∀ k ∈ f.draft.keys, c.Holds k) (complete : Bool) :
    Site.Mirrors (c.putRecord s.types.length
        ⟨Work.paramsName m, s.idealParams m, complete⟩).site (s.paramsSite m) ([] ≠ ([] : List String))
      (fun k => Stands s good c k ∨ k = s.types.length)
      (fun o => StandsAs s good c o ∨ o = ⟨Work.paramsName m, s.types.length⟩) := by
  have hinv : Inv s good [] (c.putRecord s.types.length
      ⟨Work.paramsName m, s.idealParams m, complete⟩) :=
    inv.putRecord fun hg hr => absurd rfl (Spec.KeyOf.ne_length ⟨_, _, _, hg, hr⟩)
  refine hinv.mirrors_of sound (fun {k} hk hholds => ?_) (fun {o} ho => ?_) (fun {k} hk => ?_)
  · have hne := hk.ne_length
    rcases holds_putRecord_iff.1 hholds with h | h
    · exact .inr h.symm
    · exact .inl ⟨hk, h⟩
  · rcases ho with ho | rfl
    · exact ⟨(ho.fronts sound).ideal, .inl (ho.fronts sound).known⟩
    · refine ⟨fun {id} hid => ?_, .inr rfl⟩
      obtain ⟨-, t, key, he, hname⟩ := hid
      exact absurd hname (hm.name t (Spec.typeEntry?_mem he))
  · rcases hk with ⟨hk, hholds⟩ | rfl
    · have hne := hk.ne_length
      obtain ⟨id, t, ps, hg, hr⟩ := hk
      obtain ⟨r, hrecord⟩ := Option.isSome_iff_exists.1 hholds
      have hfits := inv.record hg hr hrecord
      refine ⟨r, _, ?_, Spec.paramsSite_record? (Spec.typeEntry?_getElem? hr.entry), hfits.name,
        rfl, .inl ⟨hholds, id, t, ps, hg, hr, hfits.name⟩, ?_, fun h => (hfits.complete h).1⟩
      · rw [record?_putRecord, if_neg (by simpa using hne.symm)]
        exact hrecord
      · exact hfits.fields.imp fun _ _ hf => hf.mono Inv.grows_putRecord
    · refine ⟨⟨Work.paramsName m, s.idealParams m, complete⟩, _, by simp [record?_putRecord],
        Spec.paramsSite_record?_length, rfl, rfl, .inr rfl, List.forall₂_same.2 fun f hf => ?_, fun _ => rfl⟩
      exact .of_param sound hm hf fun k hk => Inv.holds_putRecord (hkeys f hf k hk)

theorem run_record (inv : Inv s good [] c) (sound : s.Sound good) (hm : s.Takes good m)
    {fs : List Draft.Field}
    (hfs : List.Forall₂ (FitsField s good [] c) fs (m.params.map s.idealParam)) :
    (Work.record s.types.length (Work.paramsName m) fs).run c = (s.paramsOutcome m, c) ∧
      ((s.paramsOutcome m).isOk = true → ∀ f ∈ s.idealParams m, ∀ k ∈ f.draft.keys, c.Holds k) := by
  unfold Work.record Spec.paramsOutcome
  rw [any_name (·.startsWith "_") hfs]
  split
  · exact ⟨rfl, fun h => by cases h⟩
  · have hfront : ∀ o ∈ [Origin.mk (Work.paramsName m) s.types.length],
        Fronts s good (fun k => Stands s good c k ∨ k = s.types.length) o := by
      intro o ho
      obtain rfl := List.mem_singleton.1 ho
      refine ⟨fun {id} hid => ?_, .inr rfl⟩
      obtain ⟨-, t, key, he, hname⟩ := hid
      exact absurd hname (hm.name t (Spec.typeEntry?_mem he))
    obtain ⟨hresolve, hkeys⟩ := inv.resolveFields sound (fun hk hholds => .inl ⟨hk, hholds⟩) hfront
      (forall₂_foldl_putField hfs .nil)
    have hresolve := hresolve.decided
    have hheld : ∀ f ∈ s.idealParams m, ∀ k ∈ f.draft.keys, c.Holds k := by
      intro f hf k hk
      rcases hkeys _ hresolve f hf k hk with h | rfl
      · exact h.2
      · obtain ⟨-, hleaves⟩ := hm.leaves sound hf
        rcases hleaves _ (Draft.mem_keys.1 hk) with ⟨b, hb⟩ | ⟨k', hk', hkey⟩
        · cases hb
        · cases hk'
          exact absurd rfl hkey.ne_length
    refine ⟨?_, fun _ => hheld⟩
    have hbuild := (mirrors_params inv sound hm hheld false).recordsFrom (.inr rfl)
    have hbuild := hbuild.decided
    have hsettle : (fs.foldl Draft.putField []).mapM
        (Work.settle (c.scopeWith [⟨Work.paramsName m, s.types.length⟩])) =
          Pure.pure (s.idealParams m) := mapM_settle hresolve
    have hscope : c.site.scopeOf none ⟨Work.paramsName m, fs.foldl Draft.putField [], false⟩
        s.types.length = c.scopeWith [⟨Work.paramsName m, s.types.length⟩] := rfl
    rw [Work.run_get]
    dsimp only
    rw [hscope, hsettle, pure_bind, hbuild]
    rcases (s.paramsSite m).recordsFrom s.types.length with (n | how | _) | rs <;> rfl

structure AtRest (s : Spec) (good : String → Prop) (c : Compiler) : Prop where
  inv : Inv s good [] c
  clear : c.Clear
  covered : Covered s good c
  params : ∀ e ∈ c.params, ∃ m ∈ s.methods, m.id = e.1 ∧ s.paramsOutcome m = .ok e.2 ∧
    ∀ f ∈ s.idealParams m, ∀ k ∈ f.draft.keys, c.Holds k

theorem AtRest.of_rests {c' : Compiler} (h : AtRest s good c) (inv : Inv s good [] c')
    (hrests : Rests s good c c') : AtRest s good c' where
  inv := inv
  clear := hrests.clear h.clear
  covered := hrests.covered h.covered
  params e he := by
    rw [hrests.params] at he
    obtain ⟨m, hm, hid, hok, hheld⟩ := h.params e he
    exact ⟨m, hm, hid, hok, fun f hf k hk => hrests.holds (hheld f hf k hk)⟩

theorem AtRest.of_new : AtRest s good (.new s) where
  inv := .of_new
  clear := ⟨rfl, rfl⟩
  covered _ hd := by cases hd
  params := by simp [Compiler.new]

theorem AtRest.nests (h : AtRest s good c) {id : String} {d : Draft} (hg : good id)
    (hd : c.draft? id = some d) {n : String} (hn : .named n ∈ d.leaves) : s.Nests id := by
  refine (h.covered hg hd hn).resolve_left fun hid => ?_
  rw [h.clear.2] at hid
  cases hid

theorem draft_rests (sound : s.Sound good) (h : AtRest s good c) {id : String} (hg : good id) :
    Gives (¬ s.Builds good) (Work.draft id) c fun d c' =>
      AtRest s good c' ∧ Rests s good c c' ∧ Drafted s good [] c' id d ∧
        ∀ n, .named n ∈ d.leaves → s.Nests id := by
  refine (draft_gives h.inv sound hg (.inr h.clear.mine)).mono fun d c' hd => ?_
  have h' := h.of_rests hd.1 hd.2.1
  exact ⟨h', hd.2.1, hd.1.drafted sound hg hd.2.2, fun _ => h'.nests hg hd.2.2⟩

theorem expression_rests (sound : s.Sound good) (h : AtRest s good c) {e : TypeExpr}
    (he : ∀ i, e.Mentions i → good i) :
    Gives (¬ s.Builds good) (Work.expression e) c fun d c' =>
      AtRest s good c' ∧ Rests s good c c' ∧ Fits s good [] c' d (.ofExpr s.ideal e) ∧
        ∀ n, .named n ∈ d.leaves → ∃ i, e.Mentions i ∧ s.Nests i := by
  have hexpr := annotation_gives (s := s) (I := AtRest s good) (L := Rests s good)
    (N := s.Nests) (F := ¬ s.Builds good) .refl .trans Rests.grows
    (fun i hi => ⟨he i hi, fun c h => draft_rests sound h (he i hi)⟩) h
  exact hexpr.mono fun d c' hd => ⟨hd.1, hd.2.1, hd.2.2.1, hd.2.2.2.2⟩

theorem paramFields_rest (sound : s.Sound good) (hm : s.Takes good m) (h : AtRest s good c) :
    Gives (¬ s.Builds good)
      (m.params.mapM fun p => do
        Pure.pure (Work.draftField p (← Work.annotation Work.draft p.type))) c fun fs c' =>
      AtRest s good c' ∧ List.Forall₂ (FitsField s good [] c') fs (m.params.map s.idealParam) := by
  have hfields := Gives.mapM
    (f := fun p : Param => do
      Pure.pure (Work.draftField p (← Work.annotation Work.draft p.type)))
    (l := m.params) (I := AtRest s good) (L := Rests s good) (F := ¬ s.Builds good)
    (R := fun c p f => FitsField s good [] c f (s.idealParam p)) .refl .trans
    (fun hle hf => hf.mono hle.grows) (fun p hp c h => by
      refine .bind ((expression_rests sound h (hm.refs p hp)).mono fun d c' hd => ?_)
      exact .pure ⟨hd.1, hd.2.1, rfl, rfl, rfl, .inr hd.2.2.1⟩) h
  refine hfields.mono fun fs c' hfs => ⟨hfs.1, ?_⟩
  rw [List.forall₂_map_right_iff]
  exact hfs.2.2.flip

theorem run_paramsRecord (sound : s.Sound good) (builds : s.Builds good)
    (hids : (s.methods.map (·.id)).Nodup) (hmem : m ∈ s.methods) (hm : s.Takes good m)
    (h : AtRest s good c) :
    ∃ c', (Work.paramsRecord m).run c = (s.paramsOutcome m, c') ∧ AtRest s good c' ∧
      ((s.paramsOutcome m).isOk = true → ∀ f ∈ s.idealParams m, ∀ k ∈ f.draft.keys, c'.Holds k) := by
  rw [Work.paramsRecord, Work.run_get]
  cases hfound : c.params.find? (·.1 == m.id) with
  | some e =>
      obtain ⟨m', hm', hid, hok, hheld⟩ := h.params e (List.mem_of_find?_eq_some hfound)
      have hid' : e.1 = m.id := by simpa using List.find?_some hfound
      obtain rfl : m' = m := List.inj_on_of_nodup_map hids hm' hmem (hid.trans hid')
      exact ⟨c, by rw [hok]; rfl, h, fun _ => hheld⟩
  | none =>
      obtain ⟨fs, c₁, hrun, h₁, hfs⟩ :=
        run_of_gives (paramFields_rest sound hm h) (not_not_intro builds)
      obtain ⟨hrecord, hheld⟩ := run_record h₁.inv sound hm hfs
      dsimp only
      rw [Work.run_bind, hrun]
      dsimp only
      rw [Work.paramsKey, bind_assoc, Work.run_get, pure_bind, h₁.inv.spec, Work.run_bind, hrecord]
      cases hout : s.paramsOutcome m with
      | error e => exact ⟨c₁, rfl, h₁, fun h => by cases h⟩
      | ok r =>
          have hheld := hheld (by rw [hout]; rfl)
          dsimp only
          rw [Work.run_bind, Work.run_modify]
          refine ⟨_, rfl, ⟨h₁.inv.congr rfl rfl rfl rfl fun h _ => .inl h, h₁.clear, h₁.covered, ?_⟩,
            fun _ => hheld⟩
          intro e he
          rcases List.mem_append.1 he with he | he
          · exact h₁.params e he
          · rw [List.mem_singleton.1 he]
            exact ⟨m, hmem, rfl, hout, hheld⟩

theorem paramsOutcome_ok {r : Draft.Record} (h : s.paramsOutcome m = .ok r) :
    ∃ complete, r = ⟨Work.paramsName m, s.idealParams m, complete⟩ := by
  unfold Spec.paramsOutcome at h
  split at h
  · cases h
  · split at h
    · exact ⟨true, (Except.ok.inj h).symm⟩
    · exact ⟨false, (Except.ok.inj h).symm⟩
    · cases h

theorem build_params (inv : Inv s good [] c) (sound : s.Sound good) (hm : s.Takes good m)
    (hkeys : ∀ f ∈ s.idealParams m, ∀ k ∈ f.draft.keys, c.Holds k) (complete : Bool) :
    (c.putRecord s.types.length ⟨Work.paramsName m, s.idealParams m, complete⟩).site.build
      (.record s.types.length) = (s.paramsSite m).build (.record s.types.length) := by
  have hbuild := (mirrors_params inv sound hm hkeys complete).build
    (d := .record s.types.length) fun k hk => .inr (by simpa [Draft.keys] using hk)
  exact hbuild.decided

theorem run_validateParams (sound : s.Sound good) (builds : s.Builds good)
    (hids : (s.methods.map (·.id)).Nodup) (hmem : m ∈ s.methods) (hm : s.Takes good m)
    (h : AtRest s good c) (params : Value) :
    ∃ n c', (Work.validateParams m params).run c = (s.paramsAnswer m n params, c') ∧
      AtRest s good c' := by
  obtain ⟨c', hrun, h', hheld⟩ := run_paramsRecord sound builds hids hmem hm h
  rw [Work.validateParams, Work.run_bind, hrun]
  cases hout : s.paramsOutcome m with
  | error e => exact ⟨.plain, c', by rw [Spec.paramsAnswer, hout]; rfl, h'⟩
  | ok r =>
      obtain ⟨complete, rfl⟩ := paramsOutcome_ok hout
      have hbuild := build_params h'.inv sound hm (hheld (by rw [hout]; rfl)) complete
      dsimp only
      rw [Work.paramsKey, bind_assoc, Work.run_get, pure_bind, Work.run_get, h'.inv.spec, Compiler.check, hbuild,
        Work.run_bind, Work.run_ofExcept]
      refine ⟨(c'.putRecord s.types.length ⟨Work.paramsName m, s.idealParams m, complete⟩).naming
        (.record s.types.length), c', ?_, h'⟩
      rw [Spec.paramsAnswer, hout, Except.bind]
      cases Draft.checkBuilt _ _ _ <;> rfl

def compiles (c : Compiler) (m : Method) : Bool :=
  match (Work.paramsRecord m).run c with
  | (.ok r, c') =>
      ((c'.putRecord c'.spec.types.length r).site.build (.record c'.spec.types.length)).isOk
  | (.error _, _) => false

theorem exists_of_compiles (h : c.compiles m = true) :
    ∃ r c' built, (Work.paramsRecord m).run c = (.ok r, c') ∧
      (c'.putRecord c'.spec.types.length r).site.build (.record c'.spec.types.length) =
        .ok built := by
  unfold compiles at h
  split at h
  · rename_i r c' hrun
    cases hbuild : (c'.putRecord c'.spec.types.length r).site.build
        (.record c'.spec.types.length) with
    | error o =>
        rw [hbuild] at h
        cases h
    | ok built => exact ⟨r, c', built, hrun, hbuild⟩
  · cases h

theorem checked_of_compiles (h : c.compiles m = true) (params : Value) :
    ∃ c', (∃ es, (Work.validateParams m params).run c = (.ok es, c')) ∨
      ∃ is, (Work.validateParams m params).run c = (.error (.invalid is), c') := by
  obtain ⟨r, c', ⟨rs, schema⟩, hrun, hbuild⟩ := exists_of_compiles h
  refine ⟨c', ?_⟩
  rw [Work.validateParams, Work.run_bind, hrun]
  dsimp only
  rw [Work.paramsKey, bind_assoc, Work.run_get, pure_bind, Work.run_get, Compiler.check, hbuild, Work.run_bind,
    Work.run_ofExcept, Draft.checkBuilt]
  cases Schema.checkNamed _ rs .values schema (if params.truthy then params else .dict []) with
  | ok v => exact .inl ⟨_, rfl⟩
  | error is => exact .inr ⟨is, rfl⟩

theorem compiles_eq (sound : s.Sound good) (builds : s.Builds good)
    (hids : (s.methods.map (·.id)).Nodup) (hmem : m ∈ s.methods) (hm : s.Takes good m)
    (h : AtRest s good c) : c.compiles m = ((s.paramsOutcome m).isOk &&
      ((s.paramsSite m).build (.record s.types.length)).isOk) := by
  obtain ⟨c', hrun, h', hheld⟩ := run_paramsRecord sound builds hids hmem hm h
  cases hout : s.paramsOutcome m with
  | error e =>
      rw [compiles, hrun, hout]
      rfl
  | ok r =>
      obtain ⟨complete, rfl⟩ := paramsOutcome_ok hout
      have hbuild := build_params h'.inv sound hm (hheld (by rw [hout]; rfl)) complete
      rw [compiles, hrun, hout]
      dsimp only
      rw [h'.inv.spec, hbuild]
      rfl

end Compiler

end BotApi
