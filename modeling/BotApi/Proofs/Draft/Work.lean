import BotApi.Draft.Params
import BotApi.Proofs.Catalog.Discovery
import BotApi.Proofs.Result
/-!
Reasoning about work: what it gives when it does not fail, and what it keeps in any case. What the operations
on a compiler leave as it was, one lookup at a time.
-/

namespace BotApi.Compiler

variable {α β : Type} [BEq α] [LawfulBEq α]

theorem find?_put (table : List (α × β)) (a x : α) (b : β) :
    ((put table a b).find? (·.1 == x)).map (·.2) =
      if a == x then some b else (table.find? (·.1 == x)).map (·.2) := by
  unfold put
  split
  · rename_i hmem
    have hkey : ((fun e : α × β => e.1 == x) ∘ fun e => if e.1 == a then (a, b) else e) =
        fun e => e.1 == x := by
      funext e
      by_cases he : e.1 = a <;> simp [he]
    rw [List.find?_map, hkey, Option.map_map]
    by_cases hx : a = x
    · subst hx
      have hsome : (table.find? (·.1 == a)).isSome = true :=
        List.find?_isSome.2 (List.any_eq_true.1 hmem)
      obtain ⟨e, he⟩ := Option.isSome_iff_exists.1 hsome
      have hea : e.1 = a := by simpa using List.find?_some he
      simp [he, hea]
    · cases hfound : table.find? (·.1 == x) with
      | none => simp [hx]
      | some e =>
          have hex : e.1 = x := by simpa using List.find?_some hfound
          have hne : ¬ x = a := fun h => hx h.symm
          simp [hx, hex, hne]
  · rename_i hmem
    rw [List.find?_append]
    by_cases hx : a = x
    · have hnone : table.find? (·.1 == x) = none := by
        rw [List.find?_eq_none]
        intro e he hex
        refine hmem (List.any_eq_true.2 ⟨e, he, ?_⟩)
        rw [hx]
        exact hex
      simp [hnone, hx]
    · cases table.find? (·.1 == x) <;> simp [hx]

variable (c : Compiler)

theorem draft?_store (t : ApiType) (d : Draft) (id : String) :
    (c.store t d).draft? id = if t.id == id then some d else c.draft? id :=
  find?_put c.drafts t.id id d

theorem get?_store (t : ApiType) (d : Draft) (name : String) :
    Draft.Scope.get? (c.store t d).names name =
      if t.name == name then some d else Draft.Scope.get? c.names name :=
  find?_put c.names t.name name d

theorem record?_putRecord (key k : Nat) (r : Draft.Record) :
    (c.putRecord key r).site.record? k = if key == k then some r else c.site.record? k :=
  find?_put c.records key k r

theorem draft?_store_cases {t : ApiType} {d e : Draft} {id i : String} (hid : t.id = id)
    (h : (c.store t d).draft? i = some e) : (id = i ∧ d = e) ∨ c.draft? i = some e := by
  rw [draft?_store, hid] at h
  split at h
  · rename_i heq
    exact .inl ⟨by simpa using heq, Option.some.inj h⟩
  · exact .inr h

theorem record?_putRecord_cases {key k : Nat} {r r' : Draft.Record} (h : (c.putRecord key r).site.record? k = some r') :
    (key = k ∧ r = r') ∨ c.site.record? k = some r' := by
  rw [record?_putRecord] at h
  split at h
  · rename_i heq
    exact .inl ⟨by simpa using heq, Option.some.inj h⟩
  · exact .inr h

theorem mem_deferred_defer {id i : String} : i ∈ (c.defer id).deferred ↔ i ∈ c.deferred ∨ i = id := by
  unfold defer
  split
  · rename_i h
    have hid : id ∈ c.deferred := by simpa using h
    constructor
    · exact .inl
    · rintro (h | rfl)
      · exact h
      · exact hid
  · simp

theorem defer_eq (id : String) : c.defer id = { c with deferred := (c.defer id).deferred } := by
  unfold defer
  split <;> rfl

end BotApi.Compiler

namespace BotApi.Work

variable {α β : Type} {c : Compiler} {F : Prop}

theorem run_bind (w : Work α) (f : α → Work β) (c : Compiler) : (w >>= f).run c =
    match w.run c with
    | (.ok a, c') => (f a).run c'
    | (.error e, c') => (.error e, c') := by
  rw [ExceptT.run_bind]
  change StateT.bind (ExceptT.run w) _ c = _
  unfold StateT.bind
  rcases w.run c with ⟨e | a, c'⟩ <;> rfl

theorem run_get (f : Compiler → Work β) (c : Compiler) :
    (MonadState.get >>= f).run c = (f c).run c := rfl

theorem run_pure (a : α) (c : Compiler) : (Pure.pure a : Work α).run c = (.ok a, c) := rfl

theorem run_modify (f : Compiler → Compiler) (c : Compiler) :
    (modify f : Work PUnit).run c = (.ok ⟨⟩, f c) := rfl

theorem run_ofExcept (r : Except Error α) (c : Compiler) : (MonadExcept.ofExcept r : Work α).run c = (r, c) := by
  cases r <;> rfl

theorem exists_of_isOk {w : Work α} (h : (w.run c).1.isOk = true) :
    ∃ a c', w.run c = (.ok a, c') := by
  rcases hrun : w.run c with ⟨e | a, c'⟩
  · rw [hrun] at h
    cases h
  · exact ⟨a, c', rfl⟩

structure Composed (Q : ∀ {α : Type}, Work α → Prop) : Prop where
  pure : ∀ {α : Type} (a : α), Q (Pure.pure a : Work α)
  bind : ∀ {α β : Type} {w : Work α} {f : α → Work β}, Q w → (∀ a, Q (f a)) → Q (w >>= f)

namespace Composed

variable {Q : ∀ {α : Type}, Work α → Prop} {γ : Type} {self : String → Work Draft}

theorem mapM (composed : Composed @Q) {f : γ → Work β} (xs : List γ) (hf : ∀ x ∈ xs, Q (f x)) : Q (xs.mapM f) := by
  induction xs with
  | nil =>
      rw [List.mapM_nil]
      exact composed.pure _
  | cons x xs ih =>
      rw [List.mapM_cons]
      refine composed.bind (hf x (by simp)) fun b => ?_
      exact composed.bind (ih fun y hy => hf y (by simp [hy])) fun _ => composed.pure _

theorem forM (composed : Composed @Q) {f : γ → Work PUnit} (xs : List γ) (hf : ∀ x ∈ xs, Q (f x)) :
    Q (xs.forM f) := by
  induction xs with
  | nil => exact composed.pure _
  | cons x xs ih => exact composed.bind (hf x (by simp)) fun _ => ih fun y hy => hf y (by simp [hy])

mutual
theorem ofExpr (composed : Composed @Q) :
    ∀ e : TypeExpr, (∀ i, e.Mentions i → Q (self i)) → Q (Work.annotation self e)
  | .basic _, _ => composed.pure _
  | .ref i, hself => hself i .ref
  | .array e, hself => composed.bind (composed.ofExpr e fun i hi => hself i (.array hi)) fun _ => composed.pure _
  | .union es, hself =>
      composed.bind (composed.ofExprs es fun _ he i hi => hself i (.union he hi)) fun _ => composed.pure _
theorem ofExprs (composed : Composed @Q) :
    ∀ es : List TypeExpr, (∀ e ∈ es, ∀ i, e.Mentions i → Q (self i)) → Q (Work.annotations self es)
  | [], _ => composed.pure _
  | e :: es, hself => composed.bind (composed.ofExpr e (hself e (by simp))) fun _ =>
      composed.bind (composed.ofExprs es fun e' he' => hself e' (by simp [he'])) fun _ => composed.pure _
end

end Composed

structure Closed (Q : ∀ {α : Type}, Work α → Prop) : Prop extends Composed Q where
  misuse : ∀ {α : Type} (how : Misuse) (text : String), Q (MonadExcept.throw (.misuse how text) : Work α)
  get_bind : ∀ {β : Type} {f : Compiler → Work β}, (∀ c, Q (f c)) → Q (MonadState.get >>= f)

namespace Closed

variable {Q : ∀ {α : Type}, Work α → Prop} {self : String → Work Draft}

theorem fail (closed : Closed @Q) (how : Misuse) : Q (Work.fail how : Work α) := closed.misuse how ""

theorem obstacle (closed : Closed @Q) (o : Draft.Obstacle) : Q (MonadExcept.throw o.error : Work α) := by
  cases o <;> exact closed.misuse _ _

theorem field (closed : Closed @Q) (id : String) (p : Param) (hself : ∀ i, p.type.Mentions i → Q (self i)) :
    Q (Work.field self id p) := by
  refine closed.get_bind fun c => ?_
  split
  · exact closed.pure _
  · exact closed.bind (closed.ofExpr p.type hself) fun _ => closed.pure _

theorem settle (closed : Closed @Q) (scope : Draft.Scope) (f : Draft.Field) : Q (Work.settle scope f) := by
  unfold Work.settle
  split
  · exact closed.pure _
  · exact closed.pure _
  · exact closed.obstacle _

theorem record (closed : Closed @Q) (key : Nat) (name : String) (fields : List Draft.Field) :
    Q (Work.record key name fields) := by
  unfold Work.record
  split
  · exact closed.fail _
  · refine closed.get_bind fun c => closed.bind (closed.mapM _ fun f _ => closed.settle _ f) fun fs => ?_
    dsimp only
    split
    · exact closed.pure _
    · exact closed.pure _
    · exact closed.obstacle _

theorem reference (closed : Closed @Q) (name : String) : Q (Work.reference name) := by
  unfold Work.reference
  split
  · exact closed.pure _
  · exact closed.fail _

end Closed

def Gives (F : Prop) (w : Work α) (c : Compiler) (Q : α → Compiler → Prop) : Prop :=
  match w.run c with
  | (.ok a, c') => Q a c'
  | (.error _, _) => F

namespace Gives

variable {Q Q' : α → Compiler → Prop} {R : β → Compiler → Prop} {w : Work α}

theorem pure {a : α} (h : Q a c) : Gives F (Pure.pure a) c Q := h

theorem throw {e : Error} (h : F) : Gives F (MonadExcept.throw e : Work α) c Q := h

theorem get {Q : Compiler → Compiler → Prop} (h : Q c c) :
    Gives F (MonadState.get : Work Compiler) c Q := h

theorem set {Q : PUnit → Compiler → Prop} {c' : Compiler} (h : Q ⟨⟩ c') :
    Gives F (MonadStateOf.set c' : Work PUnit) c Q := h

theorem changed {Q : PUnit → Compiler → Prop} {f : Compiler → Compiler} (h : Q ⟨⟩ (f c)) :
    Gives F (modify f : Work PUnit) c Q := h

theorem bind {f : α → Work β} (h : Gives F w c fun a c' => Gives F (f a) c' R) :
    Gives F (w >>= f) c R := by
  unfold Gives at h ⊢
  rw [run_bind]
  rcases hw : w.run c with ⟨e | a, c'⟩
  · rw [hw] at h
    exact h
  · rw [hw] at h
    exact h

theorem mono (h : Gives F w c Q) (hQ : ∀ a c', Q a c' → Q' a c') : Gives F w c Q' := by
  unfold Gives at h ⊢
  rcases hw : w.run c with ⟨e | a, c'⟩
  · rw [hw] at h
    exact h
  · rw [hw] at h
    exact hQ a c' h

theorem mapM {γ : Type} {f : γ → Work β} {l : List γ} {I : Compiler → Prop}
    {L : Compiler → Compiler → Prop} {R : Compiler → γ → β → Prop} (refl : ∀ c, L c c)
    (trans : ∀ {c c' c''}, L c c' → L c' c'' → L c c'')
    (keep : ∀ {c c' x b}, L c c' → R c x b → R c' x b)
    (step : ∀ x ∈ l, ∀ c, I c → Gives F (f x) c fun b c' => I c' ∧ L c c' ∧ R c' x b)
    (h : I c) :
    Gives F (l.mapM f) c fun bs c' => I c' ∧ L c c' ∧ List.Forall₂ (R c') l bs := by
  induction l generalizing c with
  | nil =>
      rw [List.mapM_nil]
      exact .pure ⟨h, refl c, .nil⟩
  | cons x xs ih =>
      rw [List.mapM_cons]
      refine .bind ((step x (by simp) c h).mono fun b c₁ h₁ => ?_)
      obtain ⟨hi, hle, hb⟩ := h₁
      refine .bind ((ih (fun y hy => step y (by simp [hy])) hi).mono fun bs c₂ h₂ => ?_)
      obtain ⟨hi', hle', hbs⟩ := h₂
      exact .pure ⟨hi', trans hle hle', .cons (keep hle' hb) hbs⟩

theorem forM {γ : Type} {f : γ → Work PUnit} {l : List γ} {I : Compiler → Prop}
    {L : Compiler → Compiler → Prop} {R : Compiler → γ → Prop} (refl : ∀ c, L c c)
    (trans : ∀ {c c' c''}, L c c' → L c' c'' → L c c'')
    (keep : ∀ {c c' x}, L c c' → R c x → R c' x)
    (step : ∀ x ∈ l, ∀ c, I c → Gives F (f x) c fun _ c' => I c' ∧ L c c' ∧ R c' x)
    (h : I c) :
    Gives F (l.forM f) c fun _ c' => I c' ∧ L c c' ∧ ∀ x ∈ l, R c' x := by
  induction l generalizing c with
  | nil => exact ⟨h, refl c, by simp⟩
  | cons x xs ih =>
      refine .bind ((step x (by simp) c h).mono fun _ c₁ h₁ => ?_)
      obtain ⟨hi, hle, hx⟩ := h₁
      refine (ih (fun y hy => step y (by simp [hy])) hi).mono fun _ c₂ h₂ => ?_
      obtain ⟨hi', hle', hxs⟩ := h₂
      refine ⟨hi', trans hle hle', fun y hy => ?_⟩
      rcases List.mem_cons.1 hy with rfl | hy
      · exact keep hle' hx
      · exact hxs y hy

end Gives

def Keeps (P : Compiler → Prop) (w : Work α) : Prop := ∀ c, P c → P (w.run c).2

namespace Keeps

variable {P : Compiler → Prop} {w : Work α}

theorem pure (a : α) : Keeps P (Pure.pure a : Work α) := fun _ h => h

theorem throw (e : Error) : Keeps P (MonadExcept.throw e : Work α) := fun _ h => h

theorem get : Keeps P (MonadState.get : Work Compiler) := fun _ h => h

theorem ofExcept (r : Except Error α) : Keeps P (MonadExcept.ofExcept r : Work α) := by
  intro c h
  rwa [run_ofExcept]

theorem changed {f : Compiler → Compiler} (h : ∀ c, P c → P (f c)) :
    Keeps P (modify f : Work PUnit) := h

theorem bind {f : α → Work β} (h : Keeps P w) (hf : ∀ a, Keeps P (f a)) : Keeps P (w >>= f) := by
  intro c hc
  have hw := h c hc
  rw [run_bind]
  rcases hrun : w.run c with ⟨e | a, c'⟩
  · rw [hrun] at hw
    exact hw
  · rw [hrun] at hw
    exact hf a c' hw

theorem get_bind {f : Compiler → Work β} (h : ∀ c, P c → Keeps P (f c)) :
    Keeps P (MonadState.get >>= f) := fun c hc => h c hc c hc

theorem of_gives (hfails : ¬ F) (h : ∀ c, P c → Gives F w c fun _ c' => P c') :
    Keeps P w := by
  intro c hc
  have hgives := h c hc
  unfold Gives at hgives
  rcases hrun : w.run c with ⟨e | a, c'⟩
  · rw [hrun] at hgives
    exact absurd hgives hfails
  · rw [hrun] at hgives
    exact hgives

theorem closed (P : Compiler → Prop) : Closed fun w => Keeps P w where
  pure := .pure
  bind := .bind
  misuse _ _ := .throw _
  get_bind h := .get_bind fun c _ => h c

theorem mapM {γ : Type} {f : γ → Work β} (xs : List γ) (hf : ∀ x ∈ xs, Keeps P (f x)) : Keeps P (xs.mapM f) :=
  (closed P).mapM xs hf

theorem forM {γ : Type} {f : γ → Work PUnit} (xs : List γ) (hf : ∀ x ∈ xs, Keeps P (f x)) : Keeps P (xs.forM f) :=
  (closed P).forM xs hf

theorem ofExpr {self : String → Work Draft} (hself : ∀ i, Keeps P (self i)) (e : TypeExpr) :
    Keeps P <| annotation self e :=
  (closed P).ofExpr e fun i _ => hself i

theorem field {self : String → Work Draft} (hself : ∀ i, Keeps P (self i)) (id : String) (p : Param) :
    Keeps P (field self id p) :=
  (closed P).field id p fun i _ => hself i

theorem record (key : Nat) (name : String) (fields : List Draft.Field) : Keeps P (record key name fields) :=
  (closed P).record key name fields

theorem reference (name : String) : Keeps P (reference name) := (closed P).reference name

theorem supertype {self : String → Work Draft} (hself : ∀ i, Keeps P (self i)) (id : String)
    (members : List String) (hdefer : ∀ c, P c → P (c.defer id)) :
    Keeps P (supertype self id members) := by
  refine (mapM _ fun i _ => hself i).bind fun ds => ?_
  dsimp only
  split
  · refine (Keeps.changed hdefer).bind fun _ => ?_
    split
    · exact .throw _
    · exact .pure _
    · exact Keeps.get.bind fun c => .pure _
  · split
    · exact .throw _
    · exact .pure _
    · exact Keeps.get.bind fun c => .pure _

theorem fieldsRecord {self : String → Work Draft} {t : ApiType} {key : Nat} (hself : ∀ i, Keeps P (self i)) (fs : List Param)
    (hput : ∀ c r, P c → P (c.putRecord key r)) (hpending : ∀ c ks, P c → P { c with pending := ks }) :
    Keeps P (Work.fieldsRecord self t key fs) := by
  refine (mapM fs fun p _ => .field hself t.id p).bind fun fields => ?_
  refine (Keeps.record key t.name fields).bind fun r => ?_
  refine (Keeps.changed fun c hc => ?_).bind fun _ => .pure _
  dsimp only
  split
  · exact hput c r hc
  · exact hpending _ _ (hput c r hc)

theorem finish {key : Nat} (hput : ∀ c r fields, P c → c.site.record? key = some r → c.site.fieldsOf none r key = .ok fields →
    ∀ c' complete, P c' → P (c'.putRecord key ⟨r.name, fields, complete⟩)) : Keeps P (Work.finish key) := by
  have hraise (name : String) (o : Draft.Obstacle) : Keeps P (Work.finish.raise name o) := by
    cases o <;> exact .throw _
  refine .get_bind fun c hc => ?_
  split
  next => exact .pure _
  next r hr =>
    split
    · exact .pure _
    · split
      next => exact hraise _ _
      next fields hfields =>
        have hmade (complete : Bool) (c' : Compiler) (hc' : P c') : P (c'.putRecord key ⟨r.name, fields, complete⟩) :=
          hput c r fields hc hr hfields c' complete hc'
        refine Keeps.bind (fun _ _ => hmade _ c hc) fun _ => ?_
        split
        · exact hraise _ _
        · exact .changed (hmade true)

theorem paramsRecord (hself : ∀ i, Keeps P (draft i)) {m : Method}
    (hstore : ∀ c r, P c → P { c with params := c.params ++ [(m.id, r)] }) : Keeps P (paramsRecord m) := by
  unfold Work.paramsRecord
  refine Keeps.get.bind fun c => ?_
  split
  · exact .pure _
  · refine Keeps.bind (mapM _ fun p _ => (ofExpr hself _).bind fun _ => .pure _) fun fs => ?_
    refine Keeps.bind (Keeps.get.bind fun _ => .pure _) fun key => ?_
    exact (record key _ fs).bind fun r => (Keeps.changed fun c hc => hstore c r hc).bind fun _ => .pure _

end Keeps

end BotApi.Work
