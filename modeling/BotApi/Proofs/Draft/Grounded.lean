import BotApi.Proofs.Draft.Independence
import BotApi.Proofs.Draft.Upheld
/-!
Drafting from a catalog in which every reference resolves. Whatever the compiler was used for before, the types
that a described type leads to are all found.
-/

namespace BotApi

open Compiler (Use Upheld)
open Work (Keeps)

namespace Spec

variable {s : Spec} {id : String}

def Covers (s : Spec) (id : String) : Prop := ∃ t ∈ s.types, t.id = id

structure Resolved (s : Spec) : Prop where
  subtype : ∀ t ∈ s.types, ∀ i ∈ t.subtypes?.getD [], s.Covers i
  field : ∀ t ∈ s.types, ∀ p ∈ t.fields, ∀ i, p.type.Mentions i → s.Covers i
  param : ∀ m ∈ s.methods, ∀ p ∈ m.params, ∀ i, p.type.Mentions i → s.Covers i

theorem Covers.entry (h : s.Covers id) : s.typeEntry? id ≠ none := by
  obtain ⟨t, ht, rfl⟩ := h
  exact typeEntry?_ne_none ht

theorem covers_of_reference (h : s.checkReferences = .ok ()) {r : Reference} (hr : r ∈ s.references) :
    s.Covers r.id := by
  obtain ⟨t, key, he⟩ := entry_of_reference h hr
  exact ⟨t, typeEntry?_mem he, typeEntry?_id he⟩

theorem resolved_of_checkReferences (h : s.checkReferences = .ok ()) : s.Resolved := by
  have htype {t : ApiType} {i : String} (ht : t ∈ s.types) (hi : i ∈ t.references) : s.Covers i := by
    have hr : (⟨i, t.name⟩ : Reference) ∈ s.references := by
      simp only [references, List.mem_append, List.mem_flatMap]
      exact .inl ⟨t, ht, List.mem_map_of_mem hi⟩
    exact covers_of_reference h hr
  refine ⟨fun t ht i hi => htype ht ?_, fun t ht p hp i hi => htype ht ?_, fun m hm p hp i hi => ?_⟩
  · cases hs : t.shape <;> simp_all [ApiType.references, ApiType.subtypes?]
  · cases hs : t.shape with
    | subtypes ids => simp [ApiType.fields, hs] at hp
    | fields ps =>
        simp only [ApiType.fields, hs] at hp
        simp only [ApiType.references, hs, List.mem_flatMap]
        exact ⟨p, hp, TypeExpr.mem_refs_iff_mentions.2 hi⟩
  · have hr : (⟨i, m.name⟩ : Reference) ∈ s.references := by
      simp only [references, List.mem_append, List.mem_flatMap]
      exact .inr ⟨m, hm, p, hp, List.mem_map_of_mem (TypeExpr.mem_refs_iff_mentions.2 hi)⟩
    exact covers_of_reference h hr

end Spec

namespace Work

variable {α β γ : Type} {s : Spec} {self : String → Work Draft} {id : String} {t : ApiType} {key : Nat}

inductive Unfit : Error → Prop where
  | misuse (how : Misuse) (text : String) : Unfit (.misuse how text)
  | incomplete (schema : String) (fault : NameFault) : Unfit (.compile (.incomplete schema fault))

structure Grounded (s : Spec) (w : Work α) : Prop where
  keeps : Keeps (fun c => c.spec = s) w
  unfit : ∀ {c e}, c.spec = s → (w.run c).1 = .error e → Unfit e

namespace Grounded

theorem pure (a : α) : Grounded s (Pure.pure a : Work α) := ⟨.pure a, fun _ he => by cases he⟩

theorem throw {e : Error} (h : Unfit e) : Grounded s (MonadExcept.throw e : Work α) where
  keeps := .throw e
  unfit _ he := by
    cases he
    exact h

theorem fail (how : Misuse) : Grounded s (Work.fail how : Work α) := .throw (.misuse how "")

theorem changed {f : Compiler → Compiler} (h : ∀ c, (f c).spec = c.spec) : Grounded s (modify f : Work PUnit) where
  keeps := .changed fun c hc => (h c).trans hc
  unfit _ he := by cases he

theorem bind {w : Work α} {f : α → Work β} (h : Grounded s w) (hf : ∀ a, Grounded s (f a)) :
    Grounded s (w >>= f) where
  keeps := h.keeps.bind fun a => (hf a).keeps
  unfit {c e} hc he := by
    have hkept := h.keeps c hc
    rw [run_bind] at he
    rcases hrun : w.run c with ⟨e' | a, c'⟩
    · rw [hrun] at he
      cases he
      exact h.unfit hc (by rw [hrun])
    · rw [hrun] at he hkept
      exact (hf a).unfit hkept he

theorem get_bind {f : Compiler → Work β} (h : ∀ c, c.spec = s → Grounded s (f c)) :
    Grounded s (MonadState.get >>= f) where
  keeps := .get_bind fun c hc => (h c hc).keeps
  unfit {c _} hc he := (h c hc).unfit hc he

theorem closed (s : Spec) : Closed fun w => Grounded s w where
  pure := .pure
  bind := .bind
  misuse how text := .throw (.misuse how text)
  get_bind h := .get_bind fun c _ => h c

theorem fieldsRecord (ps : List Param) (hself : ∀ p ∈ ps, ∀ i, p.type.Mentions i → Grounded s (self i)) :
    Grounded s (Work.fieldsRecord self t key ps) := by
  refine .bind ((closed s).mapM ps fun p hp => (closed s).field t.id p (hself p hp)) fun fields => ?_
  refine .bind ((closed s).record key t.name fields) fun r => .bind (.changed fun c => ?_) fun _ => .pure _
  dsimp only
  split <;> rfl

theorem deferring {b : Bool} {w : Work Draft} (hw : Grounded s w) : Grounded s (do
    if b then modify (·.defer id)
    w) := by
  cases b with
  | true => exact .bind (.changed fun c => by rw [Compiler.defer_eq]) fun _ => hw
  | false => exact hw

theorem supertype (members : List String) (hself : ∀ i ∈ members, Grounded s (self i)) :
    Grounded s (Work.supertype self id members) := by
  refine .bind ((closed s).mapM members hself) fun ds => .deferring ?_
  split
  · exact .fail _
  · exact .pure _
  · exact .get_bind fun _ _ => .pure _

theorem type (resolved : s.Resolved) (ht : t ∈ s.types) (hself : ∀ i, s.Covers i → Grounded s (self i)) :
    Grounded s (Work.type self t key) := by
  unfold Work.type
  split
  · exact .pure _
  · split
    next ids hshape =>
      refine .supertype ids fun i hi => hself i (resolved.subtype t ht i ?_)
      simpa [ApiType.subtypes?, hshape] using hi
    next => exact .pure _
    next ps _ hshape =>
      refine .fieldsRecord ps fun p hp i hi => hself i (resolved.field t ht p ?_ i hi)
      simpa [ApiType.fields, hshape] using hp

theorem obtain (resolved : s.Resolved) (n : Nat) (path : List String) (h : s.Covers id) :
    Grounded s (Work.obtain n path id) := by
  induction n generalizing path id with
  | zero => exact .fail _
  | succ n ih =>
      refine .get_bind fun c hc => ?_
      split
      · exact .pure _
      · rw [hc]
        split
        next hnone => exact absurd hnone h.entry
        next t key he =>
          split
          · exact (closed s).reference _
          · refine .bind (.type resolved (Spec.typeEntry?_mem he) fun i hi => ih (id :: path) hi) fun d => ?_
            exact .bind (.changed fun _ => rfl) fun _ => .pure _

theorem finish (key : Nat) : Grounded s (Work.finish key) := by
  have hraise (name : String) (o : Draft.Obstacle) : Grounded s (Work.finish.raise name o) := by
    cases o with
    | undefined fault => exact .throw (.incomplete name fault)
    | misuse | endless => exact .throw (.misuse _ _)
  refine .get_bind fun c hc => ?_
  split
  · exact .pure _
  · split
    · exact .pure _
    · split
      · exact hraise _ _
      · refine .bind ⟨fun _ _ => hc, fun _ he => by cases he⟩ fun _ => ?_
        split
        · exact hraise _ _
        · exact .changed fun _ => rfl

theorem redraft (resolved : s.Resolved) (hself : ∀ i, s.Covers i → Grounded s (self i)) (id : String) :
    Grounded s (Work.redraft self id) := by
  refine .get_bind fun c hc => ?_
  rw [hc]
  split
  next t key he =>
    have hmembers : ∀ i ∈ t.subtypes?.getD [], s.Covers i := resolved.subtype t (Spec.typeEntry?_mem he)
    refine .bind (.supertype _ fun i hi => hself i (hmembers i hi)) fun d => ?_
    exact .changed fun _ => rfl
  next => exact .pure _

theorem complete (resolved : s.Resolved) (hself : ∀ i, s.Covers i → Grounded s (self i)) :
    Grounded s (Work.complete self) := by
  refine .get_bind fun c _ => .bind ((closed s).forM _ fun i _ => .redraft resolved hself i) fun _ => ?_
  refine .bind (.changed fun _ => rfl) fun _ => .get_bind fun c _ => ?_
  exact .bind (.changed fun _ => rfl) fun _ => (closed s).forM _ fun k _ => .finish k

theorem depth : Grounded s Work.depth := .get_bind fun _ _ => .pure _

theorem settled (resolved : s.Resolved) (n : Nat) (h : s.Covers id) : Grounded s (Work.settled n id) := by
  induction n generalizing id with
  | zero => exact depth.bind fun k => .obtain resolved k [] h
  | succ n ih =>
      refine .get_bind fun c _ => ?_
      split
      · exact .pure _
      · refine depth.bind fun k => (Grounded.obtain resolved k [] h).bind fun d => ?_
        exact (Grounded.complete resolved fun i hi => ih hi).bind fun _ => .get_bind fun _ _ => .pure _

theorem draft (resolved : s.Resolved) (h : s.Covers id) : Grounded s (Work.draft id) :=
  depth.bind fun n => .settled resolved n h

end Grounded

end Work

namespace Compiler

variable {s : Spec} {c : Compiler}

theorem upheld_spec (s : Spec) : Upheld s (fun c => c.spec = s) fun _ _ => True where
  spec hc := hc
  known _ _ := trivial
  store hc _ _ := hc
  defer hc _ := by rw [defer_eq]; exact hc
  deferred _ _ _ := trivial
  cleared hc := hc
  pending _ _ hc := hc
  file _ _ := trivial
  bare _ _ _ := trivial
  supertype _ _ _ _ := trivial
  record hself _ := ⟨.fieldsRecord hself _ (fun _ _ hc => hc) fun _ _ hc => hc, fun _ _ => trivial⟩
  finish _ := .finish fun _ _ _ _ _ _ _ _ hc => hc

theorem spec_after (us : List Use) (hc : c.spec = s) : (c.after us).spec = s :=
  (upheld_spec s).after
    (fun _ _ _ _ => .paramsRecord (fun i => ((upheld_spec s).draft i).keeps) fun _ _ hc => hc) hc

end Compiler

end BotApi
