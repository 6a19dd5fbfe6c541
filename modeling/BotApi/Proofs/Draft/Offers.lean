import BotApi.Proofs.Draft.Resolve
/-!
Drafts that offer nothing but what an expression documents. Looking up names keeps them so, wherever a
name leads to a draft of the type that bears it.
-/

namespace BotApi

open Draft (Scope Site distinct unionOf named)

namespace Spec

inductive Offers (s : Spec) : Draft → TypeExpr → Prop
  | basic (n : String) : Offers s (.basic (.ofName n)) (.basic n)
  | file {id : String} {t : ApiType} {key : Nat} (entry : s.typeEntry? id = some (t, key))
      (name : t.name = inputFileName) : Offers s (.basic .file) (.ref id)
  | bare {id : String} {t : ApiType} {key : Nat} (entry : s.typeEntry? id = some (t, key))
      (name : t.name ≠ inputFileName) (shape : t.shape = .fields []) : Offers s (.basic .any) (.ref id)
  | record {id : String} {t : ApiType} {key : Nat} {ps : List Param}
      (record : s.RecordOf id t key ps) : Offers s (.record key) (.ref id)
  | named {id : String} {t : ApiType} {key : Nat} (entry : s.typeEntry? id = some (t, key)) :
      Offers s (.named t.name) (.ref id)
  | subtype {d : Draft} {id i : String} {t : ApiType} {key : Nat} {ids : List String}
      (entry : s.typeEntry? id = some (t, key)) (name : t.name ≠ inputFileName)
      (shape : t.shape = .subtypes ids) (mem : i ∈ ids) (offers : Offers s d (.ref i)) :
      Offers s d (.ref id)
  | array {d : Draft} {e : TypeExpr} (offers : Offers s d e) : Offers s (.array d) (.array e)
  | option {d : Draft} {e : TypeExpr} {es : List TypeExpr} (mem : e ∈ es) (offers : Offers s d e) :
      Offers s d (.union es)
  | union {ds : List Draft} {e : TypeExpr} (offers : ∀ d ∈ ds, Offers s d e) :
      Offers s (.union ds) e
  | choice {ds : List Draft} {e : TypeExpr} (id : String) (field : Option String)
      (offers : ∀ d ∈ ds, Offers s d e) : Offers s (.choice id field ds) e

def Renames (s : Spec) (name : String) (d : Draft) : Prop :=
  ∀ e, s.Offers (.named name) e → s.Offers d e

def Names (s : Spec) (scope : Scope) : Prop :=
  ∀ name d, scope.get? name = some d → s.Renames name d

namespace Offers

variable {s : Spec} {d d' : Draft} {ds : List Draft} {e : TypeExpr}

theorem bearer {name : String} {e : TypeExpr} (h : s.Offers (.named name) e) :
    ∃ t ∈ s.types, t.name = name := by
  generalize hd : Draft.named name = d at h
  induction h with
  | named entry =>
      cases hd
      exact ⟨_, typeEntry?_mem entry, rfl⟩
  | subtype _ _ _ _ _ ih => exact ih hd
  | option _ _ ih => exact ih hd
  | _ => cases hd

theorem options (h : s.Offers d e) : ∀ o ∈ d.options, s.Offers o e := by
  induction h with
  | union offers _ => exact offers
  | subtype entry name shape mem _ ih => exact fun o ho => .subtype entry name shape mem (ih o ho)
  | option mem _ ih => exact fun o ho => .option mem (ih o ho)
  | basic n => simpa [Draft.options] using .basic n
  | file entry name => simpa [Draft.options] using .file entry name
  | bare entry name shape => simpa [Draft.options] using .bare entry name shape
  | record record => simpa [Draft.options] using .record record
  | named entry => simpa [Draft.options] using .named entry
  | array offers _ => simpa [Draft.options] using .array offers
  | choice id field offers _ => simpa [Draft.options] using .choice id field offers

theorem unionOf (h : ∀ d ∈ ds, s.Offers d e) : s.Offers (Draft.unionOf ds) e := by
  have hall : ∀ o ∈ distinct (ds.flatMap Draft.options), s.Offers o e := by
    intro o ho
    obtain ⟨d, hd, ho⟩ := List.mem_flatMap.1 (Draft.mem_distinct.1 ho)
    exact (h d hd).options o ho
  unfold Draft.unionOf
  split
  · rename_i d hd
    exact hall d (by simp [hd])
  · exact .union hall

theorem choiceOf (id : String) (field : Option String) (h : ∀ d ∈ ds, s.Offers d e) :
    s.Offers (.choice id field (distinct ds)) e :=
  .choice id field fun d hd => h d (Draft.mem_distinct.1 hd)

theorem expandWith {expand : String → Except Draft.Obstacle Draft}
    (hexpand : ∀ {name d}, expand name = .ok d → s.Renames name d) (h : s.Offers d e)
    (hd : Draft.expandWith expand d = .ok d') : s.Offers d' e := by
  induction h generalizing d' with
  | basic n =>
      cases hd
      exact .basic n
  | file entry name =>
      cases hd
      exact .file entry name
  | bare entry name shape =>
      cases hd
      exact .bare entry name shape
  | record record =>
      cases hd
      exact .record record
  | named entry => exact hexpand hd _ (.named entry)
  | subtype entry name shape mem _ ih => exact .subtype entry name shape mem (ih hd)
  | option mem _ ih => exact .option mem (ih hd)
  | @array d₀ e _ ih =>
      obtain ⟨d₁, hitem, rfl⟩ := ok_of_map hd
      exact .array (ih hitem)
  | @union ds e _ ih =>
      obtain ⟨ds', hds, rfl⟩ := ok_of_map hd
      refine .unionOf fun d' hd' => ?_
      obtain ⟨d, hmem, hd⟩ := exists_left_of_mem (Draft.forall₂_expandList hds) hd'
      exact ih d hmem hd
  | @choice ds e id field _ ih =>
      obtain ⟨ds', hds, rfl⟩ := ok_of_map hd
      refine .choiceOf id field fun d' hd' => ?_
      obtain ⟨d, hmem, hd⟩ := exists_left_of_mem (Draft.forall₂_expandList hds) hd'
      exact ih d hmem hd

end Offers

namespace Names

variable {s : Spec} {scope : Scope} {name : String} {d d' : Draft} {e : TypeExpr}

-- Where a name is one of several identifiers, it is the name of no type.
theorem find (names : s.Names scope) (named : s.Named) (h : scope.find name = .ok d) : s.Renames name d := by
  intro e he
  obtain ⟨t, ht, rfl⟩ := he.bearer
  have hone := Draft.Name.identifiers_of_isIdentifier (Draft.Name.isIdentifier_of_isFree (named.free t ht))
  simp only [Scope.find, hone, Scope.look] at h
  split at h
  · rename_i hget
    cases h
    exact names _ _ hget e he
  · cases h

theorem expand (names : s.Names scope) (named : s.Named) (n : Nat) (within : List String)
    (h : scope.expand n within name = .ok d) : s.Renames name d := by
  induction n generalizing within name d with
  | zero =>
      cases h
      exact fun _ => id
  | succ n ih =>
      rw [Scope.expand] at h
      split at h
      · cases h
        exact fun _ => id
      · obtain ⟨d₀, hfind, h⟩ := ok_of_bind h
        exact fun e he => (names.find named hfind e he).expandWith (fun h => ih (name :: within) h) h

theorem resolve (names : s.Names scope) (named : s.Named) (hd : s.Offers d e) (h : scope.resolve d = .ok d') :
    s.Offers d' e :=
  hd.expandWith (fun h => names.expand named _ _ h) h

theorem cons (names : s.Names scope) (hd : s.Renames name d) : s.Names ((name, d) :: scope) := by
  intro n d₁ hget
  rw [Scope.get?, List.find?_cons] at hget
  split at hget
  · rename_i hn
    obtain rfl : name = n := by simpa using hn
    cases hget
    exact hd
  · exact names _ _ hget

end Names

end Spec

end BotApi
