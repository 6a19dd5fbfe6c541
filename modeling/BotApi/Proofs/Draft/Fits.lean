import BotApi.Proofs.Draft.Lookup
/-!
How drafts that stand for what they should are put together.
-/

namespace BotApi.Compiler

open Draft (leaves named record literal unionOf ofExpr ofExprs ofSubtypes)

variable {s : Spec} {good : String → Prop} {path : List String} {c : Compiler}

namespace Fits

variable {d ideal : Draft} {ds ideals : List Draft}

theorem of_plain (hsubst : Draft.subst s.meaning d = d)
    (hleaves : ∀ l ∈ d.leaves, (∃ b, l = .basic b) ∨
      ∃ k, l = .record k ∧ s.KeyOf good k ∧ c.Holds k) : Fits s good path c d d := by
  have hnone (n : String) : named n ∉ d.leaves := by
    intro hn
    rcases hleaves _ hn with ⟨b, hb⟩ | ⟨k, hk, -⟩
    · cases hb
    · cases hk
  refine ⟨hsubst, ?_, fun hn => absurd hn (hnone _), fun {k} hk => ?_, fun text ht => ?_⟩
  · rw [← hsubst, Draft.subst_congr (τ := s.meaning), hsubst]
    · exact hsubst
    · intro n hn
      rw [hsubst] at hn
      exact absurd hn (hnone n)
  · rcases hleaves _ hk with ⟨b, hb⟩ | ⟨k', hk', h⟩
    · cases hb
    · cases hk'
      exact h
  · rcases hleaves _ ht with ⟨b, hb⟩ | ⟨k, hk, -⟩
    · cases hb
    · cases hk

theorem eq_of_keepsName (hd : Fits s good path c d ideal) (h : d.keepsName = false) : d = ideal := by
  have hnone := Draft.keepsName_eq_false.1 h
  rw [← hd.subst, ← Draft.subst_congr (σ := named) fun n hn => absurd hn (hnone n), hd.tidy]

theorem basic (b : BasicType) : Fits s good path c (.basic b) (.basic b) :=
  of_plain rfl fun l hl => .inl ⟨b, by simpa [leaves] using hl⟩

theorem record {k : Nat} (hk : s.KeyOf good k) (hholds : c.Holds k) :
    Fits s good path c (.record k) (.record k) :=
  of_plain rfl fun l hl => .inr ⟨k, by simpa [leaves] using hl, hk, hholds⟩

theorem named {id name : String} (sound : s.Sound good) (h : s.Bears good id name)
    (hknown : Known path c id) : Fits s good path c (.named name) (s.ideal id) where
  subst := h.meaning sound
  tidy := rfl
  names {n} hn := by
    obtain rfl : n = name := by simpa [leaves] using hn
    exact ⟨id, h, hknown⟩
  keys hk := by simp [leaves] at hk
  plain text ht := by simp [leaves] at ht

theorem array (hd : Fits s good path c d ideal) : Fits s good path c (.array d) (.array ideal) where
  subst := by rw [Draft.subst, hd.subst]
  tidy := by rw [Draft.subst, hd.tidy]
  names := hd.names
  keys := hd.keys
  plain := hd.plain

theorem of_forall₂ {f : List Draft → Draft} (hds : List.Forall₂ (Fits s good path c) ds ideals)
    (hsubst : ∀ {σ : String → Draft} (es : List Draft), (∀ n, (σ n).isUnion = false) →
      Draft.subst σ (f es) = f (es.map (Draft.subst σ)))
    (hleaves : ∀ {l : Draft} {es : List Draft}, l ∈ (f es).leaves → ∃ e ∈ es, l ∈ e.leaves) :
    Fits s good path c (f ds) (f ideals) where
  subst := by
    have hmap : ds.map (Draft.subst s.meaning) = ideals := by
      induction hds with
      | nil => rfl
      | cons hd _ ih => rw [List.map_cons, hd.subst, ih]
    rw [hsubst ds Spec.isUnion_meaning, hmap]
  tidy := by
    have hmap : ds.map (Draft.subst Draft.named) = ds := by
      clear hsubst hleaves
      induction hds with
      | nil => rfl
      | cons hd _ ih => rw [List.map_cons, hd.tidy, ih]
    rw [hsubst ds fun _ => rfl, hmap]
  names hn := by
    obtain ⟨e, he, hn⟩ := hleaves hn
    obtain ⟨_, -, hfit⟩ := exists_right_of_mem hds he
    exact hfit.names hn
  keys hk := by
    obtain ⟨e, he, hk⟩ := hleaves hk
    obtain ⟨_, -, hfit⟩ := exists_right_of_mem hds he
    exact hfit.keys hk
  plain text ht := by
    obtain ⟨e, he, ht⟩ := hleaves ht
    obtain ⟨_, -, hfit⟩ := exists_right_of_mem hds he
    exact hfit.plain text ht

theorem union (hds : List.Forall₂ (Fits s good path c) ds ideals) :
    Fits s good path c (unionOf ds) (unionOf ideals) :=
  of_forall₂ hds (fun es hσ => Draft.subst_unionOf hσ es) fun h => Draft.mem_leaves_unionOf.1 h

theorem subtypes {id : String} {field : Option String}
    (hds : List.Forall₂ (Fits s good path c) ds ideals) :
    Fits s good path c (ofSubtypes id field ds) (ofSubtypes id field ideals) :=
  of_forall₂ hds (fun es _ => Draft.subst_ofSubtypes id field es) fun h =>
    Draft.mem_leaves_ofSubtypes.1 h

end Fits

-- A draft that a type was found to have, with names of types that lie no higher; without subtypes
-- there is no name but its own, while it is being drafted.
structure Drafted (s : Spec) (good : String → Prop) (path : List String) (c : Compiler)
    (id : String) (d : Draft) : Prop where
  fits : Fits s good path c d (s.ideal id)
  lower : ∀ {n}, named n ∈ d.leaves → ∃ i, s.Bears good i n ∧ s.rank i ≤ s.rank id
  known : Known path c id
  direct : ∀ {n}, named n ∈ d.leaves → s.below id = [] → id ∈ path ∧ d.isNamed = true

theorem Drafted.mono {c' : Compiler} (h : Grows good path c path c') {id : String} {d : Draft}
    (hg : good id) (hd : Drafted s good path c id d) : Drafted s good path c' id d :=
  ⟨hd.fits.mono h, hd.lower, h.known hg hd.known, hd.direct⟩

theorem Inv.drafted (inv : Inv s good path c) (sound : s.Sound good) {id : String} {d : Draft}
    (hg : good id) (hd : c.draft? id = some d) : Drafted s good path c id d where
  fits := inv.stored hg hd
  lower hn := by
    obtain ⟨i, hi, hlt⟩ := inv.lower hg hd hn
    exact ⟨i, hi, Nat.le_of_lt hlt⟩
  known := .inl (stored_of_draft? hd)
  direct hn hbelow := by
    obtain ⟨i, hi, hlt⟩ := inv.lower hg hd hn
    exact absurd hlt (Spec.not_rank_lt hbelow (sound.settles hi.good))

section

variable {F : Prop} {I : Compiler → Prop} {L : Compiler → Compiler → Prop} {N : String → Prop}
  {self : String → Work Draft}

mutual
theorem annotation_gives (refl : ∀ c, L c c)
    (trans : ∀ {c c' c''}, L c c' → L c' c'' → L c c'')
    (grows : ∀ {c c'}, L c c' → Grows good path c path c') : ∀ {e : TypeExpr} {c : Compiler},
    (∀ i, e.Mentions i → good i ∧ ∀ c, I c → Work.Gives F (self i) c fun d c' =>
      I c' ∧ L c c' ∧ Drafted s good path c' i d ∧ ∀ n, named n ∈ d.leaves → N i) →
    I c → Work.Gives F ( Work.annotation self e) c fun d c' =>
      I c' ∧ L c c' ∧ Fits s good path c' d (ofExpr s.ideal e) ∧
        (∀ i, e.Mentions i → Known path c' i) ∧ ∀ n, named n ∈ d.leaves → ∃ i, e.Mentions i ∧ N i
  | .basic n, c, _, h => by
      refine .pure ⟨h, refl c, .basic _, fun i hi => ?_, fun n hn => ?_⟩
      · cases hi
      · simp [leaves] at hn
  | .ref i, c, hself, h => by
      refine ((hself i .ref).2 c h).mono fun d c' hd => ?_
      obtain ⟨h', hle, hdrafted, hnames⟩ := hd
      refine ⟨h', hle, hdrafted.fits, fun j hj => ?_, fun n hn => ⟨i, .ref, hnames n hn⟩⟩
      cases hj
      exact hdrafted.known
  | .array e, c, hself, h => by
      refine .bind ((annotation_gives refl trans grows
        (fun i hi => hself i (.array hi)) h).mono fun d c' hd => ?_)
      obtain ⟨h', hle, hd, hknown, hnames⟩ := hd
      refine .pure ⟨h', hle, hd.array, fun i hi => ?_, fun n hn => ?_⟩
      · cases hi with
        | array hi => exact hknown i hi
      · obtain ⟨i, hi, hN⟩ := hnames n hn
        exact ⟨i, .array hi, hN⟩
  | .union es, c, hself, h => by
      refine .bind ((annotations_gives refl trans grows
        (fun e he i hi => hself i (.union he hi)) h).mono fun ds c' hds => ?_)
      obtain ⟨h', hle, hds, hknown, hnames⟩ := hds
      refine .pure ⟨h', hle, .union hds, fun i hi => ?_, fun n hn => ?_⟩
      · cases hi with
        | union he hi => exact hknown _ he i hi
      · obtain ⟨d, hd, hn⟩ := Draft.mem_leaves_unionOf.1 hn
        obtain ⟨e, he, i, hi, hN⟩ := hnames d hd n hn
        exact ⟨i, .union he hi, hN⟩
theorem annotations_gives (refl : ∀ c, L c c)
    (trans : ∀ {c c' c''}, L c c' → L c' c'' → L c c'')
    (grows : ∀ {c c'}, L c c' → Grows good path c path c') :
    ∀ {es : List TypeExpr} {c : Compiler},
    (∀ e ∈ es, ∀ i, e.Mentions i → good i ∧ ∀ c, I c → Work.Gives F (self i) c fun d c' =>
      I c' ∧ L c c' ∧ Drafted s good path c' i d ∧ ∀ n, named n ∈ d.leaves → N i) →
    I c → Work.Gives F (Work.annotations self es) c fun ds c' =>
      I c' ∧ L c c' ∧ List.Forall₂ (Fits s good path c') ds (ofExprs s.ideal es) ∧
        (∀ e ∈ es, ∀ i, e.Mentions i → Known path c' i) ∧
        ∀ d ∈ ds, ∀ n, named n ∈ d.leaves → ∃ e ∈ es, ∃ i, e.Mentions i ∧ N i
  | [], c, _, h => .pure ⟨h, refl c, .nil, by simp, by simp⟩
  | e :: es, c, hself, h => by
      refine .bind ((annotation_gives refl trans grows
        (fun i hi => hself e (by simp) i hi) h).mono fun d c₁ hd => ?_)
      obtain ⟨h₁, hle, hd, hknown, hnames⟩ := hd
      refine .bind ((annotations_gives refl trans grows
        (fun e' he i hi => hself e' (by simp [he]) i hi) h₁).mono fun ds c₂ hds => ?_)
      obtain ⟨h₂, hle', hds, hknowns, hnames'⟩ := hds
      refine .pure ⟨h₂, trans hle hle', .cons (hd.mono (grows hle')) hds, fun e' he i hi => ?_,
        fun d' hd' n hn => ?_⟩
      · rcases List.mem_cons.1 he with rfl | he
        · exact (grows hle').known (hself e' (by simp) i hi).1 (hknown i hi)
        · exact hknowns e' he i hi
      · rcases List.mem_cons.1 hd' with rfl | hd'
        · exact ⟨e, by simp, hnames n hn⟩
        · obtain ⟨e', he, hmentions⟩ := hnames' d' hd' n hn
          exact ⟨e', by simp [he], hmentions⟩
end

end

end BotApi.Compiler
