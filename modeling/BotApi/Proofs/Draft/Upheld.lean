import BotApi.Proofs.Draft.Faithful
/-!
What every use of a compiler upholds. A fact about compilers outlasts all drafting if it outlasts the storing of
a draft, the deferring of a supertype and the making of a record; what it says of stored drafts is then true of
all that are handed out.
-/

namespace BotApi

open Draft (Site)
open Work (Yields Keeps)

namespace Compiler

structure Upheld (s : Spec) (P : Compiler → Prop) (R : String → Draft → Prop) : Prop where
  spec : ∀ {c}, P c → c.spec = s
  known : ∀ {c id d}, P c → c.draft? id = some d → R id d
  store : ∀ {c id t key d}, P c → s.typeEntry? id = some (t, key) → R id d → P (c.store t d)
  defer : ∀ {c id}, P c → (∀ d, R id d) → P (c.defer id)
  deferred : ∀ {c id}, P c → id ∈ c.deferred → ∀ d, R id d
  cleared : ∀ {c}, P c → P { c with deferred := [] }
  pending : ∀ c ks, P c → P { c with pending := ks }
  file : ∀ {id t key}, s.typeEntry? id = some (t, key) → t.name = inputFileName → R id (.basic .file)
  bare : ∀ {id t key}, s.typeEntry? id = some (t, key) → t.name ≠ inputFileName → t.shape = .fields [] →
    R id (.basic .any)
  supertype : ∀ {id t key ids}, s.typeEntry? id = some (t, key) → t.name ≠ inputFileName →
    t.shape = .subtypes ids → ∀ d, R id d
  record : ∀ {self id t key ps}, (∀ i, Keeps P (self i)) → s.RecordOf id t key ps →
    Yields P (R id) (Work.fieldsRecord self t key ps)
  finish : ∀ key, Keeps P (Work.finish key)

namespace Upheld

variable {s : Spec} {P : Compiler → Prop} {R : String → Draft → Prop} {self : String → Work Draft} {id : String}
  {t : ApiType} {key : Nat}

theorem type (h : Upheld s P R) (hself : ∀ i, Keeps P (self i)) (he : s.typeEntry? id = some (t, key)) :
    Yields P (R id) (Work.type self t key) := by
  unfold Work.type
  split
  next hname => exact .pure (h.file he hname)
  next hname =>
    split
    next ids hshape =>
      have hfree : ∀ d, R id d := h.supertype he hname hshape
      rw [Spec.typeEntry?_id he]
      exact ⟨.supertype hself id ids fun _ hc => h.defer hc hfree, fun _ _ => hfree _⟩
    next hshape => exact .pure (h.bare he hname hshape)
    next ps hempty hshape => exact h.record hself ⟨he, hname, hshape, hempty⟩

-- A type that is met again while it is being drafted is referred to by its name.
theorem obtain (h : Upheld s P R) (n : Nat) (path : List String) (id : String) :
    Yields P (fun d => id ∉ path → R id d) (Work.obtain n path id) := by
  induction n generalizing path id with
  | zero => exact .throw _
  | succ n ih =>
      refine .get_bind fun c hc => ?_
      split
      next d hd => exact .pure fun _ => h.known hc hd
      next =>
        rw [h.spec hc]
        split
        next => exact .throw _
        next t key he =>
          split
          next hmet => exact ⟨.reference _, fun _ _ hnew => absurd (by simpa using hmet) hnew⟩
          next =>
            refine (h.type (fun i => (ih (id :: path) i).keeps) he).bind fun d hd => ?_
            exact .keeps_bind (.changed fun c hc => h.store hc he hd) fun _ => .pure fun _ => hd

theorem redraft (h : Upheld s P R) (hself : ∀ i, Keeps P (self i)) (hid : ∀ d, R id d) :
    Keeps P (Work.redraft self id) := by
  refine .get_bind fun c hc => ?_
  rw [h.spec hc]
  split
  next t key he =>
    refine (Keeps.supertype hself id _ fun c hc => h.defer hc hid).bind fun d => ?_
    exact .changed fun c hc => h.store hc he (hid d)
  next => exact .pure _

theorem complete (h : Upheld s P R) (hself : ∀ i, Keeps P (self i)) : Keeps P (Work.complete self) := by
  refine .get_bind fun c hc => ?_
  refine Keeps.bind (.forM _ fun i hi => h.redraft hself (h.deferred hc (List.mem_mergeSort.1 hi))) fun _ => ?_
  refine Keeps.bind (.changed fun c hc => h.cleared hc) fun _ => ?_
  refine Keeps.get.bind fun c => ?_
  exact Keeps.bind (.changed fun c hc => h.pending c [] hc) fun _ => .forM _ fun k _ => h.finish k

theorem settled (h : Upheld s P R) (n : Nat) (id : String) : Yields P (R id) (Work.settled n id) := by
  have hdepth : Keeps P Work.depth := Keeps.get.bind fun _ => .pure _
  have hobtain (k : Nat) (id : String) : Yields P (R id) (Work.obtain k [] id) := by
    simpa using h.obtain k [] id
  induction n generalizing id with
  | zero => exact .keeps_bind hdepth fun k => hobtain k id
  | succ n ih =>
      refine .get_bind fun c hc => ?_
      split
      next d hd => exact .pure (h.known hc hd)
      next =>
        refine .keeps_bind hdepth fun k => (hobtain k id).bind fun d hd => ?_
        refine .keeps_bind (h.complete fun i => (ih i).keeps) fun _ => ?_
        refine .get_bind fun c hc => .pure ?_
        cases hdraft : c.draft? id with
        | none => exact hd
        | some d' => exact h.known hc hdraft

theorem draft (h : Upheld s P R) (id : String) : Yields P (R id) (Work.draft id) :=
  .keeps_bind (Keeps.get.bind fun _ => .pure _) fun n => h.settled n id

theorem after (h : Upheld s P R) {us : List Use} {c : Compiler}
    (hrecord : ∀ u ∈ us, ∀ m, u.Concerns s m → Keeps P (Work.paramsRecord m)) (hc : P c) : P (c.after us) :=
  after_keeps (fun u hu => Use.keeps (fun _ hc => h.spec hc) (fun i => (h.draft i).keeps) (hrecord u hu)) hc

end Upheld

end Compiler

end BotApi
