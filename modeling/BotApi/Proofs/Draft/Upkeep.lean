import BotApi.Proofs.Draft.Settle
/-!
Work that fails, or is about other types, does good types no harm: what is known of them stays true,
as long as they can be built at all.
-/

namespace BotApi.Compiler

open Work (Gives Keeps)

variable {s : Spec} {good : String → Prop} {path : List String} {c₀ c c' : Compiler}
  {id : String} {t : ApiType} {key : Nat} {α β : Type}

structure Lasts (s : Spec) (good : String → Prop) (c₀ c : Compiler) : Prop where
  inv : Inv s good [] c
  stored : ∀ {id}, c₀.Stored id → c.Stored id

namespace Lasts

theorem refl (inv : Inv s good [] c) : Lasts s good c c := ⟨inv, fun h => h⟩

theorem trans (h : Lasts s good c₀ c) (h' : Lasts s good c c') : Lasts s good c₀ c' :=
  ⟨h'.inv, fun hid => h'.stored (h.stored hid)⟩

theorem get {f : Compiler → Work β} (h : ∀ c, Inv s good [] c → Keeps (Lasts s good c) (f c)) :
    Keeps (Lasts s good c₀) (MonadState.get >>= f) :=
  fun c hc => hc.trans (h c hc.inv c (.refl hc.inv))

theorem congr (h : Lasts s good c₀ c) (hspec : c'.spec = c.spec) (hdrafts : c'.drafts = c.drafts)
    (hnames : c'.names = c.names) (hrecords : c'.records = c.records)
    (hdeferred : ∀ {id}, id ∈ c'.deferred → good id → id ∈ c.deferred) : Lasts s good c₀ c' where
  inv := h.inv.congr hspec hdrafts hnames hrecords fun hid hg => .inl (hdeferred hid hg)
  stored hid := by
    simp only [Stored, draft?, hdrafts]
    exact h.stored hid

theorem store (h : Lasts s good c₀ c) (sound : s.Sound good)
    (he : s.typeEntry? id = some (t, key)) (hbad : ¬ good id) (d : Draft) :
    Lasts s good c₀ (c.store t d) where
  inv := (h.inv.enter sound id).store sound he fun hg => absurd hg hbad
  stored hid := Inv.stored_store.2 (.inr (h.stored hid))

theorem putRecord (h : Lasts s good c₀ c) (he : s.typeEntry? id = some (t, key))
    (hbad : ¬ good id) (r : Draft.Record) : Lasts s good c₀ (c.putRecord key r) where
  inv := h.inv.putRecord fun hg hr => absurd (Spec.id_eq_of_key hr.entry he ▸ hg) hbad
  stored := h.stored

theorem defer (h : Lasts s good c₀ c) (hbad : ¬ good id) : Lasts s good c₀ (c.defer id) where
  inv := h.inv.defer fun hg => absurd hg hbad
  stored hid := by
    rw [defer_eq]
    exact h.stored hid

end Lasts

theorem check_keeps {P : Compiler → Prop} (d : Draft) (v : Value) : Keeps P (Work.check d v) :=
  Keeps.get.bind fun _ => .ofExcept _

theorem validateParams_keeps_of {P : Compiler → Prop} {m : Method}
    (h : Keeps P (Work.paramsRecord m)) (params : Value) :
    Keeps P (Work.validateParams m params) := by
  unfold Work.validateParams
  refine h.bind fun r => ?_
  refine Keeps.bind (.bind .get fun _ => .pure _) fun key => ?_
  exact Keeps.get.bind fun c => (Keeps.ofExcept _).bind fun _ => .pure _

end BotApi.Compiler
