import BotApi.Limit.Options
import BotApi.Proofs.Result
import BotApi.Proofs.Schema.Accepted
import BotApi.Proofs.Values.Entries
/-!
Which mappings are options of a limiter: the limit is needed, what is not given takes its default, and nothing else
may be given.
-/

namespace BotApi.Limit

open Schema (Fault Field Graded Passed Records Verdict checkField checkDepth)

structure Options.Reads (given : String → Option Value) (limit : Int) (period : Float) (interruptible : Bool) : Prop where
  known : ∀ field, (given field).isSome = true → field = "limit" ∨ field = "period" ∨ field = "interruptible"
  limit : ∃ v, given "limit" = some v ∧ ∃ g, Schema.readInteger v = .ok (limit, g) ∧ 0 < limit
  period : given "period" = none ∧ period = 1.0 ∨
    ∃ v, given "period" = some v ∧ ∃ g, Schema.readNumber v = .ok (period, g) ∧ 0 < period
  interruptible : given "interruptible" = none ∧ interruptible = false ∨
    ∃ v, given "interruptible" = some v ∧ ∃ g, Schema.readFlag v = .ok (interruptible, g)

namespace Options

def limitField : Field := ⟨"limit", "limit", .positiveInteger, true, none⟩

def periodField : Field := ⟨"period", "period", .positiveNumber, false, some (.float 1.0)⟩

def interruptibleField : Field := ⟨"interruptible", "interruptible", .flag, false, some (.bool false)⟩

theorem fields_record : record.fields = [limitField, periodField, interruptibleField] := rfl

theorem wire_cases {f : Field} (hf : f ∈ record.fields) :
    f.name = f.wire ∧ (f.wire = "limit" ∨ f.wire = "period" ∨ f.wire = "interruptible") := by
  simp only [fields_record, List.mem_cons, List.not_mem_nil, or_false] at hf
  rcases hf with rfl | rfl | rfl <;> simp [limitField, periodField, interruptibleField]

variable {es : Entries} {o : Options} {n : Nat} {v w : Value} {f : Field} {y : Option (String × Value)}

def Makes (n : Nat) (s : Schema) (v w : Value) : Prop :=
  ∃ p, checkDepth [(0, record)] .values (n + 1) s v = .ok p ∧ p.value = w

theorem exists_ofScalar {α : Type} {wrap : α → Value} {x : Graded α} :
    (∃ p, Verdict.ofScalar wrap x = .ok p ∧ p.value = w) ↔ ∃ a, (∃ g, x = .ok (a, g)) ∧ w = wrap a := by
  rcases x with fault | ⟨a, g⟩
  · simp [Verdict.ofScalar, Schema.refuse, Schema.refuseAt]
  · simp [Verdict.ofScalar, eq_comm]

theorem exists_bounded {α : Type} [Zero α] [LT α] [DecidableLT α] {wrap : α → Value} {x : Graded α} {fault : Fault} :
    (∃ p, Verdict.bounded wrap (fun a => if 0 < a then none else some fault) x = .ok p ∧ p.value = w) ↔
      ∃ a, (∃ g, x = .ok (a, g) ∧ 0 < a) ∧ w = wrap a := by
  rcases x with refused | ⟨a, g⟩
  · simp [Verdict.bounded, Schema.refuse, Schema.refuseAt]
  · by_cases ha : 0 < a
    · rw [Verdict.bounded, if_pos ha]
      constructor
      · rintro ⟨p, hp, rfl⟩
        cases hp
        exact ⟨a, ⟨g, rfl, ha⟩, rfl⟩
      · rintro ⟨_, ⟨_, hsame, -⟩, rfl⟩
        cases hsame
        exact ⟨_, rfl, rfl⟩
    · rw [Verdict.bounded, if_neg ha]
      constructor
      · rintro ⟨p, hp, -⟩
        cases hp
      · rintro ⟨_, ⟨_, hsame, hpos⟩, -⟩
        cases hsame
        exact absurd hpos ha

theorem makes_positiveInteger : Makes n .positiveInteger v w ↔
    ∃ k, (∃ g, Schema.readInteger v = .ok (k, g) ∧ 0 < k) ∧ w = .int k := by
  rw [Makes, checkDepth, Schema.step, exists_bounded]

theorem makes_positiveNumber : Makes n .positiveNumber v w ↔
    ∃ x, (∃ g, Schema.readNumber v = .ok (x, g) ∧ 0 < x) ∧ w = .float x := by
  rw [Makes, checkDepth, Schema.step, exists_bounded]

theorem makes_flag : Makes n .flag v w ↔ ∃ b, (∃ g, Schema.readFlag v = .ok (b, g)) ∧ w = .bool b := by
  rw [Makes, checkDepth, Schema.step, exists_ofScalar]

theorem exists_depthEntries {name : String} (h : Entries.getText? es name = some v) :
    ∃ m, Value.depthEntries es = m + 1 := by
  have hle : v.depth ≤ Value.depthEntries es :=
    Value.depthEntries_le.1 (Nat.le_refl _) _ (Entries.mem_of_getText? h)
  have hpos := v.depth_pos
  exact ⟨Value.depthEntries es - 1, by omega⟩

theorem checkField_iff {descend : Schema → Value → Verdict} {x : Option (String × Passed)}
    (hname : f.name = f.wire) : checkField descend es f = .ok x ↔
      Entries.getText? es f.wire = none ∧ f.required = false ∧ x = none ∨
        ∃ v p, Entries.getText? es f.wire = some v ∧ descend f.schema v = .ok p ∧ x = some (f.wire, p) := by
  rw [checkField, Field.find?, hname]
  cases Entries.getText? es f.wire with
  | none => cases f.required <;> simp [eq_comm]
  | some v =>
      simp only [Schema.map_eq_ok, Schema.under_eq_ok]
      constructor
      · rintro ⟨p, hp, rfl⟩
        exact .inr ⟨v, p, rfl, hp, rfl⟩
      · rintro (⟨hnone, -⟩ | ⟨_, p, hw, hp, rfl⟩)
        · cases hnone
        · cases hw
          exact ⟨p, hp, rfl⟩

def Comes (es : Entries) (f : Field) (y : Option (String × Value)) : Prop :=
  ∃ x, checkField (checkDepth [(0, record)] .values (Value.depthEntries es)) es f = .ok x ∧ Schema.fieldResult f x = y

theorem comes_iff {α : Type} {wrap : α → Value} {Q : Value → α → Prop} (fallback : Option α) (es : Entries)
    (y : Option (String × Value)) (hf : f ∈ record.fields)
    (hfallback : f.fallback = fallback.map wrap) (hrequired : f.required = fallback.isNone)
    (hmakes : ∀ n v w, Makes n f.schema v w ↔ ∃ a, Q v a ∧ w = wrap a) :
    Comes es f y ↔ ∃ a, (Entries.getText? es f.wire = none ∧ fallback = some a ∨
      ∃ v, Entries.getText? es f.wire = some v ∧ Q v a) ∧ y = some (f.wire, wrap a) := by
  simp only [Comes, checkField_iff (wire_cases hf).1]
  constructor
  · rintro ⟨x, ⟨hnone, hoptional, rfl⟩ | ⟨v, p, hv, hp, rfl⟩, rfl⟩
    · cases fallback with
      | none =>
          rw [hrequired] at hoptional
          cases hoptional
      | some a => exact ⟨a, .inl ⟨hnone, rfl⟩, by rw [Schema.fieldResult, hfallback]; rfl⟩
    · obtain ⟨n, hn⟩ := exists_depthEntries hv
      rw [hn] at hp
      obtain ⟨a, ha, hvalue⟩ := (hmakes n v p.value).1 ⟨p, hp, rfl⟩
      exact ⟨a, .inr ⟨v, hv, ha⟩, by rw [Schema.fieldResult, hvalue]⟩
  · rintro ⟨a, ⟨hnone, rfl⟩ | ⟨v, hv, ha⟩, rfl⟩
    · exact ⟨none, .inl ⟨hnone, hrequired, rfl⟩, by rw [Schema.fieldResult, hfallback]; rfl⟩
    · obtain ⟨n, hn⟩ := exists_depthEntries hv
      obtain ⟨p, hp, hvalue⟩ := (hmakes n v (wrap a)).2 ⟨a, ha, rfl⟩
      rw [← hn] at hp
      exact ⟨some (f.wire, p), .inr ⟨v, p, hv, hp, rfl⟩, by rw [Schema.fieldResult, hvalue]⟩

theorem find?_iff (hf : f ∈ record.fields) {x : String × Value} :
    f.find? es = some x ↔ x.1 = f.wire ∧ Entries.getText? es f.wire = some x.2 := by
  obtain ⟨name, w⟩ := x
  rw [Field.find?, (wire_cases hf).1]
  cases Entries.getText? es f.wire <;> simp [eq_comm]

theorem strayFindings_eq_nil_iff (htexts : ∀ e ∈ es, ∃ name, e.1 = .str name) : Schema.strayFindings record es = [] ↔
    ∀ field, (Entries.getText? es field).isSome = true → field = "limit" ∨ field = "period" ∨ field = "interruptible" := by
  constructor
  · intro h field hfield
    obtain ⟨v, hv⟩ := Option.isSome_iff_exists.1 hfield
    obtain ⟨f, hf, x, hx, hkey⟩ := Schema.strayFindings_eq_nil h _ (Entries.mem_of_getText? hv)
    obtain ⟨hwire, -⟩ := (find?_iff hf).1 hx
    obtain rfl : field = f.wire := (Value.str.inj hkey).trans hwire
    exact (wire_cases hf).2
  · intro h
    apply Schema.strayFindings_of_found
    intro e he
    obtain ⟨name, hname⟩ := htexts e he
    have hsome : (Entries.getText? es name).isSome = true :=
      Entries.isSome_getText?.2 (List.mem_map.2 ⟨e, he, hname⟩)
    obtain ⟨v, hv⟩ := Option.isSome_iff_exists.1 hsome
    obtain ⟨f, hf, rfl⟩ : ∃ f ∈ record.fields, f.wire = name := by
      rcases h name hsome with rfl | rfl | rfl <;>
        simp [fields_record, limitField, periodField, interruptibleField]
    exact ⟨f, hf, (f.wire, v), (find?_iff hf).2 ⟨rfl, hv⟩, hname⟩

theorem fields_eq_ok {fs : List (String × Value)} : fields (.dict es) = .ok fs ↔
    Schema.strayFindings record es = [] ∧ ∃ y₁ y₂ y₃, Comes es limitField y₁ ∧ Comes es periodField y₂ ∧
      Comes es interruptibleField y₃ ∧ [y₁, y₂, y₃].filterMap id = fs := by
  have hget : Records.get? [(0, record)] 0 = some record := rfl
  simp only [fields, Schema.map_eq_ok, Schema.check_eq_ok, Value.depth, checkDepth, Schema.step, hget,
    Schema.under_eq_ok, Schema.checkRecord_eq_ok (r := record) rfl rfl, fields_record, List.forall₂_cons_left_iff,
    List.forall₂_nil_left_iff]
  constructor
  · rintro ⟨w, ⟨p, ⟨_, parts, hes, ⟨x₁, _, h₁, ⟨x₂, _, h₂, ⟨x₃, _, h₃, rfl, rfl⟩, rfl⟩, rfl⟩, hstray, rfl⟩, rfl⟩, rfl⟩
    cases hes
    refine ⟨hstray, _, _, _, ⟨x₁, h₁, rfl⟩, ⟨x₂, h₂, rfl⟩, ⟨x₃, h₃, rfl⟩, ?_⟩
    simp [List.filterMap_cons]
  · rintro ⟨hstray, _, _, _, ⟨x₁, h₁, rfl⟩, ⟨x₂, h₂, rfl⟩, ⟨x₃, h₃, rfl⟩, rfl⟩
    refine ⟨_, ⟨_, ⟨es, _, rfl, ⟨x₁, _, h₁, ⟨x₂, _, h₂, ⟨x₃, _, h₃, rfl, rfl⟩, rfl⟩, rfl⟩, hstray, rfl⟩, rfl⟩, ?_⟩
    simp [List.filterMap_cons]

theorem fields_iff (htexts : ∀ e ∈ es, ∃ name, e.1 = .str name) {fs : List (String × Value)} :
    fields (.dict es) = .ok fs ↔ ∃ k x b, Reads (Entries.getText? es) k x b ∧
      fs = [("limit", .int k), ("period", .float x), ("interruptible", .bool b)] := by
  have hlimit (y : Option (String × Value)) :=
    comes_iff none es y (show limitField ∈ record.fields by simp [fields_record]) rfl rfl
      fun _ _ _ => makes_positiveInteger
  have hperiod (y : Option (String × Value)) :=
    comes_iff (some 1.0) es y (show periodField ∈ record.fields by simp [fields_record]) rfl rfl
      fun _ _ _ => makes_positiveNumber
  have hinterruptible (y : Option (String × Value)) :=
    comes_iff (some false) es y (show interruptibleField ∈ record.fields by simp [fields_record]) rfl rfl
      fun _ _ _ => makes_flag
  rw [fields_eq_ok, strayFindings_eq_nil_iff htexts]
  simp only [hlimit, hperiod, hinterruptible]
  constructor
  · rintro ⟨hknown, _, _, _, ⟨k, hk, rfl⟩, ⟨x, hx, rfl⟩, ⟨b, hb, rfl⟩, rfl⟩
    have hk := hk.resolve_left fun h => by cases h.2
    have hx := hx.imp_left fun h => And.intro h.1 (Option.some.inj h.2).symm
    have hb := hb.imp_left fun h => And.intro h.1 (Option.some.inj h.2).symm
    exact ⟨k, x, b, ⟨hknown, hk, hx, hb⟩, rfl⟩
  · rintro ⟨k, x, b, ⟨hknown, hk, hx, hb⟩, rfl⟩
    have hx := hx.imp_left fun h => And.intro h.1 (congrArg some h.2.symm)
    have hb := hb.imp_left fun h => And.intro h.1 (congrArg some h.2.symm)
    exact ⟨hknown, _, _, _, ⟨k, .inr hk, rfl⟩, ⟨x, hx, rfl⟩, ⟨b, hb, rfl⟩, rfl⟩

theorem ofFields_iff {k : Int} {x : Float} {b : Bool} (hpos : 0 < k) :
    ofFields [("limit", .int k), ("period", .float x), ("interruptible", .bool b)] = .ok o ↔
      (o.limit : Int) = k ∧ o.period = x ∧ o.interruptible = b := by
  obtain ⟨m, rfl⟩ : ∃ m : Nat, k = m + 1 := ⟨k.toNat - 1, by omega⟩
  obtain ⟨limit, period, interruptible, hlimit⟩ := o
  have hof : ofFields [("limit", .int ↑(m + 1)), ("period", .float x), ("interruptible", .bool b)] =
      .ok ⟨m + 1, x, b, m.succ_pos⟩ := by
    cases b <;> rfl
  have hcast : (m : Int) + 1 = ↑(m + 1) := by omega
  rw [hcast, hof, Except.ok.injEq, mk.injEq, Int.ofNat_inj]
  constructor
  · rintro ⟨rfl, rfl, rfl⟩
    exact ⟨rfl, rfl, rfl⟩
  · rintro ⟨rfl, rfl, rfl⟩
    exact ⟨rfl, rfl, rfl⟩

theorem ofValue?_iff (htexts : ∀ e ∈ es, ∃ name, e.1 = .str name) : ofValue? (.dict es) = .ok o ↔
    Reads (Entries.getText? es) o.limit o.period o.interruptible := by
  have hbind : ofValue? (.dict es) = (fields (.dict es)).bind ofFields := rfl
  rw [hbind]
  constructor
  · intro h
    obtain ⟨fs, hfs, hof⟩ := ok_of_bind h
    obtain ⟨k, x, b, hreads, rfl⟩ := (fields_iff htexts).1 hfs
    obtain ⟨-, -, -, -, hpos⟩ := hreads.limit
    obtain ⟨rfl, rfl, rfl⟩ := (ofFields_iff hpos).1 hof
    exact hreads
  · intro hreads
    obtain ⟨-, -, -, -, hpos⟩ := hreads.limit
    rw [(fields_iff htexts).2 ⟨_, _, _, hreads, rfl⟩]
    exact (ofFields_iff hpos).2 ⟨rfl, rfl, rfl⟩

end Options

end BotApi.Limit
