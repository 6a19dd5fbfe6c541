import BotApi.Proofs.Draft.Documented
import BotApi.Proofs.Values.Entries
/-!
What the documentation says of values: which of them conform to a type expression, and what a type
expression makes of a value that does not. Whatever is made of a value conforms, as long as no stream in
it is used up on the way.
-/

namespace BotApi

open Schema (Graded isFile int64Least int64Most)

namespace BasicType

def Admits : BasicType → Value → Prop
  | flag, w => ∃ b, w = .bool b
  | onlyTrue, w => w = .bool true
  | text, w => ∃ t, w = .str t
  | integer, w => ∃ n, w = .int n ∧ int64Least ≤ n ∧ n ≤ int64Most
  | number, w => ∃ x, w = .float x
  | file, w => isFile w = true
  | any, _ => True

def Reads : BasicType → Value → Value → Prop
  | flag, v, u => ∃ b g, Schema.readFlag v = .ok (b, g) ∧ u = .bool b
  | onlyTrue, v, u => v.equal (.bool true) = true ∧ u = .bool true
  | text, v, u => ∃ t g, Schema.readText v = .ok (t, g) ∧ u = .str t
  | integer, v, u => ∃ n g, Schema.readInteger v = .ok (n, g) ∧ int64Least ≤ n ∧ n ≤ int64Most ∧
      u = .int n
  | number, v, u => ∃ x g, Schema.readNumber v = .ok (x, g) ∧ u = .float x
  | file, v, u => isFile v = true ∧ u = v
  | any, v, u => u = v

end BasicType

def Param.fixedText (p : Param) : String := p.value.getD ""

def Param.given? (p : Param) (es : Entries) : Option Value :=
  (es.getText? p.name).or (es.getText? (Catalog.attributeName p.name))

structure Entries.Complete (ps : List Param) (es : Entries) : Prop where
  once : (es.map (·.1)).Nodup
  known : ∀ e ∈ es, ∃ p ∈ ps, e.1 = .str p.name
  required : ∀ p ∈ ps, p.required = true → ∃ w, (.str p.name, w) ∈ es

namespace Spec

mutual
-- `told` says which fields of which types hold their text whatever their type is.
inductive Conforms (s : Spec) (told : String → String → Bool) : TypeExpr → Value → Prop
  | basic {n : String} {w : Value} (admits : (BasicType.ofName n).Admits w) : Conforms s told (.basic n) w
  | file {id : String} {t : ApiType} {key : Nat} {w : Value} (entry : s.typeEntry? id = some (t, key))
      (name : t.name = inputFileName) (admits : isFile w = true) : Conforms s told (.ref id) w
  | bare {id : String} {t : ApiType} {key : Nat} {w : Value} (entry : s.typeEntry? id = some (t, key))
      (name : t.name ≠ inputFileName) (shape : t.shape = .fields []) : Conforms s told (.ref id) w
  | record {id : String} {t : ApiType} {key : Nat} {ps : List Param} {es : Entries}
      (record : s.RecordOf id t key ps) (complete : es.Complete ps)
      (each : ∀ p ∈ ps, ∀ w, (.str p.name, w) ∈ es → ConformsField s told (told id) p w) :
      Conforms s told (.ref id) (.dict es)
  | subtype {id i : String} {t : ApiType} {key : Nat} {ids : List String} {w : Value}
      (entry : s.typeEntry? id = some (t, key)) (name : t.name ≠ inputFileName)
      (shape : t.shape = .subtypes ids) (mem : i ∈ ids) (conforms : Conforms s told (.ref i) w) :
      Conforms s told (.ref id) w
  | array {e : TypeExpr} {ws : List Value} (each : ∀ w ∈ ws, Conforms s told e w) :
      Conforms s told (.array e) (.list ws)
  | option {e : TypeExpr} {es : List TypeExpr} {w : Value} (mem : e ∈ es)
      (conforms : Conforms s told e w) : Conforms s told (.union es) w
inductive ConformsField (s : Spec) (told : String → String → Bool) :
    (String → Bool) → Param → Value → Prop
  | null {fixed : String → Bool} {p : Param} (optional : p.required = false) :
      ConformsField s told fixed p .null
  | fixed {fixed : String → Bool} {p : Param} (holds : fixed p.name = true) :
      ConformsField s told fixed p (.str p.fixedText)
  | typed {fixed : String → Bool} {p : Param} {w : Value} (free : fixed p.name = false)
      (conforms : Conforms s told p.type w) : ConformsField s told fixed p w
end

structure Accords (s : Spec) (told : String → String → Bool) (m : Method) (es : Entries) : Prop where
  complete : es.Complete m.params
  each : ∀ p ∈ m.params, ∀ w, (.str p.name, w) ∈ es →
    s.ConformsField told (fun _ => false) p w

section

variable {s : Spec} {told : String → String → Bool} {id : String} {t : ApiType} {key : Nat} {w : Value}

theorem Conforms.of_subtypes {ids : List String} (h : s.Conforms told (.ref id) w)
    (he : s.typeEntry? id = some (t, key)) (hname : t.name ≠ inputFileName)
    (hshape : t.shape = .subtypes ids) : ∃ i ∈ ids, s.Conforms told (.ref i) w := by
  cases h with
  | file entry name =>
      cases he.symm.trans entry
      exact absurd name hname
  | bare entry _ shape =>
      cases he.symm.trans entry
      cases hshape.symm.trans shape
  | record record =>
      cases he.symm.trans record.entry
      cases hshape.symm.trans record.shape
  | subtype entry _ shape mem conforms =>
      cases he.symm.trans entry
      cases hshape.symm.trans shape
      exact ⟨_, mem, conforms⟩

theorem Conforms.of_record {ps : List Param} (h : s.Conforms told (.ref id) w)
    (hr : s.RecordOf id t key ps) : ∃ es : Entries, w = .dict es ∧ es.Complete ps ∧
      ∀ p ∈ ps, ∀ w, (.str p.name, w) ∈ es → s.ConformsField told (told id) p w := by
  cases h with
  | file entry name =>
      cases hr.entry.symm.trans entry
      exact absurd name hr.name
  | bare entry _ shape =>
      cases hr.entry.symm.trans entry
      exact absurd (Shape.fields.inj (hr.shape.symm.trans shape)) hr.nonempty
  | record record complete each =>
      cases hr.entry.symm.trans record.entry
      obtain rfl : _ = ps := Shape.fields.inj (record.shape.symm.trans hr.shape)
      exact ⟨_, rfl, complete, each⟩
  | subtype entry _ shape =>
      cases hr.entry.symm.trans entry
      cases hr.shape.symm.trans shape

end

mutual
inductive Reads (s : Spec) : TypeExpr → Value → Value → Prop
  | basic {n : String} {v u : Value} (reads : (BasicType.ofName n).Reads v u) : Reads s (.basic n) v u
  | file {id : String} {t : ApiType} {key : Nat} {v : Value} (entry : s.typeEntry? id = some (t, key))
      (name : t.name = inputFileName) (admits : isFile v = true) : Reads s (.ref id) v v
  | bare {id : String} {t : ApiType} {key : Nat} {v : Value} (entry : s.typeEntry? id = some (t, key))
      (name : t.name ≠ inputFileName) (shape : t.shape = .fields []) : Reads s (.ref id) v v
  | record {id : String} {t : ApiType} {key : Nat} {ps : List Param} {es : Entries} {name : String}
      {fs : List (String × Value)} (record : s.RecordOf id t key ps)
      (known : ∀ e ∈ es, ∃ p ∈ ps, e.1 = .str p.name ∨ e.1 = .str (Catalog.attributeName p.name))
      (fields : ReadsFields s (s.tellsApart id) es ps fs) : Reads s (.ref id) (.dict es) (.record name fs)
  | subtype {id i : String} {t : ApiType} {key : Nat} {ids : List String} {v u : Value}
      (entry : s.typeEntry? id = some (t, key)) (name : t.name ≠ inputFileName)
      (shape : t.shape = .subtypes ids) (mem : i ∈ ids) (reads : Reads s (.ref i) v u) :
      Reads s (.ref id) v u
  | array {e : TypeExpr} {v : Value} {xs us : List Value} (items : v = .list xs ∨ v = .tuple xs)
      (each : ReadsItems s e xs us) : Reads s (.array e) v (.list us)
  | option {e : TypeExpr} {es : List TypeExpr} {v u : Value} (mem : e ∈ es) (reads : Reads s e v u) :
      Reads s (.union es) v u
inductive ReadsItems (s : Spec) : TypeExpr → List Value → List Value → Prop
  | nil {e : TypeExpr} : ReadsItems s e [] []
  | cons {e : TypeExpr} {x u : Value} {xs us : List Value} (head : Reads s e x u)
      (tail : ReadsItems s e xs us) : ReadsItems s e (x :: xs) (u :: us)
inductive ReadsField (s : Spec) : (String → Bool) → Param → Value → Value → Prop
  | null {fixed : String → Bool} {p : Param} (optional : p.required = false) :
      ReadsField s fixed p .null .null
  | fixed {fixed : String → Bool} {p : Param} (holds : fixed p.name = true) :
      ReadsField s fixed p (.str p.fixedText) (.str p.fixedText)
  | typed {fixed : String → Bool} {p : Param} {v u : Value} (free : fixed p.name = false)
      (given : p.required = true ∨ v.isNull = false) (reads : Reads s p.type v u) :
      ReadsField s fixed p v u
inductive ReadsFields (s : Spec) : (String → Bool) → Entries → List Param → List (String × Value) → Prop
  | nil {fixed : String → Bool} {es : Entries} : ReadsFields s fixed es [] []
  | absent {fixed : String → Bool} {es : Entries} {p : Param} {ps : List Param}
      {fs : List (String × Value)} (absent : p.given? es = none) (optional : p.required = false)
      (rest : ReadsFields s fixed es ps fs) : ReadsFields s fixed es (p :: ps) fs
  | given {fixed : String → Bool} {es : Entries} {p : Param} {ps : List Param} {v u : Value}
      {fs : List (String × Value)} (given : p.given? es = some v) (reads : ReadsField s fixed p v u)
      (rest : ReadsFields s fixed es ps fs) : ReadsFields s fixed es (p :: ps) ((p.name, u) :: fs)
end

end Spec

namespace Value

mutual
def hasStream : Value → Bool
  | stream _ _ => true
  | list xs | tuple xs => someStream xs
  | dict es => entryStream es
  | record _ fs | limits fs => fieldStream fs
  | _ => false
def someStream : List Value → Bool
  | [] => false
  | x :: xs => hasStream x || someStream xs
def entryStream : List (Value × Value) → Bool
  | [] => false
  | (_, v) :: es => hasStream v || entryStream es
def fieldStream : List (String × Value) → Bool
  | [] => false
  | (_, v) :: fs => hasStream v || fieldStream fs
end

theorem plainItems_eq (xs : List Value) : plainItems xs = xs.map plainData := by
  induction xs with
  | nil => rfl
  | cons x xs ih => rw [plainItems, List.map_cons, ih]

theorem plainFields_eq (fs : List (String × Value)) :
    plainFields fs = fs.map fun f => (.str f.1, f.2.plainData) := by
  induction fs with
  | nil => rfl
  | cons f fs ih => rw [plainFields, List.map_cons, ih]

theorem plainData_of_isFile {v : Value} (h : isFile v = true) (hstream : v.hasStream = false) :
    v.plainData = v := by
  cases v with
  | bytes | buffer | path => rfl
  | stream => cases hstream
  | _ => cases h

end Value

theorem Param.mem_of_given? {p : Param} {es : Entries} {v : Value} (h : p.given? es = some v) :
    ∃ k, (k, v) ∈ es := by
  rw [given?, Option.or_eq_some_iff] at h
  rcases h with h | ⟨-, h⟩ <;> exact ⟨_, Entries.mem_of_getText? h⟩

namespace BasicType

variable {b : BasicType} {v u : Value}

theorem Reads.admits (h : b.Reads v u) : b.Admits u := by
  cases b with
  | flag =>
      obtain ⟨b, g, -, rfl⟩ := h
      exact ⟨b, rfl⟩
  | onlyTrue => exact h.2
  | text =>
      obtain ⟨t, g, -, rfl⟩ := h
      exact ⟨t, rfl⟩
  | integer =>
      obtain ⟨n, g, -, hleast, hmost, rfl⟩ := h
      exact ⟨n, rfl, hleast, hmost⟩
  | number =>
      obtain ⟨x, g, -, rfl⟩ := h
      exact ⟨x, rfl⟩
  | file =>
      obtain ⟨hfile, rfl⟩ := h
      exact hfile
  | any => trivial

theorem Reads.hasStream (h : b.Reads v u) (hv : v.hasStream = false) : u.hasStream = false := by
  cases b with
  | flag =>
      obtain ⟨b, g, -, rfl⟩ := h
      rfl
  | onlyTrue =>
      obtain ⟨-, rfl⟩ := h
      rfl
  | text =>
      obtain ⟨t, g, -, rfl⟩ := h
      rfl
  | integer =>
      obtain ⟨n, g, -, -, -, rfl⟩ := h
      rfl
  | number =>
      obtain ⟨x, g, -, rfl⟩ := h
      rfl
  | file =>
      obtain ⟨-, rfl⟩ := h
      exact hv
  | any =>
      obtain rfl : u = v := h
      exact hv

theorem Admits.plainData (h : b.Admits u) (hu : u.hasStream = false) : b.Admits u.plainData := by
  cases b with
  | flag =>
      obtain ⟨b, rfl⟩ := h
      exact ⟨b, rfl⟩
  | onlyTrue =>
      obtain rfl : u = .bool true := h
      rfl
  | text =>
      obtain ⟨t, rfl⟩ := h
      exact ⟨t, rfl⟩
  | integer =>
      obtain ⟨n, rfl, hn⟩ := h
      exact ⟨n, rfl, hn⟩
  | number =>
      obtain ⟨x, rfl⟩ := h
      exact ⟨x, rfl⟩
  | file =>
      rw [Admits, Value.plainData_of_isFile h hu]
      exact h
  | any => trivial

end BasicType

namespace Value

theorem hasStream_of_mem {es : Entries} {k v : Value} (h : (k, v) ∈ es)
    (hes : entryStream es = false) : v.hasStream = false := by
  induction es with
  | nil => cases h
  | cons e es ih =>
      rw [entryStream, Bool.or_eq_false_iff] at hes
      rcases List.mem_cons.1 h with rfl | h
      · exact hes.1
      · exact ih h hes.2

end Value

namespace Spec

variable {s : Spec} {fixed : String → Bool} {es : Entries}

theorem ReadsFields.names : ∀ {ps : List Param} {fs : List (String × Value)},
    s.ReadsFields fixed es ps fs → List.Sublist (fs.map (·.1)) (ps.map (·.name))
  | _, _, .nil => .slnil
  | _, _, .absent _ _ hrest => .cons _ hrest.names
  | _, _, .given _ _ hrest => .cons_cons _ hrest.names

theorem ReadsFields.required : ∀ {ps : List Param} {fs : List (String × Value)},
    s.ReadsFields fixed es ps fs → ∀ p ∈ ps, p.required = true → ∃ u, (p.name, u) ∈ fs
  | _, _, .nil => by simp
  | _, _, .absent _ hoptional hrest => by
      intro p hp hrequired
      rcases List.mem_cons.1 hp with rfl | hp
      · exact absurd (hrequired.symm.trans hoptional) (by decide)
      · exact hrest.required p hp hrequired
  | _, _, .given (u := u) _ _ hrest => by
      intro p hp hrequired
      rcases List.mem_cons.1 hp with rfl | hp
      · exact ⟨u, by simp⟩
      · obtain ⟨u', hu'⟩ := hrest.required p hp hrequired
        exact ⟨u', List.mem_cons_of_mem _ hu'⟩

theorem ReadsFields.reads : ∀ {ps : List Param} {fs : List (String × Value)},
    s.ReadsFields fixed es ps fs → ∀ f ∈ fs, ∃ p ∈ ps, f.1 = p.name ∧
      ∃ v, p.given? es = some v ∧ s.ReadsField fixed p v f.2
  | _, _, .nil => by simp
  | _, _, .absent _ _ hrest => by
      intro f hf
      obtain ⟨p, hp, hreads⟩ := hrest.reads f hf
      exact ⟨p, by simp [hp], hreads⟩
  | _, _, .given hgiven hreads hrest => by
      intro f hf
      rcases List.mem_cons.1 hf with rfl | hf
      · exact ⟨_, by simp, rfl, _, hgiven, hreads⟩
      · obtain ⟨p, hp, hreads⟩ := hrest.reads f hf
        exact ⟨p, by simp [hp], hreads⟩

theorem ReadsFields.complete {ps : List Param} {fs : List (String × Value)} (wire : Value → Value)
    (h : s.ReadsFields fixed es ps fs) (hnames : (ps.map (Catalog.attributeName ·.name)).Nodup) :
    Entries.Complete ps (fs.map fun f => (Value.str f.1, wire f.2)) where
  once := by
    have hps : (ps.map (·.name)).Nodup := .of_map Catalog.attributeName (by rwa [List.map_map])
    rw [List.map_map]
    have hmap : (fs.map (·.1)).map Value.str = fs.map ((·.1) ∘ fun f => (Value.str f.1, wire f.2)) := by
      rw [List.map_map]
      rfl
    rw [← hmap]
    exact (h.names.nodup hps).map fun _ _ heq => Value.str.inj heq
  known e he := by
    obtain ⟨f, hf, rfl⟩ := List.mem_map.1 he
    obtain ⟨p, hp, hname, -⟩ := h.reads f hf
    exact ⟨p, hp, by rw [hname]⟩
  required p hp hrequired := by
    obtain ⟨u, hu⟩ := h.required p hp hrequired
    exact ⟨wire u, List.mem_map.2 ⟨_, hu, rfl⟩⟩

theorem of_mem_fields {ps : List Param} {fs : List (String × Value)} {wire : Value → Value}
    {C : Param → Value → Prop} (hnames : (ps.map (Catalog.attributeName ·.name)).Nodup)
    (hfs : ∀ f ∈ fs, ∃ p ∈ ps, f.1 = p.name ∧ C p (wire f.2)) {p : Param} (hp : p ∈ ps) {w : Value}
    (hw : (.str p.name, w) ∈ fs.map fun f => (Value.str f.1, wire f.2)) : C p w := by
  obtain ⟨f, hf, heq⟩ := List.mem_map.1 hw
  obtain ⟨q, hq, hname, hc⟩ := hfs f hf
  rw [Prod.mk.injEq, Value.str.injEq] at heq
  obtain rfl : q = p := List.inj_on_of_nodup_map hnames hq hp
    (congrArg Catalog.attributeName (hname.symm.trans heq.1))
  rw [← heq.2]
  exact hc

mutual
theorem Reads.conforms (distinct : s.Distinct) : ∀ {e : TypeExpr} {v u : Value}, s.Reads e v u →
    v.hasStream = false → s.Conforms s.tellsApart e u.plainData
  | _, _, _, .basic hreads, hv => .basic (hreads.admits.plainData (hreads.hasStream hv))
  | _, _, _, .file hentry hname hadmits, hv =>
      .file hentry hname (by rwa [Value.plainData_of_isFile hadmits hv])
  | _, _, _, .bare hentry hname hshape, _ => .bare hentry hname hshape
  | _, _, _, .record hr _ hfields, hv => by
      rw [Value.plainData, Value.plainFields_eq]
      exact .record hr (hfields.complete Value.plainData (hr.attributes distinct)) fun p hp w hw =>
        of_mem_fields (hr.attributes distinct) (hfields.conforms distinct hv) hp hw
  | _, _, _, .subtype hentry hname hshape hmem hreads, hv =>
      .subtype hentry hname hshape hmem (hreads.conforms distinct hv)
  | _, _, _, .array hitems hreads, hv => by
      have hconforms := hreads.conforms distinct (by rcases hitems with rfl | rfl <;> exact hv)
      rw [Value.plainData, Value.plainItems_eq]
      exact .array (by simpa using hconforms)
  | _, _, _, .option hmem hreads, hv => .option hmem (hreads.conforms distinct hv)
theorem ReadsItems.conforms (distinct : s.Distinct) : ∀ {e : TypeExpr} {xs us : List Value},
    s.ReadsItems e xs us → Value.someStream xs = false →
      ∀ u ∈ us, s.Conforms s.tellsApart e u.plainData
  | _, _, _, .nil, _ => by simp
  | _, _, _, .cons hhead htail, hxs => by
      rw [Value.someStream, Bool.or_eq_false_iff] at hxs
      exact List.forall_mem_cons.2 ⟨hhead.conforms distinct hxs.1, htail.conforms distinct hxs.2⟩
theorem ReadsField.conforms (distinct : s.Distinct) : ∀ {fixed : String → Bool} {p : Param}
    {v u : Value}, s.ReadsField fixed p v u → v.hasStream = false →
      s.ConformsField s.tellsApart fixed p u.plainData
  | _, _, _, _, .null hoptional, _ => .null hoptional
  | _, _, _, _, .fixed hholds, _ => .fixed hholds
  | _, _, _, _, .typed hfree _ hreads, hv => .typed hfree (hreads.conforms distinct hv)
theorem ReadsFields.conforms (distinct : s.Distinct) : ∀ {fixed : String → Bool} {es : Entries}
    {ps : List Param} {fs : List (String × Value)}, s.ReadsFields fixed es ps fs →
      Value.entryStream es = false → ∀ f ∈ fs, ∃ p ∈ ps, f.1 = p.name ∧
        s.ConformsField s.tellsApart fixed p f.2.plainData
  | _, _, _, _, .nil, _ => by simp
  | _, _, _, _, .absent _ _ hrest, hes => by
      intro f hf
      obtain ⟨p, hp, hconforms⟩ := hrest.conforms distinct hes f hf
      exact ⟨p, by simp [hp], hconforms⟩
  | _, _, _, _, .given hgiven hreads hrest, hes => by
      obtain ⟨k, hk⟩ := Param.mem_of_given? hgiven
      have hhead := hreads.conforms distinct (Value.hasStream_of_mem hk hes)
      refine List.forall_mem_cons.2 ⟨⟨_, by simp, rfl, hhead⟩, fun f hf => ?_⟩
      obtain ⟨p, hp, hconforms⟩ := hrest.conforms distinct hes f hf
      exact ⟨p, by simp [hp], hconforms⟩
end

end Spec

end BotApi
