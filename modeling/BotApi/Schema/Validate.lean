import BotApi.Schema.Finding
import BotApi.Schema.Scalar
import BotApi.Text.Path
import BotApi.Value.Compare
/-!
Checking a value against a schema. The result is the value in the schema's form, or else everything that was
found wrong; either way there is a score of what was taken on the way. Options of a union are compared by
their scores, and of what an option was tried on in vain the score stays.

A schema is taken apart structurally; a part of the value is handed to `descend`, so that checking
goes at most as deep as the value.
-/

namespace BotApi.Schema

/-- How well values fit: the worst of their grades, and how many fields their records have set, if there is a record
among them. A score that is taken anew has forgotten what was reached before. -/
structure Score where
  grade : Grade
  fieldsSet : Option Nat
  anew : Bool
  deriving Repr, DecidableEq

def addSet : Option Nat → Option Nat → Option Nat
  | some a, some b => some (a + b)
  | none, b => b
  | a, none => a

namespace Score

def of (g : Grade) : Score := ⟨g, none, false⟩

def andThen (a b : Score) : Score :=
  if b.anew then b else ⟨a.grade.worse b.grade, addSet a.fieldsSet b.fieldsSet, a.anew⟩

def setting (n : Nat) (a : Score) : Score := { a with fieldsSet := addSet a.fieldsSet (some n) }

end Score

structure Passed extends Score where
  value : Value

structure Refused extends Score where
  findings : List Finding

abbrev Verdict := Except Refused Passed

def refuseAt (g : Grade) (f : Fault) : Verdict := .error ⟨.of g, [.here f]⟩

def refuse (f : Fault) : Verdict := refuseAt .exact f

def Verdict.ofScalar {α : Type} (wrap : α → Value) : Graded α → Verdict
  | .ok (a, g) => .ok ⟨.of g, wrap a⟩
  | .error f => refuse f

def Verdict.bounded {α : Type} (wrap : α → Value) (fault? : α → Option Fault) : Graded α → Verdict
  | .ok (a, g) => match fault? a with
      | none => .ok ⟨.of g, wrap a⟩
      | some f => refuseAt g f
  | .error f => refuse f

def collect {α : Type} : List (Except Refused α) → Except (List Finding) (List α)
  | [] => .ok []
  | .ok a :: rest => (collect rest).map (a :: ·)
  | .error r :: rest => match collect rest with
      | .ok _ => .error r.findings
      | .error fs => .error (r.findings ++ fs)

def under {α : Type} (t : Turn) : Except Refused α → Except Refused α
  | .ok a => .ok a
  | .error r => .error { r with findings := r.findings.map (Finding.under t) }

def scoreOf : Verdict → Score
  | .ok p => p.toScore
  | .error r => r.toScore

def total (start : Score) (scores : List Score) : Score := scores.foldl Score.andThen start

def isFile : Value → Bool
  | .bytes _ | .buffer _ | .path _ | .stream _ _ => true
  | _ => false

def outside? (least most : Int) (n : Int) : Option Fault :=
  if most < n then some (.most most)
  else if n < least then some (.least least)
  else none

def itemVerdicts (descend : Value → Verdict) (xs : List Value) : List Verdict :=
  xs.zipIdx.map fun (x, i) => under (.step (.index i)) (descend x)

def checkItems (descend : Value → Verdict) (start : Grade) (xs : List Value) : Verdict :=
  let items := itemVerdicts descend xs
  let score := total (.of start) (items.map scoreOf)
  match collect items with
  | .ok ps => .ok ⟨score, .list (ps.map (·.value))⟩
  | .error fs => .error ⟨score, fs⟩

def checkArray (source : Source) (descend : Value → Verdict) : Value → Verdict
  | .list xs => checkItems descend .exact xs
  | .tuple xs => checkItems descend .lax xs
  | _ => refuse (.list source)

def dropRepeats (p : Passed) : Verdict :=
  match p.value with
  | .list [] => refuse (.refused "a union needs at least one option")
  | .list xs =>
      let kept := xs.foldl (fun seen x => if seen.any (·.equal x) then seen else seen ++ [x]) []
      .ok { p with value := .list kept }
  | _ => .ok p

/-- Of two results with records the one that sets more fields is better; otherwise the better grade
decides, and a tie keeps the earlier. -/
def Passed.beats (new old : Passed) : Bool :=
  match old.fieldsSet, new.fieldsSet with
  | some a, some b => if a = b then old.grade.rank < new.grade.rank else a < b
  | _, _ => old.grade.rank < new.grade.rank

/-- An exact result without records ends the search; `best` is the best so far. -/
def pick (best : Option Passed) (findings : List Finding) : List Verdict → Verdict
  | [] => match best with
      | some p => .ok p
      | none => .error ⟨.of .exact, findings⟩
  | v :: rest => match v with
      | .ok p =>
          if p.grade = .exact ∧ p.fieldsSet = none then .ok p
          else match best with
            | none => pick (some p) findings rest
            | some b => pick (some (if p.beats b then p else b)) findings rest
      | .error r => pick best (findings ++ r.findings) rest

/-- A search that was ended leaves the score of its last option alone. -/
def Passed.picked (p : Passed) : Passed :=
  { p with anew := p.grade = .exact ∧ p.fieldsSet = none }

def Passed.after (left : Score) (p : Passed) : Passed := ⟨left.andThen p.toScore, p.value⟩

/-- What the options before have left counts for the first that takes the value. -/
def pickFirst (left : Score) (findings : List Finding) : List Verdict → Verdict
  | [] => .error ⟨left, findings⟩
  | v :: rest => match v with
      | .ok p => .ok (p.after left)
      | .error r => pickFirst (left.andThen r.toScore) (findings ++ r.findings) rest

def readersText (readers : List String) : String := String.intercalate " | " (readers.map quotedName)

def tagOf? (readers : List String) (es : Entries) : Option Value := readers.findSome? es.getText?

def Field.find? (f : Field) (es : Entries) : Option (String × Value) :=
  match es.getText? f.wire with
  | some v => some (f.wire, v)
  | none => (es.getText? f.name).map fun v => (f.name, v)

def checkField (descend : Schema → Value → Verdict) (es : Entries) (f : Field) :
    Except Refused (Option (String × Passed)) :=
  match f.find? es with
  | some (name, v) => (under (.step (.key name)) (descend f.schema v)).map fun p => some (name, p)
  | none => if f.required then .error ⟨.of .exact, [⟨[.step (.key f.wire)], .missing⟩]⟩ else .ok none

def fieldScore : Except Refused (Option (String × Passed)) → Score
  | .ok (some (_, p)) => p.toScore
  | .ok none => .of .exact
  | .error r => r.toScore

def usedNames (r : Record) (es : Entries) : List String :=
  r.fields.filterMap fun f => (f.find? es).map (·.1)

def strayFindings (r : Record) (es : Entries) : List Finding :=
  let used := usedNames r es
  es.filterMap fun (k, _) => match k with
    | .str s => if used.contains s then none else some ⟨[.step (.key s)], .extra⟩
    | k => some ⟨[.step (.ofKey k)], .badKey⟩

def fieldResult (f : Field) : Option (String × Passed) → Option (String × Value)
  | some (_, p) => some (f.wire, p.value)
  | none => f.fallback.map fun v => (f.wire, v)

def Check.fault? (c : Check) (fields : List (String × Value)) : Option Fault :=
  match c with
  | .none => Option.none
  | .oneOfFieldsAndSubtypes =>
      let get (n : String) : Value := ((fields.find? (·.1 == n)).map (·.2)).getD .null
      if (get "fields").isNull == (get "subtypes").isNull then
        let name := (get "name").shownText
        .some (.refused s!"type '{name}' needs exactly one of fields/subtypes")
      else .none

def checkEntries (descend : Schema → Value → Verdict) (r : Record) (es : Entries) : Verdict :=
  let found := r.fields.map (checkField descend es)
  let stray := if r.closed then strayFindings r es else []
  -- A record made of a mapping is not the value as it was.
  let score := total (.of .strict) (found.map fieldScore)
  match collect found with
  | .error fs => .error ⟨score, fs ++ stray⟩
  | .ok parts =>
      if stray.isEmpty then
        let fields := (r.fields.zip parts).filterMap fun (f, p) => fieldResult f p
        match r.check.fault? fields with
        | none => .ok ⟨score.setting (parts.filterMap id).length, .record r.name fields⟩
        | some f => .error ⟨score, [.here f]⟩
      else .error ⟨score, stray⟩

def checkRecord (source : Source) (descend : Schema → Value → Verdict) (r : Record) :
    Value → Verdict
  | .dict es => checkEntries descend r es
  | _ => refuseAt .strict (.record source r.name)

/-- Values other than mappings whose attributes can be asked for, though none is a tag. -/
def hasAttributes : Value → Bool
  | .path _ | .stream _ _ | .limits _ => true
  | _ => false

mutual
def step (rs : Records) (source : Source) (descend : Schema → Value → Verdict) :
    Schema → Value → Verdict
  | .any, v => .ok ⟨.of .strict, v⟩
  | .text, v => Verdict.ofScalar .str (readText v)
  | .nonEmptyText, v =>
      Verdict.bounded .str (fun s => if s.isEmpty then some .emptyText else none) (readText v)
  | .integer least most, v => Verdict.bounded .int (outside? least most) (readInteger v)
  | .positiveInteger, v =>
      Verdict.bounded .int (fun n => if 0 < n then none else some (.above 0)) (readInteger v)
  | .number, v => Verdict.ofScalar .float (readNumber v)
  | .positiveNumber, v =>
      Verdict.bounded .float (fun x => if 0 < x then none else some (.above 0)) (readNumber v)
  | .flag, v => Verdict.ofScalar .bool (readFlag v)
  | .onlyTrue, v =>
      if v.equal (.bool true) then .ok ⟨.of .exact, .bool true⟩ else refuse (.literal "True")
  | .onlyText ts, v => match v with
      | .str s =>
          if ts.contains s then .ok ⟨.of .exact, .str s⟩
          else refuse (.literal (String.intercalate " or " (ts.map quotedName)))
      | _ => refuse (.literal (String.intercalate " or " (ts.map quotedName)))
  | .file, v =>
      if isFile v then .ok ⟨.of .strict, v⟩
      else refuseAt .strict (.refused "expected a file to upload: bytes, a path or a binary stream")
  | .path, v => match v with
      | .path _ => .ok ⟨.of .exact, v⟩
      | .str s => .ok ⟨.of .lax, .path (Text.Path.ofText s).text⟩
      | _ => refuse .path
  | .optional s, v => if v.isNull then .ok ⟨.of .exact, .null⟩ else step rs source descend s v
  | .array s, v => checkArray source (descend s) v
  | .distinct s, v => match step rs source descend s v with
      | .ok p => dropRepeats p
      | .error r => .error r
  | .union os, v => (pick none [] (verdicts rs source descend os v)).map Passed.picked
  | .firstOf os, v => pickFirst (.of .exact) [] (verdicts rs source descend os v)
  | .tagged readers cs, v => match v with
      | .dict es => match tagOf? readers es with
          | none => refuse (.noTag (readersText readers))
          | some tag => match choose rs source descend cs tag v with
              | some verdict => verdict
              | none => refuse (.unknownTag tag.shownText (readersText readers)
                  (String.intercalate ", " (cs.map fun c => quotedName c.1)))
      | v =>
          if source = .values ∧ hasAttributes v then refuse (.noTag (readersText readers))
          else refuse (.object source)
  | .record k, v => match rs.get? k with
      | some r => under (.record k) (checkRecord source descend r v)
      | none => refuse (.refused "unknown record")
def verdicts (rs : Records) (source : Source) (descend : Schema → Value → Verdict) :
    List Schema → Value → List Verdict
  | [], _ => []
  | s :: ss, v => under (.option s) (step rs source descend s v) :: verdicts rs source descend ss v
def choose (rs : Records) (source : Source) (descend : Schema → Value → Verdict) :
    List (String × Schema) → Value → Value → Option Verdict
  | [], _, _ => none
  | (t, s) :: cs, tag, v =>
      if tag.str? = some t then some (under (.step (.key t)) (step rs source descend s v))
      else choose rs source descend cs tag v
end

def checkDepth (rs : Records) (source : Source) : Nat → Schema → Value → Verdict
  | 0, _, _ => refuse (.refused "too deep")
  | n + 1, s, v => step rs source (checkDepth rs source n) s v

end BotApi.Schema

namespace BotApi.Value

mutual
def depth : Value → Nat
  | list xs | tuple xs => depthList xs + 1
  | dict es => depthEntries es + 1
  | _ => 1
def depthList : List Value → Nat
  | [] => 0
  | x :: xs => max (depth x) (depthList xs)
def depthEntries : List (Value × Value) → Nat
  | [] => 0
  | (_, v) :: es => max (depth v) (depthEntries es)
end

end BotApi.Value

namespace BotApi.Schema

def checkNamed (n : Naming) (rs : Records) (source : Source) (s : Schema) (v : Value) :
    Except (List Issue) Value :=
  match checkDepth rs source v.depth s v with
  | .ok p => .ok p.value
  | .error r => .error (r.findings.map (n.issue rs))

def check (rs : Records) (source : Source) (s : Schema) (v : Value) : Except (List Issue) Value :=
  checkNamed .plain rs source s v

end BotApi.Schema
