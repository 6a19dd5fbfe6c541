import BotApi.Catalog.Basic
import BotApi.Update.Basic
/-!
The kinds of updates that a catalog documents, and the list of those to be delivered.
-/

namespace BotApi.Update

def optInKinds : List String := ["chat_member", "message_reaction", "message_reaction_count"]

def kinds (spec : Spec) (message edited : Bool) : Except Error (List String) :=
  match spec.type? "update" with
  | none => .error (.config .noUpdateType)
  | some t =>
      if t.fields.isEmpty then .error (.config .noUpdateType)
      else
        let kept := t.fields.filter fun f =>
          f.name != idKey && (!message || f.type == .ref "message") &&
            (!edited || Text.startsWith "edited".toList f.name.toList)
        .ok (kept.map (·.name))

inductive Mode where
  | all
  | default
  deriving Repr, DecidableEq

def Mode.ofName? : String → Option Mode
  | "all" => some all
  | "default" => some default
  | _ => none

def allowed (spec : Spec) (mode : String) (adding excluding : List String) :
    Except Error (List String) := do
  let names ← kinds spec false false
  match Mode.ofName? mode with
  | none => .error (.config (.updatesMode mode))
  | some m =>
      let names := match m with
        | .all => names
        | .default => names.filter fun n => !optInKinds.contains n
      let added := adding.filter fun n => !names.contains n
      pure ((names ++ added).filter fun n => !excluding.contains n)

end BotApi.Update
