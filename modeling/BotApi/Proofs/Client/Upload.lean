import BotApi.Proofs.Catalog.Discovery
import BotApi.Proofs.Client.Secret
import BotApi.Proofs.Values.Uploaded
import BotApi.Proofs.Wire.Sent
/-!
Uploads, from the parameters of a call to the body of its request. A file that is a parameter by itself, of a method
that is documented to take one there, is sent with all its octets; a file within another value is not.
-/

namespace BotApi

open Compiler (Use)
open Json (Writable writable_dict)
open Schema (isFile)
open Wire.Encode (HasPart Sendable bodyStyle fieldStyle)
open Wire.Reading (Holds)

namespace Spec

variable {s : Spec} {m : Method} {elements : List Element} {e : TypeExpr} {es out : Entries}

theorem TakesFile.uploads (h : s.TakesFile e) : Compile.uploads s.types e = true := by
  induction h with
  | basic => simp [Compile.uploads, TypeExpr.leaves]
  | @ref id file =>
      obtain ⟨t, key, he, hname⟩ := file
      have hmem : t ∈ s.types ∧ t.id = id ∧ t.name = inputFileName := ⟨typeEntry?_mem he, typeEntry?_id he, hname⟩
      simpa [Compile.uploads, TypeExpr.leaves] using ⟨t, hmem⟩
  | option mem _ ih =>
      rw [Compile.uploads, List.any_eq_true] at ih ⊢
      obtain ⟨leaf, hleaf, hfile⟩ := ih
      refine ⟨leaf, ?_, hfile⟩
      rw [TypeExpr.leaves, TypeExpr.leavesList_eq]
      exact List.mem_flatMap.2 ⟨_, mem, hleaf⟩

theorem uploadsFile_of_takesFile (hs : Spec.ofElements elements = .ok s) (hm : m ∈ s.methods) {p : Param}
    (hp : p ∈ m.params) (htakes : s.TakesFile p.type) : m.uploadsFile = true := by
  obtain ⟨types, -, rfl⟩ := ok_of_map hs
  obtain ⟨el, -, rfl⟩ := List.mem_map.1 hm
  exact List.any_eq_true.2 ⟨p, hp, htakes.uploads⟩

theorem Uploads.uploadsFile (hes : s.Uploads m es) (hs : Spec.ofElements elements = .ok s) (hm : m ∈ s.methods)
    {e : Value × Value} (he : e ∈ es) (hfile : isFile e.2 = true) : m.uploadsFile = true := by
  rcases hes.each e he with htext | ⟨-, p, hp, -, htakes⟩
  · rw [htext.not_isFile] at hfile
    cases hfile
  · exact uploadsFile_of_takesFile hs hm hp htakes

theorem Sends.sendable {disk : Disk} (h : Sends m es out)
    (hreadable : ∀ e ∈ es, isFile e.2 = true → ∃ octets, Holds disk e.2 octets) : ∀ e ∈ out, Sendable disk e := by
  intro e he
  obtain ⟨p, -, hkey⟩ := h.named e he
  refine ⟨⟨_, hkey⟩, (h.each e he).imp id ?_⟩
  rintro ⟨hfile, e', he', hsame⟩
  exact hsame ▸ hreadable e' he' (hsame ▸ hfile)

end Spec

namespace Client

namespace Documents

def inputFile : Element := ⟨"inputfile", "InputFile", .type, "", none, none, none, none⟩

def params (type : TypeExpr) : List Param :=
  [plainParam "caption" (.basic "String") false, plainParam "document" type true]

def elements (type : TypeExpr) : List Element :=
  [⟨"send", "send", .method, "", none, some (params type), none, none⟩, inputFile]

def method (type : TypeExpr) : Method := ⟨"send", "send", "", params type, true, []⟩

def spec (type : TypeExpr) : Spec := ⟨[method type], [inputFile.toType]⟩

theorem ofElements_eq {type : TypeExpr} (hseeds : Compile.seeds (elements type) = [⟨"inputfile", "send"⟩])
    (hmethods : (Compile.methodElements (elements type)).map (Compile.toMethod [inputFile.toType]) = [method type]) :
    Spec.ofElements (elements type) = .ok (spec type) := by
  have hnew : Compile.discover (elements type) [] [⟨"inputfile", "send"⟩] =
      Compile.discover (elements type) ([] ++ [inputFile.toType]) [] := Compile.discover_new rfl rfl
  rw [Spec.ofElements, hseeds, hnew, Compile.discover_nil]
  exact congrArg (fun ms => Except.ok (Spec.mk ms _)) hmethods

def single : TypeExpr := .union [.ref "inputfile", .basic "String"]

def several : TypeExpr := .array (.ref "inputfile")

def given (document : Value) : Entries := [(.str "document", document), (.str "caption", .str "a")]

def client : Client := Bots.client "1:SECRET" globalServerUrl

end Documents

end Client

def Compiler.Use.accepts (u : Use) (c : Compiler) (test : Entries → Bool) : Bool :=
  match u.answer c with
  | .ok (.params out) => test out
  | _ => false

namespace Client

open Documents (client elements given method several single spec)

end Client

end BotApi
