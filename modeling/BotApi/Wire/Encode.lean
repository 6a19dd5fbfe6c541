import BotApi.Disk
import BotApi.Json.Writer
import BotApi.Schema.Validate
import BotApi.Value.Access
import BotApi.Wire.Credential
import BotApi.Wire.Form
import BotApi.Wire.Header
import BotApi.Wire.Message
import BotApi.Wire.Url
/-!
Encoding of requests. Parameters are sent as JSON, or as a form if the method takes files: texts as
they are, other values as JSON, and files as parts of their own. Null stands for an absent parameter.
-/

namespace BotApi.Wire

structure Upload where
  name : Value
  content : List UInt8

inductive Content where
  | json (params : Entries)
  | form (fields : List (Value × List UInt8)) (files : List (Value × Upload))

inductive EncodeFault where
  | text (why : String)
  /-- A value lacks what is asked of it; this is not reported as a fault of the request. -/
  | member

def EncodeFault.error (method : String) : EncodeFault → Error
  | text why => .transport (.unencodable method why)
  | member => .misuse .member ""

abbrev Encoding (α : Type) := Except EncodeFault α

namespace Encode

def orText {ε α : Type} (message : ε → String) (r : Except ε α) : Encoding α :=
  r.mapError fun e => .text (message e)

def bodyStyle : Json.Style := ⟨true, true⟩

def fieldStyle : Json.Style := ⟨false, false⟩

def fieldOctets (v : Value) : Encoding (List UInt8) :=
  match v with
  | .str s => .ok (Text.Utf8.encode s.toList)
  | v => (orText Json.Unwritable.message (Json.write fieldStyle v)).map Text.Utf8.encode

def upload? (disk : Disk) (key : Value) : Value → Encoding (Option Upload)
  | .bytes b | .buffer b => .ok (some ⟨key, b⟩)
  | .path p =>
      let path := Text.Path.ofText p
      (orText (FileFault.message path.text) (disk.read path)).map fun b =>
        some ⟨.str path.name, b⟩
  | .stream b name =>
      let name := match name with
        | some n => if n.truthy then n else key
        | none => key
      .ok (some ⟨.str (Text.onChars Text.baseName name.shownText), b⟩)
  | _ => .ok none

def formOf (disk : Disk) : Entries → Encoding Content
  | [] => .ok (.form [] [])
  | (k, v) :: es => do
      let found ← upload? disk k v
      let octets ← if found.isSome then pure [] else fieldOctets v
      match ← formOf disk es with
      | .json ps => pure (.json ps)
      | .form fields files => match found with
          | some u => pure (.form fields ((k, u) :: files))
          | none => pure (.form ((k, octets) :: fields) files)

def contentOf (disk : Disk) (r : Request) : Encoding Content :=
  match r.params with
  | .dict es =>
      let given := es.filter fun e => !e.2.isNull
      if r.multipart then formOf disk given else .ok (.json given)
  | _ => .error .member

def headersOf (v : Value) : Encoding Headers :=
  match v.orEmpty with
  | .dict es => orText id (Headers.ofEntries es)
  | _ => .error .member

def keyOctets : Value → List UInt8
  | .str s => Text.Utf8.encode s.toList
  | .bytes b => b
  | k => Text.Utf8.encode k.shown

def partName : Value → Encoding (Option (List Char))
  | .str s => .ok (some s.toList)
  | .null => .ok none
  | .bytes b => (orText Text.Undecodable.message (Text.Utf8.decode b)).map some
  | _ => .error .member

def fieldPart (f : Value × List UInt8) : Encoding Form.Part :=
  (partName f.1).map fun name => ⟨name, none, f.2⟩

def filePart (f : Value × Upload) : Encoding Form.Part := do
  pure ⟨← partName f.1, ← partName f.2.name, f.2.content⟩

def jsonType : String := "application/json"

def joinedType : String := "application/x-www-form-urlencoded"

def multipartType (boundary : List Char) : String :=
  "multipart/form-data; boundary=" ++ String.ofList boundary

def body (boundary : List Char) : Content → Encoding (Option (List UInt8 × String))
  | .json ps =>
      (orText Json.Unwritable.message (Json.write bodyStyle (.dict ps))).map fun t =>
        some (Text.Utf8.encode t, jsonType)
  | .form [] [] => .ok none
  | .form fields [] =>
      let line := Form.joined (fields.map fun (k, v) => (keyOctets k, v))
      .ok (some (Text.Utf8.encode line, joinedType))
  | .form fields files => do
      let fs ← fields.mapM fieldPart
      let us ← files.mapM filePart
      pure (some (Form.multipart boundary (fs ++ us), multipartType boundary))

def natText (n : Nat) : Value := .str (.ofList (Text.natDigits n))

/-- The length always counts the body; the type is only set where the request gives none. -/
def withBody (hs : Headers) : Option (List UInt8 × String) → Headers
  | none => if (hs.get? "Content-Length").isSome then hs else hs.put "Content-Length" (natText 0)
  | some (b, type) =>
      let hs := hs.put "Content-Length" (natText b.length)
      if (hs.get? "Content-Type").isSome then hs else hs.put "Content-Type" (.str type)

def withCredentials (url : List Char) (hs : Headers) : Encoding Headers :=
  (orText UrlFault.message (Url.credentials? url)).bind fun
    | none => .ok hs
    | some (name, secret) =>
        (orText id (Credential.header name secret)).map fun h => hs.put "Authorization" (.str h)

def encoding (boundary : List Char) (disk : Disk) (r : Request) : Encoding Prepared := do
  let content ← contentOf disk r
  let url ← orText UrlFault.message (Url.target r.url)
  let headers ← headersOf r.headers
  let body ← Encode.body boundary content
  let headers ← withCredentials url (withBody headers body)
  pure ⟨.ofList url, headers, body.map (·.1)⟩

end Encode

def Request.encode (boundary : List Char) (disk : Disk) (r : Request) : Except Error Prepared :=
  (Encode.encoding boundary disk r).mapError (EncodeFault.error r.method)

end BotApi.Wire
