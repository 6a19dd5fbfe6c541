import BotApi.Wire.Percent
/-!
Two forms of a body that carries named parts: fields joined in one line, and parts between
boundaries, which can carry files.
-/

namespace BotApi.Wire.Form

def joined (fields : List (List UInt8 × List UInt8)) : List Char :=
  Text.join ['&'] <| fields.map fun (k, v) => Percent.escapeForm k ++ '=' :: Percent.escapeForm v

structure Part where
  name : Option (List Char)
  fileName : Option (List Char)
  content : List UInt8

def lineEnd : List Char := ['\r', '\n']

def escapeName (s : List Char) : List Char :=
  s.flatMap fun c => match c with
    | '"' => "%22".toList
    | '\r' => "%0D".toList
    | '\n' => "%0A".toList
    | c => [c]

def named (key : List Char) (name : Option (List Char)) : List (List Char) :=
  name.toList.map fun n => key ++ '=' :: '"' :: escapeName n ++ ['"']

namespace Part

def heading (p : Part) : List Char :=
  "Content-Disposition: form-data; ".toList ++
    Text.join [';', ' '] (named "name".toList p.name ++ named "filename".toList p.fileName)

def octets (boundary : List Char) (p : Part) : List UInt8 :=
  Text.Utf8.encode ('-' :: '-' :: boundary ++ lineEnd ++ p.heading ++ lineEnd ++ lineEnd) ++
    p.content ++ Text.Utf8.encode lineEnd

end Part

def multipart (boundary : List Char) (parts : List Part) : List UInt8 :=
  parts.flatMap (Part.octets boundary) ++
    Text.Utf8.encode ('-' :: '-' :: boundary ++ '-' :: '-' :: lineEnd)

end BotApi.Wire.Form
