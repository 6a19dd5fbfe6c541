import BotApi.Error
import BotApi.Wire.Host
/-!
Addresses of requests and their normal form. Addresses that do not begin like one of the hypertext
protocol are sent as they are.
-/

namespace BotApi.Wire

inductive UrlFault where
  | noScheme (url : String)
  | noHost (url : String)
  | unparsable (url : String)
  | label
  | brackets
  | noAddress (host : String)
  | bracketedVersion4
  | futureVersion
  deriving Repr, DecidableEq

def UrlFault.message : UrlFault → String
  | noScheme u =>
      let q := inQuotes u
      s!"Invalid URL {q}: No scheme supplied. Perhaps you meant https://{u}?"
  | noHost u =>
      let q := inQuotes u
      s!"Invalid URL {q}: No host supplied"
  | unparsable u => s!"Failed to parse: {u}"
  | label => "URL has an invalid label."
  | brackets => "Invalid IPv6 URL"
  | noAddress h =>
      let q := inQuotes h
      s!"{q} does not appear to be an IPv4 or IPv6 address"
  | bracketedVersion4 => "An IPv4 address cannot be in brackets"
  | futureVersion => "IPvFuture address is invalid"

structure Url where
  scheme : Option (List Char)
  authority : Option (List Char)
  path : List Char
  query : Option (List Char)
  fragment : Option (List Char)
  deriving Repr, DecidableEq

structure Authority where
  user : Option (List Char)
  host : List Char
  port : Option Nat
  deriving Repr, DecidableEq

namespace Url

def isSchemeChar (c : Char) : Bool := Percent.isAsciiAlphanumeric c || c == '+' || c == '-'

def scheme? (allows : Char → Bool) (s : List Char) : Option (List Char × List Char) :=
  match s with
  | c :: _ =>
      if Percent.isAsciiLetter c then
        let (scheme, rest) := s.span allows
        match rest with
        | ':' :: rest => some (scheme, rest)
        | _ => none
      else none
  | [] => none

def behind (mark : Char) (s : List Char) : List Char × Option (List Char) :=
  let (before, rest) := s.span (· != mark)
  match rest with
  | _ :: after => (before, some after)
  | [] => (before, none)

def ofText (s : List Char) : Url :=
  let s := if (scheme? isSchemeChar s).isSome || s.head? == some '/' then s else '/' :: '/' :: s
  let (scheme, s) := match scheme? (fun c => isSchemeChar c || c == '.') s with
    | some (scheme, rest) => (some scheme, rest)
    | none => (none, s)
  let (s, fragment) := behind '#' s
  let (s, query) := behind '?' s
  match s with
  | '/' :: '/' :: s =>
      let (authority, path) := s.span fun c => c != '/' && c != '\\'
      ⟨scheme, some authority, path, query, fragment⟩
  | s => ⟨scheme, none, s, query, fragment⟩

def isHypertext (scheme : Option (List Char)) : Bool :=
  match scheme with
  | none => true
  | some s => s == "http".toList || s == "https".toList

def port? (s : List Char) : Option (Option Nat) :=
  if s.isEmpty then some none
  else
    let digits := s.dropWhile (· == '0')
    if s.all Text.isAsciiDigit && digits.length ≤ 5 then
      match Text.decimalNumber? s with
      | some n => if n ≤ 65535 then some (some n) else none
      | none => none
    else none

def isNameChar (c : Char) : Bool := !"[]:/?#".toList.contains c

def withoutLineFeed (s : List Char) : List Char :=
  if s.getLast? == some '\n' then s.dropLast else s

def hostAndPort? (s : List Char) : Option (List Char × Option Nat) :=
  let portOf (host rest : List Char) : Option (List Char × Option Nat) :=
    match withoutLineFeed rest with
    | [] => some (host, none)
    | ':' :: digits => (port? digits).map (host, ·)
    | _ => none
  match s with
  | '[' :: inner =>
      let (inside, rest) := inner.span (· != ']')
      match rest with
      | ']' :: rest => portOf ('[' :: inside ++ [']']) rest
      | _ => none
  | s =>
      let (host, rest) := s.span isNameChar
      if Percent.isEscaped host then portOf host rest else none

def host? (hypertext : Bool) (host : List Char) : Option (List Char) :=
  match host with
  | '[' :: rest =>
      let inner := rest.dropLast
      (Host.bracketed? inner).map fun h => if hypertext then h else host
  | _ => if !hypertext || host.isEmpty || Host.isVersion4 host then some host else Host.name? host

def beforeLast (mark : Char) (s : List Char) : Option (List Char) × List Char :=
  let (after, before) := s.reverse.span (· != mark)
  match before with
  | _ :: before => (some before.reverse, after.reverse)
  | [] => (none, s)

def authority? (hypertext : Bool) (s : List Char) : Option Authority :=
  let (user, hostPort) := beforeLast '@' s
  (hostAndPort? hostPort).bind fun (host, port) => (host? hypertext host).map fun host =>
    let user := user.bind fun u => if u.isEmpty then none else some u
    ⟨user.map fun u => if hypertext then Percent.complete Percent.isUserInfo u else u, host, port⟩

def withoutDots (path : List Char) : List Char :=
  let steps := Text.pieces '/' path
  let kept := steps.foldl (fun out step =>
    if step = ['.'] then out else if step = ['.', '.'] then out.dropLast else out ++ [step]) []
  let kept := if path.head? == some '/' && kept.head? != some [] then [] :: kept else kept
  let kept := if steps.getLast? == some ['.'] && 1 < steps.length ||
    steps.getLast? == some ['.', '.'] && 1 < steps.length then kept ++ [[]] else kept
  Text.join ['/'] kept

def portText (port : Option Nat) : List Char :=
  match port with
  | some (n + 1) => ':' :: Text.natDigits (n + 1)
  | _ => []

def marked (mark : Char) (s : Option (List Char)) : List Char :=
  match s with
  | some (c :: s) => mark :: c :: s
  | _ => []

def normalize (text : String) : Except UrlFault (List Char) :=
  let url := ofText text.toList
  let scheme := url.scheme.map Text.lowercase
  let hypertext := isHypertext scheme
  let complete (allows : Char → Bool) (s : List Char) : List Char :=
    if hypertext then Percent.complete allows s else s
  let authority := match url.authority with
    | none | some [] => some none
    | some a => (authority? hypertext a).map some
  match authority with
  | none => .error (.unparsable text)
  | some authority => match scheme, authority with
      | none, _ => .error (.noScheme text)
      | _, none => .error (.noHost text)
      | some scheme, some a =>
          if a.host.isEmpty then .error (.noHost text)
          else
            let host := if isAscii a.host then
                if a.host.head? == some '*' || a.host.head? == some '.' then none else some a.host
              else Host.name? a.host
            match host with
            | none => .error .label
            | some host =>
                let path := complete Percent.isPath (if hypertext then withoutDots url.path else url.path)
                let path := if path.head? == some '/' then path else '/' :: path
                .ok <| Percent.tidy <| scheme ++ "://".toList ++ (marked '@' a.user).drop 1 ++
                  (if a.user.isSome then ['@'] else []) ++ host ++ portText a.port ++ path ++
                  marked '?' (url.query.map (complete Percent.isQuery)) ++
                  marked '#' (url.fragment.map (complete Percent.isQuery))

def target (text : String) : Except UrlFault (List Char) :=
  let s := text.toList.dropWhile Text.isBlank
  if s.contains ':' && !Text.startsWith "http".toList (Text.lowercase s) then .ok s
  else normalize (.ofList s)

def bracketFault? (host : List Char) : Option UrlFault :=
  match host with
  | 'v' :: version =>
      let (digits, rest) := version.span Percent.isHex
      if digits.isEmpty || rest.head? != some '.' || rest.tail.isEmpty || rest.contains '\n' then
        some .futureVersion
      else none
  | _ =>
      let (number, zone) := host.span (· != '%')
      if Host.isAddress4 host then some .bracketedVersion4
      else if Host.isVersion6 Host.isAddress4 number && zone != ['%'] && !zone.tail.contains '%' then none
      else some (.noAddress (.ofList host))

def bracketsFault? (authority : List Char) : Option UrlFault :=
  match authority.contains '[', authority.contains ']' with
  | true, true => bracketFault? ((behind '[' authority).2.getD [] |>.takeWhile (· != ']'))
  | false, false => none
  | _, _ => some .brackets

def isControlOrSpace (c : Char) : Bool := c.toNat ≤ 0x20

def looseAuthority? (s : List Char) : Option (List Char) :=
  let s := (s.dropWhile isControlOrSpace).filter fun c => !(['\t', '\r', '\n'].contains c)
  let rest := match scheme? (fun c => isSchemeChar c || c == '.') s with
    | some (_, rest) => rest
    | none => s
  match rest with
  | '/' :: '/' :: rest => some (rest.takeWhile fun c => c != '/' && c != '?' && c != '#')
  | _ => none

def userOf? (authority : List Char) : Option (List UInt8 × List UInt8) :=
  (beforeLast '@' authority).1.bind fun user =>
    match behind ':' user with
    | (_, none) => none
    | (name, some secret) =>
        if name.isEmpty && secret.isEmpty then none
        else some (Percent.octets name, Percent.octets secret)

def credentials? (s : List Char) : Except UrlFault (Option (List UInt8 × List UInt8)) :=
  match looseAuthority? s with
  | none => .ok none
  | some authority => match bracketsFault? authority with
      | some fault => .error fault
      | none => .ok (userOf? authority)

end Url

end BotApi.Wire
