import BotApi.Limit.Bucket
import BotApi.Limit.Policy
/-!
A registry keeps one limiter per key, made on first use. Limiters whose keys differ only in the chat
form a group, in which limiters of one name share a bucket.
-/

namespace BotApi.Limit

abbrev Key := List Value

structure Limiter where
  key : Key
  options : Options

structure Group where
  key : Key
  buckets : List (String × Bucket)

structure Registry where
  /-- How many locks guard the making of limiters: without any, none can be made. -/
  stripes : Int
  limiters : List Limiter
  groups : List Group

structure Clock where
  now : Nat
  alarm : Option Nat
  deriving Repr, DecidableEq

def defaultStripes : Int := 64

def nameOf (key : Key) : String := String.intercalate ":" (key.map Value.shownText)

/-- The scope of a key becomes the name of its level. -/
def groupKey? (key : Key) : Option Key :=
  key.getLast?.map fun scope =>
    let level := if scope.equal (.str Level.total.name) then Level.total else Level.perChat
    key.dropLast ++ [.str level.name]

namespace Limiter

def name (l : Limiter) : String := nameOf l.key

def describe (l : Limiter) : String :=
  let name := inQuotes l.name
  let limit := l.options.limit
  let period := String.ofList (Number.floatText l.options.period)
  s!"RateLimiter({name}, {limit}/{period}s)"

end Limiter

namespace Group

def bucket? (g : Group) (name : String) : Option Bucket :=
  (g.buckets.find? (·.1 == name)).map (·.2)

def put (g : Group) (name : String) (b : Bucket) : Group :=
  if (g.bucket? name).isSome then
    { g with buckets := g.buckets.map fun e => if e.1 == name then (name, b) else e }
  else { g with buckets := g.buckets ++ [(name, b)] }

end Group

namespace Registry

def new (stripes : Int) : Registry := ⟨stripes, [], []⟩

def size (r : Registry) : Nat := r.limiters.length

def find? (r : Registry) (key : Key) : Option Limiter :=
  r.limiters.find? fun l => Value.equalLists l.key key

def lookUp (r : Registry) (key : Key) : Except Error (Option Limiter) :=
  if Value.areKeys key then .ok (r.find? key) else Error.wrongKind

def group? (r : Registry) (key : Key) : Option Group :=
  r.groups.find? fun g => Value.equalLists g.key key

def withGroup (r : Registry) (key : Key) : Registry :=
  if (r.group? key).isSome then r else { r with groups := r.groups ++ [⟨key, []⟩] }

def bucket? (r : Registry) (key : Key) : Option Bucket :=
  ((groupKey? key).bind r.group?).bind (·.bucket? (nameOf key))

def putBucket (r : Registry) (key : Key) (b : Bucket) : Registry :=
  match groupKey? key with
  | none => r
  | some group =>
      let change (g : Group) : Group :=
        if Value.equalLists g.key group then g.put (nameOf key) b else g
      { r with groups := r.groups.map change }

/-- The empty bucket for options. A period must be at least one millisecond, and must end. -/
def bucketFor (o : Options) : Except Error Bucket :=
  match o.interval? with
  | none => .error (.misuse .overflow "")
  | some 0 => .error (.misuse .assertion "")
  | some n => .ok (.new o.limit n o.limit_pos)

def make (r : Registry) (key : Key) (o : Options) : Except Error Limiter × Registry :=
  if r.stripes ≤ 0 then (.error (.misuse .division ""), r)
  else match groupKey? key with
    | none => (.error (.misuse .value ""), r)
    | some group =>
        let r := r.withGroup group
        match bucketFor o with
        | .error e => (.error e, r)
        | .ok b =>
            let r := if (r.bucket? key).isSome then r else r.putBucket key b
            let l : Limiter := ⟨key, o⟩
            (.ok l, { r with limiters := r.limiters ++ [l] })

/-- The limiter of a key; options count only when it is made. -/
def getOrMake (r : Registry) (key : Key) (o : Options) : Except Error Limiter × Registry :=
  match r.lookUp key with
  | .error e => (.error e, r)
  | .ok (some l) => (.ok l, r)
  | .ok none => r.make key o

def levelLimiter (r : Registry) (key : Key) (o : Except Error (Option Options)) :
    Except Error (List Limiter) × Registry :=
  match o with
  | .error e => (.error e, r)
  | .ok none => (.ok [], r)
  | .ok (some o) =>
      let (l, r) := r.getOrMake key o
      (l.map ([·]), r)

def limitersFor (r : Registry) (bot : Value) (method : String) (chat policy override : Value) :
    Except Error (List Limiter) × Registry :=
  let policies := [override, policy, defaultPolicy]
  match baseMethod method policies with
  | .error e => (.error e, r)
  | .ok base =>
      let total := levelOptions .total base .null policies
      match r.levelLimiter [bot, .str base, .str Level.total.name] total with
      | (.error e, r) => (.error e, r)
      | (.ok ls, r) =>
          if chat.isNull then (.ok ls, r)
          else
            let (ms, r) := r.levelLimiter [bot, .str base, chat]
              (levelOptions .perChat base chat policies)
            (ms.map (ls ++ ·), r)

def tryAcquire (r : Registry) (l : Limiter) (now : Nat) : Bool × Registry :=
  match r.bucket? l.key with
  | none => (false, r)
  | some b =>
      let (taken, b) := b.tryTake now
      (taken, r.putBucket l.key b)

def tryTimes (r : Registry) (l : Limiter) (now : Nat) : Nat → Nat × Registry
  | 0 => (0, r)
  | n + 1 =>
      let (taken, r) := r.tryAcquire l now
      let (count, r) := r.tryTimes l now n
      (count + taken.toNat, r)

def acquire (r : Registry) (l : Limiter) (c : Clock) : Except Error Unit × Registry × Clock :=
  match r.bucket? l.key with
  | none => (Error.noKey l.name, r, c)
  | some b => match b.wait l.options.interruptible c.alarm c.now with
      | .granted t alarm => (.ok (), r.putBucket l.key (b.grant t), ⟨t, alarm⟩)
      | .woken t =>
          let name := l.name
          (.error (.interrupted s!"Interrupted while waiting for '{name}'"), r, ⟨t, none⟩)

def acquireAll (r : Registry) (c : Clock) : List Limiter → Except Error Unit × Registry × Clock
  | [] => (.ok (), r, c)
  | l :: ls => match r.acquire l c with
      | (.ok (), r, c) => r.acquireAll c ls
      | (.error e, r, c) => (.error e, r, c)

end Registry

end BotApi.Limit
