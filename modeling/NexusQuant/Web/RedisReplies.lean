import NexusQuant.Lib.DecimalText
import NexusQuant.Lib.Json
import NexusQuant.Lib.Utf8

/-!
# Redis replies

The raw RESP transport of `lib/login-rate-limit.ts`: `encodeCommand`, `parseReplies`, and what
`sendRedisCommands` does with the bytes that its socket receives.  An offset that is no index (which a
length that is no natural number can lead to) is `none`: at such an offset there is no type byte.
-/

namespace NexusQuant.Web

open DecimalText

inductive RedisReply where
  | status (value : String)
  | error (value : String)
  | int (value : JsNumber)
  | bulk (value : Option String)
deriving DecidableEq, Repr

def encodeCommand (parts : List String) : String :=
  parts.foldl (fun out p => out ++ ("$" ++ toString (Json.utf8 p).length ++ "\r\n" ++ p ++ "\r\n"))
    ("*" ++ toString parts.length ++ "\r\n")

/-! ## The parser -/

def cr : UInt8 := 13
def lf : UInt8 := 10

/-- The first line end. -/
def lineEnd : Bytes → Option ℕ
  | [] => none
  | [_] => none
  | a :: b :: bs => if a = cr ∧ b = lf then some 0 else (lineEnd (b :: bs)).map (· + 1)

/-- `buf.indexOf("\r\n", off)`. -/
def indexOfLineEnd (buf : Bytes) (off : ℕ) : Option ℕ := (lineEnd (buf.drop off)).map (off + ·)

/-- `buf.toString("utf8", first, last)`, empty unless `first < last`. -/
def textOf (buf : Bytes) (first last : ℕ) : String := Utf8.decode ((buf.take last).drop first)

/-- The offset `q`, if it is an index. -/
def offset? (q : ℚ) : Option ℕ := if 0 ≤ q ∧ q.den = 1 then some q.num.toNat else none

/-- A bulk reply of announced length `len`, whose body starts at `off`, and the offset after it. -/
def parseBulk (buf : Bytes) (off : ℕ) : JsNumber → Option (RedisReply × Option ℕ)
  | .fin len =>
      if len = -1 then some (.bulk none, some off)
      else if (buf.length : ℚ) < off + len + 2 then none
      else some (.bulk (some (textOf buf off ⌊off + len⌋.toNat)), offset? (off + len + 2))
  -- No comparison with these holds, and the text they delimit is empty.
  | .nan | .negInf => some (.bulk (some ""), none)
  | .posInf => none

/-- The reply that starts at an offset: none while it is incomplete. -/
def parseReply (buf : Bytes) (off : ℕ) : Except String (Option (RedisReply × Option ℕ)) :=
  match indexOfLineEnd buf off with
  | none => .ok none
  | some nl =>
      match buf[off]? with
      | none => .ok none
      | some typeByte =>
          let type := Char.ofNat typeByte.toNat
          let line := textOf buf (off + 1) nl
          let off := nl + 2
          if type = '+' then .ok (some (.status line, some off))
          else if type = '-' then .ok (some (.error line, some off))
          else if type = ':' then .ok (some (.int (toNumber line), some off))
          else if type = '$' then .ok (parseBulk buf off (toNumber line))
          else .error ("unexpected RESP reply type \"" ++ String.singleton type ++ "\"")

/-- The loop of `parseReplies`, with the number of replies that are missing. -/
def parseFrom (buf : Bytes) : ℕ → Option ℕ → Except String (Option (List RedisReply))
  | 0, _ => .ok (some [])
  | _ + 1, none => .ok none
  | missing + 1, some off =>
      match parseReply buf off with
      | .error message => .error message
      | .ok none => .ok none
      | .ok (some (reply, next)) =>
          (parseFrom buf missing next).map (Option.map (reply :: ·))

def parseReplies (buf : Bytes) (expected : ℕ) : Except String (Option (List RedisReply)) :=
  parseFrom buf expected (some 0)

/-! ## The socket -/

/-- What has been received, and what the promise was resolved with. -/
structure RedisSocket where
  buf : Bytes
  resolved : Option (Option (List RedisReply))
deriving DecidableEq, Repr

def RedisSocket.initial : RedisSocket := ⟨[], none⟩

/-- `finish`: only the first call resolves. -/
def RedisSocket.finish (s : RedisSocket) (replies : Option (List RedisReply)) : RedisSocket :=
  if s.resolved.isSome then s else { s with resolved := some replies }

def RedisReply.isError : RedisReply → Bool
  | .error _ => true
  | _ => false

/-- The handler of `data`; the first reply of a connection with a password is that of AUTH. -/
def RedisSocket.onData (expected : ℕ) (password : Bool) (s : RedisSocket) (chunk : Bytes) :
    RedisSocket :=
  let s := { s with buf := s.buf ++ chunk }
  match parseReplies s.buf expected with
  | .error _ => s.finish none
  | .ok none => s
  | .ok (some replies) =>
      if replies.any RedisReply.isError then s.finish none
      else s.finish (some (if password then replies.drop 1 else replies))

end NexusQuant.Web
