import Sumidero.Filter.Parse

namespace Sumidero.Lists

open Text Sumidero.Filter

/-! What a list host answers, and the text a body is decoded to. -/

/-- Largest list body accepted. -/
def MAX_LIST_BYTES : Nat := 64 * 1024 * 1024

/-! ### `String::from_utf8_lossy` -/

/-- The length of the sequence that a leading byte begins, and the bounds of its second
byte. -/
def leading (byte : UInt8) : Option (Nat × UInt8 × UInt8) :=
  if 0xC2 ≤ byte ∧ byte ≤ 0xDF then some (2, 0x80, 0xBF)
  else if byte = 0xE0 then some (3, 0xA0, 0xBF)
  else if byte = 0xED then some (3, 0x80, 0x9F)
  else if 0xE1 ≤ byte ∧ byte ≤ 0xEF then some (3, 0x80, 0xBF)
  else if byte = 0xF0 then some (4, 0x90, 0xBF)
  else if 0xF1 ≤ byte ∧ byte ≤ 0xF3 then some (4, 0x80, 0xBF)
  else if byte = 0xF4 then some (4, 0x80, 0x8F)
  else none

/-- How many bytes make up the character at the front, or the longest beginning of one. -/
def sequence (first : UInt8) (rest : List UInt8) : Nat × Bool :=
  if first < 0x80 then (1, true)
  else
    match leading first, rest with
    | some (width, low, high), second :: others =>
        if low ≤ second ∧ second ≤ high then
          let tail := (others.take (width - 2)).takeWhile fun byte => 0x80 ≤ byte && byte ≤ 0xBF
          (2 + tail.length, 2 + tail.length = width)
        else (1, false)
    | _, _ => (1, false)

/-- Each beginning of a character that does not go on becomes one replacement character. -/
def fromUtf8Lossy : List UInt8 → Str
  | [] => []
  | first :: rest =>
      let (count, whole) := sequence first rest
      let decoded :=
        if whole then (fromUtf8 (first :: rest.take (count - 1))).getD [] else ['\uFFFD']
      decoded ++ fromUtf8Lossy (rest.drop (count - 1))
termination_by bytes => bytes.length
decreasing_by
  rw [List.length_drop, List.length_cons]
  omega

/-- The text of a body. -/
def decodeBody (body : List UInt8) : Str :=
  match fromUtf8 body with
  | some text => text
  | none => fromUtf8Lossy body

/-! ### Responses -/

structure Response where
  status : Nat
  /-- The status as it is printed: the code and its name. -/
  statusText : String
  contentLength : Option Nat
  /-- The `ETag` header, if it is visible ASCII. -/
  etag : Option Str
  chunks : List (List UInt8)
  /-- What ends the body, unless it is complete. -/
  failed : Option String
deriving Repr, DecidableEq

def tooLarge : String := "body larger than " ++ toString MAX_LIST_BYTES ++ " bytes"

/-- The chunks of a body, up to the size limit. -/
def receive (body : List UInt8) : List (List UInt8) → Option String → Except String (List UInt8)
  | [], none => .ok body
  | [], some err => .error err
  | chunk :: rest, failed =>
      if MAX_LIST_BYTES < body.length + chunk.length then .error tooLarge
      else receive (body ++ chunk) rest failed

namespace Response

def isSuccess (response : Response) : Bool := 200 ≤ response.status && response.status < 300

/-- The body of a response that is no 304. -/
def body (response : Response) : Except String (List UInt8) :=
  if !response.isSuccess then .error ("HTTP " ++ response.statusText)
  else if response.contentLength.any (MAX_LIST_BYTES < ·) then .error tooLarge
  else receive [] response.chunks response.failed

end Response

structure ListCounts where
  rules : Nat
  issues : Nat
deriving Repr, DecidableEq

/-- Rule and issue counts of a list, without building anything. -/
def countRules (text : Str) : ListCounts :=
  let parsed := parseList text
  { rules := parsed.rules.length, issues := parsed.issues.length }

theorem receive_ok {body whole : List UInt8} {chunks : List (List UInt8)} {failed : Option String}
    (received : receive body chunks failed = .ok whole) (fits : body.length ≤ MAX_LIST_BYTES) :
    whole.length ≤ MAX_LIST_BYTES := by
  induction chunks generalizing body with
  | nil =>
      cases failed with
      | none =>
          cases received
          exact fits
      | some err => cases received
  | cons chunk rest ih =>
      simp only [receive] at received
      split at received
      · cases received
      · next small =>
        apply ih received
        rw [List.length_append]
        omega

theorem Response.body_le {response : Response} {body : List UInt8}
    (received : response.body = .ok body) : body.length ≤ MAX_LIST_BYTES := by
  simp only [Response.body] at received
  split at received
  · cases received
  · split at received
    · cases received
    · exact receive_ok received (Nat.zero_le _)

theorem Response.body_success {response : Response} {body : List UInt8}
    (received : response.body = .ok body) : response.isSuccess = true := by
  simp only [Response.body] at received
  split at received
  · cases received
  · next success => simpa using success

end Sumidero.Lists
