import Utsuroi.Do.CrawlerObject
import Utsuroi.Fetch.Http
import Utsuroi.Framework.Base64
import Utsuroi.Framework.JsonSchema

/-!
# Results of runners at the Worker

The request body is read up to a limit, parsed and checked against `resultRequestSchema`.
-/

namespace Utsuroi.RunnerApi

/-! ## The protocol -/

/-- What the JSON around a result's body, and its headers, may add. -/
def RESULT_ENVELOPE_ALLOWANCE : Nat := 64 * 1024

def RUNNER_ERROR_CLASSES : List String := ["ssrf_blocked", "timeout", "network_error", "too_large"]

def maxResultRequestBytes (maxBytes : Nat) : Nat :=
  Crawler.maxBase64Length maxBytes + RESULT_ENVELOPE_ALLOWANCE

/-- `z.string().min(low).max(high)` -/
def lengthWithin (low high : Nat) : Schema :=
  .string fun value => low ≤ utf16Length value.toList && utf16Length value.toList ≤ high

def responseHeaders : Schema :=
  .record (fun name => utf16Length name.toList ≤ 256) (lengthWithin 0 8192) fun size => size ≤ 200

def isBase64Letter (c : Char) : Bool := Base64.letters.contains c || c = '+' || c = '/'

/-- `/^[A-Za-z0-9+/]*={0,2}$/` -/
def base64 : Schema :=
  .string fun value =>
    let rest := value.toList.dropWhile isBase64Letter
    rest.all (· = '=') && rest.length ≤ 2

def responseSchema : Schema :=
  .object [
    ("kind", .string fun value => value = "response"),
    ("status", .number fun value => value.den = 1 && 100 ≤ value && value ≤ 599),
    ("url", lengthWithin 1 8192),
    ("contentType", .nullable (lengthWithin 0 1024)),
    ("headers", responseHeaders),
    ("body", base64),
    ("truncated", .boolean),
    ("durationMs", .number fun value => 0 ≤ value)]

def errorSchema : Schema :=
  .object [
    ("kind", .string fun value => value = "error"),
    ("failureClass", .string RUNNER_ERROR_CLASSES.contains),
    ("message", lengthWithin 0 1024)]

def runnerResultSchema : Schema :=
  .discriminatedUnion "kind" [("response", responseSchema), ("error", errorSchema)]

def resultRequestSchema : Schema :=
  .object [("leaseToken", lengthWithin 1 128), ("result", runnerResultSchema)]

/-! ## Reading -/

structure ApiError where
  status : Nat
  code : String
  message : String
  deriving DecidableEq, Repr

def badRequest (code message : String) : ApiError := ⟨400, code, message⟩

def payloadTooLarge (code message : String) : ApiError := ⟨413, code, message⟩

/-- What `readLimitedJson` looks at. -/
structure IncomingRequest where
  /-- `Number(content-length)` where that is a number -/
  contentLength : Option Nat
  contentType : Option String
  /-- the chunks of the stream -/
  body : Option (List (List UInt8))

/-- The loop over the chunks, `total` bytes read. -/
def readChunksWithin (limit : Nat) : Nat → List (List UInt8) → Except ApiError (List UInt8)
  | _, [] => .ok []
  | total, chunk :: chunks =>
    if limit < total + chunk.length then
      .error (payloadTooLarge "payload_too_large" "request body is too large")
    else (readChunksWithin limit (total + chunk.length) chunks).map (chunk ++ ·)

/-- `new TextDecoder().decode(bytes)`, which takes a byte order mark off. -/
def decodeText (bytes : List UInt8) : List Char :=
  match Utf8.decode bytes with
  | [] => []
  | c :: text => if c.toNat = 0xfeff then text else c :: text

def readLimitedJson (c : IncomingRequest) (limit : Nat) : Except ApiError Json :=
  if c.contentLength.any fun declared => limit < declared then
    .error (payloadTooLarge "payload_too_large" "request body is too large")
  else if !includesText (c.contentType.getD "").toLower "application/json" then
    .error (badRequest "invalid_content_type" "request body must be application/json")
  else
    match c.body with
    | none => .error (badRequest "invalid_json" "request body must be valid JSON")
    | some chunks =>
      match readChunksWithin limit 0 chunks with
      | .error err => .error err
      | .ok merged =>
        match Json.parse (decodeText merged) with
        | none => .error (badRequest "invalid_json" "request body must be valid JSON")
        | some value => .ok value

section Issues

variable (issues : Json → String)

/-- `issues` is the text that zod has for a value a schema refuses. -/
def parseWith (schema : Schema) (data : Json) : Except ApiError Json :=
  if schema data then .ok data
  else .error (badRequest "validation_error"
    (if issues data = "" then "invalid request body" else issues data))

def parseBody (c : IncomingRequest) (schema : Schema) (limit : Nat) : Except ApiError Json :=
  match readLimitedJson c limit with
  | .error err => .error err
  | .ok data => parseWith issues schema data

/-- What the route of results reads before it calls `complete`. -/
def readResult (c : IncomingRequest) : Except ApiError Json :=
  parseBody issues c resultRequestSchema (maxResultRequestBytes DEFAULT_FETCH_LIMITS.maxBytes)

end Issues

/-! ## What is posted -/

/-- Bytes on their way: how they are cut into chunks, and whether their length is declared. -/
structure Carriage (bytes : List UInt8) where
  chunks : List (List UInt8)
  complete : chunks.flatten = bytes
  declared : Bool

/-- `fetch` with the body `JSON.stringify(value)`, as it arrives. -/
def posted (value : Json) (carriage : Carriage (Utf8.encode value.text)) : IncomingRequest where
  contentLength := if carriage.declared then some (Utf8.encode value.text).length else none
  contentType := some "application/json"
  body := some carriage.chunks

theorem readChunksWithin_eq {limit total : Nat} (htotal : total ≤ limit)
    (chunks : List (List UInt8)) :
    readChunksWithin limit total chunks =
      if limit < total + chunks.flatten.length then
        .error (payloadTooLarge "payload_too_large" "request body is too large")
      else .ok chunks.flatten := by
  induction chunks generalizing total with
  | nil =>
      rw [if_neg (by simpa using htotal)]
      rfl
  | cons chunk chunks ih =>
      rw [readChunksWithin, List.flatten_cons, List.length_append]
      by_cases hchunk : limit < total + chunk.length
      · rw [if_pos hchunk, if_pos (by omega)]
      · rw [if_neg hchunk, ih (by omega), Nat.add_assoc]
        by_cases hmore : limit < total + (chunk.length + chunks.flatten.length)
        · rw [if_pos hmore, if_pos hmore]
          rfl
        · rw [if_neg hmore, if_neg hmore]
          rfl

theorem decodeText_object (members : List (String × Json)) :
    decodeText (Utf8.encode (Json.object members).text) = (Json.object members).text := by
  have hhead : ∃ text, (Json.object members).text = '\x7b' :: text := by
    cases members with
    | nil => exact ⟨['\x7d'], by rw [Json.text]; rfl⟩
    | cons entry members => exact ⟨_, by rw [Json.text, List.cons_append, List.cons_append]⟩
  obtain ⟨text, htext⟩ := hhead
  rw [decodeText, Utf8.decode_encode, htext]
  rfl

/-- An object is read as itself where it is within the limit, however it arrives. -/
theorem readLimitedJson_posted (members : List (String × Json))
    (carriage : Carriage (Utf8.encode (Json.object members).text)) (limit : Nat) :
    readLimitedJson (posted (.object members) carriage) limit =
      if limit < (Json.object members).size then
        .error (payloadTooLarge "payload_too_large" "request body is too large")
      else .ok (.object members) := by
  have hsize := Json.length_encode_text (.object members)
  have htype : includesText "application/json".toLower "application/json" = true := by
    decide +kernel
  have hread := readChunksWithin_eq (Nat.zero_le limit) carriage.chunks
  rw [carriage.complete, hsize, Nat.zero_add] at hread
  by_cases hlimit : limit < (Json.object members).size
  · rw [if_pos hlimit] at hread
    cases hdeclared : carriage.declared with
    | true => simp [readLimitedJson, posted, hdeclared, hsize, hlimit]
    | false => simp [readLimitedJson, posted, hdeclared, htype, hread, hlimit]
  · rw [if_neg hlimit] at hread
    cases hdeclared : carriage.declared with
    | true =>
        simp [readLimitedJson, posted, hdeclared, hsize, hlimit, htype, hread, decodeText_object,
          Json.parse_text]
    | false =>
        simp [readLimitedJson, posted, hdeclared, htype, hread, hlimit, decodeText_object,
          Json.parse_text]

theorem parseBody_posted_iff (issues : Json → String) (members : List (String × Json))
    (carriage : Carriage (Utf8.encode (Json.object members).text)) (schema : Schema) (limit : Nat) :
    (∃ data, parseBody issues (posted (.object members) carriage) schema limit = .ok data) ↔
      schema (.object members) = true ∧ (Json.object members).size ≤ limit := by
  rw [parseBody, readLimitedJson_posted]
  by_cases hlimit : limit < (Json.object members).size
  · rw [if_pos hlimit]
    refine iff_of_false ?_ fun h => by omega
    rintro ⟨data, hdata⟩
    cases hdata
  · rw [if_neg hlimit]
    simp only [parseWith]
    by_cases hschema : schema (.object members) = true
    · rw [if_pos hschema]
      exact iff_of_true ⟨_, rfl⟩ ⟨hschema, Nat.le_of_not_lt hlimit⟩
    · rw [if_neg hschema]
      refine iff_of_false ?_ fun h => hschema h.1
      rintro ⟨data, hdata⟩
      cases hdata

end Utsuroi.RunnerApi
