import Mathlib.Algebra.Order.Ring.Rat
import Utsuroi.Framework.Base64
import Utsuroi.Framework.Json
import Utsuroi.Framework.Run
import Utsuroi.Framework.Utf8
import Utsuroi.Shared.Utf16

/-!
# The token check of the GCP executor

A request is let in by a signed token that names its body, and each token only once.
-/

namespace Utsuroi

def EXPECTED_ISSUER : String := "utsuroi"
def EXPECTED_AUDIENCE : String := "gcp-http"
def MAX_TOKEN_LIFETIME_SECONDS : Rat := 60
def CLOCK_SKEW_SECONDS : Rat := 5
def MAX_JTI_ENTRIES : Nat := 10000

/-- Throws unless the condition holds. -/
def demand (condition : Prop) [Decidable condition] (message : String) : Except String Unit :=
  if condition then .ok () else .error message

def demandSome {α : Type} (value : Option α) (message : String) : Except String α :=
  match value with
  | some value => .ok value
  | none => .error message

section Throws

variable {α β : Type} {message : String}

@[simp] theorem demand_ok {condition : Prop} [Decidable condition] :
    demand condition message = .ok () ↔ condition := by
  simp [demand]

@[simp] theorem demandSome_ok {value : Option α} {result : α} :
    demandSome value message = .ok result ↔ value = some result := by
  cases value <;> simp [demandSome]

theorem bind_ok {first : Except String α} {rest : α → Except String β} {result : β} :
    (first >>= rest) = .ok result ↔ ∃ value, first = .ok value ∧ rest value = .ok result := by
  cases first with
  | error message => simp [bind, Except.bind]
  | ok value => simp [bind, Except.bind]

theorem demand_bind_ok {condition : Prop} [Decidable condition] {rest : Unit → Except String β}
    {result : β} :
    (demand condition message >>= rest) = .ok result ↔ condition ∧ rest () = .ok result := by
  rw [bind_ok]
  constructor
  · rintro ⟨value, hvalue, hrest⟩
    exact ⟨demand_ok.mp hvalue, hrest⟩
  · rintro ⟨hcondition, hrest⟩
    exact ⟨(), demand_ok.mpr hcondition, hrest⟩

theorem demandSome_bind_ok {value : Option α} {rest : α → Except String β} {result : β} :
    (demandSome value message >>= rest) = .ok result ↔
      ∃ found, value = some found ∧ rest found = .ok result := by
  simp only [bind_ok, demandSome_ok]

end Throws

/-- `/^[A-Za-z0-9_-]+$/` -/
def isBase64Url (segment : List Char) : Bool :=
  segment ≠ [] && segment.all fun c => c.isAlphanum || c = '_' || c = '-'

def decodeSegment (segment : List Char) : Except String (List UInt8) := do
  demand (isBase64Url segment) "malformed token"
  return Base64.decode segment

def objectMembers : Json → Option (List (String × Json))
  | .object members => some members
  | _ => none

def decodeJson (segment : List Char) : Except String (List (String × Json)) := do
  let bytes ← decodeSegment segment
  let value ← demandSome (Json.parse (Utf8.decode bytes)) "malformed token"
  demandSome (objectMembers value) "malformed token"

def stringOf : Option Json → Option String
  | some (.string value) => some value
  | _ => none

def numberOf : Option Json → Option Rat
  | some (.number mantissa exponent) => some (Json.decimal mantissa exponent)
  | _ => none

/-! ## The replay cache -/

/-- Accepted tokens by their `jti`, with the second at which each expires. -/
structure JtiCache where
  maxEntries : Nat
  entries : List (String × Rat)

def JtiCache.purge (cache : JtiCache) (nowSeconds : Rat) : JtiCache :=
  { cache with entries := cache.entries.filter fun entry => ¬ entry.2 + CLOCK_SKEW_SECONDS < nowSeconds }

def JtiCache.has (cache : JtiCache) (jti : String) : Bool := cache.entries.any fun entry => entry.1 = jti

/-- The first time it registers the `jti`; never where the cache is full. -/
def JtiCache.claim (cache : JtiCache) (jti : String) (expSeconds nowSeconds : Rat) : Bool × JtiCache :=
  let cache := cache.purge nowSeconds
  if cache.has jti then (false, cache)
  else if cache.maxEntries ≤ cache.entries.length then (false, cache)
  else (true, { cache with entries := cache.entries ++ [(jti, expSeconds)] })

/-! ## The check -/

structure TokenSegments where
  headerSeg : List Char
  payloadSeg : List Char
  signatureSeg : List Char

def segmentsOf : List (List Char) → Option TokenSegments
  | [headerSeg, payloadSeg, signatureSeg] => some ⟨headerSeg, payloadSeg, signatureSeg⟩
  | _ => none

def bearerSegments (authorization : Option String) : Except String TokenSegments := do
  let authorization ← demandSome authorization "missing bearer token"
  demand ("Bearer ".toList.isPrefixOf authorization.toList) "missing bearer token"
  let token := trim (String.ofList (authorization.toList.drop "Bearer ".length))
  demandSome (segmentsOf (token.toList.splitOn '.')) "malformed token"

def checkHeader (headerSeg : List Char) : Except String Unit := do
  let header ← decodeJson headerSeg
  demand (stringOf (Json.member? header "alg") = some "EdDSA") "unsupported alg"
  demand (¬ header.any fun member => ["crit", "jku", "jwk", "x5u"].contains member.1) "unsupported header"

/-- `Buffer.from(text, 'ascii')` keeps the low byte of each code unit. -/
def asciiBytes (text : List Char) : List UInt8 := (text.flatMap charUnits).map UInt8.ofNat

/-- A literal from this on reads as `Infinity`. -/
def isFinite (number : Rat) : Bool :=
  -(2 ^ 1024 - 2 ^ 970 : Int) < number && number < (2 ^ 1024 - 2 ^ 970 : Int)

section Verify

-- Ed25519 with the public key, and SHA-256.
variable (verify : List UInt8 → List UInt8 → Bool) (sha256 : List UInt8 → List UInt8)

def checkSignature (segments : TokenSegments) : Except String Unit := do
  let signature ← decodeSegment segments.signatureSeg
  demand (signature.length = 64) "bad signature"
  demand (verify (asciiBytes (segments.headerSeg ++ '.' :: segments.payloadSeg)) signature)
    "bad signature"

/-- The `jti` and the `exp` of claims that hold for the body at this second. -/
def checkClaims (claims : List (String × Json)) (rawBody : List UInt8) (nowSeconds : Rat) :
    Except String (String × Rat) := do
  demand (stringOf (Json.member? claims "iss") = some EXPECTED_ISSUER) "bad iss"
  demand (stringOf (Json.member? claims "aud") = some EXPECTED_AUDIENCE) "bad aud"
  let iat ← demandSome (numberOf (Json.member? claims "iat")) "bad time claims"
  let exp ← demandSome (numberOf (Json.member? claims "exp")) "bad time claims"
  demand (isFinite iat ∧ isFinite exp) "bad time claims"
  demand (¬ (exp - iat > MAX_TOKEN_LIFETIME_SECONDS ∨ exp ≤ iat)) "token lifetime too long"
  demand (¬ nowSeconds > exp + CLOCK_SKEW_SECONDS) "token expired"
  demand (¬ iat > nowSeconds + CLOCK_SKEW_SECONDS) "token not yet valid"
  let jti ← demandSome (stringOf (Json.member? claims "jti")) "bad jti"
  demand (¬ (utf16Length jti.toList < 8 ∨ utf16Length jti.toList > 128)) "bad jti"
  let bh ← demandSome (stringOf (Json.member? claims "bh")) "bad bh"
  demand (bh.toList = Base64.unpadded '-' '_' (sha256 rawBody)) "body hash mismatch"
  return (jti, exp)

/-- What `verifyRequestToken` checks before it claims the `jti`. -/
def checkRequestToken (authorization : Option String) (rawBody : List UInt8) (nowSeconds : Rat) :
    Except String (String × Rat) := do
  let segments ← bearerSegments authorization
  checkHeader segments.headerSeg
  checkSignature verify segments
  let claims ← decodeJson segments.payloadSeg
  checkClaims sha256 claims rawBody nowSeconds

/-- `Math.floor(now() / 1000)` -/
def secondsOf (nowMs : Int) : Int := nowMs / 1000

def verifyRequestToken (authorization : Option String) (rawBody : List UInt8) (nowMs : Int)
    (jtiCache : JtiCache) : Except String Unit × JtiCache :=
  match checkRequestToken verify sha256 authorization rawBody (secondsOf nowMs) with
  | .error message => (.error message, jtiCache)
  | .ok (jti, exp) =>
    let (fresh, jtiCache) := jtiCache.claim jti exp (secondsOf nowMs)
    (if fresh then .ok () else .error "replayed token", jtiCache)

/-! ## Runs of verifications -/

/-- A request and what came of it. -/
structure Verification where
  authorization : Option String
  rawBody : List UInt8
  nowMs : Int
  outcome : Except String Unit

/-- One executor instance: its cache starts empty and lives on from request to request. -/
def verifier (maxEntries : Nat) : Transition.System JtiCache Verification where
  init := fun cache => cache = ⟨maxEntries, []⟩
  step := fun cache v cache' =>
    verifyRequestToken verify sha256 v.authorization v.rawBody v.nowMs cache = (v.outcome, cache')

end Verify

/-- The clock does not go back. -/
def clockForward : Transition.StepCond JtiCache Verification :=
  fun past _ v => ∀ earlier ∈ past, earlier.nowMs ≤ v.nowMs

/-- The `jti` and the `exp` a token claims, in whatever way it is written. -/
def claimedBy (authorization : Option String) : Except String (String × Rat) := do
  let segments ← bearerSegments authorization
  let claims ← decodeJson segments.payloadSeg
  let jti ← demandSome (stringOf (Json.member? claims "jti")) "bad jti"
  let exp ← demandSome (numberOf (Json.member? claims "exp")) "bad time claims"
  return (jti, exp)

end Utsuroi
