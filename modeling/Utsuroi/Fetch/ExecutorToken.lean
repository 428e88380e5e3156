import Utsuroi.Framework.Base64
import Utsuroi.Framework.Json
import Utsuroi.Framework.Utf8

/-!
# The token of a request to an executor

A JWT that lives for half a minute and is bound to the body of the request by its hash.
-/

namespace Utsuroi

def EXECUTOR_TOKEN_ISSUER : String := "utsuroi"
def EXECUTOR_TOKEN_LIFETIME_SECONDS : Int := 30

/-- What `Date.now()` may return. -/
structure TimeValue where
  ms : Int
  lower : -8640000000000000 ≤ ms
  upper : ms ≤ 8640000000000000

def btoa (bytes : List UInt8) : List Char :=
  Base64.unpadded '+' '/' bytes ++ Base64.padding bytes

def base64url (bytes : List UInt8) : List Char :=
  ((btoa bytes).map fun c => if c = '+' then '-' else if c = '/' then '_' else c).filter (· ≠ '=')

structure SignExecutorTokenInput where
  audience : String
  body : List UInt8
  nowMs : TimeValue

section Sign

-- Ed25519 with the imported key, SHA-256, and what `crypto.randomUUID` returns.
variable (sign sha256 : List UInt8 → List UInt8) (input : SignExecutorTokenInput) (jti : String)

def tokenHeader : Json := .object [("alg", .string "EdDSA"), ("typ", .string "JWT")]

def SignExecutorTokenInput.iat : Int := input.nowMs.ms / 1000

def SignExecutorTokenInput.exp : Int := input.iat + EXECUTOR_TOKEN_LIFETIME_SECONDS

def tokenClaims : Json :=
  .object [("iss", .string EXECUTOR_TOKEN_ISSUER), ("aud", .string input.audience),
    ("iat", .int input.iat), ("exp", .int input.exp), ("jti", .string jti),
    ("bh", .string (String.ofList (base64url (sha256 input.body))))]

def jsonSegment (json : Json) : List Char := base64url (Utf8.encode json.text)

def signingInput : List Char :=
  jsonSegment tokenHeader ++ '.' :: jsonSegment (tokenClaims sha256 input jti)

def signExecutorToken : String :=
  String.ofList (signingInput sha256 input jti ++
    '.' :: base64url (sign (Utf8.encode (signingInput sha256 input jti))))

end Sign

end Utsuroi
