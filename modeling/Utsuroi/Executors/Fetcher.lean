import Utsuroi.Executors.AddressPolicy
import Utsuroi.Fetch.Http

/-!
# The fetcher of the executors

`fetchTarget` follows redirects by itself.  At each hop it resolves the host, refuses it where one
of its addresses is blocked, and connects to the address it has vetted.
-/

namespace Utsuroi

/-- `FailureClass` of the executors. -/
inductive ExecutorFailureClass
  | ssrfBlocked
  | timeout
  | networkError
  | tooLarge
  deriving DecidableEq, Repr

structure FetchFailure where
  failureClass : ExecutorFailureClass
  message : String
  deriving DecidableEq, Repr

structure ResolvedAddress where
  address : String
  family : Nat
  deriving DecidableEq, Repr

/-- `Record<string, α>`: no key twice. -/
@[ext]
structure StringRecord (α : Type) where
  entries : List (String × α)
  nodup : (entries.map Prod.fst).Nodup

def StringRecord.get {α : Type} (record : StringRecord α) (key : String) : Option α :=
  record.entries.lookup key

/-- The entries for which `f` has a value. -/
def StringRecord.filterMap {α β : Type} (record : StringRecord α) (f : String → α → Option β) :
    StringRecord β where
  entries := record.entries.filterMap fun entry => (f entry.1 entry.2).map fun value => (entry.1, value)
  nodup := by
    have hkeys : ((record.entries.filterMap fun entry =>
        (f entry.1 entry.2).map fun value => (entry.1, value)).map Prod.fst).Sublist
        (record.entries.map Prod.fst) := by
      induction record.entries with
      | nil => simp
      | cons entry entries ih =>
          cases hf : f entry.1 entry.2 with
          | none => simpa [hf] using ih.cons entry.1
          | some value => simpa [hf] using ih.cons_cons entry.1
    exact record.nodup.sublist hkeys

/-- The first entries. -/
def StringRecord.take {α : Type} (record : StringRecord α) (n : Nat) : StringRecord α where
  entries := record.entries.take n
  nodup := by
    rw [List.map_take]
    exact record.nodup.sublist (List.take_sublist n _)

/-- A `URL`. -/
structure ParsedUrl extends UrlParts where
  pathname : String
  search : String
  href : String
  href_ne : href ≠ ""

/-- A header of `IncomingHttpHeaders`. -/
inductive HeaderValue
  | one (value : String)
  | many (values : List String)
  deriving DecidableEq, Repr

abbrev IncomingHttpHeaders := StringRecord HeaderValue

inductive Decoder
  | gunzip
  | inflate
  | brotliDecompress
  deriving DecidableEq, Repr

/-- The platform. -/
structure NodeTools where
  /-- `new URL(text)`, `none` when it throws -/
  newUrl : String → Option ParsedUrl
  /-- `new URL(reference, base)`, `none` when it throws -/
  newUrlFrom : String → ParsedUrl → Option ParsedUrl
  isIP : String → IpAddress
  /-- what a decoder makes of a stream -/
  decompress : Decoder → BodyStream → BodyStream

structure FetchServiceOptions where
  maxBytesCap : Nat
  maxRedirects : Nat
  isBlockedAddress : IpAddress → Bool
  allowedPorts : List Nat
  userAgent : String
  allowIpv6 : Bool

structure FetchInput where
  url : String
  maxBytes : Nat
  headers : List (String × String)

structure FetchResult where
  status : Nat
  url : String
  contentType : Option String
  headers : StringRecord String
  body : List UInt8
  truncated : Bool

def DEFAULT_ALLOWED_PORTS : List Nat := [80, 443]

def FORWARDED_REQUEST_HEADERS : List String :=
  ["user-agent", "accept", "accept-language", "referer", "if-none-match", "if-modified-since"]

def MAX_HEADER_VALUE_LENGTH : Nat := 2048
def MAX_URL_LENGTH : Nat := 2048

/-- No character of `/[^\t\x20-\x7e\x80-\xff]/`. -/
def isHeaderText (value : String) : Bool :=
  value.toList.all fun c =>
    c = '\t' || (0x20 ≤ c.toNat && c.toNat ≤ 0x7e) || (0x80 ≤ c.toNat && c.toNat ≤ 0xff)

/-- A later header replaces an earlier one of its name. -/
def sanitizeRequestHeaders (input : List (String × String)) : List (String × String) :=
  input.foldl (fun out header =>
    let key := header.1.toLower
    if !FORWARDED_REQUEST_HEADERS.contains key then out
    else if MAX_HEADER_VALUE_LENGTH < utf16Length header.2.toList || !isHeaderText header.2 then out
    else if out.any fun kept => kept.1 = key then
      out.map fun kept => if kept.1 = key then (key, header.2) else kept
    else out ++ [(key, header.2)]) []

def responseDecoder (encoding : Option String) : Option Decoder :=
  let name := trim (encoding.getD "").toLower
  if name = "gzip" ∨ name = "x-gzip" then some .gunzip
  else if name = "deflate" then some .inflate
  else if name = "br" then some .brotliDecompress
  else none

def KEPT_RESPONSE_HEADERS : List String :=
  ["content-type", "etag", "last-modified", "retry-after", "cf-mitigated"]

def pickResponseHeaders (raw : IncomingHttpHeaders) : StringRecord String :=
  raw.filterMap fun name value =>
    match value with
    | .one value =>
      if KEPT_RESPONSE_HEADERS.contains name || startsWith name "cf-chl-" then some value else none
    | .many _ => none

/-! ## Host names -/

def BLOCKED_HOST_SUFFIXES : List String :=
  [".localhost", ".local", ".internal", ".localdomain", ".home.arpa"]

def BLOCKED_HOSTS : List String :=
  ["localhost", "metadata", "metadata.google.internal", "instance-data"]

/-- `text.replace(/\.$/, '')` -/
def dropFinalDot (text : List Char) : List Char :=
  if text.getLast? = some '.' then text.dropLast else text

def isBlockedHostname (hostname : String) : Bool :=
  let host := dropFinalDot hostname.toLower.toList
  BLOCKED_HOSTS.any (fun blocked => blocked.toList = host) ||
    BLOCKED_HOST_SUFFIXES.any fun suffix => suffix.toList.isSuffixOf host

/-! ## Hops -/

/-- What `resolve` comes to before the deadline. -/
inductive Resolution
  | timedOut
  | failed
  | addresses (found : List ResolvedAddress)

/-- What a request comes to before the deadline. -/
inductive Exchange
  | timedOut
  | failed (message : String)
  | answered (status : Nat) (headers : IncomingHttpHeaders) (body : BodyStream)

/-- A request on its way to an address. -/
structure Connection where
  url : ParsedUrl
  target : ResolvedAddress
  headers : List (String × String)

/-- The network, which may answer otherwise at each hop. -/
structure Upstream where
  resolve : Nat → String → Resolution
  exchange : Nat → Connection → Exchange

/-- What one hop resolves to. -/
structure HopResult where
  status : Nat
  headers : IncomingHttpHeaders
  body : List UInt8
  truncated : Bool

/-- The connections opened, oldest first, and what the fetch resolves to or throws. -/
structure FetchRun where
  connections : List Connection
  outcome : Except FetchFailure FetchResult

/-- The handler of `data`: what goes beyond `maxBytes` is cut off. -/
def collectChunks (maxBytes : Nat) (failure : Option NetworkError) :
    List (List UInt8) → List UInt8 → Except NetworkError (List UInt8 × Bool)
  | [], body => failure.elim (.ok (body, false)) .error
  | chunk :: chunks, body =>
    if maxBytes - body.length < chunk.length then
      .ok (body ++ chunk.take (maxBytes - body.length), true)
    else collectChunks maxBytes failure chunks (body ++ chunk)

section Service

variable (node : NodeTools) (options : FetchServiceOptions) (upstream : Upstream)

/-- The host name without the brackets of an IPv6 address. -/
def bareHostname (url : ParsedUrl) : String :=
  if startsWith url.hostname "[" then String.ofList (url.hostname.toList.drop 1).dropLast
  else url.hostname

def schemePort (url : ParsedUrl) : Nat := if url.protocol = "https:" then 443 else 80

/-- The addresses of a host name, that of a literal itself. -/
def hostAddresses (hop : Nat) (hostname : String) : Except FetchFailure (List ResolvedAddress) :=
  match node.isIP hostname with
  | .v4 _ => .ok [⟨hostname, 4⟩]
  | .v6 _ => .ok [⟨hostname, 6⟩]
  | .none =>
    match upstream.resolve hop hostname with
    | .timedOut => .error ⟨.timeout, "total timeout exceeded"⟩
    | .failed => .error ⟨.networkError, "dns resolution failed"⟩
    | .addresses found => .ok found

/-- One address that may be connected to. -/
def chooseAddress (addresses : List ResolvedAddress) : Except FetchFailure ResolvedAddress :=
  if addresses = [] then .error ⟨.networkError, "dns returned no addresses"⟩
  else if addresses.any fun a => options.isBlockedAddress (node.isIP a.address) then
    .error ⟨.ssrfBlocked, "resolved address not allowed"⟩
  else
    let usable := if options.allowIpv6 then addresses else addresses.filter fun a => a.family = 4
    match usable with
    | [] => .error ⟨.networkError, "no usable address (ipv6 disabled)"⟩
    | first :: _ => .ok ((usable.find? fun a => a.family = 4).getD first)

def vet (hop : Nat) (url : ParsedUrl) : Except FetchFailure ResolvedAddress :=
  if !url.isHttp then .error ⟨.ssrfBlocked, "scheme not allowed"⟩
  else if url.username ≠ "" ∨ url.password ≠ "" then .error ⟨.ssrfBlocked, "userinfo not allowed"⟩
  else if !options.allowedPorts.contains (url.port.getD (schemePort url)) then
    .error ⟨.ssrfBlocked, "port not allowed"⟩
  else if bareHostname url = "" then .error ⟨.ssrfBlocked, "empty host"⟩
  else if isBlockedHostname (bareHostname url) then .error ⟨.ssrfBlocked, "host not allowed"⟩
  else
    match hostAddresses node upstream hop (bareHostname url) with
    | .error failure => .error failure
    | .ok addresses => chooseAddress node options addresses

def headerText (value : Option HeaderValue) : Option String :=
  match value with
  | some (.one value) => some value
  | _ => none

def hop (index : Nat) (connection : Connection) (maxBytes : Nat) : Except FetchFailure HopResult :=
  match upstream.exchange index connection with
  | .timedOut => .error ⟨.timeout, "total timeout exceeded"⟩
  | .failed message => .error ⟨.networkError, message⟩
  | .answered status headers body =>
    if isRedirectStatus status then .ok ⟨status, headers, [], false⟩
    else
      let source := (responseDecoder (headerText (headers.get "content-encoding"))).elim body
        fun decoder => node.decompress decoder body
      match collectChunks maxBytes source.failure source.chunks [] with
      | .error err => .error ⟨.networkError, err.message⟩
      | .ok (body, truncated) => .ok ⟨status, headers, body, truncated⟩

/-- Where a redirect leads; `left` redirects may be followed. -/
def redirectLocation (left : Nat) (current : ParsedUrl) (result : HopResult) :
    Except FetchFailure ParsedUrl :=
  match headerText (result.headers.get "location") with
  | none => missing
  | some location =>
    if location = "" then missing
    else if left = 0 then
      .error ⟨.networkError, "too_many_redirects: exceeded " ++ toString options.maxRedirects⟩
    else
      match node.newUrlFrom location current with
      | none => .error ⟨.networkError, "invalid redirect location"⟩
      | some url => .ok url
where
  missing : Except FetchFailure ParsedUrl :=
    .error ⟨.networkError, "redirect status " ++ toString result.status ++ " missing location"⟩

def terminalResult (current : ParsedUrl) (result : HopResult) : FetchResult :=
  let pickedHeaders := pickResponseHeaders result.headers
  ⟨result.status, current.href, pickedHeaders.get "content-type", pickedHeaders, result.body,
    result.truncated⟩

/-- The loop of `fetchTarget` with `left` redirects to go. -/
def fetchHops (headers : List (String × String)) (maxBytes : Nat) : Nat → ParsedUrl → FetchRun
  | left, current =>
    match vet node options upstream (options.maxRedirects - left) current with
    | .error failure => ⟨[], .error failure⟩
    | .ok target =>
      let connection : Connection := ⟨current, target, headers⟩
      match hop node upstream (options.maxRedirects - left) connection maxBytes with
      | .error failure => ⟨[connection], .error failure⟩
      | .ok result =>
        if isRedirectStatus result.status then
          match redirectLocation node options left current result with
          | .error failure => ⟨[connection], .error failure⟩
          | .ok url =>
            match left with
            -- not reached: no redirect is followed any more
            | 0 => ⟨[connection], .error ⟨.networkError, ""⟩⟩
            | left + 1 =>
              let run := fetchHops headers maxBytes left url
              ⟨connection :: run.connections, run.outcome⟩
        else ⟨[connection], .ok (terminalResult current result)⟩

def fetchTarget (input : FetchInput) : FetchRun :=
  if MAX_URL_LENGTH < utf16Length input.url.toList then
    ⟨[], .error ⟨.ssrfBlocked, "url too long"⟩⟩
  else
    match node.newUrl input.url with
    | none => ⟨[], .error ⟨.ssrfBlocked, "invalid url"⟩⟩
    | some current =>
      let forwarded := sanitizeRequestHeaders input.headers
      let headers := if forwarded.any fun header => header.1 = "user-agent" then forwarded
        else ("user-agent", options.userAgent) :: forwarded
      fetchHops node options upstream headers (min input.maxBytes options.maxBytesCap)
        options.maxRedirects current

end Service

end Utsuroi
