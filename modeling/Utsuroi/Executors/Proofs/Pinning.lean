import Utsuroi.Executors.Fetcher

/-!
# The executors connect only to addresses they have vetted

Each connection goes to an address that its own hop has resolved, none of whose addresses is
blocked.
-/

namespace Utsuroi

section Service

variable (node : NodeTools) (options : FetchServiceOptions) (upstream : Upstream)

/-- What is checked before a connection is opened at this hop. -/
structure Pinned (hop : Nat) (connection : Connection) : Prop where
  scheme : connection.url.isHttp = true
  username : connection.url.username = ""
  password : connection.url.password = ""
  port : connection.url.port.getD (schemePort connection.url) ∈ options.allowedPorts
  hostname : isBlockedHostname (bareHostname connection.url) = false
  address : ∃ addresses, hostAddresses node upstream hop (bareHostname connection.url) = .ok addresses ∧
    connection.target ∈ addresses ∧
      ∀ a ∈ addresses, options.isBlockedAddress (node.isIP a.address) = false

/-- The body that the server sends, decompressed. -/
def decodedBody (headers : IncomingHttpHeaders) (body : BodyStream) : BodyStream :=
  (responseDecoder (headerText (headers.get "content-encoding"))).elim body
    fun decoder => node.decompress decoder body

/-- The result is the answer of this connection, its body cut at `maxBytes`. -/
structure CutAnswer (maxBytes hop : Nat) (connection : Connection) (result : FetchResult) : Prop where
  url : result.url = connection.url.href
  answer : ∃ headers stream,
    upstream.exchange hop connection = .answered result.status headers stream ∧
      result.headers = pickResponseHeaders headers ∧
      result.body = (decodedBody node headers stream).chunks.flatten.take maxBytes ∧
      (result.truncated = true ↔ maxBytes < (decodedBody node headers stream).chunks.flatten.length)

variable {node options upstream}

private theorem chooseAddress_ok {addresses : List ResolvedAddress} {target : ResolvedAddress}
    (h : chooseAddress node options addresses = .ok target) :
    target ∈ addresses ∧ ∀ a ∈ addresses, options.isBlockedAddress (node.isIP a.address) = false := by
  unfold chooseAddress at h
  split at h
  · contradiction
  split at h
  · contradiction
  next hblocked =>
  have hpublic : ∀ a ∈ addresses, options.isBlockedAddress (node.isIP a.address) = false := by
    simpa using hblocked
  have husable : ∀ a ∈ (if options.allowIpv6 then addresses
      else addresses.filter fun a => a.family = 4), a ∈ addresses := by
    intro a ha
    split at ha
    · exact ha
    · exact (List.mem_filter.mp ha).1
  refine ⟨?_, hpublic⟩
  simp only at h
  split at h
  · contradiction
  next first rest heq =>
    rw [heq] at h husable
    cases hfind : (first :: rest).find? fun a => a.family = 4 with
    | none =>
        rw [hfind] at h
        obtain rfl := Except.ok.inj h
        exact husable _ List.mem_cons_self
    | some found =>
        rw [hfind] at h
        obtain rfl := Except.ok.inj h
        exact husable _ (List.mem_of_find?_eq_some hfind)

/-- Whatever is vetted may be connected to. -/
theorem vet_pinned {hop : Nat} {url : ParsedUrl} {target : ResolvedAddress}
    (h : vet node options upstream hop url = .ok target) (headers : List (String × String)) :
    Pinned node options upstream hop ⟨url, target, headers⟩ := by
  unfold vet at h
  split at h
  · contradiction
  next hscheme =>
  split at h
  · contradiction
  next huser =>
  split at h
  · contradiction
  next hport =>
  split at h
  · contradiction
  split at h
  · contradiction
  next hhost =>
  simp only [not_or, Decidable.not_not] at huser
  cases haddresses : hostAddresses node upstream hop (bareHostname url) with
  | error failure =>
      rw [haddresses] at h
      contradiction
  | ok addresses =>
      rw [haddresses] at h
      exact ⟨by simpa using hscheme, huser.1, huser.2, by simpa using hport, by simpa using hhost,
        addresses, haddresses, chooseAddress_ok h⟩

/-- Of the chunks together the first `maxBytes` bytes are kept, however they are cut. -/
theorem collectChunks_ok {maxBytes : Nat} {failure : Option NetworkError}
    {chunks : List (List UInt8)} {body collected : List UInt8} {truncated : Bool}
    (hbody : body.length ≤ maxBytes)
    (h : collectChunks maxBytes failure chunks body = .ok (collected, truncated)) :
    collected = (body ++ chunks.flatten).take maxBytes ∧
      (truncated = true ↔ maxBytes < (body ++ chunks.flatten).length) := by
  induction chunks generalizing body with
  | nil =>
      cases failure with
      | some err => simp [collectChunks] at h
      | none =>
          simp only [collectChunks, Option.elim_none, Except.ok.injEq, Prod.mk.injEq] at h
          obtain ⟨rfl, rfl⟩ := h
          simp [List.take_of_length_le hbody, hbody]
  | cons chunk chunks ih =>
      rw [collectChunks] at h
      split at h
      next hlong =>
        simp only [Except.ok.injEq, Prod.mk.injEq] at h
        obtain ⟨rfl, rfl⟩ := h
        have htake : chunk.take (maxBytes - body.length) =
            (chunk ++ chunks.flatten).take (maxBytes - body.length) :=
          (List.take_append_of_le_length (by omega)).symm
        simp only [List.flatten_cons, List.length_append, true_iff]
        refine ⟨?_, by omega⟩
        rw [List.take_append, List.take_of_length_le hbody, htake]
      next hfits =>
        have hmore := ih (by simp only [List.length_append]; omega) h
        simpa using hmore

theorem hop_ok {index maxBytes : Nat} {connection : Connection} {result : HopResult}
    (h : hop node upstream index connection maxBytes = .ok result)
    (hend : isRedirectStatus result.status = false) :
    CutAnswer node upstream maxBytes index connection (terminalResult connection.url result) := by
  unfold hop at h
  cases hexchange : upstream.exchange index connection with
  | timedOut => simp [hexchange] at h
  | failed message => simp [hexchange] at h
  | answered status headers body =>
      simp only [hexchange] at h
      split at h
      next hredirect =>
        obtain rfl := Except.ok.inj h
        simp_all
      next =>
        have hsource : (responseDecoder (headerText (headers.get "content-encoding"))).elim body
            (fun decoder => node.decompress decoder body) = decodedBody node headers body := rfl
        rw [hsource] at h
        cases hcollect : collectChunks maxBytes (decodedBody node headers body).failure
            (decodedBody node headers body).chunks [] with
        | error err => simp [hcollect] at h
        | ok collected =>
            obtain ⟨bytes, truncated⟩ := collected
            rw [hcollect] at h
            obtain rfl := Except.ok.inj h
            have hbytes := collectChunks_ok (Nat.zero_le maxBytes) hcollect
            rw [List.nil_append] at hbytes
            exact ⟨rfl, headers, body, hexchange, rfl, hbytes.1, hbytes.2⟩

/-- A redirect is followed only while there are redirects to go. -/
private theorem redirectLocation_left {left : Nat} {current next : ParsedUrl} {result : HopResult}
    (h : redirectLocation node options left current result = .ok next) : left ≠ 0 := by
  intro hleft
  unfold redirectLocation redirectLocation.missing at h
  split at h
  · contradiction
  · split at h
    · contradiction
    · contradiction

/-- What holds of the loop with `left` redirects to go: its `k`th connection is that of the hop
with this index. -/
structure Confined (node : NodeTools) (options : FetchServiceOptions) (upstream : Upstream)
    (maxBytes left : Nat) (run : FetchRun) : Prop where
  pinned : ∀ k connection, run.connections[k]? = some connection →
    Pinned node options upstream (options.maxRedirects - left + k) connection
  bounded : run.connections.length ≤ left + 1
  answer : ∀ result, run.outcome = .ok result → ∃ k connection,
    run.connections[k]? = some connection ∧ k + 1 = run.connections.length ∧
      CutAnswer node upstream maxBytes (options.maxRedirects - left + k) connection result

private theorem confined_refused {maxBytes left : Nat} (failure : FetchFailure) :
    Confined node options upstream maxBytes left ⟨[], .error failure⟩ where
  pinned := by simp
  bounded := by simp
  answer := by simp

private theorem confined_failed {maxBytes left : Nat} {connection : Connection}
    (hpinned : Pinned node options upstream (options.maxRedirects - left) connection)
    (failure : FetchFailure) :
    Confined node options upstream maxBytes left ⟨[connection], .error failure⟩ where
  pinned := by
    intro k connection' hk
    obtain ⟨rfl, rfl⟩ : k = 0 ∧ connection = connection' := by
      cases k with
      | zero => simpa using hk
      | succ k => simp at hk
    exact hpinned
  bounded := by simp
  answer := by simp

private theorem confined_answered {maxBytes left : Nat} {connection : Connection}
    {result : FetchResult}
    (hpinned : Pinned node options upstream (options.maxRedirects - left) connection)
    (hanswer : CutAnswer node upstream maxBytes (options.maxRedirects - left) connection result) :
    Confined node options upstream maxBytes left ⟨[connection], .ok result⟩ where
  pinned := (@confined_failed node options upstream maxBytes left connection hpinned ⟨.timeout, ""⟩).pinned
  bounded := by simp
  answer := by
    intro result' hresult
    obtain rfl := Except.ok.inj hresult
    exact ⟨0, connection, rfl, rfl, hanswer⟩

/-- One more hop in front. -/
private theorem Confined.redirected {maxBytes left : Nat} {connection : Connection} {run : FetchRun}
    (hleft : left + 1 ≤ options.maxRedirects)
    (hpinned : Pinned node options upstream (options.maxRedirects - (left + 1)) connection)
    (h : Confined node options upstream maxBytes left run) :
    Confined node options upstream maxBytes (left + 1)
      ⟨connection :: run.connections, run.outcome⟩ where
  pinned := by
    intro k connection' hk
    cases k with
    | zero =>
        obtain rfl : connection = connection' := by simpa using hk
        exact hpinned
    | succ k =>
        have hindex : options.maxRedirects - (left + 1) + (k + 1) = options.maxRedirects - left + k := by
          omega
        rw [hindex]
        exact h.pinned k connection' (by simpa using hk)
  bounded := by
    have hbounded := h.bounded
    simp only [List.length_cons]
    omega
  answer := by
    intro result hresult
    obtain ⟨k, connection', hk, hlast, hanswer⟩ := h.answer result hresult
    have hindex : options.maxRedirects - (left + 1) + (k + 1) = options.maxRedirects - left + k := by
      omega
    refine ⟨k + 1, connection', by simpa using hk, by simp [hlast], ?_⟩
    rw [hindex]
    exact hanswer

theorem fetchHops_confined {headers : List (String × String)} {maxBytes left : Nat}
    {current : ParsedUrl} (hleft : left ≤ options.maxRedirects) :
    Confined node options upstream maxBytes left
      (fetchHops node options upstream headers maxBytes left current) := by
  fun_induction fetchHops node options upstream headers maxBytes left current with
  | case1 left current failure hvet => exact confined_refused failure
  | case2 left current target hvet connection failure hhop =>
      exact confined_failed (vet_pinned hvet headers) failure
  | case3 left current target hvet connection result hhop hredirect failure hlocation =>
      exact confined_failed (vet_pinned hvet headers) failure
  | case4 current target hvet connection result hhop hredirect url hlocation =>
      exact absurd rfl (redirectLocation_left ‹_›)
  | case5 current target hvet connection result hhop hredirect url left run hlocation ih =>
      exact (ih (by omega)).redirected hleft (vet_pinned ‹_› headers)
  | case6 left current target hvet connection result hhop hend =>
      exact confined_answered (vet_pinned hvet headers) (hop_ok hhop (by simpa using hend))

/-- Each connection goes to an address of its own hop, none of which is blocked.  There are at most
`maxRedirects + 1`, and the body is cut at the limit exactly where it is longer. -/
theorem fetchTarget_pinned (node : NodeTools) (options : FetchServiceOptions) (upstream : Upstream)
    (input : FetchInput) :
    (∀ hop connection, (fetchTarget node options upstream input).connections[hop]? = some connection →
      Pinned node options upstream hop connection) ∧
    (fetchTarget node options upstream input).connections.length ≤ options.maxRedirects + 1 ∧
    ∀ result, (fetchTarget node options upstream input).outcome = .ok result →
      result.body.length ≤ min input.maxBytes options.maxBytesCap ∧
        ∃ hop connection, (fetchTarget node options upstream input).connections[hop]? = some connection ∧
          hop + 1 = (fetchTarget node options upstream input).connections.length ∧
            CutAnswer node upstream (min input.maxBytes options.maxBytesCap) hop connection result := by
  have hconfined : Confined node options upstream (min input.maxBytes options.maxBytesCap)
      options.maxRedirects (fetchTarget node options upstream input) := by
    unfold fetchTarget
    split
    · exact confined_refused _
    · split
      · exact confined_refused _
      · exact fetchHops_confined (le_refl _)
  obtain ⟨hpinned, hbounded, hanswer⟩ := hconfined
  simp only [Nat.sub_self, Nat.zero_add] at hpinned hanswer
  refine ⟨hpinned, hbounded, fun result hresult => ?_⟩
  obtain ⟨hop, connection, hconnection, hlast, hcut⟩ := hanswer result hresult
  obtain ⟨headers, stream, -, -, hbody, -⟩ := hcut.answer
  refine ⟨?_, hop, connection, hconnection, hlast, hcut⟩
  rw [hbody]
  exact List.length_take_le _ _

end Service

end Utsuroi
