import Mathlib.Tactic.Linarith
import Utsuroi.Executors.Jwt
import Utsuroi.Fetch.ExecutorToken

/-!
# What the Worker signs the executor lets in

A signed token is read back as the claims it was made from.  The replay cache forgets a `jti` only
when the token that brought it has expired.
-/

namespace Utsuroi

/-! ## Segments -/

private def urlLetter (c : Char) : Char := if c = '+' then '-' else if c = '/' then '_' else c

private theorem urlLetter_letter {sextet : Nat} (h : sextet < 64) :
    urlLetter (Base64.letter '+' '/' sextet) = Base64.letter '-' '_' sextet := by
  have hall : ∀ n < 64, urlLetter (Base64.letter '+' '/' n) = Base64.letter '-' '_' n := by
    decide +kernel
  exact hall sextet h

/-- A character a segment may hold: it ends no segment, takes one byte and is no space. -/
private def segmentChar (c : Char) : Bool :=
  (c.isAlphanum || c = '_' || c = '-') && c ≠ '.' && c ≠ '=' && c.toNat < 128 && !isJsSpace c

private theorem segmentChar_letter {sextet : Nat} (h : sextet < 64) :
    segmentChar (Base64.letter '-' '_' sextet) = true := by
  have hall : ∀ n < 64, segmentChar (Base64.letter '-' '_' n) = true := by decide +kernel
  exact hall sextet h

private theorem segmentChar_iff {c : Char} :
    segmentChar c = true ↔ (c.isAlphanum = true ∨ c = '_' ∨ c = '-') ∧ c ≠ '.' ∧ c ≠ '=' ∧
      c.toNat < 128 ∧ isJsSpace c = false := by
  simp [segmentChar, or_assoc, and_assoc]

private theorem unpadded_segmentChar (bytes : List UInt8) :
    ∀ c ∈ Base64.unpadded '-' '_' bytes, segmentChar c = true := by
  intro c hc
  obtain ⟨sextet, hmem, rfl⟩ := List.mem_map.mp hc
  exact segmentChar_letter (Base64.sextetsOf_lt hmem)

private theorem base64url_eq (bytes : List UInt8) :
    base64url bytes = Base64.unpadded '-' '_' bytes := by
  have hpadding : ((Base64.padding bytes).map urlLetter).filter (· ≠ '=') = [] := by
    simp [Base64.padding, urlLetter]
  have hmap : (Base64.unpadded '+' '/' bytes).map urlLetter = Base64.unpadded '-' '_' bytes := by
    unfold Base64.unpadded
    rw [List.map_map]
    apply List.map_congr_left
    intro sextet hmem
    exact urlLetter_letter (Base64.sextetsOf_lt hmem)
  change ((btoa bytes).map urlLetter).filter (· ≠ '=') = _
  rw [btoa, List.map_append, List.filter_append, hpadding, List.append_nil, hmap,
    List.filter_eq_self]
  intro c hc
  have hchar := segmentChar_iff.mp (unpadded_segmentChar bytes c hc)
  simpa using hchar.2.2.1

private theorem base64url_segmentChar (bytes : List UInt8) :
    ∀ c ∈ base64url bytes, segmentChar c = true := by
  rw [base64url_eq]
  exact unpadded_segmentChar bytes

private theorem isBase64Url_base64url {bytes : List UInt8} (h : bytes ≠ []) :
    isBase64Url (base64url bytes) = true := by
  have hne : base64url bytes ≠ [] := by
    intro hnil
    have hlength := congrArg List.length hnil
    rw [base64url_eq, Base64.unpadded, List.length_map, Base64.length_sextetsOf] at hlength
    have hpos := List.length_pos_iff.mpr h
    simp only [List.length_nil] at hlength
    omega
  have hall : (base64url bytes).all (fun c => c.isAlphanum || c = '_' || c = '-') = true := by
    rw [List.all_eq_true]
    intro c hc
    have hchar := (segmentChar_iff.mp (base64url_segmentChar bytes c hc)).1
    simpa [or_assoc] using hchar
  simp [isBase64Url, hne, hall]

theorem decodeSegment_base64url {bytes : List UInt8} (h : bytes ≠ []) :
    decodeSegment (base64url bytes) = .ok bytes := by
  have hdecode := Base64.decode_unpadded (fun n hn => (Base64.sextet?_letter hn).2) bytes 0
  rw [List.replicate_zero, List.append_nil] at hdecode
  rw [decodeSegment, bind_ok]
  exact ⟨(), demand_ok.mpr (isBase64Url_base64url h), by rw [base64url_eq, hdecode]; rfl⟩

private theorem text_ne_nil (value : Json) : value.text ≠ [] := by
  obtain ⟨c, cs, hcs, -⟩ := Json.text_head value
  simp [hcs]

/-- A segment of the signer reads back as the members it holds. -/
theorem decodeJson_jsonSegment (members : List (String × Json)) :
    decodeJson (jsonSegment (.object members)) = .ok members := by
  rw [decodeJson, bind_ok]
  refine ⟨_, decodeSegment_base64url (Utf8.encode_ne_nil (text_ne_nil _)), ?_⟩
  rw [bind_ok]
  refine ⟨.object members, ?_, rfl⟩
  rw [Utf8.decode_encode, Json.parse_text]
  rfl

/-! ## The token as it arrives -/

private theorem asciiBytes_eq {text : List Char} (h : ∀ c ∈ text, c.toNat < 128) :
    asciiBytes text = Utf8.encode text := by
  have hunits : text.flatMap charUnits = text.map Char.toNat := by
    induction text with
    | nil => rfl
    | cons c text ih =>
        have hc := h c List.mem_cons_self
        have hchar : charUnits c = [c.toNat] := by
          rw [charUnits, if_pos (by omega)]
        rw [List.flatMap_cons, List.map_cons, hchar, ih fun d hd => h d (List.mem_cons_of_mem c hd)]
        rfl
  rw [asciiBytes, hunits, List.map_map, Utf8.encode_ascii h]
  rfl

private theorem trim_of_no_space {text : List Char} (h : ∀ c ∈ text, isJsSpace c = false) :
    trim (String.ofList text) = String.ofList text := by
  have hdrop : ∀ text : List Char, (∀ c ∈ text, isJsSpace c = false) →
      text.dropWhile isJsSpace = text := by
    intro text h
    cases text with
    | nil => rfl
    | cons c text => rw [List.dropWhile_cons_of_neg (by simp [h c List.mem_cons_self])]
  have hreverse : ∀ c ∈ text.reverse, isJsSpace c = false := by
    intro c hc
    exact h c (List.mem_reverse.mp hc)
  rw [trim, String.toList_ofList, hdrop text h, hdrop text.reverse hreverse, List.reverse_reverse]

section Token

variable (sign sha256 : List UInt8 → List UInt8) (input : SignExecutorTokenInput) (jti : String)

private def signatureSegment : List Char :=
  base64url (sign (Utf8.encode (signingInput sha256 input jti)))

private theorem token_segmentChar :
    ∀ segment ∈ [jsonSegment tokenHeader, jsonSegment (tokenClaims sha256 input jti),
      signatureSegment sign sha256 input jti], ∀ c ∈ segment, segmentChar c = true := by
  intro segment hsegment
  simp only [List.mem_cons, List.not_mem_nil, or_false] at hsegment
  rcases hsegment with rfl | rfl | rfl
  · exact base64url_segmentChar _
  · exact base64url_segmentChar _
  · exact base64url_segmentChar _

private theorem token_eq :
    (signExecutorToken sign sha256 input jti).toList = ['.'].intercalate
      [jsonSegment tokenHeader, jsonSegment (tokenClaims sha256 input jti),
        signatureSegment sign sha256 input jti] := by
  simp [signExecutorToken, signingInput, signatureSegment, List.intercalate]

private theorem mem_token {c : Char} (hc : c ∈ (signExecutorToken sign sha256 input jti).toList) :
    c = '.' ∨ segmentChar c = true := by
  have hchars := token_segmentChar sign sha256 input jti
  simp only [token_eq, List.intercalate, List.intersperse, List.flatten_cons, List.flatten_nil,
    List.mem_append, List.mem_singleton, List.append_nil] at hc
  rcases hc with hc | hc | hc | hc | hc
  · exact .inr (hchars _ (by simp) c hc)
  · exact .inl hc
  · exact .inr (hchars _ (by simp) c hc)
  · exact .inl hc
  · exact .inr (hchars _ (by simp) c hc)

theorem bearerSegments_signed :
    bearerSegments (some ("Bearer " ++ signExecutorToken sign sha256 input jti)) =
      .ok ⟨jsonSegment tokenHeader, jsonSegment (tokenClaims sha256 input jti),
        signatureSegment sign sha256 input jti⟩ := by
  have hspace : ∀ c ∈ (signExecutorToken sign sha256 input jti).toList, isJsSpace c = false := by
    intro c hc
    rcases mem_token sign sha256 input jti hc with rfl | hc
    · decide
    · exact (segmentChar_iff.mp hc).2.2.2.2
  have hpoint : ∀ segment ∈ [jsonSegment tokenHeader, jsonSegment (tokenClaims sha256 input jti),
      signatureSegment sign sha256 input jti], '.' ∉ segment := by
    intro segment hsegment hmem
    have hchar := token_segmentChar sign sha256 input jti segment hsegment '.' hmem
    exact (segmentChar_iff.mp hchar).2.1 rfl
  have hdrop : ("Bearer " ++ signExecutorToken sign sha256 input jti).toList.drop "Bearer ".length =
      (signExecutorToken sign sha256 input jti).toList := by
    rw [String.toList_append]
    rfl
  have hprefix : "Bearer ".toList.isPrefixOf
      ("Bearer " ++ signExecutorToken sign sha256 input jti).toList = true := by
    rw [String.toList_append, List.isPrefixOf_iff_prefix]
    exact List.prefix_append _ _
  have hsplit : (signExecutorToken sign sha256 input jti).toList.splitOn '.' =
      [jsonSegment tokenHeader, jsonSegment (tokenClaims sha256 input jti),
        signatureSegment sign sha256 input jti] := by
    rw [token_eq, List.splitOn_intercalate '.' hpoint (by simp)]
  rw [bearerSegments, bind_ok]
  refine ⟨_, rfl, ?_⟩
  rw [bind_ok]
  refine ⟨(), demand_ok.mpr hprefix, ?_⟩
  simp only [hdrop, trim_of_no_space hspace, String.toList_ofList, hsplit]
  rfl

private theorem checkHeader_signed : checkHeader (jsonSegment tokenHeader) = .ok () := by
  rw [checkHeader, tokenHeader, bind_ok]
  refine ⟨_, decodeJson_jsonSegment _, ?_⟩
  rw [bind_ok]
  exact ⟨(), demand_ok.mpr rfl, demand_ok.mpr (by decide)⟩

private theorem signingInput_ascii : ∀ c ∈ signingInput sha256 input jti, c.toNat < 128 := by
  intro c hc
  simp only [signingInput, List.mem_append, List.mem_cons] at hc
  rcases hc with hc | rfl | hc
  · exact (segmentChar_iff.mp (base64url_segmentChar _ c hc)).2.2.2.1
  · decide
  · exact (segmentChar_iff.mp (base64url_segmentChar _ c hc)).2.2.2.1

variable {sign} (verify : List UInt8 → List UInt8 → Bool)

/-- The signature is over the very bytes that were signed. -/
private theorem checkSignature_signed (hlength : ∀ message, (sign message).length = 64)
    (hverify : ∀ message, verify message (sign message) = true) :
    checkSignature verify ⟨jsonSegment tokenHeader, jsonSegment (tokenClaims sha256 input jti),
      signatureSegment sign sha256 input jti⟩ = .ok () := by
  have hne : sign (Utf8.encode (signingInput sha256 input jti)) ≠ [] := by
    intro hnil
    have h := hlength (Utf8.encode (signingInput sha256 input jti))
    simp [hnil] at h
  rw [checkSignature, bind_ok]
  refine ⟨_, decodeSegment_base64url hne, ?_⟩
  rw [bind_ok]
  refine ⟨(), demand_ok.mpr (hlength _), demand_ok.mpr ?_⟩
  have hbytes := asciiBytes_eq (signingInput_ascii sha256 input jti)
  rw [signingInput] at hbytes
  rw [hbytes]
  exact hverify _

end Token

/-! ## The claims -/

/-- What `crypto.randomUUID` returns: 32 hexadecimal digits and four dashes. -/
def IsUuid (text : String) : Prop :=
  text.toList.length = 36 ∧
    text.toList.all (fun c => c.isDigit || c == '-' || (97 ≤ c.toNat && c.toNat ≤ 102)) = true

private theorem uuid_length {jti : String} (h : IsUuid jti) : utf16Length jti.toList = 36 := by
  have hwidth : ∀ cs : List Char, (∀ c ∈ cs, c.toNat < 0x10000) → utf16Length cs = cs.length := by
    intro cs hcs
    induction cs with
    | nil => rfl
    | cons c cs ih =>
        have hc := hcs c List.mem_cons_self
        rw [utf16Length, ih fun d hd => hcs d (List.mem_cons_of_mem c hd), utf16Width, if_pos hc,
          List.length_cons]
        omega
  rw [hwidth _ ?_, h.1]
  intro c hc
  have hchar := List.all_eq_true.mp h.2 c hc
  simp only [Bool.or_eq_true, beq_iff_eq, Bool.and_eq_true, decide_eq_true_eq, Char.isDigit] at hchar
  rcases hchar with (⟨-, hdigit⟩ | rfl) | ⟨-, hletter⟩
  · have hle : c.toNat ≤ 57 := hdigit
    omega
  · decide
  · omega

private theorem timeValue_finite (now : TimeValue) :
    isFinite ((now.ms / 1000 : Int) : Rat) = true ∧
      isFinite ((now.ms / 1000 + EXECUTOR_TOKEN_LIFETIME_SECONDS : Int) : Rat) = true := by
  have hlower := now.lower
  have hupper := now.upper
  have hbound : (8640000000000060 : Int) < 2 ^ 1024 - 2 ^ 970 := by decide +kernel
  have hfinite : ∀ n : Int, -8640000000000060 ≤ n → n ≤ 8640000000000060 →
      isFinite (n : Rat) = true := by
    intro n hlow hhigh
    simp only [isFinite, Bool.and_eq_true, decide_eq_true_eq]
    constructor
    · exact_mod_cast (by omega : -(2 ^ 1024 - 2 ^ 970 : Int) < n)
    · exact_mod_cast (by omega : n < (2 ^ 1024 - 2 ^ 970 : Int))
  unfold EXECUTOR_TOKEN_LIFETIME_SECONDS
  exact ⟨hfinite _ (by omega) (by omega), hfinite _ (by omega) (by omega)⟩

section Claims

variable {sha256 : List UInt8 → List UInt8} {input : SignExecutorTokenInput} {jti : String}

def claimMembers (sha256 : List UInt8 → List UInt8) (input : SignExecutorTokenInput) (jti : String) :
    List (String × Json) :=
  [("iss", .string EXECUTOR_TOKEN_ISSUER), ("aud", .string input.audience), ("iat", .int input.iat),
    ("exp", .int input.exp), ("jti", .string jti),
    ("bh", .string (String.ofList (base64url (sha256 input.body))))]

private theorem member_signed (sha256 : List UInt8 → List UInt8) (input : SignExecutorTokenInput)
    (jti : String) :
    stringOf (Json.member? (claimMembers sha256 input jti) "iss") = some EXECUTOR_TOKEN_ISSUER ∧
      stringOf (Json.member? (claimMembers sha256 input jti) "aud") = some input.audience ∧
      numberOf (Json.member? (claimMembers sha256 input jti) "iat") = some (Json.decimal input.iat 0) ∧
      numberOf (Json.member? (claimMembers sha256 input jti) "exp") = some (Json.decimal input.exp 0) ∧
      stringOf (Json.member? (claimMembers sha256 input jti) "jti") = some jti ∧
      stringOf (Json.member? (claimMembers sha256 input jti) "bh") =
        some (String.ofList (base64url (sha256 input.body))) := by
  refine ⟨rfl, rfl, rfl, rfl, rfl, rfl⟩

/-- The hash in the token is that of the body that was signed. -/
private theorem bodyHash_iff (body rawBody : List UInt8) :
    (String.ofList (base64url (sha256 body))).toList = Base64.unpadded '-' '_' (sha256 rawBody) ↔
      sha256 rawBody = sha256 body := by
  rw [String.toList_ofList, base64url_eq]
  constructor
  · intro h
    have hdecode := fun bytes =>
      Base64.decode_unpadded (fun n hn => (Base64.sextet?_letter hn).2) bytes 0
    simp only [List.replicate_zero, List.append_nil] at hdecode
    have hhash := congrArg Base64.decode h
    rw [hdecode, hdecode] at hhash
    exact hhash.symm
  · exact fun h => congrArg (Base64.unpadded '-' '_') h.symm

private theorem checkClaims_signed (hjti : IsUuid jti)
    (haudience : input.audience = EXPECTED_AUDIENCE) (rawBody : List UInt8) (nowSeconds : Int)
    (result : String × Rat) :
    checkClaims sha256 (claimMembers sha256 input jti) rawBody nowSeconds = .ok result ↔
      result = (jti, (input.exp : Rat)) ∧ sha256 rawBody = sha256 input.body ∧
        (input.iat : Rat) ≤ nowSeconds + CLOCK_SKEW_SECONDS ∧
        (nowSeconds : Rat) ≤ input.exp + CLOCK_SKEW_SECONDS := by
  obtain ⟨hiss, haud, hiat, hexp, hjti', hbh⟩ := member_signed sha256 input jti
  have hfinite := timeValue_finite input.nowMs
  have hlength := uuid_length hjti
  have hissuer : EXECUTOR_TOKEN_ISSUER = EXPECTED_ISSUER := rfl
  have hlifetime : ¬ ((input.exp : Rat) - (input.iat : Rat) > MAX_TOKEN_LIFETIME_SECONDS ∨
      (input.exp : Rat) ≤ (input.iat : Rat)) := by
    have hexp : (input.exp : Rat) = input.iat + 30 := by
      rw [SignExecutorTokenInput.exp, EXECUTOR_TOKEN_LIFETIME_SECONDS]
      push_cast
      rfl
    rw [hexp, MAX_TOKEN_LIFETIME_SECONDS]
    intro h
    rcases h with h | h
    · linarith
    · linarith
  simp only [checkClaims, demand_bind_ok, demandSome_bind_ok, hiss, haud, hiat, hexp, hjti', hbh,
    Json.decimal_int, Option.some.injEq, haudience, hissuer, exists_eq_left', true_and, gt_iff_lt,
    bodyHash_iff input.body rawBody]
  constructor
  · rintro ⟨-, -, hlate, hsoon, -, hbody, hresult⟩
    exact ⟨(Except.ok.inj hresult).symm, hbody, not_lt.mp hsoon, not_lt.mp hlate⟩
  · rintro ⟨rfl, hbody, hsoon, hlate⟩
    exact ⟨hfinite, hlifetime, not_lt.mpr hlate, not_lt.mpr hsoon, by omega, hbody, rfl⟩

/-- Which requests a signed token opens: those with the hash of the body it was signed for. -/
theorem checkRequestToken_signed {sign : List UInt8 → List UInt8}
    {verify : List UInt8 → List UInt8 → Bool} (hlength : ∀ message, (sign message).length = 64)
    (hverify : ∀ message, verify message (sign message) = true)
    (hjti : IsUuid jti) (haudience : input.audience = EXPECTED_AUDIENCE) (rawBody : List UInt8)
    (nowSeconds : Int) (result : String × Rat) :
    checkRequestToken verify sha256 (some ("Bearer " ++ signExecutorToken sign sha256 input jti))
        rawBody nowSeconds = .ok result ↔
      result = (jti, (input.exp : Rat)) ∧ sha256 rawBody = sha256 input.body ∧
        (input.iat : Rat) ≤ nowSeconds + CLOCK_SKEW_SECONDS ∧
        (nowSeconds : Rat) ≤ input.exp + CLOCK_SKEW_SECONDS := by
  have hclaims : decodeJson (jsonSegment (tokenClaims sha256 input jti)) =
      .ok (claimMembers sha256 input jti) := decodeJson_jsonSegment _
  have hsignature := checkSignature_signed sha256 input jti verify hlength hverify
  rw [← checkClaims_signed hjti haudience, checkRequestToken, bearerSegments_signed]
  simp only [bind, Except.bind, checkHeader_signed, hsignature, hclaims]

end Claims

/-! ## The replay cache -/

section Cache

variable {cache : JtiCache} {jti : String} {exp now : Rat}

/-- A token is claimed where no entry of its `jti` is left and there is room. -/
theorem JtiCache.claim_iff : (cache.claim jti exp now).1 = true ↔
    (cache.purge now).has jti = false ∧ (cache.purge now).entries.length < cache.maxEntries := by
  unfold JtiCache.claim
  have hmax : (cache.purge now).maxEntries = cache.maxEntries := rfl
  simp only [hmax]
  split
  · simp_all
  · split
    · simp_all
    · simp_all

/-- The entry is in the cache, or the token that brought it has expired. -/
def JtiCache.Remembers (cache : JtiCache) (jti : String) (exp now : Rat) : Prop :=
  (jti, exp) ∈ cache.entries ∨ exp + CLOCK_SKEW_SECONDS < now

theorem JtiCache.Remembers.purge {later : Rat} (h : cache.Remembers jti exp now) (hle : now ≤ later) :
    (cache.purge later).Remembers jti exp later := by
  by_cases hexpired : exp + CLOCK_SKEW_SECONDS < later
  · exact .inr hexpired
  · rcases h with h | h
    · exact .inl (List.mem_filter.mpr ⟨h, by simpa using hexpired⟩)
    · exact absurd (lt_of_lt_of_le h hle) hexpired

theorem JtiCache.Remembers.claim {later exp' : Rat} {jti' : String} (h : cache.Remembers jti exp now)
    (hle : now ≤ later) : (cache.claim jti' exp' later).2.Remembers jti exp later := by
  have hpurge := h.purge hle
  unfold JtiCache.claim
  simp only
  split
  · exact hpurge
  · split
    · exact hpurge
    · exact hpurge.imp_left fun hmem => List.mem_append_left _ hmem

theorem JtiCache.claim_remembers (h : (cache.claim jti exp now).1 = true) :
    (cache.claim jti exp now).2.Remembers jti exp now := by
  unfold JtiCache.claim at h ⊢
  simp only at h ⊢
  split
  · simp_all
  · split
    · simp_all
    · exact .inl (List.mem_append_right _ (List.mem_singleton.mpr rfl))

/-- A `jti` is claimed again only where the token that brought it has expired. -/
theorem JtiCache.Remembers.expired {later exp' : Rat} (h : cache.Remembers jti exp now)
    (hle : now ≤ later) (hclaim : (cache.claim jti exp' later).1 = true) :
    exp + CLOCK_SKEW_SECONDS < later := by
  rcases h.purge hle with hmem | hexpired
  · have hhas := (JtiCache.claim_iff.mp hclaim).1
    have : (cache.purge later).has jti = true :=
      List.any_eq_true.mpr ⟨_, hmem, by simp⟩
    simp_all
  · exact hexpired

end Cache

/-! ## Verifications -/

section Verifications

variable {verify : List UInt8 → List UInt8 → Bool} {sha256 : List UInt8 → List UInt8}

theorem verifyRequestToken_ok_iff {authorization : Option String} {rawBody : List UInt8} {nowMs : Int}
    {cache : JtiCache} :
    (verifyRequestToken verify sha256 authorization rawBody nowMs cache).1 = .ok () ↔
      ∃ jti exp, checkRequestToken verify sha256 authorization rawBody (secondsOf nowMs) =
        .ok (jti, exp) ∧ (cache.claim jti exp (secondsOf nowMs)).1 = true := by
  unfold verifyRequestToken
  split
  · simp_all
  · next jti exp hcheck =>
      simp only [hcheck, Except.ok.injEq, Prod.mk.injEq]
      cases hfresh : (cache.claim jti exp (secondsOf nowMs)).1 with
      | false => simp_all
      | true => exact ⟨fun _ => ⟨jti, exp, ⟨rfl, rfl⟩, hfresh⟩, fun _ => rfl⟩

/-- What is accepted has not expired, and is accepted for what it claims. -/
theorem checkRequestToken_claims {authorization : Option String} {rawBody : List UInt8} {now : Rat}
    {jti : String} {exp : Rat}
    (h : checkRequestToken verify sha256 authorization rawBody now = .ok (jti, exp)) :
    claimedBy authorization = .ok (jti, exp) ∧ now ≤ exp + CLOCK_SKEW_SECONDS := by
  simp only [checkRequestToken, bind_ok] at h
  obtain ⟨segments, hsegments, -, -, -, -, claims, hclaims, hcheck⟩ := h
  simp only [checkClaims, demand_bind_ok, demandSome_bind_ok] at hcheck
  obtain ⟨-, -, iat, -, exp', hexp, -, -, hlate, -, jti', hjti, -, bh, -, -, hresult⟩ := hcheck
  obtain ⟨rfl, rfl⟩ := Prod.mk.inj (Except.ok.inj hresult)
  refine ⟨?_, not_lt.mp hlate⟩
  rw [claimedBy, bind_ok]
  refine ⟨segments, hsegments, ?_⟩
  rw [bind_ok]
  refine ⟨claims, hclaims, ?_⟩
  rw [demandSome_bind_ok]
  refine ⟨jti', hjti, ?_⟩
  rw [demandSome_bind_ok]
  exact ⟨exp', hexp, rfl⟩

theorem verifier_step {maxEntries : Nat} (authorization : Option String) (rawBody : List UInt8)
    (nowMs : Int) (cache : JtiCache) :
    (verifier verify sha256 maxEntries).step cache
      ⟨authorization, rawBody, nowMs,
        (verifyRequestToken verify sha256 authorization rawBody nowMs cache).1⟩
      (verifyRequestToken verify sha256 authorization rawBody nowMs cache).2 :=
  Prod.ext rfl rfl

private theorem secondsOf_mono {earlier later : Int} (h : earlier ≤ later) :
    (secondsOf earlier : Rat) ≤ secondsOf later := by
  have hdiv : earlier / 1000 ≤ later / 1000 := Int.ediv_le_ediv (by decide) h
  exact_mod_cast hdiv

/-- One verification keeps what the cache remembers, whatever comes of it. -/
theorem JtiCache.Remembers.verified {cache : JtiCache} {jti : String} {exp : Rat}
    {authorization : Option String} {rawBody : List UInt8} {nowMs : Int}
    (h : cache.Remembers jti exp (secondsOf nowMs)) :
    (verifyRequestToken verify sha256 authorization rawBody nowMs cache).2.Remembers jti exp
      (secondsOf nowMs) := by
  unfold verifyRequestToken
  split
  · exact h
  · exact h.claim (le_refl _)

/-- Through a whole run each accepted token is remembered until it expires. -/
theorem verifier_remembers {maxEntries : Nat} {es : List Verification} {cache : JtiCache}
    (h : (verifier verify sha256 maxEntries).Run clockForward es cache) :
    ∀ v ∈ es, v.outcome = .ok () → ∀ jti exp, claimedBy v.authorization = .ok (jti, exp) →
      ∀ nowMs, (∀ e ∈ es, e.nowMs ≤ nowMs) → cache.Remembers jti exp (secondsOf nowMs) := by
  refine h.invariant (I := fun es cache => ∀ v ∈ es, v.outcome = .ok () → ∀ jti exp,
    claimedBy v.authorization = .ok (jti, exp) → ∀ nowMs, (∀ e ∈ es, e.nowMs ≤ nowMs) →
      cache.Remembers jti exp (secondsOf nowMs)) ?_ ?_
  · intro cache hinit v hv
    simp at hv
  · intro past cache e cache' hrun ih hstep hclock v hv haccepted jti exp hclaimed nowMs hnow
    have hlast : e.nowMs ≤ nowMs := hnow e List.mem_cons_self
    have hcache : (verifyRequestToken verify sha256 e.authorization e.rawBody e.nowMs cache).2 =
        cache' := congrArg Prod.snd hstep
    have hthen : cache'.Remembers jti exp (secondsOf e.nowMs) := by
      rcases List.mem_cons.mp hv with rfl | hv
      · have hok : (verifyRequestToken verify sha256 v.authorization v.rawBody v.nowMs cache).1 =
            .ok () := (congrArg Prod.fst hstep).trans haccepted
        obtain ⟨jti', exp', hcheck, hclaim⟩ := verifyRequestToken_ok_iff.mp hok
        have hsame := hclaimed.symm.trans (checkRequestToken_claims hcheck).1
        obtain ⟨rfl, rfl⟩ := Prod.mk.inj (Except.ok.inj hsame)
        have hremembers := JtiCache.claim_remembers hclaim
        rw [← hcache, verifyRequestToken, hcheck]
        exact hremembers
      · rw [← hcache]
        exact (ih v hv haccepted jti exp hclaimed e.nowMs hclock).verified
    exact hthen.imp_right fun hexpired => lt_of_lt_of_le hexpired (secondsOf_mono hlast)

/-- What two accepted verifications of a run have to do with each other. -/
def NotReplayed (later earlier : Verification) : Prop :=
  later.outcome = .ok () → earlier.outcome = .ok () →
    claimedBy later.authorization ≠ claimedBy earlier.authorization ∧
      ∀ jti exp exp', claimedBy earlier.authorization = .ok (jti, exp) →
        claimedBy later.authorization = .ok (jti, exp') →
          exp + CLOCK_SKEW_SECONDS < secondsOf later.nowMs

theorem verifier_notReplayed {maxEntries : Nat} {es : List Verification} {cache : JtiCache}
    (h : (verifier verify sha256 maxEntries).Run clockForward es cache) : es.Pairwise NotReplayed := by
  refine h.invariant (I := fun es _ => es.Pairwise NotReplayed) (fun _ _ => .nil) ?_
  intro past cache e cache' hrun ih hstep hclock
  refine List.pairwise_cons.mpr ⟨fun v hv hlater hearlier => ?_, ih⟩
  have hok : (verifyRequestToken verify sha256 e.authorization e.rawBody e.nowMs cache).1 = .ok () :=
    (congrArg Prod.fst hstep).trans hlater
  obtain ⟨jti, exp, hcheck, hclaim⟩ := verifyRequestToken_ok_iff.mp hok
  obtain ⟨hclaimed, hvalid⟩ := checkRequestToken_claims hcheck
  have hexpired : ∀ exp', claimedBy v.authorization = .ok (jti, exp') →
      exp' + CLOCK_SKEW_SECONDS < secondsOf e.nowMs := fun exp' hv' =>
    (verifier_remembers hrun v hv hearlier jti exp' hv' e.nowMs hclock).expired (le_refl _) hclaim
  constructor
  · intro hsame
    exact absurd hvalid (not_le.mpr (hexpired exp (hsame.symm.trans hclaimed)))
  · intro jti' exp₁ exp₂ hv' he
    obtain ⟨rfl, rfl⟩ := Prod.mk.inj (Except.ok.inj (hclaimed.symm.trans he))
    exact hexpired exp₁ hv'

/-- What an instance has just accepted it does not accept once more. -/
private theorem refused_again {maxEntries : Nat} {authorization : Option String}
    {rawBody : List UInt8} {nowMs : Int}
    (hpairwise : ∀ es cache, (verifier verify sha256 maxEntries).Run clockForward es cache →
      es.Pairwise NotReplayed)
    (haccepted : (verifyRequestToken verify sha256 authorization rawBody nowMs
      ⟨maxEntries, []⟩).1 = .ok ()) :
    (verifyRequestToken verify sha256 authorization rawBody nowMs
      (verifyRequestToken verify sha256 authorization rawBody nowMs ⟨maxEntries, []⟩).2).1 ≠
        .ok () := by
  intro hagain
  have hfirst : (verifier verify sha256 maxEntries).Run clockForward
      [⟨authorization, rawBody, nowMs,
        (verifyRequestToken verify sha256 authorization rawBody nowMs ⟨maxEntries, []⟩).1⟩]
      (verifyRequestToken verify sha256 authorization rawBody nowMs ⟨maxEntries, []⟩).2 :=
    .next (.start rfl) (verifier_step authorization rawBody nowMs _) fun _ h => absurd h (by simp)
  have hsecond := Transition.System.Run.next hfirst (verifier_step authorization rawBody nowMs _)
    fun earlier h => by simp_all
  have hpair := hpairwise _ _ hsecond
  exact (List.rel_of_pairwise_cons hpair List.mem_cons_self hagain haccepted).1 rfl

/-- A token of the Worker opens its own body while it is valid, new, and the cache has room.  No
two verifications of a run accept the same claims, in whatever way the tokens are written. -/
theorem executorToken_agreement {sign : List UInt8 → List UInt8}
    (hlength : ∀ message, (sign message).length = 64)
    (hverify : ∀ message, verify message (sign message) = true)
    (hinj : Function.Injective sha256) :
    (∀ (input : SignExecutorTokenInput) (jti : String) (rawBody : List UInt8) (nowMs : Int)
      (cache : JtiCache), IsUuid jti → input.audience = EXPECTED_AUDIENCE →
        ((verifyRequestToken verify sha256 (some ("Bearer " ++ signExecutorToken sign sha256 input jti))
            rawBody nowMs cache).1 = .ok () ↔
          rawBody = input.body ∧
            (input.iat : Rat) ≤ secondsOf nowMs + CLOCK_SKEW_SECONDS ∧
            (secondsOf nowMs : Rat) ≤ input.exp + CLOCK_SKEW_SECONDS ∧
            (cache.purge (secondsOf nowMs)).has jti = false ∧
            (cache.purge (secondsOf nowMs)).entries.length < cache.maxEntries)) ∧
      ∀ (maxEntries : Nat) (es : List Verification) (cache : JtiCache),
        (verifier verify sha256 maxEntries).Run clockForward es cache → es.Pairwise NotReplayed := by
  constructor
  · intro input jti rawBody nowMs cache hjti haudience
    rw [verifyRequestToken_ok_iff]
    have hsigned := @checkRequestToken_signed sha256 input jti sign verify hlength hverify hjti
      haudience rawBody (secondsOf nowMs)
    simp only [hinj.eq_iff] at hsigned
    constructor
    · rintro ⟨jti', exp, hcheck, hclaim⟩
      obtain ⟨hresult, hbody, hsoon, hlate⟩ := (hsigned _).mp hcheck
      obtain ⟨rfl, rfl⟩ := Prod.mk.inj hresult
      exact ⟨hbody, hsoon, hlate, JtiCache.claim_iff.mp hclaim⟩
    · rintro ⟨hbody, hsoon, hlate, hroom⟩
      exact ⟨jti, input.exp, (hsigned _).mpr ⟨rfl, hbody, hsoon, hlate⟩, JtiCache.claim_iff.mpr hroom⟩
  · intro maxEntries es cache hrun
    exact verifier_notReplayed hrun

end Verifications

/-! ## A token of one day -/

/-- SHA-256 of the empty body. -/
def emptyHash : List UInt8 :=
  [227, 176, 196, 66, 152, 252, 28, 20, 154, 251, 244, 200, 153, 111, 185, 36, 39, 174, 65, 228, 100,
    155, 147, 76, 164, 149, 153, 27, 120, 82, 184, 85]

/-- The signature of that day's token. -/
def sampleSignature : List UInt8 :=
  [65, 145, 225, 41, 70, 38, 10, 244, 209, 208, 5, 184, 87, 110, 70, 225, 126, 66, 129, 45, 15, 200,
    103, 203, 69, 131, 39, 176, 208, 11, 82, 157, 201, 180, 174, 172, 46, 168, 168, 158, 33, 186, 74,
    198, 25, 169, 86, 172, 132, 175, 198, 94, 248, 195, 38, 208, 25, 180, 199, 46, 167, 102, 199, 13]

def sampleSign (_ : List UInt8) : List UInt8 := sampleSignature

def sampleVerify (_ signature : List UInt8) : Bool := signature == sampleSignature

def sampleHash (body : List UInt8) : List UInt8 := emptyHash ++ body

def sampleInput : SignExecutorTokenInput := ⟨EXPECTED_AUDIENCE, [], 1750000000000, by decide, by decide⟩

def sampleJti : String := "3f2b6c1e-9d47-4a8e-b0c5-7e1f20a4d96b"

example : jsonSegment tokenHeader = "eyJhbGciOiJFZERTQSIsInR5cCI6IkpXVCJ9".toList := by
  decide +kernel

private theorem sampleJti_uuid : IsUuid sampleJti := ⟨by decide +kernel, by decide +kernel⟩

def sampleAuthorization : Option String :=
  some ("Bearer " ++ signExecutorToken sampleSign sampleHash sampleInput sampleJti)

/-- In its last second the token is accepted, and then no more. -/
theorem executorToken_agreement_sample :
    (verifyRequestToken sampleVerify sampleHash sampleAuthorization [] 1750000035999
        ⟨MAX_JTI_ENTRIES, []⟩).1 = .ok () ∧
      (verifyRequestToken sampleVerify sampleHash sampleAuthorization [] 1750000035999
        (verifyRequestToken sampleVerify sampleHash sampleAuthorization [] 1750000035999
          ⟨MAX_JTI_ENTRIES, []⟩).2).1 ≠ .ok () := by
  have hagreement := @executorToken_agreement sampleVerify sampleHash sampleSign (fun _ => rfl)
    (fun _ => by simp [sampleVerify, sampleSign]) (fun _ _ h => List.append_cancel_left h)
  have haccepted : (verifyRequestToken sampleVerify sampleHash sampleAuthorization [] 1750000035999
      ⟨MAX_JTI_ENTRIES, []⟩).1 = .ok () :=
    (hagreement.1 sampleInput sampleJti [] 1750000035999 ⟨MAX_JTI_ENTRIES, []⟩ sampleJti_uuid rfl).mpr
      ⟨rfl, by decide +kernel, by decide +kernel, rfl, by decide⟩
  exact ⟨haccepted, refused_again (hagreement.2 MAX_JTI_ENTRIES) haccepted⟩

end Utsuroi
