import Utsuroi.Normalize.Include

/-!
# The scanner keeps the text between markers

Markers are told apart from text because no text contains the token.  Where they are properly nested
the depth of the scanner is the depth of the nesting.
-/

namespace Utsuroi

/-! ## Texts with markers -/

inductive MarkedPart
  | char (c : Char)
  | mark (marker : Marker)

/-- The text with the markers written out. -/
def renderParts (token : IncludeToken) : List MarkedPart → List Char
  | [] => []
  | .char c :: parts => c :: renderParts token parts
  | .mark marker :: parts => buildIncludeMarker token marker ++ renderParts token parts

/-- The text without the markers. -/
def plainParts : List MarkedPart → List Char
  | [] => []
  | .char c :: parts => c :: plainParts parts
  | .mark _ :: parts => plainParts parts

/-- The text at a depth above 0. -/
def keptParts : Nat → List MarkedPart → List Char
  | _, [] => []
  | depth, .char c :: parts => keptAt depth [c] ++ keptParts depth parts
  | depth, .mark marker :: parts => keptParts (nextDepth depth marker) parts

section Scanner

variable {token : IncludeToken} {marker : Marker} {c : Char} {html text : List Char}
  {parts : List MarkedPart} {depth : Nat}

private theorem token_not_mem (h : c ∈ token.chars) : c ≠ '<' := by
  rintro rfl
  rcases token.uuid '<' h with hdigit | hhyphen
  · exact absurd hdigit (by decide)
  · exact absurd hhyphen (by decide)

/-- A marker begins with `<` and has none behind it. -/
theorem buildIncludeMarker_cons (token : IncludeToken) (marker : Marker) :
    ∃ rest, buildIncludeMarker token marker = '<' :: rest ∧ '<' ∉ rest := by
  cases marker with
  | start =>
      refine ⟨"!--utsuroi:include-start:".toList ++ token.chars ++ "-->".toList, rfl, ?_⟩
      simp only [List.mem_append, not_or]
      exact ⟨⟨by decide, fun h => token_not_mem h rfl⟩, by decide⟩
  | stop =>
      refine ⟨"!--utsuroi:include-end:".toList ++ token.chars ++ "-->".toList, rfl, ?_⟩
      simp only [List.mem_append, not_or]
      exact ⟨⟨by decide, fun h => token_not_mem h rfl⟩, by decide⟩

theorem token_contained (token : IncludeToken) (marker : Marker) :
    token.chars <:+: buildIncludeMarker token marker :=
  ⟨markerStart marker, "-->".toList, rfl⟩

/-- No `<` stands before the next marker but in the text. -/
theorem prefix_plain (hno : '<' ∉ text) (h : text <+: renderParts token parts) :
    text <+: plainParts parts := by
  induction parts generalizing text with
  | nil => exact h
  | cons part parts ih =>
      cases text with
      | nil => exact List.nil_prefix
      | cons d text =>
          rw [List.mem_cons, not_or] at hno
          cases part with
          | char c =>
              obtain ⟨rfl, hrest⟩ := List.cons_prefix_cons.mp h
              exact List.cons_prefix_cons.mpr ⟨rfl, ih hno.2 hrest⟩
          | mark marker =>
              obtain ⟨rest, hmarker, -⟩ := buildIncludeMarker_cons token marker
              rw [renderParts, hmarker, List.cons_append] at h
              exact absurd (List.cons_prefix_cons.mp h).1.symm hno.1

/-- Text that does not contain the token is not taken for a marker. -/
theorem markerAt_char (h : ¬token.chars <:+: plainParts (.char c :: parts)) :
    markerAt token (renderParts token (.char c :: parts)) = none := by
  have hno : ∀ marker, (buildIncludeMarker token marker).isPrefixOf
      (renderParts token (.char c :: parts)) = false := by
    intro marker
    rw [Bool.eq_false_iff]
    intro hstarts
    obtain ⟨rest, hmarker, hrest⟩ := buildIncludeMarker_cons token marker
    rw [List.isPrefixOf_iff_prefix, hmarker, renderParts, List.cons_prefix_cons] at hstarts
    have hplain : buildIncludeMarker token marker <+: plainParts (.char c :: parts) := by
      rw [hmarker, plainParts, List.cons_prefix_cons]
      exact ⟨hstarts.1, prefix_plain hrest hstarts.2⟩
    exact h ((token_contained token marker).trans hplain.isInfix)
  rw [markerAt, hno .start, hno .stop]
  rfl

theorem markerAt_mark (marker : Marker) (html : List Char) :
    markerAt token (buildIncludeMarker token marker ++ html) = some marker := by
  cases marker with
  | start =>
      have hstart : (buildIncludeMarker token .start).isPrefixOf
          (buildIncludeMarker token .start ++ html) = true := by
        rw [List.isPrefixOf_iff_prefix]
        exact List.prefix_append _ _
      rw [markerAt, hstart]
      rfl
  | stop =>
      have hstart : (buildIncludeMarker token .start).isPrefixOf
          (buildIncludeMarker token .stop ++ html) = false := by
        rfl
      have hstop : (buildIncludeMarker token .stop).isPrefixOf
          (buildIncludeMarker token .stop ++ html) = true := by
        rw [List.isPrefixOf_iff_prefix]
        exact List.prefix_append _ _
      rw [markerAt, hstart, hstop]
      rfl

private theorem keptAt_append (depth : Nat) (before after : List Char) :
    keptAt depth (before ++ after) = keptAt depth before ++ keptAt depth after := by
  unfold keptAt
  split
  · rfl
  · rfl

theorem extractFrom_eq (token : IncludeToken) (depth : Nat) (html : List Char) :
    extractFrom token depth html = (nextMarker token html).elim (keptAt depth html) fun found =>
      keptAt depth found.before ++ extractFrom token (nextDepth depth found.marker) found.after := by
  rw [extractFrom]
  split
  next hnone => rw [hnone, Option.elim_none]
  next found hfound => rw [hfound, Option.elim_some]

theorem extractFrom_nil : extractFrom token depth [] = [] := by
  rw [extractFrom_eq]
  simp [nextMarker, keptAt]

/-- A character that begins no marker is kept or left out by itself. -/
theorem extractFrom_char (h : markerAt token (c :: html) = none) :
    extractFrom token depth (c :: html) = keptAt depth [c] ++ extractFrom token depth html := by
  rw [extractFrom_eq, nextMarker, h, extractFrom_eq token depth html]
  cases nextMarker token html with
  | none => exact keptAt_append depth [c] html
  | some found =>
      simp only [Option.map_some, Option.elim_some]
      rw [← List.append_assoc, ← keptAt_append]
      rfl

theorem extractFrom_mark (marker : Marker) :
    extractFrom token depth (buildIncludeMarker token marker ++ html) =
      extractFrom token (nextDepth depth marker) html := by
  obtain ⟨rest, hmarker, -⟩ := buildIncludeMarker_cons token marker
  have hat := @markerAt_mark token marker html
  have hdrop : (buildIncludeMarker token marker ++ html).drop
      (buildIncludeMarker token marker).length = html := List.drop_left
  rw [hmarker, List.cons_append] at hat
  rw [extractFrom_eq]
  conv_lhs =>
    rw [hmarker, List.cons_append, nextMarker, hat]
  simp only [Option.elim_some]
  rw [← List.cons_append, ← hmarker, hdrop]
  simp [keptAt]

/-- The scanner keeps what stands at a depth above 0. -/
theorem extractFrom_parts (h : ¬token.chars <:+: plainParts parts) :
    extractFrom token depth (renderParts token parts) = keptParts depth parts := by
  induction parts generalizing depth with
  | nil => exact extractFrom_nil
  | cons part parts ih =>
      cases part with
      | char c =>
          have hrest : ¬token.chars <:+: plainParts parts := fun hcontained =>
            h (hcontained.trans (List.suffix_cons c (plainParts parts)).isInfix)
          rw [renderParts, extractFrom_char (markerAt_char h), ih hrest, keptParts]
      | mark marker => rw [renderParts, extractFrom_mark, ih h, keptParts]

end Scanner

/-! ## Properly nested markers -/

/-- A text with regions, which may hold others. -/
inductive MarkedText
  | done
  | char (c : Char) (rest : MarkedText)
  | region (inner rest : MarkedText)

namespace MarkedText

/-- The text alone. -/
def plain : MarkedText → List Char
  | done => []
  | char c rest => c :: rest.plain
  | region inner rest => inner.plain ++ rest.plain

/-- The text with a marker at each end of a region. -/
def render (token : IncludeToken) : MarkedText → List Char
  | done => []
  | char c rest => c :: rest.render token
  | region inner rest =>
    buildIncludeMarker token .start ++ inner.render token ++ buildIncludeMarker token .stop ++
      rest.render token

/-- What stands in at least one region, within `depth` others. -/
def included : Nat → MarkedText → List Char
  | _, done => []
  | depth, char c rest => keptAt depth [c] ++ included depth rest
  | depth, region inner rest => included (depth + 1) inner ++ included depth rest

def parts : MarkedText → List MarkedPart
  | done => []
  | char c rest => .char c :: rest.parts
  | region inner rest => .mark .start :: (inner.parts ++ .mark .stop :: rest.parts)

end MarkedText

section Nesting

variable {token : IncludeToken}

private theorem renderParts_append (before after : List MarkedPart) :
    renderParts token (before ++ after) = renderParts token before ++ renderParts token after := by
  induction before with
  | nil => rfl
  | cons part before ih =>
      cases part with
      | char c => simp only [List.cons_append, renderParts, ih]
      | mark marker => simp only [List.cons_append, renderParts, ih, List.append_assoc]

private theorem plainParts_append (before after : List MarkedPart) :
    plainParts (before ++ after) = plainParts before ++ plainParts after := by
  induction before with
  | nil => rfl
  | cons part before ih =>
      cases part with
      | char c => simp only [List.cons_append, plainParts, ih]
      | mark marker => simp only [List.cons_append, plainParts, ih]

theorem MarkedText.render_eq (text : MarkedText) :
    text.render token = renderParts token text.parts := by
  induction text with
  | done => rfl
  | char c rest ih => rw [render, parts, renderParts, ih]
  | region inner rest ihInner ih =>
      rw [render, parts, renderParts, renderParts_append, renderParts, ihInner, ih]
      simp only [List.append_assoc]

theorem MarkedText.plain_eq (text : MarkedText) : text.plain = plainParts text.parts := by
  induction text with
  | done => rfl
  | char c rest ih => rw [plain, parts, plainParts, ih]
  | region inner rest ihInner ih =>
      rw [plain, parts, plainParts, plainParts_append, plainParts, ihInner, ih]

/-- Behind a properly nested text the scanner is at the depth it had before. -/
theorem MarkedText.kept (text : MarkedText) (depth : Nat) (after : List MarkedPart) :
    keptParts depth (text.parts ++ after) = text.included depth ++ keptParts depth after := by
  induction text generalizing depth after with
  | done => rfl
  | char c rest ih =>
      rw [parts, List.cons_append, keptParts, ih, included, List.append_assoc]
  | region inner rest ihInner ih =>
      rw [parts, List.cons_append, keptParts, List.append_assoc, List.cons_append, ihInner, keptParts,
        ih, included, List.append_assoc]
      have hdepth : nextDepth (nextDepth depth .start) .stop = depth := by simp [nextDepth]
      rw [hdepth]
      rfl

/-- What is in a region is kept whole. -/
theorem MarkedText.included_succ (text : MarkedText) (depth : Nat) :
    text.included (depth + 1) = text.plain := by
  induction text generalizing depth with
  | done => rfl
  | char c rest ih =>
      rw [included, ih, plain]
      rfl
  | region inner rest ihInner ih => rw [included, ihInner, ih, plain]

/-- Of properly nested regions exactly the text in them is extracted, each once and in order,
whatever the token is. -/
theorem extractIncludedRegions_nested (text : MarkedText) :
    (∀ token : IncludeToken, ¬token.chars <:+: text.plain →
      extractIncludedRegions (text.render token) token = text.included 0) ∧
    (∀ inner rest, text = .region inner rest → text.included 0 = inner.plain ++ rest.included 0) ∧
    ∀ token token' : IncludeToken, ¬token.chars <:+: text.plain → ¬token'.chars <:+: text.plain →
      extractIncludedRegions (text.render token) token =
        extractIncludedRegions (text.render token') token' := by
  have hextract : ∀ token : IncludeToken, ¬token.chars <:+: text.plain →
      extractIncludedRegions (text.render token) token = text.included 0 := by
    intro token hfree
    rw [text.plain_eq] at hfree
    have hkept := text.kept 0 []
    rw [List.append_nil, keptParts, List.append_nil] at hkept
    rw [extractIncludedRegions, text.render_eq, extractFrom_parts hfree, hkept]
  refine ⟨hextract, ?_, ?_⟩
  · intro inner rest htext
    rw [htext, MarkedText.included, MarkedText.included_succ]
  · intro token token' hfree hfree'
    rw [hextract token hfree, hextract token' hfree']

end Nesting

/-- `crypto.randomUUID()` -/
private def pageToken : IncludeToken :=
  have hall : ("0b7e5c1d-52a4-4f0e-9c3b-6f1de28a7740".toList.all fun c =>
      Positional.isDigit 16 c || c == '-') = true := by decide +kernel
  ⟨"0b7e5c1d-52a4-4f0e-9c3b-6f1de28a7740".toList, by decide +kernel, fun c hc => by
    simpa using List.all_eq_true.mp hall c hc⟩

/-- A region in a region, and text on both sides that is left out. -/
private def nestedPage : MarkedText :=
  .char 'a' (.region (.char 'b' (.region (.char 'c' .done) (.char 'd' .done))) (.char 'e' .done))

theorem extractIncludedRegions_nested_page :
    extractIncludedRegions (nestedPage.render pageToken) pageToken = ['b', 'c', 'd'] :=
  (extractIncludedRegions_nested nestedPage).1 pageToken (by decide)

end Utsuroi
