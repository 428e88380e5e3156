import Utsuroi.Framework.Positional

/-!
# Included regions

Elements that match an include selector are put between comments that carry a random token.  The
text between these markers is what is kept of a page.
-/

namespace Utsuroi

/-- What `crypto.randomUUID` makes: hexadecimal digits and hyphens. -/
structure IncludeToken where
  chars : List Char
  length : chars.length = 36
  uuid : ∀ c ∈ chars, Positional.isDigit 16 c = true ∨ c = '-'

inductive Marker
  | start
  | stop
  deriving DecidableEq, Repr

def markerStart : Marker → List Char
  | .start => "<!--utsuroi:include-start:".toList
  | .stop => "<!--utsuroi:include-end:".toList

/-- `buildIncludeMarkers` -/
def buildIncludeMarker (token : IncludeToken) (marker : Marker) : List Char :=
  markerStart marker ++ token.chars ++ "-->".toList

/-- The marker at the start of the text, which `markerRe` matches; the token is escaped in it. -/
def markerAt (token : IncludeToken) (html : List Char) : Option Marker :=
  if (buildIncludeMarker token .start).isPrefixOf html then some .start
  else if (buildIncludeMarker token .stop).isPrefixOf html then some .stop
  else none

/-- What a match of `markerRe` finds. -/
structure MarkerMatch where
  before : List Char
  marker : Marker
  after : List Char

/-- `markerRe.exec(html)` -/
def nextMarker (token : IncludeToken) : List Char → Option MarkerMatch
  | [] => none
  | c :: html =>
    match markerAt token (c :: html) with
    | some marker => some ⟨[], marker, (c :: html).drop (buildIncludeMarker token marker).length⟩
    | none => (nextMarker token html).map fun found => { found with before := c :: found.before }

def nextDepth (depth : Nat) : Marker → Nat
  | .start => depth + 1
  | .stop => max 0 (depth - 1)

/-- What is kept of a text at this depth. -/
def keptAt (depth : Nat) (text : List Char) : List Char := if 0 < depth then text else []

theorem buildIncludeMarker_length (token : IncludeToken) (marker : Marker) :
    0 < (buildIncludeMarker token marker).length := by
  simp [buildIncludeMarker]

theorem nextMarker_shorter {token : IncludeToken} {html : List Char} {found : MarkerMatch}
    (h : nextMarker token html = some found) : found.after.length < html.length := by
  induction html generalizing found with
  | nil => contradiction
  | cons c html ih =>
      rw [nextMarker] at h
      split at h
      next marker hmarker =>
        obtain rfl := Option.some.inj h
        have hlength := buildIncludeMarker_length token marker
        simp only [List.length_drop, List.length_cons]
        omega
      next hnone =>
        obtain ⟨inner, hinner, heq⟩ := Option.map_eq_some_iff.mp h
        have hshorter := ih hinner
        rw [← heq]
        exact Nat.lt_succ_of_lt hshorter

/-- The loop over the markers, at a depth and with the text behind the last one. -/
def extractFrom (token : IncludeToken) (depth : Nat) (html : List Char) : List Char :=
  match _hfound : nextMarker token html with
  | none => keptAt depth html
  | some found =>
    keptAt depth found.before ++ extractFrom token (nextDepth depth found.marker) found.after
  termination_by html.length
  decreasing_by exact nextMarker_shorter _hfound

def extractIncludedRegions (html : List Char) (token : IncludeToken) : List Char :=
  extractFrom token 0 html

end Utsuroi
