import Utsuroi.Normalize.Url

/-!
# Tracking parameters

A URL and the same URL with tracking parameters put into its query are read as one link only where
writing the query anew spells the other parameters as they were.
-/

namespace Utsuroi

open UrlEncoded (parts readPair spellPair serialise Written)

namespace UrlRecord

def withQuery (url : UrlRecord) (query : Option (List Char)) : UrlRecord := { url with query := query }

theorem toString_withQuery_inj {url : UrlRecord} {query query' : Option (List Char)} :
    (url.withQuery query).toString = (url.withQuery query').toString ↔ query = query' := by
  constructor
  · intro h
    have hlist := congrArg String.toList h
    simp only [toString, withQuery, String.toList_ofList, List.append_cancel_right_eq,
      List.append_cancel_left_eq] at hlist
    cases query with
    | none =>
        cases query' with
        | none => rfl
        | some text' => exact absurd hlist (by simp)
    | some text =>
        cases query' with
        | none => exact absurd hlist (by simp)
        | some text' => simpa using hlist
  · intro h
    rw [h]

end UrlRecord

/-- What stands between the `&` of a query. -/
def segments (query : Option (List Char)) : List (List Char) := query.elim [] (·.splitOn '&')

/-- The parameters of a query as they are spelled in it. -/
def parameters (query : Option (List Char)) : List (List Char) := parts (query.getD [])

theorem parameters_eq (query : Option (List Char)) :
    parameters query = (segments query).filter (· ≠ []) := by
  cases query with
  | none => exact UrlEncoded.parts_nil
  | some text => rfl

theorem segments_inj {query query' : Option (List Char)} (h : segments query = segments query') :
    query = query' := by
  cases query with
  | none =>
      cases query' with
      | none => rfl
      | some text' => exact absurd h.symm (List.splitOn_ne_nil '&' text')
  | some text =>
      cases query' with
      | none => exact absurd h (List.splitOn_ne_nil '&' text)
      | some text' =>
          have htext := congrArg (['&'].intercalate) h
          simp only [segments, Option.elim_some, List.intercalate_splitOn] at htext
          rw [htext]

section Delete

/-- What `update` makes of the query. -/
def writtenQuery (pairs : List UrlEncoded.Pair) : Option (List Char) :=
  if serialise pairs = [] then none else some (serialise pairs)

theorem update_eq (params : SearchParams) :
    params.update = ⟨params.url.withQuery (writtenQuery params.list), params.list⟩ := rfl

theorem writtenQuery_nil : writtenQuery [] = none := by
  simp [writtenQuery, serialise]

theorem writtenQuery_of_ne_nil {pairs : List UrlEncoded.Pair} (h : pairs ≠ []) :
    writtenQuery pairs = some (serialise pairs) :=
  if_neg fun hnil => h (UrlEncoded.serialise_eq_nil.mp hnil)

theorem segments_writtenQuery (pairs : List UrlEncoded.Pair) :
    segments (writtenQuery pairs) = pairs.map spellPair := by
  by_cases h : pairs = []
  · rw [h, writtenQuery_nil]
    rfl
  · rw [writtenQuery_of_ne_nil h]
    exact UrlEncoded.splitOn_serialise h

theorem parameters_writtenQuery (pairs : List UrlEncoded.Pair) :
    parameters (writtenQuery pairs) = pairs.map spellPair := by
  rw [parameters_eq, segments_writtenQuery, List.filter_eq_self]
  intro part hpart
  obtain ⟨pair, _, rfl⟩ := List.mem_map.mp hpart
  exact decide_eq_true (UrlEncoded.spellPair_ne_nil pair)

private theorem delete_list (list : List UrlEncoded.Pair) (key : List Char)
    (keys : List (List Char)) :
    (list.filter fun pair => pair.1 != key).filter (fun pair => !keys.contains pair.1) =
      list.filter fun pair => !(key :: keys).contains pair.1 := by
  rw [List.filter_filter]
  congr 1
  funext pair
  rw [List.contains_cons, Bool.not_or, Bool.and_comm]
  rfl

/-- Deleting key after key leaves what none of them names, written once. -/
theorem foldl_delete (keys : List (List Char)) (params : SearchParams) (h : keys ≠ []) :
    keys.foldl SearchParams.delete params =
      SearchParams.update { params with list := params.list.filter fun pair => !keys.contains pair.1 } := by
  induction keys generalizing params with
  | nil => exact absurd rfl h
  | cons key keys ih =>
      rw [← delete_list]
      cases keys with
      | nil => simp [SearchParams.delete]
      | cons next keys =>
          rw [List.foldl_cons, ih _ (List.cons_ne_nil next keys)]
          rfl

end Delete

section Neutral

variable (platform : UrlPlatform) (patterns : List String)

/-- The name of the parameter matches a pattern. -/
def tracked (part : List Char) : Bool := matchesAnyPattern platform patterns (readPair part).1

/-- The parameters that stay. -/
def untracked (query : Option (List Char)) : List (List Char) :=
  (parameters query).filter fun part => !tracked platform patterns part

/-- What `stripTrackingParams` makes of a query. -/
def strippedQuery (query : Option (List Char)) : Option (List Char) :=
  if (parameters query).any (tracked platform patterns) then
    writtenQuery ((untracked platform patterns query).map readPair)
  else query

private theorem contains_name {texts : List (List Char)} {part : List Char} (h : part ∈ texts) :
    ((texts.filter (tracked platform patterns)).map (Prod.fst ∘ readPair)).contains
      (readPair part).1 = tracked platform patterns part := by
  rw [Bool.eq_iff_iff, List.contains_iff_mem, List.mem_map]
  constructor
  · rintro ⟨other, hother, hname⟩
    have htracked := (List.mem_filter.mp hother).2
    rw [tracked] at htracked ⊢
    rwa [← hname]
  · intro htracked
    exact ⟨part, List.mem_filter.mpr ⟨h, htracked⟩, rfl⟩

theorem stripTrackingParams_url (url : UrlRecord) :
    (stripTrackingParams platform patterns url.searchParams).url =
      url.withQuery (strippedQuery platform patterns url.query) := by
  have hkeys : url.searchParams.keys.filter (matchesAnyPattern platform patterns) =
      ((parameters url.query).filter (tracked platform patterns)).map (Prod.fst ∘ readPair) := by
    rw [SearchParams.keys, UrlRecord.searchParams, UrlEncoded.parse, List.map_map, List.filter_map]
    rfl
  simp only [stripTrackingParams, hkeys, strippedQuery]
  by_cases hany : (parameters url.query).any (tracked platform patterns) = true
  · obtain ⟨part, hpart, htracked⟩ := List.any_eq_true.mp hany
    have hne : ((parameters url.query).filter (tracked platform patterns)).map
        (Prod.fst ∘ readPair) ≠ [] := by
      rw [ne_eq, List.map_eq_nil_iff, List.filter_eq_nil_iff]
      exact fun hnone => hnone part hpart htracked
    have hlist : (url.searchParams.list.filter fun pair =>
        !(((parameters url.query).filter (tracked platform patterns)).map
          (Prod.fst ∘ readPair)).contains pair.1) =
        (untracked platform patterns url.query).map readPair := by
      rw [UrlRecord.searchParams, UrlEncoded.parse, List.filter_map]
      exact congrArg (List.map readPair) (List.filter_congr fun other hother =>
        congrArg Bool.not (contains_name platform patterns hother))
    rw [if_pos hany, foldl_delete _ _ hne, update_eq]
    simp only [hlist]
    rfl
  · have hnil : (parameters url.query).filter (tracked platform patterns) = [] :=
      List.filter_eq_nil_iff.mpr fun part hpart htracked =>
        hany (List.any_eq_true.mpr ⟨part, hpart, htracked⟩)
    rw [if_neg hany, hnil]
    rfl

/-- Parameters that match a pattern are put between the segments. -/
inductive Inserted : List (List Char) → List (List Char) → Prop
  | nil : Inserted [] []
  | keep (part : List Char) {texts texts' : List (List Char)} :
      Inserted texts texts' → Inserted (part :: texts) (part :: texts')
  | insert (part : List Char) {texts texts' : List (List Char)} (hne : part ≠ [])
      (htracked : tracked platform patterns part = true) :
      Inserted texts texts' → Inserted texts (part :: texts')

/-- The second query is the first with parameters that match a pattern put into it; into an empty
query they go as they are. -/
def AddsTracked (query query' : Option (List Char)) : Prop :=
  Inserted platform patterns (segments query) (segments query') ∨
    query = some [] ∧ query' ≠ none ∧ Inserted platform patterns [] (segments query')

variable {platform patterns} {query query' : Option (List Char)}

private theorem Inserted.filter_eq {texts texts' : List (List Char)}
    (h : Inserted platform patterns texts texts') :
    (texts'.filter (· ≠ [])).filter (fun part => !tracked platform patterns part) =
      (texts.filter (· ≠ [])).filter (fun part => !tracked platform patterns part) := by
  induction h with
  | nil => rfl
  | keep part _ ih =>
      simp only [List.filter_filter] at ih ⊢
      simp only [List.filter_cons, ih]
  | insert part _ htracked _ ih =>
      simp only [List.filter_filter] at ih ⊢
      rw [List.filter_cons_of_neg (by simp [htracked]), ih]

private theorem Inserted.eq_of_untracked {texts texts' : List (List Char)}
    (h : Inserted platform patterns texts texts')
    (hnone : ∀ part ∈ texts'.filter (· ≠ []), tracked platform patterns part = false) :
    texts' = texts := by
  induction h with
  | nil => rfl
  | keep part _ ih =>
      rw [ih fun other hother => hnone other ?_]
      rw [List.filter_cons]
      split
      · exact List.mem_cons_of_mem part hother
      · exact hother
  | insert part hne htracked _ _ =>
      have hfalse := hnone part (List.mem_filter.mpr ⟨List.mem_cons_self, decide_eq_true hne⟩)
      rw [htracked] at hfalse
      exact absurd hfalse (by decide)

theorem AddsTracked.untracked_eq (h : AddsTracked platform patterns query query') :
    untracked platform patterns query' = untracked platform patterns query := by
  simp only [untracked, parameters_eq]
  rcases h with h | ⟨rfl, _, h⟩
  · exact h.filter_eq
  · have hempty : (segments (some [])).filter (· ≠ []) = [] := by simp [segments]
    rw [hempty]
    exact h.filter_eq

theorem AddsTracked.eq_of_untracked (h : AddsTracked platform patterns query query')
    (hnone : ∀ part ∈ parameters query', tracked platform patterns part = false) :
    query' = query := by
  rw [parameters_eq] at hnone
  rcases h with h | ⟨rfl, hsome, h⟩
  · exact segments_inj (h.eq_of_untracked hnone)
  · exact absurd (segments_inj (h.eq_of_untracked hnone : segments query' = segments none)) hsome

theorem strippedQuery_of_untracked
    (h : ∀ part ∈ parameters query, tracked platform patterns part = false) :
    strippedQuery platform patterns query = query := by
  refine if_neg fun hany => ?_
  obtain ⟨part, hpart, htracked⟩ := List.any_eq_true.mp hany
  rw [h part hpart] at htracked
  exact absurd htracked (by decide)

theorem strippedQuery_of_tracked
    (h : ∃ part ∈ parameters query, tracked platform patterns part = true) :
    strippedQuery platform patterns query =
      writtenQuery ((untracked platform patterns query).map readPair) :=
  if_pos (List.any_eq_true.mpr h)

/-- Writing a query anew changes nothing when its parameters are spelled as they are written and
no segment of it is empty. -/
theorem writtenQuery_parameters (hwritten : ∀ part ∈ parameters query, Written part) :
    writtenQuery ((parameters query).map readPair) = query ↔
      ∀ segment ∈ segments query, segment ≠ [] := by
  have hback := (UrlEncoded.map_spellPair_readPair (parameters query)).mpr hwritten
  constructor
  · intro heq segment hsegment
    rw [← heq, segments_writtenQuery] at hsegment
    obtain ⟨pair, _, rfl⟩ := List.mem_map.mp hsegment
    exact UrlEncoded.spellPair_ne_nil pair
  · intro hsegments
    apply segments_inj
    rw [segments_writtenQuery, hback, parameters_eq, List.filter_eq_self]
    exact fun segment hsegment => decide_eq_true (hsegments segment hsegment)

theorem normalizeUrlAttribute_query {value baseUrl : String} {url : UrlRecord}
    (h : HoldsUrl platform value baseUrl url) :
    normalizeUrlAttribute platform value baseUrl patterns =
      (url.withQuery (strippedQuery platform patterns url.query)).toString := by
  rw [normalizeUrlAttribute_of_url h, stripTrackingParams_url]

theorem parameters_strippedQuery (htracked : ∃ part ∈ parameters query,
    tracked platform patterns part = true) :
    parameters (strippedQuery platform patterns query) = untracked platform patterns query ↔
      ∀ part ∈ untracked platform patterns query, Written part := by
  rw [strippedQuery_of_tracked htracked, parameters_writtenQuery]
  exact UrlEncoded.map_spellPair_readPair (untracked platform patterns query)

/-- Where tracking parameters are put into a query, what is left is the same as without them. -/
theorem strippedQuery_inserted (hadds : AddsTracked platform patterns query query')
    (htracked : ∃ part ∈ parameters query', tracked platform patterns part = true)
    (hwritten : ∀ part ∈ untracked platform patterns query, Written part) :
    strippedQuery platform patterns query' = strippedQuery platform patterns query ↔
      (∃ part ∈ parameters query, tracked platform patterns part = true) ∨
        ∀ segment ∈ segments query, segment ≠ [] := by
  rw [strippedQuery_of_tracked htracked, hadds.untracked_eq]
  by_cases hold : ∃ part ∈ parameters query, tracked platform patterns part = true
  · rw [strippedQuery_of_tracked hold]
    exact iff_of_true rfl (.inl hold)
  · have hnone : ∀ part ∈ parameters query, tracked platform patterns part = false :=
      fun part hpart => Bool.eq_false_iff.mpr fun h => hold ⟨part, hpart, h⟩
    have hall : untracked platform patterns query = parameters query :=
      List.filter_eq_self.mpr fun part hpart => by rw [hnone part hpart]; rfl
    rw [hall] at hwritten ⊢
    rw [strippedQuery_of_untracked hnone, writtenQuery_parameters hwritten, or_iff_right hold]

/-- Tracking parameters put into the query of a link leave no trace, and the other parameters stay as
they were spelled, exactly when nothing is deleted or the parameters that stay are spelled as
`URLSearchParams` writes them and the query without the new ones either lost a parameter too or has
no empty segment. -/
theorem normalizeUrlAttribute_neutral_iff {value value' baseUrl : String} {url : UrlRecord}
    (h : HoldsUrl platform value baseUrl url)
    (h' : HoldsUrl platform value' baseUrl (url.withQuery query'))
    (hadds : AddsTracked platform patterns url.query query') :
    (normalizeUrlAttribute platform value' baseUrl patterns =
        normalizeUrlAttribute platform value baseUrl patterns ∧
      ∃ query, normalizeUrlAttribute platform value' baseUrl patterns =
          (url.withQuery query).toString ∧
        parameters query = untracked platform patterns query') ↔
      (∀ part ∈ parameters query', tracked platform patterns part = false) ∨
        (∀ part ∈ untracked platform patterns url.query, Written part) ∧
          ((∃ part ∈ parameters url.query, tracked platform patterns part = true) ∨
            ∀ segment ∈ segments url.query, segment ≠ []) := by
  have hvalue : normalizeUrlAttribute platform value baseUrl patterns =
      (url.withQuery (strippedQuery platform patterns url.query)).toString :=
    normalizeUrlAttribute_query h
  have hvalue' : normalizeUrlAttribute platform value' baseUrl patterns =
      (url.withQuery (strippedQuery platform patterns query')).toString :=
    normalizeUrlAttribute_query h'
  have hkept : (∃ query, normalizeUrlAttribute platform value' baseUrl patterns =
        (url.withQuery query).toString ∧ parameters query = untracked platform patterns query') ↔
      parameters (strippedQuery platform patterns query') = untracked platform patterns query' := by
    rw [hvalue']
    constructor
    · rintro ⟨query, heq, hparameters⟩
      rwa [UrlRecord.toString_withQuery_inj.mp heq]
    · exact fun hparameters => ⟨_, rfl, hparameters⟩
  rw [hkept, hvalue, hvalue', UrlRecord.toString_withQuery_inj]
  by_cases hnone : ∀ part ∈ parameters query', tracked platform patterns part = false
  · have hsame := hadds.eq_of_untracked hnone
    have hall : untracked platform patterns query' = parameters query' :=
      List.filter_eq_self.mpr fun part hpart => by rw [hnone part hpart]; rfl
    rw [hall, strippedQuery_of_untracked hnone]
    refine iff_of_true ⟨?_, rfl⟩ (.inl hnone)
    rw [← hsame, strippedQuery_of_untracked hnone]
  · have htracked : ∃ part ∈ parameters query', tracked platform patterns part = true := by
      simpa using hnone
    rw [parameters_strippedQuery htracked, hadds.untracked_eq, or_iff_right hnone]
    constructor
    · rintro ⟨hsame, hwritten⟩
      exact ⟨hwritten, (strippedQuery_inserted hadds htracked hwritten).mp hsame⟩
    · rintro ⟨hwritten, hrest⟩
      exact ⟨(strippedQuery_inserted hadds htracked hwritten).mpr hrest, hwritten⟩

/-- `new URL` on absolute addresses that are written as the platform writes them. -/
def addressPlatform : UrlPlatform where
  parse text _ :=
    let address := text.toList.takeWhile (· ≠ '#')
    if "http://".toList.isPrefixOf address then
      some {
        protocol := "http:"
        before := address.takeWhile (· ≠ '?')
        query := if address.contains '?' then some ((address.dropWhile (· ≠ '?')).drop 1) else none
        fragment :=
          if text.toList.contains '#' then some ((text.toList.dropWhile (· ≠ '#')).drop 1) else none }
    else none
  toLowerCase := String.toLower

def spacedUrl : UrlRecord := ⟨"http:", "http://example.com/".toList, some "q=a%20b".toList, none⟩

def plainUrl : UrlRecord := ⟨"http:", "http://example.com/".toList, some "q=1".toList, none⟩

theorem normalizeUrlAttribute_neutral_plain :
    normalizeUrlAttribute addressPlatform "http://example.com/?q=1&utm_source=n" "http://example.com/"
        ["utm_*"] =
      normalizeUrlAttribute addressPlatform "http://example.com/?q=1" "http://example.com/" ["utm_*"] ∧
    ∃ query, normalizeUrlAttribute addressPlatform "http://example.com/?q=1&utm_source=n"
        "http://example.com/" ["utm_*"] = (plainUrl.withQuery query).toString ∧
      parameters query =
        untracked addressPlatform ["utm_*"] (some "q=1&utm_source=n".toList) := by
  have hquery : segments plainUrl.query = ["q=1".toList] := by decide +kernel
  have hquery' : segments (some "q=1&utm_source=n".toList) =
      ["q=1".toList, "utm_source=n".toList] := by
    decide +kernel
  have hadds : AddsTracked addressPlatform ["utm_*"] plainUrl.query
      (some "q=1&utm_source=n".toList) := by
    refine .inl ?_
    rw [hquery, hquery']
    exact .keep _ (.insert _ (by decide) (by decide +kernel) .nil)
  exact (normalizeUrlAttribute_neutral_iff ⟨by decide +kernel, by decide +kernel, by decide +kernel⟩
    ⟨by decide +kernel, by decide +kernel, by decide +kernel⟩ hadds).mpr
    (.inr ⟨by decide +kernel, .inr (by decide +kernel)⟩)

/-- A space spelled `%20` becomes `+` once a tracking parameter stands beside it. -/
theorem normalizeUrlAttribute_respells :
    HoldsUrl addressPlatform "http://example.com/?q=a%20b" "http://example.com/" spacedUrl ∧
    HoldsUrl addressPlatform "http://example.com/?q=a%20b&utm_source=n" "http://example.com/"
      (spacedUrl.withQuery (some "q=a%20b&utm_source=n".toList)) ∧
    AddsTracked addressPlatform ["utm_*"] spacedUrl.query (some "q=a%20b&utm_source=n".toList) ∧
    normalizeUrlAttribute addressPlatform "http://example.com/?q=a%20b" "http://example.com/"
      ["utm_*"] = "http://example.com/?q=a%20b" ∧
    normalizeUrlAttribute addressPlatform "http://example.com/?q=a%20b&utm_source=n"
      "http://example.com/" ["utm_*"] = "http://example.com/?q=a+b" := by
  have hquery : segments spacedUrl.query = ["q=a%20b".toList] := by decide +kernel
  have hquery' : segments (some "q=a%20b&utm_source=n".toList) =
      ["q=a%20b".toList, "utm_source=n".toList] := by
    decide +kernel
  refine ⟨⟨by decide +kernel, by decide +kernel, by decide +kernel⟩,
    ⟨by decide +kernel, by decide +kernel, by decide +kernel⟩, .inl ?_, by decide +kernel,
    by decide +kernel⟩
  rw [hquery, hquery']
  exact .keep _ (.insert _ (by decide) (by decide +kernel) .nil)

end Neutral

end Utsuroi
