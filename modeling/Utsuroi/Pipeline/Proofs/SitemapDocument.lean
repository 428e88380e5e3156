import Utsuroi.Adapters.Sitemap
import Utsuroi.Framework.Separated
import Utsuroi.Pipeline.Content

/-!
# The document of a sitemap

The document is made from the first lastmod of each loc, and two sitemaps have the same document
exactly when their entries take the same lines.  A value may break its line, and `-` stands for a
missing lastmod as well as for itself, so that the lines do not tell the entries.
-/

namespace Utsuroi

/-! ## What a sitemap says -/

/-- The lastmod of the first item with the loc; `none` where no item has it. -/
def firstLastmod (items : List FeedItem) (loc : Url) : Option (Option String) :=
  (items.find? fun item => item.url == some loc).map FeedItem.updatedAt

/-- The items have the same locs, each with the same first lastmod. -/
def SameLastmods (items items' : List FeedItem) : Prop :=
  ∀ loc, loc ≠ "" → firstLastmod items loc = firstLastmod items' loc

/-- The entries in the order of their locs. -/
def sitemapEntries (items : List FeedItem) : List (Url × Option String) :=
  (firstByLoc items []).mergeSort fun a b => unitsLe (utf16Units a.1) (utf16Units b.1)

def entryText (entry : Url × Option String) : List Char :=
  entry.1.toList ++ '\t' :: (entry.2.getD "-").toList

/-- The lines an entry takes: a value with a line break takes more than one. -/
def entryLines (entry : Url × Option String) : List (List Char) := (entryText entry).splitOn '\n'

/-- The lines of the document, in a group for each entry. -/
def sitemapGroups (items : List FeedItem) : List (List (List Char)) :=
  (sitemapEntries items).map entryLines

def sitemapLines (items : List FeedItem) : List (List Char) := (sitemapGroups items).flatten

/-- Two entries with the same text: one shows its lastmod as the other shows that it has none, or
the loc of one goes on behind the tab that ends the loc of the other. -/
inductive Reread : Url × Option String → Url × Option String → Prop
  | placeholder (loc : Url) : Reread (loc, none) (loc, some "-")
  | tab {loc loc' : Url} {lastmod lastmod' : Option String} (between : List Char) :
      loc'.toList = loc.toList ++ '\t' :: between →
      (lastmod.getD "-").toList = between ++ '\t' :: (lastmod'.getD "-").toList →
      Reread (loc, lastmod) (loc', lastmod')

/-- The documents have the same lines, but the lines are grouped to entries in two ways, or some
entry reads them in another way. -/
def Regrouped (items items' : List FeedItem) : Prop :=
  sitemapLines items = sitemapLines items' ∧
    (sitemapGroups items ≠ sitemapGroups items' ∨
      ∃ pair ∈ (sitemapEntries items).zip (sitemapEntries items'),
        Reread pair.1 pair.2 ∨ Reread pair.2 pair.1)

/-- Every entry takes a line of its own, which ends its loc with the first tab and shows a missing
lastmod by nothing else. -/
def PlainItems (items : List FeedItem) : Prop :=
  ∀ item ∈ items, ∀ loc, item.url = some loc →
    '\t' ∉ loc.toList ∧ '\n' ∉ loc.toList ∧
      ∀ lastmod, item.updatedAt = some lastmod → lastmod ≠ "-" ∧ '\n' ∉ lastmod.toList

/-! ## The map from locs to lastmods -/

section ByLoc

variable {items : List FeedItem} {byLoc : List (Url × Option String)}

theorem firstLastmod_cons (item : FeedItem) (items : List FeedItem) (loc : Url) :
    firstLastmod (item :: items) loc =
      if item.url = some loc then some item.updatedAt else firstLastmod items loc := by
  rw [firstLastmod, List.find?_cons]
  by_cases hurl : item.url = some loc
  · simp [hurl]
  · rw [if_neg hurl, beq_false_of_ne hurl]
    rfl

/-- An item changes the map only with a loc that is new. -/
theorem firstByLoc_cons (item : FeedItem) (items : List FeedItem)
    (byLoc : List (Url × Option String)) :
    (firstByLoc (item :: items) byLoc = firstByLoc items byLoc ∧
        ∀ url, item.url = some url → url = "" ∨ byLoc.lookup url ≠ none) ∨
      ∃ url, item.url = some url ∧ url ≠ "" ∧ byLoc.lookup url = none ∧
        firstByLoc (item :: items) byLoc = firstByLoc items (byLoc ++ [(url, item.updatedAt)]) := by
  rw [firstByLoc]
  cases hitem : item.url with
  | none => exact Or.inl ⟨rfl, fun url h => by cases h⟩
  | some url =>
      by_cases hseen : url = "" ∨ (byLoc.lookup url).isSome
      · left
        refine ⟨if_pos hseen, fun other h => ?_⟩
        cases h
        exact hseen.imp_right Option.isSome_iff_ne_none.mp
      · right
        have hnew : byLoc.lookup url = none := by
          rw [← Option.not_isSome_iff_eq_none]
          exact fun hsome => hseen (Or.inr hsome)
        exact ⟨url, rfl, fun hempty => hseen (Or.inl hempty), hnew, if_neg hseen⟩

theorem lookup_concat (byLoc : List (Url × Option String)) (url loc : Url)
    (lastmod : Option String) :
    (byLoc ++ [(url, lastmod)]).lookup loc =
      (byLoc.lookup loc).or (if url = loc then some lastmod else none) := by
  rw [List.lookup_append]
  congr 1
  by_cases h : url = loc
  · subst h
    simp
  · have hbeq : (loc == url) = false := beq_false_of_ne (Ne.symm h)
    rw [List.lookup_cons, hbeq, if_neg h]
    rfl

theorem firstByLoc_nodup (h : (byLoc.map Prod.fst).Nodup) :
    ((firstByLoc items byLoc).map Prod.fst).Nodup := by
  induction items generalizing byLoc with
  | nil => exact h
  | cons item items ih =>
      rcases firstByLoc_cons item items byLoc with ⟨hkept, -⟩ | ⟨url, -, -, hnew, hadded⟩
      · rw [hkept]
        exact ih h
      · rw [hadded]
        apply ih
        rw [List.map_append, List.map_singleton, List.nodup_append]
        refine ⟨h, List.nodup_singleton url, ?_⟩
        intro known hknown added hadd heq
        obtain ⟨entry, hentry, rfl⟩ := List.mem_map.mp hknown
        have hne := List.lookup_eq_none_iff.mp hnew entry hentry
        rw [heq, List.mem_singleton.mp hadd] at hne
        simp at hne

theorem firstByLoc_lookup {loc : Url} (hloc : loc ≠ "") :
    (firstByLoc items byLoc).lookup loc = (byLoc.lookup loc).or (firstLastmod items loc) := by
  induction items generalizing byLoc with
  | nil => simp [firstByLoc, firstLastmod]
  | cons item items ih =>
      rw [firstLastmod_cons]
      rcases firstByLoc_cons item items byLoc with ⟨hkept, hseen⟩ | ⟨url, hurl, -, -, hadded⟩
      · rw [hkept, ih]
        by_cases hurl : item.url = some loc
        · obtain ⟨known, hknown⟩ :=
            Option.ne_none_iff_exists'.mp ((hseen loc hurl).resolve_left hloc)
          rw [hknown]
          rfl
        · rw [if_neg hurl]
      · rw [hadded, ih, lookup_concat, hurl]
        by_cases hsame : url = loc
        · simp [hsame]
        · simp [hsame]

theorem firstByLoc_no_empty (h : byLoc.lookup "" = none) :
    (firstByLoc items byLoc).lookup "" = none := by
  induction items generalizing byLoc with
  | nil => exact h
  | cons item items ih =>
      rcases firstByLoc_cons item items byLoc with ⟨hkept, -⟩ | ⟨url, -, hurl, -, hadded⟩
      · rw [hkept]
        exact ih h
      · rw [hadded]
        apply ih
        rw [lookup_concat, h, if_neg hurl]
        rfl

theorem firstByLoc_same_iff (items items' : List FeedItem) :
    (∀ loc, (firstByLoc items []).lookup loc = (firstByLoc items' []).lookup loc) ↔
      SameLastmods items items' := by
  constructor
  · intro h loc hloc
    have hlookup := h loc
    rw [firstByLoc_lookup hloc, firstByLoc_lookup hloc] at hlookup
    exact hlookup
  · intro h loc
    by_cases hloc : loc = ""
    · rw [hloc, firstByLoc_no_empty rfl, firstByLoc_no_empty rfl]
    · rw [firstByLoc_lookup hloc, firstByLoc_lookup hloc, h loc hloc]

/-- The entries are what is known of the map. -/
theorem sitemapEntries_eq_iff (items items' : List FeedItem) :
    sitemapEntries items = sitemapEntries items' ↔ SameLastmods items items' := by
  rw [← firstByLoc_same_iff]
  apply Sorting.mergeSort_keyed_eq_iff (unitsLe_order.comap utf16Units)
  · intro a b hab hba
    exact utf16Units_injective (unitsLe_antisymm hab hba)
  · exact firstByLoc_nodup List.nodup_nil
  · exact firstByLoc_nodup List.nodup_nil

end ByLoc

/-! ## The lines of the document -/

theorem buildSitemapDocument_toList (items : List FeedItem) :
    (buildSitemapDocument items).toList =
      Separated.ended '\n' ((sitemapEntries items).map entryText) := by
  rw [buildSitemapDocument, Separated.ended, List.flatMap_map]
  change (String.join ((sitemapEntries items).map _)).toList = _
  induction sitemapEntries items with
  | nil => rfl
  | cons entry entries ih =>
      rw [List.map_cons, String.join_cons, String.toList_append, ih, List.flatMap_cons]
      simp [entryText]

theorem buildSitemapDocument_eq_iff (items items' : List FeedItem) :
    buildSitemapDocument items = buildSitemapDocument items' ↔
      sitemapLines items = sitemapLines items' := by
  rw [← String.toList_inj, buildSitemapDocument_toList, buildSitemapDocument_toList,
    Separated.ended_eq_iff, List.flatMap_map, List.flatMap_map, sitemapLines, sitemapLines,
    sitemapGroups, sitemapGroups, ← List.flatMap_def, ← List.flatMap_def]
  rfl

theorem sitemapLines_of_sorted {items : List FeedItem}
    (h : (firstByLoc items []).Pairwise fun a b =>
      unitsLe (utf16Units a.1) (utf16Units b.1) = true) :
    sitemapLines items = (firstByLoc items []).flatMap entryLines := by
  rw [sitemapLines, sitemapGroups, sitemapEntries, List.mergeSort_of_pairwise h, List.flatMap_def]

/-- The map decides the document. -/
theorem SameLastmods.document_eq {items items' : List FeedItem} (h : SameLastmods items items') :
    buildSitemapDocument items = buildSitemapDocument items' := by
  rw [buildSitemapDocument_eq_iff, sitemapLines, sitemapLines, sitemapGroups, sitemapGroups,
    (sitemapEntries_eq_iff items items').mpr h]

/-! ## Lines that are read in two ways -/

section Rereading

variable {entry entry' : Url × Option String}

theorem Reread.text_eq (h : Reread entry entry') : entryText entry = entryText entry' := by
  cases h with
  | placeholder loc => rfl
  | tab between hloc hlastmod => simp [entryText, hloc, hlastmod]

theorem Reread.ne (h : Reread entry entry') : entry ≠ entry' := by
  intro heq
  cases h with
  | placeholder loc => cases heq
  | tab between hloc hlastmod =>
      obtain ⟨rfl, -⟩ := Prod.mk.inj heq
      rw [List.self_eq_append_right] at hloc
      cases hloc

private theorem entryText_eq (h : entryText entry = entryText entry') :
    entry = entry' ∨ Reread entry entry' ∨ Reread entry' entry := by
  obtain ⟨loc, lastmod⟩ := entry
  obtain ⟨loc', lastmod'⟩ := entry'
  rcases Separated.append_sep_eq_iff.mp h with ⟨hloc, hrest⟩ | ⟨between, hloc, hrest⟩ |
    ⟨between, hloc, hrest⟩
  · have hgetD : lastmod.getD "-" = lastmod'.getD "-" := String.toList_injective hrest
    obtain rfl : loc = loc' := String.toList_injective hloc
    cases lastmod with
    | none =>
        cases lastmod' with
        | none => exact .inl rfl
        | some other =>
            obtain rfl : "-" = other := hgetD
            exact .inr (.inl (.placeholder loc))
    | some known =>
        cases lastmod' with
        | none =>
            obtain rfl : known = "-" := hgetD
            exact .inr (.inr (.placeholder loc))
        | some other => exact .inl (congrArg (fun text => (loc, some text)) hgetD)
  · exact .inr (.inl (.tab between hloc hrest))
  · exact .inr (.inr (.tab between hloc hrest))

theorem entryText_eq_iff : entryText entry = entryText entry' ↔
    entry = entry' ∨ Reread entry entry' ∨ Reread entry' entry := by
  refine ⟨entryText_eq, ?_⟩
  rintro (rfl | hreread | hreread)
  · rfl
  · exact hreread.text_eq
  · exact hreread.text_eq.symm

theorem entryLines_eq_iff : entryLines entry = entryLines entry' ↔
    entryText entry = entryText entry' := by
  constructor
  · intro hlines
    have hjoined := congrArg (['\n'].intercalate ·) hlines
    simpa [entryLines] using hjoined
  · exact fun htext => congrArg (List.splitOn '\n') htext

end Rereading

/-- Two groupings, or two readings of a group, are two maps. -/
theorem regrouped_iff (items items' : List FeedItem) :
    Regrouped items items' ↔
      sitemapLines items = sitemapLines items' ∧ ¬SameLastmods items items' := by
  rw [Regrouped, ← sitemapEntries_eq_iff]
  apply and_congr_right
  intro _
  constructor
  · intro hways hentries
    rcases hways with hgroups | ⟨pair, hpair, hreread⟩
    · exact hgroups (congrArg (List.map entryLines) hentries)
    · have hsame : pair.1 = pair.2 := by
        rw [hentries] at hpair
        obtain ⟨i, hi, rfl⟩ := List.mem_iff_getElem.mp hpair
        rw [List.getElem_zip]
      rcases hreread with hreread | hreread
      · exact hreread.ne hsame
      · exact hreread.ne hsame.symm
  · intro hdiffer
    by_contra hways
    rw [not_or, Classical.not_not] at hways
    apply hdiffer
    apply Separated.map_inj_of_zip _ hways.1
    intro pair hpair hlines
    rcases entryText_eq_iff.mp (entryLines_eq_iff.mp hlines) with heq | hreread
    · exact heq
    · exact absurd ⟨pair, hpair, hreread⟩ hways.2

/-! ## Order and duplicates -/

theorem firstLastmod_append (items later : List FeedItem) (loc : Url) :
    firstLastmod (items ++ later) loc =
      (firstLastmod items loc).or (firstLastmod later loc) := by
  rw [firstLastmod, List.find?_append, Option.map_or]
  rfl

theorem firstLastmod_ne_none {items : List FeedItem} {item : FeedItem} {loc : Url}
    (hmem : item ∈ items) (hurl : item.url = some loc) : firstLastmod items loc ≠ none := by
  intro hnone
  rw [firstLastmod, Option.map_eq_none_iff, List.find?_eq_none] at hnone
  exact hnone item hmem (beq_iff_eq.mpr hurl)

/-- With distinct locs the first item with a loc is the only one. -/
theorem firstLastmod_eq_some_iff {items : List FeedItem}
    (hdistinct : (items.filterMap FeedItem.url).Nodup) (loc : Url) (lastmod : Option String) :
    firstLastmod items loc = some lastmod ↔
      ∃ item ∈ items, item.url = some loc ∧ item.updatedAt = lastmod := by
  induction items with
  | nil => simp [firstLastmod]
  | cons item items ih =>
      rw [firstLastmod_cons, List.exists_mem_cons_iff]
      by_cases hurl : item.url = some loc
      · rw [List.filterMap_cons_some hurl, List.nodup_cons] at hdistinct
        have hlater :
            ¬∃ other ∈ items, other.url = some loc ∧ other.updatedAt = lastmod := by
          intro ⟨other, hother, hsame, _⟩
          exact hdistinct.1 (List.mem_filterMap.mpr ⟨other, hother, hsame⟩)
        simp [hurl, hlater]
      · have hrest : (items.filterMap FeedItem.url).Nodup := by
          refine hdistinct.sublist ?_
          exact (List.sublist_cons_self item items).filterMap FeedItem.url
        simp [hurl, ih hrest]

theorem sameLastmods_of_perm {items items' : List FeedItem} (hperm : items.Perm items')
    (hdistinct : (items.filterMap FeedItem.url).Nodup) : SameLastmods items items' := by
  intro loc _
  have hdistinct' : (items'.filterMap FeedItem.url).Nodup :=
    (hperm.filterMap FeedItem.url).nodup_iff.mp hdistinct
  ext lastmod
  rw [firstLastmod_eq_some_iff hdistinct, firstLastmod_eq_some_iff hdistinct']
  simp only [hperm.mem_iff]

theorem sameLastmods_of_duplicate {before after : List FeedItem} {item : FeedItem}
    (h : ∃ earlier ∈ before, earlier.url = item.url) :
    SameLastmods (before ++ item :: after) (before ++ after) := by
  intro loc _
  obtain ⟨earlier, hmem, hurl⟩ := h
  rw [firstLastmod_append, firstLastmod_append, firstLastmod_cons]
  by_cases hloc : item.url = some loc
  · obtain ⟨known, hknown⟩ :=
      Option.ne_none_iff_exists'.mp (firstLastmod_ne_none hmem (hurl.trans hloc))
    rw [hknown]
    rfl
  · rw [if_neg hloc]

/-! ## Lines that tell the entries -/

/-- What `PlainItems` says of one entry. -/
def PlainEntry (entry : Url × Option String) : Prop :=
  '\t' ∉ entry.1.toList ∧ '\n' ∉ entry.1.toList ∧
    ∀ lastmod, entry.2 = some lastmod → lastmod ≠ "-" ∧ '\n' ∉ lastmod.toList

theorem PlainItems.entries {items : List FeedItem} (h : PlainItems items) :
    ∀ entry ∈ sitemapEntries items, PlainEntry entry := by
  intro entry hentry
  have hmem : entry ∈ firstByLoc items [] := List.mem_mergeSort.mp hentry
  have hnodup : ((firstByLoc items []).map Prod.fst).Nodup := firstByLoc_nodup List.nodup_nil
  have hlookup : (firstByLoc items []).lookup entry.1 = some entry.2 :=
    (Sorting.lookup_eq_some_iff_mem hnodup entry.1 entry.2).mpr hmem
  have hloc : entry.1 ≠ "" := by
    intro hempty
    rw [hempty, firstByLoc_no_empty rfl] at hlookup
    cases hlookup
  rw [firstByLoc_lookup hloc, List.lookup_nil, Option.none_or, firstLastmod,
    Option.map_eq_some_iff] at hlookup
  obtain ⟨item, hfound, hlastmod⟩ := hlookup
  have hurl : item.url = some entry.1 := by simpa using List.find?_some hfound
  obtain ⟨htab, hbreak, hmods⟩ := h item (List.mem_of_find?_eq_some hfound) entry.1 hurl
  exact ⟨htab, hbreak, hlastmod ▸ hmods⟩

theorem PlainEntry.no_break {entry : Url × Option String} (h : PlainEntry entry) :
    '\n' ∉ entryText entry := by
  obtain ⟨-, hbreak, hmods⟩ := h
  have hlastmod : '\n' ∉ (entry.2.getD "-").toList := by
    cases hentry : entry.2 with
    | none => decide
    | some lastmod => exact (hmods lastmod hentry).2
  simp [entryText, hbreak, hlastmod]

/-- Nothing is reread as a plain entry. -/
theorem PlainEntry.not_reread {entry entry' : Url × Option String} (h : PlainEntry entry') :
    ¬Reread entry entry' := by
  intro hreread
  cases hreread with
  | placeholder loc => exact (h.2.2 "-" rfl).1 rfl
  | tab between hloc hlastmod => exact h.1 (by simp [hloc])

theorem PlainItems.lines {items : List FeedItem} (h : PlainItems items) :
    sitemapLines items = (sitemapEntries items).map entryText := by
  have hbreak : ∀ text ∈ (sitemapEntries items).map entryText, '\n' ∉ text := by
    intro text htext
    obtain ⟨entry, hentry, rfl⟩ := List.mem_map.mp htext
    exact (h.entries entry hentry).no_break
  rw [← Separated.flatMap_splitOn hbreak, List.flatMap_map, sitemapLines, sitemapGroups,
    ← List.flatMap_def]
  rfl

/-- Where no value breaks its line, and none is the placeholder, the lines tell the entries. -/
theorem PlainItems.not_regrouped {items items' : List FeedItem} (h : PlainItems items)
    (h' : PlainItems items') : ¬Regrouped items items' := by
  rw [regrouped_iff]
  intro ⟨hlines, hdiffer⟩
  rw [h.lines, h'.lines] at hlines
  apply hdiffer
  rw [← sitemapEntries_eq_iff]
  apply Separated.map_inj_of_zip _ hlines
  intro pair hpair htext
  obtain ⟨hfirst, hsecond⟩ := List.of_mem_zip hpair
  rcases entryText_eq_iff.mp htext with heq | hreread | hreread
  · exact heq
  · exact absurd hreread (h'.entries pair.2 hsecond).not_reread
  · exact absurd hreread (h.entries pair.1 hfirst).not_reread

/-! ## Canonicality -/

/-- The document depends on the first lastmods alone, whatever the order of distinct locs and the
later duplicates.  It tells two sitemaps apart exactly when they are not two groupings of the same
lines and no entry is read in two ways, as of plain sitemaps none is. -/
theorem buildSitemapDocument_canonical_iff (sha256Hex : String → Hash)
    (hinjective : Function.Injective sha256Hex) (items items' : List FeedItem) :
    (SameLastmods items items' →
      buildSitemapDocument items = buildSitemapDocument items') ∧
    (items.Perm items' → (items.filterMap FeedItem.url).Nodup →
      buildSitemapDocument items = buildSitemapDocument items') ∧
    (∀ before item after, (∃ earlier ∈ before, earlier.url = item.url) →
      buildSitemapDocument (before ++ item :: after) = buildSitemapDocument (before ++ after)) ∧
    ((sha256Hex (buildSitemapDocument items) = sha256Hex (buildSitemapDocument items') ↔
        SameLastmods items items') ↔
      ¬Regrouped items items') ∧
    (PlainItems items → PlainItems items' → ¬Regrouped items items') := by
  refine ⟨SameLastmods.document_eq, ?_, ?_, ?_, PlainItems.not_regrouped⟩
  · intro hperm hdistinct
    exact (sameLastmods_of_perm hperm hdistinct).document_eq
  · intro before item after hearlier
    exact (sameLastmods_of_duplicate hearlier).document_eq
  · rw [hinjective.eq_iff, regrouped_iff, ← buildSitemapDocument_eq_iff]
    constructor
    · intro h ⟨hdocument, hdiffer⟩
      exact hdiffer (h.mp hdocument)
    · intro h
      constructor
      · intro hdocument
        by_contra hdiffer
        exact h ⟨hdocument, hdiffer⟩
      · exact SameLastmods.document_eq

/-- A sitemap of one page. -/
private def pageItem (lastmod : String) : FeedItem :=
  ⟨"https://a.test/a", some "https://a.test/a", none, some lastmod, none, []⟩

private theorem pageItem_plain {lastmod : String} (h : lastmod ≠ "-" ∧ '\n' ∉ lastmod.toList) :
    PlainItems [pageItem lastmod] := by
  intro item hitem loc hloc
  rw [List.mem_singleton.mp hitem] at hloc ⊢
  cases hloc
  refine ⟨by decide, by decide, fun other hother => ?_⟩
  cases hother
  exact h

/-- A lastmod that has moved on is seen. -/
theorem buildSitemapDocument_canonical_page :
    id (buildSitemapDocument [pageItem "2026-01-01T00:00:00.000Z"]) =
        id (buildSitemapDocument [pageItem "2026-01-02T00:00:00.000Z"]) ↔
      SameLastmods [pageItem "2026-01-01T00:00:00.000Z"] [pageItem "2026-01-02T00:00:00.000Z"] := by
  have h := buildSitemapDocument_canonical_iff id Function.injective_id
    [pageItem "2026-01-01T00:00:00.000Z"] [pageItem "2026-01-02T00:00:00.000Z"]
  exact h.2.2.2.1.mpr (h.2.2.2.2 (pageItem_plain (by decide)) (pageItem_plain (by decide)))

/-- The URLs of one host. -/
private def onePlatform : UrlPlatform where
  parse := fun text _ =>
    if "https://a.test/".toList.isPrefixOf text.toList then
      some ⟨"https:", text.toList, none, none⟩
    else none
  toLowerCase := id

/-- One text is a date. -/
private def newYearTools : DateTools where
  parse text :=
    if text = "2026-01-01" then some ⟨1767225600000, by decide, by decide⟩
    else if text = "+010000-01-01T00:00:00.000Z" then some yearTenThousand
    else none
  parse_beyond := rfl

private def urlNode (fields : List (String × String)) : XmlValue :=
  .object (fields.map fun field => (field.1, .text field.2))

/-- The items of a sitemap with these entries. -/
private def sitemapOf (entries : List (List (String × String))) : List FeedItem :=
  (buildSitemapResult onePlatform newYearTools "https://a.test/sitemap.xml"
    (.object [("url", .array (entries.map urlNode))])).items

/-- A lastmod looks like the end of its line and another entry, and like none at all. -/
theorem buildSitemapDocument_collides :
    buildSitemapDocument
        (sitemapOf [[("loc", "https://a.test/a"), ("lastmod", "soon\nhttps://a.test/b\tlater")]]) =
      buildSitemapDocument
        (sitemapOf [[("loc", "https://a.test/a"), ("lastmod", "soon")],
          [("loc", "https://a.test/b"), ("lastmod", "later")]]) ∧
    ¬SameLastmods
        (sitemapOf [[("loc", "https://a.test/a"), ("lastmod", "soon\nhttps://a.test/b\tlater")]])
        (sitemapOf [[("loc", "https://a.test/a"), ("lastmod", "soon")],
          [("loc", "https://a.test/b"), ("lastmod", "later")]]) ∧
    buildSitemapDocument (sitemapOf [[("loc", "https://a.test/a")]]) =
      buildSitemapDocument (sitemapOf [[("loc", "https://a.test/a"), ("lastmod", "-")]]) ∧
    ¬SameLastmods (sitemapOf [[("loc", "https://a.test/a")]])
        (sitemapOf [[("loc", "https://a.test/a"), ("lastmod", "-")]]) := by
  refine ⟨?_, ?_, ?_, ?_⟩
  · rw [buildSitemapDocument_eq_iff, sitemapLines_of_sorted (by decide +kernel),
      sitemapLines_of_sorted (by decide +kernel)]
    decide +kernel
  · intro hsame
    exact absurd (hsame "https://a.test/b" (by decide)) (by decide +kernel)
  · rw [buildSitemapDocument_eq_iff, sitemapLines_of_sorted (by decide +kernel),
      sitemapLines_of_sorted (by decide +kernel)]
    decide +kernel
  · intro hsame
    exact absurd (hsame "https://a.test/a" (by decide)) (by decide +kernel)

end Utsuroi
