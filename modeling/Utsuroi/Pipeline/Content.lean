import Utsuroi.Normalize.Charset
import Utsuroi.Pipeline.Notify

/-!
# Content processing: pages and Sitemap Direct

A document is stored under its digests, recorded as a snapshot and compared with the
snapshot before it.
-/

namespace Utsuroi

open Async

/-- What the content processors take from the runtime and from libraries: the HTML
rewriter, the XML parser, the line diff and the digest. -/
structure ContentTools where
  /-- decoding with the charset of the header, the clean pass and the include regions -/
  includedHtml : List UInt8 → Option String → String
  collapseHtmlWhitespace : String → String
  /-- of a page without void block elements, on which the rewriter's `onEndTag` throws -/
  extractText : String → String
  /-- `none` when the adapter throws `AdapterParseError` -/
  parseSource : List UInt8 → Option String → Option (List FeedItem)
  diffText : String → String → TextDiffResult
  sha256Bytes : List UInt8 → Hash
  sha256Text : String → Hash

def truncateDiffPreview (diff : String) (maxChars : Nat) : String :=
  if utf16Length diff.toList ≤ maxChars then diff
  else String.ofList (utf16Take maxChars diff.toList) ++ "\n… (truncated)"

def DIFF_PREVIEW_MAX_CHARS : Nat := 2000

/-! ## Storing a document, recording a change -/

/-- What both content processors begin with: the raw body and the text compared go to R2,
the snapshot to the database. -/
def storeDocument (rawHash : Hash) (body : List UInt8) (textHash : Hash) (text : String)
    (row : SnapshotRow) : Prog Site Store SnapshotId := do
  putBody rawHash body
  putNormalized textHash text
  createSnapshot row

/-- What both content processors end with: insert the change, keep its diff if it is new,
fan it out. -/
def recordChange (ctx : CheckContext) (row : ChangeRow) (unifiedDiff : String) :
    Prog Site Store (List ChangeId) := do
  let inserted ← insertChangeIfNew row
  if inserted.inserted && unifiedDiff != "" then putDiff row.id unifiedDiff
  notifyDetectedChanges ctx [] [⟨inserted.row, inserted.inserted, none, none⟩]

/-! ## Pages -/

def NORMALIZATION_VERSION : Nat := 2

def ContentTools.normalizeHtml (tools : ContentTools) (raw : List UInt8)
    (headerCharset : Option String) : NormalizedContent :=
  let includedHtml := tools.includedHtml raw headerCharset
  let extractedText := tools.extractText includedHtml
  { extractedText := extractedText
    rawHash := tools.sha256Bytes raw
    normalizedHash := tools.sha256Text (tools.collapseHtmlWhitespace includedHtml)
    textHash := tools.sha256Text extractedText
    normalizationVersion := NORMALIZATION_VERSION }

structure SnapshotComparison where
  changed : Bool
  level : Option DiffLevel
  deriving DecidableEq, Repr

def compareSnapshots (before after : NormalizedContent) : SnapshotComparison :=
  if before.rawHash = after.rawHash then ⟨false, none⟩
  else if before.normalizedHash = after.normalizedHash then ⟨false, none⟩
  else if before.textHash = after.textHash then ⟨true, some .normalizedHash⟩
  else ⟨true, some .textHash⟩

def pageSnapshot (targetId : TargetId) (fetchedAt : Nat) (outcome : FetchSuccess)
    (normalized : NormalizedContent) : SnapshotRow where
  id := 0
  targetId := targetId
  fetchedAt := fetchedAt
  etag := outcome.etag
  lastModified := outcome.lastModified
  bodyHash := normalized.rawHash
  normalizedR2Key := some normalized.textHash
  normalizedHash := some normalized.normalizedHash
  textHash := some normalized.textHash
  normalizationVersion := some normalized.normalizationVersion

/-- What a stored snapshot still knows of its content. -/
def previousContent (previousSnapshot : SnapshotRow) (normalized : NormalizedContent) :
    NormalizedContent where
  extractedText := ""
  rawHash := previousSnapshot.bodyHash
  normalizedHash := previousSnapshot.normalizedHash.getD ""
  textHash := previousSnapshot.textHash.getD ""
  normalizationVersion :=
    previousSnapshot.normalizationVersion.getD normalized.normalizationVersion

def processPageContent (tools : ContentTools) (ctx : CheckContext) (target : TargetRow)
    (previousSnapshot : Option SnapshotRow) (outcome : FetchSuccess) (body : List UInt8) :
    Prog Site Store (List ChangeId) := do
  let normalized := tools.normalizeHtml body outcome.headerCharset
  let snapshotId ← storeDocument normalized.rawHash body normalized.textHash
    normalized.extractedText (pageSnapshot target.id ctx.now outcome normalized)
  match previousSnapshot with
  | none => return []
  | some previousSnapshot =>
    let cmp := compareSnapshots (previousContent previousSnapshot normalized) normalized
    if !cmp.changed then
      return []
    else
      let previousText ← getNormalized previousSnapshot.normalizedR2Key
      let diff := tools.diffText previousText normalized.extractedText
      let dedupeKey :=
        if cmp.level = some .textHash then normalized.textHash else normalized.normalizedHash
      let id : ChangeId := ⟨ctx.monitor.id, dedupeKey⟩
      recordChange ctx
        { id := id
          targetId := some target.id
          targetUrl := target.id.url
          kind := .updated
          diffLevel := cmp.level
          previousSnapshotId := some previousSnapshot.id
          snapshotId := some snapshotId
          diffR2Key := if diff.unifiedDiff != "" then some id else none
          diffPreview :=
            if diff.unifiedDiff != "" then
              some (truncateDiffPreview diff.unifiedDiff DIFF_PREVIEW_MAX_CHARS)
            else none
          title := none
          tags := none }
        diff.unifiedDiff

/-! ## Sitemap Direct -/

def SITEMAP_DOCUMENT_VERSION : Nat := 1

/-- The map from each loc to its first lastmod, in the order of insertion. -/
def firstByLoc : List FeedItem → List (Url × Option String) → List (Url × Option String)
  | [], byLoc => byLoc
  | item :: items, byLoc =>
    match item.url with
    | none => firstByLoc items byLoc
    | some url =>
      if url = "" ∨ (byLoc.lookup url).isSome then firstByLoc items byLoc
      else firstByLoc items (byLoc ++ [(url, item.updatedAt)])

def buildSitemapDocument (items : List FeedItem) : String :=
  let byLoc := firstByLoc items []
  let sorted := byLoc.mergeSort fun a b => unitsLe (utf16Units a.1) (utf16Units b.1)
  String.join (sorted.map fun (loc, lastmod) => loc ++ "\t" ++ lastmod.getD "-" ++ "\n")

def sitemapSnapshot (targetId : TargetId) (fetchedAt : Nat) (outcome : FetchSuccess)
    (rawHash docHash : Hash) : SnapshotRow where
  id := 0
  targetId := targetId
  fetchedAt := fetchedAt
  etag := outcome.etag
  lastModified := outcome.lastModified
  bodyHash := rawHash
  normalizedR2Key := some docHash
  normalizedHash := some docHash
  textHash := some docHash
  normalizationVersion := some SITEMAP_DOCUMENT_VERSION

def sitemapSummary (diff : TextDiffResult) : String :=
  "+" ++ toString diff.addedCount ++ "/-" ++ toString diff.removedCount ++ " URL"

def processSitemapDirect (tools : ContentTools) (ctx : CheckContext) (target : TargetRow)
    (previousSnapshot : Option SnapshotRow) (outcome : FetchSuccess) (body : List UInt8) :
    Prog Site Store (List ChangeId) := do
  match tools.parseSource body outcome.headerCharset with
  | none => return []
  | some items =>
    let document := buildSitemapDocument items
    let rawHash := tools.sha256Bytes body
    let docHash := tools.sha256Text document
    let snapshotId ← storeDocument rawHash body docHash document
      (sitemapSnapshot target.id ctx.now outcome rawHash docHash)
    match previousSnapshot with
    | none => return []
    | some previousSnapshot =>
      -- the monitor's first check is its baseline, too
      if ctx.monitor.lastCheckedAt = none then
        return []
      else if previousSnapshot.textHash = some docHash then
        return []
      else
        let previousDocument ← getNormalized previousSnapshot.normalizedR2Key
        let diff := tools.diffText previousDocument document
        if !diff.changed then
          return []
        else
          let id : ChangeId := ⟨ctx.monitor.id, docHash⟩
          let summary := sitemapSummary diff
          recordChange ctx
            { id := id
              targetId := some target.id
              targetUrl := target.id.url
              kind := .updated
              diffLevel := some .textHash
              previousSnapshotId := some previousSnapshot.id
              snapshotId := some snapshotId
              diffR2Key := if diff.unifiedDiff != "" then some id else none
              diffPreview :=
                if diff.unifiedDiff != "" then
                  some (summary ++ "\n" ++
                    truncateDiffPreview diff.unifiedDiff DIFF_PREVIEW_MAX_CHARS)
                else some summary
              title := some summary
              tags := none }
            diff.unifiedDiff

end Utsuroi
