import Utsuroi.Pipeline.ItemTools
import Utsuroi.Pipeline.Notify
import Utsuroi.Shared.Utf16

/-!
# The Classify stage

A source with `config.classify` gives each change that has no tags yet the tags of the
rules its item matches.
-/

namespace Utsuroi

open Async

structure ClassifyMatchInput where
  title : Option String
  url : Option String
  summary : Option String
  fields : List (String × String)
  deriving DecidableEq, Repr

def FIELD_VALUE_MAX_CHARS : Nat := 2000

def resolveFieldValue (input : ClassifyMatchInput) (field : String) : Option String :=
  if field = "title" then input.title
  else if field = "url" then input.url
  else if field = "summary" then input.summary
  else input.fields.lookup field

/-- The value as the rules see it. -/
def clipFieldValue (value : String) : String :=
  if FIELD_VALUE_MAX_CHARS < utf16Length value.toList then
    String.ofList (utf16Take FIELD_VALUE_MAX_CHARS value.toList)
  else value

section Classify

variable (tools : ItemTools)

def ruleMatches (rule : ClassifyRule) (input : ClassifyMatchInput) : Bool :=
  match resolveFieldValue input rule.field with
  | none => false
  | some value =>
    match tools.regExp rule.pattern (rule.flags.getD "") with
    | none => false
    | some test => test (clipFieldValue value)

def computeTags (classify : ClassifyConfig) (input : ClassifyMatchInput) : List String :=
  let tags := classify.rules.foldl
    (fun tags rule =>
      if ruleMatches tools rule input && !tags.contains rule.tag then tags ++ [rule.tag] else tags)
    []
  match tags, classify.defaultTag with
  | [], some tag => if tag != "" then [tag] else []
  | tags, _ => tags

/-- The title may have come with the Enrich stage. -/
def classifyInput (d : DetectedChange) : ClassifyMatchInput where
  title := d.row.title <|> d.item.bind FeedItem.title
  url := d.item.bind FeedItem.url
  summary := d.item.bind FeedItem.summary
  fields := (d.item.map FeedItem.fields).getD []

def classifyDetectedChange (classify : ClassifyConfig) (done : List DetectedChange)
    (d : DetectedChange) : Prog Site Store (List DetectedChange) :=
  if d.row.tags.isSome then return done ++ [d]
  else do
    let tags ← Prog.tryCatch
      (setChangeTagsIfNull d.row.id (computeTags tools classify (classifyInput d))) (.ret none)
    return done ++ [{ d with row := { d.row with tags } }]

def classifyDetectedChanges (ctx : CheckContext) (detected : List DetectedChange) :
    Prog Site Store (List DetectedChange) :=
  match ctx.source.config.bind SourceConfig.classify with
  | none => return detected
  | some classify => detected.foldlM (classifyDetectedChange tools classify) []

end Classify

end Utsuroi
