import Utsuroi.Pipeline.ItemTools
import Utsuroi.Pipeline.Notify

/-!
# The Enrich stage

A new change without a title gets the title of its page, within the budget of the check.
Nothing this stage meets stops the check.
-/

namespace Utsuroi

open Async

def MAX_TITLE_FETCHES_PER_CHECK : Nat := 10

def isHtmlContentType (contentType : Option String) : Bool :=
  contentType.any fun value =>
    value.toLower.toList.tails.any fun rest => "text/html".toList.isPrefixOf rest

section Enrich

variable (tools : ItemTools)

/-- The title of a page that was fetched. -/
def titleOf (page : TitlePage) : Prog Site Store (Option String) :=
  match page.body with
  | none => return none
  | some body =>
    if page.status != 200 || !isHtmlContentType page.contentType then return none
    else .query .extractHtmlTitle fun _ => tools.extractHtmlTitle body page.contentType

def fetchTitle (url : Url) : Prog Site Store (Option String) := do
  let page ← Prog.query (.fetchPage url) fun _ => tools.fetchPage url
  match page with
  | none => return none
  | some page => titleOf tools page

/-- robots.txt is asked under the mode the site has for the origin. -/
def fetchTitleUnderRobots (url : Url) (origin : String) : Prog Site Store (Option String) := do
  let robotsMode ← Prog.query (.getRobotsMode origin) fun _ => tools.robotsMode origin
  let decision ← Prog.query (.checkRobots origin url) fun _ => tools.robots origin url
  if !decision.allowed && robotsMode == .enforce then return none
  else fetchTitle tools url

/-- `none` where the function gives a reason to skip. -/
def fetchTitleForUrl (url : Url) : Prog Site Store (Option String) := do
  if !tools.ssrfAllowed url then return none
  else
    let resolved ← Prog.query (.resolveAndCheck url) fun _ => tools.resolvedAllowed url
    if !resolved then return none
    else
      match tools.origin url with
      | none => return none
      | some origin => fetchTitleUnderRobots tools url origin

/-- The changes the stage looks at. -/
def needsTitle (d : DetectedChange) : Bool :=
  d.inserted && d.row.kind == .new && d.row.title.isNone && d.row.targetUrl != ""

def enrichRow (row : ChangeRow) : Prog Site Store ChangeRow := do
  let title ← fetchTitleForUrl tools row.targetUrl
  match title with
  | none => return row
  | some title =>
    updateChangeTitle row.id title
    return { row with title := some title }

/-- The changes done so far and the fetches used. -/
structure EnrichState where
  done : List DetectedChange
  used : Nat

def enrichDetectedChange (st : EnrichState) (d : DetectedChange) :
    Prog Site Store EnrichState :=
  if !needsTitle d || decide (MAX_TITLE_FETCHES_PER_CHECK ≤ st.used) then
    return ⟨st.done ++ [d], st.used⟩
  else do
    let row ← Prog.tryCatch (enrichRow tools d.row) (.ret d.row)
    return ⟨st.done ++ [{ d with row }], st.used + 1⟩

def enrichDetectedChanges (used : Nat) (detected : List DetectedChange) :
    Prog Site Store EnrichState :=
  detected.foldlM (enrichDetectedChange tools) ⟨[], used⟩

end Enrich

end Utsuroi
