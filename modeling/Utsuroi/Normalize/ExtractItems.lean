import Utsuroi.Framework.Spacing
import Utsuroi.Normalize.Attributes

/-!
# Items of a page

The rewriter reads a page once and calls the handlers of the selectors; they share the item that is
open.  What a handler leaves to an end tag is kept with the element.
-/

namespace Utsuroi

/-! ## Options -/

structure ExtractFieldOptions where
  name : String
  selector : Option String
  label : Option String
  /-- The API takes one of the two. -/
  one : selector = none ∨ label = none

structure ExtractItemsOptions where
  itemSelector : String
  linkSelector : Option String
  titleSelector : Option String
  baseUrl : String
  fields : List ExtractFieldOptions

def TITLE_MAX_LENGTH : Nat := 256

def FIELD_VALUE_MAX_LENGTH : Nat := 200

/-- A text that has been given and is not empty. -/
def given (text : Option String) : Option String := text.filter fun text => text != ""

/-! ## Texts -/

def jsSpacing : Spacing Char where
  blank := isJsSpace
  edge := isJsSpace
  space := ' '
  stop := Char.ofNat 0xe000
  blank_space := by decide
  edge_of_blank := fun _ h => h
  edge_stop := by decide

def collapseWhitespace (input : String) : String :=
  trim (String.ofList (jsSpacing.squeeze input.toList))

/-- The text begins with `&nbsp;|&#160;|&#xa0;`, whatever the case. -/
def startsNbsp (text : List Char) : Bool :=
  ["&nbsp;".toList, "&#160;".toList, "&#xa0;".toList].contains ((text.take 6).map asciiLowerChar)

/-- The first `skip` characters belong to a reference that has been read. -/
def replaceNbspFrom : Nat → List Char → List Char
  | _, [] => []
  | skip + 1, _ :: text => replaceNbspFrom skip text
  | 0, c :: text =>
    if startsNbsp (c :: text) then ' ' :: replaceNbspFrom 5 text else c :: replaceNbspFrom 0 text

def normalizeFieldText (input : String) : String :=
  collapseWhitespace (String.ofList (replaceNbspFrom 0 input.toList))

/-- `slice(0, max)` in code units, which may leave half a pair. -/
def sliceUnits (max : Nat) (text : String) : List Nat := (utf16Units text).take max

/-- The value a field shows for a text. -/
def shownValue (text : String) : List Nat :=
  sliceUnits FIELD_VALUE_MAX_LENGTH (normalizeFieldText text)

/-! ## The item that is open -/

structure FieldState where
  matched : Bool
  collecting : Bool
  value : String
  deriving DecidableEq, Repr

structure ItemAccumulator where
  url : Option String
  title : String
  collectingLinkTitle : Bool
  fields : List FieldState
  dtCollecting : Bool
  dtBuffer : String
  lastLabel : Option String
  ddTargetFieldIndex : Option Nat
  deriving DecidableEq, Repr

/-- A start tag: its `href`, and the selectors that select it where it stands.  A void element is
one without contents, as long as no handler asks for its end tag: there `onEndTag` throws a
TypeError and the page is given up. -/
structure Tag where
  href : Option String
  selects : String → Bool

/-- What a handler leaves to the end tag. -/
inductive EndTagAction
  | field (idx : Nat)
  | dt
  | dd
  deriving DecidableEq, Repr

def ItemAccumulator.fresh (opts : ExtractItemsOptions) : ItemAccumulator where
  url := none
  title := ""
  collectingLinkTitle := false
  fields := opts.fields.map fun _ => ⟨false, false, ""⟩
  dtCollecting := false
  dtBuffer := ""
  lastLabel := none
  ddTargetFieldIndex := none

/-- What is selected below an item. -/
def ExtractItemsOptions.combined (opts : ExtractItemsOptions) (selector : String) : String :=
  opts.itemSelector ++ " " ++ selector

def ExtractItemsOptions.usesLabels (opts : ExtractItemsOptions) : Bool :=
  opts.fields.any fun f => (given f.label).isSome

namespace ItemAccumulator

variable (platform : UrlPlatform) (opts : ExtractItemsOptions)

def modifyField (acc : ItemAccumulator) (idx : Nat) (f : FieldState → FieldState) :
    ItemAccumulator :=
  { acc with fields := acc.fields.modify idx f }

/-! ### Start tags -/

def onLink (tag : Tag) (acc : ItemAccumulator) : ItemAccumulator :=
  if !tag.selects (opts.combined (opts.linkSelector.getD "a")) then acc
  else if acc.url ≠ none then { acc with collectingLinkTitle := false }
  else
    match tag.href with
    | none => { acc with collectingLinkTitle := false }
    | some href =>
      match resolveItemLinkUrl platform href opts.baseUrl with
      | none => { acc with collectingLinkTitle := false }
      | some url =>
        { acc with url := some url, collectingLinkTitle := (given opts.titleSelector).isNone }

/-- The handler of one field. -/
def onField (tag : Tag) (f : ExtractFieldOptions) (idx : Nat) (acc : ItemAccumulator) :
    ItemAccumulator × List EndTagAction :=
  match given f.selector, acc.fields[idx]? with
  | some selector, some fs =>
    if tag.selects (opts.combined selector) && !fs.matched then
      (acc.modifyField idx fun fs => { fs with collecting := true }, [.field idx])
    else (acc, [])
  | _, _ => (acc, [])

/-- The handlers of the fields from the index on. -/
def onFields (tag : Tag) : List ExtractFieldOptions → Nat → ItemAccumulator →
    ItemAccumulator × List EndTagAction
  | [], _, acc => (acc, [])
  | f :: fields, idx, acc =>
    let (acc, actions) := onField opts tag f idx acc
    let (acc, later) := onFields tag fields (idx + 1) acc
    (acc, actions ++ later)

def onDt (tag : Tag) (acc : ItemAccumulator) : ItemAccumulator × List EndTagAction :=
  if opts.usesLabels && tag.selects (opts.combined "dt") then
    ({ acc with dtBuffer := "", dtCollecting := true, lastLabel := none }, [.dt])
  else (acc, [])

/-- The first field of the label that is still open. -/
def labelledField (acc : ItemAccumulator) (label : String) : Option Nat :=
  (opts.fields.zip acc.fields).findIdx? fun p => p.1.label == some label && !p.2.matched

def onDd (tag : Tag) (acc : ItemAccumulator) : ItemAccumulator × List EndTagAction :=
  if opts.usesLabels && tag.selects (opts.combined "dd") then
    match acc.lastLabel.bind (acc.labelledField opts) with
    | some idx =>
      ({ acc with
          ddTargetFieldIndex := some idx
          fields := acc.fields.modify idx fun fs => { fs with collecting := true } }, [.dd])
    | none => ({ acc with ddTargetFieldIndex := none }, [.dd])
  else (acc, [])

/-- All handlers of a start tag below an item. -/
def onElement (tag : Tag) (acc : ItemAccumulator) : ItemAccumulator × List EndTagAction :=
  let (acc, fieldActions) := onFields opts tag opts.fields 0 (onLink platform opts tag acc)
  let (acc, dtActions) := onDt opts tag acc
  let (acc, ddActions) := onDd opts tag acc
  (acc, fieldActions ++ dtActions ++ ddActions)

/-! ### End tags -/

def onEndTag (acc : ItemAccumulator) : EndTagAction → ItemAccumulator
  | .field idx => acc.modifyField idx fun fs => { fs with matched := true, collecting := false }
  | .dt =>
    let normalized := normalizeFieldText acc.dtBuffer
    { acc with
      dtCollecting := false
      lastLabel := if normalized = "" then none else some normalized }
  | .dd =>
    match acc.ddTargetFieldIndex with
    | some idx =>
      { acc with
        ddTargetFieldIndex := none
        fields := acc.fields.modify idx fun fs =>
          { fs with matched := true, collecting := false } }
    | none => acc

/-! ### Texts

`active` says which combined selectors select an element that is open. -/

def addTitle (text : String) (acc : ItemAccumulator) : ItemAccumulator :=
  { acc with title := acc.title ++ text }

def onLinkText (active : String → Bool) (text : String) (acc : ItemAccumulator) :
    ItemAccumulator :=
  if active (opts.combined (opts.linkSelector.getD "a")) && acc.collectingLinkTitle then
    acc.addTitle text
  else acc

def onTitleText (active : String → Bool) (text : String) (acc : ItemAccumulator) :
    ItemAccumulator :=
  if (given opts.titleSelector).any fun selector => active (opts.combined selector) then
    acc.addTitle text
  else acc

/-- The handlers of all fields. -/
def onFieldText (active : String → Bool) (text : String) (acc : ItemAccumulator) :
    ItemAccumulator :=
  { acc with
    fields := List.zipWith (fun f fs =>
      if (given f.selector).any (fun selector => active (opts.combined selector)) &&
          fs.collecting then
        { fs with value := fs.value ++ text }
      else fs) opts.fields acc.fields }

def onDtText (active : String → Bool) (text : String) (acc : ItemAccumulator) :
    ItemAccumulator :=
  if opts.usesLabels && active (opts.combined "dt") && acc.dtCollecting then
    { acc with dtBuffer := acc.dtBuffer ++ text }
  else acc

def onDdText (active : String → Bool) (text : String) (acc : ItemAccumulator) :
    ItemAccumulator :=
  if opts.usesLabels && active (opts.combined "dd") then
    match acc.ddTargetFieldIndex with
    | some idx => acc.modifyField idx fun fs => { fs with value := fs.value ++ text }
    | none => acc
  else acc

def onText (active : String → Bool) (text : String) (acc : ItemAccumulator) : ItemAccumulator :=
  let titled := onTitleText opts active text (onLinkText opts active text acc)
  onDdText opts active text (onDtText opts active text (onFieldText opts active text titled))

end ItemAccumulator

/-! ## The stream -/

inductive StreamEvent
  | element (tag : Tag)
  | text (text : String)
  | endTag

/-- An element that is open: whether it stands below an item, and the item and the actions that its
handlers have left to its end tag. -/
structure OpenElement where
  tag : Tag
  inItem : Bool
  item : Option Nat
  actions : List EndTagAction

structure ExtractState where
  accumulators : List ItemAccumulator
  /-- which of them is open -/
  current : Option Nat
  depth : Nat
  elements : List OpenElement

namespace ExtractState

variable (platform : UrlPlatform) (opts : ExtractItemsOptions)

def init : ExtractState := ⟨[], none, 0, []⟩

/-- The `element` handler of the item selector. -/
def onItem (s : ExtractState) : ExtractState :=
  if s.depth = 0 then
    { s with
      depth := 1
      current := some s.accumulators.length
      accumulators := s.accumulators ++ [.fresh opts] }
  else { s with depth := s.depth + 1 }

/-- What it leaves to the end tag. -/
def onItemEnd (s : ExtractState) : ExtractState :=
  { s with depth := s.depth - 1, current := if s.depth - 1 = 0 then none else s.current }

/-- `A B` selects an element only below an `A`. -/
def belowItem (s : ExtractState) : Bool :=
  s.elements.any fun element => element.tag.selects opts.itemSelector

/-- A combined selector selects an element that is open. -/
def active (s : ExtractState) (selector : String) : Bool :=
  s.elements.any fun element => element.inItem && element.tag.selects selector

/-- The handlers of the combined selectors at a start tag. -/
def onInner (tag : Tag) (inItem : Bool) (s : ExtractState) : ExtractState :=
  match s.current, s.current.bind (s.accumulators[·]?) with
  | some idx, some acc =>
    if inItem then
      let (next, actions) := acc.onElement platform opts tag
      { s with
        accumulators := s.accumulators.set idx next
        elements := ⟨tag, inItem, some idx, actions⟩ :: s.elements }
    else { s with elements := ⟨tag, inItem, some idx, []⟩ :: s.elements }
  | _, _ => { s with elements := ⟨tag, inItem, none, []⟩ :: s.elements }

def step (s : ExtractState) : StreamEvent → ExtractState
  | .element tag =>
    let inItem := s.belowItem opts
    let opened := if tag.selects opts.itemSelector then s.onItem opts else s
    opened.onInner platform opts tag inItem
  | .text text =>
    match s.current with
    | some idx =>
      { s with
        accumulators := s.accumulators.modify idx (.onText opts (s.active) text) }
    | none => s
  | .endTag =>
    match s.elements with
    | [] => s
    | element :: elements =>
      let popped := { s with elements := elements }
      let closed := if element.tag.selects opts.itemSelector then popped.onItemEnd else popped
      match element.item with
      | some idx =>
        { closed with
          accumulators := closed.accumulators.modify idx fun acc =>
            element.actions.foldl ItemAccumulator.onEndTag acc }
      | none => closed

def run (s : ExtractState) (events : List StreamEvent) : ExtractState :=
  events.foldl (step platform opts) s

end ExtractState

/-! ## The items -/

/-- Titles and values in code units. -/
structure ExtractedItem where
  url : String
  title : Option (List Nat)
  fields : List (String × List Nat)
  deriving DecidableEq, Repr

/-- The value of a field that has been found. -/
def foundValue (states : List FieldState) (idx : Nat) : Option (List Nat) :=
  match states[idx]? with
  | some fs => if fs.matched then some (shownValue fs.value) else none
  | none => none

/-- The fields that have been found, in the order of the options. -/
def extractedFields (fields : List ExtractFieldOptions) (states : List FieldState) :
    List (String × List Nat) :=
  fields.zipIdx.filterMap fun p => (foundValue states p.2).map fun value => (p.1.name, value)

def ItemAccumulator.toItem (opts : ExtractItemsOptions) (acc : ItemAccumulator) :
    Option ExtractedItem :=
  (given acc.url).map fun url =>
    let title := collapseWhitespace acc.title
    { url := url
      title := if title = "" then none else some (sliceUnits TITLE_MAX_LENGTH title)
      fields := extractedFields opts.fields acc.fields }

/-- The first item of each URL; `seen` holds the URLs so far. -/
def firstOfEachUrl : List String → List ExtractedItem → List ExtractedItem
  | _, [] => []
  | seen, item :: items =>
    if seen.contains item.url then firstOfEachUrl seen items
    else item :: firstOfEachUrl (item.url :: seen) items

def extractItems (platform : UrlPlatform) (opts : ExtractItemsOptions)
    (events : List StreamEvent) : List ExtractedItem :=
  firstOfEachUrl []
    ((ExtractState.init.run platform opts events).accumulators.filterMap
      (ItemAccumulator.toItem opts))

end Utsuroi
