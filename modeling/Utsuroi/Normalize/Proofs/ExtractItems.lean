import Utsuroi.Normalize.ExtractItems

/-!
# The stream of a page and its tree

Below an item the handlers change that item alone, so that the stream comes to what a recursion over
the tree comes to.  The recursion shows how far a field reads its first match: up to the first end
tag of a match inside it.
-/

namespace Utsuroi

/-! ## Well-nested streams -/

/-- The contents of an element, in document order. -/
inductive Forest
  | nil
  | text (text : String) (rest : Forest)
  | element (tag : Tag) (children rest : Forest)

namespace Forest

def events : Forest → List StreamEvent
  | nil => []
  | text t rest => .text t :: rest.events
  | element tag children rest => .element tag :: (children.events ++ .endTag :: rest.events)

/-- The text of a subtree. -/
def allText : Forest → String
  | nil => ""
  | text t rest => t ++ rest.allText
  | element _ children rest => children.allText ++ rest.allText

/-- The contents of the first element that the selector selects. -/
def firstMatch (selector : String) : Forest → Option Forest
  | nil => none
  | text _ rest => rest.firstMatch selector
  | element tag children rest =>
    if tag.selects selector then some children
    else (children.firstMatch selector).or (rest.firstMatch selector)

/-- The text up to the first end tag of an element that the selector selects, and whether there is
one. -/
def textToEnd (selector : String) : Forest → String × Bool
  | nil => ("", false)
  | text t rest => (t ++ (rest.textToEnd selector).1, (rest.textToEnd selector).2)
  | element tag children rest =>
    let inner := children.textToEnd selector
    if inner.2 || tag.selects selector then (inner.1, true)
    else (inner.1 ++ (rest.textToEnd selector).1, (rest.textToEnd selector).2)

/-- The items that are not inside an item: tag and contents. -/
def topItems (opts : ExtractItemsOptions) : Forest → List (Tag × Forest)
  | nil => []
  | text _ rest => rest.topItems opts
  | element tag children rest =>
    if tag.selects opts.itemSelector then (tag, children) :: rest.topItems opts
    else children.topItems opts ++ rest.topItems opts

end Forest

section Tree

variable {platform : UrlPlatform} {opts : ExtractItemsOptions}

/-! ## Below an item -/

/-- What the contents make of the item they stand in. -/
def feed (platform : UrlPlatform) (opts : ExtractItemsOptions) :
    (String → Bool) → Forest → ItemAccumulator → ItemAccumulator
  | _, .nil, acc => acc
  | active, .text t rest, acc => feed platform opts active rest (acc.onText opts active t)
  | active, .element tag children rest, acc =>
    let opened := acc.onElement platform opts tag
    let fed := feed platform opts (fun selector => tag.selects selector || active selector)
      children opened.1
    feed platform opts active rest (opened.2.foldl ItemAccumulator.onEndTag fed)

/-- What an item's contents come to. -/
def itemData (platform : UrlPlatform) (opts : ExtractItemsOptions) (contents : Forest) :
    ItemAccumulator :=
  feed platform opts (fun _ => false) contents (.fresh opts)

namespace ExtractState

theorem run_append (s : ExtractState) (before after : List StreamEvent) :
    s.run platform opts (before ++ after) =
      (s.run platform opts before).run platform opts after := List.foldl_append

theorem run_cons (s : ExtractState) (e : StreamEvent) (events : List StreamEvent) :
    s.run platform opts (e :: events) = (s.step platform opts e).run platform opts events := rfl

/-- An item is open, and the stream stands below it. -/
structure Inside (opts : ExtractItemsOptions) (s : ExtractState) (idx : Nat)
    (acc : ItemAccumulator) : Prop where
  current : s.current = some idx
  item : s.accumulators[idx]? = some acc
  depth : 0 < s.depth
  below : s.belowItem opts = true

/-- The state with another accumulator of the open item. -/
def withItem (s : ExtractState) (idx : Nat) (acc : ItemAccumulator) : ExtractState :=
  { s with accumulators := s.accumulators.set idx acc }

theorem Inside.withItem {s : ExtractState} {idx : Nat} {acc : ItemAccumulator}
    (h : Inside opts s idx acc) (next : ItemAccumulator) :
    Inside opts (s.withItem idx next) idx next where
  current := h.current
  item := by
    have hlength : idx < s.accumulators.length := (List.getElem?_eq_some_iff.mp h.item).1
    rw [ExtractState.withItem, List.getElem?_set_self hlength]
  depth := h.depth
  below := h.below

theorem modify_eq_set {α : Type} {l : List α} {idx : Nat} {a : α} (h : l[idx]? = some a)
    (f : α → α) : l.modify idx f = l.set idx (f a) := by
  apply List.ext_getElem?
  intro j
  rw [List.getElem?_modify, List.getElem?_set']
  by_cases hj : idx = j
  · subst hj
    simp [h]
  · simp [hj]

theorem withItem_self {s : ExtractState} {idx : Nat} {acc : ItemAccumulator}
    (h : s.accumulators[idx]? = some acc) : s.withItem idx acc = s := by
  have hset : s.accumulators.set idx acc = s.accumulators := by
    obtain ⟨hlength, rfl⟩ := List.getElem?_eq_some_iff.mp h
    exact List.set_getElem_self hlength
  rw [withItem, hset]

theorem withItem_withItem (s : ExtractState) (idx : Nat) (acc next : ItemAccumulator) :
    (s.withItem idx acc).withItem idx next = s.withItem idx next := by
  rw [withItem, withItem, withItem, List.set_set]

theorem step_text_inside {s : ExtractState} {idx : Nat} {acc : ItemAccumulator}
    (h : Inside opts s idx acc) (t : String) :
    s.step platform opts (.text t) = s.withItem idx (acc.onText opts s.active t) := by
  simp only [step, h.current]
  rw [withItem, modify_eq_set h.item, h.current]

/-- A start tag below an item. -/
def opened (platform : UrlPlatform) (opts : ExtractItemsOptions) (s : ExtractState) (idx : Nat)
    (acc : ItemAccumulator) (tag : Tag) : ExtractState where
  accumulators := s.accumulators.set idx (acc.onElement platform opts tag).1
  current := some idx
  depth := if tag.selects opts.itemSelector then s.depth + 1 else s.depth
  elements := ⟨tag, true, some idx, (acc.onElement platform opts tag).2⟩ :: s.elements

theorem step_element_inside {s : ExtractState} {idx : Nat} {acc : ItemAccumulator}
    (h : Inside opts s idx acc) (tag : Tag) :
    s.step platform opts (.element tag) = opened platform opts s idx acc tag := by
  have hdepth : s.depth ≠ 0 := Nat.pos_iff_ne_zero.mp h.depth
  rw [step, h.below, opened]
  by_cases htag : tag.selects opts.itemSelector = true
  · simp only [if_pos htag, onItem, if_neg hdepth, onInner, h.current, Option.bind_some, h.item,
      if_true]
  · simp only [if_neg htag, onInner, h.current, Option.bind_some, h.item, if_true]

theorem opened_inside (platform : UrlPlatform) {s : ExtractState} {idx : Nat}
    {acc : ItemAccumulator} (h : Inside opts s idx acc) (tag : Tag) :
    Inside opts (opened platform opts s idx acc tag) idx (acc.onElement platform opts tag).1 where
  current := rfl
  item := (h.withItem _).item
  depth := by
    have hdepth := h.depth
    rw [opened]
    dsimp only
    split
    · omega
    · exact hdepth
  below := by
    have hbelow := h.below
    rw [belowItem, opened, List.any_cons]
    rw [belowItem] at hbelow
    rw [hbelow, Bool.or_true]

theorem opened_active (s : ExtractState) (idx : Nat) (acc : ItemAccumulator) (tag : Tag) :
    (opened platform opts s idx acc tag).active =
      fun selector => tag.selects selector || s.active selector := by
  funext selector
  rw [active, opened, List.any_cons, Bool.true_and]
  rfl

/-- The end tag takes back what the start tag has done to all but the item. -/
theorem step_endTag_inside {s : ExtractState} {idx : Nat} {acc next : ItemAccumulator}
    (h : Inside opts s idx acc) (tag : Tag) :
    ((opened platform opts s idx acc tag).withItem idx next).step platform opts .endTag =
      s.withItem idx
        ((acc.onElement platform opts tag).2.foldl ItemAccumulator.onEndTag next) := by
  have hdepth : s.depth ≠ 0 := Nat.pos_iff_ne_zero.mp h.depth
  have hitem := ((opened_inside platform h tag).withItem next).item
  rw [step]
  simp only [withItem, opened, List.set_set] at hitem ⊢
  by_cases htag : tag.selects opts.itemSelector = true
  · simp only [if_pos htag, onItemEnd, Nat.add_sub_cancel, if_neg hdepth, h.current,
      modify_eq_set hitem, List.set_set]
  · simp only [if_neg htag, h.current, modify_eq_set hitem, List.set_set]

/-- Below an item its contents change nothing but the item. -/
theorem run_inside (forest : Forest) {s : ExtractState} {idx : Nat} {acc : ItemAccumulator}
    (h : Inside opts s idx acc) :
    s.run platform opts forest.events =
      s.withItem idx (feed platform opts s.active forest acc) := by
  induction forest generalizing s acc with
  | nil => exact (withItem_self h.item).symm
  | text t rest ih =>
      rw [Forest.events, run_cons, step_text_inside h, ih (h.withItem _), withItem_withItem]
      rfl
  | element tag children rest ihchildren ihrest =>
      rw [Forest.events, run_cons, step_element_inside h, run_append,
        ihchildren (opened_inside platform h tag), run_cons, step_endTag_inside h,
        ihrest (h.withItem _), withItem_withItem, opened_active]
      rfl

/-! ## Outside the items -/

/-- No item is open. -/
structure Outside (opts : ExtractItemsOptions) (s : ExtractState) : Prop where
  current : s.current = none
  depth : s.depth = 0
  elements : ∀ element ∈ s.elements,
    element.inItem = false ∧ element.tag.selects opts.itemSelector = false

/-- The state with further items. -/
def withItems (s : ExtractState) (items : List ItemAccumulator) : ExtractState :=
  { s with accumulators := s.accumulators ++ items }

theorem Outside.withItems {s : ExtractState} (h : Outside opts s) (items : List ItemAccumulator) :
    Outside opts (s.withItems items) := ⟨h.current, h.depth, h.elements⟩

theorem withItems_withItems (s : ExtractState) (items later : List ItemAccumulator) :
    (s.withItems items).withItems later = s.withItems (items ++ later) := by
  rw [ExtractState.withItems, ExtractState.withItems, ExtractState.withItems, List.append_assoc]

theorem Outside.not_below {s : ExtractState} (h : Outside opts s) : s.belowItem opts = false := by
  rw [belowItem, List.any_eq_false]
  intro element hmem
  rw [(h.elements element hmem).2]
  decide

/-- An element that is no item. -/
def passed (s : ExtractState) (tag : Tag) : ExtractState :=
  { s with elements := ⟨tag, false, none, []⟩ :: s.elements }

theorem Outside.passed {s : ExtractState} (h : Outside opts s) {tag : Tag}
    (htag : tag.selects opts.itemSelector = false) : Outside opts (s.passed tag) where
  current := h.current
  depth := h.depth
  elements := by
    intro element hmem
    rcases List.mem_cons.mp hmem with rfl | hold
    · exact ⟨rfl, htag⟩
    · exact h.elements element hold

theorem step_element_outside {s : ExtractState} (h : Outside opts s) {tag : Tag}
    (htag : tag.selects opts.itemSelector = false) :
    s.step platform opts (.element tag) = s.passed tag := by
  simp only [step, h.not_below, htag, Bool.false_eq_true, if_false, onInner, h.current,
    ExtractState.passed]

theorem step_endTag_outside {s : ExtractState} {tag : Tag}
    (htag : tag.selects opts.itemSelector = false) (items : List ItemAccumulator) :
    ((s.passed tag).withItems items).step platform opts .endTag = s.withItems items := by
  simp only [step, ExtractState.passed, ExtractState.withItems, htag]
  rfl

/-- An item begins. -/
def entered (opts : ExtractItemsOptions) (s : ExtractState) (tag : Tag) : ExtractState where
  accumulators := s.accumulators ++ [.fresh opts]
  current := some s.accumulators.length
  depth := 1
  elements := ⟨tag, false, some s.accumulators.length, []⟩ :: s.elements

theorem step_item {s : ExtractState} (h : Outside opts s) {tag : Tag}
    (htag : tag.selects opts.itemSelector = true) :
    s.step platform opts (.element tag) = entered opts s tag := by
  have hitem : (s.accumulators ++ [ItemAccumulator.fresh opts])[s.accumulators.length]? =
      some (.fresh opts) := by simp
  simp only [step, h.not_below, if_pos htag, onItem, if_pos h.depth, onInner, Option.bind_some,
    hitem, entered]
  rfl

theorem entered_inside (s : ExtractState) {tag : Tag}
    (htag : tag.selects opts.itemSelector = true) :
    Inside opts (entered opts s tag) s.accumulators.length (.fresh opts) where
  current := rfl
  item := by simp [entered]
  depth := Nat.one_pos
  below := by
    rw [belowItem, entered, List.any_cons, htag, Bool.true_or]

theorem entered_active {s : ExtractState} (h : Outside opts s) (tag : Tag) :
    (entered opts s tag).active = fun _ => false := by
  funext selector
  rw [active, entered, List.any_cons, Bool.false_and, Bool.false_or, List.any_eq_false]
  intro element hmem
  rw [(h.elements element hmem).1, Bool.false_and]
  decide

theorem step_itemEnd {s : ExtractState} (h : Outside opts s) {tag : Tag}
    (htag : tag.selects opts.itemSelector = true) (acc : ItemAccumulator) :
    ((entered opts s tag).withItem s.accumulators.length acc).step platform opts .endTag =
      s.withItems [acc] := by
  have hset : (s.accumulators ++ [ItemAccumulator.fresh opts]).set s.accumulators.length acc =
      s.accumulators ++ [acc] := by simp
  have hmodify : ((s.accumulators ++ [acc]).modify s.accumulators.length fun acc =>
      [].foldl ItemAccumulator.onEndTag acc) = s.accumulators ++ [acc] :=
    List.modify_id _ _
  simp only [step, ExtractState.withItem, entered, hset, if_pos htag, onItemEnd, Nat.sub_self,
    if_true, hmodify, ExtractState.withItems, h.current, h.depth]

/-- The items of a page are what their contents make of a new item, one by one. -/
theorem run_outside (forest : Forest) {s : ExtractState} (h : Outside opts s) :
    s.run platform opts forest.events =
      s.withItems ((forest.topItems opts).map fun item => itemData platform opts item.2) := by
  induction forest generalizing s with
  | nil =>
      rw [Forest.topItems, List.map_nil, ExtractState.withItems, List.append_nil]
      rfl
  | text t rest ih =>
      have hstep : s.step platform opts (.text t) = s := by
        simp only [step, h.current]
      rw [Forest.events, run_cons, hstep, ih h]
      rfl
  | element tag children rest ihchildren ihrest =>
      rw [Forest.events, run_cons]
      cases htag : tag.selects opts.itemSelector with
      | true =>
          rw [step_item h htag, run_append, run_inside children (entered_inside s htag),
            entered_active h, run_cons, step_itemEnd h htag, ihrest (h.withItems _),
            withItems_withItems, Forest.topItems, if_pos htag, List.map_cons]
          rfl
      | false =>
          rw [step_element_outside h htag, run_append, ihchildren (h.passed htag), run_cons,
            step_endTag_outside htag, ihrest (h.withItems _), withItems_withItems,
            Forest.topItems, if_neg (by simp [htag]), List.map_append]

theorem init_outside (opts : ExtractItemsOptions) : Outside opts .init where
  current := rfl
  depth := rfl
  elements := nofun

theorem run_init (forest : Forest) :
    (init.run platform opts forest.events).accumulators =
      (forest.topItems opts).map fun item => itemData platform opts item.2 := by
  rw [run_outside forest (init_outside opts)]
  rfl

end ExtractState

/-! ## One field -/

/-- What the contents make of a field that the selector finds. -/
def feedField (selector : String) : Bool → Forest → FieldState → FieldState
  | _, .nil, fs => fs
  | active, .text t rest, fs =>
    feedField selector active rest
      (if active && fs.collecting then { fs with value := fs.value ++ t } else fs)
  | active, .element tag children rest, fs =>
    let hit := tag.selects selector && !fs.matched
    let fed := feedField selector (tag.selects selector || active) children
      (if hit then { fs with collecting := true } else fs)
    feedField selector active rest
      (if hit then { fed with matched := true, collecting := false } else fed)

theorem feedField_matched (selector : String) (active : Bool) (forest : Forest) (value : String) :
    feedField selector active forest ⟨true, false, value⟩ = ⟨true, false, value⟩ := by
  induction forest generalizing active with
  | nil => rfl
  | text t rest ih =>
      rw [feedField, Bool.and_false]
      exact ih active
  | element tag children rest ihchildren ihrest =>
      simp only [feedField, Bool.not_true, Bool.and_false, Bool.false_eq_true, if_false]
      rw [ihchildren, ihrest]

/-- In its first match a field reads up to the first end tag of a match. -/
theorem feedField_collecting (selector : String) (forest : Forest) (value : String) :
    feedField selector true forest ⟨false, true, value⟩ =
      ⟨(forest.textToEnd selector).2, !(forest.textToEnd selector).2,
        value ++ (forest.textToEnd selector).1⟩ := by
  induction forest generalizing value with
  | nil => simp [feedField, Forest.textToEnd]
  | text t rest ih =>
      rw [feedField, Forest.textToEnd, Bool.and_self, if_pos rfl, ih, String.append_assoc]
  | element tag children rest ihchildren ihrest =>
      simp only [feedField, Forest.textToEnd, Bool.not_false, Bool.and_true, Bool.or_true, ite_self,
        ihchildren]
      cases hselects : tag.selects selector with
      | true => simp [feedField_matched]
      | false =>
          cases hended : (children.textToEnd selector).2 with
          | true => simp [feedField_matched]
          | false => simp [ihrest, String.append_assoc]

theorem feedField_idle (selector : String) (active : Bool) (forest : Forest) (value : String) :
    feedField selector active forest ⟨false, false, value⟩ =
      ((forest.firstMatch selector).map fun found =>
        (⟨true, false, value ++ (found.textToEnd selector).1⟩ : FieldState)).getD
          ⟨false, false, value⟩ := by
  induction forest generalizing active with
  | nil => rfl
  | text t rest ih =>
      rw [feedField, Bool.and_false]
      exact ih active
  | element tag children rest ihchildren ihrest =>
      cases hselects : tag.selects selector with
      | true =>
          simp [feedField, Forest.firstMatch, hselects, feedField_collecting, feedField_matched]
      | false =>
          simp only [feedField, Forest.firstMatch, hselects, Bool.false_and, Bool.false_eq_true,
            if_false, Bool.false_or, ihchildren]
          cases children.firstMatch selector with
          | none => simp [ihrest]
          | some found => simp [feedField_matched]

/-! ## The field among the others -/

/-- A field that a selector finds. -/
structure SelectorField (opts : ExtractItemsOptions) (idx : Nat) (selector : String) : Prop where
  listed : ∃ f, opts.fields[idx]? = some f ∧ given f.selector = some selector

theorem SelectorField.no_label {idx : Nat} {selector : String} {f : ExtractFieldOptions}
    (h : SelectorField opts idx selector) (hf : opts.fields[idx]? = some f) : f.label = none := by
  obtain ⟨other, hother, hgiven⟩ := h.listed
  rw [hf, Option.some.injEq] at hother
  subst hother
  rcases f.one with hnone | hnone
  · rw [hnone] at hgiven
    cases hgiven
  · exact hnone

/-- Where the field stands in the item. -/
structure Tracks (idx : Nat) (acc : ItemAccumulator) (fs : FieldState) : Prop where
  state : acc.fields[idx]? = some fs
  target : acc.ddTargetFieldIndex ≠ some idx

section Tracks

variable {idx : Nat} {selector : String} {acc : ItemAccumulator} {fs : FieldState}

/-- The start tag selects the field. -/
def hits (opts : ExtractItemsOptions) (selector : String) (tag : Tag) (fs : FieldState) : Bool :=
  tag.selects (opts.combined selector) && !fs.matched

theorem Tracks.congr {next : ItemAccumulator} (h : Tracks idx acc fs)
    (hfields : next.fields = acc.fields)
    (htarget : next.ddTargetFieldIndex = acc.ddTargetFieldIndex) : Tracks idx next fs :=
  ⟨hfields ▸ h.state, htarget ▸ h.target⟩

theorem Tracks.modify_same (h : Tracks idx acc fs) (f : FieldState → FieldState) :
    Tracks idx (acc.modifyField idx f) (f fs) := by
  refine ⟨?_, h.target⟩
  rw [ItemAccumulator.modifyField, List.getElem?_modify_eq, h.state]
  rfl

theorem Tracks.modify_other (h : Tracks idx acc fs) {other : Nat} (hne : other ≠ idx)
    (f : FieldState → FieldState) : Tracks idx (acc.modifyField other f) fs := by
  refine ⟨?_, h.target⟩
  rw [ItemAccumulator.modifyField, List.getElem?_modify_ne _ _ hne, h.state]

theorem Tracks.onLink (h : Tracks idx acc fs) (platform : UrlPlatform)
    (opts : ExtractItemsOptions) (tag : Tag) :
    Tracks idx (acc.onLink platform opts tag) fs := by
  rw [ItemAccumulator.onLink]
  split
  · exact h
  · split
    · exact h.congr rfl rfl
    · split
      · exact h.congr rfl rfl
      · split
        · exact h.congr rfl rfl
        · exact h.congr rfl rfl

theorem Tracks.onField_other (h : Tracks idx acc fs) (opts : ExtractItemsOptions) (tag : Tag)
    (f : ExtractFieldOptions) {other : Nat} (hne : other ≠ idx) :
    Tracks idx (acc.onField opts tag f other).1 fs ∧
      .field idx ∉ (acc.onField opts tag f other).2 := by
  rw [ItemAccumulator.onField]
  split
  · split
    · refine ⟨h.modify_other hne _, ?_⟩
      rw [List.mem_singleton]
      exact fun heq => hne (EndTagAction.field.inj heq).symm
    · exact ⟨h, List.not_mem_nil⟩
  · exact ⟨h, List.not_mem_nil⟩

theorem Tracks.onField_same (h : Tracks idx acc fs) (opts : ExtractItemsOptions) (tag : Tag)
    {f : ExtractFieldOptions} (hf : given f.selector = some selector) :
    Tracks idx (acc.onField opts tag f idx).1
        (if hits opts selector tag fs then { fs with collecting := true } else fs) ∧
      (.field idx ∈ (acc.onField opts tag f idx).2 ↔ hits opts selector tag fs = true) := by
  have hfield : acc.onField opts tag f idx =
      if hits opts selector tag fs then
        (acc.modifyField idx fun fs => { fs with collecting := true }, [.field idx])
      else (acc, []) := by
    simp only [ItemAccumulator.onField, hf, h.state, hits]
    rfl
  rw [hfield]
  cases hhits : hits opts selector tag fs with
  | true => exact ⟨h.modify_same _, by simp⟩
  | false => exact ⟨h, by simp⟩

theorem Tracks.onFields_later (h : Tracks idx acc fs) (opts : ExtractItemsOptions) (tag : Tag)
    (fields : List ExtractFieldOptions) {start : Nat} (hlater : idx < start) :
    Tracks idx (acc.onFields opts tag fields start).1 fs ∧
      .field idx ∉ (acc.onFields opts tag fields start).2 := by
  induction fields generalizing start acc with
  | nil => exact ⟨h, List.not_mem_nil⟩
  | cons f fields ih =>
      obtain ⟨hfirst, hfirstActions⟩ := h.onField_other opts tag f (Nat.ne_of_gt hlater)
      obtain ⟨hrest, hrestActions⟩ := ih hfirst (Nat.lt_succ_of_lt hlater)
      rw [ItemAccumulator.onFields]
      refine ⟨hrest, ?_⟩
      rw [List.mem_append, not_or]
      exact ⟨hfirstActions, hrestActions⟩

theorem Tracks.onFields (h : Tracks idx acc fs) (opts : ExtractItemsOptions) (tag : Tag)
    {fields : List ExtractFieldOptions} {f : ExtractFieldOptions}
    (hf : given f.selector = some selector) {start offset : Nat}
    (hoffset : fields[offset]? = some f) (hidx : idx = start + offset) :
    Tracks idx (acc.onFields opts tag fields start).1
        (if hits opts selector tag fs then { fs with collecting := true } else fs) ∧
      (.field idx ∈ (acc.onFields opts tag fields start).2 ↔
        hits opts selector tag fs = true) := by
  induction fields generalizing start offset acc with
  | nil => simp at hoffset
  | cons first fields ih =>
      rw [ItemAccumulator.onFields]
      cases offset with
      | zero =>
          rw [List.getElem?_cons_zero, Option.some.injEq] at hoffset
          rw [Nat.add_zero] at hidx
          subst hoffset hidx
          obtain ⟨hsame, hactions⟩ := h.onField_same opts tag hf
          obtain ⟨hrest, hnone⟩ := hsame.onFields_later opts tag fields (Nat.lt_succ_self idx)
          refine ⟨hrest, ?_⟩
          rw [List.mem_append, or_iff_left hnone]
          exact hactions
      | succ offset =>
          rw [List.getElem?_cons_succ] at hoffset
          have hne : start ≠ idx := by omega
          have hnext : idx = start + 1 + offset := by omega
          obtain ⟨hfirst, hnone⟩ := h.onField_other opts tag first hne
          obtain ⟨hrest, hactions⟩ := ih hfirst hoffset hnext
          refine ⟨hrest, ?_⟩
          rw [List.mem_append, or_iff_right hnone]
          exact hactions

theorem Tracks.onDt (h : Tracks idx acc fs) (opts : ExtractItemsOptions) (tag : Tag) :
    Tracks idx (acc.onDt opts tag).1 fs ∧ .field idx ∉ (acc.onDt opts tag).2 := by
  rw [ItemAccumulator.onDt]
  split
  · exact ⟨h.congr rfl rfl, by simp⟩
  · exact ⟨h, List.not_mem_nil⟩

/-- A label leads to a field that has it. -/
theorem labelledField_ne (hfield : SelectorField opts idx selector) {label : String} {found : Nat}
    (h : acc.labelledField opts label = some found) : found ≠ idx := by
  rintro rfl
  obtain ⟨f, hf, -⟩ := hfield.listed
  rw [ItemAccumulator.labelledField, List.findIdx?_eq_some_iff_getElem] at h
  obtain ⟨hlength, hholds, -⟩ := h
  rw [List.getElem_zip] at hholds
  have hlabel := hfield.no_label hf
  rw [List.getElem?_eq_some_iff] at hf
  obtain ⟨hlt, rfl⟩ := hf
  rw [hlabel] at hholds
  simp at hholds

theorem Tracks.onDd (h : Tracks idx acc fs) (hfield : SelectorField opts idx selector) (tag : Tag) :
    Tracks idx (acc.onDd opts tag).1 fs ∧ .field idx ∉ (acc.onDd opts tag).2 := by
  rw [ItemAccumulator.onDd]
  split
  · cases hlabel : acc.lastLabel.bind (acc.labelledField opts) with
    | none => exact ⟨⟨h.state, nofun⟩, by simp⟩
    | some found =>
        obtain ⟨label, -, hfound⟩ := Option.bind_eq_some_iff.mp hlabel
        have hne := labelledField_ne hfield hfound
        refine ⟨⟨(h.modify_other hne _).state, ?_⟩, by simp⟩
        exact fun heq => hne (Option.some.inj heq)
  · exact ⟨h, List.not_mem_nil⟩

theorem Tracks.onElement (h : Tracks idx acc fs) (platform : UrlPlatform)
    (hfield : SelectorField opts idx selector) (tag : Tag) :
    Tracks idx (acc.onElement platform opts tag).1
        (if hits opts selector tag fs then { fs with collecting := true } else fs) ∧
      (.field idx ∈ (acc.onElement platform opts tag).2 ↔ hits opts selector tag fs = true) := by
  obtain ⟨f, hlisted, hf⟩ := hfield.listed
  obtain ⟨hfields, hactions⟩ := (h.onLink platform opts tag).onFields opts tag hf hlisted
    (Nat.zero_add idx).symm
  obtain ⟨hdt, hdtActions⟩ := hfields.onDt opts tag
  obtain ⟨hdd, hddActions⟩ := hdt.onDd hfield tag
  rw [ItemAccumulator.onElement]
  refine ⟨hdd, ?_⟩
  rw [List.mem_append, or_iff_left hddActions, List.mem_append, or_iff_left hdtActions]
  exact hactions

theorem Tracks.onEndTag (h : Tracks idx acc fs) (action : EndTagAction) :
    Tracks idx (acc.onEndTag action)
      (if action = .field idx then { fs with matched := true, collecting := false } else fs) := by
  cases action with
  | field other =>
      by_cases hother : other = idx
      · subst hother
        rw [if_pos rfl]
        exact h.modify_same _
      · rw [if_neg fun heq => hother (EndTagAction.field.inj heq)]
        exact h.modify_other hother _
  | dt => exact h.congr rfl rfl
  | dd =>
      rw [if_neg nofun, ItemAccumulator.onEndTag]
      split
      · next target htarget =>
          have hne : target ≠ idx := fun heq => h.target (heq ▸ htarget)
          exact ⟨(h.modify_other hne _).state, nofun⟩
      · exact h

theorem Tracks.onEndTags (h : Tracks idx acc fs) (actions : List EndTagAction) :
    Tracks idx (actions.foldl ItemAccumulator.onEndTag acc)
      (if .field idx ∈ actions then { fs with matched := true, collecting := false } else fs) := by
  induction actions generalizing acc fs with
  | nil => exact h
  | cons action actions ih =>
      have hrest := ih (h.onEndTag action)
      rw [List.foldl_cons]
      by_cases haction : action = .field idx
      · rw [if_pos haction] at hrest
        rw [if_pos (haction ▸ List.mem_cons_self)]
        simpa using hrest
      · rw [if_neg haction] at hrest
        simpa [List.mem_cons, Ne.symm haction] using hrest

theorem Tracks.onFieldText (h : Tracks idx acc fs) (hfield : SelectorField opts idx selector)
    (active : String → Bool) (t : String) :
    Tracks idx (acc.onFieldText opts active t)
      (if active (opts.combined selector) && fs.collecting then
        { fs with value := fs.value ++ t } else fs) := by
  obtain ⟨f, hlisted, hf⟩ := hfield.listed
  refine ⟨?_, h.target⟩
  simp only [ItemAccumulator.onFieldText, List.getElem?_zipWith, hlisted, h.state, hf,
    Option.any_some]

theorem Tracks.onText (h : Tracks idx acc fs) (hfield : SelectorField opts idx selector)
    (active : String → Bool) (t : String) :
    Tracks idx (acc.onText opts active t)
      (if active (opts.combined selector) && fs.collecting then
        { fs with value := fs.value ++ t } else fs) := by
  have hlink : Tracks idx (acc.onLinkText opts active t) fs := by
    rw [ItemAccumulator.onLinkText]
    split
    · exact h.congr rfl rfl
    · exact h
  have htitle : Tracks idx ((acc.onLinkText opts active t).onTitleText opts active t) fs := by
    rw [ItemAccumulator.onTitleText]
    split
    · exact hlink.congr rfl rfl
    · exact hlink
  have hfields := htitle.onFieldText hfield active t
  rw [ItemAccumulator.onText]
  generalize (acc.onLinkText opts active t).onTitleText opts active t = titled at hfields
  have hdt : Tracks idx ((titled.onFieldText opts active t).onDtText opts active t)
      (if active (opts.combined selector) && fs.collecting then
        { fs with value := fs.value ++ t } else fs) := by
    rw [ItemAccumulator.onDtText]
    split
    · exact hfields.congr rfl rfl
    · exact hfields
  rw [ItemAccumulator.onDdText]
  split
  · split
    · next target htarget =>
        exact hdt.modify_other (fun heq => hdt.target (heq ▸ htarget)) _
    · exact hdt
  · exact hdt

/-- Among the handlers of an item the field goes its own way. -/
theorem Tracks.feed (platform : UrlPlatform) (hfield : SelectorField opts idx selector)
    (active : String → Bool) (forest : Forest) (h : Tracks idx acc fs) :
    Tracks idx (feed platform opts active forest acc)
      (feedField (opts.combined selector) (active (opts.combined selector)) forest fs) := by
  induction forest generalizing active acc fs with
  | nil => exact h
  | text t rest ih => exact ih active (h.onText hfield active t)
  | element tag children rest ihchildren ihrest =>
      obtain ⟨hopened, hactions⟩ := h.onElement platform hfield tag
      have hfed := ihchildren (fun selector => tag.selects selector || active selector) hopened
      have hclosed := hfed.onEndTags (acc.onElement platform opts tag).2
      rw [if_congr hactions rfl rfl] at hclosed
      exact ihrest active hclosed

end Tracks

/-- The value of a field that a selector finds. -/
theorem foundValue_itemData (platform : UrlPlatform) (contents : Forest) {idx : Nat}
    {selector : String} (hfield : SelectorField opts idx selector) :
    foundValue (itemData platform opts contents).fields idx =
      (contents.firstMatch (opts.combined selector)).map fun found =>
        shownValue (found.textToEnd (opts.combined selector)).1 := by
  have hfresh : Tracks idx (.fresh opts) ⟨false, false, ""⟩ := by
    obtain ⟨f, hlisted, -⟩ := hfield.listed
    refine ⟨?_, nofun⟩
    rw [ItemAccumulator.fresh, List.getElem?_map, hlisted]
    rfl
  have hfed := Tracks.feed platform hfield (fun _ => false) contents hfresh
  rw [feedField_idle] at hfed
  rw [foundValue, itemData, hfed.state]
  cases contents.firstMatch (opts.combined selector) with
  | none => rfl
  | some found => simp

/-! ## The items of a page -/

/-- What a field is to show: the text of the whole first match. -/
def fieldText (opts : ExtractItemsOptions) (selector : String) (contents : Forest) :
    Option (List Nat) :=
  (contents.firstMatch (opts.combined selector)).map fun found => shownValue found.allText

/-- What stands behind the first end tag of a match inside the first match makes no difference to
the value. -/
def ReadsWhole (opts : ExtractItemsOptions) (selector : String) (contents : Forest) : Prop :=
  ∀ found, contents.firstMatch (opts.combined selector) = some found →
    shownValue (found.textToEnd (opts.combined selector)).1 = shownValue found.allText

theorem textToEnd_unmatched {selector : String} {forest : Forest}
    (h : forest.firstMatch selector = none) :
    forest.textToEnd selector = (forest.allText, false) := by
  induction forest with
  | nil => rfl
  | text t rest ih => rw [Forest.textToEnd, ih h, Forest.allText]
  | element tag children rest ihchildren ihrest =>
      rw [Forest.firstMatch] at h
      split at h
      · cases h
      · next hselects =>
          rw [Option.or_eq_none_iff] at h
          simp [Forest.textToEnd, Forest.allText, ihchildren h.1, ihrest h.2, hselects]

/-- Where no match is inside the first one, it is read whole. -/
theorem readsWhole_of_flat {selector : String} {contents : Forest}
    (h : ∀ found, contents.firstMatch (opts.combined selector) = some found →
      found.firstMatch (opts.combined selector) = none) : ReadsWhole opts selector contents := by
  intro found hfound
  rw [textToEnd_unmatched (h found hfound)]

theorem foundValue_fieldText_iff (platform : UrlPlatform) (contents : Forest) {idx : Nat}
    {selector : String} (hfield : SelectorField opts idx selector) :
    foundValue (itemData platform opts contents).fields idx = fieldText opts selector contents ↔
      ReadsWhole opts selector contents := by
  rw [foundValue_itemData platform contents hfield, fieldText, ReadsWhole]
  constructor
  · intro h found hfound
    rw [hfound, Option.map_some, Option.map_some] at h
    exact Option.some.inj h
  · intro h
    apply Option.map_congr
    exact h

/-- An item as the only content of a page. -/
def alone (item : Tag × Forest) : Forest := .element item.1 item.2 .nil

theorem selects_of_mem_topItems {forest : Forest} {item : Tag × Forest}
    (h : item ∈ forest.topItems opts) : item.1.selects opts.itemSelector = true := by
  induction forest with
  | nil => cases h
  | text t rest ih => exact ih h
  | element tag children rest ihchildren ihrest =>
      rw [Forest.topItems] at h
      split at h
      · next htag =>
          rcases List.mem_cons.mp h with rfl | hrest
          · exact htag
          · exact ihrest hrest
      · rcases List.mem_append.mp h with hchildren | hrest
        · exact ihchildren hchildren
        · exact ihrest hrest

theorem run_alone (platform : UrlPlatform) {item : Tag × Forest}
    (h : item.1.selects opts.itemSelector = true) :
    (ExtractState.init.run platform opts (alone item).events).accumulators =
      [itemData platform opts item.2] := by
  rw [ExtractState.run_init, alone, Forest.topItems, if_pos h]
  rfl

theorem extractItems_alone (platform : UrlPlatform) {item : Tag × Forest}
    (h : item.1.selects opts.itemSelector = true) :
    extractItems platform opts (alone item).events =
      ((itemData platform opts item.2).toItem opts).toList := by
  rw [extractItems, run_alone platform h]
  cases hitem : (itemData platform opts item.2).toItem opts with
  | none => simp [hitem, firstOfEachUrl]
  | some output => simp [hitem, firstOfEachUrl]

/-- The items of a page are those of its outermost items, each taken alone, but for repeated URLs;
each gives one item at most.  A field that a selector finds shows the text of its whole first match
exactly when the first match is read whole, as it is when no match is inside it. -/
theorem extractItems_fields_iff (platform : UrlPlatform) (opts : ExtractItemsOptions)
    (forest : Forest) :
    extractItems platform opts forest.events =
        firstOfEachUrl [] ((forest.topItems opts).flatMap fun item =>
          extractItems platform opts (alone item).events) ∧
      ∀ item ∈ forest.topItems opts, ∃ acc,
        (ExtractState.init.run platform opts (alone item).events).accumulators = [acc] ∧
        extractItems platform opts (alone item).events = (acc.toItem opts).toList ∧
        ∀ idx f selector, opts.fields[idx]? = some f → given f.selector = some selector →
          (foundValue acc.fields idx = fieldText opts selector item.2 ↔
            ReadsWhole opts selector item.2) ∧
          ((∀ found, item.2.firstMatch (opts.combined selector) = some found →
              found.firstMatch (opts.combined selector) = none) →
            ReadsWhole opts selector item.2) := by
  constructor
  · have halone : (forest.topItems opts).flatMap (fun item =>
          extractItems platform opts (alone item).events) =
        (forest.topItems opts).flatMap fun item =>
          ((itemData platform opts item.2).toItem opts).toList := by
      apply List.flatMap_congr
      exact fun item hitem => extractItems_alone platform (selects_of_mem_topItems hitem)
    rw [halone, extractItems, ExtractState.run_init, List.filterMap_map,
      List.filterMap_eq_flatMap_toList]
    rfl
  · intro item hitem
    have hselects := selects_of_mem_topItems hitem
    refine ⟨_, run_alone platform hselects, extractItems_alone platform hselects, ?_⟩
    intro idx f selector hf hselector
    exact ⟨foundValue_fieldText_iff platform item.2 ⟨f, hf, hselector⟩, readsWhole_of_flat⟩

end Tree

/-! ## A match inside a match -/

private def shopTag (name : String) : Tag where
  href := if name = "a" then some "/one" else none
  selects selector := selector == name || selector == ".item " ++ name

private def shopOptions : ExtractItemsOptions where
  itemSelector := ".item"
  linkSelector := none
  titleSelector := none
  baseUrl := "https://a.test/"
  fields := [⟨"price", some ".price", none, Or.inr rfl⟩]

private def shopPlatform : UrlPlatform where
  parse text _ :=
    if text = "/one" ∨ text = "https://a.test/one" then
      some ⟨"https:", "https://a.test/one".toList, none, none⟩
    else none
  toLowerCase := id

/-- `<li class="item"><a href="/one">One</a><b class="price">12<i class="price">3</i>45</b></li>` -/
private def shopPage : Forest :=
  .element (shopTag ".item")
    (.element (shopTag "a") (.text "One" .nil)
      (.element (shopTag ".price")
        (.text "12" (.element (shopTag ".price") (.text "3" .nil) (.text "45" .nil))) .nil)) .nil

/-- The price is cut at the end of the match inside it. -/
theorem extractItems_cuts :
    extractItems shopPlatform shopOptions shopPage.events =
        [⟨"https://a.test/one", some (utf16Units "One"), [("price", utf16Units "123")]⟩] ∧
      (shopPage.topItems shopOptions).map (fun item => fieldText shopOptions ".price" item.2) =
        [some (utf16Units "12345")] := by
  constructor
  · decide +kernel
  · decide +kernel

end Utsuroi
