import Utsuroi.Robots.Parser

/-!
# Sitemap lines between user-agent lines

A sitemap line ends the run of user-agent lines it stands in.  What that changes in the groups is
read off the lines by themselves.
-/

namespace Utsuroi

/-! ## Lines as the groups see them -/

/-- What a line is for the groups; an empty token and a rule that is dropped are `none`. -/
inductive RobotsLine
  | agent (token : Option String)
  | rule (kept : Option RobotsRule)
  | sitemap
  | other
  deriving DecidableEq, Repr

namespace RobotsLine

def isAgent : RobotsLine → Bool
  | agent _ => true
  | _ => false

def isRule : RobotsLine → Bool
  | rule _ => true
  | _ => false

/-- The line gives its group a token or a rule. -/
def counts : RobotsLine → Bool
  | agent token => token.isSome
  | rule kept => kept.isSome
  | _ => false

/-- The lines left without the sitemap lines and the unknown ones. -/
def kept (lines : List RobotsLine) : List RobotsLine :=
  lines.filter fun line => line.isAgent || line.isRule

/-- The lines of the group that is being read: what is left of its user-agent lines, and its
rules. -/
def groupLines (lines : List RobotsLine) : List RobotsLine :=
  lines.takeWhile isAgent ++ (lines.dropWhile isAgent).takeWhile isRule

/-- The run of user-agent lines goes on, and its group gets something from what follows. -/
def rejoins (lines : List RobotsLine) : Bool :=
  (lines.head?.map isAgent).getD false && (groupLines lines).any counts

/-- Some sitemap line stands in a run of user-agent lines, behind a token, and the group of that run
gets something from the lines behind the sitemap line.  `named` says that the run so far has a
token. -/
def splitsRun : Bool → List RobotsLine → Bool
  | _, [] => false
  | named, agent token :: lines => splitsRun (named || token.isSome) lines
  | _, rule _ :: lines => splitsRun false lines
  | named, sitemap :: lines => named && rejoins (kept lines) || splitsRun named lines
  | named, other :: lines => splitsRun named lines

/-- The group that is flushed, if there is one. -/
def flushed (agents : List String) (rules : List RobotsRule) : List RobotsGroup :=
  if agents = [] then [] else [⟨agents, rules⟩]

/-- The groups that come from the lines. -/
def groupsOf : List String → List RobotsRule → Bool → List RobotsLine → List RobotsGroup
  | agents, rules, _, [] => flushed agents rules
  | agents, rules, collecting, agent token :: lines =>
    if collecting then groupsOf (agents ++ token.toList) rules true lines
    else flushed agents rules ++ groupsOf token.toList [] true lines
  | agents, rules, _, rule kept :: lines =>
    groupsOf agents (if agents = [] then rules else rules ++ kept.toList) false lines
  | agents, rules, _, sitemap :: lines => groupsOf agents rules false lines
  | agents, rules, collecting, other :: lines => groupsOf agents rules collecting lines

section Kept

variable {lines : List RobotsLine} {token : Option String} {line : Option RobotsRule}

@[simp] theorem kept_nil : kept [] = [] := rfl

@[simp] theorem kept_agent : kept (agent token :: lines) = agent token :: kept lines := rfl

@[simp] theorem kept_rule : kept (rule line :: lines) = rule line :: kept lines := rfl

@[simp] theorem kept_sitemap : kept (sitemap :: lines) = kept lines := rfl

@[simp] theorem kept_other : kept (other :: lines) = kept lines := rfl

@[simp] theorem counts_agent : (agent token).counts = token.isSome := rfl

@[simp] theorem counts_rule : (rule line).counts = line.isSome := rfl

@[simp] theorem takeWhile_isRule_agent : (agent token :: lines).takeWhile isRule = [] := rfl

@[simp] theorem takeWhile_isRule_rule :
    (rule line :: lines).takeWhile isRule = rule line :: lines.takeWhile isRule := rfl

@[simp] theorem groupLines_nil : groupLines [] = [] := rfl

@[simp] theorem groupLines_agent :
    groupLines (agent token :: lines) = agent token :: groupLines lines := rfl

@[simp] theorem groupLines_rule :
    groupLines (rule line :: lines) = rule line :: lines.takeWhile isRule := rfl

@[simp] theorem rejoins_nil : rejoins [] = false := rfl

@[simp] theorem rejoins_agent :
    rejoins (agent token :: lines) = (token.isSome || (groupLines lines).any counts) := by
  simp [rejoins, isAgent]

@[simp] theorem rejoins_rule : rejoins (rule line :: lines) = false := rfl

theorem rejoins_counts (h : rejoins lines = true) : (groupLines lines).any counts = true :=
  (Bool.and_eq_true _ _ ▸ h).2

end Kept

/-! ## The two runs compared -/

section Groups

variable {agents : List String} {rules : List RobotsRule} {collecting : Bool}

/-- The group that is being read comes first, with what it has already. -/
theorem groupsOf_first (hagents : agents ≠ []) (lines : List RobotsLine) :
    ∃ moreAgents moreRules rest, groupsOf agents rules collecting lines =
      ⟨agents ++ moreAgents, rules ++ moreRules⟩ :: rest := by
  induction lines generalizing agents rules collecting with
  | nil => exact ⟨[], [], [], by simp [groupsOf, flushed, hagents]⟩
  | cons line lines ih =>
    cases line with
    | agent token =>
      cases collecting with
      | false => exact ⟨[], [], groupsOf token.toList [] true lines, by simp [groupsOf, flushed, hagents]⟩
      | true =>
        have hmore : agents ++ token.toList ≠ [] := by simp [hagents]
        obtain ⟨moreAgents, moreRules, rest, hgroups⟩ := @ih (agents ++ token.toList) rules true hmore
        refine ⟨token.toList ++ moreAgents, moreRules, rest, ?_⟩
        rw [groupsOf, if_pos rfl, hgroups, List.append_assoc]
    | rule line =>
      obtain ⟨moreAgents, moreRules, rest, hgroups⟩ := @ih agents (rules ++ line.toList) false hagents
      refine ⟨moreAgents, line.toList ++ moreRules, rest, ?_⟩
      rw [groupsOf, if_neg hagents, hgroups, List.append_assoc]
    | sitemap => exact ih hagents
    | other => exact ih hagents

/-- Without a token there is nothing for a sitemap line to cut off. -/
theorem groupsOf_unnamed (lines : List RobotsLine) (collecting' : Bool) :
    groupsOf [] [] collecting lines = groupsOf [] [] collecting' lines := by
  induction lines generalizing collecting collecting' with
  | nil => rfl
  | cons line lines ih =>
    cases line with
    | agent token => cases collecting <;> cases collecting' <;> rfl
    | rule line => rfl
    | sitemap => rfl
    | other => exact @ih collecting collecting'

/-- What is to be shown of lines that follow the same state in both runs. -/
def Agrees (lines : List RobotsLine) : Prop :=
  ∀ (agents : List String) (rules : List RobotsRule) (collecting : Bool),
    (collecting = true → rules = []) →
      (groupsOf agents rules collecting lines = groupsOf agents rules collecting (kept lines) ↔
        splitsRun (collecting && decide (agents ≠ [])) lines = false)

/-- Its own sitemap line cut the group off, and of its rules none came yet. -/
private theorem lost_rules (hagents : agents ≠ []) (lines : List RobotsLine)
    (hagrees : ∀ rest, rest.length < lines.length → Agrees rest) (collecting : Bool) :
    ⟨agents, []⟩ :: groupsOf [] [] collecting lines = groupsOf agents [] false (kept lines) ↔
      ((kept lines).takeWhile isRule).any counts = false ∧ splitsRun false lines = false := by
  induction lines generalizing collecting with
  | nil => simp [groupsOf, flushed, hagents, splitsRun]
  | cons line lines ih =>
    have hrest : ∀ rest : List RobotsLine, rest.length < lines.length → Agrees rest :=
      fun rest hlength => hagrees rest (Nat.lt_succ_of_lt hlength)
    cases line with
    | agent token =>
      have hnext := hagrees lines (Nat.lt_succ_self _) token.toList [] true fun _ => rfl
      have hnone : decide (token.toList ≠ []) = token.isSome := by cases token <;> rfl
      rw [Bool.true_and, hnone] at hnext
      rw [groupsOf_unnamed _ true]
      simp only [kept_agent, groupsOf, if_true, if_false, Bool.false_eq_true, List.nil_append, flushed,
        hagents, List.cons_append, List.cons.injEq, true_and, splitsRun, Bool.false_or]
      simpa using hnext
    | rule line =>
      cases line with
      | none =>
        simp only [kept_rule, groupsOf, if_true, hagents, if_false, Option.toList_none, List.append_nil,
          splitsRun]
        rw [ih hrest false]
        simp
      | some rule =>
        obtain ⟨moreAgents, moreRules, rest, hgroups⟩ :=
          @groupsOf_first agents [rule] false hagents (kept lines)
        simp only [kept_rule, groupsOf, if_true, hagents, if_false, Option.toList_some, List.nil_append]
        rw [hgroups]
        simp
    | sitemap => simpa [groupsOf, splitsRun] using ih hrest false
    | other => simpa [groupsOf, splitsRun] using ih hrest collecting

/-- A sitemap line cut the group off; since then empty tokens only. -/
private theorem lost_agents (hagents : agents ≠ []) (lines : List RobotsLine)
    (hagrees : ∀ rest, rest.length < lines.length → Agrees rest) (collecting : Bool) :
    ⟨agents, []⟩ :: groupsOf [] [] collecting lines = groupsOf agents [] true (kept lines) ↔
      (groupLines (kept lines)).any counts = false ∧ splitsRun true lines = false := by
  induction lines generalizing collecting with
  | nil => simp [groupsOf, flushed, hagents, splitsRun]
  | cons line lines ih =>
    have hrest : ∀ rest : List RobotsLine, rest.length < lines.length → Agrees rest :=
      fun rest hlength => hagrees rest (Nat.lt_succ_of_lt hlength)
    cases line with
    | agent token =>
      cases token with
      | none =>
        rw [groupsOf_unnamed _ true]
        simp only [kept_agent, groupsOf, if_true, Option.toList_none, List.append_nil, splitsRun]
        rw [ih hrest true]
        simp
      | some token =>
        have hmore : agents ++ [token] ≠ [] := by simp
        obtain ⟨moreAgents, moreRules, rest, hgroups⟩ :=
          @groupsOf_first (agents ++ [token]) [] true hmore (kept lines)
        simp only [kept_agent, groupsOf, if_true, Option.toList_some]
        rw [hgroups]
        simp
    | rule line =>
      cases line with
      | none =>
        have hlost := lost_rules hagents lines hrest false
        simp only [kept_rule, groupsOf, if_true, hagents, if_false, Option.toList_none, List.append_nil,
          splitsRun]
        rw [hlost]
        simp
      | some rule =>
        obtain ⟨moreAgents, moreRules, rest, hgroups⟩ :=
          @groupsOf_first agents [rule] false hagents (kept lines)
        simp only [kept_rule, groupsOf, if_true, hagents, if_false, Option.toList_some, List.nil_append]
        rw [hgroups]
        simp
    | sitemap =>
      have hnext := ih hrest false
      simp only [kept_sitemap, groupsOf, splitsRun, Bool.true_and, Bool.or_eq_false_iff]
      rw [hnext]
      constructor
      · rintro ⟨hcounts, hsplits⟩
        refine ⟨hcounts, ?_, hsplits⟩
        cases hrejoins : rejoins (kept lines) with
        | false => rfl
        | true => exact absurd (rejoins_counts hrejoins) (by simp [hcounts])
      · rintro ⟨hcounts, _, hsplits⟩
        exact ⟨hcounts, hsplits⟩
    | other => simpa [groupsOf, splitsRun] using ih hrest collecting

/-- A sitemap line stands behind the user-agent lines, of which one names a token. -/
private theorem cut_agents (hagents : agents ≠ []) (lines : List RobotsLine)
    (hagrees : ∀ rest, rest.length < lines.length → Agrees rest) :
    groupsOf agents [] false lines = groupsOf agents [] true (kept lines) ↔
      rejoins (kept lines) = false ∧ splitsRun true lines = false := by
  induction lines with
  | nil => simp [groupsOf, splitsRun]
  | cons line lines ih =>
    have hrest : ∀ rest : List RobotsLine, rest.length < lines.length → Agrees rest :=
      fun rest hlength => hagrees rest (Nat.lt_succ_of_lt hlength)
    cases line with
    | agent token =>
      cases token with
      | none =>
        have hlost := lost_agents hagents lines hrest true
        simp only [kept_agent, groupsOf, if_true, if_false, Bool.false_eq_true, Option.toList_none,
          List.append_nil, flushed, hagents, List.cons_append, List.nil_append, splitsRun]
        rw [hlost]
        simp
      | some token =>
        have hmore : agents ++ [token] ≠ [] := by simp
        obtain ⟨moreAgents, moreRules, rest, hgroups⟩ :=
          @groupsOf_first (agents ++ [token]) [] true hmore (kept lines)
        simp only [kept_agent, groupsOf, if_true, if_false, Bool.false_eq_true, Option.toList_some, flushed,
          hagents, List.cons_append, List.nil_append]
        rw [hgroups]
        simp
    | rule line =>
      have hnext := hagrees lines (Nat.lt_succ_self _) agents line.toList false nofun
      simp only [kept_rule, groupsOf, hagents, if_false, List.nil_append, splitsRun]
      rw [hnext]
      simp
    | sitemap =>
      simp only [kept_sitemap, groupsOf, splitsRun, Bool.true_and, Bool.or_eq_false_iff]
      rw [ih hrest]
      simp
    | other => simpa [groupsOf, splitsRun] using ih hrest

private theorem agrees_step (line : RobotsLine) (lines : List RobotsLine)
    (hagrees : ∀ rest, rest.length < lines.length + 1 → Agrees rest) : Agrees (line :: lines) := by
  intro agents rules collecting hrules
  have hlines := hagrees lines (Nat.lt_succ_self _)
  cases line with
  | agent token =>
    cases collecting with
    | false =>
      have hnext := hlines token.toList [] true fun _ => rfl
      have hnone : decide (token.toList ≠ []) = token.isSome := by cases token <;> rfl
      rw [Bool.true_and, hnone] at hnext
      simpa [groupsOf, splitsRun] using hnext
    | true =>
      have hnext := hlines (agents ++ token.toList) rules true hrules
      have hnamed : decide (agents ++ token.toList ≠ []) = (decide (agents ≠ []) || token.isSome) := by
        cases token <;> simp
      rw [Bool.true_and, hnamed] at hnext
      simpa [groupsOf, splitsRun] using hnext
  | rule line =>
    have hnext := hlines agents (if agents = [] then rules else rules ++ line.toList) false nofun
    simpa [groupsOf, splitsRun] using hnext
  | sitemap =>
    cases collecting with
    | false =>
      have hnext := hlines agents rules false nofun
      simpa [groupsOf, splitsRun] using hnext
    | true =>
      obtain rfl := hrules rfl
      by_cases hagents : agents = []
      · subst hagents
        have hnext := hlines [] [] false nofun
        rw [groupsOf_unnamed (kept lines) true] at hnext
        simpa [groupsOf, splitsRun] using hnext
      · have hcut := cut_agents hagents lines fun rest hlength => hagrees rest (Nat.lt_succ_of_lt hlength)
        simpa [groupsOf, splitsRun, hagents] using hcut
  | other =>
    have hnext := hlines agents rules collecting hrules
    simpa [groupsOf, splitsRun] using hnext

theorem agrees (lines : List RobotsLine) : Agrees lines := by
  induction hlength : lines.length using Nat.strong_induction_on generalizing lines with
  | _ length ih =>
    cases lines with
    | nil =>
      intro agents rules collecting _
      simp [splitsRun]
    | cons line lines =>
      apply agrees_step
      intro rest hrest
      exact ih rest.length (by simpa [← hlength] using hrest) rest rfl

end Groups

end RobotsLine

/-! ## The parser -/

section Parser

variable (toLowerCase : String → String)

def lineOf (line : RawDirective) : RobotsLine :=
  if line.field = "user-agent" then
    .agent (if toLowerCase line.value = "" then none else some (toLowerCase line.value))
  else
    match robotsDirective? line.field with
    | some directive =>
      .rule (if !isValidPathValue line.value then none
        else if directive = .disallow ∧ line.value = "" then none
        else some ⟨directive, normalizePercentEncoding line.value⟩)
    | none => if line.field = "sitemap" then .sitemap else .other

/-- The directives of a robots.txt as the groups see them. -/
def linesOf (text : String) : List RobotsLine :=
  ((robotsLines text).filterMap (parseLine toLowerCase)).map (lineOf toLowerCase)

/-- The line is neither a sitemap line nor one with an unknown field. -/
def keepsLine (line : List Char) : Bool :=
  match parseLine toLowerCase line with
  | none => true
  | some directive => ["user-agent", "allow", "disallow"].contains directive.field

/-- The text without the sitemap lines and the lines with unknown fields. -/
def withoutSitemaps (text : String) : String :=
  String.ofList (['\n'].intercalate ((robotsLines text).filter (keepsLine toLowerCase)))

theorem step_groups (state : ParserState) (line : RawDirective) (lines : List RobotsLine) :
    (state.step toLowerCase line).groups ++ RobotsLine.groupsOf (state.step toLowerCase line).currentAgents
        (state.step toLowerCase line).currentRules (state.step toLowerCase line).collectingAgents lines =
      state.groups ++ RobotsLine.groupsOf state.currentAgents state.currentRules
        state.collectingAgents (lineOf toLowerCase line :: lines) := by
  unfold ParserState.step lineOf
  by_cases hagent : line.field = "user-agent"
  · simp only [hagent, if_true, RobotsLine.groupsOf]
    cases state.collectingAgents <;> by_cases htoken : toLowerCase line.value = "" <;>
      by_cases hagents : state.currentAgents = [] <;>
      simp [ParserState.flushGroup, RobotsLine.flushed, htoken, hagents]
  · simp only [hagent, if_false]
    cases robotsDirective? line.field with
    | some directive =>
      simp only [RobotsLine.groupsOf]
      by_cases hagents : state.currentAgents = []
      · simp [hagents]
      · by_cases hvalid : isValidPathValue line.value <;>
          by_cases hempty : directive = .disallow ∧ line.value = "" <;>
          simp [hagents, hvalid, hempty]
    | none =>
      by_cases hsitemap : line.field = "sitemap" <;> simp [hsitemap, RobotsLine.groupsOf]

theorem foldl_groups (directives : List RawDirective) (state : ParserState) :
    (directives.foldl (ParserState.step toLowerCase) state).flushGroup.groups =
      state.groups ++ RobotsLine.groupsOf state.currentAgents state.currentRules
        state.collectingAgents (directives.map (lineOf toLowerCase)) := by
  induction directives generalizing state with
  | nil =>
    by_cases hagents : state.currentAgents = [] <;>
      simp [ParserState.flushGroup, RobotsLine.groupsOf, RobotsLine.flushed, hagents]
  | cons line directives ih =>
    rw [List.foldl_cons, ih, List.map_cons]
    exact step_groups toLowerCase state line _

theorem parseRobotsTxt_groups (text : String) :
    (parseRobotsTxt toLowerCase text).groups =
      RobotsLine.groupsOf [] [] false (linesOf toLowerCase text) := by
  rw [parseRobotsTxt, parseLines]
  exact foldl_groups toLowerCase _ ParserState.start

theorem lineOf_kept (directive : RawDirective) :
    ((lineOf toLowerCase directive).isAgent || (lineOf toLowerCase directive).isRule) =
      ["user-agent", "allow", "disallow"].contains directive.field := by
  unfold lineOf robotsDirective?
  by_cases hagent : directive.field = "user-agent"
  · simp [hagent, RobotsLine.isAgent]
  · simp only [hagent, if_false]
    split
    next directive' heq =>
      split at heq
      next hallow => simp [hallow, RobotsLine.isRule]
      next hdisallow => simp [hdisallow, RobotsLine.isRule]
      next => cases heq
    next heq =>
      split at heq
      next => cases heq
      next => cases heq
      next hallow hdisallow =>
        have hne : directive.field ≠ "allow" ∧ directive.field ≠ "disallow" := ⟨hallow, hdisallow⟩
        by_cases hsitemap : directive.field = "sitemap" <;>
          simp [hsitemap, hagent, hne, RobotsLine.isAgent, RobotsLine.isRule]

theorem kept_lines (lines : List (List Char)) :
    ((lines.filter (keepsLine toLowerCase)).filterMap (parseLine toLowerCase)).map (lineOf toLowerCase) =
      RobotsLine.kept ((lines.filterMap (parseLine toLowerCase)).map (lineOf toLowerCase)) := by
  induction lines with
  | nil => rfl
  | cons line lines ih =>
    cases hparse : parseLine toLowerCase line with
    | none =>
      have hkeeps : keepsLine toLowerCase line = true := by rw [keepsLine, hparse]
      rw [List.filter_cons_of_pos hkeeps, List.filterMap_cons_none hparse, List.filterMap_cons_none hparse,
        ih]
    | some directive =>
      have hkeeps : keepsLine toLowerCase line =
          ((lineOf toLowerCase directive).isAgent || (lineOf toLowerCase directive).isRule) := by
        rw [keepsLine, hparse, lineOf_kept]
      rw [List.filterMap_cons_some hparse, List.map_cons, RobotsLine.kept, List.filter_cons, List.filter_cons,
        hkeeps]
      split
      next => rw [List.filterMap_cons_some hparse, List.map_cons, ih, RobotsLine.kept]
      next => exact ih

/-! ## The text -/

/-- No line has a line break in it. -/
private theorem mem_splitOn {separator : Char} {text line : List Char} {ch : Char}
    (hline : line ∈ text.splitOn separator) (hch : ch ∈ line) : ch ∈ text ∧ ch ≠ separator := by
  induction text generalizing line with
  | nil =>
    rw [List.splitOn_nil, List.mem_singleton] at hline
    subst hline
    cases hch
  | cons first text ih =>
    rw [List.splitOn_cons_eq_if_modifyHead] at hline
    split at hline
    next hseparator =>
      rcases List.mem_cons.mp hline with rfl | hrest
      · cases hch
      · have hfound := ih hrest hch
        exact ⟨List.mem_cons_of_mem _ hfound.1, hfound.2⟩
    next hseparator =>
      obtain ⟨head, tail, hsplit⟩ := List.exists_cons_of_ne_nil (List.splitOn_ne_nil separator text)
      rw [hsplit, List.modifyHead_cons] at hline
      have hhead : head ∈ text.splitOn separator := hsplit ▸ List.mem_cons_self
      rcases List.mem_cons.mp hline with rfl | hrest
      · rcases List.mem_cons.mp hch with rfl | hin
        · exact ⟨List.mem_cons_self, by simpa using hseparator⟩
        · have hfound := ih hhead hin
          exact ⟨List.mem_cons_of_mem _ hfound.1, hfound.2⟩
      · have hfound := ih (hsplit ▸ List.mem_cons_of_mem _ hrest) hch
        exact ⟨List.mem_cons_of_mem _ hfound.1, hfound.2⟩

private theorem not_mem_unifyNewlines (text : List Char) : '\r' ∉ unifyNewlines text := by
  fun_induction unifyNewlines text with
  | case1 => simp
  | case2 rest ih => simp [ih]
  | case3 rest _ ih => simp [ih]
  | case4 ch rest _ hch ih =>
    rw [List.mem_cons]
    rintro (rfl | hrest)
    · exact hch rfl
    · exact ih hrest

private theorem unifyNewlines_of_not_mem {text : List Char} (h : '\r' ∉ text) :
    unifyNewlines text = text := by
  fun_induction unifyNewlines text with
  | case1 => rfl
  | case2 rest ih => simp at h
  | case3 rest _ ih => simp at h
  | case4 ch rest _ _ ih => rw [ih (fun hrest => h (List.mem_cons_of_mem _ hrest))]

private theorem mem_intercalate {separator : Char} {lines : List (List Char)} {ch : Char}
    (h : ch ∈ [separator].intercalate lines) : ch = separator ∨ ∃ line ∈ lines, ch ∈ line := by
  induction lines with
  | nil =>
    rw [List.intercalate_nil] at h
    cases h
  | cons line lines ih =>
    cases lines with
    | nil =>
      rw [List.intercalate_singleton] at h
      exact Or.inr ⟨line, List.mem_cons_self, h⟩
    | cons next lines =>
      rw [List.intercalate_cons_cons] at h
      simp only [List.mem_append, List.mem_singleton] at h
      rcases h with (hline | hseparator) | hrest
      · exact Or.inr ⟨line, List.mem_cons_self, hline⟩
      · exact Or.inl hseparator
      · rcases ih hrest with hseparator | ⟨found, hfound, hch⟩
        · exact Or.inl hseparator
        · exact Or.inr ⟨found, List.mem_cons_of_mem _ hfound, hch⟩

private theorem robotsLine_no_break {text : String} {line : List Char} (hline : line ∈ robotsLines text)
    {ch : Char} (hch : ch ∈ line) : ch ≠ '\n' ∧ ch ≠ '\r' := by
  obtain ⟨hin, hne⟩ := mem_splitOn hline hch
  refine ⟨hne, ?_⟩
  rintro rfl
  exact not_mem_unifyNewlines _ hin

/-- A byte order mark before a line is white space. -/
private theorem parseLine_bom (line : List Char) :
    parseLine toLowerCase ('\uFEFF' :: line) = parseLine toLowerCase line := by
  have hcomment : stripComment ('\uFEFF' :: line) = '\uFEFF' :: stripComment line := rfl
  have htrim : trim (String.ofList ('\uFEFF' :: stripComment line)) =
      trim (String.ofList (stripComment line)) := by
    have hspace : isJsSpace '\uFEFF' = true := by decide
    simp [trim, hspace]
  rw [parseLine, parseLine, hcomment, htrim]

/-- Whether the mark at the beginning is taken off does not matter. -/
private theorem stripBom_directives (text : List Char) :
    ((unifyNewlines (stripBom text)).splitOn '\n').filterMap (parseLine toLowerCase) =
      ((unifyNewlines text).splitOn '\n').filterMap (parseLine toLowerCase) := by
  cases text with
  | nil => rfl
  | cons ch rest =>
    rw [stripBom]
    split
    next hbom =>
      subst hbom
      have hunify : unifyNewlines ('\uFEFF' :: rest) = '\uFEFF' :: unifyNewlines rest := by
        rw [unifyNewlines] <;> simp
      obtain ⟨head, tail, hsplit⟩ :=
        List.exists_cons_of_ne_nil (List.splitOn_ne_nil '\n' (unifyNewlines rest))
      rw [hunify, List.splitOn_cons_eq_if_modifyHead, if_neg (by decide), hsplit, List.modifyHead_cons,
        List.filterMap_cons, List.filterMap_cons, parseLine_bom]
    next => rfl

theorem linesOf_withoutSitemaps (text : String) :
    linesOf toLowerCase (withoutSitemaps toLowerCase text) =
      RobotsLine.kept (linesOf toLowerCase text) := by
  have hlines : ∀ line ∈ (robotsLines text).filter (keepsLine toLowerCase), ∀ ch ∈ line,
      ch ≠ '\n' ∧ ch ≠ '\r' :=
    fun line hline ch hch => robotsLine_no_break (List.mem_of_mem_filter hline) hch
  have hreturn : '\r' ∉ ['\n'].intercalate ((robotsLines text).filter (keepsLine toLowerCase)) := by
    intro hmem
    rcases mem_intercalate hmem with hne | ⟨line, hline, hch⟩
    · exact absurd hne (by decide)
    · exact (hlines line hline _ hch).2 rfl
  rw [linesOf, linesOf, ← kept_lines, robotsLines, withoutSitemaps, String.toList_ofList,
    stripBom_directives, unifyNewlines_of_not_mem hreturn]
  by_cases hnil : (robotsLines text).filter (keepsLine toLowerCase) = []
  · rw [hnil]
    rfl
  · rw [List.splitOn_intercalate '\n' (fun line hline hch => (hlines line hline _ hch).1 rfl) hnil]

/-- The groups are those of the text without its sitemap lines exactly where no sitemap line splits
a run of user-agent lines. -/
theorem sitemapLines_transparent_iff (text : String) :
    (parseRobotsTxt toLowerCase (withoutSitemaps toLowerCase text)).groups =
        (parseRobotsTxt toLowerCase text).groups ↔
      RobotsLine.splitsRun false (linesOf toLowerCase text) = false := by
  rw [parseRobotsTxt_groups, parseRobotsTxt_groups, linesOf_withoutSitemaps]
  have hagrees := RobotsLine.agrees (linesOf toLowerCase text) [] [] false
    (fun hcollecting => absurd hcollecting Bool.false_ne_true)
  exact eq_comm.trans hagrees

end Parser

/-- The rule is lost for the first of the two tokens. -/
theorem sitemapLines_split :
    (parseRobotsTxt id (withoutSitemaps id
        "user-agent: a\nsitemap: /x\nuser-agent: b\ndisallow: /")).groups ≠
      (parseRobotsTxt id "user-agent: a\nsitemap: /x\nuser-agent: b\ndisallow: /").groups := by
  decide

end Utsuroi
