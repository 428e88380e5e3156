import Mathlib.Logic.Relation
import Utsuroi.Robots.Proofs.Glob

/-!
# What the verdict of a robots.txt says

The verdict depends on which rules are declared for which tokens, not on how the groups and the
rules are laid out in the file.
-/

namespace Utsuroi

/-! ## The longest rule -/

/-- The rule's pattern matches the path, from its beginning or as a whole. -/
def RobotsRule.Covers (rule : RobotsRule) (path : List Nat) : Prop :=
  if rule.units.getLast? = some END_ANCHOR then Glob.Matches STAR rule.units.dropLast path
  else ∃ start, start <+: path ∧ Glob.Matches STAR rule.units start

theorem RobotsRule.covers_iff (rule : RobotsRule) (path : List Nat) :
    matchesPattern rule.units path = true ↔ rule.Covers path :=
  matchesPattern_iff rule.units path

/-- No rule for the path is longer, and no rule that allows it is as long as one that does not. -/
structure IsBest (path : List Nat) (seen : List RobotsRule) (best : RobotsRule) : Prop where
  mem : best ∈ seen
  covers : best.Covers path
  longest : ∀ rule ∈ seen, rule.Covers path → rule.units.length ≤ best.units.length
  allow_first : best.directive = .disallow →
    ∀ rule ∈ seen, rule.Covers path → rule.directive = .allow →
      rule.units.length < best.units.length

/-- What the loop has found among the rules seen. -/
inductive Found (path : List Nat) (seen : List RobotsRule) : Option RobotsRule → Prop
  | none (h : ∀ rule ∈ seen, ¬rule.Covers path) : Found path seen none
  | some {best : RobotsRule} (h : IsBest path seen best) : Found path seen (some best)

section Best

variable {path : List Nat} {seen : List RobotsRule} {best rule : RobotsRule}

/-- A rule that does not change the choice. -/
private theorem IsBest.keep (h : IsBest path seen best)
    (hrule : rule.Covers path → rule.units.length ≤ best.units.length ∧
      (best.directive = .disallow → rule.directive = .allow →
        rule.units.length < best.units.length)) :
    IsBest path (seen ++ [rule]) best where
  mem := List.mem_append_left _ h.mem
  covers := h.covers
  longest := by
    intro other hother hcovers
    rcases List.mem_append.mp hother with hseen | hnew
    · exact h.longest other hseen hcovers
    · obtain rfl := List.mem_singleton.mp hnew
      exact (hrule hcovers).1
  allow_first := by
    intro hdisallow other hother hcovers hallow
    rcases List.mem_append.mp hother with hseen | hnew
    · exact h.allow_first hdisallow other hseen hcovers hallow
    · obtain rfl := List.mem_singleton.mp hnew
      exact (hrule hcovers).2 hdisallow hallow

/-- A rule that takes the place of what was found. -/
private theorem IsBest.take (hcovers : rule.Covers path)
    (hlongest : ∀ other ∈ seen, other.Covers path → other.units.length ≤ rule.units.length)
    (hallow : rule.directive = .disallow → ∀ other ∈ seen, other.Covers path →
      other.directive = .allow → other.units.length < rule.units.length) :
    IsBest path (seen ++ [rule]) rule where
  mem := List.mem_append_right _ (List.mem_singleton_self rule)
  covers := hcovers
  longest := by
    intro other hother hother_covers
    rcases List.mem_append.mp hother with hseen | hnew
    · exact hlongest other hseen hother_covers
    · obtain rfl := List.mem_singleton.mp hnew
      exact le_rfl
  allow_first := by
    intro hdisallow other hother hother_covers hother_allow
    rcases List.mem_append.mp hother with hseen | hnew
    · exact hallow hdisallow other hseen hother_covers hother_allow
    · obtain rfl := List.mem_singleton.mp hnew
      cases hother_allow.symm.trans hdisallow

private theorem isBest_step (h : IsBest path seen best) (hcovers : rule.Covers path) :
    Found path (seen ++ [rule]) (if rule.units.length > best.units.length then some rule
      else if rule.units.length = best.units.length ∧ rule.directive = .allow ∧
          best.directive = .disallow then some rule
      else some best) := by
  split
  next hlonger =>
    apply Found.some
    apply IsBest.take hcovers
    · intro other hother hother_covers
      exact (h.longest other hother hother_covers).trans hlonger.le
    · intro _ other hother hother_covers _
      exact (h.longest other hother hother_covers).trans_lt hlonger
  next hshorter =>
    split
    next htie =>
      apply Found.some
      apply IsBest.take hcovers
      · intro other hother hother_covers
        exact (h.longest other hother hother_covers).trans htie.1.ge
      · intro hdisallow
        cases htie.2.1.symm.trans hdisallow
    next hnot =>
      apply Found.some
      apply h.keep
      intro _
      constructor
      · exact Nat.not_lt.mp hshorter
      · intro hdisallow hallow
        have hne : rule.units.length ≠ best.units.length := fun heq => hnot ⟨heq, hallow, hdisallow⟩
        omega

private theorem betterRule_found {found : Option RobotsRule} (h : Found path seen found) :
    Found path (seen ++ [rule]) (betterRule path found rule) := by
  unfold betterRule
  split
  next hmatches =>
    have hcovers := (rule.covers_iff path).mp hmatches
    cases h with
    | none hnone =>
      apply Found.some
      apply IsBest.take hcovers
      · intro other hother hother_covers
        exact absurd hother_covers (hnone other hother)
      · intro _ other hother hother_covers
        exact absurd hother_covers (hnone other hother)
    | some hbest => exact isBest_step hbest hcovers
  next hmatches =>
    have hnot : ¬rule.Covers path := fun hcovers => hmatches ((rule.covers_iff path).mpr hcovers)
    cases h with
    | none hnone =>
      apply Found.none
      intro other hother
      rcases List.mem_append.mp hother with hseen | hnew
      · exact hnone other hseen
      · obtain rfl := List.mem_singleton.mp hnew
        exact hnot
    | some hbest => exact Found.some (hbest.keep fun hcovers => absurd hcovers hnot)

theorem bestRuleForPath_found (rules : List RobotsRule) (path : List Nat) :
    Found path rules (bestRuleForPath rules path) := by
  unfold bestRuleForPath
  induction rules using List.reverseRecOn with
  | nil =>
    apply Found.none
    intro rule hrule
    cases hrule
  | append_singleton rules rule ih =>
    rw [List.foldl_append]
    exact betterRule_found ih

end Best

/-! ## The rules that apply -/

section Applies

variable (toLowerCase : String → String) (uaToken : String) (groups : List RobotsGroup)

/-- Some group is for the token. -/
def Declares (ua : String) : Prop := ∃ group ∈ groups, ua ∈ group.userAgents

/-- The rule stands in a group for the token. -/
def DeclaresFor (ua : String) (rule : RobotsRule) : Prop :=
  ∃ group ∈ groups, ua ∈ group.userAgents ∧ rule ∈ group.rules

/-- The token names the crawler. -/
def Names (ua : String) : Prop := Declares groups ua ∧ agentMatches toLowerCase uaToken ua = true

/-- The token is a longest of those that name the crawler. -/
def NamesBest (ua : String) : Prop :=
  Names toLowerCase uaToken groups ua ∧
    ∀ other, Names toLowerCase uaToken groups other →
      (utf16Units other).length ≤ (utf16Units ua).length

/-- The rule is for the crawler: for a token that names it best, or, where none does, for all. -/
def Applies (rule : RobotsRule) : Prop :=
  ∃ ua, DeclaresFor groups ua rule ∧
    (NamesBest toLowerCase uaToken groups ua ∨
      (∀ other, ¬Names toLowerCase uaToken groups other) ∧ ua = "*")

/-- Some rule for the crawler that covers the path disallows it, and every one that allows it is
shorter than the longest of these. -/
def Disallows (path : List Nat) : Prop :=
  ∃ rule, Applies toLowerCase uaToken groups rule ∧ rule.directive = .disallow ∧ rule.Covers path ∧
    (∀ other, Applies toLowerCase uaToken groups other → other.directive = .disallow →
      other.Covers path → other.units.length ≤ rule.units.length) ∧
    ∀ other, Applies toLowerCase uaToken groups other → other.directive = .allow →
      other.Covers path → other.units.length < rule.units.length

end Applies

/-! ## The groups that are selected -/

section Selected

variable {toLowerCase : String → String} {uaToken : String} {groups : List RobotsGroup}

theorem agentMatches_length {ua : String} (h : agentMatches toLowerCase uaToken ua = true) :
    0 < (utf16Units ua).length := by
  apply List.length_pos_of_ne_nil
  intro hnil
  have hempty : ua = "" := utf16Units_injective (hnil.trans rfl)
  simp [agentMatches, hempty] at h

/-- The tokens with their groups, in the order of the file. -/
def agentEntries (groups : List RobotsGroup) : List ((RobotsGroup × Nat) × String) :=
  groups.zipIdx.flatMap fun group => group.1.userAgents.map fun ua => (group, ua)

theorem mem_agentEntries {group : RobotsGroup} {place : Nat} {ua : String} :
    ((group, place), ua) ∈ agentEntries groups ↔ groups[place]? = some group ∧ ua ∈ group.userAgents := by
  simp only [agentEntries, List.mem_flatMap, List.mem_map, Prod.mk.injEq]
  constructor
  · rintro ⟨other, hother, _, hua, rfl, rfl⟩
    exact ⟨List.mem_zipIdx_iff_getElem?.mp hother, hua⟩
  · rintro ⟨hplace, hua⟩
    exact ⟨(group, place), List.mem_zipIdx_iff_getElem?.mpr hplace, ua, hua, rfl, rfl⟩

theorem names_iff {ua : String} :
    Names toLowerCase uaToken groups ua ↔
      (∃ group, (group, ua) ∈ agentEntries groups) ∧ agentMatches toLowerCase uaToken ua = true := by
  apply and_congr_left
  intro _
  constructor
  · rintro ⟨group, hgroup, hua⟩
    obtain ⟨place, hplace⟩ := List.getElem?_of_mem hgroup
    exact ⟨(group, place), mem_agentEntries.mpr ⟨hplace, hua⟩⟩
  · rintro ⟨⟨group, place⟩, hentry⟩
    obtain ⟨hplace, hua⟩ := mem_agentEntries.mp hentry
    exact ⟨group, List.mem_of_getElem? hplace, hua⟩

/-- What the loops of `selectApplicableGroups` have found among the tokens seen. -/
structure Selected (toLowerCase : String → String) (uaToken : String)
    (seen : List ((RobotsGroup × Nat) × String)) (found : MatchedGroups) : Prop where
  longest : ∀ entry ∈ seen, agentMatches toLowerCase uaToken entry.2 = true →
    (utf16Units entry.2).length ≤ found.bestLen
  mem_iff : ∀ group, group ∈ found.matched ↔ ∃ ua, (group, ua) ∈ seen ∧
    agentMatches toLowerCase uaToken ua = true ∧ (utf16Units ua).length = found.bestLen
  attained : found.bestLen ≠ 0 → found.matched ≠ []

variable {seen : List ((RobotsGroup × Nat) × String)} {found : MatchedGroups}
  {group : RobotsGroup × Nat} {ua : String}

/-- A token that is not among the longest changes nothing. -/
private theorem Selected.keep (h : Selected toLowerCase uaToken seen found)
    (hua : agentMatches toLowerCase uaToken ua = true → (utf16Units ua).length < found.bestLen) :
    Selected toLowerCase uaToken (seen ++ [(group, ua)]) found where
  longest := by
    intro entry hentry hmatches
    rcases List.mem_append.mp hentry with hseen | hnew
    · exact h.longest entry hseen hmatches
    · obtain rfl := List.mem_singleton.mp hnew
      exact (hua hmatches).le
  mem_iff := by
    intro other
    rw [h.mem_iff]
    constructor
    · rintro ⟨token, hseen, hmatches⟩
      exact ⟨token, List.mem_append_left _ hseen, hmatches⟩
    · rintro ⟨token, hentry, hmatches, hlength⟩
      rcases List.mem_append.mp hentry with hseen | hnew
      · exact ⟨token, hseen, hmatches, hlength⟩
      · cases List.mem_singleton.mp hnew
        exact absurd hlength (hua hmatches).ne
  attained := h.attained

/-- A longer token drops what was matched before. -/
private theorem Selected.longer (h : Selected toLowerCase uaToken seen found)
    (hmatches : agentMatches toLowerCase uaToken ua = true)
    (hlonger : found.bestLen < (utf16Units ua).length) :
    Selected toLowerCase uaToken (seen ++ [(group, ua)]) ⟨(utf16Units ua).length, [group]⟩ where
  longest := by
    intro entry hentry hother
    rcases List.mem_append.mp hentry with hseen | hnew
    · exact (h.longest entry hseen hother).trans hlonger.le
    · obtain rfl := List.mem_singleton.mp hnew
      exact le_rfl
  mem_iff := by
    intro other
    rw [List.mem_singleton]
    constructor
    · rintro rfl
      exact ⟨ua, List.mem_append_right _ (List.mem_singleton_self _), hmatches, rfl⟩
    · rintro ⟨token, hentry, hother, hlength⟩
      rcases List.mem_append.mp hentry with hseen | hnew
      · have hle : (utf16Units token).length ≤ found.bestLen := h.longest _ hseen hother
        simp only at hlength
        omega
      · cases List.mem_singleton.mp hnew
        rfl
  attained := by
    intro _
    exact List.cons_ne_nil _ _

/-- A token as long as the longest adds its group, unless it is there. -/
private theorem Selected.tie (h : Selected toLowerCase uaToken seen found)
    (hplaces : ∀ entry ∈ seen, entry.1.2 = group.2 → entry.1 = group)
    (hmatches : agentMatches toLowerCase uaToken ua = true)
    (htie : (utf16Units ua).length = found.bestLen) :
    Selected toLowerCase uaToken (seen ++ [(group, ua)])
      (if found.matched.any (·.2 == group.2) then found
        else { found with matched := found.matched ++ [group] }) := by
  have hlongest : ∀ entry ∈ seen ++ [(group, ua)], agentMatches toLowerCase uaToken entry.2 = true →
      (utf16Units entry.2).length ≤ found.bestLen := by
    intro entry hentry hother
    rcases List.mem_append.mp hentry with hseen | hnew
    · exact h.longest entry hseen hother
    · obtain rfl := List.mem_singleton.mp hnew
      exact htie.le
  have hmem : ∀ other, (∃ token, (other, token) ∈ seen ++ [(group, ua)] ∧
      agentMatches toLowerCase uaToken token = true ∧ (utf16Units token).length = found.bestLen) ↔
      other ∈ found.matched ∨ other = group := by
    intro other
    rw [h.mem_iff]
    constructor
    · rintro ⟨token, hentry, hother, hlength⟩
      rcases List.mem_append.mp hentry with hseen | hnew
      · exact Or.inl ⟨token, hseen, hother, hlength⟩
      · cases List.mem_singleton.mp hnew
        exact Or.inr rfl
    · rintro (⟨token, hseen, hother⟩ | rfl)
      · exact ⟨token, List.mem_append_left _ hseen, hother⟩
      · exact ⟨ua, List.mem_append_right _ (List.mem_singleton_self _), hmatches, htie⟩
  split
  next hthere =>
    obtain ⟨other, hother, hplace⟩ := List.any_eq_true.mp hthere
    have hgroup : group ∈ found.matched := by
      obtain ⟨token, hseen, _⟩ := (h.mem_iff other).mp hother
      have heq : other = group := hplaces _ hseen (beq_iff_eq.mp hplace)
      exact heq ▸ hother
    refine ⟨hlongest, ?_, h.attained⟩
    intro other
    rw [hmem]
    constructor
    · exact Or.inl
    · rintro (hmatched | rfl)
      · exact hmatched
      · exact hgroup
  next =>
    refine ⟨hlongest, ?_, ?_⟩
    · intro other
      rw [hmem, List.mem_append, List.mem_singleton]
    · intro _
      simp

private theorem see_selected (h : Selected toLowerCase uaToken seen found)
    (hplaces : ∀ entry ∈ seen, entry.1.2 = group.2 → entry.1 = group) :
    Selected toLowerCase uaToken (seen ++ [(group, ua)])
      (MatchedGroups.see toLowerCase uaToken group found ua) := by
  unfold MatchedGroups.see
  by_cases hmatches : agentMatches toLowerCase uaToken ua = true
  · rw [if_pos hmatches]
    simp only [gt_iff_lt]
    rcases Nat.lt_trichotomy found.bestLen (utf16Units ua).length with hlonger | htie | hshorter
    · rw [if_pos hlonger]
      exact h.longer hmatches hlonger
    · rw [if_neg htie.not_lt, if_pos htie.symm]
      exact h.tie hplaces hmatches htie.symm
    · rw [if_neg hshorter.not_gt, if_neg hshorter.ne]
      exact h.keep fun _ => hshorter
  · rw [if_neg hmatches]
    exact h.keep fun hyes => absurd hyes hmatches

private theorem agentEntries_place {entry other : (RobotsGroup × Nat) × String}
    (hentry : entry ∈ agentEntries groups) (hother : other ∈ agentEntries groups)
    (hplace : entry.1.2 = other.1.2) : entry.1 = other.1 := by
  obtain ⟨⟨group, place⟩, ua⟩ := entry
  obtain ⟨⟨group', place'⟩, ua'⟩ := other
  obtain rfl : place = place' := hplace
  have hgroup := (mem_agentEntries.mp hentry).1
  have hgroup' := (mem_agentEntries.mp hother).1
  rw [hgroup] at hgroup'
  cases hgroup'
  rfl

theorem matchedGroups_selected (toLowerCase : String → String) (uaToken : String)
    (groups : List RobotsGroup) :
    Selected toLowerCase uaToken (agentEntries groups) (matchedGroups toLowerCase uaToken groups) := by
  have hfold : matchedGroups toLowerCase uaToken groups = (agentEntries groups).foldl
      (fun found entry => MatchedGroups.see toLowerCase uaToken entry.1 found entry.2) ⟨0, []⟩ := by
    simp only [matchedGroups, agentEntries, List.foldl_flatMap, List.foldl_map]
  have hplaces : ∀ entry ∈ agentEntries groups, ∀ other ∈ agentEntries groups,
      entry.1.2 = other.1.2 → entry.1 = other.1 :=
    fun _ hentry _ hother => agentEntries_place hentry hother
  rw [hfold]
  generalize agentEntries groups = entries at hplaces
  induction entries using List.reverseRecOn with
  | nil =>
    refine ⟨?_, ?_, ?_⟩
    · intro entry hentry
      cases hentry
    · intro group
      simp
    · intro hne
      exact absurd rfl hne
  | append_singleton entries entry ih =>
    rw [List.foldl_append]
    apply see_selected
    · exact ih fun _ hentry _ hother =>
        hplaces _ (List.mem_append_left _ hentry) _ (List.mem_append_left _ hother)
    · intro other hother hplace
      exact hplaces _ (List.mem_append_left _ hother) _
        (List.mem_append_right _ (List.mem_singleton_self entry)) hplace

theorem matched_eq_nil_iff :
    (matchedGroups toLowerCase uaToken groups).matched = [] ↔
      ∀ ua, ¬Names toLowerCase uaToken groups ua := by
  have hselected := matchedGroups_selected toLowerCase uaToken groups
  constructor
  · intro hnil ua hnames
    obtain ⟨⟨group, hentry⟩, hmatches⟩ := names_iff.mp hnames
    have hzero : (matchedGroups toLowerCase uaToken groups).bestLen = 0 :=
      by_contra fun hne => hselected.attained hne hnil
    have hle := hselected.longest _ hentry hmatches
    have hpos := agentMatches_length hmatches
    simp only at hle
    omega
  · intro hnone
    apply List.eq_nil_iff_forall_not_mem.mpr
    intro group hgroup
    obtain ⟨ua, hentry, hmatches, _⟩ := (hselected.mem_iff group).mp hgroup
    exact hnone ua (names_iff.mpr ⟨⟨group, hentry⟩, hmatches⟩)

/-- The groups that are kept are those for a token that names the crawler best. -/
theorem mem_matched_iff {group : RobotsGroup} :
    group ∈ (matchedGroups toLowerCase uaToken groups).matched.map Prod.fst ↔
      group ∈ groups ∧ ∃ ua ∈ group.userAgents, NamesBest toLowerCase uaToken groups ua := by
  have hselected := matchedGroups_selected toLowerCase uaToken groups
  rw [List.mem_map]
  constructor
  · rintro ⟨⟨group, place⟩, hmatched, rfl⟩
    obtain ⟨ua, hentry, hmatches, hlength⟩ := (hselected.mem_iff _).mp hmatched
    obtain ⟨hplace, hua⟩ := mem_agentEntries.mp hentry
    refine ⟨List.mem_of_getElem? hplace, ua, hua, names_iff.mpr ⟨⟨_, hentry⟩, hmatches⟩, ?_⟩
    intro other hother
    obtain ⟨⟨_, hother_entry⟩, hother_matches⟩ := names_iff.mp hother
    exact (hselected.longest _ hother_entry hother_matches).trans hlength.ge
  · rintro ⟨hgroup, ua, hua, hnames, hbest⟩
    obtain ⟨place, hplace⟩ := List.getElem?_of_mem hgroup
    have hentry : ((group, place), ua) ∈ agentEntries groups := mem_agentEntries.mpr ⟨hplace, hua⟩
    have hne : (matchedGroups toLowerCase uaToken groups).matched ≠ [] :=
      fun hnil => matched_eq_nil_iff.mp hnil ua hnames
    obtain ⟨other, hother⟩ := List.exists_mem_of_ne_nil _ hne
    obtain ⟨token, htoken, hmatches, hlength⟩ := (hselected.mem_iff other).mp hother
    have hle : (utf16Units token).length ≤ (utf16Units ua).length :=
      hbest token (names_iff.mpr ⟨⟨other, htoken⟩, hmatches⟩)
    have hge := hselected.longest _ hentry hnames.2
    refine ⟨(group, place), (hselected.mem_iff _).mpr ⟨ua, hentry, hnames.2, ?_⟩, rfl⟩
    simp only at hge
    omega

/-- The rules that are compared are those that apply. -/
theorem mem_allRules_iff (rules : RobotsRules) (rule : RobotsRule) :
    rule ∈ (selectApplicableGroups toLowerCase uaToken rules).1.flatMap RobotsGroup.rules ↔
      Applies toLowerCase uaToken rules.groups rule := by
  rw [List.mem_flatMap]
  unfold selectApplicableGroups Applies
  by_cases hmatched : (matchedGroups toLowerCase uaToken rules.groups).matched = []
  · have hnone := matched_eq_nil_iff.mp hmatched
    have hwild : ∀ group, group ∈ (if (rules.groups.filter fun group => group.userAgents.contains "*") ≠ []
        then (rules.groups.filter fun group => group.userAgents.contains "*", "*")
        else ([], "none")).1 ↔ group ∈ rules.groups ∧ "*" ∈ group.userAgents := by
      intro group
      have hfilter : group ∈ rules.groups.filter (fun group => group.userAgents.contains "*") ↔
          group ∈ rules.groups ∧ "*" ∈ group.userAgents := by
        rw [List.mem_filter, List.contains_iff_mem]
      split
      next => exact hfilter
      next hnil =>
        rw [← hfilter, not_not.mp hnil]
    rw [if_neg (not_not.mpr hmatched)]
    constructor
    · rintro ⟨group, hgroup, hrule⟩
      obtain ⟨hmem, hstar⟩ := (hwild group).mp hgroup
      exact ⟨"*", ⟨group, hmem, hstar, hrule⟩, Or.inr ⟨hnone, rfl⟩⟩
    · rintro ⟨ua, ⟨group, hmem, hua, hrule⟩, hbest | ⟨_, rfl⟩⟩
      · exact absurd hbest.1 (hnone ua)
      · exact ⟨group, (hwild group).mpr ⟨hmem, hua⟩, hrule⟩
  · rw [if_pos hmatched]
    constructor
    · rintro ⟨group, hgroup, hrule⟩
      obtain ⟨hmem, ua, hua, hbest⟩ := mem_matched_iff.mp hgroup
      exact ⟨ua, ⟨group, hmem, hua, hrule⟩, Or.inl hbest⟩
    · rintro ⟨ua, ⟨group, hmem, hua, hrule⟩, hbest | ⟨hnone, _⟩⟩
      · exact ⟨group, mem_matched_iff.mpr ⟨hmem, ua, hua, hbest⟩, hrule⟩
      · exact absurd (matched_eq_nil_iff.mpr hnone) hmatched

end Selected

/-! ## The verdict -/

section Verdict

variable (toLowerCase : String → String) (uaToken : String) (rules : RobotsRules) (url : UrlPath)

private theorem verdict_of_best :
    (evaluateRobots toLowerCase uaToken rules url).verdict = .disallowed ↔
      ∃ best, bestRuleForPath
        ((selectApplicableGroups toLowerCase uaToken rules).1.flatMap RobotsGroup.rules)
        (utf16Units (pathAndQueryOf url)) = some best ∧ best.directive = .disallow := by
  unfold evaluateRobots
  by_cases hnil : (selectApplicableGroups toLowerCase uaToken rules).1 = []
  · simp [hnil, bestRuleForPath]
  · simp only [hnil, if_false]
    cases hbest : bestRuleForPath
        ((selectApplicableGroups toLowerCase uaToken rules).1.flatMap RobotsGroup.rules)
        (utf16Units (pathAndQueryOf url)) with
    | none => simp
    | some best => cases hdirective : best.directive <;> simp [hdirective]

theorem verdict_iff :
    (evaluateRobots toLowerCase uaToken rules url).verdict = .disallowed ↔
      Disallows toLowerCase uaToken rules.groups (utf16Units (pathAndQueryOf url)) := by
  rw [verdict_of_best]
  have hfound := bestRuleForPath_found
    ((selectApplicableGroups toLowerCase uaToken rules).1.flatMap RobotsGroup.rules)
    (utf16Units (pathAndQueryOf url))
  have hmem := @mem_allRules_iff toLowerCase uaToken rules
  constructor
  · rintro ⟨best, hbest, hdisallow⟩
    rw [hbest] at hfound
    cases hfound with
    | some h =>
      refine ⟨best, (hmem best).mp h.mem, hdisallow, h.covers, ?_, ?_⟩
      · intro other hother _ hcovers
        exact h.longest other ((hmem other).mpr hother) hcovers
      · intro other hother hallow hcovers
        exact h.allow_first hdisallow other ((hmem other).mpr hother) hcovers hallow
  · rintro ⟨rule, hrule, hdisallow, hcovers, _, hallowed⟩
    cases hbest : bestRuleForPath
        ((selectApplicableGroups toLowerCase uaToken rules).1.flatMap RobotsGroup.rules)
        (utf16Units (pathAndQueryOf url)) with
    | none =>
      rw [hbest] at hfound
      cases hfound with
      | none h => exact absurd hcovers (h rule ((hmem rule).mpr hrule))
    | some best =>
      rw [hbest] at hfound
      cases hfound with
      | some h =>
        refine ⟨best, rfl, ?_⟩
        cases hdirective : best.directive with
        | allow =>
          -- a rule that allows would have to be shorter than one that does not
          have hshorter := hallowed best ((hmem best).mp h.mem) hdirective h.covers
          have hlonger := h.longest rule ((hmem rule).mpr hrule) hcovers
          omega
        | disallow => rfl

end Verdict

/-! ## The layout of the file -/

/-- The file is laid out in another way. -/
inductive Rearranged : List RobotsGroup → List RobotsGroup → Prop
  | groups {groups groups' : List RobotsGroup} (h : groups.Perm groups') : Rearranged groups groups'
  | rules {before after : List RobotsGroup} {userAgents : List String}
      {rules rules' : List RobotsRule} (h : rules.Perm rules') :
      Rearranged (before ++ ⟨userAgents, rules⟩ :: after) (before ++ ⟨userAgents, rules'⟩ :: after)
  | split {before after : List RobotsGroup} {userAgents : List String}
      {rules rules' : List RobotsRule} :
      Rearranged (before ++ ⟨userAgents, rules ++ rules'⟩ :: after)
        (before ++ ⟨userAgents, rules⟩ :: ⟨userAgents, rules'⟩ :: after)

/-- The same rules are declared for the same tokens. -/
def SameRules (groups groups' : List RobotsGroup) : Prop :=
  (∀ ua, Declares groups ua ↔ Declares groups' ua) ∧
    ∀ ua rule, DeclaresFor groups ua rule ↔ DeclaresFor groups' ua rule

section Declares

variable {groups groups' : List RobotsGroup} {group : RobotsGroup} {ua : String} {rule : RobotsRule}

theorem declares_cons :
    Declares (group :: groups) ua ↔ ua ∈ group.userAgents ∨ Declares groups ua := by
  simp [Declares]

theorem declares_append :
    Declares (groups ++ groups') ua ↔ Declares groups ua ∨ Declares groups' ua := by
  simp [Declares, or_and_right, exists_or]

theorem declaresFor_cons :
    DeclaresFor (group :: groups) ua rule ↔
      ua ∈ group.userAgents ∧ rule ∈ group.rules ∨ DeclaresFor groups ua rule := by
  simp [DeclaresFor]

theorem declaresFor_append :
    DeclaresFor (groups ++ groups') ua rule ↔
      DeclaresFor groups ua rule ∨ DeclaresFor groups' ua rule := by
  simp [DeclaresFor, or_and_right, exists_or]

theorem Rearranged.sameRules (h : Rearranged groups groups') : SameRules groups groups' := by
  unfold SameRules
  cases h with
  | groups hperm => simp [Declares, DeclaresFor, hperm.mem_iff]
  | rules hperm =>
    simp [declares_append, declares_cons, declaresFor_append, declaresFor_cons, hperm.mem_iff]
  | split =>
    simp only [declares_append, declares_cons, declaresFor_append, declaresFor_cons, List.mem_append]
    constructor
    · intro ua
      tauto
    · intro ua rule
      tauto

end Declares

theorem sameRules_of_layout {groups groups' : List RobotsGroup}
    (h : Relation.EqvGen Rearranged groups groups') : SameRules groups groups' := by
  induction h with
  | rel _ _ hstep => exact hstep.sameRules
  | refl groups => exact ⟨fun _ => Iff.rfl, fun _ _ => Iff.rfl⟩
  | symm _ _ _ ih => exact ⟨fun ua => (ih.1 ua).symm, fun ua rule => (ih.2 ua rule).symm⟩
  | trans _ _ _ _ _ ih ih' =>
    exact ⟨fun ua => (ih.1 ua).trans (ih'.1 ua), fun ua rule => (ih.2 ua rule).trans (ih'.2 ua rule)⟩

theorem SameRules.disallows_iff {groups groups' : List RobotsGroup} (h : SameRules groups groups')
    (toLowerCase : String → String) (uaToken : String) (path : List Nat) :
    Disallows toLowerCase uaToken groups path ↔ Disallows toLowerCase uaToken groups' path := by
  have hnames : ∀ ua, Names toLowerCase uaToken groups ua ↔ Names toLowerCase uaToken groups' ua :=
    fun ua => and_congr_left fun _ => h.1 ua
  have happlies : ∀ rule, Applies toLowerCase uaToken groups rule ↔
      Applies toLowerCase uaToken groups' rule := by
    intro rule
    simp only [Applies, NamesBest, hnames, h.2]
  simp only [Disallows, happlies]

theorem verdict_eq_of_iff {verdict verdict' : RobotsVerdict}
    (h : verdict = .disallowed ↔ verdict' = .disallowed) : verdict = verdict' := by
  cases verdict <;> cases verdict' <;> simp_all

/-- The verdict is disallowed exactly where a longest rule says so, and is the same however the file
is laid out. -/
theorem robotsVerdict_spec (toLowerCase : String → String) (uaToken : String) (rules : RobotsRules)
    (url : UrlPath) :
    ((evaluateRobots toLowerCase uaToken rules url).verdict = .disallowed ↔
      Disallows toLowerCase uaToken rules.groups (utf16Units (pathAndQueryOf url))) ∧
      ∀ rules', Relation.EqvGen Rearranged rules.groups rules'.groups →
        (evaluateRobots toLowerCase uaToken rules' url).verdict =
          (evaluateRobots toLowerCase uaToken rules url).verdict := by
  constructor
  · exact verdict_iff toLowerCase uaToken rules url
  · intro rules' hlayout
    apply verdict_eq_of_iff
    rw [verdict_iff, verdict_iff]
    exact ((sameRules_of_layout hlayout).disallows_iff toLowerCase uaToken _).symm

/-- Two rules of one group, and the same rules in a group each. -/
theorem robotsVerdict_spec_split :
    (evaluateRobots String.toLower "utsuroibot"
      ⟨[⟨["*"], [⟨.disallow, "/a"⟩]⟩, ⟨["*"], [⟨.allow, "/a/b*"⟩]⟩], []⟩ ⟨"/a/bc", ""⟩).verdict =
    (evaluateRobots String.toLower "utsuroibot"
      ⟨[⟨["*"], [⟨.disallow, "/a"⟩, ⟨.allow, "/a/b*"⟩]⟩], []⟩ ⟨"/a/bc", ""⟩).verdict :=
  (robotsVerdict_spec String.toLower "utsuroibot"
    ⟨[⟨["*"], [⟨.disallow, "/a"⟩, ⟨.allow, "/a/b*"⟩]⟩], []⟩ ⟨"/a/bc", ""⟩).2
    ⟨[⟨["*"], [⟨.disallow, "/a"⟩]⟩, ⟨["*"], [⟨.allow, "/a/b*"⟩]⟩], []⟩
    (.rel _ _ (@Rearranged.split [] [] ["*"] [⟨.disallow, "/a"⟩] [⟨.allow, "/a/b*"⟩]))

end Utsuroi
