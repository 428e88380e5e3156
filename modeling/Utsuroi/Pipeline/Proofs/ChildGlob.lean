import Utsuroi.Framework.Separated
import Utsuroi.Pipeline.ChildPatterns
import Utsuroi.Robots.Proofs.Glob

/-!
# Include patterns are globs

The regular expression of a pattern accepts the words of the pattern, and `globFullMatch` accepts
the same.
-/

namespace Utsuroi

section Source

/-- What a character of a pattern becomes. -/
def patternPart (c : Char) : RegExpPart := if c = '*' then .anyRun else .char c

/-- The source of one character of a pattern. -/
def partSource (c : Char) : List Char :=
  if c = '*' then ['.', '*'] else if isMetaChar c then ['\\', c] else [c]

theorem escapeRegExp_cons (c : Char) (literal : List Char) :
    escapeRegExp (c :: literal) = (if isMetaChar c then ['\\', c] else [c]) ++ escapeRegExp literal :=
  rfl

/-- Splitting, escaping and joining goes character by character. -/
theorem joined_pieces (pattern : List Char) :
    ['.', '*'].intercalate ((pattern.splitOn '*').map escapeRegExp) = pattern.flatMap partSource := by
  induction pattern with
  | nil => rfl
  | cons c pattern ih =>
      obtain ⟨piece, pieces, hpieces⟩ :=
        List.exists_cons_of_ne_nil (List.splitOn_ne_nil '*' pattern)
      rw [List.flatMap_cons, ← ih, List.splitOn_cons_eq_if_modifyHead, partSource]
      by_cases hc : c = '*'
      · rw [if_pos (beq_iff_eq.mpr hc), if_pos hc, hpieces, List.map_cons, List.map_cons,
          List.intercalate_cons_cons]
        rfl
      · rw [if_neg (by simpa using hc), if_neg hc, hpieces, List.modifyHead_cons, List.map_cons,
          List.map_cons, escapeRegExp_cons]
        cases pieces with
        | nil => simp
        | cons next pieces =>
            rw [List.map_cons, List.intercalate_cons_cons, List.intercalate_cons_cons]
            simp

theorem parseParts_partSource (c : Char) (source : List Char) :
    parseParts (partSource c ++ source) = (parseParts source).map (patternPart c :: ·) := by
  rw [partSource, patternPart]
  by_cases hstar : c = '*'
  · rw [if_pos hstar, if_pos hstar]
    simp [parseParts]
  · rw [if_neg hstar, if_neg hstar]
    cases hmeta : isMetaChar c with
    | true => simp [parseParts, hmeta]
    | false =>
        have hne : ∀ d, isMetaChar d = true → c ≠ d := by
          intro d hd heq
          rw [← heq, hmeta] at hd
          exact absurd hd (by decide)
        have hdollar := hne '$' (by decide)
        have hdot := hne '.' (by decide)
        have hescape := hne '\\' (by decide)
        rw [if_neg (by decide), List.singleton_append, parseParts]
        · simp [hmeta]
        · exact fun heq _ => hdollar heq
        · exact fun _ heq _ => hdot heq
        · exact fun _ _ heq _ => hescape heq

theorem parseParts_flatMap (pattern : List Char) :
    parseParts (pattern.flatMap partSource ++ ['$']) = some (pattern.map patternPart) := by
  induction pattern with
  | nil => rfl
  | cons c pattern ih =>
      rw [List.flatMap_cons, List.append_assoc, parseParts_partSource, ih]
      rfl

theorem parseRegExp_globToRegExp (pattern : String) :
    parseRegExp (globToRegExp pattern) = some (pattern.toList.map patternPart) := by
  rw [globToRegExp, parseRegExp, joined_pieces, parseParts_flatMap]

end Source

section Words

theorem matchesParts_iff {pattern text : List Char}
    (h : ∀ c ∈ text, isLineTerminator c = false) :
    matchesParts (pattern.map patternPart) text = true ↔ Glob.Matches '*' pattern text := by
  induction pattern generalizing text with
  | nil =>
      rw [Glob.matches_nil]
      cases text with
      | nil => simp [matchesParts]
      | cons d text => simp [matchesParts]
  | cons c pattern ih =>
      by_cases hc : c = '*'
      · rw [List.map_cons, patternPart, if_pos hc, hc]
        induction text with
        | nil =>
            rw [matchesParts, ih (by simp), Glob.matches_star]
            constructor
            · exact fun hrest => ⟨[], [], rfl, hrest⟩
            · rintro ⟨run, rest, htext, hrest⟩
              rwa [(List.append_eq_nil_iff.mp htext.symm).2] at hrest
        | cons d text ihtext =>
            have hd := h d List.mem_cons_self
            have hmore : ∀ c ∈ text, isLineTerminator c = false :=
              fun c hmem => h c (List.mem_cons_of_mem d hmem)
            rw [matchesParts, Bool.or_eq_true, ih h, hd, Bool.not_false, Bool.true_and,
              ihtext hmore, Glob.matches_star, Glob.matches_star]
            constructor
            · rintro (hrest | ⟨run, rest, rfl, hrest⟩)
              · exact ⟨[], d :: text, rfl, hrest⟩
              · exact ⟨d :: run, rest, rfl, hrest⟩
            · rintro ⟨run, rest, htext, hrest⟩
              cases run with
              | nil =>
                  rw [List.nil_append] at htext
                  exact .inl (htext ▸ hrest)
              | cons e run => exact .inr ⟨run, rest, (List.cons.inj htext).2, hrest⟩
      · rw [List.map_cons, patternPart, if_neg hc, Glob.matches_letter hc]
        cases text with
        | nil => simp [matchesParts]
        | cons d text =>
            have hmore : ∀ c ∈ text, isLineTerminator c = false :=
              fun c hmem => h c (List.mem_cons_of_mem d hmem)
            rw [matchesParts, Bool.and_eq_true, beq_iff_eq, ih hmore]
            constructor
            · rintro ⟨rfl, hrest⟩
              exact ⟨text, rfl, hrest⟩
            · rintro ⟨rest, htext, hrest⟩
              obtain ⟨rfl, rfl⟩ := List.cons.inj htext
              exact ⟨rfl, hrest⟩

theorem globTest_iff (pattern filename : String)
    (h : ∀ c ∈ filename.toList, isLineTerminator c = false) :
    globTest pattern filename = true ↔ Glob.Matches '*' pattern.toList filename.toList := by
  rw [globTest, parseRegExp_globToRegExp]
  exact matchesParts_iff h

end Words

section Units

theorem charUnits_ne_star {c : Char} (hc : c ≠ '*') : Glob.Plain STAR (charUnits c) := by
  intro hmem
  unfold charUnits at hmem
  split at hmem
  · have hstar : c.toNat = '*'.toNat := (List.mem_singleton.mp hmem).symm
    exact hc (Char.toNat_inj.mp hstar)
  · simp only [List.mem_cons, List.not_mem_nil, or_false, STAR] at hmem
    omega

theorem matches_units {pattern text : List Char} (h : Glob.Matches '*' pattern text) :
    Glob.Matches STAR (pattern.flatMap charUnits) (text.flatMap charUnits) := by
  induction h with
  | nil => exact .nil
  | skip run _ ih =>
      rw [List.flatMap_append]
      exact .skip (run.flatMap charUnits) ih
  | letter hc _ ih => exact (Glob.matches_plain_append (charUnits_ne_star hc)).mpr ⟨_, rfl, ih⟩

/-- No pattern of characters begins inside a character: a star takes what is left of it. -/
theorem matches_of_half {pattern : List Char} {unit : Nat} {text : List Nat}
    (hunit : 0xDC00 ≤ unit ∧ unit ≤ 0xDFFF)
    (h : Glob.Matches STAR (pattern.flatMap charUnits) (unit :: text)) :
    Glob.Matches STAR (pattern.flatMap charUnits) text := by
  induction pattern with
  | nil => exact absurd (Glob.matches_nil.mp h) (List.cons_ne_nil unit text)
  | cons c pattern ih =>
      by_cases hc : c = '*'
      · subst hc
        obtain ⟨run, rest, htext, hrest⟩ := Glob.matches_star.mp h
        cases run with
        | nil =>
            rw [List.nil_append] at htext
            exact .skip [] (ih (htext ▸ hrest))
        | cons d run =>
            rw [(List.cons.inj htext).2]
            exact .skip run hrest
      · obtain ⟨rest, htext, _⟩ := (Glob.matches_plain_append (charUnits_ne_star hc)).mp h
        have hvalid : c.toNat < 0xD800 ∨ 0xDFFF < c.toNat ∧ c.toNat < 0x110000 := c.valid
        unfold charUnits at htext
        split at htext
        · have hhead := (List.cons.inj htext).1
          omega
        · have hhead := (List.cons.inj htext).1
          omega

private theorem charUnits_nonempty (c : Char) : charUnits c ≠ [] := by
  unfold charUnits
  split
  · exact List.cons_ne_nil _ _
  · exact List.cons_ne_nil _ _

/-- A star that takes some of the units of a text takes characters of it. -/
theorem star_of_units {pattern text : List Char}
    (ih : ∀ text : List Char, Glob.Matches STAR (pattern.flatMap charUnits)
      (text.flatMap charUnits) → Glob.Matches '*' pattern text)
    (h : Glob.Matches STAR (STAR :: pattern.flatMap charUnits) (text.flatMap charUnits)) :
    Glob.Matches '*' ('*' :: pattern) text := by
  induction text with
  | nil =>
      obtain ⟨run, rest, htext, hrest⟩ := Glob.matches_star.mp h
      rw [(List.append_eq_nil_iff.mp htext.symm).2] at hrest
      exact .skip [] (ih [] hrest)
  | cons d text ihtext =>
      have hmore : ∀ run rest, text.flatMap charUnits = run ++ rest →
          Glob.Matches STAR (pattern.flatMap charUnits) rest →
            Glob.Matches '*' ('*' :: pattern) (d :: text) := by
        intro run rest htext hrest
        obtain ⟨taken, left, rfl, hleft⟩ :=
          Glob.matches_star.mp (ihtext (Glob.matches_star.mpr ⟨run, rest, htext, hrest⟩))
        exact .skip (d :: taken) hleft
      obtain ⟨run, rest, htext, hrest⟩ := Glob.matches_star.mp h
      rw [List.flatMap_cons] at htext
      rcases List.append_eq_append_iff.mp htext with ⟨run', _, htext'⟩ | ⟨half, hunits, rfl⟩
      · exact hmore run' rest htext' hrest
      · cases half with
        | nil => exact hmore [] _ rfl hrest
        | cons low half =>
            cases run with
            | nil =>
                rw [List.nil_append] at hunits
                rw [← hunits, ← List.flatMap_cons] at hrest
                exact .skip [] (ih _ hrest)
            | cons high run =>
                have hvalid : d.toNat < 0xD800 ∨ 0xDFFF < d.toNat ∧ d.toNat < 0x110000 := d.valid
                unfold charUnits at hunits
                split at hunits
                · simp at hunits
                · simp only [List.cons_append, List.cons.injEq] at hunits
                  have htail := hunits.2
                  cases run with
                  | nil =>
                      rw [List.nil_append, List.cons.injEq] at htail
                      rw [← htail.2] at hrest
                      exact .skip [d] (ih _ (matches_of_half (by omega) hrest))
                  | cons other run => simp at htail

theorem matches_of_units {pattern text : List Char}
    (h : Glob.Matches STAR (pattern.flatMap charUnits) (text.flatMap charUnits)) :
    Glob.Matches '*' pattern text := by
  induction pattern generalizing text with
  | nil =>
      cases text with
      | nil => exact .nil
      | cons d text =>
          have hnil := Glob.matches_nil.mp h
          rw [List.flatMap_cons] at hnil
          exact absurd (List.append_eq_nil_iff.mp hnil).1 (charUnits_nonempty d)
  | cons c pattern ih =>
      by_cases hc : c = '*'
      · subst hc
        exact star_of_units (fun _ => ih) h
      · obtain ⟨rest, htext, hrest⟩ := (Glob.matches_plain_append (charUnits_ne_star hc)).mp h
        cases text with
        | nil =>
            have hnil := (List.append_eq_nil_iff.mp htext.symm).1
            exact absurd hnil (charUnits_nonempty c)
        | cons d text =>
            obtain ⟨rfl, rfl⟩ := charUnits_append_inj htext
            exact .letter hc (ih hrest)

/-- `globFullMatch` on the code units of a text decides the words of a pattern. -/
theorem globFullMatch_units (pattern text : String) :
    globFullMatch (utf16Units pattern) (utf16Units text) = true ↔
      Glob.Matches '*' pattern.toList text.toList := by
  rw [globFullMatch_iff]
  exact ⟨matches_of_units, matches_units⟩

end Units

section Child

variable {tools : ItemTools} {childUrl : Url}

/-- A child is included exactly when the last segment of its path is a word of a pattern, in which
`*` stands for any text and every other character for itself; `globFullMatch` decides the same. -/
theorem matchesChildIncludePattern_correct (patterns : List String)
    (hpath : ∀ pathname, tools.pathname childUrl = some pathname →
      ∀ c ∈ (lastSegment pathname).toList, isLineTerminator c = false) :
    (matchesChildIncludePattern tools childUrl patterns = true ↔
      ∃ pathname, tools.pathname childUrl = some pathname ∧
        ∃ pattern ∈ patterns, Glob.Matches '*' pattern.toList (lastSegment pathname).toList) ∧
    (matchesChildIncludePattern tools childUrl patterns = true ↔
      ∃ pathname, tools.pathname childUrl = some pathname ∧
        ∃ pattern ∈ patterns,
          globFullMatch (utf16Units pattern) (utf16Units (lastSegment pathname)) = true) := by
  have hwords : matchesChildIncludePattern tools childUrl patterns = true ↔
      ∃ pathname, tools.pathname childUrl = some pathname ∧
        ∃ pattern ∈ patterns, Glob.Matches '*' pattern.toList (lastSegment pathname).toList := by
    rw [matchesChildIncludePattern]
    cases hurl : tools.pathname childUrl with
    | none => simp
    | some pathname =>
        rw [List.any_eq_true]
        constructor
        · rintro ⟨pattern, hmem, htest⟩
          exact ⟨pathname, rfl, pattern, hmem, (globTest_iff _ _ (hpath _ hurl)).mp htest⟩
        · rintro ⟨_, hother, pattern, hmem, hmatches⟩
          cases hother
          exact ⟨pattern, hmem, (globTest_iff _ _ (hpath _ hurl)).mpr hmatches⟩
  refine ⟨hwords, ?_⟩
  simpa only [globFullMatch_units] using hwords

/-- A child at one address. -/
def childTools : ItemTools where
  ssrfAllowed := fun _ => true
  resolvedAllowed := fun _ => true
  origin := fun _ => some "https://example.com"
  robotsMode := fun _ => .enforce
  robots := fun _ _ => ⟨true, none, false, 0, "none"⟩
  fetchPage := fun _ => none
  fetchTarget := fun _ _ _ _ => .success ⟨none, none, none⟩ false (some [])
  pathname := fun url =>
    if url = "https://example.com/maps/post-1.xml" then some "/maps/post-1.xml" else none
  extractHtmlTitle := fun _ _ => none
  regExp := fun _ _ => some fun _ => true
  parseSource := fun _ _ _ _ => none
  extractItems := fun _ _ _ => []
  sha256Bytes := fun _ => ""

theorem matchesChildIncludePattern_post :
    (matchesChildIncludePattern childTools "https://example.com/maps/post-1.xml" ["post-*.xml"] =
        true ↔
      ∃ pathname, childTools.pathname "https://example.com/maps/post-1.xml" = some pathname ∧
        ∃ pattern ∈ ["post-*.xml"],
          Glob.Matches '*' pattern.toList (lastSegment pathname).toList) ∧
    (matchesChildIncludePattern childTools "https://example.com/maps/post-1.xml" ["post-*.xml"] =
        true ↔
      ∃ pathname, childTools.pathname "https://example.com/maps/post-1.xml" = some pathname ∧
        ∃ pattern ∈ ["post-*.xml"],
          globFullMatch (utf16Units pattern) (utf16Units (lastSegment pathname)) = true) := by
  refine matchesChildIncludePattern_correct ["post-*.xml"] fun pathname hpathname => ?_
  have hsegment : pathname = "/maps/post-1.xml" := by simpa [childTools] using hpathname.symm
  have hplain : (lastSegment "/maps/post-1.xml").toList.all (fun c => !isLineTerminator c) = true := by
    decide +kernel
  rw [hsegment]
  intro c hc
  simpa using List.all_eq_true.mp hplain c hc

end Child

end Utsuroi
