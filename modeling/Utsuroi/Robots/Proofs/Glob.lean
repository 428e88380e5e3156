import Utsuroi.Framework.Glob
import Utsuroi.Robots.Evaluator

/-!
# What the pattern of a rule matches

The loop of `globFullMatch` keeps the last star only.  An earlier star has nothing to gain by taking
more of the text: the letters after it would stand later, where the last star can begin as well.
-/

namespace Utsuroi

section Glob

variable {pattern text : List Nat} {cursor : GlobCursor} {pIdx tIdx starIdx : Nat}

private theorem drop_pattern {letter : Nat} (h : pattern[pIdx]? = some letter) :
    pattern.drop pIdx = letter :: pattern.drop (pIdx + 1) := by
  obtain ⟨hlength, rfl⟩ := List.getElem?_eq_some_iff.mp h
  exact List.drop_eq_getElem_cons hlength

theorem onlyStarsLeft_iff (hp : pIdx ≤ pattern.length) :
    onlyStarsLeft pattern pIdx = true ↔ Glob.Matches STAR (pattern.drop pIdx) [] := by
  fun_induction onlyStarsLeft pattern pIdx with
  | case1 pIdx hstar ih =>
    have hlength : pIdx < pattern.length := (List.getElem?_eq_some_iff.mp hstar).1
    rw [ih hlength, drop_pattern hstar, Glob.matches_empty, Glob.matches_empty]
    simp
  | case2 pIdx hstar =>
    rw [beq_iff_eq, Glob.matches_empty]
    constructor
    · rintro rfl
      simp
    · intro hall
      by_contra hne
      have hlength : pIdx < pattern.length := by omega
      rw [List.drop_eq_getElem_cons hlength] at hall
      have hletter : pattern[pIdx] = STAR := hall _ List.mem_cons_self
      exact hstar (by rw [List.getElem?_eq_getElem hlength, hletter])

/-- Since the last star the cursor passed letters only, as many in the pattern as in the text. -/
structure Aligned (pattern text : List Nat) (cursor : GlobCursor) : Prop where
  pattern_le : cursor.pIdx ≤ pattern.length
  text_le : cursor.tIdx ≤ text.length
  star_lt : ∀ starIdx, cursor.starIdx = some starIdx → starIdx < pattern.length
  letters : ∀ starIdx, cursor.starIdx = some starIdx → ∃ letters, Glob.Plain STAR letters ∧
    pattern.drop (starIdx + 1) = letters ++ pattern.drop cursor.pIdx ∧
    cursor.tIdx = cursor.matchIdx + letters.length

/-- What is left matches, or the last star takes more of the text. -/
def Promising (pattern text : List Nat) (cursor : GlobCursor) : Prop :=
  Glob.Matches STAR (pattern.drop cursor.pIdx) (text.drop cursor.tIdx) ∨
    ∃ starIdx, cursor.starIdx = some starIdx ∧ ∃ k, cursor.matchIdx < k ∧ k ≤ text.length ∧
      Glob.Matches STAR (pattern.drop (starIdx + 1)) (text.drop k)

theorem aligned_start : Aligned pattern text GlobCursor.start where
  pattern_le := Nat.zero_le _
  text_le := Nat.zero_le _
  star_lt := by
    intro starIdx hsome
    cases hsome
  letters := by
    intro starIdx hsome
    cases hsome

theorem promising_start : Promising pattern text GlobCursor.start ↔ Glob.Matches STAR pattern text := by
  simp [Promising, GlobCursor.start]

/-- A later place of the last star leaves the letters a later place too. -/
private theorem later_place {letters rest : List Nat} {k : Nat} (hletters : Glob.Plain STAR letters)
    (hpattern : pattern.drop (starIdx + 1) = letters ++ rest)
    (h : Glob.Matches STAR (pattern.drop (starIdx + 1)) (text.drop k)) :
    letters.length ≤ text.length - k ∧
      Glob.Matches STAR rest (text.drop (k + letters.length)) := by
  rw [hpattern, Glob.matches_plain_append hletters] at h
  obtain ⟨left, htext, hrest⟩ := h
  have hlength := congrArg List.length htext
  simp only [List.length_drop, List.length_append] at hlength
  constructor
  · omega
  · rw [← List.drop_drop, htext, List.drop_left]
    exact hrest

/-! ## The steps of the loop -/

private theorem star_step (haligned : Aligned pattern text cursor)
    (hstar : pattern[cursor.pIdx]? = some STAR) :
    Promising pattern text ⟨cursor.pIdx + 1, cursor.tIdx, some cursor.pIdx, cursor.tIdx, le_rfl⟩ ↔
      Promising pattern text cursor := by
  have hhere : Glob.Matches STAR (pattern.drop cursor.pIdx) (text.drop cursor.tIdx) ↔
      ∃ k, cursor.tIdx ≤ k ∧ k ≤ text.length ∧
        Glob.Matches STAR (pattern.drop (cursor.pIdx + 1)) (text.drop k) := by
    rw [drop_pattern hstar, Glob.matches_star_drop haligned.text_le]
  constructor
  · intro h
    left
    rw [hhere]
    rcases h with hnow | ⟨_, hsome, k, hk, hlength, hlater⟩
    · exact ⟨cursor.tIdx, le_rfl, haligned.text_le, hnow⟩
    · cases hsome
      exact ⟨k, hk.le, hlength, hlater⟩
  · intro h
    have hfound : Glob.Matches STAR (pattern.drop cursor.pIdx) (text.drop cursor.tIdx) := by
      rcases h with hnow | ⟨starIdx, hsome, k, hk, hlength, hlater⟩
      · exact hnow
      · -- what the earlier star takes more of the text, this star can take
        obtain ⟨letters, hletters, hpattern, htIdx⟩ := haligned.letters starIdx hsome
        obtain ⟨hplace, hrest⟩ := later_place hletters hpattern hlater
        rw [drop_pattern hstar, Glob.matches_star_drop (by omega)] at hrest
        obtain ⟨j, hj, hjlength, hmatches⟩ := hrest
        exact hhere.mpr ⟨j, by omega, hjlength, hmatches⟩
    obtain ⟨k, hk, hlength, hmatches⟩ := hhere.mp hfound
    rcases hk.eq_or_lt with rfl | hlt
    · exact Or.inl hmatches
    · exact Or.inr ⟨cursor.pIdx, rfl, k, hlt, hlength, hmatches⟩

private theorem star_aligned (haligned : Aligned pattern text cursor)
    (hlength : cursor.pIdx < pattern.length) :
    Aligned pattern text ⟨cursor.pIdx + 1, cursor.tIdx, some cursor.pIdx, cursor.tIdx, le_rfl⟩ where
  pattern_le := hlength
  text_le := haligned.text_le
  star_lt := by
    intro starIdx hsome
    cases hsome
    exact hlength
  letters := by
    intro starIdx hsome
    cases hsome
    exact ⟨[], List.not_mem_nil, rfl, rfl⟩

private theorem letter_step {letter : Nat} (hne : letter ≠ STAR)
    (hpattern : pattern[cursor.pIdx]? = some letter) (htext : text[cursor.tIdx]? = some letter) :
    Promising pattern text ⟨cursor.pIdx + 1, cursor.tIdx + 1, cursor.starIdx, cursor.matchIdx,
      Nat.le_succ_of_le cursor.behind⟩ ↔ Promising pattern text cursor := by
  simp only [Promising, drop_pattern hpattern, drop_pattern htext, Glob.matches_letter hne]
  simp

private theorem letter_aligned {letter : Nat} (haligned : Aligned pattern text cursor)
    (hne : letter ≠ STAR) (hpattern : pattern[cursor.pIdx]? = some letter)
    (htext : cursor.tIdx < text.length) :
    Aligned pattern text ⟨cursor.pIdx + 1, cursor.tIdx + 1, cursor.starIdx, cursor.matchIdx,
      Nat.le_succ_of_le cursor.behind⟩ where
  pattern_le := (List.getElem?_eq_some_iff.mp hpattern).1
  text_le := htext
  star_lt := haligned.star_lt
  letters := by
    intro starIdx hsome
    obtain ⟨letters, hletters, hdrop, htIdx⟩ := haligned.letters starIdx hsome
    refine ⟨letters ++ [letter], ?_, ?_, ?_⟩
    · simpa [Glob.Plain, hletters] using ⟨hletters, hne.symm⟩
    · rw [hdrop, drop_pattern hpattern, List.append_assoc]
      rfl
    · simp only [List.length_append, List.length_singleton]
      omega

private theorem not_matches_of_mismatch (htext : cursor.tIdx < text.length)
    (hmismatch : ¬(cursor.pIdx < pattern.length ∧
      (pattern[cursor.pIdx]? = some STAR ∨ pattern[cursor.pIdx]? = text[cursor.tIdx]?))) :
    ¬Glob.Matches STAR (pattern.drop cursor.pIdx) (text.drop cursor.tIdx) := by
  intro h
  rw [List.drop_eq_getElem_cons htext] at h
  by_cases hpattern : cursor.pIdx < pattern.length
  · have hletter : pattern[cursor.pIdx] ≠ STAR := by
      intro hstar
      exact hmismatch ⟨hpattern, Or.inl (by rw [List.getElem?_eq_getElem hpattern, hstar])⟩
    rw [List.drop_eq_getElem_cons hpattern, Glob.matches_letter hletter] at h
    obtain ⟨rest, hrest, _⟩ := h
    have hsame : text[cursor.tIdx] = pattern[cursor.pIdx] := (List.cons.inj hrest).1
    refine hmismatch ⟨hpattern, Or.inr ?_⟩
    rw [List.getElem?_eq_getElem hpattern, List.getElem?_eq_getElem htext, hsame]
  · rw [List.drop_eq_nil_of_le (by omega), Glob.matches_nil] at h
    cases h

private theorem retry_step (hsome : cursor.starIdx = some starIdx)
    (hlength : cursor.matchIdx < text.length)
    (hno : ¬Glob.Matches STAR (pattern.drop cursor.pIdx) (text.drop cursor.tIdx)) :
    Promising pattern text
        ⟨starIdx + 1, cursor.matchIdx + 1, some starIdx, cursor.matchIdx + 1, le_rfl⟩ ↔
      Promising pattern text cursor := by
  constructor
  · intro h
    right
    refine ⟨starIdx, hsome, ?_⟩
    rcases h with hnow | ⟨_, heq, k, hk, hle, hlater⟩
    · exact ⟨cursor.matchIdx + 1, Nat.lt_succ_self _, hlength, hnow⟩
    · cases heq
      exact ⟨k, Nat.lt_of_succ_lt hk, hle, hlater⟩
  · intro h
    rcases h with hnow | ⟨_, heq, k, hk, hle, hlater⟩
    · exact absurd hnow hno
    · obtain rfl : starIdx = _ := Option.some.inj (hsome.symm.trans heq)
      rcases (Nat.succ_le_of_lt hk).eq_or_lt with rfl | hlt
      · exact Or.inl hlater
      · exact Or.inr ⟨starIdx, rfl, k, hlt, hle, hlater⟩

private theorem retry_aligned (haligned : Aligned pattern text cursor)
    (hsome : cursor.starIdx = some starIdx) (hlength : cursor.matchIdx < text.length) :
    Aligned pattern text
      ⟨starIdx + 1, cursor.matchIdx + 1, some starIdx, cursor.matchIdx + 1, le_rfl⟩ where
  pattern_le := haligned.star_lt starIdx hsome
  text_le := hlength
  star_lt := by
    intro _ heq
    cases heq
    exact haligned.star_lt starIdx hsome
  letters := by
    intro _ heq
    cases heq
    exact ⟨[], List.not_mem_nil, rfl, rfl⟩

/-- At the end of the text the star has nothing more to take. -/
private theorem promising_end (haligned : Aligned pattern text cursor)
    (hend : text.length ≤ cursor.tIdx) :
    Promising pattern text cursor ↔ Glob.Matches STAR (pattern.drop cursor.pIdx) [] := by
  have hdrop : text.drop cursor.tIdx = [] := List.drop_eq_nil_of_le hend
  rw [Promising, hdrop]
  constructor
  · rintro (hnow | ⟨starIdx, hsome, k, hk, hle, hlater⟩)
    · exact hnow
    · obtain ⟨letters, hletters, hpattern, htIdx⟩ := haligned.letters starIdx hsome
      obtain ⟨hplace, _⟩ := later_place hletters hpattern hlater
      have htext := haligned.text_le
      omega
  · exact Or.inl

/-- From an aligned cursor the loop answers whether the rest can match. -/
theorem globLoop_iff (haligned : Aligned pattern text cursor) :
    globLoop pattern text cursor = true ↔ Promising pattern text cursor := by
  fun_induction globLoop pattern text cursor with
  | case1 cursor htext hpattern hstar ih =>
    rw [ih (star_aligned haligned hpattern.1), star_step haligned hstar]
  | case2 cursor htext hpattern hstar ih =>
    have hletter : pattern[cursor.pIdx]? = some text[cursor.tIdx] := by
      rw [hpattern.2.resolve_left hstar, List.getElem?_eq_getElem htext]
    have hne : text[cursor.tIdx] ≠ STAR := fun heq => hstar (heq ▸ hletter)
    rw [ih (letter_aligned haligned hne hletter htext),
      letter_step hne hletter (List.getElem?_eq_getElem htext)]
  | case3 cursor htext hmismatch starIdx hsome ih =>
    have hlength : cursor.matchIdx < text.length := lt_of_le_of_lt cursor.behind htext
    rw [ih (retry_aligned haligned hsome hlength),
      retry_step hsome hlength (not_matches_of_mismatch htext hmismatch)]
  | case4 cursor htext hmismatch hnone =>
    simp only [Bool.false_eq_true, false_iff]
    rintro (hnow | ⟨starIdx, hsome, _⟩)
    · exact not_matches_of_mismatch htext hmismatch hnow
    · cases hnone.symm.trans hsome
  | case5 cursor htext =>
    rw [onlyStarsLeft_iff haligned.pattern_le, promising_end haligned (Nat.not_lt.mp htext)]

theorem globFullMatch_iff (pattern text : List Nat) :
    globFullMatch pattern text = true ↔ Glob.Matches STAR pattern text := by
  rw [globFullMatch, globLoop_iff aligned_start, promising_start]

end Glob

/-- A pattern matches the path where it begins, or, anchored, the whole of it. -/
theorem matchesPattern_iff (pattern path : List Nat) :
    matchesPattern pattern path = true ↔
      if pattern.getLast? = some END_ANCHOR then Glob.Matches STAR pattern.dropLast path
      else ∃ start, start <+: path ∧ Glob.Matches STAR pattern start := by
  unfold matchesPattern
  split
  next hempty =>
    subst hempty
    simp only [List.getLast?_nil, reduceCtorEq, if_false, true_iff]
    exact ⟨[], List.nil_prefix, .nil⟩
  next hne =>
    simp only
    split
    · exact globFullMatch_iff _ _
    · rw [globFullMatch_iff, Glob.matches_append_star]

/-- `globFullMatch` decides the language of the pattern, and `matchesPattern` the patterns of
robots.txt. -/
theorem wildcardMatcher_correct (pattern text : List Nat) :
    (globFullMatch pattern text = true ↔ Glob.Matches STAR pattern text) ∧
      (matchesPattern pattern text = true ↔
        if pattern.getLast? = some END_ANCHOR then Glob.Matches STAR pattern.dropLast text
        else ∃ start, start <+: text ∧ Glob.Matches STAR pattern start) :=
  ⟨globFullMatch_iff pattern text, matchesPattern_iff pattern text⟩

end Utsuroi
