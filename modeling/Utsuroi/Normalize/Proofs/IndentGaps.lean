import Utsuroi.Normalize.Text

/-!
# Indentation between tags

What `withoutIndentGaps` drops, told as a relation between the page with its gaps and the page
without them.
-/

namespace Utsuroi

theorem blank_close : htmlSpacing.blank '>' = false := by decide

theorem blank_open : htmlSpacing.blank '<' = false := by decide

theorem dropGapsFrom_append (gap html : List Char) :
    dropGapsFrom gap.length (gap ++ html) = dropGapsFrom 0 html := by
  induction gap with
  | nil => rfl
  | cons c gap ih => exact ih

/-- Space with a line break in it. -/
structure IsGap (gap : List Char) : Prop where
  spaces : ∀ c ∈ gap, isHtmlSpace c = true
  lineBreak : gap.any isLineBreak = true

theorem IsGap.ne_nil {gap : List Char} (h : IsGap gap) : gap ≠ [] := by
  intro hnil
  have hbreak := h.lineBreak
  rw [hnil] at hbreak
  exact absurd hbreak (by decide)

private theorem takeWhile_spaces {gap : List Char} (h : ∀ c ∈ gap, isHtmlSpace c = true)
    (html : List Char) : (gap ++ '<' :: html).takeWhile isHtmlSpace = gap := by
  rw [List.takeWhile_append_of_pos h, List.takeWhile_cons_of_neg (by decide), List.append_nil]

theorem indentGap_of_isGap {gap : List Char} (h : IsGap gap) (html : List Char) :
    indentGap (gap ++ '<' :: html) = gap.length := by
  simp [indentGap, takeWhile_spaces h.spaces, h.lineBreak]

theorem indentGap_open (html : List Char) : indentGap ('<' :: html) = 0 := by
  have hnone : ('<' :: html).takeWhile isHtmlSpace = [] := List.takeWhile_cons_of_neg (by decide)
  simp [indentGap, hnone]

/-- A gap is found only where there is one. -/
theorem exists_gap {html : List Char} (h : indentGap html ≠ 0) :
    ∃ gap rest, html = gap ++ '<' :: rest ∧ IsGap gap := by
  simp only [indentGap] at h
  split at h
  · next hgap =>
      rw [Bool.and_eq_true, beq_iff_eq] at hgap
      obtain ⟨rest, hrest⟩ := List.head?_eq_some_iff.mp hgap.2
      refine ⟨html.takeWhile isHtmlSpace, rest, ?_, fun c hc => List.mem_takeWhile_imp hc, hgap.1⟩
      have hprefix := List.prefix_iff_eq_take.mp (List.takeWhile_prefix isHtmlSpace (l := html))
      rw [← hrest]
      conv_lhs => rw [← List.take_append_drop (html.takeWhile isHtmlSpace).length html, ← hprefix]
  · exact absurd rfl h

/-- What stands behind a `>` does not count for the space in front of it. -/
theorem indentGap_close (front html html' : List Char) :
    indentGap (front ++ '>' :: html) = indentGap (front ++ '>' :: html') := by
  have hclose : ∀ html, ('>' :: html).takeWhile isHtmlSpace = [] :=
    fun html => List.takeWhile_cons_of_neg (by decide)
  have htake : ∀ html,
      (front ++ '>' :: html).takeWhile isHtmlSpace = front.takeWhile isHtmlSpace := by
    intro html
    rw [List.takeWhile_append, hclose, List.append_nil]
    split
    · next hall => exact (List.takeWhile_prefix isHtmlSpace |>.eq_of_length hall).symm
    · rfl
  have hle : (front.takeWhile isHtmlSpace).length ≤ front.length :=
    (List.takeWhile_prefix isHtmlSpace).length_le
  have hhead : ∀ html, ((front ++ '>' :: html).drop (front.takeWhile isHtmlSpace).length).head? =
      (front.drop (front.takeWhile isHtmlSpace).length ++ ['>']).head? := by
    intro html
    rw [List.drop_append_of_le_length hle]
    cases front.drop (front.takeWhile isHtmlSpace).length with
    | nil => rfl
    | cons c rest => rfl
  simp only [indentGap, htake, hhead]

/-- The second page is the first without its gaps. -/
inductive Drops : List Char → List Char → Prop
  | nil : Drops [] []
  | keep (c : Char) {html html' : List Char} (h : c = '>' → indentGap html = 0) :
      Drops html html' → Drops (c :: html) (c :: html')
  | gap {gap html html' : List Char} (h : IsGap gap) :
      Drops ('<' :: html) ('<' :: html') → Drops ('>' :: gap ++ '<' :: html) ('>' :: '<' :: html')

theorem Drops.eq {html html' : List Char} (h : Drops html html') : withoutIndentGaps html = html' := by
  induction h with
  | nil => rfl
  | keep c hkeep _ ih =>
      rw [withoutIndentGaps, dropGapsFrom]
      by_cases hc : c = '>'
      · rw [if_pos hc, hkeep hc]
        exact congrArg _ ih
      · rw [if_neg hc]
        exact congrArg _ ih
  | gap hgap _ ih =>
      rw [List.cons_append, withoutIndentGaps, dropGapsFrom, if_pos rfl, indentGap_of_isGap hgap,
        dropGapsFrom_append]
      exact congrArg _ ih

theorem drops_withoutIndentGaps (html : List Char) : Drops html (withoutIndentGaps html) := by
  induction hlength : html.length using Nat.strongRecOn generalizing html with
  | ind n ih =>
      cases html with
      | nil => exact .nil
      | cons c html =>
          rw [List.length_cons] at hlength
          by_cases hgap : c = '>' ∧ indentGap html ≠ 0
          · obtain ⟨rfl, hne⟩ := hgap
            obtain ⟨gap, rest, rfl, hgap⟩ := exists_gap hne
            have hshort : ('<' :: rest).length < n := by
              rw [← hlength, List.length_append]
              omega
            have hrest := ih _ hshort ('<' :: rest) rfl
            have hopen : withoutIndentGaps ('<' :: rest) = '<' :: dropGapsFrom 0 rest := by
              rw [withoutIndentGaps, dropGapsFrom, if_neg (by decide)]
            have hdrop : withoutIndentGaps ('>' :: (gap ++ '<' :: rest)) =
                '>' :: '<' :: dropGapsFrom 0 rest := by
              rw [withoutIndentGaps, dropGapsFrom, if_pos rfl, indentGap_of_isGap hgap,
                dropGapsFrom_append]
              exact congrArg _ hopen
            rw [hopen] at hrest
            rw [hdrop]
            exact .gap hgap hrest
          · have hkeep : c = '>' → indentGap html = 0 := fun hc =>
              Classical.byContradiction fun hne => hgap ⟨hc, hne⟩
            have hdrop : withoutIndentGaps (c :: html) = c :: withoutIndentGaps html := by
              rw [withoutIndentGaps, dropGapsFrom]
              by_cases hc : c = '>'
              · rw [if_pos hc, hkeep hc]
                rfl
              · rw [if_neg hc]
                rfl
            rw [hdrop]
            exact .keep c hkeep (ih html.length (by omega) html rfl)

/-- How a page may begin of which this is left. -/
theorem Drops.of_cons {html html' : List Char} {c : Char} (h : Drops html (c :: html')) :
    (∃ rest, html = c :: rest ∧ (c = '>' → indentGap rest = 0) ∧ Drops rest html') ∨
      c = '>' ∧ ∃ gap rest, html = '>' :: gap ++ '<' :: rest ∧ IsGap gap := by
  cases h with
  | keep _ hkeep hdrops => exact .inl ⟨_, rfl, hkeep, hdrops⟩
  | gap hgap _ => exact .inr ⟨rfl, _, _, rfl, hgap⟩

/-- A gap that is left was a gap before. -/
theorem Drops.gap_before {gap html html' : List Char} (hspaces : ∀ c ∈ gap, isHtmlSpace c = true)
    (h : Drops html (gap ++ '<' :: html')) : ∃ rest, html = gap ++ '<' :: rest := by
  induction gap generalizing html with
  | nil =>
      rcases h.of_cons with ⟨rest, rfl, _⟩ | ⟨hclose, _⟩
      · exact ⟨rest, rfl⟩
      · exact absurd hclose (by decide)
  | cons c gap ih =>
      rcases h.of_cons with ⟨rest, rfl, _, hmore⟩ | ⟨rfl, _⟩
      · obtain ⟨last, rfl⟩ := ih (fun d hd => hspaces d (List.mem_cons_of_mem c hd)) hmore
        exact ⟨last, rfl⟩
      · exact absurd (hspaces '>' List.mem_cons_self) (by decide)

/-- No gap is left. -/
theorem Drops.self {html html' : List Char} (h : Drops html html') : Drops html' html' := by
  induction h with
  | nil => exact .nil
  | keep c hkeep hdrops ih =>
      refine .keep c (fun hc => Classical.byContradiction fun hne => ?_) ih
      obtain ⟨gap, rest, rfl, hgap⟩ := exists_gap hne
      obtain ⟨before, rfl⟩ := hdrops.gap_before hgap.spaces
      have hzero := hkeep hc
      rw [indentGap_of_isGap hgap] at hzero
      exact hgap.ne_nil (List.eq_nil_of_length_eq_zero hzero)
  | gap _ _ ih => exact .keep '>' (fun _ => indentGap_open _) ih

theorem Drops.of_self_cons {c : Char} {html : List Char} (h : Drops (c :: html) (c :: html)) :
    (c = '>' → indentGap html = 0) ∧ Drops html html := by
  rcases h.of_cons with ⟨rest, heq, hkeep, hdrops⟩ | ⟨rfl, gap, rest, heq, hgap⟩
  · rw [List.cons.injEq] at heq
    rw [← heq.2] at hkeep hdrops
    exact ⟨hkeep, hdrops⟩
  · have hlength := h.eq
    rw [heq, List.cons_append, withoutIndentGaps, dropGapsFrom, if_pos rfl,
      indentGap_of_isGap hgap, dropGapsFrom_append, dropGapsFrom, if_neg (by decide)] at hlength
    obtain ⟨c, gap, rfl⟩ := List.exists_cons_of_ne_nil hgap.ne_nil
    rw [List.cons_append, List.cons.injEq, List.cons.injEq] at hlength
    have hopen : '<' = c := hlength.2.1
    rw [← hopen] at hgap
    exact absurd (hgap.spaces '<' List.mem_cons_self) (by decide)

/-- A line break put where two tags meet is dropped, and nothing else. -/
theorem Drops.lineBreak {front html : List Char}
    (h : Drops (front ++ '>' :: '<' :: html) (front ++ '>' :: '<' :: html)) :
    Drops (front ++ '>' :: '\n' :: '<' :: html) (front ++ '>' :: '<' :: html) := by
  induction front with
  | nil =>
      have hbreak : IsGap ['\n'] := ⟨List.forall_mem_singleton.mpr (by decide), by decide⟩
      exact @Drops.gap ['\n'] html html hbreak h.of_self_cons.2
  | cons c front ih =>
      have hself := h.of_self_cons
      exact .keep c (fun hc => (indentGap_close front _ _).trans (hself.1 hc)) (ih hself.2)

end Utsuroi
