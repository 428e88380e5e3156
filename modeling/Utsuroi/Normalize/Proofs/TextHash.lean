import Utsuroi.Normalize.Proofs.IndentGaps

/-!
# Pages with the same markup

Pages whose normalised markup is the same differ in their spaces alone.  Their text is the same as
well, unless two tags meet inside a line of text: there the markup loses an indentation that the
text keeps.
-/

namespace Utsuroi

/-- What is pushed for some deliveries. -/
def pushed (deliveries : List Delivery) : List Char := deliveries.flatMap Delivery.push

theorem pushed_append (before after : List Delivery) :
    pushed (before ++ after) = pushed before ++ pushed after := List.flatMap_append

theorem pushed_text (spaces : List Char) : pushed (spaces.map .text) = spaces := by
  induction spaces with
  | nil => rfl
  | cons c spaces ih => exact congrArg _ ih

namespace HtmlRewriter

variable (rewriter : HtmlRewriter)

/-- The text that is delivered while the page is read. -/
def emitted (state : rewriter.State) (html : List Char) : List Char :=
  (rewriter.partsFrom state html).flatten

/-- The text that is delivered to the end of the page. -/
def delivered (state : rewriter.State) (html : List Char) : List Char :=
  (rewriter.partsTo state html).flatten

section Reading

variable {rewriter} (state : rewriter.State)

theorem emitted_cons (c : Char) (html : List Char) :
    rewriter.emitted state (c :: html) =
      pushed (rewriter.deliver state c) ++ rewriter.emitted (rewriter.next state c) html := by
  rw [emitted, partsFrom, List.flatten_append]
  rfl

theorem run_append (before after : List Char) :
    rewriter.run state (before ++ after) = rewriter.run (rewriter.run state before) after :=
  List.foldl_append

theorem emitted_append (before after : List Char) :
    rewriter.emitted state (before ++ after) =
      rewriter.emitted state before ++ rewriter.emitted (rewriter.run state before) after := by
  induction before generalizing state with
  | nil => rfl
  | cons c before ih =>
      rw [List.cons_append, emitted_cons, emitted_cons, ih, List.append_assoc]
      rfl

theorem delivered_eq (html : List Char) :
    rewriter.delivered state html =
      rewriter.emitted state html ++ pushed (rewriter.finish (rewriter.run state html)) := by
  rw [delivered, partsTo, List.flatten_append]
  rfl

theorem delivered_append (before after : List Char) :
    rewriter.delivered state (before ++ after) =
      rewriter.emitted state before ++ rewriter.delivered (rewriter.run state before) after := by
  rw [delivered_eq, delivered_eq, emitted_append, run_append, List.append_assoc]

/-- What a space is delivered as. -/
def spaceText (c : Char) : List Char := if rewriter.inText state then [c] else []

theorem emitted_space {c : Char} (h : isHtmlSpace c = true) :
    pushed (rewriter.deliver state c) = pushed (rewriter.pending state) ++ spaceText state c := by
  rw [rewriter.deliver_space state c h, pushed_append, spaceText]
  split <;> rfl

theorem emitted_space_again {c d : Char} (hc : isHtmlSpace c = true) (hd : isHtmlSpace d = true) :
    pushed (rewriter.deliver (rewriter.next state c) d) = spaceText state d := by
  rw [emitted_space _ hd, rewriter.pending_space state c hc, spaceText,
    rewriter.inText_space state c hc]
  rfl

end Reading

end HtmlRewriter

open HtmlRewriter

variable {rewriter : HtmlRewriter}

private theorem squeeze_spaceText (state : rewriter.State) {c d : Char} (hc : isHtmlSpace c = true)
    (hd : isHtmlSpace d = true) : htmlSpacing.squeeze (spaceText state c) =
      htmlSpacing.squeeze (spaceText state d) := by
  have hsingle : ∀ c, isHtmlSpace c = true → htmlSpacing.squeeze [c] = [' '] := fun c hc =>
    Spacing.squeeze_blanks (s := htmlSpacing) (List.forall_mem_singleton.mpr hc)
      (List.cons_ne_nil c [])
  rw [spaceText, spaceText]
  split
  · rw [hsingle c hc, hsingle d hd]
  · rfl

private theorem squeeze_spaceText_cons (state : rewriter.State) {c d : Char}
    (hc : isHtmlSpace c = true) (hd : isHtmlSpace d = true) :
    htmlSpacing.squeeze (spaceText state c ++ spaceText state d) =
      htmlSpacing.squeeze (spaceText state d) := by
  rw [spaceText, spaceText]
  split
  · exact Spacing.squeeze_cons_cons (s := htmlSpacing) hc hd []
  · rfl

section Squeeze

theorem run_squeeze (state : rewriter.State) (html : List Char) :
    rewriter.run state (htmlSpacing.squeeze html) = rewriter.run state html := by
  induction html generalizing state with
  | nil => rfl
  | cons c html ih =>
      rw [Spacing.squeeze]
      split
      · next hrun =>
          rw [Bool.and_eq_true] at hrun
          cases html with
          | nil => exact absurd hrun.2 (by decide)
          | cons d html =>
              have hc : isHtmlSpace c = true := hrun.1
              have hd : isHtmlSpace d = true := hrun.2
              rw [ih]
              simp only [run, List.foldl_cons]
              rw [rewriter.next_spaces state c d hc hd, rewriter.next_space state c d hc hd]
      · have hnext : rewriter.next state (if htmlSpacing.blank c = true then htmlSpacing.space
            else c) = rewriter.next state c := by
          split
          · next hc => exact rewriter.next_space state _ _ (by decide) hc
          · rfl
        simp only [run, List.foldl_cons] at ih ⊢
        rw [hnext, ih]

theorem emitted_squeeze (state : rewriter.State) (html : List Char) :
    htmlSpacing.squeeze (rewriter.emitted state (htmlSpacing.squeeze html)) =
      htmlSpacing.squeeze (rewriter.emitted state html) := by
  induction html generalizing state with
  | nil => rfl
  | cons c html ih =>
      rw [Spacing.squeeze]
      split
      · next hrun =>
          rw [Bool.and_eq_true] at hrun
          cases html with
          | nil => exact absurd hrun.2 (by decide)
          | cons d html =>
              have hc : isHtmlSpace c = true := hrun.1
              have hd : isHtmlSpace d = true := hrun.2
              have hboth : rewriter.emitted state (c :: d :: html) =
                  pushed (rewriter.pending state) ++ ((spaceText state c ++ spaceText state d) ++
                    rewriter.emitted (rewriter.next state d) html) := by
                rw [emitted_cons, emitted_cons, emitted_space state hc,
                  emitted_space_again state hc hd, rewriter.next_spaces state c d hc hd,
                  rewriter.next_space state c d hc hd, List.append_assoc, List.append_assoc]
              have hone : rewriter.emitted state (d :: html) =
                  pushed (rewriter.pending state) ++ (spaceText state d ++
                    rewriter.emitted (rewriter.next state d) html) := by
                rw [emitted_cons, emitted_space state hd, List.append_assoc]
              rw [ih, hboth, hone]
              exact Spacing.squeeze_congr rfl
                (Spacing.squeeze_congr (squeeze_spaceText_cons state hc hd).symm rfl)
      · rw [emitted_cons, emitted_cons]
        split
        · next hc =>
            have hspace : isHtmlSpace htmlSpacing.space = true := by decide
            rw [emitted_space state hspace, emitted_space state hc,
              rewriter.next_space state _ c hspace hc]
            exact Spacing.squeeze_congr (Spacing.squeeze_congr rfl
              (squeeze_spaceText state hspace hc)) (ih _)
        · exact Spacing.squeeze_congr rfl (ih _)

theorem delivered_squeeze (state : rewriter.State) (html : List Char) :
    htmlSpacing.squeeze (rewriter.delivered state (htmlSpacing.squeeze html)) =
      htmlSpacing.squeeze (rewriter.delivered state html) := by
  rw [delivered_eq, delivered_eq, run_squeeze]
  exact Spacing.squeeze_congr (emitted_squeeze state html) rfl

end Squeeze

section Ends

theorem delivered_cons_space {c : Char} (h : isJsSpace c = true) (html : List Char) :
    rewriter.delivered rewriter.start (c :: html) = c :: rewriter.delivered rewriter.start html := by
  have hstart := rewriter.start_space c h
  rw [delivered_eq, delivered_eq, emitted_cons, run, List.foldl_cons, hstart.1, hstart.2]
  rfl

theorem delivered_concat_space (state : rewriter.State) {c : Char} (h : isJsSpace c = true)
    (html : List Char) : ∃ spaces : List Char, (∀ d ∈ spaces, isJsSpace d = true) ∧
      rewriter.delivered state (html ++ [c]) = rewriter.delivered state html ++ spaces := by
  obtain ⟨spaces, hspaces, hfinish⟩ := rewriter.finish_space (rewriter.run state html) c h
  refine ⟨spaces, hspaces, ?_⟩
  have hpushed := congrArg pushed hfinish
  rw [pushed_append, pushed_append, pushed_text] at hpushed
  have hlast : rewriter.delivered (rewriter.run state html) [c] =
      pushed (rewriter.deliver (rewriter.run state html) c) ++
        pushed (rewriter.finish (rewriter.next (rewriter.run state html) c)) := by
    rw [delivered_eq, emitted_cons]
    exact congrArg (· ++ _) (List.append_nil _)
  rw [delivered_append, hlast, hpushed, delivered_eq, List.append_assoc]

theorem lines_delivered_trim (html : List Char) :
    htmlSpacing.lines (rewriter.delivered rewriter.start (htmlSpacing.trim html)) =
      htmlSpacing.lines (rewriter.delivered rewriter.start html) := by
  refine Spacing.trim_invariant
    (fun html => htmlSpacing.lines (rewriter.delivered rewriter.start html)) ?_ ?_ html
  · intro c html hc
    simp only [delivered_cons_space hc]
    exact Spacing.lines_cons_edge hc _
  · intro c html hc
    obtain ⟨spaces, hspaces, hdelivered⟩ := delivered_concat_space rewriter.start hc html
    simp only [hdelivered]
    exact Spacing.lines_append_edges hspaces _

end Ends

section Voids

theorem hasVoidFrom_append (state : rewriter.State) (before after : List Char) :
    rewriter.hasVoidFrom state (before ++ after) =
      (rewriter.hasVoidFrom state before ||
        rewriter.hasVoidFrom (rewriter.run state before) after) := by
  induction before generalizing state with
  | nil => rfl
  | cons c before ih =>
      rw [List.cons_append, hasVoidFrom, hasVoidFrom, ih, Bool.or_assoc]
      rfl

theorem hasVoid_append (state : rewriter.State) (before after : List Char) :
    rewriter.hasVoid state (before ++ after) =
      (rewriter.hasVoidFrom state before || rewriter.hasVoid (rewriter.run state before) after) := by
  rw [hasVoid, hasVoid, hasVoidFrom_append, run_append, Bool.or_assoc]

theorem isVoid_space (state : rewriter.State) {c : Char} (h : isHtmlSpace c = true) :
    (rewriter.deliver state c).any Delivery.isVoid =
      (rewriter.pending state).any Delivery.isVoid := by
  rw [rewriter.deliver_space state c h, List.any_append]
  split
  · exact Bool.or_false _
  · exact Bool.or_false _

theorem hasVoidFrom_squeeze (state : rewriter.State) (html : List Char) :
    rewriter.hasVoidFrom state (htmlSpacing.squeeze html) = rewriter.hasVoidFrom state html := by
  induction html generalizing state with
  | nil => rfl
  | cons c html ih =>
      rw [Spacing.squeeze]
      split
      · next hrun =>
          rw [Bool.and_eq_true] at hrun
          cases html with
          | nil => exact absurd hrun.2 (by decide)
          | cons d html =>
              have hc : isHtmlSpace c = true := hrun.1
              have hd : isHtmlSpace d = true := hrun.2
              rw [ih, hasVoidFrom, hasVoidFrom, hasVoidFrom, isVoid_space state hd,
                isVoid_space state hc, isVoid_space _ hd, rewriter.pending_space state c hc,
                rewriter.next_spaces state c d hc hd, rewriter.next_space state c d hc hd]
              rfl
      · rw [hasVoidFrom, hasVoidFrom, ih]
        split
        · next hc =>
            have hspace : isHtmlSpace htmlSpacing.space = true := by decide
            rw [isVoid_space state hspace, isVoid_space state hc,
              rewriter.next_space state _ c hspace hc]
        · rfl

theorem hasVoid_trim (html : List Char) :
    rewriter.hasVoid rewriter.start (htmlSpacing.trim html) =
      rewriter.hasVoid rewriter.start html := by
  refine Spacing.trim_invariant (fun html => rewriter.hasVoid rewriter.start html) ?_ ?_ html
  · intro c html hc
    obtain ⟨hnext, hdeliver⟩ := rewriter.start_space c hc
    rw [hasVoid, hasVoid, hasVoidFrom, run, List.foldl_cons, hnext, hdeliver]
    rfl
  · intro c html hc
    obtain ⟨spaces, -, hfinish⟩ := rewriter.finish_space (rewriter.run rewriter.start html) c hc
    have hvoid := congrArg (List.any · Delivery.isVoid) hfinish
    have hspaces : (spaces.map Delivery.text).any Delivery.isVoid = false := by
      rw [List.any_map]
      exact List.any_eq_false.mpr fun c _ h => by cases h
    simp only [List.any_append, hspaces, Bool.or_false] at hvoid
    rw [hasVoid_append, hasVoid, hasVoid, hasVoidFrom, hasVoidFrom, Bool.or_false, ← hvoid]
    rfl

end Voids

section Meeting

variable (rewriter)

/-- Between the two tags that meet here a space would be text, and a line of text goes on from the
one to the other. -/
def ShowsGap (front html : List Char) : Prop :=
  rewriter.inText (rewriter.run rewriter.start (front ++ ['>'])) = true ∧
    htmlSpacing.Continues (rewriter.emitted rewriter.start (front ++ ['>']))
      (rewriter.delivered (rewriter.run rewriter.start (front ++ ['>'])) ('<' :: html))

/-- No line of text goes on over a place where two tags meet. -/
def TagsPartLines (html : List Char) : Prop :=
  ∀ front rest, html = front ++ '>' :: '<' :: rest → ¬ ShowsGap rewriter front rest

variable {rewriter}

theorem showsGap_squeeze (front html : List Char) :
    ShowsGap rewriter (htmlSpacing.squeeze front) (htmlSpacing.squeeze html) ↔
      ShowsGap rewriter front html := by
  have hfront : htmlSpacing.squeeze front ++ ['>'] = htmlSpacing.squeeze (front ++ ['>']) :=
    (Spacing.squeeze_append_solid blank_close front []).symm
  have hrest : '<' :: htmlSpacing.squeeze html = htmlSpacing.squeeze ('<' :: html) :=
    (Spacing.squeeze_cons_solid blank_open html).symm
  rw [ShowsGap, ShowsGap, hfront, hrest, run_squeeze]
  exact and_congr_right fun _ =>
    Spacing.continues_congr (emitted_squeeze _ _) (delivered_squeeze _ _)

theorem tagsPartLines_squeeze (html : List Char) :
    TagsPartLines rewriter (htmlSpacing.squeeze html) ↔ TagsPartLines rewriter html := by
  constructor
  · intro h front rest hhtml hshows
    refine h (htmlSpacing.squeeze front) (htmlSpacing.squeeze rest) ?_
      ((showsGap_squeeze front rest).mpr hshows)
    rw [hhtml, Spacing.squeeze_append_solid blank_close, Spacing.squeeze_cons_solid blank_open]
  · intro h front rest hhtml hshows
    obtain ⟨front', more, hhtml', rfl, hmore⟩ := Spacing.squeeze_eq_append blank_close hhtml
    obtain ⟨between, rest', rfl, hbetween, rfl⟩ :=
      Spacing.squeeze_eq_append (b := []) blank_open hmore
    rw [Spacing.squeeze_eq_nil hbetween] at hhtml'
    exact h front' rest' hhtml' ((showsGap_squeeze front' rest').mp hshows)

theorem showsGap_cons_space {c : Char} (h : isJsSpace c = true) (front html : List Char) :
    ShowsGap rewriter (c :: front) html ↔ ShowsGap rewriter front html := by
  have hstart := rewriter.start_space c h
  have hrun : rewriter.run rewriter.start (c :: front ++ ['>']) =
      rewriter.run rewriter.start (front ++ ['>']) := by
    rw [List.cons_append, run, List.foldl_cons, hstart.1]
    rfl
  have hemitted : rewriter.emitted rewriter.start (c :: front ++ ['>']) =
      c :: rewriter.emitted rewriter.start (front ++ ['>']) := by
    rw [List.cons_append, emitted_cons, hstart.1, hstart.2]
    rfl
  rw [ShowsGap, ShowsGap, hrun, hemitted]
  exact and_congr_right fun _ => Spacing.continues_cons_edge h _ _

theorem showsGap_concat_space {c : Char} (h : isJsSpace c = true) (front html : List Char) :
    ShowsGap rewriter front (html ++ [c]) ↔ ShowsGap rewriter front html := by
  obtain ⟨spaces, hspaces, hdelivered⟩ :=
    delivered_concat_space (rewriter.run rewriter.start (front ++ ['>'])) h ('<' :: html)
  rw [List.cons_append] at hdelivered
  rw [ShowsGap, ShowsGap, hdelivered]
  exact and_congr_right fun _ => Spacing.continues_append_edges hspaces _ _

theorem tagsPartLines_cons {c : Char} (h : isJsSpace c = true) (html : List Char) :
    TagsPartLines rewriter (c :: html) ↔ TagsPartLines rewriter html := by
  constructor
  · intro hparts front rest hhtml hshows
    exact hparts (c :: front) rest (by rw [hhtml]; rfl) ((showsGap_cons_space h front rest).mpr hshows)
  · intro hparts front rest hhtml hshows
    cases front with
    | nil =>
        have hclose : c = '>' := (List.cons.inj hhtml).1
        rw [hclose] at h
        exact absurd h (by decide)
    | cons d front =>
        have hcons := List.cons.inj hhtml
        rw [← hcons.1] at hshows
        exact hparts front rest hcons.2 ((showsGap_cons_space h front rest).mp hshows)

theorem tagsPartLines_concat {c : Char} (h : isJsSpace c = true) (html : List Char) :
    TagsPartLines rewriter (html ++ [c]) ↔ TagsPartLines rewriter html := by
  constructor
  · intro hparts front rest hhtml hshows
    refine hparts front (rest ++ [c]) ?_ ((showsGap_concat_space h front rest).mpr hshows)
    rw [hhtml, List.append_assoc]
    rfl
  · intro hparts front rest hhtml hshows
    rcases List.eq_nil_or_concat rest with rfl | ⟨rest', last, rfl⟩
    · have hlast := congrArg List.getLast? hhtml
      have hopen : c = '<' := by simpa using hlast
      rw [hopen] at h
      exact absurd h (by decide)
    · rw [List.concat_eq_append] at hhtml hshows
      have hsplit : html ++ [c] = (front ++ '>' :: '<' :: rest') ++ [last] := by
        rw [hhtml, List.append_assoc]
        rfl
      have hinj := List.append_inj' hsplit rfl
      rw [← (List.cons.inj hinj.2).1] at hshows
      exact hparts front rest' hinj.1 ((showsGap_concat_space h front rest').mp hshows)

theorem tagsPartLines_trim (html : List Char) :
    TagsPartLines rewriter (htmlSpacing.trim html) ↔ TagsPartLines rewriter html :=
  Iff.of_eq (Spacing.trim_invariant (TagsPartLines rewriter)
    (fun _ html hc => propext (tagsPartLines_cons hc html))
    (fun _ html hc => propext (tagsPartLines_concat hc html)) html)

end Meeting

section Gaps

/-- Behind a `>` a gap is read and its text, if any, delivered. -/
theorem gap_read (state : rewriter.State) {gap : List Char}
    (hspaces : ∀ c ∈ gap, isHtmlSpace c = true) :
    rewriter.run (rewriter.next state '>') gap = rewriter.next state '>' ∧
      rewriter.emitted (rewriter.next state '>') gap =
        if rewriter.inText (rewriter.next state '>') then gap else [] := by
  induction gap with
  | nil => simp [run, emitted, partsFrom]
  | cons c gap ih =>
      have hc := hspaces c List.mem_cons_self
      have hmore := ih fun d hd => hspaces d (List.mem_cons_of_mem c hd)
      have hpushed : pushed (rewriter.deliver (rewriter.next state '>') c) =
          spaceText (rewriter.next state '>') c := by
        rw [emitted_space _ hc, rewriter.pending_close]
        rfl
      constructor
      · rw [run, List.foldl_cons, rewriter.next_close state c hc]
        exact hmore.1
      · rw [emitted_cons, rewriter.next_close state c hc, hpushed, hmore.2, spaceText]
        split <;> rfl

theorem gap_hasVoidFrom (state : rewriter.State) {gap : List Char}
    (hspaces : ∀ c ∈ gap, isHtmlSpace c = true) :
    rewriter.hasVoidFrom (rewriter.next state '>') gap = false := by
  induction gap with
  | nil => rfl
  | cons c gap ih =>
      have hc := hspaces c List.mem_cons_self
      rw [hasVoidFrom, isVoid_space _ hc, rewriter.pending_close, rewriter.next_close state c hc,
        ih fun d hd => hspaces d (List.mem_cons_of_mem c hd)]
      rfl

/-- A gap has no elements. -/
theorem Drops.hasVoid {html html' : List Char} (h : Drops html html') (state : rewriter.State) :
    rewriter.hasVoid state html = rewriter.hasVoid state html' := by
  induction h generalizing state with
  | nil => rfl
  | keep c _ _ ih =>
      have hcons : ∀ html, rewriter.hasVoid state (c :: html) =
          (rewriter.hasVoidFrom state [c] || rewriter.hasVoid (rewriter.next state c) html) :=
        fun html => hasVoid_append state [c] html
      rw [hcons, hcons, ih]
  | @gap gap html html' hgap _ ih =>
      have hread := (gap_read state hgap.spaces).1
      have hwith : rewriter.hasVoid state ('>' :: gap ++ '<' :: html) =
          (rewriter.hasVoidFrom state ['>'] ||
            rewriter.hasVoid (rewriter.next state '>') ('<' :: html)) := by
        have happend := hasVoid_append state ['>'] (gap ++ '<' :: html)
        have hbehind := hasVoid_append (rewriter.next state '>') gap ('<' :: html)
        rw [gap_hasVoidFrom state hgap.spaces, hread, Bool.false_or] at hbehind
        exact happend.trans (congrArg _ hbehind)
      have hwithout : rewriter.hasVoid state ('>' :: '<' :: html') =
          (rewriter.hasVoidFrom state ['>'] ||
            rewriter.hasVoid (rewriter.next state '>') ('<' :: html')) :=
        hasVoid_append state ['>'] ('<' :: html')
      rw [hwith, hwithout, ih]

/-- A page without its gaps is read to the same end, and its text lacks no more than blanks. -/
theorem Drops.thinned {html html' : List Char} (h : Drops html html') (state : rewriter.State) :
    htmlSpacing.Thinned (rewriter.delivered state html) (rewriter.delivered state html') := by
  induction h generalizing state with
  | nil => exact .refl _
  | keep c _ _ ih =>
      have hcons : ∀ html, rewriter.delivered state (c :: html) =
          rewriter.emitted state [c] ++ rewriter.delivered (rewriter.next state c) html :=
        fun html => delivered_append state [c] html
      rw [hcons, hcons]
      exact (ih _).append_left _
  | @gap gap html html' hgap _ ih =>
      have hread := gap_read state hgap.spaces
      have hwith : rewriter.delivered state ('>' :: gap ++ '<' :: html) =
          rewriter.emitted state ['>'] ++ (rewriter.emitted (rewriter.next state '>') gap ++
            rewriter.delivered (rewriter.next state '>') ('<' :: html)) := by
        have happend := delivered_append state ('>' :: gap) ('<' :: html)
        have hsplit := emitted_append state ['>'] gap
        have hrun : rewriter.run state ('>' :: gap) = rewriter.next state '>' := hread.1
        rw [List.singleton_append] at hsplit
        rw [happend, hsplit, hrun, List.append_assoc]
        rfl
      have hwithout : rewriter.delivered state ('>' :: '<' :: html') =
          rewriter.emitted state ['>'] ++
            rewriter.delivered (rewriter.next state '>') ('<' :: html') :=
        delivered_append state ['>'] ('<' :: html')
      rw [hwith, hwithout, hread.2]
      refine ((ih _).append_blanks fun c hc => ?_).append_left _
      split at hc
      · exact hgap.spaces c hc
      · exact absurd hc List.not_mem_nil

/-- Dropping the gaps changes no line when no line goes on over a place where two tags meet. -/
theorem Drops.lines {html html' : List Char} (h : Drops html html') (front : List Char)
    (hparts : ∀ before after, html' = before ++ '>' :: '<' :: after →
      ¬ ShowsGap rewriter (front ++ before) after) :
    htmlSpacing.lines (rewriter.delivered rewriter.start (front ++ html)) =
      htmlSpacing.lines (rewriter.delivered rewriter.start (front ++ html')) := by
  induction h generalizing front with
  | nil => rfl
  | @keep c html html' _ _ ih =>
      rw [List.append_cons front c html, List.append_cons front c html']
      refine ih (front ++ [c]) fun before after hsplit => ?_
      rw [← List.append_cons]
      exact hparts (c :: before) after (by rw [hsplit]; rfl)
  | @gap gap html html' hgap hdrops ih =>
      have hclose : rewriter.run rewriter.start (front ++ ['>']) =
          rewriter.next (rewriter.run rewriter.start front) '>' := run_append _ _ _
      have hread := gap_read (rewriter.run rewriter.start front) hgap.spaces
      have hwith : rewriter.delivered rewriter.start (front ++ ('>' :: gap ++ '<' :: html)) =
          rewriter.emitted rewriter.start (front ++ ['>']) ++
            rewriter.emitted (rewriter.run rewriter.start (front ++ ['>'])) gap ++
              rewriter.delivered (rewriter.run rewriter.start (front ++ ['>'])) ('<' :: html) := by
        have hsplit : front ++ ('>' :: gap ++ '<' :: html) =
            (front ++ ['>']) ++ (gap ++ '<' :: html) := by simp
        rw [hsplit, delivered_append, delivered_append, hclose, hread.1, List.append_assoc]
      have hwithout : rewriter.delivered rewriter.start (front ++ ['>'] ++ '<' :: html) =
          rewriter.emitted rewriter.start (front ++ ['>']) ++
            rewriter.delivered (rewriter.run rewriter.start (front ++ ['>'])) ('<' :: html) :=
        delivered_append _ _ _
      have hfirst : htmlSpacing.lines (rewriter.delivered rewriter.start
          (front ++ ('>' :: gap ++ '<' :: html))) =
          htmlSpacing.lines (rewriter.delivered rewriter.start (front ++ ['>'] ++ '<' :: html)) := by
        rw [hwith, hwithout, hclose, hread.2, ← hclose]
        split
        · next htext =>
            refine Spacing.lines_blanks hgap.spaces fun hcontinues => ?_
            have hshows := hparts [] html' rfl
            rw [List.append_nil] at hshows
            exact hshows ⟨htext, (hdrops.thinned _).continues hcontinues⟩
        · rw [List.append_nil]
      have hrest := ih (front ++ ['>']) fun before after hsplit => by
        rw [← List.append_cons]
        exact hparts ('>' :: before) after (by rw [hsplit]; rfl)
      rw [hfirst, hrest, ← List.append_cons]

end Gaps

section Hash

theorem hasVoid_collapsed (html : List Char) :
    rewriter.hasVoid rewriter.start (collapseHtmlWhitespace html) =
      rewriter.hasVoid rewriter.start html := by
  rw [collapseHtmlWhitespace, hasVoid_trim, hasVoid, hasVoidFrom_squeeze, run_squeeze, ← hasVoid,
    ← (drops_withoutIndentGaps html).hasVoid]

theorem extractText_inj {html html' : List Char}
    (h : rewriter.hasVoid rewriter.start html = false)
    (h' : rewriter.hasVoid rewriter.start html' = false) :
    extractText rewriter html = extractText rewriter html' ↔
      htmlSpacing.lines (rewriter.delivered rewriter.start html) =
        htmlSpacing.lines (rewriter.delivered rewriter.start html') := by
  rw [extractText, extractText, h, h', if_neg (by decide), if_neg (by decide), Option.some.injEq]
  exact Spacing.text_inj (s := htmlSpacing) (by decide) (by decide)

theorem tagsPartLines_collapsed (html : List Char) :
    TagsPartLines rewriter (collapseHtmlWhitespace html) ↔
      TagsPartLines rewriter (withoutIndentGaps html) :=
  (tagsPartLines_trim _).trans (tagsPartLines_squeeze _)

/-- Where tags part the lines, the text of a page is that of its normalised markup. -/
theorem lines_collapsed {html : List Char}
    (h : TagsPartLines rewriter (withoutIndentGaps html)) :
    htmlSpacing.lines (rewriter.delivered rewriter.start html) =
      htmlSpacing.lines (rewriter.delivered rewriter.start (collapseHtmlWhitespace html)) := by
  have hdrops := (drops_withoutIndentGaps html).lines [] h
  have hsqueeze := delivered_squeeze rewriter.start (withoutIndentGaps html)
  rw [collapseHtmlWhitespace, lines_delivered_trim, Spacing.lines_congr hsqueeze]
  exact hdrops

/-- A line break between two tags changes nothing in the normalised markup. -/
theorem collapsed_lineBreak {html front rest : List Char}
    (h : withoutIndentGaps html = front ++ '>' :: '<' :: rest) :
    collapseHtmlWhitespace (front ++ '>' :: '<' :: rest) = collapseHtmlWhitespace html ∧
      collapseHtmlWhitespace (front ++ '>' :: '\n' :: '<' :: rest) = collapseHtmlWhitespace html := by
  have hself := (drops_withoutIndentGaps html).self
  rw [h] at hself
  constructor
  · rw [collapseHtmlWhitespace, collapseHtmlWhitespace, hself.eq, h]
  · rw [collapseHtmlWhitespace, collapseHtmlWhitespace, hself.lineBreak.eq, h]

/-- Where a page has a text, its lines decide. -/
theorem collapsed_iff_of_read {html : List Char}
    (hread : ∀ html', collapseHtmlWhitespace html' = collapseHtmlWhitespace html →
      rewriter.hasVoid rewriter.start html' = false) :
    (∀ html', collapseHtmlWhitespace html' = collapseHtmlWhitespace html →
        extractText rewriter html' = extractText rewriter html) ↔
      TagsPartLines rewriter (withoutIndentGaps html) := by
  constructor
  · rintro h front rest hsplit ⟨htext, hcontinues⟩
    obtain ⟨hwithout, hwith⟩ := collapsed_lineBreak hsplit
    have heq := (extractText_inj (hread _ hwith) (hread _ hwithout)).mp
      ((h _ hwith).trans (h _ hwithout).symm)
    have hclose : rewriter.run rewriter.start (front ++ ['>']) =
        rewriter.next (rewriter.run rewriter.start front) '>' := run_append _ _ _
    have hbreak : ∀ c ∈ ['\n'], isHtmlSpace c = true := List.forall_mem_singleton.mpr (by decide)
    have hgap := gap_read (rewriter.run rewriter.start front) hbreak
    rw [← hclose, htext, if_pos rfl] at hgap
    have hplain : rewriter.delivered rewriter.start (front ++ '>' :: '<' :: rest) =
        rewriter.emitted rewriter.start (front ++ ['>']) ++
          rewriter.delivered (rewriter.run rewriter.start (front ++ ['>'])) ('<' :: rest) := by
      rw [List.append_cons, delivered_append]
    have hspaced : rewriter.delivered rewriter.start (front ++ '>' :: '\n' :: '<' :: rest) =
        rewriter.emitted rewriter.start (front ++ ['>']) ++ '\n' ::
          rewriter.delivered (rewriter.run rewriter.start (front ++ ['>'])) ('<' :: rest) := by
      have hline := delivered_append (rewriter.run rewriter.start (front ++ ['>'])) ['\n']
        ('<' :: rest)
      rw [hgap.1, hgap.2] at hline
      rw [List.append_cons, delivered_append]
      exact congrArg _ hline
    rw [hplain, hspaced] at heq
    exact (Spacing.lines_blank (s := htmlSpacing) (by decide) _ _).mp heq hcontinues
  · intro h html' hsame
    have h' : TagsPartLines rewriter (withoutIndentGaps html') := by
      rw [← tagsPartLines_collapsed, hsame, tagsPartLines_collapsed]
      exact h
    rw [extractText_inj (hread html' hsame) (hread html rfl), lines_collapsed h', lines_collapsed h,
      hsame]

/-- All pages with the normalised markup of this one have its text exactly when, once its
indentation is dropped, no line of text goes on over a place where two tags meet.  Where this
one has a block element without an end tag all do, and none has a text. -/
theorem extractText_collapsed_iff (rewriter : HtmlRewriter) (html : List Char) :
    (∀ html', collapseHtmlWhitespace html' = collapseHtmlWhitespace html →
        extractText rewriter html' = extractText rewriter html) ↔
      rewriter.hasVoid rewriter.start html = true ∨
        TagsPartLines rewriter (withoutIndentGaps html) := by
  have hvoid : ∀ html', collapseHtmlWhitespace html' = collapseHtmlWhitespace html →
      rewriter.hasVoid rewriter.start html' = rewriter.hasVoid rewriter.start html := by
    intro html' hsame
    rw [← hasVoid_collapsed html', hsame, hasVoid_collapsed]
  cases hpage : rewriter.hasVoid rewriter.start html with
  | true =>
      refine iff_of_true (fun html' hsame => ?_) (.inl rfl)
      rw [extractText, extractText, hvoid html' hsame]
      simp only [hpage, if_true]
  | false =>
      rw [hpage] at hvoid
      simp only [Bool.false_eq_true, false_or]
      exact collapsed_iff_of_read hvoid

/-- Where a page of tags and text has been read to; a tag knows what its end delivers. -/
inductive TagState
  | text
  | opened
  | named (name : List Char)
  | tag (atEnd : List Delivery)
  | quoted (double : Bool) (atEnd : List Delivery)

/-- What the end of a tag delivers. -/
def tagEnd : List Char → List Delivery
  | '/' :: name => if BLOCK_TAGS.contains (String.ofList name) then [.blockEndTag] else []
  | name =>
    if ["br", "hr"].contains (String.ofList name) then [.voidElement]
    else if BLOCK_TAGS.contains (String.ofList name) then [.blockElement] else []

def startsName (c : Char) : Bool :=
  (0x41 ≤ c.toNat && c.toNat ≤ 0x5a) || (0x61 ≤ c.toNat && c.toNat ≤ 0x7a) || c == '/' || c == '!'

namespace TagState

def next : TagState → Char → TagState
  | text, c => if c = '<' then opened else text
  | opened, c => if startsName c then named [c] else if c = '<' then opened else text
  | named name, c =>
    if c = '>' then text else if isHtmlSpace c then tag (tagEnd name) else named (name ++ [c])
  | tag atEnd, c =>
    if c = '>' then text
    else if c = '"' then quoted true atEnd else if c = '\'' then quoted false atEnd else tag atEnd
  | quoted double atEnd, c =>
    if c = (if double then '"' else '\'') then tag atEnd else quoted double atEnd

def deliver : TagState → Char → List Delivery
  | text, c => if c = '<' then [] else [.text c]
  | opened, c =>
    if startsName c then [] else if c = '<' then [.text '<'] else [.text '<', .text c]
  | named name, c => if c = '>' then tagEnd name else []
  | tag atEnd, c => if c = '>' then atEnd else []
  | quoted _ _, _ => []

def pending : TagState → List Delivery
  | opened => [.text '<']
  | _ => []

def inText : TagState → Bool
  | text => true
  | opened => true
  | _ => false

end TagState

private theorem startsName_of_isJsSpace {c : Char} (h : isJsSpace c = true) :
    startsName c = false := by
  have hcases : (c = '\t' ∨ c = '\n' ∨ c = '\r' ∨ c = ' ') ∨ 122 < c.toNat ∨ c.toNat < 32 := by
    simp only [isJsSpace, Bool.or_eq_true, Bool.and_eq_true, decide_eq_true_eq,
      List.contains_eq_mem, List.mem_cons, List.not_mem_nil, or_false] at h
    rcases h with (h | h) | h
    · exact .inl (by simpa using h)
    · omega
    · omega
  have hfar : ∀ c : Char, 122 < c.toNat ∨ c.toNat < 32 → startsName c = false := by
    intro c hc
    have hslash : c ≠ '/' := by
      rintro rfl
      exact absurd hc (by decide)
    have hbang : c ≠ '!' := by
      rintro rfl
      exact absurd hc (by decide)
    simp [startsName, hslash, hbang]
    omega
  rcases hcases with (rfl | rfl | rfl | rfl) | hc
  · decide
  · decide
  · decide
  · decide
  · exact hfar c hc

/-- A space is no character that a tag is made of. -/
structure NoMarkup (c : Char) : Prop where
  notOpen : c ≠ '<'
  notClose : c ≠ '>'
  notDouble : c ≠ '"'
  notSingle : c ≠ '\''
  notName : startsName c = false

theorem noMarkup_of_isJsSpace {c : Char} (h : isJsSpace c = true) : NoMarkup c := by
  have hne : ∀ d, isJsSpace d = false → c ≠ d := by
    rintro d hd rfl
    rw [h] at hd
    exact absurd hd (by decide)
  exact ⟨hne _ (by decide), hne _ (by decide), hne _ (by decide), hne _ (by decide),
    startsName_of_isJsSpace h⟩

namespace TagState

/-- What a space is read to. -/
def afterSpace : TagState → TagState
  | opened => text
  | named name => tag (tagEnd name)
  | state => state

theorem next_space {c : Char} (hspace : isHtmlSpace c = true) (state : TagState) :
    state.next c = state.afterSpace := by
  have hc := noMarkup_of_isJsSpace (isJsSpace_of_isHtmlSpace c hspace)
  cases state with
  | text => simp [next, afterSpace, hc.notOpen]
  | opened => simp [next, afterSpace, hc.notName, hc.notOpen]
  | named name => simp [next, afterSpace, hc.notClose, hspace]
  | tag atEnd => simp [next, afterSpace, hc.notClose, hc.notDouble, hc.notSingle]
  | quoted double atEnd =>
      cases double with
      | false => simp [next, afterSpace, hc.notSingle]
      | true => simp [next, afterSpace, hc.notDouble]

theorem next_gap (state : TagState) :
    state.next '>' = text ∨ ∃ double atEnd, state.next '>' = quoted double atEnd := by
  cases state with
  | text => exact .inl rfl
  | opened => exact .inl rfl
  | named name => exact .inl rfl
  | tag atEnd => exact .inl rfl
  | quoted double atEnd =>
      refine .inr ⟨double, atEnd, ?_⟩
      cases double with
      | false => rfl
      | true => rfl

end TagState

/-- A rewriter for tags, attributes and text. -/
def tagRewriter : HtmlRewriter where
  State := TagState
  start := .text
  next := TagState.next
  deliver := TagState.deliver
  finish := TagState.pending
  pending := TagState.pending
  inText := TagState.inText
  deliver_space state c hspace := by
    have hc := noMarkup_of_isJsSpace (isJsSpace_of_isHtmlSpace c hspace)
    cases state with
    | text => simp [TagState.deliver, TagState.pending, TagState.inText, hc.notOpen]
    | opened => simp [TagState.deliver, TagState.pending, TagState.inText, hc.notOpen, hc.notName]
    | named name => simp [TagState.deliver, TagState.pending, TagState.inText, hc.notClose]
    | tag atEnd => simp [TagState.deliver, TagState.pending, TagState.inText, hc.notClose]
    | quoted double atEnd => rfl
  next_space state c d hc hd := by
    rw [TagState.next_space hc, TagState.next_space hd]
  next_spaces state c d hc hd := by
    rw [TagState.next_space hd, TagState.next_space hc]
    cases state <;> rfl
  pending_space state c hc := by
    rw [TagState.next_space hc]
    cases state <;> rfl
  inText_space state c hc := by
    rw [TagState.next_space hc]
    cases state <;> rfl
  next_close state c hc := by
    rw [TagState.next_space hc]
    rcases state.next_gap with h | ⟨double, atEnd, h⟩
    · rw [h]
      rfl
    · rw [h]
      rfl
  pending_close state := by
    rcases state.next_gap with h | ⟨double, atEnd, h⟩
    · rw [h]
      rfl
    · rw [h]
      rfl
  start_space c hc := by
    have hopen := (noMarkup_of_isJsSpace hc).notOpen
    simp [TagState.next, TagState.deliver, hopen]
  finish_space state c hc := by
    have hmarkup := noMarkup_of_isJsSpace hc
    cases state with
    | text =>
        refine ⟨[c], by simpa using hc, ?_⟩
        simp [TagState.next, TagState.deliver, TagState.pending, hmarkup.notOpen]
    | opened =>
        refine ⟨[c], by simpa using hc, ?_⟩
        simp [TagState.next, TagState.deliver, TagState.pending, hmarkup.notOpen, hmarkup.notName]
    | named name =>
        refine ⟨[], by simp, ?_⟩
        simp only [TagState.next, TagState.deliver, if_neg hmarkup.notClose]
        split <;> rfl
    | tag atEnd =>
        refine ⟨[], by simp, ?_⟩
        simp [TagState.next, TagState.deliver, TagState.pending, hmarkup.notClose,
          hmarkup.notDouble, hmarkup.notSingle]
    | quoted double atEnd =>
        refine ⟨[], by simp, ?_⟩
        cases double with
        | false => simp [TagState.next, TagState.deliver, TagState.pending, hmarkup.notSingle]
        | true => simp [TagState.next, TagState.deliver, TagState.pending, hmarkup.notDouble]

/-- A line break between two inline elements parts two words, and the markup does not tell. -/
theorem collapsed_spans :
    collapseHtmlWhitespace "<p><b>A</b>\n<i>B</i></p>".toList =
        collapseHtmlWhitespace "<p><b>A</b><i>B</i></p>".toList ∧
      extractText tagRewriter "<p><b>A</b>\n<i>B</i></p>".toList = some "A B".toList ∧
      extractText tagRewriter "<p><b>A</b><i>B</i></p>".toList = some "AB".toList := by
  decide +kernel

end Hash

end Utsuroi
