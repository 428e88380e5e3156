import Mathlib.Data.List.DropRight
import Utsuroi.Framework.Separated

/-!
# Texts up to their spacing

Runs of blanks count as one space, and a text is read line by line, each line without the space at
its ends.  Where a space is put between two parts of a text, the lines change exactly when a line
goes on from the one part to the other.
-/

structure Spacing (α : Type) where
  blank : α → Bool
  /-- what goes at the ends of a line, blanks among it -/
  edge : α → Bool
  space : α
  /-- what ends a line -/
  stop : α
  blank_space : blank space = true
  edge_of_blank : ∀ c, blank c = true → edge c = true
  edge_stop : edge stop = false

namespace Spacing

variable {α : Type} (s : Spacing α)

theorem not_blank_stop : s.blank s.stop = false := by
  cases h : s.blank s.stop with
  | false => rfl
  | true => exact absurd (s.edge_of_blank _ h) (by simp [s.edge_stop])

theorem space_ne_stop : s.space ≠ s.stop := by
  intro h
  have hblank := s.blank_space
  rw [h, s.not_blank_stop] at hblank
  exact absurd hblank (by decide)

def startsBlank (text : List α) : Bool := text.head?.any s.blank

def endsBlank (text : List α) : Bool := text.getLast?.any s.blank

/-- Every run of blanks becomes one space. -/
def squeeze : List α → List α
  | [] => []
  | c :: text =>
    if s.blank c && s.startsBlank text then squeeze text
    else (if s.blank c then s.space else c) :: squeeze text

section Squeeze

variable {s} {a b c d : List α}

@[simp]
theorem startsBlank_nil : s.startsBlank [] = false := rfl

@[simp]
theorem startsBlank_cons (x : α) (text : List α) : s.startsBlank (x :: text) = s.blank x := rfl

@[simp]
theorem endsBlank_nil : s.endsBlank [] = false := rfl

theorem squeeze_cons_solid {x : α} (h : s.blank x = false) (text : List α) :
    s.squeeze (x :: text) = x :: s.squeeze text := by
  simp [squeeze, h]

theorem squeeze_cons_cons {x y : α} (hx : s.blank x = true) (hy : s.blank y = true)
    (text : List α) : s.squeeze (x :: y :: text) = s.squeeze (y :: text) := by
  rw [squeeze, if_pos]
  simp [hx, hy, startsBlank]

theorem endsBlank_cons_cons (x y : α) (text : List α) :
    s.endsBlank (x :: y :: text) = s.endsBlank (y :: text) := by
  simp [endsBlank]

theorem endsBlank_concat (text : List α) (x : α) : s.endsBlank (text ++ [x]) = s.blank x := by
  simp [endsBlank]

theorem squeeze_ne_nil {x : α} (text : List α) : s.squeeze (x :: text) ≠ [] := by
  induction text generalizing x with
  | nil => simp [squeeze, startsBlank]
  | cons y text ih =>
      rw [squeeze]
      split
      · exact ih
      · exact List.cons_ne_nil _ _

theorem startsBlank_squeeze (text : List α) : s.startsBlank (s.squeeze text) = s.startsBlank text := by
  induction text with
  | nil => rfl
  | cons x text ih =>
      rw [squeeze]
      cases hx : s.blank x with
      | false => simp [startsBlank, hx]
      | true =>
          cases htext : s.startsBlank text with
          | false => simp [startsBlank, hx, s.blank_space]
          | true => simp [ih, htext, startsBlank_cons, hx]

theorem endsBlank_squeeze (text : List α) : s.endsBlank (s.squeeze text) = s.endsBlank text := by
  induction text with
  | nil => rfl
  | cons x text ih =>
      cases text with
      | nil =>
          cases hx : s.blank x with
          | false => simp [squeeze, startsBlank, endsBlank, hx]
          | true => simp [squeeze, startsBlank, endsBlank, hx, s.blank_space]
      | cons y text =>
          rw [endsBlank_cons_cons, ← ih, squeeze]
          split
          · rfl
          · have hne : s.squeeze (y :: text) ≠ [] := squeeze_ne_nil text
            obtain ⟨z, rest, hrest⟩ := List.exists_cons_of_ne_nil hne
            rw [hrest, endsBlank_cons_cons]

/-- Only a run that crosses the boundary is squeezed further when two parts meet. -/
theorem squeeze_append (a b : List α) :
    s.squeeze (a ++ b) =
      if s.endsBlank a && s.startsBlank b then (s.squeeze a).dropLast ++ s.squeeze b
      else s.squeeze a ++ s.squeeze b := by
  induction a with
  | nil => rfl
  | cons x a ih =>
      cases a with
      | nil =>
          cases hx : s.blank x with
          | false => simp [squeeze, startsBlank, endsBlank, hx]
          | true =>
              have hends : s.endsBlank [x] = true := hx
              cases hb : s.startsBlank b with
              | false => simp [squeeze, hends, hx, hb]
              | true => simp [squeeze, hends, hx, hb]
      | cons y a =>
          have hne : s.squeeze (y :: a) ≠ [] := squeeze_ne_nil a
          rw [endsBlank_cons_cons, List.cons_append, squeeze, squeeze, List.cons_append,
            startsBlank_cons, startsBlank_cons, ← List.cons_append, ih]
          cases hrun : s.blank x && s.blank y with
          | true => rfl
          | false =>
              cases hcross : s.endsBlank (y :: a) && s.startsBlank b with
              | true => simp [List.dropLast_cons_of_ne_nil hne]
              | false => simp

theorem squeeze_congr (hab : s.squeeze a = s.squeeze b) (hcd : s.squeeze c = s.squeeze d) :
    s.squeeze (a ++ c) = s.squeeze (b ++ d) := by
  have hends : s.endsBlank a = s.endsBlank b := by
    rw [← endsBlank_squeeze, hab, endsBlank_squeeze]
  have hstarts : s.startsBlank c = s.startsBlank d := by
    rw [← startsBlank_squeeze, hcd, startsBlank_squeeze]
  rw [squeeze_append, squeeze_append, hab, hcd, hends, hstarts]

theorem squeeze_append_solid {x : α} (h : s.blank x = false) (a b : List α) :
    s.squeeze (a ++ x :: b) = s.squeeze a ++ x :: s.squeeze b := by
  rw [squeeze_append, startsBlank_cons, h, Bool.and_false, squeeze_cons_solid h]
  rfl

theorem squeeze_blanks {blanks : List α} (h : ∀ x ∈ blanks, s.blank x = true) (hne : blanks ≠ []) :
    s.squeeze blanks = [s.space] := by
  induction blanks with
  | nil => exact absurd rfl hne
  | cons x blanks ih =>
      have hx := h x List.mem_cons_self
      cases blanks with
      | nil => simp [squeeze, startsBlank, hx]
      | cons y blanks =>
          rw [squeeze_cons_cons hx (h y (by simp))]
          exact ih (fun z hz => h z (List.mem_cons_of_mem x hz)) (List.cons_ne_nil y blanks)

/-- A blank beside a blank does not count. -/
theorem squeeze_blank_cons {x : α} (hx : s.blank x = true) (h : s.startsBlank a = true) :
    s.squeeze (x :: a) = s.squeeze a := by
  rw [squeeze, if_pos]
  simp [hx, h]

theorem squeeze_concat_blank {x : α} (hx : s.blank x = true) (h : s.endsBlank a = true) :
    s.squeeze (a ++ [x]) = s.squeeze a := by
  have hne : a ≠ [] := by
    intro hnil
    rw [hnil] at h
    exact absurd h (by simp [endsBlank])
  obtain ⟨front, last, rfl⟩ := (List.eq_nil_or_concat a).resolve_left hne
  rw [List.concat_eq_append] at h ⊢
  rw [endsBlank_concat] at h
  have hpair : s.squeeze ([last] ++ [x]) = s.squeeze [last] := by
    rw [List.singleton_append, squeeze_cons_cons h hx]
    simp [squeeze, startsBlank, h, hx]
  rw [List.append_assoc]
  exact squeeze_congr rfl hpair

theorem squeeze_eq_nil (h : s.squeeze a = []) : a = [] := by
  cases a with
  | nil => rfl
  | cons x a => exact absurd h (squeeze_ne_nil a)

/-- What is no blank stands in the squeezed text where it stood in the text. -/
theorem squeeze_eq_append {x : α} (hx : s.blank x = false) (h : s.squeeze a = b ++ x :: c) :
    ∃ front rest, a = front ++ x :: rest ∧ s.squeeze front = b ∧ s.squeeze rest = c := by
  induction a generalizing b with
  | nil => exact absurd h (by simp [squeeze])
  | cons y a ih =>
      rw [squeeze] at h
      split at h
      · next hrun =>
          rw [Bool.and_eq_true] at hrun
          obtain ⟨front, rest, rfl, hfront, hrest⟩ := ih h
          refine ⟨y :: front, rest, rfl, ?_, hrest⟩
          cases front with
          | nil => exact absurd hrun.2 (by simp [hx])
          | cons z front =>
              have hz : s.blank z = true := hrun.2
              rw [squeeze_cons_cons hrun.1 hz]
              exact hfront
      · next hrun =>
          cases b with
          | nil =>
              rw [List.nil_append, List.cons.injEq] at h
              cases hy : s.blank y with
              | true =>
                  rw [hy, if_pos rfl] at h
                  rw [← h.1, s.blank_space] at hx
                  exact absurd hx (by decide)
              | false =>
                  rw [hy, if_neg (by decide)] at h
                  exact ⟨[], a, by rw [h.1]; rfl, rfl, h.2⟩
          | cons z b =>
              rw [List.cons_append, List.cons.injEq] at h
              obtain ⟨front, rest, rfl, hfront, hrest⟩ := ih h.2
              refine ⟨y :: front, rest, rfl, ?_, hrest⟩
              have hfrontRun : (s.blank y && s.startsBlank front) ≠ true := by
                cases front with
                | nil => simp
                | cons w front => exact hrun
              rw [squeeze, if_neg hfrontRun, h.1, hfront]

end Squeeze

def trim (text : List α) : List α := (text.dropWhile s.edge).rdropWhile s.edge

/-- Some of the text stays when it is trimmed. -/
def visible (text : List α) : Bool := text.any fun c => !s.edge c

section Trim

variable {s} {a b middle : List α} {x : α}

@[simp]
theorem visible_nil : s.visible [] = false := rfl

@[simp]
theorem visible_cons (c : α) (text : List α) :
    s.visible (c :: text) = (!s.edge c || s.visible text) := rfl

theorem trim_cons (h : s.edge x = true) (text : List α) : s.trim (x :: text) = s.trim text := by
  rw [trim, List.dropWhile_cons_of_pos h]
  rfl

theorem dropWhile_eq_nil (h : s.visible a = false) : a.dropWhile s.edge = [] := by
  rw [List.dropWhile_eq_nil_iff]
  intro c hc
  have hnot := List.any_eq_false.mp h c hc
  simpa using hnot

theorem dropWhile_ne_nil (h : s.visible a = true) : a.dropWhile s.edge ≠ [] := by
  obtain ⟨c, hc, hsolid⟩ := List.any_eq_true.mp h
  rw [ne_eq, List.dropWhile_eq_nil_iff]
  intro hall
  rw [hall c hc] at hsolid
  exact absurd hsolid (by decide)

theorem dropWhile_append (h : s.visible a = true) (b : List α) :
    (a ++ b).dropWhile s.edge = a.dropWhile s.edge ++ b := by
  rw [List.dropWhile_append, if_neg]
  simpa using dropWhile_ne_nil h

theorem visible_reverse (text : List α) : s.visible text.reverse = s.visible text := by
  simp [visible]

theorem rdropWhile_append (h : s.visible b = true) (a : List α) :
    (a ++ b).rdropWhile s.edge = a ++ b.rdropWhile s.edge := by
  have hreverse := dropWhile_append (a := b.reverse) (by rw [visible_reverse, h]) a.reverse
  rw [List.rdropWhile, List.rdropWhile, List.reverse_append, hreverse, List.reverse_append,
    List.reverse_reverse]

/-- Between two visible parts nothing is trimmed. -/
theorem trim_between (ha : s.visible a = true) (hb : s.visible b = true) (middle : List α) :
    s.trim (a ++ middle ++ b) = a.dropWhile s.edge ++ middle ++ b.rdropWhile s.edge := by
  rw [trim, List.append_assoc, dropWhile_append ha, ← List.append_assoc, rdropWhile_append hb]

theorem trim_concat (h : s.edge x = true) (text : List α) : s.trim (text ++ [x]) = s.trim text := by
  cases htext : s.visible text with
  | true => rw [trim, trim, dropWhile_append htext, List.rdropWhile_concat_pos _ _ _ h]
  | false =>
      rw [trim, trim, List.dropWhile_append, dropWhile_eq_nil htext]
      simp [h]

theorem trim_append_left (h : s.visible a = false) (text : List α) :
    s.trim (a ++ text) = s.trim text := by
  induction a with
  | nil => rfl
  | cons c a ih =>
      rw [visible_cons, Bool.or_eq_false_iff] at h
      rw [List.cons_append, trim_cons (by simpa using h.1)]
      exact ih h.2

/-- What does not depend on the ends of a text does not depend on trimming it. -/
theorem trim_invariant {β : Type} (f : List α → β)
    (hcons : ∀ c text, s.edge c = true → f (c :: text) = f text)
    (hconcat : ∀ c text, s.edge c = true → f (text ++ [c]) = f text) (text : List α) :
    f (s.trim text) = f text := by
  have hleft : ∀ text : List α, f (text.dropWhile s.edge) = f text := by
    intro text
    induction text with
    | nil => rfl
    | cons c text ih =>
        cases hc : s.edge c with
        | true => rw [List.dropWhile_cons_of_pos hc, ih, hcons c text hc]
        | false => rw [List.dropWhile_cons_of_neg (by simp [hc])]
  have hright : ∀ text : List α, f (text.rdropWhile s.edge) = f text := by
    intro text
    induction text using List.reverseRecOn with
    | nil => rfl
    | append_singleton text c ih =>
        cases hc : s.edge c with
        | true => rw [List.rdropWhile_concat_pos _ _ _ hc, ih, hconcat c text hc]
        | false => rw [List.rdropWhile_concat_neg _ _ _ (by simp [hc])]
  rw [trim, hright, hleft]

theorem visible_squeeze (text : List α) : s.visible (s.squeeze text) = s.visible text := by
  induction text with
  | nil => rfl
  | cons c text ih =>
      cases hc : s.blank c with
      | true =>
          have hedge := s.edge_of_blank c hc
          have hspace := s.edge_of_blank _ s.blank_space
          rw [squeeze]
          split
          · simp [ih, hedge]
          · simp [ih, hedge, hspace]
      | false => simp [squeeze_cons_solid hc, ih]

end Trim

/-- What is made of one line. -/
def line (text : List α) : List α := s.trim (s.squeeze text)

section Line

variable {s} {a b : List α} {x : α}

theorem line_append_left (h : s.visible a = false) (text : List α) :
    s.line (a ++ text) = s.line text := by
  have hvisible : s.visible (s.squeeze a) = false := by rw [visible_squeeze, h]
  have hdrop : s.visible (s.squeeze a).dropLast = false := by
    rw [← Bool.not_eq_true]
    intro hsome
    obtain ⟨c, hc, hsolid⟩ := List.any_eq_true.mp hsome
    rw [visible, List.any_eq_false] at hvisible
    exact hvisible c (List.dropLast_subset _ hc) hsolid
  rw [line, line, squeeze_append]
  split
  · exact trim_append_left hdrop _
  · exact trim_append_left hvisible _

theorem line_append_right (h : s.visible b = false) (text : List α) :
    s.line (text ++ b) = s.line text := by
  induction b generalizing text with
  | nil => rw [List.append_nil]
  | cons c b ih =>
      rw [visible_cons, Bool.or_eq_false_iff] at h
      have hedge : s.edge c = true := by simpa using h.1
      rw [List.append_cons, ih h.2, line, line]
      cases hc : s.blank c with
      | false =>
          rw [squeeze_append_solid hc]
          exact trim_concat hedge _
      | true =>
          cases hends : s.endsBlank text with
          | true => rw [squeeze_concat_blank hc hends]
          | false =>
              rw [squeeze_append, hends, Bool.false_and, if_neg (by decide)]
              have hsingle : s.squeeze [c] = [s.space] := by simp [squeeze, hc]
              rw [hsingle]
              exact trim_concat (s.edge_of_blank _ s.blank_space) _

/-- A line goes on from the one text to the other, and no blank parts them. -/
structure Joined (a b : List α) : Prop where
  left : s.endsBlank a = false
  right : s.startsBlank b = false
  before : s.visible a = true
  after : s.visible b = true

/-- A space between two parts of a line shows just where the line goes on without one. -/
theorem line_space (hx : s.blank x = true) (a b : List α) :
    s.line (a ++ x :: b) = s.line (a ++ b) ↔ ¬ s.Joined a b := by
  have hspace : s.squeeze (a ++ x :: b) = s.squeeze ((a ++ [x]) ++ b) := by
    rw [← List.append_cons]
  constructor
  · intro heq hjoined
    have hbefore : s.visible (s.squeeze a) = true := (visible_squeeze a).trans hjoined.before
    have hafter : s.visible (s.squeeze b) = true := (visible_squeeze b).trans hjoined.after
    have hwith : s.squeeze (a ++ x :: b) = s.squeeze a ++ [s.space] ++ s.squeeze b := by
      have hcons : s.squeeze (x :: b) = s.space :: s.squeeze b := by
        simp [squeeze, hx, hjoined.right]
      rw [squeeze_append, hjoined.left, Bool.false_and, if_neg (by decide), hcons,
        List.append_cons]
    have hwithout : s.squeeze (a ++ b) = s.squeeze a ++ [] ++ s.squeeze b := by
      rw [squeeze_append, hjoined.left, Bool.false_and, if_neg (by decide), List.append_nil]
    rw [line, line, hwith, hwithout, trim_between hbefore hafter, trim_between hbefore hafter] at heq
    have hlength := congrArg List.length heq
    simp at hlength
  · intro hjoined
    by_cases hends : s.endsBlank a = true
    · rw [line, hspace, squeeze_congr (squeeze_concat_blank hx hends) (rfl : s.squeeze b = _)]
      rfl
    · by_cases hstarts : s.startsBlank b = true
      · have hcons := squeeze_congr (rfl : s.squeeze a = _) (squeeze_blank_cons hx hstarts)
        rw [line, hcons]
        rfl
      · cases hbefore : s.visible a with
        | false =>
            have hvisible : s.visible [x] = false := by simp [s.edge_of_blank x hx]
            rw [line_append_left hbefore, line_append_left hbefore]
            exact line_append_left hvisible b
        | true =>
            cases hafter : s.visible b with
            | false =>
                have hvisible : s.visible (x :: b) = false := by simp [s.edge_of_blank x hx, hafter]
                rw [line_append_right hafter, line_append_right hvisible]
            | true =>
                exact absurd ⟨Bool.eq_false_iff.mpr hends, Bool.eq_false_iff.mpr hstarts, hbefore,
                  hafter⟩ hjoined

theorem ne_stop_of_edge (h : s.edge x = true) : x ≠ s.stop := by
  intro heq
  rw [heq, s.edge_stop] at h
  exact absurd h (by decide)

theorem stop_not_mem_squeeze (h : s.stop ∉ a) : s.stop ∉ s.squeeze a := by
  induction a with
  | nil => exact h
  | cons c a ih =>
      rw [List.mem_cons, not_or] at h
      rw [squeeze]
      split
      · exact ih h.2
      · rw [List.mem_cons, not_or]
        refine ⟨?_, ih h.2⟩
        split
        · exact s.space_ne_stop.symm
        · exact h.1

/-- A line counts unless nothing is left of it. -/
def counted (line : List α) : List (List α) := [line].filter fun line => !line.isEmpty

theorem counted_inj {line line' : List α} : counted line = counted line' ↔ line = line' := by
  cases line with
  | nil =>
      cases line' with
      | nil => simp
      | cons c line' => simp [counted]
  | cons c line =>
      cases line' with
      | nil => simp [counted]
      | cons c' line' => simp [counted]

end Line

section Lines

variable [DecidableEq α]

/-- The lines of a text that are not empty. -/
def lines (text : List α) : List (List α) :=
  (((s.squeeze text).splitOn s.stop).map s.trim).filter fun line => !line.isEmpty

def lastLine (text : List α) : List α := text.rtakeWhile (· ≠ s.stop)

def firstLine (text : List α) : List α := text.takeWhile (· ≠ s.stop)

/-- The last line of the one text goes on in the first line of the other. -/
def Continues (a b : List α) : Prop := s.Joined (s.lastLine a) (s.firstLine b)

variable {s} {a b c d middle : List α} {x : α}

theorem lines_congr (h : s.squeeze a = s.squeeze b) : s.lines a = s.lines b := by
  rw [lines, lines, h]

theorem lines_stop (a b : List α) : s.lines (a ++ s.stop :: b) = s.lines a ++ s.lines b := by
  simp only [lines, squeeze_append_solid s.not_blank_stop, List.splitOn_append_cons_self,
    List.map_append, List.filter_append]

theorem lines_single (h : s.stop ∉ a) : s.lines a = counted (s.line a) := by
  rw [lines, List.splitOn_eq_singleton (stop_not_mem_squeeze h)]
  rfl

theorem lastLine_not_mem (a : List α) : s.stop ∉ s.lastLine a := by
  intro hmem
  have hne := List.mem_rtakeWhile_imp hmem
  simp at hne

theorem firstLine_not_mem (a : List α) : s.stop ∉ s.firstLine a := by
  intro hmem
  have hne := List.mem_takeWhile_imp hmem
  simp at hne

theorem lines_append_right (a : List α) :
    ∃ before, ∀ rest, s.lines (a ++ rest) = before ++ s.lines (s.lastLine a ++ rest) := by
  have hsplit : a.rdropWhile (· ≠ s.stop) ++ s.lastLine a = a := List.rdropWhile_append_rtakeWhile
  by_cases hnil : a.rdropWhile (· ≠ s.stop) = []
  · rw [hnil, List.nil_append] at hsplit
    exact ⟨[], fun rest => by rw [hsplit]; rfl⟩
  · have hlast := List.rdropWhile_last_not _ _ hnil
    have hstop : (a.rdropWhile (· ≠ s.stop)).getLast hnil = s.stop := by simpa using hlast
    have hfront := List.dropLast_append_getLast hnil
    rw [hstop] at hfront
    refine ⟨s.lines (a.rdropWhile (· ≠ s.stop)).dropLast, fun rest => ?_⟩
    rw [← lines_stop, List.append_cons, hfront, ← List.append_assoc, hsplit]

theorem lines_append_left (b : List α) :
    ∃ after, ∀ front, s.lines (front ++ b) = s.lines (front ++ s.firstLine b) ++ after := by
  have hsplit : s.firstLine b ++ b.dropWhile (· ≠ s.stop) = b := List.takeWhile_append_dropWhile
  cases hrest : b.dropWhile (· ≠ s.stop) with
  | nil =>
      rw [hrest, List.append_nil] at hsplit
      exact ⟨[], fun front => by rw [hsplit, List.append_nil]⟩
  | cons c rest =>
      have hhead := List.head?_dropWhile_not (· ≠ s.stop) b
      rw [hrest] at hhead
      have hstop : c = s.stop := by simpa using hhead
      refine ⟨s.lines rest, fun front => ?_⟩
      rw [← lines_stop, List.append_assoc, ← hstop, ← hrest, hsplit]

/-- What stands inside one line shows in that line alone. -/
theorem lines_around (a b : List α) :
    ∃ before after, ∀ middle, s.stop ∉ middle → s.lines (a ++ middle ++ b) =
      before ++ counted (s.line (s.lastLine a ++ middle ++ s.firstLine b)) ++ after := by
  obtain ⟨before, hbefore⟩ := lines_append_right (s := s) a
  obtain ⟨after, hafter⟩ := lines_append_left (s := s) b
  refine ⟨before, after, fun middle hmiddle => ?_⟩
  have hmem : s.stop ∉ s.lastLine a ++ middle ++ s.firstLine b := by
    simp [lastLine_not_mem, firstLine_not_mem, hmiddle]
  rw [List.append_assoc, hbefore, ← List.append_assoc, hafter, lines_single hmem]
  exact (List.append_assoc _ _ _).symm

theorem lines_cons_edge (h : s.edge x = true) (b : List α) : s.lines (x :: b) = s.lines b := by
  obtain ⟨before, after, haround⟩ := lines_around (s := s) [] b
  have hwith := haround [x] (by simpa using (ne_stop_of_edge h).symm)
  have hwithout := haround [] (by simp)
  have hline : s.line (s.lastLine [] ++ [x] ++ s.firstLine b) =
      s.line (s.lastLine [] ++ [] ++ s.firstLine b) := by
    have hvisible : s.visible [x] = false := by simp [h]
    exact line_append_left hvisible (s.firstLine b)
  rw [List.nil_append, List.singleton_append] at hwith
  rw [hwith, hline, ← hwithout]
  rfl

theorem lines_concat_edge (h : s.edge x = true) (a : List α) : s.lines (a ++ [x]) = s.lines a := by
  obtain ⟨before, after, haround⟩ := lines_around (s := s) a []
  have hwith := haround [x] (by simpa using (ne_stop_of_edge h).symm)
  have hwithout := haround [] (by simp)
  have hline : s.line (s.lastLine a ++ [x] ++ s.firstLine []) =
      s.line (s.lastLine a ++ [] ++ s.firstLine []) := by
    have hvisible : s.visible [x] = false := by simp [h]
    have hnil : s.firstLine ([] : List α) = [] := rfl
    rw [hnil, List.append_nil, List.append_nil, List.append_nil]
    exact line_append_right hvisible (s.lastLine a)
  rw [List.append_nil] at hwith hwithout
  rw [hwith, hline, ← hwithout, List.append_nil]

theorem lines_append_edges (h : ∀ c ∈ b, s.edge c = true) (a : List α) :
    s.lines (a ++ b) = s.lines a := by
  induction b generalizing a with
  | nil => rw [List.append_nil]
  | cons c b ih =>
      rw [List.append_cons, ih fun d hd => h d (List.mem_cons_of_mem c hd)]
      exact lines_concat_edge (h c List.mem_cons_self) a

/-- A blank between two texts shows just where a line goes on from the one to the other. -/
theorem lines_blank (hx : s.blank x = true) (a b : List α) :
    s.lines (a ++ x :: b) = s.lines (a ++ b) ↔ ¬ s.Continues a b := by
  obtain ⟨before, after, haround⟩ := lines_around (s := s) a b
  have hwith := haround [x] (by simpa using (ne_stop_of_edge (s.edge_of_blank x hx)).symm)
  have hwithout := haround [] (by simp)
  rw [List.append_nil] at hwithout
  rw [List.append_cons, hwith, hwithout, List.append_cancel_right_eq, List.append_cancel_left_eq,
    counted_inj, List.append_nil, ← List.append_cons]
  exact line_space hx _ _

/-- Blanks between two texts go unseen where no line goes on from the one to the other. -/
theorem lines_blanks (hblanks : ∀ c ∈ middle, s.blank c = true) (h : ¬ s.Continues a b) :
    s.lines (a ++ middle ++ b) = s.lines (a ++ b) := by
  by_cases hnil : middle = []
  · rw [hnil, List.append_nil]
  · have hsqueeze : s.squeeze middle = s.squeeze [s.space] := by
      rw [squeeze_blanks hblanks hnil, squeeze_blanks (by simp [s.blank_space]) (by simp)]
    have hspace := (lines_blank s.blank_space a b).mpr h
    rw [← hspace, List.append_cons]
    exact lines_congr (squeeze_congr (squeeze_congr rfl hsqueeze) rfl)

theorem continues_iff (a b : List α) :
    s.Continues a b ↔ s.lines (a ++ s.space :: b) ≠ s.lines (a ++ b) := by
  rw [ne_eq, lines_blank s.blank_space, not_not]

theorem continues_congr (hab : s.squeeze a = s.squeeze b) (hcd : s.squeeze c = s.squeeze d) :
    s.Continues a c ↔ s.Continues b d := by
  have hspace : s.squeeze (s.space :: c) = s.squeeze (s.space :: d) :=
    squeeze_congr (rfl : s.squeeze [s.space] = _) hcd
  rw [continues_iff, continues_iff, lines_congr (squeeze_congr hab hspace),
    lines_congr (squeeze_congr hab hcd)]

theorem continues_cons_edge (h : s.edge x = true) (a b : List α) :
    s.Continues (x :: a) b ↔ s.Continues a b := by
  rw [continues_iff, continues_iff, List.cons_append, List.cons_append, lines_cons_edge h,
    lines_cons_edge h]

theorem continues_append_edges (h : ∀ x ∈ c, s.edge x = true) (a b : List α) :
    s.Continues a (b ++ c) ↔ s.Continues a b := by
  rw [continues_iff, continues_iff, ← List.cons_append, ← List.append_assoc, ← List.append_assoc,
    lines_append_edges h, lines_append_edges h]

variable (s) in
/-- Some blanks of the first text are missing in the second. -/
inductive Thinned : List α → List α → Prop
  | nil : Thinned [] []
  | keep (c : α) {a b : List α} : Thinned a b → Thinned (c :: a) (c :: b)
  | drop (c : α) {a b : List α} (h : s.blank c = true) : Thinned a b → Thinned (c :: a) b

omit [DecidableEq α] in
theorem Thinned.refl (a : List α) : s.Thinned a a := by
  induction a with
  | nil => exact .nil
  | cons c a ih => exact .keep c ih

omit [DecidableEq α] in
theorem Thinned.append_left (h : s.Thinned a b) (front : List α) :
    s.Thinned (front ++ a) (front ++ b) := by
  induction front with
  | nil => exact h
  | cons c front ih => exact .keep c ih

omit [DecidableEq α] in
theorem Thinned.append_blanks (h : s.Thinned a b) (hblanks : ∀ c ∈ middle, s.blank c = true) :
    s.Thinned (middle ++ a) b := by
  induction middle with
  | nil => exact h
  | cons c middle ih =>
      exact .drop c (hblanks c List.mem_cons_self)
        (ih fun d hd => hblanks d (List.mem_cons_of_mem c hd))

theorem Thinned.visible_firstLine (h : s.Thinned a b) :
    s.visible (s.firstLine a) = s.visible (s.firstLine b) := by
  induction h with
  | nil => rfl
  | keep c _ ih =>
      by_cases hc : c = s.stop
      · simp [firstLine, hc]
      · have hcons : ∀ text : List α, s.firstLine (c :: text) = c :: s.firstLine text :=
          fun text => List.takeWhile_cons_of_pos (by simp [hc])
        rw [hcons, hcons, visible_cons, visible_cons, ih]
  | drop c hblank _ ih =>
      have hedge := s.edge_of_blank c hblank
      rename_i a b _
      have hcons : s.firstLine (c :: a) = c :: s.firstLine a :=
        List.takeWhile_cons_of_pos (by simp [ne_stop_of_edge hedge])
      rw [hcons, visible_cons, ih, hedge]
      rfl

/-- A line that goes on goes on as well where blanks are missing. -/
theorem Thinned.continues (h : s.Thinned b c) (hcontinues : s.Continues a b) : s.Continues a c := by
  have hright := hcontinues.right
  have hafter := hcontinues.after
  refine ⟨hcontinues.left, ?_, hcontinues.before, by rw [← h.visible_firstLine]; exact hafter⟩
  cases h with
  | nil => exact hright
  | keep d _ =>
      by_cases hd : d = s.stop
      · simp [firstLine, hd]
      · have hcons : ∀ text : List α, s.firstLine (d :: text) = d :: s.firstLine text :=
          fun text => List.takeWhile_cons_of_pos (by simp [hd])
        rw [hcons, startsBlank_cons] at hright ⊢
        exact hright
  | drop d hblank _ =>
      rename_i a _
      have hcons : s.firstLine (d :: a) = d :: s.firstLine a :=
        List.takeWhile_cons_of_pos (by simp [ne_stop_of_edge (s.edge_of_blank d hblank)])
      rw [hcons, startsBlank_cons, hblank] at hright
      exact absurd hright (by decide)

section Text

variable (s)

/-- The lines one after the other. -/
def text (newline : α) (a : List α) : List α := [newline].intercalate (s.lines a)

end Text

omit [DecidableEq α] in
theorem mem_trim {c : α} (h : c ∈ s.trim a) : c ∈ a :=
  List.dropWhile_subset _ (List.rdropWhile_prefix _ _ |>.subset h)

omit [DecidableEq α] in
theorem mem_squeeze {c : α} (hblank : s.blank c = true) (h : c ∈ s.squeeze a) : c = s.space := by
  induction a with
  | nil => exact absurd h List.not_mem_nil
  | cons d a ih =>
      rw [squeeze] at h
      split at h
      · exact ih h
      · rcases List.mem_cons.mp h with heq | hmem
        · split at heq
          · exact heq
          · next hd =>
              rw [← heq] at hd
              exact absurd hblank hd
        · exact ih hmem

theorem mem_lines {line : List α} (h : line ∈ s.lines a) :
    line ≠ [] ∧ ∀ c ∈ line, c ∈ s.squeeze a := by
  rw [lines, List.mem_filter] at h
  obtain ⟨part, hpart, rfl⟩ := List.mem_map.mp h.1
  refine ⟨by simpa using h.2, fun c hc => ?_⟩
  have hback : [s.stop].intercalate ((s.squeeze a).splitOn s.stop) = s.squeeze a :=
    List.intercalate_splitOn s.stop
  rw [← hback]
  exact Utsuroi.Separated.mem_intercalate_of_mem hpart (mem_trim hc)

/-- The lines can be read off their text. -/
theorem text_inj {newline : α} (hblank : s.blank newline = true) (hne : newline ≠ s.space) :
    s.text newline a = s.text newline b ↔ s.lines a = s.lines b := by
  have hnot : ∀ a : List α, ∀ line ∈ s.lines a, newline ∉ line := fun a line hline hmem =>
    hne (mem_squeeze hblank ((mem_lines hline).2 newline hmem))
  have hempty : ∀ a : List α, s.text newline a = [] → s.lines a = [] := by
    intro a htext
    cases hlines : s.lines a with
    | nil => rfl
    | cons line rest =>
        rw [text, hlines] at htext
        have hline := (mem_lines (hlines ▸ List.mem_cons_self : line ∈ s.lines a)).1
        exact absurd htext (Utsuroi.Separated.intercalate_ne_nil hline)
  constructor
  · intro heq
    by_cases ha : s.lines a = []
    · have htext : s.text newline a = [] := by simp [text, ha]
      rw [ha, hempty b (heq ▸ htext)]
    · by_cases hb : s.lines b = []
      · have htext : s.text newline b = [] := by simp [text, hb]
        exact absurd (hempty a (heq ▸ htext)) ha
      · rw [← List.splitOn_intercalate newline (hnot a) ha,
          ← List.splitOn_intercalate newline (hnot b) hb]
        exact congrArg _ heq
  · intro heq
    rw [text, text, heq]

end Lines

end Spacing
