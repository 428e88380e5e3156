import Utsuroi.Framework.Spacing
import Utsuroi.Shared.Utf16

/-!
# Markup and text of a page

The markup of a page and the text in it are each normalised on their own.  In the markup the
indentation between two tags goes; in the text every run of whitespace is one space, and a block
element ends a line.
-/

namespace Utsuroi

/-- `[ \t\r\n\f]` -/
def isHtmlSpace (c : Char) : Bool :=
  c == ' ' || c == '\t' || c == '\r' || c == '\n' || c.toNat == 0x0c

/-- `[\r\n]` -/
def isLineBreak (c : Char) : Bool := c == '\r' || c == '\n'

def BLOCK_TAGS : List String :=
  ["address", "article", "aside", "blockquote", "br", "dd", "div", "dl", "dt", "fieldset",
    "figcaption", "figure", "footer", "form", "h1", "h2", "h3", "h4", "h5", "h6", "header", "hr",
    "li", "main", "nav", "ol", "p", "pre", "section", "table", "tr", "ul"]

def BLOCK_BREAK_SENTINEL : Char := Char.ofNat 0xe000

theorem isJsSpace_of_isHtmlSpace (c : Char) (h : isHtmlSpace c = true) : isJsSpace c = true := by
  simp only [isHtmlSpace, Bool.or_eq_true, beq_iff_eq] at h
  rcases h with (((rfl | rfl) | rfl) | rfl) | h
  · decide
  · decide
  · decide
  · decide
  · simp [isJsSpace, h]

/-- Spaces as the pages are normalised. -/
def htmlSpacing : Spacing Char where
  blank := isHtmlSpace
  edge := isJsSpace
  space := ' '
  stop := BLOCK_BREAK_SENTINEL
  blank_space := by decide
  edge_of_blank := isJsSpace_of_isHtmlSpace
  edge_stop := by decide

/-- The length of what `[ \t\r\n\f]*[\r\n][ \t\r\n\f]*` matches before a `<`. -/
def indentGap (html : List Char) : Nat :=
  let gap := html.takeWhile isHtmlSpace
  if gap.any isLineBreak && (html.drop gap.length).head? == some '<' then gap.length else 0

/-- The first `skip` characters belong to a gap that has been found. -/
def dropGapsFrom : Nat → List Char → List Char
  | _, [] => []
  | skip + 1, _ :: html => dropGapsFrom skip html
  | 0, c :: html => c :: dropGapsFrom (if c = '>' then indentGap html else 0) html

def withoutIndentGaps (html : List Char) : List Char := dropGapsFrom 0 html

def collapseHtmlWhitespace (html : List Char) : List Char :=
  let collapsed := htmlSpacing.squeeze (withoutIndentGaps html)
  htmlSpacing.trim collapsed

def normalizeExtractedText (parts : List (List Char)) : List Char :=
  htmlSpacing.text '\n' parts.flatten

/-- What `HTMLRewriter` calls the handlers of `extractText` with. -/
inductive Delivery
  | text (c : Char)
  | blockElement
  /-- a block element that has no end tag: `br`, `hr` -/
  | voidElement
  | blockEndTag
  deriving DecidableEq

/-- The handlers of `extractText`: what they push. -/
def Delivery.push : Delivery → List Char
  | .text c => [c]
  | .blockElement => [BLOCK_BREAK_SENTINEL]
  | .voidElement => [BLOCK_BREAK_SENTINEL]
  | .blockEndTag => [BLOCK_BREAK_SENTINEL]

/-- An element without an end tag. -/
def Delivery.isVoid : Delivery → Bool
  | .voidElement => true
  | _ => false

/-- `HTMLRewriter`: it reads a page character by character and delivers the text between the tags
and the block elements in document order. -/
structure HtmlRewriter where
  State : Type
  start : State
  next : State → Char → State
  deliver : State → Char → List Delivery
  /-- what is delivered at the end of the page -/
  finish : State → List Delivery
  /-- what a space shows not to be markup -/
  pending : State → List Delivery
  /-- a space is text here -/
  inText : State → Bool
  deliver_space : ∀ state c, isHtmlSpace c = true →
    deliver state c = pending state ++ if inText state then [.text c] else []
  next_space : ∀ state c d, isHtmlSpace c = true → isHtmlSpace d = true →
    next state c = next state d
  /-- A second space is read as the first was. -/
  next_spaces : ∀ state c d, isHtmlSpace c = true → isHtmlSpace d = true →
    next (next state c) d = next state c
  pending_space : ∀ state c, isHtmlSpace c = true → pending (next state c) = []
  inText_space : ∀ state c, isHtmlSpace c = true → inText (next state c) = inText state
  /-- Behind a `>` there is text, or a value or a comment that goes on. -/
  next_close : ∀ state c, isHtmlSpace c = true → next (next state '>') c = next state '>'
  pending_close : ∀ state, pending (next state '>') = []
  /-- A page begins with text. -/
  start_space : ∀ c, isJsSpace c = true → next start c = start ∧ deliver start c = [.text c]
  /-- Space at the end of a page adds nothing but space. -/
  finish_space : ∀ state c, isJsSpace c = true → ∃ spaces : List Char,
    (∀ d ∈ spaces, isJsSpace d = true) ∧
      deliver state c ++ finish (next state c) = finish state ++ spaces.map .text

namespace HtmlRewriter

variable (rewriter : HtmlRewriter)

def run (state : rewriter.State) (html : List Char) : rewriter.State := html.foldl rewriter.next state

/-- The parts that are pushed while the page is read. -/
def partsFrom : rewriter.State → List Char → List (List Char)
  | _, [] => []
  | state, c :: html =>
    (rewriter.deliver state c).map Delivery.push ++ partsFrom (rewriter.next state c) html

def partsTo (state : rewriter.State) (html : List Char) : List (List Char) :=
  rewriter.partsFrom state html ++ (rewriter.finish (rewriter.run state html)).map Delivery.push

def hasVoidFrom : rewriter.State → List Char → Bool
  | _, [] => false
  | state, c :: html =>
    (rewriter.deliver state c).any Delivery.isVoid || hasVoidFrom (rewriter.next state c) html

/-- The page has a block element without an end tag. -/
def hasVoid (state : rewriter.State) (html : List Char) : Bool :=
  rewriter.hasVoidFrom state html ||
    (rewriter.finish (rewriter.run state html)).any Delivery.isVoid

end HtmlRewriter

/-- `onEndTag` throws a TypeError on an element without an end tag: there is no text then. -/
def extractText (rewriter : HtmlRewriter) (html : List Char) : Option (List Char) :=
  if rewriter.hasVoid rewriter.start html then none
  else some (normalizeExtractedText (rewriter.partsTo rewriter.start html))

end Utsuroi
