import Mathlib.Data.List.Infix
import Utsuroi.Shared.Contracts
import Utsuroi.Shared.Utf16

/-!
# The charset of the Content-Type header

Which charset the header of a response names for its body.
-/

namespace Utsuroi

/-- What `/charset\s*=\s*("?)([^;"\s]+)/i` captures at the start of the text; where the pattern
goes on with `\1`, an opening quote has to be `closed`. -/
def charsetAt (closed : Bool) (text : List Char) : Option String :=
  if "charset".toList.isPrefixOf (text.map Char.toLower) then
    match (text.drop 7).dropWhile isJsSpace with
    | '=' :: rest =>
      let rest := rest.dropWhile isJsSpace
      let quoted := rest.head? == some '"'
      let unquoted := if quoted then rest.tail else rest
      let label := unquoted.takeWhile fun c => !(c == '"' || c == ';' || isJsSpace c)
      if label.isEmpty then none
      else if closed && quoted && unquoted[label.length]? != some '"' then none
      else some (String.ofList label)
    | _ => none
  else none

/-- The match that begins first. -/
def charsetIn (closed : Bool) (contentType : String) : Option String :=
  contentType.toList.tails.findSome? (charsetAt closed)

def extractCharsetFromContentType (contentType : Option String) : Option String :=
  contentType.bind (charsetIn true)

example : extractCharsetFromContentType (some "text/html; charset = \"Shift_JIS\"") =
    some "Shift_JIS" := by decide

/-- What is captured with its quote closed is captured without looking at the closing quote. -/
theorem charsetAt_closed {text : List Char} {label : String}
    (h : charsetAt true text = some label) : charsetAt false text = some label := by
  rw [charsetAt] at h ⊢
  split at h
  next hname =>
    rw [if_pos hname]
    split at h
    next rest _ =>
      simp only [Bool.false_and, Bool.false_eq_true, if_false]
      grind
    · contradiction
  · contradiction

/-- The charset that is handed on with the body. -/
def FetchSuccess.headerCharset (outcome : FetchSuccess) : Option String :=
  extractCharsetFromContentType outcome.contentType

end Utsuroi
