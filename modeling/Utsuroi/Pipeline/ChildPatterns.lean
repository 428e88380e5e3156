import Utsuroi.Pipeline.ItemTools

/-!
# Include patterns for child sitemaps

A pattern becomes a regular expression over the last segment of a child's path.
-/

namespace Utsuroi

/-! ## Regular expressions of literals and `.*` -/

inductive RegExpPart
  | char (c : Char)
  | anyRun
  deriving DecidableEq, Repr

/-- What `.` does not match. -/
def isLineTerminator (c : Char) : Bool :=
  c == '\n' || c == '\r' || c.toNat == 0x2028 || c.toNat == 0x2029

def isMetaChar (c : Char) : Bool := ".*+?^${}()|[]\\".toList.contains c

/-- The parts of a source between `^` and `$`; `none` for a source with other syntax.  A backslash
stands before a character of the syntax only: before a letter it would have a meaning of its own. -/
def parseParts : List Char → Option (List RegExpPart)
  | ['$'] => some []
  | '.' :: '*' :: source => (parseParts source).map (RegExpPart.anyRun :: ·)
  | '\\' :: c :: source =>
    if isMetaChar c then (parseParts source).map (RegExpPart.char c :: ·) else none
  | c :: source =>
    if isMetaChar c then none else (parseParts source).map (RegExpPart.char c :: ·)
  | [] => none

def parseRegExp : List Char → Option (List RegExpPart)
  | '^' :: source => parseParts source
  | _ => none

/-- Whether the whole text matches. -/
def matchesParts : List RegExpPart → List Char → Bool
  | [], [] => true
  | [], _ :: _ => false
  | .char _ :: _, [] => false
  | .char c :: parts, d :: text => c == d && matchesParts parts text
  | .anyRun :: parts, [] => matchesParts parts []
  | .anyRun :: parts, d :: text =>
    matchesParts parts (d :: text) ||
      (!isLineTerminator d && matchesParts (.anyRun :: parts) text)
termination_by parts text => parts.length + text.length

/-! ## Patterns -/

/-- `literal.replace(/[.*+?^${}()|[\]\\]/g, '\\$&')` -/
def escapeRegExp (literal : List Char) : List Char :=
  literal.flatMap fun c => if isMetaChar c then ['\\', c] else [c]

/-- The source of the regular expression of a pattern. -/
def globToRegExp (pattern : String) : List Char :=
  '^' :: (['.', '*'].intercalate ((pattern.toList.splitOn '*').map escapeRegExp) ++ ['$'])

def globTest (pattern filename : String) : Bool :=
  match parseRegExp (globToRegExp pattern) with
  | none => false
  | some parts => matchesParts parts filename.toList

/-- What follows the last `/`. -/
def lastSegment (pathname : String) : String :=
  String.ofList (pathname.toList.splitOn '/').getLast!

def matchesChildIncludePattern (tools : ItemTools) (childUrl : Url) (patterns : List String) :
    Bool :=
  match tools.pathname childUrl with
  | none => false
  | some pathname => patterns.any fun pattern => globTest pattern (lastSegment pathname)

end Utsuroi
