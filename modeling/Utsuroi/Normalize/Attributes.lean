import Mathlib.Data.List.Infix
import Mathlib.Data.List.Nodup
import Utsuroi.Normalize.Url

/-!
# The attributes of a cleaned element

Every element loses its attributes and gets the lasting ones back in the order of their names.
-/

namespace Utsuroi

def DEFAULT_DYNAMIC_ATTRIBUTES : List String := ["nonce", "data-nonce"]

/-- What stands between the slashes of the patterns; all of them ignore case. -/
def DEFAULT_DYNAMIC_ATTRIBUTE_PATTERNS : List String := ["csrf", "timestamp"]

def URL_ATTRIBUTE_NAMES : List String := ["href", "src"]

/-! ## Elements of the rewriter -/

def asciiLowerChar (c : Char) : Char :=
  if 0x41 ≤ c.toNat ∧ c.toNat ≤ 0x5A then Char.ofNat (c.toNat + 0x20) else c

def asciiLower (name : String) : String := String.ofList (name.toList.map asciiLowerChar)

theorem asciiLowerChar_idem (c : Char) : asciiLowerChar (asciiLowerChar c) = asciiLowerChar c := by
  have hall : ∀ i : Fin 26,
      asciiLowerChar (Char.ofNat (0x41 + i + 0x20)) = Char.ofNat (0x41 + i + 0x20) := by decide
  by_cases h : 0x41 ≤ c.toNat ∧ c.toNat ≤ 0x5A
  · have hc := hall ⟨c.toNat - 0x41, by omega⟩
    have hn : 0x41 + (c.toNat - 0x41) + 0x20 = c.toNat + 0x20 := by omega
    have hlower : asciiLowerChar c = Char.ofNat (c.toNat + 0x20) := if_pos h
    simp only [hn] at hc
    rw [hlower, hc]
  · have hlower : asciiLowerChar c = c := if_neg h
    rw [hlower, hlower]

theorem asciiLower_idem (name : String) : asciiLower (asciiLower name) = asciiLower name := by
  have hcomp : asciiLowerChar ∘ asciiLowerChar = asciiLowerChar := funext asciiLowerChar_idem
  rw [asciiLower, asciiLower, String.toList_ofList, List.map_map, hcomp]

structure Attribute where
  name : String
  value : String
  deriving DecidableEq

/-- An element the rewriter delivers: HTML writes the names of attributes in lower case.  They are
names that `setAttribute` takes; it refuses the empty one and those with a space, `/`, `>` or `=`. -/
structure Element where
  attributes : List Attribute
  lower : ∀ attr ∈ attributes, asciiLower attr.name = attr.name

namespace Element

def removeAttribute (e : Element) (name : String) : Element where
  attributes := e.attributes.filter fun attr => attr.name != asciiLower name
  lower := fun attr h => e.lower attr (List.mem_filter.mp h).1

/-- The value of an attribute, which comes last where the element did not have it. -/
def setAttribute (e : Element) (name value : String) : Element where
  attributes :=
    if e.attributes.any fun attr => attr.name == asciiLower name then
      e.attributes.map fun attr =>
        if attr.name = asciiLower name then { attr with value := value } else attr
    else e.attributes ++ [⟨asciiLower name, value⟩]
  lower := by
    intro attr h
    split at h
    · obtain ⟨old, hold, rfl⟩ := List.mem_map.mp h
      split <;> exact e.lower old hold
    · rcases List.mem_append.mp h with hold | hnew
      · exact e.lower attr hold
      · rw [List.mem_singleton.mp hnew]
        exact asciiLower_idem name

theorem setAttribute_attributes (e : Element) (name value : String) :
    (e.setAttribute name value).attributes =
      if e.attributes.any fun attr => attr.name == asciiLower name then
        e.attributes.map fun attr =>
          if attr.name = asciiLower name then { attr with value := value } else attr
      else e.attributes ++ [⟨asciiLower name, value⟩] := rfl

end Element

/-! ## The rebuild -/

/-- What `sortAttributeNames` compares two names by. -/
def compareCodePoints : List Nat → List Nat → Int
  | a :: ac, b :: bc => if a ≠ b then (a : Int) - b else compareCodePoints ac bc
  | ac, bc => (ac.length : Int) - bc.length

def codePoints (name : String) : List Nat := name.toList.map Char.toNat

def sortAttributeNames (names : List String) : List String :=
  names.mergeSort fun a b => decide (compareCodePoints (codePoints a) (codePoints b) ≤ 0)

/-- The options of the normalisation that the attributes depend on. -/
structure AttributeOptions where
  baseUrl : String
  stripQueryParams : Option (List String)
  dynamicAttributes : Option (List String)

section Rebuild

variable (platform : UrlPlatform)

def isDynamicAttribute (name : String) (overrideList : Option (List String)) : Bool :=
  let lowerName := platform.toLowerCase name
  match overrideList with
  | some candidates =>
    candidates.any fun candidate => platform.toLowerCase candidate == lowerName
  | none =>
    DEFAULT_DYNAMIC_ATTRIBUTES.contains lowerName ||
      DEFAULT_DYNAMIC_ATTRIBUTE_PATTERNS.any fun pattern =>
        decide (pattern.toList <:+: (asciiLower lowerName).toList)

/-- The value an attribute that stays is given. -/
def rebuiltValue (opts : AttributeOptions) (attr : Attribute) : String :=
  if URL_ATTRIBUTE_NAMES.contains (platform.toLowerCase attr.name) then
    normalizeUrlAttribute platform attr.value opts.baseUrl
      (opts.stripQueryParams.getD DEFAULT_STRIP_QUERY_PARAMS)
  else attr.value

def rebuildAttributes (opts : AttributeOptions) : List Attribute → List Attribute
  | [] => []
  | attr :: attrs =>
    if isDynamicAttribute platform attr.name opts.dynamicAttributes then
      rebuildAttributes opts attrs
    else ⟨attr.name, rebuiltValue platform opts attr⟩ :: rebuildAttributes opts attrs

/-- One turn of the last loop. -/
def addRebuilt (rebuilt : List Attribute) (e : Element) (name : String) : Element :=
  match rebuilt.find? fun attr => attr.name == name with
  | some found => e.setAttribute name found.value
  | none => e

/-- What `runCleanPass` does to the attributes of every element. -/
def cleanAttributes (opts : AttributeOptions) (e : Element) : Element :=
  let attrs := e.attributes
  let bare := attrs.foldl (fun e attr => e.removeAttribute attr.name) e
  let rebuilt := rebuildAttributes platform opts attrs
  (sortAttributeNames (rebuilt.map Attribute.name)).foldl (addRebuilt rebuilt) bare

end Rebuild

end Utsuroi
