import Mathlib.Data.List.Perm.Basic
import Utsuroi.Normalize.Attributes

/-!
# The order of attributes does not show

The comparison of code points orders all names strictly, and the rebuild neither loses nor repeats
an attribute that stays.
-/

namespace Utsuroi

/-! ## The order of the names -/

theorem compareCodePoints_le_iff (ac bc : List Nat) :
    compareCodePoints ac bc ≤ 0 ↔ unitsLe ac bc = true := by
  induction ac generalizing bc with
  | nil => simp [compareCodePoints, unitsLe]
  | cons a ac ih =>
      cases bc with
      | nil => simp [compareCodePoints, unitsLe]
      | cons b bc =>
          have hrest := ih bc
          simp only [compareCodePoints, unitsLe]
          by_cases hne : a ≠ b
          · rw [if_pos hne]
            by_cases hlt : a < b
            · simp [hlt]
              omega
            · rw [if_neg hlt, if_pos (by omega)]
              simp
              omega
          · rw [if_neg hne, if_neg (by omega), if_neg (by omega)]
            exact hrest

theorem codePoints_injective : Function.Injective codePoints := by
  intro a b h
  have hchars : a.toList = b.toList :=
    List.map_injective_iff.mpr (fun _ _ hchar => Char.toNat_inj.mp hchar) h
  exact String.toList_injective hchars

theorem sortAttributeNames_perm (names : List String) : (sortAttributeNames names).Perm names :=
  List.mergeSort_perm names _

theorem sortAttributeNames_eq {names names' : List String} (h : names.Perm names') :
    sortAttributeNames names = sortAttributeNames names' := by
  have hle : (fun a b => decide (compareCodePoints (codePoints a) (codePoints b) ≤ 0)) =
      fun a b => unitsLe (codePoints a) (codePoints b) := by
    funext a b
    rw [Bool.eq_iff_iff, decide_eq_true_eq]
    exact compareCodePoints_le_iff _ _
  rw [sortAttributeNames, sortAttributeNames, hle]
  apply Sorting.mergeSort_eq_of_perm (unitsLe_order.comap codePoints) _ h
  intro a _ b _ hab hba
  exact codePoints_injective (unitsLe_antisymm hab hba)

/-! ## The loops -/

def attributeNames (attrs : List Attribute) : List String := attrs.map Attribute.name

theorem mem_attributeNames {attrs : List Attribute} {attr : Attribute} (h : attr ∈ attrs) :
    attr.name ∈ attributeNames attrs :=
  List.mem_map_of_mem h

theorem removeAll_attributes (attrs : List Attribute) (e : Element)
    (h : ∀ attr ∈ e.attributes, attr.name ∈ attrs.map fun removed => asciiLower removed.name) :
    (attrs.foldl (fun e attr => e.removeAttribute attr.name) e).attributes = [] := by
  induction attrs generalizing e with
  | nil =>
      rw [List.foldl_nil, List.eq_nil_iff_forall_not_mem]
      intro attr hattr
      exact List.not_mem_nil (h attr hattr)
  | cons removed attrs ih =>
      rw [List.foldl_cons]
      apply ih
      intro attr hattr
      have hmem := List.mem_filter.mp hattr
      have hcases := List.mem_cons.mp (h attr hmem.1)
      exact hcases.resolve_left (bne_iff_ne.mp hmem.2)

theorem bare_attributes (e : Element) :
    (e.attributes.foldl (fun e attr => e.removeAttribute attr.name) e).attributes = [] := by
  apply removeAll_attributes
  intro attr h
  exact List.mem_map.mpr ⟨attr, h, e.lower attr h⟩

/-- A name in lower case that is new to the element. -/
theorem setAttribute_new {e : Element} {name : String} (hlower : asciiLower name = name)
    (hnew : name ∉ attributeNames e.attributes) (value : String) :
    (e.setAttribute name value).attributes = e.attributes ++ [⟨name, value⟩] := by
  have hnone : (e.attributes.any fun attr => attr.name == asciiLower name) = false := by
    rw [List.any_eq_false]
    intro attr hattr heq
    have hname : attr.name = name := (eq_of_beq heq).trans hlower
    exact hnew (hname ▸ mem_attributeNames hattr)
  have hattributes := e.setAttribute_attributes name value
  rw [hnone, hlower] at hattributes
  exact hattributes

theorem find?_name_eq {attrs : List Attribute} {name : String} {found : Attribute}
    (h : attrs.find? (fun attr => attr.name == name) = some found) : found.name = name := by
  have hfound := List.find?_some h
  exact eq_of_beq hfound

/-- Names that differ are added one behind the other. -/
theorem addRebuilt_attributes {rebuilt : List Attribute} (names : List String) (e : Element)
    (hlower : ∀ name ∈ names, asciiLower name = name) (hnodup : names.Nodup)
    (hnew : ∀ name ∈ names, name ∉ attributeNames e.attributes) :
    (names.foldl (addRebuilt rebuilt) e).attributes =
      e.attributes ++ names.filterMap fun name => rebuilt.find? fun attr => attr.name == name := by
  induction names generalizing e with
  | nil => simp
  | cons name names ih =>
      rw [List.foldl_cons, List.filterMap_cons]
      have hrest := List.nodup_cons.mp hnodup
      have hlower' : ∀ name ∈ names, asciiLower name = name :=
        fun next hnext => hlower next (List.mem_cons_of_mem _ hnext)
      cases hfind : rebuilt.find? fun attr => attr.name == name with
      | none =>
          have hsame : addRebuilt rebuilt e name = e := by rw [addRebuilt, hfind]
          rw [hsame]
          exact ih e hlower' hrest.2 fun next hnext => hnew next (List.mem_cons_of_mem _ hnext)
      | some found =>
          have hname : found.name = name := find?_name_eq hfind
          have hset : addRebuilt rebuilt e name = e.setAttribute name found.value := by
            rw [addRebuilt, hfind]
          have hattributes :
              (e.setAttribute name found.value).attributes = e.attributes ++ [found] := by
            rw [setAttribute_new (hlower name List.mem_cons_self) (hnew name List.mem_cons_self),
              ← hname]
          rw [hset, ih _ hlower' hrest.2, hattributes]
          · simp
          · intro next hnext hmem
            rw [hattributes, attributeNames, List.map_append, List.mem_append] at hmem
            rcases hmem with hold | hadded
            · exact hnew next (List.mem_cons_of_mem _ hnext) hold
            · rw [List.map_singleton, List.mem_singleton, hname] at hadded
              exact hrest.1 (hadded ▸ hnext)

/-! ## What comes back -/

section Canonical

variable (platform : UrlPlatform) (opts : AttributeOptions)

def isLasting (attr : Attribute) : Bool :=
  !isDynamicAttribute platform attr.name opts.dynamicAttributes

def rebuiltAttribute (attr : Attribute) : Attribute :=
  ⟨attr.name, rebuiltValue platform opts attr⟩

/-- Every attribute that stays, with its normalised value. -/
def lastingAttributes (attrs : List Attribute) : List Attribute :=
  (attrs.filter (isLasting platform opts)).map (rebuiltAttribute platform opts)

theorem rebuildAttributes_eq (attrs : List Attribute) :
    rebuildAttributes platform opts attrs = lastingAttributes platform opts attrs := by
  induction attrs with
  | nil => rfl
  | cons attr attrs ih =>
      rw [rebuildAttributes, ih]
      unfold lastingAttributes
      cases hdynamic : isDynamicAttribute platform attr.name opts.dynamicAttributes with
      | true => simp [isLasting, hdynamic]
      | false => simp [isLasting, hdynamic, rebuiltAttribute]

theorem lastingAttributes_names (attrs : List Attribute) :
    (attributeNames (lastingAttributes platform opts attrs)).Sublist (attributeNames attrs) := by
  have hnames : attributeNames (lastingAttributes platform opts attrs) =
      attributeNames (attrs.filter (isLasting platform opts)) := by
    rw [attributeNames, lastingAttributes, List.map_map]
    rfl
  rw [hnames]
  exact List.filter_sublist.map _

theorem find?_of_mem {attrs : List Attribute} (hnodup : (attributeNames attrs).Nodup)
    {attr : Attribute} (h : attr ∈ attrs) :
    attrs.find? (fun other => other.name == attr.name) = some attr := by
  induction attrs with
  | nil => cases h
  | cons head attrs ih =>
      have hrest := List.nodup_cons.mp hnodup
      rcases List.mem_cons.mp h with rfl | htail
      · simp
      · have hne : head.name ≠ attr.name :=
          fun heq => hrest.1 (heq ▸ mem_attributeNames htail)
        rw [List.find?_cons_of_neg (by simpa using hne)]
        exact ih hrest.2 htail

theorem filterMap_find? {attrs : List Attribute} (hnodup : (attributeNames attrs).Nodup)
    {kept : List Attribute} (hkept : ∀ attr ∈ kept, attr ∈ attrs) :
    ((attributeNames kept).filterMap fun name => attrs.find? fun attr => attr.name == name) =
      kept := by
  induction kept with
  | nil => rfl
  | cons attr kept ih =>
      have hfind := find?_of_mem hnodup (hkept attr List.mem_cons_self)
      have hrest := ih fun next hnext => hkept next (List.mem_cons_of_mem _ hnext)
      rw [attributeNames, List.map_cons, List.filterMap_cons, hfind]
      exact congrArg (attr :: ·) hrest

variable {platform opts}

/-- The cleaned element has its lasting attributes in the order of their names. -/
theorem cleanAttributes_attributes {e : Element}
    (hdistinct : (attributeNames e.attributes).Nodup) :
    (cleanAttributes platform opts e).attributes =
      (sortAttributeNames (attributeNames (lastingAttributes platform opts e.attributes))).filterMap
        fun name =>
          (lastingAttributes platform opts e.attributes).find? fun attr => attr.name == name := by
  have hsub := lastingAttributes_names platform opts e.attributes
  have hsorted := sortAttributeNames_perm
    (attributeNames (lastingAttributes platform opts e.attributes))
  have hadd := @addRebuilt_attributes (lastingAttributes platform opts e.attributes)
    (sortAttributeNames (attributeNames (lastingAttributes platform opts e.attributes)))
    (e.attributes.foldl (fun e attr => e.removeAttribute attr.name) e)
  rw [bare_attributes] at hadd
  rw [cleanAttributes, rebuildAttributes_eq]
  apply hadd
  · intro name hname
    obtain ⟨attr, hattr, rfl⟩ := List.mem_map.mp (hsub.subset (hsorted.mem_iff.mp hname))
    exact e.lower attr hattr
  · exact hsorted.nodup_iff.mpr (hdistinct.sublist hsub)
  · intro name _
    exact List.not_mem_nil

theorem cleanAttributes_perm {e : Element} (hdistinct : (attributeNames e.attributes).Nodup) :
    (cleanAttributes platform opts e).attributes.Perm
      (lastingAttributes platform opts e.attributes) := by
  have hnodup := hdistinct.sublist (lastingAttributes_names platform opts e.attributes)
  have hsorted := sortAttributeNames_perm
    (attributeNames (lastingAttributes platform opts e.attributes))
  have hperm := hsorted.filterMap fun name =>
    (lastingAttributes platform opts e.attributes).find? fun attr => attr.name == name
  rw [filterMap_find? hnodup fun _ h => h] at hperm
  rw [cleanAttributes_attributes hdistinct]
  exact hperm

theorem lastingAttributes_static {attrs : List Attribute} {attr : Attribute}
    (h : attr ∈ lastingAttributes platform opts attrs) :
    isDynamicAttribute platform attr.name opts.dynamicAttributes = false := by
  obtain ⟨old, hold, rfl⟩ := List.mem_map.mp h
  exact Bool.eq_false_of_not_eq_true' (List.mem_filter.mp hold).2

theorem cleanAttributes_canonical (platform : UrlPlatform) (opts : AttributeOptions)
    (e e' : Element)
    (hdistinct : (e.attributes.map Attribute.name).Nodup)
    (hperm : e.attributes.Perm e'.attributes) :
    (cleanAttributes platform opts e).attributes = (cleanAttributes platform opts e').attributes ∧
      (cleanAttributes platform opts e).attributes.Perm
        (lastingAttributes platform opts e.attributes) ∧
      ∀ attr ∈ (cleanAttributes platform opts e).attributes,
        isDynamicAttribute platform attr.name opts.dynamicAttributes = false := by
  have hdistinct' : (attributeNames e'.attributes).Nodup :=
    (hperm.map Attribute.name).nodup_iff.mp hdistinct
  have hkept : (cleanAttributes platform opts e).attributes.Perm
      (lastingAttributes platform opts e.attributes) := cleanAttributes_perm hdistinct
  refine ⟨?_, hkept, fun attr hattr => lastingAttributes_static (hkept.mem_iff.mp hattr)⟩
  have hnames : sortAttributeNames (attributeNames (lastingAttributes platform opts e.attributes)) =
      sortAttributeNames (attributeNames (lastingAttributes platform opts e'.attributes)) :=
    sortAttributeNames_eq (((hperm.filter _).map _).map _)
  have hlasting : (lastingAttributes platform opts e.attributes).Perm
      (lastingAttributes platform opts e'.attributes) := (hperm.filter _).map _
  have hnodup := hdistinct.sublist (lastingAttributes_names platform opts e.attributes)
  have hnodup' := hdistinct'.sublist (lastingAttributes_names platform opts e'.attributes)
  rw [cleanAttributes_attributes hdistinct, cleanAttributes_attributes hdistinct', hnames]
  apply List.filterMap_congr
  intro name hname
  obtain ⟨attr, hattr, rfl⟩ := List.mem_map.mp ((sortAttributeNames_perm _).mem_iff.mp hname)
  rw [find?_of_mem hnodup' hattr, find?_of_mem hnodup (hlasting.mem_iff.mpr hattr)]

end Canonical

/-- No address is read here. -/
def asciiPlatform : UrlPlatform where
  parse _ _ := none
  toLowerCase := String.toLower

def scriptElement : Element where
  attributes := [⟨"id", "a"⟩, ⟨"nonce", "r4nd"⟩, ⟨"class", "b"⟩]
  lower := by decide

def reorderedElement : Element where
  attributes := [⟨"class", "b"⟩, ⟨"id", "a"⟩, ⟨"nonce", "r4nd"⟩]
  lower := by decide

theorem cleanAttributes_canonical_script :
    (cleanAttributes asciiPlatform ⟨"http://example.com/", none, none⟩ scriptElement).attributes =
        (cleanAttributes asciiPlatform ⟨"http://example.com/", none, none⟩
          reorderedElement).attributes ∧
      (cleanAttributes asciiPlatform ⟨"http://example.com/", none, none⟩
        scriptElement).attributes.Perm [⟨"id", "a"⟩, ⟨"class", "b"⟩] := by
  have h := cleanAttributes_canonical asciiPlatform ⟨"http://example.com/", none, none⟩
    scriptElement reorderedElement (by decide) (by decide)
  have hlasting : lastingAttributes asciiPlatform ⟨"http://example.com/", none, none⟩
      scriptElement.attributes = [⟨"id", "a"⟩, ⟨"class", "b"⟩] := by
    decide +kernel
  exact ⟨h.1, hlasting ▸ h.2.1⟩

end Utsuroi
