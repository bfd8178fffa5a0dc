import ApiTypes.Proofs.NormalForm
import ApiTypes.Proofs.SchemaWriting
import Mathlib.Algebra.Order.BigOperators.Group.List
import Mathlib.Algebra.Order.Ring.Nat

/-!
# Texts of normal forms

Normalizing adds an object for each mixed node, and no object is lost.  So the text of a
normal form opens more braces than the text of the schema, unless the schema is normal:
the two texts are the same only where normalizing changes nothing.
-/

namespace ApiTypes
open Text (quote joinWith)

/-- How many braces a text opens. -/
def Text.braces (text : String) : Nat := text.toList.count '\x7b'

open Text (braces)

theorem Text.braces_append (a b : String) : braces (a ++ b) = braces a + braces b := by
  rw [braces, String.toList_append, List.count_append, braces, braces]

theorem Text.braces_joinWith {separator : String} (h : braces separator = 0)
    (texts : List String) : braces (joinWith separator texts) = (texts.map braces).sum := by
  induction texts with
  | nil => rfl
  | cons text rest ih =>
    cases rest with
    | nil => simp [joinWith]
    | cons next rest =>
      rw [joinWith, braces_append, braces_append, h, ih, Nat.add_zero, List.map_cons (a := text),
        List.sum_cons]

namespace Json

theorem braces_array (items : List Json) :
    braces (compact (.array items)) = (items.map fun item => braces item.compact).sum := by
  have hitems : ∀ items : List Json, compactItems items = items.map compact := by
    intro items
    induction items with
    | nil => rfl
    | cons item rest ih => rw [compactItems, ih, List.map_cons]
  have hopen : braces "[" = 0 := by decide
  have hclose : braces "]" = 0 := by decide
  rw [compact, Text.braces_append, Text.braces_append, hopen, hclose,
    Text.braces_joinWith (by decide), hitems, List.map_map]
  simp only [Nat.zero_add, Nat.add_zero, Function.comp_def]

theorem braces_object (members : List (String × Json)) :
    braces (compact (.object members)) =
      1 + (members.map fun m => braces (quote m.1) + braces m.2.compact).sum := by
  have hmembers : ∀ members : List (String × Json),
      compactMembers members = members.map fun m => quote m.1 ++ ":" ++ m.2.compact := by
    intro members
    induction members with
    | nil => rfl
    | cons member rest ih => rw [compactMembers, ih, List.map_cons]
  have hopen : braces "\x7b" = 1 := by decide
  have hclose : braces "\x7d" = 0 := by decide
  have hcolon : braces ":" = 0 := by decide
  rw [compact, Text.braces_append, Text.braces_append, hopen, hclose,
    Text.braces_joinWith (by decide), hmembers, List.map_map]
  simp only [Function.comp_def, Text.braces_append, hcolon, Nat.add_zero]

end Json

namespace Schema

/-! ### Braces of a schema -/

def valueBraces (o : Option Json) : Nat := o.elim 0 fun value => braces value.compact

/-- The braces that are opened under a keyword, apart from those of the children. -/
def ownBraces (s : Schema) : Keyword → Nat
  | .allOf | .anyOf | .oneOf | .items => 0
  | .properties => s.properties.elim 0 fun properties =>
    1 + (properties.map fun entry => braces (quote entry.1)).sum
  | .reference => valueBraces (s.reference.map .string)
  | .type => valueBraces (s.type.map .string)
  | .required => valueBraces (s.required.map fun names => .array (names.map .string))
  | .enum => valueBraces (s.enum.map .array)
  | .nullable => valueBraces (s.nullable.map .bool)

def childBraces (s : Schema) (k : Keyword) : Nat :=
  ((s.children k).map fun c => braces c.text).sum

def extraBraces (s : Schema) : Nat :=
  (s.extra.map fun m => braces (quote m.1) + braces m.2.compact).sum

theorem braces_optionalMember (k : Keyword) (o : Option Json) :
    ((optionalMember k o).map fun m => braces (quote m.1) + braces m.2.compact).sum =
      valueBraces o := by
  have hname : braces (quote k.name) = 0 := by cases k <;> decide
  cases o with
  | none => rfl
  | some value => simp [optionalMember, hname, valueBraces]

theorem braces_content (s : Schema) (k : Keyword) :
    valueBraces ((s.content k).map (contentToJson k)) = s.ownBraces k + s.childBraces k := by
  have hlist : ∀ o : Option (List Schema),
      valueBraces (o.map fun schemas => .array (schemas.map toJson)) =
        ((o.getD []).map fun c => braces c.text).sum := by
    intro o
    cases o with
    | none => rfl
    | some schemas =>
      simp only [valueBraces, Option.map_some, Option.elim_some, Json.braces_array, List.map_map,
        Option.getD_some]
      rfl
  cases k with
  | allOf => exact (hlist s.allOf).trans (Nat.zero_add _).symm
  | anyOf => exact (hlist s.anyOf).trans (Nat.zero_add _).symm
  | oneOf => exact (hlist s.oneOf).trans (Nat.zero_add _).symm
  | items =>
    show valueBraces (s.items.map toJson) = 0 + (s.items.toList.map fun c => braces c.text).sum
    cases s.items with
    | none => rfl
    | some item => simp [valueBraces, text]
  | properties =>
    show valueBraces (s.properties.map fun properties =>
        .object (properties.map fun entry => (entry.1, entry.2.toJson))) =
      s.ownBraces .properties +
        (((s.properties.getD []).map Prod.snd).map fun c => braces c.text).sum
    rw [ownBraces]
    cases s.properties with
    | none => rfl
    | some properties =>
      simp only [valueBraces, Option.map_some, Option.elim_some, Json.braces_object,
        List.map_map, Option.getD_some, Function.comp_def, List.sum_map_add, text]
      omega
  | reference | type | required | enum | nullable => rfl

theorem braces_text (s : Schema) : braces s.text =
    1 + (Keyword.all.map fun k => s.ownBraces k + s.childBraces k).sum + s.extraBraces := by
  have hkeywords : ∀ ks : List Keyword,
      ((ks.flatMap fun k => optionalMember k ((s.content k).map (contentToJson k))).map
        fun m => braces (quote m.1) + braces m.2.compact).sum =
          (ks.map fun k => s.ownBraces k + s.childBraces k).sum := by
    intro ks
    induction ks with
    | nil => rfl
    | cons k rest ih =>
      rw [List.flatMap_cons, List.map_append, List.sum_append, ih, braces_optionalMember,
        braces_content, List.map_cons, List.sum_cons]
  rw [text, toJson_eq, Json.braces_object, keywordMembers, List.map_append, List.sum_append,
    hkeywords, extraBraces, Nat.add_assoc]

/-! ### Braces of a normal form -/

variable {s : Schema}

theorem ownBraces_withNormalChildren (s : Schema) (k : Keyword) :
    s.withNormalChildren.ownBraces k = s.ownBraces k := by
  cases k with
  | properties =>
    simp only [ownBraces, withNormalChildren]
    cases s.properties with
    | none => rfl
    | some properties =>
      simp only [normalizeOptionProperties, normalizeProperties_eq_map, Option.elim_some,
        List.map_map]
      rfl
  | _ => rfl

theorem childBraces_withNormalChildren (s : Schema) (k : Keyword) :
    s.withNormalChildren.childBraces k =
      ((s.children k).map fun c => braces c.normalize.text).sum := by
  rw [childBraces, children_withNormalChildren, List.map_map]
  rfl

/-- What moves out of a node stands in an object of its own. -/
theorem braces_withoutTypePart (s : Schema) :
    braces s.withoutTypePart.text + braces s.typePart.text = braces s.text + 1 := by
  rw [braces_text, braces_text, braces_text]
  simp only [Keyword.all, List.map_cons, List.map_nil, List.sum_cons, List.sum_nil, ownBraces,
    childBraces, extraBraces, children, typePart, withoutTypePart, valueBraces, Option.map_none,
    Option.elim_none, Option.toList_none, Option.getD_none]
  omega

theorem braces_appendMember (h : s.composites ≠ []) (member : Schema) :
    braces (s.appendMember member).text = braces s.text + braces member.text := by
  unfold appendMember
  split
  case h_4 hall hany hone =>
    exact absurd (by rw [composites, hall, hany, hone]; rfl) h
  all_goals
    rename_i hmembers
    rw [braces_text, braces_text]
    simp only [Keyword.all, List.map_cons, List.map_nil, List.sum_cons, List.sum_nil, ownBraces,
      childBraces, extraBraces, children, hmembers, Option.getD_some, List.map_append,
      List.sum_append]
    omega

/-- Moving the type keywords of a mixed node takes one more object. -/
theorem braces_settle (h : s.Mixed) : braces s.settle.text = braces s.text + 1 := by
  obtain ⟨hone, htype⟩ := mixed_iff.mp h
  have hcomposites : s.withoutTypePart.composites ≠ [] := by
    show s.composites ≠ []
    intro hnil
    rw [hnil] at hone
    cases hone
  rw [settle, if_pos ⟨hone, htype⟩, braces_appendMember hcomposites, braces_withoutTypePart]

section
variable (hle : ∀ k, ∀ c ∈ s.children k, braces c.text ≤ braces c.normalize.text)
include hle

theorem childBraces_le (k : Keyword) : s.childBraces k ≤ s.withNormalChildren.childBraces k := by
  rw [childBraces_withNormalChildren]
  exact List.sum_le_sum (hle k)

theorem braces_withNormalChildren_le : braces s.text ≤ braces s.withNormalChildren.text := by
  have hsum : (Keyword.all.map fun k => s.ownBraces k + s.childBraces k).sum ≤
      (Keyword.all.map fun k =>
        s.withNormalChildren.ownBraces k + s.withNormalChildren.childBraces k).sum := by
    refine List.sum_le_sum fun k _ => ?_
    rw [ownBraces_withNormalChildren]
    exact Nat.add_le_add_left (childBraces_le hle k) _
  rw [braces_text, braces_text]
  exact Nat.add_le_add_right (Nat.add_le_add_left hsum 1) _

theorem braces_withNormalChildren_lt {k : Keyword} {c : Schema} (hc : c ∈ s.children k)
    (hlt : braces c.text < braces c.normalize.text) :
    braces s.text < braces s.withNormalChildren.text := by
  have hchild : s.childBraces k < s.withNormalChildren.childBraces k := by
    rw [childBraces_withNormalChildren]
    exact List.sum_lt_sum _ _ (hle k) ⟨c, hc, hlt⟩
  have hsum : (Keyword.all.map fun k => s.ownBraces k + s.childBraces k).sum <
      (Keyword.all.map fun k =>
        s.withNormalChildren.ownBraces k + s.withNormalChildren.childBraces k).sum := by
    simp only [ownBraces_withNormalChildren]
    refine List.sum_lt_sum _ _ (fun k _ => ?_) ⟨k, Keyword.mem_all k, ?_⟩
    · exact Nat.add_le_add_left (childBraces_le hle k) _
    · exact Nat.add_lt_add_left hchild _
  rw [braces_text, braces_text]
  exact Nat.add_lt_add_right (Nat.add_lt_add_left hsum 1) _

end

theorem braces_withNormalChildren_le_normalize (s : Schema) :
    braces s.withNormalChildren.text ≤ braces s.normalize.text := by
  rw [normalize_eq_settle]
  by_cases h : s.Mixed
  · have hsettle := braces_settle (mixed_withNormalChildren.mpr h)
    omega
  · rw [← normalize_eq_settle, normalize_of_not_mixed h]

theorem braces_normalize (s : Schema) : braces s.text ≤ braces s.normalize.text ∧
    (¬ s.IsNormal → braces s.text < braces s.normalize.text) := by
  induction s using induction_children with
  | step s ih =>
    have hle := fun k c hc => (ih k c hc).1
    have hchildren := braces_withNormalChildren_le hle
    have hself := braces_withNormalChildren_le_normalize s
    refine ⟨hchildren.trans hself, fun hnormal => ?_⟩
    by_cases h : s.Mixed
    · have hsettle := braces_settle (mixed_withNormalChildren.mpr h)
      rw [← normalize_eq_settle] at hsettle
      omega
    · obtain ⟨k, c, hc, hchild⟩ : ∃ k, ∃ c ∈ s.children k, ¬ c.IsNormal := by
        by_contra hall
        push Not at hall
        exact hnormal (isNormal_iff.mpr ⟨h, hall⟩)
      have hlt := braces_withNormalChildren_lt hle hc ((ih k c hc).2 hchild)
      omega

/-- The text of a normal form is that of the schema only where nothing is normalized. -/
theorem text_normalize_eq_iff (s : Schema) : s.normalize.text = s.text ↔ s.IsNormal := by
  constructor
  · intro h
    by_contra hnormal
    have hlt := (braces_normalize s).2 hnormal
    rw [h] at hlt
    exact Nat.lt_irrefl _ hlt
  · intro h
    rw [normalize_of_isNormal s h]

end Schema

end ApiTypes
