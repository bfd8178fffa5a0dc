import ApiTypes.Proofs.DirectShape
import ApiTypes.Proofs.WrittenNodes

/-!
# References

A schema with a `$ref` is written as one identifier, or as a composite that has this
identifier for its last member: the keywords beside a composite are one more member of it.
Where several composite keywords stand beside a `$ref`, nothing is written.
-/

namespace ApiTypes

/-- The type of a composite, from its keyword. -/
def Target.composite (t : Target) : Keyword → List String → String
  | .allOf => t.intersection
  | _ => t.union

def Kind.composite : Keyword → List Shape → Kind
  | .allOf => .allOf
  | .anyOf => .anyOf
  | _ => .oneOf

namespace Schema

/-- The texts of a schema with a `$ref`, given the identifier that this is written as. -/
inductive ReferenceText (w : TypeWriter) (s : Schema) (identifier : String) : String → Prop
  | alone (h : s.composites = []) :
    ReferenceText w s identifier (w.target.wrap s.isNullable identifier)
  | beside {k : Keyword} {types : List String} (h : s.composites = [k])
      (hmembers : List.Forall₂ (fun c type => w.shape c.shape = .ok type) (s.children k) types) :
    ReferenceText w s identifier
      (w.target.wrap s.isNullable (w.target.composite k (types ++ [identifier])))

variable {w : TypeWriter} {s : Schema} {k : Keyword} {identifier path type : String}

theorem referenceText_alone_iff (h : s.composites = []) :
    s.ReferenceText w identifier type ↔ w.target.wrap s.isNullable identifier = type := by
  constructor
  · rintro (_ | ⟨hone, -⟩)
    · rfl
    · rw [h] at hone
      cases hone
  · rintro rfl
    exact .alone h

theorem referenceText_beside_iff (h : s.composites = [k]) :
    s.ReferenceText w identifier type ↔ ∃ types,
      List.Forall₂ (fun c type => w.shape c.shape = .ok type) (s.children k) types ∧
        w.target.wrap s.isNullable (w.target.composite k (types ++ [identifier])) = type := by
  constructor
  · rintro (hnone | ⟨hone, hmembers⟩)
    · rw [h] at hnone
      cases hnone
    · rw [h] at hone
      obtain rfl := (List.cons.inj hone).1
      exact ⟨_, hmembers, rfl⟩
  · rintro ⟨types, hmembers, rfl⟩
    exact .beside h hmembers

theorem not_referenceText (h : 1 < s.composites.length) : ¬ s.ReferenceText w identifier type := by
  rintro (hnone | ⟨hone, -⟩)
  · rw [hnone] at h
    exact absurd h (by decide)
  · rw [hone] at h
    exact absurd h (Nat.lt_irrefl 1)

/-! ### Shapes -/

theorem shape_of_reference (hcomposites : s.composites = []) (h : s.reference = some path) :
    s.shape = .mk (.reference path) s.isNullable := by
  obtain ⟨r, allOf, anyOf, oneOf, t, i, p, q, e, n, x⟩ := s
  obtain ⟨rfl, rfl, rfl⟩ : allOf = none ∧ anyOf = none ∧ oneOf = none := by
    cases allOf <;> cases anyOf <;> cases oneOf <;> simp [composites] at hcomposites ⊢
  obtain rfl : r = some path := h
  rfl

theorem directList_eq_map (schemas : List Schema) : directList schemas = schemas.map shape := by
  induction schemas with
  | nil => rw [directList, List.map_nil]
  | cons s rest ih => rw [directList, ih, List.map_cons, shape_eq_direct]

theorem shape_of_reference_beside (hone : s.composites = [k]) (h : s.reference = some path) :
    s.shape = .mk (.composite k ((s.children k).map shape ++ [.mk (.reference path) false]))
      s.isNullable := by
  have hmoved : s.typePart.direct = .mk (.reference path) false := by
    rw [← shape_eq_direct]
    exact shape_of_reference rfl h
  have htype : s.hasTypeKeyword = true := by simp [hasTypeKeyword, h]
  have hnullable : s.isNullable = (s.nullable == some true) := isNullable_withNormalChildren s
  rw [shape_eq_direct, hnullable]
  obtain ⟨r, allOf, anyOf, oneOf, t, i, p, q, e, n, x⟩ := s
  cases allOf <;> cases anyOf <;> cases oneOf <;> simp [composites] at hone <;> subst hone <;>
    rw [direct, if_pos htype, hmoved, directList_eq_map] <;> rfl

end Schema

/-! ### Types -/

namespace TypeWriter
variable {w : TypeWriter} {s : Schema} {k : Keyword} {path type : String}

theorem kind_composite (w : TypeWriter) (k : Keyword) (members : List Shape) :
    w.kind (.composite k members) = (w.shapes members).map (w.target.composite k) := by
  cases k <;> rfl

theorem shapes_concat_eq_ok_iff {members : List Shape} {s : Shape} {types : List String} :
    w.shapes (members ++ [s]) = .ok types ↔
      ∃ front type, w.shapes members = .ok front ∧ w.shape s = .ok type ∧
        front ++ [type] = types := by
  induction members generalizing types with
  | nil => simp [shapes, bind_eq_ok_iff]
  | cons first rest ih =>
    rw [List.cons_append, shapes, shapes]
    simp only [bind_eq_ok_iff, pure_eq_ok_iff, ih]
    constructor
    · rintro ⟨head, hhead, _, ⟨front, last, hfront, hlast, rfl⟩, rfl⟩
      exact ⟨head :: front, last, ⟨head, hhead, front, hfront, rfl⟩, hlast, rfl⟩
    · rintro ⟨_, last, ⟨head, hhead, front, hfront, rfl⟩, hlast, rfl⟩
      exact ⟨head, hhead, front ++ [last], ⟨front, last, hfront, hlast, rfl⟩, rfl⟩

theorem shapes_map_eq_ok_iff {schemas : List Schema} {types : List String} :
    w.shapes (schemas.map Schema.shape) = .ok types ↔
      List.Forall₂ (fun c type => w.shape c.shape = .ok type) schemas types := by
  rw [shapes_eq_ok_iff, List.forall₂_map_left_iff]

theorem shape_reference_eq_ok_iff (hcomposites : s.composites = []) (h : s.reference = some path) :
    w.shape s.shape = .ok type ↔
      w.target.wrap s.isNullable (w.target.reference (Name.referenceName path)) = type := by
  rw [Schema.shape_of_reference hcomposites h, shape_eq_ok_iff]
  simp only [kind, Except.ok.injEq, exists_eq_left']

theorem shape_beside_eq_ok_iff (hone : s.composites = [k]) (h : s.reference = some path) :
    w.shape s.shape = .ok type ↔ ∃ types,
      List.Forall₂ (fun c type => w.shape c.shape = .ok type) (s.children k) types ∧
        w.target.wrap s.isNullable (w.target.composite k
          (types ++ [w.target.reference (Name.referenceName path)])) = type := by
  have hmoved : w.shape (.mk (.reference path) false) =
      .ok (w.target.reference (Name.referenceName path)) := rfl
  rw [Schema.shape_of_reference_beside hone h, shape_eq_ok_iff, kind_composite]
  simp only [map_eq_ok_iff, shapes_concat_eq_ok_iff, shapes_map_eq_ok_iff, hmoved]
  constructor
  · rintro ⟨_, ⟨_, ⟨types, last, hmembers, hlast, rfl⟩, rfl⟩, rfl⟩
    obtain rfl := Except.ok.inj hlast
    exact ⟨types, hmembers, rfl⟩
  · rintro ⟨types, hmembers, rfl⟩
    exact ⟨_, ⟨_, ⟨types, _, hmembers, rfl, rfl⟩, rfl⟩, rfl⟩

theorem shape_conflicting_ne_ok (h : 1 < s.composites.length) : w.shape s.shape ≠ .ok type := by
  have hshape : s.shape = .mk (.conflicting _ _) _ := Schema.nodeShape_normalize_conflicting s h
  rw [hshape, ne_eq, shape_eq_ok_iff]
  rintro ⟨_, hinner, -⟩
  cases hinner

/-- A schema with a `$ref` is written as a text of its own, and as nothing else. -/
theorem shape_eq_ok_iff_referenceText (h : s.reference = some path) :
    w.shape s.shape = .ok type ↔
      s.ReferenceText w (w.target.reference (Name.referenceName path)) type := by
  rcases s.composites_cases with hnone | ⟨k, hone⟩ | hmany
  · rw [shape_reference_eq_ok_iff hnone h, Schema.referenceText_alone_iff hnone]
  · rw [shape_beside_eq_ok_iff hone h, Schema.referenceText_beside_iff hone]
  · exact iff_of_false (shape_conflicting_ne_ok hmany) (Schema.not_referenceText hmany)

end TypeWriter

end ApiTypes
