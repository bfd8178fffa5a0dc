import ApiTypes.Proofs.NormalNodes
import ApiTypes.Proofs.NormalTexts
import ApiTypes.Proofs.ShapeNodes

/-!
# What diagnostics quote

A shape without a known type, and one with several composite keywords, quotes the schema
that it was made of.  That is a node of the normal form.  The text is the one the document
declares only where the declared node is normal, since its children are normalized too.
-/

namespace ApiTypes
open Schema (Branch Address)

/-- The text of a schema that a kind quotes, if it quotes one. -/
def Kind.quoted? : Kind → Option String
  | .unrecognized source => some source
  | .conflicting _ source => some source
  | _ => none

namespace Schema
variable {n : Schema}

theorem quoted?_nodeShape {source : String} (h : n.nodeShape.kind.quoted? = some source) :
    source = n.text := by
  obtain ⟨r, allOf, anyOf, oneOf, t, i, p, q, e, m, x⟩ := n
  rw [nodeShape, Shape.kind] at h
  split at h
  · exact (Option.some.inj h).symm
  · generalize variant _ = v at h
    cases v with
    | unrecognized => exact (Option.some.inj h).symm
    | array =>
      cases i with
      | none => exact (Option.some.inj h).symm
      | some item => cases h
    | _ => cases h

/-! ### What is quoted -/

/-- A diagnostic that stands for a node of a schema quotes the normal form of that node,
and so the node itself if and only if it is normal.  All others stand for the members that
normalizing adds. -/
theorem quoted_text (p : Schema) {b : Address} {s : Shape} {source : String}
    (hs : p.shape.at? b = some s) (hquoted : s.kind.quoted? = some source) :
    (∀ a n, p.at? a = some n → p.place a = b →
      source = n.normalize.text ∧ (source = n.text ↔ n.IsNormal)) ∧
    ((∃ a, p.IsNode a ∧ p.place a = b) ∨
      ∃ a n k, p.at? a = some n ∧ n.MixesAt k ∧ p.place a ++ [n.behind k] = b ∧
        source = n.typePart.normalize.text) := by
  obtain ⟨m, hm, rfl⟩ := at?_nodeShape hs
  obtain rfl := quoted?_nodeShape hquoted
  constructor
  · rintro a n hn rfl
    obtain rfl : n.normalize = m := Option.some.inj ((at?_place hn).symm.trans hm)
    exact ⟨rfl, text_normalize_eq_iff n⟩
  · rcases accounted_of_isNode p b ⟨m, hm⟩ with hnode | ⟨a, n, k, hn, hk, rfl⟩
    · exact .inl hnode
    · have hmember : p.normalize.at? (p.place a ++ [n.behind k]) = some n.typePart.normalize := by
        rw [at?_append, at?_place hn, Option.bind_some, at?_branch, child?_normalize_behind hk]
      obtain rfl : n.typePart.normalize = m := Option.some.inj (hmember.symm.trans hm)
      exact .inr ⟨a, n, k, hn, hk, rfl, rfl⟩

/-- Two composite keywords on a node that moved into an added member, one of them with a
mixed member. -/
theorem quoted_text_of_moved_conflict :
    let n : Schema := { allOf := some [{ anyOf := some [], type := some "string" }],
                        oneOf := some [] }
    let p : Schema := { oneOf := some [], properties := some [("x", n)] }
    ∃ s source, p.shape.at? [⟨.oneOf, 0⟩, ⟨.properties, 0⟩] = some s ∧
      s.kind.quoted? = some source ∧ p.at? [⟨.properties, 0⟩] = some n ∧
      source = n.normalize.text ∧ source ≠ n.text := by
  intro n p
  obtain ⟨s, hs⟩ : ∃ s, p.shape.at? [⟨.oneOf, 0⟩, ⟨.properties, 0⟩] = some s := ⟨_, rfl⟩
  obtain ⟨source, hquoted⟩ : ∃ source, s.kind.quoted? = some source := by
    obtain rfl := Option.some.inj hs
    exact ⟨_, rfl⟩
  have hn : p.at? [⟨.properties, 0⟩] = some n := rfl
  have hplace : p.place [⟨.properties, 0⟩] = [⟨.oneOf, 0⟩, ⟨.properties, 0⟩] := by decide
  obtain ⟨hnode, -⟩ := quoted_text p hs hquoted
  obtain ⟨htext, hsame⟩ := hnode _ n hn hplace
  refine ⟨s, source, hs, hquoted, hn, htext, fun he => ?_⟩
  have hmixed : ({ anyOf := some [], type := some "string" } : Schema).Mixed :=
    mixed_iff.mpr (by decide)
  exact hsame.mp he [⟨.allOf, 0⟩] _ rfl hmixed

/-- An unknown type quotes its items with their siblings moved, not as they were declared. -/
theorem unknown_type_quotes_moved_siblings :
    let p : Schema := { type := some "mystery",
                        items := some { oneOf := some [{ type := some "string" }],
                                        type := some "number" } }
    let source := "\x7b\"type\":\"mystery\",\"items\":" ++
      "\x7b\"oneOf\":[\x7b\"type\":\"string\"\x7d,\x7b\"type\":\"number\"\x7d]\x7d\x7d"
    p.at? [] = some p ∧ p.place [] = [] ∧
      p.shape.at? [] = some (.mk (.unrecognized source) false) ∧ source ≠ p.text := by
  intro p source
  exact ⟨rfl, rfl, rfl, by decide +kernel⟩

end Schema

end ApiTypes
