import ApiTypes.Proofs.MergedNames

/-!
# Sanitizing is a projection

The identifier of a name is the name itself where that is an identifier already, so a name
that has been sanitized once is not changed again.  Characters are replaced one by one, and
only an underscore in front makes a name longer.
-/

namespace ApiTypes.Name

theorem sanitizeChar_of_isIdentifierChar {c : Char} (h : isIdentifierChar c = true) :
    sanitizeChar c = c := if_pos h

theorem map_sanitizeChar_of_isIdentifier {cs : List Char} (h : IsIdentifier cs) :
    cs.map sanitizeChar = cs := by
  have hkept : ∀ c ∈ cs, sanitizeChar c = id c :=
    fun c hc => sanitizeChar_of_isIdentifierChar (h.chars c hc)
  rw [List.map_congr_left hkept, List.map_id]

theorem IsIdentifier.not_needsGuard {cs : List Char} (h : IsIdentifier cs) : ¬ NeedsGuard cs := by
  cases cs with
  | nil => exact absurd rfl h.ne_nil
  | cons c cs =>
    intro hdigit
    have hstart : c.isDigit = false := h.start c rfl
    rw [NeedsGuard, hstart] at hdigit
    cases hdigit

theorem typeName_of_isIdentifier {s : String} (h : IsIdentifier s.toList) : typeName s = s := by
  rw [typeName, map_sanitizeChar_of_isIdentifier h, guardStart_of_not_needsGuard h.not_needsGuard,
    String.ofList_toList]

theorem typeName_eq_self_iff (s : String) : typeName s = s ↔ IsIdentifier s.toList := by
  constructor
  · intro h
    rw [← h]
    exact isIdentifier_typeName s
  · exact typeName_of_isIdentifier

theorem typeName_typeName (s : String) : typeName (typeName s) = typeName s :=
  typeName_of_isIdentifier (isIdentifier_typeName s)

theorem length_typeName (s : String) :
    (typeName s).length = if NeedsGuard s.toList then s.length + 1 else s.length := by
  have hlength : ∀ t : String, t.length = t.toList.length := fun t => String.length_toList.symm
  rw [hlength, hlength s, typeName, String.toList_ofList]
  by_cases h : NeedsGuard s.toList
  · rw [if_pos h, guardStart_of_needsGuard ((needsGuard_map s.toList).mpr h), List.length_cons,
      List.length_map]
  · rw [if_neg h, guardStart_of_not_needsGuard (mt (needsGuard_map s.toList).mp h),
      List.length_map]

/-- Whatever a schema is called, its name becomes an identifier: the name itself if it is one
already, so that sanitizing twice is sanitizing once.  It keeps its length, but for the
underscore that is put in front of an empty name and of one that starts with a digit.  A
reference to the schema is written the same, whatever the name begins with. -/
theorem typeName_projects (s : String) :
    IsIdentifier (typeName s).toList ∧
    (typeName s = s ↔ IsIdentifier s.toList) ∧
    typeName (typeName s) = typeName s ∧
    (typeName s).length = (if NeedsGuard s.toList then s.length + 1 else s.length) ∧
    referenceName ("#/components/schemas/" ++ s) = typeName s :=
  ⟨isIdentifier_typeName s, typeName_eq_self_iff s, typeName_typeName s, length_typeName s,
    referenceName_local s⟩

end ApiTypes.Name
