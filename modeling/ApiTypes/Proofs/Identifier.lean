import ApiTypes.Name

/-!
# Sanitized names are identifiers

Whatever a schema or a reference is called, the name it gets in a module is an
identifier, and an identifier is read from a text up to the first character
that cannot belong to it.
-/

namespace ApiTypes.Name

/-- Identifier characters only, at least one of them, and no digit first. -/
structure IsIdentifier (cs : List Char) : Prop where
  ne_nil : cs ≠ []
  chars : ∀ c ∈ cs, isIdentifierChar c = true
  start : ∀ c ∈ cs.head?, c.isDigit = false

theorem isIdentifierChar_sanitizeChar (c : Char) : isIdentifierChar (sanitizeChar c) = true := by
  unfold sanitizeChar
  by_cases h : isIdentifierChar c = true
  · rw [if_pos h]
    exact h
  · rw [if_neg h]
    decide

theorem isIdentifier_guardStart (cs : List Char) (h : ∀ c ∈ cs, isIdentifierChar c = true) :
    IsIdentifier (guardStart cs) := by
  cases cs with
  | nil =>
    refine ⟨by simp [guardStart], ?_, ?_⟩
    · intro x hx
      obtain rfl : x = '_' := by simpa [guardStart] using hx
      decide
    · intro x hx
      obtain rfl : '_' = x := by simpa [guardStart] using hx
      decide
  | cons c cs =>
    by_cases hd : c.isDigit = true
    · simp only [guardStart, hd, if_true]
      refine ⟨by simp, ?_, by simp⟩
      intro x hx
      rcases List.mem_cons.mp hx with rfl | hx
      · decide
      · exact h x hx
    · simp only [guardStart, hd]
      exact ⟨by simp, h, by simpa using hd⟩

theorem isIdentifier_typeName (name : String) : IsIdentifier (typeName name).toList := by
  rw [typeName, String.toList_ofList]
  apply isIdentifier_guardStart
  intro c hc
  obtain ⟨x, -, rfl⟩ := List.mem_map.mp hc
  exact isIdentifierChar_sanitizeChar x

theorem isIdentifier_referenceName (reference : String) :
    IsIdentifier (referenceName reference).toList := by
  unfold referenceName
  split <;> exact isIdentifier_typeName _

structure Identifier where
  text : String
  valid : IsIdentifier text.toList

def identifier (reference : String) : Identifier :=
  ⟨referenceName reference, isIdentifier_referenceName reference⟩

/-! ### Reading -/

/-- Whether a text begins with no character of `p`. -/
def Stops (p : Char → Bool) (rest : List Char) : Prop := ∀ c ∈ rest.head?, p c = false

theorem takeWhile_append_stops {p : Char → Bool} {cs rest : List Char}
    (h : ∀ c ∈ cs, p c = true) (hrest : Stops p rest) : (cs ++ rest).takeWhile p = cs := by
  rw [List.takeWhile_append_of_pos h]
  cases rest with
  | nil => simp
  | cons c rest => simp [hrest c rfl]

theorem dropWhile_append_stops {p : Char → Bool} {cs rest : List Char}
    (h : ∀ c ∈ cs, p c = true) (hrest : Stops p rest) : (cs ++ rest).dropWhile p = rest := by
  rw [List.dropWhile_append_of_pos h]
  cases rest with
  | nil => rfl
  | cons c rest => simp [hrest c rfl]

/-- Whether a text begins with one of the characters given, if with any. -/
def Follows (among rest : List Char) : Prop := ∀ c ∈ rest.head?, c ∈ among

section Following
variable {among rest : List Char} {c : Char}

theorem follows_nil : Follows among [] := by
  intro x hx
  cases hx

theorem follows_cons (h : c ∈ among) : Follows among (c :: rest) := by
  intro x hx
  obtain rfl : c = x := by simpa using hx
  exact h

theorem Follows.weaken (h : Follows among rest) : Follows (c :: among) rest :=
  fun x hx => List.mem_cons_of_mem c (h x hx)

theorem Follows.ne {x : Char} (h : Follows among (c :: rest)) (hx : x ∉ among) : c ≠ x := by
  rintro rfl
  exact hx (h c rfl)

theorem Follows.stops {p : Char → Bool} (h : Follows among rest)
    (hp : among.all (fun c => !p c) = true) : Stops p rest := by
  intro x hx
  simpa using List.all_eq_true.mp hp x (h x hx)

end Following

end ApiTypes.Name
