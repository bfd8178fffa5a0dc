import ApiTypes.Proofs.Quoting

/-!
# Unions of literals read back

A union of string literals is their texts with bars between them.  Bars, quotes and
backslashes of the values are no obstacle: a reader that takes one literal after the other
gets every value back, so no two lists of values have the same union.
-/

namespace ApiTypes.Text

/-! ### Escaping in two passes -/

/-- The text with every `c` replaced. -/
def replaceChar (c : Char) (replacement : List Char) (cs : List Char) : List Char :=
  cs.flatMap fun x => if x = c then replacement else [x]

/-- Backslashes are escaped before quotes are, so the backslash in front of a quote is not
escaped again. -/
theorem flatMap_escapeLiteral (cs : List Char) :
    cs.flatMap escapeLiteral =
      replaceChar '\'' ['\\', '\''] (replaceChar '\\' ['\\', '\\'] cs) := by
  rw [replaceChar, replaceChar, List.flatMap_assoc]
  congr 1
  funext c
  by_cases hslash : c = '\\'
  · subst hslash
    rfl
  · by_cases hquote : c = '\''
    · subst hquote
      rfl
    · simp [escapeLiteral, hslash, hquote]

theorem literal_eq (s : String) :
    literal s = String.ofList ('\'' ::
      replaceChar '\'' ['\\', '\''] (replaceChar '\\' ['\\', '\\'] s.toList) ++ ['\'']) := by
  rw [literal, flatMap_escapeLiteral]

/-! ### Reading a list of literals -/

theorem length_of_readLiteral {cs value rest : List Char}
    (h : readLiteral cs = some (value, rest)) : rest.length < cs.length := by
  fun_induction readLiteral cs generalizing value with
  | case1 => cases h
  | case2 rest' =>
    obtain ⟨-, rfl⟩ := Prod.mk.inj (Option.some.inj h)
    exact Nat.lt_succ_self _
  | case3 c cs ih =>
    obtain ⟨⟨value', rest'⟩, hread, hpair⟩ := Option.map_eq_some_iff.mp h
    obtain ⟨-, rfl⟩ := Prod.mk.inj hpair
    have hlt := ih hread
    simp only [List.length_cons]
    omega
  | case4 c cs _ _ ih =>
    obtain ⟨⟨value', rest'⟩, hread, hpair⟩ := Option.map_eq_some_iff.mp h
    obtain ⟨-, rfl⟩ := Prod.mk.inj hpair
    have hlt := ih hread
    simp only [List.length_cons]
    omega

/-- Reads single-quoted literals with a bar between neighbours, one at least, up to the end
of the text. -/
def readLiterals : List Char → Option (List String)
  | '\'' :: cs =>
    match _h : readLiteral cs with
    | some (value, []) => some [String.ofList value]
    | some (value, '|' :: rest) => (readLiterals rest).map (String.ofList value :: ·)
    | _ => none
  | _ => none
termination_by cs => cs.length
decreasing_by
  have hlt := length_of_readLiteral _h
  simp only [List.length_cons] at hlt ⊢
  omega

/-- The values of a union of literals; the empty text is the union of none. -/
def readLiteralUnion (text : String) : Option (List String) :=
  if text = "" then some [] else readLiterals text.toList

theorem readLiterals_last (s : String) : readLiterals (literal s).toList = some [s] := by
  have hread := readLiteral_literal s.toList []
  rw [literal, String.toList_ofList, List.cons_append, readLiterals]
  split
  · rename_i value h
    rw [hread] at h
    obtain ⟨rfl, -⟩ := Prod.mk.inj (Option.some.inj h)
    rw [String.ofList_toList]
  · rename_i h
    rw [hread] at h
    cases h
  · rename_i hlast _
    exact absurd hread (hlast s.toList)

theorem readLiterals_cons (s : String) (rest : List Char) :
    readLiterals ((literal s).toList ++ '|' :: rest) = (readLiterals rest).map (s :: ·) := by
  have hread := readLiteral_literal s.toList ('|' :: rest)
  rw [literal, String.toList_ofList, List.cons_append, List.cons_append, List.append_assoc,
    List.singleton_append, readLiterals]
  split
  · rename_i h
    rw [hread] at h
    cases h
  · rename_i value rest' h
    rw [hread] at h
    obtain ⟨rfl, hrest⟩ := Prod.mk.inj (Option.some.inj h)
    rw [String.ofList_toList, (List.cons.inj hrest).2]
  · rename_i _ hbar
    exact absurd hread (hbar s.toList rest)

theorem readLiterals_literalUnion (value : String) (values : List String) :
    readLiterals (literalUnion (value :: values)).toList = some (value :: values) := by
  induction values generalizing value with
  | nil => exact readLiterals_last value
  | cons next values ih =>
    have htext : (literalUnion (value :: next :: values)).toList =
        (literal value).toList ++ '|' :: (literalUnion (next :: values)).toList := by
      rw [literalUnion, List.map_cons, List.map_cons, joinWith, String.toList_append,
        String.toList_append, List.append_assoc]
      rfl
    rw [htext, readLiterals_cons, ih]
    rfl

theorem literalUnion_cons_ne_empty (value : String) (values : List String) :
    literalUnion (value :: values) ≠ "" := by
  intro h
  have hread := readLiterals_literalUnion value values
  rw [h, String.toList_empty, readLiterals] at hread
  · cases hread
  · exact nofun

theorem readLiteralUnion_literalUnion (values : List String) :
    readLiteralUnion (literalUnion values) = some values := by
  cases values with
  | nil => rfl
  | cons value values =>
    rw [readLiteralUnion, if_neg (literalUnion_cons_ne_empty value values)]
    exact readLiterals_literalUnion value values

/-- Every list of values is read back from its union of literals, to the end of the text, so
different lists have different unions.  In each literal the backslashes are escaped first
and the quotes after them. -/
theorem literal_unions_read_back :
    (∀ values, readLiteralUnion (literalUnion values) = some values) ∧
      Function.Injective literalUnion ∧
      (∀ s, literal s = String.ofList
        ('\'' :: replaceChar '\'' ['\\', '\''] (replaceChar '\\' ['\\', '\\'] s.toList) ++
          ['\''])) := by
  refine ⟨readLiteralUnion_literalUnion, fun values values' h => ?_, literal_eq⟩
  have hread := readLiteralUnion_literalUnion values
  rw [h, readLiteralUnion_literalUnion values'] at hread
  exact (Option.some.inj hread).symm

example : literalUnion ["a'|'b", "\\", ""] = "'a\\'|\\'b'|'\\\\'|''" := rfl

end ApiTypes.Text
