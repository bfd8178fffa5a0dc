import ApiTypes.Json.StringReader
import ApiTypes.Text.Quoted
import Mathlib.Tactic.SplitIfs

/-!
# Quoted text reads back

Whatever stands between quotes is recovered from the text, up to the closing
quote and not beyond: a single-quoted literal by `Text.readLiteral`, a JSON
string by the reader of JSON texts.
-/

namespace ApiTypes

/-! ### Single-quoted literals -/

namespace Text

/-- Reads a literal from behind its opening quote.  A backslash makes the next
character stand for itself, and the first quote without one closes. -/
def readLiteral : List Char → Option (List Char × List Char)
  | [] => none
  | '\'' :: rest => some ([], rest)
  | '\\' :: c :: rest => (readLiteral rest).map fun (cs, rest) => (c :: cs, rest)
  | c :: rest => (readLiteral rest).map fun (cs, rest) => (c :: cs, rest)

theorem readLiteral_escapeLiteral (c : Char) (rest : List Char) :
    readLiteral (escapeLiteral c ++ rest) =
      (readLiteral rest).map fun (cs, rest) => (c :: cs, rest) := by
  by_cases hb : c = '\\'
  · subst hb
    simp [escapeLiteral, readLiteral]
  · by_cases hq : c = '\''
    · subst hq
      simp [escapeLiteral, readLiteral]
    · simp [escapeLiteral, readLiteral, hb, hq]

theorem readLiteral_literal (cs rest : List Char) :
    readLiteral (cs.flatMap escapeLiteral ++ '\'' :: rest) = some (cs, rest) := by
  induction cs with
  | nil => rfl
  | cons c cs ih =>
    rw [List.flatMap_cons, List.append_assoc, readLiteral_escapeLiteral, ih]
    rfl

end Text

/-! ### Texts separated by commas -/

namespace Text

/-- The texts with a comma before each. -/
def tailText (texts : List String) : List Char := texts.flatMap fun text => ',' :: text.toList

theorem toList_joinWith_cons (text : String) (texts : List String) :
    (joinWith "," (text :: texts)).toList = text.toList ++ tailText texts := by
  induction texts generalizing text with
  | nil => simp [joinWith, tailText]
  | cons other texts ih =>
    rw [joinWith, String.toList_append, String.toList_append, ih other]
    simp [tailText]

end Text

/-! ### JSON strings -/

namespace Json
open Text (escape hexDigit hexValue?)

theorem hexValue?_hexDigit (n : Nat) (h : n < 16) : hexValue? (hexDigit n) = some n := by
  have key : ∀ n : Fin 16, hexValue? (hexDigit n.val) = some n.val := by decide
  exact key ⟨n, h⟩

theorem hexQuad?_control (n : Nat) (h : n < 256) :
    hexQuad? '0' '0' (hexDigit (n / 16)) (hexDigit (n % 16)) = some n := by
  have hzero : hexValue? '0' = some 0 := by decide
  have hhigh : hexValue? (hexDigit (n / 16)) = some (n / 16) :=
    hexValue?_hexDigit _ (by omega)
  have hlow : hexValue? (hexDigit (n % 16)) = some (n % 16) := hexValue?_hexDigit _ (by omega)
  simp only [hexQuad?, hzero, hhigh, hlow, Option.bind_eq_bind, Option.bind_some,
    Option.pure_def, Option.some.injEq]
  omega

theorem length_le_byteCount (cs : List Char) : cs.length ≤ Cursor.byteCount cs := by
  have key : ∀ (cs : List Char) (n : Nat),
      n + cs.length ≤ cs.foldl (fun n c => n + c.utf8Size) n := by
    intro cs
    induction cs with
    | nil => simp
    | cons c cs ih =>
      intro n
      have hc := c.utf8Size_pos
      have hrest := ih (n + c.utf8Size)
      simp only [List.foldl_cons, List.length_cons]
      omega
  simpa [Cursor.byteCount] using key cs 0

theorem readQuad_four (a b c d : Char) (rest : List Char) (offset n : Nat)
    (h : hexQuad? a b c d = some n) :
    readQuad ⟨a :: b :: c :: d :: rest, offset⟩ = .ok (n, ⟨rest, offset + 4⟩) := by
  have hlen := length_le_byteCount (a :: b :: c :: d :: rest)
  have hleft : ¬ Cursor.byteCount (a :: b :: c :: d :: rest) < 4 := by
    simp only [List.length_cons] at hlen
    omega
  simp only [readQuad, hleft, if_false, h]

theorem readEscape_control (c : Char) (hc : c.toNat < 32) (rest : List Char) (offset : Nat) :
    ∃ stop, readEscape ⟨'u' :: '0' :: '0' :: hexDigit (c.toNat / 16) :: hexDigit (c.toNat % 16)
      :: rest, offset⟩ = .ok (c, ⟨rest, stop⟩) := by
  have hquad := readQuad_four '0' '0' _ _ rest (offset + 'u'.utf8Size) c.toNat
    (hexQuad?_control c.toNat (by omega))
  have hlow : ¬ (0xDC00 ≤ c.toNat ∧ c.toNat ≤ 0xDFFF) := by omega
  have hhigh : ¬ (0xD800 ≤ c.toNat ∧ c.toNat ≤ 0xDBFF) := by omega
  refine ⟨offset + 'u'.utf8Size + 4, ?_⟩
  simp only [readEscape, if_true, Cursor.next, readUnicodeEscape, hquad]
  simp only [bind, Except.bind, hlow, hhigh, if_false, Char.ofNat_toNat]
  rfl

theorem readChars_escape (c : Char) (rest : List Char) (offset fuel : Nat) :
    ∃ stop, readChars (fuel + 1) ⟨escape c ++ rest, offset⟩ =
      (readChars fuel ⟨rest, stop⟩).map fun (cs, cursor) => (c :: cs, cursor) := by
  unfold escape
  split_ifs with hquote hslash hback htab hline hfeed hreturn hcontrol
  · exact ⟨_, by subst hquote; rfl⟩
  · exact ⟨_, by subst hslash; rfl⟩
  · exact ⟨_, by subst hback; rfl⟩
  · exact ⟨_, by subst htab; rfl⟩
  · exact ⟨_, by subst hline; rfl⟩
  · exact ⟨_, by subst hfeed; rfl⟩
  · exact ⟨_, by subst hreturn; rfl⟩
  · obtain ⟨stop, hstop⟩ := readEscape_control c hcontrol rest (offset + '\\'.utf8Size)
    refine ⟨stop, ?_⟩
    simp only [List.cons_append, List.nil_append, readChars, Cursor.next, hstop]
    rfl
  · refine ⟨offset + c.utf8Size, ?_⟩
    simp only [List.cons_append, List.nil_append, readChars, Cursor.next, hquote, hslash,
      hcontrol, if_false]

theorem readChars_quote (cs rest : List Char) (offset fuel : Nat) (h : cs.length < fuel) :
    ∃ stop, readChars fuel ⟨cs.flatMap escape ++ '"' :: rest, offset⟩ =
      .ok (cs, ⟨rest, stop⟩) := by
  induction cs generalizing offset fuel with
  | nil =>
    obtain ⟨n, rfl⟩ : ∃ n, fuel = n + 1 := ⟨fuel - 1, by omega⟩
    exact ⟨_, rfl⟩
  | cons c cs ih =>
    obtain ⟨n, rfl⟩ : ∃ n, fuel = n + 1 := ⟨fuel - 1, by omega⟩
    rw [List.flatMap_cons, List.append_assoc]
    obtain ⟨middle, hc⟩ := readChars_escape c (cs.flatMap escape ++ '"' :: rest) offset n
    obtain ⟨stop, hcs⟩ := ih middle n (by simpa using h)
    exact ⟨stop, by rw [hc, hcs]; rfl⟩

theorem length_le_flatMap_escape (cs : List Char) : cs.length ≤ (cs.flatMap escape).length := by
  induction cs with
  | nil => simp
  | cons c cs ih =>
    have hc : 1 ≤ (escape c).length := by
      unfold escape
      split_ifs <;> simp
    simp only [List.flatMap_cons, List.length_append, List.length_cons]
    omega

theorem readString_quote (s : String) (rest : List Char) (offset : Nat) :
    ∃ stop, readString ⟨s.toList.flatMap escape ++ '"' :: rest, offset⟩ =
      .ok (s, ⟨rest, stop⟩) := by
  have hlen := length_le_flatMap_escape s.toList
  obtain ⟨stop, h⟩ := readChars_quote s.toList rest offset
    ((s.toList.flatMap escape ++ '"' :: rest).length + 1) (by
      simp only [List.length_append, List.length_cons]
      omega)
  refine ⟨stop, ?_⟩
  simp only [readString, h]
  simp [Except.map]

end Json

theorem Text.toList_quote_append (s : String) (rest : List Char) :
    (quote s).toList ++ rest = '"' :: (s.toList.flatMap escape ++ '"' :: rest) := by
  rw [quote, String.toList_ofList, List.cons_append, List.cons_append, List.append_assoc]
  rfl

theorem Text.quote_append_inj {s s' : String} {rest rest' : List Char}
    (h : (quote s).toList ++ rest = (quote s').toList ++ rest') : s = s' ∧ rest = rest' := by
  rw [toList_quote_append, toList_quote_append, List.cons.injEq] at h
  obtain ⟨stop, hs⟩ := Json.readString_quote s rest 0
  obtain ⟨stop', hs'⟩ := Json.readString_quote s' rest' 0
  rw [h.2, hs'] at hs
  have hpair := Prod.mk.inj (Except.ok.inj hs)
  exact ⟨hpair.1.symm, (Json.Cursor.mk.inj hpair.2).1.symm⟩

end ApiTypes
