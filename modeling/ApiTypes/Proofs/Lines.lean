import ApiTypes.Proofs.Identifier
import ApiTypes.Text.Quoted
import Mathlib.Tactic.SplitIfs

/-!
# Texts in pieces

A text is split at the places where a separator stands, from left to right.
Texts without the last character of the separator come back when what they are
joined to is split.  Between double quotes a text never holds a line break;
between single quotes it holds those of its value.
-/

namespace ApiTypes.Text

/-! ### Splitting -/

/-- The pieces of a text between the places where `separator` stands. -/
def split (separator : List Char) : List Char → List (List Char)
  | [] => [[]]
  | c :: rest =>
    if separator <+: c :: rest then
      [] :: split separator (rest.drop (separator.length - 1))
    else (split separator rest).modifyHead (c :: ·)
termination_by text => text.length
decreasing_by all_goals simp only [List.length_drop, List.length_cons]; omega

def pieces (separator text : String) : List String :=
  (split separator.toList text.toList).map String.ofList

section Separator
variable {before : List Char} {last : Char}

theorem not_separator_prefix {c : Char} {piece : List Char} (rest : List Char)
    (hbefore : last ∉ before) (hpiece : last ∉ c :: piece) :
    ¬ before ++ [last] <+: c :: piece ++ (before ++ last :: rest) := by
  rintro ⟨tail, htail⟩
  -- the first `last` stands right behind `before` on the left, and later on the right
  have hstops : ∀ rest, Name.Stops (fun x => x != last) (last :: rest) := by
    intro rest x hx
    obtain rfl : last = x := by simpa using hx
    simp
  have hleft : ((before ++ [last]) ++ tail).takeWhile (fun x => x != last) = before := by
    rw [List.append_assoc]
    apply Name.takeWhile_append_stops _ (hstops tail)
    intro x hx
    simpa using ne_of_mem_of_not_mem hx hbefore
  have hright : (c :: piece ++ (before ++ last :: rest)).takeWhile (fun x => x != last) =
      c :: piece ++ before := by
    rw [← List.append_assoc]
    apply Name.takeWhile_append_stops _ (hstops rest)
    intro x hx
    have hfree : last ∉ c :: piece ++ before := by
      rw [List.mem_append, not_or]
      exact ⟨hpiece, hbefore⟩
    simpa using ne_of_mem_of_not_mem hx hfree
  rw [htail, hright] at hleft
  have hlength := congrArg List.length hleft
  simp only [List.length_append, List.length_cons] at hlength
  omega

theorem split_piece {piece : List Char} (h : last ∉ piece) :
    split (before ++ [last]) piece = [piece] := by
  induction piece with
  | nil => rw [split]
  | cons c piece ih =>
    have hno : ¬ before ++ [last] <+: c :: piece := fun hp => h (hp.subset (by simp))
    rw [split, if_neg hno, ih fun hm => h (List.mem_cons_of_mem c hm)]
    rfl

theorem split_separator (before rest : List Char) (last : Char) :
    split (before ++ [last]) (before ++ last :: rest) = [] :: split (before ++ [last]) rest := by
  cases before with
  | nil =>
    have hp : [last] <+: last :: rest := ⟨rest, rfl⟩
    rw [List.nil_append, List.nil_append, split, if_pos hp]
    rfl
  | cons c before =>
    have hwhole : c :: before ++ last :: rest = c :: (before ++ [last] ++ rest) := by simp
    have hp : c :: before ++ [last] <+: c :: (before ++ [last] ++ rest) := ⟨rest, rfl⟩
    have hlength : (c :: before ++ [last]).length - 1 = (before ++ [last]).length := by simp
    rw [hwhole, split, if_pos hp, hlength, List.drop_left]

theorem split_append {piece : List Char} (rest : List Char) (hbefore : last ∉ before)
    (h : last ∉ piece) :
    split (before ++ [last]) (piece ++ (before ++ last :: rest)) =
      piece :: split (before ++ [last]) rest := by
  induction piece with
  | nil => exact split_separator before rest last
  | cons c piece ih =>
    have hno := not_separator_prefix rest hbefore h
    rw [List.cons_append] at hno ⊢
    rw [split, if_neg hno, ih fun hm => h (List.mem_cons_of_mem c hm)]
    rfl

theorem pieces_joinWith (before : List Char) (last : Char) {separator : String}
    (hsep : separator.toList = before ++ [last]) (hbefore : last ∉ before)
    {texts : List String} (hne : texts ≠ []) (h : ∀ text ∈ texts, last ∉ text.toList) :
    pieces separator (joinWith separator texts) = texts := by
  unfold pieces
  rw [hsep]
  induction texts with
  | nil => exact absurd rfl hne
  | cons text texts ih =>
    have hfirst := h text List.mem_cons_self
    cases texts with
    | nil => simp [joinWith, split_piece hfirst]
    | cons other texts =>
      rw [joinWith, String.toList_append, String.toList_append, hsep, List.append_assoc,
        List.append_assoc, List.singleton_append, split_append _ hbefore hfirst, List.map_cons,
        String.ofList_toList, ih (by simp) fun t ht => h t (List.mem_cons_of_mem text ht)]

end Separator

theorem not_mem_of_mem_split {last : Char} {piece text : List Char}
    (h : piece ∈ split [last] text) : last ∉ piece := by
  induction text generalizing piece with
  | nil =>
    rw [split] at h
    obtain rfl : piece = [] := by simpa using h
    simp
  | cons c rest ih =>
    rw [split] at h
    by_cases hp : [last] <+: c :: rest
    · rw [if_pos hp] at h
      rcases List.mem_cons.mp h with rfl | h
      · simp
      · exact ih h
    · rw [if_neg hp] at h
      have hc : last ≠ c := by
        rintro rfl
        exact hp ⟨rest, rfl⟩
      cases hsplit : split [last] rest with
      | nil => simp [hsplit] at h
      | cons first others =>
        rw [hsplit] at h ih
        rcases List.mem_cons.mp h with rfl | h
        · rw [List.mem_cons, not_or]
          exact ⟨hc, ih List.mem_cons_self⟩
        · exact ih (List.mem_cons_of_mem first h)

/-! ### Line breaks -/

/-- Whether a text holds no line break. -/
def OneLine (text : String) : Prop := '\n' ∉ text.toList

instance : DecidablePred OneLine := fun text => inferInstanceAs (Decidable ('\n' ∉ text.toList))

theorem oneLine_of_mem_pieces {piece text : String} (h : piece ∈ pieces "\n" text) :
    OneLine piece := by
  obtain ⟨cs, hcs, rfl⟩ := List.mem_map.mp h
  rw [OneLine, String.toList_ofList]
  exact not_mem_of_mem_split hcs

theorem oneLine_append (a b : String) : OneLine (a ++ b) ↔ OneLine a ∧ OneLine b := by
  simp [OneLine]

theorem oneLine_between {opening closing : String} (hopening : OneLine opening)
    (hclosing : OneLine closing) (inner : String) :
    OneLine (opening ++ inner ++ closing) ↔ OneLine inner := by
  simp only [oneLine_append, hopening, hclosing, true_and, and_true]

theorem oneLine_joinWith {separator : String} (hsep : OneLine separator) (texts : List String) :
    OneLine (joinWith separator texts) ↔ ∀ text ∈ texts, OneLine text := by
  induction texts with
  | nil => simp [joinWith, OneLine]
  | cons text texts ih =>
    cases texts with
    | nil => simp [joinWith]
    | cons other texts =>
      rw [joinWith, oneLine_append, oneLine_append, ih, List.forall_mem_cons (l := other :: texts)]
      simp only [hsep, and_true]

theorem hexDigit_ne_newline (n : Nat) (h : n < 16) : hexDigit n ≠ '\n' := by
  have key : ∀ n : Fin 16, hexDigit n.val ≠ '\n' := by decide
  exact key ⟨n, h⟩

theorem not_mem_escape (c : Char) : '\n' ∉ escape c := by
  unfold escape
  split_ifs with _ _ _ _ hline _ _ hcontrol
  · decide
  · decide
  · decide
  · decide
  · decide
  · decide
  · decide
  · have hhigh := hexDigit_ne_newline (c.toNat / 16) (by omega)
    have hlow := hexDigit_ne_newline (c.toNat % 16) (by omega)
    simp [hhigh.symm, hlow.symm]
  · simpa using Ne.symm hline

theorem oneLine_quote (s : String) : OneLine (quote s) := by
  have hinner : '\n' ∉ s.toList.flatMap escape := by
    intro h
    obtain ⟨c, -, hc⟩ := List.mem_flatMap.mp h
    exact not_mem_escape c hc
  simpa [OneLine, quote] using hinner

theorem mem_escapeLiteral (c : Char) : '\n' ∈ escapeLiteral c ↔ '\n' = c := by
  unfold escapeLiteral
  split_ifs with hslash hquote
  · subst hslash
    decide
  · subst hquote
    decide
  · simp

/-- Single quotes do not keep line breaks in. -/
theorem oneLine_literal (s : String) : OneLine (literal s) ↔ OneLine s := by
  have hinner : '\n' ∈ s.toList.flatMap escapeLiteral ↔ '\n' ∈ s.toList := by
    simp [List.mem_flatMap, mem_escapeLiteral]
  simp [OneLine, literal, hinner]

theorem oneLine_identifier {name : String} (h : Name.IsIdentifier name.toList) : OneLine name := by
  intro hmem
  exact absurd (h.chars _ hmem) (by decide)

theorem oneLine_literalUnion (values : List String) :
    OneLine (literalUnion values) ↔ ∀ value ∈ values, OneLine value := by
  rw [literalUnion, oneLine_joinWith (by decide)]
  simp only [List.forall_mem_map, oneLine_literal]

/-- Lines come back one by one exactly where none of them is broken. -/
theorem pieces_lines_iff {lines : List String} (hne : lines ≠ []) :
    pieces "\n" (joinWith "\n" lines) = lines ↔ ∀ line ∈ lines, OneLine line := by
  constructor
  · intro h line hline
    rw [← h] at hline
    exact oneLine_of_mem_pieces hline
  · exact pieces_joinWith [] '\n' rfl (by simp) hne

theorem pieces_statements {statements : List String} (hne : statements ≠ [])
    (h : ∀ statement ∈ statements, OneLine statement) :
    pieces ";\n" (joinWith ";\n" statements) = statements :=
  pieces_joinWith [';'] '\n' rfl (by decide) hne h

end ApiTypes.Text
