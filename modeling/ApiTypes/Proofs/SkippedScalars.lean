import ApiTypes.Proofs.JsonGrammar
import ApiTypes.Proofs.Outcome
import ApiTypes.Proofs.Quoting

/-!
# Words, strings and numbers that are passed

A value without parts is passed from its first character to its last: what is passed is the
text of such a value, and every such text is passed.  Where a number ends is seen from what
follows it.
-/

namespace ApiTypes.Json
open Name (Stops)
open Text (shortEscape?)

/-- Whether a reader goes from one text to what is left of it, wherever they stand. -/
def Passes (reader : Cursor → Except Fault Cursor) (cs rest : List Char) : Prop :=
  ∀ offset, ∃ stop, reader ⟨cs, offset⟩ = .ok ⟨rest, stop⟩

/-! ### Words and strings -/

theorem rest_of_readWord {w : List Char} {c c' : Cursor} (h : readWord w c = .ok c') :
    c.rest = w ++ c'.rest := by
  induction w generalizing c with
  | nil =>
    obtain rfl := Except.ok.inj h
    rfl
  | cons x w ih =>
    obtain ⟨cs, offset⟩ := c
    cases cs with
    | nil => cases h
    | cons y cs =>
      simp only [readWord] at h
      split at h
      · rename_i hxy
        have hrest : cs = w ++ c'.rest := ih h
        rw [hxy, List.cons_append, ← hrest]
      · cases h

theorem passes_readWord (w rest : List Char) : Passes (readWord w) (w ++ rest) rest := by
  induction w with
  | nil => exact fun offset => ⟨offset, rfl⟩
  | cons x w ih =>
    intro offset
    obtain ⟨stop, hread⟩ := ih (offset + x.utf8Size)
    refine ⟨stop, ?_⟩
    rw [List.cons_append, readWord, ← hread]
    exact if_pos rfl

theorem rest_of_readQuad {c c' : Cursor} {n : Nat} (h : readQuad c = .ok (n, c')) :
    ∃ x y z w, c.rest = x :: y :: z :: w :: c'.rest ∧ hexQuad? x y z w = some n := by
  simp only [readQuad] at h
  split at h
  · cases h
  · split at h
    · rename_i x y z w rest hrest
      split at h
      · rename_i m hquad
        obtain ⟨rfl, rfl⟩ := Prod.mk.inj (Except.ok.inj h)
        exact ⟨x, y, z, w, hrest, hquad⟩
      · cases h
    · cases h

theorem rest_of_skipEscape {c c' : Cursor} (h : skipEscape c = .ok c') :
    (∃ x, c.rest = x :: c'.rest ∧ (shortEscape? x).isSome = true) ∨
    ∃ x y z w, c.rest = 'u' :: x :: y :: z :: w :: c'.rest ∧
      (hexQuad? x y z w).isSome = true := by
  obtain ⟨cs, offset⟩ := c
  cases cs with
  | nil => cases h
  | cons x cs =>
    simp only [skipEscape] at h
    split at h
    · rename_i hu
      obtain ⟨⟨n, after⟩, hquad, rfl⟩ := map_eq_ok_iff.mp h
      obtain ⟨x, y, z, w, hrest, hsome⟩ := rest_of_readQuad hquad
      have hrest : cs = x :: y :: z :: w :: after.rest := hrest
      exact .inr ⟨x, y, z, w, by rw [hu, hrest], Option.isSome_of_eq_some hsome⟩
    · split at h
      · rename_i hshort
        obtain rfl := Except.ok.inj h
        exact .inl ⟨x, rfl, hshort⟩
      · cases h

theorem passes_skipEscape_short {c : Char} (h : (shortEscape? c).isSome = true)
    (rest : List Char) : Passes skipEscape (c :: rest) rest := by
  have hu : c ≠ 'u' := by
    rintro rfl
    cases h
  intro offset
  refine ⟨offset + c.utf8Size, ?_⟩
  simp only [skipEscape, hu, if_false, h, if_true]
  rfl

theorem passes_skipEscape_unit {x y z w : Char} (h : (hexQuad? x y z w).isSome = true)
    (rest : List Char) : Passes skipEscape ('u' :: x :: y :: z :: w :: rest) rest := by
  obtain ⟨n, hquad⟩ := Option.isSome_iff_exists.mp h
  intro offset
  have hread := readQuad_four x y z w rest (offset + 'u'.utf8Size) n hquad
  refine ⟨offset + 'u'.utf8Size + 4, ?_⟩
  simp only [skipEscape, if_true, Cursor.next, hread]
  rfl

theorem isStringRest_of_skipString {fuel : Nat} {c c' : Cursor}
    (h : skipString fuel c = .ok c') : ∃ body, c.rest = body ++ c'.rest ∧ IsStringRest body := by
  induction fuel generalizing c with
  | zero => cases h
  | succ fuel ih =>
    obtain ⟨cs, offset⟩ := c
    cases cs with
    | nil => cases h
    | cons x cs =>
      simp only [skipString] at h
      split at h
      · rename_i hquote
        obtain rfl := Except.ok.inj h
        exact ⟨['"'], by rw [hquote]; rfl, .close⟩
      · rename_i hquote
        split at h
        · rename_i hslash
          split at h
          · rename_i after hescape
            obtain ⟨body, hbody, hstring⟩ := ih h
            rcases rest_of_skipEscape hescape with ⟨y, hrest, hshort⟩ | ⟨y, z, v, w, hrest, hquad⟩
            · have hrest : cs = y :: after.rest := hrest
              exact ⟨'\\' :: y :: body, by simp [hrest, hbody, hslash], .short hshort hstring⟩
            · have hrest : cs = 'u' :: y :: z :: v :: w :: after.rest := hrest
              exact ⟨'\\' :: 'u' :: y :: z :: v :: w :: body, by simp [hrest, hbody, hslash],
                .unit hquad hstring⟩
          · cases h
        · rename_i hslash
          split at h
          · cases h
          · rename_i hcontrol
            obtain ⟨body, hbody, hstring⟩ := ih h
            have hbody : cs = body ++ c'.rest := hbody
            exact ⟨x :: body, by rw [hbody]; rfl, .plain hquote hslash hcontrol hstring⟩

theorem passes_skipString {body : List Char} (h : IsStringRest body) (rest : List Char)
    (fuel : Nat) (hfuel : body.length ≤ fuel) : Passes (skipString fuel) (body ++ rest) rest := by
  induction h generalizing fuel with
  | close =>
    obtain ⟨n, rfl⟩ : ∃ n, fuel = n + 1 := ⟨fuel - 1, by simp at hfuel; omega⟩
    exact fun offset => ⟨_, rfl⟩
  | @plain c cs hquote hslash hcontrol _ ih =>
    rw [List.length_cons] at hfuel
    obtain ⟨n, rfl⟩ : ∃ n, fuel = n + 1 := ⟨fuel - 1, by omega⟩
    intro offset
    obtain ⟨stop, hskip⟩ := ih n (by omega) (offset + c.utf8Size)
    refine ⟨stop, ?_⟩
    simp only [List.cons_append, skipString, hquote, hslash, hcontrol, if_false]
    exact hskip
  | @short c cs hc _ ih =>
    simp only [List.length_cons] at hfuel
    obtain ⟨n, rfl⟩ : ∃ n, fuel = n + 1 := ⟨fuel - 1, by omega⟩
    intro offset
    obtain ⟨middle, hescape⟩ := passes_skipEscape_short hc (cs ++ rest) (offset + '\\'.utf8Size)
    obtain ⟨stop, hskip⟩ := ih n (by omega) middle
    refine ⟨stop, ?_⟩
    simp only [List.cons_append, skipString, Cursor.next, hescape]
    exact hskip
  | @unit x y z w cs hquad _ ih =>
    simp only [List.length_cons] at hfuel
    obtain ⟨n, rfl⟩ : ∃ n, fuel = n + 1 := ⟨fuel - 1, by omega⟩
    intro offset
    obtain ⟨middle, hescape⟩ :=
      passes_skipEscape_unit hquad (cs ++ rest) (offset + '\\'.utf8Size)
    obtain ⟨stop, hskip⟩ := ih n (by omega) middle
    refine ⟨stop, ?_⟩
    simp only [List.cons_append, skipString, Cursor.next, hescape]
    exact hskip

/-! ### Numbers -/

theorem rest_of_takeDigits (c : Cursor) :
    c.rest = (takeDigits c).1 ++ (takeDigits c).2.rest :=
  List.takeWhile_append_dropWhile.symm

theorem isDigits_takeDigits {c : Cursor} (h : (takeDigits c).1 ≠ []) :
    IsDigits (takeDigits c).1 :=
  ⟨h, fun x hx => List.all_eq_true.mp List.all_takeWhile x hx⟩

theorem isDigits_of_head {c : Cursor} (h : c.rest.head?.any Char.isDigit = true) :
    IsDigits (takeDigits c).1 := by
  refine isDigits_takeDigits ?_
  obtain ⟨cs, offset⟩ := c
  cases cs with
  | nil => cases h
  | cons d cs =>
    have hd : d.isDigit = true := h
    simp [takeDigits, hd]

theorem isExponent_of_skipExponent {c c' : Cursor} (h : skipExponent c = .ok c') :
    ∃ sign digits, sign ∈ [[], ['+'], ['-']] ∧ IsDigits digits ∧
      c.rest = sign ++ (digits ++ c'.rest) := by
  -- the sign is passed first, if there is one
  have hdigits : ∀ start : Cursor,
      (if start.rest.head?.any Char.isDigit then .ok (takeDigits start).2
        else .error (start.faultAhead .invalidNumber) : Except Fault Cursor) = .ok c' →
      ∃ digits, IsDigits digits ∧ start.rest = digits ++ c'.rest := by
    intro start hstart
    split at hstart
    · rename_i hhead
      obtain rfl := Except.ok.inj hstart
      exact ⟨_, isDigits_of_head hhead, rest_of_takeDigits start⟩
    · cases hstart
  obtain ⟨cs, offset⟩ := c
  rw [skipExponent] at h
  dsimp only at h
  split at h
  · obtain ⟨digits, hd, hrest⟩ := hdigits _ h
    exact ⟨['+'], digits, by simp, hd, congrArg ('+' :: ·) hrest⟩
  · obtain ⟨digits, hd, hrest⟩ := hdigits _ h
    exact ⟨['-'], digits, by simp, hd, congrArg ('-' :: ·) hrest⟩
  · obtain ⟨digits, hd, hrest⟩ := hdigits _ h
    exact ⟨[], digits, by simp, hd, hrest⟩

theorem IsDigits.head {digits : List Char} (h : IsDigits digits) :
    ∃ d rest, digits = d :: rest ∧ d.isDigit = true := by
  obtain ⟨d, rest, rfl⟩ := List.exists_cons_of_ne_nil h.ne_nil
  exact ⟨d, rest, rfl, h.digits d List.mem_cons_self⟩

theorem passes_skipExponent {sign digits rest : List Char} (hsign : sign ∈ [[], ['+'], ['-']])
    (hdigits : IsDigits digits) (hrest : Stops Char.isDigit rest) :
    Passes skipExponent (sign ++ (digits ++ rest)) rest := by
  have hhead : (digits ++ rest).head?.any Char.isDigit = true := by
    obtain ⟨d, digits, rfl, hd⟩ := hdigits.head
    exact hd
  have htake := takeDigits_append hdigits.digits hrest
  intro offset
  simp only [List.mem_cons, List.not_mem_nil, or_false] at hsign
  obtain rfl | rfl | rfl := hsign
  · refine ⟨offset + digits.length, ?_⟩
    obtain ⟨d, tail, hcons, hd⟩ := hdigits.head
    have hplus : d ≠ '+' := by
      rintro rfl
      cases hd
    have hminus : d ≠ '-' := by
      rintro rfl
      cases hd
    rw [List.nil_append, skipExponent]
    simp only
    split
    · rename_i h
      rw [hcons] at h
      exact absurd (List.cons.inj h).1 hplus
    · rename_i h
      rw [hcons] at h
      exact absurd (List.cons.inj h).1 hminus
    · rw [if_pos hhead, htake]
  · refine ⟨offset + '+'.utf8Size + digits.length, ?_⟩
    simp only [List.cons_append, List.nil_append, skipExponent, Cursor.next, hhead, if_true, htake]
  · refine ⟨offset + '-'.utf8Size + digits.length, ?_⟩
    simp only [List.cons_append, List.nil_append, skipExponent, Cursor.next, hhead, if_true, htake]

/-- Passes a fraction, if there is one. -/
def skipFraction (c : Cursor) : Except Fault Cursor :=
  match c.rest with
  | '.' :: _ =>
    if (takeDigits c.next).1.isEmpty then .error (c.next.faultAhead .invalidNumber)
    else .ok (takeDigits c.next).2
  | _ => .ok c

theorem skipFraction_of_ne {c : Cursor} (h : ∀ cs, c.rest ≠ '.' :: cs) :
    skipFraction c = .ok c := by
  rw [skipFraction]
  split
  · rename_i cs hcs
    exact absurd hcs (h cs)
  · rfl

/-- Passes an exponent with its letter, if there is one. -/
def skipPower (c : Cursor) : Except Fault Cursor :=
  match c.rest with
  | 'e' :: _ | 'E' :: _ => skipExponent c.next
  | _ => .ok c

theorem skipMagnitude_eq (c : Cursor) : skipMagnitude c =
    if (takeDigits c).1.isEmpty then .error (c.faultAhead .invalidNumber)
    else if (takeDigits c).1.head? = some '0' ∧ (takeDigits c).1.length ≠ 1 then
      .error (c.next.faultAhead .invalidNumber)
    else (skipFraction (takeDigits c).2).bind skipPower := by
  rw [skipMagnitude]
  dsimp only
  split
  · rfl
  split
  · rfl
  generalize (takeDigits c).2 = after
  by_cases hpoint : ∃ cs, after.rest = '.' :: cs
  · obtain ⟨_, offset⟩ := after
    obtain ⟨cs, rfl⟩ := hpoint
    simp only [skipFraction]
    split
    · rfl
    · rfl
  · have hne : ∀ cs, after.rest ≠ '.' :: cs := fun cs hcs => hpoint ⟨cs, hcs⟩
    rw [skipFraction_of_ne hne]
    split
    · rename_i cs hcs
      exact absurd hcs (hne cs)
    · rfl

theorem isFraction_of_skipFraction {c c' : Cursor} (h : skipFraction c = .ok c') :
    ∃ fraction, IsFraction fraction ∧ c.rest = fraction ++ c'.rest := by
  rw [skipFraction] at h
  split at h
  · rename_i cs hrest
    split at h
    · cases h
    · rename_i hdigits
      obtain rfl := Except.ok.inj h
      rw [List.isEmpty_iff] at hdigits
      have hnext : c.next.rest = cs := by
        obtain ⟨_, offset⟩ := c
        obtain rfl : _ = '.' :: cs := hrest
        rfl
      refine ⟨'.' :: (takeDigits c.next).1, .present (isDigits_takeDigits hdigits), ?_⟩
      rw [hrest, List.cons_append, ← rest_of_takeDigits, hnext]
  · obtain rfl := Except.ok.inj h
    exact ⟨[], .absent, rfl⟩

theorem isExponent_of_skipPower {c c' : Cursor} (h : skipPower c = .ok c') :
    ∃ exponent, IsExponent exponent ∧ c.rest = exponent ++ c'.rest := by
  have hpresent : ∀ letter cs, (letter = 'e' ∨ letter = 'E') → c.rest = letter :: cs →
      skipExponent c.next = .ok c' →
      ∃ exponent, IsExponent exponent ∧ c.rest = exponent ++ c'.rest := by
    intro letter cs hletter hrest h
    obtain ⟨sign, digits, hsign, hdigits, hnext⟩ := isExponent_of_skipExponent h
    refine ⟨letter :: (sign ++ digits), .present hletter hsign hdigits, ?_⟩
    obtain ⟨_, offset⟩ := c
    obtain rfl : _ = letter :: cs := hrest
    have hnext : cs = sign ++ (digits ++ c'.rest) := hnext
    simp [hnext]
  rw [skipPower] at h
  split at h
  · rename_i cs hrest
    exact hpresent 'e' cs (.inl rfl) hrest h
  · rename_i cs hrest
    exact hpresent 'E' cs (.inr rfl) hrest h
  · obtain rfl := Except.ok.inj h
    exact ⟨[], .absent, rfl⟩

theorem isMagnitude_of_skipMagnitude {c c' : Cursor} (h : skipMagnitude c = .ok c') :
    ∃ body, c.rest = body ++ c'.rest ∧ IsMagnitude body := by
  rw [skipMagnitude_eq] at h
  split at h
  · cases h
  rename_i hdigits
  split at h
  · cases h
  rename_i hzero
  obtain ⟨after, hfraction, hpower⟩ := bind_eq_ok_iff.mp h
  rw [List.isEmpty_iff] at hdigits
  obtain ⟨fraction, hisFraction, hafter⟩ := isFraction_of_skipFraction hfraction
  obtain ⟨exponent, hisExponent, hrest⟩ := isExponent_of_skipPower hpower
  refine ⟨(takeDigits c).1 ++ (fraction ++ exponent), ?_, .intro (isDigits_takeDigits hdigits)
    (fun hhead => ?_) hisFraction hisExponent⟩
  · rw [rest_of_takeDigits c, hafter, hrest]
    simp
  · exact Decidable.byContradiction fun hlength => hzero ⟨hhead, hlength⟩

/-- The fraction and the exponent that are present are passed; where one is absent, what
follows does not begin with its mark. -/
theorem passes_skipPower {exponent rest : List Char} (h : IsExponent exponent)
    (hrest : Ends rest) : Passes skipPower (exponent ++ rest) rest := by
  intro offset
  cases h with
  | absent =>
    refine ⟨offset, ?_⟩
    rw [List.nil_append, skipPower]
    split
    · rename_i h
      exact absurd h (hrest.ne_cons rfl _)
    · rename_i h
      exact absurd h (hrest.ne_cons rfl _)
    · rfl
  | @present letter sign digits hletter hsign hdigits =>
    obtain ⟨stop, hskip⟩ :=
      passes_skipExponent hsign hdigits hrest.stops (offset + letter.utf8Size)
    refine ⟨stop, ?_⟩
    rw [List.cons_append, List.append_assoc, skipPower]
    obtain rfl | rfl := hletter
    · exact hskip
    · exact hskip

theorem passes_skipFraction {fraction rest : List Char} (h : IsFraction fraction)
    (hdigits : Stops Char.isDigit rest) (hpoint : ∀ tail, rest ≠ '.' :: tail) :
    Passes skipFraction (fraction ++ rest) rest := by
  intro offset
  cases h with
  | absent => exact ⟨offset, skipFraction_of_ne hpoint⟩
  | @present digits h =>
    refine ⟨offset + '.'.utf8Size + digits.length, ?_⟩
    have htake := takeDigits_append h.digits hdigits (offset + '.'.utf8Size)
    have hne : digits.isEmpty = false := by
      obtain ⟨d, tail, rfl, -⟩ := h.head
      rfl
    simp only [List.cons_append, skipFraction, Cursor.next, htake, hne, Bool.false_eq_true,
      if_false]

theorem IsFraction.stops_append {fraction rest : List Char} (h : IsFraction fraction)
    (hrest : Stops Char.isDigit rest) : Stops Char.isDigit (fraction ++ rest) := by
  cases h with
  | absent => exact hrest
  | present _ => exact stops_cons rfl _

theorem IsExponent.stops_append {exponent rest : List Char} (h : IsExponent exponent)
    (hrest : Ends rest) :
    Stops Char.isDigit (exponent ++ rest) ∧ ∀ tail, exponent ++ rest ≠ '.' :: tail := by
  cases h with
  | absent => exact ⟨hrest.stops, hrest.ne_cons rfl⟩
  | present hletter _ _ =>
    obtain rfl | rfl := hletter
    · exact ⟨stops_cons rfl _, fun tail h => absurd (List.cons.inj h).1 (by decide)⟩
    · exact ⟨stops_cons rfl _, fun tail h => absurd (List.cons.inj h).1 (by decide)⟩

theorem passes_skipMagnitude {body rest : List Char} (h : IsMagnitude body)
    (hrest : Ends rest) : Passes skipMagnitude (body ++ rest) rest := by
  obtain @⟨whole, fraction, exponent, hwhole, hzero, hfraction, hexponent⟩ := h
  obtain ⟨hexponentStops, hpoint⟩ := hexponent.stops_append hrest
  intro offset
  have htake := takeDigits_append hwhole.digits (hfraction.stops_append hexponentStops) offset
  obtain ⟨middle, hskipFraction⟩ :=
    passes_skipFraction hfraction hexponentStops hpoint (offset + whole.length)
  obtain ⟨stop, hskipPower⟩ := passes_skipPower hexponent hrest middle
  refine ⟨stop, ?_⟩
  have hne : ¬ whole.isEmpty = true := by
    rw [List.isEmpty_iff]
    exact hwhole.ne_nil
  have hlength : ¬ (whole.head? = some '0' ∧ whole.length ≠ 1) := fun h => h.2 (hzero h.1)
  rw [List.append_assoc, List.append_assoc, skipMagnitude_eq, htake]
  simp only [hne, hlength, if_false, hskipFraction]
  exact hskipPower

end ApiTypes.Json
