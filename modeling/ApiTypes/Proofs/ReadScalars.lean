import ApiTypes.Json.NumberReader
import ApiTypes.Proofs.SkippedScalars

/-!
# Words, strings and numbers that are read

What is read from a text depends on the part that is read alone: the same part in front of
another text, and at another place, gives the same.  A number has to end there.
-/

namespace ApiTypes.Json
open Name (Stops)

/-- Whether a reader gets `a` from a part of a text in front of every tail that fits, wherever
they stand. -/
def Gives {ε α : Type} (fits : List Char → Prop) (reader : Cursor → Except ε (α × Cursor))
    (part : List Char) (a : α) : Prop :=
  ∀ tail, fits tail → ∀ offset, ∃ stop, reader ⟨part ++ tail, offset⟩ = .ok (a, ⟨tail, stop⟩)

/-! ### Strings -/

/-- Whether a text can stand behind a backslash in a string. -/
def IsEscape (part : List Char) : Prop :=
  ∀ cs, IsStringRest cs → IsStringRest ('\\' :: (part ++ cs))

theorem rest_of_readLink {x : Char} {c c' : Cursor} (h : readLink x c = .ok c') :
    c.rest = x :: c'.rest := by
  obtain ⟨cs, offset⟩ := c
  cases cs with
  | nil => cases h
  | cons y cs =>
    simp only [readLink] at h
    split at h
    · rename_i hxy
      obtain rfl := Except.ok.inj h
      exact congrArg (· :: cs) hxy
    · cases h

theorem readLink_cons (x : Char) (cs : List Char) (offset : Nat) :
    readLink x ⟨x :: cs, offset⟩ = .ok ⟨cs, offset + x.utf8Size⟩ :=
  if_pos rfl

theorem part_of_readUnicodeEscape {c c' : Cursor} {y : Char}
    (h : readUnicodeEscape c = .ok (y, c')) : ∃ part, c.rest = part ++ c'.rest ∧
      IsEscape ('u' :: part) ∧ Gives (fun _ => True) readUnicodeEscape part y := by
  obtain ⟨⟨n, after⟩, hfirst, h⟩ := bind_eq_ok_iff.mp h
  obtain ⟨x, z, v, w, hrest, hquad⟩ := rest_of_readQuad hfirst
  dsimp only at h
  split at h
  · cases h
  rename_i htrailing
  split at h
  · -- a leading surrogate, so another escape follows
    rename_i hleading
    obtain ⟨afterSlash, hslash, h⟩ := bind_eq_ok_iff.mp h
    obtain ⟨afterLetter, hletter, h⟩ := bind_eq_ok_iff.mp h
    obtain ⟨⟨m, last⟩, hsecond, h⟩ := bind_eq_ok_iff.mp h
    obtain ⟨x', z', v', w', hrest', hquad'⟩ := rest_of_readQuad hsecond
    dsimp only at h
    split at h
    · rename_i hpair
      obtain ⟨rfl, rfl⟩ := Prod.mk.inj (Except.ok.inj h)
      refine ⟨x :: z :: v :: w :: '\\' :: 'u' :: x' :: z' :: v' :: [w'], ?_, ?_, ?_⟩
      · simp [hrest, rest_of_readLink hslash, rest_of_readLink hletter, hrest']
      · exact fun cs hcs => .unit (Option.isSome_of_eq_some hquad)
          (.unit (Option.isSome_of_eq_some hquad') hcs)
      · intro tail _ offset
        refine ⟨offset + 4 + '\\'.utf8Size + 'u'.utf8Size + 4,
          bind_eq_ok_iff.mpr ⟨_, readQuad_four x z v w _ offset n hquad, ?_⟩⟩
        dsimp only
        rw [if_neg htrailing, if_pos hleading]
        refine bind_eq_ok_iff.mpr ⟨_, readLink_cons _ _ _, ?_⟩
        refine bind_eq_ok_iff.mpr ⟨_, readLink_cons _ _ _, ?_⟩
        refine bind_eq_ok_iff.mpr ⟨_, readQuad_four x' z' v' w' _ _ m hquad', ?_⟩
        exact if_pos hpair
    · cases h
  · rename_i hleading
    obtain ⟨rfl, rfl⟩ := Prod.mk.inj (Except.ok.inj h)
    refine ⟨x :: z :: v :: [w], hrest, ?_, ?_⟩
    · exact fun cs hcs => .unit (Option.isSome_of_eq_some hquad) hcs
    · intro tail _ offset
      refine ⟨offset + 4, bind_eq_ok_iff.mpr ⟨_, readQuad_four x z v w _ offset n hquad, ?_⟩⟩
      dsimp only
      rw [if_neg htrailing, if_neg hleading]
      rfl

theorem part_of_readEscape {c c' : Cursor} {y : Char} (h : readEscape c = .ok (y, c')) :
    ∃ part, c.rest = part ++ c'.rest ∧ IsEscape part ∧
      Gives (fun _ => True) readEscape part y := by
  obtain ⟨cs, offset⟩ := c
  cases cs with
  | nil => cases h
  | cons x cs =>
    simp only [readEscape] at h
    split at h
    · rename_i hu
      obtain ⟨part, hrest, hescape, hgives⟩ := part_of_readUnicodeEscape h
      have hrest : cs = part ++ c'.rest := hrest
      refine ⟨'u' :: part, by rw [hu, hrest]; rfl, hescape, fun tail htail offset => ?_⟩
      obtain ⟨stop, hread⟩ := hgives tail htail (offset + 'u'.utf8Size)
      exact ⟨stop, hread⟩
    · rename_i hu
      split at h
      · rename_i z hshort
        obtain ⟨rfl, rfl⟩ := Prod.mk.inj (Except.ok.inj h)
        refine ⟨[x], rfl, fun cs hcs => .short (Option.isSome_of_eq_some hshort) hcs,
          fun tail _ offset => ⟨offset + x.utf8Size, ?_⟩⟩
        simp only [List.cons_append, readEscape, hu, if_false, hshort]
        rfl
      · cases h

theorem part_of_readChars {fuel : Nat} {c c' : Cursor} {chars : List Char}
    (h : readChars fuel c = .ok (chars, c')) : ∃ part, c.rest = part ++ c'.rest ∧
      IsStringRest part ∧
      ∀ fuel', part.length ≤ fuel' → Gives (fun _ => True) (readChars fuel') part chars := by
  induction fuel generalizing c chars with
  | zero => cases h
  | succ fuel ih =>
    obtain ⟨cs, offset⟩ := c
    cases cs with
    | nil => cases h
    | cons x cs =>
      simp only [readChars] at h
      split at h
      · rename_i hquote
        obtain ⟨rfl, rfl⟩ := Prod.mk.inj (Except.ok.inj h)
        refine ⟨['"'], by rw [hquote]; rfl, .close, fun fuel' hfuel tail _ offset => ?_⟩
        obtain ⟨k, rfl⟩ : ∃ k, fuel' = k + 1 := ⟨fuel' - 1, by simp at hfuel; omega⟩
        exact ⟨_, rfl⟩
      rename_i hquote
      split at h
      · rename_i hslash
        split at h
        · cases h
        · rename_i y after hescape
          obtain ⟨⟨ys, c''⟩, hread, hpair⟩ := map_eq_ok_iff.mp h
          obtain ⟨rfl, rfl⟩ := Prod.mk.inj hpair
          obtain ⟨escape, hcs, hisEscape, hgives⟩ := part_of_readEscape hescape
          obtain ⟨part, hafter, hstring, hreads⟩ := ih hread
          have hcs : cs = escape ++ after.rest := hcs
          refine ⟨'\\' :: (escape ++ part), ?_, hisEscape part hstring, ?_⟩
          · rw [hslash, hcs, hafter]
            simp
          · intro fuel' hfuel tail htail offset
            simp only [List.length_cons, List.length_append] at hfuel
            obtain ⟨k, rfl⟩ : ∃ k, fuel' = k + 1 := ⟨fuel' - 1, by omega⟩
            obtain ⟨middle, hfirst⟩ := hgives (part ++ tail) trivial (offset + '\\'.utf8Size)
            obtain ⟨stop, hlater⟩ := hreads k (by omega) tail htail middle
            refine ⟨stop, ?_⟩
            rw [List.cons_append, List.append_assoc, readChars]
            simp only [Cursor.next, hfirst, hlater]
            rfl
      · rename_i hslash
        split at h
        · cases h
        · rename_i hcontrol
          obtain ⟨⟨ys, c''⟩, hread, hpair⟩ := map_eq_ok_iff.mp h
          obtain ⟨rfl, rfl⟩ := Prod.mk.inj hpair
          obtain ⟨part, hcs, hstring, hreads⟩ := ih hread
          have hcs : cs = part ++ c''.rest := hcs
          refine ⟨x :: part, by rw [hcs]; rfl, .plain hquote hslash hcontrol hstring, ?_⟩
          intro fuel' hfuel tail htail offset
          rw [List.length_cons] at hfuel
          obtain ⟨k, rfl⟩ : ∃ k, fuel' = k + 1 := ⟨fuel' - 1, by omega⟩
          obtain ⟨stop, hlater⟩ := hreads k (by omega) tail htail (offset + x.utf8Size)
          refine ⟨stop, ?_⟩
          simp only [List.cons_append, readChars, hquote, hslash, hcontrol, if_false, Cursor.next,
            hlater]
          rfl

/-- A string is read from behind its opening quote to behind its closing one. -/
theorem part_of_readString {c c' : Cursor} {s : String} (h : readString c = .ok (s, c')) :
    ∃ part, c.rest = part ++ c'.rest ∧ IsStringRest part ∧
      Gives (fun _ => True) readString part s := by
  obtain ⟨⟨chars, after⟩, hread, hpair⟩ := map_eq_ok_iff.mp h
  obtain ⟨rfl, rfl⟩ := Prod.mk.inj hpair
  obtain ⟨part, hrest, hstring, hgives⟩ := part_of_readChars hread
  refine ⟨part, hrest, hstring, fun tail htail offset => ?_⟩
  obtain ⟨stop, hagain⟩ := hgives ((part ++ tail).length + 1)
    (by simp only [List.length_append]; omega) tail htail offset
  exact ⟨stop, map_eq_ok_iff.mpr ⟨_, hagain, rfl⟩⟩

/-! ### Numbers -/

/-- Whether a computation gives the same at every cursor and leaves the cursor as it is. -/
def Carries {ε α : Type} (f : Cursor → Except ε (α × Cursor)) : Prop :=
  ∀ {c c' : Cursor} {a : α}, f c = .ok (a, c') → c' = c ∧ ∀ d, f d = .ok (a, d)

theorem carries_ok {ε α : Type} (a : α) :
    Carries fun c => (Except.ok (a, c) : Except ε (α × Cursor)) := by
  intro c c' a' h
  obtain ⟨rfl, rfl⟩ := Prod.mk.inj (Except.ok.inj h)
  exact ⟨rfl, fun _ => rfl⟩

section
variable (negative : Bool) (significand : Nat) (exponent : Int)

theorem carries_double : Carries (double negative significand exponent) := by
  intro c c' a h
  cases hcombine : combine 5 significand.toUInt64.toFloat exponent with
  | none =>
    rw [double, hcombine] at h
    cases h
  | some x =>
    simp only [double, hcombine] at h ⊢
    exact carries_ok _ h

/-- The number with the digits of an exponent that is written out. -/
def powered (down : Bool) (digits : List Char) (after : Cursor) : Except Fault (Number × Cursor) :=
  match accumulate maxExponent 0 digits with
  | (n, []) => double negative significand (if down then exponent - n else exponent + n) after
  | (_, dropped) =>
    if significand ≠ 0 ∧ ¬ down then
      .error ⟨.numberOutOfRange, after.offset - dropped.length + 1⟩
    else .ok (.double (Decimal.Binary64.ofFloat (if negative then -0.0 else 0.0)), after)

theorem carries_powered (down : Bool) (digits : List Char) :
    Carries (powered negative significand exponent down digits) := by
  intro c c' a h
  cases haccumulate : accumulate maxExponent 0 digits with
  | mk n dropped =>
    cases dropped with
    | nil =>
      simp only [powered, haccumulate] at h ⊢
      exact carries_double negative significand _ h
    | cons d dropped =>
      simp only [powered, haccumulate] at h ⊢
      split at h
      · cases h
      · rename_i hrange
        simp only [if_neg hrange]
        exact carries_ok _ h

/-- Reads the digits of an exponent, from behind its sign. -/
def readPower (down : Bool) (c : Cursor) : Except Fault (Number × Cursor) :=
  match c.rest with
  | [] => .error (c.fault .endInValue)
  | d :: _ =>
    if d.isDigit then
      powered negative significand exponent down (takeDigits c).1 (takeDigits c).2
    else .error (c.faultAhead .invalidNumber)

/-- Passes the sign of an exponent, if there is one: whether it is a minus. -/
def readSign (c : Cursor) : Bool × Cursor :=
  match c.rest with
  | '+' :: _ => (false, c.next)
  | '-' :: _ => (true, c.next)
  | _ => (false, c)

theorem readExponent_eq (c : Cursor) : readExponent negative significand exponent c =
    readPower negative significand exponent (readSign c).1 (readSign c).2 := rfl

theorem part_of_readSign (c : Cursor) : ∃ sign ∈ [[], ['+'], ['-']],
    c.rest = sign ++ (readSign c).2.rest ∧
      ∀ digits, IsDigits digits → ∀ tail offset, ∃ stop,
        readSign ⟨sign ++ (digits ++ tail), offset⟩ =
          ((readSign c).1, ⟨digits ++ tail, stop⟩) := by
  obtain ⟨cs, offset⟩ := c
  rw [readSign]
  split
  · rename_i rest hcs
    obtain rfl : cs = '+' :: rest := hcs
    exact ⟨['+'], by simp, rfl, fun _ _ _ _ => ⟨_, rfl⟩⟩
  · rename_i rest hcs
    obtain rfl : cs = '-' :: rest := hcs
    exact ⟨['-'], by simp, rfl, fun _ _ _ _ => ⟨_, rfl⟩⟩
  · refine ⟨[], by simp, rfl, fun digits hdigits tail offset => ⟨offset, ?_⟩⟩
    obtain ⟨d, digits, rfl, hd⟩ := hdigits.head
    rw [readSign]
    split
    · rename_i h
      obtain rfl : d = '+' := (List.cons.inj h).1
      cases hd
    · rename_i h
      obtain rfl : d = '-' := (List.cons.inj h).1
      cases hd
    · rfl

theorem part_of_readPower {down : Bool} {c c' : Cursor} {n : Number}
    (h : readPower negative significand exponent down c = .ok (n, c')) :
    ∃ digits, IsDigits digits ∧ c.rest = digits ++ c'.rest ∧
      Gives (Stops Char.isDigit) (readPower negative significand exponent down) digits n := by
  have hsplit := rest_of_takeDigits c
  rw [readPower] at h
  split at h
  · cases h
  rename_i d cs hrest
  split at h
  · rename_i hd
    have hdigits : IsDigits (takeDigits c).1 := isDigits_of_head (by rw [hrest]; exact hd)
    obtain ⟨rfl, hpowered⟩ := carries_powered negative significand exponent down _ h
    refine ⟨_, hdigits, hsplit, fun tail htail offset =>
      ⟨offset + (takeDigits c).1.length, ?_⟩⟩
    have htake := takeDigits_append hdigits.digits htail offset
    obtain ⟨x, digits, hcons, hx⟩ := hdigits.head
    rw [readPower, htake]
    simp only [hcons, List.cons_append, hx, if_true]
    rw [← hcons]
    exact hpowered _
  · cases h

theorem part_of_readExponent {c c' : Cursor} {n : Number}
    (h : readExponent negative significand exponent c = .ok (n, c')) :
    ∃ sign ∈ [[], ['+'], ['-']], ∃ digits, IsDigits digits ∧
      c.rest = sign ++ (digits ++ c'.rest) ∧
      Gives (Stops Char.isDigit) (readExponent negative significand exponent)
        (sign ++ digits) n := by
  obtain ⟨sign, hsign, hrest, hagain⟩ := part_of_readSign c
  rw [readExponent_eq] at h
  obtain ⟨digits, hdigits, hsplit, hgives⟩ := part_of_readPower negative significand exponent h
  refine ⟨sign, hsign, digits, hdigits, by rw [hrest, hsplit], fun tail htail offset => ?_⟩
  obtain ⟨middle, hsecond⟩ := hagain digits hdigits tail offset
  obtain ⟨stop, hread⟩ := hgives tail htail middle
  refine ⟨stop, ?_⟩
  rw [List.append_assoc, readExponent_eq, hsecond]
  exact hread

/-- What follows the digits of a number: an exponent, or the number is `whole`. -/
def readEnd (whole : Cursor → Except Fault (Number × Cursor)) (c : Cursor) :
    Except Fault (Number × Cursor) :=
  match c.rest with
  | 'e' :: _ | 'E' :: _ => readExponent negative significand exponent c.next
  | _ => whole c

theorem part_of_readEnd {whole : Cursor → Except Fault (Number × Cursor)} (hwhole : Carries whole)
    {c c' : Cursor} {n : Number}
    (h : readEnd negative significand exponent whole c = .ok (n, c')) :
    ∃ power, IsExponent power ∧ c.rest = power ++ c'.rest ∧
      Gives Ends (readEnd negative significand exponent whole) power n := by
  have hpresent : ∀ letter cs, (letter = 'e' ∨ letter = 'E') → c.rest = letter :: cs →
      readExponent negative significand exponent c.next = .ok (n, c') →
      ∃ power, IsExponent power ∧ c.rest = power ++ c'.rest ∧
        Gives Ends (readEnd negative significand exponent whole) power n := by
    intro letter cs hletter hrest h
    obtain ⟨sign, hsign, digits, hdigits, hnext, hgives⟩ :=
      part_of_readExponent negative significand exponent h
    refine ⟨letter :: (sign ++ digits), .present hletter hsign hdigits, ?_, ?_⟩
    · obtain ⟨_, offset⟩ := c
      obtain rfl : _ = letter :: cs := hrest
      have hnext : cs = sign ++ (digits ++ c'.rest) := hnext
      simp [hnext]
    · intro tail htail offset
      obtain ⟨stop, hread⟩ := hgives tail htail.stops (offset + letter.utf8Size)
      refine ⟨stop, ?_⟩
      rw [List.cons_append, readEnd]
      obtain rfl | rfl := hletter
      · exact hread
      · exact hread
  rw [readEnd] at h
  split at h
  · rename_i cs hrest
    exact hpresent 'e' cs (.inl rfl) hrest h
  · rename_i cs hrest
    exact hpresent 'E' cs (.inr rfl) hrest h
  · obtain ⟨rfl, hagain⟩ := hwhole h
    refine ⟨[], .absent, rfl, fun tail htail offset => ⟨offset, ?_⟩⟩
    rw [List.nil_append, readEnd]
    split
    · rename_i hrest
      exact absurd hrest (htail.ne_cons rfl _)
    · rename_i hrest
      exact absurd hrest (htail.ne_cons rfl _)
    · exact hagain _

theorem readFraction_eq (c : Cursor) : readFraction negative significand exponent c =
    if (takeDigits c).1.isEmpty then
      .error (c.faultAhead (if c.rest.isEmpty then .endInValue else .invalidNumber))
    else
      let (n, dropped) := accumulate maxSignificand significand (takeDigits c).1
      let exponent := exponent - ((takeDigits c).1.length - dropped.length : Nat)
      readEnd negative n exponent (double negative n exponent) (takeDigits c).2 := rfl

theorem part_of_readFraction {c c' : Cursor} {n : Number}
    (h : readFraction negative significand exponent c = .ok (n, c')) :
    ∃ digits power, IsDigits digits ∧ IsExponent power ∧
      c.rest = digits ++ (power ++ c'.rest) ∧
      Gives Ends (readFraction negative significand exponent) (digits ++ power) n := by
  have hsplit := rest_of_takeDigits c
  rw [readFraction_eq] at h
  split at h
  · cases h
  rename_i hempty
  have hdigits : IsDigits (takeDigits c).1 :=
    isDigits_takeDigits fun hnil => hempty (List.isEmpty_iff.mpr hnil)
  obtain ⟨power, hpower, hrest, hgives⟩ := part_of_readEnd _ _ _ (carries_double _ _ _) h
  refine ⟨_, power, hdigits, hpower, by rw [hsplit, hrest], fun tail htail offset => ?_⟩
  have htake :=
    takeDigits_append hdigits.digits (hpower.stops_append htail).1 offset
  obtain ⟨stop, hread⟩ := hgives tail htail (offset + (takeDigits c).1.length)
  refine ⟨stop, ?_⟩
  rw [List.append_assoc, readFraction_eq, htake, if_neg hempty]
  exact hread

end

/-- What follows the integer digits of a number: a fraction, an exponent or neither. -/
def readDecimals (negative : Bool) (n : Nat) (dropped : List Char) (c : Cursor) :
    Except Fault (Number × Cursor) :=
  match c.rest with
  | '.' :: _ => readFraction negative n dropped.length c.next
  | _ =>
    readEnd negative n dropped.length
      (fun c => if dropped.isEmpty then .ok (integer negative n, c)
        else double negative n dropped.length c) c

theorem part_of_readDecimals {negative : Bool} {n : Nat} {dropped : List Char} {c c' : Cursor}
    {m : Number} (h : readDecimals negative n dropped c = .ok (m, c')) :
    ∃ fraction power, IsFraction fraction ∧ IsExponent power ∧
      c.rest = fraction ++ (power ++ c'.rest) ∧
      Gives Ends (readDecimals negative n dropped) (fraction ++ power) m := by
  rw [readDecimals] at h
  split at h
  · rename_i cs hrest
    obtain ⟨digits, power, hdigits, hpower, hnext, hgives⟩ := part_of_readFraction _ _ _ h
    refine ⟨'.' :: digits, power, .present hdigits, hpower, ?_, fun tail htail offset => ?_⟩
    · obtain ⟨_, offset⟩ := c
      obtain rfl : _ = '.' :: cs := hrest
      have hnext : cs = digits ++ (power ++ c'.rest) := hnext
      simp [hnext]
    · obtain ⟨stop, hread⟩ := hgives tail htail (offset + '.'.utf8Size)
      exact ⟨stop, hread⟩
  · have hwhole : Carries fun c => if dropped.isEmpty then .ok (integer negative n, c)
        else double negative n dropped.length c := by
      split
      · exact carries_ok _
      · exact carries_double _ _ _
    obtain ⟨power, hpower, hrest, hgives⟩ := part_of_readEnd _ _ _ hwhole h
    refine ⟨[], power, .absent, hpower, hrest, fun tail htail offset => ?_⟩
    obtain ⟨stop, hread⟩ := hgives tail htail offset
    refine ⟨stop, ?_⟩
    rw [List.nil_append, readDecimals]
    split
    · rename_i hpoint
      exact absurd hpoint ((hpower.stops_append htail).2 _)
    · exact hread

theorem readDecimals_eq (negative : Bool) (n : Nat) (dropped : List Char) (c : Cursor) :
    readDecimals negative n dropped c =
      match c.rest with
      | '.' :: _ => readFraction negative n dropped.length c.next
      | 'e' :: _ | 'E' :: _ => readExponent negative n dropped.length c.next
      | _ =>
        if dropped.isEmpty then .ok (integer negative n, c)
        else double negative n dropped.length c := by
  rw [readDecimals]
  split
  · rename_i hrest
    simp only [hrest]
  · rename_i hpoint
    rw [readEnd]
    split
    · rename_i hrest
      simp only [hrest]
    · rename_i hrest
      simp only [hrest]
    · rename_i hsmall hlarge
      symm
      split
      · rename_i cs hrest
        exact absurd hrest (hpoint cs)
      · rename_i cs hrest
        exact absurd hrest (hsmall cs)
      · rename_i cs hrest
        exact absurd hrest (hlarge cs)
      · rfl

theorem readMagnitude_eq (negative : Bool) (c : Cursor) : readMagnitude negative c =
    match c.rest with
    | [] => .error (c.fault .endInValue)
    | d :: _ =>
      if d.isDigit then
        if d = '0' ∧ (takeDigits c).1.length ≠ 1 then .error (c.next.faultAhead .invalidNumber)
        else
          readDecimals negative (accumulate maxSignificand 0 (takeDigits c).1).1
            (accumulate maxSignificand 0 (takeDigits c).1).2 (takeDigits c).2
      else .error (c.faultAhead .invalidNumber) := by
  simp only [readDecimals_eq]
  rfl

theorem part_of_readMagnitude {negative : Bool} {c c' : Cursor} {n : Number}
    (h : readMagnitude negative c = .ok (n, c')) :
    ∃ part, c.rest = part ++ c'.rest ∧ IsMagnitude part ∧
      Gives Ends (readMagnitude negative) part n := by
  have hsplit := rest_of_takeDigits c
  rw [readMagnitude_eq] at h
  split at h
  · cases h
  rename_i d cs hrest
  split at h
  · rename_i hd
    split at h
    · cases h
    rename_i hzero
    have hdigits : IsDigits (takeDigits c).1 := isDigits_of_head (by rw [hrest]; exact hd)
    obtain ⟨x, whole, hcons, hx⟩ := hdigits.head
    obtain rfl : x = d := by
      rw [hcons, hrest] at hsplit
      exact (List.cons.inj hsplit).1.symm
    obtain ⟨fraction, power, hfraction, hpower, hafter, hgives⟩ := part_of_readDecimals h
    refine ⟨(takeDigits c).1 ++ (fraction ++ power), ?_, .intro hdigits ?_ hfraction hpower, ?_⟩
    · rw [hsplit, hafter]
      simp
    · rw [hcons]
      intro hhead
      rw [hcons] at hzero
      exact Decidable.byContradiction fun hlength => hzero ⟨Option.some.inj hhead, hlength⟩
    · intro tail htail offset
      have htake := takeDigits_append hdigits.digits
        (hfraction.stops_append (hpower.stops_append htail).1) offset
      obtain ⟨stop, hread⟩ := hgives tail htail (offset + (takeDigits c).1.length)
      refine ⟨stop, ?_⟩
      rw [List.append_assoc] at hread
      rw [List.append_assoc, List.append_assoc, readMagnitude_eq, htake]
      rw [hcons] at hread hzero ⊢
      simp only [List.cons_append, hx, if_true, if_neg hzero]
      exact hread
  · cases h

/-- A number is read from its first character on. -/
theorem part_of_readNumber {c c' : Cursor} {n : Number} (h : readNumber c = .ok (n, c')) :
    ∃ part, c.rest = part ++ c'.rest ∧ IsNumber part ∧ Gives Ends readNumber part n := by
  rw [readNumber] at h
  split at h
  · rename_i cs hrest
    obtain ⟨part, hnext, hmagnitude, hgives⟩ := part_of_readMagnitude h
    refine ⟨'-' :: part, ?_, .negative hmagnitude, fun tail htail offset => ?_⟩
    · obtain ⟨_, offset⟩ := c
      obtain rfl : _ = '-' :: cs := hrest
      exact congrArg ('-' :: ·) hnext
    · obtain ⟨stop, hread⟩ := hgives tail htail (offset + '-'.utf8Size)
      exact ⟨stop, hread⟩
  · obtain ⟨part, hrest, hmagnitude, hgives⟩ := part_of_readMagnitude h
    refine ⟨part, hrest, .plain hmagnitude, fun tail htail offset => ?_⟩
    obtain ⟨stop, hread⟩ := hgives tail htail offset
    obtain ⟨d, digits, rfl, hd⟩ := hmagnitude.head
    refine ⟨stop, ?_⟩
    rw [readNumber]
    split
    · rename_i hminus
      obtain rfl : d = '-' := (List.cons.inj hminus).1
      cases hd
    · exact hread

end ApiTypes.Json
