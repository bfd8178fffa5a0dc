import ApiTypes.Json.Skipper
import ApiTypes.Proofs.Identifier

/-!
# The grammar of JSON texts

What the text of a value is: a word, a number, a string, or a list or an object of values
with blanks and commas between them, to any depth.  The grammar says nothing of what a
value means; numbers may be of any size, and a string may hold any escape.
-/

namespace ApiTypes.Json
open Name (Stops takeWhile_append_stops dropWhile_append_stops)
open Text (shortEscape?)

/-! ### Words, numbers and strings -/

def IsBlank (cs : List Char) : Prop := ∀ c ∈ cs, Cursor.isBlank c = true

/-- Decimal digits, one at least. -/
structure IsDigits (cs : List Char) : Prop where
  ne_nil : cs ≠ []
  digits : ∀ c ∈ cs, c.isDigit = true

inductive IsFraction : List Char → Prop
  | absent : IsFraction []
  | present {digits : List Char} (h : IsDigits digits) : IsFraction ('.' :: digits)

inductive IsExponent : List Char → Prop
  | absent : IsExponent []
  | present {letter : Char} {sign digits : List Char} (hletter : letter = 'e' ∨ letter = 'E')
      (hsign : sign ∈ [[], ['+'], ['-']]) (h : IsDigits digits) :
      IsExponent (letter :: (sign ++ digits))

/-- A number without its sign: no zero stands in front of other digits. -/
inductive IsMagnitude : List Char → Prop
  | intro {whole fraction exponent : List Char} (hwhole : IsDigits whole)
      (hzero : whole.head? = some '0' → whole.length = 1) (hfraction : IsFraction fraction)
      (hexponent : IsExponent exponent) : IsMagnitude (whole ++ (fraction ++ exponent))

inductive IsNumber : List Char → Prop
  | plain {cs : List Char} (h : IsMagnitude cs) : IsNumber cs
  | negative {cs : List Char} (h : IsMagnitude cs) : IsNumber ('-' :: cs)

/-- A string from behind its opening quote on. -/
inductive IsStringRest : List Char → Prop
  | close : IsStringRest ['"']
  | plain {c : Char} {cs : List Char} (hquote : c ≠ '"') (hslash : c ≠ '\\')
      (hcontrol : ¬ c.toNat < 32) (h : IsStringRest cs) : IsStringRest (c :: cs)
  | short {c : Char} {cs : List Char} (hc : (shortEscape? c).isSome = true)
      (h : IsStringRest cs) : IsStringRest ('\\' :: c :: cs)
  | unit {a b c d : Char} {cs : List Char} (hquad : (hexQuad? a b c d).isSome = true)
      (h : IsStringRest cs) : IsStringRest ('\\' :: 'u' :: a :: b :: c :: d :: cs)

/-! ### Values -/

def Bracket.opening : Bracket → Char
  | list => '['
  | object => '\x7b'

def Bracket.closing : Bracket → Char
  | list => ']'
  | object => '\x7d'

/-- What stands before an entry: blanks, and around them a comma if it is not the first. -/
inductive IsSeparator : Bool → List Char → Prop
  | first {blanks : List Char} (h : IsBlank blanks) : IsSeparator true blanks
  | comma {before after : List Char} (hbefore : IsBlank before) (hafter : IsBlank after) :
      IsSeparator false (before ++ ',' :: after)

/-- What stands before the value of an entry: nothing in a list, in an object a key and a
colon. -/
inductive IsLabel : Bracket → List Char → Prop
  | item : IsLabel .list []
  | key {key before after : List Char} (hkey : IsStringRest key) (hbefore : IsBlank before)
      (hafter : IsBlank after) : IsLabel .object ('"' :: (key ++ (before ++ ':' :: after)))

mutual

/-- The text of one value, without blanks around it. -/
inductive IsValue : List Char → Prop
  | word {w : String} (h : w ∈ ["null", "true", "false"]) : IsValue w.toList
  | number {cs : List Char} (h : IsNumber cs) : IsValue cs
  | string {cs : List Char} (h : IsStringRest cs) : IsValue ('"' :: cs)
  | enclosed {b : Bracket} {cs : List Char} (h : Inside b true cs) : IsValue (b.opening :: cs)

/-- The entries of a list or an object that are left, and its closing bracket; the flag
says whether none has been passed. -/
inductive Inside : Bracket → Bool → List Char → Prop
  | close {b : Bracket} {isFirst : Bool} {blanks : List Char} (h : IsBlank blanks) :
      Inside b isFirst (blanks ++ [b.closing])
  | entry {b : Bracket} {isFirst : Bool} {separator label value rest : List Char}
      (hseparator : IsSeparator isFirst separator) (hlabel : IsLabel b label)
      (hvalue : IsValue value) (hrest : Inside b false rest) :
      Inside b isFirst (separator ++ (label ++ (value ++ rest)))

end

theorem IsBlank.nil : IsBlank [] := fun _ h => absurd h List.not_mem_nil

theorem IsBlank.append {blanks others : List Char} (h : IsBlank blanks) (hothers : IsBlank others) :
    IsBlank (blanks ++ others) :=
  fun x hx => (List.mem_append.mp hx).elim (h x) (hothers x)

theorem IsBlank.eq_nil {blanks rest : List Char} (h : IsBlank blanks)
    (hstops : Stops Cursor.isBlank (blanks ++ rest)) : blanks = [] := by
  cases blanks with
  | nil => rfl
  | cons c blanks =>
    have hc : Cursor.isBlank c = false := hstops c rfl
    rw [h c List.mem_cons_self] at hc
    cases hc

theorem IsSeparator.append {isFirst : Bool} {separator blanks : List Char}
    (h : IsSeparator isFirst separator) (hblanks : IsBlank blanks) :
    IsSeparator isFirst (separator ++ blanks) := by
  cases h with
  | first h => exact .first (h.append hblanks)
  | comma hbefore hafter =>
    rw [List.append_assoc, List.cons_append]
    exact .comma hbefore (hafter.append hblanks)

/-! ### Where parts end -/

/-- Whether a character can stand in a number behind its first digit. -/
def continuesNumber (c : Char) : Bool := c.isDigit || c == '.' || c == 'e' || c == 'E'

/-- Whether a number that stands in front of the text ends there. -/
def Ends (rest : List Char) : Prop := Stops continuesNumber rest

theorem Ends.nil : Ends [] := nofun

theorem Ends.cons {c : Char} (h : continuesNumber c = false) (rest : List Char) :
    Ends (c :: rest) := by
  intro x hx
  obtain rfl : c = x := Option.some.inj hx
  exact h

theorem Ends.stops {rest : List Char} (h : Ends rest) : Stops Char.isDigit rest := by
  intro c hc
  have hcontinues := h c hc
  simp only [continuesNumber, Bool.or_eq_false_iff] at hcontinues
  exact hcontinues.1.1.1

theorem Ends.ne_cons {rest : List Char} (h : Ends rest) {c : Char}
    (hc : continuesNumber c = true) (tail : List Char) : rest ≠ c :: tail := by
  rintro rfl
  rw [h c rfl] at hc
  cases hc

theorem not_continuesNumber_of_isBlank {c : Char} (h : Cursor.isBlank c = true) :
    continuesNumber c = false := by
  simp only [Cursor.isBlank, Bool.or_eq_true, beq_iff_eq] at h
  obtain ((rfl | rfl) | rfl) | rfl := h <;> rfl

theorem Ends.blank_append {blanks rest : List Char} (h : IsBlank blanks) (hrest : Ends rest) :
    Ends (blanks ++ rest) := by
  cases blanks with
  | nil => exact hrest
  | cons c blanks => exact .cons (not_continuesNumber_of_isBlank (h c List.mem_cons_self)) _

theorem Bracket.not_continuesNumber_closing (b : Bracket) :
    continuesNumber b.closing = false := by
  cases b <;> rfl

/-- Behind an entry no number goes on. -/
theorem Inside.ends {b : Bracket} {cs : List Char} (h : Inside b false cs) (tail : List Char) :
    Ends (cs ++ tail) := by
  cases h with
  | close h =>
    rw [List.append_assoc]
    exact .blank_append h (.cons b.not_continuesNumber_closing _)
  | entry hseparator _ _ _ =>
    cases hseparator with
    | comma hbefore _ =>
      rw [List.append_assoc, List.append_assoc, List.cons_append]
      exact .blank_append hbefore (.cons rfl _)

/-! ### Where values begin -/

/-- Whether a text begins with a character that is neither blank nor closes a list. -/
def OpensValue (cs : List Char) : Prop :=
  ∃ c rest, cs = c :: rest ∧ Cursor.isBlank c = false ∧ c ≠ ']'

theorem isBlank_of_isDigit {c : Char} (h : c.isDigit = true) : Cursor.isBlank c = false := by
  rw [Bool.eq_false_iff]
  intro hblank
  simp only [Cursor.isBlank, Bool.or_eq_true, beq_iff_eq] at hblank
  obtain ((rfl | rfl) | rfl) | rfl := hblank <;> cases h

theorem IsMagnitude.head {cs : List Char} (h : IsMagnitude cs) :
    ∃ c rest, cs = c :: rest ∧ c.isDigit = true := by
  obtain ⟨hwhole, -, -, -⟩ := h
  rename_i whole fraction exponent
  obtain ⟨c, rest, rfl⟩ := List.exists_cons_of_ne_nil hwhole.ne_nil
  exact ⟨c, rest ++ (fraction ++ exponent), rfl, hwhole.digits c List.mem_cons_self⟩

theorem IsNumber.head {cs : List Char} (h : IsNumber cs) :
    ∃ c rest, cs = c :: rest ∧ (c = '-' ∨ c.isDigit = true) := by
  cases h with
  | plain h =>
    obtain ⟨c, rest, rfl, hc⟩ := h.head
    exact ⟨c, rest, rfl, .inr hc⟩
  | negative h => exact ⟨'-', _, rfl, .inl rfl⟩

theorem not_isNumber_cons {c : Char} (hminus : c ≠ '-') (hdigit : c.isDigit = false)
    (cs : List Char) : ¬ IsNumber (c :: cs) := by
  intro h
  obtain ⟨d, rest, hcons, hd⟩ := h.head
  obtain rfl : c = d := (List.cons.inj hcons).1
  obtain hd | hd := hd
  · exact hminus hd
  · rw [hdigit] at hd
    cases hd

theorem IsValue.opens {cs : List Char} (h : IsValue cs) (tail : List Char) :
    OpensValue (cs ++ tail) := by
  cases h with
  | word h =>
    simp only [List.mem_cons, List.not_mem_nil, or_false] at h
    obtain rfl | rfl | rfl := h
    · exact ⟨'n', _, rfl, rfl, by decide⟩
    · exact ⟨'t', _, rfl, rfl, by decide⟩
    · exact ⟨'f', _, rfl, rfl, by decide⟩
  | number h =>
    obtain ⟨c, rest, rfl, hc⟩ := h.head
    refine ⟨c, rest ++ tail, rfl, ?_, ?_⟩
    · obtain rfl | hc := hc
      · rfl
      · exact isBlank_of_isDigit hc
    · rintro rfl
      exact absurd hc (by decide)
  | string h => exact ⟨'"', _, rfl, rfl, by decide⟩
  | @enclosed b _ h =>
    cases b with
    | list => exact ⟨'[', _, rfl, rfl, by decide⟩
    | object => exact ⟨'\x7b', _, rfl, rfl, by decide⟩

theorem IsValue.ne_nil {cs : List Char} (h : IsValue cs) : cs ≠ [] := by
  obtain ⟨c, rest, hcs, -⟩ := h.opens []
  rw [List.append_nil] at hcs
  rw [hcs]
  exact List.cons_ne_nil c rest

theorem IsValue.length_pos {cs : List Char} (h : IsValue cs) : 0 < cs.length :=
  List.length_pos_iff.mpr h.ne_nil

theorem Inside.length_pos {b : Bracket} {isFirst : Bool} {cs : List Char}
    (h : Inside b isFirst cs) : 0 < cs.length := by
  cases h with
  | close _ => simp
  | entry _ _ hvalue _ =>
    have hpositive := hvalue.length_pos
    simp only [List.length_append]
    omega

/-! ### Passing blanks and digits -/

theorem OpensValue.stops {cs : List Char} (h : OpensValue cs) : Stops Cursor.isBlank cs := by
  obtain ⟨c, rest, rfl, hc, -⟩ := h
  intro x hx
  obtain rfl : c = x := Option.some.inj hx
  exact hc

theorem stops_cons {p : Char → Bool} {c : Char} (h : p c = false) (rest : List Char) :
    Stops p (c :: rest) := by
  intro x hx
  obtain rfl : c = x := Option.some.inj hx
  exact h

theorem exists_skipFrom (cs : List Char) (offset : Nat) : ∃ blanks rest stop,
    Cursor.skipFrom cs offset = ⟨rest, stop⟩ ∧ cs = blanks ++ rest ∧ IsBlank blanks ∧
      Stops Cursor.isBlank rest := by
  induction cs generalizing offset with
  | nil => exact ⟨[], [], offset, rfl, rfl, .nil, nofun⟩
  | cons c cs ih =>
    cases hc : Cursor.isBlank c with
    | false =>
      refine ⟨[], c :: cs, offset, ?_, rfl, .nil, stops_cons hc cs⟩
      rw [Cursor.skipFrom, hc]
      rfl
    | true =>
      obtain ⟨blanks, rest, stop, hskip, rfl, hblanks, hrest⟩ := ih (offset + 1)
      refine ⟨c :: blanks, rest, stop, ?_, rfl, List.forall_mem_cons.mpr ⟨hc, hblanks⟩, hrest⟩
      rw [Cursor.skipFrom, hc, if_pos rfl, hskip]

theorem exists_skipBlanks (c : Cursor) : ∃ blanks rest stop,
    c.skipBlanks = ⟨rest, stop⟩ ∧ c.rest = blanks ++ rest ∧ IsBlank blanks ∧
      Stops Cursor.isBlank rest :=
  exists_skipFrom c.rest c.offset

theorem skipBlanks_of_stops {rest : List Char} (h : Stops Cursor.isBlank rest) (offset : Nat) :
    Cursor.skipBlanks ⟨rest, offset⟩ = ⟨rest, offset⟩ := by
  cases rest with
  | nil => rfl
  | cons c rest =>
    have hc : Cursor.isBlank c = false := h c rfl
    simp [Cursor.skipBlanks, Cursor.skipFrom, hc]

theorem skipBlanks_append {blanks rest : List Char} (h : IsBlank blanks)
    (hrest : Stops Cursor.isBlank rest) (offset : Nat) :
    ∃ stop, Cursor.skipBlanks ⟨blanks ++ rest, offset⟩ = ⟨rest, stop⟩ := by
  induction blanks generalizing offset with
  | nil => exact ⟨offset, skipBlanks_of_stops hrest offset⟩
  | cons c blanks ih =>
    obtain ⟨hc, hblanks⟩ := List.forall_mem_cons.mp h
    obtain ⟨stop, hskip⟩ := ih hblanks (offset + 1)
    refine ⟨stop, ?_⟩
    rw [← hskip, List.cons_append, Cursor.skipBlanks, Cursor.skipFrom, hc, if_pos rfl]
    rfl

theorem takeDigits_append {digits rest : List Char} (h : ∀ c ∈ digits, c.isDigit = true)
    (hrest : Stops Char.isDigit rest) (offset : Nat) :
    takeDigits ⟨digits ++ rest, offset⟩ = (digits, ⟨rest, offset + digits.length⟩) := by
  rw [takeDigits, takeWhile_append_stops h hrest, dropWhile_append_stops h hrest]

end ApiTypes.Json
