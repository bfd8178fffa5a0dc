import ApiTypes.Proofs.SkippedValues

/-!
# Where values end

Every text of a value is passed, up to its end and not beyond, whatever follows it; only a
number must not go on.  So a text that begins with a value begins with no other.
-/

namespace ApiTypes.Json
open Name (Stops)

/-! ### Heads -/

section
variable {gap rest : List Char}

theorem skipHead_word (hgap : IsBlank gap) {w : String} (h : w ∈ ["null", "true", "false"])
    (offset : Nat) : ∃ stop, skipHead ⟨gap ++ (w.toList ++ rest), offset⟩ =
      .ok (none, ⟨rest, stop⟩) := by
  have hstops : Stops Cursor.isBlank (w.toList ++ rest) := ((IsValue.word h).opens rest).stops
  obtain ⟨start, hskip⟩ := skipBlanks_append hgap hstops offset
  obtain ⟨stop, hread⟩ := passes_readWord w.toList rest start
  refine ⟨stop, ?_⟩
  rw [skipHead, hskip]
  simp only [List.mem_cons, List.not_mem_nil, or_false] at h
  obtain rfl | rfl | rfl := h
  · exact congrArg (Except.map fun c => ((none : Option Bracket), c)) hread
  · exact congrArg (Except.map fun c => ((none : Option Bracket), c)) hread
  · exact congrArg (Except.map fun c => ((none : Option Bracket), c)) hread

theorem skipHead_string (hgap : IsBlank gap) {body : List Char} (h : IsStringRest body)
    (offset : Nat) : ∃ stop, skipHead ⟨gap ++ ('"' :: body ++ rest), offset⟩ =
      .ok (none, ⟨rest, stop⟩) := by
  obtain ⟨start, hskip⟩ :=
    skipBlanks_append hgap (stops_cons (c := '"') rfl (body ++ rest)) offset
  obtain ⟨stop, hstring⟩ := passes_skipString h rest
    (('"' :: (body ++ rest)).length + 1)
    (by simp only [List.length_cons, List.length_append]; omega) (start + '"'.utf8Size)
  refine ⟨stop, ?_⟩
  rw [skipHead, List.cons_append, hskip]
  exact congrArg (Except.map fun c => ((none : Option Bracket), c)) hstring

theorem skipHead_bracket (hgap : IsBlank gap) (b : Bracket) (rest : List Char) (offset : Nat) :
    ∃ stop, skipHead ⟨gap ++ b.opening :: rest, offset⟩ = .ok (some b, ⟨rest, stop⟩) := by
  have hstops : Stops Cursor.isBlank (b.opening :: rest) := by
    cases b with
    | list => exact stops_cons rfl rest
    | object => exact stops_cons rfl rest
  obtain ⟨start, hskip⟩ := skipBlanks_append hgap hstops offset
  refine ⟨start + b.opening.utf8Size, ?_⟩
  rw [skipHead, hskip]
  cases b with
  | list => rfl
  | object => rfl

theorem skipHead_digit {c : Cursor} {d : Char} {cs : List Char} {start : Nat}
    (hd : d.isDigit = true) (hskip : c.skipBlanks = ⟨d :: cs, start⟩) :
    skipHead c = (skipMagnitude ⟨d :: cs, start⟩).map fun c => ((none : Option Bracket), c) := by
  have hne : ∀ {x : Char}, x.isDigit = false → d ≠ x := by
    rintro x hx rfl
    rw [hd] at hx
    cases hx
  rw [skipHead, hskip]
  dsimp only
  split
  · rename_i h
    cases h
  · rename_i h
    exact absurd (List.cons.inj h).1 (hne rfl)
  · rename_i h
    exact absurd (List.cons.inj h).1 (hne rfl)
  · rename_i h
    exact absurd (List.cons.inj h).1 (hne rfl)
  · rename_i h
    exact absurd (List.cons.inj h).1 (hne rfl)
  · rename_i h
    exact absurd (List.cons.inj h).1 (hne rfl)
  · rename_i h
    exact absurd (List.cons.inj h).1 (hne rfl)
  · rename_i h
    exact absurd (List.cons.inj h).1 (hne rfl)
  · rename_i h
    obtain ⟨rfl, rfl⟩ := List.cons.inj h
    exact if_pos hd

theorem skipHead_number (hgap : IsBlank gap) {body : List Char} (h : IsNumber body)
    (hrest : Ends rest) (offset : Nat) :
    ∃ stop, skipHead ⟨gap ++ (body ++ rest), offset⟩ = .ok (none, ⟨rest, stop⟩) := by
  have hstops : Stops Cursor.isBlank (body ++ rest) := ((IsValue.number h).opens rest).stops
  obtain ⟨start, hskip⟩ := skipBlanks_append hgap hstops offset
  cases h with
  | plain h =>
    obtain ⟨stop, hmagnitude⟩ := passes_skipMagnitude h hrest start
    obtain ⟨d, digits, rfl, hd⟩ := h.head
    refine ⟨stop, ?_⟩
    rw [skipHead_digit hd hskip]
    exact congrArg (Except.map fun c => ((none : Option Bracket), c)) hmagnitude
  | negative h =>
    obtain ⟨stop, hmagnitude⟩ := passes_skipMagnitude h hrest (start + '-'.utf8Size)
    refine ⟨stop, ?_⟩
    rw [skipHead, hskip]
    exact congrArg (Except.map fun c => ((none : Option Bracket), c)) hmagnitude

end

/-! ### Open brackets -/

/-- What is passed with some fuel is passed with more. -/
theorem skipClosings_mono {fuel fuel' : Nat} {afterEntry : Bool} {pending : List Bracket}
    {c : Cursor} {result : List Bracket × Cursor}
    (h : skipClosings fuel afterEntry pending c = .ok result) (hle : fuel ≤ fuel') :
    skipClosings fuel' afterEntry pending c = .ok result := by
  induction fuel generalizing fuel' afterEntry pending c with
  | zero => cases h
  | succ fuel ih =>
    obtain ⟨fuel', rfl⟩ : ∃ n, fuel' = n + 1 := ⟨fuel' - 1, by omega⟩
    cases pending with
    | nil => exact h
    | cons b outer =>
      rw [skipClosings.eq_def] at h ⊢
      dsimp only at h ⊢
      generalize c.skipBlanks = c at h ⊢
      split at h
      · cases h
      · split at h
        · rename_i hcomma
          rw [if_pos hcomma]
          exact h
        · rename_i hcomma
          rw [if_neg hcomma]
          split at h
          · rename_i hclosing
            rw [if_pos hclosing]
            exact ih h (by omega)
          · rename_i hclosing
            rw [if_neg hclosing]
            exact h

/-- Whether the brackets that are open are closed by a text in front of `rest`; `n` is enough
fuel for the entries that are left. -/
def Resumes (afterEntry : Bool) (pending : List Bracket) (cs rest : List Char) (n : Nat) : Prop :=
  ∀ m, n ≤ m → Passes (skipOnward m afterEntry pending) cs rest

theorem Resumes.mono {afterEntry : Bool} {pending : List Bracket} {cs rest : List Char}
    {n n' : Nat} (h : Resumes afterEntry pending cs rest n) (hle : n ≤ n') :
    Resumes afterEntry pending cs rest n' :=
  fun m hm => h m (Nat.le_trans hle hm)

theorem Resumes.done (cs : List Char) (n : Nat) : Resumes true [] cs cs n :=
  fun _ _ offset => ⟨offset, rfl⟩

section
variable {b : Bracket} {outer : List Bracket} {rest : List Char}

theorem Bracket.isBlank_closing (b : Bracket) : Cursor.isBlank b.closing = false := by
  cases b <;> rfl

theorem Bracket.closing_ne_comma (b : Bracket) : b.closing ≠ ',' := by
  cases b <;> decide

theorem Resumes.close {blanks tail : List Char} {n : Nat} (hblanks : IsBlank blanks)
    (h : Resumes true outer tail rest n) (afterEntry : Bool) :
    Resumes afterEntry (b :: outer) (blanks ++ b.closing :: tail) rest n := by
  intro m hm offset
  obtain ⟨start, hskip⟩ := skipBlanks_append hblanks (stops_cons b.isBlank_closing tail) offset
  obtain ⟨stop, honward⟩ := h m hm (start + b.closing.utf8Size)
  obtain ⟨⟨left, behind⟩, hclosings, hon⟩ := bind_eq_ok_iff.mp honward
  refine ⟨stop, bind_eq_ok_iff.mpr ⟨(left, behind), ?_, hon⟩⟩
  rw [skipClosings.eq_def]
  dsimp only
  rw [hskip]
  dsimp only
  rw [if_neg fun hcomma => b.closing_ne_comma hcomma.1, if_pos ((closing_iff _).mpr rfl)]
  refine skipClosings_mono hclosings ?_
  simp only [List.length_append, List.length_cons]
  omega

/-- An entry goes on where its label and its value do, however many blanks stand in front. -/
theorem Resumes.entry {isFirst : Bool} {separator tail : List Char} {x : Char} {n : Nat}
    (hseparator : IsSeparator isFirst separator) (hblank : Cursor.isBlank x = false)
    (hclosing : x ≠ b.closing)
    (h : ∀ m, n ≤ m → ∀ gap, IsBlank gap →
      Passes (skipOn m (b :: outer)) (gap ++ x :: tail) rest) :
    Resumes (!isFirst) (b :: outer) (separator ++ x :: tail) rest n := by
  intro m hm offset
  cases hseparator with
  | first hblanks =>
    obtain ⟨start, hskip⟩ := skipBlanks_append hblanks (stops_cons hblank tail) offset
    obtain ⟨stop, hon⟩ := h m hm [] .nil start
    refine ⟨stop, bind_eq_ok_iff.mpr ⟨(b :: outer, ⟨x :: tail, start⟩), ?_, hon⟩⟩
    rw [skipClosings.eq_def]
    dsimp only
    rw [hskip]
    dsimp only
    rw [if_neg fun hcomma => Bool.noConfusion hcomma.2,
      if_neg fun hclose => hclosing ((closing_iff x).mp hclose)]
    exact if_neg Bool.false_ne_true
  | @comma before after hbefore hafter =>
    obtain ⟨start, hskip⟩ :=
      skipBlanks_append hbefore (stops_cons (c := ',') rfl (after ++ x :: tail)) offset
    obtain ⟨stop, hon⟩ := h m hm after hafter (start + ','.utf8Size)
    refine ⟨stop, bind_eq_ok_iff.mpr
      ⟨(b :: outer, ⟨after ++ x :: tail, start + ','.utf8Size⟩), ?_, hon⟩⟩
    rw [List.append_assoc, List.cons_append, skipClosings.eq_def]
    dsimp only
    rw [hskip]
    dsimp only
    exact if_pos ⟨rfl, rfl⟩

/-- A label and the value behind it begin with what is neither blank nor closes the bracket. -/
theorem IsLabel.opens {label value : List Char} (h : IsLabel b label) (hvalue : IsValue value)
    (tail : List Char) : ∃ x cs, label ++ (value ++ tail) = x :: cs ∧
      Cursor.isBlank x = false ∧ x ≠ b.closing := by
  cases h with
  | item => exact hvalue.opens tail
  | key _ _ _ => exact ⟨'"', _, rfl, rfl, by decide⟩

/-- Where a value is passed, it is passed behind its label. -/
theorem passes_skipOn {label cs gap : List Char} {m : Nat} (h : IsLabel b label)
    (hgap : IsBlank gap)
    (hvalue : ∀ gap, IsBlank gap → Passes (skipParts m (b :: outer)) (gap ++ cs) rest) :
    Passes (skipOn m (b :: outer)) (gap ++ (label ++ cs)) rest := by
  cases h with
  | item => exact hvalue gap hgap
  | @key key before after hkey hbefore hafter =>
    intro offset
    obtain ⟨middle, hskip⟩ := passes_skipKey hgap hkey hbefore (after ++ cs) offset
    obtain ⟨stop, hparts⟩ := hvalue after hafter middle
    refine ⟨stop, bind_eq_ok_iff.mpr ⟨⟨after ++ cs, middle⟩, ?_, hparts⟩⟩
    rw [← hskip]
    simp

end

/-! ### Values -/

/-- A head that is all of a value, and what follows it. -/
theorem passes_skipParts_whole {outer : List Bracket} {cs tail rest : List Char} {n m : Nat}
    (hhead : ∀ offset, ∃ stop, skipHead ⟨cs, offset⟩ = .ok (none, ⟨tail, stop⟩))
    (htail : Resumes true outer tail rest n) (hm : n < m) :
    Passes (skipParts m outer) cs rest := by
  obtain ⟨m, rfl⟩ : ∃ k, m = k + 1 := ⟨m - 1, by omega⟩
  intro offset
  obtain ⟨middle, hhead⟩ := hhead offset
  obtain ⟨stop, honward⟩ := htail m (by omega) middle
  refine ⟨stop, ?_⟩
  rw [skipParts_succ, hhead]
  exact honward

theorem passes_skipParts_enclosed {outer : List Bracket} {b : Bracket}
    {gap cs rest : List Char} {n m : Nat} (hgap : IsBlank gap)
    (hinside : Resumes false (b :: outer) cs rest n) (hm : n < m) :
    Passes (skipParts m outer) (gap ++ b.opening :: cs) rest := by
  obtain ⟨m, rfl⟩ : ∃ k, m = k + 1 := ⟨m - 1, by omega⟩
  intro offset
  obtain ⟨middle, hhead⟩ := skipHead_bracket hgap b cs offset
  obtain ⟨stop, honward⟩ := hinside m (by omega) middle
  refine ⟨stop, ?_⟩
  rw [skipParts_succ, hhead]
  exact honward

mutual

theorem passes_skipParts {value : List Char} (h : IsValue value) :
    ∀ {outer : List Bracket} {gap tail rest : List Char} {n : Nat}, IsBlank gap →
      (IsNumber value → Ends tail) → Resumes true outer tail rest n →
      ∀ m, n + value.length ≤ m →
        Passes (skipParts m outer) (gap ++ (value ++ tail)) rest := by
  intro outer gap tail rest n hgap hends htail m hm
  have hpositive := h.length_pos
  match h with
  | .word hw => exact passes_skipParts_whole (skipHead_word hgap hw) htail (by omega)
  | .number hn =>
    exact passes_skipParts_whole (skipHead_number hgap hn (hends hn)) htail (by omega)
  | .string hs => exact passes_skipParts_whole (skipHead_string hgap hs) htail (by omega)
  | .enclosed hinside =>
    have hopened := resumes_inside hinside htail
    rw [List.length_cons] at hm
    exact passes_skipParts_enclosed hgap hopened (by omega)

theorem resumes_inside {b : Bracket} {isFirst : Bool} {cs : List Char}
    (h : Inside b isFirst cs) :
    ∀ {outer : List Bracket} {tail rest : List Char} {n : Nat},
      Resumes true outer tail rest n →
      Resumes (!isFirst) (b :: outer) (cs ++ tail) rest (n + cs.length) := by
  intro outer tail rest n htail
  match h with
  | .close hblanks =>
    rw [List.append_assoc]
    exact (htail.close hblanks _).mono (by omega)
  | @Inside.entry _ _ separator label value entries hseparator hlabel hvalue hentries =>
    have hrest := resumes_inside hentries htail
    have hon : ∀ m, n + entries.length + value.length ≤ m → ∀ gap, IsBlank gap →
        Passes (skipOn m (b :: outer)) (gap ++ (label ++ (value ++ (entries ++ tail)))) rest :=
      fun m hm gap hgap => passes_skipOn hlabel hgap fun gap' hgap' =>
        passes_skipParts hvalue hgap' (fun _ => hentries.ends tail) hrest m hm
    obtain ⟨x, text, htext, hblank, hclosing⟩ := hlabel.opens hvalue (entries ++ tail)
    simp only [List.append_assoc]
    rw [htext] at hon ⊢
    refine (Resumes.entry hseparator hblank hclosing hon).mono ?_
    simp only [List.length_append]
    omega

end

/-- Every text of a value is passed, whatever follows it. -/
theorem passes_skipValue {gap value rest : List Char} (hgap : IsBlank gap) (h : IsValue value)
    (hends : IsNumber value → Ends rest) :
    Passes skipValue (gap ++ (value ++ rest)) rest := by
  intro offset
  refine passes_skipParts h hgap hends (.done rest 0) _ ?_ offset
  simp only [List.length_append]
  omega

/-- A text begins with one value at most. -/
theorem IsValue.unique {gap gap' value value' rest rest' : List Char} (hgap : IsBlank gap)
    (hgap' : IsBlank gap') (h : IsValue value) (h' : IsValue value')
    (hends : IsNumber value → Ends rest) (hends' : IsNumber value' → Ends rest')
    (heq : gap ++ (value ++ rest) = gap' ++ (value' ++ rest')) : rest = rest' := by
  obtain ⟨stop, hskip⟩ := passes_skipValue hgap h hends 0
  obtain ⟨stop', hskip'⟩ := passes_skipValue hgap' h' hends' 0
  rw [heq, hskip'] at hskip
  cases hskip
  rfl

end ApiTypes.Json
