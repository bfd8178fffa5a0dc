import ApiTypes.Proofs.Identifier
import ApiTypes.Proofs.Quoting
import ApiTypes.Target.Basic

/-!
# Expressions of codecs

The expressions that codecs are written in: words, and words applied to an
expression, to a list or to a record.  Their texts never run into each other: a
text that begins with an expression determines the expression and what follows.
-/

namespace ApiTypes.Codec
open Name (Stops Follows follows_nil follows_cons takeWhile_append_stops
  dropWhile_append_stops)
open Text (tailText toList_joinWith_cons)

def isWordChar (c : Char) : Bool := Name.isIdentifierChar c || c == '.'

/-- A name, or a member of a module. -/
structure Word where
  text : String
  valid : text.toList ≠ [] ∧ text.toList.all isWordChar = true

theorem Word.chars (w : Word) : ∀ c ∈ w.text.toList, isWordChar c = true :=
  List.all_eq_true.mp w.valid.2

mutual

inductive Expression where
  | word (w : Word)
  | call (w : Word) (argument : Expression)
  | list (w : Word) (members : List Expression)
  | record (w : Word) (entries : List Entry)

inductive Entry where
  | mk (key : String) (value : Expression)

end

mutual

def Expression.text : Expression → String
  | .word w => w.text
  | .call w argument => w.text ++ "(" ++ argument.text ++ ")"
  | .list w members => w.text ++ "([" ++ Text.joinWith "," (listTexts members) ++ "])"
  | .record w entries => w.text ++ "(" ++ Target.record (entryTexts entries) ++ ")"

def Entry.text : Entry → String
  | .mk key value => Text.quote key ++ ":" ++ value.text

def listTexts : List Expression → List String
  | [] => []
  | e :: rest => e.text :: listTexts rest

def entryTexts : List Entry → List String
  | [] => []
  | e :: rest => e.text :: entryTexts rest

end

theorem listTexts_eq_map (members : List Expression) :
    listTexts members = members.map Expression.text := by
  induction members with
  | nil => rfl
  | cons e rest ih => rw [listTexts, ih, List.map_cons]

theorem entryTexts_eq_map (entries : List Entry) : entryTexts entries = entries.map Entry.text := by
  induction entries with
  | nil => rfl
  | cons e rest ih => rw [entryTexts, ih, List.map_cons]

/-! ### What follows an expression -/

def closers : List Char := [',', ')', ']', '\x7d']

/-- Whether a text may stand behind an expression. -/
abbrev Ends (rest : List Char) : Prop := Follows closers rest

theorem Ends.stops {rest : List Char} (h : Ends rest) : Stops isWordChar rest :=
  Follows.stops h (by decide)

theorem Ends.ne_open {rest : List Char} (h : Ends rest) (cs : List Char) : '(' :: cs ≠ rest := by
  rintro rfl
  have hopen : '(' ∉ closers := by decide
  exact Follows.ne h hopen rfl

theorem stops_open (rest : List Char) : Stops isWordChar ('(' :: rest) := by
  intro c hc
  obtain rfl : '(' = c := by simpa using hc
  decide

theorem word_append_inj {w w' : Word} {rest rest' : List Char} (hrest : Stops isWordChar rest)
    (hrest' : Stops isWordChar rest') (h : w.text.toList ++ rest = w'.text.toList ++ rest') :
    w = w' ∧ rest = rest' := by
  have htake := takeWhile_append_stops w.chars hrest
  have hdrop := dropWhile_append_stops w.chars hrest
  rw [h, takeWhile_append_stops w'.chars hrest'] at htake
  rw [h, dropWhile_append_stops w'.chars hrest'] at hdrop
  obtain ⟨text, valid⟩ := w
  obtain ⟨text', valid'⟩ := w'
  obtain rfl : text = text' := String.toList_injective htake.symm
  exact ⟨rfl, hdrop.symm⟩

/-! ### Texts that end by themselves -/

/-- Whether a text can be told from what follows it. -/
def Delimits {α : Type} (f : α → String) (a : α) : Prop :=
  ∀ (b : α) (rest rest' : List Char), Ends rest → Ends rest' →
    (f a).toList ++ rest = (f b).toList ++ rest' → a = b ∧ rest = rest'

/-- Whether no text of `f` begins with what may follow one. -/
def Begins {α : Type} (f : α → String) : Prop := ∀ a, ∃ c cs, (f a).toList = c :: cs ∧ c ∉ closers

section Lists
variable {α : Type} {f : α → String} {close : Char}

theorem ends_tailText (hclose : close ∈ closers) (texts : List String) (rest : List Char) :
    Ends (tailText texts ++ close :: rest) := by
  cases texts with
  | nil => exact follows_cons hclose
  | cons text texts => exact follows_cons (by decide)

theorem tailText_append_inj (hclose : close ∈ closers) (hcomma : close ≠ ',') {as : List α}
    (has : ∀ a ∈ as, Delimits f a) (bs : List α) (rest rest' : List Char)
    (h : tailText (as.map f) ++ close :: rest = tailText (bs.map f) ++ close :: rest') :
    as = bs ∧ rest = rest' := by
  induction as generalizing bs with
  | nil =>
    cases bs with
    | nil => exact ⟨rfl, (List.cons.inj h).2⟩
    | cons b bs => exact absurd (List.cons.inj h).1 hcomma
  | cons a as ih =>
    cases bs with
    | nil => exact absurd (List.cons.inj h).1.symm hcomma
    | cons b bs =>
      simp only [tailText, List.map_cons, List.flatMap_cons, List.cons_append, List.append_assoc,
        List.cons.injEq, true_and] at h
      obtain ⟨hab, htail⟩ := has a List.mem_cons_self b _ _ (ends_tailText hclose _ _)
        (ends_tailText hclose _ _) h
      obtain ⟨hasbs, hrest⟩ := ih (fun x hx => has x (List.mem_cons_of_mem _ hx)) bs htail
      exact ⟨by rw [hab, hasbs], hrest⟩

theorem joinWith_append_inj (hf : Begins f) (hclose : close ∈ closers) (hcomma : close ≠ ',')
    {as : List α} (has : ∀ a ∈ as, Delimits f a) (bs : List α) (rest rest' : List Char)
    (h : (Text.joinWith "," (as.map f)).toList ++ close :: rest =
      (Text.joinWith "," (bs.map f)).toList ++ close :: rest') : as = bs ∧ rest = rest' := by
  -- a member never begins with the bracket that closes an empty list
  have hopen : ∀ (b : α) (cs cs' : List Char), close :: cs ≠ (f b).toList ++ cs' := by
    intro b cs cs' he
    obtain ⟨c, text, htext, hc⟩ := hf b
    rw [htext, List.cons_append] at he
    exact hc ((List.cons.inj he).1 ▸ hclose)
  cases as with
  | nil =>
    cases bs with
    | nil => exact ⟨rfl, (List.cons.inj h).2⟩
    | cons b bs =>
      rw [List.map_cons, toList_joinWith_cons, List.append_assoc] at h
      exact absurd h (hopen b _ _)
  | cons a as =>
    cases bs with
    | nil =>
      rw [List.map_cons, toList_joinWith_cons, List.append_assoc] at h
      exact absurd h.symm (hopen a _ _)
    | cons b bs =>
      simp only [List.map_cons, toList_joinWith_cons, List.append_assoc] at h
      obtain ⟨hab, htail⟩ := has a List.mem_cons_self b _ _ (ends_tailText hclose _ _)
        (ends_tailText hclose _ _) h
      obtain ⟨hasbs, hrest⟩ := tailText_append_inj hclose hcomma
        (fun x hx => has x (List.mem_cons_of_mem _ hx)) bs rest rest' htail
      exact ⟨by rw [hab, hasbs], hrest⟩

end Lists

/-! ### Expressions -/

namespace Expression

def head : Expression → Word
  | .word w => w
  | .call w _ => w
  | .list w _ => w
  | .record w _ => w

def arguments : Expression → List Char
  | .word _ => []
  | .call _ argument => '(' :: (argument.text.toList ++ [')'])
  | .list _ members =>
    '(' :: '[' :: ((Text.joinWith "," (members.map text)).toList ++ [']', ')'])
  | .record _ entries =>
    '(' :: '\x7b' :: ((Text.joinWith "," (entries.map Entry.text)).toList ++ ['\x7d', ')'])

theorem toList_text (e : Expression) : e.text.toList = e.head.text.toList ++ e.arguments := by
  cases e with
  | word w => simp [text, head, arguments]
  | call w argument => simp [text, head, arguments]
  | list w members => simp [text, head, arguments, listTexts_eq_map]
  | record w entries => simp [text, head, arguments, entryTexts_eq_map, Target.record]

theorem stops_arguments (e : Expression) {rest : List Char} (h : Ends rest) :
    Stops isWordChar (e.arguments ++ rest) := by
  cases e with
  | word w => exact h.stops
  | call w argument => exact stops_open _
  | list w members => exact stops_open _
  | record w entries => exact stops_open _

theorem arguments_append_inj {e e' : Expression} {rest rest' : List Char} (hrest : Ends rest)
    (hrest' : Ends rest') (h : e.text.toList ++ rest = e'.text.toList ++ rest') :
    e.head = e'.head ∧ e.arguments ++ rest = e'.arguments ++ rest' := by
  rw [toList_text, toList_text, List.append_assoc, List.append_assoc] at h
  exact word_append_inj (stops_arguments _ hrest) (stops_arguments _ hrest') h

theorem exists_text_eq_cons (e : Expression) :
    ∃ c cs, e.text.toList = c :: cs ∧ isWordChar c = true := by
  obtain ⟨c, cs, hc⟩ := List.exists_cons_of_ne_nil e.head.valid.1
  refine ⟨c, cs ++ e.arguments, ?_, ?_⟩
  · rw [toList_text, hc, List.cons_append]
  · exact e.head.chars c (by rw [hc]; exact List.mem_cons_self)

theorem begins_text : Begins text := by
  have key : closers.all (fun c => !isWordChar c) = true := by decide
  intro e
  obtain ⟨c, cs, htext, hc⟩ := exists_text_eq_cons e
  refine ⟨c, cs, htext, ?_⟩
  intro hmem
  have hclosing := List.all_eq_true.mp key c hmem
  simp [hc] at hclosing

theorem text_append_ne_cons (e : Expression) {c : Char} (hc : isWordChar c = false)
    (rest rest' : List Char) : e.text.toList ++ rest ≠ c :: rest' := by
  intro h
  obtain ⟨x, cs, htext, hx⟩ := exists_text_eq_cons e
  rw [htext, List.cons_append] at h
  rw [(List.cons.inj h).1, hc] at hx
  cases hx

end Expression

theorem Entry.begins_text : Begins Entry.text := by
  rintro ⟨key, value⟩
  have htext : (Entry.mk key value).text.toList =
      '"' :: (key.toList.flatMap Text.escape ++ '"' :: ':' :: value.text.toList) := by
    simp [Entry.text, Text.quote]
  exact ⟨_, _, htext, by decide⟩

open Expression

mutual

theorem Expression.delimits : ∀ e : Expression, Delimits Expression.text e
  | .word w => by
    intro e' rest rest' hrest hrest' h
    obtain ⟨hw, harguments⟩ := arguments_append_inj hrest hrest' h
    cases e' with
    | word w' => exact ⟨congrArg Expression.word hw, harguments⟩
    | call | list | record => exact absurd harguments.symm (hrest.ne_open _)
  | .call w argument => by
    intro e' rest rest' hrest hrest' h
    obtain ⟨hw, harguments⟩ := arguments_append_inj hrest hrest' h
    cases e' with
    | word w' => exact absurd harguments (hrest'.ne_open _)
    | call w' argument' =>
      simp only [arguments, List.cons_append, List.append_assoc, List.cons.injEq, true_and,
        List.nil_append] at harguments
      obtain ⟨ha, hclose⟩ := Expression.delimits argument argument' _ _ (follows_cons (by decide))
        (follows_cons (by decide)) harguments
      have hword : w = w' := hw
      exact ⟨by rw [hword, ha], (List.cons.inj hclose).2⟩
    | list | record =>
      simp only [arguments, List.cons_append, List.append_assoc, List.cons.injEq,
        true_and] at harguments
      exact absurd harguments (text_append_ne_cons argument (by decide) _ _)
  | .list w members => by
    intro e' rest rest' hrest hrest' h
    obtain ⟨hw, harguments⟩ := arguments_append_inj hrest hrest' h
    cases e' with
    | word w' => exact absurd harguments (hrest'.ne_open _)
    | call w' argument' =>
      simp only [arguments, List.cons_append, List.append_assoc, List.cons.injEq,
        true_and] at harguments
      exact absurd harguments.symm (text_append_ne_cons argument' (by decide) _ _)
    | list w' members' =>
      simp only [arguments, List.cons_append, List.append_assoc, List.cons.injEq, true_and,
        List.nil_append] at harguments
      obtain ⟨hm, hclose⟩ := joinWith_append_inj begins_text (by decide) (by decide)
        (listDelimits members) members' _ _ harguments
      have hword : w = w' := hw
      exact ⟨by rw [hword, hm], (List.cons.inj hclose).2⟩
    | record w' entries' =>
      exact absurd (List.cons.inj (List.cons.inj harguments).2).1 (by decide)
  | .record w entries => by
    intro e' rest rest' hrest hrest' h
    obtain ⟨hw, harguments⟩ := arguments_append_inj hrest hrest' h
    cases e' with
    | word w' => exact absurd harguments (hrest'.ne_open _)
    | call w' argument' =>
      simp only [arguments, List.cons_append, List.append_assoc, List.cons.injEq,
        true_and] at harguments
      exact absurd harguments.symm (text_append_ne_cons argument' (by decide) _ _)
    | list w' members' =>
      exact absurd (List.cons.inj (List.cons.inj harguments).2).1 (by decide)
    | record w' entries' =>
      simp only [arguments, List.cons_append, List.append_assoc, List.cons.injEq, true_and,
        List.nil_append] at harguments
      obtain ⟨he, hclose⟩ := joinWith_append_inj Entry.begins_text (by decide) (by decide)
        (entriesDelimit entries) entries' _ _ harguments
      have hword : w = w' := hw
      exact ⟨by rw [hword, he], (List.cons.inj hclose).2⟩

theorem Entry.delimits : ∀ e : Entry, Delimits Entry.text e
  | .mk key value => by
    rintro ⟨key', value'⟩ rest rest' hrest hrest' h
    simp only [Entry.text, String.toList_append, List.append_assoc] at h
    obtain ⟨hkey, h⟩ := Text.quote_append_inj h
    have hafter := List.append_cancel_left h
    obtain ⟨hvalue, h⟩ := Expression.delimits value value' _ _ hrest hrest' hafter
    exact ⟨by rw [hkey, hvalue], h⟩

theorem listDelimits : ∀ members : List Expression, ∀ e ∈ members, Delimits Expression.text e
  | [] => by simp
  | e :: rest => List.forall_mem_cons.mpr ⟨Expression.delimits e, listDelimits rest⟩

theorem entriesDelimit : ∀ entries : List Entry, ∀ e ∈ entries, Delimits Entry.text e
  | [] => by simp
  | e :: rest => List.forall_mem_cons.mpr ⟨Entry.delimits e, entriesDelimit rest⟩

end

theorem Expression.text_injective : Function.Injective Expression.text := by
  intro e e' h
  have hlist : e.text.toList ++ [] = e'.text.toList ++ [] := by rw [h]
  exact (Expression.delimits e e' [] [] follows_nil follows_nil hlist).1

end ApiTypes.Codec
