import ApiTypes.Fixture.Suite
import ApiTypes.Proofs.FixtureTexts

/-!
# Verdicts on fixtures

A file passes where its text begins with a fixture and what that fixture expects is what comes
of its document.  What stands behind the fixture is not looked at, so a file can pass that is no
fixture: one with more than blanks there.
-/

namespace ApiTypes

theorem FileTree.decode_eq_ok_iff {bytes : Bytes} {text : String} :
    FileTree.decode bytes = .ok text ↔ bytes = FileTree.encode text := by
  rw [FileTree.decode, String.fromUTF8?]
  constructor
  · intro h
    split at h
    · rename_i hsome
      split at hsome
      · obtain rfl := Option.some.inj hsome
        obtain rfl := Except.ok.inj h
        rfl
      · cases hsome
    · cases h
  · rintro rfl
    have hvalid : (⟨(FileTree.encode text).toArray⟩ : ByteArray).IsValidUTF8 := text.isValidUTF8
    rw [dif_pos hvalid]
    rfl

namespace Fixture
open Json

/-- Whether what comes of the document of a fixture is what it expects: its module, or a failure
whose message begins as it says. -/
inductive Met (f : Fixture) : Prop
  | module {text : String} (hgenerate : Document.generate f.options f.document = .ok text)
      (hexpected : f.expected = some text) : Met f
  | failure {e : GenerationError} {start : String}
      (hgenerate : Document.generate f.options f.document = .error e)
      (hexpected : f.expectedError = some start) (hstart : start.toList <+: e.message.toList) :
      Met f

theorem outcome_eq_passed_iff (f : Fixture) : f.outcome = .passed ↔ f.Met := by
  constructor
  · intro h
    unfold outcome compare at h
    split at h
    · rename_i actual hgenerate
      split at h
      · rename_i expected hexpected
        split at h
        · rename_i heq
          exact .module (heq ▸ hgenerate) hexpected
        · cases h
      · cases h
    · rename_i e hgenerate
      split at h
      · rename_i start hexpected
        split at h
        · rename_i hstart
          exact .failure hgenerate hexpected (List.isPrefixOf_iff_prefix.mp hstart)
        · cases h
      · cases h
  · intro h
    cases h with
    | module hgenerate hexpected =>
      unfold outcome compare
      rw [hgenerate]
      simp only [hexpected, if_true]
    | failure hgenerate hexpected hstart =>
      unfold outcome compare
      rw [hgenerate]
      simp only [hexpected, List.isPrefixOf_iff_prefix.mpr hstart, if_true]

theorem judge_eq_passed_iff (text : String) : judge text = .passed ↔
    ∃ f, ofText text = .ok f ∧ f.Met := by
  rw [judge]
  split
  · rename_i f hread
    rw [outcome_eq_passed_iff, hread]
    simp
  · rename_i failure hread
    rw [hread]
    simp

/-! ### Files -/

/-- Whether a file is a text that begins, behind blanks, with a fixture as its first value;
`rest` is what follows it. -/
def Holds (tree : FileTree) (name : String) (f : Fixture) (rest : List Char) : Prop :=
  ∃ text before body, tree.readBytes name = .ok (FileTree.encode text) ∧
    text.toList = before ++ (body ++ rest) ∧ IsBlank before ∧ IsValue body ∧ IsText body f

/-- Whether a file is one fixture that is met, and nothing else but blanks. -/
def Deserves (tree : FileTree) (name : String) : Prop :=
  ∃ f rest, Holds tree name f rest ∧ IsBlank rest ∧ f.Met

section
variable {tree : FileTree} {name : String} {f f' : Fixture} {rest rest' : List Char}

theorem readText_eq_ok_iff {text : String} : tree.readText name = .ok text ↔
    tree.readBytes name = .ok (FileTree.encode text) := by
  rw [FileTree.readText]
  constructor
  · intro h
    obtain ⟨bytes, hbytes, hdecode⟩ := bind_eq_ok_iff.mp h
    rw [hbytes, FileTree.decode_eq_ok_iff.mp hdecode]
  · intro h
    exact bind_eq_ok_iff.mpr ⟨_, h, FileTree.decode_eq_ok_iff.mpr rfl⟩

theorem judgeFile_passed_iff : judgeFile tree name = .passed ↔ ∃ f rest,
    Holds tree name f rest ∧ f.Met := by
  constructor
  · intro h
    rw [judgeFile] at h
    split at h
    · rename_i text htext
      obtain ⟨f, hread, hmet⟩ := (judge_eq_passed_iff text).mp h
      obtain ⟨before, body, rest, hsplit, hbefore, hbody⟩ := ofText_eq_ok_iff.mp hread
      exact ⟨f, rest, ⟨text, before, body, readText_eq_ok_iff.mp htext, hsplit, hbefore,
        hbody.isValue, hbody⟩, hmet⟩
    · cases h
  · rintro ⟨f, rest, ⟨text, before, body, htext, hsplit, hbefore, -, hbody⟩, hmet⟩
    rw [judgeFile, readText_eq_ok_iff.mpr htext]
    exact (judge_eq_passed_iff text).mpr
      ⟨f, ofText_eq_ok_iff.mpr ⟨before, body, rest, hsplit, hbefore, hbody⟩, hmet⟩

/-- What follows the fixture of a file is settled by the file. -/
theorem Holds.unique (h : Holds tree name f rest) (h' : Holds tree name f' rest') :
    rest = rest' := by
  obtain ⟨text, before, body, htext, hsplit, hbefore, hvalue, hbody⟩ := h
  obtain ⟨text', before', body', htext', hsplit', hbefore', hvalue', hbody'⟩ := h'
  have hsame := readText_eq_ok_iff.mpr htext
  rw [readText_eq_ok_iff.mpr htext'] at hsame
  obtain rfl := Except.ok.inj hsame
  exact IsValue.unique hbefore hbefore' hvalue hvalue'
    (fun hnumber => absurd hnumber hbody.not_isNumber)
    (fun hnumber => absurd hnumber hbody'.not_isNumber) (hsplit.symm.trans hsplit')

end

/-- A file passes where it begins with a fixture that is met; it deserves to where nothing but
blanks follows, too. -/
theorem passes_by_first_value (tree : FileTree) (name : String) :
    (judgeFile tree name = .passed ↔ ∃ f rest, Holds tree name f rest ∧ f.Met) ∧
    (Deserves tree name ↔
      judgeFile tree name = .passed ∧ ∀ f rest, Holds tree name f rest → IsBlank rest) := by
  refine ⟨judgeFile_passed_iff, ?_, ?_⟩
  · rintro ⟨f, rest, hholds, hrest, hmet⟩
    refine ⟨judgeFile_passed_iff.mpr ⟨f, rest, hholds, hmet⟩, fun f' rest' hholds' => ?_⟩
    rwa [← hholds.unique hholds']
  · rintro ⟨hpassed, hblank⟩
    obtain ⟨f, rest, hholds, hmet⟩ := judgeFile_passed_iff.mp hpassed
    exact ⟨f, rest, hholds, hblank f rest hholds, hmet⟩

/-- The text of a fixture that is met, and a word behind it. -/
def trailedText : String :=
  "\x7b\"output_type\":\"flow\",\"document\":\x7b\"openapi\":\"3.0.0\",\"components\":" ++
    "\x7b\"schemas\":\x7b\x7d\x7d\x7d,\"expected\":\"// @flow\\n\"\x7d junk"

/-- A directory in which this text stands. -/
def trailedTree : FileTree :=
  ⟨[(["work", "f.json"], .file (FileTree.encode trailedText))], ["work"]⟩

theorem readText_trailed : trailedTree.readText "f.json" = .ok trailedText := by
  have hbytes : trailedTree.readBytes "f.json" = .ok (FileTree.encode trailedText) := rfl
  exact readText_eq_ok_iff.mpr hbytes

/-- Not every file that passes deserves to. -/
theorem trailed_passes :
    judgeFile trailedTree "f.json" = .passed ∧ ¬ Deserves trailedTree "f.json" := by
  constructor
  · have hjudge : judge trailedText = .passed := by decide +kernel
    rw [judgeFile, readText_trailed]
    exact hjudge
  · rintro ⟨f, rest, ⟨text, before, body, htext, hsplit, hbefore, hvalue, hbody⟩, hrest, -⟩
    have hsame := readText_eq_ok_iff.mpr htext
    rw [readText_trailed] at hsame
    obtain rfl := Except.ok.inj hsame
    -- the word is what is left where a value has been passed
    have hword : skipValue ⟨trailedText.toList, 0⟩ = .ok ⟨" junk".toList, 105⟩ := rfl
    have hends : IsNumber body → Ends rest := fun hnumber => absurd hnumber hbody.not_isNumber
    obtain ⟨stop, hskip⟩ := passes_skipValue hbefore hvalue hends 0
    rw [← hsplit, hword] at hskip
    obtain rfl : " junk".toList = rest := congrArg Cursor.rest (Except.ok.inj hskip)
    have hblank : Cursor.isBlank 'j' = true := hrest 'j' (by decide)
    cases hblank

end Fixture

end ApiTypes
