import WidgetView.Proofs.Fixing

/-!
# What stands in the place of a word

What one fix puts in the place of a word. Its new text is read as a template, so it is put there as
it stands if every backslash of it is followed by a mark, and not always otherwise.
-/
namespace WidgetView

namespace Fix

/-- A fix puts a text in the place of the first word on its line that equals its old text, and
leaves a source alone that has no such word there. -/
structure Puts (f : Fix) (source text : List Char) : Prop where
  found : ∀ i, Text.FirstWordAt f.oldText.toList (Text.lineAt source f.line.toNat) i →
    applyFixes source [f] = .ok (Text.joinLines ((Text.splitLines source).set (f.line.toNat - 1)
      ((Text.lineAt source f.line.toNat).take i ++ text ++
        (Text.lineAt source f.line.toNat).drop (i + f.oldText.toList.length))))
  missing : (∀ i, ¬ Text.WordAt f.oldText.toList (Text.lineAt source f.line.toNat) i) →
    applyFixes source [f] = .ok source

variable {f : Fix} {source : List Char}

theorem applyToLine_none {ps : List Template.Piece} {line : List Char}
    (hps : Template.parse f.newText = .ok ps) (h : ∀ i, ¬ Text.WordAt f.oldText.toList line i) :
    f.applyToLine line = .ok line := by
  have hsplit := Text.splitAtWord?_none [] line fun i _ => h i
  rw [List.getLast?_nil] at hsplit
  simp only [applyToLine, hps, hsplit]

theorem puts_of_parse {ps : List Template.Piece} (hps : Template.parse f.newText = .ok ps)
    (hpos : 1 ≤ f.line) (hle : f.line ≤ (Text.splitLines source).length) :
    f.Puts source (Template.expand f.oldText.toList ps) := by
  obtain ⟨n, hn⟩ : ∃ n : Nat, f.line = n + 1 := ⟨f.line.toNat - 1, by omega⟩
  have hlt : n < (Text.splitLines source).length := by omega
  have hindex : f.line.toNat = n + 1 := by omega
  constructor
  · intro i hi
    rw [hindex] at hi ⊢
    rw [applyFixes_one hn hlt, applyToLine_first hps hi]
    rfl
  · intro hno
    rw [hindex] at hno
    have hsame : (Text.splitLines source).set n (Text.lineAt source (n + 1)) =
        Text.splitLines source := by
      simp [Text.lineAt, hlt]
    rw [applyFixes_one hn hlt, applyToLine_none hps hno, Except.map, hsame,
      Text.joinLines_splitLines]

theorem applyFixes_eq_error {e : TemplateError} (he : Template.parse f.newText = .error e)
    (hpos : 1 ≤ f.line) (hle : f.line ≤ (Text.splitLines source).length) :
    applyFixes source [f] = .error e := by
  obtain ⟨n, hn⟩ : ∃ n : Nat, f.line = n + 1 := ⟨f.line.toNat - 1, by omega⟩
  rw [applyFixes_one hn (by omega), applyToLine, he]
  rfl

/-- On a line that is the old text and nothing else, the text that is put there is all. -/
theorem Puts.applyFixes_letter {newText : String} {text : List Char}
    (h : (⟨"x", newText, 1⟩ : Fix).Puts ['x'] text) :
    applyFixes ['x'] [⟨"x", newText, 1⟩] = .ok text := by
  have hfirst : Text.FirstWordAt "x".toList ['x'] 0 :=
    ⟨by decide, fun j hj => absurd hj (Nat.not_lt_zero j)⟩
  have hfound := h.found 0 hfirst
  simpa [Text.joinLines, Text.lineAt, Text.splitLines] using hfound

end Fix

/-- A new text is put in the place of every old text, character for character, exactly if it is
inert. Any other one is an error on every line, or what is put there is what the template gives for
the old text. -/
theorem replaced_literally_iff (newText : String) :
    ((∀ (source : List Char) (f : Fix), f.newText = newText → 1 ≤ f.line →
        f.line ≤ (Text.splitLines source).length → f.Puts source newText.toList) ↔
      Template.isInert newText.toList = true) ∧
    ∀ (source : List Char) (f : Fix), f.newText = newText → 1 ≤ f.line →
      f.line ≤ (Text.splitLines source).length →
        match Template.parse newText with
        | .error e => applyFixes source [f] = .error e
        | .ok ps => f.Puts source (Template.expand f.oldText.toList ps) := by
  have hany : ∀ (source : List Char) (f : Fix), f.newText = newText → 1 ≤ f.line →
      f.line ≤ (Text.splitLines source).length →
        match Template.parse newText with
        | .error e => applyFixes source [f] = .error e
        | .ok ps => f.Puts source (Template.expand f.oldText.toList ps) := by
    rintro source f rfl hpos hle
    split
    · next e he => exact Fix.applyFixes_eq_error he hpos hle
    · next ps hps => exact Fix.puts_of_parse hps hpos hle
  refine ⟨⟨?_, ?_⟩, hany⟩
  · intro h
    have hgiven := hany ['x'] ⟨"x", newText, 1⟩ rfl (Int.le_refl 1) (Int.le_refl 1)
    have hletter :=
      (h ['x'] ⟨"x", newText, 1⟩ rfl (Int.le_refl 1) (Int.le_refl 1)).applyFixes_letter
    split at hgiven
    · next e _ =>
      rw [hgiven] at hletter
      cases hletter
    · next ps hps =>
      rw [hgiven.applyFixes_letter] at hletter
      have hlength : "x".toList.length ≤ 1 := by decide
      exact Template.isInert_of_expand hps hlength (Except.ok.inj hletter)
  · rintro hinert source f rfl hpos hle
    obtain ⟨ps, hps, hexpand⟩ := Template.parse_inert hinert
    exact hexpand f.oldText.toList ▸ Fix.puts_of_parse hps hpos hle

/-- A new text that is refused, and one that is put there as another text. -/
theorem not_replaced_literally :
    applyFixes ['x'] [⟨"x", "\\q", 1⟩] = .error ⟨.badEscape "\\q", "\\q", 0⟩ ∧
      applyFixes ['x'] [⟨"x", "a\\nb", 1⟩] = .ok ['a', '\n', 'b'] ∧
      ¬ ∀ (source : List Char) (f : Fix), 1 ≤ f.line → f.line ≤ (Text.splitLines source).length →
        f.Puts source f.newText.toList := by
  have hbreak : applyFixes ['x'] [⟨"x", "a\\nb", 1⟩] = .ok ['a', '\n', 'b'] := by decide +kernel
  refine ⟨by decide +kernel, hbreak, ?_⟩
  intro h
  have hletter := (h ['x'] ⟨"x", "a\\nb", 1⟩ (Int.le_refl 1) (Int.le_refl 1)).applyFixes_letter
  rw [hbreak] at hletter
  exact absurd (Except.ok.inj hletter) (by decide)

end WidgetView
