import WidgetView.Proofs.Renaming
import WidgetView.Token.StringValue

/-!
# Literals read back

String literals that are written and read back. Where the scanner looks for the closing quote and
where the value is taken from the body, backslashes are paired in the same way; so a text whose
backslashes and quotes have a backslash each in front of them is the value of the literal, and in a
raw literal any text without a quote is.
-/
namespace WidgetView

/-- A text as the body of a literal: a backslash goes in front of every backslash and every double
quote. -/
def escape (text : List Char) : List Char :=
  text.flatMap fun c => if c = '\\' ∨ c = '\x22' then ['\\', c] else [c]

/-- A literal with a mark in front of the opening quote. -/
def literalOf (mark body : List Char) : List Char := mark ++ '\x22' :: (body ++ ['\x22'])

/-- The marks of literals, and which of them are raw. -/
def literalMarks : List (List Char × Bool) :=
  [([], false), (['b'], false), (['r'], true), (['b', 'r'], true)]

@[simp] theorem escape_nil : escape [] = [] := rfl

theorem escape_cons_marked {c : Char} (hc : c = '\\' ∨ c = '\x22') (text : List Char) :
    escape (c :: text) = '\\' :: c :: escape text := by
  rw [escape, List.flatMap_cons, if_pos hc]
  rfl

theorem escape_cons_plain {c : Char} (hc : ¬(c = '\\' ∨ c = '\x22')) (text : List Char) :
    escape (c :: text) = c :: escape text := by
  rw [escape, List.flatMap_cons, if_neg hc]
  rfl

/-- A text without backslashes and double quotes is its own body. -/
theorem escape_eq_self {text : List Char} (hb : '\\' ∉ text) (hq : '\x22' ∉ text) :
    escape text = text := by
  induction text with
  | nil => rfl
  | cons c text ih =>
    rw [List.mem_cons, not_or] at hb hq
    rw [escape_cons_plain (not_or.mpr ⟨Ne.symm hb.1, Ne.symm hq.1⟩), ih hb.2 hq.2]

/-! ### The value of a literal -/

theorem unescape_cons {c : Char} (hc : c ≠ '\\') (cs : List Char) :
    unescape (c :: cs) = c :: unescape cs := by
  rw [unescape]
  · exact fun he => absurd he hc
  · exact fun _ _ he => absurd he hc

theorem unescape_escape (text : List Char) : unescape (escape text) = text := by
  induction text with
  | nil => rfl
  | cons c text ih =>
    by_cases hc : c = '\\' ∨ c = '\x22'
    · have hself : escaped c = c := by rcases hc with rfl | rfl <;> rfl
      rw [escape_cons_marked hc, unescape, ih, hself]
    · rw [escape_cons_plain hc, unescape_cons (fun he => hc (.inl he)), ih]

theorem literalValue_literalOf {mark : List Char} {raw : Bool} (hm : (mark, raw) ∈ literalMarks)
    (body : List Char) :
    literalValue (literalOf mark body) = if raw then body else unescape body := by
  simp only [literalMarks, List.mem_cons, Prod.mk.injEq, List.not_mem_nil, or_false] at hm
  rcases hm with ⟨rfl, rfl⟩ | ⟨rfl, rfl⟩ | ⟨rfl, rfl⟩ | ⟨rfl, rfl⟩ <;>
    simp [literalValue, literalMark, literalBody, literalOf, isQuoteMark]

/-! ### The end of a literal -/

namespace Scan

theorem stringLength_cons {raw : Bool} {c : Char} (hq : c ≠ '\x22') (hb : c = '\\' → raw = true)
    {cs : List Char} {n : Nat} (h : stringLength raw cs = .ok n) :
    stringLength raw (c :: cs) = .ok (n + 1) := by
  by_cases hc : c = '\\'
  · subst hc
    obtain rfl := hb rfl
    cases cs with
    | nil => cases h
    | cons d cs =>
      rw [stringLength, if_pos rfl, h]
      rfl
  · rw [stringLength, h]
    · rfl
    · exact hq
    · exact fun he => absurd he hc
    · exact fun _ _ he => absurd he hc

/-- The closing quote is the first one without a backslash that has been put in front of it. -/
theorem stringLength_escape (text rest : List Char) :
    stringLength false (escape text ++ '\x22' :: rest) = .ok ((escape text).length + 1) := by
  induction text with
  | nil => rfl
  | cons c text ih =>
    by_cases hc : c = '\\' ∨ c = '\x22'
    · rw [escape_cons_marked hc, List.cons_append, List.cons_append, stringLength,
        if_neg Bool.false_ne_true, ih]
      rfl
    · rw [not_or] at hc
      rw [escape_cons_plain (not_or.mpr hc), List.cons_append]
      exact stringLength_cons hc.2 (fun he => absurd he hc.1) ih

/-- The closing quote of a raw literal is the first one. -/
theorem stringLength_raw {text : List Char} (h : '\x22' ∉ text) (rest : List Char) :
    stringLength true (text ++ '\x22' :: rest) = .ok (text.length + 1) := by
  induction text with
  | nil => rfl
  | cons c text ih =>
    rw [List.mem_cons, not_or] at h
    exact stringLength_cons (Ne.symm h.1) (fun _ => rfl) (ih h.2)

/-- A literal whose body ends at its closing quote is a piece in front of every text. -/
theorem scanPiece_literalOf {mark body rest : List Char} {raw : Bool}
    (hm : (mark, raw) ∈ literalMarks)
    (hn : stringLength raw (body ++ '\x22' :: rest) = .ok (body.length + 1)) :
    ∃ c cs, literalOf mark body = c :: cs ∧
      scanPiece c (cs ++ rest) = .ok (some .string, cs.length) := by
  have hpiece : ∀ c cs m, isBlank c = false → c ≠ '/' → isDelimiter c = false →
      stringMark? c (cs ++ rest) = some (m, raw) → (cs ++ rest).drop m = body ++ '\x22' :: rest →
      m + (body.length + 1) = cs.length →
        scanPiece c (cs ++ rest) = .ok (some .string, cs.length) := by
    intro c cs m hb hs hd hmark hdrop hlength
    rw [← hlength]
    exact scanPiece_lexeme hb hs (.string hd hmark (by rw [hdrop, hn]))
  simp only [literalMarks, List.mem_cons, Prod.mk.injEq, List.not_mem_nil, or_false] at hm
  rcases hm with ⟨rfl, rfl⟩ | ⟨rfl, rfl⟩ | ⟨rfl, rfl⟩ | ⟨rfl, rfl⟩
  · exact ⟨_, _, rfl, hpiece _ _ 0 (by decide) (by decide) (by decide) rfl (by simp) (by simp)⟩
  · exact ⟨_, _, rfl, hpiece _ _ 1 (by decide) (by decide) (by decide) rfl (by simp)
      (by simp; omega)⟩
  · exact ⟨_, _, rfl, hpiece _ _ 1 (by decide) (by decide) (by decide) rfl (by simp)
      (by simp; omega)⟩
  · exact ⟨_, _, rfl, hpiece _ _ 2 (by decide) (by decide) (by decide) rfl (by simp)
      (by simp; omega)⟩

end Scan

/-- A source that is one literal has one token, a string with the value of the literal. -/
theorem tokenize_literalOf {mark body : List Char} {raw : Bool} (hm : (mark, raw) ∈ literalMarks)
    (hn : Scan.stringLength raw (body ++ ['\x22']) = .ok (body.length + 1)) :
    ∃ t, tokenize (literalOf mark body) = .ok [t] ∧ t.kind? = some .string ∧
      t.stringValue = .ok (String.ofList (if raw then body else unescape body)) := by
  obtain ⟨c, cs, hliteral, hpiece⟩ := Scan.scanPiece_literalOf hm hn
  have hvalue := literalValue_literalOf hm body
  rw [hliteral] at hvalue ⊢
  let l : Lexeme :=
    ⟨.string, String.ofList (c :: cs), ({} : Place).spanTo (({} : Place).after (c :: cs))⟩
  have hscan : scan (c :: cs) = .ok [l] := by
    have happend := Scan.scanFrom_append hpiece {}
    rw [List.append_nil, Scan.scanFrom] at happend
    exact happend
  refine ⟨.leaf l, ?_, rfl, ?_⟩
  · have hleaf : l.bracket? = none := rfl
    exact tokenize_eq_ok.mpr ⟨[l], hscan, nest_eq_ok_iff.mpr (.leaf hleaf .nil)⟩
  · simp [Token.stringValue, Token.string?, l, hvalue]

/-- Every text is the value of a literal, alone or marked with `b`, in which its backslashes and
double quotes are escaped; and a text without a double quote is the value of a raw literal as it
stands. -/
theorem literal_reads_back (text : List Char) :
    (∀ mark ∈ [[], ['b']], ∃ t, tokenize (literalOf mark (escape text)) = .ok [t] ∧
      t.kind? = some .string ∧ t.stringValue = .ok (String.ofList text)) ∧
    ('\x22' ∉ text → ∀ mark ∈ [['r'], ['b', 'r']], ∃ t, tokenize (literalOf mark text) = .ok [t] ∧
      t.kind? = some .string ∧ t.stringValue = .ok (String.ofList text)) := by
  constructor
  · intro mark hmark
    have hm : (mark, false) ∈ literalMarks := by
      simp only [List.mem_cons, List.not_mem_nil, or_false] at hmark
      rcases hmark with rfl | rfl <;> decide
    have htokens := tokenize_literalOf hm (Scan.stringLength_escape text [])
    rwa [if_neg Bool.false_ne_true, unescape_escape] at htokens
  · intro hq mark hmark
    have hm : (mark, true) ∈ literalMarks := by
      simp only [List.mem_cons, List.not_mem_nil, or_false] at hmark
      rcases hmark with rfl | rfl <;> decide
    exact tokenize_literalOf hm (Scan.stringLength_raw hq [])

/-- A text of a backslash, a quote and a letter that is escaped, and a raw text that ends in a
backslash. -/
theorem literal_reads_back_samples :
    (∃ t, tokenize "b\"\\\\\\\"n\"".toList = .ok [t] ∧ t.stringValue = .ok "\\\"n") ∧
      '\x22' ∉ "\\n\\".toList ∧ ∃ t, tokenize "br\"\\n\\\"".toList = .ok [t] ∧
        t.stringValue = .ok "\\n\\" := by
  obtain ⟨t, ht, -, hv⟩ := (literal_reads_back "\\\"n".toList).1 ['b'] (by decide)
  have hno : '\x22' ∉ "\\n\\".toList := by decide
  obtain ⟨u, hu, -, hw⟩ := (literal_reads_back "\\n\\".toList).2 hno ['b', 'r'] (by decide)
  exact ⟨⟨t, ht, hv⟩, hno, u, hu, hw⟩

end WidgetView
