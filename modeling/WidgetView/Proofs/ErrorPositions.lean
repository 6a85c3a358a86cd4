import WidgetView.Proofs.ErrorPlaces
import WidgetView.Proofs.Layout

/-!
# Positions of parse errors

What the position of a parse error refers to in a text. The token that an error names is one of the
tokens of the text and has the position of the error. An error that names none says what is missing
where a list of tokens ends, at the delimiter that opens the list; or, where the whole text ends, at
the last of its tokens.
-/
namespace WidgetView

/-- A group begins with the delimiter that opens it. -/
theorem opening_of_tokenize {source : List Char} {ts cs : List Token} {d : Delimiter} {s : Span}
    (h : tokenize source = .ok ts) (hg : .group d cs s ∈ descendants ts) :
    source[s.start]? = some d.opening := by
  obtain ⟨ls, hs, hn⟩ := tokenize_eq_ok.mp h
  have hstands : ∀ l ∈ ls, Scan.Stands source 0 l := (Scan.layout_of_scanFrom hs).stands [] rfl
  have htiles := tiles_eq_lexemes hs hn
  have hopening : d.openingTile s.start ∈ tiles ts :=
    (tiles_stretch hg).subset (by simp [Token.tiles])
  rw [htiles] at hopening
  obtain ⟨l, hl, htile⟩ := List.mem_map.mp hopening
  obtain ⟨-, front, rest, rfl, -, hspan⟩ := hstands l hl
  have hstart : front.length = s.start := by
    have hfront : l.span.start = front.length := by simp [hspan, Place.spanTo]
    exact hfront.symm.trans (congrArg Tile.start htile)
  have htext : l.text.toList = [d.opening] := by
    rw [show l.text = String.ofList [d.opening] from congrArg Tile.text htile]
    simp
  rw [htext, ← hstart]
  simp

namespace ParseError

/-- An error about a run of tokens that ends at `stop` names a token in the run, or it names none
and something is missing at the end of the run or of a group in it. -/
theorem Met.refers {ts : List Token} {stop : Nat × Nat} {e : ParseError} (h : e.Met ts stop) :
    (∃ t ∈ descendants ts, e.token = some t ∧ (e.line, e.column) = t.span.position) ∨
    e.token = none ∧ ∃ wanted, e.fault = .expected wanted none ∧
      (wanted.Missing ts ∧ (e.line, e.column) = stop ∨
        ∃ d cs s, .group d cs s ∈ descendants ts ∧ wanted.Missing cs ∧
          (e.line, e.column) = s.position) := by
  induction h with
  | found h => exact .inl ⟨_, mem_descendants_of_mem h, rfl, rfl⟩
  | ended hs h => exact .inr ⟨rfl, _, rfl, .inl ⟨.inr ⟨_, hs, h⟩, rfl⟩⟩
  | missing hg h => exact .inr ⟨rfl, _, rfl, .inr ⟨_, _, _, mem_descendants_of_mem hg, .inl h, rfl⟩⟩
  | inside hg _ ih =>
    have hsub := descendants_group_subset hg
    rcases ih with ⟨t, ht, htoken, hposition⟩ | ⟨htoken, wanted, hfault, hplace⟩
    · exact .inl ⟨t, hsub ht, htoken, hposition⟩
    · refine .inr ⟨htoken, wanted, hfault, .inr ?_⟩
      rcases hplace with ⟨hmissing, hposition⟩ | ⟨d, cs, s, hin, hmissing, hposition⟩
      · exact ⟨_, _, _, mem_descendants_of_mem hg, hmissing, hposition⟩
      · exact ⟨d, cs, s, hsub hin, hmissing, hposition⟩

end ParseError

namespace Source

variable {fs : FileSystem} {base : Pathname} {text : List Char} {ts : List Token} {st : Session}
    {e : ParseError}

/-- A text that names no file fails to parse where its own tokens do. -/
theorem root_of_parseError (htext : tokenize text = .ok ts) (hs : fileName? ts = none)
    (h : (viewOfText fs base text st).1 = .error (.parse e)) :
    ∃ st', Parse.root ts st = .error e st' := by
  simp only [viewOfText, htext, view, follow, hs] at h
  cases hroot : Parse.root ts st with
  | ok v st' => simp [hroot] at h
  | error e' st' =>
    simp only [hroot, Except.error.injEq, Failure.parse.injEq] at h
    exact ⟨st', by rw [h]⟩

/-- The token that a parse error names stands in the text, where the error is. A parse error that
names none is where a list of tokens ends too soon: at the delimiter that opens the list, or at the
last token of the text, or at the start of a text without tokens. -/
theorem parse_error_position (htext : tokenize text = .ok ts) (hs : fileName? ts = none)
    (h : (viewOfText fs base text st).1 = .error (.parse e)) :
    (∀ t, e.token = some t → t ∈ descendants ts ∧ (e.line, e.column) = t.span.position) ∧
      (e.token = none → ∃ wanted, e.fault = .expected wanted none ∧
        (wanted.Missing ts ∧ (ts = [] ∧ (e.line, e.column) = (1, 1) ∨
            ∃ t, ts.getLast? = some t ∧ (e.line, e.column) = t.span.position) ∨
          ∃ d cs s, .group d cs s ∈ descendants ts ∧ wanted.Missing cs ∧
            text[s.start]? = some d.opening ∧
            Placed text s ∧ (e.line, e.column) = s.position)) := by
  obtain ⟨st', hroot⟩ := root_of_parseError htext hs h
  rcases Parse.root_met hroot with ⟨rfl, rfl⟩ | hmet
  · refine ⟨fun t ht => ?_, fun _ => ⟨.qualifiedName, rfl, .inl ⟨.inl .view, .inl ⟨rfl, rfl⟩⟩⟩⟩
    cases ht
  rcases hmet.refers with ⟨t, ht, htoken, hposition⟩ | ⟨htoken, wanted, hfault, hplace⟩
  · refine ⟨fun u hu => ?_, fun hnone => ?_⟩
    · obtain rfl := Option.some.inj (htoken.symm.trans hu)
      exact ⟨ht, hposition⟩
    · cases htoken.symm.trans hnone
  · refine ⟨fun u hu => ?_, fun _ => ⟨wanted, hfault, ?_⟩⟩
    · cases htoken.symm.trans hu
    rcases hplace with ⟨hmissing, hposition⟩ | ⟨d, cs, s, hg, hmissing, hposition⟩
    · refine .inl ⟨hmissing, ?_⟩
      rcases List.eq_nil_or_concat ts with rfl | ⟨front, last, rfl⟩
      · exact .inl ⟨rfl, hposition⟩
      · refine .inr ⟨last, by simp, ?_⟩
        simpa [endOf] using hposition
    · exact .inr ⟨d, cs, s, hg, hmissing, opening_of_tokenize htext hg,
        placed_of_tokenize htext _ hg, hposition⟩

/-- An event without its arrow, at the end of a group on the third line. -/
theorem parse_error_position_sample :
    let text :=
      "gtk::Box \x7b\n  spacing: (1 + 2),\n  Row \x7b pressed(x) with model \x7d,\n\x7d".toList
    ∃ ts e d cs s, tokenize text = .ok ts ∧ (viewOfText {} {} text {}).1 = .error (.parse e) ∧
      e.message = "Line 3, column 7: Expected `=>` in event `pressed` but found end of input" ∧
      .group d cs s ∈ descendants ts ∧ text[s.start]? = some d.opening ∧ s.position = (3, 7) := by
  intro text
  obtain ⟨ts, htext, hts⟩ : ∃ ts, tokenize text = .ok ts ∧ decide (fileName? ts = none ∧ ts ≠ [] ∧
      ∀ t ∈ ts.getLast?, t.span.position ≠ (3, 7)) = true := exists_ok_of_any (by decide +kernel)
  obtain ⟨hs, hne, hlast⟩ := of_decide_eq_true hts
  have hview : (match (viewOfText {} {} text {}).1 with
      | .error (.parse e) => decide (e.token.isNone ∧ (e.line, e.column) = (3, 7) ∧
          e.message = "Line 3, column 7: Expected `=>` in event `pressed` but found end of input")
      | .ok _ | .error (.lexical _) | .error (.file _) => false) = true := by decide +kernel
  split at hview
  · next e h =>
    obtain ⟨htoken, hplace, hmessage⟩ := of_decide_eq_true hview
    obtain ⟨wanted, -, hwhere⟩ :=
      (parse_error_position htext hs h).2 (Option.isNone_iff_eq_none.mp htoken)
    rw [hplace] at hwhere
    rcases hwhere with ⟨-, ⟨hnil, -⟩ | ⟨t, ht, heq⟩⟩ | ⟨d, cs, s, hg, -, hopening, -, heq⟩
    · exact absurd hnil hne
    · exact absurd heq.symm (hlast t ht)
    · exact ⟨ts, e, d, cs, s, htext, h, hmessage, hg, hopening, heq.symm⟩
  all_goals cases hview

end Source

end WidgetView
