import WidgetView.Proofs.FixLines

/-!
# What fixes repair

A diagnostic with a fix is about one identifier of the token trees, and the fix renames this
identifier and nothing else, if the identifier is the first on its line that reads so. It need not
be: a fix is a word and a line, and a word that stands earlier on the line is replaced instead.
-/
namespace WidgetView

/-- A fix is for one identifier, the only one that its diagnostic is about, and it stands at one
place. If the new text is a name too, and the identifier is the first word on the line of the fix
that equals the old text, then the fixed source has the same token trees up to places, with the new
text for this identifier. -/
theorem fix_repairs {fs : FileSystem} {base : Pathname} {source : List Char} {st st' : Session}
    {ts : List Token} {v : View} {d : Diagnostic} {f : Fix} (ht : tokenize source = .ok ts)
    (hn : Source.fileName? ts = none) (hv : Source.viewOfText fs base source st = (.ok v, st'))
    (hd : d ∈ (validate v).errors ++ (validate v).warnings) (hf : d.fix = some f) :
    ∃ l, (∀ k, d.IsAbout ts k ↔ k = l) ∧ (lexemes ts).count l = 1 ∧ l.kind = .ident ∧
      f.oldText = l.text ∧ f.line = d.line ∧
      (Scan.IsName f.newText.toList → f.line = l.span.line →
        (∀ i < l.span.column - 1,
          ¬ Text.WordAt l.text.toList (Text.lineAt source l.span.line) i) →
        ∃ source' ts', applyFixes source [f] = .ok source' ∧ tokenize source' = .ok ts' ∧
          shapes id ts' = shapes (renamed l f.newText) ts) := by
  have hr := Parse.root_readFrom (Source.root_of_viewOfText ht hn hv)
  obtain ⟨l, habout, hold, hline⟩ := validate_sourced hr d hd f hf
  obtain ⟨mark, rest, hm⟩ := habout.marked
  obtain ⟨hl, span, hw⟩ := id hm
  refine ⟨l, habout.eq_iff ht, count_lexemes ht hl hm.mem_lexemes, hl, hold, hline, ?_⟩
  intro hname hplace hfirst
  obtain ⟨before, after, hspot, hrename⟩ := exists_spot ht hw hl (by simp)
  obtain ⟨ts', hts', hshape⟩ := hrename f.newText hname
  exact ⟨_, ts', hspot.applyFixes_eq hold hplace hname hfirst, hts', hshape⟩

/-- The target of a signal with another name than the target. -/
theorem fix_repairs_sample :
    let source := "Row \x7b tick => clok@Tick, #[name=\"clock\"] Clock \x7d".toList
    let f : Fix := ⟨"clok", "clock", 1⟩
    ∃ ts v st l source' ts', tokenize source = .ok ts ∧
      Source.viewOfText {} {} source {} = (.ok v, st) ∧ f ∈ (validate v).fixes ∧
      l.text = "clok" ∧ l.span.column = 15 ∧ applyFixes source [f] = .ok source' ∧
        tokenize source' = .ok ts' ∧
      shapes id ts' = shapes (renamed l "clock") ts := by
  intro source f
  let d : Diagnostic :=
    ⟨.error, .unknownTarget "tick" "_row1" "clok" (some f), 1, 15, some f⟩
  obtain ⟨ts, ht, hn⟩ : ∃ ts, tokenize source = .ok ts ∧ (Source.fileName? ts).isNone = true :=
    exists_ok_of_any (by decide +kernel)
  obtain ⟨v, hv, hd⟩ : ∃ v, (Source.viewOfText {} {} source {}).1 = .ok v ∧
      decide (d ∈ (validate v).errors ++ (validate v).warnings) = true :=
    exists_ok_of_any (by decide +kernel)
  have hview : Source.viewOfText {} {} source {} =
      (.ok v, (Source.viewOfText {} {} source {}).2) := by rw [← hv]
  have hmem := of_decide_eq_true hd
  obtain ⟨l, habout, -, -, hold, -, hfix⟩ :=
    fix_repairs ht (Option.isNone_iff_eq_none.mp hn) hview hmem rfl
  obtain ⟨-, -, hline, hcolumn⟩ := (habout l).mpr rfl
  have hl : l.span.line = 1 := (Int.ofNat.inj hline).symm
  have hc : l.span.column = 15 := (Int.ofNat.inj hcolumn).symm
  have hname : Scan.IsName "clock".toList := by decide
  obtain ⟨source', ts', hs, ht', hshape⟩ := hfix hname hline (by
    rw [hc, hl, ← hold]
    decide +kernel)
  exact ⟨ts, v, _, l, source', ts', ht, hview, List.mem_filterMap.mpr ⟨d, hmem, rfl⟩, hold.symm,
    hc, hs, ht', hshape⟩

/-- The target of a signal with the same name: the signal is renamed instead of the target. -/
theorem fix_misses_target :
    let source := "Row \x7b clok => clok@Tick, #[name=\"clock\"] Clock \x7d".toList
    let f : Fix := ⟨"clok", "clock", 1⟩
    let d : Diagnostic :=
      ⟨.error, .unknownTarget "clok" "_row1" "clok" (some f), 1, 15, some f⟩
    ∃ ts v st source' ts', tokenize source = .ok ts ∧ Source.fileName? ts = none ∧
      Source.viewOfText {} {} source {} = (.ok v, st) ∧
      d ∈ (validate v).errors ++ (validate v).warnings ∧
      applyFixes source [f] = .ok source' ∧ tokenize source' = .ok ts' ∧
      ∃ l, (∀ k, d.IsAbout ts k ↔ k = l) ∧ shapes id ts' ≠ shapes (renamed l f.newText) ts := by
  intro source f d
  have hfixed : applyFixes source [f] = .ok
      "Row \x7b clock => clok@Tick, #[name=\"clock\"] Clock \x7d".toList := by
    decide +kernel
  generalize hs : String.toList _ = source' at hfixed
  obtain ⟨ts, ht, hts⟩ := exists_ok_of_any (x := tokenize source)
    (p := fun ts => (tokenize source').toOption.any fun ts' => decide (Source.fileName? ts = none ∧
      ∀ l ∈ lexemes ts, l.span.line = 1 → l.span.column = 15 →
        (lexemes (shapes id ts')).map Lexeme.text ≠
          (lexemes (shapes (renamed l "clock") ts)).map Lexeme.text))
    (by
      rw [← hs]
      decide +kernel)
  obtain ⟨ts', ht', hall⟩ := exists_ok_of_any hts
  obtain ⟨hn, htexts⟩ := of_decide_eq_true hall
  obtain ⟨v, hv, hd⟩ := exists_ok_of_any (x := (Source.viewOfText {} {} source {}).1)
    (p := fun v => decide (d ∈ (validate v).errors ++ (validate v).warnings)) (by decide +kernel)
  have hview : Source.viewOfText {} {} source {} =
      (.ok v, (Source.viewOfText {} {} source {}).2) := by rw [← hv]
  have hmem := of_decide_eq_true hd
  obtain ⟨l, habout, -⟩ :=
    validate_sourced (Parse.root_readFrom (Source.root_of_viewOfText ht hn hview)) d hmem f rfl
  refine ⟨ts, v, _, source', ts', ht, hn, hview, hmem, hfixed, ht', l,
    habout.eq_iff ht, fun heq => ?_⟩
  obtain ⟨mark, rest, hm⟩ := habout.marked
  obtain ⟨-, -, hline, hcolumn⟩ := habout
  refine htexts l hm.mem_lexemes (Int.ofNat.inj hline).symm (Int.ofNat.inj hcolumn).symm ?_
  rw [heq]

end WidgetView
