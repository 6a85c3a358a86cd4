import WidgetView.Proofs.Diagnoses
import WidgetView.Proofs.Rendering

/-!
# Lines of fixes

The line of a fix. A diagnostic with a fix is about one identifier of the source, which reads like
the old text. For a target the fix has the line of this identifier. For a child property it has the
line of the value, and the value may begin on a later line than the name.
-/
namespace WidgetView

/-! ### Lines -/

/-- Two offsets are on the same line if no line feed stands between them. -/
theorem not_mem_extract_iff {source : List Char} {m n : Nat} (h : m ≤ n) :
    '\n' ∉ source.extract m n ↔ (source.take m).count '\n' = (source.take n).count '\n' := by
  obtain ⟨k, rfl⟩ := Nat.exists_eq_add_of_le h
  have hsplit : source.take (m + k) = source.take m ++ source.extract m (m + k) := by
    rw [List.take_add, List.extract_eq_take_drop, Nat.add_sub_cancel_left]
  rw [hsplit, List.count_append, ← List.count_eq_zero]
  omega

theorem not_mem_extract {source : List Char} {m n i : Nat} (h : '\n' ∉ source.extract m n)
    (hm : m ≤ i) (hn : i < n) : source[i]? ≠ some '\n' := by
  intro hi
  refine h (List.mem_of_getElem? (i := i - m) ?_)
  rw [List.extract_eq_take_drop, List.getElem?_take_of_lt (by omega), List.getElem?_drop,
    Nat.add_sub_cancel' hm, hi]

namespace Placed

variable {source : List Char} {s s' : Span}

theorem line_eq_iff (h : Placed source s) (h' : Placed source s') (hle : s.start ≤ s'.start) :
    s.line = s'.line ↔ '\n' ∉ source.extract s.start s'.start := by
  rw [h.line, h'.line, not_mem_extract_iff hle]
  omega

theorem start_eq_of_le (h : Placed source s) (h' : Placed source s') (hle : s.start ≤ s'.start)
    (hline : s.line = s'.line) (hcolumn : s.column = s'.column) : s.start = s'.start := by
  have hbetween := (h.line_eq_iff h' hle).mp hline
  obtain ⟨m, hm, hc⟩ := h.column
  obtain ⟨m', hm', hc'⟩ := h'.column
  -- both offsets are on the line that begins at `m`
  have hmm : m = m' := by
    have hle := hm.le
    have hle' := hm'.le
    rcases Nat.lt_trichotomy m m' with hlt | heq | hlt
    · have hfeed : source[m' - 1]? = some '\n' := hm'.begins.resolve_left (by omega)
      by_cases hstart : m' ≤ s.start
      · exact absurd hfeed (not_mem_extract hm.unbroken (by omega) (by omega))
      · exact absurd hfeed (not_mem_extract hbetween (by omega) (by omega))
    · exact heq
    · have hfeed : source[m - 1]? = some '\n' := hm.begins.resolve_left (by omega)
      exact absurd hfeed (not_mem_extract hm'.unbroken (by omega) (by omega))
  have hle := hm.le
  have hle' := hm'.le
  omega

/-- A line and a column are one offset. -/
theorem start_eq (h : Placed source s) (h' : Placed source s') (hline : s.line = s'.line)
    (hcolumn : s.column = s'.column) : s.start = s'.start := by
  rcases Nat.le_total s.start s'.start with hle | hle
  · exact h.start_eq_of_le h' hle hline hcolumn
  · exact (h'.start_eq_of_le h hle hline.symm hcolumn.symm).symm

end Placed

/-! ### Names and what follows them -/

/-- A list without repeated keys is split at one place by an element with a given key. -/
theorem split_eq_of_nodup {α β : Type} {f : α → β} {front back front' back' : List α} {a a' : α}
    (hn : ((front ++ a :: back).map f).Nodup) (he : front ++ a :: back = front' ++ a' :: back')
    (hf : f a = f a') : front = front' ∧ a = a' ∧ back = back' := by
  have ha : a = a' := List.inj_on_of_nodup_map hn (by simp) (by simp [he]) hf
  have hout := (List.nodup_cons.mp (List.nodup_middle.mp hn.of_map)).1
  rw [List.mem_append, not_or, ha] at hout
  exact (List.append_cons_inj_of_notMem hout.1 hout.2).mp he

section

variable {source : List Char} {ts : List Token} {l k : Lexeme} {mark : String}

theorem starts_ascend {ls : List Lexeme} (hs : scan source = .ok ls) :
    (ls.map fun l => l.span.start).Pairwise (· < ·) := by
  have hlayout := Scan.layout_of_scanFrom hs
  have hstands : ∀ l ∈ ls, Scan.Stands source 0 l := hlayout.stands [] rfl
  refine List.pairwise_map.mpr (hlayout.increasing.2.imp_of_mem fun hl _ hle => ?_)
  exact (hstands _ hl).start_lt.2.trans_le hle

theorem tile_starts_ascend (ht : tokenize source = .ok ts) :
    ((tiles ts).map Tile.start).Pairwise (· < ·) := by
  obtain ⟨ls, hs, hn⟩ := tokenize_eq_ok.mp ht
  rw [tiles_eq_lexemes hs hn, List.map_map]
  exact starts_ascend hs

theorem mem_of_mem_lexemes {ls : List Lexeme} (hn : nest ls = .ok ts) (hl : l.kind = .ident)
    (hm : l ∈ lexemes ts) : l ∈ ls := by
  rw [lexemes_nest hn] at hm
  obtain ⟨m, hmem, hbare⟩ := List.mem_map.mp hm
  exact eq_of_bare_ident hbare hl ▸ hmem

/-- No two identifiers begin at one offset. -/
theorem ident_eq_of_start_eq (ht : tokenize source = .ok ts) (hl : l.kind = .ident)
    (hk : k.kind = .ident) (hlm : l ∈ lexemes ts) (hkm : k ∈ lexemes ts)
    (hstart : l.span.start = k.span.start) : l = k := by
  obtain ⟨ls, hs, hn⟩ := tokenize_eq_ok.mp ht
  exact List.inj_on_of_nodup_map (starts_ascend hs).nodup (mem_of_mem_lexemes hn hl hlm)
    (mem_of_mem_lexemes hn hk hkm) hstart

theorem extract_ident (ht : tokenize source = .ok ts) (hl : l.kind = .ident) (hm : l ∈ lexemes ts) :
    source.extract l.span.start l.span.stop = l.text.toList := by
  obtain ⟨ls, hs, hn⟩ := tokenize_eq_ok.mp ht
  exact ((Scan.layout_of_scanFrom hs).stands [] rfl l (mem_of_mem_lexemes hn hl hm)).extract

theorem Marked.placed {rest : List Token} (ht : tokenize source = .ok ts)
    (h : Marked ts l mark rest) : Placed source l.span ∧ ∀ t ∈ rest, Placed source t.span := by
  obtain ⟨-, span, hw⟩ := h
  have hevery : ∀ t ∈ ts, t.Every fun u => Placed source u.span :=
    fun t ht' u hu => placed_of_tokenize ht u (mem_descendants.mpr ⟨t, ht', hu⟩)
  have hplaced : ∀ t ∈ .leaf l :: .leaf ⟨.punct, mark, span⟩ :: rest, Placed source t.span :=
    fun t hmem => hw.every hevery t hmem t (mem_descendants_self t)
  exact ⟨hplaced _ List.mem_cons_self,
    fun t ht => hplaced t (List.mem_cons_of_mem _ (List.mem_cons_of_mem _ ht))⟩

/-- The tiles of a name, its mark and the token behind the mark are next to each other. -/
theorem Marked.tiles_eq {first : Token} {rest : List Token} (h : Marked ts l mark (first :: rest)) :
    ∃ front colon back, tiles ts = front ++ l.tile :: colon :: first.first :: back := by
  obtain ⟨-, span, hw⟩ := h
  obtain ⟨front, back, he⟩ := hw.tiles_eq
  obtain ⟨more, hmore⟩ := first.tiles_eq_first
  refine ⟨front, Lexeme.tile ⟨.punct, mark, span⟩, more ++ (tiles rest ++ back), ?_⟩
  simp [he, hmore, Token.tiles]

variable {first first' : Token} {rest rest' : List Token}

theorem Marked.start_lt (ht : tokenize source = .ok ts) (h : Marked ts l mark (first :: rest)) :
    l.span.start < first.span.start := by
  obtain ⟨front, colon, back, he⟩ := h.tiles_eq
  have hascend := tile_starts_ascend ht
  rw [he, List.map_append, List.map_cons] at hascend
  have hlater := (List.pairwise_cons.mp (List.pairwise_append.mp hascend).2.1).1
  rw [← first.start_first]
  exact hlater _ (by simp)

/-- The token behind a mark has one name before the mark. -/
theorem Marked.name_eq (ht : tokenize source = .ok ts) (h : Marked ts l mark (first :: rest))
    (h' : Marked ts k mark (first' :: rest')) (hstart : first.span.start = first'.span.start) :
    l = k := by
  obtain ⟨front, colon, back, he⟩ := h.tiles_eq
  obtain ⟨front', colon', back', he'⟩ := h'.tiles_eq
  have hnodup := (tile_starts_ascend ht).nodup
  have hsplit : (front ++ [l.tile, colon]) ++ first.first :: back =
      (front' ++ [k.tile, colon']) ++ first'.first :: back' := by
    simpa using he.symm.trans he'
  have hfront :=
    (split_eq_of_nodup (f := Tile.start) (by simpa [he] using hnodup) hsplit
      (by simpa using hstart)).1
  have hlast := (List.append_inj' hfront rfl).2
  have htile : l.tile = k.tile := (List.cons.inj hlast).1
  exact ident_eq_of_start_eq ht h.1 h'.1 h.mem_lexemes h'.mem_lexemes (congrArg Tile.start htile)

/-- A name has one token behind its mark. -/
theorem Marked.first_start_eq (ht : tokenize source = .ok ts) (h : Marked ts l mark (first :: rest))
    (h' : Marked ts l mark (first' :: rest')) : first.span.start = first'.span.start := by
  obtain ⟨front, colon, back, he⟩ := h.tiles_eq
  obtain ⟨front', colon', back', he'⟩ := h'.tiles_eq
  have hnodup := (tile_starts_ascend ht).nodup
  have hback :=
    (split_eq_of_nodup (f := Tile.start) (by simpa [he] using hnodup) (he.symm.trans he') rfl).2.2
  have hfirst : first.first = first'.first := (List.cons.inj (List.cons.inj hback).2).1
  simpa using congrArg Tile.start hfirst

end

namespace Diagnostic

variable {source : List Char} {ts : List Token} {d : Diagnostic} {l k : Lexeme}

/-- A diagnostic is about one identifier. -/
theorem IsAbout.eq (ht : tokenize source = .ok ts) (h : d.IsAbout ts l) (h' : d.IsAbout ts k) :
    l = k := by
  unfold IsAbout at h h'
  split at h
  · next hfinding =>
    simp only [hfinding] at h'
    obtain ⟨-, ⟨rest, hm⟩, hline, hcolumn⟩ := h
    obtain ⟨-, ⟨rest', hm'⟩, hline', hcolumn'⟩ := h'
    have hstart :=
      (hm.placed ht).1.start_eq (hm'.placed ht).1 (Int.ofNat.inj (hline.symm.trans hline'))
      (Int.ofNat.inj (hcolumn.symm.trans hcolumn'))
    exact ident_eq_of_start_eq ht hm.1 hm'.1 hm.mem_lexemes hm'.mem_lexemes hstart
  · next hfinding =>
    simp only [hfinding] at h'
    obtain ⟨-, first, rest, hm, hline, hcolumn⟩ := h
    obtain ⟨-, first', rest', hm', hline', hcolumn'⟩ := h'
    have hfirst := (hm.placed ht).2 first List.mem_cons_self
    have hstart := hfirst.start_eq ((hm'.placed ht).2 first' List.mem_cons_self)
      (Int.ofNat.inj (hline.symm.trans hline')) (Int.ofNat.inj (hcolumn.symm.trans hcolumn'))
    exact hm.name_eq ht hm' hstart
  · exact absurd h id

theorem IsAbout.eq_iff (ht : tokenize source = .ok ts) (h : d.IsAbout ts l) (k : Lexeme) :
    d.IsAbout ts k ↔ k = l := by
  constructor
  · intro hk
    exact hk.eq ht h
  · rintro rfl
    exact h

/-- The diagnostic is about a child property, and its value begins on a later line than its name. -/
def Strays (source : List Char) (ts : List Token) (d : Diagnostic) (l : Lexeme) : Prop :=
  match d.finding with
  | .unknownChildProperty _ _ _ =>
    ∃ first rest, Marked ts l ":" (first :: rest) ∧
      '\n' ∈ source.extract l.span.start first.span.start
  | _ => False

/-- A diagnostic has the line of what it is about, unless it is about a child property with its
value on a later line. -/
theorem IsAbout.line_eq_iff (ht : tokenize source = .ok ts) (h : d.IsAbout ts l) :
    d.line = l.span.line ↔ ¬ d.Strays source ts l := by
  unfold IsAbout at h
  unfold Strays
  split at h
  · next hfinding => simp [hfinding, h.2.2.1]
  · next hfinding =>
    obtain ⟨-, first, rest, hm, hline, -⟩ := h
    obtain ⟨hname, hrest⟩ := hm.placed ht
    have hafter := (hm.start_lt ht).le
    rw [hline, Int.natCast_inj, eq_comm, hname.line_eq_iff (hrest first List.mem_cons_self) hafter]
    simp only [hfinding, not_exists, not_and]
    constructor
    · intro hout first' rest' hm'
      rwa [hm'.first_start_eq ht hm]
    · intro hall
      exact hall first rest hm
  · exact absurd h id

end Diagnostic

/-- A fix is for one identifier of the source, the one that its diagnostic is about, and this
identifier reads like the old text. The fix points at the line of the identifier, unless the
identifier names a child property and the value begins on a later line. -/
theorem fix_line_iff {fs : FileSystem} {base : Pathname} {source : List Char} {st st' : Session}
    {ts : List Token} {v : View} {d : Diagnostic} {f : Fix} (ht : tokenize source = .ok ts)
    (hn : Source.fileName? ts = none) (hv : Source.viewOfText fs base source st = (.ok v, st'))
    (hd : d ∈ (validate v).errors ++ (validate v).warnings) (hf : d.fix = some f) :
    ∃ l, (∀ k, d.IsAbout ts k ↔ k = l) ∧ l.kind = .ident ∧ Placed source l.span ∧
      source.extract l.span.start l.span.stop = l.text.toList ∧ f.oldText = l.text ∧
      (f.line = l.span.line ↔ ¬ d.Strays source ts l) := by
  have hr := Parse.root_readFrom (Source.root_of_viewOfText ht hn hv)
  obtain ⟨l, habout, hold, hline⟩ := validate_sourced hr d hd f hf
  obtain ⟨mark, rest, hm⟩ := habout.marked
  refine ⟨l, habout.eq_iff ht, hm.1, (hm.placed ht).1, extract_ident ht hm.1 hm.mem_lexemes, hold,
    ?_⟩
  rw [hline]
  exact habout.line_eq_iff ht

/-- A target on a later line than its signal. -/
theorem fix_line_of_target :
    let source := "Row \x7b tick =>\n clok@Tick, #[name=\"clock\"] Clock \x7d".toList
    let f : Fix := ⟨"clok", "clock", 2⟩
    ∃ ts v st, ∃ l : Lexeme, tokenize source = .ok ts ∧
      Source.viewOfText {} {} source {} = (.ok v, st) ∧ f ∈ (validate v).fixes ∧
      l.kind = .ident ∧ l.text = "clok" ∧ l.span.line = 2 := by
  intro source f
  let d : Diagnostic := ⟨.error, .unknownTarget "tick" "_row1" "clok" (some f), 2, 2, some f⟩
  obtain ⟨ts, ht, hn⟩ : ∃ ts, tokenize source = .ok ts ∧ (Source.fileName? ts).isNone = true :=
    exists_ok_of_any (by decide +kernel)
  obtain ⟨v, hv, hd⟩ : ∃ v, (Source.viewOfText {} {} source {}).1 = .ok v ∧
      decide (d ∈ (validate v).errors ++ (validate v).warnings) = true :=
    exists_ok_of_any (by decide +kernel)
  have hview : Source.viewOfText {} {} source {} =
      (.ok v, (Source.viewOfText {} {} source {}).2) := by rw [← hv]
  have hmem := of_decide_eq_true hd
  obtain ⟨l, -, hl, -, -, hold, hline⟩ :=
    fix_line_iff ht (Option.isNone_iff_eq_none.mp hn) hview hmem rfl
  exact ⟨ts, v, _, l, ht, hview, List.mem_filterMap.mpr ⟨d, hmem, rfl⟩, hl, hold.symm,
    (Int.ofNat.inj (hline.mpr id)).symm⟩

/-- A child property with its value on the next line: the fix points at the line of the value. -/
theorem fix_line_misses_property :
    let source := "gtk::Label \x7b child: \x7b expnd:\n true \x7d \x7d".toList
    let f : Fix := ⟨"expnd", "expand", 2⟩
    let d : Diagnostic :=
      ⟨.warning, .unknownChildProperty "expnd" "label1" (some f), 2, 2, some f⟩
    ∃ ts v st, tokenize source = .ok ts ∧ Source.fileName? ts = none ∧
      Source.viewOfText {} {} source {} = (.ok v, st) ∧
      d ∈ (validate v).errors ++ (validate v).warnings ∧
      ∃ l, d.IsAbout ts l ∧ l.span.line = 1 ∧ f.line ≠ l.span.line := by
  intro source f d
  obtain ⟨ts, ht, hts⟩ := exists_ok_of_any (x := tokenize source)
    (p := fun ts => decide (Source.fileName? ts = none ∧
      ∀ l ∈ lexemes ts, l.text = "expnd" → l.span.line = 1)) (by decide +kernel)
  obtain ⟨hn, hfirst⟩ := of_decide_eq_true hts
  obtain ⟨v, hv, hd⟩ := exists_ok_of_any (x := (Source.viewOfText {} {} source {}).1)
    (p := fun v => decide (d ∈ (validate v).errors ++ (validate v).warnings)) (by decide +kernel)
  have hview : Source.viewOfText {} {} source {} =
      (.ok v, (Source.viewOfText {} {} source {}).2) := by rw [← hv]
  have hmem := of_decide_eq_true hd
  obtain ⟨l, habout, hold, -⟩ :=
    validate_sourced (Parse.root_readFrom (Source.root_of_viewOfText ht hn hview)) d hmem f rfl
  obtain ⟨mark, rest, hm⟩ := habout.marked
  have hline := hfirst l hm.mem_lexemes hold.symm
  refine ⟨ts, v, _, ht, hn, hview, hmem, l, habout, hline, ?_⟩
  rw [hline]
  decide

end WidgetView
