import WidgetView.Proofs.Renaming

/-!
# The layout of a source

The layout of a source. Its lexemes stand one after another, and what is left over before, between
and after them is blank: spaces, tabs, line ends and whole comments. The token trees keep the
stretch of every lexeme, delimiters included, and the line and the column at which it starts.
-/
namespace WidgetView

/-- Blanks and comments, with a text behind them. A line comment reaches up to a line feed or the
end of the whole, a block comment up to the first `*/`. -/
inductive Filler (rest : List Char) : List Char → Prop where
  | nil : Filler rest []
  | blank {c : Char} {cs : List Char} (hc : c = ' ' ∨ c = '\t' ∨ c = '\r' ∨ c = '\n')
      (h : Filler rest cs) : Filler rest (c :: cs)
  | line {body cs : List Char} (hbody : '\n' ∉ body) (hend : ∀ c ∈ (cs ++ rest).head?, c = '\n')
      (h : Filler rest cs) : Filler rest ('/' :: '/' :: (body ++ cs))
  | block {body cs : List Char} (hbody : ¬['*', '/'] <:+: body ++ ['*']) (h : Filler rest cs) :
      Filler rest ('/' :: '*' :: (body ++ '*' :: '/' :: cs))

namespace Scan

/-! ### Lengths -/

theorem length_takeWhile_le (p : Char → Bool) (cs : List Char) :
    (cs.takeWhile p).length ≤ cs.length :=
  (List.takeWhile_prefix p).length_le

theorem numberLength_le (cs : List Char) : numberLength cs ≤ cs.length := by
  have hle : identLength cs ≤ cs.length := length_takeWhile_le isIdentChar cs
  unfold numberLength
  split
  · next d ds hd =>
    have hlen := congrArg List.length hd
    have hds : identLength ds ≤ ds.length := length_takeWhile_le isIdentChar ds
    simp only [List.length_drop, List.length_cons] at hlen
    split <;> omega
  · exact hle

theorem stringLength_le {raw : Bool} {cs : List Char} {n : Nat} (h : stringLength raw cs = .ok n) :
    n ≤ cs.length := by
  fun_induction stringLength raw cs generalizing n with
  | case1 => cases h
  | case2 cs =>
    obtain rfl := Except.ok.inj h
    simp
  | case3 => cases h
  | case4 c cs _ ih =>
    obtain ⟨m, hm, rfl⟩ := map_add_eq_ok h
    have := ih hm
    simp only [List.length_cons] at *
    omega
  | case5 c cs _ ih =>
    obtain ⟨m, hm, rfl⟩ := map_add_eq_ok h
    have := ih hm
    simp only [List.length_cons]
    omega
  | case6 c cs _ _ _ ih =>
    obtain ⟨m, hm, rfl⟩ := map_add_eq_ok h
    have := ih hm
    simp only [List.length_cons]
    omega

theorem quoteLength_le {cs : List Char} {k : Kind} {n : Nat} (h : quoteLength cs = .ok (k, n)) :
    n ≤ cs.length := by
  rcases quoteLength_eq_ok h with ⟨c, rest, rfl, -, rfl⟩ | ⟨c, rest, rfl, -, -, -, rfl⟩ |
    ⟨c, rest, rfl, -, -, -, rfl⟩
  · simp
  · simp
  · have hle : identLength rest ≤ rest.length := length_takeWhile_le isIdentChar rest
    simp only [List.length_cons]
    omega

theorem length_le_of_lexes {c : Char} {cs : List Char} {k : Kind} {n : Nat} (h : Lexes c cs k n) :
    n ≤ cs.length := by
  cases h with
  | delimiter _ => exact Nat.zero_le _
  | @string m n raw _ _ hn =>
    have hle := stringLength_le hn
    have hpos := pos_of_stringLength hn
    rw [List.length_drop] at hle
    omega
  | quote _ _ hn => exact quoteLength_le hn
  | number _ _ _ _ => exact numberLength_le cs
  | ident _ _ _ _ _ => exact length_takeWhile_le isIdentChar cs
  | mark _ _ _ _ _ hn =>
    obtain ⟨-, rfl | ⟨rfl, d, ds, rfl, -⟩⟩ := markLength_eq_ok hn
    · exact Nat.zero_le _
    · simp

/-! ### Fillers -/

theorem isBlank_iff {c : Char} : isBlank c = true ↔ c = ' ' ∨ c = '\t' ∨ c = '\r' ∨ c = '\n' := by
  simp [isBlank, or_assoc]

/-- A block comment ends with the first `*/` in it. -/
theorem commentLength_eq_some {cs : List Char} {n : Nat} (h : commentLength cs = some n) :
    ∃ body, cs.take n = body ++ ['*', '/'] ∧ ¬['*', '/'] <:+: body ++ ['*'] := by
  fun_induction commentLength cs generalizing n with
  | case1 => cases h
  | case2 cs =>
    obtain rfl := Option.some.inj h
    exact ⟨[], rfl, by decide⟩
  | case3 c cs hend ih =>
    obtain ⟨m, hm, rfl⟩ := Option.map_eq_some_iff.mp h
    obtain ⟨body, htake, hbody⟩ := ih hm
    refine ⟨c :: body, by rw [List.take_succ_cons, htake]; rfl, ?_⟩
    intro hin
    rcases List.infix_cons_iff.mp hin with hpre | hin
    · obtain ⟨hc, hnext⟩ := List.cons_prefix_cons.mp hpre
      cases body with
      | nil => exact absurd hnext (by decide)
      | cons d body =>
        obtain ⟨rfl, -⟩ := List.cons_prefix_cons.mp hnext
        have hcs := List.take_append_drop m cs
        rw [htake] at hcs
        exact hend _ hc.symm hcs.symm
    · exact hbody hin

/-- A blank piece in front of a filler is one with it. -/
theorem filler_of_scanPiece {c : Char} {cs skip rest : List Char} {n : Nat}
    (h : scanPiece c cs = .ok (none, n)) (hcs : cs.drop n = skip ++ rest) (hs : Filler rest skip) :
    Filler rest (c :: cs.take n ++ skip) := by
  rcases scanPiece_eq_ok_iff.mp h with ⟨hb, -, rfl⟩ | ⟨rfl, -, ⟨ds, rfl⟩, rfl⟩ |
    ⟨rfl, -, ds, m, rfl, hm, rfl⟩ | ⟨-, -, k, hk, -⟩
  · exact .blank (isBlank_iff.mp hb) hs
  · have hstep : (('/' :: ds).takeWhile (· ≠ '\n')).length =
        (ds.takeWhile (· ≠ '\n')).length + 1 := by
      simp
    rw [hstep, List.drop_succ_cons, Pattern.drop_takeWhile_length] at hcs
    rw [hstep, List.take_succ_cons, ← List.prefix_iff_eq_take.mp (List.takeWhile_prefix _)]
    refine .line (fun hin => ?_) ?_ hs
    · have hne := List.all_eq_true.mp List.all_takeWhile _ hin
      simp at hne
    · intro d hd
      have hnot := List.head?_dropWhile_not (fun x : Char => decide (x ≠ '\n')) ds
      rw [hcs, Option.mem_def.mp hd] at hnot
      simpa using hnot
  · obtain ⟨body, htake, hbody⟩ := commentLength_eq_some hm
    rw [Nat.add_comm, List.take_succ_cons, htake]
    simpa using Filler.block hbody hs
  · cases hk

/-- A text that starts at a place, taken apart: before every lexeme and after the last one stands
filler, and a lexeme is what the scanner takes where it stands. -/
inductive Layout : Place → List Char → List Lexeme → Prop where
  | done {p : Place} {cs : List Char} (h : Filler [] cs) : Layout p cs []
  | lexeme {p : Place} {skip : List Char} {c : Char} {cs rest : List Char} {k : Kind}
      {ls : List Lexeme} (hskip : Filler (c :: (cs ++ rest)) skip)
      (hpiece : scanPiece c (cs ++ rest) = .ok (some k, cs.length))
      (h : Layout (p.after (skip ++ c :: cs)) rest ls) :
      Layout p (skip ++ c :: (cs ++ rest))
        (⟨k, String.ofList (c :: cs), (p.after skip).spanTo (p.after (skip ++ c :: cs))⟩ :: ls)

/-- A blank piece goes to the filler of what follows. -/
theorem Layout.blank {p : Place} {c : Char} {cs : List Char} {n : Nat} {ls : List Lexeme}
    (hp : scanPiece c cs = .ok (none, n)) (h : Layout (p.after (c :: cs.take n)) (cs.drop n) ls) :
    Layout p (c :: cs) ls := by
  have hsplit : c :: cs = c :: cs.take n ++ cs.drop n := by
    rw [List.cons_append, List.take_append_drop]
  generalize hrest : cs.drop n = rest at h hsplit
  rw [hsplit]
  cases h with
  | done h =>
    have hfill := filler_of_scanPiece hp (by rw [hrest, List.append_nil]) h
    exact .done hfill
  | @lexeme _ skip d ds more k ls hskip hpiece h =>
    have hfill := filler_of_scanPiece hp hrest hskip
    rw [← Place.after_append, ← List.append_assoc] at h
    have hlex := Layout.lexeme hfill hpiece h
    rwa [Place.after_append, List.append_assoc, List.append_assoc, Place.after_append] at hlex

/-- Every text that can be scanned is laid out into its lexemes. -/
theorem layout_of_scanFrom {p : Place} {cs : List Char} {ls : List Lexeme}
    (h : scanFrom p cs = .ok ls) : Layout p cs ls := by
  -- a blank piece joins the filler in front of the next lexeme, which starts a stretch of its own
  refine scanFrom_induction (motive := Layout) ?_ ?_ p cs ls h
  · intro p
    exact .done .nil
  · intro p c cs k? n rest hp _ ih
    cases k? with
    | none => exact ih.blank hp
    | some k =>
      have hle : (cs.take n).length = n := by
        obtain ⟨-, -, hl⟩ := scanPiece_eq_lexeme_iff.mp hp
        simpa using length_le_of_lexes hl
      have hpiece : scanPiece c (cs.take n ++ cs.drop n) = .ok (some k, (cs.take n).length) := by
        rw [List.take_append_drop, hle]
        exact hp
      have hlex := Layout.lexeme (p := p) .nil hpiece ih
      rwa [List.nil_append, List.take_append_drop] at hlex

/-- Where a lexeme stands in a text: between what is before it and what is after it. -/
def Stands (source : List Char) (n : Nat) (l : Lexeme) : Prop :=
  l.text.toList ≠ [] ∧ ∃ front rest, source = front ++ (l.text.toList ++ rest) ∧ n ≤ front.length ∧
    l.span = (({} : Place).after front).spanTo (({} : Place).after (front ++ l.text.toList))

theorem stop_spanTo_after (p : Place) (cs : List Char) :
    (p.spanTo (p.after cs)).stop = (p.spanTo (p.after cs)).start + cs.length := by
  simp [Place.spanTo]

/-- Every lexeme stands where its span says. -/
theorem Layout.stands {cs : List Char} {p : Place} {ls : List Lexeme} (h : Layout p cs ls)
    (before : List Char) (hp : p = ({} : Place).after before) :
    ∀ l ∈ ls, Stands (before ++ cs) before.length l := by
  induction h generalizing before with
  | done _ => simp
  | @lexeme p skip c cs rest k ls _ _ _ ih =>
    subst hp
    intro l hl
    rcases List.mem_cons.mp hl with rfl | hl
    · refine ⟨by simp, before ++ skip, rest, by simp, by simp, ?_⟩
      simp only [String.toList_ofList, Place.after_append]
    · obtain ⟨hne, front, more, hsplit, hle, hspan⟩ :=
        ih (before ++ (skip ++ c :: cs)) (by simp only [Place.after_append]) l hl
      refine ⟨hne, front, more, ?_, ?_, hspan⟩
      · rw [← hsplit]
        simp
      · simp only [List.length_append] at hle
        omega

end Scan

/-! ### Tiles -/

/-- A lexeme of a text, or a delimiter of a group, with the stretch that it takes. -/
structure Tile where
  kind : Kind
  text : String
  start : Nat
  stop : Nat
  deriving DecidableEq, Repr

def Lexeme.tile (l : Lexeme) : Tile := ⟨l.kind, l.text, l.span.start, l.span.stop⟩

def Delimiter.openingTile (d : Delimiter) (start : Nat) : Tile :=
  ⟨.punct, String.ofList [d.opening], start, start + 1⟩

def Delimiter.closingTile (d : Delimiter) (stop : Nat) : Tile :=
  ⟨.punct, String.ofList [d.closing], stop - 1, stop⟩

mutual

/-- The tiles of token trees in order: their leaves, and the delimiters of their groups. -/
def Token.tiles : Token → List Tile
  | .leaf l => [l.tile]
  | .group d cs s => d.openingTile s.start :: (tiles cs ++ [d.closingTile s.stop])

def tiles : List Token → List Tile
  | [] => []
  | t :: ts => t.tiles ++ tiles ts

end

@[simp] theorem tiles_nil : tiles [] = [] := rfl

@[simp] theorem tiles_cons (t : Token) (ts : List Token) : tiles (t :: ts) = t.tiles ++ tiles ts :=
  rfl

@[simp] theorem tiles_append (ts us : List Token) : tiles (ts ++ us) = tiles ts ++ tiles us := by
  induction ts with
  | nil => rfl
  | cons t ts ih => rw [List.cons_append, tiles_cons, tiles_cons, ih, List.append_assoc]

/-- The span of a lexeme is as wide as its text. -/
def Lexeme.Measured (l : Lexeme) : Prop := l.span.stop = l.span.start + l.text.toList.length

theorem Scan.Stands.measured {source : List Char} {n : Nat} {l : Lexeme} (h : Stands source n l) :
    l.Measured := by
  obtain ⟨-, front, rest, -, -, hspan⟩ := h
  rw [Lexeme.Measured, hspan, Place.after_append, stop_spanTo_after]

theorem mem_descendants {t : Token} {ts : List Token} :
    t ∈ descendants ts ↔ ∃ u ∈ ts, t ∈ u.descendants := by
  induction ts with
  | nil => simp [descendants]
  | cons u ts ih => simp [descendants, ih]

theorem mem_descendants_self (t : Token) : t ∈ t.descendants := by
  cases t with
  | leaf l => exact List.mem_singleton_self _
  | group d cs s => exact List.mem_cons_self

theorem mem_descendants_of_mem {t : Token} {ts : List Token} (h : t ∈ ts) : t ∈ descendants ts :=
  mem_descendants.mpr ⟨t, h, mem_descendants_self t⟩

/-- What stands in a group stands among the tokens that the group is one of. -/
theorem descendants_group_subset {d : Delimiter} {cs ts : List Token} {s : Span}
    (h : .group d cs s ∈ ts) : descendants cs ⊆ descendants ts := by
  intro t ht
  refine mem_descendants.mpr ⟨_, h, ?_⟩
  rw [Token.descendants]
  exact List.mem_cons_of_mem _ ht

/-- A token and every token inside it have a property. -/
def Token.Every (P : Token → Prop) (t : Token) : Prop := ∀ u ∈ t.descendants, P u

theorem Token.every_leaf {P : Token → Prop} {l : Lexeme} :
    (Token.leaf l).Every P ↔ P (.leaf l) := by
  simp [Token.Every, Token.descendants]

theorem Token.every_group {P : Token → Prop} {d : Delimiter} {cs : List Token} {s : Span} :
    (Token.group d cs s).Every P ↔ P (.group d cs s) ∧ ∀ u ∈ cs, u.Every P := by
  constructor
  · intro h
    refine ⟨h (.group d cs s) (by simp [Token.descendants]), fun u hu t ht => h t ?_⟩
    rw [Token.descendants]
    exact List.mem_cons_of_mem _ (mem_descendants.mpr ⟨u, hu, ht⟩)
  · rintro ⟨hs, hcs⟩ t ht
    rw [Token.descendants] at ht
    rcases List.mem_cons.mp ht with rfl | ht
    · exact hs
    · obtain ⟨u, hu, ht⟩ := mem_descendants.mp ht
      exact hcs u hu t ht

namespace Nest

theorem tile_of_bracket? {l : Lexeme} {b : Bracket} (h : l.bracket? = some b) (hm : l.Measured) :
    l.tile = ⟨.punct, String.ofList [b.char], l.span.start, l.span.start + 1⟩ := by
  obtain ⟨hk, ht⟩ : l.kind = .punct ∧ l.text = String.ofList [b.char] := by
    simpa [Scan.unplaced, markOf] using eq_of_bracket? h
  have hstop : l.span.stop = l.span.start + 1 := by
    rw [hm, ht]
    simp
  rw [Lexeme.tile, hk, ht, hstop]

theorem tile_opening {l : Lexeme} {d : Delimiter} (h : l.bracket? = some (.opening d))
    (hm : l.Measured) :
    l.tile = d.openingTile l.span.start := tile_of_bracket? h hm

theorem tile_closing {l : Lexeme} {d : Delimiter} (h : l.bracket? = some (.closing d))
    (hm : l.Measured) : l.tile = d.closingTile l.span.stop := by
  have hl := tile_of_bracket? h hm
  have hstop : l.span.stop = l.span.start + 1 := congrArg Tile.stop hl
  rw [hl, Delimiter.closingTile, hstop, Nat.add_sub_cancel]
  rfl

/-- Nesting keeps every tile where it is. -/
theorem Nests.tiles_eq {ls : List Lexeme} {ts : List Token} (h : Nests ls ts)
    (hm : ∀ l ∈ ls, l.Measured) : tiles ts = ls.map Lexeme.tile := by
  induction h with
  | nil => rfl
  | leaf _ _ ih =>
    obtain ⟨-, hls⟩ := List.forall_mem_cons.mp hm
    rw [tiles_cons, Token.tiles, ih hls, List.map_cons, List.singleton_append]
  | group ho hc _ _ ihi ihr =>
    obtain ⟨hmo, hm⟩ := List.forall_mem_cons.mp hm
    obtain ⟨hinner, hm⟩ := List.forall_mem_append.mp hm
    obtain ⟨hmc, hrest⟩ := List.forall_mem_cons.mp hm
    rw [tiles_cons, Token.tiles, ihi hinner, ihr hrest, List.map_cons,
      List.map_append, List.map_cons,
      tile_opening ho hmo, tile_closing hc hmc, List.cons_append, List.append_assoc,
      List.singleton_append]

/-- A property of the groups that lexemes open, and of the leaves that they make unless they are
delimiters, is one of all tokens. -/
theorem Nests.every {P : Token → Prop} {ls : List Lexeme} {ts : List Token} (h : Nests ls ts)
    (hgroup : ∀ l ∈ ls, ∀ d cs n, P (.group d cs { l.span with stop := n }))
    (hleaf : ∀ l ∈ ls, l.bracket? = none → P (.leaf l)) : ∀ u ∈ ts, u.Every P := by
  induction h with
  | nil => simp
  | leaf hl _ ih =>
    obtain ⟨-, hgroup⟩ := List.forall_mem_cons.mp hgroup
    obtain ⟨hll, hleaf⟩ := List.forall_mem_cons.mp hleaf
    exact List.forall_mem_cons.mpr ⟨Token.every_leaf.mpr (hll hl), ih hgroup hleaf⟩
  | group _ _ _ _ ihi ihr =>
    obtain ⟨hgo, hgroup⟩ := List.forall_mem_cons.mp hgroup
    obtain ⟨hgi, hgroup⟩ := List.forall_mem_append.mp hgroup
    obtain ⟨-, hleaf⟩ := List.forall_mem_cons.mp hleaf
    obtain ⟨hli, hleaf⟩ := List.forall_mem_append.mp hleaf
    refine List.forall_mem_cons.mpr ⟨Token.every_group.mpr ⟨hgo _ _ _, ihi hgi hli⟩, ?_⟩
    exact ihr (List.forall_mem_cons.mp hgroup).2 (List.forall_mem_cons.mp hleaf).2

end Nest

/-- The tiles of a source are its lexemes. -/
theorem tiles_eq_lexemes {source : List Char} {ls : List Lexeme} {ts : List Token}
    (hs : scan source = .ok ls) (hn : nest ls = .ok ts) : tiles ts = ls.map Lexeme.tile :=
  (nest_eq_ok_iff.mp hn).tiles_eq fun l hl =>
    ((Scan.layout_of_scanFrom hs).stands [] rfl l hl).measured

/-! ### A source and its tiles -/

/-- The stretches that some tiles leave over between two offsets. -/
def gaps (start stop : Nat) : List Tile → List (Nat × Nat)
  | [] => [(start, stop)]
  | t :: ts => (start, t.start) :: gaps t.stop stop ts

/-- The line that holds an offset begins at another one: at the start of the text, or just after a
line feed that none follows up to the offset. -/
structure LineStart (source : List Char) (m n : Nat) : Prop where
  le : m ≤ n
  begins : m = 0 ∨ source[m - 1]? = some '\n'
  unbroken : '\n' ∉ source.extract m n

/-- What the line and the column of a span say about its first character. -/
structure Placed (source : List Char) (s : Span) : Prop where
  line : s.line = 1 + (source.take s.start).count '\n'
  column : ∃ m, LineStart source m s.start ∧ s.column = s.start - m + 1

/-- Token trees that tile a source. -/
structure Tiling (source : List Char) (ts : List Token) : Prop where
  nonempty : ∀ t ∈ tiles ts, t.start < t.stop
  increasing : (tiles ts).Pairwise fun t u => t.stop ≤ u.start
  text : ∀ t ∈ tiles ts, source.extract t.start t.stop = t.text.toList
  filler : ∀ g ∈ gaps 0 source.length (tiles ts),
    Filler (source.drop g.2) (source.extract g.1 g.2)
  groups : ∀ d cs s, .group d cs s ∈ descendants ts →
    source.extract s.start (s.start + 1) = [d.opening] ∧
      source.extract (s.stop - 1) s.stop = [d.closing] ∧ s.start + 1 ≤ s.stop - 1 ∧
      ∀ t ∈ cs, s.start + 1 ≤ t.span.start ∧ t.span.stop ≤ s.stop - 1
  places : ∀ t ∈ descendants ts, Placed source t.span

theorem extract_append_left {m : Nat} {front : List Char} (h : m ≤ front.length)
    (rest : List Char) : (front ++ rest).extract m front.length = front.drop m := by
  rw [List.extract_eq_take_drop, List.drop_append_of_le_length h]
  simp

/-- The column after a text counts from the start of the last line of the text. -/
theorem lineStart_after (front rest : List Char) :
    ∃ m, LineStart (front ++ rest) m front.length ∧
      (({} : Place).after front).column = front.length - m + 1 := by
  -- from the right, since the last character says whether the last line goes on
  induction front using List.reverseRecOn generalizing rest with
  | nil => exact ⟨0, ⟨Nat.le_refl 0, .inl rfl, by simp⟩, rfl⟩
  | append_singleton front c ih =>
    obtain ⟨m, ⟨hle, hbegins, hunbroken⟩, hcolumn⟩ := ih (c :: rest)
    have hlength : (front ++ [c]).length = front.length + 1 := by simp
    rw [Place.after_append]
    by_cases hc : c = '\n'
    · refine ⟨front.length + 1, ⟨by omega, .inr ?_, ?_⟩, ?_⟩
      · simp [hc]
      · rw [← hlength, extract_append_left (Nat.le_refl _)]
        simp
      · simp [Place.next, hc]
    · have hle' : m ≤ (front ++ [c]).length := by omega
      refine ⟨m, ⟨hle', by simpa using hbegins, ?_⟩, ?_⟩
      · rw [extract_append_left hle] at hunbroken
        rw [extract_append_left hle', List.drop_append_of_le_length hle]
        simp [hunbroken, Ne.symm hc]
      · simp [Place.next, hc, hcolumn]
        omega

namespace Scan

theorem Stands.placed {source : List Char} {n : Nat} {l : Lexeme} (h : Stands source n l) :
    Placed source l.span := by
  obtain ⟨-, front, rest, rfl, -, hspan⟩ := h
  obtain ⟨m, hline, hcolumn⟩ := lineStart_after front (l.text.toList ++ rest)
  have hstart : l.span.start = front.length := by simp [hspan, Place.spanTo]
  refine ⟨?_, m, ?_, ?_⟩
  · rw [hstart, List.take_left, hspan, Place.spanTo, Place.line_after]
  · rw [hstart]
    exact hline
  · rw [hstart, hspan, Place.spanTo, hcolumn]

theorem Stands.extract {source : List Char} {n : Nat} {l : Lexeme} (h : Stands source n l) :
    source.extract l.span.start l.span.stop = l.text.toList := by
  obtain ⟨-, front, rest, rfl, -, hspan⟩ := h
  simp [hspan, Place.spanTo]

theorem Stands.start_lt {source : List Char} {n : Nat} {l : Lexeme} (h : Stands source n l) :
    n ≤ l.span.start ∧ l.span.start < l.span.stop := by
  have hmeasured := h.measured
  obtain ⟨hne, front, rest, rfl, hle, hspan⟩ := h
  have hstart : l.span.start = front.length := by simp [hspan, Place.spanTo]
  have hpos := List.length_pos_of_ne_nil hne
  rw [Lexeme.Measured] at hmeasured
  omega

theorem extract_middle (front mid rest : List Char) :
    (front ++ (mid ++ rest)).extract front.length (front.length + mid.length) = mid := by
  simp

/-- One lexeme ends before the next begins. -/
theorem Layout.increasing {p : Place} {cs : List Char} {ls : List Lexeme} (h : Layout p cs ls) :
    (∀ l ∈ ls, p.offset ≤ l.span.start) ∧ ls.Pairwise fun l m => l.span.stop ≤ m.span.start := by
  induction h with
  | done _ => exact ⟨by simp, List.Pairwise.nil⟩
  | @lexeme p skip c cs rest k ls _ _ _ ih =>
    obtain ⟨hstart, hpair⟩ := ih
    refine ⟨List.forall_mem_cons.mpr ⟨by simp [Place.spanTo], ?_⟩,
      List.pairwise_cons.mpr ⟨hstart, hpair⟩⟩
    intro l hl
    have hle := hstart l hl
    rw [Place.offset_after] at hle
    omega

/-- What the lexemes leave over is filler. -/
theorem Layout.filler {cs : List Char} {p : Place} {ls : List Lexeme} (h : Layout p cs ls)
    (before : List Char) (hp : p.offset = before.length) :
    ∀ g ∈ gaps p.offset (before ++ cs).length (ls.map Lexeme.tile),
      Filler ((before ++ cs).drop g.2) ((before ++ cs).extract g.1 g.2) := by
  induction h generalizing before with
  | @done p cs h =>
    intro g hg
    obtain rfl := List.mem_singleton.mp hg
    have hextract := extract_middle before cs []
    rw [List.append_nil, ← List.length_append] at hextract
    rw [hp, hextract, List.drop_length]
    exact h
  | @lexeme p skip c cs rest k ls hskip _ _ ih =>
    rw [List.map_cons, gaps]
    intro g hg
    rcases List.mem_cons.mp hg with rfl | hg
    · have hstart : (p.after skip).offset = before.length + skip.length := by simp [hp]
      have hdrop : (before ++ (skip ++ c :: (cs ++ rest))).drop (before.length + skip.length) =
          c :: (cs ++ rest) := by
        rw [← List.append_assoc, ← List.length_append, List.drop_left]
      change Filler (List.drop (p.after skip).offset _)
        (List.extract _ p.offset (p.after skip).offset)
      rw [hstart, hp, extract_middle, hdrop]
      exact hskip
    · have hsplit : before ++ (skip ++ c :: cs) ++ rest = before ++
          (skip ++ c :: (cs ++ rest)) := by
        simp
      have hrest := ih (before ++ (skip ++ c :: cs)) (by simp [hp]; omega)
      rw [hsplit] at hrest
      exact hrest g hg

end Scan

/-- The tile that a token starts with. -/
def Token.first : Token → Tile
  | .leaf l => l.tile
  | .group d _ s => d.openingTile s.start

/-- The tile that a token ends with. -/
def Token.last : Token → Tile
  | .leaf l => l.tile
  | .group d _ s => d.closingTile s.stop

@[simp] theorem Token.start_first (t : Token) : t.first.start = t.span.start := by cases t <;> rfl

@[simp] theorem Token.stop_last (t : Token) : t.last.stop = t.span.stop := by cases t <;> rfl

theorem Token.tiles_eq_first (t : Token) : ∃ more, t.tiles = t.first :: more := by
  cases t with
  | leaf l => exact ⟨[], rfl⟩
  | group d cs s => exact ⟨_, rfl⟩

theorem Token.tiles_eq_last (t : Token) : ∃ front, t.tiles = front ++ [t.last] := by
  cases t with
  | leaf l => exact ⟨[], rfl⟩
  | group d cs s => exact ⟨d.openingTile s.start :: WidgetView.tiles cs, rfl⟩

mutual

/-- The tiles of a part are a stretch of the tiles of the whole. -/
theorem Token.tiles_stretch {t u : Token} (h : u ∈ t.descendants) : u.tiles <:+: t.tiles := by
  match t, h with
  | .leaf l, h =>
    obtain rfl := List.mem_singleton.mp h
    exact List.infix_rfl
  | .group d cs s, h =>
    rw [Token.descendants] at h
    rcases List.mem_cons.mp h with rfl | h
    · exact List.infix_rfl
    · exact (tiles_stretch h).trans
        ⟨[d.openingTile s.start], [d.closingTile s.stop], by simp [Token.tiles]⟩

theorem tiles_stretch {ts : List Token} {u : Token} (h : u ∈ descendants ts) :
    u.tiles <:+: tiles ts := by
  match ts, h with
  | t :: ts, h =>
    rw [descendants] at h
    rcases List.mem_append.mp h with h | h
    · exact (Token.tiles_stretch h).trans ⟨[], tiles ts, by simp⟩
    · exact (tiles_stretch h).trans ⟨t.tiles, [], by simp⟩

end

theorem tiles_sublist_of_mem {t : Token} {ts : List Token} (h : t ∈ ts) :
    t.tiles.Sublist (tiles ts) := by
  obtain ⟨front, back, rfl⟩ := List.append_of_mem h
  rw [tiles_append, tiles_cons]
  exact (List.sublist_append_left _ _).trans (List.sublist_append_right _ _)

/-- A group takes the stretch from its opening delimiter to its closing one, and its children stand
in between. -/
theorem group_bounds {d : Delimiter} {cs : List Token} {s : Span}
    (h : (Token.group d cs s).tiles.Pairwise fun t u => t.stop ≤ u.start) :
    s.start + 1 ≤ s.stop - 1 ∧ ∀ t ∈ cs, s.start + 1 ≤ t.span.start ∧ t.span.stop ≤ s.stop - 1 := by
  rw [Token.tiles, List.pairwise_cons] at h
  obtain ⟨hopen, hrest⟩ := h
  obtain ⟨-, -, hclose⟩ := List.pairwise_append.mp hrest
  refine ⟨hopen (d.closingTile s.stop) (by simp), fun t ht => ?_⟩
  have hsub := tiles_sublist_of_mem ht
  obtain ⟨more, hfirst⟩ := t.tiles_eq_first
  obtain ⟨front, hlast⟩ := t.tiles_eq_last
  have hle := hopen t.first (List.mem_append_left _ (hsub.subset (by simp [hfirst])))
  have hge := hclose t.last (hsub.subset (by simp [hlast])) _ (List.mem_singleton_self _)
  rw [Token.start_first] at hle
  rw [Token.stop_last] at hge
  exact ⟨hle, hge⟩

/-- A token is at the line and the column that its span says. -/
theorem placed_of_tokenize {source : List Char} {ts : List Token} (h : tokenize source = .ok ts) :
    ∀ t ∈ descendants ts, Placed source t.span := by
  obtain ⟨ls, hs, hn⟩ := tokenize_eq_ok.mp h
  have hplaced : ∀ l ∈ ls, Placed source l.span :=
    fun l hl => ((Scan.layout_of_scanFrom hs).stands [] rfl l hl).placed
  have hevery : ∀ u ∈ ts, u.Every fun t => Placed source t.span :=
    (nest_eq_ok_iff.mp hn).every (fun l hl _ _ _ => ⟨(hplaced l hl).line, (hplaced l hl).column⟩)
      fun l hl _ => hplaced l hl
  intro t ht
  obtain ⟨u, hu, ht⟩ := mem_descendants.mp ht
  exact hevery u hu t ht

/-- Every source that can be taken apart into token trees is tiled by them. -/
theorem tokens_tile_source {source : List Char} {ts : List Token} (h : tokenize source = .ok ts) :
    Tiling source ts := by
  obtain ⟨ls, hs, hn⟩ := tokenize_eq_ok.mp h
  have hlayout := Scan.layout_of_scanFrom hs
  have hstands : ∀ l ∈ ls, Scan.Stands source 0 l := hlayout.stands [] rfl
  have htiles := tiles_eq_lexemes hs hn
  have hpair : (tiles ts).Pairwise fun t u => t.stop ≤ u.start := by
    rw [htiles]
    exact List.pairwise_map.mpr hlayout.increasing.2
  have htext : ∀ t ∈ tiles ts, source.extract t.start t.stop = t.text.toList := by
    rw [htiles]
    intro t ht
    obtain ⟨l, hl, rfl⟩ := List.mem_map.mp ht
    exact (hstands l hl).extract
  refine ⟨?_, hpair, htext, ?_, ?_, ?_⟩
  · rw [htiles]
    intro t ht
    obtain ⟨l, hl, rfl⟩ := List.mem_map.mp ht
    exact (hstands l hl).start_lt.2
  · rw [htiles]
    exact hlayout.filler [] rfl
  · intro d cs s hg
    have hpart := tiles_stretch hg
    obtain ⟨hbounds, hchildren⟩ := group_bounds (hpair.sublist hpart.sublist)
    have hopen := htext (d.openingTile s.start) (hpart.subset (by simp [Token.tiles]))
    have hclose := htext (d.closingTile s.stop) (hpart.subset (by simp [Token.tiles]))
    exact ⟨by simpa [Delimiter.openingTile] using hopen,
      by simpa [Delimiter.closingTile] using hclose, hbounds, hchildren⟩
  · exact placed_of_tokenize h

/-- Both sorts of comments, a string over two lines, and a group with them inside. -/
theorem tokens_tile_source_sample :
    let source := "a/*b*/ (\"c\n\"\n'd) // e".toList
    ∃ ts, tokenize source = .ok ts ∧ (tiles ts).map (fun t => (t.text, t.start, t.stop)) =
      [("a", 0, 1), ("(", 7, 8), ("\"c\n\"", 8, 12), ("'d", 13, 15), (")", 15, 16)] ∧
      Tiling source ts := by
  intro source
  obtain ⟨ts, h, htiles⟩ : ∃ ts, tokenize source = .ok ts ∧
      decide ((tiles ts).map (fun t => (t.text, t.start, t.stop)) =
        [("a", 0, 1), ("(", 7, 8), ("\"c\n\"", 8, 12), ("'d", 13, 15), (")", 15, 16)]) = true :=
    exists_ok_of_any (by decide +kernel)
  exact ⟨ts, h, of_decide_eq_true htiles, tokens_tile_source h⟩

end WidgetView
