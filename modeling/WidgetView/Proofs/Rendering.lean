import WidgetView.Proofs.Likeness
import WidgetView.Proofs.Neighbours

/-!
# Rendered tokens read back

Reading a text that was written from tokens. In the text of a run the tokens of a source meet new
neighbours: a comment is gone, a gap is one space, and next to a delimiter there is none. The
scanner finds the same lexemes all the same, and they nest as they did, so the run is read back.
-/
namespace WidgetView

namespace Tile

def lexeme (t : Tile) : Lexeme := ⟨t.kind, t.text, ⟨0, 0, t.start, t.stop⟩⟩

def opens (t : Tile) : Bool := t.lexeme.opening?.isSome

def closes (t : Tile) : Bool := t.lexeme.closing?.isSome

/-- What is written between two tiles: nothing just inside of a group. -/
def space (t u : Tile) : List Char := if t.opens || u.closes then [] else gap t.stop u.start

theorem space_cases (t u : Tile) : t.space u = [] ∨ t.space u = [' '] := by
  unfold space gap
  split
  · exact .inl rfl
  · split
    · exact .inl rfl
    · exact .inr rfl

theorem space_of_opens {t : Tile} (h : t.opens = true) (u : Tile) : t.space u = [] := by
  simp [space, h]

theorem space_of_closes (t : Tile) {u : Tile} (h : u.closes = true) : t.space u = [] := by
  simp [space, h]

/-- A tile that opens a group is one character, a delimiter. -/
theorem isDelimiter_of_opens {t : Tile} (h : t.opens = true) :
    t.kind = .punct ∧ ∃ c, t.text.toList = [c] ∧ Scan.isDelimiter c = true := by
  rw [opens, Lexeme.opening?] at h
  split at h
  · next c hk hc => exact ⟨hk, c, hc, by simp [Scan.isDelimiter, h]⟩
  · cases h

theorem isDelimiter_of_closes {t : Tile} (h : t.closes = true) :
    t.kind = .punct ∧ ∃ c, t.text.toList = [c] ∧ Scan.isDelimiter c = true := by
  rw [closes, Lexeme.closing?] at h
  split at h
  · next c hk hc => exact ⟨hk, c, hc, by simp [Scan.isDelimiter, h]⟩
  · cases h

end Tile

theorem Delimiter.opens_openingTile (d : Delimiter) (n : Nat) : (d.openingTile n).opens = true := by
  simp [Tile.opens, Tile.lexeme, openingTile, Lexeme.opening?]

theorem Delimiter.closes_closingTile (d : Delimiter) (n : Nat) :
    (d.closingTile n).closes = true := by
  simp [Tile.closes, Tile.lexeme, closingTile, Lexeme.closing?]

theorem Delimiter.ofClosing?_opening (d : Delimiter) : ofClosing? d.opening = none := by
  cases d <;> rfl

theorem Delimiter.closes_openingTile (d : Delimiter) (n : Nat) :
    (d.openingTile n).closes = false := by
  simp [Tile.closes, Tile.lexeme, openingTile, Lexeme.closing?, ofClosing?_opening]

theorem Delimiter.opens_closingTile (d : Delimiter) (n : Nat) :
    (d.closingTile n).opens = false := by
  simp [Tile.opens, Tile.lexeme, closingTile, Lexeme.opening?, ofOpening?_closing]

/-! ### The text of tiles -/

/-- The text of some tiles. -/
def writeTiles : List Tile → List Char
  | [] => []
  | [t] => t.text.toList
  | t :: u :: us => t.text.toList ++ (t.space u ++ writeTiles (u :: us))

/-- The text behind a tile. -/
def writeAfter (t : Tile) : List Tile → List Char
  | [] => []
  | u :: us => t.space u ++ writeTiles (u :: us)

theorem writeTiles_cons (t : Tile) (ts : List Tile) :
    writeTiles (t :: ts) = t.text.toList ++ writeAfter t ts := by
  cases ts with
  | nil => simp [writeTiles, writeAfter]
  | cons u us => rfl

theorem writeTiles_append (front : List Tile) (t u : Tile) (us : List Tile) :
    writeTiles (front ++ [t] ++ u :: us) = writeTiles (front ++ [t]) ++
      (t.space u ++ writeTiles (u :: us)) := by
  induction front with
  | nil => rfl
  | cons v front ih =>
    cases front with
    | nil => simp [writeTiles]
    | cons w front =>
      simp only [List.cons_append, writeTiles] at ih ⊢
      rw [ih]
      simp only [List.append_assoc]

theorem writeTiles_opening {t : Tile} (h : t.opens = true) (ts : List Tile) :
    writeTiles (t :: ts) = t.text.toList ++ writeTiles ts := by
  cases ts with
  | nil => simp [writeTiles]
  | cons u us => rw [writeTiles, Tile.space_of_opens h, List.nil_append]

theorem writeTiles_closing {u : Tile} (h : u.closes = true) (ts : List Tile) :
    writeTiles (ts ++ [u]) = writeTiles ts ++ u.text.toList := by
  rcases List.eq_nil_or_concat ts with rfl | ⟨front, t, rfl⟩
  · simp [writeTiles]
  · rw [List.concat_eq_append, writeTiles_append, Tile.space_of_closes t h]
    rfl

/-- A leaf that is no delimiter. Groups are plain whatever they hold. -/
def Token.Plain : Token → Prop
  | .leaf l => l.opening? = none ∧ l.closing? = none
  | .group _ _ _ => True

theorem Token.opens_last {t : Token} (h : t.Plain) : t.last.opens = false := by
  cases t with
  | leaf l =>
    have hopen : (Token.leaf l).last.lexeme.opening? = l.opening? := rfl
    rw [Tile.opens, hopen, h.1]
    rfl
  | group d cs s => exact d.opens_closingTile s.stop

theorem Token.closes_first {t : Token} (h : t.Plain) : t.first.closes = false := by
  cases t with
  | leaf l =>
    have hclose : (Token.leaf l).first.lexeme.closing? = l.closing? := rfl
    rw [Tile.closes, hclose, h.2]
    rfl
  | group d cs s => exact d.closes_openingTile s.start

/-- Between two tokens the gap is written that was between them. -/
theorem Token.space_eq {t u : Token} (ht : t.Plain) (hu : u.Plain) :
    t.last.space u.first = gap t.span.stop u.span.start := by
  simp [Tile.space, opens_last ht, closes_first hu]

theorem Token.plain_of_every {t : Token} (h : t.Every Token.Plain) : t.Plain := by
  cases t with
  | leaf l => exact Token.every_leaf.mp h
  | group d cs s => trivial

mutual

theorem Token.writeTiles_tiles (t : Token) (h : t.Every Token.Plain) :
    writeTiles t.tiles = t.render := by
  match t, h with
  | .leaf l, _ => rfl
  | .group d cs s, h =>
    have hcs := writeTiles_tiles cs (Token.every_group.mp h).2
    rw [Token.tiles, writeTiles_opening (d.opens_openingTile s.start),
      writeTiles_closing (d.closes_closingTile s.stop), hcs, Token.render]
    simp [Delimiter.openingTile, Delimiter.closingTile]

/-- Token trees and their tiles have the same text. -/
theorem writeTiles_tiles (ts : List Token) (h : ∀ t ∈ ts, t.Every Token.Plain) :
    writeTiles (tiles ts) = render ts := by
  match ts, h with
  | [], _ => rfl
  | [t], h =>
    rw [tiles_cons, tiles_nil, List.append_nil, render_singleton,
      Token.writeTiles_tiles t (h t List.mem_cons_self)]
  | t :: u :: us, h =>
    obtain ⟨ht, hus⟩ := List.forall_mem_cons.mp h
    have hu := (List.forall_mem_cons.mp hus).1
    have htext := Token.writeTiles_tiles t ht
    have hrest := writeTiles_tiles (u :: us) hus
    obtain ⟨front, hlast⟩ := t.tiles_eq_last
    obtain ⟨more, hfirst⟩ := u.tiles_eq_first
    rw [hlast] at htext
    rw [tiles_cons u us, hfirst, List.cons_append] at hrest
    rw [tiles_cons, tiles_cons u us, hlast, hfirst, List.cons_append,
      writeTiles_append, htext, hrest,
      Token.space_eq (Token.plain_of_every ht) (Token.plain_of_every hu), render_cons_cons]

end

/-! ### Tiles of a source -/

namespace Scan

/-- Tiles that the scanner found one after another in a text that starts with the first of them.
Where one touches the next, the text goes on with it. -/
inductive Found : List Tile → List Char → Prop where
  | nil {cs : List Char} : Found [] cs
  | cons {k : Kind} {c : Char} {cs rest next : List Char} {start stop : Nat} {ts : List Tile}
      (hpiece : scanPiece c (cs ++ rest) = .ok (some k, cs.length))
      (hnext : ∀ u ∈ ts.head?, u.start = stop → next = rest) (h : Found ts next) :
      Found (⟨k, String.ofList (c :: cs), start, stop⟩ :: ts) (c :: (cs ++ rest))

theorem Layout.found {p : Place} {cs : List Char} {ls : List Lexeme} (h : Layout p cs ls) :
    ∃ skip next, cs = skip ++ next ∧ Found (ls.map Lexeme.tile) next ∧
      ∀ u ∈ (ls.map Lexeme.tile).head?, u.start = p.offset + skip.length := by
  induction h with
  | @done p cs _ => exact ⟨[], cs, rfl, .nil, by simp⟩
  | @lexeme p skip c cs rest k ls _ hpiece _ ih =>
    obtain ⟨skip', next, rfl, hfound, hstart⟩ := ih
    refine ⟨skip, c :: (cs ++ (skip' ++ next)), rfl, .cons hpiece ?_ hfound, ?_⟩
    · intro u hu htouch
      rw [hstart u hu] at htouch
      have hnil : skip' = [] := by
        have hlen : (p.after (skip ++ c :: cs)).offset + skip'.length =
            (p.after (skip ++ c :: cs)).offset := htouch
        exact List.eq_nil_of_length_eq_zero (by omega)
      rw [hnil, List.nil_append]
    · intro u hu
      obtain rfl := Option.some.inj hu
      simp [Lexeme.tile, Place.spanTo]

theorem Found.tail {t : Tile} {ts : List Tile} {cs : List Char} (h : Found (t :: ts) cs) :
    ∃ next, Found ts next := by
  cases h with
  | cons _ _ h => exact ⟨_, h⟩

theorem Found.of_append_right {front ts : List Tile} {cs : List Char} (h : Found (front ++ ts) cs) :
    ∃ next, Found ts next := by
  induction front generalizing cs with
  | nil => exact ⟨cs, h⟩
  | cons t front ih =>
    obtain ⟨next, h⟩ := h.tail
    exact ih h

theorem Found.of_append_left {ts back : List Tile} {cs : List Char} (h : Found (ts ++ back) cs) :
    Found ts cs := by
  induction ts generalizing cs with
  | nil => exact .nil
  | cons t ts ih =>
    cases h with
    | cons hpiece hnext h =>
      refine .cons hpiece (fun u hu => hnext u ?_) (ih h)
      cases ts with
      | nil => cases hu
      | cons v ts => exact hu

/-- What is written behind a tile continues what stood behind it, unless the tile opens a group. -/
theorem Found.continues {t : Tile} {ts : List Tile} {src : List Char} (h : Found (t :: ts) src) :
    ∃ c cs rest, t.text.toList = c :: cs ∧ src = c :: (cs ++ rest) ∧
      scanPiece c (cs ++ rest) = .ok (some t.kind, cs.length) ∧
      (t.opens = true ∨ Continues rest (writeAfter t ts)) := by
  induction ts generalizing t src with
  | nil =>
    cases h with
    | @cons k c cs rest next start stop ts hpiece hnext h =>
      exact ⟨c, cs, rest, by simp, rfl, hpiece, .inr (.inl bounded_nil)⟩
  | cons u us ih =>
    cases h with
    | @cons k c cs rest next start stop ts hpiece hnext h =>
      refine ⟨c, cs, rest, by simp, rfl, hpiece, or_iff_not_imp_left.mpr fun hopen => ?_⟩
      obtain ⟨d, ds, more, htext, rfl, -, hrest⟩ := ih h
      rw [writeAfter, writeTiles_cons, htext]
      cases hclose : u.closes with
      | true =>
        obtain ⟨-, e, he, hd⟩ := Tile.isDelimiter_of_closes hclose
        obtain ⟨rfl, rfl⟩ := List.cons.inj (htext.symm.trans he)
        rw [Tile.space_of_closes _ hclose]
        exact .inl (bounded_cons (by simp [isBound, hd]) _)
      | false =>
        have hspace : Tile.space ⟨k, String.ofList (c :: cs), start, stop⟩ u =
            gap stop u.start := by
          rw [Tile.space, hclose, Bool.or_false, if_neg hopen]
        rw [hspace, gap]
        by_cases htouch : u.start = stop
        · rw [if_pos htouch, List.nil_append]
          obtain rfl := hnext u rfl htouch
          rcases hrest with hopens | hrest
          · obtain ⟨-, e, he, hd⟩ := Tile.isDelimiter_of_opens hopens
            obtain ⟨rfl, rfl⟩ := List.cons.inj (htext.symm.trans he)
            exact .inl (bounded_cons (by simp [isBound, hd]) _)
          · exact .inr ⟨d, ds ++ more, ds ++ writeAfter u us, rfl, rfl, (hrest.append ds).head⟩
        · rw [if_neg htouch]
          exact .inl (bounded_cons (by decide) _)

/-- Each tile is found again in front of what is written behind it. -/
theorem Found.piece {t : Tile} {ts : List Tile} {src : List Char} (h : Found (t :: ts) src) :
    ∃ c cs, t.text.toList = c :: cs ∧
      scanPiece c (cs ++ writeAfter t ts) = .ok (some t.kind, cs.length) := by
  obtain ⟨c, cs, rest, htext, -, hpiece, hopens | hrest⟩ := h.continues
  · obtain ⟨hk, e, he, hd⟩ := Tile.isDelimiter_of_opens hopens
    obtain ⟨rfl, rfl⟩ := List.cons.inj (htext.symm.trans he)
    exact ⟨c, [], he, by rw [hk]; exact scanPiece_delimiter hd _⟩
  · exact ⟨c, cs, htext, scanPiece_continues hrest hpiece⟩

end Scan

/-- Lexemes that were read from the text of tiles: the same lexemes, two of which touch where
nothing was written between the tiles. -/
inductive Respaced : List Tile → List Lexeme → Prop where
  | nil : Respaced [] []
  | cons {t : Tile} {ts : List Tile} {l : Lexeme} {ls : List Lexeme} (hkind : l.kind = t.kind)
      (htext : l.text = t.text)
      (hspace : ∀ u ∈ ts.head?, ∀ m ∈ ls.head?, m.span.start = l.span.stop ↔ t.space u = [])
      (h : Respaced ts ls) : Respaced (t :: ts) (l :: ls)

namespace Scan

theorem scanFrom_space (p : Place) {t u : Tile} (cs : List Char) :
    scanFrom p (t.space u ++ cs) = scanFrom (p.after (t.space u)) cs := by
  rcases t.space_cases u with h | h
  · rw [h]
    rfl
  · rw [h, List.singleton_append, scanFrom_cons (scanPiece_blank (by decide) cs), List.take_zero,
      List.drop_zero]
    cases scanFrom (p.after [' ']) cs <;> rfl

/-- The text of tiles that the scanner found is scanned into the same lexemes. -/
theorem Found.scanFrom_writeTiles {ts : List Tile} {src : List Char} (h : Found ts src)
    (p : Place) :
    ∃ ls, scanFrom p (writeTiles ts) = .ok ls ∧ Respaced ts ls ∧
      ∀ l ∈ ls.head?, l.span.start = p.offset := by
  induction ts generalizing src p with
  | nil => exact ⟨[], by rw [writeTiles, scanFrom], .nil, by simp⟩
  | cons t ts ih =>
    obtain ⟨c, cs, htext, hpiece⟩ := h.piece
    obtain ⟨next, htail⟩ := h.tail
    have hword : t.text = String.ofList (c :: cs) := by rw [← htext, String.ofList_toList]
    rw [writeTiles_cons, htext, List.cons_append, scanFrom_append hpiece]
    cases ts with
    | nil =>
      refine ⟨[⟨t.kind, String.ofList (c :: cs), p.spanTo (p.after (c :: cs))⟩], ?_, ?_, ?_⟩
      · rw [writeAfter, scanFrom]
        rfl
      · exact .cons rfl hword.symm (by simp) .nil
      · intro l hl
        obtain rfl := Option.some.inj hl
        rfl
    | cons u us =>
      obtain ⟨ls, hscan, hspaced, hstart⟩ := ih htail ((p.after (c :: cs)).after (t.space u))
      refine ⟨⟨t.kind, String.ofList (c :: cs), p.spanTo (p.after (c :: cs))⟩ :: ls, ?_, ?_, ?_⟩
      · rw [writeAfter, scanFrom_space, hscan]
        rfl
      · refine .cons rfl hword.symm ?_ hspaced
        intro v hv m hm
        obtain rfl := Option.some.inj hv
        rw [hstart m hm, Place.offset_after]
        rcases t.space_cases u with h | h <;> simp [h, Place.spanTo]
      · intro l hl
        obtain rfl := Option.some.inj hl
        rfl

end Scan

/-! ### Nesting -/

theorem Respaced.append {ts us : List Tile} {ls : List Lexeme} (h : Respaced (ts ++ us) ls) :
    ∃ ls₁ ls₂, ls = ls₁ ++ ls₂ ∧ Respaced ts ls₁ ∧ Respaced us ls₂ ∧
      ∀ t ∈ ts.getLast?, ∀ u ∈ us.head?, ∀ l ∈ ls₁.getLast?, ∀ m ∈ ls₂.head?,
        m.span.start = l.span.stop ↔ t.space u = [] := by
  induction ts generalizing ls with
  | nil => exact ⟨[], ls, rfl, .nil, h, by simp⟩
  | cons t ts ih =>
    cases h with
    | @cons _ _ l ls hkind htext hspace h =>
      obtain ⟨ls₁, ls₂, rfl, h₁, h₂, hjoint⟩ := ih h
      refine ⟨l :: ls₁, ls₂, rfl, .cons hkind htext ?_ h₁, h₂, ?_⟩
      · intro u hu m hm
        refine hspace u ?_ m ?_
        · cases ts with
          | nil => cases hu
          | cons v ts => exact hu
        · cases ls₁ with
          | nil => cases hm
          | cons n ls₁ => exact hm
      · cases h₁ with
        | nil =>
          intro v hv u hu n hn m hm
          obtain rfl := Option.some.inj hv
          obtain rfl := Option.some.inj hn
          exact hspace u hu m hm
        | cons _ _ _ _ =>
          rw [List.getLast?_cons_cons, List.getLast?_cons_cons]
          exact hjoint

theorem Respaced.singleton {t : Tile} {ls : List Lexeme} (h : Respaced [t] ls) :
    ∃ l, ls = [l] ∧ l.kind = t.kind ∧ l.text = t.text := by
  cases h with
  | @cons _ _ l ls hkind htext _ h =>
    cases h
    exact ⟨l, rfl, hkind, htext⟩

namespace Nest

mutual

/-- Lexemes read from the tiles of a token nest into a token like it, which starts and ends where
they do. -/
theorem token_of_respaced (t : Token) (ht : t.Every Token.Plain) (ls : List Lexeme)
    (h : Respaced t.tiles ls) : ∃ t', t.Alike t' ∧ Nests ls [t'] ∧
      (∃ l, ls.head? = some l ∧ l.span.start = t'.span.start) ∧
      ∃ l, ls.getLast? = some l ∧ l.span.stop = t'.span.stop := by
  match t, ht with
  | .leaf ⟨k, text, s⟩, ht =>
    obtain ⟨⟨k', text', s'⟩, rfl, rfl, rfl⟩ := Respaced.singleton h
    have hl := Lexeme.bracket?_eq_none.mpr (Token.every_leaf.mp ht)
    exact ⟨_, .leaf, .leaf hl .nil, ⟨_, rfl, rfl⟩, _, rfl, rfl⟩
  | .group d cs s, ht =>
    cases h with
    | @cons _ _ l ls hkind htext _ h =>
      obtain ⟨ls₁, ls₂, rfl, h₁, h₂, -⟩ := Respaced.append h
      obtain ⟨m, rfl, hkind', htext'⟩ := Respaced.singleton h₂
      obtain ⟨cs', hcs, hnest, -⟩ := run_of_respaced cs (Token.every_group.mp ht).2 ls₁ h₁
      have hopen : l.bracket? = some (.opening d) := Lexeme.bracket?_opening hkind htext
      have hclose : m.bracket? = some (.closing d) := Lexeme.bracket?_closing hkind' htext'
      refine ⟨_, .group hcs, .group hopen hclose hnest .nil, ⟨l, rfl, rfl⟩, m, ?_, rfl⟩
      rw [← List.cons_append, List.getLast?_concat]

/-- Lexemes read from the tiles of a run of tokens nest into a run like it. -/
theorem run_of_respaced (ts : List Token) (hts : ∀ t ∈ ts, t.Every Token.Plain) (ls : List Lexeme)
    (h : Respaced (tiles ts) ls) : ∃ ts', Alike ts ts' ∧ Nests ls ts' ∧
      ∀ u ∈ ts'.head?, ∃ l, ls.head? = some l ∧ l.span.start = u.span.start := by
  match ts, hts with
  | [], _ =>
    cases h
    exact ⟨[], .nil, .nil, by simp⟩
  | t :: ts, hts =>
    obtain ⟨ht, hts⟩ := List.forall_mem_cons.mp hts
    obtain ⟨ls₁, ls₂, rfl, h₁, h₂, hjoint⟩ := Respaced.append h
    obtain ⟨t', halike, hnest, ⟨a, ha, hstart⟩, l, hl, hstop⟩ := token_of_respaced t ht ls₁ h₁
    obtain ⟨ts', halikes, hnests, hhead⟩ := run_of_respaced ts hts ls₂ h₂
    refine ⟨t' :: ts', .cons halike ?_ halikes, hnest.append hnests, ?_⟩
    · cases halikes with
      | nil => simp [Touched]
      | @cons u u' us us' hu _ _ =>
        obtain ⟨m, hm, hmstart⟩ := hhead u' rfl
        obtain ⟨front, hlast⟩ := t.tiles_eq_last
        obtain ⟨more, hfirst⟩ := u.tiles_eq_first
        have hiff := hjoint t.last (by rw [hlast, List.getLast?_concat]; rfl) u.first
          (by rw [tiles_cons, hfirst]; rfl) l hl m hm
        have huplain := Token.plain_of_every (hts u List.mem_cons_self)
        rw [Token.space_eq (Token.plain_of_every ht) huplain, hmstart, hstop] at hiff
        rw [touched_cons, touched_cons, hiff]
        simp [gap]
    · intro u hu
      obtain rfl := Option.some.inj hu
      refine ⟨a, ?_, hstart⟩
      rw [List.head?_append, ha]
      rfl

end

end Nest

/-- The tokens of a source are no delimiters. -/
theorem plain_of_tokenize {source : List Char} {ts : List Token} (h : tokenize source = .ok ts) :
    ∀ t ∈ ts, t.Every Token.Plain := by
  obtain ⟨ls, -, hn⟩ := tokenize_eq_ok.mp h
  exact (nest_eq_ok_iff.mp hn).every (fun _ _ _ _ _ => trivial)
    fun _ _ hl => Lexeme.bracket?_eq_none.mp hl

/-- What holds of every token of some trees holds of every token of a part. -/
theorem Within.every {P : Token → Prop} {ts us : List Token} (h : Within ts us)
    (hts : ∀ t ∈ ts, t.Every P) : ∀ u ∈ us, u.Every P := by
  induction h with
  | whole => exact hts
  | tail _ ih => exact (List.forall_mem_cons.mp ih).2
  | inside _ ih => exact (Token.every_group.mp (ih _ List.mem_cons_self)).2

/-- The tiles of a part stand together in the tiles of the whole. -/
theorem Within.tiles_eq {ts us : List Token} (h : Within ts us) :
    ∃ front back, tiles ts = front ++ (tiles us ++ back) := by
  induction h with
  | whole => exact ⟨[], [], by simp⟩
  | @tail t us _ ih =>
    obtain ⟨front, back, he⟩ := ih
    exact ⟨front ++ t.tiles, back, by rw [he, tiles_cons]; simp only [List.append_assoc]⟩
  | @inside d cs us s _ ih =>
    obtain ⟨front, back, he⟩ := ih
    refine ⟨front ++ [d.openingTile s.start], d.closingTile s.stop :: (tiles us ++ back), ?_⟩
    rw [he, tiles_cons, Token.tiles]
    simp only [List.append_assoc, List.cons_append, List.nil_append]

/-- The text of a run of tokens of a source is taken apart into a run of tokens like it. -/
theorem tokenize_render {source : List Char} {ts run more : List Token}
    (h : tokenize source = .ok ts) (hw : Within ts (run ++ more)) :
    ∃ run', tokenize (render run) = .ok run' ∧ Alike run run' := by
  obtain ⟨ls, hs, hn⟩ := tokenize_eq_ok.mp h
  have hlayout := Scan.layout_of_scanFrom hs
  have htiles := tiles_eq_lexemes hs hn
  have hplain : ∀ t ∈ run, t.Every Token.Plain := fun t ht =>
    hw.every (plain_of_tokenize h) t (List.mem_append_left _ ht)
  -- the run was found in the source, so it is found again in its own text
  obtain ⟨-, src, -, hfound, -⟩ := hlayout.found
  obtain ⟨front, back, hpart⟩ := hw.tiles_eq
  rw [← htiles, hpart, tiles_append, List.append_assoc] at hfound
  obtain ⟨next, hrun⟩ := hfound.of_append_right
  obtain ⟨ms, hscan, hspaced, -⟩ := hrun.of_append_left.scanFrom_writeTiles {}
  rw [writeTiles_tiles run hplain] at hscan
  obtain ⟨run', halike, hnest, -⟩ := Nest.run_of_respaced run hplain ms hspaced
  exact ⟨run', tokenize_eq_ok.mpr ⟨ms, hscan, nest_eq_ok_iff.mpr hnest⟩, halike⟩

theorem tokenize_render_self {source : List Char} {ts : List Token} (h : tokenize source = .ok ts) :
    ∃ ts', tokenize (render ts) = .ok ts' ∧ Alike ts ts' := by
  have hwhole : Within ts (ts ++ []) := by
    rw [List.append_nil]
    exact .whole
  exact tokenize_render h hwhole

/-- Any tokens of a source that stand together are read back from their text: the same trees up to
positions, in which neighbours touch where they touched in the source. So they have the same text
again. -/
theorem render_reads_back {source : List Char} {ts run more : List Token}
    (h : tokenize source = .ok ts) (hw : Within ts (run ++ more)) :
    ∃ run', tokenize (render run) = .ok run' ∧ Alike run run' ∧ render run' = render run := by
  obtain ⟨run', hrun, halike⟩ := tokenize_render h hw
  exact ⟨run', hrun, halike, halike.render_eq.symm⟩

/-- Four tokens inside of a group, without the comment between two of them and what follows. -/
theorem render_reads_back_sample :
    let source := "f(a /*b*/ 'c 1. .d)".toList
    ∃ ts run more, tokenize source = .ok ts ∧ Within ts (run ++ more) ∧
      render run = "a 'c 1.".toList ∧ render more = ".d".toList ∧
      ∃ run', tokenize (render run) = .ok run' ∧ Alike run run' ∧ render run' = render run := by
  intro source
  obtain ⟨ts, h, hparts⟩ : ∃ ts, tokenize source = .ok ts ∧
      decide (ts.map (fun t => (render (t.children.take 4), render (t.children.drop 4))) =
        [([], []), ("a 'c 1.".toList, ".d".toList)]) = true :=
    exists_ok_of_any (by decide +kernel)
  rcases ts with - | ⟨f, - | ⟨g, - | ⟨t, ts⟩⟩⟩ <;> simp at hparts
  obtain ⟨-, hrun, hmore⟩ := hparts
  cases g with
  | leaf l => cases hrun
  | group d cs s =>
    have hw : Within [f, .group d cs s] (cs.take 4 ++ cs.drop 4) := by
      rw [List.take_append_drop]
      exact .inside (.tail .whole)
    exact ⟨_, _, _, h, hw, hrun, hmore, render_reads_back h hw⟩

end WidgetView
