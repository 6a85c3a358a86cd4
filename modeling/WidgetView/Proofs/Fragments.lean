import WidgetView.Proofs.Brackets
import WidgetView.Proofs.Literals
import WidgetView.Proofs.Neighbours

/-!
# Fragments of a source

Fragments of a source. A text that is put together from pieces is scanned piece by piece if no piece
runs on into what comes after it. So a fragment is a text with what may follow it, and fragments are
joined where the second one may follow the first. The brackets of a fragment are well nested; hence
so are those of a text that is one.
-/
namespace WidgetView

open Scan Terminal

/-- In front of every text with a property, this text is scanned by itself, and its brackets are
well nested. -/
def Fragment (P : List Char → Prop) (text : List Char) : Prop :=
  ∀ p rest, P rest → ∃ ls, WellNested (brackets ls) ∧
    scanFrom p (text ++ rest) = (scanFrom (p.after text) rest).map (ls ++ ·)

/-- A fragment in front of every text. -/
abbrev Closed (text : List Char) : Prop := Fragment (fun _ => True) text

theorem Bracket.isDelimiter_char (b : Bracket) : isDelimiter b.char = true := by
  cases b with
  | opening d => cases d <;> decide
  | closing d => cases d <;> decide

namespace Lexeme

/-- A lexeme that starts with no delimiter is no bracket. -/
theorem bracket?_of_not_isDelimiter {k : Kind} {c : Char} {cs : List Char} {s : Span}
    (h : isDelimiter c = false) : (⟨k, String.ofList (c :: cs), s⟩ : Lexeme).bracket? = none := by
  cases hb : (⟨k, String.ofList (c :: cs), s⟩ : Lexeme).bracket? with
  | none => rfl
  | some b =>
    obtain ⟨rfl, -⟩ : c = b.char ∧ cs = [] := by
      simpa using congrArg (fun l => l.text.toList) (eq_of_bracket? hb)
    rw [b.isDelimiter_char] at h
    cases h

end Lexeme

theorem brackets_eq_of_unplaced {ls ms : List Lexeme} (h : ls.map unplaced = ms.map unplaced) :
    brackets ls = brackets ms := by
  have hmap : ∀ ls, brackets ls = (ls.map unplaced).filterMap Lexeme.bracket? := by
    intro ls
    rw [List.filterMap_map]
    rfl
  rw [hmap, hmap, h]

namespace Fragment

variable {P Q : List Char → Prop} {text more : List Char}

theorem mono (h : Fragment P text) (hP : ∀ rest, Q rest → P rest) : Fragment Q text :=
  fun p rest hrest => h p rest (hP rest hrest)

theorem nil : Fragment P [] := by
  intro p rest _
  refine ⟨[], .nil, ?_⟩
  cases hs : scanFrom p rest <;> simp [hs, Except.map]

/-- Fragments are joined if the second one may follow the first, whatever follows it. -/
theorem append (h : Fragment P text) (h' : Fragment Q more)
    (hP : ∀ rest, Q rest → P (more ++ rest)) : Fragment Q (text ++ more) := by
  intro p rest hrest
  obtain ⟨ls, hls, hscan⟩ := h p (more ++ rest) (hP rest hrest)
  obtain ⟨ms, hms, hscan'⟩ := h' (p.after text) rest hrest
  refine ⟨ls ++ ms, ?_, ?_⟩
  · rw [brackets_append]
    exact hls.append hms
  · rw [List.append_assoc, hscan, hscan', Place.after_append]
    cases scanFrom ((p.after text).after more) rest <;> simp [Except.map]

/-- A piece that starts with no delimiter. -/
theorem piece {c : Char} {cs : List Char} (k? : Option Kind) (hc : isDelimiter c = false)
    (h : ∀ rest, P rest → scanPiece c (cs ++ rest) = .ok (k?, cs.length)) :
    Fragment P (c :: cs) := by
  intro p rest hrest
  refine ⟨lexemesOf p k? (c :: cs), ?_, scanFrom_append (h rest hrest) p⟩
  cases k? with
  | none => exact .nil
  | some k =>
    rw [lexemesOf, brackets_cons_none (Lexeme.bracket?_of_not_isDelimiter hc)]
    exact .nil

theorem scanFrom_delimiter {c : Char} (hc : isDelimiter c = true) (p : Place) (cs : List Char) :
    scanFrom p (c :: cs) =
      (scanFrom (p.after [c]) cs).map (lexemesOf p (some .punct) [c] ++ ·) := by
  rw [scanFrom_cons (scanPiece_delimiter hc cs), List.take_zero, List.drop_zero]

/-- A group around a fragment, in front of any text. -/
theorem group (h : Fragment P text) (d : Delimiter) (hP : ∀ rest, P (d.closing :: rest)) :
    Closed (d.opening :: (text ++ [d.closing])) := by
  intro p rest _
  have hopening : isDelimiter d.opening = true := (Bracket.opening d).isDelimiter_char
  have hclosing : isDelimiter d.closing = true := (Bracket.closing d).isDelimiter_char
  let q := p.after [d.opening]
  obtain ⟨ls, hls, hscan⟩ := h q (d.closing :: rest) (hP rest)
  refine ⟨lexemesOf p (some .punct) [d.opening] ++
    (ls ++ lexemesOf (q.after text) (some .punct) [d.closing]), ?_, ?_⟩
  · have hopen : ∀ s, (⟨.punct, String.ofList [d.opening], s⟩ : Lexeme).bracket? =
        some (.opening d) :=
      fun _ => Lexeme.bracket?_opening rfl rfl
    have hclose : ∀ s, (⟨.punct, String.ofList [d.closing], s⟩ : Lexeme).bracket? =
        some (.closing d) :=
      fun _ => Lexeme.bracket?_closing rfl rfl
    simp only [lexemesOf, brackets_append, brackets_cons_some (hopen _),
      brackets_cons_some (hclose _), brackets_nil]
    exact .group hls .nil
  · have hafter : p.after (d.opening :: (text ++ [d.closing])) =
        (q.after text).after [d.closing] := by
      rw [← List.singleton_append, Place.after_append, Place.after_append]
    rw [List.cons_append, List.append_assoc, List.singleton_append, scanFrom_delimiter hopening,
      hscan, scanFrom_delimiter hclosing, hafter]
    cases scanFrom ((q.after text).after [d.closing]) rest <;> simp [Except.map]

/-- A piece that is no comment is found again if something that ends every lexeme is put behind the
text. -/
theorem scanPiece_append_bounded {c : Char} {cs rest : List Char} {k? : Option Kind} {n : Nat}
    (h : scanPiece c cs = .ok (k?, n)) (hs : c ≠ '/') (hrest : Bounded rest) :
    scanPiece c (cs.take n ++ (cs.drop n ++ rest)) = .ok (k?, (cs.take n).length) := by
  rcases scanPiece_eq_ok_iff.mp h with ⟨hb, rfl, rfl⟩ | ⟨hc, -⟩ | ⟨hc, -⟩ | ⟨-, -, k, rfl, hl⟩
  · exact scanPiece_blank hb _
  · exact absurd hc hs
  · exact absurd hc hs
  · have hn := length_le_of_lexes (lexemeLength_eq_ok.mp hl)
    rw [← List.append_nil cs] at h
    rw [← List.append_assoc, List.take_append_drop, List.length_take_of_le hn]
    exact scanPiece_bounded hrest h hn

theorem scanFrom_append_bounded {p : Place} {rest : List Char} {ls : List Lexeme}
    (h : scanFrom p text = .ok ls) (hs : '/' ∉ text) (hrest : Bounded rest) :
    scanFrom p (text ++ rest) = (scanFrom (p.after text) rest).map (ls ++ ·) := by
  refine scanFrom_induction (motive := fun p text ls => '/' ∉ text →
    scanFrom p (text ++ rest) = (scanFrom (p.after text) rest).map (ls ++ ·)) ?_ ?_ p text ls h hs
  · intro p _
    cases hr : scanFrom p rest <;> simp [hr, Except.map]
  · intro p c cs k? n ls hp _ ih hs
    rw [List.mem_cons, not_or] at hs
    have hrun := scanFrom_append (scanPiece_append_bounded hp (Ne.symm hs.1) hrest) p
    rw [← List.append_assoc, List.take_append_drop] at hrun
    have hafter : p.after (c :: cs) = (p.after (c :: cs.take n)).after (cs.drop n) := by
      rw [← Place.after_append, List.cons_append, List.take_append_drop]
    rw [List.cons_append, hrun, ih fun hd => hs.2 (List.mem_of_mem_drop hd), hafter]
    cases scanFrom ((p.after (c :: cs.take n)).after (cs.drop n)) rest <;> simp [Except.map]

/-- A text with token trees and without a slash is a fragment in front of what ends every lexeme. -/
theorem of_tokenize (h : ((tokenize text).toOption.isSome && text.all (· != '/')) = true) :
    Fragment Bounded text := by
  intro p rest hrest
  obtain ⟨hsome, hall⟩ := Bool.and_eq_true_iff.mp h
  obtain ⟨ts, ht⟩ : ∃ ts, tokenize text = .ok ts := by
    cases ht : tokenize text with
    | error e =>
      rw [ht] at hsome
      cases hsome
    | ok ts => exact ⟨ts, rfl⟩
  have hs : '/' ∉ text := fun hin => absurd (List.all_eq_true.mp hall _ hin) (by decide)
  obtain ⟨ls, hscan, hnests⟩ := nests_of_tokenize ht
  obtain ⟨ms, hms, hplaces⟩ := scanFrom_unplaced hscan p
  refine ⟨ms, ?_, scanFrom_append_bounded hms hs hrest⟩
  rw [brackets_eq_of_unplaced hplaces]
  exact hnests.wellNested

/-- A text that is a fragment is taken apart. -/
theorem tokenize (h : Fragment P text) (hP : P []) :
    ∃ ls ts, scan text = .ok ls ∧ tokenize text = .ok ts ∧ Nest.Nests ls ts := by
  obtain ⟨ls, hls, hscan⟩ := h {} [] hP
  rw [List.append_nil, scanFrom, Except.map, List.append_nil] at hscan
  obtain ⟨ts, ht, hnests⟩ := tokenize_of_wellNested hscan hls
  exact ⟨ls, ts, hscan, ht, hnests⟩

end Fragment

namespace Closed

variable {P : List Char → Prop} {text more : List Char}

theorem fragment (h : Closed text) : Fragment P text := Fragment.mono h fun _ _ => trivial

theorem append (h : Closed text) (h' : Fragment P more) : Fragment P (text ++ more) :=
  Fragment.append h h' fun _ _ => trivial

end Closed

/-! ### Single pieces -/

namespace Fragment

variable {P : List Char → Prop} {text more : List Char}

theorem blank : Closed [' '] :=
  piece none (by decide) fun _ _ => scanPiece_blank (by decide) _

/-- With a blank behind it, what would have to end every lexeme may be anything. -/
theorem spaced (h : Fragment Bounded text) : Closed (text ++ [' ']) :=
  h.append blank fun rest _ => bounded_cons (by decide) rest

/-- What may follow a name. -/
def EndsName (rest : List Char) : Prop :=
  (∀ c ∈ rest.head?, isIdentChar c = false) ∧ rest.head? ≠ some '\x22'

theorem endsName_cons {c : Char} (h : isIdentChar c = false) (hq : c ≠ '\x22') (cs : List Char) :
    EndsName (c :: cs) := by
  refine ⟨fun d hd => ?_, fun hd => hq (Option.some.inj hd)⟩
  obtain rfl := Option.some.inj hd
  exact h

theorem endsName_of_bounded {rest : List Char} (h : Bounded rest) : EndsName rest := by
  cases rest with
  | nil => exact ⟨by simp, by simp⟩
  | cons c cs =>
    have hbound := h c rfl
    refine endsName_cons ?_ ?_ cs
    · cases hi : isIdentChar c with
      | false => rfl
      | true =>
        rw [not_isBound_of_isIdentChar hi] at hbound
        cases hbound
    · rintro rfl
      exact absurd hbound (by decide)

theorem name (h : IsName text) : Fragment EndsName text := by
  obtain ⟨c, cs, rfl, hc, hcs⟩ := h
  exact piece (some .ident) (not_isDelimiter_of_isIdentStart hc) fun rest hrest =>
    scanPiece_name hc hcs hrest.1 hrest.2

/-- What may follow a number. -/
def EndsNumber (rest : List Char) : Prop :=
  (∀ c ∈ rest.head?, isIdentChar c = false) ∧ ∀ d ds, rest = '.' :: d :: ds → d.isDigit = false

theorem endsNumber_of_bounded {rest : List Char} (h : Bounded rest) : EndsNumber rest := by
  refine ⟨(endsName_of_bounded h).1, ?_⟩
  rintro d ds rfl
  exact absurd (h '.' rfl) (by decide)

theorem not_isBound_of_isDigit {c : Char} (h : c.isDigit = true) :
    isBlank c = false ∧ isDelimiter c = false := by
  have hbound := not_isBound_of_isIdentChar (c := c) (by simp [isIdentChar, h])
  rwa [isBound, Bool.or_eq_false_iff] at hbound

theorem scanPiece_number {c : Char} {cs rest : List Char} (hc : c.isDigit = true)
    (hn : numberLength (cs ++ rest) = cs.length) :
    scanPiece c (cs ++ rest) = .ok (some .number, cs.length) := by
  have hne : ∀ d : Char, d.isDigit = false → c ≠ d := by
    rintro d hd rfl
    rw [hc] at hd
    cases hd
  obtain ⟨hblank, hdelimiter⟩ := not_isBound_of_isDigit hc
  have hmark :=
    stringMark?_none (hne _ (by decide)) (hne _ (by decide)) (hne _ (by decide)) (cs ++ rest)
  have hlexes := Lexes.number hdelimiter hmark (hne _ (by decide)) hc
  rw [hn] at hlexes
  exact scanPiece_lexeme hblank (hne _ (by decide)) hlexes

theorem identLength_digits {ds rest : List Char} (h : ∀ d ∈ ds, d.isDigit = true)
    (hrest : ∀ c ∈ rest.head?, isIdentChar c = false) : identLength (ds ++ rest) = ds.length :=
  identLength_name (fun d hd => by simp [isIdentChar, h d hd]) hrest

theorem number (hne : text ≠ []) (h : ∀ c ∈ text, c.isDigit = true) : Fragment EndsNumber text := by
  obtain ⟨c, cs, rfl⟩ := List.exists_cons_of_ne_nil hne
  obtain ⟨hc, hcs⟩ := List.forall_mem_cons.mp h
  exact piece _ (not_isBound_of_isDigit hc).2 fun rest hrest =>
    scanPiece_number hc (numberLength_whole (identLength_digits hcs hrest.1) hrest.2)

theorem fraction (hne : text ≠ []) (h : ∀ c ∈ text, c.isDigit = true) (hne' : more ≠ [])
    (h' : ∀ c ∈ more, c.isDigit = true) : Fragment EndsNumber (text ++ '.' :: more) := by
  obtain ⟨c, cs, rfl⟩ := List.exists_cons_of_ne_nil hne
  obtain ⟨d, ds, rfl⟩ := List.exists_cons_of_ne_nil hne'
  obtain ⟨hc, hcs⟩ := List.forall_mem_cons.mp h
  obtain ⟨hd, hds⟩ := List.forall_mem_cons.mp h'
  rw [List.cons_append]
  refine piece _ (not_isBound_of_isDigit hc).2 fun rest hrest => scanPiece_number hc ?_
  rw [List.append_assoc, List.cons_append, List.cons_append,
    numberLength_fraction hd (identLength_digits hcs (by simp; decide)),
    identLength_digits hds hrest.1]
  simp only [List.length_append, List.length_cons]
  omega

/-- A name with a quote in front of it. It is longer than one character, since a quote behind that
would make it a character literal. -/
theorem lifetime {c : Char} {cs : List Char} (hc : isIdentStart c = true)
    (hcs : ∀ d ∈ cs, isIdentChar d = true) (hne : cs ≠ []) :
    Fragment EndsName ('\'' :: c :: cs) := by
  refine piece (some .lifetime) (by decide) fun rest hrest => ?_
  have hno : ∀ r, cs ++ rest ≠ '\'' :: r := by
    obtain ⟨d, ds, rfl⟩ := List.exists_cons_of_ne_nil hne
    intro r he
    obtain ⟨rfl, -⟩ := List.cons.inj he
    exact absurd (hcs _ List.mem_cons_self) (by decide)
  have hlength := quoteLength_lifetime hc hno
  rw [identLength_name hcs hrest.1, Nat.add_comm] at hlength
  exact scanPiece_lexeme (by decide) (by decide) (.quote rfl rfl hlength)

theorem not_isDelimiter_of_mem_singleMarks {c : Char} (h : c ∈ singleMarks) :
    isDelimiter c = false := by
  have hall : singleMarks.all (fun d => !isDelimiter d) = true := by decide
  simpa using List.all_eq_true.mp hall c h

/-- A mark of one character in front of what makes no other mark with it. -/
theorem scanPiece_mark {c : Char} {rest : List Char} (hc : c ∈ singleMarks) (hs : c ≠ '/')
    (hno : ∀ d ∈ rest.head?, (c, d) ∉ doubleMarks) : scanPiece c rest = .ok (some .punct, 0) := by
  have hall : singleMarks.all
      (fun d => !isBlank d && d != '\x22' && d != 'b' && d != 'r' && d != '\x27' &&
      !d.isDigit && !isIdentStart d) = true := by decide
  have hplain := List.all_eq_true.mp hall c hc
  simp only [Bool.and_eq_true, Bool.not_eq_true', bne_iff_ne] at hplain
  obtain ⟨⟨⟨⟨⟨⟨hblank, hquote⟩, hb⟩, hr⟩, hsingle⟩, hdigit⟩, hstart⟩ := hplain
  have hlength : markLength c rest = .ok 0 := by
    cases rest with
    | nil => rw [markLength, if_pos hc]
    | cons d ds => rw [markLength, if_neg (hno d rfl), if_pos hc]
  exact scanPiece_lexeme hblank hs (.mark (not_isDelimiter_of_mem_singleMarks hc)
    (stringMark?_none hquote hb hr rest) hsingle hdigit hstart hlength)

theorem mark {c : Char} {p : Char → Prop} (hc : c ∈ singleMarks) (hs : c ≠ '/')
    (hp : ∀ m ∈ doubleMarks, m.1 = c → ¬p m.2) : Fragment (fun rest => ∀ d ∈ rest.head?, p d) [c] :=
  piece (some .punct) (not_isDelimiter_of_mem_singleMarks hc) fun _ hrest =>
    scanPiece_mark hc hs fun d hd hm => hp _ hm rfl (hrest d hd)

/-- A mark of one character that starts no other mark. -/
theorem mark_alone {c : Char} (hc : c ∈ singleMarks) (hs : c ≠ '/')
    (hno : ∀ m ∈ doubleMarks, m.1 ≠ c) : Closed [c] :=
  (mark hc hs fun m hm he => absurd he (hno m hm)).mono fun _ _ _ _ => trivial

theorem literal {mark body : List Char} {raw : Bool} (hm : (mark, raw) ∈ literalMarks)
    (hn : ∀ rest, stringLength raw (body ++ '\x22' :: rest) = .ok (body.length + 1)) :
    Closed (literalOf mark body) := by
  obtain ⟨c, cs, htext, -⟩ := scanPiece_literalOf hm (hn [])
  have hc : isDelimiter c = false := by
    simp only [literalMarks, List.mem_cons, Prod.mk.injEq, List.not_mem_nil, or_false] at hm
    rcases hm with ⟨rfl, -⟩ | ⟨rfl, -⟩ | ⟨rfl, -⟩ | ⟨rfl, -⟩ <;>
      (obtain ⟨rfl, -⟩ := List.cons.inj htext; decide)
  rw [htext]
  refine piece (some .string) hc fun rest _ => ?_
  obtain ⟨c', cs', htext', hpiece⟩ := scanPiece_literalOf hm (hn rest)
  obtain ⟨rfl, rfl⟩ := List.cons.inj (htext.symm.trans htext')
  exact hpiece

end Fragment

end WidgetView
