import WidgetView.Proofs.Mutations

/-!
# Copies of groups

Copies of groups. A mutation writes the text of a group once more behind the group. The scanner
finds what it finds up to a bracket whatever is behind the bracket, and a group ends with one. So
the lexemes of the group come twice, at other places, those around it stay, and in the token trees
the group has a copy of itself behind it.
-/
namespace WidgetView

namespace Scan

/-- A piece in front of a bracket is the same whatever is behind the bracket. -/
theorem scanPiece_before_delimiter {c d : Char} {cs rest : List Char} {k? : Option Kind} {n : Nat}
    (hd : isDelimiter d = true) (h : scanPiece c (cs ++ d :: rest) = .ok (k?, n))
    (hn : n ≤ cs.length) (more : List Char) : scanPiece c (cs ++ d :: more) = .ok (k?, n) := by
  cases k? with
  | none =>
    have hline : d ≠ '\n' := by
      rintro rfl
      exact absurd hd (by decide)
    exact scanPiece_none_local hline h hn (d :: more)
  | some k => exact scanPiece_bounded (bounded_cons (by simp [isBound, hd]) more) h hn

/-- In front of every text, and wherever it stands, a text is scanned by itself into some lexemes,
up to their places. -/
def Scans (text : List Char) (ls : List Lexeme) : Prop :=
  ∀ p more, ∃ ms, ms.map unplaced = ls.map unplaced ∧
    scanFrom p (text ++ more) = (scanFrom (p.after text) more).map (ms ++ ·)

namespace Scans

variable {text more : List Char} {ls ms : List Lexeme}

theorem nil : Scans [] [] := by
  intro p rest
  refine ⟨[], rfl, ?_⟩
  cases hs : scanFrom p rest <;> simp [hs, Except.map]

theorem append (h : Scans text ls) (h' : Scans more ms) : Scans (text ++ more) (ls ++ ms) := by
  intro p rest
  obtain ⟨ls', hls, hscan⟩ := h p (more ++ rest)
  obtain ⟨ms', hms, hscan'⟩ := h' (p.after text) rest
  refine ⟨ls' ++ ms', by rw [List.map_append, List.map_append, hls, hms], ?_⟩
  rw [List.append_assoc, hscan, hscan', Place.after_append]
  cases scanFrom ((p.after text).after more) rest <;> simp [Except.map]

/-- A piece that is the same in front of every text. -/
theorem piece {c : Char} {cs : List Char} (k? : Option Kind) (p : Place)
    (h : ∀ rest, scanPiece c (cs ++ rest) = .ok (k?, cs.length)) :
    Scans (c :: cs) (lexemesOf p k? (c :: cs)) :=
  fun q rest => ⟨_, unplaced_lexemesOf q p k? _, scanFrom_append (h rest) q⟩

theorem bracket {l : Lexeme} {b : Bracket} (h : l.bracket? = some b) : Scans [b.char] [l] := by
  intro p rest
  refine ⟨_, ?_, Fragment.scanFrom_delimiter b.isDelimiter_char p rest⟩
  rw [Lexeme.eq_of_bracket? h]
  rfl

/-- A text in front of lexemes that are those of the rest, up to their places. -/
theorem scanFrom_eq_ok {q : Place} {back : List Lexeme} (h : Scans text ls) (p : Place)
    (hback : scanFrom q more = .ok back) :
    ∃ ms, scanFrom p (text ++ more) = .ok ms ∧ ms.map unplaced = (ls ++ back).map unplaced := by
  obtain ⟨ls', hls, hscan⟩ := h p more
  obtain ⟨back', hback', hsame⟩ := scanFrom_unplaced hback (p.after text)
  refine ⟨ls' ++ back', by rw [hscan, hback']; rfl, ?_⟩
  rw [List.map_append, List.map_append, hls, hsame]

end Scans

/-- A bracket that the scanner found behind the text `before`: up to the bracket, the text is
scanned by itself. -/
structure BracketAt (p : Place) (before rest : List Char) (front back : List Lexeme) (l : Lexeme)
    (b : Bracket) : Prop where
  span : l.span = (p.after before).spanTo (p.after (before ++ [b.char]))
  front : Scans (before ++ [b.char]) (front ++ [l])
  back : scanFrom (p.after (before ++ [b.char])) rest = .ok back

/-- One more piece in front of a bracket. -/
theorem BracketAt.push {p : Place} {c : Char} {piece before rest : List Char} {k? : Option Kind}
    {front back : List Lexeme} {l : Lexeme} {b : Bracket}
    (h : BracketAt (p.after (c :: piece)) before rest front back l b)
    (hp : scanPiece c (piece ++ (before ++ b.char :: rest)) = .ok (k?, piece.length)) :
    BracketAt p (c :: piece ++ before) rest (lexemesOf p k? (c :: piece) ++ front) back l b := by
  have hafter : p.after (c :: piece ++ before ++ [b.char]) =
      (p.after (c :: piece)).after (before ++ [b.char]) := by
    rw [List.append_assoc, Place.after_append]
  refine ⟨?_, ?_, by rw [hafter, h.back]⟩
  · rw [hafter, Place.after_append]
    exact h.span
  · intro q more
    obtain ⟨ms, hms, hscan⟩ := h.front (q.after (c :: piece)) more
    refine ⟨lexemesOf q k? (c :: piece) ++ ms, ?_, ?_⟩
    · rw [List.append_assoc, List.map_append, List.map_append, hms, unplaced_lexemesOf q p]
    -- the piece ends in front of the bracket, so it is the same piece whatever is behind the
    -- bracket
    · rw [← List.append_assoc] at hp
      have hpiece := scanPiece_before_delimiter b.isDelimiter_char hp (by simp) more
      rw [List.append_assoc, ← List.singleton_append, ← List.append_assoc before] at hpiece
      rw [List.append_assoc (c :: piece), List.append_assoc (c :: piece), List.cons_append,
        scanFrom_append hpiece, hscan, Place.after_append q (c :: piece)]
      cases scanFrom ((q.after (c :: piece)).after (before ++ [b.char])) more <;> simp [Except.map]

/-- Every bracket among the lexemes of a text stands somewhere in the text. -/
theorem exists_bracketAt {p : Place} {source : List Char} {front back : List Lexeme} {l : Lexeme}
    {b : Bracket} (h : scanFrom p source = .ok (front ++ l :: back)) (hl : l.bracket? = some b) :
    ∃ before rest, source = before ++ b.char :: rest ∧ BracketAt p before rest front back l b := by
  generalize hls : front ++ l :: back = ls at h
  refine scanFrom_induction (motive := fun p source ls => ∀ front, front ++ l :: back = ls →
    ∃ before rest, source = before ++ b.char :: rest ∧ BracketAt p before rest front back l b)
    ?_ ?_ p source ls h front hls
  · intro p front he
    simp at he
  · intro p c cs k? n rest hp hr ih front he
    rcases lexemesOf_eq_append he with ⟨rfl, rfl, k, rfl, rfl⟩ | ⟨more, rfl, hmore⟩
    · obtain ⟨rfl, -⟩ : c = b.char ∧ cs.take n = [] := by
        simpa using congrArg (fun l => l.text.toList) (Lexeme.eq_of_bracket? hl)
      rw [scanPiece_delimiter b.isDelimiter_char] at hp
      obtain ⟨-, rfl⟩ := Prod.mk.inj (Except.ok.inj hp)
      exact ⟨[], cs, rfl, rfl, .bracket hl, hr⟩
    -- the bracket is further on: the piece at hand goes in front of what is known there
    · obtain ⟨before, after, hsplit, hat⟩ := ih more hmore
      have hcs : cs = cs.take n ++ (before ++ b.char :: after) := by
        rw [← hsplit, List.take_append_drop]
      have hn : (cs.take n).length = n := by
        have hsize := congrArg List.length hsplit
        simp only [List.length_drop, List.length_append, List.length_cons] at hsize
        rw [List.length_take]
        omega
      refine ⟨c :: cs.take n ++ before, after, ?_, hat.push ?_⟩
      · rw [List.append_assoc, List.cons_append, ← hcs]
      · rw [← hcs, hn]
        exact hp

/-- A group among the lexemes of a text has a text of its own: up to its end the text is scanned by
itself, and so is the group. -/
theorem exists_group_text {p : Place} {source : List Char} {front inner back : List Lexeme}
    {o c : Lexeme} {b b' : Bracket}
    (h : scanFrom p source = .ok (front ++ o :: (inner ++ c :: back))) (ho : o.bracket? = some b)
    (hc : c.bracket? = some b') :
    ∃ before text rest, source = before ++ (text ++ rest) ∧
      o.span.start = p.offset + before.length ∧
      c.span.stop = p.offset + (before ++ text).length ∧ Scans text (o :: (inner ++ [c])) ∧
      Scans (before ++ text) (front ++ o :: (inner ++ [c])) ∧ ∃ q, scanFrom q rest = .ok back := by
  obtain ⟨before, more, rfl, hopening⟩ := exists_bracketAt h ho
  obtain ⟨within, rest, rfl, hclosing⟩ := exists_bracketAt hopening.back hc
  refine ⟨before, b.char :: (within ++ [b'.char]), rest, by simp, ?_, ?_, ?_, ?_, _, hclosing.back⟩
  · simp [hopening.span, Place.spanTo]
  · simp only [hclosing.span, Place.spanTo, Place.offset_after, List.length_append,
      List.length_cons, List.length_nil]
    omega
  · exact (Scans.bracket ho).append hclosing.front
  · have hall := hopening.front.append hclosing.front
    simpa using hall

end Scan

open Scan (Scans unplaced)
open Nest (Nests)

/-! ### Holes in token trees -/

/-- A place in token trees where a run of tokens can stand, with the tokens around it. -/
inductive Hole where
  | here (left right : List Token)
  | inside (left : List Token) (d : Delimiter) (span : Span) (hole : Hole) (right : List Token)

namespace Hole

def fill : Hole → List Token → List Token
  | here left right, ts => left ++ (ts ++ right)
  | inside left d span hole right, ts => left ++ .group d (hole.fill ts) span :: right

/-- A hole behind one more token. -/
def push (t : Token) : Hole → Hole
  | here left right => here (t :: left) right
  | inside left d span hole right => inside (t :: left) d span hole right

@[simp] theorem fill_push (t : Token) (hole : Hole) (ts : List Token) :
    (hole.push t).fill ts = t :: hole.fill ts := by
  cases hole <;> rfl

end Hole

mutual

theorem Token.exists_hole {t u : Token} (h : t ∈ u.descendants) (right : List Token) :
    ∃ hole : Hole, u :: right = hole.fill [t] := by
  match u with
  | .leaf l =>
    obtain rfl : t = .leaf l := by simpa [Token.descendants] using h
    exact ⟨.here [] right, rfl⟩
  | .group d cs s =>
    rw [Token.descendants] at h
    rcases List.mem_cons.mp h with rfl | h
    · exact ⟨.here [] right, rfl⟩
    · obtain ⟨hole, rfl⟩ := exists_hole h
      exact ⟨.inside [] d s hole right, rfl⟩

/-- Every token of token trees stands at some place in them. -/
theorem exists_hole {t : Token} {ts : List Token} (h : t ∈ descendants ts) :
    ∃ hole : Hole, ts = hole.fill [t] := by
  match ts with
  | [] => simp [descendants] at h
  | u :: us =>
    rw [descendants] at h
    rcases List.mem_append.mp h with h | h
    · exact Token.exists_hole h us
    · obtain ⟨hole, rfl⟩ := exists_hole h
      exact ⟨hole.push u, by rw [Hole.fill_push]⟩

end

theorem Hole.mem_descendants (hole : Hole) (t : Token) : t ∈ descendants (hole.fill [t]) := by
  induction hole with
  | here left right => exact mem_descendants_of_mem (by simp [fill])
  | inside left d s hole right ih =>
    have hgroup : .group d (hole.fill [t]) s ∈ (inside left d s hole right).fill [t] := by
      simp [fill]
    exact descendants_group_subset hgroup ih

theorem mem_descendants_iff_hole {t : Token} {ts : List Token} :
    t ∈ descendants ts ↔ ∃ hole : Hole, ts = hole.fill [t] := by
  refine ⟨exists_hole, ?_⟩
  rintro ⟨hole, rfl⟩
  exact hole.mem_descendants t

namespace Nest

theorem Nests.exists_of_append {ls : List Lexeme} {ts us : List Token} (h : Nests ls (ts ++ us)) :
    ∃ front back, ls = front ++ back ∧ Nests front ts ∧ Nests back us := by
  induction ts generalizing ls with
  | nil => exact ⟨[], ls, rfl, .nil, h⟩
  | cons t ts ih =>
    cases h with
    | leaf hl h =>
      obtain ⟨front, back, rfl, hfront, hback⟩ := ih h
      exact ⟨_ :: front, back, rfl, .leaf hl hfront, hback⟩
    | group ho hc hi h =>
      obtain ⟨front, back, rfl, hfront, hback⟩ := ih h
      exact ⟨_, back, by simp, .group ho hc hi hfront, hback⟩

/-- The lexemes of what fills a hole are a stretch of all lexemes, and other lexemes in their place
are nested in the same hole. -/
theorem Nests.exists_of_fill {hole : Hole} {ls : List Lexeme} {ts : List Token}
    (h : Nests ls (hole.fill ts)) :
    ∃ front mid back, ls = front ++ (mid ++ back) ∧ Nests mid ts ∧
      ∀ ms us, Nests ms us → Nests (front ++ (ms ++ back)) (hole.fill us) := by
  induction hole generalizing ls with
  | here left right =>
    obtain ⟨front, more, rfl, hfront, hmore⟩ := h.exists_of_append
    obtain ⟨mid, back, rfl, hmid, hback⟩ := hmore.exists_of_append
    exact ⟨front, mid, back, rfl, hmid, fun ms us hms => hfront.append (hms.append hback)⟩
  | inside left d s hole right ih =>
    obtain ⟨front, more, rfl, hfront, hmore⟩ := h.exists_of_append
    cases hmore with
    | @group o c _ after _ _ _ ho hc hi hr =>
      obtain ⟨front', mid, back, rfl, hmid, hfill⟩ := ih hi
      refine ⟨front ++ o :: front', mid, back ++ c :: after, by simp, hmid, fun ms us hms => ?_⟩
      have hgroup := hfront.append (.group ho hc (hfill ms us hms) hr)
      simpa [Hole.fill] using hgroup

/-- The lexemes of a group start with its opening bracket and end with its closing one. -/
theorem Nests.exists_of_isGroup {ls : List Lexeme} {t : Token} (h : Nests ls [t]) (ht : t.isGroup) :
    ∃ o inner c b b', ls = o :: (inner ++ [c]) ∧ o.bracket? = some b ∧ c.bracket? = some b' ∧
      t.span.start = o.span.start ∧ t.span.stop = c.span.stop := by
  cases h with
  | leaf _ _ => cases ht
  | group ho hc _ hr =>
    cases hr with
    | nil => exact ⟨_, _, _, _, _, rfl, ho, hc, rfl, rfl⟩

end Nest

namespace Fuzz.Mutation

/-! ### The copy of a group -/

/-- What stands between a group and its copy. -/
def separators : List String := ["", " ", ", "]

/-- The tokens of a separator, without their places. -/
def between (separator : String) : List Token :=
  if separator = ", " then [.leaf (markOf ',')] else []

/-- A text in which the part of a span comes once more, behind a separator. -/
def withCopy (s : List Char) (span : Span) (separator : String) : List Char :=
  s.take span.stop ++ separator.toList ++ (s.take span.stop).drop span.start ++ s.drop span.stop

theorem withCopy_eq {before text rest : List Char} {span : Span}
    (hstart : span.start = before.length) (hstop : span.stop = (before ++ text).length)
    (separator : String) :
    withCopy (before ++ (text ++ rest)) span separator =
      before ++ text ++ (separator.toList ++ text) ++ rest := by
  rw [withCopy, hstart, hstop, ← List.append_assoc before, List.take_left, List.drop_left,
    List.drop_left]
  simp only [List.append_assoc]

theorem exists_scans_separator {separator : String} (h : separator ∈ separators) :
    ∃ ls, Scans separator.toList ls ∧ Nests ls (between separator) := by
  have hblank : Scans [' '] [] := .piece none {} fun rest => Scan.scanPiece_blank (by decide) rest
  have hcomma : Scans [','] [markOf ','] := by
    have halone : ∀ m ∈ Scan.doubleMarks, m.1 ≠ ',' := by decide
    exact .piece (some .punct) ⟨0, 0, 0⟩ fun rest =>
      Fragment.scanPiece_mark (by decide) (by decide) fun d _ hm => halone _ hm rfl
  simp only [separators, List.mem_cons, List.not_mem_nil, or_false] at h
  rcases h with rfl | rfl | rfl
  · exact ⟨[], .nil, .nil⟩
  · exact ⟨[], hblank, .nil⟩
  · exact ⟨[markOf ','], hcomma.append hblank, .leaf (by decide) .nil⟩

/-- A text is another one in which a group comes twice, and in its token trees, which are otherwise
those of the other text, the group that stands in the hole has a copy of itself behind it. -/
structure Doubled (s : List Char) (hole : Hole) (g : Token) (separator : String)
    (copied : List Char) : Prop where
  text : copied = withCopy s g.span separator
  trees : ∃ us, tokenize copied = .ok us ∧
    shapes id us = shapes id (hole.fill (g :: (between separator ++ [g])))

theorem doubled_withCopy {s : List Char} {hole : Hole} {g : Token}
    (ht : tokenize s = .ok (hole.fill [g])) (hg : g.isGroup) {separator : String}
    (hs : separator ∈ separators) :
    Doubled s hole g separator (withCopy s g.span separator) := by
  obtain ⟨ls, hscan, hnests⟩ := nests_of_tokenize ht
  obtain ⟨front, mid, back, rfl, hmid, hfill⟩ := hnests.exists_of_fill
  obtain ⟨o, inner, c, b, b', rfl, ho, hc, hstart, hstop⟩ := hmid.exists_of_isGroup hg
  simp only [scan, List.append_assoc, List.cons_append] at hscan
  obtain ⟨before, text, rest, rfl, hbegin, hend, htext, hbefore, q, hrest⟩ :=
    Scan.exists_group_text hscan ho hc
  obtain ⟨ms, hms, hbetween⟩ := exists_scans_separator hs
  obtain ⟨all, hall, hsame⟩ := (hbefore.append (hms.append htext)).scanFrom_eq_ok {} hrest
  have hcopied := hfill _ _ (hmid.append (hbetween.append hmid))
  have hplaces : all.map unplaced =
      (front ++ (o :: (inner ++ [c]) ++ (ms ++ o :: (inner ++ [c])) ++ back)).map
        fun l => unplaced (id l) := by
    simpa using hsame
  obtain ⟨us, hus, hshape⟩ := hcopied.shape (fun _ => rfl) hplaces
  refine ⟨rfl, us, tokenize_eq_ok.mpr ⟨all, ?_, nest_eq_ok_iff.mpr hus⟩, hshape⟩
  rw [scan, withCopy_eq (by simpa [hbegin] using hstart) (by simpa [hend] using hstop), hall]

/-! ### The draws -/

mutual

theorem mem_groupsIn {t : Token} {span : Span} :
    span ∈ groupsIn t ↔ ∃ g ∈ t.descendants, g.isGroup ∧ g.span = span := by
  match t with
  | .leaf l => simp [groupsIn, Token.descendants, Token.isGroup]
  | .group d cs s =>
    rw [groupsIn, List.mem_cons, mem_groupsInAll, Token.descendants, List.exists_mem_cons_iff]
    simp only [Token.isGroup, Token.span, true_and, eq_comm]

theorem mem_groupsInAll {ts : List Token} {span : Span} :
    span ∈ groupsInAll ts ↔ ∃ g ∈ descendants ts, g.isGroup ∧ g.span = span := by
  match ts with
  | [] => simp [groupsInAll, descendants]
  | t :: ts =>
    rw [groupsInAll, List.mem_append, mem_groupsInAll, mem_groupsIn, descendants, or_comm]
    simp only [List.mem_append, or_and_right, exists_or]

end

/-- The spans to draw from are those of the groups, at every depth. -/
theorem mem_groups {s : List Char} {ts : List Token} (ht : tokenize s = .ok ts) {span : Span} :
    span ∈ groups s ↔ ∃ g ∈ descendants ts, g.isGroup ∧ g.span = span := by
  rw [groups, ht]
  exact mem_groupsInAll

theorem duplicate_eq_ok {s : List Char} {d e f : Draws} {m n : Nat} {span : Span}
    {separator : String} (hd : d.next? = some (m, e)) (he : e.next? = some (n, f))
    (hspan : (groups s)[m % (groups s).length]? = some span)
    (hseparator : separators[n % separators.length]? = some separator) :
    duplicate s d = .ok (withCopy s span separator) f := by
  have hgroup := choose_eq_ok hd hspan
  have hchoice := choose_eq_ok he hseparator
  unfold duplicate
  cases hgs : groups s with
  | nil => simp [hgs] at hspan
  | cons g gs =>
    rw [hgs] at hgroup
    rw [separators] at hchoice
    simp only [Bind.bind, EStateM.bind, hgroup, hchoice]
    rfl

/-- Whatever is drawn for a text with a group, the result is the text with one of its groups twice.
Every group is the one that comes twice for some draws, with each of the separators. -/
theorem duplicate_copies_group {s : List Char} {ts : List Token} (ht : tokenize s = .ok ts)
    (hg : ∃ g ∈ descendants ts, g.isGroup) :
    (∀ (d e f : Draws) (m n : Nat), d.next? = some (m, e) → e.next? = some (n, f) →
      ∃ (hole : Hole) (g : Token) (separator : String) (copied : List Char),
        ts = hole.fill [g] ∧ g.isGroup ∧ separator ∈ separators ∧ duplicate s d = .ok copied f ∧
        Doubled s hole g separator copied) ∧
    ∀ (hole : Hole) (g : Token) (separator : String), ts = hole.fill [g] → g.isGroup →
      separator ∈ separators →
      ∃ (i j : Nat) (f : Draws) (copied : List Char),
        duplicate s { given := [i, j] } = .ok copied f ∧ Doubled s hole g separator copied := by
  constructor
  · intro d e f m n hd he
    have hgroups : groups s ≠ [] := by
      obtain ⟨g, hmem, hgroup⟩ := hg
      exact List.ne_nil_of_mem ((mem_groups ht).mpr ⟨g, hmem, hgroup, rfl⟩)
    obtain ⟨span, hspan, hm⟩ := exists_chosen hgroups m
    obtain ⟨separator, hseparator, hn⟩ := exists_chosen (show separators ≠ [] by decide) n
    obtain ⟨g, hmem, hgroup, rfl⟩ := (mem_groups ht).mp hspan
    obtain ⟨hole, rfl⟩ := mem_descendants_iff_hole.mp hmem
    exact ⟨hole, g, separator, _, rfl, hgroup, hseparator, duplicate_eq_ok hd he hm hn,
      doubled_withCopy ht hgroup hseparator⟩
  · rintro hole g separator rfl hgroup hseparator
    have hspan : g.span ∈ groups s := (mem_groups ht).mpr ⟨g, hole.mem_descendants g, hgroup, rfl⟩
    obtain ⟨i, hi⟩ := exists_choice hspan
    obtain ⟨j, hj⟩ := exists_choice hseparator
    exact ⟨i, j, _, _, duplicate_eq_ok rfl rfl hi hj, doubled_withCopy ht hgroup hseparator⟩

/-- A group in a group, in front of a comment and a string with brackets in them. -/
theorem duplicate_copies_group_sample :
    let s := "f(a[0] /* ] */, \"(\")".toList
    let copied := "f(a[0], [0] /* ] */, \"(\")".toList
    ∃ (ts : List Token) (hole : Hole) (g : Token) (separator : String) (f : Draws),
      tokenize s = .ok ts ∧ ts = hole.fill [g] ∧ g.isGroup ∧
        duplicate s { given := [1, 2] } = .ok copied f ∧
      Doubled s hole g separator copied := by
  intro s copied
  obtain ⟨ts, ht, hany⟩ :=
    exists_ok_of_any (x := tokenize s) (p := fun ts => (descendants ts).any Token.isGroup)
    (by decide +kernel)
  obtain ⟨hole, g, separator, r, hts, hgroup, -, hrun, hdoubled⟩ :=
    (duplicate_copies_group ht (by simpa using hany)).1 { given := [1, 2] } _ _ 1 2 rfl rfl
  have hcheck :
      (match duplicate s { given := [1, 2] } with | .ok r _ => r == copied | .error _ _ => false) =
        true := by
    decide +kernel
  rw [hrun] at hcheck
  obtain rfl : r = copied := eq_of_beq hcheck
  exact ⟨ts, hole, g, separator, _, ht, hts, hgroup, hrun, hdoubled⟩

end Fuzz.Mutation

end WidgetView
