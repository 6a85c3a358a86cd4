import WidgetView.Parse.Cursor
import WidgetView.Proofs.Acceptance

/-!
# Angle brackets by depth

What the scan for a qualified name finds at a cursor. The grammar takes the angle brackets of
generics as nested; here they are counted. A run of tokens is generics if it opens with an angle
bracket, and the number of brackets that are left open falls to zero at its last token and not
before. The scan counts as well, and past the end of a name it may count below zero; what it finds
is a path of the grammar all the same, there is one such path at most, and the tokens of it are not
used up.
-/
namespace WidgetView

/-! ### Counting angle brackets -/

/-- What a token adds to the number of open angle brackets. -/
def Token.angle (t : Token) : Int :=
  if t.isPunctOf "<" then 1 else if t.isPunctOf ">" then -1 else 0

/-- The angle brackets that a run of tokens opens, less those that it closes. -/
def angleDepth (ts : List Token) : Int := (ts.map Token.angle).sum

@[simp] theorem angleDepth_nil : angleDepth [] = 0 := rfl

@[simp] theorem angleDepth_cons (t : Token) (ts : List Token) :
    angleDepth (t :: ts) = t.angle + angleDepth ts := by simp [angleDepth]

@[simp] theorem angleDepth_append (ts us : List Token) :
    angleDepth (ts ++ us) = angleDepth ts + angleDepth us := by simp [angleDepth]

namespace Token

variable {t : Token}

theorem angle_open (h : t.isPunctOf "<") : t.angle = 1 := if_pos h

theorem angle_close (h : t.isPunctOf ">") : t.angle = -1 := by
  obtain ⟨span, rfl⟩ := isPunctOf_eq_true h
  rfl

theorem angle_single (h : t.isIdent ∨ t.isPunctOf "::" ∨ t.isPunctOf ",") : t.angle = 0 := by
  rcases h with h | h | h
  · obtain ⟨name, hname⟩ := isIdent_iff.mp h
    obtain ⟨span, rfl⟩ := ident?_eq_some hname
    rfl
  · obtain ⟨span, rfl⟩ := isPunctOf_eq_true h
    rfl
  · obtain ⟨span, rfl⟩ := isPunctOf_eq_true h
    rfl

end Token

namespace Grammar

open QualifiedName (InName)

/-- Generics by the number of their open brackets. -/
structure Angled (gs : List Token) : Prop where
  inName : ∀ t ∈ gs, InName t
  opens : ∃ t ∈ gs.head?, t.isPunctOf "<"
  balanced : angleDepth gs = 0
  together : ∀ n, 0 < n → n < gs.length → 0 < angleDepth (gs.take n)

theorem Balanced.inName {ts : List Token} (h : Balanced ts) : ∀ t ∈ ts, InName t := by
  induction h with
  | nil => simp
  | single h _ ih =>
    refine List.forall_mem_cons.mpr ⟨?_, ih⟩
    rcases h with h | h | h
    · exact .inl h
    · exact .inr (.inl h)
    · exact .inr (.inr (.inl h))
  | angle ht _ hu _ ihin ihout =>
    refine List.forall_mem_cons.mpr
      ⟨.inr (.inr (.inr (.inl ht))), List.forall_mem_append.mpr ⟨ihin, ?_⟩⟩
    exact List.forall_mem_cons.mpr ⟨.inr (.inr (.inr (.inr hu))), ihout⟩

theorem Balanced.angleDepth_eq {ts : List Token} (h : Balanced ts) : angleDepth ts = 0 := by
  induction h with
  | nil => rfl
  | single h _ ih => rw [angleDepth_cons, Token.angle_single h, ih, add_zero]
  | angle ht _ hu _ ihin ihout =>
    rw [angleDepth_cons, angleDepth_append, angleDepth_cons, Token.angle_open ht,
      Token.angle_close hu, ihin, ihout]
    rfl

/-- A front of a balanced run closes no bracket that it does not open. -/
theorem Balanced.angleDepth_take {ts : List Token} (h : Balanced ts) (n : Nat) :
    0 ≤ angleDepth (ts.take n) := by
  induction h generalizing n with
  | nil => simp
  | single h _ ih =>
    cases n with
    | zero => simp
    | succ n =>
      rw [List.take_succ_cons, angleDepth_cons, Token.angle_single h, zero_add]
      exact ih n
  | @angle t u ts us ht hin hu _ ihin ihout =>
    cases n with
    | zero => simp
    | succ n =>
      rw [List.take_succ_cons, List.take_append, angleDepth_cons, angleDepth_append,
        Token.angle_open ht]
      have hfront := ihin n
      cases hrest : n - ts.length with
      | zero =>
        rw [List.take_zero, angleDepth_nil]
        omega
      | succ m =>
        have hback := ihout m
        rw [List.take_succ_cons, angleDepth_cons, Token.angle_close hu]
        omega

end Grammar

namespace QualifiedName

open Grammar

/-- The second pass reaches the end of a run that closes the last of the brackets open before it
there. -/
theorem angleLength_of_angleDepth {ts : List Token} (hin : ∀ t ∈ ts, InName t) {depth : Int}
    (hd : 0 < depth) (hend : depth + angleDepth ts = 0)
    (hopen : ∀ n < ts.length, 0 < depth + angleDepth (ts.take n)) :
    angleLength depth ts = some ts.length := by
  induction ts generalizing depth with
  | nil =>
    rw [angleDepth_nil] at hend
    omega
  | cons t ts ih =>
    obtain ⟨ht, hts⟩ := List.forall_mem_cons.mp hin
    rw [angleDepth_cons] at hend
    have hnext : ∀ n < ts.length, 0 < depth + t.angle + angleDepth (ts.take n) := by
      intro n hn
      have hfront := hopen (n + 1) (by simpa using hn)
      rw [List.take_succ_cons, angleDepth_cons] at hfront
      omega
    have hsingle : (t.isIdent ∨ t.isPunctOf "::" ∨ t.isPunctOf ",") →
        angleLength depth (t :: ts) = some (t :: ts).length := by
      intro h
      rw [Token.angle_single h] at hend hnext
      rw [angleLength_single h, ih hts hd (by omega) (by simpa using hnext)]
      rfl
    rcases ht with ht | ht | ht | ht | ht
    · exact hsingle (.inl ht)
    · exact hsingle (.inr (.inl ht))
    · exact hsingle (.inr (.inr ht))
    · rw [Token.angle_open ht] at hend hnext
      rw [angleLength_open ht, ih hts (by omega) (by omega) hnext]
      rfl
    · rw [Token.angle_close ht] at hend hnext
      rw [angleLength_close ht, Int.sub_eq_add_neg]
      by_cases hone : depth = 1
      · -- nothing is left open, so nothing may follow
        have hnil : ts = [] := by
          by_contra hne
          have hfront := hnext 0 (List.length_pos_of_ne_nil hne)
          rw [List.take_zero, angleDepth_nil] at hfront
          omega
        rw [if_pos hone, hnil]
        rfl
      · rw [if_neg hone, ih hts (by omega) (by omega) hnext]
        rfl

end QualifiedName

namespace Grammar

open QualifiedName

/-- Nested angle brackets are those that are counted so. -/
theorem generics_iff_angled {gs : List Token} : Generics gs ↔ Angled gs := by
  constructor
  · intro h
    obtain @⟨t, u, ts, ht, hin, hu⟩ := h
    refine ⟨?_, ⟨_, rfl, ht⟩, ?_, ?_⟩
    · refine List.forall_mem_cons.mpr
        ⟨.inr (.inr (.inr (.inl ht))), List.forall_mem_append.mpr ⟨hin.inName, ?_⟩⟩
      exact List.forall_mem_singleton.mpr (.inr (.inr (.inr (.inr hu))))
    · simp [Token.angle_open ht, Token.angle_close hu, hin.angleDepth_eq]
    · intro n hpos hlt
      obtain ⟨m, rfl⟩ : ∃ m, n = m + 1 := ⟨n - 1, by omega⟩
      have hm : m ≤ ts.length := by
        simp only [List.length_cons, List.length_append, List.length_nil] at hlt
        omega
      have hfront := hin.angleDepth_take m
      rw [List.take_succ_cons, List.take_append_of_le_length hm, angleDepth_cons,
        Token.angle_open ht]
      omega
  · rintro ⟨hin, ⟨t, ht, hopen⟩, hbalanced, htogether⟩
    cases gs with
    | nil => cases ht
    | cons u us =>
      obtain rfl := Option.some.inj ht
      obtain ⟨-, hus⟩ := List.forall_mem_cons.mp hin
      rw [angleDepth_cons, Token.angle_open hopen] at hbalanced
      refine generics_of_angleLength hus hopen ?_
      rw [angleLength_open hopen, angleLength_of_angleDepth hus (by omega) (by omega)]
      · rfl
      · intro n hn
        have hfront := htogether (n + 1) (by omega) (by simpa using hn)
        rwa [List.take_succ_cons, angleDepth_cons, Token.angle_open hopen] at hfront

end Grammar

/-! ### Paths at a cursor -/

namespace Cursor

open Grammar

/-- The next `n` tokens spell a path: `front` its segments, and `gs` its generics if it has any. -/
structure Spells (c : Cursor) (front gs : List Token) (path : WidgetPath) (n : Nat) : Prop where
  next : c.rest.take n = front ++ gs
  length : (front ++ gs).length = n
  segments : Segments front path.segments
  angled : gs = [] ∨ Angled gs
  generics : path.generics = if gs = [] then none else some (String.ofList (render gs))
  place : ∃ t ∈ c.rest.head?, path.line = t.span.line ∧ path.column = t.span.column
  follow : ∀ t ∈ c.rest[n]?, t.isGroup ∨ t.isPunctOf ","

namespace Spells

variable {c : Cursor} {front gs : List Token} {path : WidgetPath} {n : Nat}

theorem rest_eq (h : c.Spells front gs path n) : c.rest = front ++ gs ++ c.rest.drop n := by
  rw [← h.next, List.take_append_drop]

/-- What is spelled is a name of the grammar. -/
theorem name (h : c.Spells front gs path n) : Name (front ++ gs) path := by
  obtain ⟨t, us, rfl, -⟩ := h.segments.head
  obtain ⟨u, hu, hline, hcolumn⟩ := h.place
  have hrest := h.rest_eq
  obtain rfl : t = u := by
    rw [hrest] at hu
    exact Option.some.inj hu
  have hgenerics := h.generics
  have hsegments := h.segments
  obtain ⟨ss, generics, line, column⟩ := path
  dsimp only at hline hcolumn hgenerics hsegments
  subst hline hcolumn hgenerics
  rcases h.angled with rfl | hangled
  · rw [List.append_nil, if_pos rfl]
    exact .plain hsegments
  · have hne : gs ≠ [] := by
      rintro rfl
      obtain ⟨t, ht, -⟩ := hangled.opens
      cases ht
    rw [if_neg hne]
    exact .generic hsegments (generics_iff_angled.mpr hangled)

theorem follows (h : c.Spells front gs path n) : Follow (c.rest.drop n) := by
  have hfollow := h.follow
  rw [← List.head?_drop] at hfollow
  cases hdrop : c.rest.drop n with
  | nil => exact .done
  | cons t us =>
    rw [hdrop] at hfollow
    rcases hfollow t rfl with ht | ht
    · cases t with
      | leaf l => cases ht
      | group d cs s => exact .group
    · exact .comma ht

end Spells

theorem exists_spells {c : Cursor} {ns after : List Token} {path : WidgetPath}
    (hrest : c.rest = ns ++ after) (hn : Name ns path) (hf : Follow after) :
    ∃ front gs, c.Spells front gs path ns.length := by
  have hnext : c.rest.take ns.length = ns := by rw [hrest, List.take_left]
  have hfollow : ∀ t ∈ c.rest[ns.length]?, t.isGroup ∨ t.isPunctOf "," := by
    rw [← List.head?_drop, hrest, List.drop_left]
    cases hf with
    | done => simp
    | comma h => simp [h]
    | group => simp [Token.isGroup]
  cases hn with
  | @plain t ts ss h =>
    refine ⟨t :: ts, [], by rw [hnext, List.append_nil], by rw [List.append_nil], h, .inl rfl,
      rfl, ?_, hfollow⟩
    exact ⟨t, by rw [hrest]; rfl, rfl, rfl⟩
  | @generic t ts gs ss h hg =>
    have hne : gs ≠ [] := by
      rintro rfl
      cases hg
    refine ⟨t :: ts, gs, hnext, rfl, h, .inr (generics_iff_angled.mp hg),
      (if_neg hne).symm, ?_, hfollow⟩
    exact ⟨t, by rw [hrest]; rfl, rfl, rfl⟩

/-- The scan finds what is spelled at the cursor, and nothing else. -/
theorem scan?_eq_some_iff_spells {c : Cursor} {path : WidgetPath} {n : Nat} :
    QualifiedName.scan? c.rest = some (path, n) ↔ ∃ front gs, c.Spells front gs path n := by
  rw [QualifiedName.scan?_eq_some_iff]
  constructor
  · rintro ⟨ns, after, hrest, rfl, hn, hf⟩
    exact exists_spells hrest hn hf
  · rintro ⟨front, gs, h⟩
    exact ⟨front ++ gs, c.rest.drop n, h.rest_eq, h.length, h.name, h.follows⟩

/-- Where a path is spelled, no attribute begins. -/
theorem Spells.no_mark {c : Cursor} {front gs : List Token} {path : WidgetPath} {n : Nat}
    (h : c.Spells front gs path n) : ∀ t us, c.rest = t :: us → ¬t.isPunctOf "#" := by
  rw [h.rest_eq]
  exact Parse.not_mark_of_name h.name

end Cursor

/-- At every cursor the scan finds the path that the next tokens spell, with their number, or none
if they spell none. No other path and no other number of tokens are spelled there. The tokens are
still to be read: a declaration goes on behind them, and an error is about the token at the
cursor. -/
theorem scan_finds_spelled (c : Cursor) :
    (∀ path n, QualifiedName.scan? c.rest = some (path, n) ↔ ∃ front gs, c.Spells front gs path n) ∧
      (∀ front gs path n front' gs' path' n', c.Spells front gs path n →
        c.Spells front' gs' path' n' →
        n = n' ∧ path = path') ∧
      (∀ front gs path n stop, c.Spells front gs path n →
        Parse.declaration stop c.rest = .ok ⟨{}, path, Parse.shell path stop (c.rest.drop n)⟩) ∧
      ∀ stop, (∀ front gs path n, ¬c.Spells front gs path n) →
        (∀ t ∈ c.rest.head?, ¬t.isPunctOf "#") →
        Parse.declaration stop c.rest =
          .error (ParseError.expected stop c.rest .qualifiedName) := by
  refine ⟨fun _ _ => Cursor.scan?_eq_some_iff_spells, ?_, ?_, ?_⟩
  · intro front gs path n front' gs' path' n' h h'
    have hscan := Cursor.scan?_eq_some_iff_spells.mpr ⟨front, gs, h⟩
    have hscan' := Cursor.scan?_eq_some_iff_spells.mpr ⟨front', gs', h'⟩
    obtain ⟨rfl, rfl⟩ := Prod.mk.inj (Option.some.inj (hscan.symm.trans hscan'))
    exact ⟨rfl, rfl⟩
  · intro front gs path n stop h
    have hscan := Cursor.scan?_eq_some_iff_spells.mpr ⟨front, gs, h⟩
    rw [Parse.declaration_of_no_mark h.no_mark, hscan]
  · intro stop hno hmark
    have hscan : QualifiedName.scan? c.rest = none := by
      rw [Option.eq_none_iff_forall_ne_some]
      rintro ⟨path, n⟩ hscan
      obtain ⟨front, gs, h⟩ := Cursor.scan?_eq_some_iff_spells.mp hscan
      exact hno front gs path n h
    have hhead : ∀ t us, c.rest = t :: us → ¬t.isPunctOf "#" := by
      intro t us hrest
      exact hmark t (by rw [hrest]; rfl)
    rw [Parse.declaration_of_no_mark hhead, hscan]

/-- Generics within generics, in the middle of a run; and a run in which more brackets are closed
than opened, so that the scan goes on behind the comma. -/
theorem scan_finds_spelled_samples :
    (∃ ts front gs, tokenize "x: a::B<C<d>, e> \x7b \x7d".toList = .ok ts ∧
      Cursor.Spells ⟨ts, 2, endOf ts⟩ front gs ⟨["a", "B"], some "<C<d>, e>", 1, 4⟩ 11) ∧
    ∃ ts, tokenize "a>, b \x7b \x7d".toList = .ok ts ∧ ∀ stop,
      Parse.declaration stop ts = .error (ParseError.expected stop ts .qualifiedName) := by
  constructor
  · obtain ⟨ts, ht, hscan⟩ := exists_ok_of_any (x := tokenize "x: a::B<C<d>, e> \x7b \x7d".toList)
      (p := fun ts => QualifiedName.scan? (Cursor.rest ⟨ts, 2, endOf ts⟩) ==
        some (⟨["a", "B"], some "<C<d>, e>", 1, 4⟩, 11)) (by decide +kernel)
    obtain ⟨front, gs, h⟩ := ((scan_finds_spelled ⟨ts, 2, endOf ts⟩).1 _ _).mp (eq_of_beq hscan)
    exact ⟨ts, front, gs, ht, h⟩
  · obtain ⟨ts, ht, hscan⟩ := exists_ok_of_any (x := tokenize "a>, b \x7b \x7d".toList)
      (p := fun ts => decide (QualifiedName.scan? ts = none ∧ ∀ t ∈ ts.head?, ¬t.isPunctOf "#"))
      (by decide +kernel)
    obtain ⟨hnone, hmark⟩ := of_decide_eq_true hscan
    obtain ⟨hiff, -, -, hfails⟩ := scan_finds_spelled (Cursor.ofTokens ts)
    refine ⟨ts, ht, fun stop => hfails stop ?_ hmark⟩
    intro front gs path n h
    have hsome := (hiff path n).mpr ⟨front, gs, h⟩
    rw [Cursor.rest_ofTokens, hnone] at hsome
    cases hsome

end WidgetView
