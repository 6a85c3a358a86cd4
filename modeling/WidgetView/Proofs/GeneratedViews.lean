import WidgetView.Fuzz.Generate
import WidgetView.Proofs.Drawing
import WidgetView.Proofs.FileFaults
import WidgetView.Proofs.Fragments

/-!
# Generated views

Generated views are taken apart, whatever is drawn. Each generator yields a fragment: an expression
may stand in front of a comma, a point or a delimiter, a widget in front of anything. No generated
view starts with a string, so none of them names a file.
-/
namespace WidgetView.Fuzz

open Scan

/-! ### Expressions -/

/-- What may follow an expression: what ends every lexeme, a comma or a semicolon, or a point and a
name. -/
def EndsExpr (rest : List Char) : Prop :=
  Bounded rest ∨ (∃ c cs, rest = c :: cs ∧ (c = ',' ∨ c = ';')) ∨
    ∃ c cs, rest = '.' :: c :: cs ∧ isIdentStart c = true

theorem EndsExpr.endsName {rest : List Char} (h : EndsExpr rest) : Fragment.EndsName rest := by
  rcases h with h | ⟨c, cs, rfl, rfl | rfl⟩ | ⟨c, cs, rfl, -⟩
  · exact Fragment.endsName_of_bounded h
  · exact Fragment.endsName_cons (by decide) (by decide) cs
  · exact Fragment.endsName_cons (by decide) (by decide) cs
  · exact Fragment.endsName_cons (by decide) (by decide) _

theorem EndsExpr.endsNumber {rest : List Char} (h : EndsExpr rest) : Fragment.EndsNumber rest := by
  refine ⟨h.endsName.1, ?_⟩
  rintro d ds rfl
  rcases h with h | ⟨c, cs, he, hc⟩ | ⟨c, cs, he, hc⟩
  · exact (Fragment.endsNumber_of_bounded h).2 d ds rfl
  · obtain ⟨rfl, -⟩ := List.cons.inj he
    exact absurd hc (by decide)
  · obtain ⟨-, he⟩ := List.cons.inj he
    obtain ⟨rfl, -⟩ := List.cons.inj he
    exact not_isDigit_of_isIdentStart hc

/-- An expression is a fragment, also with references in front of it. -/
def IsExpr (text : List Char) : Prop := ∀ n, Fragment EndsExpr (List.replicate n '&' ++ text)

namespace IsExpr

variable {text name : List Char}

theorem fragment (h : IsExpr text) : Fragment EndsExpr text := h 0

/-- References are read in pairs. The last one is read by itself if none follows it. -/
theorem of_fragment {c : Char} {cs : List Char} (h : Fragment EndsExpr (c :: cs)) (hc : c ≠ '&') :
    IsExpr (c :: cs) := by
  intro n
  induction n using Nat.twoStepInduction with
  | zero => exact h
  | one =>
    have hmark : Fragment (fun rest => ∀ d ∈ rest.head?, d ≠ '&') ['&'] :=
      .mark (by decide) (by decide) (by decide)
    refine hmark.append h fun rest _ d hd => ?_
    obtain rfl := Option.some.inj hd
    exact hc
  | more n ih _ =>
    have hpair : Closed ['&', '&'] := .piece (some .punct) (by decide) fun _ _ => rfl
    exact hpair.append ih

theorem reference (h : IsExpr text) : IsExpr ('&' :: text) := by
  intro n
  have hn := h (n + 1)
  rwa [List.replicate_succ', List.append_assoc, List.singleton_append] at hn

theorem of_name (h : IsName text) : IsExpr text := by
  have hfragment : Fragment EndsExpr text := (Fragment.name h).mono fun _ => EndsExpr.endsName
  obtain ⟨c, cs, rfl, hc, -⟩ := h
  exact of_fragment hfragment (isIdentStart_ne hc (by decide))

theorem call (hname : IsName name) (h : Fragment EndsExpr text) :
    IsExpr (name ++ '(' :: (text ++ [')'])) := by
  have hgroup : Closed ('(' :: (text ++ [')'])) :=
    h.group .paren fun rest => .inl (bounded_cons (by decide) rest)
  have hcall : Closed (name ++ '(' :: (text ++ [')'])) :=
    (Fragment.name hname).append hgroup fun rest _ =>
    Fragment.endsName_cons (by decide) (by decide) _
  obtain ⟨c, cs, rfl, hc, -⟩ := hname
  exact of_fragment hcall.fragment (isIdentStart_ne hc (by decide))

theorem method (h : IsExpr text) (hname : IsName name) :
    IsExpr (text ++ '.' :: (name ++ ['(', ')'])) := by
  have hpoint : Fragment (fun rest => ∀ d ∈ rest.head?, isIdentStart d = true) ['.'] :=
    .mark (by decide) (by decide) (by decide)
  have hcall := (call hname .nil).fragment
  obtain ⟨c, cs, rfl, hc, -⟩ := hname
  intro n
  rw [← List.append_assoc]
  refine (h n).append (hpoint.append hcall fun rest _ d hd => ?_)
    fun rest _ => .inr (.inr ⟨c, _, rfl, hc⟩)
  obtain rfl := Option.some.inj hd
  exact hc

theorem path {first second : List Char} (hfirst : IsName first) (hsecond : IsName second) :
    IsExpr (first ++ ':' :: ':' :: second) := by
  have hcolons : Closed [':', ':'] := .piece (some .punct) (by decide) fun _ _ => rfl
  have hmember := hcolons.append (of_name hsecond).fragment
  have hpath := (Fragment.name hfirst).append hmember
    fun rest _ => Fragment.endsName_cons (by decide) (by decide) _
  obtain ⟨c, cs, rfl, hc, -⟩ := hfirst
  exact of_fragment hpath (isIdentStart_ne hc (by decide))

theorem array (h : IsExpr text) : IsExpr ('[' :: (text ++ "; 2".toList ++ [']'])) := by
  have hlength : Fragment Bounded "; 2".toList := .of_tokenize (by cbv)
  have hinside := h.fragment.append hlength fun rest _ => .inr (.inl ⟨';', _, rfl, .inr rfl⟩)
  have hgroup : Closed ('[' :: (text ++ "; 2".toList ++ [']'])) :=
    hinside.group .bracket fun rest => bounded_cons (by decide) rest
  exact of_fragment hgroup.fragment (by decide)

end IsExpr

/-! ### Literals -/

/-- The digits of a number, without a sign. -/
structure IsNumber (text : List Char) : Prop where
  fragment : Fragment Fragment.EndsNumber text
  head : ∃ c cs, text = c :: cs ∧ c.isDigit = true

theorem IsNumber.isExpr {text : List Char} (h : IsNumber text) (negative : Bool) :
    IsExpr ((if negative then ['-'] else []) ++ text) := by
  have hfragment : Fragment EndsExpr text := h.fragment.mono fun _ => EndsExpr.endsNumber
  obtain ⟨c, cs, rfl, hc⟩ := h.head
  have hne : ∀ d : Char, d.isDigit = false → c ≠ d := by
    rintro d hd rfl
    rw [hc] at hd
    cases hd
  cases negative with
  | false => exact .of_fragment hfragment (hne _ (by decide))
  | true =>
    have hsign : Fragment (fun rest => ∀ d ∈ rest.head?, d.isDigit = true) ['-'] :=
      .mark (by decide) (by decide) (by decide)
    refine .of_fragment (hsign.append hfragment fun rest _ d hd => ?_) (by decide)
    obtain rfl := Option.some.inj hd
    exact hc

theorem digits_toString (n : Nat) :
    (toString n).toList ≠ [] ∧ ∀ c ∈ (toString n).toList, c.isDigit = true := by
  rw [Nat.toString_eq_ofList_toDigits, String.toList_ofList]
  exact ⟨Nat.toDigits_ne_nil, fun c hc => Nat.isDigit_of_mem_toDigits (by decide) (by decide) hc⟩

theorem head_of_digits {text : List Char} (hne : text ≠ []) (h : ∀ c ∈ text, c.isDigit = true)
    (more : List Char) : ∃ c cs, text ++ more = c :: cs ∧ c.isDigit = true := by
  obtain ⟨c, cs, rfl⟩ := List.exists_cons_of_ne_nil hne
  exact ⟨c, cs ++ more, rfl, h c List.mem_cons_self⟩

theorem isNumber_toString (n : Nat) : IsNumber (toString n).toList := by
  obtain ⟨hne, hdigits⟩ := digits_toString n
  have hhead := head_of_digits hne hdigits []
  rw [List.append_nil] at hhead
  exact ⟨.number hne hdigits, hhead⟩

theorem isExpr_toString (n : Int) : IsExpr (toString n).toList := by
  cases n with
  | ofNat n => exact (isNumber_toString n).isExpr false
  | negSucc n =>
    rw [show toString (Int.negSucc n) = "-" ++ toString (n + 1) from rfl, String.toList_append]
    exact (isNumber_toString (n + 1)).isExpr true

theorem digits_padded (width n : Nat) :
    (Number.padded width n).toList ≠ [] ∧
      ∀ c ∈ (Number.padded width n).toList, c.isDigit = true := by
  obtain ⟨hne, hdigits⟩ := digits_toString n
  rw [Number.padded, String.toList_append, String.toList_ofList]
  refine ⟨List.append_ne_nil_of_right_ne_nil _ hne, fun c hc => ?_⟩
  rcases List.mem_append.mp hc with hc | hc
  · rw [List.eq_of_mem_replicate hc]
    decide
  · exact hdigits c hc

theorem isExpr_fixed (places : Nat) (negative : Bool) (num den : Nat) :
    IsExpr (Number.fixed places negative num den).toList := by
  have hsign : (if negative then "-" else "").toList = if negative then ['-'] else [] := by
    cases negative <;> rfl
  unfold Number.fixed
  dsimp only
  split
  · rw [String.toList_append, hsign]
    exact (isNumber_toString _).isExpr negative
  · simp only [String.toList_append, hsign, List.append_assoc]
    obtain ⟨hne, hdigits⟩ :=
      digits_toString (Number.roundDiv (num * Nat.pow 10 places) den / Nat.pow 10 places)
    obtain ⟨hne', hdigits'⟩ :=
      digits_padded places (Number.roundDiv (num * Nat.pow 10 places) den % Nat.pow 10 places)
    exact IsNumber.isExpr ⟨.fraction hne hdigits hne' hdigits', head_of_digits hne hdigits _⟩
      negative

theorem isExpr_quoted : ∀ s ∈ ["'a'", "'\\n'", "'static", "b'x'"], IsExpr s.toList := by
  simp only [List.forall_mem_cons]
  refine ⟨?_, ?_, ?_, ?_, List.forall_mem_nil _⟩
  · exact .of_fragment (.piece (some .char) (by decide) fun _ _ => rfl) (by decide)
  · exact .of_fragment (.piece (some .char) (by decide) fun _ _ => rfl) (by decide)
  · have hstatic : Fragment Fragment.EndsName ('\'' :: 's' :: ['t', 'a', 't', 'i', 'c']) :=
      .lifetime (by decide) (List.all_eq_true.mp (by decide)) (by decide)
    exact .of_fragment (hstatic.mono fun _ => EndsExpr.endsName) (by decide)
  · have hmark : Fragment Fragment.EndsName ['b'] := .name (by decide)
    have hchar : Fragment EndsExpr "'x'".toList := .piece (some .char) (by decide) fun _ _ => rfl
    exact .of_fragment
      (hmark.append hchar fun rest _ => Fragment.endsName_cons (by decide) (by decide) _)
      (by decide)

theorem isExpr_string :
    ∀ s ∈ ["\x22\x22", "\x22test\x22", "r\x22raw\\\x22", "b\x22bytes\x22", "\x22a\\\x22b\x22"],
    IsExpr s.toList := by
  have hescaped : ∀ mark, (mark, false) ∈ literalMarks → ∀ text,
      Fragment EndsExpr (literalOf mark (escape text)) :=
    fun mark hm text => (Fragment.literal hm (stringLength_escape text)).fragment
  simp only [List.forall_mem_cons]
  refine ⟨?_, ?_, ?_, ?_, ?_, List.forall_mem_nil _⟩
  · exact .of_fragment (hescaped [] (by decide) "".toList) (by decide)
  · exact .of_fragment (hescaped [] (by decide) "test".toList) (by decide)
  · have hm : (['r'], true) ∈ literalMarks := by decide
    have hq : '\x22' ∉ "raw\\".toList := by decide
    exact .of_fragment (Fragment.literal hm (stringLength_raw hq)).fragment (by decide)
  · exact .of_fragment (hescaped ['b'] (by decide) "bytes".toList) (by decide)
  · exact .of_fragment (hescaped [] (by decide) "a\x22b".toList) (by decide)

theorem isExpr_word : ∀ s ∈ ["true", "false", "None"], IsExpr s.toList := by
  have hall : ∀ s ∈ ["true", "false", "None"], IsName s.toList := by decide
  exact fun s hs => .of_name (hall s hs)

/-! ### What the generators yield -/

theorem identifier_yields : Yields identifier fun s => IsName s.toList := by
  have hknown : ∀ s ∈ someIdentifiers, IsName s.toList := by decide
  have hstart : identifierStarts.all isIdentStart = true := by decide
  have hmore : identifierChars.all isIdentChar = true := by decide
  refine (safe_chance 7 10).yields fun known => ?_
  split
  · exact (choose_yields (by decide)).imp hknown
  · refine (betweenNat_yields (by decide)).safe.yields fun length => ?_
    refine (choose_yields (by simp [identifierStarts])).bind fun first hfirst => ?_
    refine ((choose_yields (by simp [identifierChars])).times _).bind fun more hchars => .ret ?_
    rw [String.toList_ofList]
    exact ⟨first, more, rfl, List.all_eq_true.mp hstart first hfirst,
      fun c hc => List.all_eq_true.mp hmore c (hchars c hc)⟩

theorem literal_yields : Yields literal fun s => IsExpr s.toList := by
  refine (betweenNat_yields (by decide)).safe.yields fun sort => ?_
  split
  · exact (between_yields (by decide)).bind fun n _ => .ret (isExpr_toString n)
  · exact safe_draw.yields fun n => .ret (isExpr_fixed _ _ _ _)
  · exact (choose_yields (by decide)).imp isExpr_quoted
  · exact (choose_yields (by decide)).imp isExpr_string
  · exact (choose_yields (by decide)).imp isExpr_word

theorem leaf_yields : Yields leaf fun s => IsExpr s.toList := by
  refine (safe_chance 1 2).yields fun named => ?_
  split
  · exact identifier_yields.imp fun _ => IsExpr.of_name
  · exact literal_yields

/-- Texts that may each stand in front of a comma make one that may. -/
theorem fragment_commaSeparated {parts : List String}
    (h : ∀ s ∈ parts, Fragment EndsExpr s.toList) :
    Fragment EndsExpr (commaSeparated parts).toList := by
  rw [commaSeparated, String.toList_intercalate]
  induction parts with
  | nil => exact .nil
  | cons s parts ih =>
    obtain ⟨hs, hparts⟩ := List.forall_mem_cons.mp h
    cases parts with
    | nil => rwa [List.map_singleton, List.intercalate_singleton]
    | cons t parts =>
      have hcomma : Fragment Bounded ",".toList := .of_tokenize (by cbv)
      have hseparator : Closed ", ".toList := hcomma.spaced
      rw [List.map_cons, List.map_cons, List.intercalate_cons_cons, List.append_assoc]
      exact hs.append (hseparator.append (ih hparts)) fun rest _ =>
        .inr (.inl ⟨',', _, rfl, .inl rfl⟩)

theorem expr_yields (levels : Nat) : Yields (expr levels) fun s => IsExpr s.toList := by
  induction levels with
  | zero => exact leaf_yields
  | succ levels ih =>
    refine (safe_chance 4 10).yields fun short => ?_
    split
    · exact leaf_yields
    · refine (betweenNat_yields (by decide)).safe.yields fun sort => ?_
      split
      · refine (betweenNat_yields (by decide)).safe.yields fun count => ?_
        refine (ih.times count).bind fun args hargs => ?_
        refine identifier_yields.bind fun name hname => .ret ?_
        have hlist := fragment_commaSeparated fun s hs => (hargs s hs).fragment
        simpa using IsExpr.call hname hlist
      · refine ih.bind fun e he => identifier_yields.bind fun name hname => .ret ?_
        simpa using he.method hname
      · refine ih.bind fun e he => .ret ?_
        simpa using he.reference
      · refine identifier_yields.bind fun first hfirst => ?_
        refine identifier_yields.bind fun second hsecond => .ret ?_
        simpa using IsExpr.path hfirst hsecond
      · refine ih.bind fun e he => .ret ?_
        simpa using he.array

/-! ### Entries -/

/-- Texts in parentheses, with commas between them. -/
theorem closed_listed {parts : List String} (h : ∀ s ∈ parts, Fragment EndsExpr s.toList) :
    Closed ("(" ++ commaSeparated parts ++ ")").toList ∧
      Bounded ("(" ++ commaSeparated parts ++ ")").toList := by
  have htext : ("(" ++ commaSeparated parts ++ ")").toList =
      '(' :: ((commaSeparated parts).toList ++ [')']) := by
    simp
  rw [htext]
  exact ⟨(fragment_commaSeparated h).group .paren fun rest => .inl (bounded_cons (by decide) rest),
    bounded_cons (by decide) _⟩

theorem eventParams_yields : Yields eventParams fun s => Closed s.toList ∧ Bounded s.toList := by
  have hname : ∀ s ∈ ["_", "x", "y"], IsName s.toList := by decide
  refine (safe_chance 1 2).yields fun listed => ?_
  split
  · refine (betweenNat_yields (by decide)).safe.yields fun count => ?_
    refine ((choose_yields (by decide)).times count).bind fun names hnames =>
      .ret (closed_listed fun s hs => ?_)
    exact (IsExpr.of_name (hname s (hnames s hs))).fragment
  · exact .ret ⟨.nil, bounded_nil⟩

theorem eventModel_yields :
    Yields eventModel fun s => Fragment Bounded s.toList ∧ Bounded s.toList := by
  refine (safe_chance 2 10).yields fun used => .ret ?_
  split
  · exact ⟨.of_tokenize (by cbv), bounded_cons (by decide) _⟩
  · exact ⟨.nil, bounded_nil⟩

theorem eventTarget_yields : Yields eventTarget fun s => Closed s.toList := by
  refine (safe_chance 2 10).yields fun foreign => ?_
  split
  · refine identifier_yields.bind fun name hname => .ret ?_
    have hat : Closed ['@'] := Fragment.mark_alone (by decide) (by decide) (by decide)
    rw [String.toList_append]
    exact (Fragment.name hname).append hat
      fun rest _ => Fragment.endsName_cons (by decide) (by decide) _
  · exact .ret .nil

theorem effect_yields : Yields effect fun s => Fragment EndsExpr s.toList := by
  have hexpr := (expr_yields maxExprDepth).imp fun _ => IsExpr.fragment
  refine (betweenNat_yields (by decide)).safe.yields fun sort => ?_
  split
  · exact hexpr
  · refine hexpr.bind fun e he => .ret ?_
    have hreturn : Closed "return ".toList :=
      (show Fragment Bounded "return".toList from .of_tokenize (by cbv)).spaced
    rw [String.toList_append]
    exact hreturn.append he
  · refine hexpr.bind fun message hm => hexpr.bind fun answer ha => .ret ?_
    have hboth : ∀ s ∈ [message, answer], Fragment EndsExpr s.toList :=
      List.forall_mem_cons.mpr ⟨hm, List.forall_mem_singleton.mpr ha⟩
    have hlisted : Fragment EndsExpr ("(" ++ commaSeparated [message, answer] ++ ")").toList :=
      (closed_listed hboth).1.fragment
    simpa [commaSeparated] using hlisted

theorem event_yields : Yields event fun s => Fragment EndsExpr s.toList := by
  have hsignal : ∀ s ∈ signalNames ++ someIdentifiers, IsName s.toList := by decide
  have harrow : Fragment Bounded " =>".toList := .of_tokenize (by cbv)
  have harrow' : Closed " => ".toList := harrow.spaced
  refine (choose_yields (by decide)).bind fun signal hs => ?_
  refine eventParams_yields.bind fun params hp => ?_
  refine eventModel_yields.bind fun model hm => eventTarget_yields.bind fun target ht => ?_
  refine effect_yields.bind fun eff he => .ret ?_
  simp only [String.toList_append]
  have hfront : Fragment Bounded (signal.toList ++ params.toList) :=
    (Fragment.name (hsignal signal hs)).append hp.1.fragment fun rest hrest =>
      Fragment.endsName_of_bounded (hp.2.append hrest)
  have hhead := hfront.append hm.1 fun rest hrest => hm.2.append hrest
  have hmiddle : Closed (signal.toList ++ params.toList ++ model.toList ++ " => ".toList) :=
    hhead.append harrow' fun rest _ => bounded_cons (by decide) _
  have htail : Fragment EndsExpr (target.toList ++ eff.toList) := ht.append he
  simpa only [List.append_assoc] using hmiddle.append htail

theorem property_yields : Yields property fun s => Fragment EndsExpr s.toList := by
  have hname : ∀ s ∈ propertyNames, IsName s.toList := by decide
  have hcolon : Fragment Bounded ":".toList := .of_tokenize (by cbv)
  have hcolon' : Closed ": ".toList := hcolon.spaced
  refine (choose_yields (by decide)).bind fun name hn => ?_
  refine (expr_yields maxExprDepth).bind fun e he => .ret ?_
  rw [String.toList_append, String.toList_append]
  have hfront : Closed (name.toList ++ ": ".toList) :=
    (Fragment.name (hname name hn)).append hcolon'
      fun rest _ => Fragment.endsName_cons (by decide) (by decide) _
  exact hfront.append he.fragment

theorem closed_childProperties : Closed childProperties.toList := by
  have htext : childProperties.toList =
      "child: ".toList ++ '\x7b' :: (" expand: true, padding: 3 ".toList ++ ['\x7d']) := by decide
  have hinside : Fragment Bounded " expand: true, padding: 3 ".toList :=
    .of_tokenize (by cbv)
  have hgroup : Closed ('\x7b' :: (" expand: true, padding: 3 ".toList ++ ['\x7d'])) :=
    hinside.group .brace fun rest => bounded_cons (by decide) rest
  have hchild : Fragment Bounded "child:".toList := .of_tokenize (by cbv)
  have hfront : Closed "child: ".toList := hchild.spaced
  rw [htext]
  exact hfront.append hgroup

theorem entry_yields {nested : Option (Gen String)}
    (h : ∀ g ∈ nested, Yields g fun s => Closed s.toList) :
    Yields (entry nested) fun s => Fragment EndsExpr s.toList := by
  refine (betweenNat_yields (by decide)).safe.yields fun sort => ?_
  split
  · exact property_yields
  · exact event_yields
  · next g => exact (h g rfl).imp fun _ => Closed.fragment
  · exact .ret closed_childProperties.fragment

/-! ### Widgets -/

/-- An attribute with a name for its value. -/
theorem closed_attribute {key name : List Char} (hkey : IsName key) (hname : IsName name) :
    Closed ('#' :: '[' :: (key ++ '=' :: '\x22' :: (name ++ ['\x22', ']', ' ']))) := by
  have hescape : escape name = name :=
    escape_eq_self (hname.not_mem (by decide)) (hname.not_mem (by decide))
  have hvalue : Closed (literalOf [] (escape name)) :=
    Fragment.literal (show ([], false) ∈ literalMarks by decide) (stringLength_escape name)
  have hequals : Fragment (fun rest => ∀ d ∈ rest.head?, d = '\x22') ['='] :=
    .mark (by decide) (by decide) (by decide)
  have hassigned : Closed ('=' :: literalOf [] (escape name)) :=
    hequals.append hvalue fun rest _ d hd => (Option.some.inj hd).symm
  have hinside : Closed (key ++ '=' :: literalOf [] (escape name)) :=
    (Fragment.name hkey).append hassigned
      fun rest _ => Fragment.endsName_cons (by decide) (by decide) _
  have hgroup := hinside.group .bracket fun _ => trivial
  have hhash : Closed ['#'] := Fragment.mark_alone (by decide) (by decide) (by decide)
  have htext := hhash.append (hgroup.append Fragment.blank)
  rw [hescape] at htext
  simpa [literalOf, Delimiter.opening, Delimiter.closing] using htext

theorem attributes_yields :
    Yields attributes fun s => Closed s.toList ∧ ∀ c ∈ s.toList.head?, c = '#' := by
  refine (safe_chance 2 10).yields fun some => ?_
  split
  · refine identifier_yields.bind fun name hname => identifier_yields.bind fun parent hparent => ?_
    refine (choose_yields (by simp)).imp fun s hs => ?_
    simp only [List.mem_cons, List.not_mem_nil, or_false] at hs
    rcases hs with rfl | rfl | rfl
    · have hkey : IsName "name".toList := by decide
      exact ⟨by simpa using closed_attribute hkey hname, by simp⟩
    · have hcontainer : Fragment Bounded "#[container]".toList := .of_tokenize (by cbv)
      exact ⟨hcontainer.spaced, by simp⟩
    · have hkey : IsName "parent".toList := by decide
      exact ⟨by simpa using closed_attribute hkey hparent, by simp⟩
  · exact .ret ⟨.nil, by simp⟩

theorem initParams_yields : Yields initParams fun s => Closed s.toList ∧ Bounded s.toList := by
  refine (safe_chance 2 10).yields fun listed => ?_
  split
  · refine (betweenNat_yields (by decide)).safe.yields fun count => ?_
    refine ((expr_yields maxExprDepth).times count).bind fun args hargs =>
      .ret (closed_listed fun s hs => ?_)
    exact (hargs s hs).fragment
  · exact .ret ⟨.nil, bounded_nil⟩

/-- A text that is read as a widget: it is taken apart whatever follows it, and it does not start
with a string. -/
structure IsWidget (text : List Char) : Prop where
  closed : Closed text
  start : ∃ c cs, text = c :: cs ∧ c ∈ "#gCTL".toList

theorem widgetWith_yields {entry : Gen String}
    (h : Yields entry fun s => Fragment EndsExpr s.toList) :
    Yields (widgetWith entry) fun s => IsWidget s.toList := by
  have htypes : widgetTypes.all
      (fun t => (tokenize t.toList).toOption.isSome && t.toList.all (· != '/')) = true := by
    cbv
  have hstarts : ∀ t ∈ widgetTypes, t.toList.head?.any (· ∈ "#gCTL".toList) = true := by decide
  refine attributes_yields.bind fun attrs ha => (choose_yields (by decide)).bind fun typ ht => ?_
  refine initParams_yields.bind fun init hi => ?_
  refine (betweenNat_yields (by decide)).bind fun count _ => ?_
  refine (h.times count).bind fun entries he => .ret ?_
  have hhead : Fragment Bounded (attrs.toList ++ typ.toList) :=
    ha.1.append (.of_tokenize (List.all_eq_true.mp htypes typ ht))
  have hfront : Fragment Bounded (attrs.toList ++ typ.toList ++ init.toList) :=
    hhead.append hi.1.fragment fun rest hrest => hi.2.append hrest
  have hentries : Closed ((commaSeparated entries).toList ++ [' ']) :=
    (fragment_commaSeparated he).append .blank fun rest _ => .inl (bounded_cons (by decide) rest)
  have hinside : Closed ([' '] ++ ((commaSeparated entries).toList ++ [' '])) :=
    Fragment.blank.append hentries
  have hbody := hinside.group .brace fun _ => trivial
  have htext := hfront.spaced.append hbody
  have hstart : ∃ c cs, attrs.toList ++ typ.toList = c :: cs ∧ c ∈ "#gCTL".toList := by
    have hhash := ha.2
    cases hattrs : attrs.toList with
    | nil =>
      have htyp := hstarts typ ht
      cases hchars : typ.toList with
      | nil =>
        rw [hchars] at htyp
        cases htyp
      | cons c cs =>
        rw [hchars] at htyp
        exact ⟨c, cs, rfl, of_decide_eq_true htyp⟩
    | cons c cs =>
      rw [hattrs] at hhash
      obtain rfl := hhash c rfl
      exact ⟨'#', cs ++ typ.toList, rfl, by decide⟩
  constructor
  · simpa [Delimiter.opening, Delimiter.closing] using htext
  · obtain ⟨c, cs, hcs, hin⟩ := hstart
    simp only [String.toList_append, hcs, List.cons_append]
    exact ⟨c, _, rfl, hin⟩

theorem widget_yields (levels : Nat) : Yields (widget levels) fun s => IsWidget s.toList := by
  induction levels with
  | zero => exact widgetWith_yields (entry_yields (by simp))
  | succ levels ih =>
    exact widgetWith_yields (entry_yields (by simpa using ih.imp fun _ => IsWidget.closed))

/-! ### Views -/

theorem fileName?_of_nests {l : Lexeme} {ls : List Lexeme} {ts : List Token}
    (h : Nest.Nests (l :: ls) ts) (hkind : l.kind ≠ .string) : Source.fileName? ts = none := by
  cases h with
  | leaf _ _ =>
    obtain ⟨k, text, span⟩ := l
    cases k <;> first | rfl | exact absurd rfl hkind
  | group _ _ _ _ => rfl

/-- Every view that is generated is taken apart without an error, and it names no file: so it is
parsed as it stands, whatever files there are, into a view or with an error of the grammar. -/
theorem generated_view_reads {d d' : Draws} {text : String} (h : view d = .ok text d') :
    ∃ ts, tokenize text.toList = .ok ts ∧ Source.fileName? ts = none ∧
      ∀ (fs : FileSystem) (base : Pathname) (st : Session), Source.follow fs base ts = .ok ts ∧
        ((∃ v, (Source.view fs base ts st).1 = .ok v) ∨
          ∃ e, (Source.view fs base ts st).1 = .error (.parse e)) := by
  have hwidget := (widget_yields maxWidgetDepth).result h
  obtain ⟨ls, ts, hscan, ht, hnests⟩ := hwidget.closed.tokenize trivial
  obtain ⟨c, cs, hcs, hc⟩ := hwidget.start
  have hno : Source.fileName? ts = none := by
    obtain ⟨hblank, hslash, hquote, hb, hr⟩ :
        isBlank c = false ∧ c ≠ '/' ∧ c ≠ '\x22' ∧ c ≠ 'b' ∧ c ≠ 'r' := by
      simp only [String.reduceToList, List.mem_cons, List.not_mem_nil, or_false] at hc
      rcases hc with rfl | rfl | rfl | rfl | rfl <;> decide
    rw [hcs] at hscan
    obtain ⟨l, rest, n, rfl, hl⟩ := exists_lexeme hscan hblank hslash
    refine fileName?_of_nests hnests fun hkind => ?_
    have hmark := (kind_eq_string_iff hl).mp hkind
    rw [Terminal.stringMark?_none hquote hb hr] at hmark
    cases hmark
  refine ⟨ts, ht, hno, fun fs base st => ?_⟩
  have hfollow : Source.follow fs base ts = .ok ts := by rw [Source.follow, hno]
  refine ⟨hfollow, ?_⟩
  cases hv : (Source.view fs base ts st).1 with
  | ok v => exact .inl ⟨v, rfl⟩
  | error e =>
    obtain ⟨e', rfl⟩ := Source.view_of_follow_ok hfollow hv
    exact .inr ⟨e', rfl⟩

/-- An attribute, references in a row, a number and a lifetime that are called, a string with an
escaped quote. -/
theorem generated_view_reads_sample :
    let draws : Draws :=
      { given := [0, 0, 0, 0, 0, 0, 9, 0, 2, drawRange - 1, 2, drawRange - 1, 2, drawRange - 1, 2,
      0, drawRange - 1, 2, 2, drawRange - 1, 1, 0, drawRange - 1, 1, 5, 0, 3, 1, 1, 2, 0, 1, 1,
      drawRange - 1, 0, 0, 2, 2, 0, drawRange - 1, 3, 4, 0, drawRange - 1, 0, 7] }
    let text := "#[name=\"x\"] Counter<i32>(&&&'static, -100.00.bar()) " ++
      "\x7b delete_event(x) => foo@(\"a\\\"b\", -993) \x7d"
    ∃ left ts, view draws = .ok text left ∧ tokenize text.toList = .ok ts ∧
      Source.fileName? ts = none := by
  intro draws text
  obtain ⟨left, hrun⟩ : ∃ left, view draws = .ok text left := by
    have hcheck : (match view draws with | .ok s _ => s == text | .error _ _ => false) = true := by
      decide +kernel
    cases hview : view draws with
    | ok s left =>
      rw [hview] at hcheck
      exact ⟨left, by rw [eq_of_beq hcheck]⟩
    | error fault left =>
      rw [hview] at hcheck
      cases hcheck
  obtain ⟨ts, ht, hno, -⟩ := generated_view_reads hrun
  exact ⟨left, ts, hrun, ht, hno⟩

end WidgetView.Fuzz
