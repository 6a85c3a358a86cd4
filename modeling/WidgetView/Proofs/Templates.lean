import WidgetView.Fix.Template

/-!
# Inert templates

Templates that stand for themselves. A template is inert if every backslash has a character behind
it that begins no escape with it. An inert template gives its own text, whatever is replaced. Any
other one is refused or gives another text where one character is replaced: an escape is at least
two characters long, and there it comes to one at most.
-/
namespace WidgetView.Template

/-- A backslash and this character are no escape. -/
def isMark (c : Char) : Bool := !c.isAlphanum && c != '\\'

/-- Every backslash has a mark behind it. -/
def isInert : List Char → Bool
  | [] => true
  | c :: cs => (c != '\\' || cs.head?.any isMark) && isInert cs

theorem isInert_of_not_mem {cs : List Char} (h : '\\' ∉ cs) : isInert cs = true := by
  induction cs with
  | nil => rfl
  | cons c cs ih =>
    have hc : c ≠ '\\' := fun he => h (he ▸ List.mem_cons_self)
    have hcs : '\\' ∉ cs := fun hm => h (List.mem_cons_of_mem _ hm)
    simp [isInert, ih hcs, hc]

namespace Part

def isInert : Part → Bool
  | plain _ => true
  | escape c => isMark c

end Part

/-- What is left of the text of a template behind its units. -/
def loneText (lone : Bool) : List Char := if lone then ['\\'] else []

theorem chars_split (cs : List Char) :
    (split cs).1.flatMap Part.chars ++ loneText (split cs).2 = cs := by
  fun_induction split cs with
  | case1 => rfl
  | case2 => rfl
  | case3 c cs ih => simp [Part.chars, ih]
  | case4 c cs _ _ ih => simp [Part.chars, ih]

theorem isInert_eq (cs : List Char) :
    isInert cs = (!(split cs).2 && (split cs).1.all Part.isInert) := by
  fun_induction split cs with
  | case1 => rfl
  | case2 => rfl
  | case3 c cs ih =>
    by_cases hc : isMark c
    · have hne : c ≠ '\\' := by rintro rfl; exact absurd hc (by decide)
      simp [isInert, Part.isInert, ih, hc, hne]
    · simp [isInert, Part.isInert, hc]
  | case4 c cs hlone hescape ih =>
    have hc : c ≠ '\\' := by
      rintro rfl
      cases cs with
      | nil => exact hlone rfl rfl
      | cons d cs => exact hescape d cs rfl rfl
    simp [isInert, Part.isInert, ih, hc]

theorem width_eq (us : List Part) : width us = (us.flatMap Part.chars).length := by
  induction us with
  | nil => rfl
  | cons u us ih => rw [width, ih, List.flatMap_cons, List.length_append]

theorem width_drop_le (n : Nat) (us : List Part) : width (us.drop n) ≤ width us := by
  induction us generalizing n with
  | nil => simp
  | cons u us ih =>
    cases n with
    | zero => exact Nat.le_refl _
    | succ n => exact Nat.le_trans (ih n) (Nat.le_add_left _ _)

/-! ### Inert templates -/

theorem isMark_iff {c : Char} :
    isMark c = true ↔ c.isAlpha = false ∧ c.isDigit = false ∧ c ≠ '\\' := by
  simp [isMark, Char.isAlphanum, and_assoc]

theorem control?_eq_none {c : Char} (ha : c.isAlpha = false) (hc : c ≠ '\\') :
    control? c = none := by
  unfold control?
  split
  case h_8 => exact absurd rfl hc
  case h_9 => rfl
  all_goals exact absurd ha (by decide)

theorem escapePiece_of_isMark {lone : Bool} {c : Char} (h : isMark c = true) (position : Nat)
    (us : List Part) : escapePiece lone c position us = .ok (.text ['\\', c], 0) := by
  obtain ⟨ha, hd, hc⟩ := isMark_iff.mp h
  have hg : c ≠ 'g' := by rintro rfl; exact absurd ha (by decide)
  have hz : c ≠ '0' := by rintro rfl; exact absurd hd (by decide)
  simp [escapePiece, hg, hz, hd, ha, control?_eq_none ha hc]

theorem pieces_inert {us : List Part} (h : us.all Part.isInert = true) (position : Nat) :
    pieces false position us = .ok (us.map fun u => .text u.chars) := by
  induction us generalizing position with
  | nil =>
    rw [List.map_nil, pieces]
  | cons u us ih =>
    rw [List.all_cons, Bool.and_eq_true] at h
    obtain ⟨hu, hus⟩ := h
    rw [List.map_cons]
    cases u with
    | plain c =>
      simp only [pieces, onlyBackslash, Bool.false_and, Bool.false_eq_true, if_false, ih hus]
      rfl
    | escape c =>
      simp only [pieces, onlyBackslash, Bool.false_and, Bool.false_eq_true, if_false,
        escapePiece_of_isMark hu, List.drop_zero, ih hus]
      rfl

/-- An inert template stands for itself. -/
theorem parse_inert {template : String} (h : isInert template.toList = true) :
    ∃ ps, parse template = .ok ps ∧ ∀ replaced, expand replaced ps = template.toList := by
  rw [isInert_eq, Bool.and_eq_true, Bool.not_eq_true'] at h
  obtain ⟨hlone, hus⟩ := h
  refine ⟨(split template.toList).1.map fun u => .text u.chars, ?_, ?_⟩
  · simp only [parse, hlone, onlyBackslash, Bool.false_and, Bool.false_eq_true, if_false,
      pieces_inert hus]
  · intro replaced
    have htext := chars_split template.toList
    rw [hlone] at htext
    simpa [expand, List.flatMap_map, loneText] using htext

/-! ### Other templates -/

theorem exists_of_map_eq_ok {ε α β : Type} {f : α → β} {x : Except ε α} {b : β}
    (h : x.map f = .ok b) : ∃ a, x = .ok a ∧ f a = b := by
  cases x with
  | error e => cases h
  | ok a => exact ⟨a, rfl, Except.ok.inj h⟩

theorem expand_cons (replaced : List Char) (p : Piece) (ps : List Piece) :
    expand replaced (p :: ps) = expand replaced [p] ++ expand replaced ps := by
  simp [expand]

theorem groupOfName_eq_ok {name : List Char} {position : Nat} {piece : Piece}
    (h : groupOfName name position = .ok piece) : piece = .whole := by
  revert h
  fun_cases groupOfName name position
  case case4 => exact fun h => (Except.ok.inj h).symm
  all_goals nofun

theorem digitEscape_eq_ok {lone : Bool} {c : Char} {position n : Nat} {us : List Part}
    {piece : Piece} (h : digitEscape lone c position us = .ok (piece, n)) :
    ∃ d, piece = .text [d] := by
  revert h
  fun_cases digitEscape lone c position us
  case case6 => exact fun h => ⟨_, (congrArg Prod.fst (Except.ok.inj h)).symm⟩
  all_goals nofun

/-- An escape that is one stands for the text that is replaced, or for one character. -/
theorem escapePiece_eq_ok {lone : Bool} {c : Char} {position n : Nat} {us : List Part}
    {piece : Piece} (h : escapePiece lone c position us = .ok (piece, n)) (hc : isMark c = false) :
    piece = .whole ∨ ∃ d, piece = .text [d] := by
  revert h
  fun_cases escapePiece lone c position us
  -- a reference to a group
  case case4 =>
    intro h
    obtain ⟨p, hp, he⟩ := exists_of_map_eq_ok h
    obtain ⟨rfl, -⟩ := Prod.mk.inj he
    exact Or.inl (groupOfName_eq_ok hp)
  -- octal digits after a zero
  case case5 =>
    intro h
    obtain ⟨ds, -, he⟩ := exists_of_map_eq_ok h
    exact Or.inr ⟨_, (congrArg Prod.fst he).symm⟩
  -- another digit
  case case6 => exact fun h => Or.inr (digitEscape_eq_ok h)
  -- a letter for one character
  case case7 => exact fun h => Or.inr ⟨_, (congrArg Prod.fst (Except.ok.inj h)).symm⟩
  -- a mark
  case case9 hd hcontrol ha =>
    have hbackslash : c ≠ '\\' := by rintro rfl; cases hcontrol
    have hmark := isMark_iff.mpr ⟨Bool.not_eq_true _ ▸ ha, Bool.not_eq_true _ ▸ hd, hbackslash⟩
    rw [hc] at hmark
    cases hmark
  all_goals nofun

/-- Where one character is replaced, pieces are no longer than their units, and shorter if one of
these is an escape. -/
theorem length_pieces {lone : Bool} {position : Nat} {us : List Part} {ps : List Piece}
    {replaced : List Char} (h : pieces lone position us = .ok ps) (hr : replaced.length ≤ 1) :
    (expand replaced ps).length ≤ width us ∧
      (us.all Part.isInert = false → (expand replaced ps).length < width us) := by
  fun_induction pieces lone position us generalizing ps with
  | case1 =>
    obtain rfl := Except.ok.inj h
    simp [expand]
  | case2 => cases h
  | case3 _ us _ c after =>
    rename_i ih
    obtain ⟨more, hmore, rfl⟩ := exists_of_map_eq_ok h
    obtain ⟨hle, hlt⟩ := ih hmore
    have hlength : (expand replaced (.text [c] :: more)).length =
        1 + (expand replaced more).length := by
      rw [expand_cons, List.length_append]
      rfl
    have hwidth : width (.plain c :: us) = 1 + width us := rfl
    rw [hlength, hwidth, List.all_cons, Part.isInert, Bool.true_and]
    exact ⟨by omega, fun hus => by have := hlt hus; omega⟩
  | case4 => cases h
  | case5 _ us _ c piece n after hpiece =>
    rename_i ih
    obtain ⟨more, hmore, rfl⟩ := exists_of_map_eq_ok h
    obtain ⟨hle, hlt⟩ := ih hmore
    have hwidth : width (.escape c :: us) = 2 + width us := rfl
    rw [expand_cons, List.length_append, hwidth, List.all_cons, Part.isInert]
    cases hc : isMark c with
    | true =>
      rw [escapePiece_of_isMark hc] at hpiece
      obtain ⟨rfl, rfl⟩ := Prod.mk.inj (Except.ok.inj hpiece)
      have hlength : (expand replaced [.text ['\\', c]]).length = 2 := rfl
      rw [List.drop_zero] at hle hlt
      rw [hlength, Bool.true_and]
      exact ⟨by omega, fun hus => by have := hlt hus; omega⟩
    | false =>
      have hrest := width_drop_le n us
      have hshort : (expand replaced [piece]).length ≤ 1 := by
        rcases escapePiece_eq_ok hpiece hc with rfl | ⟨d, rfl⟩
        · simpa [expand] using hr
        · exact Nat.le_refl 1
      exact ⟨by omega, fun _ => by omega⟩

/-- A template that gives its own text for one character is inert. -/
theorem isInert_of_expand {template : String} {ps : List Piece} {replaced : List Char}
    (hps : parse template = .ok ps) (hr : replaced.length ≤ 1)
    (he : expand replaced ps = template.toList) : isInert template.toList = true := by
  have hpieces : pieces (split template.toList).2 0 (split template.toList).1 = .ok ps := by
    simp only [parse] at hps
    split at hps
    · cases hps
    · split at hps
      · cases hps
      · next hpieces => rw [hpieces, Except.ok.inj hps]
  obtain ⟨hle, hlt⟩ := length_pieces hpieces hr
  have htotal := congrArg List.length (chars_split template.toList)
  rw [List.length_append, ← width_eq] at htotal
  have hself := congrArg List.length he
  rw [isInert_eq, Bool.and_eq_true, Bool.not_eq_true']
  constructor
  · cases hlone : (split template.toList).2 with
    | false => rfl
    | true =>
      have hone : (loneText (split template.toList).2).length = 1 := by rw [hlone]; rfl
      omega
  · cases hall : (split template.toList).1.all Part.isInert with
    | true => rfl
    | false =>
      have hless := hlt hall
      omega

end WidgetView.Template
