import Mathlib
import WidgetView.Proofs.Grammar
import WidgetView.Proofs.Provenance

/-!
# The scan for a qualified name

The scan for a qualified name finds the names of the grammar and no others. The first pass cannot
stop inside of a name, whose brackets are balanced, nor go past its end, where a group, a comma or
nothing follows; so the second pass sees the name and nothing else.
-/
namespace WidgetView

open Grammar

namespace QualifiedName

theorem reach_ident {t : Token} (h : t.isIdent) (depth : Int) (ts : List Token) :
    reach depth (t :: ts) = 1 + reach depth ts := by
  obtain ⟨s, hs⟩ := Token.isIdent_iff.mp h
  obtain ⟨span, rfl⟩ := Token.ident?_eq_some hs
  rfl

theorem reach_colons {t : Token} (h : t.isPunctOf "::") (depth : Int) (ts : List Token) :
    reach depth (t :: ts) = 1 + reach depth ts := by
  simp [reach, Token.punct?_of_isPunctOf h]

theorem reach_open {t : Token} (h : t.isPunctOf "<") (depth : Int) (ts : List Token) :
    reach depth (t :: ts) = 1 + reach (depth + 1) ts := by
  simp [reach, Token.punct?_of_isPunctOf h]

theorem reach_close {t : Token} (h : t.isPunctOf ">") (depth : Int) (ts : List Token) :
    reach depth (t :: ts) = 1 + reach (depth - 1) ts := by
  simp [reach, Token.punct?_of_isPunctOf h]

/-- Inside of brackets a comma belongs to a name as well. -/
theorem reach_single {t : Token} (h : t.isIdent ∨ t.isPunctOf "::" ∨ t.isPunctOf ",") {depth : Int}
    (hd : 0 < depth) (ts : List Token) : reach depth (t :: ts) = 1 + reach depth ts := by
  rcases h with h | h | h
  · exact reach_ident h depth ts
  · exact reach_colons h depth ts
  · have hne : depth ≠ 0 := by omega
    simp [reach, Token.punct?_of_isPunctOf h, hne]

theorem reach_follow {ts : List Token} (h : Follow ts) : reach 0 ts = 0 := by
  cases h with
  | done => rfl
  | comma h => simp [reach, Token.punct?_of_isPunctOf h]
  | group => rfl

/-- Inside of a bracket a balanced run is passed as a whole. -/
theorem reach_balanced {ts : List Token} (h : Balanced ts) {depth : Int} (hd : 0 < depth)
    (rest : List Token) : reach depth (ts ++ rest) = ts.length + reach depth rest := by
  induction h generalizing depth rest with
  | nil => simp
  | single h _ ih =>
    rw [List.cons_append, reach_single h hd, ih hd, List.length_cons]
    omega
  | angle ht _ hu _ ihin ihout =>
    rw [List.cons_append, reach_open ht, List.append_assoc, ihin (by omega), List.cons_append,
      reach_close hu, Int.add_sub_cancel, ihout hd]
    simp only [List.length_cons, List.length_append]
    omega

theorem reach_generics {gs : List Token} (h : Generics gs) (rest : List Token) :
    reach 0 (gs ++ rest) = gs.length + reach 0 rest := by
  obtain ⟨ht, hin, hu⟩ := h
  rw [List.cons_append, reach_open ht, List.append_assoc, reach_balanced hin (by omega),
    List.cons_append, List.nil_append, reach_close hu]
  simp only [List.length_cons, List.length_append, List.length_nil, Int.add_sub_cancel]
  omega

theorem reach_segments {ts : List Token} {ss : List String} (h : Segments ts ss)
    (rest : List Token) : reach 0 (ts ++ rest) = ts.length + reach 0 rest := by
  induction h with
  | one h => exact reach_ident (Token.isIdent_iff.mpr ⟨_, h⟩) 0 rest
  | more h hu _ ih =>
    rw [List.cons_append, reach_ident (Token.isIdent_iff.mpr ⟨_, h⟩), List.cons_append,
      reach_colons hu, ih]
    simp only [List.length_cons]
    omega

theorem reach_name {ns rest : List Token} {path : WidgetPath} (h : Name ns path)
    (hf : Follow rest) : reach 0 (ns ++ rest) = ns.length := by
  cases h with
  | plain h => rw [reach_segments h, reach_follow hf, Nat.add_zero]
  | generic h hg =>
    rw [List.append_assoc, reach_segments h, reach_generics hg, reach_follow hf, Nat.add_zero,
      List.length_append]

/-- What can belong to a name. -/
def InName (t : Token) : Prop :=
  t.isIdent ∨ t.isPunctOf "::" ∨ t.isPunctOf "," ∨ t.isPunctOf "<" ∨ t.isPunctOf ">"

/-- The first pass takes a token that can belong to a name, or it stops. -/
theorem reach_cons (depth : Int) (t : Token) (ts : List Token) :
    reach depth (t :: ts) = 0 ∨ InName t ∧ ∃ next, reach depth (t :: ts) = 1 + reach next ts := by
  cases hp : t.punct? with
  | none =>
    cases hi : t.isIdent with
    | true => exact .inr ⟨.inl hi, _, reach_ident hi depth ts⟩
    | false => simp [reach, hp, hi]
  | some mark =>
    have hmark : ∀ m, mark = m → t.isPunctOf m := by
      rintro m rfl
      simp [Token.isPunctOf, hp]
    by_cases hopen : mark = "<"
    · exact .inr ⟨.inr (.inr (.inr (.inl (hmark _ hopen)))), _, reach_open (hmark _ hopen) depth ts⟩
    · by_cases hclose : mark = ">"
      · exact .inr ⟨.inr (.inr (.inr (.inr (hmark _ hclose)))), _,
          reach_close (hmark _ hclose) depth ts⟩
      · by_cases hcomma : mark = ","
        · by_cases hd : depth = 0
          · simp [reach, hp, hcomma, hd]
          · exact .inr ⟨.inr (.inr (.inl (hmark _ hcomma))), depth, by simp [reach, hp, hcomma, hd]⟩
        · by_cases hcolons : mark = "::"
          · exact .inr ⟨.inr (.inl (hmark _ hcolons)), _, reach_colons (hmark _ hcolons) depth ts⟩
          · simp [reach, hp]

theorem inName_of_mem_take_reach {depth : Int} {ts : List Token} :
    ∀ t ∈ ts.take (reach depth ts), InName t := by
  induction ts generalizing depth with
  | nil => simp
  | cons t ts ih =>
    rcases reach_cons depth t ts with h | ⟨hin, next, h⟩
    · simp [h]
    · rw [h, Nat.add_comm, List.take_succ_cons]
      intro u hu
      rcases List.mem_cons.mp hu with rfl | hu
      · exact hin
      · exact ih u hu

/-! ### The shape -/

theorem angleLength_single {t : Token} (h : t.isIdent ∨ t.isPunctOf "::" ∨ t.isPunctOf ",")
    (depth : Int) (ts : List Token) :
    angleLength depth (t :: ts) = (angleLength depth ts).map (· + 1) := by
  rcases h with h | h | h
  · obtain ⟨s, hs⟩ := Token.isIdent_iff.mp h
    obtain ⟨span, rfl⟩ := Token.ident?_eq_some hs
    rfl
  · simp [angleLength, Token.punct?_of_isPunctOf h]
  · simp [angleLength, Token.punct?_of_isPunctOf h]

theorem angleLength_open {t : Token} (h : t.isPunctOf "<") (depth : Int) (ts : List Token) :
    angleLength depth (t :: ts) = (angleLength (depth + 1) ts).map (· + 1) := by
  simp [angleLength, Token.punct?_of_isPunctOf h]

theorem angleLength_close {t : Token} (h : t.isPunctOf ">") (depth : Int) (ts : List Token) :
    angleLength depth (t :: ts) =
      if depth = 1 then some 1 else (angleLength (depth - 1) ts).map (· + 1) := by
  simp [angleLength, Token.punct?_of_isPunctOf h]

theorem angleLength_balanced {ts : List Token} (h : Balanced ts) {depth : Int} (hd : 0 < depth)
    (rest : List Token) :
    angleLength depth (ts ++ rest) = (angleLength depth rest).map (· + ts.length) := by
  induction h generalizing depth rest with
  | nil => simp
  | single h _ ih =>
    rw [List.cons_append, angleLength_single h, ih hd, Option.map_map]
    rfl
  | angle ht _ hu _ ihin ihout =>
    rw [List.cons_append, angleLength_open ht, List.append_assoc, ihin (by omega), List.cons_append,
      angleLength_close hu, if_neg (by omega), Int.add_sub_cancel, ihout hd]
    simp only [Option.map_map, List.length_cons, List.length_append]
    congr 1
    funext n
    simp only [Function.comp]
    omega

theorem angleLength_generics {gs : List Token} (h : Generics gs) :
    angleLength 0 gs = some gs.length := by
  obtain ⟨ht, hin, hu⟩ := h
  rw [angleLength_open ht, angleLength_balanced hin (by omega), angleLength_close hu,
    if_pos (by omega)]
  simp
  omega

theorem shape_colons {t u : Token} {name : String} (ht : t.ident? = some name)
    (hu : u.isPunctOf "::") (us : List Token) :
    shape (t :: u :: us) = (shape us).map fun r => (name :: r.1, r.2) := by
  have hangle : u.isPunctOf "<" = false := by
    simp [Token.isPunctOf, Token.punct?_of_isPunctOf hu]
  simp [shape, ht, hu, hangle]

theorem shape_angle {t u : Token} {name : String} (ht : t.ident? = some name)
    (hu : u.isPunctOf "<") (us : List Token) :
    shape (t :: u :: us) =
      if angleLength 0 (u :: us) = some (us.length + 1) then some ([name], some (u :: us))
      else none := by
  simp [shape, ht, hu]

theorem shape_segments {ts : List Token} {ss : List String} (h : Segments ts ss) :
    shape ts = some (ss, none) := by
  induction h with
  | one h => simp [shape, h]
  | more h hu _ ih => rw [shape_colons h hu, ih, Option.map_some]

theorem shape_generic {ts gs : List Token} {ss : List String} (h : Segments ts ss)
    (hg : Generics gs) : shape (ts ++ gs) = some (ss, some gs) := by
  induction h with
  | one h =>
    have hlength := angleLength_generics hg
    cases hg with
    | angle ht hin hu =>
      rw [List.length_cons] at hlength
      rw [List.cons_append, List.nil_append, shape_angle h ht, if_pos hlength]
  | more h hu _ ih =>
    rw [List.cons_append, List.cons_append, shape_colons h hu, ih, Option.map_some]

/-- What the second pass accepts, up to the tokens between the brackets. -/
theorem shape_eq_some {ts : List Token} {ss : List String} {g : Option (List Token)}
    (h : shape ts = some (ss, g)) :
    (g = none ∧ Segments ts ss) ∨
    ∃ front u us, g = some (u :: us) ∧ ts = front ++ u :: us ∧ Segments front ss ∧
      u.isPunctOf "<" ∧ angleLength 0 (u :: us) = some (u :: us).length := by
  induction ts using shape.induct generalizing ss with
  | case1 => cases h
  | case2 t ts hi => simp [shape, hi] at h
  | case3 t name hi =>
    have hone : shape [t] = some ([name], none) := by simp [shape, hi]
    obtain ⟨rfl, rfl⟩ := Prod.mk.inj (Option.some.inj (hone.symm.trans h))
    exact .inl ⟨rfl, .one hi⟩
  | case4 t name u us hi hangle hclose =>
    rw [shape_angle hi hangle, if_pos hclose] at h
    obtain ⟨rfl, rfl⟩ := Prod.mk.inj (Option.some.inj h)
    exact .inr ⟨[t], u, us, rfl, rfl, .one hi, hangle, hclose⟩
  | case5 t name u us hi hangle hclose =>
    rw [shape_angle hi hangle, if_neg hclose] at h
    cases h
  | case6 t name u us hi hangle hcolons ih =>
    rw [shape_colons hi hcolons] at h
    obtain ⟨⟨ss', g'⟩, hr, heq⟩ := Option.map_eq_some_iff.mp h
    obtain ⟨rfl, rfl⟩ := Prod.mk.inj heq
    rcases ih hr with ⟨rfl, hs⟩ | ⟨front, v, vs, rfl, rfl, hs, hv, hclose⟩
    · exact .inl ⟨rfl, .more hi hcolons hs⟩
    · exact .inr ⟨t :: u :: front, v, vs, rfl, rfl, .more hi hcolons hs, hv, hclose⟩
  | case7 t name u us hi hangle hcolons =>
    simp [shape, hi, hangle, hcolons] at h

/-- The bracket that closes `depth + 1` open ones at the end of a run closes the last of them there,
and the others before. -/
theorem balanced_of_angleLength {ts : List Token} (hin : ∀ t ∈ ts, InName t) {depth : Nat}
    (h : angleLength (depth + 1) ts = some ts.length) :
    ∃ bs u us, ts = bs ++ u :: us ∧ Balanced bs ∧ u.isPunctOf ">" ∧
      if depth = 0 then us = [] else angleLength depth us = some us.length := by
  induction hn : ts.length using Nat.strong_induction_on generalizing ts depth with
  | _ n ih =>
    subst hn
    cases ts with
    | nil => cases h
    | cons t ts =>
      obtain ⟨ht, hts⟩ := List.forall_mem_cons.mp hin
      have hsingle : (t.isIdent ∨ t.isPunctOf "::" ∨ t.isPunctOf ",") → ∃ bs u us,
          t :: ts = bs ++ u :: us ∧ Balanced bs ∧ u.isPunctOf ">" ∧
          if depth = 0 then us = [] else angleLength depth us = some us.length := by
        intro ht
        rw [angleLength_single ht, List.length_cons] at h
        have h' : angleLength (depth + 1) ts = some ts.length := by simpa using h
        obtain ⟨bs, u, us, rfl, hb, hu, hrest⟩ := ih _ (by simp) hts h' rfl
        exact ⟨t :: bs, u, us, rfl, .single ht hb, hu, hrest⟩
      rcases ht with ht | ht | ht | ht | ht
      · exact hsingle (.inl ht)
      · exact hsingle (.inr (.inl ht))
      · exact hsingle (.inr (.inr ht))
      · rw [angleLength_open ht, List.length_cons] at h
        have h' : angleLength ((depth + 1 : Nat) + 1) ts = some ts.length := by
          simpa using h
        obtain ⟨bs, u, us, rfl, hb, hu, hrest⟩ := ih _ (by simp) hts h' rfl
        rw [if_neg (by omega)] at hrest
        have hus : ∀ v ∈ us, InName v := fun v hv => hts v (by simp [hv])
        obtain ⟨bs', u', us', rfl, hb', hu', hrest'⟩ :=
          ih us.length (by simp; omega) hus (by simpa using hrest) rfl
        exact ⟨t :: (bs ++ u :: bs'), u', us', by simp, .angle ht hb hu hb', hu', hrest'⟩
      · rw [angleLength_close ht] at h
        refine ⟨[], t, ts, rfl, .nil, ht, ?_⟩
        cases depth with
        | zero => simpa using h
        | succ depth =>
          rw [if_neg (by omega)] at h
          simpa using h

/-- Generics are what the second pass takes for generics, if it sees nothing that is in no name. -/
theorem generics_of_angleLength {t : Token} {ts : List Token} (hin : ∀ u ∈ ts, InName u)
    (ht : t.isPunctOf "<") (h : angleLength 0 (t :: ts) = some (t :: ts).length) :
    Generics (t :: ts) := by
  rw [angleLength_open ht, List.length_cons] at h
  have h' : angleLength ((0 : Nat) + 1) ts = some ts.length := by simpa using h
  obtain ⟨bs, u, us, rfl, hb, hu, hus⟩ := balanced_of_angleLength hin h'
  obtain rfl : us = [] := by simpa using hus
  exact .angle ht hb hu

theorem mayFollow_iff {ts : List Token} : mayFollow ts ↔ Follow ts := by
  constructor
  · intro h
    cases ts with
    | nil => exact .done
    | cons t ts =>
      rcases Bool.or_eq_true_iff.mp h with h | h
      · cases t with
        | leaf l => cases h
        | group d cs s => exact .group
      · exact .comma h
  · intro h
    cases h with
    | done => rfl
    | comma h => simp [mayFollow, h]
    | group => rfl

theorem pathOf?_name {ns : List Token} {path : WidgetPath} (h : Name ns path) :
    pathOf? ns = some path := by
  cases h with
  | plain h => simp [pathOf?, shape_segments h]
  | generic h hg =>
    have hshape := shape_generic h hg
    rw [List.cons_append] at hshape ⊢
    simp [pathOf?, hshape]

theorem name_of_pathOf? {ns : List Token} {path : WidgetPath} (hin : ∀ t ∈ ns, InName t)
    (h : pathOf? ns = some path) : Name ns path := by
  unfold pathOf? at h
  split at h
  · next t ts ss g hshape =>
    obtain rfl := Option.some.inj h
    rcases shape_eq_some hshape with ⟨rfl, hs⟩ | ⟨front, u, us, rfl, heq, hs, hu, hclose⟩
    · exact .plain hs
    · obtain ⟨v, vs, rfl, -⟩ := hs.head
      obtain ⟨rfl, rfl⟩ := List.cons.inj heq
      have hus : ∀ w ∈ us, InName w := fun w hw => hin w (by simp [hw])
      exact .generic hs (generics_of_angleLength hus hu hclose)
  · cases h

/-- The scan finds a name of the grammar that something allowed follows, and only such a name. -/
theorem scan?_eq_some_iff {ts : List Token} {path : WidgetPath} {n : Nat} :
    scan? ts = some (path, n) ↔
      ∃ ns rest, ts = ns ++ rest ∧ ns.length = n ∧ Name ns path ∧ Follow rest := by
  constructor
  · intro h
    simp only [scan?] at h
    split at h
    · next p hpath =>
      split at h
      · next hf =>
        obtain ⟨rfl, rfl⟩ := Prod.mk.inj (Option.some.inj h)
        exact ⟨ts.take (reach 0 ts), ts.drop (reach 0 ts), (List.take_append_drop _ _).symm,
          by simp [reach_le], name_of_pathOf? inName_of_mem_take_reach hpath, mayFollow_iff.mp hf⟩
      · cases h
    · cases h
  · rintro ⟨ns, rest, rfl, rfl, hn, hf⟩
    simp only [scan?, reach_name hn hf, List.take_left, List.drop_left, pathOf?_name hn]
    rw [if_pos (mayFollow_iff.mpr hf)]

end QualifiedName

end WidgetView
