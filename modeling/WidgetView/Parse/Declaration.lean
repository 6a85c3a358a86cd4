import WidgetView.Parse.QualifiedName
import WidgetView.Parse.Value
import WidgetView.Token.StringValue

/-!
# Declarations

Declarations: attributes, a qualified name, expressions in parentheses and a body in braces. The
body is taken as it stands; its entries are read elsewhere. A toolkit widget must have a body.
-/
namespace WidgetView

namespace Parse

/-- Attributes by name, with the value if one is written. A repeated attribute replaces the
first. -/
abbrev Attributes := Table String (Option String)

/-- The contents of `#[...]`: a name, and a value after `=` if it is a string. -/
def attributeOf (inner : List Token) (s : Span) : Except ParseError (String × Option String) :=
  match inner with
  | [] => .error (ParseError.atToken (.expected .attributeName none) (.group .bracket inner s))
  | t :: more =>
    match t.ident? with
    | none => .error (ParseError.atToken (.expected .attributeName (some t)) t)
    | some name =>
      match more with
      | eq :: v :: _ => .ok (name, if eq.isPunctOf "=" then v.string? else none)
      | _ => .ok (name, none)

def attributes (stop : Nat × Nat) (found : Attributes) :
    List Token → Except ParseError (Attributes × List Token)
  | [] => .ok (found, [])
  | t :: ts =>
    if t.isPunctOf "#" then
      match ts with
      | .group .bracket inner s :: rest =>
        match attributeOf inner s with
        | .error e => .error e
        | .ok (name, v) => attributes stop (found.insert name v) rest
      | _ => .error (ParseError.expected stop ts .attributeBracket)
    else .ok (found, t :: ts)

/-- What stands after the name of a declared widget, and the tokens after the declaration. -/
structure Shell where
  init : List Expr
  body : List Token
  bodyStop : Nat × Nat
  rest : List Token

def initParams (ts : List Token) : Except ParseError (List Expr × List Token) :=
  match ts with
  | .group .paren cs s :: rest => (exprs s.position cs).map fun es => (es, rest)
  | _ => .ok ([], ts)

def shell (path : WidgetPath) (stop : Nat × Nat) (ts : List Token) : Except ParseError Shell :=
  match initParams ts with
  | .error e => .error e
  | .ok (init, r) =>
    match r with
    | .group .brace cs s :: rest => .ok ⟨init, cs, s.position, rest⟩
    | _ =>
      if path.isToolkit then .error (ParseError.expected stop r (.body path.text))
      else .ok ⟨init, [], stop, r⟩

/-- A declaration up to its name. What follows may be faulty; the widget then already has a name. -/
structure Declaration where
  attributes : Attributes
  path : WidgetPath
  shell : Except ParseError Shell

def declaration (stop : Nat × Nat) (ts : List Token) : Except ParseError Declaration :=
  match attributes stop {} ts with
  | .error e => .error e
  | .ok (found, r) =>
    match QualifiedName.scan? r with
    | none => .error (ParseError.expected stop r .qualifiedName)
    | some (path, n) => .ok ⟨found, path, shell path stop (r.drop n)⟩

namespace Declaration

def body (d : Declaration) : List Token :=
  match d.shell with
  | .ok s => s.body
  | .error _ => []

def rest (d : Declaration) : List Token :=
  match d.shell with
  | .ok s => s.rest
  | .error _ => []

end Declaration

theorem sizeOf_le_of_suffix {ts us : List Token} (h : ts <:+ us) : sizeOf ts ≤ sizeOf us := by
  obtain ⟨front, rfl⟩ := h
  induction front with
  | nil => simp
  | cons t front ih => simp only [List.cons_append, List.cons.sizeOf_spec]; omega

theorem sizeOf_lt_of_group {d : Delimiter} {cs ts : List Token} {s : Span}
    (h : Token.group d cs s ∈ ts) : sizeOf cs < sizeOf ts := by
  have := List.sizeOf_lt_of_mem h
  simp only [Token.group.sizeOf_spec] at this
  omega

theorem attributes_suffix {stop : Nat × Nat} {found attrs : Attributes} {ts rest : List Token}
    (h : attributes stop found ts = .ok (attrs, rest)) : rest <:+ ts := by
  fun_induction attributes stop found ts with
  | case1 => simp only [Except.ok.injEq, Prod.mk.injEq] at h; simp [← h.2]
  | case2 => simp at h
  | case3 _ _ _ _ _ _ _ _ _ ih =>
    exact (ih h).trans ((List.suffix_cons _ _).trans (List.suffix_cons _ _))
  | case4 => simp at h
  | case5 =>
    simp only [Except.ok.injEq, Prod.mk.injEq] at h
    exact h.2 ▸ List.suffix_rfl

theorem initParams_suffix {ts rest : List Token} {es : List Expr}
    (h : initParams ts = .ok (es, rest)) : rest <:+ ts := by
  unfold initParams at h
  split at h
  · next cs s r =>
    cases he : exprs s.position cs with
    | error e => simp [he, Except.map] at h
    | ok v =>
      simp only [he, Except.map, Except.ok.injEq, Prod.mk.injEq] at h
      rw [← h.2]
      exact List.suffix_cons _ _
  · simp only [Except.ok.injEq, Prod.mk.injEq] at h
    exact h.2 ▸ List.suffix_rfl

/-- The body and the tokens after a declaration lie within the tokens after its name. -/
theorem shell_within {path : WidgetPath} {stop : Nat × Nat} {ts : List Token} {s : Shell}
    (h : shell path stop ts = .ok s) :
    s.rest <:+ ts ∧ (s.body = [] ∨ sizeOf s.body < sizeOf ts) := by
  unfold shell at h
  split at h
  · simp at h
  · next init r hi =>
    have hs := initParams_suffix hi
    split at h
    · next cs sp rest =>
      simp only [Except.ok.injEq] at h
      subst h
      refine ⟨(List.suffix_cons _ _).trans hs, Or.inr ?_⟩
      have := sizeOf_le_of_suffix hs
      have := sizeOf_lt_of_group (List.mem_cons_self (a := Token.group .brace cs sp) (l := rest))
      simp only at *
      omega
    · split at h
      · simp at h
      · simp only [Except.ok.injEq] at h
        subst h
        exact ⟨hs, Or.inl rfl⟩

theorem sizeOf_drop_lt {n : Nat} {ts : List Token} (hn : 0 < n) (ht : ts ≠ []) :
    sizeOf (ts.drop n) < sizeOf ts := by
  cases ts with
  | nil => exact absurd rfl ht
  | cons t ts =>
    obtain ⟨m, rfl⟩ : ∃ m, n = m + 1 := ⟨n - 1, by omega⟩
    have := sizeOf_le_of_suffix (List.drop_suffix m ts)
    simp only [List.drop_succ_cons, List.cons.sizeOf_spec]
    omega

/-- A declaration uses up at least its name. -/
theorem declaration_within {stop : Nat × Nat} {ts : List Token} {d : Declaration}
    (h : declaration stop ts = .ok d) :
    sizeOf d.body < sizeOf ts ∧ sizeOf d.rest < sizeOf ts := by
  unfold declaration at h
  split at h
  · simp at h
  · next found r ha =>
    have hr := sizeOf_le_of_suffix (attributes_suffix ha)
    split at h
    · simp at h
    · next path n hs =>
      simp only [Except.ok.injEq] at h
      subst h
      have hne : r ≠ [] := by
        rintro rfl
        simp [QualifiedName.scan?, QualifiedName.reach, QualifiedName.pathOf?] at hs
      have hd := sizeOf_drop_lt (QualifiedName.pos_of_scan? hs) hne
      have hnil : sizeOf ([] : List Token) < sizeOf ts := by
        cases r with
        | nil => exact absurd rfl hne
        | cons t r =>
          have : 0 < sizeOf r := by
            cases r <;> simp only [List.nil.sizeOf_spec, List.cons.sizeOf_spec] <;> omega
          simp only [List.cons.sizeOf_spec, List.nil.sizeOf_spec] at *
          omega
      simp only [Declaration.body, Declaration.rest]
      split
      · next s heq =>
        obtain ⟨h₁, h₂⟩ := shell_within heq
        have := sizeOf_le_of_suffix h₁
        constructor
        · rcases h₂ with h₂ | h₂
          · rw [h₂]; exact hnil
          · omega
        · omega
      · exact ⟨hnil, hnil⟩

end Parse

end WidgetView
