import WidgetView.Parse.Value
import WidgetView.Token.StringValue

/-!
# Token trees that are alike

Token trees that are alike: the same up to positions, and two neighbours touch in the one exactly
when they touch in the other. Nothing else about positions can be seen in the text of a run of
tokens, or by anything that looks at single tokens.
-/
namespace WidgetView

/-- The token after another one touches it. -/
def Touched (t : Token) (ts : List Token) : Prop := ∃ u ∈ ts.head?, u.span.start = t.span.stop

mutual

inductive Token.Alike : Token → Token → Prop where
  | leaf {k : Kind} {text : String} {s s' : Span} :
      Token.Alike (.leaf ⟨k, text, s⟩) (.leaf ⟨k, text, s'⟩)
  | group {d : Delimiter} {cs cs' : List Token} {s s' : Span} (h : Alike cs cs') :
      Token.Alike (.group d cs s) (.group d cs' s')

inductive Alike : List Token → List Token → Prop where
  | nil : Alike [] []
  | cons {t t' : Token} {ts ts' : List Token} (h : t.Alike t') (ht : Touched t ts ↔ Touched t' ts')
      (hs : Alike ts ts') : Alike (t :: ts) (t' :: ts')

end

theorem touched_cons {t u : Token} {us : List Token} :
    Touched t (u :: us) ↔ u.span.start = t.span.stop := by
  simp [Touched]

theorem gap_of_touched {t u t' u' : Token} {us us' : List Token}
    (h : Touched t (u :: us) ↔ Touched t' (u' :: us')) :
    gap t.span.stop u.span.start = gap t'.span.stop u'.span.start := by
  rw [touched_cons, touched_cons] at h
  simp [gap, h]

@[simp] theorem render_singleton (t : Token) :
    render [t] = t.render := by simp [render, renderAfter]

theorem render_cons_cons (t u : Token) (us : List Token) :
    render (t :: u :: us) = t.render ++ (gap t.span.stop u.span.start ++ render (u :: us)) := by
  simp [render, renderAfter]

mutual

theorem Token.Alike.render_eq {t t' : Token} (h : t.Alike t') : t.render = t'.render := by
  match t, t', h with
  | _, _, .leaf => rfl
  | _, _, .group h => rw [Token.render, Token.render, h.render_eq]

/-- Runs of tokens that are alike have the same text. -/
theorem Alike.render_eq {ts ts' : List Token} (h : WidgetView.Alike ts ts') :
    render ts = render ts' := by
  match ts, ts', h with
  | _, _, .nil => rfl
  | [t], [t'], .cons h _ _ => rw [render_singleton, render_singleton, h.render_eq]
  | t :: u :: us, t' :: u' :: us', .cons h ht hs =>
    rw [render_cons_cons, render_cons_cons, h.render_eq, gap_of_touched ht, hs.render_eq]

end

mutual

theorem Token.Alike.symm {t t' : Token} (h : t.Alike t') : t'.Alike t := by
  match t, t', h with
  | _, _, .leaf => exact .leaf
  | _, _, .group h => exact .group h.symm

theorem Alike.symm {ts ts' : List Token} (h : WidgetView.Alike ts ts') :
    WidgetView.Alike ts' ts := by
  match ts, ts', h with
  | _, _, .nil => exact .nil
  | _, _, .cons h ht hs => exact .cons h.symm ht.symm hs.symm

end

mutual

theorem Token.Alike.trans {t t' t'' : Token} (h : t.Alike t') (h' : t'.Alike t'') :
    t.Alike t'' := by
  match t, t', t'', h, h' with
  | _, _, _, .leaf, .leaf => exact .leaf
  | _, _, _, .group h, .group h' => exact .group (h.trans h')

theorem Alike.trans {ts ts' ts'' : List Token} (h : WidgetView.Alike ts ts')
    (h' : WidgetView.Alike ts' ts'') : WidgetView.Alike ts ts'' := by
  match ts, ts', ts'', h, h' with
  | _, _, _, .nil, .nil => exact .nil
  | _, _, _, .cons h ht hs, .cons h' ht' hs' =>
    exact .cons (h.trans h') (ht.trans ht') (hs.trans hs')

end

/-! ### Single tokens -/

namespace Token.Alike

variable {t t' : Token}

theorem ident?_eq (h : t.Alike t') : t.ident? = t'.ident? := by
  cases h with
  | @leaf k text s s' => cases k <;> rfl
  | group h => rfl

theorem punct?_eq (h : t.Alike t') : t.punct? = t'.punct? := by
  cases h with
  | @leaf k text s s' => cases k <;> rfl
  | group h => rfl

theorem string?_eq (h : t.Alike t') : t.string? = t'.string? := by
  cases h with
  | @leaf k text s s' => cases k <;> rfl
  | group h => rfl

theorem isGroup_eq (h : t.Alike t') : t.isGroup = t'.isGroup := by
  cases h <;> rfl

theorem isGroupOf_eq (h : t.Alike t') (d : Delimiter) : t.isGroupOf d = t'.isGroupOf d := by
  cases h <;> rfl

theorem isIdent_eq (h : t.Alike t') : t.isIdent = t'.isIdent := by
  rw [isIdent, isIdent, h.ident?_eq]

theorem isIdentOf_eq (h : t.Alike t') (name : String) : t.isIdentOf name = t'.isIdentOf name := by
  rw [isIdentOf, isIdentOf, h.ident?_eq]

theorem isPunctOf_eq (h : t.Alike t') (mark : String) : t.isPunctOf mark = t'.isPunctOf mark := by
  rw [isPunctOf, isPunctOf, h.punct?_eq]

theorem isComma_eq (h : t.Alike t') : Parse.isComma t = Parse.isComma t' := h.isPunctOf_eq ","

end Token.Alike

/-! ### Parts of a run -/

namespace Alike

variable {ts ts' : List Token}

theorem length_eq (h : WidgetView.Alike ts ts') : ts.length = ts'.length := by
  induction ts generalizing ts' with
  | nil =>
    cases h
    rfl
  | cons t ts ih =>
    cases h with
    | cons _ _ hs => rw [List.length_cons, List.length_cons, ih hs]

/-- What is asked of the first token has the same answer. -/
theorem head?_any (h : WidgetView.Alike ts ts') {p : Token → Bool}
    (hp : ∀ {t t' : Token}, t.Alike t' → p t = p t') :
    (ts.head?.map p).getD false = (ts'.head?.map p).getD false := by
  cases h with
  | nil => rfl
  | cons ht _ _ => simp [hp ht]

theorem tail (h : WidgetView.Alike ts ts') : WidgetView.Alike ts.tail ts'.tail := by
  cases h with
  | nil => exact .nil
  | cons _ _ hs => exact hs

theorem drop (h : WidgetView.Alike ts ts') (n : Nat) :
    WidgetView.Alike (ts.drop n) (ts'.drop n) := by
  induction n generalizing ts ts' with
  | zero => exact h
  | succ n ih =>
    rw [← List.drop_tail, ← List.drop_tail]
    exact ih h.tail

theorem take (h : WidgetView.Alike ts ts') (n : Nat) :
    WidgetView.Alike (ts.take n) (ts'.take n) := by
  induction n generalizing ts ts' with
  | zero => exact .nil
  | succ n ih =>
    cases h with
    | nil => exact .nil
    | cons ht htouch hs =>
      refine .cons ht ?_ (ih hs)
      cases n with
      | zero => simp [Touched]
      | succ n => simpa [Touched, List.head?_take] using htouch

theorem skipComma (h : WidgetView.Alike ts ts') :
    WidgetView.Alike (Parse.skipComma ts) (Parse.skipComma ts') := by
  cases h with
  | nil => exact .nil
  | cons ht htouch hs =>
    rw [Parse.skipComma, Parse.skipComma, ht.isComma_eq]
    split
    · exact hs
    · exact .cons ht htouch hs

/-- Runs that are alike are cut at the same place. -/
theorem cut (h : WidgetView.Alike ts ts') {p : Token → Bool}
    (hp : ∀ {t t' : Token}, t.Alike t' → p t = p t') :
    ∃ n, ts.takeWhile p = ts.take n ∧ ts.dropWhile p = ts.drop n ∧
      ts'.takeWhile p = ts'.take n ∧ ts'.dropWhile p = ts'.drop n := by
  induction ts generalizing ts' with
  | nil =>
    cases h
    exact ⟨0, rfl, rfl, rfl, rfl⟩
  | cons t ts ih =>
    cases h with
    | @cons _ t' _ ts' ht _ hs =>
      cases hpt : p t with
      | false =>
        exact ⟨0, by simp [hpt], by simp [hpt], by simp [← hp ht, hpt], by simp [← hp ht, hpt]⟩
      | true =>
        obtain ⟨n, h₁, h₂, h₃, h₄⟩ := ih hs
        have hpt' : p t' = true := hp ht ▸ hpt
        exact ⟨n + 1, by simp [hpt, h₁], by simp [hpt, h₂], by simp [hpt', h₃], by simp [hpt', h₄]⟩

end Alike

end WidgetView
