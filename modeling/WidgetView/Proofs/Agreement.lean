import WidgetView.Dump.Document
import WidgetView.Proofs.Likeness
import WidgetView.Proofs.Outcomes
import WidgetView.Proofs.Phrases
import WidgetView.Proofs.QualifiedNames

/-!
# Reading tokens that are alike

Reading tokens that are alike. Every reading function refuses both runs or reads the same from both,
and leaves runs that are alike; only positions differ in what it read. Of an expression the same
text is read, of an event the same document.
-/
namespace WidgetView

/-- Results that are related, with runs that are alike behind them. -/
def Reads {α : Type} (R : α → α → Prop) (r r' : α × List Token) : Prop :=
  R r.1 r'.1 ∧ Alike r.2 r'.2

def Expr.Same (e e' : Expr) : Prop := e.text = e'.text

theorem Expr.Same.document {e e' : Expr} (h : e.Same e') : Document.ofExpr e = Document.ofExpr e' :=
  congrArg Document.text h

/-- Expressions that are written the same, one by one. -/
def SameTexts (es es' : List Expr) : Prop := es.map Expr.text = es'.map Expr.text

theorem SameTexts.documents {es es' : List Expr} (h : SameTexts es es') :
    es.map Document.ofExpr = es'.map Document.ofExpr := by
  have hwritten := congrArg (List.map Document.text) h
  rw [List.map_map, List.map_map] at hwritten
  exact hwritten

/-- Pairs of a name and an expression that are written the same. -/
def SamePairs (es es' : List (String × Expr)) : Prop :=
  es.map (fun e => (e.1, Document.ofExpr e.2)) = es'.map fun e => (e.1, Document.ofExpr e.2)

def Effect.Same (e e' : Effect) : Prop := Document.ofEffect e = Document.ofEffect e'

def Event.Same (e e' : Event) : Prop := Document.ofEvent e = Document.ofEvent e'

/-- An event is written without its own position and that of its target. -/
theorem Event.Same.intro {params : List String} {model : Option String}
    {target target' : Option Target} {eff eff' : Effect} {line column line' column' : Nat}
    (ht : target.map Target.name = target'.map Target.name) (he : eff.Same eff') :
    Event.Same ⟨params, model, target, eff, line, column⟩
      ⟨params, model, target', eff', line', column'⟩ := by
  have he' : Document.ofEffect eff = Document.ofEffect eff' := he
  have hwritten : ∀ t : Option Target, t.map (fun t => ("target", Document.text t.name)) =
      (t.map Target.name).map fun name => ("target", Document.text name) := fun t => by
    rw [Option.map_map]
    rfl
  rw [Same, Document.ofEvent, Document.ofEvent, hwritten target, hwritten target', ht, he']

namespace Parse

variable {stop stop' : Nat × Nat} {ts ts' : List Token}

/-! ### Expressions and lists -/

theorem value_agree (stop stop' : Nat × Nat) (h : Alike ts ts') (wanted : Wanted) :
    Agree (Reads Expr.Same) (value stop wanted ts) (value stop' wanted ts') := by
  obtain ⟨n, htake, hdrop, htake', hdrop'⟩ :=
    h.cut (p := (!isComma ·)) fun ht => by rw [ht.isComma_eq]
  -- both runs are cut at the same comma
  have hread := h.take n
  have hleft := h.drop n
  rw [value, value, htake, htake', hdrop, hdrop']
  generalize ts.take n = es, ts'.take n = es' at hread
  cases hread with
  | nil => exact .error
  | cons ht htouch hs =>
    exact .ok ⟨congrArg String.ofList (Alike.cons ht htouch hs).render_eq, hleft⟩

theorem exprs_of_error {e : ParseError} (hne : ts ≠ []) (h : value stop .expression ts = .error e) :
    exprs stop ts = .error e := by
  rw [exprs, if_neg hne]
  split
  · next h' =>
    rw [h] at h'
    cases h'
    rfl
  · next h' =>
    rw [h] at h'
    cases h'

theorem exprs_agree {ts ts' : List Token} (h : Alike ts ts') :
    Agree SameTexts (exprs stop ts) (exprs stop' ts') := by
  by_cases hnil : ts = []
  · subst hnil
    cases h
    rw [exprs, exprs]
    exact .ok rfl
  · have hnil' : ts' ≠ [] := by
      rintro rfl
      cases h
      exact hnil rfl
    rcases (value_agree stop stop' h .expression).cases with ⟨e, e', he, he'⟩ |
      ⟨⟨e, rest⟩, ⟨e', rest'⟩, he, he', htext, hrest⟩
    · rw [exprs_of_error hnil he, exprs_of_error hnil' he']
      exact .error
    · have hlt : (skipComma rest).length < ts.length :=
        (length_skipComma_le rest).trans_lt (length_value_lt he)
      rw [exprs_of_value he, exprs_of_value he']
      refine (exprs_agree hrest.skipComma).map fun es es' hes => ?_
      rw [SameTexts, List.map_cons, List.map_cons, hes, htext]
termination_by ts.length

theorem params_agree {ts ts' : List Token} (h : Alike ts ts') :
    Agree Eq (params stop ts) (params stop' ts') := by
  cases h with
  | nil => exact .ok rfl
  | @cons t t' ts ts' ht _ hs =>
    rw [params, params, ht.ident?_eq]
    cases t'.ident? with
    | none => exact .error
    | some name =>
      cases hs with
      | nil => exact .ok rfl
      | @cons u u' us us' hu _ hs =>
        dsimp only
        rw [hu.isComma_eq]
        split
        · refine (params_agree hs).elim (fun _ _ => .error) ?_
          rintro names _ rfl
          exact .ok rfl
        · exact .error
termination_by ts.length

theorem childProperties_of_error {t u : Token} {name : String} {e : ParseError}
    (ht : t.ident? = some name) (hu : u.isPunctOf ":")
    (h : value stop (.childValue name) ts = .error e) :
    childProperties stop (t :: u :: ts) = .error e := by
  rw [childProperties.eq_def]
  simp only [ht, hu, if_true]
  split
  · next h' =>
    rw [h] at h'
    cases h'
    rfl
  · next h' =>
    rw [h] at h'
    cases h'

theorem childProperties_agree {ts ts' : List Token} (h : Alike ts ts') :
    Agree SamePairs (childProperties stop ts) (childProperties stop' ts') := by
  cases h with
  | nil =>
    rw [childProperties, childProperties]
    exact .ok rfl
  | @cons t t' ts ts' ht _ hs =>
    cases hname : t'.ident? with
    | none =>
      rw [childProperties.eq_def, childProperties.eq_def stop']
      simp only [ht.ident?_eq, hname]
      exact .error
    | some name =>
      have hname' : t.ident? = some name := ht.ident?_eq.trans hname
      cases hs with
      | nil =>
        rw [childProperties.eq_def, childProperties.eq_def stop']
        simp only [hname, hname']
        exact .error
      | @cons u u' us us' hu _ hs =>
        by_cases hcolon : u'.isPunctOf ":"
        · have hcolon' : u.isPunctOf ":" := (hu.isPunctOf_eq ":").trans hcolon
          rcases (value_agree stop stop' hs (.childValue name)).cases with ⟨e, e', he, he'⟩ |
            ⟨⟨e, rest⟩, ⟨e', rest'⟩, he, he', htext, hrest⟩
          · rw [childProperties_of_error hname' hcolon' he,
              childProperties_of_error hname hcolon he']
            exact .error
          · have hlt : (skipComma rest).length < us.length :=
              (length_skipComma_le rest).trans_lt (length_value_lt he)
            rw [childProperties_of_value hname' hcolon' he,
              childProperties_of_value hname hcolon he']
            refine (childProperties_agree hrest.skipComma).map fun es es' hes => ?_
            rw [SamePairs, List.map_cons, List.map_cons, hes, htext.document]
        · have hcolon' : ¬u.isPunctOf ":" := by rwa [hu.isPunctOf_eq]
          rw [childProperties.eq_def, childProperties.eq_def stop']
          simp only [hname, hname', if_neg hcolon, if_neg hcolon']
          exact .error
termination_by ts.length
decreasing_by
  subst_vars
  simp only [List.length_cons]
  omega

/-! ### Events -/

theorem effect_agree (stop stop' : Nat × Nat) (h : Alike ts ts') :
    Agree (Reads Effect.Same) (effect stop ts) (effect stop' ts') := by
  cases h with
  | nil => exact .error
  | @cons t t' us us' ht htouch hs =>
    by_cases hgroup : t.isGroupOf .paren
    · obtain ⟨cs, s, rfl⟩ := Token.isGroupOf_eq_true hgroup
      cases ht with
      | @group _ _ cs' _ s' hcs =>
        rw [effect, effect]
        refine (value_agree s.position s'.position hcs .message).elim (fun _ _ => .error) ?_
        rintro ⟨message, r⟩ ⟨message', r'⟩ ⟨hmessage, hr⟩
        dsimp only at hr ⊢
        rw [hr.head?_any Token.Alike.isComma_eq]
        split
        · refine (value_agree s.position s'.position hr.tail .answer).elim (fun _ _ => .error) ?_
          rintro ⟨answer, _⟩ ⟨answer', _⟩ ⟨hanswer, -⟩
          refine .ok ⟨?_, hs⟩
          rw [Effect.Same, Document.ofEffect, Document.ofEffect, hmessage.document,
            hanswer.document]
        · exact .error
    · have hgroup' : ¬t'.isGroupOf .paren := by rwa [← ht.isGroupOf_eq]
      rw [effect_cons hgroup, effect_cons hgroup', ht.isIdentOf_eq]
      split
      · refine (value_agree stop stop' hs .returned).map fun r r' hr => ⟨?_, hr.2⟩
        rw [Effect.Same, Document.ofEffect, Document.ofEffect, hr.1.document]
      · refine (value_agree stop stop' (.cons ht htouch hs) .effect).map fun r r' hr => ⟨?_, hr.2⟩
        rw [Effect.Same, Document.ofEffect, Document.ofEffect, hr.1.document]

theorem eventParams_agree (sort : WidgetSort) (h : Alike ts ts') :
    Agree (Reads Eq) (eventParams sort ts) (eventParams sort ts') := by
  have hdefault : Agree (Reads Eq) (.ok (sort.defaultParams, ts) : Except ParseError _)
      (.ok (sort.defaultParams, ts')) := .ok ⟨rfl, h⟩
  cases h with
  | nil => exact hdefault
  | cons ht htouch hs =>
    cases ht with
    | leaf => exact hdefault
    | @group d cs cs' s s' hcs =>
      cases d with
      | paren => exact (params_agree hcs).map fun _ _ hnames => ⟨hnames, hs⟩
      | bracket => exact hdefault
      | brace => exact hdefault

theorem eventModel_reads (h : Alike ts ts') : Reads Eq (eventModel ts) (eventModel ts') := by
  cases h with
  | nil => exact ⟨rfl, .nil⟩
  | cons ht htouch hs =>
    cases hs with
    | nil => exact ⟨rfl, .cons ht htouch .nil⟩
    | cons hu htouch' hs =>
      rw [eventModel, eventModel, ht.isIdentOf_eq, hu.ident?_eq]
      split
      · exact ⟨rfl, hs⟩
      · exact ⟨rfl, .cons ht htouch (.cons hu htouch' hs)⟩

/-- The same widget is sent to, wherever its name stands. -/
theorem eventTarget_reads (h : Alike ts ts') :
    Reads (fun o o' => o.map Target.name = o'.map Target.name) (eventTarget ts)
      (eventTarget ts') := by
  cases h with
  | nil => exact ⟨rfl, .nil⟩
  | cons ht htouch hs =>
    cases hs with
    | nil => exact ⟨rfl, .cons ht htouch .nil⟩
    | cons hu htouch' hs =>
      rw [eventTarget, eventTarget, ht.ident?_eq, hu.isPunctOf_eq]
      split
      · exact ⟨rfl, hs⟩
      · exact ⟨rfl, .cons ht htouch (.cons hu htouch' hs)⟩

theorem event_agree (stop stop' place place' : Nat × Nat) (sort : WidgetSort) (signal : String)
    (h : Alike ts ts') :
    Agree (Reads Event.Same) (event stop sort signal place ts)
      (event stop' sort signal place' ts') := by
  rw [event, event]
  refine (eventParams_agree sort h).elim (fun _ _ => .error) ?_
  rintro ⟨names, r⟩ ⟨_, r'⟩ ⟨rfl, hr⟩
  dsimp only at hr ⊢
  have hmodel := eventModel_reads hr
  generalize eventModel r = m, eventModel r' = m' at hmodel
  obtain ⟨model, us⟩ := m
  obtain ⟨model', us'⟩ := m'
  obtain ⟨hmodel, hus⟩ := hmodel
  dsimp only at hmodel hus ⊢
  subst hmodel
  cases hus with
  | nil => exact .error
  | @cons t t' us us' ht _ hs =>
    dsimp only
    rw [ht.isPunctOf_eq]
    split
    · obtain ⟨htarget, htail⟩ := eventTarget_reads hs
      refine (effect_agree stop stop' htail).elim (fun _ _ => .error) ?_
      rintro ⟨eff, rest⟩ ⟨eff', rest'⟩ ⟨heff, hrest⟩
      exact .ok ⟨.intro htarget heff, hrest⟩
    · exact .error

end Parse

/-! ### Qualified names -/

/-- The same path at another place. -/
def WidgetPath.Same (p p' : WidgetPath) : Prop :=
  ∃ line column, p' = { p with line := line, column := column }

namespace WidgetPath.Same

variable {p p' : WidgetPath}

theorem text_eq (h : p.Same p') : p.text = p'.text := by
  obtain ⟨line, column, rfl⟩ := h
  rfl

theorem sort_eq (h : p.Same p') : p.sort = p'.sort := by
  obtain ⟨line, column, rfl⟩ := h
  rfl

theorem endsLowercase_eq (h : p.Same p') : p.endsLowercase = p'.endsLowercase := by
  obtain ⟨line, column, rfl⟩ := h
  rfl

end WidgetPath.Same

namespace QualifiedName

variable {ts ts' : List Token}

theorem reach_eq (h : Alike ts ts') (depth : Int) : reach depth ts = reach depth ts' := by
  induction ts generalizing ts' depth with
  | nil =>
    cases h
    rfl
  | cons t ts ih =>
    cases h with
    | cons ht _ hs => simp only [reach, ht.punct?_eq, ht.isIdent_eq, ih hs]

theorem angleLength_eq (h : Alike ts ts') (depth : Int) :
    angleLength depth ts = angleLength depth ts' := by
  induction ts generalizing ts' depth with
  | nil =>
    cases h
    rfl
  | cons t ts ih =>
    cases h with
    | cons ht _ hs => simp only [angleLength, ht.punct?_eq, ih hs]

theorem shape_none {t : Token} (ht : t.ident? = none) (ts : List Token) :
    shape (t :: ts) = none := by
  simp [shape, ht]

theorem shape_other {t u : Token} (hangle : ¬u.isPunctOf "<") (hcolons : ¬u.isPunctOf "::")
    (us : List Token) : shape (t :: u :: us) = none := by
  cases ht : t.ident? <;> simp [shape, ht, hangle, hcolons]

/-- The same segments, and generics with the same text. -/
theorem shape_eq {ts ts' : List Token} (h : Alike ts ts') :
    (shape ts).map (fun r => (r.1, r.2.map render)) =
      (shape ts').map fun r => (r.1, r.2.map render) := by
  cases h with
  | nil => rfl
  | @cons t t' ts ts' ht _ hs =>
    cases hname : t'.ident? with
    | none => rw [shape_none hname, shape_none (ht.ident?_eq.trans hname)]
    | some name =>
      have hname' : t.ident? = some name := ht.ident?_eq.trans hname
      cases hs with
      | nil =>
        rw [shape.eq_def, shape.eq_def [t']]
        simp only [hname, hname']
      | @cons u u' us us' hu htouch hus =>
        by_cases hangle : u'.isPunctOf "<"
        · have hangle' : u.isPunctOf "<" := (hu.isPunctOf_eq "<").trans hangle
          have hs : Alike (u :: us) (u' :: us') := .cons hu htouch hus
          rw [shape_angle hname hangle, shape_angle hname' hangle',
            angleLength_eq hs, hus.length_eq]
          split
          · rw [Option.map_some, Option.map_some, Option.map_some, Option.map_some, hs.render_eq]
          · rfl
        · have hangle' : ¬u.isPunctOf "<" := by rwa [hu.isPunctOf_eq]
          by_cases hcolons : u'.isPunctOf "::"
          · have hcolons' : u.isPunctOf "::" := (hu.isPunctOf_eq "::").trans hcolons
            have ih := congrArg (Option.map fun r => (name :: r.1, r.2)) (shape_eq hus)
            rw [shape_colons hname hcolons, shape_colons hname' hcolons']
            simpa only [Option.map_map, Function.comp_def] using ih
          · rw [shape_other hangle hcolons, shape_other hangle' (by rwa [hu.isPunctOf_eq])]
termination_by ts.length

theorem pathOf?_same (h : Alike ts ts') :
    Option.Rel WidgetPath.Same (pathOf? ts) (pathOf? ts') := by
  have hshape := shape_eq h
  cases h with
  | nil => exact .none
  | @cons t t' us us' _ _ _ =>
    rw [pathOf?.eq_def, pathOf?.eq_def]
    generalize shape (t :: us) = o, shape (t' :: us') = o' at hshape
    rcases o with - | ⟨segments, generics⟩ <;> rcases o' with - | ⟨segments', generics'⟩
    · exact .none
    · cases hshape
    · cases hshape
    · obtain ⟨rfl, hgenerics⟩ := Prod.mk.inj (Option.some.inj hshape)
      have htext := congrArg (Option.map String.ofList) hgenerics
      rw [Option.map_map, Option.map_map] at htext
      exact .some ⟨t'.span.line, t'.span.column, by simpa [Function.comp_def] using htext.symm⟩

theorem scan?_same (h : Alike ts ts') :
    Option.Rel (fun r r' => r.1.Same r'.1 ∧ r.2 = r'.2) (scan? ts) (scan? ts') := by
  have hreach := reach_eq h 0
  have hfollow : mayFollow (ts.drop (reach 0 ts')) = mayFollow (ts'.drop (reach 0 ts')) := by
    have hdrop := h.drop (reach 0 ts')
    generalize ts.drop (reach 0 ts') = us, ts'.drop (reach 0 ts') = us' at hdrop
    cases hdrop with
    | nil => rfl
    | cons ht _ _ => rw [mayFollow, mayFollow, ht.isGroup_eq, ht.isPunctOf_eq]
  have hpath := pathOf?_same (h.take (reach 0 ts'))
  simp only [scan?, hreach, hfollow]
  generalize pathOf? (ts.take (reach 0 ts')) = o, pathOf? (ts'.take (reach 0 ts')) = o' at hpath
  cases hpath with
  | none => exact .none
  | some hpath =>
    dsimp only
    split
    · exact .some ⟨hpath, rfl⟩
    · exact .none

theorem scanWidget?_same (h : Alike ts ts') :
    Option.Rel (fun r r' => r.1.Same r'.1 ∧ r.2 = r'.2) (scanWidget? ts) (scanWidget? ts') := by
  have hscan := scan?_same h
  rw [scanWidget?, scanWidget?]
  generalize scan? ts = o, scan? ts' = o' at hscan
  cases hscan with
  | none => exact .none
  | @some a b hname =>
    have hl : a.1.endsLowercase = b.1.endsLowercase := hname.1.endsLowercase_eq
    dsimp only
    rw [hl]
    split
    · exact .none
    · exact .some hname

end QualifiedName

end WidgetView
