import WidgetView.Proofs.Agreement
import WidgetView.Proofs.Documents
import WidgetView.Proofs.Origins

/-!
# From documents back to views

What a document tells about the view that it was written of. The text of a run of tokens that was
read from a source is read back as a run like it, and the segments of a name are told apart by the
marks between them; so two views that were read have the same document exactly when they are alike.
-/
namespace WidgetView

/-! ### Views that are alike -/

/-- The same tokens up to positions and to the width of the gaps between them. -/
def Expr.Alike (e e' : Expr) : Prop := WidgetView.Alike e.tokens e'.tokens

inductive Effect.Alike : Effect → Effect → Prop where
  | fire {e e' : Expr} (h : e.Alike e') : Alike (.fire e) (.fire e')
  | callReturn {e e' : Expr} (h : e.Alike e') : Alike (.callReturn e) (.callReturn e')
  | paired {e e' f f' : Expr} (he : e.Alike e') (hf : f.Alike f') :
      Alike (.paired e f) (.paired e' f')

structure Event.Alike (e e' : Event) : Prop where
  params : e.params = e'.params
  model : e.model = e'.model
  target : e.target.map Target.name = e'.target.map Target.name
  effect : e.effect.Alike e'.effect

inductive WidgetKind.Alike : WidgetKind → WidgetKind → Prop where
  | toolkit {events events' : Table String Event} {save : Bool}
      (h : events.Rel Event.Alike events') : Alike (.toolkit events save) (.toolkit events' save)
  | composed {events events' : Table String (List Event)}
      (h : events.Rel (List.Forall₂ Event.Alike) events') :
      Alike (.composed events) (.composed events')

/-- The same type, where none and the empty one count as the same. -/
def Container.Alike (c c' : Container) : Prop := c.childType.getD "" = c'.childType.getD ""

structure Widget.Alike (w w' : Widget) : Prop where
  name : w.name = w'.name
  path : w.path.Same w'.path
  kind : w.kind.Alike w'.kind
  init : List.Forall₂ Expr.Alike w.init w'.init
  properties : w.properties.Rel Expr.Alike w'.properties
  childProperties : w.childProperties.Rel Expr.Alike w'.childProperties
  container : Option.Rel Container.Alike w.container w'.container
  parent : w.parent = w'.parent

/-- The same view up to positions, to the order of what has names, and to the width of gaps. -/
inductive View.Alike : View → View → Prop where
  | node {w w' : Widget} {vs vs' : List View} (h : w.Alike w')
      (hs : List.Forall₂ View.Alike vs vs') : View.Alike (.node w vs) (.node w' vs')

/-! ### Expressions -/

/-- An expression whose tokens stand in a source. -/
def Expr.Scanned (e : Expr) : Prop :=
  ∃ source ts more, tokenize source = .ok ts ∧ Within ts (e.tokens ++ more)

theorem Expr.Scanned.alike {e e' : Expr} (h : e.Scanned) (h' : e'.Scanned) (ht : e.text = e'.text) :
    e.Alike e' := by
  obtain ⟨source, ts, more, htokens, hw⟩ := h
  obtain ⟨source', ts', more', htokens', hw'⟩ := h'
  obtain ⟨run, hrun, halike⟩ := tokenize_render htokens hw
  obtain ⟨run', hrun', halike'⟩ := tokenize_render htokens' hw'
  have hrender : render e.tokens = render e'.tokens := String.ofList_injective ht
  rw [hrender, hrun'] at hrun
  obtain rfl := Except.ok.inj hrun
  exact halike.trans halike'.symm

/-! ### Names -/

/-- A path whose segments are names and whose generics, if any, begin with an angle bracket. -/
structure WidgetPath.Scanned (p : WidgetPath) : Prop where
  nonempty : p.segments ≠ []
  names : ∀ s ∈ p.segments, Scan.IsName s.toList
  generics : ∀ g ∈ p.generics, g.toList.head? = some '<'

/-- A name ends where the first character stands that is not of a name. -/
theorem Scan.IsName.append_inj {s s' r r' : List Char} (hs : IsName s) (hs' : IsName s')
    (hr : ∀ c ∈ r.head?, isIdentChar c = false) (hr' : ∀ c ∈ r'.head?, isIdentChar c = false)
    (h : s ++ r = s' ++ r') : s = s' ∧ r = r' := by
  have htake : ∀ {s r : List Char}, IsName s → (∀ c ∈ r.head?, isIdentChar c = false) →
      (s ++ r).takeWhile isIdentChar = s := by
    rintro s r ⟨c, ds, rfl, hc, hds⟩ hr
    have hall : ∀ d ∈ c :: ds, isIdentChar d = true :=
      List.forall_mem_cons.mpr ⟨by rw [isIdentChar, hc, Bool.true_or], hds⟩
    rw [List.takeWhile_append_of_pos hall]
    cases r with
    | nil => simp
    | cons d r => simp [hr d rfl]
  have hsame : s = s' := by rw [← htake hs hr, h, htake hs' hr']
  exact ⟨hsame, List.append_cancel_left (hsame ▸ h)⟩

/-- Segments with marks between them, and generics behind them, are told apart. -/
theorem segments_inj {ss ss' : List String} {g g' : List Char} (hne : ss ≠ []) (hne' : ss' ≠ [])
    (hss : ∀ s ∈ ss, Scan.IsName s.toList) (hss' : ∀ s ∈ ss', Scan.IsName s.toList)
    (hg : ∀ c ∈ g.head?, c = '<') (hg' : ∀ c ∈ g'.head?, c = '<')
    (h : [':', ':'].intercalate (ss.map String.toList) ++ g =
      [':', ':'].intercalate (ss'.map String.toList) ++ g') : ss = ss' ∧ g = g' := by
  have hangle : ∀ {g : List Char}, (∀ c ∈ g.head?, c = '<') →
      ∀ c ∈ g.head?, Scan.isIdentChar c = false := by
    intro g hg c hc
    rw [hg c hc]
    rfl
  have hcolon : ∀ r : List Char, ∀ c ∈ (':' :: ':' :: r).head?, Scan.isIdentChar c = false := by
    rintro r c hc
    obtain rfl := Option.some.inj hc
    rfl
  induction ss generalizing ss' with
  | nil => exact absurd rfl hne
  | cons s ss ih =>
    obtain ⟨s', ss', rfl⟩ := List.exists_cons_of_ne_nil hne'
    obtain ⟨hs, hss⟩ := List.forall_mem_cons.mp hss
    obtain ⟨hs', hss'⟩ := List.forall_mem_cons.mp hss'
    rcases ss with - | ⟨t, ss⟩ <;> rcases ss' with - | ⟨t', ss'⟩
    · simp only [List.map_cons, List.map_nil, List.intercalate_singleton] at h
      obtain ⟨hsame, hrest⟩ := hs.append_inj hs' (hangle hg) (hangle hg') h
      exact ⟨by rw [String.toList_inj.mp hsame], hrest⟩
    · simp only [List.map_cons, List.map_nil, List.intercalate_singleton,
        List.intercalate_cons_cons, List.append_assoc, List.cons_append, List.nil_append] at h
      obtain ⟨-, hrest⟩ := hs.append_inj hs' (hangle hg) (hcolon _) h
      subst hrest
      cases hg ':' rfl
    · simp only [List.map_cons, List.map_nil, List.intercalate_singleton,
        List.intercalate_cons_cons, List.append_assoc, List.cons_append, List.nil_append] at h
      obtain ⟨-, hrest⟩ := hs.append_inj hs' (hcolon _) (hangle hg') h
      subst hrest
      cases hg' ':' rfl
    · simp only [List.map_cons, List.intercalate_cons_cons, List.append_assoc, List.cons_append,
        List.nil_append] at h
      obtain ⟨hsame, hrest⟩ := hs.append_inj hs' (hcolon _) (hcolon _) h
      simp only [List.cons.injEq, true_and, ← List.map_cons] at hrest
      obtain ⟨hmore, hgs⟩ := ih (List.cons_ne_nil _ _) (List.cons_ne_nil _ _) hss hss' hrest
      exact ⟨by rw [String.toList_inj.mp hsame, hmore], hgs⟩

theorem WidgetPath.Scanned.same_iff {p p' : WidgetPath} (h : p.Scanned) (h' : p'.Scanned) :
    p.text = p'.text ↔ p.Same p' := by
  refine ⟨fun ht => ?_, Same.text_eq⟩
  have hangle : ∀ {p : WidgetPath}, p.Scanned →
      ∀ c ∈ (p.generics.getD "").toList.head?, c = '<' := by
    intro p hp c hc
    cases hg : p.generics with
    | none => simp [hg] at hc
    | some g =>
      have hhead := hp.generics g hg
      rw [hg, Option.getD_some, hhead] at hc
      exact (Option.some.inj hc).symm
  have hchars := congrArg String.toList ht
  simp only [text, String.toList_append, String.toList_intercalate] at hchars
  obtain ⟨hsegments, hgenerics⟩ :=
    segments_inj h.nonempty h'.nonempty h.names h'.names (hangle h) (hangle h') hchars
  have hsame : p.generics = p'.generics := by
    have htexts := String.toList_inj.mp hgenerics
    cases hg : p.generics with
    | none =>
      cases hg' : p'.generics with
      | none => rfl
      | some g' =>
        have hhead := h'.generics g' hg'
        rw [hg, hg', Option.getD_none, Option.getD_some] at htexts
        simp [← htexts] at hhead
    | some g =>
      cases hg' : p'.generics with
      | none =>
        have hhead := h.generics g hg
        rw [hg, hg', Option.getD_none, Option.getD_some] at htexts
        simp [htexts] at hhead
      | some g' =>
        rw [hg, hg', Option.getD_some, Option.getD_some] at htexts
        rw [htexts]
  obtain ⟨segments, generics, line, column⟩ := p
  obtain ⟨segments', generics', line', column'⟩ := p'
  obtain rfl : segments = segments' := hsegments
  obtain rfl : generics = generics' := hsame
  exact ⟨line', column', rfl⟩

/-- An identifier of a source is a name. -/
theorem name_of_tokenize {source : List Char} {ts us : List Token} {t : Token} {name : String}
    (h : tokenize source = .ok ts) (hw : Within ts (t :: us)) (ht : t.ident? = some name) :
    Scan.IsName name.toList := by
  obtain ⟨ls, hs, hn⟩ := tokenize_eq_ok.mp h
  have hevery : ∀ u ∈ ts, u.Every fun t => ∀ name, t.ident? = some name →
      Scan.IsName name.toList := by
    refine (nest_eq_ok_iff.mp hn).every (fun l _ d cs n name hname => ?_)
      (fun l hl _ name hname => ?_)
    · cases hname
    · obtain ⟨span, heq⟩ := Token.ident?_eq_some hname
      obtain rfl : l = ⟨.ident, name, span⟩ := Token.leaf.inj heq
      obtain ⟨front, back, rfl⟩ := List.append_of_mem hl
      obtain ⟨before, rest, -, hat⟩ := Scan.exists_nameAt hs rfl
      exact hat.name
  exact hw.every hevery t List.mem_cons_self t (mem_descendants_self t) name ht

theorem Grammar.Segments.names {source : List Char} {ts ns more : List Token} {ss : List String}
    (h : tokenize source = .ok ts) (hw : Within ts (ns ++ more)) (hs : Segments ns ss) :
    ss ≠ [] ∧ ∀ s ∈ ss, Scan.IsName s.toList := by
  induction hs with
  | one ht => exact ⟨by simp, List.forall_mem_singleton.mpr (name_of_tokenize h hw ht)⟩
  | more ht _ _ ih =>
    have hname := name_of_tokenize h hw ht
    exact ⟨by simp, List.forall_mem_cons.mpr ⟨hname, (ih hw.tail.tail).2⟩⟩

/-- A name that stands in a source. -/
theorem Grammar.Name.scanned {source : List Char} {ts ns more : List Token} {path : WidgetPath}
    (h : tokenize source = .ok ts) (hw : Within ts (ns ++ more)) (hn : Name ns path) :
    path.Scanned := by
  cases hn with
  | plain hs =>
    obtain ⟨hne, hnames⟩ := hs.names h hw
    exact ⟨hne, hnames, by simp⟩
  | @generic t us gs ss hs hg =>
    rw [List.append_assoc] at hw
    obtain ⟨hne, hnames⟩ := hs.names h hw
    refine ⟨hne, hnames, fun g hgs => ?_⟩
    obtain rfl := Option.some.inj hgs
    cases hg with
    | angle ht _ _ =>
      obtain ⟨span, rfl⟩ := Token.isPunctOf_eq_true ht
      simp [render, Token.render]

/-! ### Widgets -/

structure Widget.Scanned (w : Widget) : Prop where
  path : w.path.Scanned
  exprs : ∀ e ∈ w.exprs, e.Scanned

/-- The expressions of a widget, by the parts that they are in. -/
theorem Widget.Scanned.parts {w : Widget} (h : w.Scanned) :
    (∀ e ∈ w.init, e.Scanned) ∧ (∀ e ∈ w.properties.values, e.Scanned) ∧
      (∀ e ∈ w.childProperties.values, e.Scanned) ∧
      ∀ e ∈ w.kind.handlers, ∀ x ∈ e.2.effect.exprs, x.Scanned := by
  have hexprs := h.exprs
  simp only [Widget.exprs, Widget.events_eq, List.forall_mem_append,
    List.forall_mem_flatMap] at hexprs
  obtain ⟨⟨⟨hinit, hproperties⟩, hchild⟩, hevents⟩ := hexprs
  exact ⟨hinit, hproperties, hchild, hevents⟩

/-- The widgets of a view that was read, with all their expressions, stand in a source. -/
theorem Source.Read.scanned {v : View} (h : Read v) : ∀ w ∈ v.widgets, w.Scanned := by
  obtain ⟨source, ts, us, st, st', htokens, hw, hroot⟩ := h.root
  intro w hmem
  obtain ⟨ns, more, hns, hname⟩ := (Parse.root_standing hw hroot w hmem).path
  refine ⟨hname.scanned htokens hns, fun e he => ?_⟩
  obtain ⟨more, hwithin⟩ := Parse.root_exprs_within hw hroot e (List.mem_flatMap.mpr ⟨w, hmem, he⟩)
  exact ⟨source, ts, more, htokens, hwithin⟩

namespace Document

theorem same_ofExpr_iff {e e' : Expr} (h : e.Scanned) (h' : e'.Scanned) :
    Same (ofExpr e) (ofExpr e') ↔ e.Alike e' := by
  rw [ofExpr, ofExpr, same_text_iff]
  exact ⟨h.alike h', fun halike => congrArg String.ofList halike.render_eq⟩

theorem same_exprs_iff {es es' : List Expr} (h : ∀ e ∈ es, e.Scanned) (h' : ∀ e ∈ es', e.Scanned) :
    List.Forall₂ Same (es.map ofExpr) (es'.map ofExpr) ↔ List.Forall₂ Expr.Alike es es' := by
  rw [List.forall₂_map_left_iff, List.forall₂_map_right_iff]
  exact forall₂_congr_mem fun e he e' he' => same_ofExpr_iff (h e he) (h' e' he')

theorem alike_effect_iff {f f' : Effect} : f.Alike f' ↔ effectText f = effectText f' ∧
    f.message.Alike f'.message ∧ Option.Rel Expr.Alike f.answer? f'.answer? := by
  constructor
  · rintro (h | h | ⟨he, hf⟩)
    · exact ⟨rfl, h, .none⟩
    · exact ⟨rfl, h, .none⟩
    · exact ⟨rfl, he, .some hf⟩
  · rintro ⟨htext, hmessage, hanswer⟩
    cases f <;> cases f' <;> simp only [effectText, String.reduceEq] at htext
    · exact .fire hmessage
    · exact .callReturn hmessage
    · exact .paired hmessage (Option.rel_some_some.mp hanswer)

theorem same_effect_iff {f f' : Effect} (h : ∀ e ∈ f.exprs, e.Scanned)
    (h' : ∀ e ∈ f'.exprs, e.Scanned) : Same (ofEffect f) (ofEffect f') ↔ f.Alike f' := by
  have hmessage : ∀ f : Effect, f.message ∈ f.exprs := by
    intro f
    cases f <;> exact List.mem_cons_self
  have hanswer : ∀ f : Effect, ∀ e ∈ f.answer?, e ∈ f.exprs := by
    intro f e he
    cases f <;> simp [Effect.answer?] at he
    simp [Effect.exprs, he]
  rw [ofEffect_eq, ofEffect_eq, same_record_iff, sameFields_present_iff, alike_effect_iff]
  · simp only [List.map_cons, List.map_nil, List.forall₂_cons, List.forall₂_nil_left_iff, and_true,
      Option.rel_some_some, same_text_iff, rel_map_iff,
      same_ofExpr_iff (h _ (hmessage f)) (h' _ (hmessage f'))]
    refine and_congr_right fun _ => and_congr_right fun _ => ?_
    exact rel_congr_mem fun e he e' he' => same_ofExpr_iff (h e (hanswer f e he))
      (h' e' (hanswer f' e' he'))
  · rfl
  · simp

theorem same_event_iff {e e' : Event} (h : ∀ x ∈ e.effect.exprs, x.Scanned)
    (h' : ∀ x ∈ e'.effect.exprs, x.Scanned) : Same (ofEvent e) (ofEvent e') ↔ e.Alike e' := by
  rw [ofEvent_eq, ofEvent_eq, same_record_iff, sameFields_present_iff]
  · simp only [List.map_cons, List.map_nil, List.forall₂_cons, List.forall₂_nil_left_iff, and_true,
      Option.rel_some_some, same_list_iff, List.forall₂_map_left_iff, List.forall₂_map_right_iff,
      same_text_iff, List.forall₂_eq_eq_eq, same_map_text_iff, same_effect_iff h h']
    constructor
    · rintro ⟨hparams, hmodel, htarget, heffect⟩
      exact ⟨hparams, hmodel, htarget, heffect⟩
    · rintro ⟨hparams, hmodel, htarget, heffect⟩
      exact ⟨hparams, hmodel, htarget, heffect⟩
  · rfl
  · simp

theorem same_events_iff {es es' : List Event} (h : ∀ e ∈ es, ∀ x ∈ e.effect.exprs, x.Scanned)
    (h' : ∀ e ∈ es', ∀ x ∈ e.effect.exprs, x.Scanned) :
    List.Forall₂ Same (es.map ofEvent) (es'.map ofEvent) ↔ List.Forall₂ Event.Alike es es' := by
  rw [List.forall₂_map_left_iff, List.forall₂_map_right_iff]
  exact forall₂_congr_mem fun e he e' he' => same_event_iff (h e he) (h' e' he')

/-- A table is written as the record of its values. -/
theorem sameFields_table_iff {α : Type} {R : α → α → Prop} {f : α → Document}
    {t t' : Table String α} (h : ∀ x ∈ t.values, ∀ y ∈ t'.values, (Same (f x) (f y) ↔ R x y)) :
    SameFields (t.entries.map fun e => (e.1, f e.2)) (t'.entries.map fun e => (e.1, f e.2)) ↔
      t.Rel R t' := by
  refine forall_congr' fun key => ?_
  rw [Table.lookup_map, Table.lookup_map, rel_map_iff]
  have hvalue : ∀ {t : Table String α} {x : α}, x ∈ t.get? key → x ∈ t.values :=
    fun hx => Table.mem_values_iff.mpr ⟨key, Table.mem_of_lookup hx⟩
  exact rel_congr_mem fun x hx y hy => h x (hvalue hx) y (hvalue hy)

theorem same_properties_iff {t t' : Table String Expr} (h : ∀ e ∈ t.values, e.Scanned)
    (h' : ∀ e ∈ t'.values, e.Scanned) :
    SameFields (ofProperties t) (ofProperties t') ↔ t.Rel Expr.Alike t' :=
  sameFields_table_iff fun e he e' he' => same_ofExpr_iff (h e he) (h' e' he')

/-- What is written of the kind of a widget, and of its events. -/
theorem same_kind_iff {k k' : WidgetKind} (h : ∀ e ∈ k.handlers, ∀ x ∈ e.2.effect.exprs, x.Scanned)
    (h' : ∀ e ∈ k'.handlers, ∀ x ∈ e.2.effect.exprs, x.Scanned) :
    kindText k = kindText k' ∧ Option.Rel Same (saveMark k) (saveMark k') ∧
      SameFields (ofEvents k) (ofEvents k') ↔
      k.Alike k' := by
  cases k with
  | toolkit events save =>
    cases k' with
    | toolkit events' save' =>
      have hevents : SameFields (ofEvents (.toolkit events save))
          (ofEvents (.toolkit events' save')) ↔
          events.Rel Event.Alike events' := by
        refine sameFields_table_iff fun e he e' he' => ?_
        obtain ⟨s, hs⟩ := Table.mem_values_iff.mp he
        obtain ⟨s', hs'⟩ := Table.mem_values_iff.mp he'
        exact same_event_iff (h (s, e) hs) (h' (s', e') hs')
      have hsave : Option.Rel Same (saveMark (.toolkit events save))
          (saveMark (.toolkit events' save')) ↔
          save = save' := by
        cases save <;> cases save' <;> simp [saveMark, rel_iff, Same.flag]
      rw [hevents, hsave]
      constructor
      · rintro ⟨-, rfl, hrel⟩
        exact .toolkit hrel
      · rintro (hrel | -)
        exact ⟨rfl, rfl, hrel⟩
    | composed events' => exact iff_of_false (fun h => absurd h.1 (by simp [kindText])) nofun
  | composed events =>
    cases k' with
    | toolkit events' save' => exact iff_of_false (fun h => absurd h.1 (by simp [kindText])) nofun
    | composed events' =>
      have hhandlers : ∀ {events : Table String (List Event)} {es : List Event},
          es ∈ events.values →
          ∀ e ∈ es, ∃ s, (s, e) ∈ (WidgetKind.composed events).handlers := by
        intro events es hes e he
        obtain ⟨s, hs⟩ := Table.mem_values_iff.mp hes
        exact ⟨s, List.mem_flatMap.mpr ⟨(s, es), hs, List.mem_map_of_mem he⟩⟩
      have hevents : SameFields (ofEvents (.composed events)) (ofEvents (.composed events')) ↔
          events.Rel (List.Forall₂ Event.Alike) events' := by
        refine sameFields_table_iff (f := fun es : List Event => .list (es.map ofEvent))
          fun es hes es' hes' => ?_
        rw [same_list_iff]
        refine same_events_iff (fun e he => ?_) fun e he => ?_
        · obtain ⟨s, hs⟩ := hhandlers hes e he
          exact h (s, e) hs
        · obtain ⟨s, hs⟩ := hhandlers hes' e he
          exact h' (s, e) hs
      rw [hevents]
      constructor
      · rintro ⟨-, -, hrel⟩
        exact .composed hrel
      · rintro (- | hrel)
        exact ⟨rfl, .none, hrel⟩

theorem same_container_iff {c c' : Container} :
    Same (ofContainer c) (ofContainer c') ↔ c.Alike c' := by
  have hwritten : ∀ c : Container, ofContainer c =
      if c.childType.getD "" = "" then .flag true else .text (c.childType.getD "") := by
    rintro ⟨_ | s⟩
    · rfl
    · by_cases hs : s = ""
      · subst hs
        rfl
      · simp [ofContainer, hs]
  rw [hwritten, hwritten, Container.Alike]
  generalize c.childType.getD "" = s, c'.childType.getD "" = s'
  by_cases hs : s = "" <;> by_cases hs' : s' = ""
  · simp [hs, hs', Same.flag]
  · simp only [hs, hs', if_true, if_false]
    exact iff_of_false nofun fun h => hs' h.symm
  · simp only [hs, hs', if_true, if_false]
    exact iff_of_false nofun id
  · simp [hs, hs']

theorem same_widget_iff {w w' : Widget} (h : w.Scanned) (h' : w'.Scanned) (vs vs' : List View) :
    Same (ofView (.node w vs)) (ofView (.node w' vs')) ↔
      w.Alike w' ∧ List.Forall₂ Same (ofViews vs) (ofViews vs') := by
  rw [ofView_eq, ofView_eq, same_record_iff, sameFields_present_iff]
  · simp only [List.map_cons, List.map_nil, List.forall₂_cons, List.forall₂_nil_left_iff, and_true,
      Option.rel_some_some, same_text_iff, same_map_text_iff, same_items?_iff, same_fields?_iff]
    obtain ⟨hi, hp, hc, hk⟩ := h.parts
    obtain ⟨hi', hp', hc', hk'⟩ := h'.parts
    have hkind := same_kind_iff hk hk'
    have hcontainer : Option.Rel Same (w.container.map ofContainer) (w'.container.map ofContainer) ↔
        Option.Rel Container.Alike w.container w'.container := by
      simp only [rel_map_iff, same_container_iff]
    rw [h.path.same_iff h'.path, same_exprs_iff hi hi', same_properties_iff hp hp',
      same_properties_iff hc hc', hcontainer]
    constructor
    · rintro ⟨hname, hpath, htext, hsave, hinit, hproperties, hchild, hevents,
        hcontainer, hparent, hs⟩
      exact ⟨⟨hname, hpath, hkind.mp ⟨htext, hsave, hevents⟩, hinit, hproperties, hchild,
        hcontainer, hparent⟩, hs⟩
    · rintro ⟨⟨hname, hpath, halike, hinit, hproperties, hchild, hcontainer, hparent⟩, hs⟩
      obtain ⟨htext, hsave, hevents⟩ := hkind.mpr halike
      exact ⟨hname, hpath, htext, hsave, hinit, hproperties, hchild, hevents,
        hcontainer, hparent, hs⟩
  · rfl
  · simp

mutual

theorem same_ofView_iff (v v' : View) (h : ∀ w ∈ v.widgets, w.Scanned)
    (h' : ∀ w ∈ v'.widgets, w.Scanned) : Same (ofView v) (ofView v') ↔ View.Alike v v' := by
  match v, v' with
  | .node w vs, .node w' vs' =>
    simp only [View.widgets, Tree.toList_node, List.forall_mem_cons] at h h'
    rw [same_widget_iff h.1 h'.1, same_ofViews_iff vs vs' h.2 h'.2]
    exact ⟨fun ⟨hw, hs⟩ => .node hw hs, fun | .node hw hs => ⟨hw, hs⟩⟩

theorem same_ofViews_iff (vs vs' : List View) (h : ∀ w ∈ Tree.forestToList vs, w.Scanned)
    (h' : ∀ w ∈ Tree.forestToList vs', w.Scanned) :
    List.Forall₂ Same (ofViews vs) (ofViews vs') ↔ List.Forall₂ View.Alike vs vs' := by
  match vs, vs' with
  | [], [] => simp [ofViews]
  | [], v' :: vs' => simp [ofViews]
  | v :: vs, [] => simp [ofViews]
  | v :: vs, v' :: vs' =>
    rw [Tree.forestToList_cons, List.forall_mem_append] at h h'
    rw [ofViews, ofViews, List.forall₂_cons, List.forall₂_cons, same_ofView_iff v v' h.1 h'.1,
      same_ofViews_iff vs vs' h.2 h'.2]

end

end Document

/-- Nothing of a view is lost in its document but positions, order, and the width of gaps, and that
a container without a type is not told from one with the empty type: two views that were read have
the same document, up to the order of fields, exactly when they are alike. -/
theorem same_document_iff {v v' : View} (h : Source.Read v) (h' : Source.Read v') :
    (Document.ofView v).Same (Document.ofView v') ↔ View.Alike v v' :=
  Document.same_ofView_iff v v' h.scanned h'.scanned

/-- Another order of properties, and blanks in other places. -/
theorem same_document_iff_sample :
    let source := "gtk::Box { spacing: f( 1 ), margin: g::<i32> + 2 }".toList
    let source' := "gtk::Box \x7b\n margin: g::<i32>  +\n2, spacing: f(1) \x7d".toList
    ∃ v v', (Source.viewOfText {} {} source {}).1 = .ok v ∧
      v.exprs.map Expr.text = ["f(1)", "g::<i32> + 2"] ∧
      (Source.viewOfText {} {} source' {}).1 = .ok v' ∧
        v'.exprs.map Expr.text = ["g::<i32> + 2", "f(1)"] ∧
      ((Document.ofView v).Same (Document.ofView v') ↔ View.Alike v v') := by
  intro source source'
  obtain ⟨v, hv, htexts⟩ : ∃ v, (Source.viewOfText {} {} source {}).1 = .ok v ∧
      decide (v.exprs.map Expr.text = ["f(1)", "g::<i32> + 2"]) = true :=
        exists_ok_of_any (by decide +kernel)
  obtain ⟨v', hv', htexts'⟩ : ∃ v, (Source.viewOfText {} {} source' {}).1 = .ok v ∧
      decide (v.exprs.map Expr.text = ["g::<i32> + 2", "f(1)"]) = true :=
        exists_ok_of_any (by decide +kernel)
  have h : Source.Read v := .ofText (Prod.ext hv rfl)
  have h' : Source.Read v' := .ofText (Prod.ext hv' rfl)
  exact ⟨v, v', hv, of_decide_eq_true htexts, hv', of_decide_eq_true htexts',
    same_document_iff h h'⟩

end WidgetView
