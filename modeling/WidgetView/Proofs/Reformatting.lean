import WidgetView.Proofs.Agreement
import WidgetView.Proofs.Rendering
import WidgetView.Source

/-!
# Formatting does not matter

Formatting does not change a view. Sources whose tokens are alike have declarations that differ in
nothing but positions, so the same names are drawn for them and the views read from them are written
the same.
-/
namespace WidgetView

namespace Parse

variable {stop stop' : Nat × Nat} {ts ts' : List Token}

/-! ### Declarations -/

theorem attributeOf_agree (s s' : Span) (h : Alike ts ts') :
    Agree Eq (attributeOf ts s) (attributeOf ts' s') := by
  cases h with
  | nil => exact .error
  | @cons t t' us us' ht _ hs =>
    rw [attributeOf, attributeOf, ht.ident?_eq]
    cases t'.ident? with
    | none => exact .error
    | some name =>
      cases hs with
      | nil => exact .ok rfl
      | cons hu _ hs =>
        cases hs with
        | nil => exact .ok rfl
        | cons hv _ _ =>
          dsimp only
          rw [hu.isPunctOf_eq, hv.string?_eq]
          exact .ok rfl

theorem attributes_agree {ts ts' : List Token} (stop stop' : Nat × Nat) (found : Attributes)
    (h : Alike ts ts') :
    Agree (Reads Eq) (attributes stop found ts) (attributes stop' found ts') := by
  cases h with
  | nil => exact .ok ⟨rfl, .nil⟩
  | @cons t t' us us' ht htouch hs =>
    rw [attributes.eq_def, attributes.eq_def stop']
    dsimp only
    rw [ht.isPunctOf_eq]
    split
    · cases hs with
      | nil => exact .error
      | @cons u u' rest rest' hu _ hrest =>
        cases hu with
        | leaf => exact .error
        | @group d cs cs' s s' hcs =>
          cases d with
          | paren => exact .error
          | brace => exact .error
          | bracket =>
            dsimp only
            refine (attributeOf_agree s s' hcs).elim (fun _ _ => .error) ?_
            rintro ⟨name, v⟩ _ rfl
            exact attributes_agree stop stop' (found.insert name v) hrest
    · exact .ok ⟨rfl, .cons ht htouch hs⟩
termination_by ts.length

theorem initParams_agree (h : Alike ts ts') :
    Agree (Reads SameTexts) (initParams ts) (initParams ts') := by
  have hbare : Agree (Reads SameTexts) (.ok ([], ts) : Except ParseError (List Expr × List Token))
      (.ok ([], ts')) := .ok ⟨rfl, h⟩
  cases h with
  | nil => exact hbare
  | cons ht _ hs =>
    cases ht with
    | leaf => exact hbare
    | @group d cs cs' s s' hcs =>
      cases d with
      | paren => exact (exprs_agree hcs).map fun _ _ hes => ⟨hes, hs⟩
      | bracket => exact hbare
      | brace => exact hbare

/-- What stands after a name is written the same and read the same. -/
structure Shell.Same (s s' : Shell) : Prop where
  init : SameTexts s.init s'.init
  body : Alike s.body s'.body
  rest : Alike s.rest s'.rest

theorem shell_agree {path path' : WidgetPath} (hpath : path.Same path') (h : Alike ts ts') :
    Agree Shell.Same (shell path stop ts) (shell path' stop' ts') := by
  obtain ⟨line, column, rfl⟩ := hpath
  rw [shell, shell]
  refine (initParams_agree h).elim (fun _ _ => .error) ?_
  rintro ⟨init, r⟩ ⟨init', r'⟩ ⟨hinit, hr⟩
  have hbare : Agree Shell.Same
      (if path.isToolkit then .error (ParseError.expected stop r (.body path.text))
        else .ok ⟨init, [], stop, r⟩)
      (if path.isToolkit then .error (ParseError.expected stop' r' (.body path.text))
        else .ok ⟨init', [], stop', r'⟩) := by
    split
    · exact .error
    · exact .ok ⟨hinit, .nil, hr⟩
  dsimp only at hr ⊢
  cases hr with
  | nil => exact hbare
  | cons ht _ hs =>
    cases ht with
    | leaf => exact hbare
    | @group d cs cs' s s' hcs =>
      cases d with
      | paren => exact hbare
      | bracket => exact hbare
      | brace => exact .ok ⟨hinit, hcs, hs⟩

/-- Declarations that differ in positions only. -/
structure Declaration.Same (d d' : Declaration) : Prop where
  attributes : d.attributes = d'.attributes
  path : d.path.Same d'.path
  shell : Agree Shell.Same d.shell d'.shell

theorem Declaration.Same.body {d d' : Declaration} (h : d.Same d') : Alike d.body d'.body := by
  rw [Declaration.body, Declaration.body]
  exact h.shell.elim (fun _ _ => .nil) fun _ _ hs => hs.body

theorem Declaration.Same.rest {d d' : Declaration} (h : d.Same d') : Alike d.rest d'.rest := by
  rw [Declaration.rest, Declaration.rest]
  exact h.shell.elim (fun _ _ => .nil) fun _ _ hs => hs.rest

theorem declaration_agree (stop stop' : Nat × Nat) (h : Alike ts ts') :
    Agree Declaration.Same (declaration stop ts) (declaration stop' ts') := by
  rw [declaration, declaration]
  refine (attributes_agree stop stop' {} h).elim (fun _ _ => .error) ?_
  rintro ⟨attrs, r⟩ ⟨attrs', r'⟩ ⟨hattrs, hr⟩
  dsimp only at hattrs hr ⊢
  have hscan := QualifiedName.scan?_same hr
  generalize QualifiedName.scan? r = o, QualifiedName.scan? r' = o' at hscan
  cases hscan with
  | none => exact .error
  | @some a b hname =>
    obtain ⟨path, n⟩ := a
    obtain ⟨path', n'⟩ := b
    obtain ⟨hpath, rfl⟩ := hname
    exact .ok ⟨hattrs, hpath, shell_agree hpath (hr.drop n)⟩

/-! ### Entries -/

theorem startsChild_eq_of_alike (sort : WidgetSort) (h : Alike ts ts') :
    startsChild sort ts = startsChild sort ts' := by
  have hmark := h.head?_any (p := (·.isPunctOf "#")) fun ht => ht.isPunctOf_eq "#"
  rw [startsChild.eq_def, startsChild.eq_def sort, hmark]
  have hscan := QualifiedName.scanWidget?_same h
  generalize QualifiedName.scanWidget? ts = o, QualifiedName.scanWidget? ts' = o' at hscan
  cases hscan with
  | none => rfl
  | @some a b hname =>
    obtain ⟨path, n⟩ := a
    obtain ⟨path', n'⟩ := b
    obtain ⟨-, rfl⟩ := hname
    cases sort with
    | toolkit => rfl
    | composed =>
      dsimp only
      rw [(h.drop n).head?_any (p := (·.isGroupOf .brace)) fun ht => ht.isGroupOf_eq .brace]

end Parse

/-- Entries that are written the same. -/
inductive Entry.Same : Entry → Entry → Prop where
  | child {v w : View} (h : Document.ofView v = Document.ofView w) :
      Entry.Same (.child v) (.child w)
  | property {name : String} {e e' : Expr} (h : e.Same e') :
      Entry.Same (.property name e) (.property name e')
  | childProperties {es es' : List (String × Expr)} (h : SamePairs es es') :
      Entry.Same (.childProperties es) (.childProperties es')
  | event {signal : String} {e e' : Event} (h : e.Same e') :
      Entry.Same (.event signal e) (.event signal e')

namespace Parse

variable {stop stop' : Nat × Nat} {ts ts' : List Token}

theorem plainEntry_agree (stop stop' place place' : Nat × Nat) (sort : WidgetSort) (name : String)
    (h : Alike ts ts') :
    Agree (Reads Entry.Same) (plainEntry stop sort name place ts)
      (plainEntry stop' sort name place' ts') := by
  cases h with
  | nil => exact .error
  | @cons t t' us us' ht htouch hs =>
    rw [plainEntry.eq_def, plainEntry.eq_def stop']
    dsimp only
    rw [ht.isPunctOf_eq, ht.isPunctOf_eq, ht.isGroupOf_eq]
    split
    · have hproperty : Agree (Reads Entry.Same)
          ((value stop (.value name) us).map fun r => (Entry.property name r.1, r.2))
          ((value stop' (.value name) us').map fun r => (Entry.property name r.1, r.2)) :=
        (value_agree stop stop' hs (.value name)).map fun _ _ hr => ⟨.property hr.1, hr.2⟩
      cases hs with
      | nil => exact hproperty
      | cons hu _ hs =>
        cases hu with
        | leaf => exact hproperty
        | @group d cs cs' s s' hcs =>
          cases d with
          | paren => exact hproperty
          | bracket => exact hproperty
          | brace => exact (childProperties_agree hcs).map fun _ _ hes => ⟨.childProperties hes, hs⟩
    · split
      · exact (event_agree stop stop' place place' sort name (.cons ht htouch hs)).map
          fun _ _ hr => ⟨.event hr.1, hr.2⟩
      · exact .error

end Parse

/-! ### Bodies and widgets -/

namespace Table

variable {κ α β : Type} [DecidableEq κ]

theorem map_place (f : α → β) (k : κ) (v : α) (l : List (κ × α)) :
    (place k v l).map (fun e => (e.1, f e.2)) = place k (f v) (l.map fun e => (e.1, f e.2)) := by
  induction l with
  | nil => rfl
  | cons e l ih =>
    rw [place, List.map_cons, place]
    split
    · rfl
    · rw [List.map_cons, ih]

end Table

namespace Document

theorem ofProperties_insert (t : Table String Expr) (name : String) (e : Expr) :
    ofProperties (t.insert name e) = Table.place name (ofExpr e) (ofProperties t) :=
  Table.map_place ofExpr name e t.entries

/-- Of tables that are written the same, one remains so with pairs that are written the same. -/
theorem ofProperties_insertAll {t t' : Table String Expr} {es es' : List (String × Expr)}
    (h : ofProperties t = ofProperties t') (hes : SamePairs es es') :
    ofProperties (t.insertAll es) = ofProperties (t'.insertAll es') := by
  induction es generalizing t t' es' with
  | nil =>
    obtain rfl : es' = [] := List.map_eq_nil_iff.mp hes.symm
    exact h
  | cons e es ih =>
    cases es' with
    | nil => cases hes
    | cons e' es' =>
      obtain ⟨hhead, htail⟩ := List.cons.inj hes
      obtain ⟨hname, hexpr⟩ := Prod.mk.inj hhead
      have hinsert : ofProperties (t.insert e.1 e.2) = ofProperties (t'.insert e'.1 e'.2) := by
        rw [ofProperties_insert, ofProperties_insert, h, hname, hexpr]
      change ofProperties ((t.insert e.1 e.2).insertAll es) =
        ofProperties ((t'.insert e'.1 e'.2).insertAll es')
      exact ih hinsert htail

theorem ofEvents_insert (events : Table String Event) (save : Bool) (signal : String) (e : Event) :
    ofEvents (.toolkit (events.insert signal e) save) =
      Table.place signal (ofEvent e) (ofEvents (.toolkit events save)) :=
  Table.map_place ofEvent signal e events.entries

theorem ofEvents_insert_handlers (events : Table String (List Event)) (signal : String)
    (handlers : List Event) :
    ofEvents (.composed (events.insert signal handlers)) =
      Table.place signal (.list (handlers.map ofEvent)) (ofEvents (.composed events)) :=
  Table.map_place (fun handlers : List Event => Document.list (handlers.map ofEvent)) signal
    handlers events.entries

/-- The handlers of a signal are written the same in tables that are. -/
theorem handlers_of_ofEvents {events events' : Table String (List Event)}
    (h : ofEvents (.composed events) = ofEvents (.composed events')) (signal : String) :
    ((events.get? signal).getD []).map ofEvent = ((events'.get? signal).getD []).map ofEvent := by
  have hlookup : ∀ t : Table String (List Event), Table.lookup signal (ofEvents (.composed t)) =
      (t.get? signal).map fun handlers => .list (handlers.map ofEvent) := fun t =>
    Table.lookup_map (fun handlers : List Event => Document.list (handlers.map ofEvent))
      signal t.entries
  have hsame := (hlookup events).symm.trans (h ▸ hlookup events')
  cases ho : events.get? signal with
  | none =>
    cases ho' : events'.get? signal with
    | none => rfl
    | some handlers' => simp [ho, ho'] at hsame
  | some handlers =>
    cases ho' : events'.get? signal with
    | none => simp [ho, ho'] at hsame
    | some handlers' => simpa [ho, ho'] using hsame

theorem ofViews_append (vs ws : List View) : ofViews (vs ++ ws) = ofViews vs ++ ofViews ws := by
  induction vs with
  | nil => rfl
  | cons v vs ih => rw [List.cons_append, ofViews, ofViews, ih, List.cons_append]

end Document

/-- Widgets of one sort whose events are written the same. -/
inductive WidgetKind.Same : WidgetKind → WidgetKind → Prop where
  | toolkit {events events' : Table String Event} {save : Bool}
      (h : Document.ofEvents (.toolkit events save) = Document.ofEvents (.toolkit events' save)) :
      WidgetKind.Same (.toolkit events save) (.toolkit events' save)
  | composed {events events' : Table String (List Event)}
      (h : Document.ofEvents (.composed events) = Document.ofEvents (.composed events')) :
      WidgetKind.Same (.composed events) (.composed events')

theorem WidgetKind.Same.ofKind_eq {k k' : WidgetKind} (h : k.Same k') :
    Document.ofKind k = Document.ofKind k' := by
  cases h <;> rfl

theorem WidgetKind.Same.ofEvents_eq {k k' : WidgetKind} (h : k.Same k') :
    Document.ofEvents k = Document.ofEvents k' := by
  cases h with
  | toolkit h => exact h
  | composed h => exact h

theorem WidgetKind.Same.addEvent {k k' : WidgetKind} (h : k.Same k') (signal : String)
    {e e' : Event} (he : e.Same e') :
    (Body.addEvent k signal e).Same (Body.addEvent k' signal e') := by
  have he' : Document.ofEvent e = Document.ofEvent e' := he
  cases h with
  | toolkit h =>
    refine .toolkit ?_
    rw [Document.ofEvents_insert, Document.ofEvents_insert, h, he']
  | composed h =>
    refine .composed ?_
    rw [Table.update, Table.update, Document.ofEvents_insert_handlers,
      Document.ofEvents_insert_handlers,
      List.map_append, List.map_append, Document.handlers_of_ofEvents h, h]
    simp [he']

/-- Bodies that are written the same. -/
structure Body.Same (b b' : Body) : Prop where
  kind : b.kind.Same b'.kind
  properties : Document.ofProperties b.properties = Document.ofProperties b'.properties
  childProperties : Document.ofProperties b.childProperties =
    Document.ofProperties b'.childProperties
  children : Document.ofViews b.children = Document.ofViews b'.children

namespace Body.Same

variable {b b' : Body}

theorem start (sort : WidgetSort) (save : Bool) :
    (Body.start sort save).Same (Body.start sort save) := by
  cases sort with
  | toolkit => exact ⟨.toolkit rfl, rfl, rfl, rfl⟩
  | composed => exact ⟨.composed rfl, rfl, rfl, rfl⟩

theorem add (h : b.Same b') {e e' : Entry} (he : e.Same e') : (b.add e).Same (b'.add e') := by
  cases he with
  | child hv =>
    refine { h with children := ?_ }
    rw [Body.add, Body.add, Document.ofViews_append, Document.ofViews_append, h.children,
      Document.ofViews, hv, Document.ofViews]
    rfl
  | property he =>
    refine { h with properties := ?_ }
    rw [Body.add, Body.add, Document.ofProperties_insert, Document.ofProperties_insert,
      h.properties, he.document]
  | childProperties hes =>
    exact { h with childProperties := Document.ofProperties_insertAll h.childProperties hes }
  | event he => exact { h with kind := h.kind.addEvent _ he }

theorem addAll {es es' : List Entry} (h : b.Same b') (hes : List.Forall₂ Entry.Same es es') :
    (b.addAll es).Same (b'.addAll es') := by
  induction hes generalizing b b' with
  | nil => exact h
  | cons he _ ih => exact ih (h.add he)

end Body.Same

namespace Parse

/-- Declarations that differ in positions only make widgets that are written the same, under the
same name and with the same parent. -/
theorem Declaration.Same.view {d d' : Declaration} (h : d.Same d') (generated : String)
    {init init' : List Expr} (hinit : SameTexts init init') {es es' : List Entry}
    (hes : List.Forall₂ Entry.Same es es') :
    Document.ofView (d.view generated init es) = Document.ofView (d'.view generated init' es') ∧
      (d.view generated init es).value.name = (d'.view generated init' es').value.name ∧
      (d.view generated init es).value.parent = (d'.view generated init' es').value.parent := by
  have hvalue : ∀ name, d.valueOf name = d'.valueOf name := fun name => by
    rw [valueOf, valueOf, h.attributes]
  have hbody := (Body.Same.start d'.path.sort (d'.valueOf "name").isSome).addAll hes
  simp only [Declaration.view, h.attributes, hvalue, h.path.sort_eq, Document.ofView, Tree.value,
    Document.widgetFields, h.path.text_eq, hinit.documents, hbody.kind.ofKind_eq,
    hbody.kind.ofEvents_eq, hbody.properties, hbody.childProperties, hbody.children, and_true]

/-! ### Views -/

theorem drawName_eq_of_same {path path' : WidgetPath} (h : path.Same path') :
    drawName path = drawName path' := by
  obtain ⟨line, column, rfl⟩ := h
  rfl

theorem noteParent_congr {w w' : Widget} (hname : w.name = w'.name)
    (hparent : w.parent = w'.parent) : noteParent w = noteParent w' := by
  rw [noteParent, noteParent, hname, hparent]

mutual

theorem declared_agree (d d' : Declaration) (h : d.Same d') :
    Step.Agree Eq (fun v w => Document.ofView v = Document.ofView w) (declared d)
      (declared d') := by
  rw [declared, declared, drawName_eq_of_same h.path]
  -- the stem of a path has no position in it, so the same name is drawn
  refine (Step.agree_refl _).bind ?_
  rintro name _ rfl
  refine (Step.agree_ofExcept h.shell).bind fun sh sh' hsh => ?_
  rw [h.path.sort_eq]
  refine (entries_agree d'.path.sort sh.bodyStop sh'.bodyStop d.body d'.body h.body).bind
    fun es es' hes => ?_
  obtain ⟨hview, hname, hparent⟩ := h.view name hsh.init hes
  dsimp only
  rw [noteParent_congr hname hparent]
  refine (Step.agree_refl _).bind fun _ _ _ => ?_
  exact Step.agree_pure hview
termination_by 2 * sizeOf d.body + 1

theorem entries_agree (sort : WidgetSort) (stop stop' : Nat × Nat) (ts ts' : List Token)
    (h : Alike ts ts') :
    Step.Agree Eq (List.Forall₂ Entry.Same) (entries sort stop ts) (entries sort stop' ts') := by
  cases h with
  | nil =>
    rw [entries, entries]
    exact Step.agree_pure .nil
  | @cons t t' us us' ht htouch hs =>
    have hstarts := startsChild_eq_of_alike sort (.cons ht htouch hs)
    cases hc : startsChild sort (t' :: us') with
    | true =>
      rw [entries_child hc, entries_child (hstarts.trans hc)]
      rcases (declaration_agree stop stop' (.cons ht htouch hs)).cases with ⟨e, e', he, he'⟩ |
        ⟨d, d', hd, hd', hsame⟩
      · rw [he, he']
        exact Step.agree_throw _ _
      · rw [hd, hd']
        refine (declared_agree d d' hsame).bind fun v w hv => ?_
        refine (entries_agree sort stop stop' _ _ hsame.rest.skipComma).bind fun es es' hes => ?_
        exact Step.agree_pure (.cons (.child hv) hes)
    | false =>
      rw [entries_plain hc, entries_plain (hstarts.trans hc), ht.ident?_eq]
      cases t'.ident? with
      | none => exact Step.agree_throw _ _
      | some name =>
        dsimp only
        rcases
          (plainEntry_agree stop stop' t.span.position t'.span.position sort name hs).cases with
          ⟨e, e', he, he'⟩ | ⟨⟨entry, rest⟩, ⟨entry', rest'⟩, he, he', hentry, hrest⟩
        · rw [he, he']
          exact Step.agree_throw _ _
        · rw [he, he']
          refine (entries_agree sort stop stop' _ _ hrest.skipComma).bind fun es es' hes => ?_
          exact Step.agree_pure (.cons hentry hes)
termination_by 2 * sizeOf ts
decreasing_by
  · have := plainEntry_skipComma_within he t
    omega
  · have := (declaration_skipComma_within hd).1
    omega
  · have := (declaration_skipComma_within hd).2
    omega

end

theorem root_agree (h : Alike ts ts') :
    Step.Agree Eq (fun v w => Document.ofView v = Document.ofView w) (root ts) (root ts') := by
  rw [root, root]
  refine (declaration_agree (endOf ts) (endOf ts') h).elim (fun _ _ => Step.agree_throw _ _) ?_
  intro d d' hsame
  refine (declared_agree d d' hsame).bind fun v w hv => ?_
  have hrest := hsame.rest.skipComma
  generalize skipComma d.rest = r, skipComma d'.rest = r' at hrest
  cases hrest with
  | nil => exact Step.agree_pure hv
  | cons _ _ _ => exact Step.agree_throw _ _

end Parse

/-! ### Sources -/

/-- Both sources are refused as views, or both have a view and the two are written the same. The
names drawn are the same, too. -/
inductive SameOutcome : Except Failure View × Session → Except Failure View × Session → Prop where
  | refused {e e' : ParseError} {st : Session} :
      SameOutcome (.error (.parse e), st) (.error (.parse e'), st)
  | read {v w : View} {st : Session} (h : Document.ofView v = Document.ofView w) :
      SameOutcome (.ok v, st) (.ok w, st)

theorem Alike.fileName?_eq_none {ts ts' : List Token} (h : Alike ts ts')
    (hs : Source.fileName? ts = none) : Source.fileName? ts' = none := by
  cases h with
  | nil => rfl
  | cons ht _ _ => simpa [Source.fileName?, ht.string?_eq] using hs

theorem Source.follow_of_fileName? {ts : List Token} (hs : fileName? ts = none) (fs : FileSystem)
    (base : Pathname) : follow fs base ts = .ok ts := by
  rw [follow, hs]

theorem sameOutcome_of_alike {source source' : List Char} {ts ts' : List Token}
    (h : tokenize source = .ok ts) (h' : tokenize source' = .ok ts') (halike : Alike ts ts')
    (hs : Source.fileName? ts = none) (fs : FileSystem) (base : Pathname) (st : Session) :
    SameOutcome (Source.viewOfText fs base source st) (Source.viewOfText fs base source' st) := by
  simp only [Source.viewOfText, h, h', Source.view, Source.follow_of_fileName? hs,
    Source.follow_of_fileName? (halike.fileName?_eq_none hs)]
  have hroot := Parse.root_agree halike st st rfl
  generalize Parse.root ts st = r, Parse.root ts' st = r' at hroot
  cases hroot with
  | error hst =>
    subst hst
    exact .refused
  | ok hst h =>
    subst hst
    exact .read h

/-- Reformatting does not change a view: sources whose tokens are alike are refused together, or
have views that are written the same. So a view can be read from the text of its own tokens. -/
theorem viewOfText_reformatted {source source' : List Char} {ts ts' : List Token}
    (h : tokenize source = .ok ts) (h' : tokenize source' = .ok ts') (halike : Alike ts ts')
    (hs : Source.fileName? ts = none) (fs : FileSystem) (base : Pathname) (st : Session) :
    SameOutcome (Source.viewOfText fs base source st) (Source.viewOfText fs base source' st) ∧
      SameOutcome (Source.viewOfText fs base source st)
        (Source.viewOfText fs base (render ts) st) := by
  obtain ⟨again, hagain, hwritten⟩ := tokenize_render_self h
  exact ⟨sameOutcome_of_alike h h' halike hs fs base st,
    sameOutcome_of_alike h hagain hwritten hs fs base st⟩

/-- A tab, a comment and a space more or less make no difference. -/
theorem viewOfText_reformatted_sample :
    let source := "gtk::Box\t{ label:/*a*/1, }".toList
    let source' := "gtk::Box {label: 1,}".toList
    ∃ v w st, Source.viewOfText {} {} source {} = (.ok v, st) ∧
      Source.viewOfText {} {} source' {} = (.ok w, st) ∧
      Document.ofView v = Document.ofView w := by
  intro source source'
  obtain ⟨ts, h, hts⟩ : ∃ ts, tokenize source = .ok ts ∧
      decide (Source.fileName? ts = none ∧ render ts = source') = true :=
    exists_ok_of_any (by decide +kernel)
  obtain ⟨hs, htext⟩ := of_decide_eq_true hts
  obtain ⟨ts', h', halike⟩ := tokenize_render_self h
  rw [htext] at h'
  have hread : (Source.viewOfText {} {} source {}).1.toOption.isSome = true := by decide +kernel
  have hsame := (viewOfText_reformatted h h' halike hs {} {} {}).1
  generalize Source.viewOfText {} {} source {} = r at hread hsame
  generalize Source.viewOfText {} {} source' {} = r' at hsame
  cases hsame with
  | refused => cases hread
  | read hdocument => exact ⟨_, _, _, rfl, rfl, hdocument⟩

end WidgetView
