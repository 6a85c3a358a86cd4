import WidgetView.Parse.Declaration
import WidgetView.Parse.Event

/-!
# Entries of a body

Entries of a widget body, and the widget that they add up to. A body is the fold of its entries: a
repeated property replaces the value before it, a repeated signal replaces the handler of a toolkit
widget and adds one more to a composed widget.
-/
namespace WidgetView

inductive Entry where
  | child (view : View)
  | property (name : String) (value : Expr)
  | childProperties (values : List (String × Expr))
  | event (signal : String) (event : Event)

def WidgetPath.sort (p : WidgetPath) : WidgetSort := if p.isToolkit then .toolkit else .composed

/-- What the entries of a body have added up to. -/
structure Body where
  kind : WidgetKind
  properties : Table String Expr := {}
  childProperties : Table String Expr := {}
  children : List View := []

namespace Body

def start (sort : WidgetSort) (save : Bool) : Body :=
  match sort with
  | .toolkit => { kind := .toolkit {} save }
  | .composed => { kind := .composed {} }

def addEvent (kind : WidgetKind) (signal : String) (e : Event) : WidgetKind :=
  match kind with
  | .toolkit events save => .toolkit (events.insert signal e) save
  | .composed events => .composed (events.update signal [] (· ++ [e]))

def add (b : Body) : Entry → Body
  | .child v => { b with children := b.children ++ [v] }
  | .property name e => { b with properties := b.properties.insert name e }
  | .childProperties es => { b with childProperties := b.childProperties.insertAll es }
  | .event signal e => { b with kind := addEvent b.kind signal e }

def addAll (b : Body) (entries : List Entry) : Body := entries.foldl add b

@[simp] theorem addAll_nil (b : Body) : b.addAll [] = b := rfl

@[simp] theorem addAll_cons (b : Body) (e : Entry) (es : List Entry) :
    b.addAll (e :: es) = (b.add e).addAll es := rfl

end Body

namespace Parse

/-- An attribute's value, if the attribute is there with a value. -/
def Declaration.valueOf (d : Declaration) (name : String) : Option String :=
  (d.attributes.get? name).join

/-- The widget of a declaration. `generated` is the name drawn for it: a composed widget is never
addressed and carries a low line before it. A name attribute replaces the drawn name. -/
def Declaration.view (d : Declaration) (generated : String) (init : List Expr)
    (entries : List Entry) : View :=
  let named := d.valueOf "name"
  let body := (Body.start d.path.sort named.isSome).addAll entries
  let drawn := match d.path.sort with
    | .toolkit => generated
    | .composed => "_" ++ generated
  .node
    { name := named.getD drawn
      path := d.path
      kind := body.kind
      init := init
      properties := body.properties
      childProperties := body.childProperties
      container := (d.attributes.get? "container").map Container.mk
      parent := d.valueOf "parent"
      line := d.path.line
      column := d.path.column }
    body.children

/-- Whether a nested widget begins here. In a composed body a name must be followed by a body in
braces, since a name with parentheses begins an event there. -/
def startsChild (sort : WidgetSort) (ts : List Token) : Bool :=
  (ts.head?.map (·.isPunctOf "#")).getD false ||
    match QualifiedName.scanWidget? ts, sort with
    | none, _ => false
    | some _, .toolkit => true
    | some (_, n), .composed => ((ts.drop n).head?.map (·.isGroupOf .brace)).getD false

/-- What must follow the name that an entry starts with. -/
def afterEntryName : WidgetSort → String → Wanted
  | .toolkit, name => .toolkitEntry name
  | .composed, name => .composedEntry name

/-- The rest of an entry that is no child and starts with a name that stood at `place`. -/
def plainEntry (stop : Nat × Nat) (sort : WidgetSort) (name : String) (place : Nat × Nat)
    (ts : List Token) : Except ParseError (Entry × List Token) :=
  match ts with
  | [] => .error (ParseError.expected stop [] (afterEntryName sort name))
  | t :: rest =>
    if t.isPunctOf ":" then
      match rest with
      | .group .brace cs s :: rest =>
        (Parse.childProperties s.position cs).map fun es => (.childProperties es, rest)
      | _ => (value stop (.value name) rest).map fun r => (.property name r.1, r.2)
    else if t.isGroupOf .paren || t.isPunctOf "=>" then
      (event stop sort name place (t :: rest)).map fun r => (.event name r.1, r.2)
    else .error (ParseError.expected stop (t :: rest) (afterEntryName sort name))

theorem plainEntry_suffix {stop : Nat × Nat} {sort : WidgetSort} {name : String}
    {place : Nat × Nat} {ts rest : List Token} {e : Entry}
    (h : plainEntry stop sort name place ts = .ok (e, rest)) : rest <:+ ts := by
  unfold plainEntry at h
  split at h
  · simp at h
  · next t r =>
    split at h
    · split at h
      · next cs s r' =>
        cases hc : Parse.childProperties s.position cs with
        | error e => simp [hc, Except.map] at h
        | ok es =>
          simp only [hc, Except.map, Except.ok.injEq, Prod.mk.injEq] at h
          rw [← h.2]
          exact (List.suffix_cons _ _).trans (List.suffix_cons _ _)
      · cases hv : value stop (.value name) r with
        | error e => simp [hv, Except.map] at h
        | ok v =>
          obtain ⟨e, r⟩ := v
          simp only [hv, Except.map, Except.ok.injEq, Prod.mk.injEq] at h
          rw [← h.2]
          exact (value_suffix hv).trans (List.suffix_cons _ _)
    · split at h
      · cases he : event stop sort name place (t :: r) with
        | error e => simp [he, Except.map] at h
        | ok v =>
          obtain ⟨e, r⟩ := v
          simp only [he, Except.map, Except.ok.injEq, Prod.mk.injEq] at h
          rw [← h.2]
          exact event_suffix he
      · simp at h

/-- A declaration leaves less behind it, and has less in its body, than it started with. -/
theorem declaration_skipComma_within {stop : Nat × Nat} {ts : List Token} {d : Declaration}
    (h : declaration stop ts = .ok d) :
    sizeOf d.body < sizeOf ts ∧ sizeOf (skipComma d.rest) < sizeOf ts := by
  obtain ⟨hbody, hrest⟩ := declaration_within h
  have := sizeOf_le_of_suffix (skipComma_suffix d.rest)
  omega

/-- An entry uses up at least the name that it starts with. -/
theorem plainEntry_skipComma_within {stop place : Nat × Nat} {sort : WidgetSort} {name : String}
    {ts rest : List Token} {e : Entry} (h : plainEntry stop sort name place ts = .ok (e, rest))
    (t : Token) : sizeOf (skipComma rest) < sizeOf (t :: ts) := by
  have := sizeOf_le_of_suffix (plainEntry_suffix h)
  have := sizeOf_le_of_suffix (skipComma_suffix rest)
  simp only [List.cons.sizeOf_spec]
  omega

end Parse

end WidgetView
