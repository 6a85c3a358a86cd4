import WidgetView.Proofs.Declarations

/-!
# What a body means

What a body means. The entries of a body are of four sorts, and every sort adds up on its own,
however the sorts are mixed: properties, child properties and the signals of a toolkit widget keep
the last value bound to a key, the signals of a composed widget keep every handler, and children
stand as they are written. Keys are listed as they first appear.
-/
namespace WidgetView

namespace Table

variable {κ α β : Type} [DecidableEq κ]

/-- The values bound to a key, in order. -/
def boundTo (k : κ) (bs : List (κ × α)) : List α := (bs.filter fun b => b.1 = k).map Prod.snd

/-- The keys of bindings as they first appear. -/
def keysOf (bs : List (κ × α)) : List κ := (bs.map Prod.fst).eraseDups

theorem boundTo_concat (k : κ) (bs : List (κ × α)) (b : κ × α) :
    boundTo k (bs ++ [b]) = boundTo k bs ++ if b.1 = k then [b.2] else [] := by
  by_cases h : b.1 = k <;> simp [boundTo, h]

theorem keysOf_concat (bs : List (κ × α)) (b : κ × α) :
    keysOf (bs ++ [b]) = if b.1 ∈ keysOf bs then keysOf bs else keysOf bs ++ [b.1] := by
  rw [keysOf, List.map_append, List.eraseDups_append]
  by_cases h : b.1 ∈ bs.map Prod.fst
  · have hmem : b.1 ∈ keysOf bs := List.mem_eraseDups.mpr h
    rw [if_pos hmem]
    simp [keysOf, List.removeAll, h]
  · have hmem : b.1 ∉ keysOf bs := fun hk => h (List.mem_eraseDups.mp hk)
    rw [if_neg hmem]
    simp [keysOf, List.removeAll, h, List.eraseDups_cons]

/-- What a table makes of bindings: it lists each bound key once, by first appearance, with what is
picked from the values bound to it. -/
structure Records (pick : List α → Option β) (t : Table κ β) (bs : List (κ × α)) : Prop where
  keys : t.keys = keysOf bs
  once : t.keys.Nodup
  value : ∀ k, t.get? k = pick (boundTo k bs)

/-- One more binding, whose key gets what is picked now. -/
theorem Records.insert {pick : List α → Option β} {t : Table κ β} {bs : List (κ × α)}
    (h : Records pick t bs) {b : κ × α} {v : β} (hv : pick (boundTo b.1 bs ++ [b.2]) = some v) :
    Records pick (t.insert b.1 v) (bs ++ [b]) := by
  refine ⟨?_, ?_, fun k => ?_⟩
  · rw [keys_insert, keysOf_concat, h.keys]
  · rw [keys_insert]
    split
    · exact h.once
    · next hk => exact List.concat_eq_append ▸ h.once.concat hk
  · rw [boundTo_concat]
    by_cases hk : b.1 = k
    · subst hk
      rw [get?_insert_same, if_pos rfl, hv]
    · rw [get?_insert_other _ _ _ _ fun heq => hk heq.symm, if_neg hk, List.append_nil, h.value]

/-- A table that takes in bindings one after another records them, if one step does. -/
theorem Records.foldl {pick : List α → Option β} {step : Table κ β → κ × α → Table κ β}
    (hnil : pick [] = none)
    (hstep : ∀ t bs b, Records pick t bs → Records pick (step t b) (bs ++ [b]))
    (bs : List (κ × α)) :
    Records pick (bs.foldl step empty) bs := by
  induction bs using List.reverseRecOn with
  | nil => exact ⟨rfl, List.nodup_nil, fun k => hnil.symm⟩
  | append_singleton bs b ih =>
    rw [List.foldl_append]
    exact hstep _ bs b ih

/-- Every key keeps the value bound to it last. -/
abbrev KeepsLast (t : Table κ α) (bs : List (κ × α)) : Prop := Records List.getLast? t bs

/-- All of some values, if there are any. -/
def allOf : List α → Option (List α)
  | [] => none
  | v :: vs => some (v :: vs)

/-- Every key keeps all values bound to it, in order. -/
abbrev Collects (t : Table κ (List α)) (bs : List (κ × α)) : Prop := Records allOf t bs

theorem getD_allOf (vs : List α) : (allOf vs).getD [] = vs := by
  cases vs <;> rfl

theorem keepsLast_insertAll (bs : List (κ × α)) : (empty.insertAll bs).KeepsLast bs :=
  Records.foldl rfl (fun _ _ _ h => h.insert List.getLast?_concat) bs

/-- Adding each value at the end of those before it collects them. -/
theorem collects_updates (bs : List (κ × α)) :
    (bs.foldl (fun t b => t.update b.1 [] (· ++ [b.2])) empty).Collects bs := by
  refine Records.foldl rfl (fun t bs b h => h.insert ?_) bs
  rw [h.value, getD_allOf]
  cases boundTo b.1 bs <;> rfl

/-- A table without repeated keys is its keys with what is looked up under them. -/
theorem entries_eq_of_nodup {t : Table κ β} (h : t.keys.Nodup) :
    t.entries = t.keys.flatMap fun k => (t.get? k).toList.map fun v => (k, v) := by
  obtain ⟨l⟩ := t
  simp only [keys, get?] at h ⊢
  induction l with
  | nil => rfl
  | cons e l ih =>
    obtain ⟨hnew, hl⟩ := List.nodup_cons.mp h
    have hrest : ∀ k ∈ l.map Prod.fst, lookup k (e :: l) = lookup k l := by
      intro k hk
      rw [lookup, if_neg fun heq : e.1 = k => hnew (heq ▸ hk)]
    rw [List.map_cons, List.flatMap_cons, lookup, if_pos rfl]
    conv_lhs => rw [ih hl]
    refine congrArg (e :: ·) (List.flatMap_congr fun k hk => ?_)
    rw [hrest k hk]

theorem Records.entries {pick : List α → Option β} {t : Table κ β} {bs : List (κ × α)}
    (h : Records pick t bs) :
    t.entries = (keysOf bs).flatMap fun k => (pick (boundTo k bs)).toList.map fun v => (k, v) := by
  rw [entries_eq_of_nodup h.once, h.keys]
  simp only [h.value]

end Table

/-- The four sorts of entries. -/
inductive EntrySort where
  | child
  | property
  | childProperties
  | event
  deriving DecidableEq

namespace Entry

def sort : Entry → EntrySort
  | child _ => .child
  | property _ _ => .property
  | childProperties _ => .childProperties
  | event _ _ => .event

def property? : Entry → Option (String × Expr)
  | property name value => some (name, value)
  | _ => none

/-- The child properties of an entry: those of its group, in order. -/
def childValues : Entry → List (String × Expr)
  | childProperties values => values
  | _ => []

def event? : Entry → Option (String × Event)
  | event signal e => some (signal, e)
  | _ => none

theorem child?_of_sort {e : Entry} (h : e.sort ≠ .child) : e.child? = none := by
  cases e with
  | child v => exact absurd rfl h
  | _ => rfl

theorem property?_of_sort {e : Entry} (h : e.sort ≠ .property) : e.property? = none := by
  cases e with
  | property name value => exact absurd rfl h
  | _ => rfl

theorem childValues_of_sort {e : Entry} (h : e.sort ≠ .childProperties) : e.childValues = [] := by
  cases e with
  | childProperties values => exact absurd rfl h
  | _ => rfl

theorem event?_of_sort {e : Entry} (h : e.sort ≠ .event) : e.event? = none := by
  cases e with
  | event signal e => exact absurd rfl h
  | _ => rfl

end Entry

namespace Body

/-- An entry adds to the part of its sort and leaves the other parts alone. -/
theorem add_eq (b : Body) (e : Entry) :
    b.add e =
      { kind := e.event?.toList.foldl (fun k e => addEvent k e.1 e.2) b.kind
        properties := b.properties.insertAll e.property?.toList
        childProperties := b.childProperties.insertAll e.childValues
        children := b.children ++ e.child?.toList } := by
  cases e <;>
    simp [add, Entry.event?, Entry.property?, Entry.childValues, Entry.child?, Table.insertAll]

/-- The parts of a body are folds of their own. -/
theorem addAll_eq (b : Body) (es : List Entry) :
    b.addAll es =
      { kind := (es.filterMap Entry.event?).foldl (fun k e => addEvent k e.1 e.2) b.kind
        properties := b.properties.insertAll (es.filterMap Entry.property?)
        childProperties := b.childProperties.insertAll (es.flatMap Entry.childValues)
        children := b.children ++ es.filterMap Entry.child? } := by
  induction es generalizing b with
  | nil => simp [Table.insertAll]
  | cons e es ih =>
    rw [addAll_cons, ih, add_eq]
    cases he : e.event? <;> cases hp : e.property? <;> cases hc : e.child? <;>
      simp [he, hp, hc, Table.insertAll, List.foldl_append]

/-- The handlers of a toolkit widget are put in one after another. -/
theorem foldl_addEvent_toolkit (t : Table String Event) (save : Bool) (bs : List (String × Event)) :
    bs.foldl (fun k e => addEvent k e.1 e.2) (.toolkit t save) =
      .toolkit (t.insertAll bs) save := by
  induction bs generalizing t with
  | nil => rfl
  | cons b bs ih => exact ih (t.insert b.1 b.2)

/-- The handlers of a composed widget are put behind those of the same signal. -/
theorem foldl_addEvent_composed (t : Table String (List Event)) (bs : List (String × Event)) :
    bs.foldl (fun k e => addEvent k e.1 e.2) (.composed t) =
      .composed (bs.foldl (fun t b => t.update b.1 [] (· ++ [b.2])) t) := by
  induction bs generalizing t with
  | nil => rfl
  | cons b bs ih => exact ih (t.update b.1 [] (· ++ [b.2]))

end Body

/-- The handlers of a widget record what is bound to its signals: a toolkit widget the last binding,
a composed widget all of them. -/
def WidgetKind.Records (k : WidgetKind) (bs : List (String × Event)) : Prop :=
  match k with
  | .toolkit events _ => events.KeepsLast bs
  | .composed events => events.Collects bs

/-- The handlers that a widget of a sort has for a signal. -/
def WidgetSort.handlers (sort : WidgetSort) (signal : String) (bs : List (String × Event)) :
    List Event :=
  match sort with
  | .toolkit => (Table.boundTo signal bs).getLast?.toList
  | .composed => Table.boundTo signal bs

/-- The meaning of a body for the widget that has it. -/
structure View.Means (v : View) (sort : WidgetSort) (es : List Entry) : Prop where
  kind : v.value.isToolkit = decide (sort = .toolkit)
  properties : v.value.properties.KeepsLast (es.filterMap Entry.property?)
  childProperties : v.value.childProperties.KeepsLast (es.flatMap Entry.childValues)
  children : v.children = es.filterMap Entry.child?
  handlers : v.value.kind.Records (es.filterMap Entry.event?)
  events : v.value.events =
    (Table.keysOf (es.filterMap Entry.event?)).flatMap fun signal =>
      (sort.handlers signal (es.filterMap Entry.event?)).map fun e => (signal, e)

theorem Widget.events_of_records {w : Widget} {sort : WidgetSort} {bs : List (String × Event)}
    (hsort : w.isToolkit = decide (sort = .toolkit)) (h : w.kind.Records bs) :
    w.events = (Table.keysOf bs).flatMap fun signal =>
      (sort.handlers signal bs).map fun e => (signal, e) := by
  unfold Widget.isToolkit at hsort
  unfold Widget.events
  cases hk : w.kind with
  | toolkit events save =>
    rw [hk] at h hsort
    obtain rfl : sort = .toolkit := of_decide_eq_true hsort.symm
    exact Table.Records.entries h
  | composed events =>
    rw [hk] at h hsort
    obtain rfl : sort = .composed := by
      cases sort with
      | toolkit => cases hsort
      | composed => rfl
    simp only [Table.Records.entries h, List.flatMap_assoc]
    refine List.flatMap_congr fun signal _ => ?_
    rw [WidgetSort.handlers]
    cases Table.boundTo signal bs <;> simp [Table.allOf]

namespace Parse

theorem Declaration.view_kind_records (d : Declaration) (g : String) (init : List Expr)
    (es : List Entry) :
    (d.view g init es).value.isToolkit = decide (d.path.sort = .toolkit) ∧
      (d.view g init es).value.kind.Records (es.filterMap Entry.event?) := by
  simp only [Declaration.view, Tree.value, Widget.isToolkit, Body.addAll_eq]
  cases d.path.sort with
  | toolkit =>
    simp only [Body.start, Body.foldl_addEvent_toolkit]
    exact ⟨rfl, Table.keepsLast_insertAll _⟩
  | composed =>
    simp only [Body.start, Body.foldl_addEvent_composed]
    exact ⟨rfl, Table.collects_updates _⟩

/-- The view of a declaration means the entries it is made from. -/
theorem Declaration.view_means (d : Declaration) (g : String) (init : List Expr) (es : List Entry) :
    (d.view g init es).Means d.path.sort es := by
  obtain ⟨hkind, hrec⟩ := d.view_kind_records g init es
  refine ⟨hkind, ?_, ?_, d.children_view g init es, hrec, Widget.events_of_records hkind hrec⟩
  · simp only [Declaration.view, Tree.value, Body.addAll_eq]
    cases d.path.sort <;> exact Table.keepsLast_insertAll _
  · simp only [Declaration.view, Tree.value, Body.addAll_eq]
    cases d.path.sort <;> exact Table.keepsLast_insertAll _

end Parse

/-- Two runs of entries that differ only in how entries of different sorts are mixed. -/
def Interleaved (es es' : List Entry) : Prop :=
  ∀ s : EntrySort, es.filter (fun e => e.sort = s) = es'.filter fun e => e.sort = s

theorem flatMap_of_sort {α : Type} {f : Entry → List α} {s : EntrySort}
    (hf : ∀ e, e.sort ≠ s → f e = []) (es : List Entry) :
    (es.filter fun e => e.sort = s).flatMap f = es.flatMap f := by
  induction es with
  | nil => rfl
  | cons e es ih =>
    by_cases he : e.sort = s
    · rw [List.filter_cons_of_pos (by simpa using he), List.flatMap_cons, List.flatMap_cons, ih]
    · rw [List.filter_cons_of_neg (by simpa using he), List.flatMap_cons, hf e he, ih]
      rfl

/-- What is taken from the entries of one sort does not see how the others are mixed in. -/
theorem Interleaved.flatMap_eq {α : Type} {f : Entry → List α} {es es' : List Entry}
    (h : Interleaved es es') (s : EntrySort) (hf : ∀ e, e.sort ≠ s → f e = []) :
    es.flatMap f = es'.flatMap f := by
  rw [← flatMap_of_sort hf es, h s, flatMap_of_sort hf es']

theorem Interleaved.filterMap_eq {α : Type} {f : Entry → Option α} {es es' : List Entry}
    (h : Interleaved es es') (s : EntrySort) (hf : ∀ e, e.sort ≠ s → f e = none) :
    es.filterMap f = es'.filterMap f := by
  rw [List.filterMap_eq_flatMap_toList, List.filterMap_eq_flatMap_toList]
  exact h.flatMap_eq s fun e he => by rw [hf e he]; rfl

theorem Interleaved.addAll_eq {es es' : List Entry} (h : Interleaved es es') (b : Body) :
    b.addAll es = b.addAll es' := by
  have hchild : es.filterMap Entry.child? = es'.filterMap Entry.child? :=
    h.filterMap_eq .child fun _ => Entry.child?_of_sort
  have hprop : es.filterMap Entry.property? = es'.filterMap Entry.property? :=
    h.filterMap_eq .property fun _ => Entry.property?_of_sort
  have hvalues : es.flatMap Entry.childValues = es'.flatMap Entry.childValues :=
    h.flatMap_eq .childProperties fun _ => Entry.childValues_of_sort
  have hevent : es.filterMap Entry.event? = es'.filterMap Entry.event? :=
    h.filterMap_eq .event fun _ => Entry.event?_of_sort
  rw [b.addAll_eq, b.addAll_eq, hchild, hprop, hvalues, hevent]

namespace Parse

/-- A body that is read means its entries, sort by sort, and would mean the same with its entries
mixed in any other way. -/
theorem declared_means {d : Declaration} {st st' : Session} {v : View}
    (h : declared d st = .ok v st') :
    ∃ shell es st₁, d.shell = .ok shell ∧
      entries d.path.sort shell.bodyStop d.body { st with names := (st.names.next d.path).2 } =
        .ok es st₁ ∧
      v.Means d.path.sort es ∧
      ∀ es', Interleaved es es' → d.view (st.names.next d.path).1 shell.init es' = v := by
  obtain ⟨shell, es, st₁, hs, he, rfl, -⟩ := declared_eq_ok h
  refine ⟨shell, es, st₁, hs, he, d.view_means _ _ es, fun es' hes => ?_⟩
  rw [Declaration.view, Declaration.view, hes.addAll_eq]

/-- A composed widget with a property between two handlers of one signal. It would be the same
widget with the property in front of them. -/
theorem declared_means_sample :
    let t (kind : Kind) (text : String) : Token := .leaf ⟨kind, text, ⟨1, 1, 0, 0⟩⟩
    let d : Declaration :=
      ⟨{}, ⟨["Counter"], none, 1, 1⟩, .ok ⟨[], [t .ident "A", t .punct "=>", t .ident "X",
      t .punct ",", t .ident "n", t .punct ":", t .ident "one", t .punct ",",
      t .ident "A", t .punct "=>", t .ident "Y"], (1, 1), []⟩⟩
    ∃ v st' first property second, declared d {} = .ok v st' ∧
      v.value.events.map (fun e => (e.1, e.2.effect.exprs.map Expr.text)) =
        [("A", ["X"]), ("A", ["Y"])] ∧
      v.Means .composed [first, property, second] ∧
      d.view "counter1" [] [property, first, second] = v := by
  intro t d
  have hread : (match declared d {} with
      | .ok v _ => decide (v.value.events.map (fun e => (e.1, e.2.effect.exprs.map Expr.text)) =
          [("A", ["X"]), ("A", ["Y"])])
      | .error _ _ => false) = true := by decide +kernel
  have hsorts :
      (match entries .composed (1, 1) d.body { names := (NameIndex.next {} d.path).2 } with
      | .ok es _ => decide (es.map Entry.sort = [.event, .property, .event])
      | .error _ _ => false) = true := by decide +kernel
  have hname : (NameIndex.next {} d.path).1 = "counter1" := by decide +kernel
  have hsort : d.path.sort = .composed := by decide +kernel
  cases h : declared d {} with
  | error e st' => simp [h] at hread
  | ok v st' =>
    rw [h] at hread
    have hevents := of_decide_eq_true hread
    obtain ⟨shell, es, st₁, hshell, hentries, hmeans, hmixed⟩ := declared_means h
    obtain rfl := Except.ok.inj hshell
    rw [hsort] at hentries hmeans
    have hes : es.map Entry.sort = [.event, .property, .event] := by
      rw [show entries .composed (1, 1) d.body { names := (NameIndex.next {} d.path).2 } =
        .ok es st₁ from
        hentries] at hsorts
      exact of_decide_eq_true hsorts
    obtain ⟨first, es, rfl, hfirst, hes⟩ := List.map_eq_cons_iff.mp hes
    obtain ⟨property, es, rfl, hproperty, hes⟩ := List.map_eq_cons_iff.mp hes
    obtain ⟨second, rfl, hsecond⟩ := List.map_eq_singleton_iff.mp hes
    have hinterleaved : Interleaved [first, property, second] [property, first, second] := by
      intro s
      cases s <;> simp [hfirst, hproperty, hsecond]
    have hsame := hmixed _ hinterleaved
    rw [hname] at hsame
    exact ⟨v, st', first, property, second, rfl, hevents, hmeans, hsame⟩

end Parse

end WidgetView
