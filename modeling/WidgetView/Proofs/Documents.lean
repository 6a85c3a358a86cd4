import Mathlib
import WidgetView.Dump.Document

/-!
# Documents up to order

Documents that are the same up to the order of fields. A record is written as fields under keys that
are fixed beforehand, some of which may be left out; so two records of one sort are the same when
they are the same field by field, and one field that is left out is left out of both.
-/
namespace WidgetView

/-- The same keys, whatever their order, with related values under them. -/
def Table.Rel {α : Type} (R : α → α → Prop) (t t' : Table String α) : Prop :=
  ∀ key, Option.Rel R (t.get? key) (t'.get? key)

/-- The message that an effect sends. -/
def Effect.message : Effect → Expr
  | fire e | callReturn e | paired e _ => e

/-- The expression that a signal is answered with, if it is not the message. -/
def Effect.answer? : Effect → Option Expr
  | paired _ f => some f
  | _ => none

namespace Document

/-- The same document up to the order of fields: the same stands under every key. -/
inductive Same : Document → Document → Prop where
  | text (s : String) : Same (.text s) (.text s)
  | flag (b : Bool) : Same (.flag b) (.flag b)
  | list {xs ys : List Document} (h : List.Forall₂ Same xs ys) : Same (.list xs) (.list ys)
  | record {xs ys : List (String × Document)}
      (h : ∀ key, Option.Rel Same (Table.lookup key xs) (Table.lookup key ys)) :
      Same (.record xs) (.record ys)

def SameFields (xs ys : List (String × Document)) : Prop :=
  ∀ key, Option.Rel Same (Table.lookup key xs) (Table.lookup key ys)

@[simp] theorem same_text_iff {s s' : String} : Same (.text s) (.text s') ↔ s = s' := by
  constructor
  · rintro ⟨⟩
    rfl
  · rintro rfl
    exact .text s

@[simp] theorem same_list_iff {xs ys : List Document} :
    Same (.list xs) (.list ys) ↔ List.Forall₂ Same xs ys := by
  refine ⟨fun h => ?_, .list⟩
  cases h with
  | list h => exact h

@[simp] theorem same_record_iff {xs ys : List (String × Document)} :
    Same (.record xs) (.record ys) ↔ SameFields xs ys := by
  refine ⟨fun h => ?_, .record⟩
  cases h with
  | record h => exact h

/-! ### Optional parts -/

/-- Both are there and related, or neither is. -/
theorem rel_iff {α β : Type} {R : α → β → Prop} {a : Option α} {b : Option β} :
    Option.Rel R a b ↔ (a = none ↔ b = none) ∧ ∀ x ∈ a, ∀ y ∈ b, R x y := by
  rcases a with - | a <;> rcases b with - | b
  · simp
  · exact iff_of_false nofun (by simp)
  · exact iff_of_false nofun (by simp)
  · simp

theorem rel_map_iff {α β : Type} {R : β → β → Prop} {f : α → β} {a b : Option α} :
    Option.Rel R (a.map f) (b.map f) ↔ Option.Rel (fun x y => R (f x) (f y)) a b := by
  simp [rel_iff]

theorem same_map_text_iff {a b : Option String} :
    Option.Rel Same (a.map .text) (b.map .text) ↔ a = b := by
  rw [rel_map_iff]
  cases a <;> cases b <;> simp [rel_iff]

theorem rel_congr_mem {α : Type} {R S : α → α → Prop} {a b : Option α}
    (h : ∀ x ∈ a, ∀ y ∈ b, (R x y ↔ S x y)) : Option.Rel R a b ↔ Option.Rel S a b := by
  rw [rel_iff, rel_iff]
  exact and_congr_right fun _ => forall₂_congr fun x hx => forall₂_congr fun y hy => h x hx y hy

theorem forall₂_congr_mem {α : Type} {R S : α → α → Prop} {xs ys : List α}
    (h : ∀ x ∈ xs, ∀ y ∈ ys, (R x y ↔ S x y)) : List.Forall₂ R xs ys ↔ List.Forall₂ S xs ys := by
  induction xs generalizing ys with
  | nil => cases ys <;> simp
  | cons x xs ih =>
    cases ys with
    | nil => simp
    | cons y ys =>
      obtain ⟨hx, hxs⟩ := List.forall_mem_cons.mp h
      obtain ⟨hxy, hxys⟩ := List.forall_mem_cons.mp hx
      rw [List.forall₂_cons, List.forall₂_cons, hxy,
        ih fun x hx y hy => hxs x hx y (List.mem_cons_of_mem _ hy)]

/-- A list is left out if it is empty. -/
def items? (xs : List Document) : Option Document := if xs.isEmpty then none else some (.list xs)

/-- A record is left out if it is empty. -/
def fields? (xs : List (String × Document)) : Option Document :=
  if xs.isEmpty then none else some (.record xs)

theorem same_items?_iff {xs ys : List Document} :
    Option.Rel Same (items? xs) (items? ys) ↔ List.Forall₂ Same xs ys := by
  cases xs <;> cases ys <;> simp [items?, rel_iff]

theorem same_fields?_iff {xs ys : List (String × Document)} :
    Option.Rel Same (fields? xs) (fields? ys) ↔ SameFields xs ys := by
  rcases xs with - | ⟨x, xs⟩ <;> rcases ys with - | ⟨y, ys⟩
  · exact iff_of_true .none fun _ => .none
  · refine iff_of_false (fun h => by cases h) fun h => ?_
    have hkey := h y.1
    rw [Table.lookup, Table.lookup, if_pos rfl] at hkey
    cases hkey
  · refine iff_of_false (fun h => by cases h) fun h => ?_
    have hkey := h x.1
    rw [Table.lookup, Table.lookup, if_pos rfl] at hkey
    cases hkey
  · simp [fields?]

/-! ### Fields that may be left out -/

/-- The fields that are written. -/
def present (fields : List (String × Option Document)) : List (String × Document) :=
  fields.filterMap fun f => f.2.map fun d => (f.1, d)

theorem present_append (fs fs' : List (String × Option Document)) :
    present (fs ++ fs') = present fs ++ present fs' := List.filterMap_append

theorem lookup_present_eq_none {name : String} {fields : List (String × Option Document)}
    (h : name ∉ fields.map Prod.fst) : Table.lookup name (present fields) = none := by
  refine Table.lookup_eq_none fun hmem => h ?_
  obtain ⟨f, hf, rfl⟩ := List.mem_map.mp hmem
  obtain ⟨g, hg, hgf⟩ := List.mem_filterMap.mp hf
  obtain ⟨_, -, rfl⟩ := Option.map_eq_some_iff.mp hgf
  exact List.mem_map_of_mem hg

theorem lookup_present_cons (key : String) {name : String} (d : Option Document)
    {fields : List (String × Option Document)} (h : name ∉ fields.map Prod.fst) :
    Table.lookup key (present ((name, d) :: fields)) =
      if name = key then d else Table.lookup key (present fields) := by
  cases d with
  | none =>
    split
    · next heq =>
      subst heq
      change Table.lookup name (present fields) = none
      exact lookup_present_eq_none h
    · rfl
  | some d => rfl

/-- Records of the same fields are the same field by field. -/
theorem sameFields_present_iff {fs fs' : List (String × Option Document)}
    (hkeys : fs.map Prod.fst = fs'.map Prod.fst) (hnodup : (fs.map Prod.fst).Nodup) :
    SameFields (present fs) (present fs') ↔
      List.Forall₂ (Option.Rel Same) (fs.map Prod.snd) (fs'.map Prod.snd) := by
  induction fs generalizing fs' with
  | nil =>
    obtain rfl := List.map_eq_nil_iff.mp hkeys.symm
    exact iff_of_true (fun _ => .none) .nil
  | cons f fs ih =>
    obtain ⟨name, d⟩ := f
    obtain ⟨⟨name', d'⟩, fs', rfl, hname, hfs'⟩ := List.map_eq_cons_iff.mp hkeys.symm
    obtain rfl : name' = name := hname
    obtain ⟨hnew, hnodup⟩ := List.nodup_cons.mp hnodup
    have hnew' : name' ∉ fs'.map Prod.fst := hfs' ▸ hnew
    rw [List.map_cons, List.map_cons, List.forall₂_cons, ← ih hfs'.symm hnodup]
    have hlookup : ∀ key, Option.Rel Same (Table.lookup key (present ((name', d) :: fs)))
          (Table.lookup key (present ((name', d') :: fs'))) ↔
        if name' = key then Option.Rel Same d d'
        else Option.Rel Same (Table.lookup key (present fs)) (Table.lookup key (present fs')) := by
      intro key
      rw [lookup_present_cons key d hnew, lookup_present_cons key d' hnew']
      split <;> rfl
    constructor
    · intro h
      refine ⟨by simpa using (hlookup name').mp (h name'), fun key => ?_⟩
      by_cases hkey : name' = key
      · rw [← hkey, lookup_present_eq_none hnew, lookup_present_eq_none hnew']
        exact .none
      · simpa [hkey] using (hlookup key).mp (h key)
    · rintro ⟨hd, hrest⟩ key
      refine (hlookup key).mpr ?_
      split
      · exact hd
      · exact hrest key

/-! ### The records of a view -/

/-- The text that tells the effects apart. -/
def effectText : Effect → String
  | .fire _ => "fire"
  | .callReturn _ => "call_return"
  | .paired _ _ => "return"

theorem ofEffect_eq (f : Effect) :
    ofEffect f =
      .record (present [("kind", some (.text (effectText f))), ("message", some (ofExpr f.message)),
      ("return", f.answer?.map ofExpr)]) := by
  cases f <;> rfl

theorem ofEvent_eq (e : Event) :
    ofEvent e =
      .record (present [("params", some (.list (e.params.map .text))), ("with", e.model.map .text),
      ("target", (e.target.map Target.name).map .text), ("effect", some (ofEffect e.effect))]) := by
  rw [ofEvent]
  cases e.model <;> cases e.target <;> rfl

/-- The text that tells the two kinds of widgets apart. -/
def kindText : WidgetKind → String
  | .toolkit _ _ => "toolkit"
  | .composed _ => "composed"

/-- The mark of a toolkit widget that was given a name. -/
def saveMark : WidgetKind → Option Document
  | .toolkit _ true => some (.flag true)
  | _ => none

theorem ofView_eq (w : Widget) (vs : List View) :
    ofView (.node w vs) =
      .record (present [("name", some (.text w.name)), ("type", some (.text w.path.text)),
      ("kind", some (.text (kindText w.kind))), ("save", saveMark w.kind),
      ("init", items? (w.init.map ofExpr)), ("properties", fields? (ofProperties w.properties)),
      ("child_properties", fields? (ofProperties w.childProperties)),
      ("events", fields? (ofEvents w.kind)),
      ("container", w.container.map ofContainer), ("parent", w.parent.map .text),
      ("children", items? (ofViews vs))]) := by
  have hfirst : [("name", Document.text w.name), ("type", .text w.path.text)] =
      present [("name", some (.text w.name)), ("type", some (.text w.path.text))] := rfl
  have hkind : ofKind w.kind =
      present [("kind", some (.text (kindText w.kind))), ("save", saveMark w.kind)] := by
    rcases w.kind with ⟨_, _ | _⟩ | _ <;> rfl
  have hlist : ∀ name xs, listField name xs = present [(name, items? xs)] := by
    intro name xs
    cases xs <;> rfl
  have hrecord : ∀ name xs, recordField name xs = present [(name, fields? xs)] := by
    intro name xs
    cases xs <;> rfl
  have hoption : ∀ {α : Type} (name : String) (f : α → Document) (a : Option α),
      (a.map fun x => (name, f x)).toList = present [(name, a.map f)] := by
    intro α name f a
    cases a <;> rfl
  rw [ofView, widgetFields, hfirst, hkind, hlist, hlist, hrecord, hrecord, hrecord,
    hoption, hoption]
  simp only [← present_append]
  rfl

end Document

end WidgetView
