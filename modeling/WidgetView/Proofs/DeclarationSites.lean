import WidgetView.Proofs.Acceptance
import WidgetView.Proofs.Bodies

/-!
# Sites of declarations

Where the widgets of a view are declared. A site is what is written of a declaration: the attributes
in front of it, as they stand, and its path. The grammar says which sites a run of tokens has and in
which order, a widget before those in its body. Reading finds the same ones, and the value of an
attribute is the one that is written last.
-/
namespace WidgetView

/-- What an attribute says: the string after `=`, if it has one there. -/
def stringIn? : List Token → Option String
  | _ :: eq :: v :: _ => if eq.isPunctOf "=" then v.string? else none
  | _ => none

/-- A declaration as it is written: the contents of the brackets in front of it, and its path. -/
structure Site where
  attributes : List (List Token)
  path : WidgetPath

/-- What the last attribute of a name says. -/
def Site.valueOf (s : Site) (name : String) : Option String :=
  (s.attributes.filter fun a => a.head?.any fun t => t.isIdentOf name).getLast?.bind stringIn?

namespace Grammar

/-- Attributes with the contents of their brackets. -/
inductive Attributed : List Token → List (List Token) → List Token → Prop
  | nil {ts} : Attributed ts [] ts
  | cons {t u cs s ts as rest} (ht : t.isPunctOf "#") (hu : u.isIdent) (h : Attributed ts as rest) :
      Attributed (t :: .group .bracket (u :: cs) s :: ts) ((u :: cs) :: as) rest

/-- What stands after the name of a widget, with its body. Only a composed widget may have none. -/
inductive Bodied : WidgetSort → List Token → List Token → List Token → Prop
  | body {sort ts cs s rest} (h : Init ts (.group .brace cs s :: rest)) : Bodied sort ts cs rest
  | bare {ts rest} (h : Init ts rest) : Bodied .composed ts [] rest

/-- A declaration at the front of a run: its site, its body and what comes after it. -/
inductive Declared : List Token → Site → List Token → List Token → Prop
  | site {ts as ns path after body rest} (ha : Attributed ts as (ns ++ after)) (hn : Name ns path)
      (hf : Follow after) (hb : Bodied path.sort after body rest) : Declared ts ⟨as, path⟩ body rest

/-- The sites in a body, each before those in its own body. -/
inductive Sites : WidgetSort → List Token → List Site → Prop
  | nil {sort} : Sites sort [] []
  | child {sort ts site body rest more inner later} (hs : StartsChild sort ts)
      (hd : Declared ts site body rest) (hc : Comma rest more)
      (hin : Sites site.path.sort body inner)
      (hout : Sites sort more later) : Sites sort ts (site :: (inner ++ later))
  | plain {sort t ts rest more sites} (hs : ¬StartsChild sort (t :: ts)) (ht : t.isIdent)
      (h : Binding ts rest) (hc : Comma rest more) (hm : Sites sort more sites) :
      Sites sort (t :: ts) sites

/-- The sites of a view. -/
inductive ViewSites : List Token → List Site → Prop
  | view {ts site body rest inner} (hd : Declared ts site body rest) (hc : Comma rest [])
      (hin : Sites site.path.sort body inner) : ViewSites ts (site :: inner)

variable {ts rest body : List Token} {site : Site} {sites : List Site} {sort : WidgetSort}

/-! ### Every view has sites -/

theorem Attributes.attributed (h : Attributes ts rest) : ∃ as, Attributed ts as rest := by
  induction h with
  | nil => exact ⟨[], .nil⟩
  | cons ht hu _ ih =>
    obtain ⟨as, h⟩ := ih
    exact ⟨_, .cons ht hu h⟩

theorem Attributed.attributes {as : List (List Token)} (h : Attributed ts as rest) :
    Attributes ts rest := by
  induction h with
  | nil => exact .nil
  | cons ht hu _ ih => exact .cons ht hu ih

/-- A widget of the grammar has a site, and its body has sites. -/
theorem Child.exists_sites (h : Child ts rest) :
    ∃ site body inner, Declared ts site body rest ∧ Sites site.path.sort body inner := by
  refine @Child.rec
    (fun ts rest _ => ∃ site body inner, Declared ts site body rest ∧
      Sites site.path.sort body inner)
    (fun sort ts _ => ∃ sites, Sites sort ts sites) ?body ?bare ?nil ?child ?plain ts rest h
  case body =>
    rintro ts ns path after cs s rest ha hn hf hi _ ⟨inner, hin⟩
    obtain ⟨as, ha⟩ := ha.attributed
    exact ⟨⟨as, path⟩, cs, inner, .site ha hn hf (.body hi), hin⟩
  case bare =>
    intro ts ns path after rest ha hn hf hi hs
    obtain ⟨as, ha⟩ := ha.attributed
    exact ⟨⟨as, path⟩, [], [], .site ha hn hf (hs ▸ .bare hi), .nil⟩
  case nil => exact fun {sort} => ⟨[], .nil⟩
  case child =>
    rintro sort ts rest more hs _ hc _ ⟨site, body, inner, hd, hin⟩ ⟨later, hout⟩
    exact ⟨_, .child hs hd hc hin hout⟩
  case plain =>
    rintro sort t ts rest more hs ht h hc _ ⟨sites, hm⟩
    exact ⟨sites, .plain hs ht h hc hm⟩

theorem View.exists_sites (h : Grammar.View ts) : ∃ sites, ViewSites ts sites := by
  obtain ⟨rest, h, hc⟩ := h
  obtain ⟨site, body, inner, hd, hin⟩ := h.exists_sites
  exact ⟨_, .view hd hc hin⟩

theorem Declared.child (h : Declared ts site body rest) (he : Entries site.path.sort body) :
    Child ts rest := by
  obtain ⟨ha, hn, hf, hb⟩ := h
  generalize hsort : WidgetPath.sort _ = sort at hb he
  cases hb with
  | body hi => exact .body ha.attributes hn hf hi (hsort ▸ he)
  | bare hi => exact .bare ha.attributes hn hf hi hsort

theorem Sites.entries (h : Sites sort ts sites) : Entries sort ts := by
  induction h with
  | nil => exact .nil
  | child hs hd hc _ _ ihin ihout => exact .child hs (hd.child ihin) hc ihout
  | plain hs ht h hc _ ih => exact .plain hs ht h hc ih

end Grammar

/-! ### Reading finds the sites -/

namespace Parse

open Grammar

variable {ts rest body : List Token} {site : Site} {sites : List Site} {sort : WidgetSort}
  {stop : Nat × Nat}

/-- An attribute as it is kept. -/
def attributeIn (a : List Token) : String × Option String :=
  ((a.head?.bind Token.ident?).getD "", stringIn? a)

theorem attributeOf_eq {u : Token} (hu : u.isIdent) (cs : List Token) (s : Span) :
    attributeOf (u :: cs) s = .ok (attributeIn (u :: cs)) := by
  obtain ⟨name, hname⟩ := Token.isIdent_iff.mp hu
  rcases cs with _ | ⟨eq, _ | ⟨v, cs⟩⟩ <;> simp [attributeOf, attributeIn, stringIn?, hname]

theorem attributes_eq {as : List (List Token)} (h : Attributed ts as rest)
    (hend : ∀ t us, rest = t :: us → ¬t.isPunctOf "#") (found : Parse.Attributes) :
    attributes stop found ts = .ok (found.insertAll (as.map attributeIn), rest) := by
  induction h generalizing found with
  | @nil ts =>
    cases ts with
    | nil => rfl
    | cons t ts =>
      rw [attributes.eq_def]
      exact if_neg (hend t ts rfl)
  | @cons t u cs s ts as rest ht hu _ ih =>
    simp only [attributes, ht, if_true, attributeOf_eq hu, ih hend]
    rfl

theorem attributeIn_fst_iff {as : List (List Token)} (h : Attributed ts as rest) (name : String) :
    ∀ a ∈ as, decide ((attributeIn a).1 = name) = a.head?.any fun t => t.isIdentOf name := by
  induction h with
  | nil => simp
  | @cons t u cs s ts as rest _ hu _ ih =>
    obtain ⟨first, hfirst⟩ := Token.isIdent_iff.mp hu
    refine List.forall_mem_cons.mpr ⟨?_, ih⟩
    simp only [attributeIn, List.head?_cons, Option.bind_some, hfirst, Option.getD_some,
      Option.any_some, Token.isIdentOf]
    exact Bool.eq_iff_iff.mpr (by simp)

/-- The attributes that are kept have the values that are written last. -/
theorem valueOf_eq {as : List (List Token)} (h : Attributed ts as rest) (d : Declaration)
    (hd : d.attributes = Table.empty.insertAll (as.map attributeIn)) (name : String) :
    d.valueOf name = (⟨as, d.path⟩ : Site).valueOf name := by
  rw [Declaration.valueOf, hd, (Table.keepsLast_insertAll _).value, Table.boundTo, List.filter_map,
    List.map_map, List.getLast?_map, Site.valueOf, ← List.filter_congr (attributeIn_fst_iff h name)]
  rw [← Option.bind_id_eq_join, Option.bind_map]
  rfl

end Parse

/-- A declaration that is read at a site has its path, and the attributes that are written there. -/
structure Site.ReadAs (s : Site) (d : Parse.Declaration) : Prop where
  path : d.path = s.path
  valueOf : ∀ name, d.valueOf name = s.valueOf name

namespace Parse

open Grammar

variable {ts rest body : List Token} {site : Site} {sites : List Site} {sort : WidgetSort}

theorem shell_of_bodied {path : WidgetPath} (h : Bodied path.sort ts body rest)
    (hno : ∀ d cs s us, rest ≠ .group d cs s :: us) (stop : Nat × Nat) :
    ∃ init bodyStop, shell path stop ts = .ok ⟨init, body, bodyStop, rest⟩ := by
  generalize hsort : path.sort = sort at h
  cases h with
  | body hi =>
    obtain ⟨init, hs⟩ : ∃ init, shell path stop ts = .ok ⟨init, body, _, rest⟩ := shell_of_body hi
    exact ⟨init, _, hs⟩
  | bare hi =>
    obtain ⟨init, hs⟩ : ∃ init, shell path stop ts = .ok ⟨init, [], stop, rest⟩ :=
      shell_of_bare hi hsort hno
    exact ⟨init, _, hs⟩

theorem declaration_of_declared (h : Grammar.Declared ts site body rest)
    (hno : ∀ d cs s us, rest ≠ .group d cs s :: us) (stop : Nat × Nat) :
    ∃ d, declaration stop ts = .ok d ∧ site.ReadAs d ∧ d.body = body ∧ d.rest = rest := by
  cases h with
  | site ha hn hf hb =>
    rename_i as ns path after
    obtain ⟨init, bodyStop, hshell⟩ := shell_of_bodied hb hno stop
    let d : Declaration :=
      ⟨Table.empty.insertAll (as.map attributeIn), path, .ok ⟨init, body, bodyStop, rest⟩⟩
    refine ⟨d, ?_, ⟨rfl, valueOf_eq ha d rfl⟩, rfl, rfl⟩
    have hscan := QualifiedName.scan?_eq_some_iff.mpr ⟨ns, after, rfl, rfl, hn, hf⟩
    rw [declaration, attributes_eq ha (not_mark_of_name hn)]
    simp only [hscan, List.drop_left, hshell]
    rfl

/-- The declarations of a tree are read at the site of its root and at the sites in its body. -/
theorem tree_of_sites {d : Declaration} {inner : List Site} (hread : site.ReadAs d)
    (hinner :
      List.Forall₂ Site.ReadAs inner
        (Tree.forestToList (nested site.path.sort d.bodyStop d.body))) :
    List.Forall₂ Site.ReadAs (site :: inner) (declarationTree d).toList := by
  rw [declarationTree, Tree.toList_node, hread.path]
  exact .cons hread hinner

/-- The declarations in a body are read at its sites, in their order. -/
theorem nested_of_sites (h : Sites sort ts sites) (stop : Nat × Nat) :
    List.Forall₂ Site.ReadAs sites (Tree.forestToList (nested sort stop ts)) := by
  induction h generalizing stop with
  | nil =>
    rw [nested]
    exact .nil
  | @child sort ts site body rest more inner later hs hd hc _ hout ihin ihout =>
    obtain ⟨d, hdecl, hread, hbody, hrest⟩ :=
      declaration_of_declared hd (not_group_of_entries hc hout.entries) stop
    cases ts with
    | nil => cases hdecl
    | cons t ts =>
      rw [nested_child (startsChild_iff.mpr hs) hdecl, hrest, skipComma_of_entries hc hout.entries]
      have htree := tree_of_sites hread (hbody ▸ ihin d.bodyStop)
      exact List.rel_append htree (ihout stop)
  | @plain sort t ts rest more sites hs ht h hc hm ih =>
    obtain ⟨name, hname⟩ := Token.isIdent_iff.mp ht
    obtain ⟨e, he⟩ : ∃ e, plainEntry stop sort name t.span.position ts = .ok (e, rest) :=
      plainEntry_accepts.mpr h
    have hplain : startsChild sort (t :: ts) = false := by simpa [← startsChild_iff] using hs
    rw [nested_plain hplain hname he, skipComma_of_entries hc hm.entries]
    exact ih stop

/-- The declarations of a view are read at its sites, in their order. -/
theorem declarations_of_sites (h : ViewSites ts sites) :
    List.Forall₂ Site.ReadAs sites (declarations ts) := by
  cases h with
  | view hd hc hin =>
    have hnil : Entries .toolkit [] := .nil
    obtain ⟨d, hdecl, hread, hbody, -⟩ :=
      declaration_of_declared hd (not_group_of_entries hc hnil) (endOf ts)
    rw [declarations, hdecl]
    exact tree_of_sites hread (hbody ▸ nested_of_sites hin d.bodyStop)

end Parse

end WidgetView
