import WidgetView.Proofs.Acceptance
import WidgetView.Proofs.Outcomes

/-!
# Views compose

Views compose. A run of tokens that has a view of its own is also an entry of a toolkit body, alone
or with a comma behind it: neither the end of the run nor the comma changes what is read. So a body
of such runs holds their views, under the names that they get one after another.
-/
namespace WidgetView

open Grammar

namespace Parse

variable {stop : Nat × Nat} {ts rest behind : List Token}

/-! ### What stands behind a declaration -/

theorem Declaration.body_eq {d : Declaration} {sh : Shell} (hs : d.shell = .ok sh) :
    d.body = sh.body := by
  rw [Declaration.body, hs]

theorem Declaration.rest_eq {d : Declaration} {sh : Shell} (hs : d.shell = .ok sh) :
    d.rest = sh.rest := by
  rw [Declaration.rest, hs]

theorem follow_of_ends (h : Ends behind) : Follow behind := by
  cases h with
  | done => exact .done
  | comma hc => exact .comma hc

theorem follow_append (h : Follow ts) (hends : Ends behind) : Follow (ts ++ behind) := by
  cases h with
  | done => exact follow_of_ends hends
  | comma hc => exact .comma hc
  | group => exact .group

/-- Attributes are read as far, whatever ends the run. -/
theorem attributes_append {found attrs : Parse.Attributes} (stop' : Nat × Nat) (hends : Ends behind)
    (h : attributes stop found ts = .ok (attrs, rest)) :
    attributes stop' found (ts ++ behind) = .ok (attrs, rest ++ behind) := by
  fun_induction attributes stop found ts with
  | case1 found =>
    obtain ⟨rfl, rfl⟩ := Prod.mk.inj (Except.ok.inj h)
    cases hends with
    | done => rfl
    | comma hc =>
      rw [List.nil_append, attributes.eq_def]
      exact if_neg fun hmark => absurd (Token.isPunctOf_unique hc hmark) (by decide)
  | case2 => cases h
  | case3 found t ht cs s us name v hattr ih => simpa [attributes, ht, hattr] using ih h
  | case4 => cases h
  | case5 found t ts ht =>
    obtain ⟨rfl, rfl⟩ := Prod.mk.inj (Except.ok.inj h)
    rw [List.cons_append, attributes.eq_def]
    exact if_neg ht

theorem scan?_append {path : WidgetPath} {n : Nat} (hends : Ends behind)
    (h : QualifiedName.scan? ts = some (path, n)) :
    QualifiedName.scan? (ts ++ behind) = some (path, n) ∧
      (ts ++ behind).drop n = ts.drop n ++ behind := by
  obtain ⟨ns, after, rfl, rfl, hn, hf⟩ := QualifiedName.scan?_eq_some_iff.mp h
  rw [List.append_assoc, List.drop_left, List.drop_left]
  exact ⟨QualifiedName.scan?_eq_some_iff.mpr
    ⟨ns, after ++ behind, rfl, rfl, hn, follow_append hf hends⟩, rfl⟩

theorem initParams_ends (hends : Ends behind) : initParams behind = .ok ([], behind) := by
  cases hends with
  | done => rfl
  | comma hc =>
    obtain ⟨span, rfl⟩ := Token.isPunctOf_eq_true hc
    rfl

theorem initParams_append {init : List Expr} (hends : Ends behind)
    (h : initParams ts = .ok (init, rest)) :
    initParams (ts ++ behind) = .ok (init, rest ++ behind) := by
  cases ts with
  | nil =>
    obtain ⟨rfl, rfl⟩ := Prod.mk.inj (Except.ok.inj h)
    exact initParams_ends hends
  | cons t ts =>
    have hbare : (.ok ([], t :: ts) : Except ParseError (List Expr × List Token)) =
        .ok (init, rest) →
        (.ok ([], t :: ts ++ behind) : Except ParseError (List Expr × List Token)) =
          .ok (init, rest ++ behind) := by
      intro h
      obtain ⟨rfl, rfl⟩ := Prod.mk.inj (Except.ok.inj h)
      rfl
    cases t with
    | leaf l => exact hbare h
    | group d cs s =>
      cases d with
      | bracket => exact hbare h
      | brace => exact hbare h
      | paren =>
        rw [initParams] at h
        rw [List.cons_append, initParams]
        cases he : exprs s.position cs with
        | error e => simp [he, Except.map] at h
        | ok es =>
          simp only [he, Except.map, Except.ok.injEq, Prod.mk.injEq] at h ⊢
          obtain ⟨rfl, rfl⟩ := h
          exact ⟨rfl, rfl⟩

theorem shell_of_no_body {path : WidgetPath} {init : List Expr}
    (hinit : initParams ts = .ok (init, rest)) (hno : ∀ cs s us, rest ≠ .group .brace cs s :: us) :
    shell path stop ts =
      if path.isToolkit then .error (ParseError.expected stop rest (.body path.text))
      else .ok ⟨init, [], stop, rest⟩ := by
  rw [shell, hinit]
  dsimp only
  split
  · next cs s us => exact absurd rfl (hno cs s us)
  · rfl

theorem no_body_append (hends : Ends behind) (hno : ∀ cs s us, ts ≠ .group .brace cs s :: us) :
    ∀ cs s us, ts ++ behind ≠ .group .brace cs s :: us := by
  intro cs s us he
  cases ts with
  | nil =>
    obtain rfl := he
    cases hends with
    | comma hc => cases hc
  | cons t ts =>
    obtain ⟨rfl, -⟩ := List.cons.inj he
    exact hno cs s ts rfl

/-- The shell is read as far, whatever ends the run. Only a body that is missing has another
place. -/
theorem shell_append {path : WidgetPath} {sh : Shell} (stop' : Nat × Nat) (hends : Ends behind)
    (h : shell path stop ts = .ok sh) :
    ∃ bodyStop, shell path stop' (ts ++ behind) =
        .ok { sh with bodyStop := bodyStop, rest := sh.rest ++ behind } ∧
      (sh.body = [] ∨ bodyStop = sh.bodyStop) := by
  cases hinit : initParams ts with
  | error e =>
    rw [shell, hinit] at h
    cases h
  | ok r =>
    obtain ⟨init, r⟩ := r
    by_cases hbody : ∃ cs s us, r = .group .brace cs s :: us
    · obtain ⟨cs, s, us, rfl⟩ := hbody
      rw [shell, hinit] at h
      obtain rfl := Except.ok.inj h
      refine ⟨s.position, ?_, .inr rfl⟩
      rw [shell, initParams_append hends hinit]
      rfl
    · have hno : ∀ cs s us, r ≠ .group .brace cs s :: us := by simpa using hbody
      rw [shell_of_no_body hinit hno] at h
      rw [shell_of_no_body (initParams_append hends hinit) (no_body_append hends hno)]
      split at h
      · cases h
      · next htoolkit =>
        obtain rfl := Except.ok.inj h
        exact ⟨stop', if_neg htoolkit, .inl rfl⟩

/-- A declaration is read as far, whatever ends the run. -/
theorem declaration_append {d : Declaration} {sh : Shell} (stop' : Nat × Nat) (hends : Ends behind)
    (h : declaration stop ts = .ok d) (hs : d.shell = .ok sh) :
    ∃ bodyStop, declaration stop' (ts ++ behind) =
        .ok { d with shell := .ok { sh with bodyStop := bodyStop, rest := sh.rest ++ behind } } ∧
      (sh.body = [] ∨ bodyStop = sh.bodyStop) := by
  unfold declaration at h
  split at h
  · cases h
  · next found r hattrs =>
    split at h
    · cases h
    · next path n hscan =>
      obtain rfl := Except.ok.inj h
      obtain ⟨hscan', hdrop⟩ := scan?_append hends hscan
      obtain ⟨bodyStop, hshell, hstop⟩ := shell_append stop' hends hs
      refine ⟨bodyStop, ?_, hstop⟩
      simp only [declaration, attributes_append stop' hends hattrs, hscan', hdrop, hshell]

/-- The place of a missing body is never looked at, and neither is what stands behind a
declaration. -/
theorem declared_of_shell {d : Declaration} {sh : Shell} (hs : d.shell = .ok sh)
    {bodyStop : Nat × Nat} (hstop : sh.body = [] ∨ bodyStop = sh.bodyStop) (rest : List Token) :
    declared { d with shell := .ok { sh with bodyStop := bodyStop, rest := rest } } =
      declared d := by
  have hentries : entries d.path.sort bodyStop sh.body =
      entries d.path.sort sh.bodyStop sh.body := by
    rcases hstop with hnil | rfl
    · rw [hnil, entries, entries]
    · rfl
  rw [declared, declared, hs, Declaration.body_eq hs]
  simp only [Step.ofExcept, pure_bind, Declaration.body]
  rw [hentries]
  rfl

theorem declaration_suffix {d : Declaration} {sh : Shell} (h : declaration stop ts = .ok d)
    (hs : d.shell = .ok sh) : sh.rest <:+ ts := by
  unfold declaration at h
  split at h
  · cases h
  · next found r hattrs =>
    split at h
    · cases h
    · next path n hscan =>
      obtain rfl := Except.ok.inj h
      exact ((shell_within hs).1.trans (List.drop_suffix n r)).trans (attributes_suffix hattrs)

end Parse

/-! ### Components -/

/-- The views of some runs of tokens, read one after another with one index of names. -/
def Source.views (fs : FileSystem) (base : Pathname) (n : NameIndex) :
    List (List Token) → Except Failure (List View) × NameIndex
  | [] => (.ok [], n)
  | ts :: tss =>
    match view fs base ts { names := n } with
    | (.error e, st) => (.error e, st.names)
    | (.ok v, st) =>
      match views fs base st.names tss with
      | (.error e, n') => (.error e, n')
      | (.ok vs, n') => (.ok (v :: vs), n')

/-- A run of tokens that has a view and starts as a child of a toolkit widget does, with a name that
does not end in small letters or with `#` and never with the name of a file. No comma stands behind
its widget. -/
structure Component (fs : FileSystem) (base : Pathname) (ts : List Token) : Prop where
  accepted : ∃ v, (Source.view fs base ts {}).1 = .ok v
  starts : StartsChild .toolkit ts
  bare : ∀ t ∈ ts.getLast?, ¬t.isPunctOf ","

/-- Runs of tokens with a comma between each and the next. -/
inductive Joined : List (List Token) → List Token → Prop where
  | nil : Joined [] []
  | last {ts : List Token} : Joined [ts] ts
  | more {ts us body : List Token} {tss : List (List Token)} {c : Token} (hc : c.isPunctOf ",")
      (h : Joined (us :: tss) body) : Joined (ts :: us :: tss) (ts ++ c :: body)

/-- `gtk::Box` with a body. -/
def boxOf (body : List Token) (gtk colons box braces : Span) : List Token :=
  [.leaf ⟨.ident, "gtk", gtk⟩, .leaf ⟨.punct, "::", colons⟩, .leaf ⟨.ident, "Box", box⟩,
    .group .brace body braces]

theorem fileName?_of_startsChild {sort : WidgetSort} {ts : List Token} (h : StartsChild sort ts) :
    Source.fileName? ts = none := by
  have hident : ∀ {t : Token} {us : List Token}, t.isIdent → Source.fileName? (t :: us) = none := by
    intro t us ht
    obtain ⟨name, hname⟩ := Token.isIdent_iff.mp ht
    obtain ⟨span, rfl⟩ := Token.ident?_eq_some hname
    rfl
  cases h with
  | marked hmark =>
    obtain ⟨span, rfl⟩ := Token.isPunctOf_eq_true hmark
    rfl
  | toolkit hn _ _ =>
    obtain ⟨t, us, rfl, ht⟩ := hn.head
    exact hident ht
  | composed hn _ =>
    obtain ⟨t, us, rfl, ht⟩ := hn.head
    exact hident ht

theorem Source.view_of_root {ts : List Token} (hs : fileName? ts = none) (fs : FileSystem)
    (base : Pathname) {st st' : Session} {v : View} :
    view fs base ts st = (.ok v, st') ↔ Parse.root ts st = .ok v st' := by
  have hfollow : follow fs base ts = .ok ts := by rw [follow, hs]
  simp only [view, hfollow]
  cases Parse.root ts st <;> simp

namespace Component

variable {fs : FileSystem} {base : Pathname} {ts : List Token}

theorem of_grammar (hv : Grammar.View ts) (starts : StartsChild .toolkit ts)
    (bare : ∀ t ∈ ts.getLast?, ¬t.isPunctOf ",") : Component fs base ts := by
  obtain ⟨v, st, hroot⟩ : ∃ v st, Parse.root ts {} = .ok v st := Parse.root_accepts.mpr hv
  have hview := (Source.view_of_root (fileName?_of_startsChild starts) fs base).mpr hroot
  exact ⟨⟨v, by rw [hview]⟩, starts, bare⟩

/-- A component is one declaration and nothing else, which is read from every session. -/
theorem declaration (h : Component fs base ts) :
    ∃ d sh, Parse.declaration (endOf ts) ts = .ok d ∧ d.shell = .ok sh ∧ sh.rest = [] ∧
      ∀ st, ∃ v st', Parse.declared d st = .ok v st' := by
  have hno := fileName?_of_startsChild h.starts
  obtain ⟨v, hv⟩ := h.accepted
  have hview : Source.view fs base ts {} = (.ok v, (Source.view fs base ts {}).2) := by rw [← hv]
  have hroot := (Source.view_of_root hno fs base).mp hview
  have hgrammar : Grammar.View ts := Parse.root_accepts.mp ⟨_, _, hroot⟩
  obtain ⟨d, hd, hdeclared⟩ := Parse.root_eq_ok hroot
  obtain ⟨sh, -, -, hs, -, -, -⟩ := Parse.declared_eq_ok hdeclared
  refine ⟨d, sh, hd, hs, ?_, fun st => ?_⟩
  · have hskip : Parse.skipComma sh.rest = [] := by
      rw [← Parse.Declaration.rest_eq hs]
      exact ((Parse.root_eq_ok_iff hd).mp hroot).2
    have hsuffix := Parse.declaration_suffix hd hs
    cases hrest : sh.rest with
    | nil => rfl
    | cons t us =>
      rw [hrest, Parse.skipComma] at hskip
      split at hskip
      · next hcomma =>
        obtain rfl := hskip
        rw [hrest] at hsuffix
        obtain ⟨front, rfl⟩ := hsuffix
        exact absurd hcomma (h.bare t (by rw [List.getLast?_concat]; rfl))
      · cases hskip
  · obtain ⟨v, st', hroot⟩ : ∃ v st', Parse.root ts st = .ok v st' :=
      Parse.root_accepts.mpr hgrammar
    exact ⟨v, st', ((Parse.root_eq_ok_iff hd).mp hroot).1⟩

theorem startsChild_append {sort : WidgetSort} {behind : List Token} (h : StartsChild sort ts)
    (hends : Ends behind) : StartsChild sort (ts ++ behind) := by
  cases h with
  | marked hmark => exact .marked hmark
  | toolkit hn hl hf =>
    rw [List.append_assoc]
    exact .toolkit hn hl (Parse.follow_append hf hends)
  | composed hn hl =>
    rw [List.append_assoc, List.cons_append]
    exact .composed hn hl

/-- In a toolkit body a component is read as a child, as it is read alone, and the entries behind it
follow. -/
theorem entries_append (h : Component fs base ts) {behind : List Token} (hends : Ends behind)
    (stop : Nat × Nat) (st : Session) :
    ∃ v st₁ st₂, Source.view fs base ts { names := st.names } = (.ok v, st₁) ∧
      st₁.names = st₂.names ∧
      ∀ found st', Parse.entries .toolkit stop (Parse.skipComma behind) st₂ = .ok found st' →
        Parse.entries .toolkit stop (ts ++ behind) st = .ok (.child v :: found) st' := by
  obtain ⟨d, sh, hd, hs, hrest, hread⟩ := h.declaration
  obtain ⟨v, st₁, hv⟩ := hread { names := st.names }
  -- alone it is read without the parents that the entries before it have noted
  obtain ⟨st₂, hv', hnames⟩ : ∃ st₂, Parse.declared d st = .ok v st₂ ∧ st₁.names = st₂.names := by
    have hsame := Parse.declared_sameNames d { names := st.names } st rfl
    rw [hv] at hsame
    generalize Parse.declared d st = r at hsame
    cases hsame with
    | ok hst hvalue => exact ⟨_, by rw [hvalue], hst⟩
  have hroot : Parse.root ts { names := st.names } = .ok v st₁ := by
    refine (Parse.root_eq_ok_iff hd).mpr ⟨hv, ?_⟩
    rw [Parse.Declaration.rest_eq hs, hrest, Parse.skipComma]
  refine ⟨v, st₁, st₂, (Source.view_of_root (fileName?_of_startsChild h.starts) fs base).mpr hroot,
    hnames, ?_⟩
  intro found st' hfound
  obtain ⟨bodyStop, hd', hstop⟩ := Parse.declaration_append stop hends hd hs
  have hdeclared := Parse.declared_of_shell hs hstop (sh.rest ++ behind)
  have hstarts := startsChild_append h.starts hends
  generalize ts ++ behind = us at hd' hstarts
  cases us with
  | nil => cases hd'
  | cons t us =>
    rw [Parse.entries_child (Parse.startsChild_iff.mpr hstarts), hd']
    refine Parse.Step.bind_eq_ok.mpr ⟨v, st₂, by rw [hdeclared]; exact hv', ?_⟩
    refine Parse.Step.bind_eq_ok.mpr ⟨found, st', ?_, Parse.Step.pure_eq_ok.mpr ⟨rfl, rfl⟩⟩
    rw [Parse.Declaration.rest_eq rfl, hrest]
    exact hfound

end Component

theorem Source.views_cons {fs : FileSystem} {base : Pathname} {n n' : NameIndex} {ts : List Token}
    {tss : List (List Token)} {v : View} {vs : List View} {st : Session}
    (h : view fs base ts { names := n } = (.ok v, st))
    (hs : views fs base st.names tss = (.ok vs, n')) :
    views fs base n (ts :: tss) = (.ok (v :: vs), n') := by
  simp only [views, h, hs]

/-- The children in a body of components are their views, read one after another. -/
theorem entries_joined {fs : FileSystem} {base : Pathname} {tss : List (List Token)}
    {body : List Token} (hj : Joined tss body) (h : ∀ ts ∈ tss, Component fs base ts)
    (stop : Nat × Nat) (st : Session) :
    ∃ found st', Parse.entries .toolkit stop body st = .ok found st' ∧
      Source.views fs base st.names tss = (.ok (found.filterMap Entry.child?), st'.names) := by
  induction hj generalizing st with
  | nil => exact ⟨[], st, by rw [Parse.entries]; rfl, rfl⟩
  | @last ts =>
    obtain ⟨v, st₁, st₂, hv, hnames, hread⟩ :=
      (h ts List.mem_cons_self).entries_append .done stop st
    refine ⟨[.child v], st₂, ?_, Source.views_cons hv ?_⟩
    · have hnil : Parse.entries .toolkit stop [] st₂ = .ok [] st₂ := by
        rw [Parse.entries]
        rfl
      simpa using hread [] st₂ hnil
    · rw [hnames]
      rfl
  | @more ts us body tss c hc _ ih =>
    obtain ⟨hts, htss⟩ := List.forall_mem_cons.mp h
    obtain ⟨v, st₁, st₂, hv, hnames, hread⟩ := hts.entries_append (.comma hc) stop st
    obtain ⟨found, st', hfound, hviews⟩ := ih htss st₂
    refine ⟨.child v :: found, st', hread found st' ?_, Source.views_cons hv ?_⟩
    · rw [Parse.skipComma_comma hc]
      exact hfound
    · rw [hnames]
      exact hviews

/-- The path of a box. -/
def boxPath (gtk : Span) : WidgetPath :=
  { segments := ["gtk", "Box"], line := gtk.line, column := gtk.column }

theorem sort_boxPath (gtk : Span) : (boxPath gtk).sort = .toolkit := by
  simp [boxPath, WidgetPath.sort, WidgetPath.isToolkit, WidgetPath.isQualified]

theorem declaration_boxOf (stop : Nat × Nat) (body : List Token) (gtk colons box braces : Span) :
    ∃ d, Parse.declaration stop (boxOf body gtk colons box braces) = .ok d ∧ d.path = boxPath gtk ∧
      d.shell = .ok ⟨[], body, braces.position, []⟩ := by
  have hname : Name [.leaf ⟨.ident, "gtk", gtk⟩, .leaf ⟨.punct, "::", colons⟩,
      .leaf ⟨.ident, "Box", box⟩]
      (boxPath gtk) := .plain (.more rfl rfl (.one rfl))
  obtain ⟨attrs, hd⟩ : ∃ attrs, Parse.declaration stop (boxOf body gtk colons box braces) =
      .ok ⟨attrs, boxPath gtk, Parse.shell (boxPath gtk) stop [.group .brace body braces]⟩ :=
    Parse.declaration_of_name .nil hname .group
  exact ⟨_, hd, rfl, rfl⟩

/-- Views compose: a box of components has a view, whose children are the views of the components
read one after another once the name of the box is drawn. -/
theorem box_of_components {fs : FileSystem} {base : Pathname} {tss : List (List Token)}
    {body : List Token} (hj : Joined tss body) (h : ∀ ts ∈ tss, Component fs base ts)
    (gtk colons box braces : Span) (n : NameIndex) :
    ∃ v st, Source.view fs base (boxOf body gtk colons box braces) { names := n } = (.ok v, st) ∧
      Source.views fs base (n.next { segments := ["gtk", "Box"] }).2 tss =
        (.ok v.children, st.names) := by
  obtain ⟨d, hd, hpath, hs⟩ :=
    declaration_boxOf (endOf (boxOf body gtk colons box braces)) body gtk colons box braces
  obtain ⟨found, st₁, hfound, hviews⟩ :=
    entries_joined hj h braces.position { names := (n.next d.path).2 }
  have hsort : d.path.sort = .toolkit := by rw [hpath, sort_boxPath]
  rw [← hsort] at hfound
  obtain ⟨v, st, hv⟩ : ∃ v st, Parse.declared d { names := n } = .ok v st :=
    (Parse.declared_accepts hs).mpr ⟨found, st₁, hfound⟩
  have hroot : Parse.root (boxOf body gtk colons box braces) { names := n } = .ok v st := by
    refine (Parse.root_eq_ok_iff hd).mpr ⟨hv, ?_⟩
    rw [Parse.Declaration.rest_eq hs, Parse.skipComma]
  refine ⟨v, st, (Source.view_of_root rfl fs base).mpr hroot, ?_⟩
  -- the entries that the box is made of are the ones that were found
  obtain ⟨sh, found', st₂, hs', hfound', rfl, hnames⟩ := Parse.declared_eq_ok hv
  obtain rfl := Except.ok.inj (hs.symm.trans hs')
  rw [Parse.Declaration.body_eq hs] at hfound'
  obtain ⟨rfl, rfl⟩ := EStateM.Result.ok.inj (hfound.symm.trans hfound')
  rw [Parse.Declaration.children_view, hnames, ← hviews, hpath]
  rfl

/-- A label with an empty body, and a composed widget without a body behind an attribute. -/
theorem box_of_components_sample :
    let s : Span := ⟨1, 1, 0, 0⟩
    let label : List Token := [.leaf ⟨.ident, "gtk", s⟩, .leaf ⟨.punct, "::", s⟩,
      .leaf ⟨.ident, "Label", s⟩, .group .brace [] s]
    let counter : List Token := [.leaf ⟨.punct, "#", s⟩,
      .group .bracket [.leaf ⟨.ident, "container", s⟩] s, .leaf ⟨.ident, "Counter", s⟩]
    let body := label ++ .leaf ⟨.punct, ",", s⟩ :: counter
    Joined [label, counter] body ∧ ∀ fs base, (∀ ts ∈ [label, counter], Component fs base ts) ∧
      ∃ v st, Source.view fs base (boxOf body s s s s) {} = (.ok v, st) ∧
        Source.views fs base (({} : NameIndex).next { segments := ["gtk", "Box"] }).2
            [label, counter] = (.ok v.children, st.names) := by
  intro s label counter body
  have hj : Joined [label, counter] body := .more rfl .last
  have hlabel : Name [.leaf ⟨.ident, "gtk", s⟩, .leaf ⟨.punct, "::", s⟩, .leaf ⟨.ident, "Label", s⟩]
      ⟨["gtk", "Label"], none, 1, 1⟩ := .plain (.more rfl rfl (.one rfl))
  have hcounter : Name [.leaf ⟨.ident, "Counter", s⟩] ⟨["Counter"], none, 1, 1⟩ := .plain (.one rfl)
  refine ⟨hj, fun fs base => ?_⟩
  have h : ∀ ts ∈ [label, counter], Component fs base ts := by
    intro ts hts
    rcases List.mem_pair.mp hts with rfl | rfl
    · exact .of_grammar ⟨[], .body .nil hlabel .group .without .nil, .without⟩
        (.toolkit hlabel (by decide) .group) (by simp [label, Token.isPunctOf, Token.punct?])
    · exact .of_grammar
        ⟨[], .bare (.cons rfl rfl .nil) hcounter .done .without (by decide), .without⟩
        (.marked rfl) (by simp [counter, Token.isPunctOf, Token.punct?])
  exact ⟨h, box_of_components hj h s s s s {}⟩

end WidgetView
